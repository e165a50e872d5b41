import Candlestick.Candle.Basic
import Candlestick.Proofs.Decimal.Total
import Candlestick.Proofs.Decimal.Value
import Mathlib

/-!
# Where sums are exact

A sum is exact wherever the exact number can be written as a decimal at all. Where it
cannot, it is off by half a unit of its last digit at most and nothing says so
(`sum_loses_tenth`). It fails only where the number does not even fit when it is rounded to
an integer.
-/

namespace Candlestick

-- ---------------------------------------------------------------------------
-- Rounded quotients
-- ---------------------------------------------------------------------------

theorem divHalfEven_mul_self (n : Nat) {d : Nat} (hd : 0 < d) : divHalfEven (n * d) d = n := by
  have cancelled := divHalfEven_mul_right n 1 hd
  rwa [Nat.one_mul, divHalfEven_one] at cancelled

theorem divHalfEven_cases (n d : Nat) :
    (divHalfEven n d = n / d ∧ (2 * (n % d) < d ∨ (2 * (n % d) = d ∧ n / d % 2 = 0))) ∨
      (divHalfEven n d = n / d + 1 ∧
        (d < 2 * (n % d) ∨ (2 * (n % d) = d ∧ n / d % 2 = 1))) := by
  unfold divHalfEven
  dsimp only
  split
  · next less => exact .inl ⟨rfl, .inl less⟩
  · split
    · next more => exact .inr ⟨rfl, .inl more⟩
    · split
      · next even => exact .inl ⟨rfl, .inr ⟨by omega, even⟩⟩
      · next odd => exact .inr ⟨rfl, .inr ⟨by omega, by omega⟩⟩

theorem divHalfEven_even {n d : Nat} (hd : 0 < d)
    (tie : 2 * n = 2 * (divHalfEven n d * d) + d) : divHalfEven n d % 2 = 0 := by
  have hn : n / d * d + n % d = n := Nat.div_add_mod' n d
  have hr : n % d < d := Nat.mod_lt n hd
  rcases divHalfEven_cases n d with ⟨down, short⟩ | ⟨up, -⟩
  · rw [down] at tie ⊢
    omega
  · rw [up, Nat.succ_mul (n / d) d] at tie
    omega

/-- A rounded quotient reaches an even number half a unit before the quotient
does. -/
theorem le_divHalfEven_iff {limit n d : Nat} (even : limit % 2 = 0) (hd : 0 < d) :
    limit ≤ divHalfEven n d ↔ 2 * (limit * d) ≤ 2 * n + d := by
  obtain ⟨above, below⟩ := divHalfEven_near n hd
  constructor
  · intro reached
    have := Nat.mul_le_mul_right d reached
    omega
  · intro reached
    by_contra short
    -- one unit short is possible in a tie only, which is rounded the other way
    have step : (divHalfEven n d + 1) * d ≤ limit * d := Nat.mul_le_mul_right d (by omega)
    rw [Nat.succ_mul] at step
    have tie : 2 * n = 2 * (divHalfEven n d * d) + d := by omega
    have same : (divHalfEven n d + 1) * d = limit * d := by rw [Nat.succ_mul]; omega
    have next := Nat.eq_of_mul_eq_mul_right hd same
    have := divHalfEven_even hd tie
    omega

namespace Decimal

def value (d : Decimal) : ℚ := d.coefficient / pow10 d.scale

/-- What adding two decimals gives: the exact number where a decimal can be written
for it, and otherwise one that is off by half a unit of its last digit at most. Only
a number that rounds to an integer of more than 96 bits has no sum. -/
def IsSum (a b : Decimal) : Except DecimalError Decimal → Prop
  | .ok s =>
    ((∃ d : Decimal, d.value = a.value + b.value) → s.value = a.value + b.value) ∧
      |s.value - (a.value + b.value)| ≤ 1 / (2 * pow10 s.scale) ∧
      |a.value + b.value| < coefficientLimit - 1 / 2
  | .error e =>
    e = .overflow a b ∧ (¬ ∃ d : Decimal, d.value = a.value + b.value) ∧
      coefficientLimit - 1 / 2 ≤ |a.value + b.value|

variable {a b d s : Decimal} {coefficient : Int} {scale dropped n : Nat}

theorem cast_pow10_pos (n : Nat) : (0 : ℚ) < pow10 n := Nat.cast_pos.mpr (pow10_pos n)

-- ---------------------------------------------------------------------------
-- Values
-- ---------------------------------------------------------------------------

theorem value_eq_coefficientAt (h : d.scale ≤ n) :
    d.value = (d.coefficientAt n : ℚ) / pow10 n := by
  have split : pow10 n = pow10 (n - d.scale) * pow10 d.scale := by
    rw [← pow10_add, Nat.sub_add_cancel h]
  rw [value, coefficientAt, split]
  push_cast
  rw [mul_comm (pow10 (n - d.scale) : ℚ), mul_div_mul_right _ _ (cast_pow10_pos _).ne']

theorem value_add_value (a b : Decimal) :
    a.value + b.value = ((a.coefficientAt (commonScale a b) + b.coefficientAt (commonScale a b) :
      Int) : ℚ) / pow10 (commonScale a b) := by
  obtain ⟨ha, hb⟩ := commonScale_ge a b
  rw [value_eq_coefficientAt ha, value_eq_coefficientAt hb, ← add_div, Int.cast_add]

theorem value_of_isZero (h : d.isZero = true) : d.value = 0 := by
  rw [value, isZero_iff.mp h, Int.cast_zero, zero_div]

theorem abs_value_lt (d : Decimal) : |d.value| < coefficientLimit - 1 / 2 := by
  have small : (d.magnitude : ℚ) ≤ coefficientLimit - 1 := by
    have := d.magnitude_lt
    exact le_sub_iff_add_le.mpr (by exact_mod_cast this)
  have whole : (1 : ℚ) ≤ pow10 d.scale := by exact_mod_cast pow10_pos d.scale
  have magnitude : |(d.coefficient : ℚ)| = d.magnitude := by
    rw [← d.natAbs_coefficient, Nat.cast_natAbs, Int.cast_abs]
  calc |d.value| = d.magnitude / pow10 d.scale := by
        rw [value, abs_div, magnitude, abs_of_pos (cast_pow10_pos _)]
    _ ≤ d.magnitude := div_le_self (Nat.cast_nonneg _) whole
    _ < coefficientLimit - 1 / 2 := by linarith

-- ---------------------------------------------------------------------------
-- Dropping digits
-- ---------------------------------------------------------------------------

theorem coefficientLimit_even : coefficientLimit % 2 = 0 := by decide

theorem natAbs_sign_mul {c : Int} {q : Nat} (h : c = 0 → q = 0) : (c.sign * q).natAbs = q := by
  rcases Int.lt_trichotomy c 0 with hc | rfl | hc
  · simp [Int.sign_eq_neg_one_of_neg hc]
  · simp [h rfl]
  · simp [Int.sign_eq_one_of_pos hc]

theorem rounded?_eq_none_iff (h : scale - dropped ≤ maxScale) :
    rounded? coefficient scale dropped = none ↔
      2 * (coefficientLimit * pow10 dropped) ≤ 2 * coefficient.natAbs + pow10 dropped := by
  have zero : coefficient = 0 → divHalfEven coefficient.natAbs (pow10 dropped) = 0 := by
    rintro rfl
    simpa using divHalfEven_mul_self 0 (pow10_pos dropped)
  rw [← le_divHalfEven_iff coefficientLimit_even (pow10_pos dropped), rounded?, ofParts?,
    ofSigned?, natAbs_sign_mul zero]
  simp [h]

theorem rounded?_near (fits : rounded? coefficient scale dropped = some s)
    (h : dropped ≤ scale) :
    |s.value - coefficient / pow10 scale| ≤ 1 / (2 * pow10 s.scale) := by
  obtain ⟨hc, hs, -⟩ := ofParts?_eq_some_iff.mp fits
  obtain ⟨above, below⟩ := divHalfEven_near coefficient.natAbs (pow10_pos dropped)
  generalize divHalfEven coefficient.natAbs (pow10 dropped) = q at *
  have kept := cast_pow10_pos (scale - dropped)
  have unit := cast_pow10_pos dropped
  have split : (pow10 scale : ℚ) = pow10 (scale - dropped) * pow10 dropped := by
    rw [← Nat.cast_mul, ← pow10_add, Nat.sub_add_cancel h]
  have signed : (coefficient : ℚ) = coefficient.sign * coefficient.natAbs := by
    rw [← Int.cast_natCast (coefficient.natAbs), ← Int.cast_mul, Int.sign_mul_natAbs]
  have sign : |(coefficient.sign : ℚ)| ≤ 1 := by
    rcases Int.lt_trichotomy coefficient 0 with hc | rfl | hc
    · simp [Int.sign_eq_neg_one_of_neg hc]
    · simp
    · simp [Int.sign_eq_one_of_pos hc]
  have near : |(q * pow10 dropped - coefficient.natAbs : ℚ)| ≤ pow10 dropped / 2 := by
    have above' : (2 * coefficient.natAbs : ℚ) ≤ 2 * (q * pow10 dropped) + pow10 dropped := by
      exact_mod_cast above
    have below' : (2 * (q * pow10 dropped) : ℚ) ≤ 2 * coefficient.natAbs + pow10 dropped := by
      exact_mod_cast below
    rw [abs_le]
    constructor <;> linarith
  calc |s.value - coefficient / pow10 scale|
      = |(coefficient.sign : ℚ)| * |(q * pow10 dropped - coefficient.natAbs : ℚ)| /
          (pow10 (scale - dropped) * pow10 dropped) := by
        rw [← abs_mul, ← abs_of_pos (mul_pos kept unit), ← abs_div, value, hc, hs, split, signed]
        congr 1
        push_cast
        field_simp
    _ ≤ 1 * (pow10 dropped / 2) / (pow10 (scale - dropped) * pow10 dropped) := by gcongr
    _ = 1 / (2 * pow10 s.scale) := by
        rw [hs]
        field_simp

theorem rounded?_exact (fits : rounded? coefficient scale dropped = some s)
    (h : dropped ≤ scale) (zeros : pow10 dropped ∣ coefficient.natAbs) :
    s.value = coefficient / pow10 scale := by
  obtain ⟨hc, hs, -⟩ := ofParts?_eq_some_iff.mp fits
  obtain ⟨m, hm⟩ := zeros
  have split : (pow10 scale : ℚ) = pow10 (scale - dropped) * pow10 dropped := by
    rw [← Nat.cast_mul, ← pow10_add, Nat.sub_add_cancel h]
  have signed : (coefficient : ℚ) = coefficient.sign * (pow10 dropped * m) := by
    have := (Int.sign_mul_natAbs coefficient).symm
    rw [hm] at this
    exact_mod_cast this
  have unit := (cast_pow10_pos dropped).ne'
  rw [hm, Nat.mul_comm, divHalfEven_mul_self m (pow10_pos dropped)] at hc
  rw [value, hc, hs, split, signed]
  push_cast
  field_simp

-- ---------------------------------------------------------------------------
-- Dropping as few digits as fit
-- ---------------------------------------------------------------------------

theorem fit?_eq_some (h : fit? coefficient scale = some s) :
    ∃ dropped ≤ scale, rounded? coefficient scale dropped = some s ∧
      ∀ fewer < dropped, rounded? coefficient scale fewer = none := by
  obtain ⟨before, dropped, after, whole, fits, none⟩ := List.findSome?_eq_some_iff.mp h
  rw [List.range_eq_range', List.range'_eq_append_iff] at whole
  obtain ⟨k, le, rfl, rest⟩ := whole
  obtain ⟨rfl, room, -⟩ := List.range'_eq_cons_iff.mp rest.symm
  refine ⟨_, by omega, fits, fun fewer less => none fewer ?_⟩
  simp only [List.mem_range'_1]
  omega

theorem fit?_eq_none_iff (h : scale ≤ maxScale) :
    fit? coefficient scale = none ↔
      2 * (coefficientLimit * pow10 scale) ≤ 2 * coefficient.natAbs + pow10 scale := by
  rw [fit?, List.findSome?_eq_none_iff]
  constructor
  · intro out
    exact (rounded?_eq_none_iff (by omega)).mp (out scale (by simp))
  · intro large dropped mem
    rw [List.mem_range] at mem
    rw [rounded?_eq_none_iff (by omega)]
    have finer : pow10 dropped ≤ pow10 scale := Nat.pow_le_pow_right (by decide) (by omega)
    have one : 1 ≤ coefficientLimit := by decide
    -- the limit is at least one, so that fewer dropped digits ask for less
    have scaled := Nat.mul_le_mul_left (2 * coefficientLimit - 1) finer
    rw [Nat.sub_mul, Nat.sub_mul, Nat.mul_assoc, Nat.mul_assoc] at scaled
    have := Nat.mul_le_mul_right (pow10 scale) one
    have := Nat.mul_le_mul_right (pow10 dropped) one
    omega

theorem abs_div_pow10_lt_iff (coefficient : Int) (scale : Nat) :
    |(coefficient : ℚ) / pow10 scale| < coefficientLimit - 1 / 2 ↔
      ¬ 2 * (coefficientLimit * pow10 scale) ≤ 2 * coefficient.natAbs + pow10 scale := by
  have unit := cast_pow10_pos scale
  have magnitude : |(coefficient : ℚ)| = coefficient.natAbs := by
    rw [Nat.cast_natAbs, Int.cast_abs]
  rw [abs_div, magnitude, abs_of_pos unit, div_lt_iff₀ unit, not_le]
  constructor
  · intro less
    have : (2 * coefficient.natAbs + pow10 scale : ℚ) < 2 * (coefficientLimit * pow10 scale) := by
      linarith
    exact_mod_cast this
  · intro less
    have : (2 * coefficient.natAbs + pow10 scale : ℚ) < 2 * (coefficientLimit * pow10 scale) := by
      exact_mod_cast less
    linarith

theorem coefficient_eq_of_value_eq (same : d.value = (coefficient : ℚ) / pow10 scale)
    (h : d.scale ≤ scale) : coefficient = d.coefficientAt scale := by
  rw [value_eq_coefficientAt h, div_left_inj' (cast_pow10_pos scale).ne'] at same
  exact_mod_cast same.symm

theorem exists_value_eq (same : d.value = (coefficient : ℚ) / pow10 scale)
    (h : scale ≤ maxScale) :
    ∃ e : Decimal, e.value = (coefficient : ℚ) / pow10 scale ∧ e.scale ≤ scale := by
  rcases Nat.le_total d.scale scale with le | more
  · exact ⟨d, same, le⟩
  · have written : d.coefficient = coefficient * pow10 (d.scale - scale) := by
      have split : (pow10 d.scale : ℚ) = pow10 (d.scale - scale) * pow10 scale := by
        rw [← Nat.cast_mul, ← pow10_add, Nat.sub_add_cancel more]
      have unit := (cast_pow10_pos scale).ne'
      have unit' := (cast_pow10_pos (d.scale - scale)).ne'
      rw [value, split] at same
      field_simp at same
      rw [mul_comm] at same
      exact_mod_cast same
    have small : coefficient.natAbs < coefficientLimit := by
      have bound := d.coefficient_lt
      rw [written, Int.natAbs_mul, Int.natAbs_natCast] at bound
      exact Nat.lt_of_le_of_lt (Nat.le_mul_of_pos_right _ (pow10_pos _)) bound
    obtain ⟨e, parts⟩ := ofParts?_of_lt small h
    obtain ⟨hc, hs, -⟩ := ofParts?_eq_some_iff.mp parts
    exact ⟨e, by rw [value, hc, hs], Nat.le_of_eq hs⟩

/-- A number that some decimal stands for is kept as it is: dropping its zeros at the
end makes it fit. -/
theorem fit?_exact (fits : fit? coefficient scale = some s) (h : scale ≤ maxScale)
    (written : ∃ d : Decimal, d.value = (coefficient : ℚ) / pow10 scale) :
    s.value = coefficient / pow10 scale := by
  obtain ⟨d, same⟩ := written
  obtain ⟨e, same, le⟩ := exists_value_eq same h
  obtain ⟨dropped, drops, rounded, least⟩ := fit?_eq_some fits
  have natAbs : coefficient.natAbs = e.magnitude * pow10 (scale - e.scale) := by
    rw [coefficient_eq_of_value_eq same le, coefficientAt, Int.natAbs_mul, natAbs_coefficient,
      Int.natAbs_natCast]
  have few : dropped ≤ scale - e.scale := by
    by_contra more
    have out := least _ (Nat.lt_of_not_le more)
    rw [rounded?_eq_none_iff (by omega), natAbs] at out
    have step := Nat.mul_le_mul_right (pow10 (scale - e.scale)) e.magnitude_lt
    have unit := pow10_pos (scale - e.scale)
    rw [Nat.succ_mul] at step
    omega
  refine rounded?_exact rounded drops (natAbs ▸ Dvd.dvd.mul_left ?_ _)
  exact ⟨pow10 (scale - e.scale - dropped), by rw [← pow10_add, Nat.add_sub_cancel' few]⟩

-- ---------------------------------------------------------------------------
-- Sums
-- ---------------------------------------------------------------------------

theorem isSum_self (h : s.value = a.value + b.value) : IsSum a b (.ok s) := by
  have unit := cast_pow10_pos s.scale
  refine ⟨fun _ => h, ?_, h ▸ s.abs_value_lt⟩
  rw [h, sub_self, abs_zero]
  positivity

theorem isSum_add (a b : Decimal) : IsSum a b (a.add b) := by
  by_cases ha : a.isZero = true
  · rw [add_eq_ok_iff.mpr (add?_zero_left ha)]
    exact isSum_self (by rw [value_of_isZero ha, zero_add])
  by_cases hb : b.isZero = true
  · rw [add_eq_ok_iff.mpr (add?_zero_right (Bool.eq_false_iff.mpr ha) hb)]
    exact isSum_self (by rw [value_of_isZero hb, add_zero])
  have exact := value_add_value a b
  have scale := commonScale_le a b
  have fitted : a.add? b = fit? (a.coefficientAt (commonScale a b) +
      b.coefficientAt (commonScale a b)) (commonScale a b) := by
    simp only [add?, ha, hb, Bool.false_eq_true, if_false]
  cases sum : a.add? b with
  | some s =>
    rw [add_eq_ok_iff.mpr sum]
    rw [fitted] at sum
    refine ⟨fun written => ?_, ?_, ?_⟩
    · rw [exact] at written ⊢
      exact fit?_exact sum scale written
    · obtain ⟨dropped, drops, rounded, -⟩ := fit?_eq_some sum
      rw [exact]
      exact rounded?_near rounded drops
    · rw [exact, abs_div_pow10_lt_iff, ← fit?_eq_none_iff scale, sum]
      exact Option.some_ne_none s
  | none =>
    have failed : a.add b = .error (.overflow a b) := by simp [add, sum]
    have large : coefficientLimit - 1 / 2 ≤ |a.value + b.value| := by
      rw [exact, ← not_lt, abs_div_pow10_lt_iff, not_not, ← fit?_eq_none_iff scale]
      exact fitted ▸ sum
    rw [failed]
    refine ⟨rfl, ?_, large⟩
    rintro ⟨d, same⟩
    exact absurd (same ▸ d.abs_value_lt) (not_lt.mpr large)

end Decimal

theorem Quantity.isSum_add (p q : Quantity) :
    p.decimal.IsSum q.decimal ((p.add q).map Quantity.decimal) := by
  have sum := Decimal.isSum_add p.decimal q.decimal
  unfold Quantity.add
  cases h : p.decimal.add q.decimal with
  | ok s | error e => rwa [h] at sum

theorem Candle.isSum_fold (c : Candle) (price : Price) (amount : Quantity) :
    c.volume.decimal.IsSum amount.decimal
      ((c.fold price amount).map fun folded => folded.volume.decimal) := by
  have sum := Quantity.isSum_add c.volume amount
  unfold Candle.fold
  cases h : c.volume.add amount with
  | ok volume | error e => rwa [h] at sum

/-- Decimals, quantities and the volumes of candles have exact sums wherever a
decimal can be written for the exact sum, and rounded ones elsewhere. -/
theorem sums_exact_where_writable (a b : Decimal) (p q : Quantity) (c : Candle) (price : Price) :
    a.IsSum b (a.add b) ∧ p.decimal.IsSum q.decimal ((p.add q).map Quantity.decimal) ∧
      c.volume.decimal.IsSum q.decimal
        ((c.fold price q).map fun folded => folded.volume.decimal) :=
  ⟨Decimal.isSum_add a b, p.isSum_add q, c.isSum_fold price q⟩

def Decimal.greatest : Decimal :=
  ⟨false, coefficientLimit - 1, 0, Nat.sub_one_lt (by decide), Nat.zero_le maxScale⟩

theorem one_le_maxScale : 1 ≤ maxScale := by decide

def Decimal.tenth : Decimal := ⟨false, 1, 1, one_lt_coefficientLimit, one_le_maxScale⟩

theorem Decimal.add_tenth_ne (d : Decimal) : d.value ≠ d.value + Decimal.tenth.value := by
  have value : Decimal.tenth.value = 1 / 10 := rfl
  rw [value]
  linarith

/-- A tenth more than the greatest decimal is said to be the greatest decimal, as a
sum and as the volume of a candle. -/
theorem sum_loses_tenth : ∃ (s : Decimal) (c folded : Candle) (price : Price),
    Decimal.greatest.add .tenth = .ok s ∧
      s.value ≠ Decimal.greatest.value + Decimal.tenth.value ∧
      c.volume = ⟨.greatest⟩ ∧ c.fold price ⟨.tenth⟩ = .ok folded ∧
      folded.volume.decimal.value ≠ c.volume.decimal.value + Decimal.tenth.value := by
  have sum : Decimal.greatest.add .tenth = .ok .greatest := by decide +kernel
  let full : Candle :=
    { Candle.fresh ⟨"BTC/USDT"⟩ .minute1 ⟨.utc, .fixed 0⟩ .epoch with volume := ⟨.greatest⟩ }
  refine ⟨.greatest, full, { full with
      «open» := none, high := some ⟨.tenth⟩, low := some ⟨.tenth⟩, close := some ⟨.tenth⟩ },
    ⟨.tenth⟩, sum, Decimal.add_tenth_ne _, rfl, ?_, Decimal.add_tenth_ne _⟩
  have volume : full.volume.add ⟨.tenth⟩ = .ok ⟨.greatest⟩ := by simp [Quantity.add, full, sum, Except.map]
  simp only [Candle.fold, volume]
  rfl

end Candlestick
