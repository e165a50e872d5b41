import Candlestick.Proofs.Decimal.Exact

/-!
# Sums that do not shrink

A sum that has to be rounded may come out below the exact number, but never below one of its
operands: digits are dropped only from numbers of more than 96 bits, and these are rounded
to no less than the greatest number that can be written with one digit less
(`value_le_of_fit?`).
-/

namespace Candlestick.Decimal

variable {a b d s : Decimal} {coefficient : Int} {scale dropped n : Nat}

-- ---------------------------------------------------------------------------
-- Values at a common scale
-- ---------------------------------------------------------------------------

theorem value_le_value_iff (ha : a.scale ≤ n) (hb : b.scale ≤ n) :
    a.value ≤ b.value ↔ a.coefficientAt n ≤ b.coefficientAt n := by
  rw [value_eq_coefficientAt ha, value_eq_coefficientAt hb,
    div_le_div_iff_of_pos_right (cast_pow10_pos n)]
  exact_mod_cast Iff.rfl

theorem value_nonneg_iff : 0 ≤ d.value ↔ 0 ≤ d.coefficient := by
  rw [value, le_div_iff₀ (cast_pow10_pos d.scale), zero_mul]
  exact_mod_cast Iff.rfl

theorem value_eq_zero_iff : d.value = 0 ↔ d.coefficient = 0 := by
  rw [value, div_eq_zero_iff, or_iff_left (cast_pow10_pos d.scale).ne']
  exact_mod_cast Iff.rfl

-- ---------------------------------------------------------------------------
-- Rounding down
-- ---------------------------------------------------------------------------

theorem div_le_divHalfEven (n d : Nat) : n / d ≤ divHalfEven n d := by
  rcases divHalfEven_cases n d with ⟨down, -⟩ | ⟨up, -⟩
  · exact down.ge
  · exact up ▸ Nat.le_succ _

theorem rounded?_natCast (n scale dropped : Nat) :
    rounded? n scale dropped = ofParts? (divHalfEven n (pow10 dropped)) (scale - dropped) := by
  cases n with
  | zero =>
    have zero : divHalfEven 0 (pow10 dropped) = 0 := by
      simpa using divHalfEven_mul_self 0 (pow10_pos dropped)
    simp [rounded?, zero]
  | succ n =>
    have above : (0 : Int) < (n + 1 : Nat) := Int.natCast_pos.mpr (Nat.succ_pos n)
    rw [rounded?, Int.sign_eq_one_of_pos above, Int.one_mul, Int.natAbs_natCast]

/-- The quotient of a number that does not fit with one digit less dropped has, written
with a zero after it, no less than the limit: the limit itself is rounded up. -/
theorem le_divHalfEven_of_dropped {fewer n : Nat}
    (large : 2 * (coefficientLimit * pow10 fewer) ≤ 2 * n + pow10 fewer) :
    coefficientLimit ≤ divHalfEven n (pow10 (fewer + 1)) * 10 := by
  -- a tenth of the limit, rounded up
  have even : 7922816251426433759354395034 % 2 = 0 := by decide
  have reached : 7922816251426433759354395034 ≤ divHalfEven n (pow10 (fewer + 1)) := by
    rw [le_divHalfEven_iff even (pow10_pos _), pow10_succ]
    simp only [coefficientLimit] at large
    omega
  exact Nat.le_trans (by decide) (Nat.mul_le_mul_right 10 reached)

theorem le_divHalfEven_of_le {magnitude zeros n : Nat} (fits : magnitude < coefficientLimit)
    (least : ∀ fewer < dropped, 2 * (coefficientLimit * pow10 fewer) ≤ 2 * n + pow10 fewer)
    (le : magnitude * pow10 zeros ≤ n) :
    magnitude * pow10 zeros ≤ divHalfEven n (pow10 dropped) * pow10 dropped := by
  rcases Nat.lt_or_ge zeros dropped with lost | kept
  · obtain ⟨fewer, rfl⟩ := Nat.exists_eq_add_one_of_ne_zero (Nat.ne_zero_of_lt lost)
    have reached := le_divHalfEven_of_dropped (least fewer (Nat.lt_succ_self _))
    have finer : pow10 zeros ≤ pow10 fewer :=
      Nat.pow_le_pow_right (by decide) (Nat.le_of_lt_succ lost)
    calc magnitude * pow10 zeros
        ≤ (divHalfEven n (pow10 (fewer + 1)) * 10) * pow10 fewer :=
          Nat.mul_le_mul (Nat.le_trans (Nat.le_of_lt fits) reached) finer
      _ = divHalfEven n (pow10 (fewer + 1)) * pow10 (fewer + 1) := by
          rw [pow10_succ, Nat.mul_assoc, Nat.mul_comm 10]
  · -- the magnitude ends in as many zeros as digits are dropped
    obtain ⟨more, rfl⟩ := Nat.exists_eq_add_of_le kept
    rw [Nat.add_comm, pow10_add, ← Nat.mul_assoc] at le ⊢
    refine Nat.mul_le_mul_right _ (Nat.le_trans ?_ (div_le_divHalfEven n _))
    exact (Nat.le_div_iff_mul_le (pow10_pos dropped)).mpr le

/-- Whatever has to be dropped, a number is not rounded below a decimal that it is not
below. -/
theorem value_le_of_fit? (fits : fit? coefficient scale = some s) (h : scale ≤ maxScale)
    (reaches : d.scale ≤ scale) (nonneg : 0 ≤ d.coefficient)
    (le : d.coefficientAt scale ≤ coefficient) : d.value ≤ s.value := by
  obtain ⟨n, rfl⟩ := Int.eq_ofNat_of_zero_le (Int.le_trans (coefficientAt_nonneg nonneg scale) le)
  obtain ⟨dropped, drops, rounded, least⟩ := fit?_eq_some fits
  obtain ⟨hc, hs, -⟩ := ofParts?_eq_some_iff.mp (rounded?_natCast n scale dropped ▸ rounded)
  have magnitude : d.coefficient = d.magnitude := by
    rw [← d.natAbs_coefficient, Int.natAbs_of_nonneg nonneg]
  have least : ∀ fewer < dropped, 2 * (coefficientLimit * pow10 fewer) ≤ 2 * n + pow10 fewer :=
    fun fewer less => (rounded?_eq_none_iff (by omega)).mp (least fewer less)
  rw [coefficientAt, magnitude] at le
  have kept := le_divHalfEven_of_le d.magnitude_lt least (by exact_mod_cast le)
  rw [value_le_value_iff reaches (hs ▸ Nat.sub_le _ _), coefficientAt, coefficientAt, magnitude,
    hc, hs, Nat.sub_sub_self drops]
  exact_mod_cast kept

-- ---------------------------------------------------------------------------
-- Sums
-- ---------------------------------------------------------------------------

theorem le_value_of_add? (ha : 0 ≤ a.coefficient) (hb : 0 ≤ b.coefficient)
    (h : a.add? b = some s) : a.value ≤ s.value ∧ b.value ≤ s.value := by
  have ha' := value_nonneg_iff.mpr ha
  have hb' := value_nonneg_iff.mpr hb
  unfold add? at h
  split at h
  · next zero =>
    cases h
    exact ⟨(value_of_isZero zero).trans_le hb', le_rfl⟩
  · split at h
    · next zero =>
      cases h
      exact ⟨le_rfl, (value_of_isZero zero).trans_le ha'⟩
    · obtain ⟨reachesA, reachesB⟩ := commonScale_ge a b
      have first := coefficientAt_nonneg ha (commonScale a b)
      have second := coefficientAt_nonneg hb (commonScale a b)
      exact ⟨value_le_of_fit? h (commonScale_le a b) reachesA ha (Int.le_add_of_nonneg_right second),
        value_le_of_fit? h (commonScale_le a b) reachesB hb (Int.le_add_of_nonneg_left first)⟩

end Candlestick.Decimal
