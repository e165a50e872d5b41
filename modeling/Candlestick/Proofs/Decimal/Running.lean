import Candlestick.Proofs.Decimal.Exact

/-!
# Running sums

Several decimals that are added one after the other. Where none is negative and the exact
total has a coefficient in range at the largest scale, so has the total of every part of
them (`exists_value_eq_sum`), so that no sum on the way is rounded. Whether it is so does
not depend on their order (`exactTotal_perm`).
-/

namespace Candlestick.Decimal

variable {a b d s : Decimal} {ds es : List Decimal} {n : Nat}

-- ---------------------------------------------------------------------------
-- Values
-- ---------------------------------------------------------------------------

theorem sameValue_iff_value_eq : a.SameValue b ↔ a.value = b.value := by
  have unit := (cast_pow10_pos a.scale).ne'
  have unit' := (cast_pow10_pos b.scale).ne'
  rw [SameValue, value, value, div_eq_div_iff unit unit']
  exact_mod_cast Iff.rfl

theorem sum_value_eq (h : ∀ d ∈ ds, d.scale ≤ n) :
    (ds.map value).sum = (totalAt n ds : ℚ) / pow10 n := by
  induction ds using List.reverseRecOn with
  | nil => simp [totalAt]
  | append_singleton ds d ih =>
    have last := value_eq_coefficientAt (h d (by simp))
    have rest := ih fun e he => h e (List.mem_append_left _ he)
    rw [totalAt_append, List.map_append, List.sum_append, rest, List.map_singleton,
      List.sum_singleton, last, ← add_div, Int.cast_add]

theorem exists_value_eq_sum (nonneg : ∀ d ∈ ds, 0 ≤ d.coefficient)
    (fits : exactTotal ds < coefficientLimit) : ∃ d : Decimal, d.value = (ds.map value).sum := by
  have least := totalAt_nonneg nonneg (largestScale ds)
  have small : (exactTotal ds).natAbs < coefficientLimit := by
    rw [exactTotal] at fits ⊢
    omega
  obtain ⟨d, parts⟩ := ofParts?_of_lt small (largestScale_le ds)
  obtain ⟨hc, hs, -⟩ := ofParts?_eq_some_iff.mp parts
  exact ⟨d, by rw [value, hc, hs, sum_value_eq fun e he => scale_le_largestScale he, exactTotal]⟩

theorem add?_of_writable (written : ∃ d : Decimal, d.value = a.value + b.value) :
    ∃ s, a.add? b = some s ∧ s.value = a.value + b.value := by
  have sum := isSum_add a b
  cases added : a.add b with
  | ok s =>
    rw [added] at sum
    exact ⟨s, add_eq_ok_iff.mp added, sum.1 written⟩
  | error e =>
    rw [added] at sum
    exact absurd written sum.2.1

-- ---------------------------------------------------------------------------
-- The order does not matter
-- ---------------------------------------------------------------------------

theorem largestScale_perm (h : ds.Perm es) : largestScale ds = largestScale es :=
  h.foldl_eq' (fun _ _ _ _ _ => by grind) 0

theorem exactTotal_perm (h : ds.Perm es) : exactTotal ds = exactTotal es := by
  rw [exactTotal, exactTotal, ← largestScale_perm h]
  exact h.foldl_eq' (fun _ _ _ _ _ => by omega) 0

-- ---------------------------------------------------------------------------
-- Sums that are not zero
-- ---------------------------------------------------------------------------

theorem fit?_pos {coefficient : Int} {scale : Nat} (above : 0 < coefficient)
    (h : scale ≤ maxScale) (fits : fit? coefficient scale = some s) : 0 < s.coefficient := by
  obtain ⟨dropped, drops, rounded, least⟩ := fit?_eq_some fits
  obtain ⟨hc, -, -⟩ := ofParts?_eq_some_iff.mp rounded
  rw [hc, Int.sign_eq_one_of_pos above, Int.one_mul, Int.natCast_pos]
  cases dropped with
  | zero =>
    rw [pow10_zero, divHalfEven_one]
    omega
  | succ fewer =>
    -- with one digit less dropped there are more than 96 bits, so two units are left
    have large := (rounded?_eq_none_iff (by omega)).mp (least fewer (Nat.lt_succ_self _))
    have limit : 16 ≤ coefficientLimit := by decide
    have scaled := Nat.mul_le_mul_right (pow10 fewer) limit
    have two : 2 ≤ divHalfEven coefficient.natAbs (pow10 (fewer + 1)) := by
      rw [le_divHalfEven_iff (by decide) (pow10_pos _), pow10_succ]
      omega
    omega

theorem add?_pos (ha : 0 < a.coefficient) (hb : 0 ≤ b.coefficient) (h : a.add? b = some s) :
    0 < s.coefficient := by
  unfold add? at h
  split at h
  · next zero =>
    rw [isZero_iff] at zero
    omega
  · split at h
    · cases h
      exact ha
    · have first : 0 < a.coefficientAt (commonScale a b) :=
        Int.mul_pos ha (Int.natCast_pos.mpr (pow10_pos _))
      have second := coefficientAt_nonneg hb (commonScale a b)
      exact fit?_pos (by omega) (commonScale_le a b) h

end Candlestick.Decimal
