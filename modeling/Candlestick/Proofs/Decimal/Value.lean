import Candlestick.Proofs.Decimal.Order
import Candlestick.Proofs.Decimal.Total
import Mathlib.Tactic.Ring

/-!
# What depends on the numeric value alone

Decimals of one value may be written with different numbers of fractional digits, and the
candle order tells them apart. Sums do not: a sum depends on the values of its operands,
whatever digits are dropped to make it fit (`add?_sameValue`). Decimals that the order takes
for equal have one value.
-/

namespace Candlestick

theorem divHalfEven_mul_right (n d : Nat) {k : Nat} (hk : 0 < k) :
    divHalfEven (n * k) (d * k) = divHalfEven n d := by
  have less : ∀ a b : Nat, 2 * (a * k) < b * k ↔ 2 * a < b := fun a b => by
    rw [← Nat.mul_assoc, Nat.mul_lt_mul_right hk]
  have more : ∀ a b : Nat, b * k < 2 * (a * k) ↔ b < 2 * a := fun a b => by
    rw [← Nat.mul_assoc, Nat.mul_lt_mul_right hk]
  simp only [divHalfEven, Nat.mul_div_mul_right _ _ hk, Nat.mul_mod_mul_right, less, more]

namespace Decimal

variable {a b c : Decimal}

-- ---------------------------------------------------------------------------
-- Sums
-- ---------------------------------------------------------------------------

theorem SameValue.isZero_eq (h : a.SameValue b) : a.isZero = b.isZero := by
  have zero : a.coefficient = 0 ↔ b.coefficient = 0 := by
    unfold SameValue at h
    constructor
    · intro hz
      rw [hz, Int.zero_mul] at h
      exact (Int.mul_eq_zero.mp h.symm).resolve_right (pow10_ne_zero _)
    · intro hz
      rw [hz, Int.zero_mul] at h
      exact (Int.mul_eq_zero.mp h).resolve_right (pow10_ne_zero _)
  rw [Bool.eq_iff_iff, isZero_iff, isZero_iff, zero]

theorem SameValue.coefficientAt_eq (h : a.SameValue b) {n : Nat} (ha : a.scale ≤ n)
    (hb : b.scale ≤ n) : a.coefficientAt n = b.coefficientAt n := by
  have split : ∀ d : Decimal, d.scale ≤ n → pow10 (n - d.scale) * pow10 d.scale = pow10 n :=
    fun d hd => by rw [← pow10_add, Nat.sub_add_cancel hd]
  apply Int.eq_of_mul_eq_mul_right (pow10_ne_zero a.scale)
  apply Int.eq_of_mul_eq_mul_right (pow10_ne_zero b.scale)
  unfold SameValue at h
  calc a.coefficientAt n * pow10 a.scale * pow10 b.scale
      = a.coefficient * pow10 b.scale * (pow10 (n - a.scale) * pow10 a.scale : Nat) := by
        rw [coefficientAt, Int.natCast_mul]
        ring
    _ = b.coefficient * pow10 a.scale * (pow10 (n - b.scale) * pow10 b.scale : Nat) := by
        rw [h, split a ha, split b hb]
    _ = b.coefficientAt n * pow10 a.scale * pow10 b.scale := by
        rw [coefficientAt, Int.natCast_mul]
        ring

theorem rounded?_scaled (coefficient : Int) (scale dropped : Nat) :
    rounded? (coefficient * 10) (scale + 1) (dropped + 1) = rounded? coefficient scale dropped := by
  have sign : (coefficient * 10).sign = coefficient.sign := by
    rw [Int.sign_mul]
    exact Int.mul_one _
  have natAbs : (coefficient * 10).natAbs = coefficient.natAbs * 10 := Int.natAbs_mul ..
  rw [rounded?, rounded?, sign, natAbs, pow10_succ, divHalfEven_mul_right _ _ (by decide),
    Nat.add_sub_add_right]

theorem fit?_succ (coefficient : Int) (scale : Nat) (hs : scale ≤ maxScale) :
    Option.Rel SameValue (fit? coefficient scale) (fit? (coefficient * 10) (scale + 1)) := by
  have rest : ((List.range (scale + 1)).map Nat.succ).findSome?
      (rounded? (coefficient * 10) (scale + 1)) = fit? coefficient scale := by
    rw [fit?, List.findSome?_map]
    exact congrArg (List.findSome? · _) (funext fun j => rounded?_scaled coefficient scale j)
  have unfolded : fit? (coefficient * 10) (scale + 1) =
      ((ofParts? (coefficient * 10) (scale + 1)).or (fit? coefficient scale)) := by
    rw [fit?, List.range_succ_eq_map, List.findSome?_cons, rounded?_zero, rest]
    cases ofParts? (coefficient * 10) (scale + 1) <;> rfl
  rw [unfolded]
  cases written : ofParts? (coefficient * 10) (scale + 1) with
  | none =>
    rw [Option.none_or]
    cases fit? coefficient scale with
    | none => exact .none
    | some d => exact .some (SameValue.refl d)
  | some d =>
    obtain ⟨hc, hd, -⟩ := ofParts?_eq_some_iff.mp written
    have small : coefficient.natAbs < coefficientLimit := by
      have bound := d.coefficient_lt
      rw [hc] at bound
      omega
    obtain ⟨e, he⟩ := ofParts?_of_lt small hs
    obtain ⟨hc', hd', -⟩ := ofParts?_eq_some_iff.mp he
    rw [fit?_of_fits he, Option.some_or]
    refine .some ?_
    rw [SameValue, hc, hd, hc', hd', pow10_succ, Int.natCast_mul]
    ring

theorem rel_trans {x y z : Option Decimal} (h : Option.Rel SameValue x y)
    (h' : Option.Rel SameValue y z) : Option.Rel SameValue x z := by
  cases h with
  | none => exact h'
  | some first =>
    cases h' with
    | some second => exact .some (first.trans second)

theorem rel_symm {x y : Option Decimal} (h : Option.Rel SameValue x y) :
    Option.Rel SameValue y x := by
  cases h with
  | none => exact .none
  | some same => exact .some same.symm

theorem rel_refl (x : Option Decimal) : Option.Rel SameValue x x := by
  cases x with
  | none => exact .none
  | some d => exact .some (SameValue.refl d)

theorem fit?_scaled (coefficient : Int) (scale more : Nat) (hs : scale + more ≤ maxScale) :
    Option.Rel SameValue (fit? coefficient scale)
      (fit? (coefficient * pow10 more) (scale + more)) := by
  induction more with
  | zero => simpa [pow10_zero] using rel_refl (fit? coefficient scale)
  | succ more ih =>
    have step := fit?_succ (coefficient * pow10 more) (scale + more) (by omega)
    rw [Int.mul_assoc] at step
    exact rel_trans (ih (by omega)) step

theorem commonScale_ge (a b : Decimal) : a.scale ≤ commonScale a b ∧ b.scale ≤ commonScale a b := by
  unfold commonScale
  split <;> omega

theorem commonScale_le (a b : Decimal) : commonScale a b ≤ maxScale := by
  unfold commonScale
  split
  · exact b.scale_le
  · exact a.scale_le

theorem fit?_common (a b : Decimal) :
    Option.Rel SameValue
      (fit? (a.coefficientAt (commonScale a b) + b.coefficientAt (commonScale a b))
        (commonScale a b))
      (fit? (a.coefficientAt maxScale + b.coefficientAt maxScale) maxScale) := by
  obtain ⟨ha, hb⟩ := commonScale_ge a b
  have le := commonScale_le a b
  have scaled := fit?_scaled
    (a.coefficientAt (commonScale a b) + b.coefficientAt (commonScale a b))
    (commonScale a b) (maxScale - commonScale a b) (by omega)
  rw [Nat.add_sub_cancel' le, Int.add_mul] at scaled
  rwa [coefficientAt_of_le ha le, coefficientAt_of_le hb le]

/-- The value of a sum depends on the values of its operands alone, and so does
whether there is one. -/
theorem add?_sameValue (h : a.SameValue b) (c : Decimal) :
    Option.Rel SameValue (a.add? c) (b.add? c) := by
  unfold add?
  rw [h.isZero_eq]
  cases b.isZero with
  | true => exact rel_refl _
  | false =>
    cases c.isZero with
    | true => exact .some h
    | false =>
      simp only [Bool.false_eq_true, if_false]
      have first := fit?_common a c
      rw [h.coefficientAt_eq a.scale_le b.scale_le] at first
      exact rel_trans first (rel_symm (fit?_common b c))

-- ---------------------------------------------------------------------------
-- The candle order
-- ---------------------------------------------------------------------------

theorem order_eq_iff : a.order b = .eq ↔ (a.order b).isLE ∧ (b.order a).isLE := by
  rw [← order_swap a b]
  cases a.order b <;> decide

theorem sameValue_of_order_eq (h : a.order b = .eq) : a.SameValue b := by
  have both := order_eq_iff.mp h
  rw [isLE_order_iff, isLE_order_iff] at both
  have sign : a.coefficient.sign = b.coefficient.sign := by omega
  have tiers : a.tier = b.tier := by omega
  have coefficient : a.coefficient = b.coefficient := by omega
  unfold SameValue
  by_cases zero : b.coefficient = 0
  · rw [coefficient, zero, Int.zero_mul, Int.zero_mul]
  · have scale : a.scale = b.scale := by
      simp only [tier, coefficient, zero, if_false] at tiers
      split at tiers <;> omega
    rw [coefficient, scale]

end Decimal

theorem Quantity.add_sameValue {a b c sum : Quantity} (h : a.SameValue b)
    (added : a.add c = .ok sum) : ∃ sum', b.add c = .ok sum' ∧ sum.SameValue sum' := by
  rw [add_eq_ok_iff] at added
  have rel := Decimal.add?_sameValue h c.decimal
  rw [added] at rel
  cases found : b.decimal.add? c.decimal with
  | none =>
    rw [found] at rel
    cases rel
  | some sum' =>
    rw [found] at rel
    cases rel with
    | some same => exact ⟨⟨sum'⟩, add_eq_ok_iff.mpr found, same⟩

end Candlestick
