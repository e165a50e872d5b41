import Candlestick.Proofs.Decimal.Running
import Candlestick.Proofs.Decimal.Growth

/-!
# The candle order and the numeric one

The candle order is a total preorder in which only zeros tie, and the numeric order among
decimals of one scale and between decimals of different signs (`order_preorder`). Elsewhere
the two may disagree: `100.5` comes before `2`, as it is written with more fractional
digits.
-/

namespace Candlestick.Decimal

/-- The decimal with the other sign. A zero has one too. -/
instance : Neg Decimal := ⟨fun d => { d with negative := !d.negative }⟩

variable {a b c d : Decimal}

@[simp] theorem scale_neg (d : Decimal) : (-d).scale = d.scale := rfl

@[simp] theorem coefficient_neg (d : Decimal) : (-d).coefficient = -d.coefficient := by
  change (if !d.negative then -(d.magnitude : Int) else d.magnitude) = _
  unfold coefficient
  cases d.negative <;> simp

@[simp] theorem tier_neg (d : Decimal) : (-d).tier = -d.tier := by
  simp only [tier, coefficient_neg, scale_neg]
  grind

-- ---------------------------------------------------------------------------
-- Orderings by their two halves
-- ---------------------------------------------------------------------------

theorem ordering_ext {o o' : Ordering} (le : o.isLE ↔ o'.isLE) (ge : o.swap.isLE ↔ o'.swap.isLE) :
    o = o' := by
  cases o <;> cases o' <;> simp_all

theorem compares_of_isLE {o : Ordering} {x y : ℚ} (le : o.isLE ↔ x ≤ y)
    (ge : o.swap.isLE ↔ y ≤ x) : o.Compares x y := by
  cases o with
  | lt => exact lt_of_not_ge (by simpa using ge)
  | eq => exact le_antisymm (le.mp rfl) (ge.mp rfl)
  | gt => exact lt_of_not_ge (by simpa using le)

theorem order_neg (a b : Decimal) : (-a).order (-b) = b.order a := by
  have half : ∀ a b : Decimal, ((-a).order (-b)).isLE ↔ (b.order a).isLE := by
    intro a b
    simp only [isLE_order_iff, coefficient_neg, tier_neg, Int.sign_neg]
    omega
  refine ordering_ext (half a b) ?_
  rw [order_swap, order_swap]
  exact half b a

-- ---------------------------------------------------------------------------
-- Ties
-- ---------------------------------------------------------------------------

theorem order_eq_eq_iff :
    a.order b = .eq ↔ (a.isZero = true ∧ b.isZero = true) ∨
      (a.coefficient = b.coefficient ∧ a.scale = b.scale) := by
  simp only [order_eq_iff, isLE_order_iff, isZero_iff]
  constructor
  · intro both
    have same : a.coefficient = b.coefficient := by omega
    have tiers : a.tier = b.tier := by omega
    by_cases zero : b.coefficient = 0
    · exact .inl ⟨same.trans zero, zero⟩
    · refine .inr ⟨same, ?_⟩
      simp only [tier, same, zero, if_false] at tiers
      split at tiers <;> omega
  · rintro (⟨zero, zero'⟩ | ⟨same, scale⟩)
    · simp [tier, zero, zero']
    · simp [tier, same, scale]

-- ---------------------------------------------------------------------------
-- Where it is the numeric order
-- ---------------------------------------------------------------------------

/-- Two decimals whose scales do not matter to the candle order: the same scale, or
different signs, whether of what is written or of the value. -/
def Commensurate (a b : Decimal) : Prop :=
  a.scale = b.scale ∨ a.negative ≠ b.negative ∨ a.coefficient.sign ≠ b.coefficient.sign

theorem Commensurate.symm (h : a.Commensurate b) : b.Commensurate a :=
  h.imp Eq.symm (Or.imp Ne.symm Ne.symm)

theorem sign_cases (x : Int) :
    (x.sign = -1 ∧ x < 0) ∨ (x.sign = 0 ∧ x = 0) ∨ (x.sign = 1 ∧ 0 < x) := by
  rcases Int.lt_trichotomy x 0 with neg | zero | pos
  · exact .inl ⟨Int.sign_eq_neg_one_of_neg neg, neg⟩
  · exact .inr (.inl ⟨Int.sign_eq_zero_iff_zero.mpr zero, zero⟩)
  · exact .inr (.inr ⟨Int.sign_eq_one_of_pos pos, pos⟩)

theorem sign_coefficientAt (d : Decimal) (n : Nat) :
    (d.coefficientAt n).sign = d.coefficient.sign := by
  rw [coefficientAt, Int.sign_mul, Int.sign_eq_one_of_pos (Int.natCast_pos.mpr (pow10_pos _)),
    Int.mul_one]

theorem isLE_order_iff_of_scale_eq (h : a.scale = b.scale) :
    (a.order b).isLE ↔ a.value ≤ b.value := by
  have first := sign_cases a.coefficient
  have second := sign_cases b.coefficient
  have alike : a.coefficient.sign = b.coefficient.sign → a.tier = b.tier := by
    intro same
    simp only [tier, h, pos_iff_of_sign_eq same, eq_zero_iff_of_sign_eq same]
  rw [isLE_order_iff, value_le_value_iff h.le le_rfl, coefficientAt, coefficientAt, h,
    Nat.sub_self, pow10_zero, Int.natCast_one, Int.mul_one, Int.mul_one]
  omega

theorem isLE_order_iff_of_sign_ne (h : a.coefficient.sign ≠ b.coefficient.sign) :
    (a.order b).isLE ↔ a.value ≤ b.value := by
  obtain ⟨reachesA, reachesB⟩ := commonScale_ge a b
  have first := sign_cases (a.coefficientAt (commonScale a b))
  have second := sign_cases (b.coefficientAt (commonScale a b))
  rw [sign_coefficientAt] at first second
  rw [isLE_order_iff, value_le_value_iff reachesA reachesB]
  omega

theorem coefficient_eq_zero_of_negative_ne (written : a.negative ≠ b.negative)
    (same : a.coefficient.sign = b.coefficient.sign) :
    a.coefficient = 0 ∧ b.coefficient = 0 := by
  have zero := eq_zero_iff_of_sign_eq same
  have pos := pos_iff_of_sign_eq same
  simp only [coefficient] at zero pos ⊢
  cases ha : a.negative <;> cases hb : b.negative
  case false.false | true.true => exact absurd (ha.trans hb.symm) written
  case false.true | true.false =>
    simp only [ha, hb, if_true, Bool.false_eq_true, if_false] at zero pos ⊢
    omega

theorem Commensurate.isLE_order_iff (h : a.Commensurate b) :
    (a.order b).isLE ↔ a.value ≤ b.value := by
  rcases h with scale | written | sign
  · exact isLE_order_iff_of_scale_eq scale
  · by_cases same : a.coefficient.sign = b.coefficient.sign
    · obtain ⟨zero, zero'⟩ := coefficient_eq_zero_of_negative_ne written same
      rw [value_eq_zero_iff.mpr zero, value_eq_zero_iff.mpr zero',
        order_eq_eq_iff.mpr (.inl ⟨isZero_iff.mpr zero, isZero_iff.mpr zero'⟩)]
      exact ⟨fun _ => le_rfl, fun _ => rfl⟩
    · exact isLE_order_iff_of_sign_ne same
  · exact isLE_order_iff_of_sign_ne sign

theorem Commensurate.compares (h : a.Commensurate b) :
    (a.order b).Compares a.value b.value :=
  compares_of_isLE h.isLE_order_iff (by rw [order_swap]; exact h.symm.isLE_order_iff)

-- ---------------------------------------------------------------------------
-- The order as a whole
-- ---------------------------------------------------------------------------

/-- The candle order is a total preorder. Two decimals tie where both are zero or both
are written with one coefficient and one scale, and then have one value. Between
decimals of one scale or of different signs it is the numeric order, and turning both
signs turns it round. -/
theorem order_preorder (a b c : Decimal) :
    a.order b = (b.order a).swap ∧
    ((a.order b).isLE → (b.order c).isLE → (a.order c).isLE) ∧
    (a.order b = .eq ↔ (a.isZero = true ∧ b.isZero = true) ∨
      (a.coefficient = b.coefficient ∧ a.scale = b.scale)) ∧
    (a.order b = .eq → a.value = b.value) ∧
    (a.Commensurate b → (a.order b).Compares a.value b.value) ∧
    (-a).order (-b) = b.order a :=
  ⟨(order_swap b a).symm, isLE_order_trans, order_eq_eq_iff,
    fun tie => sameValue_iff_value_eq.mp (sameValue_of_order_eq tie), Commensurate.compares,
    order_neg a b⟩

def minusHalf : Decimal := ⟨true, 5, 1, by decide, one_le_maxScale⟩

def overHundred : Decimal := ⟨false, 1005, 1, by decide, one_le_maxScale⟩

def two : Decimal := ⟨false, 2, 0, by decide, Nat.zero_le maxScale⟩

/-- The order knows a number below zero from one above, but not which of two numbers of
different scales is the greater. -/
theorem overHundred_before_two :
    (minusHalf.order two).isLE ∧ minusHalf.value < overHundred.value ∧
    overHundred.order two = .lt ∧ two.value < overHundred.value ∧
    (-overHundred).order (-two) = .gt := by
  obtain ⟨-, trans, -, -, numeric, -⟩ := order_preorder minusHalf overHundred two
  obtain ⟨-, -, -, -, -, negated⟩ := order_preorder overHundred two two
  have below : minusHalf.order overHundred = .lt := by decide
  have before : overHundred.order two = .lt := by decide
  have apart : minusHalf.Commensurate overHundred := .inr (.inl (by decide))
  have less := numeric apart
  rw [below] at less
  refine ⟨trans (by decide) (by decide), less, before, lt_of_not_ge fun most => ?_, ?_⟩
  · have aligned := (value_le_value_iff (n := 1) le_rfl (by decide)).mp most
    exact absurd aligned (by decide)
  · rw [negated]
    decide

end Candlestick.Decimal
