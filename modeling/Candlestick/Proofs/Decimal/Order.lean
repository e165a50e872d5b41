import Candlestick.Amount

/-!
# The candle order is a total preorder

`order` looks at three numbers of a decimal, one after the other: the sign of its value, its
tier among the decimals of that sign, and the coefficient. So it is antisymmetric up to
`swap` and transitive (`order_swap`, `isLE_order_trans`).
-/

namespace Candlestick

namespace Decimal

/-- The place of a decimal's scale among the decimals of its sign: fewer
fractional digits are more above zero and less below. -/
def tier (d : Decimal) : Int :=
  if 0 < d.coefficient then -(d.scale : Int) else if d.coefficient = 0 then 0 else d.scale

theorem isLE_intOrder {a b : Int} : (intOrder a b).isLE ↔ a ≤ b := by
  unfold intOrder
  split
  · simp; omega
  · split <;> simp <;> omega

theorem pos_iff_of_sign_eq {a b : Int} (h : a.sign = b.sign) : 0 < a ↔ 0 < b := by
  rw [← Int.sign_eq_one_iff_pos, h, Int.sign_eq_one_iff_pos]

theorem eq_zero_iff_of_sign_eq {a b : Int} (h : a.sign = b.sign) : a = 0 ↔ b = 0 := by
  rw [← Int.sign_eq_zero_iff_zero, h, Int.sign_eq_zero_iff_zero]

theorem order_swap (a b : Decimal) : (a.order b).swap = b.order a := by
  unfold order
  by_cases hs : a.coefficient.sign = b.coefficient.sign
  · have hpos := pos_iff_of_sign_eq hs
    have hzero := eq_zero_iff_of_sign_eq hs
    rw [if_pos hs, if_pos hs.symm]
    by_cases h0 : b.coefficient = 0
    · simp [h0, hzero.mpr h0]
    · by_cases hsc : a.scale = b.scale
      · simp [h0, hzero, hsc, intOrder_swap]
      · by_cases hp : 0 < b.coefficient
        · simp [h0, hzero, hsc, Ne.symm hsc, hpos, hp, intOrder_swap]
        · simp [h0, hzero, hsc, Ne.symm hsc, hpos, hp, intOrder_swap]
  · rw [if_neg hs, if_neg (Ne.symm hs), intOrder_swap]

/-- The order as a lexicographic one. -/
theorem isLE_order_iff {a b : Decimal} :
    (a.order b).isLE ↔ a.coefficient.sign < b.coefficient.sign ∨
      (a.coefficient.sign = b.coefficient.sign ∧
        (a.tier < b.tier ∨ (a.tier = b.tier ∧ a.coefficient ≤ b.coefficient))) := by
  unfold order
  split
  next hs =>
    have hpos := pos_iff_of_sign_eq hs
    have hzero := eq_zero_iff_of_sign_eq hs
    simp only [hs, Int.lt_irrefl, false_or, true_and, tier]
    by_cases h0 : b.coefficient = 0
    · simp [h0, hzero.mpr h0]
    · by_cases hp : 0 < b.coefficient
      · simp only [h0, hzero, hp, hpos, if_true, if_false]
        split <;> simp only [isLE_intOrder] <;> omega
      · simp only [h0, hzero, hp, hpos, if_false]
        split <;> simp only [isLE_intOrder] <;> omega
  next hs => rw [isLE_intOrder]; omega

theorem isLE_order_trans {a b c : Decimal} (hab : (a.order b).isLE) (hbc : (b.order c).isLE) :
    (a.order c).isLE := by
  rw [isLE_order_iff] at *
  omega

instance : Std.TransCmp order where
  eq_swap := (order_swap _ _).symm
  isLE_trans := isLE_order_trans

end Decimal

namespace Price

def IsHighest (p : Price) (prices : List Price) : Prop :=
  p ∈ prices ∧ ∀ q ∈ prices, (q.order p).isLE

def IsLowest (p : Price) (prices : List Price) : Prop :=
  p ∈ prices ∧ ∀ q ∈ prices, (p.order q).isLE

instance : Std.TransCmp order where
  eq_swap := (Decimal.order_swap ..).symm
  isLE_trans := Decimal.isLE_order_trans

end Price

end Candlestick
