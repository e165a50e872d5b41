import Candlestick.Decimal.Basic

/-!
# The candle order of decimals

Highs and lows follow an order of their own: the sign decides first, then the number of
fractional digits, and only then the coefficients. A positive decimal with fewer fractional
digits is the greater one, a negative one the smaller; zeros of any scale are equal.
-/

namespace Candlestick.Decimal

def intOrder (a b : Int) : Ordering :=
  if a < b then .lt else if a = b then .eq else .gt

theorem intOrder_swap (a b : Int) : (intOrder a b).swap = intOrder b a := by
  rcases Int.lt_trichotomy a b with h | h | h
  · simp [intOrder, h, Int.not_lt.mpr (Int.le_of_lt h), Int.ne_of_gt h]
  · simp [intOrder, h]
  · simp [intOrder, h, Int.not_lt.mpr (Int.le_of_lt h), Int.ne_of_gt h]

/-- Compares by sign, then by scale, then by coefficient. -/
def order (a b : Decimal) : Ordering :=
  if a.coefficient.sign = b.coefficient.sign then
    if a.coefficient = 0 then .eq
    else if a.scale = b.scale then intOrder a.coefficient b.coefficient
    else if 0 < a.coefficient then intOrder b.scale a.scale
    else intOrder a.scale b.scale
  else intOrder a.coefficient.sign b.coefficient.sign

theorem order_self (a : Decimal) : a.order a = .eq := by
  simp [order, intOrder]

end Candlestick.Decimal
