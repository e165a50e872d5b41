import Candlestick.Decimal.Basic
import Candlestick.Rounding

/-!
# Sums of decimals

A sum is written at the larger of the two scales. Where its coefficient would need more than
96 bits, as few fractional digits as needed are dropped, and the rest is rounded to nearest
with a tie to the even neighbour. Adding a zero leaves the other operand as it is written.
-/

namespace Candlestick.Decimal

def rounded? (coefficient : Int) (scale dropped : Nat) : Option Decimal :=
  ofParts? (coefficient.sign * divHalfEven coefficient.natAbs (pow10 dropped)) (scale - dropped)

/-- `coefficient / 10 ^ scale` with the fewest fractional digits dropped. -/
def fit? (coefficient : Int) (scale : Nat) : Option Decimal :=
  (List.range (scale + 1)).findSome? (rounded? coefficient scale)

def coefficientAt (d : Decimal) (scale : Nat) : Int :=
  d.coefficient * pow10 (scale - d.scale)

def commonScale (a b : Decimal) : Nat :=
  if a.scale ≤ b.scale then b.scale else a.scale

def add? (a b : Decimal) : Option Decimal :=
  if a.isZero then some b
  else if b.isZero then some a
  else
    let scale := commonScale a b
    fit? (a.coefficientAt scale + b.coefficientAt scale) scale

theorem rounded?_zero (coefficient : Int) (scale : Nat) :
    rounded? coefficient scale 0 = ofParts? coefficient scale := by
  rw [rounded?, pow10_zero, divHalfEven_one, Int.sign_mul_natAbs, Nat.sub_zero]

theorem fit?_of_fits {coefficient : Int} {scale : Nat} {d : Decimal}
    (h : ofParts? coefficient scale = some d) : fit? coefficient scale = some d := by
  rw [fit?, List.range_succ_eq_map, List.findSome?_cons, rounded?_zero, h]

theorem add?_zero_left {a b : Decimal} (h : a.isZero = true) : add? a b = some b := by
  simp [add?, h]

theorem add?_zero_right {a b : Decimal} (ha : a.isZero = false) (hb : b.isZero = true) :
    add? a b = some a := by
  simp [add?, ha, hb]

end Candlestick.Decimal
