import Candlestick.Decimal.Basic

/-!
# Writing decimals

A decimal is written with exactly as many fractional digits as its scale says and at least
one digit before the point; the point appears only where the scale is positive.
-/

namespace Candlestick.Decimal

def padded (width : Nat) (digits : List Char) : List Char :=
  List.replicate (width - digits.length) '0' ++ digits

def unsignedDigits (magnitude scale : Nat) : List Char :=
  if scale = 0 then Nat.toDigits 10 magnitude
  else
    let digits := padded (scale + 1) (Nat.toDigits 10 magnitude)
    let whole := digits.length - scale
    digits.take whole ++ '.' :: digits.drop whole

def digits (d : Decimal) : List Char :=
  if d.negative then '-' :: unsignedDigits d.magnitude d.scale
  else unsignedDigits d.magnitude d.scale

def render (d : Decimal) : String := String.ofList d.digits

end Candlestick.Decimal
