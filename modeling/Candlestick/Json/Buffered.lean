import Candlestick.Json.Basic
import Candlestick.Rounding

/-!
# Values that are kept for later

A reader that meets the content of a record before it knows the kind of the record keeps the
content as it is. Only some values can be kept: every string is a text, no number is out of
the range of double precision, and the nesting stays below a limit.
-/

namespace Candlestick.Json

def doubleWidth : Nat := 53

/-- From here on the nearest double is infinite: half a unit above the greatest
finite one. -/
def doubleEnd : Nat := Nat.pow 2 1024 - Nat.pow 2 970

/-- The greatest power of ten that a double holds. -/
def maxPower : Nat := 308

/-- Whether a number is in the range of doubles: the significand and the power
of ten are rounded to doubles each, and their product must not be infinite. -/
def inDoubleRange (significand : Nat) (exponent : Int) : Bool :=
  significand = 0 || exponent < 0 ||
    (exponent ≤ maxPower &&
      toWidth doubleWidth significand * toWidth doubleWidth (Nat.pow 10 exponent.toNat) < doubleEnd)

mutual

/-- Whether a value can be kept where `depth` more levels of nesting are left. -/
def canKeep (depth : Nat) : Json → Bool
  | .null => true
  | .bool _ => true
  | .integer _ => true
  | .real _ significand exponent => inDoubleRange significand exponent
  | .string s => s.isSome
  | .array items => 0 < depth && canKeepItems (depth - 1) items
  | .object members => 0 < depth && canKeepMembers (depth - 1) members

def canKeepItems (depth : Nat) : List Json → Bool
  | [] => true
  | item :: items => canKeep depth item && canKeepItems depth items

def canKeepMembers (depth : Nat) : List (Option String × Json) → Bool
  | [] => true
  | (key, value) :: members => key.isSome && canKeep depth value && canKeepMembers depth members

end

end Candlestick.Json
