/-!
# Integers in decimal digits

Reading a whole text as an integer: digits only, with one sign in front where the reader
allows it. No blanks, separators or empty texts.
-/

namespace Candlestick.Text

def digit? (c : Char) : Option Nat :=
  if '0' ≤ c ∧ c ≤ '9' then some (c.toNat - '0'.toNat) else none

/-- Reads digits after those whose value is `value`. -/
def digitsFrom? (value : Nat) : List Char → Option Nat
  | [] => some value
  | c :: cs =>
    match digit? c with
    | some d => digitsFrom? (value * 10 + d) cs
    | none => none

def digits? : List Char → Option Nat
  | [] => none
  | cs => digitsFrom? 0 cs

def natural? : List Char → Option Nat
  | '+' :: cs => digits? cs
  | cs => digits? cs

def integer? : List Char → Option Int
  | '-' :: cs => (digits? cs).map fun n => -(n : Int)
  | cs => (natural? cs).map Int.ofNat

def naturalBelow? (limit : Nat) (cs : List Char) : Option Nat :=
  (natural? cs).filter (· < limit)

end Candlestick.Text
