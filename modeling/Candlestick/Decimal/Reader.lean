import Candlestick.Decimal.Basic
import Candlestick.Rounding
import Candlestick.Text.Integer

/-!
# Reading decimals

One grammar with two ways to treat digits that do not fit: a sign or none, digits with at
most one point among them, and underscores after the first digit. Exact reading refuses
fractional digits that do not fit; rounding looks at the first of them, with a half going
up, and wants nothing but digits and underscores after it. Digits before the point that do
not fit are refused by both.
-/

namespace Candlestick.Decimal

inductive Malformed where
  | empty
  | tooManyDigits
  | tooPrecise
  | roundingOverflow
  | secondPoint
  | leadingUnderscore
  | unknownCharacter
  | noDigits
  deriving DecidableEq

def Malformed.reason : Malformed → String
  | .empty => "empty value"
  | .tooManyDigits => "Invalid decimal: overflow from too many digits"
  | .tooPrecise => "Number has a high precision that can not be represented."
  | .roundingOverflow => "Invalid decimal: overflow from mantissa after rounding"
  | .secondPoint => "Invalid decimal: two decimal points"
  | .leadingUnderscore => "Invalid decimal: must start lead with a number"
  | .unknownCharacter => "Invalid decimal: unknown character"
  | .noDigits => "Invalid decimal: no digits found"

structure Reading where
  negative : Bool
  /-- Whether a digit has been read. -/
  started : Bool := false
  /-- Whether the point has been read. -/
  pastPoint : Bool := false
  /-- The digits read, as one integer. -/
  coefficient : Nat := 0
  /-- How many of them stand after the point. -/
  scale : Nat := 0
  /-- Whether the last character was an underscore. -/
  separated : Bool := false

def misplaced (c : Char) : Malformed :=
  if c = '.' then .secondPoint
  else if c = '_' then .leadingUnderscore
  else .unknownCharacter

/-- The decimal of a sign and the digits read. A zero has no sign, and the
number of fractional digits counts modulo one more than the greatest. -/
def ofDigits (negative : Bool) (coefficient scale : Nat) : Except Malformed Decimal :=
  match ofParts? (if negative then -(coefficient : Int) else coefficient)
      (scale % (maxScale + 1)) with
  | some d => .ok d
  | none => .error .tooManyDigits

/-- A coefficient from here on leaves a 64-bit word with the next digit. -/
def wordGuard : Nat := 1844674407370954906

namespace Reading

def push (r : Reading) (digit : Nat) : Option Reading :=
  let coefficient := r.coefficient * 10 + digit
  if coefficient < coefficientLimit then
    some { r with
      started := true
      coefficient := coefficient
      scale := if r.pastPoint then r.scale + 1 else r.scale
      separated := false }
  else none

def full (r : Reading) : Bool := r.pastPoint && decide (maxScale ≤ r.scale)

/-- Whether the digits before the last one were more than a 64-bit word is
sure to take. -/
def long (r : Reading) : Bool := decide (wordGuard ≤ r.coefficient / 10)

/-- Whether a character after all fractional digits is passed over, or read on
from, and does not end the reading: in a long text an underscore does not count
as a digit that does not fit, and the digit after it may still fit. -/
def passesOver (r : Reading) (next : Char) : Bool :=
  r.separated || (r.long && next == '_')

def finish (r : Reading) : Except Malformed Decimal :=
  if r.started then ofDigits r.negative r.coefficient r.scale else .error .noDigits

/-- Rounds by `digit`, the first one that does not fit: up from five on. A
carry out of 96 bits drops one more digit. -/
def roundBy (r : Reading) (digit : Nat) : Except Malformed Decimal :=
  if digit < 5 then ofDigits r.negative r.coefficient r.scale
  else if r.coefficient + 1 < coefficientLimit then
    ofDigits r.negative (r.coefficient + 1) r.scale
  else if r.scale = 0 then .error .roundingOverflow
  else ofDigits r.negative ((r.coefficient + 1 + 4) / 10) (r.scale - 1)

end Reading

/-- The digit that a character after all digits counts as; an underscore counts
as a zero. -/
def excessDigit? (c : Char) : Option Nat := if c = '_' then some 0 else Text.digit? c

/-- The digit that the first such character counts as; there a second point
counts as a zero as well. -/
def firstExcessDigit? (c : Char) : Option Nat := if c = '.' then some 0 else excessDigit? c

inductive Excess where
  | refuse
  | round
  deriving DecidableEq

def Excess.finish (excess : Excess) (r : Reading) (next : Char) (rest : List Char) :
    Except Malformed Decimal :=
  match excess with
  | .refuse => .error .tooPrecise
  | .round =>
    match firstExcessDigit? next, rest.find? (excessDigit? · == none) with
    | none, _ => .error (misplaced next)
    | some _, some c => .error (misplaced c)
    | some digit, none => r.roundBy digit

def Excess.endsAt (excess : Excess) (r : Reading) (next : Char) : Bool :=
  r.full && !(excess == .round && r.passesOver next)

def readFrom (excess : Excess) (r : Reading) : List Char → Except Malformed Decimal
  | [] => r.finish
  | c :: rest =>
    if excess.endsAt r c then excess.finish r c rest
    else
      match Text.digit? c with
      | some digit =>
        match r.push digit with
        | some r => readFrom excess r rest
        | none => if r.pastPoint then excess.finish r c rest else .error .tooManyDigits
      | none =>
        if c = '.' ∧ r.pastPoint = false then
          readFrom excess { r with pastPoint := true, separated := false } rest
        else if c = '_' ∧ r.started then readFrom excess { r with separated := true } rest
        else .error (misplaced c)

def read (excess : Excess) : List Char → Except Malformed Decimal
  | [] => .error .empty
  | '-' :: rest => readFrom excess { negative := true } rest
  | '+' :: rest => readFrom excess { negative := false } rest
  | cs => readFrom excess { negative := false } cs

/-- The texts that stand for a decimal as they are, digit for digit. -/
def readExact : List Char → Except Malformed Decimal := read .refuse

def splitExponent : List Char → Option (List Char × List Char)
  | [] => none
  | c :: rest =>
    if c = 'e' ∨ c = 'E' then some ([], rest)
    else (splitExponent rest).map fun parts => (c :: parts.1, parts.2)

/-- Exponents are 32-bit words. -/
def wordLimit : Nat := 4294967296

def dropDigits (d : Decimal) (dropped : Nat) : Nat :=
  divHalfUp d.magnitude (pow10 dropped)

/-- Moves the point `places` to the left, by 28 at most. Fractional digits that
do not fit are rounded away; the sign stays, even before a zero. -/
def shiftLeft? (d : Decimal) (places : Nat) : Option Decimal :=
  if maxScale < places then none
  else if d.scale + places ≤ maxScale then ofSigned? d.negative d.magnitude (d.scale + places)
  else ofSigned? d.negative (d.dropDigits (d.scale + places - maxScale)) maxScale

def shiftRight? (d : Decimal) (places : Nat) : Option Decimal :=
  if places ≤ d.scale then ofSigned? d.negative d.magnitude (d.scale - places)
  else if places ≤ maxScale then ofParts? (d.coefficient * pow10 (places - d.scale)) 0
  else none

/-- A rounded decimal, `e` or `E`, and an exponent. -/
def readScientific? (cs : List Char) : Option Decimal :=
  match splitExponent cs with
  | none => none
  | some (base, exponent) =>
    match read .round base with
    | .error _ => none
    | .ok d =>
      match exponent with
      | '-' :: digits => (Text.naturalBelow? wordLimit digits).bind d.shiftLeft?
      | digits => (Text.naturalBelow? wordLimit digits).bind d.shiftRight?

/-- The texts that stand for a decimal up to rounding, in positional or in
scientific notation. -/
def readLenient? (cs : List Char) : Option Decimal :=
  match read .round cs with
  | .ok d => some d
  | .error _ => readScientific? cs

end Candlestick.Decimal
