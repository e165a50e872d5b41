import Candlestick.Json.Basic
import Candlestick.Text.Integer

/-!
# Reading JSON

The grammar of RFC 8259 without extensions: no leading zeros, no trailing commas, no
comments, no unescaped control character inside a string, and nothing but blanks around the
one value. Each reader takes the characters that are left and gives back those that it did
not use.
-/

namespace Candlestick.Json

def isSpace (c : Char) : Bool := c = ' ' || c = '\t' || c = '\n' || c = '\r'

def skipSpace (cs : List Char) : List Char := cs.dropWhile isSpace

/-! ## Strings -/

/-- One element of a string: a character as it stands, or a UTF-16 code unit
given by number. -/
inductive Element where
  | plain (c : Char)
  | unit (n : Nat)

def hexDigit? (c : Char) : Option Nat :=
  if '0' ≤ c ∧ c ≤ '9' then some (c.toNat - '0'.toNat)
  else if 'a' ≤ c ∧ c ≤ 'f' then some (c.toNat - 'a'.toNat + 10)
  else if 'A' ≤ c ∧ c ≤ 'F' then some (c.toNat - 'A'.toNat + 10)
  else none

def codeUnit? (a b c d : Char) : Option Nat := do
  let a ← hexDigit? a
  let b ← hexDigit? b
  let c ← hexDigit? c
  let d ← hexDigit? d
  return ((a * 16 + b) * 16 + c) * 16 + d

def shortEscape? (c : Char) : Option Char :=
  if c = '"' ∨ c = '\\' ∨ c = '/' then some c
  else if c = 'b' then some '\x08'
  else if c = 'f' then some '\x0c'
  else if c = 'n' then some '\n'
  else if c = 'r' then some '\r'
  else if c = 't' then some '\t'
  else none

/-- Reads the elements of a string up to its closing quote. `read` holds those
before, the last one first. -/
def readElements (read : List Element) : List Char → Option (List Element × List Char)
  | [] => none
  | '"' :: rest => some (read.reverse, rest)
  | '\\' :: 'u' :: a :: b :: c :: d :: rest =>
    match codeUnit? a b c d with
    | some n => readElements (.unit n :: read) rest
    | none => none
  | '\\' :: c :: rest =>
    match shortEscape? c with
    | some c => readElements (.plain c :: read) rest
    | none => none
  | c :: rest =>
    if c.toNat < 0x20 ∨ c = '\\' then none else readElements (.plain c :: read) rest

def isHighSurrogate (n : Nat) : Bool := 0xD800 ≤ n && n < 0xDC00

def isLowSurrogate (n : Nat) : Bool := 0xDC00 ≤ n && n < 0xE000

/-- The characters of a string: code units that form a surrogate pair join,
half a pair spells nothing. `spelt` holds the characters before, the last one
first. -/
def spell? (spelt : List Char) : List Element → Option (List Char)
  | [] => some spelt.reverse
  | .plain c :: rest => spell? (c :: spelt) rest
  | .unit n :: rest =>
    if isHighSurrogate n then
      match rest with
      | .unit m :: rest =>
        if isLowSurrogate m then
          spell? (Char.ofNat (0x10000 + (n - 0xD800) * 0x400 + (m - 0xDC00)) :: spelt) rest
        else none
      | _ => none
    else if isLowSurrogate n then none
    else spell? (Char.ofNat n :: spelt) rest

def readString (cs : List Char) : Option (Option String × List Char) :=
  match readElements [] cs with
  | some (elements, rest) => some ((spell? [] elements).map String.ofList, rest)
  | none => none

/-! ## Numbers -/

def isDigit (c : Char) : Bool := (Text.digit? c).isSome

def withDigit (n : Nat) (c : Char) : Nat :=
  n * 10 + (c.toNat - '0'.toNat)

def digitsValue (cs : List Char) : Nat :=
  cs.foldl withDigit 0

def readFraction : List Char → Option (List Char × List Char)
  | '.' :: rest =>
    if (rest.takeWhile isDigit).isEmpty then none
    else some (rest.takeWhile isDigit, rest.dropWhile isDigit)
  | rest => some ([], rest)

def readExponentDigits (negative : Bool) (rest : List Char) : Option (Option Int × List Char) :=
  let digits := rest.takeWhile isDigit
  if digits.isEmpty then none
  else
    let n : Int := digitsValue digits
    some (some (if negative then -n else n), rest.dropWhile isDigit)

def readExponent : List Char → Option (Option Int × List Char)
  | c :: rest =>
    if c = 'e' ∨ c = 'E' then
      match rest with
      | '-' :: rest => readExponentDigits true rest
      | '+' :: rest => readExponentDigits false rest
      | rest => readExponentDigits false rest
    else some (none, c :: rest)
  | [] => some (none, [])

/-- Significands stay below this: they fit into a 64-bit word. -/
def significandLimit : Nat := 18446744073709551616

/-- Takes digits before the point into the significand while they fit, and
counts the others. -/
def takeWhole (significand : Nat) : List Char → Nat × Nat
  | [] => (significand, 0)
  | c :: rest =>
    if withDigit significand c < significandLimit then takeWhole (withDigit significand c) rest
    else (significand, rest.length + 1)

/-- Takes digits after the point into the significand while they fit, each one
power of ten less, and leaves out the others. -/
def takeFraction (significand : Nat) (exponent : Int) : List Char → Nat × Int
  | [] => (significand, exponent)
  | c :: rest =>
    if withDigit significand c < significandLimit then
      takeFraction (withDigit significand c) (exponent - 1) rest
    else (significand, exponent)

def ofMagnitude (negative : Bool) (magnitude : Nat) : Json :=
  if negative then
    if magnitude = 0 ∨ 2 * magnitude > significandLimit then .real true magnitude 0
    else .integer (-(magnitude : Int))
  else .integer magnitude

def ofParts (negative : Bool) (whole fraction : List Char) (exponent : Option Int) : Json :=
  let (significand, extra) := takeWhole 0 whole
  if fraction = [] ∧ exponent = none ∧ extra = 0 then ofMagnitude negative significand
  else
    let (significand, shift) := takeFraction significand extra fraction
    .real negative significand (shift + exponent.getD 0)

def readUnsigned (negative : Bool) (cs : List Char) : Option (Json × List Char) := do
  let whole := cs.takeWhile isDigit
  if whole.isEmpty ∨ (whole.head? = some '0' ∧ whole ≠ ['0']) then none
  let (fraction, rest) ← readFraction (cs.dropWhile isDigit)
  let (exponent, rest) ← readExponent rest
  return (ofParts negative whole fraction exponent, rest)

def readNumber : List Char → Option (Json × List Char)
  | '-' :: rest => readUnsigned true rest
  | rest => readUnsigned false rest

/-! ## Values -/

mutual

/-- Reads one value. The count bounds the recursion. -/
def readValue : Nat → List Char → Option (Json × List Char)
  | 0, _ => none
  | fuel + 1, cs =>
    match skipSpace cs with
    | 'n' :: 'u' :: 'l' :: 'l' :: rest => some (.null, rest)
    | 't' :: 'r' :: 'u' :: 'e' :: rest => some (.bool true, rest)
    | 'f' :: 'a' :: 'l' :: 's' :: 'e' :: rest => some (.bool false, rest)
    | '"' :: rest =>
      match readString rest with
      | some (s, rest) => some (.string s, rest)
      | none => none
    | '[' :: rest =>
      match skipSpace rest with
      | ']' :: rest => some (.array [], rest)
      | rest =>
        match readItems fuel rest with
        | some (items, rest) => some (.array items, rest)
        | none => none
    | '\x7b' :: rest =>
      match skipSpace rest with
      | '\x7d' :: rest => some (.object [], rest)
      | rest =>
        match readMembers fuel rest with
        | some (members, rest) => some (.object members, rest)
        | none => none
    | rest => readNumber rest

def readItems : Nat → List Char → Option (List Json × List Char)
  | 0, _ => none
  | fuel + 1, cs =>
    match readValue fuel cs with
    | some (item, rest) =>
      match skipSpace rest with
      | ',' :: rest =>
        match readItems fuel rest with
        | some (items, rest) => some (item :: items, rest)
        | none => none
      | ']' :: rest => some ([item], rest)
      | _ => none
    | none => none

def readMembers : Nat → List Char → Option (List (Option String × Json) × List Char)
  | 0, _ => none
  | fuel + 1, cs =>
    match skipSpace cs with
    | '"' :: rest =>
      match readString rest with
      | some (key, rest) =>
        match skipSpace rest with
        | ':' :: rest =>
          match readValue fuel rest with
          | some (value, rest) =>
            match skipSpace rest with
            | ',' :: rest =>
              match readMembers fuel rest with
              | some (members, rest) => some ((key, value) :: members, rest)
              | none => none
            | '\x7d' :: rest => some ([(key, value)], rest)
            | _ => none
          | none => none
        | _ => none
      | none => none
    | _ => none

end

def ofChars? (cs : List Char) : Option Json :=
  match readValue (2 * cs.length + 2) cs with
  | some (j, rest) => if (skipSpace rest).isEmpty then some j else none
  | none => none

def parse? (text : String) : Option Json := ofChars? text.toList

end Candlestick.Json
