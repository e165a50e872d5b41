import Candlestick.Json.Basic

/-!
# Writing JSON

Compact text: no blanks, members in their order. Strings escape the quote, the backslash and
the control characters below `0x20`, everything else stands for itself.
-/

namespace Candlestick.Json

def escaped (c : Char) : List Char :=
  if c = '"' then ['\\', '"']
  else if c = '\\' then ['\\', '\\']
  else if c = '\x08' then ['\\', 'b']
  else if c = '\x0c' then ['\\', 'f']
  else if c = '\n' then ['\\', 'n']
  else if c = '\r' then ['\\', 'r']
  else if c = '\t' then ['\\', 't']
  else if c.toNat < 0x20 then
    ['\\', 'u', '0', '0', Nat.digitChar (c.toNat / 16), Nat.digitChar (c.toNat % 16)]
  else [c]

/-- A string with its quotes. What no text spells is written as half of a
surrogate pair. -/
def stringChars : Option String → List Char
  | some s => '"' :: s.toList.flatMap escaped ++ ['"']
  | none => ['"', '\\', 'u', 'd', '8', '0', '0', '"']

def integerChars (n : Int) : List Char :=
  if n < 0 then '-' :: Nat.toDigits 10 n.natAbs else Nat.toDigits 10 n.natAbs

mutual

def chars : Json → List Char
  | .null => ['n', 'u', 'l', 'l']
  | .bool true => ['t', 'r', 'u', 'e']
  | .bool false => ['f', 'a', 'l', 's', 'e']
  | .integer n => integerChars n
  | .real negative significand exponent =>
    (if negative then ['-'] else []) ++ Nat.toDigits 10 significand ++ 'e' :: integerChars exponent
  | .string s => stringChars s
  | .array [] => ['[', ']']
  | .array (item :: items) => '[' :: chars item ++ itemsChars items
  | .object [] => ['\x7b', '\x7d']
  | .object ((key, value) :: members) =>
    '\x7b' :: stringChars key ++ ':' :: chars value ++ membersChars members

def itemsChars : List Json → List Char
  | [] => [']']
  | item :: items => ',' :: chars item ++ itemsChars items

def membersChars : List (Option String × Json) → List Char
  | [] => ['\x7d']
  | (key, value) :: members =>
    ',' :: stringChars key ++ ':' :: chars value ++ membersChars members

end

def render (j : Json) : String := String.ofList j.chars

end Candlestick.Json
