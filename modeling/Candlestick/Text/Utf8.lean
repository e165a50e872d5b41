/-!
# UTF-8

Decoding bytes as text, with the place and the extent of the first fault: how many bytes of
it could have begun a character, or that the text ends inside of one. Overlong forms,
surrogates and numbers above `0x10FFFF` are faults.
-/

namespace Candlestick.Text

inductive Utf8Error where
  | invalid (index length : Nat)
  | incomplete (index : Nat)
  deriving DecidableEq

def Utf8Error.message : Utf8Error → String
  | .invalid index length =>
    "invalid utf-8 sequence of " ++ length.repr ++ " bytes from index " ++ index.repr
  | .incomplete index => "incomplete utf-8 byte sequence from index " ++ index.repr

/-- What a first byte says: the bits that it contributes, the bounds of the
second byte, and the number of bytes after that. -/
structure Lead where
  bits : Nat
  low : Nat
  high : Nat
  rest : Nat

def lead? (byte : Nat) : Option Lead :=
  if 0xC2 ≤ byte ∧ byte ≤ 0xDF then some ⟨byte - 0xC0, 0x80, 0xBF, 0⟩
  else if byte = 0xE0 then some ⟨0, 0xA0, 0xBF, 1⟩
  else if byte = 0xED then some ⟨0xD, 0x80, 0x9F, 1⟩
  else if 0xE1 ≤ byte ∧ byte ≤ 0xEF then some ⟨byte - 0xE0, 0x80, 0xBF, 1⟩
  else if byte = 0xF0 then some ⟨0, 0x90, 0xBF, 2⟩
  else if 0xF1 ≤ byte ∧ byte ≤ 0xF3 then some ⟨byte - 0xF0, 0x80, 0xBF, 2⟩
  else if byte = 0xF4 then some ⟨4, 0x80, 0x8F, 2⟩
  else none

structure Begun where
  /-- Where the character began. -/
  index : Nat
  /-- The bytes read of it. -/
  length : Nat
  bits : Nat
  low : Nat
  high : Nat
  /-- The bytes missing after the next. -/
  rest : Nat

/-- Where decoding stands: the number of bytes read, the characters decoded,
the last one first, and the character begun. -/
structure Decoding where
  read : Nat := 0
  decoded : List Char := []
  begun : Option Begun := none

def Decoding.step (d : Decoding) (byte : Nat) : Except Utf8Error Decoding :=
  match d.begun with
  | none =>
    if byte < 0x80 then .ok ⟨d.read + 1, Char.ofNat byte :: d.decoded, none⟩
    else
      match lead? byte with
      | some l => .ok ⟨d.read + 1, d.decoded, some ⟨d.read, 1, l.bits, l.low, l.high, l.rest⟩⟩
      | none => .error (.invalid d.read 1)
  | some c =>
    if c.low ≤ byte ∧ byte ≤ c.high then
      let bits := c.bits * 64 + (byte - 0x80)
      match c.rest with
      | 0 => .ok ⟨d.read + 1, Char.ofNat bits :: d.decoded, none⟩
      | rest + 1 =>
        .ok ⟨d.read + 1, d.decoded, some ⟨c.index, c.length + 1, bits, 0x80, 0xBF, rest⟩⟩
    else .error (.invalid c.index c.length)

def Decoding.finish (d : Decoding) : Except Utf8Error (List Char) :=
  match d.begun with
  | none => .ok d.decoded.reverse
  | some c => .error (.incomplete c.index)

def decodeFrom (d : Decoding) : List UInt8 → Except Utf8Error (List Char)
  | [] => d.finish
  | byte :: rest =>
    match d.step byte.toNat with
    | .ok d => decodeFrom d rest
    | .error e => .error e

def decodeUtf8 (bytes : List UInt8) : Except Utf8Error (List Char) := decodeFrom {} bytes

end Candlestick.Text
