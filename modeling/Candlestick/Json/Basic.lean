/-!
# JSON values

The values that JSON text denotes, with as much of the spelling as readers of records look
at: an integer literal differs from a number with a fraction or an exponent, digits count as
far as a word holds them, members keep their order and may repeat, and a string may hold
half of a surrogate pair.
-/

namespace Candlestick

/-- A JSON value. A string or a key is `none` where no text spells it. -/
inductive Json where
  | null
  | bool (b : Bool)
  /-- A literal without fraction and exponent that a signed or an unsigned
  64-bit word holds, `-0` excepted. -/
  | integer (n : Int)
  /-- Any other number, with a sign, as far as its leading digits that a 64-bit
  word holds say: `significand * 10 ^ exponent`. -/
  | real (negative : Bool) (significand : Nat) (exponent : Int)
  | string (s : Option String)
  | array (items : List Json)
  | object (members : List (Option String × Json))

instance : Inhabited Json := ⟨.null⟩

namespace Json

def ofText (s : String) : Json := .string (some s)

def ofMembers (members : List (String × Json)) : Json :=
  .object (members.map fun member => (some member.1, member.2))

def ofNat (n : Nat) : Json := .integer n

def text? : Json → Option String
  | .string s => s
  | _ => none

def integer? : Json → Option Int
  | .integer n => some n
  | _ => none

def bool? : Json → Option Bool
  | .bool b => some b
  | _ => none

def array? : Json → Option (List Json)
  | .array items => some items
  | _ => none

end Json

end Candlestick
