import Candlestick.Json.Basic

/-!
# Records in JSON

A record of named fields comes as an object, where the order is free and unknown members are
left out, or as an array of the fields in their order. A field that is given twice makes the
object no record.
-/

namespace Candlestick

structure Row where
  /-- Whether the record came as an array. -/
  positional : Bool
  cells : List (String × Json)

namespace Row

def named? : List (Option String × Json) → Option (List (String × Json))
  | [] => some []
  | (some key, value) :: members => (named? members).map ((key, value) :: ·)
  | (none, _) :: _ => none

def ofJson? (fields : List String) : Json → Option Row
  | .array items =>
    if items.length ≤ fields.length then some ⟨true, fields.zip items⟩ else none
  | .object members =>
    match named? members with
    | some named =>
      let known := named.filter fun member => fields.contains member.1
      if (known.map Prod.fst).Nodup then some ⟨false, known⟩ else none
    | none => none
  | _ => none

def cell? (row : Row) (field : String) : Option Json := row.cells.lookup field

variable {α : Type}

def required (row : Row) (field : String) (decode : Json → Option α) : Option α :=
  (row.cell? field).bind decode

def withDefault (row : Row) (field : String) (default : α) (decode : Json → Option α) :
    Option α :=
  match row.cell? field with
  | some j => decode j
  | none => some default

/-- A field that may be `null`, and may be missing from an object. -/
def nullable (row : Row) (field : String) (decode : Json → Option α) : Option (Option α) :=
  match row.cell? field with
  | some .null => some none
  | some j => (decode j).map some
  | none => if row.positional then none else some none

end Row

end Candlestick
