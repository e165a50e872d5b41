import Candlestick.Candle.Wire
import Candlestick.Json.Buffered

/-!
# Events

A change of a candle, with the candle after it: a bucket became live, a live bucket changed,
or a bucket is over and this is its last state. In JSON an event is an object of its kind
and its candle, or an array of the two, where the kind has to be a plain name.
-/

namespace Candlestick

inductive Event where
  | opened (candle : Candle)
  | updated (candle : Candle)
  | closed (candle : Candle)
  deriving DecidableEq

inductive EventKind where
  | opened
  | updated
  | closed
  deriving DecidableEq

namespace EventKind

def all : List EventKind := [opened, updated, closed]

def name : EventKind → String
  | opened => "Opened"
  | updated => "Updated"
  | closed => "Closed"

def label : EventKind → String
  | opened => "opened"
  | updated => "updated"
  | closed => "closed"

def ofName? (name : String) : Option EventKind := all.find? fun kind => kind.name = name

def ofJson? (j : Json) : Option EventKind := j.caseName?.bind ofName?

end EventKind

namespace Event

def candle : Event → Candle
  | opened c => c
  | updated c => c
  | closed c => c

def kind : Event → EventKind
  | opened _ => .opened
  | updated _ => .updated
  | closed _ => .closed

def ofKind : EventKind → Candle → Event
  | .opened => opened
  | .updated => updated
  | .closed => closed

def isFinal (e : Event) : Bool := e.kind = .closed

theorem ofKind_kind_candle (e : Event) : ofKind e.kind e.candle = e := by
  cases e <;> rfl

def toJson (e : Event) : Json :=
  .ofMembers [("kind", .ofText e.kind.name), ("candle", e.candle.toJson)]

/-- How deep the content of an event may be nested when it comes before the
kind. -/
def keptDepth : Nat := 126

/-- The event of the two members, in either order. A candle before its kind has
to be kept first. -/
def ofMembers? : List (String × Json) → Option Event
  | [("kind", kind), ("candle", candle)] => do
    let kind ← EventKind.ofJson? kind
    let candle ← Candle.ofJson? candle
    return ofKind kind candle
  | [("candle", candle), ("kind", kind)] =>
    if candle.canKeep keptDepth then do
      let kind ← EventKind.ofJson? kind
      let candle ← Candle.ofJson? candle
      return ofKind kind candle
    else none
  | _ => none

def ofJson? : Json → Option Event
  | .array [kind, candle] => do
    let kind ← kind.text?.bind EventKind.ofName?
    let candle ← Candle.ofJson? candle
    return ofKind kind candle
  | .object members =>
    match Row.named? members with
    | some named => ofMembers? (named.filter fun member => ["kind", "candle"].contains member.1)
    | none => none
  | _ => none

end Event

end Candlestick
