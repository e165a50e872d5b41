import Candlestick.Text.Blank
import Candlestick.Text.Integer
import Candlestick.Text.Quoted

/-!
# Reference zones

The zone whose calendar defines the months: UTC, a fixed offset from it, or the zone of the
host. A zone has a short text, which reading accepts with blanks around it and with its
letters in either case.
-/

namespace Candlestick

/-- Seconds east of Greenwich, less than a day either way. -/
structure Offset where
  seconds : Int
  bound : seconds.natAbs < 86400
  deriving DecidableEq

inductive Zone where
  | utc
  | fixed (offset : Offset)
  | host
  deriving DecidableEq

structure InvalidZone where
  input : String
  deriving DecidableEq

def InvalidZone.message (e : InvalidZone) : String :=
  "invalid reference timezone " ++ Text.quoted e.input ++ ", expected local, utc or +HH:MM"

namespace Offset

def ofSeconds? (seconds : Int) : Option Offset :=
  if h : seconds.natAbs < 86400 then some ⟨seconds, h⟩ else none

def twoDigits (n : Nat) : List Char := [Nat.digitChar (n / 10), Nat.digitChar (n % 10)]

def render (o : Offset) : String :=
  let minutes := o.seconds.natAbs / 60
  String.ofList ((if o.seconds < 0 then '-' else '+') ::
    twoDigits (minutes / 60) ++ ':' :: twoDigits (minutes % 60))

def clock? (cs : List Char) : Option (Int × Int) :=
  match cs with
  | [a, b, ':', c, d] => do
    let hours ← Text.integer? [a, b]
    let minutes ← Text.integer? [c, d]
    return (hours, minutes)
  | _ => none

def ofClock? (sign : Int) (cs : List Char) : Option Offset :=
  match clock? cs with
  | some (hours, minutes) =>
    if minutes < 60 then ofSeconds? (sign * (hours * 3600 + minutes * 60)) else none
  | none => none

def ofChars? : List Char → Option Offset
  | '+' :: cs => ofClock? 1 cs
  | '-' :: cs => ofClock? (-1) cs
  | _ => none

end Offset

namespace Zone

def ofChars? (cs : List Char) : Option Zone :=
  let lower := cs.map Char.toLower
  if lower = ['l', 'o', 'c', 'a', 'l'] then some .host
  else if lower = ['u', 't', 'c'] ∨ lower = ['z'] then some .utc
  else (Offset.ofChars? cs).map .fixed

def parse (s : String) : Except InvalidZone Zone :=
  match ofChars? (Text.strip s.toList) with
  | some z => .ok z
  | none => .error ⟨s⟩

def render : Zone → String
  | utc => "utc"
  | fixed offset => offset.render
  | host => "local"

theorem parse_error {s : String} {e : InvalidZone} (h : parse s = .error e) : e.input = s := by
  unfold parse at h
  split at h
  · cases h
  · cases h; rfl

end Zone

end Candlestick
