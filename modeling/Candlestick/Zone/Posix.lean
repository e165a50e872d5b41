import Candlestick.Zone.Rule
import Candlestick.Text.Integer

/-!
# The time zone notation of POSIX

A text such as `CET-1CEST,M3.5.0,M10.5.0/3`: a name and an offset, west being positive,
then, where there is daylight saving time, its name, its offset (an hour more unless given),
and the days and times of day of the two switches. A name has three to seven letters, digits
and signs; without angle brackets around it, letters only.
-/

namespace Candlestick.TimeRule

def isName (cs : List Char) : Bool :=
  3 ≤ cs.length && cs.length ≤ 7 && cs.all fun c => c.isAlphanum || c = '+' || c = '-'

def skipName? : List Char → Option (List Char)
  | '<' :: cs =>
    match cs.dropWhile (· ≠ '>') with
    | '>' :: rest => if isName (cs.takeWhile (· ≠ '>')) then some rest else none
    | _ => none
  | cs => if isName (cs.takeWhile Char.isAlpha) then some (cs.dropWhile Char.isAlpha) else none

def readNat? (cs : List Char) : Option (Nat × List Char) :=
  (Text.digits? (cs.takeWhile Char.isDigit)).map fun n => (n, cs.dropWhile Char.isDigit)

def readPart? : List Char → Option (Nat × List Char)
  | ':' :: cs => readNat? cs
  | cs => some (0, cs)

def readSeconds? (cs : List Char) : Option (Int × List Char) := do
  let (hours, cs) ← readNat? cs
  let (minutes, cs) ← readPart? cs
  let (seconds, cs) ← readPart? cs
  if hours ≤ 24 ∧ minutes ≤ 59 ∧ seconds ≤ 59 then
    return (hours * 3600 + minutes * 60 + seconds, cs)
  else none

def readSigned? : List Char → Option (Int × List Char)
  | '-' :: cs => (readSeconds? cs).map fun (n, rest) => (-n, rest)
  | '+' :: cs => readSeconds? cs
  | cs => readSeconds? cs

def readDay? : List Char → Option (YearDay × List Char)
  | 'M' :: cs => do
    let (month, cs) ← readNat? cs
    let cs ← if cs.head? = some '.' then some cs.tail else none
    let (week, cs) ← readNat? cs
    let cs ← if cs.head? = some '.' then some cs.tail else none
    let (weekday, cs) ← readNat? cs
    if 1 ≤ month ∧ month ≤ 12 ∧ 1 ≤ week ∧ week ≤ 5 ∧ weekday ≤ 6 then
      return (.weekdayOf (month - 1) week weekday, cs)
    else none
  | 'J' :: cs => do
    let (n, cs) ← readNat? cs
    if 1 ≤ n ∧ n ≤ 365 then return (.common n, cs) else none
  | cs => do
    let (n, cs) ← readNat? cs
    if n ≤ 365 then return (.counted n, cs) else none

/-- Reads a comma, a day and a time of it, two o'clock where none is given. -/
def readSwitch? : List Char → Option (Switch × List Char)
  | ',' :: cs => do
    let (day, cs) ← readDay? cs
    match cs with
    | '/' :: cs =>
      let (time, cs) ← readSeconds? cs
      return (⟨day, time⟩, cs)
    | cs => return (⟨day, 7200⟩, cs)
  | _ => none

/-- Reads the offset of daylight saving time, an hour ahead of the standard
where none is given. -/
def readDaylightOffset? (standard : Int) : List Char → Option (Int × List Char)
  | ',' :: cs => some (standard + 3600, ',' :: cs)
  | cs => (readSigned? cs).map fun (west, rest) => (-west, rest)

def ofPosix? (s : String) : Option TimeRule := do
  let cs ← skipName? s.toList
  let (west, cs) ← readSigned? cs
  if cs.isEmpty then return fixed (-west)
  let cs ← skipName? cs
  let (offset, cs) ← readDaylightOffset? (-west) cs
  let (start, cs) ← readSwitch? cs
  let (stop, cs) ← readSwitch? cs
  if cs.isEmpty then return ⟨-west, some ⟨offset, start, stop⟩⟩ else none

end Candlestick.TimeRule
