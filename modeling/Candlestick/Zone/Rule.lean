import Candlestick.Calendar.Month

/-!
# Local time

How the clocks of a place stand against UTC: at one offset throughout, or at a second one
between two switches in every year. From UTC the last switch up to a second decides. A
reading of the local clock is looked up in its own year. The seconds of both are counted
from the epoch.
-/

namespace Candlestick

inductive YearDay where
  /-- A weekday (Sunday being 0) of a month (January being 0): the first, second
  and so on, 5 standing for the last. -/
  | weekdayOf (place week weekday : Nat)
  /-- A day from 1 to 365; the 29th of February is not counted. -/
  | common (n : Nat)
  /-- A day from 0 to 365, every day counted. -/
  | counted (n : Nat)
  deriving DecidableEq

structure Switch where
  day : YearDay
  time : Int
  deriving DecidableEq

structure Daylight where
  offset : Int
  start : Switch
  stop : Switch
  deriving DecidableEq

/-- The offsets of a place, in seconds east of Greenwich. -/
structure TimeRule where
  standard : Int
  daylight : Option Daylight
  deriving DecidableEq

namespace YearDay

open Calendar

/-- The weekday of a day, Sunday being 0. -/
def weekdayOfDay (day : Int) : Int := (day + 4) % 7

def dayIn (year : Int) : YearDay → Int
  | weekdayOf place week weekday =>
    let month := Month.ofYear year place
    let first := month.firstDay
    let day := first + ((weekday : Int) - weekdayOfDay first) % 7 + 7 * ((week : Int) - 1)
    if first + month.length ≤ day then day - 7 else day
  | common n =>
    let january := (Month.ofYear year 0).firstDay
    january + n - 1 + (if isLeapYear year && 60 ≤ n then 1 else 0)
  | counted n => (Month.ofYear year 0).firstDay + n

end YearDay

def Switch.secondIn (s : Switch) (year offset : Int) : Int :=
  s.day.dayIn year * 86400 + s.time - offset

namespace TimeRule

def fixed (offset : Int) : TimeRule := ⟨offset, none⟩

def switchesIn (standard : Int) (d : Daylight) (year : Int) : List (Int × Int) :=
  [(d.start.secondIn year standard, d.offset), (d.stop.secondIn year d.offset, standard)]

def later (a b : Int × Int) : Int × Int := if a.1 ≤ b.1 then b else a

def offsetAt (rule : TimeRule) (second : Int) : Int :=
  match rule.daylight with
  | none => rule.standard
  | some d =>
    let year := Calendar.Month.yearOfDay (second / 86400)
    let switches := [year - 1, year, year + 1].flatMap (switchesIn rule.standard d)
    match switches.filter fun s => s.1 ≤ second with
    | [] => rule.standard
    | s :: rest => (rest.foldl later s).2

/-- A change of the local clock between two offsets, with its readings just
before and just after. -/
structure Jump where
  last : Int
  first : Int

def Jump.isForward (j : Jump) : Bool := j.last < j.first

def jumpIn (s : Switch) (year before after : Int) : Jump :=
  ⟨s.secondIn year 0, s.secondIn year 0 + after - before⟩

def monthIn (s : Switch) (year : Int) : Calendar.Month :=
  Calendar.Month.lastUpTo year (s.day.dayIn year) 11

/-- How the readings of one year stand for offsets: `outer` holds at both ends
of the year and `inner` between the two jumps. -/
structure YearView where
  outer : Int
  inner : Int
  leave : Jump
  back : Jump

/-- The view of a year. Its months alone decide which switch comes first: the
start of daylight time where its month is an earlier one. -/
def viewOf (standard : Int) (d : Daylight) (year : Int) : YearView :=
  let start := jumpIn d.start year standard d.offset
  let stop := jumpIn d.stop year d.offset standard
  if (monthIn d.start year).index < (monthIn d.stop year).index then
    ⟨standard, d.offset, start, stop⟩
  else ⟨d.offset, standard, stop, start⟩

/-- The offset of a reading, `none` where the clocks skip it. Where they go
forward first, a reading at which that happens still exists; where they go
forward last, it does not. Of a reading that happens twice the smaller offset
is taken. -/
def YearView.offset? (v : YearView) (reading : Int) : Option Int :=
  if v.leave.isForward then
    if reading ≤ v.leave.last then some v.outer
    else if reading < v.leave.first then none
    else if reading < v.back.first then some v.inner
    else some v.outer
  else
    if reading < v.leave.first then some v.outer
    else if reading < v.back.last then some v.inner
    else if reading < v.back.first then none
    else some v.outer

/-- The offset that a reading of the local clock stands for. Only the switches
of its own year are looked at. -/
def offsetOf? (rule : TimeRule) (reading : Int) : Option Int :=
  match rule.daylight with
  | none => some rule.standard
  | some d =>
    if d.offset = rule.standard then some rule.standard
    else (viewOf rule.standard d (Calendar.Month.yearOfDay (reading / 86400))).offset? reading

def secondOf? (rule : TimeRule) (reading : Int) : Option Int :=
  (rule.offsetOf? reading).map (reading - ·)

theorem offsetAt_fixed (offset second : Int) : (fixed offset).offsetAt second = offset := rfl

theorem secondOf?_fixed (offset reading : Int) :
    (fixed offset).secondOf? reading = some (reading - offset) := rfl

end TimeRule

end Candlestick
