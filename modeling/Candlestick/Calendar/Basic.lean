import Candlestick.Resolution
import Candlestick.Zone.Basic
import Candlestick.Zone.Rule

/-!
# Buckets

A bucket contains its start and not its end. Buckets of a fixed duration are multiples of it
counted from the epoch, whatever the zone; monthly buckets begin with the first instant of a
month in the reference zone. Bounds outside the range of instants stop at its ends.
-/

namespace Candlestick

/-- A reference zone, with the rule of the host for where it is the host's. -/
structure Calendar where
  zone : Zone
  host : TimeRule
  deriving DecidableEq

namespace Calendar

def rule (c : Calendar) : TimeRule :=
  match c.zone with
  | .utc => .fixed 0
  | .fixed offset => .fixed offset.seconds
  | .host => c.host

def dayOf (c : Calendar) (t : Instant) : Int :=
  let second := t.nanos / nanosPerSecond
  (second + c.rule.offsetAt second) / 86400

def monthOf (c : Calendar) (t : Instant) : Month := .ofDay (c.dayOf t)

/-- The instant at which the local clock reads a full hour of a day. -/
def hourOf? (c : Calendar) (day : Int) (hour : Nat) : Option Instant :=
  match c.rule.secondOf? (day * 86400 + hour * 3600) with
  | some second => Instant.ofNanos? (second * nanosPerSecond)
  | none => none

def firstHourOf? (c : Calendar) (day : Int) : Option Instant :=
  (List.range 24).findSome? (c.hourOf? day)

def bucketStart (c : Calendar) (r : Resolution) (t : Instant) : Instant :=
  match r.nanos? with
  | some duration => Instant.clamp (t.nanos - t.nanos % duration)
  | none => (c.firstHourOf? (c.monthOf t).firstDay).getD Instant.first

def bucketEnd (c : Calendar) (r : Resolution) (start : Instant) : Instant :=
  match r.nanos? with
  | some duration => Instant.clamp (start.nanos + duration)
  | none => (c.firstHourOf? (c.monthOf start).next.firstDay).getD Instant.last

end Calendar

end Candlestick
