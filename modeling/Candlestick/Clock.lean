import Candlestick.Instant

/-!
# Clocks and timers

A clock reading is a base instant, which somebody may set, plus the time that has run since,
for a clock that runs. Refreshes are aligned to the minutes of the clock: the wait is
computed from the reading, so delays do not add up. Timers count milliseconds.
-/

namespace Candlestick

/-- Nanoseconds until the next minute begins, a whole minute where one begins
right now. -/
def delayToMinute (now : Instant) : Int := nanosPerMinute - now.nanos % nanosPerMinute

theorem delayToMinute_pos (now : Instant) : 0 < delayToMinute now := by
  unfold delayToMinute nanosPerMinute nanosPerSecond
  omega

def nanosPerMilli : Int := 1000000

/-- The whole milliseconds that a wait takes, rounded up. -/
def millisOf (nanos : Int) : Nat := ((nanos + (nanosPerMilli - 1)) / nanosPerMilli).toNat

structure Clock where
  base : Instant
  /-- Whether the reading moves with the time. -/
  running : Bool

namespace Clock

def reading (c : Clock) (millis : Nat) : Instant :=
  if c.running then .wrap (c.base.nanos + millis * nanosPerMilli) else c.base

def advance (c : Clock) (nanos : Nat) : Clock :=
  let step : Int := if nanos ≤ 9223372036854775807 then nanos else 9223372036854775807
  { c with base := .wrap (c.base.nanos + step) }

def set (c : Clock) (now : Instant) : Clock := { c with base := now }

end Clock

end Candlestick
