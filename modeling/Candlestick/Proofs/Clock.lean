import Candlestick.Clock

/-!
# Rounds of a clock

A timer that is set for the next minute goes off with the first whole millisecond that is
not before it (`millisOf_le_iff`). Whoever sets it again when it went off comes less than a
millisecond late the first time and no later ever after: the rounds are a whole minute apart
(`round`, `nextRound_of_round`), one in each minute (`minute_round`).
-/

namespace Candlestick

def Instant.minute (t : Instant) : Int := t.nanos / nanosPerMinute

/-- A timer takes the first whole number of milliseconds that is not less than the wait. -/
theorem millisOf_le_iff {nanos : Int} {millis : Nat} :
    millisOf nanos ≤ millis ↔ nanos ≤ millis * nanosPerMilli := by
  unfold millisOf nanosPerMilli
  omega

def Instant.nextRound (now : Instant) : Int :=
  now.nanos + millisOf (delayToMinute now) * nanosPerMilli

/-- When the `k`-th of the timers goes off that are set one after the other, the first one at
`start`. -/
def Instant.round (start : Instant) (k : Nat) : Int := start.nextRound + k * nanosPerMinute

variable {start t : Instant} {k : Nat}

theorem Instant.lt_nextRound (now : Instant) : now.nanos < now.nextRound := by
  have wait := delayToMinute_pos now
  have rounded := millisOf_le_iff.mp (Nat.le_refl (millisOf (delayToMinute now)))
  unfold nextRound
  omega

theorem Instant.round_succ (start : Instant) (k : Nat) :
    start.round (k + 1) = start.round k + nanosPerMinute := by
  unfold round
  rw [Int.natCast_succ, Int.add_mul, Int.one_mul, Int.add_assoc]

theorem Instant.round_lt_round_iff {j : Nat} : start.round j < start.round k ↔ j < k := by
  unfold round nanosPerMinute nanosPerSecond
  omega

theorem Instant.nextRound_bounds (now : Instant) :
    (now.minute + 1) * nanosPerMinute ≤ now.nextRound ∧
      now.nextRound < (now.minute + 1) * nanosPerMinute + nanosPerMilli := by
  unfold nextRound minute millisOf delayToMinute nanosPerMilli nanosPerMinute nanosPerSecond
  omega

/-- Each round comes in a minute of its own, less than a millisecond after it began. -/
theorem Instant.round_bounds (start : Instant) (k : Nat) :
    (start.minute + 1 + k) * nanosPerMinute ≤ start.round k ∧
      start.round k < (start.minute + 1 + k) * nanosPerMinute + nanosPerMilli := by
  have first := start.nextRound_bounds
  unfold round
  rw [Int.add_mul]
  omega

theorem Instant.minute_round (here : t.nanos = start.round k) :
    t.minute = start.minute + 1 + k ∧ t.nanos % nanosPerMinute < nanosPerMilli := by
  have bounds := start.round_bounds k
  rw [← here] at bounds
  unfold Instant.minute at *
  unfold nanosPerMilli nanosPerMinute nanosPerSecond at *
  omega

/-- A round is late by less than a millisecond, so the next timer takes a whole minute. -/
theorem Instant.nextRound_of_round (here : t.nanos = start.round k) :
    t.nextRound = start.round (k + 1) := by
  have early := (minute_round here).2
  rw [round_succ, ← here]
  unfold nextRound millisOf delayToMinute nanosPerMilli nanosPerMinute nanosPerSecond at *
  omega

/-- A running clock that has not come to the end of its range. -/
structure Clock.Keeps (c : Clock) (millis : Nat) : Prop where
  running : c.running = true
  within : c.base.nanos + millis * nanosPerMilli ≤ Instant.last.nanos

theorem Clock.Keeps.nanos_reading {c : Clock} {millis : Nat} (keeps : c.Keeps millis) :
    (c.reading millis).nanos = c.base.nanos + millis * nanosPerMilli := by
  have lower := c.base.lower
  have within := keeps.within
  rw [reading, if_pos keeps.running]
  refine Instant.nanos_wrap ?_ within
  unfold nanosPerMilli
  omega

theorem Clock.Keeps.mono {c : Clock} {millis later : Nat} (keeps : c.Keeps later)
    (le : millis ≤ later) : c.Keeps millis := by
  refine ⟨keeps.running, Int.le_trans ?_ keeps.within⟩
  unfold nanosPerMilli
  omega

end Candlestick
