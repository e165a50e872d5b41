import Candlestick.Proofs.Store.Reseed
import Candlestick.Proofs.Store.Rolls

/-!
# Repeated seeds

A seed that is repeated at the same clock reading finds the candle that it left. Without a
candle given it makes one anew from the one before, at the later of the clock reading and
its open time, and the bucket of that instant is the one the candle stands in already
(`bucketStart_laterOf`).
-/

namespace Candlestick

variable {calendar : Calendar} {config : StoreConfig} {t : Table} {pair : Pair}
  {given stored : Option Candle} {c : Candle} {now : Instant}

-- ---------------------------------------------------------------------------
-- Buckets
-- ---------------------------------------------------------------------------

namespace Calendar

theorem bucketStart_eq_of_between (steady : calendar.zone ≠ .host) (r : Resolution)
    {t u : Instant} (started : (calendar.bucketStart r t).nanos ≤ u.nanos)
    (before : u.nanos ≤ t.nanos) : calendar.bucketStart r u = calendar.bucketStart r t := by
  have low := bucketStart_le_bucketStart steady r started
  rw [bucketStart_bucketStart steady] at low
  have high := bucketStart_le_bucketStart steady r before
  exact Instant.ext_nanos (Int.le_antisymm high low)

theorem bucketStart_laterOf (steady : calendar.zone ≠ .host) (r : Resolution)
    (now opened : Instant) :
    calendar.bucketStart r
        (Store.laterOf now (calendar.bucketStart r (Store.laterOf now opened))) =
      calendar.bucketStart r (Store.laterOf now opened) := by
  by_cases ahead : now.nanos ≤ (calendar.bucketStart r (Store.laterOf now opened)).nanos
  · rw [Store.laterOf, if_pos ahead, bucketStart_bucketStart steady]
  · rw [Store.laterOf, if_neg ahead]
    exact bucketStart_eq_of_between steady r (Int.le_of_lt (Int.not_le.mp ahead))
      (Store.nanos_le_laterOf now opened).1

end Calendar

-- ---------------------------------------------------------------------------
-- The same seed again
-- ---------------------------------------------------------------------------

namespace Candle

theorem flatAfter_flatAfter (steady : calendar.zone ≠ .host) (c : Candle) (now opened : Instant) :
    let flat := c.flatAfter calendar (Store.laterOf now opened)
    flat.flatAfter calendar (Store.laterOf now flat.openTime) = flat := by
  have start := Calendar.bucketStart_laterOf steady c.resolution now opened
  simp [flatAfter, fresh, start]

theorem flatAfter_fresh (steady : calendar.zone ≠ .host) (market : Market) (r : Resolution)
    (now : Instant) :
    let first := fresh market r calendar now
    first.flatAfter calendar (Store.laterOf now first.openTime) = first := by
  have start := Calendar.bucketStart_laterOf steady r now now
  have same : Store.laterOf now now = now := ite_self _
  rw [same] at start
  simp [flatAfter, fresh, start]

end Candle

namespace Store

theorem seedCandle_again (steady : calendar.zone ≠ .host) (pair : Pair)
    (given stored : Option Candle) (now : Instant) :
    seedCandle calendar pair given (some (seedCandle calendar pair given stored now)) now =
      seedCandle calendar pair given stored now := by
  cases given with
  | some c => rfl
  | none =>
    cases stored with
    | some c => exact c.flatAfter_flatAfter steady now c.openTime
    | none => exact Candle.flatAfter_fresh steady pair.market pair.resolution now

theorem seed_cases (config : StoreConfig) (pair : Pair) (given : Option Candle) (now : Instant)
    (t : Table) :
    (∃ c, t.get? pair = some c ∧ c.SameValue (seedCandle config.calendar pair given (some c) now) ∧
      seed config pair given now t = ⟨t, [], 0, false⟩) ∨
    (seed config pair given now t).table =
      t.insert pair (seedCandle config.calendar pair given (t.get? pair) now) := by
  unfold seed
  dsimp only
  split
  · next c found =>
    split
    · next same => exact .inl ⟨c, found, found ▸ same, rfl⟩
    · split
      · exact .inr rfl
      · exact .inr rfl
  · exact .inr rfl

theorem seed_of_sameValue (found : t.get? pair = some c)
    (same : c.SameValue (seedCandle config.calendar pair given (some c) now)) :
    seed config pair given now t = ⟨t, [], 0, false⟩ := by
  simp only [seed, found, if_pos same]

theorem seed_again (steady : config.calendar.zone ≠ .host) (pair : Pair) (given : Option Candle)
    (now : Instant) (t : Table) :
    seed config pair given now (seed config pair given now t).table =
      ⟨(seed config pair given now t).table, [], 0, false⟩ := by
  rcases seed_cases config pair given now t with ⟨c, found, same, kept⟩ | replaced
  · rw [kept]
    exact kept
  · rw [replaced]
    refine seed_of_sameValue (Table.get?_insert_self ..) ?_
    rw [seedCandle_again steady]
    exact Candle.SameValue.refl _

theorem seed_keeps_bucket (steady : config.calendar.zone ≠ .host) (tidy : t.Tidy)
    (found : t.get? pair = some c) (spans : c.Spans) (back : now.nanos < c.openTime.nanos) :
    ∃ kept, (seed config pair none now t).table.get? pair = some kept ∧
      kept.openTime = config.calendar.bucketStart pair.resolution c.openTime ∧
      kept.closeTime = config.calendar.bucketEnd pair.resolution kept.openTime ∧
      kept.contains c.openTime = true := by
  have own : c.resolution = pair.resolution :=
    congrArg Pair.resolution (tidy.pair_of_get? found)
  have later : laterOf now c.openTime = c.openTime := if_pos (Int.le_of_lt back)
  have flat : seedCandle config.calendar pair none (some c) now =
      c.flatAfter config.calendar c.openTime := congrArg (c.flatAfter config.calendar) later
  -- both ways leave a candle with the interval of the flat one
  obtain ⟨kept, there, start, stop⟩ : ∃ kept,
      (seed config pair none now t).table.get? pair = some kept ∧
        kept.openTime = config.calendar.bucketStart pair.resolution c.openTime ∧
        kept.closeTime = config.calendar.bucketEnd pair.resolution kept.openTime := by
    rcases seed_cases config pair none now t with ⟨d, found', same, kept⟩ | replaced
    · cases found.symm.trans found'
      rw [flat] at same
      obtain ⟨-, -, start, stop, -⟩ := same
      rw [kept]
      refine ⟨c, found, own ▸ start, ?_⟩
      rw [← own]
      exact stop.trans (congrArg (config.calendar.bucketEnd c.resolution) start.symm)
    · rw [found, flat] at replaced
      rw [replaced]
      exact ⟨_, Table.get?_insert_self .., own ▸ rfl, own ▸ rfl⟩
  have inside := config.calendar.lt_bucketEnd_bucketStart steady pair.resolution
    (Int.lt_of_lt_of_le spans c.closeTime.upper)
  have started := config.calendar.bucketStart_le steady pair.resolution c.openTime
  refine ⟨kept, there, start, stop, ?_⟩
  rw [Candle.contains, Bool.and_eq_true, decide_eq_true_eq, decide_eq_true_eq, stop, start]
  exact ⟨started, inside⟩

end Store

/-- Repeated at the same clock reading, an accepted seed replies that nothing changed, tells
nothing and leaves the whole table as it is. A seed without a candle, with the clock before
the stored open time, leaves the bucket with that open time in it. -/
theorem seed_repeated (steady : config.calendar.zone ≠ .host) (calls : List DatedCall)
    (pair : Pair) (given : Option Candle) (now : Instant) :
    let t := Table.afterCalls config {} calls
    let call : DatedCall := ⟨now, .request (.seed pair given)⟩
    let first := call.serve config t
    (∀ reply, first.reply = .ok reply →
      call.serve config first.table = ⟨first.table, [], .ok (.changed false)⟩) ∧
    (given = none → ∀ c, t.get? pair = some c → now.nanos < c.openTime.nanos →
      (∃ changed, first.reply = .ok (.changed changed)) ∧
      ∃ kept, first.table.get? pair = some kept ∧
        kept.openTime = config.calendar.bucketStart pair.resolution c.openTime ∧
        kept.closeTime = config.calendar.bucketEnd pair.resolution kept.openTime ∧
        kept.contains c.openTime = true) := by
  intro t call first
  constructor
  · intro reply accepted
    cases checked : Store.checkSeed pair given with
    | error e =>
      have refused : first = ⟨t, [], .error e⟩ := by
        simp [first, call, DatedCall.serve, StoreCall.toRequest, Request.check, checked]
      rw [refused] at accepted
      cases accepted
    | ok =>
      have served : ∀ u, call.serve config u =
          ⟨(Store.seed config pair given now u).table, (Store.seed config pair given now u).events,
            .ok (.changed (Store.seed config pair given now u).result)⟩ := by
        intro u
        simp [call, DatedCall.serve, StoreCall.toRequest, DatedRequest.serve, Request.check,
          checked, Request.plan, Change.replying]
      rw [served first.table, show first.table = (Store.seed config pair given now t).table from
        congrArg Served.table (served t), Store.seed_again steady]
  · rintro rfl c found back
    have months := Calendar.monthsHold_of_steady steady
    exact ⟨⟨_, rfl⟩, Store.seed_keeps_bucket steady (Table.tidy_afterCalls config calls) found
      ((spans_afterCalls months calls).of_get? found) back⟩

def lateHour : List DatedCall :=
  [⟨.clamp (1860 * nanosPerSecond), .request (.seed ⟨⟨"BTC/USDT"⟩, .hour1⟩
    (some { Candle.fresh ⟨"BTC/USDT"⟩ .hour1 twoResolutions.calendar .epoch with
      openTime := .clamp (1800 * nanosPerSecond)
      closeTime := .clamp (5400 * nanosPerSecond) }))⟩]

/-- With the clock set back to the first minute, a seed without a candle leaves the
calendar's hour, and one more does nothing. -/
theorem lateHour_repeated :
    let call : DatedCall :=
      ⟨.clamp (60 * nanosPerSecond), .request (.seed ⟨⟨"BTC/USDT"⟩, .hour1⟩ none)⟩
    let first := call.serve twoResolutions (Table.afterCalls twoResolutions {} lateHour)
    twoResolutions.calendar.zone ≠ .host ∧ first.reply = .ok (.changed true) ∧
      call.serve twoResolutions first.table = ⟨first.table, [], .ok (.changed false)⟩ ∧
      ∃ c kept, (Table.afterCalls twoResolutions {} lateHour).get? ⟨⟨"BTC/USDT"⟩, .hour1⟩ =
          some c ∧
        (Instant.clamp (60 * nanosPerSecond)).nanos < c.openTime.nanos ∧
        first.table.get? ⟨⟨"BTC/USDT"⟩, .hour1⟩ = some kept ∧
        kept.contains c.openTime = true ∧ kept.openTime ≠ c.openTime := by
  intro call first
  have steady : twoResolutions.calendar.zone ≠ .host := by decide
  have reply : first.reply = .ok (.changed true) := by rfl
  obtain ⟨again, bucket⟩ := seed_repeated steady lateHour ⟨⟨"BTC/USDT"⟩, .hour1⟩ none
    (.clamp (60 * nanosPerSecond))
  have stored : ∃ c, (Table.afterCalls twoResolutions {} lateHour).get? ⟨⟨"BTC/USDT"⟩, .hour1⟩ =
      some c ∧ c.openTime = .clamp (1800 * nanosPerSecond) := ⟨_, rfl, rfl⟩
  obtain ⟨c, found, late⟩ := stored
  have back : (Instant.clamp (60 * nanosPerSecond)).nanos < c.openTime.nanos := by
    rw [late]
    decide
  obtain ⟨-, kept, there, start, -, inside⟩ := bucket rfl c found back
  refine ⟨steady, reply, again _ reply, c, kept, found, back, there, inside, ?_⟩
  rw [start, late]
  decide

end Candlestick
