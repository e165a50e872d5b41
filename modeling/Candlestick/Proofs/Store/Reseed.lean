import Candlestick.Proofs.Store.Chronicle
import Candlestick.Proofs.Store.Climb
import Candlestick.Proofs.Store.Shortcut
import Candlestick.Proofs.Store.Valid

/-!
# Final snapshots

A bucket that is over gives way to a flat successor, and deals, refreshes and seeds without
a candle all make the same one. Deals and refreshes tell how the old bucket ended before
they tell of the new one (`closed_of_moved`). A seed tells of the new one only
(`reseed_swallows`).
-/

namespace Candlestick

-- ---------------------------------------------------------------------------
-- Intervals
-- ---------------------------------------------------------------------------

namespace Candle

variable {calendar : Calendar} {c : Candle} {now : Instant}

def Spans (c : Candle) : Prop := c.openTime.nanos < c.closeTime.nanos

theorem spans_keptByStore (months : calendar.MonthsHold) :
    KeptByStore calendar (fun _ => True) Spans where
  fresh _ resolution now := Calendar.bucketStart_lt_bucketEnd months resolution now
  flat c now _ := Calendar.bucketStart_lt_bucketEnd months c.resolution now
  fold c d folded spans _ h := by
    obtain ⟨-, -, start, stop⟩ := fold_key h
    rwa [Spans, start, stop]

theorem Spans.laterOf_eq (spans : c.Spans) (ended : c.hasEnded now = true) :
    Store.laterOf now c.openTime = now := by
  have passed : c.closeTime.nanos ≤ now.nanos := by simpa [hasEnded] using ended
  exact if_neg (Int.not_le.mpr (Int.lt_of_lt_of_le spans passed))

/-- While a bucket lasts a flat candle for it opens when it does. The bucket at the first
instant is left out: it is cut off and ends in the next one. -/
theorem Aligned.openTime_flatAfter_of_live (steady : calendar.zone ≠ .host)
    (aligned : c.Aligned calendar) (inside : c.openTime ≠ .first)
    (live : c.hasEnded now = false) :
    (c.flatAfter calendar (Store.laterOf now c.openTime)).openTime = c.openTime := by
  obtain ⟨-, later⟩ := Store.nanos_le_laterOf now c.openTime
  have lasts : now.nanos < c.closeTime.nanos := by simpa [hasEnded] using live
  have spans : c.Spans := by
    obtain ⟨⟨t, start⟩, stop⟩ := aligned
    rw [Spans, stop, start]
    exact Calendar.bucketStart_lt_bucketEnd (Calendar.monthsHold_of_steady steady) _ t
  have before : (Store.laterOf now c.openTime).nanos < c.closeTime.nanos := by
    unfold Store.laterOf
    split
    · exact spans
    · exact lasts
  have past := Int.lt_of_lt_of_le before (c.closeTime.upper)
  obtain ⟨⟨t, start⟩, stop⟩ := aligned
  have starts : ¬ calendar.StartsEarly c.resolution t := by
    rwa [Calendar.startsEarly_iff steady, ← start]
  generalize Store.laterOf now c.openTime = u at *
  rw [stop] at before
  rw [start] at later before ⊢
  exact (Calendar.mem_bucket_iff steady past starts).mp ⟨later, before⟩

end Candle

section
variable {config : StoreConfig} {t : Table} {pair : Pair} {c : Candle} {now : Instant}

theorem spans_afterCalls (months : config.calendar.MonthsHold) (calls : List DatedCall) :
    (Table.afterCalls config {} calls).All Candle.Spans := by
  have kept : KeptByStore config.calendar (fun _ => True) Candle.Spans :=
    Candle.spans_keptByStore months
  rw [Table.afterCalls_eq]
  refine (kept.after (Table.all_empty _) fun d _ => ?_).1
  obtain ⟨now, request⟩ := d
  cases request with
  | seed pair given =>
    cases given with
    | none => exact trivial
    | some c => exact fun checked => (Candle.isValid_iff.mp (isValid_of_checkSeed checked)).1
  | _ => exact trivial

-- ---------------------------------------------------------------------------
-- A bucket that is over
-- ---------------------------------------------------------------------------

theorem refresh_of_ended (tidy : t.Tidy) (found : t.get? pair = some c)
    (ended : c.hasEnded now = true) :
    let flat := c.flatAfter config.calendar now
    let rolled := (⟨now, .refresh⟩ : DatedRequest).serve config t
    rolled.table.get? pair = some flat ∧
      Event.toldOf pair rolled.events = [.closed c, .opened flat] := by
  have step : Store.PairStep config pair now .refresh (some c)
      (Event.toldOf pair (Store.refresh config now t).events)
      ((Store.refresh config now t).table.get? pair) := found ▸ Store.refresh_pairStep tidy now pair
  intro flat rolled
  have live : Store.live config.calendar pair (some c) now =
      ⟨flat, [.closed c, .opened flat], true⟩ := if_pos ended
  show (Store.refresh config now t).table.get? pair = some flat ∧
    Event.toldOf pair (Store.refresh config now t).events = [.closed c, .opened flat]
  generalize (Store.refresh config now t).table.get? pair = after at step
  generalize Event.toldOf pair (Store.refresh config now t).events = told at step
  cases step with
  | aside outside => exact absurd trivial outside
  | refreshed => rw [live]; exact ⟨rfl, rfl⟩

/-- A seed without a candle puts the same successor in the place of a candle that is over,
and tells of that one alone; if the two have one value it does nothing. -/
theorem seed_of_ended (tidy : t.Tidy) (found : t.get? pair = some c)
    (ended : c.hasEnded now = true) (spans : c.Spans) :
    let flat := c.flatAfter config.calendar now
    let seeded := (⟨now, .seed pair none⟩ : DatedRequest).serve config t
    if c.SameValue flat then
      seeded.table.get? pair = some c ∧ Event.toldOf pair seeded.events = []
    else seeded.table.get? pair = some flat ∧ Event.toldOf pair seeded.events =
      [if c.openTime = flat.openTime then .updated flat else .opened flat] := by
  have step : Store.PairStep config pair now (.seed pair none) (some c)
      (Event.toldOf pair (Store.seed config pair none now t).events)
      ((Store.seed config pair none now t).table.get? pair) :=
    found ▸ Store.seed_pairStep tidy rfl now pair
  intro flat seeded
  have candle : Store.seedCandle config.calendar pair none (some c) now = flat :=
    congrArg (c.flatAfter config.calendar) (spans.laterOf_eq ended)
  show if c.SameValue flat then
      (Store.seed config pair none now t).table.get? pair = some c ∧
        Event.toldOf pair (Store.seed config pair none now t).events = []
    else (Store.seed config pair none now t).table.get? pair = some flat ∧
      Event.toldOf pair (Store.seed config pair none now t).events =
        [if c.openTime = flat.openTime then .updated flat else .opened flat]
  generalize (Store.seed config pair none now t).table.get? pair = after at step
  generalize Event.toldOf pair (Store.seed config pair none now t).events = told at step
  cases step with
  | aside outside => exact absurd rfl outside
  | kept same =>
    rw [candle] at same
    rw [if_pos same]
    exact ⟨rfl, rfl⟩
  | replaced moved =>
    rw [candle] at moved ⊢
    rw [if_neg moved]
    exact ⟨rfl, rfl⟩

-- ---------------------------------------------------------------------------
-- A bucket that stops being live
-- ---------------------------------------------------------------------------

theorem Store.mem_events_of_share {deal : Deal} {r : Resolution} {calendar : Calendar}
    {stored : Option Candle} {part : Store.Draft × Bool} {e : Event}
    (h : Store.share calendar deal now stored r = .ok part)
    (told : e ∈ (Store.live calendar ⟨deal.market, r⟩ stored now).events) : e ∈ part.1.events := by
  unfold Store.share at h
  dsimp only at h
  split at h
  · split at h
    · cases h
    · split at h
      · cases h
        exact told
      · cases h
        exact List.mem_append_left _ told
  · cases h
    exact told

theorem Store.closed_of_addDeal {deal : Deal} {change : Change DealOutcome}
    (added : Store.addDeal config deal now t = .ok change) (found : t.get? pair = some c)
    (moved : change.table.liveStart? pair ≠ some c.openTime) : .closed c ∈ change.events := by
  unfold Store.addDeal at added
  split at added
  · cases added
  · next parts shared =>
    cases added
    rcases Table.get?_insertAll_cases t (parts.map fun part => (part.1, part.2.1.candle)) pair with
      untouched | ⟨e, mem, own, there⟩
    · exact absurd (Table.liveStart?_of_get? (untouched.trans found)) moved
    · obtain ⟨part, among, rfl⟩ := List.mem_map.mp mem
      obtain ⟨market, share⟩ := (Store.shares_eq_ok shared).2 part among
      rw [show part.1 = pair from own] at share market
      rw [found] at share
      have start := Store.share_openTime share
      -- a candle that lasts would have kept its open time
      have ended : c.hasEnded now = true := by
        by_contra lasts
        have live : Store.live config.calendar ⟨deal.market, pair.resolution⟩ (some c) now =
            ⟨c, [], false⟩ := if_neg lasts
        rw [live] at start
        exact moved ((Table.liveStart?_of_get? there).trans (congrArg some start))
      have live : Store.live config.calendar ⟨deal.market, pair.resolution⟩ (some c) now =
          ⟨c.flatAfter config.calendar now, [.closed c, .opened (c.flatAfter config.calendar now)],
            true⟩ := if_pos ended
      refine List.mem_flatMap.mpr ⟨part, among, Store.mem_events_of_share share ?_⟩
      rw [live]
      exact List.mem_cons_self ..

theorem Store.closed_of_refresh (found : t.get? pair = some c)
    (moved : (Store.refresh config now t).table.liveStart? pair ≠ some c.openTime) :
    .closed c ∈ (Store.refresh config now t).events := by
  have there := Store.refresh_get? config now t pair
  rw [found] at there
  refine List.mem_flatMap.mpr ⟨(pair, c), Table.mem_of_get? found, ?_⟩
  by_cases ended : c.hasEnded now = true
  · simp [Store.refreshEvents, ended]
  · refine absurd (Table.liveStart?_of_get? there) ?_
    simpa [Store.refreshed, ended] using moved

/-- No request but a seed ends a bucket without telling its final snapshot. -/
theorem closed_of_moved {d : DatedRequest} (found : t.get? pair = some c)
    (unseeded : ∀ other given, d.request ≠ .seed other given)
    (moved : (d.serve config t).table.liveStart? pair ≠ some c.openTime) :
    .closed c ∈ (d.serve config t).events := by
  have stays := Table.liveStart?_of_get? found
  obtain ⟨now, request⟩ := d
  cases request with
  | deal deal =>
    simp only [DatedRequest.serve, Request.check, Request.plan] at moved ⊢
    cases added : Store.addDeal config deal now t with
    | error e =>
      rw [added] at moved
      exact absurd stays moved
    | ok change =>
      rw [added] at moved
      exact Store.closed_of_addDeal added found moved
  | seed other given => exact absurd rfl (unseeded other given)
  | refresh => exact Store.closed_of_refresh found moved
  | look other | pairs => exact absurd stays moved

-- ---------------------------------------------------------------------------
-- Runs with seeds in time
-- ---------------------------------------------------------------------------

/-- A seed, without a candle, of a pair that is not tracked yet or whose bucket lasts and
is not the one at the first instant; or any other request at a clock reading before the
last instant. -/
def Transition.Prompt (step : Transition) : Prop :=
  match step.dated.request with
  | .seed pair given => given = none ∧ ∀ c ∈ step.before.get? pair,
      c.hasEnded step.dated.now = false ∧ c.openTime ≠ .first
  | _ => step.dated.now.nanos < Instant.last.nanos

instance : (step : Transition) → Decidable step.Prompt
  | ⟨before, ⟨now, .seed pair given⟩, _⟩ =>
    inferInstanceAs (Decidable (given = none ∧ ∀ c ∈ before.get? pair,
      c.hasEnded now = false ∧ c.openTime ≠ .first))
  | ⟨_, ⟨now, .deal _⟩, _⟩ => inferInstanceAs (Decidable (now.nanos < Instant.last.nanos))
  | ⟨_, ⟨now, .refresh⟩, _⟩ => inferInstanceAs (Decidable (now.nanos < Instant.last.nanos))
  | ⟨_, ⟨now, .look _⟩, _⟩ => inferInstanceAs (Decidable (now.nanos < Instant.last.nanos))
  | ⟨_, ⟨now, .pairs⟩, _⟩ => inferInstanceAs (Decidable (now.nanos < Instant.last.nanos))

theorem Recorded.step_prompt {request : Request} {stored result : Option Candle}
    {told : List Notice} {events : List Event} (steady : config.calendar.zone ≠ .host)
    (clocked : (∀ other given, request ≠ .seed other given) → now.nanos < Instant.last.nanos)
    (prompt : ∀ given, request = .seed pair given →
      given = none ∧ ∀ c ∈ stored, c.hasEnded now = false ∧ c.openTime ≠ .first)
    (recorded : Recorded config.calendar told stored)
    (step : Store.PairStep config pair now request stored events result) :
    Recorded config.calendar (told ++ events.map (Notice.mk now)) result := by
  by_cases tracked : ∃ given, request = .seed pair given ∧ stored ≠ none
  · obtain ⟨given, rfl, here⟩ := tracked
    obtain ⟨rfl, lasts⟩ := prompt given rfl
    cases step with
    | aside outside => exact absurd rfl outside
    | seeded => exact absurd rfl here
    | kept => simpa using recorded
    | @replaced _ c moved =>
      obtain ⟨live, inside⟩ := lasts c rfl
      obtain ⟨chronicle, aligned⟩ := recorded
      have start : (Store.seedCandle config.calendar pair none (some c) now).openTime =
          c.openTime := aligned.openTime_flatAfter_of_live steady inside live
      rw [if_pos start.symm]
      exact ⟨chronicle.updated now start, Candle.aligned_flatAfter ..⟩
  · refine recorded.step steady clocked (fun given same => ⟨(prompt given same).1, ?_⟩) step
    by_contra here
    exact tracked ⟨given, same, here⟩

/-- What was told of a pair, up to its live candle: every bucket that was told of is closed
once with its final snapshot, but for the live one, which is not closed. -/
def ClosedOnce (told : List Notice) : Option Candle → Prop
  | none => told = []
  | some c => Chronicle told c ∧
      ∀ n ∈ told, closings n.openTime told = if n.openTime = c.openTime then 0 else 1

theorem Recorded.closedOnce {told : List Notice} {stored : Option Candle}
    (recorded : Recorded config.calendar told stored) : ClosedOnce told stored := by
  cases stored with
  | none => exact recorded
  | some c =>
    obtain ⟨chronicle, -⟩ := recorded
    refine ⟨chronicle, fun n hn => ?_⟩
    split
    · next live => exact chronicle.closings_live _ (Int.le_of_eq (congrArg Instant.nanos live).symm)
    · next past => exact chronicle.closings_past n hn past

theorem closedOnce_after {requests : List DatedRequest} (steady : config.calendar.zone ≠ .host)
    (nodup : config.resolutions.Nodup)
    (prompt : ∀ step ∈ Table.transitions config {} requests, step.Prompt) (pair : Pair) :
    ClosedOnce (noticesOf pair (Table.transitions config {} requests))
      ((Table.after config {} requests).get? pair) := by
  refine (recorded_run pair fun t d reply told mem tidy replied before => ?_).closedOnce
  have last := prompt _ mem
  refine before.step_prompt steady ?_ ?_ (DatedRequest.serve_pairStep nodup tidy replied pair)
  · intro unseeded
    unfold Transition.Prompt at last
    split at last
    · next request => exact absurd request (unseeded _ _)
    · exact last
  · intro given request
    simpa [Transition.Prompt, request] using last

/-- Where a bucket is over, a refresh tells its final snapshot and opens its successor,
and a seed without a candle leaves the same successor but tells of that one alone. No
other request takes the place of a bucket without its final snapshot; and in runs whose
seeds come while the live bucket lasts, all buckets of a pair but the live one are closed
once. -/
theorem snapshots_told {config : StoreConfig} :
    ((config.calendar.zone = .host → config.calendar.MonthsHold) →
      ∀ (calls : List DatedCall) (pair : Pair) (c : Candle) (now : Instant),
        (Table.afterCalls config {} calls).get? pair = some c → c.hasEnded now = true →
        let t := Table.afterCalls config {} calls
        let flat := c.flatAfter config.calendar now
        let rolled := (⟨now, .refresh⟩ : DatedRequest).serve config t
        let seeded := (⟨now, .seed pair none⟩ : DatedRequest).serve config t
        (rolled.table.get? pair = some flat ∧
          Event.toldOf pair rolled.events = [.closed c, .opened flat]) ∧
        if c.SameValue flat then
          seeded.table.get? pair = some c ∧ Event.toldOf pair seeded.events = []
        else seeded.table.get? pair = some flat ∧ Event.toldOf pair seeded.events =
          [if c.openTime = flat.openTime then .updated flat else .opened flat]) ∧
    (∀ (calls : List DatedCall) (d : DatedRequest) (pair : Pair) (c : Candle),
      (Table.afterCalls config {} calls).get? pair = some c →
      (∀ other given, d.request ≠ .seed other given) →
      (d.serve config (Table.afterCalls config {} calls)).table.liveStart? pair ≠
        some c.openTime →
      .closed c ∈ (d.serve config (Table.afterCalls config {} calls)).events) ∧
    (config.calendar.zone ≠ .host → config.resolutions.Nodup →
      ∀ requests : List DatedRequest,
        (∀ step ∈ Table.transitions config {} requests, step.Prompt) → ∀ pair,
          ClosedOnce (noticesOf pair (Table.transitions config {} requests))
            ((Table.after config {} requests).get? pair)) := by
  refine ⟨fun months calls pair c now found ended => ?_,
    fun _ _ _ _ found unseeded moved => closed_of_moved found unseeded moved,
    fun steady nodup _ prompt pair => closedOnce_after steady nodup prompt pair⟩
  have hold : config.calendar.MonthsHold := by
    by_cases host : config.calendar.zone = .host
    · exact months host
    · exact Calendar.monthsHold_of_steady host
  have tidy := Table.tidy_afterCalls config calls
  exact ⟨refresh_of_ended tidy found ended,
    seed_of_ended tidy found ended ((spans_afterCalls hold calls).of_get? found)⟩

end

/-- A deal, a seed while its minute lasts, a refresh after it, and one more seed and deal
in the next minute. -/
def promptMinutes : List DatedRequest :=
  [dealAt 5 5 10, ⟨.clamp (10 * nanosPerSecond), .seed ⟨⟨"BTC/USDT"⟩, .minute1⟩ none⟩,
    ⟨.clamp (65 * nanosPerSecond), .refresh⟩,
    ⟨.clamp (66 * nanosPerSecond), .seed ⟨⟨"BTC/USDT"⟩, .minute1⟩ none⟩,
    dealAt 70 70 12]

def tradedMinute : List DatedCall := [⟨.clamp (5 * nanosPerSecond), .request (.deal earlyDeal)⟩]

theorem promptMinutes_told : ∃ c,
    (Table.afterCalls minuteStore {} tradedMinute).get? ⟨⟨"BTC/USDT"⟩, .minute1⟩ = some c ∧
      c.hasEnded (.clamp (65 * nanosPerSecond)) = true ∧
      Event.toldOf ⟨⟨"BTC/USDT"⟩, .minute1⟩
        ((⟨.clamp (65 * nanosPerSecond), .refresh⟩ : DatedRequest).serve minuteStore
          (Table.afterCalls minuteStore {} tradedMinute)).events =
        [.closed c, .opened (c.flatAfter minuteStore.calendar (.clamp (65 * nanosPerSecond)))] ∧
      .closed c ∈ ((dealAt 65 65 12).serve minuteStore
        (Table.afterCalls minuteStore {} tradedMinute)).events ∧
      (∀ step ∈ Table.transitions minuteStore {} promptMinutes, step.Prompt) ∧
      ClosedOnce
        (noticesOf ⟨⟨"BTC/USDT"⟩, .minute1⟩ (Table.transitions minuteStore {} promptMinutes))
        ((Table.after minuteStore {} promptMinutes).get? ⟨⟨"BTC/USDT"⟩, .minute1⟩) := by
  obtain ⟨ends, moved, prompt⟩ := @snapshots_told minuteStore
  have steady : minuteStore.calendar.zone ≠ .host := by decide
  have inTime : ∀ step ∈ Table.transitions minuteStore {} promptMinutes, step.Prompt := by decide
  obtain ⟨c, here⟩ : ∃ c, (Table.afterCalls minuteStore {} tradedMinute).get?
      ⟨⟨"BTC/USDT"⟩, .minute1⟩ = some c := ⟨_, rfl⟩
  have past : ∀ c ∈ (Table.afterCalls minuteStore {} tradedMinute).get? ⟨⟨"BTC/USDT"⟩, .minute1⟩,
      c.hasEnded (.clamp (65 * nanosPerSecond)) = true ∧
        ((dealAt 65 65 12).serve minuteStore
          (Table.afterCalls minuteStore {} tradedMinute)).table.liveStart?
            ⟨⟨"BTC/USDT"⟩, .minute1⟩ ≠ some c.openTime := by decide
  obtain ⟨ended, later⟩ := past c here
  obtain ⟨⟨-, told⟩, -⟩ := ends (fun host => absurd host steady) tradedMinute _ c _ here ended
  have closed := moved tradedMinute (dealAt 65 65 12) _ c here
    (fun other given same => by cases same) later
  exact ⟨c, here, ended, told, closed, inTime, prompt steady (by decide) promptMinutes inTime _⟩

/-- A seed that comes after the end of the minute opens the next one, and the deal of the
first minute is never told as final; a refresh would have told it. -/
theorem reseed_swallows : ∃ c flat : Candle,
    (Table.afterCalls minuteStore {} tradedMinute).get? ⟨⟨"BTC/USDT"⟩, .minute1⟩ = some c ∧
      c.hasEnded (.clamp (65 * nanosPerSecond)) = true ∧
      Event.toldOf ⟨⟨"BTC/USDT"⟩, .minute1⟩
        ((⟨.clamp (65 * nanosPerSecond), .refresh⟩ : DatedRequest).serve minuteStore
          (Table.afterCalls minuteStore {} tradedMinute)).events = [.closed c, .opened flat] ∧
      Event.toldOf ⟨⟨"BTC/USDT"⟩, .minute1⟩
        ((⟨.clamp (65 * nanosPerSecond), .seed ⟨⟨"BTC/USDT"⟩, .minute1⟩ none⟩ : DatedRequest).serve
          minuteStore (Table.afterCalls minuteStore {} tradedMinute)).events = [.opened flat] ∧
      c.openTime ≠ flat.openTime ∧
      .closed c ∉ Table.eventsOf minuteStore {} [dealAt 5 5 10,
        ⟨.clamp (65 * nanosPerSecond), .seed ⟨⟨"BTC/USDT"⟩, .minute1⟩ none⟩] :=
  ⟨_, _, rfl, rfl, rfl, rfl, by decide, by decide⟩

end Candlestick
