import Candlestick.Proofs.Store.Replay
import Candlestick.Proofs.Store.Rolls

/-!
# What a refresh leaves

A refresh replaces the candles that are over, and those alone, each by its flat successor,
and tells of them in the order of their pairs. In a zone with one offset no successor is
over at the instant of the refresh, so that a second one, at that instant or an earlier one,
finds nothing to do (`refresh_complete`).
-/

namespace Candlestick

variable {config : StoreConfig} {calendar : Calendar} {t : Table} {now earlier : Instant}
  {pair : Pair} {c : Candle}

/-- A candle without trades that carries on from the close of another one, in a bucket
with the instant in it. -/
structure Candle.CarriesOn (flat old : Candle) (now : Instant) : Prop where
  pair : flat.pair = old.pair
  «open» : flat.open = old.close
  high : flat.high = old.close
  low : flat.low = old.close
  close : flat.close = old.close
  volume : flat.volume = .zero
  inside : flat.contains now = true

theorem Candle.flatAfter_carriesOn (steady : calendar.zone ≠ .host)
    (before : now.nanos < Instant.last.nanos) (c : Candle) :
    (c.flatAfter calendar now).CarriesOn c now := by
  have start := calendar.bucketStart_le steady c.resolution now
  have stop := calendar.lt_bucketEnd_bucketStart steady c.resolution before
  refine ⟨rfl, rfl, rfl, rfl, rfl, rfl, ?_⟩
  rw [contains, Bool.and_eq_true, decide_eq_true_eq, decide_eq_true_eq]
  exact ⟨start, stop⟩

theorem Candle.hasEnded_of_le (back : earlier.nanos ≤ now.nanos) (live : c.hasEnded now = false) :
    c.hasEnded earlier = false := by
  rw [hasEnded, decide_eq_false_iff_not] at live ⊢
  omega

-- ---------------------------------------------------------------------------
-- The candles that are over
-- ---------------------------------------------------------------------------

namespace Table

def ended (t : Table) (now : Instant) : List (Pair × Candle) :=
  t.entries.filter fun entry => entry.2.hasEnded now

theorem Tidy.pairwise_ended (tidy : t.Tidy) (now : Instant) :
    (t.ended now).Pairwise fun a b => a.1.precedes b.1 = true :=
  tidy.ordered.filter _

theorem Tidy.mem_ended (tidy : t.Tidy) :
    (pair, c) ∈ t.ended now ↔ t.get? pair = some c ∧ c.hasEnded now = true := by
  rw [ended, List.mem_filter]
  exact and_congr_left' ⟨get?_of_mem tidy, mem_of_get?⟩

end Table

namespace Store

theorem refreshed_of_live (live : c.hasEnded now = false) : refreshed calendar now c = c :=
  if_neg (Bool.eq_false_iff.mp live)

theorem refresh_eq (config : StoreConfig) (now : Instant) (t : Table) :
    refresh config now t =
      { table := t.mapCandles (refreshed config.calendar now)
        events := (t.ended now).flatMap fun entry =>
          [.closed entry.2, .opened (entry.2.flatAfter config.calendar now)]
        rollovers := (t.ended now).length
        result := (t.ended now).length } := by
  obtain ⟨entries⟩ := t
  refine congrArg (fun events => Change.mk _ events _ _) ?_
  rw [Table.ended]
  induction entries with
  | nil => rfl
  | cons entry rest ih =>
    rw [List.flatMap_cons, ih, refreshEvents]
    cases late : entry.2.hasEnded now <;> simp [late]

theorem refresh_of_live (live : ∀ entry ∈ t.entries, entry.2.hasEnded now = false) :
    refresh config now t = ⟨t, [], 0, 0⟩ := by
  have none : t.ended now = [] :=
    List.filter_eq_nil_iff.mpr fun entry mem => Bool.eq_false_iff.mp (live entry mem)
  have same : t.mapCandles (refreshed config.calendar now) = t := by
    refine congrArg Table.mk ((List.map_congr_left fun entry mem => ?_).trans (List.map_id _))
    rw [refreshed_of_live (live entry mem)]
    rfl
  rw [refresh_eq, none, same]
  rfl

end Store

theorem Table.live_of_refresh (steady : config.calendar.zone ≠ .host)
    (before : now.nanos < Instant.last.nanos) :
    ∀ entry ∈ (Store.refresh config now t).table.entries, entry.2.hasEnded now = false := by
  intro entry mem
  obtain ⟨old, -, rfl⟩ := List.mem_map.mp mem
  exact Store.refreshed_lasts steady before old.2

/-- A refresh leaves no candle that is over. It keeps the pairs, and the candles that are
not over as they are. It closes the others in the order of their pairs, each followed by
the opening of a flat one, and replies with their number. A second refresh at an instant
that is no later does nothing. -/
theorem refresh_complete {config : StoreConfig} (steady : config.calendar.zone ≠ .host)
    (calls : List DatedCall) {now : Instant} (before : now.nanos < Instant.last.nanos) :
    let t := Table.afterCalls config {} calls
    let served := (⟨now, .refresh⟩ : DatedRequest).serve config t
    (∀ pair c, served.table.get? pair = some c → c.hasEnded now = false) ∧
    served.table.pairs = t.pairs ∧
    (∀ pair c, t.get? pair = some c → c.hasEnded now = false →
      served.table.get? pair = some c) ∧
    (∃ (ended : List (Pair × Candle)) (flat : Candle → Candle),
      ended.Pairwise (fun a b => a.1.precedes b.1 = true) ∧
      (∀ pair c, (pair, c) ∈ ended ↔ t.get? pair = some c ∧ c.hasEnded now = true) ∧
      (∀ pair c, (pair, c) ∈ ended →
        (flat c).CarriesOn c now ∧ served.table.get? pair = some (flat c)) ∧
      served.events = ended.flatMap (fun entry => [.closed entry.2, .opened (flat entry.2)]) ∧
      served.reply = .ok (.rolled ended.length)) ∧
    ∀ earlier : Instant, earlier.nanos ≤ now.nanos →
      (⟨earlier, .refresh⟩ : DatedRequest).serve config served.table =
        ⟨served.table, [], .ok (.rolled 0)⟩ := by
  intro t served
  have tidy : t.Tidy := Table.tidy_afterCalls config calls
  have live := Table.live_of_refresh (t := t) steady before
  refine ⟨?_, Store.refresh_pairs config now t, ?_,
    ⟨t.ended now, fun c => c.flatAfter config.calendar now, tidy.pairwise_ended now,
      fun pair c => tidy.mem_ended, ?_, congrArg Change.events (Store.refresh_eq config now t),
      rfl⟩, ?_⟩
  · intro pair c stored
    exact live (pair, c) (Table.mem_of_get? stored)
  · intro pair c stored lasts
    have kept := Store.refresh_get? config now t pair
    rw [stored, Option.map_some, Store.refreshed_of_live lasts] at kept
    exact kept
  · intro pair c mem
    obtain ⟨stored, late⟩ := tidy.mem_ended.mp mem
    have rolled := Store.refresh_get? config now t pair
    rw [stored, Option.map_some, Store.refreshed, if_pos late] at rolled
    exact ⟨c.flatAfter_carriesOn steady before, rolled⟩
  · intro earlier back
    have idle : Store.refresh config earlier served.table = ⟨served.table, [], 0, 0⟩ :=
      Store.refresh_of_live fun entry mem => Candle.hasEnded_of_le back (live entry mem)
    simp only [DatedRequest.serve, Request.check, Request.plan, idle, Change.replying]

def shortHourAndMonth : List DatedCall :=
  shortHour ++ [⟨.clamp (7 * nanosPerSecond), .request (.seed ⟨⟨"AAVE/USDT"⟩, .month1⟩ none)⟩]

/-- The minute and the short hour are rolled, the month stays, and a clock that was set
back finds nothing more to roll. -/
theorem shortHourAndMonth_refresh :
    let t := Table.afterCalls twoResolutions {} shortHourAndMonth
    let served := (⟨.clamp (65 * nanosPerSecond), .refresh⟩ : DatedRequest).serve twoResolutions t
    twoResolutions.calendar.zone ≠ .host ∧
      (Instant.clamp (65 * nanosPerSecond)).nanos < Instant.last.nanos ∧
      served.reply = .ok (.rolled 2) ∧
      served.events.map (fun e => (e.kind, e.candle.resolution)) =
        [(.closed, .minute1), (.opened, .minute1), (.closed, .hour1), (.opened, .hour1)] ∧
      served.table.pairs.length = 3 ∧
      (∃ month, t.get? ⟨⟨"AAVE/USDT"⟩, .month1⟩ = some month ∧
        served.table.get? ⟨⟨"AAVE/USDT"⟩, .month1⟩ = some month) ∧
      (⟨.clamp (30 * nanosPerSecond), .refresh⟩ : DatedRequest).serve twoResolutions
        served.table = ⟨served.table, [], .ok (.rolled 0)⟩ := by
  intro t served
  have steady : twoResolutions.calendar.zone ≠ .host := by decide
  have before : (Instant.clamp (65 * nanosPerSecond)).nanos < Instant.last.nanos := by decide
  obtain ⟨-, pairs, kept, -, again⟩ := refresh_complete steady shortHourAndMonth before
  have stored : t.get? ⟨⟨"AAVE/USDT"⟩, .month1⟩ =
      some (.fresh ⟨"AAVE/USDT"⟩ .month1 twoResolutions.calendar (.clamp (7 * nanosPerSecond))) := by
    decide +kernel
  refine ⟨steady, before, by decide +kernel, by decide +kernel, ?_,
    ⟨_, stored, kept _ _ stored (by decide +kernel)⟩, again _ (by decide)⟩
  exact (congrArg List.length pairs).trans (by decide +kernel)

end Candlestick
