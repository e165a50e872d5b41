import Candlestick.Proofs.Calendar.Steady
import Candlestick.Proofs.Store.PairStep
import Candlestick.Proofs.Store.Transition

/-!
# Rolling early and rolling late

A bucket that is over is rolled by the next deal of its market or by a refresh, whichever
comes first. Both make the same candle of it, and in a zone with one offset that candle is
not over at the instant at which it was made, so that a deal after a refresh has nothing
left to roll (`deal_after_refresh`).
-/

namespace Candlestick

namespace Store

variable {config : StoreConfig} {calendar : Calendar} {pair : Pair} {stored : Option Candle}
  {now : Instant} {deal : Deal} {table : Table} {r : Resolution}

theorem refreshed_lasts (steady : calendar.zone ≠ .host) (before : now.nanos < Instant.last.nanos)
    (c : Candle) : (refreshed calendar now c).hasEnded now = false := by
  unfold refreshed
  split
  · have lasts := calendar.lt_bucketEnd_bucketStart steady c.resolution before
    exact decide_eq_false (Int.not_le.mpr lasts)
  · next live => exact Bool.eq_false_iff.mpr live

def refreshTold (calendar : Calendar) (stored : Option Candle) (now : Instant) : List Event :=
  (stored.map (refreshEvents calendar now)).getD []

theorem live_refreshed (lasts : ∀ c, (refreshed calendar now c).hasEnded now = false)
    (pair : Pair) (stored : Option Candle) :
    (live calendar pair (stored.map (refreshed calendar now)) now).candle =
        (live calendar pair stored now).candle ∧
      (live calendar pair stored now).events = refreshTold calendar stored now ++
        (live calendar pair (stored.map (refreshed calendar now)) now).events := by
  cases stored with
  | none => exact ⟨rfl, rfl⟩
  | some c =>
    obtain ⟨candle, events⟩ := live_some calendar pair c now
    rw [candle, events]
    simp [live, lasts c, refreshTold]

-- ---------------------------------------------------------------------------
-- Shares of a deal
-- ---------------------------------------------------------------------------

/-- A share of a deal after a refresh against that of the deal alone: the same candle,
less to tell. -/
structure SameShare (told : List Event) (alone late : Draft × Bool) : Prop where
  candle : late.1.candle = alone.1.candle
  events : alone.1.events = told ++ late.1.events
  inside : late.2 = alone.2

theorem share_refreshed {alone : Draft × Bool}
    (lasts : ∀ c, (refreshed calendar now c).hasEnded now = false)
    (h : share calendar deal now stored r = .ok alone) :
    ∃ late, share calendar deal now (stored.map (refreshed calendar now)) r = .ok late ∧
      SameShare (refreshTold calendar stored now) alone late := by
  obtain ⟨candle, events⟩ := live_refreshed lasts ⟨deal.market, r⟩ stored
  unfold share at h ⊢
  generalize live calendar ⟨deal.market, r⟩ stored now = draft at *
  generalize live calendar ⟨deal.market, r⟩ (stored.map (refreshed calendar now)) now = draft' at *
  obtain ⟨c, told, rolled⟩ := draft'
  dsimp only at candle events h ⊢
  subst candle
  split at h
  · next inside =>
    rw [if_pos inside]
    split at h
    · cases h
    · next folded _ =>
      split at h
      · next same =>
        cases h
        exact ⟨_, if_pos same, rfl, events, rfl⟩
      · next moved =>
        cases h
        refine ⟨_, if_neg moved, rfl, ?_, rfl⟩
        dsimp only
        rw [events, List.append_assoc]
  · next outside =>
    cases h
    exact ⟨_, if_neg outside, rfl, events, rfl⟩

theorem shares_refreshed {resolutions : List Resolution} {parts : List (Pair × Draft × Bool)}
    (lasts : ∀ c, (refreshed config.calendar now c).hasEnded now = false)
    (h : shares config.calendar deal now table resolutions = .ok parts) :
    ∃ parts', shares config.calendar deal now (refresh config now table).table resolutions =
        .ok parts' ∧ parts'.map (fun part => part.2.2) = parts.map (fun part => part.2.2) := by
  induction resolutions generalizing parts with
  | nil =>
    cases h
    exact ⟨[], rfl, rfl⟩
  | cons r rest ih =>
    unfold shares at h ⊢
    dsimp only at h ⊢
    split at h
    · cases h
    · next alone first =>
      split at h
      · cases h
      · next later others =>
        cases h
        obtain ⟨late, first', same⟩ := share_refreshed lasts first
        obtain ⟨later', others', flags⟩ := ih others
        rw [refresh_get?, first', others']
        exact ⟨_, rfl, by simp [same.inside, flags]⟩

theorem addDeal_refreshed {alone : Change DealOutcome}
    (lasts : ∀ c, (refreshed config.calendar now c).hasEnded now = false)
    (h : addDeal config deal now table = .ok alone) :
    ∃ after, addDeal config deal now (refresh config now table).table = .ok after ∧
      after.result = alone.result := by
  unfold addDeal at h
  split at h
  · cases h
  · next parts found =>
    cases h
    obtain ⟨parts', found', flags⟩ := shares_refreshed lasts found
    have count : ∀ p : Bool → Bool, (parts'.filter fun part => p part.2.2).length =
        (parts.filter fun part => p part.2.2).length := by
      intro p
      have counts := congrArg (List.countP p) flags
      rwa [List.countP_map, List.countP_map, List.countP_eq_length_filter,
        List.countP_eq_length_filter] at counts
    refine ⟨_, by rw [addDeal, found'], ?_⟩
    exact DealOutcome.mk.injEq .. ▸ ⟨count id, count not⟩

-- ---------------------------------------------------------------------------
-- Steps of one pair
-- ---------------------------------------------------------------------------

theorem share_of_pairStep {events : List Event} {after : Option Candle}
    (touches : Request.Touches config pair (.deal deal))
    (step : PairStep config pair now (.deal deal) stored events after) :
    ∃ part, share config.calendar deal now stored pair.resolution = .ok part ∧
      events = part.1.events ∧ after = some part.1.candle := by
  have same : (⟨deal.market, pair.resolution⟩ : Pair) = pair := by rw [touches.1]
  unfold share
  rw [same]
  dsimp only
  cases step with
  | aside outside => exact absurd touches outside
  | skipped _ missed => exact ⟨_, by rw [missed]; rfl, rfl, rfl⟩
  | idle _ inside fold unmoved =>
    simp only [inside, fold, if_pos unmoved]
    exact ⟨_, rfl, rfl, rfl⟩
  | folded _ inside fold moved =>
    simp only [inside, fold, if_neg moved]
    exact ⟨_, rfl, rfl, rfl⟩

theorem refreshed_of_pairStep {events : List Event} {after : Option Candle}
    (step : PairStep config pair now .refresh stored events after) :
    events = refreshTold config.calendar stored now ∧
      after = stored.map (refreshed config.calendar now) := by
  cases step with
  | aside outside => exact absurd trivial outside
  | untracked => exact ⟨rfl, rfl⟩
  | refreshed =>
    next c =>
      obtain ⟨candle, events⟩ := live_some config.calendar pair c now
      rw [candle, events]
      exact ⟨rfl, rfl⟩

/-- A deal alone and a refresh with the same deal after it do the same to a pair of the
deal. -/
theorem PairStep.refresh_deal {told alone late : List Event} {middle after after' : Option Candle}
    (lasts : ∀ c, (Store.refreshed config.calendar now c).hasEnded now = false)
    (touches : Request.Touches config pair (.deal deal))
    (once : PairStep config pair now (.deal deal) stored alone after)
    (first : PairStep config pair now .refresh stored told middle)
    (second : PairStep config pair now (.deal deal) middle late after') :
    after' = after ∧ told ++ late = alone := by
  obtain ⟨part, found, rfl, rfl⟩ := share_of_pairStep touches once
  obtain ⟨rfl, rfl⟩ := refreshed_of_pairStep first
  obtain ⟨part', found', rfl, rfl⟩ := share_of_pairStep touches second
  obtain ⟨late, found'', same⟩ := share_refreshed lasts found
  rw [found'] at found''
  cases found''
  exact ⟨congrArg some same.candle, same.events.symm⟩

end Store

theorem Table.Tidy.refresh_deal {t : Table} (tidy : t.Tidy) {config : StoreConfig} {now : Instant}
    {deal : Deal} {outcome : DealOutcome} (nodup : config.resolutions.Nodup)
    (lasts : ∀ c, (Store.refreshed config.calendar now c).hasEnded now = false)
    (ok : ((⟨now, .deal deal⟩ : DatedRequest).serve config t).reply = .ok (.outcome outcome)) :
    let rolled := ((⟨now, .refresh⟩ : DatedRequest).serve config t)
    let early := (⟨now, .deal deal⟩ : DatedRequest).serve config rolled.table
    let alone := (⟨now, .deal deal⟩ : DatedRequest).serve config t
    early.reply = .ok (.outcome outcome) ∧ ∀ r ∈ config.resolutions,
      early.table.get? ⟨deal.market, r⟩ = alone.table.get? ⟨deal.market, r⟩ ∧
        Event.toldOf ⟨deal.market, r⟩ (rolled.events ++ early.events) =
          Event.toldOf ⟨deal.market, r⟩ alone.events := by
  intro rolled early alone
  have reply : early.reply = .ok (.outcome outcome) := by
    simp only [early, rolled, DatedRequest.serve, Request.check, Request.plan] at ok ⊢
    cases added : Store.addDeal config deal now t with
    | error e => simp [added] at ok
    | ok change =>
      obtain ⟨late, taken, result⟩ := Store.addDeal_refreshed lasts added
      simp only [added, Change.replying, Except.ok.injEq, Reply.outcome.injEq] at ok
      simp only [Change.replying, taken, result, ok]
  refine ⟨reply, fun r kept => ?_⟩
  obtain ⟨candle, events⟩ := Store.PairStep.refresh_deal lasts ⟨rfl, kept⟩
    (DatedRequest.serve_pairStep nodup tidy ok ⟨deal.market, r⟩)
    (DatedRequest.serve_pairStep nodup tidy (d := ⟨now, .refresh⟩) rfl ⟨deal.market, r⟩)
    (DatedRequest.serve_pairStep nodup (DatedRequest.serve_tidy tidy) reply ⟨deal.market, r⟩)
  exact ⟨candle, by rw [Store.toldOf_append, events]⟩

/-- A store that takes a deal takes it after a refresh at the same instant too, with the
same outcome. All pairs of the deal have the same candles in the end, and the same events
are told of them. -/
theorem deal_after_refresh {config : StoreConfig} (steady : config.calendar.zone ≠ .host)
    (nodup : config.resolutions.Nodup) (calls : List DatedCall) (deal : Deal) {now : Instant}
    (before : now.nanos < Instant.last.nanos) {outcome : DealOutcome}
    (ok : ((⟨now, .deal deal⟩ : DatedRequest).serve config
      (Table.afterCalls config {} calls)).reply = .ok (.outcome outcome)) :
    let t := Table.afterCalls config {} calls
    (∃ rolled, (t.serveAll config [⟨now, .refresh⟩, ⟨now, .deal deal⟩]).map Served.reply =
        [.ok (.rolled rolled), .ok (.outcome outcome)]) ∧
      ∀ r ∈ config.resolutions,
        (t.after config [⟨now, .refresh⟩, ⟨now, .deal deal⟩]).get? ⟨deal.market, r⟩ =
            (t.after config [⟨now, .deal deal⟩]).get? ⟨deal.market, r⟩ ∧
          Event.toldOf ⟨deal.market, r⟩
              (t.eventsOf config [⟨now, .refresh⟩, ⟨now, .deal deal⟩]) =
            Event.toldOf ⟨deal.market, r⟩ (t.eventsOf config [⟨now, .deal deal⟩]) := by
  intro t
  obtain ⟨reply, pairs⟩ := (Table.tidy_afterCalls config calls).refresh_deal nodup
    (Store.refreshed_lasts steady before) ok
  refine ⟨⟨(Store.refresh config now t).result, ?_⟩, fun r kept => ?_⟩
  · simp only [Table.serveAll, List.map_cons, List.map_nil, t, reply]
    rfl
  · obtain ⟨candle, events⟩ := pairs r kept
    refine ⟨candle, ?_⟩
    simp only [Table.eventsOf, Table.serveAll, List.flatMap_cons, List.flatMap_nil,
      List.append_nil]
    exact events

/-- A minute, and an hour that was replaced by one that ends after a minute: both are over
when the next deal comes. -/
def shortHour : List DatedCall :=
  [⟨.clamp (5 * nanosPerSecond), .request (.deal earlyDeal)⟩,
    ⟨.clamp (6 * nanosPerSecond), .request (.seed ⟨⟨"BTC/USDT"⟩, .hour1⟩
      (some { Candle.fresh ⟨"BTC/USDT"⟩ .hour1 twoResolutions.calendar .epoch with
        closeTime := .clamp (60 * nanosPerSecond) }))⟩]

theorem shortHour_deal_after_refresh :
    twoResolutions.calendar.zone ≠ .host ∧ twoResolutions.resolutions.Nodup ∧
      (Instant.clamp (65 * nanosPerSecond)).nanos < Instant.last.nanos ∧
      ((dealAt 65 62 ⟨12, by decide⟩).serve twoResolutions
        (Table.afterCalls twoResolutions {} shortHour)).reply = .ok (.outcome ⟨2, 0⟩) ∧
      (Event.toldOf ⟨⟨"BTC/USDT"⟩, .hour1⟩ (Table.eventsOf twoResolutions
        (Table.afterCalls twoResolutions {} shortHour)
        [⟨.clamp (65 * nanosPerSecond), .refresh⟩, dealAt 65 62 ⟨12, by decide⟩])).length = 3 := by
  have steady : twoResolutions.calendar.zone ≠ .host := by decide
  have nodup : twoResolutions.resolutions.Nodup := by decide
  have before : (Instant.clamp (65 * nanosPerSecond)).nanos < Instant.last.nanos := by decide
  have ok : ((dealAt 65 62 ⟨12, by decide⟩).serve twoResolutions
      (Table.afterCalls twoResolutions {} shortHour)).reply = .ok (.outcome ⟨2, 0⟩) := rfl
  obtain ⟨-, pairs⟩ := deal_after_refresh steady nodup shortHour (dealOf 62 ⟨12, by decide⟩)
    before ok
  obtain ⟨-, events⟩ := pairs .hour1 (by decide)
  refine ⟨steady, nodup, before, ok, (congrArg List.length events).trans ?_⟩
  decide

end Candlestick
