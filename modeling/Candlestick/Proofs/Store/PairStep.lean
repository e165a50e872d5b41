import Candlestick.Proofs.Store.Tidy
import Candlestick.Store.Call

/-!
# What a request does to one pair

`PairStep` lists everything that a request that succeeds can do to the live candle of one
pair, with the events of that pair in their order. `serve_pairStep` shows the list complete
for every request to a tidy table, as long as no resolution is kept twice.
-/

namespace Candlestick

def Event.toldOf (pair : Pair) (events : List Event) : List Event :=
  events.filter fun e => e.candle.pair = pair

/-- Whether a request can change the candle of a pair. -/
def Request.Touches (config : StoreConfig) (pair : Pair) : Request → Prop
  | .deal d => d.market = pair.market ∧ pair.resolution ∈ config.resolutions
  | .seed other _ => other = pair
  | .refresh => True
  | .look _ => False
  | .pairs => False

namespace Store

/-- What a request can do to the candle of a pair, and the events that tell
of it. -/
inductive PairStep (config : StoreConfig) (pair : Pair) (now : Instant) :
    Request → Option Candle → List Event → Option Candle → Prop
  | aside {request : Request} {stored : Option Candle} :
      ¬ request.Touches config pair → PairStep config pair now request stored [] stored
  | untracked : PairStep config pair now .refresh none [] none
  | refreshed {c : Candle} :
      PairStep config pair now .refresh (some c)
        (live config.calendar pair (some c) now).events
        (some (live config.calendar pair (some c) now).candle)
  /-- The live bucket does not contain the deal. -/
  | skipped {deal : Deal} {stored : Option Candle} :
      Request.Touches config pair (.deal deal) →
      (live config.calendar pair stored now).candle.contains deal.createdAt = false →
      PairStep config pair now (.deal deal) stored
        (live config.calendar pair stored now).events
        (some (live config.calendar pair stored now).candle)
  /-- The fold leaves the numeric values as they are. -/
  | idle {deal : Deal} {stored : Option Candle} {folded : Candle} :
      Request.Touches config pair (.deal deal) →
      (live config.calendar pair stored now).candle.contains deal.createdAt = true →
      (live config.calendar pair stored now).candle.fold deal.price deal.amount = .ok folded →
      folded.SameValue (live config.calendar pair stored now).candle →
      PairStep config pair now (.deal deal) stored
        (live config.calendar pair stored now).events
        (some (live config.calendar pair stored now).candle)
  | folded {deal : Deal} {stored : Option Candle} {folded : Candle} :
      Request.Touches config pair (.deal deal) →
      (live config.calendar pair stored now).candle.contains deal.createdAt = true →
      (live config.calendar pair stored now).candle.fold deal.price deal.amount = .ok folded →
      ¬ folded.SameValue (live config.calendar pair stored now).candle →
      PairStep config pair now (.deal deal) stored
        ((live config.calendar pair stored now).events ++ [.updated folded]) (some folded)
  | seeded {given : Option Candle} :
      PairStep config pair now (.seed pair given) none
        [.opened (seedCandle config.calendar pair given none now)]
        (some (seedCandle config.calendar pair given none now))
  | kept {given : Option Candle} {c : Candle} :
      c.SameValue (seedCandle config.calendar pair given (some c) now) →
      PairStep config pair now (.seed pair given) (some c) [] (some c)
  | replaced {given : Option Candle} {c : Candle} :
      ¬ c.SameValue (seedCandle config.calendar pair given (some c) now) →
      PairStep config pair now (.seed pair given) (some c)
        [if c.openTime = (seedCandle config.calendar pair given (some c) now).openTime then
          .updated (seedCandle config.calendar pair given (some c) now)
        else .opened (seedCandle config.calendar pair given (some c) now)]
        (some (seedCandle config.calendar pair given (some c) now))

variable {calendar : Calendar} {pair : Pair} {stored : Option Candle} {now : Instant}

-- ---------------------------------------------------------------------------
-- Drafts stay with their pair
-- ---------------------------------------------------------------------------

theorem flatAfter_pair (c : Candle) (calendar : Calendar) (now : Instant) :
    (c.flatAfter calendar now).pair = c.pair := rfl

theorem fold_pair {c folded : Candle} {price : Price} {amount : Quantity}
    (h : c.fold price amount = .ok folded) : folded.pair = c.pair := by
  obtain ⟨market, resolution, -, -⟩ := Candle.fold_key h
  rw [Candle.pair, Candle.pair, market, resolution]

theorem live_pair (calendar : Calendar) (now : Instant) (own : ∀ c, stored = some c → c.pair = pair) :
    (live calendar pair stored now).candle.pair = pair := by
  unfold live
  split
  · next c =>
    split
    · exact (flatAfter_pair c calendar now).trans (own c rfl)
    · exact own c rfl
  · rfl

theorem live_events_pair (calendar : Calendar) (now : Instant)
    (own : ∀ c, stored = some c → c.pair = pair) :
    ∀ e ∈ (live calendar pair stored now).events, e.candle.pair = pair := by
  intro e he
  unfold live at he
  split at he
  · next c =>
    split at he
    · simp only [List.mem_cons, List.not_mem_nil, or_false] at he
      rcases he with rfl | rfl
      · exact own c rfl
      · exact (flatAfter_pair c calendar now).trans (own c rfl)
    · cases he
  · simp only [List.mem_cons, List.not_mem_nil, or_false] at he
    subst he
    rfl

theorem share_pair {deal : Deal} {part : Draft × Bool} {r : Resolution}
    (own : ∀ c, stored = some c → c.pair = ⟨deal.market, r⟩)
    (h : share calendar deal now stored r = .ok part) :
    part.1.candle.pair = ⟨deal.market, r⟩ ∧
      ∀ e ∈ part.1.events, e.candle.pair = ⟨deal.market, r⟩ := by
  have candle := live_pair calendar now own
  have events := live_events_pair calendar now own
  unfold share at h
  dsimp only at h
  split at h
  · split at h
    · cases h
    · next folded hf =>
      split at h
      · cases h
        exact ⟨candle, events⟩
      · cases h
        have same := (fold_pair hf).trans candle
        refine ⟨same, fun e he => ?_⟩
        rcases List.mem_append.mp he with he | he
        · exact events e he
        · rw [List.mem_singleton.mp he]
          exact same
  · cases h
    exact ⟨candle, events⟩

-- ---------------------------------------------------------------------------
-- Events of one pair among those of many
-- ---------------------------------------------------------------------------

theorem toldOf_flatMap_of_ne {α : Type} {key : α → Pair} {events : α → List Event} {l : List α}
    (own : ∀ a ∈ l, ∀ e ∈ events a, e.candle.pair = key a) (h : ∀ a ∈ l, key a ≠ pair) :
    Event.toldOf pair (l.flatMap events) = [] := by
  unfold Event.toldOf
  rw [List.filter_eq_nil_iff]
  intro e he same
  obtain ⟨a, ha, he⟩ := List.mem_flatMap.mp he
  exact h a ha ((own a ha e he).symm.trans (by simpa using same))

theorem toldOf_of_own {events : List Event} (own : ∀ e ∈ events, e.candle.pair = pair) :
    Event.toldOf pair events = events :=
  List.filter_eq_self.mpr fun e he => by simpa using own e he

theorem toldOf_append (pair : Pair) (first second : List Event) :
    Event.toldOf pair (first ++ second) =
      Event.toldOf pair first ++ Event.toldOf pair second :=
  List.filter_append ..

theorem toldOf_flatMap_of_mem {α : Type} {key : α → Pair} {events : α → List Event}
    {l : List α} {a : α} (own : ∀ b ∈ l, ∀ e ∈ events b, e.candle.pair = key b)
    (nodup : (l.map key).Nodup) (ha : a ∈ l) :
    Event.toldOf (key a) (l.flatMap events) = events a := by
  induction l with
  | nil => cases ha
  | cons b rest ih =>
    have hn := List.nodup_cons.mp nodup
    have ownRest : ∀ c ∈ rest, ∀ e ∈ events c, e.candle.pair = key c :=
      fun c hc => own c (List.mem_cons_of_mem _ hc)
    rw [List.flatMap_cons, toldOf_append]
    rcases List.mem_cons.mp ha with rfl | ha
    · have others : Event.toldOf (key a) (rest.flatMap events) = [] :=
        toldOf_flatMap_of_ne ownRest fun c hc same => hn.1 (List.mem_map.mpr ⟨c, hc, same⟩)
      rw [toldOf_of_own (own a (by simp)), others, List.append_nil]
    · have ne : key b ≠ key a := fun same => hn.1 (List.mem_map.mpr ⟨a, ha, same.symm⟩)
      have first : Event.toldOf (key a) ([b].flatMap events) = [] :=
        toldOf_flatMap_of_ne (by simpa using own b (by simp)) (by simpa using ne)
      rw [List.flatMap_singleton] at first
      rw [first, ih ownRest hn.2 ha, List.nil_append]

-- ---------------------------------------------------------------------------
-- Deals
-- ---------------------------------------------------------------------------

theorem shares_eq_ok {deal : Deal} {table : Table} {resolutions : List Resolution}
    {parts : List (Pair × Draft × Bool)}
    (h : shares calendar deal now table resolutions = .ok parts) :
    parts.map Prod.fst = resolutions.map (Pair.mk deal.market) ∧
      ∀ part ∈ parts, part.1.market = deal.market ∧
        share calendar deal now (table.get? part.1) part.1.resolution = .ok part.2 := by
  induction resolutions generalizing parts with
  | nil =>
    cases h
    exact ⟨rfl, by simp⟩
  | cons r rest ih =>
    unfold shares at h
    dsimp only at h
    split at h
    · cases h
    · next drafted hd =>
      split at h
      · cases h
      · next later hl =>
        cases h
        obtain ⟨keys, each⟩ := ih hl
        refine ⟨by simp [keys], fun part hp => ?_⟩
        rcases List.mem_cons.mp hp with rfl | hp
        · exact ⟨rfl, hd⟩
        · exact each part hp

theorem nodup_pairs {resolutions : List Resolution} (nodup : resolutions.Nodup) (m : Market) :
    (resolutions.map (Pair.mk m)).Nodup :=
  List.pairwise_map.mpr (nodup.imp fun ne same => ne (Pair.mk.inj same).2)

theorem pairStep_of_share {config : StoreConfig} {deal : Deal} {part : Draft × Bool}
    (touches : Request.Touches config pair (.deal deal))
    (h : share config.calendar deal now stored pair.resolution = .ok part) :
    PairStep config pair now (.deal deal) stored part.1.events (some part.1.candle) := by
  have same : (⟨deal.market, pair.resolution⟩ : Pair) = pair := by rw [touches.1]
  unfold share at h
  rw [same] at h
  dsimp only at h
  split at h
  · next inside =>
    split at h
    · cases h
    · next folded hf =>
      split at h
      · next unmoved =>
        cases h
        exact .idle touches inside hf unmoved
      · next moved =>
        cases h
        exact .folded touches inside hf moved
  · next outside =>
    cases h
    exact .skipped touches (by simpa using outside)

theorem addDeal_pairStep {config : StoreConfig} {deal : Deal} {table : Table}
    {change : Change DealOutcome} (nodup : config.resolutions.Nodup) (tidy : table.Tidy)
    (h : addDeal config deal now table = .ok change) (pair : Pair) :
    PairStep config pair now (.deal deal) (table.get? pair) (Event.toldOf pair change.events)
      (change.table.get? pair) := by
  unfold addDeal at h
  split at h
  · cases h
  · next parts hp =>
    cases h
    obtain ⟨keys, each⟩ := shares_eq_ok hp
    have own : ∀ part ∈ parts, ∀ e ∈ part.2.1.events, e.candle.pair = part.1 := by
      intro part hm
      obtain ⟨market, hs⟩ := each part hm
      have events := (share_pair (fun c hc => (tidy.pair_of_get? hc).trans (by rw [← market])) hs).2
      rwa [← market] at events
    have distinct : (parts.map Prod.fst).Nodup := keys ▸ nodup_pairs nodup deal.market
    by_cases touches : Request.Touches config pair (.deal deal)
    · have mem : pair ∈ parts.map Prod.fst := by
        rw [keys]
        exact List.mem_map.mpr ⟨pair.resolution, touches.2, by rw [touches.1]⟩
      obtain ⟨part, hm, rfl⟩ := List.mem_map.mp mem
      have stored : (table.insertAll (parts.map fun p => (p.1, p.2.1.candle))).get? part.1 =
          some part.2.1.candle := by
        refine Table.get?_insertAll_of_mem table ?_ (List.mem_map.mpr ⟨part, hm, rfl⟩)
        rwa [List.map_map]
      dsimp only
      rw [stored, toldOf_flatMap_of_mem own distinct hm]
      exact pairStep_of_share touches (each part hm).2
    · -- a part of this pair would be of the deal's market, in a resolution that is kept
      have ne : ∀ part ∈ parts, part.1 ≠ pair := by
        rintro part hm rfl
        have kept : part.1 ∈ config.resolutions.map (Pair.mk deal.market) :=
          keys ▸ List.mem_map_of_mem hm
        obtain ⟨r, hr, same⟩ := List.mem_map.mp kept
        exact touches (by rw [← same]; exact ⟨rfl, hr⟩)
      have unstored : (table.insertAll (parts.map fun p => (p.1, p.2.1.candle))).get? pair =
          table.get? pair := by
        refine Table.get?_insertAll_of_not_mem table fun e he => ?_
        obtain ⟨part, hm, rfl⟩ := List.mem_map.mp he
        exact ne part hm
      dsimp only
      rw [unstored, toldOf_flatMap_of_ne own ne]
      exact .aside touches

theorem addDeal_tidy {config : StoreConfig} {deal : Deal} {table : Table}
    {change : Change DealOutcome} (tidy : table.Tidy)
    (h : addDeal config deal now table = .ok change) : change.table.Tidy := by
  unfold addDeal at h
  split at h
  · cases h
  · next parts hp =>
    cases h
    refine tidy.insertAll fun e he => ?_
    obtain ⟨part, hm, rfl⟩ := List.mem_map.mp he
    obtain ⟨market, hs⟩ := (shares_eq_ok hp).2 part hm
    have candle := (share_pair (fun c hc => (tidy.pair_of_get? hc).trans (by rw [← market])) hs).1
    rwa [← market] at candle

-- ---------------------------------------------------------------------------
-- Refreshes and seeds
-- ---------------------------------------------------------------------------

theorem live_some (calendar : Calendar) (pair : Pair) (c : Candle) (now : Instant) :
    (live calendar pair (some c) now).candle = refreshed calendar now c ∧
      (live calendar pair (some c) now).events = refreshEvents calendar now c := by
  by_cases h : c.hasEnded now
  · simp [live, refreshed, refreshEvents, h]
  · simp [live, refreshed, refreshEvents, h]

theorem refreshed_pair (calendar : Calendar) (now : Instant) (c : Candle) :
    (refreshed calendar now c).pair = c.pair := by
  unfold refreshed
  split <;> rfl

theorem refreshEvents_pair {table : Table} {entry : Pair × Candle} (tidy : table.Tidy)
    (mem : entry ∈ table.entries) (calendar : Calendar) (now : Instant) :
    ∀ e ∈ refreshEvents calendar now entry.2, e.candle.pair = entry.1 := by
  have keyed : ∀ c, some entry.2 = some c → c.pair = entry.1 :=
    fun c hc => Option.some.inj hc ▸ tidy.keyed entry mem
  rw [← (live_some calendar entry.1 entry.2 now).2]
  exact live_events_pair calendar now keyed

theorem refresh_pairStep {config : StoreConfig} {table : Table} (tidy : table.Tidy)
    (now : Instant) (pair : Pair) :
    PairStep config pair now .refresh (table.get? pair)
      (Event.toldOf pair (refresh config now table).events)
      ((refresh config now table).table.get? pair) := by
  have own : ∀ entry ∈ table.entries,
      ∀ e ∈ refreshEvents config.calendar now entry.2, e.candle.pair = entry.1 :=
    fun _ mem => refreshEvents_pair tidy mem config.calendar now
  rw [refresh_get?]
  cases found : table.get? pair with
  | none =>
    have silent := toldOf_flatMap_of_ne own (Table.ne_of_get?_eq_none found)
    simp only [refresh]
    rw [silent]
    exact .untracked
  | some c =>
    have told := toldOf_flatMap_of_mem (a := (pair, c)) own tidy.nodup (Table.mem_of_get? found)
    have step : PairStep config pair now .refresh (some c) _ _ := .refreshed
    rw [(live_some config.calendar pair c now).1, (live_some config.calendar pair c now).2] at step
    simp only [refresh]
    rw [told]
    exact step

theorem seedCandle_pair (calendar : Calendar) (now : Instant) {given : Option Candle}
    (given_pair : ∀ c, given = some c → c.pair = pair)
    (own : ∀ c, stored = some c → c.pair = pair) :
    (seedCandle calendar pair given stored now).pair = pair := by
  unfold seedCandle
  split
  · exact given_pair _ rfl
  · exact (flatAfter_pair _ calendar _).trans (own _ rfl)
  · rfl

theorem pair_of_checkSeed {given : Option Candle} (h : checkSeed pair given = .ok ()) :
    ∀ c, given = some c → c.pair = pair := by
  rintro c rfl
  unfold checkSeed at h
  dsimp only at h
  split at h
  · cases h
  · next same => exact Decidable.not_not.mp same

theorem seed_tidy {config : StoreConfig} {given : Option Candle} {table : Table}
    (tidy : table.Tidy) (checked : checkSeed pair given = .ok ()) :
    (seed config pair given now table).table.Tidy := by
  have own := seedCandle_pair config.calendar now
    (pair_of_checkSeed checked) fun c hc => tidy.pair_of_get? (t := table) hc
  unfold seed
  dsimp only
  split
  · split
    · exact tidy
    · split <;> exact tidy.insert own
  · exact tidy.insert own

theorem seed_pairStep {config : StoreConfig} {given : Option Candle} {table : Table}
    {seeded : Pair} (tidy : table.Tidy) (checked : checkSeed seeded given = .ok ())
    (now : Instant) (pair : Pair) :
    PairStep config pair now (.seed seeded given) (table.get? pair)
      (Event.toldOf pair (seed config seeded given now table).events)
      ((seed config seeded given now table).table.get? pair) := by
  have own := seedCandle_pair config.calendar now
    (pair_of_checkSeed checked) fun c hc => tidy.pair_of_get? (t := table) hc
  by_cases same : seeded = pair
  · subst same
    unfold seed
    dsimp only
    cases found : table.get? seeded with
    | none =>
      rw [found] at own
      dsimp only
      rw [Table.get?_insert_self, toldOf_of_own (by simpa [Event.candle] using own)]
      exact .seeded
    | some c =>
      rw [found] at own
      dsimp only
      split
      · next unmoved =>
        rw [found]
        exact .kept unmoved
      · next moved =>
        have step : PairStep config seeded now (.seed seeded given) (some c) _ _ :=
          .replaced moved
        split
        · next sameTime =>
          rw [if_pos sameTime] at step
          rw [Table.get?_insert_self, toldOf_of_own (by simpa [Event.candle] using own)]
          exact step
        · next otherTime =>
          rw [if_neg otherTime] at step
          rw [Table.get?_insert_self, toldOf_of_own (by simpa [Event.candle] using own)]
          exact step
  · have untold : Event.toldOf pair (seed config seeded given now table).events = [] := by
      have silent : ∀ e ∈ (seed config seeded given now table).events, e.candle.pair ≠ pair := by
        intro e he
        unfold seed at he
        dsimp only at he
        repeat' split at he
        all_goals
          simp only [List.not_mem_nil, List.mem_singleton] at he
          try (subst he; simpa [Event.candle, own] using same)
      exact List.filter_eq_nil_iff.mpr fun e he => by simpa using silent e he
    have unstored : (seed config seeded given now table).table.get? pair = table.get? pair := by
      unfold seed
      dsimp only
      repeat' split
      all_goals first | rfl | exact Table.get?_insert_of_ne _ _ same
    rw [untold, unstored]
    exact .aside same

end Store

-- ---------------------------------------------------------------------------
-- All requests
-- ---------------------------------------------------------------------------

namespace DatedRequest

variable {config : StoreConfig} {table : Table} {d : DatedRequest}

theorem serve_tidy (tidy : table.Tidy) : (d.serve config table).table.Tidy := by
  obtain ⟨now, request⟩ := d
  unfold serve
  split
  · exact tidy
  · next checked =>
    cases request with
    | deal deal =>
      simp only [Request.plan]
      cases ha : Store.addDeal config deal now table with
      | error e => exact tidy
      | ok change => exact Store.addDeal_tidy tidy ha
    | seed pair given => exact Store.seed_tidy tidy checked
    | refresh => exact tidy.mapCandles (Store.refreshed_pair config.calendar now)
    | look pair | pairs => exact tidy

theorem serve_pairStep {reply : Reply} (nodup : config.resolutions.Nodup) (tidy : table.Tidy)
    (h : (d.serve config table).reply = .ok reply) (pair : Pair) :
    Store.PairStep config pair d.now d.request (table.get? pair)
      (Event.toldOf pair (d.serve config table).events)
      ((d.serve config table).table.get? pair) := by
  obtain ⟨now, request⟩ := d
  unfold serve at h ⊢
  split at h
  · cases h
  · next checked =>
    dsimp only at checked ⊢
    cases request with
    | deal deal =>
      simp only [Request.plan] at h ⊢
      cases ha : Store.addDeal config deal now table with
      | error e =>
        rw [ha] at h
        cases h
      | ok change => exact Store.addDeal_pairStep nodup tidy ha pair
    | seed seeded given => exact Store.seed_pairStep tidy checked now pair
    | refresh => exact Store.refresh_pairStep tidy now pair
    | look other | pairs => exact .aside id

end DatedRequest

theorem Table.Tidy.after {t : Table} (tidy : t.Tidy) (config : StoreConfig)
    (requests : List DatedRequest) : (t.after config requests).Tidy := by
  induction requests generalizing t with
  | nil => exact tidy
  | cons d rest ih => exact ih (DatedRequest.serve_tidy tidy)

theorem Table.tidy_afterCalls (config : StoreConfig) (calls : List DatedCall) :
    (Table.afterCalls config {} calls).Tidy := by
  rw [Table.afterCalls_eq]
  exact Table.tidy_empty.after config _

end Candlestick
