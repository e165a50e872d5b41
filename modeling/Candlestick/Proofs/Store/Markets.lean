import Candlestick.Proofs.Store.Replay

/-!
# Markets apart

Looked at through one market, a request about another market does nothing
(`DatedRequest.serve_elsewhere`), and any other request does what it would do in a store
that holds this market alone (`DatedRequest.serve_only`).
-/

namespace Candlestick

/-- The market that a request is about, `none` where it is about all of them. -/
def Request.market? : Request → Option Market
  | .deal d => some d.market
  | .seed pair _ => some pair.market
  | .look pair => some pair.market
  | .refresh => none
  | .pairs => none

def Request.Concerns (m : Market) (r : Request) : Prop := ∀ n ∈ r.market?, n = m

instance (m : Market) (r : Request) : Decidable (r.Concerns m) :=
  inferInstanceAs (Decidable (∀ n ∈ r.market?, n = m))

def Event.ofMarket (m : Market) (events : List Event) : List Event :=
  events.filter fun e => e.candle.market = m

def Table.only (t : Table) (m : Market) : Table := ⟨t.entries.filter fun e => e.1.market = m⟩

/-- The replies to those of some requests that are about one market alone. -/
def Table.repliesOf (config : StoreConfig) (t : Table) (m : Market)
    (requests : List DatedRequest) : List (Except StoreError Reply) :=
  ((requests.zip (t.serveAll config requests)).filter
    fun x => x.1.request.market? = some m).map fun x => x.2.reply

-- ---------------------------------------------------------------------------
-- Tables through one market
-- ---------------------------------------------------------------------------

namespace Table

variable {t : Table} {m : Market} {pair : Pair} {c : Candle}

theorem get?_only (t : Table) (m : Market) (pair : Pair) :
    (t.only m).get? pair = if pair.market = m then t.get? pair else none := by
  obtain ⟨entries⟩ := t
  simp only [only, get?]
  induction entries with
  | nil => simp [findIn?]
  | cons entry rest ih =>
    by_cases own : entry.1.market = m <;> by_cases same : entry.1 = pair <;>
      simp_all [findIn?]

theorem get?_only_of_eq (t : Table) (own : pair.market = m) :
    (t.only m).get? pair = t.get? pair := by
  rw [get?_only, if_pos own]

theorem Tidy.only (tidy : t.Tidy) (m : Market) : (t.only m).Tidy :=
  ⟨tidy.ordered.filter _, fun e he => tidy.keyed e (List.mem_filter.mp he).1⟩

theorem only_insert (tidy : t.Tidy) (own : c.pair = pair) (m : Market) :
    (t.insert pair c).only m =
      if pair.market = m then (t.only m).insert pair c else t.only m := by
  have inserted := (tidy.insert own).only m
  split
  · next here =>
    refine inserted.ext ((tidy.only m).insert own) fun other => ?_
    simp only [get?_only, get?_insert]
    by_cases same : pair = other
    · simp [same, ← here]
    · simp [same]
  · next elsewhere =>
    refine inserted.ext (tidy.only m) fun other => ?_
    simp only [get?_only, get?_insert]
    by_cases same : pair = other
    · simp [← same, elsewhere]
    · simp [same]

theorem only_insertAll {n : Market} {candles : List (Pair × Candle)} (tidy : t.Tidy)
    (own : ∀ e ∈ candles, e.2.pair = e.1) (about : ∀ e ∈ candles, e.1.market = n) (m : Market) :
    (t.insertAll candles).only m = if n = m then (t.only m).insertAll candles else t.only m := by
  induction candles generalizing t with
  | nil => simp [insertAll]
  | cons e rest ih =>
    have head := only_insert tidy (own e (List.mem_cons_self ..)) m
    rw [about e (List.mem_cons_self ..)] at head
    have tail := ih (tidy.insert (own e (List.mem_cons_self ..)))
      (fun e he => own e (List.mem_cons_of_mem _ he))
      (fun e he => about e (List.mem_cons_of_mem _ he))
    refine tail.trans ?_
    rw [head]
    split <;> rfl

theorem only_mapCandles (t : Table) (f : Candle → Candle) (m : Market) :
    (t.mapCandles f).only m = (t.only m).mapCandles f := by
  simp [only, mapCandles, List.filter_map, Function.comp_def]

end Table

-- ---------------------------------------------------------------------------
-- Events through one market
-- ---------------------------------------------------------------------------

section
variable {m n : Market} {events : List Event}

theorem Event.ofMarket_append (m : Market) (first second : List Event) :
    ofMarket m (first ++ second) = ofMarket m first ++ ofMarket m second :=
  List.filter_append ..

theorem Event.ofMarket_of_own (own : ∀ e ∈ events, e.candle.market = n) (m : Market) :
    ofMarket m events = if n = m then events else [] := by
  split
  · next same =>
    exact List.filter_eq_self.mpr fun e he => by simpa [same] using own e he
  · next other =>
    refine List.filter_eq_nil_iff.mpr fun e he same => other ?_
    exact (own e he).symm.trans (by simpa using same)

end

-- ---------------------------------------------------------------------------
-- Requests about one market
-- ---------------------------------------------------------------------------

/-- What a request stores and tells, all of one market, with every candle under its own
pair. -/
structure Local (n : Market) (candles : List (Pair × Candle)) (events : List Event) : Prop where
  keyed : ∀ e ∈ candles, e.2.pair = e.1
  stored : ∀ e ∈ candles, e.1.market = n
  told : ∀ e ∈ events, e.candle.market = n

section
variable {config : StoreConfig} {t : Table} {m n : Market} {pair : Pair} {now : Instant}
  {d : DatedRequest}

theorem local_nil (n : Market) : Local n [] [] := ⟨by simp, by simp, by simp⟩

theorem local_singleton {c : Candle} {event : Event} (own : c.pair = pair)
    (candle : event.candle = c) : Local pair.market [(pair, c)] [event] := by
  have market : c.market = pair.market := congrArg Pair.market own
  exact ⟨by simpa using own, by simp, by simpa [candle] using market⟩

namespace Store

theorem shares_congr {deal : Deal} {u : Table}
    (same : ∀ r, u.get? ⟨deal.market, r⟩ = t.get? ⟨deal.market, r⟩) (calendar : Calendar)
    (now : Instant) (resolutions : List Resolution) :
    shares calendar deal now u resolutions = shares calendar deal now t resolutions := by
  induction resolutions with
  | nil => rfl
  | cons r rest ih => rw [shares, shares, same r, ih]

theorem addDeal_local (tidy : t.Tidy) (config : StoreConfig) (deal : Deal) (now : Instant) :
    (∃ cause, ∀ u : Table, (∀ r, u.get? ⟨deal.market, r⟩ = t.get? ⟨deal.market, r⟩) →
      addDeal config deal now u = .error cause) ∨
    ∃ candles events rollovers result, Local deal.market candles events ∧
      ∀ u : Table, (∀ r, u.get? ⟨deal.market, r⟩ = t.get? ⟨deal.market, r⟩) →
        addDeal config deal now u = .ok ⟨u.insertAll candles, events, rollovers, result⟩ := by
  cases shared : shares config.calendar deal now t config.resolutions with
  | error cause =>
    refine .inl ⟨cause, fun u same => ?_⟩
    simp only [addDeal, shares_congr same, shared]
  | ok parts =>
    obtain ⟨-, each⟩ := shares_eq_ok shared
    have drafted : ∀ part ∈ parts, part.2.1.candle.pair = part.1 ∧
        ∀ e ∈ part.2.1.events, e.candle.pair = part.1 := by
      intro part mem
      obtain ⟨market, drawn⟩ := each part mem
      have pairs := share_pair (fun c hc => (tidy.pair_of_get? hc).trans (by rw [← market])) drawn
      rwa [← market] at pairs
    refine .inr ⟨parts.map fun part => (part.1, part.2.1.candle),
      parts.flatMap fun part => part.2.1.events, (parts.filter fun part => part.2.1.rolled).length,
      ⟨(parts.filter fun part => part.2.2).length, (parts.filter fun part => !part.2.2).length⟩,
      ⟨fun e he => ?_, fun e he => ?_, fun e he => ?_⟩, fun u same => ?_⟩
    · obtain ⟨part, mem, rfl⟩ := List.mem_map.mp he
      exact (drafted part mem).1
    · obtain ⟨part, mem, rfl⟩ := List.mem_map.mp he
      exact (each part mem).1
    · obtain ⟨part, mem, he⟩ := List.mem_flatMap.mp he
      exact (congrArg Pair.market ((drafted part mem).2 e he)).trans (each part mem).1
    · simp only [addDeal, shares_congr same, shared]

theorem seed_local {given : Option Candle} (tidy : t.Tidy) (config : StoreConfig) (now : Instant)
    (checked : checkSeed pair given = .ok ()) :
    ∃ candles events result, Local pair.market candles events ∧
      ∀ u : Table, u.get? pair = t.get? pair →
        seed config pair given now u = ⟨u.insertAll candles, events, 0, result⟩ := by
  have own := seedCandle_pair config.calendar now
    (pair_of_checkSeed checked) fun c hc => tidy.pair_of_get? (t := t) hc
  generalize drawn : seedCandle config.calendar pair given (t.get? pair) now = candle at own
  cases found : t.get? pair with
  | none =>
    rw [found] at drawn
    refine ⟨[(pair, candle)], [.opened candle], true, local_singleton own rfl, fun u same => ?_⟩
    simp only [seed, same, drawn]
    rfl
  | some c =>
    rw [found] at drawn
    by_cases unmoved : c.SameValue candle
    · refine ⟨[], [], false, local_nil _, fun u same => ?_⟩
      simp only [seed, same, drawn, if_pos unmoved]
      rfl
    · by_cases sameTime : c.openTime = candle.openTime
      · refine ⟨[(pair, candle)], [.updated candle], true, local_singleton own rfl,
          fun u same => ?_⟩
        simp only [seed, same, drawn, if_neg unmoved, if_pos sameTime]
        rfl
      · refine ⟨[(pair, candle)], [.opened candle], true, local_singleton own rfl,
          fun u same => ?_⟩
        simp only [seed, same, drawn, if_neg unmoved, if_neg sameTime]
        rfl

/-- A refresh treats every candle for itself. -/
theorem refresh_only (tidy : t.Tidy) (config : StoreConfig) (now : Instant) (m : Market) :
    Event.ofMarket m (refresh config now t).events = (refresh config now (t.only m)).events := by
  have own : ∀ entry ∈ t.entries, ∀ e ∈ refreshEvents config.calendar now entry.2,
      e.candle.pair = entry.1 :=
    fun _ mem => refreshEvents_pair tidy mem config.calendar now
  simp only [refresh, Table.only]
  generalize t.entries = entries at own
  induction entries with
  | nil => rfl
  | cons entry rest ih =>
    have tail := ih fun other mem => own other (List.mem_cons_of_mem _ mem)
    have head := Event.ofMarket_of_own (n := entry.1.market)
      (fun e he => congrArg Pair.market (own entry (List.mem_cons_self ..) e he)) m
    rw [List.flatMap_cons, Event.ofMarket_append, head, tail]
    by_cases here : entry.1.market = m
    · rw [if_pos here, List.filter_cons_of_pos (by simpa using here), List.flatMap_cons]
    · rw [if_neg here, List.filter_cons_of_neg (by simpa using here), List.nil_append]

end Store

namespace DatedRequest

/-- A request about one market depends on the candles of this market, changes no others
and tells of no others. -/
theorem serve_local (tidy : t.Tidy) (config : StoreConfig) (about : d.request.market? = some n) :
    ∃ candles events reply, Local n candles events ∧
      ∀ u : Table, (∀ r, u.get? ⟨n, r⟩ = t.get? ⟨n, r⟩) →
        d.serve config u = ⟨u.insertAll candles, events, reply⟩ := by
  obtain ⟨now, request⟩ := d
  cases request with
  | deal deal =>
    obtain rfl := Option.some.inj about
    obtain ⟨cause, fails⟩ | ⟨candles, events, rollovers, result, own, folds⟩ :=
      Store.addDeal_local tidy config deal now
    · refine ⟨[], [], .error (.decimal cause), local_nil _, fun u same => ?_⟩
      simp only [serve, Request.check, Request.plan, fails u same]
      rfl
    · refine ⟨candles, events, .ok (.outcome result), own, fun u same => ?_⟩
      simp only [serve, Request.check, Request.plan, folds u same]
      rfl
  | seed pair given =>
    obtain rfl := Option.some.inj about
    cases checked : Store.checkSeed pair given with
    | error e =>
      refine ⟨[], [], .error e, local_nil _, fun u same => ?_⟩
      simp only [serve, Request.check, checked]
      rfl
    | ok _ =>
      obtain ⟨candles, events, result, own, seeds⟩ := Store.seed_local tidy config now checked
      refine ⟨candles, events, .ok (.changed result), own, fun u same => ?_⟩
      simp only [serve, Request.check, checked, Request.plan, seeds u (same pair.resolution)]
      rfl
  | look pair =>
    obtain rfl := Option.some.inj about
    refine ⟨[], [], .ok (.candle (t.get? pair)), local_nil _, fun u same => ?_⟩
    simp only [serve, Request.check, Request.plan, same pair.resolution]
    rfl
  | refresh | pairs => cases about

-- ---------------------------------------------------------------------------
-- Requests through one market
-- ---------------------------------------------------------------------------

theorem serve_elsewhere (tidy : t.Tidy) (config : StoreConfig)
    (elsewhere : ¬ d.request.Concerns m) :
    (d.serve config t).table.only m = t.only m ∧
      Event.ofMarket m (d.serve config t).events = [] := by
  obtain ⟨n, about, other⟩ : ∃ n, d.request.market? = some n ∧ n ≠ m := by
    simpa [Request.Concerns] using elsewhere
  obtain ⟨candles, events, reply, own, serves⟩ := serve_local tidy config about
  rw [serves t fun _ => rfl]
  exact ⟨(Table.only_insertAll tidy own.keyed own.stored m).trans (if_neg other),
    (Event.ofMarket_of_own own.told m).trans (if_neg other)⟩

/-- Any other request does to a market what it would do in a store that holds this market
alone. -/
theorem serve_only (tidy : t.Tidy) (config : StoreConfig) (concerns : d.request.Concerns m) :
    (d.serve config t).table.only m = (d.serve config (t.only m)).table ∧
      Event.ofMarket m (d.serve config t).events = (d.serve config (t.only m)).events ∧
      (d.request.market? = some m →
        (d.serve config t).reply = (d.serve config (t.only m)).reply) := by
  cases about : d.request.market? with
  | some n =>
    obtain rfl : n = m := concerns n about
    obtain ⟨candles, events, reply, own, serves⟩ := serve_local tidy config about
    rw [serves t fun _ => rfl, serves (t.only n) fun r => t.get?_only_of_eq rfl]
    exact ⟨(Table.only_insertAll tidy own.keyed own.stored n).trans (if_pos rfl),
      (Event.ofMarket_of_own own.told n).trans (if_pos rfl), fun _ => rfl⟩
  | none =>
    obtain ⟨now, request⟩ := d
    cases request with
    | refresh =>
      exact ⟨Table.only_mapCandles .., Store.refresh_only tidy config now m,
        fun same => nomatch same⟩
    | pairs => exact ⟨rfl, rfl, fun same => nomatch same⟩
    | _ => cases about

end DatedRequest

-- ---------------------------------------------------------------------------
-- Runs through one market
-- ---------------------------------------------------------------------------

namespace Table

theorem repliesOf_cons (config : StoreConfig) (t : Table) (m : Market) (d : DatedRequest)
    (rest : List DatedRequest) :
    t.repliesOf config m (d :: rest) =
      (if d.request.market? = some m then [(d.serve config t).reply] else []) ++
        (d.serve config t).table.repliesOf config m rest := by
  by_cases about : d.request.market? = some m
  · simp [repliesOf, serveAll, about]
  · simp [repliesOf, serveAll, about]

theorem run_only (tidy : t.Tidy) (config : StoreConfig) (m : Market)
    (requests : List DatedRequest) :
    (t.after config requests).only m =
        (t.only m).after config (requests.filter (·.request.Concerns m)) ∧
      Event.ofMarket m (t.eventsOf config requests) =
        (t.only m).eventsOf config (requests.filter (·.request.Concerns m)) ∧
      t.repliesOf config m requests =
        (t.only m).repliesOf config m (requests.filter (·.request.Concerns m)) := by
  induction requests generalizing t with
  | nil => exact ⟨rfl, rfl, rfl⟩
  | cons d rest ih =>
    obtain ⟨candles, events, replies⟩ := ih (t := (d.serve config t).table) (d.serve_tidy tidy)
    have told : t.eventsOf config (d :: rest) =
        (d.serve config t).events ++ (d.serve config t).table.eventsOf config rest := rfl
    rw [told, Event.ofMarket_append, events, repliesOf_cons, replies]
    by_cases concerns : d.request.Concerns m
    · obtain ⟨table, seen, reply⟩ := DatedRequest.serve_only tidy config concerns
      rw [List.filter_cons_of_pos (by simpa using concerns), repliesOf_cons]
      refine ⟨?_, ?_, ?_⟩
      · exact candles.trans (by rw [table]; rfl)
      · rw [seen, table]
        rfl
      · rw [table]
        by_cases about : d.request.market? = some m
        · rw [if_pos about, if_pos about, reply about]
        · rw [if_neg about, if_neg about]
    · obtain ⟨table, unseen⟩ := DatedRequest.serve_elsewhere tidy config concerns
      have about : d.request.market? ≠ some m := fun same =>
        concerns fun n mem => Option.some.inj (mem.symm.trans same)
      rw [List.filter_cons_of_neg (by simpa using concerns), unseen, table, if_neg about]
      exact ⟨candles.trans (by rw [table]), rfl, rfl⟩

end Table

/-- Requests about other markets can be left out: the candles of a market, its events and
the replies to the requests about it stay what they are. -/
theorem markets_apart (tidy : t.Tidy) (config : StoreConfig) (m : Market)
    (requests : List DatedRequest) :
    (∀ r, (t.after config requests).get? ⟨m, r⟩ =
        (t.after config (requests.filter (·.request.Concerns m))).get? ⟨m, r⟩) ∧
      Event.ofMarket m (t.eventsOf config requests) =
        Event.ofMarket m (t.eventsOf config (requests.filter (·.request.Concerns m))) ∧
      t.repliesOf config m requests =
        t.repliesOf config m (requests.filter (·.request.Concerns m)) := by
  obtain ⟨candles, events, replies⟩ := Table.run_only tidy config m requests
  obtain ⟨candles', events', replies'⟩ :=
    Table.run_only tidy config m (requests.filter (·.request.Concerns m))
  rw [List.filter_filter] at candles' events' replies'
  simp only [Bool.and_self] at candles' events' replies'
  refine ⟨fun r => ?_, events.trans events'.symm, replies.trans replies'.symm⟩
  rw [← Table.get?_only_of_eq _ rfl, ← Table.get?_only_of_eq (t.after _ _) rfl,
    candles.trans candles'.symm]

end

theorem pred_lt_coefficientLimit : coefficientLimit - 1 < coefficientLimit :=
  Nat.sub_one_lt_of_lt one_lt_coefficientLimit

def fullMinute : Candle :=
  { Candle.fresh ⟨"ETH/USDT"⟩ .minute1 twoResolutions.calendar (.clamp 0) with
    volume := ⟨⟨false, coefficientLimit - 1, 0, pred_lt_coefficientLimit, Nat.zero_le maxScale⟩⟩ }

/-- Two minutes of one market, and another market that cannot take its deal. -/
def twoMarkets : List DatedRequest :=
  ⟨.clamp 0, .seed fullMinute.pair (some fullMinute)⟩ ::
    ⟨.clamp (5 * nanosPerSecond), .deal { earlyDeal with market := ⟨"ETH/USDT"⟩ }⟩ :: twoMinutes ++
    [⟨.clamp (72 * nanosPerSecond), .seed fullMinute.pair none⟩]

theorem twoMarkets_apart :
    Table.Tidy {} ∧
    twoMarkets.filter (·.request.Concerns ⟨"BTC/USDT"⟩) = twoMinutes ∧
    (Table.repliesOf twoResolutions {} ⟨"ETH/USDT"⟩ twoMarkets).map Except.isOk =
      [true, false, true] ∧
    (Event.ofMarket ⟨"BTC/USDT"⟩ (Table.eventsOf twoResolutions {} twoMarkets)).length = 13 ∧
    Event.ofMarket ⟨"BTC/USDT"⟩ (Table.eventsOf twoResolutions {} twoMarkets) =
      Event.ofMarket ⟨"BTC/USDT"⟩ (Table.eventsOf twoResolutions {} twoMinutes) := by
  have kept : twoMarkets.filter (·.request.Concerns ⟨"BTC/USDT"⟩) = twoMinutes := by decide
  obtain ⟨-, events, -⟩ := markets_apart Table.tidy_empty twoResolutions ⟨"BTC/USDT"⟩ twoMarkets
  rw [kept] at events
  exact ⟨Table.tidy_empty, kept, by decide, by decide, events⟩

end Candlestick
