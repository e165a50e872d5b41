import Candlestick.Proofs.Store.Transition

/-!
# What holds of every candle

A property of candles that the calendar's own candles have and that folds keep
(`KeptByStore`) holds of all that a store ever keeps or publishes, as long as it holds of
what users put there (`KeptByStore.after`). Nothing else is asked: not that resolutions are
kept once, not that candles stand under their own pairs.
-/

namespace Candlestick

/-- A property of candles that folds of some deals keep, and that candles without
trades have from the start or from the candle before them. -/
structure KeptByStore (calendar : Calendar) (deals : Deal → Prop) (P : Candle → Prop) :
    Prop where
  fresh : ∀ market resolution now, P (.fresh market resolution calendar now)
  flat : ∀ c now, P c → P (c.flatAfter calendar now)
  fold : ∀ c (d : Deal) folded, P c → deals d → c.fold d.price d.amount = .ok folded → P folded

def Request.Brings (deals : Deal → Prop) (P : Candle → Prop) : Request → Prop
  | .deal d => deals d
  | .seed pair (some c) => Store.checkSeed pair (some c) = .ok () → P c
  | _ => True

def Table.All (P : Candle → Prop) (t : Table) : Prop := ∀ e ∈ t.entries, P e.2

def Event.All (P : Candle → Prop) (events : List Event) : Prop := ∀ e ∈ events, P e.candle

section
variable {P : Candle → Prop} {deals : Deal → Prop}

namespace Table

variable {t : Table} {pair : Pair} {c : Candle}

theorem all_empty (P : Candle → Prop) : Table.All P {} := fun _ he => nomatch he

theorem All.of_get? (all : t.All P) (found : t.get? pair = some c) : P c :=
  all _ (mem_of_get? found)

theorem All.insert (all : t.All P) (new : P c) : (t.insert pair c).All P := by
  intro e he
  rcases mem_insertIn he with rfl | he
  · exact new
  · exact all e he

theorem All.insertAll {candles : List (Pair × Candle)} (all : t.All P)
    (new : ∀ e ∈ candles, P e.2) : (t.insertAll candles).All P := by
  induction candles generalizing t with
  | nil => exact all
  | cons e rest ih =>
    exact ih (all.insert (new e (List.mem_cons_self ..))) fun e he =>
      new e (List.mem_cons_of_mem _ he)

theorem All.mapCandles {f : Candle → Candle} (all : t.All P) (kept : ∀ c, P c → P (f c)) :
    (t.mapCandles f).All P := by
  intro e he
  obtain ⟨entry, mem, rfl⟩ := List.mem_map.mp he
  exact kept _ (all entry mem)

end Table

namespace Event

theorem All.append {first second : List Event} (h : Event.All P first)
    (h' : Event.All P second) : Event.All P (first ++ second) := by
  intro e he
  rcases List.mem_append.mp he with he | he
  · exact h e he
  · exact h' e he

theorem all_flatMap {α : Type} {l : List α} {events : α → List Event}
    (h : ∀ a ∈ l, Event.All P (events a)) : Event.All P (l.flatMap events) := by
  intro e he
  obtain ⟨a, ha, he⟩ := List.mem_flatMap.mp he
  exact h a ha e he

theorem all_nil (P : Candle → Prop) : Event.All P [] := fun _ he => nomatch he

theorem all_singleton {e : Event} (h : P e.candle) : Event.All P [e] := by
  intro other he
  rw [List.mem_singleton.mp he]
  exact h

end Event

-- ---------------------------------------------------------------------------
-- Requests
-- ---------------------------------------------------------------------------

namespace KeptByStore

variable {config : StoreConfig} {calendar : Calendar} {t : Table} {pair : Pair} {now : Instant}
  {stored : Option Candle}

theorem live (kept : KeptByStore calendar deals P) (old : ∀ c, stored = some c → P c)
    (pair : Pair) (now : Instant) :
    P (Store.live calendar pair stored now).candle ∧
      Event.All P (Store.live calendar pair stored now).events := by
  cases stored with
  | none => exact ⟨kept.fresh .., Event.all_singleton (kept.fresh ..)⟩
  | some c =>
    have before := old c rfl
    unfold Store.live
    dsimp only
    split
    · have flat := kept.flat c now before
      exact ⟨flat, (Event.all_singleton before).append (Event.all_singleton flat)⟩
    · exact ⟨before, Event.all_nil P⟩

theorem share {deal : Deal} {part : Store.Draft × Bool} {r : Resolution}
    (kept : KeptByStore calendar deals P) (old : ∀ c, stored = some c → P c) (good : deals deal)
    (h : Store.share calendar deal now stored r = .ok part) :
    P part.1.candle ∧ Event.All P part.1.events := by
  obtain ⟨candle, events⟩ := kept.live old ⟨deal.market, r⟩ now
  unfold Store.share at h
  dsimp only at h
  split at h
  · split at h
    · cases h
    · next folded fold =>
      split at h
      · cases h
        exact ⟨candle, events⟩
      · cases h
        have next := kept.fold _ deal folded candle good fold
        exact ⟨next, events.append (Event.all_singleton next)⟩
  · cases h
    exact ⟨candle, events⟩

theorem addDeal {deal : Deal} {change : Change DealOutcome}
    (kept : KeptByStore config.calendar deals P) (all : t.All P) (good : deals deal)
    (h : Store.addDeal config deal now t = .ok change) :
    change.table.All P ∧ Event.All P change.events := by
  unfold Store.addDeal at h
  split at h
  · cases h
  · next parts hp =>
    cases h
    have each : ∀ part ∈ parts, P part.2.1.candle ∧ Event.All P part.2.1.events := by
      intro part hm
      obtain ⟨-, shared⟩ := (Store.shares_eq_ok hp).2 part hm
      exact kept.share (fun c found => all.of_get? found) good shared
    refine ⟨all.insertAll fun e he => ?_, Event.all_flatMap fun part hm => (each part hm).2⟩
    obtain ⟨part, hm, rfl⟩ := List.mem_map.mp he
    exact (each part hm).1

theorem refresh (kept : KeptByStore config.calendar deals P) (all : t.All P) (now : Instant) :
    (Store.refresh config now t).table.All P ∧
      Event.All P (Store.refresh config now t).events := by
  constructor
  · refine all.mapCandles fun c hc => ?_
    unfold Store.refreshed
    split
    · exact kept.flat c now hc
    · exact hc
  · refine Event.all_flatMap fun entry hm => ?_
    have old := all entry hm
    unfold Store.refreshEvents
    split
    · exact (Event.all_singleton old).append (Event.all_singleton (kept.flat _ now old))
    · exact Event.all_nil P

theorem seedCandle {given : Option Candle} (kept : KeptByStore calendar deals P)
    (brought : ∀ c, given = some c → P c) (old : ∀ c, stored = some c → P c) (pair : Pair)
    (now : Instant) : P (Store.seedCandle calendar pair given stored now) := by
  unfold Store.seedCandle
  split
  · exact brought _ rfl
  · exact kept.flat _ _ (old _ rfl)
  · exact kept.fresh ..

theorem seed {given : Option Candle} (kept : KeptByStore config.calendar deals P)
    (all : t.All P) (brought : ∀ c, given = some c → P c) (pair : Pair) (now : Instant) :
    (Store.seed config pair given now t).table.All P ∧
      Event.All P (Store.seed config pair given now t).events := by
  have old : ∀ c, t.get? pair = some c → P c := fun c found => all.of_get? found
  have candle := kept.seedCandle brought old pair now
  unfold Store.seed
  dsimp only
  split
  · split
    · exact ⟨all, Event.all_nil P⟩
    · split
      · exact ⟨all.insert candle, Event.all_singleton candle⟩
      · exact ⟨all.insert candle, Event.all_singleton candle⟩
  · exact ⟨all.insert candle, Event.all_singleton candle⟩

/-- One request keeps the property and publishes no candle without it. -/
theorem serve (kept : KeptByStore config.calendar deals P) (all : t.All P) {d : DatedRequest}
    (brings : d.request.Brings deals P) :
    (d.serve config t).table.All P ∧ Event.All P (d.serve config t).events := by
  obtain ⟨now, request⟩ := d
  unfold DatedRequest.serve
  split
  · exact ⟨all, Event.all_nil P⟩
  · next checked =>
    dsimp only at checked ⊢
    cases request with
    | deal deal =>
      simp only [Request.plan]
      cases added : Store.addDeal config deal now t with
      | error e => exact ⟨all, Event.all_nil P⟩
      | ok change => exact kept.addDeal all brings added
    | seed pair given =>
      refine kept.seed all (fun c same => ?_) pair now
      subst same
      exact brings checked
    | refresh => exact kept.refresh all now
    | look pair | pairs => exact ⟨all, Event.all_nil P⟩

theorem after (kept : KeptByStore config.calendar deals P) {requests : List DatedRequest}
    (all : t.All P) (brings : ∀ d ∈ requests, d.request.Brings deals P) :
    (t.after config requests).All P ∧ Event.All P (t.eventsOf config requests) := by
  induction requests generalizing t with
  | nil => exact ⟨all, Event.all_nil P⟩
  | cons d rest ih =>
    obtain ⟨next, told⟩ := kept.serve all (brings d (List.mem_cons_self ..))
    obtain ⟨last, later⟩ := ih next fun d hd => brings d (List.mem_cons_of_mem _ hd)
    exact ⟨last, told.append later⟩

end KeptByStore

end

end Candlestick
