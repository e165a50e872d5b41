import Candlestick.Store.Request

/-!
# Histories of a store

What requests do when they are carried out one after the other, each at its own clock
reading, with room for every event; and what the events alone tell a reader who keeps a
table of their own. Locks, channels and counters are left out: `SharedStore` adds them.
-/

namespace Candlestick

structure DatedRequest where
  now : Instant
  request : Request
  deriving DecidableEq

structure Served where
  table : Table
  events : List Event
  reply : Except StoreError Reply

namespace DatedRequest

/-- Carries a request out. One that fails leaves the table as it was and
publishes nothing. -/
def serve (config : StoreConfig) (table : Table) (d : DatedRequest) : Served :=
  match d.request.check with
  | .error e => ⟨table, [], .error e⟩
  | .ok () =>
    match d.request.plan config d.now table with
    | .ok change => ⟨change.table, change.events, .ok change.result⟩
    | .error e => ⟨table, [], .error e⟩

theorem serve_of_error {config : StoreConfig} {table : Table} {d : DatedRequest} {e : StoreError}
    (h : (d.serve config table).reply = .error e) :
    (d.serve config table).table = table ∧ (d.serve config table).events = [] := by
  unfold serve at h ⊢
  split
  · exact ⟨rfl, rfl⟩
  · next hc =>
    split
    · next change hp =>
      rw [hc] at h
      simp only [hp] at h
      cases h
    · exact ⟨rfl, rfl⟩

end DatedRequest

namespace Table

def serveAll (config : StoreConfig) : Table → List DatedRequest → List Served
  | _, [] => []
  | t, d :: rest => d.serve config t :: serveAll config (d.serve config t).table rest

def after (config : StoreConfig) (t : Table) (requests : List DatedRequest) : Table :=
  requests.foldl (fun t d => (d.serve config t).table) t

def eventsOf (config : StoreConfig) (t : Table) (requests : List DatedRequest) : List Event :=
  (t.serveAll config requests).flatMap Served.events

theorem after_append (config : StoreConfig) (t : Table) (first second : List DatedRequest) :
    t.after config (first ++ second) = (t.after config first).after config second :=
  List.foldl_append

theorem serveAll_append (config : StoreConfig) (t : Table) (first second : List DatedRequest) :
    t.serveAll config (first ++ second) =
      t.serveAll config first ++ (t.after config first).serveAll config second := by
  induction first generalizing t with
  | nil => rfl
  | cons d rest ih => exact congrArg (d.serve config t :: ·) (ih _)

theorem eventsOf_append (config : StoreConfig) (t : Table) (first second : List DatedRequest) :
    t.eventsOf config (first ++ second) =
      t.eventsOf config first ++ (t.after config first).eventsOf config second := by
  rw [eventsOf, serveAll_append, List.flatMap_append]
  rfl

/-- A reader's table after an event. The last state of a bucket that is over
was told before. -/
def tell (t : Table) : Event → Table
  | .opened c => t.insert c.pair c
  | .updated c => t.insert c.pair c
  | .closed _ => t

def tellAll (t : Table) (events : List Event) : Table := events.foldl tell t

theorem tellAll_append (t : Table) (first second : List Event) :
    t.tellAll (first ++ second) = (t.tellAll first).tellAll second :=
  List.foldl_append

theorem get?_tell_of_ne (t : Table) {e : Event} {pair : Pair} (h : e.candle.pair ≠ pair) :
    (t.tell e).get? pair = t.get? pair := by
  cases e with
  | opened c => exact get?_insert_of_ne t c h
  | updated c => exact get?_insert_of_ne t c h
  | closed _ => rfl

end Table

end Candlestick
