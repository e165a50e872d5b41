import Candlestick.Proofs.Pipeline.Belt
import Candlestick.Proofs.Pipeline.Serial
import Candlestick.Proofs.Store.PairStep

/-!
# What is counted

The books of a pipeline are the counters that calls raise and the tallies of the ingesters;
the counters of the publisher are left out. `BookStep` lists what a step of a task does to
the books and which event it puts on the channel, and `posted_of_step?` shows the list
complete.
-/

namespace Candlestick

-- ---------------------------------------------------------------------------
-- Results of deliveries
-- ---------------------------------------------------------------------------

def Counter.ofDeliveries : List Counter :=
  [.dealsApplied, .dealsRejected, .dealsDuplicate, .dealsFiltered]

def Counter.ofResult : Except IngestError Ingested → Counter
  | .ok (.accepted _) => .dealsApplied
  | .ok .skipped => .dealsFiltered
  | .ok .duplicate => .dealsDuplicate
  | .error _ => .dealsRejected

def skippedIn : Except IngestError Ingested → Nat
  | .ok (.accepted outcome) => outcome.skipped
  | _ => 0

def Counter.raisedBy (result : Except IngestError Ingested) (c : Counter) : Nat :=
  if c = ofResult result then 1 else if c = .resolutionsSkipped then skippedIn result else 0

def Tally.under (t : Tally) : Counter → UInt64
  | .dealsApplied => t.accepted
  | .dealsRejected => t.rejected
  | .dealsDuplicate => t.duplicate
  | .dealsFiltered => t.skipped
  | _ => 0

theorem Counter.ofResult_mem (result : Except IngestError Ingested) :
    ofResult result ∈ ofDeliveries := by
  rcases result with e | outcome | _ | _ <;> simp [ofResult, ofDeliveries]

theorem Counter.ne_of_mem_ofDeliveries {c : Counter} (mem : c ∈ ofDeliveries) :
    c ≠ .resolutionsSkipped ∧ c ≠ .eventsEmitted ∧ c ≠ .rollovers := by
  revert c
  decide

theorem Counter.raisedBy_of_mem {c : Counter} (mem : c ∈ ofDeliveries)
    (result : Except IngestError Ingested) :
    raisedBy result c = if c = ofResult result then 1 else 0 := by
  rw [raisedBy, if_neg (ne_of_mem_ofDeliveries mem).1]

theorem Counter.raisedBy_of_not_mem {c : Counter} (other : c ∉ ofDeliveries)
    (unskipped : c ≠ .resolutionsSkipped) (result : Except IngestError Ingested) :
    raisedBy result c = 0 := by
  have ne : c ≠ ofResult result := fun same => other (same ▸ ofResult_mem result)
  rw [raisedBy, if_neg ne, if_neg unskipped]

theorem Counter.raisedBy_skipped (result : Except IngestError Ingested) :
    raisedBy result .resolutionsSkipped = skippedIn result := by
  have other : Counter.resolutionsSkipped ≠ ofResult result := fun same =>
    (ne_of_mem_ofDeliveries (ofResult_mem result)).1 same.symm
  rw [raisedBy, if_neg other, if_pos rfl]

theorem Tally.under_add {c : Counter} (mem : c ∈ Counter.ofDeliveries) (t : Tally)
    (result : Except IngestError Ingested) :
    (t.add result).under c = t.under c + UInt64.ofNat (c.raisedBy result) := by
  rw [Counter.raisedBy_of_mem mem]
  simp only [Counter.ofDeliveries, List.mem_cons, List.not_mem_nil, or_false] at mem
  rcases mem with rfl | rfl | rfl | rfl <;> rcases result with e | outcome | _ | _ <;>
    simp [add, under, Counter.ofResult]

theorem Metrics.get_ingested (m : Metrics) (result : Except IngestError Ingested) (c : Counter) :
    (m.ingested result).counters.get c = m.counters.get c + UInt64.ofNat (c.raisedBy result) := by
  rcases result with e | outcome | _ | _
  all_goals
    cases c <;>
      simp [ingested, dealApplied, add, Counters.add, Counters.get, Counter.raisedBy,
        Counter.ofResult, skippedIn]

-- ---------------------------------------------------------------------------
-- Rollovers
-- ---------------------------------------------------------------------------

def finals (events : List Event) : Nat := events.countP Event.isFinal

theorem finals_append (first second : List Event) :
    finals (first ++ second) = finals first + finals second :=
  List.countP_append

section
variable {config : StoreConfig} {calendar : Calendar} {now : Instant} {t : Table}

theorem Store.finals_live (pair : Pair) (stored : Option Candle) :
    finals (Store.live calendar pair stored now).events =
      if (Store.live calendar pair stored now).rolled then 1 else 0 := by
  cases stored with
  | none => rfl
  | some c =>
    unfold Store.live
    dsimp only
    split <;> rfl

theorem Store.finals_share {deal : Deal} {stored : Option Candle} {r : Resolution}
    {part : Store.Draft × Bool} (h : Store.share calendar deal now stored r = .ok part) :
    finals part.1.events = if part.1.rolled then 1 else 0 := by
  have drafted : finals (Store.live calendar ⟨deal.market, r⟩ stored now).events =
      if (Store.live calendar ⟨deal.market, r⟩ stored now).rolled then 1 else 0 :=
    Store.finals_live ⟨deal.market, r⟩ stored
  unfold Store.share at h
  dsimp only at h
  split at h
  · split at h
    · cases h
    · split at h
      · cases h
        exact drafted
      · cases h
        rw [finals_append, drafted]
        rfl
  · cases h
    exact drafted

theorem Store.finals_addDeal {deal : Deal} {change : Change DealOutcome}
    (h : Store.addDeal config deal now t = .ok change) :
    change.rollovers = finals change.events := by
  unfold Store.addDeal at h
  split at h
  · cases h
  · next parts shared =>
    cases h
    have each : ∀ part ∈ parts,
        finals part.2.1.events = if part.2.1.rolled then 1 else 0 := fun part mem =>
      Store.finals_share ((Store.shares_eq_ok shared).2 part mem).2
    clear shared
    dsimp only
    induction parts with
    | nil => rfl
    | cons part rest ih =>
      have first := each part (List.mem_cons_self ..)
      have later := ih fun part mem => each part (List.mem_cons_of_mem _ mem)
      rw [List.flatMap_cons, finals_append, first, ← later, List.filter_cons]
      cases part.2.1.rolled <;> simp [Nat.add_comm]

theorem Store.finals_refresh :
    (Store.refresh config now t).rollovers = finals (Store.refresh config now t).events := by
  obtain ⟨entries⟩ := t
  simp only [Store.refresh]
  induction entries with
  | nil => rfl
  | cons entry rest ih =>
    rw [List.flatMap_cons, finals_append, ← ih, List.filter_cons, Store.refreshEvents]
    cases entry.2.hasEnded now <;> simp [finals, Event.isFinal, Event.kind, Nat.add_comm]

theorem Store.finals_seed (pair : Pair) (given : Option Candle) :
    (Store.seed config pair given now t).rollovers =
      finals (Store.seed config pair given now t).events := by
  unfold Store.seed
  dsimp only
  split
  · split
    · rfl
    · split <;> rfl
  · rfl

/-- A request rolls as many candles over as it publishes final snapshots. -/
theorem rollovers_eq_finals {request : Request} {change : Change Reply}
    (h : request.plan config now t = .ok change) : change.rollovers = finals change.events := by
  cases request with
  | deal deal =>
    simp only [Request.plan] at h
    split at h
    · next added =>
      cases h
      exact Store.finals_addDeal added
    · cases h
  | seed pair given =>
    cases h
    exact Store.finals_seed pair given
  | refresh =>
    cases h
    exact Store.finals_refresh
  | look pair | pairs => cases h; rfl

end

-- ---------------------------------------------------------------------------
-- Books
-- ---------------------------------------------------------------------------

/-- The counters that calls raise, and what each ingester counts. -/
structure Books where
  counters : Counters
  tallies : List Tally

namespace Books

def conclude (b : Books) (path : Nat) (result : Except IngestError Ingested) : Books :=
  ⟨(Metrics.ingested { counters := b.counters } result).counters,
    b.tallies.modify path (·.add result)⟩

def raise (b : Books) (c : Counter) (n : Nat) : Books :=
  { b with counters := b.counters.add (UInt64.ofNat n) c }

end Books

/-- The events that a task has promised to count when all are sent. -/
def Task.promised : Task → Nat
  | .visiting _ (.sending _ count _) => count
  | _ => 0

def Task.result? : Task → Option (Except IngestError Ingested)
  | .answered (.ingested result) => some result
  | _ => none

def Task.raised (c : Counter) (t : Task) : Nat := t.result?.elim 0 c.raisedBy

/-- The ingester that let a task in, until the delivery is over. -/
def Task.admitted? : Task → Option Nat
  | .visiting (.ingester path _) _ => some path
  | .concluding path _ _ => some path
  | _ => none

theorem Task.admitted?_visiting (visitor : Visitor) (visit next : Visit) :
    (Task.visiting visitor visit).admitted? = (Task.visiting visitor next).admitted? := by
  cases visitor <;> rfl

def Task.isDelivery : Task → Bool
  | .calling (.deliver _ _) => true
  | .delivering _ _ => true
  | .visiting (.ingester _ _) _ => true
  | .concluding _ _ _ => true
  | .answered (.ingested _) => true
  | _ => false

def Task.Blank : Task → Prop
  | .visiting _ (.sending _ _ _) => False
  | .answered (.ingested _) => False
  | _ => True

/-- What a step of a task does to the books, and the event that it puts on the channel. -/
inductive BookStep (b : Books) : Task → List Event → Books → Task → Prop
  /-- Anything that is not counted. -/
  | aside {t next : Task} : t.Blank → next.Blank →
      (∀ path, next.admitted? = some path → path < b.tallies.length ∨ t.admitted? = some path) →
      BookStep b t [] b next
  | concludes {t : Task} {path : Nat} {result : Except IngestError Ingested} : t.Blank →
      path < b.tallies.length ∨ t.admitted? = some path →
      BookStep b t [] (b.conclude path result) (.answered (.ingested result))
  | acts {visitor : Visitor} {request : Request} {change : Change Reply} :
      change.rollovers = finals change.events →
      BookStep b (.visiting visitor (.waiting request)) [] (b.raise .rollovers change.rollovers)
        (.visiting visitor (.sending change.events change.events.length change.result))
  | sends {visitor : Visitor} {event : Event} {rest : List Event} {count : Nat} {reply : Reply} :
      BookStep b (.visiting visitor (.sending (event :: rest) count reply)) [event] b
        (.visiting visitor (.sending rest count reply))
  | breaks {visitor : Visitor} {event : Event} {rest : List Event} {count : Nat} {reply : Reply}
      {e : StoreError} :
      BookStep b (.visiting visitor (.sending (event :: rest) count reply)) [] b
        (.visiting visitor (.leaving (.error e)))
  | sent {visitor : Visitor} {count : Nat} {reply : Reply} :
      BookStep b (.visiting visitor (.sending [] count reply)) [] (b.raise .eventsEmitted count)
        (.visiting visitor (.leaving (.ok reply)))

namespace Pipeline

variable {p q : Pipeline} {i : Nat}

/-- The counters of the publisher are left out. -/
def books (p : Pipeline) : Books where
  counters := { p.store.metrics.counters with
    batchesFlushed := 0, messagesBroadcast := 0, broadcastFailures := 0 }
  tallies := p.ingesters.toList.map Ingester.tally

/-- A step of task `i` that leads from one place to another, with what is entered into the
books. A delivery stays one. -/
structure Posted (p : Pipeline) (i : Nat) (t : Task) (q : Pipeline) (next : Task) : Prop where
  tasks : q.tasks = p.tasks.setIfInBounds i next
  delivery : next.isDelivery = t.isDelivery
  step : BookStep p.books t (p.noted t).emitted q.books next

theorem posted_aside {t next : Task} (tasks : q.tasks = p.tasks.setIfInBounds i next)
    (delivery : next.isDelivery = t.isDelivery) (books : q.books = p.books)
    (nothing : (p.noted t).emitted = []) (blank : t.Blank) (still : next.Blank)
    (outside : next.admitted? = none) : Posted p i t q next := by
  refine ⟨tasks, delivery, ?_⟩
  rw [books, nothing]
  refine .aside blank still fun path admitted => ?_
  rw [outside] at admitted
  cases admitted

theorem books_conclude (p : Pipeline) (i path : Nat) (result : Except IngestError Ingested) :
    (p.conclude i path result).books = p.books.conclude path result := by
  have tallies : (p.conclude i path result).books.tallies =
      p.books.tallies.modify path (·.add result) := by
    refine List.ext_getElem? fun j => ?_
    simp only [conclude, withMetrics, withStore, withIngester, put, books, List.getElem?_map,
      List.getElem?_modify, Array.getElem?_toList, Array.getElem?_modify]
    split <;> cases p.ingesters[j]? <;> rfl
  have counters : (p.conclude i path result).books.counters =
      (p.books.conclude path result).counters := by
    rcases result with e | outcome | _ | _ <;> rfl
  rw [Books.conclude, ← tallies]
  exact congrArg (Books.mk · _) counters

theorem books_withIngester (p : Pipeline) (path : Nat) {f : Ingester → Ingester}
    (kept : ∀ g, (f g).tally = g.tally) : (p.withIngester path f).books = p.books := by
  refine congrArg (Books.mk _) (List.ext_getElem? fun j => ?_)
  simp only [withIngester, List.getElem?_map, Array.getElem?_toList, Array.getElem?_modify]
  split
  · cases p.ingesters[j]? with
    | none => rfl
    | some g => exact congrArg some (kept g)
  · rfl

theorem lt_tallies {path : Nat} {g : Ingester} (found : p.ingesters[path]? = some g) :
    path < p.books.tallies.length := by
  simpa [books] using (Array.getElem?_eq_some_iff.mp found).1

-- ---------------------------------------------------------------------------
-- Every step is on the list
-- ---------------------------------------------------------------------------

theorem begin_posted (p : Pipeline) (i : Nat) (call : Call) :
    ∃ next, Posted p i (.calling call) (p.begin i call) next := by
  cases call with
  | store request | record record =>
    unfold begin
    dsimp only
    split
    · exact ⟨_, posted_aside rfl rfl rfl rfl trivial trivial rfl⟩
    · exact ⟨_, posted_aside rfl rfl rfl rfl trivial trivial rfl⟩
  | deliver path delivery =>
    have lined : (p.withIngester path fun g => { g with lock := g.lock.request i }).books =
        p.books := books_withIngester p path fun _ => rfl
    exact ⟨_, posted_aside rfl rfl lined rfl trivial trivial rfl⟩

theorem conclude_posted {t : Task} {path : Nat} {result : Except IngestError Ingested}
    (books : q.books = p.books) (tasks : q.tasks = p.tasks) (nothing : (p.noted t).emitted = [])
    (delivery : t.isDelivery = true) (blank : t.Blank)
    (known : path < p.books.tallies.length ∨ t.admitted? = some path) :
    ∃ next, Posted p i t (q.conclude i path result) next := by
  refine ⟨.answered (.ingested result), by rw [tasks_conclude, tasks], delivery.symm, ?_⟩
  rw [books_conclude, books, nothing]
  exact .concludes blank known

theorem handle_posted {path : Nat} {delivery : Delivery} {g : Ingester}
    (found : p.ingesters[path]? = some g) :
    ∃ next, Posted p i (.delivering path delivery) (p.handle i path delivery) next := by
  have known := lt_tallies found
  unfold handle
  split
  · exact conclude_posted rfl rfl rfl rfl trivial (.inl known)
  · exact conclude_posted rfl rfl rfl rfl trivial (.inl known)
  · split
    · exact conclude_posted rfl rfl rfl rfl trivial (.inl known)
    · refine ⟨_, rfl, rfl, .aside trivial trivial fun _ admitted => ?_⟩
      cases admitted
      exact .inl known

theorem settleClaim_posted (p : Pipeline) (i path : Nat) (deal : Deal)
    (result : Except StoreError Reply) :
    ∃ next, Posted p i (.concluding path deal result) (p.settleClaim i path deal result) next := by
  cases result with
  | ok reply | error e => exact conclude_posted rfl rfl rfl rfl trivial (.inr rfl)

theorem leave_posted (p : Pipeline) (i : Nat) (result : Except StoreError Reply)
    (visitor : Visitor) :
    ∃ next, Posted p i (.visiting visitor (.leaving result))
      ((p.withStore { p.store with lock := p.store.lock.release }).leave i result visitor)
      next := by
  cases visitor with
  | caller => exact ⟨_, posted_aside rfl rfl rfl rfl trivial trivial rfl⟩
  | ingester path deal =>
    exact ⟨_, rfl, rfl, .aside trivial trivial fun _ admitted => .inr admitted⟩
  | seeder rest =>
    cases result with
    | ok reply | error e => exact ⟨_, posted_aside rfl rfl rfl rfl trivial trivial rfl⟩
  | refresher =>
    unfold leave
    dsimp only
    split
    · exact ⟨_, posted_aside rfl rfl rfl rfl trivial trivial rfl⟩
    · exact ⟨_, posted_aside rfl rfl rfl rfl trivial trivial rfl⟩

theorem stepVisit?_posted {visitor : Visitor} {visit : Visit}
    (h : p.stepVisit? i visitor visit = some q) :
    ∃ next, Posted p i (.visiting visitor visit) q next := by
  obtain ⟨store, next, step, rfl⟩ | ⟨store, result, step, rfl⟩ := stepVisit?_cases h
  · refine ⟨.visiting visitor next, rfl, by cases visitor <;> rfl, ?_⟩
    cases step with
    | acts _ planned => exact .acts (rollovers_eq_finals planned)
    | fails =>
      exact .aside trivial trivial fun _ admitted =>
        .inr ((Task.admitted?_visiting visitor _ _).trans admitted)
    | sends sent =>
      rw [noted, sent]
      exact .sends
    | breaks _ unsent =>
      rw [noted]
      split
      · next sent => exact absurd sent (unsent _)
      · exact .breaks
    | sent => exact .sent
  · cases step
    exact leave_posted p i result visitor

theorem publish_posted (p : Pipeline) (i : Nat) (messages : List Message) (began deadline : Nat) :
    Posted p i (.publishing messages began deadline) (p.publish i messages began) .listening := by
  unfold publish
  dsimp only
  split
  · exact posted_aside rfl rfl rfl rfl trivial trivial rfl
  · split
    · exact posted_aside rfl rfl rfl rfl trivial trivial rfl
    · exact posted_aside rfl rfl rfl rfl trivial trivial rfl

theorem posted_of_step? (h : step? i p = some q) :
    ∃ t next, p.tasks[i]? = some t ∧ Posted p i t q next := by
  obtain ⟨t, here, step⟩ := taskStep_of_step? h
  suffices ∃ next, Posted p i t q next by
    obtain ⟨next, posted⟩ := this
    exact ⟨t, next, here, posted⟩
  cases step with
  | begins call => exact begin_posted p i call
  | handles found => exact handle_posted found
  | visits step => exact stepVisit?_posted step
  | settles path deal result => exact settleClaim_posted p i path deal result
  | gathers =>
    exact ⟨_, posted_aside (batching_moves here _).tasks rfl rfl rfl trivial trivial rfl⟩
  | takes received =>
    exact ⟨_, posted_aside rfl rfl rfl (by rw [noted, received]) trivial trivial rfl⟩
  | ends ended => exact ⟨_, posted_aside rfl rfl rfl (by rw [noted, ended]) trivial trivial rfl⟩
  | publishes => exact ⟨_, publish_posted ..⟩
  | seeded | seeds | rests | refreshes | retires | wakes | closes =>
    exact ⟨_, posted_aside rfl rfl rfl rfl trivial trivial rfl⟩

end Pipeline

end Candlestick
