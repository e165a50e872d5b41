import Candlestick.Proofs.Pipeline.Step

/-!
# What one step of a task can do

Of all that the tasks of a pipeline share, deliveries depend on the floor: the candles, the
lock of the store, the window, and the lock of every ingester. `Move` lists what a step of a
task can do to the floor, and `step?_moves` shows the list complete. `VisitStep` keeps all
of the store in view, for the steps of a visit.
-/

namespace Candlestick

/-- The shared state that deliveries depend on. -/
structure Floor where
  config : StoreConfig
  table : Table
  lock : Lock
  window : Window
  /-- The lock of the ingester of a path. -/
  gate : Nat → Option Lock

def Floor.atGate (f : Floor) (path : Nat) (change : Lock → Lock) : Floor :=
  { f with gate := fun other => if path = other then (f.gate other).map change else f.gate other }

def Pipeline.floor (p : Pipeline) : Floor where
  config := p.store.config
  table := p.store.table
  lock := p.store.lock
  window := p.window
  gate := fun path => p.ingesters[path]?.map Ingester.lock

/-- A task that has nothing to do with the locks: one that has not begun, that
is over, or that works elsewhere. -/
def Task.Apart : Task → Prop
  | .delivering _ _ => False
  | .visiting _ _ => False
  | .concluding _ _ _ => False
  | .closing => False
  | _ => True

instance : (t : Task) → Decidable t.Apart
  | .delivering _ _ => isFalse id
  | .visiting _ _ => isFalse id
  | .concluding _ _ _ => isFalse id
  | .closing => isFalse id
  | .calling _ => isTrue trivial
  | .answered _ => isTrue trivial
  | .seeding _ => isTrue trivial
  | .seeded _ => isTrue trivial
  | .refreshing => isTrue trivial
  | .resting _ => isTrue trivial
  | .batching => isTrue trivial
  | .listening => isTrue trivial
  | .publishing _ _ _ => isTrue trivial
  | .stopped => isTrue trivial

/-- A task apart that is no delivery and has no answer yet. -/
def Task.Free : Task → Prop
  | .answered _ => False
  | .calling (.deliver _ _) => False
  | t => t.Apart

theorem Task.Free.apart {t : Task} (h : t.Free) : t.Apart := by
  cases t with
  | calling call | answered answer => exact trivial
  | _ => exact h

def Visitor.Delivers : Visitor → Prop
  | .ingester _ _ => True
  | _ => False

def StoreError.IsEmission : StoreError → Prop
  | .channelClosed => True
  | .cancelled => True
  | _ => False

instance : DecidablePred StoreError.IsEmission
  | .channelClosed => isTrue trivial
  | .cancelled => isTrue trivial
  | .invalidDeal _ => isFalse id
  | .decimal _ => isFalse id
  | .keyMismatch _ _ => isFalse id
  | .invalidCandle _ => isFalse id

/-- The window once a delivery is over: the claim of one that failed is given
back. -/
def Window.afterDelivery (w : Window) (id : DealId) : Except StoreError Reply → Window
  | .ok _ => w
  | .error _ => w.release id

/-- What a step of task `i` can do, at a clock reading. -/
inductive Move (now : Instant) (i : Nat) (f : Floor) : Task → Floor → Task → Prop
  /-- Anything that leaves the floor as it is. -/
  | aside {t next : Task} : t.Free → next.Apart → Move now i f t f next
  /-- Getting in line for the store. -/
  | enters {t : Task} {visitor : Visitor} {request : Request} :
      t.Free → ¬ visitor.Delivers →
      Move now i f t { f with lock := f.lock.request i } (.visiting visitor (.waiting request))
  | retires {t : Task} :
      t.Free → Move now i f t { f with lock := f.lock.request i } .closing
  /-- Getting in line for an ingester. -/
  | approaches {path : Nat} {delivery : Delivery} :
      Move now i f (.calling (.deliver path delivery)) (f.atGate path (Lock.request · i))
        (.delivering path delivery)
  /-- A delivery that is no deal. -/
  | refused {path : Nat} {delivery : Delivery} {gate : Lock}
      {result : Except IngestError Ingested} :
      f.gate path = some gate → gate.holder = some i →
      (∀ deal, delivery.examine ≠ .admitted deal) → result ≠ .ok .duplicate →
      Move now i f (.delivering path delivery) (f.atGate path Lock.release)
        (.answered (.ingested result))
  | duplicate {path : Nat} {delivery : Delivery} {gate : Lock} {deal : Deal} :
      f.gate path = some gate → gate.holder = some i → delivery.examine = .admitted deal →
      f.window.claim? deal.id = none →
      Move now i f (.delivering path delivery) (f.atGate path Lock.release)
        (.answered (.ingested (.ok .duplicate)))
  /-- A claim, and at once a place in the line for the store. -/
  | claims {path : Nat} {delivery : Delivery} {gate : Lock} {deal : Deal} {window : Window} :
      f.gate path = some gate → gate.holder = some i → delivery.examine = .admitted deal →
      f.window.claim? deal.id = some window →
      Move now i f (.delivering path delivery)
        { f with window := window, lock := f.lock.request i }
        (.visiting (.ingester path deal) (.waiting (.deal deal)))
  /-- The candles change before anything is sent. -/
  | acts {visitor : Visitor} {request : Request} {change : Change Reply} :
      f.lock.holder = some i → request.plan f.config now f.table = .ok change →
      Move now i f (.visiting visitor (.waiting request)) { f with table := change.table }
        (.visiting visitor (.sending change.events change.events.length change.result))
  | fails {visitor : Visitor} {request : Request} {e : StoreError} :
      f.lock.holder = some i → request.plan f.config now f.table = .error e →
      Move now i f (.visiting visitor (.waiting request)) f (.visiting visitor (.leaving (.error e)))
  | sends {visitor : Visitor} {event : Event} {rest : List Event} {count : Nat} {reply : Reply} :
      Move now i f (.visiting visitor (.sending (event :: rest) count reply)) f
        (.visiting visitor (.sending rest count reply))
  /-- An event that cannot be sent. -/
  | breaks {visitor : Visitor} {event : Event} {rest : List Event} {count : Nat} {reply : Reply}
      {e : StoreError} :
      e.IsEmission →
      Move now i f (.visiting visitor (.sending (event :: rest) count reply)) f
        (.visiting visitor (.leaving (.error e)))
  | sent {visitor : Visitor} {count : Nat} {reply : Reply} :
      Move now i f (.visiting visitor (.sending [] count reply)) f
        (.visiting visitor (.leaving (.ok reply)))
  | returns {path : Nat} {deal : Deal} {result : Except StoreError Reply} :
      Move now i f (.visiting (.ingester path deal) (.leaving result))
        { f with lock := f.lock.release } (.concluding path deal result)
  | leaves {visitor : Visitor} {result : Except StoreError Reply} {next : Task} :
      ¬ visitor.Delivers → next.Apart →
      Move now i f (.visiting visitor (.leaving result)) { f with lock := f.lock.release } next
  /-- A refresher that was told to stop goes to the end of the line. -/
  | turns {result : Except StoreError Reply} :
      Move now i f (.visiting .refresher (.leaving result))
        { f with lock := f.lock.release.request i } .closing
  | closes :
      f.lock.holder = some i →
      Move now i f .closing { f with lock := f.lock.release } .stopped
  | concludes {path : Nat} {deal : Deal} {result : Except StoreError Reply} :
      Move now i f (.concluding path deal result)
        ({ f with window := f.window.afterDelivery deal.id result }.atGate path Lock.release)
        (.answered (.ingested (Pipeline.deliveryResult result)))

theorem Lock.holder_of_heldBy {lock : Lock} {i : Nat} (h : lock.heldBy i = true) :
    lock.holder = some i := by
  simpa [heldBy] using h

-- ---------------------------------------------------------------------------
-- Visits
-- ---------------------------------------------------------------------------

/-- What one step of a visit can do to the store. -/
inductive VisitStep (now : Instant) (who : Nat) (s : SharedStore) :
    Visit → SharedStore → Progress → Prop
  | acts {request : Request} {change : Change Reply} :
      s.lock.holder = some who → request.plan s.config now s.table = .ok change →
      VisitStep now who s (.waiting request) (s.commit change).1 (.within (s.commit change).2)
  | fails {request : Request} {e : StoreError} :
      s.lock.holder = some who → request.plan s.config now s.table = .error e →
      VisitStep now who s (.waiting request) s (.within (.leaving (.error e)))
  | sends {event : Event} {rest : List Event} {count : Nat} {reply : Reply}
      {events : Channel Event} :
      s.events.send event = .sent events →
      VisitStep now who s (.sending (event :: rest) count reply) { s with events := events }
        (.within (.sending rest count reply))
  | breaks {event : Event} {rest : List Event} {count : Nat} {reply : Reply} {e : StoreError} :
      e.IsEmission → (∀ events, s.events.send event ≠ .sent events) →
      VisitStep now who s (.sending (event :: rest) count reply) s (.within (.leaving (.error e)))
  | sent {count : Nat} {reply : Reply} :
      VisitStep now who s (.sending [] count reply) (s.count .eventsEmitted count)
        (.within (.leaving (.ok reply)))
  | leaves {result : Except StoreError Reply} :
      VisitStep now who s (.leaving result) { s with lock := s.lock.release } (.left result)

theorem SharedStore.visitStep_of_step? {s store : SharedStore} {who : Nat} {now : Instant}
    {visit : Visit} {progress : Progress} (h : s.step? who now visit = some (store, progress)) :
    VisitStep now who s visit store progress := by
  cases visit with
  | waiting request =>
    simp only [step?] at h
    split at h
    · next held =>
      have holder := Lock.holder_of_heldBy held
      cases planned : request.plan s.config now s.table with
      | ok change =>
        simp only [act, planned] at h
        cases h
        exact .acts holder planned
      | error e =>
        rw [act_error planned] at h
        cases h
        exact .fails holder planned
    · cases h
  | sending events count reply =>
    cases events with
    | nil =>
      cases h
      exact .sent
    | cons event rest =>
      simp only [step?, publish?] at h
      cases sending : s.events.send event with
      | sent events =>
        simp only [sending] at h
        cases h
        exact .sends sending
      | closed =>
        simp only [sending] at h
        cases h
        exact .breaks trivial (by simp [sending])
      | full =>
        by_cases cancelled : s.cancelled = true
        · simp only [sending, if_pos cancelled] at h
          cases h
          exact .breaks trivial (by simp [sending])
        · simp [sending, cancelled] at h
  | leaving result =>
    cases h
    exact .leaves

/-- A visitor stays, or goes where its result sends it. -/
theorem Pipeline.stepVisit?_cases {p q : Pipeline} {i : Nat} {visitor : Visitor} {visit : Visit}
    (h : p.stepVisit? i visitor visit = some q) :
    (∃ store next, VisitStep p.now i p.store visit store (.within next) ∧
      q = (p.withStore store).put i (.visiting visitor next)) ∨
    ∃ store result, VisitStep p.now i p.store visit store (.left result) ∧
      q = (p.withStore store).leave i result visitor := by
  unfold stepVisit? at h
  split at h
  · next stepped =>
    cases h
    exact .inl ⟨_, _, SharedStore.visitStep_of_step? stepped, rfl⟩
  · next stepped =>
    cases h
    exact .inr ⟨_, _, SharedStore.visitStep_of_step? stepped, rfl⟩
  · cases h

namespace Pipeline

-- ---------------------------------------------------------------------------
-- Floors and tasks after the parts of a step
-- ---------------------------------------------------------------------------

@[simp] theorem floor_put (p : Pipeline) (i : Nat) (t : Task) : (p.put i t).floor = p.floor := rfl

theorem floor_withIngester (p : Pipeline) (path : Nat) (f : Ingester → Ingester)
    (change : Lock → Lock) (h : ∀ g, (f g).lock = change g.lock) :
    (p.withIngester path f).floor = p.floor.atGate path change := by
  have gates : (fun other => ((p.ingesters.modify path f)[other]?).map Ingester.lock) =
      fun other => if path = other then (p.ingesters[other]?.map Ingester.lock).map change
        else p.ingesters[other]?.map Ingester.lock := by
    funext other
    rw [Array.getElem?_modify]
    split
    · cases p.ingesters[other]? with
      | none => rfl
      | some g => exact congrArg some (h g)
    · rfl
  exact congrArg (fun gate => { p.floor with gate := gate }) gates

theorem floor_conclude (p : Pipeline) (i path : Nat) (result : Except IngestError Ingested) :
    (p.conclude i path result).floor = p.floor.atGate path Lock.release :=
  floor_withIngester (p.withMetrics fun m => m.ingested result) path _ Lock.release fun _ => rfl

theorem tasks_conclude (p : Pipeline) (i path : Nat) (result : Except IngestError Ingested) :
    (p.conclude i path result).tasks =
      p.tasks.setIfInBounds i (.answered (.ingested result)) := rfl

theorem tasks_visit (p : Pipeline) (i : Nat) (visitor : Visitor) (request : Request) :
    (p.visit i visitor request).tasks =
      p.tasks.setIfInBounds i (.visiting visitor (.waiting request)) := rfl

theorem tasks_put_self {p : Pipeline} {i : Nat} {t : Task} (here : p.tasks[i]? = some t)
    (next : Task) : (p.put i next).tasks[i]? = some next :=
  Array.getElem?_setIfInBounds_self_of_lt (Array.getElem?_eq_some_iff.mp here).1

theorem gate_eq_some {p : Pipeline} {path : Nat} {g : Ingester} (h : p.ingesters[path]? = some g) :
    p.floor.gate path = some g.lock :=
  congrArg (Option.map Ingester.lock) h

-- ---------------------------------------------------------------------------
-- Every step is a move
-- ---------------------------------------------------------------------------

/-- A step of task `i` that leads from one place to another and changes the
floor accordingly. -/
structure Moves (p : Pipeline) (i : Nat) (t : Task) (q : Pipeline) (next : Task) : Prop where
  tasks : q.tasks = p.tasks.setIfInBounds i next
  move : Move p.now i p.floor t q.floor next

theorem begin_moves (p : Pipeline) (i : Nat) (call : Call) :
    ∃ next, Moves p i (.calling call) (p.begin i call) next := by
  cases call with
  | store request | record record =>
    unfold begin
    dsimp only
    split
    · exact ⟨_, rfl, .enters trivial id⟩
    · exact ⟨_, rfl, .aside trivial trivial⟩
  | deliver path delivery =>
    refine ⟨_, rfl, ?_⟩
    rw [begin, floor_put, floor_withIngester p path _ (Lock.request · i) fun _ => rfl]
    exact .approaches

theorem handle_moves {p : Pipeline} {i path : Nat} {delivery : Delivery} {g : Ingester}
    (found : p.ingesters[path]? = some g) (held : g.lock.heldBy i = true) :
    ∃ next, Moves p i (.delivering path delivery) (p.handle i path delivery) next := by
  have gate := gate_eq_some found
  have holder := Lock.holder_of_heldBy held
  unfold handle
  split
  · next cause examined =>
    refine ⟨_, tasks_conclude .., ?_⟩
    rw [floor_conclude]
    exact .refused gate holder (by simp [examined]) (by simp)
  · next examined =>
    refine ⟨_, tasks_conclude .., ?_⟩
    rw [floor_conclude]
    exact .refused gate holder (by simp [examined]) (by simp)
  · next deal examined =>
    split
    · next known =>
      refine ⟨_, tasks_conclude .., ?_⟩
      rw [floor_conclude]
      exact .duplicate gate holder examined known
    · next window claimed =>
      exact ⟨_, tasks_visit .., .claims gate holder examined claimed⟩

theorem leave_moves (p : Pipeline) (i : Nat) (result : Except StoreError Reply)
    (visitor : Visitor) :
    ∃ next, Moves p i (.visiting visitor (.leaving result))
      ((p.withStore { p.store with lock := p.store.lock.release }).leave i result visitor)
      next := by
  cases visitor with
  | caller => exact ⟨_, rfl, .leaves id trivial⟩
  | ingester path deal => exact ⟨_, rfl, .returns⟩
  | seeder rest =>
    cases result with
    | ok reply | error e => exact ⟨_, rfl, .leaves id trivial⟩
  | refresher =>
    unfold leave
    dsimp only
    split
    · exact ⟨_, rfl, .turns⟩
    · exact ⟨_, rfl, .leaves id trivial⟩

theorem stepVisit?_moves {p q : Pipeline} {i : Nat} {visitor : Visitor} {visit : Visit}
    (h : p.stepVisit? i visitor visit = some q) :
    ∃ next, Moves p i (.visiting visitor visit) q next := by
  obtain ⟨store, next, step, rfl⟩ | ⟨store, result, step, rfl⟩ := stepVisit?_cases h
  · refine ⟨.visiting visitor next, rfl, ?_⟩
    cases step with
    | acts holder planned => exact .acts holder planned
    | fails holder planned => exact .fails holder planned
    | sends sent => exact .sends
    | breaks emission => exact .breaks emission
    | sent => exact .sent
  · cases step
    exact leave_moves p i result visitor

theorem settleClaim_moves (p : Pipeline) (i path : Nat) (deal : Deal)
    (result : Except StoreError Reply) :
    ∃ next, Moves p i (.concluding path deal result) (p.settleClaim i path deal result) next := by
  cases result with
  | ok reply | error e =>
    refine ⟨_, tasks_conclude .., ?_⟩
    rw [settleClaim, floor_conclude]
    exact .concludes

theorem publish_moves (p : Pipeline) (i : Nat) (messages : List Message) (began deadline : Nat) :
    Moves p i (.publishing messages began deadline) (p.publish i messages began) .listening := by
  unfold publish
  dsimp only
  split
  · exact ⟨rfl, .aside trivial trivial⟩
  · split
    · exact ⟨rfl, .aside trivial trivial⟩
    · exact ⟨rfl, .aside trivial trivial⟩

theorem batching_moves {p : Pipeline} {i : Nat} (found : p.tasks[i]? = some .batching)
    (b : Batching Event) : Moves p i .batching (p.withJoined b) .batching := by
  refine ⟨Array.ext_getElem? fun j => ?_, .aside trivial trivial⟩
  rw [Array.getElem?_setIfInBounds]
  split
  · next same =>
    subst same
    rw [if_pos (Array.getElem?_eq_some_iff.mp found).1]
    exact found
  · rfl

theorem step?_moves {p q : Pipeline} {i : Nat} (h : step? i p = some q) :
    ∃ t next, p.tasks[i]? = some t ∧ Moves p i t q next := by
  obtain ⟨t, here, step⟩ := taskStep_of_step? h
  suffices ∃ next, Moves p i t q next by
    obtain ⟨next, moves⟩ := this
    exact ⟨t, next, here, moves⟩
  cases step with
  | begins call => exact begin_moves p i call
  | handles found held => exact handle_moves found held
  | visits step => exact stepVisit?_moves step
  | settles path deal result => exact settleClaim_moves p i path deal result
  | seeds | refreshes => exact ⟨_, rfl, .enters trivial id⟩
  | retires | wakes => exact ⟨_, rfl, .retires trivial⟩
  | closes held => exact ⟨_, rfl, .closes (Lock.holder_of_heldBy held)⟩
  | gathers => exact ⟨_, batching_moves here _⟩
  | publishes => exact ⟨_, publish_moves ..⟩
  | seeded | rests | takes | ends => exact ⟨_, rfl, .aside trivial trivial⟩

end Pipeline

end Candlestick
