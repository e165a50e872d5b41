import Candlestick.Proofs.Pipeline.Session

/-!
# A store that is told to stop

Calls to one store and any number of refreshers take steps in any order, while somebody
takes events at any pace, the clock does what it likes, and the store is told to stop at
some moment. The receiver stays. `UserStep` lists what a step of a user does to the store,
and `userStep_of_step?` shows the list complete.
-/

namespace Candlestick

-- ---------------------------------------------------------------------------
-- What is observed
-- ---------------------------------------------------------------------------

/-- Whether a task gives an event up with its step, as the store was told to stop. -/
def Task.abandons : Task → Task → Bool
  | .visiting _ (.sending (_ :: _) _ _), .visiting _ (.leaving (.error .cancelled)) => true
  | _, _ => false

structure Watch where
  /-- The requests in the order in which they were carried out. -/
  requests : List DatedRequest := []
  received : List Event := []
  /-- Whether an event was given up. -/
  abandoned : Bool := false
  /-- The events that were received after that and before the channel was closed. -/
  relieved : List Event := []

namespace Watch

def step (w : Watch) (p q : Pipeline) (i : Nat) : Watch :=
  { w with
    requests := w.requests ++
      (p.tasks[i]?.bind (Task.logged? p.now i)).toList.map Entry.dated
    abandoned := w.abandoned ||
      match p.tasks[i]?, q.tasks[i]? with
      | some t, some next => t.abandons next
      | _, _ => false }

def take (w : Watch) (events : Channel Event) (event : Event) : Watch :=
  { w with
    received := w.received ++ [event]
    relieved := if w.abandoned && events.hasSender then w.relieved ++ [event] else w.relieved }

end Watch

inductive Occurrence where
  | calls (call : StoreCall)
  /-- A refresher begins. -/
  | spawns
  | step (i : Nat)
  | takes
  | elapses (clock : Clock) (millis : Nat)
  | cancels

def Occurrence.occur? (p : Pipeline) (w : Watch) : Occurrence → Option (Pipeline × Watch)
  | calls call => some (p.start call, w)
  | spawns => some ({ p with tasks := p.tasks.push .refreshing }, w)
  | step i =>
    match Pipeline.step? i p with
    | some q => some (q, w.step p q i)
    | none => none
  | takes =>
    match p.store.events.receive with
    | .item event events =>
      some (p.withStore { p.store with events := events }, w.take p.store.events event)
    | _ => none
  | elapses clock millis => some (p.elapse clock millis, w)
  | cancels => some (p.withStore p.store.cancel, w)

def Pipeline.watch? (p : Pipeline) (w : Watch) : List Occurrence → Option (Pipeline × Watch)
  | [] => some (p, w)
  | first :: rest =>
    match first.occur? p w with
    | some (q, v) => q.watch? v rest
    | none => none

-- ---------------------------------------------------------------------------
-- Steps of users
-- ---------------------------------------------------------------------------

def Visitor.Uses : Visitor → Prop
  | .caller => True
  | .refresher => True
  | _ => False

inductive Task.OfUser : Task → Prop
  | calling (call : StoreCall) : OfUser (.calling call.toCall)
  | waiting {visitor : Visitor} {request : Request} :
      visitor.Uses → request.check = .ok () → OfUser (.visiting visitor (.waiting request))
  | begun {visitor : Visitor} {visit : Visit} :
      visitor.Uses → visit.Begun → OfUser (.visiting visitor visit)
  | answered (result : Except StoreError Reply) : OfUser (.answered (.replied result))
  | refreshing : OfUser .refreshing
  | resting (deadline : Nat) : OfUser (.resting deadline)
  | closing : OfUser .closing
  | stopped : OfUser .stopped

/-- What a step of user `i` does to the store, at a clock reading. -/
inductive UserStep (now : Instant) (i : Nat) (s : SharedStore) :
    Task → SharedStore → Task → Prop
  /-- A step outside of the line for the store. -/
  | aside {t next : Task} : ¬ t.Stands → ¬ next.Stands → next.OfUser → UserStep now i s t s next
  | enters {t : Task} {visitor : Visitor} {request : Request} :
      ¬ t.Stands → visitor.Uses → request.check = .ok () →
      UserStep now i s t (s.enter i) (.visiting visitor (.waiting request))
  | retires {t : Task} : ¬ t.Stands → UserStep now i s t (s.enter i) .closing
  | acts {visitor : Visitor} {request : Request} {change : Change Reply} :
      s.lock.holder = some i → request.plan s.config now s.table = .ok change →
      UserStep now i s (.visiting visitor (.waiting request)) (s.commit change).1
        (.visiting visitor (.sending change.events change.events.length change.result))
  | fails {visitor : Visitor} {request : Request} {e : StoreError} :
      s.lock.holder = some i → request.plan s.config now s.table = .error e →
      UserStep now i s (.visiting visitor (.waiting request)) s
        (.visiting visitor (.leaving (.error e)))
  | sends {visitor : Visitor} {event : Event} {rest : List Event} {count : Nat} {reply : Reply}
      {events : Channel Event} :
      s.events.send event = .sent events →
      UserStep now i s (.visiting visitor (.sending (event :: rest) count reply))
        { s with events := events } (.visiting visitor (.sending rest count reply))
  /-- The channel is closed. -/
  | finds {visitor : Visitor} {event : Event} {rest : List Event} {count : Nat} {reply : Reply} :
      s.events.send event = .closed →
      UserStep now i s (.visiting visitor (.sending (event :: rest) count reply)) s
        (.visiting visitor (.leaving (.error .channelClosed)))
  /-- There is no room, and the store was told to stop. -/
  | abandons {visitor : Visitor} {event : Event} {rest : List Event} {count : Nat}
      {reply : Reply} :
      s.events.send event = .full → s.cancelled = true →
      UserStep now i s (.visiting visitor (.sending (event :: rest) count reply)) s
        (.visiting visitor (.leaving (.error .cancelled)))
  | sent {visitor : Visitor} {count : Nat} {reply : Reply} :
      UserStep now i s (.visiting visitor (.sending [] count reply))
        (s.count .eventsEmitted count) (.visiting visitor (.leaving (.ok reply)))
  | leaves {visitor : Visitor} {result : Except StoreError Reply} {next : Task} :
      ¬ next.Stands → next.OfUser →
      UserStep now i s (.visiting visitor (.leaving result)) { s with lock := s.lock.release } next
  /-- A refresher that was told to stop goes to the end of the line. -/
  | turns {result : Except StoreError Reply} :
      UserStep now i s (.visiting .refresher (.leaving result))
        { s with lock := s.lock.release.request i } .closing
  | closes : s.lock.holder = some i → UserStep now i s .closing s.close .stopped

namespace Pipeline

variable {p q : Pipeline} {i : Nat} {t : Task} {visitor : Visitor} {visit : Visit}

theorem userStep_of_stepVisit? (uses : visitor.Uses)
    (stepped : p.stepVisit? i visitor visit = some q) :
    ∃ store next, UserStep p.now i p.store (.visiting visitor visit) store next ∧
      q = (p.withStore store).put i next := by
  obtain ⟨store, next, step, same⟩ | ⟨store, result, step, same⟩ := stepVisit?_cases stepped
  · cases step with
    | acts holder planned => exact ⟨_, _, .acts holder planned, same⟩
    | fails holder planned => exact ⟨_, _, .fails holder planned, same⟩
    | sends sent => exact ⟨_, _, .sends sent, same⟩
    | sent => exact ⟨_, _, .sent, same⟩
    | @breaks event rest count reply _ _ unsent =>
      simp only [stepVisit?, SharedStore.step?, SharedStore.publish?] at stepped
      cases sending : p.store.events.send event with
      | sent events => exact absurd sending (unsent events)
      | closed =>
        simp only [sending, Option.some.injEq] at stepped
        exact ⟨_, _, .finds sending, stepped.symm⟩
      | full =>
        by_cases cancelled : p.store.cancelled = true
        · simp only [sending, cancelled, if_true, Option.some.injEq] at stepped
          exact ⟨_, _, .abandons sending cancelled, stepped.symm⟩
        · simp only [sending, cancelled] at stepped
          cases stepped
  · cases step
    cases visitor with
    | caller => exact ⟨_, _, .leaves id (.answered result), same⟩
    | refresher =>
      simp only [leave] at same
      split at same
      · exact ⟨_, _, .turns, same⟩
      · exact ⟨_, _, .leaves id .refreshing, same⟩
    | _ => exact absurd uses id

theorem userStep_of_step? (here : p.tasks[i]? = some t) (user : t.OfUser)
    (stepped : step? i p = some q) :
    ∃ store next, UserStep p.now i p.store t store next ∧ q = (p.withStore store).put i next := by
  have step := taskStep_of_task here stepped
  cases user with
  | calling call =>
    cases step
    rw [begin_toCall]
    cases admitted : call.toRequest with
    | ok request =>
      have uses : Visitor.caller.Uses := trivial
      exact ⟨_, _, .enters id uses (StoreCall.check_of_toRequest admitted), rfl⟩
    | error e => exact ⟨_, _, .aside id id (.answered _), rfl⟩
  | waiting uses =>
    cases step with
    | visits stepped => exact userStep_of_stepVisit? uses stepped
  | begun uses =>
    cases step with
    | visits stepped => exact userStep_of_stepVisit? uses stepped
  | refreshing =>
    cases step with
    | rests => exact ⟨_, _, .aside id id (.resting _), rfl⟩
    | retires => exact ⟨_, _, .retires id, rfl⟩
  | resting deadline =>
    cases step with
    | refreshes =>
      have uses : Visitor.refresher.Uses := trivial
      exact ⟨_, _, .enters id uses rfl, rfl⟩
    | wakes => exact ⟨_, _, .retires id, rfl⟩
  | closing =>
    cases step with
    | closes held => exact ⟨_, _, .closes (Lock.holder_of_heldBy held), rfl⟩
  | answered | stopped => cases step

end Pipeline

namespace UserStep

variable {now : Instant} {i : Nat} {s after : SharedStore} {t next : Task}
  {task : Nat → Option Task}

theorem config_eq (step : UserStep now i s t after next) : after.config = s.config := by
  cases step <;> rfl

theorem hasReceiver_eq (step : UserStep now i s t after next) :
    after.events.hasReceiver = s.events.hasReceiver := by
  cases step with
  | sends sent =>
    obtain ⟨-, -, rfl⟩ := Channel.eq_of_sent sent
    rfl
  | _ => rfl

theorem ofUser (step : UserStep now i s t after next) (user : t.OfUser) : next.OfUser := by
  have uses : ∀ {visitor visit}, t = .visiting visitor visit → visitor.Uses := by
    rintro visitor visit rfl
    cases user <;> assumption
  cases step with
  | aside _ _ next => exact next
  | enters _ uses checked => exact .waiting uses checked
  | retires => exact .closing
  | leaves _ next => exact next
  | turns => exact .closing
  | closes => exact .stopped
  | _ => exact .begun (uses rfl) trivial

theorem inLine (step : UserStep now i s t after next) (h : InLine s.lock task)
    (here : task i = some t) : InLine after.lock (placed task i next) := by
  have begun : ∀ {visitor visit}, t = .visiting visitor visit → visit.Begun →
      s.lock.holder = some i := by
    rintro visitor visit rfl begun
    exact h.holding i visitor visit here begun
  cases step with
  | aside out stays =>
    refine h.stay here (iff_of_false out stays) ?_
    rintro visitor visit rfl
    exact absurd trivial stays
  | enters out =>
    refine h.enter here out trivial fun visitor visit same => ?_
    cases same
    exact id
  | retires out =>
    refine h.enter here out trivial fun visitor visit same => ?_
    cases same
  | acts holder | fails holder => exact h.stay here Iff.rfl fun _ _ _ _ => holder
  | leaves out => exact h.leave (begun rfl trivial) out
  | turns =>
    -- out of the line, and at once to its end
    have left : InLine s.lock.release (placed task i .refreshing) :=
      h.leave (begun rfl trivial) id
    rw [← placed_placed task i .refreshing .closing]
    refine left.enter (placed_self ..) id trivial fun visitor visit same => ?_
    cases same
  | closes holder => exact h.leave holder id
  | _ => exact h.stay here Iff.rfl fun _ _ _ _ => begun rfl trivial

end UserStep

end Candlestick
