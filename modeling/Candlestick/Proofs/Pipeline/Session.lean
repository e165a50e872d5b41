import Candlestick.Proofs.Pipeline.Order
import Candlestick.Schedule.Reach
import Candlestick.Store.Call

/-!
# Sessions of a store

Calls to one store, started at any moments and taking steps in any order, while somebody
takes events off the channel at any pace and the clock does what it likes. An observer keeps
a journal. `CallStep` lists what a step of a call does to the store, and `callStep_of_step?`
shows the list complete.
-/

namespace Candlestick

def StoreCall.toCall : StoreCall → Call
  | request r => .store r
  | record r => .record r

theorem StoreCall.toCall_injective {a b : StoreCall} (h : a.toCall = b.toCall) : a = b := by
  cases a <;> cases b <;> cases h <;> rfl

namespace Pipeline

def start (p : Pipeline) (call : StoreCall) : Pipeline :=
  { p with tasks := p.tasks.push (.calling call.toCall) }

def elapse (p : Pipeline) (clock : Clock) (millis : Nat) : Pipeline :=
  { p with clock := clock, millis := millis }

theorem begin_toCall (p : Pipeline) (i : Nat) (call : StoreCall) :
    p.begin i call.toCall =
      match call.toRequest with
      | .ok request => p.visit i .caller request
      | .error e => p.reply i (.error e) := by
  cases call with
  | request r =>
    simp only [StoreCall.toCall, begin, StoreCall.toRequest]
    cases r.check <;> rfl
  | record r =>
    simp only [StoreCall.toCall, begin, StoreCall.toRequest]
    cases Deal.ofRecord r <;> rfl

end Pipeline

-- ---------------------------------------------------------------------------
-- Journals
-- ---------------------------------------------------------------------------

structure Entry where
  who : Nat
  dated : DatedRequest

structure Journal where
  /-- The calls, by their numbers. -/
  asked : List StoreCall := []
  /-- Who was given the lock, the first one first. -/
  granted : List Nat := []
  log : List Entry := []
  received : List Event := []

/-- What a task carries out with its next step. -/
def Task.logged? (now : Instant) (i : Nat) : Task → Option Entry
  | .visiting _ (.waiting request) => some ⟨i, ⟨now, request⟩⟩
  | _ => none

def Lock.grant (before after : Lock) : List Nat :=
  if after.holder = before.holder then [] else after.holder.toList

namespace Journal

def callers (j : Journal) : List Nat := j.log.map Entry.who

def requests (j : Journal) : List DatedRequest := j.log.map Entry.dated

def step (j : Journal) (p q : Pipeline) (i : Nat) : Journal :=
  { j with
    granted := j.granted ++ p.store.lock.grant q.store.lock
    log := j.log ++ (p.tasks[i]?.bind (Task.logged? p.now i)).toList }

end Journal

/-- From a start to a state, with the journal kept on the way. -/
inductive Session (start : Pipeline) : Pipeline → Journal → Prop
  | start : Session start start {}
  | calls {p : Pipeline} {j : Journal} (call : StoreCall) :
      Session start p j →
      Session start (p.start call) { j with asked := j.asked ++ [call] }
  | step {p q : Pipeline} {j : Journal} {i : Nat} :
      Session start p j → Pipeline.step? i p = some q → Session start q (j.step p q i)
  | takes {p : Pipeline} {j : Journal} {event : Event} {events : Channel Event} :
      Session start p j → p.store.events.receive = .item event events →
      Session start (p.withStore { p.store with events := events })
        { j with received := j.received ++ [event] }
  | elapses {p : Pipeline} {j : Journal} (clock : Clock) (millis : Nat) :
      Session start p j → Session start (p.elapse clock millis) j

inductive Happening where
  | calls (call : StoreCall)
  | step (i : Nat)
  | takes
  | elapses (clock : Clock) (millis : Nat)

def Happening.happen? (p : Pipeline) (j : Journal) : Happening → Option (Pipeline × Journal)
  | calls call => some (p.start call, { j with asked := j.asked ++ [call] })
  | step i =>
    match Pipeline.step? i p with
    | some q => some (q, j.step p q i)
    | none => none
  | takes =>
    match p.store.events.receive with
    | .item event events =>
      some (p.withStore { p.store with events := events },
        { j with received := j.received ++ [event] })
    | _ => none
  | elapses clock millis => some (p.elapse clock millis, j)

def Pipeline.play? (p : Pipeline) (j : Journal) : List Happening → Option (Pipeline × Journal)
  | [] => some (p, j)
  | first :: rest =>
    match first.happen? p j with
    | some (q, k) => q.play? k rest
    | none => none

theorem Session.happen {start p q : Pipeline} {j k : Journal} {h : Happening}
    (session : Session start p j) (happened : h.happen? p j = some (q, k)) :
    Session start q k := by
  cases h with
  | calls call =>
    cases happened
    exact session.calls call
  | step i =>
    dsimp only [Happening.happen?] at happened
    split at happened
    · next stepped =>
      cases happened
      exact session.step stepped
    · cases happened
  | takes =>
    dsimp only [Happening.happen?] at happened
    split at happened
    · next taken =>
      cases happened
      exact session.takes taken
    · cases happened
  | elapses clock millis =>
    cases happened
    exact session.elapses clock millis

theorem Session.play {start p q : Pipeline} {j k : Journal} {happenings : List Happening}
    (session : Session start p j) (played : p.play? j happenings = some (q, k)) :
    Session start q k := by
  induction happenings generalizing p j with
  | nil =>
    cases played
    exact session
  | cons first rest ih =>
    unfold Pipeline.play? at played
    split at played
    · next happened => exact ih (session.happen happened) played
    · cases played

structure Idle (p : Pipeline) : Prop where
  tasks : p.tasks = #[]
  lock : p.store.lock = {}
  events : ∃ capacity, p.store.events = .create capacity
  going : p.store.cancelled = false

/-- Every order of steps is a session, however a schedule picks it. -/
theorem Session.reaches {start p q : Pipeline} {j : Journal} (session : Session start p j)
    (reach : Pipeline.system.Reaches p q) :
    ∃ k, Session start q k ∧ k.asked = j.asked ∧ k.received = j.received := by
  induction reach with
  | refl => exact ⟨j, session, rfl, rfl⟩
  | step i _ moved ih =>
    obtain ⟨k, session, asked, received⟩ := ih
    exact ⟨_, session.step moved, asked, received⟩
  | wait time _ _ ih =>
    obtain ⟨k, session, asked, received⟩ := ih
    exact ⟨k, session.elapses _ time, asked, received⟩

-- ---------------------------------------------------------------------------
-- Steps of calls
-- ---------------------------------------------------------------------------

/-- A store that publishes: somebody listens, and nobody told it to stop. -/
structure SharedStore.Open (s : SharedStore) : Prop where
  sender : s.events.hasSender = true
  receiver : s.events.hasReceiver = true
  room : 0 < s.events.capacity
  going : s.cancelled = false

inductive Task.OfCall : Task → Prop
  | calling (call : StoreCall) : OfCall (.calling call.toCall)
  | visiting (visit : Visit) : OfCall (.visiting .caller visit)
  | answered (result : Except StoreError Reply) : OfCall (.answered (.replied result))

/-- What a step of call `i` does to the store that all calls share, at a clock
reading. -/
inductive CallStep (now : Instant) (i : Nat) (s : SharedStore) :
    Task → SharedStore → Task → Prop
  | enters {call : StoreCall} {request : Request} :
      call.toRequest = .ok request →
      CallStep now i s (.calling call.toCall) (s.enter i) (.visiting .caller (.waiting request))
  | refused {call : StoreCall} {e : StoreError} :
      call.toRequest = .error e →
      CallStep now i s (.calling call.toCall) s (.answered (.replied (.error e)))
  | acts {request : Request} {change : Change Reply} :
      s.lock.holder = some i → request.plan s.config now s.table = .ok change →
      CallStep now i s (.visiting .caller (.waiting request)) (s.commit change).1
        (.visiting .caller (.sending change.events change.events.length change.result))
  | fails {request : Request} {e : StoreError} :
      s.lock.holder = some i → request.plan s.config now s.table = .error e →
      CallStep now i s (.visiting .caller (.waiting request)) s
        (.visiting .caller (.leaving (.error e)))
  | sends {event : Event} {rest : List Event} {count : Nat} {reply : Reply}
      {events : Channel Event} :
      s.events.send event = .sent events →
      CallStep now i s (.visiting .caller (.sending (event :: rest) count reply))
        { s with events := events } (.visiting .caller (.sending rest count reply))
  | sent {count : Nat} {reply : Reply} :
      CallStep now i s (.visiting .caller (.sending [] count reply))
        (s.count .eventsEmitted count) (.visiting .caller (.leaving (.ok reply)))
  | leaves {result : Except StoreError Reply} :
      CallStep now i s (.visiting .caller (.leaving result))
        { s with lock := s.lock.release } (.answered (.replied result))

namespace SharedStore.Open

variable {s : SharedStore}

theorem takes (opened : s.Open) {event : Event} {events : Channel Event}
    (taken : s.events.receive = .item event events) : Open { s with events := events } := by
  obtain ⟨rest, rfl⟩ : ∃ rest, events = { s.events with items := rest } := by
    unfold Channel.receive at taken
    split at taken
    · next rest _ =>
      cases taken
      exact ⟨rest, rfl⟩
    · split at taken <;> cases taken
  exact ⟨opened.sender, opened.receiver, opened.room, opened.going⟩

theorem send_cases (opened : s.Open) (event : Event) :
    (s.events.items.length < s.events.capacity ∧
      s.events.send event = .sent { s.events with items := s.events.items ++ [event] }) ∨
    (s.events.capacity ≤ s.events.items.length ∧ s.events.send event = .full) := by
  have joined : (s.events.hasSender && s.events.hasReceiver) = true := by
    rw [opened.sender, opened.receiver]
    rfl
  unfold Channel.send
  rw [if_pos joined]
  by_cases room : s.events.items.length < s.events.capacity
  · exact .inl ⟨room, if_pos room⟩
  · exact .inr ⟨by omega, if_neg room⟩

theorem publish?_cases (opened : s.Open) (event : Event) (rest : List Event) (count : Nat)
    (reply : Reply) :
    (∃ events, s.events.send event = .sent events ∧
      s.publish? event rest count reply =
        some ({ s with events := events }, .sending rest count reply)) ∨
    (s.events.items ≠ [] ∧ s.publish? event rest count reply = none) := by
  rcases opened.send_cases event with ⟨-, sent⟩ | ⟨full, sent⟩
  · exact .inl ⟨_, sent, by simp [publish?, sent]⟩
  · have room := opened.room
    refine .inr ⟨fun empty => ?_, by simp [publish?, sent, opened.going]⟩
    rw [empty, List.length_nil] at full
    omega

end SharedStore.Open

namespace Pipeline

variable {p q : Pipeline} {i : Nat} {t : Task}

theorem callStep_of_stepVisit? (opened : p.store.Open) {visit : Visit}
    (stepped : p.stepVisit? i .caller visit = some q) :
    ∃ store next, CallStep p.now i p.store (.visiting .caller visit) store next ∧
      q = (p.withStore store).put i next := by
  obtain ⟨store, next, step, same⟩ | ⟨store, result, step, same⟩ := stepVisit?_cases stepped
  · cases step with
    | acts holder planned => exact ⟨_, _, .acts holder planned, same⟩
    | fails holder planned => exact ⟨_, _, .fails holder planned, same⟩
    | sends sent => exact ⟨_, _, .sends sent, same⟩
    | sent => exact ⟨_, _, .sent, same⟩
    | @breaks event rest count reply _ _ unsent =>
      rcases opened.publish?_cases event rest count reply with ⟨events, sent, -⟩ | ⟨-, full⟩
      · exact absurd sent (unsent events)
      · simp only [stepVisit?, SharedStore.step?, full] at stepped
        cases stepped
  · cases step
    exact ⟨_, _, .leaves, same⟩

theorem callStep_of_step? (opened : p.store.Open) (here : p.tasks[i]? = some t)
    (ofCall : t.OfCall) (stepped : step? i p = some q) :
    ∃ store next, CallStep p.now i p.store t store next ∧ q = (p.withStore store).put i next := by
  have step := taskStep_of_task here stepped
  cases ofCall with
  | calling call =>
    cases step
    rw [begin_toCall]
    cases admitted : call.toRequest with
    | ok request => exact ⟨_, _, .enters admitted, rfl⟩
    | error e => exact ⟨_, _, .refused admitted, rfl⟩
  | visiting visit =>
    cases step with
    | visits stepped => exact callStep_of_stepVisit? opened stepped
  | answered result => cases step

/-- A call without a step has its answer, waits for the lock, or waits for
somebody to take an event. -/
theorem waits_of_step? (opened : p.store.Open) (here : p.tasks[i]? = some t)
    (ofCall : t.OfCall) (waits : step? i p = none) :
    (∃ result, t = .answered (.replied result)) ∨
    (t.Stands ∧ p.store.lock.holder ≠ some i) ∨
    (t.Stands ∧ p.store.events.items ≠ []) := by
  cases ofCall with
  | calling call =>
    simp only [step?, here] at waits
    cases waits
  | visiting visit =>
    simp only [step?, here, stepVisit?] at waits
    cases visit with
    | waiting request =>
      refine .inr (.inl ⟨trivial, fun holder => ?_⟩)
      have held : p.store.lock.heldBy i = true := by simpa [Lock.heldBy] using holder
      simp only [SharedStore.step?, held, if_true] at waits
      cases waits
    | sending events count reply =>
      cases events with
      | nil =>
        simp only [SharedStore.step?] at waits
        cases waits
      | cons event rest =>
        simp only [SharedStore.step?] at waits
        rcases opened.publish?_cases event rest count reply with ⟨events, -, room⟩ | ⟨full, -⟩
        · simp only [room] at waits
          cases waits
        · exact .inr (.inr ⟨trivial, full⟩)
    | leaving result =>
      simp only [SharedStore.step?] at waits
      cases waits
  | answered result => exact .inl ⟨result, rfl⟩

end Pipeline

end Candlestick
