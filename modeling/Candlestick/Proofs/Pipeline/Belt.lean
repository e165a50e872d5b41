import Candlestick.Proofs.Batcher.Flow
import Candlestick.Proofs.Pipeline.Move

/-!
# From the store to the broadcaster

The belt of a pipeline is what lies between the store and the broadcaster: the batcher with
its two channels, what was published, and the counters of the publisher. `BeltStep` lists
what a step of a task can do to it, with what an observer writes down; most tasks leave it
as it is. `carried_of_step?` shows the list complete.
-/

namespace Candlestick

/-- Messages that were handed to the broadcaster, and whether it failed to publish them. -/
structure Attempt where
  messages : List Message
  failed : Bool
  deriving DecidableEq

structure Log where
  /-- The events that the store put on its channel. -/
  emitted : List Event := []
  /-- The batches that the publisher took. -/
  taken : List (List Event) := []
  /-- The publishes that are over. -/
  attempts : List Attempt := []
  deriving DecidableEq

namespace Log

def add (log more : Log) : Log :=
  ⟨log.emitted ++ more.emitted, log.taken ++ more.taken, log.attempts ++ more.attempts⟩

def failures (log : Log) : Nat := log.attempts.countP Attempt.failed

def published (log : Log) : List (List Message) :=
  (log.attempts.filter fun a => !a.failed).map Attempt.messages

def messages (log : Log) : Nat := log.published.flatten.length

section
variable (log more : Log)

theorem add_nothing : log.add {} = log := by
  simp [add]

@[simp] theorem emitted_add : (log.add more).emitted = log.emitted ++ more.emitted := rfl

@[simp] theorem taken_add : (log.add more).taken = log.taken ++ more.taken := rfl

@[simp] theorem attempts_add : (log.add more).attempts = log.attempts ++ more.attempts := rfl

@[simp] theorem failures_add : (log.add more).failures = log.failures + more.failures := by
  simp [failures]

@[simp] theorem published_add : (log.add more).published = log.published ++ more.published := by
  simp [published]

@[simp] theorem messages_add : (log.add more).messages = log.messages + more.messages := by
  simp [messages]

end

end Log

structure Belt where
  batching : Batching Event
  batch : BatchConfig
  /-- Whether the store was told to stop. -/
  cancelled : Bool
  /-- Whether the broadcaster keeps what it is given. -/
  recording : Bool
  published : List (List Message)
  flushed : UInt64
  failures : UInt64
  messages : UInt64

/-- A task that neither gathers batches nor publishes them. -/
def Task.Upstream : Task → Prop
  | .batching => False
  | .listening => False
  | .publishing _ _ _ => False
  | _ => True

/-- What a step of a task can do to the belt, at a time, and what is written down. -/
inductive BeltStep (millis : Nat) (b : Belt) : Task → Log → Belt → Task → Prop
  /-- Anything that leaves the belt as it is. -/
  | aside {t next : Task} : t.Upstream → next.Upstream → BeltStep millis b t {} b next
  | emits {visitor : Visitor} {event : Event} {rest : List Event} {count : Nat} {reply : Reply}
      {input : Channel Event} :
      b.batching.input.send event = .sent input →
      BeltStep millis b (.visiting visitor (.sending (event :: rest) count reply))
        { emitted := [event] } { b with batching := { b.batching with input := input } }
        (.visiting visitor (.sending rest count reply))
  /-- The store gives up its end of the channel. -/
  | closes :
      BeltStep millis b .closing {}
        { b with batching := { b.batching with input := b.batching.input.dropSender } } .stopped
  | gathers {batching : Batching Event} :
      Batching.BatchStep b.batch millis b.cancelled b.batching batching →
      BeltStep millis b .batching {} { b with batching := batching } .batching
  | takes {batch : List Event} {output : Channel (List Event)} {began deadline : Nat} :
      b.batching.output.receive = .item batch output →
      BeltStep millis b .listening { taken := [batch] }
        { b with batching := { b.batching with output := output }, flushed := b.flushed + 1 }
        (.publishing (Message.ofEvents batch) began deadline)
  | ends :
      b.batching.output.receive = .ended → BeltStep millis b .listening {} b .stopped
  | fails {messages : List Message} {began deadline : Nat} :
      b.recording = true →
      BeltStep millis b (.publishing messages began deadline) { attempts := [⟨messages, true⟩] }
        { b with failures := b.failures + 1 } .listening
  | publishes {messages : List Message} {began deadline : Nat} :
      b.recording = true →
      BeltStep millis b (.publishing messages began deadline) { attempts := [⟨messages, false⟩] }
        { b with
          published := b.published ++ [messages]
          messages := b.messages + UInt64.ofNat messages.length } .listening
  /-- A broadcaster that keeps nothing never fails. -/
  | passes {messages : List Message} {began deadline : Nat} :
      b.recording = false →
      BeltStep millis b (.publishing messages began deadline) { attempts := [⟨messages, false⟩] }
        { b with messages := b.messages + UInt64.ofNat messages.length } .listening

theorem BeltStep.upstream {millis : Nat} {b next : Belt} {t u : Task} {more : Log}
    (step : BeltStep millis b t more next u) (up : t.Upstream) : u.Upstream := by
  cases step with
  | aside _ next => exact next
  | emits | closes => exact trivial
  | _ => exact absurd up id

namespace Pipeline

variable {p q : Pipeline} {i : Nat}

def belt (p : Pipeline) : Belt where
  batching := p.joined
  batch := p.batch
  cancelled := p.store.cancelled
  recording := p.broadcaster.recording
  published := p.published.toList.map Publication.messages
  flushed := p.store.metrics.counters.batchesFlushed
  failures := p.store.metrics.counters.broadcastFailures
  messages := p.store.metrics.counters.messagesBroadcast

def noted (p : Pipeline) : Task → Log
  | .visiting _ (.sending (event :: _) _ _) =>
    match p.store.events.send event with
    | .sent _ => { emitted := [event] }
    | _ => {}
  | .listening =>
    match p.batches.receive with
    | .item batch _ => { taken := [batch] }
    | _ => {}
  | .publishing messages _ _ =>
    { attempts := [⟨messages, p.broadcaster.recording && p.broadcaster.failing⟩] }
  | _ => {}

-- ---------------------------------------------------------------------------
-- Steps that the belt does not see
-- ---------------------------------------------------------------------------

structure Carried (p : Pipeline) (i : Nat) (t : Task) (q : Pipeline) (next : Task) : Prop where
  tasks : q.tasks = p.tasks.setIfInBounds i next
  step : BeltStep p.millis p.belt t (p.noted t) q.belt next

theorem Carried.task_of_ne {t next : Task} (carried : Carried p i t q next) {j : Nat}
    (other : i ≠ j) : q.tasks[j]? = p.tasks[j]? := by
  rw [carried.tasks, Array.getElem?_setIfInBounds_ne other]

theorem Carried.task_self {t next : Task} (carried : Carried p i t q next)
    (here : p.tasks[i]? = some t) : q.tasks[i]? = some next := by
  have inside := (Array.getElem?_eq_some_iff.mp here).1
  rw [carried.tasks, Array.getElem?_setIfInBounds_self_of_lt inside]

theorem carried_aside {t next : Task} (tasks : q.tasks = p.tasks.setIfInBounds i next)
    (belt : q.belt = p.belt) (nothing : p.noted t = {}) (up : t.Upstream)
    (down : next.Upstream) : Carried p i t q next :=
  ⟨tasks, by rw [belt, nothing]; exact .aside up down⟩

theorem belt_conclude (p : Pipeline) (i path : Nat) (result : Except IngestError Ingested) :
    (p.conclude i path result).belt = p.belt := by
  cases result with
  | ok ingested => cases ingested <;> rfl
  | error e => rfl

theorem begin_carried (p : Pipeline) (i : Nat) (call : Call) :
    ∃ next, Carried p i (.calling call) (p.begin i call) next := by
  cases call with
  | store request | record record =>
    unfold begin
    dsimp only
    split
    · exact ⟨_, carried_aside rfl rfl rfl trivial trivial⟩
    · exact ⟨_, carried_aside rfl rfl rfl trivial trivial⟩
  | deliver path delivery => exact ⟨_, carried_aside rfl rfl rfl trivial trivial⟩

theorem handle_carried (p : Pipeline) (i path : Nat) (delivery : Delivery) :
    ∃ next, Carried p i (.delivering path delivery) (p.handle i path delivery) next := by
  have concluded (result : Except IngestError Ingested) :
      ∃ next, Carried p i (.delivering path delivery) (p.conclude i path result) next :=
    ⟨_, carried_aside (tasks_conclude ..) (belt_conclude ..) rfl trivial trivial⟩
  unfold handle
  split
  · exact concluded _
  · exact concluded _
  · split
    · exact concluded _
    · exact ⟨_, carried_aside rfl rfl rfl trivial trivial⟩

theorem settleClaim_carried (p : Pipeline) (i path : Nat) (deal : Deal)
    (result : Except StoreError Reply) :
    ∃ next, Carried p i (.concluding path deal result) (p.settleClaim i path deal result) next := by
  cases result with
  | ok reply => exact ⟨_, carried_aside (tasks_conclude ..) (belt_conclude ..) rfl trivial trivial⟩
  | error e =>
    have released : { p with window := p.window.release deal.id }.belt = p.belt := rfl
    exact ⟨_, carried_aside (tasks_conclude ..) ((belt_conclude ..).trans released) rfl trivial
      trivial⟩

theorem leave_carried (p : Pipeline) (i : Nat) (result : Except StoreError Reply)
    (visitor : Visitor) :
    ∃ next, Carried p i (.visiting visitor (.leaving result))
      ((p.withStore { p.store with lock := p.store.lock.release }).leave i result visitor)
      next := by
  unfold leave
  repeat' split
  all_goals exact ⟨_, carried_aside rfl rfl rfl trivial trivial⟩

-- ---------------------------------------------------------------------------
-- Steps that move the belt
-- ---------------------------------------------------------------------------

theorem stepVisit?_carried {visitor : Visitor} {visit : Visit}
    (h : p.stepVisit? i visitor visit = some q) :
    ∃ next, Carried p i (.visiting visitor visit) q next := by
  obtain ⟨store, next, step, rfl⟩ | ⟨store, result, step, rfl⟩ := stepVisit?_cases h
  · refine ⟨.visiting visitor next, ?_⟩
    cases step with
    | acts | fails | sent => exact carried_aside rfl rfl rfl trivial trivial
    | sends sent =>
      refine ⟨rfl, ?_⟩
      rw [noted, sent]
      exact .emits sent
    | breaks _ unsent =>
      refine carried_aside rfl rfl ?_ trivial trivial
      rw [noted]
      split
      · next sent => exact absurd sent (unsent _)
      · rfl
  · cases step
    exact leave_carried p i result visitor

theorem publish_carried (p : Pipeline) (i : Nat) (messages : List Message) (began deadline : Nat) :
    Carried p i (.publishing messages began deadline) (p.publish i messages began) .listening := by
  unfold publish
  dsimp only
  split
  · next failing =>
    refine ⟨rfl, ?_⟩
    rw [noted, failing]
    exact .fails (Bool.and_eq_true_iff.mp failing).1
  · next works =>
    rw [Bool.not_eq_true] at works
    split
    · next recording =>
      refine ⟨rfl, ?_⟩
      have kept : p.belt.recording = true := recording
      have pushed : (p.published.push ⟨began, messages⟩).toList.map Publication.messages =
          p.belt.published ++ [messages] := by
        simp [belt]
      have step : BeltStep p.millis p.belt (.publishing messages began deadline)
          { attempts := [⟨messages, false⟩] } _ .listening := .publishes kept
      rw [← pushed] at step
      rw [noted, works]
      exact step
    · next silent =>
      refine ⟨rfl, ?_⟩
      have kept : p.belt.recording = false := (Bool.not_eq_true _).mp silent
      rw [noted, works]
      exact .passes kept

theorem batching_carried {b : Batching Event} (found : p.tasks[i]? = some .batching)
    (step : Batching.BatchStep p.batch p.millis p.store.cancelled p.joined b) :
    Carried p i .batching (p.withJoined b) .batching :=
  ⟨(batching_moves found b).tasks, .gathers step⟩

theorem carried_of_step? (h : step? i p = some q) :
    ∃ t next, p.tasks[i]? = some t ∧ Carried p i t q next := by
  obtain ⟨t, here, step⟩ := taskStep_of_step? h
  suffices ∃ next, Carried p i t q next by
    obtain ⟨next, carried⟩ := this
    exact ⟨t, next, here, carried⟩
  cases step with
  | begins call => exact begin_carried p i call
  | handles => exact handle_carried ..
  | visits step => exact stepVisit?_carried step
  | settles path deal result => exact settleClaim_carried p i path deal result
  | closes => exact ⟨_, rfl, .closes⟩
  | gathers batched =>
    exact ⟨_, batching_carried here (Batching.batchStep_of_step? batched)⟩
  | takes received =>
    refine ⟨_, rfl, ?_⟩
    rw [noted, received]
    exact .takes received
  | ends ended =>
    refine ⟨_, rfl, ?_⟩
    rw [noted, ended]
    exact .ends ended
  | publishes => exact ⟨_, publish_carried ..⟩
  | seeded | seeds | rests | refreshes | retires | wakes =>
    exact ⟨_, carried_aside rfl rfl rfl trivial trivial⟩

end Pipeline

end Candlestick
