import Candlestick.Proofs.Chart
import Candlestick.Proofs.Pipeline.Belt
import Candlestick.Proofs.Pipeline.Serial
import Candlestick.Schedule.Reach
import Candlestick.Service

/-!
# What a publisher gets

`Broadcasting` admits every order of steps of the tasks of a service while nobody tells the
store to stop. Along every course no event is doubled, skipped or moved (`Flows`), every
batch that was taken was handed over once (`Handing`), the counters tell so (`Counted`), and
with room for its batches the batcher loses nothing (`Lossless`).
-/

namespace Candlestick

-- ---------------------------------------------------------------------------
-- Courses
-- ---------------------------------------------------------------------------

/-- What may happen in a service between the steps of its tasks: calls come and are done
with, the refresher starts, and all but the belt may change. -/
structure Meanwhile (p q : Pipeline) : Prop where
  belt : q.belt = p.belt
  batcher : q.tasks[Service.batcher]? = p.tasks[Service.batcher]?
  publisher : q.tasks[Service.publisher]? = p.tasks[Service.publisher]?
  others : ∀ (i : Nat) t, q.tasks[i]? = some t →
    p.tasks[i]? = some t ∨ (∃ call, t = .calling call) ∨ t = .refreshing

/-- From a start to a state by steps of the tasks in any order and whatever happens
meanwhile, with what an observer writes down. Nobody tells the store to stop. -/
inductive Broadcasting (start : Pipeline) : Pipeline → Log → Prop
  | start : Broadcasting start start {}
  | step {p q : Pipeline} {log : Log} {i : Nat} {t : Task} :
      Broadcasting start p log → p.tasks[i]? = some t → Pipeline.step? i p = some q →
      Broadcasting start q (log.add (p.noted t))
  | meanwhile {p q : Pipeline} {log : Log} :
      Broadcasting start p log → Meanwhile p q → Broadcasting start q log

def Pipeline.follow (p : Pipeline) (log : Log) : List Nat → Pipeline × Log
  | [] => (p, log)
  | i :: rest =>
    match p.tasks[i]?, p.step? i with
    | some t, some q => q.follow (log.add (p.noted t)) rest
    | _, _ => p.follow log rest

theorem Broadcasting.follow {start p : Pipeline} {log : Log} (course : Broadcasting start p log)
    (tasks : List Nat) :
    Broadcasting start (p.follow log tasks).1 (p.follow log tasks).2 := by
  induction tasks generalizing p log with
  | nil => exact course
  | cons i rest ih =>
    unfold Pipeline.follow
    split
    · next here stepped => exact ih (course.step here stepped)
    · exact ih course

-- ---------------------------------------------------------------------------
-- Invariants
-- ---------------------------------------------------------------------------

/-- Where the events are that the store has emitted. -/
structure Flows (b : Belt) (log : Log) : Prop where
  carries : b.batching.Carries log.emitted log.taken.flatten
  joined : b.batching.Joined
  going : b.cancelled = false
  listening : b.batching.output.hasReceiver = true

/-- Where the publisher stands: every batch that it took was handed over, in order, the last
one perhaps not yet published. -/
inductive Handing (b : Belt) (log : Log) : Task → Prop
  | listening :
      log.attempts.map Attempt.messages = log.taken.map Message.ofEvents → Handing b log .listening
  | publishing {messages : List Message} {began deadline : Nat} :
      log.attempts.map Attempt.messages ++ [messages] = log.taken.map Message.ofEvents →
      Handing b log (.publishing messages began deadline)
  | stopped :
      log.attempts.map Attempt.messages = log.taken.map Message.ofEvents →
      b.batching.output.receive = .ended → Handing b log .stopped

structure Counted (b : Belt) (log : Log) : Prop where
  flushed : b.flushed = UInt64.ofNat log.taken.length
  failures : b.failures = UInt64.ofNat log.failures
  messages : b.messages = UInt64.ofNat log.messages
  published : b.recording = true → b.published = log.published

/-- The tasks of a service: one batcher, one publisher, and those that work upstream. -/
structure Manned (p : Pipeline) (log : Log) : Prop where
  batcher : p.tasks[Service.batcher]? = some .batching
  publisher : ∃ t, p.tasks[Service.publisher]? = some t ∧ Handing p.belt log t
  others : ∀ (i : Nat) t, p.tasks[i]? = some t → i ≠ Service.batcher → i ≠ Service.publisher →
    t.Upstream

section
variable {b after : Belt} {log more : Log} {t next u : Task} {millis : Nat}

theorem Flows.step (h : Flows b log) (step : BeltStep millis b t more after next) :
    Flows after (log.add more) := by
  cases step with
  | emits sent =>
    exact ⟨by simpa using h.carries.sends sent, h.joined.sends sent, h.going, h.listening⟩
  | closes =>
    exact ⟨by simpa using h.carries.hangsUp,
      ⟨h.joined.reading, h.joined.writing, h.joined.inward, h.joined.outward⟩, h.going, h.listening⟩
  | gathers step =>
    exact ⟨by simpa using h.carries.step step, h.joined.step step, h.going,
      step.far_ends.2.trans h.listening⟩
  | takes received =>
    have listening := congrArg Channel.hasReceiver (Channel.eq_of_received received).2
    exact ⟨by simpa using h.carries.takes received, h.joined.takes received, h.going,
      listening.trans h.listening⟩
  | _ => exact ⟨by simpa using h.carries, h.joined, h.going, h.listening⟩

theorem Counted.quiet (h : Counted b log) (batching : Batching Event) (emitted : List Event) :
    Counted { b with batching := batching } (log.add { emitted := emitted }) :=
  ⟨by simpa using h.flushed, by simpa [Log.failures] using h.failures,
    by simpa [Log.messages, Log.published] using h.messages,
    by simpa [Log.published] using h.published⟩

theorem Counted.step (h : Counted b log) (step : BeltStep millis b t more after next) :
    Counted after (log.add more) := by
  cases step with
  | takes | fails =>
    exact ⟨by simp [h.flushed], by simp [Log.failures, h.failures],
      by simp [Log.messages, Log.published, h.messages],
      fun recording => by simp [Log.published, h.published recording]⟩
  | publishes recording =>
    exact ⟨by simp [h.flushed], by simp [Log.failures, h.failures],
      by simp [Log.messages, Log.published, h.messages],
      fun _ => by simp [Log.published, h.published recording]⟩
  | passes silent =>
    exact ⟨by simp [h.flushed], by simp [Log.failures, h.failures],
      by simp [Log.messages, Log.published, h.messages],
      fun recording => absurd (silent.symm.trans recording) Bool.false_ne_true⟩
  | _ => exact h.quiet _ _

theorem Handing.upstream (h : Handing b log u) (step : BeltStep millis b t more after next)
    (up : t.Upstream) : Handing after (log.add more) u := by
  obtain ⟨taken, attempts, output⟩ : more.taken = [] ∧ more.attempts = [] ∧
      after.batching.output = b.batching.output := by
    cases step with
    | aside | emits | closes => exact ⟨rfl, rfl, rfl⟩
    | _ => exact absurd up id
  cases h with
  | listening handed => exact .listening (by simpa [taken, attempts] using handed)
  | publishing handed => exact .publishing (by simpa [taken, attempts] using handed)
  | stopped handed ended =>
    exact .stopped (by simpa [taken, attempts] using handed) (by rw [output]; exact ended)

/-- A batcher that goes on has a publisher that has not seen the end. -/
theorem Handing.gathers (h : Handing b log u) (joined : b.batching.Joined)
    {batching : Batching Event}
    (step : Batching.BatchStep b.batch millis b.cancelled b.batching batching) :
    Handing { b with batching := batching } log u := by
  cases h with
  | listening handed => exact .listening handed
  | publishing handed => exact .publishing handed
  | stopped handed ended =>
    have gone := (Channel.receive_eq_ended.mp ended).2
    exact absurd (gone.symm.trans (joined.writing.mpr step.running)) Bool.false_ne_true

theorem Handing.step (h : Handing b log t) (step : BeltStep millis b t more after next)
    (busy : t ≠ .stopped) : Handing after (log.add more) next := by
  cases h with
  | listening handed =>
    cases step with
    | aside up => exact absurd up id
    | takes => exact .publishing (by simp [handed])
    | ends ended => exact .stopped (by simpa using handed) ended
  | publishing handed =>
    cases step with
    | aside up => exact absurd up id
    | fails | publishes | passes => exact .listening (by simpa using handed)
  | stopped => exact absurd rfl busy

end

-- ---------------------------------------------------------------------------
-- One step of a pipeline
-- ---------------------------------------------------------------------------

section
variable {p q : Pipeline} {log : Log} {i : Nat} {t next : Task}

theorem Pipeline.not_stopped (here : p.tasks[i]? = some t) (stepped : Pipeline.step? i p = some q) :
    t ≠ .stopped := by
  rintro rfl
  simp [Pipeline.step?, here] at stepped

theorem Manned.step (h : Manned p log) (flows : Flows p.belt log) (here : p.tasks[i]? = some t)
    (busy : t ≠ .stopped) (carried : p.Carried i t q next) : Manned q (log.add (p.noted t)) := by
  obtain ⟨u, publisher, stage⟩ := h.publisher
  have kept {j : Nat} (other : i ≠ j) := carried.task_of_ne other
  have placed := carried.task_self here
  have step := carried.step
  have others : ∀ (j : Nat) v, q.tasks[j]? = some v → j ≠ Service.batcher →
      j ≠ Service.publisher → v.Upstream := by
    intro j v there first second
    by_cases same : i = j
    · subst same
      obtain rfl := Option.some.inj (placed.symm.trans there)
      exact step.upstream (h.others i t here first second)
    · exact h.others j v (kept same ▸ there) first second
  by_cases batcher : i = Service.batcher
  · subst batcher
    obtain rfl := Option.some.inj (h.batcher.symm.trans here)
    have noted : log.add (p.noted .batching) = log := log.add_nothing
    rw [noted]
    generalize p.noted .batching = more, belt : q.belt = after at step
    cases step with
    | aside up => exact absurd up id
    | gathers gathered =>
      refine ⟨placed, ⟨u, (kept (by decide)).trans publisher, ?_⟩, others⟩
      rw [belt]
      exact stage.gathers flows.joined gathered
  · by_cases own : i = Service.publisher
    · subst own
      obtain rfl := Option.some.inj (publisher.symm.trans here)
      exact ⟨(kept batcher).trans h.batcher, ⟨next, placed, stage.step step busy⟩, others⟩
    · have up := h.others i t here batcher own
      exact ⟨(kept batcher).trans h.batcher,
        ⟨u, (kept own).trans publisher, stage.upstream step up⟩, others⟩

theorem Manned.meanwhile (h : Manned p log) (around : Meanwhile p q) : Manned q log := by
  obtain ⟨u, publisher, stage⟩ := h.publisher
  refine ⟨around.batcher.trans h.batcher,
    ⟨u, around.publisher.trans publisher, around.belt.symm ▸ stage⟩,
    fun i t there first second => ?_⟩
  rcases around.others i t there with old | ⟨call, rfl⟩ | rfl
  · exact h.others i t old first second
  · exact trivial
  · exact trivial

end

-- ---------------------------------------------------------------------------
-- Whole courses
-- ---------------------------------------------------------------------------

structure Lossless (b : Belt) (log : Log) : Prop where
  room : b.batch.hasRoom = true
  lasts : b.batching.Lasts
  whole : log.taken.flatten ++ b.batching.flow = log.emitted

theorem Lossless.step {b after : Belt} {log more : Log} {t next : Task} {millis : Nat}
    (h : Lossless b log) (flows : Flows b log) (step : BeltStep millis b t more after next) :
    Lossless after (log.add more) := by
  have whole := h.whole
  cases step with
  | emits sent =>
    refine ⟨h.room, h.lasts.sends sent, ?_⟩
    rw [Log.taken_add, Log.emitted_add, ← whole]
    simp [Batching.flow, Channel.items_of_sent sent]
  | closes =>
    exact ⟨h.room, h.lasts.hangsUp,
      by simpa [Batching.flow, Channel.dropSender] using whole⟩
  | gathers step =>
    rw [flows.going] at step
    obtain ⟨lasts, same⟩ := h.lasts.step step flows.joined h.room flows.listening
    exact ⟨h.room, lasts, by simpa [same] using whole⟩
  | takes received =>
    refine ⟨h.room, h.lasts.takes _, ?_⟩
    rw [Log.taken_add, Log.emitted_add, ← whole]
    simp [Batching.flow, Channel.items_of_received received]
  | _ => exact ⟨h.room, h.lasts, by simpa using whole⟩

structure Delivering (p : Pipeline) (log : Log) : Prop where
  flows : Flows p.belt log
  counted : Counted p.belt log
  manned : Manned p log

theorem Delivering.step {p q : Pipeline} {log : Log} {i : Nat} {t : Task} (h : Delivering p log)
    (here : p.tasks[i]? = some t) (stepped : Pipeline.step? i p = some q) :
    Delivering q (log.add (p.noted t)) := by
  obtain ⟨u, next, there, carried⟩ := Pipeline.carried_of_step? stepped
  obtain rfl := Option.some.inj (there.symm.trans here)
  exact ⟨h.flows.step carried.step, h.counted.step carried.step,
    h.manned.step h.flows here (Pipeline.not_stopped here stepped) carried⟩

theorem Broadcasting.delivering {start p : Pipeline} {log : Log} (course : Broadcasting start p log)
    (fresh : Delivering start {}) : Delivering p log := by
  induction course with
  | start => exact fresh
  | step _ here stepped ih => exact ih.step here stepped
  | meanwhile _ around ih =>
    exact ⟨around.belt.symm ▸ ih.flows, around.belt.symm ▸ ih.counted, ih.manned.meanwhile around⟩

theorem Broadcasting.lossless {start p : Pipeline} {log : Log} (course : Broadcasting start p log)
    (fresh : Delivering start {}) (whole : Lossless start.belt {}) : Lossless p.belt log := by
  induction course with
  | start => exact whole
  | step course here stepped ih =>
    obtain ⟨u, next, there, carried⟩ := Pipeline.carried_of_step? stepped
    obtain rfl := Option.some.inj (there.symm.trans here)
    exact ih.step (course.delivering fresh).flows carried.step
  | meanwhile _ around ih => exact around.belt.symm ▸ ih

-- ---------------------------------------------------------------------------
-- At rest
-- ---------------------------------------------------------------------------

/-- Whether a task is a refresher that waits for the next minute. -/
def Task.isResting : Task → Bool
  | .resting _ => true
  | _ => false

namespace Pipeline

/-- Every task waits, and no timer runs but that of the refresher. -/
structure Quiescent (p : Pipeline) : Prop where
  still : ∀ i, step? i p = none
  timers : ∀ (i : Nat) t, p.tasks[i]? = some t → t.isResting = false → deadline? i p = none

theorem quiescent_iff {p : Pipeline} :
    p.Quiescent ↔ ∀ i < p.tasks.size, (step? i p).isNone = true ∧
      ∀ t ∈ p.tasks[i]?, t.isResting = false → (deadline? i p).isNone = true := by
  simp only [Option.isNone_iff_eq_none]
  refine ⟨fun quiet i _ => ⟨quiet.still i, quiet.timers i⟩, fun all => ⟨fun i => ?_, ?_⟩⟩
  · rcases Nat.lt_or_ge i p.tasks.size with inside | outside
    · exact (all i inside).1
    · simp [step?, Array.getElem?_eq_none outside]
  · intro i t here
    exact (all i (Array.getElem?_eq_some_iff.mp here).1).2 t here

instance (p : Pipeline) : Decidable p.Quiescent := decidable_of_iff _ quiescent_iff.symm

def underway (p : Pipeline) : List (List Message) :=
  match p.tasks[Service.publisher]? with
  | some (.publishing messages _ _) => [messages]
  | _ => []

section
variable {p : Pipeline} {log : Log}

theorem handed_of_manned (manned : Manned p log) :
    log.attempts.map Attempt.messages ++ p.underway = log.taken.map Message.ofEvents := by
  obtain ⟨t, publisher, stage⟩ := manned.publisher
  cases stage with
  | listening handed | publishing handed | stopped handed =>
    simpa [underway, publisher] using handed

theorem Quiescent.taken (quiet : p.Quiescent) (manned : Manned p log) :
    p.underway = [] ∧ p.batches.items = [] := by
  obtain ⟨t, publisher, stage⟩ := manned.publisher
  cases stage with
  | listening =>
    have waits := quiet.still Service.publisher
    simp only [step?, publisher, listen?] at waits
    split at waits
    · cases waits
    · cases waits
    · next empty => exact ⟨by simp [underway, publisher], (Channel.receive_eq_empty.mp empty).1⟩
  | publishing =>
    have untimed := quiet.timers Service.publisher _ publisher rfl
    simp [deadline?, publisher] at untimed
  | stopped handed ended =>
    exact ⟨by simp [underway, publisher], (Channel.receive_eq_ended.mp ended).1⟩

theorem Quiescent.flow_eq_nil (quiet : p.Quiescent) (h : Delivering p log)
    (whole : Lossless p.belt log) : p.belt.batching.flow = [] := by
  have waits := quiet.still Service.batcher
  have untimed := quiet.timers Service.batcher _ h.manned.batcher rfl
  simp only [deadline?, h.manned.batcher] at untimed
  simp only [step?, h.manned.batcher, Option.map_eq_none_iff] at waits
  have going : p.store.cancelled = false := h.flows.going
  rw [going] at waits
  exact whole.lasts.flow_eq_nil h.flows.joined h.flows.listening waits untimed
    (quiet.taken h.manned).2

theorem Quiescent.nothing_unsent (quiet : p.Quiescent) (joined : p.belt.batching.Joined)
    (empty : p.belt.batching.flow = []) (i : Nat) (t : Task) (here : p.tasks[i]? = some t) :
    t.unsent = [] := by
  have nothing : p.store.events.items = [] := (List.append_eq_nil_iff.mp empty).2
  have room : 0 < p.store.events.capacity := joined.inward
  have waits := quiet.still i
  match t with
  | .visiting visitor (.sending (event :: rest) count reply) =>
    -- a send to a channel with room goes through or fails, and both are a step
    exfalso
    simp only [step?, here, stepVisit?, SharedStore.step?, SharedStore.publish?] at waits
    cases sending : p.store.events.send event with
    | sent events | closed => simp [sending] at waits
    | full =>
      unfold Channel.send at sending
      split at sending
      · rw [nothing, List.length_nil, if_pos room] at sending
        cases sending
      · cases sending
  | .visiting _ (.sending [] _ _) => rfl
  | .visiting _ (.waiting _) | .visiting _ (.leaving _) => rfl
  | .calling _ | .delivering _ _ | .concluding _ _ _ | .answered _ | .seeding _ | .seeded _
  | .refreshing | .resting _ | .closing | .batching | .listening | .publishing _ _ _
  | .stopped => rfl

end

end Pipeline

end Candlestick
