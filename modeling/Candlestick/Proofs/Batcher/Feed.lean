import Candlestick.Batcher.Feed
import Candlestick.Proofs.Batcher.Flow
import Candlestick.Schedule.Reach

/-!
# What a consumer gets from a batcher

A producer, a batcher and a consumer take turns in any order (`Course`), the token may be
cancelled and the consumer may leave at any moment. Its batches are a first part of the
items that were sent (`Traces`), and where nobody disturbs them (`Undisturbed`) every step
uses up some `effort` until it has them all (`feed_delivers`).
-/

namespace Candlestick

variable {α : Type}

def Action.item? : Action α → Option α
  | .send item => some item
  | .sleep _ => none
  | .cancel => none

def Action.itemsOf (script : List (Action α)) : List α := script.filterMap Action.item?

theorem Action.itemsOf_send (item : α) (script : List (Action α)) :
    itemsOf (.send item :: script) = item :: itemsOf script := rfl

/-- What the producer has yet to do. -/
def Producer.script : Producer α → List (Action α)
  | .acting script => script
  | .sleeping _ script => script
  | .done => []

/-- What an action takes: an item that is sent has to be gathered, offered and taken. -/
def Action.effort : Action α → Nat
  | .send _ => 7
  | .sleep _ => 2
  | .cancel => 1

def Action.effortOf : List (Action α) → Nat
  | [] => 0
  | action :: script => action.effort + effortOf script

def Producer.effort : Producer α → Nat
  | .acting script => Action.effortOf script + 1
  | .sleeping _ script => Action.effortOf script + 2
  | .done => 0

def Consumer.effort : Consumer → Nat
  | .resting _ => 2
  | .waiting => 1
  | .done => 0

namespace Feed

variable {start f g : Feed α} {sent : List α}

def got (f : Feed α) : List α := f.delivered.flatMap Delivered.batch

def accepted (i : Nat) (f : Feed α) : List α :=
  match i, f.producer with
  | 1, .acting (.send item :: _) =>
    match f.batching.input.send item with
    | .sent _ => [item]
    | _ => []
  | _, _ => []

-- ---------------------------------------------------------------------------
-- Steps
-- ---------------------------------------------------------------------------

inductive FeedStep (f : Feed α) : List α → Feed α → Prop
  | gathers {b : Batching α} :
      Batching.BatchStep f.config f.millis f.cancelled f.batching b →
      FeedStep f [] { f with batching := b }
  | sends {item : α} {script : List (Action α)} {input : Channel α} :
      f.producer = .acting (.send item :: script) → f.batching.input.send item = .sent input →
      FeedStep f [item]
        { (f.withInput input) with producer := .acting script, sent := f.sent + 1 }
  /-- Nobody reads the input any more. -/
  | refused {item : α} {script : List (Action α)} :
      f.producer = .acting (.send item :: script) → f.batching.input.send item = .closed →
      FeedStep f [] { f with producer := .acting script }
  | sleeps {millis : Nat} {script : List (Action α)} :
      f.producer = .acting (.sleep millis :: script) →
      FeedStep f [] { f with producer := .sleeping (f.millis + millis) script }
  | cancels {script : List (Action α)} :
      f.producer = .acting (.cancel :: script) →
      FeedStep f [] { f with producer := .acting script, cancelled := true }
  | wakes {deadline : Nat} {script : List (Action α)} :
      f.producer = .sleeping deadline script → deadline ≤ f.millis →
      FeedStep f [] { f with producer := .acting script }
  | hangsUp :
      f.producer = .acting [] →
      FeedStep f [] { (f.withInput f.batching.input.dropSender) with producer := .done }
  | takes {batch : List α} {output : Channel (List α)} :
      f.consumer = .waiting → f.batching.output.receive = .item batch output →
      FeedStep f []
        { (f.withOutput output) with
          delivered := f.delivered ++ [⟨f.millis, batch⟩]
          consumer := .resting (f.millis + f.restMillis) }
  /-- The consumer has all that it wanted, or has seen the end. -/
  | leaves :
      f.consumer = .waiting → f.satisfied = true ∨ f.batching.output.receive = .ended →
      FeedStep f [] f.finish
  | rests {deadline : Nat} :
      f.consumer = .resting deadline → deadline ≤ f.millis →
      FeedStep f [] { f with consumer := .waiting }

theorem feedStep_of_produce? (h : f.produce? = some g) : FeedStep f (f.accepted 1) g := by
  unfold produce? at h
  split at h
  · next playing =>
    cases h
    rw [accepted.eq_def]
    simp only [playing]
    exact .hangsUp playing
  · next playing =>
    split at h
    · next accepts =>
      cases h
      rw [accepted.eq_def]
      simp only [playing, accepts]
      exact .sends playing accepts
    · next closed =>
      cases h
      rw [accepted.eq_def]
      simp only [playing, closed]
      exact .refused playing closed
    · cases h
  · next playing =>
    cases h
    rw [accepted.eq_def]
    simp only [playing]
    exact .sleeps playing
  · next playing =>
    cases h
    rw [accepted.eq_def]
    simp only [playing]
    exact .cancels playing
  · next playing =>
    split at h
    · next due =>
      cases h
      rw [accepted.eq_def]
      simp only [playing]
      exact .wakes playing due
    · cases h
  · cases h

theorem feedStep_of_consume? (h : f.consume? = some g) : FeedStep f [] g := by
  unfold consume? at h
  split at h
  · next waiting =>
    split at h
    · next enough =>
      cases h
      exact .leaves waiting (.inl enough)
    · split at h
      · next received =>
        cases h
        exact .takes waiting received
      · next ended =>
        cases h
        exact .leaves waiting (.inr ended)
      · cases h
  · next resting =>
    split at h
    · next due =>
      cases h
      exact .rests resting due
    · cases h
  · cases h

theorem feedStep_of_step? {i : Nat} (h : system.step? i f = some g) :
    FeedStep f (f.accepted i) g := by
  match i with
  | 0 =>
    obtain ⟨b, gathered, rfl⟩ := Option.map_eq_some_iff.mp h
    exact .gathers (Batching.batchStep_of_step? gathered)
  | 1 => exact feedStep_of_produce? h
  | 2 => exact feedStep_of_consume? h
  | _ + 3 => cases h

-- ---------------------------------------------------------------------------
-- Every order
-- ---------------------------------------------------------------------------

/-- What can come of a feed, with the items that were sent on the way: steps of the tasks
in any order, the time that passes, the token cancelled and the consumer gone at any
moment. -/
inductive Course (start : Feed α) : Feed α → List α → Prop
  | init : Course start start []
  | step {f g : Feed α} {sent : List α} (i : Nat) :
      Course start f sent → system.step? i f = some g → Course start g (sent ++ f.accepted i)
  | elapses {f : Feed α} {sent : List α} (time : Nat) :
      Course start f sent → f.millis ≤ time → Course start { f with millis := time } sent
  | cancels {f : Feed α} {sent : List α} :
      Course start f sent → Course start { f with cancelled := true } sent
  | leaves {f : Feed α} {sent : List α} :
      Course start f sent → f.consumer ≠ .done → Course start f.finish sent

theorem course_of_reaches (reach : system.Reaches start f) : ∃ sent, Course start f sent := by
  induction reach with
  | refl => exact ⟨_, .init⟩
  | step i _ moved ih =>
    obtain ⟨sent, course⟩ := ih
    exact ⟨_, course.step i moved⟩
  | wait time _ le ih =>
    obtain ⟨sent, course⟩ := ih
    exact ⟨_, course.elapses time le⟩

theorem got_taken (f : Feed α) (batch : List α) (output : Channel (List α)) (consumer : Consumer) :
    ({ (f.withOutput output) with
      delivered := f.delivered ++ [⟨f.millis, batch⟩], consumer := consumer } : Feed α).got =
      f.got ++ batch := by
  simp [got]

/-- Where the items are that were sent, and that the batches are of the right size. -/
structure Traces (config : BatchConfig) (f : Feed α) (sent : List α) : Prop where
  setup : f.config = config
  carries : f.batching.Carries sent f.got
  sized : f.batching.Sized config.limit
  count : f.sent = sent.length
  fits : ∀ d ∈ f.delivered, Batching.Fits config.limit d.batch

namespace Traces

variable {config : BatchConfig}

theorem finish (h : f.Traces config sent) : f.finish.Traces config sent :=
  ⟨h.setup, h.carries.leaves,
    ⟨h.sized.filling, h.sized.offering, fun _ mem => (nomatch mem)⟩, h.count, h.fits⟩

theorem step {items : List α} (h : f.Traces config sent) (step : FeedStep f items g) :
    g.Traces config (sent ++ items) := by
  cases step with
  | gathers step =>
    rw [List.append_nil]
    exact ⟨h.setup, h.carries.step step, h.setup ▸ (h.setup.symm ▸ h.sized).step step, h.count,
      h.fits⟩
  | sends _ accepts =>
    exact ⟨h.setup, h.carries.sends accepts, ⟨h.sized.filling, h.sized.offering, h.sized.queued⟩,
      by simp [h.count], h.fits⟩
  | hangsUp =>
    rw [List.append_nil]
    exact ⟨h.setup, h.carries.hangsUp, ⟨h.sized.filling, h.sized.offering, h.sized.queued⟩,
      h.count, h.fits⟩
  | @takes batch output _ received =>
    rw [List.append_nil]
    have queued := h.sized.queued
    rw [(Channel.eq_of_received received).1, List.forall_mem_cons] at queued
    exact ⟨h.setup, got_taken f batch output _ ▸ h.carries.takes received,
      ⟨h.sized.filling, h.sized.offering, queued.2⟩, h.count,
      List.forall_mem_append.mpr ⟨h.fits, by simpa using queued.1⟩⟩
  | leaves => exact (List.append_nil sent).symm ▸ h.finish
  | _ =>
    rw [List.append_nil]
    exact ⟨h.setup, h.carries, h.sized, h.count, h.fits⟩

end Traces

theorem Course.traces {config : BatchConfig} (course : Course start f sent)
    (fresh : start.Traces config []) : f.Traces config sent := by
  induction course with
  | init => exact fresh
  | step i _ moved ih => exact ih.step (feedStep_of_step? moved)
  | elapses time _ _ ih | cancels _ ih =>
    exact ⟨ih.setup, ih.carries, ih.sized, ih.count, ih.fits⟩
  | leaves _ _ ih => exact ih.finish

-- ---------------------------------------------------------------------------
-- Effort
-- ---------------------------------------------------------------------------

def effort (f : Feed α) : Nat := f.producer.effort + f.batching.effort + f.consumer.effort

theorem effort_lt {items : List α} (step : FeedStep f items g) : g.effort < f.effort := by
  cases step with
  | gathers step =>
    have less := step.effort_lt
    dsimp only [effort]
    omega
  | sends playing accepts =>
    simp only [effort, Batching.effort, withInput, playing, Producer.effort, Action.effortOf,
      Action.effort, Channel.items_of_sent accepts, List.length_append,
      List.length_singleton]
    omega
  | refused playing | sleeps playing | cancels playing =>
    simp only [effort, playing, Producer.effort, Action.effortOf, Action.effort]
    omega
  | wakes playing =>
    simp only [effort, playing, Producer.effort]
    omega
  | hangsUp playing =>
    simp only [effort, Batching.effort, withInput, Channel.dropSender, playing, Producer.effort]
    omega
  | takes waiting received =>
    simp only [effort, Batching.effort, withOutput, waiting, Consumer.effort,
      Channel.items_of_received received, List.length_cons]
    omega
  | leaves waiting =>
    simp only [effort, Batching.effort, finish, withOutput, Channel.dropReceiver, waiting,
      Consumer.effort, List.length_nil]
    omega
  | rests resting =>
    simp only [effort, resting, Consumer.effort]
    omega

-- ---------------------------------------------------------------------------
-- Feeds that nobody disturbs
-- ---------------------------------------------------------------------------

/-- Each end of a channel is there as long as the task that holds it. -/
structure Joined (f : Feed α) : Prop where
  batching : f.batching.Joined
  feeding : f.batching.input.hasSender = true ↔ f.producer ≠ .done
  taking : f.batching.output.hasReceiver = true ↔ f.consumer ≠ .done

/-- Nobody cancels the token, the consumer reads until the end, and all items are on their
way. -/
structure Undisturbed (items : List α) (f : Feed α) : Prop where
  joined : f.Joined
  lasts : f.batching.Lasts
  room : f.config.hasRoom = true
  going : f.cancelled = false
  willing : f.stopAfter = none
  quiet : .cancel ∉ f.producer.script
  count : f.sent + (Action.itemsOf f.producer.script).length = items.length
  whole : f.got ++ f.batching.flow ++ Action.itemsOf f.producer.script = items
  finished : f.consumer = .done → f.batching.batcher = .stopped ∧ f.batching.output.items = []

namespace Joined

theorem step {items : List α} (h : f.Joined) (step : FeedStep f items g) : g.Joined := by
  obtain ⟨batching, feeding, taking⟩ := h
  cases step with
  | gathers step =>
    obtain ⟨sender, receiver⟩ := step.far_ends
    exact ⟨batching.step step, by rw [sender]; exact feeding, by rw [receiver]; exact taking⟩
  | sends playing accepts =>
    refine ⟨batching.sends accepts, ?_, taking⟩
    simp [withInput, (Channel.eq_of_sent accepts).2.2, (Channel.eq_of_sent accepts).1]
  | refused playing | sleeps playing | cancels playing | wakes playing =>
    exact ⟨batching, by simpa [playing] using feeding, taking⟩
  | hangsUp =>
    exact ⟨⟨batching.reading, batching.writing, batching.inward, batching.outward⟩,
      ⟨fun there => (nomatch there), fun busy => absurd rfl busy⟩, taking⟩
  | takes waiting received =>
    have listening := taking.mpr (by simp [waiting])
    have same := congrArg Channel.hasReceiver (Channel.eq_of_received received).2
    exact ⟨batching.takes received, feeding, fun _ => by simp, fun _ => same.trans listening⟩
  | leaves =>
    exact ⟨⟨batching.reading, batching.writing, batching.inward, batching.outward⟩, feeding,
      ⟨fun there => (nomatch there), fun busy => absurd rfl busy⟩⟩
  | rests resting =>
    exact ⟨batching, feeding, by simpa [resting] using taking⟩

end Joined

namespace Undisturbed

theorem not_refused {items : List α} {item : α} {script : List (Action α)}
    (h : f.Undisturbed items) (playing : f.producer = .acting (.send item :: script)) :
    f.batching.input.send item ≠ .closed := by
  have feeding := h.joined.feeding.mpr (by simp [playing])
  have running : f.batching.batcher ≠ .stopped := fun stopped =>
    Bool.false_ne_true ((h.lasts.stopped stopped).2.symm.trans feeding)
  simp [Channel.send_eq_closed, feeding, h.joined.batching.reading.mpr running]

theorem not_abandoned {items batch : List α} {last : Bool} (h : f.Undisturbed items)
    (offering : f.batching.batcher = .offering batch last) :
    f.batching.output.send batch ≠ .closed := by
  have writing := h.joined.batching.writing.mpr (by simp [offering])
  have listening := h.joined.taking.mpr fun done => by simp [(h.finished done).1] at offering
  simp [Channel.send_eq_closed, writing, listening]

theorem output_ended {items : List α} (h : f.Undisturbed items)
    (why : f.satisfied = true ∨ f.batching.output.receive = .ended) :
    f.batching.output.receive = .ended :=
  why.resolve_left (by simp [satisfied, h.willing])

theorem step {items sent : List α} (h : f.Undisturbed items) (step : FeedStep f sent g) :
    g.Undisturbed items := by
  have joined := h.joined.step step
  have count := h.count
  have whole := h.whole
  cases step with
  | gathers step =>
    have listening := h.joined.taking.mpr fun done => step.running (h.finished done).1
    rw [h.going] at step
    obtain ⟨lasts, same⟩ := h.lasts.step step h.joined.batching h.room listening
    exact ⟨joined, lasts, h.room, h.going, h.willing, h.quiet, count,
      by rw [← whole, ← same]; rfl, fun done => absurd (h.finished done).1 step.running⟩
  | sends playing accepts =>
    rw [playing, Producer.script] at count whole
    rw [Action.itemsOf_send] at count whole
    refine ⟨joined, h.lasts.sends accepts, h.room, h.going, h.willing, ?_, ?_, ?_, h.finished⟩
    · simpa [playing, Producer.script] using h.quiet
    · simp only [List.length_cons] at count
      simp only [Producer.script]
      omega
    · simpa [Producer.script, Batching.flow, got, withInput, Channel.items_of_sent accepts]
        using whole
  | refused playing closed => exact absurd closed (h.not_refused playing)
  | sleeps playing | wakes playing =>
    rw [playing] at count whole
    refine ⟨joined, h.lasts, h.room, h.going, h.willing, ?_, count, whole, h.finished⟩
    simpa [playing, Producer.script] using h.quiet
  | cancels playing => exact absurd h.quiet (by simp [playing, Producer.script])
  | hangsUp playing =>
    rw [playing] at count whole
    exact ⟨joined, h.lasts.hangsUp, h.room, h.going, h.willing, List.not_mem_nil, count, whole,
      h.finished⟩
  | takes waiting received =>
    refine ⟨joined, h.lasts.takes _, h.room, h.going, h.willing, h.quiet, count, ?_,
      fun done => absurd done (by simp)⟩
    simpa [got, Batching.flow, withOutput, Channel.items_of_received received] using whole
  | leaves waiting why =>
    obtain ⟨nothing, gone⟩ := Channel.receive_eq_ended.mp (h.output_ended why)
    have stopped : f.batching.batcher = .stopped := Classical.byContradiction fun running =>
      Bool.false_ne_true (gone.symm.trans (h.joined.batching.writing.mpr running))
    refine ⟨joined, h.lasts.takes _, h.room, h.going, h.willing, h.quiet, count, ?_,
      fun _ => ⟨stopped, rfl⟩⟩
    simpa [got, Batching.flow, finish, withOutput, Channel.dropReceiver, nothing] using whole
  | rests =>
    exact ⟨joined, h.lasts, h.room, h.going, h.willing, h.quiet, count, whole,
      fun done => absurd done (by simp)⟩

theorem moves_at_once (i : Nat) (h : (system.step? i f).isSome = true) :
    ∃ g, system.Moves f g := by
  obtain ⟨g, moved⟩ := Option.isSome_iff_exists.mp h
  exact ⟨g, f.millis, i, Nat.le_refl _, moved⟩

theorem moves_in_time (i deadline : Nat)
    (h : ∀ time, deadline ≤ time → (system.step? i { f with millis := time }).isSome = true) :
    ∃ g, system.Moves f g := by
  obtain ⟨g, moved⟩ := Option.isSome_iff_exists.mp (h _ (Nat.le_max_right f.millis deadline))
  exact ⟨g, max f.millis deadline, i, Nat.le_max_left .., moved⟩

theorem producer_moves {items : List α} (h : f.Undisturbed items)
    (running : f.batching.batcher ≠ .stopped) (empty : f.batching.input.receive = .empty) :
    ∃ g, system.Moves f g := by
  obtain ⟨nothing, sender⟩ := Channel.receive_eq_empty.mp empty
  have reader := h.joined.batching.reading.mpr running
  have room := h.joined.batching.inward
  cases playing : f.producer with
  | done => exact absurd playing (h.joined.feeding.mp sender)
  | acting script =>
    refine moves_at_once 1 ?_
    cases script with
    | nil => simp [system, produce?, playing]
    | cons action script =>
      cases action with
      | send item => simp [system, produce?, playing, Channel.send, sender, nothing, room, reader]
      | _ => simp [system, produce?, playing]
  | sleeping deadline script =>
    exact moves_in_time 1 deadline fun time due => by simp [system, produce?, playing, due]

theorem batcher_moves {items : List α} (h : f.Undisturbed items)
    (unfinished : f.consumer ≠ .done) (empty : f.batching.output.receive = .empty) :
    ∃ g, system.Moves f g := by
  obtain ⟨nothing, sender⟩ := Channel.receive_eq_empty.mp empty
  have running := h.joined.batching.writing.mp sender
  cases gathering : f.batching.batcher with
  | stopped => exact absurd gathering running
  | idle =>
    cases received : f.batching.input.receive with
    | empty => exact h.producer_moves running received
    | _ =>
      exact moves_at_once 0 (by simp [system, batch?, Batching.step?, gathering, h.going, received,
        h.room])
  | filling batch deadline =>
    cases received : f.batching.input.receive with
    | empty =>
      exact moves_in_time 0 deadline fun time due => by
        simp [system, batch?, Batching.step?, gathering, h.going, received, due]
    | _ =>
      exact moves_at_once 0 (by simp [system, batch?, Batching.step?, gathering, h.going, received])
  | offering batch last =>
    have listening := h.joined.taking.mpr unfinished
    have room := h.joined.batching.outward
    refine moves_at_once 0 ?_
    cases last <;> simp [system, batch?, Batching.step?, gathering, h.going, Channel.send, sender,
      listening, nothing, room]

/-- Somebody can go on, at once or after a wait, until the consumer has seen the end. -/
theorem progress {items : List α} (h : f.Undisturbed items) :
    f.consumer = .done ∨ ∃ g, system.Moves f g := by
  cases consuming : f.consumer with
  | done => exact .inl rfl
  | resting deadline =>
    exact .inr (moves_in_time 2 deadline fun time due => by
      simp [system, consume?, consuming, due])
  | waiting =>
    refine .inr ?_
    cases received : f.batching.output.receive with
    | empty => exact h.batcher_moves (by simp [consuming]) received
    | _ =>
      exact moves_at_once 2 (by simp [system, consume?, consuming, satisfied, h.willing, received])

theorem waits {items : List α} (h : f.Undisturbed items) (time : Nat) :
    ({ f with millis := time } : Feed α).Undisturbed items :=
  ⟨⟨h.joined.batching, h.joined.feeding, h.joined.taking⟩, h.lasts, h.room, h.going, h.willing,
    h.quiet, h.count, h.whole, h.finished⟩

theorem moves {items : List α} (h : f.Undisturbed items) (moved : system.Moves f g) :
    g.Undisturbed items ∧ g.effort < f.effort := by
  obtain ⟨time, i, -, moved⟩ := moved
  have step := feedStep_of_step? moved
  have less : g.effort < ({ f with millis := time } : Feed α).effort := effort_lt step
  exact ⟨(h.waits time).step step, less⟩

theorem inevitable {items : List α} (h : f.Undisturbed items) :
    system.Inevitable (fun g => g.consumer = .done) f :=
  System.inevitable_of_effort effort (fun _ _ kept moved => moves kept moved)
    (fun _ kept => progress kept) h

theorem of_reaches {items : List α} (h : start.Undisturbed items)
    (reach : system.Reaches start f) : f.Undisturbed items :=
  reach.preserves (fun _ _ _ h moved => h.step (feedStep_of_step? moved))
    (fun time _ h _ => h.waits time) h

theorem got_all {items : List α} (h : f.Undisturbed items) (done : f.consumer = .done) :
    f.batching.output.receive = .ended ∧ f.got = items ∧ f.sent = items.length := by
  obtain ⟨stopped, nothing⟩ := h.finished done
  obtain ⟨empty, gone⟩ := h.lasts.stopped stopped
  have finished : f.producer = .done := Classical.byContradiction fun busy =>
    Bool.false_ne_true (gone.symm.trans (h.joined.feeding.mpr busy))
  have closed : f.batching.output.hasSender = false := by
    simpa [stopped] using h.joined.batching.writing
  have whole := h.whole
  have count := h.count
  rw [finished] at whole count
  exact ⟨Channel.receive_eq_ended.mpr ⟨nothing, closed⟩,
    by simpa [Batching.flow, nothing, stopped, Batcher.held, empty, Producer.script,
      Action.itemsOf] using whole,
    by simpa [Producer.script, Action.itemsOf] using count⟩

end Undisturbed

-- ---------------------------------------------------------------------------
-- The start
-- ---------------------------------------------------------------------------

section
variable {config : BatchConfig} {capacity restMillis : Nat} {stopAfter : Option Nat}
  {script : List (Action α)}

theorem eq_of_start? (h : start? config capacity restMillis stopAfter script = some start) :
    start =
      { config := { config with limit := max config.limit 1 }
        restMillis, stopAfter
        batching := ⟨.idle, .create capacity, .create 1⟩
        producer := .acting script } := by
  obtain ⟨input, created, rfl⟩ := Option.map_eq_some_iff.mp h
  have limit : (if config.limit = 0 then 1 else config.limit) = max config.limit 1 := by
    split <;> omega
  unfold Channel.create? at created
  split at created
  · cases created
    rw [limit]
  · cases created

theorem traces_start (h : start? config capacity restMillis stopAfter script = some start) :
    start.Traces { config with limit := max config.limit 1 } [] := by
  rw [eq_of_start? h]
  exact ⟨rfl, .init rfl rfl rfl, .init rfl rfl _, rfl, fun _ mem => nomatch mem⟩

theorem undisturbed_start (h : start? config capacity restMillis none script = some start)
    (room : start.config.hasRoom = true) (quiet : .cancel ∉ script) :
    start.Undisturbed (Action.itemsOf script) := by
  rw [eq_of_start? h] at room ⊢
  exact ⟨⟨.init capacity 1, by simp [Channel.create], by simp [Channel.create]⟩, .init rfl, room,
    rfl, rfl, quiet, by simp [Producer.script],
    by simp [got, Batching.flow, Channel.create, Batcher.held, Producer.script],
    fun done => absurd done (by simp)⟩

end

theorem reaches_run (f : Feed α) : system.Reaches f f.run :=
  System.reaches_runWhile (fun _ => true) { state := f, ready := [0, 1] }

end Feed

/-- What a consumer gets. On every course its batches are a first part of the items that were
sent, each of at least one item and no more than the limit, where zero counts as one. With
room for a batch, a script that does not cancel and a consumer that reads until the end, the
end comes in every order, and then the consumer has all items of the script. -/
theorem feed_delivers {config : BatchConfig} {capacity restMillis : Nat} {stopAfter : Option Nat}
    {script : List (Action α)} {start : Feed α}
    (started : Feed.start? config capacity restMillis stopAfter script = some start) :
    (∀ f sent, start.Course f sent →
      f.delivered.flatMap Delivered.batch <+: sent ∧ f.sent = sent.length ∧
      ∀ d ∈ f.delivered, 1 ≤ d.batch.length ∧ d.batch.length ≤ max config.limit 1) ∧
    (start.config.hasRoom = true → .cancel ∉ script → stopAfter = none →
      ∀ f, Feed.system.Reaches start f →
        Feed.system.Inevitable (fun g => g.consumer = .done) f ∧
        (f.consumer = .done → f.batching.output.receive = .ended ∧
          f.delivered.flatMap Delivered.batch = Action.itemsOf script ∧
          f.sent = (Action.itemsOf script).length)) := by
  constructor
  · intro f sent course
    have traces := course.traces (Feed.traces_start started)
    exact ⟨(List.prefix_append ..).trans traces.carries.first, traces.count,
      fun d mem => by simpa [Batching.Fits] using traces.fits d mem⟩
  · rintro room quiet rfl f reach
    have h := (Feed.undisturbed_start started room quiet).of_reaches reach
    exact ⟨h.inevitable, h.got_all⟩

def numbers (limit : Nat) (script : List (Action Nat)) : Feed Nat where
  config := { limit := limit, idleMillis := 5, itemWidth := 8 }
  restMillis := 0
  stopAfter := none
  batching := ⟨.idle, .create 1, .create 1⟩
  producer := .acting script

def threeItems : Feed Nat := numbers 2 [.send 1, .send 2, .sleep 9, .send 3]

theorem threeItems_delivers :
    threeItems.config.hasRoom = true ∧ threeItems.run.consumer = .done ∧
      Feed.system.Inevitable (fun g => g.consumer = .done) threeItems ∧
      threeItems.run.delivered.flatMap Delivered.batch = [1, 2, 3] ∧
      ∀ d ∈ threeItems.run.delivered, 1 ≤ d.batch.length ∧ d.batch.length ≤ 2 := by
  have started : Feed.start? { limit := 2, idleMillis := 5, itemWidth := 8 } 1 0 none
      [.send 1, .send 2, .sleep 9, .send 3] = some threeItems := rfl
  have room : threeItems.config.hasRoom = true := by decide
  have done : threeItems.run.consumer = .done := by decide +kernel
  obtain ⟨bounded, delivers⟩ := feed_delivers started
  obtain ⟨sent, course⟩ := Feed.course_of_reaches (Feed.reaches_run threeItems)
  obtain ⟨inevitable, -⟩ := delivers room (by simp) rfl _ (.refl _)
  obtain ⟨-, ends⟩ := delivers room (by simp) rfl _ (Feed.reaches_run threeItems)
  exact ⟨room, done, inevitable, (ends done).2.1, (bounded _ sent course).2.2⟩

def vastLimit : Feed Nat := numbers 18446744073709551615 [.send 1]

/-- The item is sent and lost: the output ends without a batch. -/
theorem vastLimit_loses :
    Feed.start? { limit := 18446744073709551615, idleMillis := 5, itemWidth := 8 } 1 0 none
        [.send 1] = some vastLimit ∧
      vastLimit.run.cancelled = false ∧ vastLimit.run.sent = 1 ∧
      vastLimit.run.consumer = .done ∧ vastLimit.run.batching.output.receive = .ended ∧
      vastLimit.run.delivered.flatMap Delivered.batch = [] := by
  refine ⟨rfl, ?_, ?_, ?_, Channel.receive_eq_ended.mpr ?_, ?_⟩
  all_goals decide +kernel

end Candlestick
