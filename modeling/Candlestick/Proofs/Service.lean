import Candlestick.Proofs.Pipeline.Broadcast

/-!
# What a service broadcasts

A service that was started and is used by calls, one after the other, goes along one of the
courses of its pipeline (`Service.InUse.broadcasting`). All of them broadcast what the store
emits, in order and each event once (`service_broadcasts`), as long as there is room for a
batch (`vastBatches_lose_event`).
-/

namespace Candlestick

-- ---------------------------------------------------------------------------
-- The start
-- ---------------------------------------------------------------------------

section
variable {config : ServiceConfig} {host : TimeRule} {clock : Clock} {broadcaster : Broadcaster}
  {paths : Nat}

def Service.outset (config : ServiceConfig) (host : TimeRule) (clock : Clock)
    (broadcaster : Broadcaster) (paths : Nat) : Pipeline :=
  Service.pipeline config host clock broadcaster paths (.create config.emitterCapacity)

theorem Service.outset_delivering :
    Delivering (Service.outset config host clock broadcaster paths) {} where
  flows := ⟨.init rfl rfl rfl, .init config.emitterCapacity 1, rfl, rfl⟩
  counted := ⟨rfl, rfl, rfl, fun _ => rfl⟩
  manned := by
    refine ⟨rfl, ⟨_, rfl, .listening rfl⟩, fun i t there first second => ?_⟩
    rcases i with _ | _ | _ | i
    · cases there
      exact trivial
    · exact absurd rfl first
    · exact absurd rfl second
    · cases there

theorem Service.outset_lossless (room : config.batch.hasRoom = true) :
    Lossless (Service.outset config host clock broadcaster paths).belt {} :=
  ⟨room, .init rfl, rfl⟩

end

-- ---------------------------------------------------------------------------
-- Services in use
-- ---------------------------------------------------------------------------

section
variable {start p q : Pipeline} {log : Log} {config : ServiceConfig} {host : TimeRule}
  {clock : Clock} {broadcaster : Broadcaster} {paths : Nat}

/-- A service that was started and is used, while nobody tells it to stop. -/
inductive Service.InUse (config : ServiceConfig) (host : TimeRule) (clock : Clock)
    (broadcaster : Broadcaster) (paths : Nat) : Service → Prop
  | start {s : Service} :
      Service.start config host clock broadcaster paths false = .ok s →
      InUse config host clock broadcaster paths s
  | call {s : Service} (c : Call) :
      InUse config host clock broadcaster paths s →
      InUse config host clock broadcaster paths (s.call c).2
  | sleep {s : Service} (millis : Nat) :
      InUse config host clock broadcaster paths s →
      InUse config host clock broadcaster paths (s.sleep millis)
  | setClock {s : Service} (base : Instant) :
      InUse config host clock broadcaster paths s →
      InUse config host clock broadcaster paths (s.setClock base)
  | setFailing {s : Service} (failing : Bool) :
      InUse config host clock broadcaster paths s →
      InUse config host clock broadcaster paths (s.setFailing failing)

theorem Meanwhile.of_tasks (belt : q.belt = p.belt) (tasks : q.tasks = p.tasks) :
    Meanwhile p q :=
  ⟨belt, by rw [tasks], by rw [tasks], fun i t there => .inl (tasks ▸ there)⟩

theorem Meanwhile.spawn (seats : Service.publisher < p.tasks.size) {t : Task}
    (outside : (∃ call, t = .calling call) ∨ t = .refreshing) :
    Meanwhile p { p with tasks := p.tasks.push t } := by
  have old {j : Nat} (inside : j < p.tasks.size) : (p.tasks.push t)[j]? = p.tasks[j]? := by
    rw [Array.getElem?_push, if_neg (Nat.ne_of_lt inside)]
  refine ⟨rfl, old (Nat.lt_trans (by decide) seats), old seats, fun i u there => ?_⟩
  dsimp only at there
  rw [Array.getElem?_push] at there
  split at there
  · cases there
    exact .inr outside
  · exact .inl there

theorem Meanwhile.forget (seats : Service.publisher + 1 < p.tasks.size) :
    Meanwhile p { p with tasks := p.tasks.pop } := by
  have old {j : Nat} (inside : j < p.tasks.size - 1) : p.tasks.pop[j]? = p.tasks[j]? := by
    rw [Array.getElem?_pop, if_pos inside]
  refine ⟨rfl, old ?_, old ?_, fun i u there => .inl ?_⟩
  · simp only [Service.batcher, Service.publisher] at seats ⊢
    omega
  · omega
  · dsimp only at there
    rw [Array.getElem?_pop] at there
    split at there
    · exact there
    · cases there

theorem Broadcasting.reaches (course : Broadcasting start p log)
    (reach : Pipeline.system.Reaches p q) :
    (∃ more, Broadcasting start q more) ∧ q.tasks.size = p.tasks.size := by
  induction reach with
  | refl => exact ⟨⟨log, course⟩, rfl⟩
  | step i _ moved ih =>
    obtain ⟨⟨more, course⟩, size⟩ := ih
    obtain ⟨t, next, here, carried⟩ := Pipeline.carried_of_step? moved
    exact ⟨⟨_, course.step here moved⟩, by rw [carried.tasks, Array.size_setIfInBounds, size]⟩
  | wait time _ _ ih =>
    obtain ⟨⟨more, course⟩, size⟩ := ih
    exact ⟨⟨more, course.meanwhile (.of_tasks rfl rfl)⟩, size⟩

theorem Delivering.seats (h : Delivering p log) : Service.publisher < p.tasks.size := by
  obtain ⟨t, publisher, -⟩ := h.manned.publisher
  exact (Array.getElem?_eq_some_iff.mp publisher).1

theorem RunningPipeline.reaches_waitFor (tasks : List Nat) (r : RunningPipeline) :
    Pipeline.system.Reaches r.state (r.waitFor tasks).state :=
  System.reaches_runWhile _ r

theorem RunningPipeline.reaches_settle (r : RunningPipeline) :
    Pipeline.system.Reaches r.state r.settle.state :=
  System.reaches_settle r

theorem Broadcasting.spawns {r : RunningPipeline} {t : Task}
    (course : Broadcasting (Service.outset config host clock broadcaster paths) r.state log)
    (outside : (∃ call, t = .calling call) ∨ t = .refreshing) :
    Broadcasting (Service.outset config host clock broadcaster paths) (r.spawn t).2.state log :=
  course.meanwhile (.spawn (course.delivering Service.outset_delivering).seats outside)

theorem Service.broadcasting_of_finishStart {s : Service} {r : RunningPipeline}
    (seeded : Broadcasting (Service.outset config host clock broadcaster paths) r.state log)
    (finished : Service.finishStart config r = .ok s) :
    ∃ more, Broadcasting (Service.outset config host clock broadcaster paths) s.run.state more := by
  unfold Service.finishStart at finished
  split at finished
  · next window _ =>
    cases finished
    let opened : RunningPipeline := { r with state := { r.state with window := window } }
    have course : Broadcasting (Service.outset config host clock broadcaster paths)
        opened.state log := seeded.meanwhile (.of_tasks rfl rfl)
    exact ((course.spawns (.inr rfl)).reaches (RunningPipeline.reaches_settle _)).1
  · cases finished

theorem Service.broadcasting_of_start {s : Service}
    (started : Service.start config host clock broadcaster paths false = .ok s) :
    ∃ log, Broadcasting (Service.outset config host clock broadcaster paths) s.run.state log := by
  unfold Service.start at started
  split at started
  · cases started
  · next events created =>
    have same : events = .create config.emitterCapacity := by
      unfold Channel.create? at created
      split at created <;> cases created
      rfl
    subst same
    dsimp only at started
    split at started
    · obtain ⟨⟨log, seeded⟩, -⟩ := Broadcasting.start.reaches
        (RunningPipeline.reaches_waitFor [seeder]
          (.launch (Service.outset config host clock broadcaster paths)))
      exact Service.broadcasting_of_finishStart seeded started
    · cases started

theorem Service.InUse.broadcasting {s : Service}
    (used : Service.InUse config host clock broadcaster paths s) :
    ∃ log, Broadcasting (Service.outset config host clock broadcaster paths) s.run.state log := by
  induction used with
  | start started => exact Service.broadcasting_of_start started
  | @call s c _ ih =>
    obtain ⟨log, course⟩ := ih
    have seats := (course.delivering Service.outset_delivering).seats
    obtain ⟨⟨more, answered⟩, size⟩ := (course.spawns (.inl ⟨c, rfl⟩)).reaches
      (RunningPipeline.reaches_waitFor [s.run.state.tasks.size] (s.run.spawn (.calling c)).2)
    refine ⟨more, answered.meanwhile (.forget ?_)⟩
    rw [size, RunningPipeline.spawn, Array.size_push]
    exact Nat.succ_lt_succ seats
  | sleep millis _ ih =>
    obtain ⟨log, course⟩ := ih
    exact (course.reaches (System.reaches_runUntil _ _)).1
  | setClock base _ ih | setFailing failing _ ih =>
    obtain ⟨log, course⟩ := ih
    exact ⟨log, course.meanwhile (.of_tasks rfl rfl)⟩

end

/-- What a service broadcasts, on every course and at every moment. The batches that the
publisher took are a first part of what the store has emitted, in order, and each was
handed to the broadcaster once, whether or not others failed; so the charts of a pair show
a first part of its candles. When all tasks wait and no timer runs but that of the
refresher, no publish is under way and the counters tell how many there were, how many
failed, and how many messages the others had; and with room for a batch everything that
was emitted was handed over, and no task has an event that it could not emit. -/
theorem service_broadcasts {config : ServiceConfig} {host : TimeRule} {clock : Clock}
    {broadcaster : Broadcaster} {paths : Nat} :
    (∀ s, Service.InUse config host clock broadcaster paths s →
      ∃ log, Broadcasting (Service.outset config host clock broadcaster paths) s.run.state log) ∧
    ∀ p log, Broadcasting (Service.outset config host clock broadcaster paths) p log →
      log.taken.flatten <+: log.emitted ∧
      log.attempts.map Attempt.messages ++ p.underway = log.taken.map Message.ofEvents ∧
      (p.broadcaster.recording = true →
        p.published.toList.map Publication.messages = log.published) ∧
      (∀ pair, Chart.pointsOf pair (log.taken.flatMap Chart.ofEvents) <+:
        (Event.candlesOf pair log.emitted).map Candle.point) ∧
      (p.Quiescent →
        p.underway = [] ∧
        p.store.metrics.counters.get .batchesFlushed = UInt64.ofNat log.attempts.length ∧
        p.store.metrics.counters.get .broadcastFailures = UInt64.ofNat log.failures ∧
        p.store.metrics.counters.get .messagesBroadcast = UInt64.ofNat log.messages ∧
        (config.batch.hasRoom = true →
          log.taken.flatten = log.emitted ∧
          (∀ pair, Chart.pointsOf pair (log.taken.flatMap Chart.ofEvents) =
            (Event.candlesOf pair log.emitted).map Candle.point) ∧
          ∀ (i : Nat) t, p.tasks[i]? = some t → t.unsent = [])) := by
  refine ⟨fun s used => used.broadcasting, fun p log course => ?_⟩
  have kept := course.delivering Service.outset_delivering
  have first : log.taken.flatten <+: log.emitted :=
    (List.prefix_append ..).trans kept.flows.carries.first
  have handed := Pipeline.handed_of_manned kept.manned
  refine ⟨first, handed, kept.counted.published, fun pair => ?_, fun quiet => ?_⟩
  · rw [Chart.pointsOf_flatMap]
    obtain ⟨rest, whole⟩ := first
    rw [← whole, Chart.candlesOf_append, List.map_append]
    exact List.prefix_append ..
  · obtain ⟨idle, -⟩ := quiet.taken kept.manned
    have as_many : log.attempts.length = log.taken.length := by
      simpa [idle] using congrArg List.length handed
    refine ⟨idle, as_many ▸ kept.counted.flushed, kept.counted.failures, kept.counted.messages,
      fun room => ?_⟩
    have lossless := course.lossless Service.outset_delivering (Service.outset_lossless room)
    have empty := quiet.flow_eq_nil kept lossless
    have all : log.taken.flatten = log.emitted := by simpa [empty] using lossless.whole
    exact ⟨all, fun pair => by rw [Chart.pointsOf_flatMap, all],
      quiet.nothing_unsent kept.flows.joined empty⟩

-- ---------------------------------------------------------------------------
-- One market
-- ---------------------------------------------------------------------------

def onePair (limit : Nat) : ServiceConfig where
  markets := [⟨"BTC/USDT"⟩]
  resolutions := [.minute1]
  zone := .utc
  batch := { limit := limit }

def onePairAtFive (limit : Nat) : Pipeline :=
  Service.outset (onePair limit) (.fixed 0) ⟨.clamp (5 * nanosPerSecond), false⟩ ⟨true, 0, false⟩ 1

def onePairSeeded (limit : Nat) : Pipeline × Log :=
  let seeded := (onePairAtFive limit).follow {} [0, 0, 0, 1, 0, 0, 0, 1, 2, 2]
  { seeded.1 with tasks := seeded.1.tasks.push .refreshing }.follow seeded.2 [3]

theorem onePairSeeded_broadcasting (limit : Nat) :
    Broadcasting (onePairAtFive limit) (onePairSeeded limit).1 (onePairSeeded limit).2 := by
  have started : Broadcasting (onePairAtFive limit) (onePairAtFive limit) {} := .start
  have seeded := started.follow [0, 0, 0, 1, 0, 0, 0, 1, 2, 2]
  have seats := (seeded.delivering Service.outset_delivering).seats
  exact (seeded.meanwhile (.spawn seats (.inr rfl))).follow [3]

theorem onePair_broadcasts :
    ∃ p log, Broadcasting (onePairAtFive 1) p log ∧ p.Quiescent ∧ (onePair 1).batch.hasRoom = true ∧
      log.emitted.length = 1 ∧ log.taken.flatten = log.emitted ∧
      p.store.metrics.counters.get .batchesFlushed = UInt64.ofNat log.attempts.length := by
  have course := onePairSeeded_broadcasting 1
  have quiet : (onePairSeeded 1).1.Quiescent := by decide +kernel
  have room : (onePair 1).batch.hasRoom = true := by decide
  have one : (onePairSeeded 1).2.emitted.length = 1 := by decide +kernel
  obtain ⟨-, -, -, -, rest⟩ := service_broadcasts.2 _ _ course
  obtain ⟨-, flushed, -, -, all⟩ := rest quiet
  exact ⟨_, _, course, quiet, room, one, (all room).1, flushed⟩

/-- With a limit for which no room can be reserved the first event is lost: it was emitted,
the service is at rest, and the publisher never gets it. -/
theorem vastBatches_lose_event :
    ∃ p log, Broadcasting (onePairAtFive 18446744073709551615) p log ∧ p.Quiescent ∧
      p.store.cancelled = false ∧ log.emitted.length = 1 ∧ log.taken.flatten ≠ log.emitted := by
  refine ⟨_, _, onePairSeeded_broadcasting 18446744073709551615, ?_⟩
  decide +kernel

end Candlestick
