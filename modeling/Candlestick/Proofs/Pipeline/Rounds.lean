import Candlestick.Proofs.Clock
import Candlestick.Proofs.Pipeline.Session
import Candlestick.Proofs.Schedule.Prompt

/-!
# The rounds of a refresher

A refresher that nobody tells to stop, in a pipeline whose clock keeps step with its time,
while all other tasks take steps in any order (`Rounds`). It is always on its way to its
next round (`OnRound`), none is left out and none comes twice (`refreshes_keep_step`).
-/

namespace Candlestick

namespace Pipeline

structure Still (p q : Pipeline) : Prop where
  clock : q.clock = p.clock
  millis : q.millis = p.millis
  cancelled : q.store.cancelled = p.store.cancelled

structure Around (i : Nat) (p q : Pipeline) : Prop extends Still p q where
  task : q.tasks[i]? = p.tasks[i]?

def requested (p : Pipeline) (i : Nat) : List DatedRequest :=
  (p.tasks[i]?.bind (Task.logged? p.now i)).toList.map Entry.dated

variable {p q : Pipeline} {i j : Nat}

theorem requested_eq {t : Task} (here : p.tasks[i]? = some t) :
    p.requested i = (t.logged? p.now i).toList.map Entry.dated := by
  rw [requested, here]
  rfl

theorem Still.now (still : Still p q) : q.now = p.now := by
  rw [Pipeline.now, still.clock, still.millis, Pipeline.now]

theorem nanos_now (keeps : p.clock.Keeps p.millis) :
    p.now.nanos = p.clock.base.nanos + p.millis * nanosPerMilli :=
  keeps.nanos_reading

-- ---------------------------------------------------------------------------
-- Steps and the time
-- ---------------------------------------------------------------------------

theorem begin_still (p : Pipeline) (i : Nat) (call : Call) : Still p (p.begin i call) := by
  unfold begin
  repeat' split
  all_goals exact ⟨rfl, rfl, rfl⟩

theorem handle_still (p : Pipeline) (i path : Nat) (delivery : Delivery) :
    Still p (p.handle i path delivery) := by
  unfold handle
  repeat' split
  all_goals exact ⟨rfl, rfl, rfl⟩

theorem settleClaim_still (p : Pipeline) (i path : Nat) (deal : Deal)
    (result : Except StoreError Reply) : Still p (p.settleClaim i path deal result) := by
  cases result <;> exact ⟨rfl, rfl, rfl⟩

theorem stepVisit?_still {visitor : Visitor} {visit : Visit}
    (h : p.stepVisit? i visitor visit = some q) : Still p q := by
  obtain ⟨store, next, step, rfl⟩ | ⟨store, result, step, rfl⟩ := stepVisit?_cases h
  · cases step <;> exact ⟨rfl, rfl, rfl⟩
  · cases step
    unfold leave
    repeat' split
    all_goals exact ⟨rfl, rfl, rfl⟩

theorem publish_still (p : Pipeline) (i : Nat) (messages : List Message) (began : Nat) :
    Still p (p.publish i messages began) := by
  unfold publish
  dsimp only
  repeat' split
  all_goals exact ⟨rfl, rfl, rfl⟩

theorem step?_still (h : step? i p = some q) : Still p q := by
  obtain ⟨t, -, step⟩ := taskStep_of_step? h
  cases step with
  | begins call => exact begin_still p i call
  | handles => exact handle_still ..
  | visits step => exact stepVisit?_still step
  | settles path deal result => exact settleClaim_still p i path deal result
  | publishes => exact publish_still ..
  | seeded | seeds | rests | refreshes | retires | wakes | closes | gathers | takes | ends =>
    exact ⟨rfl, rfl, rfl⟩

theorem around_of_step? (h : step? j p = some q) (other : j ≠ i) : Around i p q := by
  obtain ⟨t, next, -, moves⟩ := step?_moves h
  exact ⟨step?_still h, by rw [moves.tasks, Array.getElem?_setIfInBounds_ne other]⟩

end Pipeline

-- ---------------------------------------------------------------------------
-- Rounds
-- ---------------------------------------------------------------------------

/-- From a start to a state of a pipeline, with the requests that one of its tasks has carried
out on the way. -/
inductive Rounds (i : Nat) (start : Pipeline) : Pipeline → List DatedRequest → Prop
  | start : Rounds i start start []
  | own {p q : Pipeline} {log : List DatedRequest} :
      Rounds i start p log → Pipeline.step? i p = some q →
      Rounds i start q (log ++ p.requested i)
  | other {p q : Pipeline} {log : List DatedRequest} (j : Nat) :
      Rounds i start p log → j ≠ i → Pipeline.step? j p = some q → Rounds i start q log
  | around {p q : Pipeline} {log : List DatedRequest} :
      Rounds i start p log → Pipeline.Around i p q → Rounds i start q log
  /-- Time passes while all tasks wait, and not while the task visits the store. -/
  | elapses {p : Pipeline} {log : List DatedRequest} (millis : Nat) :
      Rounds i start p log → Pipeline.system.Elapses p millis →
      (∀ visitor visit, p.tasks[i]? ≠ some (.visiting visitor visit)) →
      Rounds i start { p with millis := millis } log

/-- Where a refresher stands that is to begin its next round at a certain reading. -/
inductive OnRound (p : Pipeline) (due : Int) : Task → Prop
  | refreshing : p.now.nextRound = due → OnRound p due .refreshing
  | resting {deadline : Nat} :
      p.millis ≤ deadline → p.clock.base.nanos + deadline * nanosPerMilli = due →
      OnRound p due (.resting deadline)
  | asking : p.now.nanos = due → OnRound p due (.visiting .refresher (.waiting .refresh))
  | sending {events : List Event} {count : Nat} {reply : Reply} :
      p.now.nextRound = due → OnRound p due (.visiting .refresher (.sending events count reply))
  | leaving {result : Except StoreError Reply} :
      p.now.nextRound = due → result ≠ .error .cancelled →
      OnRound p due (.visiting .refresher (.leaving result))

namespace Pipeline

variable {p q : Pipeline} {i : Nat} {t : Task} {due : Int}

theorem step?_refreshing (here : p.tasks[i]? = some .refreshing)
    (going : p.store.cancelled = false) : step? i p =
      some (p.put i (.resting (p.millis + millisOf (delayToMinute p.now)))) := by
  simp [step?, here, going]

theorem step?_resting {deadline : Nat} (here : p.tasks[i]? = some (.resting deadline))
    (going : p.store.cancelled = false) : step? i p =
      if deadline ≤ p.millis then some (p.visit i .refresher .refresh) else none := by
  simp [step?, here, going]

theorem step?_asking (here : p.tasks[i]? = some (.visiting .refresher (.waiting .refresh)))
    (held : p.store.lock.heldBy i = true) : step? i p =
      some ((p.withStore (p.store.act p.now .refresh).1).put i
        (.visiting .refresher (p.store.act p.now .refresh).2)) := by
  simp [step?, here, stepVisit?, SharedStore.step?, held]

theorem step?_sent {count : Nat} {reply : Reply}
    (here : p.tasks[i]? = some (.visiting .refresher (.sending [] count reply))) : step? i p =
      some ((p.withStore (p.store.count .eventsEmitted count)).put i
        (.visiting .refresher (.leaving (.ok reply)))) := by
  simp only [step?, here, stepVisit?, SharedStore.step?]

theorem step?_closed {event : Event} {rest : List Event} {count : Nat} {reply : Reply}
    (here : p.tasks[i]? = some (.visiting .refresher (.sending (event :: rest) count reply)))
    (closed : p.store.events.send event = .closed) : step? i p =
      some (p.put i (.visiting .refresher (.leaving (.error .channelClosed)))) := by
  simp only [step?, here, stepVisit?, SharedStore.step?, SharedStore.publish?, closed]
  rfl

theorem step?_leaving {result : Except StoreError Reply}
    (here : p.tasks[i]? = some (.visiting .refresher (.leaving result)))
    (goes : result ≠ .error .cancelled) : step? i p =
      some ((p.withStore { p.store with lock := p.store.lock.release }).put i .refreshing) := by
  simp only [step?, here, stepVisit?, SharedStore.step?, leave]

theorem nanos_timer (keeps : p.clock.Keeps p.millis) :
    p.clock.base.nanos + (p.millis + millisOf (delayToMinute p.now) : Nat) * nanosPerMilli =
      p.now.nextRound := by
  rw [Instant.nextRound, nanos_now keeps, Int.natCast_add, Int.add_mul, Int.add_assoc]

theorem sending_cases {events : List Event} {count : Nat} {reply : Reply}
    (here : p.tasks[i]? = some (.visiting .refresher (.sending events count reply)))
    (going : p.store.cancelled = false) (stepped : step? i p = some q) :
    (∃ rest, q.tasks[i]? = some (.visiting .refresher (.sending rest count reply))) ∨
      ∃ result, q.tasks[i]? = some (.visiting .refresher (.leaving result)) ∧
        result ≠ .error .cancelled := by
  cases events with
  | nil =>
    rw [step?_sent here] at stepped
    cases stepped
    exact .inr ⟨_, tasks_put_self here _, by simp⟩
  | cons event rest =>
    cases sending : p.store.events.send event with
    | sent events =>
      simp only [step?, here, stepVisit?, SharedStore.step?, SharedStore.publish?, sending]
        at stepped
      cases stepped
      exact .inl ⟨_, tasks_put_self here _⟩
    | closed =>
      rw [step?_closed here sending] at stepped
      cases stepped
      exact .inr ⟨_, tasks_put_self here _, by simp⟩
    | full =>
      simp [step?, here, stepVisit?, SharedStore.step?, SharedStore.publish?, sending, going]
        at stepped

end Pipeline

section
open Pipeline

variable {i : Nat} {start p q : Pipeline} {t : Task} {due : Int} {log : List DatedRequest}

/-- What the next step of a refresher does: it stays on its round, or it refreshes, at the
reading that was due, and is on the next one. -/
theorem OnRound.step (round : OnRound p due t) (here : p.tasks[i]? = some t)
    (going : p.store.cancelled = false) (keeps : p.clock.Keeps p.millis)
    (stepped : step? i p = some q) : ∃ next, q.tasks[i]? = some next ∧
      ((p.requested i = [] ∧ OnRound q due next) ∨
        (p.requested i = [⟨p.now, .refresh⟩] ∧ p.now.nanos = due ∧
          OnRound q p.now.nextRound next)) := by
  cases round with
  | refreshing next =>
    rw [step?_refreshing here going] at stepped
    cases stepped
    refine ⟨_, tasks_put_self here _, .inl ⟨requested_eq here, ?_⟩⟩
    exact .resting (Nat.le_add_right ..) ((nanos_timer keeps).trans next)
  | @resting deadline early set =>
    rw [step?_resting here going] at stepped
    split at stepped
    · next late =>
      cases stepped
      refine ⟨_, tasks_put_self here _, .inl ⟨requested_eq here, .asking ?_⟩⟩
      rw [← set, Nat.le_antisymm late early]
      exact nanos_now keeps
    · cases stepped
  | asking now =>
    have held : p.store.lock.heldBy i = true := by
      by_contra other
      simp [step?, here, stepVisit?, SharedStore.step?, other] at stepped
    rw [step?_asking here held] at stepped
    cases stepped
    exact ⟨_, tasks_put_self here _, .inr ⟨requested_eq here, now, .sending rfl⟩⟩
  | sending next =>
    have kept : q.now.nextRound = due := by rw [(step?_still stepped).now, next]
    rcases sending_cases here going stepped with ⟨rest, there⟩ | ⟨result, there, goes⟩
    · exact ⟨_, there, .inl ⟨requested_eq here, .sending kept⟩⟩
    · exact ⟨_, there, .inl ⟨requested_eq here, .leaving kept goes⟩⟩
  | leaving next goes =>
    rw [step?_leaving here goes] at stepped
    cases stepped
    exact ⟨_, tasks_put_self here _, .inl ⟨requested_eq here, .refreshing next⟩⟩

theorem OnRound.still (round : OnRound p due t) (still : Still p q) : OnRound q due t := by
  have now := still.now
  cases round with
  | refreshing next => exact .refreshing (now ▸ next)
  | resting early set => exact .resting (still.millis ▸ early) (still.clock ▸ set)
  | asking here => exact .asking (now ▸ here)
  | sending next => exact .sending (now ▸ next)
  | leaving next goes => exact .leaving (now ▸ next) goes

theorem OnRound.now_le (round : OnRound p due t) (keeps : p.clock.Keeps p.millis) :
    p.now.nanos ≤ due := by
  cases round with
  | refreshing next | sending next | leaving next => exact next ▸ Int.le_of_lt p.now.lt_nextRound
  | resting early set =>
    rw [nanos_now keeps, ← set]
    unfold nanosPerMilli
    omega
  | asking here => exact Int.le_of_eq here

structure Punctual (i : Nat) (start p : Pipeline) (log : List DatedRequest) : Prop where
  clock : p.clock = start.clock
  going : p.store.cancelled = false
  place : ∃ t, p.tasks[i]? = some t ∧ OnRound p (start.now.round log.length) t
  rounds : ∀ k d, log[k]? = some d → d.request = .refresh ∧ d.now.nanos = start.now.round k

theorem Punctual.around (h : Punctual i start p log) (around : Pipeline.Around i p q) :
    Punctual i start q log := by
  obtain ⟨t, here, round⟩ := h.place
  exact ⟨around.clock.trans h.clock, around.cancelled.trans h.going,
    ⟨t, around.task.trans here, round.still around.toStill⟩, h.rounds⟩

theorem Punctual.own (h : Punctual i start p log) (keeps : p.clock.Keeps p.millis)
    (stepped : Pipeline.step? i p = some q) : Punctual i start q (log ++ p.requested i) := by
  have still := Pipeline.step?_still stepped
  obtain ⟨t, here, round⟩ := h.place
  obtain ⟨next, there, ⟨none, round⟩ | ⟨one, due, round⟩⟩ :=
    round.step here h.going keeps stepped
  · rw [none, List.append_nil]
    exact ⟨still.clock.trans h.clock, still.cancelled.trans h.going, ⟨next, there, round⟩, h.rounds⟩
  · rw [Instant.nextRound_of_round due] at round
    rw [one]
    refine ⟨still.clock.trans h.clock, still.cancelled.trans h.going,
      ⟨next, there, by simpa using round⟩, fun k d found => ?_⟩
    rcases Nat.lt_trichotomy k log.length with early | rfl | late
    · rw [List.getElem?_append_left early] at found
      exact h.rounds k d found
    · rw [List.getElem?_concat_length] at found
      cases found
      exact ⟨rfl, due⟩
    · rw [List.getElem?_eq_none (by rw [List.length_append]; exact late)] at found
      cases found

/-- Time passes only while the refresher rests, and not beyond its next round. -/
theorem Punctual.elapses (h : Punctual i start p log) {millis : Nat}
    (elapses : Pipeline.system.Elapses p millis)
    (outside : ∀ visitor visit, p.tasks[i]? ≠ some (.visiting visitor visit)) :
    Punctual i start { p with millis := millis } log := by
  obtain ⟨t, here, round⟩ := h.place
  refine ⟨h.clock, h.going, ⟨t, here, ?_⟩, h.rounds⟩
  cases round with
  | refreshing =>
    have waits : Pipeline.step? i p = none := elapses.waiting i
    rw [Pipeline.step?_refreshing here h.going] at waits
    cases waits
  | @resting deadline _ set =>
    have wakes : Pipeline.system.deadline? i p = some deadline := by
      simp [Pipeline.system, Pipeline.deadline?, here]
    exact .resting (elapses.due i deadline wakes) set
  | asking | sending | leaving => exact absurd here (outside _ _)

theorem Rounds.punctual (rounds : Rounds i start p log)
    (spawned : start.tasks[i]? = some .refreshing) (going : start.store.cancelled = false)
    (keeps : p.clock.Keeps p.millis) : Punctual i start p log := by
  induction rounds with
  | start =>
    refine ⟨rfl, going, ⟨_, spawned, .refreshing ?_⟩, fun k d found => by simp at found⟩
    simp [Instant.round]
  | own _ stepped ih =>
    have still := Pipeline.step?_still stepped
    rw [still.clock, still.millis] at keeps
    exact (ih keeps).own keeps stepped
  | other j _ differs stepped ih =>
    have still := Pipeline.step?_still stepped
    rw [still.clock, still.millis] at keeps
    exact (ih keeps).around (Pipeline.around_of_step? stepped differs)
  | around _ around ih =>
    rw [around.clock, around.millis] at keeps
    exact (ih keeps).around around
  | elapses millis _ elapses outside ih =>
    exact (ih (keeps.mono elapses.later)).elapses elapses outside

-- ---------------------------------------------------------------------------
-- The next round
-- ---------------------------------------------------------------------------

/-- A task with the store to itself: the others have stopped, and nobody takes events. -/
def Pipeline.deserted (p : Pipeline) (i : Nat) (t : Task) : Pipeline :=
  { p with
    tasks := (Array.replicate (i + 1) .stopped).setIfInBounds i t
    store := { p.store with lock := ⟨some i, []⟩, events := p.store.events.dropReceiver } }

theorem Pipeline.task_deserted (p : Pipeline) (i : Nat) (t : Task) :
    (p.deserted i t).tasks[i]? = some t :=
  Array.getElem?_setIfInBounds_self_of_lt (by simp)

theorem Pipeline.around_deserted (here : p.tasks[i]? = some t) :
    Around i p (p.deserted i t) :=
  ⟨⟨rfl, rfl, rfl⟩, (p.task_deserted i t).trans here.symm⟩

theorem Pipeline.others_deserted (p : Pipeline) (t : Task) {j : Nat} (other : j ≠ i) :
    step? j (p.deserted i t) = none ∧ deadline? j (p.deserted i t) = none := by
  have there : (p.deserted i t).tasks[j]? = none ∨ (p.deserted i t).tasks[j]? = some .stopped := by
    rw [deserted, Array.getElem?_setIfInBounds_ne (Ne.symm other), Array.getElem?_replicate]
    split
    · exact .inr rfl
    · exact .inl rfl
  rcases there with there | there
  · simp [step?, deadline?, there]
  · simp [step?, deadline?, there]

theorem Pipeline.elapses_deserted {deadline : Nat} (p : Pipeline) (i : Nat)
    (going : p.store.cancelled = false) (early : p.millis < deadline) :
    system.Elapses (p.deserted i (.resting deadline)) deadline := by
  have there := p.task_deserted i (.resting deadline)
  have set : deadline? i (p.deserted i (.resting deadline)) = some deadline := by
    simp [deadline?, there]
  refine ⟨Nat.le_of_lt early, fun j => ?_, fun j due wakes => ?_⟩
  · by_cases same : j = i
    · subst same
      exact (step?_resting there going).trans (if_neg (Nat.not_le.mpr early))
    · exact (p.others_deserted _ same).1
  · by_cases same : j = i
    · subst same
      exact Nat.le_of_eq (Option.some.inj (set.symm.trans wakes))
    · cases (p.others_deserted (.resting deadline) same).2.symm.trans wakes

theorem Pipeline.leaves_deserted (p : Pipeline) (i : Nat) (events : List Event) (count : Nat)
    (reply : Reply) : ∃ q result,
      step? i (p.deserted i (.visiting .refresher (.sending events count reply))) = some q ∧
        q.tasks[i]? = some (.visiting .refresher (.leaving result)) ∧
        result ≠ .error .cancelled := by
  have there := p.task_deserted i (.visiting .refresher (.sending events count reply))
  cases events with
  | nil => exact ⟨_, .ok reply, step?_sent there, tasks_put_self there _, by simp⟩
  | cons event rest =>
    have closed : p.store.events.dropReceiver.send event = .closed :=
      Channel.send_eq_closed.mpr (by simp [Channel.dropReceiver])
    exact ⟨_, .error .channelClosed, step?_closed there closed, tasks_put_self there _, by simp⟩

/-- With no round since, the refresher gets to the store. -/
def Asks (i : Nat) (start : Pipeline) (log : List DatedRequest) : Prop :=
  ∃ q, Rounds i start q log ∧ q.tasks[i]? = some (.visiting .refresher (.waiting .refresh)) ∧
    q.clock.Keeps q.millis

theorem Rounds.moves (rounds : Rounds i start p log) (here : p.tasks[i]? = some t)
    (quiet : t.logged? p.now i = none) (stepped : step? i p = some q) : Rounds i start q log := by
  have nothing : p.requested i = [] := by rw [requested_eq here, quiet]; rfl
  simpa [nothing] using rounds.own stepped

theorem Rounds.asks_of_resting {deadline : Nat} (rounds : Rounds i start p log)
    (here : p.tasks[i]? = some (.resting deadline)) (going : p.store.cancelled = false)
    (early : p.millis ≤ deadline) (keeps : p.clock.Keeps deadline) : Asks i start log := by
  have there := p.task_deserted i (.resting deadline)
  have waited : Rounds i start { p.deserted i (.resting deadline) with millis := deadline } log := by
    have aside := rounds.around (around_deserted here)
    rcases Nat.eq_or_lt_of_le early with same | early
    · exact same ▸ aside
    · exact aside.elapses deadline (p.elapses_deserted i going early) (by simp [there])
  have due := (step?_resting (p := { p.deserted i (.resting deadline) with millis := deadline })
    there going).trans (if_pos (Nat.le_refl _))
  exact ⟨_, waited.moves there rfl due, tasks_put_self there _, keeps⟩

theorem Rounds.asks_of_refreshing (rounds : Rounds i start p log)
    (here : p.tasks[i]? = some .refreshing) (going : p.store.cancelled = false)
    (keeps : p.clock.Keeps p.millis) (within : p.now.nextRound ≤ Instant.last.nanos) :
    Asks i start log := by
  have sets := step?_refreshing here going
  refine (rounds.moves here rfl sets).asks_of_resting (tasks_put_self here _) going (Nat.le_add_right ..)
    ⟨keeps.running, ?_⟩
  exact nanos_timer keeps ▸ within

theorem Rounds.asks_of_leaving {result : Except StoreError Reply} (rounds : Rounds i start p log)
    (here : p.tasks[i]? = some (.visiting .refresher (.leaving result)))
    (goes : result ≠ .error .cancelled) (going : p.store.cancelled = false)
    (keeps : p.clock.Keeps p.millis) (within : p.now.nextRound ≤ Instant.last.nanos) :
    Asks i start log :=
  (rounds.moves here rfl (step?_leaving here goes)).asks_of_refreshing (tasks_put_self here _)
    going keeps within

theorem Rounds.asks_of_sending {events : List Event} {count : Nat} {reply : Reply}
    (rounds : Rounds i start p log)
    (here : p.tasks[i]? = some (.visiting .refresher (.sending events count reply)))
    (going : p.store.cancelled = false)
    (keeps : p.clock.Keeps p.millis) (within : p.now.nextRound ≤ Instant.last.nanos) :
    Asks i start log := by
  have there := p.task_deserted i (.visiting .refresher (.sending events count reply))
  obtain ⟨q, result, stepped, gone, goes⟩ := p.leaves_deserted i events count reply
  have still := step?_still stepped
  refine ((rounds.around (around_deserted here)).moves there rfl stepped).asks_of_leaving gone goes
    (still.cancelled.trans going) ?_ ?_
  · rw [still.clock, still.millis]
    exact keeps
  · rw [still.now]
    exact within

theorem Rounds.goes_on (rounds : Rounds i start p log)
    (spawned : start.tasks[i]? = some .refreshing) (going : start.store.cancelled = false)
    (keeps : p.clock.Keeps p.millis)
    (within : start.now.round log.length ≤ Instant.last.nanos) :
    ∃ q d, Rounds i start q (log ++ [d]) ∧ q.clock.Keeps q.millis := by
  have punctual := rounds.punctual spawned going keeps
  obtain ⟨t, here, round⟩ := punctual.place
  have asks : Asks i start log := by
    cases round with
    | refreshing next =>
      exact rounds.asks_of_refreshing here punctual.going keeps (next ▸ within)
    | resting early set =>
      exact rounds.asks_of_resting here punctual.going early ⟨keeps.running, set ▸ within⟩
    | asking => exact ⟨p, rounds, here, keeps⟩
    | sending next => exact rounds.asks_of_sending here punctual.going keeps (next ▸ within)
    | leaving next goes =>
      exact rounds.asks_of_leaving here goes punctual.going keeps (next ▸ within)
  obtain ⟨q, rounds, here, keeps⟩ := asks
  have there := q.task_deserted i (.visiting .refresher (.waiting .refresh))
  have acts := step?_asking there (by simp [deserted, Lock.heldBy])
  have goes := (rounds.around (around_deserted here)).own acts
  rw [requested_eq there] at goes
  exact ⟨_, _, goes, keeps⟩

/-- There is a way on to every round for which there is a reading. -/
theorem Rounds.goes_on_to {k : Nat} (rounds : Rounds i start p log)
    (spawned : start.tasks[i]? = some .refreshing) (going : start.store.cancelled = false)
    (keeps : p.clock.Keeps p.millis) (within : start.now.round k ≤ Instant.last.nanos) :
    ∃ q more, Rounds i start q (log ++ more) ∧ q.clock.Keeps q.millis ∧
      k < (log ++ more).length := by
  -- by induction on the number of rounds that are missing
  obtain ⟨missing, enough⟩ : ∃ missing, k < log.length + missing := ⟨k + 1, by omega⟩
  induction missing generalizing p log with
  | zero => exact ⟨p, [], by rwa [List.append_nil], keeps, by rwa [List.append_nil]⟩
  | succ missing ih =>
    by_cases done : k < log.length
    · exact ⟨p, [], by rwa [List.append_nil], keeps, by rwa [List.append_nil]⟩
    · have due : start.now.round log.length ≤ start.now.round k :=
        Int.not_lt.mp fun less => done (Instant.round_lt_round_iff.mp less)
      obtain ⟨q, d, rounds, keeps⟩ := rounds.goes_on spawned going keeps (Int.le_trans due within)
      obtain ⟨r, more, rounds, keeps, reached⟩ := ih rounds keeps
        (by rw [List.length_append, List.length_singleton]; omega)
      rw [List.append_assoc] at rounds reached
      exact ⟨r, d :: more, rounds, keeps, reached⟩

end

/-- A refresher begins at any reading of a clock that keeps step with the time, before or
after the epoch, on the minute or within it, and nobody tells the store to stop. The tasks
take their steps in any order, and time passes only while all of them wait, past no
deadline, and with no refresh under way (`Rounds`). Then all that the refresher carries out
are refreshes, one in each minute after the one in which it began, less than a millisecond
after that minute began and exactly a minute after the refresh before. A refresh has been
carried out when its minute is a millisecond old, and there always is a way on to the next
one, for as long as there are readings left. -/
theorem refreshes_keep_step {start : Pipeline} {i : Nat}
    (spawned : start.tasks[i]? = some .refreshing) (going : start.store.cancelled = false)
    {p : Pipeline} {log : List DatedRequest} (rounds : Rounds i start p log)
    (keeps : p.clock.Keeps p.millis) :
    (∀ (k : Nat) d, log[k]? = some d → d.request = .refresh ∧
      d.now.nanos = start.now.round k ∧
      0 ≤ d.now.nanos % nanosPerMinute ∧ d.now.nanos % nanosPerMinute < nanosPerMilli ∧
      d.now.minute = start.now.minute + 1 + k) ∧
    (∀ k : Nat, (start.now.minute + 1 + k) * nanosPerMinute + nanosPerMilli ≤ p.now.nanos →
      k < log.length) ∧
    (∀ k, start.now.round k ≤ Instant.last.nanos →
      ∃ q more, Rounds i start q (log ++ more) ∧ q.clock.Keeps q.millis ∧
        k < (log ++ more).length) := by
  have punctual := rounds.punctual spawned going keeps
  refine ⟨fun k d found => ?_, fun k passed => ?_, fun k within => ?_⟩
  · obtain ⟨refresh, now⟩ := punctual.rounds k d found
    obtain ⟨minute, early⟩ := Instant.minute_round now
    exact ⟨refresh, now, Int.emod_nonneg _ (by decide), early, minute⟩
  · obtain ⟨t, -, round⟩ := punctual.place
    have ahead := Int.le_trans passed (round.now_le keeps)
    have next := (start.now.round_bounds k).2
    exact Instant.round_lt_round_iff.mp (Int.lt_of_lt_of_le next ahead)
  · exact rounds.goes_on_to spawned going keeps within

/-- A refresher that begins fifteen seconds and a fraction of a millisecond before the epoch. -/
def fifteenBefore : Pipeline where
  store := { config := ⟨⟨.utc, .fixed 0⟩, [.minute1]⟩, events := .create 1 }
  window := .empty 1
  ingesters := #[]
  clock := ⟨.clamp (-15000300000), true⟩
  tasks := #[.refreshing]

theorem fifteenBefore_keeps_step :
    ∃ p log, Rounds 0 fifteenBefore p log ∧ 2 < log.length ∧
      ∀ (k : Nat) d, log[k]? = some d → d.now.nanos = 700000 + k * nanosPerMinute ∧
        d.now.minute = k := by
  have spawned : fifteenBefore.tasks[0]? = some .refreshing := rfl
  have going : fifteenBefore.store.cancelled = false := rfl
  have first : fifteenBefore.clock.Keeps fifteenBefore.millis := ⟨rfl, by decide⟩
  obtain ⟨-, -, goes⟩ := refreshes_keep_step spawned going .start first
  obtain ⟨p, log, rounds, keeps, long⟩ := goes 2 (by decide)
  obtain ⟨readings, -⟩ := refreshes_keep_step spawned going rounds keeps
  have due : fifteenBefore.now.nextRound = 700000 := by decide
  have next : fifteenBefore.now.minute + 1 = 0 := by decide
  refine ⟨p, [] ++ log, rounds, long, fun k d found => ?_⟩
  obtain ⟨-, now, -, -, minute⟩ := readings k d found
  rw [Instant.round, due] at now
  rw [next, Int.zero_add] at minute
  exact ⟨now, minute⟩

end Candlestick
