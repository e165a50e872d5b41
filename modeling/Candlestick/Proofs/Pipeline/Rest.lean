import Candlestick.Proofs.Pipeline.Serial
import Mathlib

/-!
# How sessions end

While no more calls come, the effort that is left goes down with every step and every event
taken (`callStep_effort`), so a session comes to rest however it is scheduled. At rest every
call has its answer, and the channel has carried the events of the run of the calls one
after the other (`session_serial`).
-/

namespace Candlestick

structure Pipeline.AtRest (p : Pipeline) : Prop where
  still : ∀ i, Pipeline.step? i p = none
  taken : p.store.events.items = []

theorem Pipeline.atRest_iff {p : Pipeline} :
    p.AtRest ↔ (∀ i < p.tasks.size, (Pipeline.step? i p).isNone = true) ∧
      p.store.events.items = [] := by
  refine ⟨fun rest => ⟨fun i _ => by rw [rest.still i]; rfl, rest.taken⟩, fun ⟨still, taken⟩ => ?_⟩
  refine ⟨fun i => ?_, taken⟩
  rcases Nat.lt_or_ge i p.tasks.size with inside | outside
  · simpa using still i inside
  · simp [Pipeline.step?, Array.getElem?_eq_none outside]

instance (p : Pipeline) : Decidable p.AtRest := decidable_of_iff _ Pipeline.atRest_iff.symm

-- ---------------------------------------------------------------------------
-- Effort
-- ---------------------------------------------------------------------------

/-- The steps that a call takes before its request is carried out. -/
def Task.before : Task → Nat
  | .calling _ => 2
  | .visiting _ (.waiting _) => 1
  | _ => 0

/-- What a call has left to do after that. An event weighs more before it is sent
than on the channel. -/
def Task.ahead : Task → Nat
  | .visiting _ (.sending events _ _) => 2 * events.length + 2
  | .visiting _ (.leaving _) => 1
  | _ => 0

theorem sum_map_set {l : List Task} {i : Nat} {t : Task} (f : Task → Nat) (next : Task)
    (here : l[i]? = some t) : ((l.set i next).map f).sum + f t = (l.map f).sum + f next := by
  induction l generalizing i with
  | nil => cases here
  | cons first rest ih =>
    cases i with
    | zero =>
      cases here
      simp only [List.set_cons_zero, List.map_cons, List.sum_cons]
      omega
    | succ i =>
      have below := ih (i := i) here
      simp only [List.set_cons_succ, List.map_cons, List.sum_cons]
      omega

namespace Pipeline

def before (p : Pipeline) : Nat := (p.tasks.toList.map Task.before).sum

def ahead (p : Pipeline) : Nat :=
  (p.tasks.toList.map Task.ahead).sum + p.store.events.items.length

/-- Less is left to do, first of all of what comes before a request is carried
out. -/
def Nearer (q p : Pipeline) : Prop :=
  Prod.Lex (· < ·) (· < ·) (q.before, q.ahead) (p.before, p.ahead)

theorem nearer_wellFounded : WellFounded Nearer :=
  InvImage.wf (fun p : Pipeline => (p.before, p.ahead))
    (Prod.lex Nat.lt_wfRel Nat.lt_wfRel).wf

variable {p : Pipeline} {i : Nat} {t next : Task} {store : SharedStore}

theorem nearer_put (here : p.tasks[i]? = some t)
    (less : next.before < t.before ∨ (next.before = t.before ∧
      next.ahead + store.events.items.length < t.ahead + p.store.events.items.length)) :
    Nearer ((p.withStore store).put i next) p := by
  have listed : p.tasks.toList[i]? = some t := by simpa using here
  have first := sum_map_set Task.before next listed
  have second := sum_map_set Task.ahead next listed
  rw [Nearer, Prod.lex_def]
  simp only [before, ahead, put, withStore, Array.toList_setIfInBounds]
  rcases less with less | ⟨same, less⟩
  · left; omega
  · right; omega

theorem callStep_effort (here : p.tasks[i]? = some t)
    (step : CallStep p.now i p.store t store next) :
    Nearer ((p.withStore store).put i next) p := by
  refine nearer_put here ?_
  cases step with
  | enters => exact .inl (Nat.lt_succ_self 1)
  | refused => exact .inl (Nat.zero_lt_succ 1)
  | acts | fails => exact .inl Nat.zero_lt_one
  | sends sent =>
    refine .inr ⟨rfl, ?_⟩
    rw [Channel.items_of_sent sent]
    simp only [Task.ahead, List.length_append, List.length_cons, List.length_nil]
    omega
  | sent => exact .inr ⟨rfl, by simp [Task.ahead, SharedStore.count]⟩
  | leaves => exact .inr ⟨rfl, by simp [Task.ahead]⟩

theorem nearer_takes {event : Event} {events : Channel Event}
    (taken : p.store.events.receive = .item event events) :
    Nearer (p.withStore { p.store with events := events }) p := by
  rw [Nearer, Prod.lex_def]
  refine .inr ⟨rfl, ?_⟩
  simp [ahead, withStore, Channel.items_of_received taken]

end Pipeline

section
variable {start p q : Pipeline} {j k : Journal}

/-- A session can always go on until it is at rest. -/
theorem Session.comes_to_rest (idle : Idle start) (session : Session start p j) :
    ∃ q k, Session start q k ∧ k.asked = j.asked ∧ q.AtRest := by
  -- on the effort that is left
  induction p using Pipeline.nearer_wellFounded.induction generalizing j with
  | _ p ih =>
    have serial := session.serial idle
    by_cases still : ∀ i, Pipeline.step? i p = none
    · cases items : p.store.events.items with
      | nil => exact ⟨p, j, session, rfl, still, items⟩
      | cons event rest =>
        have taken : p.store.events.receive =
            .item event { p.store.events with items := rest } := by
          simp [Channel.receive, items]
        have ends := ih _ (Pipeline.nearer_takes taken) (session.takes taken)
        exact ends
    · obtain ⟨i, moves⟩ := not_forall.mp still
      obtain ⟨q, stepped⟩ := Option.ne_none_iff_exists'.mp moves
      cases here : p.tasks[i]? with
      | none => simp [Pipeline.step?, here] at stepped
      | some t =>
        obtain ⟨store, next, step, rfl⟩ :=
          Pipeline.callStep_of_step? serial.opened here (serial.ofCall here) stepped
        have ends := ih _ (Pipeline.callStep_effort here step) (session.step stepped)
        exact ends

-- ---------------------------------------------------------------------------
-- Rest
-- ---------------------------------------------------------------------------

namespace Serial

variable {config : StoreConfig} {table : Table}

theorem free_of_atRest (h : Serial config table j p.store p.task) (rest : p.AtRest) :
    p.store.lock.holder = none := by
  cases holder : p.store.lock.holder with
  | none => rfl
  | some i =>
    have first : i ∈ p.store.lock.line :=
      InLine.line_of_holder holder ▸ List.mem_cons_self ..
    obtain ⟨t, here, stands⟩ := h.inLine.standing i first
    rcases Pipeline.waits_of_step? h.opened here (h.ofCall here) (rest.still i) with
      ⟨result, rfl⟩ | ⟨-, other⟩ | ⟨-, queued⟩
    · exact absurd stands id
    · exact absurd holder other
    · exact absurd rest.taken queued

theorem answered_of_atRest (h : Serial config table j p.store p.task) (rest : p.AtRest) {i : Nat}
    {call : StoreCall} (asked : j.asked[i]? = some call) :
    ∃ result, p.tasks[i]? = some (.answered (.replied result)) := by
  have free := h.free_of_atRest rest
  have nobody : p.store.lock.line = [] := by
    rw [Lock.line, free, h.inLine.fair free]
    rfl
  have outside : ∀ t, p.task i = some t → ¬ t.Stands := fun t here stands => by
    have inLine := h.queued i t here stands
    rw [nobody] at inLine
    cases inLine
  obtain ⟨t, here, stage⟩ := h.stages i call asked
  rcases Pipeline.waits_of_step? h.opened here stage.ofCall (rest.still i) with
    ⟨result, rfl⟩ | ⟨stands, -⟩ | ⟨stands, -⟩
  · exact ⟨result, here⟩
  · exact absurd stands (outside t here)
  · exact absurd stands (outside t here)

theorem received_of_atRest (h : Serial config table j p.store p.task) (rest : p.AtRest) :
    j.granted = j.callers ∧ j.received = table.eventsOf config j.requests := by
  have free := h.free_of_atRest rest
  have granted := h.granted
  have stream := h.stream
  rw [Lock.ofHolder_none free, List.append_nil] at granted stream
  rw [rest.taken, List.append_nil] at stream
  exact ⟨granted, stream⟩

theorem answer_cases (h : Serial config table j p.store p.task) {i : Nat} {call : StoreCall}
    {result : Except StoreError Reply} (asked : j.asked[i]? = some call)
    (here : p.tasks[i]? = some (.answered (.replied result))) :
    (i ∉ j.callers ∧ ∃ e, call.toRequest = .error e ∧ result = .error e) ∨
      Carried config table j.log i call result := by
  obtain ⟨t, there, stage⟩ := h.stages i call asked
  rw [Pipeline.task, here] at there
  cases there
  cases stage with
  | refused out refused => exact .inl ⟨out, _, refused, rfl⟩
  | answered carried => exact .inr carried

end Serial

theorem log_eq_of_readings {asked : List StoreCall} {log other : List Entry}
    (sound : ∀ e ∈ log, ∃ call, asked[e.who]? = some call ∧ call.toRequest = .ok e.dated.request)
    (sound' : ∀ e ∈ other, ∃ call, asked[e.who]? = some call ∧ call.toRequest = .ok e.dated.request)
    (callers : log.map Entry.who = other.map Entry.who)
    (readings : log.map (fun e => e.dated.now) = other.map fun e => e.dated.now) :
    log = other := by
  induction log generalizing other with
  | nil => exact (List.map_eq_nil_iff.mp callers.symm).symm
  | cons e rest ih =>
    cases other with
    | nil => cases callers
    | cons e' rest' =>
      obtain ⟨who, ⟨now, request⟩⟩ := e
      obtain ⟨who', ⟨now', request'⟩⟩ := e'
      simp only [List.map_cons, List.cons.injEq] at callers readings
      obtain ⟨rfl, callers⟩ := callers
      obtain ⟨rfl, readings⟩ := readings
      obtain ⟨call, asked, admitted⟩ := sound _ (List.mem_cons_self ..)
      obtain ⟨call', asked', admitted'⟩ := sound' _ (List.mem_cons_self ..)
      rw [asked] at asked'
      cases asked'
      rw [admitted] at admitted'
      cases admitted'
      rw [ih (fun e he => sound e (List.mem_cons_of_mem _ he))
        (fun e he => sound' e (List.mem_cons_of_mem _ he)) callers readings]

/-- A session comes to the run of its calls one after the other, in the order in
which they were given the lock and at the clock readings that they took then: the
candles and the answers are those of that run, and what was received is the first
part of its events. At rest every call has its answer and all events were
received, whatever room the channel has. -/
theorem session_serial (idle : Idle start) (session : Session start p j) :
    (j.callers.Nodup ∧ (∃ last, j.granted = j.callers ++ last ∧ last.length ≤ 1) ∧
      ∀ e ∈ j.log, ∃ call, j.asked[e.who]? = some call ∧ call.toRequest = .ok e.dated.request) ∧
    p.store.table = start.store.table.after start.store.config j.requests ∧
    j.received <+: start.store.table.eventsOf start.store.config j.requests ∧
    (∀ (i : Nat) call result, j.asked[i]? = some call →
      p.tasks[i]? = some (.answered (.replied result)) →
      (i ∉ j.callers ∧ ∃ e, call.toRequest = .error e ∧ result = .error e) ∨
        Carried start.store.config start.store.table j.log i call result) ∧
    (p.AtRest →
      (∀ (i : Nat) call, j.asked[i]? = some call →
        ∃ result, p.tasks[i]? = some (.answered (.replied result))) ∧
      j.granted = j.callers ∧
      j.received = start.store.table.eventsOf start.store.config j.requests) ∧
    (∃ q k, Session start q k ∧ k.asked = j.asked ∧ q.AtRest) ∧
    (∀ other q k, Idle other → other.store.config = start.store.config →
      other.store.table = start.store.table → Session other q k → k.asked = j.asked →
      k.granted = j.granted →
      k.log.map (fun e => e.dated.now) = j.log.map (fun e => e.dated.now) →
      p.AtRest → q.AtRest → k.received = j.received) := by
  have serial := session.serial idle
  refine ⟨⟨serial.once, ⟨_, serial.granted, ?_⟩, serial.sound⟩, serial.candles, ?_,
    fun i call result asked here => serial.answer_cases asked here, fun rest => ?_,
    session.comes_to_rest idle, ?_⟩
  · exact Lock.length_ofHolder_untried p.store.lock p.task
  · exact ⟨_, (List.append_assoc ..).symm.trans serial.stream⟩
  · obtain ⟨granted, received⟩ := serial.received_of_atRest rest
    exact ⟨fun i call asked => serial.answered_of_atRest rest asked, granted, received⟩
  · intro other q k idle' config table session' asked granted readings rest rest'
    have serial' := session'.serial idle'
    obtain ⟨callers, received⟩ := serial.received_of_atRest rest
    obtain ⟨callers', received'⟩ := serial'.received_of_atRest rest'
    have log : k.log = j.log :=
      log_eq_of_readings (asked ▸ serial'.sound) serial.sound
        (callers'.symm.trans (granted.trans callers)) readings
    rw [received, received', config, table, Journal.requests, Journal.requests, log]

end

-- ---------------------------------------------------------------------------
-- A full channel
-- ---------------------------------------------------------------------------

def oneSlot : Pipeline where
  store := { config := ⟨⟨.utc, .fixed 0⟩, [.minute1]⟩, events := .create 1 }
  window := .empty 1
  ingesters := #[]
  clock := ⟨.clamp (5 * nanosPerSecond), false⟩

/-- A deal and, behind it in line, a refresh. The second event of the deal waits
for the first one to be taken, and meanwhile the bucket ends. -/
def crowdedSlot : List Happening :=
  [.calls (.request (.deal earlyDeal)), .calls (.request .refresh), .step 0, .step 1, .step 0,
    .step 0, .elapses ⟨.clamp (61 * nanosPerSecond), false⟩ 0, .takes, .step 0, .step 0, .step 0,
    .step 1, .takes, .step 1, .takes, .step 1, .takes, .step 1, .step 1]

theorem oneSlot_serial : Idle oneSlot ∧
    ∃ p j, Session oneSlot p j ∧ p.AtRest ∧ j.granted = [0, 1] ∧ j.received.length = 4 ∧
      j.received = oneSlot.store.table.eventsOf oneSlot.store.config j.requests := by
  have idle : Idle oneSlot := ⟨rfl, rfl, ⟨1, rfl⟩, rfl⟩
  obtain ⟨p, j, played, rest, granted, received⟩ :
      ∃ p j, oneSlot.play? {} crowdedSlot = some (p, j) ∧ p.AtRest ∧ j.granted = [0, 1] ∧
        j.received.length = 4 := by
    have plays : (oneSlot.play? {} crowdedSlot).isSome := by decide +kernel
    obtain ⟨⟨p, j⟩, played⟩ := Option.isSome_iff_exists.mp plays
    have ends : ∀ r ∈ oneSlot.play? {} crowdedSlot, r.1.AtRest ∧ r.2.granted = [0, 1] ∧
        r.2.received.length = 4 := by decide +kernel
    exact ⟨p, j, played, ends _ played⟩
  have session := Session.start.play played
  obtain ⟨-, -, -, -, ended, -⟩ := session_serial idle session
  exact ⟨idle, p, j, session, rest, granted, received, (ended rest).2.2⟩

end Candlestick
