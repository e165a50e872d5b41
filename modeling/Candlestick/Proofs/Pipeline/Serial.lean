import Candlestick.Proofs.Pipeline.Course
import Candlestick.Proofs.Pipeline.Session
import Candlestick.Proofs.Store.Transition

/-!
# Sessions are serial

Calls hold the lock from the first look at the candles until their last event is sent. The
invariant (`Serial`) ties the journal of a session to the run of its calls one after the
other: what was received, what is queued and what the holder of the lock has still to send
are together the events of the run so far.
-/

namespace Candlestick

namespace DatedRequest

variable {config : StoreConfig} {table : Table} {now : Instant} {request : Request}

theorem serve_of_plan {change : Change Reply} (checked : request.check = .ok ())
    (planned : request.plan config now table = .ok change) :
    (⟨now, request⟩ : DatedRequest).serve config table =
      ⟨change.table, change.events, .ok change.result⟩ := by
  simp [serve, checked, planned]

theorem serve_of_plan_error {e : StoreError} (checked : request.check = .ok ())
    (planned : request.plan config now table = .error e) :
    (⟨now, request⟩ : DatedRequest).serve config table = ⟨table, [], .error e⟩ := by
  simp [serve, checked, planned]

end DatedRequest

-- ---------------------------------------------------------------------------
-- What the holder of the lock has left to do
-- ---------------------------------------------------------------------------

def Task.unsent : Task → List Event
  | .visiting _ (.sending events _ _) => events
  | _ => []

/-- The task itself, where it has yet to carry out its request. -/
def Task.untried (i : Nat) : Task → List Nat
  | .visiting _ (.waiting _) => [i]
  | _ => []

def Lock.ofHolder {α : Type} (lock : Lock) (view : Nat → Task → List α)
    (task : Nat → Option Task) : List α :=
  match lock.holder with
  | some i => (task i).elim [] (view i)
  | none => []

section
variable {α : Type} {view : Nat → Task → List α} {lock : Lock} {task : Nat → Option Task}
  {i : Nat} {t next : Task}

theorem Lock.ofHolder_none (free : lock.holder = none) : lock.ofHolder view task = [] := by
  simp [ofHolder, free]

theorem Lock.ofHolder_some (holder : lock.holder = some i) (here : task i = some t) :
    lock.ofHolder view task = view i t := by
  simp [ofHolder, holder, here]

theorem Lock.ofHolder_placed (holder : lock.holder = some i) :
    lock.ofHolder view (placed task i next) = view i next := by
  simp [ofHolder, holder]

theorem Lock.ofHolder_placed_of_ne (other : lock.holder ≠ some i) :
    lock.ofHolder view (placed task i next) = lock.ofHolder view task := by
  unfold ofHolder
  split
  · next k holder =>
    have ne : k ≠ i := fun same => other (same ▸ holder)
    rw [placed_of_ne _ _ ne]
  · rfl

theorem Lock.length_ofHolder_untried (lock : Lock) (task : Nat → Option Task) :
    (lock.ofHolder Task.untried task).length ≤ 1 := by
  unfold ofHolder
  split
  · next i _ =>
    cases task i with
    | none => exact Nat.zero_le _
    | some t =>
      rw [Option.elim_some]
      unfold Task.untried
      split <;> simp
  · exact Nat.zero_le _

@[simp] theorem Lock.grant_self (lock : Lock) : lock.grant lock = [] := if_pos rfl

end

-- ---------------------------------------------------------------------------
-- How far a call has come
-- ---------------------------------------------------------------------------

/-- A call was carried out as the log says, with a result that it has in the run
of all that were carried out before. -/
def Carried (config : StoreConfig) (table : Table) (log : List Entry) (i : Nat)
    (call : StoreCall) (result : Except StoreError Reply) : Prop :=
  ∃ earlier d later, log = earlier ++ ⟨i, d⟩ :: later ∧ call.toRequest = .ok d.request ∧
    (d.serve config (table.after config (earlier.map Entry.dated))).reply = result

/-- How far a call has come, by the place of its task. -/
inductive Stage (config : StoreConfig) (table : Table) (log : List Entry) (i : Nat)
    (call : StoreCall) : Task → Prop
  | calling : i ∉ log.map Entry.who → Stage config table log i call (.calling call.toCall)
  | waiting {request : Request} :
      i ∉ log.map Entry.who → call.toRequest = .ok request →
      Stage config table log i call (.visiting .caller (.waiting request))
  | sending {events : List Event} {count : Nat} {reply : Reply} :
      Carried config table log i call (.ok reply) →
      Stage config table log i call (.visiting .caller (.sending events count reply))
  | leaving {result : Except StoreError Reply} :
      Carried config table log i call result →
      Stage config table log i call (.visiting .caller (.leaving result))
  | refused {e : StoreError} :
      i ∉ log.map Entry.who → call.toRequest = .error e →
      Stage config table log i call (.answered (.replied (.error e)))
  | answered {result : Except StoreError Reply} :
      Carried config table log i call result →
      Stage config table log i call (.answered (.replied result))

section
variable {config : StoreConfig} {table : Table} {log : List Entry} {i : Nat} {call : StoreCall}
  {result : Except StoreError Reply} {t : Task} {e : Entry}

theorem Carried.snoc (h : Carried config table log i call result) (e : Entry) :
    Carried config table (log ++ [e]) i call result := by
  obtain ⟨earlier, d, later, rfl, admitted, reply⟩ := h
  exact ⟨earlier, d, later ++ [e], by simp, admitted, reply⟩

theorem Stage.ofCall (h : Stage config table log i call t) : t.OfCall := by
  cases h with
  | calling => exact .calling call
  | refused | answered => exact .answered _
  | _ => exact .visiting _

theorem Stage.calling_inv {c : Call} (h : Stage config table log i call (.calling c)) :
    c = call.toCall ∧ i ∉ log.map Entry.who := by
  cases h with
  | calling out => exact ⟨rfl, out⟩

theorem Stage.snoc (h : Stage config table log i call t) (ne : e.who ≠ i) :
    Stage config table (log ++ [e]) i call t := by
  have absent : i ∉ log.map Entry.who → i ∉ (log ++ [e]).map Entry.who := by
    intro out
    simp only [List.map_append, List.map_singleton, List.mem_append, List.mem_singleton, not_or]
    exact ⟨out, ne.symm⟩
  cases h with
  | calling out => exact .calling (absent out)
  | waiting out admitted => exact .waiting (absent out) admitted
  | sending carried => exact .sending (carried.snoc e)
  | leaving carried => exact .leaving (carried.snoc e)
  | refused out refused => exact .refused (absent out) refused
  | answered carried => exact .answered (carried.snoc e)

theorem Stage.append {entry : Option Entry} (h : Stage config table log i call t)
    (others : ∀ e ∈ entry, e.who ≠ i) : Stage config table (log ++ entry.toList) i call t := by
  cases entry with
  | none => simpa using h
  | some e => exact h.snoc (others e rfl)

end

-- ---------------------------------------------------------------------------
-- The invariant
-- ---------------------------------------------------------------------------

/-- The journal of a session tells of the run of its calls one after the other,
which the store has carried out as far as the log goes. -/
structure Serial (config : StoreConfig) (table : Table) (j : Journal) (s : SharedStore)
    (task : Nat → Option Task) : Prop where
  setup : s.config = config
  opened : s.Open
  inLine : InLine s.lock task
  queued : ∀ i t, task i = some t → t.Stands → i ∈ s.lock.line
  stages : ∀ i call, j.asked[i]? = some call →
    ∃ t, task i = some t ∧ Stage config table j.log i call t
  known : ∀ i t, task i = some t → i < j.asked.length
  once : j.callers.Nodup
  sound : ∀ e ∈ j.log, ∃ call, j.asked[e.who]? = some call ∧ call.toRequest = .ok e.dated.request
  candles : s.table = table.after config j.requests
  stream : j.received ++ s.events.items ++ s.lock.ofHolder (fun _ => Task.unsent) task =
    table.eventsOf config j.requests
  granted : j.granted = j.callers ++ s.lock.ofHolder Task.untried task

namespace Serial

variable {config : StoreConfig} {table : Table} {j : Journal} {s after : SharedStore}
  {task : Nat → Option Task} {now : Instant} {i : Nat} {t next : Task}

theorem stage (h : Serial config table j s task) (here : task i = some t) :
    ∃ call, j.asked[i]? = some call ∧ Stage config table j.log i call t := by
  have known := h.known i t here
  have found := List.getElem?_eq_getElem known
  obtain ⟨u, there, stage⟩ := h.stages i _ found
  rw [here] at there
  cases there
  exact ⟨_, found, stage⟩

theorem ofCall (h : Serial config table j s task) (here : task i = some t) : t.OfCall := by
  obtain ⟨call, -, stage⟩ := h.stage here
  exact stage.ofCall

theorem not_holder (h : Serial config table j s task) (here : task i = some t)
    (out : ¬ t.Stands) : s.lock.holder ≠ some i := fun holder =>
  h.inLine.not_mem here out (InLine.line_of_holder holder ▸ List.mem_cons_self ..)

-- ---------------------------------------------------------------------------
-- Steps
-- ---------------------------------------------------------------------------

theorem open_step (h : Serial config table j s task) (step : CallStep now i s t after next) :
    after.Open := by
  cases step with
  | @sends event _ _ _ _ sent =>
    rcases h.opened.send_cases event with ⟨-, roomy⟩ | ⟨-, full⟩
    · rw [sent] at roomy
      cases roomy
      exact ⟨h.opened.sender, h.opened.receiver, h.opened.room, h.opened.going⟩
    · rw [sent] at full
      cases full
  | _ => exact ⟨h.opened.sender, h.opened.receiver, h.opened.room, h.opened.going⟩

theorem inLine_step (h : Serial config table j s task) (here : task i = some t)
    (step : CallStep now i s t after next) : InLine after.lock (placed task i next) := by
  have begun : ∀ visit, t = .visiting .caller visit → visit.Begun → s.lock.holder = some i :=
    fun visit same begun => h.inLine.holding i .caller visit (same ▸ here) begun
  cases step with
  | enters =>
    refine h.inLine.enter here id trivial fun _ _ same => ?_
    cases same
    exact id
  | refused => exact h.inLine.stay here Iff.rfl fun _ _ same => by cases same
  | acts holder | fails holder => exact h.inLine.stay here Iff.rfl fun _ _ _ _ => holder
  | sends | sent => exact h.inLine.stay here Iff.rfl fun _ _ _ _ => begun _ rfl trivial
  | leaves => exact h.inLine.leave (begun _ rfl trivial) id

theorem queued_step (h : Serial config table j s task) (here : task i = some t)
    (step : CallStep now i s t after next) :
    ∀ k u, placed task i next k = some u → u.Stands → k ∈ after.lock.line := by
  intro k u there stands
  by_cases same : k = i
  · subst same
    rw [placed_self] at there
    cases there
    cases step with
    | enters => simp [SharedStore.enter, Lock.line_request h.inLine.fair]
    | refused | leaves => exact absurd stands id
    | _ => exact h.queued k _ here trivial
  · rw [placed_of_ne _ _ same] at there
    have queued := h.queued k u there stands
    cases step with
    | enters =>
      rw [SharedStore.enter, Lock.line_request h.inLine.fair]
      exact List.mem_append_left _ queued
    | leaves =>
      have holder := h.inLine.holding i .caller _ here trivial
      rw [InLine.line_of_holder holder] at queued
      rw [Lock.line_release h.inLine.fair, InLine.line_of_holder holder]
      exact (List.mem_cons.mp queued).resolve_left same
    | _ => exact queued

theorem request_of_waiting (h : Serial config table j s task) {request : Request}
    (here : task i = some (.visiting .caller (.waiting request))) :
    ∃ call, j.asked[i]? = some call ∧ call.toRequest = .ok request ∧ i ∉ j.callers ∧
      request.check = .ok () := by
  obtain ⟨call, asked, stage⟩ := h.stage here
  cases stage with
  | waiting out admitted => exact ⟨call, asked, admitted, out, StoreCall.check_of_toRequest admitted⟩

theorem stage_step (h : Serial config table j s task) {call : StoreCall}
    (stage : Stage config table j.log i call t) (step : CallStep now i s t after next) :
    Stage config table (j.log ++ (t.logged? now i).toList) i call next := by
  cases step with
  | enters admitted =>
    obtain ⟨same, out⟩ := stage.calling_inv
    rw [StoreCall.toCall_injective same] at admitted
    exact .waiting (by simpa [Task.logged?] using out) admitted
  | refused refused =>
    obtain ⟨same, out⟩ := stage.calling_inv
    rw [StoreCall.toCall_injective same] at refused
    exact .refused (by simpa [Task.logged?] using out) refused
  | @acts request change _ planned =>
    cases stage with
    | waiting _ admitted =>
      rw [h.setup, h.candles] at planned
      have served := DatedRequest.serve_of_plan (StoreCall.check_of_toRequest admitted) planned
      exact .sending ⟨j.log, ⟨now, request⟩, [], rfl, admitted, congrArg Served.reply served⟩
  | @fails request e _ planned =>
    cases stage with
    | waiting _ admitted =>
      rw [h.setup, h.candles] at planned
      have served := DatedRequest.serve_of_plan_error (StoreCall.check_of_toRequest admitted) planned
      exact .leaving ⟨j.log, ⟨now, request⟩, [], rfl, admitted, congrArg Served.reply served⟩
  | sends =>
    cases stage with
    | sending carried => exact .sending (by simpa [Task.logged?] using carried)
  | sent =>
    cases stage with
    | sending carried => exact .leaving (by simpa [Task.logged?] using carried)
  | leaves =>
    cases stage with
    | leaving carried => exact .answered (by simpa [Task.logged?] using carried)

theorem who_logged? {e : Entry} (h : t.logged? now i = some e) : e.who = i := by
  cases t with
  | visiting visitor visit =>
    cases visit with
    | waiting request => cases h; rfl
    | _ => cases h
  | _ => cases h

theorem stages_step (h : Serial config table j s task) (here : task i = some t)
    (step : CallStep now i s t after next) :
    ∀ k call, j.asked[k]? = some call → ∃ u, placed task i next k = some u ∧
      Stage config table (j.log ++ (t.logged? now i).toList) k call u := by
  intro k call asked
  obtain ⟨u, there, stage⟩ := h.stages k call asked
  by_cases same : k = i
  · subst same
    rw [here] at there
    cases there
    exact ⟨next, placed_self .., h.stage_step stage step⟩
  · refine ⟨u, (placed_of_ne _ _ same).trans there, stage.append fun e he => ?_⟩
    rw [who_logged? he]
    exact Ne.symm same

/-- A step either carries out the request of a waiting call, which holds the
lock, or leaves the candles and the log as they are. -/
theorem carries_or_quiet (h : Serial config table j s task) (here : task i = some t)
    (step : CallStep now i s t after next) :
    (∃ request, t = .visiting .caller (.waiting request) ∧ s.lock.holder = some i ∧
      after.lock = s.lock ∧ after.events = s.events ∧ next.untried i = [] ∧
      after.table = ((⟨now, request⟩ : DatedRequest).serve config s.table).table ∧
      next.unsent = ((⟨now, request⟩ : DatedRequest).serve config s.table).events) ∨
    (t.logged? now i = none ∧ after.table = s.table) := by
  cases step with
  | @acts request change holder planned =>
    obtain ⟨-, -, -, -, checked⟩ := h.request_of_waiting here
    rw [h.setup] at planned
    have served := DatedRequest.serve_of_plan checked planned
    exact .inl ⟨request, rfl, holder, rfl, rfl, rfl, served ▸ rfl, served ▸ rfl⟩
  | @fails request e holder planned =>
    obtain ⟨-, -, -, -, checked⟩ := h.request_of_waiting here
    rw [h.setup] at planned
    have served := DatedRequest.serve_of_plan_error checked planned
    exact .inl ⟨request, rfl, holder, rfl, rfl, rfl, served ▸ rfl, served ▸ rfl⟩
  | _ => exact .inr ⟨rfl, rfl⟩

theorem candles_step (h : Serial config table j s task) (here : task i = some t)
    (step : CallStep now i s t after next) :
    after.table = table.after config ((j.log ++ (t.logged? now i).toList).map Entry.dated) := by
  have candles := h.candles
  rcases h.carries_or_quiet here step with ⟨request, rfl, -, -, -, -, moved, -⟩ | ⟨quiet, same⟩
  · rw [moved, candles]
    simp only [Task.logged?, Option.toList_some, List.map_append, List.map_singleton,
      Table.after_snoc]
    rfl
  · rw [same, candles, quiet, Option.toList_none, List.append_nil]
    rfl

theorem once_step (h : Serial config table j s task) (here : task i = some t)
    (step : CallStep now i s t after next) :
    ((j.log ++ (t.logged? now i).toList).map Entry.who).Nodup := by
  rcases h.carries_or_quiet here step with ⟨request, rfl, -⟩ | ⟨quiet, -⟩
  · obtain ⟨-, -, -, out, -⟩ := h.request_of_waiting here
    simp only [Task.logged?, Option.toList_some, List.map_append, List.map_singleton]
    refine List.nodup_append.mpr ⟨h.once, List.pairwise_singleton _ _, fun k hk l hl same => ?_⟩
    exact out (List.mem_singleton.mp hl ▸ same ▸ hk)
  · rw [quiet, Option.toList_none, List.append_nil]
    exact h.once

theorem sound_step (h : Serial config table j s task) (here : task i = some t)
    (step : CallStep now i s t after next) :
    ∀ e ∈ j.log ++ (t.logged? now i).toList,
      ∃ call, j.asked[e.who]? = some call ∧ call.toRequest = .ok e.dated.request := by
  intro e he
  rcases List.mem_append.mp he with old | new
  · exact h.sound e old
  · rcases h.carries_or_quiet here step with ⟨request, rfl, -⟩ | ⟨quiet, -⟩
    · obtain ⟨call, asked, admitted, -⟩ := h.request_of_waiting here
      rw [List.mem_singleton.mp new]
      exact ⟨call, asked, admitted⟩
    · rw [quiet] at new
      cases new

-- ---------------------------------------------------------------------------
-- Events and grants
-- ---------------------------------------------------------------------------

theorem ofHolder_request {α : Type} (view : Nat → Task → List α)
    (h : Serial config table j s task) (here : task i = some t) (out : ¬ t.Stands) :
    (s.lock.request i).ofHolder view (placed task i next) =
        s.lock.ofHolder view task ++ (if s.lock.holder = none then view i next else []) ∧
      s.lock.grant (s.lock.request i) = if s.lock.holder = none then [i] else [] := by
  cases holder : s.lock.holder with
  | none =>
    have given : (s.lock.request i).holder = some i := by simp [Lock.request, holder]
    rw [Lock.ofHolder_placed given, Lock.ofHolder_none holder, Lock.grant, given, holder]
    simp
  | some k =>
    have kept : (s.lock.request i).holder = some k := InLine.holder_request holder
    have other : (s.lock.request i).holder ≠ some i := by
      rw [kept, ← holder]
      exact h.not_holder here out
    rw [Lock.ofHolder_placed_of_ne other, Lock.grant, kept, holder]
    simp [Lock.ofHolder, kept, holder]

theorem ofHolder_release {α : Type} (view : Nat → Task → List α)
    (h : Serial config table j s task) (holder : s.lock.holder = some i) :
    (s.lock.waiting = [] ∧ s.lock.release.ofHolder view (placed task i next) = [] ∧
      s.lock.grant s.lock.release = []) ∨
    ∃ k request, s.lock.release.ofHolder view (placed task i next) =
        view k (.visiting .caller (.waiting request)) ∧
      s.lock.grant s.lock.release = [k] := by
  cases waiting : s.lock.waiting with
  | nil =>
    refine .inl ⟨rfl, ?_, ?_⟩
    · exact Lock.ofHolder_none (by simp [Lock.release, waiting])
    · simp [Lock.grant, Lock.release, waiting, holder]
  | cons k rest =>
    have given : s.lock.release.holder = some k := by simp [Lock.release, waiting]
    have nodup := h.inLine.nodup
    rw [InLine.line_of_holder holder, waiting] at nodup
    have ne : k ≠ i := by
      rintro rfl
      exact (List.nodup_cons.mp nodup).1 (List.mem_cons_self ..)
    have inLine : k ∈ s.lock.line := by
      rw [InLine.line_of_holder holder, waiting]
      simp
    obtain ⟨u, there, stands⟩ := h.inLine.standing k inLine
    -- a visit that had begun would hold the lock
    obtain ⟨request, rfl⟩ : ∃ request, u = .visiting .caller (.waiting request) := by
      cases h.ofCall there with
      | calling call => exact absurd stands id
      | visiting visit =>
        cases visit with
        | waiting request => exact ⟨request, rfl⟩
        | _ =>
          have begun := h.inLine.holding k .caller _ there trivial
          rw [holder] at begun
          exact absurd (Option.some.inj begun).symm ne
      | answered result => exact absurd stands id
    refine .inr ⟨k, request, ?_, ?_⟩
    · exact Lock.ofHolder_some given ((placed_of_ne _ _ ne).trans there)
    · simp [Lock.grant, given, holder, ne]

theorem stream_step (h : Serial config table j s task) (here : task i = some t)
    (step : CallStep now i s t after next) :
    j.received ++ after.events.items ++
        after.lock.ofHolder (fun _ => Task.unsent) (placed task i next) =
      table.eventsOf config ((j.log ++ (t.logged? now i).toList).map Entry.dated) := by
  have stream := h.stream
  rcases h.carries_or_quiet here step with
    ⟨request, rfl, holder, lock, events, -, -, news⟩ | ⟨quiet, -⟩
  · rw [Lock.ofHolder_some holder here] at stream
    rw [lock, events, Lock.ofHolder_placed holder, news, h.candles]
    simp only [Task.logged?, Option.toList_some, List.map_append, List.map_singleton,
      Table.eventsOf_append]
    change _ = table.eventsOf config j.requests ++ _
    rw [← stream]
    simp [Task.unsent, Table.eventsOf, Table.serveAll, Journal.requests]
  · -- events only move on, from the holder to the channel
    rw [quiet, Option.toList_none, List.append_nil]
    refine Eq.trans ?_ stream
    cases step with
    | enters =>
      rw [SharedStore.enter, (h.ofHolder_request (fun _ => Task.unsent) here id).1]
      simp [Task.unsent]
    | refused =>
      rw [Lock.ofHolder_placed_of_ne (h.not_holder here id)]
    | acts | fails => cases quiet
    | @sends event rest _ _ events sent =>
      have holder := h.inLine.holding i .caller _ here trivial
      rw [Lock.ofHolder_placed holder, Lock.ofHolder_some holder here,
        Channel.items_of_sent sent]
      simp [Task.unsent]
    | sent =>
      have holder := h.inLine.holding i .caller _ here trivial
      simp [SharedStore.count, Lock.ofHolder_placed holder, Lock.ofHolder_some holder here,
        Task.unsent]
    | leaves =>
      have holder := h.inLine.holding i .caller _ here trivial
      rw [Lock.ofHolder_some holder here]
      rcases h.ofHolder_release (fun _ => Task.unsent) holder with
        ⟨-, none, -⟩ | ⟨k, request, some, -⟩
      · rw [none]
        rfl
      · rw [some]
        rfl

theorem granted_step (h : Serial config table j s task) (here : task i = some t)
    (step : CallStep now i s t after next) :
    j.granted ++ s.lock.grant after.lock =
      (j.log ++ (t.logged? now i).toList).map Entry.who ++
        after.lock.ofHolder Task.untried (placed task i next) := by
  have granted := h.granted
  rcases h.carries_or_quiet here step with
    ⟨request, rfl, holder, lock, -, tried, -⟩ | ⟨quiet, -⟩
  · rw [Lock.ofHolder_some holder here] at granted
    rw [lock, Lock.ofHolder_placed holder, tried, granted]
    simp [Task.logged?, Task.untried, Journal.callers]
  · -- whoever is given the lock has yet to carry out a request
    rw [quiet, granted, Option.toList_none, List.append_nil, List.append_assoc]
    refine congrArg (j.callers ++ ·) ?_
    cases step with
    | enters =>
      obtain ⟨view, grant⟩ := h.ofHolder_request Task.untried here id
      rw [SharedStore.enter, view, grant]
      rfl
    | refused =>
      rw [Lock.ofHolder_placed_of_ne (h.not_holder here id), Lock.grant_self, List.append_nil]
    | acts | fails => cases quiet
    | sends =>
      have holder := h.inLine.holding i .caller _ here trivial
      rw [Lock.ofHolder_placed holder, Lock.ofHolder_some holder here, Lock.grant_self]
      rfl
    | sent =>
      have holder := h.inLine.holding i .caller _ here trivial
      simp [SharedStore.count, Lock.ofHolder_placed holder, Lock.ofHolder_some holder here,
        Task.untried]
    | leaves =>
      have holder := h.inLine.holding i .caller _ here trivial
      rw [Lock.ofHolder_some holder here]
      rcases h.ofHolder_release Task.untried holder with
        ⟨-, none, grant⟩ | ⟨k, request, some, grant⟩
      · rw [none, grant]
        rfl
      · rw [some, grant]
        rfl

theorem step (h : Serial config table j s task) (here : task i = some t)
    (step : CallStep now i s t after next) :
    Serial config table
      { j with
        granted := j.granted ++ s.lock.grant after.lock
        log := j.log ++ (t.logged? now i).toList }
      after (placed task i next) where
  setup := by
    rw [← h.setup]
    cases step <;> rfl
  opened := h.open_step step
  inLine := h.inLine_step here step
  queued := h.queued_step here step
  stages := h.stages_step here step
  known k u there := by
    by_cases same : k = i
    · exact same ▸ h.known i t here
    · exact h.known k u (placed_of_ne task next same ▸ there)
  once := h.once_step here step
  sound := h.sound_step here step
  candles := h.candles_step here step
  stream := h.stream_step here step
  granted := h.granted_step here step

-- ---------------------------------------------------------------------------
-- What comes from outside
-- ---------------------------------------------------------------------------

theorem calls (h : Serial config table j s task) (call : StoreCall) :
    Serial config table { j with asked := j.asked ++ [call] } s
      (placed task j.asked.length (.calling call.toCall)) := by
  -- the number of the new call is in use nowhere
  have absent : task j.asked.length = none := by
    cases there : task j.asked.length with
    | none => rfl
    | some t => exact absurd (h.known _ t there) (Nat.lt_irrefl _)
  have out : j.asked.length ∉ s.lock.line := by
    intro mem
    obtain ⟨t, there, -⟩ := h.inLine.standing _ mem
    rw [absent] at there
    cases there
  have other : s.lock.holder ≠ some j.asked.length := fun holder =>
    out (InLine.line_of_holder holder ▸ List.mem_cons_self ..)
  have elsewhere : ∀ {k t}, task k = some t → k ≠ j.asked.length := by
    rintro k t there rfl
    rw [absent] at there
    cases there
  refine ⟨h.setup, h.opened, ⟨h.inLine.fair, h.inLine.nodup, ?_, ?_⟩, ?_, ?_, ?_, h.once, ?_,
    h.candles, ?_, ?_⟩
  · intro k mem
    obtain ⟨t, there, stands⟩ := h.inLine.standing k mem
    exact ⟨t, (placed_of_ne _ _ (elsewhere there)).trans there, stands⟩
  · intro k visitor visit there begun
    by_cases same : k = j.asked.length
    · rw [same, placed_self] at there
      cases there
    · exact h.inLine.holding k visitor visit (placed_of_ne task _ same ▸ there) begun
  · intro k t there stands
    by_cases same : k = j.asked.length
    · rw [same, placed_self] at there
      cases there
      exact absurd stands id
    · exact h.queued k t (placed_of_ne task _ same ▸ there) stands
  · intro k other asked
    rcases Nat.lt_or_ge k j.asked.length with old | new
    · rw [List.getElem?_append_left old] at asked
      obtain ⟨t, there, stage⟩ := h.stages k other asked
      exact ⟨t, (placed_of_ne _ _ (Nat.ne_of_lt old)).trans there, stage⟩
    · have same : k = j.asked.length := by
        have short := (List.getElem?_eq_some_iff.mp asked).1
        rw [List.length_append, List.length_singleton] at short
        omega
      subst same
      rw [List.getElem?_concat_length] at asked
      cases asked
      refine ⟨_, placed_self .., .calling fun mem => ?_⟩
      obtain ⟨e, he, who⟩ := List.mem_map.mp mem
      obtain ⟨call, asked, -⟩ := h.sound e he
      exact absurd (List.getElem?_eq_some_iff.mp asked).1 (who ▸ Nat.lt_irrefl _)
  · intro k t there
    rw [List.length_append, List.length_singleton]
    by_cases same : k = j.asked.length
    · omega
    · have old := h.known k t (placed_of_ne task _ same ▸ there)
      omega
  · intro e he
    obtain ⟨call, asked, admitted⟩ := h.sound e he
    exact ⟨call, by rw [List.getElem?_append_left (List.getElem?_eq_some_iff.mp asked).1, asked],
      admitted⟩
  · rw [Lock.ofHolder_placed_of_ne other]
    exact h.stream
  · rw [Lock.ofHolder_placed_of_ne other]
    exact h.granted

theorem takes (h : Serial config table j s task) {event : Event} {events : Channel Event}
    (taken : s.events.receive = .item event events) :
    Serial config table { j with received := j.received ++ [event] } { s with events := events }
      task := by
  have stream := h.stream
  rw [Channel.items_of_received taken] at stream
  refine ⟨h.setup, h.opened.takes taken, h.inLine, h.queued, h.stages, h.known, h.once, h.sound,
    h.candles, ?_, h.granted⟩
  simpa [Journal.requests] using stream

end Serial

-- ---------------------------------------------------------------------------
-- Sessions
-- ---------------------------------------------------------------------------

section
variable {start p q : Pipeline} {j : Journal} {i : Nat} {t next : Task}

theorem Pipeline.task_put (here : p.tasks[i]? = some t) (store : SharedStore) (next : Task) :
    ((p.withStore store).put i next).task = placed p.task i next :=
  task_of_set here rfl

theorem Pipeline.task_start (p : Pipeline) (call : StoreCall) :
    (p.start call).task = placed p.task p.tasks.size (.calling call.toCall) := by
  funext k
  simp only [Pipeline.task, Pipeline.start, Array.getElem?_push, placed]

theorem Serial.size {config : StoreConfig} {table : Table}
    (h : Serial config table j p.store p.task) : p.tasks.size = j.asked.length := by
  refine Nat.le_antisymm (Nat.le_of_not_lt fun more => ?_) (Nat.le_of_not_lt fun fewer => ?_)
  · have there : p.task j.asked.length = some p.tasks[j.asked.length] :=
      Array.getElem?_eq_getElem more
    exact absurd (h.known _ _ there) (Nat.lt_irrefl _)
  · obtain ⟨t, there, -⟩ := h.stages _ _ (List.getElem?_eq_getElem fewer)
    exact absurd (Array.getElem?_eq_some_iff.mp there).1 (Nat.lt_irrefl _)

theorem Idle.serial (idle : Idle start) :
    Serial start.store.config start.store.table {} start.store start.task := by
  have nobody : ∀ i, start.task i = none := fun i => by simp [Pipeline.task, idle.tasks]
  obtain ⟨capacity, events⟩ := idle.events
  have lock := idle.lock
  refine ⟨rfl, ⟨by rw [events]; rfl, by rw [events]; rfl, ?_, idle.going⟩, ⟨?_, ?_, ?_, ?_⟩, ?_,
    ?_, ?_, .nil, ?_, rfl, ?_, ?_⟩
  · rw [events, Channel.create]
    dsimp only
    split <;> omega
  · rw [lock]
    exact Lock.fair_free
  · rw [lock]
    exact .nil
  · rw [lock]
    intro i mem
    cases mem
  · intro i visitor visit there
    rw [nobody] at there
    cases there
  · intro i t there
    rw [nobody] at there
    cases there
  · intro i call asked
    cases asked
  · intro i t there
    rw [nobody] at there
    cases there
  · intro e he
    cases he
  · rw [events, Lock.ofHolder_none (by rw [lock])]
    rfl
  · rw [Lock.ofHolder_none (by rw [lock])]
    rfl

theorem Session.serial (idle : Idle start) (session : Session start p j) :
    Serial start.store.config start.store.table j p.store p.task := by
  induction session with
  | start => exact idle.serial
  | @calls p j call _ ih =>
    rw [Pipeline.task_start, ih.size]
    exact ih.calls call
  | @step p q j i _ stepped ih =>
    cases here : p.tasks[i]? with
    | none => simp [Pipeline.step?, here] at stepped
    | some t =>
      obtain ⟨store, next, step, rfl⟩ :=
        Pipeline.callStep_of_step? ih.opened here (ih.ofCall here) stepped
      have serial := ih.step here step
      rw [Pipeline.task_put here, Journal.step, here]
      exact serial
  | takes _ taken ih => exact ih.takes taken
  | elapses _ _ _ ih => exact ih

end

end Candlestick
