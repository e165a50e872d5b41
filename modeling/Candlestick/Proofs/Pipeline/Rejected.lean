import Candlestick.Proofs.Pipeline.Session
import Candlestick.Proofs.Store.Transition

/-!
# Calls that are rejected

A call that is not fit for the store, or whose arithmetic fails, leaves no trace at any of
its steps (`Pipeline.rejected_call_leaves_no_trace`). A call is in one of two states, with
nothing done yet or past the change of the table (`Intact`, `Committed`); what a rejected
call is answered can only be said in the first one.
-/

namespace Candlestick

-- ---------------------------------------------------------------------------
-- Records
-- ---------------------------------------------------------------------------

/-- What is wrong with a record, in the order in which its fields are looked at. -/
def DealRecord.faults (r : DealRecord) : List DealError :=
  (if r.id = "" then [.emptyId] else []) ++
  (if Text.isBlankText r.market then [.emptyMarket r.id] else []) ++
  (match Price.parse r.price with
    | .ok _ => []
    | .error cause => [.invalidPrice r.id cause]) ++
  (match Quantity.parse r.amount with
    | .ok _ => []
    | .error cause => [.invalidAmount r.id cause])

theorem Deal.ofRecord_eq_error_iff {r : DealRecord} {cause : DealError} :
    Deal.ofRecord r = .error cause ↔ r.faults.head? = some cause := by
  unfold ofRecord DealRecord.faults DealId.ofText? Market.ofSymbol?
  by_cases named : r.id = ""
  · simp [named]
  · by_cases blank : Text.isBlankText r.market = true
    · simp [named, blank]
    · cases Price.parse r.price <;> cases Quantity.parse r.amount <;> simp [named, blank]

theorem DealRecord.head?_faults_iff {r : DealRecord} :
    (∃ cause, r.faults.head? = some cause) ↔
      r.id = "" ∨ Text.isBlankText r.market = true ∨
        (∃ cause, Price.parse r.price = .error cause) ∨
        ∃ cause, Quantity.parse r.amount = .error cause := by
  unfold faults
  cases Price.parse r.price <;> cases Quantity.parse r.amount <;>
    by_cases named : r.id = "" <;> by_cases blank : Text.isBlankText r.market = true <;>
    simp [named, blank]

-- ---------------------------------------------------------------------------
-- While a call goes on
-- ---------------------------------------------------------------------------

namespace Pipeline

structure Untouched (p q : Pipeline) : Prop where
  table : q.store.table = p.store.table
  events : q.store.events = p.store.events
  metrics : q.store.metrics = p.store.metrics

theorem Untouched.trans {p q r : Pipeline} (h : Untouched p q) (h' : Untouched q r) :
    Untouched p r :=
  ⟨h'.table.trans h.table, h'.events.trans h.events, h'.metrics.trans h.metrics⟩

/-- What happens while a task is at work: its own steps, and whatever else leaves
the task where it is. Both are listed with the states before and after. -/
inductive During (i : Nat) (start : Pipeline) :
    Pipeline → List (Pipeline × Pipeline) → List (Pipeline × Pipeline) → Prop
  | start : During i start start [] []
  | step {p q : Pipeline} {own others : List (Pipeline × Pipeline)} :
      During i start p own others → step? i p = some q →
      During i start q (own ++ [(p, q)]) others
  | meanwhile {p q : Pipeline} {own others : List (Pipeline × Pipeline)} :
      During i start p own others → q.tasks[i]? = p.tasks[i]? →
      During i start q own (others ++ [(p, q)])

section
variable {i n : Nat} {start p q : Pipeline} {own others : List (Pipeline × Pipeline)}

theorem During.untouched (during : During i start p own others)
    (mine : ∀ m ∈ own, Untouched m.1 m.2) (theirs : ∀ m ∈ others, Untouched m.1 m.2) :
    Untouched start p := by
  induction during with
  | start => exact ⟨rfl, rfl, rfl⟩
  | @step p q own others _ _ ih =>
    rw [List.forall_mem_append, List.forall_mem_singleton] at mine
    exact (ih mine.1 theirs).trans mine.2
  | @meanwhile p q own others _ _ ih =>
    rw [List.forall_mem_append, List.forall_mem_singleton] at theirs
    exact (ih mine theirs.1).trans theirs.2

def alone? (i : Nat) : Nat → Pipeline → Option Pipeline
  | 0, p => some p
  | n + 1, p =>
    match step? i p with
    | some q => alone? i n q
    | none => none

theorem During.alone (during : During i start p own others) (steps : alone? i n p = some q) :
    ∃ own, During i start q own others := by
  induction n generalizing p own with
  | zero =>
    cases steps
    exact ⟨own, during⟩
  | succ n ih =>
    unfold alone? at steps
    split at steps
    · next stepped => exact ih (during.step stepped) steps
    · cases steps

end

end Pipeline

-- ---------------------------------------------------------------------------
-- The two states of a call
-- ---------------------------------------------------------------------------

/-- Why a call is rejected: before the store is entered, or by the arithmetic of its
deal. -/
def StoreCall.RejectedFor (call : StoreCall) (e : StoreError) : Prop :=
  call.toRequest = .error e ∨
    (∃ request, call.toRequest = .ok request) ∧ ∃ cause, e = .decimal cause

inductive Intact (call : StoreCall) : Task → Prop
  | calling : Intact call (.calling call.toCall)
  | waiting {request : Request} : call.toRequest = .ok request →
      Intact call (.visiting .caller (.waiting request))
  | leaving {e : StoreError} : call.RejectedFor e →
      Intact call (.visiting .caller (.leaving (.error e)))
  | answered {e : StoreError} : call.RejectedFor e →
      Intact call (.answered (.replied (.error e)))

/-- A call that has changed the table. It can only fail with its events. -/
inductive Committed (call : StoreCall) : Task → Prop
  | sending {request : Request} {events : List Event} {count : Nat} {reply : Reply} :
      call.toRequest = .ok request → Committed call (.visiting .caller (.sending events count reply))
  | leaving {request : Request} {result : Except StoreError Reply} :
      call.toRequest = .ok request → (∀ e, result = .error e → e.IsEmission) →
      Committed call (.visiting .caller (.leaving result))
  | answered {request : Request} {result : Except StoreError Reply} :
      call.toRequest = .ok request → (∀ e, result = .error e → e.IsEmission) →
      Committed call (.answered (.replied result))

theorem Request.plan_eq_error {config : StoreConfig} {now : Instant} {table : Table}
    {request : Request} {e : StoreError} (h : request.plan config now table = .error e) :
    ∃ cause, e = .decimal cause := by
  cases request with
  | deal d =>
    simp only [plan] at h
    split at h
    · cases h
    · next cause _ => exact ⟨cause, by cases h; rfl⟩
  | seed pair given | refresh | look pair | pairs => cases h

namespace Pipeline

section
variable {i : Nat} {p q : Pipeline} {call : StoreCall} {t : Task}

theorem intact_step (here : p.tasks[i]? = some t) (intact : Intact call t)
    (stepped : step? i p = some q) :
    ∃ next, q.tasks[i]? = some next ∧
      ((Intact call next ∧ Untouched p q) ∨ Committed call next) := by
  have step := taskStep_of_task here stepped
  cases intact with
  | calling =>
    cases step
    rw [begin_toCall]
    cases admitted : call.toRequest with
    | ok request =>
      exact ⟨_, tasks_put_self here _, .inl ⟨.waiting admitted, rfl, rfl, rfl⟩⟩
    | error e =>
      exact ⟨_, tasks_put_self here _, .inl ⟨.answered (.inl admitted), rfl, rfl, rfl⟩⟩
  | @waiting request admitted =>
    cases step with
    | visits visited =>
      obtain ⟨store, next, step, rfl⟩ | ⟨store, result, step, rfl⟩ := stepVisit?_cases visited
      · refine ⟨_, tasks_put_self here _, ?_⟩
        cases step with
        | acts holder planned => exact .inr (.sending admitted)
        | fails holder planned =>
          have rejected := Request.plan_eq_error planned
          exact .inl ⟨.leaving (.inr ⟨⟨request, admitted⟩, rejected⟩), rfl, rfl, rfl⟩
      · cases step
  | leaving rejected =>
    cases step with
    | visits visited =>
      cases visited
      exact ⟨_, tasks_put_self here _, .inl ⟨.answered rejected, rfl, rfl, rfl⟩⟩
  | answered rejected => cases step

theorem committed_step (here : p.tasks[i]? = some t) (committed : Committed call t)
    (stepped : step? i p = some q) : ∃ next, q.tasks[i]? = some next ∧ Committed call next := by
  have step := taskStep_of_task here stepped
  cases committed with
  | sending admitted =>
    cases step with
    | visits visited =>
      obtain ⟨store, next, step, rfl⟩ | ⟨store, result, step, rfl⟩ := stepVisit?_cases visited
      · refine ⟨_, tasks_put_self here _, ?_⟩
        cases step with
        | sends sent => exact .sending admitted
        | breaks emission => exact .leaving admitted (by rintro _ ⟨⟩; exact emission)
        | sent => exact .leaving admitted (by simp)
      · cases step
  | leaving admitted emission =>
    cases step with
    | visits visited =>
      cases visited
      exact ⟨_, tasks_put_self here _, .answered admitted emission⟩
  | answered admitted emission => cases step

end

-- ---------------------------------------------------------------------------
-- Rejected calls
-- ---------------------------------------------------------------------------

section
variable {i : Nat} {p q : Pipeline} {call : StoreCall} {own others : List (Pipeline × Pipeline)}

theorem During.intact_or_committed (during : During i p q own others)
    (here : p.tasks[i]? = some (.calling call.toCall)) :
    ∃ t, q.tasks[i]? = some t ∧
      ((Intact call t ∧ ∀ m ∈ own, Untouched m.1 m.2) ∨ Committed call t) := by
  induction during with
  | start => exact ⟨_, here, .inl ⟨.calling, by simp⟩⟩
  | step _ stepped ih =>
    obtain ⟨t, there, ⟨intact, untouched⟩ | committed⟩ := ih
    · obtain ⟨next, after, ⟨intact, last⟩ | committed⟩ := intact_step there intact stepped
      · refine ⟨next, after, .inl ⟨intact, ?_⟩⟩
        rw [List.forall_mem_append, List.forall_mem_singleton]
        exact ⟨untouched, last⟩
      · exact ⟨next, after, .inr committed⟩
    · obtain ⟨next, after, committed⟩ := committed_step there committed stepped
      exact ⟨next, after, .inr committed⟩
  | meanwhile _ same ih =>
    obtain ⟨t, there, state⟩ := ih
    exact ⟨t, same.trans there, state⟩

theorem During.rejected_iff (during : During i p q own others)
    (here : p.tasks[i]? = some (.calling call.toCall)) {result : Except StoreError Reply}
    (answered : q.tasks[i]? = some (.answered (.replied result))) (cause : DealError) :
    result = .error (.invalidDeal cause) ↔ call.toRequest = .error (.invalidDeal cause) := by
  obtain ⟨t, there, ⟨intact, -⟩ | committed⟩ := during.intact_or_committed here
  · obtain rfl := Option.some.inj (there.symm.trans answered)
    cases intact with
    | @answered e rejected =>
      rcases rejected with refused | ⟨⟨request, admitted⟩, arithmetic, rfl⟩
      · simp [refused]
      · simp [admitted]
  · obtain rfl := Option.some.inj (there.symm.trans answered)
    cases committed with
    | answered admitted emission =>
      simp only [admitted, reduceCtorEq, iff_false]
      rintro rfl
      exact emission _ rfl

theorem toRequest_record_eq_error_iff {r : DealRecord} {cause : DealError} :
    (StoreCall.record r).toRequest = .error (.invalidDeal cause) ↔
      r.faults.head? = some cause := by
  rw [← Deal.ofRecord_eq_error_iff, StoreCall.toRequest]
  cases Deal.ofRecord r <;> simp

/-- A call that is answered with an error other than one of its events has changed
nothing, at any of its steps: not the candles, not the events on their way and not
the counters. A record is answered its first fault, if it has one, and that with the
first step of the call. -/
theorem rejected_call_leaves_no_trace (here : p.tasks[i]? = some (.calling call.toCall))
    (during : During i p q own others) {result : Except StoreError Reply}
    (answered : q.tasks[i]? = some (.answered (.replied result))) :
    (∀ e, result = .error e → ¬ e.IsEmission →
      (∀ m ∈ own, Untouched m.1 m.2) ∧
      ((∀ m ∈ others, Untouched m.1 m.2) → Untouched p q)) ∧
    ∀ r, call = .record r →
      (∀ cause, result = .error (.invalidDeal cause) ↔ r.faults.head? = some cause) ∧
      ((∃ cause, result = .error (.invalidDeal cause)) ↔
        r.id = "" ∨ Text.isBlankText r.market = true ∨
          (∃ cause, Price.parse r.price = .error cause) ∨
          ∃ cause, Quantity.parse r.amount = .error cause) ∧
      ∀ cause, r.faults.head? = some cause →
        ∃ next, step? i p = some next ∧
          next.tasks[i]? = some (.answered (.replied (.error (.invalidDeal cause)))) := by
  constructor
  · rintro e rfl rejected
    obtain ⟨t, there, ⟨-, untouched⟩ | committed⟩ := during.intact_or_committed here
    · exact ⟨untouched, during.untouched untouched⟩
    · obtain rfl := Option.some.inj (there.symm.trans answered)
      cases committed with
      | answered _ emission => exact absurd (emission e rfl) rejected
  · rintro r rfl
    have first : ∀ cause, result = .error (.invalidDeal cause) ↔ r.faults.head? = some cause :=
      fun cause => (during.rejected_iff here answered cause).trans toRequest_record_eq_error_iff
    refine ⟨first, (exists_congr first).trans DealRecord.head?_faults_iff, fun cause fault => ?_⟩
    have refused := toRequest_record_eq_error_iff.mpr fault
    refine ⟨p.reply i (.error (.invalidDeal cause)), ?_, tasks_put_self here _⟩
    simp only [step?, here, begin_toCall, refused]

end

end Pipeline

-- ---------------------------------------------------------------------------
-- A sum that overflows
-- ---------------------------------------------------------------------------

/-- A store in its second minute, when the volume of the hour has no room for more. -/
def fullHour : Pipeline where
  store := {
    config := twoResolutions
    table := Table.afterCalls twoResolutions {}
      [⟨.clamp (5 * nanosPerSecond), .record (recordAt 5 "10" "79228162514264337593543950335")⟩]
    events := .create 8 }
  window := .empty 1
  ingesters := #[]
  clock := ⟨.clamp (61 * nanosPerSecond), false⟩
  tasks := #[.calling (StoreCall.toCall (.record (recordAt 61 "10" "1")))]

/-- The minute would be rolled over and take the deal, but the hour cannot take it. -/
theorem fullHour_untouched : ∃ q cause,
    fullHour.alone? 0 3 = some q ∧
      q.tasks[0]? = some (.answered (.replied (.error (.decimal cause)))) ∧
      (∀ fault, (recordAt 61 "10" "1").faults.head? ≠ some fault) ∧ Pipeline.Untouched fullHour q := by
  obtain ⟨q, steps⟩ := Option.isSome_iff_exists.mp
    (by decide +kernel : (fullHour.alone? 0 3).isSome = true)
  have answers : ∀ q ∈ fullHour.alone? 0 3, ∃ cause,
      q.tasks[0]? = some (.answered (.replied (.error (.decimal cause)))) := by
    rintro _ ⟨⟩
    exact ⟨_, rfl⟩
  obtain ⟨cause, answered⟩ := answers q steps
  obtain ⟨own, during⟩ := Pipeline.During.start.alone steps
  obtain ⟨rejected, record⟩ := Pipeline.rejected_call_leaves_no_trace rfl during answered
  refine ⟨q, cause, steps, answered, fun fault first => ?_, (rejected _ rfl id).2 (by simp)⟩
  cases ((record _ rfl).1 fault).mpr first

end Candlestick
