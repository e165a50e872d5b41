import Candlestick.Proofs.Pipeline.Advance
import Candlestick.Proofs.Pipeline.Books
import Candlestick.Proofs.Pipeline.Rest
import Mathlib

/-!
# The counters account for every call

Calls come to one store and its ingesters, and they and whatever runs beside them take steps
in any order. `Balanced` weighs the counters against the tallies, the results that are there
already, and what is still under way; once no call is under way the counters are the
tallies, the results and the events (`counters_account`).
-/

namespace Candlestick

-- ---------------------------------------------------------------------------
-- What is observed
-- ---------------------------------------------------------------------------

/-- Whether a task gives its events up with its step, as one of them cannot be sent. -/
def Task.givesUp : Task → Task → Bool
  | .visiting _ (.sending (_ :: _) _ _), .visiting _ (.leaving _) => true
  | _, _ => false

structure Audit where
  /-- The tasks that came, in their order: the place of a task is its number. -/
  came : List Task := []
  /-- The events that were put on the channel. -/
  sent : List Event := []
  /-- Whether an emission failed. -/
  failed : Bool := false
  /-- How much the steps of each task raised each counter. -/
  risen : Nat → Counter → Nat := fun _ _ => 0

namespace Audit

def step (a : Audit) (p q : Pipeline) (i : Nat) : Audit where
  came := a.came
  sent := a.sent ++ p.tasks[i]?.elim [] fun t => (p.noted t).emitted
  failed := a.failed || p.tasks[i]?.any fun t => q.tasks[i]?.any t.givesUp
  risen := fun j c =>
    if j = i then
      a.risen j c + (q.store.metrics.counters.get c - p.store.metrics.counters.get c).toNat
    else a.risen j c

def deliveries (a : Audit) : Nat := a.came.countP Task.isDelivery

end Audit

def Task.Comes : Task → Prop
  | .calling _ => True
  | .seeding _ => True
  | .refreshing => True
  | .batching => True
  | .listening => True
  | _ => False

/-- What may happen beside the tasks: events are taken off the channel or lost, clocks go,
ends of the channel are given up, and the store is told to stop. -/
structure Beside (p q : Pipeline) : Prop where
  tasks : q.tasks = p.tasks
  metrics : q.store.metrics = p.store.metrics
  ingesters : q.ingesters = p.ingesters
  config : q.store.config = p.store.config
  table : q.store.table = p.store.table
  window : q.window = p.window
  events : ∀ e ∈ q.store.events.items, e ∈ p.store.events.items

/-- From a start to a state by tasks that come, their steps in any order, and whatever
happens beside them. -/
inductive Traffic (start : Pipeline) : Pipeline → Audit → Prop
  | start : Traffic start start {}
  | comes {p : Pipeline} {a : Audit} {t : Task} :
      Traffic start p a → t.Comes →
      Traffic start { p with tasks := p.tasks.push t } { a with came := a.came ++ [t] }
  | step {p q : Pipeline} {a : Audit} {i : Nat} :
      Traffic start p a → Pipeline.step? i p = some q → Traffic start q (a.step p q i)
  | beside {p q : Pipeline} {a : Audit} :
      Traffic start p a → Beside p q → Traffic start q a

structure Pipeline.Unused (p : Pipeline) : Prop where
  tasks : p.tasks = #[]
  counters : p.store.metrics.counters = {}
  tallies : ∀ g ∈ p.ingesters, g.tally = {}

def Task.isPending : Task → Bool
  | .calling _ => true
  | .delivering _ _ => true
  | .visiting _ _ => true
  | .concluding _ _ _ => true
  | _ => false

def Pipeline.total (p : Pipeline) (count : Tally → UInt64) : UInt64 :=
  (p.ingesters.toList.map fun g => count g.tally).sum

def Pipeline.results (p : Pipeline) : List (Except IngestError Ingested) :=
  p.tasks.toList.filterMap Task.result?

-- ---------------------------------------------------------------------------
-- One entry
-- ---------------------------------------------------------------------------

section
variable {t next : Task} {c : Counter}

theorem Task.Blank.promised_eq (blank : t.Blank) : t.promised = 0 := by
  unfold promised
  split
  · exact absurd blank id
  · rfl

theorem Task.Blank.unsent_eq (blank : t.Blank) : t.unsent = [] := by
  unfold unsent
  split
  · exact absurd blank id
  · rfl

theorem Task.Blank.raised_eq (blank : t.Blank) : t.raised c = 0 := by
  unfold raised result?
  split
  · exact absurd blank id
  · rfl

theorem Task.Comes.blank (comes : t.Comes) : t.Blank := by
  cases t with
  | visiting _ _ | answered _ => exact absurd comes id
  | _ => trivial

theorem Task.Comes.admitted?_eq (comes : t.Comes) : t.admitted? = none := by
  cases t with
  | visiting _ _ | concluding _ _ _ => exact absurd comes id
  | _ => rfl

theorem Task.promised_of_settled (settled : t.isPending = false) : t.promised = 0 := by
  unfold promised
  split
  · cases settled
  · rfl

theorem Task.unsent_of_settled (settled : t.isPending = false) : t.unsent = [] := by
  unfold unsent
  split
  · cases settled
  · rfl

theorem Task.isDelivery_of_result {result : Except IngestError Ingested}
    (ended : t.result? = some result) : t.isDelivery = true := by
  unfold result? at ended
  split at ended
  · rfl
  · cases ended

theorem Task.answered_of_delivery (settled : t.isPending = false)
    (delivery : t.isDelivery = true) : ∃ result, t = .answered (.ingested result) := by
  cases t with
  | calling _ | delivering _ _ | visiting _ _ | concluding _ _ _ => cases settled
  | answered answer =>
    cases answer with
    | replied _ => cases delivery
    | ingested result => exact ⟨result, rfl⟩
  | _ => cases delivery

end

namespace Books

variable {b : Books} {c : Counter}

theorem get_conclude (b : Books) (path : Nat) (result : Except IngestError Ingested)
    (c : Counter) : (b.conclude path result).counters.get c =
      b.counters.get c + UInt64.ofNat (c.raisedBy result) :=
  Metrics.get_ingested _ _ _

theorem get_raise_self (b : Books) (c : Counter) (n : Nat) :
    (b.raise c n).counters.get c = b.counters.get c + UInt64.ofNat n :=
  Counters.get_add_self ..

theorem get_raise_of_ne {other : Counter} (n : Nat) (ne : c ≠ other) :
    (b.raise c n).counters.get other = b.counters.get other :=
  Counters.get_add_of_ne _ _ ne

theorem add_ofNat_zero (n : UInt64) : n + UInt64.ofNat 0 = n := by simp

end Books

theorem total_modify {l : List Tally} {path : Nat} (inside : path < l.length)
    (f : Tally → UInt64) (g : Tally → Tally) (n : UInt64) (more : ∀ t, f (g t) = f t + n) :
    ((l.modify path g).map f).sum = (l.map f).sum + n := by
  induction l generalizing path with
  | nil => cases inside
  | cons first rest ih =>
    cases path with
    | zero =>
      simp only [List.modify_zero_cons, List.map_cons, List.sum_cons, more]
      grind
    | succ path =>
      have below := ih (Nat.lt_of_succ_lt_succ inside)
      simp only [List.modify_succ_cons, List.map_cons, List.sum_cons, below]
      grind

namespace BookStep

variable {b after : Books} {t next : Task} {events : List Event} {c : Counter}

theorem raised_before (step : BookStep b t events after next) : t.raised c = 0 := by
  cases step with
  | aside blank | concludes blank => exact blank.raised_eq
  | acts | sends | breaks | sent => rfl

theorem get_of_ne (step : BookStep b t events after next) (emitted : c ≠ .eventsEmitted)
    (rolled : c ≠ .rollovers) :
    after.counters.get c = b.counters.get c + UInt64.ofNat (next.raised c) := by
  cases step with
  | aside _ still => rw [still.raised_eq, Books.add_ofNat_zero]
  | @concludes _ path result => exact b.get_conclude path result c
  | acts => rw [Books.get_raise_of_ne _ rolled.symm]; exact (Books.add_ofNat_zero _).symm
  | sends | breaks => exact (Books.add_ofNat_zero _).symm
  | sent => rw [Books.get_raise_of_ne _ emitted.symm]; exact (Books.add_ofNat_zero _).symm

/-- Events are counted by what was promised, as long as none is given up. -/
theorem emits (step : BookStep b t events after next) (kept : t.givesUp next = false) :
    ∃ n, after.counters.get .eventsEmitted = b.counters.get .eventsEmitted + UInt64.ofNat n ∧
      n + next.promised + t.unsent.length = t.promised + events.length + next.unsent.length := by
  cases step with
  | aside blank still =>
    exact ⟨0, (Books.add_ofNat_zero _).symm, by
      simp [blank.promised_eq, blank.unsent_eq, still.promised_eq, still.unsent_eq]⟩
  | concludes blank =>
    refine ⟨0, ?_, by rw [blank.promised_eq, blank.unsent_eq]; rfl⟩
    rw [b.get_conclude, Counter.raisedBy_of_not_mem (by decide) (by decide)]
  | acts =>
    refine ⟨0, ?_, by simp [Task.promised, Task.unsent]⟩
    rw [Books.get_raise_of_ne _ (by decide), Books.add_ofNat_zero]
  | sends =>
    refine ⟨0, (Books.add_ofNat_zero _).symm, ?_⟩
    simp only [Task.promised, Task.unsent, List.length_cons, List.length_nil]
    omega
  | breaks => cases kept
  | @sent _ count => exact ⟨count, b.get_raise_self _ _, by simp [Task.promised, Task.unsent]⟩

/-- Rollovers are counted before their final snapshots are sent. -/
theorem rolls (step : BookStep b t events after next) (kept : t.givesUp next = false) :
    ∃ n, after.counters.get .rollovers = b.counters.get .rollovers + UInt64.ofNat n ∧
      n + finals t.unsent = finals events + finals next.unsent := by
  cases step with
  | aside blank still =>
    exact ⟨0, (Books.add_ofNat_zero _).symm, by simp [blank.unsent_eq, still.unsent_eq, finals]⟩
  | concludes blank =>
    refine ⟨0, ?_, by rw [blank.unsent_eq]; rfl⟩
    rw [b.get_conclude, Counter.raisedBy_of_not_mem (by decide) (by decide)]
  | @acts _ _ change balanced =>
    refine ⟨change.rollovers, b.get_raise_self _ _, ?_⟩
    simp [Task.unsent, finals, balanced]
  | @sends _ event rest =>
    refine ⟨0, (Books.add_ofNat_zero _).symm, ?_⟩
    rw [Nat.zero_add, ← finals_append]
    rfl
  | breaks => cases kept
  | sent =>
    refine ⟨0, ?_, rfl⟩
    rw [Books.get_raise_of_ne _ (by decide), Books.add_ofNat_zero]

theorem admitted (step : BookStep b t events after next) {path : Nat}
    (now : next.admitted? = some path) :
    path < b.tallies.length ∨ t.admitted? = some path := by
  cases step with
  | aside _ _ known => exact known path now
  | concludes => cases now
  | acts | sends | breaks | sent => exact .inr ((Task.admitted?_visiting ..).trans now)

theorem length_eq (step : BookStep b t events after next) :
    after.tallies.length = b.tallies.length := by
  cases step with
  | concludes => exact List.length_modify ..
  | _ => rfl

theorem tallied (step : BookStep b t events after next)
    (known : ∀ path, t.admitted? = some path → path < b.tallies.length)
    (mem : c ∈ Counter.ofDeliveries)
    (before : b.counters.get c = (b.tallies.map (·.under c)).sum) :
    after.counters.get c = (after.tallies.map (·.under c)).sum := by
  obtain ⟨-, emitted, rolled⟩ := Counter.ne_of_mem_ofDeliveries mem
  cases step with
  | @concludes _ path result blank place =>
    have inside : path < b.tallies.length := place.elim id (known path)
    have more := total_modify inside (·.under c) (·.add result) _ fun t =>
      Tally.under_add mem t result
    rw [b.get_conclude, before]
    exact more.symm
  | acts => exact (Books.get_raise_of_ne _ rolled.symm).trans before
  | sent => exact (Books.get_raise_of_ne _ emitted.symm).trans before
  | aside | sends | breaks => exact before

end BookStep

-- ---------------------------------------------------------------------------
-- Sums
-- ---------------------------------------------------------------------------

theorem Pipeline.get_books {p : Pipeline} {c : Counter} (mem : c ∈ Counter.ofDeliveries) :
    p.books.counters.get c = p.store.metrics.counters.get c := by
  simp only [Counter.ofDeliveries, List.mem_cons, List.not_mem_nil, or_false] at mem
  rcases mem with rfl | rfl | rfl | rfl <;> rfl

def Pipeline.sum (p : Pipeline) (f : Task → Nat) : Nat := (p.tasks.toList.map f).sum

namespace Pipeline

variable {p q : Pipeline} {i : Nat} {t next : Task}

theorem Posted.sum_add (posted : Posted p i t q next) (here : p.tasks[i]? = some t)
    (f : Task → Nat) : q.sum f + f t = p.sum f + f next := by
  rw [sum, posted.tasks, Array.toList_setIfInBounds]
  exact sum_map_set f next (by simpa using here)

theorem Posted.task_self (posted : Posted p i t q next) (here : p.tasks[i]? = some t) :
    q.tasks[i]? = some next := by
  rw [posted.tasks, Array.getElem?_setIfInBounds_self_of_lt (Array.getElem?_eq_some_iff.mp here).1]

theorem Posted.task_of_ne (posted : Posted p i t q next) {j : Nat} (other : i ≠ j) :
    q.tasks[j]? = p.tasks[j]? := by
  rw [posted.tasks, Array.getElem?_setIfInBounds_ne other]

theorem sum_push (p : Pipeline) (t : Task) (f : Task → Nat) :
    sum { p with tasks := p.tasks.push t } f = p.sum f + f t := by
  simp [sum]

theorem sum_eq_zero {f : Task → Nat} (none : ∀ t ∈ p.tasks, f t = 0) : p.sum f = 0 := by
  refine List.sum_eq_zero fun n mem => ?_
  obtain ⟨t, among, rfl⟩ := List.mem_map.mp mem
  exact none t (Array.mem_toList_iff.mp among)

end Pipeline

-- ---------------------------------------------------------------------------
-- What holds all the while
-- ---------------------------------------------------------------------------

/-- What the counters come to while calls are under way. -/
structure Balanced (p : Pipeline) (a : Audit) : Prop where
  came : a.came.map Task.isDelivery = p.tasks.toList.map Task.isDelivery
  admitted : ∀ (j : Nat) t path, p.tasks[j]? = some t → t.admitted? = some path →
    path < p.books.tallies.length
  tallied : ∀ c ∈ Counter.ofDeliveries,
    p.books.counters.get c = (p.books.tallies.map (·.under c)).sum
  counted : ∀ c, c ≠ .eventsEmitted → c ≠ .rollovers →
    p.books.counters.get c = UInt64.ofNat (p.sum (Task.raised c))
  risen : ∀ (j : Nat), ∀ c ∈ Counter.ofDeliveries,
    a.risen j c = p.tasks[j]?.elim 0 (Task.raised c)
  emitted : a.failed = false → ∃ n, p.books.counters.get .eventsEmitted = UInt64.ofNat n ∧
    n + p.sum Task.promised = a.sent.length + p.sum (·.unsent.length)
  rolled : a.failed = false → p.books.counters.get .rollovers =
    UInt64.ofNat (finals a.sent + p.sum (finals ·.unsent))

namespace Balanced

variable {start p q : Pipeline} {a : Audit} {i : Nat} {t next : Task}

theorem init (unused : start.Unused) : Balanced start {} := by
  have tasks := unused.tasks
  have counters : start.books.counters = {} := by
    rw [Pipeline.books, unused.counters]
  have nothing : ∀ f, start.sum f = 0 := fun f => Pipeline.sum_eq_zero fun t mem => by
    rw [tasks] at mem
    exact absurd mem (Array.not_mem_empty t)
  refine ⟨by rw [tasks], fun j t path here => ?_, fun c mem => ?_, fun c _ _ => ?_,
    fun j c _ => by rw [tasks]; rfl, fun _ => ⟨0, ?_, ?_⟩, fun _ => ?_⟩
  · rw [tasks] at here
    cases here
  · rw [counters]
    have zero : ∀ n ∈ start.books.tallies.map (·.under c), n = 0 := by
      intro n among
      obtain ⟨tally, mem, rfl⟩ := List.mem_map.mp among
      obtain ⟨g, there, rfl⟩ := List.mem_map.mp mem
      rw [unused.tallies g (Array.mem_toList_iff.mp there)]
      cases c <;> rfl
    rw [List.sum_eq_zero zero]
    cases c <;> rfl
  · rw [counters, nothing]
    cases c <;> rfl
  · rw [counters]; rfl
  · rw [nothing, nothing]; rfl
  · rw [counters, nothing]; rfl

theorem comes (h : Balanced p a) (comes : t.Comes) :
    Balanced { p with tasks := p.tasks.push t } { a with came := a.came ++ [t] } := by
  have blank := comes.blank
  have same : ∀ f : Task → Nat, f t = 0 →
      Pipeline.sum { p with tasks := p.tasks.push t } f = p.sum f := fun f zero => by
    rw [Pipeline.sum_push, zero, Nat.add_zero]
  have unsent := blank.unsent_eq
  refine ⟨?_, fun j u path here admitted => ?_, h.tallied, fun c emitted rolled => ?_,
    fun j c mem => ?_, fun kept => ?_, fun kept => ?_⟩
  · simp [h.came]
  · rw [Array.getElem?_push] at here
    split at here
    · cases here
      rw [comes.admitted?_eq] at admitted
      cases admitted
    · exact h.admitted j u path here admitted
  · rw [same _ blank.raised_eq]
    exact h.counted c emitted rolled
  · rw [Array.getElem?_push]
    split
    · next last =>
      refine (h.risen j c mem).trans ?_
      rw [Array.getElem?_eq_none (Nat.le_of_eq last.symm)]
      exact blank.raised_eq.symm
    · exact h.risen j c mem
  · rw [same _ blank.promised_eq, same _ (congrArg List.length unsent)]
    exact h.emitted kept
  · rw [same _ (congrArg finals unsent)]
    exact h.rolled kept

theorem beside (h : Balanced p a) (aside : Beside p q) : Balanced q a := by
  have books : q.books = p.books := by
    rw [Pipeline.books, aside.metrics, aside.ingesters, Pipeline.books]
  have sums : ∀ f, q.sum f = p.sum f := fun f => by rw [Pipeline.sum, aside.tasks, Pipeline.sum]
  obtain ⟨came, admitted, tallied, counted, risen, emitted, rolled⟩ := h
  rw [← aside.tasks] at came
  simp only [← aside.tasks, ← books] at admitted risen
  simp only [← books, ← sums] at tallied counted emitted rolled
  exact ⟨came, admitted, tallied, counted, risen, emitted, rolled⟩

theorem rise_eq (posted : Pipeline.Posted p i t q next) {c : Counter}
    (mem : c ∈ Counter.ofDeliveries) :
    (q.store.metrics.counters.get c - p.store.metrics.counters.get c).toNat = next.raised c := by
  obtain ⟨-, emitted, rolled⟩ := Counter.ne_of_mem_ofDeliveries mem
  have rise := posted.step.get_of_ne emitted rolled
  rw [Pipeline.get_books mem, Pipeline.get_books mem] at rise
  have small : next.raised c ≤ 1 := by
    rw [Task.raised]
    cases next.result? with
    | none => exact Nat.zero_le 1
    | some result =>
      rw [Option.elim_some, Counter.raisedBy_of_mem mem]
      split <;> omega
  have exact : q.store.metrics.counters.get c - p.store.metrics.counters.get c =
      UInt64.ofNat (next.raised c) := by
    rw [rise]
    grind
  rw [exact, UInt64.toNat_ofNat']
  omega

theorem step (h : Balanced p a) (stepped : Pipeline.step? i p = some q) :
    Balanced q (a.step p q i) := by
  obtain ⟨t, next, here, posted⟩ := Pipeline.posted_of_step? stepped
  have after := posted.task_self here
  have sent : (a.step p q i).sent = a.sent ++ (p.noted t).emitted := by
    simp [Audit.step, here]
  have failed : (a.step p q i).failed = (a.failed || t.givesUp next) := by
    simp [Audit.step, here, after]
  have lengths : q.books.tallies.length = p.books.tallies.length := posted.step.length_eq
  refine ⟨?_, fun j u path there admitted => ?_, fun c mem => ?_, fun c emitted rolled => ?_,
    fun j c mem => ?_, fun kept => ?_, fun kept => ?_⟩
  · have kinds : p.tasks.toList.map Task.isDelivery = q.tasks.toList.map Task.isDelivery := by
      refine List.ext_getElem? fun j => ?_
      rw [List.getElem?_map, List.getElem?_map, Array.getElem?_toList, Array.getElem?_toList]
      by_cases own : i = j
      · subst own
        rw [here, after, Option.map_some, Option.map_some, posted.delivery]
      · rw [posted.task_of_ne own]
    exact h.came.trans kinds
  · rw [lengths]
    by_cases own : i = j
    · subst own
      cases after.symm.trans there
      rcases posted.step.admitted admitted with known | before
      · exact known
      · exact h.admitted i t path here before
    · exact h.admitted j u path (posted.task_of_ne own ▸ there) admitted
  · exact posted.step.tallied (fun path before => h.admitted i t path here before) mem
      (h.tallied c mem)
  · have sums := posted.sum_add here (Task.raised c)
    rw [posted.step.raised_before, Nat.add_zero] at sums
    rw [posted.step.get_of_ne emitted rolled, h.counted c emitted rolled, sums, UInt64.ofNat_add]
  · by_cases own : j = i
    · subst own
      have before := h.risen j c mem
      rw [here, Option.elim_some, posted.step.raised_before] at before
      simp only [Audit.step, if_true, after, Option.elim_some, before, rise_eq posted mem,
        Nat.zero_add]
    · rw [posted.task_of_ne (Ne.symm own)]
      simpa only [Audit.step, if_neg own] using h.risen j c mem
  · obtain ⟨before, still⟩ := Bool.or_eq_false_iff.mp (failed.symm.trans kept)
    obtain ⟨n, count, balance⟩ := h.emitted before
    obtain ⟨m, more, entry⟩ := posted.step.emits still
    have promised := posted.sum_add here Task.promised
    have unsent := posted.sum_add here (·.unsent.length)
    refine ⟨n + m, by rw [more, count, UInt64.ofNat_add], ?_⟩
    rw [sent, List.length_append]
    omega
  · obtain ⟨before, still⟩ := Bool.or_eq_false_iff.mp (failed.symm.trans kept)
    obtain ⟨m, more, entry⟩ := posted.step.rolls still
    have unsent := posted.sum_add here (finals ·.unsent)
    rw [more, h.rolled before, ← UInt64.ofNat_add, sent, finals_append]
    congr 1
    omega

theorem task_of_came (h : Balanced p a) {j : Nat} (came : a.came[j]? = some t) :
    ∃ u, p.tasks[j]? = some u ∧ u.isDelivery = t.isDelivery := by
  have kinds := congrArg (·[j]?) h.came
  simp only [List.getElem?_map, came, Option.map_some, Array.getElem?_toList] at kinds
  exact Option.map_eq_some_iff.mp kinds.symm

theorem results_length (h : Balanced p a) (settled : ∀ t ∈ p.tasks, t.isPending = false) :
    p.results.length = a.deliveries := by
  have ended : ∀ t ∈ p.tasks.toList, t.result?.isSome = true ↔ t.isDelivery = true := by
    intro t among
    refine ⟨fun result => ?_, fun delivery => ?_⟩
    · obtain ⟨result, some⟩ := Option.isSome_iff_exists.mp result
      exact Task.isDelivery_of_result some
    · obtain ⟨result, rfl⟩ :=
        Task.answered_of_delivery (settled t (Array.mem_toList_iff.mp among)) delivery
      rfl
  calc p.results.length
      = p.tasks.toList.countP Task.isDelivery := by
        rw [Pipeline.results, List.length_filterMap_eq_countP]
        exact List.countP_congr ended
    _ = (p.tasks.toList.map Task.isDelivery).countP id := by rw [List.countP_map]; rfl
    _ = a.deliveries := by rw [← h.came, List.countP_map]; rfl

end Balanced

theorem Traffic.balanced {start p : Pipeline} {a : Audit} (traffic : Traffic start p a)
    (unused : start.Unused) : Balanced p a := by
  induction traffic with
  | start => exact .init unused
  | comes _ comes ih => exact ih.comes comes
  | step _ stepped ih => exact ih.step stepped
  | beside _ aside ih => exact ih.beside aside

-- ---------------------------------------------------------------------------
-- Once no call is under way
-- ---------------------------------------------------------------------------

section
variable {start p : Pipeline} {a : Audit}

theorem Pipeline.sum_raised (p : Pipeline) (c : Counter) :
    p.sum (Task.raised c) = (p.results.map c.raisedBy).sum := by
  rw [sum, results]
  induction p.tasks.toList with
  | nil => rfl
  | cons t rest ih =>
    rw [List.map_cons, List.sum_cons, ih, Task.raised, List.filterMap_cons]
    cases t.result? with
    | none | some result => simp

theorem sum_raisedBy (results : List (Except IngestError Ingested)) :
    (results.map (Counter.raisedBy · .dealsApplied)).sum +
      (results.map (Counter.raisedBy · .dealsRejected)).sum +
      (results.map (Counter.raisedBy · .dealsDuplicate)).sum +
      (results.map (Counter.raisedBy · .dealsFiltered)).sum = results.length := by
  induction results with
  | nil => rfl
  | cons result rest ih =>
    have one : Counter.raisedBy result .dealsApplied + Counter.raisedBy result .dealsRejected +
        Counter.raisedBy result .dealsDuplicate + Counter.raisedBy result .dealsFiltered = 1 := by
      rcases result with e | outcome | _ | _ <;> rfl
    simp only [List.map_cons, List.sum_cons, List.length_cons]
    omega

theorem Balanced.total_eq (h : Balanced p a) {c : Counter} (mem : c ∈ Counter.ofDeliveries) :
    p.store.metrics.counters.get c = p.total (·.under c) := by
  rw [← Pipeline.get_books mem, h.tallied c mem, Pipeline.books, List.map_map]
  rfl

theorem Balanced.risen_of_delivery (h : Balanced p a) (settled : ∀ t ∈ p.tasks, t.isPending = false)
    {i : Nat} {t : Task} (came : a.came[i]? = some t) (delivery : t.isDelivery = true) :
    ∃ result, p.tasks[i]? = some (.answered (.ingested result)) ∧
      ∀ c ∈ Counter.ofDeliveries, a.risen i c = if c = .ofResult result then 1 else 0 := by
  obtain ⟨u, here, kind⟩ := h.task_of_came came
  obtain ⟨result, rfl⟩ := Task.answered_of_delivery (settled u (Array.mem_of_getElem? here))
    (kind.trans delivery)
  refine ⟨result, here, fun c mem => ?_⟩
  rw [h.risen i c mem, here, ← Counter.raisedBy_of_mem mem]
  rfl

theorem Balanced.risen_of_other (h : Balanced p a) {i : Nat} {t : Task}
    (came : a.came[i]? = some t) (other : t.isDelivery = false) {c : Counter}
    (mem : c ∈ Counter.ofDeliveries) : a.risen i c = 0 := by
  obtain ⟨u, here, kind⟩ := h.task_of_came came
  rw [h.risen i c mem, here, Option.elim_some, Task.raised]
  cases ended : u.result? with
  | none => rfl
  | some result =>
    rw [kind.symm.trans (Task.isDelivery_of_result ended)] at other
    cases other

end

/-- Once no call is under way, each counter of deliveries is the sum of what the ingesters
count; together they are the number of deliveries, each of which raised the counter of its
result by one and no other; the skipped resolutions are those of the accepted deals; and if
no emission failed, the emitted events and the rollovers are the events that were sent and
the final snapshots among them. All of it holds of words of 64 bits. -/
theorem counters_account {start p : Pipeline} {a : Audit} (unused : start.Unused)
    (traffic : Traffic start p a) (settled : ∀ t ∈ p.tasks, t.isPending = false) :
    let m := p.store.metrics.counters
    (m.dealsApplied = p.total Tally.accepted ∧ m.dealsRejected = p.total Tally.rejected ∧
      m.dealsDuplicate = p.total Tally.duplicate ∧ m.dealsFiltered = p.total Tally.skipped) ∧
    m.dealsApplied + m.dealsRejected + m.dealsDuplicate + m.dealsFiltered =
      UInt64.ofNat a.deliveries ∧
    (∀ (i : Nat) path delivery, a.came[i]? = some (.calling (.deliver path delivery)) →
      ∃ result, p.tasks[i]? = some (.answered (.ingested result)) ∧
        ∀ c ∈ Counter.ofDeliveries, a.risen i c = if c = .ofResult result then 1 else 0) ∧
    (∀ (i : Nat) t, a.came[i]? = some t → t.isDelivery = false →
      ∀ c ∈ Counter.ofDeliveries, a.risen i c = 0) ∧
    m.resolutionsSkipped = UInt64.ofNat (p.results.map skippedIn).sum ∧
    (a.failed = false → m.eventsEmitted = UInt64.ofNat a.sent.length ∧
      m.rollovers = UInt64.ofNat (finals a.sent)) := by
  have h := traffic.balanced unused
  have counts : ∀ c ∈ Counter.ofDeliveries, p.store.metrics.counters.get c =
      UInt64.ofNat (p.results.map c.raisedBy).sum := fun c mem => by
    obtain ⟨-, emitted, rolled⟩ := Counter.ne_of_mem_ofDeliveries mem
    rw [← Pipeline.get_books mem, h.counted c emitted rolled, p.sum_raised]
  refine ⟨⟨h.total_eq (c := .dealsApplied) (by decide),
    h.total_eq (c := .dealsRejected) (by decide), h.total_eq (c := .dealsDuplicate) (by decide),
    h.total_eq (c := .dealsFiltered) (by decide)⟩,
    ?_, fun i path delivery came => h.risen_of_delivery settled came rfl,
    fun i t came other c mem => h.risen_of_other came other mem, ?_, fun kept => ⟨?_, ?_⟩⟩
  · show p.store.metrics.counters.get .dealsApplied + p.store.metrics.counters.get .dealsRejected +
      p.store.metrics.counters.get .dealsDuplicate + p.store.metrics.counters.get .dealsFiltered = _
    rw [counts _ (by decide), counts _ (by decide), counts _ (by decide), counts _ (by decide),
      ← UInt64.ofNat_add, ← UInt64.ofNat_add, ← UInt64.ofNat_add, sum_raisedBy,
      h.results_length settled]
  · have skipped := h.counted .resolutionsSkipped (by decide) (by decide)
    rw [p.sum_raised] at skipped
    simp only [Counter.raisedBy_skipped] at skipped
    exact skipped
  · obtain ⟨n, count, balance⟩ := h.emitted kept
    have promised : p.sum Task.promised = 0 := Pipeline.sum_eq_zero fun t among =>
      Task.promised_of_settled (settled t among)
    have unsent : p.sum (·.unsent.length) = 0 := Pipeline.sum_eq_zero fun t among => by
      rw [Task.unsent_of_settled (settled t among)]
      rfl
    have same : n = a.sent.length := by omega
    exact same ▸ count
  · have rolled := h.rolled kept
    have unsent : p.sum (finals ·.unsent) = 0 := Pipeline.sum_eq_zero fun t among => by
      rw [Task.unsent_of_settled (settled t among)]
      rfl
    rw [unsent, Nat.add_zero] at rolled
    exact rolled

-- ---------------------------------------------------------------------------
-- An hour with calls of every kind
-- ---------------------------------------------------------------------------

/-- Lets tasks take a step, one after the other, those that can. -/
def Pipeline.audit (p : Pipeline) (a : Audit) : List Nat → Pipeline × Audit
  | [] => (p, a)
  | i :: rest =>
    match p.step? i with
    | some q => q.audit (a.step p q i) rest
    | none => p.audit a rest

theorem Traffic.audit {start p : Pipeline} {a : Audit} (traffic : Traffic start p a)
    (steps : List Nat) : Traffic start (p.audit a steps).1 (p.audit a steps).2 := by
  induction steps generalizing p a with
  | nil => exact traffic
  | cons i rest ih =>
    unfold Pipeline.audit
    split
    · next stepped => exact ih (traffic.step stepped)
    · exact ih traffic

theorem Traffic.comeAll {start p : Pipeline} {a : Audit} (traffic : Traffic start p a)
    (tasks : List Task) (comes : ∀ t ∈ tasks, t.Comes) :
    Traffic start { p with tasks := p.tasks ++ tasks.toArray }
      { a with came := a.came ++ tasks } := by
  induction tasks generalizing p a with
  | nil => simpa using traffic
  | cons t rest ih =>
    have next := ih (traffic.comes (comes t (List.mem_cons_self ..))) fun u mem =>
      comes u (List.mem_cons_of_mem _ mem)
    simpa using next

def busyHour : Pipeline where
  store := { config := twoResolutions, events := .create 8 }
  window := .empty 4
  ingesters := #[{}, {}]
  clock := ⟨.clamp (65 * nanosPerSecond), false⟩

def busyCalls : List Task :=
  [.calling (.deliver 0 (.deal earlyDeal)), .calling (.deliver 1 (.deal earlyDeal)),
    .calling (.deliver 1 (.text "")),
    .calling (.deliver 1 (.record { recordAt 66 "10" "3" with takerOrderId := "" })),
    .calling (.store .refresh)]

def busyWindow : Window := ((Window.empty 4).claim? earlyDeal.id).getD (.empty 4)

theorem claim?_busyWindow : (Window.empty 4).claim? earlyDeal.id = some busyWindow ∧
    busyWindow.claim? earlyDeal.id = none := by
  obtain ⟨window, claimed⟩ := Window.exists_claim? (Window.sound_empty 4) earlyDeal.id
    List.not_mem_nil
  have same : busyWindow = window := by rw [busyWindow, claimed, Option.getD_some]
  refine ⟨same ▸ claimed, ?_⟩
  rw [same, Window.claim?_eq_none_iff ((Window.sound_empty 4).claim? claimed),
    Window.order_of_claim? (by decide) claimed]
  exact List.mem_append_right _ (List.mem_singleton.mpr rfl)

def busyClaim : Pipeline × Audit :=
  let came : Pipeline × Audit :=
    ({ busyHour with tasks := #[] ++ busyCalls.toArray }, { came := [] ++ busyCalls })
  let first := came.1.begin 0 (.deliver 0 (.deal earlyDeal))
  let claimed := { first with window := busyWindow }.visit 0 (.ingester 0 earlyDeal)
    (.deal earlyDeal)
  let second := claimed.begin 1 (.deliver 1 (.deal earlyDeal))
  let known := second.conclude 1 1 (.ok .duplicate)
  (known, (((came.2.step came.1 first 0).step first claimed 0).step claimed second 1).step
    second known 1)

theorem busyClaim_traffic : Traffic busyHour busyClaim.1 busyClaim.2 := by
  obtain ⟨claimed, known⟩ := claim?_busyWindow
  have nothing : Traffic busyHour busyHour {} := .start
  have came := nothing.comeAll busyCalls fun t mem => by
    simp only [busyCalls, List.mem_cons, List.not_mem_nil, or_false] at mem
    rcases mem with rfl | rfl | rfl | rfl | rfl <;> trivial
  have first := came.step (i := 0) rfl
  have held := first.step (Pipeline.step?_claiming (i := 0) rfl rfl rfl claimed)
  have second := held.step (i := 1) rfl
  exact second.step (Pipeline.step?_duplicate (i := 1) rfl rfl rfl known)

def busyEnd : Pipeline × Audit :=
  let before := busyClaim.1.audit busyClaim.2 [2, 2, 3, 3, 0, 0, 0, 0, 0, 0, 0, 0]
  let later : Pipeline := { before.1 with clock := ⟨.clamp (125 * nanosPerSecond), false⟩ }
  later.audit before.2 [4, 4, 4, 4, 4, 4, 4]

/-- One result of each kind, a rollover, and all events sent. -/
theorem busyHour_accounts :
    busyHour.Unused ∧ ∃ p a, Traffic busyHour p a ∧ (∀ t ∈ p.tasks, t.isPending = false) ∧
      a.deliveries = 4 ∧ p.total Tally.accepted = 1 ∧
      p.store.metrics.counters.dealsApplied = p.total Tally.accepted ∧
      (p.results.map skippedIn).sum = 1 ∧
      p.store.metrics.counters.resolutionsSkipped = UInt64.ofNat (p.results.map skippedIn).sum ∧
      a.failed = false ∧ a.sent.length = 5 ∧ finals a.sent = 1 ∧
      p.store.metrics.counters.eventsEmitted = UInt64.ofNat a.sent.length ∧
      p.store.metrics.counters.rollovers = UInt64.ofNat (finals a.sent) := by
  have unused : busyHour.Unused := by
    refine ⟨rfl, rfl, fun g mem => ?_⟩
    simp only [busyHour, List.mem_toArray, List.mem_cons, List.not_mem_nil, or_false, or_self]
      at mem
    rw [mem]
  have before := busyClaim_traffic.audit [2, 2, 3, 3, 0, 0, 0, 0, 0, 0, 0, 0]
  have later := before.beside
    (q := { (busyClaim.1.audit busyClaim.2 [2, 2, 3, 3, 0, 0, 0, 0, 0, 0, 0, 0]).1 with
      clock := ⟨.clamp (125 * nanosPerSecond), false⟩ })
    ⟨rfl, rfl, rfl, rfl, rfl, rfl, fun _ mem => mem⟩
  have traffic : Traffic busyHour busyEnd.1 busyEnd.2 := later.audit [4, 4, 4, 4, 4, 4, 4]
  have settled : ∀ t ∈ busyEnd.1.tasks, t.isPending = false := by decide +kernel
  have kept : busyEnd.2.failed = false := by decide +kernel
  obtain ⟨⟨applied, -⟩, -, -, -, skipped, sent⟩ := counters_account unused traffic settled
  obtain ⟨emitted, rolled⟩ := sent kept
  exact ⟨unused, busyEnd.1, busyEnd.2, traffic, settled, by decide +kernel, by decide +kernel,
    applied, by decide +kernel, skipped, kept, by decide +kernel, by decide +kernel, emitted,
    rolled⟩

end Candlestick
