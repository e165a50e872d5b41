import Candlestick.Proofs.Pipeline.Order

/-!
# Courses of a pipeline

A course is what a pipeline does under any schedule in which a task, once it moves, goes on
until it has to wait or until its next step may have to. Between turns the outside may do
anything that does not touch the candles, the locks and the window. The notes of the
ingesters form a ledger, and the deliveries under way stand in order (`Course.kept`).
-/

namespace Candlestick

def Note.of? (now : Instant) (i : Nat) : Task → Task → Option Note
  | .delivering _ _, .visiting (.ingester _ deal) _ => some (.claimed i deal.id)
  | .delivering _ delivery, .answered (.ingested (.ok .duplicate)) =>
    match delivery.examine with
    | .admitted deal => some (.duplicate i deal.id)
    | _ => none
  | .visiting (.ingester _ deal) (.waiting _), .visiting _ (.sending _ _ _) =>
    some (.folded i now deal)
  | .concluding _ deal _, .answered (.ingested result) => some (.ended i deal.id result)
  | _, _ => none

def Note.between (p q : Pipeline) (i : Nat) : List Note :=
  match p.tasks[i]?, q.tasks[i]? with
  | some t, some next => (Note.of? p.now i t next).toList
  | _, _ => []

/-- Which tasks may come from outside, and who may move. -/
structure Regime where
  joins : Task → Prop
  apart : ∀ t, joins t → t.Apart
  moves : Nat → Pipeline → Prop

structure Outside (joins : Task → Prop) (p q : Pipeline) : Prop where
  floor : q.floor = p.floor
  tasks : ∃ more : Array Task, q.tasks = p.tasks ++ more ∧ ∀ t ∈ more, joins t

/-- From a start to a state with a task at its turn, if any, and with the notes
taken on the way. -/
inductive Course (regime : Regime) (start : Pipeline) :
    Pipeline → Option Nat → List Note → Prop
  | start : Course regime start start none []
  | step {p q : Pipeline} {turn : Option Nat} {notes : List Note} {i : Nat} :
      Course regime start p turn notes → (turn = none ∨ turn = some i) → regime.moves i p →
      Pipeline.step? i p = some q →
      Course regime start q (some i) (notes ++ Note.between p q i)
  /-- A turn ends where the task has to wait, or might have to. -/
  | rest {p : Pipeline} {notes : List Note} {i : Nat} :
      Course regime start p (some i) notes →
      (Pipeline.step? i p = none ∨ 0 < Pipeline.cost i p) →
      Course regime start p none notes
  | outside {p q : Pipeline} {notes : List Note} :
      Course regime start p none notes → Outside regime.joins p q →
      Course regime start q none notes

/-- A pipeline that no delivery has entered: all locks are free, the window is
empty, and no task has begun. -/
structure Fresh (joins : Task → Prop) (p : Pipeline) : Prop where
  lock : p.store.lock = {}
  window : p.window.order = [] ∧ p.window.Sound
  gates : ∀ (path : Nat) (g : Ingester), p.ingesters[path]? = some g → g.lock = {}
  tasks : ∀ t ∈ p.tasks, joins t

/-- The window has room for the claims of all calls that can be under way: there
are no more ingesters than it remembers identifiers, or one call at a time is
handled. -/
def Roomy (regime : Regime) (p : Pipeline) : Prop :=
  p.ingesters.size ≤ p.window.capacity ∨
    (0 < p.window.capacity ∧
      ∀ i q, regime.moves i q → ∀ j t, q.tasks[j]? = some t → j ≠ i → t.Apart)

def Pipeline.task (p : Pipeline) (i : Nat) : Option Task := p.tasks[i]?

theorem Pipeline.task_of_set {p q : Pipeline} {i : Nat} {t next : Task}
    (here : p.tasks[i]? = some t) (set : q.tasks = p.tasks.setIfInBounds i next) :
    q.task = placed p.task i next := by
  have inside := (Array.getElem?_eq_some_iff.mp here).1
  funext j
  rw [Pipeline.task, set, Array.getElem?_setIfInBounds]
  by_cases same : i = j
  · rw [if_pos same, if_pos (same ▸ inside), ← same, placed_self]
  · rw [if_neg same, placed_of_ne _ _ (Ne.symm same)]
    rfl

theorem Pipeline.Moves.task {p q : Pipeline} {i : Nat} {t next : Task}
    (here : p.tasks[i]? = some t) (moves : p.Moves i t q next) : q.task = placed p.task i next :=
  task_of_set here moves.tasks

-- ---------------------------------------------------------------------------
-- One move
-- ---------------------------------------------------------------------------

def Task.Past : Task → Prop
  | .visiting (.ingester _ _) _ => True
  | .concluding _ _ _ => True
  | .answered _ => True
  | _ => False

theorem Task.Free.not_past {t : Task} (h : t.Free) : ¬ t.Past := by
  cases t <;> first | exact id | exact absurd h id

section
variable {now : Instant} {i : Nat} {f after : Floor} {t next : Task} {paths capacity : Nat}
  {task : Nat → Option Task} {turn : Option Nat} {settled : List DealId}
  {back line : List Flight} {notes : List Note}

theorem Move.past (move : Move now i f t after next) (h : t.Past) : next.Past := by
  cases move with
  | aside free | enters free | retires free => exact absurd h free.not_past
  | approaches => exact absurd h id
  | refused | duplicate | claims => exact trivial
  | @acts visitor | @fails visitor | @sends visitor | @breaks visitor | @sent visitor =>
    cases visitor <;> exact h
  | returns => exact trivial
  | @leaves visitor _ _ other => cases visitor <;> first | exact absurd trivial other | exact absurd h id
  | turns | closes => exact absurd h id
  | concludes => exact trivial

theorem Move.capacity_eq (move : Move now i f t after next) :
    after.window.capacity = f.window.capacity := by
  cases move with
  | claims _ _ _ claimed => exact Window.capacity_of_claim? claimed
  | @concludes _ deal result =>
    cases result with
    | ok reply => rfl
    | error e => exact Window.capacity_release f.window deal.id
  | _ => rfl

theorem Move.sound (move : Move now i f t after next) (sound : f.window.Sound) :
    after.window.Sound := by
  cases move with
  | claims _ _ _ claimed => exact sound.claim? claimed
  | @concludes _ deal result =>
    cases result with
    | ok reply => exact sound
    | error e => exact sound.release deal.id
  | _ => exact sound

theorem Move.gate_of_delivering {path : Nat} {delivery : Delivery}
    (move : Move now i f (.delivering path delivery) after next) :
    ∃ gate, f.gate path = some gate ∧ gate.holder = some i := by
  cases move with
  | aside free | enters free | retires free => exact absurd free id
  | refused found holder | duplicate found holder | claims found holder =>
    exact ⟨_, found, holder⟩

theorem Note.of?_of_free (h : t.Free) : Note.of? now i t next = none := by
  cases t <;> first | rfl | exact absurd h id

theorem Note.of?_refused {path : Nat} {delivery : Delivery} {result : Except IngestError Ingested}
    (h : result ≠ .ok .duplicate) :
    Note.of? now i (.delivering path delivery) (.answered (.ingested result)) = none := by
  rcases result with e | (outcome | _ | _)
  · rfl
  · rfl
  · rfl
  · exact absurd rfl h

theorem Note.of?_duplicate {path : Nat} {delivery : Delivery} {deal : Deal}
    (h : delivery.examine = .admitted deal) :
    Note.of? now i (.delivering path delivery) (.answered (.ingested (.ok .duplicate))) =
      some (.duplicate i deal.id) := by
  simp [Note.of?, h]

theorem Task.Apart.flight? (h : t.Apart) : t.flight? = none := by
  cases t <;> first | rfl | exact absurd h id

theorem Task.Apart.landing? (h : t.Apart) : t.landing? = none := by
  cases t <;> first | rfl | exact absurd h id

theorem Visitor.flight?_of_not_delivers {visitor : Visitor} (h : ¬ visitor.Delivers)
    (visit : Visit) : (Task.visiting visitor visit).flight? = none := by
  cases visitor <;> first | rfl | exact absurd trivial h

theorem Ordered.aside_step (h : Ordered paths f task turn settled [] line)
    (here : task i = some t) (move : Move now i f t after next)
    (flight : t.flight? = next.flight?) (landing : t.landing? = next.landing?) :
    Ordered paths after (placed task i next) (some i) settled [] line := by
  have gated : ∀ g ∈ line, ∃ gate, f.gate g.path = some gate ∧ gate.holder = some g.call :=
    fun g hg => h.gated g hg
  cases move with
  | aside free apart =>
    refine h.stay here flight landing rfl (h.inLine.stay here ?_ ?_) h.queued gated h.bounded
    · exact iff_of_false free.apart.not_stands apart.not_stands
    · rintro visitor visit rfl
      exact absurd apart id
  | enters free =>
    refine h.stay here flight landing rfl
      (h.inLine.enter here free.apart.not_stands trivial ?_) ?_ gated h.bounded
    · intro visitor visit same
      cases same
      exact id
    · rw [Lock.line_request h.inLine.fair]
      exact List.sublist_append_of_sublist_left h.queued
  | retires free =>
    refine h.stay here flight landing rfl
      (h.inLine.enter here free.apart.not_stands trivial ?_) ?_ gated h.bounded
    · intro visitor visit same
      cases same
    · rw [Lock.line_request h.inLine.fair]
      exact List.sublist_append_of_sublist_left h.queued
  | approaches =>
    refine h.stay here flight landing rfl (h.inLine.stay here Iff.rfl ?_) h.queued
      (h.gated_request _) (h.bounded_atGate _ _)
    intro visitor visit same
    cases same
  | refused found holder | duplicate found holder =>
    refine h.stay here flight landing rfl (h.inLine.stay here Iff.rfl ?_) h.queued
      (h.gated_release (fun g hg => hg) (h.path_ne here rfl found holder)) (h.bounded_atGate _ _)
    intro visitor visit same
    cases same
  | claims => cases flight
  | acts holder | fails holder =>
    refine h.stay here flight landing rfl (h.inLine.stay here Iff.rfl ?_) h.queued gated h.bounded
    exact fun _ _ _ _ => holder
  | sends | breaks | sent =>
    refine h.stay here flight landing rfl (h.inLine.stay here Iff.rfl ?_) h.queued gated h.bounded
    exact fun _ _ _ _ => h.inLine.holding i _ _ here trivial
  | returns => cases flight
  | leaves other apart =>
    have holder := h.inLine.holding i _ _ here trivial
    refine h.stay here flight landing rfl (h.inLine.leave holder apart.not_stands) ?_ gated
      h.bounded
    exact h.queued_release here (Visitor.flight?_of_not_delivers other _) holder
  | turns =>
    -- out of the line, and at once to its end
    have holder := h.inLine.holding i _ _ here trivial
    have left : Ordered paths { f with lock := f.lock.release } (placed task i .refreshing)
        (some i) settled [] line :=
      h.stay here rfl rfl rfl (h.inLine.leave holder id) (h.queued_release here rfl holder)
        gated h.bounded
    rw [← placed_placed task i .refreshing]
    refine left.stay (placed_self ..) rfl rfl rfl
      (left.inLine.enter (placed_self ..) id trivial ?_) ?_ left.gated h.bounded
    · intro visitor visit same
      cases same
    · rw [Lock.line_request left.inLine.fair]
      exact List.sublist_append_of_sublist_left left.queued
  | closes holder =>
    refine h.stay here flight landing rfl (h.inLine.leave holder id) ?_ gated h.bounded
    exact h.queued_release here rfl holder
  | concludes => cases landing

theorem Note.of?_claimed {call : Nat} {id : DealId}
    (h : Note.of? now i t next = some (.claimed call id)) : call = i ∧ next.Past := by
  unfold Note.of? at h
  split at h
  · cases h
    exact ⟨rfl, trivial⟩
  · split at h
    · cases h
    · cases h
  · cases h
  · cases h
  · cases h

theorem Ledger.unnoted {n : Option Note} {opened : List (Nat × DealId)}
    (ledger : Ledger capacity notes settled opened) (silent : n = none) :
    Ledger capacity (notes ++ n.toList) settled opened := by
  rw [silent, Option.toList_none, List.append_nil]
  exact ledger

/-- A move keeps the order, and what is noted of it the ledger. -/
theorem Ordered.step (h : Ordered paths f task turn settled back line)
    (ledger : Ledger f.window.capacity notes settled ((back ++ line).map Flight.entry))
    (here : task i = some t) (mine : turn = none ∨ turn = some i)
    (move : Move now i f t after next) (unclaimed : ¬ t.Past → ∀ id, .claimed i id ∉ notes)
    (room : ∀ path delivery, t = .delivering path delivery → line.length < f.window.capacity) :
    ∃ settled' back' line', Ordered paths after (placed task i next) (some i) settled' back' line' ∧
      Ledger f.window.capacity (notes ++ (Note.of? now i t next).toList) settled'
        ((back' ++ line').map Flight.entry) := by
  by_cases landing : t.landing? = none
  · obtain rfl := h.back_eq_nil here mine landing
    have kept := h.aside_step here move
    cases move with
    | aside free apart =>
      exact ⟨settled, [], line,
        kept (free.apart.flight?.trans apart.flight?.symm) (landing.trans apart.landing?.symm),
        ledger.unnoted (Note.of?_of_free free)⟩
    | enters free other =>
      exact ⟨settled, [], line,
        kept (free.apart.flight?.trans (Visitor.flight?_of_not_delivers other _).symm) landing,
        ledger.unnoted (Note.of?_of_free free)⟩
    | retires free =>
      exact ⟨settled, [], line, kept free.apart.flight? landing,
        ledger.unnoted (Note.of?_of_free free)⟩
    | approaches => exact ⟨settled, [], line, kept rfl rfl, ledger.unnoted rfl⟩
    | @refused path delivery gate result _ _ examined other =>
      exact ⟨settled, [], line, kept rfl rfl, ledger.unnoted (Note.of?_refused other)⟩
    | @duplicate path delivery gate deal found holder examined known =>
      have mem := (Window.claim?_eq_none_iff h.sound).mp known
      rw [h.order] at mem
      rw [Note.of?_duplicate examined, Option.toList_some]
      exact ⟨settled, [], line, kept rfl rfl, .duplicate ledger mem⟩
    | @claims path delivery gate deal window found holder examined claimed =>
      have short := room path delivery rfl
      have fresh : deal.id ∉ settled ++ ((line.map Flight.entry).map Prod.snd) := by
        intro mem
        have known := (Window.claim?_eq_none_iff h.sound).mpr (h.order ▸ mem)
        rw [claimed] at known
        cases known
      have claim := ledger.claimed (unclaimed id) fresh (by simpa using short)
      rw [List.nil_append, List.length_map] at claim
      refine ⟨_, [], _, h.claim here found holder claimed short, ?_⟩
      rw [List.nil_append, List.map_append]
      exact claim
    | @acts visitor request change =>
      refine ⟨settled, [], line, kept ?_ rfl, ?_⟩
      · cases visitor <;> rfl
      · cases visitor with
        | ingester path deal => exact .folded ledger
        | caller | seeder rest | refresher => exact ledger.unnoted rfl
    | @fails visitor | @sends visitor | @breaks visitor | @sent visitor =>
      exact ⟨settled, [], line, kept (by cases visitor <;> rfl) rfl,
        ledger.unnoted (by cases visitor <;> rfl)⟩
    | @returns path deal result =>
      have holder := h.inLine.holding i _ _ here trivial
      obtain ⟨rest, rfl⟩ := h.line_eq_cons here holder
      exact ⟨settled, [⟨i, path, deal⟩], rest, h.land here holder, ledger.unnoted rfl⟩
    | @leaves visitor result next other apart =>
      refine ⟨settled, [], line,
        kept ((Visitor.flight?_of_not_delivers other _).trans apart.flight?.symm)
          apart.landing?.symm, ledger.unnoted ?_⟩
      cases visitor <;> rfl
    | turns | closes => exact ⟨settled, [], line, kept rfl rfl, ledger.unnoted rfl⟩
    | concludes => cases landing
  · cases move with
    | @concludes path deal result =>
      obtain rfl := h.back_eq here
      exact ⟨_, [], line, h.conclude here, .ended ledger⟩
    | aside free | enters free | retires free => exact absurd free.apart.landing? landing
    | _ => exact absurd rfl landing

end

-- ---------------------------------------------------------------------------
-- Whole courses
-- ---------------------------------------------------------------------------

/-- What a course keeps: the deliveries under way are in order, their claims and
all others are in the ledger, and who has claimed is past it. -/
structure Kept (start p : Pipeline) (turn : Option Nat) (notes : List Note) : Prop where
  flights : ∃ settled back line,
    Ordered start.ingesters.size p.floor p.task turn settled back line ∧
      Ledger start.window.capacity notes settled ((back ++ line).map Flight.entry)
  capacity : p.window.capacity = start.window.capacity
  past : ∀ call id, .claimed call id ∈ notes → ∃ t, p.task call = some t ∧ t.Past

section
variable {regime : Regime} {start p q : Pipeline} {turn : Option Nat} {notes : List Note} {i : Nat}

theorem Fresh.task_apart (fresh : Fresh regime.joins start) {j : Nat} {t : Task}
    (h : start.task j = some t) : t.Apart :=
  regime.apart t (fresh.tasks t (Array.mem_of_getElem? h))

theorem Kept.init (fresh : Fresh regime.joins start) : Kept start start none [] := by
  have lock : start.floor.lock = {} := fresh.lock
  refine ⟨⟨[], [], [], ?_, .nil⟩, rfl, fun _ _ h => nomatch h⟩
  refine ⟨⟨?_, ?_, ?_, ?_⟩, fresh.window.2, fresh.window.1, ?_, fun g => ?_, fun g => ?_,
    Nat.zero_le _, (fun g hg => nomatch hg), (fun g hg => nomatch hg), fun path gate found => ?_⟩
  · rw [lock]
    exact Lock.fair_free
  · rw [lock]
    exact .nil
  · rw [lock]
    exact fun j hj => nomatch hj
  · intro j visitor visit here
    exact absurd (fresh.task_apart here) id
  · exact List.nil_sublist _
  · refine iff_of_false List.not_mem_nil fun same => ?_
    obtain ⟨t, here, flight⟩ := Option.bind_eq_some_iff.mp same
    rw [(fresh.task_apart here).flight?] at flight
    cases flight
  · refine iff_of_false List.not_mem_nil fun same => ?_
    obtain ⟨t, here, landing⟩ := Option.bind_eq_some_iff.mp same
    rw [(fresh.task_apart here).landing?] at landing
    cases landing
  · obtain ⟨g, here, -⟩ := Option.map_eq_some_iff.mp found
    exact (Array.getElem?_eq_some_iff.mp here).1

theorem between_eq {t next : Task} (here : p.tasks[i]? = some t) (moves : p.Moves i t q next) :
    Note.between p q i = (Note.of? p.now i t next).toList := by
  have there : q.tasks[i]? = some next := by
    have task := congrFun (moves.task here) i
    rw [placed_self] at task
    exact task
  simp only [Note.between, here, there]

theorem Kept.step (kept : Kept start p turn notes) (roomy : Roomy regime start)
    (mine : turn = none ∨ turn = some i) (allowed : regime.moves i p)
    (stepped : Pipeline.step? i p = some q) :
    Kept start q (some i) (notes ++ Note.between p q i) := by
  obtain ⟨⟨settled, back, line, ordered, ledger⟩, capacity, past⟩ := kept
  obtain ⟨t, next, here, moves⟩ := Pipeline.step?_moves stepped
  have unclaimed : ¬ t.Past → ∀ id, .claimed i id ∉ notes := by
    intro before id claimed
    obtain ⟨u, there, after⟩ := past i id claimed
    rw [Pipeline.task, here] at there
    cases there
    exact before after
  have room : ∀ path delivery, t = .delivering path delivery →
      line.length < p.floor.window.capacity := by
    rintro path delivery rfl
    rcases roomy with few | ⟨some, alone⟩
    · -- the ingester that moves has no delivery under way yet
      obtain ⟨gate, found, holder⟩ := moves.move.gate_of_delivering
      exact Nat.lt_of_lt_of_le (ordered.length_lt_paths here rfl found holder) (capacity ▸ few)
    · -- no other task is under way
      cases line with
      | nil => exact capacity ▸ some
      | cons g rest =>
        obtain ⟨u, there, flight⟩ := Option.bind_eq_some_iff.mp
          ((ordered.flying g).mp (List.mem_cons_self ..))
        by_cases same : g.call = i
        · rw [same, Pipeline.task, here] at there
          cases there
          cases flight
        · rw [(alone i p allowed g.call u there same).flight?] at flight
          cases flight
  have ledger' : Ledger p.floor.window.capacity notes settled
      ((back ++ line).map Flight.entry) := capacity ▸ ledger
  obtain ⟨settled', back', line', ordered', ledger''⟩ :=
    ordered.step ledger' here mine moves.move unclaimed room
  rw [← moves.task here] at ordered'
  rw [← between_eq here moves] at ledger''
  refine ⟨⟨settled', back', line', ordered', capacity ▸ ledger''⟩,
    moves.move.capacity_eq.trans capacity, fun call id claimed => ?_⟩
  rw [moves.task here]
  rcases List.mem_append.mp claimed with early | last
  · obtain ⟨u, there, after⟩ := past call id early
    by_cases same : call = i
    · rw [same, Pipeline.task, here] at there
      cases there
      exact ⟨next, by rw [same, placed_self], moves.move.past after⟩
    · exact ⟨u, by rw [placed_of_ne _ _ same, there], after⟩
  · rw [between_eq here moves, Option.mem_toList] at last
    obtain ⟨rfl, after⟩ := Note.of?_claimed last
    exact ⟨next, placed_self .., after⟩

/-- A turn does not end before the delivery of its task has concluded. -/
theorem Kept.rest (kept : Kept start p (some i) notes)
    (waits : Pipeline.step? i p = none ∨ 0 < Pipeline.cost i p) : Kept start p none notes := by
  obtain ⟨⟨settled, back, line, ordered, ledger⟩, capacity, past⟩ := kept
  have empty : back = [] := by
    cases back with
    | nil => rfl
    | cons g rest =>
      have turned := Option.some.inj (ordered.turned g (List.mem_cons_self ..))
      obtain ⟨t, here, landing⟩ := Option.bind_eq_some_iff.mp
        ((ordered.landing g).mp (List.mem_cons_self ..))
      rw [← turned] at here
      cases t with
      | concluding path deal result =>
        rw [Pipeline.task] at here
        simp [Pipeline.step?, Pipeline.cost, here] at waits
      | _ => cases landing
  subst empty
  exact ⟨⟨settled, [], line, { ordered with turned := fun _ hg => absurd hg List.not_mem_nil }, ledger⟩,
    capacity, past⟩

theorem Outside.task_eq (outside : Outside regime.joins p q) {j : Nat} {t : Task}
    (here : p.task j = some t) : q.task j = some t := by
  obtain ⟨more, tasks, -⟩ := outside.tasks
  rw [Pipeline.task, tasks, Array.getElem?_append_left (Array.getElem?_eq_some_iff.mp here).1]
  exact here

theorem Outside.task_cases (outside : Outside regime.joins p q) {j : Nat} {t : Task}
    (there : q.task j = some t) : p.task j = some t ∨ t.Apart := by
  obtain ⟨more, tasks, joins⟩ := outside.tasks
  rw [Pipeline.task, tasks, Array.getElem?_append] at there
  split at there
  · exact .inl there
  · exact .inr (regime.apart t (joins t (Array.mem_of_getElem? there)))

theorem Outside.bind_eq {α : Type} (outside : Outside regime.joins p q) {view : Task → Option α}
    (blind : ∀ t : Task, t.Apart → view t = none) (j : Nat) (a : α) :
    (q.task j).bind view = some a ↔ (p.task j).bind view = some a := by
  simp only [Option.bind_eq_some_iff]
  constructor
  · rintro ⟨t, there, seen⟩
    rcases outside.task_cases there with here | apart
    · exact ⟨t, here, seen⟩
    · rw [blind t apart] at seen
      cases seen
  · rintro ⟨t, here, seen⟩
    exact ⟨t, outside.task_eq here, seen⟩

theorem Kept.outside (kept : Kept start p none notes) (outside : Outside regime.joins p q) :
    Kept start q none notes := by
  obtain ⟨⟨settled, back, line, ordered, ledger⟩, capacity, past⟩ := kept
  have window : q.window = p.window := congrArg Floor.window outside.floor
  refine ⟨⟨settled, back, line, ?_, ledger⟩, window ▸ capacity, fun call id claimed => ?_⟩
  · obtain ⟨inLine, sound, order, queued, flying, landing, single, turned, gated, bounded⟩ :=
      ordered
    rw [outside.floor]
    refine ⟨⟨inLine.fair, inLine.nodup, fun j hj => ?_, fun j visitor visit there begun => ?_⟩,
      sound, order, queued, fun g => ?_, fun g => ?_, single, turned, gated, bounded⟩
    · obtain ⟨t, here, stands⟩ := inLine.standing j hj
      exact ⟨t, outside.task_eq here, stands⟩
    · rcases outside.task_cases there with here | apart
      · exact inLine.holding j visitor visit here begun
      · exact absurd apart id
    · rw [outside.bind_eq fun _ => Task.Apart.flight?, flying]
    · rw [outside.bind_eq fun _ => Task.Apart.landing?, landing]
  · obtain ⟨t, here, after⟩ := past call id claimed
    exact ⟨t, outside.task_eq here, after⟩

theorem Course.sound (course : Course regime start p turn notes) (sound : start.window.Sound) :
    p.window.Sound := by
  induction course with
  | start => exact sound
  | step _ _ _ stepped ih =>
    obtain ⟨t, next, -, moves⟩ := Pipeline.step?_moves stepped
    exact moves.move.sound ih
  | rest _ _ ih => exact ih
  | @outside p q _ _ outside ih =>
    have window : q.window = p.window := congrArg Floor.window outside.floor
    rwa [window]

theorem Course.kept (fresh : Fresh regime.joins start) (roomy : Roomy regime start)
    (course : Course regime start p turn notes) : Kept start p turn notes := by
  induction course with
  | start => exact Kept.init fresh
  | step _ mine allowed stepped ih => exact ih.step roomy mine allowed stepped
  | rest _ waits ih => exact ih.rest waits
  | outside _ outside ih => exact ih.outside outside

end

end Candlestick
