import Candlestick.Proofs.Pipeline.Course
import Candlestick.Proofs.Pipeline.Series
import Candlestick.Store.History

/-!
# Deliveries one at a time

Nothing but deliveries, on any number of ingesters, and one goes on only while no other is
under way (`oneByOne`). Where its task stands says what a delivery has done (`Task.phase`),
and the candles are what the folds among the notes make of them (`Course.serving`).
-/

namespace Candlestick

/-- Deliveries only, and no delivery goes on while another one is under way. -/
def oneByOne : Regime where
  joins t := ∃ path delivery, t = .calling (.deliver path delivery)
  apart := by
    rintro t ⟨path, delivery, rfl⟩
    exact trivial
  moves i p := ∀ j t, p.tasks[j]? = some t → j ≠ i → t.Apart

def Task.Serves : Task → Prop
  | .calling (.deliver _ _) => True
  | .delivering _ _ => True
  | .visiting (.ingester _ deal) (.waiting request) => request = .deal deal
  | .visiting (.ingester _ _) _ => True
  | .concluding _ _ _ => True
  | .answered _ => True
  | _ => False

def Phase.returned (i : Nat) (deal : Deal) (result : Except StoreError Reply) : Phase :=
  if Lost (Pipeline.deliveryResult result) ∨ result.isOk then .folded i deal else .claimed i deal

def Task.phase (i : Nat) : Task → Phase
  | .visiting (.ingester _ deal) (.waiting _) => .claimed i deal
  | .visiting (.ingester _ deal) (.sending _ _ _) => .folded i deal
  | .visiting (.ingester _ deal) (.leaving result) => .returned i deal result
  | .concluding _ deal result => .returned i deal result
  | _ => .idle

def Note.fold? : Note → Option DatedRequest
  | .folded _ now deal => some ⟨now, .deal deal⟩
  | _ => none

def foldsOf (notes : List Note) : List DatedRequest := notes.filterMap Note.fold?

-- ---------------------------------------------------------------------------
-- One move
-- ---------------------------------------------------------------------------

section
variable {now : Instant} {i : Nat} {f after : Floor} {t next : Task} {notes : List Note}

theorem Task.Apart.phase (h : t.Apart) (i : Nat) : t.phase i = .idle := by
  cases t <;> first | rfl | exact absurd h id

theorem Task.Free.not_serves (h : t.Free) : ¬ t.Serves := by
  cases t with
  | calling call =>
    cases call with
    | deliver path delivery => exact absurd h id
    | store request | record record => exact id
  | answered answer | delivering | visiting | concluding | closing => exact absurd h id
  | _ => exact id

theorem Phase.returned_ok (i : Nat) (deal : Deal) (reply : Reply) :
    Phase.returned i deal (.ok reply) = .folded i deal := if_pos (.inr rfl)

theorem Phase.returned_emission (i : Nat) (deal : Deal) {e : StoreError} (h : e.IsEmission) :
    Phase.returned i deal (.error e) = .folded i deal := if_pos (.inl h)

theorem Phase.returned_other (i : Nat) (deal : Deal) {e : StoreError} (h : ¬ e.IsEmission) :
    Phase.returned i deal (.error e) = .claimed i deal := by
  refine if_neg ?_
  rintro (lost | ok)
  · exact h lost
  · cases ok

theorem Task.Serves.visitor {visitor : Visitor} {visit : Visit}
    (h : (Task.visiting visitor visit).Serves) :
    ∃ path deal, visitor = .ingester path deal ∧
      ∀ request, visit = .waiting request → request = .deal deal := by
  cases visitor with
  | ingester path deal =>
    refine ⟨path, deal, rfl, ?_⟩
    rintro request rfl
    exact h
  | caller | seeder rest | refresher => exact absurd h id

/-- A delivery fails before its fold in its arithmetic only. -/
theorem not_isEmission_of_plan {config : StoreConfig} {table : Table} {deal : Deal}
    {e : StoreError} (h : (Request.deal deal).plan config now table = .error e) :
    ¬ e.IsEmission := by
  simp only [Request.plan] at h
  split at h
  · cases h
  · cases h
    exact id

theorem Move.serves (move : Move now i f t after next) (h : t.Serves) : next.Serves := by
  cases move with
  | aside free | enters free | retires free => exact absurd h free.not_serves
  | approaches | refused | duplicate => exact trivial
  | claims => exact rfl
  | acts | fails | sends | breaks | sent =>
    obtain ⟨path, deal, rfl, -⟩ := h.visitor
    exact trivial
  | returns => exact trivial
  | leaves other =>
    obtain ⟨path, deal, rfl, -⟩ := h.visitor
    exact absurd trivial other
  | turns | closes => exact absurd h id
  | concludes => exact trivial

theorem Move.series (move : Move now i f t after next) (h : t.Serves)
    (series : Series notes (t.phase i)) :
    Series (notes ++ (Note.of? now i t next).toList) (next.phase i) := by
  have unnoted : Note.of? now i t next = none → t.phase i = next.phase i →
      Series (notes ++ (Note.of? now i t next).toList) (next.phase i) := by
    intro silent same
    rw [silent, Option.toList_none, List.append_nil, ← same]
    exact series
  cases move with
  | aside free | enters free | retires free => exact absurd h free.not_serves
  | approaches => exact unnoted rfl rfl
  | refused _ _ _ other =>
    exact unnoted (Note.of?_refused other) rfl
  | duplicate _ _ examined _ =>
    rw [Note.of?_duplicate examined, Option.toList_some]
    exact series.snoc .duplicate
  | claims => exact series.snoc .claimed
  | acts =>
    obtain ⟨path, deal, rfl, -⟩ := h.visitor
    exact series.snoc .folded
  | fails _ planned =>
    obtain ⟨path, deal, rfl, same⟩ := h.visitor
    obtain rfl := same _ rfl
    exact unnoted rfl (Phase.returned_other i deal (not_isEmission_of_plan planned)).symm
  | sends =>
    obtain ⟨path, deal, rfl, -⟩ := h.visitor
    exact unnoted rfl rfl
  | breaks emission =>
    obtain ⟨path, deal, rfl, -⟩ := h.visitor
    exact unnoted rfl (Phase.returned_emission i deal emission).symm
  | @sent _ _ reply =>
    obtain ⟨path, deal, rfl, -⟩ := h.visitor
    exact unnoted rfl (Phase.returned_ok i deal reply).symm
  | returns => exact unnoted rfl rfl
  | leaves other =>
    obtain ⟨path, deal, rfl, -⟩ := h.visitor
    exact absurd trivial other
  | turns | closes => exact absurd h id
  | @concludes path deal result =>
    refine series.snoc ?_
    cases result with
    | ok reply =>
      rw [Task.phase, Phase.returned_ok]
      refine .ended (.inl ?_)
      cases reply <;> exact ⟨_, rfl⟩
    | error e =>
      rw [Task.phase]
      by_cases emission : e.IsEmission
      · rw [Phase.returned_emission i deal emission]
        exact .ended (.inr emission)
      · rw [Phase.returned_other i deal emission]
        refine .failed ?_
        rintro (⟨value, same⟩ | lost)
        · cases same
        · exact emission lost

theorem Move.candles (move : Move now i f t after next) (h : t.Serves) :
    after.config = f.config ∧
      after.table = f.table.after f.config (foldsOf (Note.of? now i t next).toList) := by
  have unnoted : ((Note.of? now i t next).bind Note.fold?) = none →
      f.table = f.table.after f.config (foldsOf (Note.of? now i t next).toList) := by
    intro silent
    cases noted : Note.of? now i t next with
    | none => rfl
    | some n =>
      rw [noted, Option.bind_some] at silent
      simp [foldsOf, silent, Table.after]
  cases move with
  | aside free | enters free | retires free => exact absurd h free.not_serves
  | @acts _ _ change _ planned =>
    obtain ⟨path, deal, rfl, same⟩ := h.visitor
    obtain rfl := same _ rfl
    refine ⟨rfl, ?_⟩
    have served : (DatedRequest.serve f.config f.table ⟨now, .deal deal⟩).table =
        change.table := by
      simp only [DatedRequest.serve, Request.check, planned]
    exact served.symm
  | refused _ _ _ other =>
    exact ⟨rfl, unnoted (by rw [Note.of?_refused other]; rfl)⟩
  | duplicate _ _ examined _ =>
    exact ⟨rfl, unnoted (by rw [Note.of?_duplicate examined]; rfl)⟩
  | approaches | claims => exact ⟨rfl, unnoted rfl⟩
  | @fails visitor | @sends visitor | @breaks visitor =>
    exact ⟨rfl, unnoted (by cases visitor <;> rfl)⟩
  | @sent visitor => exact ⟨rfl, unnoted (by cases visitor <;> rfl)⟩
  | returns => exact ⟨rfl, unnoted rfl⟩
  | leaves other =>
    obtain ⟨path, deal, rfl, -⟩ := h.visitor
    exact absurd trivial other
  | turns | closes => exact absurd h id
  | concludes => exact ⟨rfl, unnoted rfl⟩

end

-- ---------------------------------------------------------------------------
-- Whole courses
-- ---------------------------------------------------------------------------

structure Serving (start p : Pipeline) (notes : List Note) : Prop where
  serves : ∀ j t, p.task j = some t → t.Serves
  series : ∃ phase, Series notes phase ∧
    (phase = .idle ∨ ∃ j t, p.task j = some t ∧ t.phase j = phase) ∧
    ∀ j t, p.task j = some t → t.phase j = .idle ∨ t.phase j = phase
  config : p.store.config = start.store.config
  table : p.store.table = start.store.table.after start.store.config (foldsOf notes)

section
variable {start p q : Pipeline} {turn : Option Nat} {notes : List Note} {i : Nat}

theorem Serving.init (fresh : Fresh oneByOne.joins start) : Serving start start [] := by
  have waiting : ∀ j t, start.task j = some t → t.Serves ∧ t.Apart := by
    intro j t here
    obtain ⟨path, delivery, rfl⟩ := fresh.tasks t (Array.mem_of_getElem? here)
    exact ⟨trivial, trivial⟩
  exact ⟨fun j t here => (waiting j t here).1,
    ⟨.idle, .nil, .inl rfl, fun j t here => .inl ((waiting j t here).2.phase j)⟩, rfl, rfl⟩

theorem Serving.step (serving : Serving start p notes) (alone : oneByOne.moves i p)
    (stepped : Pipeline.step? i p = some q) :
    Serving start q (notes ++ Note.between p q i) := by
  obtain ⟨serves, ⟨phase, series, under, only⟩, config, table⟩ := serving
  obtain ⟨t, next, here, moves⟩ := Pipeline.step?_moves stepped
  have others : ∀ j u, p.task j = some u → j ≠ i → u.phase j = .idle :=
    fun j u there ne => (alone j u there ne).phase j
  -- whatever is under way, this task does it
  have mine : t.phase i = phase := by
    rcases under with rfl | ⟨j, u, there, same⟩
    · exact (only i t here).elim id id
    · by_cases eq : j = i
      · subst eq
        rw [Pipeline.task, here] at there
        cases there
        exact same
      · rw [← same, others j u there eq]
        refine (only i t here).elim id fun own => ?_
        rw [own, ← same, others j u there eq]
  have lawful := serves i t here
  have candles := moves.move.candles lawful
  have task := moves.task here
  rw [between_eq here moves]
  refine ⟨fun j u there => ?_, ⟨next.phase i, moves.move.series lawful (mine ▸ series),
    .inr ⟨i, next, by rw [task, placed_self], rfl⟩, fun j u there => ?_⟩,
    candles.1.trans config, ?_⟩
  · rw [task] at there
    by_cases eq : j = i
    · rw [eq, placed_self] at there
      cases there
      exact moves.move.serves lawful
    · exact serves j u (placed_of_ne p.task next eq ▸ there)
  · rw [task] at there
    by_cases eq : j = i
    · subst eq
      rw [placed_self] at there
      cases there
      exact .inr rfl
    · exact .inl (others j u (placed_of_ne p.task next eq ▸ there) eq)
  · rw [foldsOf, List.filterMap_append, Table.after_append, ← foldsOf, ← table, ← config]
    exact candles.2

theorem Serving.outside (serving : Serving start p notes) (outside : Outside oneByOne.joins p q) :
    Serving start q notes := by
  obtain ⟨serves, ⟨phase, series, under, only⟩, config, table⟩ := serving
  have cases_of : ∀ j t, q.task j = some t → p.task j = some t ∨ (t.Serves ∧ t.Apart) := by
    intro j t there
    obtain ⟨more, tasks, joins⟩ := outside.tasks
    rw [Pipeline.task, tasks, Array.getElem?_append] at there
    split at there
    · exact .inl there
    · obtain ⟨path, delivery, rfl⟩ := joins t (Array.mem_of_getElem? there)
      exact .inr ⟨trivial, trivial⟩
  refine ⟨fun j t there => ?_, ⟨phase, series, ?_, fun j t there => ?_⟩,
    (congrArg Floor.config outside.floor).trans config,
    (congrArg Floor.table outside.floor).trans table⟩
  · exact (cases_of j t there).elim (serves j t) And.left
  · rcases under with idle | ⟨j, t, here, same⟩
    · exact .inl idle
    · exact .inr ⟨j, t, outside.task_eq here, same⟩
  · exact (cases_of j t there).elim (only j t) fun joined => .inl (joined.2.phase j)

theorem Course.serving (fresh : Fresh oneByOne.joins start)
    (course : Course oneByOne start p turn notes) : Serving start p notes := by
  induction course with
  | start => exact Serving.init fresh
  | step _ _ alone stepped ih => exact ih.step alone stepped
  | rest _ _ ih => exact ih
  | outside _ outside ih => exact ih.outside outside

theorem Serving.series_idle (serving : Serving start p notes) (apart : ∀ t ∈ p.tasks, t.Apart) :
    Series notes .idle := by
  obtain ⟨phase, series, rfl | ⟨j, t, here, rfl⟩, -⟩ := serving.series
  · exact series
  · exact (apart t (Array.mem_of_getElem? here)).phase j ▸ series

end

end Candlestick
