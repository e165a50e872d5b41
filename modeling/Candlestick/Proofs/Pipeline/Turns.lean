import Candlestick.Pipeline.Run
import Candlestick.Proofs.Pipeline.Claims
import Candlestick.Schedule.Reach

/-!
# Running pipelines are on a course

The schedule that runs a pipeline is one of those that courses admit: a turn ends where the
task has to wait, or before a step for which its allowance is too small (`Course.poll`). Few
steps in a row cost nothing (`rank_lt`), so no turn runs out of fuel, and whatever holds of
all courses holds of a running pipeline (`OnCourse`).
-/

namespace Candlestick

/-- More than the number of steps that a task has ahead that cost nothing. -/
def Task.rank : Task → Nat
  | .visiting _ (.sending [] _ _) => 3
  | .visiting _ (.leaving _) => 2
  | .calling _ => 1
  | .concluding _ _ _ => 1
  | .seeding _ => 1
  | .refreshing => 1
  | _ => 0

theorem Task.rank_le (t : Task) : t.rank ≤ 3 := by
  unfold rank
  split <;> omega

namespace Pipeline

def rank (i : Nat) (p : Pipeline) : Nat := (p.tasks[i]?).elim 0 Task.rank

variable {p q : Pipeline} {i : Nat} {t next : Task}

theorem rank_of_task (h : p.tasks[i]? = some t) : rank i p = t.rank := by
  simp [rank, h]

theorem rank_le (i : Nat) (p : Pipeline) : rank i p ≤ 3 := by
  unfold rank
  cases p.tasks[i]? with
  | none => exact Nat.zero_le 3
  | some t => exact t.rank_le

theorem rank_put (p : Pipeline) (i : Nat) (t : Task) : rank i (p.put i t) ≤ t.rank := by
  by_cases inside : i < p.tasks.size
  · simp [rank, put, inside]
  · simp [rank, put, inside]

theorem rank_begin (p : Pipeline) (i : Nat) (call : Call) : rank i (p.begin i call) = 0 := by
  refine Nat.le_zero.mp ?_
  cases call with
  | store request | record record =>
    unfold begin
    dsimp only
    split
    · exact rank_put ..
    · exact rank_put ..
  | deliver path delivery => exact rank_put ..

theorem rank_leave (p : Pipeline) (i : Nat) (result : Except StoreError Reply)
    (visitor : Visitor) : rank i (p.leave i result visitor) ≤ 1 := by
  cases visitor with
  | caller => exact Nat.le_trans (rank_put ..) (Nat.zero_le 1)
  | ingester path deal => exact rank_put ..
  | seeder rest =>
    cases result with
    | ok reply => exact rank_put ..
    | error e => exact Nat.le_trans (rank_put ..) (Nat.zero_le 1)
  | refresher =>
    unfold leave
    dsimp only
    split
    · exact Nat.le_trans (rank_put ..) (Nat.zero_le 1)
    · exact rank_put ..

theorem rank_lt (stepped : step? i p = some q) (free : cost i p = 0) : rank i q < rank i p := by
  obtain ⟨t, here, step⟩ := taskStep_of_step? stepped
  rw [rank_of_task here]
  simp only [cost, here] at free
  cases step with
  | begins call =>
    rw [rank_begin]
    exact Nat.zero_lt_one
  | @visits visitor visit _ visited =>
    cases visit with
    | waiting request => cases free
    | sending events count reply =>
      cases events with
      | nil =>
        cases visited
        exact Nat.lt_of_le_of_lt (rank_put ..) (Nat.lt_succ_self 2)
      | cons event rest => cases free
    | leaving result =>
      cases visited
      exact Nat.lt_of_le_of_lt (rank_leave ..) (Nat.lt_succ_self 1)
  | gathers moved =>
    cases batcher : p.batcher with
    | stopped =>
      simp only [joined, Batching.step?, batcher] at moved
      cases moved
    | _ => simp [batcher] at free
  | settles | seeded | seeds | rests | retires =>
    exact Nat.lt_of_le_of_lt (rank_put ..) Nat.zero_lt_one
  | handles | refreshes | wakes | closes | takes | ends | publishes => cases free

theorem cost_le_one (i : Nat) (p : Pipeline) : cost i p ≤ 1 := by
  unfold cost
  split
  any_goals exact Nat.le_refl 1
  · split
    · exact Nat.zero_le 1
    · exact Nat.le_refl 1
  · exact Nat.zero_le 1

end Pipeline

-- ---------------------------------------------------------------------------
-- Turns
-- ---------------------------------------------------------------------------

section
variable {start : Pipeline} {notes : List Note} {i : Nat}

theorem Course.pollFrom {turn : Option Nat} {fuel left : Nat} {r : RunningPipeline}
    (course : Course concurrent start r.state turn notes) (mine : turn = none ∨ turn = some i)
    (enough : 4 * left + Pipeline.rank i r.state < fuel) :
    ∃ more, Course concurrent start (Pipeline.system.pollFrom i fuel left r).state none
      (notes ++ more) := by
  induction fuel generalizing turn left notes r with
  | zero => exact absurd enough (Nat.not_lt_zero _)
  | succ fuel ih =>
    have ends : (Pipeline.step? i r.state = none ∨ 0 < Pipeline.cost i r.state) →
        Course concurrent start r.state none (notes ++ []) := by
      intro waits
      rw [List.append_nil]
      rcases mine with rfl | rfl
      · exact course
      · exact course.rest waits
    unfold System.pollFrom
    split
    · next short => exact ⟨[], ends (.inr (Nat.zero_lt_of_lt short))⟩
    · next allowed =>
      split
      · next state stepped =>
        have next := course.step mine trivial stepped
        have left_cost : ¬ left < Pipeline.cost i r.state := allowed
        have cheap := Pipeline.cost_le_one i r.state
        have low := Pipeline.rank_le i state
        have less : 4 * (left - Pipeline.cost i r.state) + Pipeline.rank i state < fuel := by
          by_cases free : Pipeline.cost i r.state = 0
          · have lower := Pipeline.rank_lt stepped free
            omega
          · omega
        obtain ⟨more, whole⟩ :=
          ih (r := Pipeline.system.wake { r with state := state } (some i)) next (.inr rfl) less
        rw [List.append_assoc] at whole
        exact ⟨_, whole⟩
      · next waits => exact ⟨[], ends (.inl waits)⟩

theorem Course.poll {r : RunningPipeline} (course : Course concurrent start r.state none notes)
    (i : Nat) :
    ∃ more, Course concurrent start (Pipeline.system.poll i r).state none (notes ++ more) := by
  unfold System.poll
  split
  · have low := Pipeline.rank_le i r.state
    refine course.pollFrom (.inl rfl) ?_
    unfold System.allowance System.patience
    omega
  · exact ⟨[], (List.append_nil notes).symm ▸ course⟩

theorem Course.elsewhere {p q : Pipeline} (course : Course concurrent start p none notes)
    (floor : q.floor = p.floor) (tasks : q.tasks = p.tasks) :
    Course concurrent start q none notes :=
  course.outside ⟨floor, #[], by rw [tasks, Array.append_empty],
    fun _ mem => absurd mem (Array.not_mem_empty _)⟩

/-- What a schedule does with a pipeline goes on from the course that led to it. -/
theorem keeps_course (start : Pipeline) (notes : List Note) :
    Pipeline.system.Keeps fun p =>
      ∃ more, Course concurrent start p none (notes ++ more) where
  poll i r := by
    rintro ⟨more, course⟩
    obtain ⟨rest, whole⟩ := course.poll i
    exact ⟨more ++ rest, List.append_assoc .. ▸ whole⟩
  wait time p := by
    rintro ⟨more, course⟩ -
    exact ⟨more, Course.elsewhere course rfl rfl⟩

end

-- ---------------------------------------------------------------------------
-- Running pipelines
-- ---------------------------------------------------------------------------

/-- A running pipeline that has come from a start on a course, with the notes
taken on the way. -/
def OnCourse (start : Pipeline) (notes : List Note) (r : RunningPipeline) : Prop :=
  Course concurrent start r.state none notes

namespace OnCourse

variable {start : Pipeline} {notes : List Note} {r : RunningPipeline}

theorem launch (start : Pipeline) : OnCourse start [] (RunningPipeline.launch start) := .start

theorem settle (h : OnCourse start notes r) : ∃ more, OnCourse start (notes ++ more) r.settle :=
  (keeps_course start notes).settle ⟨[], (List.append_nil notes).symm ▸ h⟩

theorem sleep (h : OnCourse start notes r) (millis : Nat) :
    ∃ more, OnCourse start (notes ++ more) (r.sleep millis) :=
  (keeps_course start notes).runUntil _ ⟨[], (List.append_nil notes).symm ▸ h⟩

theorem waitFor (h : OnCourse start notes r) (tasks : List Nat) :
    ∃ more, OnCourse start (notes ++ more) (r.waitFor tasks) :=
  (keeps_course start notes).runWhile _ ⟨[], (List.append_nil notes).symm ▸ h⟩

theorem spawn (h : OnCourse start notes r) {task : Task} (apart : task.Apart) :
    OnCourse start notes (r.spawn task).2 := by
  refine Course.outside h ⟨rfl, #[task], rfl, fun t mem => ?_⟩
  obtain rfl : t = task := by simpa using mem
  exact apart

theorem change (h : OnCourse start notes r) {f : Pipeline → Pipeline}
    (floor : ∀ p : Pipeline, (f p).floor = p.floor) (tasks : ∀ p : Pipeline, (f p).tasks = p.tasks) :
    OnCourse start notes (r.change f) :=
  Course.elsewhere h (floor r.state) (tasks r.state)

theorem cancel (h : OnCourse start notes r) : OnCourse start notes r.cancel :=
  h.change (fun _ => rfl) fun _ => rfl

theorem dropReceiver (h : OnCourse start notes r) : OnCourse start notes r.dropReceiver :=
  h.change (fun _ => rfl) fun _ => rfl

theorem receive (h : OnCourse start notes r) :
    ∃ more, OnCourse start (notes ++ more) r.receive.2 := by
  obtain ⟨more, settled⟩ := h.settle
  refine ⟨more, ?_⟩
  unfold RunningPipeline.receive
  dsimp only
  split
  · exact settled.change (fun _ => rfl) fun _ => rfl
  · exact settled

end OnCourse

end Candlestick
