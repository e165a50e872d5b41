import Candlestick.Schedule.Reach

/-!
# Time that waits for the tasks

On one thread the time moves only while all tasks wait, and never past the first of their
deadlines. `Prompt` is what comes about so: the tasks take their steps in any order, but
none of them is late.
-/

namespace Candlestick.System

variable {σ : Type} {sys : System σ} {a b c : σ}

/-- The time may move on: all tasks wait, and none of them is to be woken before. -/
structure Elapses (sys : System σ) (a : σ) (time : Nat) : Prop where
  later : sys.time a ≤ time
  waiting : ∀ i, sys.step? i a = none
  due : ∀ i deadline, sys.deadline? i a = some deadline → time ≤ deadline

/-- One state leads to another by steps of the tasks, in any order, and by waits that make
nobody late. -/
inductive Prompt (sys : System σ) : σ → σ → Prop
  | refl (a : σ) : Prompt sys a a
  | step {a b c : σ} (i : Nat) : Prompt sys a b → sys.step? i b = some c → Prompt sys a c
  | wait {a b : σ} (time : Nat) :
      Prompt sys a b → sys.Elapses b time → Prompt sys a (sys.setTime time b)

theorem Prompt.reaches (prompt : sys.Prompt a b) : sys.Reaches a b := by
  induction prompt with
  | refl => exact .refl _
  | step i _ moved ih => exact ih.step i moved
  | wait time _ elapses ih => exact ih.wait time elapses.later

theorem Prompt.trans (first : sys.Prompt a b) (second : sys.Prompt b c) : sys.Prompt a c := by
  induction second with
  | refl => exact first
  | step i _ moved ih => exact ih.step i moved
  | wait time _ elapses ih => exact ih.wait time elapses

theorem exists_first (somebody : ∃ i deadline, sys.deadline? i a = some deadline) :
    ∃ i deadline, sys.deadline? i a = some deadline ∧
      ∀ j other, sys.deadline? j a = some other → deadline ≤ other := by
  obtain ⟨i, deadline, set⟩ := somebody
  induction deadline using Nat.strongRecOn generalizing i with
  | ind deadline ih =>
    by_cases before : ∃ j other, sys.deadline? j a = some other ∧ other < deadline
    · obtain ⟨j, other, set, less⟩ := before
      exact ih other less j set
    · refine ⟨i, deadline, set, fun j other set => Nat.le_of_not_lt fun less => before ?_⟩
      exact ⟨j, other, set, less⟩

/-- Where all wait, and those that are due could move, the time may move to the first
deadline. -/
theorem elapses_first (waiting : ∀ i, sys.step? i a = none)
    (woken : ∀ i deadline, sys.deadline? i a = some deadline → deadline ≤ sys.time a →
      (sys.step? i a).isSome = true)
    {i deadline : Nat} (set : sys.deadline? i a = some deadline)
    (first : ∀ j other, sys.deadline? j a = some other → deadline ≤ other) :
    sys.Elapses a deadline := by
  refine ⟨Nat.le_of_not_lt fun past => ?_, waiting, first⟩
  have moves := woken i deadline set (Nat.le_of_lt past)
  simp [waiting i] at moves

-- ---------------------------------------------------------------------------
-- Schedules
-- ---------------------------------------------------------------------------

section
variable {size : Nat} {effort : σ → Nat} {i fuel left time : Nat} {r : Run σ}

/-- So many tasks, each of which uses up some effort with every step, and waits for the time
only with a deadline of its own. -/
structure Tame (sys : System σ) (size : Nat) (effort : σ → Nat) : Prop where
  size_eq : ∀ a, sys.size a = size
  few : ∀ i a, size ≤ i → sys.step? i a = none ∧ sys.deadline? i a = none
  less : ∀ i a b, sys.step? i a = some b → effort b < effort a
  cheap : ∀ i a, sys.cost i a ≤ allowance
  own : ∀ i j a b, sys.step? i a = some b → j ≠ i → sys.deadline? j b = sys.deadline? j a
  woken : ∀ i a deadline, sys.deadline? i a = some deadline → deadline ≤ sys.time a →
    (sys.step? i a).isSome = true
  helped : ∀ i a time, sys.step? i a = none → (sys.step? i (sys.setTime time a)).isSome = true →
    ∃ deadline, sys.deadline? i a = some deadline ∧ deadline ≤ time
  timeless : ∀ i a time, sys.deadline? i (sys.setTime time a) = sys.deadline? i a
  idle : ∀ a time, effort (sys.setTime time a) = effort a

/-- Everybody who can move is in line, but for the main task and the one whose turn it is. -/
def Lined (sys : System σ) (turn : Option Nat) (r : Run σ) : Prop :=
  ∀ i, some i ≠ turn → some i ≠ sys.main? → (sys.step? i r.state).isSome = true →
    i ∈ r.ready ∨ i ∈ r.deferred

/-- Everybody who has a deadline is known to, but for the one whose turn it is. -/
def Noted (sys : System σ) (turn : Option Nat) (r : Run σ) : Prop :=
  ∀ i deadline, some i ≠ turn → sys.deadline? i r.state = some deadline → i ∈ r.asleep

/-- An upper bound on the turns to come while the time stands still. -/
def load (size : Nat) (effort : σ → Nat) (r : Run σ) : Nat :=
  effort r.state * (size + 3) + r.ready.length + 2 * r.deferred.length

theorem Noted.mono (h : sys.Noted none r) (turn : Option Nat) : sys.Noted turn r :=
  fun i deadline _ set => h i deadline (by simp) set

theorem lined_wake (tame : sys.Tame size effort) (i : Nat) (r : Run σ) :
    sys.Lined (some i) (sys.wake r (some i)) := by
  intro j other aside moves
  have bound : j < sys.size r.state := by
    rw [tame.size_eq]
    refine Nat.lt_of_not_le fun beyond => ?_
    have stuck := (tame.few j r.state beyond).1
    simp [wake, stuck] at moves
  by_cases there : j ∈ r.ready ∨ j ∈ r.deferred
  · exact there.imp_left (List.mem_append_left _)
  · obtain ⟨absent, gone⟩ := not_or.mp there
    refine .inl (List.mem_append_right _ (List.mem_filter.mpr ⟨List.mem_range.mpr bound, ?_⟩))
    have able : (sys.step? j r.state).isSome = true := moves
    simp [other, aside, absent, gone, able]

theorem length_woken_le (tame : sys.Tame size effort) (r : Run σ) (except : Option Nat) :
    (sys.woken r except).length ≤ size := by
  have all : (List.range (sys.size r.state)).length = size := by
    rw [List.length_range, tame.size_eq]
  exact all ▸ List.length_filter_le ..

-- The turn of one task ---------------------------------------------------------

theorem lined_pollFrom (tame : sys.Tame size effort) (h : sys.Lined (some i) r)
    (enough : effort r.state < fuel) :
    sys.Lined (some i) (sys.pollFrom i fuel left r) ∧
      (sys.step? i (sys.pollFrom i fuel left r).state = none ∨
        i ∈ (sys.pollFrom i fuel left r).deferred) := by
  induction fuel generalizing left r with
  | zero => cases enough
  | succ fuel ih =>
    unfold System.pollFrom
    split
    · refine ⟨fun j other aside moves => ?_, .inr (List.mem_cons_self ..)⟩
      exact (h j other aside moves).imp_right (List.mem_cons_of_mem _)
    · split
      · next state moved =>
        have less := tame.less i _ _ moved
        exact ih (lined_wake tame i _) (Nat.lt_of_lt_of_le less (Nat.le_of_lt_succ enough))
      · next stuck => exact ⟨h, .inl stuck⟩

/-- What each step keeps, and getting back in line, holds at the end of a turn. -/
theorem pollFrom_keeps (P : Run σ → Prop)
    (step : ∀ r state, P r → sys.step? i r.state = some state →
      P (sys.wake { r with state := state } (some i)))
    (defer : ∀ r, P r → P { r with deferred := i :: r.deferred }) (h : P r) :
    P (sys.pollFrom i fuel left r) := by
  induction fuel generalizing left r with
  | zero => exact h
  | succ fuel ih =>
    unfold System.pollFrom
    split
    · exact defer r h
    · split
      · next state moved => exact ih (step r state h moved)
      · exact h

theorem noted_pollFrom (tame : sys.Tame size effort) (h : sys.Noted (some i) r) :
    sys.Noted (some i) (sys.pollFrom i fuel left r) := by
  refine pollFrom_keeps (sys.Noted (some i)) (fun q state noted moved j deadline other set => ?_)
    (fun _ noted => noted) h
  refine noted j deadline other ?_
  rw [← tame.own i j _ _ moved fun same => other (congrArg some same)]
  exact set

theorem prompt_pollFrom (i fuel left : Nat) (r : Run σ) :
    sys.Prompt r.state (sys.pollFrom i fuel left r).state :=
  pollFrom_keeps (fun q => sys.Prompt r.state q.state) (fun _ _ prompt moved => prompt.step i moved)
    (fun _ prompt => prompt) (.refl _)

theorem asleep_pollFrom (i fuel left : Nat) (r : Run σ) :
    (sys.pollFrom i fuel left r).asleep = r.asleep :=
  pollFrom_keeps (fun q => q.asleep = r.asleep) (fun _ _ same _ => same) (fun _ same => same) rfl

theorem effort_pollFrom_le (tame : sys.Tame size effort) (i fuel left : Nat) (r : Run σ) :
    effort (sys.pollFrom i fuel left r).state ≤ effort r.state := by
  refine pollFrom_keeps (fun q => effort q.state ≤ effort r.state) (fun q state le moved => ?_)
    (fun _ le => le) (Nat.le_refl _)
  exact Nat.le_trans (Nat.le_of_lt (tame.less i _ _ moved)) le

theorem load_step (tame : sys.Tame size effort) {state : σ}
    (moved : sys.step? i r.state = some state) :
    load size effort (sys.wake { r with state := state } (some i)) + 3 ≤ load size effort r := by
  have woken := length_woken_le tame { r with state := state } (some i)
  have less : (effort state + 1) * (size + 3) ≤ effort r.state * (size + 3) :=
    Nat.mul_le_mul_right _ (tame.less i _ _ moved)
  rw [Nat.succ_mul] at less
  simp only [load, wake, List.length_append]
  omega

theorem load_pollFrom_le (tame : sys.Tame size effort) (i fuel left : Nat) (r : Run σ) :
    load size effort (sys.pollFrom i fuel left r) ≤ load size effort r + 2 := by
  induction fuel generalizing left r with
  | zero => exact Nat.le_add_right ..
  | succ fuel ih =>
    unfold System.pollFrom
    split
    · simp only [load, List.length_cons]
      omega
    · split
      · next state moved =>
        have later := ih (left - sys.cost i r.state) (sys.wake { r with state := state } (some i))
        have less := load_step tame moved
        omega
      · exact Nat.le_add_right ..

theorem pollFrom_lt (tame : sys.Tame size effort) {state : σ}
    (moved : sys.step? i r.state = some state) (enough : 0 < fuel)
    (cheap : sys.cost i r.state ≤ left) :
    effort (sys.pollFrom i fuel left r).state < effort r.state ∧
      load size effort (sys.pollFrom i fuel left r) < load size effort r := by
  cases fuel with
  | zero => cases enough
  | succ fuel =>
    unfold System.pollFrom
    rw [if_neg (Nat.not_lt.mpr cheap), moved]
    have less := load_step tame moved
    have later := load_pollFrom_le tame i fuel (left - sys.cost i r.state)
      (sys.wake { r with state := state } (some i))
    exact ⟨Nat.lt_of_le_of_lt (effort_pollFrom_le tame ..) (tame.less i _ _ moved), by
      dsimp only
      omega⟩

structure Attended (sys : System σ) (effort : σ → Nat) (start : σ) (bound : Nat)
    (turn : Option Nat) (r : Run σ) : Prop where
  prompt : sys.Prompt start r.state
  lined : sys.Lined turn r
  noted : sys.Noted none r
  few : effort r.state + r.asleep.length ≤ bound

variable {start : σ} {bound : Nat}

theorem poll_of_stuck (stuck : sys.step? i r.state = none) : sys.poll i r = r := by
  simp [poll, stuck]

theorem load_poll_le (tame : sys.Tame size effort) (i : Nat) (r : Run σ) :
    load size effort (sys.poll i r) ≤ load size effort r := by
  unfold poll
  split
  · next moves =>
    obtain ⟨state, moved⟩ := Option.isSome_iff_exists.mp moves
    exact Nat.le_of_lt (pollFrom_lt tame moved (by decide) (tame.cheap i r.state)).2
  · exact Nat.le_refl _

theorem takeTurns_of_nil (nobody : r.ready = []) (turns : Nat) : sys.takeTurns turns r = r := by
  cases turns with
  | zero => rfl
  | succ turns =>
    unfold takeTurns
    rw [nobody]

theorem load_resume_le (sys : System σ) (size : Nat) (effort : σ → Nat) (r : Run σ) :
    load size effort (sys.resume r) + r.deferred.length ≤ load size effort r := by
  have kept := List.length_filter_le (fun i => decide (some i ≠ sys.main?)) r.deferred
  simp only [load, resume, List.length_append, List.length_nil]
  omega

namespace Attended

theorem poll (h : sys.Attended effort start bound (some i) r) (tame : sys.Tame size effort)
    (enough : bound < patience) :
    sys.Attended effort start bound none (sys.poll i r) ∧
      (sys.step? i (sys.poll i r).state = none ∨ i ∈ (sys.poll i r).deferred) := by
  have few := h.few
  cases moves : sys.step? i r.state with
  | none =>
    rw [poll_of_stuck moves]
    refine ⟨⟨h.prompt, fun j _ aside able => ?_, h.noted, h.few⟩, .inl moves⟩
    refine h.lined j (fun same => ?_) aside able
    cases same
    simp [moves] at able
  | some state =>
    have less := (pollFrom_lt tame moves (by decide : 0 < patience) (tame.cheap i r.state)).1
    have busy : effort r.state < patience := by omega
    have ⟨lined, waits⟩ : sys.Lined (some i) (sys.pollFrom i patience allowance r) ∧
        (sys.step? i (sys.pollFrom i patience allowance r).state = none ∨
          i ∈ (sys.pollFrom i patience allowance r).deferred) :=
      lined_pollFrom tame h.lined busy
    have noted : sys.Noted (some i) (sys.pollFrom i patience allowance r) :=
      noted_pollFrom tame (h.noted.mono _)
    have prompt : sys.Prompt r.state (sys.pollFrom i patience allowance r).state :=
      prompt_pollFrom ..
    have asleep : (sys.pollFrom i patience allowance r).asleep = r.asleep := asleep_pollFrom ..
    rw [System.poll, moves, if_pos Option.isSome_some]
    generalize sys.pollFrom i patience allowance r = q at less lined waits noted prompt asleep
    refine ⟨⟨h.prompt.trans prompt, fun j _ aside able => ?_, fun j deadline _ set => ?_, ?_⟩,
      waits⟩
    · by_cases same : j = i
      · subst same
        exact waits.elim (fun stuck => by simp [stuck] at able) .inr
      · exact lined j (fun eq => same (Option.some.inj eq)) aside able
    · by_cases same : j = i
      · subst same
        have due : (sys.deadline? j q.state).isSome = true := Option.isSome_of_eq_some set
        simp [due]
      · have there := noted j deadline (fun eq => same (Option.some.inj eq)) set
        dsimp only
        split <;> simp [there, same]
    · have kept := List.length_filter_le (fun j => decide (j ≠ i)) q.asleep
      rw [asleep] at kept
      dsimp only
      split
      · rw [List.length_append, List.length_singleton, asleep]
        omega
      · rw [asleep]
        omega

theorem pops (h : sys.Attended effort start bound none r) {rest : List Nat}
    (front : r.ready = i :: rest) :
    sys.Attended effort start bound (some i) { r with ready := rest } := by
  refine ⟨h.prompt, fun j other aside moves => ?_, h.noted, h.few⟩
  rcases h.lined j (by simp) aside moves with ready | deferred
  · rw [front] at ready
    exact .inl ((List.mem_cons.mp ready).resolve_left fun same => other (congrArg some same))
  · exact .inr deferred

theorem takeTurns (h : sys.Attended effort start bound none r) (tame : sys.Tame size effort)
    (enough : bound < patience) (turns : Nat) :
    sys.Attended effort start bound none (sys.takeTurns turns r) ∧
      load size effort (sys.takeTurns turns r) ≤ load size effort r ∧
      (0 < turns → r.ready ≠ [] →
        load size effort (sys.takeTurns turns r) < load size effort r) := by
  induction turns generalizing r with
  | zero => exact ⟨h, Nat.le_refl _, fun some => absurd some (Nat.lt_irrefl _)⟩
  | succ turns ih =>
    unfold System.takeTurns
    split
    · next nobody => exact ⟨h, Nat.le_refl _, fun _ some => absurd nobody some⟩
    · next i rest front =>
      obtain ⟨attended, le, -⟩ := ih ((h.pops front).poll tame enough).1
      have polled := load_poll_le tame i { r with ready := rest }
      have popped : load size effort { r with ready := rest } < load size effort r := by
        simp only [load, front, List.length_cons]
        omega
      exact ⟨attended, by omega, fun _ _ => by omega⟩

theorem pollMain (h : sys.Attended effort start bound none r) (tame : sys.Tame size effort)
    (enough : bound < patience) :
    sys.Attended effort start bound none (sys.pollMain r) ∧
      load size effort (sys.pollMain r) ≤ load size effort r ∧
      ∀ i, sys.main? = some i →
        sys.step? i (sys.pollMain r).state = none ∨ i ∈ (sys.pollMain r).deferred := by
  unfold System.pollMain
  split
  · next i main =>
    have turn : sys.Attended effort start bound (some i) r :=
      ⟨h.prompt, fun j _ => h.lined j (by simp), h.noted, h.few⟩
    obtain ⟨attended, waits⟩ := turn.poll tame enough
    refine ⟨attended, load_poll_le tame i r, fun j same => ?_⟩
    cases main.symm.trans same
    exact waits
  · next nobody => exact ⟨h, Nat.le_refl _, fun i same => by simp [nobody] at same⟩

theorem resume (h : sys.Attended effort start bound none r) :
    sys.Attended effort start bound none (sys.resume r) := by
  refine ⟨h.prompt, fun j turn aside moves => .inl ?_, h.noted, h.few⟩
  rcases h.lined j turn aside moves with ready | deferred
  · exact List.mem_append_left _ ready
  · exact List.mem_append_right _ (List.mem_filter.mpr ⟨deferred, by simpa using aside⟩)

/-- With enough turns all tasks come to wait. -/
theorem settleFrom (h : sys.Attended effort start bound none r) (tame : sys.Tame size effort)
    (enough : bound < patience) {fuel : Nat} (turns : load size effort r < fuel) :
    sys.Attended effort start bound none (sys.settleFrom fuel r) ∧
      (sys.settleFrom fuel r).ready = [] ∧ (sys.settleFrom fuel r).deferred = [] ∧
      ∀ i, sys.step? i (sys.settleFrom fuel r).state = none := by
  induction fuel generalizing r with
  | zero => cases turns
  | succ fuel ih =>
    obtain ⟨attended, le, main⟩ := h.pollMain tame enough
    unfold System.settleFrom
    dsimp only
    split
    · next settled =>
      simp only [Bool.and_eq_true, List.isEmpty_iff] at settled
      obtain ⟨ready, deferred⟩ := settled
      refine ⟨attended, ready, deferred, fun i => Option.not_isSome_iff_eq_none.mp fun moves => ?_⟩
      by_cases first : sys.main? = some i
      · rcases main i first with stuck | mem
        · simp [stuck] at moves
        · simp [deferred] at mem
      · have there := attended.lined i (by simp) (fun same => first same.symm) moves
        simp [ready, deferred] at there
    · next unsettled =>
      obtain ⟨turned, less, popped⟩ := attended.takeTurns tame enough turnsInRow
      refine ih turned.resume (Nat.lt_of_lt_of_le ?_ (Nat.le_of_lt_succ turns))
      have resumed := load_resume_le sys size effort (sys.takeTurns turnsInRow (sys.pollMain r))
      by_cases nobody : (sys.pollMain r).ready = []
      · have some : 0 < (sys.pollMain r).deferred.length := by
          refine List.length_pos_iff.mpr fun none => unsettled ?_
          simp [nobody, none]
        rw [takeTurns_of_nil nobody] at resumed ⊢
        omega
      · have less := popped (by decide) nobody
        omega

end Attended

-- Waiting ------------------------------------------------------------------------

structure Resting (sys : System σ) (effort : σ → Nat) (start : σ) (bound : Nat) (r : Run σ) :
    Prop where
  attended : sys.Attended effort start bound none r
  ready : r.ready = []
  deferred : r.deferred = []
  waiting : ∀ i, sys.step? i r.state = none

theorem foldl_least {smaller : Option Nat → Nat → Option Nat} (first : ∀ n, smaller none n = some n)
    (next : ∀ least n, smaller (some least) n = if n < least then some n else some least)
    {numbers : List Nat} {start : Option Nat} {least : Nat}
    (found : numbers.foldl smaller start = some least) :
    (start = some least ∨ least ∈ numbers) ∧ (∀ n, start = some n → least ≤ n) ∧
      ∀ n ∈ numbers, least ≤ n := by
  induction numbers generalizing start with
  | nil => exact ⟨.inl found, fun n same => Nat.le_of_eq (Option.some.inj (found.symm.trans same)),
      fun n mem => by simp at mem⟩
  | cons head rest ih =>
    obtain ⟨found, bounds, rest⟩ := ih found
    cases start with
    | none =>
      rw [first] at found bounds
      refine ⟨.inr ?_, fun n same => by simp at same, List.forall_mem_cons.mpr ⟨bounds _ rfl, rest⟩⟩
      exact found.elim (fun same => Option.some.inj same ▸ List.mem_cons_self ..)
        (List.mem_cons_of_mem _)
    | some before =>
      rw [next] at found bounds
      split at found
      · next less =>
        rw [if_pos less] at bounds
        have le := bounds _ rfl
        refine ⟨.inr ?_, fun n same => ?_, List.forall_mem_cons.mpr ⟨le, rest⟩⟩
        · exact found.elim (fun same => Option.some.inj same ▸ List.mem_cons_self ..)
            (List.mem_cons_of_mem _)
        · cases same
          omega
      · next more =>
        rw [if_neg more] at bounds
        have le := bounds _ rfl
        exact ⟨found.imp_right (List.mem_cons_of_mem _), bounds,
          List.forall_mem_cons.mpr ⟨by omega, rest⟩⟩

theorem nextDeadline?_eq_some {deadline : Nat} (h : sys.nextDeadline? r = some deadline) :
    (∃ i ∈ r.asleep, sys.deadline? i r.state = some deadline) ∧
      ∀ i ∈ r.asleep, ∀ other, sys.deadline? i r.state = some other → deadline ≤ other := by
  obtain ⟨found, -, first⟩ := foldl_least (fun _ => rfl) (fun _ _ => rfl) h
  refine ⟨List.mem_filterMap.mp (found.resolve_left (by simp)), fun i mem other set => ?_⟩
  exact first other (List.mem_filterMap.mpr ⟨i, mem, set⟩)

theorem elapses_next (tame : sys.Tame size effort) (waiting : ∀ i, sys.step? i r.state = none)
    (noted : sys.Noted none r) {deadline : Nat} (next : sys.nextDeadline? r = some deadline) :
    sys.Elapses r.state deadline := by
  obtain ⟨⟨i, mem, set⟩, first⟩ := nextDeadline?_eq_some next
  exact elapses_first waiting (fun j => tame.woken j r.state) set fun j other later =>
    first j (noted j other (by simp) later) other later

theorem Attended.settle (h : sys.Attended effort start bound none r) (tame : sys.Tame size effort)
    (enough : bound < patience) (turns : load size effort r < patience) :
    sys.Resting effort start bound (sys.settle r) := by
  obtain ⟨attended, ready, deferred, waiting⟩ := h.settleFrom tame enough turns
  exact ⟨attended, ready, deferred, waiting⟩

namespace Resting

theorem advance (h : sys.Resting effort start bound r) (tame : sys.Tame size effort)
    (enough : bound * (size + 4) < patience) {deadline : Nat}
    (next : sys.nextDeadline? r = some deadline) :
    sys.Resting effort start bound (sys.advance deadline r) := by
  have noted := h.attended.noted
  have few := h.attended.few
  have elapses := elapses_next tame h.waiting noted next
  unfold System.advance
  rw [if_pos elapses.later]
  dsimp only
  generalize due : r.asleep.filter _ = woken
  have length : woken.length ≤ r.asleep.length := due ▸ List.length_filter_le ..
  refine Attended.settle ⟨h.attended.prompt.wait deadline elapses, fun j _ aside moves => .inl ?_,
    fun j other _ set => noted j other (by simp) ((tame.timeless ..).symm.trans set), ?_⟩ tame ?_ ?_
  · obtain ⟨other, set, le⟩ := tame.helped j _ _ (h.waiting j) moves
    refine List.mem_append_right _ (List.mem_filter.mpr ⟨?_, ?_⟩)
    · rw [← due]
      refine List.mem_filter.mpr ⟨noted j other (by simp) set, ?_⟩
      simp [set, le]
    · simp [aside, h.ready]
  · rw [tame.idle]
    exact few
  · exact Nat.lt_of_le_of_lt (Nat.le_mul_of_pos_right bound (Nat.succ_pos _)) enough
  · have kept := List.length_filter_le
      (fun i => decide (some i ≠ sys.main?) && !r.ready.contains i) woken
    have less : effort r.state * (size + 3) ≤ bound * (size + 3) :=
      Nat.mul_le_mul_right _ (by omega)
    rw [Nat.mul_succ] at enough
    simp only [load, tame.idle, List.length_append, h.ready, h.deferred, List.length_nil] at kept ⊢
    omega

theorem runWhileFrom (h : sys.Resting effort start bound r) (tame : sys.Tame size effort)
    (enough : bound * (size + 4) < patience) (busy : σ → Bool) (fuel : Nat) :
    sys.Prompt start (sys.runWhileFrom busy fuel r).state := by
  induction fuel generalizing r with
  | zero => exact h.attended.prompt
  | succ fuel ih =>
    unfold System.runWhileFrom
    split
    · split
      · next deadline next => exact ih (h.advance tame enough next)
      · exact h.attended.prompt
    · exact h.attended.prompt

end Resting

/-- A schedule keeps nobody waiting, where the work is not beyond all measure. -/
theorem prompt_runWhile (tame : sys.Tame size effort) (busy : σ → Bool)
    (lined : sys.Lined none r) (awake : ∀ i, sys.deadline? i r.state = none)
    (asleep : r.asleep = []) (deferred : r.deferred = []) (ready : r.ready.length ≤ size)
    (enough : (effort r.state + 1) * (size + 4) < patience) :
    sys.Prompt r.state (sys.runWhile busy r).state := by
  have attended : sys.Attended effort r.state (effort r.state) none r :=
    ⟨.refl _, lined, fun i deadline _ set => by simp [awake i] at set, by simp [asleep]⟩
  have work : effort r.state * (size + 3) ≤ effort r.state * (size + 4) :=
    Nat.mul_le_mul_left _ (Nat.le_succ _)
  have most : effort r.state ≤ effort r.state * (size + 4) :=
    Nat.le_mul_of_pos_right _ (Nat.succ_pos _)
  rw [Nat.succ_mul] at enough
  refine (attended.settle tame (by omega) ?_).runWhileFrom tame (by omega) busy patience
  simp only [load, deferred, List.length_nil]
  omega

end

end Candlestick.System
