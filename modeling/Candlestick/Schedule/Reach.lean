import Candlestick.Schedule

/-!
# States within reach

A schedule picks one of the many orders in which tasks can take turns. `Reaches` admits all
of them: any task that can move may move, and time may pass at any moment. Where it matters
that a task goes on until its turn ends, `Keeps` asks for whole turns only. `Inevitable` is
what comes about in every order, whoever is favoured, as long as the time moves on while all
have to wait.
-/

namespace Candlestick.System

variable {σ : Type}

/-- One state leads to another by steps of the tasks, in any order, and by
waiting. -/
inductive Reaches (sys : System σ) : σ → σ → Prop
  | refl (a : σ) : Reaches sys a a
  | step {a b c : σ} (i : Nat) :
      Reaches sys a b → sys.step? i b = some c → Reaches sys a c
  | wait {a b : σ} (time : Nat) :
      Reaches sys a b → sys.time b ≤ time → Reaches sys a (sys.setTime time b)

variable {sys : System σ}

theorem Reaches.trans {a b c : σ} (first : sys.Reaches a b) (second : sys.Reaches b c) :
    sys.Reaches a c := by
  induction second with
  | refl => exact first
  | step i _ moved ih => exact ih.step i moved
  | wait time _ le ih => exact ih.wait time le

theorem Reaches.preserves {Keeps : σ → Prop} {a b : σ} (reach : sys.Reaches a b)
    (step : ∀ i b c, Keeps b → sys.step? i b = some c → Keeps c)
    (wait : ∀ time b, Keeps b → sys.time b ≤ time → Keeps (sys.setTime time b))
    (holds : Keeps a) : Keeps b := by
  induction reach with
  | refl => exact holds
  | step i _ moved ih => exact step i _ _ ih moved
  | wait time _ le ih => exact wait time _ ih le

def Moves (sys : System σ) (a b : σ) : Prop :=
  ∃ time i, sys.time a ≤ time ∧ sys.step? i (sys.setTime time a) = some b

/-- Comes about in every order. -/
inductive Inevitable (sys : System σ) (P : σ → Prop) : σ → Prop
  | now {a : σ} : P a → Inevitable sys P a
  | later {a : σ} : (∃ b, sys.Moves a b) → (∀ b, sys.Moves a b → Inevitable sys P b) →
      Inevitable sys P a

/-- Every move takes some effort, and somebody can move until it is so. -/
theorem inevitable_of_effort {P Keeps : σ → Prop} (effort : σ → Nat)
    (move : ∀ a b, Keeps a → sys.Moves a b → Keeps b ∧ effort b < effort a)
    (progress : ∀ a, Keeps a → P a ∨ ∃ b, sys.Moves a b) {a : σ} (holds : Keeps a) :
    sys.Inevitable P a := by
  induction left : effort a using Nat.strongRecOn generalizing a with
  | ind n ih =>
    subst left
    rcases progress a holds with so | somebody
    · exact .now so
    · refine .later somebody fun b moved => ?_
      obtain ⟨kept, less⟩ := move a b holds moved
      exact ih (effort b) less kept rfl

/-- A property that whole turns and waits keep. -/
structure Keeps (sys : System σ) (P : σ → Prop) : Prop where
  poll : ∀ i r, P r.state → P (sys.poll i r).state
  wait : ∀ time a, P a → sys.time a ≤ time → P (sys.setTime time a)

namespace Keeps

variable {P : σ → Prop}

theorem takeTurns (keeps : sys.Keeps P) (turns : Nat) {r : Run σ} (h : P r.state) :
    P (sys.takeTurns turns r).state := by
  induction turns generalizing r with
  | zero => exact h
  | succ turns ih =>
    unfold System.takeTurns
    split
    · exact h
    · next i rest _ => exact ih (keeps.poll i { r with ready := rest } h)

theorem pollMain (keeps : sys.Keeps P) {r : Run σ} (h : P r.state) :
    P (sys.pollMain r).state := by
  unfold System.pollMain
  split
  · exact keeps.poll _ r h
  · exact h

theorem settleFrom (keeps : sys.Keeps P) (fuel : Nat) {r : Run σ} (h : P r.state) :
    P (sys.settleFrom fuel r).state := by
  induction fuel generalizing r with
  | zero => exact h
  | succ fuel ih =>
    unfold System.settleFrom
    dsimp only
    split
    · exact keeps.pollMain h
    · have turned : P (sys.resume (sys.takeTurns turnsInRow (sys.pollMain r))).state :=
        keeps.takeTurns turnsInRow (keeps.pollMain h)
      exact ih turned

theorem settle (keeps : sys.Keeps P) {r : Run σ} (h : P r.state) : P (sys.settle r).state :=
  keeps.settleFrom patience h

theorem advance (keeps : sys.Keeps P) (time : Nat) {r : Run σ} (h : P r.state) :
    P (sys.advance time r).state := by
  have le : sys.time r.state ≤
      if sys.time r.state ≤ time then time else sys.time r.state := by
    split <;> omega
  unfold System.advance
  dsimp only
  generalize (r.asleep.filter _).filter _ = due
  have waited : P ({ r with state := sys.setTime _ r.state, ready := r.ready ++ due } : Run σ).state :=
    keeps.wait _ r.state h le
  exact keeps.settle waited

theorem runUntilFrom (keeps : sys.Keeps P) (time fuel : Nat) {r : Run σ} (h : P r.state) :
    P (sys.runUntilFrom time fuel r).state := by
  induction fuel generalizing r with
  | zero => exact h
  | succ fuel ih =>
    unfold System.runUntilFrom
    split
    · split
      · exact ih (keeps.advance _ h)
      · exact keeps.advance _ h
    · exact keeps.advance _ h

theorem runUntil (keeps : sys.Keeps P) (time : Nat) {r : Run σ} (h : P r.state) :
    P (sys.runUntil time r).state :=
  keeps.runUntilFrom time patience (keeps.settle h)

theorem runWhileFrom (keeps : sys.Keeps P) (busy : σ → Bool) (fuel : Nat) {r : Run σ}
    (h : P r.state) : P (sys.runWhileFrom busy fuel r).state := by
  induction fuel generalizing r with
  | zero => exact h
  | succ fuel ih =>
    unfold System.runWhileFrom
    split
    · split
      · exact ih (keeps.advance _ h)
      · exact h
    · exact h

theorem runWhile (keeps : sys.Keeps P) (busy : σ → Bool) {r : Run σ} (h : P r.state) :
    P (sys.runWhile busy r).state :=
  keeps.runWhileFrom busy patience (keeps.settle h)

end Keeps

theorem reaches_pollFrom (i fuel left : Nat) (r : Run σ) :
    sys.Reaches r.state (sys.pollFrom i fuel left r).state := by
  induction fuel generalizing left r with
  | zero => exact .refl _
  | succ fuel ih =>
    unfold pollFrom
    split
    · exact .refl _
    · split
      · next state moved =>
        exact Reaches.trans (.step i (.refl _) moved)
          (ih _ (sys.wake { r with state := state } (some i)))
      · exact .refl _

theorem reaches_poll (i : Nat) (r : Run σ) : sys.Reaches r.state (sys.poll i r).state := by
  unfold poll
  split
  · exact reaches_pollFrom i patience allowance r
  · exact .refl _

theorem keeps_reaches (a : σ) : sys.Keeps (sys.Reaches a) where
  poll i r reach := reach.trans (reaches_poll i r)
  wait time _ reach le := reach.wait time le

theorem reaches_settle (r : Run σ) : sys.Reaches r.state (sys.settle r).state :=
  (keeps_reaches r.state).settle (.refl _)

theorem reaches_runUntil (time : Nat) (r : Run σ) :
    sys.Reaches r.state (sys.runUntil time r).state :=
  (keeps_reaches r.state).runUntil time (.refl _)

theorem reaches_runWhile (busy : σ → Bool) (r : Run σ) :
    sys.Reaches r.state (sys.runWhile busy r).state :=
  (keeps_reaches r.state).runWhile busy (.refl _)

end Candlestick.System
