/-!
# Schedules

How tasks take turns on one thread in virtual time. A task that is woken joins the end of
the line; the first in line runs until it has to wait, or until the allowance of its turn is
used up. When all of them wait, the time moves to the earliest deadline. There may be one
main task that never stands in line: it runs whenever the line is empty, and after so many
turns of the others.
-/

namespace Candlestick

/-- Tasks over a shared state, numbered from zero. -/
structure System (σ : Type) where
  size : σ → Nat
  /-- One step of a task, `none` where it has to wait. -/
  step? : Nat → σ → Option σ
  /-- When a task wants to be woken, in milliseconds. -/
  deadline? : Nat → σ → Option Nat
  time : σ → Nat
  setTime : Nat → σ → σ
  /-- What the next step of a task takes from the allowance of its turn. A task
  that has less left does not even look whether it has to wait. -/
  cost : Nat → σ → Nat := fun _ _ => 0
  /-- The task that does not stand in line. -/
  main? : Option Nat := none

structure Run (σ : Type) where
  state : σ
  /-- The tasks in line, the next one first. -/
  ready : List Nat
  /-- The tasks that wait for a deadline, in the order in which they began
  to. -/
  asleep : List Nat := []
  /-- The tasks whose allowance was used up, the last one first. -/
  deferred : List Nat := []

namespace System

variable {σ : Type} (sys : System σ)

/-- Far more steps than any run takes. -/
def patience : Nat := 1152921504606846976

def woken (r : Run σ) (except : Option Nat) : List Nat :=
  (List.range (sys.size r.state)).filter fun i =>
    some i ≠ except && some i ≠ sys.main? && !r.ready.contains i && !r.deferred.contains i &&
      (sys.step? i r.state).isSome

def wake (r : Run σ) (except : Option Nat) : Run σ :=
  { r with ready := r.ready ++ sys.woken r except }

/-- What a task may use in one turn. -/
def allowance : Nat := 128

/-- Runs a task until it has to wait, or has too little left of its
allowance. -/
def pollFrom (i : Nat) : Nat → Nat → Run σ → Run σ
  | 0, _, r => r
  | fuel + 1, left, r =>
    if left < sys.cost i r.state then { r with deferred := i :: r.deferred }
    else
      match sys.step? i r.state with
      | some state =>
        pollFrom i fuel (left - sys.cost i r.state) (sys.wake { r with state := state } (some i))
      | none => r

def poll (i : Nat) (r : Run σ) : Run σ :=
  if (sys.step? i r.state).isSome then
    let r := sys.pollFrom i patience allowance r
    let asleep := r.asleep.filter (· ≠ i)
    { r with asleep := if (sys.deadline? i r.state).isSome then asleep ++ [i] else asleep }
  else r

/-- How many turns the tasks in line have before the main task has one. -/
def turnsInRow : Nat := 61

def takeTurns : Nat → Run σ → Run σ
  | 0, r => r
  | turns + 1, r =>
    match r.ready with
    | [] => r
    | i :: rest => takeTurns turns (sys.poll i { r with ready := rest })

def pollMain (r : Run σ) : Run σ :=
  match sys.main? with
  | some i => sys.poll i r
  | none => r

def resume (r : Run σ) : Run σ :=
  { r with
    ready := r.ready ++ r.deferred.filter fun i => some i ≠ sys.main?
    deferred := [] }

def settleFrom : Nat → Run σ → Run σ
  | 0, r => r
  | fuel + 1, r =>
    let r := sys.pollMain r
    if r.ready.isEmpty && r.deferred.isEmpty then r
    else settleFrom fuel (sys.resume (sys.takeTurns turnsInRow r))

def settle (r : Run σ) : Run σ := sys.settleFrom patience r

def apply (f : σ → σ) (r : Run σ) : Run σ := sys.wake { r with state := f r.state } none

def nextDeadline? (r : Run σ) : Option Nat :=
  (r.asleep.filterMap fun i => sys.deadline? i r.state).foldl
    (fun least deadline =>
      match least with
      | some n => if deadline < n then some deadline else least
      | none => some deadline)
    none

/-- Moves the time, never back, wakes the tasks whose deadline has come, and
lets all run. -/
def advance (time : Nat) (r : Run σ) : Run σ :=
  let time := if sys.time r.state ≤ time then time else sys.time r.state
  let due := r.asleep.filter fun i =>
    match sys.deadline? i r.state with
    | some deadline => deadline ≤ time
    | none => false
  let due := due.filter fun i => some i ≠ sys.main? && !r.ready.contains i
  sys.settle { r with state := sys.setTime time r.state, ready := r.ready ++ due }

def runUntilFrom (time : Nat) : Nat → Run σ → Run σ
  | 0, r => r
  | fuel + 1, r =>
    match sys.nextDeadline? r with
    | some deadline =>
      if deadline ≤ time then runUntilFrom time fuel (sys.advance deadline r)
      else sys.advance time r
    | none => sys.advance time r

def runUntil (time : Nat) (r : Run σ) : Run σ := sys.runUntilFrom time patience (sys.settle r)

def runWhileFrom (busy : σ → Bool) : Nat → Run σ → Run σ
  | 0, r => r
  | fuel + 1, r =>
    if busy r.state then
      match sys.nextDeadline? r with
      | some deadline => runWhileFrom busy fuel (sys.advance deadline r)
      | none => r
    else r

/-- Lets all run, moving the time as needed, while the state is busy. -/
def runWhile (busy : σ → Bool) (r : Run σ) : Run σ :=
  sys.runWhileFrom busy patience (sys.settle r)

end System

end Candlestick
