/-!
# Locks

A lock that serves those who wait in the order in which they came: releasing it hands it
over to the first of them, so nobody can overtake.
-/

namespace Candlestick

/-- Who holds a lock, and who waits for it, the first one first. -/
structure Lock where
  holder : Option Nat := none
  waiting : List Nat := []
  deriving DecidableEq

namespace Lock

def request (l : Lock) (who : Nat) : Lock :=
  match l.holder with
  | none => { l with holder := some who }
  | some _ => { l with waiting := l.waiting ++ [who] }

def release (l : Lock) : Lock :=
  match l.waiting with
  | [] => ⟨none, []⟩
  | next :: rest => ⟨some next, rest⟩

def heldBy (l : Lock) (who : Nat) : Bool := l.holder = some who

/-- The holder and those who wait, in the order in which they are served. -/
def line (l : Lock) : List Nat := l.holder.toList ++ l.waiting

/-- Nobody waits for a free lock. -/
def Fair (l : Lock) : Prop := l.holder = none → l.waiting = []

theorem fair_free : Fair {} := fun _ => rfl

theorem line_request {l : Lock} (h : l.Fair) (who : Nat) :
    (l.request who).line = l.line ++ [who] := by
  obtain ⟨holder, waiting⟩ := l
  cases holder with
  | none =>
    have hw : waiting = [] := h rfl
    subst hw
    rfl
  | some j => simp [request, line]

theorem fair_request {l : Lock} (who : Nat) : (l.request who).Fair := by
  obtain ⟨holder, waiting⟩ := l
  cases holder <;> intro h <;> cases h

theorem line_release {l : Lock} (h : l.Fair) : l.release.line = l.line.tail := by
  obtain ⟨holder, waiting⟩ := l
  cases holder with
  | none =>
    have hw : waiting = [] := h rfl
    subst hw
    rfl
  | some j => cases waiting <;> rfl

theorem fair_release {l : Lock} : l.release.Fair := by
  obtain ⟨holder, waiting⟩ := l
  cases waiting with
  | nil => exact fun _ => rfl
  | cons j rest => intro h; cases h

end Lock

end Candlestick
