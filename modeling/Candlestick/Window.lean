import Candlestick.Market
import Candlestick.Storage
import Std.Data.HashSet.Basic

/-!
# The window of claimed deals

A bounded first-in first-out memory of deal identifiers: claiming an identifier succeeds
once while it is remembered, the oldest one is forgotten when the window is full, and a
claim can be given back. A window of capacity zero remembers nothing. Room for all
identifiers is reserved from the start.
-/

namespace Candlestick

/-- The identifiers claimed, the oldest first, and the same as a set. -/
structure Window where
  capacity : Nat
  order : List DealId
  members : Std.HashSet DealId

namespace Window

def empty (capacity : Nat) : Window := ⟨capacity, [], {}⟩

def idWidth : Nat := 24

/-- An empty window, `none` where there is no room for so many identifiers. -/
def create? (capacity : Nat) : Option Window :=
  if canReserve idWidth capacity then some (empty capacity) else none

def size (w : Window) : Nat := w.members.size

def remembers (w : Window) (id : DealId) : Bool := w.members.contains id

def evict (w : Window) : Window :=
  match w.order with
  | [] => w
  | oldest :: rest => { w with order := rest, members := w.members.erase oldest }

def makeRoom (w : Window) : Window := if w.capacity ≤ w.order.length then w.evict else w

def push (w : Window) (id : DealId) : Window :=
  { w with order := w.order ++ [id], members := w.members.insert id }

/-- The window after an identifier was claimed, `none` where it is remembered
already. -/
def claim? (w : Window) (id : DealId) : Option Window :=
  if w.capacity = 0 then some w
  else if w.remembers id then none
  else some (w.makeRoom.push id)

def release (w : Window) (id : DealId) : Window :=
  if w.remembers id then
    { w with order := w.order.filter (· ≠ id), members := w.members.erase id }
  else w

theorem claim?_zero {w : Window} (h : w.capacity = 0) (id : DealId) : w.claim? id = some w := by
  simp [claim?, h]

theorem release_of_not_remembers {w : Window} {id : DealId} (h : w.remembers id = false) :
    w.release id = w := by
  simp [release, h]

end Window

end Candlestick
