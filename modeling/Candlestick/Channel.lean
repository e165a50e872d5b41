/-!
# Bounded channels

A queue between one sender and one receiver, either of which may go away. Items that are
queued when the receiver goes are lost; a receiver without a sender takes what is queued and
then sees the end.
-/

namespace Candlestick

structure Channel (α : Type) where
  capacity : Nat
  items : List α := []
  hasSender : Bool := true
  hasReceiver : Bool := true

inductive Sending (α : Type) where
  | sent (channel : Channel α)
  | full
  | closed

inductive Receipt (α : Type) where
  | item (item : α) (channel : Channel α)
  | ended
  | empty

namespace Channel

variable {α : Type}

def create (capacity : Nat) : Channel α := { capacity := if capacity = 0 then 1 else capacity }

def maxCapacity : Nat := 2305843009213693951

/-- A channel with room for at least one item, `none` beyond the greatest
capacity. -/
def create? (capacity : Nat) : Option (Channel α) :=
  if capacity ≤ maxCapacity then some (create capacity) else none

def send (c : Channel α) (item : α) : Sending α :=
  if c.hasSender && c.hasReceiver then
    if c.items.length < c.capacity then .sent { c with items := c.items ++ [item] } else .full
  else .closed

def receive (c : Channel α) : Receipt α :=
  match c.items with
  | item :: rest => .item item { c with items := rest }
  | [] => if c.hasSender then .empty else .ended

def dropSender (c : Channel α) : Channel α := { c with hasSender := false }

def dropReceiver (c : Channel α) : Channel α := { c with hasReceiver := false, items := [] }

/-- Sends items while there is room; the number sent, and the channel. -/
def sendMany (c : Channel α) (items : List α) : Nat × Channel α :=
  if c.hasSender && c.hasReceiver then
    let sent := items.take (c.capacity - c.items.length)
    (sent.length, { c with items := c.items ++ sent })
  else (0, c)

theorem create_capacity_pos (capacity : Nat) : 0 < (create capacity : Channel α).capacity := by
  unfold create
  dsimp only
  split <;> omega

theorem eq_of_sent {c d : Channel α} {item : α} (h : c.send item = .sent d) :
    c.hasSender = true ∧ c.hasReceiver = true ∧ d = { c with items := c.items ++ [item] } := by
  unfold send at h
  split at h
  · next joined =>
    rw [Bool.and_eq_true] at joined
    split at h
    · cases h; exact ⟨joined.1, joined.2, rfl⟩
    · cases h
  · cases h

theorem eq_of_received {c d : Channel α} {item : α} (h : c.receive = .item item d) :
    c.items = item :: d.items ∧ d = { c with items := d.items } := by
  unfold receive at h
  split at h
  · next hi => cases h; exact ⟨hi, rfl⟩
  · split at h <;> cases h

theorem receive_eq_ended {c : Channel α} :
    c.receive = .ended ↔ c.items = [] ∧ c.hasSender = false := by
  unfold receive
  split
  · next hi => simp [hi]
  · next hi => cases c.hasSender <;> simp [hi]

theorem receive_eq_empty {c : Channel α} :
    c.receive = .empty ↔ c.items = [] ∧ c.hasSender = true := by
  unfold receive
  split
  · next hi => simp [hi]
  · next hi => cases c.hasSender <;> simp [hi]

theorem send_eq_closed {c : Channel α} {item : α} :
    c.send item = .closed ↔ (c.hasSender && c.hasReceiver) = false := by
  unfold send
  split
  · next joined => split <;> simp [joined]
  · next parted => simpa using parted

theorem items_of_sent {c d : Channel α} {item : α} (h : c.send item = .sent d) :
    d.items = c.items ++ [item] := by
  unfold send at h
  split at h
  · split at h
    · cases h; rfl
    · cases h
  · cases h

theorem items_of_received {c d : Channel α} {item : α} (h : c.receive = .item item d) :
    c.items = item :: d.items := by
  unfold receive at h
  split at h
  · next hi => cases h; exact hi
  · split at h <;> cases h

end Channel

end Candlestick
