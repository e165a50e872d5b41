import Candlestick.Window
import Std.Data.HashSet.Lemmas

/-!
# Sound windows

The order and the set of a window agree, nothing is in it twice and it never holds more than
its capacity (`Window.Sound`). So a window can be reasoned about as a list: a claim appends,
and drops the head where the list is full (`order_of_claim?`), a release filters
(`order_release`).
-/

namespace Candlestick.Window

/-- The order lists the members, each once, within the capacity. -/
structure Sound (w : Window) : Prop where
  nodup : w.order.Nodup
  agree : ∀ id, w.remembers id = true ↔ id ∈ w.order
  bounded : w.order.length ≤ w.capacity

variable {w after : Window} {id : DealId}

theorem sound_empty (capacity : Nat) : (empty capacity).Sound := by
  refine ⟨.nil, fun id => ?_, Nat.zero_le _⟩
  simp [remembers, empty]

theorem remembers_push (w : Window) (id other : DealId) :
    (w.push id).remembers other = true ↔ other = id ∨ w.remembers other = true := by
  simp only [remembers, push, Std.HashSet.contains_insert, Bool.or_eq_true, beq_iff_eq]
  exact or_congr_left eq_comm

theorem order_makeRoom (w : Window) :
    w.makeRoom.order = if w.capacity ≤ w.order.length then w.order.tail else w.order := by
  unfold makeRoom evict
  split
  · split
    · next empty => rw [empty, List.tail_nil]
    · next full => rw [full, List.tail_cons]
  · rfl

theorem capacity_makeRoom (w : Window) : w.makeRoom.capacity = w.capacity := by
  unfold makeRoom evict
  split
  · split <;> rfl
  · rfl

theorem remembers_makeRoom (h : w.Sound) (id : DealId) :
    w.makeRoom.remembers id = true ↔ id ∈ w.makeRoom.order := by
  unfold makeRoom evict
  split
  · split
    · exact h.agree id
    · next oldest rest full =>
      have nodup := h.nodup
      rw [full, List.nodup_cons] at nodup
      have agree := h.agree id
      rw [full, List.mem_cons] at agree
      simp only [remembers, Std.HashSet.contains_erase, Bool.and_eq_true, Bool.not_eq_true',
        beq_eq_false_iff_ne] at agree ⊢
      rw [agree]
      constructor
      · rintro ⟨ne, rfl | mem⟩
        · exact absurd rfl ne
        · exact mem
      · intro mem
        exact ⟨fun same => nodup.1 (same ▸ mem), .inr mem⟩
  · exact h.agree id

-- ---------------------------------------------------------------------------
-- Claims
-- ---------------------------------------------------------------------------

theorem claim?_eq_none_iff (h : w.Sound) : w.claim? id = none ↔ id ∈ w.order := by
  unfold claim?
  split
  · next zero =>
    have := h.bounded
    simp only [reduceCtorEq, false_iff]
    intro mem
    have := List.length_pos_of_mem mem
    omega
  · rw [← h.agree id]
    split <;> simp [*]

theorem exists_claim? (h : w.Sound) (id : DealId) (fresh : id ∉ w.order) :
    ∃ after, w.claim? id = some after :=
  Option.ne_none_iff_exists'.mp fun refused => fresh ((claim?_eq_none_iff h).mp refused)

theorem capacity_of_claim? (h : w.claim? id = some after) : after.capacity = w.capacity := by
  unfold claim? at h
  split at h
  · cases h
    rfl
  · split at h
    · cases h
    · cases h
      exact capacity_makeRoom w

theorem order_of_claim? (room : 0 < w.capacity) (h : w.claim? id = some after) :
    after.order = (if w.capacity ≤ w.order.length then w.order.tail else w.order) ++ [id] := by
  unfold claim? at h
  rw [if_neg (by omega)] at h
  split at h
  · cases h
  · cases h
    exact congrArg (· ++ [id]) (order_makeRoom w)

theorem Sound.claim? (sound : w.Sound) (h : w.claim? id = some after) : after.Sound := by
  have fresh : id ∉ w.order := fun mem => by
    rw [(claim?_eq_none_iff sound).mpr mem] at h
    cases h
  by_cases zero : w.capacity = 0
  · rw [claim?_zero zero] at h
    cases h
    exact sound
  · have bounded := sound.bounded
    have kept : w.makeRoom.order.Sublist w.order := by
      rw [order_makeRoom]
      split
      · exact List.tail_sublist _
      · exact List.Sublist.refl _
    have short : w.makeRoom.order.length < w.capacity := by
      rw [order_makeRoom]
      split
      · rw [List.length_tail]
        omega
      · omega
    unfold Window.claim? at h
    rw [if_neg zero] at h
    split at h
    · cases h
    · cases h
      refine ⟨?_, fun other => ?_, ?_⟩
      · refine List.nodup_append.mpr ⟨sound.nodup.sublist kept, List.pairwise_singleton _ _, ?_⟩
        rintro other ho _ hid rfl
        rw [List.mem_singleton.mp hid] at ho
        exact fresh (kept.subset ho)
      · rw [remembers_push, remembers_makeRoom sound]
        simp [push, or_comm]
      · simp only [push, List.length_append, List.length_singleton, capacity_makeRoom]
        omega

-- ---------------------------------------------------------------------------
-- Releases
-- ---------------------------------------------------------------------------

theorem capacity_release (w : Window) (id : DealId) : (w.release id).capacity = w.capacity := by
  unfold release
  split <;> rfl

theorem order_release (sound : w.Sound) (id : DealId) :
    (w.release id).order = w.order.filter (· ≠ id) := by
  unfold release
  split
  · rfl
  · next unknown =>
    refine (List.filter_eq_self.mpr fun other ho => ?_).symm
    simp only [ne_eq, decide_not, Bool.not_eq_true', decide_eq_false_iff_not]
    rintro rfl
    exact unknown ((sound.agree _).mpr ho)

/-- A claim that is given back is forgotten, and so is what it took the place of: the
oldest identifier, where the window was full. -/
theorem order_release_of_claim? (sound : w.Sound) (room : 0 < w.capacity)
    (h : w.claim? id = some after) : (after.release id).order =
      if w.capacity ≤ w.order.length then w.order.tail else w.order := by
  have fresh : id ∉ w.order := fun mem => by
    rw [(claim?_eq_none_iff sound).mpr mem] at h
    cases h
  have kept : ∀ {ids : List DealId}, id ∉ ids → (ids ++ [id]).filter (· ≠ id) = ids := by
    intro ids unknown
    have others : ids.filter (· ≠ id) = ids :=
      List.filter_eq_self.mpr fun other mem => decide_eq_true fun same => unknown (same ▸ mem)
    rw [List.filter_append, others]
    simp
  rw [order_release (sound.claim? h), order_of_claim? room h]
  split
  · exact kept fun mem => fresh (List.mem_of_mem_tail mem)
  · exact kept fresh

theorem Sound.release (sound : w.Sound) (id : DealId) : (w.release id).Sound := by
  refine ⟨?_, fun other => ?_, ?_⟩
  · rw [order_release sound]
    exact sound.nodup.filter _
  · rw [order_release sound, List.mem_filter, ← sound.agree other]
    unfold Window.release
    split
    · simp only [remembers, Std.HashSet.contains_erase, Bool.and_eq_true, Bool.not_eq_true',
        beq_eq_false_iff_ne, ne_eq, decide_not, decide_eq_false_iff_not]
      rw [and_comm]
      exact and_congr_right fun _ => not_congr eq_comm
    · next unknown =>
      refine ⟨fun known => ⟨known, ?_⟩, And.left⟩
      simp only [ne_eq, decide_not, Bool.not_eq_true', decide_eq_false_iff_not]
      rintro rfl
      exact unknown known
  · rw [order_release sound, capacity_release]
    exact Nat.le_trans (List.length_filter_le _ _) sound.bounded

end Candlestick.Window
