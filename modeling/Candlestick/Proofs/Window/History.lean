import Candlestick.Proofs.Window

/-!
# Windows over time

Claims and releases one after the other, in any order, and what they make of a window that
was empty. Its order follows the rule of a bounded queue that holds nothing twice
(`Use.queue`, `order_after`), and a claim that succeeded and was not given back is forgotten
only after as many later ones as the window has room for (`mem_after_of_few`).
-/

namespace Candlestick.Window

inductive Use where
  | claim (id : DealId)
  | release (id : DealId)
  deriving DecidableEq

def use (w : Window) : Use → Window
  | .claim id => (w.claim? id).getD w
  | .release id => w.release id

def after (w : Window) (uses : List Use) : Window := uses.foldl use w

/-- The identifiers that are claimed on the way, by the claims that succeed. -/
def claimed (w : Window) : List Use → List DealId
  | [] => []
  | .claim id :: rest =>
    match w.claim? id with
    | some next => id :: next.claimed rest
    | none => w.claimed rest
  | .release id :: rest => (w.release id).claimed rest

/-- What a use makes of a bounded queue without duplicates, the oldest first. -/
def Use.queue (capacity : Nat) (ids : List DealId) : Use → List DealId
  | claim id =>
    if capacity = 0 ∨ id ∈ ids then ids
    else (if capacity ≤ ids.length then ids.tail else ids) ++ [id]
  | release id => ids.erase id

variable {w next : Window} {id : DealId} {u : Use} {uses : List Use}

theorem use_of_claim? (claims : w.claim? id = some next) : w.use (.claim id) = next := by
  rw [use, claims, Option.getD_some]

theorem use_of_refused (refused : w.claim? id = none) : w.use (.claim id) = w := by
  rw [use, refused, Option.getD_none]

theorem capacity_use (w : Window) (u : Use) : (w.use u).capacity = w.capacity := by
  cases u with
  | claim id =>
    cases asked : w.claim? id with
    | some next => rw [use_of_claim? asked, capacity_of_claim? asked]
    | none => rw [use_of_refused asked]
  | release id => exact capacity_release w id

theorem Sound.use (sound : w.Sound) (u : Use) : (w.use u).Sound := by
  cases u with
  | claim id =>
    cases asked : w.claim? id with
    | some next => exact use_of_claim? asked ▸ sound.claim? asked
    | none => exact (use_of_refused asked).symm ▸ sound
  | release id => exact sound.release id

theorem capacity_after (w : Window) (uses : List Use) :
    (w.after uses).capacity = w.capacity := by
  induction uses generalizing w with
  | nil => rfl
  | cons u rest ih => exact (ih (w.use u)).trans (capacity_use w u)

theorem Sound.after (sound : w.Sound) (uses : List Use) : (w.after uses).Sound := by
  induction uses generalizing w with
  | nil => exact sound
  | cons u rest ih => exact ih (sound.use u)

theorem Sound.order_eq_nil (sound : w.Sound) (zero : w.capacity = 0) : w.order = [] :=
  List.eq_nil_of_length_eq_zero (Nat.le_zero.mp (zero ▸ sound.bounded))

theorem Sound.size_eq (sound : w.Sound) : w.size = w.order.length := by
  have distinct : w.members.toList.Nodup :=
    Std.HashSet.distinct_toList.imp fun differ same => by simp [same] at differ
  have same : w.members.toList.Perm w.order :=
    (List.perm_ext_iff_of_nodup distinct sound.nodup).mpr fun id => by
      rw [Std.HashSet.mem_toList]
      exact sound.agree id
  rw [size, ← Std.HashSet.length_toList]
  exact same.length_eq

theorem length_claimed_le (w : Window) (uses : List Use) :
    (w.claimed uses).length ≤ uses.length := by
  induction uses generalizing w with
  | nil => exact Nat.le_refl _
  | cons u rest ih =>
    cases u with
    | claim id =>
      unfold claimed
      split
      · exact Nat.succ_le_succ (ih _)
      · exact Nat.le_succ_of_le (ih w)
    | release id => exact Nat.le_succ_of_le (ih _)

-- ---------------------------------------------------------------------------
-- The rule of a queue
-- ---------------------------------------------------------------------------

theorem order_release_eq_erase (sound : w.Sound) (id : DealId) :
    (w.release id).order = w.order.erase id := by
  rw [order_release sound, sound.nodup.erase_eq_filter]
  exact List.filter_congr fun other _ => by rw [Bool.eq_iff_iff, decide_eq_true_eq, bne_iff_ne]

theorem order_use (sound : w.Sound) (u : Use) : (w.use u).order = u.queue w.capacity w.order := by
  cases u with
  | claim id =>
    dsimp only [Use.queue]
    by_cases zero : w.capacity = 0
    · rw [use_of_claim? (claim?_zero zero id), if_pos (Or.inl zero)]
    · by_cases known : id ∈ w.order
      · rw [use_of_refused ((claim?_eq_none_iff sound).mpr known), if_pos (Or.inr known)]
      · obtain ⟨next, claims⟩ := exists_claim? sound id known
        rw [use_of_claim? claims, order_of_claim? (Nat.pos_of_ne_zero zero) claims,
          if_neg (not_or.mpr ⟨zero, known⟩)]
  | release id => exact order_release_eq_erase sound id

theorem order_after (sound : w.Sound) (uses : List Use) :
    (w.after uses).order = uses.foldl (Use.queue w.capacity) w.order := by
  induction uses generalizing w with
  | nil => rfl
  | cons u rest ih =>
    have later := ih (sound.use u)
    rw [capacity_use, order_use sound] at later
    exact later

-- ---------------------------------------------------------------------------
-- How long a claim is remembered
-- ---------------------------------------------------------------------------

/-- Whoever is forgotten for a claim came before all that have less than a whole window
behind them. -/
theorem order_claim?_behind {new : DealId} {older newer : List DealId}
    (order : w.order = older ++ id :: newer) (few : newer.length + 1 < w.capacity)
    (claims : w.claim? new = some next) :
    ∃ older, next.order = older ++ id :: (newer ++ [new]) := by
  have grown := order_of_claim? (by omega) claims
  by_cases full : w.capacity ≤ w.order.length
  · cases older with
    | nil =>
      rw [order, List.nil_append, List.length_cons] at full
      omega
    | cons first older =>
      rw [if_pos full, order, List.cons_append, List.tail_cons, List.append_assoc,
        List.cons_append] at grown
      exact ⟨older, grown⟩
  · rw [if_neg full, order, List.append_assoc, List.cons_append] at grown
    exact ⟨older, grown⟩

theorem order_release_behind {gone : DealId} {older newer : List DealId} (sound : w.Sound)
    (order : w.order = older ++ id :: newer) (differs : id ≠ gone) :
    ∃ older rest, (w.release gone).order = older ++ id :: rest ∧ rest.length ≤ newer.length := by
  refine ⟨older.filter (· ≠ gone), newer.filter (· ≠ gone), ?_, List.length_filter_le ..⟩
  rw [order_release sound, order, List.filter_append,
    List.filter_cons_of_pos (by simpa using differs)]

/-- An identifier is forgotten only after it was given back, or after claims enough to
fill the window behind it. -/
theorem mem_after_of_few (sound : w.Sound) {older newer : List DealId}
    (order : w.order = older ++ id :: newer) (kept : .release id ∉ uses)
    (few : newer.length + (w.claimed uses).length < w.capacity) : id ∈ (w.after uses).order := by
  -- on the uses; what came after the identifier grows by one with each claim that succeeds
  induction uses generalizing w older newer with
  | nil => simp [after, order]
  | cons u rest ih =>
    obtain ⟨other, rest_kept⟩ := not_or.mp (mt List.mem_cons.mpr kept)
    rw [after, List.foldl_cons]
    cases u with
    | claim new =>
      cases asked : w.claim? new with
      | none =>
        rw [claimed, asked] at few
        rw [use_of_refused asked]
        exact ih sound order rest_kept few
      | some next =>
        rw [claimed, asked, List.length_cons] at few
        obtain ⟨older, grown⟩ := order_claim?_behind order (by omega) asked
        rw [use_of_claim? asked]
        refine ih (sound.claim? asked) grown rest_kept ?_
        rw [capacity_of_claim? asked, List.length_append, List.length_singleton]
        omega
    | release gone =>
      have differs : id ≠ gone := fun same => other (same ▸ rfl)
      obtain ⟨older, newer, left, fewer⟩ := order_release_behind sound order differs
      rw [claimed, ← capacity_release w gone] at few
      have within : newer.length + ((w.release gone).claimed rest).length <
          (w.release gone).capacity := by omega
      exact ih (sound.release gone) left rest_kept within

/-- Whatever claims and releases a window has seen since it was empty: it follows the rule
of the queue, nothing is in its order twice, its set has the same identifiers, and there are
no more of them than its capacity. A claim is refused where the identifier is remembered,
and then changes nothing; one that succeeds appends the identifier, and forgets the oldest
one where the window is full. A release takes its identifier out and leaves the others in
their order. So an identifier that was claimed and not given back is remembered until as
many other claims have succeeded as there is room for. Without any room, nothing is ever
remembered and every claim succeeds. -/
theorem window_queue (capacity : Nat) (uses : List Use) {w : Window}
    (here : w = (empty capacity).after uses) :
    (w.order = uses.foldl (Use.queue capacity) [] ∧ w.order.Nodup ∧
      (∀ id, w.remembers id = true ↔ id ∈ w.order) ∧ w.size = w.order.length ∧
      w.size ≤ capacity) ∧
    (capacity = 0 → w.size = 0 ∧ ∀ id, w.claim? id = some w) ∧
    (0 < capacity → ∀ id,
      (w.remembers id = true ↔ w.claim? id = none ∧ w.use (.claim id) = w) ∧
      ∀ next, w.claim? id = some next →
        next.order = (if w.order.length = capacity then w.order.tail else w.order) ++ [id]) ∧
    (∀ id, (w.release id).order = w.order.erase id ∧
      (w.remembers id = false → w.release id = w)) ∧
    (0 < capacity → ∀ id next later, w.claim? id = some next → .release id ∉ later →
      (next.claimed later).length < capacity → (next.after later).remembers id = true) := by
  subst here
  have sound := (sound_empty capacity).after uses
  have size : ((empty capacity).after uses).capacity = capacity := capacity_after ..
  have order := order_after (sound_empty capacity) uses
  have bounded := sound.bounded
  rw [size] at bounded
  generalize (empty capacity).after uses = w at sound size order bounded
  refine ⟨⟨order, sound.nodup, sound.agree, sound.size_eq, sound.size_eq ▸ bounded⟩,
    fun zero => ⟨?_, fun id => claim?_zero (size.trans zero) id⟩, fun room id => ⟨?_, ?_⟩,
    fun id => ⟨order_release_eq_erase sound id, release_of_not_remembers⟩, ?_⟩
  · rw [sound.size_eq, sound.order_eq_nil (size.trans zero), List.length_nil]
  · rw [sound.agree, ← claim?_eq_none_iff sound]
    exact ⟨fun refused => ⟨refused, use_of_refused refused⟩, And.left⟩
  · intro next claims
    rw [order_of_claim? (size ▸ room) claims, size]
    by_cases full : w.order.length = capacity
    · rw [if_pos full, if_pos (Nat.le_of_eq full.symm)]
    · rw [if_neg full, if_neg (by omega)]
  · intro room id next later claims kept few
    have there : next.order = _ ++ id :: [] := order_of_claim? (size ▸ room) claims
    have same := (capacity_of_claim? claims).trans size
    rw [((sound.claim? claims).after later).agree]
    refine mem_after_of_few (sound.claim? claims) there kept ?_
    rw [List.length_nil, Nat.zero_add, same]
    exact few

/-- With room for two, the third claim forgets the first one and keeps the second. -/
theorem thirdClaim_forgets :
    ∃ next, ((empty 2).after [.claim ⟨"d1"⟩]).claim? ⟨"d2"⟩ = some next ∧
      (next.after [.claim ⟨"d3"⟩]).order = [⟨"d2"⟩, ⟨"d3"⟩] ∧
      (next.after [.claim ⟨"d3"⟩]).remembers ⟨"d2"⟩ = true := by
  have sound := (sound_empty 2).after [.claim ⟨"d1"⟩]
  obtain ⟨⟨first, -⟩, -, -, -, kept⟩ := window_queue 2 [.claim ⟨"d1"⟩] rfl
  obtain ⟨next, claims⟩ := exists_claim? sound ⟨"d2"⟩ (by rw [first]; decide)
  obtain ⟨⟨last, -⟩, -⟩ := window_queue 2 [.claim ⟨"d1"⟩, .claim ⟨"d2"⟩, .claim ⟨"d3"⟩] rfl
  have same : (empty 2).after [.claim ⟨"d1"⟩, .claim ⟨"d2"⟩, .claim ⟨"d3"⟩] =
      next.after [.claim ⟨"d3"⟩] := by
    rw [← use_of_claim? claims]
    rfl
  refine ⟨next, claims, ?_, kept (by decide) _ next _ claims (by simp) ?_⟩
  · rw [← same, last]
    decide
  · exact Nat.lt_of_le_of_lt (length_claimed_le ..) (by decide)

end Candlestick.Window
