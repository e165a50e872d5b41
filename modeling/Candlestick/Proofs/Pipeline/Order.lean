import Candlestick.Proofs.Pipeline.Ledger
import Candlestick.Proofs.Pipeline.Move
import Candlestick.Proofs.Window
import Mathlib.Data.List.Perm.Subperm

/-!
# Deliveries in order

A delivery gets in line for the store (`InLine`) with the same step that claims its deal, so
the open claims stand in the window in the order of the line, behind all that are settled
(`Ordered`). Every move keeps that, as long as a task whose visit is over concludes before
another one moves.
-/

namespace Candlestick

def placed (task : Nat → Option Task) (i : Nat) (next : Task) : Nat → Option Task :=
  fun j => if j = i then some next else task j

@[simp] theorem placed_self (task : Nat → Option Task) (i : Nat) (next : Task) :
    placed task i next i = some next := if_pos rfl

theorem placed_of_ne (task : Nat → Option Task) {i j : Nat} (next : Task) (h : j ≠ i) :
    placed task i next j = task j := if_neg h

/-- A task is the one that has moved, or stands where it stood. -/
theorem placed_cases {task : Nat → Option Task} {i k : Nat} {next u : Task}
    (there : placed task i next k = some u) : (k = i ∧ next = u) ∨ (k ≠ i ∧ task k = some u) := by
  by_cases same : k = i
  · subst same
    rw [placed_self, Option.some.injEq] at there
    exact .inl ⟨rfl, there⟩
  · exact .inr ⟨same, (placed_of_ne task next same).symm.trans there⟩

theorem placed_placed (task : Nat → Option Task) (i : Nat) (between next : Task) :
    placed (placed task i between) i next = placed task i next := by
  funext j
  by_cases same : j = i
  · rw [same, placed_self, placed_self]
  · simp only [placed_of_ne _ _ same]

def Task.Stands : Task → Prop
  | .visiting _ _ => True
  | .closing => True
  | _ => False

def Visit.Begun : Visit → Prop
  | .waiting _ => False
  | _ => True

theorem Task.Apart.not_stands {t : Task} (h : t.Apart) : ¬ t.Stands := by
  cases t <;> first | exact id | exact absurd h id

-- ---------------------------------------------------------------------------
-- The line for the store
-- ---------------------------------------------------------------------------

/-- The lock serves tasks that stand in its line, each once, and a visit that
has begun holds it. -/
structure InLine (lock : Lock) (task : Nat → Option Task) : Prop where
  fair : lock.Fair
  nodup : lock.line.Nodup
  standing : ∀ i ∈ lock.line, ∃ t, task i = some t ∧ t.Stands
  holding : ∀ i visitor visit, task i = some (.visiting visitor visit) → visit.Begun →
    lock.holder = some i

namespace InLine

variable {lock : Lock} {task : Nat → Option Task} {i : Nat} {t next : Task}

theorem not_mem (h : InLine lock task) (here : task i = some t) (out : ¬ t.Stands) :
    i ∉ lock.line := by
  intro mem
  obtain ⟨u, hu, stands⟩ := h.standing i mem
  rw [here] at hu
  cases hu
  exact out stands

theorem line_of_holder (holder : lock.holder = some i) : lock.line = i :: lock.waiting := by
  rw [Lock.line, holder]
  rfl

theorem stay (h : InLine lock task) (here : task i = some t) (same : t.Stands ↔ next.Stands)
    (begun : ∀ visitor visit, next = .visiting visitor visit → visit.Begun →
      lock.holder = some i) : InLine lock (placed task i next) := by
  refine ⟨h.fair, h.nodup, fun j hj => ?_, fun j visitor visit hv hb => ?_⟩
  · by_cases eq : j = i
    · subst eq
      obtain ⟨u, hu, stands⟩ := h.standing j hj
      rw [here] at hu
      cases hu
      exact ⟨next, placed_self .., same.mp stands⟩
    · rw [placed_of_ne _ _ eq]
      exact h.standing j hj
  · by_cases eq : j = i
    · subst eq
      rw [placed_self] at hv
      exact begun visitor visit (Option.some.inj hv) hb
    · rw [placed_of_ne _ _ eq] at hv
      exact h.holding j visitor visit hv hb

theorem holder_ne (h : InLine lock task) (absent : task i = none) : lock.holder ≠ some i := by
  intro holder
  obtain ⟨u, there, -⟩ := h.standing i (line_of_holder holder ▸ List.mem_cons_self ..)
  rw [absent] at there
  cases there

theorem join (h : InLine lock task) (absent : task i = none) (out : ¬ next.Stands) :
    InLine lock (placed task i next) := by
  refine ⟨h.fair, h.nodup, fun k mem => ?_, fun k visitor visit there begun => ?_⟩
  · obtain ⟨u, there, stands⟩ := h.standing k mem
    have old : k ≠ i := by
      rintro rfl
      rw [absent] at there
      cases there
    exact ⟨u, (placed_of_ne _ _ old).trans there, stands⟩
  · rcases placed_cases there with ⟨rfl, rfl⟩ | ⟨-, there⟩
    · exact absurd trivial out
    · exact h.holding k visitor visit there begun

theorem holder_request {j : Nat} (h : lock.holder = some j) :
    (lock.request i).holder = some j := by
  unfold Lock.request
  simp [h]

theorem enter (h : InLine lock task) (here : task i = some t) (out : ¬ t.Stands)
    (stands : next.Stands) (fresh : ∀ visitor visit, next = .visiting visitor visit →
      ¬ visit.Begun) : InLine (lock.request i) (placed task i next) := by
  have line := Lock.line_request h.fair i
  refine ⟨Lock.fair_request i, ?_, fun j hj => ?_, fun j visitor visit hv hb => ?_⟩
  · rw [line]
    exact List.nodup_append.mpr ⟨h.nodup, List.pairwise_singleton _ _, fun j hj k hk same =>
      h.not_mem here out (List.mem_singleton.mp hk ▸ same ▸ hj)⟩
  · by_cases eq : j = i
    · subst eq
      exact ⟨next, placed_self .., stands⟩
    · rw [line] at hj
      rw [placed_of_ne _ _ eq]
      refine h.standing j ((List.mem_append.mp hj).resolve_right fun hi => ?_)
      exact eq (List.mem_singleton.mp hi)
  · by_cases eq : j = i
    · subst eq
      rw [placed_self] at hv
      exact absurd hb (fresh visitor visit (Option.some.inj hv))
    · rw [placed_of_ne _ _ eq] at hv
      exact holder_request (h.holding j visitor visit hv hb)

theorem leave (h : InLine lock task) (holder : lock.holder = some i) (out : ¬ next.Stands) :
    InLine lock.release (placed task i next) := by
  have line : lock.release.line = lock.waiting := by
    rw [Lock.line_release h.fair, line_of_holder holder]
    rfl
  have nodup := h.nodup
  rw [line_of_holder holder, List.nodup_cons] at nodup
  refine ⟨Lock.fair_release, line ▸ nodup.2, fun j hj => ?_, fun j visitor visit hv hb => ?_⟩
  · rw [line] at hj
    have ne : j ≠ i := fun same => nodup.1 (same ▸ hj)
    rw [placed_of_ne _ _ ne]
    exact h.standing j (line_of_holder holder ▸ List.mem_cons_of_mem _ hj)
  · by_cases eq : j = i
    · subst eq
      rw [placed_self] at hv
      cases Option.some.inj hv
      exact absurd trivial out
    · rw [placed_of_ne _ _ eq] at hv
      have other := h.holding j visitor visit hv hb
      rw [holder] at other
      exact absurd (Option.some.inj other).symm eq

end InLine

-- ---------------------------------------------------------------------------
-- Deliveries under way
-- ---------------------------------------------------------------------------

/-- A delivery whose deal is claimed, by its call and its ingester. -/
structure Flight where
  call : Nat
  path : Nat
  deal : Deal

def Flight.entry (g : Flight) : Nat × DealId := (g.call, g.deal.id)

def Task.flight? : Task → Option (Nat × Deal)
  | .visiting (.ingester path deal) _ => some (path, deal)
  | _ => none

def Task.landing? : Task → Option (Nat × Deal)
  | .concluding path deal _ => some (path, deal)
  | _ => none

/-- The deliveries under way stand in line in the order of their claims, and
behind them all claims that are settled. A delivery that has left the line
concludes before another task has its turn. -/
structure Ordered (paths : Nat) (f : Floor) (task : Nat → Option Task) (turn : Option Nat)
    (settled : List DealId) (back line : List Flight) : Prop where
  inLine : InLine f.lock task
  sound : f.window.Sound
  order : f.window.order = settled ++ ((back ++ line).map Flight.entry).map Prod.snd
  queued : (line.map Flight.call).Sublist f.lock.line
  flying : ∀ g, g ∈ line ↔ (task g.call).bind Task.flight? = some (g.path, g.deal)
  landing : ∀ g, g ∈ back ↔ (task g.call).bind Task.landing? = some (g.path, g.deal)
  single : back.length ≤ 1
  turned : ∀ g ∈ back, turn = some g.call
  gated : ∀ g ∈ back ++ line, ∃ gate, f.gate g.path = some gate ∧ gate.holder = some g.call
  bounded : ∀ path gate, f.gate path = some gate → path < paths

namespace Ordered

variable {paths : Nat} {f after : Floor} {task : Nat → Option Task} {turn : Option Nat}
  {settled : List DealId} {back line : List Flight} {i : Nat} {t next : Task}

theorem back_eq_nil (h : Ordered paths f task turn settled back line) (here : task i = some t)
    (mine : turn = none ∨ turn = some i) (flies : t.landing? = none) : back = [] := by
  cases back with
  | nil => rfl
  | cons g rest =>
    have landing := (h.landing g).mp (List.mem_cons_self ..)
    have turned := h.turned g (List.mem_cons_self ..)
    rcases mine with mine | mine
    · rw [mine] at turned
      cases turned
    · rw [mine] at turned
      cases turned
      rw [here, Option.bind_some, flies] at landing
      cases landing

theorem calls_nodup (h : Ordered paths f task turn settled back line) :
    (line.map Flight.call).Nodup :=
  h.inLine.nodup.sublist h.queued

theorem bind_placed {α : Type} (view : Task → Option α) (here : task i = some t)
    (same : view t = view next) (j : Nat) :
    (placed task i next j).bind view = (task j).bind view := by
  by_cases eq : j = i
  · rw [eq, placed_self, here, Option.bind_some, Option.bind_some, same]
  · rw [placed_of_ne _ _ eq]

theorem stay (h : Ordered paths f task turn settled [] line) (here : task i = some t)
    (flight : t.flight? = next.flight?) (landing : t.landing? = next.landing?)
    (window : after.window = f.window) (inLine : InLine after.lock (placed task i next))
    (queued : (line.map Flight.call).Sublist after.lock.line)
    (gated : ∀ g ∈ line, ∃ gate, after.gate g.path = some gate ∧ gate.holder = some g.call)
    (bounded : ∀ path gate, after.gate path = some gate → path < paths) :
    Ordered paths after (placed task i next) (some i) settled [] line where
  inLine := inLine
  sound := window ▸ h.sound
  order := window ▸ h.order
  queued := queued
  flying g := by rw [bind_placed _ here flight, ← h.flying]
  landing g := by rw [bind_placed _ here landing, ← h.landing]
  single := Nat.zero_le _
  turned := fun g hg => nomatch hg
  gated := gated
  bounded := bounded

theorem queued_release (h : Ordered paths f task turn settled back line)
    (here : task i = some t) (flies : t.flight? = none) (holder : f.lock.holder = some i) :
    (line.map Flight.call).Sublist f.lock.release.line := by
  have queued := h.queued
  rw [InLine.line_of_holder holder] at queued
  rw [Lock.line_release h.inLine.fair, InLine.line_of_holder holder, List.tail_cons]
  rcases List.sublist_cons_iff.mp queued with below | ⟨tail, same, -⟩
  · exact below
  · obtain ⟨g, hg, call⟩ := List.mem_map.mp (same ▸ List.mem_cons_self .. : i ∈ line.map Flight.call)
    have flying := (h.flying g).mp hg
    rw [call, here, Option.bind_some, flies] at flying
    cases flying

-- ---------------------------------------------------------------------------
-- Ingesters
-- ---------------------------------------------------------------------------

theorem gate_atGate_of_ne (f : Floor) {path other : Nat} (change : Lock → Lock)
    (ne : path ≠ other) : (f.atGate path change).gate other = f.gate other := if_neg ne

theorem gate_atGate_self (f : Floor) (path : Nat) (change : Lock → Lock) :
    (f.atGate path change).gate path = (f.gate path).map change := if_pos rfl

theorem bounded_atGate (h : Ordered paths f task turn settled back line) (path : Nat)
    (change : Lock → Lock) :
    ∀ other gate, (f.atGate path change).gate other = some gate → other < paths := by
  intro other gate found
  by_cases same : path = other
  · subst same
    rw [gate_atGate_self] at found
    obtain ⟨old, held, -⟩ := Option.map_eq_some_iff.mp found
    exact h.bounded path old held
  · rw [gate_atGate_of_ne f change same] at found
    exact h.bounded other gate found

theorem gated_request (h : Ordered paths f task turn settled back line) (path : Nat) :
    ∀ g ∈ back ++ line, ∃ gate, (f.atGate path (Lock.request · i)).gate g.path = some gate ∧
      gate.holder = some g.call := by
  intro g hg
  obtain ⟨gate, found, holder⟩ := h.gated g hg
  by_cases same : path = g.path
  · refine ⟨gate.request i, ?_, InLine.holder_request holder⟩
    rw [same, gate_atGate_self, found, Option.map_some]
  · exact ⟨gate, (gate_atGate_of_ne f _ same).trans found, holder⟩

theorem gated_release (h : Ordered paths f task turn settled back line) {path : Nat}
    {flights : List Flight} (sub : ∀ g ∈ flights, g ∈ back ++ line)
    (others : ∀ g ∈ flights, path ≠ g.path) :
    ∀ g ∈ flights, ∃ gate, (f.atGate path Lock.release).gate g.path = some gate ∧
      gate.holder = some g.call := by
  intro g hg
  obtain ⟨gate, found, holder⟩ := h.gated g (sub g hg)
  exact ⟨gate, (gate_atGate_of_ne f _ (others g hg)).trans found, holder⟩

theorem path_ne (h : Ordered paths f task turn settled back line) {path : Nat} {gate : Lock}
    (here : task i = some t) (flies : t.flight? = none) (found : f.gate path = some gate)
    (holder : gate.holder = some i) : ∀ g ∈ line, path ≠ g.path := by
  rintro g hg rfl
  obtain ⟨other, found', holder'⟩ := h.gated g (List.mem_append_right _ hg)
  rw [found] at found'
  cases found'
  rw [holder] at holder'
  cases holder'
  have flying := (h.flying g).mp hg
  rw [here, Option.bind_some, flies] at flying
  cases flying

theorem nodup_paths (h : Ordered paths f task turn settled back line) :
    (line.map Flight.path).Nodup := by
  refine List.pairwise_map.mpr ((List.pairwise_map.mp h.calls_nodup).imp_of_mem ?_)
  intro g g' hg hg' ne same
  obtain ⟨gate, found, holder⟩ := h.gated g (List.mem_append_right _ hg)
  obtain ⟨gate', found', holder'⟩ := h.gated g' (List.mem_append_right _ hg')
  rw [same, found'] at found
  cases found
  rw [holder'] at holder
  exact ne (Option.some.inj holder).symm

/-- While a delivery claims, fewer deliveries are under way than there are
ingesters. -/
theorem length_lt_paths (h : Ordered paths f task turn settled back line) {path : Nat}
    {gate : Lock} (here : task i = some t) (flies : t.flight? = none)
    (found : f.gate path = some gate) (holder : gate.holder = some i) : line.length < paths := by
  have nodup : (path :: line.map Flight.path).Nodup := by
    refine List.nodup_cons.mpr ⟨fun mem => ?_, h.nodup_paths⟩
    obtain ⟨g, hg, same⟩ := List.mem_map.mp mem
    exact h.path_ne here flies found holder g hg same.symm
  have inside : path :: line.map Flight.path ⊆ List.range paths := by
    intro other ho
    rw [List.mem_range]
    rcases List.mem_cons.mp ho with rfl | ho
    · exact h.bounded other gate found
    · obtain ⟨g, hg, rfl⟩ := List.mem_map.mp ho
      obtain ⟨gate, found, -⟩ := h.gated g (List.mem_append_right _ hg)
      exact h.bounded g.path gate found
  have short := (nodup.subperm inside).length_le
  simp only [List.length_cons, List.length_map, List.length_range] at short
  omega

-- ---------------------------------------------------------------------------
-- Claims, returns and conclusions
-- ---------------------------------------------------------------------------

/-- A claim puts the delivery at the end of the line, and its identifier at the
end of the window. -/
theorem claim {path : Nat} {delivery : Delivery} {deal : Deal} {gate : Lock} {window : Window}
    (h : Ordered paths f task turn settled [] line)
    (here : task i = some (.delivering path delivery)) (found : f.gate path = some gate)
    (holder : gate.holder = some i) (claimed : f.window.claim? deal.id = some window)
    (room : line.length < f.window.capacity) :
    Ordered paths { f with window := window, lock := f.lock.request i }
      (placed task i (.visiting (.ingester path deal) (.waiting (.deal deal)))) (some i)
      (if f.window.capacity ≤ settled.length + line.length then settled.tail else settled) []
      (line ++ [⟨i, path, deal⟩]) where
  inLine := h.inLine.enter here id trivial fun _ _ same => by cases same; exact id
  sound := h.sound.claim? claimed
  order := by
    have order := Window.order_of_claim? (by omega) claimed
    have length := congrArg List.length h.order
    simp only [List.nil_append, List.length_append, List.length_map] at length
    rw [length] at order
    dsimp only
    rw [order, h.order]
    simp only [List.nil_append, List.map_append, List.map_singleton, ← List.append_assoc]
    split
    · next full =>
      cases settled with
      | nil =>
        rw [List.length_nil] at full
        omega
      | cons oldest rest => rfl
    · rfl
  queued := by
    rw [List.map_append, Lock.line_request h.inLine.fair]
    exact h.queued.append (List.Sublist.refl _)
  flying g := by
    have absent : ∀ g ∈ line, g.call ≠ i := by
      rintro g hg rfl
      have flying := (h.flying g).mp hg
      rw [here] at flying
      cases flying
    rw [List.mem_append, List.mem_singleton]
    by_cases mine : g.call = i
    · obtain ⟨call, gpath, gdeal⟩ := g
      cases mine
      rw [placed_self]
      constructor
      · rintro (hg | same)
        · exact absurd rfl (absent _ hg)
        · cases same
          rfl
      · intro same
        cases same
        exact .inr rfl
    · rw [placed_of_ne _ _ mine, ← h.flying]
      refine or_iff_left ?_
      rintro rfl
      exact mine rfl
  landing g := by
    have neither : Task.landing? (.delivering path delivery) =
        Task.landing? (.visiting (.ingester path deal) (.waiting (.deal deal))) := rfl
    rw [bind_placed _ here neither, ← h.landing]
  single := Nat.zero_le _
  turned := fun g hg => nomatch hg
  gated := by
    intro g hg
    rcases List.mem_append.mp hg with hg | hg
    · cases hg
    · rcases List.mem_append.mp hg with hg | hg
      · exact h.gated g (List.mem_append_right _ hg)
      · rw [List.mem_singleton.mp hg]
        exact ⟨gate, found, holder⟩
  bounded := h.bounded

/-- Whoever leaves the line on behalf of a delivery is the first of those under
way. -/
theorem line_eq_cons {path : Nat} {deal : Deal} {visit : Visit}
    (h : Ordered paths f task turn settled back line)
    (here : task i = some (.visiting (.ingester path deal) visit))
    (holder : f.lock.holder = some i) : ∃ rest, line = ⟨i, path, deal⟩ :: rest := by
  have mem : (⟨i, path, deal⟩ : Flight) ∈ line := by
    rw [h.flying, here]
    rfl
  have nodup := h.inLine.nodup
  have queued := h.queued
  rw [InLine.line_of_holder holder] at nodup queued
  cases line with
  | nil => cases mem
  | cons g rest =>
    rcases List.mem_cons.mp mem with rfl | later
    · exact ⟨rest, rfl⟩
    · -- then the holder would stand behind the first one, whose call waits
      have calls := h.calls_nodup
      rw [List.map_cons, List.nodup_cons] at calls
      rw [List.map_cons] at queued
      have call : i ∈ rest.map Flight.call := List.mem_map.mpr ⟨_, later, rfl⟩
      have waits : i ∈ f.lock.waiting := by
        rcases List.sublist_cons_iff.mp queued with below | ⟨tail, same, below⟩
        · exact below.subset (List.mem_cons_of_mem _ call)
        · exact below.subset (List.tail_eq_of_cons_eq same ▸ call)
      exact absurd waits (List.nodup_cons.mp nodup).1

theorem land {path : Nat} {deal : Deal} {result : Except StoreError Reply} {rest : List Flight}
    (h : Ordered paths f task turn settled [] (⟨i, path, deal⟩ :: rest))
    (here : task i = some (.visiting (.ingester path deal) (.leaving result)))
    (holder : f.lock.holder = some i) :
    Ordered paths { f with lock := f.lock.release }
      (placed task i (.concluding path deal result)) (some i) settled [⟨i, path, deal⟩] rest where
  inLine := h.inLine.leave holder id
  sound := h.sound
  order := h.order
  queued := by
    have queued := h.queued
    rw [InLine.line_of_holder holder, List.map_cons, List.cons_sublist_cons] at queued
    rw [Lock.line_release h.inLine.fair, InLine.line_of_holder holder]
    exact queued
  flying g := by
    have calls := h.calls_nodup
    rw [List.map_cons, List.nodup_cons] at calls
    by_cases mine : g.call = i
    · rw [mine, placed_self]
      refine ⟨fun hg => absurd (List.mem_map.mpr ⟨g, hg, mine⟩) calls.1, fun same => ?_⟩
      cases same
    · rw [placed_of_ne _ _ mine, ← h.flying, List.mem_cons]
      refine (or_iff_right ?_).symm
      rintro rfl
      exact mine rfl
  landing g := by
    rw [List.mem_singleton]
    by_cases mine : g.call = i
    · obtain ⟨call, gpath, gdeal⟩ := g
      cases mine
      rw [placed_self]
      constructor
      · intro same
        cases same
        rfl
      · intro same
        cases same
        rfl
    · rw [placed_of_ne _ _ mine, ← h.landing]
      refine ⟨?_, fun hg => nomatch hg⟩
      rintro rfl
      exact absurd rfl mine
  single := Nat.le_refl _
  turned := fun g hg => congrArg (some ·.call) (List.mem_singleton.mp hg).symm
  gated := h.gated
  bounded := h.bounded

theorem back_eq {path : Nat} {deal : Deal} {result : Except StoreError Reply}
    (h : Ordered paths f task turn settled back line)
    (here : task i = some (.concluding path deal result)) : back = [⟨i, path, deal⟩] := by
  have mem : (⟨i, path, deal⟩ : Flight) ∈ back := by
    rw [h.landing, here]
    rfl
  have single := h.single
  cases back with
  | nil => cases mem
  | cons g rest =>
    have empty : rest = [] := List.eq_nil_of_length_eq_zero (by
      rw [List.length_cons] at single
      omega)
    subst empty
    rw [List.mem_singleton.mp mem]

theorem conclude {path : Nat} {deal : Deal} {result : Except StoreError Reply}
    {answer : Answer} (h : Ordered paths f task turn settled [⟨i, path, deal⟩] line)
    (here : task i = some (.concluding path deal result)) :
    Ordered paths
      ({ f with window := f.window.afterDelivery deal.id result }.atGate path Lock.release)
      (placed task i (.answered answer)) (some i)
      (settledBy settled deal.id (Pipeline.deliveryResult result)) [] line where
  inLine := h.inLine.stay here Iff.rfl fun _ _ same => by cases same
  sound := by
    cases result with
    | ok reply => exact h.sound
    | error e => exact h.sound.release deal.id
  order := by
    have order : f.window.order =
        settled ++ deal.id :: ((line.map Flight.entry).map Prod.snd) := h.order
    cases result with
    | ok reply =>
      have kept : settledBy settled deal.id (Pipeline.deliveryResult (.ok reply)) =
          settled ++ [deal.id] := by cases reply <;> rfl
      rw [kept, List.append_assoc]
      exact order
    | error e =>
      have nodup := h.sound.nodup
      have released := Window.order_release h.sound deal.id
      rw [order] at nodup released
      rw [Ledger.filter_middle nodup] at released
      exact released
  queued := h.queued
  flying g := by
    have neither : Task.flight? (.concluding path deal result) =
        Task.flight? (.answered answer) := rfl
    rw [bind_placed _ here neither, ← h.flying]
  landing g := by
    refine iff_of_false List.not_mem_nil fun same => ?_
    by_cases mine : g.call = i
    · rw [mine, placed_self] at same
      cases same
    · rw [placed_of_ne _ _ mine, ← h.landing, List.mem_singleton] at same
      exact absurd (congrArg Flight.call same) mine
  single := Nat.zero_le _
  turned := fun g hg => nomatch hg
  gated := by
    obtain ⟨gate, found, holder⟩ := h.gated ⟨i, path, deal⟩ (List.mem_cons_self ..)
    have others := h.path_ne here rfl found holder
    exact fun g hg => h.gated_release (fun g hg => List.mem_append_right _ hg) others g hg
  bounded := h.bounded_atGate path Lock.release

end Ordered

end Candlestick
