import Candlestick.Proofs.Decimal.Exact
import Candlestick.Proofs.Pipeline.Claims
import Candlestick.Proofs.Pipeline.Rejected
import Candlestick.Proofs.Store.Shortcut

/-!
# Claims of deals that fail

A delivery claims its identifier before the store is tried, and gives the claim back when
the arithmetic of the deal fails. The claim itself may have made room: where the window was
full, the oldest identifier was forgotten for it and does not come back
(`failed_delivery_window`).
-/

namespace Candlestick

namespace Pipeline

variable {p q r : Pipeline} {i n path : Nat} {deal : Deal} {g : Ingester} {t next : Task}
  {store store' : SharedStore} {window window' : Window} {ingesters ingesters' : Array Ingester}

theorem alone?_succ (i n : Nat) (p : Pipeline) :
    alone? i (n + 1) p = (alone? i n p).bind (step? i) := by
  induction n generalizing p with
  | zero =>
    rw [alone?, alone?, Option.bind_some]
    cases step? i p <;> rfl
  | succ n ih =>
    rw [alone?]
    cases stepped : step? i p with
    | some q => simp only [alone?, stepped, ← ih]
    | none => simp [alone?, stepped]

/-- What a number of steps of one task, with nothing between them, have come to. -/
structure Alone (p : Pipeline) (i n : Nat) (q : Pipeline) (next : Task) (store : SharedStore)
    (window : Window) (ingesters : Array Ingester) : Prop where
  steps : p.alone? i n = some q
  tasks : q.tasks = p.tasks.setIfInBounds i next
  now : q.now = p.now
  store : q.store = store
  window : q.window = window
  ingesters : q.ingesters = ingesters

theorem Alone.start (here : p.tasks[i]? = some t) :
    Alone p i 0 p t p.store p.window p.ingesters := by
  refine ⟨rfl, ?_, rfl, rfl, rfl, rfl⟩
  obtain ⟨inside, rfl⟩ := Array.getElem?_eq_some_iff.mp here
  rw [Array.setIfInBounds, dif_pos inside, Array.set_getElem_self]

theorem Alone.led (alone : Alone p i n q t store window ingesters)
    (led : Led q r i next store' window' ingesters') :
    Alone p i (n + 1) r next store' window' ingesters' where
  steps := by
    rw [alone?_succ, alone.steps]
    exact led.stepped
  tasks := by rw [led.tasks, alone.tasks, Array.setIfInBounds_setIfInBounds]
  now := led.now.trans alone.now
  store := led.store
  window := led.window
  ingesters := led.ingesters

theorem Alone.there (alone : Alone p i n q t store window ingesters) (inside : i < p.tasks.size) :
    q.tasks[i]? = some t := by
  simp [alone.tasks, inside]

/-- A delivery that nothing is in the way of: whether its identifier is free to claim is
all that is asked before the store. -/
structure Ready (p : Pipeline) (i path : Nat) (deal : Deal) (g : Ingester) : Prop where
  here : p.tasks[i]? = some (.calling (.deliver path (.deal deal)))
  found : p.ingesters[path]? = some g
  gate : g.lock = {}
  lock : p.store.lock = {}

theorem Ready.delivering (ready : p.Ready i path deal g) : ∃ q,
    Alone p i 1 q (.delivering path (.deal deal)) p.store p.window q.ingesters ∧
      q.ingesters[path]? = some ⟨g.tally, ⟨some i, []⟩⟩ := by
  obtain ⟨q, led⟩ := led_calling ready.here
  have alone := (Alone.start ready.here).led led
  refine ⟨q, ⟨alone.steps, alone.tasks, alone.now, alone.store, alone.window, rfl⟩, ?_⟩
  rw [led.ingesters, Array.getElem?_modify, if_pos rfl, ready.found]
  simp [ready.gate, Lock.request]

theorem Ready.duplicate (ready : p.Ready i path deal g)
    (known : p.window.claim? deal.id = none) :
    ∃ q, p.alone? i 2 = some q ∧ q.tasks[i]? = some (.answered (.ingested (.ok .duplicate))) ∧
      q.window = p.window ∧ q.store.table = p.store.table := by
  have inside := (Array.getElem?_eq_some_iff.mp ready.here).1
  obtain ⟨p₁, alone₁, found⟩ := ready.delivering
  obtain ⟨q, metrics, led⟩ := led_duplicate (alone₁.there inside) found (by simp [Lock.heldBy])
    (alone₁.window ▸ known)
  have alone₂ := alone₁.led led
  refine ⟨q, alone₂.steps, alone₂.there inside, alone₂.window.trans alone₁.window, ?_⟩
  rw [alone₂.store, alone₁.store]

theorem Ready.claiming (ready : p.Ready i path deal g)
    (claimed : p.window.claim? deal.id = some window) : ∃ q,
    Alone p i 2 q (.visiting (.ingester path deal) (.waiting (.deal deal)))
        { p.store with lock := ⟨some i, []⟩ } window q.ingesters ∧
      q.ingesters[path]? = some ⟨g.tally, ⟨some i, []⟩⟩ := by
  have inside := (Array.getElem?_eq_some_iff.mp ready.here).1
  obtain ⟨p₁, alone₁, found⟩ := ready.delivering
  obtain ⟨q, led⟩ := led_claiming (alone₁.there inside) found (by simp [Lock.heldBy])
    (alone₁.window ▸ claimed)
  have alone₂ := alone₁.led led
  have store : q.store = { p.store with lock := ⟨some i, []⟩ } := by
    rw [alone₂.store, alone₁.store]
    simp [SharedStore.enter, ready.lock, Lock.request]
  refine ⟨q, ⟨alone₂.steps, alone₂.tasks, alone₂.now, store, alone₂.window, rfl⟩, ?_⟩
  rw [led.ingesters, found]

/-- A delivery whose deal fails in its arithmetic leaves the candles as they are and gives
its claim back. -/
theorem Ready.failing {cause : DecimalError} (ready : p.Ready i path deal g)
    (claimed : p.window.claim? deal.id = some window)
    (failed : Store.addDeal p.store.config deal p.now p.store.table = .error cause) :
    ∃ q, p.alone? i 5 = some q ∧
      q.tasks[i]? = some (.answered (.ingested (.error (.store (.decimal cause))))) ∧
      q.window = window.release deal.id ∧ q.store.table = p.store.table := by
  have inside := (Array.getElem?_eq_some_iff.mp ready.here).1
  obtain ⟨p₂, alone₂, -⟩ := ready.claiming claimed
  have planned : (Request.deal deal).plan p₂.store.config p₂.now p₂.store.table =
      .error (.decimal cause) := by
    simp only [Request.plan, alone₂.store, alone₂.now, failed]
  obtain ⟨p₃, led₃⟩ := led_failing (alone₂.there inside) (by simp [alone₂.store, Lock.heldBy])
    planned
  have alone₃ := alone₂.led led₃
  obtain ⟨p₄, led₄⟩ := led_returning (alone₃.there inside)
  have alone₄ := alone₃.led led₄
  obtain ⟨q, metrics, led₅⟩ := led_concluding (alone₄.there inside)
  have alone₅ := alone₄.led led₅
  refine ⟨q, alone₅.steps, alone₅.there inside, ?_, ?_⟩
  · rw [alone₅.window, alone₄.window, alone₃.window, alone₂.window]
  · rw [alone₅.store, alone₄.store, alone₃.store, alone₂.store]

theorem Ready.applied {change : Change DealOutcome} (ready : p.Ready i path deal g)
    (claimed : p.window.claim? deal.id = some window)
    (added : Store.addDeal p.store.config deal p.now p.store.table = .ok change)
    (silent : change.events = []) :
    ∃ q, p.alone? i 6 = some q ∧
      q.tasks[i]? = some (.answered (.ingested (.ok (.accepted change.result)))) ∧
      (q.window = window ∧ q.now = p.now ∧ q.store.table = change.table ∧
        q.store.config = p.store.config) ∧
      ∀ j later, j ≠ i → p.tasks[j]? = some (.calling (.deliver path (.deal later))) →
        ∃ g', q.Ready j path later g' := by
  have inside := (Array.getElem?_eq_some_iff.mp ready.here).1
  obtain ⟨p₂, alone₂, found⟩ := ready.claiming claimed
  have planned : (Request.deal deal).plan p₂.store.config p₂.now p₂.store.table =
      .ok (change.replying .outcome) := by
    simp only [Request.plan, alone₂.store, alone₂.now, added]
  obtain ⟨p₃, led₃⟩ := led_folding (alone₂.there inside) (by simp [alone₂.store, Lock.heldBy])
    planned
  have alone₃ := alone₂.led led₃
  have sending : (change.replying Reply.outcome).events = [] := silent
  obtain ⟨p₄, led₄⟩ := led_sent (sending ▸ alone₃.there inside)
  have alone₄ := alone₃.led led₄
  obtain ⟨p₅, led₅⟩ := led_returning (alone₄.there inside)
  have alone₅ := alone₄.led led₅
  obtain ⟨q, metrics, led₆⟩ := led_accepting (alone₅.there inside)
  have alone₆ := alone₅.led led₆
  have ingesters : q.ingesters[path]? =
      some ⟨g.tally.add (.ok (.accepted change.result)), {}⟩ := by
    rw [alone₆.ingesters, alone₅.ingesters, alone₄.ingesters, alone₃.ingesters,
      Array.getElem?_modify, if_pos rfl, found]
    rfl
  refine ⟨q, alone₆.steps, alone₆.there inside, ⟨?_, alone₆.now, ?_, ?_⟩,
    fun j later ne there => ⟨_, ?_, ingesters, rfl, ?_⟩⟩
  · rw [alone₆.window, alone₅.window, alone₄.window, alone₃.window, alone₂.window]
  · rw [alone₆.store, alone₅.store, alone₄.store, alone₃.store]
    rfl
  · rw [alone₆.store, alone₅.store, alone₄.store, alone₃.store, alone₂.store]
    rfl
  · rw [alone₆.tasks, Array.getElem?_setIfInBounds_ne (Ne.symm ne), there]
  · rw [alone₆.store, alone₅.store, alone₄.store, alone₃.store, alone₂.store]
    rfl

end Pipeline

/-- A task whose turn it is, or may be, goes on alone. -/
theorem Course.alone {start p q : Pipeline} {turn : Option Nat} {notes : List Note} {i n : Nat}
    (course : Course concurrent start p turn notes) (mine : turn = none ∨ turn = some i)
    (steps : p.alone? i n = some q) :
    ∃ turn notes, Course concurrent start q turn notes := by
  induction n generalizing p turn notes with
  | zero =>
    cases steps
    exact ⟨turn, notes, course⟩
  | succ n ih =>
    unfold Pipeline.alone? at steps
    split at steps
    · next stepped => exact ih (course.step mine trivial stepped) (.inr rfl) steps
    · cases steps

/-- However a pipeline got there, a delivery that nothing is in the way of, and of a deal
whose arithmetic fails, leaves the candles as they are. If the window has its identifier
it is a duplicate, and the window stays as it is. Otherwise it fails, and the window has
the identifiers that it had before and in the same order, but for the oldest one where it
was full. -/
theorem failed_delivery_window {start p : Pipeline} {turn : Option Nat} {notes : List Note}
    {i path : Nat} {deal : Deal} {g : Ingester}
    {cause : DecimalError} (fresh : Fresh Task.Apart start)
    (course : Course concurrent start p turn notes) (ready : p.Ready i path deal g)
    (room : 0 < p.window.capacity)
    (failed : Store.addDeal p.store.config deal p.now p.store.table = .error cause) :
    (p.window.remembers deal.id = true → ∃ q, p.alone? i 2 = some q ∧
      q.tasks[i]? = some (.answered (.ingested (.ok .duplicate))) ∧
      q.window = p.window ∧ q.store.table = p.store.table) ∧
    (p.window.remembers deal.id = false → ∃ q, p.alone? i 5 = some q ∧
      q.tasks[i]? = some (.answered (.ingested (.error (.store (.decimal cause))))) ∧
      q.window.order = (if p.window.capacity ≤ p.window.order.length then p.window.order.tail
        else p.window.order) ∧
      (∀ id, q.window.remembers id = true ↔ id ∈ q.window.order) ∧
      q.window.capacity = p.window.capacity ∧ q.store.table = p.store.table) := by
  have sound := course.sound fresh.window.2
  constructor
  · intro known
    exact ready.duplicate ((Window.claim?_eq_none_iff sound).mpr ((sound.agree _).mp known))
  · intro unknown
    obtain ⟨window, claimed⟩ := Window.exists_claim? sound deal.id fun mem => by
      rw [(sound.agree _).mpr mem] at unknown
      cases unknown
    obtain ⟨q, steps, answered, same, table⟩ := ready.failing claimed failed
    refine ⟨q, steps, answered, ?_, ?_, ?_, table⟩
    · rw [same, Window.order_release_of_claim? sound room claimed]
    · rw [same]
      exact ((sound.claim? claimed).release deal.id).agree
    · rw [same, Window.capacity_release, Window.capacity_of_claim? claimed]

/-- A deal of nothing at the price of the minute. -/
def idleDeal : Deal := { earlyDeal with amount := .zero }

def extraDeal : Deal := { earlyDeal with id := ⟨"d2"⟩ }

/-- A minute whose volume has no room for more. -/
def crowdedTable : Table :=
  Table.afterCalls minuteStore {}
    [⟨.clamp (5 * nanosPerSecond), .request (.deal { earlyDeal with amount := ⟨.greatest⟩ })⟩]

theorem crowdedTable_deals : ∃ change cause,
    Store.addDeal minuteStore idleDeal (.clamp (5 * nanosPerSecond)) crowdedTable = .ok change ∧
      change.events = [] ∧ change.result = ⟨1, 0⟩ ∧
      Store.addDeal minuteStore extraDeal (.clamp (5 * nanosPerSecond)) change.table =
        .error cause := by
  have run : ((Store.addDeal minuteStore idleDeal (.clamp (5 * nanosPerSecond)) crowdedTable).map
      fun change => (change.events, change.result, (Store.addDeal minuteStore extraDeal
        (.clamp (5 * nanosPerSecond)) change.table).isOk)) = .ok ([], ⟨1, 0⟩, false) := by
    decide +kernel
  cases taken : Store.addDeal minuteStore idleDeal (.clamp (5 * nanosPerSecond)) crowdedTable with
  | error cause =>
    rw [taken] at run
    cases run
  | ok change =>
    simp only [taken, Except.map, Except.ok.injEq, Prod.mk.injEq] at run
    obtain ⟨silent, result, refused⟩ := run
    cases failed : Store.addDeal minuteStore extraDeal (.clamp (5 * nanosPerSecond))
        change.table with
    | ok =>
      rw [failed] at refused
      cases refused
    | error cause => exact ⟨change, cause, rfl, silent, result, failed⟩

/-- Two deliveries into the full minute: one of nothing, which is taken, and one of three
units, which is not. -/
def crowdedMinute (capacity : Nat) : Pipeline where
  store := {
    config := minuteStore
    table := crowdedTable
    events := .create 8 }
  window := .empty capacity
  ingesters := #[{}]
  clock := ⟨.clamp (5 * nanosPerSecond), false⟩
  tasks := #[.calling (.deliver 0 (.deal idleDeal)), .calling (.deliver 0 (.deal extraDeal))]

theorem crowdedMinute_fresh (capacity : Nat) : Fresh Task.Apart (crowdedMinute capacity) := by
  refine ⟨rfl, ⟨rfl, Window.sound_empty capacity⟩, ?_, ?_⟩
  · intro path g found
    have mem : g ∈ [{}] := Array.mem_toList_iff.mpr (Array.mem_of_getElem? found)
    rw [List.mem_singleton.mp mem]
  · intro t mem
    simp only [crowdedMinute, List.mem_toArray, List.mem_cons, List.not_mem_nil, or_false] at mem
    rcases mem with rfl | rfl
    · exact trivial
    · exact trivial

theorem crowdedMinute_claimed {capacity : Nat} (room : 0 < capacity) : ∃ p g cause,
    (crowdedMinute capacity).alone? 0 6 = some p ∧
      p.tasks[0]? = some (.answered (.ingested (.ok (.accepted ⟨1, 0⟩)))) ∧
      (p.window.Sound ∧ p.window.order = [⟨"d1"⟩] ∧ p.window.capacity = capacity) ∧
      p.Ready 1 0 extraDeal g ∧
      Store.addDeal p.store.config extraDeal p.now p.store.table = .error cause := by
  have first : (crowdedMinute capacity).Ready 0 0 idleDeal {} := ⟨rfl, rfl, rfl, rfl⟩
  have empty : (crowdedMinute capacity).window.Sound := Window.sound_empty capacity
  obtain ⟨window, claimed⟩ := Window.exists_claim? empty idleDeal.id
    (by simp [crowdedMinute, Window.empty])
  obtain ⟨change, cause, added, silent, result, failed⟩ := crowdedTable_deals
  obtain ⟨p, steps, answered, ⟨same, now, table, config⟩, next⟩ :=
    first.applied claimed added silent
  obtain ⟨g, ready⟩ := next 1 extraDeal (by decide) rfl
  rw [result] at answered
  refine ⟨p, g, cause, steps, answered, ⟨?_, ?_, ?_⟩, ready, ?_⟩
  · rw [same]
    exact empty.claim? claimed
  · rw [same, Window.order_of_claim? room claimed]
    simp [crowdedMinute, Window.empty, idleDeal, earlyDeal, dealOf]
  · rw [same, Window.capacity_of_claim? claimed]
    rfl
  · rw [config, now, table]
    exact failed

/-- With room for both identifiers the failed delivery leaves the first one where it is. -/
theorem crowdedMinute_keeps : ∃ p q g cause turn notes,
    Fresh Task.Apart (crowdedMinute 2) ∧ Course concurrent (crowdedMinute 2) p turn notes ∧
      p.Ready 1 0 extraDeal g ∧ 0 < p.window.capacity ∧
      Store.addDeal p.store.config extraDeal p.now p.store.table = .error cause ∧
      p.alone? 1 5 = some q ∧
      q.tasks[1]? = some (.answered (.ingested (.error (.store (.decimal cause))))) ∧
      p.window.order = [⟨"d1"⟩] ∧ q.window.order = [⟨"d1"⟩] := by
  obtain ⟨p, g, cause, steps, -, ⟨sound, order, capacity⟩, ready, failed⟩ :=
    crowdedMinute_claimed (Nat.succ_pos 1)
  have fresh := crowdedMinute_fresh 2
  obtain ⟨turn, notes, course⟩ := Course.start.alone (.inl rfl) steps
  have room : 0 < p.window.capacity := by omega
  have unknown : p.window.remembers extraDeal.id = false := by
    rw [Bool.eq_false_iff, ne_eq, sound.agree, order]
    decide
  obtain ⟨-, fails⟩ := failed_delivery_window fresh course ready room failed
  obtain ⟨q, steps', answered, order', -⟩ := fails unknown
  refine ⟨p, q, g, cause, turn, notes, fresh, course, ready, room, failed, steps', answered,
    order, ?_⟩
  rw [order', capacity, order]
  rfl

/-- With room for one the failed delivery makes the window forget the deal that was
applied. -/
theorem failed_delivery_forgets : ∃ p q cause,
    Fresh Task.Apart (crowdedMinute 1) ∧ (crowdedMinute 1).alone? 0 6 = some p ∧
      p.tasks[0]? = some (.answered (.ingested (.ok (.accepted ⟨1, 0⟩)))) ∧
      p.window.capacity = 1 ∧ p.window.order = [idleDeal.id] ∧
      Store.addDeal p.store.config extraDeal p.now p.store.table = .error cause ∧
      p.alone? 1 5 = some q ∧
      q.tasks[1]? = some (.answered (.ingested (.error (.store (.decimal cause))))) ∧
      q.window.order = [] ∧ q.window.remembers idleDeal.id = false := by
  obtain ⟨p, g, cause, steps, accepted, ⟨sound, order, capacity⟩, ready, failed⟩ :=
    crowdedMinute_claimed (Nat.succ_pos 0)
  obtain ⟨window, claimed⟩ := Window.exists_claim? sound extraDeal.id
    (by rw [order]; decide)
  obtain ⟨q, steps', answered, same, -⟩ := ready.failing claimed failed
  have none : q.window.order = [] := by
    rw [same, Window.order_release_of_claim? sound (by omega) claimed, capacity, order]
    rfl
  refine ⟨p, q, cause, crowdedMinute_fresh 1, steps, accepted, capacity, order, failed, steps',
    answered, none, ?_⟩
  have agree := ((sound.claim? claimed).release extraDeal.id).agree idleDeal.id
  rw [← same, none] at agree
  exact Bool.eq_false_iff.mpr fun known => absurd (agree.mp known) List.not_mem_nil

end Candlestick
