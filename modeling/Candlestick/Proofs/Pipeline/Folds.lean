import Candlestick.Proofs.Pipeline.Advance
import Candlestick.Proofs.Pipeline.Serving
import Candlestick.Proofs.Store.Transition

/-!
# Folds of deliveries

Where deliveries go one after the other, what each did to the candles can be read off its
result (`folds_of_deliveries`): a deal whose event could not be sent is in them, although
its claim was given back (`Course.lost`), and is folded again when it is tried again
(`deal_folded_twice`).
-/

namespace Candlestick

-- ---------------------------------------------------------------------------
-- Deliveries whose events nobody takes
-- ---------------------------------------------------------------------------

/-- Nothing is under way, and nobody takes the events. -/
structure Deaf (p : Pipeline) : Prop where
  closed : (p.store.events.hasSender && p.store.events.hasReceiver) = false
  lock : p.store.lock = {}
  gates : ∀ (path : Nat) (g : Ingester), p.ingesters[path]? = some g → g.lock = {}
  apart : ∀ t ∈ p.tasks, t.Apart
  window : p.window.Sound

/-- A course on which, since all tasks were apart, one has come to a place. -/
structure Underway (start p q : Pipeline) (i : Nat) (t : Task) (notes : List Note) : Prop where
  course : Course oneByOne start q (some i) notes
  tasks : q.tasks = p.tasks.setIfInBounds i t
  now : q.now = p.now

section
variable {start p q after : Pipeline} {notes : List Note} {i path : Nat} {deal : Deal}
  {t next : Task} {visitor : Visitor} {store : SharedStore} {window : Window}
  {ingesters : Array Ingester}

theorem Underway.here (u : Underway start p q i t notes) (inside : i < p.tasks.size) :
    q.tasks[i]? = some t := by
  simp [u.tasks, inside]

theorem Course.underway (course : Course oneByOne start p none notes)
    (apart : ∀ t ∈ p.tasks, t.Apart) (here : p.tasks[i]? = some t)
    (led : Led p q i next store window ingesters) :
    Underway start p q i next (notes ++ (Note.of? p.now i t next).toList) := by
  have alone : oneByOne.moves i p := fun j u there _ => apart u (Array.mem_of_getElem? there)
  exact ⟨course.led (.inl rfl) alone here led, led.tasks, led.now⟩

theorem Underway.led (u : Underway start p q i t notes) (apart : ∀ t ∈ p.tasks, t.Apart)
    (inside : i < p.tasks.size) (led : Led q after i next store window ingesters) :
    Underway start p after i next (notes ++ (Note.of? p.now i t next).toList) := by
  have alone : oneByOne.moves i q := by
    intro j other there ne
    rw [u.tasks, Array.getElem?_setIfInBounds_ne (Ne.symm ne)] at there
    exact apart other (Array.mem_of_getElem? there)
  refine ⟨u.now ▸ u.course.led (.inr rfl) alone (u.here inside) led, ?_, led.now.trans u.now⟩
  rw [led.tasks, u.tasks, Array.setIfInBounds_setIfInBounds]

/-- A delivery whose event nobody takes: the deal is folded, the call fails, and
its claim is given back. -/
theorem Course.lost {change : Change DealOutcome} (course : Course oneByOne start p none notes)
    (deaf : Deaf p) (here : p.tasks[i]? = some (.calling (.deliver path (.deal deal))))
    (there : path < p.ingesters.size) (fresh : deal.id ∉ p.window.order)
    (planned : Store.addDeal p.store.config deal p.now p.store.table = .ok change)
    (news : change.events ≠ []) :
    ∃ q, Course oneByOne start q none (notes ++ [.claimed i deal.id, .folded i p.now deal,
        .ended i deal.id (.error (.store .channelClosed))]) ∧ Deaf q ∧
      (q.store.table = change.table ∧ q.store.config = p.store.config ∧ q.now = p.now) ∧
      (deal.id ∉ q.window.order ∧ q.ingesters.size = p.ingesters.size ∧
        q.tasks = p.tasks.setIfInBounds i
          (.answered (.ingested (.error (.store .channelClosed))))) := by
  obtain ⟨window, claimed⟩ := Window.exists_claim? deaf.window deal.id fresh
  obtain ⟨event, rest, events⟩ := List.exists_cons_of_ne_nil news
  have inside := (Array.getElem?_eq_some_iff.mp here).1
  have apart := deaf.apart
  have gate := deaf.gates path _ (Array.getElem?_eq_getElem there)
  -- into the line of the ingester, and to the window
  obtain ⟨p₁, led₁⟩ := Pipeline.led_calling here
  have u₁ := course.underway apart here led₁
  have found : p₁.ingesters[path]? = some ⟨p.ingesters[path].tally, ⟨some i, []⟩⟩ := by
    rw [led₁.ingesters, Array.getElem?_modify, if_pos rfl, Array.getElem?_eq_getElem there]
    simp [gate, Lock.request]
  obtain ⟨p₂, led₂⟩ := Pipeline.led_claiming (u₁.here inside) found (by simp [Lock.heldBy])
    (led₁.window ▸ claimed)
  have u₂ := u₁.led apart inside led₂
  -- the visit
  have store₂ : p₂.store = p.store.enter i := led₂.store.trans (by rw [led₁.store])
  have held : p₂.store.lock.heldBy i = true := by
    simp [store₂, SharedStore.enter, deaf.lock, Lock.request, Lock.heldBy]
  have plan : (Request.deal deal).plan p₂.store.config p₂.now p₂.store.table =
      .ok (change.replying .outcome) := by
    simp only [Request.plan, store₂, SharedStore.enter, u₂.now, planned]
  obtain ⟨p₃, led₃⟩ := Pipeline.led_folding (u₂.here inside) held plan
  have u₃ := u₂.led apart inside led₃
  have sending : (change.replying Reply.outcome).events = event :: rest := events
  have closed : (p₃.store.events.hasSender && p₃.store.events.hasReceiver) = false := by
    rw [led₃.store, store₂]
    exact deaf.closed
  obtain ⟨p₄, led₄⟩ := Pipeline.led_breaking (sending ▸ u₃.here inside) closed
  have u₄ := u₃.led apart inside led₄
  obtain ⟨p₅, led₅⟩ := Pipeline.led_returning (u₄.here inside)
  have u₅ := u₄.led apart inside led₅
  -- the claim is given back
  obtain ⟨q, metrics, led₆⟩ := Pipeline.led_concluding (u₅.here inside)
  have u₆ := u₅.led apart inside led₆
  have finished : Pipeline.step? i q = none := by
    simp only [Pipeline.step?, u₆.here inside]
  have store : q.store = { (p.store.commit (change.replying .outcome)).1 with metrics := metrics } := by
    rw [led₆.store, led₅.store, led₄.store, led₃.store, store₂]
    simp [SharedStore.enter, SharedStore.commit, SharedStore.count, deaf.lock, Lock.request, Lock.release]
  have window' : q.window = window.release deal.id := by
    rw [led₆.window, led₅.window, led₄.window, led₃.window, led₂.window]
  have ingesters : q.ingesters =
      (p.ingesters.modify path fun g => { g with lock := g.lock.request i }).modify path
        fun g => ⟨g.tally.add (.error (.store .channelClosed)), g.lock.release⟩ := by
    rw [led₆.ingesters, led₅.ingesters, led₄.ingesters, led₃.ingesters, led₂.ingesters,
      led₁.ingesters]
  have sound := deaf.window.claim? claimed
  refine ⟨q, ?_, ⟨?_, ?_, ?_, ?_, ?_⟩, ⟨?_, ?_, u₆.now⟩, ?_, ?_, u₆.tasks⟩
  · have noted := u₆.course.rest (.inl finished)
    simpa only [Note.of?, Option.toList_some, Option.toList_none, List.append_nil,
      List.append_assoc, List.cons_append, List.nil_append] using noted
  · rw [store]
    exact deaf.closed
  · rw [store]
    exact deaf.lock
  · intro other g opened
    rw [ingesters, Array.getElem?_modify, Array.getElem?_modify] at opened
    split at opened
    · next same =>
      subst same
      obtain ⟨_, between, rfl⟩ := Option.map_eq_some_iff.mp opened
      obtain ⟨old, before, rfl⟩ := Option.map_eq_some_iff.mp between
      simp [deaf.gates path old before, Lock.request, Lock.release]
    · exact deaf.gates other g opened
  · intro t mem
    rw [u₆.tasks] at mem
    rcases Array.mem_or_eq_of_mem_setIfInBounds mem with old | rfl
    · exact apart t old
    · exact trivial
  · exact window' ▸ sound.release deal.id
  · rw [store]
    rfl
  · rw [store]
    rfl
  · rw [window', Window.order_release sound]
    simp
  · rw [ingesters, Array.size_modify, Array.size_modify]

end

-- ---------------------------------------------------------------------------
-- What deliveries do to the candles
-- ---------------------------------------------------------------------------

/-- The candles are what the folds make of them. A delivery that has ended folded
its deal once if it was accepted or failed to send an event, and not at all
otherwise. And while the window is not crowded, an identifier is folded once more
at most than deliveries of it failed to send an event: exactly as often as one
was accepted or failed so, once all are over. -/
theorem folds_of_deliveries {start p : Pipeline} {turn : Option Nat} {notes : List Note}
    (fresh : Fresh oneByOne.joins start) (room : 0 < start.window.capacity)
    (course : Course oneByOne start p turn notes) :
    p.store.table = start.store.table.after start.store.config (foldsOf notes) ∧
    (∀ i id result, .ended i id result ∈ notes →
      (¬ Applied result → notes.filter (Note.foldedBy i) = []) ∧
      (Applied result → ∃ now deal, deal.id = id ∧
        notes.filter (Note.foldedBy i) = [.folded i now deal])) ∧
    (∀ before i id stretch, notes = before ++ .claimed i id :: stretch →
      ¬ Crowded start.window.capacity id stretch →
      stretch.countP (Note.folds id) ≤ stretch.countP (Note.loses id) + 1 ∧
      ((∀ t ∈ p.tasks, t.Apart) → stretch.countP (Note.folds id) =
        stretch.countP (Note.accepts id) + stretch.countP (Note.loses id))) := by
  have serving := course.serving fresh
  obtain ⟨settled, back, line, -, ledger⟩ :=
    (course.kept fresh (.inr ⟨room, fun _ _ alone => alone⟩)).flights
  obtain ⟨phase, series, -⟩ := serving.series
  refine ⟨serving.table, ?_, ?_⟩
  · intro i id result finished
    exact series.folds_of_ended ledger finished
  · intro before i id stretch whole calm
    constructor
    · obtain ⟨all, few⟩ := series.folds_eq ledger whole calm
      omega
    · intro apart
      exact ((serving.series_idle apart).folds_eq ledger whole calm).1

def deafMinute : Pipeline where
  store := { config := ⟨⟨.utc, .fixed 0⟩, [.minute1]⟩, events := (Channel.create 4).dropReceiver }
  window := .empty 2
  ingesters := #[{}]
  clock := ⟨.clamp (5 * nanosPerSecond), false⟩
  tasks := #[.calling (.deliver 0 (.deal earlyDeal)), .calling (.deliver 0 (.deal earlyDeal))]

def lostNotes (i : Nat) (now : Instant) (deal : Deal) : List Note :=
  [.claimed i deal.id, .folded i now deal, .ended i deal.id (.error (.store .channelClosed))]

def deafNotes : List Note :=
  lostNotes 0 deafMinute.now earlyDeal ++ lostNotes 1 deafMinute.now earlyDeal

theorem deafMinute_fresh : Fresh oneByOne.joins deafMinute := by
  refine ⟨rfl, ⟨rfl, Window.sound_empty 2⟩, ?_, ?_⟩
  · intro path g found
    rw [List.mem_singleton.mp (Array.mem_toList_iff.mpr (Array.mem_of_getElem? found))]
  · intro t mem
    simp only [deafMinute, List.mem_toArray, List.mem_cons, List.not_mem_nil, or_false] at mem
    exact ⟨_, _, mem.elim id id⟩

theorem deafMinute_course : ∃ p, Course oneByOne deafMinute p none deafNotes ∧
    ∀ t ∈ p.tasks, t.Apart := by
  have fresh := deafMinute_fresh
  have apart : ∀ t ∈ deafMinute.tasks, t.Apart := fun t mem =>
    oneByOne.apart t (fresh.tasks t mem)
  have first : deafMinute.tasks[0]? = some (.calling (.deliver 0 (.deal earlyDeal))) := rfl
  have there : 0 < deafMinute.ingesters.size := by decide
  obtain ⟨change, planned, news, table⟩ : ∃ change,
      Store.addDeal deafMinute.store.config earlyDeal deafMinute.now {} = .ok change ∧
      change.events ≠ [] ∧ change.table =
        Table.after deafMinute.store.config {} [⟨deafMinute.now, .deal earlyDeal⟩] :=
    ⟨_, rfl, by decide, rfl⟩
  obtain ⟨again, planned', news'⟩ : ∃ again,
      Store.addDeal deafMinute.store.config earlyDeal deafMinute.now
        (Table.after deafMinute.store.config {} [⟨deafMinute.now, .deal earlyDeal⟩]) =
          .ok again ∧ again.events ≠ [] :=
    ⟨_, rfl, by decide⟩
  obtain ⟨p, course, deaf, ⟨table', config, now⟩, free, size, tasks⟩ :=
    Course.start.lost ⟨rfl, rfl, fresh.gates, apart, fresh.window.2⟩ first there
      List.not_mem_nil planned news
  have second : p.tasks[1]? = some (.calling (.deliver 0 (.deal earlyDeal))) := by
    rw [tasks]
    rfl
  rw [← table, ← table', ← config, ← now] at planned'
  obtain ⟨q, course, deaf, -⟩ := course.lost deaf second (size ▸ there) free planned' news'
  rw [now] at course
  exact ⟨q, course, deaf.apart⟩

theorem deafNotes_calm : ¬ Crowded deafMinute.window.capacity ⟨"d1"⟩ deafNotes.tail := by
  rintro ⟨others, -, enough, each⟩
  obtain ⟨other, mem⟩ := List.exists_mem_of_length_pos (Nat.lt_of_lt_of_le (by decide) enough)
  obtain ⟨ne, call, claimed⟩ := each other mem
  simp only [deafNotes, lostNotes, List.cons_append, List.nil_append, List.tail_cons,
    List.mem_cons, reduceCtorEq, Note.claimed.injEq, false_or, or_false, List.not_mem_nil]
    at claimed
  exact ne claimed.2

theorem folds_of_deafMinute : Fresh oneByOne.joins deafMinute ∧ 0 < deafMinute.window.capacity ∧
    ∃ p, Course oneByOne deafMinute p none deafNotes ∧
      (p.store.table.get? ⟨⟨"BTC/USDT"⟩, .minute1⟩).map Candle.volume =
        some ⟨⟨false, 6, 0, by decide, by decide⟩⟩ ∧
      deafNotes.tail.countP (Note.folds ⟨"d1"⟩) =
        deafNotes.tail.countP (Note.accepts ⟨"d1"⟩) + deafNotes.tail.countP (Note.loses ⟨"d1"⟩) := by
  obtain ⟨p, course, apart⟩ := deafMinute_course
  obtain ⟨table, -, stretches⟩ := folds_of_deliveries deafMinute_fresh (by decide) course
  refine ⟨deafMinute_fresh, by decide, p, course, ?_, ?_⟩
  · rw [table]
    decide
  · exact (stretches [] 0 ⟨"d1"⟩ _ rfl deafNotes_calm).2 apart

/-- An identifier that is delivered twice and folded twice, while no other one is
claimed. -/
theorem deal_folded_twice : ∃ p stretch,
    Course oneByOne deafMinute p none (.claimed 0 ⟨"d1"⟩ :: stretch) ∧
      ¬ Crowded deafMinute.window.capacity ⟨"d1"⟩ stretch ∧
      stretch.countP (Note.folds ⟨"d1"⟩) = 2 := by
  obtain ⟨p, course, -⟩ := deafMinute_course
  exact ⟨p, deafNotes.tail, course, deafNotes_calm, by decide⟩

end Candlestick
