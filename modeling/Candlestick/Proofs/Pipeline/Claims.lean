import Candlestick.Proofs.Pipeline.Advance
import Candlestick.Proofs.Store.Transition

/-!
# Claims across ingesters

Any number of calls at once, on no more ingesters than the window remembers identifiers.
Channels may be full or closed and sums may fail at any time; nothing here depends on how a
call ends, but for its claim being given back when it fails (`concurrent_claims_exclusive`).
-/

namespace Candlestick

def concurrent : Regime where
  joins := Task.Apart
  apart := fun _ h => h
  moves := fun _ _ => True

section
variable {p q : Pipeline} {i path : Nat} {deal : Deal} {delivery : Delivery}

theorem between_of_admitted (here : p.tasks[i]? = some (.delivering path delivery))
    (examined : delivery.examine = .admitted deal) (stepped : Pipeline.step? i p = some q) :
    Note.between p q i = [.claimed i deal.id] ∨
      (Note.between p q i = [.duplicate i deal.id] ∧
        q.tasks[i]? = some (.answered (.ingested (.ok .duplicate)))) := by
  obtain ⟨t, next, found, moves⟩ := Pipeline.step?_moves stepped
  rw [here] at found
  cases found
  have there : q.tasks[i]? = some next := by
    have task := congrFun (moves.task here) i
    rw [placed_self] at task
    exact task
  rw [between_eq here moves, there]
  have move := moves.move
  generalize q.floor = after at move
  cases move with
  | aside free | enters free | retires free => exact absurd free id
  | refused _ _ other => exact absurd examined (other deal)
  | duplicate _ _ _ _ => exact .inr ⟨by rw [Note.of?_duplicate examined]; rfl, rfl⟩
  | claims _ _ same _ =>
    rw [examined] at same
    cases same
    exact .inl rfl

end

/-- While a call is under way, calls with the same identifier are duplicates, and
a delivery with it that the window is asked about is answered so; and between the
claims of two calls that are accepted the window is crowded. -/
theorem concurrent_claims_exclusive {start p : Pipeline} {turn : Option Nat} {notes : List Note}
    (fresh : Fresh Task.Apart start) (room : start.ingesters.size ≤ start.window.capacity)
    (course : Course concurrent start p turn notes) :
    (∀ before i id between, notes = before ++ .claimed i id :: between →
      (∀ other result, .ended i other result ∉ between) →
      (∀ n ∈ between, ∀ j, j ≠ i → n.entry? = some (j, id) → n = .duplicate j id) ∧
      (∀ j path delivery deal q, p.tasks[j]? = some (.delivering path delivery) →
        delivery.examine = .admitted deal → deal.id = id → (turn = none ∨ turn = some j) →
        Pipeline.step? j p = some q →
        q.tasks[j]? = some (.answered (.ingested (.ok .duplicate))))) ∧
    (∀ before i id between j after outcome outcome',
      notes = before ++ .claimed i id :: (between ++ .claimed j id :: after) →
      .ended i id (.ok (.accepted outcome)) ∈ notes →
      .ended j id (.ok (.accepted outcome')) ∈ notes →
      Crowded start.window.capacity id between) := by
  have kept := course.kept fresh (.inl room)
  obtain ⟨settled, back, line, -, ledger⟩ := kept.flights
  refine ⟨fun before i id between whole going => ⟨?_, ?_⟩, ?_⟩
  · intro n hn j ne entry
    exact ledger.only_duplicates whole going n hn j ne entry
  · rintro j path delivery deal q here examined rfl mine stepped
    -- the call that has claimed does not stand where this one does
    have ne : j ≠ i := by
      rintro rfl
      obtain ⟨t, there, past⟩ := kept.past j deal.id (by simp [whole])
      rw [Pipeline.task, here] at there
      cases there
      exact past
    rcases between_of_admitted here examined stepped with claimed | ⟨-, answered⟩
    · have more := course.step mine trivial stepped
      obtain ⟨_, _, _, -, ledger⟩ := (more.kept fresh (.inl room)).flights
      have whole' : notes ++ Note.between p q j =
          before ++ .claimed i deal.id :: (between ++ [.claimed j deal.id]) := by
        rw [claimed, whole, List.append_assoc, List.cons_append]
      have still : ∀ other result, .ended i other result ∉ between ++ [.claimed j deal.id] := by
        simpa using going
      cases ledger.only_duplicates whole' still (.claimed j deal.id) (by simp) j ne rfl
    · exact answered
  · intro before i id between j after outcome outcome' whole accepted _
    refine ledger.crowded_between whole fun other e failed => ?_
    have given : .ended i other (.error e) ∈ notes := by
      rw [whole]
      exact List.mem_append_right _ (List.mem_cons_of_mem _ (List.mem_append_left _ failed))
    cases (ledger.ended_unique accepted given).2

def twoPaths : Pipeline where
  store := { config := ⟨⟨.utc, .fixed 0⟩, []⟩, events := .create 1 }
  window := .empty 2
  ingesters := #[{}, {}]
  clock := ⟨.clamp 0, false⟩
  tasks := #[.calling (.deliver 0 (.deal earlyDeal)), .calling (.deliver 1 (.deal earlyDeal))]

theorem twoPaths_fresh : Fresh Task.Apart twoPaths := by
  refine ⟨rfl, ⟨rfl, Window.sound_empty 2⟩, ?_, ?_⟩
  · intro path g found
    have mem : g ∈ [{}, {}] := Array.mem_toList_iff.mpr (Array.mem_of_getElem? found)
    simp only [List.mem_cons, List.not_mem_nil, or_false, or_self] at mem
    rw [mem]
  · intro t mem
    simp only [twoPaths, List.mem_toArray, List.mem_cons, List.not_mem_nil, or_false] at mem
    rcases mem with rfl | rfl
    · exact trivial
    · exact trivial

/-- The first call claims, and the second one is a duplicate before the first one
has looked at the candles. -/
theorem twoPaths_course : ∃ p, Course concurrent twoPaths p (some 1)
    [.claimed 0 ⟨"d1"⟩, .duplicate 1 ⟨"d1"⟩] := by
  obtain ⟨window, claimed⟩ := Window.exists_claim? (Window.sound_empty 2) ⟨"d1"⟩ List.not_mem_nil
  have sound := (Window.sound_empty 2).claim? claimed
  have known : window.claim? ⟨"d1"⟩ = none := by
    rw [Window.claim?_eq_none_iff sound, Window.order_of_claim? (by decide) claimed]
    simp
  have course : Course concurrent twoPaths twoPaths none [] := .start
  have first : twoPaths.tasks[0]? = some (.calling (.deliver 0 (.deal earlyDeal))) := rfl
  obtain ⟨p₁, led₁⟩ := Pipeline.led_calling first
  have course := course.led (.inl rfl) trivial first led₁
  have here₁ := led₁.there (by decide)
  have found₁ : p₁.ingesters[0]? = some ⟨{}, ⟨some 0, []⟩⟩ := by
    rw [led₁.ingesters]
    rfl
  have asked : p₁.window.claim? earlyDeal.id = some window := by
    rw [led₁.window]
    exact claimed
  obtain ⟨p₂, led₂⟩ := Pipeline.led_claiming here₁ found₁ rfl asked
  have course := course.led (.inr rfl) trivial here₁ led₂
  have here₂ := led₂.there (by rw [led₁.tasks]; decide)
  -- the first call waits for the store, and the second one comes
  have waits : 0 < Pipeline.cost 0 p₂ := by
    simp [Pipeline.cost, here₂]
  have course := course.rest (.inr waits)
  have second : p₂.tasks[1]? = some (.calling (.deliver 1 (.deal earlyDeal))) := by
    rw [led₂.tasks, led₁.tasks]
    rfl
  obtain ⟨p₃, led₃⟩ := Pipeline.led_calling second
  have course := course.led (.inl rfl) trivial second led₃
  have here₃ := led₃.there (by rw [led₂.tasks, led₁.tasks]; decide)
  have found₃ : p₃.ingesters[1]? = some ⟨{}, ⟨some 1, []⟩⟩ := by
    rw [led₃.ingesters, led₂.ingesters, led₁.ingesters]
    rfl
  have window₃ : p₃.window = window := led₃.window.trans led₂.window
  obtain ⟨p₄, metrics, led₄⟩ := Pipeline.led_duplicate here₃ found₃ rfl (window₃ ▸ known)
  exact ⟨p₄, course.led (.inr rfl) trivial here₃ led₄⟩

theorem claims_of_twoPaths : Fresh Task.Apart twoPaths ∧
    twoPaths.ingesters.size ≤ twoPaths.window.capacity ∧
    (∃ p, Course concurrent twoPaths p (some 1)
      ([] ++ .claimed 0 ⟨"d1"⟩ :: [.duplicate 1 ⟨"d1"⟩])) ∧
    ∀ n ∈ [.duplicate 1 ⟨"d1"⟩], ∀ j, j ≠ 0 → Note.entry? n = some (j, ⟨"d1"⟩) →
      n = .duplicate j ⟨"d1"⟩ := by
  obtain ⟨p, course⟩ := twoPaths_course
  have exclusive := concurrent_claims_exclusive twoPaths_fresh (by decide) course
  refine ⟨twoPaths_fresh, by decide, ⟨p, course⟩, ?_⟩
  exact (exclusive.1 [] 0 ⟨"d1"⟩ _ rfl (by simp)).1

end Candlestick
