import Candlestick.Proofs.Pipeline.Ledger
import Candlestick.Proofs.Pipeline.Move
import Candlestick.Store.History

/-!
# Deliveries one after the other

Where no delivery goes on before the one before it has ended, the notes come in groups: a
duplicate on its own, or a claim, the fold of the deal if there is one, and the end. Whether
there is a fold can be read off the end (`Applied`): a deal that is accepted was folded, and
so was one whose event could not be sent, although its claim is given back.
-/

namespace Candlestick

/-- What the delivery that is under way has done, if there is one. -/
inductive Phase where
  | idle
  | claimed (call : Nat) (deal : Deal)
  | folded (call : Nat) (deal : Deal)

/-- The deal is in the candles, but the call has failed and its claim was given
back. -/
def Lost : Except IngestError Ingested → Prop
  | .error (.store e) => e.IsEmission
  | _ => False

instance : DecidablePred Lost
  | .error (.store e) => inferInstanceAs (Decidable e.IsEmission)
  | .error .undecodable => isFalse id
  | .error (.invalid _) => isFalse id
  | .ok _ => isFalse id

/-- The results of a delivery that has claimed and whose deal is in the
candles. -/
def Applied (result : Except IngestError Ingested) : Prop :=
  (∃ value, result = .ok value) ∨ Lost result

inductive Phase.Step : Phase → Note → Phase → Prop
  | duplicate {i : Nat} {id : DealId} : Step .idle (.duplicate i id) .idle
  | claimed {i : Nat} {deal : Deal} : Step .idle (.claimed i deal.id) (.claimed i deal)
  | folded {i : Nat} {now : Instant} {deal : Deal} :
      Step (.claimed i deal) (.folded i now deal) (.folded i deal)
  | failed {i : Nat} {deal : Deal} {result : Except IngestError Ingested} :
      ¬ Applied result → Step (.claimed i deal) (.ended i deal.id result) .idle
  | ended {i : Nat} {deal : Deal} {result : Except IngestError Ingested} :
      Applied result → Step (.folded i deal) (.ended i deal.id result) .idle

inductive Series : List Note → Phase → Prop
  | nil : Series [] .idle
  | snoc {notes : List Note} {phase next : Phase} {n : Note} :
      Series notes phase → phase.Step n next → Series (notes ++ [n]) next

def Note.folds (id : DealId) : Note → Bool
  | .folded _ _ deal => deal.id = id
  | _ => false

def Note.foldedBy (i : Nat) : Note → Bool
  | .folded call _ _ => call = i
  | _ => false

def Note.accepts (id : DealId) : Note → Bool
  | .ended _ other (.ok _) => other = id
  | _ => false

theorem Note.eq_ended_of_accepts {id : DealId} {n : Note} (h : n.accepts id = true) :
    ∃ call value, n = .ended call id (.ok value) := by
  cases n with
  | ended call other result =>
    cases result with
    | ok value =>
      obtain rfl : other = id := of_decide_eq_true h
      exact ⟨call, value, rfl⟩
    | error e => cases h
  | _ => cases h

def Note.loses (id : DealId) : Note → Bool
  | .ended _ other result => Lost result ∧ other = id
  | _ => false

def Phase.folds (id : DealId) : Phase → Nat
  | .folded _ deal => if deal.id = id then 1 else 0
  | _ => 0

def Phase.claims (id : DealId) : Phase → Nat
  | .idle => 0
  | .claimed _ deal => if deal.id = id then 1 else 0
  | .folded _ deal => if deal.id = id then 1 else 0

theorem Phase.folds_le_claims (id : DealId) (phase : Phase) : phase.folds id ≤ phase.claims id := by
  cases phase with
  | idle => exact Nat.le_refl 0
  | claimed i deal => exact Nat.zero_le _
  | folded i deal => exact Nat.le_refl _

theorem Phase.claims_le_one (id : DealId) (phase : Phase) : phase.claims id ≤ 1 := by
  cases phase with
  | idle => exact Nat.zero_le 1
  | claimed i deal | folded i deal => simp only [claims]; split <;> omega

namespace Series

variable {notes before after : List Note} {phase : Phase} {n : Note} {i : Nat} {id : DealId}

-- ---------------------------------------------------------------------------
-- Groups
-- ---------------------------------------------------------------------------

theorem last (h : Series (notes ++ [n]) phase) :
    ∃ earlier : Phase, Series notes earlier ∧ earlier.Step n phase := by
  generalize all : notes ++ [n] = whole at h
  cases h with
  | nil => simp at all
  | snoc series step =>
    obtain ⟨rfl, single⟩ := List.append_inj' all rfl
    cases List.head_eq_of_cons_eq single
    exact ⟨_, series, step⟩

theorem middle (h : Series (before ++ n :: after) phase) :
    ∃ earlier next : Phase, Series before earlier ∧ earlier.Step n next := by
  induction after using List.reverseRecOn generalizing phase with
  | nil =>
    obtain ⟨earlier, series, step⟩ := h.last
    exact ⟨earlier, phase, series, step⟩
  | append_singleton after m ih =>
    rw [← List.cons_append, ← List.append_assoc] at h
    obtain ⟨earlier, series, -⟩ := h.last
    exact ih series

theorem of_claimed {deal : Deal} (h : Series notes (.claimed i deal)) :
    ∃ before, notes = before ++ [.claimed i deal.id] ∧ Series before .idle := by
  cases h with
  | snoc series step =>
    cases step
    exact ⟨_, rfl, series⟩

theorem of_folded {deal : Deal} (h : Series notes (.folded i deal)) :
    ∃ before now, notes = before ++ [.claimed i deal.id, .folded i now deal] ∧
      Series before .idle := by
  cases h with
  | snoc series step =>
    cases step
    obtain ⟨before, rfl, idle⟩ := series.of_claimed
    exact ⟨before, _, List.append_assoc .., idle⟩

theorem before_folded {now : Instant} {deal : Deal}
    (h : Series (before ++ .folded i now deal :: after) phase) :
    ∃ first, before = first ++ [.claimed i deal.id] := by
  obtain ⟨_, _, series, step⟩ := h.middle
  cases step
  obtain ⟨first, same, -⟩ := series.of_claimed
  exact ⟨first, same⟩

/-- What comes right before an end: the claim, and the fold if there was one. -/
theorem before_ended {result : Except IngestError Ingested}
    (h : Series (before ++ .ended i id result :: after) phase) :
    (¬ Applied result ∧ ∃ first, before = first ++ [.claimed i id]) ∨
      (Applied result ∧ ∃ first now deal, deal.id = id ∧
        before = first ++ [.claimed i id, .folded i now deal]) := by
  obtain ⟨_, _, series, step⟩ := h.middle
  cases step with
  | failed failed =>
    obtain ⟨first, same, -⟩ := series.of_claimed
    exact .inl ⟨failed, first, same⟩
  | ended applied =>
    obtain ⟨first, now, same, -⟩ := series.of_folded
    exact .inr ⟨applied, first, now, _, rfl, same⟩

-- ---------------------------------------------------------------------------
-- The folds of a call
-- ---------------------------------------------------------------------------

section
variable {capacity : Nat} {settled : List DealId} {opened : List (Nat × DealId)}

theorem filter_foldedBy_eq_nil (h : Series notes phase)
    (unclaimed : ∀ other, .claimed i other ∉ notes) : notes.filter (Note.foldedBy i) = [] := by
  refine List.filter_eq_nil_iff.mpr fun n hn folds => ?_
  obtain ⟨before, after, rfl⟩ := List.append_of_mem hn
  cases n with
  | folded call now deal =>
    obtain rfl : call = i := of_decide_eq_true folds
    obtain ⟨first, rfl⟩ := h.before_folded
    exact unclaimed deal.id (by simp)
  | _ => cases folds

theorem filter_foldedBy_after {result : Except IngestError Ingested}
    (h : Series (before ++ .ended i id result :: after) phase)
    (unclaimed : ∀ other, .claimed i other ∉ after) : after.filter (Note.foldedBy i) = [] := by
  refine List.filter_eq_nil_iff.mpr fun n hn folds => ?_
  obtain ⟨first, last, rfl⟩ := List.append_of_mem hn
  cases n with
  | folded call now deal =>
    obtain rfl : call = i := of_decide_eq_true folds
    rw [← List.cons_append, ← List.append_assoc] at h
    obtain ⟨early, same⟩ := h.before_folded
    rcases List.eq_nil_or_concat first with rfl | ⟨rest, n, rfl⟩
    · cases (List.append_inj' same rfl).2
    · rw [List.concat_eq_append, ← List.cons_append, ← List.append_assoc] at same
      cases (List.append_inj' same rfl).2
      exact unclaimed deal.id (by simp)
  | _ => cases folds

/-- What a call that has ended did to the candles: one fold if its deal was
accepted or an event could not be sent, and nothing otherwise. -/
theorem folds_of_ended {result : Except IngestError Ingested} (h : Series notes phase)
    (ledger : Ledger capacity notes settled opened) (finished : .ended i id result ∈ notes) :
    (¬ Applied result → notes.filter (Note.foldedBy i) = []) ∧
      (Applied result → ∃ now deal, deal.id = id ∧
        notes.filter (Note.foldedBy i) = [.folded i now deal]) := by
  obtain ⟨before, after, rfl⟩ := List.append_of_mem finished
  have split : (before ++ .ended i id result :: after).filter (Note.foldedBy i) =
      before.filter (Note.foldedBy i) ++ after.filter (Note.foldedBy i) := by
    rw [List.filter_append, List.filter_cons_of_neg (by simp [Note.foldedBy])]
  rw [split]
  rcases h.before_ended with ⟨failed, first, rfl⟩ | ⟨applied, first, now, deal, rfl, rfl⟩
  · have none_after := h.filter_foldedBy_after fun other => by
      rw [List.append_assoc, List.singleton_append] at ledger
      exact fun mem => (ledger.claimed_once other).2 (List.mem_cons_of_mem _ mem)
    obtain ⟨_, _, series, -⟩ := h.middle
    rw [List.append_assoc, List.singleton_append] at ledger h
    obtain ⟨_, _, early, -⟩ := h.middle
    refine ⟨fun _ => ?_, fun applied => absurd applied failed⟩
    rw [none_after, List.filter_append,
      early.filter_foldedBy_eq_nil fun other => (ledger.claimed_once other).1]
    rfl
  · have none_after := h.filter_foldedBy_after fun other => by
      rw [List.append_assoc, List.cons_append] at ledger
      exact fun mem => (ledger.claimed_once other).2 (by simp [mem])
    rw [List.append_assoc, List.cons_append] at ledger h
    obtain ⟨_, _, early, -⟩ := h.middle
    refine ⟨fun failed => absurd applied failed, fun _ => ⟨now, deal, rfl, ?_⟩⟩
    rw [none_after, List.filter_append,
      early.filter_foldedBy_eq_nil fun other => (ledger.claimed_once other).1]
    simp [Note.foldedBy]

-- ---------------------------------------------------------------------------
-- The folds of an identifier
-- ---------------------------------------------------------------------------

/-- An identifier was folded once for every delivery that was accepted or lost,
and for the one under way. -/
theorem countP_folds (h : Series notes phase) (id : DealId) :
    notes.countP (Note.folds id) =
      notes.countP (Note.accepts id) + notes.countP (Note.loses id) + phase.folds id := by
  induction h with
  | nil => rfl
  | snoc _ step ih =>
    rw [List.countP_append, List.countP_append, List.countP_append, ih]
    cases step with
    | duplicate | claimed => simp [Note.folds, Note.accepts, Note.loses, Phase.folds]
    | folded => simp [Note.folds, Note.accepts, Note.loses, Phase.folds, List.countP_singleton]
    | @failed i deal result failed =>
      cases result with
      | ok value => exact absurd (.inl ⟨value, rfl⟩) failed
      | error e =>
        have kept : ¬ Lost (.error e) := fun lost => failed (.inr lost)
        simp [Note.folds, Note.accepts, Note.loses, Phase.folds, kept]
    | @ended i deal result applied =>
      rcases applied with ⟨value, rfl⟩ | lost
      · simp [Note.folds, Note.accepts, Note.loses, Phase.folds, Lost, List.countP_singleton]
        omega
      · cases result with
        | ok value => exact lost.elim
        | error e =>
          simp [Note.folds, Note.accepts, Note.loses, Phase.folds, lost, List.countP_singleton]
          omega

theorem crowded_of_accepted {stretch : List Note} {j k : Nat} {value : Ingested}
    (h : Series notes phase) (ledger : Ledger capacity notes settled opened)
    (whole : notes = before ++ .claimed i id :: (stretch ++ .claimed j id :: after))
    (accepted : .ended k id (.ok value) ∈ stretch) : Crowded capacity id stretch := by
  obtain ⟨first, rest, rfl⟩ := List.append_of_mem accepted
  have around : notes = (before ++ .claimed i id :: first) ++
      .ended k id (.ok value) :: (rest ++ .claimed j id :: after) := by
    rw [whole]
    simp
  rcases (around ▸ h).before_ended with ⟨failed, -⟩ | ⟨-, early, now, deal, -, same⟩
  · exact absurd (.inl ⟨value, rfl⟩) failed
  · -- the claim of the delivery that was accepted is the one to count from
    have claims : notes = early ++ .claimed k id ::
        ((.folded k now deal :: .ended k id (.ok value) :: rest) ++ .claimed j id :: after) := by
      rw [around, same]
      simp
    have crowded := ledger.crowded_between claims fun other e failed => by
      have mem : .ended k other (.error e) ∈ notes := by
        rw [claims]
        exact List.mem_append_right _ (List.mem_cons_of_mem _ (List.mem_append_left _ failed))
      have finished : .ended k id (.ok value) ∈ notes := by simp [around]
      cases (ledger.ended_unique finished mem).2
    refine crowded.mono fun call other claimed => ?_
    have last : .claimed call other ∈ rest := by simpa using claimed
    exact List.mem_append_right _ (List.mem_cons_of_mem _ last)

theorem countP_accepts_le {first stretch : List Note} (h : Series notes phase)
    (ledger : Ledger capacity notes settled opened)
    (whole : notes = first ++ .claimed i id :: stretch)
    (calm : ¬ Crowded capacity id stretch) :
    stretch.countP (Note.accepts id) + phase.claims id ≤ 1 := by
  induction stretch using List.reverseRecOn generalizing notes phase settled opened with
  | nil => simpa using phase.claims_le_one id
  | append_singleton stretch n ih =>
    rw [← List.cons_append, ← List.append_assoc] at whole
    subst whole
    obtain ⟨earlier, series, step⟩ := h.last
    obtain ⟨_, _, ledger', -⟩ := ledger.snoc
    have before := ih series ledger' rfl fun crowded => calm (crowded.append _)
    rw [List.countP_append]
    cases step with
    | duplicate => simpa [Note.accepts, Phase.claims] using before
    | @claimed j deal =>
      by_cases same : deal.id = id
      · have unaccepted : stretch.countP (Note.accepts id) = 0 := by
          refine List.countP_eq_zero.mpr fun n hn accepts => ?_
          obtain ⟨k, value, rfl⟩ := Note.eq_ended_of_accepts accepts
          have again : first ++ .claimed i id :: stretch ++ [.claimed j deal.id] =
              first ++ .claimed i id :: (stretch ++ .claimed j id :: []) := by
            rw [same]
            simp
          exact calm ((h.crowded_of_accepted ledger again hn).append _)
        simp [unaccepted, Note.accepts, Phase.claims, same]
      · simpa [Note.accepts, Phase.claims, same] using before
    | folded => simpa [Note.accepts, Phase.claims] using before
    | @failed j deal result failed =>
      cases result with
      | ok value => exact absurd (.inl ⟨value, rfl⟩) failed
      | error e =>
        simp only [List.countP_singleton, Note.accepts, Phase.claims] at before ⊢
        simp only [Bool.false_eq_true, if_false]
        omega
    | @ended j deal result applied =>
      cases result with
      | ok value => simpa [Note.accepts, Phase.claims, List.countP_singleton] using before
      | error e =>
        simp only [List.countP_singleton, Note.accepts, Phase.claims] at before ⊢
        simp only [Bool.false_eq_true, if_false]
        omega

/-- As long as the window is not crowded, an identifier is folded once for every
delivery that was accepted or lost and for the one under way, and at most one of
these is not lost. -/
theorem folds_eq {first stretch : List Note} (h : Series notes phase)
    (ledger : Ledger capacity notes settled opened)
    (whole : notes = first ++ .claimed i id :: stretch)
    (calm : ¬ Crowded capacity id stretch) :
    stretch.countP (Note.folds id) = stretch.countP (Note.accepts id) +
        stretch.countP (Note.loses id) + phase.folds id ∧
      stretch.countP (Note.accepts id) + phase.folds id ≤ 1 := by
  have all := h.countP_folds id
  have few := h.countP_accepts_le ledger whole calm
  have going := phase.folds_le_claims id
  subst whole
  obtain ⟨_, _, series, step⟩ := h.middle
  have before := series.countP_folds id
  cases step
  simp only [Phase.folds] at before
  simp only [List.countP_append, List.countP_cons, Note.folds, Note.accepts, Note.loses,
    Bool.false_eq_true, if_false] at all
  omega

end

end Series

end Candlestick
