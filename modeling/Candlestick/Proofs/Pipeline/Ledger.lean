import Candlestick.Ingest
import Mathlib.Data.List.Induction
import Mathlib.Data.List.Nodup

/-!
# The ledger of claims

What the calls of the ingesters do with the window, as a log of notes: a call claims an
identifier or is turned away as a duplicate, folds its deal into the candles, and ends.
`Ledger` is the discipline that keeps the log safe: calls end in the order in which they
claimed, and a claim is only made while fewer calls are open than the window remembers, so
that the claim that is forgotten to make room is never an open one.
-/

namespace Candlestick

/-- What an observer of the ingesters notes. -/
inductive Note where
  | claimed (call : Nat) (id : DealId)
  /-- The call was turned away as a duplicate. -/
  | duplicate (call : Nat) (id : DealId)
  /-- The deal of a call was folded into the candles, at a clock reading. -/
  | folded (call : Nat) (now : Instant) (deal : Deal)
  /-- A call that had claimed returned. -/
  | ended (call : Nat) (id : DealId) (result : Except IngestError Ingested)
  deriving DecidableEq

def Note.entry? : Note → Option (Nat × DealId)
  | .claimed call id => some (call, id)
  | .duplicate call id => some (call, id)
  | .folded _ _ _ => none
  | .ended call id _ => some (call, id)

def settledBy (settled : List DealId) (id : DealId) :
    Except IngestError Ingested → List DealId
  | .ok _ => settled ++ [id]
  | .error _ => settled

/-- A log of notes, with the identifiers whose claims are settled and still
remembered, the oldest one first, and the open claims, the oldest one first. -/
inductive Ledger (capacity : Nat) : List Note → List DealId → List (Nat × DealId) → Prop
  | nil : Ledger capacity [] [] []
  /-- A new claim. Where the window is full the oldest settled one is
  forgotten. -/
  | claimed {notes : List Note} {settled : List DealId} {opened : List (Nat × DealId)}
      {i : Nat} {id : DealId} :
      Ledger capacity notes settled opened → (∀ other, .claimed i other ∉ notes) →
      id ∉ settled ++ opened.map Prod.snd → opened.length < capacity →
      Ledger capacity (notes ++ [.claimed i id])
        (if capacity ≤ settled.length + opened.length then settled.tail else settled)
        (opened ++ [(i, id)])
  | duplicate {notes : List Note} {settled : List DealId} {opened : List (Nat × DealId)}
      {i : Nat} {id : DealId} :
      Ledger capacity notes settled opened → id ∈ settled ++ opened.map Prod.snd →
      Ledger capacity (notes ++ [.duplicate i id]) settled opened
  | folded {notes : List Note} {settled : List DealId} {opened : List (Nat × DealId)}
      {i : Nat} {now : Instant} {deal : Deal} :
      Ledger capacity notes settled opened →
      Ledger capacity (notes ++ [.folded i now deal]) settled opened
  /-- The oldest open claim is settled, or given back where the call failed. -/
  | ended {notes : List Note} {settled : List DealId} {opened : List (Nat × DealId)}
      {i : Nat} {id : DealId} {result : Except IngestError Ingested} :
      Ledger capacity notes settled ((i, id) :: opened) →
      Ledger capacity (notes ++ [.ended i id result]) (settledBy settled id result) opened

/-- What a note presupposes of the notes and the claims before it. -/
def Note.Extends (n : Note) (notes : List Note) (settled : List DealId)
    (opened : List (Nat × DealId)) : Prop :=
  match n with
  | .claimed i id =>
    (∀ other, .claimed i other ∉ notes) ∧ id ∉ settled ++ opened.map Prod.snd
  | .ended i id _ => ∃ rest, opened = (i, id) :: rest
  | _ => True

/-- A call has claimed an identifier and has not ended since. -/
def Pending (i : Nat) (id : DealId) (notes : List Note) : Prop :=
  ∃ before between, notes = before ++ .claimed i id :: between ∧
    ∀ other result, .ended i other result ∉ between

/-- At least `n` different identifiers other than `id` were claimed. -/
def Crowded (n : Nat) (id : DealId) (notes : List Note) : Prop :=
  ∃ others : List DealId, others.Nodup ∧ n ≤ others.length ∧
    ∀ other ∈ others, other ≠ id ∧ ∃ call, .claimed call other ∈ notes

theorem Crowded.mono {n : Nat} {id : DealId} {notes more : List Note} (h : Crowded n id notes)
    (sub : ∀ call other, .claimed call other ∈ notes → .claimed call other ∈ more) :
    Crowded n id more := by
  obtain ⟨others, nodup, enough, each⟩ := h
  refine ⟨others, nodup, enough, fun other ho => ?_⟩
  obtain ⟨ne, call, claimed⟩ := each other ho
  exact ⟨ne, call, sub call other claimed⟩

theorem Crowded.append {n : Nat} {id : DealId} {notes : List Note} (h : Crowded n id notes)
    (more : List Note) : Crowded n id (notes ++ more) :=
  h.mono fun _ _ claimed => List.mem_append_left _ claimed

theorem split_snoc {notes before after : List Note} {n x : Note}
    (h : notes ++ [n] = before ++ x :: after) :
    (after = [] ∧ notes = before ∧ n = x) ∨
      ∃ rest, after = rest ++ [n] ∧ notes = before ++ x :: rest := by
  rcases List.eq_nil_or_concat after with rfl | ⟨rest, last, rfl⟩
  · obtain ⟨same, single⟩ := List.append_inj' h rfl
    exact .inl ⟨rfl, same, List.head_eq_of_cons_eq single⟩
  · rw [List.concat_eq_append, ← List.cons_append, ← List.append_assoc] at h
    obtain ⟨same, single⟩ := List.append_inj' h rfl
    refine .inr ⟨rest, ?_, same⟩
    rw [List.concat_eq_append, List.head_eq_of_cons_eq single]

theorem pending_snoc {i : Nat} {id : DealId} {notes : List Note} {n : Note} :
    Pending i id (notes ++ [n]) ↔ n = .claimed i id ∨
      (Pending i id notes ∧ ∀ other result, n ≠ .ended i other result) := by
  constructor
  · rintro ⟨before, between, whole, going⟩
    rcases split_snoc whole with ⟨-, -, same⟩ | ⟨rest, rfl, earlier⟩
    · exact .inl same
    · refine .inr ⟨⟨before, rest, earlier, fun other result he => ?_⟩, ?_⟩
      · exact going other result (List.mem_append_left _ he)
      · rintro other result rfl
        exact going other result (List.mem_append_right _ (List.mem_singleton.mpr rfl))
  · rintro (rfl | ⟨⟨before, between, rfl, going⟩, other⟩)
    · exact ⟨notes, [], rfl, fun _ _ he => nomatch he⟩
    · refine ⟨before, between ++ [n], by simp, fun x r he => ?_⟩
      rcases List.mem_append.mp he with he | he
      · exact going x r he
      · exact other x r (List.mem_singleton.mp he).symm

namespace Ledger

variable {capacity : Nat} {notes : List Note} {settled : List DealId}
  {opened : List (Nat × DealId)}

-- ---------------------------------------------------------------------------
-- Open claims
-- ---------------------------------------------------------------------------

theorem nodup (h : Ledger capacity notes settled opened) :
    (settled ++ opened.map Prod.snd).Nodup := by
  induction h with
  | nil => exact .nil
  | @claimed notes settled opened i id _ _ fresh _ ih =>
    have kept : (if capacity ≤ settled.length + opened.length then settled.tail
        else settled).Sublist settled := by
      split
      · exact List.tail_sublist _
      · exact List.Sublist.refl _
    have sub := kept.append (List.Sublist.refl (opened.map Prod.snd))
    rw [List.map_append, ← List.append_assoc]
    refine List.nodup_append.mpr ⟨ih.sublist sub, List.pairwise_singleton _ _, ?_⟩
    intro other ho same hid eq
    rw [List.map_singleton, List.mem_singleton, ← eq] at hid
    subst hid
    exact fresh (sub.subset ho)
  | duplicate _ _ ih | folded _ ih => exact ih
  | @ended _ settled opened i id result _ ih =>
    rw [List.map_cons] at ih
    cases result with
    | ok value => rwa [settledBy, List.append_assoc, List.singleton_append]
    | error e => exact ih.sublist ((List.Sublist.refl _).append (List.sublist_cons_self _ _))

theorem claimed_of_mem (h : Ledger capacity notes settled opened) :
    ∀ entry ∈ opened, .claimed entry.1 entry.2 ∈ notes := by
  induction h with
  | nil => intro entry he; cases he
  | claimed _ _ _ _ ih =>
    intro entry he
    rcases List.mem_append.mp he with he | he
    · exact List.mem_append_left _ (ih entry he)
    · rw [List.mem_singleton.mp he]
      exact List.mem_append_right _ (List.mem_singleton.mpr rfl)
  | duplicate _ _ ih | folded _ ih => exact fun entry he => List.mem_append_left _ (ih entry he)
  | ended _ ih =>
    exact fun entry he => List.mem_append_left _ (ih entry (List.mem_cons_of_mem _ he))

theorem calls_nodup (h : Ledger capacity notes settled opened) :
    (opened.map Prod.fst).Nodup := by
  induction h with
  | nil => exact .nil
  | @claimed notes settled opened i id before unclaimed _ _ ih =>
    rw [List.map_append]
    refine List.nodup_append.mpr ⟨ih, List.pairwise_singleton _ _, ?_⟩
    intro call hc same hi eq
    rw [List.map_singleton, List.mem_singleton, ← eq] at hi
    subst hi
    obtain ⟨entry, he, rfl⟩ := List.mem_map.mp hc
    exact unclaimed entry.2 (before.claimed_of_mem entry he)
  | duplicate _ _ ih | folded _ ih => exact ih
  | ended _ ih => exact (List.nodup_cons.mp ih).2

theorem mem_iff_pending {i : Nat} {id : DealId} (h : Ledger capacity notes settled opened) :
    (i, id) ∈ opened ↔ Pending i id notes := by
  induction h with
  | nil => simp [Pending]
  | @claimed _ _ _ j other _ _ _ _ ih =>
    rw [pending_snoc, ← ih, List.mem_append, List.mem_singleton]
    constructor
    · rintro (mem | same)
      · exact .inr ⟨mem, by simp⟩
      · cases same
        exact .inl rfl
    · rintro (same | ⟨mem, -⟩)
      · cases same
        exact .inr rfl
      · exact .inl mem
  | duplicate _ _ ih | folded _ ih => rw [pending_snoc, ← ih]; simp
  | @ended _ _ rest j other result ledger ih =>
    have distinct := (List.nodup_cons.mp ledger.calls_nodup).1
    rw [pending_snoc, ← ih, List.mem_cons]
    constructor
    · intro mem
      refine .inr ⟨.inr mem, fun x r same => ?_⟩
      cases same
      exact distinct (List.mem_map.mpr ⟨_, mem, rfl⟩)
    · rintro (same | ⟨same | mem, going⟩)
      · cases same
      · cases same
        exact absurd rfl (going id result)
      · exact mem

-- ---------------------------------------------------------------------------
-- The last note, and what came before
-- ---------------------------------------------------------------------------

theorem snoc {n : Note} (h : Ledger capacity (notes ++ [n]) settled opened) :
    ∃ before held, Ledger capacity notes before held ∧ n.Extends notes before held := by
  generalize all : notes ++ [n] = whole at h
  cases h with
  | nil => simp at all
  | claimed ledger unclaimed fresh _ =>
    obtain ⟨rfl, single⟩ := List.append_inj' all rfl
    cases List.head_eq_of_cons_eq single
    exact ⟨_, _, ledger, unclaimed, fresh⟩
  | duplicate ledger _ | folded ledger =>
    obtain ⟨rfl, single⟩ := List.append_inj' all rfl
    cases List.head_eq_of_cons_eq single
    exact ⟨_, _, ledger, trivial⟩
  | ended ledger =>
    obtain ⟨rfl, single⟩ := List.append_inj' all rfl
    cases List.head_eq_of_cons_eq single
    exact ⟨_, _, ledger, _, rfl⟩

theorem take {more : List Note} (h : Ledger capacity (notes ++ more) settled opened) :
    ∃ before held, Ledger capacity notes before held := by
  induction more using List.reverseRecOn generalizing settled opened with
  | nil => exact ⟨_, _, List.append_nil notes ▸ h⟩
  | append_singleton more n ih =>
    rw [← List.append_assoc] at h
    obtain ⟨_, _, ledger, -⟩ := h.snoc
    exact ih ledger

theorem middle {n : Note} {more : List Note}
    (h : Ledger capacity (notes ++ n :: more) settled opened) :
    ∃ before held, Ledger capacity notes before held ∧ n.Extends notes before held := by
  rw [List.append_cons] at h
  obtain ⟨_, _, ledger⟩ := h.take
  exact ledger.snoc

theorem claimed_once {before after : List Note} {i : Nat} {id : DealId}
    (h : Ledger capacity (before ++ .claimed i id :: after) settled opened) (other : DealId) :
    .claimed i other ∉ before ∧ .claimed i other ∉ after := by
  constructor
  · obtain ⟨_, _, -, unclaimed, -⟩ := h.middle
    exact unclaimed other
  · intro again
    obtain ⟨first, last, rfl⟩ := List.append_of_mem again
    rw [← List.cons_append, ← List.append_assoc] at h
    obtain ⟨_, _, -, unclaimed, -⟩ := h.middle
    exact unclaimed id (List.mem_append_right _ (List.mem_cons_self ..))

theorem call_unique {i j : Nat} {id : DealId} (h : Ledger capacity notes settled opened)
    (hi : (i, id) ∈ opened) (hj : (j, id) ∈ opened) : i = j := by
  have ids := (List.nodup_append.mp h.nodup).2.1
  exact congrArg Prod.fst (List.inj_on_of_nodup_map ids hi hj rfl)

/-- Between the claim of an identifier and the end of its call, all that is
noted of other calls with the identifier is that they are duplicates. -/
theorem only_duplicates {before between : List Note} {i : Nat} {id : DealId}
    (h : Ledger capacity notes settled opened)
    (whole : notes = before ++ .claimed i id :: between)
    (going : ∀ other result, .ended i other result ∉ between) :
    ∀ n ∈ between, ∀ j, j ≠ i → n.entry? = some (j, id) → n = .duplicate j id := by
  intro n hn j ne entry
  obtain ⟨first, last, rfl⟩ := List.append_of_mem hn
  have pending : Pending i id (before ++ .claimed i id :: first) :=
    ⟨before, first, rfl, fun x r he => going x r (List.mem_append_left _ he)⟩
  rw [whole, ← List.cons_append, ← List.append_assoc] at h
  obtain ⟨_, _, ledger, lawful⟩ := h.middle
  have mem := ledger.mem_iff_pending.mpr pending
  cases n with
  | claimed k other =>
    cases entry
    exact absurd (List.mem_append_right _ (List.mem_map.mpr ⟨_, mem, rfl⟩)) lawful.2
  | duplicate k other =>
    cases entry
    rfl
  | folded => cases entry
  | ended k other result =>
    cases entry
    obtain ⟨rest, rfl⟩ := lawful
    exact absurd (ledger.call_unique (List.mem_cons_self ..) mem) ne

theorem call_eq {before between : List Note} {i j : Nat} {id : DealId}
    (h : Ledger capacity notes settled opened)
    (whole : notes = before ++ .claimed i id :: between)
    (alone : ∀ call, .claimed call id ∉ between) (mem : (j, id) ∈ opened) : j = i := by
  obtain ⟨first, last, split, going⟩ := h.mem_iff_pending.mp mem
  by_cases ne : i = j
  · exact ne.symm
  · have both := whole.symm.trans split
    rcases List.append_eq_append_iff.mp both with ⟨gap, -, rest⟩ | ⟨gap, -, rest⟩
    · -- the claim of `j` comes after the one of `i`
      cases gap with
      | nil =>
        cases List.head_eq_of_cons_eq rest
        exact absurd rfl ne
      | cons n gap =>
        have tail := List.tail_eq_of_cons_eq rest
        exact absurd (tail ▸ List.mem_append_right _ (List.mem_cons_self ..)) (alone j)
    · -- the claim of `i` was made while the one of `j` was open
      cases gap with
      | nil =>
        cases List.head_eq_of_cons_eq rest
        exact absurd rfl ne
      | cons n gap =>
        have tail := List.tail_eq_of_cons_eq rest
        have claimed : .claimed i id ∈ last :=
          tail ▸ List.mem_append_right _ (List.mem_cons_self ..)
        cases h.only_duplicates split going _ claimed i ne rfl

-- ---------------------------------------------------------------------------
-- Claims that were not given back
-- ---------------------------------------------------------------------------

theorem filter_middle {first second : List DealId} {id : DealId}
    (nodup : (first ++ id :: second).Nodup) :
    (first ++ id :: second).filter (· ≠ id) = first ++ second := by
  obtain ⟨-, right, apart⟩ := List.nodup_append.mp nodup
  rw [List.filter_append, List.filter_cons_of_neg (by simp),
    List.filter_eq_self.mpr fun x hx => by simpa using apart x hx id (List.mem_cons_self ..),
    List.filter_eq_self.mpr fun x hx => by
      simpa using fun same : x = id => (List.nodup_cons.mp right).1 (same ▸ hx)]

def Behind (id : DealId) (order : List DealId) (between : List Note) : Prop :=
  ∃ first second, order = first ++ id :: second ∧
    ∀ other ∈ second, ∃ call, .claimed call other ∈ between

theorem Behind.append {id : DealId} {order : List DealId} {between : List Note}
    (h : Behind id order between) (more : List Note) : Behind id order (between ++ more) := by
  obtain ⟨first, second, rfl, each⟩ := h
  refine ⟨first, second, rfl, fun other ho => ?_⟩
  obtain ⟨call, claimed⟩ := each other ho
  exact ⟨call, List.mem_append_left _ claimed⟩

theorem Behind.filter {id other : DealId} {first second : List DealId} {between : List Note}
    (behind : Behind id (first ++ other :: second) between) (ne : other ≠ id)
    (nodup : (first ++ other :: second).Nodup) : Behind id (first ++ second) between := by
  obtain ⟨before, after, order, each⟩ := behind
  refine ⟨before.filter (· ≠ other), after.filter (· ≠ other), ?_, fun x hx =>
    each x (List.mem_of_mem_filter hx)⟩
  rw [← filter_middle nodup, order, List.filter_append,
    List.filter_cons_of_pos (by simpa using Ne.symm ne)]

/-- A new claim leaves an identifier behind in the order, or crowds it out. -/
theorem Behind.claim {id other : DealId} (call : Nat) {between : List Note}
    (behind : Behind id (settled ++ opened.map Prod.snd) between)
    (nodup : (settled ++ opened.map Prod.snd).Nodup)
    (fresh : other ∉ settled ++ opened.map Prod.snd) (room : opened.length < capacity) :
    Behind id ((if capacity ≤ settled.length + opened.length then settled.tail else settled) ++
        (opened ++ [(call, other)]).map Prod.snd) (between ++ [.claimed call other]) ∨
      Crowded capacity id (between ++ [.claimed call other]) := by
  obtain ⟨first, second, order, each⟩ := behind
  have later : ∀ x ∈ second ++ [other], ∃ k, .claimed k x ∈ between ++ [.claimed call other] := by
    intro x hx
    rcases List.mem_append.mp hx with hx | hx
    · obtain ⟨k, claimed⟩ := each x hx
      exact ⟨k, List.mem_append_left _ claimed⟩
    · rw [List.mem_singleton.mp hx]
      exact ⟨call, List.mem_append_right _ (List.mem_singleton.mpr rfl)⟩
  rw [List.map_append, List.map_singleton, ← List.append_assoc]
  split
  · next full =>
    cases settled with
    | nil =>
      rw [List.length_nil] at full
      omega
    | cons oldest rest =>
      rw [List.tail_cons]
      rw [List.cons_append] at order
      cases first with
      | nil =>
        -- the oldest claim is the one in question, and is forgotten
        obtain ⟨rfl, tail⟩ := List.cons.inj order
        rw [List.cons_append, tail] at nodup fresh
        refine .inr ⟨second ++ [other], ?_, ?_, fun x hx => ⟨?_, later x hx⟩⟩
        · refine List.nodup_append.mpr
            ⟨(List.nodup_cons.mp nodup).2, List.pairwise_singleton _ _, ?_⟩
          rintro x hx _ hy rfl
          exact fresh (List.mem_cons_of_mem _ (List.mem_singleton.mp hy ▸ hx))
        · have length := congrArg List.length tail
          simp only [List.length_append, List.length_map, List.length_cons,
            List.length_nil] at length full ⊢
          omega
        · rcases List.mem_append.mp hx with hx | hx
          · rintro rfl
            exact (List.nodup_cons.mp nodup).1 hx
          · rintro rfl
            exact fresh (List.mem_singleton.mp hx ▸ List.mem_cons_self ..)
      | cons y first =>
        obtain ⟨rfl, tail⟩ := List.cons.inj order
        exact .inl ⟨first, second ++ [other], by rw [tail]; simp, later⟩
  · exact .inl ⟨first, second ++ [other], by rw [order]; simp, later⟩

/-- A claim that was not given back is remembered, and only others came after
it; or it was forgotten, and the window has been crowded. -/
theorem remembered {before between : List Note} {i : Nat} {id : DealId}
    (h : Ledger capacity notes settled opened)
    (whole : notes = before ++ .claimed i id :: between)
    (kept : ∀ other e, .ended i other (.error e) ∉ between) :
    ((∀ call, .claimed call id ∉ between) ∧
      Behind id (settled ++ opened.map Prod.snd) between) ∨ Crowded capacity id between := by
  induction h generalizing between with
  | nil => simp at whole
  | @claimed _ settled opened j other ledger _ fresh room ih =>
    rcases split_snoc whole with ⟨rfl, -, same⟩ | ⟨rest, rfl, earlier⟩
    · cases same
      refine .inl ⟨fun call => List.not_mem_nil, ?_⟩
      rw [List.map_append, List.map_singleton, ← List.append_assoc]
      exact ⟨_, [], rfl, fun x hx => nomatch hx⟩
    · rcases ih earlier fun x e he => kept x e (List.mem_append_left _ he) with
        ⟨alone, behind⟩ | crowded
      · have mem : id ∈ settled ++ opened.map Prod.snd := by
          obtain ⟨first, second, order, -⟩ := behind
          simp [order]
        refine (behind.claim j ledger.nodup fresh room).imp_left fun later =>
          ⟨fun call hc => ?_, later⟩
        rcases List.mem_append.mp hc with hc | hc
        · exact alone call hc
        · cases List.mem_singleton.mp hc
          exact fresh mem
      · exact .inr (crowded.append _)
  | duplicate _ _ ih | folded _ ih =>
    rcases split_snoc whole with ⟨-, -, same⟩ | ⟨rest, rfl, earlier⟩
    · cases same
    · refine (ih earlier fun x e he => kept x e (List.mem_append_left _ he)).imp
        (fun ⟨alone, behind⟩ => ⟨by simpa using alone, behind.append _⟩) (Crowded.append · _)
  | @ended _ settled opened j other result ledger ih =>
    rcases split_snoc whole with ⟨-, -, same⟩ | ⟨rest, rfl, earlier⟩
    · cases same
    · rcases ih earlier fun x e he => kept x e (List.mem_append_left _ he) with
        ⟨alone, behind⟩ | crowded
      · refine .inl ⟨by simpa using alone, ?_⟩
        have order : (settled ++ ((j, other) :: opened).map Prod.snd) =
            settled ++ other :: opened.map Prod.snd := rfl
        cases result with
        | ok value =>
          rw [settledBy, List.append_assoc, List.singleton_append]
          exact behind.append _
        | error e =>
          by_cases same : other = id
          · subst same
            obtain rfl := ledger.call_eq earlier alone (List.mem_cons_self ..)
            exact absurd (List.mem_append_right _ (List.mem_singleton.mpr rfl)) (kept other e)
          · exact (behind.filter same ledger.nodup).append _
      · exact .inr (crowded.append _)

/-- Between two claims of an identifier the window is crowded, unless the first
was given back in between. -/
theorem crowded_between {before between after : List Note} {i j : Nat} {id : DealId}
    (h : Ledger capacity notes settled opened)
    (whole : notes = before ++ .claimed i id :: (between ++ .claimed j id :: after))
    (kept : ∀ other e, .ended i other (.error e) ∉ between) : Crowded capacity id between := by
  rw [whole, ← List.cons_append, ← List.append_assoc] at h
  obtain ⟨_, _, ledger, -, fresh⟩ := h.middle
  rcases ledger.remembered rfl kept with ⟨-, first, second, order, -⟩ | crowded
  · exact absurd (by simp [order]) fresh
  · exact crowded

-- ---------------------------------------------------------------------------
-- Calls end once
-- ---------------------------------------------------------------------------

theorem not_pending_of_ended {i : Nat} {id : DealId} {result : Except IngestError Ingested}
    (h : Ledger capacity notes settled opened) (finished : .ended i id result ∈ notes)
    (other : DealId) : (i, other) ∉ opened := by
  intro mem
  obtain ⟨before, between, rfl, going⟩ := h.mem_iff_pending.mp mem
  have early : .ended i id result ∈ before := by
    simpa [going id result] using finished
  -- so the call had claimed before, and claims a second time
  obtain ⟨_, _, _, unclaimed, -⟩ := h.middle
  obtain ⟨first, last, rfl⟩ := List.append_of_mem early
  rw [List.append_assoc, List.cons_append] at h
  obtain ⟨_, _, ledger, rest, rfl⟩ := h.middle
  have claimed := ledger.claimed_of_mem _ (List.mem_cons_self ..)
  exact unclaimed id (List.mem_append_left _ claimed)

theorem ended_unique {i : Nat} {id other : DealId} {result outcome : Except IngestError Ingested}
    (h : Ledger capacity notes settled opened) (first : .ended i id result ∈ notes)
    (second : .ended i other outcome ∈ notes) : id = other ∧ result = outcome := by
  induction notes using List.reverseRecOn generalizing settled opened with
  | nil => cases first
  | append_singleton notes n ih =>
    obtain ⟨_, _, ledger, lawful⟩ := h.snoc
    rcases List.mem_append.mp first with early | last
    · rcases List.mem_append.mp second with early' | last'
      · exact ih ledger early early'
      · cases List.mem_singleton.mp last'
        obtain ⟨rest, rfl⟩ := lawful
        exact absurd (List.mem_cons_self ..) (ledger.not_pending_of_ended early other)
    · cases List.mem_singleton.mp last
      obtain ⟨rest, rfl⟩ := lawful
      rcases List.mem_append.mp second with early' | last'
      · exact absurd (List.mem_cons_self ..) (ledger.not_pending_of_ended early' id)
      · cases List.mem_singleton.mp last'
        exact ⟨rfl, rfl⟩

end Ledger

end Candlestick
