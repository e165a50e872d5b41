import Candlestick.Proofs.Batcher.Feed
import Candlestick.Proofs.Schedule.Prompt

/-!
# A feed in time

The tasks of a feed wait for no deadline but their own, and one that is due can go on
(`tame`). So the schedule that runs a feed keeps none of them waiting (`prompt_run`).
-/

namespace Candlestick.Feed

variable {α : Type} {f g : Feed α}

inductive Awaits (f : Feed α) (deadline : Nat) : Nat → Prop
  | batcher {batch : List α} : f.batching.batcher = .filling batch deadline → Awaits f deadline 0
  | producer {script : List (Action α)} :
      f.producer = .sleeping deadline script → Awaits f deadline 1
  | consumer : f.consumer = .resting deadline → Awaits f deadline 2

theorem awaits_of_deadline? {i deadline : Nat} (set : system.deadline? i f = some deadline) :
    Awaits f deadline i := by
  rcases i with _ | _ | _ | i
  · cases gathering : f.batching.batcher with
    | filling batch limit =>
      obtain rfl : limit = deadline := by simpa [system, Batching.deadline?, gathering] using set
      exact .batcher gathering
    | _ => simp [system, Batching.deadline?, gathering] at set
  · cases playing : f.producer with
    | sleeping limit script =>
      obtain rfl : limit = deadline := by simpa [system, playing] using set
      exact .producer playing
    | _ => simp [system, playing] at set
  · cases consuming : f.consumer with
    | resting limit =>
      obtain rfl : limit = deadline := by simpa [system, consuming] using set
      exact .consumer consuming
    | _ => simp [system, consuming] at set
  · cases set

theorem isSome_step?_timed {i deadline : Nat} (awaits : Awaits f deadline i)
    (waits : system.step? i f = none) (time : Nat) :
    (system.step? i { f with millis := time }).isSome = true ↔ deadline ≤ time := by
  cases awaits with
  | batcher filling =>
    cases told : f.cancelled with
    | true => simp [system, batch?, Batching.step?, filling, told] at waits
    | false =>
      cases received : f.batching.input.receive with
      | empty => simp [system, batch?, Batching.step?, filling, received]
      | _ => simp [system, batch?, Batching.step?, filling, told, received] at waits
  | producer sleeping => simp [system, produce?, sleeping]
  | consumer resting => simp [system, consume?, resting]

theorem step_of_due {i deadline : Nat} (set : system.deadline? i f = some deadline)
    (due : deadline ≤ f.millis) : (system.step? i f).isSome = true := by
  refine Option.isSome_iff_ne_none.mpr fun waits => ?_
  have moves : (system.step? i f).isSome = true :=
    (isSome_step?_timed (awaits_of_deadline? set) waits f.millis).mpr due
  simp [waits] at moves

theorem deadline?_later (f : Feed α) (i time : Nat) :
    system.deadline? i { f with millis := time } = system.deadline? i f := by
  rcases i with _ | _ | _ | i <;> rfl

theorem isSome_step?_later {i : Nat} (untimed : system.deadline? i f = none) (time : Nat) :
    (system.step? i { f with millis := time }).isSome = (system.step? i f).isSome := by
  rcases i with _ | _ | _ | i
  · cases gathering : f.batching.batcher with
    | filling batch deadline => simp [system, Batching.deadline?, gathering] at untimed
    | idle =>
      cases told : f.cancelled <;> cases received : f.batching.input.receive <;>
        cases room : f.config.hasRoom <;>
        simp [system, batch?, Batching.step?, gathering, told, received, room]
    | _ => simp [system, batch?, Batching.step?, gathering]
  · cases playing : f.producer with
    | sleeping deadline script => simp [system, playing] at untimed
    | done => simp [system, produce?, playing]
    | acting script =>
      rcases script with _ | ⟨item | millis | _, script⟩
      · simp [system, produce?, playing]
      · cases accepts : f.batching.input.send item <;> simp [system, produce?, playing, accepts]
      · simp [system, produce?, playing]
      · simp [system, produce?, playing]
  · cases consuming : f.consumer with
    | resting deadline => simp [system, consuming] at untimed
    | done => simp [system, consume?, consuming]
    | waiting =>
      cases wanted : f.stopAfter with
      | none =>
        cases received : f.batching.output.receive <;>
          simp [system, consume?, consuming, satisfied, wanted, received]
      | some n =>
        by_cases enough : n ≤ f.delivered.length <;>
          cases received : f.batching.output.receive <;>
          simp [system, consume?, consuming, satisfied, wanted, enough, received]
  · rfl

theorem exists_deadline {i time : Nat} (waits : system.step? i f = none)
    (moves : (system.step? i { f with millis := time }).isSome = true) :
    ∃ deadline, system.deadline? i f = some deadline ∧ deadline ≤ time := by
  cases set : system.deadline? i f with
  | none =>
    rw [isSome_step?_later set, waits] at moves
    cases moves
  | some deadline =>
    exact ⟨deadline, rfl, (isSome_step?_timed (awaits_of_deadline? set) waits time).mp moves⟩

theorem produce?_keeps (produced : f.produce? = some g) :
    g.batching.batcher = f.batching.batcher ∧ g.consumer = f.consumer := by
  unfold produce? at produced
  split at produced
  · cases produced
    exact ⟨rfl, rfl⟩
  · split at produced <;> cases produced <;> exact ⟨rfl, rfl⟩
  · cases produced
    exact ⟨rfl, rfl⟩
  · cases produced
    exact ⟨rfl, rfl⟩
  · split at produced <;> cases produced
    exact ⟨rfl, rfl⟩
  · cases produced

theorem consume?_keeps (consumed : f.consume? = some g) :
    g.batching.batcher = f.batching.batcher ∧ g.producer = f.producer := by
  unfold consume? at consumed
  split at consumed
  · split at consumed
    · cases consumed
      exact ⟨rfl, rfl⟩
    · split at consumed <;> cases consumed <;> exact ⟨rfl, rfl⟩
  · split at consumed <;> cases consumed
    exact ⟨rfl, rfl⟩
  · cases consumed

theorem deadline?_of_step {i j : Nat} (moved : system.step? i f = some g) (ne : j ≠ i) :
    system.deadline? j g = system.deadline? j f := by
  have others {k : Nat} : system.deadline? (k + 3) g = system.deadline? (k + 3) f := rfl
  rcases i with _ | _ | _ | i
  · obtain ⟨b, -, rfl⟩ := Option.map_eq_some_iff.mp moved
    rcases j with _ | _ | _ | j
    · exact absurd rfl ne
    · rfl
    · rfl
    · exact others
  · obtain ⟨batcher, consumer⟩ := produce?_keeps moved
    rcases j with _ | _ | _ | j
    · simp only [system, Batching.deadline?, batcher]
    · exact absurd rfl ne
    · simp only [system, consumer]
    · exact others
  · obtain ⟨batcher, producer⟩ := consume?_keeps moved
    rcases j with _ | _ | _ | j
    · simp only [system, Batching.deadline?, batcher]
    · simp only [system, producer]
    · exact absurd rfl ne
    · exact others
  · cases moved

theorem cost_le_one (i : Nat) (f : Feed α) : cost i f ≤ 1 := by
  unfold cost
  split
  · split <;> decide
  · split <;> decide
  · split <;> decide
  · decide

/-- The tasks of a feed use up effort, and wait for no deadline but their own. -/
theorem tame : (system : System (Feed α)).Tame 3 effort where
  size_eq _ := rfl
  few i f beyond := by
    rcases i with _ | _ | _ | i
    · omega
    · omega
    · omega
    · exact ⟨rfl, rfl⟩
  less _ _ _ moved := effort_lt (feedStep_of_step? moved)
  cheap i f := Nat.le_trans (cost_le_one i f) (by decide)
  own _ _ _ _ moved ne := deadline?_of_step moved ne
  woken _ _ _ set due := step_of_due set due
  helped _ _ _ waits moves := exists_deadline waits moves
  timeless i f time := deadline?_later f i time
  idle _ _ := rfl

/-- The run of a feed makes nobody late. -/
theorem prompt_run {config : BatchConfig} {capacity restMillis : Nat} {stopAfter : Option Nat}
    {script : List (Action α)} {start : Feed α}
    (started : start? config capacity restMillis stopAfter script = some start)
    (few : (start.effort + 1) * (3 + 4) < System.patience) : system.Prompt start start.run := by
  have awake (i : Nat) : system.deadline? i start = none := by
    rw [eq_of_start? started]
    rcases i with _ | _ | _ | i <;> rfl
  have lined : system.Lined none { state := start, ready := [0, 1] } := by
    intro i _ aside moves
    rcases i with _ | _ | _ | i
    · exact .inl (by simp)
    · exact .inl (by simp)
    · exact absurd rfl aside
    · cases moves
  unfold run
  exact System.prompt_runWhile tame _ lined awake rfl rfl (Nat.le_succ 2) few

end Candlestick.Feed
