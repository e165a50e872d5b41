import Candlestick.Proofs.Batcher.Waits

/-!
# When items come and go

An observer of a feed keeps a timetable: when each item was put into the input, when the
batcher took it, the number of its batch and its place there. What is written down is what
the tasks do (`Written`): the items in the order in which they were sent, the batches as
they are handed on, and in each batch the places counted from one.
-/

namespace Candlestick

variable {α : Type}

structure Passage (α : Type) where
  item : α
  /-- When it was put into the input, in milliseconds. -/
  available : Nat
  taken : Nat
  /-- The number of its batch, from zero. -/
  batch : Nat
  /-- How many items its batch had with it. -/
  place : Nat
  deriving DecidableEq

structure Timetable (α : Type) where
  /-- The items in the input, and when they came. -/
  waiting : List (α × Nat) := []
  /-- The items that were taken, in this order. -/
  passages : List (Passage α) := []

namespace Timetable

def come (t : Timetable α) (items : List α) (now : Nat) : Timetable α :=
  { t with waiting := t.waiting ++ items.map fun item => (item, now) }

def take (t : Timetable α) (now batch place : Nat) : Timetable α :=
  match t.waiting with
  | [] => t
  | (item, available) :: waiting =>
    { waiting, passages := t.passages ++ [⟨item, available, now, batch, place⟩] }

def batch (t : Timetable α) (k : Nat) : List (Passage α) := t.passages.filter (·.batch == k)

variable {t : Timetable α} {p x y : Passage α} {waiting : List (α × Nat)} {k : Nat}

theorem come_nil (t : Timetable α) (now : Nat) : t.come [] now = t := by
  simp [come]

theorem batch_add (t : Timetable α) (waiting : List (α × Nat)) (p : Passage α) (k : Nat) :
    batch ⟨waiting, t.passages ++ [p]⟩ k = t.batch k ++ if p.batch = k then [p] else [] := by
  by_cases same : p.batch = k
  · simp [batch, same]
  · simp [batch, same]

theorem batch_add_of_ne (ne : p.batch ≠ k) :
    batch ⟨waiting, t.passages ++ [p]⟩ k = t.batch k := by
  simp [batch_add, ne]

theorem getLast?_batch (last : t.passages.getLast? = some x) (here : x.batch = k) :
    (t.batch k).getLast? = some x := by
  obtain ⟨before, same⟩ := List.getLast?_eq_some_iff.mp last
  simp [batch, same, here]

theorem successive_add (h : [x, y] <:+: t.passages ++ [p]) :
    [x, y] <:+: t.passages ∨ (t.passages.getLast? = some x ∧ y = p) := by
  rcases List.infix_concat_iff.mp h with atEnd | inside
  · right
    obtain none | ⟨before, same, tail⟩ := List.suffix_concat_iff.mp atEnd
    · cases none
    · have parts : [x] ++ [y] = before ++ [p] := same
      obtain ⟨rfl, rest⟩ : [x] = before ∧ y = p := by simpa using List.append_inj' parts rfl
      exact ⟨List.singleton_suffix_iff_getLast?_eq_some.mp tail, rest⟩
  · exact .inl inside

end Timetable

namespace Feed

/-- The first batches: those that the consumer has got, and those on the output. -/
def handedOn (f : Feed α) : List (List α) :=
  f.delivered.map Delivered.batch ++ f.batching.output.items

/-- What is written down of a step that puts some items into the input. An item was taken
where the batch in hand has grown. -/
def observe (f g : Feed α) (items : List α) (t : Timetable α) : Timetable α :=
  let t := t.come items f.millis
  if f.batching.batcher.held.length < g.batching.batcher.held.length then
    t.take f.millis f.handedOn.length g.batching.batcher.held.length
  else t

/-- One state leads to another, and an observer goes on with a timetable. -/
inductive Observed (f : Feed α) (t : Timetable α) : Feed α → Timetable α → Prop
  | init : Observed f t f t
  | step {g h : Feed α} {u : Timetable α} (i : Nat) :
      Observed f t g u → system.step? i g = some h →
      Observed f t h (observe g h (g.accepted i) u)
  | elapses {g : Feed α} {u : Timetable α} (time : Nat) :
      Observed f t g u → system.Elapses g time → Observed f t { g with millis := time } u

variable {f g : Feed α} {t u : Timetable α}

theorem Observed.prompt (observed : f.Observed t g u) : system.Prompt f g := by
  induction observed with
  | init => exact .refl _
  | step i _ moved ih => exact ih.step i moved
  | elapses time _ elapses ih => exact ih.wait time elapses

/-- Whatever comes about without delay, an observer can write it down. -/
theorem exists_observed (prompt : system.Prompt f g) (t : Timetable α) :
    ∃ u, f.Observed t g u := by
  induction prompt with
  | refl => exact ⟨t, .init⟩
  | step i _ moved ih =>
    obtain ⟨u, observed⟩ := ih
    exact ⟨_, observed.step i moved⟩
  | wait time _ elapses ih =>
    obtain ⟨u, observed⟩ := ih
    exact ⟨u, observed.elapses time elapses⟩

theorem Observed.trans {h : Feed α} {v : Timetable α} (first : f.Observed t g u)
    (second : g.Observed u h v) : f.Observed t h v := by
  induction second with
  | init => exact first
  | step i _ moved ih => exact ih.step i moved
  | elapses time _ elapses ih => exact ih.elapses time elapses

/-- Whoever comes first goes on, and while all wait the time moves to the next deadline. -/
def play : Nat → Feed α → Timetable α → Feed α × Timetable α
  | 0, f, t => (f, t)
  | fuel + 1, f, t =>
    match (List.range 3).find? fun i => (system.step? i f).isSome with
    | some i =>
      match system.step? i f with
      | some g => play fuel g (observe f g (f.accepted i) t)
      | none => (f, t)
    | none =>
      match system.nextDeadline? { state := f, ready := [], asleep := List.range 3 } with
      | some deadline => play fuel { f with millis := deadline } t
      | none => (f, t)

theorem observed_play (fuel : Nat) (f : Feed α) (t : Timetable α) :
    f.Observed t (play fuel f t).1 (play fuel f t).2 := by
  induction fuel generalizing f t with
  | zero => exact .init
  | succ fuel ih =>
    unfold play
    split
    · next i _ =>
      split
      · next g moved => exact (Observed.init.step i moved).trans (ih g _)
      · exact .init
    · next nobody =>
      split
      · next deadline next =>
        have waiting (i : Nat) : system.step? i f = none := by
          by_cases bound : i < 3
          · simpa using List.find?_eq_none.mp nobody i (List.mem_range.mpr bound)
          · exact (tame.few i f (Nat.le_of_not_lt bound)).1
        have noted : system.Noted none { state := f, ready := [], asleep := List.range 3 } :=
          fun i deadline _ set => List.mem_range.mpr (Nat.lt_of_not_le fun beyond => by
            have none := (tame.few i f beyond).2
            simp [none] at set)
        exact (Observed.init.elapses deadline (System.elapses_next tame waiting noted next)).trans
          (ih _ _)
      · exact .init

/-- A feed that nobody disturbs goes on without delay until the consumer has seen the
end. -/
theorem Undisturbed.exists_end {items : List α} (h : f.Undisturbed items) (t : Timetable α) :
    ∃ g u, f.Observed t g u ∧ g.consumer = .done := by
  induction left : f.effort using Nat.strongRecOn generalizing f t with
  | ind n ih =>
    subst left
    have goes {e : Feed α} {i : Nat} (calm : e.Undisturbed items) (before : f.Observed t e t)
        (same : e.effort = f.effort) (moves : (system.step? i e).isSome = true) :
        ∃ g u, f.Observed t g u ∧ g.consumer = .done := by
      obtain ⟨g, moved⟩ := Option.isSome_iff_exists.mp moves
      have step := feedStep_of_step? moved
      obtain ⟨h, u, observed, done⟩ :=
        ih g.effort (same ▸ effort_lt step) (calm.step step) (observe e g (e.accepted i) t) rfl
      exact ⟨h, u, (before.step i moved).trans observed, done⟩
    by_cases stuck : ∀ i, system.step? i f = none
    · rcases h.progress with done | ⟨g, time, i, later, moved⟩
      · exact ⟨f, t, .init, done⟩
      · have somebody : ∃ i deadline, system.deadline? i f = some deadline := by
          refine ⟨i, Option.isSome_iff_exists.mp (Option.isSome_iff_ne_none.mpr fun untimed => ?_)⟩
          have same := isSome_step?_later untimed time
          have moves : system.step? i { f with millis := time } = some g := moved
          simp [moves, stuck i] at same
        obtain ⟨j, deadline, set, first⟩ := System.exists_first somebody
        have elapses := System.elapses_first stuck (fun _ _ => step_of_due) set first
        exact goes (h.waits deadline) (.elapses deadline .init elapses) rfl
          (step_of_due ((deadline?_later f j deadline).trans set) (Nat.le_refl _))
    · obtain ⟨i, moves⟩ := Classical.not_forall.mp stuck
      exact goes h .init rfl (Option.isSome_iff_ne_none.mpr moves)

-- ---------------------------------------------------------------------------
-- What is written down
-- ---------------------------------------------------------------------------

theorem observe_still (le : g.batching.batcher.held.length ≤ f.batching.batcher.held.length) :
    observe f g [] t = t := by
  rw [observe, if_neg (Nat.not_lt.mpr le), Timetable.come_nil]

theorem observe_come {items : List α} (same : g.batching.batcher = f.batching.batcher) :
    observe f g items t = t.come items f.millis := by
  rw [observe, same, if_neg (Nat.lt_irrefl _)]

def batchAt (f : Feed α) (k : Nat) : List α :=
  ((f.handedOn ++ [f.batching.batcher.held])[k]?).getD []

theorem batchAt_handedOn (f : Feed α) : f.batchAt f.handedOn.length = f.batching.batcher.held := by
  simp [batchAt]

theorem batchAt_of_gt {k : Nat} (later : f.handedOn.length < k) : f.batchAt k = [] := by
  rw [batchAt, List.getElem?_eq_none (by rw [List.length_append]; exact later), Option.getD_none]

theorem batchAt_of_lt {k : Nat} {batch : List α} (early : f.handedOn[k]? = some batch) :
    f.batchAt k = batch := by
  obtain ⟨bound, -⟩ := List.getElem?_eq_some_iff.mp early
  rw [batchAt, List.getElem?_append_left bound, early, Option.getD_some]

theorem batchAt_congr {k : Nat} (handed : g.handedOn = f.handedOn) (ne : k ≠ f.handedOn.length) :
    g.batchAt k = f.batchAt k := by
  rw [batchAt, batchAt, handed]
  rcases Nat.lt_or_gt_of_ne ne with early | later
  · rw [List.getElem?_append_left early, List.getElem?_append_left early]
  · have beyond (held : List α) : (f.handedOn ++ [held])[k]? = none :=
      List.getElem?_eq_none (by rw [List.length_append]; exact later)
    rw [beyond, beyond]

theorem batchAt_handed (handed : g.handedOn = f.handedOn ++ [f.batching.batcher.held])
    (empty : g.batching.batcher.held = []) (k : Nat) : g.batchAt k = f.batchAt k := by
  rw [batchAt, batchAt, handed, empty]
  generalize f.handedOn ++ [f.batching.batcher.held] = batches
  rcases Nat.lt_trichotomy k batches.length with early | rfl | later
  · rw [List.getElem?_append_left early]
  · simp
  · rw [List.getElem?_eq_none (by rw [List.length_append]; exact later),
      List.getElem?_eq_none (Nat.le_of_lt later)]

/-- The timetable tells what the tasks do. -/
structure Written (items : List α) (f : Feed α) (t : Timetable α) : Prop where
  waiting : t.waiting.map Prod.fst = f.batching.input.items
  came : ∀ w ∈ t.waiting, w.2 ≤ f.millis
  order : t.passages.map Passage.item ++ f.batching.input.items ++
    Action.itemsOf f.producer.script = items
  batches : ∀ k, (t.batch k).map Passage.item = f.batchAt k
  places : ∀ k, (t.batch k).map Passage.place = List.range' 1 (t.batch k).length

namespace Written

variable {items : List α}

theorem keep (w : f.Written items t) (input : g.batching.input.items = f.batching.input.items)
    (script : Action.itemsOf g.producer.script = Action.itemsOf f.producer.script)
    (batches : ∀ k, g.batchAt k = f.batchAt k) (later : f.millis ≤ g.millis) :
    g.Written items t :=
  ⟨w.waiting.trans input.symm, fun entry mem => Nat.le_trans (w.came entry mem) later,
    by rw [input, script, w.order], fun k => (w.batches k).trans (batches k).symm, w.places⟩

theorem taken (w : f.Written items t) {item : α} {input : Channel α} {batcher : Batcher α}
    (received : f.batching.input.receive = .item item input)
    (grown : batcher.held = f.batching.batcher.held ++ [item]) :
    ∃ available waiting, t.waiting = (item, available) :: waiting ∧ available ≤ f.millis ∧
      observe f { f with batching := { f.batching with batcher := batcher, input := input } } [] t =
        ⟨waiting, t.passages ++ [⟨item, available, f.millis, f.handedOn.length,
          f.batching.batcher.held.length + 1⟩]⟩ := by
  have front := w.waiting
  rw [Channel.items_of_received received] at front
  cases there : t.waiting with
  | nil => simp [there] at front
  | cons entry waiting =>
    obtain ⟨rfl, -⟩ : entry.1 = item ∧ waiting.map Prod.fst = input.items := by
      simpa [there] using front
    refine ⟨entry.2, waiting, rfl, w.came entry (there ▸ List.mem_cons_self ..), ?_⟩
    simp [observe, grown, Timetable.come_nil, Timetable.take, there]

theorem take (w : f.Written items t) {item : α} {input : Channel α} {batcher : Batcher α}
    (received : f.batching.input.receive = .item item input)
    (grown : batcher.held = f.batching.batcher.held ++ [item]) :
    ({ f with batching := { f.batching with batcher := batcher, input := input } } :
      Feed α).Written items
      (observe f { f with batching := { f.batching with batcher := batcher, input := input } }
        [] t) := by
  obtain ⟨available, waiting, there, -, written⟩ := w.taken received grown
  have arrived := Channel.items_of_received received
  have here : (t.batch f.handedOn.length).length = f.batching.batcher.held.length := by
    rw [← batchAt_handedOn, ← w.batches, List.length_map]
  have front := w.waiting
  have order := w.order
  rw [there, arrived] at front
  rw [arrived] at order
  rw [written]
  refine ⟨by simpa using front, fun entry mem => ?_, by simpa using order, fun k => ?_, fun k => ?_⟩
  · exact w.came entry (there ▸ List.mem_cons_of_mem _ mem)
  · rw [Timetable.batch_add, List.map_append, w.batches]
    split
    · next same =>
      subst same
      rw [batchAt_handedOn]
      exact ((batchAt_handedOn _).trans grown).symm
    · next other =>
      rw [List.map_nil, List.append_nil]
      exact (batchAt_congr (by rfl) (Ne.symm other)).symm
  · rw [Timetable.batch_add]
    split
    · next same =>
      subst same
      simp [w.places, here, List.range'_1_concat, Nat.add_comm 1]
    · simpa using w.places k

theorem step {sent : List α} (w : f.Written items t) (h : f.Undisturbed items)
    (step : FeedStep f sent g) : g.Written items (observe f g sent t) := by
  cases step with
  | gathers step =>
    rw [h.going] at step
    cases step with
    | cancels told => cases told
    | fails _ _ full => exact absurd (full.symm.trans h.room) Bool.false_ne_true
    | begins idle received =>
      exact w.take received ((Batching.held_grown ..).trans (by simp [idle, Batcher.held]))
    | adds filling received =>
      exact w.take received ((Batching.held_grown ..).trans (by simp [filling, Batcher.held]))
    | ends idle ended =>
      rw [observe_still (Nat.zero_le _)]
      refine w.keep (Channel.receive_eq_ended.mp ended).1.symm rfl (fun k => ?_) (Nat.le_refl _)
      simp [batchAt, handedOn, Batching.stop, idle, Batcher.held, Channel.dropSender]
    | closes filling | tires filling =>
      rw [observe_still (by simp [filling, Batcher.held])]
      refine w.keep rfl rfl (fun k => ?_) (Nat.le_refl _)
      simp [batchAt, handedOn, filling, Batcher.held]
    | offers offering offered =>
      rw [observe_still (Nat.zero_le _)]
      refine w.keep rfl rfl (batchAt_handed ?_ rfl) (Nat.le_refl _)
      simp [handedOn, offering, Batcher.held, Channel.items_of_sent offered]
    | completes offering offered =>
      rw [observe_still (Nat.zero_le _)]
      refine w.keep (h.lasts.offering _ offering).1.symm rfl (batchAt_handed ?_ rfl)
        (Nat.le_refl _)
      simp [handedOn, Batching.stop, offering, Batcher.held, Channel.items_of_sent offered,
        Channel.dropSender]
    | abandons offering closed => exact absurd closed (h.not_abandoned offering)
  | sends playing accepts =>
    rw [observe_come (by rfl)]
    have order := w.order
    rw [playing, Producer.script, Action.itemsOf_send] at order
    refine ⟨?_, fun entry mem => ?_, ?_, w.batches, w.places⟩
    · simp [Timetable.come, withInput, w.waiting, Channel.items_of_sent accepts]
    · rcases List.mem_append.mp mem with before | new
      · exact w.came entry before
      · simp only [List.map_cons, List.map_nil, List.mem_singleton] at new
        exact Nat.le_of_eq (congrArg Prod.snd new)
    · simpa [withInput, Producer.script, Channel.items_of_sent accepts, Timetable.come] using order
  | refused playing closed => exact absurd closed (h.not_refused playing)
  | sleeps playing | wakes playing | cancels playing | hangsUp playing =>
    rw [observe_still (by exact Nat.le_refl _)]
    refine w.keep rfl ?_ (fun _ => rfl) (Nat.le_refl _)
    rw [playing]
    rfl
  | takes waiting received =>
    rw [observe_still (by exact Nat.le_refl _)]
    refine w.keep rfl rfl (fun k => ?_) (Nat.le_refl _)
    simp [batchAt, handedOn, withOutput, Channel.items_of_received received]
  | leaves waiting why =>
    have nothing := (Channel.receive_eq_ended.mp (h.output_ended why)).1
    rw [observe_still (by exact Nat.le_refl _)]
    refine w.keep rfl rfl (fun k => ?_) (Nat.le_refl _)
    simp [batchAt, handedOn, finish, withOutput, Channel.dropReceiver, nothing]
  | rests =>
    rw [observe_still (by exact Nat.le_refl _)]
    exact w.keep rfl rfl (fun _ => rfl) (Nat.le_refl _)

theorem elapses (w : f.Written items t) {time : Nat} (later : f.millis ≤ time) :
    ({ f with millis := time } : Feed α).Written items t :=
  w.keep rfl rfl (fun _ => rfl) later

theorem length_batch (w : f.Written items t) (k : Nat) :
    (t.batch k).length = (f.batchAt k).length := by
  rw [← w.batches, List.length_map]

theorem place_of_last (w : f.Written items t) {x : Passage α} {k : Nat}
    (last : (t.batch k).getLast? = some x) : x.place = (f.batchAt k).length := by
  obtain ⟨before, same⟩ := List.getLast?_eq_some_iff.mp last
  have places := w.places k
  rw [← w.length_batch, same, List.length_append, List.length_singleton]
  rw [same, List.map_append, List.length_append, List.length_singleton, List.range'_1_concat]
    at places
  simpa [Nat.add_comm 1] using List.append_inj_right places (by simp)

end Written

end Feed

end Candlestick
