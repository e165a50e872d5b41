import Candlestick.Proofs.Batcher.Timetable

/-!
# When a batch is complete

Two items that were sent one after the other are in one batch where the first did not fill
it and the second came before the idle time was over, and else in two (`Succeeds`). A batch
below its limit was completed by an idle time or by the end of the input (`Closed`). Both
hold in every order of steps, as long as the time waits for the tasks (`Paced`).
-/

namespace Candlestick

variable {α : Type} {config : BatchConfig} {t : Timetable α} {x y p : Passage α}

def Passage.deadline (config : BatchConfig) (x : Passage α) : Nat :=
  x.taken + config.idleMillis

/-- How an item comes after the one before. -/
inductive Succeeds (config : BatchConfig) (x y : Passage α) : Prop
  /-- In the same batch. -/
  | joins : y.batch = x.batch → x.place < config.limit → y.available ≤ x.deadline config →
      Succeeds config x y
  /-- In a new batch. -/
  | opens : y.batch = x.batch + 1 → y.place = 1 →
      x.place = config.limit ∨ x.deadline config ≤ y.available → Succeeds config x y

/-- Why nothing comes after an item in its batch; the item is the last that was taken. -/
inductive Settled (config : BatchConfig) (input : Channel α) (now : Nat)
    (waiting : List (α × Nat)) (x : Passage α) : Prop
  | full : x.place = config.limit → Settled config input now waiting x
  /-- All that waits came after the idle time. -/
  | idled : x.deadline config ≤ now → (∀ w ∈ waiting, x.deadline config ≤ w.2) →
      Settled config input now waiting x
  | ended : input.receive = .ended → Settled config input now waiting x

/-- Why a batch was complete at some time; the item is the last of the batch. -/
inductive Closed (config : BatchConfig) (input : Channel α) (passages : List (Passage α))
    (x : Passage α) (time : Nat) : Prop
  | full : x.place = config.limit → Closed config input passages x time
  | idled : x.deadline config ≤ time → Closed config input passages x time
  /-- It is the last item of all. -/
  | ended : input.receive = .ended → passages.getLast? = some x →
      Closed config input passages x time

inductive Stands (config : BatchConfig) (input : Channel α) (now handed : Nat) (t : Timetable α) :
    Batcher α → Prop
  | fresh : t.passages = [] → handed = 0 → Stands config input now handed t .idle
  | idle {x : Passage α} :
      t.passages.getLast? = some x → x.batch + 1 = handed →
      Settled config input now t.waiting x → Stands config input now handed t .idle
  | filling {batch : List α} {x : Passage α} :
      t.passages.getLast? = some x → x.batch = handed → x.place < config.limit →
      now ≤ x.deadline config →
      Stands config input now handed t (.filling batch (x.deadline config))
  | offering {batch : List α} {last : Bool} {x : Passage α} :
      t.passages.getLast? = some x → x.batch = handed → Settled config input now t.waiting x →
      Stands config input now handed t (.offering batch last)
  | stopped : Stands config input now handed t .stopped

namespace Succeeds

theorem together (h : Succeeds config x y) (short : x.place < config.limit)
    (intime : y.available < x.deadline config) : y.batch = x.batch := by
  cases h with
  | joins same => exact same
  | opens _ _ why =>
    rcases why with full | late
    · exact absurd full (Nat.ne_of_lt short)
    · exact absurd intime (Nat.not_lt.mpr late)

theorem apart (h : Succeeds config x y)
    (why : x.place = config.limit ∨ x.deadline config < y.available) :
    y.batch = x.batch + 1 ∧ y.place = 1 := by
  cases h with
  | joins _ short intime =>
    rcases why with full | late
    · exact absurd full (Nat.ne_of_lt short)
    · exact absurd late (Nat.not_lt.mpr intime)
  | opens next first => exact ⟨next, first⟩

end Succeeds

inductive Arrives (config : BatchConfig) (t : Timetable α) (p : Passage α) : Prop
  | first : t.passages = [] → p.batch = 0 → Arrives config t p
  | next {x : Passage α} : t.passages.getLast? = some x → Succeeds config x p →
      Arrives config t p

/-- The last item of a batch is right before one of the next batch. -/
def Timetable.Meets (t : Timetable α) (k : Nat) : Prop :=
  ∃ x y, [x, y] <:+: t.passages ∧ (t.batch k).getLast? = some x ∧ y.batch = k + 1

namespace Arrives

variable {waiting : List (α × Nat)}

theorem succeeds (h : Arrives config t p)
    (before : ∀ x y, [x, y] <:+: t.passages → Succeeds config x y) (x y : Passage α)
    (successive : [x, y] <:+: t.passages ++ [p]) : Succeeds config x y := by
  rcases Timetable.successive_add successive with inside | ⟨last, rfl⟩
  · exact before x y inside
  · cases h with
    | first nothing => simp [nothing] at last
    | next final succeeds => rwa [Option.some.inj (last.symm.trans final)]

theorem meets (h : Arrives config t p) (before : ∀ k, t.batch (k + 1) ≠ [] → t.Meets k)
    (latest : ∀ k, p.batch < k → t.batch k = []) (k : Nat)
    (begun : Timetable.batch ⟨waiting, t.passages ++ [p]⟩ (k + 1) ≠ []) :
    Timetable.Meets ⟨waiting, t.passages ++ [p]⟩ k := by
  have old (begun : t.batch (k + 1) ≠ []) :
      Timetable.Meets ⟨waiting, t.passages ++ [p]⟩ k := by
    obtain ⟨x, y, successive, last, first⟩ := before k begun
    have ne : p.batch ≠ k := fun same => begun (latest (k + 1) (by omega))
    exact ⟨x, y, successive.trans (List.prefix_append ..).isInfix,
      (Timetable.batch_add_of_ne ne).symm ▸ last, first⟩
  by_cases new : p.batch = k + 1
  · cases h with
    | first _ zero => omega
    | @next z last succeeds =>
      cases succeeds with
      | joins same =>
        have here := Timetable.getLast?_batch last (same.symm.trans new)
        exact old fun empty => by simp [empty] at here
      | opens after =>
        obtain ⟨front, same⟩ := List.getLast?_eq_some_iff.mp last
        refine ⟨z, p, ⟨front, [], by simp [same]⟩, ?_, new⟩
        rw [Timetable.batch_add_of_ne (by omega)]
        exact Timetable.getLast?_batch last (by omega)
  · rw [Timetable.batch_add_of_ne new] at begun
    exact old begun

end Arrives

section
variable {input next : Channel α} {now later handed time : Nat} {waiting : List (α × Nat)}
  {passages : List (Passage α)} {batcher : Batcher α}

theorem Closed.mono (h : Closed config input passages x now) (le : now ≤ later)
    (ended : input.receive = .ended → next.receive = .ended) :
    Closed config next passages x later := by
  cases h with
  | full full => exact .full full
  | idled idled => exact .idled (Nat.le_trans idled le)
  | ended gone last => exact .ended (ended gone) last

theorem Closed.of_more {others : List (Passage α)} (h : Closed config input passages x time)
    (more : input.receive ≠ .ended) : Closed config next others x time := by
  cases h with
  | full full => exact .full full
  | idled idled => exact .idled idled
  | ended gone => exact absurd gone more

theorem Settled.mono (h : Settled config input now waiting x) (le : now ≤ later)
    (ended : input.receive = .ended → next.receive = .ended) :
    Settled config next later waiting x := by
  cases h with
  | full full => exact .full full
  | idled idled after => exact .idled (Nat.le_trans idled le) after
  | ended gone => exact .ended (ended gone)

theorem Settled.come (h : Settled config input now waiting x) (more : input.receive ≠ .ended)
    (item : α) : Settled config next now (waiting ++ [(item, now)]) x := by
  cases h with
  | full full => exact .full full
  | idled idled after =>
    exact .idled idled (List.forall_mem_append.mpr ⟨after, by simpa using idled⟩)
  | ended gone => exact absurd gone more

theorem Settled.closed (h : Settled config input now waiting x)
    (last : passages.getLast? = some x) : Closed config input passages x now := by
  cases h with
  | full full => exact .full full
  | idled idled => exact .idled idled
  | ended gone => exact .ended gone last

namespace Stands

theorem mono (h : Stands config input now handed t batcher) (le : now ≤ later)
    (ended : input.receive = .ended → next.receive = .ended)
    (due : ∀ batch deadline, batcher = .filling batch deadline → later ≤ deadline) :
    Stands config next later handed t batcher := by
  cases h with
  | fresh nothing zero => exact .fresh nothing zero
  | idle last here settled => exact .idle last here (settled.mono le ended)
  | filling last here short => exact .filling last here short (due _ _ rfl)
  | offering last here settled => exact .offering last here (settled.mono le ended)
  | stopped => exact .stopped

theorem due {batch : List α} {deadline : Nat}
    (h : Stands config input now handed t (.filling batch deadline)) : now ≤ deadline := by
  cases h with
  | filling _ _ _ due => exact due

theorem come (h : Stands config input now handed t batcher) (more : input.receive ≠ .ended)
    (item : α) : Stands config next now handed (t.come [item] now) batcher := by
  cases h with
  | fresh nothing zero => exact .fresh nothing zero
  | idle last here settled => exact .idle last here (settled.come more item)
  | filling last here short due => exact .filling last here short due
  | offering last here settled => exact .offering last here (settled.come more item)
  | stopped => exact .stopped

theorem arrives (h : Stands config input now handed t batcher) (more : input.receive ≠ .ended)
    (gathers : batcher = .idle ∨ ∃ batch deadline, batcher = .filling batch deadline)
    (waits : (p.item, p.available) ∈ t.waiting) (came : p.available ≤ now)
    (here : p.batch = handed) (place : p.place = batcher.held.length + 1) :
    Arrives config t p := by
  cases h with
  | fresh nothing zero => exact .first nothing (here.trans zero)
  | idle last before settled =>
    refine .next last (.opens (here.trans before.symm) place ?_)
    cases settled with
    | full full => exact .inl full
    | idled _ after => exact .inr (after _ waits)
    | ended gone => exact absurd gone more
  | filling last same short due =>
    exact .next last (.joins (here.trans same.symm) short (Nat.le_trans came due))
  | offering | stopped => simp at gathers

theorem grown {batch : List α} (last : t.passages.getLast? = some p) (here : p.batch = handed)
    (place : p.place = batch.length) (few : batch.length ≤ config.limit) :
    Stands config input p.taken handed t (Batching.grown config p.taken batch) := by
  by_cases full : config.limit ≤ batch.length
  · have offering : Batching.grown config p.taken batch = .offering batch false := if_pos full
    exact offering ▸ .offering last here (.full (place.trans (Nat.le_antisymm few full)))
  · have filling : Batching.grown config p.taken batch = .filling batch (p.deadline config) :=
      if_neg full
    exact filling ▸ .filling last here (place ▸ Nat.lt_of_not_le full) (Nat.le_add_right ..)

end Stands

end

-- ---------------------------------------------------------------------------
-- Full batches
-- ---------------------------------------------------------------------------

/-- The lengths of the batches of some items where all but the last one are full. -/
def fullLengths (limit n : Nat) : List Nat :=
  List.replicate (n / limit) limit ++ if n % limit = 0 then [] else [n % limit]

theorem fullLengths_add {limit : Nat} (pos : 0 < limit) (n : Nat) :
    fullLengths limit (limit + n) = limit :: fullLengths limit n := by
  rw [fullLengths, Nat.add_div_left n pos, Nat.add_mod_left, List.replicate_succ]
  rfl

theorem fullLengths_of_le {limit n : Nat} (pos : 1 ≤ n) (le : n ≤ limit) :
    fullLengths limit n = [n] := by
  rcases Nat.lt_or_eq_of_le le with less | rfl
  · have some : n ≠ 0 := by omega
    simp [fullLengths, Nat.div_eq_of_lt less, Nat.mod_eq_of_lt less, some]
  · simp [fullLengths, Nat.div_self pos]

theorem lengths_of_full {limit : Nat} {batches : List (List α)}
    (full : ∀ k, k + 1 < batches.length → batches[k]?.map List.length = some limit)
    (fits : ∀ batch ∈ batches, 1 ≤ batch.length ∧ batch.length ≤ limit) :
    batches.map List.length = fullLengths limit batches.flatten.length := by
  induction batches with
  | nil => simp [fullLengths]
  | cons batch rest ih =>
    obtain ⟨nonempty, few⟩ := fits batch (List.mem_cons_self ..)
    cases rest with
    | nil => simpa using (fullLengths_of_le nonempty few).symm
    | cons next rest =>
      have length : batch.length = limit := by simpa using full 0 (by simp)
      have later := ih (fun k early => full (k + 1) (Nat.succ_lt_succ early)) fun other mem =>
        fits other (List.mem_cons_of_mem _ mem)
      have whole : (batch :: next :: rest).flatten.length =
          limit + (next :: rest).flatten.length := by
        rw [List.flatten_cons, List.length_append, length]
      rw [List.map_cons, later, whole, length, fullLengths_add (length ▸ nonempty)]

-- ---------------------------------------------------------------------------
-- What every step keeps
-- ---------------------------------------------------------------------------

namespace Feed

variable {f g : Feed α} {items : List α}

/-- Each item comes as it has to after the one before, and each batch was completed for a
reason. -/
structure Paced (config : BatchConfig) (f : Feed α) (t : Timetable α) : Prop where
  follows : ∀ x y, [x, y] <:+: t.passages → Succeeds config x y
  meets : ∀ k, t.batch (k + 1) ≠ [] → t.Meets k
  stands : Stands config f.batching.input f.millis f.handedOn.length t f.batching.batcher
  closed : ∀ k, k < f.handedOn.length → ∃ x, (t.batch k).getLast? = some x ∧
    Closed config f.batching.input t.passages x f.millis
  shown : ∀ k d, f.delivered[k]? = some d → ∃ x, (t.batch k).getLast? = some x ∧
    Closed config f.batching.input t.passages x d.millis

theorem lt_handedOn {k : Nat} {d : Delivered α} (shown : f.delivered[k]? = some d) :
    k < f.handedOn.length := by
  obtain ⟨bound, -⟩ := List.getElem?_eq_some_iff.mp shown
  rw [handedOn, List.length_append, List.length_map]
  omega

namespace Paced

variable {u : Timetable α}

theorem keep (h : f.Paced config t) (same : u.passages = t.passages)
    (handed : g.handedOn.length = f.handedOn.length) (delivered : g.delivered = f.delivered)
    (later : f.millis ≤ g.millis)
    (ended : f.batching.input.receive = .ended → g.batching.input.receive = .ended)
    (stands : Stands config g.batching.input g.millis f.handedOn.length u g.batching.batcher) :
    g.Paced config u := by
  obtain ⟨waiting, passages⟩ := u
  cases same
  refine ⟨h.follows, h.meets, handed ▸ stands, fun k early => ?_, fun k d shown => ?_⟩
  · obtain ⟨x, last, closed⟩ := h.closed k (handed ▸ early)
    exact ⟨x, last, closed.mono later ended⟩
  · obtain ⟨x, last, closed⟩ := h.shown k d (delivered ▸ shown)
    exact ⟨x, last, closed.mono (Nat.le_refl _) ended⟩

theorem hands (h : f.Paced config t) {batch : List α} {last : Bool}
    (offering : f.batching.batcher = .offering batch last)
    (handed : g.handedOn = f.handedOn ++ [batch]) (delivered : g.delivered = f.delivered)
    (now : g.millis = f.millis)
    (ended : f.batching.input.receive = .ended → g.batching.input.receive = .ended)
    (free : g.batching.batcher = .idle ∨ g.batching.batcher = .stopped) : g.Paced config t := by
  have stands := h.stands
  rw [offering] at stands
  cases stands with
  | @offering _ _ x final here settled =>
    refine ⟨h.follows, h.meets, ?_, fun k early => ?_, fun k d shown => ?_⟩
    · rw [now]
      rcases free with idle | stopped
      · rw [idle]
        refine .idle final ?_ (settled.mono (Nat.le_refl _) ended)
        rw [handed, List.length_append, here, List.length_singleton]
      · exact stopped ▸ .stopped
    · rw [handed, List.length_append, List.length_singleton] at early
      rw [now]
      rcases Nat.lt_or_eq_of_le (Nat.le_of_lt_succ early) with before | rfl
      · obtain ⟨y, last, closed⟩ := h.closed k before
        exact ⟨y, last, closed.mono (Nat.le_refl _) ended⟩
      · exact ⟨x, Timetable.getLast?_batch final here,
          (settled.closed final).mono (Nat.le_refl _) ended⟩
    · obtain ⟨y, last, closed⟩ := h.shown k d (delivered ▸ shown)
      exact ⟨y, last, closed.mono (Nat.le_refl _) ended⟩

theorem short (h : f.Paced config t) (w : f.Written items t) (limit : 1 ≤ config.limit)
    (gathers : f.batching.batcher = .idle ∨
      ∃ batch deadline, f.batching.batcher = .filling batch deadline) :
    f.batching.batcher.held.length < config.limit := by
  rcases gathers with idle | ⟨batch, deadline, filling⟩
  · rw [idle]
    exact limit
  · have stands := h.stands
    rw [filling] at stands
    cases stands with
    | filling last here short =>
      have place := w.place_of_last (Timetable.getLast?_batch last here)
      rw [batchAt_handedOn] at place
      exact place ▸ short

theorem take (h : f.Paced config t) (w : f.Written items t) (setup : f.config = config)
    (limit : 1 ≤ config.limit) {item : α} {input : Channel α} {batch : List α}
    (gathers : f.batching.batcher = .idle ∨
      ∃ batch deadline, f.batching.batcher = .filling batch deadline)
    (received : f.batching.input.receive = .item item input)
    (held : batch = f.batching.batcher.held ++ [item]) :
    ({ f with batching :=
        { f.batching with
          batcher := Batching.grown f.config f.millis batch, input := input } } : Feed α).Paced
      config
      (observe f { f with batching :=
        { f.batching with
          batcher := Batching.grown f.config f.millis batch, input := input } } [] t) := by
  obtain ⟨available, waiting, there, came, written⟩ :=
    w.taken received ((Batching.held_grown f.config f.millis batch).trans held)
  have more : f.batching.input.receive ≠ .ended := by simp [received]
  have length : batch.length = f.batching.batcher.held.length + 1 := by simp [held]
  have few : batch.length ≤ config.limit := length ▸ h.short w limit gathers
  rw [written]
  generalize row : (⟨item, available, f.millis, f.handedOn.length,
    f.batching.batcher.held.length + 1⟩ : Passage α) = p
  have here : p.batch = f.handedOn.length := row ▸ rfl
  have now : f.millis = p.taken := row ▸ rfl
  have place : p.place = batch.length := length ▸ row ▸ rfl
  have arrives : Arrives config t p :=
    h.stands.arrives more gathers (by simp [there, ← row]) (row ▸ came) here (row ▸ rfl)
  have apart (k : Nat) (early : k < f.handedOn.length) :
      Timetable.batch ⟨waiting, t.passages ++ [p]⟩ k = t.batch k :=
    Timetable.batch_add_of_ne (by omega)
  refine ⟨arrives.succeeds h.follows, arrives.meets h.meets fun k later => ?_, ?_,
    fun k early => ?_, fun k d shown => ?_⟩
  · exact List.map_eq_nil_iff.mp ((w.batches k).trans (batchAt_of_gt (here ▸ later)))
  · rw [setup, now]
    exact .grown List.getLast?_concat here place few
  · obtain ⟨x, last, closed⟩ := h.closed k early
    exact ⟨x, (apart k early).symm ▸ last, closed.of_more more⟩
  · obtain ⟨x, last, closed⟩ := h.shown k d shown
    exact ⟨x, (apart k (lt_handedOn shown)).symm ▸ last, closed.of_more more⟩

theorem takes (h : f.Paced config t) {batch : List α} {output : Channel (List α)}
    {consumer : Consumer} (received : f.batching.output.receive = .item batch output) :
    ({ (f.withOutput output) with
      delivered := f.delivered ++ [⟨f.millis, batch⟩], consumer := consumer } : Feed α).Paced
      config t := by
  have items := Channel.items_of_received received
  have handed : ({ (f.withOutput output) with
      delivered := f.delivered ++ [⟨f.millis, batch⟩], consumer := consumer } : Feed α).handedOn =
      f.handedOn := by
    simp [handedOn, withOutput, items]
  refine ⟨h.follows, h.meets, handed.symm ▸ h.stands, fun k early => h.closed k (handed ▸ early),
    fun k d shown => ?_⟩
  change (f.delivered ++ [⟨f.millis, batch⟩])[k]? = some d at shown
  rcases Nat.lt_trichotomy k f.delivered.length with early | rfl | late
  · rw [List.getElem?_append_left early] at shown
    exact h.shown k d shown
  · rw [List.getElem?_concat_length] at shown
    cases shown
    refine h.closed _ ?_
    simp [handedOn, items]
  · have beyond : (f.delivered ++ [⟨f.millis, batch⟩])[k]? = none :=
      List.getElem?_eq_none (by rw [List.length_append]; exact late)
    cases beyond.symm.trans shown

theorem step {sent : List α} (h : f.Paced config t) (w : f.Written items t)
    (calm : f.Undisturbed items) (setup : f.config = config) (limit : 1 ≤ config.limit)
    (step : FeedStep f sent g) : g.Paced config (observe f g sent t) := by
  have stands := h.stands
  cases step with
  | gathers step =>
    rw [calm.going] at step
    cases step with
    | cancels told => cases told
    | fails _ _ full => exact absurd (full.symm.trans calm.room) Bool.false_ne_true
    | begins idle received =>
      exact h.take w setup limit (.inl idle) received (by simp [idle, Batcher.held])
    | adds filling received =>
      exact h.take w setup limit (.inr ⟨_, _, filling⟩) received (by simp [filling, Batcher.held])
    | ends idle ended =>
      rw [observe_still (Nat.zero_le _)]
      refine h.keep rfl rfl rfl (Nat.le_refl _) (fun _ => ?_) .stopped
      exact Channel.receive_eq_ended.mpr ⟨rfl, (Channel.receive_eq_ended.mp ended).2⟩
    | closes filling ended =>
      rw [observe_still (by simp [filling, Batcher.held])]
      refine h.keep rfl rfl rfl (Nat.le_refl _) id ?_
      rw [filling] at stands
      cases stands with
      | filling last here => exact .offering last here (.ended ended)
    | tires filling empty due =>
      rw [observe_still (by simp [filling, Batcher.held])]
      refine h.keep rfl rfl rfl (Nat.le_refl _) id ?_
      rw [filling] at stands
      have nothing : t.waiting = [] := List.map_eq_nil_iff.mp
        (w.waiting.trans (Channel.receive_eq_empty.mp empty).1)
      cases stands with
      | filling last here => exact .offering last here (.idled due (by simp [nothing]))
    | offers offering offered =>
      rw [observe_still (Nat.zero_le _)]
      refine h.hands offering ?_ rfl rfl id (.inl rfl)
      simp [handedOn, Channel.items_of_sent offered]
    | completes offering offered =>
      rw [observe_still (Nat.zero_le _)]
      refine h.hands offering ?_ rfl rfl (fun _ => ?_) (.inr rfl)
      · simp [handedOn, Batching.stop, Channel.items_of_sent offered, Channel.dropSender]
      · exact Channel.receive_eq_ended.mpr ⟨rfl, (calm.lasts.offering _ offering).2⟩
    | abandons offering closed => exact absurd closed (calm.not_abandoned offering)
  | sends playing accepts =>
    have more : f.batching.input.receive ≠ .ended := fun ended => Bool.false_ne_true
      ((Channel.receive_eq_ended.mp ended).2.symm.trans (Channel.eq_of_sent accepts).1)
    rw [observe_come (by rfl)]
    exact h.keep rfl rfl rfl (Nat.le_refl _) (fun ended => absurd ended more) (stands.come more _)
  | refused playing closed => exact absurd closed (calm.not_refused playing)
  | hangsUp =>
    have ended (gone : f.batching.input.receive = .ended) :
        f.batching.input.dropSender.receive = .ended :=
      Channel.receive_eq_ended.mpr ⟨(Channel.receive_eq_ended.mp gone).1, rfl⟩
    rw [observe_still (by exact Nat.le_refl _)]
    refine h.keep rfl rfl rfl (Nat.le_refl _) ended ?_
    exact stands.mono (Nat.le_refl _) ended fun _ _ filling => (filling ▸ stands).due
  | takes waiting received =>
    rw [observe_still (by exact Nat.le_refl _)]
    exact h.takes received
  | leaves waiting why =>
    have nothing := (Channel.receive_eq_ended.mp (calm.output_ended why)).1
    rw [observe_still (by exact Nat.le_refl _)]
    refine h.keep rfl ?_ rfl (Nat.le_refl _) id stands
    simp [handedOn, finish, withOutput, Channel.dropReceiver, nothing]
  | _ =>
    rw [observe_still (by exact Nat.le_refl _)]
    exact h.keep rfl rfl rfl (Nat.le_refl _) id stands

theorem elapses (h : f.Paced config t) {time : Nat} (elapses : system.Elapses f time) :
    ({ f with millis := time } : Feed α).Paced config t := by
  refine h.keep rfl rfl rfl elapses.later id ?_
  refine h.stands.mono elapses.later id fun batch deadline filling => ?_
  exact elapses.due 0 deadline (by simp [system, Batching.deadline?, filling])

end Paced

/-- What holds of a feed that nobody disturbs, with its timetable. -/
structure Timed (config : BatchConfig) (items : List α) (f : Feed α) (t : Timetable α) : Prop where
  calm : f.Undisturbed items
  setup : f.config = config
  written : f.Written items t
  paced : f.Paced config t

theorem FeedStep.config_eq {sent : List α} (step : FeedStep f sent g) : g.config = f.config := by
  cases step <;> rfl

theorem Timed.step {sent : List α} (h : f.Timed config items t) (limit : 1 ≤ config.limit)
    (step : FeedStep f sent g) : g.Timed config items (observe f g sent t) :=
  ⟨h.calm.step step, step.config_eq.trans h.setup, h.written.step h.calm step,
    h.paced.step h.written h.calm h.setup limit step⟩

theorem Timed.observed {u : Timetable α} (h : f.Timed config items t) (limit : 1 ≤ config.limit)
    (observed : f.Observed t g u) : g.Timed config items u := by
  induction observed with
  | init => exact h
  | step i _ moved ih => exact ih.step limit (feedStep_of_step? moved)
  | elapses time _ elapses ih =>
    exact ⟨ih.calm.waits time, ih.setup, ih.written.elapses elapses.later, ih.paced.elapses elapses⟩

-- ---------------------------------------------------------------------------
-- The start and the end
-- ---------------------------------------------------------------------------

section
variable {capacity restMillis : Nat} {script : List (Action α)} {start : Feed α}

theorem timed_start (started : start? config capacity restMillis none script = some start)
    (room : start.config.hasRoom = true) (quiet : .cancel ∉ script) :
    start.Timed { config with limit := max config.limit 1 } (Action.itemsOf script) {} := by
  have calm := undisturbed_start started room quiet
  rw [eq_of_start? started] at calm ⊢
  refine ⟨calm, rfl, ⟨rfl, by simp, rfl, fun k => ?_, fun _ => rfl⟩, ⟨fun x y together => ?_,
    fun k begun => absurd rfl begun, .fresh rfl rfl, fun k early => ?_, fun k d shown => ?_⟩⟩
  · cases k <;> rfl
  · simp at together
  · cases early
  · simp at shown

end

namespace Timed

variable {t : Timetable α}

theorem delivered (h : f.Timed config items t) {k : Nat} {d : Delivered α}
    (shown : f.delivered[k]? = some d) : d.batch = (t.batch k).map Passage.item := by
  rw [h.written.batches, batchAt_of_lt]
  rw [handedOn, List.getElem?_append_left (by simpa using (List.getElem?_eq_some_iff.mp shown).1),
    List.getElem?_map, shown, Option.map_some]

theorem full (h : f.Timed config items t)
    (busy : ∀ x y, [x, y] <:+: t.passages → y.available < x.deadline config) {k : Nat}
    {d e : Delivered α} (shown : f.delivered[k]? = some d) (next : f.delivered[k + 1]? = some e)
    (nonempty : e.batch ≠ []) : d.batch.length = config.limit := by
  obtain ⟨x, y, together, last, first⟩ := h.paced.meets k fun empty => by
    rw [h.delivered next, empty] at nonempty
    exact nonempty rfl
  have here : x.batch = k := by
    simpa [Timetable.batch] using (List.mem_filter.mp (List.mem_of_getLast? last)).2
  have place := h.written.place_of_last last
  rw [← h.written.batches, ← h.delivered shown] at place
  cases h.paced.follows x y together with
  | joins same => omega
  | opens _ _ why =>
    rcases why with full | late
    · exact place.symm.trans full
    · exact absurd (busy x y together) (Nat.not_lt.mpr late)

theorem all_taken (h : f.Timed config items t) (done : f.consumer = .done) :
    t.passages.map Passage.item = items := by
  have empty := (h.calm.lasts.stopped (h.calm.finished done).1).1
  have count := h.calm.count
  have order := h.written.order
  rw [(h.calm.got_all done).2.2] at count
  have played : Action.itemsOf f.producer.script = [] := List.eq_nil_of_length_eq_zero (by omega)
  simpa [empty, played] using order

theorem lengths (h : f.Timed config items t) (limit : 1 ≤ config.limit)
    (fits : ∀ d ∈ f.delivered, Batching.Fits config.limit d.batch) (done : f.consumer = .done)
    (busy : ∀ x y, [x, y] <:+: t.passages → y.available < x.deadline config) :
    f.delivered.map (fun d => d.batch.length) = fullLengths config.limit items.length := by
  have whole : (f.delivered.map Delivered.batch).flatten = items :=
    (h.calm.got_all done).2.1
  rw [← whole, ← lengths_of_full (fun k early => ?_) fun batch mem => ?_, List.map_map]
  · rfl
  · rw [List.length_map] at early
    have there := List.getElem?_eq_getElem (Nat.lt_of_succ_lt early)
    have next := List.getElem?_eq_getElem early
    have nonempty := (fits _ (List.getElem_mem early)).1
    rw [List.getElem?_map, there, Option.map_some, Option.map_some,
      h.full busy there next (List.ne_nil_of_length_pos nonempty)]
  · obtain ⟨d, delivered, rfl⟩ := List.mem_map.mp mem
    obtain ⟨nonempty, few⟩ := fits d delivered
    exact ⟨nonempty, by omega⟩

end Timed

end Feed

/-- Whatever the script, the rests of the consumer and the order of the steps, as long as no
time passes while somebody can go on: an item is in the batch of the one before where that
was not full and it came before the idle time was over, and begins a new batch where that
was full or it came after. A batch below the limit was completed by an idle time, or by the
end of the input. The end comes, and where nobody was late all batches are full but for the
last. -/
theorem flush_rule {config : BatchConfig} {capacity restMillis : Nat} {script : List (Action α)}
    {start : Feed α}
    (started : Feed.start? config capacity restMillis none script = some start)
    (room : start.config.hasRoom = true) (quiet : .cancel ∉ script) {f : Feed α} {t : Timetable α}
    (observed : start.Observed {} f t) :
    f.Written (Action.itemsOf script) t ∧
    (∀ k d, f.delivered[k]? = some d → d.batch = (t.batch k).map Passage.item) ∧
    (∀ x y, [x, y] <:+: t.passages →
      (x.place < max config.limit 1 → y.available < x.deadline config → y.batch = x.batch) ∧
      (x.place = max config.limit 1 ∨ x.deadline config < y.available →
        y.batch = x.batch + 1 ∧ y.place = 1)) ∧
    (∀ k d, f.delivered[k]? = some d → d.batch.length < max config.limit 1 →
      ∃ x, (t.batch k).getLast? = some x ∧
        (x.deadline config ≤ d.millis ∨
          f.batching.input.receive = .ended ∧ t.passages.getLast? = some x)) ∧
    Feed.system.Inevitable (fun g => g.consumer = .done) f ∧
    (∃ g u, f.Observed t g u ∧ g.consumer = .done) ∧
    (f.consumer = .done →
      t.passages.map Passage.item = Action.itemsOf script ∧
      ((∀ x y, [x, y] <:+: t.passages → y.available < x.deadline config) →
        f.delivered.map (fun d => d.batch.length) =
          fullLengths (max config.limit 1) (Action.itemsOf script).length)) := by
  have limit : 1 ≤ max config.limit 1 := Nat.le_max_right ..
  have h := (Feed.timed_start started room quiet).observed limit observed
  obtain ⟨sent, course⟩ := Feed.course_of_reaches observed.prompt.reaches
  have traces := course.traces (Feed.traces_start started)
  refine ⟨h.written, fun k d => h.delivered, fun x y successive => ?_, fun k d shown short => ?_,
    h.calm.inevitable, h.calm.exists_end t, fun done => ⟨h.all_taken done, fun busy => ?_⟩⟩
  · have follows := h.paced.follows x y successive
    exact ⟨follows.together, follows.apart⟩
  · obtain ⟨x, last, closed⟩ := h.paced.shown k d shown
    have place := h.written.place_of_last last
    rw [← h.written.batches, ← h.delivered shown] at place
    refine ⟨x, last, ?_⟩
    cases closed with
    | full full => exact absurd (place.symm.trans full) (Nat.ne_of_lt short)
    | idled idled => exact .inl idled
    | ended ended final => exact .inr ⟨ended, final⟩
  · exact h.lengths limit traces.fits done busy

def lateFourth : Feed Nat := numbers 2 [.send 1, .send 2, .send 3, .sleep 9, .send 4]

/-- The third item is alone in its batch, as the fourth comes after the idle time. -/
theorem lateFourth_splits :
    lateFourth.config.hasRoom = true ∧ ∃ f t, lateFourth.Observed {} f t ∧ f.consumer = .done ∧
      (∃ x y, [x, y] <:+: t.passages ∧ x.deadline lateFourth.config < y.available ∧
        y.batch = x.batch + 1 ∧ y.place = 1) ∧
      f.delivered.map Delivered.batch = [[1, 2], [3], [4]] := by
  have started : Feed.start? { limit := 2, idleMillis := 5, itemWidth := 8 } 1 0 none
      [.send 1, .send 2, .send 3, .sleep 9, .send 4] = some lateFourth := rfl
  have room : lateFourth.config.hasRoom = true := by decide
  have observed := Feed.observed_play 40 lateFourth {}
  have rule := (flush_rule started room (by simp) observed).2.2.1 ⟨3, 0, 0, 1, 1⟩ ⟨4, 9, 9, 2, 1⟩
    ⟨[⟨1, 0, 0, 0, 1⟩, ⟨2, 0, 0, 0, 2⟩], [], by decide +kernel⟩
  have late : Passage.deadline lateFourth.config (⟨3, 0, 0, 1, 1⟩ : Passage Nat) < 9 := by decide
  refine ⟨room, _, _, observed, by decide +kernel, ⟨⟨3, 0, 0, 1, 1⟩, ⟨4, 9, 9, 2, 1⟩, ?_, late,
    rule.2 (.inr late)⟩, by decide +kernel⟩
  exact ⟨[⟨1, 0, 0, 0, 1⟩, ⟨2, 0, 0, 0, 2⟩], [], by decide +kernel⟩

/-- Two items at once, and a limit for which no room can be reserved: both are sent, and in
place of one batch of two there is none. -/
theorem vastLimit_loses_both :
    ∃ start : Feed Nat,
      Feed.start? { limit := 18446744073709551615, idleMillis := 5, itemWidth := 8 } 1024 0 none
        [.send 1, .send 2] = some start ∧
      start.run.sent = 2 ∧ start.run.consumer = .done ∧
      start.run.batching.output.receive = .ended ∧
      start.run.delivered.map (fun d => d.batch.length) = [] ∧
      fullLengths 18446744073709551615 2 = [2] := by
  refine ⟨_, rfl, ?_, ?_, Channel.receive_eq_ended.mpr ?_, ?_, ?_⟩
  all_goals decide +kernel

end Candlestick
