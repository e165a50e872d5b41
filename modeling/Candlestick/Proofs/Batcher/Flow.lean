import Candlestick.Batcher.Basic

/-!
# What goes through a batcher

`BatchStep` lists what one step of a batcher can do. An item that was sent to it stands in a
batch that was taken, in one on the output, in the batch that is being gathered, or in the
input, in this order (`Carries`): every step keeps that, as long as the batcher runs and
somebody takes its batches.
-/

namespace Candlestick

variable {α : Type} {config : BatchConfig} {now : Nat} {cancelled : Bool} {b next : Batching α}
  {sent taken : List α}

def Batcher.held : Batcher α → List α
  | .filling batch _ => batch
  | .offering batch _ => batch
  | _ => []

def Batcher.effort : Batcher α → Nat
  | .idle => 1
  | .filling _ _ => 5
  | .offering _ _ => 4
  | .stopped => 0

namespace Batching

-- ---------------------------------------------------------------------------
-- Steps
-- ---------------------------------------------------------------------------

inductive BatchStep (config : BatchConfig) (now : Nat) (cancelled : Bool) (b : Batching α) :
    Batching α → Prop
  /-- It was told to stop. -/
  | cancels : cancelled = true → b.batcher ≠ .stopped → BatchStep config now cancelled b b.stop
  | begins {item : α} {input : Channel α} :
      b.batcher = .idle → b.input.receive = .item item input → config.hasRoom = true →
      BatchStep config now cancelled b
        { b with batcher := grown config now [item], input := input }
  /-- There is no room for a batch. -/
  | fails {item : α} {input : Channel α} :
      b.batcher = .idle → b.input.receive = .item item input → config.hasRoom = false →
      BatchStep config now cancelled b { b with input := input }.stop
  | ends : b.batcher = .idle → b.input.receive = .ended → BatchStep config now cancelled b b.stop
  | adds {batch : List α} {deadline : Nat} {item : α} {input : Channel α} :
      b.batcher = .filling batch deadline → b.input.receive = .item item input →
      BatchStep config now cancelled b
        { b with batcher := grown config now (batch ++ [item]), input := input }
  /-- The input has ended. -/
  | closes {batch : List α} {deadline : Nat} :
      b.batcher = .filling batch deadline → b.input.receive = .ended →
      BatchStep config now cancelled b { b with batcher := .offering batch true }
  /-- No item came in time. -/
  | tires {batch : List α} {deadline : Nat} :
      b.batcher = .filling batch deadline → b.input.receive = .empty → deadline ≤ now →
      BatchStep config now cancelled b { b with batcher := .offering batch false }
  | offers {batch : List α} {output : Channel (List α)} :
      b.batcher = .offering batch false → b.output.send batch = .sent output →
      BatchStep config now cancelled b { b with batcher := .idle, output := output }
  | completes {batch : List α} {output : Channel (List α)} :
      b.batcher = .offering batch true → b.output.send batch = .sent output →
      BatchStep config now cancelled b { b with output := output }.stop
  /-- Nobody takes batches any more. -/
  | abandons {batch : List α} {last : Bool} :
      b.batcher = .offering batch last → b.output.send batch = .closed →
      BatchStep config now cancelled b b.stop

theorem batchStep_of_step? (h : b.step? config now cancelled = some next) :
    BatchStep config now cancelled b next := by
  unfold step? at h
  split at h
  · cases h
  · next idle =>
    split at h
    · next told =>
      cases h
      exact .cancels told (by simp [idle])
    · split at h
      · next received =>
        split at h
        · next room =>
          cases h
          exact .begins idle received room
        · next full =>
          cases h
          exact .fails idle received (by simpa using full)
      · next ended =>
        cases h
        exact .ends idle ended
      · cases h
  · next batch deadline filling =>
    split at h
    · next told =>
      cases h
      exact .cancels told (by simp [filling])
    · split at h
      · next received =>
        cases h
        exact .adds filling received
      · next ended =>
        cases h
        exact .closes filling ended
      · next empty =>
        split at h
        · next due =>
          cases h
          exact .tires filling empty due
        · cases h
  · next batch last offering =>
    split at h
    · next told =>
      cases h
      exact .cancels told (by simp [offering])
    · split at h
      · next sent =>
        split at h
        · next final =>
          cases h
          exact .completes (final ▸ offering) sent
        · next more =>
          have unfinished : last = false := by simpa using more
          cases h
          exact .offers (unfinished ▸ offering) sent
      · next closed =>
        cases h
        exact .abandons offering closed
      · cases h

theorem held_grown (config : BatchConfig) (now : Nat) (batch : List α) :
    (grown config now batch).held = batch := by
  unfold grown
  split <;> rfl

theorem grown_ne_stopped (config : BatchConfig) (now : Nat) (batch : List α) :
    grown config now batch ≠ .stopped := by
  unfold grown
  split <;> exact fun same => nomatch same

theorem grown_ne_offering_last (config : BatchConfig) (now : Nat) (batch full : List α) :
    grown config now batch ≠ .offering full true := by
  unfold grown
  split <;> exact fun same => nomatch same

theorem BatchStep.running (step : BatchStep config now cancelled b next) :
    b.batcher ≠ .stopped := by
  cases step with
  | cancels told running => exact running
  | _ => simp [*]

-- ---------------------------------------------------------------------------
-- Items on their way
-- ---------------------------------------------------------------------------

/-- The items on their way, those that came first at the front. -/
def flow (b : Batching α) : List α := b.output.items.flatten ++ b.batcher.held ++ b.input.items

theorem flow_received {item : α} {input : Channel α} {batch : List α}
    (received : b.input.receive = .item item input) (held : b.batcher.held = batch)
    (config : BatchConfig) (now : Nat) :
    ({ b with batcher := grown config now (batch ++ [item]), input := input } :
      Batching α).flow = b.flow := by
  simp [flow, held_grown, held, Channel.items_of_received received]

theorem flow_offered {batch : List α} {output : Channel (List α)}
    (offered : b.output.send batch = .sent output) (held : b.batcher.held = batch) :
    output.items.flatten ++ b.input.items = b.flow := by
  simp [flow, held, Channel.items_of_sent offered]

theorem BatchStep.flow_cases (step : BatchStep config now cancelled b next) :
    (next.batcher ≠ .stopped ∧ next.flow = b.flow) ∨
    (next.batcher = .stopped ∧ next.input.hasReceiver = false ∧
      next.output.items.flatten <+: b.flow) := by
  have output : b.output.items.flatten <+: b.flow :=
    (List.prefix_append ..).trans (List.prefix_append ..)
  cases step with
  | begins idle received =>
    have held : b.batcher.held = [] := by simp [idle, Batcher.held]
    exact .inl ⟨grown_ne_stopped _ _ _, flow_received received held config now⟩
  | adds filling received =>
    have held := congrArg Batcher.held filling
    exact .inl ⟨grown_ne_stopped _ _ _, flow_received received held config now⟩
  | closes filling | tires filling =>
    exact .inl ⟨fun same => (nomatch same), by simp [flow, filling, Batcher.held]⟩
  | offers offering offered =>
    have moved := flow_offered offered (congrArg Batcher.held offering)
    exact .inl ⟨fun same => (nomatch same), by simpa [flow, Batcher.held] using moved⟩
  | completes offering offered =>
    have moved := flow_offered offered (congrArg Batcher.held offering)
    exact .inr ⟨rfl, rfl, ⟨_, moved⟩⟩
  | _ => exact .inr ⟨rfl, rfl, output⟩

theorem BatchStep.output_eq (step : BatchStep config now cancelled b next) :
    next.output.hasReceiver = b.output.hasReceiver ∧
      (b.output.hasReceiver = false → next.output.items = b.output.items) := by
  have joined : ∀ {batch : List α} {output : Channel (List α)},
      b.output.send batch = .sent output → output.hasReceiver = b.output.hasReceiver ∧
        (b.output.hasReceiver = false → output.items = b.output.items) := by
    intro batch output offered
    obtain ⟨-, listening, rfl⟩ := Channel.eq_of_sent offered
    exact ⟨rfl, fun gone => absurd (gone.symm.trans listening) Bool.false_ne_true⟩
  cases step with
  | offers offering offered => exact joined offered
  | completes offering offered => simpa [stop, Channel.dropSender] using joined offered
  | _ => exact ⟨rfl, fun _ => rfl⟩

/-- Where the items are that were sent, some of them taken in batches. -/
structure Carries (b : Batching α) (sent taken : List α) : Prop where
  /-- What is on the output comes right after what was taken. -/
  first : taken ++ b.output.items.flatten <+: sent
  /-- Nothing is lost while the batcher runs and somebody takes its batches. -/
  whole : b.batcher ≠ .stopped → b.output.hasReceiver = true → taken ++ b.flow = sent
  deaf : b.batcher = .stopped → b.input.hasReceiver = false

namespace Carries

theorem init (idle : b.batcher = .idle) (input : b.input.items = [])
    (output : b.output.items = []) : b.Carries [] [] :=
  ⟨by simp [output], by simp [flow, idle, input, output, Batcher.held], by simp [idle]⟩

theorem step (h : b.Carries sent taken) (step : BatchStep config now cancelled b next) :
    next.Carries sent taken := by
  obtain ⟨receiver, kept⟩ := step.output_eq
  by_cases listening : b.output.hasReceiver = true
  · have whole := h.whole step.running listening
    rcases step.flow_cases with ⟨going, same⟩ | ⟨stopped, deaf, first⟩
    · have moved := whole
      rw [← same] at moved
      refine ⟨?_, fun _ _ => moved, fun stopped => absurd stopped going⟩
      rw [← moved, List.prefix_append_right_inj, flow, List.append_assoc]
      exact List.prefix_append ..
    · refine ⟨?_, fun going => absurd stopped going, fun _ => deaf⟩
      rwa [← whole, List.prefix_append_right_inj]
  · refine ⟨?_, fun _ heard => absurd (receiver ▸ heard) listening, fun stopped => ?_⟩
    · rw [kept (by simpa using listening)]
      exact h.first
    · rcases step.flow_cases with ⟨going, -⟩ | ⟨-, deaf, -⟩
      · exact absurd stopped going
      · exact deaf

theorem sends {item : α} {input : Channel α} (h : b.Carries sent taken)
    (accepted : b.input.send item = .sent input) :
    ({ b with input := input } : Batching α).Carries (sent ++ [item]) taken := by
  have running : b.batcher ≠ .stopped := by
    intro stopped
    simp [Channel.send, h.deaf stopped] at accepted
  refine ⟨h.first.trans (List.prefix_append ..), fun _ listening => ?_,
    fun stopped => absurd stopped running⟩
  rw [← h.whole running listening]
  simp [flow, Channel.items_of_sent accepted]

theorem takes {batch : List α} {output : Channel (List α)} (h : b.Carries sent taken)
    (received : b.output.receive = .item batch output) :
    ({ b with output := output } : Batching α).Carries sent (taken ++ batch) := by
  obtain ⟨items, same⟩ := Channel.eq_of_received received
  have receiver : output.hasReceiver = b.output.hasReceiver := by rw [same]
  refine ⟨?_, fun running listening => ?_, h.deaf⟩
  · simpa [items] using h.first
  · rw [← h.whole running (receiver ▸ listening)]
    simp [flow, items]

theorem hangsUp (h : b.Carries sent taken) :
    ({ b with input := b.input.dropSender } : Batching α).Carries sent taken :=
  ⟨h.first, h.whole, h.deaf⟩

theorem leaves (h : b.Carries sent taken) :
    ({ b with output := b.output.dropReceiver } : Batching α).Carries sent taken := by
  refine ⟨?_, fun _ listening => (nomatch listening), h.deaf⟩
  simpa [Channel.dropReceiver] using (List.prefix_append ..).trans h.first

end Carries

-- ---------------------------------------------------------------------------
-- The ends of the channels
-- ---------------------------------------------------------------------------

structure Joined (b : Batching α) : Prop where
  reading : b.input.hasReceiver = true ↔ b.batcher ≠ .stopped
  writing : b.output.hasSender = true ↔ b.batcher ≠ .stopped
  inward : 0 < b.input.capacity
  outward : 0 < b.output.capacity

theorem BatchStep.far_ends (step : BatchStep config now cancelled b next) :
    next.input.hasSender = b.input.hasSender ∧ next.output.hasReceiver = b.output.hasReceiver := by
  refine ⟨?_, step.output_eq.1⟩
  cases step with
  | begins _ received | fails _ received | adds _ received =>
    exact (congrArg Channel.hasSender (Channel.eq_of_received received).2 :)
  | _ => rfl

namespace Joined

theorem init (inward outward : Nat) :
    (⟨.idle, .create inward, .create outward⟩ : Batching α).Joined :=
  ⟨by simp [Channel.create], by simp [Channel.create], Channel.create_capacity_pos inward,
    Channel.create_capacity_pos outward⟩

theorem stop (h : b.Joined) : b.stop.Joined :=
  ⟨⟨fun gone => (nomatch gone), fun running => absurd rfl running⟩,
    ⟨fun gone => (nomatch gone), fun running => absurd rfl running⟩, h.inward, h.outward⟩

theorem goes_on (h : b.Joined) {batcher : Batcher α} (running : b.batcher ≠ .stopped)
    (going : batcher ≠ .stopped) : ({ b with batcher := batcher } : Batching α).Joined :=
  ⟨⟨fun _ => going, fun _ => h.reading.mpr running⟩,
    ⟨fun _ => going, fun _ => h.writing.mpr running⟩, h.inward, h.outward⟩

theorem receives (h : b.Joined) {item : α} {input : Channel α}
    (received : b.input.receive = .item item input) :
    ({ b with input := input } : Batching α).Joined := by
  rw [(Channel.eq_of_received received).2]
  exact ⟨h.reading, h.writing, h.inward, h.outward⟩

theorem offers (h : b.Joined) {batch : List α} {output : Channel (List α)}
    (offered : b.output.send batch = .sent output) :
    ({ b with output := output } : Batching α).Joined := by
  rw [(Channel.eq_of_sent offered).2.2]
  exact ⟨h.reading, h.writing, h.inward, h.outward⟩

theorem step (h : b.Joined) (step : BatchStep config now cancelled b next) : next.Joined := by
  cases step with
  | begins idle received | adds idle received =>
    exact (h.receives received).goes_on (by simp [idle]) (grown_ne_stopped _ _ _)
  | fails idle received => exact (h.receives received).stop
  | closes filling | tires filling => exact h.goes_on (by simp [filling]) nofun
  | offers offering offered => exact (h.offers offered).goes_on (by simp [offering]) nofun
  | completes offering offered => exact (h.offers offered).stop
  | _ => exact h.stop

theorem sends (h : b.Joined) {item : α} {input : Channel α}
    (accepted : b.input.send item = .sent input) :
    ({ b with input := input } : Batching α).Joined := by
  rw [(Channel.eq_of_sent accepted).2.2]
  exact ⟨h.reading, h.writing, h.inward, h.outward⟩

theorem takes (h : b.Joined) {batch : List α} {output : Channel (List α)}
    (received : b.output.receive = .item batch output) :
    ({ b with output := output } : Batching α).Joined := by
  rw [(Channel.eq_of_received received).2]
  exact ⟨h.reading, h.writing, h.inward, h.outward⟩

end Joined

-- ---------------------------------------------------------------------------
-- Batchers that nobody disturbs
-- ---------------------------------------------------------------------------

/-- A batcher that has stopped or is about to has come to the end of its input. -/
structure Lasts (b : Batching α) : Prop where
  offering : ∀ batch, b.batcher = .offering batch true →
    b.input.items = [] ∧ b.input.hasSender = false
  stopped : b.batcher = .stopped → b.input.items = [] ∧ b.input.hasSender = false

namespace Lasts

theorem init (idle : b.batcher = .idle) : b.Lasts := ⟨by simp [idle], by simp [idle]⟩

theorem gathers (now : Nat) (batch : List α) (input : Channel α) :
    ({ b with batcher := grown config now batch, input := input } : Batching α).Lasts :=
  ⟨fun _ same => absurd same (grown_ne_offering_last _ _ _ _),
    fun stopped => absurd stopped (grown_ne_stopped _ _ _)⟩

/-- With room for a batch, and somebody who takes it, a batcher that is not told to stop
goes on until its input has ended, and loses nothing. -/
theorem step (h : b.Lasts) (step : BatchStep config now false b next) (joined : b.Joined)
    (room : config.hasRoom = true) (listening : b.output.hasReceiver = true) :
    next.Lasts ∧ next.flow = b.flow := by
  have going (same : next.batcher ≠ .stopped) : next.flow = b.flow :=
    (step.flow_cases.resolve_right fun stops => same stops.1).2
  cases step with
  | cancels told => cases told
  | fails idle received full => exact absurd (full.symm.trans room) Bool.false_ne_true
  | begins | adds => exact ⟨gathers _ _ _, going (grown_ne_stopped _ _ _)⟩
  | ends idle ended =>
    have atEnd := Channel.receive_eq_ended.mp ended
    exact ⟨⟨fun _ same => (nomatch same), fun _ => ⟨rfl, atEnd.2⟩⟩,
      by simp [flow, stop, idle, Batcher.held, atEnd.1, Channel.dropReceiver, Channel.dropSender]⟩
  | closes filling ended =>
    exact ⟨⟨fun _ _ => Channel.receive_eq_ended.mp ended, fun same => (nomatch same)⟩,
      going nofun⟩
  | tires | offers =>
    exact ⟨⟨fun _ same => (nomatch same), fun same => (nomatch same)⟩, going nofun⟩
  | completes offering offered =>
    have atEnd := h.offering _ offering
    have moved := flow_offered offered (congrArg Batcher.held offering)
    exact ⟨⟨fun _ same => (nomatch same), fun _ => ⟨rfl, atEnd.2⟩⟩,
      by simpa [flow, stop, Batcher.held, atEnd.1, Channel.dropReceiver, Channel.dropSender]
        using moved⟩
  | abandons offering closed =>
    have sender := joined.writing.mpr (by simp [offering])
    simp [Channel.send_eq_closed, sender, listening] at closed

theorem sends {item : α} {input : Channel α} (h : b.Lasts)
    (accepted : b.input.send item = .sent input) :
    ({ b with input := input } : Batching α).Lasts := by
  have joined := (Channel.eq_of_sent accepted).1
  exact ⟨fun batch last => absurd ((h.offering batch last).2.symm.trans joined) Bool.false_ne_true,
    fun stopped => absurd ((h.stopped stopped).2.symm.trans joined) Bool.false_ne_true⟩

theorem takes (h : b.Lasts) (output : Channel (List α)) :
    ({ b with output := output } : Batching α).Lasts :=
  ⟨h.offering, h.stopped⟩

theorem hangsUp (h : b.Lasts) : ({ b with input := b.input.dropSender } : Batching α).Lasts :=
  ⟨fun batch last => ⟨(h.offering batch last).1, rfl⟩,
    fun stopped => ⟨(h.stopped stopped).1, rfl⟩⟩

theorem flow_eq_nil (h : b.Lasts) (joined : b.Joined) (listening : b.output.hasReceiver = true)
    (waits : b.step? config now false = none) (untimed : b.deadline? = none)
    (taken : b.output.items = []) : b.flow = [] := by
  unfold step? at waits
  cases stands : b.batcher with
  | stopped => simp [flow, stands, Batcher.held, taken, (h.stopped stands).1]
  | idle =>
    simp only [stands, Bool.false_eq_true, if_false] at waits
    cases received : b.input.receive with
    | item item input =>
      simp only [received] at waits
      split at waits <;> cases waits
    | ended => simp [received] at waits
    | empty =>
      simp [flow, stands, Batcher.held, taken, (Channel.receive_eq_empty.mp received).1]
  | filling batch deadline => simp [deadline?, stands] at untimed
  | offering batch last =>
    have sender := joined.writing.mpr (by simp [stands])
    have room := joined.outward
    simp only [stands, Bool.false_eq_true, if_false, Channel.send, sender, listening, taken,
      List.length_nil, room, Bool.and_self, if_true] at waits
    split at waits <;> cases waits

end Lasts

-- ---------------------------------------------------------------------------
-- Sizes
-- ---------------------------------------------------------------------------

/-- A batch that may be handed out: not empty, and not over the limit. -/
def Fits (limit : Nat) (batch : List α) : Prop := 1 ≤ batch.length ∧ batch.length ≤ max limit 1

structure Sized (limit : Nat) (b : Batching α) : Prop where
  filling : ∀ batch deadline, b.batcher = .filling batch deadline →
    1 ≤ batch.length ∧ batch.length < limit
  offering : ∀ batch last, b.batcher = .offering batch last → Fits limit batch
  queued : ∀ batch ∈ b.output.items, Fits limit batch

namespace Sized

theorem init (idle : b.batcher = .idle) (output : b.output.items = []) (limit : Nat) :
    b.Sized limit :=
  ⟨by simp [idle], by simp [idle], by simp [output]⟩

theorem stop {limit : Nat} (queued : ∀ batch ∈ b.output.items, Fits limit batch) :
    b.stop.Sized limit :=
  ⟨fun _ _ same => (nomatch same), fun _ _ same => (nomatch same), queued⟩

theorem grown {batch : List α} {input : Channel α}
    (queued : ∀ batch ∈ b.output.items, Fits config.limit batch) (now : Nat)
    (nonempty : 1 ≤ batch.length) (few : batch.length ≤ max config.limit 1) :
    ({ b with batcher := grown config now batch, input := input } : Batching α).Sized
      config.limit := by
  by_cases full : config.limit ≤ batch.length
  · have offering : Batching.grown config now batch = .offering batch false := if_pos full
    rw [offering]
    refine ⟨fun _ _ same => (nomatch same), fun _ _ same => ?_, queued⟩
    cases same
    exact ⟨nonempty, few⟩
  · have filling : Batching.grown config now batch =
        .filling batch (now + config.idleMillis) := if_neg full
    rw [filling]
    refine ⟨fun _ _ same => ?_, fun _ _ same => (nomatch same), queued⟩
    cases same
    exact ⟨nonempty, by omega⟩

theorem offers {batch : List α} {last : Bool} {output : Channel (List α)} {limit : Nat}
    (h : b.Sized limit) (offering : b.batcher = .offering batch last)
    (offered : b.output.send batch = .sent output) :
    ∀ batch ∈ output.items, Fits limit batch := by
  rw [Channel.items_of_sent offered]
  exact List.forall_mem_append.mpr ⟨h.queued, by simpa using h.offering batch last offering⟩

theorem step (h : b.Sized config.limit) (step : BatchStep config now cancelled b next) :
    next.Sized config.limit := by
  cases step with
  | cancels => exact stop h.queued
  | begins => exact grown h.queued now (by simp) (Nat.le_max_right ..)
  | fails => exact stop (b := { b with input := _ }) h.queued
  | ends => exact stop h.queued
  | adds filling =>
    have held := h.filling _ _ filling
    exact grown h.queued now (by simp) (by simp; omega)
  | closes filling | tires filling =>
    have held := h.filling _ _ filling
    refine ⟨fun _ _ same => (nomatch same), fun _ _ same => ?_, h.queued⟩
    cases same
    exact ⟨held.1, by omega⟩
  | offers offering offered =>
    exact ⟨fun _ _ same => (nomatch same), fun _ _ same => (nomatch same),
      h.offers offering offered⟩
  | completes offering offered =>
    exact stop (b := { b with output := _ }) (h.offers offering offered)
  | abandons => exact stop h.queued

end Sized

-- ---------------------------------------------------------------------------
-- Effort
-- ---------------------------------------------------------------------------

def effort (b : Batching α) : Nat :=
  6 * b.input.items.length + b.batcher.effort + 2 * b.output.items.length

theorem effort_grown_le (config : BatchConfig) (now : Nat) (batch : List α) :
    (grown config now batch).effort ≤ 5 := by
  unfold grown
  split <;> simp [Batcher.effort]

theorem effort_stop (b : Batching α) : b.stop.effort = 2 * b.output.items.length := by
  simp [effort, stop, Batcher.effort, Channel.dropReceiver, Channel.dropSender]

theorem effort_stop_lt (running : b.batcher ≠ .stopped) : b.stop.effort < b.effort := by
  have more : 0 < b.batcher.effort := by
    cases h : b.batcher with
    | stopped => exact absurd h running
    | _ => exact Nat.zero_lt_succ _
  rw [effort_stop, effort]
  omega

theorem BatchStep.effort_lt (step : BatchStep config now cancelled b next) :
    next.effort < b.effort := by
  cases step with
  | @begins item input idle received room =>
    have grown := effort_grown_le config now [item]
    simp only [effort, Channel.items_of_received received, List.length_cons, idle] at grown ⊢
    omega
  | @adds batch deadline item input filling received =>
    have grown := effort_grown_le config now (batch ++ [item])
    simp only [effort, Channel.items_of_received received, List.length_cons, filling] at grown ⊢
    omega
  | fails idle received =>
    rw [effort_stop]
    simp only [effort, Channel.items_of_received received, List.length_cons]
    omega
  | closes filling | tires filling =>
    simp only [effort, filling, Batcher.effort]
    omega
  | offers offering offered =>
    simp only [effort, offering, Batcher.effort, Channel.items_of_sent offered,
      List.length_append, List.length_singleton]
    omega
  | completes offering offered =>
    rw [effort_stop]
    simp only [effort, offering, Batcher.effort, Channel.items_of_sent offered,
      List.length_append, List.length_singleton]
    omega
  | cancels _ running => exact effort_stop_lt running
  | ends idle => exact effort_stop_lt (by simp [idle])
  | abandons offering => exact effort_stop_lt (by simp [offering])

end Batching

end Candlestick
