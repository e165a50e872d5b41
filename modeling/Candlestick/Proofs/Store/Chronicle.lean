import Candlestick.Proofs.Calendar.Steady
import Candlestick.Proofs.Store.Transition
import Mathlib.Data.List.Induction

/-!
# The events of a pair

What a store publishes about one pair is a chronicle: the pair is opened once without
prices, then its live bucket is updated, and every bucket that follows is announced by
closing the one before, as it was told last, and opening a flat successor
(`notices_chronicle`).
-/

namespace Candlestick

/-- An event with the clock reading of the request that published it. -/
structure Notice where
  now : Instant
  event : Event
  deriving DecidableEq

namespace Notice

def openTime (n : Notice) : Instant := n.event.candle.openTime

def closes (start : Instant) (n : Notice) : Bool :=
  n.event.kind = .closed && n.openTime = start

end Notice

def noticesOf (pair : Pair) (steps : List Transition) : List Notice :=
  steps.flatMap fun step =>
    (Event.toldOf pair step.served.events).map (Notice.mk step.dated.now)

/-- The notices of a pair, the first one first, up to the candle told last. -/
inductive Chronicle : List Notice → Candle → Prop
  /-- The first bucket opens without prices. -/
  | opened (now : Instant) {c : Candle} :
      c.open = none → c.high = none → c.low = none → c.close = none → c.volume = .zero →
      Chronicle [⟨now, .opened c⟩] c
  /-- The bucket stays the same. -/
  | updated {told : List Notice} {c next : Candle} (now : Instant) :
      Chronicle told c → next.openTime = c.openTime →
      Chronicle (told ++ [⟨now, .updated next⟩]) next
  /-- The bucket is closed as it was told last, not before its end, and a later
  one opens with its close. -/
  | rolled {told : List Notice} {c next : Candle} {now : Instant} :
      Chronicle told c → c.closeTime.nanos ≤ now.nanos →
      next.open = c.close → next.high = c.close → next.low = c.close → next.close = c.close →
      next.volume = .zero → c.openTime.nanos < next.openTime.nanos →
      Chronicle (told ++ [⟨now, .closed c⟩, ⟨now, .opened next⟩]) next

def closings (start : Instant) (told : List Notice) : Nat :=
  told.countP (Notice.closes start)

namespace Chronicle

variable {told : List Notice} {c : Candle}

theorem openTime_le (h : Chronicle told c) :
    ∀ n ∈ told, n.openTime.nanos ≤ c.openTime.nanos := by
  induction h with
  | opened now =>
    intro n hn
    rw [List.mem_singleton.mp hn]
    exact Int.le_refl _
  | updated now _ same ih =>
    intro n hn
    rw [same]
    rcases List.mem_append.mp hn with hn | hn
    · exact ih n hn
    · rw [List.mem_singleton.mp hn]
      exact Int.le_of_eq (congrArg Instant.nanos same)
  | rolled _ _ _ _ _ _ _ later ih =>
    intro n hn
    rcases List.mem_append.mp hn with hn | hn
    · exact Int.le_of_lt (Int.lt_of_le_of_lt (ih n hn) later)
    · simp only [List.mem_cons, List.not_mem_nil, or_false] at hn
      rcases hn with rfl | rfl
      · exact Int.le_of_lt later
      · exact Int.le_refl _

theorem ordered (h : Chronicle told c) :
    told.Pairwise fun a b => a.openTime.nanos ≤ b.openTime.nanos := by
  induction h with
  | opened now => exact List.pairwise_singleton _ _
  | updated now before same ih =>
    refine List.pairwise_append.mpr ⟨ih, List.pairwise_singleton _ _, fun a ha b hb => ?_⟩
    rw [List.mem_singleton.mp hb]
    exact Int.le_trans (before.openTime_le a ha) (Int.le_of_eq (congrArg Instant.nanos same).symm)
  | rolled before _ _ _ _ _ _ later ih =>
    refine List.pairwise_append.mpr ⟨ih, ?_, fun a ha b hb => ?_⟩
    · exact List.pairwise_pair.mpr (Int.le_of_lt later)
    · have upTo := before.openTime_le a ha
      simp only [List.mem_cons, List.not_mem_nil, or_false] at hb
      rcases hb with rfl | rfl
      · exact upTo
      · exact Int.le_trans upTo (Int.le_of_lt later)

theorem closings_append (start : Instant) (first second : List Notice) :
    closings start (first ++ second) = closings start first + closings start second :=
  List.countP_append ..

theorem closings_roll (start now : Instant) (c next : Candle) :
    closings start [⟨now, .closed c⟩, ⟨now, .opened next⟩] =
      if c.openTime = start then 1 else 0 := by
  by_cases same : c.openTime = start <;>
    simp [closings, Notice.closes, Notice.openTime, Event.candle, Event.kind, same]

theorem closings_live (h : Chronicle told c) :
    ∀ start : Instant, c.openTime.nanos ≤ start.nanos → closings start told = 0 := by
  induction h with
  | opened now => exact fun start _ => rfl
  | updated now _ same ih =>
    intro start hs
    rw [closings_append, ih start (same ▸ hs)]
    rfl
  | @rolled _ c next now _ _ _ _ _ _ _ later ih =>
    intro start hs
    have ne : c.openTime ≠ start := fun same => by rw [same] at later; omega
    rw [closings_append, ih start (by omega), closings_roll, if_neg ne]

theorem closings_past (h : Chronicle told c) :
    ∀ n ∈ told, n.openTime ≠ c.openTime → closings n.openTime told = 1 := by
  induction h with
  | opened now =>
    intro n hn ne
    rw [List.mem_singleton.mp hn] at ne
    exact absurd rfl ne
  | updated now _ same ih =>
    intro n hn ne
    rcases List.mem_append.mp hn with hn | hn
    · rw [closings_append, ih n hn (same ▸ ne)]
      rfl
    · rw [List.mem_singleton.mp hn] at ne
      exact absurd rfl ne
  | @rolled told c next now before _ _ _ _ _ _ later ih =>
    have closed : closings c.openTime (told ++ [⟨now, .closed c⟩, ⟨now, .opened next⟩]) = 1 := by
      rw [closings_append, before.closings_live c.openTime (Int.le_refl _), closings_roll,
        if_pos rfl]
    intro n hn ne
    by_cases live : n.openTime = c.openTime
    · rw [live]
      exact closed
    · rcases List.mem_append.mp hn with hn | hn
      · rw [closings_append, ih n hn live, closings_roll, if_neg (Ne.symm live)]
      · simp only [List.mem_cons, List.not_mem_nil, or_false] at hn
        rcases hn with rfl | rfl
        · exact absurd rfl live
        · exact absurd rfl ne

end Chronicle

-- ---------------------------------------------------------------------------
-- Runs
-- ---------------------------------------------------------------------------

/-- A seed, without a candle, of a pair that is not tracked yet, or any other
request at a clock reading before the last instant. -/
def Transition.Routine (step : Transition) : Prop :=
  match step.dated.request with
  | .seed pair given => given = none ∧ step.before.get? pair = none
  | _ => step.dated.now.nanos < Instant.last.nanos

instance (step : Transition) : Decidable step.Routine := by
  unfold Transition.Routine
  split <;> infer_instance

/-- The notices of a pair so far, by the candle that is stored for it. -/
def Recorded (calendar : Calendar) (told : List Notice) : Option Candle → Prop
  | some c => Chronicle told c ∧ c.Aligned calendar
  | none => told = []

section
variable {config : StoreConfig} {pair : Pair} {told : List Notice}

theorem Recorded.live (pair : Pair) {calendar : Calendar} {stored : Option Candle} {now : Instant}
    (steady : calendar.zone ≠ .host) (hnow : now.nanos < Instant.last.nanos)
    (recorded : Recorded calendar told stored) :
    Recorded calendar
      (told ++ (Store.live calendar pair stored now).events.map (Notice.mk now))
      (some (Store.live calendar pair stored now).candle) := by
  cases stored with
  | none =>
    obtain rfl := recorded
    exact ⟨.opened now rfl rfl rfl rfl rfl, Candle.aligned_fresh ..⟩
  | some c =>
    obtain ⟨chronicle, aligned⟩ := recorded
    by_cases ended : c.hasEnded now = true
    · have passed : c.closeTime.nanos ≤ now.nanos := by simpa [Candle.hasEnded] using ended
      simp only [Store.live, ended, if_true]
      exact ⟨.rolled chronicle passed rfl rfl rfl rfl rfl
        (aligned.openTime_lt_flatAfter steady hnow ended), Candle.aligned_flatAfter ..⟩
    · simp only [Store.live, ended]
      rw [if_neg Bool.false_ne_true, List.map_nil, List.append_nil]
      exact ⟨chronicle, aligned⟩

theorem Recorded.step {now : Instant} {request : Request} {stored result : Option Candle}
    {events : List Event} (steady : config.calendar.zone ≠ .host)
    (clocked : (∀ other given, request ≠ .seed other given) → now.nanos < Instant.last.nanos)
    (unseeded : ∀ given, request = .seed pair given → given = none ∧ stored = none)
    (recorded : Recorded config.calendar told stored)
    (step : Store.PairStep config pair now request stored events result) :
    Recorded config.calendar (told ++ events.map (Notice.mk now)) result := by
  cases step with
  | aside | untracked => simpa using recorded
  | refreshed | skipped | idle => exact recorded.live pair steady (clocked (by simp))
  | folded _ _ hf =>
    obtain ⟨chronicle, aligned⟩ := recorded.live pair steady (clocked (by simp))
    rw [List.map_append, ← List.append_assoc]
    exact ⟨chronicle.updated now (Candle.fold_key hf).2.2.1, aligned.fold hf⟩
  | seeded =>
    obtain ⟨rfl, -⟩ := unseeded _ rfl
    obtain rfl := recorded
    exact ⟨.opened now rfl rfl rfl rfl rfl, Candle.aligned_fresh ..⟩
  | kept | replaced => exact nomatch (unseeded _ rfl).2

theorem noticesOf_append (pair : Pair) (first second : List Transition) :
    noticesOf pair (first ++ second) = noticesOf pair first ++ noticesOf pair second :=
  List.flatMap_append

theorem recorded_run (pair : Pair) {requests : List DatedRequest}
    (kept : ∀ t d reply told, ⟨t, d, d.serve config t⟩ ∈ Table.transitions config {} requests →
      t.Tidy → (d.serve config t).reply = .ok reply →
      Recorded config.calendar told (t.get? pair) →
      Recorded config.calendar
        (told ++ (Event.toldOf pair (d.serve config t).events).map (Notice.mk d.now))
        ((d.serve config t).table.get? pair)) :
    Recorded config.calendar (noticesOf pair (Table.transitions config {} requests))
      ((Table.after config {} requests).get? pair) := by
  -- on the run, from its end
  induction requests using List.reverseRecOn with
  | nil => rfl
  | append_singleton requests d ih =>
    rw [Table.transitions_snoc] at kept ⊢
    have before := ih fun t d reply told mem => kept t d reply told (List.mem_append_left _ mem)
    have tidy := Table.tidy_empty.after config requests
    rw [Table.after_snoc, noticesOf_append]
    simp only [noticesOf, List.flatMap_singleton]
    cases reply : (d.serve config (Table.after config {} requests)).reply with
    | error e =>
      obtain ⟨same, silent⟩ := DatedRequest.serve_of_error reply
      rw [same, silent]
      simpa [Event.toldOf, noticesOf] using before
    | ok r =>
      exact kept _ d r _ (List.mem_append_right _ (List.mem_singleton.mpr rfl)) tidy reply before

theorem recorded_after (pair : Pair) {requests : List DatedRequest}
    (steady : config.calendar.zone ≠ .host) (nodup : config.resolutions.Nodup)
    (routine : ∀ step ∈ Table.transitions config {} requests, step.Routine) :
    Recorded config.calendar (noticesOf pair (Table.transitions config {} requests))
      ((Table.after config {} requests).get? pair) := by
  refine recorded_run pair fun t d reply told mem tidy replied before => ?_
  have last := routine _ mem
  refine before.step steady ?_ ?_ (DatedRequest.serve_pairStep nodup tidy replied pair)
  · intro unseeded
    unfold Transition.Routine at last
    split at last
    · next request => exact absurd request (unseeded _ _)
    · exact last
  · intro given request
    simpa [Transition.Routine, request] using last

/-- The notices of a pair in a run form a chronicle up to its live candle, with
open times that never go back; every bucket that was opened is closed exactly
once, but for the live one, which is not closed. -/
theorem notices_chronicle {requests : List DatedRequest} (steady : config.calendar.zone ≠ .host)
    (nodup : config.resolutions.Nodup)
    (routine : ∀ step ∈ Table.transitions config {} requests, step.Routine) (pair : Pair) :
    match (Table.after config {} requests).get? pair with
    | none => noticesOf pair (Table.transitions config {} requests) = []
    | some c =>
      Chronicle (noticesOf pair (Table.transitions config {} requests)) c ∧
        ((noticesOf pair (Table.transitions config {} requests)).Pairwise
          fun a b => a.openTime.nanos ≤ b.openTime.nanos) ∧
        ∀ n ∈ noticesOf pair (Table.transitions config {} requests),
          closings n.openTime (noticesOf pair (Table.transitions config {} requests)) =
            if n.openTime = c.openTime then 0 else 1 := by
  have recorded := recorded_after pair steady nodup routine
  cases stored : (Table.after config {} requests).get? pair with
  | none =>
    rw [stored] at recorded
    exact recorded
  | some c =>
    rw [stored] at recorded
    obtain ⟨chronicle, -⟩ := recorded
    refine ⟨chronicle, chronicle.ordered, fun n hn => ?_⟩
    split
    · next live => exact chronicle.closings_live _ (Int.le_of_eq (congrArg Instant.nanos live).symm)
    · next past => exact chronicle.closings_past n hn past

end

def seededMinutes : List DatedRequest :=
  ⟨.clamp 0, .seed ⟨⟨"BTC/USDT"⟩, .day1⟩ none⟩ :: twoMinutes

theorem seededMinutes_chronicle :
    ∃ c, (Table.after twoResolutions {} seededMinutes).get? ⟨⟨"BTC/USDT"⟩, .minute1⟩ = some c ∧
      Chronicle (noticesOf ⟨⟨"BTC/USDT"⟩, .minute1⟩
        (Table.transitions twoResolutions {} seededMinutes)) c := by
  have tracked : ((Table.after twoResolutions {} seededMinutes).get?
      ⟨⟨"BTC/USDT"⟩, .minute1⟩).isSome = true := by decide
  have told := @notices_chronicle twoResolutions seededMinutes (by decide) (by decide)
    (by decide) ⟨⟨"BTC/USDT"⟩, .minute1⟩
  obtain ⟨c, stored⟩ := Option.isSome_iff_exists.mp tracked
  rw [stored] at told
  exact ⟨c, stored, told.1⟩

end Candlestick
