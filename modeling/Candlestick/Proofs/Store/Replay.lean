import Candlestick.Proofs.Store.Transition
import Candlestick.Store.Call
import Mathlib.Data.List.Induction
import Mathlib.Data.List.Nodup

/-!
# Replaying the events

The events of a store tell all of it: a reader who keeps a table of their own has, after
every call, the very table of the store, digit by digit (`replay_reconstructs`). For each
pair the events follow one another (`Follows`), whatever the zone and the clock do, and
whoever stores a candle.
-/

namespace Candlestick

/-- The live candle that an event tells of. The last state of a bucket that is
over is told once more and is live no longer. -/
def Event.told? : Event → Option Candle
  | .opened c => some c
  | .updated c => some c
  | .closed _ => none

def lastTold? (pair : Pair) (events : List Event) : Option Candle :=
  ((Event.toldOf pair events).filterMap Event.told?).getLast?

/-- Events of one pair, from the live candle before them to the one after. -/
inductive Follows : Option Candle → List Event → Option Candle → Prop
  | nil (stored : Option Candle) : Follows stored [] stored
  | opened {stored last : Option Candle} {c : Candle} {rest : List Event} :
      Follows (some c) rest last → Follows stored (.opened c :: rest) last
  | updated {c next : Candle} {last : Option Candle} {rest : List Event} :
      next.openTime = c.openTime → Follows (some next) rest last →
      Follows (some c) (.updated next :: rest) last
  | closed {c : Candle} {last : Option Candle} {rest : List Event} :
      Follows (some c) rest last → Follows (some c) (.closed c :: rest) last

namespace Follows

variable {stored middle last : Option Candle} {first second : List Event}

theorem append (h : Follows stored first middle) (h' : Follows middle second last) :
    Follows stored (first ++ second) last := by
  induction h with
  | nil => exact h'
  | opened _ ih => exact .opened (ih h')
  | updated same _ ih => exact .updated same (ih h')
  | closed _ ih => exact .closed (ih h')

theorem split (h : Follows stored (first ++ second) last) :
    ∃ middle, Follows stored first middle ∧ Follows middle second last := by
  induction first generalizing stored with
  | nil => exact ⟨stored, .nil stored, h⟩
  | cons e rest ih =>
    cases h with
    | opened below =>
      obtain ⟨middle, before, after⟩ := ih below
      exact ⟨middle, .opened before, after⟩
    | updated same below =>
      obtain ⟨middle, before, after⟩ := ih below
      exact ⟨middle, .updated same before, after⟩
    | closed below =>
      obtain ⟨middle, before, after⟩ := ih below
      exact ⟨middle, .closed before, after⟩

theorem last_eq (h : Follows stored first last) :
    last = (first.filterMap Event.told?).getLast?.or stored := by
  induction h with
  | nil => rfl
  | @opened _ _ c rest _ ih | @updated _ next _ rest _ _ ih =>
    rw [ih]
    simp [Event.told?, List.getLast?_cons, Option.or_some]
  | closed _ ih => exact ih

end Follows

-- ---------------------------------------------------------------------------
-- Requests
-- ---------------------------------------------------------------------------

section
variable {config : StoreConfig} {pair : Pair} {now : Instant}

theorem live_follows (calendar : Calendar) (pair : Pair) (stored : Option Candle)
    (now : Instant) : Follows stored (Store.live calendar pair stored now).events
      (some (Store.live calendar pair stored now).candle) := by
  cases stored with
  | none => exact .opened (.nil _)
  | some c =>
    unfold Store.live
    dsimp only
    split
    · exact .closed (.opened (.nil _))
    · exact .nil _

theorem Store.PairStep.follows {request : Request} {stored last : Option Candle}
    {events : List Event} (step : Store.PairStep config pair now request stored events last) :
    Follows stored events last := by
  cases step with
  | aside => exact .nil stored
  | untracked => exact .nil none
  | refreshed | skipped | idle => exact live_follows ..
  | folded _ _ folded =>
    refine (live_follows ..).append (.updated ?_ (.nil _))
    exact (Candle.fold_key folded).2.2.1
  | seeded => exact .opened (.nil _)
  | kept => exact .nil _
  | replaced =>
    split
    · next same => exact .updated same.symm (.nil _)
    · exact .opened (.nil _)

theorem follows_after (nodup : config.resolutions.Nodup) (pair : Pair)
    (requests : List DatedRequest) :
    Follows none (Event.toldOf pair (Table.eventsOf config {} requests))
      ((Table.after config {} requests).get? pair) := by
  -- on the run, from its end
  induction requests using List.reverseRecOn with
  | nil => exact .nil none
  | append_singleton requests d before =>
    have tidy := Table.tidy_empty.after config requests
    rw [Table.after_snoc, Table.eventsOf_append, Store.toldOf_append]
    refine before.append ?_
    simp only [Table.eventsOf, Table.serveAll, List.flatMap_singleton]
    cases reply : (d.serve config (Table.after config {} requests)).reply with
    | error e =>
      obtain ⟨same, silent⟩ := DatedRequest.serve_of_error reply
      rw [same, silent]
      exact .nil _
    | ok r => exact (DatedRequest.serve_pairStep nodup tidy reply pair).follows

end

-- ---------------------------------------------------------------------------
-- A reader's table
-- ---------------------------------------------------------------------------

namespace Table

theorem get?_of_mem {t : Table} (tidy : t.Tidy) {e : Pair × Candle} (mem : e ∈ t.entries) :
    t.get? e.1 = some e.2 := by
  cases found : t.get? e.1 with
  | none => exact absurd rfl (ne_of_get?_eq_none found e mem)
  | some c =>
    have same := List.inj_on_of_nodup_map tidy.nodup mem (mem_of_get? found) rfl
    rw [same]

theorem Tidy.ext {t u : Table} (tidy : t.Tidy) (tidy' : u.Tidy)
    (same : ∀ pair, t.get? pair = u.get? pair) : t = u := by
  have mem : ∀ e, e ∈ t.entries ↔ e ∈ u.entries := fun e => by
    constructor
    · exact fun he => mem_of_get? ((same e.1).symm.trans (get?_of_mem tidy he))
    · exact fun he => mem_of_get? ((same e.1).trans (get?_of_mem tidy' he))
  have perm : t.entries.Perm u.entries :=
    (List.perm_ext_iff_of_nodup (tidy.nodup.of_map Prod.fst) (tidy'.nodup.of_map Prod.fst)).mpr mem
  have entries : t.entries = u.entries :=
    perm.eq_of_pairwise (fun a b _ _ before after =>
      absurd (Pair.precedes_trans before after) (Pair.precedes_irrefl _))
      tidy.ordered tidy'.ordered
  cases t
  cases u
  exact congrArg Table.mk entries

theorem Tidy.tellAll {t : Table} (tidy : t.Tidy) (events : List Event) :
    (t.tellAll events).Tidy := by
  induction events generalizing t with
  | nil => exact tidy
  | cons e rest ih =>
    cases e with
    | opened c | updated c => exact ih (tidy.insert rfl)
    | closed c => exact ih tidy

theorem get?_tellAll (events : List Event) (pair : Pair) :
    (Table.tellAll {} events).get? pair = lastTold? pair events := by
  induction events using List.reverseRecOn with
  | nil => rfl
  | append_singleton events e ih =>
    rw [tellAll_append, lastTold?, Store.toldOf_append, List.filterMap_append]
    by_cases same : e.candle.pair = pair
    · have own : Event.toldOf pair [e] = [e] := by simp [Event.toldOf, same]
      rw [own]
      cases e with
      | opened c | updated c =>
        subst same
        simp [tellAll, tell, Event.told?, Event.candle, get?_insert]
      | closed c => simpa [tellAll, tell, Event.told?, lastTold?] using ih
    · have other : Event.toldOf pair [e] = [] := by simp [Event.toldOf, same]
      rw [other, List.filterMap_nil, List.append_nil]
      exact (get?_tell_of_ne _ same).trans ih

end Table

section
variable {config : StoreConfig}

/-- What an event of a run says about the last one told of its pair. -/
theorem follows_at {pair : Pair} {last : Option Candle} {events before after : List Event}
    {e : Event} (follows : Follows none (Event.toldOf pair events) last)
    (whole : events = before ++ e :: after) (own : e.candle.pair = pair) :
    Follows (lastTold? pair before) (e :: Event.toldOf pair after) last := by
  have told : Event.toldOf pair (e :: after) = e :: Event.toldOf pair after := by
    simp [Event.toldOf, own]
  rw [whole, Store.toldOf_append, told] at follows
  obtain ⟨middle, earlier, later⟩ := follows.split
  have same := earlier.last_eq
  rw [Option.or_none] at same
  rwa [same] at later

theorem calls_follow (nodup : config.resolutions.Nodup) (calls : List DatedCall) (pair : Pair) :
    Follows none (Event.toldOf pair (Table.eventsOfCalls config {} calls))
      ((Table.afterCalls config {} calls).get? pair) := by
  rw [Table.eventsOfCalls_eq, Table.afterCalls_eq]
  exact follows_after nodup pair _

/-- The events of any calls reconstruct the table of the store: a pair has the
candle that was told last of it, and none where nothing was told. Every bucket is
closed with the candle told last of its pair, and an update stays in the bucket
told last. -/
theorem replay_reconstructs (nodup : config.resolutions.Nodup) (calls : List DatedCall) :
    Table.afterCalls config {} calls = Table.tellAll {} (Table.eventsOfCalls config {} calls) ∧
    (∀ pair, (Table.afterCalls config {} calls).get? pair =
      lastTold? pair (Table.eventsOfCalls config {} calls)) ∧
    (∀ pair, (∀ e ∈ Table.eventsOfCalls config {} calls, e.candle.pair ≠ pair) →
      (Table.afterCalls config {} calls).get? pair = none) ∧
    (∀ before c after, Table.eventsOfCalls config {} calls = before ++ .closed c :: after →
      lastTold? c.pair before = some c) ∧
    (∀ before c after, Table.eventsOfCalls config {} calls = before ++ .updated c :: after →
      ∃ told, lastTold? c.pair before = some told ∧ c.openTime = told.openTime) := by
  have follow := calls_follow nodup calls
  have last : ∀ pair, (Table.afterCalls config {} calls).get? pair =
      lastTold? pair (Table.eventsOfCalls config {} calls) := fun pair => by
    rw [(follow pair).last_eq, Option.or_none, lastTold?]
  refine ⟨?_, last, fun pair silent => ?_, fun before c after whole => ?_,
    fun before c after whole => ?_⟩
  · have tidy := Table.tidy_empty.after config (calls.filterMap DatedCall.admitted?)
    rw [← Table.afterCalls_eq] at tidy
    refine tidy.ext (Table.tidy_empty.tellAll _) fun pair => ?_
    rw [last, Table.get?_tellAll]
  · have untold : Event.toldOf pair (Table.eventsOfCalls config {} calls) = [] :=
      List.filter_eq_nil_iff.mpr fun e he => by simpa using silent e he
    rw [last, lastTold?, untold]
    rfl
  · have rest := follows_at (follow c.pair) whole rfl
    generalize lastTold? c.pair before = told at rest
    cases rest with
    | closed => rfl
  · have rest := follows_at (follow c.pair) whole rfl
    generalize lastTold? c.pair before = told at rest
    cases rest with
    | updated same => exact ⟨_, rfl, same⟩

end

/-- Two minutes with a deal that is refused, and a candle that somebody puts in
the place of the live one. -/
def mendedMinutes : List DatedCall :=
  ⟨.clamp 0, .record ⟨"", "BTC/USDT", "1", "1", .clamp 0, "t1", "m1", false⟩⟩ ::
    twoMinutes.map (fun d => ⟨d.now, .request d.request⟩) ++
    [⟨.clamp (72 * nanosPerSecond), .request (.seed ⟨⟨"BTC/USDT"⟩, .minute1⟩ none)⟩]

theorem mendedMinutes_replay :
    twoResolutions.resolutions.Nodup ∧
    Table.afterCalls twoResolutions {} mendedMinutes =
      Table.tellAll {} (Table.eventsOfCalls twoResolutions {} mendedMinutes) ∧
    ((Table.eventsOfCalls twoResolutions {} mendedMinutes).map Event.kind).count .updated = 10 :=
  ⟨by decide, (replay_reconstructs (by decide) mendedMinutes).1, by decide⟩

end Candlestick
