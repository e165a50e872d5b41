import Candlestick.Proofs.Calendar.Nonempty
import Candlestick.Proofs.Calendar.Partition
import Candlestick.Proofs.Store.Invariant
import Mathlib.Data.List.Induction

/-!
# Open times that never go back

A candle that is over gives way to the one of the bucket that the clock stands in, wherever
the old one began. The events of a pair climb from one open time to the next where every
candle opens no later than the bucket in which it ends (`Candle.RollsOn`); nothing checks
this of a candle that somebody puts there (`offHour_steps_back`).
-/

namespace Candlestick

namespace Candle

/-- The bucket in which the candle ends starts no earlier than the candle. -/
def RollsOn (calendar : Calendar) (c : Candle) : Prop :=
  c.openTime.nanos ≤ (calendar.bucketStart c.resolution c.closeTime).nanos

def OpensBucket (calendar : Calendar) (c : Candle) : Prop :=
  calendar.bucketStart c.resolution c.openTime = c.openTime

instance (calendar : Calendar) (c : Candle) : Decidable (c.RollsOn calendar) :=
  inferInstanceAs (Decidable (_ ≤ _))

instance (calendar : Calendar) (c : Candle) : Decidable (c.OpensBucket calendar) :=
  inferInstanceAs (Decidable (_ = _))

variable {calendar : Calendar} {c : Candle} {now : Instant}

theorem OpensBucket.rollsOn (steady : calendar.zone ≠ .host) (opens : c.OpensBucket calendar)
    (lasts : c.openTime.nanos ≤ c.closeTime.nanos) : c.RollsOn calendar := by
  have later := Calendar.bucketStart_le_bucketStart steady c.resolution lasts
  rwa [show calendar.bucketStart c.resolution c.openTime = c.openTime from opens] at later

theorem Aligned.rollsOn (steady : calendar.zone ≠ .host) (aligned : c.Aligned calendar) :
    c.RollsOn calendar := by
  obtain ⟨⟨t, start⟩, stop⟩ := aligned
  have opens : c.OpensBucket calendar := by
    rw [OpensBucket, start, Calendar.bucketStart_bucketStart steady]
  refine opens.rollsOn steady (Int.le_of_lt ?_)
  rw [stop, start]
  exact Calendar.bucketStart_lt_bucketEnd (Calendar.monthsHold_of_steady steady) _ t

theorem RollsOn.openTime_le_flatAfter (steady : calendar.zone ≠ .host) (rolls : c.RollsOn calendar)
    (ended : c.hasEnded now = true) :
    c.openTime.nanos ≤ (c.flatAfter calendar now).openTime.nanos := by
  have passed : c.closeTime.nanos ≤ now.nanos := by simpa [hasEnded] using ended
  exact Int.le_trans rolls (Calendar.bucketStart_le_bucketStart steady c.resolution passed)

/-- A flat candle that is asked for while the stored one lasts opens no earlier, where
that one opens with a bucket. -/
theorem OpensBucket.openTime_le_flatAfter (steady : calendar.zone ≠ .host)
    (opens : c.OpensBucket calendar) (later : c.openTime.nanos ≤ now.nanos) :
    c.openTime.nanos ≤ (c.flatAfter calendar now).openTime.nanos := by
  have start := Calendar.bucketStart_le_bucketStart steady c.resolution later
  rwa [show calendar.bucketStart c.resolution c.openTime = c.openTime from opens] at start

end Candle

-- ---------------------------------------------------------------------------
-- Climbing events
-- ---------------------------------------------------------------------------

/-- Events of one pair that tell of later and later buckets, from the live candle before
them to the one after. -/
inductive Climbs : Option Candle → List Event → Option Candle → Prop
  | nil (stored : Option Candle) : Climbs stored [] stored
  | told {stored last : Option Candle} {e : Event} {rest : List Event} :
      (∀ c, stored = some c → c.openTime.nanos ≤ e.candle.openTime.nanos) →
      Climbs (some e.candle) rest last → Climbs stored (e :: rest) last

namespace Climbs

variable {stored middle last : Option Candle} {events first second : List Event}

theorem append (h : Climbs stored first middle) (h' : Climbs middle second last) :
    Climbs stored (first ++ second) last := by
  induction h with
  | nil => exact h'
  | told above _ ih => exact .told above (ih h')

theorem above {c : Candle} (h : Climbs (some c) events last) :
    ∀ e ∈ events, c.openTime.nanos ≤ e.candle.openTime.nanos := by
  generalize start : some c = stored at h
  induction h generalizing c with
  | nil =>
    intro e he
    cases he
  | @told _ _ first _ above _ ih =>
    have next := above c start.symm
    intro e he
    rcases List.mem_cons.mp he with rfl | he
    · exact next
    · exact Int.le_trans next (ih rfl e he)

theorem ordered (h : Climbs stored events last) :
    events.Pairwise fun a b => a.candle.openTime.nanos ≤ b.candle.openTime.nanos := by
  induction h with
  | nil => exact .nil
  | told _ below ih => exact List.pairwise_cons.mpr ⟨below.above, ih⟩

theorem last_above {c : Candle} (h : Climbs (some c) events last) :
    ∃ d, last = some d ∧ c.openTime.nanos ≤ d.openTime.nanos := by
  generalize start : some c = stored at h
  induction h generalizing c with
  | nil => exact ⟨c, start.symm, Int.le_refl _⟩
  | told above _ ih =>
    obtain ⟨d, there, later⟩ := ih rfl
    exact ⟨d, there, Int.le_trans (above c start.symm) later⟩

end Climbs

-- ---------------------------------------------------------------------------
-- One request
-- ---------------------------------------------------------------------------

/-- A candle that is put into a store opens no earlier than the one that it replaces, and
rolls on; a flat one is asked for where the stored one opens with a bucket or is over. -/
def Transition.Onward (calendar : Calendar) (step : Transition) : Prop :=
  match step.dated.request with
  | .seed pair (some c) => Store.checkSeed pair (some c) = .ok () →
      c.RollsOn calendar ∧
        ∀ p ∈ step.before.get? pair, p.openTime.nanos ≤ c.openTime.nanos
  | .seed pair none => ∀ p ∈ step.before.get? pair,
      p.OpensBucket calendar ∨ p.hasEnded step.dated.now = true
  | _ => True

instance (calendar : Calendar) : (step : Transition) → Decidable (step.Onward calendar)
  | ⟨before, ⟨_, .seed pair (some c)⟩, _⟩ =>
    inferInstanceAs (Decidable (Store.checkSeed pair (some c) = .ok () →
      c.RollsOn calendar ∧ ∀ p ∈ before.get? pair, p.openTime.nanos ≤ c.openTime.nanos))
  | ⟨before, ⟨now, .seed pair none⟩, _⟩ =>
    inferInstanceAs (Decidable (∀ p ∈ before.get? pair,
      p.OpensBucket calendar ∨ p.hasEnded now = true))
  | ⟨_, ⟨_, .deal _⟩, _⟩ => isTrue trivial
  | ⟨_, ⟨_, .refresh⟩, _⟩ => isTrue trivial
  | ⟨_, ⟨_, .look _⟩, _⟩ => isTrue trivial
  | ⟨_, ⟨_, .pairs⟩, _⟩ => isTrue trivial

section
variable {config : StoreConfig} {calendar : Calendar} {t : Table} {pair : Pair} {now : Instant}
  {stored : Option Candle} {d : DatedRequest}

theorem rollsOn_keptByStore (steady : calendar.zone ≠ .host) :
    KeptByStore calendar (fun _ => True) (Candle.RollsOn calendar) where
  fresh _ _ _ := (Candle.aligned_fresh ..).rollsOn steady
  flat _ _ _ := (Candle.aligned_flatAfter ..).rollsOn steady
  fold _ _ _ rolls _ folds := by
    obtain ⟨-, resolution, openTime, closeTime⟩ := Candle.fold_key folds
    rwa [Candle.RollsOn, resolution, openTime, closeTime]

theorem Transition.Onward.brings (onward : Onward config.calendar ⟨t, d, d.serve config t⟩) :
    d.request.Brings (fun _ => True) (Candle.RollsOn config.calendar) := by
  obtain ⟨now, request⟩ := d
  cases request with
  | seed pair given =>
    cases given with
    | some c => exact fun checked => (onward checked).1
    | none => exact trivial
  | _ => exact trivial

theorem Store.nanos_le_laterOf (a b : Instant) :
    a.nanos ≤ (laterOf a b).nanos ∧ b.nanos ≤ (laterOf a b).nanos := by
  unfold laterOf
  split <;> omega

theorem live_climbs (steady : calendar.zone ≠ .host) (rolls : ∀ c ∈ stored, c.RollsOn calendar)
    (pair : Pair) (now : Instant) :
    Climbs stored (Store.live calendar pair stored now).events
      (some (Store.live calendar pair stored now).candle) := by
  cases stored with
  | none => exact .told (fun _ absent => by cases absent) (.nil _)
  | some c =>
    by_cases ended : c.hasEnded now = true
    · simp only [Store.live, ended, if_true]
      have later := (rolls c rfl).openTime_le_flatAfter steady ended
      refine .told (fun d same => ?_) (.told (fun d same => ?_) (.nil _))
      · cases same
        exact Int.le_refl _
      · cases same
        exact later
    · simp only [Store.live, ended]
      exact .nil _

theorem openTime_le_seedCandle {given : Option Candle} {p : Candle}
    (steady : calendar.zone ≠ .host) (rolls : p.RollsOn calendar)
    (put : ∀ c ∈ given, p.openTime.nanos ≤ c.openTime.nanos)
    (asked : given = none → p.OpensBucket calendar ∨ p.hasEnded now = true) (pair : Pair) :
    p.openTime.nanos ≤ (Store.seedCandle calendar pair given (some p) now).openTime.nanos := by
  cases given with
  | some c => exact put c rfl
  | none =>
    obtain ⟨reading, later⟩ := Store.nanos_le_laterOf now p.openTime
    rcases asked rfl with opens | ended
    · exact opens.openTime_le_flatAfter steady later
    · -- the clock reading is past the end, and the later one of the two all the more
      have passed : p.closeTime.nanos ≤ now.nanos := by simpa [Candle.hasEnded] using ended
      refine rolls.openTime_le_flatAfter steady ?_
      simpa [Candle.hasEnded] using Int.le_trans passed reading

theorem Store.PairStep.climbs {request : Request} {last : Option Candle} {events : List Event}
    (steady : config.calendar.zone ≠ .host) (rolls : ∀ c ∈ stored, c.RollsOn config.calendar)
    (put : ∀ c, request = .seed pair (some c) → ∀ p ∈ stored, p.openTime.nanos ≤ c.openTime.nanos)
    (asked : request = .seed pair none → ∀ p ∈ stored,
      p.OpensBucket config.calendar ∨ p.hasEnded now = true)
    (step : Store.PairStep config pair now request stored events last) :
    Climbs stored events last := by
  cases step with
  | aside | untracked => exact .nil _
  | refreshed | skipped | idle => exact live_climbs steady rolls pair now
  | folded _ _ folds =>
    refine (live_climbs steady rolls pair now).append (.told (fun c same => ?_) (.nil _))
    cases same
    exact Int.le_of_eq (congrArg Instant.nanos (Candle.fold_key folds).2.2.1).symm
  | seeded => exact .told (fun _ absent => by cases absent) (.nil _)
  | kept => exact .nil _
  | @replaced given p =>
    have ended : given = none → p.OpensBucket config.calendar ∨ p.hasEnded now = true :=
      fun same => asked (congrArg (Request.seed pair) same) p rfl
    have later := openTime_le_seedCandle steady (rolls p rfl)
      (fun c same => put c (congrArg (Request.seed pair) same) p rfl) ended pair
    split
    · refine .told (fun c same => ?_) (.nil _)
      cases same
      exact later
    · refine .told (fun c same => ?_) (.nil _)
      cases same
      exact later

theorem DatedRequest.check_of_reply {reply : Reply}
    (h : (d.serve config t).reply = .ok reply) : d.request.check = .ok () := by
  unfold serve at h
  split at h
  · cases h
  · assumption

theorem Transition.Onward.climbs {last : Option Candle} {events : List Event} {reply : Reply}
    (steady : config.calendar.zone ≠ .host) (rolls : t.All (Candle.RollsOn config.calendar))
    (onward : Onward config.calendar ⟨t, d, d.serve config t⟩)
    (replied : (d.serve config t).reply = .ok reply)
    (step : Store.PairStep config pair d.now d.request (t.get? pair) events last) :
    Climbs (t.get? pair) events last := by
  have checked := DatedRequest.check_of_reply replied
  obtain ⟨now, request⟩ := d
  refine step.climbs steady (fun c stored => rolls.of_get? stored) (fun c same => ?_)
    fun same => ?_
  · cases same
    exact (onward checked).2
  · cases same
    exact onward

theorem serve_climbs (steady : config.calendar.zone ≠ .host) (nodup : config.resolutions.Nodup)
    (tidy : t.Tidy) (rolls : t.All (Candle.RollsOn config.calendar))
    (onward : Transition.Onward config.calendar ⟨t, d, d.serve config t⟩) (pair : Pair) :
    Climbs (t.get? pair) (Event.toldOf pair (d.serve config t).events)
      ((d.serve config t).table.get? pair) := by
  cases replied : (d.serve config t).reply with
  | error e =>
    obtain ⟨same, silent⟩ := DatedRequest.serve_of_error replied
    rw [same, silent]
    exact .nil _
  | ok reply =>
    exact onward.climbs steady rolls replied (DatedRequest.serve_pairStep nodup tidy replied pair)

-- ---------------------------------------------------------------------------
-- Stored candles, with resolutions that may be kept twice
-- ---------------------------------------------------------------------------

theorem Table.get?_insertAll_cases (t : Table) (candles : List (Pair × Candle)) (pair : Pair) :
    (t.insertAll candles).get? pair = t.get? pair ∨
      ∃ e ∈ candles, e.1 = pair ∧ (t.insertAll candles).get? pair = some e.2 := by
  -- the candle that was stored last counts
  induction candles using List.reverseRecOn with
  | nil => exact .inl rfl
  | append_singleton candles e ih =>
    have whole : t.insertAll (candles ++ [e]) = (t.insertAll candles).insert e.1 e.2 := by
      simp [insertAll]
    rw [whole, get?_insert]
    by_cases same : e.1 = pair
    · exact .inr ⟨e, by simp, same, if_pos same⟩
    · rw [if_neg same]
      rcases ih with untouched | ⟨f, mem, own, stored⟩
      · exact .inl untouched
      · exact .inr ⟨f, List.mem_append_left _ mem, own, stored⟩

theorem Store.share_openTime {deal : Deal} {r : Resolution} {part : Store.Draft × Bool}
    (h : Store.share calendar deal now stored r = .ok part) :
    part.1.candle.openTime = (Store.live calendar ⟨deal.market, r⟩ stored now).candle.openTime := by
  unfold Store.share at h
  dsimp only at h
  split at h
  · split at h
    · cases h
    · next folded folds =>
      split at h
      · cases h
        rfl
      · cases h
        exact (Candle.fold_key folds).2.2.1
  · cases h
    rfl

theorem addDeal_openTime_le {deal : Deal} {change : Change DealOutcome} {p : Candle}
    (steady : config.calendar.zone ≠ .host) (rolls : p.RollsOn config.calendar)
    (stored : t.get? pair = some p) (added : Store.addDeal config deal now t = .ok change) :
    ∃ q ∈ change.table.get? pair, p.openTime.nanos ≤ q.openTime.nanos := by
  unfold Store.addDeal at added
  split at added
  · cases added
  · next parts shared =>
    cases added
    rcases Table.get?_insertAll_cases t (parts.map fun part => (part.1, part.2.1.candle)) pair with
      untouched | ⟨e, mem, own, there⟩
    · exact ⟨p, untouched.trans stored, Int.le_refl _⟩
    · refine ⟨e.2, there, ?_⟩
      obtain ⟨part, among, rfl⟩ := List.mem_map.mp mem
      have share := ((Store.shares_eq_ok shared).2 part among).2
      rw [show part.1 = pair from own, stored] at share
      have rollsOn : ∀ c ∈ some p, c.RollsOn config.calendar := by
        rintro c same
        cases same
        exact rolls
      have climbs := live_climbs steady rollsOn ⟨deal.market, pair.resolution⟩ now
      obtain ⟨q, same, later⟩ := climbs.last_above
      cases same
      rwa [← Store.share_openTime share] at later

theorem serve_openTime_le {p : Candle} (steady : config.calendar.zone ≠ .host) (tidy : t.Tidy)
    (rolls : t.All (Candle.RollsOn config.calendar))
    (onward : Transition.Onward config.calendar ⟨t, d, d.serve config t⟩)
    (stored : t.get? pair = some p) :
    ∃ q ∈ (d.serve config t).table.get? pair, p.openTime.nanos ≤ q.openTime.nanos := by
  have unmoved : (d.serve config t).table = t →
      ∃ q ∈ (d.serve config t).table.get? pair, p.openTime.nanos ≤ q.openTime.nanos :=
    fun same => ⟨p, (congrArg (Table.get? · pair) same).trans stored, Int.le_refl _⟩
  have stepped : ∀ {reply events last}, (d.serve config t).reply = .ok reply →
      Store.PairStep config pair d.now d.request (t.get? pair) events last →
      ∃ q ∈ last, p.openTime.nanos ≤ q.openTime.nanos := by
    intro reply events last replied step
    have climbs := onward.climbs steady rolls replied step
    rw [stored] at climbs
    exact climbs.last_above
  cases replied : (d.serve config t).reply with
  | error e => exact unmoved (DatedRequest.serve_of_error replied).1
  | ok reply =>
    have checked := DatedRequest.check_of_reply replied
    have step := fun events last => @stepped _ events last replied
    obtain ⟨now, request⟩ := d
    unfold DatedRequest.serve at replied unmoved ⊢
    dsimp only at checked step
    simp only [checked] at replied unmoved ⊢
    cases request with
    | deal deal =>
      simp only [Request.plan] at replied ⊢
      cases added : Store.addDeal config deal now t with
      | error e => simp [added] at replied
      | ok change => exact addDeal_openTime_le steady (rolls.of_get? stored) stored added
    | seed seeded given => exact step _ _ (Store.seed_pairStep tidy checked now pair)
    | refresh => exact step _ _ (Store.refresh_pairStep tidy now pair)
    | look other | pairs => exact unmoved rfl

-- ---------------------------------------------------------------------------
-- Runs
-- ---------------------------------------------------------------------------

section
variable {requests : List DatedRequest}

theorem rollsOn_after (steady : config.calendar.zone ≠ .host)
    (onward : ∀ step ∈ Table.transitions config {} requests, step.Onward config.calendar) :
    (Table.after config {} requests).All (Candle.RollsOn config.calendar) := by
  -- on the run, from its end
  induction requests using List.reverseRecOn with
  | nil => exact Table.all_empty _
  | append_singleton requests d ih =>
    rw [Table.transitions_snoc] at onward
    have before := ih fun step mem => onward step (List.mem_append_left _ mem)
    have last := onward _ (List.mem_append_right _ (List.mem_singleton.mpr rfl))
    have kept : KeptByStore config.calendar (fun _ => True) _ := rollsOn_keptByStore steady
    rw [Table.after_snoc]
    exact (kept.serve before last.brings).1

theorem climbs_after (steady : config.calendar.zone ≠ .host) (nodup : config.resolutions.Nodup)
    (onward : ∀ step ∈ Table.transitions config {} requests, step.Onward config.calendar)
    (pair : Pair) :
    Climbs none (Event.toldOf pair (Table.eventsOf config {} requests))
      ((Table.after config {} requests).get? pair) := by
  induction requests using List.reverseRecOn with
  | nil => exact .nil none
  | append_singleton requests d ih =>
    rw [Table.transitions_snoc] at onward
    have earlier : ∀ step ∈ Table.transitions config {} requests, step.Onward config.calendar :=
      fun step mem => onward step (List.mem_append_left _ mem)
    have last := onward _ (List.mem_append_right _ (List.mem_singleton.mpr rfl))
    have next := serve_climbs steady nodup (Table.tidy_empty.after config requests)
      (rollsOn_after steady earlier) last pair
    rw [Table.after_snoc, Table.eventsOf_append, Store.toldOf_append]
    refine (ih earlier).append ?_
    simpa [Table.eventsOf, Table.serveAll] using next

/-- As long as every candle that is put into a store rolls on and opens no earlier than
the one that it replaces, no request replaces a candle by one of an earlier bucket; and
where every resolution is kept once, the open times of the events of a pair never go
back. -/
theorem open_times_climb (steady : config.calendar.zone ≠ .host)
    (onward : ∀ step ∈ Table.transitions config {} requests, step.Onward config.calendar)
    (pair : Pair) :
    (∀ step ∈ Table.transitions config {} requests, ∀ p ∈ step.before.get? pair,
      ∃ q ∈ step.after.get? pair, p.openTime.nanos ≤ q.openTime.nanos) ∧
    (config.resolutions.Nodup →
      (Event.toldOf pair (Table.eventsOf config {} requests)).Pairwise
        fun a b => a.candle.openTime.nanos ≤ b.candle.openTime.nanos) := by
  refine ⟨?_, fun nodup => (climbs_after steady nodup onward pair).ordered⟩
  induction requests using List.reverseRecOn with
  | nil =>
    intro step absent
    cases absent
  | append_singleton requests d ih =>
    rw [Table.transitions_snoc] at onward ⊢
    have earlier : ∀ step ∈ Table.transitions config {} requests, step.Onward config.calendar :=
      fun step mem => onward step (List.mem_append_left _ mem)
    have last := onward _ (List.mem_append_right _ (List.mem_singleton.mpr rfl))
    intro step mem p stored
    rcases List.mem_append.mp mem with before | here
    · exact ih earlier step before p stored
    · obtain rfl := List.mem_singleton.mp here
      exact serve_openTime_le steady (Table.tidy_empty.after config requests)
        (rollsOn_after steady earlier) last stored

end

end

-- a deal rolls a resolution that is kept twice two times over
example :
    (Table.eventsOf ⟨⟨.utc, .fixed 0⟩, [.minute1, .minute1]⟩ {}
      [⟨.clamp (5 * nanosPerSecond), .deal earlyDeal⟩,
        ⟨.clamp (65 * nanosPerSecond), .deal earlyDeal⟩]).map
        (fun e => e.candle.openTime.nanos / nanosPerSecond) = [0, 0, 0, 0, 0, 60, 0, 60] := by
  decide +kernel

def offHour (second seconds : Nat) : Candle :=
  { Candle.fresh ⟨"BTC/USDT"⟩ .hour1 twoResolutions.calendar (.clamp 0) with
    openTime := .clamp (second * nanosPerSecond)
    closeTime := .clamp ((second + seconds) * nanosPerSecond) }

def halfHours : List DatedRequest :=
  [⟨.clamp (5 * nanosPerSecond), .deal earlyDeal⟩,
    ⟨.clamp (1800 * nanosPerSecond), .seed (offHour 1800 1800).pair (some (offHour 1800 1800))⟩,
    ⟨.clamp (3600 * nanosPerSecond), .refresh⟩,
    ⟨.clamp (3600 * nanosPerSecond), .seed (offHour 3600 60).pair (some (offHour 3600 60))⟩,
    ⟨.clamp (60 * nanosPerSecond), .seed (offHour 3600 60).pair none⟩]

theorem halfHours_climb :
    (∀ step ∈ Table.transitions twoResolutions {} halfHours,
      step.Onward twoResolutions.calendar) ∧
    ((Event.toldOf (offHour 0 0).pair (Table.eventsOf twoResolutions {} halfHours)).map
      fun e => e.candle.openTime.nanos / nanosPerSecond) = [0, 0, 1800, 1800, 3600, 3600, 3600] ∧
    (Event.toldOf (offHour 0 0).pair (Table.eventsOf twoResolutions {} halfHours)).Pairwise
      fun a b => a.candle.openTime.nanos ≤ b.candle.openTime.nanos := by
  have onward : ∀ step ∈ Table.transitions twoResolutions {} halfHours,
      step.Onward twoResolutions.calendar := by decide +kernel
  have climbs := @open_times_climb twoResolutions halfHours (by decide) onward
    (offHour 0 0).pair
  exact ⟨onward, by decide +kernel, climbs.2 (by decide)⟩

/-- The hour that a refresh at the end of a minute in its middle opens. -/
def wholeHour : Candle :=
  (offHour 1800 60).flatAfter twoResolutions.calendar (.clamp (1860 * nanosPerSecond))

/-- A candle of one minute in the middle of an hour is taken, and a refresh at its end
opens the hour that began before it. -/
theorem offHour_steps_back :
    Store.checkSeed (offHour 1800 60).pair (some (offHour 1800 60)) = .ok () ∧
    Table.eventsOf twoResolutions {}
        [⟨.clamp (1800 * nanosPerSecond),
          .seed (offHour 1800 60).pair (some (offHour 1800 60))⟩,
        ⟨.clamp (1860 * nanosPerSecond), .refresh⟩] =
      [.opened (offHour 1800 60), .closed (offHour 1800 60), .opened wholeHour] ∧
    wholeHour.pair = (offHour 1800 60).pair ∧
    wholeHour.openTime.nanos < (offHour 1800 60).openTime.nanos := by
  decide +kernel

end Candlestick
