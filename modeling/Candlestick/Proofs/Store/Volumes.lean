import Candlestick.Proofs.Decimal.Growth
import Candlestick.Proofs.Store.Ordered
import Candlestick.Proofs.Store.Shortcut

/-!
# Volumes that never fall

Not even a sum that loses digits comes out below the volume before or below the amount
(`Candle.volume_le_fold`), so what is told of one bucket of a pair has a volume that never
falls (`volumes_never_fall`). A store that keeps a resolution twice tells of each bucket
twice over, and then the volume falls back to zero (`repeated_minute_falls`).
-/

namespace Candlestick

namespace Candle

theorem volume_le_fold {c folded : Candle} {price : Price} {amount : Quantity}
    (volume : 0 ≤ c.volume.decimal.coefficient) (traded : 0 ≤ amount.decimal.coefficient)
    (h : c.fold price amount = .ok folded) :
    c.volume.decimal.value ≤ folded.volume.decimal.value ∧
      amount.decimal.value ≤ folded.volume.decimal.value := by
  obtain ⟨sum, added, rfl⟩ := fold_eq_ok h
  exact Decimal.le_value_of_add? volume traded (Quantity.add_eq_ok_iff.mp added)

/-- The other candle is of a later bucket, or of the same one with no less volume. -/
def GrowsInto (c next : Candle) : Prop :=
  c.openTime.nanos < next.openTime.nanos ∨
    (c.openTime = next.openTime ∧ c.volume.decimal.value ≤ next.volume.decimal.value)

variable {c middle next : Candle}

theorem GrowsInto.refl (c : Candle) : c.GrowsInto c := .inr ⟨rfl, le_rfl⟩

theorem GrowsInto.trans (h : c.GrowsInto middle) (h' : middle.GrowsInto next) :
    c.GrowsInto next := by
  rcases h with later | ⟨same, grown⟩
  · rcases h' with later' | ⟨same', -⟩
    · exact .inl (later.trans later')
    · exact .inl (same' ▸ later)
  · rcases h' with later' | ⟨same', grown'⟩
    · exact .inl (same ▸ later')
    · exact .inr ⟨same.trans same', grown.trans grown'⟩

theorem GrowsInto.volume_le (h : c.GrowsInto next) (same : c.openTime = next.openTime) :
    c.volume.decimal.value ≤ next.volume.decimal.value := by
  rcases h with later | ⟨-, grown⟩
  · exact absurd later (same ▸ lt_irrefl _)
  · exact grown

end Candle

-- ---------------------------------------------------------------------------
-- What was told so far
-- ---------------------------------------------------------------------------

/-- Every candle that was told of a pair grows into all that were told later, and into the
live one. -/
structure Swelling (told : List Event) (stored : Option Candle) : Prop where
  grown : told.Pairwise fun a b => a.candle.GrowsInto b.candle
  live : ∀ e ∈ told, ∃ c ∈ stored, e.candle.GrowsInto c

namespace Swelling

variable {told : List Event} {stored : Option Candle}

theorem nil (stored : Option Candle) : Swelling [] stored := ⟨.nil, by simp⟩

theorem tell (h : Swelling told stored) {e : Event}
    (onward : ∀ c ∈ stored, c.GrowsInto e.candle) : Swelling (told ++ [e]) (some e.candle) := by
  have before : ∀ f ∈ told, f.candle.GrowsInto e.candle := by
    intro f mem
    obtain ⟨c, live, grows⟩ := h.live f mem
    exact grows.trans (onward c live)
  refine ⟨List.pairwise_append.mpr ⟨h.grown, List.pairwise_singleton _ _, ?_⟩, ?_⟩
  · rintro f mem g last
    rw [List.mem_singleton.mp last]
    exact before f mem
  · rintro f mem
    rcases List.mem_append.mp mem with mem | last
    · exact ⟨_, rfl, before f mem⟩
    · rw [List.mem_singleton.mp last]
      exact ⟨_, rfl, .refl _⟩

theorem tell_live (h : Swelling told stored) {calendar : Calendar} (pair : Pair) {now : Instant}
    (steady : calendar.zone ≠ .host) (before : now.nanos < Instant.last.nanos)
    (aligned : ∀ c ∈ stored, c.Aligned calendar) :
    Swelling (told ++ (Store.live calendar pair stored now).events)
      (some (Store.live calendar pair stored now).candle) := by
  cases stored with
  | none => exact h.tell (by simp)
  | some c =>
    by_cases ended : c.hasEnded now = true
    · have later := (aligned c rfl).openTime_lt_flatAfter steady before ended
      have closed : Swelling (told ++ [.closed c]) (some c) :=
        h.tell (by simp [Candle.GrowsInto.refl, Event.candle])
      simp only [Store.live, ended, if_true]
      rw [List.append_cons]
      exact closed.tell (by simpa [Event.candle] using .inl later)
    · simpa [Store.live, ended] using h

end Swelling

-- ---------------------------------------------------------------------------
-- Runs
-- ---------------------------------------------------------------------------

def Request.Regular : Request → Prop
  | .deal d => d.NonNegative
  | .refresh => True
  | _ => False

instance : (r : Request) → Decidable r.Regular
  | .deal d => inferInstanceAs
    (Decidable (0 ≤ d.price.decimal.coefficient ∧ 0 ≤ d.amount.decimal.coefficient))
  | .refresh => isTrue trivial
  | .seed _ _ => isFalse id
  | .look _ => isFalse id
  | .pairs => isFalse id

section
variable {config : StoreConfig} {pair : Pair} {now : Instant}

theorem Swelling.step {told events : List Event} {request : Request} {stored last : Option Candle}
    (h : Swelling told stored) (steady : config.calendar.zone ≠ .host)
    (before : now.nanos < Instant.last.nanos) (regular : request.Regular)
    (aligned : ∀ c ∈ stored, c.Aligned config.calendar) (nonneg : ∀ c ∈ stored, c.NonNegative)
    (step : Store.PairStep config pair now request stored events last) :
    Swelling (told ++ events) last := by
  have live := h.tell_live pair steady before aligned
  cases step with
  | aside | untracked => simpa using h
  | refreshed | skipped | idle => exact live
  | folded _ _ folds =>
    obtain ⟨-, volume⟩ := ((nonNegative_keptByStore config.calendar).live nonneg pair now).1
    rw [← List.append_assoc]
    refine live.tell ?_
    rintro c ⟨⟩
    exact .inr ⟨(Candle.fold_key folds).2.2.1.symm,
      (Candle.volume_le_fold volume regular.2 folds).1⟩
  | seeded | kept | replaced => exact regular.elim

theorem Request.Regular.brings {request : Request} (regular : request.Regular)
    {deals : Deal → Prop} (P : Candle → Prop) (good : ∀ d : Deal, d.NonNegative → deals d) :
    request.Brings deals P := by
  cases request with
  | deal d => exact good d regular
  | refresh => trivial
  | seed | look | pairs => exact regular.elim

theorem swelling_after {requests : List DatedRequest} (steady : config.calendar.zone ≠ .host)
    (nodup : config.resolutions.Nodup)
    (regular : ∀ d ∈ requests, d.request.Regular ∧ d.now.nanos < Instant.last.nanos)
    (pair : Pair) :
    Swelling (Event.toldOf pair (Table.eventsOf config {} requests))
      ((Table.after config {} requests).get? pair) := by
  -- on the run, from its end
  induction requests using List.reverseRecOn with
  | nil => exact .nil none
  | append_singleton requests d ih =>
    have earlier : ∀ e ∈ requests, e.request.Regular ∧ e.now.nanos < Instant.last.nanos :=
      fun e mem => regular e (List.mem_append_left _ mem)
    obtain ⟨last, before⟩ := regular d (List.mem_append_right _ (List.mem_singleton.mpr rfl))
    have told := ih earlier
    have tidy := Table.tidy_empty.after config requests
    have aligned := ((ranged_keptByStore config.calendar).after (Table.all_empty _)
      fun e mem => (earlier e mem).1.brings _ fun _ _ => trivial).1
    have nonneg := ((nonNegative_keptByStore config.calendar).after (Table.all_empty _)
      fun e mem => (earlier e mem).1.brings _ fun _ good => good).1
    rw [Table.after_snoc, Table.eventsOf_append, Store.toldOf_append]
    simp only [Table.eventsOf, Table.serveAll, List.flatMap_singleton]
    cases replied : (d.serve config (Table.after config {} requests)).reply with
    | error e =>
      obtain ⟨same, silent⟩ := DatedRequest.serve_of_error replied
      rw [same, silent]
      simpa [Event.toldOf, Table.eventsOf] using told
    | ok reply =>
      exact told.step steady before last (fun c stored => (aligned.of_get? stored).1)
        (fun c stored => nonneg.of_get? stored) (DatedRequest.serve_pairStep nodup tidy replied pair)

end

/-- A fold leaves a volume that is no less than the one before and than the amount, and is
zero only where both are. In a run of deals without negative values and of refreshes, where
every resolution is kept once, the volume that is told of one bucket of a pair never falls. -/
theorem volumes_never_fall :
    (∀ (c folded : Candle) (price : Price) (amount : Quantity),
      0 ≤ c.volume.decimal.value → 0 ≤ amount.decimal.value →
      c.fold price amount = .ok folded →
        c.volume.decimal.value ≤ folded.volume.decimal.value ∧
        amount.decimal.value ≤ folded.volume.decimal.value ∧
        (folded.volume.isZero = true → c.volume.isZero = true ∧ amount.isZero = true)) ∧
    ∀ (config : StoreConfig) (requests : List DatedRequest) (pair : Pair),
      config.calendar.zone ≠ .host → config.resolutions.Nodup →
      (∀ d ∈ requests, d.request.Regular ∧ d.now.nanos < Instant.last.nanos) →
      (Event.toldOf pair (Table.eventsOf config {} requests)).Pairwise fun a b =>
        a.candle.openTime = b.candle.openTime →
          a.candle.volume.decimal.value ≤ b.candle.volume.decimal.value := by
  constructor
  · intro c folded price amount volume traded folds
    have nonneg := Decimal.value_nonneg_iff.mp volume
    have nonneg' := Decimal.value_nonneg_iff.mp traded
    obtain ⟨old, new⟩ := Candle.volume_le_fold nonneg nonneg' folds
    refine ⟨old, new, fun zero => ?_⟩
    have none := Decimal.value_of_isZero zero
    rw [none] at old new
    exact ⟨Decimal.isZero_iff.mpr (Decimal.value_eq_zero_iff.mp (old.antisymm volume)),
      Decimal.isZero_iff.mpr (Decimal.value_eq_zero_iff.mp (new.antisymm traded))⟩
  · intro config requests pair steady nodup regular
    exact (swelling_after steady nodup regular pair).grown.imp fun grows => grows.volume_le

def Decimal.longest : Decimal :=
  { Decimal.greatest with scale := maxScale, scale_le := Nat.le_refl maxScale }

def Decimal.least : Decimal := ⟨false, 1, maxScale, one_lt_coefficientLimit, Nat.le_refl maxScale⟩

def crowdedCandle : Candle :=
  { Candle.fresh ⟨"BTC/USDT"⟩ .minute1 ⟨.utc, .fixed 0⟩ .epoch with volume := ⟨.longest⟩ }

/-- The last digit is dropped where there is no room for it, and the volume rises. -/
theorem crowdedCandle_never_falls :
    (∃ folded, crowdedCandle.fold ⟨.tenth⟩ ⟨.least⟩ = .ok folded ∧
      folded.volume.decimal.scale = 27 ∧
      crowdedCandle.volume.decimal.value ≤ folded.volume.decimal.value) ∧
    (∀ d ∈ twoMinutes, d.request.Regular ∧ d.now.nanos < Instant.last.nanos) ∧
    (Event.toldOf ⟨⟨"BTC/USDT"⟩, .minute1⟩
      (Table.eventsOf twoResolutions {} twoMinutes)).Pairwise fun a b =>
        a.candle.openTime = b.candle.openTime →
          a.candle.volume.decimal.value ≤ b.candle.volume.decimal.value := by
  obtain ⟨folds, runs⟩ := volumes_never_fall
  have regular : ∀ d ∈ twoMinutes,
      d.request.Regular ∧ d.now.nanos < Instant.last.nanos := by decide
  obtain ⟨sum, added, scale⟩ : ∃ sum, crowdedCandle.volume.add ⟨.least⟩ = .ok sum ∧
      sum.decimal.scale = 27 := by
    refine ⟨⟨⟨false, 7922816251426433759354395034, 27, by decide, by decide⟩⟩, ?_, rfl⟩
    decide +kernel
  have folded : crowdedCandle.fold ⟨.tenth⟩ ⟨.least⟩ = .ok (crowdedCandle.traded ⟨.tenth⟩ sum) :=
    Candle.fold_of_add added
  obtain ⟨risen, -⟩ := folds _ _ _ _ (Decimal.value_nonneg_iff.mpr (by decide))
    (Decimal.value_nonneg_iff.mpr (by decide)) folded
  exact ⟨⟨_, folded, scale, risen⟩, regular,
    runs twoResolutions twoMinutes _ (by decide) (by decide) regular⟩

def repeatedMinute : StoreConfig := ⟨⟨.utc, .fixed 0⟩, [.minute1, .minute1]⟩

/-- The first deal of a market opens a minute that is kept twice two times over, the second
time after an update. -/
theorem repeated_minute_falls :
    repeatedMinute.calendar.zone ≠ .host ∧
    (∀ d ∈ [(⟨.clamp (5 * nanosPerSecond), .deal earlyDeal⟩ : DatedRequest)],
      d.request.Regular ∧ d.now.nanos < Instant.last.nanos) ∧
    ¬ (Event.toldOf ⟨⟨"BTC/USDT"⟩, .minute1⟩
      (Table.eventsOf repeatedMinute {} [⟨.clamp (5 * nanosPerSecond), .deal earlyDeal⟩])).Pairwise
        fun a b => a.candle.openTime = b.candle.openTime →
          a.candle.volume.decimal.value ≤ b.candle.volume.decimal.value := by
  refine ⟨by decide, by decide, fun rising => ?_⟩
  have told : (Event.toldOf ⟨⟨"BTC/USDT"⟩, .minute1⟩
      (Table.eventsOf repeatedMinute {} [⟨.clamp (5 * nanosPerSecond), .deal earlyDeal⟩])).map
        (fun e => (e.candle.openTime, e.candle.volume)) =
      [(.epoch, .zero), (.epoch, earlyDeal.amount), (.epoch, .zero), (.epoch, earlyDeal.amount)] := by
    decide +kernel
  have volumes := (List.pairwise_map (f := fun e : Event => (e.candle.openTime, e.candle.volume))
    (R := fun x y => x.1 = y.1 → x.2.decimal.value ≤ y.2.decimal.value)).mpr rising
  rw [told] at volumes
  have afterUpdate := (List.pairwise_cons.mp (List.pairwise_cons.mp volumes).2).1
  have fallen : earlyDeal.amount.decimal.value ≤ Quantity.zero.decimal.value :=
    afterUpdate (.epoch, .zero) (List.mem_cons_self ..) rfl
  rw [Decimal.value_of_isZero (d := Quantity.zero.decimal) rfl] at fallen
  have traded : ¬ earlyDeal.amount.decimal.coefficient = 0 := by decide
  exact traded (Decimal.value_eq_zero_iff.mp
    (fallen.antisymm (Decimal.value_nonneg_iff.mpr (by decide))))

end Candlestick
