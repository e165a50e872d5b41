import Candlestick.Proofs.Calendar.Nonempty
import Candlestick.Proofs.Store.Invariant
import Candlestick.Store.Call

/-!
# Valid candles

The candles of a store have an interval that is not empty, and all prices or none
(`candles_valid`). A fold sets the open only where the volume is zero, so what carries this
is more: a candle without prices has no volume (`Candle.Whole`). Nothing checks this of a
candle that somebody puts there (`unopened_invalid`).
-/

namespace Candlestick

/-- A valid candle that has no volume where it has no prices. -/
def Candle.Whole (c : Candle) : Prop :=
  c.isValid = true ∧ (c.open = none → c.volume.isZero = true)

def Request.SeedsWhole : Request → Prop
  | .seed _ (some c) => c.isValid = true → c.open = none → c.volume.isZero = true
  | _ => True

instance : (r : Request) → Decidable r.SeedsWhole
  | .seed _ (some c) =>
    inferInstanceAs (Decidable (c.isValid = true → c.open = none → c.volume.isZero = true))
  | .seed _ none => isTrue trivial
  | .deal _ => isTrue trivial
  | .refresh => isTrue trivial
  | .look _ => isTrue trivial
  | .pairs => isTrue trivial

namespace Candle

variable {c : Candle}

theorem isValid_iff : c.isValid = true ↔ c.openTime.nanos < c.closeTime.nanos ∧
    c.high.isSome = c.open.isSome ∧ c.low.isSome = c.open.isSome ∧
    c.close.isSome = c.open.isSome := by
  unfold isValid
  cases c.open <;> cases c.high <;> cases c.low <;> cases c.close <;> simp

theorem whole_fresh {calendar : Calendar} (months : calendar.MonthsHold) (market : Market)
    (resolution : Resolution) (now : Instant) :
    (fresh market resolution calendar now).Whole :=
  ⟨isValid_iff.mpr ⟨Calendar.bucketStart_lt_bucketEnd months resolution now, rfl, rfl, rfl⟩,
    fun _ => rfl⟩

theorem whole_flatAfter {calendar : Calendar} (months : calendar.MonthsHold) (c : Candle)
    (now : Instant) : (c.flatAfter calendar now).Whole :=
  ⟨isValid_iff.mpr ⟨Calendar.bucketStart_lt_bucketEnd months c.resolution now, rfl, rfl, rfl⟩,
    fun _ => rfl⟩

theorem Whole.fold {folded : Candle} {price : Price} {amount : Quantity} (whole : c.Whole)
    (h : c.fold price amount = .ok folded) : folded.Whole := by
  obtain ⟨valid, untraded⟩ := whole
  obtain ⟨interval, -⟩ := isValid_iff.mp valid
  have opened : folded.open.isSome = true ∧ folded.high.isSome = true ∧
      folded.low.isSome = true ∧ folded.close.isSome = true := by
    unfold Candle.fold at h
    split at h
    · cases h
    · cases h
      refine ⟨?_, rfl, rfl, rfl⟩
      dsimp only
      split
      · rfl
      · next traded =>
        cases first : c.open with
        | none => exact absurd (untraded first) traded
        | some p => rfl
  obtain ⟨opened, high, low, close⟩ := opened
  obtain ⟨-, -, start, stop⟩ := fold_key h
  refine ⟨isValid_iff.mpr ⟨start ▸ stop ▸ interval, ?_, ?_, ?_⟩, fun unset => ?_⟩
  · rw [high, opened]
  · rw [low, opened]
  · rw [close, opened]
  · rw [unset] at opened
    cases opened

end Candle

section
variable {config : StoreConfig}

theorem whole_keptByStore {calendar : Calendar} (months : calendar.MonthsHold) :
    KeptByStore calendar (fun _ => True) Candle.Whole where
  fresh := Candle.whole_fresh months
  flat c now _ := Candle.whole_flatAfter months c now
  fold _ _ _ whole _ h := whole.fold h

theorem isValid_of_checkSeed {pair : Pair} {c : Candle}
    (h : Store.checkSeed pair (some c) = .ok ()) : c.isValid = true := by
  simp only [Store.checkSeed] at h
  split at h
  · cases h
  · split at h
    · next valid => exact valid
    · cases h

theorem brings_of_seedsWhole {request : Request} (whole : request.SeedsWhole) :
    request.Brings (fun _ => True) Candle.Whole := by
  cases request with
  | seed pair given =>
    cases given with
    | none => exact trivial
    | some c =>
      intro checked
      have valid := isValid_of_checkSeed checked
      exact ⟨valid, whole valid⟩
  | _ => exact trivial

/-- All candles that a store keeps or publishes are valid, as long as no candle
is put there that has a volume and no prices. -/
theorem candles_valid {calls : List DatedCall}
    (months : config.calendar.zone = .host → config.calendar.MonthsHold)
    (whole : ∀ d ∈ calls, ∀ request, d.call = .request request → request.SeedsWhole) :
    (∀ e ∈ (Table.afterCalls config {} calls).entries, e.2.isValid = true) ∧
      ∀ e ∈ Table.eventsOfCalls config {} calls, e.candle.isValid = true := by
  have hold : config.calendar.MonthsHold := by
    by_cases host : config.calendar.zone = .host
    · exact months host
    · exact Calendar.monthsHold_of_steady host
  have brings : ∀ d ∈ calls.filterMap DatedCall.admitted?,
      d.request.Brings (fun _ => True) Candle.Whole := by
    intro d mem
    obtain ⟨asked, there, admitted⟩ := List.mem_filterMap.mp mem
    refine brings_of_seedsWhole ?_
    rcases StoreCall.toRequest_eq_ok (DatedCall.admitted?_eq_some admitted).1 with
      ⟨same, -⟩ | ⟨deal, same⟩
    · exact whole asked there d.request same
    · rw [same]
      exact trivial
  have kept : KeptByStore config.calendar (fun _ => True) Candle.Whole := whole_keptByStore hold
  obtain ⟨stored, told⟩ := kept.after (Table.all_empty _) brings
  rw [Table.afterCalls_eq, Table.eventsOfCalls_eq]
  exact ⟨fun e he => (stored e he).1, fun e he => (told e he).1⟩

end

/-- Somebody puts a candle without prices there, deals follow, and a minute
later somebody asks for a flat candle. -/
def seededCalls : List DatedCall :=
  [⟨.clamp 0, .request (.seed ⟨⟨"BTC/USDT"⟩, .minute1⟩
      (some (.fresh ⟨"BTC/USDT"⟩ .minute1 twoResolutions.calendar (.clamp 0))))⟩,
    ⟨.clamp (5 * nanosPerSecond), .record ⟨"d1", "BTC/USDT", "10", "3", .clamp (5 * nanosPerSecond),
      "t1", "m1", false⟩⟩,
    ⟨.clamp (61 * nanosPerSecond), .request (.seed ⟨⟨"BTC/USDT"⟩, .minute1⟩ none)⟩]

theorem seededCalls_valid :
    (∀ d ∈ seededCalls, ∀ request, d.call = .request request → request.SeedsWhole) ∧
    (Table.eventsOfCalls twoResolutions {} seededCalls).length = 5 ∧
      ∀ e ∈ Table.eventsOfCalls twoResolutions {} seededCalls, e.candle.isValid = true := by
  have whole : ∀ d ∈ seededCalls, ∀ request, d.call = .request request →
      request.SeedsWhole := by
    intro d mem request same
    simp only [seededCalls, List.mem_cons, List.not_mem_nil, or_false] at mem
    rcases mem with rfl | rfl | rfl
    · cases same
      decide
    · cases same
    · cases same
      exact trivial
  have months : twoResolutions.calendar.zone = .host → twoResolutions.calendar.MonthsHold :=
    fun host => nomatch host
  exact ⟨whole, by decide, (candles_valid months whole).2⟩

def unpricedMinute : Candle :=
  { Candle.fresh ⟨"BTC/USDT"⟩ .minute1 twoResolutions.calendar (.clamp 0) with
    volume := ⟨⟨false, 1, 0, one_lt_coefficientLimit, Nat.zero_le maxScale⟩⟩ }

/-- Such a candle is taken, and a deal then sets all its prices but the open. -/
theorem unopened_invalid : ∃ c,
    Store.checkSeed unpricedMinute.pair (some unpricedMinute) = .ok () ∧
    Table.get? (Table.afterCalls twoResolutions {}
      [⟨.clamp 0, .request (.seed unpricedMinute.pair (some unpricedMinute))⟩,
        ⟨.clamp (5 * nanosPerSecond), .request (.deal earlyDeal)⟩]) unpricedMinute.pair = some c ∧
      .updated c ∈ Table.eventsOfCalls twoResolutions {}
        [⟨.clamp 0, .request (.seed unpricedMinute.pair (some unpricedMinute))⟩,
          ⟨.clamp (5 * nanosPerSecond), .request (.deal earlyDeal)⟩] ∧
      c.open = none ∧ c.close = some earlyDeal.price ∧ c.isValid = false :=
  ⟨_, rfl, rfl, by decide, rfl, rfl, rfl⟩

end Candlestick
