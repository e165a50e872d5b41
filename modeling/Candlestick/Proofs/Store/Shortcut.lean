import Candlestick.Proofs.Candle.Extremes
import Candlestick.Proofs.Decimal.Value
import Candlestick.Proofs.Store.Transition

/-!
# Folds that change no value

A deal whose fold leaves all numeric values of a candle as they are is no change for a
store: the candle stays as it is written (`Candle.absorb`). Highs and lows follow the candle
order, which looks at the digits: against plain folds that can make a difference to them
(`shortcut_moves_high`), and to nothing else (`stored_alike_folds`).
-/

namespace Candlestick

theorem SamePrice.refl : (p : Option Price) → SamePrice p p
  | none => trivial
  | some p => Decimal.SameValue.refl p.decimal

theorem SamePrice.symm : {p q : Option Price} → SamePrice p q → SamePrice q p
  | none, none, _ => trivial
  | some _, some _, h => Decimal.SameValue.symm h

theorem SamePrice.trans : {p q r : Option Price} → SamePrice p q → SamePrice q r → SamePrice p r
  | none, none, none, _, _ => trivial
  | some _, some _, some _, h, h' => Decimal.SameValue.trans h h'

def SameRank : Option Price → Option Price → Prop
  | none, none => True
  | some a, some b => a.order b = .eq
  | _, _ => False

theorem SameRank.refl : (p : Option Price) → SameRank p p
  | none => trivial
  | some p => Decimal.order_self p.decimal

theorem SameRank.symm : {p q : Option Price} → SameRank p q → SameRank q p
  | none, none, _ => trivial
  | some _, some _, h => Std.OrientedCmp.eq_symm h

theorem SameRank.trans : {p q r : Option Price} → SameRank p q → SameRank q r → SameRank p r
  | none, none, none, _, _ => trivial
  | some _, some _, some _, h, h' => Std.TransCmp.eq_trans h h'

/-- Whichever way a price moves them, what ranks alike is moved alike. -/
theorem SameRank.further {cmp : Price → Price → Ordering} [Std.TransCmp cmp]
    (ties : ∀ {a b : Price}, a.order b = .eq → cmp a b = .eq) (price : Price) :
    {p q : Option Price} → SameRank p q →
      SameRank (some (Price.further cmp p price)) (some (Price.further cmp q price))
  | none, none, _ => .refl (some price)
  | some a, some b, h => by
    have alike : cmp price a = cmp price b := Std.TransCmp.congr_right (ties h)
    simp only [Price.further, alike]
    split
    · exact .refl _
    · exact h

theorem SameRank.samePrice : {p q : Option Price} → SameRank p q → SamePrice p q
  | none, none, _ => trivial
  | some _, some _, h => Decimal.sameValue_of_order_eq h

/-- Prices of one value rank alike: no number but zero is written with different
numbers of fractional digits. -/
def WrittenAlike (prices : List Price) : Prop :=
  ∀ p ∈ prices, ∀ q ∈ prices, p.SameValue q → p.order q = .eq

instance (prices : List Price) : Decidable (WrittenAlike prices) :=
  inferInstanceAs (Decidable (∀ p ∈ prices, ∀ q ∈ prices, p.SameValue q → p.order q = .eq))

namespace Candle

variable {a b c d : Candle} {price : Price} {amount : Quantity}

-- ---------------------------------------------------------------------------
-- Two ways to take trades
-- ---------------------------------------------------------------------------

/-- The candle after one trade as a store keeps it: where no numeric value
changes, the candle before it. -/
def absorb (c : Candle) (price : Price) (amount : Quantity) : Except DecimalError Candle :=
  match c.fold price amount with
  | .error e => .error e
  | .ok folded => .ok (if folded.SameValue c then c else folded)

def foldAll (c : Candle) : List (Price × Quantity) → Except DecimalError Candle
  | [] => .ok c
  | (price, amount) :: rest =>
    match c.fold price amount with
    | .error e => .error e
    | .ok folded => folded.foldAll rest

def absorbAll (c : Candle) : List (Price × Quantity) → Except DecimalError Candle
  | [] => .ok c
  | (price, amount) :: rest =>
    match c.absorb price amount with
    | .error e => .error e
    | .ok kept => kept.absorbAll rest

theorem absorb_eq_ok (h : c.absorb price amount = .ok d) :
    ∃ folded, c.fold price amount = .ok folded ∧
      ((folded.SameValue c ∧ d = c) ∨ (¬ folded.SameValue c ∧ d = folded)) := by
  unfold absorb at h
  split at h
  · cases h
  · next folded fold =>
    refine ⟨folded, fold, ?_⟩
    split at h
    · next same => cases h; exact .inl ⟨same, rfl⟩
    · next other => cases h; exact .inr ⟨other, rfl⟩

/-- The candle after a trade that brings it to a volume. -/
def traded (c : Candle) (price : Price) (volume : Quantity) : Candle :=
  { c with
    «open» := if c.volume.isZero then some price else c.open
    high := some (raise c.high price)
    low := some (lower c.low price)
    close := some price
    volume := volume }

theorem fold_of_add {volume : Quantity} (added : c.volume.add amount = .ok volume) :
    c.fold price amount = .ok (c.traded price volume) := by
  simp only [fold, added]
  rfl

theorem fold_eq_ok (h : c.fold price amount = .ok d) :
    ∃ volume, c.volume.add amount = .ok volume ∧ d = c.traded price volume := by
  unfold fold at h
  split at h
  · cases h
  · next volume added => cases h; exact ⟨volume, added, rfl⟩

-- ---------------------------------------------------------------------------
-- Values that no digits decide
-- ---------------------------------------------------------------------------

/-- One candle but for the extremes, up to numeric values. -/
structure Alike (a b : Candle) : Prop where
  market : a.market = b.market
  resolution : a.resolution = b.resolution
  openTime : a.openTime = b.openTime
  closeTime : a.closeTime = b.closeTime
  «open» : SamePrice a.open b.open
  close : SamePrice a.close b.close
  volume : a.volume.SameValue b.volume

structure Level (a b : Candle) : Prop where
  high : SameRank a.high b.high
  low : SameRank a.low b.low

theorem Alike.refl (a : Candle) : a.Alike a :=
  ⟨rfl, rfl, rfl, rfl, .refl _, .refl _, Decimal.SameValue.refl _⟩

theorem Alike.trans (h : a.Alike b) (h' : b.Alike c) : a.Alike c where
  market := h.market.trans h'.market
  resolution := h.resolution.trans h'.resolution
  openTime := h.openTime.trans h'.openTime
  closeTime := h.closeTime.trans h'.closeTime
  «open» := h.open.trans h'.open
  close := h.close.trans h'.close
  volume := Decimal.SameValue.trans h.volume h'.volume

theorem Level.refl (a : Candle) : a.Level a := ⟨.refl _, .refl _⟩

theorem Level.trans (h : a.Level b) (h' : b.Level c) : a.Level c :=
  ⟨h.high.trans h'.high, h.low.trans h'.low⟩

theorem SameValue.alike (h : a.SameValue b) : b.Alike a := by
  obtain ⟨market, resolution, openTime, closeTime, «open», -, -, close, volume⟩ := h
  exact ⟨market.symm, resolution.symm, openTime.symm, closeTime.symm, open.symm, close.symm,
    Decimal.SameValue.symm volume⟩

theorem Alike.sameValue (h : a.Alike b) (level : a.Level b) : a.SameValue b :=
  ⟨h.market, h.resolution, h.openTime, h.closeTime, h.open, level.high.samePrice,
    level.low.samePrice, h.close, h.volume⟩

/-- A fold does not tell candles apart that differ in digits only. -/
theorem Alike.fold (h : a.Alike b) (folded : a.fold price amount = .ok c) :
    ∃ d, b.fold price amount = .ok d ∧ c.Alike d := by
  obtain ⟨volume, added, rfl⟩ := fold_eq_ok folded
  obtain ⟨volume', added', same⟩ := Quantity.add_sameValue h.volume added
  have zero : a.volume.isZero = b.volume.isZero := Decimal.SameValue.isZero_eq h.volume
  refine ⟨_, fold_of_add added', ⟨h.market, h.resolution, h.openTime, h.closeTime, ?_,
    .refl (some price), same⟩⟩
  simp only [traded, zero]
  split
  · exact .refl _
  · exact h.open

theorem Level.fold (h : a.Level b) (left : a.fold price amount = .ok c)
    (right : b.fold price amount = .ok d) : c.Level d := by
  obtain ⟨_, -, rfl⟩ := fold_eq_ok left
  obtain ⟨_, -, rfl⟩ := fold_eq_ok right
  refine ⟨h.high.further id price, ?_⟩
  simp only [traded, lower_eq]
  exact h.low.further Std.OrientedCmp.eq_symm price

-- ---------------------------------------------------------------------------
-- The extremes, where no number is written in two ways
-- ---------------------------------------------------------------------------

def extremes (c : Candle) : List Price := c.high.toList ++ c.low.toList

theorem extremes_fold (folded : c.fold price amount = .ok d) :
    ∀ p ∈ d.extremes, p ∈ c.extremes ∨ p = price := by
  obtain ⟨_, -, rfl⟩ := fold_eq_ok folded
  intro p hp
  simp only [traded, extremes, Option.toList_some, List.singleton_append, List.mem_cons,
    List.not_mem_nil, or_false] at hp
  simp only [extremes, List.mem_append, Option.mem_toList]
  rcases hp with rfl | rfl
  · exact (raise_cases c.high price).imp_left .inl
  · exact (lower_cases c.low price).imp_left .inr

theorem sameRank_of_samePrice {prices : List Price} (written : WrittenAlike prices)
    {p q : Option Price} (hp : ∀ x ∈ p, x ∈ prices) (hq : ∀ x ∈ q, x ∈ prices)
    (same : SamePrice p q) : SameRank p q := by
  cases p with
  | none =>
    cases q with
    | none => trivial
    | some q => exact absurd same id
  | some p =>
    cases q with
    | none => exact absurd same id
    | some q => exact written p (hp p rfl) q (hq q rfl) same

theorem SameValue.level {prices : List Price} (written : WrittenAlike prices)
    (ha : ∀ p ∈ a.extremes, p ∈ prices) (hb : ∀ p ∈ b.extremes, p ∈ prices)
    (same : a.SameValue b) : b.Level a := by
  obtain ⟨-, -, -, -, -, high, low, -, -⟩ := same
  simp only [extremes, List.mem_append, Option.mem_toList] at ha hb
  constructor
  · exact (sameRank_of_samePrice written (fun p hp => ha p (.inl hp))
      (fun p hp => hb p (.inl hp)) high).symm
  · exact (sameRank_of_samePrice written (fun p hp => ha p (.inr hp))
      (fun p hp => hb p (.inr hp)) low).symm

-- ---------------------------------------------------------------------------
-- Trades one after the other
-- ---------------------------------------------------------------------------

theorem Alike.absorb (h : a.Alike b) (kept : a.absorb price amount = .ok c) :
    ∃ d, b.fold price amount = .ok d ∧ c.Alike d ∧
      (∀ p ∈ c.extremes, p ∈ a.extremes ∨ p = price) ∧
      (∀ prices, WrittenAlike prices → (∀ p ∈ a.extremes, p ∈ prices) → price ∈ prices →
        a.Level b → c.Level d) := by
  obtain ⟨folded, fold, kept⟩ := absorb_eq_ok kept
  obtain ⟨d, fold', alike⟩ := h.fold fold
  have among := extremes_fold fold
  rcases kept with ⟨same, rfl⟩ | ⟨-, rfl⟩
  · refine ⟨d, fold', same.alike.trans alike, fun p hp => .inl hp, ?_⟩
    intro prices written old new level
    have inside : ∀ p ∈ folded.extremes, p ∈ prices := fun p hp =>
      (among p hp).elim (old p) fun same => same ▸ new
    exact (same.level written inside old).trans (level.fold fold fold')
  · exact ⟨d, fold', alike, among, fun _ _ _ _ level => level.fold fold fold'⟩

theorem Alike.absorbAll {trades : List (Price × Quantity)} (h : a.Alike b)
    (kept : a.absorbAll trades = .ok c) :
    ∃ d, b.foldAll trades = .ok d ∧ c.Alike d ∧
      (∀ prices, WrittenAlike prices → (∀ p ∈ a.extremes, p ∈ prices) →
        (∀ trade ∈ trades, trade.1 ∈ prices) → a.Level b → c.Level d) := by
  induction trades generalizing a b with
  | nil =>
    cases kept
    exact ⟨b, rfl, h, fun _ _ _ _ level => level⟩
  | cons trade rest ih =>
    obtain ⟨price, amount⟩ := trade
    unfold Candle.absorbAll at kept
    split at kept
    · cases kept
    · next next absorbed =>
      obtain ⟨middle, fold, alike, among, level⟩ := h.absorb absorbed
      obtain ⟨d, folds, alike', level'⟩ := ih alike kept
      refine ⟨d, by rw [foldAll, fold]; exact folds, alike', fun prices written old new start => ?_⟩
      have first : price ∈ prices := new (price, amount) (List.mem_cons_self ..)
      refine level' prices written (fun p hp => ?_) (fun t ht => new t (List.mem_cons_of_mem _ ht))
        (level prices written old first start)
      exact (among p hp).elim (old p) fun same => same ▸ first

theorem absorb_key (kept : c.absorb price amount = .ok d) :
    d.openTime = c.openTime ∧ d.closeTime = c.closeTime := by
  obtain ⟨folded, fold, ⟨-, rfl⟩ | ⟨-, rfl⟩⟩ := absorb_eq_ok kept
  · exact ⟨rfl, rfl⟩
  · obtain ⟨-, -, openTime, closeTime⟩ := fold_key fold
    exact ⟨openTime, closeTime⟩

end Candle

-- ---------------------------------------------------------------------------
-- Deals of one bucket
-- ---------------------------------------------------------------------------

def dealRequests (deals : List (Instant × Deal)) : List DatedRequest :=
  deals.map fun d => ⟨d.1, .deal d.2⟩

def tradesOf (deals : List (Instant × Deal)) : List (Price × Quantity) :=
  deals.map fun d => (d.2.price, d.2.amount)

/-- A deal of a pair that is processed while the bucket of a candle is live and
contains it. -/
structure Lands (pair : Pair) (c : Candle) (d : Instant × Deal) : Prop where
  market : d.2.market = pair.market
  contained : c.contains d.2.createdAt = true
  live : c.hasEnded d.1 = false

instance (pair : Pair) (c : Candle) (d : Instant × Deal) : Decidable (Lands pair c d) :=
  decidable_of_iff (d.2.market = pair.market ∧ c.contains d.2.createdAt = true ∧
      c.hasEnded d.1 = false)
    ⟨fun ⟨market, contained, live⟩ => ⟨market, contained, live⟩, fun ⟨market, contained, live⟩ =>
      ⟨market, contained, live⟩⟩

section
variable {config : StoreConfig} {t : Table} {pair : Pair} {c : Candle} {d : Instant × Deal}

theorem Lands.of_times {c' : Candle} (lands : Lands pair c d) (start : c'.openTime = c.openTime)
    (stop : c'.closeTime = c.closeTime) : Lands pair c' d := by
  obtain ⟨market, contained, live⟩ := lands
  refine ⟨market, ?_, ?_⟩
  · rwa [Candle.contains, start, stop]
  · rwa [Candle.hasEnded, stop]

theorem absorb_of_serve (nodup : config.resolutions.Nodup) (tidy : t.Tidy)
    (kept : pair.resolution ∈ config.resolutions) (market : d.2.market = pair.market)
    (contained : (Store.live config.calendar pair (t.get? pair) d.1).candle.contains
      d.2.createdAt = true)
    (ok : ((⟨d.1, .deal d.2⟩ : DatedRequest).serve config t).reply.isOk = true) :
    ∃ next, (Store.live config.calendar pair (t.get? pair) d.1).candle.absorb d.2.price
        d.2.amount = .ok next ∧
      ((⟨d.1, .deal d.2⟩ : DatedRequest).serve config t).table.get? pair = some next := by
  cases reply : ((⟨d.1, .deal d.2⟩ : DatedRequest).serve config t).reply with
  | error e =>
    rw [reply] at ok
    cases ok
  | ok r =>
    have step := DatedRequest.serve_pairStep nodup tidy reply pair
    generalize ((⟨d.1, .deal d.2⟩ : DatedRequest).serve config t).table.get? pair = after at step
    generalize Event.toldOf pair _ = events at step
    cases step with
    | aside outside => exact absurd ⟨market, kept⟩ outside
    | skipped _ missed =>
      rw [contained] at missed
      cases missed
    | idle _ _ folded same => exact ⟨_, by simp [Candle.absorb, folded, same], rfl⟩
    | folded _ _ folded moved => exact ⟨_, by simp [Candle.absorb, folded, moved], rfl⟩

theorem live_of_lands (calendar : Calendar) (lands : Lands pair c d) :
    (Store.live calendar pair (some c) d.1).candle = c := by
  simp [Store.live, lands.live]

theorem absorbAll_after {deals : List (Instant × Deal)} (nodup : config.resolutions.Nodup)
    (tidy : t.Tidy) (kept : pair.resolution ∈ config.resolutions) (stored : t.get? pair = some c)
    (lands : ∀ d ∈ deals, Lands pair c d)
    (ok : ∀ served ∈ t.serveAll config (dealRequests deals), served.reply.isOk = true) :
    ∃ last, c.absorbAll (tradesOf deals) = .ok last ∧
      (t.after config (dealRequests deals)).get? pair = some last := by
  induction deals generalizing t c with
  | nil => exact ⟨c, rfl, stored⟩
  | cons d rest ih =>
    have first := lands d (List.mem_cons_self ..)
    have live := live_of_lands config.calendar first
    obtain ⟨next, absorbed, found⟩ := absorb_of_serve (t := t) (d := d) nodup tidy kept
      first.market (by rw [stored, live]; exact first.contained) (ok _ (List.mem_cons_self ..))
    rw [stored, live] at absorbed
    obtain ⟨start, stop⟩ := Candle.absorb_key absorbed
    obtain ⟨last, all, after⟩ := ih (DatedRequest.serve_tidy tidy) found
      (fun d' hd => (lands d' (List.mem_cons_of_mem _ hd)).of_times start stop)
      (fun served hs => ok served (List.mem_cons_of_mem _ hs))
    exact ⟨last, by simp only [tradesOf, List.map_cons, Candle.absorbAll, absorbed]; exact all, after⟩

/-- Deals that land in a bucket leave its candle with the open, the close and the
volume of plain folds over the candle that was live first. Its high and its low
are those of plain folds too, where no number but zero is written with different
numbers of fractional digits among the prices. -/
theorem stored_alike_folds {rest : List (Instant × Deal)} {opening : Candle}
    (nodup : config.resolutions.Nodup) (tidy : t.Tidy)
    (kept : pair.resolution ∈ config.resolutions)
    (live : (Store.live config.calendar pair (t.get? pair) d.1).candle = opening)
    (lands : ∀ d' ∈ d :: rest, Lands pair opening d')
    (ok : ∀ served ∈ t.serveAll config (dealRequests (d :: rest)), served.reply.isOk = true) :
    ∃ stored folded, (t.after config (dealRequests (d :: rest))).get? pair = some stored ∧
      opening.foldAll (tradesOf (d :: rest)) = .ok folded ∧ stored.Alike folded ∧
      (WrittenAlike (opening.extremes ++ (tradesOf (d :: rest)).map Prod.fst) →
        stored.SameValue folded) := by
  have first := lands d (List.mem_cons_self ..)
  obtain ⟨next, absorbed, found⟩ := absorb_of_serve (t := t) (d := d) nodup tidy kept first.market
    (by rw [live]; exact first.contained) (ok _ (List.mem_cons_self ..))
  rw [live] at absorbed
  obtain ⟨start, stop⟩ := Candle.absorb_key absorbed
  obtain ⟨stored, all, after⟩ := absorbAll_after nodup (DatedRequest.serve_tidy tidy) kept found
    (fun d' hd => (lands d' (List.mem_cons_of_mem _ hd)).of_times start stop)
    (fun served hs => ok served (List.mem_cons_of_mem _ hs))
  have whole : opening.absorbAll (tradesOf (d :: rest)) = .ok stored := by
    simp only [tradesOf, List.map_cons, Candle.absorbAll, absorbed]
    exact all
  obtain ⟨folded, folds, alike, level⟩ := (Candle.Alike.refl opening).absorbAll whole
  refine ⟨stored, folded, after, folds, alike, fun written => alike.sameValue ?_⟩
  refine level _ written (fun p hp => List.mem_append_left _ hp) (fun trade ht => ?_) (.refl _)
  exact List.mem_append_right _ (List.mem_map_of_mem ht)

end

-- ---------------------------------------------------------------------------
-- A flat minute
-- ---------------------------------------------------------------------------

def minuteStore : StoreConfig := ⟨⟨.utc, .fixed 0⟩, [.minute1]⟩

instance : NeZero coefficientLimit := ⟨by decide⟩

def digits (magnitude : Fin coefficientLimit) (scale : Fin 29) : Decimal :=
  ⟨false, magnitude.val, scale.val, magnitude.isLt, Nat.lt_succ_iff.mp scale.isLt⟩

def dealWritten (second : Nat) (price amount : Decimal) : Instant × Deal :=
  (.clamp (second * nanosPerSecond),
    { earlyDeal with
      price := ⟨price⟩
      amount := ⟨amount⟩
      createdAt := .clamp (second * nanosPerSecond) })

def flatMinute : Table :=
  Table.after minuteStore {}
    (dealRequests [dealWritten 5 (digits 10 1) (digits 1 0)] ++
      [⟨.clamp (65 * nanosPerSecond), .refresh⟩])

/-- Deals at `1.0`, `5.5` and `2.0`, the first one of nothing. -/
def plainDeals : List (Instant × Deal) :=
  [dealWritten 65 (digits 10 1) (digits 0 0),
    dealWritten 66 (digits 55 1) (digits 1 0),
    dealWritten 67 (digits 20 1) (digits 3 2)]

theorem plainDeals_alike : ∃ opening stored folded,
    flatMinute.get? ⟨⟨"BTC/USDT"⟩, .minute1⟩ = some opening ∧
      (∀ d ∈ plainDeals, Lands ⟨⟨"BTC/USDT"⟩, .minute1⟩ opening d) ∧
      (flatMinute.after minuteStore (dealRequests plainDeals)).get? ⟨⟨"BTC/USDT"⟩, .minute1⟩ =
        some stored ∧
      opening.foldAll (tradesOf plainDeals) = .ok folded ∧ stored.SameValue folded := by
  obtain ⟨opening, here⟩ : ∃ opening,
      flatMinute.get? ⟨⟨"BTC/USDT"⟩, .minute1⟩ = some opening := ⟨_, rfl⟩
  have tidy : flatMinute.Tidy := Table.tidy_empty.after _ _
  have nodup : minuteStore.resolutions.Nodup := by decide
  have lands : ∀ c ∈ flatMinute.get? ⟨⟨"BTC/USDT"⟩, .minute1⟩,
      (∀ d ∈ plainDeals, Lands ⟨⟨"BTC/USDT"⟩, .minute1⟩ c d) ∧
        WrittenAlike (c.extremes ++ (tradesOf plainDeals).map Prod.fst) := by decide
  obtain ⟨lands, written⟩ := lands opening here
  obtain ⟨stored, folded, after, folds, -, same⟩ := stored_alike_folds nodup tidy (by decide)
    (by rw [here]; exact live_of_lands _ (lands _ (List.mem_cons_self ..))) lands (by decide)
  exact ⟨opening, stored, folded, here, lands, after, folds, same written⟩

/-- A deal of nothing at `1` is no change to a flat candle at `1.0`, but the plain
fold takes its price for the high, which a deal at `5.5` then does not raise. -/
def mixedDeals : List (Instant × Deal) :=
  [dealWritten 65 (digits 1 0) (digits 0 0),
    dealWritten 65 (digits 55 1) (digits 1 0)]

theorem shortcut_moves_high : ∃ opening stored folded,
    flatMinute.get? ⟨⟨"BTC/USDT"⟩, .minute1⟩ = some opening ∧
      (∀ d ∈ mixedDeals, Lands ⟨⟨"BTC/USDT"⟩, .minute1⟩ opening d) ∧
      (∀ served ∈ flatMinute.serveAll minuteStore (dealRequests mixedDeals),
        served.reply = .ok (.outcome ⟨1, 0⟩)) ∧
      (flatMinute.after minuteStore (dealRequests mixedDeals)).get? ⟨⟨"BTC/USDT"⟩, .minute1⟩ =
        some stored ∧
      opening.foldAll (tradesOf mixedDeals) = .ok folded ∧
      stored.high = some ⟨digits ⟨55, by decide⟩ 1⟩ ∧ folded.high = some ⟨digits ⟨1, by decide⟩ 0⟩ ∧
      ¬ stored.SameValue folded :=
  ⟨_, _, _, rfl, by decide, by decide, rfl, rfl, rfl, rfl, by decide⟩

end Candlestick
