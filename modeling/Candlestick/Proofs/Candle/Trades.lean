import Candlestick.Proofs.Decimal.Running
import Candlestick.Proofs.Store.Shortcut

/-!
# The trades of a candle

Folding a list of trades into a candle without volume. Trades of nothing keep the volume at
zero and open the candle again, so it opens at the first trade of more than nothing. As long
as the exact total is in range, the order of the trades decides nothing but the open and the
close (`foldAll_madeOf`).
-/

namespace Candlestick

namespace Candle

def pricesOf (trades : List (Price × Quantity)) : List Price := trades.map Prod.fst

def amountsOf (trades : List (Price × Quantity)) : List Decimal :=
  trades.map fun trade => trade.2.decimal

def opening? (trades : List (Price × Quantity)) : Option (Price × Quantity) :=
  (trades.find? fun trade => decide (0 < trade.2.decimal.coefficient)).or trades.getLast?

/-- The candle that trades make of one without volume. -/
structure MadeOf (c : Candle) (trades : List (Price × Quantity)) (folded : Candle) : Prop where
  market : folded.market = c.market
  resolution : folded.resolution = c.resolution
  openTime : folded.openTime = c.openTime
  closeTime : folded.closeTime = c.closeTime
  «open» : folded.open = (opening? trades).map Prod.fst
  high : ∃ high, folded.high = some high ∧ high.IsHighest (c.high.toList ++ pricesOf trades)
  low : ∃ low, folded.low = some low ∧ low.IsLowest (c.low.toList ++ pricesOf trades)
  close : folded.close = trades.getLast?.map Prod.fst
  volume : Decimal.exactTotal (amountsOf trades) < coefficientLimit →
    folded.volume.decimal.value = ((amountsOf trades).map Decimal.value).sum

variable {c folded : Candle} {trades others : List (Price × Quantity)} {price : Price}
  {amount : Quantity}

theorem foldAll_cons_eq_ok (h : c.foldAll ((price, amount) :: trades) = .ok folded) :
    ∃ volume, c.volume.add amount = .ok volume ∧
      (c.traded price volume).foldAll trades = .ok folded := by
  rw [foldAll] at h
  split at h
  · cases h
  · next next fold =>
    obtain ⟨volume, added, rfl⟩ := fold_eq_ok fold
    exact ⟨volume, added, h⟩

theorem foldAll_key (h : c.foldAll trades = .ok folded) :
    folded.market = c.market ∧ folded.resolution = c.resolution ∧
      folded.openTime = c.openTime ∧ folded.closeTime = c.closeTime := by
  induction trades generalizing c with
  | nil =>
    cases h
    exact ⟨rfl, rfl, rfl, rfl⟩
  | cons trade rest ih =>
    obtain ⟨volume, -, folds⟩ := foldAll_cons_eq_ok h
    exact ih (c := c.traded trade.1 volume) folds

-- ---------------------------------------------------------------------------
-- The open and the close
-- ---------------------------------------------------------------------------

/-- Once the volume is above zero no trade opens the candle again. -/
theorem foldAll_open_of_pos (above : 0 < c.volume.decimal.coefficient)
    (nonneg : ∀ a ∈ amountsOf trades, 0 ≤ a.coefficient)
    (h : c.foldAll trades = .ok folded) : folded.open = c.open := by
  induction trades generalizing c with
  | nil =>
    cases h
    rfl
  | cons trade rest ih =>
    obtain ⟨volume, added, folds⟩ := foldAll_cons_eq_ok h
    have more : 0 < volume.decimal.coefficient :=
      Decimal.add?_pos above (nonneg _ (List.mem_cons_self ..)) (Quantity.add_eq_ok_iff.mp added)
    have traded : c.volume.isZero = false := by
      refine Bool.eq_false_iff.mpr fun zero => ?_
      have := Decimal.isZero_iff.mp zero
      omega
    rw [ih more (fun a ha => nonneg a (List.mem_cons_of_mem _ ha)) folds]
    simp [Candle.traded, traded]

theorem foldAll_open (zero : c.volume.isZero = true) (nonempty : trades ≠ [])
    (nonneg : ∀ a ∈ amountsOf trades, 0 ≤ a.coefficient)
    (h : c.foldAll trades = .ok folded) : folded.open = (opening? trades).map Prod.fst := by
  induction trades generalizing c with
  | nil => exact absurd rfl nonempty
  | cons trade rest ih =>
    obtain ⟨price, amount⟩ := trade
    obtain ⟨volume, added, folds⟩ := foldAll_cons_eq_ok h
    have start : volume = amount := by
      have sum := Quantity.add_eq_ok_iff.mp added
      rw [Decimal.add?_zero_left zero] at sum
      cases volume
      cases sum
      rfl
    subst start
    have first : 0 ≤ volume.decimal.coefficient := nonneg _ (List.mem_cons_self ..)
    have later : ∀ a ∈ amountsOf rest, 0 ≤ a.coefficient :=
      fun a ha => nonneg a (List.mem_cons_of_mem _ ha)
    have opened : (c.traded price volume).open = some price := if_pos zero
    by_cases above : 0 < volume.decimal.coefficient
    · rw [foldAll_open_of_pos above later folds, opened]
      simp [opening?, above]
    · have still : volume.isZero = true := Decimal.isZero_iff.mpr (by omega)
      cases rest with
      | nil =>
        cases folds
        rw [opened]
        simp [opening?, above]
      | cons next rest =>
        rw [ih still (List.cons_ne_nil _ _) later folds]
        simp [opening?, above]

theorem foldAll_close (nonempty : trades ≠ []) (h : c.foldAll trades = .ok folded) :
    folded.close = trades.getLast?.map Prod.fst := by
  induction trades generalizing c with
  | nil => exact absurd rfl nonempty
  | cons trade rest ih =>
    obtain ⟨volume, -, folds⟩ := foldAll_cons_eq_ok h
    cases rest with
    | nil =>
      cases folds
      rfl
    | cons next rest => rw [ih (List.cons_ne_nil _ _) folds, List.getLast?_cons_cons]

-- ---------------------------------------------------------------------------
-- The extremes
-- ---------------------------------------------------------------------------

/-- What holds of the high and of the low: each trade takes it as far as it goes. -/
theorem foldAll_holds {cmp : Price → Price → Ordering} [Std.TransCmp cmp] {prices : List Price}
    (side : Candle → Option Price)
    (moves : ∀ c price volume, side (traded c price volume) =
      some (Price.further cmp (side c) price))
    (held : Price.Holds cmp (side c) prices) (h : c.foldAll trades = .ok folded) :
    Price.Holds cmp (side folded) (prices ++ pricesOf trades) := by
  induction trades generalizing c prices with
  | nil =>
    cases h
    simpa [pricesOf] using held
  | cons trade rest ih =>
    obtain ⟨volume, -, folds⟩ := foldAll_cons_eq_ok h
    have next : Price.Holds cmp (side (c.traded trade.1 volume)) (prices ++ [trade.1]) := by
      rw [moves]
      exact held.further trade.1
    simpa [pricesOf] using ih next folds

-- ---------------------------------------------------------------------------
-- The volume
-- ---------------------------------------------------------------------------

/-- Trades whose exact total is in range, together with what was traded before, can all
be folded, and no sum on the way is rounded. -/
theorem foldAll_volume {before : List Decimal}
    (volume : c.volume.decimal.value = (before.map Decimal.value).sum)
    (nonneg : ∀ a ∈ before ++ amountsOf trades, 0 ≤ a.coefficient)
    (fits : Decimal.exactTotal (before ++ amountsOf trades) < coefficientLimit) :
    ∃ folded, c.foldAll trades = .ok folded ∧
      folded.volume.decimal.value = ((before ++ amountsOf trades).map Decimal.value).sum := by
  induction trades generalizing c before with
  | nil => exact ⟨c, rfl, by simpa [amountsOf] using volume⟩
  | cons trade rest ih =>
    obtain ⟨price, amount⟩ := trade
    have split : before ++ amountsOf ((price, amount) :: rest) =
        before ++ [amount.decimal] ++ amountsOf rest := by simp [amountsOf]
    rw [split] at nonneg fits ⊢
    have sofar : ∀ a ∈ before ++ [amount.decimal], 0 ≤ a.coefficient :=
      fun a ha => nonneg a (List.mem_append_left _ ha)
    have sum : ((before ++ [amount.decimal]).map Decimal.value).sum =
        c.volume.decimal.value + amount.decimal.value := by simp [volume]
    have written := Decimal.exists_value_eq_sum sofar
      (Int.lt_of_le_of_lt (Decimal.exactTotal_le_append _ nonneg) fits)
    rw [sum] at written
    obtain ⟨total, added, exact⟩ := Decimal.add?_of_writable written
    have fold : c.fold price amount = .ok (c.traded price ⟨total⟩) :=
      fold_of_add (Quantity.add_eq_ok_iff.mpr added)
    obtain ⟨folded, folds, value⟩ := ih (c := c.traded price ⟨total⟩) (exact.trans sum.symm)
      nonneg fits
    exact ⟨folded, by rw [foldAll, fold]; exact folds, value⟩

theorem foldAll_volume_of_zero (zero : c.volume.isZero = true)
    (nonneg : ∀ a ∈ amountsOf trades, 0 ≤ a.coefficient)
    (fits : Decimal.exactTotal (amountsOf trades) < coefficientLimit) :
    ∃ folded, c.foldAll trades = .ok folded ∧
      folded.volume.decimal.value = ((amountsOf trades).map Decimal.value).sum := by
  have nothing : c.volume.decimal.value = (([] : List Decimal).map Decimal.value).sum :=
    Decimal.value_of_isZero zero
  exact foldAll_volume nothing nonneg fits

theorem madeOf_of_foldAll (zero : c.volume.isZero = true) (nonempty : trades ≠ [])
    (nonneg : ∀ a ∈ amountsOf trades, 0 ≤ a.coefficient) (h : c.foldAll trades = .ok folded) :
    c.MadeOf trades folded := by
  obtain ⟨market, resolution, openTime, closeTime⟩ := foldAll_key h
  have opened := foldAll_open zero nonempty nonneg h
  have closed := foldAll_close nonempty h
  have priced : ∀ before : List Price, before ++ pricesOf trades ≠ [] := fun before =>
    List.append_ne_nil_of_right_ne_nil before (mt List.map_eq_nil_iff.mp nonempty)
  have high := foldAll_holds Candle.high (fun _ _ _ => rfl) (Price.holds_toList c.high) h
  have low := foldAll_holds Candle.low (fun _ _ _ => congrArg some (lower_eq ..))
    (Price.holds_toList c.low) h
  refine ⟨market, resolution, openTime, closeTime, opened, high.exists_extreme (priced _),
    low.exists_extreme (priced _), closed, fun fits => ?_⟩
  obtain ⟨_, folds, value⟩ := foldAll_volume_of_zero zero nonneg fits
  rw [h] at folds
  cases folds
  exact value

end Candle

/-- Trades that are folded into a candle without volume leave its key and its times,
close it at the last price and open it at the price of the first trade of more than
nothing. Its high and low are extremes of all prices and of its own. While the exact
total is in range the volume is that total, and in any other order the trades can be
folded too and give the same high, low and volume. -/
theorem foldAll_madeOf {c folded : Candle} {trades : List (Price × Quantity)}
    (zero : c.volume.isZero = true) (nonempty : trades ≠ [])
    (nonneg : ∀ trade ∈ trades, 0 ≤ trade.2.decimal.coefficient)
    (ok : c.foldAll trades = .ok folded) :
    c.MadeOf trades folded ∧
      (Decimal.exactTotal (Candle.amountsOf trades) < coefficientLimit →
        ∀ others : List (Price × Quantity), trades.Perm others →
          ∃ folded', c.foldAll others = .ok folded' ∧ SamePrice folded'.high folded.high ∧
            SamePrice folded'.low folded.low ∧ folded'.volume.SameValue folded.volume) := by
  have nonneg : ∀ a ∈ Candle.amountsOf trades, 0 ≤ a.coefficient :=
    List.forall_mem_map.mpr nonneg
  have made := Candle.madeOf_of_foldAll zero nonempty nonneg ok
  refine ⟨made, fun fits others perm => ?_⟩
  have amounts : (Candle.amountsOf trades).Perm (Candle.amountsOf others) := perm.map _
  have prices : (Candle.pricesOf trades).Perm (Candle.pricesOf others) := perm.map _
  have nonneg' : ∀ a ∈ Candle.amountsOf others, 0 ≤ a.coefficient :=
    fun a ha => nonneg a (amounts.mem_iff.mpr ha)
  have fits' : Decimal.exactTotal (Candle.amountsOf others) < coefficientLimit :=
    Decimal.exactTotal_perm amounts ▸ fits
  obtain ⟨folded', folds, -⟩ := Candle.foldAll_volume_of_zero zero nonneg' fits'
  have made' := Candle.madeOf_of_foldAll zero
    (fun none => nonempty (none ▸ perm).eq_nil) nonneg' folds
  refine ⟨folded', folds, ?_, ?_, ?_⟩
  · obtain ⟨high, here, highest⟩ := made.high
    obtain ⟨high', here', highest'⟩ := made'.high
    rw [here, here']
    have rank : high'.order high = .eq :=
      Price.IsExtreme.order_eq highest' highest fun p => ((prices.append_left _).mem_iff).symm
    exact Decimal.sameValue_of_order_eq rank
  · obtain ⟨low, here, lowest⟩ := made.low
    obtain ⟨low', here', lowest'⟩ := made'.low
    rw [here, here']
    have rank : low'.downward low = .eq :=
      Price.IsExtreme.order_eq lowest' lowest fun p => ((prices.append_left _).mem_iff).symm
    exact (Decimal.sameValue_of_order_eq rank).symm
  · refine Decimal.sameValue_iff_value_eq.mpr ?_
    rw [made'.volume fits', made.volume fits]
    exact (amounts.map _).sum_eq.symm

/-- Three deals of a flat minute, the first one of nothing: the minute opens at the
second one, and would also take them in the reverse order. -/
theorem plainDeals_madeOf : ∃ opening folded reversed,
    flatMinute.get? ⟨⟨"BTC/USDT"⟩, .minute1⟩ = some opening ∧ opening.volume.isZero = true ∧
      tradesOf plainDeals ≠ [] ∧
      (∀ trade ∈ tradesOf plainDeals, 0 ≤ trade.2.decimal.coefficient) ∧
      opening.foldAll (tradesOf plainDeals) = .ok folded ∧
      opening.MadeOf (tradesOf plainDeals) folded ∧
      folded.open = some ⟨digits ⟨55, by decide⟩ 1⟩ ∧
      Decimal.exactTotal (Candle.amountsOf (tradesOf plainDeals)) < coefficientLimit ∧
      opening.foldAll (tradesOf plainDeals).reverse = .ok reversed ∧
      SamePrice reversed.high folded.high ∧ SamePrice reversed.low folded.low ∧
      reversed.volume.SameValue folded.volume := by
  obtain ⟨opening, here⟩ : ∃ opening,
      flatMinute.get? ⟨⟨"BTC/USDT"⟩, .minute1⟩ = some opening := ⟨_, rfl⟩
  have ready : ∀ c ∈ flatMinute.get? ⟨⟨"BTC/USDT"⟩, .minute1⟩, c.volume.isZero = true ∧
      (c.foldAll (tradesOf plainDeals)).isOk = true := by decide
  obtain ⟨zero, folds⟩ := ready opening here
  have nonneg : ∀ trade ∈ tradesOf plainDeals, 0 ≤ trade.2.decimal.coefficient := by decide
  have fits : Decimal.exactTotal (Candle.amountsOf (tradesOf plainDeals)) < coefficientLimit := by
    decide
  cases ok : opening.foldAll (tradesOf plainDeals) with
  | error e =>
    rw [ok] at folds
    cases folds
  | ok folded =>
    obtain ⟨made, orders⟩ := foldAll_madeOf zero (by decide) nonneg ok
    obtain ⟨reversed, folds', high, low, volume⟩ := orders fits _ (List.reverse_perm _).symm
    exact ⟨opening, folded, reversed, here, zero, by decide, nonneg, ok, made, made.open, fits,
      folds', high, low, volume⟩

end Candlestick
