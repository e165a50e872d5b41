import Candlestick.Proofs.Calendar.Steady
import Candlestick.Proofs.Candle.Extremes
import Candlestick.Proofs.Decimal.Total
import Candlestick.Proofs.Store.Transition

/-!
# What a live candle tells

A run of deals and refreshes leaves each pair with a candle that is determined by the close
that was carried into its bucket and by the deals that landed there. The invariant
(`Account`) ties the candle to the whole run before it. Zones whose offset changes are left
out, and so are sums that have to be rounded.
-/

namespace Candlestick

/-- The deal of a transition that landed in the bucket of a pair: the bucket is
live after the request and contains the deal. -/
def Transition.landed? (pair : Pair) (start : Instant) (step : Transition) : Option Deal :=
  match step.dated.request, step.after.get? pair with
  | .deal d, some c =>
    if d.market = pair.market ∧ c.openTime = start ∧ c.contains d.createdAt = true then some d
    else none
  | _, _ => none

/-- The deals that landed in the bucket that starts at `start`, in the order in
which they were processed. -/
def landedDeals (pair : Pair) (start : Instant) (steps : List Transition) : List Deal :=
  steps.filterMap (Transition.landed? pair start)

/-- The close of a pair when the bucket that starts at `start` became live. -/
def carriedInto (pair : Pair) (start : Instant) (steps : List Transition) : Option Price :=
  match steps.find? fun step => step.after.liveStart? pair = some start with
  | some step => (step.before.get? pair).bind Candle.close
  | none => none

def totalAmount (deals : List Deal) : Int :=
  Decimal.exactTotal (deals.map fun d => d.amount.decimal)

def Request.Feeds : Request → Prop
  | .deal d => 0 < d.amount.decimal.coefficient
  | .refresh => True
  | _ => False

instance : (r : Request) → Decidable r.Feeds
  | .deal d => inferInstanceAs (Decidable (0 < d.amount.decimal.coefficient))
  | .refresh => isTrue trivial
  | .seed _ _ => isFalse id
  | .look _ => isFalse id
  | .pairs => isFalse id

/-- A run from the empty table in which every call succeeds, with no clock
reading at the very last instant, and in which the amounts that land in each
bucket of a pair have an exact total. -/
structure ExactRun (config : StoreConfig) (pair : Pair) (requests : List DatedRequest) :
    Prop where
  feeds : ∀ d ∈ requests, d.request.Feeds
  clocked : ∀ d ∈ requests, d.now.nanos < Instant.last.nanos
  served : ∀ step ∈ Table.transitions config {} requests, step.served.reply.isOk = true
  fits : ∀ step ∈ Table.transitions config {} requests,
    ∀ start ∈ step.after.liveStart? pair,
      totalAmount (landedDeals pair start (Table.transitions config {} requests)) <
        coefficientLimit

/-- A candle tells of a carried close and of deals: without a deal every price
is the carried close, otherwise the prices are those of the deals with the
carried close among the extremes, and the volume is the exact total. -/
structure Candle.Tells (c : Candle) (carried : Option Price) (deals : List Deal) : Prop where
  flat : deals = [] → c.open = carried ∧ c.high = carried ∧ c.low = carried ∧
    c.close = carried ∧ c.volume = .zero
  opened : ∀ first, deals.head? = some first → c.open = some first.price
  closed : ∀ last, deals.getLast? = some last → c.close = some last.price
  highest : deals ≠ [] → ∃ high, c.high = some high ∧
    high.IsHighest (carried.toList ++ deals.map Deal.price)
  lowest : deals ≠ [] → ∃ low, c.low = some low ∧
    low.IsLowest (carried.toList ++ deals.map Deal.price)
  total : c.volume.decimal.IsTotalOf (deals.map fun d => d.amount.decimal)

namespace Candle

variable {c : Candle} {carried : Option Price} {deals : List Deal} {d : Deal}

-- ---------------------------------------------------------------------------
-- Folding one more deal
-- ---------------------------------------------------------------------------

theorem tells_nil (hopen : c.open = carried) (hhigh : c.high = carried) (hlow : c.low = carried)
    (hclose : c.close = carried) (hvolume : c.volume = .zero) : c.Tells carried [] := by
  refine ⟨fun _ => ⟨hopen, hhigh, hlow, hclose, hvolume⟩, ?_, ?_, ?_, ?_, ?_⟩
  · simp
  · simp
  · exact fun h => absurd rfl h
  · exact fun h => absurd rfl h
  · rw [hvolume]
    decide

theorem Tells.holds_high (told : c.Tells carried deals) :
    Price.Holds Price.order c.high (carried.toList ++ deals.map Deal.price) :=
  Price.holds_of_cases (fun none => (told.flat (List.map_eq_nil_iff.mp none)).2.1)
    fun some => told.highest (mt List.map_eq_nil_iff.mpr some)

theorem Tells.holds_low (told : c.Tells carried deals) :
    Price.Holds Price.downward c.low (carried.toList ++ deals.map Deal.price) :=
  Price.holds_of_cases (fun none => (told.flat (List.map_eq_nil_iff.mp none)).2.2.1)
    fun some => told.lowest (mt List.map_eq_nil_iff.mpr some)

theorem Tells.raise_isHighest (told : c.Tells carried deals) :
    (raise c.high d.price).IsHighest (carried.toList ++ (deals ++ [d]).map Deal.price) := by
  rw [List.map_append, ← List.append_assoc]
  exact told.holds_high.further d.price

theorem Tells.lower_isLowest (told : c.Tells carried deals) :
    (lower c.low d.price).IsLowest (carried.toList ++ (deals ++ [d]).map Deal.price) := by
  rw [List.map_append, ← List.append_assoc, lower_eq]
  exact told.holds_low.further d.price

theorem Tells.open_of_fold (told : c.Tells carried deals)
    (positive : ∀ e ∈ deals ++ [d], 0 < e.amount.decimal.coefficient) (first : Deal)
    (h : (deals ++ [d]).head? = some first) :
    (if c.volume.isZero then some d.price else c.open) = some first.price := by
  have zero : c.volume.isZero = deals.isEmpty := by
    rw [Quantity.isZero, told.total.isZero_eq, List.isEmpty_map]
    intro e he
    obtain ⟨deal, hd, rfl⟩ := List.mem_map.mp he
    exact positive deal (List.mem_append_left _ hd)
  rw [zero]
  cases deals with
  | nil =>
    cases h
    rfl
  | cons e rest =>
    cases h
    simpa using told.opened _ rfl

theorem Tells.fold (told : c.Tells carried deals)
    (positive : ∀ e ∈ deals ++ [d], 0 < e.amount.decimal.coefficient)
    (fits : totalAmount (deals ++ [d]) < coefficientLimit) :
    ∃ folded, c.fold d.price d.amount = .ok folded ∧ ¬ folded.SameValue c ∧
      folded.Tells carried (deals ++ [d]) := by
  have amounts : (deals ++ [d]).map (fun e => e.amount.decimal) =
      deals.map (fun e => e.amount.decimal) ++ [d.amount.decimal] := List.map_append
  have positive' : ∀ a ∈ deals.map (fun e => e.amount.decimal) ++ [d.amount.decimal],
      0 < a.coefficient := by
    rw [← amounts]
    intro a ha
    obtain ⟨deal, hd, rfl⟩ := List.mem_map.mp ha
    exact positive deal hd
  rw [totalAmount, amounts] at fits
  obtain ⟨sum, hsum, total⟩ := told.total.add positive' fits
  have hvolume : c.volume.add d.amount = .ok ⟨sum⟩ := Quantity.add_eq_ok_iff.mpr hsum
  refine ⟨_, by rw [Candle.fold, hvolume], ?_, ?_, ?_, ?_, ?_, ?_, ?_⟩
  · rintro ⟨-, -, -, -, -, -, -, -, same⟩
    exact told.total.not_sameValue total (positive d (by simp)) same
  · exact fun h => absurd h (by simp)
  · exact told.open_of_fold positive
  · intro last hl
    rw [List.getLast?_append] at hl
    cases hl
    rfl
  · exact fun _ => ⟨_, rfl, told.raise_isHighest⟩
  · exact fun _ => ⟨_, rfl, told.lower_isLowest⟩
  · rw [amounts]
    exact total

end Candle

-- ---------------------------------------------------------------------------
-- Landed deals and carried closes, one transition at a time
-- ---------------------------------------------------------------------------

section
variable {pair : Pair} {start : Instant} {steps : List Transition} {x : Transition}

theorem landedDeals_append (pair : Pair) (start : Instant) (steps : List Transition)
    (x : Transition) :
    landedDeals pair start (steps ++ [x]) =
      landedDeals pair start steps ++ (x.landed? pair start).toList := by
  simp only [landedDeals, List.filterMap_append]
  cases h : x.landed? pair start <;> simp [h]

theorem liveStart?_of_landed? {d : Deal} (h : x.landed? pair start = some d) :
    x.after.liveStart? pair = some start := by
  unfold Transition.landed? at h
  split at h
  · next c _ hc =>
    split at h
    · next inside => rw [Table.liveStart?, hc, Option.map_some, inside.2.1]
    · cases h
  · cases h

theorem request_of_landed? {d : Deal} (h : x.landed? pair start = some d) :
    x.dated.request = .deal d := by
  unfold Transition.landed? at h
  split at h
  · next hr _ =>
    split at h
    · cases h
      exact hr
    · cases h
  · cases h

theorem landedDeals_eq_nil (h : ∀ step ∈ steps, step.after.liveStart? pair ≠ some start) :
    landedDeals pair start steps = [] := by
  refine List.filterMap_eq_nil_iff.mpr fun step hs => ?_
  cases hd : step.landed? pair start with
  | none => rfl
  | some d => exact absurd (liveStart?_of_landed? hd) (h step hs)

theorem carriedInto_append_of_entered
    (h : ∃ step ∈ steps, step.after.liveStart? pair = some start) :
    carriedInto pair start (steps ++ [x]) = carriedInto pair start steps := by
  obtain ⟨step, hs, hlive⟩ := h
  cases hf : steps.find? fun step => step.after.liveStart? pair = some start with
  | none =>
    have := List.find?_eq_none.mp hf step hs
    simp [hlive] at this
  | some first => simp only [carriedInto, List.find?_append, hf, Option.some_or]

theorem carriedInto_append_of_not_entered
    (h : ∀ step ∈ steps, step.after.liveStart? pair ≠ some start)
    (hx : x.after.liveStart? pair = some start) :
    carriedInto pair start (steps ++ [x]) = (x.before.get? pair).bind Candle.close := by
  have hf : (steps.find? fun step => step.after.liveStart? pair = some start) = none :=
    List.find?_eq_none.mpr fun step hs => by simpa using h step hs
  simp [carriedInto, List.find?_append, hf, hx]

end

-- ---------------------------------------------------------------------------
-- The candle and the run before it
-- ---------------------------------------------------------------------------

/-- A candle whose bucket is the latest that the run made live, and which tells
of what was carried into the bucket and of some deals. -/
structure Account (config : StoreConfig) (pair : Pair) (steps : List Transition)
    (deals : List Deal) (c : Candle) : Prop where
  kept : pair.resolution ∈ config.resolutions
  aligned : c.Aligned config.calendar
  entered : ∃ step ∈ steps, step.after.liveStart? pair = some c.openTime
  latest : ∀ step ∈ steps, ∀ start, step.after.liveStart? pair = some start →
    start.nanos ≤ c.openTime.nanos
  tells : c.Tells (carriedInto pair c.openTime steps) deals

/-- The stored candle tells of all deals that landed in its bucket; a pair
without one never had one. -/
def Accounted (config : StoreConfig) (pair : Pair) (steps : List Transition) :
    Option Candle → Prop
  | some c => Account config pair steps (landedDeals pair c.openTime steps) c
  | none => ∀ step ∈ steps, step.after.liveStart? pair = none

section
variable {config : StoreConfig} {pair : Pair} {steps : List Transition} {deals : List Deal}
  {c : Candle} {x : Transition}

theorem Account.stay (account : Account config pair steps deals c)
    (within : x.after.liveStart? pair = some c.openTime) :
    Account config pair (steps ++ [x]) deals c := by
  obtain ⟨step, hs, hlive⟩ := account.entered
  refine ⟨account.kept, account.aligned,
    ⟨step, List.mem_append_left _ hs, hlive⟩, fun other ho start hstart => ?_, ?_⟩
  · rcases List.mem_append.mp ho with ho | ho
    · exact account.latest other ho start hstart
    · rw [List.mem_singleton.mp ho, within] at hstart
      cases hstart
      exact Int.le_refl _
  · rw [carriedInto_append_of_entered account.entered]
    exact account.tells

theorem Account.enter (kept : pair.resolution ∈ config.resolutions)
    (aligned : c.Aligned config.calendar)
    (later : ∀ step ∈ steps, ∀ start, step.after.liveStart? pair = some start →
      start.nanos < c.openTime.nanos)
    (into : x.after.liveStart? pair = some c.openTime)
    (tells : c.Tells ((x.before.get? pair).bind Candle.close) []) :
    Account config pair (steps ++ [x]) (landedDeals pair c.openTime steps) c := by
  have fresh : ∀ step ∈ steps, step.after.liveStart? pair ≠ some c.openTime :=
    fun step hs hlive => Int.lt_irrefl _ (later step hs _ hlive)
  refine ⟨kept, aligned, ⟨x, by simp, into⟩, fun other ho start hstart => ?_, ?_⟩
  · rcases List.mem_append.mp ho with ho | ho
    · exact Int.le_of_lt (later other ho start hstart)
    · rw [List.mem_singleton.mp ho, into] at hstart
      cases hstart
      exact Int.le_refl _
  · rw [carriedInto_append_of_not_entered fresh into, landedDeals_eq_nil fresh]
    exact tells

theorem Accounted.live {stored : Option Candle} {now : Instant}
    (steady : config.calendar.zone ≠ .host) (hnow : now.nanos < Instant.last.nanos)
    (kept : pair.resolution ∈ config.resolutions)
    (accounted : Accounted config pair steps stored) (before : x.before.get? pair = stored)
    (after : x.after.liveStart? pair =
      some (Store.live config.calendar pair stored now).candle.openTime) :
    Account config pair (steps ++ [x])
      (landedDeals pair (Store.live config.calendar pair stored now).candle.openTime steps)
      (Store.live config.calendar pair stored now).candle := by
  cases stored with
  | none =>
    simp only [Store.live] at after ⊢
    refine Account.enter kept (Candle.aligned_fresh ..) ?_ after ?_
    · intro step hs start hstart
      rw [accounted step hs] at hstart
      cases hstart
    · rw [before]
      exact Candle.tells_nil rfl rfl rfl rfl rfl
  | some c =>
    by_cases ended : c.hasEnded now = true
    · simp only [Store.live, ended, if_true] at after ⊢
      refine Account.enter kept (Candle.aligned_flatAfter ..) ?_ after ?_
      · intro step hs start hstart
        exact Int.lt_of_le_of_lt (accounted.latest step hs start hstart)
          (accounted.aligned.openTime_lt_flatAfter steady hnow ended)
      · rw [before]
        exact Candle.tells_nil rfl rfl rfl rfl rfl
    · simp only [Store.live, ended] at after ⊢
      exact Account.stay accounted after

theorem Account.fold {folded : Candle} {price : Price} {amount : Quantity} {more : List Deal}
    (account : Account config pair steps deals c) (h : c.fold price amount = .ok folded)
    (tells : folded.Tells (carriedInto pair c.openTime steps) more) :
    Account config pair steps more folded := by
  obtain ⟨-, -, openTime, -⟩ := Candle.fold_key h
  obtain ⟨kept, aligned, entered, latest, -⟩ := account
  rw [← openTime] at entered latest tells
  exact ⟨kept, aligned.fold h, entered, latest, tells⟩

theorem landed?_eq_none (h : ∀ d, x.dated.request = .deal d → d.market = pair.market →
    x.after.get? pair = some c → c.contains d.createdAt = false)
    (after : x.after.get? pair = some c) (start : Instant) : x.landed? pair start = none := by
  cases hl : x.landed? pair start with
  | none => rfl
  | some d =>
    have request := request_of_landed? hl
    simp only [Transition.landed?, request, after] at hl
    split at hl
    · next inside =>
      rw [h d request inside.1 after] at inside
      exact absurd inside.2.2 Bool.false_ne_true
    · cases hl

theorem landed?_eq_some {d : Deal} (request : x.dated.request = .deal d)
    (market : d.market = pair.market) (after : x.after.get? pair = some c)
    (inside : c.contains d.createdAt = true) : x.landed? pair c.openTime = some d := by
  simp only [Transition.landed?, request, after, market, inside, and_self, if_true]

theorem Account.accounted
    (account : Account config pair (steps ++ [x]) (landedDeals pair c.openTime steps) c)
    (quiet : x.landed? pair c.openTime = none) : Accounted config pair (steps ++ [x]) (some c) := by
  rw [Accounted, landedDeals_append, quiet, Option.toList_none, List.append_nil]
  exact account

theorem Accounted.step {events : List Event} (steady : config.calendar.zone ≠ .host)
    (hnow : x.dated.now.nanos < Instant.last.nanos)
    (positive : ∀ start, ∀ d ∈ landedDeals pair start (steps ++ [x]),
      0 < d.amount.decimal.coefficient)
    (fits : ∀ start, totalAmount (landedDeals pair start (steps ++ [x])) < coefficientLimit)
    (feeds : x.dated.request.Feeds)
    (accounted : Accounted config pair steps (x.before.get? pair))
    (step : Store.PairStep config pair x.dated.now x.dated.request (x.before.get? pair) events
      (x.after.get? pair)) :
    Accounted config pair (steps ++ [x]) (x.after.get? pair) := by
  generalize hb : x.before.get? pair = stored at accounted step
  generalize ha : x.after.get? pair = result at step
  generalize hr : x.dated.request = request at feeds step
  cases step with
  | aside untouched =>
    cases stored with
    | none =>
      intro other ho
      rcases List.mem_append.mp ho with ho | ho
      · exact accounted other ho
      · rw [List.mem_singleton.mp ho, Table.liveStart?, ha, Option.map_none]
    | some c =>
      refine (Account.stay accounted (Table.liveStart?_of_get? ha)).accounted (landed?_eq_none ?_ ha _)
      rintro d hd market -
      rw [hr] at hd
      subst hd
      exact absurd ⟨market, accounted.kept⟩ untouched
  | untracked =>
    intro other ho
    rcases List.mem_append.mp ho with ho | ho
    · exact accounted other ho
    · rw [List.mem_singleton.mp ho, Table.liveStart?, ha, Option.map_none]
  | refreshed =>
    have account := Accounted.live steady hnow (Account.kept accounted) accounted hb
      (Table.liveStart?_of_get? ha)
    refine account.accounted (landed?_eq_none ?_ ha _)
    rintro d hd
    rw [hr] at hd
    cases hd
  | skipped touches outside =>
    have account := Accounted.live steady hnow touches.2 accounted hb (Table.liveStart?_of_get? ha)
    refine account.accounted (landed?_eq_none ?_ ha _)
    rintro d hd - -
    rw [hr] at hd
    cases hd
    exact outside
  | @idle deal _ _ touches inside hf same =>
    -- the amount is above zero, so that the volume has changed
    have account := Accounted.live steady hnow touches.2 accounted hb (Table.liveStart?_of_get? ha)
    have landed := landed?_eq_some hr touches.1 ha inside
    have positive := positive (Store.live config.calendar pair stored x.dated.now).candle.openTime
    have fits := fits (Store.live config.calendar pair stored x.dated.now).candle.openTime
    rw [landedDeals_append, landed, Option.toList_some] at positive fits
    obtain ⟨folded, hfolded, moved, -⟩ := account.tells.fold positive fits
    rw [hf] at hfolded
    cases hfolded
    exact absurd same moved
  | @folded deal _ folded touches inside hf moved =>
    obtain ⟨-, -, openTime, closeTime⟩ := Candle.fold_key hf
    have after := Table.liveStart?_of_get? ha
    rw [openTime] at after
    have account := Accounted.live steady hnow touches.2 accounted hb after
    have within : folded.contains deal.createdAt = true := by
      rw [Candle.contains, openTime, closeTime]
      exact inside
    have landed := landed?_eq_some hr touches.1 ha within
    have positive := positive folded.openTime
    have fits := fits folded.openTime
    rw [Accounted, landedDeals_append, landed, Option.toList_some]
    rw [landedDeals_append, landed, Option.toList_some] at positive fits
    rw [openTime] at positive fits ⊢
    obtain ⟨folded', hfolded, -, tells⟩ := account.tells.fold positive fits
    rw [hf] at hfolded
    cases hfolded
    exact account.fold hf tells
  | seeded | kept | replaced => exact absurd feeds id

end

-- ---------------------------------------------------------------------------
-- Runs
-- ---------------------------------------------------------------------------

section
variable {config : StoreConfig} {pair : Pair} {requests : List DatedRequest} {d : DatedRequest}

theorem amount_pos_of_landed {t : Table} {start : Instant} {deal : Deal}
    (feeds : ∀ d ∈ requests, d.request.Feeds)
    (h : deal ∈ landedDeals pair start (t.transitions config requests)) :
    0 < deal.amount.decimal.coefficient := by
  obtain ⟨step, hs, landed⟩ := List.mem_filterMap.mp h
  have positive := feeds step.dated (Table.dated_mem_of_mem_transitions hs)
  rw [request_of_landed? landed] at positive
  exact positive

theorem totalAmount_le_append {deals more : List Deal}
    (positive : ∀ deal ∈ deals ++ more, 0 < deal.amount.decimal.coefficient) :
    totalAmount deals ≤ totalAmount (deals ++ more) := by
  rw [totalAmount, totalAmount, List.map_append]
  refine Decimal.exactTotal_le_append _ fun a ha => ?_
  rw [← List.map_append] at ha
  obtain ⟨deal, hd, rfl⟩ := List.mem_map.mp ha
  exact Int.le_of_lt (positive deal hd)

theorem ExactRun.fits_all (run : ExactRun config pair requests) (start : Instant) :
    totalAmount (landedDeals pair start (Table.transitions config {} requests)) <
      coefficientLimit := by
  by_cases h : ∃ step ∈ Table.transitions config {} requests,
      step.after.liveStart? pair = some start
  · obtain ⟨step, hs, live⟩ := h
    exact run.fits step hs start live
  · have never : ∀ step ∈ Table.transitions config {} requests,
        step.after.liveStart? pair ≠ some start := fun step hs live => h ⟨step, hs, live⟩
    rw [landedDeals_eq_nil never]
    decide

/-- The beginning of an exact run is one: totals only grow. -/
theorem ExactRun.init (run : ExactRun config pair (requests ++ [d])) :
    ExactRun config pair requests := by
  have served := run.served
  rw [Table.transitions_snoc] at served
  refine ⟨fun e he => run.feeds e (List.mem_append_left _ he),
    fun e he => run.clocked e (List.mem_append_left _ he),
    fun s hs => served s (List.mem_append_left _ hs), fun step _ start _ => ?_⟩
  have fits := run.fits_all start
  have positive : ∀ deal ∈ landedDeals pair start
      (Table.transitions config {} (requests ++ [d])), 0 < deal.amount.decimal.coefficient :=
    fun deal => amount_pos_of_landed run.feeds
  rw [Table.transitions_snoc, landedDeals_append] at fits positive
  exact Int.lt_of_le_of_lt (totalAmount_le_append positive) fits

theorem ExactRun.accounted (steady : config.calendar.zone ≠ .host)
    (nodup : config.resolutions.Nodup) (run : ExactRun config pair requests) :
    Accounted config pair (Table.transitions config {} requests)
      ((Table.after config {} requests).get? pair) := by
  -- on the run, from its end
  induction requests using List.reverseRecOn with
  | nil => exact fun step hs => nomatch hs
  | append_singleton requests d ih =>
    have before := ih run.init
    have tidy := Table.tidy_empty.after config requests
    have served := run.served
    have positive : ∀ start, ∀ deal ∈ landedDeals pair start
        (Table.transitions config {} (requests ++ [d])), 0 < deal.amount.decimal.coefficient :=
      fun start deal => amount_pos_of_landed run.feeds
    have fits := run.fits_all
    rw [Table.transitions_snoc] at served positive fits ⊢
    rw [Table.after_snoc]
    cases reply : (d.serve config (Table.after config {} requests)).reply with
    | error e =>
      have ok := served _ (List.mem_append_right _ (List.mem_singleton.mpr rfl))
      rw [reply] at ok
      cases ok
    | ok r =>
      exact Accounted.step steady (run.clocked d (by simp)) positive fits
        (run.feeds d (by simp)) before (DatedRequest.serve_pairStep nodup tidy reply pair)

/-- After an exact run the candle of a pair tells of the close that was carried
into its bucket and of the deals that landed there, and of nothing else. -/
theorem candle_tells_of_landed_deals {c : Candle} (steady : config.calendar.zone ≠ .host)
    (nodup : config.resolutions.Nodup) (run : ExactRun config pair requests)
    (tracked : (Table.after config {} requests).get? pair = some c) :
    c.Tells (carriedInto pair c.openTime (Table.transitions config {} requests))
      (landedDeals pair c.openTime (Table.transitions config {} requests)) := by
  have accounted := run.accounted steady nodup
  rw [tracked] at accounted
  exact Account.tells accounted

end

/-- The second minute carries the close of the first, and tells of its two
deals. -/
theorem candle_tells_of_two_minutes :
    ∃ c, (Table.after twoResolutions {} twoMinutes).get? ⟨⟨"BTC/USDT"⟩, .minute1⟩ = some c ∧
      c.Tells (some ⟨⟨false, 12, 0, by decide, by decide⟩⟩)
        (landedDeals ⟨⟨"BTC/USDT"⟩, .minute1⟩ (.clamp (60 * nanosPerSecond))
          (Table.transitions twoResolutions {} twoMinutes)) := by
  have live : (Table.after twoResolutions {} twoMinutes).liveStart? ⟨⟨"BTC/USDT"⟩, .minute1⟩ =
      some (.clamp (60 * nanosPerSecond)) := by decide
  obtain ⟨c, tracked, start⟩ := Option.map_eq_some_iff.mp live
  have tells := candle_tells_of_landed_deals (by decide) (by decide)
    ⟨by decide, by decide, by decide +kernel, by decide +kernel⟩ tracked
  rw [start] at tells
  have carried : carriedInto ⟨⟨"BTC/USDT"⟩, .minute1⟩ (.clamp (60 * nanosPerSecond))
      (Table.transitions twoResolutions {} twoMinutes) =
        some ⟨⟨false, 12, 0, by decide, by decide⟩⟩ := by decide
  exact ⟨c, tracked, carried ▸ tells⟩

end Candlestick
