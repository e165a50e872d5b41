import Candlestick.Chart
import Candlestick.Store.Table
import Mathlib.Data.List.Induction
import Mathlib.Data.List.Nodup

/-!
# Charts by pair

Merging a batch gives one chart for every pair in it, with the candles of the pair in their
order (`Merged`). What the charts of a pair show over several batches does not depend on
where the events were cut (`pointsOf_flatMap`), and channel names can be read back
(`channelName_inj`).
-/

namespace Candlestick

-- ---------------------------------------------------------------------------
-- Points
-- ---------------------------------------------------------------------------

/-- Open, high, low, close, volume and the second of the open time. -/
abbrev ChartPoint := Option Price × Option Price × Option Price × Option Price × Quantity × Int

def Candle.point (c : Candle) : ChartPoint :=
  (c.open, c.high, c.low, c.close, c.volume, c.openTime.nanos.fdiv 1000000000)

def Event.candlesOf (pair : Pair) (events : List Event) : List Candle :=
  (events.map Event.candle).filter (·.pair = pair)

namespace Chart

def pair (chart : Chart) : Pair := ⟨chart.market, chart.resolution⟩

def points (chart : Chart) : List ChartPoint :=
  chart.opens.zip (chart.highs.zip (chart.lows.zip (chart.closes.zip
    (chart.volumes.zip chart.times))))

structure Even (chart : Chart) : Prop where
  highs : chart.highs.length = chart.opens.length
  lows : chart.lows.length = chart.opens.length
  closes : chart.closes.length = chart.opens.length
  volumes : chart.volumes.length = chart.opens.length
  times : chart.times.length = chart.opens.length

structure Shows (chart : Chart) (candles : List Candle) : Prop where
  opens : chart.opens = candles.map Candle.open
  highs : chart.highs = candles.map Candle.high
  lows : chart.lows = candles.map Candle.low
  closes : chart.closes = candles.map Candle.close
  volumes : chart.volumes = candles.map Candle.volume
  times : chart.times = candles.map timeOf

section
variable {chart : Chart} {candles : List Candle} {c : Candle} {charts : List Chart}
  {events : List Event} {pair : Pair}

theorem timeOf_eq (c : Candle) : timeOf c = c.openTime.nanos.fdiv 1000000000 :=
  (Int.fdiv_eq_ediv_of_nonneg _ (by decide)).symm

theorem Shows.points (shows : chart.Shows candles) : chart.points = candles.map Candle.point := by
  simp only [Chart.points, shows.opens, shows.highs, shows.lows, shows.closes, shows.volumes,
    shows.times, List.zip_map', timeOf_eq]
  rfl

theorem Shows.even (shows : chart.Shows candles) : chart.Even := by
  constructor <;> simp [shows.opens, shows.highs, shows.lows, shows.closes, shows.volumes,
    shows.times]

theorem Shows.push (shows : chart.Shows candles) (c : Candle) :
    (chart.push c).Shows (candles ++ [c]) := by
  constructor <;> simp [Chart.push, shows.opens, shows.highs, shows.lows, shows.closes,
    shows.volumes, shows.times]

theorem shows_ofCandle (c : Candle) : (ofCandle c).Shows [c] := ⟨rfl, rfl, rfl, rfl, rfl, rfl⟩

theorem pair_push (chart : Chart) (c : Candle) : (chart.push c).pair = chart.pair := rfl

theorem pair_ofCandle (c : Candle) : (ofCandle c).pair = c.pair := rfl

theorem holds_iff : chart.holds c = true ↔ chart.pair = c.pair := by
  simp [holds, pair, Candle.pair]

-- ---------------------------------------------------------------------------
-- Merging
-- ---------------------------------------------------------------------------

theorem merge_cases (c : Candle) (charts : List Chart) :
    (∃ before chart after, charts = before ++ chart :: after ∧ chart.pair = c.pair ∧
      merge c charts = before ++ chart.push c :: after) ∨
    (c.pair ∉ charts.map Chart.pair ∧ merge c charts = charts ++ [ofCandle c]) := by
  induction charts with
  | nil => exact .inr ⟨by simp, rfl⟩
  | cons first rest ih =>
    by_cases mine : first.pair = c.pair
    · exact .inl ⟨[], first, rest, rfl, mine, by simp [merge, holds_iff.mpr mine]⟩
    · have merged : merge c (first :: rest) = first :: merge c rest := by
        simp [merge, holds_iff, mine]
      rcases ih with ⟨before, chart, after, rfl, own, pushed⟩ | ⟨out, added⟩
      · exact .inl ⟨first :: before, chart, after, rfl, own, by rw [merged, pushed]; rfl⟩
      · refine .inr ⟨?_, by rw [merged, added]; rfl⟩
        exact fun mem => (List.mem_cons.mp mem).elim (fun same => mine same.symm) out

theorem ne_of_nodup {before after : List Chart}
    (nodup : ((before ++ chart :: after).map Chart.pair).Nodup) :
    ∀ other, other ∈ before ∨ other ∈ after → other.pair ≠ chart.pair := by
  rw [List.map_append, List.map_cons, List.nodup_append, List.nodup_cons] at nodup
  obtain ⟨-, ⟨behind, -⟩, ahead⟩ := nodup
  rintro other (mem | mem) same
  · exact ahead _ (List.mem_map_of_mem mem) _ (List.mem_cons_self ..) same
  · exact behind (same ▸ List.mem_map_of_mem mem)

theorem candlesOf_append (pair : Pair) (first second : List Event) :
    Event.candlesOf pair (first ++ second) =
      Event.candlesOf pair first ++ Event.candlesOf pair second := by
  simp [Event.candlesOf]

theorem candlesOf_snoc_of_eq {e : Event} (events : List Event) (own : pair = e.candle.pair) :
    Event.candlesOf pair (events ++ [e]) = Event.candlesOf pair events ++ [e.candle] := by
  simp [Event.candlesOf, own]

theorem candlesOf_snoc_of_ne {e : Event} (events : List Event) (other : pair ≠ e.candle.pair) :
    Event.candlesOf pair (events ++ [e]) = Event.candlesOf pair events := by
  simp [Event.candlesOf, other.symm]

theorem candlesOf_eq_nil (absent : pair ∉ events.map fun e => e.candle.pair) :
    Event.candlesOf pair events = [] := by
  simpa [Event.candlesOf] using absent

theorem eraseDups_snoc_of_mem {α : Type} [DecidableEq α] {l : List α} {a : α} (mem : a ∈ l) :
    (l ++ [a]).eraseDups = l.eraseDups := by
  simp [List.eraseDups_append, List.removeAll, mem]

theorem eraseDups_snoc_of_not_mem {α : Type} [DecidableEq α] {l : List α} {a : α} (out : a ∉ l) :
    (l ++ [a]).eraseDups = l.eraseDups ++ [a] := by
  simp [List.eraseDups_append, List.eraseDups_cons, List.removeAll, out]

/-- What some events come to as charts: one for each of their pairs, with its candles. -/
structure Merged (events : List Event) (charts : List Chart) : Prop where
  pairs : charts.map Chart.pair = (events.map fun e => e.candle.pair).eraseDups
  nodup : (charts.map Chart.pair).Nodup
  shows : ∀ chart ∈ charts, chart.Shows (Event.candlesOf chart.pair events)

theorem Merged.mem_pairs (merged : Merged events charts) :
    pair ∈ charts.map Chart.pair ↔ pair ∈ events.map fun e => e.candle.pair := by
  rw [merged.pairs, List.mem_eraseDups]

theorem Merged.pushed {before after : List Chart} {e : Event}
    (merged : Merged events (before ++ chart :: after)) (own : chart.pair = e.candle.pair) :
    Merged (events ++ [e]) (before ++ chart.push e.candle :: after) := by
  have same : (before ++ chart.push e.candle :: after).map Chart.pair =
      (before ++ chart :: after).map Chart.pair := by
    simp [pair_push]
  have known : e.candle.pair ∈ events.map fun e => e.candle.pair :=
    own ▸ merged.mem_pairs.mp (List.mem_map_of_mem (List.mem_append_cons_self ..))
  refine ⟨?_, same ▸ merged.nodup, fun shown mem => ?_⟩
  · rw [same, merged.pairs, List.map_append]
    exact (eraseDups_snoc_of_mem known).symm
  · have others : shown ∈ before ∨ shown ∈ after →
        shown.Shows (Event.candlesOf shown.pair (events ++ [e])) := by
      intro mem
      rw [candlesOf_snoc_of_ne events (own ▸ ne_of_nodup merged.nodup shown mem)]
      refine merged.shows shown (List.mem_append.mpr ?_)
      exact mem.imp_right (List.mem_cons_of_mem _)
    rw [List.mem_append, List.mem_cons] at mem
    rcases mem with mem | rfl | mem
    · exact others (.inl mem)
    · rw [pair_push, candlesOf_snoc_of_eq events own]
      exact (merged.shows chart (List.mem_append_cons_self ..)).push e.candle
    · exact others (.inr mem)

theorem Merged.added {e : Event} (merged : Merged events charts)
    (out : e.candle.pair ∉ charts.map Chart.pair) :
    Merged (events ++ [e]) (charts ++ [ofCandle e.candle]) := by
  have fresh := merged.mem_pairs.not.mp out
  refine ⟨?_, ?_, fun shown mem => ?_⟩
  · rw [List.map_append, merged.pairs, List.map_append]
    exact (eraseDups_snoc_of_not_mem fresh).symm
  · rw [List.map_append, List.nodup_append]
    refine ⟨merged.nodup, by simp, fun a ha b hb same => ?_⟩
    have last : b = e.candle.pair := by simpa [pair_ofCandle] using hb
    exact out (last ▸ same ▸ ha)
  · rcases List.mem_append.mp mem with mem | mem
    · have ne : shown.pair ≠ e.candle.pair :=
        fun same => out (same ▸ List.mem_map_of_mem mem)
      rw [candlesOf_snoc_of_ne events ne]
      exact merged.shows shown mem
    · rw [List.mem_singleton.mp mem, pair_ofCandle, candlesOf_snoc_of_eq events rfl,
        candlesOf_eq_nil fresh]
      exact shows_ofCandle e.candle

theorem merged_ofEvents (batch : List Event) : Merged batch (ofEvents batch) := by
  induction batch using List.reverseRecOn with
  | nil => exact ⟨rfl, .nil, by simp [ofEvents]⟩
  | append_singleton events e ih =>
    have step : ofEvents (events ++ [e]) = Chart.merge e.candle (ofEvents events) := by
      simp [ofEvents]
    rw [step]
    obtain ⟨before, chart, after, same, own, pushed⟩ | ⟨out, added⟩ :=
      merge_cases e.candle (ofEvents events)
    · rw [pushed]
      exact (same ▸ ih).pushed own
    · rw [added]
      exact ih.added out

-- ---------------------------------------------------------------------------
-- One pair over several batches
-- ---------------------------------------------------------------------------

def pointsOf (pair : Pair) (charts : List Chart) : List ChartPoint :=
  (charts.filter (·.pair = pair)).flatMap points

theorem Merged.pointsOf (merged : Merged events charts) (pair : Pair) :
    pointsOf pair charts = (Event.candlesOf pair events).map Candle.point := by
  by_cases known : pair ∈ charts.map Chart.pair
  · obtain ⟨chart, mem, rfl⟩ := List.mem_map.mp known
    obtain ⟨before, after, rfl⟩ := List.append_of_mem mem
    have others := ne_of_nodup merged.nodup
    have none_before : before.filter (·.pair = chart.pair) = [] :=
      List.filter_eq_nil_iff.mpr fun other mem => by simpa using others other (.inl mem)
    have none_after : after.filter (·.pair = chart.pair) = [] :=
      List.filter_eq_nil_iff.mpr fun other mem => by simpa using others other (.inr mem)
    have alone : (before ++ chart :: after).filter (·.pair = chart.pair) = [chart] := by
      rw [List.filter_append, List.filter_cons_of_pos (by simp), none_before, none_after]
      rfl
    rw [Chart.pointsOf, alone, List.flatMap_singleton, (merged.shows chart mem).points]
  · have absent := merged.mem_pairs.not.mp known
    have nothing : charts.filter (·.pair = pair) = [] := by
      refine List.filter_eq_nil_iff.mpr fun chart mem same => ?_
      exact known ((of_decide_eq_true same : chart.pair = pair) ▸ List.mem_map_of_mem mem)
    rw [Chart.pointsOf, nothing, candlesOf_eq_nil absent]
    rfl

/-- What the charts of a pair show does not depend on where the events were cut. -/
theorem pointsOf_flatMap (batches : List (List Event)) (pair : Pair) :
    pointsOf pair (batches.flatMap ofEvents) =
      (Event.candlesOf pair batches.flatten).map Candle.point := by
  induction batches with
  | nil => rfl
  | cons batch rest ih =>
    have first := (merged_ofEvents batch).pointsOf pair
    rw [List.flatten_cons, candlesOf_append, List.map_append, ← first, ← ih]
    simp [pointsOf]

end

end Chart

-- ---------------------------------------------------------------------------
-- Channels
-- ---------------------------------------------------------------------------

theorem Resolution.underscore_not_mem_name (r : Resolution) : '_' ∉ r.name.toList := by
  cases r <;> decide

theorem append_cons_inj_of_not_mem {α : Type} {a : α} {first second rest rest' : List α}
    (out : a ∉ rest) (out' : a ∉ rest') (same : first ++ a :: rest = second ++ a :: rest') :
    first = second ∧ rest = rest' := by
  have later : ∀ {more tail tail' : List α}, a ∉ tail → a :: tail = more ++ a :: tail' →
      more = [] := by
    intro more tail tail' out eq
    cases more with
    | nil => rfl
    | cons b more =>
      obtain ⟨-, rfl⟩ := List.cons.inj eq
      exact absurd (by simp) out
  rcases List.append_eq_append_iff.mp same with ⟨more, rfl, eq⟩ | ⟨more, rfl, eq⟩
  · obtain rfl := later out eq
    exact ⟨by simp, by simpa using eq⟩
  · obtain rfl := later out' eq
    exact ⟨by simp, by simpa using eq.symm⟩

/-- A channel name tells its pair, whatever symbols markets have. -/
theorem channelName_inj {m m' : Market} {r r' : Resolution}
    (same : channelName m r = channelName m' r') : m = m' ∧ r = r' := by
  have texts := congrArg String.toList same
  simp only [channelName, String.toList_append, List.append_assoc, List.append_cancel_left_eq]
    at texts
  obtain ⟨symbols, names⟩ := append_cons_inj_of_not_mem r.underscore_not_mem_name
    r'.underscore_not_mem_name texts
  obtain ⟨symbol⟩ := m
  obtain ⟨symbol'⟩ := m'
  refine ⟨congrArg Market.mk (String.toList_inj.mp symbols), ?_⟩
  have named := String.toList_inj.mp names
  revert named
  cases r <;> cases r' <;> decide

/-- However events are cut into batches, a batch comes to one chart and one message for
each of its pairs, in the order of their first appearance, each on a channel of its own,
with arrays of one length; and the charts of a pair show the candles of its events, all
of them and in their order. -/
theorem charts_of_batches (batches : List (List Event)) :
    (∀ batch,
      (Chart.ofEvents batch).map Chart.pair = (batch.map fun e => e.candle.pair).eraseDups ∧
      ((Chart.ofEvents batch).map Chart.pair).Nodup ∧
      Message.ofEvents batch = (Chart.ofEvents batch).map (fun chart =>
        ⟨channelName chart.pair.market chart.pair.resolution, chart.toJson.render⟩) ∧
      ((Message.ofEvents batch).map Message.channel).Nodup ∧
      ∀ chart ∈ Chart.ofEvents batch, chart.Even) ∧
    (∀ m m' r r', channelName m r = channelName m' r' ↔ m = m' ∧ r = r') ∧
    ∀ pair, Chart.pointsOf pair (batches.flatMap Chart.ofEvents) =
      (Event.candlesOf pair batches.flatten).map Candle.point := by
  refine ⟨fun batch => ?_, fun m m' r r' => ⟨channelName_inj, ?_⟩,
    Chart.pointsOf_flatMap batches⟩
  rotate_left
  · rintro ⟨rfl, rfl⟩
    rfl
  have merged := Chart.merged_ofEvents batch
  refine ⟨merged.pairs, merged.nodup, rfl, ?_, fun chart mem => (merged.shows chart mem).even⟩
  have channels : (Message.ofEvents batch).map Message.channel =
      ((Chart.ofEvents batch).map Chart.pair).map fun p => channelName p.market p.resolution := by
    simp [Message.ofEvents, Message.ofChart, Chart.channel, Chart.pair, Function.comp_def]
  rw [channels]
  refine merged.nodup.map fun p q same => ?_
  obtain ⟨market, resolution⟩ := channelName_inj same
  cases p
  cases q
  exact congrArg₂ Pair.mk market resolution

end Candlestick
