import Candlestick.Candle.Basic

/-!
# Buckets where the clocks never change

In UTC and in zones of a fixed offset every bucket contains the instant that it was made
for, the last instant of all aside, and an instant past the end of a bucket lies in one that
starts later. Both hold at the ends of the range too, where bounds are clamped.
-/

namespace Candlestick

namespace Calendar

def steadyOffset (c : Calendar) : Int :=
  match c.zone with
  | .fixed offset => offset.seconds
  | _ => 0

/-- The nanosecond at which a month begins under the steady offset, whether or
not it is an instant. -/
def monthEdge (c : Calendar) (m : Month) : Int :=
  (m.firstDay * 86400 - c.steadyOffset) * nanosPerSecond

variable {c : Calendar}

theorem natAbs_steadyOffset_lt (c : Calendar) : c.steadyOffset.natAbs < 86400 := by
  unfold steadyOffset
  split
  · next offset _ => exact offset.bound
  · decide

theorem rule_of_steady (steady : c.zone ≠ .host) : c.rule = .fixed c.steadyOffset := by
  unfold rule steadyOffset
  cases hz : c.zone with
  | utc => rfl
  | fixed offset => rfl
  | host => exact absurd hz steady

-- ---------------------------------------------------------------------------
-- Months
-- ---------------------------------------------------------------------------

theorem dayOf_of_steady (steady : c.zone ≠ .host) (t : Instant) :
    c.dayOf t = (t.nanos / nanosPerSecond + c.steadyOffset) / 86400 := by
  rw [dayOf, rule_of_steady steady, TimeRule.offsetAt_fixed]

theorem monthEdge_bracket (steady : c.zone ≠ .host) (t : Instant) :
    c.monthEdge (c.monthOf t) ≤ t.nanos ∧ t.nanos < c.monthEdge (c.monthOf t).next := by
  have bracket := Month.ofDay_bracket (c.dayOf t)
  rw [dayOf_of_steady steady] at bracket
  rw [monthOf, dayOf_of_steady steady]
  simp only [monthEdge, nanosPerSecond] at *
  omega

theorem monthOf_eq {m : Month} {t : Instant} (steady : c.zone ≠ .host)
    (low : c.monthEdge m ≤ t.nanos) (high : t.nanos < c.monthEdge m.next) : c.monthOf t = m := by
  rw [monthOf, dayOf_of_steady steady]
  refine (Month.eq_ofDay ?_ ?_).symm
  · simp only [monthEdge, nanosPerSecond] at *
    omega
  · simp only [monthEdge, nanosPerSecond] at *
    omega

theorem monthEdge_lt_next (c : Calendar) (m : Month) : c.monthEdge m < c.monthEdge m.next := by
  have := Month.firstDay_lt_next m
  simp only [monthEdge, nanosPerSecond]
  omega

theorem monthEdge_le_of_index_le (c : Calendar) {m n : Month} (h : m.index ≤ n.index) :
    c.monthEdge m ≤ c.monthEdge n := by
  have := Month.firstDay_le_of_index_le h
  simp only [monthEdge, nanosPerSecond]
  omega

/-- The month in which the range of instants begins, September of 1677. -/
def firstMonth : Month := .ofYear 1677 8

/-- No month begins within three days of the start of the range: one that
begins before it is over a week old there. -/
theorem firstDay_far_from_first (m : Month) : m.firstDay ≤ -106772 ∨ -106742 ≤ m.firstDay := by
  have first : firstMonth.firstDay = -106772 := by decide
  have second : firstMonth.next.firstDay = -106742 := by decide
  rcases Int.lt_or_le firstMonth.index m.index with h | h
  · have := Month.firstDay_le_of_index_le (m := firstMonth.next) (n := m)
      (by simp only [Month.next]; omega)
    omega
  · have := Month.firstDay_le_of_index_le (m := m) (n := firstMonth) h
    omega

theorem hourOf?_of_steady (steady : c.zone ≠ .host) (day : Int) (hour : Nat) :
    c.hourOf? day hour =
      Instant.ofNanos? ((day * 86400 + hour * 3600 - c.steadyOffset) * nanosPerSecond) := by
  rw [hourOf?, rule_of_steady steady, TimeRule.secondOf?_fixed]

theorem ofNanos?_eq_none_iff {n : Int} :
    Instant.ofNanos? n = none ↔ n < -9223372036854775808 ∨ 9223372036854775807 < n := by
  unfold Instant.ofNanos?
  split
  · simp; omega
  · simp; omega

theorem firstHourOf?_firstDay (steady : c.zone ≠ .host) (m : Month) :
    c.firstHourOf? m.firstDay = Instant.ofNanos? (c.monthEdge m) := by
  have midnight : c.hourOf? m.firstDay 0 = Instant.ofNanos? (c.monthEdge m) := by
    rw [hourOf?_of_steady steady, monthEdge]
    simp
  cases hm : Instant.ofNanos? (c.monthEdge m) with
  | some t =>
    rw [firstHourOf?, List.range_succ_eq_map, List.findSome?_cons, midnight, hm]
  | none =>
    rw [firstHourOf?, List.findSome?_eq_none_iff]
    intro hour hh
    rw [List.mem_range] at hh
    rw [hourOf?_of_steady steady]
    rw [ofNanos?_eq_none_iff] at hm ⊢
    have hoff := natAbs_steadyOffset_lt c
    have hfar := firstDay_far_from_first m
    simp only [monthEdge, nanosPerSecond] at *
    omega

theorem bucketStart_month {r : Resolution} (steady : c.zone ≠ .host) (hr : r.nanos? = none)
    (t : Instant) :
    c.bucketStart r t = (Instant.ofNanos? (c.monthEdge (c.monthOf t))).getD Instant.first := by
  simp only [bucketStart, hr]
  rw [firstHourOf?_firstDay steady]

theorem bucketEnd_month {r : Resolution} (steady : c.zone ≠ .host) (hr : r.nanos? = none)
    (t : Instant) :
    c.bucketEnd r t = (Instant.ofNanos? (c.monthEdge (c.monthOf t).next)).getD Instant.last := by
  simp only [bucketEnd, hr]
  rw [firstHourOf?_firstDay steady]

theorem nanos_bucketStart_month {r : Resolution} (steady : c.zone ≠ .host)
    (hr : r.nanos? = none) (t : Instant) :
    (c.bucketStart r t).nanos = c.monthEdge (c.monthOf t) ∨
      ((c.bucketStart r t).nanos = -9223372036854775808 ∧
        c.monthEdge (c.monthOf t) < -9223372036854775808) := by
  rw [bucketStart_month steady hr]
  cases ho : Instant.ofNanos? (c.monthEdge (c.monthOf t)) with
  | some s => exact .inl (Instant.ofNanos?_eq_some_iff.mp ho)
  | none =>
    have out := ofNanos?_eq_none_iff.mp ho
    have le := (monthEdge_bracket steady t).1
    have := t.upper
    exact .inr ⟨rfl, by omega⟩

theorem nanos_bucketEnd_month {r : Resolution} (steady : c.zone ≠ .host)
    (hr : r.nanos? = none) (t : Instant) :
    (c.bucketEnd r t).nanos = c.monthEdge (c.monthOf t).next ∨
      ((c.bucketEnd r t).nanos = 9223372036854775807 ∧
        9223372036854775807 < c.monthEdge (c.monthOf t).next) := by
  rw [bucketEnd_month steady hr]
  cases ho : Instant.ofNanos? (c.monthEdge (c.monthOf t).next) with
  | some e => exact .inl (Instant.ofNanos?_eq_some_iff.mp ho)
  | none =>
    have out := ofNanos?_eq_none_iff.mp ho
    have lt := (monthEdge_bracket steady t).2
    have := t.lower
    exact .inr ⟨rfl, by omega⟩

theorem monthOf_bucketStart {r : Resolution} (steady : c.zone ≠ .host) (hr : r.nanos? = none)
    (t : Instant) : c.monthOf (c.bucketStart r t) = c.monthOf t := by
  obtain ⟨low, high⟩ := monthEdge_bracket steady t
  have edges := monthEdge_lt_next c (c.monthOf t)
  have start := nanos_bucketStart_month steady hr t
  have := t.lower
  exact monthOf_eq steady (by omega) (by omega)

-- ---------------------------------------------------------------------------
-- Fixed durations
-- ---------------------------------------------------------------------------

theorem nanos_clamp_cases (n : Int) :
    (n < -9223372036854775808 ∧ (Instant.clamp n).nanos = -9223372036854775808) ∨
      (9223372036854775807 < n ∧ (Instant.clamp n).nanos = 9223372036854775807) ∨
      (Instant.clamp n).nanos = n := by
  by_cases low : n < -9223372036854775808
  · exact .inl ⟨low, by rw [Instant.clamp_of_lt low]; rfl⟩
  · by_cases high : 9223372036854775807 < n
    · exact .inr (.inl ⟨high, by rw [Instant.clamp_of_gt high]; rfl⟩)
    · exact .inr (.inr (Instant.nanos_clamp (by omega) (by omega)))

theorem floor_bounds {d : Int} (hd : 0 < d) (t : Int) : t - t % d ≤ t ∧ t < t - t % d + d := by
  have := Int.emod_nonneg t (Int.ne_of_gt hd)
  have := Int.emod_lt_of_pos t hd
  omega

theorem floor_lt_floor {d t u : Int} (hd : 0 < d) (h : t - t % d + d ≤ u) :
    t - t % d < u - u % d := by
  have ht : t - t % d = t / d * d := by have := Int.ediv_mul_add_emod t d; omega
  have hu : u - u % d = u / d * d := by have := Int.ediv_mul_add_emod u d; omega
  have next : (t / d + 1) * d = t / d * d + d := by rw [Int.add_mul, Int.one_mul]
  have le : t / d + 1 ≤ u / d := (Int.le_ediv_iff_mul_le hd).mpr (by omega)
  have := Int.mul_le_mul_of_nonneg_right le (Int.le_of_lt hd)
  omega

-- ---------------------------------------------------------------------------
-- Buckets
-- ---------------------------------------------------------------------------

theorem bucketStart_le (steady : c.zone ≠ .host) (r : Resolution) (t : Instant) :
    (c.bucketStart r t).nanos ≤ t.nanos := by
  have := t.lower
  have := t.upper
  cases hr : r.nanos? with
  | some d =>
    have floor := floor_bounds (Resolution.nanos?_pos hr) t.nanos
    have start := nanos_clamp_cases (t.nanos - t.nanos % d)
    simp only [bucketStart, hr]
    omega
  | none =>
    have start := nanos_bucketStart_month steady hr t
    have low := (monthEdge_bracket steady t).1
    omega

theorem lt_bucketEnd_bucketStart (steady : c.zone ≠ .host) (r : Resolution) {t : Instant}
    (ht : t.nanos < Instant.last.nanos) :
    t.nanos < (c.bucketEnd r (c.bucketStart r t)).nanos := by
  have := t.lower
  simp only [Instant.last] at ht
  cases hr : r.nanos? with
  | some d =>
    have floor := floor_bounds (Resolution.nanos?_pos hr) t.nanos
    have start := nanos_clamp_cases (t.nanos - t.nanos % d)
    have stop := nanos_clamp_cases ((Instant.clamp (t.nanos - t.nanos % d)).nanos + d)
    simp only [bucketStart, bucketEnd, hr]
    omega
  | none =>
    have stop := nanos_bucketEnd_month steady hr (c.bucketStart r t)
    have high := (monthEdge_bracket steady t).2
    rw [monthOf_bucketStart steady hr] at stop
    omega

theorem bucketStart_lt_of_bucketEnd_le (steady : c.zone ≠ .host) (r : Resolution)
    {t u : Instant} (hu : u.nanos < Instant.last.nanos)
    (h : (c.bucketEnd r (c.bucketStart r t)).nanos ≤ u.nanos) :
    (c.bucketStart r t).nanos < (c.bucketStart r u).nanos := by
  have := t.lower
  have := t.upper
  have := u.lower
  simp only [Instant.last] at hu
  cases hr : r.nanos? with
  | some d =>
    have hd := Resolution.nanos?_pos hr
    have floor := floor_bounds hd t.nanos
    have floor' := floor_bounds hd u.nanos
    have step := floor_lt_floor (t := t.nanos) (u := u.nanos) hd
    have start := nanos_clamp_cases (t.nanos - t.nanos % d)
    have stop := nanos_clamp_cases ((Instant.clamp (t.nanos - t.nanos % d)).nanos + d)
    have start' := nanos_clamp_cases (u.nanos - u.nanos % d)
    simp only [bucketStart, bucketEnd, hr] at h ⊢
    omega
  | none =>
    have start := nanos_bucketStart_month steady hr t
    have start' := nanos_bucketStart_month steady hr u
    have stop := nanos_bucketEnd_month steady hr (c.bucketStart r t)
    have edges := monthEdge_lt_next c (c.monthOf t)
    have high := (monthEdge_bracket steady t).2
    rw [monthOf_bucketStart steady hr] at stop
    have past : c.monthEdge (c.monthOf t).next ≤ u.nanos := by omega
    have later : (c.monthOf t).next.index ≤ (c.monthOf u).index := by
      -- else the month of `u` would have ended before `u`
      by_cases hlt : (c.monthOf u).next.index ≤ (c.monthOf t).next.index
      · have := monthEdge_le_of_index_le c hlt
        have := (monthEdge_bracket steady u).2
        omega
      · simp only [Month.next] at *
        omega
    have grown := monthEdge_le_of_index_le c later
    omega

end Calendar

-- ---------------------------------------------------------------------------
-- Candles
-- ---------------------------------------------------------------------------

namespace Candle

/-- A candle over a bucket of its resolution. -/
structure Aligned (calendar : Calendar) (c : Candle) : Prop where
  start : ∃ t, c.openTime = calendar.bucketStart c.resolution t
  stop : c.closeTime = calendar.bucketEnd c.resolution c.openTime

variable {calendar : Calendar} {c : Candle} {now : Instant}

theorem aligned_fresh (market : Market) (r : Resolution) (calendar : Calendar) (now : Instant) :
    (fresh market r calendar now).Aligned calendar :=
  ⟨⟨now, rfl⟩, rfl⟩

theorem aligned_flatAfter (c : Candle) (calendar : Calendar) (now : Instant) :
    (c.flatAfter calendar now).Aligned calendar :=
  ⟨⟨now, rfl⟩, rfl⟩

theorem Aligned.fold {folded : Candle} {price : Price} {amount : Quantity}
    (aligned : c.Aligned calendar) (h : c.fold price amount = .ok folded) :
    folded.Aligned calendar := by
  obtain ⟨-, resolution, openTime, closeTime⟩ := fold_key h
  obtain ⟨start, stop⟩ := aligned
  rw [← resolution, ← openTime] at start stop
  exact ⟨start, closeTime.trans stop⟩

theorem Aligned.openTime_lt_flatAfter (aligned : c.Aligned calendar)
    (steady : calendar.zone ≠ .host) (hnow : now.nanos < Instant.last.nanos)
    (ended : c.hasEnded now = true) :
    c.openTime.nanos < (c.flatAfter calendar now).openTime.nanos := by
  obtain ⟨⟨t, start⟩, stop⟩ := aligned
  have passed : c.closeTime.nanos ≤ now.nanos := by simpa [hasEnded] using ended
  rw [stop, start] at passed
  rw [start]
  exact Calendar.bucketStart_lt_of_bucketEnd_le steady c.resolution hnow passed

end Candle

end Candlestick
