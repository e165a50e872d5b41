import Candlestick.Proofs.Calendar.Steady

/-!
# No bucket is empty

Months need something of the host's zone for it: the first hour of a month has to be read as
one of that month, and no reading may stand for an instant that is weeks away
(`MonthsHold`). Where the clocks go forward and back within one month, the first hour of
January is taken for one of December, and the bucket of January is empty.
-/

namespace Candlestick.Calendar

/-- What months ask of the rule of a zone. -/
structure MonthsHold (c : Calendar) : Prop where
  /-- The first hour of a month is one of that month. -/
  read : ∀ (m : Month) (t : Instant), c.firstHourOf? m.firstDay = some t → c.monthOf t = m
  /-- Readings are less than a week off. -/
  near : ∀ reading second : Int, c.rule.secondOf? reading = some second →
    (reading - second).natAbs < 604800

variable {c : Calendar}

theorem monthsHold_of_steady (steady : c.zone ≠ .host) : c.MonthsHold where
  read m t found := by
    rw [firstHourOf?_firstDay steady, Instant.ofNanos?_eq_some_iff] at found
    exact monthOf_eq steady (by omega) (found ▸ monthEdge_lt_next c m)
  near reading second found := by
    rw [rule_of_steady steady, TimeRule.secondOf?_fixed] at found
    cases found
    have := natAbs_steadyOffset_lt c
    omega

theorem firstHourOf?_bounds (months : c.MonthsHold) {day : Int} {t : Instant}
    (found : c.firstHourOf? day = some t) :
    ∃ second, t.nanos = second * nanosPerSecond ∧ day * 86400 - 604800 < second ∧
      second < (day + 1) * 86400 + 604800 := by
  obtain ⟨hour, inside, found⟩ := List.exists_of_findSome?_eq_some found
  rw [List.mem_range] at inside
  unfold hourOf? at found
  split at found
  · next second read =>
    have near := months.near _ _ read
    exact ⟨second, Instant.ofNanos?_eq_some_iff.mp found, by omega, by omega⟩
  · cases found

theorem bucketStart_lt_bucketEnd_month (months : c.MonthsHold) {r : Resolution}
    (hr : r.nanos? = none) (t : Instant) :
    (c.bucketStart r t).nanos < (c.bucketEnd r (c.bucketStart r t)).nanos := by
  -- neither end of the range is a whole second
  have bounds : ∀ start : Instant, (∃ second, start.nanos = second * nanosPerSecond) →
      Instant.first.nanos < start.nanos ∧ start.nanos < Instant.last.nanos := by
    rintro start ⟨second, whole⟩
    have := start.lower
    have := start.upper
    simp only [Instant.first, Instant.last, nanosPerSecond] at *
    omega
  simp only [bucketEnd, bucketStart, hr]
  cases started : c.firstHourOf? (c.monthOf t).firstDay with
  | none =>
    rw [Option.getD_none]
    cases ended : c.firstHourOf? (c.monthOf Instant.first).next.firstDay with
    | none => exact Int.lt_of_lt_of_le (by decide) (Int.le_refl _)
    | some stop =>
      obtain ⟨second, whole, -⟩ := firstHourOf?_bounds months ended
      exact (bounds stop ⟨second, whole⟩).1
  | some start =>
    obtain ⟨second, whole, -, before⟩ := firstHourOf?_bounds months started
    rw [Option.getD_some, months.read _ start started]
    cases ended : c.firstHourOf? (c.monthOf t).next.firstDay with
    | none => exact (bounds start ⟨second, whole⟩).2
    | some stop =>
      obtain ⟨second', whole', after, -⟩ := firstHourOf?_bounds months ended
      have long := (Month.length_bounds (c.monthOf t)).1
      simp only [Option.getD_some, Month.length, nanosPerSecond] at *
      omega

theorem minute_dvd_nanos? {r : Resolution} {d : Int} (h : r.nanos? = some d) :
    nanosPerMinute ∣ d := by
  obtain ⟨n, -, rfl⟩ := Option.map_eq_some_iff.mp h
  exact Int.dvd_mul_left ..

theorem bucketStart_lt_bucketEnd (months : c.MonthsHold) (r : Resolution) (t : Instant) :
    (c.bucketStart r t).nanos < (c.bucketEnd r (c.bucketStart r t)).nanos := by
  cases hr : r.nanos? with
  | none => exact bucketStart_lt_bucketEnd_month months hr t
  | some d =>
    have := t.lower
    have := t.upper
    have positive := Resolution.nanos?_pos hr
    have floor := floor_bounds positive t.nanos
    have start := nanos_clamp_cases (t.nanos - t.nanos % d)
    have stop := nanos_clamp_cases ((Instant.clamp (t.nanos - t.nanos % d)).nanos + d)
    -- the last instant is no multiple of a minute
    obtain ⟨k, multiple⟩ : nanosPerMinute ∣ t.nanos - t.nanos % d :=
      Int.dvd_trans (minute_dvd_nanos? hr) (Int.dvd_self_sub_emod)
    simp only [bucketStart, bucketEnd, hr, nanosPerMinute, nanosPerSecond] at *
    omega

-- an hour ahead from the first to the last Sunday of March
example :
    let march : Daylight := ⟨3600, ⟨.weekdayOf 2 1 0, 7200⟩, ⟨.weekdayOf 2 5 0, 7200⟩⟩
    let c : Calendar := ⟨.host, ⟨0, some march⟩⟩
    let start := c.bucketStart .month1 (.clamp 0)
    c.bucketEnd .month1 start = start := by decide +kernel

end Candlestick.Calendar
