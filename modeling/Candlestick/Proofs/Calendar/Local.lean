import Candlestick.Proofs.Calendar.Steady
import Candlestick.Proofs.Zone.Beginning

/-!
# Monthly buckets where the clocks change

A local month begins at the second at which its first midnight is reached or gone over
(`TimeRule.BeginsAt`). A bucket starts there if the search for the first full hour of a
month finds that second (`firstHourOf?_eq`): where no first midnight happens twice, and a
clock that goes over one goes to a full hour of the day.
-/

namespace Candlestick

namespace Calendar

open TimeRule

theorem firstDay_le_or_next_le (m n : Month) :
    n.firstDay ≤ m.firstDay ∨ m.next.firstDay ≤ n.firstDay := by
  rcases Int.lt_or_le m.index n.index with h | h
  · exact .inr (Month.firstDay_le_of_index_le (m := m.next) h)
  · exact .inl (Month.firstDay_le_of_index_le h)

/-- No month begins within a week of the end of the range, the 11th of April of 2262. -/
theorem firstDay_far_from_last (m : Month) : m.firstDay ≤ 106741 ∨ 106771 ≤ m.firstDay := by
  have april : (Month.ofYear 2262 3).firstDay = 106741 := by decide
  have may : (Month.ofYear 2262 3).next.firstDay = 106771 := by decide
  have := firstDay_le_or_next_le (.ofYear 2262 3) m
  omega

theorem findSome?_range_eq {α : Type} {f : Nat → Option α} {a : α} {k n : Nat} (hk : k < n)
    (found : f k = some a) (before : ∀ j < k, ∀ b, f j = some b → b = a) :
    (List.range n).findSome? f = some a := by
  obtain ⟨rest, rfl⟩ := Nat.exists_eq_add_of_lt hk
  rw [Nat.add_assoc, List.range_add, List.findSome?_append, List.findSome?_map]
  have here : (List.range (rest + 1)).findSome? (f ∘ (k + ·)) = some a := by
    rw [List.range_succ_eq_map, List.findSome?_cons]
    simp [found]
  cases h : (List.range k).findSome? f with
  | none => rw [Option.none_or, here]
  | some b =>
    obtain ⟨j, hj, hb⟩ := List.exists_of_findSome?_eq_some h
    rw [before j (List.mem_range.mp hj) b hb, Option.some_or]

variable {c : Calendar} {d : Daylight} {m : Month} {second : Int}

/-- The seconds on or after which a month has begun are those from one on. -/
theorem beginsAt_le_iff {day : Int} {t : Instant}
    (begins : c.rule.BeginsAt (day * 86400) second) :
    day ≤ c.dayOf t ↔ second * nanosPerSecond ≤ t.nanos := by
  have reads : c.dayOf t = c.rule.readingAt (t.nanos / nanosPerSecond) / 86400 := rfl
  rw [reads]
  have before := begins.before (t.nanos / nanosPerSecond)
  have at_ := begins.reads
  have after := begins.after (t.nanos / nanosPerSecond)
  simp only [nanosPerSecond] at *
  rcases Int.lt_trichotomy (t.nanos / 1000000000) second with lt | eq | gt
  · omega
  · rw [eq]; omega
  · omega

theorem monthOf_eq_iff {second' : Int} {t : Instant}
    (begins : c.rule.BeginsAt (m.firstDay * 86400) second)
    (ends : c.rule.BeginsAt (m.next.firstDay * 86400) second') :
    c.monthOf t = m ↔ second * nanosPerSecond ≤ t.nanos ∧ t.nanos < second' * nanosPerSecond := by
  have low := beginsAt_le_iff (t := t) begins
  have high := beginsAt_le_iff (t := t) ends
  constructor
  · rintro rfl
    have bracket := Month.ofDay_bracket (c.dayOf t)
    simp only [monthOf] at *
    omega
  · rintro ⟨since, until_⟩
    exact (Month.eq_ofDay (low.mpr since) (by omega)).symm

/-- The search for the first full hour finds the second at which the month begins, if that is
an instant. -/
theorem firstHourOf?_eq (daylight : c.rule.daylight = some d) (near : Near c.rule d)
    (lookup : c.rule.Lookup) (opens : c.rule.Opens (m.firstDay * 86400))
    (begins : c.rule.BeginsAt (m.firstDay * 86400) second) :
    c.firstHourOf? m.firstDay = Instant.ofNanos? (second * nanosPerSecond) := by
  obtain ⟨hour, hlt, found, reads, inDay⟩ := begins.exists_hour lookup opens
  unfold firstHourOf?
  cases h : Instant.ofNanos? (second * nanosPerSecond) with
  | some t =>
    refine findSome?_range_eq hlt (by simp only [hourOf?, found, h]) fun j hj b hb => ?_
    unfold hourOf? at hb
    split at hb
    · next x hx =>
      rw [begins.eq_of_secondOf? lookup (by omega) (by omega) hx, h] at hb
      exact (Option.some.inj hb).symm
    · cases hb
  | none =>
    rw [List.findSome?_eq_none_iff]
    intro j hj
    rw [List.mem_range] at hj
    unfold hourOf?
    split
    · next x hx =>
      -- no month begins within a week of either end of the range
      rw [ofNanos?_eq_none_iff] at h ⊢
      have fromFirst := firstDay_far_from_first m
      have fromLast := firstDay_far_from_last m
      have apart := near.secondOf? daylight hx
      have apart' := near.secondOf? daylight found
      simp only [nanosPerSecond] at *
      omega
    · rfl

theorem dayOf_of_beginsAt (lookup : c.rule.Lookup) (opens : c.rule.Opens (m.firstDay * 86400))
    (begins : c.rule.BeginsAt (m.firstDay * 86400) second) {t : Instant}
    (ht : t.nanos = second * nanosPerSecond) : c.dayOf t = m.firstDay := by
  obtain ⟨-, -, -, -, inDay⟩ := begins.exists_hour lookup opens
  have at_ := begins.reads
  have whole : t.nanos / nanosPerSecond = second := by
    rw [ht]
    exact Int.mul_ediv_cancel _ (by decide)
  simp only [dayOf, whole, readingAt] at *
  omega

/-- The start of the bucket of an instant is the second at which its month begins, unless that
is before the range. -/
theorem nanos_bucketStart_local (daylight : c.rule.daylight = some d) (near : Near c.rule d)
    (lookup : c.rule.Lookup) {t : Instant} (opens : c.rule.Opens ((c.monthOf t).firstDay * 86400))
    (begins : c.rule.BeginsAt ((c.monthOf t).firstDay * 86400) second)
    (le : second * nanosPerSecond ≤ t.nanos) :
    (c.bucketStart .month1 t).nanos = second * nanosPerSecond ∨
      (c.bucketStart .month1 t = Instant.first ∧ second * nanosPerSecond < Instant.first.nanos) := by
  have start : c.bucketStart .month1 t =
      (Instant.ofNanos? (second * nanosPerSecond)).getD Instant.first := by
    rw [← firstHourOf?_eq daylight near lookup opens begins]
    rfl
  have := t.upper
  rw [start]
  cases h : Instant.ofNanos? (second * nanosPerSecond) with
  | some s => exact .inl (Instant.ofNanos?_eq_some_iff.mp h)
  | none =>
    have out := ofNanos?_eq_none_iff.mp h
    refine .inr ⟨rfl, ?_⟩
    simp only [Instant.first]
    omega

theorem dayOf_ne_of_lt_first (daylight : c.rule.daylight = some d) (near : Near c.rule d)
    (begins : c.rule.BeginsAt (m.firstDay * 86400) second)
    (early : second * nanosPerSecond < Instant.first.nanos) (u : Instant) :
    c.dayOf u ≠ m.firstDay := by
  have fromFirst := firstDay_far_from_first m
  have at_ := begins.reads
  have offset := near.offsetAt daylight second
  have offset' := near.offsetAt daylight (u.nanos / nanosPerSecond)
  have := u.lower
  simp only [readingAt, dayOf, Instant.first, nanosPerSecond] at *
  omega

-- ---------------------------------------------------------------------------
-- Days that are counted as in common years
-- ---------------------------------------------------------------------------

theorem firstDay_ofYear (year : Int) {p : Nat} (h : p < 12) :
    (Month.ofYear year p).firstDay = (Month.ofYear year 0).firstDay + daysBeforeMonth p +
      (if isLeapYear year && 2 ≤ p then 1 else 0) := by
  rw [Month.firstDay_january, Month.firstDay, Month.year_ofYear year h, Month.place_ofYear year h]
  omega

/-- Where the 29th of February is not counted, a day of the first four weeks of a month has the
same number in every year. -/
theorem dayIn_common {p k n : Nat} (hp : p < 12) (hk : k < 28)
    (hn : (n : Int) = daysBeforeMonth p + 1 + k) (year : Int) :
    (YearDay.common n).dayIn year = (Month.ofYear year p).firstDay + k := by
  have counted : 60 ≤ n ↔ 2 ≤ p := by
    have : p = 0 ∨ p = 1 ∨ 2 ≤ p := by omega
    rcases this with rfl | rfl | h
    · simp only [daysBeforeMonth] at hn; omega
    · simp only [daysBeforeMonth] at hn; omega
    · have : 59 ≤ daysBeforeMonth p := by unfold daysBeforeMonth; split <;> omega
      omega
  rw [firstDay_ofYear year hp]
  simp only [YearDay.dayIn, counted]
  omega

theorem monthIn_common {p k n : Nat} (hp : p < 12) (hk : k < 28)
    (hn : (n : Int) = daysBeforeMonth p + 1 + k) (time year : Int) :
    monthIn ⟨.common n, time⟩ year = Month.ofYear year p := by
  have day := dayIn_common hp hk hn year
  have length := (Month.length_bounds (.ofYear year p)).1
  rw [Month.length, Month.next_ofYear] at length
  exact monthIn_eq hp (by simp only [day]; omega) (by simp only [day]; omega)

theorem newYear_bracket (m : Month) :
    newYear m.year ≤ m.firstDay * 86400 ∧ m.firstDay * 86400 < newYear (m.year + 1) := by
  have low := Month.firstDay_le_of_index_le (m := .ofYear m.year 0) (n := m)
    (by simp only [Month.ofYear, Month.year]; omega)
  have high := Month.firstDay_le_of_index_le (m := m.next) (n := .ofYear (m.year + 1) 0)
    (by simp only [Month.ofYear, Month.year, Month.next]; omega)
  have := Month.firstDay_lt_next m
  simp only [newYear]
  omega

/-- Daylight saving time from a time of the 28th of February to two o'clock of the 27th of
October, where the standard is that of Greenwich. -/
def fromFebruary (saving time : Int) : Daylight :=
  ⟨saving, ⟨.common 59, time⟩, ⟨.common 300, 7200⟩⟩

section

variable {saving time : Int}

theorem viewOf_fromFebruary (saving time y : Int) :
    viewOf 0 (fromFebruary saving time) y =
      ⟨0, saving,
        ⟨((Month.ofYear y 1).firstDay + 27) * 86400 + time,
          ((Month.ofYear y 1).firstDay + 27) * 86400 + time + saving⟩,
        ⟨((Month.ofYear y 9).firstDay + 26) * 86400 + 7200,
          ((Month.ofYear y 9).firstDay + 26) * 86400 + 7200 - saving⟩⟩ := by
  have february := dayIn_common (p := 1) (k := 27) (n := 59) (by decide) (by decide) rfl y
  have october := dayIn_common (p := 9) (k := 26) (n := 300) (by decide) (by decide) rfl y
  have start := monthIn_common (p := 1) (k := 27) (n := 59) (by decide) (by decide) rfl time y
  have stop := monthIn_common (p := 9) (k := 26) (n := 300) (by decide) (by decide) rfl 7200 y
  have first : (Month.ofYear y 1).index < (Month.ofYear y 9).index := by
    simp only [Month.ofYear]; omega
  simp only [viewOf, fromFebruary, start, stop, first, if_true, jumpIn, Switch.secondIn,
    february, october, YearView.mk.injEq, Jump.mk.injEq, true_and]
  omega

variable (hsaving : 0 ≤ saving ∧ saving ≤ 86400)

include hsaving in
theorem near_fromFebruary (time : Int) :
    Near ⟨0, some (fromFebruary saving time)⟩ (fromFebruary saving time) := by
  simp only [Near, fromFebruary]
  omega

variable (htime : 0 ≤ time ∧ time < 86400)

include hsaving htime in
theorem orderly_fromFebruary :
    Orderly ⟨0, some (fromFebruary saving time)⟩ (fromFebruary saving time) where
  outer y z := by rw [viewOf_fromFebruary, viewOf_fromFebruary]
  within y := by
    have year := newYear_add_year_le y
    have february := firstDay_ofYear y (p := 1) (by decide)
    have october := firstDay_ofYear y (p := 9) (by decide)
    have begin_ : newYear y = (Month.ofYear y 0).firstDay * 86400 := rfl
    simp only [daysBeforeMonth] at february october
    apply within_of_far (near_fromFebruary hsaving time) <;>
      rw [viewOf_fromFebruary] <;> simp only <;> omega

include hsaving htime in
theorem seasonal_fromFebruary :
    Seasonal ⟨0, some (fromFebruary saving time)⟩ (fromFebruary saving time) where
  toOrderly := orderly_fromFebruary hsaving htime
  daylight := rfl
  near := near_fromFebruary hsaving time

include hsaving htime in
theorem once_fromFebruary (m : Month) :
    Once ⟨0, some (fromFebruary saving time)⟩ (m.firstDay * 86400) := by
  obtain ⟨low, high⟩ := newYear_bracket m
  have october := firstDay_le_or_next_le (.ofYear m.year 9) m
  have length := (Month.length_bounds (.ofYear m.year 9)).1
  simp only [Month.length] at length
  rw [(seasonal_fromFebruary hsaving htime).once_iff low high, viewOf_fromFebruary]
  simp only
  omega

include hsaving htime in
theorem opens_fromFebruary (toOne : time + saving = 90000) (m : Month) :
    Opens ⟨0, some (fromFebruary saving time)⟩ (m.firstDay * 86400) := by
  obtain ⟨low, high⟩ := newYear_bracket m
  refine ⟨once_fromFebruary hsaving htime m, fun second before after => .inl ⟨1, by decide, ?_⟩⟩
  have gap := (seasonal_fromFebruary hsaving htime).gap_of_skipped low high before after
  rw [viewOf_fromFebruary] at gap
  simp only at gap
  omega

end

end Calendar

/-- In a zone with daylight saving time whose changes keep their order, a monthly bucket
contains the instants that it is for. It starts with the first instant of the first day of
their month, or with the first instant of all where that day is before it. -/
theorem localMonths_hold {text : String} {c : Calendar} {d : Daylight} {t : Instant}
    (host : c.zone = .host) (parsed : TimeRule.ofPosix? text = some c.host)
    (daylight : c.host.daylight = some d)
    (orderly : d.offset ≠ c.host.standard → c.host.Orderly d)
    (opens : ∀ m : Calendar.Month, c.host.Opens (m.firstDay * 86400))
    (ht : t.nanos < Instant.last.nanos) :
    (c.bucketStart .month1 t).nanos ≤ t.nanos ∧
      t.nanos < (c.bucketEnd .month1 (c.bucketStart .month1 t)).nanos ∧
      ((c.dayOf (c.bucketStart .month1 t) = (c.monthOf t).firstDay ∧
          ∀ u, c.dayOf u = (c.monthOf t).firstDay →
            (c.bucketStart .month1 t).nanos ≤ u.nanos) ∨
        (c.bucketStart .month1 t = Instant.first ∧
          ∀ u, c.dayOf u ≠ (c.monthOf t).firstDay)) := by
  have rule : c.rule = c.host := by unfold Calendar.rule; rw [host]
  have near := TimeRule.near_of_ofPosix? parsed daylight
  rw [← rule] at daylight orderly opens near
  have lookup := TimeRule.lookup_of_orderly daylight near orderly
  have reach := fun m : Calendar.Month =>
    TimeRule.exists_beginsAt_of_orderly daylight near orderly (opens m).once
  obtain ⟨m, hm⟩ : ∃ m, c.monthOf t = m := ⟨_, rfl⟩
  obtain ⟨second, begins⟩ := reach m
  obtain ⟨second', ends⟩ := reach m.next
  obtain ⟨since, until_⟩ := (Calendar.monthOf_eq_iff begins ends).mp hm
  have start := Calendar.nanos_bucketStart_local daylight near lookup (opens _) (hm ▸ begins) since
  have low := t.lower
  have le : (c.bucketStart .month1 t).nanos ≤ t.nanos := by
    rcases start with h | ⟨h, -⟩
    · omega
    · rw [h]; exact low
  have same : c.monthOf (c.bucketStart .month1 t) = m := by
    refine (Calendar.monthOf_eq_iff begins ends).mpr ⟨?_, by omega⟩
    rcases start with h | ⟨h, early⟩
    · exact Int.le_of_eq h.symm
    · rw [h]; exact Int.le_of_lt early
  have stop : c.bucketEnd .month1 (c.bucketStart .month1 t) =
      (Instant.ofNanos? (second' * nanosPerSecond)).getD Instant.last := by
    rw [← Calendar.firstHourOf?_eq daylight near lookup (opens _) ends, ← same]
    rfl
  refine ⟨le, ?_, ?_⟩
  · rw [stop]
    cases h : Instant.ofNanos? (second' * nanosPerSecond) with
    | some e => exact Instant.ofNanos?_eq_some_iff.mp h ▸ until_
    | none => exact ht
  · rw [hm]
    rcases start with h | ⟨h, early⟩
    · exact .inl ⟨Calendar.dayOf_of_beginsAt lookup (opens m) begins h,
        fun u hu => h ▸ (Calendar.beginsAt_le_iff begins).mp (Int.le_of_eq hu.symm)⟩
    · exact .inr ⟨h, Calendar.dayOf_ne_of_lt_first daylight near begins early⟩

/-- Where the clocks go from 23:30 to 1:00, the bucket of a moment in March starts at 1:00, which
is 23:30 on the 28th of February in UTC. -/
theorem march_starts_at_one :
    TimeRule.ofPosix? "AAA0BBB-1:30,J59/23:30,J300/2" =
        some ⟨0, some (Calendar.fromFebruary 5400 84600)⟩ ∧
      (1616000000000000000 : Int) < Instant.last.nanos ∧
      let c : Calendar := ⟨.host, ⟨0, some (Calendar.fromFebruary 5400 84600)⟩⟩
      let t : Instant := ⟨1616000000000000000, by decide, by decide⟩
      (c.bucketStart .month1 t).nanos = 1614555000000000000 ∧
        (c.bucketStart .month1 t).nanos ≤ t.nanos ∧
        t.nanos < (c.bucketEnd .month1 (c.bucketStart .month1 t)).nanos ∧
        ((c.dayOf (c.bucketStart .month1 t) = (c.monthOf t).firstDay ∧
            ∀ u, c.dayOf u = (c.monthOf t).firstDay →
              (c.bucketStart .month1 t).nanos ≤ u.nanos) ∨
          (c.bucketStart .month1 t = Instant.first ∧
            ∀ u, c.dayOf u ≠ (c.monthOf t).firstDay)) := by
  have parsed : TimeRule.ofPosix? "AAA0BBB-1:30,J59/23:30,J300/2" =
      some ⟨0, some (Calendar.fromFebruary 5400 84600)⟩ := by decide +kernel
  refine ⟨parsed, by decide, by decide +kernel, ?_⟩
  exact localMonths_hold (c := ⟨.host, ⟨0, some (Calendar.fromFebruary 5400 84600)⟩⟩) rfl parsed
    rfl (fun _ => Calendar.orderly_fromFebruary (by decide) (by decide))
    (Calendar.opens_fromFebruary (by decide) (by decide) (by decide)) (by decide)

/-- Where the clocks go from 23:45 to 0:15, the bucket of 0:45 on the 1st of March starts at 1:00,
though no first midnight happens twice. -/
theorem march_starts_late :
    TimeRule.ofPosix? "AAA0BBB-0:30,J59/23:45,J300/2" =
        some ⟨0, some (Calendar.fromFebruary 1800 85500)⟩ ∧
      (∀ m : Calendar.Month,
        TimeRule.Once ⟨0, some (Calendar.fromFebruary 1800 85500)⟩ (m.firstDay * 86400)) ∧
      let c : Calendar := ⟨.host, ⟨0, some (Calendar.fromFebruary 1800 85500)⟩⟩
      let t : Instant := ⟨1614557700000000000, by decide, by decide⟩
      t.nanos < Instant.last.nanos ∧
        c.dayOf t = (c.monthOf t).firstDay ∧
        (c.bucketStart .month1 t).nanos = 1614558600000000000 ∧
        ¬ (c.bucketStart .month1 t).nanos ≤ t.nanos :=
  ⟨by decide +kernel, Calendar.once_fromFebruary (by decide) (by decide), by decide +kernel⟩

end Candlestick
