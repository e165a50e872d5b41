import Candlestick.Proofs.Zone.Readings
import Candlestick.Zone.Posix

/-!
# Where a reading is reached

A reading that a local clock has once, or skips, splits the seconds of UTC in two: before
some second the clock reads less, and after it more (`exists_beginsAt`). A search in steps
of an hour finds that second where the clock goes over the reading to a full hour, or where
the reading itself is found (`Opens.exists_hour`).
-/

namespace Candlestick.TimeRule

open Calendar

/-- The clock reads less before a second, and after it more than there. -/
structure BeginsAt (rule : TimeRule) (reading second : Int) : Prop where
  before : ∀ x < second, rule.readingAt x < reading
  reads : reading ≤ rule.readingAt second
  after : ∀ x, second < x → rule.readingAt second < rule.readingAt x

def Once (rule : TimeRule) (reading : Int) : Prop :=
  ∀ x y, rule.readingAt x = reading → rule.readingAt y = reading → x = y

/-- A midnight does not happen twice. Where the clock skips it, it goes to a full hour of the
day, or to any time of the day if midnight is found all the same. -/
structure Opens (rule : TimeRule) (midnight : Int) : Prop where
  once : rule.Once midnight
  lands : ∀ second, rule.readingAt (second - 1) < midnight → midnight < rule.readingAt second →
    (∃ hour < 24, rule.readingAt second = midnight + (hour : Nat) * 3600) ∨
      (rule.secondOf? midnight = some second ∧ rule.readingAt second < midnight + 86400)

variable {rule : TimeRule} {d : Daylight}

-- ---------------------------------------------------------------------------
-- Existence
-- ---------------------------------------------------------------------------

namespace Seasonal

theorem once_iff (clock : Seasonal rule d) {y reading : Int} (low : newYear y ≤ reading)
    (high : reading < newYear (y + 1)) :
    rule.Once reading ↔
      (reading < (viewOf rule.standard d y).leave.first ∨
          (viewOf rule.standard d y).leave.last ≤ reading) ∧
        (reading < (viewOf rule.standard d y).back.first ∨
          (viewOf rule.standard d y).back.last ≤ reading) := by
  obtain ⟨-, apart, -, -⟩ := clock.within y
  have jumps := jumps_viewOf rule.standard d y
  constructor
  · intro once
    have between := clock.readingAt_between (y := y)
      (x := reading - (viewOf rule.standard d y).inner)
    have same := once (reading - (viewOf rule.standard d y).outer)
      (reading - (viewOf rule.standard d y).inner)
    constructor
    · refine Decidable.byContradiction fun twice => ?_
      have before := clock.readingAt_before (y := y)
        (x := reading - (viewOf rule.standard d y).outer) (by omega) (by omega)
      have := same (by omega) (by rw [between (by omega) (by omega)]; omega)
      omega
    · refine Decidable.byContradiction fun twice => ?_
      have after := clock.readingAt_after (y := y)
        (x := reading - (viewOf rule.standard d y).outer) (by omega) (by omega)
      have := same (by omega) (by rw [between (by omega) (by omega)]; omega)
      omega
  · rintro ⟨leave, back⟩ x x' hx hx'
    rcases clock.reads_of_eq low high hx with ⟨_, _⟩ | ⟨_, _, _⟩ | ⟨_, _⟩ <;>
      rcases clock.reads_of_eq low high hx' with ⟨_, _⟩ | ⟨_, _, _⟩ | ⟨_, _⟩ <;> omega

theorem gap_of_skipped (clock : Seasonal rule d) {y reading second : Int}
    (low : newYear y ≤ reading) (high : reading < newYear (y + 1))
    (before : rule.readingAt (second - 1) < reading) (after : reading < rule.readingAt second) :
    ((viewOf rule.standard d y).leave.last ≤ reading ∧
        rule.readingAt second = (viewOf rule.standard d y).leave.first) ∨
      ((viewOf rule.standard d y).back.last ≤ reading ∧
        rule.readingAt second = (viewOf rule.standard d y).back.first) := by
  have year := newYear_add_year_le y
  obtain ⟨begun, apart, ended, -⟩ := clock.within y
  have jumps := jumps_viewOf rule.standard d y
  have at_ := clock.reading_trichotomy y second
  have at_' := clock.reading_trichotomy y (second - 1)
  unfold YearView.Reads at at_ at_'
  rcases at_ with ⟨_, _⟩ | ⟨_, _⟩ | ⟨_, _, ⟨_, _⟩ | ⟨_, _, _⟩ | ⟨_, _⟩⟩ <;>
    rcases at_' with ⟨_, _⟩ | ⟨_, _⟩ | ⟨_, _, ⟨_, _⟩ | ⟨_, _, _⟩ | ⟨_, _⟩⟩ <;> omega

/-- Where a reading is reached is decided in the view of its year. -/
theorem beginsAt_of_view (clock : Seasonal rule d) {y reading second value : Int}
    (reads : rule.readingAt second = value) (low : newYear y ≤ reading) (le : reading ≤ value)
    (high : value < newYear (y + 1))
    (split : ∀ x r, (viewOf rule.standard d y).Reads x r →
      (x < second → r < reading) ∧ (second < x → value < r)) : rule.BeginsAt reading second := by
  have inYear := clock.reading_trichotomy y second
  refine ⟨fun x hx => ?_, by omega, fun x hx => ?_⟩
  · rcases clock.reading_trichotomy y x with ⟨-, h⟩ | ⟨h, -⟩ | ⟨-, -, h⟩
    · omega
    · omega
    · exact (split x _ h).1 hx
  · rcases clock.reading_trichotomy y x with ⟨h, -⟩ | ⟨-, h⟩ | ⟨-, -, h⟩
    · omega
    · omega
    · exact reads ▸ (split x _ h).2 hx

theorem exists_split (clock : Seasonal rule d) {y reading : Int} (low : newYear y ≤ reading)
    (high : reading < newYear (y + 1)) (once : rule.Once reading) :
    ∃ second value, rule.readingAt second = value ∧ reading ≤ value ∧ value < newYear (y + 1) ∧
      ∀ x r, (viewOf rule.standard d y).Reads x r →
        (x < second → r < reading) ∧ (second < x → value < r) := by
  obtain ⟨-, apart, ended, -⟩ := clock.within y
  have jumps := jumps_viewOf rule.standard d y
  have single := (clock.once_iff low high).mp once
  unfold YearView.Reads
  rcases Int.lt_or_le reading (viewOf rule.standard d y).leave.last with notLeft | left
  · exact ⟨reading - (viewOf rule.standard d y).outer, _,
      clock.readingAt_before (y := y) (by omega) (by omega), by omega, by omega,
      fun x r h => by omega⟩
  rcases Int.lt_or_le reading (viewOf rule.standard d y).leave.first with skipped | entered
  · exact ⟨(viewOf rule.standard d y).leaves, _,
      clock.readingAt_between (Int.le_refl _) (by omega), by omega, by omega,
      fun x r h => by omega⟩
  rcases Int.lt_or_le reading (viewOf rule.standard d y).back.last with notBack | returned
  · exact ⟨reading - (viewOf rule.standard d y).inner, _,
      clock.readingAt_between (y := y) (by omega) (by omega), by omega, by omega,
      fun x r h => by omega⟩
  rcases Int.lt_or_le reading (viewOf rule.standard d y).back.first with skipped | entered
  · exact ⟨(viewOf rule.standard d y).returns, _,
      clock.readingAt_after (Int.le_refl _) (by omega), by omega, by omega,
      fun x r h => by omega⟩
  · exact ⟨reading - (viewOf rule.standard d y).outer, _,
      clock.readingAt_after (y := y) (by omega) (by omega), by omega, by omega,
      fun x r h => by omega⟩

theorem exists_beginsAt (clock : Seasonal rule d) {reading : Int} (once : rule.Once reading) :
    ∃ second, rule.BeginsAt reading second := by
  have low := newYear_yearOf_le reading
  obtain ⟨second, value, reads, le, high, split⟩ :=
    clock.exists_split low (lt_newYear_yearOf reading) once
  exact ⟨second, clock.beginsAt_of_view reads low le high split⟩

end Seasonal

theorem offsetAt_eq_or (daylight : rule.daylight = some d) (second : Int) :
    rule.offsetAt second = rule.standard ∨ rule.offsetAt second = d.offset := by
  unfold offsetAt
  rw [daylight]
  simp only
  split
  · exact .inl rfl
  · next s rest h =>
    have found := foldl_later_mem s rest
    rw [← h, List.mem_filter, List.mem_flatMap] at found
    obtain ⟨⟨z, -, hz⟩, -⟩ := found
    have offsets := offsets_viewOf rule.standard d z
    rcases mem_switchesIn.mp hz with eq | eq <;> rw [eq] <;> simp only <;> omega

theorem lookup_of_orderly (daylight : rule.daylight = some d) (near : Near rule d)
    (orderly : d.offset ≠ rule.standard → rule.Orderly d) : rule.Lookup := by
  by_cases same : d.offset = rule.standard
  · have lookup : ∀ reading, rule.secondOf? reading = some (reading - rule.standard) := by
      intro reading
      simp only [secondOf?, offsetOf?, daylight, same, if_true, Option.map_some]
    refine ⟨fun reading second h => .inl ?_, fun reading h => ?_⟩
    · rw [lookup, Option.some.injEq] at h
      have := offsetAt_eq_or daylight second
      simp only [readingAt]
      omega
    · rw [lookup] at h
      cases h
  · exact Seasonal.lookup ⟨orderly same, daylight, near⟩ same

theorem exists_beginsAt_of_orderly (daylight : rule.daylight = some d) (near : Near rule d)
    (orderly : d.offset ≠ rule.standard → rule.Orderly d) {reading : Int}
    (once : rule.Once reading) : ∃ second, rule.BeginsAt reading second := by
  by_cases same : d.offset = rule.standard
  · have reads : ∀ second, rule.readingAt second = second + rule.standard := by
      intro second
      have := offsetAt_eq_or daylight second
      simp only [readingAt]
      omega
    refine ⟨reading - rule.standard, fun x hx => ?_, ?_, fun x hx => ?_⟩ <;>
      simp only [reads] <;> omega
  · exact Seasonal.exists_beginsAt ⟨orderly same, daylight, near⟩ once

-- ---------------------------------------------------------------------------
-- Looking up where a reading is reached
-- ---------------------------------------------------------------------------

namespace BeginsAt

variable {reading second : Int}

/-- What is looked up between the reading and the one that the clock has in its place is found
there, if at all. -/
theorem eq_of_secondOf? (begins : rule.BeginsAt reading second) (lookup : rule.Lookup)
    {asked x : Int} (low : reading ≤ asked) (high : asked ≤ rule.readingAt second)
    (h : rule.secondOf? asked = some x) : x = second := by
  rcases Int.lt_trichotomy x second with lt | eq | gt
  · have := begins.before x lt
    rcases lookup.found asked x h with read | ⟨gone, -⟩ <;> omega
  · exact eq
  · have later := begins.after x gt
    rcases lookup.found asked x h with read | ⟨-, last⟩
    · omega
    · -- the second before is no earlier than `second`, and reads no less
      rcases Int.lt_or_eq_of_le (Int.le_sub_one_of_lt gt) with lt | eq
      · have := begins.after (x - 1) lt
        omega
      · rw [← eq] at last
        omega

theorem secondOf?_readingAt (begins : rule.BeginsAt reading second) (lookup : rule.Lookup) :
    rule.secondOf? (rule.readingAt second) = some second := by
  cases h : rule.secondOf? (rule.readingAt second) with
  | none => exact absurd rfl (lookup.missing _ h second)
  | some x => rw [begins.eq_of_secondOf? lookup begins.reads (Int.le_refl _) h]

theorem exists_hour (begins : rule.BeginsAt reading second) (lookup : rule.Lookup)
    (opens : rule.Opens reading) :
    ∃ hour < 24, rule.secondOf? (reading + (hour : Nat) * 3600) = some second ∧
      reading + (hour : Nat) * 3600 ≤ rule.readingAt second ∧
      rule.readingAt second < reading + 86400 := by
  have found := begins.secondOf?_readingAt lookup
  have reads := begins.reads
  rcases Int.lt_or_eq_of_le reads with skipped | at_
  · rcases opens.lands second (begins.before _ (by omega)) skipped with
      ⟨hour, hlt, lands⟩ | ⟨midnight, inDay⟩
    · exact ⟨hour, hlt, lands ▸ found, by omega, by omega⟩
    · exact ⟨0, by decide, by simpa using midnight, by simpa using reads, inDay⟩
  · exact ⟨0, by decide, by simpa [at_] using found, by simpa using reads, by omega⟩

end BeginsAt

-- ---------------------------------------------------------------------------
-- Distance from UTC
-- ---------------------------------------------------------------------------

theorem Near.offsetAt (near : Near rule d) (daylight : rule.daylight = some d) (second : Int) :
    (rule.offsetAt second).natAbs < 172800 := by
  obtain ⟨standard, saving⟩ := near
  rcases offsetAt_eq_or daylight second with h | h <;> rw [h] <;> assumption

theorem Near.secondOf? (near : Near rule d) (daylight : rule.daylight = some d)
    {reading second : Int} (h : rule.secondOf? reading = some second) :
    (reading - second).natAbs < 172800 := by
  obtain ⟨standard, saving⟩ := near
  by_cases same : d.offset = rule.standard
  · simp only [TimeRule.secondOf?, offsetOf?, daylight, same, if_true, Option.map_some,
      Option.some.injEq] at h
    omega
  · rw [secondOf?_eq daylight same] at h
    obtain ⟨offset, hoffset, rfl⟩ := Option.map_eq_some_iff.mp h
    have offsets := offsets_viewOf rule.standard d (yearOf reading)
    have := YearView.offset?_eq_some hoffset
    omega

theorem readSeconds?_bounds {cs rest : List Char} {n : Int}
    (h : readSeconds? cs = some (n, rest)) : 0 ≤ n ∧ n < 90000 := by
  simp only [readSeconds?, Option.bind_eq_bind, Option.bind_eq_some_iff] at h
  obtain ⟨⟨hours, cs₁⟩, -, ⟨minutes, cs₂⟩, -, ⟨seconds, cs₃⟩, -, h⟩ := h
  simp only at h
  split at h
  · cases h
    omega
  · cases h

theorem readSigned?_bounds {cs rest : List Char} {n : Int}
    (h : readSigned? cs = some (n, rest)) : n.natAbs < 90000 := by
  unfold readSigned? at h
  split at h
  · obtain ⟨⟨m, rest'⟩, hm, eq⟩ := Option.map_eq_some_iff.mp h
    have := readSeconds?_bounds hm
    cases eq
    omega
  · have := readSeconds?_bounds h
    omega
  · have := readSeconds?_bounds h
    omega

theorem readDaylightOffset?_bounds {cs rest : List Char} {standard n : Int}
    (hstandard : standard.natAbs < 90000)
    (h : readDaylightOffset? standard cs = some (n, rest)) : n.natAbs < 172800 := by
  unfold readDaylightOffset? at h
  split at h
  · cases h
    omega
  · obtain ⟨⟨west, rest'⟩, hwest, eq⟩ := Option.map_eq_some_iff.mp h
    have := readSigned?_bounds hwest
    cases eq
    omega

theorem near_of_ofPosix? {text : String} (parsed : ofPosix? text = some rule)
    (daylight : rule.daylight = some d) : Near rule d := by
  simp only [ofPosix?, Option.bind_eq_bind, Option.bind_eq_some_iff] at parsed
  obtain ⟨cs, -, ⟨west, cs₁⟩, hwest, h⟩ := parsed
  have := readSigned?_bounds hwest
  simp only at h
  split at h
  · cases h
    cases daylight
  · simp only [Option.bind_eq_some_iff] at h
    obtain ⟨cs₂, -, ⟨offset, cs₃⟩, hoffset, ⟨start, cs₄⟩, -, ⟨stop, cs₅⟩, -, h⟩ := h
    have := readDaylightOffset?_bounds (by omega) hoffset
    simp only at h
    split at h
    · cases h
      cases daylight
      exact ⟨by simp only; omega, this⟩
    · cases h

end Candlestick.TimeRule
