import Candlestick.Zone.Rule

/-!
# What a local clock reads

A clock that is changed twice a year goes through every local year in three stretches:
before the first change, between the two, and after the second (`Seasonal.reads`).
`secondOf?` gives a second at which the clock reads what was asked for, or at which it goes
forward from just that reading (`Seasonal.lookup`). This takes that the changes are apart
from each other and from new year (`Orderly`): only the months of the two switches decide
which one a reading is compared to first.
-/

namespace Candlestick.TimeRule

open Calendar

def newYear (year : Int) : Int := (Month.ofYear year 0).firstDay * 86400

/-- The year of a second, be it of UTC or of a local clock. -/
def yearOf (second : Int) : Int := Month.yearOfDay (second / 86400)

def readingAt (rule : TimeRule) (second : Int) : Int := second + rule.offsetAt second

namespace YearView

/-- The second of UTC of the first jump. -/
def leaves (v : YearView) : Int := v.leave.last - v.outer

/-- The second of UTC of the second jump. -/
def returns (v : YearView) : Int := v.back.last - v.inner

/-- What a clock reads at a second of the year of a view. -/
def Reads (v : YearView) (second reading : Int) : Prop :=
  (second < v.leaves ∧ reading = second + v.outer) ∨
    (v.leaves ≤ second ∧ second < v.returns ∧ reading = second + v.inner) ∨
      (v.returns ≤ second ∧ reading = second + v.outer)

/-- Both jumps are inside of the local year, the readings at the first come before those at
the second, and the first one comes no later than the year ends in UTC. -/
structure Within (v : YearView) (first next : Int) : Prop where
  begun : first ≤ v.leave.last ∧ first ≤ v.leave.first
  apart : v.leave.last < v.back.last ∧ v.leave.last < v.back.first ∧
    v.leave.first < v.back.last ∧ v.leave.first < v.back.first
  ended : v.back.last < next ∧ v.back.first < next
  early : v.leaves ≤ next

end YearView

/-- Every year has the same offset at both ends, and its changes in the order in which its
view has them. -/
structure Orderly (rule : TimeRule) (d : Daylight) : Prop where
  outer : ∀ y z, (viewOf rule.standard d y).outer = (viewOf rule.standard d z).outer
  within : ∀ y, (viewOf rule.standard d y).Within (newYear y) (newYear (y + 1))

def Near (rule : TimeRule) (d : Daylight) : Prop :=
  rule.standard.natAbs < 172800 ∧ d.offset.natAbs < 172800

structure Seasonal (rule : TimeRule) (d : Daylight) : Prop extends Orderly rule d where
  daylight : rule.daylight = some d
  near : Near rule d

-- ---------------------------------------------------------------------------
-- Years
-- ---------------------------------------------------------------------------

theorem newYear_add_year_le (y : Int) : newYear y + 31536000 ≤ newYear (y + 1) := by
  have step := Month.daysBeforeYear_succ y
  simp only [newYear, Month.firstDay_january]
  split at step <;> omega

theorem newYear_le {y z : Int} (h : y ≤ z) : newYear y ≤ newYear z := by
  have := Month.firstDay_le_of_index_le (m := .ofYear y 0) (n := .ofYear z 0)
    (by simp only [Month.ofYear]; omega)
  simp only [newYear]
  omega

theorem lt_of_newYear_lt {y z : Int} (h : newYear y < newYear z) : y < z := by
  by_cases hle : z ≤ y
  · have := newYear_le hle
    omega
  · omega

theorem newYear_yearOf_le (second : Int) : newYear (yearOf second) ≤ second := by
  have := Month.daysBeforeYear_yearOfDay_le (second / 86400)
  simp only [newYear, yearOf, Month.firstDay_january]
  omega

theorem lt_newYear_yearOf (second : Int) : second < newYear (yearOf second + 1) := by
  have := Month.lt_daysBeforeYear_yearOfDay (second / 86400)
  simp only [newYear, yearOf, Month.firstDay_january]
  omega

-- ---------------------------------------------------------------------------
-- Views
-- ---------------------------------------------------------------------------

variable {rule : TimeRule} {d : Daylight}

theorem offsets_viewOf (standard : Int) (d : Daylight) (y : Int) :
    ((viewOf standard d y).outer = standard ∧ (viewOf standard d y).inner = d.offset) ∨
      ((viewOf standard d y).outer = d.offset ∧ (viewOf standard d y).inner = standard) := by
  unfold viewOf
  split
  · exact .inl ⟨rfl, rfl⟩
  · exact .inr ⟨rfl, rfl⟩

theorem jumps_viewOf (standard : Int) (d : Daylight) (y : Int) :
    (viewOf standard d y).leave.first = (viewOf standard d y).leave.last +
        (viewOf standard d y).inner - (viewOf standard d y).outer ∧
      (viewOf standard d y).back.first = (viewOf standard d y).back.last +
        (viewOf standard d y).outer - (viewOf standard d y).inner ∧
      (viewOf standard d y).leaves =
        (viewOf standard d y).leave.last - (viewOf standard d y).outer ∧
      (viewOf standard d y).returns =
        (viewOf standard d y).back.last - (viewOf standard d y).inner := by
  refine ⟨?_, ?_, rfl, rfl⟩ <;> unfold viewOf jumpIn <;> split <;> rfl

theorem mem_switchesIn {standard y : Int} {e : Int × Int} :
    e ∈ switchesIn standard d y ↔
      e = ((viewOf standard d y).leaves, (viewOf standard d y).inner) ∨
        e = ((viewOf standard d y).returns, (viewOf standard d y).outer) := by
  have shift : ∀ (s : Switch) (offset : Int),
      s.secondIn y 0 - offset = s.secondIn y offset := fun s offset => by
    simp only [Switch.secondIn]; omega
  unfold viewOf switchesIn
  split
  · simp [YearView.leaves, YearView.returns, jumpIn, shift]
  · simp [YearView.leaves, YearView.returns, jumpIn, shift, or_comm]

/-- Two changes that are eight days from each other and four days from new year are in order. -/
theorem within_of_far (near : Near rule d) {y : Int}
    (begun : newYear y + 345600 ≤ (viewOf rule.standard d y).leave.last)
    (apart : (viewOf rule.standard d y).leave.last + 691200 ≤
      (viewOf rule.standard d y).back.last)
    (ended : (viewOf rule.standard d y).back.last + 345600 ≤ newYear (y + 1)) :
    (viewOf rule.standard d y).Within (newYear y) (newYear (y + 1)) := by
  obtain ⟨standard, saving⟩ := near
  have offsets := offsets_viewOf rule.standard d y
  have jumps := jumps_viewOf rule.standard d y
  exact ⟨by omega, by omega, by omega, by omega⟩

theorem monthIn_eq {s : Switch} {y : Int} {place : Nat}
    (hplace : place < 12) (low : (Month.ofYear y place).firstDay ≤ s.day.dayIn y)
    (high : s.day.dayIn y < (Month.ofYear y (place + 1)).firstDay) :
    monthIn s y = Month.ofYear y place := by
  have start := Month.firstDay_le_of_index_le (m := .ofYear y 0) (n := .ofYear y place)
    (by simp only [Month.ofYear]; omega)
  have stop := Month.firstDay_le_of_index_le (m := .ofYear y (place + 1)) (n := .ofYear y 12)
    (by simp only [Month.ofYear]; omega)
  obtain ⟨low', high'⟩ := Month.lastUpTo_bracket y (s.day.dayIn y) 11
    (Int.le_trans start low) (Int.lt_of_lt_of_le high stop)
  rw [monthIn, Month.eq_ofDay low' high', ← Month.eq_ofDay low (by rwa [Month.next_ofYear])]

-- ---------------------------------------------------------------------------
-- The last switch
-- ---------------------------------------------------------------------------

theorem foldl_later_mem (s : Int × Int) (rest : List (Int × Int)) :
    rest.foldl later s ∈ s :: rest := by
  induction rest generalizing s with
  | nil => exact List.mem_singleton_self s
  | cons t rest ih =>
    have := ih (later s t)
    unfold later at this ⊢
    rw [List.foldl_cons]
    split at this <;> grind

theorem le_foldl_later (s : Int × Int) (rest : List (Int × Int)) :
    ∀ e ∈ s :: rest, e.1 ≤ (rest.foldl later s).1 := by
  induction rest generalizing s with
  | nil => simp
  | cons t rest ih =>
    have last := ih (later s t) _ (List.mem_cons_self ..)
    have le : s.1 ≤ (later s t).1 ∧ t.1 ≤ (later s t).1 := by unfold later; split <;> omega
    intro e he
    rw [List.foldl_cons]
    rcases List.mem_cons.mp he with rfl | he
    · omega
    · rcases List.mem_cons.mp he with rfl | he
      · omega
      · exact ih (later s t) e (List.mem_cons_of_mem _ he)

/-- The offset is that of a switch which comes after all others up to the second, provided
that it is one of the three years that are looked at. -/
theorem offsetAt_eq {second z : Int} {e : Int × Int} (daylight : rule.daylight = some d)
    (he : e ∈ switchesIn rule.standard d z)
    (near : yearOf second - 1 ≤ z ∧ z ≤ yearOf second + 1) (passed : e.1 ≤ second)
    (last : ∀ z', ∀ e' ∈ switchesIn rule.standard d z', e'.1 ≤ second → e'.1 < e.1 ∨ e' = e) :
    rule.offsetAt second = e.2 := by
  have mem : e ∈ ([yearOf second - 1, yearOf second, yearOf second + 1].flatMap
      (switchesIn rule.standard d)).filter fun s => s.1 ≤ second := by
    simp only [List.mem_filter, List.mem_flatMap, decide_eq_true_eq]
    refine ⟨⟨z, ?_, he⟩, passed⟩
    simp only [List.mem_cons, List.not_mem_nil, or_false]
    omega
  unfold offsetAt
  rw [daylight]
  simp only
  rw [← yearOf]
  split
  · next h => rw [h] at mem; cases mem
  · next s rest h =>
    have found := foldl_later_mem s rest
    have le := le_foldl_later s rest e (h ▸ mem)
    rw [← h, List.mem_filter, List.mem_flatMap] at found
    obtain ⟨⟨z', -, hz'⟩, hle⟩ := found
    rcases last z' _ hz' (by simpa using hle) with lt | eq
    · omega
    · rw [eq]

-- ---------------------------------------------------------------------------
-- The three stretches of a year
-- ---------------------------------------------------------------------------

namespace Seasonal

theorem bounds (clock : Seasonal rule d) (y z : Int) :
    newYear y ≤ (viewOf rule.standard d y).leaves + (viewOf rule.standard d z).outer ∧
      (viewOf rule.standard d y).leaves < (viewOf rule.standard d y).returns ∧
      (viewOf rule.standard d y).returns + (viewOf rule.standard d z).outer < newYear (y + 1) := by
  obtain ⟨begun, apart, ended, -⟩ := clock.within y
  have same := clock.outer y z
  have jumps := jumps_viewOf rule.standard d y
  omega

theorem returns_lt_leaves (clock : Seasonal rule d) {y z : Int} (h : y < z) :
    (viewOf rule.standard d y).returns < (viewOf rule.standard d z).leaves := by
  have := clock.bounds y y
  have := clock.bounds z y
  have : newYear (y + 1) ≤ newYear z := newYear_le h
  omega

theorem leaves_le_leaves (clock : Seasonal rule d) {y z : Int} (h : y ≤ z) :
    (viewOf rule.standard d y).leaves ≤ (viewOf rule.standard d z).leaves := by
  rcases Int.lt_or_eq_of_le h with lt | rfl
  · have := clock.bounds y y
    have := clock.returns_lt_leaves lt
    omega
  · exact Int.le_refl _

theorem offsetAt_of_left (clock : Seasonal rule d) {y x : Int}
    (close : yearOf x - 1 ≤ y ∧ y ≤ yearOf x + 1)
    (left : (viewOf rule.standard d y).leaves ≤ x)
    (notBack : x < (viewOf rule.standard d y).returns) :
    rule.offsetAt x = (viewOf rule.standard d y).inner := by
  rw [offsetAt_eq clock.daylight (mem_switchesIn.mpr (.inl rfl)) close left]
  intro z e he passed
  have bounds := clock.bounds z z
  rcases Int.lt_trichotomy z y with h | rfl | h
  · have := clock.returns_lt_leaves h
    rcases mem_switchesIn.mp he with rfl | rfl <;> simp only at passed ⊢ <;> omega
  · rcases mem_switchesIn.mp he with rfl | rfl
    · exact .inr rfl
    · exact absurd passed (by simp only; omega)
  · have := clock.returns_lt_leaves h
    rcases mem_switchesIn.mp he with rfl | rfl <;> simp only at passed ⊢ <;> omega

theorem offsetAt_of_returned (clock : Seasonal rule d) {y x : Int}
    (close : yearOf x - 1 ≤ y ∧ y ≤ yearOf x + 1)
    (returned : (viewOf rule.standard d y).returns ≤ x)
    (notLeft : x < (viewOf rule.standard d (y + 1)).leaves) :
    rule.offsetAt x = (viewOf rule.standard d y).outer := by
  rw [offsetAt_eq clock.daylight (mem_switchesIn.mpr (.inr rfl)) close returned]
  intro z e he passed
  have bounds := clock.bounds z z
  have bounds' := clock.bounds y y
  rcases Int.lt_trichotomy z y with h | rfl | h
  · have := clock.returns_lt_leaves h
    rcases mem_switchesIn.mp he with rfl | rfl <;> simp only at passed ⊢ <;> omega
  · rcases mem_switchesIn.mp he with rfl | rfl
    · exact .inl bounds.2.1
    · exact .inr rfl
  · have := clock.leaves_le_leaves (y := y + 1) (z := z) (by omega)
    rcases mem_switchesIn.mp he with rfl | rfl <;> simp only at passed ⊢ <;> omega

theorem reads (clock : Seasonal rule d) {y x : Int}
    (low : newYear y ≤ x + (viewOf rule.standard d y).outer)
    (high : x + (viewOf rule.standard d y).outer < newYear (y + 1)) :
    (viewOf rule.standard d y).Reads x (rule.readingAt x) := by
  have offsets := offsets_viewOf rule.standard d y
  have year := newYear_yearOf_le x
  have year' := lt_newYear_yearOf x
  have prev := newYear_add_year_le (y - 1)
  have following := newYear_add_year_le (y + 1)
  rw [Int.sub_add_cancel] at prev
  obtain ⟨standard, saving⟩ := clock.near
  -- UTC is two days away at most, so it is in the same year or in one next to it
  have from_prev := lt_of_newYear_lt (y := y - 1) (z := yearOf x + 1) (by omega)
  have to_next := lt_of_newYear_lt (y := yearOf x) (z := y + 1 + 1) (by omega)
  unfold YearView.Reads readingAt
  rcases Int.lt_or_le x (viewOf rule.standard d y).leaves with notLeft | left
  · have early := (clock.within y).early
    have in_year := lt_of_newYear_lt (y := yearOf x) (z := y + 1) (by omega)
    have bounds := clock.bounds (y - 1) y
    rw [Int.sub_add_cancel] at bounds
    rw [clock.offsetAt_of_returned (y := y - 1) (by omega) (by omega)
      (by rwa [Int.sub_add_cancel]), clock.outer (y - 1) y]
    exact .inl ⟨notLeft, rfl⟩
  · rcases Int.lt_or_le x (viewOf rule.standard d y).returns with notBack | returned
    · rw [clock.offsetAt_of_left (y := y) (by omega) left notBack]
      exact .inr (.inl ⟨left, notBack, rfl⟩)
    · have bounds := clock.bounds (y + 1) y
      rw [clock.offsetAt_of_returned (y := y) (by omega) returned (by omega)]
      exact .inr (.inr ⟨returned, rfl⟩)

theorem readingAt_before (clock : Seasonal rule d) {y x : Int}
    (low : newYear y ≤ x + (viewOf rule.standard d y).outer)
    (notLeft : x < (viewOf rule.standard d y).leaves) :
    rule.readingAt x = x + (viewOf rule.standard d y).outer := by
  have bounds := clock.bounds y y
  rcases clock.reads low (by omega) with ⟨-, h⟩ | ⟨_, _, -⟩ | ⟨_, -⟩
  · exact h
  · omega
  · omega

theorem readingAt_between (clock : Seasonal rule d) {y x : Int}
    (left : (viewOf rule.standard d y).leaves ≤ x)
    (notBack : x < (viewOf rule.standard d y).returns) :
    rule.readingAt x = x + (viewOf rule.standard d y).inner := by
  have bounds := clock.bounds y y
  rcases clock.reads (y := y) (x := x) (by omega) (by omega) with
    ⟨_, -⟩ | ⟨-, -, h⟩ | ⟨_, -⟩
  · omega
  · exact h
  · omega

theorem readingAt_after (clock : Seasonal rule d) {y x : Int}
    (returned : (viewOf rule.standard d y).returns ≤ x)
    (high : x + (viewOf rule.standard d y).outer < newYear (y + 1)) :
    rule.readingAt x = x + (viewOf rule.standard d y).outer := by
  have bounds := clock.bounds y y
  rcases clock.reads (y := y) (by omega) high with ⟨_, -⟩ | ⟨_, _, -⟩ | ⟨-, h⟩
  · omega
  · omega
  · exact h

theorem readingAt_bounds (clock : Seasonal rule d) {y x : Int}
    (low : newYear y ≤ x + (viewOf rule.standard d y).outer)
    (high : x + (viewOf rule.standard d y).outer < newYear (y + 1)) :
    newYear y ≤ rule.readingAt x ∧ rule.readingAt x < newYear (y + 1) := by
  obtain ⟨begun, -, ended, -⟩ := clock.within y
  have jumps := jumps_viewOf rule.standard d y
  rcases clock.reads low high with ⟨-, h⟩ | ⟨left, notBack, h⟩ | ⟨-, h⟩ <;> omega

/-- A clock reads a year while its offset at new year would have it read that year. -/
theorem reading_trichotomy (clock : Seasonal rule d) (y x : Int) :
    (x + (viewOf rule.standard d y).outer < newYear y ∧ rule.readingAt x < newYear y) ∨
      (newYear (y + 1) ≤ x + (viewOf rule.standard d y).outer ∧
        newYear (y + 1) ≤ rule.readingAt x) ∨
      (newYear y ≤ x + (viewOf rule.standard d y).outer ∧
        x + (viewOf rule.standard d y).outer < newYear (y + 1) ∧
        (viewOf rule.standard d y).Reads x (rule.readingAt x)) := by
  obtain ⟨z, hz⟩ : ∃ z, z = yearOf (x + (viewOf rule.standard d y).outer) := ⟨_, rfl⟩
  have low := newYear_yearOf_le (x + (viewOf rule.standard d y).outer)
  have high := lt_newYear_yearOf (x + (viewOf rule.standard d y).outer)
  rw [← hz] at low high
  have inYear := clock.readingAt_bounds (clock.outer z y ▸ low) (clock.outer z y ▸ high)
  rcases Int.lt_trichotomy z y with h | rfl | h
  · have : newYear (z + 1) ≤ newYear y := newYear_le h
    exact .inl ⟨by omega, by omega⟩
  · exact .inr (.inr ⟨low, high, clock.reads low high⟩)
  · have : newYear (y + 1) ≤ newYear z := newYear_le h
    exact .inr (.inl ⟨by omega, by omega⟩)

theorem reads_of_eq (clock : Seasonal rule d) {y x reading : Int} (low : newYear y ≤ reading)
    (high : reading < newYear (y + 1)) (h : rule.readingAt x = reading) :
    (viewOf rule.standard d y).Reads x reading := by
  rcases clock.reading_trichotomy y x with ⟨-, before⟩ | ⟨-, after⟩ | ⟨-, -, reads⟩
  · omega
  · omega
  · exact h ▸ reads

end Seasonal

-- ---------------------------------------------------------------------------
-- Looking readings up
-- ---------------------------------------------------------------------------

/-- A reading is found where the clock has it, or where it goes forward from it; what is not
found is never read. -/
structure Lookup (rule : TimeRule) : Prop where
  found : ∀ reading second, rule.secondOf? reading = some second →
    rule.readingAt second = reading ∨
      (reading < rule.readingAt second ∧ rule.readingAt (second - 1) = reading - 1)
  missing : ∀ reading, rule.secondOf? reading = none → ∀ second, rule.readingAt second ≠ reading

theorem YearView.offset?_eq_some {v : YearView} {reading offset : Int}
    (h : v.offset? reading = some offset) :
    (offset = v.outer ∧ reading ≤ v.leave.last ∧
        (v.leave.last < v.leave.first ∨ reading < v.leave.first)) ∨
      (offset = v.inner ∧ v.leave.first ≤ reading ∧
        (v.leave.last < v.leave.first ∧ reading < v.back.first ∨ reading < v.back.last)) ∨
      (offset = v.outer ∧ v.back.first ≤ reading) := by
  unfold offset? Jump.isForward at h
  simp only [decide_eq_true_eq] at h
  grind

theorem YearView.offset?_eq_none {v : YearView} {reading : Int} (h : v.offset? reading = none) :
    (v.leave.last < reading ∧ reading < v.leave.first) ∨
      (v.back.last ≤ reading ∧ reading < v.back.first) := by
  unfold offset? Jump.isForward at h
  simp only [decide_eq_true_eq] at h
  grind

theorem secondOf?_eq {reading : Int} (daylight : rule.daylight = some d)
    (differ : d.offset ≠ rule.standard) :
    rule.secondOf? reading =
      ((viewOf rule.standard d (yearOf reading)).offset? reading).map (reading - ·) := by
  unfold secondOf? offsetOf?
  rw [daylight]
  simp only [differ, if_false, yearOf]

namespace Seasonal

theorem readingAt_leaves_sub_one (clock : Seasonal rule d) (y : Int) :
    rule.readingAt ((viewOf rule.standard d y).leaves - 1) =
      (viewOf rule.standard d y).leave.last - 1 := by
  have bounds := clock.bounds y y
  have jumps := jumps_viewOf rule.standard d y
  rcases Int.lt_or_le ((viewOf rule.standard d y).leaves - 1 + (viewOf rule.standard d y).outer)
    (newYear y) with before | inYear
  · have bounds' := clock.bounds (y - 1) y
    rw [Int.sub_add_cancel] at bounds'
    rw [clock.readingAt_after (y := y - 1) (by omega)
      (by rw [clock.outer (y - 1) y, Int.sub_add_cancel]; omega), clock.outer (y - 1) y]
    omega
  · rw [clock.readingAt_before inYear (by omega)]
    omega

theorem found (clock : Seasonal rule d) (differ : d.offset ≠ rule.standard)
    {reading second : Int} (h : rule.secondOf? reading = some second) :
    rule.readingAt second = reading ∨
      (reading < rule.readingAt second ∧ rule.readingAt (second - 1) = reading - 1) := by
  rw [secondOf?_eq clock.daylight differ] at h
  obtain ⟨offset, hoffset, rfl⟩ := Option.map_eq_some_iff.mp h
  have low := newYear_yearOf_le reading
  have high := lt_newYear_yearOf reading
  generalize yearOf reading = y at hoffset low high
  obtain ⟨begun, apart, ended, -⟩ := clock.within y
  have jumps := jumps_viewOf rule.standard d y
  rcases YearView.offset?_eq_some hoffset with
    ⟨rfl, notLeft, forward⟩ | ⟨rfl, left, notBack⟩ | ⟨rfl, returned⟩
  · rcases Int.lt_or_eq_of_le notLeft with before | just
    · left
      rw [clock.readingAt_before (y := y) (by omega) (by omega)]
      omega
    · -- the clock goes forward from the reading
      right
      have moment : reading - (viewOf rule.standard d y).outer =
        (viewOf rule.standard d y).leaves := by omega
      rw [moment, clock.readingAt_leaves_sub_one y,
        clock.readingAt_between (Int.le_refl _) (clock.bounds y y).2.1]
      omega
  · left
    rw [clock.readingAt_between (y := y) (by omega) (by omega)]
    omega
  · left
    rw [clock.readingAt_after (y := y) (by omega) (by omega)]
    omega

theorem missing (clock : Seasonal rule d) (differ : d.offset ≠ rule.standard) {reading : Int}
    (h : rule.secondOf? reading = none) (second : Int) : rule.readingAt second ≠ reading := by
  rw [secondOf?_eq clock.daylight differ, Option.map_eq_none_iff] at h
  intro read
  have reads := clock.reads_of_eq (newYear_yearOf_le reading) (lt_newYear_yearOf reading) read
  have gap := YearView.offset?_eq_none h
  have apart := (clock.within (yearOf reading)).apart
  have jumps := jumps_viewOf rule.standard d (yearOf reading)
  rcases reads with ⟨_, _⟩ | ⟨_, _, _⟩ | ⟨_, _⟩ <;> omega

theorem lookup (clock : Seasonal rule d) (differ : d.offset ≠ rule.standard) : rule.Lookup :=
  ⟨fun _ _ => clock.found differ, fun _ => clock.missing differ⟩

end Seasonal

end Candlestick.TimeRule
