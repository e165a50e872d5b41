/-!
# Months of the proleptic Gregorian calendar

Months are counted from January of year 0, days from 1970-01-01. Each month is the half-open
range of days from its first day to the first day of the next month, and every day lies in
exactly one month.
-/

namespace Candlestick.Calendar

/-- Days from 0001-01-01 to the first of January of a year. -/
def daysBeforeYear (year : Int) : Int :=
  let past := year - 1
  365 * past + past / 4 - past / 100 + past / 400

def isLeapYear (year : Int) : Bool :=
  year % 4 = 0 && (year % 100 ≠ 0 || year % 400 = 0)

/-- Days of a common year before its month number `index`, January being 0. -/
def daysBeforeMonth : Nat → Int
  | 0 => 0
  | 1 => 31
  | 2 => 59
  | 3 => 90
  | 4 => 120
  | 5 => 151
  | 6 => 181
  | 7 => 212
  | 8 => 243
  | 9 => 273
  | 10 => 304
  | 11 => 334
  | _ => 365

/-- The day number of 1970-01-01 counted from 0001-01-01. -/
def epochDay : Int := 719162

structure Month where
  index : Int
  deriving DecidableEq

namespace Month

def ofYear (year : Int) (place : Nat) : Month := ⟨12 * year + place⟩

def year (m : Month) : Int := m.index / 12

/-- The place in the year, January being 0. -/
def place (m : Month) : Nat := (m.index % 12).toNat

def next (m : Month) : Month := ⟨m.index + 1⟩

/-- The first day, counted from 1970-01-01. -/
def firstDay (m : Month) : Int :=
  let leapDay : Int := if isLeapYear m.year && 2 ≤ m.place then 1 else 0
  daysBeforeYear m.year + daysBeforeMonth m.place + leapDay - epochDay

def length (m : Month) : Int := m.next.firstDay - m.firstDay

/-- The year of a day: the quotient by the mean length of a year is off by one
at most. -/
def yearOfDay (day : Int) : Int :=
  let days := day + epochDay
  let guess := days * 400 / 146097 + 1
  if days < daysBeforeYear guess then guess - 1
  else if daysBeforeYear (guess + 1) ≤ days then guess + 1
  else guess

def lastUpTo (year : Int) (day : Int) : Nat → Month
  | 0 => ofYear year 0
  | place + 1 =>
    if (ofYear year (place + 1)).firstDay ≤ day then ofYear year (place + 1)
    else lastUpTo year day place

def ofDay (day : Int) : Month := lastUpTo (yearOfDay day) day 11

theorem year_next_or (m : Month) :
    (m.next.year = m.year ∧ m.next.place = m.place + 1) ∨
      (m.next.year = m.year + 1 ∧ m.place = 11 ∧ m.next.place = 0) := by
  simp only [next, year, place]
  omega

theorem daysBeforeYear_succ (y : Int) :
    daysBeforeYear (y + 1) = daysBeforeYear y + 365 + (if isLeapYear y then 1 else 0) := by
  unfold daysBeforeYear isLeapYear
  by_cases h4 : y % 4 = 0 <;> by_cases h100 : y % 100 = 0 <;> by_cases h400 : y % 400 = 0 <;>
    simp [h4, h100, h400] <;> omega

theorem daysBeforeYear_yearOfDay_le (day : Int) :
    daysBeforeYear (yearOfDay day) ≤ day + epochDay := by
  simp only [yearOfDay]
  split
  · simp only [daysBeforeYear] at *
    omega
  · split
    · assumption
    · omega

theorem lt_daysBeforeYear_yearOfDay (day : Int) :
    day + epochDay < daysBeforeYear (yearOfDay day + 1) := by
  simp only [yearOfDay]
  split
  · next h => simpa using h
  · split
    · simp only [daysBeforeYear] at *
      omega
    · omega

theorem year_ofYear (year : Int) {place : Nat} (h : place < 12) :
    (ofYear year place).year = year := by
  simp only [ofYear, Month.year]
  omega

theorem place_ofYear (year : Int) {place : Nat} (h : place < 12) :
    (ofYear year place).place = place := by
  simp only [ofYear, Month.place]
  omega

theorem next_ofYear (year : Int) (place : Nat) :
    (ofYear year place).next = ofYear year (place + 1) := by
  simp only [ofYear, next, Month.mk.injEq]
  omega

theorem ofYear_twelve (year : Int) : ofYear year 12 = ofYear (year + 1) 0 := by
  simp only [ofYear, Month.mk.injEq]
  omega

theorem firstDay_january (year : Int) :
    (ofYear year 0).firstDay = daysBeforeYear year - epochDay := by
  rw [firstDay, year_ofYear year (by decide), place_ofYear year (by decide)]
  simp [daysBeforeMonth]

theorem length_bounds (m : Month) : 28 ≤ m.length ∧ m.length ≤ 31 := by
  have hp : m.place < 12 := by simp only [place]; omega
  have hy := daysBeforeYear_succ m.year
  rcases year_next_or m with ⟨hyear, hplace⟩ | ⟨hyear, hplace, hnext⟩
  · have hp' : m.place < 11 := by
      have : m.next.place < 12 := by simp only [place]; omega
      omega
    simp only [length, firstDay, hyear, hplace]
    generalize m.place = p at *
    generalize isLeapYear m.year = leap at *
    match p, hp' with
    | 0, _ | 1, _ | 2, _ | 3, _ | 4, _ | 5, _ | 6, _ | 7, _ | 8, _ | 9, _ | 10, _ =>
      cases leap <;> simp [daysBeforeMonth] <;> omega
  · simp only [length, firstDay, hyear, hplace, hnext, hy, daysBeforeMonth]
    cases isLeapYear m.year <;>
      simp only [Bool.true_and, Bool.and_false, Bool.false_and, Bool.false_eq_true,
        Nat.reduceLeDiff, decide_true, decide_false, if_true, if_false] <;>
      omega

theorem lastUpTo_bracket (year day : Int) (place : Nat)
    (low : (ofYear year 0).firstDay ≤ day) (high : day < (ofYear year (place + 1)).firstDay) :
    (lastUpTo year day place).firstDay ≤ day ∧ day < (lastUpTo year day place).next.firstDay := by
  induction place with
  | zero => exact ⟨low, by rw [lastUpTo, next_ofYear]; exact high⟩
  | succ place ih =>
    unfold lastUpTo
    split
    · next h => exact ⟨h, by rw [next_ofYear]; exact high⟩
    · next h => exact ih (by omega)

theorem ofDay_bracket (day : Int) :
    (ofDay day).firstDay ≤ day ∧ day < (ofDay day).next.firstDay := by
  have low := daysBeforeYear_yearOfDay_le day
  have high := lt_daysBeforeYear_yearOfDay day
  apply lastUpTo_bracket
  · rw [firstDay_january]; omega
  · rw [ofYear_twelve, firstDay_january]; omega

theorem firstDay_lt_next (m : Month) : m.firstDay < m.next.firstDay := by
  have h := (length_bounds m).1
  simp only [length] at h
  omega

theorem firstDay_le_of_index_le {m n : Month} (h : m.index ≤ n.index) :
    m.firstDay ≤ n.firstDay := by
  obtain ⟨k, hk⟩ := Int.le.dest h
  induction k generalizing n with
  | zero =>
    have hm : m = n := by cases m; cases n; simpa using hk
    exact hm ▸ Int.le_refl _
  | succ k ih =>
    have hn : n = next ⟨m.index + k⟩ := by
      cases n
      simp only [next, Month.mk.injEq] at *
      omega
    have step := firstDay_lt_next ⟨m.index + k⟩
    have rest := ih (n := ⟨m.index + k⟩) (by simp only; omega) rfl
    rw [hn]
    omega

theorem eq_ofDay {m : Month} {day : Int} (low : m.firstDay ≤ day)
    (high : day < m.next.firstDay) : m = ofDay day := by
  obtain ⟨low', high'⟩ := ofDay_bracket day
  rcases Int.lt_trichotomy m.index (ofDay day).index with h | h | h
  · have hle : m.next.firstDay ≤ (ofDay day).firstDay :=
      firstDay_le_of_index_le (by simp only [next]; omega)
    omega
  · cases m
    exact congrArg Month.mk h
  · have hle : (ofDay day).next.firstDay ≤ m.firstDay :=
      firstDay_le_of_index_le (by simp only [next]; omega)
    omega

end Month

end Candlestick.Calendar
