import Candlestick.Calendar.Month

/-!
# Dates

Dates are counted day by day: 1970-01-01 is day 0, and any other date is found by going from
one to the next or to the one before, with nothing but the lengths of the months
(`Date.onDay`). The months that are computed from a day number are those of its date
(`Date.onDay_eq`).
-/

namespace Candlestick.Calendar

structure Date where
  year : Int
  month : Nat
  day : Nat
  deriving DecidableEq

namespace Date

def daysIn (year : Int) : Nat → Nat
  | 2 => if isLeapYear year then 29 else 28
  | 4 => 30
  | 6 => 30
  | 9 => 30
  | 11 => 30
  | _ => 31

def epoch : Date := ⟨1970, 1, 1⟩

def firstOfMonth (d : Date) : Date := { d with day := 1 }

def firstOfNextMonth (d : Date) : Date :=
  if d.month < 12 then ⟨d.year, d.month + 1, 1⟩ else ⟨d.year + 1, 1, 1⟩

def tomorrow (d : Date) : Date :=
  if d.day < daysIn d.year d.month then { d with day := d.day + 1 } else d.firstOfNextMonth

def yesterday (d : Date) : Date :=
  if 1 < d.day then { d with day := d.day - 1 }
  else if 1 < d.month then ⟨d.year, d.month - 1, daysIn d.year (d.month - 1)⟩
  else ⟨d.year - 1, 12, 31⟩

def onDay : Int → Date
  | .ofNat n => Nat.repeat tomorrow n epoch
  | .negSucc n => Nat.repeat yesterday (n + 1) epoch

/-- A day of a month, counted from 0. -/
def inMonth (m : Month) (k : Nat) : Date := ⟨m.year, m.place + 1, k + 1⟩

end Date

namespace Month

theorem place_lt (m : Month) : m.place < 12 := by
  simp only [place]
  omega

theorem eq_of_year_place {m n : Month} (year : m.year = n.year) (place : m.place = n.place) :
    m = n := by
  cases m
  cases n
  simp only [Month.year, Month.place, Month.mk.injEq] at *
  omega

theorem length_eq_daysIn (m : Month) : m.length = Date.daysIn m.year (m.place + 1) := by
  rcases year_next_or m with ⟨hyear, hplace⟩ | ⟨hyear, hplace, hnext⟩
  · have inside : m.place < 11 := by
      have := m.next.place_lt
      omega
    simp only [length, firstDay, hyear, hplace]
    generalize m.place = p at *
    obtain rfl | rfl | rfl | rfl | rfl | rfl | rfl | rfl | rfl | rfl | rfl :
        p = 0 ∨ p = 1 ∨ p = 2 ∨ p = 3 ∨ p = 4 ∨ p = 5 ∨ p = 6 ∨ p = 7 ∨ p = 8 ∨ p = 9 ∨ p = 10 := by
      omega
    all_goals
      cases leap : isLeapYear m.year <;> simp [daysBeforeMonth, Date.daysIn, leap] <;> omega
  · have longer := daysBeforeYear_succ m.year
    have january : decide (2 ≤ 0) = false := rfl
    have december : decide (2 ≤ 11) = true := rfl
    simp only [length, firstDay, hyear, hplace, hnext, longer, daysBeforeMonth, Date.daysIn,
      january, december, Bool.and_false, Bool.and_true, Bool.false_eq_true, if_false]
    omega

end Month

namespace Date

theorem firstOfNextMonth_inMonth (m : Month) (k : Nat) :
    (inMonth m k).firstOfNextMonth = inMonth m.next 0 := by
  have := m.place_lt
  rcases m.year_next_or with ⟨hyear, hplace⟩ | ⟨hyear, hplace, hnext⟩
  · have := m.next.place_lt
    rw [firstOfNextMonth, if_pos (by simp only [inMonth]; omega)]
    simp only [inMonth, hyear, hplace]
  · rw [firstOfNextMonth, if_neg (by simp only [inMonth]; omega)]
    simp only [inMonth, hyear, hnext]

theorem yesterday_inMonth_next (m : Month) :
    (inMonth m.next 0).yesterday = inMonth m (m.length - 1).toNat := by
  have long := (Month.length_bounds m).1
  have days := m.length_eq_daysIn
  rcases m.year_next_or with ⟨hyear, hplace⟩ | ⟨hyear, hplace, hnext⟩
  · simp only [yesterday, inMonth, hyear, hplace, days]
    simp
    omega
  · simp only [yesterday, inMonth, hyear, hplace, hnext, days]
    simp [daysIn]

def ofMonth (day : Int) : Date := inMonth (Month.ofDay day) (day - (Month.ofDay day).firstDay).toNat

theorem ofMonth_succ (day : Int) : ofMonth (day + 1) = (ofMonth day).tomorrow := by
  obtain ⟨low, high⟩ := Month.ofDay_bracket day
  have days := (Month.ofDay day).length_eq_daysIn
  simp only [Month.length] at days
  by_cases last : day + 1 < (Month.ofDay day).next.firstDay
  · have same : Month.ofDay day = Month.ofDay (day + 1) := Month.eq_ofDay (by omega) last
    rw [ofMonth, ← same, tomorrow, if_pos (by simp only [ofMonth, inMonth]; omega)]
    simp only [ofMonth, inMonth, Date.mk.injEq, true_and]
    omega
  · have longer := Month.firstDay_lt_next (Month.ofDay day).next
    have next : (Month.ofDay day).next = Month.ofDay (day + 1) :=
      Month.eq_ofDay (by omega) (by omega)
    have start : (day + 1 - (Month.ofDay day).next.firstDay).toNat = 0 := by omega
    rw [tomorrow, if_neg (by simp only [ofMonth, inMonth]; omega), ofMonth, ← next, start]
    exact (firstOfNextMonth_inMonth _ _).symm

theorem ofMonth_pred (day : Int) : ofMonth (day - 1) = (ofMonth day).yesterday := by
  obtain ⟨low, high⟩ := Month.ofDay_bracket day
  by_cases first : (Month.ofDay day).firstDay < day
  · have same : Month.ofDay day = Month.ofDay (day - 1) :=
      Month.eq_ofDay (by omega) (by omega)
    rw [ofMonth, ← same, yesterday, if_pos (by simp only [ofMonth, inMonth]; omega)]
    simp only [ofMonth, inMonth, Date.mk.injEq, true_and]
    omega
  · -- the first day of a month follows the last one of the month before
    obtain ⟨m, hm⟩ : ∃ m : Month, m.next = Month.ofDay day :=
      ⟨⟨(Month.ofDay day).index - 1⟩, by simp [Month.next]⟩
    have long := (Month.length_bounds m).1
    simp only [Month.length] at long
    rw [← hm] at low high first
    have same : m = Month.ofDay (day - 1) := Month.eq_ofDay (by omega) (by omega)
    have start : (day - m.next.firstDay).toNat = 0 := by omega
    rw [ofMonth, ← same, ofMonth, ← hm, start, yesterday_inMonth_next, Month.length]
    congr 1
    omega

/-- The month that is computed from the number of a day is that of its date. -/
theorem onDay_eq (day : Int) : onDay day = ofMonth day := by
  cases day with
  | ofNat n =>
    induction n with
    | zero => decide
    | succ n ih =>
      rw [onDay, Nat.repeat]
      exact (congrArg tomorrow ih).trans (ofMonth_succ _).symm
  | negSucc n =>
    induction n with
    | zero => decide
    | succ n ih =>
      rw [onDay, Nat.repeat]
      exact (congrArg yesterday ih).trans (ofMonth_pred _).symm

theorem onDay_injective {a b : Int} (h : onDay a = onDay b) : a = b := by
  obtain ⟨low, -⟩ := Month.ofDay_bracket a
  obtain ⟨low', -⟩ := Month.ofDay_bracket b
  simp only [onDay_eq, ofMonth, inMonth, Date.mk.injEq] at h
  obtain ⟨year, place, day⟩ := h
  have same : Month.ofDay a = Month.ofDay b :=
    Month.eq_of_year_place year (by omega)
  rw [same] at low day
  omega

end Date

end Candlestick.Calendar
