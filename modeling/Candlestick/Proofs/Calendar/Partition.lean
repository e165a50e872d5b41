import Candlestick.Proofs.Calendar.Date
import Candlestick.Proofs.Calendar.Steady
import Mathlib

/-!
# Buckets divide the time

Under an offset that never changes, the buckets of a resolution are the pieces between the
edges of a ladder without ends (`Calendar.edge`): the multiples of a duration, or the first
midnights of the months. An instant stands on one rung (`Calendar.rung`), and the ends of
its bucket are the edges of that rung, as far as these are instants.
-/

namespace Candlestick.Calendar

variable {c : Calendar}

-- ---------------------------------------------------------------------------
-- The ladder
-- ---------------------------------------------------------------------------

/-- Where a bucket begins, whether or not at an instant. -/
def edge (c : Calendar) (r : Resolution) (k : Int) : Int :=
  match r.nanos? with
  | some d => k * d
  | none => c.monthEdge ⟨k⟩

def rung (c : Calendar) (r : Resolution) (t : Instant) : Int :=
  match r.nanos? with
  | some d => t.nanos / d
  | none => (c.monthOf t).index

theorem strictMono_edge (c : Calendar) (r : Resolution) : StrictMono (c.edge r) := by
  refine strictMono_int_of_lt_succ fun k => ?_
  unfold edge
  cases hr : r.nanos? with
  | some d =>
    have := Resolution.nanos?_pos hr
    simp only [Int.add_mul]
    omega
  | none => exact monthEdge_lt_next c ⟨k⟩

theorem edge_rung_le (steady : c.zone ≠ .host) (r : Resolution) (t : Instant) :
    c.edge r (c.rung r t) ≤ t.nanos := by
  unfold edge rung
  cases hr : r.nanos? with
  | some d => exact Int.ediv_mul_le _ (Resolution.nanos?_pos hr).ne'
  | none => exact (monthEdge_bracket steady t).1

theorem lt_edge_rung_succ (steady : c.zone ≠ .host) (r : Resolution) (t : Instant) :
    t.nanos < c.edge r (c.rung r t + 1) := by
  unfold edge rung
  cases hr : r.nanos? with
  | some d => exact Int.lt_ediv_add_one_mul_self _ (Resolution.nanos?_pos hr)
  | none => exact (monthEdge_bracket steady t).2

theorem rung_eq_iff (steady : c.zone ≠ .host) {r : Resolution} {t : Instant} {k : Int} :
    c.rung r t = k ↔ c.edge r k ≤ t.nanos ∧ t.nanos < c.edge r (k + 1) := by
  have low := edge_rung_le steady r t
  have high := lt_edge_rung_succ steady r t
  constructor
  · rintro rfl
    exact ⟨low, high⟩
  · rintro ⟨low', high'⟩
    have below := (strictMono_edge c r).lt_iff_lt.mp (low'.trans_lt high)
    have above := (strictMono_edge c r).lt_iff_lt.mp (low.trans_lt high')
    omega

theorem rung_le_rung (steady : c.zone ≠ .host) (r : Resolution) {t u : Instant}
    (h : t.nanos ≤ u.nanos) : c.rung r t ≤ c.rung r u := by
  have low := edge_rung_le steady r t
  have high := lt_edge_rung_succ steady r u
  have := (strictMono_edge c r).lt_iff_lt.mp ((low.trans h).trans_lt high)
  omega

/-- An edge is a whole second, and the ends of the range of instants are not. -/
theorem nanosPerSecond_dvd_edge (c : Calendar) (r : Resolution) (k : Int) :
    nanosPerSecond ∣ c.edge r k := by
  unfold edge
  cases hr : r.nanos? with
  | some d =>
    obtain ⟨n, -, rfl⟩ := Option.map_eq_some_iff.mp hr
    exact ⟨k * (n * 60), by simp only [nanosPerMinute]; ring⟩
  | none => exact Int.dvd_mul_left ..

-- ---------------------------------------------------------------------------
-- Bounds of buckets
-- ---------------------------------------------------------------------------

theorem bucketStart_eq (steady : c.zone ≠ .host) (r : Resolution) (t : Instant) :
    c.bucketStart r t = Instant.clamp (c.edge r (c.rung r t)) := by
  cases hr : r.nanos? with
  | some d =>
    have floor : t.nanos - t.nanos % d = t.nanos / d * d := by
      have := Int.ediv_mul_add_emod t.nanos d
      omega
    simp only [bucketStart, edge, rung, hr, floor]
  | none =>
    simp only [edge, rung, hr]
    show _ = Instant.clamp (c.monthEdge (c.monthOf t))
    rcases nanos_bucketStart_month steady hr t with start | ⟨start, early⟩
    · rw [← start, Instant.clamp_nanos]
    · rw [Instant.clamp_of_lt early]
      exact Instant.ext_nanos start

theorem rung_bucketStart (steady : c.zone ≠ .host) (r : Resolution) (t : Instant) :
    c.rung r (c.bucketStart r t) = c.rung r t := by
  have low := edge_rung_le steady r t
  have high := lt_edge_rung_succ steady r t
  have clamped := nanos_clamp_cases (c.edge r (c.rung r t))
  have := t.lower
  have := t.upper
  rw [rung_eq_iff steady, bucketStart_eq steady]
  omega

theorem bucketStart_bucketStart (steady : c.zone ≠ .host) (r : Resolution) (t : Instant) :
    c.bucketStart r (c.bucketStart r t) = c.bucketStart r t := by
  rw [bucketStart_eq steady, rung_bucketStart steady, ← bucketStart_eq steady]

theorem bucketStart_le_bucketStart (steady : c.zone ≠ .host) (r : Resolution) {t u : Instant}
    (h : t.nanos ≤ u.nanos) : (c.bucketStart r t).nanos ≤ (c.bucketStart r u).nanos := by
  rw [bucketStart_eq steady, bucketStart_eq steady]
  exact Instant.clamp_le_clamp ((strictMono_edge c r).monotone (rung_le_rung steady r h))

def StartsEarly (c : Calendar) (r : Resolution) (t : Instant) : Prop :=
  match r.nanos? with
  | some d => t.nanos - t.nanos % d < Instant.first.nanos
  | none => c.firstHourOf? (c.monthOf t).firstDay = none

def EndsLate (c : Calendar) (r : Resolution) (start : Instant) : Prop :=
  match r.nanos? with
  | some d => Instant.last.nanos < start.nanos + d
  | none => c.firstHourOf? (c.monthOf start).next.firstDay = none

theorem nanos_bucketStart (steady : c.zone ≠ .host) {r : Resolution} {t : Instant}
    (starts : ¬ c.StartsEarly r t) : (c.bucketStart r t).nanos = c.edge r (c.rung r t) := by
  have := t.upper
  cases hr : r.nanos? with
  | some d =>
    have floor := floor_bounds (Resolution.nanos?_pos hr) t.nanos
    have split := Int.ediv_mul_add_emod t.nanos d
    simp only [StartsEarly, hr, Instant.first] at starts
    simp only [bucketStart, edge, rung, hr]
    rw [Instant.nanos_clamp (by omega) (by omega)]
    omega
  | none =>
    simp only [StartsEarly, hr, firstHourOf?_firstDay steady, ofNanos?_eq_none_iff] at starts
    have start := nanos_bucketStart_month steady hr t
    simp only [edge, rung, hr]
    show _ = c.monthEdge (c.monthOf t)
    omega

/-- A bucket ends with the next edge. Months do so also where their start stops at
the first instant. -/
theorem bucketEnd_eq (steady : c.zone ≠ .host) {r : Resolution} {t : Instant}
    (starts : r.nanos? ≠ none → ¬ c.StartsEarly r t) :
    c.bucketEnd r (c.bucketStart r t) = Instant.clamp (c.edge r (c.rung r t + 1)) := by
  cases hr : r.nanos? with
  | some d =>
    have start := nanos_bucketStart steady (starts (by simp [hr]))
    simp only [edge, hr] at start
    simp only [bucketEnd, edge, hr, start, Int.add_mul, Int.one_mul]
  | none =>
    have stop := nanos_bucketEnd_month steady hr (c.bucketStart r t)
    rw [monthOf_bucketStart steady hr] at stop
    simp only [edge, rung, hr]
    show _ = Instant.clamp (c.monthEdge (c.monthOf t).next)
    rcases stop with stop | ⟨stop, late⟩
    · rw [← stop, Instant.clamp_nanos]
    · rw [Instant.clamp_of_gt late]
      exact Instant.ext_nanos stop

theorem nanos_bucketEnd (steady : c.zone ≠ .host) {r : Resolution} {t : Instant}
    (starts : r.nanos? ≠ none → ¬ c.StartsEarly r t)
    (ends : ¬ c.EndsLate r (c.bucketStart r t)) :
    (c.bucketEnd r (c.bucketStart r t)).nanos = c.edge r (c.rung r t + 1) := by
  have high := lt_edge_rung_succ steady r t
  have := t.lower
  rw [bucketEnd_eq steady starts]
  refine Instant.nanos_clamp (by omega) ?_
  cases hr : r.nanos? with
  | some d =>
    have start := nanos_bucketStart steady (starts (by simp [hr]))
    simp only [EndsLate, hr, Instant.last] at ends
    simp only [edge, hr, Int.add_mul, Int.one_mul] at start ⊢
    omega
  | none =>
    simp only [EndsLate, hr, firstHourOf?_firstDay steady, ofNanos?_eq_none_iff,
      monthOf_bucketStart steady hr] at ends
    simp only [edge, rung, hr]
    show c.monthEdge (c.monthOf t).next ≤ _
    omega

theorem startsEarly_iff (steady : c.zone ≠ .host) (r : Resolution) (t : Instant) :
    c.StartsEarly r t ↔ c.bucketStart r t = Instant.first := by
  constructor
  · cases hr : r.nanos? with
    | some d =>
      intro early
      simp only [StartsEarly, hr] at early
      simp only [bucketStart, hr, Instant.clamp_of_lt early]
    | none =>
      intro early
      simp only [StartsEarly, hr] at early
      simp only [bucketStart, hr, early, Option.getD_none]
  · intro first
    by_contra starts
    have start := nanos_bucketStart steady starts
    obtain ⟨second, whole⟩ := nanosPerSecond_dvd_edge c r (c.rung r t)
    rw [first, whole] at start
    simp only [Instant.first, nanosPerSecond] at start
    omega

theorem endsLate_iff (steady : c.zone ≠ .host) {r : Resolution} {t : Instant}
    (starts : r.nanos? ≠ none → ¬ c.StartsEarly r t) :
    c.EndsLate r (c.bucketStart r t) ↔
      c.bucketEnd r (c.bucketStart r t) = Instant.last := by
  constructor
  · cases hr : r.nanos? with
    | some d =>
      intro late
      simp only [EndsLate, hr] at late
      simp only [bucketEnd, hr, Instant.clamp_of_gt late]
    | none =>
      intro late
      simp only [EndsLate, hr] at late
      simp only [bucketEnd, hr, late, Option.getD_none]
  · intro last
    by_contra ends
    have stop := nanos_bucketEnd steady starts ends
    obtain ⟨second, whole⟩ := nanosPerSecond_dvd_edge c r (c.rung r t + 1)
    rw [last, whole] at stop
    simp only [Instant.last, nanosPerSecond] at stop
    omega

theorem mem_bucket_iff (steady : c.zone ≠ .host) {r : Resolution} {t u : Instant}
    (hu : u.nanos < Instant.last.nanos) (starts : ¬ c.StartsEarly r t) :
    ((c.bucketStart r t).nanos ≤ u.nanos ∧
      u.nanos < (c.bucketEnd r (c.bucketStart r t)).nanos) ↔
      c.bucketStart r u = c.bucketStart r t := by
  have inside : u.nanos < (c.bucketEnd r (c.bucketStart r t)).nanos ↔
      u.nanos < c.edge r (c.rung r t + 1) := by
    have clamped := nanos_clamp_cases (c.edge r (c.rung r t + 1))
    have := u.lower
    rw [bucketEnd_eq steady fun _ => starts]
    simp only [Instant.last] at hu
    omega
  rw [inside, nanos_bucketStart steady starts, ← rung_eq_iff steady]
  constructor
  · intro same
    rw [bucketStart_eq steady, same, ← bucketStart_eq steady]
  · intro same
    rw [← rung_bucketStart steady r u, same, rung_bucketStart steady]

theorem bucketStart_bucketEnd (steady : c.zone ≠ .host) {r : Resolution} {t : Instant}
    (starts : ¬ c.StartsEarly r t) (ends : ¬ c.EndsLate r (c.bucketStart r t)) :
    c.bucketStart r (c.bucketEnd r (c.bucketStart r t)) =
      c.bucketEnd r (c.bucketStart r t) := by
  have stop := nanos_bucketEnd steady (fun _ => starts) ends
  have next : c.rung r (c.bucketEnd r (c.bucketStart r t)) = c.rung r t + 1 :=
    (rung_eq_iff steady).mpr ⟨by rw [stop], by rw [stop]; exact strictMono_edge c r (by omega)⟩
  rw [bucketStart_eq steady, next, bucketEnd_eq steady fun _ => starts]

-- ---------------------------------------------------------------------------
-- Dates
-- ---------------------------------------------------------------------------

def nanosPerDay : Int := 86400 * nanosPerSecond

/-- What the clocks of a steady zone have counted since they read 1970-01-01, in
nanoseconds. -/
def localNanos (c : Calendar) (t : Instant) : Int := t.nanos + c.steadyOffset * nanosPerSecond

def dateAt (c : Calendar) (t : Instant) : Date := .onDay (c.localNanos t / nanosPerDay)

def timeAt (c : Calendar) (t : Instant) : Int := c.localNanos t % nanosPerDay

theorem dateAt_eq (steady : c.zone ≠ .host) (t : Instant) :
    c.dateAt t = .ofMonth (c.dayOf t) := by
  have day : c.localNanos t / nanosPerDay = c.dayOf t := by
    rw [dayOf_of_steady steady]
    simp only [localNanos, nanosPerDay, nanosPerSecond]
    omega
  rw [dateAt, day, Date.onDay_eq]

theorem reads_inMonth_iff (m : Month) (v : Instant) :
    (c.dateAt v = .inMonth m 0 ∧ c.timeAt v = 0) ↔ v.nanos = c.monthEdge m := by
  have first : Date.inMonth m 0 = .onDay m.firstDay := by
    rw [Date.onDay_eq, Date.ofMonth, ← Month.eq_ofDay (Int.le_refl _) m.firstDay_lt_next]
    simp
  rw [first, dateAt, timeAt]
  constructor
  · rintro ⟨date, midnight⟩
    have day := Date.onDay_injective date
    simp only [monthEdge, localNanos, nanosPerDay, nanosPerSecond] at *
    omega
  · intro start
    have day : c.localNanos v = m.firstDay * nanosPerDay := by
      simp only [start, localNanos, monthEdge, nanosPerDay, nanosPerSecond]
      omega
    rw [day]
    exact ⟨by rw [Int.mul_ediv_cancel _ (by decide)], Int.mul_emod_left ..⟩

theorem reads_firstOfMonth_iff (steady : c.zone ≠ .host) {t : Instant}
    (starts : ¬ c.StartsEarly .month1 t) (v : Instant) :
    (c.dateAt v = (c.dateAt t).firstOfMonth ∧ c.timeAt v = 0) ↔
      v = c.bucketStart .month1 t := by
  have start := nanos_bucketStart steady starts
  rw [dateAt_eq steady t]
  refine (reads_inMonth_iff (c.monthOf t) v).trans ?_
  rw [Instant.ext_nanos_iff, start]
  rfl

theorem reads_firstOfNextMonth_iff (steady : c.zone ≠ .host) {t : Instant}
    (ends : ¬ c.EndsLate .month1 (c.bucketStart .month1 t)) (v : Instant) :
    (c.dateAt v = (c.dateAt t).firstOfNextMonth ∧ c.timeAt v = 0) ↔
      v = c.bucketEnd .month1 (c.bucketStart .month1 t) := by
  have stop := nanos_bucketEnd steady (fun fixed => absurd rfl fixed) ends
  rw [dateAt_eq steady t, Date.ofMonth, Date.firstOfNextMonth_inMonth]
  refine (reads_inMonth_iff (c.monthOf t).next v).trans ?_
  rw [Instant.ext_nanos_iff, stop]
  rfl

-- ---------------------------------------------------------------------------
-- The division
-- ---------------------------------------------------------------------------

theorem dvd_nanos_bucketStart (steady : c.zone ≠ .host) {r : Resolution} {t : Instant} {d : Int}
    (hr : r.nanos? = some d) (starts : ¬ c.StartsEarly r t) : d ∣ (c.bucketStart r t).nanos := by
  rw [nanos_bucketStart steady starts]
  simp only [edge, hr]
  exact Int.dvd_mul_left ..

/-- The buckets of a resolution divide the time. An instant lies in its bucket, which
starts with itself, and buckets are in the order of their instants. A bucket that is
not cut off at the first instant is made of all instants that start with it, and the
next one starts where it ends, unless that is cut off at the last instant. Fixed
durations start at a multiple of themselves; months start and end at the instants at
which the clocks read midnight of a first day. -/
theorem buckets_partition (steady : c.zone ≠ .host) (r : Resolution) {t u s e : Instant}
    (ht : t.nanos < Instant.last.nanos) (hu : u.nanos < Instant.last.nanos)
    (start : s = c.bucketStart r t) (stop : e = c.bucketEnd r s) :
    (s.nanos ≤ t.nanos ∧ t.nanos < e.nanos) ∧
    c.bucketStart r s = s ∧
    (t.nanos ≤ u.nanos → s.nanos ≤ (c.bucketStart r u).nanos) ∧
    (c.StartsEarly r t ↔ s = .first) ∧
    (¬ c.StartsEarly r t →
      ((s.nanos ≤ u.nanos ∧ u.nanos < e.nanos) ↔ c.bucketStart r u = s) ∧
      (c.EndsLate r s ↔ e = .last) ∧
      (¬ c.EndsLate r s → c.bucketStart r e = e) ∧
      ∀ d, r.nanos? = some d → d ∣ s.nanos) ∧
    (r = .month1 →
      (¬ c.StartsEarly r t →
        ∀ v, (c.dateAt v = (c.dateAt t).firstOfMonth ∧ c.timeAt v = 0) ↔ v = s) ∧
      (¬ c.EndsLate r s →
        ∀ v, (c.dateAt v = (c.dateAt t).firstOfNextMonth ∧ c.timeAt v = 0) ↔ v = e)) := by
  subst start stop
  refine ⟨⟨bucketStart_le steady r t, lt_bucketEnd_bucketStart steady r ht⟩,
    bucketStart_bucketStart steady r t, bucketStart_le_bucketStart steady r,
    startsEarly_iff steady r t, ?_, ?_⟩
  · intro starts
    exact ⟨mem_bucket_iff steady hu starts, endsLate_iff steady fun _ => starts,
      bucketStart_bucketEnd steady starts,
      fun d hr => dvd_nanos_bucketStart steady hr starts⟩
  · rintro rfl
    exact ⟨reads_firstOfMonth_iff steady, reads_firstOfNextMonth_iff steady⟩

def ahead : Calendar := ⟨.fixed ⟨19800, by decide⟩, .fixed 0⟩

/-- At eight in the evening of 2020-02-29 in UTC these clocks read the first of March. -/
theorem buckets_partition_ahead :
    let t := Instant.clamp 1583006400000000000
    let s := Instant.clamp 1583001000000000000
    let e := Instant.clamp 1585679400000000000
    ahead.bucketStart .month1 t = s ∧ ahead.bucketStart .month1 e = e ∧
      ahead.dateAt t = ⟨2020, 3, 1⟩ ∧ ahead.dateAt s = ⟨2020, 3, 1⟩ ∧ ahead.timeAt s = 0 ∧
      ahead.dateAt e = ⟨2020, 4, 1⟩ ∧ ahead.timeAt e = 0 := by
  intro t s e
  have steady : ahead.zone ≠ .host := by decide
  have start : s = ahead.bucketStart .month1 t := by decide +kernel
  have stop : e = ahead.bucketEnd .month1 s := by decide +kernel
  have date : ahead.dateAt t = ⟨2020, 3, 1⟩ := by
    rw [dateAt_eq steady]
    decide +kernel
  have starts : ¬ ahead.StartsEarly .month1 t := by
    show ahead.firstHourOf? _ ≠ none
    decide +kernel
  have ends : ¬ ahead.EndsLate .month1 s := by
    show ahead.firstHourOf? _ ≠ none
    decide +kernel
  obtain ⟨-, -, -, -, whole, months⟩ :=
    buckets_partition steady .month1 (u := s) (by decide +kernel) (by decide +kernel) start stop
  obtain ⟨first, next⟩ := months rfl
  obtain ⟨dateStart, timeStart⟩ := (first starts s).mpr rfl
  obtain ⟨dateStop, timeStop⟩ := (next ends e).mpr rfl
  rw [date] at dateStart dateStop
  exact ⟨start.symm, (whole starts).2.2.1 ends, date, dateStart, timeStart, dateStop, timeStop⟩

end Candlestick.Calendar
