/-!
# Instants

Points in time as nanoseconds since 1970-01-01T00:00:00Z, in the range of a signed 64-bit
word. Three ways lead from an integer to an instant: refusing what is out of range, stopping
at the nearer end, and wrapping around.
-/

namespace Candlestick

structure Instant where
  nanos : Int
  lower : -9223372036854775808 ≤ nanos
  upper : nanos ≤ 9223372036854775807
  deriving DecidableEq

namespace Instant

@[ext] theorem ext_nanos {a b : Instant} (h : a.nanos = b.nanos) : a = b := by
  cases a; cases b; cases h; rfl

def first : Instant := ⟨-9223372036854775808, by decide, by decide⟩

def last : Instant := ⟨9223372036854775807, by decide, by decide⟩

def epoch : Instant := ⟨0, by decide, by decide⟩

instance : Inhabited Instant := ⟨epoch⟩

def ofNanos? (n : Int) : Option Instant :=
  if h : -9223372036854775808 ≤ n ∧ n ≤ 9223372036854775807 then some ⟨n, h.1, h.2⟩ else none

/-- The instant of a count, or the end of the range that is nearer to it. -/
def clamp (n : Int) : Instant :=
  if low : n < -9223372036854775808 then first
  else if high : 9223372036854775807 < n then last
  else ⟨n, by omega, by omega⟩

def wrap (n : Int) : Instant :=
  ⟨(n + 9223372036854775808) % 18446744073709551616 - 9223372036854775808,
    by omega, by omega⟩

theorem ofNanos?_eq_some_iff {n : Int} {t : Instant} : ofNanos? n = some t ↔ t.nanos = n := by
  unfold ofNanos?
  split
  · constructor
    · intro h; cases h; rfl
    · intro h; exact congrArg some (ext_nanos h.symm)
  · next hn =>
    constructor
    · intro h; cases h
    · intro h; exact absurd ⟨h ▸ t.lower, h ▸ t.upper⟩ hn

theorem ofNanos?_nanos (t : Instant) : ofNanos? t.nanos = some t :=
  ofNanos?_eq_some_iff.mpr rfl

theorem clamp_of_lt {n : Int} (h : n < -9223372036854775808) : clamp n = first := by
  simp [clamp, h]

theorem clamp_of_gt {n : Int} (h : 9223372036854775807 < n) : clamp n = last := by
  have : ¬ n < -9223372036854775808 := by omega
  simp [clamp, h, this]

theorem nanos_clamp {n : Int} (low : -9223372036854775808 ≤ n) (high : n ≤ 9223372036854775807) :
    (clamp n).nanos = n := by
  have h1 : ¬ n < -9223372036854775808 := by omega
  have h2 : ¬ 9223372036854775807 < n := by omega
  simp [clamp, h1, h2]

theorem clamp_nanos (t : Instant) : clamp t.nanos = t :=
  ext_nanos (nanos_clamp t.lower t.upper)

theorem clamp_le_clamp {m n : Int} (h : m ≤ n) : (clamp m).nanos ≤ (clamp n).nanos := by
  unfold clamp first last
  split <;> split <;> (try split) <;> (try split) <;> simp <;> omega

theorem nanos_wrap {n : Int} (low : -9223372036854775808 ≤ n) (high : n ≤ 9223372036854775807) :
    (wrap n).nanos = n := by
  simp only [wrap]
  omega

end Instant

def nanosPerSecond : Int := 1000000000

def nanosPerMinute : Int := 60 * nanosPerSecond

end Candlestick
