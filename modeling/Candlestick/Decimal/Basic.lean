/-!
# Exact decimals

A decimal is a sign, a magnitude of at most 96 bits and at most 28 fractional digits. The
number of fractional digits is part of the value, so `1.50` and `1.5` are different decimals
with the same numeric value. So is the sign of a zero: `-0.0` is written with its sign and
has the value zero.
-/

namespace Candlestick

/-- `2 ^ 96`: magnitudes lie below it, and coefficients strictly between its
negative and itself. -/
def coefficientLimit : Nat := 79228162514264337593543950336

theorem one_lt_coefficientLimit : 1 < coefficientLimit := by decide

def pow10 (n : Nat) : Nat := Nat.pow 10 n

theorem pow10_pos (n : Nat) : 0 < pow10 n := Nat.pow_pos (by decide)

theorem pow10_ne_zero (n : Nat) : (pow10 n : Int) ≠ 0 :=
  Int.ofNat_ne_zero.mpr (Nat.ne_of_gt (pow10_pos n))

theorem pow10_zero : pow10 0 = 1 := rfl

theorem pow10_succ (n : Nat) : pow10 (n + 1) = pow10 n * 10 := rfl

theorem pow10_add (m n : Nat) : pow10 (m + n) = pow10 m * pow10 n := Nat.pow_add 10 m n

def maxScale : Nat := 28

/-- The number `magnitude / 10 ^ scale` with a sign, written with `scale`
fractional digits. -/
structure Decimal where
  /-- Whether it is written with a minus sign. -/
  negative : Bool
  magnitude : Nat
  scale : Nat
  magnitude_lt : magnitude < coefficientLimit
  scale_le : scale ≤ maxScale
  deriving DecidableEq

namespace Decimal

@[ext] theorem ext_fields {a b : Decimal} (hn : a.negative = b.negative)
    (hm : a.magnitude = b.magnitude) (hs : a.scale = b.scale) : a = b := by
  cases a; cases b; cases hn; cases hm; cases hs; rfl

/-- The magnitude with its sign: the decimal's value times `10 ^ scale`. -/
def coefficient (d : Decimal) : Int :=
  if d.negative then -(d.magnitude : Int) else d.magnitude

theorem natAbs_coefficient (d : Decimal) : d.coefficient.natAbs = d.magnitude := by
  unfold coefficient
  split
  · rw [Int.natAbs_neg, Int.natAbs_natCast]
  · rw [Int.natAbs_natCast]

theorem coefficient_lt (d : Decimal) : d.coefficient.natAbs < coefficientLimit :=
  d.natAbs_coefficient ▸ d.magnitude_lt

theorem coefficient_eq_zero_iff {d : Decimal} : d.coefficient = 0 ↔ d.magnitude = 0 := by
  rw [← Int.natAbs_eq_zero, natAbs_coefficient]

/-- Whether a minus sign is written only before what lies below zero: true of
all decimals but a zero with a sign. -/
def Plain (d : Decimal) : Prop := d.negative = decide (d.coefficient < 0)

instance (d : Decimal) : Decidable d.Plain := inferInstanceAs (Decidable (_ = _))

theorem plain_of_ne_zero {d : Decimal} (h : d.coefficient ≠ 0) : d.Plain := by
  unfold Plain
  cases hn : d.negative
  · simp [coefficient, hn]
  · have h0 : d.magnitude ≠ 0 := fun hm => h (coefficient_eq_zero_iff.mpr hm)
    simp only [coefficient, hn, if_true]
    exact (decide_eq_true (by omega)).symm

/-- The decimal of a sign, a magnitude and a scale, where they are in range. -/
def ofSigned? (negative : Bool) (magnitude scale : Nat) : Option Decimal :=
  if h : magnitude < coefficientLimit ∧ scale ≤ maxScale then
    some ⟨negative, magnitude, scale, h.1, h.2⟩
  else none

theorem ofSigned?_eq_some_iff {negative : Bool} {magnitude scale : Nat} {d : Decimal} :
    ofSigned? negative magnitude scale = some d ↔
      d.negative = negative ∧ d.magnitude = magnitude ∧ d.scale = scale := by
  unfold ofSigned?
  split
  · constructor
    · intro h; cases h; exact ⟨rfl, rfl, rfl⟩
    · intro h; exact congrArg some (ext_fields h.1.symm h.2.1.symm h.2.2.symm)
  · next hn =>
    constructor
    · intro h; cases h
    · intro h
      exact absurd ⟨h.2.1 ▸ d.magnitude_lt, h.2.2 ▸ d.scale_le⟩ hn

def ofParts? (coefficient : Int) (scale : Nat) : Option Decimal :=
  ofSigned? (decide (coefficient < 0)) coefficient.natAbs scale

theorem ofParts?_eq_some_iff {coefficient : Int} {scale : Nat} {d : Decimal} :
    ofParts? coefficient scale = some d ↔
      d.coefficient = coefficient ∧ d.scale = scale ∧ d.Plain := by
  rw [ofParts?, ofSigned?_eq_some_iff]
  constructor
  · intro ⟨hn, hm, hs⟩
    have hc : d.coefficient = coefficient := by
      unfold Decimal.coefficient
      rw [hn, hm]
      by_cases h : coefficient < 0
      · rw [if_pos (decide_eq_true h)]; omega
      · rw [if_neg (by simpa using h)]; omega
    exact ⟨hc, hs, show d.negative = _ from hc ▸ hn⟩
  · intro ⟨hc, hs, hp⟩
    exact ⟨hc ▸ hp, hc ▸ d.natAbs_coefficient.symm, hs⟩

theorem ofParts?_self {d : Decimal} (h : d.Plain) : ofParts? d.coefficient d.scale = some d :=
  ofParts?_eq_some_iff.mpr ⟨rfl, rfl, h⟩

def zero : Decimal := ⟨false, 0, 0, by decide, by decide⟩

instance : Inhabited Decimal := ⟨zero⟩

def isZero (d : Decimal) : Bool := d.magnitude == 0

def isNegative (d : Decimal) : Bool := d.coefficient < 0

theorem isZero_iff {d : Decimal} : d.isZero = true ↔ d.coefficient = 0 := by
  rw [coefficient_eq_zero_iff]
  simp [isZero]

/-- Equality of the numeric values: neither fractional zeros at the end nor the
sign of a zero count. -/
def SameValue (a b : Decimal) : Prop :=
  a.coefficient * pow10 b.scale = b.coefficient * pow10 a.scale

instance (a b : Decimal) : Decidable (a.SameValue b) :=
  inferInstanceAs (Decidable (_ = _))

theorem SameValue.refl (a : Decimal) : a.SameValue a := rfl

theorem SameValue.symm {a b : Decimal} (h : a.SameValue b) : b.SameValue a := Eq.symm h

theorem SameValue.trans {a b c : Decimal} (hab : a.SameValue b) (hbc : b.SameValue c) :
    a.SameValue c := by
  apply Int.eq_of_mul_eq_mul_right (pow10_ne_zero b.scale)
  unfold SameValue at *
  rw [Int.mul_right_comm, hab, Int.mul_right_comm, hbc, Int.mul_right_comm]

end Decimal

end Candlestick
