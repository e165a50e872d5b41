import Candlestick.Amount
import Mathlib.Data.List.Induction

/-!
# Exact totals

The total of several decimals is written at the largest of their scales. Where amounts are
not negative and the total of all of them fits there, every sum on the way fits too, so that
adding them one after the other is exact to the digit (`IsTotalOf.add`).
-/

namespace Candlestick.Decimal

def largestScale (ds : List Decimal) : Nat :=
  ds.foldl (fun scale d => if scale ≤ d.scale then d.scale else scale) 0

def totalAt (scale : Nat) (ds : List Decimal) : Int :=
  ds.foldl (fun total d => total + d.coefficientAt scale) 0

def exactTotal (ds : List Decimal) : Int := totalAt (largestScale ds) ds

/-- A decimal that is the total of others, to the digit. -/
def IsTotalOf (v : Decimal) (ds : List Decimal) : Prop :=
  v.scale = largestScale ds ∧ v.coefficient = exactTotal ds ∧ v.Plain

instance (v : Decimal) (ds : List Decimal) : Decidable (v.IsTotalOf ds) :=
  inferInstanceAs (Decidable (_ ∧ _ ∧ _))

theorem largestScale_append (ds : List Decimal) (d : Decimal) :
    largestScale (ds ++ [d]) = if largestScale ds ≤ d.scale then d.scale else largestScale ds := by
  rw [largestScale, List.foldl_append]
  rfl

theorem totalAt_append (scale : Nat) (ds : List Decimal) (d : Decimal) :
    totalAt scale (ds ++ [d]) = totalAt scale ds + d.coefficientAt scale := by
  rw [totalAt, List.foldl_append]
  rfl

theorem largestScale_le_append (ds : List Decimal) (d : Decimal) :
    largestScale ds ≤ largestScale (ds ++ [d]) := by
  rw [largestScale_append]
  split <;> omega

theorem scale_le_largestScale_append (ds : List Decimal) (d : Decimal) :
    d.scale ≤ largestScale (ds ++ [d]) := by
  rw [largestScale_append]
  split <;> omega

theorem scale_le_largestScale {ds : List Decimal} {d : Decimal} (h : d ∈ ds) :
    d.scale ≤ largestScale ds := by
  induction ds using List.reverseRecOn with
  | nil => simp at h
  | append_singleton ds e ih =>
    rcases List.mem_append.mp h with h | h
    · exact Nat.le_trans (ih h) (largestScale_le_append ds e)
    · rw [List.mem_singleton] at h
      exact h ▸ scale_le_largestScale_append ds d

theorem largestScale_le (ds : List Decimal) : largestScale ds ≤ maxScale := by
  induction ds using List.reverseRecOn with
  | nil => exact Nat.zero_le _
  | append_singleton ds d ih =>
    rw [largestScale_append]
    split
    · exact d.scale_le
    · exact ih

theorem coefficientAt_of_le {d : Decimal} {m n : Nat} (hd : d.scale ≤ m) (hm : m ≤ n) :
    d.coefficientAt n = d.coefficientAt m * pow10 (n - m) := by
  have hn : n - d.scale = (m - d.scale) + (n - m) := by omega
  rw [coefficientAt, coefficientAt, hn, pow10_add, Int.natCast_mul, Int.mul_assoc]

theorem totalAt_of_le {ds : List Decimal} {m n : Nat} (hd : ∀ d ∈ ds, d.scale ≤ m) (hm : m ≤ n) :
    totalAt n ds = totalAt m ds * pow10 (n - m) := by
  induction ds using List.reverseRecOn with
  | nil => simp [totalAt]
  | append_singleton ds d ih =>
    rw [totalAt_append, totalAt_append, ih fun e he => hd e (List.mem_append_left _ he),
      coefficientAt_of_le (hd d (by simp)) hm, Int.add_mul]

theorem coefficientAt_nonneg {d : Decimal} (h : 0 ≤ d.coefficient) (scale : Nat) :
    0 ≤ d.coefficientAt scale :=
  Int.mul_nonneg h (Int.natCast_nonneg _)

theorem add?_nonneg {a b d : Decimal} (ha : 0 ≤ a.coefficient) (hb : 0 ≤ b.coefficient)
    (h : a.add? b = some d) : 0 ≤ d.coefficient := by
  unfold add? at h
  split at h
  · cases h
    exact hb
  · split at h
    · cases h
      exact ha
    · obtain ⟨dropped, -, rounded⟩ := List.exists_of_findSome?_eq_some h
      have sum := Int.add_nonneg (coefficientAt_nonneg ha (commonScale a b))
        (coefficientAt_nonneg hb (commonScale a b))
      rw [(ofParts?_eq_some_iff.mp rounded).1]
      exact Int.mul_nonneg (Int.sign_nonneg_iff.mpr sum) (Int.natCast_nonneg _)

theorem totalAt_nonneg {ds : List Decimal} (h : ∀ d ∈ ds, 0 ≤ d.coefficient) (scale : Nat) :
    0 ≤ totalAt scale ds := by
  induction ds using List.reverseRecOn with
  | nil => simp [totalAt]
  | append_singleton ds d ih =>
    have hds := ih fun e he => h e (List.mem_append_left _ he)
    have hd := coefficientAt_nonneg (h d (by simp)) scale
    rw [totalAt_append]
    omega

theorem exactTotal_le_append {ds : List Decimal} (es : List Decimal)
    (h : ∀ d ∈ ds ++ es, 0 ≤ d.coefficient) : exactTotal ds ≤ exactTotal (ds ++ es) := by
  induction es using List.reverseRecOn with
  | nil => simp
  | append_singleton es e ih =>
    rw [← List.append_assoc] at h ⊢
    have rest := ih fun d hd => h d (List.mem_append_left _ hd)
    have he := coefficientAt_nonneg (h e (by simp)) (largestScale (ds ++ es ++ [e]))
    have hp : (1 : Int) ≤ pow10 (largestScale (ds ++ es ++ [e]) - largestScale (ds ++ es)) :=
      Int.ofNat_le.mpr (pow10_pos _)
    have hnn := totalAt_nonneg (fun d hd => h d (List.mem_append_left _ hd))
      (largestScale (ds ++ es))
    have scaled := totalAt_of_le (fun d hd => scale_le_largestScale hd)
      (largestScale_le_append (ds ++ es) e)
    calc exactTotal ds ≤ exactTotal (ds ++ es) := rest
      _ ≤ totalAt (largestScale (ds ++ es ++ [e])) (ds ++ es) := by
        rw [scaled, exactTotal]
        simpa only [Int.mul_one] using Int.mul_le_mul_of_nonneg_left hp hnn
      _ ≤ exactTotal (ds ++ es ++ [e]) := by
        rw [exactTotal, totalAt_append]
        omega

theorem ofParts?_of_lt {coefficient : Int} {scale : Nat}
    (hc : coefficient.natAbs < coefficientLimit) (hs : scale ≤ maxScale) :
    ∃ d, ofParts? coefficient scale = some d := by
  simp [ofParts?, ofSigned?, hc, hs]

theorem isTotalOf_singleton {d : Decimal} (h : 0 < d.coefficient) : d.IsTotalOf [d] := by
  refine ⟨by simp [largestScale], ?_, plain_of_ne_zero (by omega)⟩
  simp [exactTotal, totalAt, largestScale, coefficientAt, pow10_zero]

theorem exactTotal_pos {ds : List Decimal} (hne : ds ≠ []) (h : ∀ d ∈ ds, 0 < d.coefficient) :
    0 < exactTotal ds := by
  cases ds with
  | nil => exact absurd rfl hne
  | cons d rest =>
    have first : exactTotal [d] = d.coefficient := (isTotalOf_singleton (h d (by simp))).2.1.symm
    have grown : exactTotal [d] ≤ exactTotal ([d] ++ rest) :=
      exactTotal_le_append rest fun e he => Int.le_of_lt (h e (by simpa using he))
    have hd := h d (by simp)
    simp only [List.singleton_append] at grown
    omega

theorem IsTotalOf.isZero_eq {v : Decimal} {ds : List Decimal} (hv : v.IsTotalOf ds)
    (hpos : ∀ d ∈ ds, 0 < d.coefficient) : v.isZero = ds.isEmpty := by
  cases ds with
  | nil => exact isZero_iff.mpr hv.2.1
  | cons d rest =>
    have := exactTotal_pos (by simp) hpos
    exact Bool.eq_false_iff.mpr fun h => by rw [isZero_iff, hv.2.1] at h; omega

theorem IsTotalOf.exactTotal_append {v d : Decimal} {ds : List Decimal} (hv : v.IsTotalOf ds) :
    exactTotal (ds ++ [d]) =
      v.coefficientAt (largestScale (ds ++ [d])) + d.coefficientAt (largestScale (ds ++ [d])) := by
  rw [exactTotal, totalAt_append,
    totalAt_of_le (fun e he => scale_le_largestScale he) (largestScale_le_append ds d)]
  simp only [coefficientAt, hv.1, hv.2.1, exactTotal]

theorem IsTotalOf.add {v d : Decimal} {ds : List Decimal} (hv : v.IsTotalOf ds)
    (hpos : ∀ e ∈ ds ++ [d], 0 < e.coefficient)
    (fits : exactTotal (ds ++ [d]) < coefficientLimit) :
    ∃ w, v.add? d = some w ∧ w.IsTotalOf (ds ++ [d]) := by
  have hv0 := hv.isZero_eq fun e he => hpos e (List.mem_append_left _ he)
  cases ds with
  | nil => exact ⟨d, add?_zero_left hv0, isTotalOf_singleton (hpos d (by simp))⟩
  | cons first rest =>
    have hd0 : d.isZero = false := by
      have := hpos d (by simp)
      exact Bool.eq_false_iff.mpr fun h => by rw [isZero_iff] at h; omega
    have hcommon : commonScale v d = largestScale (first :: rest ++ [d]) := by
      rw [commonScale, largestScale_append, hv.1]
    have hnn := exactTotal_pos (by simp) hpos
    have small : (exactTotal (first :: rest ++ [d])).natAbs < coefficientLimit := by omega
    obtain ⟨w, hw⟩ := ofParts?_of_lt small (largestScale_le (first :: rest ++ [d]))
    refine ⟨w, ?_, ?_⟩
    · rw [hv.exactTotal_append] at hw
      simp only [List.isEmpty_cons] at hv0
      simp only [add?, hv0, hd0, hcommon, Bool.false_eq_true, if_false]
      exact fit?_of_fits hw
    · obtain ⟨hc, hs, hp⟩ := ofParts?_eq_some_iff.mp hw
      exact ⟨hs, hc, hp⟩

theorem IsTotalOf.not_sameValue {v w d : Decimal} {ds : List Decimal} (hv : v.IsTotalOf ds)
    (hw : w.IsTotalOf (ds ++ [d])) (hd : 0 < d.coefficient) : ¬ w.SameValue v := by
  intro same
  have hle := largestScale_le_append ds d
  have hpow : pow10 w.scale = pow10 (w.scale - v.scale) * pow10 v.scale := by
    rw [← pow10_add]
    congr 1
    rw [hw.1, hv.1]
    omega
  have hcoefficient : w.coefficient = v.coefficientAt w.scale := by
    apply Int.eq_of_mul_eq_mul_right (pow10_ne_zero v.scale)
    rw [same, hpow, coefficientAt, Int.natCast_mul, Int.mul_assoc]
  have hsum := hv.exactTotal_append (d := d)
  rw [← hw.1, ← hw.2.1] at hsum
  have hlast : 0 < d.coefficientAt w.scale :=
    Int.mul_pos hd (Int.natCast_pos.mpr (pow10_pos _))
  omega

end Candlestick.Decimal
