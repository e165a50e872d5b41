import Candlestick.Text.Blank
import Candlestick.Text.Integer

/-!
# Decimal digits of numbers

What readers of digits find in the digits of a number. The value of digits that stand after
others is `Nat.ofDigitChars 10`.
-/

namespace Candlestick.Text

theorem le_ofDigitChars (cs : List Char) (before : Nat) :
    before ≤ Nat.ofDigitChars 10 cs before := by
  induction cs generalizing before with
  | nil => exact Nat.le_refl before
  | cons c cs ih =>
    rw [Nat.ofDigitChars_cons]
    exact Nat.le_trans (by omega) (ih _)

theorem ofDigitChars_zeros (count : Nat) (cs : List Char) :
    Nat.ofDigitChars 10 (List.replicate count '0' ++ cs) 0 = Nat.ofDigitChars 10 cs 0 := by
  induction count with
  | zero => rfl
  | succ count ih => exact ih

theorem isDigit_of_mem_toDigits {n : Nat} : ∀ c ∈ Nat.toDigits 10 n, c.isDigit = true :=
  fun _ => Nat.isDigit_of_mem_toDigits (by decide) (by decide)

theorem digit?_of_isDigit {c : Char} (h : c.isDigit = true) :
    digit? c = some (c.toNat - '0'.toNat) := by
  simp only [Char.isDigit, Bool.and_eq_true, decide_eq_true_eq] at h
  exact if_pos h

theorem digit?_eq_some {c : Char} {digit : Nat} (h : digit? c = some digit) :
    c.isDigit = true ∧ digit = c.toNat - '0'.toNat := by
  unfold digit? at h
  split at h
  · next range =>
    simp only [Char.isDigit, Bool.and_eq_true, decide_eq_true_eq]
    exact ⟨range, (Option.some.inj h).symm⟩
  · cases h

theorem ne_of_isDigit {c d : Char} (h : c.isDigit = true) (other : d.isDigit = false) : c ≠ d := by
  rintro rfl
  exact Bool.false_ne_true (other.symm.trans h)

theorem isBlank_of_isDigit {c : Char} (h : c.isDigit = true) : isBlank c = false := by
  simp only [Char.isDigit, Bool.and_eq_true, decide_eq_true_eq, ge_iff_le,
    UInt32.le_iff_toNat_le] at h
  change 48 ≤ c.toNat ∧ c.toNat ≤ 57 at h
  simp only [isBlank, Bool.or_eq_false_iff, Bool.and_eq_false_iff, decide_eq_false_iff_not,
    beq_eq_false_iff_ne]
  omega

theorem strip_eq_self {cs : List Char} (h : ∀ c ∈ cs, isBlank c = false) : strip cs = cs := by
  have keep : ∀ l : List Char, (∀ c ∈ l, isBlank c = false) → l.dropWhile isBlank = l := by
    intro l solid
    cases l with
    | nil => rfl
    | cons c l => rw [List.dropWhile_cons_of_neg (by simp [solid c])]
  rw [strip, keep cs h, keep _ fun c mem => h c (List.mem_reverse.mp mem), List.reverse_reverse]

theorem eq_zero_of_head_toDigits {n : Nat} (h : (Nat.toDigits 10 n).head? = some '0') :
    n = 0 := by
  induction n using Nat.strongRecOn with
  | ind n ih =>
    rw [Nat.toDigits_eq_if (by decide)] at h
    split at h
    · next small =>
      have zero : ∀ d < 10, Nat.digitChar d = '0' → d = 0 := by decide
      exact zero n small (Option.some.inj h)
    · next large =>
      have nonempty : Nat.toDigits 10 (n / 10) ≠ [] := Nat.toDigits_ne_nil
      obtain ⟨c, cs, front⟩ := List.exists_cons_of_ne_nil nonempty
      have := ih (n / 10) (by omega) (by rw [front] at h ⊢; exact h)
      omega

end Candlestick.Text
