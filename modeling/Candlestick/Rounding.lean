/-!
# Rounding natural numbers

Quotients rounded to the nearest integer, with two ways to settle a tie, and numbers rounded
to so many significant binary digits. Each result is within half a unit of the exact value.
-/

namespace Candlestick

/-- The quotient `n / d` rounded to the nearest integer, a tie to the even
one. -/
def divHalfEven (n d : Nat) : Nat :=
  let q := n / d
  let r := n % d
  if 2 * r < d then q
  else if d < 2 * r then q + 1
  else if q % 2 = 0 then q else q + 1

/-- The quotient `n / d` rounded to the nearest integer, a tie upwards. -/
def divHalfUp (n d : Nat) : Nat :=
  if 2 * (n % d) < d then n / d else n / d + 1

/-- The nearest number of at most `width` significant binary digits, a tie to
the one with an even last digit. -/
def toWidth (width n : Nat) : Nat :=
  let unit := Nat.pow 2 (n.log2 + 1 - width)
  divHalfEven n unit * unit

theorem divHalfEven_one (n : Nat) : divHalfEven n 1 = n := by
  simp [divHalfEven, Nat.mod_one]

theorem divHalfEven_near (n : Nat) {d : Nat} (hd : 0 < d) :
    2 * n ≤ 2 * (divHalfEven n d * d) + d ∧ 2 * (divHalfEven n d * d) ≤ 2 * n + d := by
  have hn : n / d * d + n % d = n := Nat.div_add_mod' n d
  have hr : n % d < d := Nat.mod_lt n hd
  have hs : (n / d + 1) * d = n / d * d + d := Nat.succ_mul _ _
  unfold divHalfEven
  dsimp only
  split
  · omega
  · split
    · rw [hs]; omega
    · split
      · omega
      · rw [hs]; omega

end Candlestick
