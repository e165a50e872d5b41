import Candlestick.Decimal.Printer
import Candlestick.Decimal.Reader
import Candlestick.Proofs.Text.Digits

/-!
# Decimals read back

Both ways of reading find in the text of a plain decimal the decimal itself: the digits fit
at every point, so that neither rounding nor a refusal comes in.
-/

namespace Candlestick.Decimal

namespace Reading

def withDigit (r : Reading) (c : Char) : Reading :=
  { r with
    started := true
    coefficient := r.coefficient * 10 + (c.toNat - '0'.toNat)
    scale := if r.pastPoint then r.scale + 1 else r.scale
    separated := false }

def withDigits (r : Reading) (cs : List Char) : Reading := cs.foldl withDigit r

theorem withDigits_cons (r : Reading) (c : Char) (cs : List Char) :
    r.withDigits (c :: cs) = (r.withDigit c).withDigits cs := rfl

@[simp] theorem withDigits_coefficient (r : Reading) (cs : List Char) :
    (r.withDigits cs).coefficient = Nat.ofDigitChars 10 cs r.coefficient := by
  induction cs generalizing r with
  | nil => rfl
  | cons c cs ih =>
    rw [withDigits_cons, ih, Nat.ofDigitChars_cons, Nat.mul_comm 10 r.coefficient]
    rfl

@[simp] theorem withDigits_negative (r : Reading) (cs : List Char) :
    (r.withDigits cs).negative = r.negative := by
  induction cs generalizing r with
  | nil => rfl
  | cons c cs ih => exact ih _

@[simp] theorem withDigits_pastPoint (r : Reading) (cs : List Char) :
    (r.withDigits cs).pastPoint = r.pastPoint := by
  induction cs generalizing r with
  | nil => rfl
  | cons c cs ih => exact ih _

theorem withDigits_scale (r : Reading) (cs : List Char) :
    (r.withDigits cs).scale = if r.pastPoint then r.scale + cs.length else r.scale := by
  induction cs generalizing r with
  | nil => simp [withDigits]
  | cons c cs ih =>
    rw [withDigits_cons, ih]
    cases h : r.pastPoint <;> simp [withDigit, h]
    omega

theorem withDigits_started {r : Reading} {cs : List Char} (h : r.started = true ∨ cs ≠ []) :
    (r.withDigits cs).started = true := by
  induction cs generalizing r with
  | nil => exact h.resolve_right fun absent => absent rfl
  | cons c cs ih => exact ih (.inl rfl)

theorem push_eq {r : Reading} {c : Char}
    (fits : (r.withDigit c).coefficient < coefficientLimit) :
    r.push (c.toNat - '0'.toNat) = some (r.withDigit c) := if_pos fits

theorem eq_withDigit {r after : Reading} {c : Char}
    (pushed : r.push (c.toNat - '0'.toNat) = some after) : r.withDigit c = after := by
  by_cases fits : (r.withDigit c).coefficient < coefficientLimit
  · rw [push_eq fits] at pushed
    exact Option.some.inj pushed
  · have refused : r.push (c.toNat - '0'.toNat) = none := if_neg fits
    rw [refused] at pushed
    cases pushed

end Reading

/-- Digits are all read where they fit into a coefficient and, after the point, into the
scale. -/
theorem readFrom_digits (excess : Excess) {r : Reading} {cs : List Char} (rest : List Char)
    (digit : ∀ c ∈ cs, c.isDigit = true)
    (fits : Nat.ofDigitChars 10 cs r.coefficient < coefficientLimit)
    (room : r.pastPoint = true → r.scale + cs.length ≤ maxScale) :
    readFrom excess r (cs ++ rest) = readFrom excess (r.withDigits cs) rest := by
  induction cs generalizing r with
  | nil => rfl
  | cons c cs ih =>
    have first : c.isDigit = true := digit c List.mem_cons_self
    rw [← Reading.withDigits_coefficient, Reading.withDigits_cons,
      Reading.withDigits_coefficient] at fits
    have pushed : r.push (c.toNat - '0'.toNat) = some (r.withDigit c) :=
      Reading.push_eq (Nat.lt_of_le_of_lt (Text.le_ofDigitChars cs _) fits)
    have going : excess.endsAt r c = false := by
      cases h : r.pastPoint with
      | false => simp [Excess.endsAt, Reading.full, h]
      | true =>
        have := room h
        have short : ¬ maxScale ≤ r.scale := by rw [List.length_cons] at this; omega
        simp [Excess.endsAt, Reading.full, short]
    have next := ih (r := r.withDigit c) (fun d mem => digit d (List.mem_cons_of_mem c mem)) fits
      (fun past => by
        have past : r.pastPoint = true := past
        have := room past
        simp only [Reading.withDigit, past, if_true, List.length_cons] at this ⊢
        omega)
    rw [List.cons_append, readFrom, going, Text.digit?_of_isDigit first]
    simp only [Bool.false_eq_true, if_false, pushed]
    exact next

theorem readFrom_point (excess : Excess) {r : Reading} (rest : List Char)
    (before : r.pastPoint = false) :
    readFrom excess r ('.' :: rest) =
      readFrom excess { r with pastPoint := true, separated := false } rest := by
  have going : excess.endsAt r '.' = false := by simp [Excess.endsAt, Reading.full, before]
  have none : Text.digit? '.' = none := by decide
  rw [readFrom, going, none]
  simp [before]

-- ---------------------------------------------------------------------------
-- Numerals
-- ---------------------------------------------------------------------------

structure Numeral where
  whole : List Char
  /-- The digits after the point, where there is one. -/
  fraction : Option (List Char)
  isDigit : ∀ c ∈ whole ++ fraction.getD [], c.isDigit = true

namespace Numeral

def digits (n : Numeral) : List Char := n.whole ++ n.fraction.getD []

def text (n : Numeral) : List Char := n.whole ++ n.fraction.elim [] ('.' :: ·)

def magnitude (n : Numeral) : Nat := Nat.ofDigitChars 10 n.digits 0

def scale (n : Numeral) : Nat := (n.fraction.getD []).length

end Numeral

theorem readFrom_numeral (excess : Excess) (negative : Bool) {n : Numeral} (some : n.digits ≠ [])
    (fits : n.magnitude < coefficientLimit) (room : n.scale ≤ maxScale) :
    readFrom excess { negative } n.text = ofDigits negative n.magnitude n.scale := by
  obtain ⟨whole, fraction, digit⟩ := n
  have digitWhole : ∀ c ∈ whole, c.isDigit = true :=
    fun c mem => digit c (List.mem_append_left _ mem)
  let start : Reading := { negative }
  have coefficientWhole : (start.withDigits whole).coefficient = Nat.ofDigitChars 10 whole 0 :=
    start.withDigits_coefficient whole
  have scaleWhole : (start.withDigits whole).scale = 0 := start.withDigits_scale whole
  cases fraction with
  | none =>
    simp only [Numeral.digits, Numeral.magnitude, Numeral.scale, Numeral.text, Option.getD_none,
      Option.elim_none, List.append_nil, List.length_nil] at some fits ⊢
    have begun : (start.withDigits whole).started = true := Reading.withDigits_started (.inr some)
    have readWhole := readFrom_digits excess (r := start) [] digitWhole fits (by intro past; cases past)
    rw [List.append_nil] at readWhole
    rw [readWhole, readFrom, Reading.finish, if_pos begun, coefficientWhole, scaleWhole,
      Reading.withDigits_negative]
  | some fraction =>
    simp only [Numeral.digits, Numeral.magnitude, Numeral.scale, Numeral.text, Option.getD_some,
      Option.elim_some, Nat.ofDigitChars_append] at some fits room digit ⊢
    have fitsWhole : Nat.ofDigitChars 10 whole 0 < coefficientLimit :=
      Nat.lt_of_le_of_lt (Text.le_ofDigitChars fraction _) fits
    let middle : Reading :=
      { start.withDigits whole with pastPoint := true, separated := false }
    have begun : (middle.withDigits fraction).started = true := by
      refine Reading.withDigits_started ?_
      by_cases none : whole = []
      · exact .inr fun none' => some (by rw [none, none', List.append_nil])
      · exact .inl (Reading.withDigits_started (.inr none))
    have scaleMiddle : middle.scale = 0 := scaleWhole
    have coefficientMiddle : middle.coefficient = Nat.ofDigitChars 10 whole 0 := coefficientWhole
    have sign : middle.negative = negative := start.withDigits_negative whole
    have readFraction := readFrom_digits excess (r := middle) []
      (fun c mem => digit c (List.mem_append_right _ mem))
      (by rw [coefficientMiddle]; exact fits) (by rw [scaleMiddle]; omega)
    rw [List.append_nil] at readFraction
    rw [readFrom_digits excess (r := start) _ digitWhole fitsWhole (by intro past; cases past),
      readFrom_point excess _ (start.withDigits_pastPoint whole), readFraction, readFrom,
      Reading.finish, if_pos begun, Reading.withDigits_coefficient, Reading.withDigits_negative,
      Reading.withDigits_scale, coefficientMiddle, sign, if_pos rfl, scaleMiddle, Nat.zero_add]

/-- What a decimal's digits are: a numeral with some before the point and as many after it
as the scale says, which together stand for the magnitude. -/
theorem unsignedDigits_eq_text (magnitude scale : Nat) :
    ∃ n : Numeral, unsignedDigits magnitude scale = n.text ∧ n.whole ≠ [] ∧
      n.magnitude = magnitude ∧ n.scale = scale := by
  by_cases h : scale = 0
  · refine ⟨⟨Nat.toDigits 10 magnitude, none, ?_⟩, ?_, Nat.toDigits_ne_nil, ?_, h.symm⟩
    · rw [Option.getD_none, List.append_nil]
      exact Text.isDigit_of_mem_toDigits
    · rw [unsignedDigits, if_pos h]
      exact (List.append_nil _).symm
    · simp only [Numeral.magnitude, Numeral.digits, Option.getD_none, List.append_nil]
      exact Nat.ofDigitChars_toDigits (by decide) (by decide)
  · let all := padded (scale + 1) (Nat.toDigits 10 magnitude)
    have long : scale + 1 ≤ all.length := by
      simp only [all, padded, List.length_append, List.length_replicate]
      omega
    refine ⟨⟨all.take (all.length - scale), some (all.drop (all.length - scale)), ?_⟩,
      ?_, ?_, ?_, ?_⟩
    · rw [Option.getD_some, List.take_append_drop]
      intro c mem
      rcases List.mem_append.mp mem with pad | own
      · exact (List.eq_of_mem_replicate pad) ▸ rfl
      · exact Text.isDigit_of_mem_toDigits c own
    · rw [unsignedDigits, if_neg h]
      rfl
    · rw [← List.length_pos_iff, List.length_take]
      omega
    · simp only [Numeral.magnitude, Numeral.digits, Option.getD_some, List.take_append_drop]
      exact (Text.ofDigitChars_zeros _ _).trans (Nat.ofDigitChars_toDigits (by decide) (by decide))
    · rw [Numeral.scale, Option.getD_some, List.length_drop]
      omega

theorem readFrom_unsignedDigits (excess : Excess) (negative : Bool) {magnitude scale : Nat}
    (fits : magnitude < coefficientLimit) (room : scale ≤ maxScale) :
    readFrom excess { negative } (unsignedDigits magnitude scale) =
      ofDigits negative magnitude scale := by
  obtain ⟨n, text, nonempty, rfl, rfl⟩ := unsignedDigits_eq_text magnitude scale
  rw [text]
  exact readFrom_numeral excess negative (List.append_ne_nil_of_left_ne_nil nonempty _) fits room

theorem unsignedDigits_cons (magnitude scale : Nat) :
    ∃ c cs, unsignedDigits magnitude scale = c :: cs ∧ c.isDigit = true := by
  obtain ⟨⟨whole, fraction, digit⟩, text, nonempty, -, -⟩ := unsignedDigits_eq_text magnitude scale
  obtain ⟨c, cs, rfl⟩ := List.exists_cons_of_ne_nil nonempty
  exact ⟨c, _, text, digit c List.mem_cons_self⟩

theorem ofDigits_self {d : Decimal} (plain : d.Plain) :
    ofDigits d.negative d.magnitude d.scale = .ok d := by
  have scale : d.scale % (maxScale + 1) = d.scale :=
    Nat.mod_eq_of_lt (Nat.lt_succ_of_le d.scale_le)
  have parts := ofParts?_self plain
  rw [coefficient] at parts
  rw [ofDigits, scale, parts]

theorem read_unsigned (excess : Excess) {c : Char} (cs : List Char) (minus : c ≠ '-')
    (plus : c ≠ '+') : read excess (c :: cs) = readFrom excess { negative := false } (c :: cs) := by
  rw [read]
  · intro h; cases h
  · intro rest h; exact minus (List.cons.inj h).1
  · intro rest h; exact plus (List.cons.inj h).1

theorem read_digits (excess : Excess) {d : Decimal} (plain : d.Plain) :
    read excess d.digits = .ok d := by
  have reads := fun negative =>
    readFrom_unsignedDigits excess negative d.magnitude_lt d.scale_le
  have self := ofDigits_self plain
  cases sign : d.negative with
  | true =>
    rw [sign] at self
    rw [digits, sign, if_pos rfl, read, reads, self]
  | false =>
    obtain ⟨c, cs, text, digit⟩ := unsignedDigits_cons d.magnitude d.scale
    have unsigned := read_unsigned excess cs
      (Text.ne_of_isDigit digit (by decide)) (Text.ne_of_isDigit digit (by decide))
    rw [sign] at self
    rw [digits, sign, if_neg Bool.false_ne_true, text, unsigned, ← text, reads, self]

theorem readLenient?_digits {d : Decimal} (plain : d.Plain) :
    readLenient? d.digits = some d := by
  rw [readLenient?, read_digits .round plain]

-- a zero with a sign is read without it
example :
    (ofSigned? true 0 1).map (fun d => (d.render, (readLenient? d.digits).map render)) =
      some ("-0.0", some "0.0") := by
  decide +kernel

end Candlestick.Decimal
