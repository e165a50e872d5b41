import Candlestick.Decimal.Checked
import Candlestick.Proofs.Decimal.Exact
import Candlestick.Proofs.Decimal.Text

/-!
# Exact reading

The texts that `parse` accepts are literals, a sign or none and a numeral, with underscores
in them and blanks around them. The decimal has the value of the literal and as many
fractional digits, and every literal without underscores whose digits fit is accepted
(`parse_exact`).
-/

namespace Candlestick.Decimal

variable {r : Reading} {d : Decimal} {n : Numeral} {c : Char} {cs rest : List Char}

-- ---------------------------------------------------------------------------
-- Literals
-- ---------------------------------------------------------------------------

inductive Sign where
  | absent
  | plus
  | minus
  deriving DecidableEq

def Sign.text : Sign → List Char
  | .absent => []
  | .plus => ['+']
  | .minus => ['-']

def Sign.negative : Sign → Bool
  | .minus => true
  | _ => false

/-- A sign or none, and a numeral with at least one digit. -/
structure Literal where
  sign : Sign
  numeral : Numeral
  nonempty : numeral.digits ≠ []

namespace Literal

def text (l : Literal) : List Char := l.sign.text ++ l.numeral.text

def coefficient (l : Literal) : Int :=
  if l.sign.negative then -(l.numeral.magnitude : Int) else l.numeral.magnitude

def value (l : Literal) : ℚ := l.coefficient / pow10 l.numeral.scale

end Literal

theorem ofDigits_eq_ok_iff {negative : Bool} {magnitude scale : Nat} (room : scale ≤ maxScale) :
    ofDigits negative magnitude scale = .ok d ↔
      d.coefficient = (if negative then -(magnitude : Int) else magnitude) ∧ d.scale = scale ∧
        d.Plain := by
  rw [ofDigits, Nat.mod_eq_of_lt (Nat.lt_succ_of_le room), ← ofParts?_eq_some_iff]
  cases ofParts? (if negative then -(magnitude : Int) else magnitude) scale <;> simp

-- ---------------------------------------------------------------------------
-- What is read is a numeral
-- ---------------------------------------------------------------------------

/-- How many digits of the numeral are fractional ones: all where it stands after a point
itself. -/
def Numeral.places (n : Numeral) (past : Bool) : Nat :=
  if past then n.whole.length else n.scale

def Numeral.blank : Numeral := ⟨[], none, fun _ mem => absurd mem List.not_mem_nil⟩

/-- Read on from `r`, the numeral gives the decimal. -/
structure Reading.Ends (r : Reading) (n : Numeral) (d : Decimal) : Prop where
  onePoint : r.pastPoint = true → n.fraction = none
  started : r.started = true ∨ n.digits ≠ []
  room : r.scale + n.places r.pastPoint ≤ maxScale
  decimal : ofDigits r.negative (Nat.ofDigitChars 10 n.digits r.coefficient)
    (r.scale + n.places r.pastPoint) = .ok d

/-- The ways in which a character is read where nothing may be dropped. -/
theorem readFrom_cons_cases (h : readFrom .refuse r (c :: rest) = .ok d) :
    r.full = false ∧
    ((c.isDigit = true ∧ readFrom .refuse (r.withDigit c) rest = .ok d) ∨
      (c = '.' ∧ r.pastPoint = false ∧
        readFrom .refuse { r with pastPoint := true, separated := false } rest = .ok d) ∨
      (c = '_' ∧ r.started = true ∧
        readFrom .refuse { r with separated := true } rest = .ok d)) := by
  have ends : Excess.refuse.endsAt r c = r.full := Bool.and_true r.full
  rw [readFrom, ends] at h
  cases full : r.full with
  | true =>
    rw [full, if_pos rfl] at h
    cases h
  | false =>
    rw [full, if_neg Bool.false_ne_true] at h
    refine ⟨rfl, ?_⟩
    split at h
    · next digit found =>
      obtain ⟨isDigit, rfl⟩ := Text.digit?_eq_some found
      split at h
      · next r' pushed =>
        exact .inl ⟨isDigit, Reading.eq_withDigit pushed ▸ h⟩
      · split at h <;> cases h
    · split at h
      · next point => exact .inr (.inl ⟨point.1, point.2, h⟩)
      · split at h
        · next underscore => exact .inr (.inr ⟨underscore.1, underscore.2, h⟩)
        · cases h

namespace Reading.Ends

theorem nil (room : r.scale ≤ maxScale) (h : r.finish = .ok d) :
    r.Ends .blank d := by
  have places : Numeral.blank.places r.pastPoint = 0 := by cases r.pastPoint <;> rfl
  rw [finish] at h
  split at h
  · next started => exact ⟨fun _ => rfl, .inl started, by rwa [places], by rwa [places]⟩
  · cases h

theorem digit (isDigit : c.isDigit = true) (h : (r.withDigit c).Ends n d) :
    r.Ends ⟨c :: n.whole, n.fraction, List.forall_mem_cons.mpr ⟨isDigit, n.isDigit⟩⟩ d := by
  have places : r.scale + Numeral.places ⟨c :: n.whole, n.fraction,
      List.forall_mem_cons.mpr ⟨isDigit, n.isDigit⟩⟩ r.pastPoint =
      (r.withDigit c).scale + n.places r.pastPoint := by
    cases past : r.pastPoint
    · simp [withDigit, Numeral.places, Numeral.scale, past]
    · simp only [withDigit, Numeral.places, past, if_true, List.length_cons]
      omega
  have digits : Nat.ofDigitChars 10 (c :: n.digits) r.coefficient =
      Nat.ofDigitChars 10 n.digits (r.withDigit c).coefficient := by
    rw [Nat.ofDigitChars_cons, Nat.mul_comm]
    rfl
  exact ⟨h.onePoint, .inr (List.cons_ne_nil c n.digits), places ▸ h.room,
    by rw [places]; exact digits ▸ h.decimal⟩

theorem point (before : r.pastPoint = false)
    (h : Reading.Ends { r with pastPoint := true, separated := false } n d) :
    r.Ends ⟨[], some n.whole, fun c mem => n.isDigit c (List.mem_append_left _ mem)⟩ d := by
  have digits : n.digits = n.whole := by
    rw [Numeral.digits, h.onePoint rfl]
    exact List.append_nil _
  obtain ⟨-, started, room, decimal⟩ := h
  rw [digits] at started decimal
  refine ⟨fun past => absurd (past.symm.trans before) (by decide), started, ?_, ?_⟩
  · rw [before]
    exact room
  · rw [before]
    exact decimal

end Reading.Ends

theorem scale_withDigit_le (notFull : r.full = false) (room : r.scale ≤ maxScale) :
    (r.withDigit c).scale ≤ maxScale := by
  cases past : r.pastPoint with
  | true =>
    simp only [Reading.full, past, Bool.true_and, decide_eq_false_iff_not] at notFull
    simp only [Reading.withDigit, past, if_true]
    omega
  | false =>
    simp only [Reading.withDigit, past]
    exact room

/-- By induction on the text: each character is a digit of the numeral, its point, or an
underscore. -/
theorem numeral_of_readFrom (room : r.scale ≤ maxScale) (h : readFrom .refuse r cs = .ok d) :
    ∃ n : Numeral, cs.filter (· ≠ '_') = n.text ∧ r.Ends n d := by
  induction cs generalizing r with
  | nil => exact ⟨_, rfl, .nil room h⟩
  | cons c cs ih =>
    obtain ⟨full, ⟨digit, next⟩ | ⟨rfl, before, next⟩ | ⟨rfl, started, next⟩⟩ :=
      readFrom_cons_cases h
    · obtain ⟨n, text, ends⟩ := ih (scale_withDigit_le full room) next
      have kept : c ≠ '_' := Text.ne_of_isDigit digit (by decide)
      exact ⟨_, by rw [List.filter_cons_of_pos (by simpa using kept), text]; rfl, ends.digit digit⟩
    · obtain ⟨n, text, ends⟩ := ih (r := { r with pastPoint := true, separated := false }) room next
      have whole : n.text = n.whole := by
        rw [Numeral.text, ends.onePoint rfl]
        exact List.append_nil _
      exact ⟨_, by rw [List.filter_cons_of_pos (by decide), text, whole]; rfl, ends.point before⟩
    · obtain ⟨n, text, ends⟩ := ih (r := { r with separated := true }) room next
      exact ⟨n, by rw [List.filter_cons_of_neg (by decide), text],
        ends.onePoint, ends.started, ends.room, ends.decimal⟩

-- ---------------------------------------------------------------------------
-- Signs
-- ---------------------------------------------------------------------------

theorem readFrom_of_read {excess : Excess} (h : read excess cs = .ok d) :
    ∃ (sign : Sign) (rest : List Char), cs = sign.text ++ rest ∧
      readFrom excess { negative := sign.negative } rest = .ok d := by
  unfold read at h
  split at h
  · cases h
  · next rest => exact ⟨.minus, rest, rfl, h⟩
  · next rest => exact ⟨.plus, rest, rfl, h⟩
  · exact ⟨.absent, cs, rfl, h⟩

theorem Numeral.text_cons (nonempty : n.digits ≠ []) :
    ∃ c cs, n.text = c :: cs ∧ (c.isDigit = true ∨ c = '.') := by
  obtain ⟨whole, fraction, isDigit⟩ := n
  cases whole with
  | cons c whole => exact ⟨c, _, rfl, .inl (isDigit c List.mem_cons_self)⟩
  | nil =>
    cases fraction with
    | some fraction => exact ⟨'.', fraction, rfl, .inr rfl⟩
    | none => exact absurd rfl nonempty

theorem read_text (excess : Excess) (l : Literal) :
    read excess l.text = readFrom excess { negative := l.sign.negative } l.numeral.text := by
  obtain ⟨sign, n, nonempty⟩ := l
  cases sign with
  | minus => rfl
  | plus => rfl
  | absent =>
    obtain ⟨c, cs, text, first⟩ := n.text_cons nonempty
    have unsigned : c ≠ '-' ∧ c ≠ '+' := by
      rcases first with digit | rfl
      · exact ⟨Text.ne_of_isDigit digit (by decide), Text.ne_of_isDigit digit (by decide)⟩
      · decide
    change read excess n.text = readFrom excess { negative := false } n.text
    rw [text]
    exact read_unsigned excess cs unsigned.1 unsigned.2

-- ---------------------------------------------------------------------------
-- Both ways
-- ---------------------------------------------------------------------------

theorem Literal.value_eq {l : Literal} (coefficient : d.coefficient = l.coefficient)
    (scale : d.scale = l.numeral.scale) : d.value = l.value := by
  rw [Decimal.value, coefficient, scale, Literal.value]

theorem literal_of_readExact (h : readExact cs = .ok d) :
    ∃ l : Literal, cs.filter (· ≠ '_') = l.text ∧ d.value = l.value ∧
      d.scale = l.numeral.scale := by
  obtain ⟨sign, rest, rfl, reads⟩ := readFrom_of_read h
  obtain ⟨n, text, -, started, room, decimal⟩ :=
    numeral_of_readFrom (r := { negative := sign.negative }) (Nat.zero_le maxScale) reads
  have nonempty : n.digits ≠ [] := started.resolve_left Bool.false_ne_true
  have kept : sign.text.filter (· ≠ '_') = sign.text := by cases sign <;> rfl
  have places : 0 + n.places false = n.scale := Nat.zero_add _
  rw [places] at room decimal
  obtain ⟨coefficient, scale, -⟩ := (ofDigits_eq_ok_iff room).mp decimal
  refine ⟨⟨sign, n, nonempty⟩, ?_, Literal.value_eq coefficient scale, scale⟩
  rw [List.filter_append, kept, text]
  rfl

theorem readExact_text {l : Literal} (room : l.numeral.scale ≤ maxScale)
    (fits : l.numeral.magnitude < coefficientLimit) :
    ∃ d, readExact l.text = .ok d ∧ d.value = l.value ∧ d.scale = l.numeral.scale := by
  have small : l.coefficient.natAbs < coefficientLimit := by
    rw [Literal.coefficient]
    split <;> omega
  obtain ⟨d, parts⟩ := ofParts?_of_lt small room
  obtain ⟨coefficient, scale, plain⟩ := ofParts?_eq_some_iff.mp parts
  refine ⟨d, ?_, Literal.value_eq coefficient scale, scale⟩
  rw [readExact, read_text, readFrom_numeral .refuse _ l.nonempty fits room]
  exact (ofDigits_eq_ok_iff room).mpr ⟨coefficient, scale, plain⟩

theorem Numeral.isBlank_of_mem_text (n : Numeral) : ∀ c ∈ n.text, Text.isBlank c = false := by
  obtain ⟨whole, fraction, isDigit⟩ := n
  have solid := fun c mem => Text.isBlank_of_isDigit (isDigit c mem)
  intro c mem
  rcases List.mem_append.mp mem with before | after
  · exact solid c (List.mem_append_left _ before)
  · cases fraction with
    | none => cases after
    | some fraction =>
      rcases List.mem_cons.mp after with rfl | digit
      · rfl
      · exact solid c (List.mem_append_right _ digit)

theorem strip_digits (d : Decimal) : Text.strip d.digits = d.digits := by
  obtain ⟨n, text, -⟩ := unsignedDigits_eq_text d.magnitude d.scale
  refine Text.strip_eq_self fun c mem => ?_
  rw [digits, text] at mem
  split at mem
  · rcases List.mem_cons.mp mem with rfl | own
    · rfl
    · exact n.isBlank_of_mem_text c own
  · exact n.isBlank_of_mem_text c mem

theorem parse_eq_ok_iff {s : String} :
    parse s = .ok d ↔ readExact (Text.strip s.toList) = .ok d := by
  unfold parse
  cases readExact (Text.strip s.toList) <;> simp

/-- Reading is exact and complete. What is accepted is a literal, with underscores in it
and blanks around it, and the decimal has its value and as many fractional digits. Every
literal without underscores whose digits fit is accepted. The text of a decimal that is
no negative zero is read as that decimal. -/
theorem parse_exact :
    (∀ (s : String) (d : Decimal), parse s = .ok d →
      ∃ l : Literal, (Text.strip s.toList).filter (· ≠ '_') = l.text ∧ d.value = l.value ∧
        d.scale = l.numeral.scale ∧ l.numeral.scale ≤ maxScale) ∧
    (∀ (s : String) (l : Literal), Text.strip s.toList = l.text →
      l.numeral.scale ≤ maxScale → l.numeral.magnitude < coefficientLimit →
        ∃ d, parse s = .ok d ∧ d.value = l.value ∧ d.scale = l.numeral.scale) ∧
    ∀ d : Decimal, (d.isZero = true → d.negative = false) → parse d.render = .ok d := by
  refine ⟨fun s d accepted => ?_, fun s l text room fits => ?_, fun d noNegativeZero => ?_⟩
  · obtain ⟨l, text, value, scale⟩ := literal_of_readExact (parse_eq_ok_iff.mp accepted)
    exact ⟨l, text, value, scale, scale ▸ d.scale_le⟩
  · obtain ⟨d, reads, exactly⟩ := readExact_text room fits
    exact ⟨d, parse_eq_ok_iff.mpr (text ▸ reads), exactly⟩
  · have plain : d.Plain := by
      by_cases zero : d.coefficient = 0
      · rw [Plain, noNegativeZero (isZero_iff.mpr zero), zero]
        rfl
      · exact plain_of_ne_zero zero
    rw [parse_eq_ok_iff, render, String.toList_ofList, strip_digits]
    exact read_digits .refuse plain

def zeroPadded : Literal where
  sign := .plus
  numeral := ⟨List.replicate 40 '0' ++ ['7'], some "9228162514264337593543950335".toList,
    List.all_eq_true.mp (by decide +kernel)⟩
  nonempty := List.cons_ne_nil '0' _

/-- Zeros in front take no room, underscores are passed over, and a tenth is read back. -/
theorem zeroPadded_exact :
    (∃ d, parse (String.ofList (' ' :: zeroPadded.text ++ ['\n'])) = .ok d ∧
      d.value = zeroPadded.value ∧ d.scale = maxScale) ∧
    (∃ d, parse "-1_000.5_0_" = .ok d ∧ ∃ l : Literal,
      l.text = "-1000.50".toList ∧ d.value = l.value ∧ d.scale = l.numeral.scale) ∧
    parse tenth.render = .ok tenth := by
  obtain ⟨exactly, complete, back⟩ := parse_exact
  have stripped : Text.strip (String.ofList (' ' :: zeroPadded.text ++ ['\n'])).toList =
      zeroPadded.text := by decide +kernel
  obtain ⟨d, reads, value, scale⟩ :=
    complete _ zeroPadded stripped (by decide +kernel) (by decide +kernel)
  have underscored : parse "-1_000.5_0_" = .ok ⟨true, 100050, 2, by decide, by decide⟩ := by
    decide +kernel
  obtain ⟨l, text, value', scale', -⟩ := exactly _ _ underscored
  have filtered : (Text.strip "-1_000.5_0_".toList).filter (· ≠ '_') = "-1000.50".toList := by
    decide +kernel
  exact ⟨⟨d, reads, value, scale.trans (by decide +kernel)⟩,
    ⟨_, underscored, l, text.symm.trans filtered, value', scale'⟩, back tenth (by decide)⟩

end Candlestick.Decimal
