import Candlestick.Proofs.Text.Digits
import Candlestick.Zone.Basic

/-!
# How zones are spelled

A zone has a name, or it is an offset: a sign, hours and minutes in two characters each, and
a colon between them (`Zone.Spelled`). Two digits are meant (`Offset.Digits`), but each
field is read as an integer of its own (`Offset.Field`), and a sign in one may turn the
offset around (`westward_plus`).
-/

namespace Candlestick

namespace Offset

inductive Digits : Char → Char → Int → Prop
  | mk {a b : Char} : a.isDigit = true → b.isDigit = true →
      Digits a b (10 * (a.toNat - '0'.toNat : Nat) + (b.toNat - '0'.toNat : Nat))

/-- The number of two digits, or of one digit after a sign. -/
inductive Field : Char → Char → Int → Prop
  | digits {a b : Char} {n : Int} : Digits a b n → Field a b n
  | plus {b : Char} : b.isDigit = true → Field '+' b (b.toNat - '0'.toNat : Nat)
  | minus {b : Char} : b.isDigit = true → Field '-' b (-(b.toNat - '0'.toNat : Nat))

inductive Sign : Char → Int → Prop
  | east : Sign '+' 1
  | west : Sign '-' (-1)

end Offset

/-- A text without blanks around it stands for a zone, with `field` for the numbers of
two characters. -/
inductive Zone.Spelled (field : Char → Char → Int → Prop) : List Char → Zone → Prop
  | host {cs : List Char} :
      cs.map Char.toLower = ['l', 'o', 'c', 'a', 'l'] → Spelled field cs .host
  | utc {cs : List Char} :
      cs.map Char.toLower = ['u', 't', 'c'] ∨ cs.map Char.toLower = ['z'] → Spelled field cs .utc
  | offset {sign a b c d : Char} {east hours minutes : Int} {offset : Offset} :
      Offset.Sign sign east → field a b hours → field c d minutes → minutes < 60 →
      offset.seconds = east * (hours * 3600 + minutes * 60) →
      Spelled field [sign, a, b, ':', c, d] (.fixed offset)

variable {a b : Char} {n sign : Int} {cs : List Char} {z : Zone} {o : Offset}

-- ---------------------------------------------------------------------------
-- Fields
-- ---------------------------------------------------------------------------

namespace Text

theorem digits?_single {m : Nat} :
    digits? [b] = some m ↔ b.isDigit = true ∧ m = b.toNat - '0'.toNat := by
  constructor
  · intro h
    cases read : digit? b with
    | none => simp [digits?, digitsFrom?, read] at h
    | some x =>
      obtain ⟨isDigit, rfl⟩ := digit?_eq_some read
      simp only [digits?, digitsFrom?, read, Option.some.injEq] at h
      exact ⟨isDigit, by omega⟩
  · rintro ⟨isDigit, rfl⟩
    simp [digits?, digitsFrom?, digit?_of_isDigit isDigit]

theorem digits?_pair {m : Nat} :
    digits? [a, b] = some m ↔ a.isDigit = true ∧ b.isDigit = true ∧
      m = 10 * (a.toNat - '0'.toNat) + (b.toNat - '0'.toNat) := by
  constructor
  · intro h
    cases first : digit? a with
    | none => simp [digits?, digitsFrom?, first] at h
    | some x =>
      cases second : digit? b with
      | none => simp [digits?, digitsFrom?, first, second] at h
      | some y =>
        obtain ⟨left, rfl⟩ := digit?_eq_some first
        obtain ⟨right, rfl⟩ := digit?_eq_some second
        simp only [digits?, digitsFrom?, first, second, Option.some.injEq] at h
        exact ⟨left, right, by omega⟩
  · rintro ⟨left, right, rfl⟩
    simp only [digits?, digitsFrom?, digit?_of_isDigit left, digit?_of_isDigit right,
      Option.some.injEq]
    omega

theorem integer?_minus : integer? ('-' :: cs) = some n ↔ ∃ m, digits? cs = some m ∧ n = -m := by
  cases h : digits? cs <;> simp [integer?, h, eq_comm]

theorem integer?_plus : integer? ('+' :: cs) = some n ↔ ∃ m, digits? cs = some m ∧ n = m := by
  cases h : digits? cs <;> simp [integer?, natural?, h, eq_comm]

theorem integer?_unsigned (plus : a ≠ '+') (minus : a ≠ '-') :
    integer? (a :: cs) = some n ↔ ∃ m, digits? (a :: cs) = some m ∧ n = m := by
  cases h : digits? (a :: cs) <;> simp [integer?, natural?, plus, minus, h, eq_comm]

end Text

namespace Offset

theorem Digits.nonneg (h : Digits a b n) : 0 ≤ n := by
  cases h
  omega

theorem Digits.isDigit (h : Digits a b n) : a.isDigit = true := by
  cases h with
  | mk first _ => exact first

theorem Field.digits_of_ne (h : Field a b n) (plus : a ≠ '+') (minus : a ≠ '-') :
    Digits a b n := by
  cases h with
  | digits h => exact h
  | plus => exact absurd rfl plus
  | minus => exact absurd rfl minus

theorem integer?_pair : Text.integer? [a, b] = some n ↔ Field a b n := by
  constructor
  · intro h
    by_cases minus : a = '-'
    · subst minus
      obtain ⟨m, read, rfl⟩ := Text.integer?_minus.mp h
      obtain ⟨isDigit, rfl⟩ := Text.digits?_single.mp read
      exact .minus isDigit
    by_cases plus : a = '+'
    · subst plus
      obtain ⟨m, read, rfl⟩ := Text.integer?_plus.mp h
      obtain ⟨isDigit, rfl⟩ := Text.digits?_single.mp read
      exact .plus isDigit
    obtain ⟨m, read, rfl⟩ := (Text.integer?_unsigned plus minus).mp h
    obtain ⟨left, right, rfl⟩ := Text.digits?_pair.mp read
    exact .digits (.mk left right)
  · intro h
    cases h with
    | plus isDigit => exact Text.integer?_plus.mpr ⟨_, Text.digits?_single.mpr ⟨isDigit, rfl⟩, rfl⟩
    | minus isDigit =>
      exact Text.integer?_minus.mpr ⟨_, Text.digits?_single.mpr ⟨isDigit, rfl⟩, rfl⟩
    | digits h =>
      have first := h.isDigit
      cases h with
      | mk left right =>
        exact (Text.integer?_unsigned (Text.ne_of_isDigit first (by decide))
          (Text.ne_of_isDigit first (by decide))).mpr
          ⟨_, Text.digits?_pair.mpr ⟨left, right, rfl⟩, rfl⟩

-- ---------------------------------------------------------------------------
-- Offsets
-- ---------------------------------------------------------------------------

theorem clock?_eq_some {hours minutes : Int} : clock? cs = some (hours, minutes) ↔
    ∃ a b c d, cs = [a, b, ':', c, d] ∧ Field a b hours ∧ Field c d minutes := by
  constructor
  · intro h
    unfold clock? at h
    split at h
    · next a b c d =>
      simp only [Option.bind_eq_bind, Option.bind_eq_some_iff, Option.pure_def,
        Option.some.injEq, Prod.mk.injEq] at h
      obtain ⟨_, first, _, second, rfl, rfl⟩ := h
      exact ⟨a, b, c, d, rfl, integer?_pair.mp first, integer?_pair.mp second⟩
    · cases h
  · rintro ⟨a, b, c, d, rfl, first, second⟩
    simp only [clock?, integer?_pair.mpr first, integer?_pair.mpr second]
    rfl

theorem ofSeconds?_eq_some {seconds : Int} : ofSeconds? seconds = some o ↔ o.seconds = seconds := by
  constructor
  · intro h
    unfold ofSeconds? at h
    split at h
    · cases h; rfl
    · cases h
  · rintro rfl
    exact dif_pos o.bound

theorem ofClock?_eq_some : ofClock? sign cs = some o ↔
    ∃ hours minutes, clock? cs = some (hours, minutes) ∧ minutes < 60 ∧
      o.seconds = sign * (hours * 3600 + minutes * 60) := by
  constructor
  · intro h
    unfold ofClock? at h
    split at h
    · next hours minutes clock =>
      split at h
      · next small => exact ⟨hours, minutes, clock, small, ofSeconds?_eq_some.mp h⟩
      · cases h
    · cases h
  · rintro ⟨hours, minutes, clock, small, seconds⟩
    simp only [ofClock?, clock, if_pos small]
    exact ofSeconds?_eq_some.mpr seconds

theorem ofChars?_eq_some : ofChars? cs = some o ↔
    ∃ c rest east, cs = c :: rest ∧ Sign c east ∧ ofClock? east rest = some o := by
  constructor
  · intro h
    unfold ofChars? at h
    split at h
    · next rest => exact ⟨'+', rest, 1, rfl, .east, h⟩
    · next rest => exact ⟨'-', rest, -1, rfl, .west, h⟩
    · cases h
  · rintro ⟨c, rest, east, rfl, sign, h⟩
    cases sign with
    | east | west => exact h

end Offset

-- ---------------------------------------------------------------------------
-- Zones
-- ---------------------------------------------------------------------------

namespace Zone

theorem lower_ne_of_sign {c : Char} {east : Int} (h : Offset.Sign c east) (name : List Char)
    (letter : ∃ l ∈ name.head?, l ≠ '+' ∧ l ≠ '-') : (c :: cs).map Char.toLower ≠ name := by
  rintro rfl
  obtain ⟨l, front, plus, minus⟩ := letter
  cases Option.mem_some_iff.mp front
  cases h with
  | east => exact plus (by decide)
  | west => exact minus (by decide)

theorem ofChars?_eq_some : ofChars? cs = some z ↔ Spelled Offset.Field cs z := by
  constructor
  · intro h
    simp only [ofChars?] at h
    split at h
    · next name => cases h; exact .host name
    split at h
    · next name => cases h; exact .utc name
    obtain ⟨o, offset, rfl⟩ := Option.map_eq_some_iff.mp h
    obtain ⟨c, rest, east, rfl, sign, read⟩ := Offset.ofChars?_eq_some.mp offset
    obtain ⟨hours, minutes, clock, small, seconds⟩ := Offset.ofClock?_eq_some.mp read
    obtain ⟨_, _, _, _, rfl, first, second⟩ := Offset.clock?_eq_some.mp clock
    exact .offset sign first second small seconds
  · intro h
    cases h with
    | host name => simp [ofChars?, name]
    | utc name => rcases name with name | name <;> simp [ofChars?, name]
    | offset sign first second small seconds =>
      have read := Offset.ofChars?_eq_some.mpr ⟨_, _, _, rfl, sign, Offset.ofClock?_eq_some.mpr
        ⟨_, _, Offset.clock?_eq_some.mpr ⟨_, _, _, _, rfl, first, second⟩, small, seconds⟩⟩
      simp only [ofChars?]
      rw [if_neg (lower_ne_of_sign sign _ ⟨'l', rfl, by decide, by decide⟩), if_neg, read]
      · rfl
      · exact not_or.mpr ⟨lower_ne_of_sign sign _ ⟨'u', rfl, by decide, by decide⟩,
          lower_ne_of_sign sign _ ⟨'z', rfl, by decide, by decide⟩⟩

theorem parse_eq_ok {s : String} :
    parse s = .ok z ↔ Spelled Offset.Field (Text.strip s.toList) z := by
  rw [← ofChars?_eq_some]
  unfold parse
  cases ofChars? (Text.strip s.toList) <;> simp

theorem Spelled.fields (h : Spelled Offset.Digits cs z) : Spelled Offset.Field cs z := by
  cases h with
  | host name => exact .host name
  | utc name => exact .utc name
  | offset sign first second small seconds =>
    exact .offset sign (.digits first) (.digits second) small seconds

theorem Spelled.digits (h : Spelled Offset.Field cs z)
    (unsigned : ∀ c ∈ cs.tail, c ≠ '+' ∧ c ≠ '-') : Spelled Offset.Digits cs z := by
  cases h with
  | host name => exact .host name
  | utc name => exact .utc name
  | @offset _ a _ c _ _ _ _ _ sign first second small seconds =>
    have left := unsigned a (by simp)
    have right := unsigned c (by simp)
    exact .offset sign (first.digits_of_ne left.1 left.2) (second.digits_of_ne right.1 right.2)
      small seconds

theorem Spelled.signed (h : Spelled Offset.Digits cs (.fixed o)) :
    (cs.head? = some '+' ∧ 0 ≤ o.seconds) ∨ (cs.head? = some '-' ∧ o.seconds ≤ 0) := by
  cases h with
  | offset sign first second _ seconds =>
    have hours := first.nonneg
    have minutes := second.nonneg
    cases sign with
    | east => exact .inl ⟨rfl, by omega⟩
    | west => exact .inr ⟨rfl, by omega⟩

end Zone

/-- A text is read as the zone that it spells with fields, and refused by its own text where
it spells none. All that is spelled with digits is read, with the sign in front as the sign
of the offset; and nothing else is read where no other sign stands in the text. -/
theorem zone_spellings (s : String) :
    (∀ z, Zone.parse s = .ok z ↔ Zone.Spelled Offset.Field (Text.strip s.toList) z) ∧
    (Zone.parse s = .error ⟨s⟩ ↔ ¬ ∃ z, Zone.Spelled Offset.Field (Text.strip s.toList) z) ∧
    (∀ z, Zone.Spelled Offset.Digits (Text.strip s.toList) z → Zone.parse s = .ok z) ∧
    (∀ o, Zone.Spelled Offset.Digits (Text.strip s.toList) (.fixed o) →
      ((Text.strip s.toList).head? = some '+' ∧ 0 ≤ o.seconds) ∨
      ((Text.strip s.toList).head? = some '-' ∧ o.seconds ≤ 0)) ∧
    ((∀ c ∈ (Text.strip s.toList).tail, c ≠ '+' ∧ c ≠ '-') →
      ∀ z, Zone.parse s = .ok z ↔ Zone.Spelled Offset.Digits (Text.strip s.toList) z) := by
  refine ⟨fun z => Zone.parse_eq_ok, ?_, fun z h => Zone.parse_eq_ok.mpr h.fields,
    fun o h => h.signed, fun unsigned z => ⟨fun h => ?_, fun h => Zone.parse_eq_ok.mpr h.fields⟩⟩
  · simp only [← Zone.parse_eq_ok]
    constructor
    · intro refused ⟨z, read⟩
      cases refused.symm.trans read
    · intro unread
      cases h : Zone.parse s with
      | ok z => exact absurd ⟨z, h⟩ unread
      | error e =>
        have input := Zone.parse_error h
        cases e
        exact congrArg _ (congrArg _ input)
  · exact (Zone.parse_eq_ok.mp h).digits unsigned

theorem eastward_spelled :
    (∀ c ∈ (Text.strip " +05:30 ".toList).tail, c ≠ '+' ∧ c ≠ '-') ∧
    ∃ o : Offset, o.seconds = 19800 ∧ Zone.parse " +05:30 " = .ok (.fixed o) ∧
      Zone.Spelled Offset.Digits (Text.strip " +05:30 ".toList) (.fixed o) := by
  have unsigned : ∀ c ∈ (Text.strip " +05:30 ".toList).tail, c ≠ '+' ∧ c ≠ '-' := by
    have chars : (Text.strip " +05:30 ".toList).tail = ['0', '5', ':', '3', '0'] := by
      decide +kernel
    rw [chars]
    simp
  have read : Zone.parse " +05:30 " = .ok (.fixed ⟨19800, by decide⟩) :=
    Zone.parse_eq_ok.mpr (Zone.ofChars?_eq_some.mp (by decide +kernel))
  exact ⟨unsigned, _, rfl, read,
    ((zone_spellings " +05:30 ").2.2.2.2 unsigned _).mp read⟩

/-- A sign in the hours: a plus in front, and the zone lies to the west. -/
theorem westward_plus :
    (∃ o : Offset, Zone.parse "+-5:30" = .ok (.fixed o) ∧ o.seconds = -16200) ∧
    ¬ ∃ z, Zone.Spelled Offset.Digits (Text.strip "+-5:30".toList) z := by
  constructor
  · exact ⟨⟨-16200, by decide⟩,
      Zone.parse_eq_ok.mpr (Zone.ofChars?_eq_some.mp (by decide +kernel)), rfl⟩
  · rintro ⟨z, h⟩
    have text : Text.strip "+-5:30".toList = ['+', '-', '5', ':', '3', '0'] := by decide +kernel
    rw [text] at h
    cases h with
    | host name | utc name => exact absurd name (by decide)
    | offset _ hours => exact absurd hours.isDigit (by decide)

end Candlestick
