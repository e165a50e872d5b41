import Candlestick.Json.Printer
import Candlestick.Json.Reader
import Candlestick.Proofs.Text.Digits

/-!
# Values read back

Reading the compact text of a value gives the value again, where every string is a text and
every number is an integer that a word holds. Nothing is said about other texts of the same
value.
-/

namespace Candlestick.Json

/-! ## Strings -/

/-- The element stands for the character on its own, whatever follows. -/
def Spells (e : Element) (c : Char) : Prop :=
  ∀ spelt rest, spell? spelt (e :: rest) = spell? (c :: spelt) rest

theorem spells_plain (c : Char) : Spells (.plain c) c := fun _ _ => rfl

theorem spells_unit {c : Char} (low : c.toNat < 0xD800) : Spells (.unit c.toNat) c := by
  intro spelt rest
  have high : isHighSurrogate c.toNat = false := by simp [isHighSurrogate]; omega
  have second : isLowSurrogate c.toNat = false := by simp [isLowSurrogate]; omega
  rw [spell?.eq_def]
  simp [high, second, Char.ofNat_toNat]

theorem hexDigit?_digitChar : ∀ d < 16, hexDigit? (Nat.digitChar d) = some d := by decide

theorem codeUnit?_control {n : Nat} (low : n < 0x20) :
    codeUnit? '0' '0' (Nat.digitChar (n / 16)) (Nat.digitChar (n % 16)) = some n := by
  have zero : hexDigit? '0' = some 0 := by decide
  simp only [codeUnit?, zero, hexDigit?_digitChar (n / 16) (by omega),
    hexDigit?_digitChar (n % 16) (by omega), Option.bind_eq_bind, Option.bind_some]
  exact congrArg some (by omega)

theorem readElements_short {c d : Char} (short : shortEscape? d = some c) (other : d ≠ 'u')
    (read : List Element) (rest : List Char) :
    readElements read ('\\' :: d :: rest) = readElements (.plain c :: read) rest := by
  rw [readElements, short]
  intro _ _ _ _ _ h
  exact absurd h other

/-- However a character is written, it is read as one element that spells it. -/
theorem readElements_escaped (c : Char) :
    ∃ e, Spells e c ∧
      ∀ read rest, readElements read (escaped c ++ rest) = readElements (e :: read) rest := by
  unfold escaped
  -- the characters with an escape of one letter
  iterate 7
    split
    · next h =>
      subst h
      exact ⟨_, spells_plain _, readElements_short (by decide) (by decide)⟩
  split
  · next low =>
    refine ⟨.unit c.toNat, spells_unit (by omega), fun read rest => ?_⟩
    simp only [List.cons_append, List.nil_append, readElements, codeUnit?_control low]
  · next quote backslash _ _ _ _ _ high =>
    refine ⟨.plain c, spells_plain c, fun read rest => ?_⟩
    rw [List.cons_append, List.nil_append, readElements]
    · simp [high, backslash]
    · exact quote
    · simp [backslash]
    · simp [backslash]

theorem readElements_chars (cs : List Char) (rest : List Char) :
    ∃ elements, (∀ read, readElements read (cs.flatMap escaped ++ '"' :: rest) =
        some (read.reverse ++ elements, rest)) ∧
      ∀ spelt, spell? spelt elements = some (spelt.reverse ++ cs) := by
  induction cs with
  | nil => exact ⟨[], fun read => by simp [readElements], fun spelt => by simp [spell?]⟩
  | cons c cs ih =>
    obtain ⟨elements, reads, spells⟩ := ih
    obtain ⟨e, spellsHead, readsHead⟩ := readElements_escaped c
    refine ⟨e :: elements, fun read => ?_, fun spelt => ?_⟩
    · rw [List.flatMap_cons, List.append_assoc, readsHead, reads, List.reverse_cons,
        List.append_assoc, List.singleton_append]
    · rw [spellsHead, spells, List.reverse_cons, List.append_assoc, List.singleton_append]

theorem stringChars_some (s : String) :
    stringChars (some s) = '"' :: (s.toList.flatMap escaped ++ ['"']) := rfl

theorem readString_chars (s : String) (rest : List Char) :
    readString (s.toList.flatMap escaped ++ '"' :: rest) = some (some s, rest) := by
  obtain ⟨elements, reads, spells⟩ := readElements_chars s.toList rest
  have reads := reads []
  have spells := spells []
  rw [List.reverse_nil, List.nil_append] at reads spells
  simp [readString, reads, spells, String.ofList_toList]

/-! ## Numbers -/

/-- No number goes on with these characters: they are none, or what stands after a value
inside another. -/
def Ends (rest : List Char) : Prop :=
  ∀ c ∈ rest.head?, c = ',' ∨ c = ']' ∨ c = '\x7d'

theorem ends_nil : Ends [] := by
  intro c absent
  cases absent

theorem ends_cons {c : Char} {rest : List Char} (h : c = ',' ∨ c = ']' ∨ c = '\x7d') :
    Ends (c :: rest) := by
  intro d mem
  obtain rfl := Option.some.inj mem
  exact h

theorem isDigit_eq (c : Char) : isDigit c = c.isDigit := by
  by_cases h : c.isDigit = true
  · rw [isDigit, Text.digit?_of_isDigit h, h]
    rfl
  · have none : Text.digit? c = none := by
      simp only [Char.isDigit, Bool.and_eq_true, decide_eq_true_eq] at h
      exact if_neg h
    rw [isDigit, none, Bool.eq_false_iff.mpr h]
    rfl

theorem Ends.takeWhile_isDigit {rest : List Char} (ends : Ends rest) :
    rest.takeWhile isDigit = [] ∧ rest.dropWhile isDigit = rest := by
  cases rest with
  | nil => exact ⟨rfl, rfl⟩
  | cons c rest =>
    have none : isDigit c = false := by
      rcases ends c rfl with rfl | rfl | rfl <;> decide
    simp [none]

theorem Ends.readFraction {rest : List Char} (ends : Ends rest) :
    Json.readFraction rest = some ([], rest) := by
  cases rest with
  | nil => rfl
  | cons c rest =>
    have none : c ≠ '.' := by rcases ends c rfl with rfl | rfl | rfl <;> decide
    rw [Json.readFraction]
    intro _ h
    exact none (List.cons.inj h).1

theorem Ends.readExponent {rest : List Char} (ends : Ends rest) :
    Json.readExponent rest = some (none, rest) := by
  cases rest with
  | nil => rfl
  | cons c rest =>
    have none : ¬(c = 'e' ∨ c = 'E') := by rcases ends c rfl with rfl | rfl | rfl <;> decide
    simp [Json.readExponent, none]

theorem takeWhole_eq {before : Nat} {cs : List Char}
    (fits : Nat.ofDigitChars 10 cs before < significandLimit) :
    takeWhole before cs = (Nat.ofDigitChars 10 cs before, 0) := by
  induction cs generalizing before with
  | nil => rfl
  | cons c cs ih =>
    have step : Nat.ofDigitChars 10 (c :: cs) before =
        Nat.ofDigitChars 10 cs (withDigit before c) := by
      rw [Nat.ofDigitChars_cons, Nat.mul_comm 10 before]
      rfl
    rw [step] at fits ⊢
    rw [takeWhole, if_pos (Nat.lt_of_le_of_lt (Text.le_ofDigitChars cs _) fits), ih fits]

theorem readUnsigned_toDigits (negative : Bool) {n : Nat} (fits : n < significandLimit)
    {rest : List Char} (ends : Ends rest) :
    readUnsigned negative (Nat.toDigits 10 n ++ rest) =
      some (ofMagnitude negative n, rest) := by
  have digit : ∀ c ∈ Nat.toDigits 10 n, isDigit c = true :=
    fun c mem => (isDigit_eq c).trans (Text.isDigit_of_mem_toDigits c mem)
  have value : Nat.ofDigitChars 10 (Nat.toDigits 10 n) 0 = n :=
    Nat.ofDigitChars_toDigits (by decide) (by decide)
  have whole : (Nat.toDigits 10 n ++ rest).takeWhile isDigit = Nat.toDigits 10 n := by
    rw [List.takeWhile_append_of_pos digit, ends.takeWhile_isDigit.1, List.append_nil]
  have after : (Nat.toDigits 10 n ++ rest).dropWhile isDigit = rest := by
    rw [List.dropWhile_append_of_pos digit, ends.takeWhile_isDigit.2]
  have proper : (Nat.toDigits 10 n).head? = some '0' → Nat.toDigits 10 n = ['0'] := by
    intro zero
    rw [Text.eq_zero_of_head_toDigits zero]
    rfl
  have parts : ofParts negative (Nat.toDigits 10 n) [] none = ofMagnitude negative n := by
    simp [ofParts, takeWhole_eq (value.symm ▸ fits), value]
  simpa [readUnsigned, whole, after, ends.readFraction, ends.readExponent, parts] using proper

def InWord (n : Int) : Prop := -9223372036854775808 ≤ n ∧ n < 18446744073709551616

theorem readNumber_integerChars {n : Int} (word : InWord n) {rest : List Char}
    (ends : Ends rest) : readNumber (integerChars n ++ rest) = some (.integer n, rest) := by
  obtain ⟨low, high⟩ := word
  by_cases h : n < 0
  · have small : ¬(n.natAbs = 0 ∨ 2 * n.natAbs > significandLimit) := by
      rw [significandLimit]; omega
    have back : -(n.natAbs : Int) = n := by omega
    rw [integerChars, if_pos h, List.cons_append, readNumber,
      readUnsigned_toDigits true (by rw [significandLimit]; omega) ends, ofMagnitude,
      if_pos rfl, if_neg small, back]
  · obtain ⟨c, cs, text⟩ := List.exists_cons_of_ne_nil
      (Nat.toDigits_ne_nil (n := n.natAbs) (b := 10))
    have digit : c.isDigit = true :=
      Text.isDigit_of_mem_toDigits c (by rw [text]; exact List.mem_cons_self)
    have minus : c ≠ '-' := Text.ne_of_isDigit digit (by decide)
    have unsigned : readNumber (c :: (cs ++ rest)) = readUnsigned false (c :: (cs ++ rest)) := by
      rw [readNumber]
      intro _ h
      exact minus (List.cons.inj h).1
    have back : (n.natAbs : Int) = n := by omega
    rw [integerChars, if_neg h, text, List.cons_append, unsigned, ← List.cons_append, ← text,
      readUnsigned_toDigits false (by rw [significandLimit]; omega) ends, ofMagnitude,
      if_neg Bool.false_ne_true, back]

theorem integerChars_cons (n : Int) :
    ∃ c cs, integerChars n = c :: cs ∧ (c = '-' ∨ c.isDigit = true) := by
  unfold integerChars
  split
  · exact ⟨_, _, rfl, .inl rfl⟩
  · obtain ⟨c, cs, text⟩ := List.exists_cons_of_ne_nil
      (Nat.toDigits_ne_nil (n := n.natAbs) (b := 10))
    exact ⟨c, cs, text, .inr
      (Text.isDigit_of_mem_toDigits c (by rw [text]; exact List.mem_cons_self))⟩

/-! ## Values -/

mutual

/-- Whether all strings are texts and all numbers are integers that a word holds. -/
def Legible : Json → Prop
  | .null => True
  | .bool _ => True
  | .integer n => InWord n
  | .real _ _ _ => False
  | .string s => s.isSome
  | .array items => LegibleItems items
  | .object members => LegibleMembers members

def LegibleItems : List Json → Prop
  | [] => True
  | item :: items => Legible item ∧ LegibleItems items

def LegibleMembers : List (Option String × Json) → Prop
  | [] => True
  | (key, value) :: members => key.isSome ∧ Legible value ∧ LegibleMembers members

end

def ReadBack (j : Json) : Prop :=
  ∀ fuel rest, j.chars.length ≤ fuel → Ends rest →
    readValue fuel (j.chars ++ rest) = some (j, rest)

theorem skipSpace_cons {c : Char} {cs : List Char} (h : isSpace c = false) :
    skipSpace (c :: cs) = c :: cs := by simp [skipSpace, h]

/-- A text begins neither with a blank nor with the end of an array. -/
theorem chars_cons {j : Json} (legible : j.Legible) :
    ∃ c cs, j.chars = c :: cs ∧ isSpace c = false ∧ c ≠ ']' := by
  cases j with
  | null => exact ⟨_, _, rfl, by decide, by decide⟩
  | bool b => cases b <;> exact ⟨_, _, rfl, by decide, by decide⟩
  | integer n =>
    obtain ⟨c, cs, text, rfl | digit⟩ := integerChars_cons n
    · exact ⟨_, cs, text, by decide, by decide⟩
    · refine ⟨c, cs, text, ?_, Text.ne_of_isDigit digit (by decide)⟩
      simp [isSpace, Text.ne_of_isDigit digit (d := ' ') (by decide),
        Text.ne_of_isDigit digit (d := '\t') (by decide),
        Text.ne_of_isDigit digit (d := '\n') (by decide),
        Text.ne_of_isDigit digit (d := '\r') (by decide)]
  | real => exact legible.elim
  | string s => cases s <;> exact ⟨_, _, rfl, by decide, by decide⟩
  | array items => cases items <;> exact ⟨_, _, rfl, by decide, by decide⟩
  | object members => rcases members with _ | ⟨⟨key, value⟩, members⟩ <;>
      exact ⟨_, _, rfl, by decide, by decide⟩

theorem readValue_number {fuel : Nat} {c : Char} {cs : List Char}
    (h : c = '-' ∨ c.isDigit = true) :
    readValue (fuel + 1) (c :: cs) = readNumber (c :: cs) := by
  have other : ∀ d : Char, d ≠ '-' → d.isDigit = false → c ≠ d := by
    rintro d minus digit rfl
    rcases h with rfl | yes
    · exact minus rfl
    · exact Bool.false_ne_true (digit.symm.trans yes)
  have blank : isSpace c = false := by
    simp [isSpace, other ' ' (by decide) (by decide), other '\t' (by decide) (by decide),
      other '\n' (by decide) (by decide), other '\r' (by decide) (by decide)]
  rw [readValue, skipSpace_cons blank]
  split
  · next h => exact absurd (List.cons.inj h).1 (other _ (by decide) (by decide))
  · next h => exact absurd (List.cons.inj h).1 (other _ (by decide) (by decide))
  · next h => exact absurd (List.cons.inj h).1 (other _ (by decide) (by decide))
  · next h => exact absurd (List.cons.inj h).1 (other _ (by decide) (by decide))
  · next h => exact absurd (List.cons.inj h).1 (other _ (by decide) (by decide))
  · next h => exact absurd (List.cons.inj h).1 (other _ (by decide) (by decide))
  · rfl

theorem readBack_null : ReadBack .null := by
  intro fuel rest enough ends
  cases fuel with
  | zero => cases enough
  | succ fuel => simp [chars, readValue, skipSpace, isSpace]

theorem readBack_bool (b : Bool) : ReadBack (.bool b) := by
  intro fuel rest enough ends
  cases fuel with
  | zero => cases b <;> cases enough
  | succ fuel => cases b <;> simp [chars, readValue, skipSpace, isSpace]

theorem readBack_emptyArray : ReadBack (.array []) := by
  intro fuel rest enough ends
  cases fuel with
  | zero => cases enough
  | succ fuel => simp [chars, readValue, skipSpace, isSpace]

theorem readBack_emptyObject : ReadBack (.object []) := by
  intro fuel rest enough ends
  cases fuel with
  | zero => cases enough
  | succ fuel => simp [chars, readValue, skipSpace, isSpace]

theorem readBack_integer {n : Int} (word : InWord n) : ReadBack (.integer n) := by
  intro fuel rest enough ends
  obtain ⟨c, cs, text, head⟩ := integerChars_cons n
  have reads := readNumber_integerChars word ends
  cases fuel with
  | zero => rw [chars, text] at enough; cases enough
  | succ fuel =>
    rw [chars, text, List.cons_append, readValue_number head, ← List.cons_append, ← text, reads]

theorem readBack_string (s : String) : ReadBack (.string (some s)) := by
  intro fuel rest enough ends
  cases fuel with
  | zero => cases enough
  | succ fuel =>
    rw [chars, stringChars_some, List.cons_append, List.append_assoc, List.singleton_append,
      readValue, skipSpace_cons (by decide)]
    simp only [readString_chars]

/-! ### Arrays -/

theorem readItems_last {item : Json} (reads : ReadBack item) {fuel : Nat}
    (enough : item.chars.length ≤ fuel) (rest : List Char) :
    readItems (fuel + 1) (item.chars ++ ']' :: rest) = some ([item], rest) := by
  rw [readItems, reads fuel _ enough (ends_cons (by decide))]
  simp only [skipSpace_cons (show isSpace ']' = false from rfl)]

theorem readItems_next {item : Json} (reads : ReadBack item) {fuel : Nat}
    (enough : item.chars.length ≤ fuel) {items : List Json} {cs rest : List Char}
    (more : readItems fuel cs = some (items, rest)) :
    readItems (fuel + 1) (item.chars ++ ',' :: cs) = some (item :: items, rest) := by
  rw [readItems, reads fuel _ enough (ends_cons (by decide))]
  simp only [skipSpace_cons (show isSpace ',' = false from rfl), more]

theorem readBack_array {item : Json} {items : List Json} (legible : item.Legible)
    (reads : ∀ fuel rest, item.chars.length + (itemsChars items).length ≤ fuel →
      readItems fuel (item.chars ++ itemsChars items ++ rest) = some (item :: items, rest)) :
    ReadBack (.array (item :: items)) := by
  intro fuel rest enough ends
  cases fuel with
  | zero => cases enough
  | succ fuel =>
    obtain ⟨c, cs, text, blank, other⟩ := chars_cons legible
    have reads := reads fuel rest (by
      simp only [chars, List.cons_append, List.length_cons, List.length_append] at enough
      omega)
    rw [chars, List.cons_append, List.cons_append, readValue, skipSpace_cons (by decide)]
    rw [text] at reads ⊢
    simp only [List.cons_append] at reads ⊢
    rw [skipSpace_cons blank]
    split
    · next h => exact absurd (List.cons.inj h).1 other
    · rw [reads]

/-! ### Objects -/

theorem readMembers_last {value : Json} (reads : ReadBack value) (key : String) {fuel : Nat}
    (enough : value.chars.length ≤ fuel) (rest : List Char) :
    readMembers (fuel + 1) (stringChars (some key) ++ ':' :: (value.chars ++ '\x7d' :: rest)) =
      some ([(some key, value)], rest) := by
  rw [stringChars_some, List.cons_append, List.append_assoc, List.singleton_append, readMembers,
    skipSpace_cons (by decide)]
  simp only [readString_chars, skipSpace_cons (show isSpace ':' = false from rfl),
    reads fuel _ enough (ends_cons (.inr (.inr rfl))),
    skipSpace_cons (show isSpace '\x7d' = false from rfl)]

theorem readMembers_next {value : Json} (reads : ReadBack value) (key : String) {fuel : Nat}
    (enough : value.chars.length ≤ fuel) {members : List (Option String × Json)}
    {cs rest : List Char} (more : readMembers fuel cs = some (members, rest)) :
    readMembers (fuel + 1) (stringChars (some key) ++ ':' :: (value.chars ++ ',' :: cs)) =
      some ((some key, value) :: members, rest) := by
  rw [stringChars_some, List.cons_append, List.append_assoc, List.singleton_append, readMembers,
    skipSpace_cons (by decide)]
  simp only [readString_chars, skipSpace_cons (show isSpace ':' = false from rfl),
    reads fuel _ enough (ends_cons (.inl rfl)),
    skipSpace_cons (show isSpace ',' = false from rfl), more]

theorem readBack_object {key : String} {value : Json} {members : List (Option String × Json)}
    (reads : ∀ fuel rest, value.chars.length + (membersChars members).length ≤ fuel →
      readMembers fuel
          (stringChars (some key) ++ ':' :: (value.chars ++ (membersChars members ++ rest))) =
        some ((some key, value) :: members, rest)) :
    ReadBack (.object ((some key, value) :: members)) := by
  intro fuel rest enough ends
  cases fuel with
  | zero => cases enough
  | succ fuel =>
    have reads := reads fuel rest (by
      simp only [chars, List.cons_append, List.length_cons, List.length_append] at enough
      omega)
    simp only [stringChars_some, List.cons_append, List.append_assoc] at reads
    simp only [chars, stringChars_some, List.cons_append, List.append_assoc]
    rw [readValue, skipSpace_cons (by decide)]
    simp only [skipSpace_cons (show isSpace '"' = false from rfl)]
    split
    · next h => exact absurd (List.cons.inj h).1 (by decide)
    · rw [reads]

/-! ### Trees -/

theorem itemsChars_pos (items : List Json) : 0 < (itemsChars items).length := by
  cases items <;> exact Nat.succ_pos _

theorem membersChars_pos (members : List (Option String × Json)) :
    0 < (membersChars members).length := by
  rcases members with _ | ⟨⟨key, value⟩, members⟩ <;> exact Nat.succ_pos _

mutual

theorem readBack : (j : Json) → j.Legible → ReadBack j
  | .null, _ => readBack_null
  | .bool b, _ => readBack_bool b
  | .integer _, word => readBack_integer word
  | .real _ _ _, absurd => absurd.elim
  | .string (some s), _ => readBack_string s
  | .array [], _ => readBack_emptyArray
  | .array (item :: items), h =>
    readBack_array h.1 (readItems_chars items h.2 item (readBack item h.1))
  | .object [], _ => readBack_emptyObject
  | .object ((some key, value) :: members), h =>
    readBack_object (readMembers_chars members h.2.2 key value (readBack value h.2.1))

/-- The items of an array, where the first one is known to be read back. -/
theorem readItems_chars : (items : List Json) → LegibleItems items → ∀ item, ReadBack item →
    ∀ fuel rest, item.chars.length + (itemsChars items).length ≤ fuel →
      readItems fuel (item.chars ++ itemsChars items ++ rest) = some (item :: items, rest)
  | items, legible, item, reads, fuel, rest, enough => by
    have := itemsChars_pos items
    obtain ⟨fuel, rfl⟩ : ∃ more, fuel = more + 1 := ⟨fuel - 1, by omega⟩
    cases items with
    | nil =>
      rw [itemsChars, List.append_assoc]
      exact readItems_last reads (by omega) rest
    | cons next items =>
      have more := readItems_chars items legible.2 next (readBack next legible.1) fuel rest
        (by rw [itemsChars, List.length_append, List.length_cons] at enough; omega)
      rw [itemsChars, List.append_assoc]
      exact readItems_next reads (by omega) more

theorem readMembers_chars : (members : List (Option String × Json)) → LegibleMembers members →
    ∀ key value, ReadBack value → ∀ fuel rest,
      value.chars.length + (membersChars members).length ≤ fuel →
        readMembers fuel
            (stringChars (some key) ++ ':' :: (value.chars ++ (membersChars members ++ rest))) =
          some ((some key, value) :: members, rest)
  | members, legible, key, value, reads, fuel, rest, enough => by
    have := membersChars_pos members
    obtain ⟨fuel, rfl⟩ : ∃ more, fuel = more + 1 := ⟨fuel - 1, by omega⟩
    rcases members with _ | ⟨⟨_ | next, other⟩, members⟩
    · exact readMembers_last reads key (by omega) rest
    · cases legible.1
    · have more := readMembers_chars members legible.2.2 next other (readBack other legible.2.1)
        fuel rest (by
          simp only [membersChars, List.length_append, List.length_cons] at enough
          omega)
      rw [membersChars]
      simp only [List.cons_append, List.append_assoc] at more ⊢
      exact readMembers_next reads key (by omega) more

end

/-- Reading the text of a value gives the value again. -/
theorem parse?_render {j : Json} (legible : j.Legible) : parse? j.render = some j := by
  have reads := readBack j legible (2 * j.chars.length + 2) [] (by omega) ends_nil
  rw [List.append_nil] at reads
  simp [parse?, render, ofChars?, reads, skipSpace]

end Candlestick.Json
