import Candlestick.Deal.Wire
import Candlestick.Event
import Candlestick.Proofs.Decimal.Text
import Candlestick.Proofs.Json.Text

/-!
# The formats read back

What is written of a candle, an event, a deal or a record is read back as it was, every
decimal digit for digit, and written again as the same text. A zero with a sign is the
exception: it is read as the plain zero.
-/

namespace Candlestick

structure Format (α : Type) where
  encode : α → Json
  decode? : Json → Option α

namespace Format

variable {α : Type}

def write (format : Format α) (value : α) : String := (format.encode value).render

def read? (format : Format α) (text : String) : Option α :=
  (Json.parse? text).bind format.decode?

/-- The text of a value is read as that value, and what is read of it is written as the
same text. -/
def ReadsBack (format : Format α) (value : α) : Prop :=
  format.read? (format.write value) = some value ∧
    (format.read? (format.write value)).map format.write = some (format.write value)

theorem readsBack {format : Format α} {value : α} (legible : (format.encode value).Legible)
    (decodes : format.decode? (format.encode value) = some value) :
    format.ReadsBack value := by
  have read : format.read? (format.write value) = some value := by
    rw [read?, write, Json.parse?_render legible, Option.bind_some, decodes]
  exact ⟨read, by rw [read, Option.map_some]⟩

end Format

/-! ## Objects -/

theorem Json.legible_ofMembers {members : List (String × Json)}
    (legible : ∀ member ∈ members, member.2.Legible) : (Json.ofMembers members).Legible := by
  induction members with
  | nil => trivial
  | cons member members ih =>
    exact ⟨rfl, legible member List.mem_cons_self,
      ih fun other mem => legible other (List.mem_cons_of_mem _ mem)⟩

theorem Json.legible_ofText (s : String) : (Json.ofText s).Legible := rfl

namespace Row

theorem named?_some (members : List (String × Json)) :
    named? (members.map fun member => (some member.1, member.2)) = some members := by
  induction members with
  | nil => rfl
  | cons member members ih => simp [named?, ih]

theorem ofJson?_ofMembers {fields : List String} {members : List (String × Json)}
    (keys : members.map Prod.fst = fields) (nodup : fields.Nodup) :
    ofJson? fields (.ofMembers members) = some ⟨false, members⟩ := by
  have known : members.filter (fun member => fields.contains member.1) = members := by
    rw [List.filter_eq_self]
    intro member mem
    exact List.contains_iff_mem.mpr (keys ▸ List.mem_map_of_mem mem)
  simp only [ofJson?, Json.ofMembers, named?_some, known, keys, nodup, if_true]

variable {α : Type}

def ofCell? (decode : Json → Option α) : Json → Option (Option α)
  | .null => some none
  | j => (decode j).map some

theorem nullable_eq (row : Row) (field : String) (decode : Json → Option α) :
    row.nullable field decode =
      match row.cell? field with
      | some j => ofCell? decode j
      | none => if row.positional then none else some none := by
  unfold nullable
  cases row.cell? field with
  | none => rfl
  | some j => cases j <;> rfl

end Row

/-! ## Single values -/

theorem Decimal.ofJson?_toJson {d : Decimal} (plain : d.Plain) : ofJson? d.toJson = some d := by
  simp only [ofJson?, toJson, Json.ofText, Json.text?, Option.bind_some, render,
    String.toList_ofList, readLenient?_digits plain]

theorem Price.ofJson?_toJson {p : Price} (plain : p.decimal.Plain) :
    ofJson? p.toJson = some p := by
  rw [ofJson?, toJson, Decimal.ofJson?_toJson plain]
  rfl

theorem Quantity.ofJson?_toJson {q : Quantity} (plain : q.decimal.Plain) :
    ofJson? q.toJson = some q := by
  rw [ofJson?, toJson, Decimal.ofJson?_toJson plain]
  rfl

theorem Instant.legible_toJson (t : Instant) : t.toJson.Legible :=
  ⟨t.lower, by have := t.upper; omega⟩

/-! ## Candles -/

namespace Candle

def decimals (c : Candle) : List Decimal :=
  ([c.open, c.high, c.low, c.close].filterMap id).map Price.decimal ++ [c.volume.decimal]

def Plain (c : Candle) : Prop := ∀ d ∈ c.decimals, d.Plain

instance (c : Candle) : Decidable c.Plain := inferInstanceAs (Decidable (∀ d ∈ c.decimals, d.Plain))

def format : Format Candle := ⟨toJson, ofJson?⟩

theorem legible_priceToJson (p : Option Price) : (priceToJson p).Legible := by
  cases p <;> trivial

theorem legible_toJson (c : Candle) : c.toJson.Legible := by
  refine Json.legible_ofMembers ?_
  simp [Market.toJson, Resolution.toJson, Instant.legible_toJson, legible_priceToJson,
    Quantity.toJson, Decimal.toJson, Json.legible_ofText]

theorem ofCell?_priceToJson {p : Option Price} (plain : ∀ q ∈ p, q.decimal.Plain) :
    Row.ofCell? Price.ofJson? (priceToJson p) = some p := by
  cases p with
  | none => rfl
  | some p => exact congrArg (Option.map some) (Price.ofJson?_toJson (plain p rfl))

theorem Plain.price {c : Candle} (plain : c.Plain) {p : Option Price}
    (mem : p ∈ [c.open, c.high, c.low, c.close]) : ∀ q ∈ p, q.decimal.Plain := by
  rintro q rfl
  refine plain _ (List.mem_append_left _ (List.mem_map_of_mem ?_))
  exact List.mem_filterMap.mpr ⟨_, mem, rfl⟩

theorem Plain.volume {c : Candle} (plain : c.Plain) : c.volume.decimal.Plain :=
  plain _ (List.mem_append_right _ (List.mem_singleton.mpr rfl))

theorem ofJson?_toJson {c : Candle} (plain : c.Plain) : ofJson? c.toJson = some c := by
  have opens := ofCell?_priceToJson (plain.price (p := c.open) (by simp))
  have high := ofCell?_priceToJson (plain.price (p := c.high) (by simp))
  have low := ofCell?_priceToJson (plain.price (p := c.low) (by simp))
  have close := ofCell?_priceToJson (plain.price (p := c.close) (by simp))
  rw [ofJson?, toJson, @Row.ofJson?_ofMembers fields _ rfl (by decide)]
  simp [Row.required, Row.nullable_eq, Row.cell?, List.lookup_cons, Market.ofJson?_toJson,
    Resolution.ofJson?_toJson, Instant.ofJson?_toJson, opens, high, low, close,
    Quantity.ofJson?_toJson plain.volume]

theorem readsBack {c : Candle} (plain : c.Plain) : format.ReadsBack c :=
  Format.readsBack c.legible_toJson (ofJson?_toJson plain)

end Candle

/-! ## Events -/

theorem EventKind.ofJson?_name (kind : EventKind) : ofJson? (.ofText kind.name) = some kind := by
  cases kind <;> decide

namespace Event

def format : Format Event := ⟨toJson, ofJson?⟩

theorem legible_toJson (e : Event) : e.toJson.Legible := by
  refine Json.legible_ofMembers ?_
  simp [Json.legible_ofText, Candle.legible_toJson]

theorem ofJson?_toJson {e : Event} (plain : e.candle.Plain) : ofJson? e.toJson = some e := by
  have named := Row.named?_some [("kind", .ofText e.kind.name), ("candle", e.candle.toJson)]
  have known : ([("kind", .ofText e.kind.name), ("candle", e.candle.toJson)] :
      List (String × Json)).filter (fun member => ["kind", "candle"].contains member.1) =
        [("kind", .ofText e.kind.name), ("candle", e.candle.toJson)] := by simp
  rw [toJson, Json.ofMembers, ofJson?, named]
  simp only [known, ofMembers?, EventKind.ofJson?_name, Candle.ofJson?_toJson plain,
    Option.bind_eq_bind, Option.bind_some, Option.pure_def, ofKind_kind_candle]

theorem readsBack {e : Event} (plain : e.candle.Plain) : format.ReadsBack e :=
  Format.readsBack e.legible_toJson (ofJson?_toJson plain)

end Event

/-! ## Deals -/

namespace Deal

def format : Format Deal := ⟨toJson, ofJson?⟩

def Plain (d : Deal) : Prop := d.price.decimal.Plain ∧ d.amount.decimal.Plain

instance (d : Deal) : Decidable d.Plain := inferInstanceAs (Decidable (_ ∧ _))

theorem legible_toJson (d : Deal) : d.toJson.Legible := by
  refine Json.legible_ofMembers ?_
  simp [Market.toJson, Instant.legible_toJson, Price.toJson, Quantity.toJson, Decimal.toJson,
    Json.legible_ofText, Json.Legible]

theorem ofJson?_toJson {d : Deal} (plain : d.Plain) : ofJson? d.toJson = some d := by
  rw [ofJson?, toJson, @Row.ofJson?_ofMembers fields _ rfl (by decide)]
  simp [Row.required, Row.cell?, List.lookup_cons, Json.ofText, Json.text?, Json.bool?,
    Market.ofJson?_toJson, Instant.ofJson?_toJson, Price.ofJson?_toJson plain.1,
    Quantity.ofJson?_toJson plain.2]

theorem readsBack {d : Deal} (plain : d.Plain) : format.ReadsBack d :=
  Format.readsBack d.legible_toJson (ofJson?_toJson plain)

end Deal

namespace DealRecord

def format : Format DealRecord := ⟨toJson, ofJson?⟩

theorem legible_toJson (r : DealRecord) : r.toJson.Legible := by
  refine Json.legible_ofMembers ?_
  simp [Instant.legible_toJson, Json.legible_ofText, Json.Legible]

theorem ofJson?_toJson (r : DealRecord) : ofJson? r.toJson = some r := by
  rw [ofJson?, toJson, @Row.ofJson?_ofMembers fields _ rfl (by decide)]
  simp [Row.required, Row.withDefault, Row.cell?, List.lookup_cons, Json.ofText, Json.text?,
    Json.bool?, Instant.ofJson?_toJson]

theorem readsBack (r : DealRecord) : format.ReadsBack r :=
  Format.readsBack r.legible_toJson r.ofJson?_toJson

end DealRecord

/-! ## All formats -/

/-- Candles, events, deals and records are read back from their texts: all of them but those
that hold a zero with a sign. -/
theorem formats_read_back :
    (∀ c : Candle, c.Plain → Candle.format.ReadsBack c) ∧
    (∀ e : Event, e.candle.Plain → Event.format.ReadsBack e) ∧
    (∀ d : Deal, d.Plain → Deal.format.ReadsBack d) ∧
    (∀ r : DealRecord, DealRecord.format.ReadsBack r) :=
  ⟨fun _ => Candle.readsBack, fun _ => Event.readsBack, fun _ => Deal.readsBack,
    DealRecord.readsBack⟩

def oddText : String := "\"\\\n\x01\x7fé𝄞"

/-- A candle from the first instant to the last; two of its prices are absent, the others are
the lowest decimal and one with zeros at the end. -/
def oddCandle : Candle where
  market := ⟨oddText⟩
  resolution := .month1
  openTime := .first
  closeTime := .last
  «open» := none
  high := (Decimal.ofParts? (-5000) 28).map Price.mk
  low := (Decimal.ofParts? (1 - coefficientLimit) 0).map Price.mk
  close := none
  volume := .zero

def oddDeal : Deal where
  id := ⟨oddText⟩
  market := ⟨oddText⟩
  price := ⟨.zero⟩
  amount := .zero
  createdAt := .first
  takerOrderId := ""
  makerOrderId := oddText
  isBuyerMaker := true

theorem odd_values_read_back :
    oddCandle.Plain ∧ oddDeal.Plain ∧
    (oddCandle.high.map Price.render, oddCandle.low.map Price.render) =
      (some "-0.0000000000000000000000005000", some "-79228162514264337593543950335") ∧
    Candle.format.ReadsBack oddCandle ∧ Event.format.ReadsBack (.closed oddCandle) ∧
    Deal.format.ReadsBack oddDeal := by
  have plainCandle : oddCandle.Plain := by decide +kernel
  have plainDeal : oddDeal.Plain := by decide +kernel
  have reads := formats_read_back
  exact ⟨plainCandle, plainDeal, by decide +kernel, reads.1 _ plainCandle,
    reads.2.1 (.closed oddCandle) plainCandle, reads.2.2.1 _ plainDeal⟩

end Candlestick
