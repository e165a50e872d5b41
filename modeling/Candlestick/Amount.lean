import Candlestick.Decimal.Checked

/-!
# Prices and quantities

Two kinds of decimal that are never mixed. Reading one from a text refuses a negative value;
a value that comes from elsewhere may be negative.
-/

namespace Candlestick

structure Price where
  decimal : Decimal
  deriving DecidableEq

structure Quantity where
  decimal : Decimal
  deriving DecidableEq

/-- The decimal of a text, refused where it is negative. -/
def Decimal.parseUnsigned (input : String) : Except DecimalError Decimal :=
  match Decimal.parse input with
  | .ok d => if d.isNegative then .error (.negative input) else .ok d
  | .error e => .error e

theorem Decimal.parseUnsigned_nonneg {input : String} {d : Decimal}
    (h : Decimal.parseUnsigned input = .ok d) : 0 ≤ d.coefficient := by
  unfold Decimal.parseUnsigned at h
  cases hp : Decimal.parse input with
  | error e => rw [hp] at h; cases h
  | ok p =>
    rw [hp] at h
    by_cases hn : p.isNegative
    · simp [hn] at h
    · simp only [hn] at h
      cases h
      simpa [Decimal.isNegative] using hn

namespace Price

def ofDecimal? (d : Decimal) : Option Price :=
  if d.isNegative then none else some ⟨d⟩

def parse (input : String) : Except DecimalError Price :=
  (Decimal.parseUnsigned input).map Price.mk

def order (a b : Price) : Ordering := a.decimal.order b.decimal

def SameValue (a b : Price) : Prop := a.decimal.SameValue b.decimal

instance (a b : Price) : Decidable (a.SameValue b) :=
  inferInstanceAs (Decidable (a.decimal.SameValue b.decimal))

def render (p : Price) : String := p.decimal.render

end Price

namespace Quantity

def zero : Quantity := ⟨.zero⟩

instance : Inhabited Quantity := ⟨zero⟩

def ofDecimal? (d : Decimal) : Option Quantity :=
  if d.isNegative then none else some ⟨d⟩

def parse (input : String) : Except DecimalError Quantity :=
  (Decimal.parseUnsigned input).map Quantity.mk

def isZero (q : Quantity) : Bool := q.decimal.isZero

def add (a b : Quantity) : Except DecimalError Quantity :=
  (a.decimal.add b.decimal).map Quantity.mk

def SameValue (a b : Quantity) : Prop := a.decimal.SameValue b.decimal

instance (a b : Quantity) : Decidable (a.SameValue b) :=
  inferInstanceAs (Decidable (a.decimal.SameValue b.decimal))

def render (q : Quantity) : String := q.decimal.render

theorem add_eq_ok_iff {a b c : Quantity} :
    a.add b = .ok c ↔ a.decimal.add? b.decimal = some c.decimal := by
  unfold add
  rw [← Decimal.add_eq_ok_iff]
  cases a.decimal.add b.decimal with
  | error e => simp [Except.map]
  | ok d =>
    simp only [Except.map, Except.ok.injEq]
    constructor
    · intro h; exact h ▸ rfl
    · intro h; cases c; cases h; rfl

end Quantity

end Candlestick
