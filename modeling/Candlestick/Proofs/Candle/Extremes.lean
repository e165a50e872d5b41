import Candlestick.Candle.Basic
import Candlestick.Proofs.Decimal.Order

/-!
# Highs and lows

The high of a candle is the furthest price in the candle order, the low the furthest one in
its reverse. What holds of both is stated for any order (`further`, `IsExtreme`).
-/

namespace Candlestick

namespace Price

abbrev downward (a b : Price) : Ordering := b.order a

instance : Std.TransCmp downward :=
  show Std.TransCmp fun a b => order b a from Std.TransCmp.opposite

/-- A price of a list that none of it is beyond. -/
def IsExtreme (cmp : Price → Price → Ordering) (p : Price) (prices : List Price) : Prop :=
  p ∈ prices ∧ ∀ q ∈ prices, (cmp q p).isLE

/-- The price that is further, and of two that rank alike the one that was held. -/
def further (cmp : Price → Price → Ordering) (held : Option Price) (price : Price) : Price :=
  match held with
  | some held => if cmp price held = .gt then price else held
  | none => price

/-- The extreme of the prices so far, none where there are none. -/
def Holds (cmp : Price → Price → Ordering) (held : Option Price) (prices : List Price) : Prop :=
  match held with
  | some held => IsExtreme cmp held prices
  | none => prices = []

section
variable (cmp : Price → Price → Ordering)

theorem further_cases (held : Option Price) (price : Price) :
    further cmp held price ∈ held ∨ further cmp held price = price := by
  unfold further
  split
  · split
    · exact .inr rfl
    · exact .inl rfl
  · exact .inr rfl

variable [Std.TransCmp cmp]

theorem le_further (held : Option Price) (price : Price) :
    (cmp price (further cmp held price)).isLE := by
  unfold further
  split
  · split
    · exact Std.ReflCmp.isLE_rfl
    · next within => exact Ordering.isLE_iff_ne_gt.mpr within
  · exact Std.ReflCmp.isLE_rfl

theorem le_further_of_le {held p : Price} (price : Price) (le : (cmp p held).isLE) :
    (cmp p (further cmp (some held) price)).isLE := by
  unfold further
  dsimp only
  split
  · next beyond =>
    have below : cmp held price = .lt := Std.OrientedCmp.gt_iff_lt.mp beyond
    exact Std.TransCmp.isLE_trans le (by rw [below]; rfl)
  · exact le

end

section
variable {cmp : Price → Price → Ordering} {held carried : Option Price} {p q : Price}
  {prices more : List Price}

theorem Holds.exists_extreme (h : Holds cmp held prices) (nonempty : prices ≠ []) :
    ∃ p, held = some p ∧ IsExtreme cmp p prices := by
  cases held with
  | none => exact absurd h nonempty
  | some p => exact ⟨p, rfl, h⟩

variable [Std.TransCmp cmp]

theorem isExtreme_singleton (p : Price) : IsExtreme cmp p [p] :=
  ⟨List.mem_singleton_self p, fun q hq => by
    rw [List.mem_singleton.mp hq]
    exact Std.ReflCmp.isLE_rfl⟩

theorem IsExtreme.order_eq (h : IsExtreme cmp p prices) (h' : IsExtreme cmp q more)
    (same : ∀ r, r ∈ prices ↔ r ∈ more) : cmp p q = .eq :=
  Std.OrientedCmp.isLE_antisymm (h'.2 p ((same p).mp h.1)) (h.2 q ((same q).mpr h'.1))

theorem holds_toList (held : Option Price) : Holds cmp held held.toList := by
  cases held with
  | none => rfl
  | some p => exact isExtreme_singleton p

theorem holds_of_cases (flat : more = [] → held = carried)
    (traded : more ≠ [] → ∃ p, held = some p ∧ IsExtreme cmp p (carried.toList ++ more)) :
    Holds cmp held (carried.toList ++ more) := by
  by_cases none : more = []
  · rw [flat none, none, List.append_nil]
    exact holds_toList carried
  · obtain ⟨p, rfl, extreme⟩ := traded none
    exact extreme

theorem Holds.further (h : Holds cmp held prices) (price : Price) :
    IsExtreme cmp (further cmp held price) (prices ++ [price]) := by
  cases held with
  | none =>
    rw [show prices = [] from h]
    exact isExtreme_singleton price
  | some held =>
    obtain ⟨mem, beyond⟩ := h
    refine ⟨?_, fun q hq => ?_⟩
    · rcases further_cases cmp (some held) price with old | new
      · rw [← Option.mem_some_iff.mp old]
        exact List.mem_append_left _ mem
      · rw [new]
        exact List.mem_append_right _ (List.mem_singleton_self price)
    · rcases List.mem_append.mp hq with earlier | last
      · exact le_further_of_le cmp price (beyond q earlier)
      · rw [List.mem_singleton.mp last]
        exact le_further cmp (some held) price

end

end Price

namespace Candle

theorem lower_eq (low : Option Price) (price : Price) :
    lower low price = Price.further Price.downward low price := by
  cases low with
  | none => rfl
  | some low =>
    have turned : price.order low = .lt ↔ Price.downward price low = .gt :=
      Std.OrientedCmp.gt_iff_lt.symm
    simp only [lower, Price.further, turned]

theorem raise_cases (high : Option Price) (price : Price) :
    raise high price ∈ high ∨ raise high price = price :=
  Price.further_cases Price.order high price

theorem lower_cases (low : Option Price) (price : Price) :
    lower low price ∈ low ∨ lower low price = price := by
  rw [lower_eq]
  exact Price.further_cases Price.downward low price

theorem order_raise (high : Option Price) (price : Price) :
    (price.order (raise high price)).isLE :=
  Price.le_further Price.order high price

theorem order_lower (low : Option Price) (price : Price) :
    ((lower low price).order price).isLE := by
  rw [lower_eq]
  exact Price.le_further Price.downward low price

theorem order_raise_of_isLE {high p : Price} (price : Price) (h : (p.order high).isLE) :
    (p.order (raise (some high) price)).isLE :=
  Price.le_further_of_le Price.order price h

theorem order_lower_of_isLE {low p : Price} (price : Price) (h : (low.order p).isLE) :
    ((lower (some low) price).order p).isLE := by
  rw [lower_eq]
  exact Price.le_further_of_le Price.downward price h

end Candle

end Candlestick
