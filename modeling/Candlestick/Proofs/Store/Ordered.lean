import Candlestick.Deal.Basic
import Candlestick.Proofs.Calendar.Steady
import Candlestick.Proofs.Candle.Extremes
import Candlestick.Proofs.Decimal.Total
import Candlestick.Proofs.Store.Invariant

/-!
# Candles between a low and a high

A candle has no prices and no volume, or its open and its close lie between its low and its
high in the candle order (`Candle.Ranged`). A fold can only widen the range, which needs the
order to be transitive: the high may come from the close of the bucket before, written with
other digits than the price that is folded.
-/

namespace Candlestick

namespace Candle

/-- Either no prices and no volume, or all four prices, the low not above and the high
not below the open and the close. -/
def Ranged (c : Candle) : Prop :=
  (c.open = none ∧ c.high = none ∧ c.low = none ∧ c.close = none ∧ c.volume = .zero) ∨
    ∃ first high low last : Price,
      c.open = some first ∧ c.high = some high ∧ c.low = some low ∧ c.close = some last ∧
        (low.order first).isLE ∧ (low.order last).isLE ∧
        (first.order high).isLE ∧ (last.order high).isLE

def NonNegative (c : Candle) : Prop :=
  (∀ p : Price, c.open = some p ∨ c.high = some p ∨ c.low = some p ∨ c.close = some p →
    0 ≤ p.decimal.coefficient) ∧ 0 ≤ c.volume.decimal.coefficient

theorem ranged_fresh (market : Market) (r : Resolution) (calendar : Calendar) (now : Instant) :
    (fresh market r calendar now).Ranged :=
  .inl ⟨rfl, rfl, rfl, rfl, rfl⟩

theorem ranged_flatAfter (c : Candle) (calendar : Calendar) (now : Instant) :
    (c.flatAfter calendar now).Ranged := by
  cases close : c.close with
  | none => exact .inl ⟨close, close, close, close, rfl⟩
  | some p =>
    have self : (p.order p).isLE := Std.ReflCmp.isLE_rfl
    exact .inr ⟨p, p, p, p, close, close, close, close, self, self, self, self⟩

theorem Ranged.fold {c folded : Candle} {price : Price} {amount : Quantity} (ranged : c.Ranged)
    (h : c.fold price amount = .ok folded) : folded.Ranged := by
  have above := order_raise c.high price
  have below := order_lower c.low price
  unfold Candle.fold at h
  split at h
  · cases h
  · cases h
    by_cases untraded : c.volume.isZero = true
    · exact .inr ⟨price, _, _, price, if_pos untraded, rfl, rfl, rfl, below, below, above, above⟩
    · rcases ranged with ⟨-, -, -, -, volume⟩ | ⟨first, high, low, last, opened, h, l, -, order⟩
      · exact absurd (volume ▸ rfl) untraded
      · rw [h] at above
        rw [l] at below
        refine .inr ⟨first, raise (some high) price, lower (some low) price, price,
          (if_neg untraded).trans opened, congrArg (fun p => some (raise p price)) h,
          congrArg (fun p => some (lower p price)) l, rfl, ?_, below, ?_, above⟩
        · exact order_lower_of_isLE price order.1
        · exact order_raise_of_isLE price order.2.2.1

end Candle

-- ---------------------------------------------------------------------------
-- Negative values
-- ---------------------------------------------------------------------------

def Deal.NonNegative (d : Deal) : Prop :=
  0 ≤ d.price.decimal.coefficient ∧ 0 ≤ d.amount.decimal.coefficient

/-- The deal of a record has no negative values: its texts are refused where they stand
for one. -/
theorem Deal.nonNegative_of_ofRecord {r : DealRecord} {d : Deal} (h : ofRecord r = .ok d) :
    d.NonNegative := by
  have unsigned : ∀ {α : Type} {input : String} {value : α} {make : Decimal → α},
      (Decimal.parseUnsigned input).map make = .ok value →
        ∃ decimal, make decimal = value ∧ 0 ≤ decimal.coefficient := by
    intro α input value make parsed
    cases read : Decimal.parseUnsigned input with
    | error e =>
      rw [read] at parsed
      cases parsed
    | ok decimal =>
      rw [read] at parsed
      exact ⟨decimal, Except.ok.inj parsed, Decimal.parseUnsigned_nonneg read⟩
  unfold ofRecord at h
  split at h
  · cases h
  · split at h
    · cases h
    · split at h
      · cases h
      · next price parsedPrice =>
        split at h
        · cases h
        · next amount parsedAmount =>
          cases h
          obtain ⟨p, rfl, hp⟩ := unsigned parsedPrice
          obtain ⟨a, rfl, ha⟩ := unsigned parsedAmount
          exact ⟨hp, ha⟩

namespace Candle

theorem nonNegative_fresh (market : Market) (r : Resolution) (calendar : Calendar)
    (now : Instant) : (fresh market r calendar now).NonNegative := by
  refine ⟨fun p h => ?_, Int.le_refl 0⟩
  rcases h with h | h | h | h <;> cases h

theorem NonNegative.flatAfter {c : Candle} (h : c.NonNegative) (calendar : Calendar)
    (now : Instant) : (c.flatAfter calendar now).NonNegative := by
  refine ⟨fun p same => h.1 p (.inr (.inr (.inr ?_))), Int.le_refl 0⟩
  rcases same with same | same | same | same <;> exact same

theorem NonNegative.fold {c folded : Candle} {d : Deal} (h : c.NonNegative)
    (deal : d.NonNegative) (hf : c.fold d.price d.amount = .ok folded) : folded.NonNegative := by
  obtain ⟨prices, volume⟩ := h
  unfold Candle.fold at hf
  split at hf
  · cases hf
  · next sum added =>
    cases hf
    refine ⟨fun p same => ?_, Decimal.add?_nonneg volume deal.2 (Quantity.add_eq_ok_iff.mp added)⟩
    rcases same with same | same | same | same
    · dsimp only at same
      split at same
      · cases same
        exact deal.1
      · exact prices p (.inl same)
    · cases same
      rcases raise_cases c.high d.price with old | new
      · exact prices _ (.inr (.inl old))
      · rw [new]
        exact deal.1
    · cases same
      rcases lower_cases c.low d.price with old | new
      · exact prices _ (.inr (.inr (.inl old)))
      · rw [new]
        exact deal.1
    · cases same
      exact deal.1

end Candle

-- ---------------------------------------------------------------------------
-- What a store keeps
-- ---------------------------------------------------------------------------

theorem ranged_keptByStore (calendar : Calendar) :
    KeptByStore calendar (fun _ => True) fun c => c.Aligned calendar ∧ c.Ranged where
  fresh market r now := ⟨Candle.aligned_fresh market r calendar now, Candle.ranged_fresh ..⟩
  flat c now _ := ⟨Candle.aligned_flatAfter c calendar now, Candle.ranged_flatAfter ..⟩
  fold _ _ _ before _ h := ⟨before.1.fold h, before.2.fold h⟩

theorem nonNegative_keptByStore (calendar : Calendar) :
    KeptByStore calendar Deal.NonNegative Candle.NonNegative where
  fresh market r now := Candle.nonNegative_fresh market r calendar now
  flat _ now before := before.flatAfter calendar now
  fold _ _ _ before deal h := before.fold deal h

end Candlestick
