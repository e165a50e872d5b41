import Candlestick.Amount
import Candlestick.Calendar.Basic
import Candlestick.Market

/-!
# Candles

The prices and the traded volume of one market over one bucket of one resolution. Prices are
absent until one is known. Candles are values: folding a trade gives a new candle.
-/

namespace Candlestick

structure Candle where
  market : Market
  resolution : Resolution
  openTime : Instant
  closeTime : Instant
  «open» : Option Price
  high : Option Price
  low : Option Price
  close : Option Price
  volume : Quantity
  deriving DecidableEq

def SamePrice : Option Price → Option Price → Prop
  | none, none => True
  | some a, some b => a.SameValue b
  | _, _ => False

instance : (a b : Option Price) → Decidable (SamePrice a b)
  | none, none => isTrue trivial
  | some a, some b => inferInstanceAs (Decidable (a.SameValue b))
  | none, some _ => isFalse id
  | some _, none => isFalse id

namespace Candle

def fresh (market : Market) (resolution : Resolution) (calendar : Calendar) (now : Instant) :
    Candle :=
  let openTime := calendar.bucketStart resolution now
  { market, resolution, openTime
    closeTime := calendar.bucketEnd resolution openTime
    «open» := none, high := none, low := none, close := none
    volume := .zero }

/-- The candle without trades that follows `previous` in the bucket that
contains `now`: every price is the last close. -/
def flatAfter (previous : Candle) (calendar : Calendar) (now : Instant) : Candle :=
  { fresh previous.market previous.resolution calendar now with
    «open» := previous.close, high := previous.close, low := previous.close
    close := previous.close }

def contains (c : Candle) (t : Instant) : Bool :=
  c.openTime.nanos ≤ t.nanos && t.nanos < c.closeTime.nanos

def hasEnded (c : Candle) (now : Instant) : Bool := c.closeTime.nanos ≤ now.nanos

/-- The higher one of a high and a price; the high where they are equal. -/
def raise (high : Option Price) (price : Price) : Price :=
  match high with
  | some high => if price.order high = .gt then price else high
  | none => price

def lower (low : Option Price) (price : Price) : Price :=
  match low with
  | some low => if price.order low = .lt then price else low
  | none => price

/-- Folds one trade into a candle. The first trade, as told by a volume of
zero, sets the open. Fails where the volume has no sum. -/
def fold (c : Candle) (price : Price) (amount : Quantity) : Except DecimalError Candle :=
  match c.volume.add amount with
  | .error e => .error e
  | .ok volume =>
    .ok { c with
      «open» := if c.volume.isZero then some price else c.open
      high := some (raise c.high price)
      low := some (lower c.low price)
      close := some price
      volume := volume }

/-- Whether the interval is not empty and the prices are all absent or all
present. -/
def isValid (c : Candle) : Bool :=
  c.openTime.nanos < c.closeTime.nanos &&
    ((c.open.isNone && c.high.isNone && c.low.isNone && c.close.isNone) ||
      (c.open.isSome && c.high.isSome && c.low.isSome && c.close.isSome))

def SameValue (a b : Candle) : Prop :=
  a.market = b.market ∧ a.resolution = b.resolution ∧ a.openTime = b.openTime ∧
    a.closeTime = b.closeTime ∧ SamePrice a.open b.open ∧ SamePrice a.high b.high ∧
    SamePrice a.low b.low ∧ SamePrice a.close b.close ∧ a.volume.SameValue b.volume

instance (a b : Candle) : Decidable (a.SameValue b) :=
  inferInstanceAs (Decidable (_ ∧ _))

theorem SameValue.refl (a : Candle) : a.SameValue a := by
  have h : ∀ p : Option Price, SamePrice p p := by
    intro p
    cases p with
    | none => trivial
    | some p => exact Decimal.SameValue.refl p.decimal
  exact ⟨rfl, rfl, rfl, rfl, h _, h _, h _, h _, Decimal.SameValue.refl _⟩

theorem fold_key {c d : Candle} {price : Price} {amount : Quantity}
    (h : c.fold price amount = .ok d) :
    d.market = c.market ∧ d.resolution = c.resolution ∧ d.openTime = c.openTime ∧
      d.closeTime = c.closeTime := by
  unfold fold at h
  split at h
  · cases h
  · cases h; exact ⟨rfl, rfl, rfl, rfl⟩

end Candle

end Candlestick
