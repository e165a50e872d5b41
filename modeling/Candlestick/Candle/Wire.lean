import Candlestick.Candle.Basic
import Candlestick.Json.Scalar

/-!
# Candles in JSON

An absent price is written as `null` and may be left out when read.
-/

namespace Candlestick.Candle

def fields : List String :=
  ["market", "resolution", "open_time", "close_time", "open", "high", "low", "close", "volume"]

def priceToJson : Option Price → Json
  | some p => p.toJson
  | none => .null

def toJson (c : Candle) : Json :=
  .ofMembers [
    ("market", c.market.toJson),
    ("resolution", c.resolution.toJson),
    ("open_time", c.openTime.toJson),
    ("close_time", c.closeTime.toJson),
    ("open", priceToJson c.open),
    ("high", priceToJson c.high),
    ("low", priceToJson c.low),
    ("close", priceToJson c.close),
    ("volume", c.volume.toJson)]

def ofJson? (j : Json) : Option Candle := do
  let row ← Row.ofJson? fields j
  let market ← row.required "market" Market.ofJson?
  let resolution ← row.required "resolution" Resolution.ofJson?
  let openTime ← row.required "open_time" Instant.ofJson?
  let closeTime ← row.required "close_time" Instant.ofJson?
  let openPrice ← row.nullable "open" Price.ofJson?
  let high ← row.nullable "high" Price.ofJson?
  let low ← row.nullable "low" Price.ofJson?
  let close ← row.nullable "close" Price.ofJson?
  let volume ← row.required "volume" Quantity.ofJson?
  return ⟨market, resolution, openTime, closeTime, openPrice, high, low, close, volume⟩

end Candlestick.Candle
