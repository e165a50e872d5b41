import Candlestick.Deal.Basic
import Candlestick.Json.Scalar

/-!
# Deals in JSON

The feed's record names its fields in camel case and may leave out the last three; a deal
names them with underscores and has them all.
-/

namespace Candlestick

namespace DealRecord

def fields : List String :=
  ["id", "market", "price", "amount", "createdAt", "takerOrderId", "makerOrderId", "isBuyerMaker"]

def toJson (r : DealRecord) : Json :=
  .ofMembers [
    ("id", .ofText r.id),
    ("market", .ofText r.market),
    ("price", .ofText r.price),
    ("amount", .ofText r.amount),
    ("createdAt", r.createdAt.toJson),
    ("takerOrderId", .ofText r.takerOrderId),
    ("makerOrderId", .ofText r.makerOrderId),
    ("isBuyerMaker", .bool r.isBuyerMaker)]

def ofJson? (j : Json) : Option DealRecord := do
  let row ← Row.ofJson? fields j
  let id ← row.required "id" Json.text?
  let market ← row.required "market" Json.text?
  let price ← row.required "price" Json.text?
  let amount ← row.required "amount" Json.text?
  let createdAt ← row.required "createdAt" Instant.ofJson?
  let takerOrderId ← row.withDefault "takerOrderId" "" Json.text?
  let makerOrderId ← row.withDefault "makerOrderId" "" Json.text?
  let isBuyerMaker ← row.withDefault "isBuyerMaker" false Json.bool?
  return ⟨id, market, price, amount, createdAt, takerOrderId, makerOrderId, isBuyerMaker⟩

end DealRecord

namespace Deal

def fields : List String :=
  ["id", "market", "price", "amount", "created_at", "taker_order_id", "maker_order_id",
    "is_buyer_maker"]

def toJson (d : Deal) : Json :=
  .ofMembers [
    ("id", .ofText d.id.text),
    ("market", d.market.toJson),
    ("price", d.price.toJson),
    ("amount", d.amount.toJson),
    ("created_at", d.createdAt.toJson),
    ("taker_order_id", .ofText d.takerOrderId),
    ("maker_order_id", .ofText d.makerOrderId),
    ("is_buyer_maker", .bool d.isBuyerMaker)]

def ofJson? (j : Json) : Option Deal := do
  let row ← Row.ofJson? fields j
  let id ← row.required "id" Json.text?
  let market ← row.required "market" Market.ofJson?
  let price ← row.required "price" Price.ofJson?
  let amount ← row.required "amount" Quantity.ofJson?
  let createdAt ← row.required "created_at" Instant.ofJson?
  let takerOrderId ← row.required "taker_order_id" Json.text?
  let makerOrderId ← row.required "maker_order_id" Json.text?
  let isBuyerMaker ← row.required "is_buyer_maker" Json.bool?
  return ⟨⟨id⟩, market, price, amount, createdAt, takerOrderId, makerOrderId, isBuyerMaker⟩

end Deal

namespace Side

def name : Side → String
  | buy => "BUY"
  | sell => "SELL"

def toJson (s : Side) : Json := .ofText s.name

def ofJson? (j : Json) : Option Side :=
  match j.caseName? with
  | some name => [buy, sell].find? fun s => s.name = name
  | none => none

end Side

end Candlestick
