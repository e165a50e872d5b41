import Candlestick.Amount
import Candlestick.Instant
import Candlestick.Market

/-!
# Deals

An executed trade, first as the feed reports it, with every value a text, then validated.
Validation looks at the identifier, the market, the price and the amount, in this order, and
reports the first that fails.
-/

namespace Candlestick

structure DealRecord where
  id : String
  market : String
  price : String
  amount : String
  createdAt : Instant
  takerOrderId : String
  makerOrderId : String
  isBuyerMaker : Bool
  deriving DecidableEq

structure Deal where
  id : DealId
  market : Market
  price : Price
  amount : Quantity
  createdAt : Instant
  takerOrderId : String
  makerOrderId : String
  isBuyerMaker : Bool
  deriving DecidableEq

inductive Side where
  | buy
  | sell
  deriving DecidableEq

inductive DealError where
  | emptyId
  | emptyMarket (dealId : String)
  | invalidPrice (dealId : String) (cause : DecimalError)
  | invalidAmount (dealId : String) (cause : DecimalError)
  deriving DecidableEq

def DealError.message : DealError → String
  | .emptyId => "deal id is empty"
  | .emptyMarket dealId => "market is empty for deal " ++ dealId
  | .invalidPrice dealId cause => "invalid price for deal " ++ dealId ++ ": " ++ cause.message
  | .invalidAmount dealId cause => "invalid amount for deal " ++ dealId ++ ": " ++ cause.message

def DealRecord.hasOrderIds (r : DealRecord) : Bool :=
  !r.takerOrderId.isEmpty && !r.makerOrderId.isEmpty

namespace Deal

def takerSide (d : Deal) : Side := if d.isBuyerMaker then .sell else .buy

def ofRecord (r : DealRecord) : Except DealError Deal :=
  match DealId.ofText? r.id with
  | none => .error .emptyId
  | some id =>
    match Market.ofSymbol? r.market with
    | none => .error (.emptyMarket r.id)
    | some market =>
      match Price.parse r.price with
      | .error cause => .error (.invalidPrice r.id cause)
      | .ok price =>
        match Quantity.parse r.amount with
        | .error cause => .error (.invalidAmount r.id cause)
        | .ok amount =>
          .ok ⟨id, market, price, amount, r.createdAt, r.takerOrderId, r.makerOrderId,
            r.isBuyerMaker⟩

end Deal

end Candlestick
