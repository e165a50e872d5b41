import Candlestick.Store.Basic

/-!
# Requests to the store

Everything that can be asked of a store while nobody else uses it, and the answer to each.
-/

namespace Candlestick

inductive Request where
  | deal (deal : Deal)
  | seed (pair : Pair) (given : Option Candle)
  | refresh
  | look (pair : Pair)
  | pairs
  deriving DecidableEq

inductive Reply where
  | outcome (outcome : DealOutcome)
  | changed (changed : Bool)
  | rolled (count : Nat)
  | candle (candle : Option Candle)
  | pairs (pairs : List Pair)
  deriving DecidableEq

namespace Change

def replying {α : Type} (c : Change α) (f : α → Reply) : Change Reply :=
  ⟨c.table, c.events, c.rollovers, f c.result⟩

def none (table : Table) (reply : Reply) : Change Reply := ⟨table, [], 0, reply⟩

end Change

namespace Request

/-- What is checked before the store is entered. -/
def check : Request → Except StoreError Unit
  | seed pair given => Store.checkSeed pair given
  | _ => .ok ()

def plan (config : StoreConfig) (now : Instant) (table : Table) :
    Request → Except StoreError (Change Reply)
  | deal d =>
    match Store.addDeal config d now table with
    | .ok change => .ok (change.replying .outcome)
    | .error e => .error (.decimal e)
  | seed pair given => .ok ((Store.seed config pair given now table).replying .changed)
  | refresh => .ok ((Store.refresh config now table).replying .rolled)
  | look pair => .ok (.none table (.candle (table.get? pair)))
  | pairs => .ok (.none table (.pairs table.pairs))

end Request

end Candlestick
