import Candlestick.Proofs.Store.PairStep

/-!
# Runs as transitions

A run of a store, request by request, each with the table that it found and with what came
of it. Statements about a run speak of its transitions, and are proved from the last one
backwards (`transitions_snoc`).
-/

namespace Candlestick

/-- One request of a run, with the table before it and what came of it. -/
structure Transition where
  before : Table
  dated : DatedRequest
  served : Served

def Transition.after (step : Transition) : Table := step.served.table

namespace Table

def transitions (config : StoreConfig) : Table → List DatedRequest → List Transition
  | _, [] => []
  | t, d :: rest =>
    ⟨t, d, d.serve config t⟩ :: transitions config (d.serve config t).table rest

def liveStart? (t : Table) (pair : Pair) : Option Instant := (t.get? pair).map Candle.openTime

theorem liveStart?_of_get? {t : Table} {pair : Pair} {c : Candle} (h : t.get? pair = some c) :
    t.liveStart? pair = some c.openTime := by
  rw [liveStart?, h, Option.map_some]

variable (config : StoreConfig) (t : Table)

theorem transitions_append (first second : List DatedRequest) :
    t.transitions config (first ++ second) =
      t.transitions config first ++ (t.after config first).transitions config second := by
  induction first generalizing t with
  | nil => rfl
  | cons d rest ih => exact congrArg (_ :: ·) (ih _)

theorem transitions_snoc (requests : List DatedRequest) (d : DatedRequest) :
    t.transitions config (requests ++ [d]) = t.transitions config requests ++
      [⟨t.after config requests, d, d.serve config (t.after config requests)⟩] :=
  transitions_append config t requests [d]

theorem after_snoc (requests : List DatedRequest) (d : DatedRequest) :
    t.after config (requests ++ [d]) = (d.serve config (t.after config requests)).table :=
  after_append config t requests [d]

variable {config t}

theorem dated_mem_of_mem_transitions {requests : List DatedRequest} {step : Transition}
    (h : step ∈ t.transitions config requests) : step.dated ∈ requests := by
  induction requests generalizing t with
  | nil => cases h
  | cons first rest ih =>
    rcases List.mem_cons.mp h with rfl | h
    · exact List.mem_cons_self ..
    · exact List.mem_cons_of_mem _ (ih h)

end Table

-- ---------------------------------------------------------------------------
-- A run of two minutes
-- ---------------------------------------------------------------------------

def twoResolutions : StoreConfig := ⟨⟨.utc, .fixed 0⟩, [.minute1, .hour1]⟩

theorem three_lt_coefficientLimit : 3 < coefficientLimit := by decide

def dealOf (created : Nat) (price : Fin coefficientLimit) : Deal where
  id := ⟨"d1"⟩
  market := ⟨"BTC/USDT"⟩
  price := ⟨⟨false, price.val, 0, price.isLt, Nat.zero_le maxScale⟩⟩
  amount := ⟨⟨false, 3, 0, three_lt_coefficientLimit, Nat.zero_le maxScale⟩⟩
  createdAt := .clamp (created * nanosPerSecond)
  takerOrderId := "t1"
  makerOrderId := "m1"
  isBuyerMaker := false

def earlyDeal : Deal := dealOf 5 ⟨10, by decide⟩

def dealAt (clock created : Nat) (price : Fin coefficientLimit) : DatedRequest :=
  ⟨.clamp (clock * nanosPerSecond), .deal (dealOf created price)⟩

def recordAt (second : Nat) (price amount : String) : DealRecord :=
  ⟨"d1", "BTC/USDT", price, amount, .clamp (second * nanosPerSecond), "t1", "m1", false⟩

def twoMinutes : List DatedRequest :=
  [dealAt 5 5 ⟨10, by decide⟩, dealAt 40 30 ⟨12, by decide⟩,
    ⟨.clamp (61 * nanosPerSecond), .refresh⟩, dealAt 50 62 ⟨9, by decide⟩,
    dealAt 70 59 ⟨99, by decide⟩, dealAt 71 71 ⟨11, by decide⟩]

end Candlestick
