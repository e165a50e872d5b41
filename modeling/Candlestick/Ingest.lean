import Candlestick.Deal.Wire
import Candlestick.Json.Reader
import Candlestick.Metrics
import Candlestick.Store.Basic
import Candlestick.Window

/-!
# Ingestion

What an ingester does with a delivery before it reaches the store: a text is decoded, a
record that does not know the orders of both sides is left out, and the rest is validated.
What remains is a deal, to be claimed in the window.
-/

namespace Candlestick

inductive Delivery where
  | text (line : String)
  | record (record : DealRecord)
  | deal (deal : Deal)

inductive IngestError where
  | undecodable
  | invalid (cause : DealError)
  | store (cause : StoreError)
  deriving DecidableEq

/-- What became of a delivery that was not refused. -/
inductive Ingested where
  | accepted (outcome : DealOutcome)
  /-- A record without order identifiers. -/
  | skipped
  /-- A deal that the window remembers. -/
  | duplicate
  deriving DecidableEq

inductive Admission where
  | refused (cause : IngestError)
  | filtered
  | admitted (deal : Deal)

namespace Delivery

def examineRecord (r : DealRecord) : Admission :=
  if r.hasOrderIds then
    match Deal.ofRecord r with
    | .ok d => .admitted d
    | .error cause => .refused (.invalid cause)
  else .filtered

def examine : Delivery → Admission
  | text line =>
    match (Json.parse? line).bind DealRecord.ofJson? with
    | some r => examineRecord r
    | none => .refused .undecodable
  | record r => examineRecord r
  | deal d => .admitted d

end Delivery

/-- The deliveries of one ingester by their result. Counts are 64-bit words that
wrap around. -/
structure Tally where
  accepted : UInt64 := 0
  skipped : UInt64 := 0
  duplicate : UInt64 := 0
  rejected : UInt64 := 0
  deriving DecidableEq

def Tally.add (t : Tally) : Except IngestError Ingested → Tally
  | .ok (.accepted _) => { t with accepted := t.accepted + 1 }
  | .ok .skipped => { t with skipped := t.skipped + 1 }
  | .ok .duplicate => { t with duplicate := t.duplicate + 1 }
  | .error _ => { t with rejected := t.rejected + 1 }

def Metrics.ingested (m : Metrics) : Except IngestError Ingested → Metrics
  | .ok (.accepted outcome) => m.dealApplied outcome.skipped
  | .ok .skipped => m.add .dealsFiltered 1
  | .ok .duplicate => m.add .dealsDuplicate 1
  | .error _ => m.add .dealsRejected 1

end Candlestick
