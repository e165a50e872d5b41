import Candlestick.Latency

/-!
# Metrics

Counters of what the service did, and the latencies of its broadcasts. A counter is a 64-bit
word that wraps around.
-/

namespace Candlestick

inductive Counter where
  | dealsApplied
  | dealsRejected
  | dealsDuplicate
  | dealsFiltered
  /-- Resolutions whose live bucket did not contain an applied deal. -/
  | resolutionsSkipped
  | eventsEmitted
  | rollovers
  | batchesFlushed
  | messagesBroadcast
  | broadcastFailures
  deriving DecidableEq

namespace Counter

def all : List Counter :=
  [dealsApplied, dealsRejected, dealsDuplicate, dealsFiltered, resolutionsSkipped, eventsEmitted,
    rollovers, batchesFlushed, messagesBroadcast, broadcastFailures]

def name : Counter → String
  | dealsApplied => "deals_applied"
  | dealsRejected => "deals_rejected"
  | dealsDuplicate => "deals_duplicate"
  | dealsFiltered => "deals_filtered"
  | resolutionsSkipped => "resolutions_skipped"
  | eventsEmitted => "events_emitted"
  | rollovers => "rollovers"
  | batchesFlushed => "batches_flushed"
  | messagesBroadcast => "messages_broadcast"
  | broadcastFailures => "broadcast_failures"

end Counter

structure Counters where
  dealsApplied : UInt64 := 0
  dealsRejected : UInt64 := 0
  dealsDuplicate : UInt64 := 0
  dealsFiltered : UInt64 := 0
  resolutionsSkipped : UInt64 := 0
  eventsEmitted : UInt64 := 0
  rollovers : UInt64 := 0
  batchesFlushed : UInt64 := 0
  messagesBroadcast : UInt64 := 0
  broadcastFailures : UInt64 := 0
  deriving DecidableEq

namespace Counters

def get (m : Counters) : Counter → UInt64
  | .dealsApplied => m.dealsApplied
  | .dealsRejected => m.dealsRejected
  | .dealsDuplicate => m.dealsDuplicate
  | .dealsFiltered => m.dealsFiltered
  | .resolutionsSkipped => m.resolutionsSkipped
  | .eventsEmitted => m.eventsEmitted
  | .rollovers => m.rollovers
  | .batchesFlushed => m.batchesFlushed
  | .messagesBroadcast => m.messagesBroadcast
  | .broadcastFailures => m.broadcastFailures

def add (m : Counters) (n : UInt64) : Counter → Counters
  | .dealsApplied => { m with dealsApplied := m.dealsApplied + n }
  | .dealsRejected => { m with dealsRejected := m.dealsRejected + n }
  | .dealsDuplicate => { m with dealsDuplicate := m.dealsDuplicate + n }
  | .dealsFiltered => { m with dealsFiltered := m.dealsFiltered + n }
  | .resolutionsSkipped => { m with resolutionsSkipped := m.resolutionsSkipped + n }
  | .eventsEmitted => { m with eventsEmitted := m.eventsEmitted + n }
  | .rollovers => { m with rollovers := m.rollovers + n }
  | .batchesFlushed => { m with batchesFlushed := m.batchesFlushed + n }
  | .messagesBroadcast => { m with messagesBroadcast := m.messagesBroadcast + n }
  | .broadcastFailures => { m with broadcastFailures := m.broadcastFailures + n }

theorem get_add_self (m : Counters) (n : UInt64) (c : Counter) :
    (m.add n c).get c = m.get c + n := by
  cases c <;> rfl

theorem get_add_of_ne (m : Counters) (n : UInt64) {c d : Counter} (h : c ≠ d) :
    (m.add n c).get d = m.get d := by
  cases c <;> cases d <;> first | rfl | exact absurd rfl h

end Counters

def latencyCapacity : Nat := 1000

structure Metrics where
  counters : Counters := {}
  latency : Latency := ⟨latencyCapacity, []⟩

namespace Metrics

def add (m : Metrics) (c : Counter) (n : Nat) : Metrics :=
  { m with counters := m.counters.add (UInt64.ofNat n) c }

def dealApplied (m : Metrics) (skipped : Nat) : Metrics :=
  (m.add .dealsApplied 1).add .resolutionsSkipped skipped

def broadcast (m : Metrics) (messages latencyNanos : Nat) : Metrics :=
  let m := m.add .messagesBroadcast messages
  { m with latency := (m.latency.record? latencyNanos).getD m.latency }

/-- Every counter by name, and the latency that 99 of 100 broadcasts kept
within, once there was one. -/
def exported (m : Metrics) : List (String × Nat) :=
  Counter.all.map (fun c => (c.name, (m.counters.get c).toNat)) ++
    (m.latency.percentile? 99).toList.map fun n => ("broadcast_latency_p99_ns", n)

end Metrics

end Candlestick
