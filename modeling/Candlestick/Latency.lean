import Candlestick.Storage

/-!
# Latency samples

The most recent samples of a duration, up to a capacity, and their percentiles by nearest
rank from below. Room for all samples is reserved from the start.
-/

namespace Candlestick

structure Latency where
  capacity : Nat
  samples : List Nat := []

namespace Latency

def sampleWidth : Nat := 8

def create? (capacity : Nat) : Option Latency :=
  if canReserve sampleWidth capacity then some ⟨capacity, []⟩ else none

/-- Adds a sample; where the capacity is reached the oldest one goes. A capacity
of zero holds no sample. -/
def record? (l : Latency) (sample : Nat) : Option Latency :=
  if l.capacity = 0 then none
  else if l.capacity ≤ l.samples.length then
    some { l with samples := l.samples.tail ++ [sample] }
  else some { l with samples := l.samples ++ [sample] }

/-- The sample below which the given percentage of samples lies; 100 is the
greatest. -/
def percentile? (l : Latency) (percent : Nat) : Option Nat :=
  let percent := if percent ≤ 100 then percent else 100
  (l.samples.mergeSort)[percent * (l.samples.length - 1) / 100]?

end Latency

end Candlestick
