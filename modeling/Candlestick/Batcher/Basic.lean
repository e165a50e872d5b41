import Candlestick.Channel
import Candlestick.Clock
import Candlestick.Config

/-!
# Gathering items into batches

A task that reads items from one channel and writes batches to another. A batch is complete
at its limit, when no item came for the idle time after the last one, or when the input has
ended. Once it is told to stop the task drops what it holds. Room for a whole batch is
reserved with its first item; where there is none the task stops and the item is lost.
-/

namespace Candlestick

inductive Batcher (α : Type) where
  | idle
  /-- Gathers until the limit or the deadline, in milliseconds. -/
  | filling (batch : List α) (deadline : Nat)
  /-- Waits for room in the output; `last` where the input has ended. -/
  | offering (batch : List α) (last : Bool)
  | stopped

structure Batching (α : Type) where
  batcher : Batcher α
  input : Channel α
  output : Channel (List α)

namespace Batching

variable {α : Type}

def stop (b : Batching α) : Batching α :=
  ⟨.stopped, b.input.dropReceiver, b.output.dropSender⟩

/-- What comes after a batch has grown: offering it where it is complete. -/
def grown (config : BatchConfig) (now : Nat) (batch : List α) : Batcher α :=
  if config.limit ≤ batch.length then .offering batch false
  else .filling batch (now + config.idleMillis)

def step? (config : BatchConfig) (now : Nat) (cancelled : Bool) (b : Batching α) :
    Option (Batching α) :=
  match b.batcher with
  | .stopped => none
  | .idle =>
    if cancelled then some b.stop
    else
      match b.input.receive with
      | .item item input =>
        if config.hasRoom then some { b with batcher := grown config now [item], input := input }
        else some { b with input := input }.stop
      | .ended => some b.stop
      | .empty => none
  | .filling batch deadline =>
    if cancelled then some b.stop
    else
      match b.input.receive with
      | .item item input =>
        some { b with batcher := grown config now (batch ++ [item]), input := input }
      | .ended => some { b with batcher := .offering batch true }
      | .empty => if deadline ≤ now then some { b with batcher := .offering batch false } else none
  | .offering batch last =>
    if cancelled then some b.stop
    else
      match b.output.send batch with
      | .sent output =>
        if last then some { b with output := output }.stop
        else some { b with batcher := .idle, output := output }
      | .closed => some b.stop
      | .full => none

def deadline? (b : Batching α) : Option Nat :=
  match b.batcher with
  | .filling _ deadline => some deadline
  | _ => none

end Batching

end Candlestick
