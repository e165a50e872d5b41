import Candlestick.Batcher.Basic
import Candlestick.Schedule

/-!
# A batcher between a producer and a consumer

The batcher with somebody at either end: a producer that sends items, sleeps and may cancel,
and a consumer that takes batches, rests after each and may leave after some. The consumer
is the main task.
-/

namespace Candlestick

inductive Action (α : Type) where
  | send (item : α)
  | sleep (millis : Nat)
  | cancel

inductive Producer (α : Type) where
  | acting (script : List (Action α))
  | sleeping (deadline : Nat) (script : List (Action α))
  | done

inductive Consumer where
  | waiting
  | resting (deadline : Nat)
  | done
  deriving DecidableEq

structure Delivered (α : Type) where
  millis : Nat
  batch : List α

structure Feed (α : Type) where
  config : BatchConfig
  /-- How long the consumer rests after a batch. -/
  restMillis : Nat
  /-- After how many batches the consumer leaves. -/
  stopAfter : Option Nat
  millis : Nat := 0
  cancelled : Bool := false
  batching : Batching α
  producer : Producer α
  consumer : Consumer := .waiting
  sent : Nat := 0
  delivered : List (Delivered α) := []
  finished : Option Nat := none

namespace Feed

variable {α : Type}

/-- Before anything has happened, `none` where the input has no room for so many
items. -/
def start? (config : BatchConfig) (capacity restMillis : Nat) (stopAfter : Option Nat)
    (script : List (Action α)) : Option (Feed α) :=
  (Channel.create? capacity).map fun input =>
    { config := { config with limit := if config.limit = 0 then 1 else config.limit }
      restMillis, stopAfter
      batching := ⟨.idle, input, .create 1⟩
      producer := .acting script }

def withInput (f : Feed α) (input : Channel α) : Feed α :=
  { f with batching := { f.batching with input := input } }

def withOutput (f : Feed α) (output : Channel (List α)) : Feed α :=
  { f with batching := { f.batching with output := output } }

/-- One step of the producer. A send to a channel without a receiver fails and
is not repeated; at the end of the script the channel is closed. -/
def produce? (f : Feed α) : Option (Feed α) :=
  match f.producer with
  | .acting [] =>
    some { (f.withInput f.batching.input.dropSender) with producer := .done }
  | .acting (.send item :: script) =>
    match f.batching.input.send item with
    | .sent input =>
      some { (f.withInput input) with producer := .acting script, sent := f.sent + 1 }
    | .closed => some { f with producer := .acting script }
    | .full => none
  | .acting (.sleep millis :: script) =>
    some { f with producer := .sleeping (f.millis + millis) script }
  | .acting (.cancel :: script) => some { f with producer := .acting script, cancelled := true }
  | .sleeping deadline script =>
    if deadline ≤ f.millis then some { f with producer := .acting script } else none
  | .done => none

def finish (f : Feed α) : Feed α :=
  { (f.withOutput f.batching.output.dropReceiver) with
    consumer := .done, finished := some f.millis }

def satisfied (f : Feed α) : Bool :=
  match f.stopAfter with
  | some n => n ≤ f.delivered.length
  | none => false

def consume? (f : Feed α) : Option (Feed α) :=
  match f.consumer with
  | .waiting =>
    if f.satisfied then some f.finish
    else
      match f.batching.output.receive with
      | .item batch output =>
        some { (f.withOutput output) with
          delivered := f.delivered ++ [⟨f.millis, batch⟩]
          consumer := .resting (f.millis + f.restMillis) }
      | .ended => some f.finish
      | .empty => none
  | .resting deadline =>
    if deadline ≤ f.millis then some { f with consumer := .waiting } else none
  | .done => none

def batch? (f : Feed α) : Option (Feed α) :=
  (f.batching.step? f.config f.millis f.cancelled).map fun b => { f with batching := b }

/-- What the next step of a task takes from its turn: all that may have to wait
takes one. -/
def cost (i : Nat) (f : Feed α) : Nat :=
  match i with
  | 0 => match f.batching.batcher with
    | .stopped => 0
    | _ => 1
  | 1 => match f.producer with
    | .acting (.send _ :: _) => 1
    | .sleeping _ _ => 1
    | _ => 0
  | 2 => match f.consumer with
    | .done => 0
    | _ => 1
  | _ => 0

def system : System (Feed α) where
  size _ := 3
  step?
    | 0, f => f.batch?
    | 1, f => f.produce?
    | 2, f => f.consume?
    | _, _ => none
  deadline?
    | 0, f => f.batching.deadline?
    | 1, f => match f.producer with
      | .sleeping deadline _ => some deadline
      | _ => none
    | 2, f => match f.consumer with
      | .resting deadline => some deadline
      | _ => none
    | _, _ => none
  time f := f.millis
  setTime millis f := { f with millis := millis }
  cost := cost
  main? := some 2

/-- The feed after the consumer is done and the producer has played its
script. -/
def run (f : Feed α) : Feed α :=
  (system.runWhile (fun _ => true) { state := f, ready := [0, 1] }).state

end Feed

end Candlestick
