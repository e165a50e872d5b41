import Candlestick.Pipeline.Basic

/-!
# Running a pipeline

What the outside does with a pipeline whose tasks take turns: starting tasks, taking events
from the channel, letting time pass, telling the store to stop. Every change from outside
wakes the tasks that it concerns.
-/

namespace Candlestick

abbrev RunningPipeline := Run Pipeline

namespace RunningPipeline

def launch (p : Pipeline) : RunningPipeline :=
  { state := p, ready := List.range p.tasks.size }

/-- Starts a task at the end of the line. -/
def spawn (task : Task) (r : RunningPipeline) : Nat × RunningPipeline :=
  let i := r.state.tasks.size
  (i, { r with
    state := { r.state with tasks := r.state.tasks.push task }
    ready := r.ready ++ [i] })

def settle (r : RunningPipeline) : RunningPipeline := Pipeline.system.settle r

def sleep (millis : Nat) (r : RunningPipeline) : RunningPipeline :=
  Pipeline.system.runUntil (r.state.millis + millis) r

def change (f : Pipeline → Pipeline) (r : RunningPipeline) : RunningPipeline :=
  Pipeline.system.apply f r

def changeStore (f : SharedStore → SharedStore) (r : RunningPipeline) : RunningPipeline :=
  r.change fun p => p.withStore (f p.store)

def cancel (r : RunningPipeline) : RunningPipeline := r.changeStore SharedStore.cancel

def dropReceiver (r : RunningPipeline) : RunningPipeline :=
  r.changeStore fun s => { s with events := s.events.dropReceiver }

def receive (r : RunningPipeline) : Option Event × RunningPipeline :=
  let r := r.settle
  match r.state.store.events.receive with
  | .item event events => (some event, r.changeStore fun s => { s with events := events })
  | _ => (none, r)

def receiveUpTo : Nat → RunningPipeline → List Event × RunningPipeline
  | 0, r => ([], r.settle)
  | n + 1, r =>
    match r.receive with
    | (some event, r) =>
      let (events, r) := receiveUpTo n r
      (event :: events, r)
    | (none, r) => ([], r)

def takeQueued (r : RunningPipeline) : List Event × RunningPipeline :=
  (r.state.store.events.items,
    r.changeStore fun s => { s with events := { s.events with items := [] } })

def drainFrom : Nat → RunningPipeline → List Event × RunningPipeline
  | 0, r => ([], r)
  | fuel + 1, r =>
    let r := r.settle
    if r.state.store.events.items.isEmpty then ([], r)
    else
      let (events, r) := r.takeQueued
      let (later, r) := drainFrom fuel r
      (events ++ later, r)

/-- Takes events until nothing is left and all have settled. -/
def drain (r : RunningPipeline) : List Event × RunningPipeline :=
  drainFrom System.patience r

def answer? (i : Nat) (p : Pipeline) : Option Answer :=
  match p.tasks[i]? with
  | some (.answered answer) => some answer
  | _ => none

def isOver (i : Nat) (p : Pipeline) : Bool :=
  match p.tasks[i]? with
  | some .stopped => true
  | some (.answered _) => true
  | some (.seeded _) => true
  | some _ => false
  | none => true

def waitFor (tasks : List Nat) (r : RunningPipeline) : RunningPipeline :=
  Pipeline.system.runWhile (fun p => tasks.any fun i => !isOver i p) r

def forgetLast (r : RunningPipeline) : RunningPipeline :=
  { r with state := { r.state with tasks := r.state.tasks.pop } }

end RunningPipeline

end Candlestick
