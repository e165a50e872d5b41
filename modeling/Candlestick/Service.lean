import Candlestick.Pipeline.Run

/-!
# The service

A pipeline set up from a configuration: the configured markets are seeded, the batcher and
the publisher drain the channel, and a refresher rolls the candles every minute. Calls are
made one at a time and waited for.
-/

namespace Candlestick

inductive StartError where
  | store (cause : StoreError)
  /-- There is no room for the channel or for the window. -/
  | noRoom
  deriving DecidableEq

structure Service where
  run : RunningPipeline

namespace Service

/-- The tasks of a service by their numbers. -/
def seeder : Nat := 0
def batcher : Nat := 1
def publisher : Nat := 2
def refresher : Nat := 3

def seeds (config : ServiceConfig) : List Pair :=
  config.markets.flatMap fun market => config.resolutions.map fun r => ⟨market, r⟩

def pipeline (config : ServiceConfig) (host : TimeRule) (clock : Clock)
    (broadcaster : Broadcaster) (paths : Nat) (events : Channel Event) : Pipeline where
  store := { config := config.store host, events := events }
  window := .empty 0
  ingesters := (List.replicate paths {}).toArray
  clock := clock
  batch := config.batch
  broadcaster := broadcaster
  tasks := #[.seeding (seeds config), .batching, .listening]

def seedingResult (p : Pipeline) : Except StoreError Unit :=
  match p.tasks[seeder]? with
  | some (.seeded result) => result
  | _ => .error .cancelled

/-- Sets up the window of a seeded pipeline and starts the refresher. -/
def finishStart (config : ServiceConfig) (r : RunningPipeline) : Except StartError Service :=
  match Window.create? config.dedupWindow with
  | some window =>
    let r : RunningPipeline := { r with state := { r.state with window := window } }
    .ok ⟨(r.spawn .refreshing).2.settle⟩
  | none => .error .noRoom

/-- Seeds the configured pairs and starts the refresher. A seed that fails is
the failure of the whole. -/
def start (config : ServiceConfig) (host : TimeRule) (clock : Clock) (broadcaster : Broadcaster)
    (paths : Nat) (cancelled : Bool) : Except StartError Service :=
  match Channel.create? config.emitterCapacity with
  | none => .error .noRoom
  | some events =>
    let p := pipeline config host clock broadcaster paths events
    let p := if cancelled then p.withStore p.store.cancel else p
    let r := (RunningPipeline.launch p).waitFor [seeder]
    match seedingResult r.state with
    | .ok () => finishStart config r
    | .error e => .error (.store e)

def call (s : Service) (c : Call) : Option Answer × Service :=
  let (i, r) := s.run.spawn (.calling c)
  let r := r.waitFor [i]
  (RunningPipeline.answer? i r.state, ⟨r.forgetLast⟩)

def sleep (s : Service) (millis : Nat) : Service := ⟨s.run.sleep millis⟩

def sleepUntil (s : Service) (millis : Nat) : Service := s.sleep (millis - s.run.state.millis)

def setClock (s : Service) (base : Instant) : Service :=
  ⟨s.run.change fun p => { p with clock := p.clock.set base }⟩

def setFailing (s : Service) (failing : Bool) : Service :=
  ⟨s.run.change fun p => { p with broadcaster := { p.broadcaster with failing := failing } }⟩

def cancel (s : Service) : Service := ⟨s.run.cancel.settle⟩

/-- Tells every task to stop and waits until refresher and publisher have. -/
def shutdown (s : Service) : Service := ⟨s.run.cancel.waitFor [refresher, publisher]⟩

def metrics (s : Service) : Metrics := s.run.state.store.metrics

def published (s : Service) : Array Publication := s.run.state.published

end Service

end Candlestick
