import Candlestick.Batcher.Basic
import Candlestick.Chart
import Candlestick.Clock
import Candlestick.Ingest
import Candlestick.Schedule
import Candlestick.Store.Shared

/-!
# The pipeline

Everything that runs around one store, as tasks that take turns: callers with requests and
deliveries, the one that seeds the table, the one that refreshes it every minute, the
batcher and the publisher. A step of a task is a function of the whole state; a task that
has to wait has no step.
-/

namespace Candlestick

/-- One ingester: what it counted, and the lock that lets it handle one
delivery at a time. -/
structure Ingester where
  tally : Tally := {}
  lock : Lock := {}

structure Broadcaster where
  recording : Bool
  delayMillis : Nat
  failing : Bool

structure Publication where
  millis : Nat
  messages : List Message
  deriving DecidableEq

inductive Call where
  | store (request : Request)
  | record (record : DealRecord)
  | deliver (path : Nat) (delivery : Delivery)

inductive Answer where
  | replied (result : Except StoreError Reply)
  | ingested (result : Except IngestError Ingested)

inductive Visitor where
  | caller
  | ingester (path : Nat) (deal : Deal)
  /-- With the pairs that are still to be seeded. -/
  | seeder (rest : List Pair)
  | refresher

inductive Task where
  | calling (call : Call)
  /-- A delivery in the line for its ingester, or just let in. -/
  | delivering (path : Nat) (delivery : Delivery)
  | visiting (visitor : Visitor) (visit : Visit)
  /-- A delivery whose visit is over. -/
  | concluding (path : Nat) (deal : Deal) (result : Except StoreError Reply)
  | answered (answer : Answer)
  | seeding (pairs : List Pair)
  | seeded (result : Except StoreError Unit)
  /-- A refresher about to look at the clock. -/
  | refreshing
  /-- A refresher between two refreshes. -/
  | resting (deadline : Nat)
  /-- A refresher in the line for the lock, to close the channel. -/
  | closing
  | batching
  | listening
  | publishing (messages : List Message) (began deadline : Nat)
  | stopped

structure Pipeline where
  store : SharedStore
  window : Window
  ingesters : Array Ingester
  clock : Clock
  millis : Nat := 0
  batch : BatchConfig := {}
  batcher : Batcher Event := .idle
  batches : Channel (List Event) := .create 1
  broadcaster : Broadcaster := ⟨false, 0, false⟩
  published : Array Publication := #[]
  tasks : Array Task := #[]

namespace Pipeline

/-- A pipeline without tasks, `none` where there is no room for its channel or
for its window. -/
def create? (config : StoreConfig) (capacity remembered paths : Nat) (clock : Clock) :
    Option Pipeline :=
  match Channel.create? capacity, Window.create? remembered with
  | some events, some window =>
    some {
      store := { config := config, events := events }
      window := window
      ingesters := (List.replicate paths {}).toArray
      clock := clock }
  | _, _ => none

def now (p : Pipeline) : Instant := p.clock.reading p.millis

def put (p : Pipeline) (i : Nat) (task : Task) : Pipeline :=
  { p with tasks := p.tasks.setIfInBounds i task }

def withStore (p : Pipeline) (store : SharedStore) : Pipeline := { p with store := store }

def withMetrics (p : Pipeline) (f : Metrics → Metrics) : Pipeline :=
  p.withStore { p.store with metrics := f p.store.metrics }

def withIngester (p : Pipeline) (path : Nat) (f : Ingester → Ingester) : Pipeline :=
  { p with ingesters := p.ingesters.modify path f }

def visit (p : Pipeline) (i : Nat) (visitor : Visitor) (request : Request) : Pipeline :=
  (p.withStore (p.store.enter i)).put i (.visiting visitor (.waiting request))

def reply (p : Pipeline) (i : Nat) (result : Except StoreError Reply) : Pipeline :=
  p.put i (.answered (.replied result))

def begin (p : Pipeline) (i : Nat) : Call → Pipeline
  | .store request =>
    match request.check with
    | .ok () => p.visit i .caller request
    | .error e => p.reply i (.error e)
  | .record record =>
    match Deal.ofRecord record with
    | .ok deal => p.visit i .caller (.deal deal)
    | .error cause => p.reply i (.error (.invalidDeal cause))
  | .deliver path delivery =>
    (p.withIngester path fun g => { g with lock := g.lock.request i }).put i
      (.delivering path delivery)

/-- Ends a delivery: counts it and lets the next one in. -/
def conclude (p : Pipeline) (i path : Nat) (result : Except IngestError Ingested) : Pipeline :=
  let p := p.withMetrics fun m => m.ingested result
  let p := p.withIngester path fun g => ⟨g.tally.add result, g.lock.release⟩
  p.put i (.answered (.ingested result))

/-- Handles a delivery that was let in. A deal is claimed before the store is
visited, so that a copy that comes meanwhile is a duplicate. -/
def handle (p : Pipeline) (i path : Nat) (delivery : Delivery) : Pipeline :=
  match delivery.examine with
  | .refused cause => p.conclude i path (.error cause)
  | .filtered => p.conclude i path (.ok .skipped)
  | .admitted deal =>
    match p.window.claim? deal.id with
    | none => p.conclude i path (.ok .duplicate)
    | some window => { p with window := window }.visit i (.ingester path deal) (.deal deal)

def deliveryResult : Except StoreError Reply → Except IngestError Ingested
  | .ok (.outcome outcome) => .ok (.accepted outcome)
  | .ok _ => .ok (.accepted ⟨0, 0⟩)
  | .error cause => .error (.store cause)

def settleClaim (p : Pipeline) (i path : Nat) (deal : Deal) (result : Except StoreError Reply) :
    Pipeline :=
  let p :=
    match result with
    | .ok _ => p
    | .error _ => { p with window := p.window.release deal.id }
  p.conclude i path (deliveryResult result)

def leave (p : Pipeline) (i : Nat) (result : Except StoreError Reply) : Visitor → Pipeline
  | .caller => p.reply i result
  | .ingester path deal => p.put i (.concluding path deal result)
  | .seeder rest =>
    match result with
    | .ok _ => p.put i (.seeding rest)
    | .error e => p.put i (.seeded (.error e))
  | .refresher =>
    match result with
    | .error .cancelled => (p.withStore (p.store.enter i)).put i .closing
    | _ => p.put i .refreshing

def stepVisit? (p : Pipeline) (i : Nat) (visitor : Visitor) (visit : Visit) : Option Pipeline :=
  match p.store.step? i p.now visit with
  | some (store, .within visit) => some ((p.withStore store).put i (.visiting visitor visit))
  | some (store, .left result) => some ((p.withStore store).leave i result visitor)
  | none => none

def joined (p : Pipeline) : Batching Event := ⟨p.batcher, p.store.events, p.batches⟩

def withJoined (p : Pipeline) (b : Batching Event) : Pipeline :=
  { p with
    store := { p.store with events := b.input }
    batcher := b.batcher
    batches := b.output }

def publish (p : Pipeline) (i : Nat) (messages : List Message) (began : Nat) : Pipeline :=
  if p.broadcaster.recording && p.broadcaster.failing then
    (p.withMetrics fun m => m.add .broadcastFailures 1).put i .listening
  else
    let nanos := (p.millis - began) * nanosPerMilli.toNat
    let p := (p.withMetrics fun m => m.broadcast messages.length nanos).put i .listening
    if p.broadcaster.recording then
      { p with published := p.published.push ⟨began, messages⟩ }
    else p

def listen? (p : Pipeline) (i : Nat) : Option Pipeline :=
  match p.batches.receive with
  | .item batch batches =>
    let p := { p with batches := batches }.withMetrics fun m => m.add .batchesFlushed 1
    some (p.put i (.publishing (Message.ofEvents batch) p.millis
      (p.millis + p.broadcaster.delayMillis)))
  | .ended => some (p.put i .stopped)
  | .empty => none

def step? (i : Nat) (p : Pipeline) : Option Pipeline :=
  match p.tasks[i]? with
  | some (.calling call) => some (p.begin i call)
  | some (.delivering path delivery) =>
    match p.ingesters[path]? with
    | some g => if g.lock.heldBy i then some (p.handle i path delivery) else none
    | none => none
  | some (.visiting visitor visit) => p.stepVisit? i visitor visit
  | some (.concluding path deal result) => some (p.settleClaim i path deal result)
  | some (.seeding []) => some (p.put i (.seeded (.ok ())))
  | some (.seeding (pair :: rest)) => some (p.visit i (.seeder rest) (.seed pair none))
  | some .refreshing =>
    if p.store.cancelled then some ((p.withStore (p.store.enter i)).put i .closing)
    else some (p.put i (.resting (p.millis + millisOf (delayToMinute p.now))))
  | some (.resting deadline) =>
    if p.store.cancelled then some ((p.withStore (p.store.enter i)).put i .closing)
    else if deadline ≤ p.millis then some (p.visit i .refresher .refresh)
    else none
  | some .closing =>
    if p.store.lock.heldBy i then some ((p.withStore p.store.close).put i .stopped) else none
  | some .batching =>
    (p.joined.step? p.batch p.millis p.store.cancelled).map p.withJoined
  | some .listening => p.listen? i
  | some (.publishing messages began deadline) =>
    if deadline ≤ p.millis then some (p.publish i messages began) else none
  | _ => none

def deadline? (i : Nat) (p : Pipeline) : Option Nat :=
  match p.tasks[i]? with
  | some (.resting deadline) => some deadline
  | some .batching => p.joined.deadline?
  | some (.publishing _ _ deadline) => some deadline
  | _ => none

/-- What the next step of a task takes from its turn: all that may have to wait
takes one. -/
def cost (i : Nat) (p : Pipeline) : Nat :=
  match p.tasks[i]? with
  | some (.delivering _ _) => 1
  | some (.visiting _ (.waiting _)) => 1
  | some (.visiting _ (.sending (_ :: _) _ _)) => 1
  | some (.resting _) => 1
  | some .closing => 1
  | some .batching =>
    match p.batcher with
    | .stopped => 0
    | _ => 1
  | some .listening => 1
  | some (.publishing _ _ _) => 1
  | _ => 0

def system : System Pipeline where
  size p := p.tasks.size
  step? := step?
  deadline? := deadline?
  time p := p.millis
  setTime millis p := { p with millis := millis }
  cost := cost

end Pipeline

end Candlestick
