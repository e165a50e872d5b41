import Candlestick.Channel
import Candlestick.Lock
import Candlestick.Metrics
import Candlestick.Store.Request

/-!
# A store in use

The store with the lock that serves its users one after the other, the channel on which it
publishes, and the counters. A visit holds the lock from the first look at the table until
the last event is sent. A send is tried before anybody looks whether the store was told to
stop.
-/

namespace Candlestick

/-- A store with what its users share. -/
structure SharedStore where
  config : StoreConfig
  table : Table := {}
  events : Channel Event
  lock : Lock := {}
  metrics : Metrics := {}
  /-- Whether the store was told to stop. -/
  cancelled : Bool := false

inductive Visit where
  /-- In the line for the lock, or holding it with nothing done yet. -/
  | waiting (request : Request)
  /-- Holding the lock, with events to send. -/
  | sending (events : List Event) (count : Nat) (reply : Reply)
  /-- Holding the lock, with everything done. -/
  | leaving (result : Except StoreError Reply)

inductive Progress where
  | within (visit : Visit)
  | left (result : Except StoreError Reply)

namespace SharedStore

def count (s : SharedStore) (counter : Counter) (n : Nat) : SharedStore :=
  { s with metrics := s.metrics.add counter n }

def enter (s : SharedStore) (who : Nat) : SharedStore := { s with lock := s.lock.request who }

def cancel (s : SharedStore) : SharedStore := { s with cancelled := true }

/-- Stores the change of a request and goes on to its events. -/
def commit (s : SharedStore) (change : Change Reply) : SharedStore × Visit :=
  ({ s with table := change.table }.count .rollovers change.rollovers,
    .sending change.events change.events.length change.result)

def act (s : SharedStore) (now : Instant) (request : Request) : SharedStore × Visit :=
  match request.plan s.config now s.table with
  | .ok change => s.commit change
  | .error e => (s, .leaving (.error e))

def publish? (s : SharedStore) (event : Event) (rest : List Event) (count : Nat)
    (reply : Reply) : Option (SharedStore × Visit) :=
  match s.events.send event with
  | .sent events => some ({ s with events := events }, .sending rest count reply)
  | .closed => some (s, .leaving (.error .channelClosed))
  | .full => if s.cancelled then some (s, .leaving (.error .cancelled)) else none

/-- One step of a visit, `none` where the visitor has to wait. -/
def step? (s : SharedStore) (who : Nat) (now : Instant) :
    Visit → Option (SharedStore × Progress)
  | .waiting request =>
    if s.lock.heldBy who then
      let (s, visit) := s.act now request
      some (s, .within visit)
    else none
  | .sending [] count reply =>
    some (s.count .eventsEmitted count, .within (.leaving (.ok reply)))
  | .sending (event :: rest) count reply =>
    match s.publish? event rest count reply with
    | some (s, visit) => some (s, .within visit)
    | none => none
  | .leaving result => some ({ s with lock := s.lock.release }, .left result)

/-- Gives up the sending end of the channel and leaves. -/
def close (s : SharedStore) : SharedStore :=
  { s with events := s.events.dropSender, lock := s.lock.release }

theorem act_error {s : SharedStore} {now : Instant} {request : Request} {e : StoreError}
    (h : request.plan s.config now s.table = .error e) :
    s.act now request = (s, .leaving (.error e)) := by
  simp [act, h]

end SharedStore

end Candlestick
