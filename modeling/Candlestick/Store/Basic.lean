import Candlestick.Deal.Basic
import Candlestick.Event
import Candlestick.Store.Table

/-!
# The store

What each request does to the table of live candles, and the events that tell of it.
Everything here is a function of the table, the request and one clock reading: a request
either fails and changes nothing, or gives the next table with the events in the order in
which they are published.
-/

namespace Candlestick

structure StoreConfig where
  calendar : Calendar
  /-- The resolutions kept for every market, in the order of visits. -/
  resolutions : List Resolution

inductive StoreError where
  | invalidDeal (cause : DealError)
  | decimal (cause : DecimalError)
  | keyMismatch (pair candlePair : Pair)
  | channelClosed
  | invalidCandle (pair : Pair)
  | cancelled
  deriving DecidableEq

def StoreError.message : StoreError → String
  | .invalidDeal cause => "invalid deal: " ++ cause.message
  | .decimal cause => "candle arithmetic failed: " ++ cause.message
  | .keyMismatch pair candlePair =>
    "candle for " ++ candlePair.render ++ " cannot be stored under " ++ pair.render
  | .channelClosed => "candle emitter is closed"
  | .invalidCandle pair => "malformed candle for " ++ pair.render
  | .cancelled => "emission abandoned on shutdown"

structure DealOutcome where
  /-- Resolutions whose live bucket contained the deal. -/
  applied : Nat
  /-- Resolutions whose live bucket did not. -/
  skipped : Nat
  deriving DecidableEq

structure Change (α : Type) where
  table : Table
  events : List Event
  /-- How many candles were rolled over, as far as they are counted. -/
  rollovers : Nat
  result : α

namespace Store

/-- A candle on its way into the table, with the events that brought it
there. -/
structure Draft where
  candle : Candle
  events : List Event
  /-- Whether a candle whose bucket is over was replaced. -/
  rolled : Bool

/-- The live candle of a pair at an instant: the stored one while its bucket
lasts, after that its flat successor, and a fresh one where none is stored. -/
def live (calendar : Calendar) (pair : Pair) (stored : Option Candle) (now : Instant) : Draft :=
  match stored with
  | some c =>
    if c.hasEnded now then
      let flat := c.flatAfter calendar now
      ⟨flat, [.closed c, .opened flat], true⟩
    else ⟨c, [], false⟩
  | none =>
    let fresh := Candle.fresh pair.market pair.resolution calendar now
    ⟨fresh, [.opened fresh], false⟩

/-- The part of a deal that concerns one resolution: the draft, and whether the
bucket contained the deal. A fold that leaves the numeric values as they are is
no change. -/
def share (calendar : Calendar) (deal : Deal) (now : Instant) (stored : Option Candle)
    (resolution : Resolution) : Except DecimalError (Draft × Bool) :=
  let draft := live calendar ⟨deal.market, resolution⟩ stored now
  if draft.candle.contains deal.createdAt then
    match draft.candle.fold deal.price deal.amount with
    | .error e => .error e
    | .ok folded =>
      if folded.SameValue draft.candle then .ok (draft, true)
      else .ok (⟨folded, draft.events ++ [.updated folded], draft.rolled⟩, true)
  else .ok (draft, false)

/-- The shares of a deal in several resolutions. The first that fails is the
failure of all. -/
def shares (calendar : Calendar) (deal : Deal) (now : Instant) (table : Table) :
    List Resolution → Except DecimalError (List (Pair × Draft × Bool))
  | [] => .ok []
  | r :: rest =>
    let pair : Pair := ⟨deal.market, r⟩
    match share calendar deal now (table.get? pair) r with
    | .error e => .error e
    | .ok drafted =>
      match shares calendar deal now table rest with
      | .error e => .error e
      | .ok later => .ok ((pair, drafted) :: later)

/-- Folds a deal into every resolution of its market. Candles whose bucket is
over are rolled first; resolutions whose live bucket does not contain the deal
skip it. -/
def addDeal (config : StoreConfig) (deal : Deal) (now : Instant) (table : Table) :
    Except DecimalError (Change DealOutcome) :=
  match shares config.calendar deal now table config.resolutions with
  | .error e => .error e
  | .ok parts =>
    .ok {
      table := table.insertAll (parts.map fun part => (part.1, part.2.1.candle))
      events := parts.flatMap fun part => part.2.1.events
      rollovers := (parts.filter fun part => part.2.1.rolled).length
      result := ⟨(parts.filter fun part => part.2.2).length,
        (parts.filter fun part => !part.2.2).length⟩ }

def checkSeed (pair : Pair) (given : Option Candle) : Except StoreError Unit :=
  match given with
  | none => .ok ()
  | some c =>
    if c.pair ≠ pair then .error (.keyMismatch pair c.pair)
    else if c.isValid then .ok ()
    else .error (.invalidCandle pair)

def laterOf (a b : Instant) : Instant := if a.nanos ≤ b.nanos then b else a

/-- The candle that a seed stores: the one given, or a flat one that does not
step back to a bucket before the stored one. -/
def seedCandle (calendar : Calendar) (pair : Pair) (given stored : Option Candle)
    (now : Instant) : Candle :=
  match given, stored with
  | some c, _ => c
  | none, some c => c.flatAfter calendar (laterOf now c.openTime)
  | none, none => .fresh pair.market pair.resolution calendar now

/-- Stores a candle that has passed `checkSeed`, or a flat one. The result says
whether the numeric values changed; only then is anything stored. -/
def seed (config : StoreConfig) (pair : Pair) (given : Option Candle) (now : Instant)
    (table : Table) : Change Bool :=
  let stored := table.get? pair
  let candle := seedCandle config.calendar pair given stored now
  match stored with
  | some c =>
    if c.SameValue candle then ⟨table, [], 0, false⟩
    else if c.openTime = candle.openTime then
      ⟨table.insert pair candle, [.updated candle], 0, true⟩
    else ⟨table.insert pair candle, [.opened candle], 0, true⟩
  | none => ⟨table.insert pair candle, [.opened candle], 0, true⟩

def refreshed (calendar : Calendar) (now : Instant) (c : Candle) : Candle :=
  if c.hasEnded now then c.flatAfter calendar now else c

def refreshEvents (calendar : Calendar) (now : Instant) (c : Candle) : List Event :=
  if c.hasEnded now then [.closed c, .opened (c.flatAfter calendar now)] else []

/-- Rolls every candle whose bucket is over. The result is their number. -/
def refresh (config : StoreConfig) (now : Instant) (table : Table) : Change Nat :=
  let rolled := (table.entries.filter fun entry => entry.2.hasEnded now).length
  { table := table.mapCandles (refreshed config.calendar now)
    events := table.entries.flatMap fun entry => refreshEvents config.calendar now entry.2
    rollovers := rolled
    result := rolled }

theorem refresh_pairs (config : StoreConfig) (now : Instant) (table : Table) :
    (refresh config now table).table.pairs = table.pairs :=
  Table.pairs_mapCandles _ _

theorem refresh_get? (config : StoreConfig) (now : Instant) (table : Table) (pair : Pair) :
    (refresh config now table).table.get? pair =
      (table.get? pair).map (refreshed config.calendar now) :=
  Table.get?_mapCandles _ _ _

end Store

end Candlestick
