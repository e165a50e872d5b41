import Candlestick.Storage
import Candlestick.Store.Basic

/-!
# Configuration

The settings of a service by name. Every setting has a default; a setting that is present
replaces it, and a malformed one is an error.
-/

namespace Candlestick

structure BatchConfig where
  limit : Nat := 100
  /-- How long a batch waits for its next item. -/
  idleMillis : Nat := 2000
  /-- The bytes of an item; those of an event unless given. -/
  itemWidth : Nat := 152

def BatchConfig.hasRoom (c : BatchConfig) : Bool := canReserve c.itemWidth c.limit

def defaultDedupWindow : Nat := 10000

structure ServiceConfig where
  /-- The markets that are tracked from the start. -/
  markets : List Market := []
  resolutions : List Resolution := Resolution.all
  emitterCapacity : Nat := 1024
  batch : BatchConfig := {}
  zone : Zone := .host
  dedupWindow : Nat := defaultDedupWindow

inductive ConfigError where
  | invalidNumber (name value : String)
  | noResolution (name value : String)
  | invalidZone (name : String) (cause : InvalidZone)
  deriving DecidableEq

def ConfigError.message : ConfigError → String
  | .invalidNumber name value =>
    name ++ " must be a positive integer, got " ++ Text.quoted value
  | .noResolution name value => name ++ ": no supported resolution in " ++ Text.quoted value
  | .invalidZone name cause => name ++ ": " ++ cause.message

namespace ServiceConfig

def wordLimit : Nat := 18446744073709551616

def number? (value : String) : Option Nat :=
  Text.naturalBelow? wordLimit (Text.strip value.toList)

def positive (name value : String) : Except ConfigError Nat :=
  match number? value with
  | some n => if 0 < n then .ok n else .error (.invalidNumber name value)
  | none => .error (.invalidNumber name value)

def natural (name value : String) : Except ConfigError Nat :=
  match number? value with
  | some n => .ok n
  | none => .error (.invalidNumber name value)

def marketsOf (value : String) : List Market :=
  (value.toList.splitOn ',').filterMap fun cs => Market.ofSymbol? (String.ofList (Text.strip cs))

def resolutionsOf (name value : String) : Except ConfigError (List Resolution) :=
  let accepted := (Resolution.parseList value).1
  if accepted.isEmpty then .error (.noResolution name value) else .ok accepted

def zoneOf (name value : String) : Except ConfigError Zone :=
  match Zone.parse value with
  | .ok zone => .ok zone
  | .error cause => .error (.invalidZone name cause)

def setting {α : Type} (lookup : String → Option String) (name : String) (default : α)
    (read : String → String → Except ConfigError α) : Except ConfigError α :=
  match lookup name with
  | some value => read name value
  | none => .ok default

def names : List String :=
  ["OHLCV_MARKETS", "OHLCV_RESOLUTIONS", "OHLCV_EMITTER_CAPACITY", "OHLCV_MAX_BATCH_SIZE",
    "OHLCV_BATCH_IDLE_MS", "OHLCV_REFERENCE_TZ", "OHLCV_DEDUP_WINDOW"]

/-- The configuration of a source of settings. The first malformed setting, in
the order below, is the error. -/
def load (lookup : String → Option String) : Except ConfigError ServiceConfig := do
  let standard : ServiceConfig := {}
  let markets ← setting lookup "OHLCV_MARKETS" standard.markets fun _ value => .ok (marketsOf value)
  let resolutions ← setting lookup "OHLCV_RESOLUTIONS" standard.resolutions resolutionsOf
  let emitterCapacity ← setting lookup "OHLCV_EMITTER_CAPACITY" standard.emitterCapacity positive
  let limit ← setting lookup "OHLCV_MAX_BATCH_SIZE" standard.batch.limit positive
  let idleMillis ← setting lookup "OHLCV_BATCH_IDLE_MS" standard.batch.idleMillis positive
  let zone ← setting lookup "OHLCV_REFERENCE_TZ" standard.zone zoneOf
  let dedupWindow ← setting lookup "OHLCV_DEDUP_WINDOW" standard.dedupWindow natural
  return ⟨markets, resolutions, emitterCapacity, { limit, idleMillis }, zone, dedupWindow⟩

def nonEmpty (lookup : String → Option String) (name : String) : Option String :=
  (lookup name).filter (!·.isEmpty)

/-- What the store of a service is set up with, on a host of the given rule. -/
def store (config : ServiceConfig) (host : TimeRule) : StoreConfig :=
  ⟨⟨config.zone, host⟩, config.resolutions⟩

end ServiceConfig

end Candlestick
