import Candlestick.Event
import Candlestick.Json.Printer

/-!
# Charts

A batch of events as it is published: the candles of each market and resolution as parallel
arrays, in the order in which the pairs first appear and with the candles of a pair in their
order. Every chart goes to a channel of its own.
-/

namespace Candlestick

def channelStem : String := "candle_chart"

def channelName (market : Market) (resolution : Resolution) : String :=
  channelStem ++ "_" ++ market.symbol ++ "_" ++ resolution.name

structure Chart where
  market : Market
  resolution : Resolution
  opens : List (Option Price)
  highs : List (Option Price)
  lows : List (Option Price)
  closes : List (Option Price)
  volumes : List Quantity
  /-- Open times in whole seconds, rounded down. -/
  times : List Int
  deriving DecidableEq

namespace Chart

def timeOf (c : Candle) : Int := c.openTime.nanos / nanosPerSecond

def empty (market : Market) (resolution : Resolution) : Chart :=
  ⟨market, resolution, [], [], [], [], [], []⟩

def push (chart : Chart) (c : Candle) : Chart :=
  { chart with
    opens := chart.opens ++ [c.open]
    highs := chart.highs ++ [c.high]
    lows := chart.lows ++ [c.low]
    closes := chart.closes ++ [c.close]
    volumes := chart.volumes ++ [c.volume]
    times := chart.times ++ [timeOf c] }

def ofCandle (c : Candle) : Chart := (empty c.market c.resolution).push c

def size (chart : Chart) : Nat := chart.times.length

def channel (chart : Chart) : String := channelName chart.market chart.resolution

def holds (chart : Chart) (c : Candle) : Bool :=
  chart.market = c.market && chart.resolution = c.resolution

def merge (c : Candle) : List Chart → List Chart
  | [] => [ofCandle c]
  | chart :: charts => if chart.holds c then chart.push c :: charts else chart :: merge c charts

def ofEvents (batch : List Event) : List Chart :=
  batch.foldl (fun charts e => merge e.candle charts) []

def toJson (chart : Chart) : Json :=
  .ofMembers [
    ("o", .array (chart.opens.map Candle.priceToJson)),
    ("h", .array (chart.highs.map Candle.priceToJson)),
    ("l", .array (chart.lows.map Candle.priceToJson)),
    ("c", .array (chart.closes.map Candle.priceToJson)),
    ("v", .array (chart.volumes.map Quantity.toJson)),
    ("t", .array (chart.times.map Json.integer))]

end Chart

/-- A chart on its way out: the channel, and the JSON text. -/
structure Message where
  channel : String
  data : String
  deriving DecidableEq

def Message.ofChart (chart : Chart) : Message := ⟨chart.channel, chart.toJson.render⟩

def Message.ofEvents (batch : List Event) : List Message :=
  (Chart.ofEvents batch).map Message.ofChart

end Candlestick
