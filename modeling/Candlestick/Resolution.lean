import Candlestick.Instant
import Candlestick.Text.Blank
import Candlestick.Text.Quoted

/-!
# Resolutions

The lengths of time that candles are kept for. Eleven have a fixed duration; the last one
follows the calendar months of a reference zone. Each has one canonical name; reading
accepts older names as well.
-/

namespace Candlestick

/-- A candle length, in the order in which candles of a market are visited. -/
inductive Resolution where
  | minute1
  | minute3
  | minute5
  | minute15
  | minute30
  | hour1
  | hour2
  | hour4
  | hour6
  | hour12
  | day1
  | month1
  deriving DecidableEq

namespace Resolution

def all : List Resolution :=
  [minute1, minute3, minute5, minute15, minute30, hour1, hour2, hour4, hour6, hour12, day1, month1]

def rank : Resolution → Nat
  | minute1 => 0
  | minute3 => 1
  | minute5 => 2
  | minute15 => 3
  | minute30 => 4
  | hour1 => 5
  | hour2 => 6
  | hour4 => 7
  | hour6 => 8
  | hour12 => 9
  | day1 => 10
  | month1 => 11

def name : Resolution → String
  | minute1 => "1m"
  | minute3 => "3m"
  | minute5 => "5m"
  | minute15 => "15m"
  | minute30 => "30m"
  | hour1 => "1h"
  | hour2 => "2h"
  | hour4 => "4h"
  | hour6 => "6h"
  | hour12 => "12h"
  | day1 => "1d"
  | month1 => "1mo"

def formerNames : Resolution → List String
  | minute1 => ["1"]
  | minute3 => ["3"]
  | minute5 => ["5"]
  | minute15 => ["15"]
  | minute30 => ["30"]
  | hour1 => ["1H"]
  | hour2 => ["2H"]
  | hour4 => ["4H"]
  | hour6 => ["6H"]
  | hour12 => ["12H"]
  | day1 => ["1D"]
  | month1 => ["1mh", "1MH"]

def minutes? : Resolution → Option Nat
  | minute1 => some 1
  | minute3 => some 3
  | minute5 => some 5
  | minute15 => some 15
  | minute30 => some 30
  | hour1 => some 60
  | hour2 => some 120
  | hour4 => some 240
  | hour6 => some 360
  | hour12 => some 720
  | day1 => some 1440
  | month1 => none

def nanos? (r : Resolution) : Option Int :=
  r.minutes?.map fun n => n * nanosPerMinute

def ofName? (s : String) : Option Resolution :=
  all.find? fun r => r.name = s || r.formerNames.contains s

theorem all_get_rank (r : Resolution) : all[r.rank]? = some r := by
  cases r <;> rfl

theorem rank_injective {r s : Resolution} (h : r.rank = s.rank) : r = s := by
  have hr := all_get_rank r
  rw [h, all_get_rank s] at hr
  exact (Option.some.inj hr).symm

theorem ofName?_name (r : Resolution) : ofName? r.name = some r := by
  cases r <;> decide

theorem nanos?_pos {r : Resolution} {d : Int} (h : r.nanos? = some d) : 0 < d := by
  cases r <;> simp [nanos?, minutes?, nanosPerMinute, nanosPerSecond] at h <;> omega

end Resolution

structure UnsupportedResolution where
  input : String
  deriving DecidableEq

def UnsupportedResolution.message (e : UnsupportedResolution) : String :=
  "unsupported resolution " ++ Text.quoted e.input

namespace Resolution

def parse (s : String) : Except UnsupportedResolution Resolution :=
  match ofName? s with
  | some r => .ok r
  | none => .error ⟨s⟩

def entries (s : String) : List String :=
  ((s.toList.splitOn ',').map fun cs => String.ofList (Text.strip cs)).filter (· ≠ "")

/-- The supported entries of a comma separated list, each once and in order,
and the others as they come. -/
def parseList (s : String) : List Resolution × List UnsupportedResolution :=
  let named := entries s
  (all.filter fun r => named.any fun entry => ofName? entry = some r,
    (named.filter fun entry => ofName? entry = none).map UnsupportedResolution.mk)

end Resolution

end Candlestick
