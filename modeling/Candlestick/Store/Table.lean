import Candlestick.Candle.Basic

/-!
# The table of live candles

The current candle of every tracked pair of market and resolution, ordered by market and
then by resolution.
-/

namespace Candlestick

structure Pair where
  market : Market
  resolution : Resolution
  deriving DecidableEq

namespace Pair

def precedes (p q : Pair) : Bool :=
  p.market.symbol < q.market.symbol ||
    (p.market = q.market && p.resolution.rank < q.resolution.rank)

def render (p : Pair) : String := p.market.symbol ++ "/" ++ p.resolution.name

end Pair

def Candle.pair (c : Candle) : Pair := ⟨c.market, c.resolution⟩

structure Table where
  entries : List (Pair × Candle) := []
  deriving DecidableEq

namespace Table

def insertIn (pair : Pair) (candle : Candle) : List (Pair × Candle) → List (Pair × Candle)
  | [] => [(pair, candle)]
  | (p, c) :: rest =>
    if p = pair then (pair, candle) :: rest
    else if pair.precedes p then (pair, candle) :: (p, c) :: rest
    else (p, c) :: insertIn pair candle rest

def findIn? (pair : Pair) : List (Pair × Candle) → Option Candle
  | [] => none
  | (p, c) :: rest => if p = pair then some c else findIn? pair rest

def get? (t : Table) (pair : Pair) : Option Candle := findIn? pair t.entries

def insert (t : Table) (pair : Pair) (candle : Candle) : Table :=
  ⟨insertIn pair candle t.entries⟩

def pairs (t : Table) : List Pair := t.entries.map Prod.fst

def insertAll (t : Table) (candles : List (Pair × Candle)) : Table :=
  candles.foldl (fun t entry => t.insert entry.1 entry.2) t

def mapCandles (t : Table) (f : Candle → Candle) : Table :=
  ⟨t.entries.map fun entry => (entry.1, f entry.2)⟩

theorem findIn?_insertIn (pair other : Pair) (candle : Candle)
    (entries : List (Pair × Candle)) :
    findIn? other (insertIn pair candle entries) =
      if pair = other then some candle else findIn? other entries := by
  induction entries with
  | nil => rfl
  | cons entry rest ih =>
    obtain ⟨p, c⟩ := entry
    unfold insertIn
    by_cases hp : p = pair
    · subst hp
      by_cases ho : p = other <;> simp [findIn?, ho]
    · by_cases hb : pair.precedes p = true
      · simp [hp, hb, findIn?]
      · rw [if_neg hp, if_neg hb, findIn?, findIn?, ih]
        by_cases ho : pair = other
        · subst ho
          simp [hp]
        · simp [ho]

theorem get?_insert (t : Table) (pair other : Pair) (candle : Candle) :
    (t.insert pair candle).get? other = if pair = other then some candle else t.get? other :=
  findIn?_insertIn pair other candle t.entries

theorem get?_insert_self (t : Table) (pair : Pair) (candle : Candle) :
    (t.insert pair candle).get? pair = some candle := by
  simp [get?_insert]

theorem get?_insert_of_ne (t : Table) {pair other : Pair} (candle : Candle) (h : pair ≠ other) :
    (t.insert pair candle).get? other = t.get? other := by
  simp [get?_insert, h]

theorem get?_mapCandles (t : Table) (f : Candle → Candle) (pair : Pair) :
    (t.mapCandles f).get? pair = (t.get? pair).map f := by
  obtain ⟨entries⟩ := t
  simp only [mapCandles, get?]
  induction entries with
  | nil => rfl
  | cons entry rest ih => by_cases h : entry.1 = pair <;> simp [findIn?, h, ih]

theorem pairs_mapCandles (t : Table) (f : Candle → Candle) : (t.mapCandles f).pairs = t.pairs := by
  simp [pairs, mapCandles]

end Table

end Candlestick
