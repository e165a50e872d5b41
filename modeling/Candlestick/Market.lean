import Candlestick.Text.Blank

/-!
# Markets

A market is known by its symbol. Symbols are ordered by their characters.
-/

namespace Candlestick

structure Market where
  symbol : String
  deriving DecidableEq

namespace Market

def ofSymbol? (symbol : String) : Option Market :=
  if Text.isBlankText symbol then none else some ⟨symbol⟩

end Market

structure DealId where
  text : String
  deriving DecidableEq, Hashable

def DealId.ofText? (text : String) : Option DealId :=
  if text.isEmpty then none else some ⟨text⟩

end Candlestick
