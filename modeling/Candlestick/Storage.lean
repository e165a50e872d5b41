/-!
# Room in memory

A buffer whose size is known beforehand is reserved as a whole, before anything is put into
it. One block of memory has a greatest size; a reservation beyond it fails, whatever memory
there is.
-/

namespace Candlestick

/-- The greatest size of a block of memory, in bytes. -/
def maxBlock : Nat := 9223372036854775807

/-- Whether a block takes `count` items of `width` bytes each. -/
def canReserve (width count : Nat) : Bool := width * count ≤ maxBlock

end Candlestick
