/-!
# White space around a text

The characters that a reader of values skips before and after the value: the Unicode
property `White_Space`. Nothing inside a text is touched.
-/

namespace Candlestick.Text

/-- The characters of the Unicode property `White_Space`. -/
def isBlank (c : Char) : Bool :=
  let n := c.toNat
  (0x9 ≤ n && n ≤ 0xD) || n == 0x20 || n == 0x85 || n == 0xA0 || n == 0x1680 ||
    (0x2000 ≤ n && n ≤ 0x200A) || n == 0x2028 || n == 0x2029 || n == 0x202F || n == 0x205F ||
    n == 0x3000

def strip (cs : List Char) : List Char :=
  ((cs.dropWhile isBlank).reverse.dropWhile isBlank).reverse

def isBlankText (s : String) : Bool := s.toList.all isBlank

end Candlestick.Text
