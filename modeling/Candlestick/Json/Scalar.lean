import Candlestick.Amount
import Candlestick.Instant
import Candlestick.Json.Row
import Candlestick.Market
import Candlestick.Resolution

/-!
# Single values in JSON

Decimals are strings: written digit for digit, read up to rounding and in scientific
notation too, where a negative value is accepted. Instants are integers. An enumeration is
its name, or an object with the name as its only key and `null` as its value.
-/

namespace Candlestick

namespace Decimal

def toJson (d : Decimal) : Json := .ofText d.render

def ofJson? (j : Json) : Option Decimal := j.text?.bind fun s => readLenient? s.toList

end Decimal

namespace Price

def toJson (p : Price) : Json := p.decimal.toJson

def ofJson? (j : Json) : Option Price := (Decimal.ofJson? j).map Price.mk

end Price

namespace Quantity

def toJson (q : Quantity) : Json := q.decimal.toJson

def ofJson? (j : Json) : Option Quantity := (Decimal.ofJson? j).map Quantity.mk

end Quantity

namespace Instant

def toJson (t : Instant) : Json := .integer t.nanos

def ofJson? (j : Json) : Option Instant := j.integer?.bind ofNanos?

end Instant

namespace Resolution

def toJson (r : Resolution) : Json := .ofText r.name

def ofJson? (j : Json) : Option Resolution := j.text?.bind ofName?

theorem ofJson?_toJson (r : Resolution) : ofJson? r.toJson = some r := ofName?_name r

end Resolution

namespace Market

def toJson (m : Market) : Json := .ofText m.symbol

def ofJson? (j : Json) : Option Market := j.text?.map Market.mk

theorem ofJson?_toJson (m : Market) : ofJson? m.toJson = some m := rfl

end Market

theorem Instant.ofJson?_toJson (t : Instant) : Instant.ofJson? t.toJson = some t :=
  Instant.ofNanos?_nanos t

/-- The name of a case without content. -/
def Json.caseName? : Json → Option String
  | .string s => s
  | .object [(key, .null)] => key
  | _ => none

end Candlestick
