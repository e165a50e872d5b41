import Candlestick.Decimal.Order
import Candlestick.Decimal.Printer
import Candlestick.Decimal.Reader
import Candlestick.Decimal.Sum
import Candlestick.Text.Blank
import Candlestick.Text.Quoted

/-!
# Decimal operations that say why they fail

Reading a text and adding two decimals, with the cause of a failure and its wording. Reading
is exact: a text whose digits do not all fit is refused, never rounded.
-/

namespace Candlestick

inductive DecimalError where
  | malformed (input : String) (cause : Decimal.Malformed)
  | negative (input : String)
  | overflow (lhs rhs : Decimal)
  deriving DecidableEq

def DecimalError.message : DecimalError → String
  | .malformed input cause => "malformed decimal " ++ Text.quoted input ++ ": " ++ cause.reason
  | .negative input => "negative value not allowed: " ++ Text.quoted input
  | .overflow lhs rhs => "decimal overflow adding " ++ lhs.render ++ " and " ++ rhs.render

namespace Decimal

def parse (input : String) : Except DecimalError Decimal :=
  match readExact (Text.strip input.toList) with
  | .ok d => .ok d
  | .error cause => .error (.malformed input cause)

def add (a b : Decimal) : Except DecimalError Decimal :=
  match a.add? b with
  | some d => .ok d
  | none => .error (.overflow a b)

theorem add_eq_ok_iff {a b d : Decimal} : a.add b = .ok d ↔ a.add? b = some d := by
  unfold add
  cases a.add? b <;> simp

end Decimal

end Candlestick
