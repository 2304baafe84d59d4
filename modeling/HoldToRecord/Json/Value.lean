import HoldToRecord.Decimal.Shortest

/-!
# JSON values

A `Value` is what one JSON text holds. Members of an object keep their order, and a key may occur
more than once. A number is an integer between -2^63 and 2^64-1 where it can be, and a binary64
bit pattern otherwise.
-/

namespace HoldToRecord.Json

/-- A JSON number. -/
inductive Number
  | integer (i : Int)
  | float (bits : UInt64)
  deriving DecidableEq, Repr

/-- A JSON value. -/
inductive Value
  | null
  | boolean (b : Bool)
  | number (n : Number)
  | text (s : String)
  | list (items : List Value)
  | object (members : List (String × Value))

/-- How floating-point numbers are set out: positional from 10^-5 up to below 10^16. -/
def floatLayout : Decimal.Layout := ⟨-5, 15⟩

/-- The text of a number. -/
def Number.write : Number → List Char
  | .integer i => Decimal.signed i
  | .float bits => floatLayout.writeBits bits

end HoldToRecord.Json
