import HoldToRecord.Json.Format
import HoldToRecord.Time.Rfc3339.Reader
import HoldToRecord.Time.Rfc3339.Writer

/-!
# Instants in JSON

An instant is a JSON string that holds its RFC 3339 text. It is written at Universal Time with a
`Z` and read in the relaxed form.
-/

namespace HoldToRecord.Json

open HoldToRecord.Time

/-- An instant as a value. -/
def Value.instant (i : Instant) : Value := .text (Rfc3339.text i)

/-- The instant that a string names. -/
def instantOf (t : String) : Except Mismatch Instant :=
  (Rfc3339.read t.toList).mapError fun f => .refused f.message

/-- A string that names an instant. -/
def Kind.instant : Kind Instant :=
  .checked "an RFC 3339 formatted date and time string" instantOf

end HoldToRecord.Json
