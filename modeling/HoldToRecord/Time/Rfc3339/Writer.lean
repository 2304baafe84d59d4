import HoldToRecord.Decimal.Digits
import HoldToRecord.Time.Instant

/-!
# Writing instants

`write zone i` is the RFC 3339 text of an instant at a zone: date, `T`, time of day, as many
fraction digits in groups of three as lose nothing, and the zone. A year outside 0 to 9999 has a
sign and at least four digits; the leap second is written as second 60.
-/

namespace HoldToRecord.Time.Rfc3339

open HoldToRecord.Decimal

/-- How the zone of a written instant stands at its end: `Z`, or hours and minutes ahead of
Universal Time. -/
inductive Zone
  | zulu
  | ahead (minutes : Int)
  deriving DecidableEq, Repr

/-- Minutes that local time is ahead of Universal Time. -/
def Zone.minutes : Zone → Int
  | .zulu => 0
  | .ahead m => m

/-- A year: four digits, or a sign and at least four. -/
def writeYear (year : Int) : List Char :=
  if 0 ≤ year ∧ year ≤ 9999 then padded 4 year.toNat
  else (if year < 0 then '-' else '+') :: atLeast 4 year.natAbs

/-- Year, month and day, with hyphens between. -/
def writeDate (d : Date) : List Char :=
  writeYear d.year ++ '-' :: padded 2 d.month ++ '-' :: padded 2 d.day

/-- The fraction of a second in the fewest groups of three digits. -/
def writeFraction (nanos : Nat) : List Char :=
  if nanos = 0 then []
  else if nanos % 1000000 = 0 then '.' :: padded 3 (nanos / 1000000)
  else if nanos % 1000 = 0 then '.' :: padded 6 (nanos / 1000)
  else '.' :: padded 9 nanos

/-- Hour, minute and second of the day, and the fraction; a leap second is the second after the
one it prolongs. -/
def writeTime (second nano : Nat) : List Char :=
  padded 2 (second / 3600) ++ ':' :: padded 2 (second / 60 % 60) ++
    ':' :: padded 2 (second % 60 + nano / 1000000000) ++ writeFraction (nano % 1000000000)

/-- The zone: `Z`, or a sign, hours, a colon and minutes. -/
def Zone.write : Zone → List Char
  | .zulu => ['Z']
  | .ahead m =>
    (if m < 0 then '-' else '+') :: padded 2 (m.natAbs / 60) ++ ':' :: padded 2 (m.natAbs % 60)

/-- Seconds since the start of an instant's day, on the clock of a zone. -/
def localSeconds (zone : Zone) (i : Instant) : Int := i.second + zone.minutes * 60

/-- The day number of an instant in a zone. -/
def localDay (zone : Zone) (i : Instant) : Int := i.day + localSeconds zone i / 86400

/-- The text of an instant at a zone. -/
def write (zone : Zone) (i : Instant) : List Char :=
  writeDate (Date.ofNumber (localDay zone i)) ++
    'T' :: writeTime (localSeconds zone i % 86400).toNat i.nano ++ zone.write

/-- The text of an instant that ends in `Z`. -/
def text (i : Instant) : String := String.ofList (write .zulu i)

/-- The text of an instant that ends in `+00:00`. -/
def offsetText (i : Instant) : String := String.ofList (write (.ahead 0) i)

end HoldToRecord.Time.Rfc3339
