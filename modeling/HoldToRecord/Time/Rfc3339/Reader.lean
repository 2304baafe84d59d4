import HoldToRecord.Decimal.Digits
import HoldToRecord.Text.Blank
import HoldToRecord.Time.Instant

/-!
# Reading instants

`read` takes a relaxed form of RFC 3339: numbers without leading zeros, blanks before numbers and
before the hyphens and colons of date and time, a `T`, `t` or space between date and time, and a
zone that is `Z`, `UTC` or a sign with hours and minutes. A number is checked against its range as
soon as it is read; whether the day is one of the calendar, and the moment one of the range, is
found last.
-/

namespace HoldToRecord.Time.Rfc3339

open HoldToRecord.Text HoldToRecord.Decimal

/-- Why a text is no instant. -/
inductive Fault
  /-- The text ends too early. -/
  | short
  /-- Something else is expected at this place. -/
  | invalid
  /-- A number does not fit. -/
  | range
  /-- The text goes on after the instant. -/
  | trailing
  /-- The moment lies outside the range of instants. -/
  | impossible
  deriving DecidableEq, Repr

/-- The message of a fault. -/
def Fault.message : Fault → String
  | .short => "premature end of input"
  | .invalid => "input contains invalid characters"
  | .range => "input is out of range"
  | .trailing => "trailing input"
  | .impossible => "no possible date and time matching input"

/-- Bounds of a year's number as it is read. -/
def yearBound : Nat := 2147483648

/-- Numbers from here on are too large at every place. -/
def numberCap : Nat := yearBound + 1

/-- The number written by the digits in `window`, with what follows them in `cs`; at least one
digit has to stand there. A number that is too large everywhere is read as `numberCap`. -/
def number (window cs : List Char) : Except Fault (Nat × List Char) :=
  match cs with
  | [] => .error .short
  | c :: _ =>
    if isDigit c then
      let ds := window.takeWhile isDigit
      .ok (valueUpTo numberCap ds, cs.drop ds.length)
    else .error .invalid

/-- A number of one or two digits between `low` and `high`, blanks before it. -/
def field (low high : Nat) (cs : List Char) : Except Fault (Nat × List Char) := do
  let cs := trimStart cs
  let (n, cs) ← number (cs.take 2) cs
  if low ≤ n ∧ n ≤ high then .ok (n, cs) else .error .range

/-- A year: up to four digits, or a sign and any number of them; blanks before it. -/
def year (cs : List Char) : Except Fault (Int × List Char) :=
  match trimStart cs with
  | '-' :: cs => do
    let (n, cs) ← number cs cs
    if n ≤ yearBound then .ok (-(n : Int), cs) else .error .range
  | '+' :: cs => do
    let (n, cs) ← number cs cs
    if n < yearBound then .ok ((n : Int), cs) else .error .range
  | cs => do
    let (n, cs) ← number (cs.take 4) cs
    .ok ((n : Int), cs)

/-- The mark `m`, blanks before it. -/
def mark (m : Char) (cs : List Char) : Except Fault (List Char) :=
  match trimStart cs with
  | [] => .error .short
  | c :: cs => if c = m then .ok cs else .error .invalid

/-- What stands between date and time. -/
def divider (cs : List Char) : Except Fault (List Char) :=
  match cs with
  | [] => .error .short
  | c :: cs => if c = 'T' ∨ c = 't' ∨ c = ' ' then .ok cs else .error .invalid

/-- Nanoseconds from the digits after a point, of which nine count; none without a point. -/
def fraction (cs : List Char) : Except Fault (Nat × List Char) :=
  match cs with
  | '.' :: cs => do
    let (n, _) ← number (cs.take 9) cs
    let places := ((cs.take 9).takeWhile isDigit).length
    .ok (n * Nat.pow 10 (9 - places), cs.dropWhile isDigit)
  | cs => .ok (0, cs)

/-- Whether a text of one character is too short to hold two bytes. -/
def isSingleByte (c : Char) : Bool := c.toNat < 128

/-- Two characters, if two bytes are left at all. -/
def pair (cs : List Char) : Except Fault (Char × Char × List Char) :=
  match cs with
  | [] => .error .short
  | [c] => if isSingleByte c then .error .short else .error .invalid
  | a :: b :: cs => .ok (a, b, cs)

/-- Two digits of the hours of a zone. -/
def zoneHours (cs : List Char) : Except Fault (Nat × List Char) := do
  let (a, b, cs) ← pair cs
  if isDigit a && isDigit b then .ok (value [a, b], cs) else .error .invalid

/-- Two digits of the minutes of a zone, below sixty. -/
def zoneMinutes (cs : List Char) : Except Fault (Nat × List Char) := do
  let (a, b, cs) ← pair cs
  if isDigit a && isDigit b then
    if value [a, b] < 60 then .ok (value [a, b], cs) else .error .range
  else .error .invalid

/-- Hours and minutes of a zone in minutes, colons and blanks between them. -/
def zoneSize (cs : List Char) : Except Fault (Nat × List Char) := do
  let (hours, cs) ← zoneHours cs
  let (minutes, cs) ← zoneMinutes (cs.dropWhile fun c => c == ':' || isBlank c)
  .ok (hours * 60 + minutes, cs)

/-- Whether a character is one of the two cases of a letter. -/
def isLetter (upper lower c : Char) : Bool := c == upper || c == lower

/-- What follows `UTC`, in any case, at the front of a text. -/
def afterUtc? (cs : List Char) : Option (List Char) :=
  match cs with
  | a :: b :: c :: rest =>
    if isLetter 'U' 'u' a && isLetter 'T' 't' b && isLetter 'C' 'c' c then some rest else none
  | _ => none

/-- A zone, in minutes ahead of Universal Time. -/
def zone (cs : List Char) : Except Fault (Int × List Char) :=
  match afterUtc? cs with
  | some rest => .ok (0, rest)
  | none =>
    match cs with
    | [] => .error .short
    | c :: rest =>
      if isLetter 'Z' 'z' c then .ok (0, rest)
      else if c = '+' then do
        let (n, rest) ← zoneSize rest
        .ok ((n : Int), rest)
      else if c = '-' ∨ c = '−' then do
        let (n, rest) ← zoneSize rest
        .ok (-(n : Int), rest)
      else .error .invalid

/-- The parts of an instant as they are written. -/
structure Parts where
  date : Date
  hour : Nat
  minute : Nat
  second : Nat
  nano : Nat
  offset : Int
  deriving DecidableEq, Repr

/-- The parts at the front of a text, each within its own range. -/
def parts (cs : List Char) : Except Fault (Parts × List Char) := do
  let (y, cs) ← year cs
  let cs ← mark '-' cs
  let (m, cs) ← field 1 12 cs
  let cs ← mark '-' cs
  let (d, cs) ← field 1 31 cs
  let cs ← divider cs
  let (hour, cs) ← field 0 23 cs
  let cs ← mark ':' cs
  let (minute, cs) ← field 0 59 cs
  let cs ← mark ':' cs
  let (second, cs) ← field 0 60 cs
  let (nano, cs) ← fraction cs
  let (offset, cs) ← zone (trimStart cs)
  .ok (⟨⟨y, m, d⟩, hour, minute, second, nano, offset⟩, cs)

/-- The instant that parts name: second 60 is the leap second after second 59. -/
def Parts.instant (p : Parts) : Except Fault Instant :=
  if !p.date.isReal then .error .range
  else if p.date.number < firstDay ∨ lastDay < p.date.number then .error .range
  else if p.offset ≤ -1440 ∨ 1440 ≤ p.offset then .error .range
  else
    let leap := if p.second = 60 then 1 else 0
    let clock : Int := p.hour * 3600 + p.minute * 60 + (p.second - leap : Nat) - p.offset * 60
    match Instant.of? (p.date.number + clock / 86400) (clock % 86400).toNat
        (p.nano + leap * 1000000000) with
    | some i => .ok i
    | none => .error .impossible

/-- The instant that a whole text names. -/
def read (cs : List Char) : Except Fault Instant := do
  let (p, cs) ← parts cs
  if trimStart cs = [] then p.instant else .error .trailing

end HoldToRecord.Time.Rfc3339
