import HoldToRecord.Json.Lexeme

/-!
# Reading JSON numbers

A number without fraction and exponent that lies between -2^63 and 2^64-1 is an integer. Every
other number is a binary64 one: the first digits that fit 64 bits, scaled by a power of ten with
one rounded multiplication or division. A number too large for binary64 is a fault, one too small
is zero, and `-0` is the negative zero.
-/

namespace HoldToRecord.Json

/-- Whether a byte is a digit. -/
def isDigit (b : UInt8) : Bool := 48 ≤ b && b ≤ 57

/-- The first of some bytes is a digit. -/
def startsWithDigit : Bytes → Bool
  | [] => false
  | b :: _ => isDigit b

/-- Largest significand that is kept exactly, 2^64-1. -/
def maxSignificand : Nat := 0xFFFFFFFFFFFFFFFF

/-- Digits at the front, added to the number `value` as long as it stays in 64 bits; `count` says
how many were taken. -/
def significandFrom (value count : Nat) : Bytes → Nat × Nat × Bytes
  | [] => (value, count, [])
  | b :: s =>
    if isDigit b then
      let next := value * 10 + (b.toNat - 48)
      if next ≤ maxSignificand then significandFrom next (count + 1) s else (value, count, b :: s)
    else (value, count, b :: s)

/-- What follows the digits at the front. -/
def skipDigits : Bytes → Bytes
  | [] => []
  | b :: s => if isDigit b then skipDigits s else b :: s

/-- How many digits stand at the front, added to `count`. -/
def countDigits (count : Nat) : Bytes → Nat
  | [] => count
  | b :: s => if isDigit b then countDigits (count + 1) s else count

/-! ## Binary numbers -/

/-- A magnitude with its sign. -/
def withSign (negative : Bool) (f : Float) : UInt64 := (if negative then -f else f).toBits

/-- The powers of ten that are taken in one step, from the zeroth on. -/
def powersOfTen : Array Float := (Array.range 309).map fun n => Float.ofScientific 1 false n

/-- A power of ten of at most 308. -/
def powerOfTen (n : Nat) : Float := powersOfTen[n]?.getD 1

/-- Divides by powers of ten of at most 308 until the exponent is used up or nothing is left. -/
def scaleDown (f : Float) (exponent : Nat) : Float :=
  if f == 0 then f
  else if _h : exponent ≤ 308 then f / powerOfTen exponent
  else scaleDown (f / powerOfTen 308) (exponent - 308)
termination_by exponent

/-- A significand scaled by a power of ten; `rest` is what follows the number. -/
def scaled (negative : Bool) (significand : Nat) (exponent : Int) (rest : Bytes) :
    Except Fault (Number × Bytes) :=
  let f := Float.ofNat significand
  if 0 ≤ exponent then
    if exponent ≤ 308 then
      let g := f * powerOfTen exponent.toNat
      if g.isInf then .error (.here .numberTooLarge rest)
      else .ok (.float (withSign negative g), rest)
    else if significand = 0 then .ok (.float (withSign negative f), rest)
    else .error (.here .numberTooLarge rest)
  else .ok (.float (withSign negative (scaleDown f exponent.natAbs)), rest)

/-- Largest exponent that is told apart. -/
def maxExponent : Nat := 2147483647

/-- The digits of an exponent after the first, as long as the exponent stays in its bound. -/
def exponentFrom (value : Nat) : Bytes → Option Nat × Bytes
  | [] => (some value, [])
  | b :: s =>
    if isDigit b then
      let next := value * 10 + (b.toNat - 48)
      if next ≤ maxExponent then exponentFrom next s else (none, s)
    else (some value, b :: s)

/-- The sign of an exponent; true for a minus. -/
def exponentSign : Bytes → Bool × Bytes
  | [] => (false, [])
  | b :: s =>
    if b = byte '+' then (false, s)
    else if b = byte '-' then (true, s)
    else (false, b :: s)

/-- An exponent whose `e` has been read, and the number it completes. -/
def exponentOf (negative : Bool) (significand : Nat) (start : Int) (s : Bytes) :
    Except Fault (Number × Bytes) :=
  let (down, s) := exponentSign s
  match s with
  | [] => .error (.here .endInValue [])
  | b :: s =>
    if isDigit b then
      match exponentFrom (b.toNat - 48) s with
      | (some e, rest) => scaled negative significand (if down then start - e else start + e) rest
      | (none, rest) =>
        if significand != 0 && !down then .error (.here .numberTooLarge rest)
        else .ok (.float (withSign negative 0), skipDigits rest)
    else .error (.here .badNumber s)

/-- Whether an exponent comes next. -/
def exponentFollows : Bytes → Option Bytes
  | [] => none
  | b :: s => if b = byte 'e' || b = byte 'E' then some s else none

/-- What may follow the digits of a significand scaled by `start`. -/
def afterDigits (negative : Bool) (significand : Nat) (start : Int) (s : Bytes) :
    Except Fault (Number × Bytes) :=
  match exponentFollows s with
  | some s => exponentOf negative significand start s
  | none => scaled negative significand start s

/-- A fraction whose point has been read. -/
def fractionOf (negative : Bool) (significand : Nat) (start : Int) (s : Bytes) :
    Except Fault (Number × Bytes) :=
  let (value, count, rest) := significandFrom significand 0 s
  if startsWithDigit rest then afterDigits negative value (start - count) (skipDigits rest)
  else if count = 0 then
    match rest with
    | [] => .error (.onNext .endInValue [])
    | b :: rest => .error (.onNext .badNumber (b :: rest))
  else afterDigits negative value (start - count) rest

/-- What follows the whole part of a number that is not kept exactly. -/
def afterWhole (negative : Bool) (significand : Nat) (start : Int) (s : Bytes) :
    Except Fault (Number × Bytes) :=
  match s with
  | [] => scaled negative significand start []
  | b :: rest =>
    if b = byte '.' then fractionOf negative significand start rest
    else afterDigits negative significand start (b :: rest)

/-- A number without fraction and exponent. -/
def wholeNumber (negative : Bool) (significand : Nat) : Number :=
  if negative then
    if significand = 0 || 0x8000000000000000 < significand then
      .float (withSign true (Float.ofNat significand))
    else .integer (-(significand : Int))
  else .integer significand

/-- What follows a whole part of at most 64 bits. -/
def afterSignificand (negative : Bool) (significand : Nat) (s : Bytes) :
    Except Fault (Number × Bytes) :=
  match s with
  | [] => .ok (wholeNumber negative significand, [])
  | b :: rest =>
    if b = byte '.' || b = byte 'e' || b = byte 'E' then
      afterWhole negative significand 0 (b :: rest)
    else .ok (wholeNumber negative significand, b :: rest)

/-- A number after its sign. -/
def number (negative : Bool) (s : Bytes) : Except Fault (Number × Bytes) :=
  match s with
  | [] => .error (.here .endInValue [])
  | b :: rest =>
    if b = byte '0' then
      if startsWithDigit rest then .error (.onNext .badNumber rest)
      else afterSignificand negative 0 rest
    else if isDigit b then
      let (value, _, rest) := significandFrom 0 0 (b :: rest)
      if startsWithDigit rest then afterWhole negative value (countDigits 0 rest) (skipDigits rest)
      else afterSignificand negative value rest
    else .error (.here .badNumber rest)

end HoldToRecord.Json
