import HoldToRecord.Decimal.Digits

/-!
# Shortest decimals of binary floating-point numbers

A finite binary64 number is `mantissa · 2 ^ exponent`. The reals nearer to it than to its
neighbours form an interval, whose ends belong to it exactly when the mantissa is even. Of the
decimals in the interval, `shortest` picks one with the fewest digits, of two such the nearer one,
and of two equally near ones the even one. `Layout` then decides how the digits are set out.
Everything is exact natural-number arithmetic on the bit pattern.
-/

namespace HoldToRecord.Decimal

/-- A positive binary number, `mantissa · 2 ^ exponent`, and whether the gap below it is half the
gap above it. -/
structure Binary where
  mantissa : Nat
  exponent : Int
  lowerGapHalved : Bool
  deriving DecidableEq, Repr

/-- The magnitude of a finite, nonzero binary64 bit pattern: the low 52 bits are the fraction, the
next eleven the exponent. -/
def Binary.ofBits (bits : UInt64) : Binary :=
  let fraction : Nat := bits.toNat % 0x10000000000000
  let biased : Nat := bits.toNat / 0x10000000000000 % 0x800
  if biased == 0 then ⟨fraction, -1074, false⟩
  else ⟨0x10000000000000 + fraction, (biased : Int) - 1075, fraction == 0 && biased != 1⟩

/-- A positive number and the interval of reals that round to it, all over one denominator. -/
structure Interval where
  low : Nat
  mid : Nat
  high : Nat
  denominator : Nat
  closed : Bool
  deriving DecidableEq, Repr

/-- The interval of a binary number; a quarter of its last place is the unit. -/
def Binary.interval (b : Binary) : Interval :=
  let quarter := b.exponent - 2
  let scale := Nat.pow 2 quarter.toNat
  { low := (4 * b.mantissa - if b.lowerGapHalved then 1 else 2) * scale
    mid := 4 * b.mantissa * scale
    high := (4 * b.mantissa + 2) * scale
    denominator := Nat.pow 2 (-quarter).toNat
    closed := b.mantissa % 2 == 0 }

/-- A positive decimal, `significand · 10 ^ power`. -/
structure Scaled where
  significand : Nat
  power : Int
  deriving DecidableEq, Repr

/-- Whether a decimal lies in an interval. -/
def Interval.holds (i : Interval) (d : Scaled) : Bool :=
  let left := d.significand * Nat.pow 10 d.power.toNat * i.denominator
  let scale := Nat.pow 10 (-d.power).toNat
  if i.closed then i.low * scale ≤ left && left ≤ i.high * scale
  else i.low * scale < left && left < i.high * scale

/-- Twice the distance of a decimal from the middle of an interval, in units that do not depend
on the decimal's significand. -/
def Interval.distance (i : Interval) (d : Scaled) : Nat :=
  let left := d.significand * Nat.pow 10 d.power.toNat * i.denominator
  let middle := i.mid * Nat.pow 10 (-d.power).toNat
  (left - middle) + (middle - left)

/-- The power of ten of the first digit of `mid / denominator`, searched downwards from zero with
`steps` tries when the quotient is below one. -/
def leadingPower (mid denominator : Nat) : Nat → Int
  | 0 => 0
  | steps + 1 =>
    if mid < denominator then leadingPower (mid * 10) denominator steps - 1
    else ((digits (mid / denominator)).length : Int) - 1

/-- The multiple of `10 ^ power` at or below the middle of an interval. -/
def Interval.below (i : Interval) (power : Int) : Scaled :=
  ⟨i.mid * Nat.pow 10 (-power).toNat / (i.denominator * Nat.pow 10 power.toNat), power⟩

/-- Whether the higher neighbour of the middle is the better one: it is nearer, or as near and even
where the lower one is odd. -/
def Interval.prefersUp (i : Interval) (down up : Scaled) : Bool :=
  i.distance up < i.distance down ||
    (i.distance up == i.distance down && up.significand % 2 == 0)

/-- The nearer of the two neighbours of the middle among the multiples of `10 ^ power` that lie in
the interval. -/
def Interval.onGrid? (i : Interval) (power : Int) : Option Scaled :=
  let down := i.below power
  let up : Scaled := ⟨down.significand + 1, power⟩
  if i.holds down then
    if i.holds up && i.prefersUp down up then some up else some down
  else if i.holds up then some up
  else none

/-- Tries the grids of ever more digits, starting at `power`. -/
def Interval.search (i : Interval) (power : Int) : Nat → Scaled
  | 0 => i.below power
  | tries + 1 =>
    match i.onGrid? power with
    | some d => d
    | none => i.search (power - 1) tries

/-- The significand and power without trailing zeros in the significand. -/
def Scaled.reduce (d : Scaled) : Nat → Scaled
  | 0 => d
  | steps + 1 =>
    if d.significand % 10 == 0 && d.significand != 0 then
      Scaled.reduce ⟨d.significand / 10, d.power + 1⟩ steps
    else d

/-- A decimal of fewest digits that rounds to the number. -/
def shortest (b : Binary) : Scaled :=
  let i := b.interval
  (i.search (leadingPower i.mid i.denominator 400) 17).reduce 400

/-- How digits are set out: the first digit's power of ten decides between positional and
scientific form. -/
structure Layout where
  leastPositional : Int
  mostPositional : Int
  deriving DecidableEq, Repr

/-- The digits of a decimal in a layout; positional whole numbers end in `.0`, and the exponent of
the scientific form always has a sign. -/
def Layout.write (l : Layout) (d : Scaled) : List Char :=
  let ds := digits d.significand
  let lead := d.power + ds.length - 1
  if l.leastPositional ≤ lead && lead ≤ l.mostPositional then
    if 0 ≤ d.power then ds ++ List.replicate d.power.toNat '0' ++ ['.', '0']
    else if 0 ≤ lead then ds.take (lead.toNat + 1) ++ ['.'] ++ ds.drop (lead.toNat + 1)
    else ['0', '.'] ++ List.replicate (-lead - 1).toNat '0' ++ ds
  else
    ds.take 1 ++ (if ds.length ≤ 1 then [] else '.' :: ds.drop 1) ++
      ['e', if lead < 0 then '-' else '+'] ++ digits lead.natAbs

/-- The text of a finite binary64 bit pattern in a layout; zero keeps its sign. -/
def Layout.writeBits (l : Layout) (bits : UInt64) : List Char :=
  let magnitude := bits.toNat % 0x8000000000000000
  let body := if magnitude == 0 then ['0', '.', '0'] else l.write (shortest (.ofBits bits))
  if 0x8000000000000000 ≤ bits.toNat then '-' :: body else body

end HoldToRecord.Decimal
