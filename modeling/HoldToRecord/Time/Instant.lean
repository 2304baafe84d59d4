import HoldToRecord.Time.Date

/-!
# Instants

An `Instant` is a moment of Universal Time to the nanosecond, from the first moment of the year
-262143 to the last of the year 262142. A leap second prolongs the last second of a minute: its
nanoseconds run from 1000000000 to 1999999999. `elapsed` is the difference of two instants, in
which a leap second counts only within its day.
-/

namespace HoldToRecord.Time

/-- Day number of -262143-01-01. -/
def firstDay : Int := -96465292

/-- Day number of +262142-12-31. -/
def lastDay : Int := 95026236

/-- Whether a day, a second of the day and nanoseconds make an instant. -/
def IsInstant (day : Int) (second nano : Nat) : Prop :=
  (firstDay ≤ day ∧ day ≤ lastDay) ∧ second < 86400 ∧ nano < 2000000000 ∧
    (1000000000 ≤ nano → second % 60 = 59)

instance (day : Int) (second nano : Nat) : Decidable (IsInstant day second nano) := by
  unfold IsInstant
  infer_instance

/-- A moment: the day counted from 1970-01-01, the second of the day, and the nanoseconds, which
reach beyond a second only within a leap second. -/
structure Instant where
  day : Int
  second : Nat
  nano : Nat
  valid : IsInstant day second nano
  deriving DecidableEq

namespace Instant

/-- The instant of a day, a second of the day and nanoseconds, if there is one. -/
def of? (day : Int) (second nano : Nat) : Option Instant :=
  if h : IsInstant day second nano then some ⟨day, second, nano, h⟩ else none

/-- 1970-01-01T00:00:00Z. -/
def epoch : Instant := ⟨0, 0, 0, by decide⟩

/-- Two instants are equal if day, second and nanoseconds are. -/
theorem ext_parts {a b : Instant} (hd : a.day = b.day) (hs : a.second = b.second)
    (hn : a.nano = b.nano) : a = b := by
  cases a
  cases b
  simp_all

/-- The instant found for the parts of an instant is that instant. -/
theorem of?_parts (i : Instant) : of? i.day i.second i.nano = some i := by
  simp [of?, i.valid]

/-- The instant a number of milliseconds after the epoch, if it is in range. -/
def ofMillis? (millis : Int) : Option Instant :=
  of? (millis / 86400000) (millis % 86400000 / 1000).toNat (millis % 1000 * 1000000).toNat

/-- Whole seconds since the epoch, rounded down. -/
def unixSeconds (i : Instant) : Int := i.day * 86400 + i.second

/-- Whole milliseconds since the epoch, rounded down; a leap second adds up to another second. -/
def unixMillis (i : Instant) : Int := i.unixSeconds * 1000 + (i.nano / 1000000 : Nat)

/-- Whether the instant lies within a leap second. -/
def inLeapSecond (i : Instant) : Bool := 1000000000 ≤ i.nano

/-- What a leap second adds to the difference of two times of day: it counts when the other time
is later in the day. -/
def leapCorrection (a b : Instant) : Int :=
  if b.second < a.second then (if b.inLeapSecond then 1 else 0)
  else if a.second < b.second then (if a.inLeapSecond then -1 else 0)
  else 0

/-- Nanoseconds from `b` to `a`. -/
def elapsed (a b : Instant) : Int :=
  ((a.day - b.day) * 86400 + ((a.second : Int) - b.second) + leapCorrection a b) * 1000000000 +
    ((a.nano : Int) - b.nano)

/-- Whole milliseconds from `b` to `a`, rounded toward zero. -/
def elapsedMillis (a b : Instant) : Int := (a.elapsed b).tdiv 1000000

/-- Milliseconds from the epoch name an instant exactly when its day is in range. -/
theorem ofMillis?_isSome_iff (millis : Int) :
    (ofMillis? millis).isSome ↔ -8334601228800000 ≤ millis ∧ millis ≤ 8210266876799999 := by
  unfold ofMillis? of?
  split
  · next h =>
    simp only [IsInstant, firstDay, lastDay] at h
    simp only [Option.isSome_some, true_iff]
    omega
  · next h =>
    simp only [IsInstant, firstDay, lastDay] at h
    simp only [Option.isSome_none, Bool.false_eq_true, false_iff]
    omega

/-- Milliseconds read back as they were given. -/
theorem unixMillis_of_ofMillis? {millis : Int} {i : Instant} (h : ofMillis? millis = some i) :
    i.unixMillis = millis := by
  unfold ofMillis? of? at h
  split at h
  · obtain rfl := Option.some.inj h
    simp only [unixMillis, unixSeconds]
    omega
  · simp at h

/-- Milliseconds never name a moment within a leap second. -/
theorem inLeapSecond_of_ofMillis? {millis : Int} {i : Instant} (h : ofMillis? millis = some i) :
    i.inLeapSecond = false := by
  unfold ofMillis? of? at h
  split at h
  · obtain rfl := Option.some.inj h
    simp only [inLeapSecond, decide_eq_false_iff_not]
    omega
  · simp at h

end Instant

end HoldToRecord.Time
