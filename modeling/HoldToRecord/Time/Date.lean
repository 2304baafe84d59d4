/-!
# The proleptic Gregorian calendar

A `Date` is a year, a month and a day of the month; years run on before year 1 without a gap.
`Date.number` counts days from 1970-01-01 and `Date.ofNumber` names the day of a number. Main
facts: `dayOfYear_bounds` (the year found for a day number is the one the day lies in) and
`number_ofNumber`.
-/

namespace HoldToRecord.Time

/-! ## Years -/

/-- Every fourth year is a leap year, but of the full centuries only every fourth. -/
def isLeap (year : Int) : Bool := year % 4 == 0 && (year % 100 != 0 || year % 400 == 0)

/-- Days from 0001-01-01 to the first day of a year. -/
def daysBeforeYear (year : Int) : Int :=
  365 * (year - 1) + (year - 1) / 4 - (year - 1) / 100 + (year - 1) / 400

/-- Days in a year. -/
def yearLength (year : Int) : Nat := if isLeap year then 366 else 365

/-- The next year starts when the days of this one are over. -/
theorem daysBeforeYear_succ (year : Int) :
    daysBeforeYear (year + 1) = daysBeforeYear year + yearLength year := by
  unfold daysBeforeYear yearLength isLeap
  by_cases h4 : year % 4 = 0 <;> by_cases h100 : year % 100 = 0 <;>
    by_cases h400 : year % 400 = 0 <;> simp [h4, h100, h400] <;> omega

/-- The year in which the day lies that is `days` after 0001-01-01, by the cycles of 400, 100, 4
and 1 years; the last day of a cycle belongs to its last part. -/
def yearOfDay (days : Int) : Int :=
  let inCycle := days % 146097
  let century := min (inCycle / 36524) 3
  let inCentury := inCycle - century * 36524
  let quad := inCentury / 1461
  let inQuad := inCentury - quad * 1461
  let single := min (inQuad / 365) 3
  400 * (days / 146097) + 100 * century + 4 * quad + single + 1

/-- Days before the year that `a` cycles of 400, `b` of 100, `c` of 4 and `e` single years come
before. -/
theorem daysBeforeYear_cycles {a b c e : Int} (hb : 0 ≤ b ∧ b ≤ 3) (hc : 0 ≤ c ∧ c ≤ 24)
    (he : 0 ≤ e ∧ e ≤ 3) :
    daysBeforeYear (400 * a + 100 * b + 4 * c + e + 1) =
      146097 * a + 36524 * b + 1461 * c + 365 * e := by
  have h4 : (400 * a + 100 * b + 4 * c + e + 1 - 1) / 4 = 100 * a + 25 * b + c := by omega
  have h100 : (400 * a + 100 * b + 4 * c + e + 1 - 1) / 100 = 4 * a + b := by omega
  have h400 : (400 * a + 100 * b + 4 * c + e + 1 - 1) / 400 = a := by omega
  unfold daysBeforeYear
  rw [h4, h100, h400]
  omega

/-- A day lies in the year found for it. -/
theorem dayOfYear_bounds (days : Int) :
    daysBeforeYear (yearOfDay days) ≤ days ∧ days < daysBeforeYear (yearOfDay days + 1) := by
  obtain ⟨a, ha⟩ : ∃ a, days / 146097 = a := ⟨_, rfl⟩
  obtain ⟨b, hb⟩ : ∃ b, min (days % 146097 / 36524) 3 = b := ⟨_, rfl⟩
  obtain ⟨c, hc⟩ : ∃ c, (days % 146097 - b * 36524) / 1461 = c := ⟨_, rfl⟩
  obtain ⟨e, he⟩ : ∃ e, min ((days % 146097 - b * 36524 - c * 1461) / 365) 3 = e := ⟨_, rfl⟩
  have hy : yearOfDay days = 400 * a + 100 * b + 4 * c + e + 1 := by
    simp only [yearOfDay, ha, hb, hc, he]
  obtain ⟨r, hr⟩ : ∃ r, days % 146097 = r := ⟨_, rfl⟩
  rw [hr] at hb hc he
  have hdays : days = 146097 * a + r ∧ 0 ≤ r ∧ r < 146097 := by omega
  have hb' : 0 ≤ b ∧ b ≤ 3 ∧ 36524 * b ≤ r ∧ (r < 36524 * (b + 1) ∨ b = 3) := by omega
  have hc' : 0 ≤ c ∧ c ≤ 24 ∧ 1461 * c ≤ r - 36524 * b ∧ r - 36524 * b < 1461 * (c + 1) := by omega
  have he' : 0 ≤ e ∧ e ≤ 3 ∧ 365 * e ≤ r - 36524 * b - 1461 * c ∧
      (r - 36524 * b - 1461 * c < 365 * (e + 1) ∨ e = 3) := by omega
  have start := daysBeforeYear_cycles (a := a) ⟨hb'.1, hb'.2.1⟩ ⟨hc'.1, hc'.2.1⟩ ⟨he'.1, he'.2.1⟩
  have by4 : (400 * a + 100 * b + 4 * c + e + 1) % 4 = 0 ↔ e = 3 := by omega
  have by100 : (400 * a + 100 * b + 4 * c + e + 1) % 100 = 0 ↔ e = 3 ∧ c = 24 := by omega
  have by400 : (400 * a + 100 * b + 4 * c + e + 1) % 400 = 0 ↔ e = 3 ∧ c = 24 ∧ b = 3 := by omega
  rw [daysBeforeYear_succ, yearLength, hy, start]
  clear ha hb hc he hr hy start
  simp only [isLeap, Bool.and_eq_true, Bool.or_eq_true, beq_iff_eq, bne_iff_ne, by4, by100, by400,
    ne_eq]
  split <;> omega

/-! ## Months -/

/-- Lengths of the twelve months. -/
def monthLengths (leap : Bool) : List Nat :=
  [31, if leap then 29 else 28, 31, 30, 31, 30, 31, 31, 30, 31, 30, 31]

/-- Days of the year before a month, the months counted from one. -/
def daysBeforeMonth (leap : Bool) (month : Nat) : Nat :=
  ((monthLengths leap).take (month - 1)).foldl (· + ·) 0

/-- Length of a month, the months counted from one; zero for what is no month. -/
def monthLength (leap : Bool) (month : Nat) : Nat :=
  if month = 0 then 0 else (monthLengths leap).getD (month - 1) 0

/-- Month and day, both counted from one, of a day of the year counted from zero. -/
def monthAndDay (ordinal : Nat) : List Nat → Nat → Nat × Nat
  | [], month => (month, ordinal + 1)
  | length :: rest, month =>
    if ordinal < length then (month, ordinal + 1)
    else monthAndDay (ordinal - length) rest (month + 1)

/-! ## Dates -/

/-- A day of the calendar. -/
structure Date where
  year : Int
  month : Nat
  day : Nat
  deriving DecidableEq, Repr

/-- Whether the month exists and has the day. -/
def Date.isReal (d : Date) : Bool :=
  1 ≤ d.month && d.month ≤ 12 && 1 ≤ d.day && d.day ≤ monthLength (isLeap d.year) d.month

/-- Days from 0001-01-01 to 1970-01-01. -/
def epochDay : Int := 719162

/-- Days from 1970-01-01 to a date. -/
def Date.number (d : Date) : Int :=
  daysBeforeYear d.year + daysBeforeMonth (isLeap d.year) d.month + d.day - 1 - epochDay

/-- The date that is `days` days after 1970-01-01. -/
def Date.ofNumber (days : Int) : Date :=
  let year := yearOfDay (days + epochDay)
  let ordinal := (days + epochDay - daysBeforeYear year).toNat
  let found := monthAndDay ordinal (monthLengths (isLeap year)) 1
  ⟨year, found.1, found.2⟩

/-- Month and day are those of the day of the year. -/
theorem daysBeforeMonth_monthAndDay (leap : Bool) :
    ∀ ordinal < (if leap then 366 else 365),
      let found := monthAndDay ordinal (monthLengths leap) 1
      daysBeforeMonth leap found.1 + found.2 = ordinal + 1 ∧
        (1 ≤ found.1 ∧ found.1 ≤ 12 ∧ 1 ≤ found.2 ∧ found.2 ≤ monthLength leap found.1) := by
  cases leap <;> decide +kernel

/-- The date of a day number has that number. -/
theorem number_ofNumber (days : Int) : (Date.ofNumber days).number = days := by
  obtain ⟨low, high⟩ := dayOfYear_bounds (days + epochDay)
  rw [daysBeforeYear_succ] at high
  have bound : (days + epochDay - daysBeforeYear (yearOfDay (days + epochDay))).toNat <
      (if isLeap (yearOfDay (days + epochDay)) then 366 else 365) := by
    unfold yearLength at high
    split at high <;> split <;> simp_all <;> omega
  have found := (daysBeforeMonth_monthAndDay _ _ bound).1
  simp only [Date.ofNumber, Date.number]
  omega

/-- The date of a day number is one of the calendar. -/
theorem isReal_ofNumber (days : Int) : (Date.ofNumber days).isReal = true := by
  obtain ⟨low, high⟩ := dayOfYear_bounds (days + epochDay)
  rw [daysBeforeYear_succ] at high
  have bound : (days + epochDay - daysBeforeYear (yearOfDay (days + epochDay))).toNat <
      (if isLeap (yearOfDay (days + epochDay)) then 366 else 365) := by
    unfold yearLength at high
    split at high <;> split <;> simp_all <;> omega
  obtain ⟨-, h1, h2, h3, h4⟩ := daysBeforeMonth_monthAndDay _ _ bound
  simp only [Date.ofNumber, Date.isReal, Bool.and_eq_true]
  exact ⟨⟨⟨decide_eq_true h1, decide_eq_true h2⟩, decide_eq_true h3⟩, decide_eq_true h4⟩

end HoldToRecord.Time
