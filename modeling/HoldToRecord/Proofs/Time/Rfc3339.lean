import Mathlib.Tactic
import HoldToRecord.Proofs.Decimal.Lengths
import HoldToRecord.Time.Rfc3339.Reader
import HoldToRecord.Time.Rfc3339.Writer

/-!
# Instants are read back from their texts

An instant that is written at a zone is read back (`read_write`), leap seconds included, as long as
the zone is less than a day ahead or behind and the local date is one of the calendar's range. Each
part of a text is read back on its own: the year with its sign, the fields of two digits, the
fraction and the zone.
-/

namespace HoldToRecord.Time

open HoldToRecord.Text HoldToRecord.Decimal

/-- The year of any instant has at most six digits. -/
theorem natAbs_yearOfDay_lt {day : Int} (hfirst : firstDay ≤ day) (hlast : day ≤ lastDay) :
    (yearOfDay (day + epochDay)).natAbs < 10 ^ 6 := by
  obtain ⟨hlow, hhigh⟩ := dayOfYear_bounds (day + epochDay)
  unfold daysBeforeYear at hlow hhigh
  simp only [firstDay, lastDay, epochDay] at *
  omega

namespace Rfc3339

/-! ## Digits -/

/-- A digit is no blank. -/
theorem isBlank_of_isDigit {c : Char} (h : Decimal.isDigit c = true) : isBlank c = false := by
  simp only [Decimal.isDigit, Bool.and_eq_true, decide_eq_true_eq] at h
  simp only [isBlank, Bool.or_eq_false_iff, Bool.and_eq_false_iff, decide_eq_false_iff_not,
    beq_eq_false_iff_ne]
  omega

/-- What follows digits does not go on with them. -/
def Ends (cs : List Char) : Prop := ∀ c ∈ cs.head?, Decimal.isDigit c = false

theorem ends_nil : Ends [] := by simp [Ends]

theorem ends_cons {c : Char} (hc : Decimal.isDigit c = false) (cs : List Char) : Ends (c :: cs) := by
  simpa [Ends] using hc

theorem ends_take {cs : List Char} (h : Ends cs) (n : Nat) : Ends (cs.take n) := by
  cases n with
  | zero => exact ends_nil
  | succ n =>
    cases cs with
    | nil => exact h
    | cons c cs => exact h

theorem takeWhile_digits {ds rest : List Char} (hds : ∀ c ∈ ds, Decimal.isDigit c = true)
    (hrest : Ends rest) : (ds ++ rest).takeWhile Decimal.isDigit = ds := by
  rw [List.takeWhile_append_of_pos hds]
  cases rest with
  | nil => simp
  | cons c rest => simp [hrest c rfl]

theorem dropWhile_digits {ds rest : List Char} (hds : ∀ c ∈ ds, Decimal.isDigit c = true)
    (hrest : Ends rest) : (ds ++ rest).dropWhile Decimal.isDigit = rest := by
  rw [List.dropWhile_append_of_pos hds]
  cases rest with
  | nil => simp
  | cons c rest => simp [hrest c rfl]

/-- Digits have no blanks in front. -/
theorem trimStart_digits {ds : List Char} (hds : ∀ c ∈ ds, Decimal.isDigit c = true)
    (hne : ds ≠ []) (rest : List Char) : trimStart (ds ++ rest) = ds ++ rest := by
  obtain ⟨c, ds, rfl⟩ := List.exists_cons_of_ne_nil hne
  exact trimStart_cons_ink (ds ++ rest) (isBlank_of_isDigit (hds c List.mem_cons_self))

/-- The digits that a window shows are read as their number. -/
theorem number_digits {window ds : List Char} (hds : ∀ c ∈ ds, Decimal.isDigit c = true)
    (hne : ds ≠ []) (hwindow : window.takeWhile Decimal.isDigit = ds)
    (hcap : value ds ≤ numberCap) (rest : List Char) :
    number window (ds ++ rest) = .ok (value ds, rest) := by
  obtain ⟨c, ds, rfl⟩ := List.exists_cons_of_ne_nil hne
  rw [List.cons_append, number, if_pos (hds c List.mem_cons_self), hwindow]
  dsimp only
  rw [valueUpTo_eq, Nat.min_eq_right hcap, ← List.cons_append, List.drop_left]

/-- A padded number is read in a window of its places. -/
theorem number_padded (places : Nat) {n : Nat} (hn : n < Nat.pow 10 (places + 1)) (hcap : n ≤ numberCap)
    (rest : List Char) :
    number ((padded (places + 1) n ++ rest).take (places + 1)) (padded (places + 1) n ++ rest)
      = .ok (n, rest) := by
  have hds : ∀ c ∈ padded (places + 1) n, Decimal.isDigit c = true := fun _ => isDigit_of_mem_padded
  have hwindow : ((padded (places + 1) n ++ rest).take (places + 1)).takeWhile Decimal.isDigit
      = padded (places + 1) n := by
    have htake := takeWhile_digits hds ends_nil
    rw [List.append_nil] at htake
    rw [List.take_left' (length_padded _ _), htake]
  have hvalue := value_padded hn
  rw [number_digits hds (padded_ne_nil places n) hwindow (by omega), hvalue]

/-- A number with at least some digits is read up to where the digits end. -/
theorem number_atLeast (places : Nat) {n : Nat} (hcap : n ≤ numberCap) {rest : List Char}
    (hrest : Ends rest) :
    number (atLeast (places + 1) n ++ rest) (atLeast (places + 1) n ++ rest) = .ok (n, rest) := by
  have hds : ∀ c ∈ atLeast (places + 1) n, Decimal.isDigit c = true := fun _ =>
    isDigit_of_mem_atLeast
  have hne : atLeast (places + 1) n ≠ [] := by
    unfold atLeast
    split
    · exact padded_ne_nil places n
    · exact List.ne_nil_of_length_pos (length_digits_pos n)
  have hvalue := value_atLeast (places + 1) n
  rw [number_digits hds hne (takeWhile_digits hds hrest) (by omega), hvalue]

/-! ## Date and time -/

/-- A year of four digits has no sign, and is read back. -/
theorem year_padded {n : Nat} (hn : n < 10000) (rest : List Char) :
    year (padded 4 n ++ '-' :: rest) = .ok ((n : Int), '-' :: rest) := by
  have hnumber := number_padded 3 hn (by simp only [numberCap, yearBound]; omega) ('-' :: rest)
  have hstart := trimStart_digits (fun _ => isDigit_of_mem_padded) (padded_ne_nil 3 n) ('-' :: rest)
  obtain ⟨c, cs, hcs⟩ := List.exists_cons_of_ne_nil (padded_ne_nil 3 n)
  have hc : Decimal.isDigit c = true :=
    isDigit_of_mem_padded (hcs ▸ List.mem_cons_self : c ∈ padded 4 n)
  have hsign : ∀ d tail, Decimal.isDigit d = false → padded 4 n ++ '-' :: rest ≠ d :: tail := by
    intro d tail hd heq
    rw [hcs, List.cons_append] at heq
    rw [(List.cons.inj heq).1, hd] at hc
    simp at hc
  unfold year
  rw [hstart]
  split
  · next heq => exact absurd heq (hsign _ _ (by decide))
  · next heq => exact absurd heq (hsign _ _ (by decide))
  · rw [hnumber]
    rfl

/-- A year is read back. -/
theorem year_writeYear {y : Int} (hy : y.natAbs < 10 ^ 6) (rest : List Char) :
    year (writeYear y ++ '-' :: rest) = .ok (y, '-' :: rest) := by
  have hcap : y.natAbs ≤ numberCap := by simp only [numberCap, yearBound]; omega
  have hbound : y.natAbs < yearBound := by simp only [yearBound]; omega
  have hsigned := number_atLeast 3 hcap (ends_cons (show Decimal.isDigit '-' = false by decide) rest)
  unfold writeYear
  split
  · next hrange =>
    rw [year_padded (show y.toNat < 10000 by omega), Int.toNat_of_nonneg hrange.1]
  · next hrange =>
    split
    · next hneg =>
      rw [List.cons_append, year, trimStart_cons_ink _ (by decide)]
      simp only [hsigned, bind, Except.bind]
      rw [if_pos (Nat.le_of_lt hbound), show -(y.natAbs : Int) = y by omega]
    · next hneg =>
      rw [List.cons_append, year, trimStart_cons_ink _ (by decide)]
      simp only [hsigned, bind, Except.bind]
      rw [if_pos hbound, show (y.natAbs : Int) = y by omega]

/-- A field of two digits within its bounds is read back. -/
theorem field_padded {low high n : Nat} (hlow : low ≤ n) (hhigh : n ≤ high) (hn : n < 100)
    (rest : List Char) : field low high (padded 2 n ++ rest) = .ok (n, rest) := by
  have hnumber := number_padded 1 (show n < 100 from hn)
    (by simp only [numberCap, yearBound]; omega) rest
  unfold field
  rw [trimStart_digits (fun _ => isDigit_of_mem_padded) (padded_ne_nil 1 n) rest]
  simp only [hnumber, bind, Except.bind]
  rw [if_pos ⟨hlow, hhigh⟩]

/-- A mark is found where it stands. -/
theorem mark_cons {m : Char} (hm : isBlank m = false) (rest : List Char) :
    mark m (m :: rest) = .ok rest := by
  unfold mark
  rw [trimStart_cons_ink rest hm]
  simp

/-- A point and some digits of a second are read as nanoseconds. -/
theorem fraction_padded {places n : Nat} (hplaces : places < 9) (hn : n < Nat.pow 10 (places + 1))
    {rest : List Char} (hrest : Ends rest) :
    fraction ('.' :: (padded (places + 1) n ++ rest))
      = .ok (n * Nat.pow 10 (9 - (places + 1)), rest) := by
  have hds : ∀ c ∈ padded (places + 1) n, Decimal.isDigit c = true := fun _ => isDigit_of_mem_padded
  have hlength := length_padded (places + 1) n
  have hwindow : ((padded (places + 1) n ++ rest).take 9).takeWhile Decimal.isDigit
      = padded (places + 1) n := by
    rw [List.take_append, List.take_of_length_le (by omega)]
    exact takeWhile_digits hds (ends_take hrest _)
  have hvalue := value_padded hn
  have hcap : n ≤ numberCap := by
    have : Nat.pow 10 (places + 1) ≤ Nat.pow 10 9 := Nat.pow_le_pow_right (by decide) (by omega)
    have hnine : Nat.pow 10 9 = 1000000000 := rfl
    simp only [numberCap, yearBound]
    omega
  have hnumber := number_digits hds (padded_ne_nil places n) hwindow (by omega) rest
  simp only [fraction, hnumber, hwindow, hvalue, hlength, dropWhile_digits hds hrest, bind,
    Except.bind]

/-- A fraction is read back, whatever zeros are left out at its end. -/
theorem fraction_writeFraction {n : Nat} (hn : n < 1000000000) {rest : List Char}
    (hrest : Ends rest) (hpoint : ∀ cs, rest ≠ '.' :: cs) :
    fraction (writeFraction n ++ rest) = .ok (n, rest) := by
  unfold writeFraction
  split_ifs with hzero hmilli hmicro
  · subst hzero
    unfold fraction
    split
    · next heq => exact absurd heq (hpoint _)
    · rfl
  · rw [List.cons_append, fraction_padded (by decide) (by show _ < 1000; omega) hrest]
    show Except.ok (n / 1000000 * 1000000, _) = _
    rw [Nat.div_mul_cancel (Nat.dvd_of_mod_eq_zero hmilli)]
  · rw [List.cons_append, fraction_padded (by decide) (by show _ < 1000000; omega) hrest]
    show Except.ok (n / 1000 * 1000, _) = _
    rw [Nat.div_mul_cancel (Nat.dvd_of_mod_eq_zero hmicro)]
  · rw [List.cons_append, fraction_padded (by decide) hn hrest]
    show Except.ok (n * 1, _) = _
    rw [Nat.mul_one]

/-! ## Zones -/

/-- The hours and minutes of a zone are read back. -/
theorem zoneSize_padded {hours minutes : Nat} (hhours : hours < 24) (hminutes : minutes < 60) :
    zoneSize (padded 2 hours ++ ':' :: padded 2 minutes) = .ok (hours * 60 + minutes, []) := by
  obtain ⟨a, b, hab, ha, hb⟩ := padded_two hours
  obtain ⟨c, d, hcd, hc, hd⟩ := padded_two minutes
  have hfirst : value [a, b] = hours := hab ▸ value_padded (show hours < 100 by omega)
  have hsecond : value [c, d] = minutes := hcd ▸ value_padded (show minutes < 100 by omega)
  have hcolon : (c == ':') = false := by
    rw [beq_eq_false_iff_ne]
    rintro rfl
    simp [Decimal.isDigit] at hc
  have hdrop : (':' :: [c, d]).dropWhile (fun c => c == ':' || isBlank c) = [c, d] := by
    simp [hcolon, isBlank_of_isDigit hc]
  rw [hab, hcd, zoneSize]
  simp only [List.cons_append, List.nil_append, zoneHours, zoneMinutes, pair, ha, hb, hc, hd,
    hfirst, hdrop, hsecond, hminutes, bind, Except.bind, Bool.and_self, if_true]

/-- A text that begins with no `U` does not begin with `UTC`. -/
theorem afterUtc?_cons {c : Char} (hc : isLetter 'U' 'u' c = false) (cs : List Char) :
    afterUtc? (c :: cs) = none := by
  unfold afterUtc?
  split
  · next heq =>
    obtain ⟨rfl, -⟩ := List.cons.inj heq
    simp [hc]
  · rfl

/-- A zone less than a day ahead or behind is read back. -/
theorem zone_write {z : Zone} (hz : z.minutes.natAbs < 1440) :
    zone (trimStart z.write) = .ok (z.minutes, []) := by
  cases z with
  | zulu => rfl
  | ahead m =>
    have hz : m.natAbs < 1440 := hz
    have hsize := zoneSize_padded (show m.natAbs / 60 < 24 by omega)
      (show m.natAbs % 60 < 60 by omega)
    have htotal : m.natAbs / 60 * 60 + m.natAbs % 60 = m.natAbs := by omega
    rw [htotal] at hsize
    rw [Zone.write, List.cons_append]
    split
    · next hneg =>
      rw [trimStart_cons_ink _ (by decide), zone, afterUtc?_cons (by decide)]
      simp only [hsize, bind, Except.bind]
      show Except.ok (-(m.natAbs : Int), _) = _
      rw [show -(m.natAbs : Int) = m by omega]
      rfl
    · next hneg =>
      rw [trimStart_cons_ink _ (by decide), zone, afterUtc?_cons (by decide)]
      simp only [hsize, bind, Except.bind]
      show Except.ok ((m.natAbs : Int), _) = _
      rw [show (m.natAbs : Int) = m by omega]
      rfl

/-- A zone begins with neither a digit nor a point. -/
theorem ends_zone (z : Zone) : Ends z.write ∧ ∀ cs, z.write ≠ '.' :: cs := by
  cases z with
  | zulu => exact ⟨ends_cons (by decide) _, by simp [Zone.write]⟩
  | ahead m =>
    rw [Zone.write, List.cons_append]
    split
    · exact ⟨ends_cons (by decide) _, by simp⟩
    · exact ⟨ends_cons (by decide) _, by simp⟩

/-! ## Instants -/

/-- Month and day of a date are within the bounds of their fields. -/
theorem month_day_bounds (days : Int) :
    (1 ≤ (Date.ofNumber days).month ∧ (Date.ofNumber days).month ≤ 12)
      ∧ 1 ≤ (Date.ofNumber days).day ∧ (Date.ofNumber days).day ≤ 31 := by
  have hlength : ∀ leap, ∀ m ≤ 12, monthLength leap m ≤ 31 := by decide
  have hreal := isReal_ofNumber days
  simp only [Date.isReal, Bool.and_eq_true, decide_eq_true_eq] at hreal
  obtain ⟨⟨⟨hm, hm'⟩, hd⟩, hd'⟩ := hreal
  exact ⟨⟨hm, hm'⟩, hd, le_trans hd' (hlength _ _ hm')⟩

/-- The parts of a text are read back. -/
theorem parts_write {z : Zone} {i : Instant} (hz : z.minutes.natAbs < 1440)
    (hday : firstDay ≤ localDay z i ∧ localDay z i ≤ lastDay) :
    parts (write z i) = .ok (⟨Date.ofNumber (localDay z i),
      (localSeconds z i % 86400).toNat / 3600, (localSeconds z i % 86400).toNat / 60 % 60,
      (localSeconds z i % 86400).toNat % 60 + i.nano / 1000000000, i.nano % 1000000000,
      z.minutes⟩, []) := by
  have hyear : (Date.ofNumber (localDay z i)).year.natAbs < 10 ^ 6 :=
    natAbs_yearOfDay_lt hday.1 hday.2
  obtain ⟨⟨hm, hm'⟩, hd, hd'⟩ := month_day_bounds (localDay z i)
  have hsecond : (localSeconds z i % 86400).toNat < 86400 := by omega
  have hnano := i.valid.2.2.1
  obtain ⟨hends, hpoint⟩ := ends_zone z
  have hdivider : ∀ rest, divider ('T' :: rest) = .ok rest := fun rest => by simp [divider]
  simp only [write, writeDate, writeTime, List.append_assoc, List.cons_append]
  generalize (localSeconds z i % 86400).toNat = s at *
  simp only [parts, bind, Except.bind, hdivider, year_writeYear hyear,
    mark_cons (show isBlank '-' = false by decide), mark_cons (show isBlank ':' = false by decide),
    field_padded hm hm' (by omega), field_padded hd hd' (by omega),
    field_padded (Nat.zero_le (s / 3600)) (show s / 3600 ≤ 23 by omega) (by omega),
    field_padded (Nat.zero_le (s / 60 % 60)) (show s / 60 % 60 ≤ 59 by omega) (by omega),
    field_padded (Nat.zero_le (s % 60 + i.nano / 1000000000))
      (show s % 60 + i.nano / 1000000000 ≤ 60 by omega) (by omega),
    fraction_writeFraction (Nat.mod_lt i.nano (by decide)) hends hpoint, zone_write hz]

/-- The parts of an instant name it; the second after second 59 is the leap second. -/
theorem instant_parts {z : Zone} {i : Instant} (hz : z.minutes.natAbs < 1440)
    (hday : firstDay ≤ localDay z i ∧ localDay z i ≤ lastDay) :
    Parts.instant ⟨Date.ofNumber (localDay z i),
      (localSeconds z i % 86400).toNat / 3600, (localSeconds z i % 86400).toNat / 60 % 60,
      (localSeconds z i % 86400).toNat % 60 + i.nano / 1000000000, i.nano % 1000000000,
      z.minutes⟩ = .ok i := by
  obtain ⟨hlow, hhigh⟩ := hday
  obtain ⟨-, hsecond, hnano, hinside⟩ := i.valid
  -- the zone is a whole number of minutes, so the leap second stays at the end of one
  have hlocal : localSeconds z i = i.second + z.minutes * 60 := rfl
  have hleap : (if (localSeconds z i % 86400).toNat % 60 + i.nano / 1000000000 = 60 then 1 else 0)
      = i.nano / 1000000000 := by
    split_ifs <;> omega
  have hclock : (((localSeconds z i % 86400).toNat / 3600 : Nat) : Int) * 3600
      + (((localSeconds z i % 86400).toNat / 60 % 60 : Nat) : Int) * 60
      + (((localSeconds z i % 86400).toNat % 60 + i.nano / 1000000000 - i.nano / 1000000000 : Nat)
        : Int) - z.minutes * 60 = localSeconds z i % 86400 - z.minutes * 60 := by
    omega
  unfold Parts.instant
  simp only [isReal_ofNumber, number_ofNumber, hleap, hclock]
  rw [if_neg (by decide), if_neg (by omega), if_neg (by omega)]
  have hday : localDay z i + (localSeconds z i % 86400 - z.minutes * 60) / 86400 = i.day := by
    rw [localDay]
    omega
  have htime : ((localSeconds z i % 86400 - z.minutes * 60) % 86400).toNat = i.second := by
    omega
  have hrest : i.nano % 1000000000 + i.nano / 1000000000 * 1000000000 = i.nano := by omega
  rw [hday, htime, hrest, Instant.of?_parts]

/-- **Instants.**  What is written at a zone is read back, leap seconds included, if the zone is less
than a day ahead or behind and the local date is in range. -/
theorem read_write {z : Zone} {i : Instant} (hz : z.minutes.natAbs < 1440)
    (hday : firstDay ≤ localDay z i ∧ localDay z i ≤ lastDay) : read (write z i) = .ok i := by
  rw [read, parts_write hz hday]
  simp only [bind, Except.bind]
  rw [if_pos (show trimStart [] = [] from rfl)]
  exact instant_parts hz hday

/-- At Universal Time the local day is the day. -/
theorem localDay_zulu (i : Instant) : localDay .zulu i = i.day := by
  have := i.valid.2.1
  simp only [localDay, localSeconds, Zone.minutes]
  omega

end Rfc3339

end HoldToRecord.Time
