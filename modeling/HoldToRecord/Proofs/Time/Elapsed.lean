import Mathlib.Tactic
import HoldToRecord.Session.Basic

/-!
# How far instants are apart

Instants are ordered by day, second and nanoseconds. Outside leap seconds this is the order of their
nanoseconds since the epoch, and the difference of two instants is the difference of these
(`le_iff_nanos`, `elapsed_eq`). In milliseconds no difference exceeds the length of the
representable range, up to a leap second (`elapsedMillis_le`), so the length of a recording is never
too large for its 64 bits (`toNat_durationMs`).
-/

namespace HoldToRecord.Time.Instant

/-- Days, seconds and nanoseconds of an instant are in their ranges. -/
theorem bounds (i : Instant) :
    (-96465292 ≤ i.day ∧ i.day ≤ 95026236) ∧ i.second < 86400 ∧ i.nano < 2000000000 :=
  ⟨i.valid.1, i.valid.2.1, i.valid.2.2.1⟩

/-- Outside leap seconds the nanoseconds are less than a second. -/
theorem nano_lt {i : Instant} (h : i.inLeapSecond = false) : i.nano < 1000000000 := by
  simpa [inLeapSecond] using h

/-! ## The order of instants -/

/-- The parts of an instant by which instants are ordered, the most significant first. -/
def key (i : Instant) : ℤ ×ₗ ℕ ×ₗ ℕ := toLex (i.day, toLex (i.second, i.nano))

/-- The parts make the instant. -/
theorem key_injective : Function.Injective key := by
  intro a b h
  obtain ⟨hday, hrest⟩ := Prod.mk.inj (toLex_inj.mp h)
  obtain ⟨hsecond, hnano⟩ := Prod.mk.inj (toLex_inj.mp hrest)
  exact ext_parts hday hsecond hnano

noncomputable instance : PartialOrder Instant := PartialOrder.lift key key_injective

/-- The order by its parts. -/
theorem le_iff {a b : Instant} :
    a ≤ b ↔ a.day < b.day ∨ a.day = b.day
      ∧ (a.second < b.second ∨ a.second = b.second ∧ a.nano ≤ b.nano) := by
  show a.key ≤ b.key ↔ _
  rw [key, key, Prod.Lex.toLex_le_toLex, Prod.Lex.toLex_le_toLex]

/-- Nanoseconds since the epoch. -/
def nanos (i : Instant) : ℤ := i.unixSeconds * 1000000000 + i.nano

/-- Outside leap seconds instants are ordered as their nanoseconds since the epoch. -/
theorem le_iff_nanos {a b : Instant} (ha : a.inLeapSecond = false) (hb : b.inLeapSecond = false) :
    a ≤ b ↔ a.nanos ≤ b.nanos := by
  have hna := nano_lt ha
  have hnb := nano_lt hb
  have hsa := a.bounds.2.1
  have hsb := b.bounds.2.1
  rw [le_iff]
  unfold nanos unixSeconds
  omega

/-! ## Differences -/

/-- Differences count from either end. -/
theorem elapsed_swap (a b : Instant) : a.elapsed b = -b.elapsed a := by
  have hc : leapCorrection a b = -leapCorrection b a := by
    unfold leapCorrection
    split_ifs <;> omega
  unfold elapsed
  rw [hc]
  ring

/-- Differences in milliseconds count from either end, as they are rounded toward zero. -/
theorem elapsedMillis_swap (a b : Instant) : a.elapsedMillis b = -b.elapsedMillis a := by
  rw [elapsedMillis, elapsed_swap, Int.neg_tdiv, elapsedMillis]

/-- Outside leap seconds the difference is that of the nanoseconds since the epoch. -/
theorem elapsed_eq {a b : Instant} (ha : a.inLeapSecond = false) (hb : b.inLeapSecond = false) :
    a.elapsed b = a.nanos - b.nanos := by
  have hc : leapCorrection a b = 0 := by
    simp [leapCorrection, ha, hb]
  unfold elapsed nanos unixSeconds
  rw [hc]
  ring

/-- Outside leap seconds, an instant is as many milliseconds behind an earlier one as fit between
them. -/
theorem elapsedMillis_eq {a b : Instant} (h : b ≤ a) (ha : a.inLeapSecond = false)
    (hb : b.inLeapSecond = false) : a.elapsedMillis b = (a.nanos - b.nanos) / 1000000 := by
  rw [le_iff_nanos hb ha] at h
  rw [elapsedMillis, elapsed_eq ha hb, Int.tdiv_eq_ediv_of_nonneg (by omega)]

/-- What a leap second adds to differences, in milliseconds. -/
def leapMillis (a b : Instant) : ℕ := if a.inLeapSecond || b.inLeapSecond then 1000 else 0

/-- The correction for leap seconds is a second at most, and with it goes the leap second's own
part of the nanoseconds. -/
theorem leapCorrection_nano_le (a b : Instant) :
    leapCorrection a b * 1000000000 + ((a.nano : ℤ) - b.nano)
      ≤ 999999999 + leapMillis a b * 1000000 := by
  have ha := a.bounds.2.2
  have hb := b.bounds.2.2
  unfold leapCorrection leapMillis inLeapSecond
  simp only [Bool.or_eq_true, decide_eq_true_eq]
  split_ifs <;> omega

/-- No two instants are further apart than the first and the last one, up to a leap second. -/
theorem elapsed_le (a b : Instant) :
    a.elapsed b ≤ 16544868105599999999999 + leapMillis a b * 1000000 := by
  have ha := a.bounds
  have hb := b.bounds
  have hc := leapCorrection_nano_le a b
  unfold elapsed
  omega

/-- In milliseconds: the length of the representable range, and a second more for leap seconds. -/
theorem elapsedMillis_le (a b : Instant) :
    a.elapsedMillis b ≤ 16544868105599999 + leapMillis a b := by
  have h := elapsed_le a b
  rw [elapsedMillis, Int.tdiv_eq_ediv]
  split_ifs
  · omega
  · rw [show (1000000 : ℤ).sign = 1 from rfl]
    omega

/-- A leap second adds no more than a second. -/
theorem leapMillis_le (a b : Instant) : leapMillis a b ≤ 1000 := by
  unfold leapMillis
  split_ifs <;> omega

/-- Differences in milliseconds are far from the ends of 64 bits with a sign. -/
theorem abs_elapsedMillis_lt (a b : Instant) : |a.elapsedMillis b| < 2 ^ 63 := by
  have hab := elapsedMillis_le a b
  have hba := elapsedMillis_le b a
  rw [elapsedMillis_swap] at hba
  have hleap := leapMillis_le a b
  have hleap' := leapMillis_le b a
  rw [abs_lt]
  constructor <;> omega

end HoldToRecord.Time.Instant

namespace HoldToRecord.Session

open HoldToRecord.Time

/-- The length of a recording is the difference of its instants in whole milliseconds, and zero if
that is negative: it fits its 64 bits. -/
theorem toNat_durationMs (started stopped : Instant) :
    ((durationMs started stopped).toNat : ℤ) = max 0 (stopped.elapsedMillis started) := by
  have h := abs_lt.mp (Instant.abs_elapsedMillis_lt stopped started)
  rw [durationMs, UInt64.toNat_ofNat', Nat.mod_eq_of_lt (by omega)]
  omega

end HoldToRecord.Session
