import Mathlib.Tactic
import HoldToRecord.Decimal.Shortest

/-!
# How long decimals are

A number has as many digits as powers of ten up to it (`length_digits_le`, `lt_length_digits`). The
text of a binary64 number is at most 1464 characters long (`length_writeBits_le`). That is far
above what is ever written, but it holds of every bit pattern and follows from the ranges of
mantissa and exponent alone.
-/

namespace HoldToRecord.Decimal

/-! ## Whole numbers -/

/-- A number has one digit at least. -/
theorem length_digits_pos (n : Nat) : 0 < (digits n).length := by
  rw [digits]
  split <;> simp

/-- A number below a power of ten has no more digits than its exponent. -/
theorem length_digits_le {n k : Nat} (hk : 0 < k) (h : n < 10 ^ k) : (digits n).length ≤ k := by
  induction k generalizing n with
  | zero => omega
  | succ k ih =>
    rw [digits]
    split
    · simp
    · next hn =>
      rw [Nat.pow_succ] at h
      have hk : 0 < k := by
        by_contra hk
        obtain rfl : k = 0 := by omega
        omega
      have := ih hk (n := n / 10) (by omega)
      rw [List.length_append, List.length_singleton]
      omega

/-- A number from a power of ten on has more digits than its exponent. -/
theorem lt_length_digits {n k : Nat} (h : 10 ^ k ≤ n) : k < (digits n).length := by
  induction k generalizing n with
  | zero => exact length_digits_pos n
  | succ k ih =>
    have hten : 10 ≤ n := le_trans (Nat.le_self_pow (Nat.succ_ne_zero k) 10) h
    rw [Nat.pow_succ] at h
    have := ih (n := n / 10) (by omega)
    rw [digits, dif_neg (by omega), List.length_append, List.length_singleton]
    omega

/-- Of two numbers with a small sum one is smaller still. -/
theorem length_digits_add_le {a b k : Nat} (hk : 0 < k) (h : a + b < 2 * 10 ^ k) :
    (digits a).length + (digits b).length ≤ 2 * k + 1 := by
  have hpow : 10 ^ (k + 1) = 10 ^ k * 10 := Nat.pow_succ ..
  have ha := length_digits_le (Nat.succ_pos k) (show a < 10 ^ (k + 1) by omega)
  have hb := length_digits_le (Nat.succ_pos k) (show b < 10 ^ (k + 1) by omega)
  rcases Nat.lt_or_ge a (10 ^ k) with hlt | hge
  · have := length_digits_le hk hlt
    omega
  · have := length_digits_le hk (show b < 10 ^ k by omega)
    omega

/-- A number never has more digits than one more than itself. -/
theorem length_digits_le_succ (n : Nat) : (digits n).length ≤ n + 1 :=
  length_digits_le (Nat.succ_pos n) (lt_trans n.lt_succ_self (Nat.lt_pow_self (by decide)))

/-- A sign takes one character. -/
theorem length_signed_le {i : Int} {k : Nat} (hk : 0 < k) (h : i.natAbs < 10 ^ k) :
    (signed i).length ≤ k + 1 := by
  have := length_digits_le hk h
  rw [signed]
  split
  · rw [List.length_cons]
    omega
  · omega

/-! ## Binary numbers -/

/-- Mantissa and exponent of a bit pattern have few bits. -/
theorem ofBits_bounds (bits : UInt64) :
    (Binary.ofBits bits).mantissa < 2 ^ 53 ∧ (Binary.ofBits bits).exponent ≤ 972 := by
  unfold Binary.ofBits
  dsimp only
  split <;> constructor <;> dsimp only <;> omega

/-- The middle of an interval is a number of at most 1025 bits, so it has no more digits. -/
theorem mid_interval_lt (bits : UInt64) {k : Nat} (hk : 1025 ≤ k) :
    (Binary.ofBits bits).interval.mid < 10 ^ k := by
  obtain ⟨hm, he⟩ := ofBits_bounds bits
  obtain ⟨shift, hshift⟩ : ∃ shift, ((Binary.ofBits bits).exponent - 2).toNat = shift := ⟨_, rfl⟩
  have hfour : 4 * (Binary.ofBits bits).mantissa < 2 ^ 55 := by omega
  calc (Binary.ofBits bits).interval.mid
      = 4 * (Binary.ofBits bits).mantissa * 2 ^ shift := by rw [← hshift]; rfl
    _ < 2 ^ 55 * 2 ^ shift := Nat.mul_lt_mul_of_pos_right hfour (Nat.two_pow_pos shift)
    _ = 2 ^ (55 + shift) := (Nat.pow_add ..).symm
    _ ≤ 2 ^ k := Nat.pow_le_pow_right (by decide) (by omega)
    _ ≤ 10 ^ k := Nat.pow_le_pow_left (by decide) k

/-- The leading power is found within the steps that are tried, and it is at most that of the
quotient. -/
theorem leadingPower_bounds (mid denominator steps : Nat) :
    -(steps : Int) ≤ leadingPower mid denominator steps
      ∧ leadingPower mid denominator steps ≤ ((digits (mid / denominator)).length : Int) - 1 := by
  induction steps generalizing mid with
  | zero =>
    have := length_digits_pos (mid / denominator)
    simp only [leadingPower]
    omega
  | succ steps ih =>
    have hpos := length_digits_pos (mid / denominator)
    rw [leadingPower]
    split
    · next h =>
      obtain ⟨hlow, hhigh⟩ := ih (mid * 10)
      have hone : (digits (mid * 10 / denominator)).length ≤ 1 := by
        refine length_digits_le (by decide) ?_
        rw [Nat.div_lt_iff_lt_mul (by omega)]
        omega
      omega
    · omega

/-- A multiple at or below the middle is at most the middle in units of its power. -/
theorem significand_below_le (i : Interval) (power : Int) :
    (i.below power).significand ≤ i.mid * 10 ^ (-power).toNat :=
  Nat.div_le_self _ _

/-- What lies on a grid is one of the two neighbours of the middle there. -/
theorem onGrid_bounds {i : Interval} {power : Int} {d : Scaled} (h : i.onGrid? power = some d) :
    d.power = power ∧ d.significand ≤ i.mid * 10 ^ (-power).toNat + 1 := by
  have hbelow := significand_below_le i power
  have hpower : (i.below power).power = power := rfl
  unfold Interval.onGrid? at h
  dsimp only at h
  have hcases : d = i.below power ∨ d = ⟨(i.below power).significand + 1, power⟩ := by
    split_ifs at h <;> simp_all
  rcases hcases with rfl | rfl
  · exact ⟨hpower, Nat.le_add_right_of_le hbelow⟩
  · exact ⟨rfl, Nat.add_le_add_right hbelow 1⟩

/-- What is found lies on one of the grids that are tried. -/
theorem search_bounds (i : Interval) (power : Int) (tries : Nat) :
    power - tries ≤ (i.search power tries).power ∧ (i.search power tries).power ≤ power
      ∧ (i.search power tries).significand ≤ i.mid * 10 ^ ((tries : Int) - power).toNat + 1 := by
  induction tries generalizing power with
  | zero =>
    have := significand_below_le i power
    rw [Nat.cast_zero, zero_sub, Interval.search]
    exact ⟨by simp [Interval.below], le_refl power, by omega⟩
  | succ tries ih =>
    rw [Interval.search]
    split
    · next d hd =>
      obtain ⟨rfl, hsignificand⟩ := onGrid_bounds hd
      have hmono : i.mid * 10 ^ (-d.power).toNat
          ≤ i.mid * 10 ^ (((tries + 1 : Nat) : Int) - d.power).toNat :=
        Nat.mul_le_mul_left _ (Nat.pow_le_pow_right (by decide) (by omega))
      omega
    · obtain ⟨hlow, hhigh, hsignificand⟩ := ih (power - 1)
      have hexponent : (tries : Int) - (power - 1) = ((tries + 1 : Nat) : Int) - power := by omega
      rw [hexponent] at hsignificand
      exact ⟨by omega, by omega, hsignificand⟩

/-- Taking zeros off the significand raises the power. -/
theorem reduce_bounds (d : Scaled) (steps : Nat) :
    d.power ≤ (d.reduce steps).power ∧ (d.reduce steps).power ≤ d.power + steps
      ∧ (d.reduce steps).significand ≤ d.significand := by
  induction steps generalizing d with
  | zero => simp [Scaled.reduce]
  | succ steps ih =>
    rw [Scaled.reduce]
    split
    · obtain ⟨hlow, hhigh, hsignificand⟩ := ih ⟨d.significand / 10, d.power + 1⟩
      dsimp only at hlow hhigh hsignificand
      omega
    · omega

/-- The decimal that is chosen for a bit pattern has few digits and no great power. -/
theorem shortest_bounds (bits : UInt64) :
    -417 ≤ (shortest (.ofBits bits)).power ∧ (shortest (.ofBits bits)).power ≤ 1424
      ∧ (digits (shortest (.ofBits bits)).significand).length ≤ 1443 := by
  obtain ⟨k, hk⟩ : ∃ k, k = 1025 := ⟨_, rfl⟩
  have hmid := mid_interval_lt bits hk.ge
  unfold shortest
  -- only the middle matters from here on, and only that it is below `10 ^ k`
  generalize (Binary.ofBits bits).interval = i at hmid
  dsimp only
  obtain ⟨hlead, hlead'⟩ := leadingPower_bounds i.mid i.denominator 400
  have hquotient : (digits (i.mid / i.denominator)).length ≤ k :=
    length_digits_le (by omega) (lt_of_le_of_lt (Nat.div_le_self _ _) hmid)
  generalize leadingPower i.mid i.denominator 400 = lead at hlead hlead'
  obtain ⟨hsearch, hsearch', hsignificand⟩ := search_bounds i lead 17
  obtain ⟨hreduce, hreduce', hreduced⟩ := reduce_bounds (i.search lead 17) 400
  refine ⟨by omega, by omega, ?_⟩
  obtain ⟨e, he⟩ : ∃ e, (((17 : Nat) : Int) - lead).toNat = e := ⟨_, rfl⟩
  rw [he] at hsignificand
  -- the significand is no more than the middle in units of the last power that is tried
  have hlt : ((i.search lead 17).reduce 400).significand < 10 ^ (k + e + 1) := by
    calc _ ≤ _ := hreduced
      _ ≤ i.mid * 10 ^ e + 1 := hsignificand
      _ < 10 ^ k * 10 ^ e + 1 :=
        Nat.add_lt_add_right (Nat.mul_lt_mul_of_pos_right hmid (Nat.pow_pos (by decide))) 1
      _ = 10 ^ (k + e) + 1 := by rw [Nat.pow_add]
      _ ≤ 10 ^ (k + e + 1) := Nat.pow_lt_pow_right (by decide) (Nat.lt_succ_self _)
  have := length_digits_le (Nat.succ_pos _) hlt
  omega

/-! ## Their text -/

/-- Every layout of a decimal is little longer than its digits. -/
theorem length_write_le {l : Layout} (hleast : -5 ≤ l.leastPositional)
    (hmost : l.mostPositional ≤ 15) {d : Scaled} (hlow : -417 ≤ d.power) (hhigh : d.power ≤ 1424)
    (hdigits : (digits d.significand).length ≤ 1443) : (l.write d).length ≤ 1463 := by
  have hpos := length_digits_pos d.significand
  unfold Layout.write
  dsimp only
  generalize digits d.significand = ds at hdigits hpos
  obtain ⟨lead, hlead⟩ : ∃ lead, d.power + ds.length - 1 = lead := ⟨_, rfl⟩
  rw [hlead]
  have hexponent : (digits lead.natAbs).length ≤ 4 := length_digits_le (by decide) (by omega)
  split_ifs with hpositional hwhole hpoint hone
  -- without an exponent the zeros are at most as many as the power allows, with one there are none
  all_goals
    simp only [Bool.and_eq_true, decide_eq_true_eq] at hpositional
    simp only [List.length_append, List.length_replicate, List.length_cons, List.length_nil,
      List.length_take, List.length_drop]
    omega

/-- **The text of any bit pattern is short.** -/
theorem length_writeBits_le {l : Layout} (hleast : -5 ≤ l.leastPositional)
    (hmost : l.mostPositional ≤ 15) (bits : UInt64) : (l.writeBits bits).length ≤ 1464 := by
  obtain ⟨hlow, hhigh, hdigits⟩ := shortest_bounds bits
  have hwrite := length_write_le hleast hmost hlow hhigh hdigits
  unfold Layout.writeBits
  dsimp only
  split_ifs
  · decide
  · rw [List.length_cons]
    omega
  · decide
  · omega

end HoldToRecord.Decimal
