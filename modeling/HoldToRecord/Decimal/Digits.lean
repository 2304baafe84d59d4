/-!
# Decimal digits

`digits` writes a natural number in base ten without leading zeros, `padded` in a set number of
places, and `value` reads digits back. Main facts: `value_digits`, and `value_padded` for a number
that fits its places.
-/

namespace HoldToRecord.Decimal

/-- The character of a digit below ten. -/
def digit (d : Nat) : Char := Char.ofNat (48 + d)

/-- The number that a digit stands for. -/
def digitValue (c : Char) : Nat := c.toNat - 48

/-- Whether a character is one of `0` to `9`. -/
def isDigit (c : Char) : Bool := 48 ≤ c.toNat && c.toNat ≤ 57

/-- A number in base ten; zero is one digit, and no other number starts with it. -/
def digits (n : Nat) : List Char :=
  if _h : n < 10 then [digit n] else digits (n / 10) ++ [digit (n % 10)]

/-- The last `places` digits of a number, zeros in front. -/
def padded : Nat → Nat → List Char
  | 0, _ => []
  | places + 1, n => padded places (n / 10) ++ [digit (n % 10)]

/-- A number in base ten with at least `places` digits. -/
def atLeast (places n : Nat) : List Char :=
  if n < Nat.pow 10 places then padded places n else digits n

/-- The number that a list of digits stands for, read after `start`. -/
def valueFrom (start : Nat) (cs : List Char) : Nat :=
  cs.foldl (fun v c => v * 10 + digitValue c) start

/-- The number that a list of digits stands for. -/
def value (cs : List Char) : Nat := valueFrom 0 cs

/-- The number that a list of digits stands for, or `cap` if it is not below that. -/
def valueUpTo (cap : Nat) (cs : List Char) : Nat :=
  cs.foldl (fun v c => min cap (v * 10 + digitValue c)) 0

/-- A whole number in base ten, `-` in front of a negative one. -/
def signed (i : Int) : List Char :=
  if i < 0 then '-' :: digits i.natAbs else digits i.natAbs

/-- A digit stands for the number it was made from. -/
theorem digitValue_digit {d : Nat} (h : d < 10) : digitValue (digit d) = d := by
  have : d = 0 ∨ d = 1 ∨ d = 2 ∨ d = 3 ∨ d = 4 ∨ d = 5 ∨ d = 6 ∨ d = 7 ∨ d = 8 ∨ d = 9 := by omega
  rcases this with h | h | h | h | h | h | h | h | h | h <;> subst h <;> rfl

/-- A digit is a digit. -/
theorem isDigit_digit {d : Nat} (h : d < 10) : isDigit (digit d) = true := by
  have : d = 0 ∨ d = 1 ∨ d = 2 ∨ d = 3 ∨ d = 4 ∨ d = 5 ∨ d = 6 ∨ d = 7 ∨ d = 8 ∨ d = 9 := by omega
  rcases this with h | h | h | h | h | h | h | h | h | h <;> subst h <;> rfl

/-- Digits in a row are read from left to right. -/
theorem valueFrom_append (start : Nat) (as bs : List Char) :
    valueFrom start (as ++ bs) = valueFrom (valueFrom start as) bs := by
  simp [valueFrom, List.foldl_append]

/-- A number with more digits behind it is no smaller. -/
theorem le_valueFrom (start : Nat) (cs : List Char) : start ≤ valueFrom start cs := by
  induction cs generalizing start with
  | nil => exact Nat.le_refl _
  | cons c cs ih =>
    have := ih (start * 10 + digitValue c)
    show start ≤ valueFrom (start * 10 + digitValue c) cs
    omega

/-- A number that has reached the cap stays there, and one below it is the number itself. -/
theorem valueUpTo_eq (cap : Nat) (cs : List Char) : valueUpTo cap cs = min cap (value cs) := by
  have along : ∀ v, cs.foldl (fun v c => min cap (v * 10 + digitValue c)) (min cap v) =
      min cap (valueFrom v cs) := by
    induction cs with
    | nil => intro v; rfl
    | cons c cs ih =>
      intro v
      have step : min cap (min cap v * 10 + digitValue c) = min cap (v * 10 + digitValue c) := by
        omega
      simp only [List.foldl_cons, valueFrom, step]
      exact ih (v * 10 + digitValue c)
  simpa [valueUpTo, value] using along 0

/-- Writing a number and reading it gives it back. -/
theorem value_digits (n : Nat) : value (digits n) = n := by
  induction n using Nat.strongRecOn with
  | ind n ih =>
    rw [digits]
    split
    · next h => simp [value, valueFrom, digitValue_digit h]
    · next h =>
      have hq := ih (n / 10) (by omega)
      simp only [value] at hq ⊢
      rw [valueFrom_append, hq]
      simp [valueFrom, digitValue_digit (Nat.mod_lt n (by decide : 0 < 10))]
      omega

/-- The digits of a number begin with a digit, which is zero for no other number than zero. -/
theorem exists_digits_eq_cons (n : Nat) :
    ∃ c cs, digits n = c :: cs ∧ (c = '0' → n = 0 ∧ cs = []) := by
  induction n using Nat.strongRecOn with
  | ind n ih =>
    rw [digits]
    split
    · next h =>
      refine ⟨digit n, [], rfl, fun hzero => ⟨?_, rfl⟩⟩
      rw [← digitValue_digit h, hzero]
      rfl
    · next h =>
      obtain ⟨c, cs, heq, hzero⟩ := ih (n / 10) (by omega)
      refine ⟨c, cs ++ [digit (n % 10)], by rw [heq, List.cons_append], fun hc => ?_⟩
      have := (hzero hc).1
      omega

/-- A written number holds digits only. -/
theorem isDigit_of_mem_digits {n : Nat} {c : Char} (h : c ∈ digits n) : isDigit c = true := by
  induction n using Nat.strongRecOn with
  | ind n ih =>
    rw [digits] at h
    split at h
    · next hn =>
      obtain rfl := List.mem_singleton.1 h
      exact isDigit_digit hn
    · next hn =>
      rcases List.mem_append.1 h with h | h
      · exact ih (n / 10) (by omega) h
      · obtain rfl := List.mem_singleton.1 h
        exact isDigit_digit (Nat.mod_lt n (by decide))

/-- A padded number has the places it was given. -/
theorem length_padded (places n : Nat) : (padded places n).length = places := by
  induction places generalizing n with
  | zero => rfl
  | succ places ih => simp [padded, ih]

/-- A number is padded to one place at least. -/
theorem padded_ne_nil (places n : Nat) : padded (places + 1) n ≠ [] := by
  simp [padded]

/-- Two places are two digits. -/
theorem padded_two (n : Nat) :
    ∃ a b, padded 2 n = [a, b] ∧ isDigit a = true ∧ isDigit b = true :=
  ⟨digit (n / 10 % 10), digit (n % 10), rfl, isDigit_digit (Nat.mod_lt _ (by decide)),
    isDigit_digit (Nat.mod_lt _ (by decide))⟩

/-- A padded number holds digits only. -/
theorem isDigit_of_mem_padded {places n : Nat} {c : Char} (h : c ∈ padded places n) :
    isDigit c = true := by
  induction places generalizing n with
  | zero => simp [padded] at h
  | succ places ih =>
    rw [padded] at h
    rcases List.mem_append.1 h with h | h
    · exact ih h
    · obtain rfl := List.mem_singleton.1 h
      exact isDigit_digit (Nat.mod_lt n (by decide))

/-- So does a number with at least some digits. -/
theorem isDigit_of_mem_atLeast {places n : Nat} {c : Char} (h : c ∈ atLeast places n) :
    isDigit c = true := by
  unfold atLeast at h
  split at h
  · exact isDigit_of_mem_padded h
  · exact isDigit_of_mem_digits h

/-- A padded number that fits its places reads back. -/
theorem value_padded {places n : Nat} (h : n < Nat.pow 10 places) : value (padded places n) = n := by
  induction places generalizing n with
  | zero =>
    have hone : n < 1 := h
    simp [padded, value, valueFrom]
    omega
  | succ places ih =>
    have hten : n < Nat.pow 10 places * 10 := h
    have hq := ih (n := n / 10) (Nat.div_lt_of_lt_mul (by omega))
    simp only [value, padded] at hq ⊢
    rw [valueFrom_append, hq]
    simp [valueFrom, digitValue_digit (Nat.mod_lt n (by decide : 0 < 10))]
    omega

/-- A number with at least some digits reads back. -/
theorem value_atLeast (places n : Nat) : value (atLeast places n) = n := by
  unfold atLeast
  split
  · next h => exact value_padded h
  · exact value_digits n

end HoldToRecord.Decimal
