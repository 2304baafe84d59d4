import Mathlib.Tactic
import HoldToRecord.Json.Printer
import HoldToRecord.Proofs.Text.Utf8
import HoldToRecord.Text.Quoted

/-!
# How long text becomes in JSON strings

`escapedSize cs` is the number of bytes that characters take within a JSON string. It is at most six
for each character (`escapedSize_le_length`). Text that is quoted for a message first takes at most
seven bytes for each byte of its own (`escapedSize_quote_le`), and a text of U+007F takes just that
(`escapedSize_quote_replicate`): U+007F is quoted by number, and the backslash in front is escaped
once more.
-/

namespace HoldToRecord

open HoldToRecord.Text

namespace Json

open HoldToRecord.Text.Utf8 HoldToRecord.Decimal

/-! ## Sizes in JSON strings -/

/-- How many bytes characters take within a JSON string. -/
def escapedSize (cs : List Char) : Nat := (encode (cs.flatMap escape)).length

@[simp] theorem escapedSize_nil : escapedSize [] = 0 := rfl

@[simp] theorem escapedSize_append (as bs : List Char) :
    escapedSize (as ++ bs) = escapedSize as + escapedSize bs := by
  rw [escapedSize, List.flatMap_append, encode_append, List.length_append]
  rfl

theorem escapedSize_cons (c : Char) (cs : List Char) :
    escapedSize (c :: cs) = escapedSize [c] + escapedSize cs :=
  escapedSize_append [c] cs

/-- A string takes two bytes more, for the quotes. -/
theorem length_encode_writeText (s : String) :
    (encode (writeText s)).length = escapedSize s.toList + 2 := by
  rw [writeText, List.cons_append, length_encode_cons, encode_append, List.length_append,
    escapedSize, show (encode ['"']).length = 1 from rfl, show ('"' : Char).utf8Size = 1 from rfl]
  omega

/-- A character that JSON does not escape takes the bytes of its encoding. -/
theorem escapedSize_singleton {c : Char} (hquote : c ≠ '"') (hslash : c ≠ '\\')
    (hcontrol : 32 ≤ c.toNat) : escapedSize [c] = c.utf8Size := by
  have : escape c = [c] := by
    rw [escape, if_neg (by simpa using hquote), if_neg (by simpa using hslash), if_neg (by omega)]
  rw [escapedSize, List.flatMap_singleton, this, length_encode_cons]
  rfl

/-- The first 128 characters, one by one. -/
theorem escapedSize_ascii : ∀ n < 128, escapedSize [Char.ofNat n] ≤ 6
    ∧ escapedSize (Quoted.escape (Char.ofNat n)) ≤ 7 := by
  decide +kernel

/-- Characters beyond those are not escaped. -/
theorem escapedSize_of_not_ascii {c : Char} (h : 128 ≤ c.toNat) :
    escapedSize [c] = c.utf8Size := by
  refine escapedSize_singleton ?_ ?_ (by omega) <;> rintro rfl <;> revert h <;> decide

/-- A character takes at most six bytes. -/
theorem escapedSize_singleton_le (c : Char) : escapedSize [c] ≤ 6 := by
  rcases Nat.lt_or_ge c.toNat 128 with h | h
  · -- control characters take six, all others less
    rw [← Char.ofNat_toNat c]
    exact (escapedSize_ascii _ h).1
  · rw [escapedSize_of_not_ascii h]
    have := c.utf8Size_le_four
    omega

/-- So do all characters of a text. -/
theorem escapedSize_le_length (cs : List Char) : escapedSize cs ≤ 6 * cs.length := by
  induction cs with
  | nil => rfl
  | cons c cs ih =>
    have := escapedSize_singleton_le c
    rw [escapedSize_cons, List.length_cons]
    omega

/-- The ten digits, one by one. -/
theorem escapedSize_digit : ∀ n < 58, 48 ≤ n → escapedSize [Char.ofNat n] = 1 := by
  decide

/-- Digits are not escaped. -/
theorem escapedSize_of_isDigit {cs : List Char} (h : ∀ c ∈ cs, Decimal.isDigit c = true) :
    escapedSize cs = cs.length := by
  induction cs with
  | nil => rfl
  | cons c cs ih =>
    have hc := h c List.mem_cons_self
    simp only [Decimal.isDigit, Bool.and_eq_true, decide_eq_true_eq] at hc
    have hsize : escapedSize [c] = 1 := by
      rw [← Char.ofNat_toNat c]
      exact escapedSize_digit c.toNat (by omega) hc.1
    rw [escapedSize_cons, hsize, ih fun d hd => h d (List.mem_cons_of_mem _ hd), List.length_cons]
    omega

/-! ## Quoted text -/

/-- Hexadecimal digits are not escaped. -/
theorem escapedSize_toDigits (n : Nat) :
    escapedSize (Nat.toDigits 16 n) = (Nat.toDigits 16 n).length := by
  induction n using Nat.strongRecOn with
  | ind n ih =>
    have hdigit : ∀ d < 16, escapedSize [d.digitChar] = 1 := by decide
    rw [Nat.toDigits_eq_if (by decide)]
    split
    · next h => exact hdigit n h
    · next h =>
      rw [escapedSize_append, ih (n / 16) (by omega), hdigit _ (Nat.mod_lt n (by decide)),
        List.length_append]
      rfl

/-- Beyond ASCII only hidden characters are written in another form. -/
theorem escape_of_not_ascii {c : Char} (h : 128 ≤ c.toNat) :
    Quoted.escape c
      = if isHidden c then ['\\', 'u', '\x7b'] ++ Nat.toDigits 16 c.toNat ++ ['\x7d'] else [c] := by
  have hne : ∀ d : Char, d.toNat < 128 → (c == d) = false := by
    intro d hd
    rw [beq_eq_false_iff_ne]
    rintro rfl
    omega
  rw [Quoted.escape, hne '"' (by decide), hne '\\' (by decide), hne '\n' (by decide),
    hne '\r' (by decide), hne '\t' (by decide), hne '\x00' (by decide)]
  simp only [Bool.false_eq_true, if_false]

/-- A quoted character takes at most seven bytes for each byte of its own. -/
theorem escapedSize_escape_le (c : Char) : escapedSize (Quoted.escape c) ≤ 7 * c.utf8Size := by
  have hpos := c.utf8Size_pos
  rcases Nat.lt_or_ge c.toNat 128 with h | h
  · have := (escapedSize_ascii _ h).2
    rw [Char.ofNat_toNat] at this
    omega
  · have hsize : c.utf8Size ≠ 1 := by
      rw [Ne, Char.utf8Size_eq_one_iff, UInt32.le_iff_toNat_le]
      exact Nat.not_le.mpr h
    rw [escape_of_not_ascii h]
    split
    · -- there are at most six digits, and the backslash is escaped
      have hdigits : (Nat.toDigits 16 c.toNat).length ≤ 6 := by
        rw [Nat.length_toDigits_le_iff (by decide) (by decide)]
        rcases c.valid with hc | hc <;> rw [← Char.toNat] at hc <;> omega
      rw [escapedSize_append, escapedSize_append, escapedSize_toDigits,
        show escapedSize ['\\', 'u', '\x7b'] = 4 from rfl, show escapedSize ['\x7d'] = 1 from rfl]
      omega
    · -- it stands for itself
      rw [escapedSize_of_not_ascii h]
      omega

/-- **Quoted text in a JSON string.**  Four bytes are for the quotes, and at most seven for each
byte of the text. -/
theorem escapedSize_quote_le (s : String) :
    escapedSize (Quoted.quote s).toList ≤ 7 * (encode s.toList).length + 4 := by
  have hinner : ∀ cs : List Char,
      escapedSize (cs.flatMap Quoted.escape) ≤ 7 * (encode cs).length := by
    intro cs
    induction cs with
    | nil => rfl
    | cons c cs ih =>
      have := escapedSize_escape_le c
      rw [List.flatMap_cons, escapedSize_append, length_encode_cons]
      omega
  rw [Quoted.quote, String.toList_ofList, List.cons_append, escapedSize_cons, escapedSize_append]
  have := hinner s.toList
  rw [show escapedSize ['"'] = 2 from rfl]
  omega

/-- A text of U+007F takes seven bytes for each. -/
theorem escapedSize_quote_replicate (k : Nat) :
    escapedSize (Quoted.quote (String.ofList (List.replicate k '\x7f'))).toList = 7 * k + 4 := by
  have hinner : escapedSize ((List.replicate k '\x7f').flatMap Quoted.escape) = 7 * k := by
    induction k with
    | zero => rfl
    | succ k ih =>
      rw [List.replicate_succ, List.flatMap_cons, escapedSize_append, ih,
        show escapedSize (Quoted.escape '\x7f') = 7 by decide]
      omega
  rw [Quoted.quote, String.toList_ofList, String.toList_ofList, List.cons_append, escapedSize_cons,
    escapedSize_append, hinner, show escapedSize ['"'] = 2 from rfl]
  omega

end Json

end HoldToRecord
