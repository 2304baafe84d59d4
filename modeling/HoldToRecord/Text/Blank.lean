/-!
# White space

`isBlank` holds of the 25 characters of the Unicode property White_Space, and `trim` takes them
off both ends of a text. A trimmed text neither starts nor ends with a blank
(`trimStart_eq_nil_iff` says when nothing is left).
-/

namespace HoldToRecord.Text

/-- The characters of the Unicode property White_Space. -/
def isBlank (c : Char) : Bool :=
  let n := c.toNat
  (9 ≤ n && n ≤ 13) || n == 0x20 || n == 0x85 || n == 0xA0 || n == 0x1680 ||
  (0x2000 ≤ n && n ≤ 0x200A) || n == 0x2028 || n == 0x2029 || n == 0x202F || n == 0x205F ||
  n == 0x3000

/-- What follows the blanks at the front of a text. -/
def trimStart (cs : List Char) : List Char := cs.dropWhile isBlank

/-- What precedes the blanks at the end of a text. -/
def trimEnd (cs : List Char) : List Char := (cs.reverse.dropWhile isBlank).reverse

/-- A text without the blanks at its two ends. -/
def trim (cs : List Char) : List Char := trimEnd (trimStart cs)

/-- The front of a text that starts with a blank is dropped. -/
theorem trimStart_cons_blank {c : Char} (cs : List Char) (h : isBlank c = true) :
    trimStart (c :: cs) = trimStart cs := by
  simp [trimStart, h]

/-- A text that starts with no blank keeps its front. -/
theorem trimStart_cons_ink {c : Char} (cs : List Char) (h : isBlank c = false) :
    trimStart (c :: cs) = c :: cs := by
  simp [trimStart, h]

/-- Nothing is left in front exactly when every character is blank. -/
theorem trimStart_eq_nil_iff (cs : List Char) :
    trimStart cs = [] ↔ ∀ c ∈ cs, isBlank c = true := by
  induction cs with
  | nil => simp [trimStart]
  | cons c cs ih =>
    by_cases h : isBlank c = true
    · simpa [trimStart_cons_blank cs h, h] using ih
    · simp [trimStart_cons_ink cs (by simpa using h), h]

end HoldToRecord.Text
