import HoldToRecord.Json.Fault

/-!
# Lexemes of JSON

Blanks, words and strings at the front of some bytes. Each reader gives what it read and the bytes
after it. A string's escapes are resolved to bytes first, and the bytes are then read as UTF-8, so
an ill-formed character is reported after the string has been found to end.
-/

namespace HoldToRecord.Json

/-- The byte of an ASCII character. -/
abbrev byte (c : Char) : UInt8 := UInt8.ofNat c.toNat

/-! ## Blanks and words -/

/-- The four blanks of JSON. -/
def isBlank (b : UInt8) : Bool := b == 32 || b == 10 || b == 9 || b == 13

/-- What follows the blanks at the front. -/
def skipBlank : Bytes → Bytes
  | [] => []
  | b :: s => if isBlank b then skipBlank s else b :: s

/-- The rest after the letters of a word, which have to come next. -/
def word : List Char → Bytes → Except Fault Bytes
  | [], s => .ok s
  | _ :: _, [] => .error (.here .endInValue [])
  | c :: cs, b :: s => if b = byte c then word cs s else .error (.here .noWord s)

/-! ## Strings -/

/-- The value of a hexadecimal digit in either case. -/
def hexValue? (b : UInt8) : Option Nat :=
  if 48 ≤ b && b ≤ 57 then some (b.toNat - 48)
  else if 65 ≤ b && b ≤ 70 then some (b.toNat - 55)
  else if 97 ≤ b && b ≤ 102 then some (b.toNat - 87)
  else none

/-- The number written by four hexadecimal digits. -/
def hexUnit? (a b c d : UInt8) : Option Nat := do
  let a ← hexValue? a
  let b ← hexValue? b
  let c ← hexValue? c
  let d ← hexValue? d
  return ((a * 16 + b) * 16 + c) * 16 + d

/-- Four hexadecimal digits. -/
def hexUnit : Bytes → Except Fault (Nat × Bytes)
  | a :: b :: c :: d :: s =>
    match hexUnit? a b c d with
    | some n => .ok (n, s)
    | none => .error (.here .badEscape s)
  | _ => .error (.here .endInString [])

/-- The rest after a byte that has to stand within an escape. -/
def withinEscape (wanted : Char) : Bytes → Except Fault Bytes
  | [] => .error (.here .endInString [])
  | b :: s => if b = byte wanted then .ok s else .error (.here .cutEscape s)

/-- The first unit of a surrogate pair. -/
def isLeading (n : Nat) : Bool := 0xD800 ≤ n && n ≤ 0xDBFF

/-- The second unit of a surrogate pair. -/
def isTrailing (n : Nat) : Bool := 0xDC00 ≤ n && n ≤ 0xDFFF

/-- The character of an escape by number, whose `\u` has been read; a character beyond U+FFFF is a
pair of such escapes. -/
def numbered (s : Bytes) : Except Fault (Char × Bytes) := do
  let (n, s) ← hexUnit s
  if isTrailing n then .error (.here .loneSurrogate s)
  else if isLeading n then do
    let s ← withinEscape '\\' s
    let s ← withinEscape 'u' s
    let (m, s) ← hexUnit s
    if isTrailing m then
      .ok (Char.ofNat (0x10000 + (n - 0xD800) * 0x400 + (m - 0xDC00)), s)
    else .error (.here .loneSurrogate s)
  else .ok (Char.ofNat n, s)

/-- The character of an escape whose backslash has been read. -/
def escaped : Bytes → Except Fault (Char × Bytes)
  | [] => .error (.here .endInString [])
  | b :: s =>
    if b = byte '"' then .ok ('"', s)
    else if b = byte '\\' then .ok ('\\', s)
    else if b = byte '/' then .ok ('/', s)
    else if b = byte 'b' then .ok ('\x08', s)
    else if b = byte 'f' then .ok ('\x0c', s)
    else if b = byte 'n' then .ok ('\n', s)
    else if b = byte 'r' then .ok ('\r', s)
    else if b = byte 't' then .ok ('\t', s)
    else if b = byte 'u' then numbered s
    else .error (.here .badEscape s)

/-- Four digits are used up. -/
theorem length_of_hexUnit {s r : Bytes} {n : Nat} (h : hexUnit s = .ok (n, r)) :
    r.length + 4 = s.length := by
  unfold hexUnit at h
  repeat' split at h
  all_goals simp at h
  obtain ⟨-, rfl⟩ := h
  rfl

/-- One byte is used up. -/
theorem length_of_withinEscape {c : Char} {s r : Bytes} (h : withinEscape c s = .ok r) :
    r.length + 1 = s.length := by
  unfold withinEscape at h
  repeat' split at h
  all_goals simp at h
  subst h
  rfl

/-- An escape by number uses up bytes. -/
theorem length_of_numbered {s r : Bytes} {c : Char} (h : numbered s = .ok (c, r)) :
    r.length ≤ s.length := by
  unfold numbered at h
  cases h1 : hexUnit s with
  | error f => simp [h1, bind, Except.bind] at h
  | ok p =>
    obtain ⟨n, s1⟩ := p
    have l1 := length_of_hexUnit h1
    simp only [h1, bind, Except.bind] at h
    split at h
    · simp at h
    split at h
    · cases h2 : withinEscape '\\' s1 with
      | error f => simp [h2] at h
      | ok s2 =>
        have l2 := length_of_withinEscape h2
        simp only [h2] at h
        cases h3 : withinEscape 'u' s2 with
        | error f => simp [h3] at h
        | ok s3 =>
          have l3 := length_of_withinEscape h3
          simp only [h3] at h
          cases h4 : hexUnit s3 with
          | error f => simp [h4] at h
          | ok q =>
            obtain ⟨m, s4⟩ := q
            have l4 := length_of_hexUnit h4
            simp only [h4] at h
            split at h
            · simp only [Except.ok.injEq, Prod.mk.injEq] at h
              obtain ⟨-, rfl⟩ := h
              omega
            · simp at h
    · simp only [Except.ok.injEq, Prod.mk.injEq] at h
      obtain ⟨-, rfl⟩ := h
      omega

/-- An escape uses up bytes. -/
theorem length_of_escaped {s r : Bytes} {c : Char} (h : escaped s = .ok (c, r)) :
    r.length < s.length := by
  unfold escaped at h
  split at h
  · simp at h
  · next b s =>
    iterate 8
      split at h
      · simp only [Except.ok.injEq, Prod.mk.injEq] at h
        obtain ⟨-, rfl⟩ := h
        simp
    split at h
    · have := length_of_numbered h
      simp only [List.length_cons]
      omega
    · simp at h

/-- The bytes of a string up to its closing quote, escapes resolved; `acc` holds those already
read, last first. -/
def bodyOnto (acc : Bytes) (s : Bytes) : Except Fault (Bytes × Bytes) :=
  match s with
  | [] => .error (.here .endInString [])
  | b :: s =>
    if b = byte '"' then .ok (acc.reverse, s)
    else if b = byte '\\' then
      match _h : escaped s with
      | .ok (c, r) => bodyOnto ((String.utf8EncodeChar c).reverse ++ acc) r
      | .error f => .error f
    else if b < 32 then .error (.here .rawControl s)
    else bodyOnto (b :: acc) s
termination_by s.length
decreasing_by
  · have := length_of_escaped _h
    simp only [List.length_cons]
    omega
  · simp

/-- A string whose opening quote has been read. An ill-formed character is placed as many bytes
before the end of the string as there are from it on once escapes are resolved. -/
def text (s : Bytes) : Except Fault (String × Bytes) := do
  let (bytes, r) ← bodyOnto [] s
  match Text.Utf8.decode bytes with
  | .ok cs => .ok (String.ofList cs, r)
  | .error tail => .error ⟨.malformed .badCharacter, some (tail.length + r.length)⟩

end HoldToRecord.Json
