/-!
# UTF-8

`encode` writes characters as bytes; `next?` reads the character at the head of some bytes and
refuses overlong forms, surrogates and values above U+10FFFF; `decode` reads a whole text and
says, where it fails, how many bytes stand before the first ill-formed sequence.
-/

namespace HoldToRecord

/-- A run of bytes, as it travels over a connection or stands in an input. -/
abbrev Bytes := List UInt8

end HoldToRecord

namespace HoldToRecord.Text.Utf8

/-- The bytes of a list of characters, one after the other. -/
def encode (cs : List Char) : Bytes := cs.flatMap String.utf8EncodeChar

/-- The bytes of a text. -/
def ofString (s : String) : Bytes := encode s.toList

/-- Bytes that may stand after the first one of a longer sequence. -/
def isContinuation (b : UInt8) : Bool := 0x80 ≤ b && b ≤ 0xBF

/-- Two bytes of a two-byte sequence. -/
def isPair (a b : UInt8) : Bool := 0xC2 ≤ a && a ≤ 0xDF && isContinuation b

/-- First two bytes of a three-byte sequence that is neither overlong nor a surrogate. -/
def isTripleStart (a b : UInt8) : Bool :=
  (a == 0xE0 && 0xA0 ≤ b && b ≤ 0xBF) || (0xE1 ≤ a && a ≤ 0xEC && isContinuation b) ||
  (a == 0xED && 0x80 ≤ b && b ≤ 0x9F) || (0xEE ≤ a && a ≤ 0xEF && isContinuation b)

/-- First two bytes of a four-byte sequence that is neither overlong nor too large. -/
def isQuadStart (a b : UInt8) : Bool :=
  (a == 0xF0 && 0x90 ≤ b && b ≤ 0xBF) || (0xF1 ≤ a && a ≤ 0xF3 && isContinuation b) ||
  (a == 0xF4 && 0x80 ≤ b && b ≤ 0x8F)

/-- The six bits that a continuation byte adds. -/
def tailBits (b : UInt8) : Nat := b.toNat % 64

/-- The character at the head of some bytes, with the bytes after it. -/
def next? : Bytes → Option (Char × Bytes)
  | [] => none
  | a :: s =>
    if a < 0x80 then some (Char.ofNat a.toNat, s)
    else match s with
      | [] => none
      | b :: s =>
        if isPair a b then some (Char.ofNat (a.toNat % 32 * 64 + tailBits b), s)
        else match s with
          | [] => none
          | c :: s =>
            if isTripleStart a b && isContinuation c then
              some (Char.ofNat (a.toNat % 16 * 4096 + tailBits b * 64 + tailBits c), s)
            else match s with
              | [] => none
              | d :: s =>
                if isQuadStart a b && isContinuation c && isContinuation d then
                  some (Char.ofNat (a.toNat % 8 * 262144 + tailBits b * 4096 + tailBits c * 64 +
                    tailBits d), s)
                else none

/-- Reading a character uses up at least one byte. -/
theorem length_of_next? {s r : Bytes} {c : Char} (h : next? s = some (c, r)) :
    r.length < s.length := by
  unfold next? at h
  repeat' split at h
  all_goals simp at h
  all_goals
    obtain ⟨-, rfl⟩ := h
    simp only [List.length_cons]
    omega

/-- Reads characters to the end; `acc` holds those already read, last first. -/
def decodeOnto (acc : List Char) (s : Bytes) : Except Bytes (List Char) :=
  match _h : next? s with
  | some (c, r) => decodeOnto (c :: acc) r
  | none => if s.isEmpty then .ok acc.reverse else .error s
termination_by s.length
decreasing_by exact length_of_next? (by assumption)

/-- The characters of a text, or the bytes from the first ill-formed sequence on. -/
def decode (s : Bytes) : Except Bytes (List Char) := decodeOnto [] s

/-- The text of some bytes, if they are well-formed. -/
def toString? (s : Bytes) : Option String :=
  match decode s with
  | .ok cs => some (String.ofList cs)
  | .error _ => none

end HoldToRecord.Text.Utf8
