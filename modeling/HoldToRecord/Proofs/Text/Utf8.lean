import Mathlib.Tactic
import HoldToRecord.Text.Utf8

/-!
# UTF-8 texts

How many bytes texts take (`length_encode_le`) and which bytes those are: ASCII characters are their
own bytes, and all others have bytes from 128 on. A character is read back from the bytes that it is
written as (`next?_utf8EncodeChar`), and so is a text (`decode_encode`).
-/

namespace HoldToRecord.Text.Utf8

/-- The numbers of characters leave out the surrogates and end at U+10FFFF. -/
theorem toNat_bounds (c : Char) : c.toNat < 55296 ∨ 57343 < c.toNat ∧ c.toNat < 1114112 := c.valid

/-- A byte made from a number below 256 is that number. -/
theorem toNat_ofNat {n : Nat} (h : n < 256) : (UInt8.ofNat n).toNat = n := by
  rw [UInt8.toNat_ofNat', Nat.mod_eq_of_lt h]

/-! ## Sizes -/

/-- Texts are encoded one after the other. -/
@[simp] theorem encode_append (as bs : List Char) : encode (as ++ bs) = encode as ++ encode bs :=
  List.flatMap_append

@[simp] theorem encode_nil : encode [] = [] := rfl

/-- The first character comes first. -/
theorem length_encode_cons (c : Char) (cs : List Char) :
    (encode (c :: cs)).length = c.utf8Size + (encode cs).length := by
  rw [encode, List.flatMap_cons, List.length_append, String.length_utf8EncodeChar, ← encode]

/-- Every character takes one byte at least. -/
theorem length_le_length_encode (cs : List Char) : cs.length ≤ (encode cs).length := by
  induction cs with
  | nil => rfl
  | cons c cs ih =>
    have := c.utf8Size_pos
    rw [length_encode_cons, List.length_cons]
    omega

/-- No character takes more than four. -/
theorem length_encode_le (cs : List Char) : (encode cs).length ≤ 4 * cs.length := by
  induction cs with
  | nil => rfl
  | cons c cs ih =>
    have := c.utf8Size_le_four
    rw [length_encode_cons, List.length_cons]
    omega

/-! ## Bytes of characters -/

/-- A character below 128 is the byte of its number. -/
theorem utf8EncodeChar_ascii {c : Char} (h : c.toNat < 128) :
    String.utf8EncodeChar c = [UInt8.ofNat c.toNat] := by
  have hval : c.val.toNat = c.toNat := rfl
  unfold String.utf8EncodeChar
  simp only [hval]
  rw [if_pos (by omega)]

theorem encode_cons_ascii {c : Char} (cs : List Char) (h : c.toNat < 128) :
    encode (c :: cs) = UInt8.ofNat c.toNat :: encode cs := by
  rw [encode, List.flatMap_cons, utf8EncodeChar_ascii h, ← encode]
  rfl

/-- Beyond ASCII every byte of a character is 128 at least. -/
theorem le_of_mem_utf8EncodeChar {c : Char} (hc : 128 ≤ c.toNat) {b : UInt8}
    (hb : b ∈ String.utf8EncodeChar c) : 128 ≤ b.toNat := by
  have hv := toNat_bounds c
  have hval : c.val.toNat = c.toNat := rfl
  unfold String.utf8EncodeChar at hb
  simp only [hval] at hb
  split_ifs at hb
  · omega
  all_goals
    simp only [List.mem_cons, List.not_mem_nil, or_false] at hb
    rcases hb with rfl | rfl | rfl | rfl <;> rw [toNat_ofNat (by omega)] <;> omega

/-! ## Sequences of one to four bytes -/

section Sequences

variable {a b c d : UInt8} (s : Bytes)

theorem next?_single (ha : a.toNat < 128) : next? (a :: s) = some (Char.ofNat a.toNat, s) := by
  have : a < 0x80 := UInt8.lt_iff_toNat_lt.mpr ha
  simp [next?, this]

theorem next?_pair (ha : 194 ≤ a.toNat ∧ a.toNat ≤ 223) (hb : 128 ≤ b.toNat ∧ b.toNat ≤ 191) :
    next? (a :: b :: s) = some (Char.ofNat (a.toNat % 32 * 64 + b.toNat % 64), s) := by
  have hbig : ¬ a < 0x80 := by
    rw [UInt8.lt_iff_toNat_lt, show (0x80 : UInt8).toNat = 128 from rfl]
    omega
  have hpair : isPair a b = true := by
    simp only [isPair, isContinuation, Bool.and_eq_true, decide_eq_true_eq, UInt8.le_iff_toNat_le]
    exact ⟨⟨ha.1, ha.2⟩, hb.1, hb.2⟩
  simp [next?, hbig, hpair, tailBits]

theorem next?_triple (ha : 224 ≤ a.toNat ∧ a.toNat ≤ 239) (hb : 128 ≤ b.toNat ∧ b.toNat ≤ 191)
    (hc : 128 ≤ c.toNat ∧ c.toNat ≤ 191) (hshort : a.toNat = 224 → 160 ≤ b.toNat)
    (hsurrogate : a.toNat = 237 → b.toNat ≤ 159) :
    next? (a :: b :: c :: s)
      = some (Char.ofNat (a.toNat % 16 * 4096 + b.toNat % 64 * 64 + c.toNat % 64), s) := by
  have hbig : ¬ a < 0x80 := by
    rw [UInt8.lt_iff_toNat_lt, show (0x80 : UInt8).toNat = 128 from rfl]
    omega
  have hpair : isPair a b = false := by
    simp only [isPair, Bool.and_eq_false_iff, decide_eq_false_iff_not, UInt8.le_iff_toNat_le,
      show (0xDF : UInt8).toNat = 223 from rfl]
    omega
  have htriple : (isTripleStart a b && isContinuation c) = true := by
    simp only [isTripleStart, isContinuation, Bool.and_eq_true, Bool.or_eq_true, beq_iff_eq,
      decide_eq_true_eq, UInt8.le_iff_toNat_le, ← UInt8.toNat_inj]
    simp only [UInt8.reduceToNat]
    omega
  simp [next?, hbig, hpair, htriple, tailBits]

theorem next?_quad (ha : 240 ≤ a.toNat ∧ a.toNat ≤ 244) (hb : 128 ≤ b.toNat ∧ b.toNat ≤ 191)
    (hc : 128 ≤ c.toNat ∧ c.toNat ≤ 191) (hd : 128 ≤ d.toNat ∧ d.toNat ≤ 191)
    (hshort : a.toNat = 240 → 144 ≤ b.toNat) (hlarge : a.toNat = 244 → b.toNat ≤ 143) :
    next? (a :: b :: c :: d :: s)
      = some (Char.ofNat (a.toNat % 8 * 262144 + b.toNat % 64 * 4096 + c.toNat % 64 * 64
          + d.toNat % 64), s) := by
  have hbig : ¬ a < 0x80 := by
    rw [UInt8.lt_iff_toNat_lt, show (0x80 : UInt8).toNat = 128 from rfl]
    omega
  have hpair : isPair a b = false := by
    simp only [isPair, Bool.and_eq_false_iff, decide_eq_false_iff_not, UInt8.le_iff_toNat_le,
      show (0xDF : UInt8).toNat = 223 from rfl]
    omega
  have htriple : isTripleStart a b = false := by
    simp only [isTripleStart, Bool.or_eq_false_iff, Bool.and_eq_false_iff, beq_eq_false_iff_ne,
      decide_eq_false_iff_not, UInt8.le_iff_toNat_le, ne_eq, ← UInt8.toNat_inj]
    simp only [UInt8.reduceToNat]
    omega
  have hquad : (isQuadStart a b && isContinuation c && isContinuation d) = true := by
    simp only [isQuadStart, isContinuation, Bool.and_eq_true, Bool.or_eq_true, beq_iff_eq,
      decide_eq_true_eq, UInt8.le_iff_toNat_le, ← UInt8.toNat_inj]
    simp only [UInt8.reduceToNat]
    omega
  simp [next?, hbig, hpair, htriple, hquad, tailBits]

end Sequences

/-! ## Characters and texts -/

/-- A character is read back from its bytes, whatever follows them. -/
theorem next?_utf8EncodeChar (c : Char) (s : Bytes) :
    next? (String.utf8EncodeChar c ++ s) = some (c, s) := by
  have hv := toNat_bounds c
  have read : ∀ n, n = c.toNat → some (Char.ofNat n, s) = some (c, s) := by
    rintro n rfl
    rw [Char.ofNat_toNat]
  have hval : c.val.toNat = c.toNat := rfl
  unfold String.utf8EncodeChar
  simp only [hval]
  split
  · rw [List.singleton_append, next?_single s (by rw [toNat_ofNat] <;> omega), toNat_ofNat (by omega)]
    exact read _ rfl
  split
  · rw [List.cons_append, List.singleton_append, next?_pair s (by rw [toNat_ofNat] <;> omega)
      (by rw [toNat_ofNat] <;> omega), toNat_ofNat (by omega), toNat_ofNat (by omega)]
    exact read _ (by omega)
  split
  · rw [List.cons_append, List.cons_append, List.singleton_append,
      next?_triple s (by rw [toNat_ofNat] <;> omega) (by rw [toNat_ofNat] <;> omega)
        (by rw [toNat_ofNat] <;> omega) (by rw [toNat_ofNat, toNat_ofNat] <;> omega)
        (by rw [toNat_ofNat, toNat_ofNat] <;> omega),
      toNat_ofNat (by omega), toNat_ofNat (by omega), toNat_ofNat (by omega)]
    exact read _ (by omega)
  · rw [List.cons_append, List.cons_append, List.cons_append, List.singleton_append,
      next?_quad s (by rw [toNat_ofNat] <;> omega) (by rw [toNat_ofNat] <;> omega)
        (by rw [toNat_ofNat] <;> omega) (by rw [toNat_ofNat] <;> omega)
        (by rw [toNat_ofNat, toNat_ofNat] <;> omega) (by rw [toNat_ofNat, toNat_ofNat] <;> omega),
      toNat_ofNat (by omega), toNat_ofNat (by omega), toNat_ofNat (by omega), toNat_ofNat (by omega)]
    exact read _ (by omega)

/-- Characters are read back behind those that were read before. -/
theorem decodeOnto_encode (acc cs : List Char) :
    decodeOnto acc (encode cs) = .ok (acc.reverse ++ cs) := by
  induction cs generalizing acc with
  | nil =>
    rw [decodeOnto]
    split
    · next h => simp [encode, next?] at h
    · simp [encode]
  | cons c cs ih =>
    have hnext : next? (encode (c :: cs)) = some (c, encode cs) := next?_utf8EncodeChar c (encode cs)
    rw [decodeOnto]
    split
    · next d r h =>
      rw [hnext, Option.some.injEq, Prod.mk.injEq] at h
      obtain ⟨rfl, rfl⟩ := h
      rw [ih, List.reverse_cons, List.append_assoc, List.singleton_append]
    · next h => simp [hnext] at h

/-- **A text is read back from its bytes.** -/
theorem decode_encode (cs : List Char) : decode (encode cs) = .ok cs :=
  decodeOnto_encode [] cs

end HoldToRecord.Text.Utf8
