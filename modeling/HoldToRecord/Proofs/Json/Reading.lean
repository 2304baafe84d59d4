import Mathlib
import HoldToRecord.Json.Skip
import HoldToRecord.Proofs.Json.EscapedSize

/-!
# What readers of JSON yield

`Yields P Q x` says what a reader came to: something with the property `P`, or a fault with the
property `Q`. Each reader of lexemes and values has one such statement. Their faults are all
malformed texts; what they leave is no longer than what they were given; a text that was read has no
more bytes than were used up for it (`text_yields`), and an integer fits 64 bits (`number_yields`).
-/

namespace HoldToRecord

open HoldToRecord.Text.Utf8

/-! ## Characters and their bytes -/

namespace Text.Utf8

/-- A character below 128 takes one byte, one below 2048 at most two, and one below 65536 at most
three. -/
theorem utf8Size_le_of_toNat (c : Char) :
    (c.toNat < 128 → c.utf8Size ≤ 1) ∧ (c.toNat < 2048 → c.utf8Size ≤ 2)
      ∧ (c.toNat < 65536 → c.utf8Size ≤ 3) := by
  have two : c.utf8Size = 2 ↔ 128 ≤ c.toNat ∧ c.toNat ≤ 2047 := Char.utf8Size_eq_two_iff
  have three : c.utf8Size = 3 ↔ 2048 ≤ c.toNat ∧ c.toNat ≤ 65535 := Char.utf8Size_eq_three_iff
  have four : c.utf8Size = 4 ↔ 65536 ≤ c.toNat := Char.utf8Size_eq_four_iff
  rcases c.utf8Size_eq with h | h | h | h <;> omega

/-- A character made from a number is at most that number. -/
theorem toNat_ofNat_le (n : Nat) : (Char.ofNat n).toNat ≤ n := by
  unfold Char.ofNat
  split
  · exact le_of_eq rfl
  · exact Nat.zero_le n

/-- A character that was read has no more bytes than were used up. -/
theorem utf8Size_next? {s r : Bytes} {c : Char} (h : next? s = some (c, r)) :
    c.utf8Size + r.length ≤ s.length := by
  have small : ∀ n k, (n < 128 ∧ k = 1 ∨ n < 2048 ∧ k = 2 ∨ n < 65536 ∧ k = 3) →
      (Char.ofNat n).utf8Size ≤ k := by
    intro n k hk
    have hn := toNat_ofNat_le n
    obtain ⟨h1, h2, h3⟩ := utf8Size_le_of_toNat (Char.ofNat n)
    omega
  have tail : ∀ b, tailBits b < 64 := fun b => Nat.mod_lt _ (by decide)
  -- the cases go by the first byte, which says how many more there are
  unfold next? at h
  split at h
  · simp at h
  · next a s =>
    split at h
    · next ha =>
      obtain ⟨rfl, rfl⟩ := Prod.mk.inj (Option.some.inj h)
      have := small a.toNat 1 (Or.inl ⟨UInt8.lt_iff_toNat_lt.mp ha, rfl⟩)
      rw [List.length_cons]
      omega
    split at h
    · simp at h
    · next b s =>
      have := tail b
      split at h
      · obtain ⟨rfl, rfl⟩ := Prod.mk.inj (Option.some.inj h)
        have := small (a.toNat % 32 * 64 + tailBits b) 2 (by omega)
        simp only [List.length_cons]
        omega
      split at h
      · simp at h
      · next c s =>
        have := tail c
        split at h
        · obtain ⟨rfl, rfl⟩ := Prod.mk.inj (Option.some.inj h)
          have := small (a.toNat % 16 * 4096 + tailBits b * 64 + tailBits c) 3 (by omega)
          simp only [List.length_cons]
          omega
        split at h
        · simp at h
        · next d s =>
          split at h
          · obtain ⟨rfl, rfl⟩ := Prod.mk.inj (Option.some.inj h)
            have := Char.utf8Size_le_four (Char.ofNat
              (a.toNat % 8 * 262144 + tailBits b * 4096 + tailBits c * 64 + tailBits d))
            simp only [List.length_cons]
            omega
          · simp at h

/-- Bytes that are read as characters are as many as those take. -/
theorem length_encode_decodeOnto {acc cs : List Char} {s : Bytes}
    (h : decodeOnto acc s = .ok cs) :
    (encode cs).length ≤ (encode acc.reverse).length + s.length := by
  fun_induction decodeOnto acc s with
  | case1 acc s c r hnext ih =>
    have hrest := ih h
    have hused := utf8Size_next? hnext
    rw [List.reverse_cons, encode_append, List.length_append, length_encode_cons, encode_nil,
      List.length_nil] at hrest
    omega
  | case2 acc s =>
    obtain rfl := Except.ok.inj h
    exact Nat.le_add_right _ _
  | case3 => simp at h

end Text.Utf8

namespace Json

/-! ## What a reader came to -/

/-- A reader came to something with a property, or to a fault with another one. -/
def Yields {α : Type} (P : α → Prop) (Q : Fault → Prop) : Except Fault α → Prop
  | .ok a => P a
  | .error f => Q f

/-- A fault that says that the text is no JSON. -/
def Fault.IsMalformed (f : Fault) : Prop := ∃ m, f.cause = .malformed m

theorem Fault.isMalformed_here (m : Malformed) (rest : Bytes) :
    (Fault.here m rest).IsMalformed := ⟨m, rfl⟩

theorem Fault.isMalformed_onNext (m : Malformed) (rest : Bytes) :
    (Fault.onNext m rest).IsMalformed := ⟨m, rfl⟩

section Yields

variable {α β : Type} {P P' : α → Prop} {R : β → Prop} {Q Q' : Fault → Prop}

/-- Weaker properties hold as well. -/
theorem Yields.mono {x : Except Fault α} (h : Yields P Q x) (hP : ∀ a, P a → P' a)
    (hQ : ∀ f, Q f → Q' f) : Yields P' Q' x := by
  cases x with
  | ok a => exact hP a h
  | error f => exact hQ f h

theorem Yields.of_ok {x : Except Fault α} (h : Yields P Q x) {a : α} (hx : x = .ok a) : P a := by
  subst hx
  exact h

theorem Yields.of_error {x : Except Fault α} (h : Yields P Q x) {f : Fault}
    (hx : x = .error f) : Q f := by
  subst hx
  exact h

/-- A fault of the first reader is the fault of both. -/
theorem Yields.bind {x : Except Fault α} {f : α → Except Fault β} (h : Yields P Q x)
    (hf : ∀ a, P a → Yields R Q (f a)) : Yields R Q (x >>= f) := by
  cases x with
  | ok a => exact hf a h
  | error e => exact h

end Yields

/-! ## Blanks and words -/

/-- Blanks are passed over. -/
theorem length_skipBlank_le (s : Bytes) : (skipBlank s).length ≤ s.length := by
  induction s with
  | nil => rfl
  | cons b s ih =>
    rw [skipBlank]
    split
    · exact Nat.le_succ_of_le ih
    · exact Nat.le_refl _

/-- What comes after blanks is part of the text. -/
theorem length_of_skipBlank {s t : Bytes} {b : UInt8} (h : skipBlank s = b :: t) :
    t.length < s.length := by
  have := length_skipBlank_le s
  rw [h, List.length_cons] at this
  exact this

/-- A word uses up its letters. -/
theorem word_yields (cs : List Char) (s : Bytes) :
    Yields (fun r => r.length ≤ s.length) Fault.IsMalformed (word cs s) := by
  induction cs generalizing s with
  | nil => exact Nat.le_refl _
  | cons c cs ih =>
    cases s with
    | nil => exact Fault.isMalformed_here ..
    | cons b s =>
      rw [word]
      split
      · exact (ih s).mono (fun r hr => Nat.le_succ_of_le hr) fun _ => id
      · exact Fault.isMalformed_here ..

/-! ## Strings -/

/-- Four hexadecimal digits are used up. -/
theorem hexUnit_yields (s : Bytes) :
    Yields (fun p => p.2.length + 4 = s.length) Fault.IsMalformed (hexUnit s) := by
  unfold hexUnit
  split
  · split
    · rfl
    · exact Fault.isMalformed_here ..
  · exact Fault.isMalformed_here ..

/-- One byte is used up. -/
theorem withinEscape_yields (c : Char) (s : Bytes) :
    Yields (fun r => r.length + 1 = s.length) Fault.IsMalformed (withinEscape c s) := by
  unfold withinEscape
  split
  · exact Fault.isMalformed_here ..
  · split
    · rfl
    · exact Fault.isMalformed_here ..

/-- An escape by number is at least as long as its character. -/
theorem numbered_yields (s : Bytes) :
    Yields (fun p => p.1.utf8Size + p.2.length ≤ s.length) Fault.IsMalformed (numbered s) := by
  unfold numbered
  refine (hexUnit_yields s).bind fun ⟨n, s1⟩ h1 => ?_
  dsimp only at h1 ⊢
  split
  · exact Fault.isMalformed_here ..
  split
  · -- a pair of surrogates takes two escapes
    refine (withinEscape_yields _ s1).bind fun s2 h2 => ?_
    refine (withinEscape_yields _ s2).bind fun s3 h3 => ?_
    refine (hexUnit_yields s3).bind fun ⟨m, s4⟩ h4 => ?_
    dsimp only at h4 ⊢
    split
    · have := (Char.ofNat (0x10000 + (n - 0xD800) * 0x400 + (m - 0xDC00))).utf8Size_le_four
      simp only [Yields]
      omega
    · exact Fault.isMalformed_here ..
  · have := (Char.ofNat n).utf8Size_le_four
    simp only [Yields]
    omega

/-- An escape is at least as long as its character. -/
theorem escaped_yields (s : Bytes) :
    Yields (fun p => p.1.utf8Size + p.2.length ≤ s.length) Fault.IsMalformed (escaped s) := by
  unfold escaped
  split
  · exact Fault.isMalformed_here ..
  · next b s =>
    have letter : ∀ c : Char, c.utf8Size = 1 →
        Yields (fun p => p.1.utf8Size + p.2.length ≤ (b :: s).length) Fault.IsMalformed
          (.ok (c, s)) := by
      intro c hc
      show c.utf8Size + s.length ≤ s.length + 1
      omega
    iterate 8
      split
      · exact letter _ rfl
    split
    · exact (numbered_yields s).mono (fun p hp => Nat.le_succ_of_le hp) fun _ => id
    · exact Fault.isMalformed_here ..

/-- The bytes of a string are no more than were used up, the closing quote apart. -/
theorem bodyOnto_yields (acc s : Bytes) :
    Yields (fun p => p.1.length + p.2.length + 1 ≤ acc.length + s.length) Fault.IsMalformed
      (bodyOnto acc s) := by
  fun_induction bodyOnto acc s with
  | case1 => exact Fault.isMalformed_here ..
  | case2 acc s =>
    simp only [Yields, List.length_reverse, List.length_cons]
    omega
  | case3 acc s c r hescaped _ ih =>
    have hused := (escaped_yields s).of_ok hescaped
    refine ih.mono (fun p hp => ?_) fun _ => id
    simp only [List.length_append, List.length_reverse, String.length_utf8EncodeChar,
      List.length_cons] at hp hused ⊢
    omega
  | case4 acc s f hescaped _ => exact (escaped_yields s).of_error hescaped
  | case5 => exact Fault.isMalformed_here ..
  | case6 acc b s _ _ _ ih =>
    refine ih.mono (fun p hp => ?_) fun _ => id
    simp only [List.length_cons] at hp ⊢
    omega

/-- **Strings.**  A text that was read has no more bytes than were used up, the closing quote
apart. -/
theorem text_yields (s : Bytes) :
    Yields (fun p => (encode p.1.toList).length + p.2.length + 1 ≤ s.length) Fault.IsMalformed
      (text s) := by
  unfold text
  refine (bodyOnto_yields [] s).bind fun ⟨bytes, r⟩ h => ?_
  dsimp only at h ⊢
  split
  · next cs hcs =>
    have := length_encode_decodeOnto hcs
    simp only [Yields, String.toList_ofList, List.reverse_nil, encode_nil, List.length_nil] at *
    omega
  · exact ⟨_, rfl⟩

/-! ## Numbers -/

/-- An integer that fits 64 bits, or any binary64 number. -/
def Number.Fits : Number → Prop
  | .integer i => i.natAbs ≤ maxSignificand
  | .float _ => True

/-- A number that fits, and a rest of at most `n` bytes. -/
def ReadsNumber (n : Nat) (x : Except Fault (Number × Bytes)) : Prop :=
  Yields (fun p => p.1.Fits ∧ p.2.length ≤ n) Fault.IsMalformed x

/-- More may be left. -/
theorem ReadsNumber.mono {n m : Nat} {x : Except Fault (Number × Bytes)} (h : ReadsNumber n x)
    (hnm : n ≤ m) : ReadsNumber m x :=
  Yields.mono h (fun _ hp => ⟨hp.1, le_trans hp.2 hnm⟩) fun _ => id

/-- Digits are passed over. -/
theorem length_skipDigits_le (s : Bytes) : (skipDigits s).length ≤ s.length := by
  induction s with
  | nil => rfl
  | cons b s ih =>
    rw [skipDigits]
    split
    · exact Nat.le_succ_of_le ih
    · exact Nat.le_refl _

/-- A significand stays in 64 bits. -/
theorem significandFrom_bounds {value : Nat} (count : Nat) (s : Bytes)
    (h : value ≤ maxSignificand) :
    (significandFrom value count s).1 ≤ maxSignificand
      ∧ (significandFrom value count s).2.2.length ≤ s.length := by
  induction s generalizing value count with
  | nil => exact ⟨h, Nat.le_refl _⟩
  | cons b s ih =>
    rw [significandFrom]
    dsimp only
    split
    · split
      · next hnext => exact ⟨(ih (count + 1) hnext).1, Nat.le_succ_of_le (ih (count + 1) hnext).2⟩
      · -- the digit would go beyond 64 bits and is left where it is
        exact ⟨h, Nat.le_refl _⟩
    · exact ⟨h, Nat.le_refl _⟩

/-- An exponent uses up its digits. -/
theorem length_exponentFrom_le (value : Nat) (s : Bytes) :
    (exponentFrom value s).2.length ≤ s.length := by
  induction s generalizing value with
  | nil => rfl
  | cons b s ih =>
    rw [exponentFrom]
    dsimp only
    split
    · split
      · exact Nat.le_succ_of_le (ih _)
      · exact Nat.le_succ _
    · exact Nat.le_refl _

/-- So does its sign. -/
theorem length_exponentSign_le (s : Bytes) : (exponentSign s).2.length ≤ s.length := by
  unfold exponentSign
  repeat' split
  · exact Nat.le_refl _
  · exact Nat.le_succ _
  · exact Nat.le_succ _
  · exact Nat.le_refl _

/-- What is scaled is a binary64 number. -/
theorem scaled_reads (negative : Bool) (significand : Nat) (exponent : Int) (rest : Bytes) :
    ReadsNumber rest.length (scaled negative significand exponent rest) := by
  unfold scaled
  dsimp only
  split_ifs
  all_goals first
    | exact Fault.isMalformed_here ..
    | exact ⟨trivial, Nat.le_refl _⟩

/-- A number with an exponent is a binary64 number. -/
theorem exponentOf_reads (negative : Bool) (significand : Nat) (start : Int) (s : Bytes) :
    ReadsNumber s.length (exponentOf negative significand start s) := by
  have hsign := length_exponentSign_le s
  unfold exponentOf
  generalize exponentSign s = signed at hsign
  obtain ⟨down, t⟩ := signed
  dsimp only at hsign ⊢
  split
  · exact Fault.isMalformed_here ..
  · next b t =>
    have hdigits := length_exponentFrom_le (b.toNat - 48) t
    rw [List.length_cons] at hsign
    split
    · split
      · next e rest hrest =>
        rw [hrest] at hdigits
        dsimp only at hdigits
        exact (scaled_reads ..).mono (by omega)
      · next rest hrest =>
        rw [hrest] at hdigits
        dsimp only at hdigits
        split
        · exact Fault.isMalformed_here ..
        · have := length_skipDigits_le rest
          exact ⟨trivial, by dsimp only; omega⟩
    · exact Fault.isMalformed_here ..

/-- So is one whose digits are over. -/
theorem afterDigits_reads (negative : Bool) (significand : Nat) (start : Int) (s : Bytes) :
    ReadsNumber s.length (afterDigits negative significand start s) := by
  unfold afterDigits exponentFollows
  rcases s with _ | ⟨b, s⟩
  · exact scaled_reads ..
  · dsimp only
    split_ifs
    · exact (exponentOf_reads ..).mono (Nat.le_succ _)
    · exact scaled_reads ..

/-- So is one with a fraction. -/
theorem fractionOf_reads (negative : Bool) {significand : Nat} (h : significand ≤ maxSignificand)
    (start : Int) (s : Bytes) : ReadsNumber s.length (fractionOf negative significand start s) := by
  obtain ⟨-, hrest⟩ := significandFrom_bounds 0 s h
  unfold fractionOf
  generalize significandFrom significand 0 s = found at hrest
  obtain ⟨value, count, rest⟩ := found
  dsimp only at hrest ⊢
  split_ifs
  · exact (afterDigits_reads ..).mono (le_trans (length_skipDigits_le _) hrest)
  · split
    · exact Fault.isMalformed_onNext ..
    · exact Fault.isMalformed_onNext ..
  · exact (afterDigits_reads ..).mono hrest

/-- So is one whose whole part is not kept. -/
theorem afterWhole_reads (negative : Bool) {significand : Nat} (h : significand ≤ maxSignificand)
    (start : Int) (s : Bytes) : ReadsNumber s.length (afterWhole negative significand start s) := by
  unfold afterWhole
  split
  · exact scaled_reads ..
  · split
    · exact (fractionOf_reads negative h ..).mono (Nat.le_succ _)
    · exact afterDigits_reads ..

/-- A whole number fits if its magnitude does. -/
theorem fits_wholeNumber (negative : Bool) {significand : Nat} (h : significand ≤ maxSignificand) :
    (wholeNumber negative significand).Fits := by
  unfold wholeNumber
  split_ifs
  · trivial
  · simpa [Number.Fits] using h
  · simpa [Number.Fits] using h

/-- A number whose whole part is kept is the number it says. -/
theorem afterSignificand_reads (negative : Bool) {significand : Nat}
    (h : significand ≤ maxSignificand) (s : Bytes) :
    ReadsNumber s.length (afterSignificand negative significand s) := by
  unfold afterSignificand
  split
  · exact ⟨fits_wholeNumber negative h, Nat.le_refl _⟩
  · split
    · exact afterWhole_reads negative h ..
    · exact ⟨fits_wholeNumber negative h, Nat.le_refl _⟩

/-- **Numbers.**  An integer that was read fits 64 bits. -/
theorem number_reads (negative : Bool) (s : Bytes) :
    ReadsNumber s.length (number negative s) := by
  unfold number
  split
  · exact Fault.isMalformed_here ..
  · next b rest =>
    split_ifs
    · exact Fault.isMalformed_onNext ..
    · exact (afterSignificand_reads negative (Nat.zero_le _) _).mono (Nat.le_succ _)
    · obtain ⟨hvalue, hrest⟩ := significandFrom_bounds 0 (b :: rest) (Nat.zero_le maxSignificand)
      generalize significandFrom 0 0 (b :: rest) = found at hvalue hrest
      obtain ⟨value, count, rest'⟩ := found
      dsimp only at hvalue hrest ⊢
      split
      · exact (afterWhole_reads negative hvalue ..).mono
          (le_trans (length_skipDigits_le _) hrest)
      · exact (afterSignificand_reads negative hvalue _).mono hrest
    · exact Fault.isMalformed_here ..

/-! ## Values -/

/-- What was found has its place in `n` bytes: a text with a quote at its end, or a number that
fits. -/
def Found.Fits (n : Nat) : Found → Prop
  | .text t => (encode t.toList).length + 1 ≤ n
  | .number m => m.Fits
  | _ => True

/-- A scalar is no longer than what was used up for it. -/
theorem scalar_yields (b : UInt8) (s : Bytes) :
    Yields (fun p => p.1.found.Fits s.length ∧ p.2.length ≤ (b :: s).length) Fault.IsMalformed
      (scalar b s) := by
  have longer : ∀ n, n ≤ s.length → n ≤ (b :: s).length := fun n hn => Nat.le_succ_of_le hn
  unfold scalar
  split_ifs
  · exact (word_yields _ s).bind fun r hr => ⟨trivial, longer _ hr⟩
  · exact (word_yields _ s).bind fun r hr => ⟨trivial, longer _ hr⟩
  · exact (word_yields _ s).bind fun r hr => ⟨trivial, longer _ hr⟩
  · exact Yields.bind (number_reads true s) fun p hp => ⟨hp.1, longer _ hp.2⟩
  · exact Yields.bind (number_reads false (b :: s)) fun p hp => hp
  · refine (text_yields s).bind fun p hp => ⟨?_, ?_⟩
    · simp only [Value.found, Found.Fits]
      omega
    · exact longer p.2.length (by omega)
  · exact Fault.isMalformed_onNext ..

/-- Where the reader of a list or an object goes on. -/
def Next.rest : Next → Bytes
  | .more s => s
  | .close s => s

/-- The step to the next item uses up a comma or a bracket, or nothing before the first item. -/
theorem nextItem_yields (first : Bool) (s : Bytes) :
    Yields (fun next => next.rest.length ≤ s.length) Fault.IsMalformed (nextItem first s) := by
  unfold nextItem
  split
  · exact Fault.isMalformed_onNext ..
  · next b t hb =>
    have ht := length_of_skipBlank hb
    split_ifs
    · exact Nat.le_of_lt ht
    · exact ht
    · split
      · exact Fault.isMalformed_onNext ..
      · next c u hc =>
        have hu := length_of_skipBlank hc
        split
        · exact Fault.isMalformed_onNext ..
        · exact le_trans hu (Nat.le_of_lt ht)
    · exact Fault.isMalformed_onNext ..

/-- The step to the next key uses up its quote, or a bracket. -/
theorem nextKey_yields (first : Bool) (s : Bytes) :
    Yields (fun next => next.rest.length < s.length) Fault.IsMalformed (nextKey first s) := by
  unfold nextKey
  split
  · exact Fault.isMalformed_onNext ..
  · next b t hb =>
    have ht := length_of_skipBlank hb
    split_ifs
    · exact ht
    · exact ht
    · exact Fault.isMalformed_onNext ..
    · split
      · exact Fault.isMalformed_onNext ..
      · next c u hc =>
        have hu := length_of_skipBlank hc
        split_ifs
        · exact lt_trans hu ht
        · exact Fault.isMalformed_onNext ..
        · exact Fault.isMalformed_onNext ..
    · exact Fault.isMalformed_onNext ..

/-- A colon uses up itself and the blanks before it. -/
theorem colon_yields (s : Bytes) :
    Yields (fun r => r.length < s.length) Fault.IsMalformed (colon s) := by
  unfold colon
  split
  · exact Fault.isMalformed_onNext ..
  · next b t hb =>
    split
    · exact length_of_skipBlank hb
    · exact Fault.isMalformed_onNext ..

/-- Values, items and members of any depth: by induction on the fuel, for the three at once. -/
theorem within_yields (fuel : Nat) :
    (∀ depth s, Yields (fun p => p.2.length ≤ s.length) Fault.IsMalformed
        (valueWithin fuel depth s))
      ∧ (∀ depth first acc s,
        Yields (fun p => p.1.length ≤ acc.length + fuel ∧ p.2.length ≤ s.length)
          Fault.IsMalformed (itemsWithin fuel depth first acc s))
      ∧ ∀ depth first acc s, Yields (fun p => p.2.length ≤ s.length) Fault.IsMalformed
        (membersWithin fuel depth first acc s) := by
  induction fuel with
  | zero =>
    refine ⟨fun depth s => ?_, fun depth first acc s => ?_, fun depth first acc s => ?_⟩
    · rw [valueWithin]
      exact Fault.isMalformed_here ..
    · rw [itemsWithin]
      exact Fault.isMalformed_here ..
    · rw [membersWithin]
      exact Fault.isMalformed_here ..
  | succ fuel ih =>
    obtain ⟨hvalue, hitems, hmembers⟩ := ih
    refine ⟨fun depth s => ?_, fun depth first acc s => ?_, fun depth first acc s => ?_⟩
    · rw [valueWithin]
      split
      · exact Fault.isMalformed_onNext ..
      · next b t hb =>
        have ht := length_of_skipBlank hb
        split_ifs
        · split
          · exact Fault.isMalformed_onNext ..
          · exact (hitems ..).bind fun p hp => le_trans hp.2 (Nat.le_of_lt ht)
        · split
          · exact Fault.isMalformed_onNext ..
          · exact (hmembers ..).bind fun p hp => le_trans hp (Nat.le_of_lt ht)
        · exact (scalar_yields b t).mono (fun p hp => le_trans hp.2 ht) fun _ => id
    · rw [itemsWithin]
      have hnext := nextItem_yields first s
      split
      · next f hf => exact hnext.of_error hf
      · next r hr =>
        have := hnext.of_ok hr
        -- the items were collected backwards
        refine ⟨?_, this⟩
        rw [List.length_reverse]
        exact Nat.le_add_right _ _
      · next r hr =>
        have hlength : r.length ≤ s.length := hnext.of_ok hr
        have hread := hvalue depth r
        split
        · next f hf => exact hread.of_error hf
        · next v u hu =>
          have hrest : u.length ≤ r.length := hread.of_ok hu
          refine (hitems depth false (v :: acc) u).mono (fun p hp => ⟨?_, ?_⟩) fun _ => id
          · rw [List.length_cons] at hp
            omega
          · omega
    · rw [membersWithin]
      have hnext := nextKey_yields first s
      split
      · next f hf => exact hnext.of_error hf
      · next r hr => exact Nat.le_of_lt (hnext.of_ok hr)
      · next r hr =>
        have hlength : r.length < s.length := hnext.of_ok hr
        have hkey := text_yields r
        split
        · next f hf => exact hkey.of_error hf
        · next k u hu =>
          have hu := hkey.of_ok hu
          have hcolon := colon_yields u
          split
          · next f hf => exact hcolon.of_error hf
          · next t ht =>
            have ht : t.length < u.length := hcolon.of_ok ht
            have hread := hvalue depth t
            split
            · next f hf => exact hread.of_error hf
            · next v w hw =>
              have hw : w.length ≤ t.length := hread.of_ok hw
              refine (hmembers depth false ((k, v) :: acc) w).mono (fun p hp => ?_) fun _ => id
              dsimp only at hu
              omega

/-- A text that goes on is no JSON. -/
theorem finished_yields (s : Bytes) :
    Yields (fun _ => True) Fault.IsMalformed (finished s) := by
  unfold finished
  split
  · trivial
  · exact Fault.isMalformed_onNext ..

end Json

end HoldToRecord
