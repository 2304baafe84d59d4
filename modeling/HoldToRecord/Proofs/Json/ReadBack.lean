import Mathlib.Tactic
import HoldToRecord.Proofs.Json.Spelling
import HoldToRecord.Proofs.Text.Utf8

/-!
# Reading values back

However a value is spelt, the reader gives the value back and leaves what follows it (`value_reads`):
the same holds of strings (`text_reads`), of integers (`scalar_integer`) and of the steps between
items and members.
-/

namespace HoldToRecord.Json

open HoldToRecord.Text.Utf8 HoldToRecord.Decimal

/-! ## Blanks -/

/-- Blanks in front are passed over. -/
theorem skipBlank_blanks {w : Bytes} (hw : Blanks w) (s : Bytes) :
    skipBlank (w ++ s) = skipBlank s := by
  induction w with
  | nil => rfl
  | cons b w ih =>
    rw [List.cons_append, skipBlank, if_pos (hw b List.mem_cons_self),
      ih fun c hc => hw c (List.mem_cons_of_mem _ hc)]

theorem skipBlank_ink {b : UInt8} (s : Bytes) (hb : isBlank b = false) :
    skipBlank (b :: s) = b :: s := by
  rw [skipBlank, if_neg (by simp [hb])]

/-- A byte that is no blank is found behind the blanks. -/
theorem skipBlank_blanks_ink {w : Bytes} (hw : Blanks w) {b : UInt8} (s : Bytes)
    (hb : isBlank b = false) : skipBlank (w ++ b :: s) = b :: s := by
  rw [skipBlank_blanks hw, skipBlank_ink s hb]

/-! ## Strings -/

/-- The bytes of a character that needs no escape have no meaning of their own in a string. -/
theorem plain_utf8EncodeChar {c : Char} (hquote : c ≠ '"') (hslash : c ≠ '\\')
    (hcontrol : 32 ≤ c.toNat) {b : UInt8} (hb : b ∈ String.utf8EncodeChar c) :
    b ≠ byte '"' ∧ b ≠ byte '\\' ∧ ¬ b < 32 := by
  rcases Nat.lt_or_ge c.toNat 128 with hascii | hascii
  · rw [utf8EncodeChar_ascii hascii, List.mem_singleton] at hb
    subst hb
    have hne : ∀ d : Char, d.toNat < 128 → c ≠ d → UInt8.ofNat c.toNat ≠ byte d := by
      intro d hd hcd heq
      have := congrArg UInt8.toNat heq
      rw [toNat_ofNat (by omega), toNat_ofNat (by omega)] at this
      exact hcd (Char.toNat_inj.mp this)
    refine ⟨hne _ (by decide) hquote, hne _ (by decide) hslash, ?_⟩
    rw [UInt8.lt_iff_toNat_lt, toNat_ofNat (by omega)]
    exact Nat.not_lt.mpr hcontrol
  · have hbig := le_of_mem_utf8EncodeChar hascii hb
    have hne : ∀ d : Char, d.toNat < 128 → b ≠ byte d := by
      rintro d hd rfl
      rw [toNat_ofNat (by omega)] at hbig
      omega
    refine ⟨hne _ (by decide), hne _ (by decide), ?_⟩
    rw [UInt8.lt_iff_toNat_lt, show (32 : UInt8).toNat = 32 from rfl]
    omega

/-- Such bytes are taken as they are. -/
theorem bodyOnto_plain {bs : Bytes} (h : ∀ b ∈ bs, b ≠ byte '"' ∧ b ≠ byte '\\' ∧ ¬ b < 32)
    (acc s : Bytes) : bodyOnto acc (bs ++ s) = bodyOnto (bs.reverse ++ acc) s := by
  induction bs generalizing acc with
  | nil => rfl
  | cons b bs ih =>
    obtain ⟨hquote, hslash, hcontrol⟩ := h b List.mem_cons_self
    rw [List.cons_append, bodyOnto, if_neg hquote, if_neg hslash, if_neg hcontrol,
      ih fun c hc => h c (List.mem_cons_of_mem _ hc), List.reverse_cons, List.append_assoc]
    rfl

/-- An escape stands for the bytes of its character. -/
theorem bodyOnto_escape {s r : Bytes} {c : Char} (h : escaped s = .ok (c, r)) (acc : Bytes) :
    bodyOnto acc (byte '\\' :: s) = bodyOnto ((String.utf8EncodeChar c).reverse ++ acc) r := by
  rw [bodyOnto, if_neg (by decide), if_pos rfl]
  split
  · next h' =>
    rw [h, Except.ok.injEq, Prod.mk.injEq] at h'
    obtain ⟨rfl, rfl⟩ := h'
    rfl
  · next h' => simp [h] at h'

theorem escaped_letter {l c : Char} (h : (l, c) ∈ letterEscapes) (s : Bytes) :
    escaped (byte l :: s) = .ok (c, s) := by
  simp only [letterEscapes, List.mem_cons, List.not_mem_nil, or_false, Prod.mk.injEq] at h
  rcases h with ⟨rfl, rfl⟩ | ⟨rfl, rfl⟩ | ⟨rfl, rfl⟩ | ⟨rfl, rfl⟩ | ⟨rfl, rfl⟩ | ⟨rfl, rfl⟩
    | ⟨rfl, rfl⟩ | ⟨rfl, rfl⟩ <;> rfl

/-- No number is the first and the second unit of a pair. -/
theorem not_isTrailing {n : Nat} (h : isLeading n = true) : isTrailing n = false := by
  simp only [isLeading, isTrailing, Bool.and_eq_true, decide_eq_true_eq, Bool.and_eq_false_iff,
    decide_eq_false_iff_not] at h ⊢
  omega

/-- What stands for a character is read as its bytes. -/
theorem CharSpelling.bodyOnto {c : Char} {s : Bytes} (h : CharSpelling c s) (acc r : Bytes) :
    bodyOnto acc (s ++ r) = Json.bodyOnto ((String.utf8EncodeChar c).reverse ++ acc) r := by
  cases h with
  | plain hquote hslash hcontrol =>
    exact bodyOnto_plain (fun b hb => plain_utf8EncodeChar hquote hslash hcontrol hb) acc r
  | letter h => exact bodyOnto_escape (escaped_letter h r) acc
  | unit hn hleading htrailing =>
    refine bodyOnto_escape ?_ acc
    show numbered _ = _
    simp [numbered, hexUnit, hn, hleading, htrailing, bind, Except.bind]
  | pair hn hm hleading htrailing =>
    refine bodyOnto_escape ?_ acc
    show numbered _ = _
    have hplace : isTrailing _ = false := not_isTrailing hleading
    simp [numbered, hexUnit, withinEscape, hn, hm, hleading, htrailing, hplace, bind, Except.bind]

/-- So is what stands for several characters, up to the closing quote. -/
theorem TextSpelling.bodyOnto {cs : List Char} {s : Bytes} (h : TextSpelling cs s)
    (acc r : Bytes) : bodyOnto acc (s ++ byte '"' :: r) = .ok (acc.reverse ++ encode cs, r) := by
  induction h generalizing acc with
  | nil =>
    rw [List.nil_append, Json.bodyOnto, if_pos rfl, encode_nil, List.append_nil]
  | cons hc _ ih =>
    rw [List.append_assoc, hc.bodyOnto, ih, List.reverse_append, List.reverse_reverse,
      List.append_assoc]
    rfl

/-- **Strings.**  Whatever escapes it is spelt with, a string is read back. -/
theorem text_reads {t : String} {s : Bytes} (h : TextSpelling t.toList s) (r : Bytes) :
    text (s ++ byte '"' :: r) = .ok (t, r) := by
  rw [text, h.bodyOnto]
  simp [decode_encode, bind, Except.bind]

/-! ## Integers -/

/-- What may follow a number: nothing that would go on with it. -/
def Stops : Bytes → Prop
  | [] => True
  | b :: _ => isDigit b = false ∧ b ≠ byte '.' ∧ b ≠ byte 'e' ∧ b ≠ byte 'E'

/-- No digit follows. -/
theorem Stops.startsWithDigit {r : Bytes} (h : Stops r) : startsWithDigit r = false := by
  cases r with
  | nil => rfl
  | cons b r => exact h.1

/-- The byte of a digit. -/
theorem byte_of_isDigit {c : Char} (h : Decimal.isDigit c = true) :
    c.toNat < 128 ∧ isDigit (byte c) = true ∧ (byte c).toNat - 48 = digitValue c := by
  simp only [Decimal.isDigit, Bool.and_eq_true, decide_eq_true_eq] at h
  have hnat : (byte c).toNat = c.toNat := toNat_ofNat (by omega)
  refine ⟨by omega, ?_, by rw [hnat, digitValue]⟩
  simp only [isDigit, Bool.and_eq_true, decide_eq_true_eq, UInt8.le_iff_toNat_le, hnat]
  exact h

/-- Digits are taken up to the last as long as their number fits. -/
theorem significandFrom_digits {ds : List Char} (hds : ∀ c ∈ ds, Decimal.isDigit c = true)
    {value : Nat} (count : Nat) (hmax : valueFrom value ds ≤ maxSignificand) {r : Bytes}
    (hr : startsWithDigit r = false) :
    significandFrom value count (encode ds ++ r) = (valueFrom value ds, count + ds.length, r) := by
  induction ds generalizing value count with
  | nil =>
    cases r with
    | nil => rfl
    | cons b r =>
      rw [encode_nil, List.nil_append, significandFrom, if_neg (by simpa [startsWithDigit] using hr)]
      rfl
  | cons c ds ih =>
    obtain ⟨hascii, hdigit, hvalue⟩ := byte_of_isDigit (hds c List.mem_cons_self)
    have hnext : value * 10 + digitValue c ≤ maxSignificand :=
      le_trans (le_valueFrom _ ds) hmax
    rw [encode_cons_ascii ds hascii, List.cons_append, significandFrom, if_pos hdigit, hvalue,
      if_pos hnext, ih (fun d hd => hds d (List.mem_cons_of_mem _ hd)) (count + 1) hmax,
      List.length_cons, Nat.add_assoc, Nat.add_comm 1]
    rfl

/-- A whole number is over where it stops. -/
theorem afterSignificand_stops (negative : Bool) (n : Nat) {r : Bytes} (hr : Stops r) :
    afterSignificand negative n r = .ok (wholeNumber negative n, r) := by
  cases r with
  | nil => rfl
  | cons b r =>
    obtain ⟨-, hpoint, he, hE⟩ := hr
    have hover : (decide (b = byte '.') || decide (b = byte 'e') || decide (b = byte 'E')) = false := by
      rw [decide_eq_false hpoint, decide_eq_false he, decide_eq_false hE]
      rfl
    rw [afterSignificand, hover]
    rfl

/-- The digits of a number that fits are read as that number. -/
theorem number_digits (negative : Bool) {n : Nat} (hn : n ≤ maxSignificand) {r : Bytes}
    (hr : Stops r) :
    number negative (encode (digits n) ++ r) = .ok (wholeNumber negative n, r) := by
  obtain ⟨c, cs, heq, hzero⟩ := exists_digits_eq_cons n
  have hds : ∀ d ∈ c :: cs, Decimal.isDigit d = true := fun d hd =>
    isDigit_of_mem_digits (heq ▸ hd)
  obtain ⟨hascii, hdigit, -⟩ := byte_of_isDigit (hds c List.mem_cons_self)
  have hvalue : valueFrom 0 (c :: cs) = n := by rw [← heq]; exact value_digits n
  have hsig := significandFrom_digits hds 0 (hvalue.symm ▸ hn) hr.startsWithDigit
  rw [encode_cons_ascii cs hascii, List.cons_append] at hsig
  rw [heq, encode_cons_ascii cs hascii, List.cons_append, number]
  split
  · next hbyte =>
    have hc : c = '0' := by
      have := congrArg UInt8.toNat hbyte
      rw [toNat_ofNat (by omega), toNat_ofNat (by decide)] at this
      exact Char.toNat_inj.mp this
    obtain ⟨rfl, rfl⟩ := hzero hc
    rw [encode_nil, List.nil_append, hr.startsWithDigit]
    exact afterSignificand_stops negative 0 hr
  · rw [hsig, hvalue]
    simp only [hr.startsWithDigit]
    exact afterSignificand_stops negative n hr

/-- A digit is no other byte. -/
theorem ne_of_isDigit {b c : UInt8} (hb : isDigit b = true) (hc : isDigit c = false) : b ≠ c := by
  rintro rfl
  simp [hc] at hb

/-- A significand with a sign is the negative number, down to what fits 64 bits. -/
theorem wholeNumber_negative {i : Int} (hlow : -9223372036854775808 ≤ i) (hneg : i < 0) :
    wholeNumber true i.natAbs = .integer i := by
  have hwhole : ¬ (i.natAbs = 0 ∨ 0x8000000000000000 < i.natAbs) := by omega
  simp only [wholeNumber, if_true, Bool.or_eq_true, decide_eq_true_eq, hwhole, if_false]
  congr 1
  omega

/-- Without a sign it is the number itself. -/
theorem wholeNumber_natural {i : Int} (hi : 0 ≤ i) : wholeNumber false i.natAbs = .integer i := by
  simp only [wholeNumber, Bool.false_eq_true, if_false]
  congr 1
  omega

/-- **Integers.**  An integer that fits 64 bits, with or without a sign, is read back. -/
theorem scalar_integer {i : Int} (hlow : -9223372036854775808 ≤ i)
    (hhigh : i ≤ 18446744073709551615) :
    ∃ b t, encode (signed i) = b :: t ∧ (b = byte '-' ∨ isDigit b = true)
      ∧ ∀ r, Stops r → scalar b (t ++ r) = .ok (.number (.integer i), r) := by
  rcases lt_or_ge i 0 with hneg | hnonneg
  · refine ⟨byte '-', encode (digits i.natAbs), ?_, Or.inl rfl, fun r hr => ?_⟩
    · rw [signed, if_pos hneg, encode_cons_ascii _ (by decide)]
    · have hread := number_digits true (by rw [maxSignificand]; omega : i.natAbs ≤ maxSignificand) hr
      rw [scalar, if_neg (by decide), if_neg (by decide), if_neg (by decide), if_pos rfl, hread,
        wholeNumber_negative hlow hneg]
      rfl
  · obtain ⟨c, cs, heq, -⟩ := exists_digits_eq_cons i.natAbs
    obtain ⟨hascii, hdigit, -⟩ := byte_of_isDigit
      (isDigit_of_mem_digits (heq ▸ List.mem_cons_self : c ∈ digits i.natAbs))
    refine ⟨byte c, encode cs, ?_, Or.inr hdigit, fun r hr => ?_⟩
    · rw [signed, if_neg (by omega), heq, encode_cons_ascii _ hascii]
    · have hread := number_digits false (by rw [maxSignificand]; omega : i.natAbs ≤ maxSignificand) hr
      rw [heq, encode_cons_ascii _ hascii, List.cons_append] at hread
      rw [scalar, if_neg (ne_of_isDigit hdigit (by decide)), if_neg (ne_of_isDigit hdigit (by decide)),
        if_neg (ne_of_isDigit hdigit (by decide)), if_neg (ne_of_isDigit hdigit (by decide)),
        if_pos hdigit, hread, wholeNumber_natural hnonneg]
      rfl

/-! ## Values -/

/-- A scalar begins with neither a blank nor a bracket, and is read from its first byte on. -/
theorem ScalarSpelling.scalar {v : Value} {s : Bytes} (h : ScalarSpelling v s) :
    ∃ b t, s = b :: t ∧ isBlank b = false ∧ b ≠ byte '[' ∧ b ≠ byte '\x7b' ∧ b ≠ byte ']'
      ∧ ∀ r, Stops r → scalar b (t ++ r) = .ok (v, r) := by
  cases h with
  | null => exact ⟨_, _, rfl, rfl, by decide, by decide, by decide, fun r _ => rfl⟩
  | yes => exact ⟨_, _, rfl, rfl, by decide, by decide, by decide, fun r _ => rfl⟩
  | no => exact ⟨_, _, rfl, rfl, by decide, by decide, by decide, fun r _ => rfl⟩
  | integer hlow hhigh =>
    obtain ⟨b, t, heq, hb, hread⟩ := scalar_integer hlow hhigh
    have hne : ∀ c, c ≠ byte '-' → isDigit c = false → b ≠ c := by
      rintro c hc hdigit rfl
      rcases hb with hb | hb
      · exact hc hb
      · simp [hdigit] at hb
    have hblank : isBlank b = false := by
      simp only [isBlank, Bool.or_eq_false_iff, beq_eq_false_iff_ne]
      exact ⟨⟨⟨hne _ (by decide) rfl, hne _ (by decide) rfl⟩, hne _ (by decide) rfl⟩,
        hne _ (by decide) rfl⟩
    exact ⟨b, t, heq, hblank, hne _ (by decide) rfl, hne _ (by decide) rfl,
      hne _ (by decide) rfl, hread⟩
  | negativeZero =>
    refine ⟨_, _, rfl, rfl, by decide, by decide, by decide, fun r hr => ?_⟩
    have hread : number true (byte '0' :: r) = .ok (wholeNumber true 0, r) := by
      rw [number, if_pos rfl, if_neg (by simp [hr.startsWithDigit])]
      exact afterSignificand_stops true 0 hr
    rw [List.singleton_append, Json.scalar, if_neg (by decide), if_neg (by decide),
      if_neg (by decide), if_pos rfl, hread]
    rfl
  | @text t s h =>
    refine ⟨byte '"', s ++ [byte '"'], rfl, rfl, by decide, by decide, by decide, fun r _ => ?_⟩
    have hread := text_reads h r
    simp only [List.append_assoc, List.singleton_append]
    rw [Json.scalar, if_neg (by decide), if_neg (by decide), if_neg (by decide), if_neg (by decide),
      if_neg (by decide), if_pos rfl, hread]
    rfl

/-- The first byte of a value is neither a blank nor the end of a list. -/
theorem Spelling.head {depth : Nat} {v : Value} {s : Bytes} (h : Spelling depth v s) :
    ∃ b t, s = b :: t ∧ isBlank b = false ∧ b ≠ byte ']' := by
  cases h.layer with
  | scalar h =>
    obtain ⟨b, t, heq, hblank, -, -, hend, -⟩ := h.scalar
    exact ⟨b, t, heq, hblank, hend⟩
  | list h => exact ⟨_, _, rfl, rfl, by decide⟩
  | object h => exact ⟨_, _, rfl, rfl, by decide⟩

/-- A blank stops a number. -/
theorem stops_cons_of_isBlank {b : UInt8} (hb : isBlank b = true) (r : Bytes) : Stops (b :: r) := by
  simp only [isBlank, Bool.or_eq_true, beq_iff_eq] at hb
  rcases hb with ((rfl | rfl) | rfl) | rfl <;> exact ⟨rfl, by decide, by decide, by decide⟩

/-- So does the end of the text behind blanks. -/
theorem stops_of_blanks {w : Bytes} (hw : Blanks w) : Stops w := by
  cases w with
  | nil => trivial
  | cons b w => exact stops_cons_of_isBlank (hw b List.mem_cons_self) w

/-- So do the bytes of brackets and commas. -/
theorem stops_blanks {w : Bytes} (hw : Blanks w) {b : UInt8} (hb : Stops [b]) (r : Bytes) :
    Stops (w ++ b :: r) := by
  cases w with
  | nil => exact hb
  | cons c w => exact stops_cons_of_isBlank (hw c List.mem_cons_self) _

/-- After an item something comes that stops a number. -/
theorem ItemsSpelling.stops {R : Value → Bytes → Prop} {vs : List Value} {t : Bytes}
    (h : ItemsSpelling R false vs t) (r : Bytes) : Stops (t ++ r) := by
  cases h with
  | close hw =>
    rw [List.append_assoc]
    exact stops_blanks hw ⟨rfl, by decide, by decide, by decide⟩ _
  | item hsep hv hvs =>
    cases hsep with
    | comma hw hw' =>
      rw [List.append_assoc, List.append_assoc]
      exact stops_blanks hw ⟨rfl, by decide, by decide, by decide⟩ _

/-- So it does after a member. -/
theorem MembersSpelling.stops {R : Value → Bytes → Prop} {ms : List (String × Value)} {t : Bytes}
    (h : MembersSpelling R false ms t) (r : Bytes) : Stops (t ++ r) := by
  cases h with
  | close hw =>
    rw [List.append_assoc]
    exact stops_blanks hw ⟨rfl, by decide, by decide, by decide⟩ _
  | member hsep hkey hw hw' hv hms =>
    cases hsep with
    | comma hw hw' =>
      rw [List.append_assoc, List.append_assoc]
      exact stops_blanks hw ⟨rfl, by decide, by decide, by decide⟩ _

/-! ### The steps between items and members -/

/-- The closing bracket of a list is found behind blanks. -/
theorem nextItem_close (first : Bool) {w : Bytes} (hw : Blanks w) (r : Bytes) :
    nextItem first (w ++ byte ']' :: r) = .ok (.close r) := by
  rw [nextItem, skipBlank_blanks_ink hw r rfl]
  rfl

/-- Behind a separator the next item begins. -/
theorem nextItem_more {first : Bool} {sep : Bytes} (hsep : Separator first sep) {b : UInt8}
    (hblank : isBlank b = false) (hend : b ≠ byte ']') (r : Bytes) :
    nextItem first (sep ++ b :: r) = .ok (.more (b :: r)) := by
  cases hsep with
  | start hw =>
    rw [nextItem, skipBlank_blanks_ink hw r hblank]
    simp only [if_neg hend]
    rfl
  | comma hw hw' =>
    rw [List.append_assoc, List.cons_append, nextItem, skipBlank_blanks_ink hw _ rfl]
    simp only [skipBlank_blanks_ink hw' r hblank, if_neg hend]
    rfl

/-- The closing bracket of an object is found behind blanks. -/
theorem nextKey_close (first : Bool) {w : Bytes} (hw : Blanks w) (r : Bytes) :
    nextKey first (w ++ byte '\x7d' :: r) = .ok (.close r) := by
  rw [nextKey, skipBlank_blanks_ink hw r rfl]
  rfl

/-- Behind a separator and a quote the next key begins. -/
theorem nextKey_more {first : Bool} {sep : Bytes} (hsep : Separator first sep) (r : Bytes) :
    nextKey first (sep ++ byte '"' :: r) = .ok (.more r) := by
  cases hsep with
  | start hw =>
    rw [nextKey, skipBlank_blanks_ink hw r rfl]
    rfl
  | comma hw hw' =>
    have hquote : isBlank (byte '"') = false := rfl
    rw [List.append_assoc, List.cons_append, nextKey, skipBlank_blanks_ink hw _ rfl]
    simp only [skipBlank_blanks_ink hw' r hquote]
    rfl

/-- The colon is found behind blanks. -/
theorem colon_blanks {w : Bytes} (hw : Blanks w) (r : Bytes) :
    colon (w ++ byte ':' :: r) = .ok r := by
  rw [colon, skipBlank_blanks_ink hw r rfl]
  rfl

/-! ### Lists and objects -/

/-- Spellings that begin as a value does and are read back within a depth, given two units of fuel
for each byte. -/
structure ReadBack (depth : Nat) (R : Value → Bytes → Prop) : Prop where
  head : ∀ {v s}, R v s → ∃ b t, s = b :: t ∧ isBlank b = false ∧ b ≠ byte ']'
  value : ∀ {v s}, R v s → ∀ (fuel : Nat) {w r}, 2 * s.length ≤ fuel → Blanks w → Stops r →
    valueWithin fuel depth (w ++ (s ++ r)) = .ok (v, r)

section Brackets

variable {depth : Nat} {R : Value → Bytes → Prop}

/-- The items of a list are read back behind those that were read before. -/
theorem ReadBack.items (hR : ReadBack depth R) {first : Bool} {vs : List Value} {s : Bytes}
    (h : ItemsSpelling R first vs s) (fuel : Nat) (hfuel : 2 * s.length + 1 ≤ fuel)
    (acc : List Value) (r : Bytes) :
    itemsWithin fuel depth first acc (s ++ r) = .ok (acc.reverse ++ vs, r) := by
  induction h generalizing fuel acc with
  | close hw =>
    obtain ⟨fuel, rfl⟩ := Nat.exists_eq_add_of_lt hfuel
    rw [itemsWithin, List.append_assoc, List.singleton_append, nextItem_close _ hw]
    simp
  | @item first v vs sep s t hsep hv hvs ih =>
    obtain ⟨b, s', rfl, hblank, hend⟩ := hR.head hv
    simp only [List.length_append, List.length_cons] at hfuel
    obtain ⟨fuel, rfl⟩ : ∃ n, fuel = n + 1 := ⟨fuel - 1, by omega⟩
    have hvalue := hR.value hv fuel (by rw [List.length_cons]; omega) blanks_nil
      (hvs.stops r)
    simp only [List.nil_append, List.cons_append] at hvalue
    rw [itemsWithin, List.append_assoc, List.append_assoc, List.cons_append,
      nextItem_more hsep hblank hend]
    simp only [hvalue, ih fuel (by omega)]
    simp

/-- The members of an object are read back behind those that were read before. -/
theorem ReadBack.members (hR : ReadBack depth R) {first : Bool} {ms : List (String × Value)}
    {s : Bytes} (h : MembersSpelling R first ms s) (fuel : Nat) (hfuel : 2 * s.length + 1 ≤ fuel)
    (acc : List (String × Value)) (r : Bytes) :
    membersWithin fuel depth first acc (s ++ r) = .ok (acc.reverse ++ ms, r) := by
  induction h generalizing fuel acc with
  | close hw =>
    obtain ⟨fuel, rfl⟩ := Nat.exists_eq_add_of_lt hfuel
    rw [membersWithin, List.append_assoc, List.singleton_append, nextKey_close _ hw]
    simp
  | @member first k v ms sep key w w' s t hsep hkey hw hw' hv hms ih =>
    simp only [List.length_append, List.length_cons] at hfuel
    obtain ⟨fuel, rfl⟩ : ∃ n, fuel = n + 1 := ⟨fuel - 1, by omega⟩
    have hvalue := hR.value hv fuel (by omega) hw' (hms.stops r)
    simp only [List.append_assoc, List.cons_append]
    rw [membersWithin, nextKey_more hsep]
    simp only [text_reads hkey, colon_blanks hw, hvalue, ih fuel (by omega)]
    simp

end Brackets

/-- **Values.**  Every spelling of a value is read as that value, within any depth that is enough for
it. -/
theorem value_reads {depth limit : Nat} (hlimit : depth ≤ limit) :
    ReadBack limit (Spelling depth) := by
  have scalar : ∀ {limit v s}, ScalarSpelling v s → ∀ (fuel : Nat) {w r}, 2 * s.length ≤ fuel →
      Blanks w → Stops r → valueWithin fuel limit (w ++ (s ++ r)) = .ok (v, r) := by
    intro limit v s h fuel w r hfuel hw hr
    obtain ⟨b, t, rfl, hblank, hlist, hobject, -, hread⟩ := h.scalar
    rw [List.length_cons] at hfuel
    obtain ⟨fuel, rfl⟩ : ∃ n, fuel = n + 1 := ⟨fuel - 1, by omega⟩
    rw [valueWithin, List.cons_append, skipBlank_blanks_ink hw _ hblank]
    simp only [if_neg hlist, if_neg hobject, hread r hr]
  induction depth generalizing limit with
  | zero => exact ⟨fun h => Spelling.head (show Spelling 0 _ _ from h), scalar⟩
  | succ depth ih =>
    obtain ⟨limit, rfl⟩ : ∃ n, limit = n + 1 := ⟨limit - 1, by omega⟩
    have hinner := ih (by omega : depth ≤ limit)
    refine ⟨fun h => Spelling.head (show Spelling (depth + 1) _ _ from h),
      fun {v s} h fuel w r hfuel hw hr => ?_⟩
    cases h with
    | scalar h => exact scalar h fuel hfuel hw hr
    | list h =>
      rw [List.length_cons] at hfuel
      obtain ⟨fuel, rfl⟩ : ∃ n, fuel = n + 1 := ⟨fuel - 1, by omega⟩
      rw [valueWithin, List.cons_append, skipBlank_blanks_ink hw _ rfl]
      simp [hinner.items h fuel (by omega), bind, Except.bind]
    | object h =>
      rw [List.length_cons] at hfuel
      obtain ⟨fuel, rfl⟩ : ∃ n, fuel = n + 1 := ⟨fuel - 1, by omega⟩
      rw [valueWithin, List.cons_append, skipBlank_blanks_ink hw _ rfl]
      simp [hinner.members h fuel (by omega), bind, Except.bind]

end HoldToRecord.Json
