import Mathlib.Tactic
import HoldToRecord.Json.Format
import HoldToRecord.Proofs.Decimal.Lengths
import HoldToRecord.Proofs.Json.Reading

/-!
# How long messages about faults are

A message names what was found, and a text that was found is quoted in it. So the message can be
longer than the text that it is about, but by no more than a factor: `Fault.Within n` bounds it for
a fault in `n` bytes, with seven bytes for each of those, or by a constant that covers all messages
without a text in them. The reader of a union of tags keeps within it (`UnionFormat.read_yields`),
and `escapedSize_message_le` adds the place.
-/

namespace HoldToRecord.Json

open HoldToRecord.Text.Utf8 HoldToRecord.Decimal

/-! ## Wordings -/

/-- How many bytes a text takes within a JSON string. -/
def textSize (s : String) : Nat := escapedSize s.toList

/-- Texts take their places one after the other. -/
@[simp] theorem textSize_append (s t : String) : textSize (s ++ t) = textSize s + textSize t := by
  rw [textSize, String.toList_append, escapedSize_append]
  rfl

@[simp] theorem textSize_ofList (cs : List Char) :
    textSize (String.ofList cs) = escapedSize cs := by
  rw [textSize, String.toList_ofList]

/-- Digits take one byte each. -/
theorem textSize_digits (n : Nat) :
    textSize (String.ofList (digits n)) = (digits n).length := by
  rw [textSize_ofList (digits n)]
  exact escapedSize_of_isDigit fun _ => isDigit_of_mem_digits

/-- Every message on a malformed text is short. -/
theorem textSize_malformed_le (m : Malformed) : textSize m.message ≤ 100 := by
  cases m <;> decide

/-- What was found is short, or it is a text with its closing quote in `n` bytes. -/
theorem textSize_describe_le {n : Nat} {found : Found} (h : found.Fits n) :
    textSize found.describe ≤ max 9000 (7 * n + 4) := by
  match found, h with
  | .null, _ => exact le_max_of_le_left (by decide)
  | .boolean true, _ => exact le_max_of_le_left (by decide)
  | .boolean false, _ => exact le_max_of_le_left (by decide)
  | .number (.integer i), h =>
    have hdigits : (signed i).length ≤ 21 :=
      length_signed_le (by decide) (lt_of_le_of_lt h (by decide))
    have hsize := escapedSize_le_length (signed i)
    have hfront : textSize "integer `" = 9 := by decide
    have hback : textSize "`" = 1 := by decide
    show textSize ("integer `" ++ String.ofList (signed i) ++ "`") ≤ _
    simp only [textSize_append, textSize_ofList]
    omega
  | .number (.float bits), _ =>
    have hlength : (floatLayout.writeBits bits).length ≤ 1464 :=
      length_writeBits_le (by decide) (by decide) bits
    have hsize := escapedSize_le_length (floatLayout.writeBits bits)
    have hfront : textSize "floating point `" = 16 := by decide
    have hback : textSize "`" = 1 := by decide
    show textSize ("floating point `" ++ String.ofList (floatLayout.writeBits bits) ++ "`") ≤ _
    simp only [textSize_append, textSize_ofList]
    omega
  | .text t, h =>
    have hfits : (encode t.toList).length + 1 ≤ n := h
    have hquote : textSize (Text.Quoted.quote t) ≤ _ := escapedSize_quote_le t
    have hfront : textSize "string " = 7 := by decide
    show textSize ("string " ++ Text.Quoted.quote t) ≤ _
    simp only [textSize_append]
    omega
  | .list, _ => exact le_max_of_le_left (by decide)
  | .object, _ => exact le_max_of_le_left (by decide)

/-! ## Faults -/

/-- The message on a fault in `n` bytes, without its place: seven bytes for each of these and some
for the wording around them, or few. -/
def Fault.Within (n : Nat) (f : Fault) : Prop :=
  textSize f.cause.message ≤ max 9500 (7 * n + 52)

/-- A fault in fewer bytes is one in more. -/
theorem Fault.Within.mono {n m : Nat} {f : Fault} (h : f.Within n) (hnm : n ≤ m) : f.Within m :=
  le_trans h (max_le_max_left _ (by omega))

/-- A malformed text is never quoted. -/
theorem Fault.IsMalformed.within {f : Fault} (h : f.IsMalformed) (n : Nat) : f.Within n := by
  obtain ⟨m, hm⟩ := h
  have hshort : textSize f.cause.message ≤ 100 := by
    rw [hm]
    exact textSize_malformed_le m
  unfold Fault.Within
  omega

/-- A message that names what was found and what was wanted. -/
theorem textSize_wrongType_le {n : Nat} {found : Found} (h : found.Fits n) {wanted : String}
    (hwanted : textSize wanted ≤ 30) :
    textSize (Mismatch.wrongType found wanted).message ≤ max 9500 (7 * (n + 1) + 52) := by
  have hdescribe := textSize_describe_le h
  have hfront : textSize "invalid type: " = 14 := by decide
  have hmiddle : textSize ", expected " = 11 := by decide
  show textSize ("invalid type: " ++ found.describe ++ ", expected " ++ wanted) ≤ _
  simp only [textSize_append]
  omega

/-- Text that is not what is wanted is named with a message within bounds. -/
theorem unwanted_within {wanted : String} (hwanted : textSize wanted ≤ 30) (b : UInt8)
    (s : Bytes) : (unwanted wanted b s).Within (b :: s).length := by
  have hlist : Found.list.Fits s.length := trivial
  have hobject : Found.object.Fits s.length := trivial
  unfold unwanted
  split_ifs
  · exact textSize_wrongType_le hlist hwanted
  · exact textSize_wrongType_le hobject hwanted
  · have hscalar := scalar_yields b s
    split
    · next f hf => exact (hscalar.of_error hf).within _
    · next v rest hv => exact textSize_wrongType_le (hscalar.of_ok hv).1 hwanted

/-- A string that is checked; `hcheck` bounds the message when it does not pass. -/
theorem readTextWith_yields {α : Type} {P : α → Prop} {wanted : String}
    {check : String → Except Mismatch α} (hwanted : textSize wanted ≤ 30)
    (hok : ∀ t a, check t = .ok a → P a)
    (hcheck : ∀ t m, check t = .error m →
      textSize m.message ≤ 6 * (encode t.toList).length + 100) (s : Bytes) :
    Yields (fun p => P p.1 ∧ p.2.length ≤ s.length) (Fault.Within s.length)
      (readTextWith wanted check s) := by
  unfold readTextWith
  split
  · exact (Fault.isMalformed_onNext ..).within _
  · next b r hr =>
    have hlength := length_of_skipBlank hr
    split
    · have htext := text_yields r
      split
      · next f hf => exact (htext.of_error hf).within _
      · next t rest ht =>
        have hfits := htext.of_ok ht
        dsimp only at hfits
        split
        · next a ha => exact ⟨hok t a ha, by dsimp only; omega⟩
        · next m hm =>
          have := hcheck t m hm
          show textSize m.message ≤ _
          omega
    · exact (unwanted_within hwanted b r).mono hlength

/-! ## Unions of tags -/

namespace UnionFormat

variable {α : Type} {u : UnionFormat α}

/-- A union whose variants have no fields, and whose title and names are short. -/
structure IsPlain (u : UnionFormat α) : Prop where
  unit : ∀ v ∈ u.variants, ∃ a, v = .unit v.name a
  title_le : textSize u.title ≤ 30
  names_le : textSize (choice (u.variants.map (·.name))) ≤ 60

/-- The variant of a name is one of the union's. -/
theorem mem_of_variant {name : String} {v : Variant α} (h : u.variant name = .ok v) :
    v ∈ u.variants := by
  unfold variant oneOf at h
  split at h
  · next w hw =>
    obtain rfl := Except.ok.inj h
    obtain ⟨front, back, heq, -⟩ := List.lookup_eq_some_iff.mp hw
    have hmem : (name, w) ∈ u.variants.map fun v => (v.name, v) := by simp [heq]
    obtain ⟨v, hv, hpair⟩ := List.mem_map.mp hmem
    rwa [← (Prod.mk.inj hpair).2]
  · simp at h

/-- A name that is none of the union's is repeated in the message, but not quoted. -/
theorem IsPlain.variant_error_le (hu : u.IsPlain) {name : String} {m : Mismatch}
    (h : u.variant name = .error m) :
    textSize m.message ≤ 6 * (encode name.toList).length + 100 := by
  unfold variant oneOf at h
  split at h
  · simp at h
  · obtain rfl := (Except.error.inj h).symm
    have hname : textSize name ≤ 6 * (encode name.toList).length :=
      le_trans (escapedSize_le_length _) (Nat.mul_le_mul_left 6 (length_le_length_encode _))
    have hnames := hu.names_le
    have hfront : textSize "unknown variant `" = 17 := by decide
    have hmiddle : textSize "`, expected " = 12 := by decide
    rw [List.map_map]
    show textSize ("unknown variant `" ++ name ++ "`, expected "
      ++ choice (u.variants.map (·.name))) ≤ _
    simp only [textSize_append]
    omega

/-- The tag in a text. -/
theorem IsPlain.readTag_yields (hu : u.IsPlain) (s : Bytes) :
    Yields (fun p => p.1 ∈ u.variants ∧ p.2.length ≤ s.length) (Fault.Within s.length)
      (u.readTag s) :=
  readTextWith_yields (by decide) (fun _ _ => mem_of_variant) (fun _ _ => hu.variant_error_le) s

/-- A fault that only names the tag's key. -/
theorem within_of_key {m : Mismatch} (h : m = .missingField tagKey ∨ m = .duplicateField tagKey)
    (rest : Bytes) (n : Nat) : (Fault.mismatch m rest).Within n := by
  have hshort : textSize m.message ≤ 100 := by
    rcases h with rfl | rfl <;> decide
  exact le_max_of_le_left (le_trans hshort (by decide))

/-- The members of an object and the tag among them, by induction on the fuel. -/
theorem IsPlain.readMembers_yields (hu : u.IsPlain) (fuel : Nat) (first : Bool)
    (tag : Option (Variant α)) (htag : ∀ v ∈ tag, v ∈ u.variants) (acc : List (String × Value))
    (s : Bytes) :
    Yields (fun p => p.1.1 ∈ u.variants) (Fault.Within s.length)
      (u.readMembers fuel first tag acc s) := by
  induction fuel generalizing first tag acc s with
  | zero => exact (Fault.isMalformed_here ..).within _
  | succ fuel ih =>
    rw [readMembers]
    have hnext := nextKey_yields first s
    split
    · next f hf => exact (hnext.of_error hf).within _
    · next r hr =>
      split
      · exact within_of_key (Or.inl rfl) ..
      · next v => exact htag v rfl
    · next r hr =>
      have hlength : r.length < s.length := hnext.of_ok hr
      have hkey := text_yields r
      split
      · next f hf => exact (hkey.of_error hf).within _
      · next key t ht =>
        have hrest := hkey.of_ok ht
        have hcolon := colon_yields t
        dsimp only at hrest
        split_ifs
        · exact within_of_key (Or.inr rfl) ..
        · split
          · next f hf => exact (hcolon.of_error hf).within _
          · next w hw =>
            have hw : w.length < t.length := hcolon.of_ok hw
            have hread := hu.readTag_yields w
            split
            · next f hf => exact (hread.of_error hf).mono (by omega)
            · next v x hx =>
              obtain ⟨hv, hx⟩ := hread.of_ok hx
              refine (ih false (some v) ?_ acc x).mono (fun _ => id) fun f hf =>
                hf.mono (by dsimp only at hx; omega)
              rintro _ ⟨⟩
              exact hv
        · split
          · next f hf => exact (hcolon.of_error hf).within _
          · next w hw =>
            have hw : w.length < t.length := hcolon.of_ok hw
            have hread := (within_yields fuel).1 (depthLimit - 1) w
            split
            · next f hf => exact (hread.of_error hf).within _
            · next v x hx =>
              have hx : x.length ≤ w.length := hread.of_ok hx
              exact (ih false tag htag _ x).mono (fun _ => id) fun f hf => hf.mono (by omega)

/-- The tag at the head of a list and the items after it; they are not many more than the bytes. -/
theorem IsPlain.readItems_yields (hu : u.IsPlain) (s : Bytes) :
    Yields (fun p => p.1.1 ∈ u.variants ∧ p.1.2.length ≤ 2 * s.length + 2)
      (Fault.Within s.length) (u.readItems s) := by
  unfold readItems
  have hnext := nextItem_yields true s
  split
  · next f hf => exact (hnext.of_error hf).within _
  · exact within_of_key (Or.inl rfl) ..
  · next r hr =>
    have hlength : r.length ≤ s.length := hnext.of_ok hr
    have hread := hu.readTag_yields r
    split
    · next f hf => exact (hread.of_error hf).mono hlength
    · next v t ht =>
      obtain ⟨hv, ht⟩ := hread.of_ok ht
      have hitems := (within_yields (fuelFor t)).2.1 (depthLimit - 1) false [] t
      split
      · next f hf => exact (hitems.of_error hf).within _
      · next items x hx =>
        -- every item was read with fuel, and there is twice as much of it as bytes
        have hcount := (hitems.of_ok hx).1
        refine ⟨hv, ?_⟩
        simp only [List.length_nil, fuelFor] at hcount ht ⊢
        omega

/-- A variant without fields complains of nothing but items. -/
theorem IsPlain.finish_yields (hu : u.IsPlain) {v : Variant α} (hv : v ∈ u.variants) {body : Body}
    {n : Nat} (hbody : ∀ items, body = .items items → items.length ≤ 2 * n + 2) (s : Bytes) :
    Yields (fun _ => True) (Fault.Within n) (finish v body s) := by
  obtain ⟨a, ha⟩ := hu.unit v hv
  rw [ha]
  unfold finish
  split
  · trivial
  · next m hm =>
    -- a unit takes any members, and an empty list of items
    match body, hm with
    | .items (item :: items), hm =>
      obtain rfl := (Except.error.inj hm).symm
      have hdigits := length_digits_le_succ (item :: items).length
      have hcount := hbody _ rfl
      have hfront : textSize "invalid length " = 15 := by decide
      have hback : textSize ", expected " = 11 := by decide
      have hwanted : textSize "0 elements in sequence" = 22 := by decide
      show textSize ("invalid length " ++ String.ofList (digits (item :: items).length)
        ++ ", expected " ++ "0 elements in sequence") ≤ _
      simp only [textSize_append, textSize_digits]
      omega

/-- **Unions of tags.**  Every fault of the reader is within the bytes that it was given. -/
theorem IsPlain.read_yields (hu : u.IsPlain) (s : Bytes) :
    Yields (fun _ => True) (Fault.Within s.length) (u.read s) := by
  unfold read
  split
  · exact (Fault.isMalformed_onNext ..).within _
  · next b r hr =>
    have hlength := length_of_skipBlank hr
    split_ifs
    · have hitems := hu.readItems_yields r
      split
      · next f hf => exact (hitems.of_error hf).mono (Nat.le_of_lt hlength)
      · next v items x hx =>
        obtain ⟨hv, hcount⟩ := hitems.of_ok hx
        refine hu.finish_yields hv ?_ x
        rintro _ ⟨⟩
        dsimp only at hcount
        omega
    · have hmembers := hu.readMembers_yields (fuelFor r) true none (by simp) [] r
      split
      · next f hf => exact (hmembers.of_error hf).mono (Nat.le_of_lt hlength)
      · next v members x hx =>
        exact hu.finish_yields (hmembers.of_ok hx) (fun _ h => by simp at h) x
    · exact (unwanted_within hu.title_le b r).mono hlength

end UnionFormat

/-! ## Places -/

/-- One more byte starts a line or adds a column. -/
theorem Place.after_concat (bytes : Bytes) (b : UInt8) :
    Place.after (bytes ++ [b])
      = if b = 10 then ⟨(Place.after bytes).line + 1, 0⟩
        else ⟨(Place.after bytes).line, (Place.after bytes).column + 1⟩ := by
  rw [Place.after, List.foldl_append]
  rfl

/-- Lines and columns are no more than the bytes before a place. -/
theorem Place.after_bound (bytes : Bytes) :
    (Place.after bytes).line + (Place.after bytes).column ≤ bytes.length + 1 := by
  induction bytes using List.reverseRecOn with
  | nil => exact Nat.le_refl 1
  | append_singleton bytes b ih =>
    rw [Place.after_concat, List.length_append, List.length_singleton]
    split <;> dsimp only <;> omega

/-- Without a line feed all bytes stand on one line. -/
theorem Place.after_of_one_line {bytes : Bytes} (h : ∀ b ∈ bytes, b ≠ 10) :
    Place.after bytes = ⟨1, bytes.length⟩ := by
  induction bytes using List.reverseRecOn with
  | nil => rfl
  | append_singleton bytes b ih =>
    rw [Place.after_concat, if_neg (h b (by simp)), ih fun c hc => h c (List.mem_append_left _ hc),
      List.length_append, List.length_singleton]

/-- **Messages.**  A fault's place adds two numbers, one of which is small. -/
theorem Fault.Within.textSize_message_le {text : Bytes} {f : Fault} (hf : f.Within text.length)
    {k : Nat} (hk : 0 < k) (htext : text.length + 1 < 2 * 10 ^ k) :
    textSize (f.locate text).message ≤ max 9500 (7 * text.length + 52) + 17 + (2 * k + 1) := by
  have hcause : textSize f.cause.message ≤ max 9500 (7 * text.length + 52) := hf
  obtain ⟨cause, left⟩ := f
  cases left with
  | none => exact le_trans hcause (by omega)
  | some left =>
    obtain ⟨place, hplace⟩ : ∃ place,
        Place.after (text.take (text.length - left)) = place := ⟨_, rfl⟩
    have hbound := Place.after_bound (text.take (text.length - left))
    rw [hplace, List.length_take] at hbound
    -- a late line leaves little for the column
    have hdigits := length_digits_add_le hk (a := place.line) (b := place.column) (by omega)
    have hfront : textSize " at line " = 9 := by decide
    have hmiddle : textSize " column " = 8 := by decide
    show textSize (cause.message ++ " at line "
      ++ String.ofList (digits (Place.after (text.take (text.length - left))).line) ++ " column "
      ++ String.ofList (digits (Place.after (text.take (text.length - left))).column)) ≤ _
    rw [hplace]
    simp only [textSize_append, textSize_digits]
    dsimp only at hcause
    omega

/-- The error of a whole text is a fault of its reader or of what is left. -/
theorem Yields.of_whole_error {α : Type} {read : Bytes → Except Fault (α × Bytes)} {text : Bytes}
    {P : α × Bytes → Prop} {Q : Fault → Prop} (hread : Yields P Q (read text))
    (hQ : ∀ f : Fault, f.IsMalformed → Q f) {e : Error} (h : whole read text = .error e) :
    ∃ f, Q f ∧ e = f.locate text := by
  unfold whole at h
  split at h
  · next f hf => exact ⟨f, hread.of_error hf, (Except.error.inj h).symm⟩
  · next a rest hrest =>
    split at h
    · next f hf =>
      exact ⟨f, hQ f ((finished_yields rest).of_error hf), (Except.error.inj h).symm⟩
    · simp at h

end HoldToRecord.Json
