import Mathlib.Tactic
import HoldToRecord.Json.Reader
import HoldToRecord.Proofs.Json.EscapedSize

/-!
# How JSON values are spelt

`Spelling depth v s` says that the bytes `s` are a text of the value `v`, whose lists and objects are
nested at most `depth` deep: any blanks may stand between tokens, and any legal escapes in strings;
integers are spelt in the one way without leading zeros, and a zero with a minus is the negative
zero. `IsText v s` says that of a whole text, around which blanks may stand too. What the printer
writes is one of the spellings (`spelling_toBytes`).
-/

namespace HoldToRecord

open HoldToRecord.Text.Utf8 HoldToRecord.Decimal

namespace Json

/-! ## Strings -/

/-- Blanks and nothing else. -/
def Blanks (s : Bytes) : Prop := ∀ b ∈ s, isBlank b = true

/-- The letters that stand for a character after a backslash. -/
def letterEscapes : List (Char × Char) :=
  [('"', '"'), ('\\', '\\'), ('/', '/'), ('b', '\x08'), ('f', '\x0c'), ('n', '\n'), ('r', '\r'),
    ('t', '\t')]

/-- What may stand for a character in a string: the character itself, unless it is a quote, a
backslash or a control, or an escape by letter, by number or by a pair of numbers. -/
inductive CharSpelling : Char → Bytes → Prop
  | plain {c : Char} (hquote : c ≠ '"') (hslash : c ≠ '\\') (hcontrol : 32 ≤ c.toNat) :
      CharSpelling c (String.utf8EncodeChar c)
  | letter {l c : Char} (h : (l, c) ∈ letterEscapes) : CharSpelling c [byte '\\', byte l]
  | unit {a b c d : UInt8} {n : Nat} (hn : hexUnit? a b c d = some n)
      (hleading : isLeading n = false) (htrailing : isTrailing n = false) :
      CharSpelling (Char.ofNat n) [byte '\\', byte 'u', a, b, c, d]
  | pair {a b c d a' b' c' d' : UInt8} {n m : Nat} (hn : hexUnit? a b c d = some n)
      (hm : hexUnit? a' b' c' d' = some m) (hleading : isLeading n = true)
      (htrailing : isTrailing m = true) :
      CharSpelling (Char.ofNat (0x10000 + (n - 0xD800) * 0x400 + (m - 0xDC00)))
        [byte '\\', byte 'u', a, b, c, d, byte '\\', byte 'u', a', b', c', d']

/-- What may stand for some characters between quotes. -/
inductive TextSpelling : List Char → Bytes → Prop
  | nil : TextSpelling [] []
  | cons {c : Char} {cs : List Char} {s t : Bytes} (hc : CharSpelling c s)
      (hcs : TextSpelling cs t) : TextSpelling (c :: cs) (s ++ t)

/-! ## Values -/

/-- What may stand between two items or members, or, if `first`, before the first one. -/
inductive Separator : Bool → Bytes → Prop
  | start {w : Bytes} (hw : Blanks w) : Separator true w
  | comma {w w' : Bytes} (hw : Blanks w) (hw' : Blanks w') : Separator false (w ++ byte ',' :: w')

/-- The spellings of values that are no lists or objects. -/
inductive ScalarSpelling : Value → Bytes → Prop
  | null : ScalarSpelling .null [byte 'n', byte 'u', byte 'l', byte 'l']
  | yes : ScalarSpelling (.boolean true) [byte 't', byte 'r', byte 'u', byte 'e']
  | no : ScalarSpelling (.boolean false) [byte 'f', byte 'a', byte 'l', byte 's', byte 'e']
  | integer {i : Int} (hlow : -9223372036854775808 ≤ i) (hhigh : i ≤ 18446744073709551615) :
      ScalarSpelling (.number (.integer i)) (encode (signed i))
  | negativeZero :
      ScalarSpelling (.number (.float (withSign true (Float.ofNat 0)))) [byte '-', byte '0']
  | text {t : String} {s : Bytes} (h : TextSpelling t.toList s) :
      ScalarSpelling (.text t) (byte '"' :: (s ++ [byte '"']))

/-- The rest of a list up to and with its closing bracket; its items are spelt as `R` says. -/
inductive ItemsSpelling (R : Value → Bytes → Prop) : Bool → List Value → Bytes → Prop
  | close {first : Bool} {w : Bytes} (hw : Blanks w) : ItemsSpelling R first [] (w ++ [byte ']'])
  | item {first : Bool} {v : Value} {vs : List Value} {sep s t : Bytes}
      (hsep : Separator first sep) (hv : R v s) (hvs : ItemsSpelling R false vs t) :
      ItemsSpelling R first (v :: vs) (sep ++ (s ++ t))

/-- The rest of an object up to and with its closing bracket. -/
inductive MembersSpelling (R : Value → Bytes → Prop) :
    Bool → List (String × Value) → Bytes → Prop
  | close {first : Bool} {w : Bytes} (hw : Blanks w) :
      MembersSpelling R first [] (w ++ [byte '\x7d'])
  | member {first : Bool} {k : String} {v : Value} {ms : List (String × Value)}
      {sep key w w' s t : Bytes} (hsep : Separator first sep) (hkey : TextSpelling k.toList key)
      (hw : Blanks w) (hw' : Blanks w') (hv : R v s) (hms : MembersSpelling R false ms t) :
      MembersSpelling R first ((k, v) :: ms)
        (sep ++ byte '"' :: (key ++ byte '"' :: (w ++ byte ':' :: (w' ++ (s ++ t)))))

/-- A scalar, or one level of brackets around what is spelt as `R` says. -/
inductive Layer (R : Value → Bytes → Prop) : Value → Bytes → Prop
  | scalar {v : Value} {s : Bytes} (h : ScalarSpelling v s) : Layer R v s
  | list {items : List Value} {s : Bytes} (h : ItemsSpelling R true items s) :
      Layer R (.list items) (byte '[' :: s)
  | object {members : List (String × Value)} {s : Bytes} (h : MembersSpelling R true members s) :
      Layer R (.object members) (byte '\x7b' :: s)

/-- A text of a value whose lists and objects are nested at most `depth` deep; no blanks stand before
or after it. -/
def Spelling : Nat → Value → Bytes → Prop
  | 0 => ScalarSpelling
  | depth + 1 => Layer (Spelling depth)

/-- A whole text of a value whose lists and objects are nested no deeper than is read, with blanks
before and after it. -/
inductive IsText (v : Value) : Bytes → Prop
  | mk {w s w' : Bytes} (hw : Blanks w) (hs : Spelling depthLimit v s) (hw' : Blanks w') :
      IsText v (w ++ (s ++ w'))

/-- Scalars are spelt in the same way at every depth. -/
theorem ScalarSpelling.spelling {v : Value} {s : Bytes} (h : ScalarSpelling v s) :
    ∀ depth, Spelling depth v s
  | 0 => h
  | _ + 1 => .scalar h

/-- A text of any depth is a scalar or one level of brackets around shallower texts. -/
theorem Spelling.layer {depth : Nat} {v : Value} {s : Bytes} (h : Spelling depth v s) :
    Layer (Spelling (depth - 1)) v s := by
  cases depth with
  | zero => exact .scalar h
  | succ depth => exact h

/-! ## What the printer writes -/

/-- A value without floating-point numbers whose integers fit 64 bits, with or without a sign, and
whose lists and objects are nested at most `depth` deep. -/
inductive Value.Plain : Nat → Value → Prop
  | null {depth : Nat} : Plain depth .null
  | boolean {depth : Nat} (b : Bool) : Plain depth (.boolean b)
  | integer {depth : Nat} {i : Int} (hlow : -9223372036854775808 ≤ i)
      (hhigh : i ≤ 18446744073709551615) : Plain depth (.number (.integer i))
  | text {depth : Nat} (t : String) : Plain depth (.text t)
  | list {depth : Nat} {items : List Value} (h : ∀ v ∈ items, Plain depth v) :
      Plain (depth + 1) (.list items)
  | object {depth : Nat} {members : List (String × Value)} (h : ∀ m ∈ members, Plain depth m.2) :
      Plain (depth + 1) (.object members)

/-- The 32 controls, one by one: each is escaped by letter or by number. -/
theorem escape_control : ∀ n < 32,
    (∃ p ∈ letterEscapes, p.2 = Char.ofNat n ∧ escape (Char.ofNat n) = ['\\', p.1])
      ∨ (escape (Char.ofNat n) = ['\\', 'u', '0', '0', hexDigit (n / 16), hexDigit (n % 16)]
        ∧ (hexDigit (n / 16)).toNat < 128 ∧ (hexDigit (n % 16)).toNat < 128
        ∧ hexUnit? (byte '0') (byte '0') (byte (hexDigit (n / 16))) (byte (hexDigit (n % 16)))
          = some n) := by
  decide

/-- A character is written as one of its spellings. -/
theorem charSpelling_escape (c : Char) : CharSpelling c (encode (escape c)) := by
  by_cases hquote : c = '"'
  · subst hquote
    exact .letter (show ('"', '"') ∈ letterEscapes by decide)
  by_cases hslash : c = '\\'
  · subst hslash
    exact .letter (show ('\\', '\\') ∈ letterEscapes by decide)
  rcases Nat.lt_or_ge c.toNat 32 with hcontrol | hcontrol
  · have hascii : ∀ p ∈ letterEscapes, p.1.toNat < 128 := by decide
    have hc := Char.ofNat_toNat c
    rcases escape_control c.toNat hcontrol with ⟨⟨l, d⟩, hp, hd, he⟩ | ⟨he, hx, hy, hn⟩
    · rw [hc] at hd he
      subst hd
      rw [he, encode_cons_ascii _ (by decide), encode_cons_ascii _ (hascii _ hp)]
      exact .letter hp
    · rw [hc] at he
      have hunit := CharSpelling.unit hn (by simp [isLeading]; omega) (by simp [isTrailing]; omega)
      rw [hc] at hunit
      rw [he, encode_cons_ascii _ (by decide), encode_cons_ascii _ (by decide),
        encode_cons_ascii _ (by decide), encode_cons_ascii _ (by decide), encode_cons_ascii _ hx,
        encode_cons_ascii _ hy]
      exact hunit
  · have he : escape c = [c] := by
      rw [escape, if_neg (by simpa using hquote), if_neg (by simpa using hslash),
        if_neg (by omega)]
    rw [he, encode, List.flatMap_singleton]
    exact .plain hquote hslash hcontrol

/-- So are the characters of a text. -/
theorem textSpelling_escape (cs : List Char) : TextSpelling cs (encode (cs.flatMap escape)) := by
  induction cs with
  | nil => exact .nil
  | cons c cs ih =>
    rw [List.flatMap_cons, encode_append]
    exact .cons (charSpelling_escape c) ih

/-- A string is written between quotes. -/
theorem encode_writeText (t : String) :
    encode (writeText t) = byte '"' :: (encode (t.toList.flatMap escape) ++ [byte '"']) := by
  rw [writeText, List.cons_append, encode_cons_ascii _ (by decide), encode_append]
  rfl

section Brackets

variable {R : Value → Bytes → Prop}

/-- No blanks. -/
theorem blanks_nil : Blanks [] := fun _ h => absurd h List.not_mem_nil

/-- A comma without blanks. -/
theorem separator_comma : Separator false [byte ','] := .comma blanks_nil blanks_nil

/-- A list is written with commas between its items. -/
theorem itemsSpelling_write {v : Value} {vs : List Value} {first : Bool} {sep : Bytes}
    (hsep : Separator first sep) (h : ∀ w ∈ v :: vs, R w (encode w.write)) :
    ItemsSpelling R first (v :: vs) (sep ++ (encode (writeItems (v :: vs)) ++ [byte ']'])) := by
  induction vs generalizing v first sep with
  | nil => exact .item hsep (h v List.mem_cons_self) (.close blanks_nil)
  | cons w vs ih =>
    have hrest := ih separator_comma fun x hx => h x (List.mem_cons_of_mem _ hx)
    have heq : encode (writeItems (v :: w :: vs)) ++ [byte ']']
        = encode v.write ++ ([byte ','] ++ (encode (writeItems (w :: vs)) ++ [byte ']'])) := by
      rw [writeItems, encode_append, encode_cons_ascii _ (by decide)]
      simp
    rw [heq]
    exact .item hsep (h v List.mem_cons_self) hrest

/-- An object is written with commas between its members. -/
theorem membersSpelling_write {m : String × Value} {ms : List (String × Value)} {first : Bool}
    {sep : Bytes} (hsep : Separator first sep) (h : ∀ n ∈ m :: ms, R n.2 (encode n.2.write)) :
    MembersSpelling R first (m :: ms)
      (sep ++ (encode (writeMembers (m :: ms)) ++ [byte '\x7d'])) := by
  induction ms generalizing m first sep with
  | nil =>
    have hmember := MembersSpelling.member hsep (textSpelling_escape m.1.toList) blanks_nil
      blanks_nil (h m List.mem_cons_self) (.close blanks_nil)
    rw [writeMembers, encode_append, encode_writeText, encode_cons_ascii _ (by decide)]
    simpa using hmember
  | cons n ms ih =>
    have hrest := ih separator_comma fun x hx => h x (List.mem_cons_of_mem _ hx)
    have hmember := MembersSpelling.member hsep (textSpelling_escape m.1.toList) blanks_nil
      blanks_nil (h m List.mem_cons_self) hrest
    rw [writeMembers, encode_append, encode_append, encode_writeText,
      encode_cons_ascii _ (by decide), encode_cons_ascii _ (by decide)]
    simpa using hmember

end Brackets

/-- **The printer spells.**  What it writes is a spelling of the value. -/
theorem spelling_toBytes {depth : Nat} {v : Value} (h : v.Plain depth) :
    Spelling depth v v.toBytes := by
  induction h with
  | null => exact ScalarSpelling.null.spelling _
  | boolean b =>
    cases b
    · exact ScalarSpelling.no.spelling _
    · exact ScalarSpelling.yes.spelling _
  | integer hlow hhigh => exact (ScalarSpelling.integer hlow hhigh).spelling _
  | text t =>
    rw [Value.toBytes, Value.write, encode_writeText]
    exact (ScalarSpelling.text (textSpelling_escape t.toList)).spelling _
  | @list depth items _ ih =>
    have hitems : ItemsSpelling (Spelling depth) true items
        (encode (writeItems items) ++ [byte ']']) := by
      cases items with
      | nil => exact .close blanks_nil
      | cons v vs => exact itemsSpelling_write (.start blanks_nil) ih
    rw [Value.toBytes, Value.write, List.cons_append, encode_cons_ascii _ (by decide),
      encode_append]
    exact .list hitems
  | @object depth members _ ih =>
    have hmembers : MembersSpelling (Spelling depth) true members
        (encode (writeMembers members) ++ [byte '\x7d']) := by
      cases members with
      | nil => exact .close blanks_nil
      | cons m ms => exact membersSpelling_write (.start blanks_nil) ih
    rw [Value.toBytes, Value.write, List.cons_append, encode_cons_ascii _ (by decide),
      encode_append]
    exact .object hmembers

/-- So it is a text of the value. -/
theorem isText_toBytes {v : Value} (h : v.Plain depthLimit) : IsText v v.toBytes := by
  have htext := IsText.mk blanks_nil (spelling_toBytes h) blanks_nil
  rwa [List.nil_append, List.append_nil] at htext

end Json

end HoldToRecord
