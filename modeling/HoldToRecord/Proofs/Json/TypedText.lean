import Mathlib.Tactic
import HoldToRecord.Json.Format
import HoldToRecord.Proofs.Json.ReadBack

/-!
# Typed texts against values

A kind of field, a record and a union can be read from a text or taken from a value that was read
before, on two separate paths. `Kind.Takes` says that a kind takes the same from a value and from
every text of it. Records whose fields do are read as they are taken (`RecordFormat.Takes`), and a
union is read from a text exactly as it is taken from the value, if the tag is a string
(`UnionFormat.read_iff`). The tag may stand anywhere among the members, but only once
(`UnionFormat.whole_iff_tags`).
-/

namespace HoldToRecord.Json

/-! ## Strings -/

/-- Only strings are spelt with a quote in front, and what follows it is the string and another
quote. -/
theorem Spelling.text_iff {depth : Nat} {v : Value} {s : Bytes} (h : Spelling depth v s) :
    (∃ t body, v = .text t ∧ TextSpelling t.toList body ∧ s = byte '"' :: (body ++ [byte '"']))
      ∨ ((∀ t, v ≠ .text t) ∧ ∃ b u, s = b :: u ∧ isBlank b = false ∧ b ≠ byte '"') := by
  cases h.layer with
  | scalar hv =>
    obtain ⟨b, u, heq, hblank, -⟩ := hv.scalar
    cases hv with
    | text hbody => exact Or.inl ⟨_, _, rfl, hbody, rfl⟩
    | null => exact Or.inr ⟨by simp, _, _, rfl, rfl, by decide⟩
    | yes => exact Or.inr ⟨by simp, _, _, rfl, rfl, by decide⟩
    | no => exact Or.inr ⟨by simp, _, _, rfl, rfl, by decide⟩
    | integer hlow hhigh =>
      obtain ⟨c, t, heq', hc, -⟩ := scalar_integer hlow hhigh
      obtain ⟨rfl, rfl⟩ := List.cons.inj (heq.symm.trans heq')
      refine Or.inr ⟨by simp, b, u, heq, hblank, ?_⟩
      rintro rfl
      revert hc
      decide
    | negativeZero => exact Or.inr ⟨by simp, _, _, rfl, rfl, by decide⟩
  | list h => exact Or.inr ⟨by simp, _, _, rfl, rfl, by decide⟩
  | object h => exact Or.inr ⟨by simp, _, _, rfl, rfl, by decide⟩

/-- A checked string is read from the texts of strings that pass the check, and from no other
text. -/
theorem readTextWith_iff {α : Type} {wanted : String} {check : String → Except Mismatch α}
    {depth : Nat} {v : Value} {s w : Bytes} (h : Spelling depth v s) (hw : Blanks w) (r : Bytes)
    {a : α} {rest : Bytes} :
    readTextWith wanted check (w ++ (s ++ r)) = .ok (a, rest)
      ↔ rest = r ∧ ∃ t, v = .text t ∧ check t = .ok a := by
  rcases h.text_iff with ⟨t, body, rfl, hbody, rfl⟩ | ⟨hnot, b, u, rfl, hblank, hb⟩
  · have htext := text_reads hbody r
    rw [List.cons_append, List.append_assoc, List.singleton_append, readTextWith,
      skipBlank_blanks_ink hw _ rfl]
    simp only [if_true, htext]
    cases hcheck : check t with
    | ok b => simp [hcheck, and_comm, eq_comm]
    | error m => simp [hcheck]
  · rw [List.cons_append, readTextWith, skipBlank_blanks_ink hw _ hblank]
    simp only [if_neg hb, reduceCtorEq, false_iff]
    rintro ⟨-, t, rfl, -⟩
    exact hnot t rfl

/-! ## Kinds of fields -/

section Kinds

variable {α : Type}

/-- A kind takes `a` from a value, whether the value was read before or stands in a text. -/
structure Kind.Takes (k : Kind α) (v : Value) (a : α) : Prop where
  ofValue : k.ofValue v = .ok a
  read : ∀ {depth s}, depth ≤ depthLimit → Spelling depth v s → ∀ {w r}, Blanks w → Stops r →
    k.read (w ++ (s ++ r)) = .ok (a, r)

/-- A string that passes its check is taken. -/
theorem Kind.takes_checked {wanted : String} {check : String → Except Mismatch α} {t : String}
    {a : α} (h : check t = .ok a) : (Kind.checked wanted check).Takes (.text t) a where
  ofValue := h
  read := fun _ hs _ r hw _ => (readTextWith_iff hs hw r).mpr ⟨rfl, t, rfl, h⟩

/-- Any string is. -/
theorem Kind.takes_string (t : String) : Kind.string.Takes (.text t) t := Kind.takes_checked rfl

/-- A name out of a choice is taken from a string. -/
theorem Kind.takes_name {names : List (String × α)} {t : String} {a : α}
    (h : oneOf names t = .ok a) : (Kind.name names).Takes (.text t) a where
  ofValue := h
  read := by
    intro depth s _ hs w r hw _
    obtain ⟨t', body, heq, hbody, rfl⟩ | ⟨hnot, -⟩ := hs.text_iff
    · have hread : readTextWith "variant identifier" (oneOf names) _ = .ok (a, r) :=
        (readTextWith_iff hs blanks_nil r).mpr ⟨rfl, t, rfl, h⟩
      rw [List.nil_append, List.cons_append] at hread
      dsimp only [Kind.name]
      rw [List.cons_append, skipBlank_blanks_ink hw _ rfl]
      exact hread
    · exact absurd rfl (hnot t)

/-- A truth value is taken. -/
theorem Kind.takes_flag (b : Bool) : Kind.flag.Takes (.boolean b) b where
  ofValue := rfl
  read := by
    intro depth s _ hs w r hw hr
    dsimp only [Kind.flag]
    cases hs.layer with
    | scalar h =>
      cases h <;> rw [List.cons_append, skipBlank_blanks_ink hw _ rfl] <;> rfl

/-- A number of 64 bits is taken. -/
theorem Kind.takes_count (n : UInt64) : Kind.count.Takes (.number (.integer n.toNat)) n := by
  have hcount : countOf (.integer n.toNat) = .ok n := by
    show Except.ok (UInt64.ofNat n.toNat) = _
    rw [UInt64.ofNat_toNat]
  refine ⟨hcount, ?_⟩
  intro depth s _ hs w r hw hr
  cases hs.layer with
  | scalar h =>
    obtain ⟨b, t, heq, hblank, -⟩ := h.scalar
    cases h with
    | integer hlow hhigh =>
      obtain ⟨c, t', heq', hc, hread⟩ := scalar_integer hlow hhigh
      obtain ⟨rfl, rfl⟩ := List.cons.inj (heq.symm.trans heq')
      have hfirst : (decide (b = byte '-') || isDigit b) = true := by
        rcases hc with rfl | hc
        · rfl
        · rw [hc, Bool.or_true]
      dsimp only [Kind.count]
      rw [heq, List.cons_append, skipBlank_blanks_ink hw _ hblank]
      simp only [hfirst, hread r hr, hcount]

/-- `null` is taken for what is not there. -/
theorem Kind.takes_null (k : Kind α) : k.optional.Takes .null none where
  ofValue := rfl
  read := by
    intro depth s _ hs w r hw hr
    cases hs.layer with
    | scalar h =>
      cases h
      dsimp only [Kind.optional]
      rw [List.cons_append, skipBlank_blanks_ink hw _ rfl]
      rfl

/-- A string that may be absent is taken as one that may not. -/
theorem Kind.Takes.optional {k : Kind α} {t : String} {a : α} (h : k.Takes (.text t) a) :
    k.optional.Takes (.text t) (some a) where
  ofValue := by
    show (k.ofValue (.text t)).map some = _
    rw [h.ofValue]
    rfl
  read := by
    intro depth s hdepth hs w r hw hr
    obtain ⟨t', body, heq, hbody, rfl⟩ | ⟨hnot, -⟩ := hs.text_iff
    · have hread := h.read hdepth hs blanks_nil hr
      rw [List.nil_append, List.cons_append] at hread
      dsimp only [Kind.optional]
      rw [List.cons_append, skipBlank_blanks_ink hw _ rfl]
      simp only [hread, if_neg (show byte '"' ≠ byte 'n' by decide)]
      rfl
    · exact absurd rfl (hnot t)

end Kinds

/-! ## Records -/

/-- An object's text is a bracket and its members up to the closing one. -/
theorem Spelling.object_inv {depth : Nat} {ms : List (String × Value)} {s : Bytes}
    (h : Spelling depth (.object ms) s) :
    ∃ t, s = byte '\x7b' :: t ∧ MembersSpelling (Spelling (depth - 1)) true ms t := by
  cases h.layer with
  | scalar hv => cases hv
  | object hms => exact ⟨_, rfl, hms⟩

section Records

variable {σ α : Type}

/-- A field takes the record so far to the next one, whether its value was read before or stands in
a text. -/
structure FieldFormat.Takes (field : FieldFormat σ) (st : σ) (v : Value) (st' : σ) : Prop where
  ofValue : field.ofValue st v = .ok st'
  read : ∀ {depth s}, depth ≤ depthLimit → Spelling depth v s → ∀ {w r}, Blanks w → Stops r →
    field.read st (w ++ (s ++ r)) = .ok (st', r)

/-- A field takes what its kind takes. -/
theorem Kind.Takes.field {β : Type} {k : Kind β} {v : Value} {a : β} (h : k.Takes v a)
    (name : String) (get : σ → Option β) (set : σ → β → σ) (st : σ) :
    (FieldFormat.of name k get set).Takes st v (set st a) where
  ofValue := by
    show (k.ofValue v).map (set st) = _
    rw [h.ofValue]
    rfl
  read := by
    intro depth s hdepth hs w r hw hr
    show (k.read _).map _ = _
    rw [h.read hdepth hs hw hr]
    rfl

/-- Members that belong to fields, none of them twice, take a record so far to another one. -/
inductive RecordFormat.Fills (f : RecordFormat σ α) : σ → List (String × Value) → σ → Prop
  | nil {st : σ} : Fills f st [] st
  | cons {st st' st'' : σ} {key : String} {v : Value} {ms : List (String × Value)}
      {field : FieldFormat σ} (hfield : f.field? key = some field)
      (hgiven : field.given st = false) (hv : field.Takes st v st') (hms : Fills f st' ms st'') :
      Fills f st ((key, v) :: ms) st''

/-- A record takes `a` from some members: they fill in its fields, and the fields make up `a`. -/
def RecordFormat.Takes (f : RecordFormat σ α) (ms : List (String × Value)) (a : α) : Prop :=
  ∃ st, f.Fills f.blank ms st ∧ f.build st = .ok a

variable {f : RecordFormat σ α}

/-- Values that fill in the fields are taken one after the other. -/
theorem RecordFormat.Fills.ofMembersFrom {st st' : σ} {ms : List (String × Value)}
    (h : f.Fills st ms st') : f.ofMembersFrom st ms = f.build st' := by
  induction h with
  | nil => rfl
  | cons hfield hgiven hv _ ih =>
    rw [RecordFormat.ofMembersFrom, hfield]
    simp only [hgiven, Bool.false_eq_true, if_false, hv.ofValue, bind, Except.bind]
    exact ih

/-- So are their texts. -/
theorem RecordFormat.Fills.readMembers {st st' : σ} {ms : List (String × Value)}
    (h : f.Fills st ms st') {a : α} (ha : f.build st' = .ok a) {depth : Nat}
    (hdepth : depth ≤ depthLimit) {first : Bool} {s : Bytes}
    (hs : MembersSpelling (Spelling depth) first ms s) (fuel : Nat) (hfuel : s.length ≤ fuel)
    (r : Bytes) : f.readMembers fuel first st (s ++ r) = .ok (a, r) := by
  induction h generalizing first s fuel with
  | nil =>
    cases hs with
    | close hw =>
      rw [List.length_append, List.length_singleton] at hfuel
      obtain ⟨fuel, rfl⟩ : ∃ n, fuel = n + 1 := ⟨fuel - 1, by omega⟩
      rw [RecordFormat.readMembers, List.append_assoc, List.singleton_append, nextKey_close _ hw]
      simp only [ha]
  | cons hfield hgiven hv _ ih =>
    cases hs with
    | member hsep hkey hw hw' hvalue hms =>
      simp only [List.length_append, List.length_cons] at hfuel
      obtain ⟨fuel, rfl⟩ : ∃ n, fuel = n + 1 := ⟨fuel - 1, by omega⟩
      simp only [List.append_assoc, List.cons_append]
      rw [RecordFormat.readMembers, nextKey_more hsep]
      simp only [text_reads hkey, hfield, hgiven, Bool.false_eq_true, if_false, colon_blanks hw,
        hv.read hdepth hvalue hw' (hms.stops r)]
      exact ih ha hms fuel (by omega)

/-- What a record takes, it takes from the members of an object. -/
theorem RecordFormat.Takes.ofMembers {ms : List (String × Value)} {a : α} (h : f.Takes ms a) :
    f.ofMembers ms = .ok a := by
  obtain ⟨st, hfills, hbuild⟩ := h
  rw [RecordFormat.ofMembers, hfills.ofMembersFrom, hbuild]

/-- The variant of a record takes what the record does. -/
theorem RecordFormat.Takes.ofBody {ms : List (String × Value)} {a : α} (h : f.Takes ms a)
    (name : String) : (Variant.record name f).ofBody (.members ms) = .ok a :=
  h.ofMembers

/-- **Records.**  What a record takes, it reads from every text of the object. -/
theorem RecordFormat.Takes.read {ms : List (String × Value)} {a : α} (h : f.Takes ms a)
    {depth : Nat} (hdepth : depth ≤ depthLimit) {s : Bytes}
    (hs : Spelling depth (.object ms) s) {w : Bytes} (hw : Blanks w) (r : Bytes) :
    f.read (w ++ (s ++ r)) = .ok (a, r) := by
  obtain ⟨st, hfills, hbuild⟩ := h
  obtain ⟨t, rfl, ht⟩ := hs.object_inv
  rw [RecordFormat.read, List.cons_append, skipBlank_blanks_ink hw _ rfl]
  refine hfills.readMembers hbuild (by omega) ht _ ?_ r
  rw [fuelFor, List.length_append]
  omega

end Records

/-! ## Unions -/

namespace UnionFormat

variable {α : Type} {u : UnionFormat α}

/-- The tag is a string, as often as it is given. -/
def TagIsText (ms : List (String × Value)) : Prop := ∀ v, (tagKey, v) ∈ ms → ∃ t, v = .text t

theorem tagIsText_cons {v : Value} {ms : List (String × Value)} :
    TagIsText ((tagKey, v) :: ms) ↔ (∃ t, v = .text t) ∧ TagIsText ms := by
  simp [TagIsText, or_imp, forall_and]

theorem tagIsText_cons_of_ne {k : String} (hk : k ≠ tagKey) {v : Value}
    {ms : List (String × Value)} : TagIsText ((k, v) :: ms) ↔ TagIsText ms := by
  simp [TagIsText, hk.symm]

/-- The members that hold a tag. -/
def tags (ms : List (String × Value)) : List (String × Value) := ms.filter fun m => m.1 = tagKey

/-- The members beside the tags. -/
def untagged (ms : List (String × Value)) : List (String × Value) := ms.filter fun m => m.1 ≠ tagKey

theorem tags_cons (v : Value) (ms : List (String × Value)) :
    tags ((tagKey, v) :: ms) = (tagKey, v) :: tags ms := by
  simp [tags]

theorem tags_cons_of_ne {k : String} (hk : k ≠ tagKey) (v : Value) (ms : List (String × Value)) :
    tags ((k, v) :: ms) = tags ms := by
  simp [tags, hk]

theorem untagged_cons (v : Value) (ms : List (String × Value)) :
    untagged ((tagKey, v) :: ms) = untagged ms := by
  simp [untagged]

theorem untagged_cons_of_ne {k : String} (hk : k ≠ tagKey) (v : Value)
    (ms : List (String × Value)) : untagged ((k, v) :: ms) = (k, v) :: untagged ms := by
  simp [untagged, hk]

/-- A tag that is the only one is a string if the tags are. -/
theorem tagIsText_of_tags {v : Value} {ms : List (String × Value)} (h : tags ms = [(tagKey, v)]) :
    TagIsText ms ↔ ∃ t, v = .text t := by
  have hmem : ∀ w, (tagKey, w) ∈ ms ↔ w = v := by
    intro w
    have hw : (tagKey, w) ∈ tags ms ↔ w = v := by simp [h]
    rw [← hw, tags, List.mem_filter]
    simp
  simp [TagIsText, hmem]

/-- After the tag only other members may come. -/
theorem splitMembers_some (x : Variant α) (acc ms : List (String × Value)) :
    u.splitMembers (some x) acc ms
      = if tags ms = [] then .ok (x, acc.reverse ++ untagged ms)
        else .error (.duplicateField tagKey) := by
  induction ms generalizing acc with
  | nil => simp [splitMembers, tags, untagged]
  | cons m ms ih =>
    obtain ⟨k, v⟩ := m
    rw [splitMembers]
    by_cases hk : k = tagKey
    · subst hk
      rw [tags_cons, if_pos rfl, if_neg (List.cons_ne_nil _ _)]
      rfl
    · rw [tags_cons_of_ne hk, untagged_cons_of_ne hk, if_neg hk, ih, List.reverse_cons,
        List.append_assoc, List.singleton_append]

/-- The members are split exactly if there is one tag among them, wherever it stands, and it names a
variant. -/
theorem splitMembers_none_iff {acc ms : List (String × Value)}
    {p : Variant α × List (String × Value)} :
    u.splitMembers none acc ms = .ok p
      ↔ ∃ v, tags ms = [(tagKey, v)] ∧ u.tagOfValue v = .ok p.1
        ∧ p.2 = acc.reverse ++ untagged ms := by
  induction ms generalizing acc with
  | nil => simp [splitMembers, tags]
  | cons m ms ih =>
    obtain ⟨k, v⟩ := m
    rw [splitMembers]
    by_cases hk : k = tagKey
    · subst hk
      rw [tags_cons, untagged_cons, if_pos rfl]
      cases htag : u.tagOfValue v with
      | error m => simp [htag]
      | ok x =>
        by_cases hms : tags ms = []
        · simp [splitMembers_some, hms, htag, Prod.ext_iff, eq_comm]
        · simp [splitMembers_some, hms]
    · rw [tags_cons_of_ne hk, untagged_cons_of_ne hk, if_neg hk, ih, List.reverse_cons,
        List.append_assoc, List.singleton_append]

/-- A tag is read from the texts of strings that name a variant. -/
theorem readTag_iff {depth : Nat} {v : Value} {s w : Bytes} (h : Spelling depth v s)
    (hw : Blanks w) (r : Bytes) {x : Variant α} {rest : Bytes} :
    u.readTag (w ++ (s ++ r)) = .ok (x, rest) ↔ rest = r ∧ ∃ t, v = .text t ∧ u.variant t = .ok x :=
  readTextWith_iff h hw r

/-- Members are read from a text as they are split, the tag from the others, when they were read
before; only the text of a tag has to be a string. -/
theorem readMembers_iff {depth : Nat} (hdepth : depth ≤ depthLimit - 1) {first : Bool}
    {ms : List (String × Value)} {s : Bytes} (hs : MembersSpelling (Spelling depth) first ms s)
    (fuel : Nat) (hfuel : 2 * s.length ≤ fuel) (tag : Option (Variant α))
    (acc : List (String × Value)) (r : Bytes) {p : Variant α × List (String × Value)}
    {rest : Bytes} :
    u.readMembers fuel first tag acc (s ++ r) = .ok (p, rest)
      ↔ rest = r ∧ u.splitMembers tag acc ms = .ok p ∧ TagIsText ms := by
  induction hs generalizing fuel tag acc with
  | close hw =>
    rw [List.length_append, List.length_singleton] at hfuel
    obtain ⟨fuel, rfl⟩ : ∃ n, fuel = n + 1 := ⟨fuel - 1, by omega⟩
    rw [readMembers, List.append_assoc, List.singleton_append, nextKey_close _ hw]
    cases tag with
    | none => simp [splitMembers]
    | some v => simp [splitMembers, TagIsText, and_comm, eq_comm]
  | @member first k v ms sep key w w' s t hsep hkey hw hw' hv hms ih =>
    simp only [List.length_append, List.length_cons] at hfuel
    obtain ⟨fuel, rfl⟩ : ∃ n, fuel = n + 1 := ⟨fuel - 1, by omega⟩
    simp only [List.append_assoc, List.cons_append]
    rw [readMembers, nextKey_more hsep, splitMembers]
    simp only [text_reads hkey, colon_blanks hw]
    split_ifs with hkey htag
    · simp
    · -- the first tag: it is read exactly if it is a string that names a variant
      subst hkey
      rw [tagIsText_cons]
      cases hread : u.readTag (w' ++ (s ++ (t ++ r))) with
      | error e =>
        simp only [reduceCtorEq, false_iff]
        rintro ⟨-, hsplit, ⟨name, rfl⟩, -⟩
        cases hvariant : u.variant name with
        | error m => simp [tagOfValue, hvariant] at hsplit
        | ok x =>
          have := (readTag_iff hv hw' (t ++ r)).mpr ⟨rfl, name, rfl, hvariant⟩
          simp [hread] at this
      | ok x =>
        obtain ⟨hrest, name, rfl, hvariant⟩ := (readTag_iff hv hw' (t ++ r)).mp hread
        simp only [hrest, ih fuel (by omega), tagOfValue, hvariant, Value.text.injEq, exists_eq',
          true_and]
    · have hvalue := (value_reads hdepth).value hv fuel (by omega) hw' (hms.stops r)
      simp only [hvalue, ih fuel (by omega), tagIsText_cons_of_ne hkey]

/-- What a union is in an object: the variant of its tag, whose body is made up of the other
members. -/
theorem ofValue_object_iff {ms : List (String × Value)} {a : α} :
    u.ofValue (.object ms) = .ok a
      ↔ ∃ p, u.splitMembers none [] ms = .ok p ∧ p.1.ofBody (.members p.2) = .ok a := by
  rw [ofValue]
  cases u.splitMembers none [] ms with
  | error m => simp [bind, Except.bind]
  | ok p => simp [bind, Except.bind]

/-- **Unions.**  From the text of an object a union is read exactly if the tag is a string, and it is
what the union takes from the object. -/
theorem read_iff {depth : Nat} (hdepth : depth ≤ depthLimit) {ms : List (String × Value)}
    {s w : Bytes} (hs : Spelling depth (.object ms) s) (hw : Blanks w) (r : Bytes) {a : α}
    {rest : Bytes} :
    u.read (w ++ (s ++ r)) = .ok (a, rest)
      ↔ rest = r ∧ u.ofValue (.object ms) = .ok a ∧ TagIsText ms := by
  obtain ⟨t, rfl, ht⟩ := hs.object_inv
  have hread : ∀ {p rest'}, u.readMembers (fuelFor (t ++ r)) true none [] (t ++ r) = .ok (p, rest')
      ↔ rest' = r ∧ u.splitMembers none [] ms = .ok p ∧ TagIsText ms :=
    readMembers_iff (by omega) ht _ (by rw [fuelFor, List.length_append]; omega) none [] r
  rw [read, List.cons_append, skipBlank_blanks_ink hw _ rfl, ofValue_object_iff]
  dsimp only
  rw [if_neg (by decide), if_pos rfl]
  cases hmembers : u.readMembers (fuelFor (t ++ r)) true none [] (t ++ r) with
  | error e =>
    simp only [reduceCtorEq, false_iff]
    rintro ⟨-, ⟨p, hsplit, -⟩, htext⟩
    have := hread.mpr ⟨rfl, hsplit, htext⟩
    simp [hmembers] at this
  | ok p =>
    obtain ⟨p, rest'⟩ := p
    obtain ⟨rfl, hsplit, htext⟩ := hread.mp hmembers
    simp only [hsplit, htext, finish, Except.ok.injEq, exists_eq_left', and_true]
    cases p.1.ofBody (.members p.2) with
    | error m => simp
    | ok b => simp [and_comm, eq_comm]

/-- With a tag in front and none behind it, the union is the tag's variant of the other members. -/
theorem ofValue_tagged (name : String) {ms : List (String × Value)}
    (hms : ∀ m ∈ ms, m.1 ≠ tagKey) :
    u.ofValue (.object ((tagKey, .text name) :: ms))
      = (u.variant name).bind fun x => x.ofBody (.members ms) := by
  have hnone : tags ms = [] := List.filter_eq_nil_iff.mpr fun m hm => by simpa using hms m hm
  have hall : untagged ms = ms := List.filter_eq_self.mpr fun m hm => by simpa using hms m hm
  rw [ofValue, splitMembers]
  cases hvariant : u.variant name with
  | error m => simp [tagOfValue, hvariant, bind, Except.bind]
  | ok x => simp [tagOfValue, hvariant, splitMembers_some, hnone, hall, bind, Except.bind]

/-- A tag in front that is a string is the only one if none follows. -/
theorem tagIsText_tagged (name : String) {ms : List (String × Value)}
    (hms : ∀ m ∈ ms, m.1 ≠ tagKey) : TagIsText ((tagKey, .text name) :: ms) :=
  tagIsText_cons.mpr ⟨⟨name, rfl⟩, fun _ hv => absurd rfl (hms _ hv)⟩

/-- **Tagged objects.**  A union takes from an object with the tag in front what the tag's variant makes
of the other members. -/
theorem kind_takes {name : String} {x : Variant α} (hx : u.variant name = .ok x)
    {ms : List (String × Value)} (hms : ∀ m ∈ ms, m.1 ≠ tagKey) {a : α}
    (ha : x.ofBody (.members ms) = .ok a) :
    u.kind.Takes (.object ((tagKey, .text name) :: ms)) a := by
  have hvalue : u.ofValue (.object ((tagKey, .text name) :: ms)) = .ok a := by
    rw [ofValue_tagged name hms, hx]
    exact ha
  exact ⟨hvalue, fun hdepth hs _ r hw _ =>
    (read_iff hdepth hs hw r).mpr ⟨rfl, hvalue, tagIsText_tagged name hms⟩⟩

end UnionFormat

/-! ## Whole texts -/

/-- Only blanks may follow what is read. -/
theorem whole_of_read {α : Type} {read : Bytes → Except Fault (α × Bytes)} {s : Bytes} {a : α}
    {w : Bytes} (h : read s = .ok (a, w)) (hw : Blanks w) : whole read s = .ok a := by
  have hrest : skipBlank w = [] := by
    have := skipBlank_blanks hw []
    rwa [List.append_nil] at this
  rw [whole, h]
  simp only [finished, hrest]

section Whole

variable {α : Type} {v : Value} {a : α} {s : Bytes}

/-- What a kind takes is read from every text of the value. -/
theorem Kind.Takes.whole_of_isText {k : Kind α} (h : k.Takes v a) (hs : IsText v s) :
    Json.whole k.read s = .ok a := by
  cases hs with
  | mk hw hs hw' =>
    exact whole_of_read (h.read (Nat.le_refl _) hs hw (stops_of_blanks hw')) hw'

/-- What a record takes is read from every text of the object. -/
theorem RecordFormat.Takes.whole_of_isText {σ : Type} {f : RecordFormat σ α}
    {ms : List (String × Value)} (h : f.Takes ms a) (hs : IsText (.object ms) s) :
    Json.whole f.read s = .ok a := by
  cases hs with
  | mk hw hs hw' => exact whole_of_read (h.read (Nat.le_refl _) hs hw _) hw'

/-- A union is read from a text of an object exactly if its tag is a string, and it is what the union
takes from the object. -/
theorem UnionFormat.whole_iff_of_isText {u : UnionFormat α} {ms : List (String × Value)}
    (hs : IsText (.object ms) s) :
    Json.whole u.read s = .ok a ↔ u.ofValue (.object ms) = .ok a ∧ TagIsText ms := by
  cases hs with
  | @mk w s w' hw hs hw' =>
    have hread : ∀ {b rest}, u.read (w ++ (s ++ w')) = .ok (b, rest)
        ↔ rest = w' ∧ u.ofValue (.object ms) = .ok b ∧ TagIsText ms :=
      UnionFormat.read_iff (Nat.le_refl _) hs hw w'
    constructor
    · intro h
      rw [Json.whole] at h
      split at h
      · simp at h
      · next b rest hb =>
        split at h
        · simp at h
        · obtain rfl := Except.ok.inj h
          exact (hread.mp hb).2
    · intro h
      exact whole_of_read (hread.mpr ⟨rfl, h⟩) hw'

/-- **Tags anywhere.**  From a text of an object a union is read exactly if one member alone holds a
tag, which is a string and names a variant, and the variant makes something of the other
members. -/
theorem UnionFormat.whole_iff_tags {u : UnionFormat α} {ms : List (String × Value)}
    (hs : IsText (.object ms) s) :
    Json.whole u.read s = .ok a
      ↔ ∃ name x, tags ms = [(tagKey, .text name)] ∧ u.variant name = .ok x
        ∧ x.ofBody (.members (untagged ms)) = .ok a := by
  rw [whole_iff_of_isText hs, ofValue_object_iff]
  constructor
  · rintro ⟨⟨p, hsplit, hbody⟩, htext⟩
    obtain ⟨v, htags, hvariant, hrest⟩ := splitMembers_none_iff.mp hsplit
    obtain ⟨name, rfl⟩ := (tagIsText_of_tags htags).mp htext
    rw [hrest] at hbody
    exact ⟨name, p.1, htags, hvariant, hbody⟩
  · rintro ⟨name, x, htags, hvariant, hbody⟩
    exact ⟨⟨(x, untagged ms), splitMembers_none_iff.mpr ⟨_, htags, hvariant, rfl⟩, hbody⟩,
      (tagIsText_of_tags htags).mpr ⟨name, rfl⟩⟩

/-- What a kind takes is read from the text that the printer writes. -/
theorem Kind.Takes.whole {k : Kind α} (h : k.Takes v a) (hv : v.Plain depthLimit) :
    Json.whole k.read v.toBytes = .ok a :=
  h.whole_of_isText (isText_toBytes hv)

/-- What a record takes is read from the text that the printer writes. -/
theorem RecordFormat.Takes.whole {σ : Type} {f : RecordFormat σ α} {ms : List (String × Value)}
    (h : f.Takes ms a) (hms : (Value.object ms).Plain depthLimit) :
    Json.whole f.read (Value.object ms).toBytes = .ok a :=
  h.whole_of_isText (isText_toBytes hms)

/-- The text of an object whose tag is none of a union's is not read as one of the union. -/
theorem UnionFormat.whole_ne_ok {u : UnionFormat α} {name : String} {m : Mismatch}
    (hname : u.variant name = .error m) {ms : List (String × Value)}
    (hms : ∀ m ∈ ms, m.1 ≠ tagKey)
    (hplain : (Value.object ((tagKey, .text name) :: ms)).Plain depthLimit) :
    Json.whole u.read (Value.object ((tagKey, .text name) :: ms)).toBytes ≠ .ok a := by
  intro h
  have hvalue := ((whole_iff_of_isText (isText_toBytes hplain)).mp h).1
  rw [ofValue_tagged name hms, hname] at hvalue
  simp [Except.bind] at hvalue

end Whole

end HoldToRecord.Json
