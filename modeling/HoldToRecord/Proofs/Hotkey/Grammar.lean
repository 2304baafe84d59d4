import Mathlib.Tactic
import HoldToRecord.Hotkey.Basic
import HoldToRecord.Proofs.Text.Blank

/-!
# The grammar of hotkeys

A hotkey is written as names of modifiers with plus signs between them and blanks around them.
`Names part m` says when a part names a modifier, letter by letter; `IsParts text ps` says how a
text falls into parts. A text is read exactly if its parts name modifiers that are all different,
and it names the set of these (`collect_append`); otherwise the first part that does not go with
those before it is reported (`collect_of_offends`). The main statement, `parse_grammar`, follows
because the parts of a text either are such names or have a first one that is not
(`named_or_offends`).
-/

namespace HoldToRecord.Hotkey

open HoldToRecord.Text

/-! ## Letters -/

/-- A character stands for a letter of a name: it is the letter in either case, or one of the two
characters outside ASCII whose capitals are letters. -/
def StandsFor (c letter : Char) : Prop :=
  c = letter.toUpper ∨ c = letter.toLower ∨ (c = 'ſ' ∧ letter.toUpper = 'S')
    ∨ (c = 'ı' ∧ letter.toUpper = 'I')

/-- The number of a letter's capital. -/
theorem toNat_toUpper (c : Char) :
    c.toUpper.toNat = if 97 ≤ c.toNat ∧ c.toNat ≤ 122 then c.toNat - 32 else c.toNat := by
  unfold Char.toUpper
  split
  · next h =>
    have hsmall : 97 ≤ c.val.toNat ∧ c.val.toNat ≤ 122 := h
    have hstep : ('A'.val - 'a'.val).toNat = 4294967264 := by decide
    rw [if_pos (show 97 ≤ c.toNat ∧ c.toNat ≤ 122 from h)]
    show (c.val + ('A'.val - 'a'.val)).toNat = c.val.toNat - 32
    rw [UInt32.toNat_add, hstep]
    omega
  · next h =>
    rw [if_neg]
    exact h

/-- The number of a capital's small letter. -/
theorem toNat_toLower (c : Char) :
    c.toLower.toNat = if 65 ≤ c.toNat ∧ c.toNat ≤ 90 then c.toNat + 32 else c.toNat := by
  unfold Char.toLower
  split
  · next h =>
    have hcapital : 65 ≤ c.val.toNat ∧ c.val.toNat ≤ 90 := h
    have hstep : ('a'.val - 'A'.val).toNat = 32 := by decide
    rw [if_pos (show 65 ≤ c.toNat ∧ c.toNat ≤ 90 from h)]
    show (c.val + ('a'.val - 'A'.val)).toNat = c.val.toNat + 32
    rw [UInt32.toNat_add, hstep]
    omega
  · next h =>
    rw [if_neg]
    exact h

/-- The letters of ASCII by their numbers. -/
theorem isAlpha_iff (c : Char) :
    c.isAlpha = true ↔ (65 ≤ c.toNat ∧ c.toNat ≤ 90) ∨ (97 ≤ c.toNat ∧ c.toNat ≤ 122) := by
  have hupper : c.isUpper = true ↔ 65 ≤ c.toNat ∧ c.toNat ≤ 90 := decide_eq_true_iff
  have hlower : c.isLower = true ↔ 97 ≤ c.toNat ∧ c.toNat ≤ 122 :=
    Bool.and_eq_true_iff.trans (and_congr decide_eq_true_iff decide_eq_true_iff)
  rw [← hupper, ← hlower, ← Bool.or_eq_true]
  rfl

/-- A character has the capital of a letter exactly if it stands for the letter. -/
theorem capital_eq_iff {c letter : Char} (h : letter.isAlpha = true) :
    capital c = letter.toUpper ↔ StandsFor c letter := by
  have hupper := toNat_toUpper letter
  have hlower := toNat_toLower letter
  rw [isAlpha_iff] at h
  -- a character beyond ASCII is not the letter itself
  have hbeyond : 128 ≤ c.toNat → c ≠ letter.toUpper ∧ c ≠ letter.toLower := by
    intro hc
    constructor
    · intro heq
      rw [heq, hupper] at hc
      split_ifs at hc <;> omega
    · intro heq
      rw [heq, hlower] at hc
      split_ifs at hc <;> omega
  unfold capital StandsFor
  by_cases hi : c = 'ı'
  · subst hi
    obtain ⟨hu, hl⟩ := hbeyond (by decide)
    simp [hu, hl, eq_comm]
  by_cases hs : c = 'ſ'
  · subst hs
    obtain ⟨hu, hl⟩ := hbeyond (by decide)
    simp [hu, hl, eq_comm]
  rw [if_neg hi, if_neg hs]
  simp only [hi, hs, false_and, or_false]
  rw [← Char.toNat_inj, ← Char.toNat_inj, ← Char.toNat_inj, toNat_toUpper c, hupper, hlower]
  split_ifs <;> omega

/-- Characters have the capitals of some letters exactly if they stand for them one by one. -/
theorem map_capital_eq_iff {part letters : List Char} (h : ∀ a ∈ letters, a.isAlpha = true) :
    part.map capital = letters.map Char.toUpper ↔ List.Forall₂ StandsFor part letters := by
  induction letters generalizing part with
  | nil => simp
  | cons a letters ih =>
    cases part with
    | nil => simp
    | cons c part =>
      rw [List.map_cons, List.map_cons, List.cons.injEq, List.forall₂_cons,
        capital_eq_iff (h a List.mem_cons_self), ih fun b hb => h b (List.mem_cons_of_mem a hb)]

/-! ## Names -/

/-- Each item of the first of two related lists is related to one of the second. -/
theorem exists_of_mem_forall₂ {α β : Type} {R : α → β → Prop} {as : List α} {bs : List β}
    (h : List.Forall₂ R as bs) {a : α} (ha : a ∈ as) : ∃ b ∈ bs, R a b := by
  induction h with
  | nil => cases ha
  | @cons a' b as bs hab _ ih =>
    rcases List.mem_cons.mp ha with rfl | ha
    · exact ⟨b, List.mem_cons_self, hab⟩
    · obtain ⟨b', hb', hr⟩ := ih ha
      exact ⟨b', List.mem_cons_of_mem b hb', hr⟩

/-- What a modifier is called. -/
def Modifier.aliases : Modifier → List String
  | .control => ["Control", "Ctrl"]
  | .option => ["Option", "Alt"]
  | .command => ["Command", "Cmd", "Super"]
  | .shift => ["Shift"]

/-- A part names a modifier: it is one of the modifier's names, letter by letter. -/
def Names (part : List Char) (m : Modifier) : Prop :=
  ∃ name ∈ m.aliases, List.Forall₂ StandsFor part name.toList

/-- Names are made of letters. -/
theorem isAlpha_of_mem_aliases (m : Modifier) :
    ∀ name ∈ m.aliases, ∀ a ∈ name.toList, a.isAlpha = true := by
  have hall : ∀ name ∈ m.aliases, name.toList.all Char.isAlpha = true := by
    cases m <;> decide
  intro name hname
  exact List.all_eq_true.mp (hall name hname)

/-- The table of names holds the names of all modifiers in capitals. -/
theorem names_eq :
    names = Modifier.all.flatMap fun m =>
      m.aliases.map fun name => (name.toList.map Char.toUpper, m) := by
  decide

/-- Each name is found in the table, with its modifier. -/
theorem lookup_names (m : Modifier) :
    ∀ name ∈ m.aliases, names.lookup (name.toList.map Char.toUpper) = some m := by
  cases m <;> decide

/-- The modifier that is found for a part is the one that it names. -/
theorem named?_eq_some_iff {part : List Char} {m : Modifier} :
    named? part = some m ↔ Names part m := by
  constructor
  · intro h
    obtain ⟨_, _, heq, -⟩ := List.lookup_eq_some_iff.mp h
    have hmem : (part.map capital, m) ∈ names := by simp [heq]
    rw [names_eq, List.mem_flatMap] at hmem
    obtain ⟨m', -, hm'⟩ := hmem
    obtain ⟨name, hname, hpair⟩ := List.mem_map.mp hm'
    obtain ⟨hletters, rfl⟩ := Prod.mk.inj hpair
    exact ⟨name, hname, (map_capital_eq_iff (isAlpha_of_mem_aliases _ name hname)).mp hletters.symm⟩
  · rintro ⟨name, hname, hletters⟩
    rw [named?, (map_capital_eq_iff (isAlpha_of_mem_aliases m name hname)).mpr hletters]
    exact lookup_names m name hname

/-- A part names one modifier at most. -/
theorem Names.unique {part : List Char} {m m' : Modifier} (h : Names part m)
    (h' : Names part m') : m = m' := by
  have heq := named?_eq_some_iff.mpr h
  rw [named?_eq_some_iff.mpr h', Option.some.injEq] at heq
  exact heq.symm

/-- An empty part names nothing. -/
theorem not_names_nil (m : Modifier) : ¬ Names [] m := by
  rw [← named?_eq_some_iff]
  exact nofun

/-! ## Capitals of whole texts -/

/-- Letters of ASCII that single characters beyond ASCII have as their capitals. -/
def ligatures : List (List Char) :=
  ["SS", "FF", "FI", "FL", "FFI", "FFL", "ST"].map String.toList

/-- What Unicode says of the capitals of a character, as far as ASCII takes part in it: a character
may have several capitals, and besides those of ASCII only the dotless i, the long s and the
ligatures have capitals in ASCII alone. -/
structure IsUpperCasing (upper : Char → List Char) : Prop where
  ascii : ∀ c, c.toNat < 128 → upper c = [c.toUpper]
  dotless : upper 'ı' = ['I']
  long : upper 'ſ' = ['S']
  beyond : ∀ c, 128 ≤ c.toNat → c ≠ 'ı' → c ≠ 'ſ' →
    upper c ∈ ligatures ∨ ∃ d ∈ upper c, 128 ≤ d.toNat

/-- The capitals of the table are such a casing: all other characters are their own. -/
theorem isUpperCasing_capital : IsUpperCasing fun c => [capital c] := by
  refine ⟨?_, rfl, rfl, ?_⟩
  · intro c hc
    have hi : c ≠ 'ı' := by
      rintro rfl
      exact absurd hc (by decide)
    have hs : c ≠ 'ſ' := by
      rintro rfl
      exact absurd hc (by decide)
    rw [capital, if_neg hi, if_neg hs]
  · intro c hc hi hs
    refine Or.inr ⟨c, ?_, hc⟩
    have hupper : c.toUpper = c := by
      rw [← Char.toNat_inj, toNat_toUpper, if_neg (by omega)]
    rw [capital, if_neg hi, if_neg hs, hupper]
    exact List.mem_singleton_self c

/-- No name has a ligature in it. -/
theorem not_ligature_infix (m : Modifier) :
    ∀ name ∈ m.aliases, ∀ l ∈ ligatures, ¬ l <:+: name.toList.map Char.toUpper := by
  cases m <;> decide

/-- Names are written in ASCII. -/
theorem toNat_lt_of_mem_aliases (m : Modifier) :
    ∀ name ∈ m.aliases, ∀ d ∈ name.toList.map Char.toUpper, d.toNat < 128 := by
  intro name hname d hd
  obtain ⟨a, ha, rfl⟩ := List.mem_map.mp hd
  have halpha := (isAlpha_iff a).mp (isAlpha_of_mem_aliases m name hname a ha)
  rw [toNat_toUpper]
  split_ifs <;> omega

/-- A character has one capital, the one of the table, unless it has none in ASCII or is a
ligature. -/
theorem IsUpperCasing.eq_capital {upper : Char → List Char} (h : IsUpperCasing upper) (c : Char) :
    upper c = [capital c] ∨ upper c ∈ ligatures ∨ ∃ d ∈ upper c, 128 ≤ d.toNat := by
  by_cases hi : c = 'ı'
  · left
    rw [hi, h.dotless]
    rfl
  by_cases hs : c = 'ſ'
  · left
    rw [hs, h.long]
    rfl
  rcases Nat.lt_or_ge c.toNat 128 with hc | hc
  · left
    rw [h.ascii c hc, capital, if_neg hi, if_neg hs]
  · exact Or.inr (h.beyond c hc hi hs)

/-- A character that stands for a letter has the capital of the table. -/
theorem IsUpperCasing.of_standsFor {upper : Char → List Char} (h : IsUpperCasing upper)
    {c letter : Char} (hletter : letter.isAlpha = true) (hc : StandsFor c letter) :
    upper c = [capital c] := by
  by_cases hi : c = 'ı'
  · rw [hi, h.dotless]
    rfl
  by_cases hs : c = 'ſ'
  · rw [hs, h.long]
    rfl
  have hascii : c.toNat < 128 := by
    rw [isAlpha_iff] at hletter
    rcases hc with rfl | rfl | ⟨rfl, -⟩ | ⟨rfl, -⟩
    · rw [toNat_toUpper]
      split_ifs <;> omega
    · rw [toNat_toLower]
      split_ifs <;> omega
    · exact absurd rfl hs
    · exact absurd rfl hi
  rw [h.ascii c hascii, capital, if_neg hi, if_neg hs]

/-- Where each character has one capital, so has the text. -/
theorem flatMap_upper_eq {upper : Char → List Char} {part : List Char}
    (h : ∀ c ∈ part, upper c = [capital c]) : part.flatMap upper = part.map capital := by
  rw [List.map_eq_flatMap]
  apply List.flatMap_congr
  exact h

/-- **Names are compared in capitals.**  Whatever capitals Unicode gives to all other characters, a
part names a modifier exactly if the capitals of the part are those of one of its names. -/
theorem names_iff_flatMap_upper {upper : Char → List Char} (h : IsUpperCasing upper)
    {part : List Char} {m : Modifier} :
    Names part m ↔ ∃ name ∈ m.aliases, part.flatMap upper = name.toList.map Char.toUpper := by
  constructor
  · rintro ⟨name, hname, hletters⟩
    refine ⟨name, hname, ?_⟩
    have halpha := isAlpha_of_mem_aliases m name hname
    rw [← (map_capital_eq_iff halpha).mpr hletters]
    apply flatMap_upper_eq
    intro c hc
    obtain ⟨letter, hmem, hstands⟩ := exists_of_mem_forall₂ hletters hc
    exact h.of_standsFor (halpha letter hmem) hstands
  · rintro ⟨name, hname, hcapitals⟩
    refine ⟨name, hname, ?_⟩
    rw [← map_capital_eq_iff (isAlpha_of_mem_aliases m name hname), ← hcapitals]
    apply Eq.symm
    apply flatMap_upper_eq
    -- no character of the part is a ligature, or has a capital beyond ASCII
    intro c hc
    rcases h.eq_capital c with heq | hligature | ⟨d, hd, hlarge⟩
    · exact heq
    · exfalso
      apply not_ligature_infix m name hname _ hligature
      obtain ⟨before, after, rfl⟩ := List.append_of_mem hc
      refine ⟨before.flatMap upper, after.flatMap upper, ?_⟩
      rw [← hcapitals, List.flatMap_append, List.flatMap_cons, List.append_assoc]
    · exfalso
      have hmem : d ∈ part.flatMap upper := List.mem_flatMap.mpr ⟨c, hc, hd⟩
      rw [hcapitals] at hmem
      have := toNat_lt_of_mem_aliases m name hname d hmem
      omega

/-! ## Parts -/

/-- How a text falls into parts: it is some stretches without a plus sign, with plus signs between
them, and the parts are the cores of these. -/
def IsParts (text : List Char) (ps : List (List Char)) : Prop :=
  ∃ stretches : List (List Char), stretches ≠ [] ∧ ['+'].intercalate stretches = text
    ∧ (∀ stretch ∈ stretches, '+' ∉ stretch) ∧ List.Forall₂ IsCore stretches ps

/-- The stretches of a text are found as lists are split everywhere. -/
theorem splitAtPlus_eq (cs : List Char) : splitAtPlus cs = cs.splitOn '+' := by
  induction cs with
  | nil => rfl
  | cons c cs ih =>
    rw [splitAtPlus, ih, List.splitOn_eq_splitOnP, List.splitOn_eq_splitOnP,
      List.splitOnP_cons_eq_if_modifyHead]
    simp only [beq_iff_eq]
    split
    · rfl
    · cases hsplit : List.splitOnP (· == '+') cs with
      | nil => exact absurd hsplit (List.splitOnP_ne_nil _ _)
      | cons part parts => rfl

/-- No stretch has a plus sign. -/
theorem not_mem_of_mem_splitAtPlus {cs : List Char} :
    ∀ stretch ∈ splitAtPlus cs, '+' ∉ stretch := by
  induction cs with
  | nil => simp [splitAtPlus]
  | cons c cs ih =>
    rw [splitAtPlus]
    split
    · intro stretch hmem
      rcases List.mem_cons.mp hmem with rfl | hmem
      · exact List.not_mem_nil
      · exact ih stretch hmem
    · next hc =>
      cases hsplit : splitAtPlus cs with
      | nil => simpa using Ne.symm hc
      | cons part parts =>
        rw [hsplit] at ih
        intro stretch hmem
        rcases List.mem_cons.mp hmem with rfl | hmem
        · rw [List.mem_cons, not_or]
          exact ⟨Ne.symm hc, ih part List.mem_cons_self⟩
        · exact ih stretch (List.mem_cons_of_mem part hmem)

/-- Cores are found one by one. -/
theorem forall₂_isCore_iff {stretches ps : List (List Char)} :
    List.Forall₂ IsCore stretches ps ↔ ps = stretches.map trim := by
  induction stretches generalizing ps with
  | nil => simp
  | cons stretch stretches ih =>
    cases ps with
    | nil => simp
    | cons p ps => rw [List.forall₂_cons, isCore_iff, ih, List.map_cons, List.cons.injEq]

/-- A text falls into parts in one way. -/
theorem isParts_iff {text : List Char} {ps : List (List Char)} :
    IsParts text ps ↔ ps = parts text := by
  rw [parts, splitAtPlus_eq]
  constructor
  · rintro ⟨stretches, hne, rfl, hplus, hcores⟩
    rw [List.splitOn_intercalate '+' hplus hne]
    exact forall₂_isCore_iff.mp hcores
  · rintro rfl
    refine ⟨text.splitOn '+', ?_, List.intercalate_splitOn '+', ?_, forall₂_isCore_iff.mpr rfl⟩
    · rw [List.splitOn_eq_splitOnP]
      exact List.splitOnP_ne_nil _ _
    · rw [← splitAtPlus_eq]
      exact not_mem_of_mem_splitAtPlus

/-- A text has one part at least. -/
theorem parts_ne_nil (text : List Char) : parts text ≠ [] := by
  rw [parts, splitAtPlus_eq, List.splitOn_eq_splitOnP]
  intro hnil
  exact List.splitOnP_ne_nil _ _ (List.map_eq_nil_iff.mp hnil)

/-! ## Collecting modifiers -/

/-- The members of a set to which modifiers are added. -/
theorem has_foldl_insert (ms : List Modifier) (ks : Modifiers) (m : Modifier) :
    (ms.foldl Modifiers.insert ks).has m = true ↔ m ∈ ms ∨ ks.has m = true := by
  induction ms generalizing ks with
  | nil => simp
  | cons m' ms ih =>
    rw [List.foldl_cons, ih, Modifiers.has_insert, Bool.or_eq_true, decide_eq_true_eq,
      List.mem_cons]
    constructor
    · rintro (h | rfl | h)
      · exact Or.inl (Or.inr h)
      · exact Or.inl (Or.inl rfl)
      · exact Or.inr h
    · rintro ((rfl | h) | h)
      · exact Or.inr (Or.inl rfl)
      · exact Or.inl h
      · exact Or.inr (Or.inr h)

/-- The members of the set of some modifiers. -/
theorem has_ofList (ms : List Modifier) (m : Modifier) :
    (Modifiers.ofList ms).has m = true ↔ m ∈ ms := by
  rw [Modifiers.ofList, has_foldl_insert, Modifiers.has_empty]
  simp

/-- Parts that name modifiers, all different and none of them in the set, are passed over, and
their modifiers are added. -/
theorem collect_append {ps : List (List Char)} {ms : List Modifier}
    (h : List.Forall₂ Names ps ms) (hnodup : ms.Nodup) {ks : Modifiers}
    (hnew : ∀ m ∈ ms, ks.has m = false) (rest : List (List Char)) :
    collect ks (ps ++ rest) = collect (ms.foldl Modifiers.insert ks) rest := by
  induction h generalizing ks with
  | nil => rfl
  | @cons p m ps ms hname _ ih =>
    have hne : p ≠ [] := by
      rintro rfl
      exact not_names_nil m hname
    obtain ⟨hm, hnodup⟩ := List.nodup_cons.mp hnodup
    have hfirst : ks.has m = false := hnew m List.mem_cons_self
    rw [List.cons_append, collect, if_neg hne, named?_eq_some_iff.mpr hname]
    simp only [hfirst, Bool.false_eq_true, if_false]
    apply ih hnodup
    intro m' hm'
    rw [Modifiers.has_insert, Bool.or_eq_false_iff, decide_eq_false_iff_not]
    refine ⟨?_, hnew m' (List.mem_cons_of_mem m hm')⟩
    rintro rfl
    exact hm hm'

/-- Parts that name different modifiers are read as the set of these. -/
theorem collect_of_names {ps : List (List Char)} {ms : List Modifier}
    (h : List.Forall₂ Names ps ms) (hnodup : ms.Nodup) :
    collect .empty ps = .ok (.ofList ms) := by
  have := collect_append h hnodup (fun m _ => Modifiers.has_empty m) []
  rwa [List.append_nil] at this

/-! ## Faults -/

/-- What is wrong with a part that comes after some others: it is blank, it names no modifier, or it
names one that a part before it names. -/
inductive Offends (earlier : List (List Char)) (part : List Char) : ParseFault → Prop
  | empty : part = [] → Offends earlier part .empty
  | unknown : part ≠ [] → (∀ m, ¬ Names part m) →
      Offends earlier part (.unknown (String.ofList part))
  | duplicate {m : Modifier} {other : List Char} : Names part m → other ∈ earlier →
      Names other m → Offends earlier part (.duplicate (String.ofList part))

/-- The modifiers that parts name, by the parts. -/
theorem mem_iff_of_names {ps : List (List Char)} {ms : List Modifier}
    (h : List.Forall₂ Names ps ms) (m : Modifier) : m ∈ ms ↔ ∃ p ∈ ps, Names p m := by
  constructor
  · intro hm
    obtain ⟨p, hp, hname⟩ := exists_of_mem_forall₂ h.flip hm
    exact ⟨p, hp, hname⟩
  · rintro ⟨p, hp, hname⟩
    obtain ⟨m', hm', hname'⟩ := exists_of_mem_forall₂ h hp
    rwa [hname.unique hname']

/-- The first part that does not go with those before it is reported, whatever comes after it. -/
theorem collect_of_offends {before after : List (List Char)} {part : List Char}
    {ms : List Modifier} (h : List.Forall₂ Names before ms) (hnodup : ms.Nodup)
    {fault : ParseFault} (hpart : Offends before part fault) :
    collect .empty (before ++ part :: after) = .error fault := by
  rw [collect_append h hnodup (fun m _ => Modifiers.has_empty m), ← Modifiers.ofList, collect]
  cases hpart with
  | empty hnil => rw [if_pos hnil]
  | unknown hne hno =>
    have hnone : named? part = none := by
      cases hn : named? part with
      | none => rfl
      | some m => exact absurd (named?_eq_some_iff.mp hn) (hno m)
    rw [if_neg hne, hnone]
  | @duplicate m other hname hother hsame =>
    have hne : part ≠ [] := by
      rintro rfl
      exact not_names_nil m hname
    have hhas : (Modifiers.ofList ms).has m = true :=
      (has_ofList ms m).mpr ((mem_iff_of_names h m).mpr ⟨other, hother, hsame⟩)
    rw [if_neg hne, named?_eq_some_iff.mpr hname]
    simp only [hhas, if_true]

/-- A part after some others names a modifier that none of them names, or there is something wrong
with it. -/
theorem fits_or_offends (earlier : List (List Char)) (part : List Char) :
    (∃ m, Names part m ∧ ∀ other ∈ earlier, ¬ Names other m)
      ∨ ∃ fault, Offends earlier part fault := by
  by_cases hnil : part = []
  · exact Or.inr ⟨_, .empty hnil⟩
  by_cases hnamed : ∃ m, Names part m
  · obtain ⟨m, hname⟩ := hnamed
    by_cases hsame : ∃ other ∈ earlier, Names other m
    · obtain ⟨other, hother, hsame⟩ := hsame
      exact Or.inr ⟨_, .duplicate hname hother hsame⟩
    · exact Or.inl ⟨m, hname, fun other hother h => hsame ⟨other, hother, h⟩⟩
  · exact Or.inr ⟨_, .unknown hnil fun m hname => hnamed ⟨m, hname⟩⟩

/-- Parts name modifiers that are all different, or there is a first one with which something is
wrong. -/
theorem named_or_offends (ps : List (List Char)) :
    (∃ ms, List.Forall₂ Names ps ms ∧ ms.Nodup)
      ∨ ∃ before part after ms fault, ps = before ++ part :: after
          ∧ List.Forall₂ Names before ms ∧ ms.Nodup ∧ Offends before part fault := by
  induction ps using List.reverseRecOn with
  | nil => exact Or.inl ⟨[], .nil, List.nodup_nil⟩
  | append_singleton ps p ih =>
    rcases ih with ⟨ms, hms, hnodup⟩ | ⟨before, part, after, ms, fault, rfl, hms, hnodup, hpart⟩
    · rcases fits_or_offends ps p with ⟨m, hname, hnew⟩ | ⟨fault, hp⟩
      · refine Or.inl ⟨ms ++ [m], List.rel_append hms (.cons hname .nil), ?_⟩
        have hm : m ∉ ms := by
          intro hm
          obtain ⟨q, hq, hqm⟩ := (mem_iff_of_names hms m).mp hm
          exact hnew q hq hqm
        exact hnodup.append (List.nodup_singleton m) (by simpa using hm)
      · exact Or.inr ⟨ps, p, [], ms, fault, rfl, hms, hnodup, hp⟩
    · refine Or.inr ⟨before, part, after ++ [p], ms, fault, ?_, hms, hnodup, hpart⟩
      rw [List.append_assoc, List.cons_append]

/-! ## Reading a hotkey -/

/-- A text whose parts name different modifiers is read as the set of these. -/
theorem parse_of_names {s : String} {ms : List Modifier}
    (h : List.Forall₂ Names (parts s.toList) ms) (hnodup : ms.Nodup) :
    parse s = .ok ⟨.ofList ms⟩ := by
  rw [parse, collect_of_names h hnodup]
  rfl

/-- A text is refused for the first part with which something is wrong. -/
theorem parse_of_offends {s : String} {before after : List (List Char)} {part : List Char}
    {ms : List Modifier} {fault : ParseFault} (hs : parts s.toList = before ++ part :: after)
    (h : List.Forall₂ Names before ms) (hnodup : ms.Nodup) (hpart : Offends before part fault) :
    parse s = .error fault := by
  rw [parse, hs, collect_of_offends h hnodup hpart]
  rfl

/-- A text that is read has parts that name different modifiers, and it is read as these. -/
theorem parse_eq_ok_iff {s : String} {h : Hotkey} :
    parse s = .ok h ↔ ∃ ms, List.Forall₂ Names (parts s.toList) ms ∧ ms.Nodup
      ∧ ∀ m, h.modifiers.has m = true ↔ m ∈ ms := by
  constructor
  · intro hparse
    rcases named_or_offends (parts s.toList) with
      ⟨ms, hms, hnodup⟩ | ⟨before, part, after, ms, fault, hs, hms, hnodup, hpart⟩
    · rw [parse_of_names hms hnodup, Except.ok.injEq] at hparse
      refine ⟨ms, hms, hnodup, ?_⟩
      intro m
      rw [← hparse, has_ofList]
    · rw [parse_of_offends hs hms hnodup hpart] at hparse
      cases hparse
  · rintro ⟨ms, hms, hnodup, hmem⟩
    have hset : Modifiers.ofList ms = h.modifiers := by
      apply Modifiers.ext_has
      intro m
      rw [Bool.eq_iff_iff, has_ofList, hmem]
    rw [parse_of_names hms hnodup, hset]

/-- A text that is refused has a first part with which something is wrong. -/
theorem parse_eq_error_iff {s : String} {fault : ParseFault} :
    parse s = .error fault ↔ ∃ before part after ms, parts s.toList = before ++ part :: after
      ∧ List.Forall₂ Names before ms ∧ ms.Nodup ∧ Offends before part fault := by
  constructor
  · intro hparse
    rcases named_or_offends (parts s.toList) with
      ⟨ms, hms, hnodup⟩ | ⟨before, part, after, ms, fault', hs, hms, hnodup, hpart⟩
    · rw [parse_of_names hms hnodup] at hparse
      cases hparse
    · rw [parse_of_offends hs hms hnodup hpart, Except.error.injEq] at hparse
      exact ⟨before, part, after, ms, hs, hms, hnodup, hparse ▸ hpart⟩
  · rintro ⟨before, part, after, ms, hs, hms, hnodup, hpart⟩
    exact parse_of_offends hs hms hnodup hpart

/-! ## Showing a hotkey -/

/-- The listed modifiers of a set are its members. -/
theorem mem_toList (ks : Modifiers) (m : Modifier) : m ∈ ks.toList ↔ ks.has m = true := by
  rw [Modifiers.toList, List.mem_filter, and_iff_right]
  cases m <;> decide

/-- No modifier is listed twice. -/
theorem nodup_toList (ks : Modifiers) : ks.toList.Nodup :=
  List.Nodup.filter _ (by decide)

/-- A title is the core of itself. -/
theorem isCore_title (m : Modifier) : IsCore m.title.toList m.title.toList := by
  rw [isCore_iff]
  cases m <;> decide

/-- A title has no plus sign. -/
theorem plus_not_mem_title (m : Modifier) : '+' ∉ m.title.toList := by
  cases m <;> decide

/-- A title names its modifier. -/
theorem names_title (m : Modifier) : Names m.title.toList m := by
  rw [← named?_eq_some_iff]
  cases m <;> decide

/-- The text of a hotkey falls into the titles of its modifiers. -/
theorem parts_display {h : Hotkey} (hne : h.modifiers.toList ≠ []) :
    parts h.display.toList = h.modifiers.toList.map (·.title.toList) := by
  apply Eq.symm
  rw [← isParts_iff]
  refine ⟨h.modifiers.toList.map (·.title.toList), ?_, ?_, ?_, ?_⟩
  · simpa using hne
  · rw [display, String.toList_intercalate, List.map_map]
    rfl
  · intro stretch hstretch
    obtain ⟨m, -, rfl⟩ := List.mem_map.mp hstretch
    exact plus_not_mem_title m
  · rw [List.forall₂_same]
    intro stretch hstretch
    obtain ⟨m, -, rfl⟩ := List.mem_map.mp hstretch
    exact isCore_title m

/-- The text of a hotkey with a modifier at least is read as this hotkey. -/
theorem parse_display {h : Hotkey} (hne : h.modifiers.toList ≠ []) : parse h.display = .ok h := by
  rw [parse_eq_ok_iff, parts_display hne]
  refine ⟨h.modifiers.toList, ?_, nodup_toList _, fun m => (mem_toList _ m).symm⟩
  rw [List.forall₂_map_left_iff, List.forall₂_same]
  intro m _
  exact names_title m

/-! ## The grammar -/

/-- **The grammar of hotkeys.**  A text falls into parts in one way. It is read exactly if its parts
name modifiers that are all different, and the hotkey has exactly these; it is refused exactly if
there is a first part with which something is wrong, and for that (so a blank text is refused as
empty). A hotkey that is read has a modifier at least, and its own text is read as this hotkey. A
text whose parts name the same modifiers, in any order and spelling, is read as the same hotkey. -/
theorem parse_grammar (s : String) :
    (∀ ps, IsParts s.toList ps ↔ ps = parts s.toList)
      ∧ (∀ h, parse s = .ok h ↔ ∃ ms, List.Forall₂ Names (parts s.toList) ms ∧ ms.Nodup
          ∧ ∀ m, h.modifiers.has m = true ↔ m ∈ ms)
      ∧ (∀ fault, parse s = .error fault ↔ ∃ before part after ms,
          parts s.toList = before ++ part :: after ∧ List.Forall₂ Names before ms ∧ ms.Nodup
            ∧ Offends before part fault)
      ∧ ((∀ c ∈ s.toList, isBlank c = true) → parse s = .error .empty)
      ∧ (∀ h, parse s = .ok h →
          (∃ m, h.modifiers.has m = true) ∧ parse h.display = .ok h)
      ∧ (∀ h t ms ms', parse s = .ok h → List.Forall₂ Names (parts s.toList) ms →
          List.Forall₂ Names (parts t.toList) ms' → ms'.Perm ms → parse t = .ok h) := by
  refine ⟨fun ps => isParts_iff, fun h => parse_eq_ok_iff, fun fault => parse_eq_error_iff,
    ?_, ?_, ?_⟩
  · intro hblank
    -- blanks are one stretch, and its core is empty
    have hparts : IsParts s.toList [[]] := by
      refine ⟨[s.toList], by simp, by simp, ?_, .cons ?_ .nil⟩
      · intro stretch hstretch hplus
        rw [List.mem_singleton.mp hstretch] at hplus
        exact absurd (hblank '+' hplus) (by decide)
      · rw [isCore_iff, trim_eq_nil hblank]
    have hps : parts s.toList = [] ++ [] :: [] := (isParts_iff.mp hparts).symm
    exact parse_of_offends hps .nil List.nodup_nil (.empty rfl)
  · intro h hparse
    obtain ⟨ms, hms, -, hmem⟩ := parse_eq_ok_iff.mp hparse
    have hsome : ∃ m, h.modifiers.has m = true := by
      cases hms' : ms with
      | nil =>
        rw [hms', List.forall₂_nil_right_iff] at hms
        exact absurd hms (parts_ne_nil _)
      | cons m rest => exact ⟨m, (hmem m).mpr (hms' ▸ List.mem_cons_self)⟩
    refine ⟨hsome, parse_display ?_⟩
    obtain ⟨m, hm⟩ := hsome
    exact List.ne_nil_of_mem ((mem_toList _ m).mpr hm)
  · intro h t ms ms' hparse hms hms' hperm
    obtain ⟨ks, hks, hnodup, hmem⟩ := parse_eq_ok_iff.mp hparse
    -- the parts name one list of modifiers only
    have hunique : Relator.RightUnique Names := fun _ _ _ h h' => h.unique h'
    obtain rfl := List.right_unique_forall₂' hunique hms hks
    refine parse_eq_ok_iff.mpr ⟨ms', hms', hperm.nodup_iff.mpr hnodup, ?_⟩
    intro m
    rw [hmem m, hperm.mem_iff]

/-- A text with blanks, an alias, a long s and a dotless i is read, and the two modifiers in the
other order and in full make the same hotkey. -/
theorem parse_grammar_beyond_ascii :
    parse " ctrl + ſhıft" = .ok ⟨.ofList [.control, .shift]⟩
      ∧ parse "SHIFT+Control" = .ok ⟨.ofList [.control, .shift]⟩ := by
  obtain ⟨-, hread, -, -, -, hsame⟩ := parse_grammar " ctrl + ſhıft"
  have hms : List.Forall₂ Names (parts " ctrl + ſhıft".toList) [.control, .shift] := by
    refine .cons ?_ (.cons ?_ .nil)
    · exact named?_eq_some_iff.mp (by decide)
    · exact named?_eq_some_iff.mp (by decide)
  have hms' : List.Forall₂ Names (parts "SHIFT+Control".toList) [.shift, .control] := by
    refine .cons ?_ (.cons ?_ .nil)
    · exact named?_eq_some_iff.mp (by decide)
    · exact named?_eq_some_iff.mp (by decide)
  have hfirst : parse " ctrl + ſhıft" = .ok ⟨.ofList [.control, .shift]⟩ := by
    refine (hread _).mpr ⟨_, hms, by decide, ?_⟩
    intro m
    cases m <;> decide
  exact ⟨hfirst, hsame _ _ _ _ hfirst hms hms' (.swap _ _ [])⟩

end HoldToRecord.Hotkey
