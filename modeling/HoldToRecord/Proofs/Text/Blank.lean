import Mathlib.Tactic
import HoldToRecord.Text.Blank

/-!
# Texts without the blanks around them

`IsCore text core` says what trimming a text means: blanks stand before and behind the core, and the
core neither starts nor ends with one. There is one such core for each text, the one that `trim`
gives (`isCore_iff`).
-/

namespace HoldToRecord.Text

/-- The core of a text: what is left of it without the blanks at its two ends. -/
structure IsCore (text core : List Char) : Prop where
  exists_blanks : ∃ front back, text = front ++ core ++ back
    ∧ (∀ c ∈ front, isBlank c = true) ∧ ∀ c ∈ back, isBlank c = true
  first : ∀ c, core.head? = some c → isBlank c = false
  last : ∀ c, core.getLast? = some c → isBlank c = false

/-- Blanks in front are dropped. -/
theorem trimStart_append {front : List Char} (h : ∀ c ∈ front, isBlank c = true)
    (cs : List Char) : trimStart (front ++ cs) = trimStart cs := by
  induction front with
  | nil => rfl
  | cons c front ih =>
    rw [List.cons_append, trimStart_cons_blank _ (h c List.mem_cons_self)]
    exact ih fun d hd => h d (List.mem_cons_of_mem c hd)

/-- A text that starts with no blank is not shortened in front. -/
theorem trimStart_of_first {cs : List Char} (h : ∀ c, cs.head? = some c → isBlank c = false) :
    trimStart cs = cs := by
  cases cs with
  | nil => rfl
  | cons c cs => exact trimStart_cons_ink cs (h c rfl)

/-- At the end a text is trimmed as its mirror image is in front. -/
theorem trimEnd_eq (cs : List Char) : trimEnd cs = (trimStart cs.reverse).reverse := rfl

/-- Blanks behind are dropped. -/
theorem trimEnd_append {back : List Char} (h : ∀ c ∈ back, isBlank c = true) (cs : List Char) :
    trimEnd (cs ++ back) = trimEnd cs := by
  rw [trimEnd_eq, List.reverse_append, trimStart_append, ← trimEnd_eq]
  intro c hc
  exact h c (List.mem_reverse.mp hc)

/-- A text that ends with no blank is not shortened at its end. -/
theorem trimEnd_of_last {cs : List Char} (h : ∀ c, cs.getLast? = some c → isBlank c = false) :
    trimEnd cs = cs := by
  rw [trimEnd_eq, trimStart_of_first, List.reverse_reverse]
  intro c hc
  rw [List.head?_reverse] at hc
  exact h c hc

/-- A text is the blanks in front of it and the rest, which starts with none. -/
theorem exists_front (cs : List Char) :
    ∃ front, cs = front ++ trimStart cs ∧ (∀ c ∈ front, isBlank c = true)
      ∧ ∀ c, (trimStart cs).head? = some c → isBlank c = false := by
  induction cs with
  | nil => exact ⟨[], rfl, nofun, nofun⟩
  | cons c cs ih =>
    cases hc : isBlank c with
    | true =>
      obtain ⟨front, heq, hfront, hfirst⟩ := ih
      rw [trimStart_cons_blank cs hc]
      refine ⟨c :: front, by rw [List.cons_append, ← heq], ?_, hfirst⟩
      intro d hd
      rcases List.mem_cons.mp hd with rfl | hd
      · exact hc
      · exact hfront d hd
    | false =>
      rw [trimStart_cons_ink cs hc]
      refine ⟨[], rfl, nofun, ?_⟩
      intro d hd
      rw [List.head?_cons, Option.some.injEq] at hd
      exact hd ▸ hc

/-- A text is a rest that ends with no blank, and the blanks behind it. -/
theorem exists_back (cs : List Char) :
    ∃ back, cs = trimEnd cs ++ back ∧ (∀ c ∈ back, isBlank c = true)
      ∧ ∀ c, (trimEnd cs).getLast? = some c → isBlank c = false := by
  obtain ⟨front, heq, hfront, hfirst⟩ := exists_front cs.reverse
  refine ⟨front.reverse, ?_, ?_, ?_⟩
  · rw [trimEnd_eq, ← List.reverse_append, ← heq, List.reverse_reverse]
  · intro c hc
    exact hfront c (List.mem_reverse.mp hc)
  · intro c hc
    rw [trimEnd_eq, List.getLast?_reverse] at hc
    exact hfirst c hc

/-- The core of a text is what trimming leaves of it. -/
theorem isCore_iff {text core : List Char} : IsCore text core ↔ core = trim text := by
  constructor
  · rintro ⟨⟨front, back, rfl, hfront, hback⟩, hfirst, hlast⟩
    rw [trim, List.append_assoc, trimStart_append hfront]
    cases core with
    | nil =>
      -- of nothing but blanks nothing is left
      rw [List.nil_append, (trimStart_eq_nil_iff back).mpr hback]
      rfl
    | cons c core =>
      rw [List.cons_append, trimStart_cons_ink _ (hfirst c rfl), ← List.cons_append,
        trimEnd_append hback, trimEnd_of_last hlast]
  · rintro rfl
    obtain ⟨front, heq, hfront, hfirst⟩ := exists_front text
    obtain ⟨back, heq', hback, hlast⟩ := exists_back (trimStart text)
    refine ⟨⟨front, back, ?_, hfront, hback⟩, ?_, hlast⟩
    · rw [trim, List.append_assoc, ← heq', ← heq]
    · intro c hc
      apply hfirst
      rw [heq', List.head?_append]
      show ((trim text).head?.or back.head?) = some c
      rw [hc, Option.some_or]

/-- A text of blanks has an empty core. -/
theorem trim_eq_nil {text : List Char} (h : ∀ c ∈ text, isBlank c = true) : trim text = [] := by
  rw [trim, (trimStart_eq_nil_iff text).mpr h]
  rfl

end HoldToRecord.Text
