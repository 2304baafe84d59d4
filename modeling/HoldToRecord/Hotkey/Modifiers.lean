/-!
# Modifier keys

The four modifier keys and sets of them. A keyboard snapshot is the set of the modifiers that are
held at one moment; `has_insert` and `contains_iff` say what the operations on sets do to their
members.
-/

namespace HoldToRecord.Hotkey

/-- A modifier key. -/
inductive Modifier
  | control
  | option
  | command
  | shift
  deriving DecidableEq, Repr

/-- The modifier keys in the order in which they are listed. -/
def Modifier.all : List Modifier := [.control, .option, .command, .shift]

/-- The name under which a modifier is shown. -/
def Modifier.title : Modifier → String
  | .control => "Control"
  | .option => "Option"
  | .command => "Command"
  | .shift => "Shift"

/-- A set of modifier keys. -/
structure Modifiers where
  control : Bool
  option : Bool
  command : Bool
  shift : Bool
  deriving DecidableEq, Repr

namespace Modifiers

/-- No modifier. -/
def empty : Modifiers := ⟨false, false, false, false⟩

/-- Whether a modifier is in the set. -/
def has (ms : Modifiers) : Modifier → Bool
  | .control => ms.control
  | .option => ms.option
  | .command => ms.command
  | .shift => ms.shift

/-- The set with one modifier more. -/
def insert (ms : Modifiers) : Modifier → Modifiers
  | .control => { ms with control := true }
  | .option => { ms with option := true }
  | .command => { ms with command := true }
  | .shift => { ms with shift := true }

/-- The set of the modifiers in a list. -/
def ofList (list : List Modifier) : Modifiers := list.foldl insert empty

/-- The modifiers of the set in their listed order. -/
def toList (ms : Modifiers) : List Modifier := Modifier.all.filter ms.has

/-- Whether every modifier of `required` is in `held`. -/
def contains (held required : Modifiers) : Bool :=
  (!required.control || held.control) && (!required.option || held.option) &&
    (!required.command || held.command) && (!required.shift || held.shift)

/-- Nothing is in the empty set. -/
@[simp] theorem has_empty (m : Modifier) : empty.has m = false := by
  cases m <;> rfl

/-- After an insertion the set has the new modifier and those it had before. -/
@[simp] theorem has_insert (ms : Modifiers) (a b : Modifier) :
    (ms.insert a).has b = (decide (a = b) || ms.has b) := by
  cases a <;> cases b <;> simp [insert, has]

/-- Sets with the same members are equal. -/
theorem ext_has {as bs : Modifiers} (h : ∀ m, as.has m = bs.has m) : as = bs := by
  have hc := h .control
  have ho := h .option
  have hm := h .command
  have hs := h .shift
  cases as
  cases bs
  simp_all [has]

/-- A set holds another one exactly when it has each of its members. -/
theorem contains_iff (held required : Modifiers) :
    held.contains required = true ↔ ∀ m, required.has m = true → held.has m = true := by
  constructor
  · intro h m
    cases m <;> grind [contains, has]
  · intro h
    have hc := h .control
    have ho := h .option
    have hm := h .command
    have hs := h .shift
    grind [contains, has]

end Modifiers

end HoldToRecord.Hotkey
