import HoldToRecord.Hotkey.Modifiers
import HoldToRecord.Text.Blank

/-!
# Hotkeys

A hotkey is a set of modifiers that have to be held together, such as `Control+Option`. It is
written with plus signs between the modifiers; `parse` reads their names in any case, with blanks
around them, and reports the first part that does not fit.
-/

namespace HoldToRecord

open HoldToRecord.Hotkey HoldToRecord.Text

/-- The modifiers that have to be held together. -/
structure Hotkey where
  modifiers : Modifiers
  deriving DecidableEq, Repr

namespace Hotkey

/-- The hotkey that is used when none is chosen. -/
def standard : Hotkey := ⟨.ofList [.control, .option]⟩

/-- Whether a snapshot holds the hotkey; further modifiers do not matter. -/
def isHeld (h : Hotkey) (snapshot : Modifiers) : Bool := snapshot.contains h.modifiers

/-- The text of a hotkey. -/
def display (h : Hotkey) : String :=
  String.intercalate "+" (h.modifiers.toList.map Modifier.title)

/-! ## Reading -/

/-- Why a text is no hotkey. -/
inductive ParseFault
  /-- The text or a part of it is blank. -/
  | empty
  /-- A part names no modifier. -/
  | unknown (part : String)
  /-- A part names a modifier that was named before. -/
  | duplicate (part : String)
  deriving DecidableEq, Repr

/-- The wording of each of them. -/
def ParseFault.message : ParseFault → String
  | .empty => "empty hotkey string"
  | .unknown part => "unknown modifier: " ++ part
  | .duplicate part => "modifier listed twice: " ++ part

/-- The capital of a letter, as far as modifiers are spelt with it: the dotless i and the long s
have the capitals `I` and `S`. -/
def capital (c : Char) : Char :=
  if c = 'ı' then 'I' else if c = 'ſ' then 'S' else c.toUpper

/-- The names of the modifiers, in capitals. -/
def names : List (List Char × Modifier) :=
  [(['C', 'O', 'N', 'T', 'R', 'O', 'L'], .control), (['C', 'T', 'R', 'L'], .control),
    (['O', 'P', 'T', 'I', 'O', 'N'], .option), (['A', 'L', 'T'], .option),
    (['C', 'O', 'M', 'M', 'A', 'N', 'D'], .command), (['C', 'M', 'D'], .command),
    (['S', 'U', 'P', 'E', 'R'], .command), (['S', 'H', 'I', 'F', 'T'], .shift)]

/-- The modifier that a part without blanks at its ends names. -/
def named? (part : List Char) : Option Modifier := names.lookup (part.map capital)

/-- The stretches of a text between its plus signs. -/
def splitAtPlus : List Char → List (List Char)
  | [] => [[]]
  | c :: cs =>
    if c = '+' then [] :: splitAtPlus cs
    else
      match splitAtPlus cs with
      | [] => [[c]]
      | part :: parts => (c :: part) :: parts

/-- The parts of a text: what stands between plus signs, without the blanks around it. -/
def parts (cs : List Char) : List (List Char) := (splitAtPlus cs).map trim

/-- Adds the modifiers that parts name to a set, from left to right. -/
def collect (ms : Modifiers) : List (List Char) → Except ParseFault Modifiers
  | [] => .ok ms
  | part :: rest =>
    if part = [] then .error .empty
    else
      match named? part with
      | none => .error (.unknown (String.ofList part))
      | some m =>
        if ms.has m then .error (.duplicate (String.ofList part))
        else collect (ms.insert m) rest

/-- The hotkey that a text names. -/
def parse (s : String) : Except ParseFault Hotkey :=
  (collect .empty (parts s.toList)).map fun ms => ⟨ms⟩

end Hotkey

end HoldToRecord
