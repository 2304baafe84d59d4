import HoldToRecord.Text.Utf8

/-!
# Paths

A path is a text of names with slashes between. Empty stretches and single dots mean nothing, except
that a dot may be all there is; two dots mean the directory above. `PathName.join` puts one path
under another and `PathName.parent?` leaves out the last name.
-/

namespace HoldToRecord.Files

/-- A path as it is written. -/
structure PathName where
  text : String
  deriving DecidableEq, Repr

/-- The stretches of a text between slashes. -/
def splitAtSlash : List Char → List (List Char)
  | [] => [[]]
  | c :: cs =>
    if c = '/' then [] :: splitAtSlash cs
    else
      match splitAtSlash cs with
      | [] => [[c]]
      | part :: parts => (c :: part) :: parts

namespace PathName

/-- Whether a path starts at the root. -/
def isAbsolute (p : PathName) : Bool := p.text.toList.head? == some '/'

/-- Whether a path ends in a slash. -/
def endsInSlash (p : PathName) : Bool := p.text.toList.getLast? == some '/'

/-- The names in a path, dots among them. -/
def names (p : PathName) : List String :=
  ((splitAtSlash p.text.toList).filter (!·.isEmpty)).map String.ofList

/-- Whether a path ends in a name of its own, neither a dot nor two. -/
def endsInName (p : PathName) : Bool :=
  match p.names.getLast? with
  | none => false
  | some name => name != "." && name != ".."

/-- Whether a path has nothing in it. -/
def isEmpty (p : PathName) : Bool := p.text.toList.isEmpty

/-- How many bytes a path takes. -/
def size (p : PathName) : Nat := (Text.Utf8.ofString p.text).length

/-- Whether a path holds a NUL, which no file name does. -/
def hasNul (p : PathName) : Bool := p.text.toList.contains '\x00'

/-- A path under another one; an absolute path replaces it. -/
def join (p q : PathName) : PathName :=
  if q.isAbsolute then q
  else if p.isEmpty || p.endsInSlash then ⟨p.text ++ q.text⟩
  else ⟨p.text ++ "/" ++ q.text⟩

/-- Leaves out the last stretches that say nothing, from stretches with the last one first: empty
ones, and dots, except for a dot that the path starts with. -/
def dropVoid : List (List Char) → List (List Char)
  | [] => []
  | part :: rest =>
    if part.isEmpty || (part == ['.'] && !rest.isEmpty) then dropVoid rest else part :: rest

/-- The text of stretches with slashes between, the last one first. -/
def joinBack (parts : List (List Char)) : String :=
  String.ofList (List.intercalate ['/'] parts.reverse)

/-- The path without its last name and what comes after that; all before it stays as it is
written. -/
def parent? (p : PathName) : Option PathName :=
  match dropVoid (splitAtSlash p.text.toList).reverse with
  | [] => none
  | _ :: rest =>
    match dropVoid rest with
    | [] => some ⟨if p.isAbsolute then "/" else ""⟩
    | part :: rest => some ⟨joinBack (part :: rest)⟩

end PathName

end HoldToRecord.Files
