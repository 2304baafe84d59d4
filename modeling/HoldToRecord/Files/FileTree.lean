import HoldToRecord.Files.PathName

/-!
# The file tree

A `FileTree` holds directories, files, and sockets with their owner. The operations are those of the
system, with its faults: making directories, looking paths up, removing files, and putting files in
place. A path is walked name by name, and a `Spot` is how far one has come: it remembers the
directories on the way, so that two dots lead back. `FileTree.makeAll` makes a directory and all
that it stands in.
-/

namespace HoldToRecord.Files

/-- What can stand at a place. -/
inductive Node
  /-- Names, each with what stands there. -/
  | directory (entries : List (String × Node))
  | file
  /-- The file of a socket: the server that listens there, and who may use it. -/
  | socket (owner mode : Nat)

/-- Whether a node is a directory. -/
def Node.isDirectory : Node → Bool
  | directory _ => true
  | _ => false

/-- Faults of the system. -/
inductive OsFault
  | notFound
  | exists
  | notDirectory
  | isDirectory
  | nameTooLong
  | addressInUse
  /-- A name with a NUL is refused before the system is asked. -/
  | nulInName
  deriving DecidableEq, Repr

/-- The wording of each of them. -/
def OsFault.message : OsFault → String
  | .notFound => "No such file or directory (os error 2)"
  | .exists => "File exists (os error 17)"
  | .notDirectory => "Not a directory (os error 20)"
  | .isDirectory => "Is a directory (os error 21)"
  | .nameTooLong => "File name too long (os error 36)"
  | .addressInUse => "Address already in use (os error 98)"
  | .nulInName => "file name contained an unexpected NUL byte"

/-- A place: the names from the root to it. -/
abbrev Place := List String

/-- Entries with something else, or nothing, under a name. -/
def setEntry (new : Option Node) (name : String) (entries : List (String × Node)) :
    List (String × Node) :=
  let others := entries.filter (·.1 != name)
  match new with
  | none => others
  | some node => (name, node) :: others

/-- Entries with something else, or nothing, at a place; they stay as they are if a directory on the
way to it is missing. -/
def setAt (new : Option Node) : Place → List (String × Node) → List (String × Node)
  | [], entries => entries
  | [name], entries => setEntry new name entries
  | name :: rest, entries =>
    match entries.lookup name with
    | some (.directory inner) => setEntry (some (.directory (setAt new rest inner))) name entries
    | _ => entries

/-- Most bytes in one name. -/
def maxName : Nat := 255

/-- Most bytes in a path. -/
def maxPath : Nat := 4095

/-! ## Walking -/

/-- How far one has come on a way from the root: the names, the last one first, what stands there if
anything does, and the directories above, the nearest first. -/
structure Spot where
  names : List String
  here : Option Node
  above : List Node

namespace Spot

/-- The place that was reached. -/
def place (s : Spot) : Place := s.names.reverse

/-- The directory above; the root is above itself. -/
def up (s : Spot) : Spot :=
  match s.names, s.above with
  | _ :: names, node :: above => ⟨names, some node, above⟩
  | _, _ => s

/-- Goes on by one name, which need not stand there yet. -/
def step (s : Spot) (name : String) : Except OsFault Spot :=
  match s.here with
  | none => .error .notFound
  | some (.directory entries) =>
    if name == "." then .ok s
    else if name == ".." then .ok s.up
    else if maxName < (Text.Utf8.ofString name).length then .error .nameTooLong
    else .ok ⟨name :: s.names, entries.lookup name, .directory entries :: s.above⟩
  | some _ => .error .notDirectory

/-- Goes on by several names. -/
def walk (s : Spot) (names : List String) : Except OsFault Spot := names.foldlM step s

end Spot

/-! ## Trees -/

/-- What stands in the root directory. Relative paths start at `work`. -/
structure FileTree where
  entries : List (String × Node)
  work : Place

/-- A change of the tree in several parts: those before the first that fails are done. -/
abbrev Change (ε : Type) := FileTree → Except ε Unit × FileTree

/-- A change in one part: all of it is done or nothing. -/
def Change.whole {ε : Type} (f : FileTree → Except ε FileTree) : Change ε := fun t =>
  match f t with
  | .ok t => (.ok (), t)
  | .error fault => (.error fault, t)

/-- One change after another, unless the first fails. -/
def Change.andThen {ε : Type} (first second : Change ε) : Change ε := fun t =>
  match first t with
  | (.ok (), t) => second t
  | (.error fault, t) => (.error fault, t)

/-- A change with its fault seen as another one. -/
def Change.mapFault {ε δ : Type} (f : ε → δ) (change : Change ε) : Change δ := fun t =>
  ((change t).1.mapError f, (change t).2)

namespace FileTree

/-- A tree with nothing in it but the root. -/
def empty : FileTree := ⟨[], []⟩

/-- The root. -/
def root (t : FileTree) : Spot := ⟨[], some (.directory t.entries), []⟩

/-- The tree with a node at a place. -/
def put (t : FileTree) (place : Place) (node : Node) : FileTree :=
  { t with entries := setAt (some node) place t.entries }

/-- The tree with nothing at a place. -/
def erase (t : FileTree) (place : Place) : FileTree :=
  { t with entries := setAt none place t.entries }

/-- Where a path starts. -/
def origin (t : FileTree) (p : PathName) : Except OsFault Spot :=
  if p.isAbsolute then .ok t.root else t.root.walk t.work

/-- Refuses paths that the system does not take at all. -/
def checkPath (p : PathName) : Except OsFault Unit :=
  if p.hasNul then .error .nulInName
  else if p.isEmpty then .error .notFound
  else if maxPath < p.size then .error .nameTooLong
  else .ok ()

/-- Where a path leads; its last name need not stand there. -/
def target (t : FileTree) (p : PathName) : Except OsFault Spot := do
  checkPath p
  let start ← t.origin p
  start.walk p.names

/-- The place of a path and what stands there; a slash at the end asks for a directory. -/
def find (t : FileTree) (p : PathName) : Except OsFault (Place × Node) := do
  let spot ← t.target p
  match spot.here with
  | none => .error .notFound
  | some node =>
    if p.endsInSlash && !node.isDirectory then .error .notDirectory else .ok (spot.place, node)

/-- Whether something stands at a path. -/
def exists? (t : FileTree) (p : PathName) : Bool := (t.find p).toBool

/-- Whether a directory stands at a path. -/
def isDirectory (t : FileTree) (p : PathName) : Bool :=
  match t.find p with
  | .ok (_, node) => node.isDirectory
  | .error _ => false

/-- Makes a directory. -/
def make (t : FileTree) (p : PathName) : Except OsFault FileTree := do
  let spot ← t.target p
  if !p.endsInName || spot.here.isSome then .error .exists
  else .ok (t.put spot.place (.directory []))

/-- Makes a directory, unless there is one already. -/
def makeOrKeep (p : PathName) : Change OsFault := fun t =>
  match t.make p with
  | .ok t => (.ok (), t)
  | .error fault => (if t.isDirectory p then .ok () else .error fault, t)

/-- Makes a directory and those above it that are missing; `depth` bounds their number. -/
def makeWithin (depth : Nat) (p : PathName) : Change OsFault := fun t =>
  if p.isEmpty then (.ok (), t)
  else
    match t.make p, depth, p.parent? with
    | .error .notFound, depth + 1, some above =>
      (makeWithin depth above).andThen (makeOrKeep p) t
    | _, _, _ => makeOrKeep p t

/-- Makes a directory and those above it that are missing; one that is there is left alone. What was
made stays when one of them cannot be made. -/
def makeAll (p : PathName) : Change OsFault := makeWithin p.names.length p

/-- Puts a file at a path; one that is there is left alone. -/
def makeFile (t : FileTree) (p : PathName) : Except OsFault FileTree := do
  let spot ← t.target p
  match spot.here with
  | none => if p.endsInSlash then .error .isDirectory else .ok (t.put spot.place .file)
  | some node => if node.isDirectory then .error .isDirectory else .ok t

/-- Removes a file; directories are not removed. -/
def remove (t : FileTree) (p : PathName) : Except OsFault FileTree := do
  let spot ← t.target p
  match spot.here with
  | none => .error .notFound
  | some node =>
    if node.isDirectory then .error .isDirectory
    else if p.endsInSlash then .error .notDirectory
    else .ok (t.erase spot.place)

end FileTree

end HoldToRecord.Files
