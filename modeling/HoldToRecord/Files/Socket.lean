import HoldToRecord.Files.FileTree

/-!
# The file of a socket

A server listens at a path. `occupy` prepares the path (the directory above it is made, a file left
there is removed) and creates the socket's file, for its owner alone; `release` removes whatever
stands at the path.
-/

namespace HoldToRecord.Files

/-- Why no socket can be created at a path. -/
inductive BindFault
  | nulInPath
  | tooLong
  | unfiledTooLong
  | os (fault : OsFault)
  deriving DecidableEq, Repr

/-- The wording of each of them. -/
def BindFault.message : BindFault → String
  | .nulInPath => "paths must not contain interior null bytes"
  | .tooLong => "path must be shorter than SUN_LEN"
  | .unfiledTooLong => "abstract socket name must be shorter than SUN_LEN"
  | .os fault => fault.message

/-- How many bytes the address of a socket has room for. A path leaves one of them for the NUL that
ends it; a name without a file starts with a NUL and may fill them all. -/
def socketPathLimit : Nat := 108

/-- Why a server cannot listen. -/
inductive SocketFault
  | directory (fault : OsFault)
  | stale (fault : OsFault)
  | bind (fault : BindFault)
  | permissions (fault : OsFault)
  deriving DecidableEq, Repr

/-- The wording of each of them. -/
def SocketFault.message : SocketFault → String
  | .directory _ => "failed to create socket directory"
  | .stale _ => "failed to remove stale socket"
  | .bind _ => "failed to bind Unix socket"
  | .permissions _ => "failed to set socket permissions"

/-- The wording of what caused it. -/
def SocketFault.cause : SocketFault → String
  | .directory fault => fault.message
  | .stale fault => fault.message
  | .bind fault => fault.message
  | .permissions fault => fault.message

namespace FileTree

/-- Permission bits of a fresh socket. -/
def freshMode : Nat := 0o755

/-- Permission bits that let the owner alone read and write. -/
def ownerOnly : Nat := 0o600

/-- Whether a socket's path is a name without a file: none at all, or one that starts with a NUL. -/
def isUnfiled (p : PathName) : Bool := p.isEmpty || p.text.toList.head? == some '\x00'

/-- Creates the file of a socket; one without a file needs none. -/
def bind (owner : Nat) (p : PathName) (t : FileTree) : Except BindFault FileTree :=
  if isUnfiled p then
    if socketPathLimit < p.size then .error .unfiledTooLong else .ok t
  else if p.hasNul then .error .nulInPath
  else if socketPathLimit ≤ p.size then .error .tooLong
  else
    match t.target p with
    | .error fault => .error (.os fault)
    | .ok spot =>
      if !p.endsInName || spot.here.isSome then .error (.os .addressInUse)
      else if p.endsInSlash then .error (.os .notFound)
      else .ok (t.put spot.place (.socket owner freshMode))

/-- Sets the permission bits of what stands at a path. -/
def setMode (mode : Nat) (p : PathName) (t : FileTree) : Except OsFault FileTree := do
  let (place, node) ← t.find p
  match node with
  | .socket owner _ => .ok (t.put place (.socket owner mode))
  | _ => .ok t

/-- Makes the directory above a path. -/
def makeAbove (p : PathName) : Change OsFault :=
  match p.parent? with
  | none => fun t => (.ok (), t)
  | some above => makeAll above

/-- Removes what is left at a path. -/
def clear (p : PathName) (t : FileTree) : Except OsFault FileTree :=
  if t.exists? p then t.remove p else .ok t

/-- Prepares a path and creates the file of a server's socket there. -/
def occupy (owner : Nat) (p : PathName) : Change SocketFault :=
  ((makeAbove p).mapFault .directory).andThen <|
    ((Change.whole (clear p)).mapFault .stale).andThen <|
      ((Change.whole (bind owner p)).mapFault .bind).andThen <|
        (Change.whole (setMode ownerOnly p)).mapFault .permissions

/-- Removes what stands at a path, if it can be removed. -/
def release (p : PathName) (t : FileTree) : FileTree := (Change.whole (clear p) t).2

/-- The socket at a path: its owner and its permission bits. -/
def socketAt? (t : FileTree) (p : PathName) : Option (Nat × Nat) :=
  match t.find p with
  | .ok (_, .socket owner mode) => some (owner, mode)
  | _ => none

end FileTree

end HoldToRecord.Files
