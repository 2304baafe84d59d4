import HoldToRecord.Files.Socket

/-!
# Several servers at one path

Servers that listen at the same path may be started and shut down by several processes, whose lives
overlap. All that a server asks of the system at once is a step of its own, and between two of its
steps the others may go on: to look at the path is one step, and to remove what was seen there is the
next one.
-/

namespace HoldToRecord.Files

/-- How far a server has come. -/
inductive Stage
  /-- Its start will make the directory above the path. -/
  | fresh
  /-- Its start will look whether something stands at the path. -/
  | looking
  /-- Its start has seen something there and will remove it. -/
  | clearing
  /-- Its start will create the socket's file. -/
  | binding
  /-- Its start has created the file and will set the permission bits. -/
  | bound
  /-- It was started and was not shut down. -/
  | running
  /-- Its start has failed. -/
  | failed (fault : SocketFault)
  /-- It is shut down and will look whether something stands at the path. -/
  | closing
  /-- It is shut down, has seen something there and will remove it. -/
  | leaving
  /-- Its shutdown is done. -/
  | gone
  deriving DecidableEq, Repr

/-- The path of the servers, how far each of them has come, by its number, and the file tree. -/
structure Instances where
  path : PathName
  stage : Nat → Stage
  tree : FileTree

namespace Instances

/-- No server was started yet. -/
def create (path : PathName) (tree : FileTree) : Instances := ⟨path, fun _ => .fresh, tree⟩

/-- What happens at once. -/
inductive Move
  /-- A server takes the next step of its start or of its shutdown. -/
  | proceed (k : Nat)
  /-- A server that was started is shut down: one that runs, or once more one whose shutdown is done. -/
  | shutdown (k : Nat)
  deriving DecidableEq, Repr

/-- A server comes to another stage. -/
def set (s : Instances) (k : Nat) (stage : Stage) : Instances :=
  { s with stage := fun j => if j = k then stage else s.stage j }

/-- The start of a server changes the tree, and goes on if it could. -/
def attempt (s : Instances) (k : Nat) (change : Change SocketFault) (next : Stage) : Instances :=
  match change s.tree with
  | (.ok (), t) => { s.set k next with tree := t }
  | (.error fault, t) => { s.set k (.failed fault) with tree := t }

/-- A server takes its next step; one that runs, or that is done, has none. -/
def proceed (s : Instances) (k : Nat) : Instances :=
  match s.stage k with
  | .fresh => s.attempt k ((FileTree.makeAbove s.path).mapFault .directory) .looking
  | .looking => s.set k (if s.tree.exists? s.path then .clearing else .binding)
  | .clearing => s.attempt k ((Change.whole (·.remove s.path)).mapFault .stale) .binding
  | .binding => s.attempt k ((Change.whole (FileTree.bind k s.path)).mapFault .bind) .bound
  | .bound =>
    s.attempt k ((Change.whole (FileTree.setMode FileTree.ownerOnly s.path)).mapFault .permissions)
      .running
  | .closing => s.set k (if s.tree.exists? s.path then .leaving else .gone)
  | .leaving => { s.set k .gone with tree := (Change.whole (·.remove s.path) s.tree).2 }
  | _ => s

/-- What a move makes of the servers. -/
def step (s : Instances) : Move → Instances
  | .proceed k => s.proceed k
  | .shutdown k => if s.stage k = .running ∨ s.stage k = .gone then s.set k .closing else s

/-- Moves one after the other. -/
def run (s : Instances) (moves : List Move) : Instances := moves.foldl step s

/-- Whether the path leads to a server. -/
def LeadsTo (s : Instances) (k : Nat) : Prop := ∃ mode, s.tree.socketAt? s.path = some (k, mode)

end Instances

end HoldToRecord.Files
