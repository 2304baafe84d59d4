import HoldToRecord.Hook.Listener

/-!
# Hook threads

A listener's starts and stops and the hook threads run side by side, and only share the running flag.
Every access to the flag is a step of its own, and the steps may come in any order in which each
party makes its own: a start takes the flag and then has a thread come, or gives the flag back; a
hook looks at the flag from time to time, returns some time after it has seen the flag cleared or by
itself, and its thread clears the flag last; a stop clears the flag and waits for nothing.
-/

namespace HoldToRecord.Hook

/-- How far a start has come that has taken the flag. -/
inductive Phase
  /-- It has not taken the flag yet. -/
  | absent
  /-- It has taken the flag, and its thread is not there yet. -/
  | starting
  /-- Its hook goes on, and looks at the flag from time to time. -/
  | polling
  /-- Its hook has seen the flag cleared and will return. -/
  | leaving
  /-- Its hook has returned, and the thread will clear the flag. -/
  | returned
  /-- Its thread is gone, or never came. -/
  | over
  deriving DecidableEq, Repr

/-- The running flag, how many starts have taken it, and how far each of them has come; they are
numbered in the order in which they took it. -/
structure Threads where
  flag : Bool
  taken : Nat
  phase : Nat → Phase

/-- What one of the parties does in one step. -/
inductive Move
  /-- A start takes the flag, or finds that it is taken. -/
  | start
  /-- The thread of a start comes, and the start has succeeded. -/
  | spawn (k : Nat)
  /-- A start fails after it has taken the flag, and clears it. -/
  | abort (k : Nat)
  /-- A stop clears the flag. -/
  | stop
  /-- A hook looks at the flag. -/
  | poll (k : Nat)
  /-- A hook returns by itself. -/
  | quit (k : Nat)
  /-- A hook that has seen the flag cleared returns. -/
  | leave (k : Nat)
  /-- The thread of a hook that has returned clears the flag and is gone. -/
  | clear (k : Nat)
  deriving DecidableEq, Repr

namespace Threads

/-- No start was made yet. -/
def create : Threads := ⟨false, 0, fun _ => .absent⟩

/-- A start comes to another phase. -/
def set (s : Threads) (k : Nat) (p : Phase) : Threads :=
  { s with phase := fun j => if j = k then p else s.phase j }

/-- The next start takes the flag. -/
def take (s : Threads) : Threads :=
  { s.set s.taken .starting with flag := true, taken := s.taken + 1 }

/-- A start is over, and the flag is cleared. -/
def release (s : Threads) (k : Nat) : Threads := { s.set k .over with flag := false }

/-- What a move makes of the threads; none if the party cannot make it now. -/
def step (s : Threads) : Move → Option Threads
  | .start => some (if s.flag then s else s.take)
  | .spawn k => if s.phase k = .starting then some (s.set k .polling) else none
  | .abort k => if s.phase k = .starting then some (s.release k) else none
  | .stop => some { s with flag := false }
  | .poll k =>
    if s.phase k = .polling then some (if s.flag then s else s.set k .leaving) else none
  | .quit k => if s.phase k = .polling then some (s.set k .returned) else none
  | .leave k => if s.phase k = .leaving then some (s.set k .returned) else none
  | .clear k => if s.phase k = .returned then some (s.release k) else none

/-- Makes moves one after the other; none if one of them cannot be made. -/
def run (s : Threads) : List Move → Option Threads
  | [] => some s
  | m :: ms => (s.step m).bind fun s => s.run ms

/-- Whether the thread of a start is there. -/
def IsAlive (s : Threads) (k : Nat) : Prop :=
  s.phase k = .polling ∨ s.phase k = .leaving ∨ s.phase k = .returned

/-- Whether a start has taken the flag and its thread is not gone yet. -/
def IsUnderWay (s : Threads) (k : Nat) : Prop := s.phase k = .starting ∨ s.IsAlive k

end Threads

end HoldToRecord.Hook
