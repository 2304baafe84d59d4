import Mathlib.Logic.Function.Basic
import HoldToRecord.Hook.Threads
import HoldToRecord.Session.Basic

/-!
# From the hook to the session

Hook threads publish the edges of the hotkey and refusals of permission, and a session handles what
they publish, oldest first. A `Recorder` is all of them: the starts with their threads, a watch for
each hook, the channel of signals, and the session. The parties take their turns in any order in
which each makes its own; a hook that finds the channel full waits.
-/

namespace HoldToRecord.Hook

open HoldToRecord.Channel HoldToRecord.Hotkey HoldToRecord.Time

/-- Whether a hook that ends in this way lacked permission. -/
def Ending.lacksPermission : Ending → Bool
  | .ok () => false
  | .error fault => fault.lacksPermission

/-- The starts and their hooks, known by their numbers; for each of them its watch, how its hook
returned, and whether it has yet to publish a refusal; the channel of signals; and the session. What
was published, and by which start, is kept, and so are the events of the session. -/
structure Recorder where
  hotkey : Hotkey
  threads : Threads
  watch : Nat → Watch
  ending : Nat → Option Ending
  owes : Nat → Bool
  signals : Bounded Signal
  session : Session
  published : List (Nat × Signal)
  events : List SessionEvent

namespace Recorder

/-- What one of the parties does in one turn. -/
inductive Turn
  /-- A start takes the flag, or finds that it is taken. -/
  | start
  /-- The thread of a start comes. -/
  | spawn (k : Nat)
  /-- A start fails after it has taken the flag. -/
  | abort (k : Nat) (fault : HookFault)
  /-- A stop clears the flag. -/
  | stop
  /-- A hook looks at the flag. -/
  | poll (k : Nat)
  /-- A hook sees a snapshot of the keyboard, and publishes the edge that it brings. -/
  | see (k : Nat) (snapshot : Modifiers) (instant : Instant)
  /-- A hook returns. -/
  | finish (k : Nat) (ending : Ending)
  /-- A start that lacked permission publishes a refusal. -/
  | refuse (k : Nat) (instant : Instant)
  /-- The thread of a hook that has returned clears the flag and is gone. -/
  | clear (k : Nat)
  /-- The session handles the oldest signal. -/
  | handle

/-- No start was made yet. -/
def create (hotkey : Hotkey) (capacity : Nat) : Recorder where
  hotkey := hotkey
  threads := .create
  watch := fun _ => .start hotkey
  ending := fun _ => none
  owes := fun _ => false
  signals := .create capacity
  session := .idle
  published := []
  events := []

/-- A start publishes a signal, if there is room for it. -/
def publish (r : Recorder) (k : Nat) (signal : Signal) : Option Recorder :=
  match r.signals.put signal with
  | .accepted signals =>
    some { r with signals := signals, published := r.published ++ [(k, signal)] }
  | _ => none

/-- A hook sees a snapshot, and publishes the edge that it brings. -/
def see (r : Recorder) (k : Nat) (snapshot : Modifiers) (instant : Instant) : Option Recorder :=
  let (edge, watch) := (r.watch k).see snapshot
  let r := { r with watch := Function.update r.watch k watch }
  match edge with
  | none => some r
  | some edge => r.publish k ⟨Publisher.kindOf edge, instant⟩

/-- A start publishes the refusal that it owes: one whose hook has returned waits for room, and one
that has failed does not, and may lose it. -/
def refuse (r : Recorder) (k : Nat) (instant : Instant) : Option Recorder :=
  let paid := (r.publish k ⟨.permissionDenied, instant⟩).map fun r =>
    { r with owes := Function.update r.owes k false }
  if r.threads.phase k = .over then
    some (paid.getD { r with owes := Function.update r.owes k false })
  else paid

/-- What a turn makes of the recorder; none if the party cannot take it now. -/
def step (r : Recorder) : Turn → Option Recorder
  | .start => (r.threads.step .start).map fun t => { r with threads := t }
  | .spawn k =>
    (r.threads.step (.spawn k)).map fun t =>
      { r with threads := t, watch := Function.update r.watch k (.start r.hotkey) }
  | .abort k fault =>
    (r.threads.step (.abort k)).map fun t =>
      { r with threads := t, owes := Function.update r.owes k (fault = .permissionDenied) }
  | .stop => (r.threads.step .stop).map fun t => { r with threads := t }
  | .poll k => (r.threads.step (.poll k)).map fun t => { r with threads := t }
  | .see k snapshot instant =>
    if r.threads.phase k = .polling ∨ r.threads.phase k = .leaving then r.see k snapshot instant
    else none
  | .finish k ending =>
    ((r.threads.step (.quit k)).or (r.threads.step (.leave k))).map fun t =>
      { r with
        threads := t
        ending := Function.update r.ending k (some ending)
        owes := Function.update r.owes k ending.lacksPermission }
  | .refuse k instant => if r.owes k then r.refuse k instant else none
  | .clear k =>
    if r.owes k then none else (r.threads.step (.clear k)).map fun t => { r with threads := t }
  | .handle =>
    match r.signals.take with
    | (some signal, signals) =>
      some { r with
        signals := signals
        session := (r.session.step signal).1
        events := r.events ++ (r.session.step signal).2 }
    | (none, _) => none

/-- The recorder after a schedule, if each turn of it could be taken. -/
def run (r : Recorder) (turns : List Turn) : Option Recorder := turns.foldlM step r

/-- No hook thread is there any more, and everything that was published was handled. -/
structure IsQuiet (r : Recorder) : Prop where
  ended : ∀ k, ¬ r.threads.IsAlive k
  handled : r.signals.queued = []

/-- A hook was lost: it returned while its hotkey was held, and not for want of permission. -/
def IsLost (r : Recorder) (k : Nat) : Prop :=
  (r.watch k).held = true ∧ ∃ ending, r.ending k = some ending ∧ ending.lacksPermission = false

end Recorder

end HoldToRecord.Hook
