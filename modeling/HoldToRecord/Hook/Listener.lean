import HoldToRecord.Hook.Publisher

/-!
# The hotkey listener

A listener starts and stops a hook, which runs on a thread of its own: it watches snapshots of the
keyboard, publishes the edges of the hotkey, and ends by itself or once the running flag is
cleared. The flag is shared: starting sets it, stopping clears it, and so does a hook when it ends.
A hook that lacked permission publishes one refusal before that.

`start` and `stop` let the hook go on until it has ended or only waits for the flag. Signals wait in
the channel until they are asked for; only when a hook finds it full is everything received that
waits, so that no hook waits for long. A refusal found before there is a hook is published without
waiting, and lost if the channel is full.
-/

namespace HoldToRecord.Hook

open HoldToRecord.Hotkey HoldToRecord.Time

/-- How a hook ends. -/
abbrev Ending := Except HookFault Unit

/-- What the platform will do when it is asked for a hook: the snapshots it delivers, whether it
then waits for the running flag to be cleared, and how it ends. -/
structure Plan where
  snapshots : List Modifiers
  waits : Bool
  ending : Ending

/-- A platform without keyboard hooks ends at once. -/
def Plan.unsupported : Plan := ⟨[], false, .error .unsupported⟩

/-- A listener: its hotkey, the running flag, the hook that waits for the flag (known by how it
will end), the publisher, and the signals that were received but not yet asked for. -/
structure Listener where
  hotkey : Hotkey
  running : Bool
  waiting : Option Ending
  publisher : Publisher
  inbox : List Signal

namespace Listener

/-- A listener that was never started. -/
def create (hotkey : Hotkey) (capacity : Nat) (clock : Nat → Instant) : Listener :=
  ⟨hotkey, false, none, .create capacity clock, []⟩

/-- Receives everything that waits in the channel. -/
def receiveAll (l : Listener) : Listener :=
  if l.publisher.channel.closed then l
  else
    { l with
      inbox := l.inbox ++ l.publisher.channel.queued
      publisher :=
        { l.publisher with channel := { l.publisher.channel with queued := [] } } }

/-- Receives what waits if there is no room for another signal. -/
def makeRoom (l : Listener) : Listener :=
  if l.publisher.channel.isFull then l.receiveAll else l

/-- Publishes a signal of a hook, for which room is made first; the fault if nobody receives. -/
def publish (l : Listener) (kind : SignalKind) : Ending × Listener :=
  match l.makeRoom.publisher.publish kind with
  | (.sent, p) => (.ok (), { l.makeRoom with publisher := p })
  | (.failed fault, p) => (.error fault, { l.makeRoom with publisher := p })
  | (.wouldBlock, p) => (.error .channelSend, { l.makeRoom with publisher := p })

/-- Publishes the edges that snapshots bring, up to the first that cannot be sent. -/
def deliver (l : Listener) (w : Watch) : List Modifiers → Ending × Listener
  | [] => (.ok (), l)
  | snapshot :: rest =>
    match w.see snapshot with
    | (none, w) => l.deliver w rest
    | (some edge, w) =>
      match l.publish (Publisher.kindOf edge) with
      | (.ok (), l) => l.deliver w rest
      | (.error fault, l) => (.error fault, l)

/-- The end of a hook: a lack of permission is published, and the flag is cleared. -/
def finish (l : Listener) (ending : Ending) : Listener :=
  match ending with
  | .ok () => { l with running := false, waiting := none }
  | .error fault =>
    let l := if fault.lacksPermission then (l.publish .permissionDenied).2 else l
    { l with running := false, waiting := none }

/-- The run of a hook until it has ended or waits for the flag. -/
def runHook (l : Listener) (plan : Plan) : Listener :=
  match l.deliver (.start l.hotkey) plan.snapshots with
  | (.error fault, l) => l.finish (.error fault)
  | (.ok (), l) =>
    if plan.waits then { l with waiting := some plan.ending } else l.finish plan.ending

/-- Starts the listener: a running one is left alone, and a failed check of permission leaves it
stopped, a refusal being published without waiting. -/
def start (l : Listener) (check : Ending) (plan : Plan) : Ending × Listener :=
  if l.running then (.error .alreadyRunning, l)
  else
    match check with
    | .ok () => (.ok (), { l with running := true }.runHook plan)
    | .error fault =>
      if fault = .permissionDenied then
        (.error fault, { l with publisher := (l.publisher.tryPublish .permissionDenied).2 })
      else (.error fault, l)

/-- Stops the listener; a hook that waited for it ends. -/
def stop (l : Listener) : Listener :=
  match l.waiting with
  | none => { l with running := false }
  | some ending => { l with running := false }.finish ending

/-- The receiver of signals goes away, and the signals not yet asked for with it. -/
def close (l : Listener) : Listener :=
  { l with
    inbox := []
    publisher := { l.publisher with channel := l.publisher.channel.close } }

/-- The signals received since the last time, oldest first. -/
def collect (l : Listener) : List Signal × Listener :=
  (l.receiveAll.inbox, { l.receiveAll with inbox := [] })

end Listener

end HoldToRecord.Hook
