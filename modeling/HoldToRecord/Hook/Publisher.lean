import HoldToRecord.Channel.Bounded
import HoldToRecord.Hook.Fault
import HoldToRecord.Hotkey.Watch
import HoldToRecord.Signal

/-!
# Publishing signals

A `Publisher` stamps signals with the reading of its clock and sends them on a bounded channel. The
clock is read once for each signal, before it is sent, also when the sending fails.
-/

namespace HoldToRecord

open HoldToRecord.Time HoldToRecord.Channel HoldToRecord.Hotkey

/-- A clock that gives its readings one after the other, how many it has given, and the channel to
the receiver of signals. -/
structure Publisher where
  clock : Nat → Instant
  readings : Nat
  channel : Bounded Signal

namespace Publisher

/-- A publisher whose clock has not been read. -/
def create (capacity : Nat) (clock : Nat → Instant) : Publisher := ⟨clock, 0, .create capacity⟩

/-- The kind of signal that an edge is. -/
def kindOf : Edge → SignalKind
  | .pressed => .pressed
  | .released => .released

/-- The signal of a kind at the clock's next reading. -/
def stamp (p : Publisher) (kind : SignalKind) : Signal := ⟨kind, p.clock p.readings⟩

/-- The publisher after its clock was read. -/
def tick (p : Publisher) : Publisher := { p with readings := p.readings + 1 }

/-- What an attempt to publish comes to. -/
inductive Outcome
  | sent
  | failed (fault : HookFault)
  /-- The channel is full and the sender would have to wait. -/
  | wouldBlock
  deriving DecidableEq, Repr

/-- Publishes a signal of a kind, if it does not have to wait; while it would have to wait, nothing
happens. -/
def publish (p : Publisher) (kind : SignalKind) : Outcome × Publisher :=
  match p.channel.put (p.stamp kind) with
  | .accepted c => (.sent, { p.tick with channel := c })
  | .refused => (.failed .channelSend, p.tick)
  | .full => (.wouldBlock, p)

/-- Publishes a signal of a kind without ever waiting: a full channel is a fault. -/
def tryPublish (p : Publisher) (kind : SignalKind) : Outcome × Publisher :=
  match p.channel.put (p.stamp kind) with
  | .accepted c => (.sent, { p.tick with channel := c })
  | .refused => (.failed .channelSend, p.tick)
  | .full => (.failed .channelSend, p.tick)

/-- What can be done with a publisher and its channel. -/
inductive Action
  | publish (kind : SignalKind)
  | edge (edge : Edge)
  | tryPermissionDenied
  | receive
  | close
  deriving DecidableEq, Repr

/-- What an action shows. -/
inductive Shown
  | outcome (o : Outcome)
  | received (signal : Option Signal)
  | closed

/-- Does an action. -/
def act (p : Publisher) : Action → Shown × Publisher
  | .publish kind =>
    let (outcome, p) := p.publish kind
    (.outcome outcome, p)
  | .edge e =>
    let (outcome, p) := p.publish (kindOf e)
    (.outcome outcome, p)
  | .tryPermissionDenied =>
    let (outcome, p) := p.tryPublish .permissionDenied
    (.outcome outcome, p)
  | .receive =>
    let (signal, channel) := p.channel.take
    (.received signal, { p with channel := channel })
  | .close => (.closed, { p with channel := p.channel.close })

/-- Does actions one after the other and tells what each one shows. -/
def run (p : Publisher) : List Action → List Shown × Publisher
  | [] => ([], p)
  | a :: rest =>
    let (shown, p) := p.act a
    let (more, p) := p.run rest
    (shown :: more, p)

end Publisher

end HoldToRecord
