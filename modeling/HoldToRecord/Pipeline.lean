import HoldToRecord.Channel.Broadcast
import HoldToRecord.Hook.Publisher
import HoldToRecord.Session.Basic
import HoldToRecord.Status

/-!
# From the keyboard to the status

The daemon's parts in a row: a watch turns snapshots into edges, the publisher stamps them, the
session handles the signals, and the status notes the session events. A refusal of the hook goes
past the watch, which keeps what it knows.
-/

namespace HoldToRecord

open HoldToRecord.Hotkey HoldToRecord.Time HoldToRecord.Channel

/-- The watch, the session and the status between two steps. -/
structure Pipeline where
  watch : Watch
  session : Session
  status : Status
  deriving DecidableEq

namespace Pipeline

/-- What comes from the keyboard at an instant. -/
inductive Input
  | snapshot (held : Modifiers) (instant : Instant)
  | denied (instant : Instant)
  deriving DecidableEq

/-- When an input comes. -/
def Input.instant : Input → Instant
  | snapshot _ i => i
  | denied i => i

/-- A pipeline for a registered hotkey that has seen nothing yet. -/
def start (hotkey : Hotkey) : Pipeline :=
  ⟨.start hotkey, .idle, Status.initial.setHotkey hotkey true⟩

/-- Publishes a signal of a kind on a fresh channel and gives what arrives. -/
def transmit (kind : SignalKind) (instant : Instant) : List Signal :=
  ((Publisher.create 1 fun _ => instant).publish kind).2.channel.queued

/-- The edge that an input brings, the signal that it becomes, and the watch after it. -/
def sense (w : Watch) : Input → Option Edge × List Signal × Watch
  | .snapshot held i =>
    match w.see held with
    | (none, w) => (none, [], w)
    | (some edge, w) => (some edge, transmit (Publisher.kindOf edge) i, w)
  | .denied i => (none, transmit .permissionDenied i, w)

/-- What a step shows: the edge and the session events. -/
structure Shown where
  edge : Option Edge
  events : List SessionEvent
  deriving DecidableEq

/-- Takes an input through all parts. -/
def step (p : Pipeline) (input : Input) : Shown × Pipeline :=
  let (edge, signals, watch) := sense p.watch input
  let (session, events) := p.session.run signals
  (⟨edge, events⟩, ⟨watch, session, p.status.applyAll events⟩)

/-- Takes inputs through all parts, one after the other. -/
def run (p : Pipeline) : List Input → List Shown × Pipeline
  | [] => ([], p)
  | input :: inputs =>
    let (shown, p) := p.step input
    let (more, p) := p.run inputs
    (shown :: more, p)

/-- What is published arrives. -/
@[simp] theorem transmit_eq (kind : SignalKind) (instant : Instant) :
    transmit kind instant = [⟨kind, instant⟩] := rfl

end Pipeline

end HoldToRecord
