import Mathlib.Logic.Function.Basic
import HoldToRecord.Wire.Connection

/-!
# All clients of the server

Each client has a connection of its own and a task that serves it. What they share is the daemon's
status and the channel of session events. A step is taken by one party: by a client, by the task
that serves it, or by the daemon, which notes the hotkey, notes session events and broadcasts them.
The parties take their steps in any order, so a list of steps is a schedule.
-/

namespace HoldToRecord.Wire

open HoldToRecord.Channel

/-- What happens to one connection: the client sends a piece of bytes, ends its side, or is lost, or
the task that serves it takes one of its steps. An answer is given when the daemon has been running
for some number of seconds. -/
inductive Act
  | arrive (piece : Bytes)
  | hangUp
  | lose
  | cut
  | answer (uptime : UInt64)
  | notify
  | finish
  deriving DecidableEq

namespace Connection

/-- The status as it stands after an act: whoever asks for it has the uptime noted. -/
def noted (c : Connection) (status : Status) : Act → Status
  | .answer uptime =>
    match c.closed, c.waiting with
    | false, body :: _ => statusFor status uptime body
    | _, _ => status
  | _ => status

/-- The connection after an act; one that is not possible leaves it as it is. -/
def after (c : Connection) (status : Status) (events : Broadcast SessionEvent) (act : Act) :
    Connection :=
  match act with
  | .arrive piece => c.arrive [piece]
  | .hangUp => c.hangUp
  | .lose => c.shut
  | .cut => c.cut.getD c
  | .answer _ => (c.answer (c.noted status act) events).getD c
  | .notify => (c.notify events).getD c
  | .finish => c.finish.getD c

end Connection

/-- The status, the channel of session events, and the connections of the clients by their names. -/
structure Hub where
  status : Status
  events : Broadcast SessionEvent
  connection : String → Option Connection

namespace Hub

/-- A step: a client connects, something happens to its connection, or the daemon notes the hotkey,
notes a session event, or broadcasts one. -/
inductive Step
  | connect (client : String)
  | client (client : String) (act : Act)
  | setHotkey (hotkey : Hotkey) (registered : Bool)
  | apply (event : SessionEvent)
  | publish (event : SessionEvent)

/-- A daemon that has just started, with no client. -/
def start (capacity : Nat) : Hub := ⟨.initial, .create capacity, fun _ => none⟩

/-- Something happens to a connection, if the client has one. -/
def act (h : Hub) (client : String) (act : Act) : Hub :=
  match h.connection client with
  | none => h
  | some c =>
    { h with
      status := c.noted h.status act
      connection := Function.update h.connection client (some (c.after h.status h.events act)) }

/-- The hub after a step. -/
def step (h : Hub) : Step → Hub
  | .connect client => { h with connection := Function.update h.connection client (some .fresh) }
  | .client client act => h.act client act
  | .setHotkey hotkey registered => { h with status := h.status.setHotkey hotkey registered }
  | .apply event => { h with status := h.status.apply event }
  | .publish event => { h with events := h.events.publish event }

/-- The hub after steps, one after the other. -/
def run (h : Hub) (steps : List Step) : Hub := steps.foldl step h

/-- What happens to a client's connection does not touch the channel. -/
@[simp] theorem events_act (h : Hub) (client : String) (act : Act) :
    (h.act client act).events = h.events := by
  unfold Hub.act
  split <;> rfl

/-- Nor does it touch other connections. -/
theorem connection_act_of_ne (h : Hub) {client other : String} (hne : other ≠ client) (act : Act) :
    (h.act client act).connection other = h.connection other := by
  unfold Hub.act
  split
  · rfl
  · exact Function.update_of_ne hne _ _

/-- The connection itself goes on by the act. -/
theorem connection_act (h : Hub) (client : String) (act : Act) :
    (h.act client act).connection client
      = (h.connection client).map (·.after h.status h.events act) := by
  unfold Hub.act
  split
  · next hnone => rw [hnone, Option.map_none]
  · next c hsome =>
    rw [hsome, Option.map_some]
    exact Function.update_self _ _ _

end Hub

end HoldToRecord.Wire
