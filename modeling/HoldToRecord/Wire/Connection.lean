import HoldToRecord.Channel.Broadcast
import HoldToRecord.Json.Printer
import HoldToRecord.Wire.Frame
import HoldToRecord.Wire.Message

/-!
# Connections

One client's connection, as the server sees it. Frames are cut from the bytes that arrive and wait
in a short queue; they are answered in their order; a client that has subscribed is told every
session event that is broadcast after that. Once the client has ended its side or sent a length
beyond the limit, what waits is still answered, and then the connection is closed. Each of these
is a step of its own (`cut`, `answer`, `notify`, `finish`).
-/

namespace HoldToRecord.Wire

open HoldToRecord.Channel

/-- How many frames wait at most to be answered. -/
def queueLimit : Nat := 8

/-- One client's connection. -/
structure Connection where
  /-- Pieces that have arrived, as far as they are not part of a frame yet. -/
  arrived : List Bytes
  /-- Whether the client has ended its side. -/
  ended : Bool
  /-- Whether no frame will be cut any more. -/
  cutOff : Bool
  /-- Bodies that wait to be answered. -/
  waiting : List Bytes
  /-- Where the client stands among the session events, if it has subscribed. -/
  subscription : Option Cursor
  /-- Bodies that were sent to the client and not taken by it yet. -/
  sent : List Bytes
  /-- Whether the connection is closed. -/
  closed : Bool
  deriving DecidableEq, Repr

namespace Connection

/-- A connection through which nothing went yet. -/
def fresh : Connection := ⟨[], false, false, [], none, [], false⟩

/-- Pieces arrive. -/
def arrive (c : Connection) (pieces : List Bytes) : Connection :=
  if c.closed then c else { c with arrived := c.arrived ++ pieces }

/-- The client ends its side. -/
def hangUp (c : Connection) : Connection := { c with ended := true }

/-- What has arrived as a stream. -/
def source (c : Connection) : Source := ⟨c.arrived, none⟩

/-- Cuts a frame from the bytes that have arrived, if it is complete and may wait; none is cut after
a length beyond the limit, or once the client has ended its side and no frame is complete. -/
def cut (c : Connection) : Option Connection :=
  if c.closed || c.cutOff || queueLimit ≤ c.waiting.length then none
  else
    match c.source.read with
    | (.body bytes, rest) =>
      some { c with arrived := rest.pieces, waiting := c.waiting ++ [bytes] }
    | (.failed (.tooLarge _), _) => some { c with cutOff := true }
    | _ => if c.ended then some { c with cutOff := true } else none

/-- The response to a request. -/
def respond (status : Status) : Request → Response
  | .ping => .pong
  | .getStatus => .status status
  | .subscribe => .subscribed

/-- The response to a body. -/
def reply (status : Status) (body : Bytes) : Response :=
  match Request.decode body with
  | .ok request => respond status request
  | .error e => .badRequest e

/-- What a response is the answer to. -/
theorem reply_iff (status : Status) (body : Bytes) :
    (reply status body = .pong ↔ Request.decode body = .ok .ping)
      ∧ (∀ shown, reply status body = .status shown
        ↔ Request.decode body = .ok .getStatus ∧ shown = status)
      ∧ (reply status body = .subscribed ↔ Request.decode body = .ok .subscribe)
      ∧ ∀ code message, reply status body = .error code message
        ↔ ∃ e, Request.decode body = .error e ∧ code = "bad_request" ∧ message = e.message := by
  unfold reply
  cases Request.decode body with
  | error e => simp [Response.badRequest, eq_comm]
  | ok request => cases request <;> simp [respond, eq_comm]

/-- Whether a body asks for a subscription. -/
def asksToSubscribe (body : Bytes) : Bool :=
  match Request.decode body with
  | .ok .subscribe => true
  | _ => false

/-- Whether a body asks for the status. -/
def asksForStatus (body : Bytes) : Bool :=
  match Request.decode body with
  | .ok .getStatus => true
  | _ => false

/-- The status that is read for a body: whoever asks for it has the uptime noted. -/
def statusFor (status : Status) (uptime : UInt64) (body : Bytes) : Status :=
  if asksForStatus body then { status with uptimeSecs := uptime } else status

/-- Nothing but the uptime is noted. -/
theorem exists_statusFor (status : Status) (uptime : UInt64) (body : Bytes) :
    ∃ secs, statusFor status uptime body = { status with uptimeSecs := secs } := by
  unfold statusFor
  split
  · exact ⟨uptime, rfl⟩
  · exact ⟨status.uptimeSecs, rfl⟩

/-- Other answers do not tell the uptime. -/
theorem reply_statusFor (status : Status) (uptime : UInt64) (body : Bytes) :
    reply (statusFor status uptime body) body = reply { status with uptimeSecs := uptime } body := by
  unfold reply statusFor asksForStatus
  cases Request.decode body with
  | error e => rfl
  | ok request => cases request <;> rfl

/-- Takes the body that has waited longest. -/
def take (c : Connection) : Option (Bytes × Connection) :=
  match c.closed, c.waiting with
  | false, body :: rest => some (body, { c with waiting := rest })
  | _, _ => none

/-- Starts the subscription, if a body is the first request for it. -/
def heed (events : Broadcast SessionEvent) (body : Bytes) (c : Connection) : Connection :=
  { c with
    subscription :=
      if asksToSubscribe body && c.subscription.isNone then some events.subscribe
      else c.subscription }

/-- Sends a body to the client. -/
def send (body : Bytes) (c : Connection) : Connection := { c with sent := c.sent ++ [body] }

/-- Answers the body that has waited longest; the first request to subscribe starts the
subscription. -/
def answer (status : Status) (events : Broadcast SessionEvent) (c : Connection) :
    Option Connection :=
  c.take.map fun (body, c) => (c.heed events body).send (reply status body).toJson.toBytes

/-- The place of the next session event for the client among those that were broadcast. -/
def place (c : Connection) : Nat := c.subscription.elim 0 Cursor.position

/-- Receives the next session event for the client, or how many it has missed. -/
def hear (events : Broadcast SessionEvent) (c : Connection) :
    Option (Received SessionEvent × Connection) :=
  match c.closed, c.subscription with
  | false, some cursor =>
    (events.receive cursor).map fun (got, cursor) => (got, { c with subscription := some cursor })
  | _, _ => none

/-- Tells the client what was received; what it has missed is passed over. -/
def tell : Received SessionEvent → Connection → Connection
  | .value event, c => c.send (Notification.session event).toJson.toBytes
  | .lagged _, c => c

/-- Tells the client the next session event; what it has missed is passed over. -/
def notify (events : Broadcast SessionEvent) (c : Connection) : Option Connection :=
  (c.hear events).map fun (got, c) => c.tell got

/-- Closes the connection when no frame will be cut any more and none waits. -/
def finish (c : Connection) : Option Connection :=
  if !c.closed && c.cutOff && c.waiting.isEmpty then
    some { c with closed := true, arrived := [], subscription := none }
  else none

/-- The server closes the connection. -/
def shut (c : Connection) : Connection :=
  { c with closed := true, arrived := [], waiting := [], subscription := none }

/-- The next step: an answer, else a cut, else a notification, else the end. -/
def step (status : Status) (events : Broadcast SessionEvent) (c : Connection) :
    Option Connection :=
  c.answer status events <|> c.cut <|> c.notify events <|> c.finish

/-- At most `steps` steps. -/
def stepWithin (status : Status) (events : Broadcast SessionEvent) : Nat → Connection → Connection
  | 0, c => c
  | steps + 1, c =>
    match c.step status events with
    | none => c
    | some c => stepWithin status events steps c

/-- A number of steps after which nothing is left to do: two for each frame, and one for each event
and for what was missed, for noticing the end, and for closing. -/
def stepsFor (events : Broadcast SessionEvent) (c : Connection) : Nat :=
  c.arrived.flatten.length + 2 * c.waiting.length + events.kept.length + 3

/-- All that can be done until something new happens. -/
def settle (status : Status) (events : Broadcast SessionEvent) (c : Connection) : Connection :=
  stepWithin status events (c.stepsFor events) c

/-- The next body that the client takes; none if it was told all and the connection is open. -/
def receive (c : Connection) : Option Bytes × Connection :=
  match c.sent with
  | [] => (none, c)
  | body :: rest => (some body, { c with sent := rest })

end Connection

end HoldToRecord.Wire
