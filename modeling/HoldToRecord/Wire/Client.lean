import HoldToRecord.Wire.Connection

/-!
# Clients

A client and what lies between it and the server. Bytes that a client sends are under way until the
server has noticed them and gets to serve the client, so an answer takes in everything that happened
to the server in the meantime. In its turn the server first serves (`serve`: what it has noticed
before, and session events) and then looks around (`look`). A client that has just connected is let
in in the first turn; what it sent before that is noticed in the same turn and served in the second,
so two turns are enough for everything that is under way.
-/

namespace HoldToRecord.Wire

open HoldToRecord.Channel

/-- What the server knows of a client: that it has not been let in yet, that nothing new has been
noticed, that something has, or that the client has to go. -/
inductive Attention
  | outside
  | watched
  | noticed
  | dismissed
  deriving DecidableEq, Repr

/-- A client of the server. -/
structure Client where
  /-- The connection, as the server has it. -/
  connection : Connection
  attention : Attention
  /-- Pieces that the client has sent and the server has not taken, the newest first. -/
  underway : List Bytes
  /-- Whether the client has ended its side. -/
  ended : Bool
  deriving DecidableEq, Repr

namespace Client

/-- A client that has just connected. -/
def fresh : Client := ⟨.fresh, .outside, [], false⟩

/-- How many bytes can be sent at once; a client that sends more waits until the server has taken
those. -/
def room : Nat := 219264

/-- Whether bytes can be sent: both sides have to be open. -/
def canSend (c : Client) : Bool := !(c.ended || c.connection.closed)

/-- Sends bytes, if they can be sent. -/
def send (c : Client) (bytes : Bytes) : Client :=
  if bytes.isEmpty || !c.canSend then c else { c with underway := bytes :: c.underway }

/-- Ends the client's side. -/
def hangUp (c : Client) : Client := { c with ended := true }

/-- Tells the server to disconnect the client; one that it has not let in yet stays. -/
def dismiss (c : Client) : Client :=
  if c.attention = .outside then c else { c with attention := .dismissed }

/-- Whether the server has something to notice: bytes, or that the client has ended its side. -/
def isNoticeable (c : Client) : Bool :=
  !c.connection.closed && (!c.underway.isEmpty || (c.ended && !c.connection.ended))

/-- The connection with all that was under way. -/
def arrived (c : Client) : Connection :=
  let k := c.connection.arrive c.underway.reverse
  if c.ended then k.hangUp else k

/-- The server does what it has to do for a client. -/
def serve (status : Status) (events : Broadcast SessionEvent) (c : Client) : Client :=
  match c.attention with
  | .outside => { c with attention := .watched }
  | .watched => { c with connection := c.connection.settle status events }
  | .noticed =>
    { c with
      connection := c.arrived.settle status events
      attention := .watched
      underway := [] }
  | .dismissed => { c with connection := c.connection.shut, underway := [] }

/-- The server looks whether a client has sent something. -/
def look (c : Client) : Client :=
  if c.attention = .watched ∧ c.isNoticeable then { c with attention := .noticed } else c

/-- The server serves a client and looks at it. -/
def turn (status : Status) (events : Broadcast SessionEvent) (c : Client) : Client :=
  (c.serve status events).look

/-- Whether the client finds something when it looks for the next message. -/
def isReady (c : Client) : Bool := c.connection.closed || !c.connection.sent.isEmpty

end Client

end HoldToRecord.Wire
