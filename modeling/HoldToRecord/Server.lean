import HoldToRecord.Files.Socket
import HoldToRecord.Wire.Client

/-!
# The server

The server listens on a socket, keeps the daemon's status, and holds one connection for each
client. Session events are broadcast to the clients that subscribed; that and the status are all
that clients share. The server takes its turns while somebody waits: a client that connects, or one
that looks for a message which is not there yet.
-/

namespace HoldToRecord

open HoldToRecord.Channel HoldToRecord.Files HoldToRecord.Wire

/-- A server: its number, the path of its socket, the status, the channel of session events, and
the clients by their names. -/
structure Server where
  number : Nat
  path : PathName
  status : Status
  events : Broadcast SessionEvent
  clients : List (String × Client)

namespace Server

/-- A server that listens at a path, and the file tree with its socket. -/
def create (number : Nat) (path : PathName) (capacity : Nat) (t : FileTree) :
    Except SocketFault Server × FileTree :=
  let (result, t) := FileTree.occupy number path t
  (result.map fun _ => ⟨number, path, .initial, .create capacity, []⟩, t)

/-- What is done to a server: by its clients, or by the daemon. -/
inductive Action
  | connect (client : String)
  | bytes (client : String) (bytes : Bytes)
  | hangUp (client : String)
  | leave (client : String)
  | setHotkey (hotkey : Hotkey) (registered : Bool)
  | apply (event : SessionEvent)
  | publish (event : SessionEvent)
  | uptime (secs : UInt64)
  | shutdown

/-- The server with its clients changed. -/
def updateAll (s : Server) (f : Client → Client) : Server :=
  { s with clients := s.clients.map fun (name, c) => (name, f c) }

/-- The server with one client changed. -/
def update (s : Server) (client : String) (f : Client → Client) : Server :=
  { s with clients := s.clients.map fun (name, c) => (name, if name == client then f c else c) }

/-- The server after an action; it has yet to take its turn. -/
def act (s : Server) : Action → Server
  | .connect client =>
    { s with clients := s.clients.filter (·.1 != client) ++ [(client, .fresh)] }
  | .bytes client bytes => s.update client (·.send bytes)
  | .hangUp client => s.update client (·.hangUp)
  | .leave client => { s with clients := s.clients.filter (·.1 != client) }
  | .setHotkey hotkey registered => { s with status := s.status.setHotkey hotkey registered }
  | .apply event => { s with status := s.status.apply event }
  | .publish event => { s with events := s.events.publish event }
  | .uptime secs => { s with status := { s.status with uptimeSecs := secs } }
  | .shutdown => s.updateAll (·.dismiss)

/-- The server after actions that come without a pause. -/
def actAll (s : Server) (actions : List Action) : Server := actions.foldl act s

/-- The server takes its turn. -/
def turn (s : Server) : Server := s.updateAll (·.turn s.status s.events)

/-- The server when nothing is under way any more. -/
def settle (s : Server) : Server := s.turn.turn

/-- A client connects; while it waits for that, the server takes its turn. -/
def connect (s : Server) (client : String) : Server := s.turn.act (.connect client)

/-- What a client finds when it looks for the next message. -/
inductive Reply
  | body (bytes : Bytes)
  | closed
  | nothing
  deriving DecidableEq, Repr

/-- Whether a client can send bytes. -/
def canSend (s : Server) (client : String) : Bool := (s.clients.lookup client).any (·.canSend)

/-- A client sends bytes in pieces, each when the server has taken the one before; whether all of
them could be sent. -/
def sendPieces (s : Server) (client : String) : List Bytes → Bool × Server
  | [] => (true, s)
  | piece :: pieces =>
    if s.canSend client then
      let s := s.act (.bytes client piece)
      if pieces.isEmpty then (true, s) else s.settle.sendPieces client pieces
    else (false, s)

/-- A client sends bytes; whether all of them could be sent. -/
def send (s : Server) (client : String) (bytes : Bytes) : Bool × Server :=
  s.sendPieces client (chunks Client.room bytes)

/-- Whether a client finds something without waiting; one that is not connected finds just that. -/
def isReady (s : Server) (client : String) : Bool := (s.clients.lookup client).all (·.isReady)

/-- The server after a client has waited for a message. -/
def wait (s : Server) (client : String) : Server :=
  if s.isReady client then s
  else
    let next := s.turn
    if next.isReady client then next else next.turn

/-- The next message to a client, without waiting. -/
def take (s : Server) (client : String) : Reply × Server :=
  match s.clients.lookup client with
  | none => (.closed, s)
  | some c =>
    match c.connection.receive with
    | (some body, k) => (.body body, s.update client fun c => { c with connection := k })
    | (none, _) => (if c.connection.closed then .closed else .nothing, s)

/-- The next reply to a client. -/
def receive (s : Server) (client : String) : Reply × Server := (s.wait client).take client

/-- The reply to bytes that a client sends, or the next one if there are others before it. -/
def ask (s : Server) (client : String) (bytes : Bytes) : Reply × Server :=
  match s.send client bytes with
  | (true, s) => s.receive client
  | (false, s) => (.closed, s)

/-- The next replies to a client. -/
def receiveMany (s : Server) (client : String) : Nat → List Reply × Server
  | 0 => ([], s)
  | count + 1 =>
    let (reply, s) := s.receive client
    let (more, s) := s.receiveMany client count
    (reply :: more, s)

/-- Everything that was sent to a client and not taken by it yet. -/
def collect (s : Server) (client : String) : List Bytes × Server :=
  (((s.clients.lookup client).map (·.connection.sent)).getD [],
    s.update client fun c => { c with connection := { c.connection with sent := [] } })

/-- Whether a client that connects reaches the server. -/
def isReachable (s : Server) (t : FileTree) : Bool :=
  match t.socketAt? s.path with
  | some (owner, _) => owner == s.number
  | none => false

end Server

end HoldToRecord
