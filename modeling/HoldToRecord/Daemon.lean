import HoldToRecord.Hook.Listener
import HoldToRecord.Server
import HoldToRecord.Settings

/-!
# The daemon

The daemon loads its settings, prepares its directory, listens for clients and starts the hotkey
listener; then it serves until it is told to end. On a platform without keyboard hooks the listener
does not start, and the daemon goes on without it.
-/

namespace HoldToRecord

open HoldToRecord.Files HoldToRecord.Hook HoldToRecord.Wire

namespace Daemon

/-- Room for signals on their way to the session. -/
def signalCapacity : Nat := 32

/-- Room for session events on their way to the clients. -/
def eventCapacity : Nat := 64

/-- A daemon that serves: its settings and its server. -/
structure Running where
  settings : Settings
  server : Server

/-- Whether the hotkey listener runs after an attempt to start it. -/
def registers (hotkey : Hotkey) (check : Ending) (plan : Plan) : Bool :=
  ((Listener.create hotkey signalCapacity fun _ => .epoch).start check plan).2.running

/-- Starts a daemon on a platform without keyboard hooks; a daemon that cannot start leaves what it
has made. -/
def start (env : Environment) (t : FileTree) : Except StartFault Running × FileTree :=
  match Settings.load env with
  | .error fault => (.error fault, t)
  | .ok settings =>
    match settings.prepare t with
    | (.error fault, t) => (.error fault, t)
    | (.ok (), t) =>
      match Server.create 0 settings.socket eventCapacity t with
      | (.error fault, t) => (.error (.socket fault), t)
      | (.ok server, t) =>
        let registered := registers settings.hotkey (.error .unsupported) .unsupported
        (.ok ⟨settings, server.act (.setHotkey settings.hotkey registered)⟩, t)

/-- Sends requests one after the other, each after the reply to the one before. -/
def askAll (s : Server) (client : String) : List Bytes → List Server.Reply × Server
  | [] => ([], s)
  | body :: bodies =>
    let (reply, s) := s.ask client (frame body)
    let (replies, s) := askAll s client bodies
    (reply :: replies, s)

/-- What a whole run of a daemon shows to one client and to the system. -/
structure Run where
  replies : List Server.Reply
  exitCode : Nat
  report : String
  tree : FileTree

/-- Runs a daemon for one client that sends some requests, and then ends it: the client is
disconnected and the socket removed. -/
def run (env : Environment) (t : FileTree) (requests : List Bytes) : Run :=
  match start env t with
  | (.error fault, t) => ⟨[], 1, fault.report, t⟩
  | (.ok d, t) =>
    let client := "client"
    let (replies, server) := askAll (d.server.connect client).settle client requests
    let last := ((server.act .shutdown).receive client).1
    ⟨replies ++ [last], 0, "", FileTree.release d.settings.socket t⟩

end Daemon

end HoldToRecord
