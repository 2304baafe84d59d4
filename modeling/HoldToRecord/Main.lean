import HoldToRecord.Daemon

/-!
# The program

Takes its settings from the environment and serves one client: frames with requests come in on
standard input, frames with replies go out on standard output. If the settings are no good it says
why and ends with exit code 1.
-/

namespace HoldToRecord.Program

open HoldToRecord.Wire

/-- The variables of the environment that settings are taken from. -/
def environment : IO Environment := do
  let home ← IO.getEnv "HOME"
  let dataDir ← IO.getEnv "HOTKEY_DAEMON_DATA_DIR"
  let socket ← IO.getEnv "HOTKEY_DAEMON_SOCKET"
  let hotkey ← IO.getEnv "HOTKEY_DAEMON_HOTKEY"
  return ⟨home, dataDir, socket, hotkey⟩

/-- The client at standard input. -/
def client : String := "stdin"

/-- Seconds since the program started. -/
def uptime (started : Nat) : IO UInt64 := do
  let now ← IO.monoMsNow
  return UInt64.ofNat ((now - started) / 1000)

/-- Hands on what comes in and writes what the server sends, until the input ends. -/
partial def serve (input output : IO.FS.Stream) (started : Nat) (s : Server) : IO Unit := do
  let bytes ← input.read 4096
  let s := s.act (.uptime (← uptime started))
  let s := s.act (if bytes.isEmpty then .hangUp client else .bytes client bytes.toList)
  let (bodies, s) := s.settle.collect client
  for body in bodies do
    output.write ⟨(frame body).toArray⟩
  output.flush
  if bytes.isEmpty then return () else serve input output started s

end HoldToRecord.Program

open HoldToRecord HoldToRecord.Program

/-- Starts the daemon and serves the client at standard input. -/
def main : IO UInt32 := do
  let started ← IO.monoMsNow
  match (Daemon.start (← environment) .empty).1 with
  | .error fault =>
    IO.eprint fault.report
    return 1
  | .ok daemon =>
    serve (← IO.getStdin) (← IO.getStdout) started (daemon.server.connect client)
    return 0
