import HoldToRecord.Session.Event

/-!
# Recording sessions

A `Session` turns signals into session events: a press opens a recording unless one is open, a
release closes the open one, and a refusal of the hook closes the open one and asks for permission.
`Session.run` handles signals one after the other.
-/

namespace HoldToRecord

open HoldToRecord.Time

/-- What a session is doing. -/
inductive Session
  | idle
  | recording (startedAt : Instant)
  | permissionRequired
  deriving DecidableEq

namespace Session

/-- The name that shows a session. -/
def display : Session → String
  | idle => "Idle"
  | recording _ => "Recording"
  | permissionRequired => "PermissionRequired"

/-- When the open recording started. -/
def startedAt? : Session → Option Instant
  | recording i => some i
  | _ => none

/-- Milliseconds of a recording; none are counted if the clock went backwards. -/
def durationMs (started stopped : Instant) : UInt64 :=
  UInt64.ofNat (stopped.elapsedMillis started).toNat

/-- The event that ends a recording. -/
def stop (started stopped : Instant) : SessionEvent :=
  .recordingStopped stopped (durationMs started stopped)

/-- The session after a signal, and the events that the signal causes. -/
def step (session : Session) (signal : Signal) : Session × List SessionEvent :=
  match signal.kind, session with
  | .pressed, .recording i => (.recording i, [])
  | .pressed, _ => (.recording signal.instant, [.recordingStarted signal.instant])
  | .released, .recording i => (.idle, [stop i signal.instant])
  | .released, session => (session, [])
  | .permissionDenied, .recording i =>
    (.permissionRequired, [stop i signal.instant, .permissionRequired signal.instant])
  | .permissionDenied, _ => (.permissionRequired, [.permissionRequired signal.instant])

/-- The session after some signals, and all the events that they cause. -/
def run (session : Session) : List Signal → Session × List SessionEvent
  | [] => (session, [])
  | signal :: signals =>
    let (next, events) := session.step signal
    let (last, later) := next.run signals
    (last, events ++ later)

/-- Runs follow one another. -/
theorem run_append (session : Session) (as bs : List Signal) :
    session.run (as ++ bs) =
      (((session.run as).1.run bs).1, (session.run as).2 ++ ((session.run as).1.run bs).2) := by
  induction as generalizing session with
  | nil => simp [run]
  | cons a as ih => simp [run, ih]

end Session

end HoldToRecord
