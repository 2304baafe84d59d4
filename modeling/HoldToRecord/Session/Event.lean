import HoldToRecord.Signal

/-!
# Session events

What a recording session tells its listeners: it started, it stopped after some milliseconds, or it
cannot go on because the system refused the keyboard hook.
-/

namespace HoldToRecord

open HoldToRecord.Time HoldToRecord.Json

/-- An event of a recording session. -/
inductive SessionEvent
  | recordingStarted (instant : Instant)
  | recordingStopped (instant : Instant) (durationMs : UInt64)
  | permissionRequired (instant : Instant)
  deriving DecidableEq

namespace SessionEvent

/-- When an event happened. -/
def instant : SessionEvent → Instant
  | recordingStarted i => i
  | recordingStopped i _ => i
  | permissionRequired i => i

/-- The line that shows an event. -/
def display : SessionEvent → String
  | recordingStarted _ => "RECORDING_STARTED"
  | recordingStopped _ ms =>
    "RECORDING_STOPPED (" ++ String.ofList (Decimal.digits ms.toNat) ++ "ms)"
  | permissionRequired _ => "PERMISSION_REQUIRED"

/-- An event as a tagged object. -/
def toJson : SessionEvent → Value
  | recordingStarted i => .object [("type", .text "recording_started"), ("at", .instant i)]
  | recordingStopped i ms =>
    .object [("type", .text "recording_stopped"), ("at", .instant i),
      ("duration_ms", .number (.integer ms.toNat))]
  | permissionRequired i => .object [("type", .text "permission_required"), ("at", .instant i)]

/-- The fields of an event that ends a recording. -/
def stoppedRecord : RecordFormat (Option Instant × Option UInt64) SessionEvent where
  title := "struct variant SessionEvent::RecordingStopped"
  fields := [instantField (·.1) fun st i => (some i, st.2),
    .of "duration_ms" .count (·.2) fun st ms => (st.1, some ms)]
  blank := (none, none)
  build st := do
    let i ← Kind.instant.settle "at" st.1
    let ms ← Kind.count.settle "duration_ms" st.2
    .ok (recordingStopped i ms)

/-- Tagged session events. -/
def format : UnionFormat SessionEvent where
  title := "internally tagged enum SessionEvent"
  variants := [
    .record "recording_started"
      (instantRecord "struct variant SessionEvent::RecordingStarted" recordingStarted),
    .record "recording_stopped" stoppedRecord,
    .record "permission_required"
      (instantRecord "struct variant SessionEvent::PermissionRequired" permissionRequired)]

/-- The session event that a text holds. -/
def decode (s : Bytes) : Except Error SessionEvent := whole format.read s

end SessionEvent

end HoldToRecord
