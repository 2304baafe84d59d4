import HoldToRecord.Hotkey.Basic
import HoldToRecord.Session.Basic

/-!
# Status of the daemon

`Status` is what a client is told when it asks how the daemon is doing. Session events keep it up
to date: `Status.apply` overwrites everything that an event decides, so only the last event counts
(`apply_apply`).
-/

namespace HoldToRecord

open HoldToRecord.Time HoldToRecord.Json

/-- What the daemon is doing. -/
inductive Mode
  | idle
  | recording
  | permissionRequired
  deriving DecidableEq, Repr

namespace Mode

/-- The name of a mode in messages. -/
def tag : Mode → String
  | idle => "idle"
  | recording => "recording"
  | permissionRequired => "permission_required"

/-- The mode of a session. -/
def ofSession : Session → Mode
  | .idle => idle
  | .recording _ => recording
  | .permissionRequired => permissionRequired

/-- The mode right after a session event. -/
def ofEvent : SessionEvent → Mode
  | .recordingStarted _ => recording
  | .recordingStopped _ _ => idle
  | .permissionRequired _ => permissionRequired

/-- A mode as a field. -/
def kind : Kind Mode :=
  .name ([idle, recording, permissionRequired].map fun m => (m.tag, m))

/-- A mode as a value. -/
def toJson (m : Mode) : Value := .text m.tag

/-- The mode that a text holds. -/
def decode (s : Bytes) : Except Error Mode := whole kind.read s

end Mode

/-- The daemon at one moment. -/
structure Status where
  version : String
  hotkey : String
  mode : Mode
  hotkeyRegistered : Bool
  lastEventAt : Option Instant
  uptimeSecs : UInt64
  deriving DecidableEq

namespace Status

/-- The version that the daemon reports. -/
def currentVersion : String := "0.1.0"

/-- A daemon that has just started. -/
def initial : Status := ⟨currentVersion, "", .idle, false, none, 0⟩

/-- Notes the hotkey and whether its hook is registered. -/
def setHotkey (s : Status) (hotkey : Hotkey) (registered : Bool) : Status :=
  { s with hotkey := hotkey.display, hotkeyRegistered := registered }

/-- Notes a session event: its mode, its instant, and that the hook works unless permission is
missing. -/
def apply (s : Status) (event : SessionEvent) : Status :=
  { s with
    mode := Mode.ofEvent event
    lastEventAt := some event.instant
    hotkeyRegistered := Mode.ofEvent event != .permissionRequired }

/-- Notes events one after the other. -/
def applyAll (s : Status) (events : List SessionEvent) : Status := events.foldl apply s

/-- Of two events only the later one is seen. -/
@[simp] theorem apply_apply (s : Status) (a b : SessionEvent) : (s.apply a).apply b = s.apply b :=
  rfl

/-- Only the last event is seen. -/
theorem applyAll_concat (s : Status) (events : List SessionEvent) (last : SessionEvent) :
    s.applyAll (events ++ [last]) = s.apply last := by
  induction events generalizing s with
  | nil => rfl
  | cons e events ih => simpa [applyAll] using ih (s.apply e)

/-- The fields of a status in their order. -/
def members (s : Status) : List (String × Value) :=
  [("version", .text s.version), ("hotkey", .text s.hotkey), ("mode", s.mode.toJson),
    ("hotkey_registered", .boolean s.hotkeyRegistered),
    ("last_event_at", match s.lastEventAt with | none => .null | some i => .instant i),
    ("uptime_secs", .number (.integer s.uptimeSecs.toNat))]

/-- A status as an object. -/
def toJson (s : Status) : Value := .object s.members

/-- The fields of a status that have been read so far. -/
structure Draft where
  version : Option String
  hotkey : Option String
  mode : Option Mode
  hotkeyRegistered : Option Bool
  lastEventAt : Option (Option Instant)
  uptimeSecs : Option UInt64

/-- How a status is read. -/
def format : RecordFormat Draft Status where
  title := "struct DaemonStatus"
  fields := [
    .of "version" .string (·.version) fun d v => { d with version := some v },
    .of "hotkey" .string (·.hotkey) fun d v => { d with hotkey := some v },
    .of "mode" Mode.kind (·.mode) fun d v => { d with mode := some v },
    .of "hotkey_registered" .flag (·.hotkeyRegistered) fun d v =>
      { d with hotkeyRegistered := some v },
    .of "last_event_at" (.optional .instant) (·.lastEventAt) fun d v =>
      { d with lastEventAt := some v },
    .of "uptime_secs" .count (·.uptimeSecs) fun d v => { d with uptimeSecs := some v }]
  blank := ⟨none, none, none, none, none, none⟩
  build d := do
    let version ← Kind.string.settle "version" d.version
    let hotkey ← Kind.string.settle "hotkey" d.hotkey
    let mode ← Mode.kind.settle "mode" d.mode
    let registered ← Kind.flag.settle "hotkey_registered" d.hotkeyRegistered
    let last ← (Kind.optional .instant).settle "last_event_at" d.lastEventAt
    let uptime ← Kind.count.settle "uptime_secs" d.uptimeSecs
    .ok ⟨version, hotkey, mode, registered, last, uptime⟩

/-- The status that a text holds. -/
def decode (s : Bytes) : Except Error Status := whole format.read s

end Status

end HoldToRecord
