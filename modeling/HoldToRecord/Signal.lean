import HoldToRecord.Json.Instant
import HoldToRecord.Json.Printer

/-!
# Signals

A `Signal` is what the keyboard hook reports: the hotkey went down or up, or the system refused the
hook, each at an instant. Signals travel as JSON objects with a `type`; the bare record of a signal
is the same object without it.
-/

namespace HoldToRecord

open HoldToRecord.Time HoldToRecord.Json

/-- What a signal reports. -/
inductive SignalKind
  | permissionDenied
  | pressed
  | released
  deriving DecidableEq, Repr

/-- A report of the keyboard hook. -/
structure Signal where
  kind : SignalKind
  instant : Instant
  deriving DecidableEq

namespace SignalKind

/-- The tag of signals of a kind. -/
def tag : SignalKind → String
  | .permissionDenied => "permission_denied"
  | .pressed => "pressed"
  | .released => "released"

/-- The name of a kind in a log line. -/
def label : SignalKind → String
  | .permissionDenied => "HOTKEY_PERMISSION_DENIED"
  | .pressed => "HOTKEY_PRESSED"
  | .released => "HOTKEY_RELEASED"

/-- The title of a kind's record in messages. -/
def title : SignalKind → String
  | .permissionDenied => "struct HotkeyPermissionDeniedEvent"
  | .pressed => "struct HotkeyPressedEvent"
  | .released => "struct HotkeyReleasedEvent"

/-- The kinds in the order of their tags. -/
def all : List SignalKind := [.permissionDenied, .pressed, .released]

end SignalKind

/-- Why no signal is made from what was given. -/
inductive SignalFault
  | invalidArgument (why : String)
  deriving DecidableEq, Repr

/-- The wording of such a fault. -/
def SignalFault.message : SignalFault → String
  | .invalidArgument why => "invalid argument: " ++ why

/-- The field that holds an instant. -/
def instantField {σ : Type} (get : σ → Option Instant) (set : σ → Instant → σ) : FieldFormat σ :=
  .of "at" .instant get set

/-- The record of an instant alone. -/
def instantRecord {α : Type} (title : String) (make : Instant → α) :
    RecordFormat (Option Instant) α where
  title := title
  fields := [instantField id fun _ i => some i]
  blank := none
  build got := (Kind.instant.settle "at" got).map make

namespace Signal

/-- The line that shows a signal. -/
def display (s : Signal) : String := s.kind.label ++ " (" ++ Rfc3339.offsetText s.instant ++ ")"

/-- The fault of milliseconds that name no instant. -/
def outOfRange (millis : Int) : SignalFault :=
  .invalidArgument ("timestamp " ++ String.ofList (Decimal.signed millis) ++ "ms is out of range")

/-- The signal of a kind a number of milliseconds after the epoch. -/
def ofMillis (kind : SignalKind) (millis : Int) : Except SignalFault Signal :=
  match Instant.ofMillis? millis with
  | some i => .ok ⟨kind, i⟩
  | none => .error (outOfRange millis)

/-- The signal of a kind a number of milliseconds after the epoch, if there is such an instant. -/
def ofMillis? (kind : SignalKind) (millis : Int) : Option Signal := (ofMillis kind millis).toOption

/-- The message on milliseconds that name no instant. -/
def rangeMessage (millis : Int) : String := (outOfRange millis).message

/-- The bare record of a signal. -/
def recordJson (s : Signal) : Value := .object [("at", .instant s.instant)]

/-- A signal as a tagged object. -/
def toJson (s : Signal) : Value :=
  .object [("type", .text s.kind.tag), ("at", .instant s.instant)]

/-- Bare records of a kind. -/
def recordFormat (kind : SignalKind) : RecordFormat (Option Instant) Signal :=
  instantRecord kind.title (Signal.mk kind)

/-- Tagged signals. -/
def format : UnionFormat Signal where
  title := "internally tagged enum HotkeyEvent"
  variants := SignalKind.all.map fun kind => .record kind.tag (recordFormat kind)

/-- The signal that a text holds. -/
def decode (s : Bytes) : Except Error Signal := whole format.read s

/-- The signal of a known kind whose bare record a text holds. -/
def decodeRecord (kind : SignalKind) (s : Bytes) : Except Error Signal :=
  whole (recordFormat kind).read s

end Signal

end HoldToRecord
