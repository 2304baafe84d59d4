import HoldToRecord.Files.Socket
import HoldToRecord.Hotkey.Basic
import HoldToRecord.Text.Quoted

/-!
# Settings

The daemon is set up by environment variables: where it keeps its data, where it listens, and which
hotkey it watches. What is not set has a default; only the home directory has none.
-/

namespace HoldToRecord

open HoldToRecord.Files HoldToRecord.Files.FileTree

/-- The variables that the daemon looks at; one whose value is no text counts as not set. -/
structure Environment where
  home : Option String
  dataDir : Option String
  socket : Option String
  hotkey : Option String
  deriving DecidableEq, Repr

/-- The text in a variable's bytes. -/
def Environment.value (bytes : Option Bytes) : Option String := bytes.bind Text.Utf8.toString?

/-- Why the daemon cannot start. -/
inductive StartFault
  | noHome
  | badHotkey (text : String) (fault : Hotkey.ParseFault)
  | dataDir (path : PathName) (fault : OsFault)
  | socket (fault : SocketFault)
  deriving DecidableEq, Repr

namespace StartFault

/-- The wording of each of them. -/
def message : StartFault → String
  | noHome => "HOME is not set"
  | badHotkey text _ => "invalid HOTKEY_DAEMON_HOTKEY " ++ Text.Quoted.quote text
  | dataDir path _ => "failed to create " ++ path.text
  | socket fault => fault.message

/-- What caused it, if that is not the fault itself. -/
def causes : StartFault → List String
  | noHome => []
  | badHotkey _ fault => [fault.message]
  | dataDir _ fault => [fault.message]
  | socket fault => [fault.cause]

/-- A text with every line set in by four blanks. -/
def indented (text : String) : String :=
  "    " ++ String.ofList (text.toList.flatMap fun c => if c = '\n' then "\n    ".toList else [c])

/-- What the daemon writes when it ends with the fault. -/
def report (f : StartFault) : String :=
  "Error: " ++ f.message ++ "\n" ++
    match f.causes with
    | [] => ""
    | causes => "\nCaused by:\n" ++ String.join (causes.map fun c => indented c ++ "\n")

end StartFault

/-- How the daemon is set up. -/
structure Settings where
  dataDir : PathName
  socket : PathName
  hotkey : Hotkey
  deriving DecidableEq, Repr

namespace Settings

/-- Where data is kept if nothing else is said. -/
def dataDirIn (home : String) : PathName :=
  ((PathName.mk home).join ⟨".local"⟩ |>.join ⟨"share"⟩).join ⟨"hotkey-daemon"⟩

/-- The directory for data. -/
def dataDirOf (env : Environment) : Except StartFault PathName :=
  match env.dataDir, env.home with
  | some dir, _ => .ok ⟨dir⟩
  | none, some home => .ok (dataDirIn home)
  | none, none => .error .noHome

/-- The hotkey. -/
def hotkeyOf (env : Environment) : Except StartFault Hotkey :=
  match env.hotkey with
  | none => .ok .standard
  | some text => (Hotkey.parse text).mapError (.badHotkey text)

/-- The settings that the environment asks for. -/
def load (env : Environment) : Except StartFault Settings := do
  let dataDir ← dataDirOf env
  let socket :=
    match env.socket with
    | some path => ⟨path⟩
    | none => dataDir.join ⟨"daemon.sock"⟩
  let hotkey ← hotkeyOf env
  .ok ⟨dataDir, socket, hotkey⟩

/-- Makes the directory for data. -/
def prepare (s : Settings) : Change StartFault :=
  (FileTree.makeAll s.dataDir).mapFault (.dataDir s.dataDir)

end Settings

end HoldToRecord
