/-!
# Faults of the keyboard hook

Why the keyboard hook cannot be started, ends, or cannot hand on a signal.
-/

namespace HoldToRecord

/-- A fault of the keyboard hook. -/
inductive HookFault
  /-- It runs already. -/
  | alreadyRunning
  /-- The system does not permit it. -/
  | permissionDenied
  /-- The system gave no tap on the keyboard. -/
  | tapCreation
  /-- The system gave no thread. -/
  | threadSpawn (why : String)
  /-- Nobody receives signals any more. -/
  | channelSend
  /-- The platform has no such hook. -/
  | unsupported
  deriving DecidableEq, Repr

namespace HookFault

/-- The wording of each of them. -/
def message : HookFault → String
  | alreadyRunning => "hotkey listener is already running"
  | permissionDenied =>
    "permission to monitor the keyboard was denied - grant Accessibility access"
  | tapCreation => "failed to create event tap - check Accessibility permissions"
  | threadSpawn why => "failed to spawn listener thread: " ++ why
  | channelSend => "failed to send event to channel"
  | unsupported => "global hotkeys are not supported on this platform"

/-- Whether a hook that ends with the fault lacked permission. -/
def lacksPermission : HookFault → Bool
  | permissionDenied => true
  | tapCreation => true
  | _ => false

end HookFault

end HoldToRecord
