import HoldToRecord.Channel.Broadcast
import HoldToRecord.Session.Basic

/-!
# Broadcasting a session

A `Relay` handles signals and broadcasts the session events that they cause. What it does depends
on the signals alone, never on who receives (`session_handleAll`).
-/

namespace HoldToRecord

open HoldToRecord.Channel

/-- A session and the channel on which its events go out. -/
structure Relay where
  session : Session
  events : Broadcast SessionEvent
  deriving DecidableEq

namespace Relay

/-- An idle session on a fresh channel. -/
def create (capacity : Nat) : Relay := ⟨.idle, .create capacity⟩

/-- Handles a signal. -/
def handle (r : Relay) (signal : Signal) : Relay :=
  let (session, events) := r.session.step signal
  ⟨session, r.events.publishAll events⟩

/-- Handles signals in their order. -/
def handleAll (r : Relay) (signals : List Signal) : Relay := signals.foldl handle r

/-- The session of a relay is that of the signals alone. -/
theorem session_handleAll (r : Relay) (signals : List Signal) :
    (r.handleAll signals).session = (r.session.run signals).1 := by
  induction signals generalizing r with
  | nil => rfl
  | cons s signals ih => simpa [handleAll, Session.run, handle] using ih (r.handle s)

end Relay

end HoldToRecord
