import HoldToRecord.Wire.Connection

/-!
# The task that serves a client

Each client is served by a task of its own. It takes a body, reads the status for the response, and
writes the response; or it receives a session event and writes the notification. Each of these is a
step, and between two of them everything else may go on: another task cuts frames from the bytes that
arrive, and the status changes. What the task is busy with is its `Hand`, and as long as that is not
free it takes nothing else. If nothing comes between them, the steps of an answer are
`Connection.answer` (`act_answer`), and those of a notification are `Connection.notify`
(`act_notify`).
-/

namespace HoldToRecord.Wire

open HoldToRecord.Channel

/-- What the task that serves a client is busy with. -/
inductive Hand
  /-- Nothing: the task waits for a body or an event. -/
  | free
  /-- A body for which no response is prepared yet. -/
  | body (bytes : Bytes)
  /-- A response that is prepared and not written yet. -/
  | response (response : Response)
  /-- An event, by its place among those that were broadcast, that was received and not told yet. -/
  | event (place : Nat) (event : SessionEvent)
  deriving DecidableEq

/-- The message that is to be written, if there is one. -/
def Hand.message? : Hand → Option Bytes
  | .response answer => some answer.toJson.toBytes
  | .event _ news => some (Notification.session news).toJson.toBytes
  | _ => none

/-- A client's connection, and what the task that serves it is busy with. -/
structure Handler where
  connection : Connection
  hand : Hand
  deriving DecidableEq

namespace Handler

/-- What happens: bytes arrive, the client ends its side or is lost, or a frame is cut; or the task
takes its next step. -/
inductive Act
  | arrive (piece : Bytes)
  | hangUp
  | lose
  | cut
  /-- The task takes the body that has waited longest. -/
  | take
  /-- It reads the status, after so many seconds of running, and prepares the response. -/
  | prepare (uptime : UInt64)
  /-- It receives the next session event. -/
  | hear
  /-- It writes the message that it has prepared. -/
  | write
  /-- It closes the connection. -/
  | finish
  deriving DecidableEq

/-- A client that has just connected. -/
def fresh : Handler := ⟨.fresh, .free⟩

/-- The status as it stands after an act. -/
def noted (h : Handler) (status : Status) : Act → Status
  | .prepare uptime =>
    match h.hand with
    | .body bytes => Connection.statusFor status uptime bytes
    | _ => status
  | _ => status

/-- The connection and the task after an act; one that is not possible leaves them as they are. -/
def act (h : Handler) (status : Status) (events : Broadcast SessionEvent) : Act → Handler
  | .arrive piece => { h with connection := h.connection.arrive [piece] }
  | .hangUp => { h with connection := h.connection.hangUp }
  | .lose => ⟨h.connection.shut, .free⟩
  | .cut => { h with connection := h.connection.cut.getD h.connection }
  | .take =>
    match h.hand, h.connection.take with
    | .free, some (bytes, c) => ⟨c, .body bytes⟩
    | _, _ => h
  | .prepare uptime =>
    match h.hand with
    | .body bytes =>
      ⟨h.connection.heed events bytes,
        .response (Connection.reply (Connection.statusFor status uptime bytes) bytes)⟩
    | _ => h
  | .hear =>
    match h.hand, h.connection.hear events with
    | .free, some (.value event, c) => ⟨c, .event h.connection.place event⟩
    | .free, some (.lagged _, c) => ⟨c, .free⟩
    | _, _ => h
  | .write =>
    match h.hand.message? with
    | some bytes => ⟨h.connection.send bytes, .free⟩
    | none => h
  | .finish =>
    match h.hand, h.connection.finish with
    | .free, some c => ⟨c, .free⟩
    | _, _ => h

/-- Acts that follow one another in one status and one channel. -/
def actAll (h : Handler) (status : Status) (events : Broadcast SessionEvent) (acts : List Act) :
    Handler :=
  acts.foldl (fun h act => h.act status events act) h

/-- An act notes nothing but the uptime. -/
theorem exists_noted (h : Handler) (status : Status) (act : Act) :
    ∃ secs, h.noted status act = { status with uptimeSecs := secs } := by
  unfold noted
  split
  · split
    · exact Connection.exists_statusFor status _ _
    · exact ⟨status.uptimeSecs, rfl⟩
  · exact ⟨status.uptimeSecs, rfl⟩

/-- **An answer without a pause.**  A body that is taken, answered and written at once. -/
theorem act_answer (c : Connection) (status : Status) (events : Broadcast SessionEvent)
    (uptime : UInt64) :
    actAll ⟨c, .free⟩ status events [.take, .prepare uptime, .write]
      = ⟨(c.answer { status with uptimeSecs := uptime } events).getD c, .free⟩ := by
  unfold Connection.answer
  cases htake : c.take with
  | none => simp [actAll, act, htake, Hand.message?]
  | some taken =>
    obtain ⟨bytes, d⟩ := taken
    simp [actAll, act, htake, Hand.message?, Connection.reply_statusFor]

/-- **A notification without a pause.**  An event that is received and told at once. -/
theorem act_notify (c : Connection) (status : Status) (events : Broadcast SessionEvent) :
    actAll ⟨c, .free⟩ status events [.hear, .write] = ⟨(c.notify events).getD c, .free⟩ := by
  unfold Connection.notify
  rcases hhear : c.hear events with _ | ⟨event | missed, d⟩
  · simp [actAll, act, hhear, Hand.message?]
  · simp [actAll, act, hhear, Hand.message?, Connection.tell]
  · simp [actAll, act, hhear, Hand.message?, Connection.tell]

end Handler

end HoldToRecord.Wire
