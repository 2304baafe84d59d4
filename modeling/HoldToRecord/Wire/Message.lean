import HoldToRecord.Status

/-!
# Messages

What a client may ask, how the daemon answers, and what it tells subscribers unasked. Every message
is a tagged JSON object.
-/

namespace HoldToRecord.Wire

open HoldToRecord.Json

/-- What a client asks for. -/
inductive Request
  | getStatus
  | ping
  | subscribe
  deriving DecidableEq, Repr

namespace Request

/-- The tag of a request. -/
def tag : Request → String
  | getStatus => "get_status"
  | ping => "ping"
  | subscribe => "subscribe"

/-- A request as a tagged object. -/
def toJson (r : Request) : Value := .object [("type", .text r.tag)]

/-- Tagged requests. -/
def format : UnionFormat Request where
  title := "internally tagged enum Request"
  variants := [getStatus, ping, subscribe].map fun r => .unit r.tag r

/-- The request that a text holds. -/
def decode (s : Bytes) : Except Error Request := whole format.read s

end Request

/-- The answer to a request. -/
inductive Response
  | status (s : Status)
  | pong
  | subscribed
  | error (code message : String)
  deriving DecidableEq

namespace Response

/-- A response as a tagged object; the fields of a status stand beside the tag. -/
def toJson : Response → Value
  | status s => .object (("type", .text "status") :: s.members)
  | pong => .object [("type", .text "pong")]
  | subscribed => .object [("type", .text "subscribed")]
  | error code message =>
    .object [("type", .text "error"), ("code", .text code), ("message", .text message)]

/-- The fields of an error response. -/
def errorRecord : RecordFormat (Option String × Option String) Response where
  title := "struct variant Response::Error"
  fields := [.of "code" .string (·.1) fun st c => (some c, st.2),
    .of "message" .string (·.2) fun st m => (st.1, some m)]
  blank := (none, none)
  build st := do
    let code ← Kind.string.settle "code" st.1
    let message ← Kind.string.settle "message" st.2
    .ok (error code message)

/-- A status variant: the record of a status, wrapped up. -/
def statusVariant : Variant Response where
  name := "status"
  ofBody body := ((Variant.record "status" Status.format).ofBody body).map status

/-- Tagged responses. -/
def format : UnionFormat Response where
  title := "internally tagged enum Response"
  variants :=
    [statusVariant, .unit "pong" pong, .unit "subscribed" subscribed, .record "error" errorRecord]

/-- The response that a text holds. -/
def decode (s : Bytes) : Except Error Response := whole format.read s

/-- The answer to a text that is no request. -/
def badRequest (e : Error) : Response := error "bad_request" e.message

end Response

/-- What the daemon tells a subscriber. -/
inductive Notification
  | session (event : SessionEvent)
  deriving DecidableEq

namespace Notification

/-- A notification as a tagged object that holds the event as another one. -/
def toJson : Notification → Value
  | session event => .object [("type", .text "session"), ("event", event.toJson)]

/-- Tagged notifications. -/
def format : UnionFormat Notification where
  title := "internally tagged enum Notification"
  variants := [.record "session" {
    title := "struct variant Notification::Session"
    fields := [.of "event" SessionEvent.format.kind id fun _ e => some e]
    blank := none
    build := fun got => (SessionEvent.format.kind.settle "event" got).map session }]

/-- The notification that a text holds. -/
def decode (s : Bytes) : Except Error Notification := whole format.read s

end Notification

end HoldToRecord.Wire
