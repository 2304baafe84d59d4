import Mathlib.Tactic
import HoldToRecord.Proofs.Time.Zones
import HoldToRecord.Wire.Message

/-!
# What is encoded is decoded

Every value that travels over the connection, or stands in such a value, is decoded from the text
that it is encoded as, and no text of a response is one of a notification (`decode_toBytes`).
-/

namespace HoldToRecord

open HoldToRecord.Json HoldToRecord.Time

/-! ## Instants and signals -/

/-- An instant is taken from its text. -/
theorem Json.Kind.takes_instant (i : Instant) : Kind.instant.Takes (.instant i) i :=
  Kind.takes_instantAt (Rfc3339.suits_zulu i)

/-- A record of an instant alone is taken from its only member. -/
theorem takes_instantRecord {α : Type} (title : String) (make : Instant → α) (i : Instant) :
    (instantRecord title make).Takes [("at", .instant i)] (make i) :=
  takes_instantRecordAt title make (Rfc3339.suits_zulu i)

/-- An instant is a string, and so is no list or object. -/
theorem plain_instant {depth : Nat} (i : Instant) : (Value.instant i).Plain depth :=
  plain_instantAt .zulu i

namespace Signal

theorem plain_recordJson {depth : Nat} (s : Signal) : s.recordJson.Plain (depth + 1) :=
  plain_recordJsonAt .zulu s

theorem plain_toJson {depth : Nat} (s : Signal) : s.toJson.Plain (depth + 1) :=
  plain_toJsonAt .zulu s

/-- A tagged signal is taken from its members. -/
theorem takes_toJson (s : Signal) : format.kind.Takes s.toJson s :=
  takes_toJsonAt (Rfc3339.suits_zulu s.instant)

end Signal

namespace SessionEvent

theorem plain_toJson {depth : Nat} (e : SessionEvent) : e.toJson.Plain (depth + 1) := by
  rw [← toJsonAt_zulu]
  exact plain_toJsonAt .zulu e

/-- A session event is taken from its members. -/
theorem takes_toJson (e : SessionEvent) : format.kind.Takes e.toJson e := by
  rw [← toJsonAt_zulu]
  exact takes_toJsonAt (Rfc3339.suits_zulu e.instant)

end SessionEvent

/-! ## Statuses -/

/-- A mode is taken from its name. -/
theorem Mode.takes_toJson (m : Mode) : Mode.kind.Takes m.toJson m :=
  Kind.takes_name (by cases m <;> rfl)

namespace Status

/-- The instant of the last event is taken, and so is its absence. -/
theorem takes_lastEventAt (last : Option Instant) :
    Kind.instant.optional.Takes (match last with | none => .null | some i => .instant i) last := by
  cases last with
  | none => exact Kind.takes_null _
  | some i => exact (Kind.takes_instant i).optional

theorem plain_members {depth : Nat} (s : Status) : ∀ m ∈ s.members, m.2.Plain depth := by
  have hlast : ∀ last : Option Instant,
      (match last with | none => Value.null | some i => .instant i).Plain depth := by
    rintro (_ | i)
    · exact .null
    · exact plain_instant i
  simp only [members, List.forall_mem_cons]
  exact ⟨.text _, .text _, .text _, .boolean _, hlast _, plain_count _, by simp⟩

/-- A status is taken from its members. -/
theorem takes_members (s : Status) : format.Takes s.members s :=
  ⟨⟨some s.version, some s.hotkey, some s.mode, some s.hotkeyRegistered, some s.lastEventAt,
      some s.uptimeSecs⟩,
    .cons rfl rfl ((Kind.takes_string _).field ..)
      (.cons rfl rfl ((Kind.takes_string _).field ..)
        (.cons rfl rfl (s.mode.takes_toJson.field ..)
          (.cons rfl rfl ((Kind.takes_flag _).field ..)
            (.cons rfl rfl ((takes_lastEventAt _).field ..)
              (.cons rfl rfl ((Kind.takes_count _).field ..) .nil))))), rfl⟩

end Status

/-! ## Messages -/

namespace Wire

theorem Request.plain_toJson {depth : Nat} (r : Request) : r.toJson.Plain (depth + 1) :=
  .object (by simp [Value.Plain.text])

/-- The tag of a request is the name of its variant. -/
theorem Request.variant_tag (r : Request) : format.variant r.tag = .ok (.unit r.tag r) := by
  cases r <;> rfl

/-- A request is taken from its tag. -/
theorem Request.takes_toJson (r : Request) : format.kind.Takes r.toJson r :=
  UnionFormat.kind_takes r.variant_tag (by simp) rfl

/-- A request is decoded as it was encoded. -/
theorem Request.decode_toJson (r : Request) : Request.decode r.toJson.toBytes = .ok r :=
  r.takes_toJson.whole r.plain_toJson

namespace Response

/-- An error is taken from its code and its message. -/
theorem takes_errorRecord (code message : String) :
    errorRecord.Takes [("code", .text code), ("message", .text message)] (error code message) :=
  ⟨(some code, some message), .cons rfl rfl ((Kind.takes_string _).field ..)
    (.cons rfl rfl ((Kind.takes_string _).field ..) .nil), rfl⟩

theorem plain_toJson {depth : Nat} (r : Response) : r.toJson.Plain (depth + 1) := by
  cases r with
  | status s =>
    refine .object (List.forall_mem_cons.mpr ⟨.text _, s.plain_members⟩)
  | pong => exact .object (by simp [Value.Plain.text])
  | subscribed => exact .object (by simp [Value.Plain.text])
  | error code message => exact .object (by simp [Value.Plain.text])

/-- A response is taken from its members. -/
theorem takes_toJson (r : Response) : format.kind.Takes r.toJson r := by
  cases r with
  | status s =>
    refine UnionFormat.kind_takes (show format.variant "status" = .ok statusVariant from rfl)
      (by simp [Status.members, UnionFormat.tagKey]) ?_
    show ((Variant.record "status" Status.format).ofBody (.members s.members)).map status = _
    rw [s.takes_members.ofBody]
    rfl
  | pong =>
    exact UnionFormat.kind_takes (show format.variant "pong" = .ok (.unit "pong" pong) from rfl)
      (by simp) rfl
  | subscribed =>
    exact UnionFormat.kind_takes
      (show format.variant "subscribed" = .ok (.unit "subscribed" subscribed) from rfl) (by simp) rfl
  | error code message =>
    exact UnionFormat.kind_takes
      (show format.variant "error" = .ok (.record "error" errorRecord) from rfl)
      (by simp [UnionFormat.tagKey]) ((takes_errorRecord code message).ofBody _)

end Response

theorem Notification.plain_toJson {depth : Nat} (n : Notification) :
    n.toJson.Plain (depth + 2) := by
  cases n with
  | session e => exact .object (by simp [e.plain_toJson, Value.Plain.text])

/-- A notification is taken from its event. -/
theorem Notification.takes_toJson (n : Notification) : format.kind.Takes n.toJson n := by
  cases n with
  | session e =>
    refine UnionFormat.kind_takes (show format.variant "session" = .ok _ from rfl)
      (by simp [UnionFormat.tagKey]) (RecordFormat.Takes.ofBody ?_ "session")
    exact ⟨some e, .cons rfl rfl (e.takes_toJson.field ..) .nil, rfl⟩

/-- No response is decoded as a notification. -/
theorem Notification.decode_response (r : Response) (n : Notification) :
    Notification.decode r.toJson.toBytes ≠ .ok n := by
  have hplain : r.toJson.Plain depthLimit := r.plain_toJson
  cases r with
  | status s =>
    exact UnionFormat.whole_ne_ok (show format.variant "status" = .error _ from rfl)
      (by simp [Status.members, UnionFormat.tagKey]) hplain
  | pong =>
    exact UnionFormat.whole_ne_ok (show format.variant "pong" = .error _ from rfl) (by simp) hplain
  | subscribed =>
    exact UnionFormat.whole_ne_ok (show format.variant "subscribed" = .error _ from rfl) (by simp)
      hplain
  | error code message =>
    exact UnionFormat.whole_ne_ok (show format.variant "error" = .error _ from rfl)
      (by simp [UnionFormat.tagKey]) hplain

/-- No notification is decoded as a response. -/
theorem Response.decode_notification (n : Notification) (r : Response) :
    Response.decode n.toJson.toBytes ≠ .ok r := by
  have hplain : n.toJson.Plain depthLimit := n.plain_toJson
  cases n with
  | session e =>
    exact UnionFormat.whole_ne_ok (show format.variant "session" = .error _ from rfl)
      (by simp [UnionFormat.tagKey]) hplain

/-- **Everything is decoded as it was encoded.**  A value that travels over the connection, or stands
in such a value, is decoded from its text; and what a client is sent is never both a response and a
notification. -/
theorem decode_toBytes :
    (∀ s : Signal, Signal.decodeRecord s.kind s.recordJson.toBytes = .ok s)
      ∧ (∀ s : Signal, Signal.decode s.toJson.toBytes = .ok s)
      ∧ (∀ e : SessionEvent, SessionEvent.decode e.toJson.toBytes = .ok e)
      ∧ (∀ m : Mode, Mode.decode m.toJson.toBytes = .ok m)
      ∧ (∀ s : Status, Status.decode s.toJson.toBytes = .ok s)
      ∧ (∀ r : Request, Request.decode r.toJson.toBytes = .ok r)
      ∧ (∀ r : Response, Response.decode r.toJson.toBytes = .ok r)
      ∧ (∀ n : Notification, Notification.decode n.toJson.toBytes = .ok n)
      ∧ (∀ (r : Response) (n : Notification), Notification.decode r.toJson.toBytes ≠ .ok n)
      ∧ ∀ (n : Notification) (r : Response), Response.decode n.toJson.toBytes ≠ .ok r := by
  refine ⟨fun s => (takes_instantRecord s.kind.title (Signal.mk s.kind) s.instant).whole
      s.plain_recordJson, fun s => s.takes_toJson.whole s.plain_toJson,
    fun e => e.takes_toJson.whole e.plain_toJson, fun m => m.takes_toJson.whole (.text _),
    fun s => s.takes_members.whole (.object s.plain_members),
    Request.decode_toJson, fun r => r.takes_toJson.whole r.plain_toJson,
    fun n => n.takes_toJson.whole n.plain_toJson, Notification.decode_response,
    Response.decode_notification⟩

end Wire

end HoldToRecord
