import Mathlib.Tactic
import HoldToRecord.Proofs.Wire.RoundTrip
import HoldToRecord.Wire.Connection

/-!
# Which objects are requests

However an object is spelt, it is decoded as a request exactly if one member alone has the key
`type`, and this member holds the request's name (`decode_iff_askedBy`). The other members count for
nothing, wherever they stand and whatever they hold, also a `type` further inside. Every other object
is answered with a bad request (`decode_object_iff`).
-/

namespace HoldToRecord.Wire

open HoldToRecord.Json HoldToRecord.Channel HoldToRecord.Text.Utf8

namespace Request

/-- Exactly one member has the key `type`, and it holds the name of the request. -/
def AskedBy (r : Request) (ms : List (String × Value)) : Prop :=
  ms.filter (fun m => m.1 = "type") = [("type", .text r.tag)]

/-- No other name than the tag of a request is the name of a variant. -/
theorem variant_eq_ok_iff {name : String} {x : Variant Request} :
    format.variant name = .ok x ↔ ∃ r : Request, name = r.tag ∧ x = .unit r.tag r := by
  constructor
  · intro h
    by_cases hname : ∃ r : Request, name = r.tag
    · obtain ⟨r, rfl⟩ := hname
      rw [r.variant_tag] at h
      exact ⟨r, rfl, (Except.ok.inj h).symm⟩
    · have hne : ∀ r : Request, (name == r.tag) = false := fun r =>
        beq_eq_false_iff_ne.mpr fun heq => hname ⟨r, heq⟩
      simp [UnionFormat.variant, oneOf, format, Variant.unit, List.lookup_cons, hne] at h
  · rintro ⟨r, rfl, rfl⟩
    exact r.variant_tag

variable {ms : List (String × Value)} {s : Bytes}

/-- **Requests.**  A text of an object is decoded as the request that the object asks for. -/
theorem decode_iff_askedBy (hs : IsText (.object ms) s) (r : Request) :
    decode s = .ok r ↔ r.AskedBy ms := by
  rw [decode, UnionFormat.whole_iff_tags hs]
  constructor
  · rintro ⟨name, x, htags, hvariant, hbody⟩
    obtain ⟨r', rfl, rfl⟩ := variant_eq_ok_iff.mp hvariant
    obtain rfl := Except.ok.inj hbody
    exact htags
  · intro h
    exact ⟨r.tag, .unit r.tag r, h, variant_eq_ok_iff.mpr ⟨r, rfl, rfl⟩, rfl⟩

/-- A body that is no request is answered with a bad request, and starts no subscription. -/
theorem answer_of_decode_error {e : Error} (h : decode s = .error e) {c : Connection}
    {rest : List Bytes} (hclosed : c.closed = false) (hwaiting : c.waiting = s :: rest)
    (status : Status) (events : Broadcast SessionEvent) :
    c.answer status events
      = some { c with
          waiting := rest
          sent := c.sent ++ [(Response.error "bad_request" e.message).toJson.toBytes] } := by
  have htake : c.take = some (s, { c with waiting := rest }) := by
    rw [Connection.take, hclosed, hwaiting]
  have hasks : Connection.asksToSubscribe s = false := by
    rw [Connection.asksToSubscribe, h]
  rw [Connection.answer, htake]
  simp [Connection.heed, Connection.send, hasks, Connection.reply, h, Response.badRequest]

/-- **Objects.**  However it is spelt, an object is decoded as a request exactly if one member alone
has the key `type` and holds the request's name; the server answers every other object with a bad
request. -/
theorem decode_object_iff (hs : IsText (.object ms) s) :
    (∀ r, decode s = .ok r ↔ r.AskedBy ms)
      ∧ ((∀ r : Request, ¬ r.AskedBy ms) →
        ∃ e, decode s = .error e
          ∧ ∀ (status : Status) (events : Broadcast SessionEvent) (c : Connection)
              (rest : List Bytes), c.closed = false → c.waiting = s :: rest →
            c.answer status events
              = some { c with
                  waiting := rest
                  sent := c.sent
                    ++ [(Response.error "bad_request" e.message).toJson.toBytes] }) := by
  refine ⟨decode_iff_askedBy hs, fun hnone => ?_⟩
  cases hdecode : decode s with
  | ok r => exact absurd ((decode_iff_askedBy hs r).mp hdecode) (hnone r)
  | error e =>
    refine ⟨e, rfl, ?_⟩
    intro status events c rest hclosed hwaiting
    exact answer_of_decode_error hdecode hclosed hwaiting status events

/-- A request spelt with blanks and escapes, behind a member that holds a `type` of its own; and two
members with the same request, which are none. -/
theorem decode_object_iff_escaped :
    (∃ ms s, IsText (.object ms) s ∧ decode s = .ok .subscribe
      ∧ ms = [("😀", .object [("type", .list [.text "ping", .number (.integer (-2))])]),
        ("type", .text "subscribe")]
      ∧ s = ofString (" \x7b\"\\ud83d\\uDE00\" :\x7b\"type\":[\"ping\",-2]\x7d,"
        ++ "\"\\u0074ype\":\"\\u0073ubscribe\"\x7d\n"))
      ∧ IsText (.object [("type", .text "ping"), ("type", .text "ping")])
        (Value.object [("type", .text "ping"), ("type", .text "ping")]).toBytes
      ∧ ∃ e, decode (Value.object [("type", .text "ping"), ("type", .text "ping")]).toBytes
        = .error e := by
  constructor
  · have hspace : Blanks [32] := by simp [Blanks, isBlank]
    have hend : Blanks [10] := by simp [Blanks, isBlank]
    have hminus : encode (Decimal.signed (-2)) = [45, 50] := by decide +kernel
    have hlist : ItemsSpelling (Spelling 124) true [.text "ping", .number (.integer (-2))] _ :=
      .item (.start blanks_nil) (ScalarSpelling.spelling (.text (textSpelling_escape _)) _)
        (.item separator_comma (ScalarSpelling.spelling (.integer (by decide) (by decide)) _)
          (.close blanks_nil))
    rw [hminus] at hlist
    have hinner : MembersSpelling (Spelling 125) true
        [("type", .list [.text "ping", .number (.integer (-2))])] _ :=
      .member (.start blanks_nil) (textSpelling_escape _) blanks_nil blanks_nil (.list hlist)
        (.close blanks_nil)
    have hface : TextSpelling ['😀'] _ :=
      .cons (@CharSpelling.pair (byte 'd') (byte '8') (byte '3') (byte 'd') (byte 'D') (byte 'E')
        (byte '0') (byte '0') 0xD83D 0xDE00 rfl rfl rfl rfl) .nil
    have hkey : TextSpelling ('t' :: ['y', 'p', 'e']) _ :=
      .cons (@CharSpelling.unit (byte '0') (byte '0') (byte '7') (byte '4') 0x74 rfl rfl rfl)
        (textSpelling_escape _)
    have hname : TextSpelling ('s' :: "ubscribe".toList) _ :=
      .cons (@CharSpelling.unit (byte '0') (byte '0') (byte '7') (byte '3') 0x73 rfl rfl rfl)
        (textSpelling_escape _)
    have hmembers : MembersSpelling (Spelling 126) true
        [("😀", .object [("type", .list [.text "ping", .number (.integer (-2))])]),
          ("type", .text "subscribe")] _ :=
      .member (.start blanks_nil) hface hspace blanks_nil (.object hinner)
        (.member separator_comma hkey blanks_nil blanks_nil (.scalar (.text hname))
          (.close blanks_nil))
    have htext : IsText (.object _) _ := .mk hspace (.object hmembers) hend
    exact ⟨_, _, htext, ((decode_object_iff htext).1 .subscribe).mpr rfl, rfl, rfl⟩
  · have htext : IsText (.object [("type", .text "ping"), ("type", .text "ping")])
        (Value.object [("type", .text "ping"), ("type", .text "ping")]).toBytes :=
      isText_toBytes (.object (by simp [Value.Plain.text]))
    obtain ⟨e, he, -⟩ := (decode_object_iff htext).2 (by simp [AskedBy])
    exact ⟨htext, e, he⟩

end Request

end HoldToRecord.Wire
