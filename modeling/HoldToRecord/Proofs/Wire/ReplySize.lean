import Mathlib.Tactic
import HoldToRecord.Proofs.Json.FaultSize
import HoldToRecord.Proofs.Time.Rfc3339
import HoldToRecord.Proofs.Wire.Closing
import HoldToRecord.Wire.Connection

/-!
# How long replies are

A reply that is longer than `maxBody` cannot be read back by the client that it is for. Replies to
requests are short, whatever the status (`Status.Reachable`). A reply to anything else repeats parts
of the body, up to seven bytes for each of them, so it stays within the limit for every body of at
most 149778 bytes, and for no greater length of bodies (`isReadable_reply_iff`).
-/

namespace HoldToRecord

open HoldToRecord.Json HoldToRecord.Time HoldToRecord.Text.Utf8 HoldToRecord.Decimal

/-! ## Sizes of values -/

namespace Json

/-- How many bytes a value takes. -/
def Value.size (v : Value) : Nat := v.toBytes.length

/-- A text takes two bytes for its quotes. -/
theorem Value.size_text (s : String) : (Value.text s).size = textSize s + 2 := by
  rw [Value.size, Value.toBytes, Value.write, length_encode_writeText, textSize]

/-- How many bytes members take, with the commas between them. -/
def membersSize (members : List (String × Value)) : Nat := (encode (writeMembers members)).length

/-- A single member takes its key with the quotes, a colon and its value. -/
theorem membersSize_singleton (k : String) (v : Value) :
    membersSize [(k, v)] = textSize k + 3 + v.size := by
  rw [membersSize, writeMembers, encode_append, List.length_append, length_encode_writeText,
    length_encode_cons, ← Value.toBytes, ← Value.size, textSize,
    show (':' : Char).utf8Size = 1 from rfl]
  omega

/-- A member before others takes a comma more. -/
theorem membersSize_cons (k : String) (v : Value) (m : String × Value)
    (members : List (String × Value)) :
    membersSize ((k, v) :: m :: members)
      = textSize k + 4 + v.size + membersSize (m :: members) := by
  rw [membersSize, writeMembers, encode_append, encode_append, List.length_append,
    List.length_append, length_encode_writeText, length_encode_cons, length_encode_cons,
    ← Value.toBytes, ← Value.size, ← membersSize, textSize,
    show (':' : Char).utf8Size = 1 from rfl, show (',' : Char).utf8Size = 1 from rfl]
  omega

/-- An object takes two bytes for its brackets. -/
theorem Value.size_object (members : List (String × Value)) :
    (Value.object members).size = membersSize members + 2 := by
  rw [Value.size, Value.toBytes, Value.write, List.cons_append, length_encode_cons, encode_append,
    List.length_append, membersSize, show ('\x7b' : Char).utf8Size = 1 from rfl,
    show (encode ['\x7d']).length = 1 from rfl]
  omega

end Json

/-! ## The text of an instant -/

namespace Time

/-- The text of an instant has at most 33 characters. -/
theorem length_text_le (i : Instant) : (Rfc3339.text i).toList.length ≤ 33 := by
  obtain ⟨⟨hfirst, hlast⟩, hsecond, -⟩ := i.valid
  have hday := Rfc3339.localDay_zulu i
  have hyear := natAbs_yearOfDay_lt hfirst hlast
  have hwritten : (Rfc3339.writeYear (yearOfDay (i.day + epochDay))).length ≤ 7 := by
    have hdigits := length_digits_le (by decide) hyear
    unfold Rfc3339.writeYear atLeast
    split_ifs <;> simp only [List.length_cons, length_padded] <;> omega
  have hfraction : ∀ n, (Rfc3339.writeFraction n).length ≤ 10 := by
    intro n
    unfold Rfc3339.writeFraction
    split_ifs <;> simp only [List.length_cons, List.length_nil, length_padded] <;> omega
  have := hfraction (i.nano % 1000000000)
  rw [Rfc3339.text, String.toList_ofList, Rfc3339.write, hday]
  simp only [Rfc3339.writeDate, Rfc3339.writeTime, Rfc3339.Zone.write, Date.ofNumber,
    List.length_append, List.length_cons, List.length_nil, length_padded]
  omega

end Time

/-! ## Statuses -/

namespace Status

/-- The statuses that a daemon can come to have. -/
inductive Reachable : Status → Prop
  | initial : Reachable .initial
  | setHotkey {s : Status} (hotkey : Hotkey) (registered : Bool) :
    Reachable s → Reachable (s.setHotkey hotkey registered)
  | apply {s : Status} (event : SessionEvent) : Reachable s → Reachable (s.apply event)
  | uptime {s : Status} (secs : UInt64) : Reachable s → Reachable { s with uptimeSecs := secs }

/-- The text of a hotkey is short. -/
theorem textSize_display_le (h : Hotkey) : textSize h.display ≤ 28 := by
  obtain ⟨⟨control, option, command, shift⟩⟩ := h
  cases control <;> cases option <;> cases command <;> cases shift <;> decide

/-- A daemon reports its version, and the hotkey that was set. -/
theorem Reachable.texts {s : Status} (h : s.Reachable) :
    s.version = currentVersion ∧ textSize s.hotkey ≤ 28 := by
  induction h with
  | initial => exact ⟨rfl, by decide⟩
  | setHotkey hotkey _ _ ih => exact ⟨ih.1, textSize_display_le hotkey⟩
  | apply _ _ ih => exact ih
  | uptime _ _ ih => exact ih

/-- The members of a status take few bytes. -/
theorem Reachable.membersSize_le {s : Status} (h : s.Reachable) : membersSize s.members ≤ 1000 := by
  obtain ⟨hversion, hhotkey⟩ := h.texts
  have hmode : s.mode.toJson.size ≤ 30 := by
    rw [Mode.toJson, Value.size_text]
    cases s.mode <;> decide
  have hregistered : (Value.boolean s.hotkeyRegistered).size ≤ 5 := by
    cases s.hotkeyRegistered <;> decide
  have huptime : (Value.number (.integer s.uptimeSecs.toNat)).size ≤ 84 := by
    have hdigits : (signed s.uptimeSecs.toNat).length ≤ 21 := by
      refine length_signed_le (by decide) ?_
      have := s.uptimeSecs.toNat_lt
      rw [Int.natAbs_natCast]
      omega
    exact le_trans (length_encode_le _) (Nat.mul_le_mul_left 4 hdigits)
  have hnull : Value.null.size ≤ 200 := by decide
  have hinstant : ∀ i, (Value.instant i).size ≤ 200 := by
    intro i
    have hlength := length_text_le i
    have hsize : textSize (Rfc3339.text i) ≤ _ := escapedSize_le_length _
    rw [Value.instant, Value.size_text]
    omega
  rw [members, membersSize_cons, membersSize_cons, membersSize_cons, membersSize_cons,
    membersSize_cons, membersSize_singleton, Value.size_text, Value.size_text, hversion,
    show textSize "version" = 7 by decide, show textSize currentVersion = 5 by decide,
    show textSize "hotkey" = 6 by decide, show textSize "mode" = 4 by decide,
    show textSize "hotkey_registered" = 17 by decide, show textSize "last_event_at" = 13 by decide,
    show textSize "uptime_secs" = 11 by decide]
  rcases s.lastEventAt with _ | i
  · dsimp only
    omega
  · have := hinstant i
    dsimp only
    omega

end Status

/-! ## Reading a reply back -/

namespace Wire

/-- A body that whoever is sent its frame reads back, however the bytes arrive. -/
def IsReadable (body : Bytes) : Prop :=
  ∀ s : Source, s.pieces.flatten = frame body →
    ∃ t, s.read = (.body body, t) ∧ t.pieces.flatten = []

/-- The bodies that can be read back are those within the limit. -/
theorem isReadable_iff {body : Bytes} : IsReadable body ↔ body.length ≤ maxBody := by
  constructor
  · intro h
    obtain ⟨t, hread, -⟩ := h ⟨[frame body], none⟩ (by simp)
    exact (Source.frame_of_read hread).1
  · intro h s hs
    obtain ⟨t, hread, ht, -⟩ := Source.read_of_frame (s := s) h (by rw [hs, List.append_nil])
    exact ⟨t, hread, ht⟩

namespace Connection

/-- The reply to a text that is no request: its message, and fifty bytes around it. -/
theorem length_reply_of_error (status : Status) {body : Bytes} {e : Error}
    (h : Request.decode body = .error e) :
    (reply status body).toJson.toBytes.length = textSize e.message + 50 := by
  have hreply : reply status body = .error "bad_request" e.message := by
    rw [reply, h]
    rfl
  rw [hreply]
  show (Value.object [("type", .text "error"), ("code", .text "bad_request"),
    ("message", .text e.message)]).size = _
  rw [Value.size_object, membersSize_cons, membersSize_cons, membersSize_singleton,
    Value.size_text, Value.size_text, Value.size_text, show textSize "type" = 4 by decide,
    show textSize "error" = 5 by decide, show textSize "code" = 4 by decide,
    show textSize "bad_request" = 11 by decide, show textSize "message" = 7 by decide]
  omega

/-- The reply to a request is short. -/
theorem length_reply_of_ok {status : Status} (hstatus : status.Reachable) {body : Bytes}
    {request : Request} (h : Request.decode body = .ok request) :
    (reply status body).toJson.toBytes.length ≤ 1100 := by
  have hreply : reply status body = respond status request := by
    rw [reply, h]
  rw [hreply]
  cases request with
  | ping => exact show Response.pong.toJson.toBytes.length ≤ 1100 by decide
  | subscribe => exact show Response.subscribed.toJson.toBytes.length ≤ 1100 by decide
  | getStatus =>
    have := hstatus.membersSize_le
    show (Value.object (("type", .text "status") :: status.members)).size ≤ _
    rw [Value.size_object, Status.members, membersSize_cons, ← Status.members, Value.size_text,
      show textSize "type" = 4 by decide, show textSize "status" = 6 by decide]
    omega

/-! ## The limit -/

/-- Requests form a union of tags, with short names. -/
theorem isPlain_format : Request.format.IsPlain where
  unit := by
    intro v hv
    simp only [Request.format, List.mem_map] at hv
    obtain ⟨r, -, rfl⟩ := hv
    exact ⟨r, rfl⟩
  title_le := by decide
  names_le := by decide

/-- A reply to a body of at most 149778 bytes is within the limit. -/
theorem length_reply_le {status : Status} (hstatus : status.Reachable) {body : Bytes}
    (h : body.length ≤ 149778) : (reply status body).toJson.toBytes.length ≤ maxBody := by
  rcases hdecode : Request.decode body with e | request
  · obtain ⟨f, hf, rfl⟩ := Yields.of_whole_error (isPlain_format.read_yields body)
      (fun _ hm => hm.within _) hdecode
    -- seven bytes for each of the body, and 130 more: 80 for the message, 50 around it
    have := hf.textSize_message_le (k := 5) (by decide) (by omega)
    rw [length_reply_of_error status hdecode, maxBody]
    omega
  · exact le_trans (length_reply_of_ok hstatus hdecode) (by decide)

/-! ### The worst bodies -/

/-- A JSON string of U+007F. -/
def deletes (k : Nat) : Bytes := byte '"' :: (List.replicate k 127 ++ [byte '"'])

/-- It has two quotes. -/
theorem length_deletes (k : Nat) : (deletes k).length = k + 2 := by
  simp [deletes]

/-- A string holds its bytes. -/
theorem bodyOnto_deletes (acc : Bytes) (k : Nat) :
    bodyOnto acc (List.replicate k 127 ++ [byte '"'])
      = .ok (acc.reverse ++ List.replicate k 127, []) := by
  induction k generalizing acc with
  | zero => simp [bodyOnto]
  | succ k ih =>
    rw [List.replicate_succ, List.cons_append, bodyOnto, if_neg (by decide), if_neg (by decide),
      if_neg (by decide), ih]
    simp

/-- Each of them is a character. -/
theorem decodeOnto_deletes (acc : List Char) (k : Nat) :
    decodeOnto acc (List.replicate k 127) = .ok (acc.reverse ++ List.replicate k '\x7f') := by
  induction k generalizing acc with
  | zero =>
    rw [decodeOnto]
    simp [next?]
  | succ k ih =>
    have hnext : next? (List.replicate (k + 1) 127) = some ('\x7f', List.replicate k 127) := rfl
    rw [decodeOnto, hnext]
    simp only
    rw [ih]
    simp [List.replicate_succ]

/-- So the string is read as a text. -/
theorem scalar_deletes (k : Nat) :
    scalar (byte '"') (List.replicate k 127 ++ [byte '"'])
      = .ok (.text (String.ofList (List.replicate k '\x7f')), []) := by
  have htext : text (List.replicate k 127 ++ [byte '"'])
      = .ok (String.ofList (List.replicate k '\x7f'), []) := by
    have hdecode : decode ([].reverse ++ List.replicate k 127)
        = .ok (List.replicate k '\x7f') := decodeOnto_deletes [] k
    rw [text, bodyOnto_deletes]
    simp only [bind, Except.bind]
    rw [hdecode]
  unfold scalar
  rw [if_neg (by decide), if_neg (by decide), if_neg (by decide), if_neg (by decide),
    if_neg (by decide), if_pos rfl, htext]
  rfl

/-- It stands on one line. -/
theorem after_deletes (k : Nat) : Place.after (deletes k) = ⟨1, k + 2⟩ := by
  have hline : ∀ b ∈ deletes k, b ≠ 10 := by
    intro b hb
    simp only [deletes, List.mem_cons, List.mem_append, List.mem_replicate, List.not_mem_nil,
      or_false] at hb
    rcases hb with rfl | ⟨-, rfl⟩ | rfl <;> decide
  rw [Place.after_of_one_line hline, length_deletes]

/-- Such a string is no request, and it is quoted in the message. -/
theorem decode_deletes (k : Nat) :
    Request.decode (deletes k)
      = .error ⟨.mismatch (.wrongType (.text (String.ofList (List.replicate k '\x7f')))
          "internally tagged enum Request"), some ⟨1, k + 2⟩⟩ := by
  have hread : Request.format.read (deletes k)
      = .error (.mismatch (.wrongType (.text (String.ofList (List.replicate k '\x7f')))
          "internally tagged enum Request") []) := by
    have hblank : skipBlank (deletes k) = deletes k := by
      rw [deletes, skipBlank, if_neg (by decide)]
    unfold UnionFormat.read
    rw [hblank, deletes]
    dsimp only
    rw [if_neg (by decide), if_neg (by decide)]
    unfold unwanted
    rw [if_neg (by decide), if_neg (by decide), scalar_deletes]
    rfl
  unfold Request.decode whole
  rw [hread]
  dsimp only [Fault.locate, Fault.mismatch]
  simp only [Option.map_some, List.length_nil, Nat.sub_zero, List.take_length, after_deletes]

/-- **The worst replies.**  The reply to such a string has seven bytes for each U+007F. -/
theorem length_reply_deletes (status : Status) (k : Nat) :
    (reply status (deletes k)).toJson.toBytes.length
      = 7 * k + 134 + (digits (k + 2)).length := by
  rw [length_reply_of_error status (decode_deletes k)]
  show textSize ("invalid type: "
    ++ ("string " ++ Text.Quoted.quote (String.ofList (List.replicate k '\x7f')))
    ++ ", expected " ++ "internally tagged enum Request" ++ " at line "
    ++ String.ofList (digits 1) ++ " column " ++ String.ofList (digits (k + 2))) + 50 = _
  have hquote : textSize (Text.Quoted.quote (String.ofList (List.replicate k '\x7f')))
      = 7 * k + 4 := escapedSize_quote_replicate k
  have h1 : textSize "invalid type: " = 14 := by decide
  have h2 : textSize "string " = 7 := by decide
  have h3 : textSize ", expected " = 11 := by decide
  have h4 : textSize "internally tagged enum Request" = 30 := by decide
  have h5 : textSize " at line " = 9 := by decide
  have h6 : textSize " column " = 8 := by decide
  simp only [textSize_append, textSize_digits, hquote, h1, h2, h3, h4, h5, h6]
  have h7 : (digits 1).length = 1 := by
    rw [digits, dif_pos (by decide)]
    rfl
  omega

/-- **Which replies can be read back.**  In every status a daemon can come to have, the reply to a
body can be read back exactly when the message is not too long in case the body is no request. That
is so for all bodies of a length exactly when the length is at most 149778. -/
theorem isReadable_reply_iff {status : Status} (hstatus : status.Reachable) :
    (∀ body, IsReadable (reply status body).toJson.toBytes
        ↔ ∀ e, Request.decode body = .error e → textSize e.message + 50 ≤ maxBody)
      ∧ ∀ n, (∀ body : Bytes, body.length = n → IsReadable (reply status body).toJson.toBytes)
        ↔ n ≤ 149778 := by
  refine ⟨fun body => ?_, fun n => ⟨fun h => ?_, fun hn body hbody => ?_⟩⟩
  · rw [isReadable_iff]
    rcases hdecode : Request.decode body with e | request
    · rw [length_reply_of_error status hdecode]
      constructor
      · rintro h _ ⟨⟩
        exact h
      · exact fun h => h e rfl
    · have := length_reply_of_ok hstatus hdecode
      constructor
      · rintro - _ ⟨⟩
      · exact fun _ => le_trans this (by decide)
  · -- of any greater length there is a string of U+007F
    by_contra hn
    have hreadable := h (deletes (n - 2)) (by rw [length_deletes]; omega)
    rw [isReadable_iff, length_reply_deletes, maxBody] at hreadable
    have := lt_length_digits (k := 5) (n := n - 2 + 2) (by omega)
    omega
  · exact isReadable_iff.mpr (length_reply_le hstatus (by omega))

/-- The longest string of U+007F that is answered within the limit. -/
theorem isReadable_reply_deletes : Status.Reachable .initial ∧ (deletes 149776).length = 149778
    ∧ IsReadable (reply .initial (deletes 149776)).toJson.toBytes :=
  ⟨.initial, length_deletes _,
    ((isReadable_reply_iff .initial).2 149778).mpr (Nat.le_refl _) _ (length_deletes _)⟩

/-- One U+007F more, in a body far below the limit, is too much. -/
theorem not_isReadable_reply_deletes : Status.Reachable .initial
    ∧ (deletes 149777).length ≤ maxBody
    ∧ maxBody < (reply .initial (deletes 149777)).toJson.toBytes.length
    ∧ ¬ IsReadable (reply .initial (deletes 149777)).toJson.toBytes := by
  have hlength : maxBody < (reply .initial (deletes 149777)).toJson.toBytes.length := by
    have := lt_length_digits (k := 5) (n := 149777 + 2) (by decide)
    rw [length_reply_deletes, maxBody]
    omega
  refine ⟨.initial, ?_, hlength, fun h => ?_⟩
  · rw [length_deletes, maxBody]
    omega
  · exact absurd (isReadable_iff.mp h) (Nat.not_le.mpr hlength)

end Connection

end Wire

end HoldToRecord
