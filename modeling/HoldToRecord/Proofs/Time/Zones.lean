import Mathlib.Tactic
import HoldToRecord.Proofs.Json.TypedText
import HoldToRecord.Proofs.Time.Rfc3339
import HoldToRecord.Session.Event

/-!
# Instants at every zone

The instant of a signal or of a session event may be written at any zone that suits it: one that is
less than a day ahead or behind, and at which the local date is still one of the calendar's range.
Whatever the zone, and however the object around it is spelt, the same signal or event is decoded
(`Signal.takes_toJsonAt`, `SessionEvent.takes_toJsonAt`), so that two texts are decoded alike exactly
if they were written from the same (`decode_across_zones`). Signals are made from milliseconds and
name them again, before 1970 and before the year 0 as well (`Signal.exists_ofMillis`).
-/

namespace HoldToRecord

open HoldToRecord.Json HoldToRecord.Text.Utf8 HoldToRecord.Time

/-! ## Zones -/

namespace Time

/-- Later years begin later. -/
theorem strictMono_daysBeforeYear : StrictMono daysBeforeYear := by
  apply strictMono_int_of_lt_succ
  intro year
  rw [daysBeforeYear_succ, yearLength]
  split <;> omega

/-- A day lies in a year or after it exactly if the year has begun. -/
theorem le_yearOfDay_iff {year days : Int} :
    year ≤ yearOfDay days ↔ daysBeforeYear year ≤ days := by
  obtain ⟨hlow, hhigh⟩ := dayOfYear_bounds days
  constructor
  · intro h
    exact le_trans (strictMono_daysBeforeYear.monotone h) hlow
  · intro h
    have := strictMono_daysBeforeYear.lt_iff_lt.mp (lt_of_le_of_lt h hhigh)
    omega

/-- The days of the range are those of the years from -262143 to 262142. -/
theorem year_ofNumber_bounds_iff (day : Int) :
    -262143 ≤ (Date.ofNumber day).year ∧ (Date.ofNumber day).year ≤ 262142
      ↔ firstDay ≤ day ∧ day ≤ lastDay := by
  show -262143 ≤ yearOfDay (day + epochDay) ∧ yearOfDay (day + epochDay) ≤ 262142 ↔ _
  have hfirst : daysBeforeYear (-262143) = firstDay + epochDay := by decide
  have hlast : daysBeforeYear 262143 = lastDay + epochDay + 1 := by decide
  have hlow := @le_yearOfDay_iff (-262143) (day + epochDay)
  have hhigh := @le_yearOfDay_iff 262143 (day + epochDay)
  omega

namespace Rfc3339

/-- A zone at which an instant can be written so that it is read back. -/
structure Zone.Suits (z : Zone) (i : Instant) : Prop where
  within_day : -1440 < z.minutes ∧ z.minutes < 1440
  year_bounds : -262143 ≤ (Date.ofNumber (localDay z i)).year
    ∧ (Date.ofNumber (localDay z i)).year ≤ 262142

/-- An instant is read back from its text at a zone that suits it. -/
theorem Zone.Suits.read_write {z : Zone} {i : Instant} (h : z.Suits i) :
    read (Rfc3339.write z i) = .ok i := by
  have hminutes := h.within_day
  exact Rfc3339.read_write (by omega) ((year_ofNumber_bounds_iff _).mp h.year_bounds)

/-- Universal Time suits every instant. -/
theorem suits_zulu (i : Instant) : Zone.zulu.Suits i where
  within_day := by decide
  year_bounds := by
    rw [year_ofNumber_bounds_iff, localDay_zulu]
    exact i.valid.1

end Rfc3339

end Time

open Rfc3339 (Zone)

/-! ## Texts at a zone -/

/-- An instant, written at a zone, as a value. -/
def Json.Value.instantAt (z : Zone) (i : Instant) : Value :=
  .text (String.ofList (Rfc3339.write z i))

/-- An instant is a string, and so is no list or object. -/
theorem plain_instantAt {depth : Nat} (z : Zone) (i : Instant) :
    (Value.instantAt z i).Plain depth :=
  .text _

/-- A count fits 64 bits. -/
theorem plain_count {depth : Nat} (n : UInt64) :
    (Value.number (.integer n.toNat)).Plain depth := by
  have := n.toNat_lt
  exact .integer (by omega) (by omega)

variable {z : Zone} {i : Instant}

/-- An instant is taken from its text at a zone that suits it. -/
theorem Json.Kind.takes_instantAt (h : z.Suits i) : Kind.instant.Takes (.instantAt z i) i := by
  refine Kind.takes_checked ?_
  rw [instantOf, String.toList_ofList, h.read_write]
  rfl

/-- A record of an instant alone is taken from its only member. -/
theorem takes_instantRecordAt {α : Type} (title : String) (make : Instant → α) (h : z.Suits i) :
    (instantRecord title make).Takes [("at", .instantAt z i)] (make i) :=
  ⟨some i, .cons rfl rfl ((Kind.takes_instantAt h).field ..) .nil, rfl⟩

namespace Signal

/-- The bare record of a signal, its instant written at a zone. -/
def recordJsonAt (z : Zone) (s : Signal) : Value := .object [("at", .instantAt z s.instant)]

/-- A signal as a tagged object, its instant written at a zone. -/
def toJsonAt (z : Zone) (s : Signal) : Value :=
  .object [("type", .text s.kind.tag), ("at", .instantAt z s.instant)]

theorem plain_recordJsonAt {depth : Nat} (z : Zone) (s : Signal) :
    (s.recordJsonAt z).Plain (depth + 1) :=
  .object (by simp [plain_instantAt])

theorem plain_toJsonAt {depth : Nat} (z : Zone) (s : Signal) : (s.toJsonAt z).Plain (depth + 1) :=
  .object (by simp [plain_instantAt, Value.Plain.text])

variable {s : Signal} {t : Bytes}

/-- A tagged signal is taken from its members. -/
theorem takes_toJsonAt (h : z.Suits s.instant) : format.kind.Takes (s.toJsonAt z) s := by
  have hvariant : format.variant s.kind.tag = .ok (.record s.kind.tag (recordFormat s.kind)) := by
    cases s.kind <;> rfl
  exact UnionFormat.kind_takes hvariant (by simp [UnionFormat.tagKey])
    ((takes_instantRecordAt s.kind.title (Signal.mk s.kind) h).ofBody _)

/-- A text of a signal's bare record, the instant written at some zone that suits it. -/
def RecordedAs (s : Signal) (t : Bytes) : Prop :=
  ∃ z : Zone, z.Suits s.instant ∧ IsText (s.recordJsonAt z) t

/-- A text of a tagged signal, the instant written at some zone that suits it. -/
def WrittenAs (s : Signal) (t : Bytes) : Prop :=
  ∃ z : Zone, z.Suits s.instant ∧ IsText (s.toJsonAt z) t

/-- The compact text is one of them. -/
theorem recordedAs_toBytes (h : z.Suits s.instant) : s.RecordedAs (s.recordJsonAt z).toBytes :=
  ⟨z, h, isText_toBytes (s.plain_recordJsonAt z)⟩

theorem writtenAs_toBytes (h : z.Suits s.instant) : s.WrittenAs (s.toJsonAt z).toBytes :=
  ⟨z, h, isText_toBytes (s.plain_toJsonAt z)⟩

theorem RecordedAs.decodeRecord_eq (h : s.RecordedAs t) : decodeRecord s.kind t = .ok s := by
  obtain ⟨z, hz, ht⟩ := h
  exact (takes_instantRecordAt s.kind.title (Signal.mk s.kind) hz).whole_of_isText ht

theorem WrittenAs.decode_eq (h : s.WrittenAs t) : decode t = .ok s := by
  obtain ⟨z, hz, ht⟩ := h
  exact (takes_toJsonAt hz).whole_of_isText ht

/-- Signals are the same if kind and instant are. -/
theorem eq_iff {s s' : Signal} : s = s' ↔ s.kind = s'.kind ∧ s.instant = s'.instant := by
  cases s
  cases s'
  simp

/-- Milliseconds from the epoch make no signal exactly if they lie outside the range of instants. -/
theorem ofMillis_eq_error_iff (kind : SignalKind) (millis : Int) :
    ofMillis kind millis = .error (outOfRange millis)
      ↔ millis < -8334601228800000 ∨ 8210266876799999 < millis := by
  have hrange := Instant.ofMillis?_isSome_iff millis
  unfold ofMillis
  cases hinstant : Instant.ofMillis? millis with
  | none =>
    simp only [hinstant, Option.isSome_none, Bool.false_eq_true, false_iff] at hrange
    simp only [true_iff]
    omega
  | some i =>
    simp only [hinstant, Option.isSome_some, true_iff] at hrange
    simp only [reduceCtorEq, false_iff]
    omega

/-- Within the range they make a signal, whose instant names them again. -/
theorem exists_ofMillis (kind : SignalKind) {millis : Int}
    (hlow : -8334601228800000 ≤ millis) (hhigh : millis ≤ 8210266876799999) :
    ∃ s, ofMillis kind millis = .ok s ∧ s.kind = kind ∧ s.instant.unixMillis = millis := by
  obtain ⟨i, hi⟩ := Option.isSome_iff_exists.mp
    ((Instant.ofMillis?_isSome_iff millis).mpr ⟨hlow, hhigh⟩)
  refine ⟨⟨kind, i⟩, ?_, rfl, Instant.unixMillis_of_ofMillis? hi⟩
  rw [ofMillis, hi]

end Signal

namespace SessionEvent

/-- The tag of an event. -/
def tag : SessionEvent → String
  | recordingStarted _ => "recording_started"
  | recordingStopped _ _ => "recording_stopped"
  | permissionRequired _ => "permission_required"

/-- The duration that an event carries. -/
def durationMs? : SessionEvent → Option UInt64
  | recordingStopped _ ms => some ms
  | _ => none

/-- An event as a tagged object, its instant written at a zone. -/
def toJsonAt (z : Zone) (e : SessionEvent) : Value :=
  .object (("type", .text e.tag) :: ("at", .instantAt z e.instant)
    :: e.durationMs?.toList.map fun ms => ("duration_ms", .number (.integer ms.toNat)))

/-- Universal Time is the zone at which events are written. -/
theorem toJsonAt_zulu (e : SessionEvent) : e.toJsonAt .zulu = e.toJson := by
  cases e <;> rfl

theorem plain_toJsonAt {depth : Nat} (z : Zone) (e : SessionEvent) :
    (e.toJsonAt z).Plain (depth + 1) := by
  cases e <;> exact .object (by simp [durationMs?, plain_instantAt, plain_count, Value.Plain.text])

variable {e : SessionEvent} {t : Bytes}

/-- An event that ends a recording is taken from its instant and its duration. -/
theorem takes_stoppedRecordAt (h : z.Suits i) (ms : UInt64) :
    stoppedRecord.Takes [("at", .instantAt z i), ("duration_ms", .number (.integer ms.toNat))]
      (recordingStopped i ms) :=
  ⟨(some i, some ms), .cons rfl rfl ((Kind.takes_instantAt h).field ..)
    (.cons rfl rfl ((Kind.takes_count ms).field ..) .nil), rfl⟩

/-- A session event is taken from its members. -/
theorem takes_toJsonAt (h : z.Suits e.instant) : format.kind.Takes (e.toJsonAt z) e := by
  cases e with
  | recordingStarted i =>
    exact UnionFormat.kind_takes (show format.variant "recording_started" = .ok _ from rfl)
      (by simp [UnionFormat.tagKey, durationMs?])
      ((takes_instantRecordAt _ recordingStarted h).ofBody _)
  | recordingStopped i ms =>
    exact UnionFormat.kind_takes (show format.variant "recording_stopped" = .ok _ from rfl)
      (by simp [UnionFormat.tagKey, durationMs?]) ((takes_stoppedRecordAt h ms).ofBody _)
  | permissionRequired i =>
    exact UnionFormat.kind_takes (show format.variant "permission_required" = .ok _ from rfl)
      (by simp [UnionFormat.tagKey, durationMs?])
      ((takes_instantRecordAt _ permissionRequired h).ofBody _)

/-- A text of an event, the instant written at some zone that suits it. -/
def WrittenAs (e : SessionEvent) (t : Bytes) : Prop :=
  ∃ z : Zone, z.Suits e.instant ∧ IsText (e.toJsonAt z) t

/-- The compact text is one of them. -/
theorem writtenAs_toBytes (h : z.Suits e.instant) : e.WrittenAs (e.toJsonAt z).toBytes :=
  ⟨z, h, isText_toBytes (e.plain_toJsonAt z)⟩

theorem WrittenAs.decode_eq (h : e.WrittenAs t) : decode t = .ok e := by
  obtain ⟨z, hz, ht⟩ := h
  exact (takes_toJsonAt hz).whole_of_isText ht

/-- Events are the same if tag, instant and duration are. -/
theorem eq_iff {e e' : SessionEvent} :
    e = e' ↔ e.tag = e'.tag ∧ e.instant = e'.instant ∧ e.durationMs? = e'.durationMs? := by
  cases e <;> cases e' <;> simp [tag, instant, durationMs?]

end SessionEvent

/-! ## Instants survive -/

/-- **Instants survive.**  Milliseconds from the epoch make a signal of any kind unless they lie
outside the range of instants, and the signal's instant names them again. From every text whose
instant is written at a zone that suits it the same record, signal or session event is decoded; so
two such texts are decoded alike exactly if kind and instant, and the duration if there is one, are
the same. -/
theorem decode_across_zones :
    (∀ (kind : SignalKind) (millis : Int),
      (Signal.ofMillis kind millis
          = .error (.invalidArgument
            ("timestamp " ++ String.ofList (Decimal.signed millis) ++ "ms is out of range"))
        ↔ millis < -8334601228800000 ∨ 8210266876799999 < millis)
        ∧ (-8334601228800000 ≤ millis → millis ≤ 8210266876799999 →
          ∃ s, Signal.ofMillis kind millis = .ok s ∧ s.kind = kind
            ∧ s.instant.unixMillis = millis))
      ∧ (∀ (s : Signal) (t : Bytes), s.RecordedAs t → Signal.decodeRecord s.kind t = .ok s)
      ∧ (∀ (s : Signal) (t : Bytes), s.WrittenAs t → Signal.decode t = .ok s)
      ∧ (∀ (e : SessionEvent) (t : Bytes), e.WrittenAs t → SessionEvent.decode t = .ok e)
      ∧ (∀ (s s' : Signal) (t t' : Bytes), s.RecordedAs t → s'.RecordedAs t' → s.kind = s'.kind →
        (Signal.decodeRecord s.kind t = Signal.decodeRecord s'.kind t' ↔ s.instant = s'.instant))
      ∧ (∀ (s s' : Signal) (t t' : Bytes), s.WrittenAs t → s'.WrittenAs t' →
        (Signal.decode t = Signal.decode t' ↔ s.kind = s'.kind ∧ s.instant = s'.instant))
      ∧ ∀ (e e' : SessionEvent) (t t' : Bytes), e.WrittenAs t → e'.WrittenAs t' →
        (SessionEvent.decode t = SessionEvent.decode t'
          ↔ e.tag = e'.tag ∧ e.instant = e'.instant ∧ e.durationMs? = e'.durationMs?) := by
  refine ⟨fun kind millis => ⟨Signal.ofMillis_eq_error_iff kind millis,
      Signal.exists_ofMillis kind⟩, fun s t h => h.decodeRecord_eq, fun s t h => h.decode_eq,
    fun e t h => h.decode_eq, ?_, ?_, ?_⟩
  · intro s s' t t' h h' hkind
    rw [h.decodeRecord_eq, h'.decodeRecord_eq, Except.ok.injEq, Signal.eq_iff, and_iff_right hkind]
  · intro s s' t t' h h'
    rw [h.decode_eq, h'.decode_eq, Except.ok.injEq, Signal.eq_iff]
  · intro e e' t t' h h'
    rw [h.decode_eq, h'.decode_eq, Except.ok.injEq, SessionEvent.eq_iff]

/-- The last millisecond of the year -2, written where it is the year -1 already, and at Universal
Time; and a recording that stopped within a leap second, written where the day had not ended. -/
theorem decode_across_zones_year :
    (∃ s r t t', Signal.ofMillis .released (-62198755200001) = .ok s
      ∧ s.instant.unixMillis = -62198755200001
      ∧ s.RecordedAs r ∧ Signal.decodeRecord .released r = .ok s
      ∧ s.WrittenAs t ∧ Signal.decode t = .ok s
      ∧ s.WrittenAs t' ∧ Signal.decode t = Signal.decode t'
      ∧ r = ofString "\x7b\"at\":\"-0001-01-01T00:00:59.999+00:01\"\x7d"
      ∧ t = ofString "\x7b\"type\":\"released\",\"at\":\"-0001-01-01T00:00:59.999+00:01\"\x7d"
      ∧ t' = ofString "\x7b\"type\":\"released\",\"at\":\"-0002-12-31T23:59:59.999Z\"\x7d")
    ∧ ∃ e t, e.WrittenAs t ∧ SessionEvent.decode t = .ok e ∧ e.durationMs? = some 1500
      ∧ t = ofString ("\x7b\"type\":\"recording_stopped\","
        ++ "\"at\":\"2016-12-31T18:29:60.500-05:30\",\"duration_ms\":1500\x7d") := by
  obtain ⟨hmillis, hrecords, hsignals, hevents, -, hequal, -⟩ := decode_across_zones
  constructor
  · obtain ⟨s, hs, -, hback⟩ := (hmillis .released (-62198755200001)).2 (by decide) (by decide)
    obtain rfl : (⟨.released, ⟨-719894, 86399, 999000000, by decide⟩⟩ : Signal) = s :=
      Except.ok.inj hs
    have hsuits : (Zone.ahead 1).Suits ⟨-719894, 86399, 999000000, by decide⟩ :=
      ⟨by decide, by decide⟩
    have hrecord := Signal.recordedAs_toBytes (s := ⟨.released, _⟩) hsuits
    have hahead := Signal.writtenAs_toBytes (s := ⟨.released, _⟩) hsuits
    have hzulu := Signal.writtenAs_toBytes (s := ⟨.released, _⟩)
      (Rfc3339.suits_zulu ⟨-719894, 86399, 999000000, by decide⟩)
    have hbare := hrecords _ _ hrecord
    have hsame := (hequal _ _ _ _ hahead hzulu).mpr ⟨rfl, rfl⟩
    exact ⟨_, _, _, _, hs, hback, hrecord, hbare, hahead, hsignals _ _ hahead, hzulu, hsame,
      by decide +kernel, by decide +kernel, by decide +kernel⟩
  · have hwritten := SessionEvent.writtenAs_toBytes (z := .ahead (-330))
      (e := .recordingStopped ⟨17166, 86399, 1500000000, by decide⟩ 1500) ⟨by decide, by decide⟩
    exact ⟨_, _, hwritten, hevents _ _ hwritten, rfl, by decide +kernel⟩

end HoldToRecord
