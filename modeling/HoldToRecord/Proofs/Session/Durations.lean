import Mathlib.Tactic
import HoldToRecord.Proofs.Session.Trace

/-!
# The time that recordings take

Signals whose instants never go back cause events whose instants never go back (`timed_run`), so the
recordings of a run lie one behind the other. Along the trace, what the recordings took so far is no
more than the time from the first event to the start of the open recording, or to now if none is
open (`Recordings.recordedMs_le_open`). The main statement, `durations_sound`, puts this together
with what is true of any two instants.
-/

namespace HoldToRecord

open HoldToRecord.Time

/-- The length that an event gives to the recording that it closes. -/
def SessionEvent.duration? : SessionEvent → Option UInt64
  | recordingStopped _ ms => some ms
  | _ => none

namespace Session

/-! ## The length of one recording -/

/-- No recording is longer than the representable range, up to a leap second. -/
theorem toNat_durationMs_le (started stopped : Instant) :
    (durationMs started stopped).toNat
      ≤ 16544868105599999 + Instant.leapMillis stopped started := by
  have hd := toNat_durationMs started stopped
  have hle := Instant.elapsedMillis_le stopped started
  omega

example : durationMs ⟨firstDay, 0, 0, by decide⟩ ⟨lastDay, 86399, 999999999, by decide⟩
    = 16544868105599999 := by
  decide

/-- A recording that ends before it starts has no length, unless a leap second takes part. -/
theorem durationMs_eq_zero {started stopped : Instant} (h : stopped < started)
    (hstarted : started.inLeapSecond = false) (hstopped : stopped.inLeapSecond = false) :
    durationMs started stopped = 0 := by
  have hd := toNat_durationMs started stopped
  rw [Instant.elapsedMillis_swap, Instant.elapsedMillis_eq h.le hstarted hstopped] at hd
  have hnanos := (Instant.le_iff_nanos hstopped hstarted).mp h.le
  apply UInt64.toNat.inj
  rw [UInt64.toNat_zero]
  omega

/-- Outside leap seconds, a recording has as many milliseconds as fit between its instants. -/
theorem durationMs_bounds {started stopped : Instant} (h : started ≤ stopped)
    (hstarted : started.inLeapSecond = false) (hstopped : stopped.inLeapSecond = false) :
    ((durationMs started stopped).toNat : ℤ) * 1000000 ≤ stopped.nanos - started.nanos
      ∧ stopped.nanos - started.nanos
          < ((durationMs started stopped).toNat + 1 : ℤ) * 1000000 := by
  have hd := toNat_durationMs started stopped
  rw [Instant.elapsedMillis_eq h hstopped hstarted] at hd
  have hnanos := (Instant.le_iff_nanos hstarted hstopped).mp h
  omega

/-! ## The order of the events -/

/-- Events whose instants never go back and avoid leap seconds. -/
structure Timed (events : List SessionEvent) : Prop where
  order : events.Pairwise fun a b => a.instant ≤ b.instant
  clock : ∀ e ∈ events, e.instant.inLeapSecond = false

/-- Events without the last one, which no one of them is behind. -/
theorem Timed.of_concat {events : List SessionEvent} {e : SessionEvent}
    (h : Timed (events ++ [e])) :
    Timed events ∧ ∀ d ∈ events, d.instant ≤ e.instant ∧ d.instant.nanos ≤ e.instant.nanos := by
  obtain ⟨horder, -, hbehind⟩ := List.pairwise_append.mp h.order
  have hclock : ∀ d ∈ events, d.instant.inLeapSecond = false := by
    intro d hd
    exact h.clock d (List.mem_append_left _ hd)
  refine ⟨⟨horder, hclock⟩, ?_⟩
  intro d hd
  have hle : d.instant ≤ e.instant := hbehind d hd e (List.mem_singleton_self e)
  exact ⟨hle, (Instant.le_iff_nanos (hclock d hd) (h.clock e (by simp))).mp hle⟩

/-- Every event of a run carries the instant of one of the signals. -/
theorem exists_signal_of_mem_run {signals : List Signal} {e : SessionEvent}
    (h : e ∈ (idle.run signals).2) : ∃ s ∈ signals, e.instant = s.instant := by
  induction signals using List.reverseRecOn with
  | nil => simp [run] at h
  | append_singleton signals s ih =>
    rw [run_concat, List.mem_append] at h
    rcases h with h | h
    · obtain ⟨s', hs', heq⟩ := ih h
      exact ⟨s', List.mem_append_left _ hs', heq⟩
    · exact ⟨s, by simp, instant_of_mem_step h⟩

/-- Signals whose instants never go back cause events whose instants never go back. -/
theorem pairwise_run {signals : List Signal}
    (h : signals.Pairwise fun a b => a.instant ≤ b.instant) :
    (idle.run signals).2.Pairwise fun a b => a.instant ≤ b.instant := by
  induction signals using List.reverseRecOn with
  | nil => exact .nil
  | append_singleton signals s ih =>
    rw [List.pairwise_append] at h
    obtain ⟨hsignals, -, hlast⟩ := h
    rw [run_concat, List.pairwise_append]
    refine ⟨ih hsignals, ?_, ?_⟩
    · -- the events of one signal all carry its instant
      apply List.pairwise_of_forall_mem_list
      intro d hd e he
      rw [instant_of_mem_step hd, instant_of_mem_step he]
    · intro d hd e he
      obtain ⟨s', hs', heq⟩ := exists_signal_of_mem_run hd
      rw [heq, instant_of_mem_step he]
      exact hlast s' hs' s (by simp)

/-- Signals whose instants never go back and avoid leap seconds cause such events. -/
theorem timed_run {signals : List Signal} (h : signals.Pairwise fun a b => a.instant ≤ b.instant)
    (hclock : ∀ s ∈ signals, s.instant.inLeapSecond = false) : Timed (idle.run signals).2 := by
  refine ⟨pairwise_run h, ?_⟩
  intro e he
  obtain ⟨s, hs, heq⟩ := exists_signal_of_mem_run he
  rw [heq]
  exact hclock s hs

/-- The instants of signals that never go back lie between the first and the last one. -/
theorem between_ends {signals : List Signal} {first last : Signal}
    (h : signals.Pairwise fun a b => a.instant ≤ b.instant) (hfirst : signals.head? = some first)
    (hlast : signals.getLast? = some last) :
    ∀ s ∈ signals, first.instant ≤ s.instant ∧ s.instant ≤ last.instant := by
  intro s hs
  constructor
  · obtain ⟨later, rfl⟩ := List.head?_eq_some_iff.mp hfirst
    rcases List.mem_cons.mp hs with rfl | hs
    · exact le_rfl
    · exact (List.pairwise_cons.mp h).1 s hs
  · obtain ⟨earlier, rfl⟩ := List.getLast?_eq_some_iff.mp hlast
    rcases List.mem_append.mp hs with hs | hs
    · exact (List.pairwise_append.mp h).2.2 s hs last (List.mem_singleton_self last)
    · rw [List.mem_singleton.mp hs]

/-! ## The time of all recordings -/

/-- Milliseconds of all recordings that some events close. -/
def recordedMs (events : List SessionEvent) : ℕ :=
  ((events.filterMap (·.duration?)).map UInt64.toNat).sum

/-- One more event adds the recording that it closes. -/
theorem recordedMs_concat (events : List SessionEvent) (e : SessionEvent) :
    recordedMs (events ++ [e]) = recordedMs events + (e.duration?.elim 0 UInt64.toNat) := by
  cases h : e.duration? <;> simp [recordedMs, h]

/-- The start of the recording that a trace leaves open is one of its events. -/
theorem Recordings.start_mem {events : List SessionEvent} {s : Instant}
    (h : Recordings events (some s)) : .recordingStarted s ∈ events := by
  obtain ⟨before, inside, rfl, -⟩ := (h.openSince_iff s).mpr rfl
  simp

/-- The recordings of a trace took no more time than there is between its first event and the start
of the open recording, or its end if none is open. -/
theorem Recordings.recordedMs_le_open {events : List SessionEvent} {o : Option Instant}
    (h : Recordings events o) (htimed : Timed events) {first last : ℤ} (hspan : first ≤ last)
    (hfirst : ∀ e ∈ events, first ≤ e.instant.nanos)
    (hlast : ∀ e ∈ events, e.instant.nanos ≤ last) :
    first + recordedMs events * 1000000 ≤ o.elim last Instant.nanos := by
  induction h generalizing last with
  | nil => simpa [recordedMs] using hspan
  | @snoc events p q e hr hp ih =>
    obtain ⟨htimed', hbehind⟩ := htimed.of_concat
    have hend : first ≤ e.instant.nanos ∧ e.instant.nanos ≤ last :=
      ⟨hfirst e (by simp), hlast e (by simp)⟩
    -- up to the instant of the new event, the recordings before it took the time they had
    have hsofar := ih htimed' hend.1 (fun d hd => hfirst d (List.mem_append_left _ hd))
      fun d hd => (hbehind d hd).2
    rw [recordedMs_concat]
    cases hp with
    | start i =>
      simp only [SessionEvent.duration?, Option.elim_none, add_zero]
      exact hsofar
    | ask i =>
      simp only [SessionEvent.duration?, Option.elim_none, add_zero]
      exact le_trans hsofar hend.2
    | stop s i =>
      have hs : s ≤ i := (hbehind _ hr.start_mem).1
      have hclock : i.inLeapSecond = false := htimed.clock (Session.stop s i) (by simp)
      have hd := (durationMs_bounds hs (htimed'.clock _ hr.start_mem) hclock).1
      simp only [stop, SessionEvent.duration?, SessionEvent.instant, Option.elim_none,
        Option.elim_some] at hsofar hend ⊢
      push_cast
      omega

/-- The recordings of a trace took no more time than the trace. -/
theorem Recordings.recordedMs_le {events : List SessionEvent} {o : Option Instant}
    (h : Recordings events o) (htimed : Timed events) {first last : ℤ} (hspan : first ≤ last)
    (hfirst : ∀ e ∈ events, first ≤ e.instant.nanos)
    (hlast : ∀ e ∈ events, e.instant.nanos ≤ last) :
    (recordedMs events : ℤ) ≤ (last - first) / 1000000 := by
  have hle := h.recordedMs_le_open htimed hspan hfirst hlast
  have hopen : o.elim last Instant.nanos ≤ last := by
    cases o with
    | none => exact le_rfl
    | some s => exact hlast (.recordingStarted s) h.start_mem
  omega

/-- The lengths that a trace gives to its recordings are less than a millisecond short of exact. -/
theorem Recordings.duration_exact {events : List SessionEvent} {o : Option Instant}
    (h : Recordings events o) (htimed : Timed events) {before after : List SessionEvent}
    {t : Instant} {d : UInt64} (heq : events = before ++ .recordingStopped t d :: after) :
    ∃ s, OpenSince before s ∧ (d.toNat : ℤ) * 1000000 ≤ t.nanos - s.nanos
      ∧ t.nanos - s.nanos < (d.toNat + 1 : ℤ) * 1000000 := by
  obtain ⟨p, q, hbefore, hpass⟩ := h.at before _ after heq
  subst heq
  cases hpass with
  | stop s i =>
    have hstart := hbefore.start_mem
    have hs : s ≤ t := (List.pairwise_append.mp htimed.order).2.2 _ hstart _ List.mem_cons_self
    refine ⟨s, (hbefore.openSince_iff s).mpr rfl, durationMs_bounds hs ?_ ?_⟩
    · exact htimed.clock (.recordingStarted s) (List.mem_append_left _ hstart)
    · exact htimed.clock _ (List.mem_append_right _ List.mem_cons_self)

/-- The recordings of a run took together no more than the whole milliseconds between the first and
the last signal. -/
theorem recordedMs_run_le {signals : List Signal} {first last : Signal}
    (horder : signals.Pairwise fun a b => a.instant ≤ b.instant)
    (hclock : ∀ s ∈ signals, s.instant.inLeapSecond = false)
    (hfirst : signals.head? = some first) (hlast : signals.getLast? = some last) :
    (recordedMs (idle.run signals).2 : ℤ)
      ≤ (last.instant.nanos - first.instant.nanos) / 1000000 := by
  have hfirst' := hclock first (List.mem_of_mem_head? hfirst)
  have hlast' := hclock last (List.mem_of_mem_getLast? hlast)
  have hspan : ∀ s ∈ signals,
      first.instant.nanos ≤ s.instant.nanos ∧ s.instant.nanos ≤ last.instant.nanos := by
    intro s hs
    rw [← Instant.le_iff_nanos hfirst' (hclock s hs), ← Instant.le_iff_nanos (hclock s hs) hlast']
    exact between_ends horder hfirst hlast s hs
  apply (recordings_run signals).recordedMs_le (timed_run horder hclock)
  · exact (hspan first (List.mem_of_mem_head? hfirst)).2
  · intro e he
    obtain ⟨s, hs, heq⟩ := exists_signal_of_mem_run he
    rw [heq]
    exact (hspan s hs).1
  · intro e he
    obtain ⟨s, hs, heq⟩ := exists_signal_of_mem_run he
    rw [heq]
    exact (hspan s hs).2

/-! ## Sound accounting -/

/-- **Durations are sound accounting.**  Between any two instants, the difference fits its 64 bits
with a sign, the duration is that difference clamped at zero, it is no longer than the representable
range up to a leap second, and zero if the stop is before the start and no leap second takes part.
And where the instants of signals never go back and avoid leap seconds, a run's recordings took
together no more than the whole milliseconds between the first and the last signal, and each length
is that of its recording, rounded down to milliseconds. -/
theorem durations_sound :
    (∀ started stopped : Instant,
      |stopped.elapsedMillis started| < 2 ^ 63
        ∧ ((durationMs started stopped).toNat : ℤ) = max 0 (stopped.elapsedMillis started)
        ∧ (durationMs started stopped).toNat
            ≤ 16544868105599999 + Instant.leapMillis stopped started
        ∧ (stopped < started → started.inLeapSecond = false → stopped.inLeapSecond = false →
            durationMs started stopped = 0))
      ∧ ∀ signals : List Signal, (signals.Pairwise fun a b => a.instant ≤ b.instant) →
        (∀ s ∈ signals, s.instant.inLeapSecond = false) →
        let events := (idle.run signals).2
        (∀ first last : Signal, signals.head? = some first → signals.getLast? = some last →
            (recordedMs events : ℤ) ≤ (last.instant.nanos - first.instant.nanos) / 1000000)
          ∧ ∀ (before : List SessionEvent) (t : Instant) (d : UInt64) (after : List SessionEvent),
            events = before ++ .recordingStopped t d :: after →
            ∃ s, OpenSince before s ∧ (d.toNat : ℤ) * 1000000 ≤ t.nanos - s.nanos
              ∧ t.nanos - s.nanos < (d.toNat + 1 : ℤ) * 1000000 := by
  constructor
  · intro started stopped
    exact ⟨Instant.abs_elapsedMillis_lt stopped started, toNat_durationMs started stopped,
      toNat_durationMs_le started stopped, durationMs_eq_zero⟩
  · intro signals horder hclock events
    constructor
    · intro first last hfirst hlast
      exact recordedMs_run_le horder hclock hfirst hlast
    · intro before t d after heq
      exact (recordings_run signals).duration_exact (timed_run horder hclock) heq

/-- Two recordings in four seconds and a quarter: the first is a release short of two seconds, the
second is closed by a refusal. A release that is a second before its press gives no length. -/
theorem durations_sound_refused :
    let signals : List Signal := [⟨.pressed, .epoch⟩,
      ⟨.released, ⟨0, 1, 999600000, by decide⟩⟩, ⟨.pressed, ⟨0, 3, 0, by decide⟩⟩,
      ⟨.permissionDenied, ⟨0, 4, 250700000, by decide⟩⟩]
    recordedMs (idle.run signals).2 = 1999 + 1250
      ∧ (recordedMs (idle.run signals).2 : ℤ) ≤ 4250700000 / 1000000
      ∧ (∃ s, OpenSince [.recordingStarted .epoch] s ∧ (1999 : ℤ) * 1000000 ≤ 1999600000 - s.nanos
        ∧ 1999600000 - s.nanos < (1999 + 1 : ℤ) * 1000000)
      ∧ durationMs ⟨0, 1, 0, by decide⟩ .epoch = 0 := by
  intro signals
  have horder : signals.Pairwise fun a b => a.instant ≤ b.instant := by
    simp [signals, Instant.le_iff, Instant.epoch]
  have hclock : ∀ s ∈ signals, s.instant.inLeapSecond = false := by decide
  obtain ⟨hsum, hexact⟩ := durations_sound.2 signals horder hclock
  have hback : Instant.epoch < ⟨0, 1, 0, by decide⟩ := by
    simp [lt_iff_le_not_ge, Instant.le_iff, Instant.epoch]
  refine ⟨by decide, ?_, ?_, ?_⟩
  · simpa [Instant.nanos, Instant.unixSeconds, Instant.epoch] using hsum _ _ rfl rfl
  · obtain ⟨s, hopen, hle, hlt⟩ :=
      hexact [.recordingStarted .epoch] ⟨0, 1, 999600000, by decide⟩ 1999 _ rfl
    have hnanos : Instant.nanos ⟨0, 1, 999600000, by decide⟩ = 1999600000 := by decide
    rw [hnanos] at hle hlt
    exact ⟨s, hopen, by simpa using hle, by simpa using hlt⟩
  · exact (durations_sound.1 ⟨0, 1, 0, by decide⟩ .epoch).2.2.2 hback rfl rfl

end Session

end HoldToRecord
