import Mathlib.Tactic
import HoldToRecord.Proofs.Time.Elapsed

/-!
# Traces of recording sessions

The session events of a run, seen as one trace. `Recordings events open` is the grammar of traces:
a start opens a recording, a stop closes the open one and carries its length, and permission is
asked for while none is open. Every run writes such a trace, and the recording that the trace leaves
open is the one that the session is in (`recordings_run`). The laws of traces are read off the
grammar: starts and stops alternate (`Recordings.alternates`), and what is open at any place is the
last start with no stop after it (`Recordings.openSince_iff`).
-/

namespace HoldToRecord

open HoldToRecord.Time

/-- In a list with one more item at its end, a place is that end, or a place of the list. -/
theorem concat_eq_append_cons {α : Type} {items before after : List α} {last a : α}
    (h : items ++ [last] = before ++ a :: after) :
    (after = [] ∧ items = before ∧ last = a)
      ∨ ∃ rest, after = rest ++ [last] ∧ items = before ++ a :: rest := by
  rcases List.eq_nil_or_concat' after with rfl | ⟨rest, x, rfl⟩
  · obtain ⟨hitems, hlast⟩ := List.append_inj' h rfl
    exact Or.inl ⟨rfl, hitems, List.singleton_inj.mp hlast⟩
  · rw [← List.cons_append, ← List.append_assoc] at h
    obtain ⟨hitems, hlast⟩ := List.append_inj' h rfl
    exact Or.inr ⟨rest, by rw [List.singleton_inj.mp hlast], hitems⟩

namespace SessionEvent

/-- Whether an event opens a recording. -/
def opens : SessionEvent → Bool
  | recordingStarted _ => true
  | _ => false

/-- Whether an event opens or closes a recording. -/
def isBoundary : SessionEvent → Bool
  | permissionRequired _ => false
  | _ => true

/-- Whether an event asks for permission. -/
def asks : SessionEvent → Bool
  | permissionRequired _ => true
  | _ => false

end SessionEvent

namespace Session

/-! ## Laws of traces -/

/-- Starts and stops take turns and a start comes first: among them, the starts are those at even
places. -/
def Alternates (events : List SessionEvent) : Prop :=
  ∀ k e, (events.filter (·.isBoundary))[k]? = some e → (e.opens = true ↔ k % 2 = 0)

/-- A recording is open after some events: the last start, at `s`, has no start or stop after it. -/
def OpenSince (events : List SessionEvent) (s : Instant) : Prop :=
  ∃ before inside, events = before ++ .recordingStarted s :: inside
    ∧ ∀ e ∈ inside, e.isBoundary = false

/-! ## The grammar of traces -/

/-- What an event does to the recording that is open before it. -/
inductive Passes : Option Instant → SessionEvent → Option Instant → Prop
  | start (i : Instant) : Passes none (.recordingStarted i) (some i)
  | stop (s i : Instant) : Passes (some s) (stop s i) none
  | ask (i : Instant) : Passes none (.permissionRequired i) none

/-- Traces, with the start of the recording that they leave open. -/
inductive Recordings : List SessionEvent → Option Instant → Prop
  | nil : Recordings [] none
  | snoc {events : List SessionEvent} {p q : Option Instant} {e : SessionEvent} :
      Recordings events p → Passes p e q → Recordings (events ++ [e]) q

/-- Handling one more signal comes after handling the others. -/
theorem run_concat (session : Session) (signals : List Signal) (s : Signal) :
    session.run (signals ++ [s])
      = (((session.run signals).1.step s).1,
          (session.run signals).2 ++ ((session.run signals).1.step s).2) := by
  rw [run_append]
  simp [run]

/-- One signal extends a trace, and the open recording goes with the session. -/
theorem Recordings.step {events : List SessionEvent} {session : Session}
    (h : Recordings events session.startedAt?) (s : Signal) :
    Recordings (events ++ (session.step s).2) (session.step s).1.startedAt? := by
  obtain ⟨kind, i⟩ := s
  cases kind <;> cases session <;> simp only [Session.step, startedAt?, List.append_nil] at h ⊢
  case permissionDenied.recording started =>
    -- the stop and the question are two events of one signal
    rw [show ∀ a b : SessionEvent, events ++ [a, b] = events ++ [a] ++ [b] by simp]
    exact (h.snoc (.stop started i)).snoc (.ask i)
  case permissionDenied.idle => exact h.snoc (.ask i)
  case permissionDenied.permissionRequired => exact h.snoc (.ask i)
  case pressed.idle => exact h.snoc (.start i)
  case pressed.permissionRequired => exact h.snoc (.start i)
  case released.recording started => exact h.snoc (.stop started i)
  all_goals exact h

/-- Every run writes a trace. -/
theorem recordings_run (signals : List Signal) :
    Recordings (idle.run signals).2 (idle.run signals).1.startedAt? := by
  induction signals using List.reverseRecOn with
  | nil => exact .nil
  | append_singleton signals s ih =>
    rw [run_concat]
    exact ih.step s

/-! ## Reading the laws off the grammar -/

/-- Every place of a trace: what comes before it is a trace, and the event there passes on the
recording that is open. -/
theorem Recordings.at {events : List SessionEvent} {o : Option Instant}
    (h : Recordings events o) :
    ∀ before e after, events = before ++ e :: after →
      ∃ p q, Recordings before p ∧ Passes p e q := by
  induction h with
  | nil =>
    intro before e after heq
    simp at heq
  | @snoc events p q last hr hp ih =>
    intro before e after heq
    rcases concat_eq_append_cons heq with ⟨-, rfl, rfl⟩ | ⟨rest, -, hevents⟩
    · exact ⟨p, q, hr, hp⟩
    · exact ih before e rest hevents

/-- What is open after one more event: the recording that it starts, or the one before it unless it
is a start or stop itself. -/
theorem openSince_concat (events : List SessionEvent) (e : SessionEvent) (s : Instant) :
    OpenSince (events ++ [e]) s
      ↔ e = .recordingStarted s ∨ (e.isBoundary = false ∧ OpenSince events s) := by
  constructor
  · rintro ⟨before, inside, heq, hinside⟩
    rcases concat_eq_append_cons heq with ⟨-, -, he⟩ | ⟨rest, rfl, hevents⟩
    · exact Or.inl he
    · refine Or.inr ⟨hinside e (by simp), before, rest, hevents, ?_⟩
      intro e' he'
      exact hinside e' (by simp [he'])
  · rintro (rfl | ⟨he, before, inside, rfl, hinside⟩)
    · exact ⟨events, [], rfl, by simp⟩
    · refine ⟨before, inside ++ [e], by simp, ?_⟩
      intro e' he'
      rcases List.mem_append.mp he' with h | h
      · exact hinside e' h
      · rw [List.mem_singleton.mp h]
        exact he

/-- The recording that is open after a trace is the one that the grammar says. -/
theorem Recordings.openSince_iff {events : List SessionEvent} {o : Option Instant}
    (h : Recordings events o) : ∀ s, OpenSince events s ↔ o = some s := by
  induction h with
  | nil =>
    intro s
    constructor
    · rintro ⟨before, inside, heq, -⟩
      simp at heq
    · intro hs
      exact absurd hs (by simp)
  | @snoc events p q e hr hp ih =>
    intro s
    rw [openSince_concat, ih s]
    cases hp <;> simp [SessionEvent.isBoundary, stop]

/-- A trace with no recording open has as many stops as starts, and one start more otherwise. -/
theorem Recordings.length_boundaries {events : List SessionEvent} {o : Option Instant}
    (h : Recordings events o) :
    (events.filter (·.isBoundary)).length % 2 = if o.isSome then 1 else 0 := by
  induction h with
  | nil => rfl
  | @snoc events p q e hr hp ih =>
    rw [List.filter_append, List.length_append]
    cases hp <;> simp [SessionEvent.isBoundary, stop] at ih ⊢ <;> omega

/-- Starts and stops of a trace take turns. -/
theorem Recordings.alternates {events : List SessionEvent} {o : Option Instant}
    (h : Recordings events o) : Alternates events := by
  induction h with
  | nil =>
    intro k e he
    simp at he
  | @snoc events p q last hr hp ih =>
    intro k e he
    have hlen := hr.length_boundaries
    rw [List.filter_append, List.getElem?_append] at he
    split at he
    · exact ih k e he
    · next hk =>
      -- only the new event can stand here, and only right behind the others
      have hlast : last.isBoundary = true ∧ e = last
          ∧ k = (events.filter (·.isBoundary)).length := by
        by_cases hb : last.isBoundary = true
        · rw [List.filter_cons_of_pos hb, List.filter_nil] at he
          obtain ⟨hlt, he⟩ := List.getElem?_eq_some_iff.mp he
          simp only [List.length_singleton] at hlt
          refine ⟨hb, ?_, by omega⟩
          rw [← he]
          simp
        · rw [List.filter_cons_of_neg hb] at he
          simp at he
      obtain ⟨hb, rfl, rfl⟩ := hlast
      rw [hlen]
      cases hp <;> simp [SessionEvent.opens, SessionEvent.isBoundary, stop] at hb ⊢

/-- A session records exactly while its trace leaves a recording open. -/
theorem startedAt?_eq_some_iff (session : Session) (s : Instant) :
    session.startedAt? = some s ↔ session = .recording s := by
  cases session <;> simp [startedAt?]

/-! ## What single signals add -/

/-- All events of a signal carry its instant. -/
theorem instant_of_mem_step {session : Session} {s : Signal} {e : SessionEvent}
    (h : e ∈ (session.step s).2) : e.instant = s.instant := by
  obtain ⟨kind, i⟩ := s
  cases kind <;> cases session <;> simp [step] at h <;> rcases h with rfl | rfl <;> rfl

/-- A signal asks for permission once if it is a refusal, and else not at all. -/
theorem countP_asks_step (session : Session) (s : Signal) :
    (session.step s).2.countP (·.asks)
      = [s].countP (fun s => s.kind = .permissionDenied) := by
  obtain ⟨kind, i⟩ := s
  cases kind <;> cases session <;> rfl

/-- A run asks for permission as often as the hook was refused. -/
theorem countP_asks_run (signals : List Signal) :
    (idle.run signals).2.countP (·.asks)
      = signals.countP (fun s => s.kind = .permissionDenied) := by
  induction signals using List.reverseRecOn with
  | nil => rfl
  | append_singleton signals s ih =>
    rw [run_concat, List.countP_append, List.countP_append, ih, countP_asks_step]

/-! ## The trace of a run -/

/-- **Every run of a fresh session writes a lawful trace.**  Starts and stops take turns; nothing
is asked for while a recording is open; what a signal causes carries its instant, and a stop the
length of the recording that it closes; a recording is left open exactly when the session is in it;
and permission is asked for once for each refusal. -/
theorem trace_run_idle (signals : List Signal) :
    let last := (idle.run signals).1
    let events := (idle.run signals).2
    Alternates events
      ∧ (∀ before i after, events = before ++ .permissionRequired i :: after →
          ∀ s, ¬ OpenSince before s)
      ∧ (∀ before s after, signals = before ++ s :: after → ∃ caused later,
          (idle.run (before ++ [s])).2 = (idle.run before).2 ++ caused
            ∧ events = (idle.run before).2 ++ caused ++ later
            ∧ ∀ e ∈ caused, e.instant = s.instant)
      ∧ (∀ before t d after, events = before ++ .recordingStopped t d :: after →
          ∃ s, OpenSince before s ∧ (d.toNat : ℤ) = max 0 (t.elapsedMillis s))
      ∧ (∀ s, last = .recording s ↔ OpenSince events s)
      ∧ events.countP (·.asks) = signals.countP (fun s => s.kind = .permissionDenied) := by
  intro last events
  have hr : Recordings events last.startedAt? := recordings_run signals
  refine ⟨hr.alternates, ?_, ?_, ?_, ?_, countP_asks_run signals⟩
  · intro before i after heq s hopen
    -- a question passes only where no recording is open
    obtain ⟨p, q, hbefore, hpass⟩ := hr.at before _ after heq
    cases hpass
    exact absurd ((hbefore.openSince_iff s).mp hopen) (by simp)
  · rintro before s after rfl
    refine ⟨((idle.run before).1.step s).2, (((idle.run before).1.step s).1.run after).2, ?_, ?_, ?_⟩
    · rw [run_concat]
    · simp only [events, run_append, run, List.append_assoc]
    · intro e he
      exact instant_of_mem_step he
  · intro before t d after heq
    -- a stop passes only where a recording is open, and it is the one that is closed
    obtain ⟨p, q, hbefore, hpass⟩ := hr.at before _ after heq
    cases hpass with
    | stop s i => exact ⟨s, (hbefore.openSince_iff s).mpr rfl, toNat_durationMs s t⟩
  · intro s
    rw [← startedAt?_eq_some_iff, hr.openSince_iff s]

/-- A refusal two and a half seconds into a recording: the stop has the length of the recording,
and permission is asked for after it. -/
theorem trace_run_idle_refused :
    (idle.run [⟨.pressed, .epoch⟩, ⟨.permissionDenied, ⟨0, 2, 500000000, by decide⟩⟩]).2
        = [.recordingStarted .epoch, .recordingStopped ⟨0, 2, 500000000, by decide⟩ 2500,
            .permissionRequired ⟨0, 2, 500000000, by decide⟩]
      ∧ (∃ s, OpenSince [.recordingStarted .epoch] s
          ∧ ((2500 : UInt64).toNat : ℤ)
              = max 0 (Instant.elapsedMillis ⟨0, 2, 500000000, by decide⟩ s))
      ∧ ∀ s, ¬ OpenSince [.recordingStarted .epoch,
          .recordingStopped ⟨0, 2, 500000000, by decide⟩ 2500] s := by
  have h := trace_run_idle
    [⟨.pressed, .epoch⟩, ⟨.permissionDenied, ⟨0, 2, 500000000, by decide⟩⟩]
  refine ⟨by decide, h.2.2.2.1 _ _ _ [.permissionRequired ⟨0, 2, 500000000, by decide⟩] ?_,
    h.2.1 _ ⟨0, 2, 500000000, by decide⟩ [] ?_⟩
  · decide
  · decide

end Session

end HoldToRecord
