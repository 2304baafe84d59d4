import Mathlib.Tactic
import HoldToRecord.Channel.Bounded
import HoldToRecord.Proofs.Channel.Broadcast
import HoldToRecord.Proofs.Session.Trace
import HoldToRecord.Session.Relay
import HoldToRecord.Status

/-!
# Keeping the status up to date

Three parties work side by side: a publisher puts signals on a bounded channel, a relay takes them
off and broadcasts session events, and an updater receives these and notes them in the status.
`Upkeep.step` is one turn of one party; a list of turns is a schedule. Whatever the schedule, and
however many events the updater has missed, the status agrees with the session once nothing is left
to do (`status_of_quiet`): every event overwrites all that events decide, and the last event of a
signal shows the mode that the session is in after it.
-/

namespace HoldToRecord

open HoldToRecord.Time HoldToRecord.Channel

/-! ## Modes of sessions and of events -/

namespace Status

/-- Events are noted one after the other. -/
theorem applyAll_append (s : Status) (as bs : List SessionEvent) :
    s.applyAll (as ++ bs) = (s.applyAll as).applyAll bs :=
  List.foldl_append ..

/-- The events of a signal take the status from the mode of the session before it to that of the
session after it. -/
theorem mode_applyAll_step {s : Status} {session : Session} (h : s.mode = .ofSession session)
    (signal : Signal) :
    (s.applyAll (session.step signal).2).mode = .ofSession (session.step signal).1 := by
  obtain ⟨kind, i⟩ := signal
  cases kind <;> cases session <;> first | rfl | exact h

/-- The events of a run take the status to the mode of the session after it. -/
theorem mode_applyAll_run {s : Status} (h : s.mode = .idle) (signals : List Signal) :
    (s.applyAll (Session.idle.run signals).2).mode
      = .ofSession (Session.idle.run signals).1 := by
  induction signals using List.reverseRecOn with
  | nil => exact h
  | append_singleton signals signal ih =>
    rw [Session.run_concat, applyAll_append]
    exact mode_applyAll_step ih signal

/-- The time of the last event is noted. -/
theorem lastEventAt_applyAll {s : Status} (h : s.lastEventAt = none)
    (events : List SessionEvent) :
    (s.applyAll events).lastEventAt = events.getLast?.map SessionEvent.instant := by
  induction events using List.reverseRecOn with
  | nil => exact h
  | append_singleton events e _ =>
    rw [applyAll_concat, List.getLast?_concat]
    rfl

/-- After any event the hook counts as registered unless permission is missing. -/
theorem hotkeyRegistered_applyAll (s : Status) (events : List SessionEvent) :
    (s.applyAll events).hotkeyRegistered
      = if events = [] then s.hotkeyRegistered
        else (s.applyAll events).mode != .permissionRequired := by
  induction events using List.reverseRecOn with
  | nil => rfl
  | append_singleton events e _ =>
    rw [applyAll_concat, if_neg (by simp)]
    rfl

end Status

/-! ## The three parties -/

/-- The channel of signals, the relay, where the updater stands among the session events, the event
that it has received and not yet noted, and the status. -/
structure Upkeep where
  signals : Bounded Signal
  relay : Relay
  cursor : Cursor
  inHand : Option SessionEvent
  status : Status
  deriving DecidableEq

namespace Upkeep

/-- A turn of one party: the publisher puts a signal on its channel; the relay handles the oldest
one; the updater receives, or notes the event that it has in hand. The relay shares its task with
the updater and never waits while it handles a signal, so all events of a signal go out in one turn.
-/
inductive Turn
  | publish (signal : Signal)
  | handle
  | receive
  | note

/-- The parties before their first turn; the hotkey has been noted, and the updater has subscribed
to a channel without events. -/
def start (hotkey : Hotkey) (registered : Bool) (signalCapacity eventCapacity : Nat) : Upkeep where
  signals := .create signalCapacity
  relay := .create eventCapacity
  cursor := (Relay.create eventCapacity).events.subscribe
  inHand := none
  status := Status.initial.setHotkey hotkey registered

/-- A turn, if the party can take it: a publisher waits while its channel is full, and the others
wait for something to take or to receive. -/
def step (d : Upkeep) : Turn → Option Upkeep
  | .publish signal =>
    match d.signals.put signal with
    | .accepted signals => some { d with signals := signals }
    | _ => none
  | .handle =>
    match d.signals.take with
    | (some signal, signals) =>
      some { d with signals := signals, relay := d.relay.handle signal }
    | (none, _) => none
  | .receive =>
    match d.inHand, d.relay.events.receive d.cursor with
    | none, some (.value event, cursor) => some { d with inHand := some event, cursor := cursor }
    | none, some (.lagged _, cursor) => some { d with cursor := cursor }
    | _, _ => none
  | .note =>
    match d.inHand with
    | some event => some { d with inHand := none, status := d.status.apply event }
    | none => none

/-- The parties after a schedule, if each turn of it could be taken. -/
def run (d : Upkeep) (turns : List Turn) : Option Upkeep := turns.foldlM step d

/-- The signals that a schedule publishes. -/
def published (turns : List Turn) : List Signal :=
  turns.filterMap fun
    | .publish signal => some signal
    | _ => none

/-- Nothing is left to do: no signal waits, and the updater has received and noted everything. -/
structure IsQuiet (d : Upkeep) : Prop where
  noSignal : d.signals.queued = []
  noted : d.inHand = none
  received : d.relay.events.receive d.cursor = none

/-- A longer schedule is taken turn by turn. -/
theorem run_concat (d : Upkeep) (turns : List Turn) (t : Turn) :
    d.run (turns ++ [t]) = (d.run turns).bind (·.step t) := by
  simp [run, List.foldlM_append]

/-! ## What every turn keeps -/

/-- The status once the updater has noted what it has in hand. -/
def soon (d : Upkeep) : Status :=
  match d.inHand with
  | none => d.status
  | some event => d.status.apply event

/-- The parties after some signals were handled. The relay is as the signals alone make it; events
overwrite whatever was noted; and an updater that has passed the last event shows, at the latest
when it has noted what it has in hand, the same as if it had noted every event. -/
structure Consistent (base : Status) (handled : List Signal) (d : Upkeep) : Prop where
  opened : d.signals.closed = false
  session : d.relay.session = (Session.idle.run handled).1
  events : d.relay.events.Holds (Session.idle.run handled).2
  position_le : d.cursor.position ≤ (Session.idle.run handled).2.length
  overwrites : ∀ event, d.status.apply event = base.apply event
  soon_eq : d.cursor.position = (Session.idle.run handled).2.length →
    d.soon = base.applyAll (Session.idle.run handled).2

/-- At the start nothing was handled. -/
theorem consistent_start (hotkey : Hotkey) (registered : Bool)
    (signalCapacity eventCapacity : Nat) :
    Consistent (Status.initial.setHotkey hotkey registered) []
      (start hotkey registered signalCapacity eventCapacity) where
  opened := rfl
  session := rfl
  events := Broadcast.holds_create eventCapacity
  position_le := Nat.le_refl 0
  overwrites := fun _ => rfl
  soon_eq := fun _ => rfl

section Turns

variable {base : Status} {handled : List Signal} {d : Upkeep}

/-- The channel of signals is the publisher's and the relay's business only. -/
theorem Consistent.publish (h : Consistent base handled d) {signal : Signal}
    {signals : Bounded Signal} (hput : d.signals.put signal = .accepted signals) :
    Consistent base handled { d with signals := signals } where
  opened := by
    unfold Bounded.put at hput
    split_ifs at hput with hclosed
    obtain rfl := (Bounded.Sending.accepted.inj hput).symm
    exact h.opened
  session := h.session
  events := h.events
  position_le := h.position_le
  overwrites := h.overwrites
  soon_eq := h.soon_eq

/-- A signal that is handled adds its events; if there are any, the updater has fallen behind. -/
theorem Consistent.handle (h : Consistent base handled d) {signal : Signal}
    {signals : Bounded Signal} (hopen : signals.closed = false) :
    Consistent base (handled ++ [signal])
      { d with signals := signals, relay := d.relay.handle signal } where
  opened := hopen
  session := by
    rw [Session.run_concat, ← h.session]
    rfl
  events := by
    rw [Session.run_concat, ← h.session]
    exact h.events.publishAll _
  position_le := by
    have := h.position_le
    rw [Session.run_concat, List.length_append]
    show d.cursor.position ≤ _
    omega
  overwrites := h.overwrites
  soon_eq := by
    rw [Session.run_concat, List.length_append]
    intro hpos
    have hle := h.position_le
    -- an updater that has passed the new events as well can only have done so if there are none
    have hnone : ((Session.idle.run handled).1.step signal).2 = [] := by
      apply List.eq_nil_of_length_eq_zero
      simp only at hpos
      omega
    simp only [hnone, List.length_nil, Nat.add_zero, List.append_nil] at hpos ⊢
    exact h.soon_eq hpos

/-- An updater that has missed events is not up to date. -/
theorem Consistent.skip (h : Consistent base handled d) {missed : Nat} {cursor : Cursor}
    (hreceive : d.relay.events.receive d.cursor = some (.lagged missed, cursor)) :
    Consistent base handled { d with cursor := cursor } := by
  have hpos := h.events.size_pos
  rw [h.events.receive_eq] at hreceive
  split_ifs at hreceive with hbehind
  · simp only [Option.some.injEq, Prod.mk.injEq] at hreceive
    obtain ⟨-, rfl⟩ := hreceive
    exact
      { opened := h.opened
        session := h.session
        events := h.events
        position_le := by simp only; omega
        overwrites := h.overwrites
        soon_eq := by
          intro heq
          simp only at heq
          omega }
  · cases hget : (Session.idle.run handled).2[d.cursor.position]? <;> simp [hget] at hreceive

/-- An updater that receives the last event will show what all of them come to. -/
theorem Consistent.receive (h : Consistent base handled d) {event : SessionEvent}
    {cursor : Cursor}
    (hreceive : d.relay.events.receive d.cursor = some (.value event, cursor)) :
    Consistent base handled { d with inHand := some event, cursor := cursor } := by
  rw [h.events.receive_eq] at hreceive
  split_ifs at hreceive with hbehind
  · simp at hreceive
  · obtain ⟨got, hget, hgot⟩ := Option.map_eq_some_iff.mp hreceive
    simp only [Prod.mk.injEq, Received.value.injEq] at hgot
    obtain ⟨rfl, rfl⟩ := hgot
    obtain ⟨hlt, hget⟩ := List.getElem?_eq_some_iff.mp hget
    exact
      { opened := h.opened
        session := h.session
        events := h.events
        position_le := hlt
        overwrites := h.overwrites
        soon_eq := by
          intro heq
          -- the event received is the last one, and only that one counts
          have hlast : (Session.idle.run handled).2
              = (Session.idle.run handled).2.take d.cursor.position ++ [got] := by
            rw [← hget, List.take_append_getElem, List.take_of_length_le (le_of_eq heq.symm)]
          rw [hlast, Status.applyAll_concat]
          exact h.overwrites got }

/-- Noting the event in hand brings the status to where it was about to be. -/
theorem Consistent.note (h : Consistent base handled d) {event : SessionEvent}
    (hhand : d.inHand = some event) :
    Consistent base handled { d with inHand := none, status := d.status.apply event } where
  opened := h.opened
  session := h.session
  events := h.events
  position_le := h.position_le
  overwrites := h.overwrites
  soon_eq := by
    intro heq
    have := h.soon_eq heq
    rwa [soon, hhand] at this

end Turns

/-- **Every schedule.**  What was published is what was handled and what still waits, in this
order, and the parties are as the handled signals say. -/
theorem exists_handled {hotkey : Hotkey} {registered : Bool} {signalCapacity eventCapacity : Nat}
    {turns : List Turn} {d : Upkeep}
    (hrun : (start hotkey registered signalCapacity eventCapacity).run turns = some d) :
    ∃ handled, handled ++ d.signals.queued = published turns
      ∧ Consistent (Status.initial.setHotkey hotkey registered) handled d := by
  -- from the end of the schedule: only a publication adds to what was published, and only
  -- handling moves a signal from those that wait to those that were handled
  induction turns using List.reverseRecOn generalizing d with
  | nil =>
    obtain rfl := Option.some.inj hrun
    exact ⟨[], rfl, consistent_start ..⟩
  | append_singleton turns t ih =>
    rw [run_concat] at hrun
    obtain ⟨d, hd, hstep⟩ := Option.bind_eq_some_iff.mp hrun
    obtain ⟨handled, hpublished, hd⟩ := ih hd
    rw [published, List.filterMap_append, ← published, ← hpublished]
    cases t with
    | publish signal =>
      simp only [step] at hstep
      split at hstep
      · next signals hput =>
        obtain rfl := Option.some.inj hstep
        refine ⟨handled, ?_, hd.publish hput⟩
        simp [Bounded.queued_put hput]
      · simp at hstep
    | handle =>
      simp only [step] at hstep
      split at hstep
      · next signal signals htake =>
        obtain rfl := Option.some.inj hstep
        have hqueued := Bounded.queued_take d.signals hd.opened
        have hopen := Bounded.closed_take d.signals
        rw [htake] at hqueued hopen
        refine ⟨handled ++ [signal], ?_, hd.handle (hopen.trans hd.opened)⟩
        rw [← hqueued]
        simp
      · simp at hstep
    | receive =>
      simp only [step] at hstep
      split at hstep
      · next event cursor _ hreceive =>
        obtain rfl := Option.some.inj hstep
        exact ⟨handled, by simp, hd.receive hreceive⟩
      · next missed cursor _ hreceive =>
        obtain rfl := Option.some.inj hstep
        exact ⟨handled, by simp, hd.skip hreceive⟩
      · simp at hstep
    | note =>
      simp only [step] at hstep
      split at hstep
      · next event hhand =>
        obtain rfl := Option.some.inj hstep
        exact ⟨handled, by simp, hd.note hhand⟩
      · simp at hstep

/-- **The status agrees with the session.**  After any schedule, on channels of any size, once
nothing is left to do: the mode is that of the session, which is the one that the published signals
lead to one by one; the last event's time is noted; and the hook counts as registered unless
permission is missing, or as it did at first if there was no event. -/
theorem status_of_quiet {hotkey : Hotkey} {registered : Bool}
    {signalCapacity eventCapacity : Nat} {turns : List Turn} {d : Upkeep}
    (hrun : (start hotkey registered signalCapacity eventCapacity).run turns = some d)
    (hquiet : d.IsQuiet) :
    let emitted := (Session.idle.run (published turns)).2
    d.status.mode = .ofSession d.relay.session
      ∧ d.relay.session = (Session.idle.run (published turns)).1
      ∧ d.status.lastEventAt = emitted.getLast?.map SessionEvent.instant
      ∧ d.status.hotkeyRegistered
          = if emitted = [] then registered else d.status.mode != .permissionRequired := by
  obtain ⟨handled, hpublished, hd⟩ := exists_handled hrun
  rw [hquiet.noSignal, List.append_nil] at hpublished
  subst hpublished
  -- the updater has passed the last event, so it shows what all events come to
  have hall : d.cursor.position = (Session.idle.run (published turns)).2.length :=
    Nat.le_antisymm hd.position_le ((hd.events.receive_eq_none_iff _).mp hquiet.received)
  have hstatus := hd.soon_eq hall
  rw [soon, hquiet.noted] at hstatus
  simp only at hstatus
  refine ⟨?_, hd.session, ?_, ?_⟩
  · rw [hstatus, hd.session]
    exact Status.mode_applyAll_run rfl _
  · rw [hstatus]
    exact Status.lastEventAt_applyAll rfl _
  · rw [hstatus]
    exact Status.hotkeyRegistered_applyAll _ _

/-- An updater that lost four of five events, on channels with room for one value each. -/
theorem status_of_quiet_lagged :
    let turns := [.publish ⟨.pressed, .epoch⟩, .handle, .publish ⟨.released, .epoch⟩, .handle,
      .publish ⟨.pressed, .epoch⟩, .handle, .publish ⟨.permissionDenied, .epoch⟩, .handle,
      .receive, .receive, .note]
    let d : Upkeep := ⟨⟨1, [], false⟩,
      ⟨.permissionRequired, ⟨1, 5, [.permissionRequired .epoch]⟩⟩, ⟨5⟩, none,
      ⟨"0.1.0", "Control+Option", .permissionRequired, false, some .epoch, 0⟩⟩
    (start .standard true 1 1).run turns = some d ∧ d.IsQuiet
      ∧ d.status.mode = .ofSession d.relay.session
      ∧ d.status.lastEventAt
          = (Session.idle.run (published turns)).2.getLast?.map SessionEvent.instant := by
  intro turns d
  have hrun : (start .standard true 1 1).run turns = some d := by decide +kernel
  have hquiet : d.IsQuiet := ⟨rfl, rfl, rfl⟩
  have h := status_of_quiet hrun hquiet
  exact ⟨hrun, hquiet, h.1, h.2.2.1⟩

end Upkeep

end HoldToRecord
