import Mathlib.Tactic
import HoldToRecord.Proofs.Status.Upkeep

/-!
# What a subscriber hears of a session

A relay handles signals, and a subscriber receives the session events that they cause, whenever it
likes. `Audience.step` is one turn of either; a list of turns is a schedule. What the subscriber has
got is an account of the events since it subscribed, and what it gets next is decided by the ones
that are still unread (`audience_run`): each of them if the channel keeps them all, and otherwise
the number of the lost ones and then those that are kept. The relay goes its way without regard to
the subscriber: the session and its events depend on the signals alone.
-/

namespace HoldToRecord

open HoldToRecord.Channel

/-- The last event of a run shows the mode that the session is in after it. -/
theorem Mode.ofEvent_of_run {signals : List Signal} {last : SessionEvent}
    (h : (Session.idle.run signals).2.getLast? = some last) :
    Mode.ofEvent last = .ofSession (Session.idle.run signals).1 := by
  obtain ⟨events, h⟩ := List.getLast?_eq_some_iff.mp h
  rw [← Status.mode_applyAll_run (s := .initial) rfl signals, h, Status.applyAll_concat]
  rfl

namespace Relay

/-- Signals are handled one after the other, however they are split. -/
theorem handleAll_append (r : Relay) (as bs : List Signal) :
    r.handleAll (as ++ bs) = (r.handleAll as).handleAll bs :=
  List.foldl_append ..

/-- The events of the signals are published one after the other. -/
theorem holds_handleAll {r : Relay} {all : List SessionEvent} (h : r.events.Holds all)
    (signals : List Signal) :
    (r.handleAll signals).events.Holds (all ++ (r.session.run signals).2) := by
  induction signals generalizing r all with
  | nil => simpa [handleAll, Session.run] using h
  | cons signal signals ih =>
    have := ih (r := r.handle signal) (h.publishAll (r.session.step signal).2)
    rwa [List.append_assoc] at this

/-- Publishing does not change what a channel keeps at most. -/
theorem size_handleAll (r : Relay) (signals : List Signal) :
    (r.handleAll signals).events.size = r.events.size := by
  have hpublish : ∀ (b : Broadcast SessionEvent) (events : List SessionEvent),
      (b.publishAll events).size = b.size := by
    intro b events
    induction events generalizing b with
    | nil => rfl
    | cons e events ih => exact ih (b.publish e)
  induction signals generalizing r with
  | nil => rfl
  | cons signal signals ih => exact (ih (r.handle signal)).trans (hpublish _ _)

end Relay

/-- A relay and one subscriber: where it stands, unless it has not subscribed or is gone, and what
it has got since it subscribed. -/
structure Audience where
  relay : Relay
  cursor : Option Cursor
  got : List (Received SessionEvent)
  deriving DecidableEq

namespace Audience

/-- A turn: the relay handles some signals, or the subscriber subscribes, receives, or goes away.
The signals of one call may be spread over several turns, with receipts between them. -/
inductive Turn
  | handle (signals : List Signal)
  | subscribe
  | receive
  | leave
  deriving DecidableEq

/-- An idle session, and nobody listens. -/
def start (capacity : Nat) : Audience := ⟨.create capacity, none, []⟩

/-- Takes a turn. A subscriber with nothing to receive gets nothing, and what is published while
nobody listens is never received. -/
def step (a : Audience) : Turn → Audience
  | .handle signals => { a with relay := a.relay.handleAll signals }
  | .subscribe => { a with cursor := some a.relay.events.subscribe, got := [] }
  | .receive =>
    match a.cursor.bind a.relay.events.receive with
    | some (r, cursor) => { a with cursor := some cursor, got := a.got ++ [r] }
    | none => a
  | .leave => { a with cursor := none }

/-- Takes turns one after the other. -/
def run (a : Audience) (turns : List Turn) : Audience := turns.foldl step a

/-- The signals that a schedule handles. -/
def handled (turns : List Turn) : List Signal :=
  turns.flatMap fun
    | .handle signals => signals
    | _ => []

/-- Everything that a subscriber gets if it receives until it is up to date. -/
def drained (a : Audience) : List (Received SessionEvent) :=
  match a.cursor with
  | none => []
  | some cursor => (a.relay.events.drain cursor).1

theorem run_concat (a : Audience) (turns : List Turn) (t : Turn) :
    a.run (turns ++ [t]) = (a.run turns).step t := by
  simp [run]

theorem handled_concat (turns : List Turn) (t : Turn) :
    handled (turns ++ [t]) = handled turns ++ handled [t] := List.flatMap_append

/-! ## The relay goes its own way -/

/-- Only signals change the relay, and they do it as if nobody listened. -/
theorem relay_step (a : Audience) (t : Turn) :
    (a.step t).relay = a.relay.handleAll (handled [t]) := by
  cases t with
  | handle signals => simp [step, handled]
  | subscribe => rfl
  | receive =>
    simp only [step]
    split <;> rfl
  | leave => rfl

/-- So do all signals of a schedule. -/
theorem relay_run (a : Audience) (turns : List Turn) :
    (a.run turns).relay = a.relay.handleAll (handled turns) := by
  induction turns using List.reverseRecOn with
  | nil => rfl
  | append_singleton turns t ih =>
    rw [run_concat, relay_step, ih, handled_concat, Relay.handleAll_append]

/-- The session is the one that the signals lead to. -/
theorem session_run (capacity : Nat) (turns : List Turn) :
    ((start capacity).run turns).relay.session = (Session.idle.run (handled turns)).1 := by
  rw [relay_run]
  exact Relay.session_handleAll _ _

/-- The events that go out are those of the signals. -/
theorem holds_run (capacity : Nat) (turns : List Turn) :
    ((start capacity).run turns).relay.events.Holds (Session.idle.run (handled turns)).2 := by
  rw [relay_run]
  exact Relay.holds_handleAll (r := .create capacity) (Broadcast.holds_create capacity) _

/-- The channel keeps as many events as it was made for, rounded up to a power of two. -/
theorem size_run (capacity : Nat) (turns : List Turn) :
    ((start capacity).run turns).relay.events.size = capacity.nextPowerOfTwo := by
  rw [relay_run, Relay.size_handleAll]
  rfl

/-- A subscription handles no signal. -/
theorem handled_subscribe (before after : List Turn) :
    handled (before ++ .subscribe :: after) = handled before ++ handled after := by
  simp [handled]

/-! ## What every turn keeps -/

/-- Where the subscriber stands: `earlier` was emitted before it subscribed and `since` after that,
and what it has got accounts for the first `n` of these. -/
structure Hears (a : Audience) (earlier since : List SessionEvent) (n : Nat) : Prop where
  holds : a.relay.events.Holds (earlier ++ since)
  cursor : a.cursor = some ⟨earlier.length + n⟩
  le_length : n ≤ since.length
  accounts : Broadcast.Accounts a.got (since.take n)
  last : n = since.length → (Broadcast.values a.got).getLast? = since.getLast?

section Turns

variable {a : Audience} {earlier since : List SessionEvent} {n : Nat}

/-- A new subscriber has heard nothing and missed nothing. -/
theorem hears_subscribe (h : a.relay.events.Holds earlier) :
    (a.step .subscribe).Hears earlier [] 0 where
  holds := by rwa [List.append_nil]
  cursor := congrArg some h.subscribe_eq
  le_length := Nat.le_refl 0
  accounts := .nil
  last := fun _ => rfl

/-- Signals that are handled leave more to hear. -/
theorem Hears.handle (h : a.Hears earlier since n) (signals : List Signal) :
    (a.step (.handle signals)).Hears earlier (since ++ (a.relay.session.run signals).2) n where
  holds := by
    have := Relay.holds_handleAll h.holds signals
    rwa [List.append_assoc] at this
  cursor := h.cursor
  le_length := by
    rw [List.length_append]
    exact Nat.le_add_right_of_le h.le_length
  accounts := by
    rw [List.take_append_of_le_length h.le_length]
    exact h.accounts
  last := by
    intro hn
    rw [List.length_append] at hn
    have hle := h.le_length
    -- a subscriber that is up to date all the same has nothing new to hear
    have hnone : (a.relay.session.run signals).2 = [] := by
      apply List.eq_nil_of_length_eq_zero
      omega
    rw [hnone, List.append_nil]
    exact h.last (by rw [hn, hnone]; rfl)

/-- The stretch up to a place, seen from where the subscriber began. -/
theorem drop_take_since (earlier since : List SessionEvent) (m : Nat) :
    ((earlier ++ since).take (earlier.length + m)).drop earlier.length = since.take m := by
  rw [List.take_length_add_append, List.drop_left]

/-- A subscriber that receives has accounted for more. -/
theorem Hears.receive (h : a.Hears earlier since n) :
    ∃ m, (a.step .receive).Hears earlier since m := by
  simp only [step, h.cursor, Option.bind_some]
  split
  · next r next hreceive =>
    obtain ⟨hlt, hle, haccounts, -⟩ := h.holds.accounts_receive (k := earlier.length)
      (Nat.le_add_right _ _) (by rw [drop_take_since]; exact h.accounts) hreceive
    obtain ⟨m, hm⟩ : ∃ m, next.position = earlier.length + m :=
      ⟨next.position - earlier.length, by simp only at hlt; omega⟩
    rw [hm, drop_take_since] at haccounts
    rw [hm, List.length_append] at hle
    refine ⟨m, ?_⟩
    exact
      { holds := h.holds
        cursor := by rw [← hm]
        le_length := by omega
        accounts := haccounts
        last := by
          intro hall
          have hpos := h.holds.size_pos
          rw [h.holds.receive_eq, List.length_append] at hreceive
          split_ifs at hreceive with hbehind
          · -- after a lag the values that are kept are still to come
            simp only [Option.some.injEq, Prod.mk.injEq] at hreceive
            rw [← hreceive.2] at hm
            simp only at hm
            omega
          · obtain ⟨e, hget, hgot⟩ := Option.map_eq_some_iff.mp hreceive
            simp only [Prod.mk.injEq] at hgot
            obtain ⟨rfl, rfl⟩ := hgot
            simp only at hm
            obtain rfl : m = n + 1 := by omega
            rw [List.getElem?_append_right (Nat.le_add_right _ _), Nat.add_sub_cancel_left] at hget
            have hlast : since.getLast? = some e := by
              rw [List.getLast?_eq_getElem?, ← hall, Nat.add_sub_cancel, hget]
            rw [Broadcast.values_concat, hlast]
            exact List.getLast?_concat }
  · exact ⟨n, h⟩

end Turns

/-- **Every schedule.**  After a subscription, whatever is handled and received, the subscriber
stands somewhere among the events of the signals that were handled since. -/
theorem exists_hears (capacity : Nat) (before : List Turn) {after : List Turn}
    (hsub : .subscribe ∉ after) (hleave : .leave ∉ after) :
    ∃ n, ((start capacity).run (before ++ .subscribe :: after)).Hears
      (Session.idle.run (handled before)).2
      ((Session.idle.run (handled before)).1.run (handled after)).2 n := by
  induction after using List.reverseRecOn with
  | nil =>
    refine ⟨0, ?_⟩
    rw [run_concat]
    exact hears_subscribe (holds_run capacity before)
  | append_singleton after t ih =>
    rw [List.mem_append, not_or] at hsub hleave
    obtain ⟨n, hn⟩ := ih hsub.1 hleave.1
    rw [← List.cons_append, ← List.append_assoc, run_concat, handled_concat, Session.run_append]
    cases t with
    | handle signals =>
      refine ⟨n, ?_⟩
      have hsession : ((start capacity).run (before ++ .subscribe :: after)).relay.session
          = ((Session.idle.run (handled before)).1.run (handled after)).1 := by
        rw [session_run, handled_subscribe, Session.run_append]
      have := hn.handle signals
      rw [hsession] at this
      simpa [handled] using this
    | receive =>
      obtain ⟨m, hm⟩ := hn.receive
      exact ⟨m, by simpa [handled, Session.run] using hm⟩
    | subscribe => simp at hsub
    | leave => simp at hleave

/-- What is left to hear when the subscriber drains the channel. -/
theorem Hears.drained_eq {a : Audience} {earlier since : List SessionEvent} {n : Nat}
    (h : a.Hears earlier since n) :
    a.drained = Broadcast.catchUp a.relay.events.size (since.drop n) := by
  rw [drained, h.cursor]
  simp only
  rw [h.holds.drain_eq, List.drop_append, List.drop_eq_nil_of_le (Nat.le_add_right _ _),
    List.nil_append, Nat.add_sub_cancel_left]

/-- The next thing that the subscriber gets is the first one that it would get by draining, and the
others are left. -/
theorem Hears.receive_eq {a : Audience} {earlier since : List SessionEvent} {n : Nat}
    (h : a.Hears earlier since n) :
    (a.step .receive).got = a.got ++ a.drained.take 1
      ∧ (a.step .receive).drained = a.drained.drop 1 := by
  have hdrain := h.holds.drain_eq_receive ⟨earlier.length + n⟩
  simp only [step, drained, h.cursor, Option.bind_some, hdrain]
  split
  · next r next hreceive => simp [hreceive]
  · next hnone =>
    simp only [h.cursor, hnone, hdrain]
    simp

/-- After draining, the last event received is the last one since the subscription. -/
theorem Hears.getLast?_drained {a : Audience} {earlier since : List SessionEvent} {n : Nat}
    (h : a.Hears earlier since n) :
    (Broadcast.values (a.got ++ a.drained)).getLast? = since.getLast? := by
  have hvalues : ∀ l : List SessionEvent, Broadcast.values (l.map .value) = l := by
    intro l
    simp [Broadcast.values, List.filterMap_map]
  have hpos := h.holds.size_pos
  have hle := h.le_length
  rw [h.drained_eq, Broadcast.values, List.filterMap_append, ← Broadcast.values, ← Broadcast.values,
    Broadcast.catchUp, List.length_drop]
  by_cases hlag : a.relay.events.size < since.length - n
  · -- the lag counts for nothing, and the newest events come after it
    rw [if_pos hlag, List.drop_drop]
    have hcons : Broadcast.values (.lagged (since.length - n - a.relay.events.size)
        :: (since.drop (n + (since.length - n - a.relay.events.size))).map .value)
        = since.drop (n + (since.length - n - a.relay.events.size)) := hvalues _
    rw [hcons, List.getLast?_append, List.getLast?_drop, if_neg (by omega)]
    cases hsince : since.getLast? with
    | some e => rfl
    | none =>
      rw [List.getLast?_eq_none_iff] at hsince
      simp [hsince] at hlag
  · rw [if_neg hlag, hvalues, List.getLast?_append, List.getLast?_drop]
    by_cases hall : since.length ≤ n
    · rw [if_pos hall, Option.none_or]
      exact h.last (Nat.le_antisymm hle hall)
    · rw [if_neg hall]
      cases hsince : since.getLast? with
      | some e => rfl
      | none =>
        rw [List.getLast?_eq_none_iff] at hsince
        simp [hsince] at hall

/-- **What a subscriber hears.**  Whatever the room of the channel and whoever listens, the session
and the events that go out are those of the signals, one by one. And a subscriber, whenever it
subscribed and receives, has got an account of the first of the events since it subscribed: each of
them in its place, or the number of a stretch that was lost. What it gets next is the first thing
that it would get by draining the channel: the next unread event, unless more are unread than the
channel keeps; then it is the number of all but the newest ones, and those come after it. So the
last event that it has got after draining shows what the session is doing. -/
theorem audience_run (capacity : Nat) :
    (∀ turns, let a := (start capacity).run turns
      a.relay.session = (Session.idle.run (handled turns)).1
        ∧ a.relay.events.Holds (Session.idle.run (handled turns)).2)
      ∧ ∀ before after, .subscribe ∉ after → .leave ∉ after →
        let a := (start capacity).run (before ++ .subscribe :: after)
        ∃ heard unread,
          (Session.idle.run (handled (before ++ .subscribe :: after))).2
              = (Session.idle.run (handled before)).2 ++ (heard ++ unread)
            ∧ Broadcast.Accounts a.got heard
            ∧ a.drained = Broadcast.catchUp capacity.nextPowerOfTwo unread
            ∧ (a.step .receive).got = a.got ++ a.drained.take 1
            ∧ (a.step .receive).drained = a.drained.drop 1
            ∧ (heard ++ unread ≠ [] → ∃ last,
              (Broadcast.values (a.got ++ a.drained)).getLast? = some last
                ∧ Mode.ofEvent last = .ofSession a.relay.session) := by
  constructor
  · intro turns a
    exact ⟨session_run capacity turns, holds_run capacity turns⟩
  · intro before after hsub hleave a
    obtain ⟨n, hn⟩ := exists_hears capacity before hsub hleave
    have hevents : (Session.idle.run (handled (before ++ .subscribe :: after))).2
        = (Session.idle.run (handled before)).2
          ++ ((Session.idle.run (handled before)).1.run (handled after)).2 := by
      rw [handled_subscribe, Session.run_append]
    refine ⟨_, ((Session.idle.run (handled before)).1.run (handled after)).2.drop n, ?_,
      hn.accounts, ?_, hn.receive_eq.1, hn.receive_eq.2, ?_⟩
    · rw [List.take_append_drop, hevents]
    · rw [hn.drained_eq, size_run]
    · rw [List.take_append_drop, hn.getLast?_drained]
      intro hsome
      have hlast := List.getLast?_eq_some_getLast hsome
      refine ⟨_, hlast, ?_⟩
      rw [session_run]
      apply Mode.ofEvent_of_run
      rw [hevents, List.getLast?_append, hlast, Option.some_or]

/-- A subscriber of a channel for one event has heard the start of a recording, and the hook is
refused: of the two events of that signal it loses the first. -/
theorem audience_run_lagged :
    let turns := [.subscribe, .handle [⟨.pressed, .epoch⟩], .receive,
      .handle [⟨.permissionDenied, .epoch⟩]]
    let a := (start 1).run turns
    a.got = [.value (.recordingStarted .epoch)]
      ∧ a.drained = [.lagged 1, .value (.permissionRequired .epoch)]
      ∧ ∃ last, (Broadcast.values (a.got ++ a.drained)).getLast? = some last
        ∧ Mode.ofEvent last = .ofSession a.relay.session := by
  intro turns a
  obtain ⟨heard, unread, hevents, -, -, -, -, hlast⟩ := (audience_run 1).2 []
    [.handle [⟨.pressed, .epoch⟩], .receive, .handle [⟨.permissionDenied, .epoch⟩]] (by decide)
    (by decide)
  refine ⟨by decide +kernel, by decide +kernel, hlast ?_⟩
  intro hnone
  rw [hnone] at hevents
  exact absurd hevents (by decide +kernel)

end Audience

end HoldToRecord
