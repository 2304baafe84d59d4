import Mathlib.Tactic
import HoldToRecord.Proofs.Channel.Broadcast
import HoldToRecord.Proofs.Wire.Serving
import HoldToRecord.Wire.Handler

/-!
# How fresh a status is

Session events reach a client in two ways. The task that serves it receives them and writes
notifications, and an updater, which is a receiver of its own, notes them in the status that clients
ask for. A `Desk` is the daemon with its updater and the tasks of all clients, and with a record of
what was noted, which responses were prepared, and what the clients were sent. Nobody waits for
anybody else: the updater may be late, and a response may be written long after the status was read
for it, so a client may be told an event and then be shown a status from before it (`not_fresh`). What
a status shows is the last event that the updater had noted when the status was read; from the moment
at which this is an event or a later one, no status from before it is read any more
(`status_after_noted`).
-/

namespace HoldToRecord

open HoldToRecord.Channel HoldToRecord.Wire

/-! ## What a status shows -/

/-- The status shows what the event at a place has set, or that no event was noted. -/
def Status.SetBy (s : Status) (all : List SessionEvent) : Option Nat → Prop
  | none => s.mode = .idle ∧ s.lastEventAt = none
  | some place => ∃ event, all[place]? = some event
    ∧ s.mode = .ofEvent event ∧ s.lastEventAt = some event.instant

/-- What stands at a place still stands there when more comes behind it. -/
theorem getElem?_append_of_eq_some {α : Type} {l : List α} {i : Nat} {a : α} (h : l[i]? = some a)
    (more : List α) : (l ++ more)[i]? = some a := by
  rw [List.getElem?_append_left (List.getElem?_eq_some_iff.mp h).1, h]

namespace Status

variable {s t : Status} {all : List SessionEvent} {last : Option Nat}

/-- More events do not change what was set. -/
theorem SetBy.append (h : s.SetBy all last) (more : List SessionEvent) :
    s.SetBy (all ++ more) last := by
  cases last with
  | none => exact h
  | some place =>
    obtain ⟨event, hget, hset⟩ := h
    exact ⟨event, getElem?_append_of_eq_some hget more, hset⟩

/-- The uptime and the hotkey are set by no event. -/
theorem SetBy.congr (h : s.SetBy all last) (hmode : t.mode = s.mode)
    (hlast : t.lastEventAt = s.lastEventAt) : t.SetBy all last := by
  cases last with
  | none => exact ⟨hmode.trans h.1, hlast.trans h.2⟩
  | some place =>
    obtain ⟨event, hget, hset⟩ := h
    exact ⟨event, hget, hmode.trans hset.1, hlast.trans hset.2⟩

end Status

/-! ## The desk -/

namespace Desk

/-- An entry of the record: the updater has noted the event at a place among those that were
broadcast, the status was read for a response to a client, the response was written, or the client
was told the event at a place. -/
inductive Entry
  | noted (place : Nat)
  | prepared (client : String) (response : Response)
  | answered (client : String) (response : Response)
  | told (client : String) (place : Nat) (event : SessionEvent)
  deriving DecidableEq

namespace Entry

/-- The places of the events that were noted. -/
def places (log : List Entry) : List Nat :=
  log.filterMap fun
    | .noted place => some place
    | _ => none

/-- The client that an entry is about, if it is about one. -/
def client? : Entry → Option String
  | .noted _ => none
  | .prepared client _ => some client
  | .answered client _ => some client
  | .told client _ _ => some client

/-- The message to a client, if the entry is one. -/
def messageTo (client : String) : Entry → Option Bytes
  | .answered name response => if name = client then some response.toJson.toBytes else none
  | .told name _ event =>
    if name = client then some (Notification.session event).toJson.toBytes else none
  | _ => none

/-- What an act of the task that serves a client leaves in the record. -/
def ofAct (client : String) (h : Handler) (status : Status) (act : Handler.Act) : Option Entry :=
  match act, h.hand with
  | .prepare uptime, .body bytes =>
    some (.prepared client (Connection.reply (Connection.statusFor status uptime bytes) bytes))
  | .write, .response response => some (.answered client response)
  | .write, .event place event => some (.told client place event)
  | _, _ => none

end Entry

end Desk

/-- The status, the channel of session events, the clients with the tasks that serve them, the
updater, which is known by where it stands among the events and by the event that it has received and
not noted yet, and the record. -/
structure Desk where
  status : Status
  events : Broadcast SessionEvent
  handler : String → Option Handler
  cursor : Cursor
  inHand : Option SessionEvent
  log : List Desk.Entry

namespace Desk

/-- A turn: a session event is broadcast, the updater receives or notes what it has in hand, the
hotkey is noted, a client connects, or something happens on its connection. -/
inductive Turn
  | broadcast (event : SessionEvent)
  | receive
  | note
  | setHotkey (hotkey : Hotkey) (registered : Bool)
  | connect (client : String)
  | client (client : String) (act : Handler.Act)

/-- Nothing was broadcast yet, and the updater has subscribed. -/
def start (capacity : Nat) : Desk where
  status := .initial
  events := .create capacity
  handler := fun _ => none
  cursor := (Broadcast.create capacity : Broadcast SessionEvent).subscribe
  inHand := none
  log := []

/-- The desk after a turn. The updater receives only when it has nothing in hand. -/
def step (d : Desk) : Turn → Desk
  | .broadcast event => { d with events := d.events.publish event }
  | .receive =>
    match d.inHand, d.events.receive d.cursor with
    | none, some (.value event, cursor) => { d with inHand := some event, cursor := cursor }
    | none, some (.lagged _, cursor) => { d with cursor := cursor }
    | _, _ => d
  | .note =>
    match d.inHand with
    | some event =>
      { d with
        status := d.status.apply event
        inHand := none
        log := d.log ++ [.noted (d.cursor.position - 1)] }
    | none => d
  | .setHotkey hotkey registered => { d with status := d.status.setHotkey hotkey registered }
  | .connect client => { d with handler := Function.update d.handler client (some .fresh) }
  | .client client act =>
    match d.handler client with
    | none => d
    | some h =>
      { d with
        status := h.noted d.status act
        handler := Function.update d.handler client (some (h.act d.status d.events act))
        log := d.log ++ (Entry.ofAct client h d.status act).toList }

/-- The desk after turns, one after the other. -/
def run (d : Desk) (turns : List Turn) : Desk := turns.foldl step d

/-- The session events that are broadcast. -/
def broadcasts (turns : List Turn) : List SessionEvent :=
  turns.filterMap fun
    | .broadcast event => some event
    | _ => none

theorem run_concat (d : Desk) (turns : List Turn) (t : Turn) :
    d.run (turns ++ [t]) = (d.run turns).step t := by
  simp [run]

theorem broadcasts_concat (turns : List Turn) (t : Turn) :
    broadcasts (turns ++ [t]) = broadcasts turns ++ broadcasts [t] := List.filterMap_append

/-! ## What an act does -/

/-- What the task that serves a client is busy with after an act, and what the act leaves in the
record. -/
inductive Leaves (client : String) (h : Handler) (status : Status)
    (events : Broadcast SessionEvent) : Hand → Option Entry → Prop
  /-- The act is not the task's own, or is not possible. -/
  | same : Leaves client h status events h.hand none
  /-- The client is lost, the connection is closed, or events were missed. -/
  | free : Leaves client h status events .free none
  | take (bytes : Bytes) : Leaves client h status events (.body bytes) none
  | hear {cursor next : Cursor} {event : SessionEvent}
      (hreceive : events.receive cursor = some (.value event, next)) :
    Leaves client h status events (.event cursor.position event) none
  | prepare (secs : UInt64) (bytes : Bytes) :
    Leaves client h status events
      (.response (Connection.reply { status with uptimeSecs := secs } bytes))
      (some (.prepared client (Connection.reply { status with uptimeSecs := secs } bytes)))
  | answer {response : Response} (hhand : h.hand = .response response) :
    Leaves client h status events .free (some (.answered client response))
  | tell {place : Nat} {event : SessionEvent} (hhand : h.hand = .event place event) :
    Leaves client h status events .free (some (.told client place event))

/-- **One act.** -/
theorem leaves_act (client : String) (h : Handler) (status : Status)
    (events : Broadcast SessionEvent) (act : Handler.Act) :
    Leaves client h status events (h.act status events act).hand
      (Entry.ofAct client h status act) := by
  cases act with
  | arrive piece => exact .same
  | hangUp => exact .same
  | cut => exact .same
  | lose => exact .free
  | take =>
    unfold Handler.act Entry.ofAct
    dsimp only
    split
    · exact .take _
    · exact .same
  | prepare uptime =>
    unfold Handler.act Entry.ofAct
    dsimp only
    cases hhand : h.hand with
    | body bytes =>
      obtain ⟨secs, hstatus⟩ := Connection.exists_statusFor status uptime bytes
      dsimp only
      rw [hstatus]
      exact .prepare secs bytes
    | _ => exact .same
  | hear =>
    unfold Handler.act Entry.ofAct
    dsimp only
    split
    · next event c hhand hhear =>
      obtain ⟨-, cursor, next, hsub, hreceive, -⟩ := Connection.hear_eq_some hhear
      have hplace : h.connection.place = cursor.position := by
        rw [Connection.place, hsub]
        rfl
      dsimp only
      rw [hplace]
      exact .hear hreceive
    · exact .free
    · exact .same
  | write =>
    unfold Handler.act Entry.ofAct
    dsimp only
    cases hhand : h.hand with
    | response response => exact .answer hhand
    | event place event => exact .tell hhand
    | _ => exact .same
  | finish =>
    unfold Handler.act Entry.ofAct
    dsimp only
    split
    · exact .free
    · exact .same

/-! ## The record -/

namespace Entry

theorem mem_places {log : List Entry} {place : Nat} : place ∈ places log ↔ .noted place ∈ log := by
  unfold places
  rw [List.mem_filterMap]
  constructor
  · rintro ⟨x, hx, hplace⟩
    cases x with
    | noted other =>
      obtain rfl := Option.some.inj hplace
      exact hx
    | prepared client response => cases hplace
    | answered client response => cases hplace
    | told client other event => cases hplace
  · intro hx
    exact ⟨_, hx, rfl⟩

theorem places_append (log more : List Entry) :
    places (log ++ more) = places log ++ places more := List.filterMap_append

/-- The task that serves a client leaves entries that are about the client. -/
theorem client?_of_leaves {client : String} {h : Handler} {status : Status}
    {events : Broadcast SessionEvent} {hand : Hand} {x : Entry}
    (hleaves : Leaves client h status events hand (some x)) : x.client? = some client := by
  cases hleaves with
  | prepare secs bytes => rfl
  | answer hhand => rfl
  | tell hhand => rfl

/-- So it notes no event. -/
theorem places_of_leaves {client : String} {h : Handler} {status : Status}
    {events : Broadcast SessionEvent} {hand : Hand} {x : Option Entry}
    (hleaves : Leaves client h status events hand x) : places x.toList = [] := by
  cases hleaves <;> simp [places]

/-- An entry that is about another client, or about none, is no message. -/
theorem messageTo_eq_none {client : String} {x : Entry} (hx : x.client? ≠ some client) :
    x.messageTo client = none := by
  cases x with
  | noted place => rfl
  | prepared name response => rfl
  | answered name response => exact if_neg fun heq => hx (congrArg some heq)
  | told name place event => exact if_neg fun heq => hx (congrArg some heq)

/-- What the task sends to its client is written into the record. -/
theorem sent_act (client : String) (h : Handler) (status : Status)
    (events : Broadcast SessionEvent) (act : Handler.Act) :
    (h.act status events act).connection.sent
      = h.connection.sent ++ ((ofAct client h status act).bind (messageTo client)).toList := by
  cases act with
  | arrive piece =>
    rw [Handler.act, Connection.arrive]
    split_ifs <;> exact (List.append_nil _).symm
  | hangUp => exact (List.append_nil _).symm
  | lose => exact (List.append_nil _).symm
  | cut =>
    rw [Handler.act]
    cases hcut : h.connection.cut with
    | none => exact (List.append_nil _).symm
    | some d =>
      obtain ⟨-, -, ⟨body, rest, -, -, rfl⟩ | ⟨-, rfl⟩⟩ := Connection.cut_eq_some hcut
      · exact (List.append_nil _).symm
      · exact (List.append_nil _).symm
  | take =>
    unfold Handler.act ofAct
    dsimp only
    split
    · next bytes c hhand htake =>
      obtain ⟨-, rest, -, rfl⟩ := Connection.take_eq_some htake
      exact (List.append_nil _).symm
    · exact (List.append_nil _).symm
  | prepare uptime =>
    unfold Handler.act ofAct
    cases h.hand <;> exact (List.append_nil _).symm
  | hear =>
    unfold Handler.act ofAct
    dsimp only
    split
    · next event c hhand hhear =>
      obtain ⟨-, cursor, next, -, -, rfl⟩ := Connection.hear_eq_some hhear
      exact (List.append_nil _).symm
    · next missed c hhand hhear =>
      obtain ⟨-, cursor, next, -, -, rfl⟩ := Connection.hear_eq_some hhear
      exact (List.append_nil _).symm
    · exact (List.append_nil _).symm
  | write =>
    unfold Handler.act ofAct
    cases h.hand with
    | response response =>
      dsimp only
      rw [Option.bind_some, messageTo, if_pos rfl]
      rfl
    | event place event =>
      dsimp only
      rw [Option.bind_some, messageTo, if_pos rfl]
      rfl
    | _ => exact (List.append_nil _).symm
  | finish =>
    unfold Handler.act ofAct
    dsimp only
    split
    · next c hhand hfinish =>
      obtain ⟨-, -, -, rfl⟩ := Connection.finish_eq_some hfinish
      exact (List.append_nil _).symm
    · exact (List.append_nil _).symm

/-- An entry that is added to the record comes after all others in it. -/
theorem eq_of_concat_eq {log early late : List Entry} {x y : Entry}
    (h : log ++ [x] = early ++ y :: late) :
    (early = log ∧ x = y ∧ late = []) ∨ ∃ rest, late = rest ++ [x] ∧ log = early ++ y :: rest := by
  rcases List.eq_nil_or_concat late with rfl | ⟨rest, z, rfl⟩
  · obtain ⟨rfl, hxy⟩ := List.append_inj' h rfl
    exact Or.inl ⟨rfl, (List.cons.inj hxy).1, rfl⟩
  · rw [List.concat_eq_append, ← List.cons_append, ← List.append_assoc] at h
    obtain ⟨rfl, hxz⟩ := List.append_inj' h rfl
    obtain rfl := (List.cons.inj hxz).1
    exact Or.inr ⟨rest, List.concat_eq_append, rfl⟩

end Entry

/-- What the record holds for a client. -/
def messages (d : Desk) (client : String) : List Bytes :=
  d.log.filterMap (Entry.messageTo client)

/-- A client's task after something has happened on the connection of a client. -/
theorem handler_client (d : Desk) (name client : String) (act : Handler.Act) :
    (d.step (.client name act)).handler client
      = if client = name then (d.handler client).map (·.act d.status d.events act)
        else d.handler client := by
  rw [step]
  split_ifs with heq
  · subst heq
    cases hh : d.handler client with
    | none => simpa using hh
    | some h => simp
  · cases d.handler name with
    | none => rfl
    | some h => exact Function.update_of_ne heq ..

/-- What happens on a client's connection adds to the record what is sent to that client. -/
theorem messages_client (d : Desk) (name client : String) (act : Handler.Act) :
    (d.step (.client name act)).messages client
      = d.messages client ++ ((d.handler name).bind fun h =>
          (Entry.ofAct name h d.status act).bind (Entry.messageTo client)).toList := by
  rw [step]
  cases d.handler name with
  | none => exact (List.append_nil _).symm
  | some h =>
    dsimp only [messages]
    rw [List.filterMap_append, Option.bind_some]
    congr 1
    cases Entry.ofAct name h d.status act with
    | none => rfl
    | some x => cases hx : x.messageTo client <;> simp [hx]

/-- A turn keeps the record of what a client was sent since it connected. -/
theorem suffix_step {d : Desk} {client : String}
    (h : ∀ g, d.handler client = some g → g.connection.sent <:+ d.messages client) (t : Turn)
    {g : Handler} (hg : (d.step t).handler client = some g) :
    g.connection.sent <:+ (d.step t).messages client := by
  cases t with
  | broadcast event => exact h g hg
  | setHotkey hotkey registered => exact h g hg
  | receive =>
    have hsame : (d.step .receive).handler = d.handler ∧ (d.step .receive).log = d.log := by
      simp only [step]
      split <;> exact ⟨rfl, rfl⟩
    rw [hsame.1] at hg
    rw [messages, hsame.2]
    exact h g hg
  | note =>
    have hsame : (d.step .note).handler = d.handler
        ∧ (d.step .note).messages client = d.messages client := by
      simp only [step, messages]
      split
      · rw [List.filterMap_append]
        exact ⟨rfl, List.append_nil _⟩
      · exact ⟨rfl, rfl⟩
    rw [hsame.1] at hg
    rw [hsame.2]
    exact h g hg
  | connect name =>
    have hupdate : Function.update d.handler name (some .fresh) client = some g := hg
    by_cases heq : client = name
    · rw [heq, Function.update_self] at hupdate
      obtain rfl := Option.some.inj hupdate
      exact List.nil_suffix
    · rw [Function.update_of_ne heq] at hupdate
      exact h g hupdate
  | client name act =>
    rw [handler_client] at hg
    rw [messages_client]
    split_ifs at hg with heq
    · subst heq
      obtain ⟨before, hbefore, rfl⟩ := Option.map_eq_some_iff.mp hg
      obtain ⟨front, hfront⟩ := h before hbefore
      refine ⟨front, ?_⟩
      rw [Entry.sent_act client, ← List.append_assoc, hfront, hbefore, Option.bind_some]
    · -- a message to somebody else is none to this client
      have hnone : ((d.handler name).bind fun h =>
          (Entry.ofAct name h d.status act).bind (Entry.messageTo client)) = none := by
        simp only [Option.bind_eq_none_iff]
        intro other _ x hx
        have hleaves := leaves_act name other d.status d.events act
        rw [hx] at hleaves
        apply Entry.messageTo_eq_none
        rw [Entry.client?_of_leaves hleaves]
        exact fun hsame => heq (Option.some.inj hsame).symm
      rw [hnone, Option.toList_none, List.append_nil]
      exact h g hg

/-- **The record is complete.**  What a client was sent since it connected is, message by message,
what the record holds last for it. -/
theorem sent_suffix (capacity : Nat) (turns : List Turn) {client : String} {g : Handler}
    (hg : ((start capacity).run turns).handler client = some g) :
    g.connection.sent <:+ ((start capacity).run turns).messages client := by
  induction turns using List.reverseRecOn generalizing g with
  | nil => cases hg
  | append_singleton turns t ih =>
    rw [run_concat] at hg ⊢
    exact suffix_step (fun g hg => ih hg) t hg

/-! ## The updater -/

/-- The updater is through with the first `n` of the events that were broadcast, and has the next
one in hand if it has any. What it noted are places before that, in their order, and the last one of
them has set the status. -/
structure Tends (d : Desk) (all : List SessionEvent) (n : Nat) : Prop where
  holds : d.events.Holds all
  hand : (d.inHand = none ∧ d.cursor.position = n)
    ∨ ∃ event, d.inHand = some event ∧ d.cursor.position = n + 1 ∧ all[n]? = some event
  ordered : (Entry.places d.log).Pairwise (· < ·)
  lt : ∀ place ∈ Entry.places d.log, place < n
  status : d.status.SetBy all (Entry.places d.log).getLast?

section Updater

variable {d : Desk} {all : List SessionEvent} {n : Nat}

theorem tends_start (capacity : Nat) : (start capacity).Tends [] 0 where
  holds := Broadcast.holds_create capacity
  hand := Or.inl ⟨rfl, rfl⟩
  ordered := .nil
  lt := by
    intro place hplace
    cases hplace
  status := ⟨rfl, rfl⟩

/-- One more event makes no difference to what happened before. -/
theorem Tends.broadcast (h : d.Tends all n) (event : SessionEvent) :
    (d.step (.broadcast event)).Tends (all ++ [event]) n where
  holds := h.holds.publish event
  hand := by
    rcases h.hand with hnone | ⟨e, hhand, hposition, hget⟩
    · exact Or.inl hnone
    · exact Or.inr ⟨e, hhand, hposition, getElem?_append_of_eq_some hget [event]⟩
  ordered := h.ordered
  lt := h.lt
  status := h.status.append _

/-- The status changes only in what no event sets, and nothing is noted. -/
theorem Tends.congr {e : Desk} (h : d.Tends all n)
    (hsame : (e.events, e.cursor, e.inHand) = (d.events, d.cursor, d.inHand))
    (hplaces : Entry.places e.log = Entry.places d.log) (hmode : e.status.mode = d.status.mode)
    (hlast : e.status.lastEventAt = d.status.lastEventAt) : e.Tends all n := by
  simp only [Prod.mk.injEq] at hsame
  obtain ⟨hevents, hcursor, hhand⟩ := hsame
  constructor
  · rw [hevents]
    exact h.holds
  · rw [hcursor, hhand]
    exact h.hand
  · rw [hplaces]
    exact h.ordered
  · rw [hplaces]
    exact h.lt
  · rw [hplaces]
    exact h.status.congr hmode hlast

/-- The updater receives the next event, or passes over those that are gone. -/
theorem Tends.receive (h : d.Tends all n) : ∃ m, (d.step .receive).Tends all m := by
  rcases h.hand with ⟨hhand, hposition⟩ | ⟨event, hhand, -⟩
  · simp only [step, hhand, h.holds.receive_eq, hposition]
    by_cases hbehind : n < all.length - d.events.size
    · rw [if_pos hbehind]
      dsimp only
      refine ⟨all.length - d.events.size, ?_⟩
      exact
        { holds := h.holds
          hand := Or.inl ⟨rfl, rfl⟩
          ordered := h.ordered
          lt := fun place hplace => (h.lt place hplace).trans hbehind
          status := h.status }
    · rw [if_neg hbehind]
      refine ⟨n, ?_⟩
      cases hget : all[n]? with
      | none => exact h
      | some event =>
        exact
          { holds := h.holds
            hand := Or.inr ⟨event, rfl, rfl, hget⟩
            ordered := h.ordered
            lt := h.lt
            status := h.status }
  · -- it has something in hand and does not receive
    refine ⟨n, ?_⟩
    simp only [step, hhand]
    exact h

/-- The updater notes the event that it has in hand. -/
theorem Tends.note (h : d.Tends all n) : ∃ m, (d.step .note).Tends all m := by
  rcases h.hand with ⟨hhand, -⟩ | ⟨event, hhand, hposition, hget⟩
  · refine ⟨n, ?_⟩
    simp only [step, hhand]
    exact h
  · refine ⟨n + 1, ?_⟩
    simp only [step, hhand, hposition, Nat.add_sub_cancel]
    have hplaces : Entry.places (d.log ++ [.noted n]) = Entry.places d.log ++ [n] :=
      Entry.places_append _ _
    exact
      { holds := h.holds
        hand := Or.inl ⟨rfl, hposition⟩
        ordered := by
          rw [hplaces, List.pairwise_append]
          refine ⟨h.ordered, List.pairwise_singleton _ _, ?_⟩
          intro place hplace last hlast
          rw [List.mem_singleton.mp hlast]
          exact h.lt place hplace
        lt := by
          intro place hplace
          rw [hplaces, List.mem_append, List.mem_singleton] at hplace
          rcases hplace with hplace | rfl
          · exact (h.lt place hplace).trans (Nat.lt_succ_self n)
          · exact Nat.lt_succ_self place
        status := by
          rw [hplaces, List.getLast?_concat]
          exact ⟨event, hget, rfl, rfl⟩ }

/-- The task that serves a client is not the updater's business. -/
theorem Tends.client (h : d.Tends all n) (client : String) (act : Handler.Act) :
    (d.step (.client client act)).Tends all n := by
  rw [step]
  cases d.handler client with
  | none => exact h
  | some g =>
    obtain ⟨secs, hnoted⟩ := g.exists_noted d.status act
    dsimp only
    rw [hnoted]
    refine h.congr rfl ?_ rfl rfl
    rw [Entry.places_append, Entry.places_of_leaves (leaves_act client g d.status d.events act),
      List.append_nil]

end Updater

/-! ## The tasks -/

/-- The status was read for a response to a client and showed what was noted last by then; since then
nothing was written to the client, and no other response was prepared for it. -/
def Prepared (all : List SessionEvent) (client : String) (response : Response)
    (log : List Entry) : Prop :=
  ∃ early mid, log = early ++ .prepared client response :: mid
    ∧ (∀ x ∈ mid, x.client? ≠ some client)
    ∧ ∀ shown, response = .status shown → shown.SetBy all (Entry.places early).getLast?

/-- What a task is busy with is right: an event that it has received is the one that was broadcast at
its place, and a response that it will write is prepared. -/
def Owes (all : List SessionEvent) (client : String) (log : List Entry) : Hand → Prop
  | .event place event => all[place]? = some event
  | .response response => Prepared all client response log
  | _ => True

/-- A message that comes behind a record is right: the event is the one that was broadcast at its
place, and the response was prepared. -/
def Entry.Fits (all : List SessionEvent) (log : List Entry) : Entry → Prop
  | .told _ place event => all[place]? = some event
  | .answered client response => Prepared all client response log
  | _ => True

/-- What the tasks are busy with is right, and so is everything that they have written. -/
structure Serves (d : Desk) (all : List SessionEvent) : Prop where
  owes : ∀ client g, d.handler client = some g → Owes all client d.log g.hand
  fits : ∀ before x late, d.log = before ++ x :: late → x.Fits all before

section Tasks

variable {d : Desk} {all : List SessionEvent} {n : Nat} {client : String} {response : Response}
  {log : List Entry}

/-- More events do not change what was set. -/
theorem Prepared.append_events (h : Prepared all client response log)
    (more : List SessionEvent) : Prepared (all ++ more) client response log := by
  obtain ⟨early, mid, hlog, hmid, hset⟩ := h
  exact ⟨early, mid, hlog, hmid, fun shown hshown => (hset shown hshown).append more⟩

/-- Entries that are about others make no difference. -/
theorem Prepared.append (h : Prepared all client response log) {more : List Entry}
    (hmore : ∀ x ∈ more, x.client? ≠ some client) :
    Prepared all client response (log ++ more) := by
  obtain ⟨early, mid, rfl, hmid, hset⟩ := h
  refine ⟨early, mid ++ more, by rw [List.append_assoc, List.cons_append], ?_, hset⟩
  intro x hx
  rcases List.mem_append.mp hx with hx | hx
  · exact hmid x hx
  · exact hmore x hx

/-- The status that is read shows what was noted last. -/
theorem prepared_concat {status : Status} (h : status.SetBy all (Entry.places log).getLast?)
    (secs : UInt64) (bytes : Bytes) :
    let answer := Connection.reply { status with uptimeSecs := secs } bytes
    Prepared all client answer (log ++ [.prepared client answer]) := by
  refine ⟨log, [], rfl, by simp, ?_⟩
  intro shown hshown
  obtain ⟨-, rfl⟩ := ((Connection.reply_iff _ bytes).2.1 shown).mp hshown
  exact h.congr rfl rfl

/-- More events make no difference to what a task is busy with. -/
theorem Owes.append_events {hand : Hand} (h : Owes all client log hand)
    (more : List SessionEvent) : Owes (all ++ more) client log hand := by
  cases hand with
  | event place event => exact getElem?_append_of_eq_some h more
  | response response => exact Prepared.append_events h more
  | _ => trivial

/-- Nor do entries that are about others. -/
theorem Owes.append {hand : Hand} (h : Owes all client log hand) {more : List Entry}
    (hmore : ∀ x ∈ more, x.client? ≠ some client) : Owes all client (log ++ more) hand := by
  cases hand with
  | event place event => exact h
  | response response => exact Prepared.append h hmore
  | _ => trivial

/-- Nor do more events to what was written. -/
theorem Entry.Fits.append_events {x : Entry} (h : x.Fits all log) (more : List SessionEvent) :
    x.Fits (all ++ more) log := by
  cases x with
  | told client place event => exact getElem?_append_of_eq_some h more
  | answered client response => exact Prepared.append_events h more
  | _ => trivial

theorem serves_start (capacity : Nat) : (start capacity).Serves [] where
  owes := by
    intro client g hg
    cases hg
  fits := by
    intro before x late hlog
    cases before <;> cases hlog

/-- Nothing but the tasks and the record counts. -/
theorem Serves.congr {e : Desk} (h : d.Serves all)
    (hsame : (e.handler, e.log) = (d.handler, d.log)) : e.Serves all := by
  simp only [Prod.mk.injEq] at hsame
  obtain ⟨hhandler, hlog⟩ := hsame
  constructor
  · rw [hhandler, hlog]
    exact h.owes
  · rw [hlog]
    exact h.fits

/-- One more event makes no difference to what happened before. -/
theorem Serves.broadcast (h : d.Serves all) (event : SessionEvent) :
    (d.step (.broadcast event)).Serves (all ++ [event]) where
  owes := by
    intro client g hg
    exact (h.owes client g hg).append_events [event]
  fits := by
    intro before x late hlog
    exact (h.fits before x late hlog).append_events [event]

/-- One more entry in the record. -/
theorem Serves.fits_concat (h : d.Serves all) {y : Entry} (hy : y.Fits all d.log) :
    ∀ before x late, d.log ++ [y] = before ++ x :: late → x.Fits all before := by
  intro before x late hlog
  rcases Entry.eq_of_concat_eq hlog with ⟨rfl, rfl, -⟩ | ⟨rest, -, hlog⟩
  · exact hy
  · exact h.fits before x rest hlog

/-- The updater notes an event. -/
theorem Serves.note (h : d.Serves all) : (d.step .note).Serves all := by
  rw [step]
  split
  · constructor
    · intro client g hg
      apply (h.owes client g hg).append
      simp [Entry.client?]
    · exact h.fits_concat trivial
  · exact h

/-- The task of a client comes to another state, and leaves at most one entry in the record. -/
theorem Serves.update (h : d.Serves all) (status : Status) {g : Handler} {x : Option Entry}
    (hx : ∀ y, x = some y → y.client? = some client ∧ y.Fits all d.log)
    (howes : Owes all client (d.log ++ x.toList) g.hand) :
    Serves { d with
      status := status
      handler := Function.update d.handler client (some g)
      log := d.log ++ x.toList } all where
  owes := by
    intro name k hk
    by_cases hname : name = client
    · dsimp only at hk
      rw [hname, Function.update_self] at hk
      obtain rfl := Option.some.inj hk
      rw [hname]
      exact howes
    · dsimp only at hk
      rw [Function.update_of_ne hname] at hk
      apply (h.owes name k hk).append
      intro y hy hyname
      rw [(hx y (Option.mem_toList.mp hy)).1] at hyname
      exact hname (Option.some.inj hyname).symm
  fits := by
    cases x with
    | none =>
      rw [Option.toList_none, List.append_nil]
      exact h.fits
    | some y => exact h.fits_concat (hx y rfl).2

/-- A client connects, and its task starts. -/
theorem Serves.connect (h : d.Serves all) (client : String) :
    (d.step (.connect client)).Serves all := by
  have hupdate := @Serves.update d all client h d.status .fresh none (by simp) trivial
  apply hupdate.congr
  simp [step]

/-- The task of a client takes a step, or something else happens on the connection. -/
theorem Serves.act (h : d.Serves all) (htends : d.Tends all n) (client : String)
    (act : Handler.Act) : (d.step (.client client act)).Serves all := by
  rw [step]
  cases hg : d.handler client with
  | none => exact h
  | some g =>
    dsimp only
    have hleaves := leaves_act client g d.status d.events act
    apply h.update
    · intro y hy
      rw [hy] at hleaves
      refine ⟨Entry.client?_of_leaves hleaves, ?_⟩
      have howes := h.owes client g hg
      generalize (g.act d.status d.events act).hand = hand at hleaves
      cases hleaves with
      | prepare secs bytes => trivial
      | answer hhand => rwa [hhand] at howes
      | tell hhand => rwa [hhand] at howes
    · generalize (g.act d.status d.events act).hand = hand at hleaves ⊢
      generalize Entry.ofAct client g d.status act = x at hleaves ⊢
      cases hleaves with
      | same =>
        rw [Option.toList_none, List.append_nil]
        exact h.owes client g hg
      | free => trivial
      | take bytes => trivial
      | hear hreceive =>
        rw [htends.holds.receive_eq] at hreceive
        split_ifs at hreceive
        · cases hreceive
        · obtain ⟨event, hget, hgot⟩ := Option.map_eq_some_iff.mp hreceive
          cases hgot
          exact hget
      | prepare secs bytes => exact prepared_concat htends.status secs bytes
      | answer hhand => trivial
      | tell hhand => trivial

end Tasks

/-! ## Every run -/

/-- **One turn.** -/
theorem step_keeps {d : Desk} {all : List SessionEvent} {n : Nat} (htends : d.Tends all n)
    (hserves : d.Serves all) (t : Turn) :
    (∃ m, (d.step t).Tends (all ++ broadcasts [t]) m)
      ∧ (d.step t).Serves (all ++ broadcasts [t]) := by
  -- only a broadcast adds to the events
  have hsilent : broadcasts [t] = [] →
      (∃ m, (d.step t).Tends all m) ∧ (d.step t).Serves all →
      (∃ m, (d.step t).Tends (all ++ broadcasts [t]) m)
        ∧ (d.step t).Serves (all ++ broadcasts [t]) := by
    intro hnone hkept
    rwa [hnone, List.append_nil]
  cases t with
  | broadcast event => exact ⟨⟨n, htends.broadcast event⟩, hserves.broadcast event⟩
  | receive =>
    refine hsilent rfl ⟨htends.receive, hserves.congr ?_⟩
    rw [step]
    split <;> rfl
  | note => exact hsilent rfl ⟨htends.note, hserves.note⟩
  | setHotkey hotkey registered =>
    exact hsilent rfl ⟨⟨n, htends.congr rfl rfl rfl rfl⟩, hserves.congr rfl⟩
  | connect client =>
    exact hsilent rfl ⟨⟨n, htends.congr rfl rfl rfl rfl⟩, hserves.connect client⟩
  | client client act =>
    exact hsilent rfl ⟨⟨n, htends.client client act⟩, hserves.act htends client act⟩

theorem exists_keeps (capacity : Nat) (turns : List Turn) :
    ∃ n, ((start capacity).run turns).Tends (broadcasts turns) n
      ∧ ((start capacity).run turns).Serves (broadcasts turns) := by
  induction turns using List.reverseRecOn with
  | nil => exact ⟨0, tends_start capacity, serves_start capacity⟩
  | append_singleton turns t ih =>
    obtain ⟨n, htends, hserves⟩ := ih
    rw [run_concat, broadcasts_concat]
    obtain ⟨⟨m, hm⟩, hserves⟩ := step_keeps htends hserves t
    exact ⟨m, hm, hserves⟩

/-- Of places in their order the last one is the latest. -/
theorem exists_getLast?_of_ordered {places : List Nat} (h : places.Pairwise (· < ·)) {place : Nat}
    (hplace : place ∈ places) : ∃ last, places.getLast? = some last ∧ place ≤ last := by
  rcases List.eq_nil_or_concat places with rfl | ⟨front, last, rfl⟩
  · cases hplace
  · rw [List.concat_eq_append] at h hplace ⊢
    refine ⟨last, List.getLast?_concat, ?_⟩
    rw [List.mem_append, List.mem_singleton] at hplace
    rcases hplace with hfront | rfl
    · exact Nat.le_of_lt ((List.pairwise_append.mp h).2.2 _ hfront _ (List.mem_singleton_self _))
    · exact Nat.le_refl _

/-- **What a status shows.**  Take any response that tells a client the status, after any turns. It
was prepared some time before it was written, and nothing else was written to the client in between.
It shows what the last event has set that the updater had noted when it was prepared, if there was
one. So if the client was told an event before the response was written, and the updater had noted
that event or a later one before the response was prepared, then the response shows what that event
or a later one has set. -/
theorem status_after_noted {capacity : Nat} {turns : List Turn} {before late : List Entry}
    {client : String} {shown : Status}
    (hlog : ((start capacity).run turns).log = before ++ .answered client (.status shown) :: late) :
    ∃ early mid, before = early ++ .prepared client (.status shown) :: mid
      ∧ (∀ x ∈ mid, x.client? ≠ some client)
      ∧ shown.SetBy (broadcasts turns) (Entry.places early).getLast?
      ∧ ∀ place event, .told client place event ∈ before →
        (broadcasts turns)[place]? = some event ∧ .told client place event ∈ early
          ∧ ∀ noted, .noted noted ∈ early → place ≤ noted →
            ∃ later e, place ≤ later ∧ (broadcasts turns)[later]? = some e
              ∧ shown.mode = .ofEvent e ∧ shown.lastEventAt = some e.instant := by
  obtain ⟨n, htends, hserves⟩ := exists_keeps capacity turns
  obtain ⟨early, mid, rfl, hmid, hset⟩ := hserves.fits before _ late hlog
  have hset := hset shown rfl
  refine ⟨early, mid, rfl, hmid, hset, ?_⟩
  intro place event htold
  refine ⟨?_, ?_, ?_⟩
  · have hmem : .told client place event ∈ ((start capacity).run turns).log := by
      rw [hlog]
      exact List.mem_append_left _ htold
    obtain ⟨front, back, hsplit⟩ := List.append_of_mem hmem
    exact hserves.fits front _ back hsplit
  · rcases List.mem_append.mp htold with hearly | hlater
    · exact hearly
    · -- since it was prepared, nothing was written to the client
      rcases List.mem_cons.mp hlater with heq | hbetween
      · cases heq
      · exact absurd rfl (hmid _ hbetween)
  · intro noted hnoted hle
    have hordered : (Entry.places early).Pairwise (· < ·) := by
      have h := htends.ordered
      rw [hlog, List.append_assoc, Entry.places_append] at h
      exact (List.pairwise_append.mp h).1
    obtain ⟨last, hlast, hle'⟩ := exists_getLast?_of_ordered hordered (Entry.mem_places.mpr hnoted)
    rw [hlast] at hset
    obtain ⟨e, hget, hmode, hat⟩ := hset
    exact ⟨last, e, hle.trans hle', hget, hmode, hat⟩

/-- What a client sends that subscribes, hears of a recording, and asks for the status, with what
the daemon does for it before it reads the status. -/
def hearing : List Turn :=
  [.connect "a", .client "a" (.arrive (frame Request.subscribe.toJson.toBytes)), .client "a" .cut,
    .client "a" .take, .client "a" (.prepare 0), .client "a" .write,
    .broadcast (.recordingStarted .epoch), .client "a" .hear, .client "a" .write,
    .client "a" (.arrive (frame Request.getStatus.toJson.toBytes)), .client "a" .cut,
    .client "a" .take]

set_option maxRecDepth 4000 in
/-- A client hears of a recording and asks for the status; the updater notes the start before the
status is read. -/
theorem status_after_noted_recording :
    let turns := hearing ++ [Turn.receive, .note, .client "a" (.prepare 2), .client "a" .write]
    let shown : Status :=
      { Status.initial.apply (.recordingStarted .epoch) with uptimeSecs := 2 }
    let early : List Entry := [.prepared "a" .subscribed, .answered "a" .subscribed,
      .told "a" 0 (.recordingStarted .epoch), .noted 0]
    ((start 1).run turns).log
        = (early ++ [Entry.prepared "a" (.status shown)]) ++ [Entry.answered "a" (.status shown)]
      ∧ ∃ later e, 0 ≤ later ∧ (broadcasts turns)[later]? = some e
        ∧ shown.mode = .ofEvent e ∧ shown.lastEventAt = some e.instant := by
  intro turns shown early
  have hlog : ((start 1).run turns).log
      = (early ++ [Entry.prepared "a" (.status shown)])
        ++ [Entry.answered "a" (.status shown)] := by
    cbv
  obtain ⟨other, mid, hbefore, -, -, hfresh⟩ := status_after_noted hlog
  -- the status was read for this response only once
  obtain ⟨rfl, -, -⟩ :=
    (List.append_cons_inj_of_notMem (by simp [early]) (by simp)).mp hbefore
  obtain ⟨-, -, hlater⟩ := hfresh 0 (.recordingStarted .epoch) (by simp [early])
  exact ⟨hlog, hlater 0 (by simp [early]) (Nat.le_refl 0)⟩

set_option maxRecDepth 4000 in
/-- **The updater may be late.**  The daemon broadcasts the start of a recording, a client is told it
and asks for the status. The status is read for it, then the updater notes the start, and then the
response is written: the client is shown the status from before the start. -/
theorem not_fresh :
    ¬ ∀ (capacity : Nat) (turns : List Turn) (before late : List Entry) (client : String)
      (shown : Status) (place : Nat) (event : SessionEvent),
      ((start capacity).run turns).log = before ++ .answered client (.status shown) :: late →
      .told client place event ∈ before →
      ∃ later e, place ≤ later ∧ (broadcasts turns)[later]? = some e
        ∧ shown.mode = .ofEvent e ∧ shown.lastEventAt = some e.instant := by
  intro h
  have hlog : ((start 1).run
      (hearing ++ [Turn.client "a" (.prepare 0), .receive, .note, .client "a" .write])).log
      = [Entry.prepared "a" .subscribed, .answered "a" .subscribed,
          .told "a" 0 (.recordingStarted .epoch), .prepared "a" (.status .initial), .noted 0]
        ++ [Entry.answered "a" (.status .initial)] := by
    cbv
  obtain ⟨later, e, -, -, -, hnone⟩ :=
    h 1 _ _ _ "a" .initial 0 (.recordingStarted .epoch) hlog (by simp)
  cases hnone

end Desk

end HoldToRecord
