import Mathlib
import HoldToRecord.Proofs.Channel.Broadcast
import HoldToRecord.Proofs.Wire.Framing
import HoldToRecord.Wire.Connection

/-!
# Serving a client

One connection under every schedule. The client sends bytes and ends its side, session events are
broadcast, the status changes, and the server cuts frames, answers, notifies and closes, all in any
order: each is a `Move`. A `Serving` is the connection with a record of what has happened, and
`serving_run` says what the client has been sent after any moves: one answer for each frame, in
their order, until all are answered, and, once it has subscribed, the events that were broadcast
from then on.
-/

namespace HoldToRecord.Wire

open HoldToRecord.Channel HoldToRecord.Json

/-! ## Steps of a connection -/

namespace Connection

/-- Reading stops within the length or within the body of a frame that is not complete. -/
theorem read_of_incomplete {c : Connection} (hstart : ¬ StartsFrame c.arrived.flatten)
    (hover : ¬ Oversized c.arrived.flatten) :
    ∃ t, c.source.read = (.ended, t) ∨ c.source.read = (.failed .cutShort, t) := by
  refine ⟨c.source.read.2, ?_⟩
  rcases Source.read_of_not_startsFrame (s := c.source) hstart hover with hread | hread
  · exact Or.inl (Prod.ext hread rfl)
  · exact Or.inr (Prod.ext hread rfl)

/-- A frame is cut from what has arrived and waits behind the others; or no frame will be cut any
more, after a length beyond the limit or since the client has ended its side without another frame. -/
theorem cut_eq_some {c d : Connection} (h : c.cut = some d) :
    c.closed = false ∧ c.cutOff = false
      ∧ ((∃ body rest, body.length ≤ maxBody ∧ c.arrived.flatten = frame body ++ List.flatten rest
            ∧ d = { c with arrived := rest, waiting := c.waiting ++ [body] })
        ∨ (Oversized c.arrived.flatten ∨ c.ended = true ∧ ¬ StartsFrame c.arrived.flatten)
            ∧ d = { c with cutOff := true }) := by
  unfold cut at h
  by_cases hguard : (c.closed || c.cutOff || decide (queueLimit ≤ c.waiting.length)) = true
  · rw [if_pos hguard] at h
    simp at h
  rw [if_neg hguard] at h
  simp only [Bool.or_eq_true, decide_eq_true_eq, not_or, Bool.not_eq_true] at hguard
  refine ⟨hguard.1.1, hguard.1.2, ?_⟩
  by_cases hstart : StartsFrame c.arrived.flatten
  · obtain ⟨body, rest, hbody, heq⟩ := hstart
    obtain ⟨t, hread, ht, -⟩ := Source.read_of_frame (s := c.source) hbody heq
    rw [hread] at h
    exact Or.inl ⟨body, t.pieces, hbody, by rw [ht, heq], (Option.some.inj h).symm⟩
  right
  by_cases hover : Oversized c.arrived.flatten
  · obtain ⟨t, hread, -⟩ := Source.read_of_oversized (s := c.source) hover
    rw [hread] at h
    exact ⟨Or.inl hover, (Option.some.inj h).symm⟩
  · -- too few bytes for a frame: they are given up only at the end of the stream
    have hend : (if c.ended = true then some { c with cutOff := true } else none) = some d := by
      obtain ⟨t, hread | hread⟩ := read_of_incomplete hstart hover
      · rwa [hread] at h
      · rwa [hread] at h
    split_ifs at hend with he
    exact ⟨Or.inr ⟨he, hstart⟩, (Option.some.inj hend).symm⟩

/-- While frames can be cut and may wait, none is cut only for want of one: the client has not
ended its side, and what has arrived is no frame yet. -/
theorem not_startsFrame_of_cut {c : Connection} (h : c.cut = none) (hclosed : c.closed = false)
    (hoff : c.cutOff = false) (hwaiting : c.waiting = []) :
    ¬ StartsFrame c.arrived.flatten ∧ ¬ Oversized c.arrived.flatten ∧ c.ended = false := by
  unfold cut at h
  rw [if_neg (by simp [hclosed, hoff, hwaiting, queueLimit])] at h
  have hstart : ¬ StartsFrame c.arrived.flatten := by
    rintro ⟨body, rest, hbody, heq⟩
    obtain ⟨t, hread, -⟩ := Source.read_of_frame (s := c.source) hbody heq
    simp [hread] at h
  have hover : ¬ Oversized c.arrived.flatten := by
    intro hover
    obtain ⟨t, hread, -⟩ := Source.read_of_oversized (s := c.source) hover
    simp [hread] at h
  refine ⟨hstart, hover, ?_⟩
  obtain ⟨t, hread | hread⟩ := read_of_incomplete hstart hover
  · simpa [hread] using h
  · simpa [hread] using h

/-- The response `subscribed` goes to requests to subscribe. -/
theorem reply_eq_subscribed_iff {status : Status} {body : Bytes} :
    reply status body = .subscribed ↔ asksToSubscribe body = true := by
  rw [(reply_iff status body).2.2.1, asksToSubscribe]
  rcases Request.decode body with e | request
  · simp
  · cases request <;> simp

/-- The body that has waited longest is taken. -/
theorem take_eq_some {c d : Connection} {body : Bytes} (h : c.take = some (body, d)) :
    c.closed = false ∧ ∃ rest, c.waiting = body :: rest ∧ d = { c with waiting := rest } := by
  unfold take at h
  split at h
  · next first rest hclosed hwaiting =>
    obtain ⟨rfl, rfl⟩ := Prod.mk.inj (Option.some.inj h)
    exact ⟨hclosed, rest, hwaiting, rfl⟩
  · simp at h

/-- It is answered. -/
theorem answer_eq_some {c d : Connection} {status : Status} {events : Broadcast SessionEvent}
    (h : c.answer status events = some d) :
    c.closed = false ∧ ∃ body rest, c.waiting = body :: rest
      ∧ d = { c with
          waiting := rest
          subscription :=
            if asksToSubscribe body && c.subscription.isNone then some events.subscribe
            else c.subscription
          sent := c.sent ++ [(reply status body).toJson.toBytes] } := by
  obtain ⟨⟨body, taken⟩, htake, rfl⟩ := Option.map_eq_some_iff.mp h
  obtain ⟨hclosed, rest, hwaiting, rfl⟩ := take_eq_some htake
  exact ⟨hclosed, body, rest, hwaiting, rfl⟩

/-- A subscriber receives. -/
theorem hear_eq_some {c d : Connection} {events : Broadcast SessionEvent}
    {got : Received SessionEvent} (h : c.hear events = some (got, d)) :
    c.closed = false ∧ ∃ cursor next, c.subscription = some cursor
      ∧ events.receive cursor = some (got, next) ∧ d = { c with subscription := some next } := by
  unfold hear at h
  split at h
  · next cursor hclosed hsub =>
    obtain ⟨⟨got', next⟩, hreceive, heq⟩ := Option.map_eq_some_iff.mp h
    obtain ⟨rfl, rfl⟩ := Prod.mk.inj heq
    exact ⟨hclosed, cursor, next, hsub, hreceive, rfl⟩
  · simp at h

/-- It is sent the event that it received, if it is one. -/
theorem notify_eq_some {c d : Connection} {events : Broadcast SessionEvent}
    (h : c.notify events = some d) :
    c.closed = false ∧ ∃ cursor got next, c.subscription = some cursor
      ∧ events.receive cursor = some (got, next)
      ∧ d = { c with
          subscription := some next
          sent := c.sent
            ++ (Broadcast.values [got]).map fun e => (Notification.session e).toJson.toBytes } := by
  obtain ⟨⟨got, heard⟩, hhear, rfl⟩ := Option.map_eq_some_iff.mp h
  obtain ⟨hclosed, cursor, next, hsub, hreceive, rfl⟩ := hear_eq_some hhear
  refine ⟨hclosed, cursor, got, next, hsub, hreceive, ?_⟩
  cases got with
  | value event => rfl
  | lagged missed => simp [tell, Broadcast.values]

/-- The connection is closed when no frame will be cut and none waits. -/
theorem finish_eq_some {c d : Connection} (h : c.finish = some d) :
    c.closed = false ∧ c.cutOff = true ∧ c.waiting = []
      ∧ d = { c with closed := true, arrived := [], subscription := none } := by
  unfold finish at h
  split_ifs at h with hguard
  simp only [Bool.and_eq_true, Bool.not_eq_true', List.isEmpty_iff] at hguard
  exact ⟨hguard.1.1, hguard.1.2, hguard.2, (Option.some.inj h).symm⟩

/-- A connection has no step left exactly when none of the four is possible. -/
theorem step_eq_none_iff {c : Connection} {status : Status} {events : Broadcast SessionEvent} :
    c.step status events = none
      ↔ c.answer status events = none ∧ c.cut = none ∧ c.notify events = none
        ∧ c.finish = none := by
  simp [step]

end Connection

/-! ## What happens on a connection -/

/-- What happens on a connection, as far as its client can tell: bytes arrive, a body is answered in
some status, the subscriber receives, or an event is broadcast. -/
inductive Happening
  | arrived (piece : Bytes)
  | answered (status : Status) (body : Bytes)
  | received (got : Received SessionEvent)
  | broadcast (event : SessionEvent)
  deriving DecidableEq

namespace Happening

/-- Whether it is the answer `subscribed`. -/
def isSubscription : Happening → Bool
  | .answered status body => Connection.reply status body = .subscribed
  | _ => false

/-- The bodies that are sent to the client. -/
def sent : Happening → List Bytes
  | .answered status body => [(Connection.reply status body).toJson.toBytes]
  | .received got =>
    (Broadcast.values [got]).map fun event => (Notification.session event).toJson.toBytes
  | _ => []

/-- Everything that is sent to the client. -/
def written (log : List Happening) : List Bytes := log.flatMap sent

/-- The bytes that arrive, as one stream. -/
def stream (log : List Happening) : Bytes :=
  log.flatMap fun
    | .arrived piece => piece
    | _ => []

/-- The bodies that are answered. -/
def answers (log : List Happening) : List Bytes :=
  log.filterMap fun
    | .answered _ body => some body
    | _ => none

/-- What the subscriber receives. -/
def receipts (log : List Happening) : List (Received SessionEvent) :=
  log.filterMap fun
    | .received got => some got
    | _ => none

/-- The events that are broadcast. -/
def broadcasts (log : List Happening) : List SessionEvent :=
  log.filterMap fun
    | .broadcast event => some event
    | _ => none

/-- Whether the client was told that it has subscribed. -/
def subscribed (log : List Happening) : Bool := log.any isSubscription

/-- What happens before the first answer `subscribed`. -/
def earlier (log : List Happening) : List Happening := log.takeWhile (!·.isSubscription)

/-- What happens after the first answer `subscribed`. -/
def later (log : List Happening) : List Happening := (log.dropWhile (!·.isSubscription)).tail

/-- What is sent grows at its end, and so does every other view of a log. -/
theorem written_concat (log : List Happening) (x : Happening) :
    written (log ++ [x]) = written log ++ sent x := by
  rw [written, List.flatMap_append, List.flatMap_singleton, ← written]

theorem stream_concat (log : List Happening) (x : Happening) :
    stream (log ++ [x]) = stream log ++ stream [x] := List.flatMap_append

theorem answers_concat (log : List Happening) (x : Happening) :
    answers (log ++ [x]) = answers log ++ answers [x] := List.filterMap_append

theorem receipts_concat (log : List Happening) (x : Happening) :
    receipts (log ++ [x]) = receipts log ++ receipts [x] := List.filterMap_append

theorem broadcasts_concat (log : List Happening) (x : Happening) :
    broadcasts (log ++ [x]) = broadcasts log ++ broadcasts [x] := List.filterMap_append

variable {log : List Happening}

/-- The answer `subscribed` is the one to a request to subscribe. -/
theorem isSubscription_answered {status : Status} {body : Bytes} :
    isSubscription (.answered status body) = Connection.asksToSubscribe body := by
  rw [isSubscription, Bool.eq_iff_iff, decide_eq_true_iff]
  exact Connection.reply_eq_subscribed_iff

/-- Without a subscription everything happens before it. -/
theorem earlier_of_not_subscribed (h : subscribed log = false) : earlier log = log := by
  rw [subscribed, List.any_eq_false] at h
  rw [earlier, ← List.append_nil log, List.takeWhile_append_of_pos fun x hx => by
    simpa using h x hx, List.takeWhile_nil]

/-- Without a subscription nothing happens after it. -/
theorem later_of_not_subscribed (h : subscribed log = false) : later log = [] := by
  rw [subscribed, List.any_eq_false] at h
  rw [later, ← List.append_nil log, List.dropWhile_append_of_pos fun x hx => by
    simpa using h x hx, List.dropWhile_nil, List.tail_nil]

/-- After the subscription nothing more happens before it. -/
theorem earlier_concat (h : subscribed log = true) (x : Happening) :
    earlier (log ++ [x]) = earlier log := by
  induction log with
  | nil => simp [subscribed] at h
  | cons y log ih =>
    rw [List.cons_append, earlier, earlier, List.takeWhile_cons, List.takeWhile_cons]
    cases hy : y.isSubscription
    · have hlog : subscribed log = true := by simpa [subscribed, hy] using h
      rw [Bool.not_false, if_pos rfl, if_pos rfl]
      exact congrArg (y :: ·) (ih hlog)
    · rfl

/-- After the subscription everything happens later. -/
theorem later_concat (h : subscribed log = true) (x : Happening) :
    later (log ++ [x]) = later log ++ [x] := by
  induction log with
  | nil => simp [subscribed] at h
  | cons y log ih =>
    rw [List.cons_append, later, later, List.dropWhile_cons, List.dropWhile_cons]
    cases hy : y.isSubscription
    · have hlog : subscribed log = true := by simpa [subscribed, hy] using h
      rw [Bool.not_false, if_pos rfl, if_pos rfl]
      exact ih hlog
    · rfl

/-- The subscription itself is neither before nor after it. -/
theorem concat_of_not_subscribed (h : subscribed log = false) {x : Happening}
    (hx : x.isSubscription = true) : earlier (log ++ [x]) = log ∧ later (log ++ [x]) = [] := by
  rw [subscribed, List.any_eq_false] at h
  have hnot : ∀ y ∈ log, (!y.isSubscription) = true := fun y hy => by simpa using h y hy
  constructor
  · rw [earlier, List.takeWhile_append_of_pos hnot, List.takeWhile_cons, hx, Bool.not_true,
      if_neg (by simp), List.append_nil]
  · rw [later, List.dropWhile_append_of_pos hnot, List.dropWhile_cons, hx, Bool.not_true,
      if_neg (by simp), List.tail_cons]

/-- One more happening that is no subscription does not make one. -/
theorem subscribed_concat (log : List Happening) (x : Happening) :
    subscribed (log ++ [x]) = (subscribed log || x.isSubscription) := by
  simp [subscribed]

end Happening

/-! ## Moves -/

/-- One connection: its state, the channel of session events, the daemon's status, and what has
happened on it. -/
structure Serving where
  connection : Connection
  events : Broadcast SessionEvent
  status : Status
  log : List Happening
  deriving DecidableEq

/-- What can happen next: a piece of bytes arrives, the client ends its side, the server takes one
of its steps, an event is broadcast, or the status changes. -/
inductive Move
  | arrive (piece : Bytes)
  | hangUp
  | cut
  | answer
  | notify
  | finish
  | broadcast (event : SessionEvent)
  | update (status : Status)

namespace Serving

open Happening

/-- A connection that was just accepted, with a new channel of session events. -/
def start (capacity : Nat) : Serving := ⟨.fresh, .create capacity, .initial, []⟩

/-- A move, if it is possible: nothing arrives after the client has ended its side, and the server
takes only the steps that it has. -/
def step (s : Serving) : Move → Option Serving
  | .arrive piece =>
    if s.connection.ended then none
    else
      some { s with
        connection := s.connection.arrive [piece]
        log := s.log ++ [.arrived piece] }
  | .hangUp => some { s with connection := s.connection.hangUp }
  | .cut => s.connection.cut.map fun c => { s with connection := c }
  | .answer =>
    match s.connection.waiting, s.connection.answer s.status s.events with
    | body :: _, some c =>
      some { s with connection := c, log := s.log ++ [.answered s.status body] }
    | _, _ => none
  | .notify =>
    match s.connection.subscription.bind s.events.receive, s.connection.notify s.events with
    | some (got, _), some c => some { s with connection := c, log := s.log ++ [.received got] }
    | _, _ => none
  | .finish => s.connection.finish.map fun c => { s with connection := c }
  | .broadcast event =>
    some { s with events := s.events.publish event, log := s.log ++ [.broadcast event] }
  | .update status => some { s with status := status }

/-- The connection after some moves, if each of them was possible. -/
def run (s : Serving) (moves : List Move) : Option Serving := moves.foldlM step s

/-- More moves are made one by one. -/
theorem run_concat (s : Serving) (moves : List Move) (m : Move) :
    s.run (moves ++ [m]) = (s.run moves).bind (·.step m) := by
  simp [run, List.foldlM_append]

/-- Every step of the connection is a move. -/
theorem exists_move_of_step {s : Serving} {c : Connection}
    (h : s.connection.step s.status s.events = some c) :
    ∃ m t, s.step m = some t ∧ t.connection = c ∧ t.status = s.status ∧ t.events = s.events := by
  unfold Connection.step at h
  rcases hanswer : s.connection.answer s.status s.events with _ | d
  · rcases hcut : s.connection.cut with _ | d
    · rcases hnotify : s.connection.notify s.events with _ | d
      · rw [hanswer, hcut, hnotify] at h
        have hfinish : s.connection.finish = some c := h
        exact ⟨.finish, { s with connection := c }, by rw [step, hfinish]; rfl, rfl, rfl, rfl⟩
      · rw [hanswer, hcut, hnotify] at h
        obtain ⟨-, cursor, got, next, hsub, hreceive, -⟩ := Connection.notify_eq_some hnotify
        refine ⟨.notify, { s with connection := d, log := s.log ++ [.received got] }, ?_,
          Option.some.inj h, rfl, rfl⟩
        simp only [step, hsub, Option.bind_some, hreceive, hnotify]
    · rw [hanswer, hcut] at h
      exact ⟨.cut, { s with connection := d }, by rw [step, hcut]; rfl, Option.some.inj h, rfl,
        rfl⟩
  · rw [hanswer] at h
    obtain ⟨-, body, rest, hwaiting, -⟩ := Connection.answer_eq_some hanswer
    refine ⟨.answer, { s with connection := d, log := s.log ++ [.answered s.status body] }, ?_,
      Option.some.inj h, rfl, rfl⟩
    simp only [step, hwaiting, hanswer]

/-- All that the server does before it looks around again comes to some moves. -/
theorem exists_moves_settle (s : Serving) :
    ∃ moves t, s.run moves = some t
      ∧ t.connection = s.connection.settle s.status s.events := by
  suffices ∀ (steps : Nat) (s : Serving), ∃ moves t, s.run moves = some t
      ∧ t.connection = s.connection.stepWithin s.status s.events steps from this _ s
  intro steps
  induction steps with
  | zero => exact fun s => ⟨[], s, rfl, rfl⟩
  | succ steps ih =>
    intro s
    rw [Connection.stepWithin]
    rcases hstep : s.connection.step s.status s.events with _ | c
    · exact ⟨[], s, rfl, rfl⟩
    · obtain ⟨m, t, ht, rfl, hstatus, hevents⟩ := exists_move_of_step hstep
      obtain ⟨moves, u, hu, hconnection⟩ := ih t
      refine ⟨m :: moves, u, ?_, by rw [hconnection, hstatus, hevents]⟩
      rw [run, List.foldlM_cons, ht]
      exact hu

/-! ## What every move keeps -/

/-- What has arrived is the frames of the bodies that were answered and of those that wait, and a
tail that is not cut yet; it will never be cut when the end was noticed in it, and nothing waits
when the connection is closed. -/
structure Parsed (c : Connection) (log : List Happening) (tail : Bytes) : Prop where
  stream_eq : stream log = (answers log ++ c.waiting).flatMap frame ++ tail
  fits : ∀ body ∈ answers log ++ c.waiting, body.length ≤ maxBody
  arrived_eq : c.closed = false → c.arrived.flatten = tail
  off : c.cutOff = true → Oversized tail ∨ c.ended = true ∧ ¬ StartsFrame tail
  done : c.closed = true → c.cutOff = true ∧ c.waiting = []

section Parsed

variable {c d : Connection} {log : List Happening} {tail : Bytes}

/-- Nothing but bytes that arrive and answers matters. -/
theorem Parsed.concat (h : Parsed c log tail) {x : Happening} (hstream : stream [x] = [])
    (hanswers : answers [x] = []) : Parsed c (log ++ [x]) tail := by
  have hs : stream (log ++ [x]) = stream log := by
    rw [stream_concat, hstream, List.append_nil]
  have ha : answers (log ++ [x]) = answers log := by
    rw [answers_concat, hanswers, List.append_nil]
  exact ⟨by rw [hs, ha]; exact h.stream_eq, by rw [ha]; exact h.fits, h.arrived_eq, h.off, h.done⟩

/-- Bytes that arrive make the tail longer; a length beyond the limit stays what it is. -/
theorem Parsed.arrive (h : Parsed c log tail) (hended : c.ended = false) (piece : Bytes) :
    Parsed (c.arrive [piece]) (log ++ [.arrived piece]) (tail ++ piece) := by
  have hs : stream (log ++ [.arrived piece]) = stream log ++ piece := by
    rw [stream_concat]
    simp [stream]
  have ha : answers (log ++ [.arrived piece]) = answers log := by
    rw [answers_concat]
    exact List.append_nil _
  have hoff : c.cutOff = true → Oversized (tail ++ piece) := by
    intro hc
    rcases h.off hc with hover | ⟨htrue, -⟩
    · exact hover.append piece
    · simp [hended] at htrue
  rcases hclosed : c.closed with _ | _
  · have hc : c.arrive [piece] = { c with arrived := c.arrived ++ [piece] } := by
      rw [Connection.arrive, hclosed, if_neg (by simp)]
    rw [hc]
    exact
      { stream_eq := by rw [hs, ha, h.stream_eq, List.append_assoc]
        fits := by rw [ha]; exact h.fits
        arrived_eq := fun _ => by
          rw [List.flatten_append, h.arrived_eq hclosed, List.flatten_singleton]
        off := fun hc => Or.inl (hoff hc)
        done := fun hc => by simp [hclosed] at hc }
  · -- a closed connection drops what arrives, and it counts to the tail all the same
    have hc : c.arrive [piece] = c := by rw [Connection.arrive, hclosed, if_pos rfl]
    rw [hc]
    exact
      { stream_eq := by rw [hs, ha, h.stream_eq, List.append_assoc]
        fits := by rw [ha]; exact h.fits
        arrived_eq := fun hc => by simp [hclosed] at hc
        off := fun hc => Or.inl (hoff hc)
        done := h.done }

/-- The end of the client's side is not a part of the stream. -/
theorem Parsed.hangUp (h : Parsed c log tail) : Parsed c.hangUp log tail where
  stream_eq := h.stream_eq
  fits := h.fits
  arrived_eq := h.arrived_eq
  off := fun hc => (h.off hc).imp_right fun hend => ⟨rfl, hend.2⟩
  done := h.done

/-- A cut moves a frame from the tail to those that wait, or notices the end. -/
theorem Parsed.cut (h : Parsed c log tail) (hcut : c.cut = some d) : ∃ t, Parsed d log t := by
  obtain ⟨hclosed, hoff, hcase⟩ := Connection.cut_eq_some hcut
  have htail := h.arrived_eq hclosed
  rcases hcase with ⟨body, rest, hbody, heq, rfl⟩ | ⟨hend, rfl⟩
  · refine ⟨rest.flatten, ?_⟩
    rw [htail] at heq
    exact
      { stream_eq := by
          rw [h.stream_eq, heq]
          simp only [List.flatMap_append, List.flatMap_singleton, List.append_assoc]
        fits := by
          intro b hb
          rw [← List.append_assoc] at hb
          rcases List.mem_append.mp hb with hb | hb
          · exact h.fits b hb
          · rw [List.mem_singleton.mp hb]
            exact hbody
        arrived_eq := fun _ => rfl
        off := fun hc => by simp [hoff] at hc
        done := fun hc => by simp [hclosed] at hc }
  · -- the end is noticed: the stream stays as it is
    refine ⟨tail, ?_⟩
    rw [htail] at hend
    exact ⟨h.stream_eq, h.fits, h.arrived_eq, fun _ => hend, fun hc => ⟨rfl, (h.done hc).2⟩⟩

/-- An answer goes to the first body that waits. -/
theorem Parsed.answer (h : Parsed c log tail) {status : Status} {body : Bytes}
    {rest : List Bytes} (hwaiting : c.waiting = body :: rest) (hclosed : c.closed = false)
    {subscription : Option Cursor} {sent : List Bytes} :
    Parsed { c with waiting := rest, subscription := subscription, sent := sent }
      (log ++ [.answered status body]) tail := by
  have hs : stream (log ++ [.answered status body]) = stream log := by
    rw [stream_concat]
    exact List.append_nil _
  have ha : answers (log ++ [.answered status body]) ++ rest = answers log ++ c.waiting := by
    rw [answers_concat, hwaiting, List.append_assoc]
    rfl
  exact
    { stream_eq := by rw [hs, ha, h.stream_eq]
      fits := by rw [ha]; exact h.fits
      arrived_eq := h.arrived_eq
      off := h.off
      done := fun hc => by simp [hclosed] at hc }

/-- A connection is closed with nothing left to answer. -/
theorem Parsed.finish (h : Parsed c log tail) (hoff : c.cutOff = true) (hwaiting : c.waiting = []) :
    Parsed { c with closed := true, arrived := [], subscription := none } log tail where
  stream_eq := h.stream_eq
  fits := h.fits
  arrived_eq := fun hc => by simp at hc
  off := h.off
  done := fun _ => ⟨hoff, hwaiting⟩

end Parsed

/-- Where the subscriber stands: before the subscription nothing is received; after it, what was
received accounts for the first `n` events that were broadcast since, and none of them is missed as
long as the channel keeps them all. -/
structure Follows (c : Connection) (events : Broadcast SessionEvent) (log : List Happening)
    (n : Nat) : Prop where
  holds : events.Holds (broadcasts log)
  early : receipts (earlier log) = []
  none_of : subscribed log = false → c.subscription = none
  some_of : subscribed log = true → c.closed = false →
    ∃ front, broadcasts log = front ++ broadcasts (later log)
      ∧ c.subscription = some ⟨front.length + n⟩
  le_length : n ≤ (broadcasts (later log)).length
  accounts : Broadcast.Accounts (receipts log) ((broadcasts (later log)).take n)
  noLag : (broadcasts (later log)).length ≤ events.size → ∀ m, .lagged m ∉ receipts log

section Follows

variable {c d : Connection} {events : Broadcast SessionEvent} {log : List Happening} {n : Nat}

/-- Of a connection only the subscription matters, as long as it is open. -/
theorem Follows.transfer (h : Follows c events log n)
    (hnone : c.subscription = none → d.subscription = none)
    (hopen : d.closed = false → c.closed = false ∧ d.subscription = c.subscription) :
    Follows d events log n where
  holds := h.holds
  early := h.early
  none_of := fun hlog => hnone (h.none_of hlog)
  some_of := by
    intro hlog hd
    obtain ⟨hc, hsub⟩ := hopen hd
    rw [hsub]
    exact h.some_of hlog hc
  le_length := h.le_length
  accounts := h.accounts
  noLag := h.noLag

/-- What happens without an event matters only if it is the first subscription. -/
theorem Follows.concat (h : Follows c events log n) {x : Happening}
    (hbroadcasts : broadcasts [x] = []) (hreceipts : receipts [x] = [])
    (hx : subscribed log = true ∨ x.isSubscription = false) :
    Follows c events (log ++ [x]) n := by
  have hb : ∀ l, broadcasts (l ++ [x]) = broadcasts l := fun l => by
    rw [broadcasts_concat, hbroadcasts, List.append_nil]
  have hr : ∀ l, receipts (l ++ [x]) = receipts l := fun l => by
    rw [receipts_concat, hreceipts, List.append_nil]
  rcases hlog : subscribed log with _ | _
  · -- still without a subscription: nothing has been received, and nothing may be
    have hnot : subscribed (log ++ [x]) = false := by
      rw [subscribed_concat, hlog, hx.resolve_left (by simp [hlog]), Bool.or_self]
    have hlater : later (log ++ [x]) = later log := by
      rw [later_of_not_subscribed hnot, later_of_not_subscribed hlog]
    exact
      { holds := by rw [hb]; exact h.holds
        early := by
          rw [earlier_of_not_subscribed hnot, hr, ← earlier_of_not_subscribed hlog]
          exact h.early
        none_of := fun _ => h.none_of hlog
        some_of := fun hc => by simp [hnot] at hc
        le_length := by rw [hlater]; exact h.le_length
        accounts := by rw [hlater, hr]; exact h.accounts
        noLag := by rw [hlater, hr]; exact h.noLag }
  · have hlater : broadcasts (later (log ++ [x])) = broadcasts (later log) := by
      rw [later_concat hlog, hb]
    exact
      { holds := by rw [hb]; exact h.holds
        early := by rw [earlier_concat hlog]; exact h.early
        none_of := fun hc => by simp [subscribed_concat, hlog] at hc
        some_of := fun _ hc => by
          rw [hb, hlater]
          exact h.some_of hlog hc
        le_length := by rw [hlater]; exact h.le_length
        accounts := by rw [hlater, hr]; exact h.accounts
        noLag := by rw [hlater, hr]; exact h.noLag }

/-- The first subscription starts behind everything that was broadcast before it. -/
theorem Follows.subscribe (h : Follows c events log n) (hlog : subscribed log = false)
    {status : Status} {body : Bytes} (hbody : Connection.asksToSubscribe body = true)
    (hsub : d.subscription = some events.subscribe) :
    Follows d events (log ++ [.answered status body]) 0 := by
  have hr : receipts log = [] := by
    rw [← earlier_of_not_subscribed hlog]
    exact h.early
  have hr' : receipts (log ++ [.answered status body]) = [] := by
    rw [receipts_concat, hr]
    rfl
  have hb : broadcasts (log ++ [.answered status body]) = broadcasts log := by
    rw [broadcasts_concat]
    exact List.append_nil _
  have hx : isSubscription (.answered status body) = true := isSubscription_answered.trans hbody
  obtain ⟨hearlier, hlater⟩ := concat_of_not_subscribed hlog hx
  exact
    { holds := by rw [hb]; exact h.holds
      early := by rw [hearlier, hr]
      none_of := fun hc => by simp [subscribed_concat, hx] at hc
      some_of := fun _ _ => by
        refine ⟨broadcasts log, by rw [hb, hlater]; simp [broadcasts], ?_⟩
        rw [hsub, h.holds.subscribe_eq, Nat.add_zero]
      le_length := Nat.zero_le _
      accounts := by
        rw [hr', List.take_zero]
        exact .nil
      noLag := by simp [hr'] }

/-- An event that is broadcast is one more for the subscriber to receive. -/
theorem Follows.broadcast (h : Follows c events log n) (event : SessionEvent) :
    Follows c (events.publish event) (log ++ [.broadcast event]) n := by
  have hb : ∀ l, broadcasts (l ++ [.broadcast event]) = broadcasts l ++ [event] :=
    fun l => broadcasts_concat l (.broadcast event)
  have hr : ∀ l, receipts (l ++ [.broadcast event]) = receipts l := fun l => by
    rw [receipts_concat]
    exact List.append_nil _
  have hholds : (events.publish event).Holds (broadcasts (log ++ [.broadcast event])) := by
    rw [hb]
    exact h.holds.publish event
  rcases hlog : subscribed log with _ | _
  · have hnot : subscribed (log ++ [.broadcast event]) = false := by
      rw [subscribed_concat, hlog]
      rfl
    have hlater : later (log ++ [.broadcast event]) = later log := by
      rw [later_of_not_subscribed hnot, later_of_not_subscribed hlog]
    exact
      { holds := hholds
        early := by
          rw [earlier_of_not_subscribed hnot, hr, ← earlier_of_not_subscribed hlog]
          exact h.early
        none_of := fun _ => h.none_of hlog
        some_of := fun hc => by simp [hnot] at hc
        le_length := by rw [hlater]; exact h.le_length
        accounts := by rw [hlater, hr]; exact h.accounts
        noLag := by rw [hlater, hr]; exact h.noLag }
  · have hlater : broadcasts (later (log ++ [.broadcast event]))
        = broadcasts (later log) ++ [event] := by
      rw [later_concat hlog, hb]
    exact
      { holds := hholds
        early := by rw [earlier_concat hlog]; exact h.early
        none_of := fun hc => by simp [subscribed_concat, hlog] at hc
        some_of := fun _ hc => by
          obtain ⟨front, hfront, hsub⟩ := h.some_of hlog hc
          exact ⟨front, by rw [hb, hlater, hfront, List.append_assoc], hsub⟩
        le_length := by
          rw [hlater, List.length_append]
          exact Nat.le_add_right_of_le h.le_length
        accounts := by
          rw [hlater, hr, List.take_append_of_le_length h.le_length]
          exact h.accounts
        noLag := by
          rw [hlater, hr, List.length_append]
          exact fun hle => h.noLag (Nat.le_of_add_right_le hle) }

/-- A subscriber that receives accounts for more of what was broadcast since. -/
theorem Follows.receive (h : Follows c events log n) (hclosed : c.closed = false)
    {cursor next : Cursor} {got : Received SessionEvent} (hcursor : c.subscription = some cursor)
    (hreceive : events.receive cursor = some (got, next)) (hsub : d.subscription = some next) :
    ∃ m, Follows d events (log ++ [.received got]) m := by
  have hb : ∀ l, broadcasts (l ++ [.received got]) = broadcasts l := fun l => by
    rw [broadcasts_concat]
    exact List.append_nil _
  have hr : receipts (log ++ [.received got]) = receipts log ++ [got] :=
    receipts_concat log (.received got)
  have hlog : subscribed log = true := by
    by_contra hnot
    simp [h.none_of (Bool.not_eq_true _ ▸ hnot)] at hcursor
  have hlater : broadcasts (later (log ++ [.received got])) = broadcasts (later log) := by
    rw [later_concat hlog, hb]
  obtain ⟨front, hfront, hpos⟩ := h.some_of hlog hclosed
  obtain rfl := Option.some.inj (hcursor.symm.trans hpos)
  -- positions count everything that was broadcast, and `n` what was broadcast since
  have hsince : ∀ m, ((broadcasts log).take (front.length + m)).drop front.length
      = (broadcasts (later log)).take m := fun m => by
    rw [hfront, List.take_length_add_append, List.drop_left]
  obtain ⟨hlt, hle, haccounts, hlag⟩ := h.holds.accounts_receive (k := front.length)
    (Nat.le_add_right _ _) (by rw [hsince]; exact h.accounts) hreceive
  obtain ⟨m, hm⟩ : ∃ m, next.position = front.length + m :=
    ⟨next.position - front.length, by simp only at hlt; omega⟩
  have hlength : (broadcasts log).length = front.length + (broadcasts (later log)).length := by
    rw [hfront, List.length_append]
  refine ⟨m, ?_⟩
  exact
    { holds := by rw [hb]; exact h.holds
      early := by rw [earlier_concat hlog]; exact h.early
      none_of := fun hc => by simp [subscribed_concat, hlog] at hc
      some_of := fun _ _ => ⟨front, by rw [hb, hlater]; exact hfront, by rw [hsub, ← hm]⟩
      le_length := by
        rw [hlater]
        omega
      accounts := by
        rw [hlater, hr, ← hsince, ← hm]
        exact haccounts
      noLag := by
        rw [hlater, hr]
        intro hsize m hmem
        rcases List.mem_append.mp hmem with hmem | hmem
        · exact h.noLag hsize m hmem
        · have := hlag m (List.mem_singleton.mp hmem).symm
          omega }

end Follows

/-! ## Every run -/

/-- What a connection keeps through every move. -/
structure Kept (s : Serving) : Prop where
  parsed : ∃ tail, Parsed s.connection s.log tail
  follows : ∃ n, Follows s.connection s.events s.log n
  sent_eq : s.connection.sent = written s.log

/-- Nothing has happened on a new connection. -/
theorem kept_start (capacity : Nat) : Kept (start capacity) where
  parsed := ⟨[],
    { stream_eq := rfl
      fits := by simp [start, Connection.fresh, answers]
      arrived_eq := fun _ => rfl
      off := fun hc => by simp [start, Connection.fresh] at hc
      done := fun hc => by simp [start, Connection.fresh] at hc }⟩
  follows := ⟨0,
    { holds := Broadcast.holds_create capacity
      early := rfl
      none_of := fun _ => rfl
      some_of := fun hc => by simp [start, subscribed] at hc
      le_length := Nat.zero_le _
      accounts := .nil
      noLag := by simp [start, receipts] }⟩
  sent_eq := rfl

section Moves

variable {s t : Serving}

/-- The answer to the first body that waits. -/
theorem Kept.answer (h : Kept s) {body : Bytes} {rest : List Bytes} {c : Connection}
    (hwaiting : s.connection.waiting = body :: rest)
    (hanswer : s.connection.answer s.status s.events = some c) :
    Kept { s with connection := c, log := s.log ++ [.answered s.status body] } := by
  obtain ⟨hclosed, first, others, hfirst, rfl⟩ := Connection.answer_eq_some hanswer
  obtain ⟨rfl, rfl⟩ := List.cons.inj (hwaiting.symm.trans hfirst)
  obtain ⟨tail, hparsed⟩ := h.parsed
  obtain ⟨n, hfollows⟩ := h.follows
  refine ⟨⟨tail, hparsed.answer hwaiting hclosed⟩, ?_, ?_⟩
  · rcases hlog : subscribed s.log with _ | _
    · -- only a request to subscribe makes a difference, and it starts the subscriber's stretch
      have hnone := hfollows.none_of hlog
      rcases hbody : Connection.asksToSubscribe body with _ | _
      · exact ⟨n, (hfollows.concat rfl rfl (Or.inr (isSubscription_answered.trans hbody))).transfer
          (by simp) fun hd => ⟨hd, by simp⟩⟩
      · exact ⟨0, hfollows.subscribe hlog hbody (by simp [hnone])⟩
    · -- one subscription is enough: a request for another one is only answered
      obtain ⟨front, -, hsome⟩ := hfollows.some_of hlog hclosed
      exact ⟨n, (hfollows.concat rfl rfl (Or.inl hlog)).transfer (by simp [hsome])
        fun hd => ⟨hd, by simp [hsome]⟩⟩
  · rw [written_concat, ← h.sent_eq]
    rfl

/-- The next thing that the subscriber receives. -/
theorem Kept.notify (h : Kept s) {cursor next : Cursor} {got : Received SessionEvent}
    {c : Connection} (hcursor : s.connection.subscription = some cursor)
    (hreceive : s.events.receive cursor = some (got, next))
    (hnotify : s.connection.notify s.events = some c) :
    Kept { s with connection := c, log := s.log ++ [.received got] } := by
  obtain ⟨hclosed, cursor', got', next', hcursor', hreceive', rfl⟩ :=
    Connection.notify_eq_some hnotify
  obtain rfl := Option.some.inj (hcursor.symm.trans hcursor')
  obtain ⟨rfl, rfl⟩ := Prod.mk.inj (Option.some.inj (hreceive.symm.trans hreceive'))
  obtain ⟨tail, hparsed⟩ := h.parsed
  obtain ⟨n, hfollows⟩ := h.follows
  refine ⟨⟨tail, ?_⟩, hfollows.receive hclosed hcursor hreceive rfl, ?_⟩
  · have := hparsed.concat (x := .received got) rfl rfl
    exact ⟨this.stream_eq, this.fits, this.arrived_eq, this.off, this.done⟩
  · rw [written_concat, ← h.sent_eq]
    simp [sent]

/-- **One move.**  Whatever is kept, every move keeps. -/
theorem Kept.step (h : Kept s) {m : Move} (hstep : s.step m = some t) : Kept t := by
  obtain ⟨tail, hparsed⟩ := h.parsed
  obtain ⟨n, hfollows⟩ := h.follows
  cases m with
  | arrive piece =>
    simp only [Serving.step] at hstep
    split_ifs at hstep with hended
    obtain rfl := Option.some.inj hstep
    refine ⟨⟨tail ++ piece, hparsed.arrive (Bool.not_eq_true _ ▸ hended) piece⟩, ⟨n, ?_⟩, ?_⟩
    · refine (hfollows.concat rfl rfl (Or.inr rfl)).transfer ?_ ?_ <;>
        simp only [Connection.arrive] <;> split <;> exact fun hc => by simp_all
    · rw [written_concat, ← h.sent_eq]
      simp only [Connection.arrive]
      split <;> simp [sent]
  | hangUp =>
    obtain rfl := Option.some.inj hstep
    exact ⟨⟨tail, hparsed.hangUp⟩, ⟨n, hfollows.transfer id fun hd => ⟨hd, rfl⟩⟩, h.sent_eq⟩
  | cut =>
    obtain ⟨c, hcut, rfl⟩ := Option.map_eq_some_iff.mp hstep
    refine ⟨hparsed.cut hcut, ⟨n, ?_⟩, ?_⟩ <;>
      obtain ⟨-, -, ⟨body, rest, -, -, rfl⟩ | ⟨-, rfl⟩⟩ := Connection.cut_eq_some hcut
    · exact hfollows.transfer id fun hd => ⟨hd, rfl⟩
    · exact hfollows.transfer id fun hd => ⟨hd, rfl⟩
    · exact h.sent_eq
    · exact h.sent_eq
  | answer =>
    simp only [Serving.step] at hstep
    split at hstep
    · next body rest c hwaiting hanswer =>
      obtain rfl := Option.some.inj hstep
      exact h.answer hwaiting hanswer
    · simp at hstep
  | notify =>
    simp only [Serving.step] at hstep
    split at hstep
    · next got next c hgot hnotify =>
      obtain rfl := Option.some.inj hstep
      obtain ⟨cursor, hcursor, hreceive⟩ := Option.bind_eq_some_iff.mp hgot
      exact h.notify hcursor hreceive hnotify
    · simp at hstep
  | finish =>
    obtain ⟨c, hfinish, rfl⟩ := Option.map_eq_some_iff.mp hstep
    obtain ⟨-, hoff, hwaiting, rfl⟩ := Connection.finish_eq_some hfinish
    exact ⟨⟨tail, hparsed.finish hoff hwaiting⟩,
      ⟨n, hfollows.transfer (fun _ => rfl) fun hd => by simp at hd⟩, h.sent_eq⟩
  | broadcast event =>
    obtain rfl := Option.some.inj hstep
    refine ⟨⟨tail, hparsed.concat rfl rfl⟩, ⟨n, hfollows.broadcast event⟩, ?_⟩
    rw [written_concat, ← h.sent_eq]
    exact (List.append_nil _).symm
  | update status =>
    obtain rfl := Option.some.inj hstep
    exact ⟨⟨tail, hparsed⟩, ⟨n, hfollows⟩, h.sent_eq⟩

end Moves

/-- **Every run.**  Whatever moves were made, what is kept was kept. -/
theorem kept_run {capacity : Nat} {moves : List Move} {s : Serving}
    (hrun : (start capacity).run moves = some s) : Kept s := by
  induction moves using List.reverseRecOn generalizing s with
  | nil =>
    obtain rfl := Option.some.inj hrun
    exact kept_start capacity
  | append_singleton moves m ih =>
    rw [run_concat] at hrun
    obtain ⟨r, hr, hstep⟩ := Option.bind_eq_some_iff.mp hrun
    exact (ih hr).step hstep

/-- All frames of what has arrived: the answered ones, those that wait, and those of the tail. -/
theorem Parsed.exists_framed {c : Connection} {log : List Happening} {tail : Bytes}
    (h : Parsed c log tail) :
    ∃ bodies rest, Framed (stream log) (answers log ++ c.waiting ++ bodies) rest
      ∧ (¬ StartsFrame tail → bodies = [] ∧ rest = tail) := by
  by_cases hstart : StartsFrame tail
  · obtain ⟨bodies, rest, hframed⟩ := Wire.exists_framed tail
    refine ⟨bodies, rest, ?_, fun hnot => absurd hstart hnot⟩
    rw [h.stream_eq]
    exact hframed.append h.fits
  · refine ⟨[], tail, ?_, fun _ => ⟨rfl, rfl⟩⟩
    rw [h.stream_eq, List.append_nil]
    have := (framed_nil hstart).append h.fits
    rwa [List.append_nil] at this

/-- A connection that has no step left has nothing to answer; it is closed, or it goes on and no
frame has arrived, nor a reason to end, and its subscriber is up to date. -/
theorem Parsed.of_step_eq_none {c : Connection} {log : List Happening} {tail : Bytes}
    {status : Status} {events : Broadcast SessionEvent} (h : Parsed c log tail)
    (hnone : c.step status events = none) :
    c.waiting = [] ∧ (c.closed = false → ¬ StartsFrame tail ∧ ¬ Oversized tail
      ∧ c.ended = false ∧ c.notify events = none) := by
  obtain ⟨hanswer, hcut, hnotify, hfinish⟩ := Connection.step_eq_none_iff.mp hnone
  have hwaiting : c.waiting = [] := by
    rcases hclosed : c.closed with _ | _
    · rcases hwaiting : c.waiting with _ | ⟨body, rest⟩
      · rfl
      · simp [Connection.answer, Connection.take, hclosed, hwaiting] at hanswer
    · exact (h.done hclosed).2
  refine ⟨hwaiting, fun hclosed => ?_⟩
  have hoff : c.cutOff = false := by
    by_contra hoff
    simp [Connection.finish, hclosed, hoff, hwaiting] at hfinish
  obtain ⟨hstart, hover, hended⟩ := Connection.not_startsFrame_of_cut hcut hclosed hoff hwaiting
  rw [h.arrived_eq hclosed] at hstart hover
  exact ⟨hstart, hover, hended, hnotify⟩

/-- A subscriber that has nothing to receive has accounted for everything. -/
theorem Follows.of_notify_eq_none {c : Connection} {events : Broadcast SessionEvent}
    {log : List Happening} {n : Nat} (h : Follows c events log n) (hclosed : c.closed = false)
    (hnone : c.notify events = none) : n = (broadcasts (later log)).length := by
  have hle := h.le_length
  rcases hlog : subscribed log with _ | _
  · rw [later_of_not_subscribed hlog] at hle ⊢
    exact Nat.eq_zero_of_le_zero hle
  · obtain ⟨front, hfront, hsub⟩ := h.some_of hlog hclosed
    have hreceive : events.receive ⟨front.length + n⟩ = none := by
      simpa [Connection.notify, Connection.hear, hclosed, hsub] using hnone
    rw [h.holds.receive_eq_none_iff, hfront, List.length_append] at hreceive
    simp only at hreceive
    omega

/-- **What a client is sent.**  After any moves, the client was sent the answers to bodies and the
events received, as they happened; `Connection.reply_iff` says which body is answered by `pong`, by
the status, by `subscribed` or by `bad_request`. The answered bodies are those of the frames of the
stream, in their order and from the first one on; all of them are answered before the connection is
closed, which only happens when the stream has ended, by the client or with a length beyond the
limit; and when the server has no step left. Nothing is received before the first answer
`subscribed`; from then on the client is sent events that were broadcast since, in their order and
each once; they are all that were broadcast up to some moment, except for those that a lag has
counted; there is no lag while the channel keeps all of them; and the moment is the present one when
the server has no step left. -/
theorem serving_run {capacity : Nat} {moves : List Move} {s : Serving}
    (hrun : (start capacity).run moves = some s) :
    s.connection.sent = written s.log
      ∧ (∃ bodies tail, Framed (stream s.log) bodies tail ∧ answers s.log <+: bodies
        ∧ (s.connection.closed = true →
          answers s.log = bodies ∧ (s.connection.ended = true ∨ Oversized tail))
        ∧ (s.connection.step s.status s.events = none →
          answers s.log = bodies
            ∧ (s.connection.ended = true ∨ Oversized tail → s.connection.closed = true)))
      ∧ receipts (earlier s.log) = []
      ∧ (Broadcast.values (receipts s.log)).Sublist (broadcasts (later s.log))
      ∧ ∃ n, Broadcast.Accounts (receipts s.log) ((broadcasts (later s.log)).take n)
        ∧ ((broadcasts (later s.log)).length ≤ s.events.size → ∀ m, .lagged m ∉ receipts s.log)
        ∧ (s.connection.step s.status s.events = none → s.connection.closed = false →
          n = (broadcasts (later s.log)).length) := by
  obtain ⟨⟨tail, hparsed⟩, ⟨n, hfollows⟩, hsent⟩ := kept_run hrun
  obtain ⟨bodies, rest, hframed, hlast⟩ := hparsed.exists_framed
  refine ⟨hsent, ⟨_, rest, hframed, ?_, ?_, ?_⟩, hfollows.early, ?_, n, hfollows.accounts,
    hfollows.noLag, ?_⟩
  · rw [List.append_assoc]
    exact List.prefix_append _ _
  · intro hclosed
    -- a closed connection has noticed the end, so the tail holds no frame, and nothing waits
    obtain ⟨hoff, hwaiting⟩ := hparsed.done hclosed
    have hend := hparsed.off hoff
    obtain ⟨rfl, rfl⟩ := hlast (hend.elim Oversized.not_startsFrame And.right)
    exact ⟨by rw [hwaiting, List.append_nil, List.append_nil], hend.symm.imp_left And.left⟩
  · intro hnone
    -- open and with no step left, the server only waits for more bytes
    obtain ⟨hwaiting, hopen⟩ := hparsed.of_step_eq_none hnone
    rcases hclosed : s.connection.closed with _ | _
    · obtain ⟨hstart, hover, hended, -⟩ := hopen hclosed
      obtain ⟨rfl, rfl⟩ := hlast hstart
      refine ⟨by rw [hwaiting, List.append_nil, List.append_nil], ?_⟩
      rintro (htrue | htrue)
      · simp [hended] at htrue
      · exact absurd htrue hover
    · have hend := hparsed.off (hparsed.done hclosed).1
      obtain ⟨rfl, rfl⟩ := hlast (hend.elim Oversized.not_startsFrame And.right)
      exact ⟨by rw [hwaiting, List.append_nil, List.append_nil], fun _ => rfl⟩
  · exact hfollows.accounts.sublist.trans (List.take_sublist _ _)
  · intro hnone hclosed
    exact hfollows.of_notify_eq_none hclosed ((hparsed.of_step_eq_none hnone).2 hclosed).2.2.2

/-- A client that sends a broken request, subscribes, misses one of two events, and leaves in the
middle of a frame. -/
theorem serving_run_lagged :
    let piece := frame [0x7b] ++ frame Request.subscribe.toJson.toBytes ++ [5, 0]
    let moves : List Move := [.arrive piece, .cut, .cut, .answer,
      .broadcast (.recordingStarted .epoch), .answer, .broadcast (.recordingStarted .epoch),
      .broadcast (.permissionRequired .epoch), .notify, .notify, .hangUp, .cut, .finish]
    ∃ s, (start 1).run moves = some s ∧ s.connection.closed = true
      ∧ receipts s.log = [.lagged 1, .value (.permissionRequired .epoch)]
      ∧ broadcasts (later s.log) = [.recordingStarted .epoch, .permissionRequired .epoch]
      ∧ receipts (earlier s.log) = []
      ∧ ∃ bodies tail, Framed (stream s.log) bodies tail ∧ answers s.log = bodies := by
  intro piece moves
  have hrun : ((start 1).run moves).map
      (fun s => (s.connection.closed, receipts s.log, broadcasts (later s.log)))
      = some (true, [.lagged 1, .value (.permissionRequired .epoch)],
          [.recordingStarted .epoch, .permissionRequired .epoch]) := by cbv
  obtain ⟨s, hs, hseen⟩ := Option.map_eq_some_iff.mp hrun
  simp only [Prod.mk.injEq] at hseen
  obtain ⟨hclosed, hreceipts, hbroadcasts⟩ := hseen
  obtain ⟨-, ⟨bodies, tail, hframed, -, hall, -⟩, hearly, -⟩ := serving_run hs
  exact ⟨s, hs, hclosed, hreceipts, hbroadcasts, hearly, bodies, tail, hframed, (hall hclosed).1⟩

end Serving

end HoldToRecord.Wire
