import Mathlib.Tactic
import HoldToRecord.Proofs.Wire.Serving
import HoldToRecord.Server
import HoldToRecord.Wire.Hub

/-!
# Clients do not disturb one another

Two runs of the hub, one of them without the steps of some clients. Whatever those clients sent or
did, and in whatever order, each of the others has the same connection in both runs and was sent the
same messages, only that a status may tell another uptime (`isolated_run`). The reason is that a
step reads the status and the channel and one connection, and of these a client's step changes the
uptime and its own connection only. The server that runs takes steps of the hub (`Shows`).
-/

namespace HoldToRecord

open HoldToRecord.Channel HoldToRecord.Wire

/-! ## Statuses apart from the uptime -/

namespace Status

/-- Two statuses that differ at most in the uptime. -/
def Alike (s t : Status) : Prop := { s with uptimeSecs := t.uptimeSecs } = t

variable {s t u : Status}

theorem Alike.refl (s : Status) : s.Alike s := rfl

/-- The uptime may be set at will. -/
theorem alike_uptime (s : Status) (secs : UInt64) : s.Alike { s with uptimeSecs := secs } := rfl

theorem Alike.symm (h : s.Alike t) : t.Alike s := by
  unfold Alike at h ⊢
  rw [← h]

theorem Alike.trans (h : s.Alike t) (h' : t.Alike u) : s.Alike u := by
  unfold Alike at h h' ⊢
  rw [← h', ← h]

/-- The hotkey is noted without regard to the uptime. -/
theorem Alike.setHotkey (h : s.Alike t) (hotkey : Hotkey) (registered : Bool) :
    (s.setHotkey hotkey registered).Alike (t.setHotkey hotkey registered) := by
  unfold Alike at h ⊢
  rw [← h]
  rfl

/-- So is a session event. -/
theorem Alike.apply (h : s.Alike t) (event : SessionEvent) :
    (s.apply event).Alike (t.apply event) := by
  unfold Alike at h ⊢
  rw [← h]
  rfl

end Status

namespace Wire

/-! ## One connection -/

namespace Connection

/-- Two messages to a client that are the same, or tell the status with different uptimes. -/
def AlikeMessage (a b : Bytes) : Prop :=
  a = b ∨ ∃ s t : Status, s.Alike t
    ∧ a = (Response.status s).toJson.toBytes ∧ b = (Response.status t).toJson.toBytes

/-- The connection with other messages in the place of those that were sent. -/
def withSent (c : Connection) (sent : List Bytes) : Connection := { c with sent := sent }

/-- Two connections of which only the messages differ, and these at most in uptimes. -/
structure Alike (c d : Connection) : Prop where
  same : c.withSent d.sent = d
  sent : List.Forall₂ AlikeMessage c.sent d.sent

theorem AlikeMessage.refl (a : Bytes) : AlikeMessage a a := Or.inl rfl

theorem Alike.refl (c : Connection) : c.Alike c :=
  ⟨rfl, List.forall₂_same.mpr fun a _ => .refl a⟩

/-- The answer to a body tells the status or does not depend on it. -/
theorem alikeMessage_reply {s t : Status} (h : s.Alike t) (body : Bytes) :
    AlikeMessage (reply s body).toJson.toBytes (reply t body).toJson.toBytes := by
  unfold reply
  cases Request.decode body with
  | error e => exact .refl _
  | ok request =>
    cases request with
    | getStatus => exact Or.inr ⟨s, t, h, rfl, rfl⟩
    | ping => exact .refl _
    | subscribe => exact .refl _

/-- An act leaves the status as it is, apart from the uptime. -/
theorem alike_noted (c : Connection) (status : Status) (act : Act) :
    status.Alike (c.noted status act) := by
  unfold noted
  split
  · split
    · obtain ⟨secs, heq⟩ := exists_statusFor status _ _
      rw [heq]
      exact Status.alike_uptime _ _
    · exact .refl _
  · exact .refl _

end Connection

/-- Two acts that are the same, apart from the moment of an answer. -/
inductive Act.Alike : Act → Act → Prop
  | refl (act : Act) : Alike act act
  | answer (uptime uptime' : UInt64) : Alike (.answer uptime) (.answer uptime')

namespace Connection

/-- Cutting a frame takes no notice of what was sent. -/
theorem cut_withSent (c : Connection) (sent : List Bytes) :
    (c.withSent sent).cut = c.cut.map (·.withSent sent) := by
  dsimp only [cut, withSent, source]
  split_ifs
  · rfl
  · split <;> rfl
  · split <;> rfl

/-- Nor does the end of the connection. -/
theorem finish_withSent (c : Connection) (sent : List Bytes) :
    (c.withSent sent).finish = c.finish.map (·.withSent sent) := by
  dsimp only [finish, withSent]
  split_ifs <;> rfl

/-- Nor do bytes that arrive. -/
theorem arrive_withSent (c : Connection) (sent pieces : List Bytes) :
    (c.withSent sent).arrive pieces = (c.arrive pieces).withSent sent := by
  dsimp only [arrive, withSent]
  split_ifs <;> rfl

/-- Two steps that lead from a connection to one and the same, apart from alike messages that they
add, whatever was sent before. -/
def Parallel (c : Connection) (f g : Connection → Connection) : Prop :=
  ∃ (d : Connection) (as bs : List Bytes), List.Forall₂ AlikeMessage as bs
    ∧ (∀ sent, f (c.withSent sent) = d.withSent (sent ++ as))
    ∧ ∀ sent, g (c.withSent sent) = d.withSent (sent ++ bs)

/-- A step that adds the same whatever was sent before. -/
theorem Parallel.of_adds {c d : Connection} {f : Connection → Connection} {added : List Bytes}
    (h : ∀ sent, f (c.withSent sent) = d.withSent (sent ++ added)) : c.Parallel f f :=
  ⟨d, added, added, List.forall₂_same.mpr fun a _ => .refl a, h, h⟩

/-- A step that says nothing. -/
theorem Parallel.of_silent {c d : Connection} {f : Connection → Connection}
    (h : ∀ sent, f (c.withSent sent) = d.withSent sent) : c.Parallel f f := by
  apply Parallel.of_adds
  intro sent
  rw [h, List.append_nil]

/-- A notification adds what the subscription decides. -/
theorem parallel_notify (c : Connection) (events : Broadcast SessionEvent) :
    c.Parallel (fun c => (c.notify events).getD c) (fun c => (c.notify events).getD c) := by
  have hnext : ∃ (d : Connection) (added : List Bytes), ∀ sent,
      ((c.withSent sent).notify events).getD (c.withSent sent) = d.withSent (sent ++ added) := by
    dsimp only [notify, hear, withSent]
    split
    · next cursor hclosed hcursor =>
      rcases events.receive cursor with _ | ⟨event | missed, next⟩
      · exact ⟨c, [], fun sent => by rw [List.append_nil]; rfl⟩
      · exact ⟨{ c with subscription := some next }, [(Notification.session event).toJson.toBytes],
          fun sent => rfl⟩
      · exact ⟨{ c with subscription := some next }, [], fun sent => by rw [List.append_nil]; rfl⟩
    · exact ⟨c, [], fun sent => by rw [List.append_nil]; rfl⟩
  obtain ⟨d, added, hadded⟩ := hnext
  exact .of_adds hadded

/-- An answer adds one message, and this may differ in the uptime. -/
theorem parallel_answer (c : Connection) {s t : Status} (hst : s.Alike t)
    (events : Broadcast SessionEvent) :
    c.Parallel (fun c => (c.answer s events).getD c) (fun c => (c.answer t events).getD c) := by
  unfold Parallel
  dsimp only [answer, take, withSent]
  split
  · next body rest hclosed hwaiting =>
    exact ⟨{ c with waiting := rest }.heed events body, _, _,
      .cons (alikeMessage_reply hst body) .nil, fun sent => rfl, fun sent => rfl⟩
  · refine ⟨c, [], [], .nil, ?_, ?_⟩ <;> intro sent <;> rw [List.append_nil] <;> rfl

/-- **What a client's step adds.**  Alike acts in alike statuses lead to one and the same connection,
apart from alike messages. -/
theorem parallel_after (c : Connection) {s t : Status} (hst : s.Alike t)
    (events : Broadcast SessionEvent) {a b : Act} (hab : a.Alike b) :
    c.Parallel (·.after s events a) (·.after t events b) := by
  have hanswer : ∀ uptime uptime',
      c.Parallel (·.after s events (.answer uptime)) (·.after t events (.answer uptime')) := by
    intro uptime uptime'
    have hs := (c.alike_noted s (.answer uptime)).symm
    have ht := c.alike_noted t (.answer uptime')
    exact c.parallel_answer ((hs.trans hst).trans ht) events
  cases hab with
  | answer uptime uptime' => exact hanswer uptime uptime'
  | refl =>
    cases a with
    | arrive piece => exact .of_silent fun sent => c.arrive_withSent sent [piece]
    | hangUp => exact .of_silent (d := c.hangUp) fun sent => rfl
    | lose => exact .of_silent (d := c.shut) fun sent => rfl
    | cut =>
      apply Parallel.of_silent (d := c.cut.getD c)
      intro sent
      rw [after, cut_withSent]
      exact Option.getD_map ..
    | answer uptime => exact hanswer uptime uptime
    | notify => exact c.parallel_notify events
    | finish =>
      apply Parallel.of_silent (d := c.finish.getD c)
      intro sent
      rw [after, finish_withSent]
      exact Option.getD_map ..

/-- Alike connections stay alike. -/
theorem Alike.after {c d : Connection} (h : c.Alike d) {s t : Status} (hst : s.Alike t)
    (events : Broadcast SessionEvent) {a b : Act} (hab : a.Alike b) :
    (c.after s events a).Alike (d.after t events b) := by
  obtain ⟨e, as, bs, hadded, has, hbs⟩ := c.parallel_after hst events hab
  have hc : c.after s events a = e.withSent (c.sent ++ as) := has c.sent
  have hd : d.after t events b = e.withSent (d.sent ++ bs) := by
    rw [← hbs, h.same]
  rw [hc, hd]
  exact ⟨rfl, List.rel_append h.sent hadded⟩

end Connection

/-! ## All of them -/

namespace Hub

/-- Two steps that are the same, apart from the moment of an answer. -/
inductive Step.Alike : Step → Step → Prop
  | refl (step : Step) : Alike step step
  | client (name : String) {a b : Act} (h : a.Alike b) : Alike (.client name a) (.client name b)

/-- Whether a step remains when only some clients do. -/
def Step.remains (clients : String → Bool) : Step → Bool
  | .connect name => clients name
  | .client name _ => clients name
  | _ => true

/-- Two hubs that look the same to some clients. -/
structure Alike (clients : String → Bool) (h k : Hub) : Prop where
  status : h.status.Alike k.status
  events : h.events = k.events
  connection : ∀ name, clients name = true →
    Option.Rel Connection.Alike (h.connection name) (k.connection name)

section Steps

variable {clients : String → Bool} {h k : Hub}

theorem Alike.refl (clients : String → Bool) (h : Hub) : h.Alike clients h where
  status := .refl _
  events := rfl
  connection := by
    intro name _
    cases h.connection name with
    | none => exact .none
    | some c => exact .some (.refl c)

/-- What happens to a connection leaves the status as it is, apart from the uptime. -/
theorem alike_status_act (h : Hub) (name : String) (act : Act) :
    h.status.Alike (h.act name act).status := by
  unfold Hub.act
  split
  · exact .refl _
  · exact Connection.alike_noted _ _ _

/-- **The others.**  A step of a client that does not remain is not seen by those who do. -/
theorem Alike.step_of_not_remains (hk : h.Alike clients k) {step : Step}
    (hstep : step.remains clients = false) : (h.step step).Alike clients k := by
  have hne : ∀ {name other}, clients name = false → clients other = true → other ≠ name := by
    intro name other hname hother heq
    rw [heq, hname] at hother
    exact absurd hother (by decide)
  cases step with
  | connect name =>
    refine ⟨hk.status, hk.events, ?_⟩
    intro other hother
    have hsame : (h.step (.connect name)).connection other = h.connection other :=
      Function.update_of_ne (hne hstep hother) _ _
    rw [hsame]
    exact hk.connection other hother
  | client name act =>
    refine ⟨(h.alike_status_act name act).symm.trans hk.status, ?_, ?_⟩
    · rw [step, events_act]
      exact hk.events
    · intro other hother
      rw [step, connection_act_of_ne h (hne hstep hother)]
      exact hk.connection other hother
  | setHotkey hotkey registered => simp [Step.remains] at hstep
  | apply event => simp [Step.remains] at hstep
  | publish event => simp [Step.remains] at hstep

/-- **Those who remain.**  A step that remains looks the same in both hubs to each of them. -/
theorem Alike.step (hk : h.Alike clients k) {a b : Step} (hab : a.Alike b) :
    (h.step a).Alike clients (k.step b) := by
  have hclient : ∀ name {a b : Act}, a.Alike b →
      (h.step (.client name a)).Alike clients (k.step (.client name b)) := by
    intro name a b hab
    refine ⟨?_, ?_, ?_⟩
    · exact ((h.alike_status_act name a).symm.trans hk.status).trans (k.alike_status_act name b)
    · rw [Hub.step, Hub.step, events_act, events_act]
      exact hk.events
    · intro other hother
      rw [Hub.step, Hub.step]
      by_cases heq : other = name
      · rw [heq, connection_act, connection_act, hk.events]
        rw [heq] at hother
        have hrel := hk.connection name hother
        cases hh : h.connection name <;> cases hk' : k.connection name <;> rw [hh, hk'] at hrel
        · exact .none
        · cases hrel
        · cases hrel
        · cases hrel with
          | some halike => exact .some (halike.after hk.status k.events hab)
      · rw [connection_act_of_ne h heq, connection_act_of_ne k heq]
        exact hk.connection other hother
  cases hab with
  | client name hab => exact hclient name hab
  | refl =>
    cases a with
    | connect name =>
      refine ⟨hk.status, hk.events, ?_⟩
      intro other hother
      by_cases heq : other = name
      · have hfresh : ∀ g : Hub, (g.step (.connect name)).connection other = some .fresh := by
          intro g
          rw [heq]
          exact Function.update_self ..
        rw [hfresh, hfresh]
        exact .some (.refl _)
      · have hsame : ∀ g : Hub, (g.step (.connect name)).connection other = g.connection other :=
          fun g => Function.update_of_ne heq _ _
        rw [hsame, hsame]
        exact hk.connection other hother
    | client name act => exact hclient name (.refl act)
    | setHotkey hotkey registered =>
      exact ⟨hk.status.setHotkey hotkey registered, hk.events, hk.connection⟩
    | apply event => exact ⟨hk.status.apply event, hk.events, hk.connection⟩
    | publish event => exact ⟨hk.status, congrArg (·.publish event) hk.events, hk.connection⟩

/-- **Every schedule.**  A run looks to some clients like the run of the steps that remain when only
they do. -/
theorem Alike.run (hk : h.Alike clients k) {steps kept : List Step}
    (hkept : List.Forall₂ Step.Alike (steps.filter (·.remains clients)) kept) :
    (h.run steps).Alike clients (k.run kept) := by
  induction steps generalizing h k kept with
  | nil =>
    cases hkept
    exact hk
  | cons step steps ih =>
    cases hstep : step.remains clients with
    | false =>
      rw [List.filter_cons_of_neg (by simp [hstep])] at hkept
      exact ih (hk.step_of_not_remains hstep) hkept
    | true =>
      rw [List.filter_cons_of_pos hstep] at hkept
      cases hkept with
      | cons hab hkept => exact ih (hk.step hab) hkept

end Steps

/-- **No client disturbs another.**  Leave out of any schedule all steps of the other clients, and
let the answers be given at other moments: a client's connection comes to the same, closed or not,
and the client is sent the same messages in the same order, apart from the uptime in a status. All
clients together change nothing but the uptime of the status, and nothing of the channel. -/
theorem isolated_run (hub : Hub) (steps : List Step) :
    (∀ name kept, List.Forall₂ Step.Alike (steps.filter (·.remains (· == name))) kept →
      Option.Rel Connection.Alike ((hub.run steps).connection name)
        ((hub.run kept).connection name))
      ∧ (hub.run steps).status.Alike (hub.run (steps.filter (·.remains fun _ => false))).status
      ∧ (hub.run steps).events = (hub.run (steps.filter (·.remains fun _ => false))).events := by
  constructor
  · intro name kept hkept
    exact ((Alike.refl (· == name) hub).run hkept).connection name (beq_self_eq_true name)
  · have hnone : (hub.run steps).Alike (fun _ => false)
        (hub.run (steps.filter (·.remains fun _ => false))) :=
      (Alike.refl _ hub).run (List.forall₂_same.mpr fun step _ => .refl step)
    exact ⟨hnone.status, hnone.events⟩

set_option maxRecDepth 2000 in
/-- One client subscribes and asks for the status. Another one asks for the status before that,
sends a length beyond the limit, and is gone. -/
theorem isolated_run_oversized :
    let request := frame Request.getStatus.toJson.toBytes
    let steps : List Step := [.connect "a", .connect "b", .client "b" (.arrive request),
      .client "a" (.arrive (frame Request.subscribe.toJson.toBytes)), .client "b" .cut,
      .client "a" .cut, .client "b" (.answer 5), .client "a" (.answer 6),
      .publish (.recordingStarted .epoch), .client "b" (.arrive [255, 255, 255, 255]),
      .apply (.recordingStarted .epoch), .client "b" .cut, .client "a" .notify,
      .client "a" (.arrive request), .client "b" .finish, .client "b" .lose, .client "a" .cut,
      .client "a" (.answer 7)]
    let kept : List Step := [.connect "a",
      .client "a" (.arrive (frame Request.subscribe.toJson.toBytes)), .client "a" .cut,
      .client "a" (.answer 2), .publish (.recordingStarted .epoch),
      .apply (.recordingStarted .epoch), .client "a" .notify, .client "a" (.arrive request),
      .client "a" .cut, .client "a" (.answer 20)]
    ∃ c d, ((start 1).run steps).connection "a" = some c
      ∧ ((start 1).run kept).connection "a" = some d ∧ c.Alike d
      ∧ c.sent.length = 3
      ∧ (((start 1).run steps).connection "b").map (·.closed) = some true := by
  intro request steps kept
  have hkept : List.Forall₂ Step.Alike (steps.filter (·.remains (· == "a"))) kept :=
    .cons (.refl _) <| .cons (.refl _) <| .cons (.refl _) <| .cons (.client "a" (.answer 6 2)) <|
      .cons (.refl _) <| .cons (.refl _) <| .cons (.refl _) <| .cons (.refl _) <| .cons (.refl _) <|
      .cons (.client "a" (.answer 7 20)) .nil
  have hrel := (isolated_run (start 1) steps).1 "a" kept hkept
  have ha : (((start 1).run steps).connection "a").map (·.sent.length) = some 3 := by cbv
  have hb : (((start 1).run steps).connection "b").map (·.closed) = some true := by cbv
  obtain ⟨c, hc, hlength⟩ := Option.map_eq_some_iff.mp ha
  rw [hc] at hrel
  cases hd : ((start 1).run kept).connection "a" with
  | none =>
    rw [hd] at hrel
    cases hrel
  | some d =>
    rw [hd] at hrel
    cases hrel with
    | some halike => exact ⟨c, d, hc, rfl, halike, hlength, hb⟩

/-! ## The server that runs -/

/-- A client's acts touch its own connection only. -/
theorem connection_run_client (h : Hub) {name other : String} (hne : other ≠ name)
    (acts : List Act) :
    (h.run (acts.map (.client name))).connection other = h.connection other := by
  induction acts generalizing h with
  | nil => rfl
  | cons act acts ih => exact (ih (h.act name act)).trans (h.connection_act_of_ne hne act)

/-- They leave the status as it is, apart from the uptime. -/
theorem status_run_client (h : Hub) (name : String) (acts : List Act) :
    h.status.Alike (h.run (acts.map (.client name))).status := by
  induction acts generalizing h with
  | nil => exact .refl _
  | cons act acts ih => exact (h.alike_status_act name act).trans (ih (h.act name act))

/-- They do not touch the channel. -/
theorem events_run_client (h : Hub) (name : String) (acts : List Act) :
    (h.run (acts.map (.client name))).events = h.events := by
  induction acts generalizing h with
  | nil => rfl
  | cons act acts ih => exact (ih (h.act name act)).trans (h.events_act name act)

end Hub

namespace Connection

/-- The connection with messages put back that the client has taken. -/
def withTaken (c : Connection) (taken : List Bytes) : Connection := c.withSent (taken ++ c.sent)

/-- What the client has taken makes no difference to what happens next. -/
theorem after_withTaken (c : Connection) (taken : List Bytes) (status : Status)
    (events : Broadcast SessionEvent) (act : Act) :
    (c.withTaken taken).after status events act = (c.after status events act).withTaken taken := by
  obtain ⟨d, added, -, -, hadded, -⟩ := c.parallel_after (.refl status) events (.refl act)
  have hc : c.after status events act = d.withSent (c.sent ++ added) := hadded c.sent
  have htaken : (c.withTaken taken).after status events act
      = d.withSent (taken ++ c.sent ++ added) := hadded (taken ++ c.sent)
  rw [hc, htaken, List.append_assoc]
  rfl

/-- An answer that is given at the uptime of a status is the answer in that status. -/
theorem answer_noted (c : Connection) {s t : Status} (h : s.Alike t)
    (events : Broadcast SessionEvent) :
    c.answer (c.noted s (.answer t.uptimeSecs)) events = c.answer t events := by
  unfold answer noted
  cases hclosed : c.closed with
  | true => simp [take, hclosed]
  | false =>
    cases hwaiting : c.waiting with
    | nil => simp [take, hclosed, hwaiting]
    | cons body rest =>
      have htake : c.take = some (body, { c with waiting := rest }) := by
        rw [take, hclosed, hwaiting]
      have halike : { s with uptimeSecs := t.uptimeSecs } = t := h
      dsimp only
      rw [htake, Option.map_some, Option.map_some, reply_statusFor, halike]

/-- Every step of the connection is an act. -/
theorem exists_act_of_step {c d : Connection} {s t : Status} {events : Broadcast SessionEvent}
    (hst : s.Alike t) (h : c.step t events = some d) : ∃ act, c.after s events act = d := by
  unfold step at h
  rcases hanswer : c.answer t events with _ | e
  · rcases hcut : c.cut with _ | e
    · rcases hnotify : c.notify events with _ | e
      · rw [hanswer, hcut, hnotify] at h
        have hfinish : c.finish = some d := h
        exact ⟨.finish, by rw [after, hfinish, Option.getD_some]⟩
      · rw [hanswer, hcut, hnotify] at h
        exact ⟨.notify, by rw [after, hnotify]; exact Option.some.inj h⟩
    · rw [hanswer, hcut] at h
      exact ⟨.cut, by rw [after, hcut]; exact Option.some.inj h⟩
  · rw [hanswer] at h
    refine ⟨.answer t.uptimeSecs, ?_⟩
    rw [after, c.answer_noted hst, hanswer]
    exact Option.some.inj h

end Connection

namespace Hub

/-- A client's acts lead from one connection to another, in every hub with some status, apart from
the uptime, and some channel, whatever the client has taken. -/
def Leads (name : String) (status : Status) (events : Broadcast SessionEvent)
    (c d : Connection) : Prop :=
  ∀ (h : Hub) (taken : List Bytes), h.status.Alike status → h.events = events →
    h.connection name = some (c.withTaken taken) →
    ∃ acts : List Act,
      (h.run (acts.map (.client name))).connection name = some (d.withTaken taken)

section Leads

variable {name : String} {status : Status} {events : Broadcast SessionEvent} {c d e : Connection}

theorem Leads.refl (c : Connection) : Leads name status events c c :=
  fun _ _ _ _ hc => ⟨[], hc⟩

theorem Leads.trans (h₁ : Leads name status events c d) (h₂ : Leads name status events d e) :
    Leads name status events c e := by
  intro h taken hst hev hc
  obtain ⟨as, has⟩ := h₁ h taken hst hev hc
  obtain ⟨bs, hbs⟩ := h₂ (h.run (as.map (.client name))) taken
    ((h.status_run_client name as).symm.trans hst) ((h.events_run_client name as).trans hev) has
  refine ⟨as ++ bs, ?_⟩
  rw [List.map_append]
  unfold Hub.run at hbs ⊢
  rwa [List.foldl_append]

/-- One act. -/
theorem Leads.of_act (h : ∀ s : Status, s.Alike status → ∃ act, c.after s events act = d) :
    Leads name status events c d := by
  intro hub taken hst hev hc
  obtain ⟨act, hact⟩ := h hub.status hst
  refine ⟨[act], ?_⟩
  show (hub.act name act).connection name = _
  rw [connection_act, hc, Option.map_some, hev, Connection.after_withTaken, hact]

/-- All that the server does for a connection before something new happens. -/
theorem leads_settle (c : Connection) : Leads name status events c (c.settle status events) := by
  unfold Connection.settle
  generalize c.stepsFor events = steps
  induction steps generalizing c with
  | zero => exact .refl c
  | succ steps ih =>
    rw [Connection.stepWithin]
    cases hstep : c.step status events with
    | none => exact .refl c
    | some d =>
      have hact : Leads name status events c d :=
        .of_act fun s hst => Connection.exists_act_of_step hst hstep
      exact hact.trans (ih d)

/-- Pieces that arrive one after the other. -/
theorem leads_arrive (c : Connection) (pieces : List Bytes) :
    Leads name status events c (c.arrive pieces) := by
  induction pieces generalizing c with
  | nil =>
    have hnil : c.arrive [] = c := by
      unfold Connection.arrive
      split_ifs
      · rfl
      · rw [List.append_nil]
    rw [hnil]
    exact .refl c
  | cons piece pieces ih =>
    have hcons : c.arrive (piece :: pieces) = (c.arrive [piece]).arrive pieces := by
      unfold Connection.arrive
      cases hclosed : c.closed <;> simp [hclosed]
    rw [hcons]
    exact (Leads.of_act fun s _ => ⟨.arrive piece, rfl⟩).trans (ih _)

/-- The turn that the server takes for a client. -/
theorem leads_turn (client : Client) :
    Leads name status events client.connection (client.turn status events).connection := by
  have hlook : ∀ c : Client, c.look.connection = c.connection := by
    intro c
    unfold Client.look
    split_ifs <;> rfl
  rw [Client.turn, hlook, Client.serve]
  cases client.attention with
  | outside => exact .refl _
  | watched => exact leads_settle _
  | noticed =>
    have harrived : Leads name status events client.connection client.arrived := by
      unfold Client.arrived
      split_ifs
      · exact (leads_arrive _ _).trans (.of_act fun s _ => ⟨.hangUp, rfl⟩)
      · exact leads_arrive _ _
    exact harrived.trans (leads_settle _)
  | dismissed => exact .of_act fun s _ => ⟨.lose, rfl⟩

end Leads

/-- The hub shows what the server has: the same status, apart from the uptime, the same channel, and
the connection of each client with all that it was ever sent. -/
structure Shows (h : Hub) (s : Server) : Prop where
  status : h.status.Alike s.status
  events : h.events = s.events
  connection : ∀ name client, s.clients.lookup name = some client →
    ∃ taken, h.connection name = some (client.connection.withTaken taken)

/-- A new server has no client. -/
theorem shows_new (number : Nat) (path : Files.PathName) (capacity : Nat) :
    (start capacity).Shows ⟨number, path, .initial, .create capacity, []⟩ where
  status := .refl _
  events := rfl
  connection := by
    intro name client hclient
    simp at hclient

/-- Clients are changed under their names. -/
theorem lookup_map_snd {β γ : Type} (f : String → β → γ) (l : List (String × β)) (name : String) :
    (l.map fun (n, b) => (n, f n b)).lookup name = (l.lookup name).map (f name) := by
  induction l with
  | nil => rfl
  | cons x l ih =>
    obtain ⟨n, b⟩ := x
    rw [List.map_cons, List.lookup_cons, List.lookup_cons]
    cases hn : name == n with
    | true =>
      rw [eq_of_beq hn]
      rfl
    | false => exact ih

/-- A client that is left out is not found, and the others are. -/
theorem lookup_filter_ne {β : Type} (l : List (String × β)) (name other : String) :
    (l.filter (·.1 != name)).lookup other = if other = name then none else l.lookup other := by
  induction l with
  | nil => simp
  | cons x l ih =>
    obtain ⟨n, b⟩ := x
    by_cases hn : n = name
    · subst hn
      rw [List.filter_cons_of_neg (by simp), ih, List.lookup_cons]
      split_ifs with heq
      · rfl
      · rw [beq_false_of_ne heq]
    · rw [List.filter_cons_of_pos (by simpa using hn), List.lookup_cons, List.lookup_cons, ih]
      split_ifs with heq
      · subst heq
        rw [beq_false_of_ne (Ne.symm hn)]
      · rfl

/-- The server when some of its clients have taken their turns. -/
def turned (s : Server) (names : List String) : Server :=
  { s with
    clients := s.clients.map fun (n, c) =>
      (n, if n ∈ names then c.turn s.status s.events else c) }

theorem lookup_turned (s : Server) (names : List String) (name : String) :
    (turned s names).clients.lookup name
      = (s.clients.lookup name).map fun c =>
        if name ∈ names then c.turn s.status s.events else c :=
  lookup_map_snd (fun n (c : Client) => if n ∈ names then c.turn s.status s.events else c) _ _

/-- Another client takes its turn. -/
theorem Shows.exists_run_turned_cons {h : Hub} {s : Server} {names : List String}
    (hs : h.Shows (turned s names)) (name : String) :
    ∃ steps, (h.run steps).Shows (turned s (name :: names)) := by
  -- for all other clients nothing has changed
  have hother : ∀ other, other ≠ name ∨ name ∈ names ∨ s.clients.lookup name = none →
      (turned s (name :: names)).clients.lookup other
        = (turned s names).clients.lookup other := by
    intro other hcase
    rw [lookup_turned, lookup_turned]
    rcases hcase with hne | hmem | hnone
    · simp [hne]
    · by_cases heq : other = name
      · simp [heq, hmem]
      · simp [heq]
    · by_cases heq : other = name
      · rw [heq, hnone, Option.map_none, Option.map_none]
      · simp [heq]
  by_cases hdone : name ∈ names ∨ s.clients.lookup name = none
  · refine ⟨[], hs.status, hs.events, ?_⟩
    intro other client hclient
    rw [hother other (Or.inr hdone)] at hclient
    exact hs.connection other client hclient
  · rw [not_or] at hdone
    obtain ⟨client, hclient⟩ := Option.ne_none_iff_exists'.mp hdone.2
    have hbefore : (turned s names).clients.lookup name = some client := by
      rw [lookup_turned, hclient, Option.map_some, if_neg hdone.1]
    obtain ⟨taken, htaken⟩ := hs.connection name client hbefore
    obtain ⟨acts, hacts⟩ := leads_turn client h taken hs.status hs.events htaken
    refine ⟨acts.map (.client name), (status_run_client _ _ _).symm.trans hs.status,
      (events_run_client _ _ _).trans hs.events, ?_⟩
    intro other client' hclient'
    by_cases heq : other = name
    · rw [heq] at hclient' ⊢
      rw [lookup_turned, hclient, Option.map_some, if_pos List.mem_cons_self] at hclient'
      obtain rfl := Option.some.inj hclient'
      exact ⟨taken, hacts⟩
    · rw [hother other (Or.inl heq)] at hclient'
      rw [connection_run_client _ heq]
      exact hs.connection other client' hclient'

/-- **Every turn of the server is a run of the hub.**  The clients take their turns one after the
other. -/
theorem Shows.exists_run_turn {h : Hub} {s : Server} (hs : h.Shows s) :
    ∃ steps, (h.run steps).Shows s.turn := by
  have hturned : ∀ names, ∃ steps, (h.run steps).Shows (turned s names) := by
    intro names
    induction names with
    | nil =>
      refine ⟨[], hs.status, hs.events, ?_⟩
      intro name client hclient
      rw [lookup_turned] at hclient
      simp only [List.not_mem_nil, if_false, Option.map_id'] at hclient
      exact hs.connection name client hclient
    | cons name names ih =>
      obtain ⟨steps, hsteps⟩ := ih
      obtain ⟨more, hmore⟩ := hsteps.exists_run_turned_cons name
      refine ⟨steps ++ more, ?_⟩
      unfold Hub.run at hmore ⊢
      rwa [List.foldl_append]
  obtain ⟨steps, hsteps⟩ := hturned (s.clients.map (·.1))
  refine ⟨steps, hsteps.status, hsteps.events, ?_⟩
  intro name client hclient
  apply hsteps.connection name client
  have hturn : s.turn.clients.lookup name
      = (s.clients.lookup name).map (·.turn s.status s.events) :=
    lookup_map_snd (fun _ (c : Client) => c.turn s.status s.events) _ _
  rw [hturn] at hclient
  obtain ⟨before, hbefore, rfl⟩ := Option.map_eq_some_iff.mp hclient
  have hmem : name ∈ s.clients.map (·.1) := by
    obtain ⟨front, rest, hclients, -⟩ := List.lookup_eq_some_iff.mp hbefore
    rw [hclients]
    simp
  rw [lookup_turned, hbefore, Option.map_some, if_pos hmem]

/-- What is done to the clients is not seen as long as no connection changes, apart from what its
client takes. -/
theorem Shows.map {h : Hub} {s : Server} (hs : h.Shows s) {f : String → Client → Client}
    (hf : ∀ name c, s.clients.lookup name = some c → ∀ taken,
      ∃ more, c.connection.withTaken taken = (f name c).connection.withTaken more) :
    h.Shows { s with clients := s.clients.map fun (n, c) => (n, f n c) } := by
  refine ⟨hs.status, hs.events, ?_⟩
  intro name client hclient
  rw [lookup_map_snd] at hclient
  obtain ⟨before, hbefore, rfl⟩ := Option.map_eq_some_iff.mp hclient
  obtain ⟨taken, htaken⟩ := hs.connection name before hbefore
  obtain ⟨more, hmore⟩ := hf name before hbefore taken
  exact ⟨more, htaken.trans (congrArg some hmore)⟩

/-- The same for what is done to one client. -/
theorem Shows.update {h : Hub} {s : Server} (hs : h.Shows s) {name : String} {f : Client → Client}
    (hf : ∀ c, s.clients.lookup name = some c → ∀ taken,
      ∃ more, c.connection.withTaken taken = (f c).connection.withTaken more) :
    h.Shows (s.update name f) := by
  refine hs.map (f := fun n c => if n == name then f c else c) ?_
  intro other c hc taken
  by_cases heq : other = name
  · subst heq
    rw [if_pos (beq_self_eq_true other)]
    exact hf c hc taken
  · rw [if_neg (by simpa using heq)]
    exact ⟨taken, rfl⟩

/-- So is every action. -/
theorem Shows.exists_run_act {h : Hub} {s : Server} (hs : h.Shows s) (a : Server.Action) :
    ∃ steps, (h.run steps).Shows (s.act a) := by
  cases a with
  | connect name =>
    refine ⟨[.connect name], hs.status, hs.events, ?_⟩
    intro other client hclient
    have hlookup : (s.clients.filter (·.1 != name) ++ [(name, Client.fresh)]).lookup other
        = some client := hclient
    rw [List.lookup_append, lookup_filter_ne, List.lookup_cons, List.lookup_nil] at hlookup
    by_cases heq : other = name
    · subst heq
      rw [if_pos rfl, beq_self_eq_true, Option.none_or] at hlookup
      obtain rfl := Option.some.inj hlookup
      exact ⟨[], Function.update_self _ _ _⟩
    · rw [if_neg heq, beq_false_of_ne heq, Option.or_none] at hlookup
      obtain ⟨taken, htaken⟩ := hs.connection other client hlookup
      exact ⟨taken, (Function.update_of_ne heq _ _).trans htaken⟩
  | bytes name bytes =>
    refine ⟨[], hs.update (f := (·.send bytes)) fun c _ taken => ⟨taken, ?_⟩⟩
    unfold Client.send
    split_ifs <;> rfl
  | hangUp name => exact ⟨[], hs.update (f := (·.hangUp)) fun c _ taken => ⟨taken, rfl⟩⟩
  | leave name =>
    refine ⟨[], hs.status, hs.events, ?_⟩
    intro other client hclient
    have hlookup : (s.clients.filter (·.1 != name)).lookup other = some client := hclient
    rw [lookup_filter_ne] at hlookup
    split_ifs at hlookup
    exact hs.connection other client hlookup
  | setHotkey hotkey registered =>
    exact ⟨[.setHotkey hotkey registered], hs.status.setHotkey hotkey registered, hs.events,
      hs.connection⟩
  | apply event => exact ⟨[.apply event], hs.status.apply event, hs.events, hs.connection⟩
  | publish event =>
    exact ⟨[.publish event], hs.status, congrArg (·.publish event) hs.events, hs.connection⟩
  | uptime secs =>
    exact ⟨[], hs.status.trans (Status.alike_uptime _ secs), hs.events, hs.connection⟩
  | shutdown =>
    refine ⟨[], hs.map (f := fun _ c => c.dismiss) fun _ c _ taken => ⟨taken, ?_⟩⟩
    unfold Client.dismiss
    split_ifs <;> rfl

/-- A message that a client takes stays in the hub. -/
theorem Shows.take {h : Hub} {s : Server} (hs : h.Shows s) (name : String) :
    h.Shows (s.take name).2 := by
  unfold Server.take
  split
  · exact hs
  · next c hc =>
    split
    · next body k hk =>
      refine hs.update (f := fun c => { c with connection := k }) ?_
      intro c' hc' taken
      obtain rfl := Option.some.inj (hc.symm.trans hc')
      refine ⟨taken ++ [body], ?_⟩
      unfold Connection.receive at hk
      split at hk
      · cases hk
      · next first rest hsent =>
        obtain ⟨hbody, rfl⟩ := Prod.mk.inj hk
        obtain rfl := Option.some.inj hbody
        unfold Connection.withTaken
        rw [hsent, List.append_assoc]
        rfl
    · exact hs

/-- So does everything, when the client takes it. -/
theorem Shows.collect {h : Hub} {s : Server} (hs : h.Shows s) (name : String) :
    h.Shows (s.collect name).2 := by
  refine hs.update (f := fun c => { c with connection := { c.connection with sent := [] } }) ?_
  intro c _ taken
  refine ⟨taken ++ c.connection.sent, ?_⟩
  unfold Connection.withTaken
  rw [List.append_nil]
  rfl

end Hub
end Wire
end HoldToRecord
