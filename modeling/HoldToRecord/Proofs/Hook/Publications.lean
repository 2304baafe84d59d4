import Mathlib.Tactic
import HoldToRecord.Hook.Publisher

/-!
# What becomes of published signals

The account of a publisher over any actions. A call is an action that sends and does not have to
wait; the clock is read once for each call, so the `k`-th call has the `k`-th reading, whatever
becomes of it. While there is a receiver, what it has got and what still waits for it are the signals
of the calls that went well, in the order of the calls (`accepted_run`). The invariant is `Delivers`,
and one lemma for each kind of action keeps it.
-/

namespace HoldToRecord

open HoldToRecord.Time HoldToRecord.Channel HoldToRecord.Hotkey

namespace Publisher

/-! ## Calls -/

/-- The kind of signal that an action sends; none if it sends nothing. -/
def Action.kind? : Action → Option SignalKind
  | .publish kind => some kind
  | .edge e => some (kindOf e)
  | .tryPermissionDenied => some .permissionDenied
  | .receive => none
  | .close => none

/-- Whether an action would rather wait than fail while there is no room. -/
def Action.isBlocking : Action → Bool
  | .publish _ => true
  | .edge _ => true
  | _ => false

/-- The kind of signal and the outcome, if an action was a call: a send that has to wait has not been
made. -/
def call? : Action × Shown → Option (SignalKind × Outcome)
  | (_, .outcome .wouldBlock) => none
  | (a, .outcome outcome) => a.kind?.map (·, outcome)
  | _ => none

/-- The signal that an action has received. -/
def receipt? : Action × Shown → Option Signal
  | (_, .received signal) => signal
  | _ => none

/-- Actions, each with what it has shown. -/
def log (p : Publisher) (actions : List Action) : List (Action × Shown) :=
  actions.zip (p.run actions).1

/-- The calls among some actions. -/
def calls (log : List (Action × Shown)) : List (SignalKind × Outcome) := log.filterMap call?

/-- The signals that were received. -/
def receipts (log : List (Action × Shown)) : List Signal := log.filterMap receipt?

/-- The signals of the calls that went well; the `k`-th call has the clock's `k`-th reading. -/
def accepted (clock : Nat → Instant) (calls : List (SignalKind × Outcome)) : List Signal :=
  calls.zipIdx.filterMap fun ((kind, outcome), k) =>
    if outcome = .sent then some ⟨kind, clock k⟩ else none

/-- One call more. -/
theorem accepted_concat (clock : Nat → Instant) (calls : List (SignalKind × Outcome))
    (kind : SignalKind) (outcome : Outcome) :
    accepted clock (calls ++ [(kind, outcome)])
      = accepted clock calls
        ++ if outcome = .sent then [⟨kind, clock calls.length⟩] else [] := by
  unfold accepted
  rw [List.zipIdx_append, List.filterMap_append]
  congr 1
  by_cases hsent : outcome = .sent <;> simp [hsent]

/-! ## Runs -/

/-- Every action shows something. -/
theorem length_run (p : Publisher) (actions : List Action) :
    (p.run actions).1.length = actions.length := by
  induction actions generalizing p with
  | nil => rfl
  | cons a actions ih => exact congrArg (· + 1) (ih (p.act a).2)

/-- One action more is done after the others. -/
theorem run_concat (p : Publisher) (actions : List Action) (a : Action) :
    p.run (actions ++ [a])
      = ((p.run actions).1 ++ [((p.run actions).2.act a).1], ((p.run actions).2.act a).2) := by
  induction actions generalizing p with
  | nil => simp [run]
  | cons b actions ih => simp [run, ih]

/-- It comes last in the account. -/
theorem log_concat (p : Publisher) (actions : List Action) (a : Action) :
    p.log (actions ++ [a]) = p.log actions ++ [(a, ((p.run actions).2.act a).1)] := by
  unfold log
  rw [run_concat, List.zip_append (p.length_run actions).symm]
  rfl

/-! ## What an action does -/

variable {p : Publisher} {a : Action} {kind : SignalKind}

/-- Nobody receives: the call fails, and the clock was read. -/
theorem act_of_closed (hkind : a.kind? = some kind) (hclosed : p.channel.closed = true) :
    p.act a = (.outcome (.failed .channelSend), p.tick) := by
  have hput : ∀ signal, p.channel.put signal = .refused := by
    intro signal
    unfold Bounded.put
    rw [if_pos hclosed]
  cases a <;> simp [Action.kind?] at hkind <;> simp [act, publish, tryPublish, hput]

/-- There is room: the signal goes in behind the others. -/
theorem act_of_room (hkind : a.kind? = some kind) (hopened : p.channel.closed = false)
    (hroom : p.channel.isFull = false) :
    p.act a = (.outcome .sent, { p.tick with
      channel := { p.channel with queued := p.channel.queued ++ [p.stamp kind] } }) := by
  have hput := Bounded.put_of_room hopened hroom
  cases a <;> simp [Action.kind?] at hkind <;> subst hkind <;> simp [act, publish, tryPublish, hput]

/-- There is no room: a blocking send has to wait and is not made, and the other one fails. -/
theorem act_of_full (hkind : a.kind? = some kind) (hopened : p.channel.closed = false)
    (hfull : p.channel.isFull = true) :
    p.act a = if a.isBlocking then (.outcome .wouldBlock, p)
      else (.outcome (.failed .channelSend), p.tick) := by
  have hput := Bounded.put_of_full hopened hfull
  cases a <;> simp [Action.kind?] at hkind <;>
    simp [act, publish, tryPublish, hput, Action.isBlocking]

/-! ## What every action keeps -/

/-- A publisher is as its account says. -/
structure Delivers (n : Nat) (clock : Nat → Instant) (actions : List Action)
    (log : List (Action × Shown)) (p : Publisher) : Prop where
  ticks : p.clock = clock
  capacity : p.channel.capacity = n
  closed : p.channel.closed = true ↔ .close ∈ actions
  bounded : p.channel.queued.length ≤ n
  readings : p.readings = (calls log).length
  accounted : p.channel.closed = false →
    receipts log ++ p.channel.queued = accepted clock (calls log)

theorem delivers_create (n : Nat) (clock : Nat → Instant) :
    Delivers n clock [] [] (create n clock) where
  ticks := rfl
  capacity := rfl
  closed := by simp [create, Bounded.create]
  bounded := Nat.zero_le n
  readings := rfl
  accounted := fun _ => rfl

section Actions

variable {n : Nat} {clock : Nat → Instant} {actions : List Action} {log : List (Action × Shown)}

/-- Only dropping the receiver closes the channel. -/
theorem Delivers.closed_concat (h : Delivers n clock actions log p) (hne : a ≠ .close) :
    p.channel.closed = true ↔ .close ∈ actions ++ [a] := by
  rw [h.closed, List.mem_append, List.mem_singleton]
  simp [Ne.symm hne]

theorem ne_close_of_kind (hkind : a.kind? = some kind) : a ≠ .close := by
  rintro rfl
  cases hkind

/-- A call that fails leaves the channel as it was. -/
theorem Delivers.fail (h : Delivers n clock actions log p) (hkind : a.kind? = some kind) :
    Delivers n clock (actions ++ [a]) (log ++ [(a, .outcome (.failed .channelSend))]) p.tick := by
  have hcalls : calls (log ++ [(a, .outcome (.failed .channelSend))])
      = calls log ++ [(kind, .failed .channelSend)] := by
    simp [calls, call?, hkind]
  refine ⟨h.ticks, h.capacity, h.closed_concat (ne_close_of_kind hkind), h.bounded, ?_, ?_⟩
  · rw [hcalls, List.length_append, ← h.readings]
    rfl
  · intro hopened
    rw [hcalls, accepted_concat, if_neg (by simp), List.append_nil, ← h.accounted hopened]
    simp [receipts, receipt?, tick]

/-- A call that goes well adds its signal. -/
theorem Delivers.send (h : Delivers n clock actions log p) (hkind : a.kind? = some kind)
    (hopened : p.channel.closed = false) (hroom : p.channel.isFull = false) :
    Delivers n clock (actions ++ [a]) (log ++ [(a, .outcome .sent)]) { p.tick with
      channel := { p.channel with queued := p.channel.queued ++ [p.stamp kind] } } := by
  have hcalls : calls (log ++ [(a, .outcome .sent)]) = calls log ++ [(kind, .sent)] := by
    simp [calls, call?, hkind]
  have hstamp : p.stamp kind = ⟨kind, clock (calls log).length⟩ := by
    rw [stamp, h.ticks, h.readings]
  refine ⟨h.ticks, h.capacity, h.closed_concat (ne_close_of_kind hkind), ?_, ?_, ?_⟩
  · have hlt : p.channel.queued.length < p.channel.capacity := by
      simpa [Bounded.isFull] using hroom
    rw [List.length_append, List.length_singleton]
    have := h.capacity
    omega
  · rw [hcalls, List.length_append, ← h.readings]
    rfl
  · intro _
    rw [hcalls, accepted_concat, if_pos rfl, ← h.accounted hopened, hstamp]
    simp [receipts, receipt?]

/-- A send that has to wait changes nothing. -/
theorem Delivers.wait (h : Delivers n clock actions log p) (hkind : a.kind? = some kind) :
    Delivers n clock (actions ++ [a]) (log ++ [(a, .outcome .wouldBlock)]) p := by
  have hcalls : calls (log ++ [(a, .outcome .wouldBlock)]) = calls log := by
    simp [calls, call?]
  have hreceipts : receipts (log ++ [(a, .outcome .wouldBlock)]) = receipts log := by
    simp [receipts, receipt?]
  refine ⟨h.ticks, h.capacity, h.closed_concat (ne_close_of_kind hkind), h.bounded, ?_, ?_⟩
  · rw [hcalls]
    exact h.readings
  · rw [hcalls, hreceipts]
    exact h.accounted

/-- What is received has waited longest. -/
theorem Delivers.receive (h : Delivers n clock actions log p) :
    Delivers n clock (actions ++ [.receive]) (log ++ [(.receive, (p.act .receive).1)])
      (p.act .receive).2 := by
  have hcalls : calls (log ++ [(.receive, (p.act .receive).1)]) = calls log := by
    simp [calls, call?, act]
  have hreceipts : receipts (log ++ [(.receive, (p.act .receive).1)])
      = receipts log ++ p.channel.take.1.toList := by
    cases htake : p.channel.take.1 <;> simp [receipts, receipt?, act, htake]
  refine ⟨h.ticks, ?_, ?_, ?_, ?_, ?_⟩
  · show p.channel.take.2.capacity = n
    rw [Bounded.capacity_take]
    exact h.capacity
  · show p.channel.take.2.closed = true ↔ _
    rw [Bounded.closed_take]
    exact h.closed_concat (by simp)
  · exact le_trans (Bounded.length_take_le p.channel) h.bounded
  · rw [hcalls]
    exact h.readings
  · intro hopened
    have hopened : p.channel.closed = false := by
      rwa [← Bounded.closed_take]
    rw [hcalls, hreceipts, List.append_assoc, ← h.accounted hopened]
    exact congrArg _ (Bounded.queued_take p.channel hopened)

/-- Nothing waits when the receiver is gone. -/
theorem Delivers.close (h : Delivers n clock actions log p) :
    Delivers n clock (actions ++ [.close]) (log ++ [(.close, .closed)]) (p.act .close).2 := by
  have hcalls : calls (log ++ [(.close, .closed)]) = calls log := by
    simp [calls, call?]
  refine ⟨h.ticks, h.capacity, by simp [act, Bounded.close], Nat.zero_le n, ?_, ?_⟩
  · rw [hcalls]
    exact h.readings
  · intro hopened
    cases hopened

/-- **One action.** -/
theorem Delivers.act (h : Delivers n clock actions log p) (a : Action) :
    Delivers n clock (actions ++ [a]) (log ++ [(a, (p.act a).1)]) (p.act a).2 := by
  cases hkind : a.kind? with
  | none =>
    cases a with
    | receive => exact h.receive
    | close => exact h.close
    | publish kind => cases hkind
    | edge e => cases hkind
    | tryPermissionDenied => cases hkind
  | some kind =>
    cases hclosed : p.channel.closed with
    | true =>
      rw [act_of_closed hkind hclosed]
      exact h.fail hkind
    | false =>
      cases hfull : p.channel.isFull with
      | false =>
        rw [act_of_room hkind hclosed hfull]
        exact h.send hkind hclosed hfull
      | true =>
        rw [act_of_full hkind hclosed hfull]
        split
        · exact h.wait hkind
        · exact h.fail hkind

end Actions

/-- **Every run.** -/
theorem delivers_run (n : Nat) (clock : Nat → Instant) (actions : List Action) :
    Delivers n clock actions ((create n clock).log actions) ((create n clock).run actions).2 := by
  induction actions using List.reverseRecOn with
  | nil => exact delivers_create n clock
  | append_singleton actions a ih =>
    rw [log_concat, run_concat]
    exact ih.act a

/-! ## The account -/

/-- **What becomes of published signals.**  Take any actions on a fresh channel with room for `n`
signals. As long as the receiver is not dropped, what it has got and then what still waits are the
signals of the calls that went well, in the order of the calls, each of the kind that its action sends
and with the clock's reading of its own call. No more than `n` signals ever wait, and the clock was
read as often as there were calls. A further call fails if the receiver was dropped; otherwise it goes
well if fewer than `n` signals wait, and else a blocking send has to wait, and the other one fails.
Unless it goes well, the channel stays as it is. -/
theorem accepted_run (n : Nat) (clock : Nat → Instant) (actions : List Action) :
    let p := ((create n clock).run actions).2
    let log := (create n clock).log actions
    (.close ∉ actions → receipts log ++ p.channel.queued = accepted clock (calls log))
      ∧ p.channel.queued.length ≤ n
      ∧ p.readings = (calls log).length
      ∧ ∀ a kind, a.kind? = some kind →
          (p.act a).1 = .outcome
              (if .close ∈ actions then .failed .channelSend
                else if p.channel.queued.length < n then .sent
                else if a.isBlocking then .wouldBlock
                else .failed .channelSend)
            ∧ ((p.act a).1 ≠ .outcome .sent → (p.act a).2.channel = p.channel) := by
  intro p log
  have h : Delivers n clock actions log p := delivers_run n clock actions
  refine ⟨?_, h.bounded, h.readings, ?_⟩
  · intro hopened
    apply h.accounted
    rwa [← Bool.not_eq_true, h.closed]
  · intro a kind hkind
    have hfull : p.channel.isFull = decide (n ≤ p.channel.queued.length) := by
      rw [Bounded.isFull, h.capacity]
    by_cases hclosed : p.channel.closed = true
    · rw [act_of_closed hkind hclosed, if_pos (h.closed.mp hclosed)]
      exact ⟨rfl, fun _ => rfl⟩
    · rw [if_neg (h.closed.not.mp hclosed)]
      rw [Bool.not_eq_true] at hclosed
      by_cases hroom : p.channel.queued.length < n
      · rw [act_of_room hkind hclosed (by simpa [hfull] using hroom), if_pos hroom]
        exact ⟨rfl, fun hne => absurd rfl hne⟩
      · rw [act_of_full hkind hclosed (by simpa [hfull] using hroom), if_neg hroom]
        split
        · exact ⟨rfl, fun _ => rfl⟩
        · exact ⟨rfl, fun _ => rfl⟩

/-- A refusal that finds the channel full is lost with the reading that it has, and the next signal
has the reading after it. -/
theorem accepted_run_full :
    let late : Instant := ⟨0, 2, 500000000, by decide⟩
    let clock : Nat → Instant := fun k => if k = 0 then .epoch else late
    let actions := [.publish .pressed, .tryPermissionDenied, .receive, .edge .released]
    let p := ((create 1 clock).run actions).2
    receipts ((create 1 clock).log actions) ++ p.channel.queued
        = [⟨.pressed, .epoch⟩, ⟨.released, late⟩]
      ∧ p.readings = 3
      ∧ (p.act .tryPermissionDenied).1 = .outcome (.failed .channelSend)
      ∧ (p.act .tryPermissionDenied).2.channel = p.channel := by
  intro late clock actions p
  obtain ⟨haccount, -, hreadings, hcall⟩ := accepted_run 1 clock actions
  obtain ⟨hfails, hkept⟩ := hcall .tryPermissionDenied .permissionDenied rfl
  have hfails : (p.act .tryPermissionDenied).1 = .outcome (.failed .channelSend) := hfails
  refine ⟨haccount (by decide), hreadings, hfails, hkept ?_⟩
  show (p.act .tryPermissionDenied).1 ≠ .outcome .sent
  rw [hfails]
  intro hsent
  cases hsent

end Publisher

end HoldToRecord
