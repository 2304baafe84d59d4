import Mathlib.Data.List.ReduceOption
import Mathlib.Tactic
import HoldToRecord.Proofs.Hook.Calls

/-!
# What the operations of a listener come to

A listener is started and stopped, and the receiver of its signals asks for them or is dropped, in
any order; each start and stop waits until the hook has ended or only waits for the flag. Between two
operations the listener runs exactly if a hook thread is there (`Threads.Shows.running_iff`), and what
an operation adds to the signals is decided by the state before it and by the platform
(`operations_run`): a start that passes the check adds the edges that a fresh watch sees, and a
refusal for want of permission is the only other thing that is ever added.

What an operation publishes is tracked by `Publishes`: which kinds of signals, at the clock's next
readings, or nothing if the receiver is gone.
-/

namespace HoldToRecord.Hook

open HoldToRecord.Channel HoldToRecord.Hotkey HoldToRecord.Time

namespace Listener

/-! ## Operations -/

/-- What is done with a listener and the receiver of its signals. -/
inductive Operation
  | call (c : Call)
  /-- The receiver is dropped. -/
  | close
  /-- The receiver is asked for what it has received. -/
  | collect

/-- The call that an operation is, if it is one. -/
def Operation.call? : Operation → Option Call
  | .call c => some c
  | _ => none

/-- A listener after an operation. -/
def operate (l : Listener) : Operation → Listener
  | .call c => l.call c
  | .close => l.close
  | .collect => l.collect.2

/-- The signals that were published and not asked for yet: those that were received, and those that
wait. -/
def signals (l : Listener) : List Signal := l.inbox ++ l.publisher.channel.queued

/-- Signals of some kinds, at the next readings of a publisher's clock. -/
def stamped (p : Publisher) (kinds : List SignalKind) : List Signal :=
  kinds.mapIdx fun i kind => ⟨kind, p.clock (p.readings + i)⟩

/-- What there is to receive when signals of some kinds are published: nothing without a receiver. -/
def heard (l : Listener) (kinds : List SignalKind) : List Signal :=
  if l.publisher.channel.closed then [] else stamped l.publisher kinds

/-- The signals of the edges that a watch sees. -/
def edgeKinds (w : Watch) (snapshots : List Modifiers) : List SignalKind :=
  (w.seeAll snapshots).1.reduceOption.map Publisher.kindOf

/-- What is published when a hook ends: one refusal if it lacked permission. -/
def refusal (ending : Ending) : List SignalKind :=
  if ending.lacksPermission then [.permissionDenied] else []

/-- How the hook of a start ends by itself, if it does: with a fault when it cannot send the first
edge, and otherwise as the platform says, unless it waits for the flag. -/
def returned (l : Listener) (plan : Plan) : Option Ending :=
  if l.publisher.channel.closed = true ∧ edgeKinds (.start l.hotkey) plan.snapshots ≠ [] then
    some (.error .channelSend)
  else if plan.waits then none
  else some plan.ending

/-! ## Publishing -/

/-- Two listeners have the same hotkey, clock and room for signals, and both a receiver or none. -/
structure Keeps (l m : Listener) : Prop where
  hotkey : m.hotkey = l.hotkey
  clock : m.publisher.clock = l.publisher.clock
  capacity : m.publisher.channel.capacity = l.publisher.channel.capacity
  closed : m.publisher.channel.closed = l.publisher.channel.closed

/-- One listener is what becomes of another when signals of some kinds are published: they come behind
the others, unless nobody receives. -/
structure Publishes (l : Listener) (kinds : List SignalKind) (m : Listener) : Prop
    extends l.Keeps m where
  running : m.running = l.running
  waiting : m.waiting = l.waiting
  readings : l.publisher.channel.closed = false →
    m.publisher.readings = l.publisher.readings + kinds.length
  signals : m.signals = l.signals ++ l.heard kinds

variable {l m : Listener} {kinds : List SignalKind}

theorem Keeps.refl (l : Listener) : l.Keeps l := ⟨rfl, rfl, rfl, rfl⟩

theorem Keeps.trans {n : Listener} (h : l.Keeps m) (h' : m.Keeps n) : l.Keeps n where
  hotkey := h'.hotkey.trans h.hotkey
  clock := h'.clock.trans h.clock
  capacity := h'.capacity.trans h.capacity
  closed := h'.closed.trans h.closed

@[simp] theorem heard_nil (l : Listener) : l.heard [] = [] := by
  unfold heard stamped
  simp

theorem Publishes.refl (l : Listener) : l.Publishes [] l where
  toKeeps := .refl l
  running := rfl
  waiting := rfl
  readings := fun _ => rfl
  signals := by simp

/-- What is published later has later readings. -/
theorem Publishes.trans {n : Listener} {more : List SignalKind} (h : l.Publishes kinds m)
    (h' : m.Publishes more n) : l.Publishes (kinds ++ more) n where
  toKeeps := h.toKeeps.trans h'.toKeeps
  running := h'.running.trans h.running
  waiting := h'.waiting.trans h.waiting
  readings := by
    intro hopened
    rw [h'.readings (h.closed.trans hopened), h.readings hopened, List.length_append]
    omega
  signals := by
    rw [h'.signals, h.signals, List.append_assoc]
    congr 1
    unfold heard
    rw [h.closed]
    cases hclosed : l.publisher.channel.closed with
    | true => rfl
    | false =>
      simp only [Bool.false_eq_true, if_false, stamped, List.mapIdx_append, h.clock,
        h.readings hclosed]
      congr 1
      apply List.mapIdx_eq_mapIdx_iff.mpr
      intro i hi
      rw [Nat.add_assoc, Nat.add_comm i]

/-- If nobody receives, it does not matter what is published. -/
theorem Publishes.of_closed (h : l.Publishes kinds m) (hclosed : l.publisher.channel.closed = true)
    (more : List SignalKind) : l.Publishes more m := by
  refine { h with readings := ?_, signals := ?_ }
  · intro hopened
    rw [hclosed] at hopened
    cases hopened
  · rw [h.signals]
    simp [heard, hclosed]

/-- Without a receiver there is no room to be made. -/
theorem makeRoom_of_closed (hclosed : l.publisher.channel.closed = true) : l.makeRoom = l := by
  unfold makeRoom receiveAll
  rw [if_pos hclosed]
  split <;> rfl

/-- Making room publishes nothing, and there is room then. -/
theorem makeRoom_of_open (hopened : l.publisher.channel.closed = false)
    (hcapacity : 0 < l.publisher.channel.capacity) :
    l.Publishes [] l.makeRoom ∧ l.makeRoom.publisher.channel.isFull = false := by
  unfold makeRoom
  cases hfull : l.publisher.channel.isFull with
  | false => exact ⟨.refl l, hfull⟩
  | true =>
    unfold receiveAll
    rw [if_pos rfl, if_neg (by simp [hopened])]
    refine ⟨⟨⟨rfl, rfl, rfl, rfl⟩, rfl, rfl, fun _ => rfl, ?_⟩, ?_⟩
    · simp [signals]
    · simpa [Bounded.isFull, Nat.pos_iff_ne_zero] using hcapacity

/-- A hook sends a signal: it goes in if somebody receives, and is a fault otherwise. -/
theorem publish_publishes (hcapacity : 0 < l.publisher.channel.capacity) (kind : SignalKind) :
    ∃ m, l.publish kind
        = (if l.publisher.channel.closed then .error .channelSend else .ok (), m)
      ∧ l.Publishes [kind] m := by
  unfold publish
  cases hclosed : l.publisher.channel.closed with
  | true =>
    have hput : l.publisher.channel.put (l.publisher.stamp kind) = .refused := by
      unfold Bounded.put
      rw [if_pos hclosed]
    rw [makeRoom_of_closed hclosed]
    unfold Publisher.publish
    rw [hput]
    refine ⟨_, rfl, ⟨rfl, rfl, rfl, rfl⟩, rfl, rfl, ?_, ?_⟩
    · intro hopened
      rw [hclosed] at hopened
      cases hopened
    · simp [signals, heard, hclosed, Publisher.tick]
  | false =>
    obtain ⟨hroom, hfree⟩ := makeRoom_of_open hclosed hcapacity
    have hopened : l.makeRoom.publisher.channel.closed = false := hroom.closed.trans hclosed
    unfold Publisher.publish
    rw [Bounded.put_of_room hopened hfree]
    refine ⟨_, rfl, ?_⟩
    apply hroom.trans
    refine ⟨⟨rfl, rfl, rfl, rfl⟩, rfl, rfl, fun _ => rfl, ?_⟩
    simp [signals, heard, hopened, stamped, Publisher.stamp]

/-- A hook sends the edges that its watch sees, up to the first that it cannot send. -/
theorem deliver_publishes (hcapacity : 0 < l.publisher.channel.capacity) (w : Watch)
    (snapshots : List Modifiers) :
    ∃ m, l.deliver w snapshots
        = (if l.publisher.channel.closed = true ∧ edgeKinds w snapshots ≠ [] then
            .error .channelSend else .ok (), m)
      ∧ l.Publishes (edgeKinds w snapshots) m := by
  induction snapshots generalizing l w with
  | nil =>
    refine ⟨l, ?_, .refl l⟩
    rw [deliver, if_neg]
    rintro ⟨-, hne⟩
    exact hne rfl
  | cons snapshot rest ih =>
    rcases hsee : w.see snapshot with ⟨_ | edge, v⟩
    · have hkinds : edgeKinds w (snapshot :: rest) = edgeKinds v rest := by
        simp [edgeKinds, Watch.seeAll, hsee]
      rw [deliver, hsee, hkinds]
      exact ih hcapacity v
    · have hkinds : edgeKinds w (snapshot :: rest)
          = [Publisher.kindOf edge] ++ edgeKinds v rest := by
        simp [edgeKinds, Watch.seeAll, hsee]
      obtain ⟨m, hpublish, hm⟩ := publish_publishes hcapacity (Publisher.kindOf edge)
      rw [deliver, hsee, hkinds]
      dsimp only
      rw [hpublish]
      cases hclosed : l.publisher.channel.closed with
      | true =>
        -- the first edge is lost, and the hook goes no further
        exact ⟨m, by simp, hm.of_closed hclosed _⟩
      | false =>
        obtain ⟨n, hdeliver, hn⟩ := ih (by rw [hm.capacity]; exact hcapacity) v
        refine ⟨n, ?_, hm.trans hn⟩
        simp only [hm.closed, hclosed] at hdeliver
        simpa using hdeliver

/-- A hook ends: it publishes a refusal if it lacked permission. -/
theorem finish_publishes (hcapacity : 0 < l.publisher.channel.capacity) (ending : Ending) :
    ∃ m, l.finish ending = { m with running := false, waiting := none }
      ∧ l.Publishes (refusal ending) m := by
  rw [Recorder.finish_listener]
  unfold refusal
  cases ending.lacksPermission with
  | false => exact ⟨l, rfl, .refl l⟩
  | true =>
    obtain ⟨m, hpublish, hm⟩ := publish_publishes hcapacity .permissionDenied
    rw [hpublish]
    exact ⟨m, rfl, hm⟩

/-- A hook publishes the edges that a fresh watch sees, and a refusal if it lacked permission; it
waits for the flag unless it has returned. -/
theorem runHook_publishes (hcapacity : 0 < l.publisher.channel.capacity) (plan : Plan) :
    ∃ m, l.runHook plan
        = (if l.returned plan = none then { m with waiting := some plan.ending }
          else { m with running := false, waiting := none })
      ∧ l.Publishes (edgeKinds (.start l.hotkey) plan.snapshots
          ++ (l.returned plan).elim [] refusal) m := by
  obtain ⟨m, hdeliver, hm⟩ := deliver_publishes hcapacity (.start l.hotkey) plan.snapshots
  have hroom : 0 < m.publisher.channel.capacity := by
    rw [hm.capacity]
    exact hcapacity
  unfold runHook returned
  rw [hdeliver]
  by_cases hbroken : l.publisher.channel.closed = true
      ∧ edgeKinds (.start l.hotkey) plan.snapshots ≠ []
  · rw [if_pos hbroken, if_pos hbroken]
    obtain ⟨n, hfinish, hn⟩ := finish_publishes hroom (.error .channelSend)
    exact ⟨n, hfinish, hm.trans hn⟩
  · rw [if_neg hbroken, if_neg hbroken]
    dsimp only
    cases plan.waits with
    | true =>
      refine ⟨m, rfl, ?_⟩
      simpa using hm
    | false =>
      obtain ⟨n, hfinish, hn⟩ := finish_publishes hroom plan.ending
      exact ⟨n, hfinish, hm.trans hn⟩

/-! ## One operation -/

/-- A running listener is left alone. -/
theorem start_running (hrunning : l.running = true) (check : Ending) (plan : Plan) :
    l.start check plan = (.error .alreadyRunning, l) := by
  unfold start
  rw [if_pos hrunning]

/-- A start whose check fails leaves the listener as it was, but for a refusal for want of permission,
which is lost if there is no room for it. -/
theorem start_failed (hrunning : l.running = false) (fault : HookFault) (plan : Plan) :
    ∃ m, l.start (.error fault) plan = (.error fault, m)
      ∧ l.Keeps m ∧ m.running = l.running ∧ m.waiting = l.waiting
      ∧ m.signals = l.signals
        ++ if fault = .permissionDenied ∧ l.publisher.channel.isFull = false then
            l.heard [.permissionDenied]
          else [] := by
  unfold start
  rw [if_neg (by simp [hrunning])]
  dsimp only
  by_cases hdenied : fault = .permissionDenied
  · rw [if_pos hdenied]
    refine ⟨_, rfl, ?_⟩
    unfold Publisher.tryPublish heard
    cases hclosed : l.publisher.channel.closed with
    | true =>
      have hput : l.publisher.channel.put (l.publisher.stamp .permissionDenied) = .refused := by
        unfold Bounded.put
        rw [if_pos hclosed]
      rw [hput]
      exact ⟨⟨rfl, rfl, rfl, rfl⟩, rfl, rfl, by simp [signals, Publisher.tick]⟩
    | false =>
      cases hfull : l.publisher.channel.isFull with
      | true =>
        rw [Bounded.put_of_full hclosed hfull]
        exact ⟨⟨rfl, rfl, rfl, rfl⟩, rfl, rfl, by simp [signals, Publisher.tick]⟩
      | false =>
        rw [Bounded.put_of_room hclosed hfull]
        exact ⟨⟨rfl, rfl, rfl, rfl⟩, rfl, rfl, by
          simp [signals, hdenied, stamped, Publisher.stamp]⟩
  · rw [if_neg hdenied]
    exact ⟨l, rfl, .refl l, rfl, rfl, by simp [hdenied]⟩

/-- A start whose check goes well has a hook run. -/
theorem start_passed (hrunning : l.running = false)
    (hcapacity : 0 < l.publisher.channel.capacity) (plan : Plan) :
    ∃ m, l.start (.ok ()) plan = (.ok (), m)
      ∧ l.Keeps m
      ∧ m.running = (l.returned plan).isNone
      ∧ m.waiting = (if l.returned plan = none then some plan.ending else none)
      ∧ m.signals = l.signals
        ++ l.heard (edgeKinds (.start l.hotkey) plan.snapshots
          ++ (l.returned plan).elim [] refusal) := by
  obtain ⟨m, hrun, hm⟩ := runHook_publishes (l := { l with running := true }) hcapacity plan
  have hreturned : ({ l with running := true } : Listener).returned plan = l.returned plan := rfl
  have hsignals : m.signals = l.signals ++ l.heard (edgeKinds (.start l.hotkey) plan.snapshots
      ++ (l.returned plan).elim [] refusal) := hm.signals
  rw [hreturned] at hrun
  have hstart : l.start (.ok ()) plan = (.ok (), { l with running := true }.runHook plan) := by
    unfold start
    rw [if_neg (by simp [hrunning])]
  rw [hstart, hrun]
  refine ⟨_, rfl, ?_⟩
  cases hby : l.returned plan with
  | none =>
    rw [hby] at hsignals
    exact ⟨⟨hm.hotkey, hm.clock, hm.capacity, hm.closed⟩, hm.running, rfl, hsignals⟩
  | some ending =>
    rw [hby] at hsignals
    exact ⟨⟨hm.hotkey, hm.clock, hm.capacity, hm.closed⟩, rfl, rfl, hsignals⟩

/-- A stop ends the hook that waits, if there is one. -/
theorem stop_publishes (hcapacity : 0 < l.publisher.channel.capacity) :
    l.Keeps l.stop ∧ l.stop.running = false ∧ l.stop.waiting = none
      ∧ l.stop.signals = l.signals ++ l.heard (l.waiting.elim [] refusal) := by
  cases hwaiting : l.waiting with
  | none =>
    have hstop : l.stop = { l with running := false } := by
      unfold stop
      rw [hwaiting]
    rw [hstop]
    exact ⟨⟨rfl, rfl, rfl, rfl⟩, rfl, hwaiting, by simp [signals]⟩
  | some ending =>
    have hstop : l.stop = { l with running := false }.finish ending := by
      unfold stop
      rw [hwaiting]
    obtain ⟨m, hfinish, hm⟩ :=
      finish_publishes (l := { l with running := false }) hcapacity ending
    rw [hstop, hfinish]
    exact ⟨⟨hm.hotkey, hm.clock, hm.capacity, hm.closed⟩, rfl, rfl, hm.signals⟩

/-- The receiver is given everything that was published, and nothing is left. -/
theorem collect_eq (hempty : l.publisher.channel.closed = true → l.signals = []) :
    l.collect.1 = l.signals ∧ l.collect.2.signals = [] ∧ l.Keeps l.collect.2
      ∧ l.collect.2.running = l.running ∧ l.collect.2.waiting = l.waiting := by
  unfold collect receiveAll
  cases hclosed : l.publisher.channel.closed with
  | false =>
    rw [if_neg (by simp)]
    exact ⟨rfl, rfl, ⟨rfl, rfl, rfl, rfl⟩, rfl, rfl⟩
  | true =>
    obtain ⟨hinbox, hqueued⟩ := List.append_eq_nil_iff.mp (hempty hclosed)
    rw [if_pos rfl]
    refine ⟨?_, ?_, ⟨rfl, rfl, rfl, rfl⟩, rfl, rfl⟩
    · simp [signals, hinbox, hqueued]
    · simp [signals, hqueued]

/-- A call keeps what was set up, and adds nothing to the signals if nobody receives. -/
theorem call_keeps (hcapacity : 0 < l.publisher.channel.capacity) (c : Call) :
    l.Keeps (l.call c)
      ∧ (l.publisher.channel.closed = true → (l.call c).signals = l.signals) := by
  have hunheard : ∀ kinds, l.publisher.channel.closed = true → l.heard kinds = [] := by
    intro kinds hclosed
    exact if_pos hclosed
  cases c with
  | stop =>
    obtain ⟨hkeeps, -, -, hsignals⟩ := stop_publishes hcapacity
    refine ⟨hkeeps, fun hclosed => ?_⟩
    rw [hunheard _ hclosed, List.append_nil] at hsignals
    exact hsignals
  | start check plan =>
    show l.Keeps (l.start check plan).2 ∧ (_ → (l.start check plan).2.signals = l.signals)
    cases hrunning : l.running with
    | true =>
      rw [start_running hrunning]
      exact ⟨.refl l, fun _ => rfl⟩
    | false =>
      rcases check with fault | _
      · obtain ⟨m, hstart, hkeeps, -, -, hsignals⟩ := start_failed hrunning fault plan
        rw [hstart]
        refine ⟨hkeeps, fun hclosed => ?_⟩
        rw [hunheard _ hclosed, ite_self, List.append_nil] at hsignals
        exact hsignals
      · obtain ⟨m, hstart, hkeeps, -, -, hsignals⟩ := start_passed hrunning hcapacity plan
        rw [hstart]
        refine ⟨hkeeps, fun hclosed => ?_⟩
        rw [hunheard _ hclosed, List.append_nil] at hsignals
        exact hsignals

end Listener

/-! ## Any operations -/

namespace Threads

variable {s : Threads} {l m : Listener}

/-- Only the flag and the hook count. -/
theorem Shows.congr (h : s.Shows l) (hrunning : m.running = l.running)
    (hwaiting : m.waiting = l.waiting) : s.Shows m where
  flag := h.flag.trans hrunning.symm
  running := by rw [hrunning, hwaiting, h.running]
  gone := by
    rw [hwaiting]
    exact h.gone
  hook := by
    rw [hwaiting]
    exact h.hook

/-- So it is for a schedule. -/
theorem Schedules.congr {moves : List Move} {calls : List Listener.Call}
    (h : Schedules moves calls l) (hrunning : m.running = l.running)
    (hwaiting : m.waiting = l.waiting) : Schedules moves calls m := by
  obtain ⟨s, hrun, hshows⟩ := h.shown
  exact ⟨h.calls, h.patient, s, hrun, hshows.congr hrunning hwaiting⟩

/-- A listener runs exactly if a hook thread is there. -/
theorem Shows.running_iff (h : s.Shows l) : l.running = true ↔ ∃ k, s.IsAlive k := by
  rw [h.running]
  constructor
  · intro hsome
    obtain ⟨k, hpolling, -⟩ := h.hook hsome
    exact ⟨k, Or.inl hpolling⟩
  · rintro ⟨k, halive⟩
    by_contra hnone
    rw [Bool.not_eq_true, Option.isSome_eq_false_iff, Option.isNone_iff_eq_none] at hnone
    exact h.gone hnone k (Or.inr halive)

end Threads

namespace Listener

/-- A listener between two operations: what it was created with is still there, nothing is left for a
receiver that is gone, and a schedule of its calls leads to what it shows. -/
structure Settled (hotkey : Hotkey) (capacity : Nat) (clock : Nat → Instant)
    (operations : List Operation) (l : Listener) : Prop where
  hotkey : l.hotkey = hotkey
  reads : l.publisher.clock = clock
  capacity : l.publisher.channel.capacity = capacity
  empty : l.publisher.channel.closed = true → l.signals = []
  scheduled : ∃ moves, Threads.Schedules moves (operations.filterMap Operation.call?) l

theorem settled_create (hotkey : Hotkey) (capacity : Nat) (clock : Nat → Instant) :
    Settled hotkey capacity clock [] (create hotkey capacity clock) where
  hotkey := rfl
  reads := rfl
  capacity := rfl
  empty := fun _ => rfl
  scheduled := ⟨[], Threads.schedules_create hotkey capacity clock⟩

/-- **One operation.** -/
theorem Settled.operate {hotkey : Hotkey} {capacity : Nat} {clock : Nat → Instant}
    {operations : List Operation} {l : Listener}
    (h : Settled hotkey capacity clock operations l) (hcapacity : 0 < capacity) (o : Operation) :
    Settled hotkey capacity clock (operations ++ [o]) (l.operate o) := by
  obtain ⟨moves, hmoves⟩ := h.scheduled
  -- an operation that is no call leaves the schedule as it is
  have hsame : ∀ {m : Listener}, o.call? = none → m.running = l.running → m.waiting = l.waiting →
      Threads.Schedules moves ((operations ++ [o]).filterMap Operation.call?) m := by
    intro m hnone hrunning hwaiting
    rw [List.filterMap_append, List.filterMap_cons_none hnone, List.filterMap_nil, List.append_nil]
    exact hmoves.congr hrunning hwaiting
  cases o with
  | call c =>
    obtain ⟨hkeeps, hunheard⟩ := call_keeps (by rw [h.capacity]; exact hcapacity) c
    obtain ⟨more, hmore⟩ := hmoves.call c
    refine ⟨hkeeps.hotkey.trans h.hotkey, hkeeps.clock.trans h.reads,
      hkeeps.capacity.trans h.capacity, fun hclosed => ?_, moves ++ more, ?_⟩
    · have hclosed := hkeeps.closed.symm.trans hclosed
      exact (hunheard hclosed).trans (h.empty hclosed)
    · rw [List.filterMap_append]
      exact hmore
  | close =>
    exact ⟨h.hotkey, h.reads, h.capacity, fun _ => rfl, moves, hsame rfl rfl rfl⟩
  | collect =>
    obtain ⟨-, hnone, hkeeps, hrunning, hwaiting⟩ := collect_eq h.empty
    exact ⟨hkeeps.hotkey.trans h.hotkey, hkeeps.clock.trans h.reads,
      hkeeps.capacity.trans h.capacity, fun _ => hnone, moves, hsame rfl hrunning hwaiting⟩

/-- **Every run.** -/
theorem settled_run (hotkey : Hotkey) {capacity : Nat} (hcapacity : 0 < capacity)
    (clock : Nat → Instant) (operations : List Operation) :
    Settled hotkey capacity clock operations
      (operations.foldl Listener.operate (create hotkey capacity clock)) := by
  induction operations using List.reverseRecOn with
  | nil => exact settled_create hotkey capacity clock
  | append_singleton operations o ih =>
    rw [List.foldl_append]
    exact ih.operate hcapacity o

/-- **What the operations of a listener come to.**  After any operations:

* the running flag is set exactly if a hook thread is there, which then only waits for the flag: a
  schedule of the starts and stops among the operations, in which every start waits for the threads
  before it, comes to what the listener shows;
* a start of a running listener is refused, and nothing else happens;
* a start whose check fails gives that very fault and leaves the listener stopped; it adds one
  refusal if the check found that permission is missing (and there is room for it);
* a start whose check goes well succeeds; its hook adds the edges that a fresh watch sees, unless the
  first of them cannot be sent, and one refusal if it has returned and lacked permission; the listener
  runs on if the hook has not returned;
* a stop ends the hook that waits, which adds one refusal if it lacked permission;
* the receiver is given all that was added since the last time, and only that.

Nothing is added once the receiver is dropped. -/
theorem operations_run (hotkey : Hotkey) {capacity : Nat} (hcapacity : 0 < capacity)
    (clock : Nat → Instant) (operations : List Operation) :
    let l := operations.foldl operate (create hotkey capacity clock)
    (l.running = l.waiting.isSome
        ∧ ∃ moves s, Threads.create.run moves = some s ∧ s.Shows l
          ∧ moves.filter Threads.beginsCall
              = (operations.filterMap Operation.call?).map Call.move
          ∧ Threads.Patient moves
          ∧ (l.running = true ↔ ∃ k, s.IsAlive k))
      ∧ (l.running = true → ∀ check plan, l.start check plan = (.error .alreadyRunning, l))
      ∧ (l.running = false → ∀ fault plan, ∃ m, l.start (.error fault) plan = (.error fault, m)
          ∧ m.running = false ∧ m.waiting = none
          ∧ m.signals = l.signals
            ++ if fault = .permissionDenied ∧ l.publisher.channel.isFull = false then
                l.heard [.permissionDenied]
              else [])
      ∧ (l.running = false → ∀ plan, ∃ m, l.start (.ok ()) plan = (.ok (), m)
          ∧ m.running = (l.returned plan).isNone
          ∧ m.waiting = (if l.returned plan = none then some plan.ending else none)
          ∧ m.signals = l.signals
            ++ l.heard (edgeKinds (.start hotkey) plan.snapshots
              ++ (l.returned plan).elim [] refusal))
      ∧ (l.stop.running = false ∧ l.stop.waiting = none
          ∧ l.stop.signals = l.signals ++ l.heard (l.waiting.elim [] refusal))
      ∧ (l.collect.1 = l.signals ∧ l.collect.2.signals = []
          ∧ l.collect.2.running = l.running ∧ l.collect.2.waiting = l.waiting)
      ∧ (l.close.signals = [] ∧ l.close.running = l.running ∧ l.close.waiting = l.waiting)
      ∧ l.publisher.clock = clock := by
  intro l
  have h : Settled hotkey capacity clock operations l :=
    settled_run hotkey hcapacity clock operations
  have hroom : 0 < l.publisher.channel.capacity := by
    rw [h.capacity]
    exact hcapacity
  obtain ⟨moves, hcalls, hpatient, s, hrun, hshows⟩ := h.scheduled
  refine ⟨⟨hshows.running, moves, s, hrun, hshows, hcalls, hpatient, hshows.running_iff⟩,
    ?_, ?_, ?_, ?_, ?_, ⟨rfl, rfl, rfl⟩, h.reads⟩
  · intro hrunning check plan
    exact start_running hrunning check plan
  · intro hrunning fault plan
    obtain ⟨m, hstart, -, hoff, hwaiting, hsignals⟩ := start_failed hrunning fault plan
    exact ⟨m, hstart, hoff.trans hrunning, hwaiting.trans (hshows.waiting_eq_none hrunning),
      hsignals⟩
  · intro hrunning plan
    obtain ⟨m, hstart, -, hm⟩ := start_passed hrunning hroom plan
    rw [h.hotkey] at hm
    exact ⟨m, hstart, hm⟩
  · exact (stop_publishes hroom).2
  · obtain ⟨hgot, hnone, -, hsame⟩ := collect_eq h.empty
    exact ⟨hgot, hnone, hsame⟩

/-- A hook waits while the hotkey is held, and turns out to have lost its permission when it is
stopped: the refusal comes behind the press. -/
theorem operations_run_refused :
    let l := [.call (.start (.ok ()) ⟨[⟨true, true, false, false⟩], true, .error .tapCreation⟩)].foldl
      operate (create .standard 1 fun _ => .epoch)
    l.running = true
      ∧ (l.start (.ok ()) .unsupported).1 = .error .alreadyRunning
      ∧ l.stop.running = false
      ∧ l.stop.signals = [⟨.pressed, .epoch⟩, ⟨.permissionDenied, .epoch⟩] := by
  intro l
  obtain ⟨-, hagain, -, -, ⟨hoff, -, hsignals⟩, -⟩ := operations_run .standard Nat.one_pos
    (fun _ => .epoch)
    [.call (.start (.ok ()) ⟨[⟨true, true, false, false⟩], true, .error .tapCreation⟩)]
  refine ⟨rfl, ?_, hoff, hsignals⟩
  rw [hagain rfl]

end Listener

end HoldToRecord.Hook
