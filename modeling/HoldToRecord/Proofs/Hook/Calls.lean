import HoldToRecord.Proofs.Hook.Recorder

/-!
# The schedule that a listener runs

A `Listener` answers a call when the hook has ended or only waits for the flag, and receives what
waits when its hook finds no room. A `Recorder` lets the parties take turns in any order. What the
listener does is one of these orders: every call leads from a recorder that the listener shows to
another one (`Shows.call`), so all calls together are a schedule (`exists_run_calls`).
-/

namespace HoldToRecord.Hook

open HoldToRecord.Channel HoldToRecord.Hotkey HoldToRecord.Time

namespace Recorder

variable {r u : Recorder} {t : Turn} {k : Nat}

/-! ## Turns in a row -/

/-- Turns lead from one recorder to another. -/
def Reaches (r u : Recorder) : Prop := ∃ turns, r.run turns = some u

theorem Reaches.refl (r : Recorder) : r.Reaches r := ⟨[], rfl⟩

theorem Reaches.trans {v : Recorder} (h : r.Reaches u) (h' : u.Reaches v) : r.Reaches v := by
  obtain ⟨ts, hts⟩ := h
  obtain ⟨us, hus⟩ := h'
  refine ⟨ts ++ us, ?_⟩
  unfold run at hts hus ⊢
  rw [List.foldlM_append, hts]
  exact hus

theorem Reaches.of_step (h : r.step t = some u) : r.Reaches u := by
  refine ⟨[t], ?_⟩
  simp [run, h]

/-! ## Signals of a listener -/

/-- The recorder has in its channel what a listener has, and has published that and what the
listener has received. -/
structure Carries (r : Recorder) (l : Listener) : Prop where
  hotkey : r.hotkey = l.hotkey
  signals : r.signals = l.publisher.channel
  opened : r.signals.closed = false
  room : 0 < r.signals.capacity
  published : r.published.map (·.2) = l.inbox ++ r.signals.queued

/-- Nothing else of them counts. -/
theorem Carries.congr {l m : Listener} (h : r.Carries l)
    (hr : (u.hotkey, u.signals, u.published) = (r.hotkey, r.signals, r.published))
    (hl : (m.hotkey, m.publisher.channel, m.inbox) = (l.hotkey, l.publisher.channel, l.inbox)) :
    u.Carries m := by
  simp only [Prod.mk.injEq] at hr hl
  obtain ⟨hhotkey, hsignals, hpublished⟩ := hr
  obtain ⟨hhotkey', hchannel, hinbox⟩ := hl
  constructor
  · rw [hhotkey, hhotkey']
    exact h.hotkey
  · rw [hsignals, hchannel]
    exact h.signals
  · rw [hsignals]
    exact h.opened
  · rw [hsignals]
    exact h.room
  · rw [hpublished, hinbox, hsignals]
    exact h.published

/-- The session is the only party that has taken turns. -/
structure SameHooks (r u : Recorder) : Prop where
  hotkey : u.hotkey = r.hotkey
  threads : u.threads = r.threads
  watch : u.watch = r.watch
  ending : u.ending = r.ending
  owes : u.owes = r.owes

/-- The session handles everything that waits. -/
theorem exists_handled (hopened : r.signals.closed = false) :
    ∃ u, r.Reaches u ∧ r.SameHooks u ∧ u.signals = { r.signals with queued := [] }
      ∧ u.published = r.published := by
  generalize hqueued : r.signals.queued = queued
  induction queued generalizing r with
  | nil =>
    refine ⟨r, .refl r, ⟨rfl, rfl, rfl, rfl, rfl⟩, ?_, rfl⟩
    rw [← hqueued]
  | cons signal rest ih =>
    have htake : r.signals.take = (some signal, { r.signals with queued := rest }) := by
      unfold Bounded.take
      rw [if_neg (by simp [hopened]), hqueued]
    have hstep : r.step .handle = some { r with
        signals := { r.signals with queued := rest }
        session := (r.session.step signal).1
        events := r.events ++ (r.session.step signal).2 } := by
      simp only [step, htake]
    obtain ⟨u, hu, hsame, hsignals, hpublished⟩ := ih (r := { r with
        signals := { r.signals with queued := rest }
        session := (r.session.step signal).1
        events := r.events ++ (r.session.step signal).2 }) hopened rfl
    exact ⟨u, (Reaches.of_step hstep).trans hu,
      ⟨hsame.hotkey, hsame.threads, hsame.watch, hsame.ending, hsame.owes⟩, hsignals, hpublished⟩

/-- Room is made for another signal. -/
theorem Carries.makeRoom {l : Listener} (h : r.Carries l) :
    ∃ u, r.Reaches u ∧ r.SameHooks u ∧ u.Carries l.makeRoom ∧ u.signals.isFull = false := by
  unfold Listener.makeRoom
  rw [← h.signals]
  cases hfull : r.signals.isFull with
  | false =>
    rw [if_neg Bool.false_ne_true]
    exact ⟨r, .refl r, ⟨rfl, rfl, rfl, rfl, rfl⟩, h, hfull⟩
  | true =>
    obtain ⟨u, hu, hsame, hsignals, hpublished⟩ := exists_handled h.opened
    have hreceive : l.receiveAll = { l with
        inbox := l.inbox ++ l.publisher.channel.queued
        publisher :=
          { l.publisher with channel := { l.publisher.channel with queued := [] } } } := by
      unfold Listener.receiveAll
      rw [← h.signals, if_neg (by simp [h.opened])]
    rw [if_pos rfl, hreceive]
    have hempty : u.signals.isFull = false := by
      rw [hsignals, Bounded.isFull, List.length_nil, decide_eq_false_iff_not]
      exact Nat.not_le_of_gt h.room
    refine ⟨u, hu, hsame, ?_, hempty⟩
    exact
      { hotkey := hsame.hotkey.trans h.hotkey
        signals := by rw [hsignals, h.signals]
        opened := by rw [hsignals]; exact h.opened
        room := by rw [hsignals]; exact h.room
        published := by
          rw [hpublished, hsignals, h.published, ← h.signals]
          exact (List.append_nil _).symm }

/-- The recorder with a signal more. -/
def sent (r : Recorder) (k : Nat) (signal : Signal) : Recorder :=
  { r with
    signals := { r.signals with queued := r.signals.queued ++ [signal] }
    published := r.published ++ [(k, signal)] }

theorem publish_of_room (hopened : r.signals.closed = false) (hroom : r.signals.isFull = false)
    (signal : Signal) : r.publish k signal = some (r.sent k signal) := by
  unfold Recorder.publish
  rw [Bounded.put_of_room hopened hroom]
  rfl

/-- A listener that has sent a signal as well has it in its channel. -/
theorem Carries.sent {l : Listener} (h : r.Carries l) (k : Nat) (signal : Signal) :
    (r.sent k signal).Carries
      { l with publisher := { l.publisher.tick with channel := (r.sent k signal).signals } } where
  hotkey := h.hotkey
  signals := rfl
  opened := h.opened
  room := h.room
  published := by
    show (r.published ++ [(k, signal)]).map (·.2) = l.inbox ++ (r.signals.queued ++ [signal])
    rw [List.map_append, h.published, List.append_assoc]
    rfl

/-- A listener publishes a signal, and so does a start, once there is room for it. -/
theorem Carries.publish {l : Listener} (h : r.Carries l) (k : Nat) (kind : SignalKind) :
    ∃ u v l' instant, r.Reaches u ∧ r.SameHooks u
      ∧ u.publish k ⟨kind, instant⟩ = some v ∧ l.publish kind = (.ok (), l') ∧ v.Carries l' := by
  obtain ⟨u, hu, hsame, hcarries, hroom⟩ := h.makeRoom
  let signal := l.makeRoom.publisher.stamp kind
  refine ⟨u, u.sent k signal, _, signal.instant, hu, hsame,
    publish_of_room hcarries.opened hroom signal, ?_, hcarries.sent k signal⟩
  unfold Listener.publish Publisher.publish
  rw [← hcarries.signals, Bounded.put_of_room hcarries.opened hroom]
  rfl

/-! ## Hooks of a listener -/

/-- A publication is not the watches' business. -/
theorem publish_watch (r : Recorder) (watch : Nat → Watch) (k : Nat) (signal : Signal) :
    Recorder.publish { r with watch := watch } k signal
      = (r.publish k signal).map fun u => { u with watch := watch } := by
  unfold Recorder.publish
  dsimp only
  split <;> rfl

/-- A hook that watches snapshots of the keyboard publishes their edges. -/
theorem Carries.deliver {l : Listener} (h : r.Carries l) (hphase : r.threads.phase k = .polling)
    (snapshots : List Modifiers) :
    ∃ u l', r.Reaches u ∧ u.threads = r.threads
      ∧ l.deliver (r.watch k) snapshots = (.ok (), l') ∧ u.Carries l' := by
  induction snapshots generalizing r l with
  | nil => exact ⟨r, l, .refl r, rfl, rfl, h⟩
  | cons snapshot rest ih =>
    rw [Listener.deliver]
    rcases hsee : (r.watch k).see snapshot with ⟨_ | edge, w⟩
    · have hstep : r.step (.see k snapshot .epoch)
          = some { r with watch := Function.update r.watch k w } := by
        simp only [step, hphase, true_or, if_true, see, hsee]
      obtain ⟨u, l', hu, hthreads, hdeliver, hcarries⟩ :=
        ih (r := { r with watch := Function.update r.watch k w })
          (h.congr rfl rfl) hphase
      dsimp only at hdeliver
      rw [Function.update_self] at hdeliver
      exact ⟨u, l', (Reaches.of_step hstep).trans hu, hthreads, hdeliver, hcarries⟩
    · obtain ⟨q, v, l', instant, hq, hsame, hpublish, hlisten, hv⟩ :=
        h.publish k (Publisher.kindOf edge)
      have hthreads : v.threads = r.threads := by
        rw [(publish_eq_some hpublish).2]
        exact hsame.threads
      have hpolling : q.threads.phase k = .polling := by
        rw [hsame.threads]
        exact hphase
      have hbrings : (q.watch k).see snapshot = (some edge, w) := by
        rw [hsame.watch]
        exact hsee
      have hstep : q.step (.see k snapshot instant)
          = some { v with watch := Function.update q.watch k w } := by
        simp only [step, hpolling, true_or, if_true, see, hbrings, publish_watch, hpublish,
          Option.map_some]
      obtain ⟨u, l'', hu, huthreads, hdeliver, hcarries⟩ :=
        ih (r := { v with watch := Function.update q.watch k w })
          (hv.congr rfl rfl) (by rw [hthreads]; exact hphase)
      dsimp only at hdeliver
      rw [Function.update_self] at hdeliver
      refine ⟨u, l'', (hq.trans (.of_step hstep)).trans hu, huthreads.trans hthreads, ?_, hcarries⟩
      dsimp only
      rw [hlisten]
      exact hdeliver

/-- A listener ends a hook: a lack of permission is published, and the flag is cleared. -/
theorem finish_listener (l : Listener) (ending : Ending) :
    l.finish ending
      = { (if ending.lacksPermission then (l.publish .permissionDenied).2 else l) with
          running := false, waiting := none } := by
  rcases ending with fault | _ <;> rfl

/-- A hook returns: it publishes a refusal if it lacked permission, and its thread is gone. -/
theorem Carries.finish {l : Listener} (h : r.Carries l)
    (hphase : r.threads.phase k = .polling ∨ r.threads.phase k = .leaving) (ending : Ending) :
    ∃ u, r.Reaches u ∧ u.threads = (r.threads.set k .returned).release k
      ∧ u.Carries (l.finish ending) := by
  let returned : Recorder := { r with
    threads := r.threads.set k .returned
    ending := Function.update r.ending k (some ending)
    owes := Function.update r.owes k ending.lacksPermission }
  have hfinish : r.step (.finish k ending) = some returned := by
    rcases hphase with hphase | hphase <;> simp [step, Threads.step, hphase, returned]
  have howes : returned.owes k = ending.lacksPermission := Function.update_self ..
  have hreturned : returned.Carries l := h.congr rfl rfl
  have hclear : ∀ (q : Recorder) (m : Listener), q.threads = returned.threads → q.owes k = false →
      q.Carries m → ∃ u, q.Reaches u ∧ u.threads = (r.threads.set k .returned).release k
        ∧ u.Carries { m with running := false, waiting := none } := by
    intro q m hthreads howes hcarries
    have hstep : q.step (.clear k)
        = some { q with threads := (r.threads.set k .returned).release k } := by
      simp [step, Threads.step, hthreads, howes, returned]
    exact ⟨_, .of_step hstep, rfl, hcarries.congr rfl rfl⟩
  rw [finish_listener]
  cases hlacks : ending.lacksPermission with
  | false =>
    obtain ⟨u, hu, hthreads, hcarries⟩ := hclear returned l rfl (howes.trans hlacks) hreturned
    exact ⟨u, (Reaches.of_step hfinish).trans hu, hthreads, hcarries⟩
  | true =>
    obtain ⟨q, v, m, instant, hq, hsame, hpublish, hlisten, hv⟩ :=
      hreturned.publish k .permissionDenied
    have hrefuse : q.step (.refuse k instant)
        = some { v with owes := Function.update v.owes k false } := by
      have hpays : q.owes k = true := by
        rw [hsame.owes, howes, hlacks]
      have hthere : q.threads.phase k ≠ .over := by
        rw [hsame.threads]
        simp [returned]
      simp only [step, hpays, if_true, refuse, hthere, if_false, hpublish, Option.map_some]
    have hthreads : v.threads = returned.threads := by
      rw [(publish_eq_some hpublish).2]
      exact hsame.threads
    obtain ⟨u, hu, huthreads, hcarries⟩ := hclear
      { v with owes := Function.update v.owes k false } m hthreads (Function.update_self ..)
      (hv.congr rfl rfl)
    refine ⟨u, (((Reaches.of_step hfinish).trans hq).trans (.of_step hrefuse)).trans hu,
      huthreads, ?_⟩
    rw [if_pos rfl, hlisten]
    exact hcarries

/-- A start that fails after it has taken the flag publishes a refusal, if there is room for it. -/
theorem Carries.fail {l : Listener} (h : r.Carries l) (hflag : r.threads.flag = false)
    (hrunning : l.running = false) (fault : HookFault) (plan : Plan) :
    ∃ u, r.Reaches u ∧ u.threads = r.threads.take.release r.threads.taken
      ∧ u.Carries (l.start (.error fault) plan).2 := by
  let k := r.threads.taken
  let failed : Recorder := { r with
    threads := r.threads.take.release k
    owes := Function.update r.owes k (fault = .permissionDenied) }
  have hfailed : r.Reaches failed := by
    refine ⟨[.start, .abort k fault], ?_⟩
    simp [run, step, Threads.step, hflag, k, failed]
  have hcarries : failed.Carries l := h.congr rfl rfl
  unfold Listener.start
  rw [if_neg (by simp [hrunning])]
  dsimp only
  by_cases hdenied : fault = .permissionDenied
  · let signal := l.publisher.stamp .permissionDenied
    have hover : failed.threads.phase k = .over := Threads.phase_set_self ..
    have howes : failed.owes k = true := by simp [failed, hdenied]
    have hrefuse : failed.step (.refuse k signal.instant)
        = some (((failed.publish k signal).map fun u =>
            { u with owes := Function.update u.owes k false }).getD
          { failed with owes := Function.update failed.owes k false }) := by
      simp only [step, howes, if_true, refuse, hover]
      rfl
    rw [if_pos hdenied]
    unfold Publisher.tryPublish
    rw [← h.signals]
    cases hfull : r.signals.isFull with
    | true =>
      -- the refusal does not wait for room, and is lost
      have hput := Bounded.put_of_full h.opened hfull signal
      have hpublish : failed.publish k signal = none := by
        unfold Recorder.publish
        rw [show failed.signals.put signal = .full from hput]
      rw [hput]
      rw [hpublish] at hrefuse
      exact ⟨_, hfailed.trans (.of_step hrefuse), rfl, h.congr rfl rfl⟩
    | false =>
      rw [Bounded.put_of_room h.opened hfull]
      rw [publish_of_room hcarries.opened hfull signal] at hrefuse
      exact ⟨_, hfailed.trans (.of_step hrefuse), rfl,
        (hcarries.sent k signal).congr rfl rfl⟩
  · rw [if_neg hdenied]
    exact ⟨failed, hfailed, rfl, hcarries⟩

/-! ## Calls of a listener -/

/-- The recorder is as a listener shows it between two calls. -/
structure Shows (r : Recorder) (l : Listener) : Prop where
  threads : r.threads.Shows l
  carries : r.Carries l

/-- A hook that has come runs until it has ended or waits for the flag. -/
theorem exists_runHook {l : Listener} (h : r.Carries l) (hflag : r.threads.flag = true)
    (hrunning : l.running = true) (hphase : r.threads.phase k = .polling)
    (honly : ∀ j, r.threads.IsUnderWay j → j = k) (hwatch : r.watch k = .start l.hotkey)
    (plan : Plan) : ∃ u, r.Reaches u ∧ u.Shows (l.runHook plan) := by
  obtain ⟨u, l', hu, hthreads, hdeliver, hcarries⟩ := h.deliver hphase plan.snapshots
  rw [hwatch] at hdeliver
  have hon : l'.running = true := by
    have heq := (l.deliver_eq (.start l.hotkey) plan.snapshots).1
    rw [hdeliver] at heq
    exact heq.trans hrunning
  unfold Listener.runHook
  rw [hdeliver]
  dsimp only
  cases plan.waits with
  | true =>
    refine ⟨u, hu, ?_, hcarries.congr rfl rfl⟩
    rw [hthreads]
    exact Threads.shows_waiting hflag hphase honly ⟨hon, rfl⟩
  | false =>
    obtain ⟨v, hv, hvthreads, hvcarries⟩ := hcarries.finish (k := k)
      (by rw [hthreads]; exact Or.inl hphase) plan.ending
    refine ⟨v, hu.trans hv, ?_, hvcarries⟩
    rw [hvthreads, hthreads]
    exact Threads.shows_idle rfl (Threads.gone_release (Threads.only_set honly .returned))
      (Listener.finish_eq ..)

/-- **Every call of a listener is a schedule.** -/
theorem Shows.call {l : Listener} (h : r.Shows l) (c : Listener.Call) :
    ∃ u, r.Reaches u ∧ u.Shows (l.call c) := by
  have hflag := h.threads.flag
  cases c with
  | start check plan =>
    show ∃ u, r.Reaches u ∧ u.Shows (l.start check plan).2
    cases hrunning : l.running with
    | true =>
      -- the flag is taken, and nothing changes
      unfold Listener.start
      rw [if_pos hrunning]
      exact ⟨r, .refl r, h⟩
    | false =>
      rw [hrunning] at hflag
      have hnone : l.waiting = none := h.threads.waiting_eq_none hrunning
      have honly := Threads.only_take (h.threads.gone hnone)
      rcases check with fault | _
      · obtain ⟨u, hu, hthreads, hcarries⟩ := h.carries.fail hflag hrunning fault plan
        refine ⟨u, hu, ?_, hcarries⟩
        rw [hthreads]
        refine Threads.shows_idle rfl (Threads.gone_release honly) ?_
        unfold Listener.start
        rw [if_neg (by simp [hrunning])]
        dsimp only
        split_ifs
        · exact ⟨hrunning, hnone⟩
        · exact ⟨hrunning, hnone⟩
      · let k := r.threads.taken
        let begun : Recorder := { r with
          threads := r.threads.take.set k .polling
          watch := Function.update r.watch k (.start r.hotkey) }
        have hbegun : r.Reaches begun := by
          refine ⟨[.start, .spawn k], ?_⟩
          simp [run, step, Threads.step, hflag, k, begun]
        have hwatch : begun.watch k = .start l.hotkey := by
          rw [← h.carries.hotkey]
          exact Function.update_self ..
        obtain ⟨u, hu, hshows⟩ := exists_runHook (r := begun) (k := k)
          (l := { l with running := true }) (h.carries.congr rfl rfl) rfl rfl
          (Threads.phase_set_self ..) (Threads.only_set honly .polling) hwatch plan
        refine ⟨u, hbegun.trans hu, ?_⟩
        unfold Listener.start
        rw [if_neg (by simp [hrunning])]
        exact hshows
  | stop =>
    show ∃ u, r.Reaches u ∧ u.Shows l.stop
    let stopped : Recorder := { r with threads := { r.threads with flag := false } }
    have hstopped : r.Reaches stopped := .of_step (t := .stop) rfl
    have hcarries : stopped.Carries { l with running := false } := h.carries.congr rfl rfl
    cases hwaiting : l.waiting with
    | none =>
      have hstop : l.stop = { l with running := false } := by
        unfold Listener.stop
        rw [hwaiting]
      rw [hstop]
      exact ⟨stopped, hstopped, Threads.shows_idle rfl (h.threads.gone hwaiting) ⟨rfl, hwaiting⟩,
        hcarries⟩
    | some ending =>
      have hstop : l.stop = { l with running := false }.finish ending := by
        unfold Listener.stop
        rw [hwaiting]
      rw [hstop]
      obtain ⟨k, hk, honly⟩ := h.threads.hook (by rw [hwaiting]; rfl)
      -- the hook sees the flag cleared, and returns
      let leaving : Recorder := { stopped with threads := stopped.threads.set k .leaving }
      have hleaving : stopped.step (.poll k) = some leaving := by
        simp [step, Threads.step, stopped, leaving, hk]
      obtain ⟨u, hu, hthreads, hfinish⟩ := Carries.finish (r := leaving) (k := k)
        (l := { l with running := false }) (hcarries.congr rfl rfl)
        (Or.inr (Threads.phase_set_self ..)) ending
      refine ⟨u, (hstopped.trans (.of_step hleaving)).trans hu, ?_, hfinish⟩
      rw [hthreads]
      have honly' : ∀ j, stopped.threads.IsUnderWay j → j = k := honly
      exact Threads.shows_idle rfl
        (Threads.gone_release (Threads.only_set (Threads.only_set honly' .leaving) .returned))
        (Listener.finish_eq ..)

/-- **What a listener runs.**  Calls of a listener are one of the schedules, and the signals that
they publish, received or still waiting, are those of the schedule. -/
theorem exists_run_calls (hotkey : Hotkey) {capacity : Nat} (hcapacity : 0 < capacity)
    (clock : Nat → Instant) (calls : List Listener.Call) :
    ∃ turns r, (create hotkey capacity).run turns = some r
      ∧ r.Shows (calls.foldl Listener.call (Listener.create hotkey capacity clock)) := by
  induction calls using List.reverseRecOn with
  | nil =>
    refine ⟨[], create hotkey capacity, rfl, ?_, rfl, rfl, rfl, hcapacity, rfl⟩
    exact Threads.shows_idle rfl (fun k hk => (Threads.isUnderWay_iff.mp hk).1 rfl) ⟨rfl, rfl⟩
  | append_singleton calls c ih =>
    obtain ⟨turns, r, hrun, hshows⟩ := ih
    obtain ⟨u, ⟨more, hmore⟩, hu⟩ := hshows.call c
    rw [List.foldl_append]
    refine ⟨turns ++ more, u, ?_, hu⟩
    unfold run at hrun hmore ⊢
    rw [List.foldlM_append, hrun]
    exact hmore

end Recorder

end HoldToRecord.Hook
