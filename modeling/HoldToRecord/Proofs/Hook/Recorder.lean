import Mathlib.Tactic
import HoldToRecord.Hook.Recorder
import HoldToRecord.Proofs.Hook.Threads
import HoldToRecord.Proofs.Session.Trace

/-!
# When a recording outlives its hook

A hook publishes a release when its hotkey is let go, and a refusal when it returns for want of
permission. When it returns for another reason while its hotkey is held, it publishes neither, and
the recording stays open (`not_closed`). Nothing else leaves one open: once no hook thread is there
and every signal was handled, the session records exactly when the last signal was a press, and then
the hook that published it was lost (`session_of_quiet`).
-/

namespace HoldToRecord.Hook

open HoldToRecord.Channel HoldToRecord.Hotkey HoldToRecord.Time

namespace Recorder

variable {r u : Recorder} {t : Turn} {k : Nat}

theorem run_concat (r : Recorder) (turns : List Turn) (t : Turn) :
    r.run (turns ++ [t]) = (r.run turns).bind (·.step t) := by
  simp [run, List.foldlM_append]

/-! ## Signals on their way -/

/-- A publication finds room, and adds the signal to those that wait and to those that were
published. -/
theorem publish_eq_some {signal : Signal} (h : r.publish k signal = some u) :
    r.signals.put signal = .accepted u.signals
      ∧ u = { r with signals := u.signals, published := r.published ++ [(k, signal)] } := by
  unfold publish at h
  split at h
  · next signals hput =>
    obtain rfl := Option.some.inj h
    exact ⟨hput, rfl⟩
  · cases h

/-- A hook that sees a snapshot publishes the edge that it brings, if it brings one. -/
theorem see_eq_some {snapshot : Modifiers} {instant : Instant}
    (h : r.see k snapshot instant = some u) :
    u.watch = Function.update r.watch k ((r.watch k).see snapshot).2
      ∧ u.threads = r.threads ∧ u.ending = r.ending ∧ u.owes = r.owes
      ∧ u.session = r.session ∧ u.events = r.events
      ∧ (((r.watch k).see snapshot).1 = none ∧ u.signals = r.signals ∧ u.published = r.published
        ∨ ∃ edge, ((r.watch k).see snapshot).1 = some edge
          ∧ r.signals.put ⟨Publisher.kindOf edge, instant⟩ = .accepted u.signals
          ∧ u.published = r.published ++ [(k, ⟨Publisher.kindOf edge, instant⟩)]) := by
  unfold see at h
  cases hsee : ((r.watch k).see snapshot).1 with
  | none =>
    simp only [hsee] at h
    obtain rfl := Option.some.inj h
    exact ⟨rfl, rfl, rfl, rfl, rfl, rfl, Or.inl ⟨rfl, rfl, rfl⟩⟩
  | some edge =>
    simp only [hsee] at h
    obtain ⟨hput, hu⟩ := publish_eq_some h
    rw [hu]
    exact ⟨rfl, rfl, rfl, rfl, rfl, rfl, Or.inr ⟨edge, rfl, hput, rfl⟩⟩

/-- A start that owes a refusal publishes it, or has failed and loses it for want of room. -/
theorem refuse_eq_some {instant : Instant} (h : r.refuse k instant = some u) :
    u.watch = r.watch ∧ u.threads = r.threads ∧ u.ending = r.ending
      ∧ u.owes = Function.update r.owes k false ∧ u.session = r.session ∧ u.events = r.events
      ∧ (r.signals.put ⟨.permissionDenied, instant⟩ = .accepted u.signals
          ∧ u.published = r.published ++ [(k, ⟨.permissionDenied, instant⟩)]
        ∨ r.threads.phase k = .over ∧ u.signals = r.signals ∧ u.published = r.published) := by
  unfold refuse at h
  cases hpublish : r.publish k ⟨.permissionDenied, instant⟩ with
  | none =>
    rw [hpublish] at h
    split_ifs at h with hover
    · obtain rfl := Option.some.inj h
      exact ⟨rfl, rfl, rfl, rfl, rfl, rfl, Or.inr ⟨hover, rfl, rfl⟩⟩
    · cases h
  | some v =>
    obtain ⟨hput, hv⟩ := publish_eq_some hpublish
    have hu : u = { v with owes := Function.update v.owes k false } := by
      rw [hpublish] at h
      split_ifs at h <;> exact (Option.some.inj h).symm
    rw [hu, hv]
    exact ⟨rfl, rfl, rfl, rfl, rfl, rfl, Or.inl ⟨hput, rfl⟩⟩

/-- What a turn does to the signals: nothing, or it publishes one, or the session handles one. -/
inductive Passes (r u : Recorder) : Prop
  | quiet (hsignals : u.signals = r.signals) (hsession : u.session = r.session)
      (hevents : u.events = r.events) (hpublished : u.published = r.published)
  | publish {k : Nat} {signal : Signal} (hput : r.signals.put signal = .accepted u.signals)
      (hsession : u.session = r.session) (hevents : u.events = r.events)
      (hpublished : u.published = r.published ++ [(k, signal)])
  | handle {signal : Signal} (htake : r.signals.take = (some signal, u.signals))
      (hsession : u.session = (r.session.step signal).1)
      (hevents : u.events = r.events ++ (r.session.step signal).2)
      (hpublished : u.published = r.published)

/-- A turn does nothing else to them. -/
theorem passes_of_step (h : r.step t = some u) : r.Passes u := by
  -- the flag and the threads are not the signals' business
  have hthreads : ∀ {o : Option Threads} {f : Threads → Recorder}, o.map f = some u →
      (∀ s, (f s).signals = r.signals ∧ (f s).session = r.session ∧ (f s).events = r.events
        ∧ (f s).published = r.published) → r.Passes u := by
    intro o f ho hf
    obtain ⟨s, -, rfl⟩ := Option.map_eq_some_iff.mp ho
    obtain ⟨hsignals, hsession, hevents, hpublished⟩ := hf s
    exact .quiet hsignals hsession hevents hpublished
  cases t with
  | start =>
    obtain rfl := Option.some.inj h
    exact .quiet rfl rfl rfl rfl
  | stop =>
    obtain rfl := Option.some.inj h
    exact .quiet rfl rfl rfl rfl
  | poll k => exact hthreads h fun s => ⟨rfl, rfl, rfl, rfl⟩
  | spawn k => exact hthreads h fun s => ⟨rfl, rfl, rfl, rfl⟩
  | abort k fault => exact hthreads h fun s => ⟨rfl, rfl, rfl, rfl⟩
  | finish k ending => exact hthreads h fun s => ⟨rfl, rfl, rfl, rfl⟩
  | clear k =>
    simp only [step] at h
    split_ifs at h
    exact hthreads h fun s => ⟨rfl, rfl, rfl, rfl⟩
  | see k snapshot instant =>
    simp only [step] at h
    split_ifs at h
    obtain ⟨-, -, -, -, hsession, hevents,
      ⟨-, hsignals, hpublished⟩ | ⟨edge, -, hput, hpublished⟩⟩ := see_eq_some h
    · exact .quiet hsignals hsession hevents hpublished
    · exact .publish hput hsession hevents hpublished
  | refuse k instant =>
    simp only [step] at h
    split_ifs at h
    obtain ⟨-, -, -, -, hsession, hevents, ⟨hput, hpublished⟩ | ⟨-, hsignals, hpublished⟩⟩ :=
      refuse_eq_some h
    · exact .publish hput hsession hevents hpublished
    · exact .quiet hsignals hsession hevents hpublished
  | handle =>
    simp only [step] at h
    split at h
    · next signal signals htake =>
      obtain rfl := Option.some.inj h
      exact .handle htake rfl rfl rfl
    · cases h

/-- The session has handled the first of the signals that were published, and the others wait. -/
structure Handles (r : Recorder) (handled : List Signal) : Prop where
  opened : r.signals.closed = false
  split : r.published.map (·.2) = handled ++ r.signals.queued
  session : r.session = (Session.idle.run handled).1
  events : r.events = (Session.idle.run handled).2

theorem handles_create (hotkey : Hotkey) (capacity : Nat) : (create hotkey capacity).Handles [] :=
  ⟨rfl, rfl, rfl, rfl⟩

/-- Signals are handled in the order in which they were published. -/
theorem Handles.step {handled : List Signal} (h : r.Handles handled) (hstep : r.step t = some u) :
    ∃ more, u.Handles (handled ++ more) := by
  cases passes_of_step hstep with
  | quiet hsignals hsession hevents hpublished =>
    refine ⟨[], ?_⟩
    rw [List.append_nil]
    exact ⟨by rw [hsignals]; exact h.opened, by rw [hsignals, hpublished]; exact h.split,
      hsession.trans h.session, hevents.trans h.events⟩
  | publish hput hsession hevents hpublished =>
    refine ⟨[], ?_⟩
    rw [List.append_nil]
    have hopened : u.signals.closed = false := (Bounded.closed_put hput).trans h.opened
    refine ⟨hopened, ?_, hsession.trans h.session, hevents.trans h.events⟩
    rw [hpublished, List.map_append, h.split, Bounded.queued_put hput, List.append_assoc]
    rfl
  | @handle signal htake hsession hevents hpublished =>
    refine ⟨[signal], ?_⟩
    have hqueued := r.signals.queued_take h.opened
    rw [htake] at hqueued
    have hopened : u.signals.closed = false := by
      have hclosed := r.signals.closed_take
      rw [htake] at hclosed
      exact hclosed.trans h.opened
    refine ⟨hopened, ?_, ?_, ?_⟩
    · rw [hpublished, h.split, ← hqueued, List.append_assoc]
      rfl
    · rw [Session.run_concat, hsession, h.session]
    · rw [Session.run_concat, hevents, h.events, h.session]

/-! ## Hooks that hold their hotkey -/

/-- The hook of a start holds its hotkey: it goes on, or it has returned, and then a refusal is
still to come if it lacked permission. -/
structure Holds (r : Recorder) (k : Nat) : Prop where
  held : (r.watch k).held = true
  phase : r.threads.phase k = .polling ∨ r.threads.phase k = .leaving
    ∨ (r.threads.phase k = .returned ∨ r.threads.phase k = .over)
      ∧ ∃ ending, r.ending k = some ending
        ∧ (ending.lacksPermission = true → r.owes k = true ∧ r.threads.phase k = .returned)

/-- A hook that holds its hotkey is there or has been there. -/
theorem Holds.started (h : r.Holds k) :
    r.threads.phase k ≠ .absent ∧ r.threads.phase k ≠ .starting := by
  rcases h.phase with hphase | hphase | ⟨hphase | hphase, -⟩ <;> simp [hphase]

/-- Nothing has changed for a start. -/
theorem Holds.congr (h : r.Holds k) (hwatch : u.watch k = r.watch k)
    (hphase : u.threads.phase k = r.threads.phase k) (hending : u.ending k = r.ending k)
    (howes : u.owes k = r.owes k) : u.Holds k where
  held := by
    rw [hwatch]
    exact h.held
  phase := by
    rw [hphase, hending, howes]
    exact h.phase

section Turns

variable {j : Nat}

/-- A start takes the flag for itself. -/
theorem Holds.start (h : r.Holds k) (hnumbered : r.threads.IsNumbered)
    (hstep : r.step .start = some u) : u.Holds k := by
  obtain rfl := Option.some.inj hstep
  refine h.congr rfl ?_ rfl rfl
  dsimp only
  split_ifs
  · rfl
  · apply Threads.phase_take_of_ne
    rintro rfl
    exact h.started.1 (hnumbered _ (Nat.le_refl _))

/-- A hook that sees the flag cleared goes on until it returns. -/
theorem Holds.poll (h : r.Holds k) (hstep : r.step (.poll j) = some u) : u.Holds k := by
  obtain ⟨s, hs, rfl⟩ := Option.map_eq_some_iff.mp hstep
  obtain ⟨hj, rfl⟩ := Threads.guard_of_step hs
  split_ifs
  · exact h.congr rfl rfl rfl rfl
  · by_cases heq : k = j
    · subst heq
      exact ⟨h.held, Or.inr (Or.inl (Threads.phase_set_self ..))⟩
    · exact h.congr rfl (Threads.phase_set_of_ne _ _ heq) rfl rfl

/-- Another thread comes. -/
theorem Holds.spawn (h : r.Holds k) (hstep : r.step (.spawn j) = some u) : u.Holds k := by
  obtain ⟨s, hs, rfl⟩ := Option.map_eq_some_iff.mp hstep
  obtain ⟨hj, rfl⟩ := Threads.guard_of_step hs
  have hne : k ≠ j := by
    rintro rfl
    exact h.started.2 hj
  exact h.congr (Function.update_of_ne hne _ _) (Threads.phase_set_of_ne _ _ hne) rfl rfl

/-- Another start fails. -/
theorem Holds.abort (h : r.Holds k) {fault : HookFault}
    (hstep : r.step (.abort j fault) = some u) : u.Holds k := by
  obtain ⟨s, hs, rfl⟩ := Option.map_eq_some_iff.mp hstep
  obtain ⟨hj, rfl⟩ := Threads.guard_of_step hs
  have hne : k ≠ j := by
    rintro rfl
    exact h.started.2 hj
  exact h.congr rfl (Threads.phase_set_of_ne _ _ hne) rfl (Function.update_of_ne hne _ _)

/-- A hook that returns while it holds its hotkey owes a refusal if it lacked permission. -/
theorem Holds.finish (h : r.Holds k) {ending : Ending}
    (hstep : r.step (.finish j ending) = some u) : u.Holds k := by
  obtain ⟨s, hs, rfl⟩ := Option.map_eq_some_iff.mp hstep
  obtain rfl : s = r.threads.set j .returned := by
    rcases Option.or_eq_some_iff.mp hs with hs | ⟨-, hs⟩
    · exact (Threads.guard_of_step hs).2.symm
    · exact (Threads.guard_of_step hs).2.symm
  by_cases heq : k = j
  · subst heq
    have hreturned : (r.threads.set k .returned).phase k = .returned := Threads.phase_set_self ..
    refine ⟨h.held, Or.inr (Or.inr ⟨Or.inl hreturned, ending, Function.update_self .., ?_⟩)⟩
    intro hlacks
    refine ⟨?_, hreturned⟩
    dsimp only
    rw [Function.update_self]
    exact hlacks
  · exact h.congr rfl (Threads.phase_set_of_ne _ _ heq) (Function.update_of_ne heq _ _)
      (Function.update_of_ne heq _ _)

/-- A thread that owes nothing is gone. -/
theorem Holds.clear (h : r.Holds k) (hstep : r.step (.clear j) = some u) : u.Holds k := by
  simp only [step] at hstep
  split_ifs at hstep with howes
  obtain ⟨s, hs, rfl⟩ := Option.map_eq_some_iff.mp hstep
  obtain ⟨hj, rfl⟩ := Threads.guard_of_step hs
  by_cases heq : k = j
  · subst heq
    refine ⟨h.held, Or.inr (Or.inr ⟨Or.inr (Threads.phase_set_self ..), ?_⟩)⟩
    rcases h.phase with hphase | hphase | ⟨-, ending, hending, hlacks⟩
    · rw [hphase] at hj
      cases hj
    · rw [hphase] at hj
      cases hj
    · exact ⟨ending, hending, fun htrue => absurd (hlacks htrue).1 howes⟩
  · exact h.congr rfl (Threads.phase_set_of_ne _ _ heq) rfl rfl

/-- A start that has failed loses the refusal that it owes. -/
theorem Holds.lose (h : r.Holds k) (hover : r.threads.phase j = .over) (hwatch : u.watch = r.watch)
    (hthreads : u.threads = r.threads) (hending : u.ending = r.ending)
    (howes : u.owes = Function.update r.owes j false) : u.Holds k := by
  by_cases heq : k = j
  · subst heq
    refine ⟨by rw [hwatch]; exact h.held, ?_⟩
    rw [hthreads, hending, hover]
    rcases h.phase with hphase | hphase | ⟨-, ending, he, hlacks⟩
    · rw [hphase] at hover
      cases hover
    · rw [hphase] at hover
      cases hover
    · -- a hook that lacked permission would still have its thread
      refine Or.inr (Or.inr ⟨Or.inr rfl, ending, he, fun htrue => ?_⟩)
      have := (hlacks htrue).2
      rw [hover] at this
      cases this
  · refine h.congr (by rw [hwatch]) (by rw [hthreads]) (by rw [hending]) ?_
    rw [howes]
    exact Function.update_of_ne heq _ _

/-- A snapshot that brings no edge. -/
theorem Holds.see (h : r.Holds k) {snapshot : Modifiers}
    (hedge : ((r.watch j).see snapshot).1 = none)
    (hwatch : u.watch = Function.update r.watch j ((r.watch j).see snapshot).2)
    (hthreads : u.threads = r.threads) (hending : u.ending = r.ending) (howes : u.owes = r.owes) :
    u.Holds k := by
  have hheld : (u.watch k).held = (r.watch k).held := by
    rw [hwatch]
    by_cases heq : k = j
    · subst heq
      have hsame := (r.watch k).see_edge_iff snapshot
      rw [hedge] at hsame
      rw [Function.update_self, Watch.held_see]
      by_contra hne
      exact absurd (hsame.mpr (Ne.symm hne)) (by simp)
    · rw [Function.update_of_ne heq]
  refine ⟨hheld.trans h.held, ?_⟩
  rw [hthreads, hending, howes]
  exact h.phase

/-- A snapshot that brings a press. -/
theorem holds_of_press {snapshot : Modifiers} {edge : Edge}
    (hphase : r.threads.phase k = .polling ∨ r.threads.phase k = .leaving)
    (hedge : ((r.watch k).see snapshot).1 = some edge) (hpress : Publisher.kindOf edge = .pressed)
    (hwatch : u.watch = Function.update r.watch k ((r.watch k).see snapshot).2)
    (hthreads : u.threads = r.threads) : u.Holds k := by
  have hnow : (r.watch k).hotkey.isHeld snapshot = true := by
    unfold Watch.see at hedge
    dsimp only at hedge
    split_ifs at hedge with hsame hnow
    · exact hnow
    · obtain rfl := Option.some.inj hedge
      cases hpress
  refine ⟨?_, ?_⟩
  · rw [hwatch, Function.update_self, Watch.held_see]
    exact hnow
  · rw [hthreads]
    rcases hphase with hphase | hphase
    · exact Or.inl hphase
    · exact Or.inr (Or.inl hphase)

end Turns

/-- A recorder keeps this: whose press was the last signal, holds its hotkey. -/
structure Kept (r : Recorder) : Prop where
  numbered : r.threads.IsNumbered
  holder : ∀ k instant, r.published.getLast? = some (k, ⟨.pressed, instant⟩) → r.Holds k

theorem kept_create (hotkey : Hotkey) (capacity : Nat) : (create hotkey capacity).Kept := by
  refine ⟨Threads.isNumbered_create, ?_⟩
  intro k instant hlast
  cases hlast

/-- Starts keep their numbers. -/
theorem numbered_step (h : r.threads.IsNumbered) (hstep : r.step t = some u) :
    u.threads.IsNumbered := by
  have hthreads : ∀ {m : Move} {f : Threads → Recorder}, (r.threads.step m).map f = some u →
      (∀ s, (f s).threads = s) → u.threads.IsNumbered := by
    intro m f hm hf
    obtain ⟨s, hs, rfl⟩ := Option.map_eq_some_iff.mp hm
    rw [hf]
    exact h.step hs
  unfold step at hstep
  cases t with
  | start => exact hthreads hstep fun _ => rfl
  | stop => exact hthreads hstep fun _ => rfl
  | poll k => exact hthreads hstep fun _ => rfl
  | spawn k => exact hthreads hstep fun _ => rfl
  | abort k fault => exact hthreads hstep fun _ => rfl
  | finish k ending =>
    obtain ⟨s, hs, rfl⟩ := Option.map_eq_some_iff.mp hstep
    rcases Option.or_eq_some_iff.mp hs with hs | ⟨-, hs⟩
    · exact h.step hs
    · exact h.step hs
  | clear k =>
    dsimp only at hstep
    split_ifs at hstep
    exact hthreads hstep fun _ => rfl
  | see k snapshot instant =>
    dsimp only at hstep
    split_ifs at hstep
    rw [(see_eq_some hstep).2.1]
    exact h
  | refuse k instant =>
    dsimp only at hstep
    split_ifs at hstep
    rw [(refuse_eq_some hstep).2.1]
    exact h
  | handle =>
    dsimp only at hstep
    split at hstep
    · obtain rfl := Option.some.inj hstep
      exact h
    · cases hstep

/-- **One turn.**  A hook holds its hotkey after its press, as long as nothing else is published. -/
theorem Kept.step (h : r.Kept) (hstep : r.step t = some u) : u.Kept := by
  refine ⟨numbered_step h.numbered hstep, ?_⟩
  intro k instant hlast
  have hquiet : u.published = r.published → r.Holds k := by
    intro hpublished
    rw [hpublished] at hlast
    exact h.holder k instant hlast
  -- what only concerns the threads publishes nothing
  have hmap : ∀ {o : Option Threads} {f : Threads → Recorder}, o.map f = some u →
      (∀ s, (f s).published = r.published) → r.Holds k := by
    intro o f ho hf
    obtain ⟨s, -, rfl⟩ := Option.map_eq_some_iff.mp ho
    exact hquiet (hf s)
  cases t with
  | start =>
    have hk : r.Holds k := hquiet (by rw [← Option.some.inj hstep])
    exact hk.start h.numbered hstep
  | stop =>
    obtain rfl := Option.some.inj hstep
    exact (hquiet rfl).congr rfl rfl rfl rfl
  | poll j => exact (hmap hstep fun _ => rfl).poll hstep
  | spawn j => exact (hmap hstep fun _ => rfl).spawn hstep
  | abort j fault => exact (hmap hstep fun _ => rfl).abort hstep
  | finish j ending => exact (hmap hstep fun _ => rfl).finish hstep
  | clear j =>
    have hclear := hstep
    simp only [Recorder.step] at hclear
    split_ifs at hclear
    exact (hmap hclear fun _ => rfl).clear hstep
  | see j snapshot at' =>
    simp only [Recorder.step] at hstep
    split_ifs at hstep with hphase
    obtain ⟨hwatch, hthreads, hending, howes, -, -,
      ⟨hedge, -, hpublished⟩ | ⟨edge, hedge, -, hpublished⟩⟩ := see_eq_some hstep
    · exact (hquiet hpublished).see hedge hwatch hthreads hending howes
    · rw [hpublished, List.getLast?_concat] at hlast
      obtain ⟨rfl, hsignal⟩ := Prod.mk.inj (Option.some.inj hlast)
      exact holds_of_press hphase hedge (congrArg Signal.kind hsignal) hwatch hthreads
  | refuse j at' =>
    simp only [Recorder.step] at hstep
    split_ifs at hstep
    obtain ⟨hwatch, hthreads, hending, howes, -, -, ⟨-, hpublished⟩ | ⟨hover, -, hpublished⟩⟩ :=
      refuse_eq_some hstep
    · -- a refusal is no press
      rw [hpublished, List.getLast?_concat] at hlast
      cases hlast
    · exact (hquiet hpublished).lose hover hwatch hthreads hending howes
  | handle =>
    simp only [Recorder.step] at hstep
    split at hstep
    · obtain rfl := Option.some.inj hstep
      exact (hquiet rfl).congr rfl rfl rfl rfl
    · cases hstep

/-- **Every run.** -/
theorem exists_handles {hotkey : Hotkey} {capacity : Nat} {turns : List Turn}
    (hrun : (create hotkey capacity).run turns = some r) :
    r.Kept ∧ ∃ handled, r.Handles handled := by
  induction turns using List.reverseRecOn generalizing r with
  | nil =>
    obtain rfl := Option.some.inj hrun
    exact ⟨kept_create hotkey capacity, [], handles_create hotkey capacity⟩
  | append_singleton turns t ih =>
    rw [run_concat] at hrun
    obtain ⟨q, hq, hstep⟩ := Option.bind_eq_some_iff.mp hrun
    obtain ⟨hkept, handled, hhandles⟩ := ih hq
    obtain ⟨more, hmore⟩ := hhandles.step hstep
    exact ⟨hkept.step hstep, _, hmore⟩

/-- A session records exactly after a press. -/
theorem recording_run_iff (signals : List Signal) :
    (∃ s, (Session.idle.run signals).1 = .recording s)
      ↔ ∃ instant, signals.getLast? = some ⟨.pressed, instant⟩ := by
  rcases List.eq_nil_or_concat signals with rfl | ⟨front, ⟨kind, i⟩, rfl⟩
  · simp [Session.run]
  · rw [List.concat_eq_append, Session.run_concat, List.getLast?_concat]
    cases kind <;> cases hsession : (Session.idle.run front).1 <;> simp [Session.step]

/-- A hook that holds its hotkey and whose thread is gone was lost. -/
theorem Holds.isLost (h : r.Holds k) (hended : ¬ r.threads.IsAlive k) : r.IsLost k := by
  unfold Threads.IsAlive at hended
  rw [not_or, not_or] at hended
  rcases h.phase with hphase | hphase | ⟨-, ending, hending, hlacks⟩
  · exact absurd hphase hended.1
  · exact absurd hphase hended.2.1
  · refine ⟨h.held, ending, hending, ?_⟩
    by_contra hne
    exact hended.2.2 (hlacks (by simpa using hne)).2

/-- **When a recording stays open.**  Take any schedule of starts, stops, hooks and the session, with
no hook thread left and every signal handled. The session records exactly when the last signal that
was published is a press, and its hook was lost then: it returned while its hotkey was held, and not
for want of permission. The session events leave a recording open exactly when the session is in it;
so if no hook was lost in this way, every recording was closed. -/
theorem session_of_quiet {hotkey : Hotkey} {capacity : Nat} {turns : List Turn}
    (hrun : (create hotkey capacity).run turns = some r) (hquiet : r.IsQuiet) :
    ((∃ s, r.session = .recording s)
        ↔ ∃ k instant, r.published.getLast? = some (k, ⟨.pressed, instant⟩))
      ∧ (∀ k instant, r.published.getLast? = some (k, ⟨.pressed, instant⟩) → r.IsLost k)
      ∧ (∀ s, r.session = .recording s ↔ Session.OpenSince r.events s)
      ∧ ((∀ k, ¬ r.IsLost k) →
        ∀ s, r.session ≠ .recording s ∧ ¬ Session.OpenSince r.events s) := by
  obtain ⟨hkept, handled, hhandles⟩ := exists_handles hrun
  have hall : r.published.map (·.2) = handled := by
    rw [hhandles.split, hquiet.handled, List.append_nil]
  have hlast : (∃ s, r.session = .recording s)
      ↔ ∃ k instant, r.published.getLast? = some (k, ⟨.pressed, instant⟩) := by
    rw [hhandles.session, recording_run_iff, ← hall, List.getLast?_map]
    constructor
    · rintro ⟨instant, hsignal⟩
      obtain ⟨⟨k, signal⟩, hlast, rfl⟩ := Option.map_eq_some_iff.mp hsignal
      exact ⟨k, instant, hlast⟩
    · rintro ⟨k, instant, hlast⟩
      exact ⟨instant, by rw [hlast]; rfl⟩
  have hlost : ∀ k instant, r.published.getLast? = some (k, ⟨.pressed, instant⟩) → r.IsLost k :=
    fun k instant h => (hkept.holder k instant h).isLost (hquiet.ended k)
  have hopen : ∀ s, r.session = .recording s ↔ Session.OpenSince r.events s := by
    intro s
    rw [hhandles.session, hhandles.events, ← Session.startedAt?_eq_some_iff,
      (Session.recordings_run handled).openSince_iff s]
  refine ⟨hlast, hlost, hopen, ?_⟩
  intro hnone s
  have hidle : r.session ≠ .recording s := by
    intro hrecording
    obtain ⟨k, instant, h⟩ := hlast.mp ⟨s, hrecording⟩
    exact hnone k (hlost k instant h)
  exact ⟨hidle, fun hs => hidle ((hopen s).mpr hs)⟩

/-- When the only start is over and nothing waits, the recorder is quiet. -/
theorem isQuiet_of_one (hnumbered : r.threads.IsNumbered) (htaken : r.threads.taken = 1)
    (hphase : r.threads.phase 0 = .over) (hqueued : r.signals.queued = []) : r.IsQuiet := by
  refine ⟨?_, hqueued⟩
  intro k
  have hgone : r.threads.phase k = .absent ∨ r.threads.phase k = .over := by
    rcases Nat.eq_zero_or_pos k with rfl | hk
    · exact Or.inr hphase
    · exact Or.inl (hnumbered k (by omega))
  unfold Threads.IsAlive
  rcases hgone with hgone | hgone <;> simp [hgone]

/-- The system takes the keyboard away from a hook during a recording: the refusal that follows
closes the recording. -/
theorem session_of_quiet_refused :
    ∃ r, (create .standard 1).run [.start, .spawn 0, .see 0 ⟨true, true, false, false⟩ .epoch,
        .handle, .finish 0 (.error .tapCreation), .refuse 0 .epoch, .clear 0, .handle] = some r
      ∧ r.IsQuiet ∧ (r.watch 0).held = true
      ∧ r.events
        = [.recordingStarted .epoch, .recordingStopped .epoch 0, .permissionRequired .epoch]
      ∧ ¬ ∃ s, r.session = .recording s := by
  have hseen : ((create .standard 1).run [.start, .spawn 0,
      .see 0 ⟨true, true, false, false⟩ .epoch, .handle, .finish 0 (.error .tapCreation),
      .refuse 0 .epoch, .clear 0, .handle]).map
        (fun r => (r.threads.taken, r.threads.phase 0, r.signals.queued, (r.watch 0).held, r.events,
          r.published.getLast?))
      = some (1, .over, [], true, [.recordingStarted .epoch, .recordingStopped .epoch 0,
          .permissionRequired .epoch], some (0, ⟨.permissionDenied, .epoch⟩)) := by
    rfl
  obtain ⟨r, hrun, hseen⟩ := Option.map_eq_some_iff.mp hseen
  simp only [Prod.mk.injEq] at hseen
  obtain ⟨htaken, hphase, hqueued, hheld, hevents, hlast⟩ := hseen
  have hquiet := isQuiet_of_one (exists_handles hrun).1.numbered htaken hphase hqueued
  refine ⟨r, hrun, hquiet, hheld, hevents, ?_⟩
  rw [(session_of_quiet hrun hquiet).1, hlast]
  rintro ⟨k, instant, h⟩
  cases h

/-- **A recording can outlive its hook.**  The listener is stopped while the hotkey is held: the hook
returns and publishes nothing more, and the session records on with nobody to end it. -/
theorem not_closed :
    ¬ ∀ (hotkey : Hotkey) (capacity : Nat) (turns : List Turn) (r : Recorder),
      (create hotkey capacity).run turns = some r → r.IsQuiet →
        ∀ s, r.session ≠ .recording s ∧ ¬ Session.OpenSince r.events s := by
  intro h
  have hseen : ((create .standard 1).run [.start, .spawn 0,
      .see 0 ⟨true, true, false, false⟩ .epoch, .stop, .poll 0, .finish 0 (.ok ()), .clear 0,
      .handle]).map
        (fun r => (r.threads.taken, r.threads.phase 0, r.signals.queued, r.session))
      = some (1, .over, [], .recording .epoch) := by
    decide
  obtain ⟨r, hrun, hseen⟩ := Option.map_eq_some_iff.mp hseen
  simp only [Prod.mk.injEq] at hseen
  obtain ⟨htaken, hphase, hqueued, hsession⟩ := hseen
  have hquiet := isQuiet_of_one (exists_handles hrun).1.numbered htaken hphase hqueued
  exact (h _ _ _ r hrun hquiet .epoch).1 hsession

end Recorder

end HoldToRecord.Hook
