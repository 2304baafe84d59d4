import Mathlib.Tactic
import HoldToRecord.Hook.Threads
import HoldToRecord.Proofs.Session.Trace

/-!
# When hook threads overlap

A stop does not wait for the hook to end, so a start may take the flag while an earlier hook goes on.
Then two hooks are there at once, and the thread of the earlier one may clear the flag of the later
one (`not_alone_and_kept`). If no start takes the flag before all earlier threads are gone, neither
happens, and the condition is exact (`threads_run`). What `Listener` runs is one of the schedules in
which every start waits in this way (`exists_patient_run`).
-/

namespace HoldToRecord.Hook

namespace Threads

variable {s t : Threads} {m : Move} {k : Nat}

/-! ## Phases -/

@[simp] theorem phase_set_self (s : Threads) (k : Nat) (p : Phase) : (s.set k p).phase k = p :=
  if_pos rfl

theorem phase_set_of_ne (s : Threads) {j k : Nat} (p : Phase) (h : j ≠ k) :
    (s.set k p).phase j = s.phase j :=
  if_neg h

/-- A start is under way in four of the phases. -/
theorem isUnderWay_iff : s.IsUnderWay k ↔ s.phase k ≠ .absent ∧ s.phase k ≠ .over := by
  unfold IsUnderWay IsAlive
  cases s.phase k <;> simp

/-! ## Runs -/

/-- Runs follow one another. -/
theorem run_append (s : Threads) (ms ns : List Move) :
    s.run (ms ++ ns) = (s.run ms).bind fun s => s.run ns := by
  induction ms generalizing s with
  | nil => rfl
  | cons m ms ih =>
    rw [List.cons_append, run, run, Option.bind_assoc]
    exact congrArg _ (funext ih)

/-- A run ends with a step. -/
theorem run_concat_eq_some {ms : List Move} {u : Threads} :
    s.run (ms ++ [m]) = some u ↔ ∃ t, s.run ms = some t ∧ t.step m = some u := by
  rw [run_append, Option.bind_eq_some_iff]
  simp [run]

/-! ## What a move can do -/

/-- A start that finds the flag free takes it. -/
theorem step_start (hflag : s.flag = false) : s.step .start = some s.take := by
  rw [step, hflag]
  rfl

@[simp] theorem phase_take_self (s : Threads) : s.take.phase s.taken = .starting :=
  phase_set_self s s.taken .starting

/-- It is the only one that moves. -/
theorem phase_take_of_ne (hk : k ≠ s.taken) : s.take.phase k = s.phase k :=
  phase_set_of_ne s _ hk

/-- What becomes of the threads by a move: a start finds the flag taken or takes it, a stop clears it,
a hook that finds the flag set goes on, and all else takes one start from one phase to a later one,
which may clear the flag if it is the last. -/
inductive Changes (s : Threads) : Move → Threads → Prop
  | refuse (hflag : s.flag = true) : Changes s .start s
  | take (hflag : s.flag = false) : Changes s .start s.take
  | stop : Changes s .stop { s with flag := false }
  | look {k : Nat} (hflag : s.flag = true) : Changes s (.poll k) s
  | advance {m : Move} {k : Nat} {p : Phase}
      (hk : s.phase k = .starting ∨ s.phase k = .polling ∨ s.phase k = .leaving)
      (hp : p = .polling ∨ p = .returned ∨ p = .leaving ∧ s.flag = false) :
    Changes s m (s.set k p)
  | finish {m : Move} {k : Nat} (hk : s.phase k = .starting ∨ s.phase k = .returned) :
    Changes s m (s.release k)

/-- A party that makes a move can make it, and it has the effect of the move. -/
theorem guard_of_step {p : Prop} [Decidable p] {u : Threads}
    (h : (if p then some u else none) = some t) : p ∧ u = t := by
  simpa using h

/-- A move does nothing else. -/
theorem changes_of_step (h : s.step m = some t) : s.Changes m t := by
  cases m with
  | start =>
    obtain rfl := Option.some.inj h
    split
    · next hflag => exact .refuse hflag
    · next hflag => exact .take (by simpa using hflag)
  | stop =>
    obtain rfl := Option.some.inj h
    exact .stop
  | poll k =>
    obtain ⟨hk, rfl⟩ := guard_of_step h
    split
    · next hflag => exact .look hflag
    · next hflag => exact .advance (Or.inr (Or.inl hk)) (Or.inr (Or.inr ⟨rfl, by simpa using hflag⟩))
  | spawn k =>
    obtain ⟨hk, rfl⟩ := guard_of_step h
    exact .advance (Or.inl hk) (Or.inl rfl)
  | quit k =>
    obtain ⟨hk, rfl⟩ := guard_of_step h
    exact .advance (Or.inr (Or.inl hk)) (Or.inr (Or.inl rfl))
  | leave k =>
    obtain ⟨hk, rfl⟩ := guard_of_step h
    exact .advance (Or.inr (Or.inr hk)) (Or.inr (Or.inl rfl))
  | abort k =>
    obtain ⟨hk, rfl⟩ := guard_of_step h
    exact .finish (Or.inl hk)
  | clear k =>
    obtain ⟨hk, rfl⟩ := guard_of_step h
    exact .finish (Or.inr hk)

/-- No number is given to a start before it takes the flag. -/
def IsNumbered (s : Threads) : Prop := ∀ k, s.taken ≤ k → s.phase k = .absent

theorem isNumbered_create : create.IsNumbered := fun _ _ => rfl

/-- Numbers stay in order. -/
theorem IsNumbered.step (hs : s.IsNumbered) (h : s.step m = some t) : t.IsNumbered := by
  -- a start that moves on has its number
  have hset : ∀ {k p}, s.phase k ≠ .absent → (s.set k p).IsNumbered := by
    intro k p hk j hj
    rw [phase_set_of_ne s p (by rintro rfl; exact hk (hs _ hj))]
    exact hs j hj
  cases changes_of_step h with
  | refuse => exact hs
  | take hflag =>
    intro j hj
    have hj : s.taken + 1 ≤ j := hj
    rw [phase_take_of_ne (by omega)]
    exact hs j (by omega)
  | stop => exact hs
  | look => exact hs
  | advance hk hp => exact hset (by rcases hk with hk | hk | hk <;> simp [hk])
  | finish hk => exact hset (by rcases hk with hk | hk <;> simp [hk])

/-- Only a start that finds the flag free brings one under way. -/
theorem underWay_of_step (h : s.step m = some t) (hk : t.IsUnderWay k) :
    s.IsUnderWay k ∨ m = .start ∧ s.flag = false ∧ k = s.taken := by
  have hset : ∀ {j p}, s.IsUnderWay j → (s.set j p).IsUnderWay k → s.IsUnderWay k := by
    intro j p hj hk
    by_cases hjk : k = j
    · rw [hjk]
      exact hj
    · rw [isUnderWay_iff, phase_set_of_ne s p hjk] at hk
      exact isUnderWay_iff.mpr hk
  cases changes_of_step h with
  | refuse => exact Or.inl hk
  | take hflag =>
    by_cases hjk : k = s.taken
    · exact Or.inr ⟨rfl, hflag, hjk⟩
    · rw [isUnderWay_iff, phase_take_of_ne hjk] at hk
      exact Or.inl (isUnderWay_iff.mpr hk)
  | stop => exact Or.inl hk
  | look => exact Or.inl hk
  | advance hj hp =>
    exact Or.inl (hset (isUnderWay_iff.mpr (by rcases hj with hj | hj | hj <;> simp [hj])) hk)
  | finish hj =>
    exact Or.inl (hset (isUnderWay_iff.mpr (by rcases hj with hj | hj <;> simp [hj])) hk)

/-! ## One start at a time -/

/-- At most one start is under way, so at most one hook thread is there. -/
def Alone (s : Threads) : Prop := ∀ j k, s.IsUnderWay j → s.IsUnderWay k → j = k

/-- Every start that takes the flag does so when the threads of all earlier ones are gone. -/
def Patient (ms : List Move) : Prop :=
  ∀ before later, ms = before ++ .start :: later →
    ∀ s, create.run before = some s → s.flag = false → ∀ k, ¬ s.IsUnderWay k

/-- Along a run of moves at most one start is under way. -/
def AloneAlong (ms : List Move) : Prop :=
  ∀ before later, ms = before ++ later → ∀ s, create.run before = some s → s.Alone

/-- A start more has to wait as well. -/
theorem patient_concat {ms : List Move} :
    Patient (ms ++ [m]) ↔ Patient ms
      ∧ (m = .start → ∀ s, create.run ms = some s → s.flag = false → ∀ k, ¬ s.IsUnderWay k) := by
  constructor
  · intro h
    refine ⟨?_, ?_⟩
    · rintro before later rfl
      exact h before (later ++ [m]) (by simp)
    · rintro rfl
      exact h ms [] rfl
  · rintro ⟨h, hm⟩ before later heq
    rcases concat_eq_append_cons heq with ⟨rfl, rfl, rfl⟩ | ⟨rest, -, hms⟩
    · exact hm rfl
    · exact h before rest hms

/-- A move more leaves one at most. -/
theorem aloneAlong_concat {ms : List Move} (hs : create.run ms = some s)
    (ht : s.step m = some t) : AloneAlong (ms ++ [m]) ↔ AloneAlong ms ∧ t.Alone := by
  have hrun : create.run (ms ++ [m]) = some t := run_concat_eq_some.mpr ⟨s, hs, ht⟩
  constructor
  · intro h
    refine ⟨?_, h (ms ++ [m]) [] (by simp) t hrun⟩
    rintro before later rfl
    exact h before (later ++ [m]) (by simp)
  · rintro ⟨h, halone⟩ before later heq u hu
    rcases List.eq_nil_or_concat' later with rfl | ⟨rest, x, rfl⟩
    · rw [List.append_nil] at heq
      rw [← heq, hrun] at hu
      exact Option.some.inj hu ▸ halone
    · rw [← List.append_assoc] at heq
      exact h before rest (List.append_inj_left' heq rfl) u hu

/-- A move leaves one start under way at most exactly if it is none that takes the flag beside
another one. -/
theorem alone_step_iff (hnumbered : s.IsNumbered) (halone : s.Alone) (h : s.step m = some t) :
    t.Alone ↔ (m = .start → s.flag = false → ∀ k, ¬ s.IsUnderWay k) := by
  constructor
  · rintro ht rfl hflag k hk
    have hne : k ≠ s.taken := by
      rintro rfl
      exact (isUnderWay_iff.mp hk).1 (hnumbered _ (Nat.le_refl _))
    obtain rfl := Option.some.inj ((step_start hflag).symm.trans h)
    -- the new start is under way beside the other one
    refine hne (ht k s.taken ?_ ?_)
    · rw [isUnderWay_iff] at hk ⊢
      rwa [phase_take_of_ne hne]
    · exact Or.inl s.phase_take_self
  · intro hwait j k hj hk
    rcases underWay_of_step h hj with hj | ⟨rfl, hflag, rfl⟩
    · rcases underWay_of_step h hk with hk | ⟨rfl, hflag, rfl⟩
      · exact halone j k hj hk
      · exact absurd hj (hwait rfl hflag j)
    · rcases underWay_of_step h hk with hk | ⟨-, -, rfl⟩
      · exact absurd hk (hwait rfl hflag k)
      · rfl

/-- Every run numbers its starts. -/
theorem isNumbered_run {ms : List Move} (h : create.run ms = some s) : s.IsNumbered := by
  induction ms using List.reverseRecOn generalizing s with
  | nil => exact Option.some.inj h ▸ isNumbered_create
  | append_singleton ms m ih =>
    obtain ⟨t, ht, hstep⟩ := run_concat_eq_some.mp h
    exact (ih ht).step hstep

/-- One start at a time is under way exactly if every start that takes the flag has waited. -/
theorem patient_iff_aloneAlong {ms : List Move} (h : create.run ms = some s) :
    Patient ms ↔ AloneAlong ms := by
  induction ms using List.reverseRecOn generalizing s with
  | nil =>
    refine ⟨fun _ before later heq t ht => ?_, fun _ before later heq => by simp at heq⟩
    obtain ⟨rfl, rfl⟩ := List.append_eq_nil_iff.mp heq.symm
    obtain rfl := Option.some.inj ht
    exact fun j k hj => absurd rfl (isUnderWay_iff.mp hj).1
  | append_singleton ms m ih =>
    obtain ⟨t, ht, hstep⟩ := run_concat_eq_some.mp h
    rw [patient_concat, aloneAlong_concat ht hstep, ih ht]
    refine and_congr_right fun halong => ?_
    rw [alone_step_iff (isNumbered_run ht) (halong ms [] (by simp) t ht) hstep]
    simp [ht]

/-! ## The flag of a start -/

/-- The hook of a start goes on and finds the flag set, alone; or it has returned, or never came. -/
def Keeps (s : Threads) (k : Nat) : Prop :=
  ((s.phase k = .starting ∨ s.phase k = .polling) ∧ s.flag = true ∧ s.Alone)
    ∨ s.phase k = .returned ∨ s.phase k = .over

/-- A start whose hook has returned comes to its end and to nothing else. -/
theorem ended_of_step (hk : s.phase k = .returned ∨ s.phase k = .over) (hnumbered : s.IsNumbered)
    (h : s.step m = some t) : t.phase k = .returned ∨ t.phase k = .over := by
  have hne : s.phase k ≠ .absent := by rcases hk with hk | hk <;> simp [hk]
  have hother : ∀ {j p}, j ≠ k → (s.set j p).phase k = .returned ∨ (s.set j p).phase k = .over := by
    intro j p hj
    rwa [phase_set_of_ne s p hj.symm]
  cases changes_of_step h with
  | refuse => exact hk
  | take hfree => exact hother fun hj => hne (hnumbered k (le_of_eq hj))
  | stop => exact hk
  | look => exact hk
  | @advance m j p hj hp =>
    refine hother ?_
    rintro rfl
    rcases hk with hk | hk <;> simp [hk] at hj
  | @finish m j hj =>
    by_cases hjk : j = k
    · subst hjk
      exact Or.inr (phase_set_self s j .over)
    · exact hother hjk

/-- Unless a stop comes, that stays so. -/
theorem Keeps.step (hs : s.Keeps k) (hnumbered : s.IsNumbered) (hstop : m ≠ .stop)
    (h : s.step m = some t) : t.Keeps k := by
  rcases hs with ⟨hk, hflag, halone⟩ | hk
  · have hunder : s.IsUnderWay k := isUnderWay_iff.mpr (by rcases hk with hk | hk <;> simp [hk])
    have halone' : t.Alone := (alone_step_iff hnumbered halone h).mpr (by simp [hflag])
    cases changes_of_step h with
    | refuse => exact Or.inl ⟨hk, hflag, halone⟩
    | take hfree => simp [hflag] at hfree
    | stop => exact absurd rfl hstop
    | look => exact Or.inl ⟨hk, hflag, halone⟩
    | @advance m j p hj hp =>
      -- no other start can move
      obtain rfl : j = k :=
        halone j k (isUnderWay_iff.mpr (by rcases hj with hj | hj | hj <;> simp [hj])) hunder
      rcases hp with rfl | rfl | ⟨-, hfree⟩
      · exact Or.inl ⟨Or.inr (phase_set_self ..), hflag, halone'⟩
      · exact Or.inr (Or.inl (phase_set_self ..))
      · simp [hflag] at hfree
    | @finish m j hj =>
      obtain rfl : j = k :=
        halone j k (isUnderWay_iff.mpr (by rcases hj with hj | hj <;> simp [hj])) hunder
      exact Or.inr (Or.inr (phase_set_self s j .over))
  · exact Or.inr (ended_of_step hk hnumbered h)

/-- So it does along any moves. -/
theorem Keeps.run {ms : List Move} (hs : s.Keeps k) (hnumbered : s.IsNumbered)
    (hstop : .stop ∉ ms) (h : s.run ms = some t) : t.Keeps k := by
  induction ms generalizing s with
  | nil => exact Option.some.inj h ▸ hs
  | cons m ms ih =>
    rw [Threads.run, Option.bind_eq_some_iff] at h
    obtain ⟨u, hu, h⟩ := h
    rw [List.mem_cons, not_or] at hstop
    exact ih (hs.step hnumbered (Ne.symm hstop.1) hu) (hnumbered.step hu) hstop.2 h

/-- After a start has taken the flag alone, the flag is set until a stop comes or its hook has
returned. -/
theorem keeps_run {later : List Move} (hnumbered : s.IsNumbered) (hflag : s.flag = false)
    (hgone : ∀ k, ¬ s.IsUnderWay k) (hstop : .stop ∉ later)
    (h : s.run (.start :: later) = some t) : t.Keeps s.taken := by
  have halone : s.Alone := fun j _ hj => absurd hj (hgone j)
  have hstart := step_start hflag
  have halone' : s.take.Alone := (alone_step_iff hnumbered halone hstart).mpr fun _ _ => hgone
  have hkeeps : s.take.Keeps s.taken :=
    Or.inl ⟨Or.inl s.phase_take_self, rfl, halone'⟩
  rw [run, hstart, Option.bind_some] at h
  exact hkeeps.run (hnumbered.step hstart) hstop h

/-- The thread of a start that is under way can come to its end, and clears the flag. -/
theorem exists_end (hk : s.IsUnderWay k) :
    ∃ ms t, .stop ∉ ms ∧ s.run ms = some t ∧ t.flag = false ∧ ∀ j, j ≠ k → t.phase j = s.phase j := by
  have returned : ∀ s : Threads, s.phase k = .returned → ∃ ms t, .stop ∉ ms ∧ s.run ms = some t
      ∧ t.flag = false ∧ ∀ j, j ≠ k → t.phase j = s.phase j := fun s hk =>
    ⟨[.clear k], s.release k, by simp, by simp [run, step, hk], rfl,
      fun j hj => phase_set_of_ne s _ hj⟩
  -- one move brings the start from its phase to the next
  have before : ∀ (s : Threads) (m : Move) (p : Phase), m ≠ .stop → s.step m = some (s.set k p) →
      (∃ ms t, .stop ∉ ms ∧ (s.set k p).run ms = some t ∧ t.flag = false
        ∧ ∀ j, j ≠ k → t.phase j = (s.set k p).phase j) →
      ∃ ms t, .stop ∉ ms ∧ s.run ms = some t ∧ t.flag = false
        ∧ ∀ j, j ≠ k → t.phase j = s.phase j := by
    rintro s m p hm hstep ⟨ms, t, hstop, hrun, hflag, hother⟩
    refine ⟨m :: ms, t, ?_, ?_, hflag, fun j hj => ?_⟩
    · rw [List.mem_cons, not_or]
      exact ⟨Ne.symm hm, hstop⟩
    · rw [run, hstep]
      exact hrun
    · rw [hother j hj, phase_set_of_ne s p hj]
  have polling : ∀ s : Threads, s.phase k = .polling → ∃ ms t, .stop ∉ ms ∧ s.run ms = some t
      ∧ t.flag = false ∧ ∀ j, j ≠ k → t.phase j = s.phase j := fun s hk =>
    before s (.quit k) .returned (by simp) (by simp [step, hk]) (returned _ (phase_set_self ..))
  rcases hk with hk | hk | hk | hk
  · exact before s (.spawn k) .polling (by simp) (by simp [step, hk]) (polling _ (phase_set_self ..))
  · exact polling s hk
  · exact before s (.leave k) .returned (by simp) (by simp [step, hk]) (returned _ (phase_set_self ..))
  · exact returned s hk

/-- A start that takes the flag beside another one can lose it though no stop comes and its hook goes
on: the other thread ends. -/
theorem exists_lost (hnumbered : s.IsNumbered) (hflag : s.flag = false) (hk : s.IsUnderWay k) :
    ∃ later t, .stop ∉ later ∧ s.run (.start :: later) = some t
      ∧ t.phase s.taken = .polling ∧ t.flag = false := by
  have hne : k ≠ s.taken := by
    rintro rfl
    exact (isUnderWay_iff.mp hk).1 (hnumbered _ (Nat.le_refl _))
  have hspawn : s.take.step (.spawn s.taken) = some (s.take.set s.taken .polling) := by
    rw [step, if_pos s.phase_take_self]
  have hother : (s.take.set s.taken .polling).IsUnderWay k := by
    rw [isUnderWay_iff] at hk ⊢
    rwa [phase_set_of_ne _ _ hne, phase_take_of_ne hne]
  obtain ⟨ms, t, hstop, hrun, hfree, hsame⟩ := exists_end hother
  refine ⟨.spawn s.taken :: ms, t, ?_, ?_, ?_, hfree⟩
  · simpa using hstop
  · rw [run, step_start hflag, Option.bind_some, run, hspawn]
    exact hrun
  · rw [hsame s.taken hne.symm, phase_set_self]

/-- **Starts that wait.**  Along a run at most one start is under way exactly if every start that takes
the flag does so when all earlier threads are gone. A start keeps the flag until a stop comes or its
hook has returned, whatever else is done, exactly if no other one is under way when it takes it. -/
theorem threads_run {ms : List Move} (h : create.run ms = some s) :
    (Patient ms ↔ AloneAlong ms)
      ∧ (s.flag = false →
        ((∀ k, ¬ s.IsUnderWay k) ↔ ∀ later t, .stop ∉ later → s.run (.start :: later) = some t →
          t.phase s.taken = .returned ∨ t.phase s.taken = .over ∨ t.flag = true)) := by
  have hnumbered := isNumbered_run h
  refine ⟨patient_iff_aloneAlong h, fun hflag => ⟨fun hgone later t hstop hrun => ?_, ?_⟩⟩
  · rcases keeps_run hnumbered hflag hgone hstop hrun with ⟨-, hset, -⟩ | hk | hk
    · exact Or.inr (Or.inr hset)
    · exact Or.inl hk
    · exact Or.inr (Or.inl hk)
  · intro hkeeps k hk
    obtain ⟨later, t, hstop, hrun, hphase, hfree⟩ := exists_lost hnumbered hflag hk
    have := hkeeps later t hstop hrun
    simp [hphase, hfree] at this

/-- After a start and a stop the hook may go on, so another start could lose the flag. -/
theorem threads_run_restart :
    ∃ s, create.run [.start, .spawn 0, .stop] = some s ∧ s.flag = false ∧ s.IsUnderWay 0
      ∧ ¬ ∀ later t, .stop ∉ later → s.run (.start :: later) = some t →
        t.phase s.taken = .returned ∨ t.phase s.taken = .over ∨ t.flag = true := by
  refine ⟨_, rfl, rfl, Or.inr (Or.inl rfl), fun hkeeps => ?_⟩
  have hrun : create.run [.start, .spawn 0, .stop] = some _ := rfl
  exact ((threads_run hrun).2 rfl).mpr hkeeps 0 (Or.inr (Or.inl rfl))

/-- Two hooks can be there at once: a start, a stop, and another start before the first hook has looked
at the flag. And a start can lose the flag though no stop comes and its hook goes on: the first hook
has seen the flag cleared and ends after the second start. -/
theorem not_alone_and_kept :
    (¬ ∀ ms s, create.run ms = some s → ∀ j k, s.IsAlive j → s.IsAlive k → j = k)
      ∧ ¬ ∀ before s later t, create.run before = some s → s.flag = false → .stop ∉ later →
        s.run (.start :: .spawn s.taken :: later) = some t → t.phase s.taken = .polling →
          t.flag = true := by
  constructor
  · intro h
    have := h [.start, .spawn 0, .stop, .start, .spawn 1] _ rfl 0 1 (Or.inl rfl) (Or.inl rfl)
    simp at this
  · intro h
    have := h [.start, .spawn 0, .stop, .poll 0] _ [.leave 0, .clear 0] _ rfl rfl (by simp) rfl rfl
    simp [release] at this

end Threads

/-! ## The schedule that a listener runs -/

namespace Listener

/-- What a listener is asked for: a start, with what the check of permission says and what the platform
does, or a stop. -/
inductive Call
  | start (check : Ending) (plan : Plan)
  | stop

/-- A listener after a call. -/
def call (l : Listener) : Call → Listener
  | .start check plan => (l.start check plan).2
  | .stop => l.stop

/-- What a call does to the flag first. -/
def Call.move : Call → Move
  | .start _ _ => .start
  | .stop => .stop

/-- Making room keeps the flag and the hook. -/
theorem makeRoom_eq (l : Listener) :
    l.makeRoom.running = l.running ∧ l.makeRoom.waiting = l.waiting := by
  unfold makeRoom receiveAll
  split_ifs <;> exact ⟨rfl, rfl⟩

/-- So does publishing. -/
theorem publish_eq (l : Listener) (kind : SignalKind) :
    (l.publish kind).2.running = l.running ∧ (l.publish kind).2.waiting = l.waiting := by
  unfold publish
  split <;> exact l.makeRoom_eq

/-- So does the run of a hook over its snapshots. -/
theorem deliver_eq (l : Listener) (w : Hotkey.Watch) (snapshots : List Hotkey.Modifiers) :
    (l.deliver w snapshots).2.running = l.running
      ∧ (l.deliver w snapshots).2.waiting = l.waiting := by
  induction snapshots generalizing l w with
  | nil => exact ⟨rfl, rfl⟩
  | cons snapshot rest ih =>
    rw [deliver]
    split
    · exact ih l _
    · next edge w' hsee =>
      have hpublish := l.publish_eq (Publisher.kindOf edge)
      split
      · next l' heq =>
        rw [heq] at hpublish
        exact ⟨(ih l' w').1.trans hpublish.1, (ih l' w').2.trans hpublish.2⟩
      · next fault l' heq =>
        rw [heq] at hpublish
        exact hpublish

/-- A hook that ends clears the flag. -/
theorem finish_eq (l : Listener) (ending : Ending) :
    (l.finish ending).running = false ∧ (l.finish ending).waiting = none := by
  unfold finish
  split <;> exact ⟨rfl, rfl⟩

/-- A hook that has run either waits, and the flag is as it was, or is at its end. -/
theorem runHook_cases (l : Listener) (plan : Plan) :
    (l.runHook plan).running = l.running ∧ (l.runHook plan).waiting.isSome = true
      ∨ (l.runHook plan).running = false ∧ (l.runHook plan).waiting = none := by
  unfold runHook
  have hdeliver := l.deliver_eq (.start l.hotkey) plan.snapshots
  split
  · exact Or.inr (finish_eq ..)
  · next l' heq =>
    rw [heq] at hdeliver
    split_ifs
    · exact Or.inl ⟨hdeliver.1, rfl⟩
    · exact Or.inr (finish_eq ..)

end Listener

namespace Threads

/-- The threads are as a listener shows them between two calls: the flag is set while a hook waits
for it, and no other start is under way. -/
structure Shows (s : Threads) (l : Listener) : Prop where
  flag : s.flag = l.running
  running : l.running = l.waiting.isSome
  gone : l.waiting = none → ∀ k, ¬ s.IsUnderWay k
  hook : l.waiting.isSome = true → ∃ k, s.phase k = .polling ∧ ∀ j, s.IsUnderWay j → j = k

section Calls

variable {s : Threads} {k : Nat} {l : Listener}

/-- If only one start is under way, so it is when that one comes to another phase. -/
theorem only_set (h : ∀ j, s.IsUnderWay j → j = k) (p : Phase) :
    ∀ j, (s.set k p).IsUnderWay j → j = k := by
  intro j hj
  by_contra hne
  rw [isUnderWay_iff, phase_set_of_ne s p hne] at hj
  exact hne (h j (isUnderWay_iff.mpr hj))

/-- When it is over, none is under way. -/
theorem gone_release (h : ∀ j, s.IsUnderWay j → j = k) : ∀ j, ¬ (s.release k).IsUnderWay j := by
  intro j hj
  have hover : (s.release k).phase k = .over := phase_set_self s k .over
  obtain rfl := only_set h .over j hj
  exact (isUnderWay_iff.mp hj).2 hover

/-- If none is under way, the next start is the only one. -/
theorem only_take (h : ∀ j, ¬ s.IsUnderWay j) : ∀ j, s.take.IsUnderWay j → j = s.taken := by
  intro j hj
  by_contra hne
  rw [isUnderWay_iff, phase_take_of_ne hne] at hj
  exact h j (isUnderWay_iff.mpr hj)

/-- A start that finds no other one under way, from when it takes the flag to what it comes to. -/
theorem exists_run_start (hflag : s.flag = false) (hgone : ∀ j, ¬ s.IsUnderWay j) :
    (∃ t, s.run [.start, .abort s.taken] = some t ∧ t.flag = false ∧ ∀ j, ¬ t.IsUnderWay j)
      ∧ (∃ t, s.run [.start, .spawn s.taken] = some t ∧ t.flag = true
        ∧ t.phase s.taken = .polling ∧ ∀ j, t.IsUnderWay j → j = s.taken)
      ∧ ∃ t, s.run [.start, .spawn s.taken, .quit s.taken, .clear s.taken] = some t
        ∧ t.flag = false ∧ ∀ j, ¬ t.IsUnderWay j := by
  have honly := only_take hgone
  have hpolling := only_set honly .polling
  refine ⟨⟨s.take.release s.taken, ?_, rfl, gone_release honly⟩,
    ⟨s.take.set s.taken .polling, ?_, rfl, phase_set_self .., hpolling⟩,
    ⟨((s.take.set s.taken .polling).set s.taken .returned).release s.taken, ?_, rfl,
      gone_release (only_set hpolling .returned)⟩⟩
  · simp [run, step, hflag]
  · simp [run, step, hflag]
  · simp [run, step, hflag]

/-- A stop that the only hook under way sees. -/
theorem exists_run_stop (hk : s.phase k = .polling) (honly : ∀ j, s.IsUnderWay j → j = k) :
    ∃ t, s.run [.stop, .poll k, .leave k, .clear k] = some t ∧ t.flag = false
      ∧ ∀ j, ¬ t.IsUnderWay j := by
  have honly' : ∀ j, ({ s with flag := false } : Threads).IsUnderWay j → j = k := honly
  refine ⟨((({ s with flag := false } : Threads).set k .leaving).set k .returned).release k, ?_,
    rfl, gone_release (only_set (only_set honly' .leaving) .returned)⟩
  simp [run, step, hk]

/-- Nothing is under way in a listener that is not running. -/
theorem shows_idle (hflag : s.flag = false) (hgone : ∀ j, ¬ s.IsUnderWay j)
    (hl : l.running = false ∧ l.waiting = none) : s.Shows l where
  flag := hflag.trans hl.1.symm
  running := by rw [hl.1, hl.2]; rfl
  gone := fun _ => hgone
  hook := fun h => by simp [hl.2] at h

/-- One hook goes on in a listener whose hook waits. -/
theorem shows_waiting (hflag : s.flag = true) (hk : s.phase k = .polling)
    (honly : ∀ j, s.IsUnderWay j → j = k) (hl : l.running = true ∧ l.waiting.isSome = true) :
    s.Shows l where
  flag := hflag.trans hl.1.symm
  running := by rw [hl.1, hl.2]
  gone := fun h => by simp [h] at hl
  hook := fun _ => ⟨k, hk, honly⟩

/-- In a listener that is not running no hook waits. -/
theorem Shows.waiting_eq_none (h : s.Shows l) (hrunning : l.running = false) :
    l.waiting = none := by
  have hsome := h.running
  rw [hrunning] at hsome
  simpa using hsome.symm

/-- Whether a call begins with a move. -/
def beginsCall : Move → Bool
  | .start => true
  | .stop => true
  | _ => false

/-- A call is one of the schedules: its moves bring the threads to what the listener shows after it,
and after its own start or stop there is none among them. -/
theorem Shows.call (h : s.Shows l) (c : Listener.Call) :
    ∃ ms t, s.run (c.move :: ms) = some t ∧ t.Shows (l.call c)
      ∧ ∀ m ∈ ms, beginsCall m = false := by
  cases c with
  | start check plan =>
    show ∃ ms t, s.run (.start :: ms) = some t ∧ t.Shows (l.start check plan).2 ∧ _
    unfold Listener.start
    split
    · next hrunning =>
      -- the flag is taken, and nothing changes
      refine ⟨[], s, ?_, h, by simp⟩
      simp [run, step, h.flag, hrunning]
    · next hrunning =>
      have hrunning : l.running = false := by simpa using hrunning
      have hnone : l.waiting = none := h.waiting_eq_none hrunning
      obtain ⟨⟨t₁, hrun₁, hflag₁, hgone₁⟩, ⟨t₂, hrun₂, hflag₂, hphase₂, honly₂⟩,
        ⟨t₃, hrun₃, hflag₃, hgone₃⟩⟩ := exists_run_start (h.flag.trans hrunning) (h.gone hnone)
      split
      · rcases Listener.runHook_cases { l with running := true } plan with hl | hl
        · exact ⟨_, t₂, hrun₂, shows_waiting hflag₂ hphase₂ honly₂ hl, by simp [beginsCall]⟩
        · exact ⟨_, t₃, hrun₃, shows_idle hflag₃ hgone₃ hl, by simp [beginsCall]⟩
      · split_ifs
        · exact ⟨_, t₁, hrun₁, shows_idle hflag₁ hgone₁ ⟨hrunning, hnone⟩, by simp [beginsCall]⟩
        · exact ⟨_, t₁, hrun₁, shows_idle hflag₁ hgone₁ ⟨hrunning, hnone⟩, by simp [beginsCall]⟩
  | stop =>
    show ∃ ms t, s.run (.stop :: ms) = some t ∧ t.Shows l.stop ∧ _
    unfold Listener.stop
    split
    · next hnone =>
      exact ⟨[], { s with flag := false }, rfl, shows_idle rfl (h.gone hnone) ⟨rfl, hnone⟩,
        by simp⟩
    · next ending hsome =>
      obtain ⟨k, hk, honly⟩ := h.hook (by rw [hsome]; rfl)
      obtain ⟨t, hrun, hflag, hgone⟩ := exists_run_stop hk honly
      exact ⟨_, t, hrun, shows_idle hflag hgone (Listener.finish_eq ..), by simp [beginsCall]⟩

/-- Moves of which only the first is a start leave a schedule patient if that one waits. -/
theorem Patient.append {ms ns : List Move} {first : Move} (h : Patient ms)
    (hs : create.run ms = some s) (hwait : s.flag = false → ∀ k, ¬ s.IsUnderWay k)
    (hns : ∀ m ∈ ns, m ≠ .start) : Patient (ms ++ first :: ns) := by
  induction ns using List.reverseRecOn with
  | nil =>
    refine patient_concat.mpr ⟨h, ?_⟩
    intro _ t ht
    rw [hs] at ht
    exact Option.some.inj ht ▸ hwait
  | append_singleton ns m ih =>
    have hm : m ≠ .start := hns m (by simp)
    rw [← List.cons_append, ← List.append_assoc, patient_concat]
    exact ⟨ih fun x hx => hns x (List.mem_append_left _ hx), fun heq => absurd heq hm⟩

/-- Moves are a schedule of calls: their starts and stops are those of the calls, every start waits
for the threads before it, and the threads come to what a listener shows. -/
structure Schedules (ms : List Move) (calls : List Listener.Call) (l : Listener) : Prop where
  calls : ms.filter beginsCall = calls.map Listener.Call.move
  patient : Patient ms
  shown : ∃ s, create.run ms = some s ∧ s.Shows l

theorem schedules_create (hotkey : Hotkey) (capacity : Nat) (clock : Nat → Time.Instant) :
    Schedules [] [] (Listener.create hotkey capacity clock) where
  calls := rfl
  patient := fun _ _ heq => by simp at heq
  shown := ⟨create, rfl, shows_idle rfl (fun _ hk => (isUnderWay_iff.mp hk).1 rfl) ⟨rfl, rfl⟩⟩

/-- **One call.** -/
theorem Schedules.call {ms : List Move} {calls : List Listener.Call} (h : Schedules ms calls l)
    (c : Listener.Call) : ∃ ns, Schedules (ms ++ ns) (calls ++ [c]) (l.call c) := by
  obtain ⟨s, hrun, hshows⟩ := h.shown
  obtain ⟨ns, t, hns, hshows', hlater⟩ := hshows.call c
  refine ⟨c.move :: ns, ?_, ?_, t, ?_, hshows'⟩
  · have hfirst : beginsCall c.move = true := by cases c <;> rfl
    have hnone : ns.filter beginsCall = [] :=
      List.filter_eq_nil_iff.mpr fun m hm => by simp [hlater m hm]
    rw [List.filter_append, h.calls, List.filter_cons_of_pos hfirst, hnone, List.map_append]
    rfl
  · apply h.patient.append hrun
    · intro hflag
      exact hshows.gone (hshows.waiting_eq_none (hshows.flag.symm.trans hflag))
    · rintro m hm rfl
      cases hlater _ hm
  · rw [run_append, hrun]
    exact hns

/-- **What a listener runs.**  Calls of a listener, each of which waits until its hook has ended or
only waits for the flag, are a schedule in which every start waits for the threads before it. -/
theorem exists_patient_run (hotkey : Hotkey) (capacity : Nat) (clock : Nat → Time.Instant)
    (calls : List Listener.Call) :
    ∃ ms, Schedules ms calls
      (calls.foldl Listener.call (Listener.create hotkey capacity clock)) := by
  induction calls using List.reverseRecOn with
  | nil => exact ⟨[], schedules_create hotkey capacity clock⟩
  | append_singleton calls c ih =>
    obtain ⟨ms, h⟩ := ih
    obtain ⟨ns, hns⟩ := h.call c
    rw [List.foldl_append]
    exact ⟨ms ++ ns, hns⟩

end Calls

end Threads

end HoldToRecord.Hook
