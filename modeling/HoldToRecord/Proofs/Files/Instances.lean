import HoldToRecord.Files.Instances
import HoldToRecord.Proofs.Files.Sockets
import HoldToRecord.Server

/-!
# Whom the path of several servers leads to

A start removes whatever it finds at the path, and so does a shutdown, whoever created it. So a server
that runs may not be reached any more (`not_kept`): another one that was started at the same path took
it over, or another one that was shut down, for the first time or once more, removed what it found. A
server that runs is reached exactly if nobody has removed anything at the path since it created its
socket's file (`leadsTo_run_iff`). From then on the path leads to one place, and no step of another
server but a removal changes whose socket is there (`Settled.step`). A server whose steps no other one
interrupts does what `Server.create` and `FileTree.release` do (`run_start`, `run_shutdown`).
-/

namespace HoldToRecord.Files

/-- Whether a start has yet to create the socket's file. -/
def Stage.IsEarly : Stage → Prop
  | fresh => True
  | looking => True
  | clearing => True
  | binding => True
  | _ => False

/-- How far a start has come that is over. -/
def Stage.ofResult : Except SocketFault Unit → Stage
  | .ok () => running
  | .error fault => failed fault

namespace Instances

open HoldToRecord.Files.FileTree

/-! ## What a step can do -/

@[simp] theorem stage_set_self (s : Instances) (k : Nat) (stage : Stage) :
    (s.set k stage).stage k = stage := if_pos rfl

theorem stage_set_of_ne (s : Instances) {j k : Nat} (stage : Stage) (hj : j ≠ k) :
    (s.set k stage).stage j = s.stage j := if_neg hj

/-- The stage that a server comes to by a step, and the tree that it leaves. -/
inductive Goes (s : Instances) (k : Nat) : Stage → FileTree → Prop
  | prepare {next : Stage} (hstage : s.stage k = .fresh)
      (hnext : next = .looking ∨ ∃ fault, next = .failed fault) :
    Goes s k next (makeAbove s.path s.tree).2
  | look {next : Stage} (hstage : s.stage k = .looking) (hnext : next = .clearing ∨ next = .binding) :
    Goes s k next s.tree
  | clear {next : Stage} (hstage : s.stage k = .clearing)
      (hnext : next = .binding ∨ ∃ fault, next = .failed fault) :
    Goes s k next (Change.whole (·.remove s.path) s.tree).2
  | bind {t : FileTree} (hstage : s.stage k = .binding)
      (hbind : FileTree.bind k s.path s.tree = .ok t) :
    Goes s k .bound t
  | restrict {t : FileTree} (hstage : s.stage k = .bound)
      (hmode : setMode ownerOnly s.path s.tree = .ok t) :
    Goes s k .running t
  /-- The file cannot be created, or its permission bits cannot be set. -/
  | fail {fault : SocketFault} (hstage : s.stage k = .binding ∨ s.stage k = .bound) :
    Goes s k (.failed fault) s.tree
  | close {next : Stage} (hstage : s.stage k = .closing) (hnext : next = .leaving ∨ next = .gone) :
    Goes s k next s.tree
  | leave (hstage : s.stage k = .leaving) :
    Goes s k .gone (Change.whole (·.remove s.path) s.tree).2
  /-- The start or the shutdown is over. -/
  | rest (hstage : s.stage k = .running ∨ s.stage k = .gone ∨ ∃ fault, s.stage k = .failed fault) :
    Goes s k (s.stage k) s.tree

/-- A part of a start leaves the tree that its change leaves, and moves one server. -/
theorem attempt_eq (s : Instances) (k : Nat) (change : Change SocketFault) (next : Stage) :
    s.attempt k change next
      = { s.set k (match (change s.tree).1 with | .ok () => next | .error fault => .failed fault)
          with tree := (change s.tree).2 } := by
  rw [attempt]
  rcases hchange : change s.tree with ⟨⟨⟩ | ⟨⟩, t⟩ <;> rfl

/-- What a part of a start comes to. -/
theorem exists_attempt (s : Instances) (k : Nat) (change : Change SocketFault) (next : Stage) :
    ∃ stage, (stage = next ∨ ∃ fault, stage = .failed fault)
      ∧ s.attempt k change next = { s.set k stage with tree := (change s.tree).2 } := by
  refine ⟨_, ?_, s.attempt_eq k change next⟩
  split
  · exact Or.inl rfl
  · exact Or.inr ⟨_, rfl⟩

/-- **One step.** -/
theorem proceed_eq (s : Instances) (k : Nat) :
    ∃ stage t, s.Goes k stage t ∧ s.proceed k = { s.set k stage with tree := t } := by
  have hrest : s = { s.set k (s.stage k) with tree := s.tree } := by
    have hset : (s.set k (s.stage k)).stage = s.stage := by
      funext j
      by_cases hj : j = k
      · rw [hj, stage_set_self]
      · exact stage_set_of_ne s _ hj
    show s = ⟨s.path, (s.set k (s.stage k)).stage, s.tree⟩
    rw [hset]
  cases hstage : s.stage k with
  | fresh =>
    rw [proceed, hstage]
    obtain ⟨next, hnext, heq⟩ := s.exists_attempt k ((makeAbove s.path).mapFault .directory) .looking
    exact ⟨next, _, .prepare hstage hnext, heq⟩
  | looking =>
    rw [proceed, hstage]
    exact ⟨_, _, .look hstage (ite_eq_or_eq ..), rfl⟩
  | clearing =>
    rw [proceed, hstage]
    obtain ⟨next, hnext, heq⟩ :=
      s.exists_attempt k ((Change.whole (·.remove s.path)).mapFault .stale) .binding
    exact ⟨next, _, .clear hstage hnext, heq⟩
  | binding =>
    rw [proceed, hstage]
    dsimp only
    rw [attempt_eq, Change.mapFault, Change.whole]
    cases hbind : FileTree.bind k s.path s.tree with
    | ok t => exact ⟨_, _, .bind hstage hbind, rfl⟩
    | error fault => exact ⟨_, _, .fail (Or.inl hstage), rfl⟩
  | bound =>
    rw [proceed, hstage]
    dsimp only
    rw [attempt_eq, Change.mapFault, Change.whole]
    cases hmode : setMode ownerOnly s.path s.tree with
    | ok t => exact ⟨_, _, .restrict hstage hmode, rfl⟩
    | error fault => exact ⟨_, _, .fail (Or.inr hstage), rfl⟩
  | closing =>
    rw [proceed, hstage]
    exact ⟨_, _, .close hstage (ite_eq_or_eq ..), rfl⟩
  | leaving =>
    rw [proceed, hstage]
    exact ⟨_, _, .leave hstage, rfl⟩
  | running =>
    refine ⟨_, _, .rest (Or.inl hstage), ?_⟩
    rw [← hrest, proceed, hstage]
  | gone =>
    refine ⟨_, _, .rest (Or.inr (Or.inl hstage)), ?_⟩
    rw [← hrest, proceed, hstage]
  | failed fault =>
    refine ⟨_, _, .rest (Or.inr (Or.inr ⟨fault, hstage⟩)), ?_⟩
    rw [← hrest, proceed, hstage]

section Goes

variable {s : Instances} {k : Nat} {stage : Stage} {t : FileTree}

/-- To be bound is to have created the socket's file. -/
theorem Goes.of_bound (hgoes : s.Goes k stage t) (h : stage = .bound) :
    s.stage k = .binding ∧ FileTree.bind k s.path s.tree = .ok t ∨ s.stage k = .bound := by
  cases hgoes with
  | bind hbinding hbind => exact Or.inl ⟨hbinding, hbind⟩
  | rest _ => exact Or.inr h
  | prepare _ hnext => rcases hnext with rfl | ⟨fault, rfl⟩ <;> cases h
  | look _ hnext => rcases hnext with rfl | rfl <;> cases h
  | clear _ hnext => rcases hnext with rfl | ⟨fault, rfl⟩ <;> cases h
  | restrict _ _ => cases h
  | fail _ => cases h
  | close _ hnext => rcases hnext with rfl | rfl <;> cases h
  | leave _ => cases h

/-- To run is to have set its permission bits. -/
theorem Goes.of_running (hgoes : s.Goes k stage t) (h : stage = .running) :
    s.stage k = .bound ∧ setMode ownerOnly s.path s.tree = .ok t ∨ s.stage k = .running := by
  cases hgoes with
  | restrict hbound hmode => exact Or.inl ⟨hbound, hmode⟩
  | rest _ => exact Or.inr h
  | prepare _ hnext => rcases hnext with rfl | ⟨fault, rfl⟩ <;> cases h
  | look _ hnext => rcases hnext with rfl | rfl <;> cases h
  | clear _ hnext => rcases hnext with rfl | ⟨fault, rfl⟩ <;> cases h
  | bind _ _ => cases h
  | fail _ => cases h
  | close _ hnext => rcases hnext with rfl | rfl <;> cases h
  | leave _ => cases h

end Goes

/-- A move changes the tree only by a step of a server, and never the path. -/
theorem step_frame (s : Instances) (m : Move) :
    (s.step m).path = s.path ∧ ((s.step m).tree = s.tree ∧ (∀ j, m ≠ .proceed j)
      ∨ ∃ j stage, m = .proceed j ∧ s.Goes j stage (s.step m).tree) := by
  cases m with
  | proceed j =>
    obtain ⟨stage, t, hgoes, heq⟩ := s.proceed_eq j
    rw [step, heq]
    exact ⟨rfl, Or.inr ⟨j, stage, rfl, hgoes⟩⟩
  | shutdown j =>
    rw [step]
    split
    · exact ⟨rfl, Or.inl ⟨rfl, by simp⟩⟩
    · exact ⟨rfl, Or.inl ⟨rfl, by simp⟩⟩

/-- A server stays where it is, is shut down, or takes a step. -/
theorem stage_step_cases (s : Instances) (m : Move) (k : Nat) :
    (s.step m).stage k = s.stage k ∨ (s.step m).stage k = .closing
      ∨ m = .proceed k ∧ ∃ t, s.Goes k ((s.step m).stage k) t := by
  cases m with
  | proceed j =>
    obtain ⟨stage, t, hgoes, heq⟩ := s.proceed_eq j
    rw [step, heq]
    by_cases hj : k = j
    · subst hj
      refine Or.inr (Or.inr ⟨rfl, t, ?_⟩)
      show s.Goes k ((s.set k stage).stage k) t
      rw [stage_set_self]
      exact hgoes
    · exact Or.inl (stage_set_of_ne s stage hj)
  | shutdown j =>
    rw [step]
    split
    · by_cases hj : k = j
      · subst hj
        exact Or.inr (Or.inl (stage_set_self s k .closing))
      · exact Or.inl (stage_set_of_ne s .closing hj)
    · exact Or.inl rfl

/-! ## After the socket's file was created -/

/-- Whether a move removes what was seen at the path: that is a step of a start or of a shutdown. -/
def Removes (s : Instances) : Move → Prop
  | .proceed j => s.stage j = .clearing ∨ s.stage j = .leaving
  | .shutdown _ => False

/-- The path leads to a place, and a server will create no socket there any more. -/
structure Settled (s : Instances) (k : Nat) (place : Place) : Prop where
  leads : Leads s.tree s.path place
  past : ¬ (s.stage k).IsEarly

section Settled

variable {s : Instances} {j k : Nat} {stage : Stage} {t : FileTree} {place : Place}

/-- A start does not go back. -/
theorem Goes.past (hgoes : s.Goes k stage t) (hpast : ¬ (s.stage k).IsEarly) : ¬ stage.IsEarly := by
  have hearly : ∀ early : Stage, early.IsEarly → s.stage k ≠ early := by
    rintro early hearly rfl
    exact hpast hearly
  cases hgoes with
  | prepare hstage _ => exact absurd hstage (hearly _ trivial)
  | look hstage _ => exact absurd hstage (hearly _ trivial)
  | clear hstage _ => exact absurd hstage (hearly _ trivial)
  | bind hstage _ => exact absurd hstage (hearly _ trivial)
  | restrict _ _ => exact id
  | fail _ => exact id
  | close _ hnext => rcases hnext with rfl | rfl <;> exact id
  | leave _ => exact id
  | rest _ => exact hpast

/-- By a step of any server, directories stay, and the socket is still there unless the step is a
removal. -/
theorem Settled.goes (h : s.Settled k place) (hgoes : s.Goes j stage t) :
    KeepsWays s.tree t
      ∧ (Holds t place k
          ↔ Holds s.tree place k ∧ ¬ (s.stage j = .clearing ∨ s.stage j = .leaving)) := by
  cases hgoes with
  | prepare hstage _ =>
    have hgrown := grown_makeAbove s.path s.tree
    refine ⟨hgrown.toKeepsWays, ?_⟩
    simp [Holds, hgrown.socket, hstage]
  | look hstage _ => exact ⟨.refl _, by simp [hstage]⟩
  | clear hstage _ =>
    obtain ⟨hkeeps, hgone⟩ := h.leads.remove (k := k)
    exact ⟨hkeeps, iff_of_false hgone fun hk => hk.2 (Or.inl hstage)⟩
  | bind hstage hbind =>
    have hne : j ≠ k := by
      rintro rfl
      exact h.past (hstage ▸ trivial)
    have hbinds := h.leads.bind hne
    rw [Change.whole, hbind] at hbinds
    exact ⟨hbinds.1, by simp [hbinds.2, hstage]⟩
  | restrict hstage hmode =>
    have hsets := h.leads.setMode (k := k) ownerOnly
    rw [Change.whole, hmode] at hsets
    exact ⟨hsets.1, by simp [hsets.2, hstage]⟩
  | fail hstage => exact ⟨.refl _, by rcases hstage with hstage | hstage <;> simp [hstage]⟩
  | close hstage _ => exact ⟨.refl _, by simp [hstage]⟩
  | leave hstage =>
    obtain ⟨hkeeps, hgone⟩ := h.leads.remove (k := k)
    exact ⟨hkeeps, iff_of_false hgone fun hk => hk.2 (Or.inr hstage)⟩
  | rest hstage =>
    exact ⟨.refl _, by rcases hstage with hstage | hstage | ⟨fault, hstage⟩ <;> simp [hstage]⟩

/-- **One move.** -/
theorem Settled.step (h : s.Settled k place) (m : Move) :
    (s.step m).Settled k place
      ∧ (Holds (s.step m).tree place k ↔ Holds s.tree place k ∧ ¬ s.Removes m) := by
  have hpast : ¬ ((s.step m).stage k).IsEarly := by
    rcases s.stage_step_cases m k with hsame | hclosing | ⟨-, t, hgoes⟩
    · rw [hsame]
      exact h.past
    · rw [hclosing]
      exact id
    · exact hgoes.past h.past
  obtain ⟨hpath, ⟨htree, hno⟩ | ⟨j, stage, rfl, hgoes⟩⟩ := s.step_frame m
  · refine ⟨⟨?_, hpast⟩, ?_⟩
    · rw [hpath, htree]
      exact h.leads
    · have hnot : ¬ s.Removes m := by
        cases m with
        | proceed j => exact absurd rfl (hno j)
        | shutdown j => exact id
      rw [htree]
      exact (and_iff_left hnot).symm
  · obtain ⟨hkeeps, hholds⟩ := h.goes hgoes
    refine ⟨⟨?_, hpast⟩, hholds⟩
    rw [hpath]
    exact h.leads.of_keepsWays hkeeps

/-- **Every run.** -/
theorem Settled.run (h : s.Settled k place) (moves : List Move) :
    (s.run moves).Settled k place
      ∧ (Holds (s.run moves).tree place k
          ↔ Holds s.tree place k
            ∧ ∀ before m after, moves = before ++ m :: after → ¬ (s.run before).Removes m) := by
  induction moves generalizing s with
  | nil => exact ⟨h, by simp [Instances.run]⟩
  | cons m moves ih =>
    obtain ⟨hsettled, hstep⟩ := h.step m
    obtain ⟨hsettled', hrun⟩ := ih hsettled
    refine ⟨hsettled', hrun.trans ?_⟩
    rw [hstep, and_assoc]
    refine and_congr_right fun _ => ?_
    constructor
    · rintro ⟨hfirst, hlater⟩ before m' after heq
      cases before with
      | nil =>
        obtain ⟨rfl, rfl⟩ := List.cons.inj heq
        exact hfirst
      | cons first before =>
        obtain ⟨rfl, rfl⟩ := List.cons.inj heq
        exact hlater before m' after rfl
    · intro hall
      exact ⟨hall [] m moves rfl, fun before m' after heq =>
        hall (m :: before) m' after (congrArg (m :: ·) heq)⟩

end Settled

/-! ## Until the socket's file was created -/

/-- A server creates the socket's file by its next step. -/
def Binds (s : Instances) (k : Nat) : Prop := s.stage k = .binding ∧ (s.proceed k).stage k = .bound

/-- Runs follow one another. -/
theorem run_append (s : Instances) (before after : List Move) :
    s.run (before ++ after) = (s.run before).run after := List.foldl_append

section Binding

variable {s : Instances} {k : Nat} {tree : FileTree} {path : PathName} {moves : List Move} {m : Move}

/-- Then the socket's file is there, and the path is settled. -/
theorem Binds.settled (h : s.Binds k) (hfiled : isUnfiled s.path = false) :
    ∃ place, (s.proceed k).Settled k place ∧ Holds (s.proceed k).tree place k := by
  obtain ⟨hbinding, hbound⟩ := h
  obtain ⟨stage, t, hgoes, heq⟩ := s.proceed_eq k
  have hpast : ¬ ((s.proceed k).stage k).IsEarly := by
    rw [hbound]
    exact id
  have hstage : stage = .bound := by
    rw [← hbound, heq]
    exact (stage_set_self s k stage).symm
  rcases hgoes.of_bound hstage with ⟨-, hbind⟩ | hwas
  · obtain ⟨place, hleads, -, hkeeps, hholds⟩ := leads_of_bind hfiled hbind
    rw [heq] at hpast ⊢
    exact ⟨place, ⟨hleads.of_keepsWays hkeeps, hpast⟩, hholds⟩
  · cases hbinding.symm.trans hwas

/-- A server that is bound or runs was so before, or has just created its socket's file. -/
theorem binds_of_stage_step (h : (s.step m).stage k = .bound ∨ (s.step m).stage k = .running) :
    (s.stage k = .bound ∨ s.stage k = .running) ∨ m = .proceed k ∧ s.Binds k := by
  rcases s.stage_step_cases m k with hsame | hclosing | ⟨rfl, t, hgoes⟩
  · rw [hsame] at h
    exact Or.inl h
  · simp [hclosing] at h
  · rcases h with hbound | hrunning
    · rcases hgoes.of_bound hbound with ⟨hbinding, -⟩ | hwas
      · exact Or.inr ⟨rfl, hbinding, hbound⟩
      · exact Or.inl (Or.inl hwas)
    · rcases hgoes.of_running hrunning with ⟨hbound, -⟩ | hwas
      · exact Or.inl (Or.inl hbound)
      · exact Or.inl (Or.inr hwas)

/-- So there is a step by which it created the file. -/
theorem exists_binds
    (h : ((create path tree).run moves).stage k = .bound
      ∨ ((create path tree).run moves).stage k = .running) :
    ∃ before after, moves = before ++ .proceed k :: after
      ∧ ((create path tree).run before).Binds k := by
  induction moves using List.reverseRecOn with
  | nil => simp [run, create] at h
  | append_singleton moves m ih =>
    rw [run_append] at h
    rcases binds_of_stage_step h with h | ⟨rfl, hbinds⟩
    · obtain ⟨before, after, rfl, hbinds⟩ := ih h
      exact ⟨before, after ++ [m], by simp, hbinds⟩
    · exact ⟨moves, [], rfl, hbinds⟩

/-- The path stays the same. -/
theorem path_run (s : Instances) (moves : List Move) : (s.run moves).path = s.path := by
  induction moves generalizing s with
  | nil => rfl
  | cons m moves ih => exact (ih (s.step m)).trans (s.step_frame m).1

/-- A server that runs could set the permission bits, so its path has a file. -/
theorem isUnfiled_of_running (h : ((create path tree).run moves).stage k = .running) :
    isUnfiled path = false := by
  induction moves using List.reverseRecOn with
  | nil => cases h
  | append_singleton moves m ih =>
    rw [run_append] at h
    have hstep : (((create path tree).run moves).step m).stage k = .running := h
    rcases stage_step_cases _ m k with hsame | hclosing | ⟨-, t, hgoes⟩
    · exact ih (hsame.symm.trans hstep)
    · cases hclosing.symm.trans hstep
    · rcases hgoes.of_running hstep with ⟨-, hmode⟩ | hwas
      · rw [path_run, create] at hmode
        exact isUnfiled_of_setMode hmode
      · exact ih hwas

end Binding

/-! ## One server alone -/

/-- From a stage on, some steps of one server alone make a change, and its start is over. -/
def Performs (path : PathName) (k n : Nat) (stage : Stage) (change : Change SocketFault) : Prop :=
  ∀ s : Instances, s.path = path → s.stage k = stage →
    (s.run (List.replicate n (.proceed k))).tree = (change s.tree).2
      ∧ (s.run (List.replicate n (.proceed k))).stage k = .ofResult (change s.tree).1

section Alone

variable {path : PathName} {k n : Nat} {stage next : Stage} {first second : Change SocketFault}

/-- A start that is over takes no step. -/
theorem run_of_over {s : Instances} {result : Except SocketFault Unit}
    (h : s.stage k = .ofResult result) (n : Nat) : s.run (List.replicate n (.proceed k)) = s := by
  have hstay : s.proceed k = s := by
    rw [proceed, h]
    rcases result with fault | ⟨⟩ <;> rfl
  induction n with
  | zero => rfl
  | succ n ih =>
    rw [List.replicate_succ, run, List.foldl_cons, step, hstay]
    exact ih

/-- So further steps make no difference. -/
theorem Performs.succ (h : Performs path k n stage first) : Performs path k (n + 1) stage first := by
  intro s hpath hstage
  obtain ⟨htree, hresult⟩ := h s hpath hstage
  rw [List.replicate_succ', run_append, ← List.replicate_one, run_of_over hresult]
  exact ⟨htree, hresult⟩

/-- The parts of a start are made one after the other. -/
theorem Performs.andThen (h : Performs path k n next second)
    (hproceed : ∀ s : Instances, s.path = path → s.stage k = stage →
      s.proceed k = s.attempt k first next) :
    Performs path k (n + 1) stage (first.andThen second) := by
  intro s hpath hstage
  rw [List.replicate_succ, run, List.foldl_cons, step, hproceed s hpath hstage, attempt_eq,
    Change.andThen]
  rcases first s.tree with ⟨fault | ⟨⟩, t⟩
  · have hover : ({ s.set k (.failed fault) with tree := t } : Instances).stage k
        = .ofResult (.error fault) := stage_set_self s k _
    have hstay := run_of_over hover n
    rw [run] at hstay
    dsimp only
    rw [hstay]
    exact ⟨rfl, hover⟩
  · exact h { s.set k next with tree := t } hpath (stage_set_self s k next)

/-- The last part is to set the permission bits. -/
theorem performs_bound (path : PathName) (k : Nat) :
    Performs path k 1 .bound ((Change.whole (setMode ownerOnly path)).mapFault .permissions) := by
  rintro s rfl hstage
  have hproceed : s.proceed k = s.attempt k
      ((Change.whole (setMode ownerOnly s.path)).mapFault .permissions) .running := by
    rw [proceed, hstage]
  show (s.proceed k).tree = _ ∧ (s.proceed k).stage k = _
  rw [hproceed, attempt_eq]
  exact ⟨rfl, stage_set_self s k _⟩

/-- To look and then to remove what was seen is to clear the path. -/
theorem performs_looking (h : Performs path k n .binding second) :
    Performs path k (n + 2) .looking
      (((Change.whole (clear path)).mapFault .stale).andThen second) := by
  rintro s rfl hstage
  have hclearing : Performs s.path k (n + 1) .clearing
      (((Change.whole (·.remove s.path)).mapFault .stale).andThen second) := by
    refine h.andThen ?_
    intro s' hpath hstage'
    rw [proceed, hstage', hpath]
  rw [List.replicate_succ, run, List.foldl_cons, step, proceed, hstage]
  dsimp only
  cases hexists : s.tree.exists? s.path with
  | true =>
    rw [if_pos rfl, Change.andThen, Change.mapFault, Change.whole, clear, if_pos hexists]
    exact hclearing (s.set k .clearing) rfl (stage_set_self s k _)
  | false =>
    rw [if_neg Bool.false_ne_true, Change.andThen, Change.mapFault, Change.whole, clear, hexists,
      if_neg Bool.false_ne_true]
    exact h.succ (s.set k .binding) rfl (stage_set_self s k _)

/-- Alone, a server that is started occupies the path. -/
theorem performs_fresh (path : PathName) (k : Nat) :
    Performs path k 5 .fresh (occupy k path) := by
  have hbinding : Performs path k 2 .binding
      (((Change.whole (FileTree.bind k path)).mapFault .bind).andThen
        ((Change.whole (setMode ownerOnly path)).mapFault .permissions)) := by
    refine (performs_bound path k).andThen ?_
    rintro s rfl hstage
    rw [proceed, hstage]
  refine (performs_looking hbinding).andThen ?_
  rintro s rfl hstage
  rw [proceed, hstage]

end Alone

/-- **A start alone.**  If no other server takes a step during the start of a server, it comes to what
`Server.create` comes to. -/
theorem run_start (s : Instances) (k capacity : Nat) (hfresh : s.stage k = .fresh) :
    let started := s.run (List.replicate 5 (.proceed k))
    let (result, t) := Server.create k s.path capacity s.tree
    started.tree = t ∧ (started.stage k = .running ↔ ∃ server, result = .ok server)
      ∧ ∀ fault, started.stage k = .failed fault ↔ result = .error fault := by
  obtain ⟨htree, hstage⟩ := performs_fresh s.path k s rfl hfresh
  dsimp only
  rw [Server.create, htree, hstage]
  rcases occupy k s.path s.tree with ⟨fault | ⟨⟩, t⟩ <;> simp [Stage.ofResult, Except.map]

/-- **A shutdown alone.**  If no other server takes a step meanwhile, whatever stands at the path is
removed; so it is when the server was shut down before. -/
theorem run_shutdown (s : Instances) (k : Nat)
    (hstarted : s.stage k = .running ∨ s.stage k = .gone) :
    let stopped := s.run [.shutdown k, .proceed k, .proceed k]
    stopped.tree = release s.path s.tree ∧ stopped.stage k = .gone := by
  have hclosing : s.step (.shutdown k) = s.set k .closing := by
    rw [step, if_pos hstarted]
  simp only [run, List.foldl_cons, List.foldl_nil, hclosing, release, Change.whole, clear]
  cases hexists : s.tree.exists? s.path with
  | true => simp [step, proceed, hexists, Change.whole, set]
  | false => simp [step, proceed, hexists, set]

/-- A client that connects reaches a server if the path leads to it. -/
theorem isReachable_iff (s : Instances) (server : Server) (hpath : server.path = s.path) :
    server.isReachable s.tree = true ↔ s.LeadsTo server.number := by
  rw [Server.isReachable, hpath, LeadsTo]
  cases s.tree.socketAt? s.path with
  | none => simp
  | some socket =>
    obtain ⟨owner, mode⟩ := socket
    simp

/-! ## Who is reached -/

/-- While the path leads to a server, whoever looks at it will remove what is there. -/
theorem LeadsTo.looks {s : Instances} {j k : Nat} (h : s.LeadsTo k) :
    (s.stage j = .looking → (s.proceed j).stage j = .clearing)
      ∧ (s.stage j = .closing → (s.proceed j).stage j = .leaving) := by
  have hexists : s.tree.exists? s.path = true := by
    obtain ⟨mode, hsocket⟩ := h
    rw [FileTree.exists?]
    rw [FileTree.socketAt?] at hsocket
    cases hfind : s.tree.find s.path with
    | ok found => rfl
    | error fault =>
      rw [hfind] at hsocket
      cases hsocket
  constructor
  · intro hstage
    rw [proceed, hstage]
    simp [hexists]
  · intro hstage
    rw [proceed, hstage]
    simp [hexists]

/-- **Who is reached.**  Servers are started and shut down at one path, on any file tree, and their
steps come in any order. The path leads to a server that runs exactly if nobody has removed what was
seen there since that server created its socket's file. And everybody who looks at the path while it
leads to that server, to start or to shut down another one, goes on to remove the file. -/
theorem leadsTo_run_iff (path : PathName) (tree : FileTree) (moves : List Move) (k : Nat) :
    let s := (create path tree).run moves
    s.stage k = .running →
      (s.LeadsTo k ↔ ∃ before after, moves = before ++ .proceed k :: after
          ∧ ((create path tree).run before).Binds k
          ∧ ∀ mid m rest, after = mid ++ m :: rest →
              ¬ ((create path tree).run (before ++ .proceed k :: mid)).Removes m)
        ∧ (s.LeadsTo k → ∀ j, (s.stage j = .looking → (s.proceed j).stage j = .clearing)
            ∧ (s.stage j = .closing → (s.proceed j).stage j = .leaving)) := by
  intro s hrunning
  have hfiled : isUnfiled path = false := isUnfiled_of_running hrunning
  have hsplit : ∀ before after, moves = before ++ .proceed k :: after →
      ((create path tree).run before).Binds k →
      (s.LeadsTo k ↔ ∀ mid m rest, after = mid ++ m :: rest →
        ¬ ((create path tree).run (before ++ .proceed k :: mid)).Removes m) := by
    rintro before after rfl hbinds
    obtain ⟨place, hsettled, hholds⟩ := hbinds.settled (by rwa [path_run])
    obtain ⟨hsettled', hrun⟩ := hsettled.run after
    have hs : s = (((create path tree).run before).proceed k).run after := run_append ..
    have hleads : s.LeadsTo k ↔ Holds s.tree place k := by
      rw [hs]
      exact exists_congr fun mode => hsettled'.leads.socketAt?_eq_some_iff k mode
    rw [hleads, hs, hrun, and_iff_right hholds]
    simp only [run_append]
    rfl
  refine ⟨?_, fun hleads j => hleads.looks⟩
  constructor
  · intro hleads
    obtain ⟨before, after, heq, hbinds⟩ := exists_binds (Or.inr hrunning)
    exact ⟨before, after, heq, hbinds, (hsplit before after heq hbinds).mp hleads⟩
  · rintro ⟨before, after, heq, hbinds, hkept⟩
    exact (hsplit before after heq hbinds).mpr hkept

/-- The first server is reached while the second one has not looked yet; when it looks, it goes on to
remove the file. -/
theorem leadsTo_run_iff_seen :
    let s := (create ⟨"/run/daemon.sock"⟩ .empty).run
      [.proceed 0, .proceed 0, .proceed 0, .proceed 0, .proceed 1]
    s.stage 0 = .running ∧ s.LeadsTo 0 ∧ s.stage 1 = .looking ∧ (s.proceed 1).stage 1 = .clearing := by
  obtain ⟨hleads, hlooks⟩ := leadsTo_run_iff ⟨"/run/daemon.sock"⟩ .empty
    [.proceed 0, .proceed 0, .proceed 0, .proceed 0, .proceed 1] 0 (by decide)
  have hkept : ∀ mid m rest, [.proceed 0, .proceed 1] = mid ++ m :: rest →
      ¬ ((create ⟨"/run/daemon.sock"⟩ .empty).run
          ([.proceed 0, .proceed 0] ++ .proceed 0 :: mid)).Removes m := by
    rintro (_ | ⟨m, _ | ⟨m', mid⟩⟩) a rest heq
    · obtain ⟨rfl, -⟩ := List.cons.inj heq
      unfold Removes
      decide
    · obtain ⟨rfl, htail⟩ := List.cons.inj heq
      obtain ⟨rfl, -⟩ := List.cons.inj htail
      unfold Removes
      decide
    · simp at heq
  have hreached := hleads.mpr
    ⟨[.proceed 0, .proceed 0], [.proceed 0, .proceed 1], rfl, ⟨by decide, by decide⟩, hkept⟩
  exact ⟨by decide, hreached, by decide, (hlooks hreached 1).1 (by decide)⟩

/-- Two servers at one path. The first one still runs when the second one has been started, and is not
reached any more. Then the first one is shut down, and the second one, which still runs, is not
reached any more. -/
theorem not_kept :
    let starts := List.replicate 4 (.proceed 0) ++ List.replicate 5 (.proceed 1)
    let started := (create ⟨"/run/daemon.sock"⟩ .empty).run starts
    let stopped := started.run [.shutdown 0, .proceed 0, .proceed 0]
    (started.stage 0 = .running ∧ ¬ started.LeadsTo 0)
      ∧ started.LeadsTo 1 ∧ stopped.stage 1 = .running ∧ ¬ stopped.LeadsTo 1 := by
  intro starts started stopped
  have hstarted : started.tree.socketAt? started.path = some (1, ownerOnly) := by decide
  have hstopped : stopped.tree.socketAt? stopped.path = none := by decide
  refine ⟨⟨by decide, ?_⟩, ⟨ownerOnly, hstarted⟩, by decide, ?_⟩
  · rintro ⟨mode, hleads⟩
    cases hstarted.symm.trans hleads
  · rintro ⟨mode, hleads⟩
    cases hstopped.symm.trans hleads

end Instances

end HoldToRecord.Files
