import Mathlib.Tactic
import HoldToRecord.Files.Socket

/-!
# What a change of the file tree leaves as it is

A walk through the tree asks of each place on its way only that a directory stands there, and ends in
what stands at the place that it has come to (`Reached`). So it is enough to know what a change does
to single places. Files are put in place and removed one at a time, at places with nothing under them
(`Alters`): all other places keep what they have, but for the entries of directories, and every path
leads where it led (`Alters.target`).
-/

namespace HoldToRecord.Files

/-! ## Places -/

/-- What stands at a place under a node. -/
def Node.at? : Node → Place → Option Node
  | node, [] => some node
  | directory entries, name :: rest => (entries.lookup name).bind fun node => node.at? rest
  | _, _ :: _ => none

/-- A node without the entries of a directory. -/
def Node.bare : Node → Node
  | directory _ => directory []
  | node => node

/-- What stands at a place. -/
def FileTree.at? (t : FileTree) (place : Place) : Option Node := (Node.directory t.entries).at? place

/-- Whether nothing can stand under what stands at a place, if anything does. -/
def IsLeaf (node : Option Node) : Prop := ∀ name rest, (node.bind (·.at? (name :: rest))) = none

section Nodes

variable {node : Node} {entries : List (String × Node)} {name other : String} {place : Place}

@[simp] theorem Node.at?_nil (node : Node) : node.at? [] = some node := by
  cases node <;> rfl

@[simp] theorem Node.at?_cons (entries : List (String × Node)) (name : String) (rest : Place) :
    (directory entries).at? (name :: rest) = (entries.lookup name).bind (·.at? rest) := rfl

/-- One goes on from where one has come to. -/
theorem Node.at?_append (node : Node) (place rest : Place) :
    node.at? (place ++ rest) = (node.at? place).bind (·.at? rest) := by
  induction place generalizing node with
  | nil => simp
  | cons name place ih =>
    cases node with
    | directory entries =>
      rw [List.cons_append, at?_cons, at?_cons, Option.bind_assoc]
      exact congrArg _ (funext ih)
    | file => rfl
    | socket owner mode => rfl

theorem isLeaf_none : IsLeaf none := fun _ _ => rfl

theorem isLeaf_directory : IsLeaf (some (.directory [])) := fun _ _ => rfl

/-- Only in directories something can stand. -/
theorem isLeaf_of_isDirectory (h : node.isDirectory = false) : IsLeaf (some node) := by
  intro name rest
  cases node with
  | directory entries => cases h
  | file => rfl
  | socket owner mode => rfl

/-! ## Entries -/

/-- The first entry hides the later ones under its name. -/
theorem lookup_cons_eq (key : String) (node : Node) (entries : List (String × Node))
    (other : String) :
    ((key, node) :: entries).lookup other
      = if other = key then some node else entries.lookup other := by
  rw [List.lookup_cons]
  by_cases hother : other = key
  · rw [if_pos hother, beq_iff_eq.mpr hother]
  · rw [if_neg hother, beq_false_of_ne hother]

/-- Names other than the removed one are found as before. -/
theorem lookup_filter (entries : List (String × Node)) (name other : String) :
    (entries.filter (·.1 != name)).lookup other
      = if other = name then none else entries.lookup other := by
  induction entries with
  | nil => simp
  | cons entry entries ih =>
    obtain ⟨key, node⟩ := entry
    rw [lookup_cons_eq]
    by_cases hkey : key = name
    · subst hkey
      rw [List.filter_cons_of_neg (by simp), ih]
      split <;> rfl
    · rw [List.filter_cons_of_pos (by simpa using hkey), lookup_cons_eq, ih]
      by_cases hother : other = key
      · subst hother
        rw [if_pos rfl, if_neg hkey, if_pos rfl]
      · rw [if_neg hother, if_neg hother]

/-- A name has what was set, and the others have what they had. -/
theorem lookup_setEntry (new : Option Node) (name other : String)
    (entries : List (String × Node)) :
    (setEntry new name entries).lookup other = if other = name then new else entries.lookup other := by
  cases new with
  | none => exact lookup_filter entries name other
  | some node =>
    rw [setEntry, lookup_cons_eq, lookup_filter]
    split <;> rfl

/-! ## Setting a place -/

/-- In a directory, a place has what was set there. -/
theorem at?_setAt_self {new : Option Node} {inner : List (String × Node)}
    (hinner : (Node.directory entries).at? place = some (.directory inner)) :
    (Node.directory (setAt new (place ++ [name]) entries)).at? (place ++ [name]) = new := by
  induction place generalizing entries with
  | nil => simp [setAt, lookup_setEntry]
  | cons first place ih =>
    rw [Node.at?_cons, Option.bind_eq_some_iff] at hinner
    obtain ⟨node, hnode, hinner⟩ := hinner
    cases node with
    | directory below =>
      have hset : setAt new (first :: (place ++ [name])) entries
          = setEntry (some (.directory (setAt new (place ++ [name]) below))) first entries := by
        rw [setAt.eq_3 _ _ _ _ (by simp), hnode]
      rw [List.cons_append, hset, Node.at?_cons, lookup_setEntry, if_pos rfl]
      exact ih hinner
    | file => cases place <;> simp [Node.at?] at hinner
    | socket owner mode => cases place <;> simp [Node.at?] at hinner

/-- If nothing can stand under the old and under the new, another place has what it had. -/
theorem bare_setAt_of_ne {new : Option Node} {other : Place}
    (hold : IsLeaf ((Node.directory entries).at? place)) (hnew : IsLeaf new) (hne : other ≠ place) :
    ((Node.directory (setAt new place entries)).at? other).map Node.bare
      = ((Node.directory entries).at? other).map Node.bare := by
  induction place generalizing entries other with
  | nil => rfl
  | cons name place ih =>
    cases other with
    | nil => simp [Node.bare]
    | cons first other =>
      cases place with
      | nil =>
        rw [setAt, Node.at?_cons, Node.at?_cons, lookup_setEntry]
        split
        · next hfirst =>
          subst hfirst
          cases other with
          | nil => exact absurd rfl hne
          | cons second other =>
            have hold := hold second other
            rw [← Node.at?_append] at hold
            exact congrArg _ ((hnew second other).trans hold.symm)
        · rfl
      | cons second place =>
        rw [setAt.eq_3 _ _ _ _ (by simp)]
        split
        · next inner hinner =>
          rw [Node.at?_cons, Node.at?_cons, lookup_setEntry]
          split
          · next hfirst =>
            subst hfirst
            rw [hinner]
            refine ih ?_ (fun heq => hne (by rw [heq]))
            rwa [Node.at?_cons, hinner] at hold
          · rfl
        · rfl

end Nodes

/-! ## Walks -/

/-- A spot that a walk from the root may come to. -/
inductive Reached (t : FileTree) : Spot → Prop
  | root : Reached t t.root
  | down {s : Spot} {entries : List (String × Node)} (name : String) :
    Reached t s → s.here = some (.directory entries) →
      Reached t ⟨name :: s.names, entries.lookup name, .directory entries :: s.above⟩

section Walks

variable {t t' : FileTree} {s s' u : Spot}

/-- A spot holds what stands at its place. -/
theorem Reached.here_eq (h : Reached t s) : s.here = t.at? s.place := by
  induction h with
  | root => exact (Node.at?_nil _).symm
  | @down s entries name hs hdir ih =>
    rw [Spot.place, List.reverse_cons, FileTree.at?, Node.at?_append]
    rw [Spot.place, FileTree.at?] at ih
    rw [← ih, hdir]
    exact (Option.bind_fun_some _).symm

/-- Two dots lead to the place above. -/
theorem Reached.up (h : Reached t s) : Reached t s.up ∧ s.up.names = s.names.tail := by
  cases h with
  | root => exact ⟨.root, rfl⟩
  | @down s entries name hs hdir =>
    refine ⟨?_, rfl⟩
    show Reached t ⟨s.names, some (.directory entries), s.above⟩
    rw [← hdir]
    exact hs

/-- A step leads from a directory to a name in it, to the place above, or nowhere. -/
theorem Reached.step {name : String} (h : Reached t s) (hstep : s.step name = .ok u) :
    Reached t u ∧ ∃ entries, s.here = some (.directory entries)
      ∧ u.names = if name == "." then s.names else if name == ".." then s.names.tail
          else name :: s.names := by
  rw [Spot.step] at hstep
  split at hstep
  · cases hstep
  · next entries hdir =>
    split at hstep
    · next hdot =>
      obtain rfl := Except.ok.inj hstep
      exact ⟨h, entries, hdir, by rw [if_pos hdot]⟩
    · next hdot =>
      rw [if_neg hdot]
      split at hstep
      · next hdots =>
        obtain rfl := Except.ok.inj hstep
        exact ⟨h.up.1, entries, hdir, by rw [if_pos hdots, h.up.2]⟩
      · next hdots =>
        split at hstep
        · cases hstep
        · obtain rfl := Except.ok.inj hstep
          exact ⟨h.down name hdir, entries, hdir, by rw [if_neg hdots]⟩
  · cases hstep

/-- The root is a directory, so anything else stands in a directory. -/
theorem Reached.exists_parent (h : Reached t s)
    (hhere : ∀ node, s.here = some node → node.isDirectory = false) :
    ∃ place name entries, s.place = place ++ [name] ∧ t.at? place = some (.directory entries) := by
  cases h with
  | root => exact absurd (hhere _ rfl) (by simp [Node.isDirectory])
  | @down s entries name hs hdir =>
    exact ⟨s.place, name, entries, List.reverse_cons, hs.here_eq.symm.trans hdir⟩

end Walks

/-! ## Changes -/

/-- All directories of a tree are still there, and relative paths start at the same one. -/
structure KeepsWays (t t' : FileTree) : Prop where
  work : t'.work = t.work
  directory : ∀ place entries, t.at? place = some (.directory entries) →
    ∃ entries', t'.at? place = some (.directory entries')

/-- A tree has something else at a place, and elsewhere what it had. -/
structure Alters (t : FileTree) (place : Place) (new : Option Node) (t' : FileTree) : Prop where
  work : t'.work = t.work
  here : t'.at? place = new
  elsewhere : ∀ other, other ≠ place → (t'.at? other).map Node.bare = (t.at? other).map Node.bare

/-- Directories may have come, and the files of sockets are the same. -/
structure Grown (t t' : FileTree) : Prop extends KeepsWays t t' where
  socket : ∀ place owner mode,
    t'.at? place = some (.socket owner mode) ↔ t.at? place = some (.socket owner mode)

section Changes

variable {t t' t'' : FileTree} {s s' u : Spot} {place : Place} {new : Option Node} {p : PathName}

theorem KeepsWays.refl (t : FileTree) : KeepsWays t t := ⟨rfl, fun _ entries h => ⟨entries, h⟩⟩

theorem KeepsWays.trans (h : KeepsWays t t') (h' : KeepsWays t' t'') : KeepsWays t t'' := by
  refine ⟨h'.work.trans h.work, ?_⟩
  intro place entries hdir
  obtain ⟨entries', hdir'⟩ := h.directory place entries hdir
  exact h'.directory place entries' hdir'

theorem Grown.refl (t : FileTree) : Grown t t := ⟨.refl t, fun _ _ _ => Iff.rfl⟩

theorem Grown.trans (h : Grown t t') (h' : Grown t' t'') : Grown t t'' :=
  ⟨h.toKeepsWays.trans h'.toKeepsWays, fun place owner mode =>
    (h'.socket place owner mode).trans (h.socket place owner mode)⟩

/-- A step goes the same way in the other tree. -/
theorem KeepsWays.step {name : String} (h : KeepsWays t t') (hs : Reached t s) (hs' : Reached t' s')
    (hnames : s'.names = s.names) (hstep : s.step name = .ok u) :
    ∃ u', s'.step name = .ok u' ∧ Reached t u ∧ Reached t' u' ∧ u'.names = u.names := by
  obtain ⟨hu, entries, hdir, hname⟩ := hs.step hstep
  obtain ⟨entries', hdir'⟩ := h.directory s.place entries (hs.here_eq ▸ hdir)
  have hdir' : s'.here = some (.directory entries') := by
    rw [hs'.here_eq, Spot.place, hnames]
    exact hdir'
  -- only the length of the name can stand in the way, and that is the same
  have hok : ∃ u', s'.step name = .ok u' := by
    rw [Spot.step, hdir] at hstep
    rw [Spot.step, hdir']
    dsimp only at hstep ⊢
    split_ifs at hstep ⊢
    · exact ⟨_, rfl⟩
    · exact ⟨_, rfl⟩
    · exact ⟨_, rfl⟩
  obtain ⟨u', hstep'⟩ := hok
  obtain ⟨hu', -, -, hname'⟩ := hs'.step hstep'
  refine ⟨u', hstep', hu, hu', ?_⟩
  rw [hname, hname', hnames]

/-- So does a walk. -/
theorem KeepsWays.walk {names : List String} (h : KeepsWays t t') (hs : Reached t s)
    (hs' : Reached t' s') (hnames : s'.names = s.names) (hwalk : s.walk names = .ok u) :
    ∃ u', s'.walk names = .ok u' ∧ Reached t u ∧ Reached t' u' ∧ u'.names = u.names := by
  induction names generalizing s s' with
  | nil =>
    obtain rfl := Except.ok.inj hwalk
    exact ⟨s', rfl, hs, hs', hnames⟩
  | cons name names ih =>
    rw [Spot.walk, List.foldlM_cons] at hwalk
    cases hstep : s.step name with
    | error fault =>
      rw [hstep] at hwalk
      cases hwalk
    | ok next =>
      rw [hstep] at hwalk
      obtain ⟨next', hstep', hnext, hnext', hnames'⟩ := h.step hs hs' hnames hstep
      obtain ⟨u', hwalk', hu⟩ := ih hnext hnext' hnames' hwalk
      refine ⟨u', ?_, hu⟩
      rw [Spot.walk, List.foldlM_cons, hstep']
      exact hwalk'

/-- **Paths lead where they led.** -/
theorem KeepsWays.target (h : KeepsWays t t') (htarget : t.target p = .ok u) :
    ∃ u', t'.target p = .ok u' ∧ Reached t u ∧ Reached t' u' ∧ u'.names = u.names := by
  cases hcheck : FileTree.checkPath p with
  | error fault =>
    rw [FileTree.target, hcheck] at htarget
    cases htarget
  | ok _ =>
    cases hstart : t.origin p with
    | error fault =>
      rw [FileTree.target, hcheck, hstart] at htarget
      cases htarget
    | ok s =>
      have horigin : ∃ s', t'.origin p = .ok s' ∧ Reached t s ∧ Reached t' s'
          ∧ s'.names = s.names := by
        rw [FileTree.origin] at hstart ⊢
        split_ifs at hstart ⊢
        · obtain rfl := Except.ok.inj hstart
          exact ⟨t'.root, rfl, .root, .root, rfl⟩
        · rw [h.work]
          exact h.walk .root .root rfl hstart
      obtain ⟨s', hstart', hs, hs', hnames⟩ := horigin
      rw [FileTree.target, hcheck, hstart] at htarget
      obtain ⟨u', hwalk', hu⟩ := h.walk hs hs' hnames htarget
      refine ⟨u', ?_, hu⟩
      rw [FileTree.target, hcheck, hstart']
      exact hwalk'

/-- Where a path leads can be reached. -/
theorem reached_of_target (htarget : t.target p = .ok s) : Reached t s := by
  obtain ⟨-, -, hs, -⟩ := (KeepsWays.refl t).target htarget
  exact hs

/-- If no directory was at the place that is altered, all of them are still there. -/
theorem Alters.keepsWays (h : Alters t place new t')
    (hold : ∀ entries, t.at? place ≠ some (.directory entries)) : KeepsWays t t' := by
  refine ⟨h.work, ?_⟩
  intro other entries hdir
  have hbare := h.elsewhere other (by rintro rfl; exact hold entries hdir)
  rw [hdir] at hbare
  cases hother : t'.at? other with
  | none => simp [hother] at hbare
  | some node =>
    cases node with
    | directory entries' => exact ⟨entries', rfl⟩
    | file => simp [hother, Node.bare] at hbare
    | socket owner mode => simp [hother, Node.bare] at hbare

/-- Elsewhere the files of sockets are the same. -/
theorem Alters.socket_iff (h : Alters t place new t') {other : Place} (hne : other ≠ place)
    (owner mode : Nat) :
    t'.at? other = some (.socket owner mode) ↔ t.at? other = some (.socket owner mode) := by
  have hbare : ∀ node : Option Node, node.map Node.bare = some (.socket owner mode)
      ↔ node = some (.socket owner mode) := by
    rintro (_ | _ | _ | _) <;> simp [Node.bare]
  rw [← hbare, h.elsewhere other hne, hbare]

/-- What stands where a walk has come to, and is no directory, can be replaced. -/
theorem Reached.alters (h : Reached t s)
    (hhere : ∀ node, s.here = some node → node.isDirectory = false) (hnew : IsLeaf new) :
    Alters t s.place new { t with entries := setAt new s.place t.entries } := by
  obtain ⟨place, name, entries, hplace, hparent⟩ := h.exists_parent hhere
  have hleaf : IsLeaf (t.at? s.place) := by
    rw [← h.here_eq]
    cases hs : s.here with
    | none => exact isLeaf_none
    | some node => exact isLeaf_of_isDirectory (hhere node hs)
  refine ⟨rfl, ?_, fun other hne => bare_setAt_of_ne hleaf hnew hne⟩
  rw [hplace]
  exact at?_setAt_self hparent

end Changes

/-! ## Making directories -/

section Making

variable {t t' : FileTree} {p : PathName}

/-- A new directory stands where nothing stood. -/
theorem grown_make (hmake : t.make p = .ok t') : Grown t t' := by
  rw [FileTree.make] at hmake
  cases htarget : t.target p with
  | error fault =>
    rw [htarget] at hmake
    cases hmake
  | ok s =>
    rw [htarget] at hmake
    dsimp only [bind, Except.bind] at hmake
    split_ifs at hmake with hguard
    obtain rfl := Except.ok.inj hmake
    have hnone : s.here = none := by
      cases hs : s.here <;> simp [hs] at hguard ⊢
    have hreached := reached_of_target htarget
    have halters : Alters t s.place (some (.directory [])) (t.put s.place (.directory [])) :=
      hreached.alters (by simp [hnone]) isLeaf_directory
    have hempty : t.at? s.place = none := by
      rw [← hreached.here_eq, hnone]
    refine ⟨halters.keepsWays (by simp [hempty]), ?_⟩
    intro other owner mode
    by_cases hother : other = s.place
    · subst hother
      rw [hempty]
      exact iff_of_false (by simp [halters.here]) (by simp)
    · exact halters.socket_iff hother owner mode

theorem grown_makeOrKeep (p : PathName) (t : FileTree) : Grown t (FileTree.makeOrKeep p t).2 := by
  rw [FileTree.makeOrKeep]
  split
  · next hmake => exact grown_make hmake
  · exact .refl t

/-- A change that follows another one. -/
theorem Grown.andThen {ε : Type} {first second : Change ε} (hfirst : ∀ t, Grown t (first t).2)
    (hsecond : ∀ t, Grown t (second t).2) (t : FileTree) : Grown t (first.andThen second t).2 := by
  have hdone := hfirst t
  rw [Change.andThen]
  split
  · next t' heq =>
    rw [heq] at hdone
    exact hdone.trans (hsecond t')
  · next fault t' heq =>
    rwa [heq] at hdone

/-- Nothing is taken away by making several of them. -/
theorem grown_makeWithin (depth : Nat) (p : PathName) (t : FileTree) :
    Grown t (FileTree.makeWithin depth p t).2 := by
  induction depth generalizing p t with
  | zero =>
    unfold FileTree.makeWithin
    split
    · exact .refl t
    · split
      · next hdepth _ => cases hdepth
      · exact grown_makeOrKeep p t
  | succ depth ih =>
    unfold FileTree.makeWithin
    split
    · exact .refl t
    · split
      · next depth' _ _ hdepth _ =>
        obtain rfl : depth = depth' := Nat.succ.inj hdepth
        exact .andThen (ih _) (grown_makeOrKeep p) t
      · exact grown_makeOrKeep p t

/-- Nor by making the directory above a path. -/
theorem grown_makeAbove (p : PathName) (t : FileTree) : Grown t (FileTree.makeAbove p t).2 := by
  cases hparent : p.parent? with
  | none =>
    rw [FileTree.makeAbove, hparent]
    exact .refl t
  | some above =>
    rw [FileTree.makeAbove, hparent]
    exact grown_makeWithin ..

end Making

end HoldToRecord.Files
