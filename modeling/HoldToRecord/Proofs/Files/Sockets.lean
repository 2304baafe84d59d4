import HoldToRecord.Proofs.Files.Places

/-!
# The place of a path's socket

A path leads to one place (`Leads`), and still does so after any change that leaves the directories
where they are. What the operations on the path do is read off that place: a removal leaves no socket
there, whosever it was, permission bits are set without a change of the owner, and a socket's file is
created where nothing stood.
-/

namespace HoldToRecord.Files

/-- A path leads to a place, and may be the path of a file. -/
structure Leads (t : FileTree) (p : PathName) (place : Place) : Prop where
  slash : p.endsInSlash = false
  target : ∃ s, t.target p = .ok s ∧ s.place = place

/-- The socket of a server is at a place. -/
def Holds (t : FileTree) (place : Place) (k : Nat) : Prop :=
  ∃ mode, t.at? place = some (.socket k mode)

section Paths

variable {t t' : FileTree} {p : PathName} {place : Place} {k : Nat}

/-- It leads there as long as directories stay. -/
theorem Leads.of_keepsWays (h : Leads t p place) (hkeeps : KeepsWays t t') : Leads t' p place := by
  obtain ⟨s, htarget, rfl⟩ := h.target
  obtain ⟨s', htarget', -, -, hnames⟩ := hkeeps.target htarget
  exact ⟨h.slash, s', htarget', congrArg List.reverse hnames⟩

/-- What is found at the path stands at the place. -/
theorem Leads.find_eq (h : Leads t p place) :
    t.find p = match t.at? place with
      | none => .error .notFound
      | some node => .ok (place, node) := by
  obtain ⟨s, htarget, rfl⟩ := h.target
  rw [FileTree.find, htarget, ← (reached_of_target htarget).here_eq]
  dsimp only [bind, Except.bind]
  cases s.here with
  | none => rfl
  | some node =>
    rw [h.slash]
    rfl

/-- So does the socket that is found. -/
theorem Leads.socketAt?_eq_some_iff (h : Leads t p place) (k mode : Nat) :
    t.socketAt? p = some (k, mode) ↔ t.at? place = some (.socket k mode) := by
  rw [FileTree.socketAt?, h.find_eq]
  rcases t.at? place with _ | _ | _ | _ <;> simp

/-- What stands there, and is no directory, can be replaced. -/
theorem Leads.alters (h : Leads t p place) {new : Option Node}
    (hold : ∀ node, t.at? place = some node → node.isDirectory = false) (hnew : IsLeaf new) :
    Alters t place new { t with entries := setAt new place t.entries } := by
  obtain ⟨s, htarget, rfl⟩ := h.target
  have hreached := reached_of_target htarget
  rw [← hreached.here_eq] at hold
  exact hreached.alters hold hnew

/-- It can be removed, too. -/
theorem Leads.remove_eq (h : Leads t p place) :
    t.remove p = match t.at? place with
      | none => .error .notFound
      | some node => if node.isDirectory then .error .isDirectory else .ok (t.erase place) := by
  obtain ⟨s, htarget, rfl⟩ := h.target
  rw [FileTree.remove, htarget, ← (reached_of_target htarget).here_eq]
  dsimp only [bind, Except.bind]
  cases s.here with
  | none => rfl
  | some node =>
    rw [h.slash]
    rfl

/-- After that, no server has its socket there. -/
theorem Leads.remove (h : Leads t p place) :
    KeepsWays t (Change.whole (·.remove p) t).2
      ∧ ¬ Holds (Change.whole (·.remove p) t).2 place k := by
  have hremove := h.remove_eq
  have hkept : (∀ mode, t.at? place ≠ some (.socket k mode)) → ∀ fault, t.remove p = .error fault →
      KeepsWays t (Change.whole (·.remove p) t).2
        ∧ ¬ Holds (Change.whole (·.remove p) t).2 place k := by
    intro hnot fault hfault
    rw [Change.whole, hfault]
    exact ⟨.refl t, fun ⟨mode, hk⟩ => hnot mode hk⟩
  cases hplace : t.at? place with
  | none =>
    rw [hplace] at hremove
    exact hkept (by simp [hplace]) _ hremove
  | some node =>
    rw [hplace] at hremove
    dsimp only at hremove
    cases hdir : node.isDirectory with
    | true =>
      rw [if_pos hdir] at hremove
      refine hkept ?_ _ hremove
      rintro mode hk
      obtain rfl := Option.some.inj (hplace.symm.trans hk)
      cases hdir
    | false =>
      rw [if_neg (by simp [hdir])] at hremove
      have halters : Alters t place none (t.erase place) :=
        h.alters (by simp [hplace, hdir]) isLeaf_none
      rw [Change.whole, hremove]
      refine ⟨halters.keepsWays ?_, ?_⟩
      · rintro entries hentries
        obtain rfl := Option.some.inj (hplace.symm.trans hentries)
        cases hdir
      · rintro ⟨mode, hk⟩
        rw [halters.here] at hk
        cases hk

/-- Setting the permission bits changes nobody's socket. -/
theorem Leads.setMode (h : Leads t p place) (mode : Nat) :
    KeepsWays t (Change.whole (FileTree.setMode mode p) t).2
      ∧ (Holds (Change.whole (FileTree.setMode mode p) t).2 place k ↔ Holds t place k) := by
  by_cases hsocket : ∃ owner old, t.at? place = some (.socket owner old)
  · obtain ⟨owner, old, hsocket⟩ := hsocket
    have hput : (Change.whole (FileTree.setMode mode p) t).2 = t.put place (.socket owner mode) := by
      rw [Change.whole, FileTree.setMode, h.find_eq, hsocket]
      rfl
    have halters : Alters t place (some (.socket owner mode)) (t.put place (.socket owner mode)) :=
      h.alters (by rw [hsocket]; rintro node ⟨⟩; rfl) (isLeaf_of_isDirectory rfl)
    rw [hput]
    refine ⟨halters.keepsWays (by simp [hsocket]), ?_⟩
    simp [Holds, halters.here, hsocket]
  · have hsame : (Change.whole (FileTree.setMode mode p) t).2 = t := by
      rw [Change.whole, FileTree.setMode, h.find_eq]
      rcases hplace : t.at? place with _ | _ | _ | ⟨owner, old⟩
      · rfl
      · rfl
      · rfl
      · exact absurd ⟨owner, old, hplace⟩ hsocket
    rw [hsame]
    exact ⟨.refl t, Iff.rfl⟩

/-- The file of a socket is created where nothing stood. -/
theorem leads_of_bind (hfiled : FileTree.isUnfiled p = false) (hbind : FileTree.bind k p t = .ok t') :
    ∃ place, Leads t p place ∧ t.at? place = none ∧ KeepsWays t t' ∧ Holds t' place k := by
  rw [FileTree.bind, hfiled, if_neg Bool.false_ne_true] at hbind
  cases htarget : t.target p with
  | error fault =>
    rw [htarget] at hbind
    split_ifs at hbind
  | ok s =>
    rw [htarget] at hbind
    dsimp only at hbind
    split_ifs at hbind with hnul hlong hguard hslash
    obtain rfl := Except.ok.inj hbind
    have hleads : Leads t p s.place := ⟨by simpa using hslash, s, htarget, rfl⟩
    have hempty : t.at? s.place = none := by
      rw [← (reached_of_target htarget).here_eq]
      cases hs : s.here <;> simp [hs] at hguard ⊢
    have halters : Alters t s.place (some (.socket k FileTree.freshMode))
        (t.put s.place (.socket k FileTree.freshMode)) :=
      hleads.alters (by simp [hempty]) (isLeaf_of_isDirectory rfl)
    exact ⟨s.place, hleads, hempty, halters.keepsWays (by simp [hempty]), _, halters.here⟩

/-- A path that leads somewhere has a file. -/
theorem isUnfiled_of_target {s : Spot} (htarget : t.target p = .ok s) :
    FileTree.isUnfiled p = false := by
  have hcheck : FileTree.checkPath p = .ok () := by
    cases hcheck : FileTree.checkPath p with
    | ok u => rfl
    | error fault =>
      rw [FileTree.target, hcheck] at htarget
      cases htarget
  rw [FileTree.checkPath] at hcheck
  split_ifs at hcheck with hnul hempty
  rw [FileTree.isUnfiled, Bool.or_eq_false_iff]
  refine ⟨by simpa using hempty, ?_⟩
  rw [PathName.hasNul] at hnul
  cases hchars : p.text.toList with
  | nil => rfl
  | cons c chars =>
    rw [hchars] at hnul
    rw [List.contains_cons, Bool.or_eq_true, not_or, beq_iff_eq] at hnul
    rw [List.head?_cons, beq_eq_false_iff_ne]
    intro hhead
    exact hnul.1 (Option.some.inj hhead).symm

/-- So does one at which permission bits can be set. -/
theorem isUnfiled_of_setMode {mode : Nat} (hmode : FileTree.setMode mode p t = .ok t') :
    FileTree.isUnfiled p = false := by
  cases htarget : t.target p with
  | ok s => exact isUnfiled_of_target htarget
  | error fault =>
    rw [FileTree.setMode, FileTree.find, htarget] at hmode
    cases hmode

/-- A path leads to one place. -/
theorem Leads.unique {place' : Place} (h : Leads t p place) (h' : Leads t p place') :
    place' = place := by
  obtain ⟨s, htarget, rfl⟩ := h.target
  obtain ⟨s', htarget', rfl⟩ := h'.target
  obtain rfl := Except.ok.inj (htarget.symm.trans htarget')
  rfl

/-- One server has its socket at a place. -/
theorem Holds.unique {j : Nat} (h : Holds t place j) (h' : Holds t place k) : j = k := by
  obtain ⟨mode, h⟩ := h
  obtain ⟨mode', h'⟩ := h'
  rw [h] at h'
  exact (Node.socket.inj (Option.some.inj h')).1

/-- Where a server has its socket, no other one creates one, nor does it take the place away. -/
theorem Leads.bind (h : Leads t p place) {j : Nat} (hne : j ≠ k) :
    KeepsWays t (Change.whole (FileTree.bind j p) t).2
      ∧ (Holds (Change.whole (FileTree.bind j p) t).2 place k ↔ Holds t place k) := by
  rw [Change.whole]
  cases hbind : FileTree.bind j p t with
  | error fault => exact ⟨.refl t, Iff.rfl⟩
  | ok t' =>
    obtain ⟨s, htarget, -⟩ := h.target
    obtain ⟨place', hleads, hempty, hkeeps, hj⟩ := leads_of_bind (isUnfiled_of_target htarget) hbind
    obtain rfl := h.unique hleads
    refine ⟨hkeeps, iff_of_false (fun hk => hne (hj.unique hk)) ?_⟩
    rintro ⟨mode, hk⟩
    rw [hempty] at hk
    cases hk

end Paths

end HoldToRecord.Files
