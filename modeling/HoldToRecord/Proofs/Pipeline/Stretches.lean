import Mathlib.Data.List.SplitBy
import HoldToRecord.Proofs.Pipeline.Outcome
import HoldToRecord.Proofs.Time.Elapsed

/-!
# Recordings of snapshots alone

As long as the hook is not refused, the session events are read off the snapshots. The snapshots fall
into stretches, which are as long as they can be while the hotkey stays held or not held; each stretch
on which it is held is one recording, from its first snapshot to the snapshot behind it
(`events_run_feed`). The watch holds the hotkey exactly while the session records (`Tracks`), so the
session heeds every edge; and the edges of a stretch are at its ends, so the stretches are taken one
by one (`Turns.events_run`).
-/

namespace HoldToRecord.Pipeline

open HoldToRecord.Hotkey HoldToRecord.Time

/-! ## Stretches -/

/-- Snapshots with their instants, as inputs. -/
def feed (snapshots : List (Modifiers × Instant)) : List Input :=
  snapshots.map fun s => .snapshot s.1 s.2

/-- All the session events that were shown. -/
def events (shown : List Shown) : List SessionEvent := shown.flatMap (·.events)

/-- The maximal stretches of snapshots that all hold the hotkey, or all do not. -/
def stretches (h : Hotkey) (snapshots : List (Modifiers × Instant)) :
    List (List (Modifiers × Instant)) :=
  snapshots.splitBy fun a b => h.isHeld a.1 == h.isHeld b.1

/-- The events of a stretch, given the snapshot behind it if there is one: if the hotkey is held, a
recording that starts with the first snapshot of the stretch and stops with the one behind it. -/
def recording (h : Hotkey) (stretch : List (Modifiers × Instant))
    (behind : Option (Modifiers × Instant)) : List SessionEvent :=
  match stretch with
  | [] => []
  | first :: _ =>
    if h.isHeld first.1 then
      .recordingStarted first.2 :: behind.toList.map fun s => Session.stop first.2 s.2
    else []

/-- The events of stretches, one after the other. -/
def recordings (h : Hotkey) : List (List (Modifiers × Instant)) → List SessionEvent
  | [] => []
  | stretch :: rest => recording h stretch rest.flatten.head? ++ recordings h rest

/-- Stretches on which the hotkey is held or not held in turns, from the first on. -/
inductive Turns (h : Hotkey) : Bool → List (List (Modifiers × Instant)) → Prop
  | nil (held : Bool) : Turns h held []
  | cons {held : Bool} {first : Modifiers × Instant} {more : List (Modifiers × Instant)}
      {rest : List (List (Modifiers × Instant))} :
    h.isHeld first.1 = held → (∀ s ∈ more, h.isHeld s.1 = held) → Turns h (!held) rest →
      Turns h held ((first :: more) :: rest)

section Stretches

variable {h : Hotkey}

/-- If neighbours agree on the hotkey, all snapshots agree with the first. -/
theorem isHeld_of_isChain {first : Modifiers × Instant} {more : List (Modifiers × Instant)}
    (hchain : (first :: more).IsChain fun a b => (h.isHeld a.1 == h.isHeld b.1) = true) :
    ∀ s ∈ more, h.isHeld s.1 = h.isHeld first.1 := by
  induction more generalizing first with
  | nil =>
    intro s hs
    cases hs
  | cons next more ih =>
    rw [List.isChain_cons_cons, beq_iff_eq] at hchain
    intro s hs
    rw [hchain.1]
    rcases List.mem_cons.mp hs with rfl | hs
    · rfl
    · exact ih hchain.2 s hs

/-- Lists that split as the stretches do are held and not held in turns. -/
theorem turns_of_isChain {rest : List (List (Modifiers × Instant))} {held : Bool}
    (hne : [] ∉ rest)
    (hwithin : ∀ m ∈ rest, m.IsChain fun a b => (h.isHeld a.1 == h.isHeld b.1) = true)
    (hbetween : rest.IsChain fun a b =>
      ∃ ha hb, (h.isHeld (a.getLast ha).1 == h.isHeld (b.head hb).1) = false)
    (hfirst : ∀ s, rest.flatten.head? = some s → h.isHeld s.1 = held) : Turns h held rest := by
  induction rest generalizing held with
  | nil => exact .nil held
  | cons stretch rest ih =>
    cases stretch with
    | nil => exact absurd List.mem_cons_self hne
    | cons first more =>
      have hheld : h.isHeld first.1 = held := hfirst first rfl
      have hsame := isHeld_of_isChain (hwithin _ List.mem_cons_self)
      rw [hheld] at hsame
      refine .cons hheld hsame (ih (fun hnil => hne (List.mem_cons_of_mem _ hnil))
        (fun m hm => hwithin m (List.mem_cons_of_mem _ hm)) hbetween.tail ?_)
      intro s hs
      -- the next stretch starts with a snapshot that differs from the last one of this stretch
      cases rest with
      | nil => cases hs
      | cons next rest =>
        obtain ⟨hlast, hhead, hdiffer⟩ := (List.isChain_cons_cons.mp hbetween).1
        have hlast : h.isHeld ((first :: more).getLast hlast).1 = held := by
          rcases List.mem_cons.mp (List.getLast_mem hlast) with heq | hmem
          · rw [heq, hheld]
          · exact hsame _ hmem
        have hs : next.head hhead = s := by
          rw [List.flatten_cons, List.head?_append_of_ne_nil _ hhead,
            List.head?_eq_some_head hhead] at hs
          exact Option.some.inj hs
        rw [hlast, hs] at hdiffer
        cases held <;> simpa using hdiffer

/-- The stretches of snapshots are held and not held in turns. -/
theorem turns_stretches (h : Hotkey) (snapshots : List (Modifiers × Instant)) :
    ∃ held, Turns h held (stretches h snapshots) := by
  refine ⟨(snapshots.head?.map fun s => h.isHeld s.1).getD false,
    turns_of_isChain (List.nil_notMem_splitBy _ _) (fun m hm => List.isChain_of_mem_splitBy hm)
      (List.isChain_getLast_head_splitBy (fun a b => h.isHeld a.1 == h.isHeld b.1) snapshots) ?_⟩
  intro s hs
  rw [stretches, List.flatten_splitBy] at hs
  rw [hs]
  rfl

end Stretches

/-! ## One snapshot -/

/-- What is shown heeds the edge: a press starts a recording, a release ends one, and nothing happens
without an edge. -/
def Shown.Heeds (s : Shown) : Prop :=
  match s.edge with
  | none => s.events = []
  | some .pressed => ∃ i, s.events = [.recordingStarted i]
  | some .released => ∃ i ms, s.events = [.recordingStopped i ms]

/-- The watch holds the hotkey while the session records, and else the session is idle. -/
def Tracks (p : Pipeline) : Prop :=
  if p.watch.held then ∃ i, p.session = .recording i else p.session = .idle

section Snapshots

variable {p : Pipeline} {s : Modifiers × Instant}

/-- A snapshot changes nothing, or is a press, or a release. -/
theorem step_snapshot_cases (p : Pipeline) (s : Modifiers × Instant) :
    (p.watch.held = p.watch.hotkey.isHeld s.1 ∧ p.step (.snapshot s.1 s.2) = (⟨none, []⟩, p))
      ∨ (p.watch.held = false ∧ p.watch.hotkey.isHeld s.1 = true
          ∧ p.step (.snapshot s.1 s.2)
            = p.handle (some .pressed) { p.watch with held := true } ⟨.pressed, s.2⟩)
      ∨ (p.watch.held = true ∧ p.watch.hotkey.isHeld s.1 = false
          ∧ p.step (.snapshot s.1 s.2)
            = p.handle (some .released) { p.watch with held := false } ⟨.released, s.2⟩) := by
  rcases p.step_cases (.snapshot s.1 s.2) with ⟨held, i, hx, hcase⟩ | ⟨held, i, hx, hcase⟩
    | ⟨held, i, hx, hcase⟩ | ⟨i, hx, -⟩
  · obtain ⟨rfl, rfl⟩ := Input.snapshot.inj hx
    exact Or.inl hcase
  · obtain ⟨rfl, rfl⟩ := Input.snapshot.inj hx
    exact Or.inr (Or.inl hcase)
  · obtain ⟨rfl, rfl⟩ := Input.snapshot.inj hx
    exact Or.inr (Or.inr hcase)
  · cases hx

/-- A snapshot that leaves the hotkey as it was changes nothing. -/
theorem step_of_same (hsame : p.watch.hotkey.isHeld s.1 = p.watch.held) :
    p.step (.snapshot s.1 s.2) = (⟨none, []⟩, p) := by
  rcases p.step_snapshot_cases s with ⟨-, hstep⟩ | ⟨hwas, hnow, -⟩ | ⟨hwas, hnow, -⟩
  · exact hstep
  · simp [hwas, hnow] at hsame
  · simp [hwas, hnow] at hsame

/-- A snapshot on which the hotkey becomes held is a press. -/
theorem step_of_press (hwas : p.watch.held = false) (hnow : p.watch.hotkey.isHeld s.1 = true) :
    p.step (.snapshot s.1 s.2)
      = p.handle (some .pressed) { p.watch with held := true } ⟨.pressed, s.2⟩ := by
  rcases p.step_snapshot_cases s with ⟨hsame, -⟩ | ⟨-, -, hstep⟩ | ⟨hheld, -, -⟩
  · simp [hwas, hnow] at hsame
  · exact hstep
  · simp [hwas] at hheld

/-- A snapshot on which it is no longer held is a release. -/
theorem step_of_release (hwas : p.watch.held = true) (hnow : p.watch.hotkey.isHeld s.1 = false) :
    p.step (.snapshot s.1 s.2)
      = p.handle (some .released) { p.watch with held := false } ⟨.released, s.2⟩ := by
  rcases p.step_snapshot_cases s with ⟨hsame, -⟩ | ⟨hheld, -, -⟩ | ⟨-, -, hstep⟩
  · simp [hwas, hnow] at hsame
  · simp [hwas] at hheld
  · exact hstep

/-- After a snapshot the watch knows whether it held the hotkey. -/
theorem watch_step (p : Pipeline) (s : Modifiers × Instant) :
    (p.step (.snapshot s.1 s.2)).2.watch = (p.watch.see s.1).2 := by
  rcases hsee : p.watch.see s.1 with ⟨_ | edge, w⟩ <;> simp [step, sense, hsee]

/-- Every edge is heeded, and the session stays with the watch. -/
theorem Tracks.step (h : p.Tracks) (s : Modifiers × Instant) :
    (p.step (.snapshot s.1 s.2)).1.Heeds ∧ (p.step (.snapshot s.1 s.2)).2.Tracks := by
  rcases p.step_snapshot_cases s with ⟨-, hstep⟩ | ⟨hwas, -, hstep⟩ | ⟨hwas, -, hstep⟩
  · rw [hstep]
    exact ⟨rfl, h⟩
  · rw [Tracks, hwas, if_neg Bool.false_ne_true] at h
    rw [hstep, handle, h]
    exact ⟨⟨s.2, rfl⟩, s.2, rfl⟩
  · rw [Tracks, hwas, if_pos rfl] at h
    obtain ⟨i, hi⟩ := h
    rw [hstep, handle, hi]
    exact ⟨⟨s.2, _, rfl⟩, rfl⟩

/-! ## Runs of snapshots -/

/-- Runs follow one another. -/
theorem run_append (p : Pipeline) (as bs : List Input) :
    p.run (as ++ bs) = ((p.run as).1 ++ ((p.run as).2.run bs).1, ((p.run as).2.run bs).2) := by
  induction as generalizing p with
  | nil => rfl
  | cons a as ih => simp [run, ih]

/-- A run begins with a step. -/
theorem run_feed_cons (p : Pipeline) (s : Modifiers × Instant) (rest : List (Modifiers × Instant)) :
    (p.run (feed (s :: rest))).1
        = (p.step (.snapshot s.1 s.2)).1 :: ((p.step (.snapshot s.1 s.2)).2.run (feed rest)).1
      ∧ (p.run (feed (s :: rest))).2
        = ((p.step (.snapshot s.1 s.2)).2.run (feed rest)).2 :=
  ⟨rfl, rfl⟩

/-- Every edge of a run is heeded. -/
theorem Tracks.run (h : p.Tracks) (snapshots : List (Modifiers × Instant)) :
    ∀ shown ∈ (p.run (feed snapshots)).1, shown.Heeds := by
  induction snapshots generalizing p with
  | nil =>
    intro shown hshown
    cases hshown
  | cons s rest ih =>
    intro shown hshown
    rw [(p.run_feed_cons s rest).1] at hshown
    rcases List.mem_cons.mp hshown with rfl | hshown
    · exact (h.step s).1
    · exact ih (h.step s).2 shown hshown

/-- Edges alternate, and a press comes first unless the hotkey is held already. -/
theorem edges_run (p : Pipeline) (snapshots : List (Modifiers × Instant)) :
    ∀ k e, ((p.run (feed snapshots)).1.filterMap (·.edge))[k]? = some e →
      (e = .pressed ↔ (k % 2 = 0 ↔ p.watch.held = false)) := by
  induction snapshots generalizing p with
  | nil =>
    intro k e he
    simp [feed, run] at he
  | cons s rest ih =>
    intro k e he
    rw [(p.run_feed_cons s rest).1, List.filterMap_cons] at he
    have hrest := ih (p.step (.snapshot s.1 s.2)).2
    rcases p.step_snapshot_cases s with ⟨-, hstep⟩ | ⟨hwas, -, hstep⟩ | ⟨hwas, -, hstep⟩
    · rw [hstep] at he hrest
      exact hrest k e he
    · rw [hstep] at he hrest
      cases k with
      | zero =>
        obtain rfl := Option.some.inj he
        simp [hwas]
      | succ k =>
        rw [hrest k e he, hwas]
        simp only [handle, Bool.true_eq_false, iff_false, iff_true]
        omega
    · rw [hstep] at he hrest
      cases k with
      | zero =>
        obtain rfl := Option.some.inj he
        simp [hwas]
      | succ k =>
        rw [hrest k e he, hwas]
        simp only [handle, Bool.true_eq_false, iff_false, iff_true]
        omega

/-- Snapshots that all leave the hotkey as it was change nothing. -/
theorem run_of_same {snapshots : List (Modifiers × Instant)}
    (hsame : ∀ s ∈ snapshots, p.watch.hotkey.isHeld s.1 = p.watch.held) :
    events (p.run (feed snapshots)).1 = [] ∧ (p.run (feed snapshots)).2 = p := by
  induction snapshots with
  | nil => exact ⟨rfl, rfl⟩
  | cons s rest ih =>
    rw [(p.run_feed_cons s rest).1, (p.run_feed_cons s rest).2,
      step_of_same (hsame s List.mem_cons_self)]
    exact ih fun t ht => hsame t (List.mem_cons_of_mem _ ht)

/-- Of a stretch only the first snapshot counts. -/
theorem events_run_stretch {more rest : List (Modifiers × Instant)}
    (hsame : ∀ t ∈ more, p.watch.hotkey.isHeld t.1 = p.watch.hotkey.isHeld s.1) :
    events (p.run (feed (s :: more ++ rest))).1
      = (p.step (.snapshot s.1 s.2)).1.events
        ++ events ((p.step (.snapshot s.1 s.2)).2.run (feed rest)).1 := by
  have hquiet : events ((p.step (.snapshot s.1 s.2)).2.run (feed more)).1 = []
      ∧ ((p.step (.snapshot s.1 s.2)).2.run (feed more)).2 = (p.step (.snapshot s.1 s.2)).2 := by
    apply run_of_same
    rw [watch_step]
    exact hsame
  have happend : feed (more ++ rest) = feed more ++ feed rest := List.map_append
  rw [List.cons_append, (p.run_feed_cons s _).1, happend, run_append, hquiet.2]
  have hevents : ∀ (a : Shown) (as bs : List Shown), events as = [] →
      events (a :: (as ++ bs)) = a.events ++ events bs := by
    intro a as bs has
    rw [events, List.flatMap_cons, List.flatMap_append]
    rw [events] at has
    rw [has]
    rfl
  exact hevents _ _ _ hquiet.1

end Snapshots

/-- **Stretch by stretch.**  An idle pipeline records the stretches that are held. One that records
since an instant stops with the first snapshot of a stretch that is not held. -/
theorem Turns.events_run {h : Hotkey} {held : Bool} {rest : List (List (Modifiers × Instant))}
    (hturns : Turns h held rest) {p : Pipeline} (hhotkey : p.watch.hotkey = h) :
    (p.watch.held = false → p.session = .idle →
        events (p.run (feed rest.flatten)).1 = recordings h rest)
      ∧ ∀ i, p.watch.held = true → p.session = .recording i → held = false →
        events (p.run (feed rest.flatten)).1
          = (rest.flatten.head?.toList.map fun s => Session.stop i s.2) ++ recordings h rest := by
  induction hturns generalizing p with
  | nil held => exact ⟨fun _ _ => rfl, fun _ _ _ _ => rfl⟩
  | @cons held first more rest hfirst hmore hrest ih =>
    have hsame : ∀ t ∈ more, p.watch.hotkey.isHeld t.1 = p.watch.hotkey.isHeld first.1 := by
      intro t ht
      rw [hhotkey, hmore t ht, hfirst]
    rw [List.flatten_cons, events_run_stretch hsame, recordings, recording, hfirst]
    rw [← hhotkey] at hfirst
    constructor
    · intro hwas hidle
      cases held with
      | false =>
        rw [step_of_same (hfirst.trans hwas.symm)]
        exact (ih hhotkey).1 hwas hidle
      | true =>
        rw [step_of_press hwas hfirst, handle, hidle]
        exact congrArg (SessionEvent.recordingStarted first.2 :: ·)
          ((ih (p := ⟨{ p.watch with held := true }, .recording first.2, _⟩) hhotkey).2 first.2
            rfl rfl rfl)
    · rintro i hwas hrecording rfl
      rw [step_of_release hwas hfirst, handle, hrecording]
      exact congrArg (Session.stop i first.2 :: ·)
        ((ih (p := ⟨{ p.watch with held := false }, .idle, _⟩) hhotkey).1 rfl rfl)

/-- A snapshot that agrees with the one before it on the hotkey shows no events. -/
theorem events_run_insert {h : Hotkey} (before after : List (Modifiers × Instant))
    {x y : Modifiers × Instant} (hsame : h.isHeld y.1 = h.isHeld x.1) :
    events ((start h).run (feed (before ++ x :: y :: after))).1
      = events ((start h).run (feed (before ++ x :: after))).1 := by
  have hfeed : ∀ rest, feed (before ++ x :: rest) = feed (before ++ [x]) ++ feed rest := by
    intro rest
    simp [feed]
  have hf := follows_run h (feed (before ++ [x]))
  have hheld : ((start h).run (feed (before ++ [x]))).2.watch.held = h.isHeld x.1 := by
    rw [hf.held, feed, List.map_append, List.map_singleton, heldAfter_concat]
  have hstep := step_of_same (s := y) (by rw [hf.hotkey, hheld, hsame])
  rw [hfeed after, hfeed (y :: after), run_append, run_append _ _ (feed after)]
  simp only [events, List.flatMap_append]
  rw [(run_feed_cons _ y after).1, hstep]
  rfl

/-! ## Recordings -/

/-- **The recordings of snapshots.**  The session events of any snapshots are those of their
stretches: each one on which the hotkey is held starts a recording with its first snapshot, which the
snapshot behind it stops, if there is one. The recording is as long as the instants are apart, and
zero if the clock went backwards. Every edge is heeded, presses and releases take turns, and a press
comes first. A further snapshot that agrees with the one before it on the hotkey makes no difference,
whatever its other modifiers and its instant. -/
theorem events_run_feed (h : Hotkey) (snapshots : List (Modifiers × Instant)) :
    let shown := ((start h).run (feed snapshots)).1
    events shown = recordings h (stretches h snapshots)
      ∧ (∀ first behind : Instant, ∃ ms, Session.stop first behind = .recordingStopped behind ms
          ∧ (ms.toNat : ℤ) = max 0 (behind.elapsedMillis first))
      ∧ (∀ s ∈ shown, s.Heeds)
      ∧ (∀ k edge, (shown.filterMap (·.edge))[k]? = some edge → (edge = .pressed ↔ k % 2 = 0))
      ∧ ∀ before x y after, snapshots = before ++ x :: after → h.isHeld y.1 = h.isHeld x.1 →
          events ((start h).run (feed (before ++ x :: y :: after))).1 = events shown := by
  intro shown
  have hidle : (start h).Tracks := rfl
  refine ⟨?_, ?_, hidle.run snapshots, ?_, ?_⟩
  · obtain ⟨held, hturns⟩ := turns_stretches h snapshots
    have hevents := (hturns.events_run (p := start h) rfl).1 rfl rfl
    rwa [stretches, List.flatten_splitBy] at hevents
  · intro first behind
    exact ⟨_, rfl, Session.toNat_durationMs first behind⟩
  · intro k edge hedge
    have hturn := edges_run (start h) snapshots k edge hedge
    rwa [show (start h).watch.held = false from rfl, eq_self, iff_true] at hturn
  · rintro before x y after rfl hsame
    exact events_run_insert before after hsame

/-- Two recordings, with other keys at the hotkey and a clock that goes backwards; the second one is
open at the end. A snapshot in between that still holds the hotkey makes no difference. -/
theorem events_run_feed_backwards :
    let early : Instant := .epoch
    let late : Instant := ⟨0, 2, 500000000, by decide⟩
    let both : Modifiers := ⟨true, true, false, false⟩
    let more : Modifiers := ⟨true, true, true, true⟩
    let one : Modifiers := ⟨false, true, true, false⟩
    let snapshots := [(one, early), (both, late), (one, early), (more, early)]
    events ((start .standard).run (feed snapshots)).1
        = [.recordingStarted late, .recordingStopped early 0, .recordingStarted early]
      ∧ events ((start .standard).run
          (feed ([(one, early)] ++ (both, late) :: (more, early) :: [(one, early), (more, early)]))).1
        = events ((start .standard).run (feed snapshots)).1 := by
  intro early late both more one snapshots
  obtain ⟨hevents, -, -, -, hinsert⟩ := events_run_feed .standard snapshots
  refine ⟨hevents, ?_⟩
  exact hinsert [(one, early)] (both, late) (more, early) [(one, early), (more, early)] rfl rfl

end HoldToRecord.Pipeline
