import Mathlib.Tactic
import HoldToRecord.Pipeline
import HoldToRecord.Proofs.Status.Upkeep
import HoldToRecord.Proofs.Wire.RoundTrip
import HoldToRecord.Wire.Connection

/-!
# What a history of inputs comes to

The state of the pipeline after any snapshots and denials, read off the inputs alone. An input
decides if it is a denial or a snapshot on which the hotkey becomes held. The last input that
decides says what the session is in: permission is missing after a denial, and a recording goes on
since a snapshot for as long as the hotkey stays held (`outcome_run`).
-/

namespace HoldToRecord

/-! ## The last item of its kind -/

section LastWhere

variable {α : Type}

/-- The last item that has a property among the items before it, with those and the items after. -/
def LastWhere (P : List α → α → Prop) (items before : List α) (a : α) (after : List α) : Prop :=
  items = before ++ a :: after ∧ P before a
    ∧ ∀ mid b rest, after = mid ++ b :: rest → ¬ P (before ++ a :: mid) b

variable {P : List α → α → Prop}

/-- The last item is the new one if it has the property, and the one before it otherwise. -/
theorem lastWhere_concat {items before after : List α} {x a : α} :
    LastWhere P (items ++ [x]) before a after
      ↔ (P items x ∧ before = items ∧ a = x ∧ after = [])
        ∨ (¬ P items x ∧ ∃ rest, after = rest ++ [x] ∧ LastWhere P items before a rest) := by
  constructor
  · rintro ⟨heq, ha, hlater⟩
    rcases concat_eq_append_cons heq with ⟨rfl, rfl, rfl⟩ | ⟨rest, rfl, rfl⟩
    · exact Or.inl ⟨ha, rfl, rfl, rfl⟩
    · refine Or.inr ⟨hlater rest x [] rfl, rest, rfl, rfl, ha, ?_⟩
      rintro mid q tail rfl
      exact hlater mid q (tail ++ [x]) (by simp)
  · rintro (⟨hx, rfl, rfl, rfl⟩ | ⟨hnot, rest, rfl, rfl, ha, hlater⟩)
    · exact ⟨rfl, hx, by simp⟩
    · refine ⟨by simp, ha, fun mid q tail heq => ?_⟩
      rcases concat_eq_append_cons heq with ⟨-, rfl, rfl⟩ | ⟨tail', -, hrest⟩
      · exact hnot
      · exact hlater mid q tail' hrest

/-- If some item has the property, there is a last one. -/
theorem exists_lastWhere {items before after : List α} {a : α} (heq : items = before ++ a :: after)
    (ha : P before a) : ∃ before a after, LastWhere P items before a after := by
  induction items using List.reverseRecOn generalizing after with
  | nil => simp at heq
  | append_singleton items x ih =>
    by_cases hx : P items x
    · exact ⟨items, x, [], lastWhere_concat.mpr (Or.inl ⟨hx, rfl, rfl, rfl⟩)⟩
    · rcases concat_eq_append_cons heq with ⟨rfl, rfl, rfl⟩ | ⟨rest, -, hitems⟩
      · exact absurd ha hx
      · obtain ⟨before, b, after, hlast⟩ := ih hitems
        exact ⟨before, b, after ++ [x],
          lastWhere_concat.mpr (Or.inr ⟨hx, after, rfl, hlast⟩)⟩

end LastWhere

namespace Pipeline

open HoldToRecord.Hotkey HoldToRecord.Time

/-! ## Inputs that decide -/

/-- The modifiers of a snapshot; a denial has none. -/
def Input.snapshot? : Input → Option Modifiers
  | .snapshot held _ => some held
  | .denied _ => none

/-- Whether the last snapshot among some inputs held the hotkey; before the first none did. -/
def heldAfter (h : Hotkey) (inputs : List Input) : Bool :=
  (inputs.filterMap Input.snapshot?).getLast?.any h.isHeld

/-- Whether an input decides what comes of the inputs before it: a denial does, and a snapshot on
which the hotkey becomes held. -/
def Decides (h : Hotkey) (before : List Input) : Input → Prop
  | .denied _ => True
  | .snapshot held _ => h.isHeld held = true ∧ heldAfter h before = false

/-- The last input that decides is a denial. -/
def LacksPermission (h : Hotkey) (inputs : List Input) : Prop :=
  ∃ before i after, LastWhere (Decides h) inputs before (.denied i) after

/-- The last input that decides is a snapshot at the instant `i`, and the hotkey is held on every
later snapshot. -/
def HeldSince (h : Hotkey) (inputs : List Input) (i : Instant) : Prop :=
  ∃ before held after, LastWhere (Decides h) inputs before (.snapshot held i) after
    ∧ ∀ later t, .snapshot later t ∈ after → h.isHeld later = true

/-! ## One input more -/

/-- A snapshot is the last one, and a denial is none. -/
theorem heldAfter_concat (h : Hotkey) (inputs : List Input) (x : Input) :
    heldAfter h (inputs ++ [x])
      = match x with
        | .snapshot held _ => h.isHeld held
        | .denied _ => heldAfter h inputs := by
  cases x <;> simp [heldAfter, Input.snapshot?, List.filterMap_append]

/-- A new denial takes the permission away, and so does an older one if the new input decides
nothing. -/
theorem lacksPermission_concat {h : Hotkey} {inputs : List Input} {x : Input} :
    LacksPermission h (inputs ++ [x])
      ↔ (∃ i, x = .denied i) ∨ (¬ Decides h inputs x ∧ LacksPermission h inputs) := by
  simp only [LacksPermission, lastWhere_concat]
  constructor
  · rintro ⟨before, i, after, ⟨-, -, rfl, -⟩ | ⟨hnot, rest, -, hlast⟩⟩
    · exact Or.inl ⟨i, rfl⟩
    · exact Or.inr ⟨hnot, before, i, rest, hlast⟩
  · rintro (⟨i, rfl⟩ | ⟨hnot, before, i, after, hlast⟩)
    · exact ⟨inputs, i, [], Or.inl ⟨trivial, rfl, rfl, rfl⟩⟩
    · exact ⟨before, i, after ++ [x], Or.inr ⟨hnot, after, rfl, hlast⟩⟩

/-- A new snapshot on which the hotkey becomes held is held since its instant; an older one stays
held if the new input is no snapshot without the hotkey and decides nothing. -/
theorem heldSince_concat {h : Hotkey} {inputs : List Input} {x : Input} {i : Instant} :
    HeldSince h (inputs ++ [x]) i
      ↔ (∃ held, x = .snapshot held i ∧ Decides h inputs x)
        ∨ (¬ Decides h inputs x ∧ HeldSince h inputs i
            ∧ ∀ later t, x = .snapshot later t → h.isHeld later = true) := by
  simp only [HeldSince, lastWhere_concat]
  constructor
  · rintro ⟨before, held, after, ⟨hdecides, -, rfl, -⟩ | ⟨hnot, rest, rfl, hlast⟩, hheld⟩
    · exact Or.inl ⟨held, rfl, hdecides⟩
    · refine Or.inr ⟨hnot, ⟨before, held, rest, hlast, fun later t hmem => ?_⟩, ?_⟩
      · exact hheld later t (List.mem_append_left _ hmem)
      · rintro later t rfl
        exact hheld later t (by simp)
  · rintro (⟨held, rfl, hdecides⟩ | ⟨hnot, ⟨before, held, after, hlast, hheld⟩, hx⟩)
    · exact ⟨inputs, held, [], Or.inl ⟨hdecides, rfl, rfl, rfl⟩, by simp⟩
    · refine ⟨before, held, after ++ [x], Or.inr ⟨hnot, after, rfl, hlast⟩, fun later t hmem => ?_⟩
      rcases List.mem_append.mp hmem with hmem | hmem
      · exact hheld later t hmem
      · exact hx later t (List.mem_singleton.mp hmem).symm

/-- While a recording goes on, the hotkey is held. -/
theorem HeldSince.heldAfter {h : Hotkey} {inputs : List Input} {i : Instant}
    (hs : HeldSince h inputs i) : heldAfter h inputs = true := by
  induction inputs using List.reverseRecOn with
  | nil =>
    obtain ⟨before, held, after, ⟨heq, -⟩, -⟩ := hs
    simp at heq
  | append_singleton inputs x ih =>
    rw [heldAfter_concat]
    rcases heldSince_concat.mp hs with ⟨held, rfl, hdecides⟩ | ⟨-, hbefore, hx⟩
    · exact hdecides.1
    · cases x with
      | snapshot held t => exact hx held t rfl
      | denied t => exact ih hbefore

/-! ## What a step can do -/

/-- Handles a signal behind the watch: the session takes it, and the status notes its events. -/
def handle (p : Pipeline) (edge : Option Edge) (watch : Watch) (signal : Signal) :
    Shown × Pipeline :=
  (⟨edge, (p.session.step signal).2⟩,
    ⟨watch, (p.session.step signal).1, p.status.applyAll (p.session.step signal).2⟩)

/-- A snapshot that leaves the hotkey held or not held changes nothing, and every other input is
handled as one signal: a press, a release, or a refusal that goes past the watch. -/
theorem step_cases (p : Pipeline) (x : Input) :
    (∃ held i, x = .snapshot held i ∧ p.watch.held = p.watch.hotkey.isHeld held
        ∧ p.step x = (⟨none, []⟩, p))
      ∨ (∃ held i, x = .snapshot held i ∧ p.watch.held = false
          ∧ p.watch.hotkey.isHeld held = true
          ∧ p.step x = p.handle (some .pressed) { p.watch with held := true } ⟨.pressed, i⟩)
      ∨ (∃ held i, x = .snapshot held i ∧ p.watch.held = true
          ∧ p.watch.hotkey.isHeld held = false
          ∧ p.step x = p.handle (some .released) { p.watch with held := false } ⟨.released, i⟩)
      ∨ (∃ i, x = .denied i ∧ p.step x = p.handle none p.watch ⟨.permissionDenied, i⟩) := by
  obtain ⟨⟨hotkey, was⟩, session, status⟩ := p
  cases x with
  | denied i =>
    exact Or.inr (Or.inr (Or.inr ⟨i, rfl, by simp [step, sense, handle, Session.run]⟩))
  | snapshot held i =>
    cases hnow : hotkey.isHeld held <;> cases was
    · exact Or.inl ⟨held, i, rfl, hnow.symm, by
        simp [step, sense, Watch.see, hnow, Session.run, Status.applyAll]⟩
    · exact Or.inr (Or.inr (Or.inl ⟨held, i, rfl, rfl, hnow, by
        simp [step, sense, Watch.see, hnow, handle, Session.run, Publisher.kindOf]⟩))
    · exact Or.inr (Or.inl ⟨held, i, rfl, rfl, hnow, by
        simp [step, sense, Watch.see, hnow, handle, Session.run, Publisher.kindOf]⟩)
    · exact Or.inl ⟨held, i, rfl, hnow.symm, by
        simp [step, sense, Watch.see, hnow, Session.run, Status.applyAll]⟩

/-- One input more is handled after the others. -/
theorem run_concat (p : Pipeline) (inputs : List Input) (x : Input) :
    p.run (inputs ++ [x])
      = ((p.run inputs).1 ++ [((p.run inputs).2.step x).1], ((p.run inputs).2.step x).2) := by
  induction inputs generalizing p with
  | nil => simp [run]
  | cons y inputs ih => simp [run, ih]

/-! ## What every step keeps -/

/-- The pipeline is as its inputs say: the watch knows whether the last snapshot held the hotkey, the
session is as the last input that decides left it, and the status shows its mode. -/
structure Follows (h : Hotkey) (inputs : List Input) (p : Pipeline) : Prop where
  hotkey : p.watch.hotkey = h
  held : p.watch.held = heldAfter h inputs
  permission : p.session = .permissionRequired ↔ LacksPermission h inputs
  recording : ∀ i, p.session = .recording i ↔ HeldSince h inputs i
  mode : p.status.mode = .ofSession p.session
  registered : p.status.hotkeyRegistered = (p.status.mode != .permissionRequired)

/-- Nothing has decided yet. -/
theorem follows_start (h : Hotkey) : Follows h [] (start h) where
  hotkey := rfl
  held := rfl
  permission := by simp [start, LacksPermission, LastWhere]
  recording := by simp [start, HeldSince, LastWhere]
  mode := rfl
  registered := rfl

section Steps

variable {h : Hotkey} {inputs : List Input} {p : Pipeline}

/-- A signal that is handled takes the status along with the session. -/
theorem Follows.status_handle (hf : Follows h inputs p) (edge : Option Edge) (watch : Watch)
    (signal : Signal) :
    (p.handle edge watch signal).2.status.mode
        = .ofSession (p.handle edge watch signal).2.session
      ∧ (p.handle edge watch signal).2.status.hotkeyRegistered
        = ((p.handle edge watch signal).2.status.mode != .permissionRequired) := by
  refine ⟨Status.mode_applyAll_step hf.mode signal, ?_⟩
  simp only [handle, Status.hotkeyRegistered_applyAll]
  split_ifs with hnone
  · rw [hnone]
    exact hf.registered
  · rfl

/-- A snapshot that leaves the hotkey as it was decides nothing. -/
theorem Follows.unchanged (hf : Follows h inputs p) {held : Modifiers} {i : Instant}
    (hsame : p.watch.held = p.watch.hotkey.isHeld held) :
    Follows h (inputs ++ [.snapshot held i]) p := by
  have hheld : heldAfter h inputs = h.isHeld held := by rw [← hf.held, hsame, hf.hotkey]
  have hnot : ¬ Decides h inputs (.snapshot held i) := by
    rintro ⟨hnow, hwas⟩
    rw [hheld, hnow] at hwas
    simp at hwas
  refine { hf with held := ?_, permission := ?_, recording := fun j => ?_ }
  · rw [heldAfter_concat, hsame, hf.hotkey]
  · rw [hf.permission, lacksPermission_concat]
    simp [hnot]
  · rw [hf.recording j, heldSince_concat]
    constructor
    · intro hs
      refine Or.inr ⟨hnot, hs, fun later t hx => ?_⟩
      obtain ⟨rfl, -⟩ := Input.snapshot.inj hx
      rw [← hheld, hs.heldAfter]
    · rintro (⟨_, -, hdecides⟩ | ⟨-, hs, -⟩)
      · exact absurd hdecides hnot
      · exact hs

/-- A snapshot on which the hotkey becomes held starts a recording: none was going on. -/
theorem Follows.pressed (hf : Follows h inputs p) {held : Modifiers} {i : Instant}
    (hwas : p.watch.held = false) (hnow : p.watch.hotkey.isHeld held = true) :
    Follows h (inputs ++ [.snapshot held i])
      (p.handle (some .pressed) { p.watch with held := true } ⟨.pressed, i⟩).2 := by
  have hdecides : Decides h inputs (.snapshot held i) :=
    ⟨hf.hotkey ▸ hnow, hf.held ▸ hwas⟩
  have hsession : (p.session.step ⟨.pressed, i⟩).1 = .recording i := by
    cases hs : p.session with
    | idle => rfl
    | permissionRequired => rfl
    | recording j =>
      -- the hotkey would be held
      have := ((hf.recording j).mp hs).heldAfter
      rw [← hf.held, hwas] at this
      simp at this
  obtain ⟨hmode, hregistered⟩ := hf.status_handle (some .pressed) { p.watch with held := true }
    ⟨.pressed, i⟩
  refine ⟨hf.hotkey, ?_, ?_, fun j => ?_, hmode, hregistered⟩
  · rw [heldAfter_concat, ← hf.hotkey]
    exact hnow.symm
  · simp [handle, hsession, lacksPermission_concat, hdecides]
  · simp [handle, hsession, heldSince_concat, hdecides]

/-- A snapshot on which the hotkey is no longer held ends a recording, if one was going on. -/
theorem Follows.released (hf : Follows h inputs p) {held : Modifiers} {i : Instant}
    (hnow : p.watch.hotkey.isHeld held = false) :
    Follows h (inputs ++ [.snapshot held i])
      (p.handle (some .released) { p.watch with held := false } ⟨.released, i⟩).2 := by
  rw [hf.hotkey] at hnow
  have hnot : ¬ Decides h inputs (.snapshot held i) := by simp [Decides, hnow]
  obtain ⟨hmode, hregistered⟩ := hf.status_handle (some .released) { p.watch with held := false }
    ⟨.released, i⟩
  refine ⟨hf.hotkey, ?_, ?_, fun j => ?_, hmode, hregistered⟩
  · rw [heldAfter_concat]
    exact hnow.symm
  · simp only [handle, lacksPermission_concat, reduceCtorEq, exists_false, hnot, not_false_eq_true,
      true_and, false_or, ← hf.permission]
    cases p.session <;> simp [Session.step]
  · simp only [handle, heldSince_concat, hnot, and_false, exists_false, false_or]
    cases p.session <;> simp [Session.step, hnow]

/-- A denial takes the permission away, whatever went on. -/
theorem Follows.denied (hf : Follows h inputs p) (i : Instant) :
    Follows h (inputs ++ [.denied i]) (p.handle none p.watch ⟨.permissionDenied, i⟩).2 := by
  have hsession : (p.session.step ⟨.permissionDenied, i⟩).1 = .permissionRequired := by
    cases p.session <;> rfl
  obtain ⟨hmode, hregistered⟩ := hf.status_handle none p.watch ⟨.permissionDenied, i⟩
  refine ⟨hf.hotkey, ?_, ?_, fun j => ?_, hmode, hregistered⟩
  · rw [heldAfter_concat]
    exact hf.held
  · simp [handle, hsession, lacksPermission_concat]
  · simp [handle, hsession, heldSince_concat, Decides]

/-- Every step keeps it so. -/
theorem Follows.step (hf : Follows h inputs p) (x : Input) :
    Follows h (inputs ++ [x]) (p.step x).2 := by
  rcases p.step_cases x with ⟨held, i, rfl, hsame, hstep⟩ | ⟨held, i, rfl, hwas, hnow, hstep⟩
    | ⟨held, i, rfl, -, hnow, hstep⟩ | ⟨i, rfl, hstep⟩ <;> rw [hstep]
  · exact hf.unchanged hsame
  · exact hf.pressed hwas hnow
  · exact hf.released hnow
  · exact hf.denied i

end Steps

/-- After any inputs the pipeline is as they say. -/
theorem follows_run (h : Hotkey) (inputs : List Input) :
    Follows h inputs ((start h).run inputs).2 := by
  induction inputs using List.reverseRecOn with
  | nil => exact follows_start h
  | append_singleton inputs x ih =>
    rw [run_concat]
    exact ih.step x

/-! ## The last event -/

/-- The session events that an input causes after some others. -/
def emitted (h : Hotkey) (before : List Input) (x : Input) : List SessionEvent :=
  (((start h).run before).2.step x).1.events

/-- Whether an input causes a session event after some others. -/
def Emits (h : Hotkey) (before : List Input) (x : Input) : Prop := emitted h before x ≠ []

/-- The last input that caused a session event was at the instant `i`. -/
def LastEmission (h : Hotkey) (inputs : List Input) (i : Instant) : Prop :=
  ∃ before x after, LastWhere (Emits h) inputs before x after ∧ x.instant = i

/-- The last event is that of the new input, if it causes one. -/
theorem lastEmission_concat {h : Hotkey} {inputs : List Input} {x : Input} {i : Instant} :
    LastEmission h (inputs ++ [x]) i
      ↔ (Emits h inputs x ∧ x.instant = i) ∨ (¬ Emits h inputs x ∧ LastEmission h inputs i) := by
  simp only [LastEmission, lastWhere_concat]
  constructor
  · rintro ⟨before, y, after, ⟨hemits, -, rfl, -⟩ | ⟨hnot, rest, -, hlast⟩, hi⟩
    · exact Or.inl ⟨hemits, hi⟩
    · exact Or.inr ⟨hnot, before, y, rest, hlast, hi⟩
  · rintro (⟨hemits, hi⟩ | ⟨hnot, before, y, after, hlast, hi⟩)
    · exact ⟨inputs, x, [], Or.inl ⟨hemits, rfl, rfl, rfl⟩, hi⟩
    · exact ⟨before, y, after ++ [x], Or.inr ⟨hnot, after, rfl, hlast⟩, hi⟩

/-- A signal that is handled leaves its instant in the status, unless it caused no event. -/
theorem lastEventAt_handle (p : Pipeline) (edge : Option Edge) (watch : Watch) (signal : Signal) :
    (p.handle edge watch signal).2.status.lastEventAt
      = if (p.handle edge watch signal).1.events = [] then p.status.lastEventAt
        else some signal.instant := by
  obtain ⟨kind, i⟩ := signal
  cases kind <;> cases hs : p.session <;>
    simp [handle, hs, Session.step, Status.applyAll, Status.apply, Session.stop,
      SessionEvent.instant]

/-- So does an input. -/
theorem lastEventAt_step (p : Pipeline) (x : Input) :
    (p.step x).2.status.lastEventAt
      = if (p.step x).1.events = [] then p.status.lastEventAt else some x.instant := by
  rcases p.step_cases x with ⟨held, i, rfl, -, hstep⟩ | ⟨held, i, rfl, -, -, hstep⟩
    | ⟨held, i, rfl, -, -, hstep⟩ | ⟨i, rfl, hstep⟩ <;> rw [hstep]
  · rfl
  · exact lastEventAt_handle ..
  · exact lastEventAt_handle ..
  · exact lastEventAt_handle ..

/-- The status has the instant of the last input that caused an event. -/
theorem lastEventAt_run (h : Hotkey) (inputs : List Input) (i : Instant) :
    ((start h).run inputs).2.status.lastEventAt = some i ↔ LastEmission h inputs i := by
  induction inputs using List.reverseRecOn with
  | nil => simp [run, start, LastEmission, LastWhere, Status.setHotkey, Status.initial]
  | append_singleton inputs x ih =>
    rw [run_concat, lastEventAt_step, lastEmission_concat, ← ih, Emits, emitted]
    split_ifs with hnone <;> simp [hnone]

/-- The status has no instant exactly if no input caused an event. -/
theorem lastEventAt_run_eq_none (h : Hotkey) (inputs : List Input) :
    ((start h).run inputs).2.status.lastEventAt = none
      ↔ ∀ before x after, inputs = before ++ x :: after → ¬ Emits h before x := by
  constructor
  · intro hnone before x after heq hemits
    obtain ⟨before, y, after, hlast⟩ := exists_lastWhere heq hemits
    have hsome := (lastEventAt_run h inputs y.instant).mpr ⟨before, y, after, hlast, rfl⟩
    simp [hnone] at hsome
  · intro hnever
    rw [Option.eq_none_iff_forall_ne_some]
    intro i hi
    obtain ⟨before, x, after, ⟨heq, hemits, -⟩, -⟩ := (lastEventAt_run h inputs i).mp hi
    exact hnever before x after heq hemits

/-! ## The outcome -/

open Wire in
/-- **The outcome of a history.**  The last input that decides says what the session is in, whatever
the instants: permission is missing if it is a denial, a recording goes on since it if it is a
snapshot and the hotkey has been held ever since, and otherwise the session is idle. The status that
a client is told, at whatever uptime, shows that, whether the hook works, and the instant of the last
input that caused an event. -/
theorem outcome_run (h : Hotkey) (inputs : List Input) :
    let p := ((start h).run inputs).2
    (p.session = .permissionRequired ↔ LacksPermission h inputs)
      ∧ (∀ i, p.session = .recording i ↔ HeldSince h inputs i)
      ∧ (p.session = .idle ↔ ¬ LacksPermission h inputs ∧ ∀ i, ¬ HeldSince h inputs i)
      ∧ ∀ secs, ∃ s : Status,
          Connection.reply { p.status with uptimeSecs := secs } Request.getStatus.toJson.toBytes
              = .status s
            ∧ s.mode = .ofSession p.session
            ∧ s.hotkeyRegistered = (s.mode != .permissionRequired)
            ∧ (∀ i, s.lastEventAt = some i ↔ LastEmission h inputs i)
            ∧ (s.lastEventAt = none
                ↔ ∀ before x after, inputs = before ++ x :: after → ¬ Emits h before x) := by
  intro p
  have hf : Follows h inputs p := follows_run h inputs
  refine ⟨hf.permission, hf.recording, ?_, fun secs => ⟨{ p.status with uptimeSecs := secs }, ?_,
    hf.mode, hf.registered, lastEventAt_run h inputs, lastEventAt_run_eq_none h inputs⟩⟩
  · rw [← hf.permission]
    simp only [← hf.recording]
    cases p.session <;> simp
  · rw [Connection.reply, Request.decode_toJson]
    rfl

end Pipeline

end HoldToRecord
