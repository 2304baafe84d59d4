import Mathlib.Tactic
import HoldToRecord.Proofs.Wire.Framing

/-!
# What a writer takes

A writer may take few bytes in a call, and it may have room for a part of what it is given only. If
no call takes nothing while there is room, how many bytes each call takes does not matter: of all
the bytes of some frames the writer takes as many as it has room for, and the frames that lie
within them are the ones that were written (`writeFrames_eq`). `Took w bytes v` says that `v` is
the writer `w` after it has taken some bytes.
-/

namespace HoldToRecord.Wire.Sink

/-! ## Room -/

/-- Each call of the writer takes one byte at least, if there is room for it. -/
def Steady (w : Sink) : Prop := ∀ call, w.pace call ≠ some 0

/-- Whether the writer has room for a number of bytes. -/
def hasRoom (w : Sink) (n : Nat) : Bool := w.room.all (n ≤ ·)

/-- What the writer has room for of some bytes. -/
def share (w : Sink) (bytes : Bytes) : Bytes :=
  match w.room with
  | none => bytes
  | some r => bytes.take r

/-- There is room for nothing. -/
@[simp] theorem hasRoom_zero (w : Sink) : w.hasRoom 0 = true := by
  cases hr : w.room <;> simp [hasRoom, hr]

/-- Nothing is a share of nothing. -/
@[simp] theorem share_nil (w : Sink) : w.share [] = [] := by
  cases hr : w.room <;> simp [share, hr]

/-- Bytes that there is room for are taken whole. -/
theorem share_of_hasRoom {w : Sink} {bytes : Bytes} (h : w.hasRoom bytes.length = true) :
    w.share bytes = bytes := by
  cases hr : w.room with
  | none => simp [share, hr]
  | some r =>
    simp only [hasRoom, hr, Option.all_some, decide_eq_true_eq] at h
    simp only [share, hr]
    exact List.take_of_length_le h

/-- A writer after it has taken some bytes. How often it was called and flushed is left open. -/
structure Took (w : Sink) (bytes : Bytes) (v : Sink) : Prop where
  pace : v.pace = w.pace
  room : v.room = w.room.map (· - bytes.length)
  whenFull : v.whenFull = w.whenFull
  flushFault : v.flushFault = w.flushFault
  written : v.written = w.written ++ bytes

/-- A writer that is only called, or flushed, takes nothing. -/
theorem took_nil (w : Sink) (calls flushes : Nat) :
    Took w [] { w with calls := calls, flushes := flushes } where
  pace := rfl
  room := by simp
  whenFull := rfl
  flushFault := rfl
  written := (List.append_nil _).symm

/-- What one call takes. -/
theorem took_accept (w : Sink) (bytes : Bytes) : Took w bytes (w.accept bytes) where
  pace := rfl
  room := rfl
  whenFull := rfl
  flushFault := rfl
  written := by simp [written, accept]

namespace Took

variable {u v w : Sink} {as bs : Bytes}

/-- Bytes are taken one after the other. -/
theorem trans (h : Took w as u) (h' : Took u bs v) : Took w (as ++ bs) v where
  pace := h'.pace.trans h.pace
  room := by
    rw [h'.room, h.room, Option.map_map, List.length_append]
    congr 1
    funext r
    exact Nat.sub_sub r as.length bs.length
  whenFull := h'.whenFull.trans h.whenFull
  flushFault := h'.flushFault.trans h.flushFault
  written := by rw [h'.written, h.written, List.append_assoc]

/-- The writer keeps its pace. -/
theorem steady (h : Took w as u) (hw : w.Steady) : u.Steady := by
  intro call
  rw [h.pace]
  exact hw call

/-- The writer fails in the same way when it is full. -/
theorem fullFault_eq (h : Took w as u) : u.fullFault = w.fullFault := by
  rw [fullFault, fullFault, h.whenFull]

/-- What is taken of the bytes that follow is what there is still room for. -/
theorem share_append (h : Took w (w.share as) u) (bs : Bytes) :
    w.share (as ++ bs) = w.share as ++ u.share bs := by
  have hu := h.room
  cases hr : w.room with
  | none =>
    rw [hr, Option.map_none] at hu
    simp only [share, hr, hu]
  | some r =>
    rw [hr, Option.map_some] at hu
    simp only [share, hr] at hu
    simp only [share, hr, hu]
    -- of the room that the first bytes had, the part that they did not need is left
    rw [List.take_append, List.length_take]
    congr 2
    omega

/-- There is room for more bytes behind some others if there is room for these, and then for them. -/
theorem hasRoom_add (h : Took w (w.share as) u) (n : Nat) :
    w.hasRoom (as.length + n) = (w.hasRoom as.length && u.hasRoom n) := by
  have hu := h.room
  cases hr : w.room with
  | none =>
    rw [hr, Option.map_none] at hu
    simp only [hasRoom, hr, hu, Option.all_none, Bool.and_self]
  | some r =>
    rw [hr, Option.map_some] at hu
    simp only [share, hr, List.length_take] at hu
    simp only [hasRoom, hr, hu, Option.all_some, ← Bool.decide_and, decide_eq_decide]
    omega

/-- A writer that was given more than it has room for is full. -/
theorem room_eq_zero (h : Took w (w.share as) u) (hfull : w.hasRoom as.length = false) :
    u.room = some 0 := by
  have hu := h.room
  cases hr : w.room with
  | none => simp [hasRoom, hr] at hfull
  | some r =>
    simp only [hasRoom, hr, Option.all_some, decide_eq_false_iff_not] at hfull
    rw [hu, hr, Option.map_some]
    simp only [share, hr, List.length_take]
    congr 1
    omega

end Took

/-- A full writer takes nothing. -/
theorem share_of_full {w : Sink} (h : w.room = some 0) (bytes : Bytes) : w.share bytes = [] := by
  simp [share, h]

/-- A full writer has no room. -/
theorem hasRoom_of_full {w : Sink} (h : w.room = some 0) {n : Nat} (hn : 0 < n) :
    w.hasRoom n = false := by
  simp only [hasRoom, h, Option.all_some, decide_eq_false_iff_not]
  omega

/-! ## Writing bytes -/

/-- How many bytes a call of a steady writer takes at most: none if the writer is full, and else
some number that there is room for, or any. -/
theorem Steady.grasp_cases {w : Sink} (h : w.Steady) :
    (w.room = some 0 ∧ w.grasp = some 0) ∨ (w.room = none ∧ w.grasp = none)
      ∨ ∃ n, w.grasp = some (n + 1) ∧ ∀ k ≤ n + 1, w.hasRoom k = true := by
  have hpace := h w.calls
  unfold grasp hasRoom
  generalize w.pace w.calls = pace at hpace ⊢
  rcases pace with _ | _ | c <;> rcases w.room with _ | _ | r
  · exact Or.inr (Or.inl ⟨rfl, rfl⟩)
  · exact Or.inl ⟨rfl, rfl⟩
  · exact Or.inr (Or.inr ⟨r, rfl, fun k hk => by simpa using hk⟩)
  · exact absurd rfl hpace
  · exact absurd rfl hpace
  · exact absurd rfl hpace
  · exact Or.inr (Or.inr ⟨c, rfl, fun k hk => rfl⟩)
  · exact Or.inl ⟨rfl, rfl⟩
  · refine Or.inr (Or.inr ⟨min c r, ?_, ?_⟩)
    · show some (min (c + 1) (r + 1)) = some (min c r + 1)
      rw [Nat.add_min_add_right]
    · intro k hk
      simp only [Option.all_some, decide_eq_true_eq]
      omega

/-- A call of a steady writer: it takes nothing when the writer is full, and else some of the bytes,
which there is room for, and leaves the others. -/
theorem Steady.portion_cases {w : Sink} (h : w.Steady) (b : UInt8) (bytes : Bytes) :
    (w.room = some 0 ∧ w.portion (b :: bytes) = ([], b :: bytes))
      ∨ ∃ more rest, w.portion (b :: bytes) = (b :: more, rest) ∧ bytes = more ++ rest
          ∧ w.hasRoom (b :: more).length = true := by
  unfold portion
  rcases h.grasp_cases with ⟨hroom, hgrasp⟩ | ⟨hroom, hgrasp⟩ | ⟨n, hgrasp, hfits⟩
  · left
    rw [hgrasp]
    exact ⟨hroom, rfl⟩
  · right
    rw [hgrasp]
    exact ⟨bytes, [], rfl, (List.append_nil _).symm, by simp [hasRoom, hroom]⟩
  · right
    rw [hgrasp]
    refine ⟨bytes.take n, bytes.drop n, ?_, (List.take_append_drop n bytes).symm, ?_⟩
    · simp [List.splitAt_eq]
    · apply hfits
      rw [List.length_cons, List.length_take]
      omega

/-- A steady writer takes what it has room for, in one call or in many, and fails if that is not
all. -/
theorem Steady.writeAll_eq {w : Sink} (h : w.Steady) (bytes : Bytes) :
    ∃ v, w.writeAll bytes
        = (if w.hasRoom bytes.length then .ok () else .error w.fullFault, v)
      ∧ Took w (w.share bytes) v := by
  fun_induction writeAll w bytes with
  | case1 w bytes hempty =>
    obtain rfl := List.isEmpty_iff.mp hempty
    refine ⟨w, by simp, ?_⟩
    rw [share_nil]
    exact took_nil w w.calls w.flushes
  | case2 w bytes hempty rest hportion =>
    obtain ⟨b, bytes, rfl⟩ := List.exists_cons_of_ne_nil (mt List.isEmpty_iff.mpr hempty)
    rcases h.portion_cases b bytes with ⟨hroom, -⟩ | ⟨more, rest', hp, -⟩
    · rw [hasRoom_of_full hroom (by simp), share_of_full hroom]
      exact ⟨_, rfl, took_nil w (w.calls + 1) w.flushes⟩
    · rw [hp, Prod.mk.injEq] at hportion
      exact absurd hportion.1 (by simp)
  | case3 w bytes hempty c more rest hportion ih =>
    obtain ⟨b, bytes, rfl⟩ := List.exists_cons_of_ne_nil (mt List.isEmpty_iff.mpr hempty)
    rcases h.portion_cases b bytes with ⟨-, hp⟩ | ⟨more', rest', hp, rfl, hroom⟩
    · rw [hp, Prod.mk.injEq] at hportion
      exact absurd hportion.1.symm (by simp)
    · rw [hp, Prod.mk.injEq, List.cons.injEq] at hportion
      obtain ⟨⟨rfl, rfl⟩, rfl⟩ := hportion
      -- the bytes of the call fit, so they are their own share
      have htook : Took w (w.share (b :: more')) (w.accept (b :: more')) := by
        rw [share_of_hasRoom hroom]
        exact took_accept w _
      obtain ⟨v, hv, hrest⟩ := ih (htook.steady h)
      refine ⟨v, ?_, ?_⟩
      · rw [hv, htook.fullFault_eq, ← List.cons_append, List.length_append, htook.hasRoom_add,
          hroom, Bool.true_and]
      · rw [← List.cons_append, htook.share_append]
        exact htook.trans hrest

/-! ## Writing frames -/

/-- What becomes of a message whose frame is taken whole: the flush after it decides. -/
def flushed (w : Sink) : Except FrameFault Unit :=
  match w.flushFault with
  | none => .ok ()
  | some fault => .error (.io fault)

/-- What becomes of a message whose frame is the end of the next `n` bytes. -/
def outcome (w : Sink) (n : Nat) : Except FrameFault Unit :=
  if w.hasRoom n then w.flushed else .error w.fullFault

/-- Counted from behind some bytes, a message comes to the same. -/
theorem Took.outcome_add {w u : Sink} {as : Bytes} (h : Took w (w.share as) u) {n : Nat}
    (hn : 0 < n) : w.outcome (as.length + n) = u.outcome n := by
  have hroom : w.hasRoom (as.length + n) = u.hasRoom n := by
    rw [h.hasRoom_add]
    cases has : w.hasRoom as.length with
    | true => rw [Bool.true_and]
    | false => rw [Bool.false_and, hasRoom_of_full (h.room_eq_zero has) hn]
  rw [outcome, outcome, hroom, h.fullFault_eq, flushed, flushed, h.flushFault]

/-- A flush takes nothing, and fails as all flushes of the writer do. -/
theorem flush_eq (w : Sink) : ∃ v, w.flush = (w.flushed, v) ∧ Took w [] v := by
  refine ⟨{ w with flushes := w.flushes + 1 }, ?_, took_nil w w.calls (w.flushes + 1)⟩
  unfold flush flushed
  dsimp only
  cases w.flushFault <;> rfl

/-- A steady writer takes what it has room for of a frame. -/
theorem Steady.writeFrame_eq {w : Sink} (h : w.Steady) (body : Bytes) :
    ∃ v, w.writeFrame body = (w.outcome (frame body).length, v)
      ∧ Took w (w.share (frame body)) v := by
  obtain ⟨u, hu, hlength⟩ := h.writeAll_eq (lengthBytes body.length)
  obtain ⟨v, hv, hbody⟩ := (hlength.steady h).writeAll_eq body
  have hframe : Took w (w.share (frame body)) v := by
    rw [frame, hlength.share_append]
    exact hlength.trans hbody
  rw [outcome, frame, List.length_append, hlength.hasRoom_add, ← frame]
  cases h₁ : w.hasRoom (lengthBytes body.length).length with
  | false =>
    rw [h₁, if_neg Bool.false_ne_true] at hu
    refine ⟨u, by simp only [writeFrame, hu, Bool.false_and, Bool.false_eq_true, if_false], ?_⟩
    -- the writer is full within the length, so the body has no share
    rw [frame, hlength.share_append, share_of_full (hlength.room_eq_zero h₁), List.append_nil]
    exact hlength
  | true =>
    rw [h₁, if_pos rfl] at hu
    cases h₂ : u.hasRoom body.length with
    | false =>
      rw [h₂, if_neg Bool.false_ne_true, hlength.fullFault_eq] at hv
      refine ⟨v, ?_, hframe⟩
      simp only [writeFrame, hu, hv, Bool.and_false, Bool.false_eq_true, if_false]
    | true =>
      rw [h₂, if_pos rfl] at hv
      obtain ⟨x, hx, hflush⟩ := v.flush_eq
      refine ⟨x, ?_, ?_⟩
      · simp only [writeFrame, hu, hv, hx, Bool.and_self, if_true, flushed, hframe.flushFault]
      · rw [← List.append_nil (w.share (frame body))]
        exact hframe.trans hflush

/-- A steady writer takes what it has room for of all frames together, and the message whose frame
ends within that is written. -/
theorem Steady.writeFrames_eq {w : Sink} (h : w.Steady) (bodies : List Bytes) :
    ∃ v, w.writeFrames bodies
        = ((List.range bodies.length).map fun i =>
            w.outcome ((bodies.take (i + 1)).flatMap frame).length, v)
      ∧ Took w (w.share (bodies.flatMap frame)) v := by
  induction bodies generalizing w with
  | nil =>
    refine ⟨w, rfl, ?_⟩
    rw [List.flatMap_nil, share_nil]
    exact took_nil w w.calls w.flushes
  | cons body bodies ih =>
    obtain ⟨u, hu, hframe⟩ := h.writeFrame_eq body
    obtain ⟨v, hv, hframes⟩ := ih (hframe.steady h)
    refine ⟨v, ?_, ?_⟩
    · simp only [writeFrames, hu, hv, Prod.mk.injEq, and_true]
      rw [List.length_cons, List.range_succ_eq_map, List.map_cons, List.map_map]
      congr 1
      · simp
      apply List.map_congr_left
      intro i hi
      -- a later frame ends behind the first one
      have hpos : 0 < ((bodies.take (i + 1)).flatMap frame).length := by
        cases bodies with
        | nil => simp at hi
        | cons next others =>
          rw [List.take_succ_cons, List.flatMap_cons, List.length_append, length_frame]
          omega
      rw [← hframe.outcome_add hpos]
      simp
    · rw [List.flatMap_cons, hframe.share_append]
      exact hframe.trans hframes

end HoldToRecord.Wire.Sink
