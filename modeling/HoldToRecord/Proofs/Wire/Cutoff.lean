import Mathlib.Tactic
import HoldToRecord.Proofs.Wire.Closing

/-!
# A writer that fills up

Messages are written one after the other on a writer that has room for some number of bytes only.
The writer takes the bytes of their frames up to that number, wherever in a frame this is
(`Steady.writeFrames_eq` for any room). The messages whose frames lie whole within it are written
and all later ones fail, and these messages are what a reader gets out of the bytes
(`Steady.cut_off`); what is behind them is a part of a frame, which a reader does not take for one
(`not_startsFrame_of_cut`).
-/

namespace HoldToRecord.Wire

/-! ## Frames within a limit -/

/-- How many of some frames, from the first one on, lie whole within a number of bytes. -/
def wholeFrames (limit : Nat) : List Bytes → Nat
  | [] => 0
  | body :: bodies =>
    if (frame body).length ≤ limit then wholeFrames (limit - (frame body).length) bodies + 1 else 0

/-- No more frames lie within a limit than there are. -/
theorem wholeFrames_le_length (limit : Nat) (bodies : List Bytes) :
    wholeFrames limit bodies ≤ bodies.length := by
  induction bodies generalizing limit with
  | nil => exact Nat.le_refl 0
  | cons body bodies ih =>
    rw [wholeFrames]
    split
    · exact Nat.succ_le_succ (ih _)
    · exact Nat.zero_le _

/-- Some frames lie whole within a limit exactly if they are no longer than it. -/
theorem le_wholeFrames_iff {limit k : Nat} {bodies : List Bytes} (hk : k ≤ bodies.length) :
    k ≤ wholeFrames limit bodies ↔ ((bodies.take k).flatMap frame).length ≤ limit := by
  induction bodies generalizing limit k with
  | nil =>
    obtain rfl : k = 0 := Nat.le_zero.mp hk
    simp
  | cons body bodies ih =>
    cases k with
    | zero => simp
    | succ k =>
      rw [wholeFrames, List.take_succ_cons, List.flatMap_cons, List.length_append]
      split
      · have hrest := @ih (limit - (frame body).length) k (Nat.le_of_succ_le_succ hk)
        omega
      · omega

/-- Bytes of frames that are cut off at a limit are the frames that lie whole within it, and a part
of the next one. -/
theorem exists_cut (limit : Nat) (bodies : List Bytes) :
    ∃ tail, (bodies.flatMap frame).take limit
        = (bodies.take (wholeFrames limit bodies)).flatMap frame ++ tail
      ∧ (tail = [] ∨ ∃ body ∈ bodies, tail <+: frame body ∧ tail ≠ frame body) := by
  induction bodies generalizing limit with
  | nil => exact ⟨[], by simp, Or.inl rfl⟩
  | cons body bodies ih =>
    rw [wholeFrames, List.flatMap_cons, List.take_append]
    split
    · next hfits =>
      obtain ⟨tail, htake, htail⟩ := ih (limit - (frame body).length)
      refine ⟨tail, ?_, ?_⟩
      · rw [List.take_of_length_le hfits, htake, List.take_succ_cons, List.flatMap_cons,
          List.append_assoc]
      · rcases htail with hnil | ⟨b, hb, hpart⟩
        · exact Or.inl hnil
        · exact Or.inr ⟨b, List.mem_cons_of_mem _ hb, hpart⟩
    · next hover =>
      -- the limit is within the first frame
      refine ⟨(frame body).take limit, ?_, Or.inr ⟨body, List.mem_cons_self, ?_, ?_⟩⟩
      · rw [Nat.sub_eq_zero_of_le (Nat.le_of_lt (Nat.not_le.mp hover))]
        simp
      · exact List.take_prefix _ _
      · intro heq
        have := congrArg List.length heq
        rw [List.length_take] at this
        omega

/-- A part of a frame within the limit of bodies is not taken for a frame. -/
theorem not_startsFrame_of_cut {tail body : Bytes} (hfit : body.length ≤ maxBody)
    (hpart : tail <+: frame body) (hne : tail ≠ frame body) : ¬ StartsFrame tail := by
  rintro ⟨body', rest, hfit', rfl⟩
  obtain ⟨more, hmore⟩ := hpart
  rw [List.append_assoc, ← List.append_nil (frame body)] at hmore
  -- a frame that starts with another one is that one, so nothing was cut off
  obtain ⟨rfl, hnil⟩ := frame_append_inj hfit' hfit hmore
  obtain ⟨rfl, -⟩ := List.append_eq_nil_iff.mp hnil
  exact hne (List.append_nil _)

/-- Frames that are cut off at a limit are found up to it. -/
theorem exists_framed_cut {bodies : List Bytes} (hfit : ∀ body ∈ bodies, body.length ≤ maxBody)
    (limit : Nat) :
    ∃ tail, Framed ((bodies.flatMap frame).take limit)
      (bodies.take (wholeFrames limit bodies)) tail := by
  obtain ⟨tail, htake, htail⟩ := exists_cut limit bodies
  refine ⟨tail, htake, fun body hbody => hfit body (List.mem_of_mem_take hbody), ?_⟩
  rcases htail with rfl | ⟨body, hbody, hpart, hne⟩
  · rw [startsFrame_iff]
    simp
  · exact not_startsFrame_of_cut (hfit body hbody) hpart hne

/-! ## Writing up to a limit -/

namespace Sink

/-- Two results that follow one another at a place. -/
theorem map_range_ite {α : Type} {n m : Nat} (h : n ≤ m) (a b : α) :
    (List.range m).map (fun i => if i < n then a else b)
      = List.replicate n a ++ List.replicate (m - n) b := by
  obtain ⟨k, rfl⟩ := Nat.exists_eq_add_of_le h
  rw [List.range_add, List.map_append, Nat.add_sub_cancel_left]
  congr 1
  · rw [List.eq_replicate_iff]
    refine ⟨by simp, ?_⟩
    intro x hx
    obtain ⟨i, hi, rfl⟩ := List.mem_map.mp hx
    rw [if_pos (List.mem_range.mp hi)]
  · rw [List.eq_replicate_iff]
    refine ⟨by simp, ?_⟩
    intro x hx
    obtain ⟨i, hi, rfl⟩ := List.mem_map.mp hx
    obtain ⟨j, -, rfl⟩ := List.mem_map.mp hi
    rw [if_neg (by omega)]

/-- The messages whose frames lie whole within the room of a steady writer are flushed, and the
others find it full. -/
theorem Steady.results_eq {w : Sink} (h : w.Steady) {limit : Nat} (hroom : w.room = some limit)
    (bodies : List Bytes) :
    (w.writeFrames bodies).1 = List.replicate (wholeFrames limit bodies) w.flushed
      ++ List.replicate (bodies.length - wholeFrames limit bodies) (.error w.fullFault) := by
  obtain ⟨v, hv, -⟩ := h.writeFrames_eq bodies
  rw [hv, ← map_range_ite (wholeFrames_le_length limit bodies)]
  apply List.map_congr_left
  intro i hi
  have hwhole := @le_wholeFrames_iff limit (i + 1) bodies (List.mem_range.mp hi)
  simp only [outcome, hasRoom, hroom, Option.all_some, decide_eq_true_eq, ← hwhole]
  rfl

/-- **A writer that fills up.**  Whatever a writer takes in each call, if it has room for `limit`
bytes in all, it takes the first `limit` bytes of the frames. With `n` frames whole within them,
exactly `n` frames have arrived; the first `n` messages are written, if flushes go well, and all
others fail because the writer is full; if flushes fail, so do all messages, and the bytes are the
same. If the bodies are within the limit of bodies, a reader gets exactly these `n` out of the
bytes, in whatever pieces they arrive and whatever the stream ends with. -/
theorem Steady.cut_off {w : Sink} (h : w.Steady) {limit : Nat} (hroom : w.room = some limit)
    (hnew : w.written = []) (bodies : List Bytes) :
    let results := (w.writeFrames bodies).1
    let written := (w.writeFrames bodies).2.written
    let n := wholeFrames limit bodies
    written = (bodies.flatMap frame).take limit
      ∧ n ≤ bodies.length
      ∧ (∀ k ≤ bodies.length, (bodies.take k).flatMap frame <+: written ↔ k ≤ n)
      ∧ (w.flushFault = none →
          results = List.replicate n (.ok ())
              ++ List.replicate (bodies.length - n) (.error w.fullFault)
            ∧ ∀ i < bodies.length, results[i]? = some (.ok ())
                ↔ (bodies.take (i + 1)).flatMap frame <+: written)
      ∧ (∀ fault, w.flushFault = some fault →
          results = List.replicate n (.error (.io fault))
            ++ List.replicate (bodies.length - n) (.error w.fullFault))
      ∧ ((∀ body ∈ bodies, body.length ≤ maxBody) → ∀ pieces fault, pieces.flatten = written →
          (Source.readAll ⟨pieces, fault⟩).1 = bodies.take n) := by
  intro results written n
  have hresults : results = List.replicate n w.flushed
      ++ List.replicate (bodies.length - n) (.error w.fullFault) := h.results_eq hroom bodies
  have hwritten : written = (bodies.flatMap frame).take limit := by
    obtain ⟨v, hv, htook⟩ := h.writeFrames_eq bodies
    show (w.writeFrames bodies).2.written = _
    rw [hv, htook.written, hnew, List.nil_append, share, hroom]
  have hn : n ≤ bodies.length := wholeFrames_le_length limit bodies
  have harrived : ∀ k ≤ bodies.length, (bodies.take k).flatMap frame <+: written ↔ k ≤ n := by
    intro k hk
    rw [hwritten, List.prefix_take_iff, le_wholeFrames_iff hk]
    exact and_iff_right ((List.take_prefix k bodies).flatMap frame)
  refine ⟨hwritten, hn, harrived, ?_, ?_, ?_⟩
  · intro hflush
    have hok : w.flushed = .ok () := by rw [flushed, hflush]
    rw [hok] at hresults
    refine ⟨hresults, ?_⟩
    intro i hi
    rw [harrived (i + 1) hi, hresults]
    by_cases hin : i < n
    · rw [List.getElem?_append_left (by simpa using hin), List.getElem?_replicate, if_pos hin]
      exact iff_of_true rfl hin
    · rw [List.getElem?_append_right (by simpa using hin), List.getElem?_replicate]
      refine iff_of_false ?_ hin
      split
      · intro hcase
        cases hcase
      · intro hcase
        cases hcase
  · intro fault hflush
    rw [hresults, flushed, hflush]
  · intro hfit pieces fault hpieces
    obtain ⟨tail, hframed⟩ := exists_framed_cut hfit limit
    rw [← hwritten, ← hpieces] at hframed
    exact Source.readAll_fst_of_framed hframed fault

/-- A writer with room for nine bytes, which takes one to three of them in a call and then none:
the second of two messages fails after three bytes of its length, and the first one is read back. -/
theorem cut_off_in_length :
    let w : Sink := ⟨fun call => some (call % 3 + 1), 0, some 9, none, none, [], 0⟩
    let bodies : List Bytes := [[123, 125], [91, 93]]
    (w.writeFrames bodies).2.written = [2, 0, 0, 0, 123, 125, 2, 0, 0]
      ∧ (w.writeFrames bodies).1 = [.ok (), .error .stuck]
      ∧ (Source.readAll ⟨[(w.writeFrames bodies).2.written], none⟩).1 = [[123, 125]] := by
  intro w bodies
  have hsteady : w.Steady := by
    intro call
    simp [w]
  obtain ⟨hwritten, -, -, hok, -, hread⟩ := hsteady.cut_off rfl rfl bodies
  have hn : wholeFrames 9 bodies = 1 := by decide
  rw [hn] at hok hread
  refine ⟨hwritten.trans (by decide), (hok rfl).1, ?_⟩
  exact hread (by decide) _ none (by simp)

end Sink

end HoldToRecord.Wire
