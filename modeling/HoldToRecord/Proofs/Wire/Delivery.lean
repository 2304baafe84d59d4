import Mathlib.Tactic
import HoldToRecord.Json.Printer
import HoldToRecord.Proofs.Wire.Writing

/-!
# Frames arrive whole

What a reader gets out of a stream, and what a writer puts into it. A stream is read frame by frame
up to its tail, in whatever pieces its bytes arrive, and the tail alone decides how reading ends
(`exists_reads`, `readAll_of_framed`). A writer that takes some bytes in every call takes the frames
of all bodies (`Willing.writeFrames_eq`). So what is written is what is read (`frames_arrive`).
-/

namespace HoldToRecord.Wire

open HoldToRecord.Json

/-! ## The longest row of frames -/

/-- No row of frames that a stream starts with is longer than the one it is split into. -/
theorem Framed.prefix_of {stream tail : Bytes} {bodies others : List Bytes}
    (h : Framed stream bodies tail) (hfit : ∀ body ∈ others, body.length ≤ maxBody)
    (hothers : others.flatMap frame <+: stream) : others <+: bodies := by
  obtain ⟨rest, rfl⟩ := hothers
  obtain ⟨more, tail', hrest⟩ := exists_framed rest
  -- the frames of the rest go on the row, and a stream is split in one way only
  obtain ⟨rfl, -⟩ := h.unique (hrest.append hfit)
  exact List.prefix_append others more

/-- Frames and nothing behind them. -/
theorem framed_flatMap_frame {bodies : List Bytes} (hfit : ∀ body ∈ bodies, body.length ≤ maxBody) :
    Framed (bodies.flatMap frame) bodies [] where
  stream_eq := (List.append_nil _).symm
  fits := hfit
  last := by
    rintro ⟨body, rest, -, h⟩
    have := congrArg List.length h
    rw [List.length_append, length_frame, List.length_nil] at this
    omega

/-! ## Reading frame by frame -/

namespace Source

/-- Frames that are read one after the other, and the stream after them. -/
inductive Reads : Source → List Bytes → Source → Prop
  | nil (s : Source) : Reads s [] s
  | cons {s t u : Source} {body : Bytes} {bodies : List Bytes} :
      s.read = (.body body, t) → Reads t bodies u → Reads s (body :: bodies) u

/-- The four bytes of a length beyond the limit decide alone, whatever comes behind them, if anything
does. -/
theorem read_of_length {length : Bytes} (h4 : length.length = 4) (h : maxBody < lengthOf length)
    (rest : List Bytes) (fault : Option IoFault) :
    (read ⟨length :: rest, fault⟩).1 = .failed (.tooLarge (lengthOf length)) := by
  have htake : (length :: rest).flatten.take 4 = length := by
    rw [List.flatten_cons, List.take_left' h4]
  have hover : Oversized (length :: rest).flatten := by
    refine ⟨?_, by rwa [htake]⟩
    rw [List.flatten_cons, List.length_append]
    omega
  obtain ⟨t, hread, -⟩ := read_of_oversized (s := ⟨length :: rest, fault⟩) hover
  rw [hread, htake]

/-- The frames that a stream starts with are read, whatever follows them. -/
theorem exists_reads {s : Source} {bodies : List Bytes} {tail : Bytes}
    (hfit : ∀ body ∈ bodies, body.length ≤ maxBody)
    (h : s.pieces.flatten = bodies.flatMap frame ++ tail) :
    ∃ t, Reads s bodies t ∧ t.pieces.flatten = tail ∧ t.fault = s.fault := by
  induction bodies generalizing s with
  | nil => exact ⟨s, .nil s, h, rfl⟩
  | cons body bodies ih =>
    rw [List.flatMap_cons, List.append_assoc] at h
    obtain ⟨t, hread, ht, hfault⟩ := read_of_frame (hfit body List.mem_cons_self) h
    obtain ⟨u, hreads, hu, hfault'⟩ := ih (fun b hb => hfit b (List.mem_cons_of_mem _ hb)) ht
    exact ⟨u, .cons hread hreads, hu, hfault'.trans hfault⟩

/-- What an attempt that reads no frame comes to: the end, or a fault. -/
def stopping : Option FrameFault → Reading
  | none => .ended
  | some fault => .failed fault

/-- Reading stops behind the frames that are read, as the next attempt says. -/
theorem readOnto_of_reads {s t : Source} {bodies : List Bytes} (h : Reads s bodies t)
    {fault : Option FrameFault} (hlast : t.read.1 = stopping fault) (acc : List Bytes) :
    readOnto acc s = (acc.reverse ++ bodies, fault) := by
  induction h generalizing acc with
  | nil s =>
    rw [readOnto]
    cases fault <;> split <;> simp_all [stopping]
  | @cons s t u body bodies hread _ ih =>
    rw [readOnto]
    split
    · next h => simp [hread] at h
    · next h => simp [hread] at h
    · next body' rest h =>
      rw [hread, Prod.mk.injEq, Reading.body.injEq] at h
      obtain ⟨rfl, rfl⟩ := h
      rw [ih hlast, List.reverse_cons, List.append_assoc, List.singleton_append]

/-- How reading ends: at the end of the stream, or with a length beyond the limit, or within a body
that the stream does not hold to its end. -/
def ending (tail : Bytes) : Option FrameFault :=
  if tail.length < 4 then none
  else if maxBody < lengthOf (tail.take 4) then some (.tooLarge (lengthOf (tail.take 4)))
  else some .cutShort

/-- The attempt on the tail of a stream. -/
theorem read_tail {s : Source} (hfault : s.fault = none) (h : ¬ StartsFrame s.pieces.flatten) :
    s.read.1 = stopping (ending s.pieces.flatten) := by
  unfold ending
  by_cases h4 : s.pieces.flatten.length < 4
  · rw [if_pos h4, read_of_length_lt h4, endOfLength, hfault]
    rfl
  rw [if_neg h4]
  by_cases hover : maxBody < lengthOf (s.pieces.flatten.take 4)
  · obtain ⟨t, hread, -⟩ := read_of_oversized ⟨Nat.not_lt.mp h4, hover⟩
    rw [if_pos hover, hread]
    rfl
  · rw [if_neg hover, read_of_cut_body (Nat.not_lt.mp h4) h fun ho => hover ho.2, endOfBody, hfault]
    rfl

/-- A stream is read as the frames it is split into, and its tail decides how reading ends. -/
theorem readAll_of_framed {pieces bodies : List Bytes} {tail : Bytes}
    (h : Framed pieces.flatten bodies tail) :
    readAll ⟨pieces, none⟩ = (bodies, ending tail) := by
  obtain ⟨t, hreads, rfl, hfault⟩ := exists_reads (s := ⟨pieces, none⟩) h.fits h.stream_eq
  exact readOnto_of_reads hreads (read_tail hfault h.last) []

end Source

/-! ## Writing to a willing writer -/

namespace Sink

/-- A writer that takes a byte at least in every call and never fails. -/
structure Willing (w : Sink) : Prop where
  pace_pos : ∀ call, w.pace call ≠ some 0
  room : w.room = none
  flushFault : w.flushFault = none

/-- A willing writer takes the frames of all bodies. -/
theorem Willing.writeFrames_eq {w : Sink} (h : w.Willing) (bodies : List Bytes) :
    ∃ v, w.writeFrames bodies = (bodies.map fun _ => .ok (), v)
      ∧ v.written = w.written ++ bodies.flatMap frame := by
  have hsteady : w.Steady := h.pace_pos
  have hok : ∀ n, w.outcome n = .ok () := by
    intro n
    simp [outcome, hasRoom, flushed, h.room, h.flushFault]
  obtain ⟨v, hv, htook⟩ := hsteady.writeFrames_eq bodies
  refine ⟨v, ?_, ?_⟩
  · rw [hv]
    simp [hok]
  · rw [htook.written, share, h.room]

/-- What a willing writer has taken is read back, in whatever pieces it arrives, and then the end. -/
theorem Willing.readAll_written {w : Sink} (h : w.Willing) (hempty : w.written = [])
    {bodies : List Bytes} (hfit : ∀ body ∈ bodies, body.length ≤ maxBody) :
    (w.writeFrames bodies).1 = bodies.map (fun _ => .ok ())
      ∧ ∀ pieces : List Bytes, pieces.flatten = (w.writeFrames bodies).2.written →
          Source.readAll ⟨pieces, none⟩ = (bodies, none) := by
  obtain ⟨v, hv, hwritten⟩ := h.writeFrames_eq bodies
  rw [hv]
  refine ⟨rfl, fun pieces hpieces => ?_⟩
  rw [hempty, List.nil_append] at hwritten
  have hframed := framed_flatMap_frame hfit
  rw [← hwritten, ← hpieces] at hframed
  exact Source.readAll_of_framed hframed

end Sink

/-! ## From the writer to the reader -/

open Source in
/-- **Frames arrive whole.**  A stream that ends is read as the bodies of the longest row of frames
that it starts with, in whatever pieces it arrives. If a length beyond the limit follows, that is a
fault, which does not depend on what is behind the length and leaves it in the stream; a body that
is cut short is a fault as well. What a willing writer has taken is read back as the messages that
were written, in whatever pieces it arrives, and then as the end. -/
theorem frames_arrive :
    (∀ pieces : List Bytes, ∃ bodies last,
      Framed pieces.flatten bodies last.pieces.flatten
        ∧ (∀ others : List Bytes, (∀ body ∈ others, body.length ≤ maxBody) →
            others.flatMap frame <+: pieces.flatten → others <+: bodies)
        ∧ Reads ⟨pieces, none⟩ bodies last
        ∧ (readAll ⟨pieces, none⟩).1 = bodies
        ∧ readAll ⟨pieces, none⟩ = readAll ⟨[pieces.flatten], none⟩
        ∧ (last.pieces.flatten = [] → (readAll ⟨pieces, none⟩).2 = none)
        ∧ (Oversized last.pieces.flatten →
            let length := lengthOf (last.pieces.flatten.take 4)
            (readAll ⟨pieces, none⟩).2 = some (.tooLarge length)
              ∧ (∀ rest fault, (read ⟨last.pieces.flatten.take 4 :: rest, fault⟩).1
                  = .failed (.tooLarge length))
              ∧ last.read.1 = .failed (.tooLarge length)
              ∧ last.read.2.pieces.flatten = last.pieces.flatten.drop 4)
        ∧ (4 ≤ last.pieces.flatten.length → ¬ Oversized last.pieces.flatten →
            (readAll ⟨pieces, none⟩).2 = some .cutShort))
      ∧ ∀ (w : Sink) (messages : List Value), w.Willing → w.written = [] →
          (∀ m ∈ messages, m.toBytes.length ≤ maxBody) →
          (w.writeFrames (messages.map Value.toBytes)).1 = messages.map (fun _ => .ok ())
            ∧ ∀ pieces : List Bytes,
                pieces.flatten = (w.writeFrames (messages.map Value.toBytes)).2.written →
                readAll ⟨pieces, none⟩ = (messages.map Value.toBytes, none) := by
  refine ⟨fun pieces => ?_, fun w messages hwilling hempty hfit => ?_⟩
  · obtain ⟨bodies, tail, h⟩ := exists_framed pieces.flatten
    obtain ⟨last, hreads, rfl, -⟩ := exists_reads (s := ⟨pieces, none⟩) h.fits h.stream_eq
    have hread := readAll_of_framed h
    have hwhole : Framed [pieces.flatten].flatten bodies last.pieces.flatten := by simpa using h
    have honce := readAll_of_framed hwhole
    refine ⟨bodies, last, h, fun others => h.prefix_of, hreads, by rw [hread], by rw [hread, honce],
      fun hnil => ?_, fun hover => ⟨?_, ?_, ?_⟩, fun h4 hover => ?_⟩
    · rw [hread, hnil]
      rfl
    · simp only [hread, ending]
      rw [if_neg (Nat.not_lt.mpr hover.1), if_pos hover.2]
    · exact read_of_length (List.length_take_of_le hover.1) hover.2
    · obtain ⟨after, hfault, hleft⟩ := read_of_oversized hover
      rw [hfault]
      exact ⟨rfl, hleft⟩
    · simp only [hread, ending]
      rw [if_neg (Nat.not_lt.mpr h4), if_neg fun hmax => hover ⟨h4, hmax⟩]
  · have hfits : ∀ body ∈ messages.map Value.toBytes, body.length ≤ maxBody := by
      intro body hbody
      obtain ⟨m, hm, rfl⟩ := List.mem_map.mp hbody
      exact hfit m hm
    obtain ⟨hwrite, hread⟩ := hwilling.readAll_written hempty hfits
    refine ⟨?_, hread⟩
    rw [hwrite, List.map_map]
    rfl

/-- A stream with an empty body and then a length beyond the limit; and two messages, through a writer
that takes one to three bytes in a call, read two bytes at a time. -/
theorem frames_arrive_in_pieces :
    (∃ (bodies : List Bytes) (last : Source),
        Framed [0, 0, 0, 0, 1, 0, 16, 0, 7] bodies last.pieces.flatten
        ∧ bodies = [[]] ∧ Oversized last.pieces.flatten
        ∧ (Source.readAll ⟨[[0, 0, 0], [0, 1], [0, 16, 0, 7]], none⟩).2 = some (.tooLarge 1048577)
        ∧ last.read.2.pieces.flatten = [7])
      ∧ let w : Sink := ⟨fun call => some (call % 3 + 1), 0, none, none, none, [], 0⟩
        let messages : List Value := [.object [("type", .text "ping")], .null]
        w.Willing ∧ (∀ m ∈ messages, m.toBytes.length ≤ maxBody)
          ∧ Source.readAll
              ⟨chunks 2 (w.writeFrames (messages.map Value.toBytes)).2.written, none⟩
            = (messages.map Value.toBytes, none) := by
  have hover : Oversized [1, 0, 16, 0, 7] := by unfold Oversized; decide
  have hsplit : Framed [0, 0, 0, 0, 1, 0, 16, 0, 7] [[]] [1, 0, 16, 0, 7] :=
    (framed_nil hover.not_startsFrame).cons (show ([] : Bytes).length ≤ maxBody by decide)
  refine ⟨?_, ?_⟩
  · obtain ⟨bodies, last, h, -, -, -, -, -, hlong, -⟩ :=
      frames_arrive.1 [[0, 0, 0], [0, 1], [0, 16, 0, 7]]
    obtain ⟨rfl, htail⟩ := h.unique hsplit
    rw [htail] at hlong
    obtain ⟨hfault, -, -, hleft⟩ := hlong hover
    exact ⟨[[]], last, h, rfl, htail ▸ hover, hfault, hleft⟩
  · intro w messages
    have hw : w.Willing := ⟨fun call => by simp [w], rfl, rfl⟩
    have hfit : ∀ m ∈ messages, m.toBytes.length ≤ maxBody := by decide
    exact ⟨hw, hfit, (frames_arrive.2 w messages hw rfl hfit).2 _ (flatten_chunks 2 _)⟩

end HoldToRecord.Wire
