import Mathlib.Tactic
import HoldToRecord.Proofs.Wire.Delivery

/-!
# How a stream ends

A reader is told that a stream is over when what ends it is found where the next frame would start.
Where exactly it is found is not looked at: within the four bytes of a length the end is reported
as well, and so is a fault that means an early end (`read_eq_ended_iff`). All else that a stream can
end in is reported as a fault. The main statement puts this behind the frames that were read before
(`Reads.next_ended_iff`); `ended_not_closed` shows two streams that are not closed between frames
and whose end is reported.
-/

namespace HoldToRecord.Wire.Source

/-- The stream is closed between frames: no byte comes any more, and what follows is its end. -/
def IsClosed (s : Source) : Prop := s.pieces.flatten = [] ∧ s.fault = none

/-- Behind its bytes the stream is at its end, or at a fault that means an early end. -/
def EndsQuietly (s : Source) : Prop := s.fault = none ∨ s.fault = some .unexpectedEnd

/-! ## One attempt -/

/-- Within a length, a stream that ends quietly is over. -/
theorem endOfLength_of_quiet {s : Source} (h : s.EndsQuietly) : s.endOfLength = .ended := by
  rcases h with h | h
  · rw [endOfLength, h]
  · rw [endOfLength, h]

/-- Within a length, all other faults are reported. -/
theorem endOfLength_of_fault {s : Source} {fault : IoFault} (h : s.fault = some fault)
    (hne : fault ≠ .unexpectedEnd) : s.endOfLength = .failed (.io fault) := by
  unfold endOfLength
  rw [h]
  cases fault with
  | unexpectedEnd => exact absurd rfl hne
  | _ => rfl

/-- There is nothing else that a stream can end with. -/
theorem quiet_or_fault (s : Source) :
    s.EndsQuietly ∨ ∃ fault, s.fault = some fault ∧ fault ≠ .unexpectedEnd := by
  cases hf : s.fault with
  | none => exact Or.inl (Or.inl hf)
  | some fault =>
    by_cases h : fault = .unexpectedEnd
    · left
      right
      rw [hf, h]
    · exact Or.inr ⟨fault, rfl, h⟩

/-- Bytes that do not start with a frame stop the reader, at the end or with a fault. -/
theorem exists_stopping {s : Source} (h : ¬ StartsFrame s.pieces.flatten) :
    ∃ fault, s.read.1 = stopping fault := by
  by_cases hover : Oversized s.pieces.flatten
  · obtain ⟨t, hread, -⟩ := read_of_oversized hover
    exact ⟨some _, congrArg Prod.fst hread⟩
  rcases read_of_not_startsFrame h hover with hread | hread
  · rw [hread]
    rcases s.quiet_or_fault with hq | ⟨fault, hf, hne⟩
    · exact ⟨none, endOfLength_of_quiet hq⟩
    · exact ⟨some _, endOfLength_of_fault hf hne⟩
  · exact ⟨some _, hread⟩

/-- A body is read exactly from a stream that starts with its frame. -/
theorem frame_of_read {s t : Source} {body : Bytes} (h : s.read = (.body body, t)) :
    body.length ≤ maxBody ∧ s.pieces.flatten = frame body ++ t.pieces.flatten
      ∧ t.fault = s.fault := by
  by_cases hstart : StartsFrame s.pieces.flatten
  · obtain ⟨body', rest, hfit, hstream⟩ := hstart
    obtain ⟨t', hread, hrest, hfault⟩ := read_of_frame hfit hstream
    rw [h, Prod.mk.injEq, Reading.body.injEq] at hread
    obtain ⟨rfl, rfl⟩ := hread
    exact ⟨hfit, hrest ▸ hstream, hfault⟩
  · obtain ⟨fault, hread⟩ := exists_stopping hstart
    rw [h] at hread
    cases fault <;> cases hread

/-- A stream is reported to be over exactly if fewer bytes than a length are left, and then the end
or the fault that means an early end. -/
theorem read_eq_ended_iff {s : Source} :
    s.read.1 = .ended ↔ s.pieces.flatten.length < 4 ∧ s.EndsQuietly := by
  constructor
  · intro h
    rcases Nat.lt_or_ge s.pieces.flatten.length 4 with h4 | h4
    · refine ⟨h4, ?_⟩
      rcases s.quiet_or_fault with hq | ⟨fault, hf, hne⟩
      · exact hq
      · rw [read_of_length_lt h4, endOfLength_of_fault hf hne] at h
        cases h
    · -- with a whole length there is a body, or a fault
      exfalso
      by_cases hstart : StartsFrame s.pieces.flatten
      · obtain ⟨body, rest, hfit, hstream⟩ := hstart
        obtain ⟨t, hread, -⟩ := read_of_frame hfit hstream
        rw [hread] at h
        cases h
      by_cases hover : Oversized s.pieces.flatten
      · obtain ⟨t, hread, -⟩ := read_of_oversized hover
        rw [hread] at h
        cases h
      · rw [read_of_cut_body h4 hstart hover] at h
        cases h
  · rintro ⟨h4, hq⟩
    rw [read_of_length_lt h4, endOfLength_of_quiet hq]

/-- What is read of a stream are its frames, whatever it ends with. -/
theorem readAll_fst_of_framed {pieces bodies : List Bytes} {tail : Bytes}
    (h : Framed pieces.flatten bodies tail) (fault : Option IoFault) :
    (readAll ⟨pieces, fault⟩).1 = bodies := by
  obtain ⟨t, hreads, rfl, -⟩ := exists_reads (s := ⟨pieces, fault⟩) h.fits h.stream_eq
  obtain ⟨stop, hstop⟩ := exists_stopping h.last
  rw [readAll, readOnto_of_reads hreads hstop]
  rfl

/-! ## Behind the frames that were read -/

/-- Frames that were read are what the stream started with, and the stream after them ends as the
whole one does. -/
theorem Reads.stream_eq {s t : Source} {bodies : List Bytes} (h : Reads s bodies t) :
    s.pieces.flatten = bodies.flatMap frame ++ t.pieces.flatten ∧ t.fault = s.fault := by
  induction h with
  | nil s => exact ⟨rfl, rfl⟩
  | cons hread _ ih =>
    obtain ⟨-, hstream, hfault⟩ := frame_of_read hread
    refine ⟨?_, ih.2.trans hfault⟩
    rw [hstream, ih.1, List.flatMap_cons, List.append_assoc]

/-- **When the end of a stream is reported.**  After any frames that were read from a stream, the
next attempt gives a body exactly if a whole frame within the limit is left. It reports the end
exactly if fewer than four bytes are left and what follows them is the end of the stream or a fault
that means an early end; so the end is reported of a stream that is closed between frames, but not
only then: also of one that ends within a length, and of one with such a fault between frames. In
every other case it reports a fault: the fault behind the bytes, a length beyond the limit, or a
body that is cut short. -/
theorem Reads.next_ended_iff {s t : Source} {bodies : List Bytes} (h : Reads s bodies t) :
    let rest := t.pieces.flatten
    s.pieces.flatten = bodies.flatMap frame ++ rest
      ∧ ((∃ body u, t.read = (.body body, u)) ↔ StartsFrame rest)
      ∧ (t.read.1 = .ended
          ↔ rest.length < 4 ∧ (s.fault = none ∨ s.fault = some .unexpectedEnd))
      ∧ ((t.read.1 = .ended ↔ rest = [] ∧ s.fault = none)
          ↔ ¬ (rest.length < 4 ∧ rest ≠ [] ∧ (s.fault = none ∨ s.fault = some .unexpectedEnd))
            ∧ ¬ (rest = [] ∧ s.fault = some .unexpectedEnd))
      ∧ (rest.length < 4 → ∀ fault, s.fault = some fault → fault ≠ .unexpectedEnd →
          t.read.1 = .failed (.io fault))
      ∧ (Oversized rest → t.read.1 = .failed (.tooLarge (lengthOf (rest.take 4))))
      ∧ (4 ≤ rest.length → ¬ Oversized rest → ¬ StartsFrame rest →
          (s.fault = none → t.read.1 = .failed .cutShort)
            ∧ ∀ fault, s.fault = some fault → t.read.1 = .failed (.io fault)) := by
  intro rest
  obtain ⟨hstream, hfault⟩ := h.stream_eq
  have hended : t.read.1 = .ended
      ↔ rest.length < 4 ∧ (s.fault = none ∨ s.fault = some .unexpectedEnd) := by
    rw [read_eq_ended_iff, EndsQuietly, hfault]
  refine ⟨hstream, ⟨?_, ?_⟩, hended, ?_, ?_, ?_, ?_⟩
  · rintro ⟨body, u, hread⟩
    obtain ⟨hfit, hrest, -⟩ := frame_of_read hread
    exact ⟨body, u.pieces.flatten, hfit, hrest⟩
  · rintro ⟨body, rest', hfit, hrest⟩
    obtain ⟨u, hread, -⟩ := read_of_frame hfit hrest
    exact ⟨body, u, hread⟩
  · rw [hended]
    -- the two rules differ within a length, and at a fault that means an early end
    have hlt : rest = [] → rest.length < 4 := by
      intro hnil
      rw [hnil]
      decide
    constructor
    · intro hrule
      constructor
      · rintro ⟨h4, hne, hquiet⟩
        exact hne (hrule.mp ⟨h4, hquiet⟩).1
      · rintro ⟨hnil, hearly⟩
        have hnone := (hrule.mp ⟨hlt hnil, Or.inr hearly⟩).2
        rw [hnone] at hearly
        cases hearly
    · rintro ⟨hwithin, hbetween⟩
      constructor
      · rintro ⟨h4, hquiet⟩
        have hnil : rest = [] := by
          by_contra hne
          exact hwithin ⟨h4, hne, hquiet⟩
        exact ⟨hnil, hquiet.resolve_right fun hearly => hbetween ⟨hnil, hearly⟩⟩
      · rintro ⟨hnil, hnone⟩
        exact ⟨hlt hnil, Or.inl hnone⟩
  · intro h4 fault hf hne
    rw [read_of_length_lt h4, endOfLength_of_fault (hfault.trans hf) hne]
  · intro hover
    obtain ⟨u, hread, -⟩ := read_of_oversized hover
    rw [hread]
  · intro h4 hover hstart
    have hread := read_of_cut_body h4 hstart hover
    constructor
    · intro hf
      rw [hread, endOfBody, hfault, hf]
    · intro fault hf
      rw [hread, endOfBody, hfault, hf]

/-- Two bytes of a length behind a frame, and then the end: the end is reported. -/
theorem next_ended_iff_in_length :
    ∃ t, Reads ⟨[[2, 0, 0, 0, 123], [125, 7, 0]], none⟩ [[123, 125]] t
      ∧ t.pieces.flatten = [7, 0] ∧ t.read.1 = .ended
      ∧ ¬ (t.read.1 = .ended ↔ t.pieces.flatten = [] ∧ (none : Option IoFault) = none) := by
  obtain ⟨t, hreads, htail, -⟩ :=
    @exists_reads ⟨[[2, 0, 0, 0, 123], [125, 7, 0]], none⟩ [[123, 125]] [7, 0] (by decide)
      (by decide)
  obtain ⟨-, -, hended, hclosed, -⟩ := hreads.next_ended_iff
  refine ⟨t, hreads, htail, ?_, ?_⟩
  · rw [hended, htail]
    exact ⟨by decide, Or.inl rfl⟩
  · rw [hclosed, htail]
    intro hno
    exact hno.1 ⟨by decide, by decide, Or.inl rfl⟩

/-- The end of a stream is not reported of closed streams alone: a stream that ends within a length
is no closed one, and neither is one with a fault between frames. -/
theorem ended_not_closed :
    ((read ⟨[[5, 0]], none⟩).1 = .ended ∧ ¬ IsClosed ⟨[[5, 0]], none⟩)
      ∧ ((read ⟨[], some .unexpectedEnd⟩).1 = .ended ∧ ¬ IsClosed ⟨[], some .unexpectedEnd⟩) := by
  refine ⟨⟨read_eq_ended_iff.mpr ⟨by decide, Or.inl rfl⟩, ?_⟩,
    ⟨read_eq_ended_iff.mpr ⟨by decide, Or.inr rfl⟩, ?_⟩⟩
  · rintro ⟨hnil, -⟩
    exact absurd hnil (by decide)
  · rintro ⟨-, hnone⟩
    exact absurd hnone nofun

end HoldToRecord.Wire.Source
