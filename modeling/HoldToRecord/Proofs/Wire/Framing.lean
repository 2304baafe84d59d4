import Mathlib.Tactic
import HoldToRecord.Wire.Frame

/-!
# Streams of frames

How the frames of a stream are found. The bytes of a stream start with a frame, or announce a body
beyond the limit, or are too few for a frame; what reading comes to follows from that and not from
the pieces in which the bytes arrive (`read_of_frame`, `read_of_oversized`,
`read_of_not_startsFrame`). `Framed stream bodies tail` splits a stream into all its frames and what
is left; it can be split in one way only (`exists_framed`, `Framed.unique`).
-/

namespace HoldToRecord.Wire

/-! ## Lengths -/

/-- A length takes four bytes. -/
@[simp] theorem length_lengthBytes (n : Nat) : (lengthBytes n).length = 4 := rfl

/-- A frame is four bytes longer than its body. -/
theorem length_frame (body : Bytes) : (frame body).length = 4 + body.length := by
  rw [frame, List.length_append, length_lengthBytes]

/-- Four bytes are the length that they stand for. -/
theorem lengthBytes_lengthOf {l : Bytes} (h : l.length = 4) : lengthBytes (lengthOf l) = l := by
  match l, h with
  | [a, b, c, d], _ =>
    have ha := a.toNat_lt
    have hb := b.toNat_lt
    have hc := c.toNat_lt
    have hd := d.toNat_lt
    simp only [lengthBytes, lengthOf, List.cons.injEq, and_true]
    refine ⟨?_, ?_, ?_, ?_⟩ <;> apply UInt8.toNat_inj.mp <;> rw [UInt8.toNat_ofNat'] <;> omega

/-- A body within the limit has a length of four bytes. -/
theorem lengthOf_lengthBytes_of_le {n : Nat} (h : n ≤ maxBody) :
    lengthOf (lengthBytes n) = n :=
  lengthOf_lengthBytes (Nat.lt_of_le_of_lt h (by decide))

/-! ## What a stream starts with -/

/-- The first four bytes are a length beyond the limit. -/
def Oversized (bytes : Bytes) : Prop :=
  4 ≤ bytes.length ∧ maxBody < lengthOf (bytes.take 4)

/-- The bytes start with a frame within the limit. -/
def StartsFrame (bytes : Bytes) : Prop :=
  ∃ body rest, body.length ≤ maxBody ∧ bytes = frame body ++ rest

/-- The length of the frame that some bytes start with. -/
theorem take_frame_append (body rest : Bytes) :
    (frame body ++ rest).take 4 = lengthBytes body.length := by
  rw [frame, List.append_assoc, List.take_left' (length_lengthBytes _)]

/-- The body of the frame that some bytes start with, and the rest. -/
theorem drop_frame_append (body rest : Bytes) : (frame body ++ rest).drop 4 = body ++ rest := by
  rw [frame, List.append_assoc, List.drop_left' (length_lengthBytes _)]

/-- A frame is no length beyond the limit. -/
theorem Oversized.not_startsFrame {bytes : Bytes} (h : Oversized bytes) : ¬ StartsFrame bytes := by
  rintro ⟨body, rest, hbody, rfl⟩
  have := h.2
  rw [take_frame_append, lengthOf_lengthBytes_of_le hbody] at this
  omega

/-- A length beyond the limit stays one, whatever follows. -/
theorem Oversized.append {bytes : Bytes} (h : Oversized bytes) (more : Bytes) :
    Oversized (bytes ++ more) := by
  refine ⟨?_, ?_⟩
  · have := h.1
    rw [List.length_append]
    omega
  · rw [List.take_append_of_le_length h.1]
    exact h.2

/-- Bytes that start with a frame are at least as many as their first four say. -/
theorem startsFrame_iff {bytes : Bytes} :
    StartsFrame bytes ↔ 4 ≤ bytes.length ∧ lengthOf (bytes.take 4) ≤ maxBody
      ∧ 4 + lengthOf (bytes.take 4) ≤ bytes.length := by
  constructor
  · rintro ⟨body, rest, hbody, rfl⟩
    rw [take_frame_append, lengthOf_lengthBytes_of_le hbody, List.length_append, length_frame]
    omega
  · rintro ⟨h4, hmax, hlen⟩
    have hbody : ((bytes.drop 4).take (lengthOf (bytes.take 4))).length
        = lengthOf (bytes.take 4) := by
      rw [List.length_take, List.length_drop]
      omega
    refine ⟨(bytes.drop 4).take (lengthOf (bytes.take 4)),
      (bytes.drop 4).drop (lengthOf (bytes.take 4)), by omega, ?_⟩
    rw [frame, hbody, lengthBytes_lengthOf (by rw [List.length_take]; omega),
      List.append_assoc, List.take_append_drop, List.take_append_drop]

/-! ## What reading comes to -/

/-- Enough bytes are taken from the front, whatever the pieces. -/
theorem exactly_of_le {n : Nat} {pieces : List Bytes} (h : n ≤ pieces.flatten.length) :
    ∃ rest, exactly n pieces = some (pieces.flatten.take n, rest)
      ∧ rest.flatten = pieces.flatten.drop n := by
  have e := exactly_eq n pieces
  rw [if_pos h] at e
  obtain ⟨⟨taken, rest⟩, hr, he⟩ := Option.map_eq_some_iff.mp e
  simp only [Prod.mk.injEq] at he
  exact ⟨rest, by rw [hr, he.1], he.2⟩

/-- Too few bytes are not taken at all. -/
theorem exactly_of_lt {n : Nat} {pieces : List Bytes} (h : pieces.flatten.length < n) :
    exactly n pieces = none := by
  have e := exactly_eq n pieces
  rw [if_neg (by omega)] at e
  exact Option.map_eq_none_iff.mp e

namespace Source

/-- A frame is read as its body; the stream goes on with what follows it. -/
theorem read_of_frame {s : Source} {body rest : Bytes} (hbody : body.length ≤ maxBody)
    (h : s.pieces.flatten = frame body ++ rest) :
    ∃ t, s.read = (.body body, t) ∧ t.pieces.flatten = rest ∧ t.fault = s.fault := by
  have hfour : 4 ≤ s.pieces.flatten.length := by
    rw [h, List.length_append, length_frame]
    omega
  obtain ⟨p, hp, hrest⟩ := exactly_of_le hfour
  rw [h, take_frame_append] at hp
  rw [h, drop_frame_append] at hrest
  have hall : body.length ≤ p.flatten.length := by
    rw [hrest, List.length_append]
    omega
  obtain ⟨q, hq, hafter⟩ := exactly_of_le hall
  rw [hrest, List.take_left] at hq
  rw [hrest, List.drop_left] at hafter
  refine ⟨{ s with pieces := q }, ?_, hafter, rfl⟩
  simp only [read, hp, lengthOf_lengthBytes_of_le hbody, if_neg (Nat.not_lt.mpr hbody), hq]

/-- A length beyond the limit is a fault, and nothing but the length is taken. -/
theorem read_of_oversized {s : Source} (h : Oversized s.pieces.flatten) :
    ∃ t, s.read = (.failed (.tooLarge (lengthOf (s.pieces.flatten.take 4))), t)
      ∧ t.pieces.flatten = s.pieces.flatten.drop 4 := by
  obtain ⟨p, hp, hrest⟩ := exactly_of_le h.1
  refine ⟨{ s with pieces := p }, ?_, hrest⟩
  simp only [read, hp, if_pos h.2]

/-- A stream that ends within a length is at its end. -/
theorem read_of_length_lt {s : Source} (h : s.pieces.flatten.length < 4) :
    s.read.1 = s.endOfLength := by
  simp only [read, exactly_of_lt h]

/-- A body that the stream does not hold to its end is a fault. -/
theorem read_of_cut_body {s : Source} (h4 : 4 ≤ s.pieces.flatten.length)
    (h : ¬ StartsFrame s.pieces.flatten) (h' : ¬ Oversized s.pieces.flatten) :
    s.read.1 = .failed s.endOfBody := by
  obtain ⟨p, hp, hrest⟩ := exactly_of_le h4
  have hmax : ¬ maxBody < lengthOf (s.pieces.flatten.take 4) := fun hlt => h' ⟨h4, hlt⟩
  -- the length is within the limit, so it is the body that is not complete
  have hshort : p.flatten.length < lengthOf (s.pieces.flatten.take 4) := by
    by_contra hge
    rw [hrest, List.length_drop] at hge
    exact h (startsFrame_iff.mpr ⟨h4, by omega, by omega⟩)
  simp only [read, hp, if_neg hmax, exactly_of_lt hshort]

/-- Bytes that neither start with a frame nor with a length beyond the limit are the end of a
stream, or a part of a frame that it ends in. -/
theorem read_of_not_startsFrame {s : Source} (h : ¬ StartsFrame s.pieces.flatten)
    (h' : ¬ Oversized s.pieces.flatten) :
    s.read.1 = s.endOfLength ∨ s.read.1 = .failed s.endOfBody := by
  rcases Nat.lt_or_ge s.pieces.flatten.length 4 with h4 | h4
  · exact Or.inl (read_of_length_lt h4)
  · exact Or.inr (read_of_cut_body h4 h h')

end Source

/-! ## All frames of a stream -/

/-- A stream is the frames of some bodies, and a tail that does not start with another one. -/
structure Framed (stream : Bytes) (bodies : List Bytes) (tail : Bytes) : Prop where
  stream_eq : stream = bodies.flatMap frame ++ tail
  fits : ∀ body ∈ bodies, body.length ≤ maxBody
  last : ¬ StartsFrame tail

/-- A stream that does not start with a frame has none. -/
theorem framed_nil {stream : Bytes} (h : ¬ StartsFrame stream) : Framed stream [] stream where
  stream_eq := rfl
  fits := by simp
  last := h

/-- A frame more in front. -/
theorem Framed.cons {stream tail body : Bytes} {bodies : List Bytes}
    (h : Framed stream bodies tail) (hbody : body.length ≤ maxBody) :
    Framed (frame body ++ stream) (body :: bodies) tail where
  stream_eq := by rw [h.stream_eq, List.flatMap_cons, List.append_assoc]
  fits := by
    intro b hb
    rcases List.mem_cons.mp hb with rfl | hb
    · exact hbody
    · exact h.fits b hb
  last := h.last

/-- Frames more in front. -/
theorem Framed.append {stream tail : Bytes} {bodies : List Bytes} (h : Framed stream bodies tail)
    {front : List Bytes} (hfront : ∀ body ∈ front, body.length ≤ maxBody) :
    Framed (front.flatMap frame ++ stream) (front ++ bodies) tail := by
  induction front with
  | nil => exact h
  | cons body front ih =>
    rw [List.flatMap_cons, List.append_assoc, List.cons_append]
    exact (ih fun b hb => hfront b (List.mem_cons_of_mem _ hb)).cons
      (hfront body List.mem_cons_self)

/-- A frame ends where its length says. -/
theorem frame_append_inj {a b x y : Bytes} (ha : a.length ≤ maxBody) (hb : b.length ≤ maxBody)
    (h : frame a ++ x = frame b ++ y) : a = b ∧ x = y := by
  have htake := congrArg (fun l => lengthOf (l.take 4)) h
  have hdrop := congrArg (List.drop 4) h
  simp only [take_frame_append, lengthOf_lengthBytes_of_le ha, lengthOf_lengthBytes_of_le hb] at htake
  rw [drop_frame_append, drop_frame_append] at hdrop
  exact List.append_inj hdrop htake

/-- The first frame of a stream, and the others. -/
theorem Framed.of_cons {stream tail body : Bytes} {bodies : List Bytes}
    (h : Framed stream (body :: bodies) tail) :
    body.length ≤ maxBody ∧ ∃ rest, stream = frame body ++ rest ∧ Framed rest bodies tail := by
  refine ⟨h.fits body List.mem_cons_self, bodies.flatMap frame ++ tail, ?_, rfl, ?_, h.last⟩
  · rw [h.stream_eq, List.flatMap_cons, List.append_assoc]
  · exact fun b hb => h.fits b (List.mem_cons_of_mem _ hb)

/-- There is one way to split a stream into its frames. -/
theorem Framed.unique {stream tail tail' : Bytes} {bodies bodies' : List Bytes}
    (h : Framed stream bodies tail) (h' : Framed stream bodies' tail') :
    bodies = bodies' ∧ tail = tail' := by
  induction bodies generalizing stream bodies' with
  | nil =>
    obtain rfl : stream = tail := h.stream_eq
    cases bodies' with
    | nil => exact ⟨rfl, h'.stream_eq⟩
    | cons body' bodies' =>
      -- the tail of the one splitting would start with a frame of the other
      obtain ⟨hfit, rest, rfl, -⟩ := h'.of_cons
      exact absurd ⟨body', rest, hfit, rfl⟩ h.last
  | cons body bodies ih =>
    obtain ⟨hfit, rest, rfl, hrest⟩ := h.of_cons
    cases bodies' with
    | nil =>
      obtain rfl : frame body ++ rest = tail' := h'.stream_eq
      exact absurd ⟨body, rest, hfit, rfl⟩ h'.last
    | cons body' bodies' =>
      obtain ⟨hfit', rest', heq, hrest'⟩ := h'.of_cons
      obtain ⟨rfl, rfl⟩ := frame_append_inj hfit hfit' heq
      obtain ⟨rfl, rfl⟩ := ih hrest hrest'
      exact ⟨rfl, rfl⟩

/-- The frames of any stream can be found. -/
theorem exists_framed (stream : Bytes) : ∃ bodies tail, Framed stream bodies tail := by
  by_cases h : StartsFrame stream
  · obtain ⟨body, rest, hbody, rfl⟩ := h
    obtain ⟨bodies, tail, hrest⟩ := exists_framed rest
    exact ⟨body :: bodies, tail, hrest.cons hbody⟩
  · exact ⟨[], stream, framed_nil h⟩
termination_by stream.length
decreasing_by
  subst stream
  rw [List.length_append, length_frame]
  omega

end HoldToRecord.Wire
