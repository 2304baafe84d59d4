import HoldToRecord.Decimal.Digits
import HoldToRecord.Text.Utf8

/-!
# Frames

A message travels as a frame: its length in four bytes, the lowest first, and then its body, of at
most `maxBody` bytes. `Source` is a stream of bytes as it is delivered, in pieces of any size;
`Source.read` takes one frame from it and gives the stream after it. `Sink` is a writer that may take
few bytes at a time and may stop taking any; `Sink.writeFrame` writes one frame to it. Main facts:
`exactly_eq` (the pieces in which bytes arrive do not matter) and `length_exactly`.
-/

namespace HoldToRecord.Wire

/-- Longest body that is read. -/
def maxBody : Nat := 1048576

/-- Faults of the system while bytes are moved. -/
inductive IoFault
  | connectionReset
  | brokenPipe
  | unexpectedEnd
  | permissionDenied
  | timedOut
  /-- A fault of any other kind. -/
  | other (message : String)
  deriving DecidableEq, Repr

/-- The wording of each of them. -/
def IoFault.message : IoFault → String
  | .connectionReset => "connection reset"
  | .brokenPipe => "broken pipe"
  | .unexpectedEnd => "unexpected end of file"
  | .permissionDenied => "permission denied"
  | .timedOut => "timed out"
  | .other message => message

/-- Why a frame cannot be read or written. -/
inductive FrameFault
  /-- The length of the body is beyond the limit. -/
  | tooLarge (length : Nat)
  /-- The stream ends within the body. -/
  | cutShort
  /-- The writer takes no more bytes. -/
  | stuck
  /-- The system reports a fault. -/
  | io (fault : IoFault)
  deriving DecidableEq, Repr

/-- The wording of each of them. -/
def FrameFault.message : FrameFault → String
  | .tooLarge n => "message too large: " ++ String.ofList (Decimal.digits n) ++ " bytes"
  | .cutShort => "early eof"
  | .stuck => "write zero"
  | .io fault => fault.message

/-! ## Lengths -/

/-- A number below 2^32 in four bytes, the lowest first. -/
def lengthBytes (n : Nat) : Bytes :=
  [UInt8.ofNat n, UInt8.ofNat (n / 256), UInt8.ofNat (n / 65536), UInt8.ofNat (n / 16777216)]

/-- The number in some bytes, the lowest first. -/
def lengthOf : Bytes → Nat
  | [] => 0
  | b :: bs => b.toNat + 256 * lengthOf bs

/-- The frame of a body. -/
def frame (body : Bytes) : Bytes := lengthBytes body.length ++ body

/-- Four bytes hold every number below 2^32. -/
theorem lengthOf_lengthBytes {n : Nat} (h : n < 4294967296) : lengthOf (lengthBytes n) = n := by
  simp [lengthOf, lengthBytes, UInt8.toNat_ofNat']
  omega

/-! ## Reading -/

/-- A stream: the pieces in which its bytes are delivered, and what follows them: its end, or a
fault. -/
structure Source where
  pieces : List Bytes
  fault : Option IoFault
  deriving DecidableEq, Repr

/-- The stream that delivers some bytes in pieces of `size`, the last one perhaps shorter. -/
def chunks (size : Nat) (bytes : Bytes) : List Bytes :=
  match bytes with
  | [] => []
  | b :: bs =>
    (b :: bs.take (size - 1)) :: chunks size (bs.drop (size - 1))
termination_by bytes.length
decreasing_by simp only [List.length_drop, List.length_cons]; omega

/-- Cut into pieces and put together again, bytes are what they were. -/
@[simp] theorem flatten_chunks (size : Nat) (bytes : Bytes) :
    (chunks size bytes).flatten = bytes := by
  fun_induction chunks size bytes with
  | case1 => rfl
  | case2 b bs ih => simp [ih]

/-- The next `n` bytes from some pieces and the pieces after them; `acc` holds the bytes already
taken, last first. -/
def exactlyOnto (acc : Bytes) (n : Nat) (pieces : List Bytes) : Option (Bytes × List Bytes) :=
  match n, pieces with
  | 0, ps => some (acc.reverse, ps)
  | _ + 1, [] => none
  | n + 1, [] :: ps => exactlyOnto acc (n + 1) ps
  | n + 1, (b :: p) :: ps => exactlyOnto (b :: acc) n (p :: ps)
termination_by (n, pieces.length)

/-- The next `n` bytes from some pieces and the pieces after them. -/
def exactly (n : Nat) (pieces : List Bytes) : Option (Bytes × List Bytes) :=
  exactlyOnto [] n pieces

/-- Bytes are taken from the front of what the pieces make up, if there are enough. -/
theorem exactlyOnto_eq (acc : Bytes) (n : Nat) (pieces : List Bytes) :
    (exactlyOnto acc n pieces).map (fun r => (r.1, r.2.flatten)) =
      if n ≤ pieces.flatten.length then
        some (acc.reverse ++ pieces.flatten.take n, pieces.flatten.drop n)
      else none := by
  fun_induction exactlyOnto acc n pieces with
  | case1 => simp
  | case2 => simp
  | case3 acc n ps ih => simpa using ih
  | case4 acc n b p ps ih => simp_all

/-- Which pieces bytes arrive in does not matter. -/
theorem exactly_eq (n : Nat) (pieces : List Bytes) :
    (exactly n pieces).map (fun r => (r.1, r.2.flatten)) =
      if n ≤ pieces.flatten.length then
        some (pieces.flatten.take n, pieces.flatten.drop n)
      else none := by
  simpa [exactly] using exactlyOnto_eq [] n pieces

/-- As many bytes are gone as were taken. -/
theorem length_exactly {n : Nat} {pieces rest : List Bytes} {taken : Bytes}
    (h : exactly n pieces = some (taken, rest)) :
    rest.flatten.length + n = pieces.flatten.length := by
  have e := exactly_eq n pieces
  rw [h] at e
  split at e
  · simp only [Option.map_some, Option.some.injEq, Prod.mk.injEq] at e
    rw [e.2, List.length_drop]
    omega
  · simp at e

/-- What an attempt to read a frame comes to. -/
inductive Reading
  /-- The body of a frame. -/
  | body (bytes : Bytes)
  /-- The stream is over. -/
  | ended
  /-- No frame can be read any more. -/
  | failed (fault : FrameFault)
  deriving DecidableEq, Repr

namespace Source

/-- What a stream that ends within a length comes to: the end, unless a fault other than an early
end is reported. -/
def endOfLength (s : Source) : Reading :=
  match s.fault with
  | none => .ended
  | some .unexpectedEnd => .ended
  | some fault => .failed (.io fault)

/-- What a stream that ends within a body comes to. -/
def endOfBody (s : Source) : FrameFault :=
  match s.fault with
  | none => .cutShort
  | some fault => .io fault

/-- Reads a frame: what the attempt comes to, and the stream after it. The four bytes of a length are
taken, and the body if its length is within the limit; where the stream ends too early, no byte is
left. -/
def read (s : Source) : Reading × Source :=
  match exactly 4 s.pieces with
  | none => (s.endOfLength, { s with pieces := [] })
  | some (length, pieces) =>
    if maxBody < lengthOf length then
      (.failed (.tooLarge (lengthOf length)), { s with pieces := pieces })
    else
      match exactly (lengthOf length) pieces with
      | none => (.failed s.endOfBody, { s with pieces := [] })
      | some (body, pieces) => (.body body, { s with pieces := pieces })

/-- A frame takes at least four bytes. -/
theorem length_of_read {s rest : Source} {body : Bytes} (h : s.read = (.body body, rest)) :
    rest.pieces.flatten.length < s.pieces.flatten.length := by
  unfold read at h
  split at h
  · unfold endOfLength at h
    split at h <;> simp at h
  · next length pieces h1 =>
    have l1 := length_exactly h1
    split at h
    · simp at h
    · split at h
      · simp at h
      · next got more h2 =>
        have l2 := length_exactly h2
        obtain ⟨-, rfl⟩ := Prod.mk.inj h
        simp only
        omega

/-- Reads frames until the stream is over or fails; `acc` holds the bodies already read, last
first. -/
def readOnto (acc : List Bytes) (s : Source) : List Bytes × Option FrameFault :=
  match _h : s.read with
  | (.ended, _) => (acc.reverse, none)
  | (.failed fault, _) => (acc.reverse, some fault)
  | (.body bytes, rest) => readOnto (bytes :: acc) rest
termination_by s.pieces.flatten.length
decreasing_by exact length_of_read (by assumption)

/-- Reads frames until the stream is over or fails: the bodies, and the fault if there is one. -/
def readAll (s : Source) : List Bytes × Option FrameFault := readOnto [] s

end Source

/-! ## Writing -/

/-- A writer: how many bytes it takes at most in each of its calls, how many calls there were, how
many bytes it takes in all, what it does then (a fault, or no bytes taken), the fault of each flush,
what it has taken, last first, and how often it was flushed. -/
structure Sink where
  pace : Nat → Option Nat
  calls : Nat
  room : Option Nat
  whenFull : Option IoFault
  flushFault : Option IoFault
  taken : Bytes
  flushes : Nat

namespace Sink

/-- A writer that has taken nothing yet and takes at most `perCall` bytes in any call. -/
def create (perCall room : Option Nat) (whenFull flushFault : Option IoFault) : Sink :=
  ⟨fun _ => perCall, 0, room, whenFull, flushFault, [], 0⟩

/-- What a writer has taken, in order. -/
def written (w : Sink) : Bytes := w.taken.reverse

/-- How many bytes the next call takes at most. -/
def grasp (w : Sink) : Option Nat :=
  match w.pace w.calls, w.room with
  | none, room => room
  | some c, none => some c
  | some c, some r => some (min c r)

/-- The fault of a writer that takes no more bytes. -/
def fullFault (w : Sink) : FrameFault :=
  match w.whenFull with
  | none => .stuck
  | some fault => .io fault

/-- Takes bytes in one call. -/
def accept (w : Sink) (bytes : Bytes) : Sink :=
  { w with
    calls := w.calls + 1
    room := w.room.map (· - bytes.length)
    taken := bytes.reverse ++ w.taken }

/-- The bytes of one call and those left for the next. -/
def portion (w : Sink) (bytes : Bytes) : Bytes × Bytes :=
  match w.grasp with
  | none => (bytes, [])
  | some n => bytes.splitAt n

/-- After a call that took something fewer bytes are left. -/
theorem length_of_portion {w : Sink} {bytes more rest : Bytes} {b : UInt8}
    (h : w.portion bytes = (b :: more, rest)) : rest.length < bytes.length := by
  unfold portion at h
  split at h
  · simp only [Prod.mk.injEq] at h
    obtain ⟨rfl, rfl⟩ := h
    simp
  · next n _ =>
    simp only [List.splitAt_eq, Prod.mk.injEq] at h
    obtain ⟨h1, rfl⟩ := h
    have := congrArg List.length h1
    simp only [List.length_take, List.length_cons, List.length_drop] at *
    omega

/-- Writes bytes call by call until all are taken or the writer takes no more. -/
def writeAll (w : Sink) (bytes : Bytes) : Except FrameFault Unit × Sink :=
  if bytes.isEmpty then (.ok (), w)
  else
    match _h : w.portion bytes with
    | ([], _) => (.error w.fullFault, { w with calls := w.calls + 1 })
    | (b :: more, rest) => (w.accept (b :: more)).writeAll rest
termination_by bytes.length
decreasing_by exact length_of_portion (by assumption)

/-- Flushes the writer. -/
def flush (w : Sink) : Except FrameFault Unit × Sink :=
  let w := { w with flushes := w.flushes + 1 }
  match w.flushFault with
  | none => (.ok (), w)
  | some fault => (.error (.io fault), w)

/-- Writes the frame of a body: length, body and a flush, up to the first fault. -/
def writeFrame (w : Sink) (body : Bytes) : Except FrameFault Unit × Sink :=
  match w.writeAll (lengthBytes body.length) with
  | (.error fault, w) => (.error fault, w)
  | (.ok (), w) =>
    match w.writeAll body with
    | (.error fault, w) => (.error fault, w)
    | (.ok (), w) => w.flush

/-- Writes frames one after the other on the same writer, whatever becomes of each. -/
def writeFrames (w : Sink) : List Bytes → List (Except FrameFault Unit) × Sink
  | [] => ([], w)
  | body :: bodies =>
    let (result, w) := w.writeFrame body
    let (results, w) := w.writeFrames bodies
    (result :: results, w)

end Sink

end HoldToRecord.Wire
