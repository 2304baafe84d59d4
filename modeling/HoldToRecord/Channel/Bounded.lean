/-!
# Bounded channels

A first-in first-out channel with room for `capacity` values between senders and one receiver. A
value is refused when the receiver is gone, and has to wait, or is refused as well, while the
channel is full. Main facts: `queued_put` and `queued_take` say what happens to the queue.
-/

namespace HoldToRecord.Channel

/-- A channel: the values that wait to be received, oldest first, and whether the receiver is
gone. -/
structure Bounded (α : Type) where
  capacity : Nat
  queued : List α
  closed : Bool
  deriving DecidableEq, Repr

namespace Bounded

variable {α : Type}

/-- A channel through which nothing went yet. -/
def create (capacity : Nat) : Bounded α := ⟨capacity, [], false⟩

/-- Whether there is no room for another value. -/
def isFull (c : Bounded α) : Bool := c.capacity ≤ c.queued.length

/-- What becomes of a value that is sent. -/
inductive Sending
  /-- It went in; the channel is as given. -/
  | accepted (c : Bounded α)
  /-- The receiver is gone. -/
  | refused
  /-- There is no room at the moment. -/
  | full

/-- Sends a value. -/
def put (c : Bounded α) (a : α) : Sending (α := α) :=
  if c.closed then .refused
  else if c.isFull then .full
  else .accepted { c with queued := c.queued ++ [a] }

/-- The oldest value and the channel without it; nothing comes from an empty or closed channel. -/
def take (c : Bounded α) : Option α × Bounded α :=
  if c.closed then (none, c)
  else
    match c.queued with
    | [] => (none, c)
    | a :: rest => (some a, { c with queued := rest })

/-- The channel after its receiver is gone, and the waiting values with it. -/
def close (c : Bounded α) : Bounded α := { c with queued := [], closed := true }

/-- A value that goes in waits behind the others, and nothing else changes. -/
theorem eq_of_put {c d : Bounded α} {a : α} (h : c.put a = .accepted d) :
    d = { c with queued := c.queued ++ [a] } := by
  unfold put at h
  split at h
  · cases h
  · split at h
    · cases h
    · cases h
      rfl

theorem queued_put {c d : Bounded α} {a : α} (h : c.put a = .accepted d) :
    d.queued = c.queued ++ [a] := by
  rw [eq_of_put h]

/-- What is received is the oldest value that waits. -/
theorem queued_take (c : Bounded α) (h : c.closed = false) :
    c.take.1.toList ++ c.take.2.queued = c.queued := by
  unfold take
  simp only [h]
  cases hq : c.queued <;> simp [hq]

/-- Sending a value neither opens nor closes a channel. -/
theorem closed_put {c d : Bounded α} {a : α} (h : c.put a = .accepted d) : d.closed = c.closed := by
  rw [eq_of_put h]

/-- Nor does taking one. -/
theorem closed_take (c : Bounded α) : c.take.2.closed = c.closed := by
  unfold take
  repeat' split
  all_goals rfl

/-- Nor does it change the room, -/
theorem capacity_take (c : Bounded α) : c.take.2.capacity = c.capacity := by
  unfold take
  repeat' split
  all_goals rfl

/-- and no more values wait than before. -/
theorem length_take_le (c : Bounded α) : c.take.2.queued.length ≤ c.queued.length := by
  unfold take
  split
  · exact Nat.le_refl _
  · cases hq : c.queued <;> simp [hq]

/-- A value that is sent on an open channel goes in if there is room. -/
theorem put_of_room {c : Bounded α} (hopened : c.closed = false) (hroom : c.isFull = false)
    (a : α) : c.put a = .accepted { c with queued := c.queued ++ [a] } := by
  unfold put
  rw [if_neg (by simp [hopened]), if_neg (by simp [hroom])]

/-- It has to wait if there is none. -/
theorem put_of_full {c : Bounded α} (hopened : c.closed = false) (hfull : c.isFull = true) (a : α) :
    c.put a = .full := by
  unfold put
  rw [if_neg (by simp [hopened]), if_pos hfull]

/-- A value goes in exactly when the channel is open and has room. -/
theorem put_accepted_iff (c : Bounded α) (a : α) :
    (∃ d, c.put a = .accepted d) ↔ c.closed = false ∧ c.queued.length < c.capacity := by
  unfold put isFull
  cases c.closed <;> by_cases h : c.capacity ≤ c.queued.length <;> (simp [h]; try omega)

end Bounded

end HoldToRecord.Channel
