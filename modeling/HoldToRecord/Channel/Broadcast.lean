/-!
# Broadcast channels

Every receiver sees every value that is published after it subscribed, unless it falls behind: the
channel keeps the newest values only, as many as the next power of two of its capacity, and a
receiver that has missed some is told how many. A receiver is a position in the published stream,
so receivers do not touch the channel or one another.
-/

namespace HoldToRecord.Channel

/-- A channel: how many values it keeps, how many have been published, and those that it keeps, the
newest first. -/
structure Broadcast (α : Type) where
  size : Nat
  published : Nat
  kept : List α
  deriving DecidableEq, Repr

/-- A receiver: how many published values are behind it. -/
structure Cursor where
  position : Nat
  deriving DecidableEq, Repr

/-- What a receiver gets: a value, or the number of values it has missed. -/
inductive Received (α : Type)
  | value (a : α)
  | lagged (missed : Nat)
  deriving DecidableEq, Repr

namespace Broadcast

variable {α : Type}

/-- How many values a channel of some capacity keeps. -/
def sizeFor (capacity : Nat) : Nat := capacity.nextPowerOfTwo

/-- A channel on which nothing was published yet. -/
def create (capacity : Nat) : Broadcast α := ⟨sizeFor capacity, 0, []⟩

/-- Publishes a value; the oldest one is dropped when there are too many. -/
def publish (b : Broadcast α) (a : α) : Broadcast α :=
  { b with
    published := b.published + 1
    kept := if b.published < b.size then a :: b.kept else (a :: b.kept).take b.size }

/-- Publishes values one after the other. -/
def publishAll (b : Broadcast α) (as : List α) : Broadcast α := as.foldl publish b

/-- A receiver of what is published from now on. -/
def subscribe (b : Broadcast α) : Cursor := ⟨b.published⟩

/-- How many values were dropped so far: the position of the oldest one that is kept. -/
def dropped (b : Broadcast α) : Nat := b.published - b.size

/-- The next thing a receiver gets, if it is not up to date. -/
def receive (b : Broadcast α) (c : Cursor) : Option (Received α × Cursor) :=
  if c.position < b.dropped then some (.lagged (b.dropped - c.position), ⟨b.dropped⟩)
  else if c.position < b.published then
    match b.kept[b.published - 1 - c.position]? with
    | some a => some (.value a, ⟨c.position + 1⟩)
    | none => none
  else none

/-- The values that a receiver has not got yet and the channel still keeps, oldest first. -/
def unread (b : Broadcast α) (c : Cursor) : List α :=
  (b.kept.take (b.published - c.position)).reverse

/-- Everything a receiver gets until it is up to date. -/
def drain (b : Broadcast α) (c : Cursor) : List (Received α) × Cursor :=
  let values := (b.unread c).map Received.value
  (if c.position < b.dropped then .lagged (b.dropped - c.position) :: values else values,
    b.subscribe)

/-- The values among what was received. -/
def values (got : List (Received α)) : List α :=
  got.filterMap fun
    | .value a => some a
    | .lagged _ => none

/-- A publication counts as one, whoever listens. -/
@[simp] theorem published_publish (b : Broadcast α) (a : α) :
    (b.publish a).published = b.published + 1 := rfl

/-- A fresh receiver is up to date. -/
@[simp] theorem receive_subscribe (b : Broadcast α) : b.receive b.subscribe = none := by
  have : ¬ b.published < b.dropped := by unfold dropped; omega
  simp [receive, subscribe, this]

end Broadcast

end HoldToRecord.Channel
