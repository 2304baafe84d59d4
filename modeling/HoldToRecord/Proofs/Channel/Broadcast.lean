import Mathlib.Tactic
import HoldToRecord.Channel.Broadcast

/-!
# What a broadcast channel holds

A channel is seen as the list of everything that was published on it: `Holds b all` says that the
channel counts that list and keeps its newest part. Publishing adds to the list
(`Holds.publish`), and what a receiver gets is decided by the list and its position alone
(`Holds.receive_eq`): the value at its position, or, when that is gone, the number of the values
that it has missed. So what it got up to any moment accounts for a stretch of the list
(`Holds.accounts_receive`), and what it would get by draining the channel is the rest of the list,
with the number of lost values in place of all but the newest (`Holds.drain_eq`).
-/

namespace HoldToRecord.Channel.Broadcast

variable {α : Type}

/-- The channel has seen the publication of a list, and keeps the newest values of it. -/
structure Holds (b : Broadcast α) (all : List α) : Prop where
  size_pos : 0 < b.size
  published : b.published = all.length
  kept : b.kept = all.reverse.take b.size

/-- A channel keeps one value at least. -/
theorem sizeFor_pos (capacity : Nat) : 0 < sizeFor capacity :=
  Nat.pos_of_isPowerOfTwo (Nat.isPowerOfTwo_nextPowerOfTwo capacity)

/-- Nothing was published on a new channel. -/
theorem holds_create (capacity : Nat) : (create (α := α) capacity).Holds [] where
  size_pos := sizeFor_pos capacity
  published := rfl
  kept := by simp [create]

namespace Holds

variable {b : Broadcast α} {all : List α}

/-- A publication adds a value to the list. -/
theorem publish (h : b.Holds all) (a : α) : (b.publish a).Holds (all ++ [a]) where
  size_pos := h.size_pos
  published := by simp [h.published]
  kept := by
    obtain ⟨n, hn⟩ : ∃ n, b.size = n + 1 := ⟨b.size - 1, by have := h.size_pos; omega⟩
    have hkept := h.kept
    rw [hn] at hkept
    simp only [Broadcast.publish, h.published, hn, hkept, List.reverse_append,
      List.reverse_cons, List.reverse_nil, List.nil_append, List.singleton_append,
      List.take_succ_cons]
    split
    · next hlt =>
      -- there is room: nothing was cut off before and nothing is now
      rw [List.take_of_length_le (by simp; omega), List.take_of_length_le (by simp; omega)]
    · rw [List.take_take]
      simp

/-- Publications add their values in their order. -/
theorem publishAll (h : b.Holds all) (as : List α) : (b.publishAll as).Holds (all ++ as) := by
  induction as generalizing b all with
  | nil => simpa [Broadcast.publishAll] using h
  | cons a as ih =>
    have := ih (h.publish a)
    rw [List.append_assoc, List.singleton_append] at this
    exact this

/-- A new receiver stands at the end of the list. -/
theorem subscribe_eq (h : b.Holds all) : b.subscribe = ⟨all.length⟩ := by
  rw [Broadcast.subscribe, h.published]

/-- What was dropped is all but the newest values. -/
theorem dropped_eq (h : b.Holds all) : b.dropped = all.length - b.size := by
  rw [dropped, h.published]

/-- The kept values by their place in the list. -/
theorem kept_getElem? (h : b.Holds all) {p : Nat} (hp : all.length - b.size ≤ p)
    (hlt : p < all.length) : b.kept[b.published - 1 - p]? = some all[p] := by
  rw [h.kept, h.published, List.getElem?_take_of_lt (by omega),
    List.getElem?_reverse (by omega), List.getElem?_eq_getElem (by omega)]
  congr 2
  omega

/-- **What a receiver gets.**  A receiver that fell behind is told how many values it has missed
and goes on with the oldest one that is kept; else it gets the value at its position, if that was
published already. -/
theorem receive_eq (h : b.Holds all) (c : Cursor) :
    b.receive c
      = if c.position < all.length - b.size then
          some (.lagged (all.length - b.size - c.position), ⟨all.length - b.size⟩)
        else all[c.position]?.map fun a => (.value a, ⟨c.position + 1⟩) := by
  unfold receive
  rw [h.dropped_eq, h.published]
  split
  · rfl
  · next hp =>
    split
    · next hlt =>
      rw [← h.published, h.kept_getElem? (by omega) hlt, List.getElem?_eq_getElem hlt]
      rfl
    · next hlt =>
      rw [List.getElem?_eq_none (by omega)]
      rfl

/-- A receiver has nothing to get exactly when it has passed everything. -/
theorem receive_eq_none_iff (h : b.Holds all) (c : Cursor) :
    b.receive c = none ↔ all.length ≤ c.position := by
  have := h.size_pos
  rw [h.receive_eq]
  split
  · simp only [reduceCtorEq, false_iff]
    omega
  · simp

end Holds

/-! ## What was received so far -/

/-- What a receiver got accounts for a stretch of the list: every value of it was received, or is
among those that a lag has counted. -/
inductive Accounts : List (Received α) → List α → Prop
  | nil : Accounts [] []
  | value {got : List (Received α)} {stretch : List α} (a : α) :
      Accounts got stretch → Accounts (got ++ [.value a]) (stretch ++ [a])
  | lagged {got : List (Received α)} {stretch : List α} (lost : List α) :
      Accounts got stretch → Accounts (got ++ [.lagged lost.length]) (stretch ++ lost)

/-- The values received so far, one more thing being received. -/
theorem values_concat (got : List (Received α)) (r : Received α) :
    values (got ++ [r]) = values got ++ values [r] := by
  rw [values, List.filterMap_append]
  rfl

/-- Values are received in the order of their publication, each once. -/
theorem Accounts.sublist {got : List (Received α)} {stretch : List α} (h : Accounts got stretch) :
    (values got).Sublist stretch := by
  induction h with
  | nil => exact List.Sublist.refl _
  | value a _ ih =>
    rw [values_concat]
    exact ih.append (List.Sublist.refl [a])
  | lagged lost _ ih =>
    rw [values_concat]
    exact ih.append (List.nil_sublist lost)

/-- The stretch from `k` to `q` is the one from `k` to `p` and the one from `p` to `q`. -/
theorem stretch_split {all : List α} {k p q : Nat} (hkp : k ≤ p) (hpq : p ≤ q) :
    (all.take q).drop k = (all.take p).drop k ++ (all.take q).drop p := by
  rw [← List.take_append_drop (p - k) ((all.take q).drop k), List.drop_drop,
    ← List.drop_take, List.take_take, Nat.min_eq_left hpq, Nat.add_sub_cancel' hkp]

/-- **One more thing received.**  A receiver that has accounted for the list from `k` on up to its
position does so up to its new position, which is further on; and it lags only when more values
than the channel keeps were published from `k` on. -/
theorem Holds.accounts_receive {b : Broadcast α} {all : List α} (h : b.Holds all) {k : Nat}
    {c d : Cursor} {got : List (Received α)} {r : Received α} (hk : k ≤ c.position)
    (haccounts : Accounts got ((all.take c.position).drop k))
    (hreceive : b.receive c = some (r, d)) :
    c.position < d.position ∧ d.position ≤ all.length
      ∧ Accounts (got ++ [r]) ((all.take d.position).drop k)
      ∧ ∀ n, r = .lagged n → k + b.size < all.length := by
  rw [h.receive_eq] at hreceive
  split_ifs at hreceive with hbehind
  · -- what lies between its position and the oldest value that is kept is lost
    simp only [Option.some.injEq, Prod.mk.injEq] at hreceive
    obtain ⟨rfl, rfl⟩ := hreceive
    refine ⟨hbehind, Nat.sub_le _ _, ?_, fun n _ => by omega⟩
    rw [stretch_split hk (Nat.le_of_lt hbehind)]
    have hlost := Accounts.lagged ((all.take (all.length - b.size)).drop c.position) haccounts
    rwa [List.length_drop, List.length_take, Nat.min_eq_left (Nat.sub_le _ _)] at hlost
  · -- the one value at its position is received
    obtain ⟨a, hget, hgot⟩ := Option.map_eq_some_iff.mp hreceive
    simp only [Prod.mk.injEq] at hgot
    obtain ⟨rfl, rfl⟩ := hgot
    obtain ⟨hlt, hget⟩ := List.getElem?_eq_some_iff.mp hget
    refine ⟨Nat.lt_succ_self _, hlt, ?_, fun n hn => by simp at hn⟩
    have hone : (all.take (c.position + 1)).drop c.position = [a] := by
      rw [List.take_add_one, List.getElem?_eq_getElem hlt, hget, List.drop_append_of_le_length
        (by rw [List.length_take]; omega), List.drop_take]
      simp
    rw [stretch_split hk (Nat.le_succ _), hone]
    exact haccounts.value a

/-! ## Draining a channel -/

/-- What a receiver gets of unread values until it is up to date, from a channel that keeps `size`
values: the newest of them, and before these the number of those that are gone. -/
def catchUp (size : Nat) (unread : List α) : List (Received α) :=
  if size < unread.length then
    .lagged (unread.length - size) :: (unread.drop (unread.length - size)).map .value
  else unread.map .value

/-- Of the values that a receiver has not got, those that are kept are unread. -/
theorem Holds.unread_eq {b : Broadcast α} {all : List α} (h : b.Holds all) (c : Cursor) :
    b.unread c = if c.position < all.length - b.size then all.drop (all.length - b.size)
      else all.drop c.position := by
  rw [unread, h.kept, h.published, List.take_take, List.take_reverse, List.reverse_reverse]
  split
  · rw [Nat.min_eq_right (by omega)]
  · by_cases hc : c.position ≤ all.length
    · rw [Nat.min_eq_left (by omega), Nat.sub_sub_self hc]
    · have hnone : all.length - c.position = 0 := by omega
      rw [hnone, Nat.zero_min, Nat.sub_zero, List.drop_length, List.drop_eq_nil_of_le (by omega)]

/-- **Draining.**  A receiver that drains the channel gets every value from its position on, except
that those which are gone come as their number. -/
theorem Holds.drain_eq {b : Broadcast α} {all : List α} (h : b.Holds all) (c : Cursor) :
    (b.drain c).1 = catchUp b.size (all.drop c.position) := by
  simp only [drain, catchUp, h.unread_eq, h.dropped_eq, List.length_drop, List.drop_drop]
  by_cases hbehind : c.position < all.length - b.size
  · have hgone : all.length - b.size - c.position = all.length - c.position - b.size := by omega
    have hkept : c.position + (all.length - c.position - b.size) = all.length - b.size := by omega
    rw [if_pos hbehind, if_pos hbehind, if_pos (by omega), hgone, hkept]
  · rw [if_neg hbehind, if_neg hbehind, if_neg (by omega)]

/-- Draining a channel is receiving until there is nothing more to receive. -/
theorem Holds.drain_eq_receive {b : Broadcast α} {all : List α} (h : b.Holds all) (c : Cursor) :
    (b.drain c).1 = match b.receive c with
      | none => []
      | some (r, d) => r :: (b.drain d).1 := by
  rw [h.receive_eq, h.drain_eq, catchUp, List.length_drop]
  by_cases hbehind : c.position < all.length - b.size
  · have hgone : all.length - b.size - c.position = all.length - c.position - b.size := by omega
    have hkept : c.position + (all.length - c.position - b.size) = all.length - b.size := by omega
    rw [if_pos hbehind, if_pos (by omega), List.drop_drop, hkept, hgone]
    simp only [h.drain_eq, catchUp, List.length_drop]
    rw [if_neg (by omega)]
  · rw [if_neg hbehind, if_neg (by omega)]
    by_cases hlt : c.position < all.length
    · rw [List.getElem?_eq_getElem hlt, List.drop_eq_getElem_cons hlt]
      simp only [Option.map_some, h.drain_eq, catchUp, List.length_drop]
      rw [if_neg (by omega), List.map_cons]
    · rw [List.getElem?_eq_none (by omega), List.drop_eq_nil_of_le (by omega)]
      rfl

end HoldToRecord.Channel.Broadcast
