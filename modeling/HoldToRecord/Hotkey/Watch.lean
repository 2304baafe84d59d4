import HoldToRecord.Hotkey.Basic

/-!
# Watching a hotkey

A `Watch` sees snapshots of the keyboard and tells when its hotkey goes down or up. It speaks only
when the hotkey's being held changes (`see_edge_iff`).
-/

namespace HoldToRecord.Hotkey

/-- A change of a hotkey. -/
inductive Edge
  | pressed
  | released
  deriving DecidableEq, Repr

/-- A hotkey and whether the last snapshot held it. -/
structure Watch where
  hotkey : Hotkey
  held : Bool
  deriving DecidableEq, Repr

namespace Watch

/-- A watch that has seen no snapshot; the hotkey counts as not held. -/
def start (hotkey : Hotkey) : Watch := ⟨hotkey, false⟩

/-- The change that a snapshot brings, and the watch after it. -/
def see (w : Watch) (snapshot : Modifiers) : Option Edge × Watch :=
  let now := w.hotkey.isHeld snapshot
  let edge :=
    if w.held = now then none
    else some (if now then .pressed else .released)
  (edge, { w with held := now })

/-- The changes that snapshots bring, one after the other. -/
def seeAll (w : Watch) : List Modifiers → List (Option Edge) × Watch
  | [] => ([], w)
  | snapshot :: rest =>
    let (edge, w) := w.see snapshot
    let (edges, w) := w.seeAll rest
    (edge :: edges, w)

/-- After a snapshot the watch knows whether it held the hotkey. -/
@[simp] theorem held_see (w : Watch) (snapshot : Modifiers) :
    (w.see snapshot).2.held = w.hotkey.isHeld snapshot := rfl

/-- The hotkey of a watch stays the same. -/
@[simp] theorem hotkey_see (w : Watch) (snapshot : Modifiers) :
    (w.see snapshot).2.hotkey = w.hotkey := rfl

/-- There is an edge exactly when the hotkey's being held changes. -/
theorem see_edge_iff (w : Watch) (snapshot : Modifiers) :
    (w.see snapshot).1.isSome ↔ w.held ≠ w.hotkey.isHeld snapshot := by
  simp only [see]
  split <;> simp_all

end Watch

end HoldToRecord.Hotkey
