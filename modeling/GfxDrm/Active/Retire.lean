import GfxDrm.I915.Bo

/-! Objects and requests under `struct_mutex`: how objects leave the active lists (i915_gem.c). -/

namespace GfxDrm.Active
open I915 (Bo ObjId RingId Seqno gpuDomains)

structure GpuRing where
  /-- The seqnos of request_list, oldest first. -/
  requests : List Seqno := []
  activeList : List ObjId := []
  /-- What get_seqno reads. -/
  completed : Seqno := 0

/-- A BUG_ON of i915_gem_object_move_to_inactive that was hit. -/
inductive Bug where
  | writtenByCpu (o : ObjId)
  | notActive (o : ObjId)
  deriving DecidableEq

structure GpuState where
  bo : ObjId → Bo
  ring : RingId → GpuRing
  /-- The lists by mm_list. -/
  activeList : List ObjId
  inactiveList : List ObjId
  bugs : List Bug

namespace GpuState

def setRing (w : GpuState) (r : RingId) (x : GpuRing) : GpuState :=
  { w with ring := Function.update w.ring r x }

def bugOn (w : GpuState) (c : Bool) (b : Bug) : GpuState :=
  if c then { w with bugs := b :: w.bugs } else w

/-- `list_move_tail`, from any list. -/
def moveTail (o : ObjId) (l : List ObjId) : List ObjId := l.erase o ++ [o]

/-- i915_gem_object_move_to_inactive. -/
def moveToInactive (w : GpuState) (o : ObjId) : GpuState :=
  let b := w.bo o
  let w := w.bugOn (b.writeDomain &&& ~~~gpuDomains != 0) (.writtenByCpu o)
  let w := w.bugOn (!b.active) (.notActive o)
  { w with
    bo := Function.update w.bo o b.moveToInactive
    activeList := w.activeList.erase o
    inactiveList := moveTail o w.inactiveList
    ring := fun x => { w.ring x with activeList := (w.ring x).activeList.erase o } }

/-- The loops over the active list of a ring, which go on as long as the first object is one
to retire. -/
def retireWhile (r : RingId) (p : Bo → Bool) : ℕ → GpuState → GpuState
  | 0, w => w
  | n + 1, w =>
    match (w.ring r).activeList with
    | [] => w
    | o :: _ => if p (w.bo o) then retireWhile r p n (w.moveToInactive o) else w

/-- i915_gem_reset_ring_lists. -/
def resetRingLists (w : GpuState) (r : RingId) : GpuState :=
  (w.setRing r { w.ring r with requests := [] }).retireWhile r (fun _ => true)
    (w.ring r).activeList.length

end GpuState

variable {w : GpuState} {o x : ObjId} {r : RingId} {p : Bo → Bool} {n : ℕ}

/-- An assertion only leaves a note. -/
theorem GpuState.bugOn_eq (w : GpuState) (c : Bool) (bug : Bug) :
    w.bugOn c bug = { w with bugs := if c then bug :: w.bugs else w.bugs } := by
  cases c <;> rfl

/-! ### The loop -/

theorem retireWhile_induction {I : GpuState → Prop}
    (hI : ∀ w o, o ∈ (w.ring r).activeList → I w → I (w.moveToInactive o)) (h : I w) :
    I (w.retireWhile r p n) := by
  induction n generalizing w with
  | zero => exact h
  | succ n ih =>
    unfold GpuState.retireWhile
    split
    · exact h
    · rename_i o rest hl
      split
      · exact ih (hI w o (by simp [hl]) h)
      · exact h

theorem moveToInactive_requests (w : GpuState) (o : ObjId) (r : RingId) :
    ((w.moveToInactive o).ring r).requests = (w.ring r).requests := by
  simp only [GpuState.moveToInactive, GpuState.bugOn_eq]

/-- The loop leaves the requests alone. -/
theorem retireWhile_requests (w : GpuState) (r' : RingId) :
    ((w.retireWhile r p n).ring r').requests = (w.ring r').requests :=
  retireWhile_induction (I := fun v => (v.ring r').requests = (w.ring r').requests)
    (fun v o _ hv => (moveToInactive_requests v o r').trans hv) rfl

theorem moveToInactive_bo_self (w : GpuState) (o : ObjId) :
    (w.moveToInactive o).bo o = (w.bo o).moveToInactive := by
  simp [GpuState.moveToInactive]

theorem moveToInactive_bo_of_ne (w : GpuState) (h : x ≠ o) :
    (w.moveToInactive o).bo x = w.bo x := by
  simp only [GpuState.moveToInactive, GpuState.bugOn_eq]
  exact Function.update_of_ne h _ _

end GfxDrm.Active
