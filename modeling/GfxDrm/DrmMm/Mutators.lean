import GfxDrm.DrmMm.Invariant

/-! Inserting into a hole and removing a node keep the invariant. -/

namespace GfxDrm
open Circular

namespace DrmMm
variable {mm : DrmMm} {r x : NodeRef} {n st size lo hi : ℕ} {color : Option ℕ} {tail : Bool}

/-! ### Linking a node into a hole -/

theorem linkNode_nodeList (mm : DrmMm) (r x : NodeRef) (st size : ℕ) (color : Option ℕ)
    (tail : Bool) : (linkNode mm r x st size color tail).nodeList = insertAfter r x mm.nodeList := by
  unfold linkNode
  split <;> rfl

/-- `hole_stack` after a node at `st` has used the hole `r`. -/
def stackAfter (mm : DrmMm) (r : NodeRef) (st : ℕ) : List NodeRef :=
  if st = drmMmHoleNodeStart mm r then mm.holeStack.erase r else mm.holeStack

theorem linkNode_holeStack (mm : DrmMm) (r x : NodeRef) (st size : ℕ) (color : Option ℕ)
    (tail : Bool) : (linkNode mm r x st size color tail).holeStack =
      if tail then x :: stackAfter mm r st else stackAfter mm r st := by
  unfold linkNode stackAfter
  by_cases hs : st = drmMmHoleNodeStart mm r <;> simp only [hs] <;> rfl

variable {y : NodeRef}

theorem mem_stackAfter (h : Shape mm) :
    y ∈ stackAfter mm r st ↔
      ¬ (y = r ∧ st = drmMmHoleNodeStart mm r) ∧ y ∈ mm.nodeList ∧
        (mm.node y).holeFollows = true := by
  rw [← h.mem_stack y, stackAfter]
  by_cases hst : st = drmMmHoleNodeStart mm r
  · simp only [hst, if_true, and_true, h.stack_nodup.mem_erase_iff]
  · simp only [hst, if_false, and_false, not_false_eq_true, true_and]

theorem nodup_stackAfter (h : Shape mm) : (stackAfter mm r st).Nodup := by
  unfold stackAfter
  split
  · exact h.stack_nodup.erase r
  · exact h.stack_nodup

theorem linkNode_colorAdjust : (linkNode mm r x st size color tail).colorAdjust =
    mm.colorAdjust := by
  unfold linkNode
  split <;> rfl

theorem linkNode_new (hx : x ≠ r) : (linkNode mm r x st size color tail).node x =
    { mm.node x with
      start := st, size := size, color := color.getD (mm.node x).color
      allocated := true, holeFollows := tail } := by
  unfold linkNode
  split <;> simp [setNode, Function.update_of_ne hx]

theorem linkNode_old (hy : y ≠ x) :
    (linkNode mm r x st size color tail).node y =
      if y = r ∧ st = drmMmHoleNodeStart mm r then { mm.node r with holeFollows := false }
      else mm.node y := by
  unfold linkNode
  by_cases hs : st = drmMmHoleNodeStart mm r
  · by_cases hr : y = r
    · subst hr
      simp [hs, setNode, Function.update_of_ne hy]
    · simp [hs, hr, setNode, Function.update_of_ne hy]
  · simp [hs, setNode, Function.update_of_ne hy]

theorem linkNode_start_size (hy : y ≠ x) :
    ((linkNode mm r x st size color tail).node y).start = (mm.node y).start ∧
      ((linkNode mm r x st size color tail).node y).size = (mm.node y).size ∧
      ((linkNode mm r x st size color tail).node y).allocated = (mm.node y).allocated := by
  rw [linkNode_old hy]
  split
  · rename_i h
    simp [h.1]
  · simp

theorem linkNode_nodeStart (hy : y ≠ x) :
    (linkNode mm r x st size color tail).nodeStart y = mm.nodeStart y :=
  (linkNode_start_size hy).1

theorem linkNode_holeNodeStart (hy : y ≠ x) :
    drmMmHoleNodeStart (linkNode mm r x st size color tail) y = drmMmHoleNodeStart mm y := by
  simp only [drmMmHoleNodeStart, linkNode_start_size hy]

/-- `x` is to be linked behind the hole `r`. -/
structure TakesHole (mm : DrmMm) (r x : NodeRef) : Prop where
  mem : r ∈ mm.nodeList
  follows : (mm.node r).holeFollows = true
  new : x ∉ mm.nodeList

/-- `x` is to take `[st, st + size)` of the hole `r`. -/
structure FitsHole (mm : DrmMm) (r x : NodeRef) (st size : ℕ) (tail : Bool) : Prop
    extends TakesHole mm r x where
  size_pos : 0 < size
  start_le : drmMmHoleNodeStart mm r ≤ st
  le_end : st + size ≤ drmMmHoleNodeEnd mm r
  tail_iff : tail = true ↔ st + size < drmMmHoleNodeEnd mm r

namespace TakesHole
variable (f : TakesHole mm r x)
include f

theorem ne : x ≠ r := fun e => f.new (e ▸ f.mem)

theorem notMem_stackAfter (h : Shape mm) : x ∉ stackAfter mm r st := fun hm =>
  f.new ((mem_stackAfter h).mp hm).2.1

theorem mem_stack (h : Shape mm) (y : NodeRef) :
    y ∈ (linkNode mm r x st size color tail).holeStack ↔
      y ∈ (linkNode mm r x st size color tail).nodeList ∧
        ((linkNode mm r x st size color tail).node y).holeFollows = true := by
  rw [linkNode_holeStack, linkNode_nodeList, mem_insertAfter f.mem]
  by_cases hyx : y = x
  · subst hyx
    rw [linkNode_new f.ne]
    cases tail <;> simp [f.notMem_stackAfter h]
  · have hy : y ∈ (if tail then x :: stackAfter mm r st else stackAfter mm r st) ↔
        y ∈ stackAfter mm r st := by
      cases tail <;> simp [hyx]
    rw [hy, mem_stackAfter h, linkNode_old hyx]
    by_cases hused : y = r ∧ st = drmMmHoleNodeStart mm r
    · simp [hused]
    · simp [hused, hyx]

theorem stack_nodup (h : Shape mm) :
    (linkNode mm r x st size color tail).holeStack.Nodup := by
  rw [linkNode_holeStack]
  split
  · exact List.nodup_cons.mpr ⟨f.notMem_stackAfter h, nodup_stackAfter h⟩
  · exact nodup_stackAfter h

end TakesHole

/-- Linking a node keeps lists and flags in step, wherever the node is put. -/
theorem Shape.linkNode (h : Shape mm) (f : TakesHole mm r (.block n)) (st size : ℕ)
    (color : Option ℕ) (tail : Bool) : Shape (linkNode mm r (.block n) st size color tail) := by
  refine
    { head_first := ?_
      nodup := linkNode_nodeList .. ▸ nodup_insertAfter f.mem h.nodup f.new
      allocated := ?_
      stack_nodup := f.stack_nodup h
      mem_stack := f.mem_stack h }
  · obtain ⟨l, hl⟩ := h.head_first
    rw [linkNode_nodeList, hl, insertAfter]
    split
    · exact ⟨_, rfl⟩
    · exact ⟨_, rfl⟩
  · intro m
    rw [linkNode_nodeList, mem_insertAfter f.mem]
    by_cases hm : m = n
    · subst hm
      simp [linkNode_new f.ne]
    · have hne : NodeRef.block m ≠ .block n := by simpa using hm
      rw [(linkNode_start_size hne).2.2, h.allocated m]
      simp [hm]

namespace FitsHole
variable (f : FitsHole mm r x st size tail)
include f

theorem holeEnd_hole (h : Inv lo hi mm) :
    drmMmHoleNodeEnd (linkNode mm r x st size color tail) r = st := by
  unfold drmMmHoleNodeEnd nextNode
  rw [linkNode_nodeList, succ_insertAfter_self h.nodup f.mem, nodeStart, linkNode_new f.ne]

theorem holeEnd_new (h : Inv lo hi mm) :
    drmMmHoleNodeEnd (linkNode mm r x st size color tail) x = drmMmHoleNodeEnd mm r := by
  have hne : mm.nextNode r ≠ x := fun e => f.new (e ▸ h.next_mem r)
  unfold drmMmHoleNodeEnd nextNode at *
  rw [linkNode_nodeList, succ_insertAfter_new h.nodup f.mem f.new, linkNode_nodeStart hne]

theorem holeEnd_of_ne (h : Inv lo hi mm) (hyr : y ≠ r) (hyx : y ≠ x) :
    drmMmHoleNodeEnd (linkNode mm r x st size color tail) y = drmMmHoleNodeEnd mm y := by
  have hne : mm.nextNode y ≠ x := fun e => f.new (e ▸ h.next_mem y)
  unfold drmMmHoleNodeEnd nextNode at *
  rw [linkNode_nodeList, succ_insertAfter_of_ne hyr hyx, linkNode_nodeStart hne]

theorem holeStart_new (h : Inv lo hi mm) :
    drmMmHoleNodeStart (linkNode mm r x st size color tail) x = st + size := by
  have hlt : st + size < 2 ^ 64 := (f.le_end.trans (h.holeEnd_le r)).trans_lt h.hi_lt
  rw [drmMmHoleNodeStart, linkNode_new f.ne]
  exact Word.add_of_lt hlt

end FitsHole

/-- A node put inside a hole keeps the invariant. -/
theorem Inv.linkNode (h : Inv lo hi mm) (f : FitsHole mm r (.block n) st size tail)
    (color : Option ℕ) : Inv lo hi (linkNode mm r (.block n) st size color tail) := by
  have hlt : st + size < 2 ^ 64 := (f.le_end.trans (h.holeEnd_le r)).trans_lt h.hi_lt
  have hhead : NodeRef.head ≠ .block n := by simp
  refine
    { toShape := h.toShape.linkNode f.toTakesHole st size color tail
      hi_lt := h.hi_lt
      head_start := (linkNode_nodeStart hhead).trans h.head_start
      head_end := (linkNode_holeNodeStart hhead).trans h.head_end
      size_pos := ?_
      no_wrap := ?_
      ordered := ?_
      hole_follows := ?_ }
  · intro m hm
    rw [linkNode_nodeList, mem_insertAfter f.mem] at hm
    by_cases hmn : NodeRef.block m = .block n
    · rw [hmn, linkNode_new f.ne]
      exact f.size_pos
    · rw [(linkNode_start_size hmn).2.1]
      exact h.size_pos m (hm.resolve_left hmn)
  · intro m hm
    rw [linkNode_nodeList, mem_insertAfter f.mem] at hm
    by_cases hmn : NodeRef.block m = .block n
    · rw [hmn, linkNode_new f.ne]
      exact hlt
    · rw [(linkNode_start_size hmn).2.1, (linkNode_start_size hmn).1]
      exact h.no_wrap m (hm.resolve_left hmn)
  · intro y hy
    show drmMmHoleNodeStart _ y ≤ drmMmHoleNodeEnd _ y
    rw [linkNode_nodeList, mem_insertAfter f.mem] at hy
    by_cases hyx : y = .block n
    · subst hyx
      rw [f.holeStart_new h, f.holeEnd_new h]
      exact f.le_end
    by_cases hyr : y = r
    · subst hyr
      rw [linkNode_holeNodeStart hyx, f.holeEnd_hole h]
      exact f.start_le
    · rw [linkNode_holeNodeStart hyx, f.holeEnd_of_ne h hyr hyx]
      exact h.ordered y (hy.resolve_left hyx)
  · intro y hy
    rw [linkNode_nodeList, mem_insertAfter f.mem] at hy
    by_cases hyx : y = .block n
    · subst hyx
      rw [f.holeStart_new h, f.holeEnd_new h, linkNode_new f.ne]
      exact f.tail_iff
    rw [linkNode_holeNodeStart hyx, linkNode_old hyx]
    by_cases hyr : y = r
    · subst hyr
      rw [f.holeEnd_hole h]
      have hle := f.start_le
      by_cases hst : st = drmMmHoleNodeStart mm y
      · simp [hst]
      · simp only [hst, and_false, if_false, f.follows, true_iff]
        omega
    · rw [f.holeEnd_of_ne h hyr hyx]
      simpa only [hyr, false_and, if_false] using h.hole_follows y (hy.resolve_left hyx)

/-! ### Removing a node -/

theorem prevNode_eq {l : List NodeRef} (hl : mm.nodeList = .head :: l)
    (hx : .block n ∈ mm.nodeList) : .block n ∈ l ∧
      mm.prevNode (.block n) = pred (mm.nodeList.getLastD .head) (.block n) (.head :: l) :=
  ⟨(List.mem_cons.mp (hl ▸ hx)).resolve_left (by simp), by rw [prevNode, hl]⟩

theorem prevNode_mem_erase (h : Linked mm) (hx : .block n ∈ mm.nodeList) :
    mm.prevNode (.block n) ∈ mm.nodeList.erase (.block n) := by
  obtain ⟨l, hl⟩ := h.head_first
  obtain ⟨hm, he⟩ := prevNode_eq hl hx
  rw [he, hl]
  exact pred_mem_erase (hl ▸ h.nodup) hm _

theorem prevNode_ne (h : Linked mm) (hx : .block n ∈ mm.nodeList) :
    mm.prevNode (.block n) ≠ .block n := fun e =>
  h.nodup.not_mem_erase (e ▸ prevNode_mem_erase h hx)

theorem succ_erase_prevNode (h : Linked mm) (hx : .block n ∈ mm.nodeList) :
    succ .head (mm.prevNode (.block n)) (mm.nodeList.erase (.block n)) =
      mm.nextNode (.block n) := by
  obtain ⟨l, hl⟩ := h.head_first
  obtain ⟨hm, he⟩ := prevNode_eq hl hx
  rw [he, nextNode, hl]
  exact succ_erase_pred (hl ▸ h.nodup) hm _

theorem succ_erase_other (h : Linked mm) (hx : .block n ∈ mm.nodeList) (hy : y ≠ .block n)
    (hyp : y ≠ mm.prevNode (.block n)) :
    succ .head y (mm.nodeList.erase (.block n)) = mm.nextNode y := by
  obtain ⟨l, hl⟩ := h.head_first
  obtain ⟨hm, he⟩ := prevNode_eq hl hx
  rw [he] at hyp
  rw [nextNode, hl]
  exact succ_erase_of_ne (hl ▸ h.nodup) hm _ hy hyp

theorem insertAfter_prevNode (h : Linked mm) (hx : .block n ∈ mm.nodeList) :
    insertAfter (mm.prevNode (.block n)) (.block n) (mm.nodeList.erase (.block n)) =
      mm.nodeList := by
  obtain ⟨l, hl⟩ := h.head_first
  obtain ⟨hm, he⟩ := prevNode_eq hl hx
  rw [he, hl]
  exact insertAfter_pred_erase (hl ▸ h.nodup) hm _

theorem nextNode_prevNode (h : Linked mm) (hx : .block n ∈ mm.nodeList) :
    mm.nextNode (mm.prevNode (.block n)) = .block n := by
  have hs := succ_insertAfter_self (h := NodeRef.head) (x := .block n) (h.nodup.erase _)
    (prevNode_mem_erase h hx)
  rwa [insertAfter_prevNode h hx] at hs

theorem removeNode_nodeList (x : NodeRef) :
    (drmMmRemoveNode mm x).nodeList = mm.nodeList.erase x := rfl

theorem removeNode_self (hp : mm.prevNode x ≠ x) :
    (drmMmRemoveNode mm x).node x = { mm.node x with allocated := false } := by
  unfold drmMmRemoveNode
  dsimp only
  split <;> simp [setNode, Function.update_of_ne hp.symm]

theorem removeNode_other (hy : y ≠ x) : (drmMmRemoveNode mm x).node y =
    if y = mm.prevNode x then { mm.node y with holeFollows := true } else mm.node y := by
  unfold drmMmRemoveNode
  dsimp only
  by_cases hyp : y = mm.prevNode x
  · subst hyp
    split
    · rename_i hf
      simp only [setNode, Function.update_of_ne hy, if_true, ← hf]
    · simp [setNode, Function.update_of_ne hy]
  · split <;> simp [setNode, Function.update_of_ne hy, hyp]

theorem removeNode_start_size (mm : DrmMm) (hp : mm.prevNode x ≠ x) (y : NodeRef) :
    ((drmMmRemoveNode mm x).node y).start = (mm.node y).start ∧
      ((drmMmRemoveNode mm x).node y).size = (mm.node y).size := by
  by_cases hy : y = x
  · subst hy
    simp [removeNode_self hp]
  · rw [removeNode_other hy]
    split <;> simp

theorem removeNode_colorAdjust : (drmMmRemoveNode mm x).colorAdjust = mm.colorAdjust := by
  unfold drmMmRemoveNode
  dsimp only
  split <;> rfl

theorem removeNode_holeStack (h : Shape mm) :
    (drmMmRemoveNode mm x).holeStack =
      mm.prevNode x :: (mm.holeStack.erase x).erase (mm.prevNode x) := by
  have hstack : (if (mm.node x).holeFollows = true then mm.holeStack.erase x
      else mm.holeStack) = mm.holeStack.erase x := by
    split
    · rfl
    · rename_i hf
      exact (List.erase_of_not_mem fun hm => hf ((h.mem_stack x).mp hm).2).symm
  unfold drmMmRemoveNode
  dsimp only
  rw [hstack]
  split
  · rfl
  · rename_i hf
    have hp : mm.prevNode x ∉ mm.holeStack.erase x := fun hm =>
      hf ((h.mem_stack _).mp (List.mem_of_mem_erase hm)).2
    rw [List.erase_of_not_mem hp]
    rfl

theorem mem_removeNode (h : Linked mm) :
    y ∈ (drmMmRemoveNode mm x).nodeList ↔ y ≠ x ∧ y ∈ mm.nodeList := h.nodup.mem_erase_iff

theorem Shape.removeNode (h : Shape mm) (hx : .block n ∈ mm.nodeList) :
    Shape (drmMmRemoveNode mm (.block n)) := by
  have hpn := prevNode_ne h.toLinked hx
  have hprev := List.mem_of_mem_erase (prevNode_mem_erase h.toLinked hx)
  refine
    { head_first := ?_
      nodup := h.nodup.erase _
      allocated := ?_
      stack_nodup := ?_
      mem_stack := ?_ }
  · obtain ⟨l, hl⟩ := h.head_first
    refine ⟨l.erase (.block n), ?_⟩
    rw [removeNode_nodeList, hl, List.erase_cons_tail (by simp)]
  · intro m
    rw [mem_removeNode h.toLinked]
    by_cases hm : NodeRef.block m = .block n
    · rw [hm, removeNode_self hpn]
      simp
    · have ha := h.allocated m
      rw [removeNode_other hm]
      split <;> simp [ha, hm]
  · have hs := (h.stack_nodup.erase (.block n)).erase (mm.prevNode (.block n))
    rw [removeNode_holeStack h]
    exact List.nodup_cons.mpr ⟨(h.stack_nodup.erase _).not_mem_erase, hs⟩
  · intro y
    have hs := h.mem_stack y
    rw [removeNode_holeStack h, mem_removeNode h.toLinked, List.mem_cons,
      (h.stack_nodup.erase _).mem_erase_iff, h.stack_nodup.mem_erase_iff, hs]
    by_cases hyp : y = mm.prevNode (.block n)
    · rw [hyp, removeNode_other hpn]
      simp only [true_or, if_true, ne_eq, hpn, not_false_eq_true, hprev, and_self]
    · by_cases hyn : y = .block n
      · simp [hyn, hpn.symm]
      · rw [removeNode_other hyn]
        simp [hyp, hyn]

/-- Removing a node keeps the invariant: the space it leaves joins the hole before it. -/
theorem Inv.removeNode (h : Inv lo hi mm) (hx : .block n ∈ mm.nodeList) :
    Inv lo hi (drmMmRemoveNode mm (.block n)) := by
  have hpn := prevNode_ne h.toLinked hx
  have hss := removeNode_start_size mm hpn
  have hstart : ∀ y, (drmMmRemoveNode mm (.block n)).nodeStart y = mm.nodeStart y := fun y =>
    (hss y).1
  have hend : ∀ y, drmMmHoleNodeStart (drmMmRemoveNode mm (.block n)) y =
      drmMmHoleNodeStart mm y := fun y => by simp only [drmMmHoleNodeStart, hss]
  have hmem : ∀ y, y ∈ (drmMmRemoveNode mm (.block n)).nodeList ↔
      y ≠ .block n ∧ y ∈ mm.nodeList := fun y => mem_removeNode h.toLinked
  have hprev := List.mem_of_mem_erase (prevNode_mem_erase h.toLinked hx)
  have hgap : drmMmHoleNodeStart mm (mm.prevNode (.block n)) <
      mm.nodeStart (mm.nextNode (.block n)) := by
    have h1 : drmMmHoleNodeStart mm (mm.prevNode (.block n)) ≤ mm.nodeStart (.block n) := by
      have ho : _ ≤ mm.nodeStart (mm.nextNode _) := h.ordered _ hprev
      rwa [nextNode_prevNode h.toLinked hx] at ho
    have h2 : drmMmHoleNodeStart mm (.block n) ≤ mm.nodeStart (mm.nextNode (.block n)) :=
      h.ordered _ hx
    have h3 := h.block_end hx
    have h4 := h.size_pos n hx
    unfold nodeStart at *
    omega
  have hholeEnd : ∀ y, y ≠ .block n → y ≠ mm.prevNode (.block n) →
      drmMmHoleNodeEnd (drmMmRemoveNode mm (.block n)) y = drmMmHoleNodeEnd mm y := by
    intro y hy hyp
    unfold drmMmHoleNodeEnd
    rw [hstart, nextNode, removeNode_nodeList, succ_erase_other h.toLinked hx hy hyp]
  have hprevEnd : drmMmHoleNodeEnd (drmMmRemoveNode mm (.block n)) (mm.prevNode (.block n)) =
      mm.nodeStart (mm.nextNode (.block n)) := by
    unfold drmMmHoleNodeEnd
    rw [hstart, nextNode, removeNode_nodeList, succ_erase_prevNode h.toLinked hx]
  refine
    { toShape := h.toShape.removeNode hx
      hi_lt := h.hi_lt
      head_start := (hstart _).trans h.head_start
      head_end := (hend _).trans h.head_end
      size_pos := fun m hm => (hss _).2 ▸ h.size_pos m ((hmem _).mp hm).2
      no_wrap := fun m hm => by
        rw [(hss _).1, (hss _).2]
        exact h.no_wrap m ((hmem _).mp hm).2
      ordered := ?_
      hole_follows := ?_ }
  · intro y hy
    show drmMmHoleNodeStart _ y ≤ drmMmHoleNodeEnd _ y
    obtain ⟨hyn, hy⟩ := (hmem y).mp hy
    by_cases hyp : y = mm.prevNode (.block n)
    · subst hyp
      rw [hend, hprevEnd]
      exact hgap.le
    · rw [hend, hholeEnd y hyn hyp]
      exact h.ordered y hy
  · intro y hy
    obtain ⟨hyn, hy⟩ := (hmem y).mp hy
    rw [removeNode_other hyn, hend]
    by_cases hyp : y = mm.prevNode (.block n)
    · subst hyp
      simp [hprevEnd, hgap]
    · rw [hholeEnd y hyn hyp]
      simpa only [hyp, if_false] using h.hole_follows y hy

end DrmMm
end GfxDrm
