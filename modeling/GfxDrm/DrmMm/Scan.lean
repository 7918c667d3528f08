import GfxDrm.DrmMm.Mutators

/-! An eviction scan: blocks are taken off `node_list`, and put back in reverse order. -/

namespace GfxDrm
open Circular

/-- What a driver asks for, with or without a range. -/
structure MmRequest where
  size : ℕ
  alignment : ℕ := 0
  color : ℕ := 0
  range : Option (ℕ × ℕ) := none
  deriving DecidableEq, Repr

def MmRequest.startScan (q : MmRequest) (mm : DrmMm) : DrmMm :=
  match q.range with
  | none => drmMmInitScan mm q.size q.alignment q.color
  | some (start, stop) => drmMmInitScanWithRange mm q.size q.alignment q.color start stop

def MmRequest.insert (q : MmRequest) (mm : DrmMm) (n : ℕ) : ℤ × DrmMm :=
  match q.range with
  | none => drmMmInsertNodeGeneric mm (.block n) q.size q.alignment q.color
  | some (start, stop) =>
    drmMmInsertNodeInRangeGeneric mm (.block n) q.size q.alignment q.color start stop

def scanAddAll : DrmMm → List ℕ → DrmMm
  | mm, [] => mm
  | mm, n :: l => scanAddAll (drmMmScanAddBlock mm (.block n)).2 l

/-- Some added block reported a hit. -/
def scanHit : DrmMm → List ℕ → Bool
  | _, [] => false
  | mm, n :: l => (drmMmScanAddBlock mm (.block n)).1 ||
      scanHit (drmMmScanAddBlock mm (.block n)).2 l

/-- The blocks to evict, and the manager with every block back on its list. -/
def scanRemoveAll : DrmMm → List ℕ → List ℕ × DrmMm
  | mm, [] => ([], mm)
  | mm, n :: l =>
    let r := drmMmScanRemoveBlock mm (.block n)
    let rest := scanRemoveAll r.2 l
    (if r.1 then n :: rest.1 else rest.1, rest.2)

/-- A whole scan: add the blocks in order, remove them in reverse order. -/
def scanAll (mm : DrmMm) (q : MmRequest) (ns : List ℕ) : List ℕ × DrmMm :=
  scanRemoveAll (scanAddAll (q.startScan mm) ns) ns.reverse

/-- The fields of a node that a scan only borrows. -/
def DrmMmNode.core (n : DrmMmNode) : Bool × Bool × ℕ × ℕ × ℕ :=
  (n.holeFollows, n.allocated, n.color, n.start, n.size)

namespace DrmMm
variable {mm mm' : DrmMm} {n : ℕ} {ns : List ℕ} {x r : NodeRef}

/-! ### One block -/

theorem scanUnlink_node_self (hp : mm.prevNode x ≠ x) : (scanUnlink mm x).node x =
    { mm.node x with
      scannedBlock := true, scannedPreceedsHole := (mm.node (mm.prevNode x)).holeFollows
      nodeListPrev := mm.prevNode x, nodeListNext := mm.prevScannedNode } := by
  simp [scanUnlink, setNode, Function.update_of_ne hp.symm]

theorem scanUnlink_node (hr : r ≠ x) : (scanUnlink mm x).node r =
    if r = mm.prevNode x then { mm.node r with holeFollows := true } else mm.node r := by
  by_cases hrp : r = mm.prevNode x
  · subst hrp
    simp [scanUnlink, setNode, Function.update_of_ne hr]
  · simp [scanUnlink, setNode, Function.update_of_ne hr, hrp]

theorem scanAdd_node (mm : DrmMm) (x r : NodeRef) :
    (drmMmScanAddBlock mm x).2.node r = (scanUnlink mm x).node r := by
  unfold drmMmScanAddBlock
  dsimp only
  split <;> rfl

theorem scanAdd_nodeList (mm : DrmMm) (x : NodeRef) :
    (drmMmScanAddBlock mm x).2.nodeList = mm.nodeList.erase x := by
  unfold drmMmScanAddBlock
  dsimp only
  split <;> rfl

theorem scanAdd_holeStack (mm : DrmMm) (x : NodeRef) :
    (drmMmScanAddBlock mm x).2.holeStack = mm.holeStack := by
  unfold drmMmScanAddBlock
  dsimp only
  split <;> rfl

theorem scanAdd_colorAdjust (mm : DrmMm) (x : NodeRef) :
    (drmMmScanAddBlock mm x).2.colorAdjust = mm.colorAdjust := by
  unfold drmMmScanAddBlock
  dsimp only
  split <;> rfl

theorem scanRemove_node_self (hp : (mm.node x).nodeListPrev ≠ x) :
    (drmMmScanRemoveBlock mm x).2.node x = { mm.node x with scannedBlock := false } := by
  simp [drmMmScanRemoveBlock, setNode, Function.update_of_ne hp.symm]

theorem scanRemove_node (hr : r ≠ x) : (drmMmScanRemoveBlock mm x).2.node r =
    if r = (mm.node x).nodeListPrev then
      { mm.node r with holeFollows := (mm.node x).scannedPreceedsHole }
    else mm.node r := by
  by_cases hrp : r = (mm.node x).nodeListPrev
  · subst hrp
    simp [drmMmScanRemoveBlock, setNode, Function.update_of_ne hr]
  · simp [drmMmScanRemoveBlock, setNode, Function.update_of_ne hr, hrp]

theorem Linked.scanAdd (h : Linked mm) (n : ℕ) :
    Linked (drmMmScanAddBlock mm (.block n)).2 := by
  obtain ⟨l, hl⟩ := h.head_first
  refine ⟨⟨l.erase (.block n), ?_⟩, ?_⟩
  · rw [scanAdd_nodeList, hl, List.erase_cons_tail (by simp)]
  · rw [scanAdd_nodeList]
    exact h.nodup.erase _

theorem Linked.scanUnlink (h : Linked mm) (n : ℕ) : Linked (scanUnlink mm (.block n)) := by
  have hfirst := (h.scanAdd n).head_first
  rw [scanAdd_nodeList] at hfirst
  exact ⟨hfirst, h.nodup.erase _⟩

/-! ### Adding and removing in reverse order -/

/-- `mm'` is `mm` again, but for the scan fields of the nodes `ns`. -/
structure Restored (ns : List ℕ) (mm mm' : DrmMm) : Prop where
  nodeList : mm'.nodeList = mm.nodeList
  holeStack : mm'.holeStack = mm.holeStack
  colorAdjust : mm'.colorAdjust = mm.colorAdjust
  core : ∀ r, (mm'.node r).core = (mm.node r).core
  other : ∀ r, (∀ n ∈ ns, r ≠ .block n) → mm'.node r = mm.node r

theorem Restored.refl (ns : List ℕ) (mm : DrmMm) : Restored ns mm mm :=
  ⟨rfl, rfl, rfl, fun _ => rfl, fun _ _ => rfl⟩

/-- Removing the block added first undoes its adding, once the later ones are undone. -/
theorem Restored.scanRemove (h : Linked mm) (hn : .block n ∈ mm.nodeList) (hns : n ∉ ns)
    (hr : Restored ns (drmMmScanAddBlock mm (.block n)).2 mm') :
    Restored (n :: ns) mm (drmMmScanRemoveBlock mm' (.block n)).2 := by
  have hp := prevNode_ne h hn
  have hself : mm'.node (.block n) = (scanUnlink mm (.block n)).node (.block n) := by
    have hne : ∀ m ∈ ns, NodeRef.block n ≠ .block m := fun m hm e =>
      hns ((NodeRef.block.inj e).symm ▸ hm)
    rw [hr.other _ hne, scanAdd_node]
  have hprev : (mm'.node (.block n)).nodeListPrev = mm.prevNode (.block n) := by
    rw [hself, scanUnlink_node_self hp]
  have hhole : (mm'.node (.block n)).scannedPreceedsHole =
      (mm.node (mm.prevNode (.block n))).holeFollows := by
    rw [hself, scanUnlink_node_self hp]
  refine
    { nodeList := ?_
      holeStack := hr.holeStack.trans (scanAdd_holeStack _ _)
      colorAdjust := hr.colorAdjust.trans (scanAdd_colorAdjust _ _)
      core := ?_
      other := ?_ }
  · show insertAfter (mm'.node (.block n)).nodeListPrev (.block n) mm'.nodeList = mm.nodeList
    rw [hprev, hr.nodeList, scanAdd_nodeList]
    exact insertAfter_prevNode h hn
  · intro r
    by_cases hrn : r = .block n
    · subst hrn
      rw [scanRemove_node_self (hprev ▸ hp), hself, scanUnlink_node_self hp]
      rfl
    · have hcore := hr.core r
      rw [scanAdd_node, scanUnlink_node hrn] at hcore
      rw [scanRemove_node hrn, hprev, hhole]
      by_cases hrp : r = mm.prevNode (.block n)
      · simp only [hrp, if_true, DrmMmNode.core, Prod.mk.injEq] at hcore ⊢
        exact ⟨trivial, hcore.2⟩
      · simpa only [hrp, if_false] using hcore
  · intro r hother
    have hrn : r ≠ .block n := hother n (by simp)
    have hnode := hr.other r fun m hm => hother m (List.mem_cons_of_mem _ hm)
    rw [scanAdd_node, scanUnlink_node hrn] at hnode
    rw [scanRemove_node hrn, hprev, hhole, hnode]
    by_cases hrp : r = mm.prevNode (.block n)
    · simp [hrp]
    · simp only [hrp, if_false]

theorem scanRemoveAll_append (mm : DrmMm) (l l' : List ℕ) :
    scanRemoveAll mm (l ++ l') =
      ((scanRemoveAll mm l).1 ++ (scanRemoveAll (scanRemoveAll mm l).2 l').1,
        (scanRemoveAll (scanRemoveAll mm l).2 l').2) := by
  induction l generalizing mm with
  | nil => rfl
  | cons n l ih =>
    simp only [List.cons_append, scanRemoveAll, ih]
    split <;> rfl

theorem scanRemoveAll_reverse_cons (mm : DrmMm) (n : ℕ) (ns : List ℕ) :
    (scanRemoveAll mm (n :: ns).reverse).2 =
      (drmMmScanRemoveBlock (scanRemoveAll mm ns.reverse).2 (.block n)).2 := by
  rw [List.reverse_cons, scanRemoveAll_append]
  rfl

/-- Blocks on the list, each named once. -/
structure ScanList (mm : DrmMm) (ns : List ℕ) : Prop where
  nodup : ns.Nodup
  mem : ∀ n ∈ ns, .block n ∈ mm.nodeList

theorem ScanList.tail (hs : ScanList mm (n :: ns)) :
    ScanList (drmMmScanAddBlock mm (.block n)).2 ns := by
  obtain ⟨hn, hns⟩ := List.nodup_cons.mp hs.nodup
  refine ⟨hns, fun m hm => ?_⟩
  rw [scanAdd_nodeList]
  have hne : NodeRef.block m ≠ .block n := fun e => hn (NodeRef.block.inj e ▸ hm)
  exact (List.mem_erase_of_ne hne).mpr (hs.mem m (List.mem_cons_of_mem _ hm))

/-- Adding blocks and removing them in reverse order restores the manager. -/
theorem scan_restored (h : Linked mm) (hs : ScanList mm ns) :
    Restored ns mm (scanRemoveAll (scanAddAll mm ns) ns.reverse).2 := by
  induction ns generalizing mm with
  | nil => exact Restored.refl _ _
  | cons n ns ih =>
    rw [scanRemoveAll_reverse_cons]
    exact Restored.scanRemove h (hs.mem n (by simp)) (List.nodup_cons.mp hs.nodup).1
      (ih (h.scanAdd n) hs.tail)

/-! ### What a manager with the same layout inherits -/

/-- `mm'` differs from `mm` in colours and scan fields only. -/
structure SameLayout (mm mm' : DrmMm) : Prop where
  nodeList : mm'.nodeList = mm.nodeList
  holeStack : mm'.holeStack = mm.holeStack
  fields : ∀ r, (mm'.node r).holeFollows = (mm.node r).holeFollows ∧
    (mm'.node r).allocated = (mm.node r).allocated ∧
    (mm'.node r).start = (mm.node r).start ∧ (mm'.node r).size = (mm.node r).size

namespace SameLayout
variable (hr : SameLayout mm mm') {lo hi : ℕ}
include hr

theorem holeNodeStart : drmMmHoleNodeStart mm' = drmMmHoleNodeStart mm := by
  funext r
  simp only [drmMmHoleNodeStart, hr.fields r]

theorem nodeStart : mm'.nodeStart = mm.nodeStart := by
  funext r
  exact (hr.fields r).2.2.1

theorem holeNodeEnd : drmMmHoleNodeEnd mm' = drmMmHoleNodeEnd mm := by
  funext r
  simp only [drmMmHoleNodeEnd, nextNode, hr.nodeList, hr.nodeStart]

theorem shape (h : Shape mm) : Shape mm' where
  head_first := hr.nodeList ▸ h.head_first
  nodup := hr.nodeList ▸ h.nodup
  allocated n := by rw [(hr.fields _).2.1, hr.nodeList, h.allocated]
  stack_nodup := hr.holeStack ▸ h.stack_nodup
  mem_stack r := by rw [hr.holeStack, hr.nodeList, (hr.fields r).1, h.mem_stack]

theorem inv (h : Inv lo hi mm) : Inv lo hi mm' where
  toShape := hr.shape h.toShape
  hi_lt := h.hi_lt
  head_start := hr.nodeStart ▸ h.head_start
  head_end := hr.holeNodeStart ▸ h.head_end
  size_pos n hn := by
    rw [(hr.fields _).2.2.2]
    exact h.size_pos n (hr.nodeList ▸ hn)
  no_wrap n hn := by
    rw [(hr.fields _).2.2.1, (hr.fields _).2.2.2]
    exact h.no_wrap n (hr.nodeList ▸ hn)
  ordered := by
    rw [hr.nodeStart, hr.holeNodeStart, hr.nodeList]
    exact h.ordered
  hole_follows r hm := by
    rw [(hr.fields r).1, hr.holeNodeStart, hr.holeNodeEnd]
    exact h.hole_follows r (hr.nodeList ▸ hm)

end SameLayout

/-! ### What a restored manager inherits -/

namespace Restored
variable (hr : Restored ns mm mm') {lo hi : ℕ}
include hr

theorem fields (r : NodeRef) : (mm'.node r).holeFollows = (mm.node r).holeFollows ∧
    (mm'.node r).allocated = (mm.node r).allocated ∧ (mm'.node r).color = (mm.node r).color ∧
    (mm'.node r).start = (mm.node r).start ∧ (mm'.node r).size = (mm.node r).size := by
  simpa only [DrmMmNode.core, Prod.mk.injEq] using hr.core r

theorem sameLayout : SameLayout mm mm' :=
  ⟨hr.nodeList, hr.holeStack, fun r => ⟨(hr.fields r).1, (hr.fields r).2.1, (hr.fields r).2.2.2⟩⟩

theorem holeNodeStart : drmMmHoleNodeStart mm' = drmMmHoleNodeStart mm :=
  hr.sameLayout.holeNodeStart

theorem nodeStart : mm'.nodeStart = mm.nodeStart := hr.sameLayout.nodeStart

theorem holeNodeEnd : drmMmHoleNodeEnd mm' = drmMmHoleNodeEnd mm := hr.sameLayout.holeNodeEnd

theorem shape (h : Shape mm) : Shape mm' := hr.sameLayout.shape h

theorem inv (h : Inv lo hi mm) : Inv lo hi mm' := hr.sameLayout.inv h

end Restored

theorem Restored.startScan (q : MmRequest) (mm : DrmMm) : Restored [] mm (q.startScan mm) := by
  unfold MmRequest.startScan
  split <;> exact ⟨rfl, rfl, rfl, fun _ => rfl, fun _ _ => rfl⟩

theorem Restored.trans {mm'' : DrmMm} (h : Restored [] mm mm') (h' : Restored ns mm' mm'') :
    Restored ns mm mm'' where
  nodeList := h'.nodeList.trans h.nodeList
  holeStack := h'.holeStack.trans h.holeStack
  colorAdjust := h'.colorAdjust.trans h.colorAdjust
  core r := (h'.core r).trans (h.core r)
  other r hr := (h'.other r hr).trans (h.other r (by simp))

/-- A whole scan restores the manager. -/
theorem scanAll_restored (h : Shape mm) (q : MmRequest) (hs : ScanList mm ns) :
    Restored ns mm (scanAll mm q ns).2 := by
  have h0 := Restored.startScan q mm
  have hl : Linked (q.startScan mm) := (h0.shape h).toLinked
  exact h0.trans (scan_restored hl ⟨hs.nodup, fun n hn => h0.nodeList ▸ hs.mem n hn⟩)

end DrmMm
end GfxDrm
