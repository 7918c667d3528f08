import Mathlib.Data.List.Find
import GfxDrm.DrmMm.Evict
import GfxDrm.Lib.Ring

/-! Managers that differ in which structs hold the nodes: every call does to one what the
renamed call does to the other. -/

namespace GfxDrm
open Circular

/-- The structs renamed; the head node stays. -/
def NodeRef.rename (σ : Equiv.Perm ℕ) : NodeRef → NodeRef
  | .head => .head
  | .block n => .block (σ n)

/-- What a call answers: a block, an error, or the hits of a scan and the blocks to evict. -/
inductive MmAnswer
  | block (r : Option NodeRef)
  | ret (e : ℤ)
  | done
  | scanned (hits : List Bool) (evict : List ℕ)
  deriving DecidableEq, Repr

def scanHits : DrmMm → List ℕ → List Bool
  | _, [] => []
  | mm, n :: l => (drmMmScanAddBlock mm (.block n)).1 ::
      scanHits (drmMmScanAddBlock mm (.block n)).2 l

def DrmMmOp.answer (mm : DrmMm) : DrmMmOp → MmAnswer
  | .createBlock kmalloc start size =>
    .block (drmMmCreateBlock mm (kmalloc.map .block) start size).1
  | .insertNode q n => .ret (q.insert mm n).1
  | .removeNode _ => .done
  | .scan q ns => .scanned (scanHits (q.startScan mm) ns) (scanAll mm q ns).1

def MmAnswer.rename (σ : Equiv.Perm ℕ) : MmAnswer → MmAnswer
  | .block r => .block (r.map (NodeRef.rename σ))
  | .ret e => .ret e
  | .done => .done
  | .scanned hits evict => .scanned hits (evict.map σ)

def DrmMmOp.rename (σ : Equiv.Perm ℕ) : DrmMmOp → DrmMmOp
  | .createBlock kmalloc start size => .createBlock (kmalloc.map σ) start size
  | .insertNode q n => .insertNode q (σ n)
  | .removeNode n => .removeNode (σ n)
  | .scan q ns => .scan q (ns.map σ)

/-- `drm_mm_kmalloc` does not hand out the struct `x`. -/
def DrmMmOp.Spares (x : ℕ) : DrmMmOp → Prop
  | .createBlock kmalloc _ _ => x ∉ kmalloc
  | _ => True

/-- `color_adjust` reads nothing of a node that a scan borrows. -/
def ColorAdjust.ReadsCore (adjust : ColorAdjust) : Prop :=
  ∀ n n' next next' color s e, n.core = n'.core →
    next.map DrmMmNode.core = next'.map DrmMmNode.core →
      adjust n next color s e = adjust n' next' color s e

namespace DrmMm
variable {σ : Equiv.Perm ℕ} {x n : ℕ} {mm mm' : DrmMm} {r y : NodeRef}

@[simp] theorem rename_head : NodeRef.rename σ .head = .head := rfl
@[simp] theorem rename_block (n : ℕ) : NodeRef.rename σ (.block n) = .block (σ n) := rfl

theorem rename_injective (σ : Equiv.Perm ℕ) : Function.Injective (NodeRef.rename σ) := by
  intro a b h
  cases a with
  | head => cases b with
    | head => rfl
    | block n => exact absurd h (by simp)
  | block m => cases b with
    | head => exact absurd h (by simp)
    | block n => exact congrArg NodeRef.block (σ.injective (NodeRef.block.inj h))

@[simp] theorem rename_inj : NodeRef.rename σ r = NodeRef.rename σ y ↔ r = y :=
  (rename_injective σ).eq_iff

theorem exists_rename (σ : Equiv.Perm ℕ) (r : NodeRef) : ∃ y, NodeRef.rename σ y = r := by
  cases r with
  | head => exact ⟨.head, rfl⟩
  | block n => exact ⟨.block (σ.symm n), by simp⟩

/-- `mm'` is `mm` renamed; nothing is said of the fields of the free struct `x`. -/
structure Renamed (σ : Equiv.Perm ℕ) (x : ℕ) (mm mm' : DrmMm) : Prop where
  nodeList : mm'.nodeList = mm.nodeList.map (NodeRef.rename σ)
  holeStack : mm'.holeStack = mm.holeStack.map (NodeRef.rename σ)
  colorAdjust : mm'.colorAdjust = mm.colorAdjust
  allocated : ∀ r, (mm'.node (r.rename σ)).allocated = (mm.node r).allocated
  core : ∀ r, r ≠ .block x ∨ (mm.node r).allocated = true →
    (mm'.node (r.rename σ)).core = (mm.node r).core

/-- The blocks on the list are in use. -/
def ListedInUse (mm : DrmMm) : Prop :=
  ∀ n, .block n ∈ mm.nodeList → (mm.node (.block n)).allocated = true

/-- The parameters of the scan that is going on, and its last hit. -/
def scanParams (mm : DrmMm) : Option (ℕ × ℕ) × ℕ × ℕ × ℕ × ℕ × ℕ :=
  (mm.scanRange, mm.scanAlignment, mm.scanColor, mm.scanSize, mm.scanHitStart, mm.scanHitEnd)

/-- Managers in the midst of a scan that has taken the blocks `ns` off the list. -/
structure ScanRenamed (σ : Equiv.Perm ℕ) (x : ℕ) (ns : List ℕ) (mm mm' : DrmMm) : Prop
    extends Renamed σ x mm mm' where
  params : mm'.scanParams = mm.scanParams
  linked : Linked mm
  listed : ListedInUse mm
  borrowed : ∀ n ∈ ns, (mm.node (.block n)).allocated = true ∧
    (mm'.node (.block (σ n))).nodeListPrev = (mm.node (.block n)).nodeListPrev.rename σ ∧
    (mm'.node (.block (σ n))).scannedPreceedsHole = (mm.node (.block n)).scannedPreceedsHole

/-! ### Neighbours -/

namespace Renamed
variable (h : Renamed σ x mm mm')
include h

theorem mem_nodeList : r.rename σ ∈ mm'.nodeList ↔ r ∈ mm.nodeList := by
  rw [h.nodeList]
  exact List.mem_map_of_injective (rename_injective σ)

theorem mem_holeStack : r.rename σ ∈ mm'.holeStack ↔ r ∈ mm.holeStack := by
  rw [h.holeStack]
  exact List.mem_map_of_injective (rename_injective σ)

theorem nextNode (r : NodeRef) : mm'.nextNode (r.rename σ) = (mm.nextNode r).rename σ := by
  rw [DrmMm.nextNode, h.nodeList]
  exact succ_map (h := NodeRef.head) (rename_injective σ)

theorem prevNode (r : NodeRef) : mm'.prevNode (r.rename σ) = (mm.prevNode r).rename σ := by
  have hlast : mm'.nodeList.getLastD .head = (mm.nodeList.getLastD .head).rename σ := by
    rw [h.nodeList]
    exact List.getLastD_map (a := NodeRef.head)
  rw [DrmMm.prevNode, hlast, h.nodeList]
  exact pred_map (rename_injective σ)

/-! ### Holes -/

theorem fields (hr : r ≠ .block x ∨ (mm.node r).allocated = true) :
    (mm'.node (r.rename σ)).holeFollows = (mm.node r).holeFollows ∧
      (mm'.node (r.rename σ)).start = (mm.node r).start ∧
      (mm'.node (r.rename σ)).size = (mm.node r).size := by
  have hcore := h.core r hr
  simp only [DrmMmNode.core, Prod.mk.injEq] at hcore
  exact ⟨hcore.1, hcore.2.2.2.1, hcore.2.2.2.2⟩

omit h in
theorem known (hl : ListedInUse mm) (hr : r ∈ mm.nodeList) :
    r ≠ .block x ∨ (mm.node r).allocated = true := by
  cases r with
  | head => exact .inl (by simp)
  | block n => exact .inr (hl n hr)

theorem nodeStart (hl : ListedInUse mm) (hr : r ∈ mm.nodeList) :
    mm'.nodeStart (r.rename σ) = mm.nodeStart r := (h.fields (known hl hr)).2.1

theorem holeNodeStart (hl : ListedInUse mm) (hr : r ∈ mm.nodeList) :
    drmMmHoleNodeStart mm' (r.rename σ) = drmMmHoleNodeStart mm r := by
  obtain ⟨-, hstart, hsize⟩ := h.fields (known hl hr)
  rw [drmMmHoleNodeStart, drmMmHoleNodeStart, hstart, hsize]

theorem holeNodeEnd (hk : Linked mm) (hl : ListedInUse mm) (r : NodeRef) :
    drmMmHoleNodeEnd mm' (r.rename σ) = drmMmHoleNodeEnd mm r := by
  rw [drmMmHoleNodeEnd, h.nextNode]
  exact h.nodeStart hl (hk.next_mem r)

theorem colorAdjusted (hadj : ∀ f ∈ mm.colorAdjust, f.ReadsCore) (hk : Linked mm)
    (hl : ListedInUse mm) (hr : r ∈ mm.nodeList) (color : ℕ) (i : ℕ × ℕ) :
    GfxDrm.colorAdjusted mm' (r.rename σ) color i = GfxDrm.colorAdjusted mm r color i := by
  unfold GfxDrm.colorAdjusted
  rw [h.colorAdjust]
  cases hf : mm.colorAdjust with
  | none => rfl
  | some adjust =>
    refine hadj adjust hf _ _ _ _ _ _ _ (h.core r (known hl hr)) ?_
    simp only [h.nextNode, rename_inj]
    split
    · rfl
    · exact congrArg some (h.core _ (known hl (hk.next_mem r)))

theorem adjustedHole (hadj : ∀ f ∈ mm.colorAdjust, f.ReadsCore) (hk : Linked mm)
    (hl : ListedInUse mm) (hr : r ∈ mm.nodeList) (range : Option (ℕ × ℕ)) (color : ℕ) :
    GfxDrm.adjustedHole mm' range color (r.rename σ) = GfxDrm.adjustedHole mm range color r := by
  rw [GfxDrm.adjustedHole, h.holeNodeStart hl hr, h.holeNodeEnd hk hl,
    h.colorAdjusted hadj hk hl hr]
  rfl

theorem holeFits (hadj : ∀ f ∈ mm.colorAdjust, f.ReadsCore) (hk : Linked mm)
    (hl : ListedInUse mm) (hr : r ∈ mm.nodeList) (range : Option (ℕ × ℕ))
    (size alignment color : ℕ) :
    GfxDrm.holeFits mm' range size alignment color (r.rename σ) =
      GfxDrm.holeFits mm range size alignment color r := by
  rw [GfxDrm.holeFits, h.adjustedHole hadj hk hl hr, h.colorAdjust]
  rfl

omit h in
/-- Both walks over the holes find the same one. -/
theorem searchHoles {fits fits' : NodeRef → Bool} (bestMatch : Bool) {l : List NodeRef}
    (hfits : ∀ r ∈ l, fits' (r.rename σ) = fits r)
    (hsize : ∀ r ∈ l, (mm'.node (r.rename σ)).size = (mm.node r).size) (best : Option NodeRef)
    (bestSize : ℕ) :
    GfxDrm.searchHoles mm' fits' bestMatch (l.map (NodeRef.rename σ))
        (best.map (NodeRef.rename σ)) bestSize =
      (GfxDrm.searchHoles mm fits bestMatch l best bestSize).map (NodeRef.rename σ) := by
  induction l generalizing best bestSize with
  | nil => rfl
  | cons a l ih =>
    have ih := ih (fun r hr => hfits r (List.mem_cons_of_mem _ hr)) fun r hr =>
      hsize r (List.mem_cons_of_mem _ hr)
    rw [List.map_cons, GfxDrm.searchHoles, GfxDrm.searchHoles, hfits a List.mem_cons_self,
      hsize a List.mem_cons_self, ih]
    split
    · rfl
    · split
      · rfl
      · split
        · exact ih (some a) _
        · rfl

theorem search (hadj : ∀ f ∈ mm.colorAdjust, f.ReadsCore) (hs : Shape mm) (q : MmRequest) :
    q.search mm' = (q.search mm).map (NodeRef.rename σ) := by
  have hl : ListedInUse mm := fun n hn => (hs.allocated n).mpr hn
  have hmem : ∀ r ∈ mm.holeStack, r ∈ mm.nodeList := fun r hr => ((hs.mem_stack r).mp hr).1
  rw [MmRequest.search, searchFreeWith, h.holeStack]
  exact searchHoles false (fun r hr => h.holeFits hadj hs.toLinked hl (hmem r hr) _ _ _ _)
    (fun r hr => (h.fields (known hl (hmem r hr))).2.2) none _

/-! ### Inserting and removing -/

/-- A node linked into a hole; without a colour of its own it is not the struct `x`. -/
theorem linkNode (hl : ListedInUse mm) (f : TakesHole mm r (.block n)) (st size : ℕ)
    (color : Option ℕ) (tail : Bool) (hcolor : color = none → n ≠ x) :
    Renamed σ x (linkNode mm r (.block n) st size color tail)
      (linkNode mm' (r.rename σ) (.block (σ n)) st size color tail) := by
  have hne := f.ne
  have hne' : NodeRef.block (σ n) ≠ r.rename σ := fun heq =>
    hne (rename_injective σ (by exact heq))
  have hstart := h.holeNodeStart hl f.mem
  have hold : ∀ y : NodeRef, y ≠ .block n → y.rename σ ≠ .block (σ n) := fun y hy heq =>
    hy (rename_injective σ heq)
  refine
    { nodeList := ?_
      holeStack := ?_
      colorAdjust := ?_
      allocated := fun y => ?_
      core := fun y hy => ?_ }
  · rw [linkNode_nodeList, linkNode_nodeList, h.nodeList]
    exact insertAfter_map (x := .block n) (rename_injective σ)
  · have herase : mm'.holeStack.erase (r.rename σ) =
        (mm.holeStack.erase r).map (NodeRef.rename σ) := by
      rw [h.holeStack]
      exact erase_map (rename_injective σ)
    have hafter : stackAfter mm' (r.rename σ) st = (stackAfter mm r st).map (NodeRef.rename σ) := by
      rw [stackAfter, stackAfter, hstart, herase, h.holeStack]
      split <;> rfl
    rw [linkNode_holeStack, linkNode_holeStack, hafter]
    split <;> rfl
  · rw [linkNode_colorAdjust, linkNode_colorAdjust, h.colorAdjust]
  · by_cases hy : y = .block n
    · rw [hy, rename_block, linkNode_new hne, linkNode_new hne']
    · rw [(linkNode_start_size (hold y hy)).2.2, (linkNode_start_size hy).2.2, h.allocated]
  · by_cases hyn : y = .block n
    · rw [hyn, rename_block, linkNode_new hne, linkNode_new hne']
      cases color with
      | some c => rfl
      | none =>
        have hcore := h.core (.block n) (.inl fun heq => hcolor rfl (NodeRef.block.inj heq))
        simp only [DrmMmNode.core, Prod.mk.injEq] at hcore
        simp only [DrmMmNode.core, Prod.mk.injEq, true_and, and_true]
        exact hcore.2.2.1
    · rw [(linkNode_start_size hyn).2.2] at hy
      have hcore := h.core y hy
      simp only [linkNode_old (hold y hyn), linkNode_old hyn, rename_inj, hstart]
      split
      · rename_i hused
        rw [← hused.1]
        simp only [DrmMmNode.core, Prod.mk.injEq] at hcore ⊢
        exact ⟨trivial, hcore.2⟩
      · exact hcore

theorem removeNode (hs : Shape mm) (hs' : Shape mm') (hx : .block n ∈ mm.nodeList) :
    Renamed σ x (drmMmRemoveNode mm (.block n)) (drmMmRemoveNode mm' (.block (σ n))) := by
  have hx' : .block (σ n) ∈ mm'.nodeList := h.mem_nodeList.mpr hx
  have hpn := prevNode_ne hs.toLinked hx
  have hpn' := prevNode_ne hs'.toLinked hx'
  have hprev : mm'.prevNode (.block (σ n)) = (mm.prevNode (.block n)).rename σ :=
    h.prevNode (.block n)
  have hold : ∀ y : NodeRef, y ≠ .block n → y.rename σ ≠ .block (σ n) := fun y hy heq =>
    hy (rename_injective σ heq)
  refine
    { nodeList := ?_
      holeStack := ?_
      colorAdjust := ?_
      allocated := fun y => ?_
      core := fun y hy => ?_ }
  · rw [removeNode_nodeList, h.nodeList]
    exact erase_map (a := .block n) (rename_injective σ)
  · rw [removeNode_holeStack hs, removeNode_holeStack hs', hprev, List.map_cons,
      List.map_erase (rename_injective σ), List.map_erase (rename_injective σ), h.holeStack]
    rfl
  · rw [removeNode_colorAdjust, removeNode_colorAdjust, h.colorAdjust]
  · by_cases hy : y = .block n
    · rw [hy, rename_block, removeNode_self hpn, removeNode_self hpn']
    · have hall := h.allocated y
      rw [removeNode_other (hold y hy), removeNode_other hy]
      split <;> split <;> exact hall
  · by_cases hyn : y = .block n
    · rw [hyn, removeNode_self hpn] at hy
      have hcore := h.core (.block n) (.inl (hy.resolve_right (by simp)))
      rw [hyn, rename_block, removeNode_self hpn, removeNode_self hpn']
      simp only [DrmMmNode.core, Prod.mk.injEq] at hcore ⊢
      exact ⟨hcore.1, trivial, hcore.2.2⟩
    · rw [removeNode_other hyn] at hy
      have hknown : y ≠ .block x ∨ (mm.node y).allocated = true := by
        split at hy <;> exact hy
      have hcore := h.core y hknown
      simp only [removeNode_other (hold y hyn), removeNode_other hyn, hprev, rename_inj]
      split
      · simp only [DrmMmNode.core, Prod.mk.injEq] at hcore ⊢
        exact ⟨trivial, hcore.2⟩
      · exact hcore

end Renamed

/-! ### Scanning -/

theorem scanUnlink_lent (hr : r ≠ y) :
    ((scanUnlink mm y).node r).allocated = (mm.node r).allocated ∧
      ((scanUnlink mm y).node r).nodeListPrev = (mm.node r).nodeListPrev ∧
      ((scanUnlink mm y).node r).scannedPreceedsHole = (mm.node r).scannedPreceedsHole := by
  rw [scanUnlink_node hr]
  split <;> exact ⟨rfl, rfl, rfl⟩

theorem scanUnlink_allocated (hp : mm.prevNode y ≠ y) (r : NodeRef) :
    ((scanUnlink mm y).node r).allocated = (mm.node r).allocated := by
  by_cases hr : r = y
  · rw [hr, scanUnlink_node_self hp]
  · exact (scanUnlink_lent hr).1

theorem scanUnlink_core (hp : mm.prevNode y ≠ y) (r : NodeRef) :
    ((scanUnlink mm y).node r).core =
      if r = mm.prevNode y then (true, (mm.node r).core.2) else (mm.node r).core := by
  by_cases hr : r = y
  · rw [hr, scanUnlink_node_self hp, if_neg hp.symm]
    rfl
  · rw [scanUnlink_node hr]
    split <;> rfl

theorem scanRemove_lent (hp : (mm.node y).nodeListPrev ≠ y) (r : NodeRef) :
    ((drmMmScanRemoveBlock mm y).2.node r).allocated = (mm.node r).allocated ∧
      ((drmMmScanRemoveBlock mm y).2.node r).nodeListPrev = (mm.node r).nodeListPrev ∧
      ((drmMmScanRemoveBlock mm y).2.node r).scannedPreceedsHole =
        (mm.node r).scannedPreceedsHole := by
  by_cases hr : r = y
  · rw [hr, scanRemove_node_self hp]
    exact ⟨rfl, rfl, rfl⟩
  · rw [scanRemove_node hr]
    split <;> exact ⟨rfl, rfl, rfl⟩

theorem scanRemove_answer (mm : DrmMm) (y : NodeRef) : (drmMmScanRemoveBlock mm y).1 =
    (decide ((drmMmScanRemoveBlock mm y).2.scanHitStart <
        drmMmHoleNodeEnd (drmMmScanRemoveBlock mm y).2 y) &&
      decide ((drmMmScanRemoveBlock mm y).2.nodeStart y <
        (drmMmScanRemoveBlock mm y).2.scanHitEnd)) := rfl

theorem scanRemove_core (hp : (mm.node y).nodeListPrev ≠ y) (r : NodeRef) :
    ((drmMmScanRemoveBlock mm y).2.node r).core =
      if r = (mm.node y).nodeListPrev then ((mm.node y).scannedPreceedsHole, (mm.node r).core.2)
      else (mm.node r).core := by
  by_cases hr : r = y
  · rw [hr, scanRemove_node_self hp, if_neg hp.symm]
    rfl
  · rw [scanRemove_node hr]
    split <;> rfl

namespace ScanRenamed
variable {ns ms : List ℕ}

theorem scanUnlink (h : ScanRenamed σ x ns mm mm') (hx : .block n ∈ mm.nodeList) :
    ScanRenamed σ x (n :: ns) (scanUnlink mm (.block n)) (scanUnlink mm' (.block (σ n))) := by
  have hpn := prevNode_ne h.linked hx
  have hprev : mm'.prevNode (.block (σ n)) = (mm.prevNode (.block n)).rename σ :=
    h.prevNode (.block n)
  have hpn' : mm'.prevNode (.block (σ n)) ≠ .block (σ n) := fun heq =>
    hpn (rename_injective σ (hprev.symm.trans heq))
  have hpmem := List.mem_of_mem_erase (prevNode_mem_erase h.linked hx)
  refine
    { nodeList := ?_
      holeStack := h.holeStack
      colorAdjust := h.colorAdjust
      allocated := fun y => ?_
      core := fun y hy => ?_
      params := h.params
      linked := h.linked.scanUnlink n
      listed := fun m hm => ?_
      borrowed := fun m hm => ?_ }
  · change mm'.nodeList.erase _ = (mm.nodeList.erase _).map _
    rw [h.nodeList]
    exact erase_map (a := .block n) (rename_injective σ)
  · rw [scanUnlink_allocated hpn', scanUnlink_allocated hpn, h.allocated]
  · rw [scanUnlink_allocated hpn] at hy
    have hcore := h.core y hy
    simp only [scanUnlink_core hpn', scanUnlink_core hpn, hprev, rename_inj, hcore]
  · rw [scanUnlink_allocated hpn]
    exact h.listed m (List.mem_of_mem_erase hm)
  · rw [scanUnlink_allocated hpn]
    by_cases hmn : m = n
    · rw [hmn, scanUnlink_node_self hpn, scanUnlink_node_self hpn']
      refine ⟨h.listed n hx, hprev, ?_⟩
      rw [hprev]
      exact (h.fields (Renamed.known h.listed hpmem)).1
    · have hne : NodeRef.block m ≠ .block n := fun heq => hmn (NodeRef.block.inj heq)
      have hne' : NodeRef.block (σ m) ≠ .block (σ n) := fun heq =>
        hmn (σ.injective (NodeRef.block.inj heq))
      obtain ⟨hall, hback, hhole⟩ := h.borrowed m ((List.mem_cons.mp hm).resolve_left hmn)
      obtain ⟨-, hback₁, hhole₁⟩ := scanUnlink_lent hne
      obtain ⟨-, hback₂, hhole₂⟩ := scanUnlink_lent hne'
      rw [hback₁, hhole₁, hback₂, hhole₂]
      exact ⟨hall, hback, hhole⟩

theorem scanAdd (h : ScanRenamed σ x ns mm mm') (hadj : ∀ f ∈ mm.colorAdjust, f.ReadsCore)
    (hx : .block n ∈ mm.nodeList) :
    (drmMmScanAddBlock mm' (.block (σ n))).1 = (drmMmScanAddBlock mm (.block n)).1 ∧
      ScanRenamed σ x (n :: ns) (drmMmScanAddBlock mm (.block n)).2
        (drmMmScanAddBlock mm' (.block (σ n))).2 := by
  have hu := h.scanUnlink hx
  have hprev : mm'.prevNode (.block (σ n)) = (mm.prevNode (.block n)).rename σ :=
    h.prevNode (.block n)
  have hpmem : mm.prevNode (.block n) ∈ (GfxDrm.scanUnlink mm (.block n)).nodeList :=
    prevNode_mem_erase h.linked hx
  have hparams := hu.params
  simp only [scanParams, Prod.mk.injEq] at hparams
  obtain ⟨hrange, halign, hcolor, hsize, -, -⟩ := hparams
  have hhole := hu.adjustedHole hadj hu.linked hu.listed hpmem
    (GfxDrm.scanUnlink mm (.block n)).scanRange (GfxDrm.scanUnlink mm (.block n)).scanColor
  have hstart := hu.holeNodeStart hu.listed hpmem
  have hend := hu.holeNodeEnd hu.linked hu.listed (mm.prevNode (.block n))
  unfold drmMmScanAddBlock
  dsimp only
  rw [hprev, hrange, hcolor, hsize, halign, hhole, hstart, hend]
  split
  · refine ⟨rfl, { hu.toRenamed with
      params := ?_
      linked := ⟨hu.linked.head_first, hu.linked.nodup⟩
      listed := hu.listed
      borrowed := hu.borrowed }⟩
    simp only [scanParams, Prod.mk.injEq, and_true]
    exact hrange
  · exact ⟨rfl, hu⟩

/-- The block added last is put back. -/
theorem scanRemove (h : ScanRenamed σ x (n :: ns) mm mm') (hx : .block n ∉ mm.nodeList)
    (hback : (mm.node (.block n)).nodeListPrev ∈ mm.nodeList) :
    (drmMmScanRemoveBlock mm' (.block (σ n))).1 = (drmMmScanRemoveBlock mm (.block n)).1 ∧
      ScanRenamed σ x ns (drmMmScanRemoveBlock mm (.block n)).2
        (drmMmScanRemoveBlock mm' (.block (σ n))).2 := by
  obtain ⟨hinuse, hprev, hhole⟩ := h.borrowed n List.mem_cons_self
  have hpn : (mm.node (.block n)).nodeListPrev ≠ .block n := fun heq => hx (heq ▸ hback)
  have hpn' : (mm'.node (.block (σ n))).nodeListPrev ≠ .block (σ n) := fun heq =>
    hpn (rename_injective σ (hprev.symm.trans heq))
  have hmem : ∀ y, y ∈ (drmMmScanRemoveBlock mm (.block n)).2.nodeList ↔
      y = .block n ∨ y ∈ mm.nodeList := fun y => mem_insertAfter hback
  have hafter : ScanRenamed σ x ns (drmMmScanRemoveBlock mm (.block n)).2
      (drmMmScanRemoveBlock mm' (.block (σ n))).2 := by
    refine
      { nodeList := ?_
        holeStack := h.holeStack
        colorAdjust := h.colorAdjust
        allocated := fun y => ?_
        core := fun y hy => ?_
        params := h.params
        linked := ⟨?_, nodup_insertAfter hback h.linked.nodup hx⟩
        listed := fun m hm => ?_
        borrowed := fun m hm => ?_ }
    · change insertAfter _ _ mm'.nodeList = (insertAfter _ _ mm.nodeList).map _
      rw [hprev, h.nodeList]
      exact insertAfter_map (x := .block n) (rename_injective σ)
    · rw [(scanRemove_lent hpn' _).1, (scanRemove_lent hpn _).1, h.allocated]
    · rw [(scanRemove_lent hpn _).1] at hy
      have hcore := h.core y hy
      simp only [scanRemove_core hpn', scanRemove_core hpn, hprev, hhole, rename_inj, hcore]
    · obtain ⟨l, hl⟩ := h.linked.head_first
      refine ⟨(insertAfter (mm.node (.block n)).nodeListPrev (.block n) (.head :: l)).tail, ?_⟩
      change insertAfter _ _ mm.nodeList = _
      rw [hl]
      exact Ring.Links.insertAfter_tail _ _ _ _
    · rw [(scanRemove_lent hpn _).1]
      rcases (hmem _).mp hm with heq | hold
      · rw [heq]
        exact hinuse
      · exact h.listed m hold
    · obtain ⟨hall₁, hback₁, hhole₁⟩ := scanRemove_lent hpn (.block m)
      obtain ⟨-, hback₂, hhole₂⟩ := scanRemove_lent hpn' (.block (σ m))
      rw [hall₁, hback₁, hhole₁, hback₂, hhole₂]
      exact h.borrowed m (List.mem_cons_of_mem _ hm)
  have hlisted : .block n ∈ (drmMmScanRemoveBlock mm (.block n)).2.nodeList :=
    (hmem _).mpr (.inl rfl)
  have hend : drmMmHoleNodeEnd (drmMmScanRemoveBlock mm' (.block (σ n))).2 (.block (σ n)) =
      drmMmHoleNodeEnd (drmMmScanRemoveBlock mm (.block n)).2 (.block n) :=
    hafter.holeNodeEnd hafter.linked hafter.listed (.block n)
  have hstart : (drmMmScanRemoveBlock mm' (.block (σ n))).2.nodeStart (.block (σ n)) =
      (drmMmScanRemoveBlock mm (.block n)).2.nodeStart (.block n) :=
    hafter.nodeStart hafter.listed hlisted
  have hparams := hafter.params
  simp only [scanParams, Prod.mk.injEq] at hparams
  obtain ⟨-, -, -, -, hhitStart, hhitEnd⟩ := hparams
  refine ⟨?_, hafter⟩
  rw [scanRemove_answer, scanRemove_answer, hhitStart, hhitEnd, hend, hstart]

/-- A scan finds the same hits and evicts the renamed blocks. -/
theorem scan (h : ScanRenamed σ x ms mm mm') (hadj : ∀ f ∈ mm.colorAdjust, f.ReadsCore)
    (hs : ScanList mm ns) :
    scanHits mm' (ns.map σ) = scanHits mm ns ∧
      (scanRemoveAll (scanAddAll mm' (ns.map σ)) (ns.map σ).reverse).1 =
        (scanRemoveAll (scanAddAll mm ns) ns.reverse).1.map σ ∧
      ScanRenamed σ x ms (scanRemoveAll (scanAddAll mm ns) ns.reverse).2
        (scanRemoveAll (scanAddAll mm' (ns.map σ)) (ns.map σ).reverse).2 := by
  -- the blocks after the first are scanned with it off the list
  induction ns generalizing mm mm' ms with
  | nil => exact ⟨rfl, rfl, h⟩
  | cons n ns ih =>
    have hx := hs.mem n List.mem_cons_self
    have hn := (List.nodup_cons.mp hs.nodup).1
    have hpn := prevNode_ne h.linked hx
    obtain ⟨hhit, hadd⟩ := h.scanAdd hadj hx
    have hadj₁ : ∀ f ∈ (drmMmScanAddBlock mm (.block n)).2.colorAdjust, f.ReadsCore := by
      rw [scanAdd_colorAdjust]
      exact hadj
    obtain ⟨hhits, hevict, hrest⟩ := ih hadd hadj₁ hs.tail
    have hback := scan_restored hadd.linked hs.tail
    obtain ⟨t, ht⟩ : ∃ t, t = scanRemoveAll (scanAddAll (drmMmScanAddBlock mm (.block n)).2 ns)
      ns.reverse := ⟨_, rfl⟩
    obtain ⟨t', ht'⟩ : ∃ t', t' = scanRemoveAll
      (scanAddAll (drmMmScanAddBlock mm' (.block (σ n))).2 (ns.map σ)) (ns.map σ).reverse :=
    ⟨_, rfl⟩
    rw [← ht] at hevict hrest hback
    rw [← ht'] at hevict hrest
    have hlist : t.2.nodeList = mm.nodeList.erase (.block n) :=
      hback.nodeList.trans (scanAdd_nodeList _ _)
    have hself : (t.2.node (.block n)).nodeListPrev = mm.prevNode (.block n) := by
      have hne : ∀ m ∈ ns, NodeRef.block n ≠ .block m := fun m hm heq =>
        hn (NodeRef.block.inj heq ▸ hm)
      rw [hback.other _ hne, scanAdd_node, scanUnlink_node_self hpn]
    obtain ⟨hanswer, hput⟩ := hrest.scanRemove
      (by rw [hlist]; exact h.linked.nodup.not_mem_erase)
      (by rw [hself, hlist]; exact prevNode_mem_erase h.linked hx)
    have hrun : scanRemoveAll (scanAddAll mm (n :: ns)) (n :: ns).reverse =
        (t.1 ++ if (drmMmScanRemoveBlock t.2 (.block n)).1 then [n] else [],
          (drmMmScanRemoveBlock t.2 (.block n)).2) := by
      rw [List.reverse_cons, scanRemoveAll_append, scanAddAll, ← ht]
      rfl
    have hrun' : scanRemoveAll (scanAddAll mm' (σ n :: ns.map σ)) (σ n :: ns.map σ).reverse =
        (t'.1 ++ if (drmMmScanRemoveBlock t'.2 (.block (σ n))).1 then [σ n] else [],
          (drmMmScanRemoveBlock t'.2 (.block (σ n))).2) := by
      rw [List.reverse_cons, scanRemoveAll_append, scanAddAll, ← ht']
      rfl
    rw [List.map_cons, hrun, hrun', scanHits, hhit, hhits, hevict, hanswer]
    refine ⟨rfl, ?_, hput⟩
    rw [List.map_append]
    split <;> rfl

end ScanRenamed

/-! ### Calls -/

namespace Renamed

theorem startScan (h : Renamed σ x mm mm') (hs : Shape mm) (q : MmRequest) :
    ScanRenamed σ x [] (q.startScan mm) (q.startScan mm') := by
  have hl : ListedInUse mm := fun n hn => (hs.allocated n).mpr hn
  unfold MmRequest.startScan
  split <;>
  exact
    { nodeList := h.nodeList
      holeStack := h.holeStack
      colorAdjust := h.colorAdjust
      allocated := h.allocated
      core := h.core
      params := rfl
      linked := ⟨hs.head_first, hs.nodup⟩
      listed := hl
      borrowed := fun m hm => absurd hm List.not_mem_nil }

/-- The renamed manager is in as good a shape. -/
theorem shape (h : Renamed σ x mm mm') (hs : Shape mm) : Shape mm' := by
  have hl : ListedInUse mm := fun n hn => (hs.allocated n).mpr hn
  refine
    { head_first := ?_
      nodup := h.nodeList ▸ hs.nodup.map (rename_injective σ)
      allocated := fun n => ?_
      stack_nodup := h.holeStack ▸ hs.stack_nodup.map (rename_injective σ)
      mem_stack := fun r => ?_ }
  · obtain ⟨l, hl⟩ := hs.head_first
    exact ⟨l.map (NodeRef.rename σ), by rw [h.nodeList, hl]; rfl⟩
  · obtain ⟨y, hy⟩ := exists_rename σ (.block n)
    cases y with
    | head => exact absurd hy (by simp)
    | block m =>
      rw [← hy, h.allocated, h.mem_nodeList]
      exact hs.allocated m
  · obtain ⟨y, rfl⟩ := exists_rename σ r
    rw [h.mem_holeStack, h.mem_nodeList, hs.mem_stack]
    refine and_congr_right fun hy => ?_
    rw [(h.fields (known hl hy)).1]

theorem ok (h : Renamed σ x mm mm') {op : DrmMmOp} (hok : op.Ok mm) : (op.rename σ).Ok mm' := by
  have hall : ∀ n, (mm'.node (.block (σ n))).allocated = (mm.node (.block n)).allocated := fun n =>
    h.allocated (.block n)
  cases op with
  | createBlock kmalloc start size =>
    refine ⟨hok.1, hok.2.1, fun m hm => ?_⟩
    obtain ⟨n, hn, rfl⟩ := Option.map_eq_some_iff.mp hm
    rw [hall]
    exact hok.2.2 n hn
  | insertNode q n => exact ⟨hok.1, (hall n).trans hok.2⟩
  | removeNode n => exact (hall n).trans hok
  | scan q ns =>
    refine ⟨hok.1, hok.2.1.map σ.injective, fun m hm => ?_⟩
    obtain ⟨n, hn, rfl⟩ := List.mem_map.mp hm
    rw [hall]
    exact hok.2.2 n hn

theorem createBlock (h : Renamed σ x mm mm') (hs : Shape mm) (kmalloc : Option ℕ) (start size : ℕ)
    (hok : (DrmMmOp.createBlock kmalloc start size).Ok mm) (hx : x ∉ kmalloc) :
    (drmMmCreateBlock mm' ((kmalloc.map σ).map .block) start size).1 =
        (drmMmCreateBlock mm (kmalloc.map .block) start size).1.map (NodeRef.rename σ) ∧
      Renamed σ x (drmMmCreateBlock mm (kmalloc.map .block) start size).2
        (drmMmCreateBlock mm' ((kmalloc.map σ).map .block) start size).2 := by
  have hl : ListedInUse mm := fun n hn => (hs.allocated n).mpr hn
  have hmem : ∀ r ∈ mm.holeStack, r ∈ mm.nodeList := fun r hr => ((hs.mem_stack r).mp hr).1
  have hfind : (mm'.holeStack.find? fun r => decide (drmMmHoleNodeStart mm' r ≤ start ∧
      Word.add 64 start size ≤ drmMmHoleNodeEnd mm' r)) =
      (mm.holeStack.find? fun r => decide (drmMmHoleNodeStart mm r ≤ start ∧
        Word.add 64 start size ≤ drmMmHoleNodeEnd mm r)).map (NodeRef.rename σ) := by
    rw [h.holeStack, List.find?_map]
    congr 1
    refine List.find?_congr fun r hr => ?_
    simp only [Function.comp_apply, h.holeNodeStart hl (hmem r hr), h.holeNodeEnd hs.toLinked hl]
  unfold drmMmCreateBlock
  dsimp only
  rw [hfind]
  cases hhole : mm.holeStack.find? fun r => decide (drmMmHoleNodeStart mm r ≤ start ∧
      Word.add 64 start size ≤ drmMmHoleNodeEnd mm r) with
  | none => exact ⟨rfl, h⟩
  | some hole =>
    cases kmalloc with
    | none => exact ⟨rfl, h⟩
    | some n =>
      have hnx : n ≠ x := fun heq => hx (heq ▸ rfl)
      have hhmem := List.mem_of_find?_eq_some hhole
      have htakes := takesHole hs hhmem (hok.2.2 n rfl)
      refine ⟨rfl, ?_⟩
      simp only [Option.map_some, h.holeNodeEnd hs.toLinked hl]
      exact h.linkNode hl htakes start size none _ fun _ => hnx

theorem insert (h : Renamed σ x mm mm') (hadj : ∀ f ∈ mm.colorAdjust, f.ReadsCore) (hs : Shape mm)
    (q : MmRequest) (hn : (mm.node (.block n)).allocated = false) :
    (q.insert mm' (σ n)).1 = (q.insert mm n).1 ∧
      Renamed σ x (q.insert mm n).2 (q.insert mm' (σ n)).2 := by
  have hl : ListedInUse mm := fun n hn => (hs.allocated n).mpr hn
  rw [q.insert_eq, q.insert_eq, h.search hadj hs]
  cases hhole : q.search mm with
  | none => exact ⟨rfl, h⟩
  | some r =>
    have hr := (mem_of_search hhole).1
    have hmem := ((hs.mem_stack r).mp hr).1
    have htakes := takesHole hs hr hn
    refine ⟨rfl, ?_⟩
    simp only [Option.map_some, insertHelperWith, h.adjustedHole hadj hs.toLinked hl hmem,
      h.holeNodeEnd hs.toLinked hl]
    exact h.linkNode hl htakes _ _ _ _ fun heq => absurd heq (by simp)

/-- A call and the renamed call give the same answer and stay in step. -/
theorem apply (h : Renamed σ x mm mm') (hadj : ∀ f ∈ mm.colorAdjust, f.ReadsCore) (hs : Shape mm)
    {op : DrmMmOp} (hok : op.Ok mm) (hx : op.Spares x) :
    (op.rename σ).answer mm' = (op.answer mm).rename σ ∧
      Renamed σ x (op.apply mm) ((op.rename σ).apply mm') := by
  cases op with
  | createBlock kmalloc start size =>
    obtain ⟨hans, hren⟩ := h.createBlock hs kmalloc start size hok hx
    exact ⟨congrArg MmAnswer.block hans, hren⟩
  | insertNode q n =>
    obtain ⟨hans, hren⟩ := h.insert hadj hs q hok.2
    exact ⟨congrArg MmAnswer.ret hans, hren⟩
  | removeNode n =>
    exact ⟨rfl, h.removeNode hs (h.shape hs) ((hs.allocated n).mp hok)⟩
  | scan q ns =>
    have hstart := h.startScan hs q
    have hadj' : ∀ f ∈ (q.startScan mm).colorAdjust, f.ReadsCore := by
      rw [(Restored.startScan q mm).colorAdjust]
      exact hadj
    have hlist := scanList hs hok
    obtain ⟨hhits, hevict, hren⟩ := hstart.scan hadj'
      ⟨hlist.nodup, fun n hn => (Restored.startScan q mm).nodeList ▸ hlist.mem n hn⟩
    refine ⟨?_, hren.toRenamed⟩
    change MmAnswer.scanned (scanHits (q.startScan mm') (ns.map σ)) _ = MmAnswer.scanned _ _
    rw [hhits]
    exact congrArg _ hevict

end Renamed

end DrmMm
end GfxDrm
