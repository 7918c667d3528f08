import GfxDrm.DrmMm.Runs

/-! Evicting what a scan has marked makes room for the request. -/

namespace GfxDrm
open Circular Run

/-- `drm_mm_remove_node` on every block to evict. -/
def evictAll (mm : DrmMm) (ns : List ℕ) : DrmMm :=
  ns.foldl (fun mm n => drmMmRemoveNode mm (.block n)) mm

/-- The callback looks at colours and at whether the neighbour is allocated, as
`i915_gtt_color_adjust` does. -/
def ReadsColors (adjust : ColorAdjust) : Prop :=
  ∀ p p' q q' color s e, p.color = p'.color →
    q.map (fun n => (n.allocated, n.color)) = q'.map (fun n => (n.allocated, n.color)) →
    adjust p q color s e = adjust p' q' color s e

def i915GttColorAdjust : ColorAdjust := fun node next color start stop =>
  (if node.color ≠ color then Word.add 64 start 4096 else start,
    match next with
    | none => stop
    | some next => if next.allocated && decide (next.color ≠ color) then Word.sub 64 stop 4096
      else stop)

/-- The part of the hole that adding `n` leaves behind and that the request may use. -/
def scanHole (mm : DrmMm) (n : ℕ) : ℕ × ℕ :=
  adjustedHole (scanUnlink mm (.block n)) mm.scanRange mm.scanColor (mm.prevNode (.block n))

/-- Every hit is a hole that meets the scan's range, or ends the scan; with a `color_adjust`
callback both. -/
def CleanHits : DrmMm → List ℕ → Prop
  | _, [] => True
  | mm, n :: l =>
    ((drmMmScanAddBlock mm (.block n)).1 = true →
      match mm.colorAdjust with
      | none => l = [] ∨ (scanHole mm n).1 ≤ (scanHole mm n).2
      | some adjust => l = [] ∧ (scanHole mm n).1 ≤ (scanHole mm n).2 ∧ ReadsColors adjust) ∧
    CleanHits (drmMmScanAddBlock mm (.block n)).2 l

namespace DrmMm
variable {mm mm' : DrmMm} {q : MmRequest} {n lo hi : ℕ} {ns : List ℕ} {x r : NodeRef}

/-! ### The scan fields -/

/-- The request a scan was started for. -/
structure Scans (q : MmRequest) (mm : DrmMm) : Prop where
  size : mm.scanSize = q.size
  alignment : mm.scanAlignment = q.alignment
  color : mm.scanColor = q.color
  range : mm.scanRange = q.range

theorem scans_startScan (q : MmRequest) (mm : DrmMm) : Scans q (q.startScan mm) := by
  unfold MmRequest.startScan
  rcases hq : q.range with _ | ⟨start, stop⟩
  · exact ⟨rfl, rfl, rfl, by simp [scanRange, drmMmInitScan, hq]⟩
  · exact ⟨rfl, rfl, rfl, by simp [scanRange, drmMmInitScanWithRange, hq]⟩

theorem Scans.scanAdd (h : Scans q mm) (x : NodeRef) : Scans q (drmMmScanAddBlock mm x).2 := by
  unfold drmMmScanAddBlock
  dsimp only
  split <;> exact ⟨h.size, h.alignment, h.color, h.range⟩

theorem scanAdd_fst (mm : DrmMm) (n : ℕ) : (drmMmScanAddBlock mm (.block n)).1 =
    checkFreeHole (scanHole mm n).1 (scanHole mm n).2 mm.scanSize mm.scanAlignment := by
  unfold drmMmScanAddBlock scanHole
  dsimp only
  split
  · rename_i h
    exact h.symm
  · rename_i h
    exact (Bool.eq_false_iff.mpr h).symm

theorem scanAdd_hit (hit : (drmMmScanAddBlock mm x).1 = true) :
    (drmMmScanAddBlock mm x).2.scanHitStart =
        drmMmHoleNodeStart (scanUnlink mm x) (mm.prevNode x) ∧
      (drmMmScanAddBlock mm x).2.scanHitEnd =
        drmMmHoleNodeEnd (scanUnlink mm x) (mm.prevNode x) := by
  unfold drmMmScanAddBlock at hit ⊢
  dsimp only at hit ⊢
  split at hit
  · rename_i h
    simp only [h, if_true, and_self]
  · simp at hit

theorem scanAdd_noHit (hit : (drmMmScanAddBlock mm x).1 = false) :
    (drmMmScanAddBlock mm x).2.scanHitStart = mm.scanHitStart ∧
      (drmMmScanAddBlock mm x).2.scanHitEnd = mm.scanHitEnd := by
  unfold drmMmScanAddBlock at hit ⊢
  dsimp only at hit ⊢
  split at hit
  · simp at hit
  · rename_i h
    simp only [h]
    exact ⟨rfl, rfl⟩

theorem scanAddAll_noHit (hit : scanHit mm ns = false) :
    (scanAddAll mm ns).scanHitStart = mm.scanHitStart ∧
      (scanAddAll mm ns).scanHitEnd = mm.scanHitEnd := by
  induction ns generalizing mm with
  | nil => exact ⟨rfl, rfl⟩
  | cons n ns ih =>
    obtain ⟨hn, hns⟩ := Bool.or_eq_false_iff.mp hit
    obtain ⟨h₁, h₂⟩ := ih hns
    obtain ⟨h₃, h₄⟩ := scanAdd_noHit hn
    exact ⟨h₁.trans h₃, h₂.trans h₄⟩

theorem scanRemoveAll_hit (mm : DrmMm) (l : List ℕ) :
    (scanRemoveAll mm l).2.scanHitStart = mm.scanHitStart ∧
      (scanRemoveAll mm l).2.scanHitEnd = mm.scanHitEnd := by
  induction l generalizing mm with
  | nil => exact ⟨rfl, rfl⟩
  | cons n l ih => exact ih _

theorem scanAdd_core (mm : DrmMm) (hp : mm.prevNode x ≠ x) (r : NodeRef) :
    ((drmMmScanAddBlock mm x).2.node r).start = (mm.node r).start ∧
      ((drmMmScanAddBlock mm x).2.node r).size = (mm.node r).size ∧
      ((drmMmScanAddBlock mm x).2.node r).color = (mm.node r).color ∧
      ((drmMmScanAddBlock mm x).2.node r).allocated = (mm.node r).allocated := by
  rw [scanAdd_node]
  by_cases hr : r = x
  · subst hr
    simp [scanUnlink_node_self hp]
  · rw [scanUnlink_node hr]
    split <;> simp

/-! ### The manager during a scan -/

/-- `mm'` is `mm` with some blocks taken off its list by a scan. -/
structure Scanned (mm mm' : DrmMm) : Prop where
  linked : Linked mm'
  sub : mm'.nodeList.Sublist mm.nodeList
  colorAdjust : mm'.colorAdjust = mm.colorAdjust
  fields : ∀ r, (mm'.node r).start = (mm.node r).start ∧ (mm'.node r).size = (mm.node r).size ∧
    (mm'.node r).color = (mm.node r).color ∧ (mm'.node r).allocated = (mm.node r).allocated

namespace Scanned

theorem startScan (h : Linked mm) (q : MmRequest) : Scanned mm (q.startScan mm) := by
  have hr := Restored.startScan q mm
  refine ⟨⟨hr.nodeList ▸ h.head_first, hr.nodeList ▸ h.nodup⟩, hr.nodeList ▸ List.Sublist.refl _,
    hr.colorAdjust, fun r => ?_⟩
  obtain ⟨-, ha, hc, hs, hz⟩ := hr.fields r
  exact ⟨hs, hz, hc, ha⟩

theorem scanAdd (h : Scanned mm mm') (hn : .block n ∈ mm'.nodeList) :
    Scanned mm (drmMmScanAddBlock mm' (.block n)).2 where
  linked := h.linked.scanAdd n
  sub := by
    rw [scanAdd_nodeList]
    exact List.erase_sublist.trans h.sub
  colorAdjust := (scanAdd_colorAdjust _ _).trans h.colorAdjust
  fields r := by
    obtain ⟨h₁, h₂, h₃, h₄⟩ := scanAdd_core mm' (prevNode_ne h.linked hn) r
    obtain ⟨k₁, k₂, k₃, k₄⟩ := h.fields r
    exact ⟨h₁.trans k₁, h₂.trans k₂, h₃.trans k₃, h₄.trans k₄⟩

theorem scanAddAll (h : Scanned mm mm') (hs : ScanList mm' ns) :
    Scanned mm (scanAddAll mm' ns) := by
  induction ns generalizing mm' with
  | nil => exact h
  | cons n ns ih => exact ih (h.scanAdd (hs.mem n (by simp))) hs.tail

section addresses
variable (h : Scanned mm mm')
include h

theorem nodeStart : mm'.nodeStart = mm.nodeStart := by
  funext r
  exact (h.fields r).1

theorem holeNodeStart : drmMmHoleNodeStart mm' = drmMmHoleNodeStart mm := by
  funext r
  simp only [drmMmHoleNodeStart, h.fields r]

theorem sorted (hI : Inv lo hi mm) :
    Layout.Sorted mm.nodeStart (drmMmHoleNodeStart mm) .head mm'.nodeList := by
  obtain ⟨l, hl⟩ := hI.head_first
  have hn := hI.nodup
  have ho := hI.ordered
  rw [hl] at hn ho
  exact (ho.sorted hn (hI.start_le_end hl)).sublist (hl ▸ h.sub)

/-- The block ends where its hole starts, at most where its hole ends. -/
theorem end_le_holeEnd (hI : Inv lo hi mm) (hr : r ∈ mm'.nodeList) :
    drmMmHoleNodeStart mm r ≤ drmMmHoleNodeEnd mm' r := by
  have ho := (h.sorted hI).ordered h.linked.nodup r hr
  unfold drmMmHoleNodeEnd
  rwa [h.nodeStart]

/-- No listed block reaches into the hole behind `r`. -/
theorem gap_free (hI : Inv lo hi mm) (hr : r ∈ mm'.nodeList) (hx : x ∈ mm'.nodeList) :
    drmMmHoleNodeStart mm x ≤ drmMmHoleNodeStart mm r ∨
      drmMmHoleNodeEnd mm' r ≤ mm.nodeStart x := by
  obtain ⟨l, hl⟩ := h.linked.head_first
  obtain ⟨l₀, hl₀⟩ := hI.head_first
  have hn := h.linked.nodup
  have hs := h.sorted hI
  have hpos : ∀ a ∈ l, mm.nodeStart a ≤ drmMmHoleNodeStart mm a := by
    intro a ha
    have hne : a ≠ .head := fun e => (List.nodup_cons.mp (hl ▸ hn)).1 (e ▸ ha)
    have ha₀ : a ∈ mm.nodeList := h.sub.subset (hl ▸ List.mem_cons_of_mem _ ha)
    exact hI.start_le_end hl₀ a ((List.mem_cons.mp (hl₀ ▸ ha₀)).resolve_left hne)
  rw [hl] at hn hs
  have hg := hs.gap_free hn hpos (hl ▸ hr) (hl ▸ hx)
  unfold drmMmHoleNodeEnd nextNode
  rwa [h.nodeStart, hl]

end addresses
end Scanned

theorem mem_scanAddAll (h : Linked mm) : r ∈ (scanAddAll mm ns).nodeList ↔
    r ∈ mm.nodeList ∧ ∀ n ∈ ns, r ≠ .block n := by
  induction ns generalizing mm with
  | nil => simp [scanAddAll]
  | cons n ns ih =>
    rw [scanAddAll, ih (h.scanAdd n), scanAdd_nodeList, h.nodup.mem_erase_iff]
    simp only [List.mem_cons, forall_eq_or_imp]
    tauto

/-! ### Which blocks are reported -/

theorem scanRemoveAll_sublist (mm : DrmMm) (l : List ℕ) : (scanRemoveAll mm l).1.Sublist l := by
  induction l generalizing mm with
  | nil => exact List.Sublist.refl _
  | cons n l ih =>
    unfold scanRemoveAll
    dsimp only
    split
    · exact (ih _).cons_cons n
    · exact (ih _).cons n

/-- A block that is not reported does not reach into the hit interval. -/
theorem free_of_not_reported (hI : Inv lo hi mm) (h : Scanned mm mm') (hs : ScanList mm' ns)
    (hn : n ∈ ns) (hrep : n ∉ (scanRemoveAll (scanAddAll mm' ns) ns.reverse).1) :
    drmMmHoleNodeStart mm (.block n) ≤ (scanAddAll mm' ns).scanHitStart ∨
      (scanAddAll mm' ns).scanHitEnd ≤ mm.nodeStart (.block n) := by
  induction ns generalizing mm' with
  | nil => simp at hn
  | cons m ns ih =>
    have hm := hs.mem m (by simp)
    have hadd := h.scanAdd hm
    rw [List.reverse_cons, scanRemoveAll_append, List.mem_append, not_or] at hrep
    rcases List.mem_cons.mp hn with rfl | hn
    · have hr := Restored.scanRemove h.linked hm (List.nodup_cons.mp hs.nodup).1
        (scan_restored hadd.linked hs.tail)
      generalize hA : (scanRemoveAll (scanAddAll mm' (n :: ns)) ns.reverse).2 = A at hrep
      have hhit := scanRemoveAll_hit (scanAddAll mm' (n :: ns)) ns.reverse
      rw [hA] at hhit
      change Restored (n :: ns) mm' (drmMmScanRemoveBlock
        (scanRemoveAll (scanAddAll mm' (n :: ns)) ns.reverse).2 (.block n)).2 at hr
      rw [hA] at hr
      have hno : (drmMmScanRemoveBlock A (.block n)).1 = false := by
        by_contra ht
        simp [scanRemoveAll, ht] at hrep
      have hend := h.end_le_holeEnd hI hm
      change (decide (A.scanHitStart < drmMmHoleNodeEnd (drmMmScanRemoveBlock A (.block n)).2
          (.block n)) && decide ((drmMmScanRemoveBlock A (.block n)).2.nodeStart (.block n) <
            A.scanHitEnd)) = false at hno
      rw [hr.holeNodeEnd, hr.nodeStart, h.nodeStart, Bool.and_eq_false_iff,
        decide_eq_false_iff_not, decide_eq_false_iff_not] at hno
      omega
    · exact ih hadd hs.tail hn hrep.1

/-! ### Evicting -/

theorem removeNode_color (hr : r ≠ x) : ((drmMmRemoveNode mm x).node r).color =
    (mm.node r).color ∧ ((drmMmRemoveNode mm x).node r).allocated = (mm.node r).allocated := by
  rw [removeNode_other hr]
  split <;> simp

/-- What evicting the blocks `ns` leaves. -/
structure Evicted (ns : List ℕ) (lo hi : ℕ) (mm mm' : DrmMm) : Prop where
  inv : Inv lo hi mm'
  mem : ∀ r, r ∈ mm'.nodeList ↔ r ∈ mm.nodeList ∧ ∀ n ∈ ns, r ≠ .block n
  colorAdjust : mm'.colorAdjust = mm.colorAdjust
  place : ∀ r, (mm'.node r).start = (mm.node r).start ∧ (mm'.node r).size = (mm.node r).size
  color : ∀ r ∈ mm'.nodeList, (mm'.node r).color = (mm.node r).color ∧
    (mm'.node r).allocated = (mm.node r).allocated

theorem evictAll_evicted (h : Inv lo hi mm) (hs : ScanList mm ns) :
    Evicted ns lo hi mm (evictAll mm ns) := by
  induction ns generalizing mm with
  | nil => exact ⟨h, by simp [evictAll], rfl, fun _ => ⟨rfl, rfl⟩, fun _ _ => ⟨rfl, rfl⟩⟩
  | cons n ns ih =>
    have hn := hs.mem n (by simp)
    obtain ⟨hnn, hns⟩ := List.nodup_cons.mp hs.nodup
    have htail : ScanList (drmMmRemoveNode mm (.block n)) ns := by
      refine ⟨hns, fun m hm => ?_⟩
      have hne : NodeRef.block m ≠ .block n := fun e => hnn (NodeRef.block.inj e ▸ hm)
      exact (mem_removeNode h.toLinked).mpr ⟨hne, hs.mem m (List.mem_cons_of_mem _ hm)⟩
    have hi := ih (h.removeNode hn) htail
    have hplace := removeNode_start_size mm (prevNode_ne h.toLinked hn)
    refine
      { inv := hi.inv
        mem := fun r => ?_
        colorAdjust := hi.colorAdjust.trans removeNode_colorAdjust
        place := fun r => ⟨(hi.place r).1.trans (hplace r).1, (hi.place r).2.trans (hplace r).2⟩
        color := fun r hr => ?_ }
    · have hm := hi.mem r
      rw [mem_removeNode h.toLinked] at hm
      simp only [List.mem_cons, forall_eq_or_imp] at hm ⊢
      tauto
    · have hne : r ≠ .block n := ((mem_removeNode h.toLinked).mp ((hi.mem r).mp hr).1).1
      exact ⟨(hi.color r hr).1.trans (removeNode_color hne).1,
        (hi.color r hr).2.trans (removeNode_color hne).2⟩

end DrmMm
end GfxDrm
