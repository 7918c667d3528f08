import GfxDrm.DrmMm.Evict

/-! A scan restores the manager, and evicting the reported blocks lets the request succeed. -/

namespace GfxDrm
open Circular Run

namespace DrmMm
variable {mm mm' A F U : DrmMm} {q : MmRequest} {n lo hi : ℕ} {ns : List ℕ} {p r : NodeRef}

/-! ### The last hit -/

theorem scanAddAll_append (mm : DrmMm) (l l' : List ℕ) :
    scanAddAll mm (l ++ l') = scanAddAll (scanAddAll mm l) l' := by
  induction l generalizing mm with
  | nil => rfl
  | cons n l ih => exact ih _

theorem exists_last_hit (hit : scanHit mm ns = true) : ∃ pre n post, ns = pre ++ n :: post ∧
    (drmMmScanAddBlock (scanAddAll mm pre) (.block n)).1 = true ∧
    scanHit (drmMmScanAddBlock (scanAddAll mm pre) (.block n)).2 post = false := by
  induction ns generalizing mm with
  | nil => simp [scanHit] at hit
  | cons m ns ih =>
    cases hrest : scanHit (drmMmScanAddBlock mm (.block m)).2 ns with
    | true =>
      obtain ⟨pre, n, post, rfl, hn, hpost⟩ := ih hrest
      exact ⟨m :: pre, n, post, rfl, hn, hpost⟩
    | false =>
      rw [scanHit, hrest, Bool.or_false] at hit
      exact ⟨[], m, ns, rfl, hit, hrest⟩

theorem cleanHits_drop {l l' : List ℕ} (h : CleanHits mm (l ++ l')) :
    CleanHits (scanAddAll mm l) l' := by
  induction l generalizing mm with
  | nil => exact h
  | cons n l ih => exact ih h.2

theorem Scans.scanAddAll (h : Scans q mm) (l : List ℕ) : Scans q (scanAddAll mm l) := by
  induction l generalizing mm with
  | nil => exact h
  | cons n l ih => exact ih (h.scanAdd _)

/-! ### The hole that is left -/

theorem Scanned.refl (h : Linked mm) : Scanned mm mm :=
  ⟨h, List.Sublist.refl _, rfl, fun _ => ⟨rfl, rfl, rfl, rfl⟩⟩

/-- No block of `F` but the head node reaches into `[s, e)`. -/
def FreeOf (F : DrmMm) (s e : ℕ) : Prop :=
  ∀ n, .block n ∈ F.nodeList → drmMmHoleNodeStart F (.block n) ≤ s ∨ e ≤ F.nodeStart (.block n)

theorem FreeOf.exists_hole (hF : Inv lo hi F) {s e : ℕ} (hfree : FreeOf F s e) (hs : lo ≤ s)
    (hse : s < e) (he : e ≤ hi) :
    ∃ r ∈ F.holeStack, drmMmHoleNodeStart F r ≤ s ∧ e ≤ drmMmHoleNodeEnd F r := by
  obtain ⟨l, hl⟩ := hF.head_first
  have hn := hF.nodup
  have ho := hF.ordered
  rw [hl] at hn ho
  have hblocks : ∀ a ∈ l, drmMmHoleNodeStart F a ≤ s ∨ e ≤ F.nodeStart a := by
    intro a ha
    cases a with
    | head => exact absurd ha (List.nodup_cons.mp hn).1
    | block n => exact hfree n (hl ▸ List.mem_cons_of_mem _ ha)
  obtain ⟨r, hr, hrs, hre⟩ := ho.exists_gap hn (hF.head_end ▸ hs) (hF.head_start ▸ he) hblocks
  have hrF : r ∈ F.nodeList := hl ▸ hr
  have hre : e ≤ drmMmHoleNodeEnd F r := by
    unfold drmMmHoleNodeEnd nextNode
    rwa [hl]
  refine ⟨r, (hF.mem_stack r).mpr ⟨hrF, (hF.hole_follows r hrF).mpr ?_⟩, hrs, hre⟩
  omega

/-- If the node `r'` starts where the free interval behind `r` ends, it comes next. -/
theorem FreeOf.nextNode_eq (hF : Inv lo hi F) {r' : NodeRef} (hr : r ∈ F.nodeList)
    (hr' : r' ∈ F.nodeList) (hlt : drmMmHoleNodeStart F r < F.nodeStart r')
    (hfree : FreeOf F (drmMmHoleNodeStart F r) (F.nodeStart r')) : F.nextNode r = r' := by
  have hmem := hF.next_mem r
  apply hF.start_inj hmem hr'
  apply le_antisymm
  · cases r' with
    | head => exact hF.head_start ▸ hF.start_le_hi hmem
    | block m =>
      have hm := (Scanned.refl hF.toLinked).gap_free hF hr hr'
      rw [hF.block_end hr'] at hm
      unfold nodeStart at hlt
      exact hm.resolve_left (by omega)
  · have ho : drmMmHoleNodeStart F r ≤ F.nodeStart (F.nextNode r) := hF.ordered r hr
    cases hc : F.nextNode r with
    | head => exact hF.head_start ▸ hF.start_le_hi hr'
    | block m =>
      rw [hc] at hmem ho
      have hm := hfree m hmem
      rw [hF.block_end hmem] at hm
      have hpos := hF.size_pos m hmem
      unfold nodeStart at ho hm ⊢
      omega

/-! ### The request fits -/

/-- What a callback may see of a hole. -/
structure SameHole (mm mm' : DrmMm) (r : NodeRef) : Prop where
  colorAdjust : mm'.colorAdjust = mm.colorAdjust
  start : drmMmHoleNodeStart mm' r = drmMmHoleNodeStart mm r
  nextNode : mm'.nextNode r = mm.nextNode r
  nextStart : mm'.nodeStart (mm.nextNode r) = mm.nodeStart (mm.nextNode r)
  color : (mm'.node r).color = (mm.node r).color
  nextColor : (mm'.node (mm.nextNode r)).color = (mm.node (mm.nextNode r)).color ∧
    (mm'.node (mm.nextNode r)).allocated = (mm.node (mm.nextNode r)).allocated

theorem SameHole.adjustedHole (h : SameHole mm mm' r)
    (hc : ∀ adjust ∈ mm.colorAdjust, ReadsColors adjust) (range : Option (ℕ × ℕ)) (color : ℕ) :
    adjustedHole mm' range color r = adjustedHole mm range color r := by
  have hend : drmMmHoleNodeEnd mm' r = drmMmHoleNodeEnd mm r := by
    unfold drmMmHoleNodeEnd
    rw [h.nextNode, h.nextStart]
  unfold GfxDrm.adjustedHole colorAdjusted
  rw [h.colorAdjust, h.start, hend, h.nextNode]
  cases ha : mm.colorAdjust with
  | none => rfl
  | some adjust =>
    apply hc adjust ha _ _ _ _ _ _ _ h.color
    split
    · rfl
    · simp only [Option.map_some, h.nextColor]

theorem holeFits_of_check (range : Option (ℕ × ℕ)) {size alignment color : ℕ}
    (hpos : mm.colorAdjust.isSome = true →
      (adjustedHole mm range color r).1 < (adjustedHole mm range color r).2)
    (hcheck : checkFreeHole (adjustedHole mm range color r).1 (adjustedHole mm range color r).2
      size alignment = true) : holeFits mm range size alignment color r = true := by
  unfold holeFits
  rw [if_neg]
  · exact hcheck
  · rw [Bool.and_eq_true, decide_eq_true_eq]
    rintro ⟨hs, hle⟩
    exact absurd (hpos hs) (by omega)

theorem insert_fst {k : ℕ} (hr : r ∈ mm.holeStack)
    (hf : holeFits mm q.range q.size q.alignment q.color r = true) : (q.insert mm k).1 = 0 := by
  have hsome : (q.search mm).isSome = true := searchHoles_isSome _ hr hf
  obtain ⟨r', hr'⟩ := Option.isSome_iff_exists.mp hsome
  rw [q.insert_eq, hr']

/-- A larger hole loses nothing to the range. -/
theorem clampRange_mono (range : Option (ℕ × ℕ)) {s e s' e' : ℕ} (hs : s' ≤ s) (he : e ≤ e') :
    (clampRange range (s', e')).1 ≤ (clampRange range (s, e)).1 ∧
      (clampRange range (s, e)).2 ≤ (clampRange range (s', e')).2 := by
  cases range with
  | none => exact ⟨hs, he⟩
  | some i =>
    simp only [clampRange]
    constructor <;> split <;> split <;> omega

/-! ### Assembly -/

/-- The last add that hit: it left the list of `U`, with a hole behind `p`. -/
structure LastHit (q : MmRequest) (mm U : DrmMm) (ns : List ℕ) (p : NodeRef) : Prop where
  scanned : Scanned mm U
  mem : p ∈ U.nodeList
  lt : drmMmHoleNodeStart mm p < drmMmHoleNodeEnd U p
  hit_start : (scanAddAll (q.startScan mm) ns).scanHitStart = drmMmHoleNodeStart mm p
  hit_end : (scanAddAll (q.startScan mm) ns).scanHitEnd = drmMmHoleNodeEnd U p
  unscanned : ∀ r ∈ mm.nodeList, (∀ m ∈ ns, r ≠ .block m) → r ∈ U.nodeList
  check : checkFreeHole (adjustedHole U q.range q.color p).1 (adjustedHole U q.range q.color p).2
    q.size q.alignment = true
  clean : match mm.colorAdjust with
    | none => (∀ r ∈ U.nodeList, ∀ m ∈ ns, r ≠ .block m) ∨
      (adjustedHole U q.range q.color p).1 ≤ (adjustedHole U q.range q.color p).2
    | some adjust => (∀ r ∈ U.nodeList, ∀ m ∈ ns, r ≠ .block m) ∧
      (adjustedHole U q.range q.color p).1 ≤ (adjustedHole U q.range q.color p).2 ∧
      ReadsColors adjust

theorem scanHole_eq (h : Scans q A) (n : ℕ) : scanHole A n =
    adjustedHole (drmMmScanAddBlock A (.block n)).2 q.range q.color (A.prevNode (.block n)) := by
  rw [← h.range, ← h.color]
  unfold scanHole drmMmScanAddBlock
  dsimp only
  split <;> rfl

theorem scanAdd_hit_eq (hit : (drmMmScanAddBlock A (.block n)).1 = true) :
    (drmMmScanAddBlock A (.block n)).2.scanHitStart =
        drmMmHoleNodeStart (drmMmScanAddBlock A (.block n)).2 (A.prevNode (.block n)) ∧
      (drmMmScanAddBlock A (.block n)).2.scanHitEnd =
        drmMmHoleNodeEnd (drmMmScanAddBlock A (.block n)).2 (A.prevNode (.block n)) := by
  obtain ⟨hs, he⟩ := scanAdd_hit hit
  have hnode : (drmMmScanAddBlock A (.block n)).2.node = (scanUnlink A (.block n)).node :=
    funext (scanAdd_node A _)
  constructor
  · rw [hs, drmMmHoleNodeStart, drmMmHoleNodeStart, hnode]
  · rw [he, drmMmHoleNodeEnd, drmMmHoleNodeEnd, nodeStart, nodeStart, nextNode, nextNode, hnode,
      scanAdd_nodeList]
    rfl

/-- The hole an added block leaves contains the block. -/
theorem Scanned.added_lt (hI : Inv lo hi mm) (h : Scanned mm A) (hn : .block n ∈ A.nodeList) :
    drmMmHoleNodeStart mm (A.prevNode (.block n)) <
      drmMmHoleNodeEnd (drmMmScanAddBlock A (.block n)).2 (A.prevNode (.block n)) := by
  have hnmm := h.sub.subset hn
  have hp := prevNode_mem_erase h.linked hn
  have h1 := h.end_le_holeEnd hI (List.mem_of_mem_erase hp)
  rw [drmMmHoleNodeEnd, h.nodeStart, nextNode_prevNode h.linked hn] at h1
  have h2 := h.end_le_holeEnd hI hn
  rw [hI.block_end hnmm, drmMmHoleNodeEnd, h.nodeStart] at h2
  have h3 := hI.size_pos n hnmm
  rw [drmMmHoleNodeEnd, (h.scanAdd hn).nodeStart, nextNode, scanAdd_nodeList,
    succ_erase_prevNode h.linked hn]
  have hst : mm.nodeStart (.block n) = (mm.node (.block n)).start := rfl
  omega

theorem exists_lastHit (hI : Inv lo hi mm) (hs : ScanList mm ns)
    (hit : scanHit (q.startScan mm) ns = true) (hclean : CleanHits (q.startScan mm) ns) :
    ∃ U p, LastHit q mm U ns p := by
  obtain ⟨pre, n, post, rfl, hn, hpost⟩ := exists_last_hit hit
  have h0 := Scanned.startScan hI.toLinked q
  have hs0 : ScanList (q.startScan mm) (pre ++ n :: post) :=
    ⟨hs.nodup, fun m hm => (Restored.startScan q mm).nodeList ▸ hs.mem m hm⟩
  obtain ⟨hpre, hrest, hdisj⟩ := List.nodup_append.mp hs.nodup
  have hA : Scanned mm (scanAddAll (q.startScan mm) pre) := h0.scanAddAll
    ⟨hpre, fun m hm => hs0.mem m (List.mem_append_left _ hm)⟩
  have hAmem : ∀ r, r ∈ (scanAddAll (q.startScan mm) pre).nodeList ↔
      r ∈ mm.nodeList ∧ ∀ m ∈ pre, r ≠ .block m := fun r => by
    rw [mem_scanAddAll h0.linked, (Restored.startScan q mm).nodeList]
  have hq := (scans_startScan q mm).scanAddAll pre
  have hc := (cleanHits_drop hclean).1 hn
  generalize hAe : scanAddAll (q.startScan mm) pre = A at *
  have hnA : .block n ∈ A.nodeList := (hAmem _).mpr ⟨hs.mem n (by simp), fun m hm e =>
    hdisj m hm n (by simp) (NodeRef.block.inj e).symm⟩
  have hU := hA.scanAdd hnA
  have hUmem : ∀ r, r ∈ (drmMmScanAddBlock A (.block n)).2.nodeList ↔
      r ≠ .block n ∧ r ∈ A.nodeList := fun r => by
    rw [scanAdd_nodeList, hA.linked.nodup.mem_erase_iff]
  have hhit := scanAddAll_noHit hpost
  have heq := scanAdd_hit_eq hn
  have hlast : post = [] → ∀ r ∈ (drmMmScanAddBlock A (.block n)).2.nodeList,
      ∀ m ∈ pre ++ n :: post, r ≠ .block m := by
    rintro rfl r hr m hm
    obtain ⟨hrn, hrA⟩ := (hUmem r).mp hr
    rcases List.mem_append.mp hm with hm | hm
    · exact ((hAmem r).mp hrA).2 m hm
    · rwa [List.mem_singleton.mp hm]
  refine ⟨(drmMmScanAddBlock A (.block n)).2, A.prevNode (.block n),
    { scanned := hU
      mem := by
        rw [scanAdd_nodeList]
        exact prevNode_mem_erase hA.linked hnA
      lt := hA.added_lt hI hnA
      hit_start := ?_
      hit_end := ?_
      unscanned := fun r hr hns => (hUmem r).mpr ⟨hns n (by simp), (hAmem r).mpr
        ⟨hr, fun m hm => hns m (List.mem_append_left _ hm)⟩⟩
      check := ?_
      clean := ?_ }⟩
  · rw [scanAddAll_append, hAe, scanAddAll, hhit.1, heq.1, hU.holeNodeStart]
  · rw [scanAddAll_append, hAe, scanAddAll, hhit.2, heq.2]
  · rw [scanAdd_fst, scanHole_eq hq, hq.size, hq.alignment] at hn
    exact hn
  · rw [scanHole_eq hq, hA.colorAdjust] at hc
    revert hc
    cases mm.colorAdjust with
    | none => exact fun hc => hc.imp_left hlast
    | some adjust => exact fun hc => ⟨hlast hc.1, hc.2⟩

/-- The manager after the scan and the evictions it asked for. -/
theorem scan_evicted (hI : Inv lo hi mm) (q : MmRequest) (hs : ScanList mm ns) :
    Evicted (scanAll mm q ns).1 lo hi (scanAll mm q ns).2
      (evictAll (scanAll mm q ns).2 (scanAll mm q ns).1) := by
  have hr := scanAll_restored hI.toShape q hs
  have hsub : (scanAll mm q ns).1.Sublist ns.reverse := scanRemoveAll_sublist _ _
  refine evictAll_evicted (hr.inv hI) ⟨hsub.nodup (List.nodup_reverse.mpr hs.nodup), ?_⟩
  exact fun n hn => hr.nodeList ▸ hs.mem n (List.mem_reverse.mp (hsub.subset hn))

namespace LastHit
variable (h : LastHit q mm U ns p)
include h

section evicted
variable (hI : Inv lo hi mm) (hs : ScanList mm ns) (hr : Restored ns mm (scanAll mm q ns).2)
  (hF : Evicted (scanAll mm q ns).1 lo hi (scanAll mm q ns).2 F)
include hI hs hr hF

omit h hI hs in
theorem evicted_nodeStart : F.nodeStart = mm.nodeStart :=
  (funext fun r => (hF.place r).1).trans hr.nodeStart

omit h hI hs in
theorem evicted_holeNodeStart : drmMmHoleNodeStart F = drmMmHoleNodeStart mm := by
  rw [← hr.holeNodeStart]
  funext r
  simp only [drmMmHoleNodeStart, hF.place r]

/-- Evicting the reported blocks empties the hit interval. -/
theorem freeOf : FreeOf F (drmMmHoleNodeStart mm p) (drmMmHoleNodeEnd U p) := by
  intro n hn
  obtain ⟨hmem, hE⟩ := (hF.mem _).mp hn
  rw [hr.nodeList] at hmem
  rw [evicted_nodeStart hr hF, evicted_holeNodeStart hr hF]
  by_cases hns : n ∈ ns
  · have h0 := Scanned.startScan hI.toLinked q
    have hs0 : ScanList (q.startScan mm) ns :=
      ⟨hs.nodup, fun m hm => (Restored.startScan q mm).nodeList ▸ hs.mem m hm⟩
    have hfree := free_of_not_reported hI h0 hs0 hns fun hm => hE n hm rfl
    rwa [h.hit_start, h.hit_end] at hfree
  · have hU : .block n ∈ U.nodeList := h.unscanned _ hmem fun m hm e =>
      hns (NodeRef.block.inj e ▸ hm)
    exact h.scanned.gap_free hI h.mem hU

/-- If the scan stopped at its hit, the hole it found is there again. -/
theorem sameHole (hlast : ∀ r ∈ U.nodeList, ∀ m ∈ ns, r ≠ .block m) :
    p ∈ F.holeStack ∧ SameHole U F p := by
  have hE : ∀ n ∈ (scanAll mm q ns).1, n ∈ ns := fun n hn =>
    List.mem_reverse.mp ((scanRemoveAll_sublist _ _).subset hn)
  have hmemF : ∀ r ∈ U.nodeList, r ∈ F.nodeList := fun r hrU =>
    (hF.mem r).mpr ⟨hr.nodeList ▸ h.scanned.sub.subset hrU, fun n hn => hlast r hrU n (hE n hn)⟩
  have hp := hmemF p h.mem
  have hnext := hmemF _ (h.scanned.linked.next_mem p)
  have hend : drmMmHoleNodeEnd U p = F.nodeStart (U.nextNode p) := by
    rw [drmMmHoleNodeEnd, h.scanned.nodeStart, evicted_nodeStart hr hF]
  have hfree := h.freeOf hI hs hr hF
  have hlt := h.lt
  rw [hend, ← evicted_holeNodeStart hr hF] at hlt hfree
  have heq := FreeOf.nextNode_eq hF.inv hp hnext hlt hfree
  have hcol : ∀ r ∈ F.nodeList, (F.node r).color = (U.node r).color ∧
      (F.node r).allocated = (U.node r).allocated := fun r hrF => by
    rw [(hF.color r hrF).1, (hF.color r hrF).2, (hr.fields r).2.1, (hr.fields r).2.2.1]
    exact ⟨(h.scanned.fields r).2.2.1.symm, (h.scanned.fields r).2.2.2.symm⟩
  refine ⟨(hF.inv.mem_stack p).mpr ⟨hp, (hF.inv.hole_follows p hp).mpr ?_⟩, ?_⟩
  · rwa [drmMmHoleNodeEnd, heq]
  · exact
      { colorAdjust := hF.colorAdjust.trans (hr.colorAdjust.trans h.scanned.colorAdjust.symm)
        start := by rw [evicted_holeNodeStart hr hF, h.scanned.holeNodeStart]
        nextNode := heq
        nextStart := by rw [evicted_nodeStart hr hF, h.scanned.nodeStart]
        color := (hcol p hp).1
        nextColor := hcol _ hnext }

/-- Some hole takes the request. -/
theorem exists_fit (hsize : 0 < q.size) : ∃ r ∈ F.holeStack,
    holeFits F q.range q.size q.alignment q.color r = true := by
  have hcF : F.colorAdjust = mm.colorAdjust := hF.colorAdjust.trans hr.colorAdjust
  have hclean := h.clean
  have hcheck := h.check
  cases hc : mm.colorAdjust with
  | some adjust =>
    rw [hc] at hclean
    obtain ⟨hlast, hle, hreads⟩ := hclean
    obtain ⟨hp, hsame⟩ := h.sameHole hI hs hr hF hlast
    have hadj := hsame.adjustedHole (fun f hf => by
      rw [h.scanned.colorAdjust, hc] at hf
      exact Option.some.inj hf ▸ hreads) q.range q.color
    refine ⟨p, hp, holeFits_of_check _ (fun _ => ?_) (hadj ▸ hcheck)⟩
    rw [hadj]
    refine lt_of_le_of_ne hle fun heq => ?_
    have hsub := (checkFreeHole_iff.mp hcheck).1
    rw [heq, Word.sub_self] at hsub
    omega
  | none =>
    rw [hc] at hclean
    rcases hclean with hlast | hle
    · obtain ⟨hp, hsame⟩ := h.sameHole hI hs hr hF hlast
      have hadj := hsame.adjustedHole (fun f hf => by
        rw [h.scanned.colorAdjust, hc] at hf
        simp at hf) q.range q.color
      refine ⟨p, hp, holeFits_of_check _ (fun hsome => ?_) (hadj ▸ hcheck)⟩
      simp [hcF, hc] at hsome
    · have hpmm := h.scanned.sub.subset h.mem
      have hend : drmMmHoleNodeEnd U p ≤ hi := by
        rw [drmMmHoleNodeEnd, h.scanned.nodeStart]
        exact hI.start_le_hi (h.scanned.sub.subset (h.scanned.linked.next_mem p))
      obtain ⟨r, hrF, hrs, hre⟩ := (h.freeOf hI hs hr hF).exists_hole hF.inv
        (hI.lo_le_end hpmm) h.lt hend
      have hU := adjustedHole_of_none (h.scanned.colorAdjust.trans hc) q.range q.color p
      have hFr := adjustedHole_of_none (hcF.trans hc) q.range q.color r
      rw [h.scanned.holeNodeStart] at hU
      rw [hU] at hcheck hle
      obtain ⟨h1, h2⟩ := clampRange_mono q.range hrs hre
      have hlt := ((clampRange_narrows q.range (drmMmHoleNodeStart F r)
        (drmMmHoleNodeEnd F r)).2.trans (hF.inv.holeEnd_le r)).trans_lt hI.hi_lt
      refine ⟨r, hrF, holeFits_of_check _ (fun hsome => ?_) ?_⟩
      · simp [hcF, hc] at hsome
      · rw [hFr]
        exact checkFreeHole_mono h1 hle h2 hlt hcheck

end evicted
end LastHit

end DrmMm
/-- One block of a page in `[0, 0x3000)`. -/
def oneBlock : DrmMm :=
  DrmMmOp.apply { drmMmInit 0 0x3000 with colorAdjust := none }
    (.createBlock (some 0) 0x1000 0x1000)

theorem oneBlock_reach (guard : DrmMm → DrmMmOp → Prop)
    (hg : ∀ mm kmalloc start size, guard mm (.createBlock kmalloc start size)) :
    ReachWhile (drmMmSystem 0 0x3000 none) guard oneBlock :=
  .step (a := .createBlock (some 0) 0x1000 0x1000) (.init rfl) (hg _ _ _ _)
    ⟨⟨by decide, by decide, by decide +kernel⟩, rfl⟩

/-- Three blocks of a page fill `[0, 0x3000)`. -/
def threeBlocks : DrmMm :=
  DrmMmOp.apply (DrmMmOp.apply (DrmMmOp.apply { drmMmInit 0 0x3000 with colorAdjust := none }
    (.createBlock (some 0) 0 0x1000)) (.createBlock (some 1) 0x1000 0x1000))
    (.createBlock (some 2) 0x2000 0x1000)

theorem threeBlocks_reach : Reach (drmMmSystem 0 0x3000 none) threeBlocks :=
  .step (a := .createBlock (some 2) 0x2000 0x1000)
    (.step (a := .createBlock (some 1) 0x1000 0x1000)
      (.step (a := .createBlock (some 0) 0 0x1000) (.init rfl) trivial
        ⟨⟨by decide, by decide, by decide +kernel⟩, rfl⟩) trivial
      ⟨⟨by decide, by decide, by decide +kernel⟩, rfl⟩) trivial
    ⟨⟨by decide, by decide, by decide +kernel⟩, rfl⟩

end GfxDrm
