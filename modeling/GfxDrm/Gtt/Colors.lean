import GfxDrm.Gtt.Defs

/-! Neighbours in a GTT without LLC have one colour. -/

namespace GfxDrm.Gtt
open Circular DrmMm

/-! ### The range manager -/

/-- Neighbours without a hole between them have one colour. -/
def Coloured (mm : DrmMm) : Prop :=
  ∀ m n, (mm.node (.block m)).allocated = true → (mm.node (.block n)).allocated = true →
    mm.nextNode (.block m) = .block n → (mm.node (.block m)).holeFollows = false →
      (mm.node (.block m)).color = (mm.node (.block n)).color

/-- No node begins inside the first page, and none is smaller than a page. -/
structure Paged (mm : DrmMm) : Prop where
  head : (mm.node .head).allocated = false
  start : ∀ n, .block n ∈ mm.nodeList →
    (mm.node (.block n)).start = 0 ∨ pageSize ≤ (mm.node (.block n)).start
  size : ∀ n, .block n ∈ mm.nodeList → pageSize ≤ (mm.node (.block n)).size

/-- What the driver asks the range manager for. -/
structure GttRequest (q : MmRequest) : Prop where
  page_le : pageSize ≤ q.size
  size_le : q.size ≤ 2 ^ 31
  alignment_lt : q.alignment < 2 ^ 32
  range : ∃ stop, q.range = some (0, stop) ∧ pageSize ≤ stop ∧ stop ≤ 2 ^ 31

theorem GttRequest.ok {q : MmRequest} (h : GttRequest q) : q.Ok := by
  obtain ⟨stop, hrange, -, hstop⟩ := h.range
  have hpage := h.page_le
  have hsize := h.size_le
  unfold pageSize at hpage
  refine ⟨by omega, by omega, h.alignment_lt, ?_⟩
  rw [hrange]
  rintro i ⟨⟩
  exact ⟨Nat.zero_le _, by omega⟩

section
variable {mm mm' : DrmMm} {q : MmRequest} {hi n st size : ℕ} {r : NodeRef} {tail llc : Bool}

/-- Everything about the range manager that the calls keep. -/
structure GttSpace (llc : Bool) (hi : ℕ) (mm : DrmMm) : Prop where
  inv : Inv 0 hi mm
  hi_le : hi ≤ 2 ^ 31
  adjust : mm.colorAdjust = if llc then none else some i915GttColorAdjust
  paged : Paged mm
  coloured : llc = false → Coloured mm

theorem Paged.holeStart (h : Paged mm) (hI : Inv 0 hi mm) (hr : r ∈ mm.nodeList) :
    drmMmHoleNodeStart mm r = 0 ∨ pageSize ≤ drmMmHoleNodeStart mm r := by
  cases r with
  | head => exact .inl hI.head_end
  | block n =>
    right
    rw [hI.block_end hr]
    exact (h.size n hr).trans (Nat.le_add_left _ _)

/-- A hole in front of a node ends behind the first page. -/
theorem Paged.holeEnd (h : Paged mm) (hI : Inv 0 hi mm) (hr : r ∈ mm.holeStack)
    (hn : mm.nextNode r = .block n) : pageSize ≤ drmMmHoleNodeEnd mm r := by
  obtain ⟨hmem, hf⟩ := (hI.mem_stack r).mp hr
  have hlt := (hI.hole_follows r hmem).mp hf
  have hnext := hI.next_mem r
  unfold drmMmHoleNodeEnd nodeStart at hlt ⊢
  rw [hn] at hlt hnext ⊢
  rcases h.start n hnext with h0 | hle
  · rw [h0] at hlt
    exact absurd hlt (Nat.not_lt_zero _)
  · exact hle

theorem adjustedHole_fst (hadj : mm.colorAdjust = some i915GttColorAdjust) (stop color : ℕ) :
    (adjustedHole mm (some (0, stop)) color r).1 =
      if (mm.node r).color ≠ color then Word.add 64 (drmMmHoleNodeStart mm r) 4096
      else drmMmHoleNodeStart mm r := by
  simp [adjustedHole, colorAdjusted, hadj, i915GttColorAdjust, clampRange]

theorem adjustedHole_snd (hadj : mm.colorAdjust = some i915GttColorAdjust) (stop color : ℕ) :
    (adjustedHole mm (some (0, stop)) color r).2 =
      if mm.nextNode r ≠ r ∧ (mm.node (mm.nextNode r)).allocated = true ∧
          (mm.node (mm.nextNode r)).color ≠ color then
        Word.sub 64 (min stop (drmMmHoleNodeEnd mm r)) 4096
      else min stop (drmMmHoleNodeEnd mm r) := by
  have hclamp : (clampRange (some (0, stop)) (drmMmHoleNodeStart mm r, drmMmHoleNodeEnd mm r)).2 =
      min stop (drmMmHoleNodeEnd mm r) := by
    simp only [clampRange]
    split <;> omega
  unfold adjustedHole colorAdjusted
  simp only [hadj, i915GttColorAdjust, hclamp]
  by_cases hr : mm.nextNode r = r
  · simp [hr]
  · simp [hr]

/-- The part of a hole that a colour may use. -/
structure Adjusted (llc : Bool) (mm : DrmMm) (color : ℕ) (r : NodeRef) (i : ℕ × ℕ) : Prop where
  start : i.1 = drmMmHoleNodeStart mm r ∨ i.1 = drmMmHoleNodeStart mm r + pageSize
  start_of_ne : llc = false → (mm.node r).color ≠ color →
    i.1 = drmMmHoleNodeStart mm r + pageSize
  stop : i.2 ≤ drmMmHoleNodeEnd mm r
  stop_of_ne : llc = false → ∀ n, mm.nextNode r = .block n → (mm.node (.block n)).color ≠ color →
    i.2 + pageSize ≤ drmMmHoleNodeEnd mm r

/-- The node behind a hole is not the one in front of it. -/
theorem next_ne_of_hole (hI : Inv 0 hi mm) (hr : r ∈ mm.holeStack) (hn : mm.nextNode r = .block n) :
    mm.nextNode r ≠ r := by
  intro hself
  obtain ⟨hmem, hf⟩ := (hI.mem_stack r).mp hr
  have hlt := (hI.hole_follows r hmem).mp hf
  have hin : NodeRef.block n ∈ mm.nodeList := hn ▸ hI.next_mem r
  unfold drmMmHoleNodeEnd at hlt
  rw [hself] at hlt hn
  rw [hn, hI.block_end hin] at hlt
  unfold nodeStart at hlt
  omega

theorem adjusted_of_colorAdjust (hI : Inv 0 hi mm) (hhi : hi ≤ 2 ^ 31) (hp : Paged mm)
    (hadj : mm.colorAdjust = some i915GttColorAdjust) (hr : r ∈ mm.holeStack) {stop : ℕ}
    (hstop : pageSize ≤ stop) (color : ℕ) :
    Adjusted llc mm color r (adjustedHole mm (some (0, stop)) color r) := by
  obtain ⟨hmem, -⟩ := (hI.mem_stack r).mp hr
  have hs := hI.end_le hmem
  have he := hI.holeEnd_le r
  have hadd : Word.add 64 (drmMmHoleNodeStart mm r) 4096 = drmMmHoleNodeStart mm r + pageSize :=
    Word.add_of_lt (by omega)
  have hnotHead : (mm.node (mm.nextNode r)).allocated = true → ∃ n, mm.nextNode r = .block n := by
    intro halloc
    cases hnext : mm.nextNode r with
    | head => simp [hnext, hp.head] at halloc
    | block n => exact ⟨n, rfl⟩
  have hsub : (∃ n, mm.nextNode r = .block n) →
      Word.sub 64 (min stop (drmMmHoleNodeEnd mm r)) 4096 =
        min stop (drmMmHoleNodeEnd mm r) - pageSize ∧
      pageSize ≤ min stop (drmMmHoleNodeEnd mm r) := by
    rintro ⟨n, hn⟩
    have hpage : pageSize ≤ min stop (drmMmHoleNodeEnd mm r) :=
      le_min hstop (hp.holeEnd hI hr hn)
    exact ⟨Word.sub_of_le hpage (by omega), hpage⟩
  refine ⟨?_, fun _ hne => ?_, ?_, fun _ n hn hne => ?_⟩
  · rw [adjustedHole_fst hadj]
    split
    · exact .inr hadd
    · exact .inl rfl
  · rw [adjustedHole_fst hadj, if_pos hne, hadd]
  · rw [adjustedHole_snd hadj]
    split
    · rename_i hnext
      rw [(hsub (hnotHead hnext.2.1)).1]
      exact (Nat.sub_le _ _).trans (min_le_right _ _)
    · exact min_le_right _ _
  · have hself := next_ne_of_hole hI hr hn
    obtain ⟨hsub, hpage⟩ := hsub ⟨n, hn⟩
    have halloc := (hI.allocated n).mpr (hn ▸ hI.next_mem r)
    rw [adjustedHole_snd hadj, if_pos (hn ▸ ⟨hn ▸ hself, halloc, hne⟩), hsub,
      Nat.sub_add_cancel hpage]
    exact min_le_right _ _

theorem GttSpace.adjusted (h : GttSpace llc hi mm) (hr : r ∈ mm.holeStack) {stop : ℕ}
    (hstop : pageSize ≤ stop) (color : ℕ) :
    Adjusted llc mm color r (adjustedHole mm (some (0, stop)) color r) := by
  have hadj := h.adjust
  cases llc with
  | false => exact adjusted_of_colorAdjust h.inv h.hi_le h.paged hadj hr hstop color
  | true =>
    rw [adjustedHole_of_none hadj]
    obtain ⟨hs, he⟩ := clampRange_narrows (some (0, stop)) (drmMmHoleNodeStart mm r)
      (drmMmHoleNodeEnd mm r)
    exact ⟨.inl (by simp [clampRange]), nofun, he, nofun⟩

/-- No insertion wraps. -/
theorem GttSpace.unwrapped (h : GttSpace llc hi mm) (hq : GttRequest q) : q.Unwrapped mm := by
  intro r hr
  obtain ⟨stop, hrange, hstop, -⟩ := hq.range
  have hr' := (mem_of_search hr).1
  have hadj := h.adjusted hr' hstop q.color
  rw [hrange]
  intro i
  have hs := h.inv.end_le ((h.inv.mem_stack r).mp hr').1
  have hhi := h.hi_le
  have hsize := hq.size_le
  have halign := hq.alignment_lt
  have hpad : alignPad i.1 q.alignment ≤ q.alignment := by
    unfold alignPad
    split
    · exact Nat.zero_le _
    · split <;> omega
  have hi1 : i.1 ≤ drmMmHoleNodeStart mm r + pageSize := by
    rcases hadj.start with he | he
    · exact he.le.trans (Nat.le_add_right _ _)
    · exact he.le
  constructor
  · unfold roundUp pageSize at *
    omega
  · intro _
    refine ⟨?_, hadj.stop⟩
    rcases hadj.start with he | he
    · exact he.ge
    · exact (Nat.le_add_right _ _).trans he.ge

theorem roundUp_zero (alignment : ℕ) : roundUp 0 alignment = 0 := by
  simp [roundUp, alignPad]

/-! ### What the calls do to the colours -/

/-- A node put into a hole away from other colours. -/
theorem Coloured.linkNode {color : ℕ} (hc : Coloured mm) (h : Shape mm)
    (f : TakesHole mm r (.block n))
    (hprev : st = drmMmHoleNodeStart mm r → (mm.node r).allocated = true →
      (mm.node r).color = color)
    (hnext : tail = false → ∀ m, mm.nextNode r = .block m → (mm.node (.block m)).color = color) :
    Coloured (linkNode mm r (.block n) st size (some color) tail) := by
  intro a b ha hb hab hhole
  have hbn : mm.nextNode r ≠ .block n := fun e => f.new (e ▸ h.next_mem r)
  have hsucc : ∀ y, (DrmMm.nextNode (GfxDrm.linkNode mm r (.block n) st size (some color) tail) y) =
      succ .head y (insertAfter r (.block n) mm.nodeList) := by
    intro y
    rw [nextNode, linkNode_nodeList]
  rw [hsucc] at hab
  by_cases han : NodeRef.block a = .block n
  · -- the new node and the one behind the hole
    rw [han, succ_insertAfter_new h.nodup f.mem f.new] at hab
    have hb' : NodeRef.block b ≠ .block n := fun e => hbn (hab.trans e)
    rw [han, linkNode_new f.ne] at hhole
    rw [han, linkNode_new f.ne, linkNode_old hb']
    have hcol := hnext hhole b hab
    split
    · rename_i hused
      simpa [← hused.1] using hcol.symm
    · exact hcol.symm
  · rw [linkNode_old han] at ha hhole ⊢
    by_cases har : NodeRef.block a = r
    · -- the node in front of the hole and the new one
      rw [har, succ_insertAfter_self h.nodup f.mem] at hab
      rw [← hab, linkNode_new f.ne]
      by_cases hst : st = drmMmHoleNodeStart mm r
      · rw [if_pos ⟨har, hst⟩] at ha ⊢
        exact hprev hst ha
      · rw [if_neg fun hu => hst hu.2, har, f.follows] at hhole
        cases hhole
    · rw [if_neg fun hu => har hu.1] at ha hhole ⊢
      rw [succ_insertAfter_of_ne har han] at hab
      have hb' : NodeRef.block b ≠ .block n := fun e => f.new (e ▸ hab ▸ h.next_mem _)
      rw [(linkNode_start_size hb').2.2] at hb
      rw [linkNode_old hb']
      have hold := hc a b ha hb hab hhole
      split
      · rename_i hused
        rw [hold, hused.1]
      · exact hold

theorem Coloured.removeNode (hc : Coloured mm) (h : Shape mm) (hn : .block n ∈ mm.nodeList) :
    Coloured (drmMmRemoveNode mm (.block n)) := by
  intro a b ha hb hab hhole
  have hpn := prevNode_ne h.toLinked hn
  have hne : ∀ {a : ℕ}, ((drmMmRemoveNode mm (.block n)).node (.block a)).allocated = true →
      NodeRef.block a ≠ .block n := by
    rintro a ha e
    rw [e, removeNode_self hpn] at ha
    cases ha
  have han := hne ha
  have hbn := hne hb
  rw [removeNode_other han] at ha hhole
  by_cases hap : NodeRef.block a = mm.prevNode (.block n)
  · rw [if_pos hap] at hhole
    cases hhole
  · rw [if_neg hap] at ha hhole
    have hcolor : ∀ y, y ≠ NodeRef.block n →
        ((drmMmRemoveNode mm (.block n)).node y).color = (mm.node y).color ∧
          ((drmMmRemoveNode mm (.block n)).node y).allocated = (mm.node y).allocated := by
      intro y hy
      rw [removeNode_other hy]
      split <;> exact ⟨rfl, rfl⟩
    rw [nextNode, removeNode_nodeList, succ_erase_other h.toLinked hn han hap] at hab
    rw [(hcolor _ hbn).2] at hb
    rw [(hcolor _ han).1, (hcolor _ hbn).1]
    exact hc a b ha hb hab hhole

theorem Coloured.restored {ns : List ℕ} (hr : Restored ns mm mm') (hc : Coloured mm) :
    Coloured mm' := by
  intro a b ha hb hab hhole
  rw [(hr.fields _).2.1] at ha hb
  rw [(hr.fields _).1] at hhole
  rw [(hr.fields _).2.2.1, (hr.fields _).2.2.1]
  rw [nextNode, hr.nodeList] at hab
  exact hc a b ha hb hab hhole

/-- A node may take the colour of the neighbours it touches. -/
theorem Coloured.setColor {color : ℕ} (hc : Coloured mm)
    (hprev : ∀ m, mm.nextNode (.block m) = .block n → (mm.node (.block m)).allocated = true →
      (mm.node (.block m)).holeFollows = false → (mm.node (.block m)).color = color)
    (hnext : ∀ m, mm.nextNode (.block n) = .block m → (mm.node (.block m)).allocated = true →
      (mm.node (.block n)).holeFollows = false → (mm.node (.block m)).color = color) :
    Coloured (mm.setNode (.block n) fun x => { x with color := color }) := by
  intro a b ha hb hab hhole
  have hother : ∀ y, y ≠ NodeRef.block n →
      (mm.setNode (.block n) fun x => { x with color := color }).node y = mm.node y :=
    fun y hy => setNode_node_of_ne hy
  by_cases han : NodeRef.block a = .block n
  · rw [han] at ha hhole hab ⊢
    rw [setNode_node_self] at hhole ⊢
    by_cases hbn : NodeRef.block b = .block n
    · rw [hbn, setNode_node_self]
    · rw [hother _ hbn] at hb ⊢
      exact (hnext b hab hb hhole).symm
  · rw [hother _ han] at ha hhole ⊢
    by_cases hbn : NodeRef.block b = .block n
    · rw [hbn, setNode_node_self]
      exact hprev a (hab.trans hbn) ha hhole
    · rw [hother _ hbn] at hb ⊢
      exact hc a b ha hb hab hhole

/-! ### What the calls do to the range manager -/

theorem Paged.of_same (h : Paged mm)
    (hlist : ∀ n, .block n ∈ mm'.nodeList → .block n ∈ mm.nodeList)
    (hnode : ∀ r, (mm'.node r).start = (mm.node r).start ∧ (mm'.node r).size = (mm.node r).size)
    (hhead : (mm'.node .head).allocated = (mm.node .head).allocated) : Paged mm' where
  head := hhead ▸ h.head
  start n hn := (hnode (.block n)).1 ▸ h.start n (hlist n hn)
  size n hn := (hnode (.block n)).2 ▸ h.size n (hlist n hn)

theorem GttSpace.removeNode (h : GttSpace llc hi mm) (hn : .block n ∈ mm.nodeList) :
    GttSpace llc hi (drmMmRemoveNode mm (.block n)) where
  inv := h.inv.removeNode hn
  hi_le := h.hi_le
  adjust := removeNode_colorAdjust.trans h.adjust
  paged := by
    have hpn := prevNode_ne h.inv.toLinked hn
    refine h.paged.of_same (fun m hm => ((mem_removeNode h.inv.toLinked).mp hm).2)
      (removeNode_start_size mm hpn) ?_
    rw [removeNode_other (by simp)]
    split <;> rfl
  coloured hl := (h.coloured hl).removeNode h.inv.toShape hn

theorem GttSpace.of_sameLayout (hr : SameLayout mm mm') (h : GttSpace llc hi mm)
    (hadj : mm'.colorAdjust = mm.colorAdjust) (hc : llc = false → Coloured mm') :
    GttSpace llc hi mm' where
  inv := hr.inv h.inv
  hi_le := h.hi_le
  adjust := hadj.trans h.adjust
  paged := h.paged.of_same (fun _ hn => hr.nodeList ▸ hn) (fun r => (hr.fields r).2.2)
    (hr.fields _).2.1
  coloured := hc

theorem GttSpace.restored {ns : List ℕ} (hr : Restored ns mm mm') (h : GttSpace llc hi mm) :
    GttSpace llc hi mm' :=
  h.of_sameLayout hr.sameLayout hr.colorAdjust fun hl => (h.coloured hl).restored hr

theorem sameLayout_setColor (mm : DrmMm) (n color : ℕ) :
    SameLayout mm (mm.setNode (.block n) fun x => { x with color := color }) := by
  refine ⟨rfl, rfl, fun r => ?_⟩
  rw [setNode_node]
  split
  · rename_i hr
    rw [hr]
    exact ⟨rfl, rfl, rfl, rfl⟩
  · exact ⟨rfl, rfl, rfl, rfl⟩

/-- What a successful insertion gives the new node. -/
structure Inserted (q : MmRequest) (n : ℕ) (mm : DrmMm) : Prop where
  allocated : (mm.node (.block n)).allocated = true
  color : (mm.node (.block n)).color = q.color
  size : (mm.node (.block n)).size = q.size

theorem GttSpace.insert (h : GttSpace llc hi mm) (hq : GttRequest q)
    (hn : (mm.node (.block n)).allocated = false) :
    GttSpace llc hi (q.insert mm n).2 ∧
      ((q.insert mm n).1 = 0 ∧ Inserted q n (q.insert mm n).2 ∨
        (q.insert mm n).1 = Errno.eNospc ∧ (q.insert mm n).2 = mm) ∧
      ∀ m, m ≠ n → ((q.insert mm n).2.node (.block m)).color = (mm.node (.block m)).color ∧
        ((q.insert mm n).2.node (.block m)).start = (mm.node (.block m)).start ∧
        ((q.insert mm n).2.node (.block m)).size = (mm.node (.block m)).size ∧
        ((q.insert mm n).2.node (.block m)).allocated = (mm.node (.block m)).allocated := by
  rw [q.insert_eq]
  cases hr : q.search mm with
  | none => exact ⟨h, .inr ⟨rfl, rfl⟩, fun m _ => ⟨rfl, rfl, rfl, rfl⟩⟩
  | some r =>
    obtain ⟨he, hf⟩ := insert_fitsHole h.inv hq.ok (h.unwrapped hq) hr hn
    obtain ⟨hmem, hfit⟩ := mem_of_search hr
    obtain ⟨stop, hrange, hstop, -⟩ := hq.range
    have hadj := h.adjusted hmem hstop q.color
    have hwrap := (h.unwrapped hq r hr).1
    have hin := le_of_checkFreeHole (checkFreeHole_of_holeFits hfit) hwrap
    dsimp only
    rw [he]
    rw [hrange] at hf hin ⊢
    generalize hi' : adjustedHole mm (some (0, stop)) q.color r = i at hf hin hadj
    refine ⟨⟨h.inv.linkNode hf _, h.hi_le, linkNode_colorAdjust.trans h.adjust, ?_, fun hl => ?_⟩,
      .inl ⟨rfl, ?_⟩, fun m hm => ?_⟩
    · have hnew : ∀ m, NodeRef.block m ∈ insertAfter r (.block n) mm.nodeList →
          NodeRef.block m = .block n ∨ NodeRef.block m ∈ mm.nodeList :=
        fun m hm => (mem_insertAfter hf.mem).mp hm
      refine ⟨?_, fun m hm => ?_, fun m hm => ?_⟩
      · rw [(linkNode_start_size (by simp)).2.2]
        exact h.paged.head
      · rw [linkNode_nodeList] at hm
        by_cases hmn : NodeRef.block m = .block n
        · rw [hmn, linkNode_new hf.ne]
          have hs := h.paged.holeStart h.inv hf.mem
          rcases hadj.start with hi1 | hi1
          · rcases hs with h0 | hle
            · left
              rw [hi1, h0, roundUp_zero]
            · right
              rw [hi1]
              exact hle.trans (le_roundUp _ _)
          · right
            rw [hi1]
            exact (Nat.le_add_left _ _).trans (le_roundUp _ _)
        · rw [(linkNode_start_size hmn).1]
          exact h.paged.start m ((hnew m hm).resolve_left hmn)
      · rw [linkNode_nodeList] at hm
        by_cases hmn : NodeRef.block m = .block n
        · rw [hmn, linkNode_new hf.ne]
          exact hq.page_le
        · rw [(linkNode_start_size hmn).2.1]
          exact h.paged.size m ((hnew m hm).resolve_left hmn)
    · refine (h.coloured hl).linkNode h.inv.toShape hf.toTakesHole (fun hst _ => ?_)
        fun htail m hm => ?_
      · by_contra hne
        have hle := le_roundUp i.1 q.alignment
        rw [hst, hadj.start_of_ne hl hne] at hle
        unfold pageSize at hle
        omega
      · by_contra hne
        have hle := hadj.stop_of_ne hl m hm hne
        have htail' := hf.tail_iff
        rw [htail] at htail'
        unfold pageSize at hle
        have hnot : ¬ roundUp i.1 q.alignment + q.size < drmMmHoleNodeEnd mm r := by
          simpa using htail'
        omega
    · exact ⟨by rw [linkNode_new hf.ne], by rw [linkNode_new hf.ne]; rfl, by rw [linkNode_new hf.ne]⟩
    · have hmn : NodeRef.block m ≠ .block n := by simpa using hm
      refine ⟨?_, linkNode_start_size hmn⟩
      rw [linkNode_old hmn]
      split
      · rename_i hused
        rw [hused.1]
      · rfl

end

end GfxDrm.Gtt
