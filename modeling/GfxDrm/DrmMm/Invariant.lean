import GfxDrm.DrmMm.Defs
import GfxDrm.Lib.Layout

/-! The range manager invariant and what each mutator does to it. -/

namespace GfxDrm
open Circular

namespace DrmMm
variable {mm : DrmMm} {r r' x : NodeRef} {f : DrmMmNode → DrmMmNode}

@[simp] theorem setNode_node_self : (mm.setNode r f).node r = f (mm.node r) := by
  simp [setNode]

theorem setNode_node_of_ne (h : r' ≠ r) : (mm.setNode r f).node r' = mm.node r' := by
  simp [setNode, Function.update_of_ne h]

theorem setNode_node (r' : NodeRef) :
    (mm.setNode r f).node r' = if r' = r then f (mm.node r) else mm.node r' := by
  split
  · subst r'; simp
  · exact setNode_node_of_ne ‹_›

/-- `node_list` is a circle through the head node. -/
structure Linked (mm : DrmMm) : Prop where
  head_first : ∃ l, mm.nodeList = .head :: l
  nodup : mm.nodeList.Nodup

/-- Lists and flags agree, whatever the addresses are. -/
structure Shape (mm : DrmMm) : Prop extends Linked mm where
  allocated : ∀ n, (mm.node (.block n)).allocated = true ↔ .block n ∈ mm.nodeList
  stack_nodup : mm.holeStack.Nodup
  mem_stack : ∀ r, r ∈ mm.holeStack ↔ r ∈ mm.nodeList ∧ (mm.node r).holeFollows = true

/-- What holds of a manager of `[lo, hi)` between calls. -/
structure Inv (lo hi : ℕ) (mm : DrmMm) : Prop extends Shape mm where
  hi_lt : hi < 2 ^ 64
  head_start : mm.nodeStart .head = hi
  head_end : drmMmHoleNodeStart mm .head = lo
  size_pos : ∀ n, .block n ∈ mm.nodeList → 0 < (mm.node (.block n)).size
  no_wrap : ∀ n, .block n ∈ mm.nodeList →
    (mm.node (.block n)).start + (mm.node (.block n)).size < 2 ^ 64
  ordered : Layout.Ordered mm.nodeStart (drmMmHoleNodeStart mm) .head mm.nodeList
  hole_follows : ∀ r ∈ mm.nodeList, ((mm.node r).holeFollows = true ↔
    drmMmHoleNodeStart mm r < drmMmHoleNodeEnd mm r)

theorem Linked.head_mem (h : Linked mm) : .head ∈ mm.nodeList := by
  obtain ⟨l, hl⟩ := h.head_first
  simp [hl]

theorem Linked.next_mem (h : Linked mm) (r : NodeRef) : mm.nextNode r ∈ mm.nodeList := by
  rcases List.mem_cons.mp (succ_mem_cons (h := NodeRef.head) (L := mm.nodeList) r) with e | e
  · exact (show mm.nextNode r = .head from e) ▸ h.head_mem
  · exact e

namespace Inv
variable {lo hi : ℕ}

theorem block_end (h : Inv lo hi mm) {n : ℕ} (hn : .block n ∈ mm.nodeList) :
    drmMmHoleNodeStart mm (.block n) = (mm.node (.block n)).start + (mm.node (.block n)).size :=
  Word.add_of_lt (h.no_wrap n hn)

theorem start_le_end (h : Inv lo hi mm) {l : List NodeRef} (hl : mm.nodeList = .head :: l) :
    ∀ r ∈ l, mm.nodeStart r ≤ drmMmHoleNodeStart mm r := by
  intro r hr
  cases r with
  | head => exact absurd hr (List.nodup_cons.mp (hl ▸ h.nodup)).1
  | block n =>
    rw [h.block_end (hl ▸ List.mem_cons_of_mem _ hr)]
    exact Nat.le_add_right _ _

/-- The nodes come in address order. -/
theorem pairwise (h : Inv lo hi mm) :
    mm.nodeList.Pairwise fun a b => drmMmHoleNodeStart mm a ≤ mm.nodeStart b := by
  obtain ⟨l, hl⟩ := h.head_first
  have hn := h.nodup
  have ho := h.ordered
  rw [hl] at hn ho ⊢
  exact ho.pairwise hn (h.start_le_end hl)

theorem end_le (h : Inv lo hi mm) (hr : r ∈ mm.nodeList) : drmMmHoleNodeStart mm r ≤ hi := by
  obtain ⟨l, hl⟩ := h.head_first
  have hn := h.nodup
  have ho := h.ordered
  rw [hl] at hn ho hr
  exact h.head_start ▸ ho.le_sentinel hn (h.start_le_end hl) hr

theorem le_start (h : Inv lo hi mm) {n : ℕ} (hn : .block n ∈ mm.nodeList) :
    lo ≤ (mm.node (.block n)).start := by
  obtain ⟨l, hl⟩ := h.head_first
  have hp := h.pairwise
  rw [hl] at hp hn
  have hmem : .block n ∈ l := (List.mem_cons.mp hn).resolve_left (by simp)
  exact h.head_end ▸ (List.pairwise_cons.mp hp).1 _ hmem

theorem holeEnd_le (h : Inv lo hi mm) (r : NodeRef) : drmMmHoleNodeEnd mm r ≤ hi := by
  have hm := h.next_mem r
  show mm.nodeStart (mm.nextNode r) ≤ hi
  cases hr : mm.nextNode r with
  | head => exact h.head_start.le
  | block n =>
    rw [hr] at hm
    have := h.end_le hm
    rw [h.block_end hm] at this
    exact (Nat.le_add_right _ _).trans this

theorem disjoint (h : Inv lo hi mm) {m n : ℕ} (hm : .block m ∈ mm.nodeList)
    (hn : .block n ∈ mm.nodeList) (hmn : m ≠ n) :
    drmMmHoleNodeStart mm (.block m) ≤ mm.nodeStart (.block n) ∨
      drmMmHoleNodeStart mm (.block n) ≤ mm.nodeStart (.block m) := by
  have : Std.Symm fun a b =>
      drmMmHoleNodeStart mm a ≤ mm.nodeStart b ∨ drmMmHoleNodeStart mm b ≤ mm.nodeStart a :=
    ⟨fun _ _ => Or.symm⟩
  have hpairs : mm.nodeList.Pairwise fun a b =>
      drmMmHoleNodeStart mm a ≤ mm.nodeStart b ∨ drmMmHoleNodeStart mm b ≤ mm.nodeStart a :=
    h.pairwise.imp .inl
  exact hpairs.forall hm hn (by simpa using hmn)

theorem lo_le_end (h : Inv lo hi mm) (hr : r ∈ mm.nodeList) : lo ≤ drmMmHoleNodeStart mm r := by
  cases r with
  | head => exact h.head_end.ge
  | block n =>
    rw [h.block_end hr]
    exact (h.le_start hr).trans (Nat.le_add_right _ _)

theorem start_lt_hi (h : Inv lo hi mm) {n : ℕ} (hn : .block n ∈ mm.nodeList) :
    mm.nodeStart (.block n) < hi := by
  have hend := h.end_le hn
  have hpos := h.size_pos n hn
  rw [h.block_end hn] at hend
  unfold nodeStart
  omega

theorem start_le_hi (h : Inv lo hi mm) (hr : r ∈ mm.nodeList) : mm.nodeStart r ≤ hi := by
  cases r with
  | head => exact h.head_start.le
  | block n => exact (h.start_lt_hi hr).le

/-- Listed nodes start at different addresses. -/
theorem start_inj (h : Inv lo hi mm) (hr : r ∈ mm.nodeList) (hr' : r' ∈ mm.nodeList)
    (he : mm.nodeStart r = mm.nodeStart r') : r = r' := by
  cases r with
  | head =>
    cases r' with
    | head => rfl
    | block n => exact absurd (he ▸ h.start_lt_hi hr') (h.head_start ▸ lt_irrefl _)
  | block m =>
    cases r' with
    | head => exact absurd (he.symm ▸ h.start_lt_hi hr) (h.head_start ▸ lt_irrefl _)
    | block n =>
      by_contra hne
      have hd := h.disjoint hr hr' (fun e => hne (e ▸ rfl))
      have hm := h.size_pos m hr
      have hn := h.size_pos n hr'
      rw [h.block_end hr, h.block_end hr'] at hd
      unfold nodeStart at he hd
      omega

end Inv

/-! ### Starting up -/

theorem init_inv {start size : ℕ} (hsize : 0 < size) (hwrap : start + size < 2 ^ 64)
    (adjust : Option ColorAdjust) :
    Inv start (start + size) { drmMmInit start size with colorAdjust := adjust } := by
  have hadd : Word.add 64 start size = start + size := Word.add_of_lt hwrap
  have hend : Word.add 64 (start + size) (Word.sub 64 start (start + size)) = start :=
    Word.add_sub_cancel (Nat.le_add_right _ _) hwrap
  have hstart : (drmMmInit start size).nodeStart .head = start + size := by
    simp [nodeStart, drmMmInit, hadd]
  have hhead : drmMmHoleNodeStart (drmMmInit start size) .head = start := by
    simp [drmMmHoleNodeStart, drmMmInit, hadd, hend]
  refine
    { head_first := ⟨[], rfl⟩
      nodup := by simp [drmMmInit]
      hi_lt := hwrap
      head_start := hstart
      head_end := hhead
      allocated := by simp [drmMmInit]
      size_pos := by simp [drmMmInit]
      no_wrap := by simp [drmMmInit]
      ordered := ?_
      hole_follows := ?_
      stack_nodup := by simp [drmMmInit]
      mem_stack := by simp +contextual [drmMmInit] }
  · intro a ha
    obtain rfl : a = .head := by simpa [drmMmInit] using ha
    show drmMmHoleNodeStart (drmMmInit start size) .head ≤
      (drmMmInit start size).nodeStart (succ .head .head [.head])
    rw [succ_cons_self, List.headD_nil]
    omega
  · intro a ha
    obtain rfl : a = .head := by simpa [drmMmInit] using ha
    show _ ↔ drmMmHoleNodeStart (drmMmInit start size) .head <
      (drmMmInit start size).nodeStart (succ .head .head [.head])
    rw [succ_cons_self, List.headD_nil, hhead, hstart]
    simp [drmMmInit, hsize]

end DrmMm
end GfxDrm
