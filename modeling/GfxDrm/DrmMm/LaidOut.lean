import GfxDrm.DrmMm.Runs

/-! The layout a reader of the manager sees, read off the invariant. -/

namespace GfxDrm
open Circular Run

/-- The managed range `[start, start + size)` is split into blocks and holes. -/
structure LaidOut (start size : ℕ) (mm : DrmMm) : Prop where
  head_first : mm.nodeList.head? = some .head
  listed : ∀ n, (mm.node (.block n)).allocated = true ↔ .block n ∈ mm.nodeList
  sorted : mm.nodeList.tail.Pairwise fun a b => mm.nodeStart a < mm.nodeStart b
  disjoint : ∀ m n, (mm.node (.block m)).allocated = true →
    (mm.node (.block n)).allocated = true → m ≠ n →
    (mm.node (.block m)).start + (mm.node (.block m)).size ≤ (mm.node (.block n)).start ∨
      (mm.node (.block n)).start + (mm.node (.block n)).size ≤ (mm.node (.block m)).start
  inside : ∀ n, (mm.node (.block n)).allocated = true → start ≤ (mm.node (.block n)).start ∧
    (mm.node (.block n)).start + (mm.node (.block n)).size ≤ start + size
  hole_follows : ∀ r ∈ mm.nodeList, ((mm.node r).holeFollows = true ↔
    drmMmHoleNodeStart mm r < drmMmHoleNodeEnd mm r)
  stack_nodup : mm.holeStack.Nodup
  mem_stack : ∀ r, r ∈ mm.holeStack ↔ r ∈ mm.nodeList ∧ (mm.node r).holeFollows = true
  sum : (mm.nodeList.tail.map fun r => (mm.node r).size).sum +
    (mm.holeStack.map fun r => drmMmHoleNodeEnd mm r - drmMmHoleNodeStart mm r).sum = size

namespace DrmMm
variable {mm : DrmMm} {lo hi start size : ℕ} {adjust : Option ColorAdjust}

theorem sum_map_filter_of_zero {α : Type*} {p : α → Bool} {f : α → ℕ} (l : List α)
    (h : ∀ a ∈ l, p a = false → f a = 0) : ((l.filter p).map f).sum = (l.map f).sum := by
  induction l with
  | nil => rfl
  | cons a l ih =>
    have hl := ih fun b hb => h b (List.mem_cons_of_mem _ hb)
    cases hp : p a with
    | false => simp [hp, h a (by simp) hp, hl]
    | true => simp [hp, hl]

namespace Inv

/-- The holes on the stack are all the space between the nodes. -/
theorem sum_stack (h : Inv lo hi mm) :
    (mm.holeStack.map fun r => drmMmHoleNodeEnd mm r - drmMmHoleNodeStart mm r).sum =
      (mm.nodeList.map fun r => drmMmHoleNodeEnd mm r - drmMmHoleNodeStart mm r).sum := by
  have hperm : mm.holeStack.Perm (mm.nodeList.filter fun r => (mm.node r).holeFollows) := by
    rw [List.perm_ext_iff_of_nodup h.stack_nodup (h.nodup.filter _)]
    intro r
    rw [List.mem_filter, h.mem_stack]
  rw [(hperm.map _).sum_eq]
  apply sum_map_filter_of_zero
  intro r hr hf
  have hiff := h.hole_follows r hr
  rw [hf] at hiff
  simp only [Bool.false_eq_true, false_iff] at hiff
  omega

theorem sum_sizes (h : Inv lo hi mm) :
    (mm.nodeList.tail.map fun r => (mm.node r).size).sum +
      (mm.holeStack.map fun r => drmMmHoleNodeEnd mm r - drmMmHoleNodeStart mm r).sum =
        hi - lo := by
  obtain ⟨l, hl⟩ := h.head_first
  have hn := h.nodup
  have ho := h.ordered
  have hpos := h.start_le_end hl
  have hsizes : ∀ r ∈ l, (mm.node r).size = drmMmHoleNodeStart mm r - mm.nodeStart r := by
    intro r hr
    cases r with
    | head => exact absurd hr (List.nodup_cons.mp (hl ▸ hn)).1
    | block n =>
      rw [h.block_end (hl ▸ List.mem_cons_of_mem _ hr)]
      exact (Nat.add_sub_cancel_left _ _).symm
  have hsum := (hl ▸ ho).sum (hl ▸ hn) hpos
  rw [h.head_start, h.head_end] at hsum
  rw [h.sum_stack, hl, List.tail_cons, List.map_congr_left hsizes]
  simpa only [drmMmHoleNodeEnd, nextNode, hl] using hsum

theorem laidOut (h : Inv start (start + size) mm) : LaidOut start size mm := by
  obtain ⟨l, hl⟩ := h.head_first
  have hmem : ∀ n, (mm.node (.block n)).allocated = true → .block n ∈ mm.nodeList := fun n =>
    (h.allocated n).mp
  refine
    { head_first := by rw [hl, List.head?_cons]
      listed := h.allocated
      sorted := ?_
      disjoint := ?_
      inside := ?_
      hole_follows := h.hole_follows
      stack_nodup := h.stack_nodup
      mem_stack := h.mem_stack
      sum := by rw [h.sum_sizes]; omega }
  · have hp := h.pairwise
    have hn := h.nodup
    rw [hl] at hp hn ⊢
    refine (List.pairwise_cons.mp hp).2.imp_of_mem ?_
    intro a b ha _ hab
    cases a with
    | head => exact absurd ha (List.nodup_cons.mp hn).1
    | block n =>
      have hn : NodeRef.block n ∈ mm.nodeList := hl ▸ List.mem_cons_of_mem _ ha
      have hpos := h.size_pos n hn
      rw [h.block_end hn] at hab
      show (mm.node (.block n)).start < mm.nodeStart b
      omega
  · intro m n hm hn hmn
    have hd := h.disjoint (hmem m hm) (hmem n hn) hmn
    rwa [h.block_end (hmem m hm), h.block_end (hmem n hn)] at hd
  · intro n hn
    refine ⟨h.le_start (hmem n hn), ?_⟩
    rw [← h.block_end (hmem n hn)]
    exact h.end_le (hmem n hn)

end Inv
end DrmMm

end GfxDrm
