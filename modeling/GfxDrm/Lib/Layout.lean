import Mathlib.Algebra.BigOperators.Group.List.Basic
import Mathlib.Algebra.Order.Ring.Nat
import GfxDrm.Lib.Circular

/-! Blocks laid out in list order between the end of the first entry and the start of the
sentinel `h`. Entry `a` occupies `[start a, fin a)`; of the first one only `fin` counts, of
the sentinel only `start`. -/

namespace GfxDrm.Layout
open Circular

variable {α : Type*} [DecidableEq α] {start fin : α → ℕ} {h : α}

/-- No entry runs into its successor. -/
def Ordered (start fin : α → ℕ) (h : α) (L : List α) : Prop :=
  ∀ a ∈ L, fin a ≤ start (succ h a L)

variable {l : List α} {b : α}

theorem Ordered.tail (hn : (b :: l).Nodup) (ho : Ordered start fin h (b :: l)) :
    Ordered start fin h l := by
  intro a ha
  have hb : b ≠ a := fun e => (List.nodup_cons.mp hn).1 (e ▸ ha)
  simpa only [succ_cons_of_ne hb] using ho a (List.mem_cons_of_mem _ ha)

theorem Ordered.head (ho : Ordered start fin h (b :: l)) :
    fin b ≤ start (l.headD h) := by
  simpa only [succ_cons_self] using ho b List.mem_cons_self

/-- The order of neighbours is the order of all entries. -/
theorem Ordered.pairwise (hn : (b :: l).Nodup) (ho : Ordered start fin h (b :: l))
    (hpos : ∀ a ∈ l, start a ≤ fin a) :
    (b :: l).Pairwise fun a c => fin a ≤ start c := by
  induction l generalizing b with
  | nil => simp
  | cons c l ih =>
    have hc := ih (List.nodup_cons.mp hn).2 (ho.tail hn) fun a ha =>
      hpos a (List.mem_cons_of_mem _ ha)
    refine List.pairwise_cons.mpr ⟨?_, hc⟩
    intro d hd
    have hbc : fin b ≤ start c := ho.head
    rcases List.mem_cons.mp hd with rfl | hd
    · exact hbc
    · exact hbc.trans ((hpos c (by simp)).trans ((List.pairwise_cons.mp hc).1 d hd))

/-- Every entry ends before the sentinel starts. -/
theorem Ordered.le_sentinel (hn : (b :: l).Nodup) (ho : Ordered start fin h (b :: l))
    (hpos : ∀ a ∈ l, start a ≤ fin a) {a : α} (ha : a ∈ b :: l) : fin a ≤ start h := by
  induction l generalizing a b with
  | nil => simpa [List.mem_singleton.mp ha] using ho.head
  | cons c l ih =>
    have hl : ∀ a ∈ c :: l, fin a ≤ start h := fun _ ha =>
      ih (List.nodup_cons.mp hn).2 (ho.tail hn)
        (fun a ha => hpos a (List.mem_cons_of_mem _ ha)) ha
    rcases List.mem_cons.mp ha with rfl | ha
    · exact ho.head.trans ((hpos c (by simp)).trans (hl c (by simp)))
    · exact hl a ha

/-- Blocks and the gaps behind the entries fill the whole interval. -/
theorem Ordered.sum (hn : (b :: l).Nodup) (ho : Ordered start fin h (b :: l))
    (hpos : ∀ a ∈ l, start a ≤ fin a) :
    (l.map fun a => fin a - start a).sum +
      ((b :: l).map fun a => start (succ h a (b :: l)) - fin a).sum = start h - fin b := by
  induction l generalizing b with
  | nil => simp [succ]
  | cons c l ih =>
    have hc := ih (List.nodup_cons.mp hn).2 (ho.tail hn) fun a ha =>
      hpos a (List.mem_cons_of_mem _ ha)
    have hrest : (c :: l).map (fun a => start (succ h a (b :: c :: l)) - fin a) =
        (c :: l).map fun a => start (succ h a (c :: l)) - fin a := by
      apply List.map_congr_left
      intro a ha
      rw [succ_cons_of_ne (ne_of_mem_of_not_mem ha (List.nodup_cons.mp hn).1).symm]
    have hbc : fin b ≤ start c := ho.head
    have hcc : start c ≤ fin c := hpos c (by simp)
    have hch : fin c ≤ start h := (ho.tail hn).le_sentinel (List.nodup_cons.mp hn).2
      (fun a ha => hpos a (List.mem_cons_of_mem _ ha)) (by simp)
    rw [List.map_cons, List.sum_cons, List.map_cons (l := c :: l), List.sum_cons, hrest,
      succ_cons_self, List.headD_cons]
    omega

/-- An interval that meets no block lies in one gap. -/
theorem Ordered.exists_gap (hn : (b :: l).Nodup) (ho : Ordered start fin h (b :: l)) {x y : ℕ}
    (hb : fin b ≤ x) (hy : y ≤ start h) (hfree : ∀ a ∈ l, fin a ≤ x ∨ y ≤ start a) :
    ∃ a ∈ b :: l, fin a ≤ x ∧ y ≤ start (succ h a (b :: l)) := by
  induction l generalizing b with
  | nil => exact ⟨b, by simp, hb, by simpa [succ] using hy⟩
  | cons c l ih =>
    rcases hfree c (by simp) with hc | hc
    · obtain ⟨a, ha, hx, hy⟩ := ih (List.nodup_cons.mp hn).2 (ho.tail hn) hc fun a ha =>
        hfree a (List.mem_cons_of_mem _ ha)
      refine ⟨a, List.mem_cons_of_mem _ ha, hx, ?_⟩
      rwa [succ_cons_of_ne (ne_of_mem_of_not_mem ha (List.nodup_cons.mp hn).1).symm]
    · exact ⟨b, by simp, hb, by simpa only [succ_cons_self, List.headD_cons] using hc⟩

/-- `Ordered` in a form that every sublist inherits. -/
def Sorted (start fin : α → ℕ) (h : α) (L : List α) : Prop :=
  L.Pairwise (fun a c => fin a ≤ start c) ∧ ∀ a ∈ L, fin a ≤ start h

theorem Ordered.sorted (hn : (b :: l).Nodup) (ho : Ordered start fin h (b :: l))
    (hpos : ∀ a ∈ l, start a ≤ fin a) :
    Sorted start fin h (b :: l) :=
  ⟨ho.pairwise hn hpos, fun _ ha => ho.le_sentinel hn hpos ha⟩

omit [DecidableEq α] in
theorem Sorted.sublist {L L' : List α} (hs : Sorted start fin h L) (hl : L'.Sublist L) :
    Sorted start fin h L' :=
  ⟨hs.1.sublist hl, fun a ha => hs.2 a (hl.subset ha)⟩

theorem Sorted.ordered {L : List α} (hn : L.Nodup) (hs : Sorted start fin h L) :
    Ordered start fin h L := by
  intro a ha
  obtain ⟨l₁, l₂, rfl, h₁, -⟩ := exists_split hn ha
  rw [succ_split h₁]
  cases l₂ with
  | nil => exact hs.2 a ha
  | cons c l =>
    have hp := (List.pairwise_append.mp hs.1).2.1
    exact (List.pairwise_cons.mp hp).1 c (by simp)

/-- No entry reaches into the gap behind `a`. -/
theorem Sorted.gap_free (hn : (b :: l).Nodup) (hs : Sorted start fin h (b :: l))
    (hpos : ∀ a ∈ l, start a ≤ fin a) {a x : α} (ha : a ∈ b :: l) (hx : x ∈ b :: l) :
    fin x ≤ fin a ∨ start (succ h a (b :: l)) ≤ start x := by
  induction l generalizing b with
  | nil =>
    rw [List.mem_singleton.mp ha, List.mem_singleton.mp hx]
    exact .inl le_rfl
  | cons c l ih =>
    have hn' := (List.nodup_cons.mp hn).2
    have hs' := hs.sublist (List.sublist_cons_self b (c :: l))
    have hpos' : ∀ a ∈ l, start a ≤ fin a := fun d hd => hpos d (List.mem_cons_of_mem _ hd)
    have hp := List.pairwise_cons.mp hs.1
    by_cases hab : a = b
    · subst hab
      rw [succ_cons_self]
      rcases List.mem_cons.mp hx with rfl | hx
      · exact .inl le_rfl
      right
      rcases List.mem_cons.mp hx with rfl | hx
      · exact le_rfl
      · exact (hpos c (by simp)).trans ((List.pairwise_cons.mp hp.2).1 x hx)
    · have hac := (List.mem_cons.mp ha).resolve_left hab
      rw [succ_cons_of_ne (Ne.symm hab)]
      rcases List.mem_cons.mp hx with rfl | hx
      · exact .inl ((hp.1 a hac).trans (hpos a hac))
      · exact ih hn' hs' hpos' hac hx

end GfxDrm.Layout
