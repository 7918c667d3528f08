import Mathlib.Algebra.BigOperators.Group.Finset.Piecewise

/-! How many members of a finite family have a property, as they change one at a time. -/

namespace GfxDrm

variable {ι : Type*} [Fintype ι] {p p' : ι → Bool}

def census (p : ι → Bool) : ℕ := (Finset.univ.filter fun i => p i = true).card

namespace Census

theorem census_eq_sum (p : ι → Bool) : census p = ∑ i, (p i).toNat := by
  rw [census, Finset.card_filter]
  refine Finset.sum_congr rfl fun i _ => ?_
  cases p i <;> rfl

/-- One member's share of a sum changes. -/
theorem sum_change [DecidableEq ι] (f f' : ι → ℕ) (i : ι) (h : ∀ j, j ≠ i → f' j = f j) :
    ∑ j, f' j + f i = ∑ j, f j + f' i := by
  have hrest : ∑ j ∈ Finset.univ.erase i, f' j = ∑ j ∈ Finset.univ.erase i, f j :=
    Finset.sum_congr rfl fun j hj => h j (Finset.ne_of_mem_erase hj)
  rw [← Finset.add_sum_erase _ f' (Finset.mem_univ i), ← Finset.add_sum_erase _ f (Finset.mem_univ i)]
  omega

theorem le_sum [DecidableEq ι] (f : ι → ℕ) (i : ι) : f i ≤ ∑ j, f j := by
  rw [← Finset.add_sum_erase _ f (Finset.mem_univ i)]
  exact Nat.le_add_right ..

/-- One member changes. -/
theorem change [DecidableEq ι] (p p' : ι → Bool) (i : ι) (h : ∀ j, j ≠ i → p' j = p j) :
    census p' + (p i).toNat = census p + (p' i).toNat := by
  rw [census_eq_sum, census_eq_sum]
  exact sum_change (fun j => (p j).toNat) (fun j => (p' j).toNat) i fun j hj => by rw [h j hj]

theorem congr (h : ∀ i, p' i = p i) : census p' = census p := by
  have heq : p' = p := funext h
  rw [heq]

theorem eq_zero_iff : census p = 0 ↔ ∀ i, p i = false := by
  simp [census]

theorem pos_iff : 0 < census p ↔ ∃ i, p i = true := by
  simp [census, Finset.filter_nonempty_iff]

end Census

end GfxDrm
