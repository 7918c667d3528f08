import Mathlib.Data.List.Chain
import Mathlib.Data.List.Sort

/-! Insertion sort by a relation of which only the asymmetry is known. -/

namespace GfxDrm.Insertion

variable {α : Type*} (after : α → α → Prop) [DecidableRel after]

/-- Put `x` before the first member that is to come after it. -/
def insert (l : List α) (x : α) : List α := l.orderedInsert (fun x y => after y x) x

/-- Every member is inserted among those before it; a list in which no member is to come after the
next one is left as it is. -/
def sort (l : List α) : List α :=
  if l.IsChain fun x y => ¬after x y then l else l.foldl (insert after) []

variable {after} {x y : α} {l : List α}

theorem insert_cons_of_after (h : after y x) (l : List α) :
    insert after (y :: l) x = x :: y :: l :=
  List.orderedInsert_cons_of_le _ l h

theorem insert_cons_of_not_after (h : ¬after y x) (l : List α) :
    insert after (y :: l) x = y :: insert after l x :=
  List.orderedInsert_of_not_le _ l h

/-- Members that need not come after `x` stay before it. -/
theorem insert_append {l₁ : List α} (l₂ : List α) (h : ∀ y ∈ l₁, ¬after y x) :
    insert after (l₁ ++ l₂) x = l₁ ++ insert after l₂ x := by
  induction l₁ with
  | nil => rfl
  | cons y l₁ ih =>
    rw [List.cons_append, insert_cons_of_not_after (h y List.mem_cons_self),
      ih fun z hz => h z (List.mem_cons_of_mem y hz)]
    rfl

theorem insert_perm (l : List α) (x : α) : (insert after l x).Perm (x :: l) :=
  List.perm_orderedInsert _ x l

/-- A chain of a relation that is transitive on its members is pairwise related. -/
theorem pairwise_of_isChain {r : α → α → Prop}
    (htrans : ∀ x ∈ l, ∀ y ∈ l, ∀ z ∈ l, r x y → r y z → r x z) (h : l.IsChain r) :
    l.Pairwise r := by
  induction l with
  | nil => exact List.Pairwise.nil
  | cons x l ih =>
    have htrans' : ∀ x ∈ l, ∀ y ∈ l, ∀ z ∈ l, r x y → r y z → r x z := fun a ha b hb c hc =>
      htrans a (List.mem_cons_of_mem x ha) b (List.mem_cons_of_mem x hb) c
        (List.mem_cons_of_mem x hc)
    cases l with
    | nil => exact List.pairwise_singleton r x
    | cons y l =>
      obtain ⟨hxy, hl⟩ := List.isChain_cons_cons.mp h
      have hrest := ih htrans' hl
      refine List.pairwise_cons.mpr ⟨fun z hz => ?_, hrest⟩
      rcases List.mem_cons.mp hz with rfl | hz
      · exact hxy
      · exact htrans x (by simp) y (by simp) z (by simp [hz]) hxy
          ((List.pairwise_cons.mp hrest).1 z hz)

section chain
variable (hasymm : ∀ x y, after x y → ¬after y x)
include hasymm

/-- Insertion between two members leaves no one before one that is to come first. -/
theorem insert_isChain (h : l.IsChain fun x y => ¬after x y) (x : α) :
    (insert after l x).IsChain fun x y => ¬after x y := by
  induction l with
  | nil => exact List.IsChain.singleton x
  | cons y l ih =>
    by_cases hy : after y x
    · rw [insert_cons_of_after hy]
      exact List.isChain_cons_cons.mpr ⟨hasymm y x hy, h⟩
    · rw [insert_cons_of_not_after hy]
      cases l with
      | nil => exact List.isChain_cons_cons.mpr ⟨hy, List.IsChain.singleton x⟩
      | cons z l =>
        obtain ⟨hyz, hl⟩ := List.isChain_cons_cons.mp h
        have hins := ih hl
        by_cases hz : after z x
        · rw [insert_cons_of_after hz] at hins ⊢
          exact List.isChain_cons_cons.mpr ⟨hy, hins⟩
        · rw [insert_cons_of_not_after hz] at hins ⊢
          exact List.isChain_cons_cons.mpr ⟨hyz, hins⟩

theorem foldl_insert_isChain {m : List α} (h : m.IsChain fun x y => ¬after x y) :
    (l.foldl (insert after) m).IsChain fun x y => ¬after x y := by
  induction l generalizing m with
  | nil => exact h
  | cons x l ih => exact ih (insert_isChain hasymm h x)

theorem sort_isChain (l : List α) : (sort after l).IsChain fun x y => ¬after x y := by
  unfold sort
  split
  · rename_i h
    exact h
  · exact foldl_insert_isChain hasymm List.IsChain.nil

end chain

end GfxDrm.Insertion
