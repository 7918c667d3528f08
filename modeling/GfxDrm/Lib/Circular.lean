import Mathlib.Data.List.Chain
import Mathlib.Data.List.Nodup

/-! Circular lists seen from their sentinel: `L` lists the members in `next` order, the
sentinel `h` among them or apart. -/

namespace GfxDrm.Circular

variable {α : Type*} [DecidableEq α]

/-- The member after `a`; after the last one comes `h`. -/
def succ (h a : α) : List α → α
  | [] => h
  | b :: l => if b = a then l.headD h else succ h a l

/-- The member before `a`; before the first one comes `p`. -/
def pred (p a : α) : List α → α
  | [] => p
  | b :: l => if b = a then p else pred b a l

/-- Link `x` behind `a`. -/
def insertAfter (a x : α) : List α → List α
  | [] => []
  | b :: l => if b = a then b :: x :: l else b :: insertAfter a x l

section split
variable {h p a x : α} {l₁ l₂ : List α}

theorem succ_split (ha : a ∉ l₁) : succ h a (l₁ ++ a :: l₂) = l₂.headD h := by
  induction l₁ with
  | nil => simp [succ]
  | cons b l ih =>
    simp only [List.mem_cons, not_or] at ha
    simp only [List.cons_append, succ, if_neg (Ne.symm ha.1), ih ha.2]

theorem pred_split (ha : a ∉ l₁) : pred p a (l₁ ++ a :: l₂) = l₁.getLastD p := by
  induction l₁ generalizing p with
  | nil => simp [pred]
  | cons b l ih =>
    simp only [List.mem_cons, not_or] at ha
    simp only [List.cons_append, pred, if_neg (Ne.symm ha.1), ih ha.2, List.getLastD_cons]

theorem insertAfter_split (ha : a ∉ l₁) :
    insertAfter a x (l₁ ++ a :: l₂) = l₁ ++ a :: x :: l₂ := by
  induction l₁ with
  | nil => simp [insertAfter]
  | cons b l ih =>
    simp only [List.mem_cons, not_or] at ha
    simp only [List.cons_append, insertAfter, if_neg (Ne.symm ha.1), ih ha.2]

theorem insertAfter_getLastD (hnodup : (h :: (l₁ ++ l₂)).Nodup) :
    insertAfter (l₁.getLastD h) x (h :: (l₁ ++ l₂)) = h :: (l₁ ++ x :: l₂) := by
  induction l₁ generalizing h with
  | nil => exact if_pos rfl
  | cons b l ih =>
    obtain ⟨hh, hnodup⟩ := List.nodup_cons.mp hnodup
    have hne : h ≠ l.getLastD b := fun heq =>
      hh (heq ▸ List.mem_append_left l₂ (List.getLastD_mem_cons (l := l)))
    rw [List.getLastD_cons, insertAfter, if_neg hne, List.cons_append, ih hnodup]
    rfl

theorem erase_split (ha : a ∉ l₁) : (l₁ ++ a :: l₂).erase a = l₁ ++ l₂ := by
  rw [List.erase_append_right _ ha, List.erase_cons_head]

end split

variable {L : List α}

omit [DecidableEq α] in
/-- A member splits a duplicate-free list in one way. -/
theorem exists_split (hL : L.Nodup) {a : α} (ha : a ∈ L) :
    ∃ l₁ l₂, L = l₁ ++ a :: l₂ ∧ a ∉ l₁ ∧ a ∉ l₂ := by
  obtain ⟨l₁, l₂, rfl⟩ := List.append_of_mem ha
  obtain ⟨-, h₂, h₁⟩ := List.nodup_append.mp hL
  refine ⟨l₁, l₂, rfl, fun h => h₁ a h a (by simp) rfl, (List.nodup_cons.mp h₂).1⟩

theorem mem_insertAfter {a x y : α} (ha : a ∈ L) :
    y ∈ insertAfter a x L ↔ y = x ∨ y ∈ L := by
  induction L with
  | nil => simp at ha
  | cons b l ih =>
    by_cases hb : b = a
    · simp only [insertAfter, if_pos hb, List.mem_cons]
      tauto
    · have ha' : a ∈ l := (List.mem_cons.mp ha).resolve_left (Ne.symm hb)
      simp only [insertAfter, if_neg hb, List.mem_cons]
      tauto

theorem insertAfter_perm {a : α} (x : α) (ha : a ∈ L) :
    (insertAfter a x L).Perm (x :: L) := by
  induction L with
  | nil => simp at ha
  | cons b l ih =>
    by_cases hb : b = a
    · simpa only [insertAfter, if_pos hb] using List.Perm.swap x b l
    · have ha' : a ∈ l := (List.mem_cons.mp ha).resolve_left (Ne.symm hb)
      simp only [insertAfter, if_neg hb]
      exact ((ih ha').cons b).trans (List.Perm.swap x b l)

theorem nodup_insertAfter {a x : α} (ha : a ∈ L) (hL : L.Nodup) (hx : x ∉ L) :
    (insertAfter a x L).Nodup :=
  (insertAfter_perm x ha).nodup_iff.mpr (List.nodup_cons.mpr ⟨hx, hL⟩)

theorem insertAfter_of_notMem {a x : α} (ha : a ∉ L) : insertAfter a x L = L := by
  induction L with
  | nil => rfl
  | cons b l ih =>
    simp only [List.mem_cons, not_or] at ha
    simp only [insertAfter, if_neg (Ne.symm ha.1), ih ha.2]

variable {l : List α}

/-- Linking `x` behind the member it was unlinked from undoes the unlinking. -/
theorem insertAfter_pred_erase {b : α} (hL : (b :: l).Nodup) {x : α} (hx : x ∈ l) (p : α) :
    insertAfter (pred p x (b :: l)) x ((b :: l).erase x) = b :: l := by
  obtain ⟨l₁, l₂, rfl, h₁, h₂⟩ := exists_split (List.nodup_cons.mp hL).2 hx
  have hb : b ≠ x := fun e => (List.nodup_cons.mp hL).1 (by simp [e])
  have hx' : x ∉ b :: l₁ := by simp [h₁, Ne.symm hb]
  rw [show b :: (l₁ ++ x :: l₂) = (b :: l₁) ++ x :: l₂ from rfl, pred_split hx',
    erase_split hx']
  obtain ⟨l, c, hl⟩ : ∃ l c, b :: l₁ = l ++ [c] :=
    ⟨(b :: l₁).dropLast, (b :: l₁).getLast (by simp), (List.dropLast_append_getLast _).symm⟩
  have hc : c ∉ l := by
    have hn : (b :: l₁).Nodup := by
      have := hL
      exact (List.nodup_append.mp this).1
    rw [hl] at hn
    exact fun hm => (List.nodup_append.mp hn).2.2 c hm c (by simp) rfl
  rw [hl, List.getLastD_concat, List.append_assoc, List.singleton_append, insertAfter_split hc,
    List.append_assoc, List.singleton_append]

section succ
variable {h : α} {L : List α}

theorem succ_cons_self (a : α) (l : List α) : succ h a (a :: l) = l.headD h := by
  simp only [succ, if_true]

theorem succ_cons_of_ne {a b : α} (hb : b ≠ a) (l : List α) :
    succ h a (b :: l) = succ h a l := by
  simp only [succ, if_neg hb]

theorem succ_mem_cons (a : α) : succ h a L ∈ h :: L := by
  induction L with
  | nil => simp [succ]
  | cons b l ih =>
    simp only [succ]
    split
    · cases l <;> simp
    · simp only [List.mem_cons] at ih ⊢
      tauto

theorem succ_insertAfter_self {a x : α} (hL : L.Nodup) (ha : a ∈ L) :
    succ h a (insertAfter a x L) = x := by
  obtain ⟨l₁, l₂, rfl, h₁, -⟩ := exists_split hL ha
  rw [insertAfter_split h₁, succ_split h₁, List.headD_cons]

theorem succ_insertAfter_new {a x : α} (hL : L.Nodup) (ha : a ∈ L) (hx : x ∉ L) :
    succ h x (insertAfter a x L) = succ h a L := by
  obtain ⟨l₁, l₂, rfl, h₁, -⟩ := exists_split hL ha
  have hx' : x ∉ l₁ ++ [a] := fun hm => hx (by
    simp only [List.mem_append, List.mem_cons] at hm ⊢
    tauto)
  rw [insertAfter_split h₁, succ_split h₁,
    show l₁ ++ a :: x :: l₂ = (l₁ ++ [a]) ++ x :: l₂ by simp, succ_split hx']

theorem succ_insertAfter_of_ne {a x y : α} (hy : y ≠ a) (hyx : y ≠ x) :
    succ h y (insertAfter a x L) = succ h y L := by
  induction L with
  | nil => rfl
  | cons b l ih =>
    by_cases hb : b = a
    · subst hb
      simp only [insertAfter, if_true, succ, if_neg (Ne.symm hy), if_neg (Ne.symm hyx)]
    · simp only [insertAfter, if_neg hb, succ]
      split
      · cases l with
        | nil => rfl
        | cons c l => simp only [insertAfter]; split <;> rfl
      · exact ih

theorem pred_mem_erase {b x : α} (hL : (b :: l).Nodup) (hx : x ∈ l) (p : α) :
    pred p x (b :: l) ∈ (b :: l).erase x := by
  by_contra hn
  have hmem := congrArg (x ∈ ·) (insertAfter_pred_erase hL hx p)
  rw [insertAfter_of_notMem hn] at hmem
  simp [hL.not_mem_erase, hx] at hmem

/-- Unlinking `x` makes its successor the successor of its predecessor. -/
theorem succ_erase_pred {b x : α} (hL : (b :: l).Nodup) (hx : x ∈ l) (p : α) :
    succ h (pred p x (b :: l)) ((b :: l).erase x) = succ h x (b :: l) := by
  have hs := succ_insertAfter_new (h := h) (hL.erase x) (pred_mem_erase hL hx p)
    hL.not_mem_erase
  rw [insertAfter_pred_erase hL hx p] at hs
  exact hs.symm

/-- Unlinking `x` changes no other successor. -/
theorem succ_erase_of_ne {b x y : α} (hL : (b :: l).Nodup) (hx : x ∈ l) (p : α) (hy : y ≠ x)
    (hyp : y ≠ pred p x (b :: l)) :
    succ h y ((b :: l).erase x) = succ h y (b :: l) := by
  have hs := succ_insertAfter_of_ne (h := h) (L := (b :: l).erase x) hyp hy
  rw [insertAfter_pred_erase hL hx p] at hs
  exact hs.symm

end succ

/-! ### Renamed lists -/

section map
variable {β : Type*} [DecidableEq β] {f : α → β} {h p a x : α} {L : List α}

theorem succ_map (hf : Function.Injective f) : succ (f h) (f a) (L.map f) = f (succ h a L) := by
  induction L with
  | nil => rfl
  | cons b l ih =>
    simp only [List.map_cons, succ, hf.eq_iff, ih]
    split
    · cases l <;> rfl
    · rfl

theorem pred_map (hf : Function.Injective f) : pred (f p) (f a) (L.map f) = f (pred p a L) := by
  induction L generalizing p with
  | nil => rfl
  | cons b l ih =>
    simp only [List.map_cons, pred, hf.eq_iff, ih]
    split <;> rfl

theorem erase_map (hf : Function.Injective f) : (L.map f).erase (f a) = (L.erase a).map f :=
  (List.map_erase hf L).symm

theorem insertAfter_map (hf : Function.Injective f) :
    insertAfter (f a) (f x) (L.map f) = (insertAfter a x L).map f := by
  induction L with
  | nil => rfl
  | cons b l ih =>
    simp only [List.map_cons, insertAfter, hf.eq_iff, ih]
    split <;> rfl

end map

end GfxDrm.Circular
