import GfxDrm.Lib.Circular
import Mathlib.Logic.Equiv.Basic

/-! Intrusive circular lists: nodes that hold pointers to both neighbours and to the entry they
are part of. -/

namespace GfxDrm.Ring
open Circular Function

variable {α γ : Type*} [DecidableEq α]

/-- The nodes of a memory; `none` is a null pointer. -/
structure Links (α γ : Type*) where
  next : α → Option α
  prev : α → Option α
  entry : α → Option γ

namespace Links

/-- A memory that was never written. -/
def zero : Links α γ where
  next _ := none
  prev _ := none
  entry _ := none

/-- Make `h` a list of its own. -/
def init (s : Links α γ) (h : α) : Links α γ where
  next := update s.next h (some h)
  prev := update s.prev h (some h)
  entry := update s.entry h none

def empty (s : Links α γ) (h : α) : Bool := s.next h = some h

/-- Link `x`, part of `g`, behind `h`; `none` if that reads through a null pointer. -/
def add (s : Links α γ) (x h : α) (g : γ) : Option (Links α γ) :=
  (s.next h).map fun n =>
    { next := update (update s.next x (some n)) h (some x)
      prev := update (update s.prev x (some h)) n (some x)
      entry := update s.entry x (some g) }

/-- Link `x`, part of `g`, before `h`. -/
def addTail (s : Links α γ) (x h : α) (g : γ) : Option (Links α γ) :=
  (s.prev h).map fun p =>
    { next := update (update s.next x (some h)) p (some x)
      prev := update (update s.prev x (some p)) h (some x)
      entry := update s.entry x (some g) }

/-- Unlink `x`. -/
def del (s : Links α γ) (x : α) : Option (Links α γ) :=
  (s.next x).bind fun n => (s.prev x).map fun p =>
    { next := update (update s.next p (some n)) x none
      prev := update (update s.prev n (some p)) x none
      entry := s.entry }

/-- Link `x` between `p` and `n`; what `x` is part of stays as it was. -/
def link (s : Links α γ) (p x n : α) : Links α γ where
  next := update (update s.next p (some x)) x (some n)
  prev := update (update s.prev n (some x)) x (some p)
  entry := s.entry

/-- Unlink `x` and make it a list of its own. -/
def delInit (s : Links α γ) (x : α) : Option (Links α γ) := (s.del x).map fun t => t.init x

/-- Put `y` in the place of `x`; what `y` is part of stays as it was. -/
def replace (s : Links α γ) (x y : α) : Option (Links α γ) :=
  (s.next x).bind fun n =>
    let prev := update s.prev n (some y)
    (prev x).map fun p =>
      { next := update (update s.next y (some n)) p (some y)
        prev := update prev y (some p)
        entry := s.entry }

/-- Link what is in the list at `k` between `p` and `n`; `k` itself stays as it was. -/
def splice (s : Links α γ) (k p n : α) : Option (Links α γ) :=
  if s.empty k then some s
  else (s.next k).bind fun first => (s.prev k).map fun last =>
    { next := update (update s.next p (some first)) last (some n)
      prev := update (update s.prev first (some p)) n (some last)
      entry := s.entry }

/-- The entries met from `pos` on, where `node` is the node in an entry; `none` if the walk has
not ended after `fuel` nodes. -/
def walk (s : Links α γ) (node : γ → α) : ℕ → Option γ → Option (List γ)
  | 0, _ => none
  | _ + 1, none => some []
  | fuel + 1, some g => (walk s node fuel ((s.next (node g)).bind s.entry)).map (g :: ·)

/-- The entries met in the first `fuel` steps from `pos` on. -/
def met (s : Links α γ) (node : γ → α) : ℕ → Option γ → List γ
  | 0, _ => []
  | _ + 1, none => []
  | fuel + 1, some g => g :: met s node fuel ((s.next (node g)).bind s.entry)

/-- The list at `h` is `l`, forwards and backwards. -/
structure IsRing (s : Links α γ) (h : α) (l : List α) : Prop where
  nodup : (h :: l).Nodup
  next : ∀ x ∈ h :: l, s.next x = some (succ h x (h :: l))
  prev : ∀ x ∈ h :: l, s.prev (succ h x (h :: l)) = some x

variable {s t : Links α γ} {h x : α} {l : List α}

@[simp] theorem init_next_self (s : Links α γ) (h : α) : (s.init h).next h = some h :=
  update_self ..

@[simp] theorem init_entry_self (s : Links α γ) (h : α) : (s.init h).entry h = none :=
  update_self ..

theorem init_next_of_ne (s : Links α γ) (hne : x ≠ h) : (s.init h).next x = s.next x :=
  update_of_ne hne ..

theorem init_prev_of_ne (s : Links α γ) (hne : x ≠ h) : (s.init h).prev x = s.prev x :=
  update_of_ne hne ..

theorem init_entry_of_ne (s : Links α γ) (hne : x ≠ h) : (s.init h).entry x = s.entry x :=
  update_of_ne hne ..

theorem IsRing.init (s : Links α γ) (h : α) : (s.init h).IsRing h [] := by
  have hself : succ h h [h] = h := succ_cons_self h []
  refine ⟨List.nodup_singleton h, fun x hx => ?_, fun x hx => ?_⟩
  · rw [List.mem_singleton.mp hx, hself]
    exact update_self ..
  · rw [List.mem_singleton.mp hx, hself]
    exact update_self ..

theorem succ_mem (h x : α) (l : List α) : succ h x (h :: l) ∈ h :: l := by
  rcases List.mem_cons.mp (succ_mem_cons (h := h) (L := h :: l) x) with heq | hm
  · rw [heq]
    exact List.mem_cons_self
  · exact hm

/-- A list is not touched by what leaves its nodes alone. -/
theorem IsRing.congr (hs : s.IsRing h l) (hnext : ∀ x ∈ h :: l, t.next x = s.next x)
    (hprev : ∀ x ∈ h :: l, t.prev x = s.prev x) : t.IsRing h l :=
  ⟨hs.nodup, fun x hx => (hnext x hx).trans (hs.next x hx),
    fun x hx => (hprev _ (succ_mem h x l)).trans (hs.prev x hx)⟩

/-- The successor of a node, from where the list is split. -/
theorem IsRing.next_of_split {p : α} {m k : List α} (hs : s.IsRing h l)
    (hsplit : h :: l = m ++ p :: k) : s.next p = some (k.headD h) ∧ h ∉ k := by
  have hp : p ∈ h :: l := hsplit ▸ List.mem_append_right m List.mem_cons_self
  have hnodup := hs.nodup
  rw [hsplit] at hnodup
  have hpm : p ∉ m := fun hm =>
    (List.nodup_append.mp hnodup).2.2 p hm p List.mem_cons_self rfl
  refine ⟨?_, fun hk => ?_⟩
  · rw [hs.next p hp, hsplit, succ_split hpm]
  · have hl : h ∈ l := by
      cases m with
      | nil =>
        rw [List.nil_append, List.cons.injEq] at hsplit
        exact hsplit.2 ▸ hk
      | cons c m =>
        rw [List.cons_append, List.cons.injEq] at hsplit
        rw [hsplit.2]
        exact List.mem_append_right m (List.mem_cons_of_mem p hk)
    exact (List.nodup_cons.mp hs.nodup).1 hl

/-- The list is known from its links. -/
theorem IsRing.unique {l' : List α} (hs : s.IsRing h l) (hs' : s.IsRing h l') : l = l' := by
  have hrest : ∀ (k m m' : List α) (p : α) (k' : List α), h :: l = m ++ p :: k →
      h :: l' = m' ++ p :: k' → k = k' := by
    intro k
    induction k with
    | nil =>
      intro m m' p k' hk hk'
      obtain ⟨hnext, -⟩ := hs.next_of_split hk
      obtain ⟨hnext', hmem⟩ := hs'.next_of_split hk'
      rw [hnext, Option.some.injEq] at hnext'
      cases k' with
      | nil => rfl
      | cons b k' => exact absurd (List.mem_cons.mpr (.inl hnext')) hmem
    | cons c k ih =>
      intro m m' p k' hk hk'
      obtain ⟨hnext, hmem⟩ := hs.next_of_split hk
      obtain ⟨hnext', -⟩ := hs'.next_of_split hk'
      rw [hnext, Option.some.injEq] at hnext'
      cases k' with
      | nil => exact absurd (List.mem_cons.mpr (.inl hnext'.symm)) hmem
      | cons b k' =>
        obtain rfl : c = b := hnext'
        rw [ih (m ++ [p]) (m' ++ [p]) c k' (by simpa using hk) (by simpa using hk')]
  exact hrest l [] [] h l' rfl rfl

theorem IsRing.empty_iff (hs : s.IsRing h l) : s.empty h = true ↔ l = [] := by
  have hn := hs.next h List.mem_cons_self
  rw [succ_cons_self] at hn
  rw [Links.empty, hn]
  cases l with
  | nil => simp
  | cons a l =>
    have hne : a ≠ h := fun heq => (List.nodup_cons.mp hs.nodup).1 (heq ▸ List.mem_cons_self)
    simp [hne]

/-- What follows the head of a list when `x` is linked behind a member. -/
theorem insertAfter_tail (h a x : α) (l : List α) :
    insertAfter a x (h :: l) = h :: (insertAfter a x (h :: l)).tail := by
  by_cases hha : h = a
  · rw [insertAfter, if_pos hha, List.tail_cons]
  · rw [insertAfter, if_neg hha, List.tail_cons]

/-! ### Segments -/

/-- From `p` the links lead over `l` to `n`, and back. -/
def Seg (s : Links α γ) (p : α) : List α → α → Prop
  | [], n => s.next p = some n ∧ s.prev n = some p
  | a :: l, n => (s.next p = some a ∧ s.prev a = some p) ∧ Seg s a l n

variable {l₁ l₂ : List α}

omit [DecidableEq α] in
theorem Seg.append {p a n : α} :
    s.Seg p (l₁ ++ a :: l₂) n ↔ s.Seg p l₁ a ∧ s.Seg a l₂ n := by
  induction l₁ generalizing p with
  | nil => rfl
  | cons b l₁ ih => exact (and_congr_right fun _ => ih).trans and_assoc.symm

omit [DecidableEq α] in
/-- A segment stays one when only its last link is changed. -/
theorem Seg.retarget {p n n' : α} (hs : s.Seg p l n)
    (hnext : ∀ x ∈ p :: l, x ≠ l.getLastD p → t.next x = s.next x)
    (hprev : ∀ x ∈ l, t.prev x = s.prev x) (hnodup : (p :: l).Nodup)
    (hlast : t.next (l.getLastD p) = some n' ∧ t.prev n' = some (l.getLastD p)) :
    t.Seg p l n' := by
  induction l generalizing p with
  | nil => exact hlast
  | cons a l ih =>
    have hlastD : (a :: l).getLastD p = l.getLastD a := List.getLastD_cons
    rw [hlastD] at hnext hlast
    have hp : p ≠ l.getLastD a := fun heq =>
      (List.nodup_cons.mp hnodup).1 (heq ▸ List.getLastD_mem_cons)
    refine ⟨⟨?_, ?_⟩, ih hs.2 (fun x hx => hnext x (List.mem_cons_of_mem p hx))
      (fun x hx => hprev x (List.mem_cons_of_mem a hx)) (List.nodup_cons.mp hnodup).2 hlast⟩
    · exact (hnext p List.mem_cons_self hp).trans hs.1.1
    · exact (hprev a List.mem_cons_self).trans hs.1.2

omit [DecidableEq α] in
theorem Seg.last {p n : α} (hs : s.Seg p l n) :
    s.next (l.getLastD p) = some n ∧ s.prev n = some (l.getLastD p) := by
  induction l generalizing p with
  | nil => exact hs
  | cons a l ih =>
    rw [List.getLastD_cons]
    exact ih hs.2

omit [DecidableEq α] in
theorem Seg.congr {p n : α} (hs : s.Seg p l n) (hnext : ∀ x ∈ p :: l, t.next x = s.next x)
    (hprev : ∀ x ∈ n :: l, t.prev x = s.prev x) (hnodup : (p :: l).Nodup) : t.Seg p l n := by
  refine hs.retarget (fun x hx _ => hnext x hx)
    (fun x hx => hprev x (List.mem_cons_of_mem n hx)) hnodup ⟨?_, ?_⟩
  · exact (hnext _ List.getLastD_mem_cons).trans hs.last.1
  · exact (hprev n List.mem_cons_self).trans hs.last.2

theorem Seg.next_prev {p : α} (hs : s.Seg p l h) (hnodup : (p :: l).Nodup) :
    ∀ x ∈ p :: l, s.next x = some (succ h x (p :: l)) ∧
      s.prev (succ h x (p :: l)) = some x := by
  induction l generalizing p with
  | nil =>
    intro x hx
    rw [List.mem_singleton.mp hx, succ_cons_self]
    exact hs
  | cons a l ih =>
    intro x hx
    by_cases hxp : x = p
    · rw [hxp, succ_cons_self]
      exact hs.1
    · rw [succ_cons_of_ne (Ne.symm hxp)]
      exact ih hs.2 (List.nodup_cons.mp hnodup).2 x ((List.mem_cons.mp hx).resolve_left hxp)

/-- A list is a segment from its head to its head. -/
theorem isRing_iff_seg : s.IsRing h l ↔ (h :: l).Nodup ∧ s.Seg h l h := by
  constructor
  · intro hs
    have hlink : ∀ (k m : List α) (p : α), h :: l = m ++ p :: k →
        s.next p = some (k.headD h) ∧ s.prev (k.headD h) = some p := by
      intro k m p hsplit
      have hp : p ∈ h :: l := hsplit ▸ List.mem_append_right m List.mem_cons_self
      obtain ⟨hnext, -⟩ := hs.next_of_split hsplit
      have heq := (hs.next p hp).symm.trans hnext
      rw [Option.some.injEq] at heq
      exact ⟨hnext, (congrArg s.prev heq).symm.trans (hs.prev p hp)⟩
    have hrest : ∀ (k m : List α) (p : α), h :: l = m ++ p :: k → s.Seg p k h := by
      intro k
      induction k with
      | nil => exact hlink []
      | cons a k ih =>
        intro m p hsplit
        exact ⟨hlink (a :: k) m p hsplit,
          ih (m ++ [p]) a (hsplit.trans (List.append_cons m p (a :: k)))⟩
    exact ⟨hs.nodup, hrest l [] h rfl⟩
  · rintro ⟨hnodup, hseg⟩
    exact ⟨hnodup, fun x hx => (hseg.next_prev hnodup x hx).1,
      fun x hx => (hseg.next_prev hnodup x hx).2⟩

omit [DecidableEq α] in
theorem Seg.append_iff {p n : α} :
    s.Seg p (l₁ ++ l₂) n ↔ s.Seg p l₁ (l₂.headD n) ∧ ∀ a l, l₂ = a :: l → s.Seg a l n := by
  cases l₂ with
  | nil => simp
  | cons b l₂ => simp [Seg.append]

/-- A list stays one when what lies between two of its nodes is put in anew. -/
theorem IsRing.relink {l₁ k m l₂ : List α} (hs : s.IsRing h (l₁ ++ (k ++ l₂)))
    (hnodup : (h :: (l₁ ++ (m ++ l₂))).Nodup)
    (hmid : t.Seg (l₁.getLastD h) m (l₂.headD h))
    (hnext : ∀ y ∈ h :: (l₁ ++ l₂), y ≠ l₁.getLastD h → t.next y = s.next y)
    (hprev : ∀ y ∈ h :: (l₁ ++ l₂), y ≠ l₂.headD h → t.prev y = s.prev y) :
    t.IsRing h (l₁ ++ (m ++ l₂)) := by
  obtain ⟨-, hseg⟩ := isRing_iff_seg.mp hs
  obtain ⟨hseg₁, -⟩ := Seg.append_iff.mp hseg
  rw [← List.append_assoc] at hseg
  obtain ⟨hnodup₁, hnodup₂, hdisj⟩ := List.nodup_append.mp
    (hnodup.sublist ((List.sublist_append_right m l₂).append_left (h :: l₁)) :
      ((h :: l₁) ++ l₂).Nodup)
  have hrest : ∀ a l, l₂ = a :: l → t.Seg a l h := by
    rintro a l rfl
    refine ((Seg.append_iff.mp hseg).2 a l rfl).congr (fun x hx => hnext x ?_ ?_)
      (fun x hx => hprev x ?_ ?_) hnodup₂
    · exact List.mem_append_right (h :: l₁) hx
    · exact (hdisj _ List.getLastD_mem_cons x hx).symm
    · rcases List.mem_cons.mp hx with rfl | hx
      · exact List.mem_cons_self
      · exact List.mem_append_right (h :: l₁) (List.mem_cons_of_mem a hx)
    · rcases List.mem_cons.mp hx with rfl | hx
      · exact hdisj x List.mem_cons_self a List.mem_cons_self
      · exact ne_of_mem_of_not_mem hx (List.nodup_cons.mp hnodup₂).1
  refine isRing_iff_seg.mpr ⟨hnodup, Seg.append_iff.mpr ⟨?_, ?_⟩⟩
  · refine hseg₁.retarget (fun x hx hxp => hnext x (List.mem_append_left l₂ hx) hxp)
      (fun x hx => hprev x (List.mem_append_left l₂ (List.mem_cons_of_mem h hx)) ?_) hnodup₁ ?_
    · cases l₂ with
      | nil => exact ne_of_mem_of_not_mem hx (List.nodup_cons.mp hnodup₁).1
      | cons b l₂ => exact hdisj x (List.mem_cons_of_mem h hx) b List.mem_cons_self
    · cases m with
      | nil => exact hmid
      | cons a m => exact hmid.1
  · intro a l hal
    cases m with
    | nil => exact hrest a l hal
    | cons b m =>
      obtain ⟨rfl, rfl⟩ := List.cons.inj hal
      exact Seg.append_iff.mpr ⟨hmid.2, hrest⟩

/-- The nodes where a list is split follow each other. -/
theorem IsRing.ends_of_split (hs : s.IsRing h (l₁ ++ l₂)) :
    s.next (l₁.getLastD h) = some (l₂.headD h) ∧ s.prev (l₂.headD h) = some (l₁.getLastD h) :=
  (Seg.append_iff.mp (isRing_iff_seg.mp hs).2).1.last

omit [DecidableEq α] in
theorem ends_mem (h : α) (l₁ l₂ : List α) :
    l₁.getLastD h ∈ h :: (l₁ ++ l₂) ∧ l₂.headD h ∈ h :: (l₁ ++ l₂) := by
  refine ⟨List.mem_append_left l₂ (List.getLastD_mem_cons (l := l₁)), ?_⟩
  cases l₂ <;> simp

/-! ### New nodes -/

/-- A node is linked between two others. -/
theorem IsRing.link (hs : s.IsRing h (l₁ ++ l₂)) (hx : x ∉ h :: (l₁ ++ l₂)) :
    (s.link (l₁.getLastD h) x (l₂.headD h)).IsRing h (l₁ ++ x :: l₂) ∧
      ∀ z, z ∉ x :: h :: (l₁ ++ l₂) →
        (s.link (l₁.getLastD h) x (l₂.headD h)).next z = s.next z ∧
          (s.link (l₁.getLastD h) x (l₂.headD h)).prev z = s.prev z := by
  obtain ⟨hp, hn⟩ := ends_mem h l₁ l₂
  have hne : ∀ y ∈ h :: (l₁ ++ l₂), y ≠ x := fun y hy heq => hx (heq ▸ hy)
  have hnodup : (h :: (l₁ ++ x :: l₂)).Nodup :=
    List.nodup_middle.mpr (List.nodup_cons.mpr ⟨hx, hs.nodup⟩ : (x :: (h :: l₁ ++ l₂)).Nodup)
  refine ⟨IsRing.relink (k := []) (m := [x]) hs hnodup ⟨⟨?_, update_self ..⟩, update_self .., ?_⟩
    (fun y hy hyp => (update_of_ne (hne y hy) ..).trans (update_of_ne hyp ..))
    fun y hy hyn => (update_of_ne (hne y hy) ..).trans (update_of_ne hyn ..), fun z hz => ?_⟩
  · exact (update_of_ne (hne _ hp) ..).trans (update_self ..)
  · exact (update_of_ne (hne _ hn) ..).trans (update_self ..)
  · have hzx := List.ne_of_not_mem_cons hz
    have hz := List.not_mem_of_not_mem_cons hz
    exact ⟨(update_of_ne hzx ..).trans (update_of_ne (ne_of_mem_of_not_mem hp hz).symm ..),
      (update_of_ne hzx ..).trans (update_of_ne (ne_of_mem_of_not_mem hn hz).symm ..)⟩

/-- A new node is linked behind a member. -/
theorem IsRing.insert {a : α} (hs : s.IsRing h l) (ha : a ∈ h :: l) (hx : x ∉ h :: l) (g : γ) :
    ∃ t, s.add x a g = some t ∧ t.IsRing h (insertAfter a x (h :: l)).tail ∧
      t.entry = update s.entry x (some g) ∧
      ∀ y, y ∉ x :: h :: l → t.next y = s.next y ∧ t.prev y = s.prev y := by
  obtain ⟨l₁, l₂, rfl, rfl⟩ : ∃ l₁ l₂, l = l₁ ++ l₂ ∧ l₁.getLastD h = a := by
    rcases List.mem_cons.mp ha with rfl | ha
    · exact ⟨[], l, rfl, rfl⟩
    · obtain ⟨l₁, l₂, rfl⟩ := List.append_of_mem ha
      exact ⟨l₁ ++ [a], l₂, List.append_cons l₁ a l₂, List.getLastD_concat ..⟩
  obtain ⟨hp, hn⟩ := ends_mem h l₁ l₂
  obtain ⟨hring, hframe⟩ := hs.link hx
  refine ⟨{ s.link (l₁.getLastD h) x (l₂.headD h) with entry := update s.entry x (some g) }, ?_, ?_,
    rfl, hframe⟩
  · rw [Links.add, hs.ends_of_split.1, Links.link, update_comm (ne_of_mem_of_not_mem hp hx),
      update_comm (ne_of_mem_of_not_mem hn hx)]
    rfl
  · rw [insertAfter_getLastD hs.nodup]
    exact hring.congr (fun _ _ => rfl) fun _ _ => rfl

/-- A new node becomes the first of the list. -/
theorem IsRing.add (hs : s.IsRing h l) (hx : x ∉ h :: l) (g : γ) :
    ∃ t, s.add x h g = some t ∧ t.IsRing h (x :: l) ∧ t.entry = update s.entry x (some g) ∧
      ∀ y, y ∉ h :: x :: l → t.next y = s.next y ∧ t.prev y = s.prev y := by
  obtain ⟨t, ht, hring, hentry, hframe⟩ := hs.insert List.mem_cons_self hx g
  have htail : (insertAfter h x (h :: l)).tail = x :: l := by
    rw [insertAfter, if_pos rfl, List.tail_cons]
  refine ⟨t, ht, htail ▸ hring, hentry, fun y hy => hframe y ?_⟩
  simp only [List.mem_cons, not_or] at hy ⊢
  exact ⟨hy.2.1, hy.1, hy.2.2⟩

/-- A new node becomes the last of the list. -/
theorem IsRing.addTail (hs : s.IsRing h l) (hx : x ∉ h :: l) (g : γ) :
    ∃ t, s.addTail x h g = some t ∧ t.IsRing h (l ++ [x]) ∧ t.entry = update s.entry x (some g) ∧
      ∀ y, y ∉ h :: x :: l → t.next y = s.next y ∧ t.prev y = s.prev y := by
  rw [← List.append_nil l] at hs hx
  have hpx := ne_of_mem_of_not_mem (ends_mem h l []).1 hx
  have hhx : h ≠ x := fun heq => hx (heq ▸ List.mem_cons_self)
  obtain ⟨hring, hframe⟩ := hs.link hx
  refine ⟨{ s.link (l.getLastD h) x h with entry := update s.entry x (some g) }, ?_,
    hring.congr (fun _ _ => rfl) fun _ _ => rfl, rfl, fun y hy => hframe y ?_⟩
  · rw [Links.addTail, show s.prev h = _ from hs.ends_of_split.2, Links.link, update_comm hpx,
      update_comm hhx]
    rfl
  · simp only [List.append_nil, List.mem_cons, not_or] at hy ⊢
    exact ⟨hy.2.1, hy.1, hy.2.2⟩

/-! ### Nodes that leave -/

theorem IsRing.ne_head (hs : s.IsRing h l) (hx : x ∈ l) : x ≠ h := fun heq =>
  (List.nodup_cons.mp hs.nodup).1 (heq ▸ hx)

/-- A node of the list between its neighbours. -/
theorem IsRing.neighbours (hs : s.IsRing h (l₁ ++ x :: l₂)) :
    s.next x = some (l₂.headD h) ∧ s.prev x = some (l₁.getLastD h) ∧ x ∉ h :: (l₁ ++ l₂) := by
  have hsplit := List.append_cons l₁ x l₂
  have hnext := (hsplit ▸ hs : s.IsRing h ((l₁ ++ [x]) ++ l₂)).ends_of_split.1
  rw [List.getLastD_concat] at hnext
  exact ⟨hnext, hs.ends_of_split.2, (List.nodup_cons.mp (List.nodup_middle.mp hs.nodup :
    (x :: (h :: l₁ ++ l₂)).Nodup)).1⟩

/-- A node of the list is not a list of its own. -/
theorem IsRing.not_empty (hs : s.IsRing h l) (hx : x ∈ l) : s.empty x = false := by
  obtain ⟨l₁, l₂, rfl⟩ := List.append_of_mem hx
  obtain ⟨hnext, -, hnot⟩ := hs.neighbours
  refine decide_eq_false fun heq => hnot ?_
  rw [← Option.some.inj (hnext.symm.trans heq)]
  exact (ends_mem h l₁ l₂).2

/-- A node leaves the list. -/
theorem IsRing.del (hs : s.IsRing h l) (hx : x ∈ l) :
    ∃ t, s.del x = some t ∧ t.IsRing h (l.erase x) ∧ t.entry = s.entry ∧
      ∀ y, y ∉ h :: l → t.next y = s.next y ∧ t.prev y = s.prev y := by
  obtain ⟨l₁, l₂, rfl⟩ := List.append_of_mem hx
  obtain ⟨hnext, hprev, hnot⟩ := hs.neighbours
  obtain ⟨hp, hn⟩ := ends_mem h l₁ l₂
  have hne : ∀ y ∈ h :: (l₁ ++ l₂), y ≠ x := fun y hy heq => hnot (heq ▸ hy)
  have hnodup : (h :: (l₁ ++ l₂)).Nodup :=
    (List.nodup_cons.mp (List.nodup_middle.mp hs.nodup : (x :: (h :: l₁ ++ l₂)).Nodup)).2
  have herase : (l₁ ++ x :: l₂).erase x = l₁ ++ l₂ :=
    erase_split fun hm => hnot (List.mem_cons_of_mem h (List.mem_append_left l₂ hm))
  have hdel : s.del x = some
      { next := update (update s.next (l₁.getLastD h) (some (l₂.headD h))) x none
        prev := update (update s.prev (l₂.headD h) (some (l₁.getLastD h))) x none
        entry := s.entry } := by
    rw [Links.del, hnext, hprev]
    rfl
  refine ⟨_, hdel, ?_, rfl, fun y hy => ?_⟩
  · rw [herase]
    refine IsRing.relink (k := [x]) (m := []) hs hnodup ⟨?_, ?_⟩
      (fun y hy hyp => (update_of_ne (hne y hy) ..).trans (update_of_ne hyp ..))
      fun y hy hyn => (update_of_ne (hne y hy) ..).trans (update_of_ne hyn ..)
    · exact (update_of_ne (hne _ hp) ..).trans (update_self ..)
    · exact (update_of_ne (hne _ hn) ..).trans (update_self ..)
  · have hyx : y ≠ x := (ne_of_mem_of_not_mem (List.mem_cons_of_mem h hx) hy).symm
    have hout : ∀ z ∈ h :: (l₁ ++ l₂), y ≠ z := fun z hz heq => by
      simp only [heq, List.mem_cons, List.mem_append] at hy hz
      tauto
    exact ⟨(update_of_ne hyx ..).trans (update_of_ne (hout _ hp) ..),
      (update_of_ne hyx ..).trans (update_of_ne (hout _ hn) ..)⟩

theorem del_next_self (ht : s.del x = some t) : t.next x = none := by
  obtain ⟨n, -, hn⟩ := Option.bind_eq_some_iff.mp ht
  obtain ⟨p, -, rfl⟩ := Option.map_eq_some_iff.mp hn
  exact update_self ..

/-! ### Replacing a node -/

theorem map_swap_of_notMem {y : α} {L : List α} (hx : x ∉ L) (hy : y ∉ L) :
    L.map (Equiv.swap x y) = L := by
  refine (List.map_congr_left fun a ha => ?_).trans L.map_id
  exact Equiv.swap_apply_of_ne_of_ne (fun heq => hx (heq ▸ ha)) fun heq => hy (heq ▸ ha)

/-- One node takes the place of another in a list. -/
theorem IsRing.replace {y : α} (hs : s.IsRing h l) (hx : x ∈ l) (hy : y ∉ h :: l) :
    ∃ t, s.replace x y = some t ∧ t.IsRing h (l.map (Equiv.swap x y)) ∧ t.entry = s.entry ∧
      ∀ z, z ∉ y :: h :: l → t.next z = s.next z ∧ t.prev z = s.prev z := by
  obtain ⟨l₁, l₂, rfl⟩ := List.append_of_mem hx
  obtain ⟨hnext, hprev, hnot⟩ := hs.neighbours
  obtain ⟨hp, hn⟩ := ends_mem h l₁ l₂
  have hsub : ∀ z ∈ h :: (l₁ ++ l₂), z ∈ h :: (l₁ ++ x :: l₂) := fun z hz => by
    simp only [List.mem_cons, List.mem_append] at hz ⊢
    tauto
  have hne : ∀ z ∈ h :: (l₁ ++ l₂), z ≠ y := fun z hz heq => hy (heq ▸ hsub z hz)
  have hnodup : (x :: (h :: l₁ ++ l₂)).Nodup := List.nodup_middle.mp hs.nodup
  have hmap : (l₁ ++ x :: l₂).map (Equiv.swap x y) = l₁ ++ y :: l₂ := by
    rw [List.map_append, List.map_cons, Equiv.swap_apply_left]
    rw [map_swap_of_notMem (L := l₁), map_swap_of_notMem (L := l₂)] <;> simp_all
  have hrep : s.replace x y = some
      { next := update (update s.next y (some (l₂.headD h))) (l₁.getLastD h) (some y)
        prev := update (update s.prev (l₂.headD h) (some y)) y (some (l₁.getLastD h))
        entry := s.entry } := by
    rw [Links.replace, hnext, Option.bind_some]
    dsimp only
    rw [update_of_ne (ne_of_mem_of_not_mem hn hnot).symm, hprev]
    rfl
  refine ⟨_, hrep, ?_, rfl, fun z hz => ?_⟩
  · rw [hmap]
    refine IsRing.relink (k := [x]) (m := [y]) hs ?_ ⟨⟨update_self .., update_self ..⟩, ?_, ?_⟩
      (fun z hz hzp => (update_of_ne hzp ..).trans (update_of_ne (hne z hz) ..))
      fun z hz hzn => (update_of_ne (hne z hz) ..).trans (update_of_ne hzn ..)
    · exact List.nodup_middle.mpr (List.nodup_cons.mpr ⟨fun hm => hy (hsub y hm),
        (List.nodup_cons.mp hnodup).2⟩ : (y :: (h :: l₁ ++ l₂)).Nodup)
    · exact (update_of_ne (hne _ hp).symm ..).trans (update_self ..)
    · exact (update_of_ne (hne _ hn) ..).trans (update_self ..)
  · have hzy := List.ne_of_not_mem_cons hz
    have hz := List.not_mem_of_not_mem_cons hz
    have hout : ∀ w ∈ h :: (l₁ ++ l₂), z ≠ w := fun w hw heq => hz (heq ▸ hsub w hw)
    exact ⟨(update_of_ne (hout _ hp) ..).trans (update_of_ne hzy ..),
      (update_of_ne hzy ..).trans (update_of_ne (hout _ hn) ..)⟩

theorem replace_entry {y : α} (ht : s.replace x y = some t) : t.entry = s.entry := by
  obtain ⟨n, -, hn⟩ := Option.bind_eq_some_iff.mp ht
  obtain ⟨p, -, rfl⟩ := Option.map_eq_some_iff.mp hn
  rfl

/-- A node that is a list of its own leaves its place to one that becomes such a list. -/
theorem replace_self {y : α} (hnext : s.next x = some x) :
    ∃ t, s.replace x y = some t ∧ t.next y = some y ∧ t.prev y = some y ∧ t.entry = s.entry ∧
      ∀ z, z ≠ x → z ≠ y → t.next z = s.next z ∧ t.prev z = s.prev z := by
  have hrep : s.replace x y = some
      { next := update (update s.next y (some x)) y (some y)
        prev := update (update s.prev x (some y)) y (some y)
        entry := s.entry } := by
    rw [Links.replace, hnext, Option.bind_some]
    dsimp only
    rw [update_self]
    rfl
  refine ⟨_, hrep, update_self .., update_self .., rfl, fun z hzx hzy => ⟨?_, ?_⟩⟩
  · exact (update_of_ne hzy ..).trans (update_of_ne hzy ..)
  · exact (update_of_ne hzy ..).trans (update_of_ne hzx ..)

/-! ### Splicing -/

/-- The members of one list are put into another. -/
theorem IsRing.splice {k : α} {l₁ l₂ m : List α} (hs : s.IsRing h (l₁ ++ l₂)) (hm : s.IsRing k m)
    (hne : m ≠ []) (hapart : ∀ x ∈ h :: (l₁ ++ l₂), x ∉ k :: m) :
    ∃ t, s.splice k (l₁.getLastD h) (l₂.headD h) = some t ∧ t.IsRing h (l₁ ++ (m ++ l₂)) ∧
      t.entry = s.entry ∧
      ∀ y, y ∉ h :: (l₁ ++ (m ++ l₂)) → t.next y = s.next y ∧ t.prev y = s.prev y := by
  have hempty : s.empty k = false := by
    rw [← Bool.not_eq_true, hm.empty_iff]
    exact hne
  obtain ⟨hmnodup, hmseg⟩ := isRing_iff_seg.mp hm
  obtain ⟨f, m, rfl⟩ := List.exists_cons_of_ne_nil hne
  have hlast := hmseg.last.2
  rw [List.getLastD_cons] at hlast
  obtain ⟨hp, hn⟩ := ends_mem h l₁ l₂
  obtain ⟨z, hz⟩ : ∃ z, z = m.getLastD f := ⟨_, rfl⟩
  have hzm : z ∈ f :: m := hz ▸ List.getLastD_mem_cons
  have hnew : ∀ x ∈ h :: (l₁ ++ l₂), ∀ y ∈ f :: m, x ≠ y := fun x hx y hy heq =>
    hapart x hx (heq ▸ List.mem_cons_of_mem k hy)
  have hf : f ∈ f :: m := List.mem_cons_self
  have hmnodup := (List.nodup_cons.mp hmnodup).2
  have hsplice : s.splice k (l₁.getLastD h) (l₂.headD h) = some
      { next := update (update s.next (l₁.getLastD h) (some f)) z (some (l₂.headD h))
        prev := update (update s.prev f (some (l₁.getLastD h))) (l₂.headD h) (some z)
        entry := s.entry } := by
    rw [Links.splice, hempty, hmseg.1.1, hlast, ← hz]
    rfl
  refine ⟨_, hsplice, IsRing.relink (k := []) hs ?_ ⟨⟨?_, ?_⟩, ?_⟩ (fun y hy hyp => ?_)
    fun y hy hyn => ?_, rfl, fun y hy => ?_⟩
  · have hperm : (h :: (l₁ ++ (f :: m ++ l₂))).Perm (f :: m ++ h :: (l₁ ++ l₂)) := by
      simp only [← List.append_assoc, ← List.cons_append]
      exact List.perm_append_comm.append_right l₂
    rw [hperm.nodup_iff]
    exact List.Nodup.append hmnodup hs.nodup fun y hy hx => hnew y hx y hy rfl
  · exact (update_of_ne (hnew _ hp z hzm) ..).trans (update_self ..)
  · exact (update_of_ne (hnew _ hn f hf).symm ..).trans (update_self ..)
  · -- the members themselves
    refine hmseg.2.retarget (fun x hx hxz => ?_) (fun x hx => ?_) hmnodup
      ⟨hz ▸ update_self .., hz ▸ update_self ..⟩
    · exact (update_of_ne (hz ▸ hxz) ..).trans (update_of_ne (hnew _ hp x hx).symm ..)
    · exact (update_of_ne (hnew _ hn x (List.mem_cons_of_mem f hx)).symm ..).trans
        (update_of_ne (ne_of_mem_of_not_mem hx (List.nodup_cons.mp hmnodup).1) ..)
  · exact (update_of_ne (hnew y hy z hzm) ..).trans (update_of_ne hyp ..)
  · exact (update_of_ne hyn ..).trans (update_of_ne (hnew y hy f hf) ..)
  · have hout : ∀ x, x ∈ h :: (l₁ ++ l₂) ∨ x ∈ f :: m → y ≠ x := by
      rintro x hx rfl
      simp only [List.mem_cons, List.mem_append] at hx hy
      tauto
    exact ⟨(update_of_ne (hout z (.inr hzm)) ..).trans (update_of_ne (hout _ (.inl hp)) ..),
      (update_of_ne (hout _ (.inl hn)) ..).trans (update_of_ne (hout f (.inr hf)) ..)⟩

/-! ### Walks -/

variable {node : γ → α} {l : List γ}

/-- A walk over a list whose nodes name their entries, and whose head names none, ends after
all of them. -/
theorem IsRing.walk (hs : s.IsRing h (l.map node)) (hhead : s.entry h = none)
    (hentry : ∀ g ∈ l, s.entry (node g) = some g) :
    ∃ fuel, s.walk node fuel ((s.next h).bind s.entry) = some l := by
  -- from any node on, the walk is over the nodes after it
  have hfrom : ∀ (l₂ : List γ) (l₁ : List α) (a : α), h :: l.map node = l₁ ++ a :: l₂.map node →
      a ∉ l₁ → (∀ g ∈ l₂, s.entry (node g) = some g) →
      s.walk node (l₂.length + 1) ((s.next a).bind s.entry) = some l₂ := by
    intro l₂
    induction l₂ with
    | nil =>
      intro l₁ a hsplit ha _
      have hmem : a ∈ h :: l.map node := hsplit ▸ List.mem_append_right _ List.mem_cons_self
      have hnext : s.next a = some h := by
        rw [hs.next a hmem, hsplit, succ_split ha]
        rfl
      rw [hnext, Option.bind_some, hhead]
      rfl
    | cons g l₂ ih =>
      intro l₁ a hsplit ha hent
      have hmem : a ∈ h :: l.map node := hsplit ▸ List.mem_append_right _ List.mem_cons_self
      have hnext : s.next a = some (node g) := by
        rw [hs.next a hmem, hsplit, succ_split ha]
        rfl
      have hsplit' : h :: l.map node = (l₁ ++ [a]) ++ node g :: l₂.map node := by
        rw [hsplit, List.append_assoc]
        rfl
      have hnew : node g ∉ l₁ ++ [a] := fun hm =>
        (List.nodup_append.mp (hsplit' ▸ hs.nodup)).2.2 _ hm _ List.mem_cons_self rfl
      have hrest := ih (l₁ ++ [a]) (node g) hsplit' hnew fun g' hg' =>
        hent g' (List.mem_cons_of_mem _ hg')
      rw [hnext, Option.bind_some, hent g List.mem_cons_self, List.length_cons, Links.walk, hrest]
      rfl
  exact ⟨_, hfrom l [] h rfl List.not_mem_nil hentry⟩

/-- Over a list whose head names an entry too, no walk ends. -/
theorem IsRing.walk_endless {m : List α} (hs : s.IsRing h m)
    (hentry : ∀ x ∈ h :: m, ∃ g, s.entry x = some g ∧ node g = x) (fuel : ℕ) :
    s.walk node fuel ((s.next h).bind s.entry) = none := by
  have hfrom : ∀ a ∈ h :: m, s.walk node fuel ((s.next a).bind s.entry) = none := by
    induction fuel with
    | zero => exact fun _ _ => rfl
    | succ fuel ih =>
      intro a ha
      obtain ⟨g, hg, hnode⟩ := hentry _ (succ_mem h a m)
      rw [hs.next a ha, Option.bind_some, hg, Links.walk, hnode, ih _ (succ_mem h a m)]
      rfl
  exact hfrom h List.mem_cons_self

end Links

end GfxDrm.Ring
