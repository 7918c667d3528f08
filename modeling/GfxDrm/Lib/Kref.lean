import Mathlib.Algebra.BigOperators.Group.Finset.Basic
import Mathlib.Data.Fintype.Basic

/-! Reference counts. An object is freed by the put that brings its count to zero; a get or a put
of an object that is not there is a fault. -/

namespace GfxDrm.Kref

variable {ι β : Type*} [DecidableEq β]

/-! ### Pointers -/

/-- Whether a pointer points to `b`, as a number. -/
def points (o : Option β) (b : β) : ℕ := if o = some b then 1 else 0

@[simp] theorem points_none (b : β) : points none b = 0 := rfl
@[simp] theorem points_self (b : β) : points (some b) b = 1 := if_pos rfl

variable {o : Option β}

theorem points_of_ne {b : β} (h : o ≠ some b) : points o b = 0 := if_neg h

theorem points_some_of_ne {b b' : β} (h : b' ≠ b) : points (some b) b' = 0 :=
  if_neg fun he => h (Option.some.inj he).symm

theorem points_pos {b : β} : 0 < points o b ↔ o = some b := by
  unfold points
  split <;> simp [*]

/-- How many of the pointers in `s` point to `b`. -/
def pointers (s : Finset ι) (p : ι → Option β) (b : β) : ℕ := (s.filter fun i => p i = some b).card

theorem pointers_pos {s : Finset ι} {p : ι → Option β} {b : β} :
    0 < pointers s p b ↔ ∃ i ∈ s, p i = some b := by
  rw [pointers, Finset.card_pos, Finset.filter_nonempty_iff]

theorem pointers_congr {s : Finset ι} {p q : ι → Option β} (h : ∀ i ∈ s, p i = q i) (b : β) :
    pointers s p b = pointers s q b := by
  refine congrArg Finset.card (Finset.filter_congr fun i hi => ?_)
  rw [h i hi]

theorem pointers_univ {n : ℕ} (p : Fin n → Option β) (b : β) :
    pointers Finset.univ p b = ((List.finRange n).map p).count (some b) := by
  rw [List.count, List.countP_map, List.countP_eq_length_filter]
  refine congrArg List.length (List.filter_congr fun i _ => ?_)
  rw [Bool.eq_iff_iff]
  simp

variable {γ : Type*}

/-- One element more of a list points to one more. -/
theorem countP_cons_points (f : γ → β) (w : γ) (l : List γ) (b : β) :
    ((w :: l).countP fun v => decide (f v = b)) =
      (l.countP fun v => decide (f v = b)) + points (some (f w)) b := by
  rw [List.countP_cons, points]
  simp

theorem countP_erase_points [BEq γ] [LawfulBEq γ] (f : γ → β) {w : γ} {l : List γ} (hw : w ∈ l)
    (b : β) :
    ((l.erase w).countP fun v => decide (f v = b)) + points (some (f w)) b =
      l.countP fun v => decide (f v = b) := by
  rw [← countP_cons_points]
  exact ((List.perm_cons_erase hw).countP_eq _).symm

variable [DecidableEq ι] {s : Finset ι} {p : ι → Option β} {i : ι}

theorem pointers_insert (hi : i ∉ s) (b : β) :
    pointers (insert i s) p b = pointers s p b + points (p i) b := by
  unfold pointers points
  rw [Finset.filter_insert]
  split
  · rw [Finset.card_insert_of_notMem fun h => hi (Finset.mem_filter.mp h).1]
  · rfl

theorem pointers_erase (hi : i ∈ s) (b : β) :
    pointers (s.erase i) p b + points (p i) b = pointers s p b := by
  rw [← pointers_insert (Finset.notMem_erase i s), Finset.insert_erase hi]

theorem pointers_update (hi : i ∈ s) (v : Option β) (b : β) :
    pointers s (Function.update p i v) b + points (p i) b = pointers s p b + points v b := by
  have hrest : pointers (s.erase i) (Function.update p i v) b = pointers (s.erase i) p b := by
    refine pointers_congr (fun j hj => ?_) b
    rw [Function.update_of_ne (Finset.ne_of_mem_erase hj)]
  rw [← pointers_erase (p := Function.update p i v) hi, ← pointers_erase (p := p) hi, Function.update_self]
  omega

/-- How often the lists of `s` have `b`. -/
def listed {γ : Type*} [BEq γ] (s : Finset ι) (l : ι → List γ) (b : γ) : ℕ :=
  ∑ i ∈ s, (l i).count b

omit [DecidableEq β] [DecidableEq ι] in
@[simp] theorem listed_nil [BEq γ] (s : Finset ι) (b : γ) :
    listed s (fun _ => []) b = 0 := by
  simp [listed]

omit [DecidableEq β] in
theorem listed_update [BEq γ] {l : ι → List γ} (hi : i ∈ s) (v : List γ) (b : γ) :
    listed s (Function.update l i v) b + (l i).count b = listed s l b + v.count b := by
  unfold listed
  rw [← Finset.add_sum_erase s _ hi, ← Finset.add_sum_erase s (fun j => (l j).count b) hi,
    Function.update_self]
  have hrest : ∑ j ∈ s.erase i, (Function.update l i v j).count b =
      ∑ j ∈ s.erase i, (l j).count b := by
    refine Finset.sum_congr rfl fun j hj => ?_
    rw [Function.update_of_ne (Finset.ne_of_mem_erase hj)]
  omega

omit [DecidableEq β] in
theorem listed_insert [BEq γ] {l : ι → List γ} (hi : i ∉ s) (v : List γ) (b : γ) :
    listed (insert i s) (Function.update l i v) b = listed s l b + v.count b := by
  unfold listed
  rw [Finset.sum_insert hi, Function.update_self, Nat.add_comm]
  refine congrArg (· + v.count b) (Finset.sum_congr rfl fun j hj => ?_)
  rw [Function.update_of_ne (ne_of_mem_of_not_mem hj hi)]

/-! ### Counts -/

/-- The objects there are with their counts. -/
structure Counts (β : Type*) where
  alive : β → Bool := fun _ => false
  count : β → ℕ := fun _ => 0
  fault : Bool := false

/-- A new object with one reference. -/
def Counts.new (c : Counts β) (b : β) : Counts β :=
  { c with alive := Function.update c.alive b true, count := Function.update c.count b 1 }

def Counts.get (c : Counts β) (b : β) : Counts β :=
  { c with count := Function.update c.count b (c.count b + 1), fault := c.fault || !c.alive b }

def Counts.put (c : Counts β) (b : β) : Counts β where
  alive := if c.count b - 1 = 0 then Function.update c.alive b false else c.alive
  count := Function.update c.count b (c.count b - 1)
  fault := c.fault || !c.alive b

/-- A put through a pointer. -/
def Counts.putPtr (c : Counts β) : Option β → Counts β
  | none => { c with fault := true }
  | some b => c.put b

/-- `if (p) get(p)`. -/
def Counts.getIf (c : Counts β) : Option β → Counts β
  | none => c
  | some b => c.get b

/-- `if (p) put(p)`. -/
def Counts.putIf (c : Counts β) : Option β → Counts β
  | none => c
  | some b => c.put b

/-- The counts are right for the references `refs`: what is there is referenced, and as often as
its count says. -/
structure Balanced (c : Counts β) (refs : β → ℕ) : Prop where
  alive : ∀ b, c.alive b = true ↔ 0 < refs b
  count : ∀ b, c.alive b = true → c.count b = refs b
  fault : c.fault = false

namespace Balanced

variable {c : Counts β} {refs refs' : β → ℕ} {b : β}

omit [DecidableEq β] in
theorem congr (h : Balanced c refs) (he : ∀ x, refs' x = refs x) : Balanced c refs' := by
  rwa [show refs' = refs from funext he]

theorem new (h : Balanced c refs) (hb : c.alive b = false)
    (he : ∀ x, refs' x = refs x + points (some b) x) : Balanced (c.new b) refs' := by
  have hzero : refs b = 0 := by
    have := (h.alive b).not.mp (by simp [hb])
    omega
  refine ⟨fun x => ?_, fun x hx => ?_, h.fault⟩ <;> rw [he] <;> unfold Counts.new at * <;>
    dsimp only at *
  · by_cases hxb : x = b
    · subst hxb
      simp
    · rw [Function.update_of_ne hxb, points_some_of_ne hxb, h.alive]
      rfl
  · by_cases hxb : x = b
    · subst hxb
      simp [hzero]
    · rw [Function.update_of_ne hxb] at hx ⊢
      rw [points_some_of_ne hxb, h.count x hx]
      rfl

theorem get (h : Balanced c refs) (hb : 0 < refs b)
    (he : ∀ x, refs' x = refs x + points (some b) x) : Balanced (c.get b) refs' := by
  have halive := (h.alive b).mpr hb
  refine ⟨fun x => ?_, fun x hx => ?_, ?_⟩
  · rw [he]
    show c.alive x = true ↔ _
    by_cases hxb : x = b
    · subst hxb
      simp [halive]
    · rw [points_some_of_ne hxb, h.alive]
      rfl
  · rw [he]
    show Function.update c.count b (c.count b + 1) x = _
    by_cases hxb : x = b
    · subst hxb
      rw [Function.update_self, points_self, h.count x halive]
    · rw [Function.update_of_ne hxb, points_some_of_ne hxb, h.count x hx]
      rfl
  · show (c.fault || !c.alive b) = false
    rw [h.fault, halive]
    rfl

theorem put (h : Balanced c refs) (he : ∀ x, refs x = refs' x + points (some b) x) :
    Balanced (c.put b) refs' := by
  have hb := he b
  rw [points_self] at hb
  have halive := (h.alive b).mpr (by omega)
  have hcount := h.count b halive
  have hother : ∀ x, x ≠ b → refs x = refs' x := by
    intro x hx
    rw [he x, points_some_of_ne hx, Nat.add_zero]
  refine ⟨fun x => ?_, fun x hx => ?_, ?_⟩ <;> unfold Counts.put at * <;> dsimp only at *
  · by_cases hxb : x = b
    · subst hxb
      split
      · rw [Function.update_self]
        simp only [Bool.false_eq_true, false_iff]
        omega
      · rw [halive]
        simp only [true_iff]
        omega
    · rw [← hother x hxb, ← h.alive]
      split
      · rw [Function.update_of_ne hxb]
      · rfl
  · by_cases hxb : x = b
    · subst hxb
      rw [Function.update_self]
      omega
    · rw [Function.update_of_ne hxb, ← hother x hxb]
      refine h.count x ?_
      split at hx
      · rwa [Function.update_of_ne hxb] at hx
      · exact hx
  · rw [h.fault, halive]
    rfl

/-- Dropping the reference a pointer holds. -/
theorem putPtr (h : Balanced c refs) (ho : o ≠ none) (he : ∀ x, refs x = refs' x + points o x) :
    Balanced (c.putPtr o) refs' := by
  cases o with
  | none => exact absurd rfl ho
  | some b => exact h.put he

theorem getIf (h : Balanced c refs) (ho : ∀ b, o = some b → 0 < refs b)
    (he : ∀ x, refs' x = refs x + points o x) : Balanced (c.getIf o) refs' := by
  cases o with
  | none => exact h.congr he
  | some b => exact h.get (ho b rfl) he

theorem putIf (h : Balanced c refs) (he : ∀ x, refs x = refs' x + points o x) :
    Balanced (c.putIf o) refs' := by
  cases o with
  | none => exact h.congr fun x => (he x).symm
  | some b => exact h.put he

/-- Dropping what each of a list of pointers holds. -/
theorem putAll {l : List (Option β)} (h : Balanced c refs)
    (he : ∀ x, refs x = refs' x + l.count (some x)) : Balanced (l.foldl Counts.putIf c) refs' := by
  induction l generalizing c refs with
  | nil => exact h.congr fun x => (he x).symm
  | cons o l ih =>
    have hput : Balanced (c.putIf o) fun x => refs' x + l.count (some x) := by
      refine h.putIf fun x => ?_
      rw [he x, List.count_cons, points, Nat.add_assoc]
      simp only [beq_iff_eq]
    exact ih hput fun _ => rfl

/-- Each pointer of a list changes from the second of a pair to the first. Where it is a new one,
what it points to is held besides. -/
theorem swapAll {l : List (Option β × Option β)} {base : β → ℕ}
    (h : Balanced c fun x => base x + (l.map Prod.snd).count (some x))
    (hnew : ∀ p ∈ l, ∀ b, p.1 = some b → p.2 = some b ∨ 0 < base b) :
    Balanced (l.foldl (fun c p => (c.getIf p.1).putIf p.2) c)
      fun x => base x + (l.map Prod.fst).count (some x) := by
  induction l generalizing c base with
  | nil => exact h
  | cons p l ih =>
    obtain ⟨new, old⟩ := p
    have hcount (o : Option β) (x : β) : (o :: l.map Prod.snd).count (some x) =
        (l.map Prod.snd).count (some x) + points o x := by
      rw [List.count_cons, points]
      simp only [beq_iff_eq]
    have hget : Balanced (c.getIf new) fun x =>
        base x + (old :: l.map Prod.snd).count (some x) + points new x := by
      refine h.getIf (fun b hb => ?_) fun _ => rfl
      show 0 < base b + (old :: l.map Prod.snd).count (some b)
      rw [hcount]
      obtain hold | hbase := hnew (new, old) (List.mem_cons_self ..) b hb
      · have hold : old = some b := hold
        rw [hold, points_self]
        omega
      · omega
    have hput : Balanced ((c.getIf new).putIf old) fun x =>
        base x + points new x + (l.map Prod.snd).count (some x) := by
      refine hget.putIf fun x => ?_
      rw [hcount]
      omega
    refine (ih hput fun q hq b hb => ?_).congr fun x => ?_
    · exact (hnew q (List.mem_cons_of_mem _ hq) b hb).imp_right fun hbase => by omega
    · show base x + (new :: l.map Prod.fst).count (some x) = _
      rw [List.count_cons, points]
      simp only [beq_iff_eq]
      omega

omit [DecidableEq β] in
theorem init (he : ∀ x, refs x = 0) : Balanced ({} : Counts β) refs :=
  ⟨fun b => by simp [he b], fun _ hb => (Bool.false_ne_true hb).elim, rfl⟩

end Balanced

end GfxDrm.Kref
