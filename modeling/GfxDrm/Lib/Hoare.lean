import Mathlib.Data.Int.Notation
import Mathlib.Data.List.Basic

/-! Pre- and postconditions of programs in the state monad. -/

namespace GfxDrm.Hoare

variable {σ α β : Type}

/-- From every state with `P` the program ends in a result and a state with `Q`. -/
def Triple (P : σ → Prop) (m : StateM σ α) (Q : α → σ → Prop) : Prop :=
  ∀ s, P s → Q (m s).1 (m s).2

/-- `I` survives the program, whatever it returns. -/
abbrev Keeps (I : σ → Prop) (m : StateM σ α) : Prop := Triple I m fun _ => I

variable {P P' : σ → Prop} {Q Q' : α → σ → Prop} {R : β → σ → Prop} {I : σ → Prop}
  {m m' : StateM σ α} {k : α → StateM σ β}

theorem Triple.pure {a : α} (h : ∀ s, P s → Q a s) : Triple P (pure a) Q := h

theorem Triple.bind (hm : Triple P m Q) (hk : ∀ a, Triple (Q a) (k a) R) :
    Triple P (m >>= k) R := fun s hs => hk _ _ (hm s hs)

theorem Triple.modify {f : σ → σ} {Q : PUnit → σ → Prop} (h : ∀ s, P s → Q ⟨⟩ (f s)) :
    Triple P (modify f : StateM σ PUnit) Q := h

/-! ### Running a program -/

theorem run_bind (m : StateM σ α) (k : α → StateM σ β) (s : σ) :
    (m >>= k) s = k (m s).1 (m s).2 := rfl

theorem run_pure (a : α) (s : σ) : (Pure.pure a : StateM σ α) s = (a, s) := rfl

theorem run_get (s : σ) : (MonadState.get : StateM σ σ) s = (s, s) := rfl

theorem run_get_bind (k : σ → StateM σ β) (s : σ) :
    ((MonadState.get : StateM σ σ) >>= k) s = k s s := rfl

theorem run_ite {c : Prop} [Decidable c] (m m' : StateM σ α) (s : σ) :
    (if c then m else m') s = if c then m s else m' s := by
  split <;> rfl

/-- The state after a change of the state. -/
theorem run_modify (f : σ → σ) (s : σ) : ((modify f : StateM σ PUnit) s).2 = f s := rfl

theorem Triple.conseq (h : Triple P m Q) (hP : ∀ s, P' s → P s)
    (hQ : ∀ a s, Q a s → Q' a s) : Triple P' m Q' :=
  fun s hs => hQ _ _ (h s (hP s hs))

theorem Triple.post (h : Triple P m Q) (hQ : ∀ a s, Q a s → Q' a s) : Triple P m Q' :=
  h.conseq (fun _ => id) hQ

theorem Triple.pre (h : Triple P m Q) (hP : ∀ s, P' s → P s) : Triple P' m Q :=
  h.conseq hP fun _ _ => id

theorem Triple.ite {c : Prop} [Decidable c] (ht : c → Triple P m Q)
    (he : ¬c → Triple P m' Q) : Triple P (if c then m else m') Q := by
  split
  · exact ht ‹_›
  · exact he ‹_›

theorem Triple.discard {Q : σ → Prop} (h : Triple P m fun _ => Q) :
    Triple P (Functor.discard m) fun _ => Q := h

theorem Keeps.pure {a : α} : Keeps I (pure a : StateM σ α) := fun _ => id

theorem Keeps.bind (hm : Keeps I m) (hk : ∀ a, Keeps I (k a)) : Keeps I (m >>= k) :=
  Triple.bind hm hk

theorem Keeps.get : Keeps I (MonadState.get : StateM σ σ) := fun _ => id

theorem Keeps.modify {f : σ → σ} (h : ∀ s, I s → I (f s)) :
    Keeps I (modify f : StateM σ PUnit) := h

theorem Keeps.forM {l : List α} {f : α → StateM σ PUnit} (h : ∀ a ∈ l, Keeps I (f a)) :
    Keeps I (l.forM f) := by
  induction l with
  | nil => exact Keeps.pure
  | cons a l ih =>
    have hl : Keeps I (l.forM f) := ih fun b hb => h b (List.mem_cons_of_mem _ hb)
    exact (h a List.mem_cons_self).bind fun _ => hl

/-! ### What a program leaves alone -/

/-- The state before and the state after are related by `R`, a preorder that says what has
stayed as it was. -/
def Frame (R : σ → σ → Prop) (m : StateM σ α) : Prop := ∀ s, R s (m s).2

namespace Frame

variable {R : σ → σ → Prop}

theorem ite {c : Prop} [Decidable c] (ht : Frame R m) (he : Frame R m') :
    Frame R (if c then m else m') := by
  split
  · exact ht
  · exact he

variable [IsPreorder σ R]

theorem pure {a : α} : Frame R (Pure.pure a : StateM σ α) := refl_of R

theorem get : Frame R (MonadState.get : StateM σ σ) := refl_of R

theorem bind (hm : Frame R m) (hk : ∀ a, Frame R (k a)) : Frame R (m >>= k) :=
  fun s => trans_of R (hm s) (hk _ _)

theorem forM {l : List α} {f : α → StateM σ PUnit} (h : ∀ a ∈ l, Frame R (f a)) :
    Frame R (l.forM f) := by
  induction l with
  | nil => exact pure
  | cons a l ih =>
    have hl : Frame R (l.forM f) := ih fun b hb => h b (List.mem_cons_of_mem _ hb)
    exact bind (h a List.mem_cons_self) fun _ => hl

theorem foldl (R : σ → σ → Prop) [IsPreorder σ R] {f : σ → α → σ}
    (h : ∀ s a, R s (f s a)) (l : List α) (s : σ) : R s (l.foldl f s) := by
  induction l generalizing s with
  | nil => exact refl_of R s
  | cons a l ih => exact trans_of R (h s a) (ih _)

end Frame

/-! ### Steps that may fail -/

/-- The steps in turn up to the first that does not return 0. -/
def carry : List (StateM σ ℤ) → StateM σ ℤ
  | [] => Pure.pure 0
  | m :: l => do
    let ret ← m
    if ret ≠ 0 then Pure.pure ret else carry l

theorem carry_cons (m : StateM σ ℤ) (l : List (StateM σ ℤ)) (s : σ) :
    carry (m :: l) s = if (m s).1 ≠ 0 then m s else carry l (m s).2 := by
  rw [carry, run_bind]
  split <;> rfl

theorem carry_one (m : StateM σ ℤ) : carry [m] = m := by
  funext s
  rw [carry_cons]
  split
  case isTrue => rfl
  case isFalse h0 => exact Prod.ext (Eq.symm (not_not.mp h0)) rfl

theorem carry_append (l l' : List (StateM σ ℤ)) :
    carry (l ++ l') = (do
      let ret ← carry l
      if ret ≠ 0 then Pure.pure ret else carry l') := by
  induction l with
  | nil => rfl
  | cons m l ih =>
    funext s
    rw [List.cons_append, carry_cons, ih, run_bind (carry (m :: l)), carry_cons m l]
    by_cases hm : (m s).1 = 0
    · rw [if_neg (not_not.mpr hm), if_neg (not_not.mpr hm), run_bind]
    · rw [if_pos hm, if_pos hm, if_pos hm]
      rfl

/-- A call that fails leaves a state with `E`, one that returns 0 a state with `Q`. -/
structure Returns (E Q : σ → Prop) (r : ℤ × σ) : Prop where
  fails : r.1 ≠ 0 → E r.2
  succeeds : r.1 = 0 → Q r.2

namespace Returns

variable {E E' Q Q' : σ → Prop} {r : ℤ × σ} {m k : StateM σ ℤ} {s : σ} {ret : ℤ}

theorem ok (h : Q s) : Returns E Q (0, s) := ⟨fun h0 => absurd rfl h0, fun _ => h⟩

theorem error (hret : ret ≠ 0) (h : E s) : Returns E Q (ret, s) :=
  ⟨fun _ => h, fun h0 => absurd h0 hret⟩

theorem imp (h : Returns E Q r) (he : ∀ t, E t → E' t) (hq : ∀ t, Q t → Q' t) :
    Returns E' Q' r :=
  ⟨fun h0 => he _ (h.fails h0), fun h0 => hq _ (h.succeeds h0)⟩

theorem state (h : Returns Q Q r) : Q r.2 :=
  (em (r.1 = 0)).elim h.succeeds h.fails

/-- An error found before the rest. -/
theorem ite (h : ret ≠ 0 → E s) (hr : ret = 0 → Returns E Q r) :
    Returns E Q (if ret ≠ 0 then (ret, s) else r) := by
  split
  case isTrue h0 => exact .error h0 (h h0)
  case isFalse h0 => exact hr (not_not.mp h0)

theorem guard (h : ret ≠ 0 → E s) (hk : ret = 0 → Returns E Q (k s)) :
    Returns E Q ((if ret ≠ 0 then Pure.pure ret else k) s) := by
  rw [run_ite]
  exact .ite h hk

/-- A call whose error is passed on. -/
theorem check (hm : Returns E Q (m s)) (hk : ∀ t, Q t → Returns E Q' (k t)) :
    Returns E Q' ((m >>= fun ret => if ret ≠ 0 then Pure.pure ret else k) s) := by
  rw [run_bind, run_ite]
  split
  case isTrue h0 => exact .error h0 (hm.fails h0)
  case isFalse h0 => exact hk _ (hm.succeeds (not_not.mp h0))

end Returns

end GfxDrm.Hoare
