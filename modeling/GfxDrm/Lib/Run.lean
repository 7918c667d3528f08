import Mathlib.Order.Nat
import Mathlib.Data.List.Basic

namespace GfxDrm

/-- One of the tries `i` to `n` ends with `P`, after tries that end with `Q` only. -/
def FirstAfter (P Q : ℕ → Prop) (i n : ℕ) : Prop :=
  ∃ m < n, i ≤ m ∧ P m ∧ ∀ l < m, i ≤ l → Q l

instance (P Q : ℕ → Prop) [DecidablePred P] [DecidablePred Q] (i n : ℕ) :
    Decidable (FirstAfter P Q i n) :=
  inferInstanceAs (Decidable (∃ m < n, _))

namespace FirstAfter

variable {P Q : ℕ → Prop} {i n : ℕ}

theorem not_of_le (h : n ≤ i) : ¬ FirstAfter P Q i n := by
  rintro ⟨m, hm, him, -⟩
  exact absurd (hm.trans_le h) (not_lt.mpr him)

/-- The first try ends it or makes room for the others. -/
theorem iff_or (h : i < n) :
    FirstAfter P Q i n ↔ P i ∨ Q i ∧ FirstAfter P Q (i + 1) n := by
  constructor
  · rintro ⟨m, hm, him, hP, hQ⟩
    rcases him.eq_or_lt with rfl | him
    · exact .inl hP
    · exact .inr ⟨hQ i him le_rfl, m, hm, him, hP, fun l hl hil => hQ l hl (Nat.le_of_lt hil)⟩
  · rintro (hP | ⟨hi, m, hm, him, hP, hQ⟩)
    · exact ⟨i, h, le_rfl, hP, fun l hl hil => absurd hl (not_lt.mpr hil)⟩
    · refine ⟨m, hm, Nat.le_of_lt him, hP, fun l hl hil => ?_⟩
      rcases hil.eq_or_lt with rfl | hil
      · exact hi
      · exact hQ l hl hil

end FirstAfter

end GfxDrm

namespace GfxDrm.Run

/-- A transition system: where it may start and what one action may do. -/
structure System (σ α : Type*) where
  init : σ → Prop
  step : σ → α → σ → Prop

variable {σ α : Type*} {S : System σ α} {guard guard' : σ → α → Prop} {I J : σ → Prop}

/-- The states at the end of a run all of whose steps meet `guard`. -/
inductive ReachWhile (S : System σ α) (guard : σ → α → Prop) : σ → Prop
  | init {s : σ} (h : S.init s) : ReachWhile S guard s
  | step {s s' : σ} {a : α} (h : ReachWhile S guard s) (hg : guard s a)
      (hs : S.step s a s') : ReachWhile S guard s'

/-- The states at the end of any run. -/
abbrev Reach (S : System σ α) : σ → Prop := ReachWhile S fun _ _ => True

theorem ReachWhile.mono (hmono : ∀ s a, guard s a → guard' s a) {s : σ}
    (h : ReachWhile S guard s) : ReachWhile S guard' s := by
  induction h with
  | init h => exact .init h
  | step _ hg hs ih => exact .step ih (hmono _ _ hg) hs

theorem ReachWhile.reach {s : σ} (h : ReachWhile S guard s) : Reach S s :=
  h.mono fun _ _ _ => trivial

/-- What holds at the start and survives every guarded step holds at the end of every
guarded run. -/
theorem ReachWhile.invariant (hinit : ∀ s, S.init s → I s)
    (hstep : ∀ s a s', I s → guard s a → S.step s a s' → I s') {s : σ}
    (h : ReachWhile S guard s) : I s := by
  induction h with
  | init h => exact hinit _ h
  | step _ hg hs ih => exact hstep _ _ _ ih hg hs

/-- An invariant already known may be used in the step that establishes the next one. -/
theorem ReachWhile.invariant_of (hI : ∀ s, ReachWhile S guard s → I s)
    (hinit : ∀ s, S.init s → J s)
    (hstep : ∀ s a s', I s → J s → guard s a → S.step s a s' → J s') {s : σ}
    (h : ReachWhile S guard s) : J s := by
  induction h with
  | init h => exact hinit _ h
  | step h hg hs ih => exact hstep _ _ _ (hI _ h) ih hg hs

/-- The system a partial step function defines. -/
def System.ofStep (init : σ → Prop) (step : σ → α → Option σ) : System σ α where
  init := init
  step s a s' := step s a = some s'

/-- The run of a list of actions, as long as all of them are allowed. -/
def exec (step : σ → α → Option σ) (allowed : σ → α → Bool) : σ → List α → Option σ
  | s, [] => some s
  | s, a :: l => if allowed s a then (step s a).bind fun s' => exec step allowed s' l else none

/-- A computed run of a system that has its steps ends in a reachable state. -/
theorem ReachWhile.of_exec_steps {step : σ → α → Option σ} {allowed : σ → α → Bool}
    (hstep : ∀ s a s', allowed s a = true → step s a = some s' → guard s a ∧ S.step s a s')
    {s s' : σ} {l : List α} (hs : ReachWhile S guard s) (h : exec step allowed s l = some s') :
    ReachWhile S guard s' := by
  induction l generalizing s with
  | nil =>
    cases h
    exact hs
  | cons a l ih =>
    unfold exec at h
    split at h
    · rename_i ha
      obtain ⟨t, ht, hl⟩ := Option.bind_eq_some_iff.mp h
      obtain ⟨hg, hst⟩ := hstep s a t ha ht
      exact ih (hs.step hg hst) hl
    · simp at h

theorem ReachWhile.of_exec {init : σ → Prop} {step : σ → α → Option σ} {allowed : σ → α → Bool}
    {s s' : σ} {l : List α}
    (hs : ReachWhile (System.ofStep init step) (fun s a => allowed s a = true) s)
    (h : exec step allowed s l = some s') :
    ReachWhile (System.ofStep init step) (fun s a => allowed s a = true) s' :=
  hs.of_exec_steps (fun _ _ _ ha hs => ⟨ha, hs⟩) h

/-- A computed run ends in a reachable state. -/
theorem ReachWhile.of_exec_any {init : σ → Prop} {step : σ → α → Option σ}
    {allowed : σ → α → Bool} {s : σ} {l : List α} {p : σ → Bool}
    (hs : ReachWhile (System.ofStep init step) (fun s a => allowed s a = true) s)
    (h : (exec step allowed s l).any p = true) :
    ∃ s', ReachWhile (System.ofStep init step) (fun s a => allowed s a = true) s' ∧
      p s' = true := by
  obtain ⟨s', hs', hp⟩ := Option.any_eq_true _ _ |>.mp h
  exact ⟨s', hs.of_exec hs', hp⟩

/-! ### Computed runs of a total step function -/

/-- Every action of the list is allowed when its turn comes. -/
def AllAllowed (allowed : σ → α → Prop) (apply : σ → α → σ) : List α → σ → Prop
  | [], _ => True
  | a :: l, s => allowed s a ∧ AllAllowed allowed apply l (apply s a)

instance decidableAllAllowed (allowed : σ → α → Prop) (apply : σ → α → σ)
    [∀ s a, Decidable (allowed s a)] :
    (l : List α) → (s : σ) → Decidable (AllAllowed allowed apply l s)
  | [], _ => inferInstanceAs (Decidable True)
  | a :: l, s =>
    have := decidableAllAllowed allowed apply l (apply s a)
    inferInstanceAs (Decidable (_ ∧ _))

theorem ReachWhile.foldl (allowed : σ → α → Prop) {apply : σ → α → σ}
    (hstep : ∀ s a, allowed s a → guard s a ∧ S.step s a (apply s a)) (l : List α) {s : σ}
    (hs : ReachWhile S guard s) (h : AllAllowed allowed apply l s) :
    ReachWhile S guard (l.foldl apply s) := by
  induction l generalizing s with
  | nil => exact hs
  | cons a l ih =>
    obtain ⟨hg, hs'⟩ := hstep s a h.1
    exact ih (hs.step hg hs') h.2

end GfxDrm.Run
