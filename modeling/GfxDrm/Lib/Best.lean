import Mathlib.Data.List.Basic
import Mathlib.Order.Lattice

/-! Searches through a list that keep the first best candidate they meet. -/

namespace GfxDrm.Best

variable {α β γ σ ι : Type*}

section improve
variable [LinearOrder β] (key : α → β) (err : σ → β) (put : α → σ)

/-- One turn of the search: a candidate that is strictly better than what there is replaces it. -/
def improve (s : σ) (a : α) : σ :=
  if key a < err s then put a else s

/-- Nothing in the list was better, or the search ends with a best one of the list. -/
theorem foldl_improve (hput : ∀ a, err (put a) = key a) (l : List α) (s : σ) :
    (l.foldl (improve key err put) s = s ∧ ∀ a ∈ l, err s ≤ key a) ∨
      ∃ a ∈ l, l.foldl (improve key err put) s = put a ∧ key a < err s ∧
        ∀ b ∈ l, key a ≤ key b := by
  induction l generalizing s with
  | nil => exact .inl ⟨rfl, fun a ha => (List.not_mem_nil ha).elim⟩
  | cons c l ih =>
    rw [List.foldl_cons, improve]
    by_cases hc : key c < err s
    · rw [if_pos hc]
      right
      obtain ⟨hstay, hle⟩ | ⟨a, ha, hbest, hlt, hle⟩ := ih (put c)
      · refine ⟨c, List.mem_cons_self, hstay, hc, fun b hb => ?_⟩
        obtain rfl | hb := List.mem_cons.mp hb
        · exact le_rfl
        · exact hput c ▸ hle b hb
      · rw [hput] at hlt
        refine ⟨a, List.mem_cons_of_mem _ ha, hbest, hlt.trans hc, fun b hb => ?_⟩
        obtain rfl | hb := List.mem_cons.mp hb
        · exact hlt.le
        · exact hle b hb
    · rw [if_neg hc]
      obtain ⟨hstay, hle⟩ | ⟨a, ha, hbest, hlt, hle⟩ := ih s
      · refine .inl ⟨hstay, fun b hb => ?_⟩
        obtain rfl | hb := List.mem_cons.mp hb
        · exact not_lt.mp hc
        · exact hle b hb
      · refine .inr ⟨a, List.mem_cons_of_mem _ ha, hbest, hlt, fun b hb => ?_⟩
        obtain rfl | hb := List.mem_cons.mp hb
        · exact (hlt.trans_le (not_lt.mp hc)).le
        · exact hle b hb

end improve

/-! ### Loops -/

/-- A loop of loops is a loop over all that they go through. -/
theorem foldlM_flatMap (l : List α) (f : α → List γ) (g : σ → γ → Option σ) (s : σ) :
    (l.flatMap f).foldlM g s = l.foldlM (fun s a => (f a).foldlM g s) s := by
  induction l generalizing s with
  | nil => rfl
  | cons a l ih =>
    rw [List.flatMap_cons, List.foldlM_append]
    exact congrArg _ (funext fun s => ih s)

variable {l : List α}

theorem foldlM_congr {g g' : σ → α → Option σ} (h : ∀ a ∈ l, ∀ s, g s a = g' s a) (s : σ) :
    l.foldlM g s = l.foldlM g' s := by
  induction l generalizing s with
  | nil => rfl
  | cons a l ih =>
    rw [List.foldlM_cons, h a List.mem_cons_self]
    exact congrArg _ (funext fun s => ih (fun b hb => h b (List.mem_cons_of_mem a hb)) s)

/-- A loop with a round that fails whatever it is at. -/
theorem foldlM_eq_none {g : σ → α → Option σ} {a : α} (ha : a ∈ l) (h : ∀ s, g s a = none) (s : σ) :
    l.foldlM g s = none := by
  induction l generalizing s with
  | nil => exact absurd ha List.not_mem_nil
  | cons b l ih =>
    rw [List.foldlM_cons]
    obtain rfl | ha := List.mem_cons.mp ha
    · rw [h]
      rfl
    · cases g s b with
      | none => rfl
      | some s' => exact ih ha s'

/-- A loop whose body does not fail while `I` holds, which it keeps. -/
theorem foldlM_eq_foldl {g : σ → α → Option σ} {f : σ → α → σ} (I : σ → Prop)
    (h : ∀ s, I s → ∀ a ∈ l, g s a = some (f s a) ∧ I (f s a)) {s : σ} (hs : I s) :
    l.foldlM g s = some (l.foldl f s) ∧ I (l.foldl f s) := by
  induction l generalizing s with
  | nil => exact ⟨rfl, hs⟩
  | cons a l ih =>
    obtain ⟨hg, hI⟩ := h s hs a List.mem_cons_self
    rw [List.foldlM_cons, hg]
    exact ih (fun s hs b hb => h s hs b (List.mem_cons_of_mem a hb)) hI

section traps
variable {f : α → Option γ} {g : σ → γ → σ} {l : List α}

/-- A loop whose body first works something out, which may trap. -/
theorem foldlM_map_eq_none_iff (s : σ) :
    l.foldlM (fun s a => (f a).map (g s)) s = none ↔ ∃ a ∈ l, f a = none := by
  induction l generalizing s with
  | nil => simp
  | cons a l ih =>
    rw [List.foldlM_cons]
    cases ha : f a with
    | none => exact iff_of_true rfl ⟨a, List.mem_cons_self, ha⟩
    | some c =>
      refine (ih (g s c)).trans ⟨fun ⟨b, hb, h⟩ => ⟨b, List.mem_cons_of_mem _ hb, h⟩, ?_⟩
      rintro ⟨b, hb, h⟩
      obtain rfl | hb := List.mem_cons.mp hb
      · exact absurd (ha.symm.trans h) (by simp)
      · exact ⟨b, hb, h⟩

theorem foldlM_map_eq_some {s s' : σ} (h : l.foldlM (fun s a => (f a).map (g s)) s = some s') :
    s' = (l.filterMap f).foldl g s := by
  induction l generalizing s with
  | nil => exact (Option.some.inj h).symm
  | cons a l ih =>
    rw [List.foldlM_cons] at h
    cases ha : f a with
    | none =>
      rw [ha] at h
      cases h
    | some c =>
      rw [ha] at h
      rw [List.filterMap_cons_some ha]
      exact ih h

/-- A search through what is worked out: nothing that is `ok` was better, or it ends with a best
one of them. -/
theorem foldlM_improve [LinearOrder β] (key : γ → β) (err : σ → β) (put : γ → σ)
    (hput : ∀ c, err (put c) = key c) (ok : γ → Prop) [DecidablePred ok] {s s' : σ}
    (h : l.foldlM (fun s a => (f a).map fun c =>
      if ok c then improve key err put s c else s) s = some s') :
    (s' = s ∧ ∀ c ∈ l.filterMap f, ok c → err s ≤ key c) ∨
      ∃ c ∈ l.filterMap f, ok c ∧ s' = put c ∧ key c < err s ∧
        ∀ b ∈ l.filterMap f, ok b → key c ≤ key b := by
  have hfold := foldlM_map_eq_some h
  have hfilter := @List.foldl_filter _ _ (fun c => decide (ok c)) (improve key err put)
    (l.filterMap f) s
  simp only [decide_eq_true_eq] at hfilter
  rw [← hfilter] at hfold
  have hmem {c : γ} (hc : c ∈ l.filterMap f) (hok : ok c) :
      c ∈ (l.filterMap f).filter fun c => decide (ok c) :=
    List.mem_filter.mpr ⟨hc, decide_eq_true hok⟩
  obtain ⟨hstay, hle⟩ | ⟨c, hc, hbest, hlt, hle⟩ := foldl_improve key err put hput
    ((l.filterMap f).filter fun c => decide (ok c)) s
  · exact .inl ⟨hfold.trans hstay, fun c hc hok => hle c (hmem hc hok)⟩
  · obtain ⟨hc, hok⟩ := List.mem_filter.mp hc
    exact .inr ⟨c, hc, of_decide_eq_true hok, hfold.trans hbest, hlt,
      fun b hb hok => hle b (hmem hb hok)⟩

end traps

/-- A loop over values that go one way and that is left at the first one out of bounds. -/
theorem mem_takeWhile {r : ι → ι → Prop} {p : ι → Bool} {l : List ι} (hl : l.Pairwise r)
    (hp : ∀ a b, r a b → p b → p a) {x : ι} : x ∈ l.takeWhile p ↔ x ∈ l ∧ p x := by
  induction l with
  | nil => simp
  | cons a l ih =>
    obtain ⟨ha, hl⟩ := List.pairwise_cons.mp hl
    by_cases hpa : p a
    · rw [List.takeWhile_cons_of_pos hpa, List.mem_cons, List.mem_cons, ih hl]
      constructor
      · rintro (rfl | h)
        · exact ⟨.inl rfl, hpa⟩
        · exact ⟨.inr h.1, h.2⟩
      · rintro ⟨rfl | h, hx⟩
        · exact .inl rfl
        · exact .inr ⟨h, hx⟩
    · rw [List.takeWhile_cons_of_neg hpa]
      refine iff_of_false List.not_mem_nil ?_
      rintro ⟨hx, hpx⟩
      obtain rfl | hx := List.mem_cons.mp hx
      · exact hpa hpx
      · exact hpa (hp a x (ha x hx) hpx)

/-- A loop over candidates, of which a state says which ones it has dealt with. -/
theorem foldl_covers {Inv : (α → Prop) → σ → Prop} {f : σ → α → σ} (l : List α)
    (hstep : ∀ P s, ∀ a ∈ l, Inv P s → Inv (fun b => P b ∨ b = a) (f s a)) {P : α → Prop} {s : σ}
    (h : Inv P s) : Inv (fun b => P b ∨ b ∈ l) (l.foldl f s) := by
  induction l generalizing P s with
  | nil => simpa using h
  | cons a l ih =>
    have hl := ih (fun P s b hb => hstep P s b (List.mem_cons_of_mem a hb))
      (hstep P s a List.mem_cons_self h)
    simpa only [List.foldl_cons, List.mem_cons, or_assoc] using hl

section prefer
variable [LinearOrder β] (within : α → Prop) [DecidablePred within] (dist quality : α → β)

/-- One turn of a search with a tolerance: out of it the nearer candidate is kept, within it the
one of the higher quality. -/
def prefer (best c : α) : α :=
  if within c then
    if within best then if quality best < quality c then c else best else c
  else if within best then best else if dist c < dist best then c else best

/-- The best of the candidates in `P`: of the highest quality within the tolerance if one is, else
the nearest. -/
structure Preferred (P : α → Prop) (a : α) : Prop where
  mem : P a
  within_of : ∀ c, P c → within c → within a ∧ quality c ≤ quality a
  nearest : (∀ c, P c → ¬ within c) → ∀ c, P c → dist a ≤ dist c

variable {within dist quality}

omit [DecidablePred within] in
theorem Preferred.single {P : α → Prop} {a : α} (ha : P a) (h : ∀ b, P b → b = a) :
    Preferred within dist quality P a where
  mem := ha
  within_of b hb hw := by
    rw [h b hb] at hw ⊢
    exact ⟨hw, le_rfl⟩
  nearest _ b hb := by rw [h b hb]

/-- The criterion changes with the first candidate within the tolerance; from then on none out of
it is kept. -/
theorem Preferred.prefer {P : α → Prop} {best : α} (h : Preferred within dist quality P best)
    (c : α) : Preferred within dist quality (fun b => P b ∨ b = c)
      (prefer within dist quality best c) := by
  unfold Best.prefer
  by_cases hc : within c
  · rw [if_pos hc]
    by_cases hb : within best
    · rw [if_pos hb]
      by_cases hq : quality best < quality c
      · rw [if_pos hq]
        refine ⟨.inr rfl, ?_, fun hnone => absurd hc (hnone c (.inr rfl))⟩
        rintro b (hPb | rfl) hwb
        · exact ⟨hc, (h.within_of b hPb hwb).2.trans hq.le⟩
        · exact ⟨hc, le_rfl⟩
      · rw [if_neg hq]
        refine ⟨.inl h.mem, ?_, fun hnone => absurd hc (hnone c (.inr rfl))⟩
        rintro b (hPb | rfl) hwb
        · exact h.within_of b hPb hwb
        · exact ⟨hb, not_lt.mp hq⟩
    · -- None of the candidates before was within the tolerance.
      rw [if_neg hb]
      refine ⟨.inr rfl, ?_, fun hnone => absurd hc (hnone c (.inr rfl))⟩
      rintro b (hPb | rfl) hwb
      · exact absurd (h.within_of b hPb hwb).1 hb
      · exact ⟨hc, le_rfl⟩
  · rw [if_neg hc]
    by_cases hb : within best
    · rw [if_pos hb]
      refine ⟨.inl h.mem, ?_, fun hnone => absurd hb (hnone best (.inl h.mem))⟩
      rintro b (hPb | rfl) hwb
      · exact h.within_of b hPb hwb
      · exact absurd hwb hc
    · rw [if_neg hb]
      have hnone (b : α) (hPb : P b) : ¬ within b := fun hwb => hb (h.within_of b hPb hwb).1
      by_cases hd : dist c < dist best
      · rw [if_pos hd]
        refine ⟨.inr rfl, ?_, ?_⟩
        · rintro b (hPb | rfl) hwb
          · exact absurd hwb (hnone b hPb)
          · exact absurd hwb hc
        · rintro - b (hPb | rfl)
          · exact hd.le.trans (h.nearest hnone b hPb)
          · exact le_rfl
      · rw [if_neg hd]
        refine ⟨.inl h.mem, ?_, ?_⟩
        · rintro b (hPb | rfl) hwb
          · exact absurd hwb (hnone b hPb)
          · exact absurd hwb hc
        · rintro - b (hPb | rfl)
          · exact h.nearest hnone b hPb
          · exact not_lt.mp hd

end prefer

/-- What a search finds comes before all else that it could have found. -/
theorem find?_first {r : α → α → Prop} {p : α → Bool} (hl : l.Pairwise r) {a : α}
    (h : l.find? p = some a) : ∀ b ∈ l, p b → b = a ∨ r a b := by
  obtain ⟨-, before, after, rfl, hbefore⟩ := List.find?_eq_some_iff_append.mp h
  intro b hb hpb
  obtain hb | hb := List.mem_append.mp hb
  · exact absurd hpb (by simpa using hbefore b hb)
  · have hafter := (List.pairwise_append.mp hl).2.1
    exact (List.mem_cons.mp hb).imp_right ((List.pairwise_cons.mp hafter).1 b)

end GfxDrm.Best
