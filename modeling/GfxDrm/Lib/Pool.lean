import Mathlib.Algebra.Order.BigOperators.Group.List
import Mathlib.Algebra.Order.Ring.Nat

/-! A pool of running threads, each of which holds so much of every resource. -/

namespace GfxDrm.Pool

variable {τ ρ : Type*} (hold : τ → ρ → ℕ)

/-- What all threads of the pool hold together. -/
def total (pool : List τ) (r : ρ) : ℕ := (pool.map fun t => hold t r).sum

/-- The pool without thread `i`. -/
def others (pool : List τ) (i : ℕ) : List τ := pool.take i ++ pool.drop (i + 1)

/-- Thread `i` moves on to `t`, or ends. -/
def moveOn (pool : List τ) (i : ℕ) (t : Option τ) : List τ :=
  pool.take i ++ t.toList ++ pool.drop (i + 1)

variable {hold} {pool : List τ} {i : ℕ} {t u : τ} {r : ρ}

@[simp] theorem total_nil : total hold [] r = 0 := rfl

@[simp] theorem total_cons : total hold (t :: pool) r = hold t r + total hold pool r := by
  simp [total]

theorem total_append (pool pool' : List τ) :
    total hold (pool ++ pool') r = total hold pool r + total hold pool' r := by
  simp [total]

theorem le_total (h : t ∈ pool) : hold t r ≤ total hold pool r :=
  List.le_sum_of_mem (List.mem_map.mpr ⟨t, h, rfl⟩)

theorem total_eq_zero : total hold pool r = 0 ↔ ∀ t ∈ pool, hold t r = 0 := by
  simp [total, List.sum_eq_zero_iff_forall_eq_nat]

theorem total_perm {pool' : List τ} (h : pool.Perm pool') (r : ρ) :
    total hold pool r = total hold pool' r := (h.map _).sum_eq

theorem perm_others (h : pool[i]? = some t) : pool.Perm (t :: others pool i) := by
  obtain ⟨hi, ht⟩ := List.getElem?_eq_some_iff.mp h
  have hs : pool = pool.take i ++ t :: pool.drop (i + 1) := by
    rw [← ht, List.getElem_cons_drop, List.take_append_drop]
  conv_lhs => rw [hs]
  exact List.perm_middle

theorem moveOn_perm (pool : List τ) (i : ℕ) (t : Option τ) :
    (moveOn pool i t).Perm (t.toList ++ others pool i) := by
  cases t with
  | none => simp [moveOn, others]
  | some u =>
    rw [moveOn, List.append_assoc]
    exact List.perm_middle

theorem countP_moveOn (f : τ → Bool) (h : pool[i]? = some t) (t' : Option τ) :
    (moveOn pool i t').countP f + (f t).toNat = pool.countP f + t'.toList.countP f := by
  rw [(moveOn_perm pool i t').countP_eq, (perm_others h).countP_eq, List.countP_cons]
  cases f t <;> simp <;> omega

theorem countP_filterMap_moveOn {β : Type*} (k : τ → Option β) (f : β → Bool)
    (h : pool[i]? = some t) (t' : Option τ) :
    ((moveOn pool i t').filterMap k).countP f + (k t).toList.countP f =
      (pool.filterMap k).countP f + (t'.bind k).toList.countP f := by
  rw [((moveOn_perm pool i t').filterMap k).countP_eq, ((perm_others h).filterMap k).countP_eq,
    List.filterMap_append, List.countP_append]
  have hhead : (t'.toList.filterMap k) = (t'.bind k).toList := by
    cases t' with
    | none => rfl
    | some u => cases hu : k u <;> simp [hu]
  rw [hhead]
  cases ht : k t with
  | none =>
    rw [List.filterMap_cons_none ht]
    simp [Nat.add_comm]
  | some x =>
    rw [List.filterMap_cons_some ht, List.countP_cons]
    simp only [Option.toList_some, List.countP_singleton]
    omega

theorem mem_moveOn (h : pool[i]? = some t) {t' : Option τ} (hu : u ∈ moveOn pool i t') :
    u ∈ pool ∨ t' = some u := by
  have hm := (moveOn_perm pool i t').subset hu
  rw [List.mem_append, Option.mem_toList] at hm
  rcases hm with hm | hm
  · exact .inr hm
  · exact .inl ((perm_others h).symm.subset (List.mem_cons_of_mem _ hm))

theorem mem_of_others (h : pool[i]? = some t) (hu : u ∈ others pool i) : u ∈ pool :=
  (perm_others h).symm.subset (List.mem_cons_of_mem _ hu)

theorem mem_others (h : pool[i]? = some t) (hu : u ∈ pool) (hne : u ≠ t) : u ∈ others pool i :=
  (List.mem_cons.mp ((perm_others h).subset hu)).resolve_left hne

theorem mem_moveOn_iff {t' : Option τ} : u ∈ moveOn pool i t' ↔ t' = some u ∨ u ∈ others pool i := by
  rw [(moveOn_perm pool i t').mem_iff, List.mem_append, Option.mem_toList]

/-- Where keys are different, no other thread has the key of thread `i`. -/
theorem key_ne_of_others {κ : Type*} {k : τ → Option κ} (h : pool[i]? = some t)
    (hn : (pool.filterMap k).Nodup) {x : κ} (hx : k t = some x) (hu : u ∈ others pool i) :
    k u ≠ some x := by
  intro hux
  rw [((perm_others h).filterMap k).nodup_iff, List.filterMap_cons_some hx,
    List.nodup_cons] at hn
  exact hn.1 (List.mem_filterMap.mpr ⟨u, hu, hux⟩)

/-- Keys stay different when the thread that moves keeps its key, drops it or takes a new
one. -/
theorem nodup_filterMap_moveOn {κ : Type*} {k : τ → Option κ} (h : pool[i]? = some t)
    (hn : (pool.filterMap k).Nodup) {t' : Option τ}
    (hk : ∀ u ∈ t', ∀ x, k u = some x → k t = some x ∨ ∀ v ∈ pool, k v ≠ some x) :
    ((moveOn pool i t').filterMap k).Nodup := by
  rw [((moveOn_perm pool i t').filterMap k).nodup_iff]
  have hothers : ((others pool i).filterMap k).Nodup := by
    rw [((perm_others h).filterMap k).nodup_iff] at hn
    exact hn.sublist ((List.sublist_cons_self t _).filterMap k)
  cases t' with
  | none => exact hothers
  | some u =>
    rw [Option.toList_some, List.singleton_append]
    cases hu : k u with
    | none =>
      rw [List.filterMap_cons_none hu]
      exact hothers
    | some x =>
      rw [List.filterMap_cons_some hu, List.nodup_cons]
      refine ⟨fun hx => ?_, hothers⟩
      obtain ⟨v, hv, hvx⟩ := List.mem_filterMap.mp hx
      rcases hk u rfl x hu with ht | hfresh
      · exact key_ne_of_others h hn ht hv hvx
      · exact hfresh v (mem_of_others h hv) hvx

theorem set_perm (hi : i < pool.length) (t : τ) : (pool.set i t).Perm (t :: others pool i) := by
  rw [List.set_eq_take_append_cons_drop, if_pos hi]
  exact List.perm_middle

end GfxDrm.Pool
