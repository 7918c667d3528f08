import Mathlib.Algebra.Order.Group.Nat
import GfxDrm.Idr.Defs

/-! The range list is a partition of the ids, whatever is inserted, taken and put back. -/

namespace GfxDrm.Idr

/-- Ids stay below this one. -/
abbrev idEnd : ℕ := 0x7fffffff

/-- One range accounts for its ids: below `minUnused` each is either free or used. -/
structure RangeOk (used : ℕ → Prop) (r : IdrFreeIdRange) : Prop where
  start_le : r.start ≤ r.minUnused
  min_le : r.minUnused ≤ r.stop
  free_nodup : r.freeIds.Nodup
  below_min : ∀ id, r.start ≤ id ∧ id < r.minUnused ↔
    id ∈ r.freeIds ∨ used id ∧ r.start ≤ id ∧ id < r.stop
  free_unused : ∀ id ∈ r.freeIds, ¬ used id

/-- Ranges in order, each starting where the one before it ends; only the last may be
empty. -/
def Contiguous : ℕ → List IdrFreeIdRange → Prop
  | s, [] => s = idEnd
  | s, r :: rs => r.start = s ∧ (r.start < r.stop ∨ rs = []) ∧ Contiguous r.stop rs

variable {used used' : ℕ → Prop} {r r' : IdrFreeIdRange} {rs : List IdrFreeIdRange} {s id : ℕ}

namespace RangeOk

theorem start_le_stop (h : RangeOk used r) : r.start ≤ r.stop := h.start_le.trans h.min_le

theorem free_range (h : RangeOk used r) (hid : id ∈ r.freeIds) : r.start ≤ id ∧ id < r.minUnused :=
  (h.below_min id).mpr (.inl hid)

theorem used_lt_min (h : RangeOk used r) (hu : used id) (hs : r.start ≤ id) (he : id < r.stop) :
    id < r.minUnused :=
  ((h.below_min id).mpr (.inr ⟨hu, hs, he⟩)).2

/-- A range only cares about the used ids inside it. -/
theorem congr (h : RangeOk used r) (hc : ∀ id, r.start ≤ id → id < r.stop → (used id ↔ used' id)) :
    RangeOk used' r where
  start_le := h.start_le
  min_le := h.min_le
  free_nodup := h.free_nodup
  below_min id := by
    rw [h.below_min id]
    exact or_congr_right (and_congr_left fun hb => hc id hb.1 hb.2)
  free_unused id hid hu := by
    obtain ⟨hs, hm⟩ := h.free_range hid
    exact h.free_unused id hid ((hc id hs (hm.trans_le h.min_le)).mpr hu)

end RangeOk

/-- A partition whose ranges account for the used ids. -/
structure Partition (used : ℕ → Prop) (s : ℕ) (rs : List IdrFreeIdRange) : Prop where
  contiguous : Contiguous s rs
  ok : ∀ r ∈ rs, RangeOk used r

namespace Partition

theorem tail (h : Partition used s (r :: rs)) : Partition used r.stop rs :=
  ⟨h.contiguous.2.2, fun r' hr => h.ok r' (List.mem_cons_of_mem _ hr)⟩

theorem bounds (h : Partition used s rs) : ∀ r ∈ rs, s ≤ r.start ∧ r.stop ≤ idEnd := by
  induction rs generalizing s with
  | nil => simp
  | cons a rs ih =>
    have ha := (h.ok a (by simp)).start_le_stop
    have hs : a.start = s := h.contiguous.1
    have hend : a.stop ≤ idEnd := by
      cases rs with
      | nil => exact le_of_eq h.contiguous.2.2
      | cons b rs =>
        have hb := ih h.tail b (by simp)
        have hb' := (h.ok b (by simp)).start_le_stop
        omega
    intro r hr
    rcases List.mem_cons.mp hr with rfl | hr
    · exact ⟨hs.ge, hend⟩
    · have hr' := ih h.tail r hr
      omega

theorem nonempty (h : Partition used s rs) (hs : s < idEnd) : rs ≠ [] := by
  rintro rfl
  exact absurd h.contiguous (by unfold Contiguous; omega)

/-- Changing one range, and the used ids inside it only, keeps a partition. -/
theorem replace {l₁ l₂ : List IdrFreeIdRange} (h : Partition used s (l₁ ++ r :: l₂))
    (hs : r'.start = r.start) (he : r'.stop = r.stop) (hr : RangeOk used' r')
    (hout : ∀ id, ¬ (r.start ≤ id ∧ id < r.stop) → (used id ↔ used' id)) :
    Partition used' s (l₁ ++ r' :: l₂) := by
  induction l₁ generalizing s with
  | nil =>
    obtain ⟨hc, hne, hrest⟩ := h.contiguous
    refine ⟨⟨hs.trans hc, by rwa [hs, he], he ▸ hrest⟩, ?_⟩
    intro a ha
    rcases List.mem_cons.mp ha with rfl | ha
    · exact hr
    · have hb := (h.tail.bounds a ha).1
      exact (h.ok a (List.mem_cons_of_mem _ ha)).congr fun id h1 _ => hout id (by omega)
  | cons b l₁ ih =>
    obtain ⟨hc, hne, hrest⟩ := h.contiguous
    have hi := ih h.tail
    have hb := (h.tail.bounds r (by simp)).1
    refine ⟨⟨hc, hne.imp_right fun e => absurd e (by simp), hi.contiguous⟩, ?_⟩
    intro a ha
    rcases List.mem_cons.mp ha with rfl | ha
    · exact (h.ok a (by simp)).congr fun id _ h2 => hout id (by omega)
    · exact hi.ok a ha

/-- Every id lies in a range. -/
theorem exists_range (h : Partition used s rs) (hs : s ≤ id) (hid : id < idEnd) :
    ∃ r ∈ rs, r.start ≤ id ∧ id < r.stop := by
  induction rs generalizing s with
  | nil =>
    have hc : s = idEnd := h.contiguous
    omega
  | cons a rs ih =>
    have ha : a.start = s := h.contiguous.1
    rcases Nat.lt_or_ge id a.stop with hlt | hge
    · exact ⟨a, by simp, by omega, hlt⟩
    · obtain ⟨r, hr, hb⟩ := ih h.tail hge
      exact ⟨r, List.mem_cons_of_mem _ hr, hb⟩

end Partition

/-! ### Splitting a range -/

theorem contiguous_head (h : Contiguous r.stop rs) :
    (rs.head?.map IdrFreeIdRange.start).getD idEnd = r.stop := by
  cases rs with
  | nil => exact Eq.symm h
  | cons b rs => exact h.1

/-- The two halves of a range cut at `start`. -/
theorem frSplit_eq (hc : Contiguous r.stop rs) (start : ℕ) : ∃ p n, frSplit r start rs = p :: n :: rs ∧
    p.start = r.start ∧ p.stop = start ∧ n.start = start ∧ n.stop = r.stop ∧
    (start ≤ r.minUnused → p.minUnused = start ∧ n.minUnused = r.minUnused ∧
      p.freeIds = r.freeIds.filter (fun id => decide (id < start)) ∧
      n.freeIds = (r.freeIds.filter fun id => decide (start ≤ id)).reverse) ∧
    (r.minUnused < start → p.minUnused = r.minUnused ∧ n.minUnused = start ∧
      p.freeIds = r.freeIds ∧ n.freeIds = []) := by
  have hstop := contiguous_head hc
  by_cases hfull : start ≤ r.minUnused
  · have hf : frIsFull { r with stop := start } = true := decide_eq_true hfull
    exact ⟨_, _, if_pos hf, rfl, rfl, rfl, hstop, fun _ => ⟨rfl, rfl, rfl, rfl⟩,
      fun hlt => absurd hlt (by omega)⟩
  · have hf : ¬ frIsFull { r with stop := start } = true := by simpa [frIsFull] using hfull
    exact ⟨_, _, if_neg hf, rfl, rfl, rfl, hstop, fun hle => absurd hle hfull,
      fun _ => ⟨rfl, rfl, rfl, rfl⟩⟩

variable {start : ℕ}

theorem Partition.frSplit (h : Partition used s (r :: rs)) (hs : s < start) (he : start ≤ r.stop)
    (hlast : start = r.stop → rs = []) :
    Partition used s (frSplit r start rs) := by
  obtain ⟨hc, hne, hrest⟩ := h.contiguous
  have hr := h.ok r (by simp)
  have hmin := hr.min_le
  have hsr := hr.start_le
  obtain ⟨p, n, heq, hps, hpe, hns, hne', hfull, hpart⟩ := frSplit_eq hrest start
  rw [heq]
  refine ⟨⟨hps.trans hc, .inl (by omega), hns.trans hpe.symm, ?_, hne' ▸ hrest⟩, ?_⟩
  · rcases he.lt_or_eq with hlt | heq
    · exact .inl (by omega)
    · exact .inr (hlast heq)
  have hbelow := hr.below_min
  have hpn : RangeOk used p ∧ RangeOk used n := by
    rcases Nat.lt_or_ge r.minUnused start with hlt | hge
    · obtain ⟨hpm, hnm, hpf, hnf⟩ := hpart hlt
      constructor
      · refine ⟨by omega, by omega, hpf ▸ hr.free_nodup, fun id => ?_, hpf ▸ hr.free_unused⟩
        have := hbelow id
        rw [hps, hpm, hpf, this]
        constructor
        · rintro (hf | hu)
          · exact .inl hf
          · have := this.mpr (.inr hu)
            exact .inr ⟨hu.1, hu.2.1, by omega⟩
        · rintro (hf | hu)
          · exact .inl hf
          · exact .inr ⟨hu.1, hu.2.1, by omega⟩
      · refine ⟨by omega, by omega, by simp [hnf], fun id => ?_, by simp [hnf]⟩
        rw [hnf, hne']
        constructor
        · omega
        · rintro (hf | ⟨hu, h1, h2⟩)
          · simp at hf
          · have := hr.used_lt_min hu (by omega) h2
            omega
    · obtain ⟨hpm, hnm, hpf, hnf⟩ := hfull hge
      constructor
      · refine ⟨by omega, by omega, hpf ▸ hr.free_nodup.filter _, fun id => ?_, fun id hid => ?_⟩
        · have := hbelow id
          rw [hps, hpm, hpf, hpe, List.mem_filter, decide_eq_true_eq]
          constructor
          · rintro ⟨h1, h2⟩
            exact (this.mp ⟨h1, by omega⟩).imp (fun hf => ⟨hf, h2⟩) fun hu => ⟨hu.1, h1, h2⟩
          · rintro (⟨hf, h2⟩ | ⟨hu, h1, h2⟩)
            · exact ⟨(this.mpr (.inl hf)).1, h2⟩
            · exact ⟨h1, h2⟩
        · exact hr.free_unused id (List.mem_filter.mp (hpf ▸ hid)).1
      · refine ⟨by omega, by omega, ?_, fun id => ?_, fun id hid => ?_⟩
        · rw [hnf]
          exact List.nodup_reverse.mpr (hr.free_nodup.filter _)
        · have := hbelow id
          rw [hns, hnm, hnf, hne', List.mem_reverse, List.mem_filter, decide_eq_true_eq]
          constructor
          · rintro ⟨h1, h2⟩
            exact (this.mp ⟨by omega, h2⟩).imp (fun hf => ⟨hf, h1⟩) fun hu => ⟨hu.1, h1, hu.2.2⟩
          · rintro (⟨hf, h1⟩ | ⟨hu, h1, h2⟩)
            · exact ⟨h1, (this.mpr (.inl hf)).2⟩
            · exact ⟨h1, hr.used_lt_min hu (by omega) h2⟩
        · rw [hnf, List.mem_reverse, List.mem_filter] at hid
          exact hr.free_unused id hid.1
  intro a ha
  rcases List.mem_cons.mp ha with rfl | ha
  · exact hpn.1
  rcases List.mem_cons.mp ha with rfl | ha
  · exact hpn.2
  · exact h.ok a (List.mem_cons_of_mem _ ha)

theorem Partition.frInsert (h : Partition used s rs) (hs : s < start) (he : start ≤ idEnd)
    (hnew : ∀ r ∈ rs, r.start ≠ start) :
    Partition used s (frInsert rs start) ∧ ∃ r ∈ frInsert rs start, r.start = start := by
  induction rs generalizing s with
  | nil =>
    have hc : s = idEnd := h.contiguous
    omega
  | cons prev rest ih =>
    cases rest with
    | nil =>
      have hstop : prev.stop = idEnd := h.contiguous.2.2
      obtain ⟨p, n, heq, -, -, hn, -⟩ := frSplit_eq h.contiguous.2.2 start
      refine ⟨h.frSplit hs (hstop ▸ he) fun _ => rfl, n, ?_, hn⟩
      rw [GfxDrm.frInsert, heq]
      simp
    | cons next rest =>
      have hnext : next.start = prev.stop := h.contiguous.2.2.1
      have hne := hnew next (by simp)
      unfold GfxDrm.frInsert
      split
      · rename_i hlt
        obtain ⟨hp, r, hr, hrs⟩ := ih h.tail (hnext ▸ hlt) fun r hr =>
          hnew r (List.mem_cons_of_mem _ hr)
        have hpos : prev.start < prev.stop := h.contiguous.2.1.resolve_right (by simp)
        refine ⟨⟨⟨h.contiguous.1, .inl hpos, hp.contiguous⟩, ?_⟩, r,
          List.mem_cons_of_mem _ hr, hrs⟩
        intro a ha
        rcases List.mem_cons.mp ha with rfl | ha
        · exact h.ok a (by simp)
        · exact hp.ok a ha
      · rename_i hge
        obtain ⟨p, n, heq, -, -, hn, -⟩ := frSplit_eq h.contiguous.2.2 start
        refine ⟨h.frSplit hs (by omega) (fun e => by omega), n, ?_, hn⟩
        rw [heq]
        simp

/-- After the lookup there is a range that starts at `start`. -/
theorem Partition.rangesFrom (h : Partition used 0 rs) (he : start ≤ idEnd) :
    Partition used 0 (rangesFrom rs start) ∧ ∃ r ∈ rangesFrom rs start, r.start = start := by
  unfold GfxDrm.rangesFrom frGet
  split
  · rename_i hget
    obtain ⟨r, hr⟩ := Option.isSome_iff_exists.mp hget
    exact ⟨h, r, List.mem_of_find?_eq_some hr, by simpa using List.find?_some hr⟩
  · rename_i hget
    have hnew : ∀ r ∈ rs, r.start ≠ start := by simpa using hget
    obtain ⟨a, l, rfl⟩ := List.exists_cons_of_ne_nil (h.nonempty (by decide))
    have ha : a.start = 0 := h.contiguous.1
    have hpos : 0 < start := Nat.pos_of_ne_zero fun e => hnew a (by simp) (ha.trans e.symm)
    exact h.frInsert hpos he hnew

/-! ### Taking an id out of a range, and putting it back -/

theorem RangeOk.getFreeId (h : RangeOk used r) (hget : idrGetFreeIdInRange r = some (id, r')) :
    ¬ used id ∧ r.start ≤ id ∧ id < r.stop ∧ r'.start = r.start ∧ r'.stop = r.stop ∧
      RangeOk (fun i => i = id ∨ used i) r' := by
  have hmin := h.min_le
  have hsm := h.start_le
  have hbelow := h.below_min
  unfold idrGetFreeIdInRange at hget
  split at hget
  · rename_i i next hfree
    simp only [Option.some.injEq, Prod.mk.injEq] at hget
    obtain ⟨rfl, rfl⟩ := hget
    have hi : i ∈ r.freeIds := by simp [hfree]
    obtain ⟨hsi, him⟩ := h.free_range hi
    have hnd := h.free_nodup
    rw [hfree] at hnd
    refine ⟨h.free_unused i hi, hsi, by omega, rfl, rfl, hsm, hmin, (List.nodup_cons.mp hnd).2,
      fun j => ?_, fun j hj => ?_⟩
    · rw [hbelow j, hfree, List.mem_cons]
      constructor
      · rintro ((rfl | hj) | hu)
        · exact .inr ⟨.inl rfl, hsi, him.trans_le hmin⟩
        · exact .inl hj
        · exact .inr ⟨.inr hu.1, hu.2⟩
      · rintro (hj | ⟨rfl | hu, hb⟩)
        · exact .inl (.inr hj)
        · exact .inl (.inl rfl)
        · exact .inr ⟨hu, hb⟩
    · rintro (rfl | hu)
      · exact (List.nodup_cons.mp hnd).1 hj
      · exact h.free_unused j (hfree ▸ List.mem_cons_of_mem _ hj) hu
  · rename_i hfree
    split at hget
    · simp at hget
    rename_i hfull
    have hlt : r.minUnused < r.stop := by simpa [frIsFull] using hfull
    obtain ⟨rfl, rfl⟩ := hget
    have hnu : ¬ used r.minUnused := fun hu => absurd (h.used_lt_min hu hsm hlt) (lt_irrefl _)
    refine ⟨hnu, hsm, hlt, rfl, rfl, by dsimp only; omega, by dsimp only; omega, h.free_nodup,
      fun j => ?_, fun j hj => ?_⟩
    · have hj := hbelow j
      rw [hfree] at hj ⊢
      simp only [List.not_mem_nil, false_or] at hj ⊢
      constructor
      · rintro ⟨h1, h2⟩
        rcases Nat.lt_or_ge j r.minUnused with hlt' | hge
        · exact ⟨.inr (hj.mp ⟨h1, hlt'⟩).1, h1, by omega⟩
        · exact ⟨.inl (by omega), h1, by omega⟩
      · rintro ⟨rfl | hu, h1, h2⟩
        · omega
        · have := (hj.mpr ⟨hu, h1, h2⟩).2
          omega
    · exact absurd hj (by simp [hfree])

theorem RangeOk.full (h : RangeOk used r) (hget : idrGetFreeIdInRange r = none) (hs : r.start ≤ id)
    (he : id < r.stop) : used id := by
  unfold idrGetFreeIdInRange at hget
  split at hget
  · simp at hget
  · rename_i hfree
    split at hget
    · rename_i hfull
      have hle : r.stop ≤ r.minUnused := of_decide_eq_true hfull
      have hid := (h.below_min id).mp ⟨hs, by omega⟩
      rw [hfree] at hid
      exact (hid.resolve_left (by simp)).1
    · simp at hget

theorem getFreeId_some {rs' : List IdrFreeIdRange} (h : getFreeId rs = some (id, rs')) :
    ∃ l₁ r l₂ r', rs = l₁ ++ r :: l₂ ∧ rs' = l₁ ++ r' :: l₂ ∧
      idrGetFreeIdInRange r = some (id, r') := by
  induction rs generalizing rs' with
  | nil => simp [getFreeId] at h
  | cons a rs ih =>
    unfold getFreeId at h
    split at h
    · rename_i i a' hget
      obtain ⟨rfl, rfl⟩ := h
      exact ⟨[], a, rs, a', rfl, rfl, hget⟩
    · obtain ⟨p, hp, he⟩ := Option.map_eq_some_iff.mp h
      obtain ⟨rfl, rfl⟩ := he
      obtain ⟨l₁, r, l₂, r', rfl, hp2, hget⟩ := ih hp
      exact ⟨a :: l₁, r, l₂, r', rfl, by rw [hp2, List.cons_append], hget⟩

theorem getFreeId_none (h : getFreeId rs = none) : ∀ r ∈ rs, idrGetFreeIdInRange r = none := by
  induction rs with
  | nil => simp
  | cons a rs ih =>
    unfold getFreeId at h
    split at h
    · simp at h
    · rename_i hget
      intro r hr
      rcases List.mem_cons.mp hr with rfl | hr
      · exact hget
      · exact ih (Option.map_eq_none_iff.mp h) r hr

/-- The loop leaves the ranges before `start` alone. -/
theorem getFreeIdFrom_cases (h : ∃ r ∈ rs, r.start = start) :
    ∃ l₁ l₂, rs = l₁ ++ l₂ ∧ l₂.head?.map IdrFreeIdRange.start = some start ∧
      getFreeIdFrom start rs = (getFreeId l₂).map fun p => (p.1, l₁ ++ p.2) := by
  induction rs with
  | nil => simp at h
  | cons a rs ih =>
    unfold getFreeIdFrom
    by_cases ha : a.start = start
    · refine ⟨[], a :: rs, rfl, by simp [ha], ?_⟩
      rw [if_pos ha]
      simp
    · obtain ⟨r, hr, hrs⟩ := h
      have hr' : r ∈ rs := (List.mem_cons.mp hr).resolve_left fun e => ha (e ▸ hrs)
      obtain ⟨l₁, l₂, rfl, hhead, heq⟩ := ih ⟨r, hr', hrs⟩
      refine ⟨a :: l₁, l₂, rfl, hhead, ?_⟩
      rw [if_neg ha, heq, Option.map_map]
      rfl

theorem Partition.suffix {l₁ l₂ : List IdrFreeIdRange} (h : Partition used s (l₁ ++ l₂))
    (hhead : l₂.head?.map IdrFreeIdRange.start = some start) :
    Partition used start l₂ := by
  induction l₁ generalizing s with
  | nil =>
    cases l₂ with
    | nil => simp at hhead
    | cons a l₂ =>
      have ha : a.start = start := by simpa using hhead
      exact ⟨⟨ha, h.contiguous.2⟩, h.ok⟩
  | cons b l₁ ih => exact ih h.tail

theorem frPutId_eq (h : Partition used s rs) (hs : s ≤ id) (hid : id < idEnd) :
    ∃ l₁ r l₂, rs = l₁ ++ r :: l₂ ∧ r.start ≤ id ∧ id < r.stop ∧
      frPutId rs id = l₁ ++ { r with freeIds := id :: r.freeIds } :: l₂ := by
  induction rs generalizing s with
  | nil =>
    have hc : s = idEnd := h.contiguous
    omega
  | cons a rs ih =>
    have ha : a.start = s := h.contiguous.1
    unfold frPutId
    split
    · rename_i hle
      obtain ⟨l₁, r, l₂, rfl, hrs, hre, heq⟩ := ih h.tail hle
      exact ⟨a :: l₁, r, l₂, rfl, hrs, hre, by rw [heq, List.cons_append]⟩
    · rename_i hlt
      exact ⟨[], a, rs, rfl, by omega, by omega, rfl⟩

/-- A used id that is returned becomes a free id of its range. -/
theorem RangeOk.putId (h : RangeOk used r) (hu : used id) (hs : r.start ≤ id) (he : id < r.stop) :
    RangeOk (fun i => i ≠ id ∧ used i) { r with freeIds := id :: r.freeIds } := by
  have hnf : id ∉ r.freeIds := fun hf => h.free_unused id hf hu
  refine ⟨h.start_le, h.min_le, List.nodup_cons.mpr ⟨hnf, h.free_nodup⟩, fun j => ?_, fun j hj => ?_⟩
  · have hj := h.below_min j
    rw [hj, List.mem_cons]
    by_cases hji : j = id
    · subst hji
      exact ⟨fun _ => .inl (.inl rfl), fun _ => .inr ⟨hu, hs, he⟩⟩
    · simp [hji]
  · rintro ⟨hne, hu'⟩
    rcases List.mem_cons.mp hj with rfl | hj
    · exact hne rfl
    · exact h.free_unused j hj hu'

/-- The id that idr_get_new_above comes to was not in use, and is from then on. -/
theorem Partition.getFreeIdFrom (h : Partition used 0 rs) (hstart : start ≤ idEnd)
    {rs' : List IdrFreeIdRange}
    (hget : GfxDrm.getFreeIdFrom start (GfxDrm.rangesFrom rs start) = some (id, rs')) :
    start ≤ id ∧ id < idEnd ∧ ¬ used id ∧ Partition (fun i => i = id ∨ used i) 0 rs' := by
  obtain ⟨hp, hr₀⟩ := h.rangesFrom hstart
  obtain ⟨l₁, l₂, heq, hhead, hcases⟩ := getFreeIdFrom_cases hr₀
  have hsuf := (heq ▸ hp).suffix hhead
  rw [hcases, Option.map_eq_some_iff] at hget
  obtain ⟨⟨id', rs₂⟩, hfree, hpair⟩ := hget
  obtain ⟨rfl, rfl⟩ := Prod.mk.inj hpair
  obtain ⟨k₁, r, k₂, r', rfl, rfl, hr⟩ := getFreeId_some hfree
  have hmem : r ∈ k₁ ++ r :: k₂ := by simp
  obtain ⟨hnu, hs, he, hs', he', hok⟩ := (hsuf.ok r hmem).getFreeId hr
  have hb := hsuf.bounds r hmem
  refine ⟨hb.1.trans hs, he.trans_le hb.2, hnu, ?_⟩
  rw [heq, ← List.append_assoc] at hp
  have hrep := hp.replace hs' he' hok fun i hi => by
    have hne : i ≠ id' := fun e => hi (e ▸ ⟨hs, he⟩)
    simp [hne]
  rwa [List.append_assoc] at hrep

/-- An id that is returned is free again. -/
theorem Partition.putId (h : Partition used 0 rs) (hu : used id) (hid : id < idEnd) :
    Partition (fun i => i ≠ id ∧ used i) 0 (frPutId rs id) := by
  obtain ⟨l₁, r, l₂, rfl, hs, he, hput⟩ := frPutId_eq h (Nat.zero_le id) hid
  rw [hput]
  refine h.replace rfl rfl ((h.ok r (by simp)).putId hu hs he) fun i hi => ?_
  have hne : i ≠ id := fun e => hi (e ▸ ⟨hs, he⟩)
  simp [hne]

end GfxDrm.Idr
