import GfxDrm.Idr.Map

/-! Callers that all ask for ids from 1 on: when the ids they get stay low. -/

namespace GfxDrm.Idr

variable {α : Type*} {idr : Idr α} {n : ℕ}

/-- The allocator may still hand out `id`. -/
def Available (idr : Idr α) (id : ℕ) : Prop :=
  ∃ r ∈ idr.freeIdRanges, r.start ≤ id ∧ id < r.stop ∧ (id ∈ r.freeIds ∨ r.minUnused ≤ id)

/-- There is one range yet from which no id was taken, or one more that starts at 1; the ids that
came back are below `n`. -/
def FromOne (n : ℕ) (ranges : List IdrFreeIdRange) : Prop :=
  (∃ r, ranges = [r] ∧ r.start = 0 ∧ r.stop = 0x7fffffff ∧ r.minUnused = 0) ∨
    ∃ r₀ r₁, ranges = [r₀, r₁] ∧ r₀.start = 0 ∧ r₀.stop = 1 ∧ r₁.start = 1 ∧
      r₁.stop = 0x7fffffff ∧ ∀ id ∈ r₁.freeIds, id < n

theorem FromOne.init : FromOne n (idrInit : Idr α).freeIdRanges := .inl ⟨frNew 0, rfl, rfl, rfl, rfl⟩

theorem rangesFrom_one_new {r : IdrFreeIdRange} (h0 : r.start = 0) (hmin : r.minUnused = 0) :
    rangesFrom [r] 1 =
      [{ r with stop := 1 }, { start := 1, stop := 0x7fffffff, minUnused := 1 }] := by
  simp [rangesFrom, frGet, h0, frInsert, frSplit, frIsFull, hmin, frNew]

/-- The range of the ids from 1 on, and what the others are. -/
theorem FromOne.split (h : FromOne n idr.freeIdRanges) : ∃ r₀ r₁,
    rangesFrom idr.freeIdRanges 1 = [r₀, r₁] ∧ r₀.start = 0 ∧ r₀.stop = 1 ∧ r₁.start = 1 ∧
      r₁.stop = 0x7fffffff ∧ (∀ id ∈ r₁.freeIds, id < n) ∧
      ∀ id, 1 ≤ id → (Available idr id ↔
        id < 0x7fffffff ∧ (id ∈ r₁.freeIds ∨ r₁.minUnused ≤ id)) := by
  rcases h with ⟨r, hnew, h0, hstop, hmin⟩ | ⟨r₀, r₁, hranges, h0, h1, hs, he, hfree⟩
  · refine ⟨{ r with stop := 1 }, { start := 1, stop := 0x7fffffff, minUnused := 1 },
      by rw [hnew, rangesFrom_one_new h0 hmin], h0, rfl, rfl, rfl, by simp, fun id hid => ?_⟩
    simp only [Available, hnew, List.mem_singleton, exists_eq_left]
    omega
  · refine ⟨r₀, r₁, ?_, h0, h1, hs, he, hfree, fun id hid => ?_⟩
    · rw [hranges, rangesFrom, frGet]
      simp [hs]
    · simp only [Available, hranges, List.mem_cons, List.not_mem_nil, or_false,
        exists_eq_or_imp, exists_eq_left, hs, he]
      constructor
      · rintro (h | h)
        · omega
        · exact h.2
      · exact fun h => .inr ⟨hid, h⟩

/-- What the range gives up, and what it keeps. -/
theorem getFreeIdInRange_low {r r' : IdrFreeIdRange} {id : ℕ} (hfree : ∀ i ∈ r.freeIds, i < n)
    (h : idrGetFreeIdInRange r = some (id, r')) :
    r'.start = r.start ∧ r'.stop = r.stop ∧ (∀ i ∈ r'.freeIds, i < n) ∧
      ((∃ i < n, i ∈ r.freeIds ∨ r.minUnused ≤ i) → id < n) ∧
      (id ∈ r.freeIds ∨ r.minUnused ≤ id) := by
  unfold idrGetFreeIdInRange at h
  split at h
  · rename_i i next hcons
    obtain ⟨rfl, rfl⟩ := Prod.mk.inj (Option.some.inj h)
    have hlow : i < n := hfree i (hcons ▸ List.mem_cons_self)
    exact ⟨rfl, rfl, fun j hj => hfree j (hcons ▸ List.mem_cons_of_mem _ hj), fun _ => hlow,
      .inl (hcons ▸ List.mem_cons_self)⟩
  · rename_i hnil
    split at h
    · cases h
    · obtain ⟨rfl, rfl⟩ := Prod.mk.inj (Option.some.inj h)
      refine ⟨rfl, rfl, hfree, fun hex => ?_, .inr le_rfl⟩
      obtain ⟨i, hi, hmem | hle⟩ := hex
      · rw [hnil] at hmem
        cases hmem
      · omega

theorem getFreeIdInRange_some {r : IdrFreeIdRange}
    (h : ∃ i < r.stop, i ∈ r.freeIds ∨ r.minUnused ≤ i) : idrGetFreeIdInRange r ≠ none := by
  obtain ⟨i, hi, hmem⟩ := h
  unfold idrGetFreeIdInRange
  split
  · exact Option.some_ne_none _
  · rename_i hnil
    rw [hnil] at hmem
    have hnot : ¬frIsFull r = true := by
      simp only [List.not_mem_nil, false_or] at hmem
      simp only [frIsFull, decide_eq_true_eq]
      omega
    rw [if_neg hnot]
    exact Option.some_ne_none _

section getNewAbove
variable (h : FromOne n idr.freeIdRanges) (obj : Option α)
include h

theorem FromOne.getNewAbove_eq (alloc : Bool) : ∃ r₀ r₁,
    r₀.start = 0 ∧ r₀.stop = 1 ∧ r₁.start = 1 ∧ r₁.stop = 0x7fffffff ∧
      (∀ id ∈ r₁.freeIds, id < n) ∧
      (∀ id, 1 ≤ id → (Available idr id ↔
        id < 0x7fffffff ∧ (id ∈ r₁.freeIds ∨ r₁.minUnused ≤ id))) ∧
      idrGetNewAbove idr obj 1 alloc =
        match (idrGetFreeIdInRange r₁).map fun p => (p.1, [r₀, p.2]) with
        | none => (.error (-1), { idr with freeIdRanges := [r₀, r₁] })
        | some (id, ranges) =>
          if alloc then (.ok id, ⟨idr.usedIds.insert id obj, ranges⟩)
          else (.error Errno.eNomem, { idr with freeIdRanges := ranges }) := by
  obtain ⟨r₀, r₁, hranges, h0, h1, hs, he, hfree, havail⟩ := h.split
  have hfrom : getFreeIdFrom 1 [r₀, r₁] =
      (idrGetFreeIdInRange r₁).map fun p => (p.1, [r₀, p.2]) := by
    simp only [getFreeIdFrom, h0, hs, getFreeId]
    cases idrGetFreeIdInRange r₁ <;> rfl
  refine ⟨r₀, r₁, h0, h1, hs, he, hfree, havail, ?_⟩
  rw [← hfrom, ← hranges]
  rfl

/-- As long as an id below `n` is available, the next one is. -/
theorem FromOne.getNewAbove (alloc : Bool) :
    FromOne n (idrGetNewAbove idr obj 1 alloc).2.freeIdRanges ∧
      ∀ id, (idrGetNewAbove idr obj 1 alloc).1 = .ok id →
        (∃ i, 1 ≤ i ∧ i < n ∧ Available idr i) → id < n := by
  obtain ⟨r₀, r₁, h0, h1, hs, he, hfree, havail, hget⟩ := h.getNewAbove_eq obj alloc
  rw [hget]
  cases hid : idrGetFreeIdInRange r₁ with
  | none => exact ⟨.inr ⟨r₀, r₁, rfl, h0, h1, hs, he, hfree⟩, fun id hok => by cases hok⟩
  | some p =>
    obtain ⟨id, r₁'⟩ := p
    obtain ⟨hs', he', hfree', hlow, -⟩ := getFreeIdInRange_low hfree hid
    have hfromOne : FromOne n [r₀, r₁'] :=
      .inr ⟨r₀, r₁', rfl, h0, h1, hs'.trans hs, he'.trans he, hfree'⟩
    cases alloc with
    | true =>
      refine ⟨hfromOne, fun i hok hex => ?_⟩
      obtain rfl : id = i := Except.ok.inj hok
      obtain ⟨j, hj1, hjn, hj⟩ := hex
      exact hlow ⟨j, hjn, ((havail j hj1).mp hj).2⟩
    | false => exact ⟨hfromOne, fun i hok => by cases hok⟩

/-- An id that is handed out was available. -/
theorem FromOne.available_of_ok {alloc : Bool} {id : ℕ}
    (hok : (idrGetNewAbove idr obj 1 alloc).1 = .ok id) (hpos : 1 ≤ id) (hend : id < 0x7fffffff) :
    Available idr id := by
  obtain ⟨r₀, r₁, h0, h1, hs, he, hfree, havail, hget⟩ := h.getNewAbove_eq obj alloc
  rw [hget] at hok
  refine (havail id hpos).mpr ⟨hend, ?_⟩
  cases hid : idrGetFreeIdInRange r₁ with
  | none =>
    rw [hid] at hok
    cases hok
  | some p =>
    obtain ⟨i, r₁'⟩ := p
    obtain ⟨-, -, -, -, hfrom⟩ := getFreeIdInRange_low hfree hid
    rw [hid] at hok
    cases alloc with
    | true =>
      obtain rfl : i = id := Except.ok.inj hok
      exact hfrom
    | false => cases hok

/-- Where an id is available and there is memory, one is handed out. -/
theorem FromOne.getNewAbove_ok (hex : ∃ i, 1 ≤ i ∧ Available idr i) :
    ∃ id, (idrGetNewAbove idr obj 1 true).1 = .ok id := by
  obtain ⟨r₀, r₁, h0, h1, hs, he, hfree, havail, hget⟩ := h.getNewAbove_eq obj true
  obtain ⟨i, hi1, hi⟩ := hex
  obtain ⟨hlt, hmem⟩ := (havail i hi1).mp hi
  obtain ⟨p, hp⟩ := Option.ne_none_iff_exists'.mp
    (getFreeIdInRange_some ⟨i, by omega, hmem⟩ : idrGetFreeIdInRange r₁ ≠ none)
  rw [hget, hp]
  exact ⟨p.1, rfl⟩

end getNewAbove

/-- An id below `n` may come back. -/
theorem FromOne.putId {ranges : List IdrFreeIdRange} (h : FromOne n ranges) {id : ℕ} (hpos : 1 ≤ id)
    (hid : id < n) : FromOne n (frPutId ranges id) := by
  rcases h with ⟨r, rfl, h0, hstop, hmin⟩ | ⟨r₀, r₁, rfl, h0, h1, hs, he, hfree⟩
  · left
    unfold frPutId
    split
    · exact ⟨r, rfl, h0, hstop, hmin⟩
    · exact ⟨_, rfl, h0, hstop, hmin⟩
  · right
    rw [frPutId, if_pos (by omega)]
    unfold frPutId
    split
    · exact ⟨r₀, r₁, rfl, h0, h1, hs, he, hfree⟩
    · refine ⟨r₀, _, rfl, h0, h1, hs, he, fun i hi => ?_⟩
      rcases List.mem_cons.mp hi with rfl | hi
      · exact hid
      · exact hfree i hi

theorem FromOne.remove (h : FromOne n idr.freeIdRanges) {id : ℕ} (hpos : 1 ≤ id) (hid : id < n)
    (alloc : Bool) : FromOne n (idrRemove idr id alloc).2.freeIdRanges := by
  unfold idrRemove
  split
  · exact h
  · split
    · exact h.putId hpos hid
    · exact h

end GfxDrm.Idr
