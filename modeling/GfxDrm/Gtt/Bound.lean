import GfxDrm.Gtt.Colors

/-! Bound objects and their nodes. -/

namespace GfxDrm.Gtt
open Circular DrmMm Run

/-- Bound objects have the nodes of the range manager, with their own colour. -/
structure GttInv (dev : GttDev) (s : GttState) : Prop where
  space : GttSpace dev.hasLlc (dev.total - pageSize) s.mm
  bound : ∀ o, (s.mm.node (.block o)).allocated = (s.obj o).gttSpace
  color : ∀ o, (s.obj o).gttSpace = true →
    (s.mm.node (.block o)).color = (s.obj o).cacheLevel.color
  offset : ∀ o, (s.obj o).gttSpace = true →
    (s.obj o).gttOffset = (s.mm.node (.block o)).start ∧
      (s.obj o).size ≤ (s.mm.node (.block o)).size
  pages : ∀ o, pageSize ∣ (s.obj o).size

variable {dev : GttDev} {s s' : GttState} {o alignment : ℕ} {mapAndFenceable kzalloc : Bool}
  {getPages : ℤ} {level : CacheLevel} {w w' : Waits}

@[simp] theorem GttState.setObj_self (f : GttObj → GttObj) : (s.setObj o f).obj o = f (s.obj o) :=
  Function.update_self ..

@[simp] theorem GttState.setObj_of_ne {p : ℕ} (h : p ≠ o) (f : GttObj → GttObj) :
    (s.setObj o f).obj p = s.obj p :=
  Function.update_of_ne h ..

@[simp] theorem GttState.setObj_mm (f : GttObj → GttObj) : (s.setObj o f).mm = s.mm := rfl
@[simp] theorem GttState.setObj_pte (f : GttObj → GttObj) : (s.setObj o f).pte = s.pte := rfl

namespace GttInv

theorem mem (h : GttInv dev s) (hb : (s.obj o).gttSpace = true) : .block o ∈ s.mm.nodeList :=
  (h.space.inv.allocated o).mp ((h.bound o).trans hb)

/-- A bound object lies in front of the guard page. -/
theorem end_le (h : GttInv dev s) (hb : (s.obj o).gttSpace = true) :
    (s.obj o).gttOffset + (s.obj o).size ≤ dev.total - pageSize := by
  have hend := h.space.inv.end_le (h.mem hb)
  rw [h.space.inv.block_end (h.mem hb)] at hend
  obtain ⟨hoff, hsize⟩ := h.offset o hb
  omega

end GttInv

/-! ### What changes no binding -/

/-- The fields that say where an object is bound and how. -/
def GttObj.place (obj : GttObj) : ℕ × Bool × ℕ × CacheLevel :=
  (obj.size, obj.gttSpace, obj.gttOffset, obj.cacheLevel)

structure SamePlaces (s s' : GttState) : Prop where
  mm : s'.mm = s.mm
  place : ∀ o, (s'.obj o).place = (s.obj o).place

namespace SamePlaces

theorem refl (s : GttState) : SamePlaces s s := ⟨rfl, fun _ => rfl⟩

theorem trans {s'' : GttState} (h : SamePlaces s s') (h' : SamePlaces s' s'') :
    SamePlaces s s'' :=
  ⟨h'.mm.trans h.mm, fun o => (h'.place o).trans (h.place o)⟩

theorem setObj {f : GttObj → GttObj} (hf : (f (s.obj o)).place = (s.obj o).place) :
    SamePlaces s (s.setObj o f) := by
  refine ⟨rfl, fun p => ?_⟩
  by_cases hp : p = o
  · rw [hp, GttState.setObj_self, hf]
  · rw [GttState.setObj_of_ne hp]

theorem fields (h : SamePlaces s s') (o : ℕ) : (s'.obj o).size = (s.obj o).size ∧
    (s'.obj o).gttSpace = (s.obj o).gttSpace ∧ (s'.obj o).gttOffset = (s.obj o).gttOffset ∧
    (s'.obj o).cacheLevel = (s.obj o).cacheLevel := by
  simpa only [GttObj.place, Prod.mk.injEq] using h.place o

theorem inv (h : SamePlaces s s') (hI : GttInv dev s) : GttInv dev s' where
  space := h.mm ▸ hI.space
  bound o := by rw [h.mm, (h.fields o).2.1, hI.bound]
  color o hb := by
    rw [h.mm, (h.fields o).2.2.2]
    exact hI.color o ((h.fields o).2.1 ▸ hb)
  offset o hb := by
    rw [h.mm, (h.fields o).1, (h.fields o).2.2.1]
    exact hI.offset o ((h.fields o).2.1 ▸ hb)
  pages o := (h.fields o).1 ▸ hI.pages o

theorem putEntries (s : GttState) (first num : ℕ) (entry : ℕ → ℕ) :
    SamePlaces s (putEntries s first num entry) := ⟨rfl, fun _ => rfl⟩

theorem gttBindObject (dev : GttDev) (s : GttState) (o : ℕ) (level : CacheLevel) :
    SamePlaces s (gttBindObject dev s o level) := by
  refine SamePlaces.trans ?_ (setObj rfl)
  split
  · unfold i915GgttInsertEntries i8xxAddToGtt
    split
    · exact refl s
    · exact putEntries ..
  · exact putEntries ..

theorem gttUnbindObject (dev : GttDev) (s : GttState) (o : ℕ) :
    SamePlaces s (gttUnbindObject dev s o) := by
  refine SamePlaces.trans ?_ (setObj rfl)
  split
  · unfold i915GgttClearRange i8xxRemoveFromGtt
    split
    · refine SamePlaces.trans ?_ (setObj rfl)
      dsimp only
      split
      · exact refl s
      · exact putEntries ..
    · exact refl s
  · unfold gen6GgttClearRange
    exact putEntries ..

end SamePlaces

/-! ### Unbinding -/

/-- An object without its node. -/
def dropSpace (s : GttState) (o : ℕ) : GttState :=
  { s.setObj o fun obj =>
      { obj with gttSpace := false, gttOffset := 0, mapAndFenceable := true } with
    mm := drmMmRemoveNode s.mm (.block o) }

theorem objectUnbind_cases (dev : GttDev) (s : GttState) (o : ℕ) (w : Waits) :
    ((objectUnbind dev s o w).2 = s ∧
      ((objectUnbind dev s o w).1 = 0 → (s.obj o).gttSpace = false)) ∨
    ((s.obj o).gttSpace = true ∧ (s.obj o).pinCount = 0 ∧ w = {} ∧ objectUnbind dev s o w =
      (0, dropSpace (if (s.obj o).hasGlobalGttMapping then gttUnbindObject dev s o else s) o)) := by
  unfold objectUnbind
  cases hb : (s.obj o).gttSpace with
  | false => exact .inl ⟨rfl, fun _ => rfl⟩
  | true =>
    by_cases hp : (s.obj o).pinCount = 0
    · obtain ⟨finishGpu, putFence⟩ := w
      by_cases hg : finishGpu = 0
      · by_cases hf : putFence = 0
        · subst hg hf
          refine .inr ⟨rfl, hp, rfl, ?_⟩
          rw [if_neg (by simp), if_neg (by simpa using hp)]
          rfl
        · refine .inl ?_
          rw [if_neg (by simp), if_neg (by simpa using hp), if_neg (by simpa using hg), if_pos hf]
          exact ⟨rfl, fun h => absurd h hf⟩
      · refine .inl ?_
        rw [if_neg (by simp), if_neg (by simpa using hp), if_pos hg]
        exact ⟨rfl, fun h => absurd h hg⟩
    · refine .inl ?_
      rw [if_pos hp]
      exact ⟨rfl, fun h => by simp at h⟩

/-- After unbinding with nothing to wait for the object is unbound. -/
theorem objectUnbind_unbound (h : (objectUnbind dev s o w).1 = 0) :
    ((objectUnbind dev s o w).2.obj o).gttSpace = false := by
  rcases objectUnbind_cases dev s o w with ⟨he, hzero⟩ | ⟨-, -, -, he⟩
  · rw [he]
    exact hzero h
  · rw [he]
    simp [dropSpace]

theorem GttInv.dropSpace (h : GttInv dev s) (hb : (s.obj o).gttSpace = true) :
    GttInv dev (dropSpace s o) := by
  have hmem := h.mem hb
  have hpn := prevNode_ne h.space.inv.toLinked hmem
  have hnode : ∀ p, p ≠ o →
      ((drmMmRemoveNode s.mm (.block o)).node (.block p)).allocated =
        (s.mm.node (.block p)).allocated ∧
      ((drmMmRemoveNode s.mm (.block o)).node (.block p)).color =
        (s.mm.node (.block p)).color := by
    intro p hp
    rw [removeNode_other (by simpa using hp)]
    split <;> exact ⟨rfl, rfl⟩
  have hss := removeNode_start_size s.mm hpn
  refine ⟨h.space.removeNode hmem, fun p => ?_, fun p hp => ?_, fun p hp => ?_, fun p => ?_⟩ <;>
    unfold Gtt.dropSpace at * <;> dsimp only at *
  · by_cases hpo : p = o
    · rw [hpo, GttState.setObj_self, removeNode_self hpn]
    · rw [GttState.setObj_of_ne hpo, (hnode p hpo).1, h.bound]
  · by_cases hpo : p = o
    · rw [hpo, GttState.setObj_self] at hp
      cases hp
    · rw [GttState.setObj_of_ne hpo] at hp ⊢
      rw [(hnode p hpo).2, h.color p hp]
  · by_cases hpo : p = o
    · rw [hpo, GttState.setObj_self] at hp
      cases hp
    · rw [GttState.setObj_of_ne hpo] at hp ⊢
      rw [(hss _).1, (hss _).2]
      exact h.offset p hp
  · by_cases hpo : p = o
    · rw [hpo, GttState.setObj_self]
      exact h.pages o
    · rw [GttState.setObj_of_ne hpo]
      exact h.pages p

theorem GttInv.objectUnbind (h : GttInv dev s) (o : ℕ) (w : Waits) :
    GttInv dev (objectUnbind dev s o w).2 := by
  rcases objectUnbind_cases dev s o w with ⟨he, -⟩ | ⟨hb, -, -, he⟩
  · rwa [he]
  · rw [he]
    split
    · have hsame := SamePlaces.gttUnbindObject dev s o
      exact (hsame.inv h).dropSpace ((hsame.fields o).2.1.trans hb)
    · exact h.dropSpace hb

/-! ### Binding -/

theorem doubleUntil_pow {size : ℕ} (hsize : size ≤ 2 ^ 31) {fuel k : ℕ} (hk : k ≤ 31)
    (hfuel : 31 ≤ k + fuel) :
    ∃ j ≤ 31, size ≤ 2 ^ j ∧ doubleUntil size fuel (2 ^ k) = 2 ^ j := by
  induction fuel generalizing k with
  | zero =>
    obtain rfl : k = 31 := by omega
    exact ⟨31, le_rfl, hsize, rfl⟩
  | succ fuel ih =>
    unfold doubleUntil
    split
    · rename_i hlt
      have hk' : k ≠ 31 := by
        rintro rfl
        exact absurd hlt (not_lt.mpr hsize)
      rw [← pow_succ']
      exact ih (by omega) (by omega)
    · rename_i hle
      exact ⟨k, hk, not_lt.mp hle, rfl⟩

/-- The fence region holds the object and is no larger than 2 GiB. -/
theorem getGttSize_bounds (dev : GttDev) {size : ℕ} (hsize : size ≤ 2 ^ 31) (tiled : Bool) :
    size ≤ getGttSize dev size tiled ∧ getGttSize dev size tiled ≤ 2 ^ 31 := by
  unfold getGttSize
  split
  · exact ⟨le_rfl, hsize⟩
  · have hpow : ∃ k ≤ 31, 31 ≤ k + 32 ∧
        (if dev.gen = 3 then 1024 * 1024 else 512 * 1024) = 2 ^ k := by
      split
      · exact ⟨20, by decide, by decide, by decide⟩
      · exact ⟨19, by decide, by decide, by decide⟩
    obtain ⟨k, hk, hfuel, hstart⟩ := hpow
    obtain ⟨j, hj, hle, he⟩ := doubleUntil_pow hsize hk hfuel
    rw [hstart, he]
    exact ⟨hle, Nat.pow_le_pow_right (by decide) hj⟩

theorem bindRequest_ok (h : bindRefused dev (s.obj o) alignment mapAndFenceable = none)
    (hpos : 0 < (s.obj o).size) (hpages : pageSize ∣ (s.obj o).size) :
    GttRequest (bindRequest dev (s.obj o) alignment mapAndFenceable) ∧
      (s.obj o).size ≤ (bindRequest dev (s.obj o) alignment mapAndFenceable).size := by
  have hrange : pageSize ≤ (if mapAndFenceable then dev.mappableEnd else dev.total) ∧
      (if mapAndFenceable then dev.mappableEnd else dev.total) ≤ 2 ^ 31 := by
    split
    · exact ⟨dev.page_le_mappableEnd, dev.mappableEnd_le⟩
    · exact ⟨dev.page_lt_total.le, dev.total_le⟩
  have hsize : (s.obj o).size ≤ 2 ^ 31 := by
    have hle : ¬ (if mapAndFenceable then dev.mappableEnd else dev.total) < (s.obj o).size := by
      intro hlt
      unfold bindRefused at h
      split at h <;> cases h
    exact (not_lt.mp hle).trans hrange.2
  have hpage := Nat.le_of_dvd hpos hpages
  have hbounds := getGttSize_bounds dev hsize (s.obj o).tiled
  have hlarge : (s.obj o).size ≤ (bindRequest dev (s.obj o) alignment mapAndFenceable).size ∧
      (bindRequest dev (s.obj o) alignment mapAndFenceable).size ≤ 2 ^ 31 := by
    unfold bindRequest
    split
    · exact hbounds
    · exact ⟨le_rfl, hsize⟩
  refine ⟨⟨hpage.trans hlarge.1, hlarge.2, ?_, ⟨_, rfl, hrange⟩⟩, hlarge.1⟩
  unfold bindRequest bindAlignment getGttAlignment
  dsimp only
  split
  · split
    · decide
    · exact hbounds.2.trans_lt (by decide)
  · exact Nat.mod_lt _ (Nat.two_pow_pos 32)

/-- An unbound object's node is linked in and belongs to it. -/
theorem GttInv.bindInserted {mm : DrmMm} (h : GttInv dev s) (hb : (s.obj o).gttSpace = false)
    (hs : GttSpace dev.hasLlc (dev.total - pageSize) mm)
    (halloc : (mm.node (.block o)).allocated = true)
    (hcolor : (mm.node (.block o)).color = (s.obj o).cacheLevel.color)
    (hsize : (s.obj o).size ≤ (mm.node (.block o)).size)
    (hother : ∀ p, p ≠ o → (mm.node (.block p)).color = (s.mm.node (.block p)).color ∧
      (mm.node (.block p)).start = (s.mm.node (.block p)).start ∧
      (mm.node (.block p)).size = (s.mm.node (.block p)).size ∧
      (mm.node (.block p)).allocated = (s.mm.node (.block p)).allocated) :
    GttInv dev (bindInserted dev { s with mm := mm } o).2 := by
  have hmem := (hs.inv.allocated o).mp halloc
  unfold Gtt.bindInserted
  dsimp only
  split
  · have hpn := prevNode_ne hs.inv.toLinked hmem
    refine ⟨hs.removeNode hmem, fun p => ?_, fun p hp => ?_, fun p hp => ?_, h.pages⟩ <;>
      dsimp only at *
    · by_cases hpo : p = o
      · rw [hpo, removeNode_self hpn]
        exact hb.symm
      · rw [← h.bound, ← (hother p hpo).2.2.2, removeNode_other (by simpa using hpo)]
        split <;> rfl
    · have hpo : p ≠ o := by
        rintro rfl
        rw [hb] at hp
        cases hp
      rw [← h.color p hp, ← (hother p hpo).1, removeNode_other (by simpa using hpo)]
      split <;> rfl
    · have hpo : p ≠ o := by
        rintro rfl
        rw [hb] at hp
        cases hp
      rw [(removeNode_start_size mm hpn _).1, (removeNode_start_size mm hpn _).2,
        (hother p hpo).2.1, (hother p hpo).2.2.1]
      exact h.offset p hp
  · refine ⟨hs, fun p => ?_, fun p hp => ?_, fun p hp => ?_, fun p => ?_⟩ <;>
      dsimp only [GttState.setObj_mm] at * <;> by_cases hpo : p = o
    · rw [hpo, GttState.setObj_self]
      exact halloc
    · rw [GttState.setObj_of_ne hpo, (hother p hpo).2.2.2]
      exact h.bound p
    · rw [hpo, GttState.setObj_self]
      exact hcolor
    · rw [GttState.setObj_of_ne hpo] at hp ⊢
      rw [(hother p hpo).1]
      exact h.color p hp
    · rw [hpo, GttState.setObj_self]
      exact ⟨rfl, hsize⟩
    · rw [GttState.setObj_of_ne hpo] at hp ⊢
      rw [(hother p hpo).2.1, (hother p hpo).2.2.1]
      exact h.offset p hp
    · rw [hpo, GttState.setObj_self]
      exact h.pages o
    · rw [GttState.setObj_of_ne hpo]
      exact h.pages p

theorem GttInv.objectBindToGtt (h : GttInv dev s) (hb : (s.obj o).gttSpace = false)
    (hpos : 0 < (s.obj o).size) : GttInv dev
      (objectBindToGtt dev s o alignment mapAndFenceable getPages kzalloc).2 := by
  unfold Gtt.objectBindToGtt
  cases hr : bindRefused dev (s.obj o) alignment mapAndFenceable with
  | some e => exact h
  | none =>
    dsimp only
    split
    · exact h
    split
    · exact h
    obtain ⟨hq, hle⟩ := bindRequest_ok hr hpos (h.pages o)
    have hcolor : (bindRequest dev (s.obj o) alignment mapAndFenceable).color =
        (s.obj o).cacheLevel.color := rfl
    obtain ⟨hs, hins, hother⟩ := h.space.insert hq ((h.bound o).trans hb)
    rcases hins with ⟨hzero, hins⟩ | ⟨he, hmm⟩
    · rw [if_pos hzero]
      exact h.bindInserted hb hs hins.allocated (hins.color.trans hcolor) (hins.size ▸ hle) hother
    · rw [if_neg (by simp [he]), hmm]
      exact h

/-! ### Changing the cache level -/

theorem prevNode_of_nextNode {mm : DrmMm} {r : NodeRef} {n : ℕ} (h : Linked mm)
    (hr : r ∈ mm.nodeList) (hn : mm.nextNode r = .block n) : mm.prevNode (.block n) = r := by
  obtain ⟨l₁, l₂, hsplit, hnot, -⟩ := exists_split h.nodup hr
  unfold nextNode at hn
  unfold prevNode
  rw [hsplit, succ_split hnot] at hn
  cases l₂ with
  | nil => cases hn
  | cons x l₂ =>
    obtain rfl : x = .block n := hn
    have hnodup := h.nodup
    rw [hsplit, List.append_cons] at hnodup ⊢
    have hnot' : NodeRef.block n ∉ l₁ ++ [r] := fun hm =>
      (List.nodup_append.mp hnodup).2.2 _ hm _ List.mem_cons_self rfl
    rw [pred_split hnot', List.getLastD_concat]

/-- The neighbours that a node touches have the new colour already. -/
theorem valid_neighbours (h : GttInv dev s) (hllc : dev.hasLlc = false)
    (hb : (s.obj o).gttSpace = true) (hv : validGttSpace dev s o level = true) :
    Coloured (s.mm.setNode (.block o) fun n => { n with color := level.color }) := by
  unfold validGttSpace at hv
  rw [if_neg (by simp [hllc]), if_neg (by simp [hb])] at hv
  dsimp only at hv
  split at hv
  · cases hv
  rename_i hprev
  split at hv
  · cases hv
  rename_i hnext
  apply (h.space.coloured hllc).setColor
  · intro m hm halloc hhole
    have hp := prevNode_of_nextNode h.space.inv.toLinked
      ((h.space.inv.allocated m).mp halloc) hm
    rw [hp] at hprev
    by_contra hne
    exact hprev ⟨halloc, hhole, hne⟩
  · intro m hm halloc hhole
    rw [hm] at hnext
    by_contra hne
    exact hnext ⟨halloc, hhole, hne⟩

/-- How a change of the cache level ends: with nothing done, with the object unbound, or with
the new level, after unbinding where the neighbours would not allow it. -/
theorem objectSetCacheLevel_cases (dev : GttDev) (s : GttState) (o : ℕ) (level : CacheLevel)
    (w w' : Waits) :
    (objectSetCacheLevel dev s o level w w').2 = s ∨
    (validGttSpace dev s o level = false ∧ (objectUnbind dev s o w).1 = 0 ∧
      (objectSetCacheLevel dev s o level w w').2 =
        cacheLevelSet dev (objectUnbind dev s o w).2 o level) ∨
    (validGttSpace dev s o level = true ∧
      (objectSetCacheLevel dev s o level w w').2 = cacheLevelSet dev s o level) := by
  unfold objectSetCacheLevel
  split
  · exact .inl rfl
  split
  · exact .inl rfl
  cases hv : validGttSpace dev s o level with
  | true =>
    dsimp only
    rw [if_pos rfl]
    split
    · exact .inl rfl
    split
    · exact .inl rfl
    split
    · exact .inl rfl
    · exact .inr (.inr ⟨rfl, rfl⟩)
  | false =>
    simp only [Bool.false_eq_true, if_false]
    rcases objectUnbind_cases dev s o w with ⟨he, hzero⟩ | ⟨hb, hp, rfl, he⟩
    · split
      · exact .inl he
      · rename_i hret
        have hunbound := hzero (not_not.mp hret)
        rw [he, if_neg (by simp [hunbound]), if_neg (by simp [hunbound])]
        exact .inr (.inl ⟨trivial, not_not.mp hret, rfl⟩)
    · have hnone : ∀ s₁ : GttState, ((dropSpace s₁ o).obj o).gttSpace = false := fun s₁ => by
        simp [dropSpace]
      rw [he, if_neg (by simp), if_neg (by simp [hnone]), if_neg (by simp [hnone])]
      exact .inr (.inl ⟨trivial, rfl, rfl⟩)

/-- The fields of one object are changed where it stays bound or unbound. -/
theorem GttInv.setObj {mm : DrmMm} {f : GttObj → GttObj} (h : GttInv dev s)
    (hs : GttSpace dev.hasLlc (dev.total - pageSize) mm) (hl : SameLayout s.mm mm)
    (hcolor : ∀ p, p ≠ o → (mm.node (.block p)).color = (s.mm.node (.block p)).color)
    (hspace : (f (s.obj o)).gttSpace = (s.obj o).gttSpace)
    (hself : (s.obj o).gttSpace = true →
      (mm.node (.block o)).color = (f (s.obj o)).cacheLevel.color ∧
        (f (s.obj o)).gttOffset = (s.obj o).gttOffset ∧ (f (s.obj o)).size = (s.obj o).size)
    (hpages : pageSize ∣ (f (s.obj o)).size) : GttInv dev { s.setObj o f with mm := mm } := by
  refine ⟨hs, fun p => ?_, fun p hp => ?_, fun p hp => ?_, fun p => ?_⟩ <;>
    dsimp only at * <;> by_cases hpo : p = o
  · rw [hpo, GttState.setObj_self, hspace, (hl.fields _).2.1]
    exact h.bound o
  · rw [GttState.setObj_of_ne hpo, (hl.fields _).2.1]
    exact h.bound p
  · rw [hpo, GttState.setObj_self] at hp ⊢
    exact (hself (hspace ▸ hp)).1
  · rw [GttState.setObj_of_ne hpo] at hp ⊢
    rw [hcolor p hpo]
    exact h.color p hp
  · rw [hpo, GttState.setObj_self] at hp ⊢
    rw [(hself (hspace ▸ hp)).2.1, (hself (hspace ▸ hp)).2.2, (hl.fields _).2.2.1,
      (hl.fields _).2.2.2]
    exact h.offset o (hspace ▸ hp)
  · rw [GttState.setObj_of_ne hpo] at hp ⊢
    rw [(hl.fields _).2.2.1, (hl.fields _).2.2.2]
    exact h.offset p hp
  · rw [hpo, GttState.setObj_self]
    exact hpages
  · rw [GttState.setObj_of_ne hpo]
    exact h.pages p

theorem sameLayout_refl (mm : DrmMm) : SameLayout mm mm := ⟨rfl, rfl, fun _ => ⟨rfl, rfl, rfl, rfl⟩⟩

theorem GttInv.cacheLevelSet (h : GttInv dev s)
    (hv : (s.obj o).gttSpace = true → validGttSpace dev s o level = true) :
    GttInv dev (cacheLevelSet dev s o level) := by
  unfold Gtt.cacheLevelSet
  split
  · rename_i hb
    have hsame : SamePlaces s
        (if (s.obj o).hasGlobalGttMapping then gttBindObject dev s o level else s) := by
      split
      · exact SamePlaces.gttBindObject ..
      · exact SamePlaces.refl s
    have hs₁ := hsame.inv h
    refine hs₁.setObj ?_ (sameLayout_setColor _ _ _) (fun p hp => ?_) rfl (fun _ => ?_)
      (hs₁.pages o)
    · refine hs₁.space.of_sameLayout (sameLayout_setColor _ _ _) rfl fun hllc => ?_
      rw [hsame.mm]
      exact valid_neighbours h hllc hb (hv hb)
    · rw [setNode_node_of_ne (by simpa using hp)]
    · rw [setNode_node_self]
      exact ⟨rfl, rfl, rfl⟩
  · rename_i hb
    exact h.setObj (f := fun obj => { obj with cacheLevel := level }) h.space
      (sameLayout_refl _) (fun p _ => rfl) rfl
      (fun hb' => absurd hb' hb) (h.pages o)

theorem GttInv.objectSetCacheLevel (h : GttInv dev s) (o : ℕ) (level : CacheLevel)
    (w w' : Waits) : GttInv dev (objectSetCacheLevel dev s o level w w').2 := by
  rcases objectSetCacheLevel_cases dev s o level w w' with he | ⟨hv, hret, he⟩ | ⟨hv, he⟩
  · rwa [he]
  · rw [he]
    refine (h.objectUnbind o w).cacheLevelSet fun hb => ?_
    -- an object that could be unbound is not bound any more
    rcases objectUnbind_cases dev s o w with ⟨hs, hzero⟩ | ⟨-, -, -, hs⟩
    · rw [hs, hzero hret] at hb
      cases hb
    · rw [hs] at hb
      simp [Gtt.dropSpace] at hb
  · rw [he]
    exact h.cacheLevelSet fun _ => hv

/-! ### Scanning -/

theorem markFree_sublist (s : GttState) (mm : DrmMm) (lru : List ℕ) :
    (markFree s mm lru).1.Sublist lru := by
  induction lru generalizing mm with
  | nil => exact List.Sublist.refl _
  | cons o l ih =>
    unfold markFree
    split
    · exact (ih mm).cons o
    · dsimp only
      split
      · exact (List.nil_sublist l).cons_cons o
      · exact (ih _).cons_cons o

theorem evictScan_restored (h : GttInv dev s) (q : MmRequest) {lru : List ℕ} (hnodup : lru.Nodup)
    (hbound : ∀ o ∈ lru, (s.obj o).gttSpace = true) :
    Restored (markFree s (q.startScan s.mm) lru).1 s.mm (evictScan s q lru).2.mm :=
  have hsub := markFree_sublist s (q.startScan s.mm) lru
  scanAll_restored h.space.inv.toShape q
    ⟨hsub.nodup hnodup, fun n hn => h.mem (hbound n (hsub.subset hn))⟩

theorem GttInv.evictScan (h : GttInv dev s) (q : MmRequest) {lru : List ℕ} (hnodup : lru.Nodup)
    (hbound : ∀ o ∈ lru, (s.obj o).gttSpace = true) : GttInv dev (evictScan s q lru).2 := by
  have hr := evictScan_restored h q hnodup hbound
  have hobj : (Gtt.evictScan s q lru).2.obj = s.obj := rfl
  refine ⟨h.space.restored hr, fun o => ?_, fun o ho => ?_, fun o ho => ?_, fun o => ?_⟩ <;>
    rw [hobj] at *
  · rw [(hr.fields _).2.1]
    exact h.bound o
  · rw [(hr.fields _).2.2.1]
    exact h.color o ho
  · rw [(hr.fields _).2.2.2.1, (hr.fields _).2.2.2.2]
    exact h.offset o ho
  · exact h.pages o

/-! ### Runs -/

theorem gttSpaceInit_space (dev : GttDev) :
    GttSpace dev.hasLlc (dev.total - pageSize) (gttSpaceInit dev) := by
  have htotal := dev.total_le
  have hpage := dev.page_lt_total
  have hinv := @init_inv 0 (dev.total - pageSize) (by omega) (by omega)
    (if dev.hasLlc then none else some i915GttColorAdjust)
  rw [Nat.zero_add] at hinv
  have hlist : ∀ n, NodeRef.block n ∉ (gttSpaceInit dev).nodeList := by
    intro n hn
    simp [gttSpaceInit, drmMmInit] at hn
  refine ⟨hinv, by omega, rfl, ⟨by simp [gttSpaceInit, drmMmInit], fun n hn => ?_, fun n hn => ?_⟩,
    fun _ m n hm => ?_⟩
  · exact absurd hn (hlist n)
  · exact absurd hn (hlist n)
  · exact absurd ((hinv.allocated m).mp hm) (hlist m)

theorem GttInv.init (hmm : s.mm = gttSpaceInit dev) (hobj : s.obj = fun _ => {}) :
    GttInv dev s := by
  have hspace := gttSpaceInit_space dev
  refine ⟨hmm ▸ hspace, fun o => ?_, fun o ho => ?_, fun o ho => ?_, fun o => ?_⟩ <;>
    rw [hobj] at *
  · rw [hmm]
    simp [gttSpaceInit, drmMmInit]
  · cases ho
  · cases ho
  · exact Nat.dvd_zero _

theorem GttInv.run {a : GttCall} (h : GttInv dev s) (ha : a.Allowed s) :
    GttInv dev (a.run dev s) := by
  cases a with
  | create o pages pfnarray tiled =>
    obtain ⟨hb, -⟩ := ha
    refine h.setObj (f := fun _ => { size := pages * pageSize, pfnarray := pfnarray, tiled := tiled
                                     cacheLevel := if dev.hasLlc then .llc else .none })
      h.space (sameLayout_refl _) (fun p _ => rfl) hb.symm (fun hb' => ?_) (Nat.dvd_mul_left _ _)
    rw [hb] at hb'
    cases hb'
  | setTiling o tiled =>
    exact (SamePlaces.setObj (f := fun obj => { obj with tiled := tiled }) rfl).inv h
  | bindToGtt o alignment mapAndFenceable getPages kzalloc =>
    exact h.objectBindToGtt ha.1 ha.2
  | gttBind o => exact (SamePlaces.gttBindObject ..).inv h
  | pin o =>
    exact (SamePlaces.setObj (f := fun obj => { obj with pinCount := obj.pinCount + 1 }) rfl).inv h
  | unpin o =>
    exact (SamePlaces.setObj (f := fun obj => { obj with pinCount := obj.pinCount - 1 }) rfl).inv h
  | unbind o w => exact h.objectUnbind o w
  | setCacheLevel o level w w' => exact h.objectSetCacheLevel o level w w'
  | scan q lru => exact h.evictScan q ha.2.1 ha.2.2

theorem reach_gttInv {guard : GttState → GttCall → Prop}
    (h : ReachWhile (gttSystem dev) guard s) : GttInv dev s := by
  refine h.invariant (I := GttInv dev) (fun s hs => ?_) fun s a s' hI _ hs => ?_
  · exact GttInv.init hs.1 hs.2
  · rw [hs.2]
    exact hI.run hs.1

instance (s : GttState) : (a : GttCall) → Decidable (a.Allowed s)
  | .create .. | .bindToGtt .. => inferInstanceAs (Decidable (_ ∧ _))
  | .setTiling .. | .unbind .. | .setCacheLevel .. => inferInstanceAs (Decidable True)
  | .gttBind _ | .pin _ => inferInstanceAs (Decidable (_ = _))
  | .unpin _ => inferInstanceAs (Decidable (_ ≠ _))
  | .scan q _ =>
    have : Decidable q.Ok := inferInstanceAs (Decidable (_ ∧ _))
    inferInstanceAs (Decidable (_ ∧ _ ∧ ∀ o ∈ _, _))

theorem reach_foldl (l : List GttCall) (h : Reach (gttSystem dev) s)
    (ha : AllAllowed (fun s a => a.Allowed s) (GttCall.run dev) l s) :
    Reach (gttSystem dev) (l.foldl (GttCall.run dev) s) :=
  ReachWhile.foldl (S := gttSystem dev) _ (fun _ _ h => ⟨trivial, h, rfl⟩) l h ha

/-- Without LLC, neighbours that touch have one colour, and a bound object's node has the
colour of its cache level. -/
theorem gtt_colours_apart (dev : GttDev) (hllc : dev.hasLlc = false) (s : GttState)
    (h : Reach (gttSystem dev) s) : Coloured s.mm ∧ ∀ o, (s.obj o).gttSpace = true →
      (s.mm.node (.block o)).allocated = true ∧
        (s.mm.node (.block o)).color = (s.obj o).cacheLevel.color := by
  have hI := reach_gttInv h
  exact ⟨hI.space.coloured hllc, fun o hb => ⟨(hI.bound o).trans hb, hI.color o hb⟩⟩

/-- A device with 16 MiB of GTT. -/
def smallGtt (gen scratchPfn : ℕ) : GttDev where
  gen := gen
  mappableEnd := 2 ^ 24
  total := 2 ^ 24
  aperPages := 2 ^ 12
  scratchPfn := scratchPfn
  page_le_mappableEnd := by decide
  mappableEnd_le := by decide
  page_lt_total := by decide
  total_le := by decide

def emptyGtt (dev : GttDev) : GttState where
  mm := gttSpaceInit dev
  pte := fun _ => 0

theorem emptyGtt_reach : Reach (gttSystem dev) (emptyGtt dev) := .init ⟨rfl, rfl⟩

/-- An uncached and a cached object of one page each. -/
def twoLevels : List GttCall :=
  [.create 0 1 (fun _ => 7) false, .bindToGtt 0 0 false 0 true, .create 1 1 (fun _ => 8) false,
    .setCacheLevel 1 .llc {} {}, .bindToGtt 1 0 false 0 true]

/-- They are bound with a page between them. -/
theorem gtt_colours_apart_two :
    let s := twoLevels.foldl (GttCall.run (smallGtt 4 0x1234)) (emptyGtt (smallGtt 4 0x1234))
    (s.obj 0).gttOffset = 0 ∧ (s.obj 1).gttOffset = 2 * pageSize ∧ Coloured s.mm := by
  refine ⟨by decide +kernel, by decide +kernel, ?_⟩
  exact (gtt_colours_apart (smallGtt 4 0x1234) rfl _ (reach_foldl twoLevels emptyGtt_reach
    (by decide +kernel))).1

end GfxDrm.Gtt
