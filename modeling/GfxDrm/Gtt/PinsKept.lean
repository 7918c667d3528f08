import GfxDrm.Gtt.UserPins

/-! Binding, eviction and i915_gem_object_pin move no other pin. -/

namespace GfxDrm.Gtt

variable {dev : PinDev} {s s' s'' : GttState} {o alignment : ℕ} {mapAndFenceable : Bool}

/-- Pin counts are left alone, and what is pinned stays bound. -/
structure KeepsPins (s s' : GttState) : Prop where
  pinCount : ∀ o, (s'.obj o).pinCount = (s.obj o).pinCount
  gttSpace : ∀ o, (s.obj o).pinCount ≠ 0 → (s.obj o).gttSpace = true →
    (s'.obj o).gttSpace = true

namespace KeepsPins

theorem refl (s : GttState) : KeepsPins s s := ⟨fun _ => rfl, fun _ _ h => h⟩

theorem trans (h : KeepsPins s s') (h' : KeepsPins s' s'') : KeepsPins s s'' where
  pinCount o := (h'.pinCount o).trans (h.pinCount o)
  gttSpace o hp hb := h'.gttSpace o (by rwa [h.pinCount o]) (h.gttSpace o hp hb)

theorem of_update {x : GttObj} (h : s'.obj = Function.update s.obj o x)
    (hp : x.pinCount = (s.obj o).pinCount)
    (hb : (s.obj o).pinCount ≠ 0 → (s.obj o).gttSpace = true → x.gttSpace = true) :
    KeepsPins s s' := by
  constructor
  · intro p
    by_cases hpo : p = o
    · rw [h, hpo, Function.update_self, hp]
    · rw [h, Function.update_of_ne hpo]
  · intro p hpin hbound
    by_cases hpo : p = o
    · subst hpo
      rw [h, Function.update_self]
      exact hb hpin hbound
    · rwa [h, Function.update_of_ne hpo]

theorem setObj {f : GttObj → GttObj} (hp : (f (s.obj o)).pinCount = (s.obj o).pinCount)
    (hb : (s.obj o).gttSpace = true → (f (s.obj o)).gttSpace = true) :
    KeepsPins s (s.setObj o f) :=
  of_update rfl hp fun _ => hb

/-- Nothing but the objects counts. -/
theorem of_obj (h : s'.obj = s.obj) : KeepsPins s s' := by
  constructor
  · exact fun o => by rw [h]
  · exact fun o _ hb => by rwa [h]

theorem putEntries (s : GttState) (first num : ℕ) (entry : ℕ → ℕ) :
    KeepsPins s (putEntries s first num entry) := of_obj rfl

theorem gttBindObject (dev : GttDev) (s : GttState) (o : ℕ) (level : CacheLevel) :
    KeepsPins s (gttBindObject dev s o level) := by
  refine trans ?_ (setObj rfl id)
  split
  · unfold i915GgttInsertEntries i8xxAddToGtt
    split
    · exact refl s
    · exact putEntries ..
  · exact putEntries ..

theorem gttUnbindObject (dev : GttDev) (s : GttState) (o : ℕ) :
    KeepsPins s (gttUnbindObject dev s o) := by
  refine trans ?_ (setObj rfl id)
  split
  · unfold i915GgttClearRange i8xxRemoveFromGtt
    split
    · refine trans ?_ (setObj rfl id)
      dsimp only
      split
      · exact refl s
      · exact putEntries ..
    · exact refl s
  · unfold gen6GgttClearRange
    exact putEntries ..

theorem objectUnbind (dev : GttDev) (s : GttState) (o : ℕ) (w : Waits) :
    KeepsPins s (objectUnbind dev s o w).2 := by
  rcases objectUnbind_cases dev s o w with ⟨he, -⟩ | ⟨-, hp, -, he⟩
  · rw [he]
    exact refl s
  · have hfree : KeepsPins s
        (if (s.obj o).hasGlobalGttMapping then Gtt.gttUnbindObject dev s o else s) := by
      split
      · exact gttUnbindObject dev s o
      · exact refl s
    rw [he]
    refine hfree.trans ?_
    exact of_update rfl rfl fun hne _ => absurd ((hfree.pinCount o).trans hp) hne

theorem objectBindToGtt (dev : GttDev) (s : GttState) (o alignment : ℕ) (mapAndFenceable : Bool)
    (getPages : ℤ) (kzalloc : Bool) :
    KeepsPins s (objectBindToGtt dev s o alignment mapAndFenceable getPages kzalloc).2 := by
  unfold Gtt.objectBindToGtt
  split
  · exact refl s
  split
  · exact refl s
  split
  · exact refl s
  dsimp only
  split
  · unfold bindInserted
    dsimp only
    split
    · exact of_obj rfl
    · exact of_update rfl rfl fun _ _ => rfl
  · exact of_obj rfl

theorem unbindAll (dev : GttDev) (waits : ℕ → Waits) (l : List ℕ) (s : GttState) :
    KeepsPins s (unbindAll dev waits l s).2 := by
  induction l generalizing s with
  | nil => exact refl s
  | cons o l ih =>
    have hstep := objectUnbind dev s o (waits o)
    unfold Gtt.unbindAll
    dsimp only
    split
    · exact hstep.trans (ih _)
    · exact hstep

theorem evictSomething (dev : GttDev) (s : GttState) (q : MmRequest) (lru : List ℕ)
    (waits : ℕ → Waits) : KeepsPins s (evictSomething dev s q lru waits).2 := by
  have hscan : KeepsPins s (evictScan s q lru).2 := of_obj rfl
  unfold Gtt.evictSomething
  dsimp only
  split
  · exact hscan
  · exact hscan.trans (unbindAll ..)

theorem bindEvicting (dev : GttDev) (lru : GttState → List ℕ) (o alignment : ℕ)
    (mapAndFenceable : Bool) (rounds : List (ℕ → Waits)) (s : GttState) :
    KeepsPins s (bindEvicting dev lru o alignment mapAndFenceable rounds s).2 := by
  induction rounds generalizing s with
  | nil => exact objectBindToGtt ..
  | cons waits l ih =>
    have hbind := objectBindToGtt dev s o alignment mapAndFenceable 0 true
    unfold Gtt.bindEvicting
    dsimp only
    split
    · exact hbind
    split
    · exact hbind.trans (evictSomething ..)
    · exact hbind.trans ((evictSomething ..).trans (ih _))

theorem bindToGtt (dev : GttDev) (s : GttState) (o alignment : ℕ) (mapAndFenceable : Bool)
    (x : BindOutcome) : KeepsPins s (bindToGtt dev s o alignment mapAndFenceable x).2 := by
  unfold Gtt.bindToGtt
  split
  · exact objectBindToGtt ..
  · exact bindEvicting ..

theorem bindIfNeeded (dev : PinDev) (s : GttState) (o alignment : ℕ) (mapAndFenceable : Bool)
    (x : BindOutcome) : KeepsPins s (bindIfNeeded dev s o alignment mapAndFenceable x).2 := by
  have hbind := bindToGtt dev.toGttDev s o alignment mapAndFenceable x
  unfold Gtt.bindIfNeeded
  split
  · exact refl s
  dsimp only
  split
  · exact hbind
  split
  · exact hbind
  · exact hbind.trans (gttBindObject ..)

theorem objectSetCacheLevel (dev : GttDev) (s : GttState) (o : ℕ) (level : CacheLevel)
    (w w' : Waits) : KeepsPins s (objectSetCacheLevel dev s o level w w').2 := by
  have hset : ∀ t : GttState, KeepsPins t (cacheLevelSet dev t o level) := by
    intro t
    unfold cacheLevelSet
    split
    · have hbind : KeepsPins t (if (t.obj o).hasGlobalGttMapping then
          Gtt.gttBindObject dev t o level else t) := by
        split
        · exact gttBindObject ..
        · exact refl t
      exact hbind.trans (of_update rfl rfl fun _ h => h)
    · exact setObj rfl id
  rcases objectSetCacheLevel_cases dev s o level w w' with he | ⟨-, -, he⟩ | ⟨-, he⟩
  · rw [he]
    exact refl s
  · rw [he]
    exact (objectUnbind dev s o w).trans (hset _)
  · rw [he]
    exact hset s

/-- Other calls of the driver. -/
theorem run (dev : GttDev) {c : GttCall} (hc : c.movesPins = false) (ha : c.Allowed s) :
    KeepsPins s (c.run dev s) := by
  cases c with
  | create o pages pfnarray tiled => cases hc
  | setTiling o tiled => exact of_update rfl rfl fun _ h => h
  | bindToGtt o alignment mapAndFenceable getPages kzalloc => exact objectBindToGtt ..
  | gttBind o => exact gttBindObject ..
  | pin o => cases hc
  | unpin o => cases hc
  | unbind o w => exact objectUnbind ..
  | setCacheLevel o level w w' => exact objectSetCacheLevel ..
  | scan q lru => exact of_obj rfl

end KeepsPins

/-! ### i915_gem_object_pin -/

theorem bindRefused_error (dev : GttDev) (obj : GttObj) :
    bindRefused dev obj alignment mapAndFenceable ≠ some 0 := by
  unfold bindRefused
  split
  · simp
  · split <;> simp

theorem objectBindToGtt_bound (dev : GttDev) (s : GttState) (getPages : ℤ) (kzalloc : Bool) :
    (objectBindToGtt dev s o alignment mapAndFenceable getPages kzalloc).1 = 0 →
      ((objectBindToGtt dev s o alignment mapAndFenceable getPages kzalloc).2.obj o).gttSpace =
        true := by
  unfold objectBindToGtt
  split
  · rename_i e he
    rintro rfl
    exact absurd he (bindRefused_error dev _)
  split
  · exact fun h => absurd h ‹_›
  split
  · exact fun h => absurd h (show ¬ Errno.eNomem = 0 by decide)
  dsimp only
  split
  · unfold bindInserted
    dsimp only
    split
    · exact fun h => absurd h (show ¬ Errno.eInval = 0 by decide)
    · exact fun _ => by rw [GttState.setObj_self]
  · exact fun h => absurd h ‹_›

theorem bindEvicting_bound {dev : GttDev} {lru : GttState → List ℕ}
    (rounds : List (ℕ → Waits)) (s : GttState) :
    (bindEvicting dev lru o alignment mapAndFenceable rounds s).1 = 0 →
      ((bindEvicting dev lru o alignment mapAndFenceable rounds s).2.obj o).gttSpace = true := by
  induction rounds generalizing s with
  | nil => exact objectBindToGtt_bound dev s 0 true
  | cons waits l ih =>
    unfold bindEvicting
    dsimp only
    split
    · exact objectBindToGtt_bound dev s 0 true
    split
    · exact fun h => absurd h ‹_›
    · exact ih _

theorem bindToGtt_bound (dev : GttDev) (s : GttState) (x : BindOutcome) :
    (bindToGtt dev s o alignment mapAndFenceable x).1 = 0 →
      ((bindToGtt dev s o alignment mapAndFenceable x).2.obj o).gttSpace = true := by
  unfold bindToGtt
  split
  · exact objectBindToGtt_bound dev s _ _
  · exact bindEvicting_bound _ s

theorem gttBindObject_gttSpace (dev : GttDev) (s : GttState) (o p : ℕ) (level : CacheLevel) :
    ((gttBindObject dev s o level).obj p).gttSpace = (s.obj p).gttSpace :=
  ((SamePlaces.gttBindObject dev s o level).fields p).2.1

theorem bindIfNeeded_bound (dev : PinDev) (s : GttState) (x : BindOutcome) :
    (bindIfNeeded dev s o alignment mapAndFenceable x).1 = 0 →
      ((bindIfNeeded dev s o alignment mapAndFenceable x).2.obj o).gttSpace = true := by
  unfold bindIfNeeded
  split
  · exact fun _ => by assumption
  dsimp only
  split
  · exact fun h => absurd h ‹_›
  rename_i hret
  have hbound := bindToGtt_bound _ _ _ (not_not.mp hret)
  split
  · exact fun _ => hbound
  · exact fun _ => by rwa [gttBindObject_gttSpace]

theorem bindIfNeeded_ok_iff {x : BindOutcome} :
    (bindIfNeeded dev s o alignment mapAndFenceable x).1 = 0 ↔ (s.obj o).gttSpace = true ∨
      (bindToGtt dev.toGttDev s o alignment mapAndFenceable x).1 = 0 := by
  unfold bindIfNeeded
  split
  · simp_all
  rename_i hb
  dsimp only
  split
  · rename_i hret
    simp [hb]
  · rename_i hret
    rw [not_not] at hret
    split <;> simp [hret]

theorem KeepsPins.unbindMisplaced (dev : GttDev) (s : GttState) (o alignment : ℕ)
    (mapAndFenceable : Bool) (w : Waits) :
    KeepsPins s (unbindMisplaced dev s o alignment mapAndFenceable w).2 := by
  unfold Gtt.unbindMisplaced
  split
  · exact KeepsPins.objectUnbind ..
  · exact refl s

theorem KeepsPins.mapIfNeeded (dev : GttDev) (s : GttState) (o : ℕ) (mapAndFenceable : Bool) :
    KeepsPins s (mapIfNeeded dev s o mapAndFenceable) := by
  unfold Gtt.mapIfNeeded
  split
  · exact KeepsPins.gttBindObject ..
  · exact refl s

theorem mapIfNeeded_gttSpace (dev : GttDev) (s : GttState) (o p : ℕ) (mapAndFenceable : Bool) :
    ((mapIfNeeded dev s o mapAndFenceable).obj p).gttSpace = (s.obj p).gttSpace := by
  unfold mapIfNeeded
  split
  · rw [gttBindObject_gttSpace]
  · rfl

/-- A pin that fails moves no pin; one that succeeds moves one, of a bound object. -/
theorem objectPin_cases (dev : PinDev) (s : GttState) (o alignment : ℕ) (mapAndFenceable : Bool)
    (x : PinOutcome) :
    ((objectPin dev s o alignment mapAndFenceable x).1 ≠ 0 ∧
        KeepsPins s (objectPin dev s o alignment mapAndFenceable x).2) ∨
      (objectPin dev s o alignment mapAndFenceable x).1 = 0 ∧
        (s.obj o).pinCount ≠ objectMaxPinCount ∧ ∃ t, KeepsPins s t ∧ (t.obj o).gttSpace = true ∧
          (objectPin dev s o alignment mapAndFenceable x).2 =
            t.setObj o fun obj => { obj with pinCount := obj.pinCount + 1 } := by
  unfold objectPin
  split
  · exact .inl ⟨show ¬ Errno.eBusy = 0 by decide, .refl s⟩
  rename_i hmax
  have hmoved := KeepsPins.unbindMisplaced dev.toGttDev s o alignment mapAndFenceable x.waits
  dsimp only
  split
  · exact .inl ⟨‹_›, hmoved⟩
  have hbind := hmoved.trans (KeepsPins.bindIfNeeded dev _ o alignment mapAndFenceable x.bind)
  split
  · exact .inl ⟨‹_›, hbind⟩
  rename_i hret
  have hbound := bindIfNeeded_bound dev _ _ (not_not.mp hret)
  exact .inr ⟨rfl, hmax, _, hbind.trans (KeepsPins.mapIfNeeded ..),
    (mapIfNeeded_gttSpace ..).trans hbound, rfl⟩

theorem objectUnbind_ok_iff {dev : GttDev} {w : Waits} (hb : (s.obj o).gttSpace = true) :
    (objectUnbind dev s o w).1 = 0 ↔ (s.obj o).pinCount = 0 ∧ w = {} := by
  rcases objectUnbind_cases dev s o w with ⟨-, hret⟩ | ⟨-, hp, hw, he⟩
  · have hbusy : (objectUnbind dev s o w).1 ≠ 0 := fun h => by
      rw [hret h] at hb
      cases hb
    refine ⟨fun h => absurd h hbusy, ?_⟩
    rintro ⟨hp, rfl⟩
    refine absurd ?_ hbusy
    simp [objectUnbind, hb, hp]
  · rw [he]
    exact ⟨fun _ => ⟨hp, hw⟩, fun _ => rfl⟩

theorem objectPin_ok_iff (dev : PinDev) (s : GttState) (o alignment : ℕ) (mapAndFenceable : Bool)
    (x : PinOutcome) :
    (objectPin dev s o alignment mapAndFenceable x).1 = 0 ↔
      CanPin dev s o alignment mapAndFenceable x := by
  unfold objectPin CanPin
  split
  · rename_i hmax
    simp [hmax]
  rename_i hmax
  rw [and_iff_right hmax]
  have hsteps : ∀ (u b : ℤ × GttState) (t : GttState),
      (if u.1 ≠ 0 then u else if b.1 ≠ 0 then b else ((0 : ℤ), t)).1 = 0 ↔ u.1 = 0 ∧ b.1 = 0 := by
    intro u b t
    by_cases hu : u.1 = 0
    · by_cases hb : b.1 = 0 <;> simp [hu, hb]
    · simp [hu]
  rw [hsteps, bindIfNeeded_ok_iff]
  unfold unbindMisplaced
  cases hb : (s.obj o).gttSpace with
  | false =>
    have hsame : (objectUnbind dev.toGttDev s o x.waits).2 = s := by
      simp [objectUnbind, hb]
    simp [hsame, hb]
  | true =>
    cases hm : (s.obj o).misplaced alignment mapAndFenceable with
    | false => simp [hb]
    | true =>
      have hret : (objectUnbind dev.toGttDev s o x.waits).1 = 0 ↔
          (s.obj o).pinCount = 0 ∧ x.waits = {} := objectUnbind_ok_iff hb
      simp only [Bool.true_eq_false, and_false, false_or, ← hret]
      refine and_congr_right fun hzero => ?_
      simp [objectUnbind_unbound hzero]

end GfxDrm.Gtt
