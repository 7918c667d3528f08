import GfxDrm.Gtt.Bound

/-! What unbinding leaves in the GTT. -/

namespace GfxDrm.Gtt
open Run

/-- The entries of an object's range. -/
def GttObj.Covers (obj : GttObj) (e : ℕ) : Prop :=
  obj.gttOffset / pageSize ≤ e ∧ e < obj.gttOffset / pageSize + obj.size / pageSize

instance (obj : GttObj) (e : ℕ) : Decidable (obj.Covers e) := inferInstanceAs (Decidable (_ ∧ _))

/-- The entry that points to the scratch page. -/
def scratchEntry (dev : GttDev) : ℕ :=
  if dev.gen ≤ 5 then phys2entry (pageAddr dev.scratchPfn)
  else pteEncode dev (pageAddr dev.scratchPfn) .llc

/-- Clearing the range of `o` works: always from generation 6 on. Before that, when the object
has not been cleared yet, its range lies in the aperture, and the number of the scratch page
passes for its address. -/
def Clearable (dev : GttDev) (s : GttState) (o : ℕ) : Prop :=
  5 < dev.gen ∨ ((s.obj o).agpMem = 0 ∧
    (s.obj o).gttOffset / pageSize + (s.obj o).size / pageSize ≤ dev.aperPages ∧
    dev.scratchPfn % 2 ^ 32 ≠ 0 ∧ phys2entry dev.scratchPfn = phys2entry (pageAddr dev.scratchPfn))

instance (dev : GttDev) (s : GttState) (o : ℕ) : Decidable (Clearable dev s o) :=
  inferInstanceAs (Decidable (_ ∨ _))

/-- The unbinding of an object is not put off. -/
def Unbinds (s : GttState) (o : ℕ) (w : Waits) : Prop :=
  (s.obj o).gttSpace = true ∧ (s.obj o).pinCount = 0 ∧ w = {}

/-- An object in the GTT that the call unbinds can be cleared. -/
def GttCall.Clears (dev : GttDev) (s : GttState) : GttCall → Prop
  | .unbind o w => Unbinds s o w → (s.obj o).hasGlobalGttMapping = true → Clearable dev s o
  | .setCacheLevel o level w _ => (s.obj o).cacheLevel ≠ level →
    validGttSpace dev s o level = false → Unbinds s o w →
      (s.obj o).hasGlobalGttMapping = true → Clearable dev s o
  | _ => True

/-- The object whose range a call may write. -/
def GttCall.object : GttCall → Option ℕ
  | .gttBind o => some o
  | .unbind o _ => some o
  | .setCacheLevel o _ _ _ => some o
  | _ => none

/-- The call has nothing to do with the entry `e`. -/
def GttCall.Spares (e : ℕ) (s : GttState) (a : GttCall) : Prop :=
  ∀ o, a.object = some o → ¬ (s.obj o).Covers e

/-- The runs from a given state on. -/
def gttFrom (dev : GttDev) (s : GttState) : System GttState GttCall :=
  { gttSystem dev with init := fun s' => s' = s }

variable {dev : GttDev} {s s' : GttState} {o e : ℕ} {level : CacheLevel} {w w' : Waits}
  {a : GttCall}

/-! ### The entries outside the range -/

theorem putEntries_of_not {first num : ℕ} {entry : ℕ → ℕ}
    (h : ¬(first ≤ e ∧ e < first + num)) : (putEntries s first num entry).pte e = s.pte e :=
  if_neg h

theorem gttBindObject_pte (h : ¬ (s.obj o).Covers e) :
    (gttBindObject dev s o level).pte e = s.pte e := by
  unfold gttBindObject
  rw [GttState.setObj_pte]
  split
  · unfold i915GgttInsertEntries i8xxAddToGtt
    split
    · rfl
    · exact putEntries_of_not h
  · exact putEntries_of_not h

theorem gttUnbindObject_pte (h : ¬ (s.obj o).Covers e) :
    (gttUnbindObject dev s o).pte e = s.pte e := by
  unfold gttUnbindObject
  rw [GttState.setObj_pte]
  split
  · unfold i915GgttClearRange i8xxRemoveFromGtt
    split
    · rw [GttState.setObj_pte]
      dsimp only
      split
      · rfl
      · exact putEntries_of_not h
    · rfl
  · unfold gen6GgttClearRange
    apply putEntries_of_not
    rintro ⟨hle, hlt⟩
    refine h ⟨hle, hlt.trans_le (Nat.add_le_add_left ?_ _)⟩
    split
    · exact Nat.le_of_lt ‹_›
    · exact le_rfl

theorem objectUnbind_pte (h : ¬ (s.obj o).Covers e) :
    (objectUnbind dev s o w).2.pte e = s.pte e := by
  rcases objectUnbind_cases dev s o w with ⟨he, -⟩ | ⟨-, -, -, he⟩
  · rw [he]
  · rw [he]
    split
    · exact gttUnbindObject_pte h
    · rfl

theorem cacheLevelSet_pte (h : (s.obj o).gttSpace = true → ¬ (s.obj o).Covers e) :
    (cacheLevelSet dev s o level).pte e = s.pte e := by
  unfold cacheLevelSet
  split
  · rename_i hb
    split
    · exact gttBindObject_pte (h hb)
    · rfl
  · rfl

theorem objectSetCacheLevel_pte (h : ¬ (s.obj o).Covers e) :
    (objectSetCacheLevel dev s o level w w').2.pte e = s.pte e := by
  rcases objectSetCacheLevel_cases dev s o level w w' with he | ⟨-, hret, he⟩ | ⟨-, he⟩
  · rw [he]
  · rw [he, cacheLevelSet_pte, objectUnbind_pte h]
    intro hb
    rw [objectUnbind_unbound hret] at hb
    cases hb
  · rw [he, cacheLevelSet_pte fun _ => h]

theorem bindInserted_pte : (bindInserted dev s o).2.pte = s.pte := by
  unfold bindInserted
  dsimp only
  split <;> rfl

theorem objectBindToGtt_pte {alignment : ℕ} {mapAndFenceable kzalloc : Bool} {getPages : ℤ} :
    (objectBindToGtt dev s o alignment mapAndFenceable getPages kzalloc).2.pte = s.pte := by
  unfold objectBindToGtt
  split
  · rfl
  split
  · rfl
  split
  · rfl
  dsimp only
  split
  · exact bindInserted_pte
  · rfl

/-- A call writes no entry outside its object's range. -/
theorem GttCall.Spares.pte (h : a.Spares e s) : (a.run dev s).pte e = s.pte e := by
  cases a with
  | create | setTiling | pin | unpin | scan => rfl
  | bindToGtt o alignment mapAndFenceable getPages kzalloc =>
    exact congrFun objectBindToGtt_pte e
  | gttBind o => exact gttBindObject_pte (h o rfl)
  | unbind o w => exact objectUnbind_pte (h o rfl)
  | setCacheLevel o level w w' => exact objectSetCacheLevel_pte (h o rfl)

/-! ### The entries of the range -/

theorem putEntries_of {first num : ℕ} {entry : ℕ → ℕ} (h : first ≤ e ∧ e < first + num) :
    (putEntries s first num entry).pte e = entry (e - first) :=
  if_pos h

theorem gttUnbindObject_scratch (hend : (s.obj o).gttOffset + (s.obj o).size ≤ dev.total)
    (hc : Clearable dev s o) (he : (s.obj o).Covers e) :
    (gttUnbindObject dev s o).pte e = scratchEntry dev := by
  unfold gttUnbindObject scratchEntry
  rw [GttState.setObj_pte]
  by_cases hgen : dev.gen ≤ 5
  · rw [if_pos hgen, if_pos hgen]
    obtain ⟨hagp, haper, hpfn, hentry⟩ := hc.resolve_left (not_lt.mpr hgen)
    unfold i915GgttClearRange i8xxRemoveFromGtt
    rw [if_pos hagp, GttState.setObj_pte]
    rw [if_neg (not_lt.mpr haper), if_neg hpfn, putEntries_of he, hentry]
  · rw [if_neg hgen, if_neg hgen]
    unfold gen6GgttClearRange
    have hdiv : (s.obj o).gttOffset / pageSize + (s.obj o).size / pageSize ≤
        dev.total / pageSize :=
      Nat.div_add_div_le_add_div.trans (Nat.div_le_div_right hend)
    dsimp only
    rw [if_neg (by omega), putEntries_of he]

theorem objectUnbind_scratch (h : GttInv dev s) (hu : Unbinds s o w)
    (hg : (s.obj o).hasGlobalGttMapping = true) (hc : Clearable dev s o)
    (he : (s.obj o).Covers e) : (objectUnbind dev s o w).2.pte e = scratchEntry dev := by
  obtain ⟨hb, hp, rfl⟩ := hu
  have hend := (h.end_le hb).trans (Nat.sub_le _ _)
  rcases objectUnbind_cases dev s o {} with ⟨-, hzero⟩ | ⟨-, -, -, hret⟩
  · have hnot : (objectUnbind dev s o {}).1 = 0 := by
      simp [objectUnbind, hb, hp]
    rw [hzero hnot] at hb
    cases hb
  · rw [hret, if_pos hg]
    exact gttUnbindObject_scratch hend hc he

/-! ### Which calls unbind -/

theorem objectUnbind_gttSpace {p : ℕ} (h : p ≠ o) :
    ((objectUnbind dev s o w).2.obj p).gttSpace = (s.obj p).gttSpace := by
  rcases objectUnbind_cases dev s o w with ⟨he, -⟩ | ⟨-, -, -, he⟩
  · rw [he]
  · rw [he]
    simp only [dropSpace, GttState.setObj_of_ne h]
    split
    · exact ((SamePlaces.gttUnbindObject dev s o).fields p).2.1
    · rfl

theorem cacheLevelSet_gttSpace (p : ℕ) :
    ((cacheLevelSet dev s o level).obj p).gttSpace = (s.obj p).gttSpace := by
  unfold cacheLevelSet
  split
  · have hsame : SamePlaces s
        (if (s.obj o).hasGlobalGttMapping then gttBindObject dev s o level else s) := by
      split
      · exact SamePlaces.gttBindObject ..
      · exact SamePlaces.refl s
    rw [← (hsame.fields p).2.1]
    by_cases hp : p = o
    · rw [hp, GttState.setObj_self]
    · rw [GttState.setObj_of_ne hp]
  · by_cases hp : p = o
    · rw [hp, GttState.setObj_self]
    · rw [GttState.setObj_of_ne hp]

theorem bindInserted_obj {p : ℕ} (h : p ≠ o) : (bindInserted dev s o).2.obj p = s.obj p := by
  unfold bindInserted
  dsimp only
  split
  · rfl
  · dsimp only
    exact GttState.setObj_of_ne h _

theorem objectBindToGtt_obj {p alignment : ℕ} {mapAndFenceable kzalloc : Bool} {getPages : ℤ}
    (h : p ≠ o) :
    (objectBindToGtt dev s o alignment mapAndFenceable getPages kzalloc).2.obj p = s.obj p := by
  unfold objectBindToGtt
  split
  · rfl
  split
  · rfl
  split
  · rfl
  dsimp only
  split
  · exact bindInserted_obj h
  · rfl

theorem setObj_gttSpace {f : GttObj → GttObj} (hf : (f (s.obj o)).gttSpace = (s.obj o).gttSpace)
    (p : ℕ) : ((s.setObj o f).obj p).gttSpace = (s.obj p).gttSpace := by
  by_cases hp : p = o
  · rw [hp, GttState.setObj_self, hf]
  · rw [GttState.setObj_of_ne hp]

/-- A bound object that a call unbinds has been unbound by i915_gem_object_unbind. -/
theorem run_unbound (ha : a.Allowed s) (hb : (s.obj o).gttSpace = true)
    (hu : ((a.run dev s).obj o).gttSpace = false) :
    (∃ w, a = .unbind o w ∧ Unbinds s o w) ∨
    (∃ level w w', a = .setCacheLevel o level w w' ∧ (s.obj o).cacheLevel ≠ level ∧
      validGttSpace dev s o level = false ∧ Unbinds s o w ∧
      a.run dev s = cacheLevelSet dev (objectUnbind dev s o w).2 o level) := by
  have hne : ∀ p, (s.obj p).gttSpace = false → o ≠ p := by
    rintro p hp rfl
    rw [hb] at hp
    cases hp
  have hstill : ((a.run dev s).obj o).gttSpace ≠ (s.obj o).gttSpace := by
    rw [hu, hb]
    exact Bool.false_ne_true
  cases a with
  | create p pages pfnarray tiled =>
    refine (hstill (congrArg GttObj.gttSpace ?_)).elim
    unfold GttCall.run
    exact GttState.setObj_of_ne (hne p ha.1) _
  | setTiling p tiled =>
    exact (hstill (setObj_gttSpace (f := fun obj => { obj with tiled := tiled }) rfl o)).elim
  | bindToGtt p alignment mapAndFenceable getPages kzalloc =>
    exact (hstill (congrArg GttObj.gttSpace (objectBindToGtt_obj (hne p ha.1)))).elim
  | gttBind p => exact (hstill ((SamePlaces.gttBindObject dev s p _).fields o).2.1).elim
  | pin p =>
    exact (hstill (setObj_gttSpace
      (f := fun obj => { obj with pinCount := obj.pinCount + 1 }) rfl o)).elim
  | unpin p =>
    exact (hstill (setObj_gttSpace
      (f := fun obj => { obj with pinCount := obj.pinCount - 1 }) rfl o)).elim
  | unbind p w =>
    by_cases hop : o = p
    · subst hop
      refine .inl ⟨w, rfl, ?_⟩
      rcases objectUnbind_cases dev s o w with ⟨he, -⟩ | ⟨hb, hp, hw, -⟩
      · exact absurd (congrArg (fun t : GttState => (t.obj o).gttSpace) he) hstill
      · exact ⟨hb, hp, hw⟩
    · exact absurd (objectUnbind_gttSpace hop) hstill
  | setCacheLevel p level w w' =>
    have hsame : (s.obj p).cacheLevel = level →
        (objectSetCacheLevel dev s p level w w').2 = s := by
      intro h
      simp [objectSetCacheLevel, h]
    rcases objectSetCacheLevel_cases dev s p level w w' with he | ⟨hv, hret, he⟩ | ⟨-, he⟩
    · exact absurd (congrArg (fun t : GttState => (t.obj o).gttSpace) he) hstill
    · by_cases hop : o = p
      · subst hop
        refine .inr ⟨level, w, w', rfl, fun h => ?_, hv, ?_, he⟩
        · exact absurd (congrArg (fun t : GttState => (t.obj o).gttSpace) (hsame h)) hstill
        · rcases objectUnbind_cases dev s o w with ⟨-, hzero⟩ | ⟨hb, hp, hw, -⟩
          · exact absurd (hzero hret) (by simp [hb])
          · exact ⟨hb, hp, hw⟩
      · refine absurd ?_ hstill
        refine (congrArg (fun t : GttState => (t.obj o).gttSpace) he).trans ?_
        exact (cacheLevelSet_gttSpace o).trans (objectUnbind_gttSpace hop)
    · refine absurd ?_ hstill
      exact (congrArg (fun t : GttState => (t.obj o).gttSpace) he).trans (cacheLevelSet_gttSpace o)
  | scan q lru => exact absurd rfl hstill

/-- A call that unbinds an object with a mapping leaves its range on the scratch page. -/
theorem run_scratch (h : GttInv dev s) (ha : a.Allowed s) (hc : a.Clears dev s)
    (hb : (s.obj o).gttSpace = true) (hg : (s.obj o).hasGlobalGttMapping = true)
    (hu : ((a.run dev s).obj o).gttSpace = false) (he : (s.obj o).Covers e) :
    (a.run dev s).pte e = scratchEntry dev := by
  rcases run_unbound ha hb hu with ⟨w, rfl, hw⟩ | ⟨level, w, w', rfl, hlevel, hv, hw, hrun⟩
  · exact objectUnbind_scratch h hw hg (hc hw hg) he
  · rw [hrun, cacheLevelSet_pte]
    · exact objectUnbind_scratch h hw hg (hc hlevel hv hw hg) he
    · intro hb'
      rcases objectUnbind_cases dev s o w with ⟨-, hzero⟩ | ⟨-, -, -, hret⟩
      · rw [hrun, cacheLevelSet_gttSpace, hb'] at hu
        cases hu
      · rw [hret] at hb'
        simp [dropSpace] at hb'

/-! ### Runs -/

/-- What a call leaves in an entry stays there until a call has to do with it again. -/
theorem pte_of_spared (h : ReachWhile (gttFrom dev s) (fun s a => a.Spares e s) s') :
    s'.pte e = s.pte e := by
  refine h.invariant (I := fun t => t.pte e = s.pte e) (fun t ht => ?_) fun t a t' ht hsp hs => ?_
  · rw [show t = s from ht]
  · rw [show t' = a.run dev t from hs.2, hsp.pte, ht]

/-- The entries of an unbound object point to the scratch page until a later call has to do
with them, and a call changes no entry outside its object's range. -/
theorem gtt_unbound_scratch (dev : GttDev) (s s' : GttState) (a : GttCall)
    (h : Reach (gttSystem dev) s) (hc : a.Clears dev s) (hs : (gttSystem dev).step s a s') :
    (∀ o, (s.obj o).gttSpace = true → (s.obj o).hasGlobalGttMapping = true →
      (s'.obj o).gttSpace = false → ∀ e, (s.obj o).Covers e →
        ∀ s'', ReachWhile (gttFrom dev s') (fun t a => a.Spares e t) s'' →
          s''.pte e = scratchEntry dev) ∧
    ∀ e, a.Spares e s → s'.pte e = s.pte e := by
  obtain ⟨ha, rfl⟩ := hs
  refine ⟨fun o hb hg hu e he s'' hs'' => ?_, fun e hsp => hsp.pte⟩
  rw [pte_of_spared hs'']
  exact run_scratch (reach_gttInv h) ha hc hb hg hu he

/-- An object of one page is bound, unbound and bound again. -/
def bindTwice : List GttCall :=
  [.create 0 1 (fun _ => 7) false, .bindToGtt 0 0 false 0 true, .gttBind 0, .unbind 0 {},
    .bindToGtt 0 0 false 0 true, .gttBind 0]

def boundAgain (dev : GttDev) : GttState := bindTwice.foldl (GttCall.run dev) (emptyGtt dev)

/-- On generation 4 its second unbinding leaves its page in the GTT. -/
theorem gtt_unbound_mapped : ¬ ∀ (dev : GttDev) (s s' : GttState) (a : GttCall),
    Reach (gttSystem dev) s → (gttSystem dev).step s a s' →
    (∀ o, (s.obj o).gttSpace = true → (s.obj o).hasGlobalGttMapping = true →
      (s'.obj o).gttSpace = false → ∀ e, (s.obj o).Covers e →
        ∀ s'', ReachWhile (gttFrom dev s') (fun t a => a.Spares e t) s'' →
          s''.pte e = scratchEntry dev) ∧
    ∀ e, a.Spares e s → s'.pte e = s.pte e := by
  intro h
  have hreach : Reach (gttSystem (smallGtt 4 0x1234)) (boundAgain (smallGtt 4 0x1234)) :=
    reach_foldl bindTwice emptyGtt_reach (by decide +kernel)
  have hpte := (h _ _ _ (.unbind 0 {}) hreach ⟨trivial, rfl⟩).1 0 (by decide +kernel)
    (by decide +kernel) (by decide +kernel) 0 (by decide +kernel) _ (.init rfl)
  exact absurd hpte (by decide +kernel)

/-- From generation 6 on every unbinding clears the range. -/
theorem gtt_unbound_scratch_six :
    ((GttCall.unbind 0 {}).run (smallGtt 6 0x1234) (boundAgain (smallGtt 6 0x1234))).pte 0 =
      scratchEntry (smallGtt 6 0x1234) := by
  have hreach : Reach (gttSystem (smallGtt 6 0x1234)) (boundAgain (smallGtt 6 0x1234)) :=
    reach_foldl bindTwice emptyGtt_reach (by decide +kernel)
  exact (gtt_unbound_scratch (smallGtt 6 0x1234) _ _ (.unbind 0 {}) hreach
    (fun _ _ => .inl (by decide)) ⟨trivial, rfl⟩).1 0 (by decide +kernel) (by decide +kernel)
    (by decide +kernel) 0 (by decide +kernel) _ (.init rfl)

end GfxDrm.Gtt
