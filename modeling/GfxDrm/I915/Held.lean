import GfxDrm.I915.Frames

/-! The state of pins, bindings and fences during the reservation of an execbuffer call. -/

namespace GfxDrm.I915

open Hoare Errno

/-- The state during a pass over `L` that began in `s`: the pass has pinned the objects of `P`
and the fences of those in `F`, and is at work on the objects of `C`. -/
structure Held (L : List ObjId) (s : World) (C P F : Finset ObjId) (w : World) : Prop where
  dev : w.dev = s.dev
  execEntry : ∀ o, s.dev.contextObj o = false → (w.bo o).execEntry = (s.bo o).execEntry
  pinCount : ∀ o, s.dev.contextObj o = false →
    (w.bo o).pinCount = (s.bo o).pinCount + if o ∈ P then 1 else 0
  fencePinned : ∀ o ∈ F, ∀ i, (w.bo o).fenceReg = some i →
    (w.fence i).pinCount = (s.fence i).pinCount + 1
  fenceFree : ∀ i, (∀ o ∈ F, (w.bo o).fenceReg ≠ some i) →
    (w.fence i).pinCount = (s.fence i).pinCount
  linked : ∀ o i, (w.bo o).fenceReg = some i ↔ (w.fence i).obj = some o
  unbound : ∀ o, s.dev.contextObj o = false → (w.bo o).gttSpace = false →
    (w.bo o).fenceReg = none ∧ (w.bo o).gttOffset = 0
  bound : ∀ o ∈ P, (w.bo o).gttSpace = true
  fenced : ∀ o ∈ F, o ∈ P ∧ (w.bo o).fenceReg ≠ none
  listed : ∀ o ∈ P, o ∈ L
  boundFrom : ∀ o, s.dev.contextObj o = false → (w.bo o).gttSpace = true →
    (s.bo o).gttSpace = true ∨ o ∈ P ∨ o ∈ C
  fenceFrom : ∀ o, s.dev.contextObj o = false → (s.bo o).gttSpace = false →
    (w.bo o).fenceReg ≠ none → o ∈ F ∨ o ∈ C
  hasPin : ∀ o ∈ L, (w.entry o).has execObjectHasPin =
    ((s.entry o).has execObjectHasPin || decide (o ∈ P))
  hasFence : ∀ o ∈ L, (w.entry o).has execObjectHasFence =
    ((s.entry o).has execObjectHasFence || decide (o ∈ F))

/-- The objects a call works on: each once, under an entry of its own, and none behind a
hardware context. -/
structure Listed (L : List ObjId) (w : World) : Prop where
  nodup : L.Nodup
  plain : ∀ o ∈ L, w.dev.contextObj o = false
  entries : ∀ o ∈ L, ∀ x ∈ L, (w.bo o).execEntry = (w.bo x).execEntry → o = x

/-- What the driver keeps true of pins and fences between calls. -/
structure World.Consistent (w : World) : Prop where
  pins : ∀ o, w.dev.contextObj o = false → (w.bo o).pinCount ≤ maxPinCount
  fencePins : ∀ i, 0 ≤ (w.fence i).pinCount
  linked : ∀ o i, (w.bo o).fenceReg = some i ↔ (w.fence i).obj = some o
  unbound : ∀ o, w.dev.contextObj o = false → (w.bo o).gttSpace = false →
    (w.bo o).fenceReg = none ∧ (w.bo o).gttOffset = 0

theorem World.Consistent.held {L : List ObjId} {w : World} (h : w.Consistent) :
    Held L w ∅ ∅ ∅ w := by
  constructor <;> simp_all [h.linked, h.unbound]

namespace Held

variable {L : List ObjId} {s w w' : World} {C P F : Finset ObjId} {o : ObjId}

theorem core_eq (h : w.Same w') (x : ObjId) :
    (w'.bo x).pinCount = (w.bo x).pinCount ∧ (w'.bo x).gttSpace = (w.bo x).gttSpace ∧
    (w'.bo x).gttOffset = (w.bo x).gttOffset ∧ (w'.bo x).fenceReg = (w.bo x).fenceReg ∧
    (w'.bo x).execEntry = (w.bo x).execEntry := by
  simpa [Bo.core] using h.core x

theorem has_eq (h : w.Same w') (x : ObjId) (flag : BitVec 64) :
    (w'.entry x).has flag = (w.entry x).has flag := by
  unfold ExecObject2.has World.entry
  rw [(core_eq h x).2.2.2.2, h.flags]

theorem congr (hw : Held L s C P F w) (h : w.Same w') : Held L s C P F w' := by
  have hc := core_eq h
  have hf := h.fence
  constructor
  case dev => exact h.dev.trans hw.dev
  case execEntry => exact fun x hx => (hc x).2.2.2.2.trans (hw.execEntry x hx)
  case pinCount => exact fun x hx => (hc x).1.trans (hw.pinCount x hx)
  case fencePinned => simpa [hc, hf] using hw.fencePinned
  case fenceFree => simpa [hc, hf] using hw.fenceFree
  case linked => simpa [hc, hf] using hw.linked
  case unbound => simpa [hc] using hw.unbound
  case bound => simpa [hc] using hw.bound
  case fenced => simpa [hc] using hw.fenced
  case listed => exact hw.listed
  case boundFrom => simpa [hc] using hw.boundFrom
  case fenceFrom => simpa [hc] using hw.fenceFrom
  case hasPin => exact fun x hx => (has_eq h x _).trans (hw.hasPin x hx)
  case hasFence => exact fun x hx => (has_eq h x _).trans (hw.hasFence x hx)

theorem keeps_same {α : Type} {m : ExecM α} (h : Frame World.Same m) : Keeps (Held L s C P F) m :=
  fun _ hw => hw.congr (h _)

theorem keeps {α : Type} {m : ExecM α} (h : Quiet m) : Keeps (Held L s C P F) m :=
  keeps_same h.same

theorem quiet_from {α : Type} {m : ExecM α} (h : Quiet m) (hw : Held L s C P F w) :
    Triple (fun v => v = w) m fun _ v => Held L s C P F v ∧ w.Same v := by
  rintro v rfl
  exact ⟨hw.congr (h.same v), h.same v⟩

theorem entry_setBo {b : Bo} (h : b.execEntry = (w.bo o).execEntry) (x : ObjId) :
    (w.setBo o b).entry x = w.entry x := by
  unfold World.entry
  by_cases hx : x = o
  · subst hx
    rw [w.setBo_self, h]
    rfl
  · rw [w.setBo_of_ne _ _ _ hx]
    rfl

/-- The fence register of one object outside `F` may change, as long as registers and objects
keep naming each other. -/
theorem relink (hw : Held L s C P F w) (ho : o ∉ F) (hdev : w'.dev = w.dev)
    (hflags : ∀ i, (w'.exec i).flags = (w.exec i).flags)
    (hcore : ∀ x ≠ o, (w'.bo x).core = (w.bo x).core)
    (hself : (w'.bo o).core = { w.bo o with fenceReg := (w'.bo o).fenceReg }.core)
    (hpins : ∀ i, (w'.fence i).pinCount = (w.fence i).pinCount)
    (hlinked : ∀ x i, (w'.bo x).fenceReg = some i ↔ (w'.fence i).obj = some x)
    (hon : (w'.bo o).fenceReg ≠ none → s.dev.contextObj o = false →
      (w.bo o).gttSpace = true ∧ ((s.bo o).gttSpace = false → o ∈ C)) :
    Held L s C P F w' := by
  have hrest : ∀ x, (w'.bo x).pinCount = (w.bo x).pinCount ∧
      (w'.bo x).gttSpace = (w.bo x).gttSpace ∧ (w'.bo x).gttOffset = (w.bo x).gttOffset ∧
      (w'.bo x).execEntry = (w.bo x).execEntry := by
    intro x
    by_cases hx : x = o
    · subst hx
      simp only [Bo.core, Prod.mk.injEq] at hself
      exact ⟨hself.1, hself.2.1, hself.2.2.1, hself.2.2.2.2⟩
    · have h := hcore x hx
      simp only [Bo.core, Prod.mk.injEq] at h
      exact ⟨h.1, h.2.1, h.2.2.1, h.2.2.2.2⟩
  have hreg : ∀ x ≠ o, (w'.bo x).fenceReg = (w.bo x).fenceReg := by
    intro x hx
    have h := hcore x hx
    simp only [Bo.core, Prod.mk.injEq] at h
    exact h.2.2.2.1
  have hregF : ∀ x ∈ F, (w'.bo x).fenceReg = (w.bo x).fenceReg :=
    fun x hx => hreg x fun h => ho (h ▸ hx)
  have hhas : ∀ x flag, (w'.entry x).has flag = (w.entry x).has flag := by
    intro x flag
    unfold ExecObject2.has World.entry
    rw [(hrest x).2.2.2, hflags]
  constructor
  case dev => exact hdev.trans hw.dev
  case execEntry => exact fun x hx => (hrest x).2.2.2.trans (hw.execEntry x hx)
  case pinCount => exact fun x hx => (hrest x).1.trans (hw.pinCount x hx)
  case fencePinned =>
    intro x hx i hi
    rw [hpins]
    exact hw.fencePinned x hx i (hregF x hx ▸ hi)
  case fenceFree =>
    intro i hi
    rw [hpins]
    exact hw.fenceFree i fun x hx => hregF x hx ▸ hi x hx
  case linked => exact hlinked
  case unbound =>
    intro x hx hu
    rw [(hrest x).2.1] at hu
    obtain ⟨hf, hoff⟩ := hw.unbound x hx hu
    rw [(hrest x).2.2.1]
    refine ⟨?_, hoff⟩
    by_cases hxo : x = o
    · subst hxo
      by_contra hne
      simp [(hon hne hx).1] at hu
    · rw [hreg x hxo, hf]
  case bound => exact fun x hx => (hrest x).2.1.trans (hw.bound x hx)
  case fenced => exact fun x hx => ⟨(hw.fenced x hx).1, hregF x hx ▸ (hw.fenced x hx).2⟩
  case listed => exact hw.listed
  case boundFrom => exact fun x hx hb => hw.boundFrom x hx ((hrest x).2.1 ▸ hb)
  case fenceFrom =>
    intro x hx hs hne
    by_cases hxo : x = o
    · subst hxo
      exact Or.inr ((hon hne hx).2 hs)
    · exact hw.fenceFrom x hx hs (hreg x hxo ▸ hne)
  case hasPin => exact fun x hx => (hhas x _).trans (hw.hasPin x hx)
  case hasFence => exact fun x hx => (hhas x _).trans (hw.hasFence x hx)

variable {reg : ℕ}

/-- An object and a register change together. -/
theorem setBo_setFence (hw : Held L s C P F w) (ho : o ∉ F) {b : Bo} {f : FenceReg}
    (hb : b.core = { w.bo o with fenceReg := b.fenceReg }.core)
    (hf : f.pinCount = (w.fence reg).pinCount)
    (hother : ∀ x ≠ o, (w.bo x).fenceReg ≠ some reg ∧ f.obj ≠ some x)
    (hreg : b.fenceReg = some reg ↔ f.obj = some o)
    (hrest : ∀ i ≠ reg, b.fenceReg ≠ some i ∧ (w.bo o).fenceReg ≠ some i)
    (hon : b.fenceReg ≠ none → s.dev.contextObj o = false →
      (w.bo o).gttSpace = true ∧ ((s.bo o).gttSpace = false → o ∈ C)) :
    Held L s C P F ((w.setBo o b).setFence reg f) := by
  have hself : ((w.setBo o b).setFence reg f).bo o = b := w.setBo_self o b
  have hne : ∀ x ≠ o, ((w.setBo o b).setFence reg f).bo x = w.bo x :=
    fun x hx => w.setBo_of_ne _ _ _ hx
  have hfence : ∀ i, ((w.setBo o b).setFence reg f).fence i = if i = reg then f else w.fence i :=
    fun i => Function.update_apply ..
  refine hw.relink ho rfl (fun _ => rfl) (fun x hx => by rw [hne x hx]) ?_ ?_ ?_ ?_
  · rw [hself, hb]
  · intro i
    rw [hfence]
    split
    · simp_all
    · rfl
  · intro x i
    rw [hfence]
    by_cases hx : x = o
    · subst hx
      rw [hself]
      split
      · simp_all
      · rename_i hi
        have := (hw.linked x i).not.mp (hrest i hi).2
        simp [(hrest i hi).1, this]
    · rw [hne x hx]
      split
      · simp_all
      · exact hw.linked x i
  · rw [hself]
    exact hon

/-- An object loses its fence register. -/
theorem detach (hw : Held L s C P F w) (ho : o ∉ F) (hr : (w.bo o).fenceReg = some reg) {b : Bo}
    (hb : b.core = { w.bo o with fenceReg := none }.core) {f : FenceReg}
    (hf : f.pinCount = (w.fence reg).pinCount) (hobj : f.obj = none) :
    Held L s C P F ((w.setBo o b).setFence reg f) := by
  have hnone : b.fenceReg = none := by
    simp only [Bo.core, Prod.mk.injEq] at hb
    exact hb.2.2.2.1
  refine hw.setBo_setFence ho (by rw [hb, hnone]) hf (fun x hx => ⟨fun h => hx ?_, by simp [hobj]⟩)
    (by simp [hnone, hobj]) (fun i hi => ⟨by simp [hnone], by simp [hr, Ne.symm hi]⟩)
    (by simp [hnone])
  exact Option.some.inj (((hw.linked x reg).mp h).symm.trans ((hw.linked o reg).mp hr))

/-- An object without a fence gets a register that no object has. -/
theorem attach (hw : Held L s C P F w) (ho : o ∉ F) (hr : (w.bo o).fenceReg = none)
    (hfree : (w.fence reg).obj = none) {b : Bo}
    (hb : b.core = { w.bo o with fenceReg := some reg }.core) {f : FenceReg}
    (hf : f.pinCount = (w.fence reg).pinCount) (hobj : f.obj = some o)
    (hon : s.dev.contextObj o = false →
      (w.bo o).gttSpace = true ∧ ((s.bo o).gttSpace = false → o ∈ C)) :
    Held L s C P F ((w.setBo o b).setFence reg f) := by
  have hsome : b.fenceReg = some reg := by
    simp only [Bo.core, Prod.mk.injEq] at hb
    exact hb.2.2.2.1
  refine hw.setBo_setFence ho (by rw [hb, hsome]) hf
    (fun x hx => ⟨fun h => ?_, by simpa [hobj] using Ne.symm hx⟩) (by simp [hsome, hobj])
    (fun i hi => ⟨by simpa [hsome] using Ne.symm hi, by simp [hr]⟩) fun _ => hon
  exact absurd ((hw.linked x reg).mp h) (by simp [hfree])

theorem same_updateFence (w : World) (o : ObjId) (reg : ℕ) (enable : Bool) :
    World.Same ((w.setBo o { w.bo o with
      fenceReg := if enable then some reg else none, fenceDirty := false }).setFence reg
      { w.fence reg with obj := if enable then some o else none })
      (w.updateFence o reg enable) := ⟨rfl, rfl, fun _ => rfl, fun _ => rfl⟩

theorem putFence (ho : o ∉ F) :
    Triple (Held L s C P F) (putFence o)
      fun ret w => Held L s C P F w ∧ (ret = 0 → (w.bo o).fenceReg = none) := by
  refine Triple.bind (keeps Quiet.waitFence) fun ret => Triple.ite ?_ fun _ => triple_getBo ?_
  · exact fun hret => Triple.pure fun w hw => ⟨hw, fun h => absurd h hret⟩
  · intro b
    split
    · exact Triple.pure fun w hw => ⟨hw.1, fun _ => hw.2 ▸ ‹_›⟩
    · rename_i reg hreg
      rintro w ⟨hw, rfl⟩
      have h := hw.detach (b := { (w.bo o).fenceLost with fenceReg := none, fenceDirty := false })
        (f := { w.fence reg with obj := none }) ho hreg rfl rfl rfl
      have hsame := same_updateFence (w.setBo o (w.bo o).fenceLost) o reg false
      simp only [World.setBo_setBo, World.setBo_self] at hsame
      refine ⟨h.congr hsame, fun _ => ?_⟩
      exact (core_eq hsame o).2.2.2.1.trans (by simp [World.setFence])

theorem weaken {C' : Finset ObjId} (hw : Held L s C P F w) (hC : C ⊆ C') : Held L s C' P F w where
  __ := hw
  boundFrom x hx hb := (hw.boundFrom x hx hb).imp_right (Or.imp_right (@hC x))
  fenceFrom x hx hs hne := (hw.fenceFrom x hx hs hne).imp_right (@hC x)

/-- A register whose pin count is zero is none of those pinned. -/
theorem not_fenced (hw : Held L s C P F w) (hs : s.Consistent) (hr : (w.bo o).fenceReg = some reg)
    (hpin : (w.fence reg).pinCount = 0) : o ∉ F := by
  intro ho
  have := hw.fencePinned o ho reg hr
  have := hs.fencePins reg
  omega

theorem findFenceReg_some (h : w.findFenceReg = some reg) :
    (w.fence reg).obj = none ∨ (w.fence reg).pinCount = 0 := by
  unfold World.findFenceReg at h
  dsimp only at h
  split at h
  · rename_i i hi
    obtain rfl := Option.some.inj h
    exact Or.inl (by simpa using List.find?_some hi)
  · split at h
    · exact Or.inr (by simpa using List.find?_some h)
    · cases h

/-- What `getFence` knows of the object that is to have a fence. -/
def Fenceable (s : World) (o : ObjId) (w : World) : Prop :=
  s.dev.contextObj o = false → (w.bo o).gttSpace = true

theorem Fenceable.congr (h : Fenceable s o w) (hs : w.Same w') : Fenceable s o w' :=
  fun hp => (core_eq hs o).2.1.trans (h hp)

theorem stealFence (hs : s.Consistent) (reg : ℕ) :
    Triple (fun w => Held L s C P F w ∧ Fenceable s o w ∧ (w.bo o).fenceReg = none ∧
        ((w.fence reg).obj = none ∨ (w.fence reg).pinCount = 0))
      (stealFence reg) fun ret w =>
        (ret ≠ 0 → Held L s C P F w) ∧ (ret = 0 → Fenceable s o w ∧ (w.bo o).fenceReg = none ∧
          Held L s C P F (w.setFence reg { w.fence reg with obj := none })) := by
  refine triple_get fun v ⟨hv, hbound, hnone, hreg⟩ => ?_
  split
  · rename_i hobj
    refine Triple.pure fun w hw => ⟨fun h => absurd rfl h, fun _ => ?_⟩
    subst hw
    refine ⟨hbound, hnone, hv.congr ⟨rfl, ?_, fun _ => rfl, fun _ => rfl⟩⟩
    rw [← hobj]
    exact Function.update_eq_self _ _
  · rename_i old hobj
    have hold : (v.bo old).fenceReg = some reg := (hv.linked old reg).mpr hobj
    have hpin : (v.fence reg).pinCount = 0 := by simpa [hobj] using hreg
    refine Triple.bind (Q := fun _ => v.Same) (fun w hw => hw ▸ Quiet.waitFence.same w) fun ret => ?_
    refine Triple.ite (fun hret => Triple.pure fun w hw => ?_) fun _ => fun w hw => ?_
    · exact ⟨fun _ => hv.congr hw, fun h => absurd h hret⟩
    · have hne : o ≠ old := fun h => by simp_all
      have hwv := hv.congr hw
      have hold' := (core_eq hw old).2.2.2.1.trans hold
      refine ⟨fun h => absurd rfl h, fun _ => ⟨?_, ?_, ?_⟩⟩
      · intro hp
        exact (congrArg Bo.gttSpace (w.setBo_of_ne _ _ _ hne)).trans (hbound.congr hw hp)
      · exact (congrArg Bo.fenceReg (w.setBo_of_ne _ _ _ hne)).trans
          ((core_eq hw o).2.2.2.1.trans hnone)
      · exact hwv.detach (b := (w.bo old).fenceLost) (f := { w.fence reg with obj := none })
          (hv.not_fenced hs hold hpin) hold' rfl rfl rfl

theorem attach_stolen (hw : Held L s C P F (w.setFence reg { w.fence reg with obj := none }))
    (ho : o ∉ F) (hr : (w.bo o).fenceReg = none) (hon : s.dev.contextObj o = false →
      (w.bo o).gttSpace = true ∧ ((s.bo o).gttSpace = false → o ∈ C)) :
    Held L s C P F (w.updateFence o reg true) := by
  have h := hw.attach (b := { w.bo o with fenceReg := some reg, fenceDirty := false })
    (f := { w.fence reg with obj := some o }) ho hr (by simp) rfl (by simp) rfl hon
  refine h.congr ⟨rfl, ?_, fun _ => rfl, fun _ => rfl⟩
  funext i
  by_cases hi : i = reg <;> simp [World.updateFence, World.setFence, World.setBo]

theorem getFence (hs : s.Consistent) (ho : o ∉ F) :
    Triple (fun w => Held L s C P F w ∧ Fenceable s o w) (getFence o) fun ret w =>
      (ret ≠ 0 → Held L s C P F w) ∧ (ret = 0 → Held L s (insert o C) P F w) := by
  refine triple_getBo fun b => ?_
  refine Triple.bind (Q := fun _ w => Held L s C P F w ∧ Fenceable s o w ∧
    (w.bo o).fenceReg = b.fenceReg) ?_ fun ret => ?_
  · rintro w ⟨⟨hw, hf⟩, rfl⟩
    have h := Frame.ite (c := (w.bo o).fenceDirty = true) (Quiet.waitFence (o := o))
      (Frame.pure (a := 0)) w
    exact ⟨hw.congr h.toSame, hf.congr h.toSame, (core_eq h.toSame o).2.2.2.1⟩
  have hC : C ⊆ insert o C := Finset.subset_insert o C
  have hdone : ∀ w, Held L s C P F w →
      ((0 : ℤ) ≠ 0 → Held L s C P F w) ∧ ((0 : ℤ) = 0 → Held L s (insert o C) P F w) :=
    fun w hw => ⟨fun h => absurd rfl h, fun _ => hw.weaken hC⟩
  refine Triple.ite (fun hret => Triple.pure fun w hw => ?_) fun _ => triple_get fun v hv => ?_
  · exact ⟨fun _ => hw.1, fun h => absurd h hret⟩
  obtain ⟨hv, hf, hreg⟩ := hv
  split
  · rename_i reg hbreg
    rw [hbreg] at hreg
    refine Triple.ite (fun hd => ?_) fun _ => ?_
    · rintro w rfl
      refine ⟨fun h => absurd rfl h, fun _ => ?_⟩
      refine congr (w := _) ?_ (same_updateFence w o reg b.tiled)
      cases hb : b.tiled
      · exact (hv.weaken hC).detach (b := { w.bo o with fenceReg := none, fenceDirty := false })
          (f := { w.fence reg with obj := none }) ho hreg rfl rfl rfl
      · have hobj := (hv.linked o reg).mp hreg
        refine (hv.weaken hC).setBo_setFence ho rfl rfl (fun x hx => ⟨fun h => hx ?_, ?_⟩)
          (by simp) (fun i hi => ⟨by simpa using Ne.symm hi, by simpa [hreg] using Ne.symm hi⟩)
          fun _ hp => ⟨hf hp, fun _ => Finset.mem_insert_self o C⟩
        · exact Option.some.inj (((hv.linked x reg).mp h).symm.trans hobj)
        · simpa using Ne.symm hx
    · rintro w rfl
      exact hdone _ (hv.congr ⟨rfl, rfl, fun _ => rfl, fun _ => rfl⟩)
  · rename_i hbreg
    rw [hbreg] at hreg
    refine Triple.ite (fun _ => ?_) fun _ => Triple.pure fun w hw => hw ▸ hdone v hv
    split
    · exact Triple.pure fun w hw => ⟨fun _ => hw ▸ hv, fun h => absurd h (by decide)⟩
    · rename_i reg hfind
      have hsteal : Triple (fun w => w = v) _ _ :=
        (stealFence (L := L) (C := C) (P := P) (F := F) (o := o) hs reg).pre
          fun w hw => hw ▸ ⟨hv, hf, hreg, findFenceReg_some hfind⟩
      refine hsteal.bind fun ret => ?_
      · refine Triple.ite (fun hret => Triple.pure fun w hw => ?_) fun hret => fun w hw => ?_
        · exact ⟨hw.1, fun h => absurd h hret⟩
        · refine ⟨fun h => absurd rfl h, fun _ => ?_⟩
          obtain ⟨hf, hnone, hw⟩ := hw.2 (not_not.mp hret)
          exact (hw.weaken hC).attach_stolen ho hnone
            fun hp => ⟨hf hp, fun _ => Finset.mem_insert_self o C⟩

end Held

end GfxDrm.I915
