import GfxDrm.I915.Frames
import GfxDrm.I915.Relocate
import Mathlib.Algebra.Group.Pi.Lemmas

/-! i915_gem_pwrite_ioctl: the fast path through the aperture, and the shmem path that is to
take over where it fails. -/

namespace GfxDrm.I915

open Errno

/-- The rest of an object that the paths differ on. -/
structure PwriteKind where
  /-- `phys_obj != NULL`. -/
  physObj : Bool := false
  needsBit17Swizzle : Bool := false

/-- `struct drm_i915_gem_pwrite`, without the handle and the pointer. -/
structure PwriteArgs where
  size : BitVec 64
  offset : BitVec 64

/-- DRM_COPY_FROM_USER is ddi_copyin, which returns -1 for memory that is not there. -/
def copyFromUser : ExecM ℤ := do
  let e ← callOut
  return if e.ret = 0 then 0 else -1

/-- i915_gem_gtt_pwrite_fast up to the copy: the object is pinned and ready, or the call is
over with an error. -/
def gttPwriteReady (o : ObjId) : ExecM ℤ := do
  let ret ← pin o 0 true
  if ret ≠ 0 then return ret
  let ret ← setToGttDomain o true
  let ret ← (if ret = 0 then putFence o else pure ret)
  if ret ≠ 0 then
    unpin o
    return ret
  return 0

/-- i915_gem_gtt_pwrite_fast. -/
def gttPwriteFast (o : ObjId) : ExecM ℤ := do
  let ret ← gttPwriteReady o
  if ret ≠ 0 then return ret
  let ret ← copyFromUser
  -- this exit does not unpin
  if ret ≠ 0 then return ret
  unpin o
  return 0

/-- i915_gem_shmem_pwrite. The copy of a bit 17 swizzled object reports no error. -/
def shmemPwrite (kind : PwriteKind) (o : ObjId) : ExecM ℤ := do
  let b ← getBo o
  let ret ← (if b.writeDomain ≠ domainCpu ∧ b.gttSpace = true then setToGttDomain o true
    else pure 0)
  if ret ≠ 0 then return ret
  let e ← callOut
  if e.ret ≠ 0 then return e.ret
  modifyBo o fun b => { b with dirty := true }
  if kind.needsBit17Swizzle then return 0 else copyFromUser

/-- i915_gem_phys_pwrite. -/
def physPwrite : ExecM ℤ := do
  let ret ← copyFromUser
  return if ret ≠ 0 then eFault else 0

/-- The object can be written through the aperture. -/
def Bo.pwriteFast (b : Bo) : Bool :=
  b.cacheLevel == 0 && b.tilingMode == 0 && b.writeDomain != domainCpu

/-- The bounds check of the destination. -/
def PwriteArgs.inside (args : PwriteArgs) (b : Bo) : Bool :=
  decide (args.offset ≤ b.size ∧ args.size ≤ b.size - args.offset)

/-- What i915_gem_pwrite_ioctl does with the object. -/
def pwriteObject (kind : PwriteKind) (o : ObjId) (args : PwriteArgs) : ExecM ℤ := do
  let b ← getBo o
  if args.inside b = false then return eInval
  if kind.physObj then physPwrite
  else
    let ret ← (if b.pwriteFast then gttPwriteFast o else pure eFault)
    if ret = eFault ∨ ret = eNospc then shmemPwrite kind o else return ret

/-- i915_mutex_lock_interruptible and drm_gem_object_lookup. -/
def pwriteLookup : ExecM (Except ℤ ObjId) := do
  let e ← callOut
  if e.ret ≠ 0 then return .error e.ret
  let e ← callOut
  match e.lookup with
  | none => return .error eNoent
  | some o =>
    reference o
    return .ok o

/-- i915_gem_pwrite_ioctl. -/
def pwriteIoctl (kind : ObjId → PwriteKind) (args : PwriteArgs) : ExecM ℤ := do
  if args.size = 0 then return 0
  match ← pwriteLookup with
  | .error ret => return ret
  | .ok o =>
    let ret ← pwriteObject (kind o) o args
    unreference o
    return ret

/-! ### What is to hold -/

/-- Pin counts are as they were, and so are the references but those of the active list and of
other threads. -/
structure World.Balanced (w w' : World) : Prop where
  pinCount : ∀ o, (w'.bo o).pinCount = (w.bo o).pinCount
  own : ∀ o, w'.own o = w.own o

/-- The fast path is ready, and the copy fails. -/
def CopyFails (o : ObjId) (w : World) : Prop :=
  (gttPwriteReady o w).1 = 0 ∧ (copyFromUser (gttPwriteReady o w).2).1 ≠ 0

/-- There is no room in the aperture. -/
def NoAperture (o : ObjId) (w : World) : Prop := (pin o 0 true w).1 = eNospc

/-- The call writes to this object through the aperture, from this state. -/
def TakesFastPath (kind : ObjId → PwriteKind) (args : PwriteArgs) (w : World) (o : ObjId)
    (w' : World) : Prop :=
  args.size ≠ 0 ∧ pwriteLookup w = (.ok o, w') ∧ args.inside (w'.bo o) = true ∧
    (kind o).physObj = false ∧ (w'.bo o).pwriteFast = true

structure PwriteRight (kind : ObjId → PwriteKind) (args : PwriteArgs) (w : World) : Prop where
  balanced : w.Balanced (pwriteIoctl kind args w).2
  retried : ∀ o w', TakesFastPath kind args w o w' → CopyFails o w' ∨ NoAperture o w' →
    pwriteObject (kind o) o args w' = shmemPwrite (kind o) o (gttPwriteFast o w').2

/-! What a pwrite leaves of pins and references. -/

open Errno Hoare

section

variable {w w' w₀ : World} {o : ObjId}

/-- Pins are kept, and so many references are taken. -/
structure World.Takes (d : ObjId → ℤ) (w w' : World) : Prop where
  pinCount : ∀ o, (w'.bo o).pinCount = (w.bo o).pinCount
  own : ∀ o, w'.own o = w.own o + d o

theorem World.Takes.trans {d d' : ObjId → ℤ} {w'' : World} (h : World.Takes d w w')
    (h' : World.Takes d' w' w'') : World.Takes (d + d') w w'' where
  pinCount o := (h'.pinCount o).trans (h.pinCount o)
  own o := by
    rw [h'.own, h.own, Pi.add_apply]
    omega

theorem World.Takes.balanced {d : ObjId → ℤ} (h : World.Takes d w w') (hd : d = 0) :
    w.Balanced w' where
  pinCount := h.pinCount
  own o := by
    rw [h.own, hd, Pi.zero_apply, Int.add_zero]

theorem World.Balanced.takes (h : w.Balanced w') : World.Takes 0 w w' where
  pinCount := h.pinCount
  own o := by rw [h.own, Pi.zero_apply, Int.add_zero]

instance : IsPreorder World World.Balanced where
  refl _ := ⟨fun _ => rfl, fun _ => rfl⟩
  trans _ _ _ h h' := ⟨fun o => (h'.pinCount o).trans (h.pinCount o),
    fun o => (h'.own o).trans (h.own o)⟩

theorem World.Calm.balanced (h : w.Calm w') : w.Balanced w' where
  pinCount o := congrArg Prod.fst (h.core o)
  own := h.own

theorem Quiet.balanced {α : Type} {m : ExecM α} (h : Quiet m) : Frame World.Balanced m :=
  fun w => (h w).balanced

theorem balanced_modifyBo {f : Bo → Bo} (hp : ∀ b, (f b).pinCount = b.pinCount)
    (hh : ∀ b, (f b).held = b.held) : Frame World.Balanced (modifyBo o f) := by
  intro w
  constructor
  · intro x
    show ((w.setBo o (f (w.bo o))).bo x).pinCount = _
    by_cases hx : x = o
    · rw [hx, w.setBo_self, hp]
    · rw [w.setBo_of_ne _ _ _ hx]
  · exact (World.SameRefs.setBo (hh (w.bo o))).own

theorem balanced_updateFence (reg : ℕ) (enable : Bool) :
    w.Balanced (w.updateFence o reg enable) := by
  have h := balanced_modifyBo (o := o)
    (f := fun b => { b with fenceReg := if enable then some reg else none, fenceDirty := false })
    (fun _ => rfl) (fun _ => rfl) w
  exact ⟨h.pinCount, h.own⟩

theorem putFence_balanced : Frame World.Balanced (putFence o) := by
  refine Frame.bind Quiet.waitFence.balanced fun ret => Frame.ite Frame.pure ?_
  refine Frame.bind Quiet.getBo.balanced fun b => ?_
  cases b.fenceReg with
  | none => exact Frame.pure
  | some reg =>
    refine Frame.bind (balanced_modifyBo (fun _ => rfl) fun _ => rfl) fun _ => ?_
    exact Frame.bind (fun w => balanced_updateFence reg false) fun _ => Frame.pure

theorem unbind_balanced : Frame World.Balanced (unbind o) := by
  refine Frame.bind Quiet.getBo.balanced fun b => Frame.ite Frame.pure (Frame.ite Frame.pure ?_)
  refine Frame.bind Quiet.finishGpu.balanced fun ret => Frame.ite Frame.pure ?_
  refine Frame.bind Quiet.finishGtt.balanced fun _ => ?_
  refine Frame.bind putFence_balanced fun ret => Frame.ite Frame.pure ?_
  exact Frame.bind (balanced_modifyBo (fun _ => rfl) fun _ => rfl) fun _ => Frame.pure

theorem takes_setRefs (w : World) (o : ObjId) (n : ℤ) : World.Takes (Pi.single o n) w
    (w.setBo o { w.bo o with refcount := (w.bo o).refcount + n }) where
  pinCount x := by
    by_cases hx : x = o
    · rw [hx, w.setBo_self]
    · rw [w.setBo_of_ne _ _ _ hx]
  own x := by
    rw [World.own_setBo, Bo.held_add]
    by_cases hx : x = o
    · subst hx
      rw [if_pos rfl, Pi.single_eq_same, World.own]
      omega
    · rw [if_neg hx, Pi.single_eq_of_ne hx, Int.add_zero]

theorem reference_takes (o : ObjId) : Frame (World.Takes (Pi.single o 1)) (reference o) :=
  fun w => takes_setRefs w o 1

theorem unreference_takes (o : ObjId) : Frame (World.Takes (Pi.single o (-1))) (unreference o) :=
  fun w => takes_setRefs w o (-1)

/-- How often each object is in the list. -/
def counted (l : List ObjId) : ObjId → ℤ := fun o => l.count o

theorem counted_cons (l : List ObjId) : counted (o :: l) = Pi.single o 1 + counted l := by
  funext x
  unfold counted
  by_cases hx : x = o
  · subst hx
    simp [Int.add_comm]
  · simp [Ne.symm hx]

theorem references_take (l : List ObjId) : Frame (World.Takes (counted l)) (l.forM reference) := by
  induction l with
  | nil => exact fun w => (refl_of World.Balanced w).takes
  | cons o l ih =>
    intro w
    rw [counted_cons]
    exact (reference_takes o w).trans (ih _)

theorem unbindVictims_takes (l : List ObjId) (ret : ℤ) :
    Frame (World.Takes (-counted l)) (unbindVictims l ret) := by
  induction l generalizing ret with
  | nil => exact fun w => (refl_of World.Balanced w).takes
  | cons o l ih =>
    intro w
    have hunbind : Frame World.Balanced (if ret = 0 then unbind o else pure ret) :=
      Frame.ite unbind_balanced Frame.pure
    have hsum : (0 : ObjId → ℤ) + (Pi.single o (-1) + -counted l) = -counted (o :: l) := by
      rw [counted_cons, zero_add, neg_add, Pi.single_neg]
    rw [← hsum]
    exact (hunbind w).takes.trans ((unreference_takes o _).trans (ih _ _))

/-- Eviction gives back the references it takes. -/
theorem evictSomething_balanced : Frame World.Balanced evictSomething := by
  refine Frame.bind Quiet.callOut.balanced fun e => Frame.bind Frame.get fun w => ?_
  refine Frame.ite Frame.pure fun v => ?_
  exact ((references_take _ v).trans (unbindVictims_takes _ _ _)).balanced (add_neg_cancel _)

theorem searchFree_balanced (misses : ℕ) : Frame World.Balanced (searchFree misses) := by
  induction misses with
  | zero => exact Frame.pure
  | succ misses ih => exact Frame.bind evictSomething_balanced fun ret => Frame.ite ih Frame.pure

theorem bindToGtt_balanced : Frame World.Balanced (bindToGtt o) := by
  refine Frame.bind Quiet.callOut.balanced fun e => Frame.ite Frame.pure ?_
  refine Frame.bind (searchFree_balanced _) fun ret => Frame.ite Frame.pure ?_
  refine Frame.bind Quiet.callOut.balanced fun e => Frame.ite Frame.pure ?_
  exact Frame.bind (balanced_modifyBo (fun _ => rfl) fun _ => rfl) fun _ => Frame.pure

/-- One pin of the object is the only difference. -/
structure World.Pinned (o : ObjId) (w w' : World) : Prop where
  pinCount : ∀ x, (w'.bo x).pinCount = (w.bo x).pinCount + if x = o then 1 else 0
  own : ∀ x, w'.own x = w.own x

theorem World.Balanced.pinned (h : w.Balanced w') (hp : World.Pinned o w' w₀) :
    World.Pinned o w w₀ where
  pinCount x := by rw [hp.pinCount, h.pinCount]
  own x := (hp.own x).trans (h.own x)

theorem World.Pinned.balanced (h : World.Pinned o w w') (hb : w'.Balanced w₀) :
    World.Pinned o w w₀ where
  pinCount x := (hb.pinCount x).trans (h.pinCount x)
  own x := (hb.own x).trans (h.own x)

theorem World.Pinned.not_balanced (h : World.Pinned o w w') : ¬ w.Balanced w' := by
  intro hb
  have hpin := (hb.pinCount o).symm.trans (h.pinCount o)
  rw [if_pos rfl] at hpin
  bv_omega

theorem modifyPin_pinned {f : Bo → Bo} (hp : ∀ b, (f b).pinCount = b.pinCount + 1)
    (hh : ∀ b, (f b).held = b.held) (w : World) :
    World.Pinned o w (w.setBo o (f (w.bo o))) where
  pinCount x := by
    by_cases hx : x = o
    · rw [hx, w.setBo_self, hp, if_pos rfl]
    · rw [w.setBo_of_ne _ _ _ hx, if_neg hx, add_zero]
  own := (World.SameRefs.setBo (hh (w.bo o))).own

/-- i915_gem_object_pin has pinned the object when it returns 0, and no pin is moved else. -/
theorem pin_counts (alignment : BitVec 32) (mapAndFenceable : Bool) (w₀ : World) :
    Triple (fun w => w = w₀) (pin o alignment mapAndFenceable) fun ret w =>
      (ret ≠ 0 → w₀.Balanced w) ∧ (ret = 0 → World.Pinned o w₀ w) := by
  have hfail : ∀ ret : ℤ, ret ≠ 0 → ∀ w, w₀.Balanced w →
      (ret ≠ 0 → w₀.Balanced w) ∧ (ret = 0 → World.Pinned o w₀ w) :=
    fun ret hret w hw => ⟨fun _ => hw, fun h => absurd h hret⟩
  have hkeep : ∀ {α : Type} {m : ExecM α}, Frame World.Balanced m →
      Triple (fun w => w₀.Balanced w) m fun _ w => w₀.Balanced w :=
    fun hm w hw => trans_of World.Balanced hw (hm w)
  refine Triple.pre (P := fun w => w₀.Balanced w) ?_ fun w hw => hw ▸ refl_of World.Balanced w₀
  refine Triple.bind (hkeep Quiet.getBo.balanced) fun b => ?_
  refine Triple.ite (fun _ => Triple.pure (hfail _ (show ¬ eBusy = 0 by decide))) fun _ => ?_
  refine Triple.bind (hkeep (Frame.ite unbind_balanced Frame.pure)) fun ret => ?_
  refine Triple.ite (fun h => Triple.pure (hfail _ h)) fun _ => ?_
  refine Triple.bind (hkeep Quiet.getBo.balanced) fun b => ?_
  refine Triple.bind (hkeep (Frame.ite Frame.pure bindToGtt_balanced)) fun ret => ?_
  refine Triple.ite (fun h => Triple.pure (hfail _ h)) fun _ => ?_
  refine Triple.bind (Q := fun _ w => World.Pinned o w₀ w) (Triple.modify fun w hw => ?_)
    fun _ => Triple.pure fun w hw => ⟨fun h => absurd rfl h, fun _ => hw⟩
  have hpin := modifyPin_pinned (o := o) (f := fun c => { c with
    hasGlobalGttMapping := c.hasGlobalGttMapping ||
      (!b.gttSpace && !w.dev.aliasingPpgtt) || mapAndFenceable
    pinCount := c.pinCount + 1
    pinMappable := c.pinMappable || mapAndFenceable }) (fun _ => rfl) (fun _ => rfl) w
  exact hw.pinned hpin

/-- i915_gem_object_unpin takes the pin back. -/
theorem unpin_balances (h : World.Pinned o w₀ w) : w₀.Balanced (unpin o w).2 := by
  have hmod : (unpin o w).2 = w.setBo o { w.bo o with
      pinCount := (w.bo o).pinCount - 1
      pinMappable := (w.bo o).pinMappable && (w.bo o).pinCount != 1 } := rfl
  rw [hmod]
  constructor
  · intro x
    by_cases hx : x = o
    · subst hx
      rw [w.setBo_self]
      rw [h.pinCount, if_pos rfl, BitVec.add_sub_cancel]
    · rw [w.setBo_of_ne _ _ _ hx, h.pinCount, if_neg hx, add_zero]
  · intro x
    have hsame : w.SameRefs (w.setBo o { w.bo o with
        pinCount := (w.bo o).pinCount - 1
        pinMappable := (w.bo o).pinMappable && (w.bo o).pinCount != 1 }) := .setBo rfl
    exact (hsame.own x).trans (h.own x)

theorem setToGttDomain_quiet (write : Bool) : Quiet (setToGttDomain o write) := by
  refine Frame.bind Quiet.getBo fun b => Frame.ite Frame.pure (Frame.ite Frame.pure ?_)
  refine Frame.bind Quiet.waitRendering fun ret => Frame.ite Frame.pure ?_
  exact Frame.bind (Quiet.modifyBo (fun _ => rfl) fun _ => rfl) fun _ => Frame.pure

theorem copyFromUser_quiet : Quiet copyFromUser :=
  Frame.bind Quiet.callOut fun _ => Frame.pure

/-- The object is pinned when the copy begins, and no pin is moved else. -/
theorem gttPwriteReady_counts (w₀ : World) :
    Triple (fun w => w = w₀) (gttPwriteReady o) fun ret w =>
      (ret ≠ 0 → w₀.Balanced w) ∧ (ret = 0 → World.Pinned o w₀ w) := by
  have hkeep : ∀ {α : Type} {m : ExecM α}, Frame World.Balanced m →
      Triple (fun w => World.Pinned o w₀ w) m fun _ w => World.Pinned o w₀ w :=
    fun hm w hw => hw.balanced (hm w)
  refine Triple.bind (pin_counts 0 true w₀) fun ret => Triple.ite
    (fun h => Triple.pure fun w hw => hw) fun h => ?_
  rw [not_not] at h
  refine Triple.pre (P := fun w => World.Pinned o w₀ w) ?_ fun w hw => hw.2 h
  refine Triple.bind (hkeep (setToGttDomain_quiet true).balanced) fun ret => ?_
  refine Triple.bind (hkeep (Frame.ite putFence_balanced Frame.pure)) fun ret => ?_
  refine Triple.ite (fun hret w hw => ?_) fun _ => Triple.pure fun w hw =>
    ⟨fun h => absurd rfl h, fun _ => hw⟩
  exact ⟨fun _ => unpin_balances hw, fun h => absurd h hret⟩

/-- The fast path leaves the pin behind when the copy fails, and only then. -/
theorem gttPwriteFast_counts (w : World) :
    (¬ CopyFails o w → w.Balanced (gttPwriteFast o w).2) ∧
      (CopyFails o w → World.Pinned o w (gttPwriteFast o w).2 ∧ (gttPwriteFast o w).1 = -1) := by
  have hready := gttPwriteReady_counts (o := o) w w rfl
  unfold gttPwriteFast CopyFails
  rw [run_bind]
  by_cases hret : (gttPwriteReady o w).1 = 0
  · rw [if_neg (not_not.mpr hret)]
    have hpin := (hready.2 hret).balanced (copyFromUser_quiet (gttPwriteReady o w).2).balanced
    rw [run_bind]
    by_cases hcopy : (copyFromUser (gttPwriteReady o w).2).1 = 0
    · rw [if_neg (not_not.mpr hcopy)]
      exact ⟨fun _ => unpin_balances hpin, fun h => absurd hcopy h.2⟩
    · rw [if_pos hcopy]
      refine ⟨fun h => absurd ⟨hret, hcopy⟩ h, fun _ => ⟨hpin, ?_⟩⟩
      have hval : ∀ v : World, (copyFromUser v).1 = 0 ∨ (copyFromUser v).1 = -1 := by
        intro v
        show (if (v.coming 0).ret = 0 then (0 : ℤ) else -1) = 0 ∨ _ = (-1 : ℤ)
        split
        · exact .inl rfl
        · exact .inr (if_neg ‹_›)
      exact (hval _).resolve_left hcopy
  · rw [if_pos hret]
    exact ⟨fun _ => hready.1 hret, fun h => absurd h.1 hret⟩

theorem shmemPwrite_balanced (kind : PwriteKind) : Frame World.Balanced (shmemPwrite kind o) := by
  refine Frame.bind Quiet.getBo.balanced fun b => ?_
  refine Frame.bind (Frame.ite (setToGttDomain_quiet true).balanced Frame.pure) fun ret => ?_
  refine Frame.ite Frame.pure (Frame.bind Quiet.callOut.balanced fun e => Frame.ite Frame.pure ?_)
  refine Frame.bind (balanced_modifyBo (fun _ => rfl) fun _ => rfl) fun _ => ?_
  exact Frame.ite Frame.pure copyFromUser_quiet.balanced

theorem physPwrite_balanced : Frame World.Balanced physPwrite :=
  Frame.bind copyFromUser_quiet.balanced fun _ => Frame.pure

/-! ### The whole call -/

variable {kind : ObjId → PwriteKind} {args : PwriteArgs}

theorem pwriteLookup_takes (w : World) :
    (∀ ret, (pwriteLookup w).1 = .error ret → w.Balanced (pwriteLookup w).2) ∧
      ∀ o, (pwriteLookup w).1 = .ok o → World.Takes (Pi.single o 1) w (pwriteLookup w).2 := by
  have hlock := Quiet.callOut.balanced w
  have hfind := trans_of World.Balanced hlock (Quiet.callOut.balanced (callOut w).2)
  unfold pwriteLookup
  rw [run_bind]
  split
  · exact ⟨fun _ _ => hlock, fun o h =>
      nomatch (show (.error (callOut w).1.ret : Except ℤ ObjId) = .ok o from h)⟩
  rw [run_bind]
  cases (callOut (callOut w).2).1.lookup with
  | none => exact ⟨fun _ _ => hfind, fun o h =>
      nomatch (show (.error eNoent : Except ℤ ObjId) = .ok o from h)⟩
  | some p =>
    refine ⟨fun ret h => (nomatch (show (.ok p : Except ℤ ObjId) = .error ret from h)),
      fun o h => ?_⟩
    obtain rfl : p = o := Except.ok.inj h
    have htake := hfind.takes.trans (reference_takes p (callOut (callOut w).2).2)
    rwa [zero_add] at htake

/-- Where the fast path is not taken, or its copy does not fail, no pin is moved. -/
theorem pwriteObject_balanced (k : PwriteKind) (w : World)
    (h : args.inside (w.bo o) = true → k.physObj = false → (w.bo o).pwriteFast = true →
      ¬ CopyFails o w) : w.Balanced (pwriteObject k o args w).2 := by
  show w.Balanced ((if args.inside (w.bo o) = false then _ else _ : ExecM ℤ) w).2
  split
  · exact refl_of World.Balanced w
  rename_i hinside
  split
  · exact physPwrite_balanced w
  rename_i hphys
  have hfast : w.Balanced
      ((if (w.bo o).pwriteFast then gttPwriteFast o else pure eFault : ExecM ℤ) w).2 := by
    split
    · exact (gttPwriteFast_counts w).1 (h (by simpa using hinside) (by simpa using hphys) ‹_›)
    · exact refl_of World.Balanced w
  exact trans_of World.Balanced hfast
    (Frame.ite (shmemPwrite_balanced k) Frame.pure _)

/-- The object of a call that goes through the aperture. -/
theorem pwriteObject_fast (k : PwriteKind) {w : World} (hin : args.inside (w.bo o) = true)
    (hphys : k.physObj = false) (hfast : (w.bo o).pwriteFast = true) :
    pwriteObject k o args w =
      if (gttPwriteFast o w).1 = eFault ∨ (gttPwriteFast o w).1 = eNospc then
        shmemPwrite k o (gttPwriteFast o w).2
      else gttPwriteFast o w := by
  unfold pwriteObject
  rw [run_bind]
  show (if args.inside (w.bo o) = false then _ else _ : ExecM ℤ) w = _
  rw [if_neg (by simp [hin]), if_neg (by simp [hphys]), run_bind]
  have hcall : (if (getBo o w).1.pwriteFast then gttPwriteFast o else pure eFault : ExecM ℤ) w =
      gttPwriteFast o w := by rw [show (getBo o w).1 = w.bo o from rfl, if_pos hfast]
  rw [hcall, run_ite]
  rfl

theorem gttPwriteFast_noAperture {w : World} (h : NoAperture o w) :
    (gttPwriteFast o w).1 = eNospc := by
  have hne : (pin o 0 true w).1 ≠ 0 := by rw [h]; decide
  have hready : (gttPwriteReady o w).1 = eNospc := by
    unfold gttPwriteReady
    rw [run_bind, if_pos hne]
    exact h
  unfold gttPwriteFast
  rw [run_bind, if_pos (by rw [hready]; decide)]
  exact hready

theorem pwriteIoctl_ok {w w' : World} (hsize : args.size ≠ 0)
    (hlookup : pwriteLookup w = (.ok o, w')) :
    (pwriteIoctl kind args w).2 = (unreference o (pwriteObject (kind o) o args w').2).2 := by
  unfold pwriteIoctl
  rw [if_neg hsize, run_bind, hlookup]
  rfl

/-- What one object's write moves, the whole call moves. -/
theorem pwriteIoctl_moves {w w' : World} (hsize : args.size ≠ 0)
    (hlookup : pwriteLookup w = (.ok o, w')) :
    w.Balanced (pwriteIoctl kind args w).2 ↔ w'.Balanced (pwriteObject (kind o) o args w').2 := by
  have htake := (pwriteLookup_takes w).2 o (by rw [hlookup])
  rw [hlookup] at htake
  dsimp only at htake
  have hgive := unreference_takes o (pwriteObject (kind o) o args w').2
  rw [pwriteIoctl_ok hsize hlookup]
  constructor
  · intro h
    refine ⟨fun x => ?_, fun x => ?_⟩
    · rw [← hgive.pinCount x, h.pinCount x, htake.pinCount x]
    · have hx := h.own x
      rw [hgive.own x] at hx
      have htx := htake.own x
      by_cases hxo : x = o
      · subst hxo
        rw [Pi.single_eq_same] at hx htx
        omega
      · rw [Pi.single_eq_of_ne hxo] at hx htx
        omega
  · intro h
    have hsum : Pi.single o 1 + ((0 : ObjId → ℤ) + Pi.single o (-1)) = 0 := by
      rw [zero_add, ← Pi.single_add, add_neg_cancel, Pi.single_zero]
    exact (htake.trans (h.takes.trans hgive)).balanced hsum

/-- A pwrite keeps the balance, and falls back to the shmem path, unless its copy through the
aperture fails: that leaves the pin behind, and returns -1, which is not -EFAULT. -/
theorem pwriteIoctl_right_iff (kind : ObjId → PwriteKind) (args : PwriteArgs) (w : World) :
    PwriteRight kind args w ↔ ∀ o w', TakesFastPath kind args w o w' → ¬ CopyFails o w' := by
  constructor
  · rintro h o w' ⟨hsize, hlookup, hin, hphys, hfast⟩ hcopy
    obtain ⟨hpinned, hret⟩ := (gttPwriteFast_counts (o := o) w').2 hcopy
    have hbal := (pwriteIoctl_moves hsize hlookup).mp h.balanced
    rw [pwriteObject_fast (kind o) hin hphys hfast, hret] at hbal
    exact hpinned.not_balanced hbal
  · intro h
    refine ⟨?_, ?_⟩
    · by_cases hsize : args.size = 0
      · unfold pwriteIoctl
        rw [if_pos hsize]
        exact refl_of World.Balanced w
      cases hres : (pwriteLookup w).1 with
      | error ret =>
        have hlost := (pwriteLookup_takes w).1 ret hres
        unfold pwriteIoctl
        rw [if_neg hsize, run_bind, hres]
        exact hlost
      | ok o =>
        have hlookup : pwriteLookup w = (.ok o, (pwriteLookup w).2) := Prod.ext hres rfl
        refine (pwriteIoctl_moves hsize hlookup).mpr (pwriteObject_balanced _ _ ?_)
        exact fun hin hphys hfast => h o _ ⟨hsize, hlookup, hin, hphys, hfast⟩
    · rintro o w' htakes (hcopy | hnone)
      · exact absurd hcopy (h o w' htakes)
      · obtain ⟨-, -, hin, hphys, hfast⟩ := htakes
        rw [pwriteObject_fast _ hin hphys hfast, gttPwriteFast_noAperture hnone,
          if_pos (.inr rfl)]

end

/-- A page in the aperture, last written through it. -/
def mappedPage : Bo :=
  { Bo.fresh 0x1000 with
    gttSpace := true
    hasGlobalGttMapping := true
    readDomains := domainGtt
    writeDomain := domainGtt }

/-- A device with that page, whose third event, the copy, finds no user memory. -/
def unmappedUser : World :=
  let shared : Shared :=
    { bo := fun _ => mappedPage
      fence := fun _ => { obj := none, pinCount := 0 }
      fenceList := []
      ring := fun _ => { outstandingLazyRequest := 0, gpuCachesDirty := false, trace := [],
                         visible := 0 }
      nextSeqno := 1 }
  { toShared := shared
    dev := { gen := 4, fenceRegStart := 0, numFenceRegs := 16, aliasingPpgtt := false,
             contextObj := fun _ => false, stopRings := fun _ => false }
    exec := fun _ => { handle := 0, relocationCount := 0, alignment := 0, offset := 0, flags := 0 }
    objects := []
    needRelocs := false
    foreign := fun _ => 0
    faults := []
    coming := fun n => { Event.calm shared with
      ret := if n = 2 then -1 else 0
      lookup := some 0 } }

/-- The page stays pinned. -/
theorem pwriteIoctl_leaks_pin :
    ¬ ∀ (kind : ObjId → PwriteKind) (args : PwriteArgs) (w : World), PwriteRight kind args w := by
  intro h
  have hpin := (h (fun _ => {}) { size := 16, offset := 0 } unmappedUser).balanced.pinCount 0
  exact absurd hpin (by decide +kernel)

end GfxDrm.I915
