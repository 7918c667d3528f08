import GfxDrm.Fence.Rules

/-! The callers that pin objects and need fences: page faults, pwrite, scanout and cursors, and
the objects of an execbuffer call (i915_gem.c, i915_gem_execbuffer.c, intel_display.c). -/

namespace GfxDrm.Fence
open Hoare Errno

/-- Who holds a pin decides how it is given back. -/
inductive HoldKind where
  | plain
  | scanout
  | exec
  deriving DecidableEq, Repr

/-- A pin that somebody has to give back, and the register that pin_fence counted with it. -/
structure Hold where
  obj : ℕ
  kind : HoldKind := .plain
  fence : Option ℕ := none
  deriving DecidableEq, Repr

/-- i915_gem_object_set_to_gtt_domain. -/
def setToGttDomain (o : ℕ) : FenceM ℤ := do
  let b ← getBo o
  if b.gttSpace = none then return eInval
  Outcome.ret <$> callOut

/-- i915_gem_object_set_cache_level brings a bound object out of the use it is in. -/
def leaveGpu (dev : FenceDev) (o : ℕ) : FenceM ℤ := do
  let e ← callOut
  if e.ret ≠ 0 then return e.ret
  if dev.gen < 6 then putFence dev o else return 0

/-- i915_gem_object_set_cache_level. -/
def setCacheLevel (dev : FenceDev) (o cacheLevel : ℕ) : FenceM ℤ := do
  let b ← getBo o
  if b.cacheLevel = cacheLevel then return 0
  if b.pinCount ≠ 0 then return eBusy
  -- i915_gem_valid_gtt_space looks at the neighbours
  let e ← callOut
  let ret ← (if e.ret ≠ 0 then unbind dev o else pure 0)
  if ret ≠ 0 then return ret
  let b ← getBo o
  let ret ← (if b.gttSpace.isSome then leaveGpu dev o else pure 0)
  if ret ≠ 0 then return ret
  modifyBo o fun b => { b with cacheLevel := cacheLevel }
  return 0

/-- i915_gem_object_pin_to_display_plane. -/
def pinToDisplayPlane (dev : FenceDev) (o alignment misses : ℕ) : FenceM ℤ := do
  -- i915_gem_object_sync
  let e ← callOut
  if e.ret ≠ 0 then return e.ret
  let ret ← setCacheLevel dev o 0
  if ret ≠ 0 then return ret
  pin dev o alignment true misses

/-- The alignment that intel_pin_and_fence_fb_obj asks for. -/
def FenceDev.scanoutAlignment (dev : FenceDev) (b : FenceBo) : Option ℕ :=
  let raise := fun alignment : ℕ =>
    if dev.needVtdWa ∧ alignment < 256 * 1024 then 256 * 1024 else alignment
  if b.tiling = tilingNone then
    some (raise (if dev.isBroadwaterOrCrestline then 128 * 1024
      else if 4 ≤ dev.gen then 4 * 1024 else 64 * 1024))
  else if b.tiling = tilingX then some (raise 0)
  else none

/-- intel_pin_and_fence_fb_obj. -/
def pinAndFenceFbObj (dev : FenceDev) (o misses : ℕ) : FenceM (ℤ × Option Hold) := do
  let b ← getBo o
  match dev.scanoutAlignment b with
  | none => return (eInval, none)
  | some alignment =>
    let ret ← pinToDisplayPlane dev o alignment misses
    if ret ≠ 0 then return (ret, none)
    let ret ← getFence dev o
    if ret ≠ 0 then
      unpin o
      return (ret, none)
    let fence ← pinFence o
    return (0, some { obj := o, kind := .scanout, fence := fence })

/-- intel_unpin_fb_obj. -/
def unpinFbObj (o : ℕ) : FenceM Unit := do
  unpinFence o
  unpin o

/-- What intel_crtc_cursor_set and the overlay do with their buffers. -/
def pinCursor (dev : FenceDev) (o alignment misses : ℕ) : FenceM (ℤ × Option Hold) := do
  let b ← getBo o
  if b.tiled then return (eInval, none)
  let ret ← pinToDisplayPlane dev o alignment misses
  if ret ≠ 0 then return (ret, none)
  let ret ← putFence dev o
  if ret ≠ 0 then
    unpin o
    return (ret, none)
  return (0, some { obj := o })

/-- i915_gem_fault. -/
def fault (dev : FenceDev) (o misses : ℕ) : FenceM ℤ := do
  let b ← getBo o
  if b.cacheLevel ≠ 0 ∧ !dev.hasLlc then return eInval
  let ret ← pin dev o 0 true misses
  if ret ≠ 0 then return ret
  let ret ← setToGttDomain o
  let ret ← (if ret ≠ 0 then pure ret else getFence dev o)
  unpin o
  return ret

/-- i915_gem_gtt_pwrite_fast. -/
def gttPwriteFast (dev : FenceDev) (o misses : ℕ) : FenceM (ℤ × Option Hold) := do
  let ret ← pin dev o 0 true misses
  if ret ≠ 0 then return (ret, none)
  let ret ← setToGttDomain o
  let ret ← (if ret ≠ 0 then pure ret else putFence dev o)
  if ret ≠ 0 then
    unpin o
    return (ret, none)
  let e ← callOut
  -- where the copy from user memory fails the pin is not given back
  if e.ret ≠ 0 then return (e.ret, some { obj := o })
  unpin o
  return (0, none)

/-- i915_gem_pwrite_ioctl; the other paths do not come near a fence. -/
def pwrite (dev : FenceDev) (o misses : ℕ) : FenceM (ℤ × Option Hold) := do
  let e ← callOut
  let b ← getBo o
  if b.cacheLevel = 0 ∧ b.tiled = false ∧ e.ret = 0 then gttPwriteFast dev o misses
  else return (e.ret, none)

/-! ### The objects of an execbuffer call -/

/-- What the entry of an object asks for; `cpuDomain` is where the object was written last. -/
structure ExecObject where
  needsFence : Bool
  alignment : ℕ
  relocations : Bool
  cpuDomain : Bool
  deriving DecidableEq, Repr

def FenceBo.needFence (dev : FenceDev) (b : FenceBo) (e : ExecObject) : Bool :=
  if dev.gen = 5 then b.tiled else decide (dev.gen < 4) && e.needsFence && b.tiled

def FenceBo.useCpuReloc (b : FenceBo) (e : ExecObject) : Bool :=
  e.cpuDomain || !b.mapAndFenceable || b.cacheLevel != 0

def FenceBo.needMappable (dev : FenceDev) (b : FenceBo) (e : ExecObject) : Bool :=
  b.needFence dev e || (e.relocations && !b.useCpuReloc e)

/-- The workaround for generation 5 in the first loop of i915_gem_execbuffer_reserve. -/
def orderObject (dev : FenceDev) (o : ℕ) : FenceM ℤ := do
  let b ← getBo o
  if dev.gen = 5 ∧ b.gttOffset ≠ 0 then
    if b.tiled then getFence dev o else putFence dev o
  else return 0

/-- i915_gem_execbuffer_reserve_object. -/
def reserveObject (dev : FenceDev) (o : ℕ) (e : ExecObject) (misses : ℕ) :
    FenceM (ℤ × Option Hold) := do
  let b ← getBo o
  let ret ← pin dev o e.alignment (b.needMappable dev e) misses
  if ret ≠ 0 then return (ret, none)
  if dev.gen < 4 ∧ e.needsFence then
    let ret ← getFence dev o
    if ret ≠ 0 then return (ret, some { obj := o, kind := .exec })
    let fence ← pinFence o
    return (0, some { obj := o, kind := .exec, fence := fence })
  return (0, some { obj := o, kind := .exec })

/-- i915_gem_execbuffer_unreserve_object, for the two flags of the entry. -/
def unreserveObject (o : ℕ) (hasFence hasPin : Bool) : FenceM Unit := do
  let b ← getBo o
  if b.gttSpace.isSome then
    if hasFence then unpinFence o
    if hasPin then unpin o

/-- i915_gem_execbuffer_relocate_entry, up to the write. -/
def relocateEntry (dev : FenceDev) (o : ℕ) : FenceM ℤ := do
  let ret ← setToGttDomain o
  if ret ≠ 0 then return ret
  putFence dev o

/-! ### The calls together -/

/-- The calls that give back themselves what they pin, or hand it on. -/
inductive ClientOp where
  | fault (o misses : ℕ)
  | pwrite (o misses : ℕ)
  | display (o misses : ℕ)
  | cursor (o alignment misses : ℕ)
  | order (o : ℕ)
  | unbind (o : ℕ)
  | reserve (o : ℕ) (e : ExecObject) (misses : ℕ)
  | relocate (o : ℕ)
  | submit (o : ℕ) (fenced : Bool)
  | retire (o : ℕ)
  | setCaching (o cacheLevel : ℕ)
  | reset

def returnsNothing {α : Type} (m : FenceM α) : FenceM (Option Hold) := do
  let _ ← m
  return none

def ClientOp.run (dev : FenceDev) : ClientOp → FenceM (Option Hold)
  | fault o misses => returnsNothing (Fence.fault dev o misses)
  | pwrite o misses => Prod.snd <$> Fence.pwrite dev o misses
  | display o misses => Prod.snd <$> pinAndFenceFbObj dev o misses
  | cursor o alignment misses => Prod.snd <$> pinCursor dev o alignment misses
  | order o => returnsNothing (orderObject dev o)
  | unbind o => returnsNothing (Fence.unbind dev o)
  | reserve o e misses => Prod.snd <$> reserveObject dev o e misses
  | relocate o => returnsNothing (relocateEntry dev o)
  | submit o fenced => returnsNothing (Fence.submit o fenced)
  | retire o => returnsNothing (modify fun w : FenceState => w.retire o)
  | setCaching o cacheLevel => returnsNothing (setCacheLevel dev o cacheLevel)
  | reset => returnsNothing (restoreFences dev)

/-! ### What the calls keep -/

variable {dev : FenceDev} {I : List Hold → FenceState → Prop} {Free : ℕ → FenceState → Prop}
  {P : FenceState → Prop} {H : List Hold} {o : ℕ}

/-- Before generation 4 a tiled object needs the right place for its fence. -/
def FenceBo.Fit (dev : FenceDev) (b : FenceBo) : Prop :=
  b.gttSpace ≠ none ∧ (dev.gen < 4 → b.tiled = true → b.mapAndFenceable = true)

/-- An invariant about the pins that are out. `Free` says when a relocation may take the fence
of its object away. -/
structure ClientRules (dev : FenceDev) (Free : ℕ → FenceState → Prop)
    (I : List Hold → FenceState → Prop) : Prop where
  kept : ∀ H, Kept dev (I H)
  free : ∀ o, Quiet (Free o)
  owner : ∀ {H w o r}, I H w → (w.reg r).obj = some o → (w.bo o).fenceReg = some r
  located : ∀ {H w o}, I H w → (w.bo o).gttSpace = none → (w.bo o).gttOffset = 0
  place : ∀ {H w o g} n, I H w → (w.bo o).gttSpace = none → dev.region (w.bo o) = some g →
    I H (w.setBo o ((w.bo o).bound dev g n))
  use : ∀ {H w o} cacheLevel access busy, I H w → I H (w.setBo o { w.bo o with
    cacheLevel := cacheLevel, fencedGpuAccess := access, fenceBusy := busy })
  pin : ∀ {H w o}, I H w → (w.bo o).gttSpace ≠ none → (w.bo o).pinCount ≠ maxPinCount →
    I ({ obj := o } :: H) (w.setBo o { w.bo o with pinCount := (w.bo o).pinCount + 1 })
  unpin : ∀ {H w o}, I ({ obj := o } :: H) w →
    I H (w.setBo o { w.bo o with pinCount := (w.bo o).pinCount - 1 })
  exec : ∀ {H w o}, I ({ obj := o } :: H) w → I ({ obj := o, kind := .exec } :: H) w
  fenced : ∀ {H w o r kind}, kind ≠ .plain → I ({ obj := o } :: H) w → (w.bo o).Fenced →
    (w.bo o).fenceReg = some r → I ({ obj := o, kind := kind, fence := some r } :: H)
      (w.setReg r { w.reg r with pinCount := (w.reg r).pinCount + 1 })
  unfenced : ∀ {H w o} kind, I ({ obj := o } :: H) w → (w.bo o).Fenced →
    (w.bo o).fenceReg = none → I ({ obj := o, kind := kind } :: H) w
  take : ∀ {H w o r}, I H w → (w.bo o).Fit dev → (w.bo o).fenceReg = none →
    (w.bo o).tiled = true → ((w.reg r).obj = none ∨ (w.reg r).pinCount = 0) →
    I H ((w.loseFence r).attachFence dev o r)
  release : ∀ {H w o r}, I H w → Free o w → (w.bo o).fenceReg = some r → I H (w.detachFence o r)

theorem Quiet.setToGttDomain (hP : Quiet P) : Keeps P (setToGttDomain o) := by
  refine triple_getBo fun b => Triple.ite (fun _ => Triple.pure fun w hw => hw.1) fun _ => ?_
  exact hP.ret.pre fun w hw => hw.1

theorem Kept.setCacheLevel (hI : Kept dev P) (level : ℕ)
    (hlevel : ∀ w, P w → P (w.setBo o { w.bo o with cacheLevel := level })) :
    Keeps P (setCacheLevel dev o level) := by
  refine triple_getBo fun b => Triple.ite (fun _ => Triple.pure fun w hw => hw.1) fun _ => ?_
  refine Triple.ite (fun _ => Triple.pure fun w hw => hw.1) fun hpin => ?_
  have hK : Kept dev fun w => P w ∧ (w.bo o).pinCount = 0 :=
    hI.and (kept_bo (A := fun b => b.pinCount = 0) (fun _ h => h) (fun _ _ h => h) fun _ h _ => h)
  refine Triple.bind (hK.callOut.pre fun w hw => ⟨hw.1, hw.2 ▸ not_not.mp hpin⟩) fun e => ?_
  have hunbind : Keeps (fun w => P w ∧ (w.bo o).pinCount = 0)
      (if e.ret ≠ 0 then Fence.unbind dev o else pure 0) :=
    Triple.ite (fun _ => hK.unbind.post fun _ w hw => hw.1) fun _ => Keeps.pure
  refine triple_guard (Quiet.wait hunbind) ?_ fun ret w _ hw => hw.1
  refine triple_getBo fun c => Triple.pre (P := fun w => P w ∧ (w.bo o).pinCount = 0) ?_
    fun w hw => hw.1
  have hleave : Triple (fun w => P w ∧ (w.bo o).pinCount = 0)
      (if c.gttSpace.isSome then leaveGpu dev o else pure 0)
      fun ret w => if ret = 0 then P w else P w ∧ (w.bo o).pinCount = 0 := by
    refine Triple.ite (fun _ => ?_) fun _ => Triple.pure fun w hw => hw.1
    refine Triple.bind hK.callOut fun e => Triple.ite (fun he => Triple.pure fun w hw => ?_) fun _ => ?_
    · simpa [he] using hw
    refine Triple.ite (fun _ => ?_) fun _ => Triple.pure fun w hw => hw.1
    exact putFence_spec hK.toQuiet (fun w hw _ => hw.1) fun w r hw hr => hI.drop hw.1 hr hw.2
  refine triple_guard hleave ?_ fun ret w _ hw => hw.1
  exact Triple.bind (Triple.modify (Q := fun _ => P) fun w hw => hlevel w hw)
    fun _ => Keeps.pure

namespace ClientRules

theorem putUntiled (h : ClientRules dev Free I) (H : List Hold) :
    Triple (fun w => I H w ∧ (w.bo o).tiled = false) (putFence dev o) fun _ => I H := by
  have hP : Quiet fun w => I H w ∧ (w.bo o).tiled = false :=
    (h.kept H).toQuiet.and (quiet_bo (A := fun b => b.tiled = false) fun _ h => h)
  refine (putFence_spec (Q := I H) hP (fun w hw _ => hw.1) fun w r hw hr =>
    (h.kept H).disable hw.1 hr hw.2).post fun ret w hw => ?_
  split at hw
  · exact hw
  · exact hw.1

theorem getFence (h : ClientRules dev Free I) (H : List Hold) :
    Triple (fun w => I H w ∧ (w.bo o).Fit dev) (Fence.getFence dev o)
      fun ret w => I H w ∧ (ret = 0 → (w.bo o).Fenced) :=
  (h.kept H).getFence (fun _ h => h) fun _ _ => h.take

/-- A pinned object is bound, and its tiling has stayed. -/
theorem pinned (h : ClientRules dev Free I) (H : List Hold) (alignment misses : ℕ) (maf tiled : Bool) :
    Triple (fun w => I H w ∧ (w.bo o).tiled = tiled) (Fence.pin dev o alignment maf misses)
      fun ret w => if ret = 0 then I ({ obj := o } :: H) w ∧ (w.bo o).tiled = tiled ∧
        (w.bo o).gttSpace ≠ none ∧ (maf = true → (w.bo o).mapAndFenceable = true) else I H w := by
  have hI : Kept dev fun w => I H w ∧ (w.bo o).tiled = tiled :=
    (h.kept H).and (kept_bo (A := fun b => b.tiled = tiled) (fun _ h => h) (fun _ _ h => h)
      fun _ h _ => h)
  refine (hI.pin (J := fun w => I ({ obj := o } :: H) w ∧ (w.bo o).tiled = tiled ∧
    (w.bo o).gttSpace ≠ none ∧ (maf = true → (w.bo o).mapAndFenceable = true)) alignment misses maf
    (fun w g n hw hnone hg => ⟨h.place n hw.1 hnone hg, ?_⟩)
    fun w hw hb hmaf hmax => ⟨h.pin hw.1 hb hmax, ?_, ?_, ?_⟩).post fun ret w hw => ?_
  · rw [FenceState.setBo_bo_self]
    exact hw.2
  · rw [FenceState.setBo_bo_self]
    exact hw.2
  · simpa using hb
  · simpa using hmaf
  · split
    · simpa [*] using hw
    · exact (by simpa [*] using hw : I H w ∧ _).1

theorem dropPin (h : ClientRules dev Free I) (H : List Hold) :
    Triple (I ({ obj := o } :: H)) (Fence.unpin o) fun _ => I H := fun _ hw => h.unpin hw

theorem pinFence (h : ClientRules dev Free I) (H : List Hold) (kind : HoldKind)
    (hkind : kind ≠ .plain) :
    Triple (fun w => I ({ obj := o } :: H) w ∧ (w.bo o).Fenced) (Fence.pinFence o)
      fun fence w => I ({ obj := o, kind := kind, fence := fence } :: H) w := by
  refine triple_getBo fun b => ?_
  cases hb : b.fenceReg with
  | none => exact Triple.pure fun w hw => h.unfenced kind hw.1.1 hw.1.2 (hw.2 ▸ hb)
  | some r =>
    refine Triple.bind (Triple.modify (Q := fun _ w =>
      I ({ obj := o, kind := kind, fence := some r } :: H) w) fun w hw => ?_)
      fun _ => Triple.pure fun w hw => hw
    exact h.fenced hkind hw.1.1 hw.1.2 (hw.2 ▸ hb)

theorem fault (h : ClientRules dev Free I) (H : List Hold) (misses : ℕ) :
    Keeps (I H) (fault dev o misses) := by
  refine triple_getBo fun b => Triple.ite (fun _ => Triple.pure fun w hw => hw.1) fun _ => ?_
  have hpin : Triple (fun w => I H w ∧ w.bo o = b) _ _ :=
    (h.pinned (o := o) H 0 misses true b.tiled).pre fun w hw => ⟨hw.1, hw.2 ▸ rfl⟩
  refine triple_guard hpin ?_ fun ret w _ hw => hw
  have hQ : Quiet fun w => I ({ obj := o } :: H) w ∧ (w.bo o).Fit dev :=
    (h.kept _).toQuiet.and (quiet_bo fun _ h => h)
  refine Triple.bind (hQ.setToGttDomain.pre fun w hw => ⟨hw.1, hw.2.2.1, fun _ _ => hw.2.2.2 rfl⟩)
    fun ret => ?_
  refine Triple.bind (Q := fun _ => I ({ obj := o } :: H))
    (Triple.ite (fun _ => Triple.pure fun w hw => hw.1) fun _ => ?_) fun ret => ?_
  · exact (h.getFence _).post fun _ w hw => hw.1
  · exact Triple.bind (h.dropPin H) fun _ => Triple.pure fun w hw => hw

/-- The object pinned for the display is mappable, bound, and tiled as before. -/
theorem pinToDisplayPlane (h : ClientRules dev Free I) (H : List Hold) (alignment misses : ℕ)
    (tiled : Bool) : Triple (fun w => I H w ∧ (w.bo o).tiled = tiled)
      (pinToDisplayPlane dev o alignment misses)
      fun ret w => if ret = 0 then I ({ obj := o } :: H) w ∧ (w.bo o).tiled = tiled ∧
        (w.bo o).Fit dev else I H w := by
  have hK : Kept dev fun w => I H w ∧ (w.bo o).tiled = tiled :=
    (h.kept H).and (kept_bo (A := fun b => b.tiled = tiled) (fun _ h => h) (fun _ _ h => h)
      fun _ h _ => h)
  refine Triple.bind hK.callOut fun e => Triple.ite (fun he => Triple.pure fun w hw => ?_) fun _ => ?_
  · simpa [he] using hw.1
  have hlevel : Keeps (fun w => I H w ∧ (w.bo o).tiled = tiled) (Fence.setCacheLevel dev o 0) := by
    refine hK.setCacheLevel 0 fun w hw => ⟨h.use 0 _ _ hw.1, ?_⟩
    rw [FenceState.setBo_bo_self]
    exact hw.2
  refine triple_guard (Quiet.wait hlevel) ?_ fun ret w hret hw => by simpa [hret] using hw.1
  refine (h.pinned H alignment misses true tiled).post fun ret w hw => ?_
  split
  · rename_i hret
    rw [if_pos hret] at hw
    exact ⟨hw.1, hw.2.1, hw.2.2.1, fun _ _ => hw.2.2.2 rfl⟩
  · simpa [*] using hw

theorem pinAndFenceFbObj (h : ClientRules dev Free I) (H : List Hold) (misses : ℕ) :
    Triple (I H) (pinAndFenceFbObj dev o misses) fun res w => I (res.2.toList ++ H) w := by
  refine triple_getBo fun b => ?_
  cases dev.scanoutAlignment b with
  | none => exact Triple.pure fun w hw => hw.1
  | some alignment =>
    have hpin : Triple (fun w => I H w ∧ w.bo o = b) _ _ :=
      (h.pinToDisplayPlane (o := o) H alignment misses b.tiled).pre fun w hw => ⟨hw.1, hw.2 ▸ rfl⟩
    refine hpin.bind fun ret => Triple.ite (fun hret => Triple.pure fun w hw => ?_) fun hret => ?_
    · simpa [hret] using hw
    refine Triple.bind ((h.getFence ({ obj := o } :: H)).pre fun w hw => ?_) fun ret =>
      Triple.ite (fun _ => ?_) fun hret => ?_
    · simp only [not_not.mp hret] at hw
      exact ⟨hw.1, hw.2.2⟩
    · refine Triple.bind ((h.dropPin H).pre fun w hw => hw.1) fun _ => Triple.pure fun w hw => hw
    · refine Triple.bind ((h.pinFence H .scanout nofun).pre fun w hw => ?_) fun fence => Triple.pure fun w hw => hw
      exact ⟨hw.1, hw.2 (not_not.mp hret)⟩

theorem pinCursor (h : ClientRules dev Free I) (H : List Hold) (alignment misses : ℕ) :
    Triple (I H) (pinCursor dev o alignment misses) fun res w => I (res.2.toList ++ H) w := by
  refine triple_getBo fun b => Triple.ite (fun _ => Triple.pure fun w hw => hw.1) fun hb => ?_
  have hpin : Triple (fun w => I H w ∧ w.bo o = b) _ _ :=
    (h.pinToDisplayPlane (o := o) H alignment misses false).pre fun w hw => ⟨hw.1, hw.2 ▸ by simpa using hb⟩
  refine hpin.bind fun ret => Triple.ite (fun hret => Triple.pure fun w hw => ?_) fun hret => ?_
  · simpa [hret] using hw
  refine Triple.bind ((h.putUntiled ({ obj := o } :: H)).pre fun w hw => ?_) fun ret =>
    Triple.ite (fun _ => ?_) fun hret => Triple.pure fun w hw => hw
  · simp only [not_not.mp hret] at hw
    exact ⟨hw.1, hw.2.1⟩
  · exact Triple.bind (h.dropPin H) fun _ => Triple.pure fun w hw => hw

theorem gttPwriteFast (h : ClientRules dev Free I) (H : List Hold) (misses : ℕ) :
    Triple (fun w => I H w ∧ (w.bo o).tiled = false) (gttPwriteFast dev o misses)
      fun res w => I (res.2.toList ++ H) w := by
  have hQ : Quiet fun w => I ({ obj := o } :: H) w ∧ (w.bo o).tiled = false :=
    (h.kept _).toQuiet.and (quiet_bo (A := fun b => b.tiled = false) fun _ h => h)
  refine (h.pinned H 0 misses true false).bind fun ret =>
    Triple.ite (fun hret => Triple.pure fun w hw => ?_) fun hret => ?_
  · simpa [hret] using hw
  refine Triple.bind (hQ.setToGttDomain.pre fun w hw => ?_) fun ret => ?_
  · simp only [not_not.mp hret] at hw
    exact ⟨hw.1, hw.2.1⟩
  refine Triple.bind (Q := fun _ => I ({ obj := o } :: H))
    (Triple.ite (fun _ => Triple.pure fun w hw => hw.1) fun _ => h.putUntiled _) fun ret =>
    Triple.ite (fun _ => ?_) fun _ => ?_
  · exact Triple.bind (h.dropPin H) fun _ => Triple.pure fun w hw => hw
  refine Triple.bind (h.kept _).callOut fun e => Triple.ite (fun _ => Triple.pure fun w hw => hw) fun _ => ?_
  exact Triple.bind (h.dropPin H) fun _ => Triple.pure fun w hw => hw

theorem pwrite (h : ClientRules dev Free I) (H : List Hold) (misses : ℕ) :
    Triple (I H) (pwrite dev o misses) fun res w => I (res.2.toList ++ H) w := by
  refine Triple.bind (h.kept H).callOut fun e => triple_getBo fun b => Triple.ite (fun hb => ?_)
    fun _ => Triple.pure fun w hw => hw.1
  exact (h.gttPwriteFast H misses).pre fun w hw => ⟨hw.1, hw.2 ▸ hb.2.1⟩

theorem orderObject (h : ClientRules dev Free I) (H : List Hold) :
    Keeps (I H) (orderObject dev o) := by
  refine triple_getBo fun b => Triple.ite (fun hb => ?_) fun _ => Triple.pure fun w hw => hw.1
  refine Triple.ite (fun _ => ?_) fun ht => ?_
  · refine (h.getFence H).conseq (fun w hw => ⟨hw.1, fun hnone => ?_, fun hgen => ?_⟩)
      fun _ w hw => hw.1
    · exact hb.2 (hw.2 ▸ h.located hw.1 hnone)
    · omega
  · exact (h.putUntiled H).pre fun w hw => ⟨hw.1, hw.2 ▸ by simpa using ht⟩

theorem reserveObject (h : ClientRules dev Free I) (H : List Hold) (e : ExecObject) (misses : ℕ) :
    Triple (I H) (reserveObject dev o e misses) fun res w => I (res.2.toList ++ H) w := by
  refine triple_getBo fun b => ?_
  have hpin : Triple (fun w => I H w ∧ w.bo o = b) _ _ :=
    (h.pinned (o := o) H e.alignment misses (b.needMappable dev e) b.tiled).pre fun w hw => ⟨hw.1, hw.2 ▸ rfl⟩
  refine hpin.bind fun ret => Triple.ite (fun hret => Triple.pure fun w hw => ?_) fun hret => ?_
  · simpa [hret] using hw
  simp only [not_not.mp hret]
  refine Triple.ite (fun hneed => ?_) fun _ => Triple.pure fun w hw => h.exec hw.1
  refine Triple.bind ((h.getFence _).pre fun w hw => ⟨hw.1, hw.2.2.1, fun hgen ht => ?_⟩)
    fun ret => Triple.ite (fun _ => Triple.pure fun w hw => h.exec hw.1) fun hret => ?_
  · refine hw.2.2.2 ?_
    have hb : b.tiled = true := hw.2.1.symm.trans ht
    simp [FenceBo.needMappable, FenceBo.needFence, hb, hneed]
  · refine Triple.bind ((h.pinFence H .exec nofun).pre fun w hw => ?_) fun fence => Triple.pure fun w hw => hw
    exact ⟨hw.1, hw.2 (not_not.mp hret)⟩

theorem relocateEntry (h : ClientRules dev Free I) (H : List Hold) :
    Triple (fun w => I H w ∧ Free o w) (relocateEntry dev o) fun _ => I H := by
  have hQ := (h.kept H).toQuiet.and (h.free o)
  refine Triple.bind hQ.setToGttDomain fun ret => Triple.ite (fun _ => Triple.pure fun w hw => hw.1)
    fun _ => ?_
  refine (putFence_spec (Q := I H) hQ (fun w hw _ => hw.1) fun w r hw hr =>
    h.release hw.1 hw.2 hr).post fun ret w hw => ?_
  split at hw
  · exact hw
  · exact hw.1

theorem submit (h : ClientRules dev Free I) (H : List Hold) (fenced : Bool) :
    Keeps (I H) (submit o fenced) := by
  intro w hw
  have hset := h.use (o := o) (w.bo o).cacheLevel fenced (fenced || (w.bo o).fenceBusy) hw
  cases fenced with
  | false => exact hset
  | true =>
    show I H (match (w.bo o).fenceReg with
      | none => _
      | some r => _)
    split
    · exact hset
    · rename_i r hr
      exact (h.kept H).touch (o := o) hset (by simpa using hr)

end ClientRules

/-- What has to hold before the call; only a relocation asks for something. -/
def ClientOp.Allowed (Free : ℕ → FenceState → Prop) (op : ClientOp) (w : FenceState) : Prop :=
  match op with
  | relocate o => Free o w
  | _ => True

/-- Every call keeps the invariant, for the pins that are out when it is over. -/
theorem ClientRules.run (h : ClientRules dev Free I) (H : List Hold) (op : ClientOp) :
    Triple (fun w => I H w ∧ op.Allowed Free w) (op.run dev) fun res w => I (res.toList ++ H) w := by
  have hI := h.kept H
  have hnothing : ∀ {α : Type} {m : FenceM α} (P : FenceState → Prop), Triple P m (fun _ => I H) →
      Triple P (returnsNothing m) fun res w => I (res.toList ++ H) w :=
    fun P hm => fun w hw => hm w hw
  cases op with
  | fault o misses => exact hnothing _ ((h.fault H misses).pre fun w hw => hw.1)
  | pwrite o misses => exact fun w hw => h.pwrite H misses w hw.1
  | display o misses => exact fun w hw => h.pinAndFenceFbObj H misses w hw.1
  | cursor o alignment misses => exact fun w hw => h.pinCursor H alignment misses w hw.1
  | order o => exact hnothing _ ((h.orderObject H).pre fun w hw => hw.1)
  | unbind o => exact hnothing _ (hI.unbind.conseq (fun w hw => hw.1) fun _ w hw => hw.1)
  | reserve o e misses => exact fun w hw => h.reserveObject H e misses w hw.1
  | relocate o => exact hnothing _ (h.relocateEntry H)
  | submit o fenced => exact hnothing _ ((h.submit H fenced).pre fun w hw => hw.1)
  | retire o => exact hnothing _ fun w hw => hI.retire o hw.1
  | setCaching o level =>
    exact hnothing _ ((hI.setCacheLevel level fun w hw => h.use level _ _ hw).pre fun w hw => hw.1)
  | reset => exact hnothing _ ((hI.restoreFences fun w o r => h.owner).pre fun w hw => hw.1)

end GfxDrm.Fence
