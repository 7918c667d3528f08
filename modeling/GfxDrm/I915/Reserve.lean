import GfxDrm.I915.World

/-! Pinning, binding, fences and `i915_gem_execbuffer_reserve`. -/

namespace GfxDrm.I915

open Errno

/-! ### Waiting for an object -/

/-- `i915_wait_seqno` -/
def waitSeqno : ExecM ℤ := do
  let e ← waitOut
  return e.ret

/-- `i915_gem_object_wait_rendering` -/
def waitRendering (o : ObjId) (readonly : Bool) : ExecM ℤ := do
  let b ← getBo o
  if (if readonly then b.lastWriteSeqno else b.lastReadSeqno) = 0 then return 0
  let ret ← waitSeqno
  if ret ≠ 0 then return ret
  modifyBo o Bo.waitedRendering
  return 0

/-- `i915_gem_object_finish_gpu` -/
def finishGpu (o : ObjId) : ExecM ℤ := do
  let b ← getBo o
  if b.readDomains &&& gpuDomains = 0 then return 0
  let ret ← waitRendering o false
  if ret ≠ 0 then return ret
  modifyBo o fun b => { b with readDomains := b.readDomains &&& ~~~gpuDomains }
  return 0

/-- `i915_gem_object_finish_gtt` -/
def finishGtt (o : ObjId) : ExecM Unit :=
  modifyBo o fun b =>
    if b.readDomains &&& domainGtt = 0 then b
    else { b with
      readDomains := b.readDomains &&& ~~~domainGtt
      writeDomain := b.writeDomain &&& ~~~domainGtt }

/-! ### Fence registers -/

/-- `i915_gem_object_wait_fence` -/
def waitFence (o : ObjId) : ExecM ℤ := do
  let b ← getBo o
  let ret ← (if b.lastFencedSeqno = 0 then pure 0 else waitSeqno)
  if ret ≠ 0 then return ret
  modifyBo o fun b => { b with lastFencedSeqno := 0, fencedGpuAccess := false }
  return 0

/-- `i915_gem_object_update_fence` -/
def World.updateFence (w : World) (o : ObjId) (reg : ℕ) (enable : Bool) : World :=
  let b := { w.bo o with fenceReg := if enable then some reg else none, fenceDirty := false }
  let f := { w.fence reg with obj := if enable then some o else none }
  { (w.setBo o b).setFence reg f with
    fenceList := if enable then w.fenceList.erase reg ++ [reg] else w.fenceList.erase reg }

/-- `i915_gem_object_put_fence` -/
def putFence (o : ObjId) : ExecM ℤ := do
  let ret ← waitFence o
  if ret ≠ 0 then return ret
  let b ← getBo o
  match b.fenceReg with
  | none => return 0
  | some reg =>
    modifyBo o Bo.fenceLost
    modify fun w => w.updateFence o reg false
    return 0

/-- `i915_find_fence_reg`: a register without an object, else one to steal. -/
def World.findFenceReg (w : World) : Option ℕ :=
  let regs := List.range' w.dev.fenceRegStart (w.dev.numFenceRegs - w.dev.fenceRegStart)
  match regs.find? fun i => (w.fence i).obj.isNone with
  | some i => some i
  | none =>
    if regs.any fun i => (w.fence i).pinCount == 0 then
      w.fenceList.find? fun i => (w.fence i).pinCount == 0
    else none

/-- The end of the search of `i915_gem_object_get_fence`: the register found is taken from
the object that holds it. -/
def stealFence (reg : ℕ) : ExecM ℤ := do
  let w ← get
  match (w.fence reg).obj with
  | none => return 0
  | some old =>
    let ret ← waitFence old
    if ret ≠ 0 then return ret
    modifyBo old Bo.fenceLost
    return 0

/-- `i915_gem_object_get_fence` -/
def getFence (o : ObjId) : ExecM ℤ := do
  let b ← getBo o
  let ret ← (if b.fenceDirty then waitFence o else pure 0)
  if ret ≠ 0 then return ret
  let w ← get
  match b.fenceReg with
  | some reg =>
    if b.fenceDirty then
      modify fun w => w.updateFence o reg b.tiled
      return 0
    else
      modify fun w => { w with fenceList := w.fenceList.erase reg ++ [reg] }
      return 0
  | none =>
    if b.tiled then
      match w.findFenceReg with
      | none => return eDeadlk
      | some reg =>
        let ret ← stealFence reg
        if ret ≠ 0 then return ret
        modify fun w => w.updateFence o reg true
        return 0
    else return 0

/-- `i915_gem_object_pin_fence` -/
def pinFence (o : ObjId) : ExecM Bool := do
  let w ← get
  match (w.bo o).fenceReg with
  | none => return false
  | some reg =>
    modify fun w => w.setFence reg { w.fence reg with pinCount := (w.fence reg).pinCount + 1 }
    return true

/-- `i915_gem_object_unpin_fence` -/
def unpinFence (o : ObjId) : ExecM Unit :=
  modify fun w =>
    match (w.bo o).fenceReg with
    | none => w
    | some reg => w.setFence reg { w.fence reg with pinCount := (w.fence reg).pinCount - 1 }

/-! ### Binding and pinning -/

/-- `i915_gem_object_unbind` -/
def unbind (o : ObjId) : ExecM ℤ := do
  let b ← getBo o
  if b.gttSpace = false then return 0
  if b.pinCount ≠ 0 then return eBusy
  let ret ← finishGpu o
  if ret ≠ 0 then return ret
  finishGtt o
  let ret ← putFence o
  if ret ≠ 0 then return ret
  modifyBo o fun b => { b with
    hasGlobalGttMapping := false
    hasAliasingPpgttMapping := false
    mapAndFenceable := true
    gttSpace := false
    gttOffset := 0 }
  return 0

/-- The unbinding loop of `i915_gem_evict_something`. -/
def unbindVictims : List ObjId → ℤ → ExecM ℤ
  | [], ret => pure ret
  | o :: rest, ret => do
    let ret ← (if ret = 0 then unbind o else pure ret)
    unreference o
    unbindVictims rest ret

/-- `i915_gem_evict_something`: the scan picks objects that are bound and not pinned, or finds
nothing. -/
def evictSomething : ExecM ℤ := do
  let e ← callOut
  let w ← get
  let victims := e.evicted.filter fun o => (w.bo o).gttSpace && (w.bo o).pinCount == 0
  if victims = [] then return eNospc
  victims.forM reference
  unbindVictims victims 0

/-- The search for GTT space of `i915_gem_object_bind_to_gtt`: every miss evicts. -/
def searchFree : ℕ → ExecM ℤ
  | 0 => pure 0
  | misses + 1 => do
    let ret ← evictSomething
    if ret = 0 then searchFree misses else return ret

/-- `i915_gem_object_bind_to_gtt`. The checks of size and alignment, the pages and the node
come first; after the search the space found is checked. -/
def bindToGtt (o : ObjId) : ExecM ℤ := do
  let e ← callOut
  if e.ret ≠ 0 then return e.ret
  let ret ← searchFree e.misses
  if ret ≠ 0 then return ret
  let e ← callOut
  if e.ret ≠ 0 then return e.ret
  modifyBo o fun b => { b with
    gttSpace := true
    gttOffset := e.start
    mapAndFenceable := e.mapAndFenceable }
  return 0

/-- The object lies where the request does not allow it. -/
def Bo.misplaced (b : Bo) (alignment : BitVec 32) (mapAndFenceable : Bool) : Bool :=
  (alignment != 0 && b.gttOffset &&& (alignment - 1) != 0) ||
    (mapAndFenceable && !b.mapAndFenceable)

def maxPinCount : BitVec 32 := 0xf

/-- `i915_gem_object_pin` -/
def pin (o : ObjId) (alignment : BitVec 32) (mapAndFenceable : Bool) : ExecM ℤ := do
  let b ← getBo o
  if b.pinCount = maxPinCount then return eBusy
  let ret ← (if b.gttSpace && b.misplaced alignment mapAndFenceable then unbind o else pure 0)
  if ret ≠ 0 then return ret
  let b ← getBo o
  let ret ← (if b.gttSpace then pure 0 else bindToGtt o)
  if ret ≠ 0 then return ret
  modify fun w => w.setBo o { w.bo o with
    hasGlobalGttMapping := (w.bo o).hasGlobalGttMapping ||
      (!b.gttSpace && !w.dev.aliasingPpgtt) || mapAndFenceable
    pinCount := (w.bo o).pinCount + 1
    pinMappable := (w.bo o).pinMappable || mapAndFenceable }
  return 0

/-- `i915_gem_object_unpin` -/
def unpin (o : ObjId) : ExecM Unit :=
  modifyBo o fun b => { b with
    pinCount := b.pinCount - 1
    pinMappable := b.pinMappable && b.pinCount != 1 }

/-! ### The reservation of an execbuffer call -/

def execObjectNeedsFence : BitVec 64 := 1 <<< 0
def execObjectNeedsGtt : BitVec 64 := 1 <<< 1
def execObjectWrite : BitVec 64 := 1 <<< 2
def execObjectHasPin : BitVec 64 := 1 <<< 31
def execObjectHasFence : BitVec 64 := 1 <<< 30

def ExecObject2.has (e : ExecObject2) (flag : BitVec 64) : Bool := e.flags &&& flag != 0

def World.hasFencedGpuAccess (w : World) : Bool := decide (w.dev.gen < 4)

/-- `use_cpu_reloc` -/
def Bo.useCpuReloc (b : Bo) : Bool :=
  b.writeDomain == domainCpu || !b.mapAndFenceable || b.cacheLevel != 0

/-- The `need_fence` of the reservation, with its exception for the fifth generation. -/
def World.needFence (w : World) (o : ObjId) : Bool :=
  if w.dev.gen = 5 then (w.bo o).tiled
  else w.hasFencedGpuAccess && (w.entry o).has execObjectNeedsFence && (w.bo o).tiled

def World.needMappable (w : World) (o : ObjId) : Bool :=
  w.needFence o || ((w.entry o).relocationCount != 0 && !(w.bo o).useCpuReloc)

/-- The fence of a reserved object, on the generations whose GPU accesses use fences. -/
def reserveFence (o : ObjId) : ExecM ℤ := do
  let w ← get
  if w.hasFencedGpuAccess && (w.entry o).has execObjectNeedsFence then
    let ret ← getFence o
    if ret ≠ 0 then return ret
    let pinned ← pinFence o
    onlyIf pinned (modifyEntry o fun e => { e with flags := e.flags ||| execObjectHasFence })
    modifyBo o fun b => { b with pendingFencedGpuAccess := true }
    return 0
  else return 0

/-- The mappings, the offset and the domains of a reserved object. -/
def reserveMappings (o : ObjId) : ExecM Unit := do
  modify fun w => w.setBo o { w.bo o with
    hasAliasingPpgttMapping := (w.bo o).hasAliasingPpgttMapping || w.dev.aliasingPpgtt }
  let w ← get
  let b := w.bo o
  onlyIf ((w.entry o).offset != b.gttOffset.setWidth 64) do
    modifyEntry o fun e => { e with offset := b.gttOffset.setWidth 64 }
    modify fun w => { w with needRelocs := true }
  onlyIf ((w.entry o).has execObjectWrite) (modifyBo o fun b => { b with
    pendingReadDomains := domainRender
    pendingWriteDomain := domainRender })
  onlyIf ((w.entry o).has execObjectNeedsGtt)
    (modifyBo o fun b => { b with hasGlobalGttMapping := true })

/-- `i915_gem_execbuffer_reserve_object` -/
def reserveObject (o : ObjId) : ExecM ℤ := do
  let w ← get
  let ret ← pin o ((w.entry o).alignment.setWidth 32) (w.needMappable o)
  if ret ≠ 0 then return ret
  modifyEntry o fun e => { e with flags := e.flags ||| execObjectHasPin }
  let ret ← reserveFence o
  if ret ≠ 0 then return ret
  reserveMappings o
  return 0

/-- `i915_gem_execbuffer_unreserve_object` -/
def unreserveObject (o : ObjId) : ExecM Unit := do
  let w ← get
  onlyIf (w.bo o).gttSpace do
    onlyIf ((w.entry o).has execObjectHasFence) (unpinFence o)
    onlyIf ((w.entry o).has execObjectHasPin) (unpin o)
    modifyEntry o fun e =>
      { e with flags := e.flags &&& ~~~(execObjectHasFence ||| execObjectHasPin) }

/-- The first loop: the objects that need the mappable aperture move to the front. -/
def orderObjects (batch : Option ObjId) : List ObjId → List ObjId → ExecM (List ObjId)
  | [], ordered => pure ordered
  | o :: rest, ordered => do
    let w ← get
    modifyBo o fun b => { b with
      pendingReadDomains := gpuDomains &&& ~~~domainCommand
      pendingWriteDomain := 0
      pendingFencedGpuAccess := false }
    onlyIf (decide (w.dev.gen = 5 ∧ batch ≠ some o) && (w.bo o).gttOffset != 0) do
      discard (if (w.bo o).tiled then getFence o else putFence o)
      modifyBo o fun b => { b with pendingFencedGpuAccess := true }
    orderObjects batch rest (if w.needMappable o then o :: ordered else ordered ++ [o])

/-- The object is bound where its entry does not allow it. -/
def World.illPlaced (w : World) (o : ObjId) : Bool :=
  let alignment := (w.entry o).alignment
  (alignment != 0 && (w.bo o).gttOffset.setWidth 64 &&& (alignment - 1) != 0) ||
    (w.needMappable o && !(w.bo o).mapAndFenceable)

/-- `Unbind any ill-fitting objects or pin.` -/
def pinBound : List ObjId → ExecM ℤ
  | [] => pure 0
  | o :: rest => do
    let w ← get
    let ret ← (if (w.bo o).gttSpace = false then pure 0
      else if w.illPlaced o then unbind o
      else reserveObject o)
    if ret ≠ 0 then return ret
    pinBound rest

/-- `Bind fresh objects` -/
def bindFresh : List ObjId → ExecM ℤ
  | [] => pure 0
  | o :: rest => do
    let w ← get
    let ret ← (if (w.bo o).gttSpace then pure 0 else reserveObject o)
    if ret ≠ 0 then return ret
    bindFresh rest

/-- One pass over the list, up to the label `err`. -/
def pinObjects (objects : List ObjId) : ExecM ℤ := do
  let ret ← pinBound objects
  if ret ≠ 0 then return ret
  bindFresh objects

/-- One round of the retry loop: the pass and the release of its pins. -/
def reserveRound (objects : List ObjId) : ExecM ℤ := do
  let ret ← pinObjects objects
  objects.forM unreserveObject
  return ret

/-- `i915_gpu_idle`, which switches to the default hardware context. -/
def gpuIdle : ExecM ℤ := do
  let e ← waitOut
  modify fun w => w.setContexts e.contexts
  return e.ret

/-- An object that is not pinned loses its GTT space, whatever `i915_gem_object_unbind` says. -/
def unbindUnpinned (o : ObjId) : ExecM Unit := do
  let b ← getBo o
  onlyIf (b.gttSpace && b.pinCount == 0) (discard (unbind o))

/-- `i915_gem_evict_everything`: there may be nothing on the lists; else everything on the
inactive list of the idle GPU goes. -/
def evictEverything : ExecM ℤ := do
  let e ← callOut
  if e.ret ≠ 0 then return eNospc
  let ret ← gpuIdle
  if ret ≠ 0 then return ret
  let e ← callOut
  e.evicted.forM unbindUnpinned
  return 0

/-- The ordering of the list before the retry loop of `i915_gem_execbuffer_reserve`. -/
def reserveOrder : ExecM Unit := do
  let w ← get
  let ordered ← orderObjects w.objects.getLast? w.objects []
  modify fun w => { w with objects := ordered }

/-- The retry loop, which goes round at most twice. -/
def reserveRetry (objects : List ObjId) : ExecM ℤ := do
  let ret ← reserveRound objects
  if ret ≠ eNospc then return ret
  let ret ← evictEverything
  if ret ≠ 0 then return ret
  reserveRound objects

/-- `i915_gem_execbuffer_reserve` -/
def reserve : ExecM ℤ := do
  reserveOrder
  let w ← get
  reserveRetry w.objects

end GfxDrm.I915
