import GfxDrm.I915.Relocate

/-! i915_gem_do_execbuffer around the reservation and the relocations: the checks, the lookup of
the objects, the ring commands, and the exits. -/

namespace GfxDrm.I915

open Errno

/-! ### Ring commands -/

def rcs : RingId := 0
def vcs : RingId := 1
def bcs : RingId := 2
def vecs : RingId := 3

/-- intel_ring_emit and intel_ring_advance: a stopped ring does not tell the GPU. -/
def World.emit (w : World) (r : RingId) (cmds : List RingCmd) : World :=
  let trace := (w.ring r).trace ++ cmds
  w.setRing r { w.ring r with
    trace := trace
    visible := if w.dev.stopRings r then (w.ring r).visible else trace.length }

/-- The next seqno is the ring's. Zero is none. -/
def World.takeSeqno (w : World) (r : RingId) : World :=
  let seqno := if w.nextSeqno = 0 then 1 else w.nextSeqno
  { w.setRing r { w.ring r with outstandingLazyRequest := seqno } with nextSeqno := seqno + 1 }

/-- i915_gem_get_seqno. At the wrap i915_gem_init_seqno idles the rings first. -/
def getSeqno (r : RingId) : ExecM ℤ := do
  let w ← get
  let ret ← (if w.nextSeqno = 0 then waitSeqno else pure 0)
  if ret ≠ 0 then return ret
  modify fun w => w.takeSeqno r
  return 0

/-- intel_ring_alloc_seqno. -/
def allocSeqno (r : RingId) : ExecM ℤ := do
  let w ← get
  if (w.ring r).outstandingLazyRequest ≠ 0 then return 0 else getSeqno r

/-- intel_ring_begin: the GPU may be wedged, and there may be no space in the ring. Requests are
retired in the search for it. -/
def ringBegin (r : RingId) : ExecM ℤ := do
  let e ← callOut
  if e.ret ≠ 0 then return e.ret
  let ret ← allocSeqno r
  if ret ≠ 0 then return ret
  let e ← callOut
  return e.ret

/-- Dwords that are no batch and no seqno, with the space for them. -/
def ringEmit (r : RingId) (dwords : List (BitVec 32)) : ExecM ℤ := do
  let ret ← ringBegin r
  if ret ≠ 0 then return ret
  modify fun w => w.emit r (dwords.map fun d => .other d.toNat)
  return 0

def miInstr (opcode flags : BitVec 32) : BitVec 32 := opcode <<< 23 ||| flags
def miNoop : BitVec 32 := miInstr 0 0
def miFlush : BitVec 32 := miInstr 0x04 0
def miSemaphoreMbox : BitVec 32 := miInstr 0x16 1
def miSetContext : BitVec 32 := miInstr 0x18 0
def miLoadRegisterImm : BitVec 32 := miInstr 0x22 1
def gfxOpDrawrectInfo : BitVec 32 := 0x7d800003
def gfxOpDrawrectInfoI965 : BitVec 32 := 0x79000002
def xySrcCopyBltCmd : BitVec 32 := 0x54c00006
def instpm : BitVec 32 := 0x20c0
def gen7SoWriteOffset (n : ℕ) : BitVec 32 := BitVec.ofNat 32 (0x5280 + n * 4)

/-- ring->flush and the end of intel_ring_flush_all_caches and
intel_ring_invalidate_all_caches. -/
def ringFlush (r : RingId) : ExecM ℤ := do
  let ret ← ringEmit r [miFlush]
  if ret ≠ 0 then return ret
  modify fun w => w.setRing r { w.ring r with gpuCachesDirty := false }
  return 0

/-- intel_ring_flush_all_caches. -/
def flushAllCaches (r : RingId) : ExecM ℤ := do
  let w ← get
  if (w.ring r).gpuCachesDirty then ringFlush r else return 0

/-- The seqno store of ring->add_request ends the request. -/
def World.emitBreadcrumb (w : World) (r : RingId) : World :=
  let w' := w.emit r [.breadcrumb (w.ring r).outstandingLazyRequest]
  w'.setRing r { w'.ring r with outstandingLazyRequest := 0 }

/-- __i915_add_request. -/
def addRequest (r : RingId) : ExecM ℤ := do
  let ret ← flushAllCaches r
  if ret ≠ 0 then return ret
  let e ← callOut
  if e.ret ≠ 0 then return eNomem
  let ret ← ringBegin r
  if ret ≠ 0 then return ret
  modify fun w => w.emitBreadcrumb r
  return 0

/-! ### The call and what it meets -/

/-- `struct drm_clip_rect` -/
structure ClipRect where
  x1 : BitVec 16
  y1 : BitVec 16
  x2 : BitVec 16
  y2 : BitVec 16
  deriving DecidableEq

/-- `struct drm_i915_gem_execbuffer2` -/
structure Execbuffer2 where
  bufferCount : BitVec 32
  batchStartOffset : BitVec 32
  batchLen : BitVec 32
  dr1 : BitVec 32
  dr4 : BitVec 32
  numCliprects : BitVec 32
  /-- What is found behind `cliprects_ptr`. -/
  cliprects : ℕ → ClipRect
  flags : BitVec 64
  /-- `rsvd1` -/
  contextId : BitVec 32

/-- The objects behind the contexts of a switch. -/
structure CtxSwitch where
  toObj : ObjId
  fromObj : Option ObjId

/-- What the call reads of the driver next to the objects and the rings. -/
structure Driver where
  isMaster : Bool
  ringInitialized : RingId → Bool
  semaphores : Bool
  /-- `relative_constants_mode` when the arguments are checked. -/
  constantsMode : BitVec 64
  /-- The same under the mutex. -/
  constantsModeLocked : BitVec 64
  /-- IS_I830 or IS_845G, with the offset of the scratch object. -/
  i830 : Option (BitVec 32)
  itlbBeforeCtxSwitch : Bool
  /-- The switch to the context of the call, where there is one to do. -/
  context : Except ℤ (Option CtxSwitch)
  /-- The last read of the object is not behind the `sync_seqno` of its ring. -/
  synced : ObjId → Bool

def dispatchSecure : ℕ := 0x1
def dispatchPinned : ℕ := 0x2

def Execbuffer2.has (args : Execbuffer2) (flag : BitVec 64) : Bool := args.flags &&& flag != 0

def execGen7SolReset : BitVec 64 := 1 <<< 8
def execSecure : BitVec 64 := 1 <<< 9
def execIsPinned : BitVec 64 := 1 <<< 10
def execNoReloc : BitVec 64 := 1 <<< 11

def Execbuffer2.dispatchFlags (args : Execbuffer2) : ℕ :=
  (if args.has execSecure then dispatchSecure else 0) +
    if args.has execIsPinned then dispatchPinned else 0

/-! ### The checks of the arguments -/

/-- The ring that the flags select. Only the render ring has contexts. -/
def execRing (args : Execbuffer2) : Except ℤ RingId :=
  let other := fun r => if args.contextId ≠ 0 then .error ePerm else .ok r
  match (args.flags &&& 7).toNat with
  | 0 => .ok rcs
  | 1 => .ok rcs
  | 2 => other vcs
  | 3 => other bcs
  | 4 => other vecs
  | _ => .error eInval

def constantsMask : BitVec 64 := 3 <<< 6
def constantsRelSurface : BitVec 64 := 2 <<< 6

/-- The mask of the constants mode. -/
def execConstants (dev : Dev) (drv : Driver) (r : RingId) (mode : BitVec 64) :
    Except ℤ (BitVec 64) :=
  if mode = constantsMask then .error eInval
  else if r = rcs ∧ mode ≠ drv.constantsMode then
    if dev.gen < 4 ∨ (5 < dev.gen ∧ mode = constantsRelSurface) then .error eInval
    else .ok (if 6 ≤ dev.gen then constantsMask &&& ~~~constantsRelSurface else constantsMask)
  else .ok constantsMask

def uintMax : ℕ := 4294967295
def sizeofCliprect : ℕ := 8

/-- What the checks make of the arguments. -/
structure ExecPlan where
  ring : RingId
  mode : BitVec 64
  mask : BitVec 64
  deriving DecidableEq

/-- The checks up to the copy of the clip rectangles. -/
def planExec (dev : Dev) (drv : Driver) (args : Execbuffer2) (exec : ℕ → ExecObject2) :
    Except ℤ ExecPlan := do
  if (args.batchStartOffset ||| args.batchLen) &&& 7 ≠ 0 then throw eInval
  let ret := validateExecList exec args.bufferCount
  if ret ≠ 0 then throw ret
  if args.has execSecure && !drv.isMaster then throw ePerm
  let ring ← execRing args
  if drv.ringInitialized ring = false then throw eInval
  let mode := args.flags &&& constantsMask
  let mask ← execConstants dev drv ring mode
  if args.bufferCount = 0 then throw eInval
  if args.numCliprects ≠ 0 then
    if ring ≠ rcs then throw eInval
    if 5 ≤ dev.gen then throw eInval
    if uintMax / sizeofCliprect < args.numCliprects.toNat then throw eInval
  return { ring := ring, mode := mode, mask := mask }

/-- The clip rectangles are copied in. -/
def copyCliprects (args : Execbuffer2) : ExecM (Except ℤ (List ClipRect)) := do
  if args.numCliprects = 0 then return .ok []
  let e ← callOut
  if e.ret ≠ 0 then return .error eNomem
  let e ← callOut
  if e.ret ≠ 0 then return .error eFault
  return .ok ((List.range args.numCliprects.toNat).map args.cliprects)

/-- Everything up to the list of the objects: past it the exits go through the label `err`. -/
def enterExec (drv : Driver) (args : Execbuffer2) :
    ExecM (Except ℤ (ExecPlan × List ClipRect)) := do
  let w ← get
  match planExec w.dev drv args w.exec with
  | .error ret => return .error ret
  | .ok plan =>
    match ← copyCliprects args with
    | .error ret => return .error ret
    | .ok boxes =>
      let ret ← relock
      if ret ≠ 0 then return .error ret
      -- mm.suspended or gpu_hang
      let e ← callOut
      if e.ret ≠ 0 then return .error eBusy
      -- eb_create
      let e ← callOut
      if e.ret ≠ 0 then return .error eNomem
      modify fun w => { w with objects := [], needRelocs := !args.has execNoReloc }
      return .ok (plan, boxes)

/-! ### The objects -/

/-- The loop that looks the handles up. An object that is on a list already, this one or one it
was left on by an earlier call (`ret` of the event), ends it. -/
def lookupObjects : List ℕ → ExecM ℤ
  | [] => pure 0
  | i :: rest => do
    let e ← callOut
    match e.lookup with
    | none => return eNoent
    | some o =>
      reference o
      let w ← get
      if o ∈ w.objects ∨ e.ret ≠ 0 then
        -- this exit does not drop the reference
        modify fun w => { w with faults := w.faults ++ [.repeated o] }
        return eInval
      modify fun w => { w with objects := w.objects ++ [o] }
      modifyBo o fun b => { b with execEntry := i }
      lookupObjects rest

/-- The relocations, on the fast path or else on the slow one. -/
def applyRelocs (args : Execbuffer2) : ExecM ℤ := do
  let w ← get
  let ret ← (if w.needRelocs then relocate else pure 0)
  if ret = eFault then
    let (ret, _) ← relocateSlow (args.has execNoReloc) args.bufferCount
    return ret
  else return ret

/-- i915_gem_check_olr. -/
def checkOlr (r : RingId) (seqno : Seqno) : ExecM ℤ := do
  let w ← get
  if seqno = (w.ring r).outstandingLazyRequest then addRequest r else return 0

/-- i915_gem_object_sync. -/
def objectSync (drv : Driver) (o : ObjId) (waiter : RingId) : ExecM ℤ := do
  let b ← getBo o
  match b.ring with
  | none => return 0
  | some r =>
    if r = waiter then return 0
    if drv.semaphores = false then waitRendering o false
    else if drv.synced o then return 0
    else
      let ret ← checkOlr r b.lastReadSeqno
      if ret ≠ 0 then return ret
      ringEmit waiter [miSemaphoreMbox]

def syncObjects (drv : Driver) (r : RingId) : List ObjId → ExecM ℤ
  | [] => pure 0
  | o :: rest => do
    let ret ← objectSync drv o r
    if ret ≠ 0 then return ret
    syncObjects drv r rest

/-- i915_gem_execbuffer_move_to_gpu. -/
def moveToGpu (drv : Driver) (r : RingId) : ExecM ℤ := do
  let w ← get
  let ret ← syncObjects drv r w.objects
  if ret ≠ 0 then return ret
  ringFlush r

/-- i915_gem_execbuffer_move_to_active. -/
def moveToActive (r : RingId) : ExecM Unit := do
  let w ← get
  w.objects.forM fun o => modifyBo o fun b => b.submit r (w.ring r).outstandingLazyRequest

/-- i915_gem_execbuffer_retire_commands. -/
def retireCommands (r : RingId) : ExecM Unit := do
  modify fun w => w.setRing r { w.ring r with gpuCachesDirty := true }
  discard (addRequest r)

/-! ### Before the batch -/

/-- mi_set_context. -/
def emitSetContext (drv : Driver) (r : RingId) : ExecM ℤ := do
  let w ← get
  let ret ← (if decide (w.dev.gen = 6) && drv.itlbBeforeCtxSwitch then ringEmit r [miFlush]
    else pure 0)
  if ret ≠ 0 then return ret
  ringEmit r [miSetContext]

def contextAlign : BitVec 32 := 64 <<< 10

/-- do_switch once the switch has been emitted: the old context is busy until its request is. -/
def handOver (drv : Driver) (r : RingId) (old : ObjId) : ExecM ℤ := do
  let w ← get
  modifyBo old fun b =>
    { { b with readDomains := domainInstruction }.moveToActive r
        (w.ring r).outstandingLazyRequest with dirty := true }
  let ret ← addRequest r
  if ret ≠ 0 then
    discard (emitSetContext drv r)
    return ret
  unpin old
  -- i915_gem_context_unreference may drop the object
  discard callOut
  return 0

/-- do_switch. -/
def doSwitch (drv : Driver) (r : RingId) (s : CtxSwitch) : ExecM ℤ := do
  let ret ← pin s.toObj contextAlign false
  if ret ≠ 0 then return ret
  let ret ← setToGttDomain s.toObj false
  if ret ≠ 0 then
    unpin s.toObj
    return ret
  modifyBo s.toObj fun b => { b with hasGlobalGttMapping := true }
  let ret ← emitSetContext drv r
  if ret ≠ 0 then
    unpin s.toObj
    return ret
  match s.fromObj with
  | none => return 0
  | some old => handOver drv r old

/-- i915_switch_context. -/
def switchContext (drv : Driver) (r : RingId) : ExecM ℤ :=
  if r ≠ rcs then pure 0
  else match drv.context with
    | .error ret => pure ret
    | .ok none => pure 0
    | .ok (some s) => doSwitch drv r s

/-- The constants mode of the render ring. -/
def emitConstants (drv : Driver) (plan : ExecPlan) : ExecM ℤ :=
  if plan.ring = rcs ∧ plan.mode ≠ drv.constantsModeLocked then
    ringEmit plan.ring
      [miNoop, miLoadRegisterImm, instpm, (plan.mask <<< 16 ||| plan.mode).setWidth 32]
  else pure 0

/-- i915_reset_gen7_sol_offsets. -/
def resetGen7SolOffsets (r : RingId) : ExecM ℤ := do
  let w ← get
  if w.dev.gen ≠ 7 ∨ r ≠ rcs then return 0
  ringEmit r ((List.range 4).flatMap fun i => [miLoadRegisterImm, gen7SoWriteOffset i, 0])

/-- The commands between the relocations and the batch. -/
def emitPreamble (drv : Driver) (args : Execbuffer2) (plan : ExecPlan) : ExecM ℤ := do
  let ret ← moveToGpu drv plan.ring
  if ret ≠ 0 then return ret
  let ret ← switchContext drv plan.ring
  if ret ≠ 0 then return ret
  let ret ← emitConstants drv plan
  if ret ≠ 0 then return ret
  if args.has execGen7SolReset then resetGen7SolOffsets plan.ring else return 0

/-- The checks and the mapping of the batch object itself. -/
def prepareBatch (args : Execbuffer2) (batch : ObjId) : ExecM ℤ := do
  let b ← getBo batch
  if b.pendingWriteDomain ≠ 0 then return eInval
  modifyBo batch fun b => { b with
    pendingReadDomains := b.pendingReadDomains ||| domainCommand
    hasGlobalGttMapping := b.hasGlobalGttMapping || args.has execSecure }
  return 0

/-- From the lookup of the handles up to the batch, with the batch object. -/
def prepareExec (drv : Driver) (args : Execbuffer2) (plan : ExecPlan) :
    ExecM (Except ℤ ObjId) := do
  let ret ← lookupObjects (List.range args.bufferCount.toNat)
  if ret ≠ 0 then return .error ret
  let w ← get
  match w.objects.getLast? with
  | none => return .error eInval
  | some batch =>
    let ret ← reserve
    if ret ≠ 0 then return .error ret
    let ret ← applyRelocs args
    if ret ≠ 0 then return .error ret
    let ret ← prepareBatch args batch
    if ret ≠ 0 then return .error ret
    let ret ← emitPreamble drv args plan
    if ret ≠ 0 then return .error ret
    return .ok batch

/-! ### The batch -/

def ClipRect.bad (box : ClipRect) : Bool :=
  decide (box.y2 ≤ box.y1 ∨ box.x2 ≤ box.x1 ∨ box.y2 = 0 ∨ box.x2 = 0)

/-- A corner of the box. -/
def boxCorner (x y : BitVec 32) : BitVec 32 := x &&& 0xffff ||| y <<< 16

def ClipRect.dwords (box : ClipRect) (gen : ℕ) (dr1 dr4 : BitVec 32) : List (BitVec 32) :=
  let corners := [boxCorner (box.x1.setWidth 32) (box.y1.setWidth 32),
    boxCorner (box.x2.setWidth 32 - 1) (box.y2.setWidth 32 - 1)]
  if 4 ≤ gen then gfxOpDrawrectInfoI965 :: corners ++ [dr4]
  else [gfxOpDrawrectInfo, dr1] ++ corners ++ [dr4, 0]

/-- i915_emit_box, which writes to the render ring. -/
def emitBox (args : Execbuffer2) (box : ClipRect) : ExecM ℤ := do
  if box.bad then return eInval
  let w ← get
  ringEmit rcs (box.dwords w.dev.gen args.dr1 args.dr4)

def i830BatchLimit : BitVec 32 := 256 * 1024

/-- A batch as it is given to ring->dispatch_execbuffer. -/
structure Batch where
  ring : RingId
  start : BitVec 32
  len : BitVec 32
  flags : ℕ

def Execbuffer2.batch (args : Execbuffer2) (plan : ExecPlan) (b : Bo) : Batch where
  ring := plan.ring
  start := b.gttOffset + args.batchStartOffset
  len := args.batchLen
  flags := args.dispatchFlags

/-- i830_dispatch_execbuffer copies a batch that is not pinned, and there is a limit to what it
copies. -/
def Batch.copied (b : Batch) (drv : Driver) : Option (BitVec 32) :=
  if b.flags &&& dispatchPinned = 0 then drv.i830 else none

/-- The batch-buffer start, with the copy before it. -/
def Batch.commands (b : Batch) (drv : Driver) (request : Seqno) : List RingCmd :=
  match b.copied drv with
  | none => [.batch b.start b.len b.flags request]
  | some csOffset =>
    [.other xySrcCopyBltCmd.toNat, .other b.start.toNat, .other miFlush.toNat,
      .batch csOffset b.len b.flags request]

/-- ring->dispatch_execbuffer. -/
def dispatchExecbuffer (drv : Driver) (b : Batch) : ExecM ℤ := do
  if (b.copied drv).isSome && decide (i830BatchLimit < b.len) then return eNospc
  let ret ← ringBegin b.ring
  if ret ≠ 0 then return ret
  modify fun w => w.emit b.ring (b.commands drv (w.ring b.ring).outstandingLazyRequest)
  return 0

/-- The batch for one clip rectangle. -/
def dispatchBox (drv : Driver) (args : Execbuffer2) (b : Batch) (box : ClipRect) : ExecM ℤ := do
  let ret ← emitBox args box
  if ret ≠ 0 then return ret
  dispatchExecbuffer drv b

/-- The loop over the clip rectangles. -/
def dispatchBoxes (drv : Driver) (args : Execbuffer2) (b : Batch) : List ClipRect → ExecM ℤ
  | [] => pure 0
  | box :: rest => do
    let ret ← dispatchBox drv args b box
    if ret ≠ 0 then return ret
    dispatchBoxes drv args b rest

def dispatchAll (drv : Driver) (args : Execbuffer2) (b : Batch) (boxes : List ClipRect) :
    ExecM ℤ :=
  if boxes = [] then dispatchExecbuffer drv b else dispatchBoxes drv args b boxes

/-- From the lookup of the handles to the label `err`. -/
def submitExec (drv : Driver) (args : Execbuffer2) (plan : ExecPlan) (boxes : List ClipRect) :
    ExecM ℤ := do
  match ← prepareExec drv args plan with
  | .error ret => return ret
  | .ok batch =>
    let b ← getBo batch
    let ret ← dispatchAll drv args (args.batch plan b) boxes
    if ret ≠ 0 then return ret
    moveToActive plan.ring
    retireCommands plan.ring
    return 0

/-- i915_gem_do_execbuffer. -/
def doExecbuffer (drv : Driver) (args : Execbuffer2) : ExecM ℤ := do
  match ← enterExec drv args with
  | .error ret => return ret
  | .ok (plan, boxes) =>
    let ret ← submitExec drv args plan boxes
    releaseObjects
    return ret

end GfxDrm.I915
