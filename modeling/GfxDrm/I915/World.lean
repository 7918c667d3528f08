import GfxDrm.I915.Bo

/-! The device an execbuffer call works on, and what the rest of the system does to it while
the call waits. -/

namespace GfxDrm.I915

/-- What does not change during a call. -/
structure Dev where
  gen : ℕ
  fenceRegStart : ℕ
  numFenceRegs : ℕ
  aliasingPpgtt : Bool
  /-- The objects behind hardware contexts; no handle names them. -/
  contextObj : ObjId → Bool
  /-- `gpu_error.stop_rings` -/
  stopRings : RingId → Bool

structure FenceReg where
  obj : Option ObjId
  pinCount : ℤ
  deriving DecidableEq

/-- What is written into a ring, as far as ordering matters. -/
inductive RingCmd where
  /-- A batch-buffer start, with the lazy request outstanding when it was written. -/
  | batch (start len : BitVec 32) (flags : ℕ) (request : Seqno)
  /-- The seqno store of `ring->add_request`. -/
  | breadcrumb (seqno : Seqno)
  | other (what : ℕ)
  deriving DecidableEq

structure Ring where
  outstandingLazyRequest : Seqno
  gpuCachesDirty : Bool
  /-- What was written since the mutex was last taken, oldest first. -/
  trace : List RingCmd
  /-- How much of it the GPU has been told of. -/
  visible : ℕ
  deriving DecidableEq

/-- `drm_i915_gem_exec_object2` -/
structure ExecObject2 where
  handle : ℕ
  relocationCount : ℕ
  alignment : BitVec 64
  offset : BitVec 64
  flags : BitVec 64

/-- `drm_i915_gem_relocation_entry` -/
structure RelocationEntry where
  targetHandle : ℕ
  delta : BitVec 32
  offset : BitVec 64
  presumedOffset : BitVec 64
  readDomains : Domains
  writeDomain : Domains

/-- What `struct_mutex` protects. -/
structure Shared where
  bo : ObjId → Bo
  fence : ℕ → FenceReg
  /-- `mm.fence_list`, least recently used first. -/
  fenceList : List ℕ
  ring : RingId → Ring
  nextSeqno : Seqno

/-- What happens outside of the code modelled here at one point where the call depends on it.
Each place reads the fields it needs. -/
structure Event where
  ret : ℤ
  /-- Objects that requests found complete let go of. -/
  retired : List ObjId
  /-- Rings whose lazy request is added on the way. -/
  added : List RingId
  /-- References other threads take (or drop, when negative). -/
  foreign : ObjId → ℤ
  /-- What `drm_gem_object_lookup` finds. -/
  lookup : Option ObjId
  /-- How often the search for GTT space fails before it succeeds. -/
  misses : ℕ
  /-- The objects an eviction picks. -/
  evicted : List ObjId
  /-- Where an object is bound. -/
  start : BitVec 32
  mapAndFenceable : Bool
  /-- The objects of hardware contexts after a context switch. -/
  contexts : ObjId → Bo
  /-- What the relocation entries in user memory hold. -/
  relocs : ℕ → RelocationEntry
  /-- The device after others have used it while the mutex was dropped. -/
  others : Shared

/-- Nothing happens and every call succeeds. -/
def Event.calm (others : Shared) : Event where
  ret := 0
  retired := []
  added := []
  foreign _ := 0
  lookup := none
  misses := 0
  evicted := []
  start := 0
  mapAndFenceable := true
  contexts _ := Bo.fresh 0
  relocs _ := ⟨0, 0, 0, 0, 0, 0⟩
  others := others

/-- The two situations in which an exit of the call skips the release of a reference. -/
inductive Fault where
  /-- A lookup found an object that is on the list already. -/
  | repeated (o : ObjId)
  /-- The domain change or the fence release of a relocation failed. -/
  | relocation (target : ObjId)
  deriving DecidableEq

structure World extends Shared where
  dev : Dev
  exec : ℕ → ExecObject2
  /-- The list of the call, linked through `exec_list`. -/
  objects : List ObjId
  needRelocs : Bool
  /-- The references other threads have taken since the call began. -/
  foreign : ObjId → ℤ
  faults : List Fault
  /-- What is still to happen outside. -/
  coming : ℕ → Event

abbrev ExecM := StateM World

namespace World

def setBo (w : World) (o : ObjId) (b : Bo) : World :=
  { w with bo := Function.update w.bo o b }

def setFence (w : World) (i : ℕ) (f : FenceReg) : World :=
  { w with fence := Function.update w.fence i f }

def setRing (w : World) (r : RingId) (ring : Ring) : World :=
  { w with ring := Function.update w.ring r ring }

def setExec (w : World) (i : ℕ) (e : ExecObject2) : World :=
  { w with exec := Function.update w.exec i e }

/-- `obj->exec_entry` -/
def entry (w : World) (o : ObjId) : ExecObject2 := w.exec (w.bo o).execEntry

section

variable (w : World) (o x : ObjId) (b : Bo) (i j : ℕ) (f : FenceReg)

@[simp] theorem setBo_self : (w.setBo o b).bo o = b := Function.update_self ..

theorem setBo_of_ne (h : x ≠ o) : (w.setBo o b).bo x = w.bo x := Function.update_of_ne h ..

@[simp] theorem setBo_setBo (b' : Bo) : (w.setBo o b).setBo o b' = w.setBo o b' := by
  unfold setBo
  simp only [Function.update_idem]

@[simp] theorem setFence_self : (w.setFence i f).fence i = f := Function.update_self ..

theorem setFence_of_ne (h : j ≠ i) : (w.setFence i f).fence j = w.fence j :=
  Function.update_of_ne h ..

end

/-- An active object of a request that is only outstanding, hence not in the ring yet, cannot
be found complete. -/
def retirable (w : World) (o : ObjId) : Bool :=
  (w.bo o).active && (w.bo o).ring.all fun r =>
    (w.ring r).outstandingLazyRequest != (w.bo o).lastReadSeqno

/-- The effect of `i915_gem_retire_requests_ring` on one object. -/
def retire (w : World) (o : ObjId) : World :=
  if w.retirable o then w.setBo o (w.bo o).moveToInactive else w

/-- `i915_add_request` for the request that is outstanding. -/
def addLazyRequest (w : World) (r : RingId) : World :=
  let ring := w.ring r
  if ring.outstandingLazyRequest = 0 then w
  else w.setRing r { ring with
    trace := ring.trace ++ [.breadcrumb ring.outstandingLazyRequest]
    visible := if w.dev.stopRings r then ring.visible else ring.trace.length + 1
    outstandingLazyRequest := 0 }

def addForeign (w : World) (d : ObjId → ℤ) : World :=
  { w with
    bo := fun o => { w.bo o with refcount := (w.bo o).refcount + d o }
    foreign := fun o => w.foreign o + d o }

/-- What a context switch leaves of the objects behind hardware contexts. -/
def setContexts (w : World) (c : ObjId → Bo) : World :=
  { w with
    bo := fun o =>
      if w.dev.contextObj o then { c o with fenceReg := (w.bo o).fenceReg } else w.bo o
    foreign := fun o =>
      if w.dev.contextObj o then w.foreign o + (c o).held - (w.bo o).held else w.foreign o }

/-- One event passes: others change references, requests are retired. -/
def pass (w : World) : World :=
  let e := w.coming 0
  let w := { w with coming := fun n => w.coming (n + 1) }
  e.retired.foldl retire (w.addForeign e.foreign)

end World

/-- A point where the call depends on the outside. -/
def callOut : ExecM Event := fun w => (w.coming 0, w.pass)

/-- A wait that may have to add the lazy requests of rings first. -/
def waitOut : ExecM Event := fun w =>
  (w.coming 0, World.pass ((w.coming 0).added.foldl World.addLazyRequest w))

def modifyBo (o : ObjId) (f : Bo → Bo) : ExecM Unit := modify fun w => w.setBo o (f (w.bo o))

def getBo (o : ObjId) : ExecM Bo := fun w => (w.bo o, w)

def modifyEntry (o : ObjId) (f : ExecObject2 → ExecObject2) : ExecM Unit :=
  modify fun w => w.setExec (w.bo o).execEntry (f (w.entry o))

def onlyIf (c : Bool) (m : ExecM Unit) : ExecM Unit := if c then m else pure ⟨⟩

/-- `drm_gem_object_reference` -/
def reference (o : ObjId) : ExecM Unit := modifyBo o fun b => { b with refcount := b.refcount + 1 }

/-- `drm_gem_object_unreference` -/
def unreference (o : ObjId) : ExecM Unit :=
  modifyBo o fun b => { b with refcount := b.refcount - 1 }

end GfxDrm.I915
