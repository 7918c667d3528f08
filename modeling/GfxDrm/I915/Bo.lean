import GfxDrm.Errno
import Mathlib.Data.BitVec

/-! GEM buffer objects of the i915 driver and the changes of a single object. -/

namespace GfxDrm.I915

abbrev ObjId := ℕ
abbrev RingId := ℕ
abbrev Seqno := BitVec 32
abbrev Domains := BitVec 32

/-- `(int32_t)(seq1 - seq2) >= 0`. -/
def seqnoPassed (seq1 seq2 : Seqno) : Bool := decide (0 ≤ (seq1 - seq2).toInt)

def domainCpu : Domains := 0x01
def domainRender : Domains := 0x02
def domainCommand : Domains := 0x08
def domainInstruction : Domains := 0x10
def domainGtt : Domains := 0x40
def gpuDomains : Domains := 0x3e

/-- `drm_i915_gem_object`, with the fields of its `drm_gem_object` base. -/
structure Bo where
  size : BitVec 64
  /-- `gtt_space != NULL` -/
  gttSpace : Bool
  gttOffset : BitVec 32
  mapAndFenceable : Bool
  hasGlobalGttMapping : Bool
  hasAliasingPpgttMapping : Bool
  /-- `I915_CACHE_NONE` is 0. -/
  cacheLevel : ℕ
  /-- `I915_TILING_NONE` is 0. -/
  tilingMode : ℕ
  pinCount : BitVec 32
  pinMappable : Bool
  /-- `none` is `I915_FENCE_REG_NONE`. -/
  fenceReg : Option ℕ
  fenceDirty : Bool
  fencedGpuAccess : Bool
  pendingFencedGpuAccess : Bool
  readDomains : Domains
  writeDomain : Domains
  pendingReadDomains : Domains
  pendingWriteDomain : Domains
  ring : Option RingId
  active : Bool
  dirty : Bool
  lastReadSeqno : Seqno
  lastWriteSeqno : Seqno
  lastFencedSeqno : Seqno
  refcount : ℤ
  /-- The index of `exec_entry` in the array of the call. -/
  execEntry : ℕ
  /-- The dwords of the backing pages, by byte offset. -/
  pages : ℕ → BitVec 32

namespace Bo

/-- The object as its allocation leaves it. -/
def fresh (size : BitVec 64) : Bo where
  size := size
  gttSpace := false
  gttOffset := 0
  mapAndFenceable := true
  hasGlobalGttMapping := false
  hasAliasingPpgttMapping := false
  cacheLevel := 0
  tilingMode := 0
  pinCount := 0
  pinMappable := false
  fenceReg := none
  fenceDirty := false
  fencedGpuAccess := false
  pendingFencedGpuAccess := false
  readDomains := domainCpu
  writeDomain := domainCpu
  pendingReadDomains := 0
  pendingWriteDomain := 0
  ring := none
  active := false
  dirty := false
  lastReadSeqno := 0
  lastWriteSeqno := 0
  lastFencedSeqno := 0
  refcount := 1
  execEntry := 0
  pages _ := 0

def tiled (o : Bo) : Bool := o.tilingMode != 0

/-- The references held by anyone but the active list. -/
def held (o : Bo) : ℤ := o.refcount - if o.active then 1 else 0

/-- `i915_gem_object_move_to_active`, for the seqno `intel_ring_get_seqno` gave. -/
def moveToActive (o : Bo) (ring : RingId) (seqno : Seqno) : Bo :=
  { o with
    lastWriteSeqno := if o.ring ≠ some ring ∧ o.lastWriteSeqno ≠ 0 then seqno
      else o.lastWriteSeqno
    ring := some ring
    refcount := if o.active then o.refcount else o.refcount + 1
    active := true
    lastReadSeqno := seqno
    lastFencedSeqno := if o.fencedGpuAccess then seqno else o.lastFencedSeqno }

/-- `i915_gem_object_move_to_inactive`. -/
def moveToInactive (o : Bo) : Bo :=
  { o with
    ring := none
    lastReadSeqno := 0
    lastWriteSeqno := 0
    writeDomain := 0
    lastFencedSeqno := 0
    fencedGpuAccess := false
    active := false
    refcount := o.refcount - 1 }

/-- What `i915_gem_object_wait_rendering__tail` does to the object after the requests are
retired. -/
def waitedRendering (o : Bo) : Bo :=
  { o with lastWriteSeqno := 0, writeDomain := o.writeDomain &&& ~~~gpuDomains }

/-- The domains and the last write that `i915_gem_execbuffer_move_to_active` records. -/
def submit (o : Bo) (ring : RingId) (seqno : Seqno) : Bo :=
  let read := if o.pendingWriteDomain = 0 then o.pendingReadDomains ||| o.readDomains
    else o.pendingReadDomains
  let o' := moveToActive { o with
    writeDomain := o.pendingWriteDomain
    pendingReadDomains := read
    readDomains := read
    fencedGpuAccess := o.pendingFencedGpuAccess } ring seqno
  if o'.writeDomain ≠ 0 then { o' with dirty := true, lastWriteSeqno := seqno } else o'

/-- `i915_gem_object_fence_lost`. -/
def fenceLost (o : Bo) : Bo := { o with fenceDirty := false, fenceReg := none }

@[simp] theorem held_moveToActive (o : Bo) (ring : RingId) (seqno : Seqno) :
    (o.moveToActive ring seqno).held = o.held := by
  unfold held moveToActive
  cases o.active <;> simp

theorem held_moveToInactive {o : Bo} (h : o.active = true) : o.moveToInactive.held = o.held := by
  simp [held, moveToInactive, h]

theorem held_add (o : Bo) (n : ℤ) : { o with refcount := o.refcount + n }.held = o.held + n := by
  unfold held
  dsimp only
  omega

end Bo

end GfxDrm.I915
