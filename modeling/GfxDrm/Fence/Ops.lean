import GfxDrm.Errno
import GfxDrm.Lib.Hoare
import Mathlib.Data.BitVec
import Mathlib.Data.List.Range

/-! Objects that may need a fence register: their sizes, places and register values
(i915_gem.c, i915_gem_tiling.c). -/

namespace GfxDrm.Fence

/-- The hardware and its GTT. -/
structure FenceDev where
  gen : ℕ
  isG33 : Bool
  hasLlc : Bool
  isBroadwaterOrCrestline : Bool
  needVtdWa : Bool
  has128ByteYTiling : Bool
  /-- `bit_6_swizzle_x` and `bit_6_swizzle_y` are `I915_BIT_6_SWIZZLE_UNKNOWN`. -/
  unknownSwizzleX : Bool
  unknownSwizzleY : Bool
  fenceRegStart : ℕ
  numFenceRegs : ℕ
  mappableEnd : ℕ
  total : ℕ
  gen_mem : 2 ≤ gen ∧ gen ≤ 7
  mappable_le : mappableEnd ≤ total
  total_lt : total < 2 ^ 32

def tilingNone : BitVec 32 := 0
def tilingX : BitVec 32 := 1
def tilingY : BitVec 32 := 2

/-- A `drm_mm_node` of the GTT. -/
structure Node where
  start : ℕ
  size : ℕ
  deriving DecidableEq, Repr

structure FenceBo where
  size : ℕ
  gttSpace : Option Node := none
  gttOffset : ℕ := 0
  mapAndFenceable : Bool := true
  tilingMode : BitVec 2 := 0
  stride : BitVec 32 := 0
  /-- `none` is `I915_FENCE_REG_NONE`. -/
  fenceReg : Option ℕ := none
  fenceDirty : Bool := false
  fencedGpuAccess : Bool := false
  /-- `last_fenced_seqno` is not zero. -/
  fenceBusy : Bool := false
  pinCount : BitVec 32 := 0
  /-- `I915_CACHE_NONE` is 0. -/
  cacheLevel : ℕ := 0
  deriving DecidableEq, Repr

/-- `tiling_mode` as it is compared with an argument. -/
def FenceBo.tiling (b : FenceBo) : BitVec 32 := b.tilingMode.setWidth 32

def FenceBo.tiled (b : FenceBo) : Bool := b.tilingMode != 0

def FenceBo.nodeSize (b : FenceBo) : ℕ := (b.gttSpace.map Node.size).getD 0

/-- The loop of i915_gem_get_gtt_size; none where it does not end. -/
def growGttSize : ℕ → ℕ → ℕ → Option ℕ
  | 0, _, _ => none
  | fuel + 1, gttSize, size =>
    if gttSize < size then growGttSize fuel (gttSize * 2 % 2 ^ 32) size else some gttSize

namespace FenceDev

variable (dev : FenceDev)

def minFenceSize : ℕ := if dev.gen = 3 then 1024 * 1024 else 512 * 1024

/-- i915_gem_get_gtt_size. Once `gtt_size` has become zero it stays so. -/
def getGttSize (size : ℕ) (tiled : Bool) : Option ℕ :=
  if 4 ≤ dev.gen ∨ tiled = false then some (size % 2 ^ 32)
  else growGttSize 33 dev.minFenceSize (size % 2 ^ 32)

/-- i915_gem_get_gtt_alignment. -/
def getGttAlignment (size : ℕ) (tiled fenced : Bool) : Option ℕ :=
  if 4 ≤ dev.gen ∨ (fenced = false ∧ dev.isG33) ∨ tiled = false then some 4096
  else dev.getGttSize size tiled

/-- i915_tiling_ok, on arguments that are converted to `int`. -/
def tilingOk (stride : BitVec 32) (size : ℕ) (tiling : BitVec 32) : Bool :=
  if tiling = tilingNone then true
  else
    let tileWidth : ℤ := if dev.gen = 2 ∨ (tiling = tilingY ∧ dev.has128ByteYTiling) then 128 else 512
    let s := stride.toInt
    let z := (BitVec.ofNat 32 size).toInt
    if 7 ≤ dev.gen ∧ 0x0800 < s.tdiv 128 then false
    else if 4 ≤ dev.gen ∧ dev.gen < 7 ∧ 0x0400 < s.tdiv 128 then false
    else if dev.gen < 4 ∧ 8192 < s then false
    else if dev.gen = 3 ∧ 2 ^ 8 * 2 ^ 20 < z then false
    else if dev.gen = 2 ∧ 2 ^ 8 * 2 ^ 19 < z then false
    else if s < tileWidth then false
    else if 4 ≤ dev.gen then stride &&& BitVec.ofInt 32 (tileWidth - 1) = 0
    else stride &&& (stride - 1) = 0

def startMask : BitVec 32 := if dev.gen = 3 then 0x0ff00000 else 0x07f80000

/-- i915_gem_object_fence_ok; none where it does not return. -/
def fenceOk (b : FenceBo) (tiling : BitVec 32) : Option Bool :=
  if tiling = tilingNone then some true
  else if 4 ≤ dev.gen then some true
  else if BitVec.ofNat 32 b.gttOffset &&& ~~~dev.startMask ≠ 0 then some false
  else (dev.getGttSize b.size true).map fun size =>
    decide (b.nodeSize = size) && decide (b.gttOffset &&& (size - 1) = 0)

/-! ### Register values -/

def ffs (x : BitVec 32) : BitVec 32 :=
  match (List.range 32).find? fun i => x.getLsbD i with
  | some i => BitVec.ofNat 32 (i + 1)
  | none => 0

def yBit (b : FenceBo) (shift : ℕ) : BitVec 32 := if b.tiling = tilingY then 1 <<< shift else 0

/-- i965_write_fence_reg. -/
def i965FenceValue (b : FenceBo) : BitVec 64 :=
  let size := BitVec.ofNat 32 b.nodeSize
  let offset := BitVec.ofNat 32 b.gttOffset
  ((offset + size - 4096) &&& 0xfffff000).setWidth 64 <<< 32 |||
    (offset &&& 0xfffff000).setWidth 64 |||
    (b.stride / 128 - 1).setWidth 64 <<< (if 6 ≤ dev.gen then 32 else 2) |||
    (yBit b 1).setWidth 64 ||| 1

/-- i915_write_fence_reg. -/
def i915FenceValue (b : FenceBo) : BitVec 32 :=
  let tileWidth := if b.tiling = tilingY ∧ dev.has128ByteYTiling then 128 else 512
  let pitch := ffs (b.stride / tileWidth) - 1
  BitVec.ofNat 32 b.gttOffset ||| yBit b 12 |||
    (ffs (BitVec.ofNat 32 b.nodeSize >>> 20) - 1) <<< 8 ||| pitch <<< 4 ||| 1

/-- i830_write_fence_reg. -/
def i830FenceValue (b : FenceBo) : BitVec 32 :=
  let pitch := ffs (b.stride / 128) - 1
  BitVec.ofNat 32 b.gttOffset ||| yBit b 12 |||
    (ffs (BitVec.ofNat 32 b.nodeSize >>> 19) - 1) <<< 8 ||| pitch <<< 4 ||| 1

/-- What i915_gem_write_fence writes for an object. -/
def fenceValue (b : FenceBo) : BitVec 64 :=
  if 4 ≤ dev.gen then dev.i965FenceValue b
  else if dev.gen = 3 then (dev.i915FenceValue b).setWidth 64
  else (i830FenceValue b).setWidth 64

end FenceDev

/-- `I830_FENCE_REG_VALID` and `I965_FENCE_REG_VALID`. -/
def fenceValid (value : BitVec 64) : Bool := value.getLsbD 0

theorem fenceValid_fenceValue (dev : FenceDev) (b : FenceBo) :
    fenceValid (dev.fenceValue b) = true := by
  unfold FenceDev.fenceValue fenceValid
  split
  · simp [FenceDev.i965FenceValue]
  · split
    · simp [FenceDev.i915FenceValue]
    · simp [FenceDev.i830FenceValue]

/-- From zero the loop ends for size zero only. -/
theorem growGttSize_zero {fuel size k : ℕ} (h : growGttSize fuel 0 size = some k) : size = 0 := by
  induction fuel with
  | zero => cases h
  | succ fuel ih =>
    unfold growGttSize at h
    split at h
    · exact ih h
    · omega

/-- Where the loop ends it ends with a power of two that the size fits in. -/
theorem growGttSize_some {fuel n size k : ℕ} (h : growGttSize fuel (2 ^ n) size = some k)
    (hn : n < 32) : ∃ m, n ≤ m ∧ m < 32 ∧ k = 2 ^ m ∧ size ≤ k := by
  induction fuel generalizing n with
  | zero => cases h
  | succ fuel ih =>
    unfold growGttSize at h
    split at h
    · rename_i hlt
      rcases Nat.lt_or_ge (n + 1) 32 with hn1 | hn1
      · have hpow : 2 ^ n * 2 % 2 ^ 32 = 2 ^ (n + 1) := by
          rw [← Nat.pow_succ]
          exact Nat.mod_eq_of_lt (Nat.pow_lt_pow_right (by decide) hn1)
        rw [hpow] at h
        obtain ⟨m, hm, hrest⟩ := ih h hn1
        exact ⟨m, Nat.le_of_succ_le hm, hrest⟩
      · have hn31 : n = 31 := by omega
        subst hn31
        have hzero := growGttSize_zero (by simpa using h)
        omega
    · cases h
      exact ⟨n, Nat.le_refl _, hn, rfl, by omega⟩

theorem FenceDev.minFenceSize_pow (dev : FenceDev) : ∃ n, n < 32 ∧ dev.minFenceSize = 2 ^ n := by
  unfold FenceDev.minFenceSize
  split
  · exact ⟨20, by decide, by decide⟩
  · exact ⟨19, by decide, by decide⟩

/-- A fence region of the older generations is a power of two of at least the smallest size. -/
theorem FenceDev.getGttSize_tiled {dev : FenceDev} (hgen : dev.gen < 4) {size k : ℕ}
    (h : dev.getGttSize size true = some k) : ∃ m, k = 2 ^ m ∧ dev.minFenceSize ≤ k := by
  rw [FenceDev.getGttSize, if_neg (by simp; omega)] at h
  obtain ⟨n, hn, hmin⟩ := dev.minFenceSize_pow
  rw [hmin] at h ⊢
  obtain ⟨m, hm, -, rfl, -⟩ := growGttSize_some h hn
  exact ⟨m, rfl, Nat.pow_le_pow_right (by decide) hm⟩

/-! The functions under `struct_mutex` that place objects, pin them and give them fence
registers (i915_gem.c, i915_gem_tiling.c). -/

open Errno

/-- `written` is the value last written to the register. -/
structure FenceReg where
  obj : Option ℕ := none
  pinCount : ℤ := 0
  written : BitVec 64 := 0
  deriving DecidableEq, Repr

/-- What one point of the code gets from outside: what a wait or another call returns, the
objects whose requests are found complete, those an eviction picks, and the GTT node. -/
structure Outcome where
  ret : ℤ := 0
  retired : List ℕ := []
  evicted : List ℕ := []
  node : Option Node := none
  deriving DecidableEq, Repr

/-- A value written to a register that enables it, and the object as it was. -/
structure FenceWrite where
  reg : ℕ
  value : BitVec 64
  bo : FenceBo
  deriving DecidableEq, Repr

/-- The object once its fenced accesses are over. -/
def FenceBo.idle (b : FenceBo) : FenceBo := { b with fencedGpuAccess := false, fenceBusy := false }

structure FenceState where
  bo : ℕ → FenceBo
  reg : ℕ → FenceReg := fun _ => {}
  /-- `mm.fence_list`, least recently used first. -/
  fenceList : List ℕ := []
  /-- All the enabling writes, the last one first. -/
  writes : List FenceWrite := []
  /-- A call is in a loop that does not end, and holds the mutex. -/
  hung : Bool := false
  /-- What is still to come from outside. -/
  coming : ℕ → Outcome := fun _ => {}

abbrev FenceM := StateM FenceState

namespace FenceState

def setBo (w : FenceState) (o : ℕ) (b : FenceBo) : FenceState :=
  { w with bo := Function.update w.bo o b }

def setReg (w : FenceState) (r : ℕ) (x : FenceReg) : FenceState :=
  { w with reg := Function.update w.reg r x }

/-- The GPU is done with an object. -/
def retire (w : FenceState) (o : ℕ) : FenceState := w.setBo o (w.bo o).idle

/-- The register goes to the end of the list. -/
def touch (w : FenceState) (r : ℕ) : FenceState :=
  { w with fenceList := w.fenceList.erase r ++ [r] }

end FenceState

def callOut : FenceM Outcome := fun w =>
  let e := w.coming 0
  (e, e.retired.foldl FenceState.retire { w with coming := fun n => w.coming (n + 1) })

def modifyBo (o : ℕ) (f : FenceBo → FenceBo) : FenceM Unit := modify fun w => w.setBo o (f (w.bo o))

def getBo (o : ℕ) : FenceM FenceBo := fun w => (w.bo o, w)

/-- Nothing that follows the call takes place. -/
def hang : FenceM ℤ := do
  modify fun w => { w with hung := true }
  return eInval

/-! ### Fence registers -/

/-- i915_gem_object_wait_fence. -/
def waitFence (o : ℕ) : FenceM ℤ := do
  let b ← getBo o
  let ret ← (if b.fenceBusy then Outcome.ret <$> callOut else pure 0)
  if ret ≠ 0 then return ret
  modify fun w => w.retire o
  return 0

/-- i915_gem_object_fence_lost. -/
def FenceBo.fenceLost (b : FenceBo) : FenceBo := { b with fenceDirty := false, fenceReg := none }

/-- i915_gem_write_fence without an object. -/
def FenceState.clearFence (w : FenceState) (r : ℕ) : FenceState :=
  w.setReg r { w.reg r with written := 0 }

/-- i915_gem_object_update_fence with `enable`. -/
def FenceState.attachFence (dev : FenceDev) (w : FenceState) (o r : ℕ) : FenceState :=
  let value := dev.fenceValue (w.bo o)
  { (w.setBo o { w.bo o with fenceReg := some r, fenceDirty := false }).setReg r
      { w.reg r with obj := some o, written := value } with
    fenceList := w.fenceList.erase r ++ [r]
    writes := ⟨r, value, w.bo o⟩ :: w.writes }

/-- i915_gem_object_update_fence without `enable`. -/
def FenceState.detachFence (w : FenceState) (o r : ℕ) : FenceState :=
  { (w.setBo o { w.bo o with fenceReg := none, fenceDirty := false }).setReg r
      { w.reg r with obj := none, written := 0 } with
    fenceList := w.fenceList.erase r }

/-- i915_gem_object_update_fence. -/
def updateFence (dev : FenceDev) (o r : ℕ) (enable : Bool) : FenceM Unit :=
  modify fun w => if enable then w.attachFence dev o r else w.detachFence o r

/-- i915_gem_object_put_fence. -/
def putFence (dev : FenceDev) (o : ℕ) : FenceM ℤ := do
  let ret ← waitFence o
  if ret ≠ 0 then return ret
  let b ← getBo o
  match b.fenceReg with
  | none => return 0
  | some r =>
    modifyBo o FenceBo.fenceLost
    updateFence dev o r false
    return 0

/-- i915_find_fence_reg: a register without an object, else one to steal. -/
def FenceState.findFenceReg (dev : FenceDev) (w : FenceState) : Option ℕ :=
  let regs := List.range' dev.fenceRegStart (dev.numFenceRegs - dev.fenceRegStart)
  match regs.find? fun r => (w.reg r).obj.isNone with
  | some r => some r
  | none =>
    if regs.any fun r => (w.reg r).pinCount == 0 then
      w.fenceList.find? fun r => (w.reg r).pinCount == 0
    else none

/-- The object that has the register loses it. -/
def FenceState.loseFence (w : FenceState) (r : ℕ) : FenceState :=
  match (w.reg r).obj with
  | none => w
  | some old => w.setBo old (w.bo old).fenceLost

/-- i915_gem_object_get_fence takes the register it found from the object that has it. -/
def stealFence (r : ℕ) : FenceM ℤ := do
  let w ← get
  let ret ← (match (w.reg r).obj with
    | none => pure 0
    | some old => waitFence old)
  if ret ≠ 0 then return ret
  modify fun w => w.loseFence r
  return 0

/-- i915_gem_object_get_fence, on an object that is bound. -/
def getFence (dev : FenceDev) (o : ℕ) : FenceM ℤ := do
  let b ← getBo o
  let ret ← (if b.fenceDirty then waitFence o else pure 0)
  if ret ≠ 0 then return ret
  match b.fenceReg with
  | some r =>
    if b.fenceDirty then
      updateFence dev o r b.tiled
      return 0
    else
      modify fun w => w.touch r
      return 0
  | none =>
    if b.tiled then
      let w ← get
      match w.findFenceReg dev with
      | none => return eDeadlk
      | some r =>
        let ret ← stealFence r
        if ret ≠ 0 then return ret
        updateFence dev o r true
        return 0
    else return 0

/-- i915_gem_object_pin_fence, with the register it counts. -/
def pinFence (o : ℕ) : FenceM (Option ℕ) := do
  let b ← getBo o
  match b.fenceReg with
  | none => return none
  | some r =>
    modify fun w => w.setReg r { w.reg r with pinCount := (w.reg r).pinCount + 1 }
    return some r

/-- i915_gem_object_unpin_fence. -/
def unpinFence (o : ℕ) : FenceM Unit :=
  modify fun w =>
    match (w.bo o).fenceReg with
    | none => w
    | some r => w.setReg r { w.reg r with pinCount := (w.reg r).pinCount - 1 }

/-- One round of i915_gem_restore_fences. -/
def restoreFence (dev : FenceDev) (r : ℕ) : FenceM Unit := do
  let w ← get
  match (w.reg r).obj with
  | some o => updateFence dev o r (w.bo o).tiled
  | none => modify fun w => w.clearFence r

/-- i915_gem_restore_fences. -/
def restoreFences (dev : FenceDev) : FenceM Unit :=
  (List.range dev.numFenceRegs).forM (restoreFence dev)

/-! ### Places in the GTT -/

/-- The object when it has left the GTT. -/
def FenceBo.unbound (b : FenceBo) : FenceBo :=
  { b with mapAndFenceable := true, gttSpace := none, gttOffset := 0 }

/-- i915_gem_object_unbind. -/
def unbind (dev : FenceDev) (o : ℕ) : FenceM ℤ := do
  let b ← getBo o
  if b.gttSpace = none then return 0
  if b.pinCount ≠ 0 then return eBusy
  -- i915_gem_object_finish_gpu
  let e ← callOut
  if e.ret ≠ 0 then return e.ret
  let ret ← putFence dev o
  if ret ≠ 0 then return ret
  modifyBo o FenceBo.unbound
  return 0

def unbindVictims (dev : FenceDev) : List ℕ → FenceM ℤ
  | [] => pure 0
  | o :: rest => do
    let ret ← unbind dev o
    if ret ≠ 0 then return ret
    unbindVictims dev rest

/-- i915_gem_evict_something: the scan picks objects that are bound and not pinned. -/
def evictSomething (dev : FenceDev) : FenceM ℤ := do
  let e ← callOut
  let w ← get
  let victims := e.evicted.filter fun o => (w.bo o).gttSpace.isSome && (w.bo o).pinCount == 0
  if victims = [] then return eNospc
  unbindVictims dev victims

/-- What drm_mm_insert_node_in_range_generic promises of the node it finds. -/
def Node.fits (n : Node) (size alignment gttMax : ℕ) : Bool :=
  n.size = size && n.start % alignment = 0 && decide (n.start + n.size ≤ gttMax)

/-- The search for GTT space: every miss evicts. `misses` bounds them. -/
def searchFree (dev : FenceDev) (size alignment gttMax : ℕ) : ℕ → FenceM (Except ℤ Node)
  | 0 => pure (.error eNospc)
  | misses + 1 => do
    let e ← callOut
    match e.node with
    | some n => if n.fits size alignment gttMax then return .ok n else return .error eNospc
    | none =>
      let ret ← evictSomething dev
      if ret ≠ 0 then return .error ret
      searchFree dev size alignment gttMax misses

/-- The sizes and alignments of an object: what a fence needs, and the alignment without. -/
structure Region where
  fenceSize : ℕ
  fenceAlignment : ℕ
  unfencedAlignment : ℕ

/-- The alignment to ask for, where the caller may leave it open. -/
def Region.alignment (g : Region) (alignment : ℕ) (mapAndFenceable : Bool) : ℕ :=
  if alignment = 0 then (if mapAndFenceable then g.fenceAlignment else g.unfencedAlignment)
  else alignment

/-- None where i915_gem_get_gtt_size does not return. -/
def FenceDev.region (dev : FenceDev) (b : FenceBo) : Option Region := do
  let fenceSize ← dev.getGttSize b.size b.tiled
  let fenceAlignment ← dev.getGttAlignment b.size b.tiled true
  let unfencedAlignment ← dev.getGttAlignment b.size b.tiled false
  return { fenceSize, fenceAlignment, unfencedAlignment }

/-- The end of i915_gem_object_bind_to_gtt. -/
def FenceBo.bound (dev : FenceDev) (b : FenceBo) (g : Region) (n : Node) : FenceBo :=
  let fenceable := decide (n.size = g.fenceSize) && decide (n.start &&& (g.fenceAlignment - 1) = 0)
  { b with
    gttSpace := some n
    gttOffset := n.start
    mapAndFenceable := decide (n.start + b.size ≤ dev.mappableEnd) && fenceable }

/-- i915_gem_object_bind_to_gtt, after at most `misses` evictions. -/
def bindToGtt (dev : FenceDev) (o alignment : ℕ) (mapAndFenceable : Bool) (misses : ℕ) :
    FenceM ℤ := do
  let b ← getBo o
  match dev.region b with
  | none => hang
  | some g =>
    let align := g.alignment alignment mapAndFenceable
    if mapAndFenceable ∧ align &&& (g.fenceAlignment - 1) ≠ 0 then return eInval
    let gttMax := if mapAndFenceable then dev.mappableEnd else dev.total
    if gttMax < b.size then return e2Big
    -- the pages and the memory of the node
    let e ← callOut
    if e.ret ≠ 0 then return e.ret
    let found ← searchFree dev (if mapAndFenceable then g.fenceSize else b.size) align gttMax misses
    match found with
    | .error ret => return ret
    | .ok n =>
      let e ← callOut
      if e.ret ≠ 0 then return e.ret
      modifyBo o fun b => b.bound dev g n
      return 0

def maxPinCount : BitVec 32 := 0xf

/-- The object lies where the request does not allow it. -/
def FenceBo.misplaced (b : FenceBo) (alignment : ℕ) (mapAndFenceable : Bool) : Bool :=
  (alignment != 0 && b.gttOffset &&& (alignment - 1) != 0) ||
    (mapAndFenceable && !b.mapAndFenceable)

/-- i915_gem_object_pin. -/
def pin (dev : FenceDev) (o alignment : ℕ) (mapAndFenceable : Bool) (misses : ℕ) : FenceM ℤ := do
  let b ← getBo o
  if b.pinCount = maxPinCount then return eBusy
  let ret ← (if b.gttSpace.isSome && b.misplaced alignment mapAndFenceable then unbind dev o
    else pure 0)
  if ret ≠ 0 then return ret
  let b ← getBo o
  let ret ← (if b.gttSpace.isSome then pure 0 else bindToGtt dev o alignment mapAndFenceable misses)
  if ret ≠ 0 then return ret
  modifyBo o fun b => { b with pinCount := b.pinCount + 1 }
  return 0

/-- i915_gem_object_unpin. -/
def unpin (o : ℕ) : FenceM Unit := modifyBo o fun b => { b with pinCount := b.pinCount - 1 }

/-! ### Tiling -/

/-- `map_and_fenceable` for a new tiling mode; none where i915_gem_object_fence_ok does not
return. -/
def FenceDev.mapAndFenceable (dev : FenceDev) (b : FenceBo) (tiling : BitVec 32) : Option Bool :=
  if b.gttSpace.isNone then some true
  else if b.gttOffset + b.size ≤ dev.mappableEnd then dev.fenceOk b tiling
  else some false

/-- i915_gem_set_tiling unbinds an object whose place does not suit the new mode. -/
def unbindUnaligned (dev : FenceDev) (o : ℕ) (tiling : BitVec 32) : FenceM ℤ := do
  let b ← getBo o
  match dev.getGttAlignment b.size (tiling != tilingNone) false with
  | none => hang
  | some alignment =>
    if b.gttOffset &&& (alignment - 1) ≠ 0 then unbind dev o else return 0

def FenceBo.retiled (b : FenceBo) (tiling stride : BitVec 32) : FenceBo :=
  { b with
    fenceDirty := b.fencedGpuAccess || b.fenceReg.isSome
    tilingMode := tiling.setWidth 2
    stride := stride }

/-- The part of i915_gem_set_tiling under the mutex, where the arguments change something. -/
def retile (dev : FenceDev) (o : ℕ) (tiling stride : BitVec 32) : FenceM ℤ := do
  let b ← getBo o
  match dev.mapAndFenceable b tiling with
  | none => hang
  | some mapAndFenceable =>
    modifyBo o fun b => { b with mapAndFenceable := mapAndFenceable }
    let ret ← (if mapAndFenceable then pure 0 else unbindUnaligned dev o tiling)
    if ret ≠ 0 then return ret
    modifyBo o fun b => b.retiled tiling stride
    return 0

/-- The part of i915_gem_set_tiling under the mutex. -/
def setTiling (dev : FenceDev) (o : ℕ) (tiling stride : BitVec 32) : FenceM ℤ := do
  let b ← getBo o
  if tiling ≠ b.tiling ∨ stride ≠ b.stride then retile dev o tiling stride else return 0

/-! ### Use by the GPU -/

/-- i915_gem_object_move_to_active, as far as fences go. -/
def submit (o : ℕ) (fenced : Bool) : FenceM Unit :=
  modify fun w =>
    let b := { w.bo o with fencedGpuAccess := fenced, fenceBusy := fenced || (w.bo o).fenceBusy }
    let w := w.setBo o b
    match (if fenced then b.fenceReg else none) with
    | none => w
    | some r => w.touch r

end GfxDrm.Fence
