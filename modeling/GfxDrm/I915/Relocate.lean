import GfxDrm.I915.Reserve

/-! The relocations of an execbuffer call: the fast path under the mutex, and the slow path
that drops it to copy the entries in. -/

namespace GfxDrm.I915

open Errno

/-- `i915_mutex_lock_interruptible` after an interruption still ends with `mutex_lock`: the
mutex is held again, and others have used the device in between. -/
def World.relock (w : World) (others : Shared) : World :=
  { w with
    bo := others.bo
    fence := others.fence
    fenceList := others.fenceList
    ring := fun r => { others.ring r with trace := [], visible := 0 }
    nextSeqno := others.nextSeqno
    foreign := fun o => w.foreign o + (others.bo o).held - (w.bo o).held }

def relock : ExecM ℤ := do
  let e ← callOut
  modify fun w => w.relock e.others
  return e.ret

/-! ### One relocation -/

/-- The domains of the entry are no GPU domains, or it writes in several of them. -/
def RelocationEntry.badDomains (reloc : RelocationEntry) : Bool :=
  reloc.writeDomain &&& (reloc.writeDomain - 1) != 0 ||
    (reloc.writeDomain ||| reloc.readDomains) &&& ~~~gpuDomains != 0

/-- The address is no dword of an object of this size. -/
def RelocationEntry.badAddress (reloc : RelocationEntry) (size : BitVec 64) : Bool :=
  decide (size - 4 < reloc.offset) || reloc.offset &&& 3 != 0

def pageSize : ℕ := 4096

/-- The byte of the object that the code writes: `reloc_base` is an `int`, and so is the index
of the page. -/
def RelocationEntry.address (reloc : RelocationEntry) : ℤ :=
  let relocBase := (reloc.offset &&& ~~~4095).setWidth 32
  let relocOffset := reloc.offset &&& 4095
  relocBase.toInt.tdiv pageSize * pageSize + relocOffset.toNat

/-- A dword written to the pages. One in front of them is not part of the object. -/
def Bo.writeDword (b : Bo) (address : ℤ) (value : BitVec 32) : Bo :=
  if 0 ≤ address then { b with pages := Function.update b.pages address.toNat value } else b

/-- `i915_gem_object_set_to_gtt_domain` -/
def setToGttDomain (o : ObjId) (write : Bool) : ExecM ℤ := do
  let b ← getBo o
  if b.gttSpace = false then return eInval
  if b.writeDomain = domainGtt then return 0
  let ret ← waitRendering o (!write)
  if ret ≠ 0 then return ret
  modifyBo o fun b => { b with
    readDomains := if write then domainGtt else b.readDomains ||| domainGtt
    writeDomain := if write then domainGtt else if b.writeDomain = domainCpu then 0 else b.writeDomain
    dirty := b.dirty || write }
  return 0

/-- The end of `i915_gem_execbuffer_relocate_entry`, from the domain change on. A failure
returns at once and leaves the reference to the target. -/
def patchEntry (o target : ObjId) (targetOffset : BitVec 32) (reloc : RelocationEntry) :
    ExecM (ℤ × RelocationEntry) := do
  let ret ← setToGttDomain o true
  let ret ← (if ret = 0 then putFence o else pure ret)
  if ret ≠ 0 then
    modify fun w => { w with faults := w.faults ++ [.relocation target] }
    return (ret, reloc)
  modifyBo o fun b => b.writeDword reloc.address (targetOffset + reloc.delta)
  unreference target
  return (0, { reloc with presumedOffset := targetOffset.setWidth 64 })

/-- `i915_gem_execbuffer_relocate_entry`, with the entry as it leaves it. -/
def relocateEntry (o : ObjId) (reloc : RelocationEntry) : ExecM (ℤ × RelocationEntry) := do
  let e ← callOut
  match e.lookup with
  | none => return (eNoent, reloc)
  | some target =>
    reference target
    let w ← get
    let targetOffset := (w.bo target).gttOffset
    onlyIf (decide (w.dev.gen = 6) && reloc.writeDomain == domainInstruction)
      (modifyBo target fun b => { b with hasGlobalGttMapping := true })
    if reloc.badDomains then
      unreference target
      return (eInval, reloc)
    modifyBo target fun b => { b with
      pendingReadDomains := b.pendingReadDomains ||| reloc.readDomains
      pendingWriteDomain := b.pendingWriteDomain ||| reloc.writeDomain }
    if targetOffset.setWidth 64 = reloc.presumedOffset then
      unreference target
      return (0, reloc)
    if reloc.badAddress (w.bo o).size then
      unreference target
      return (eInval, reloc)
    patchEntry o target targetOffset reloc

/-! ### The fast path -/

/-- The entries of one chunk. The presumed offset goes back to user memory when the entry was
patched. -/
def relocateChunk (o : ObjId) : List RelocationEntry → ExecM ℤ
  | [] => pure 0
  | r :: rest => do
    let (ret, r') ← relocateEntry o r
    if ret ≠ 0 then return ret
    let ret ← (if r'.presumedOffset = r.presumedOffset then pure 0 else do
      let e ← callOut
      return e.ret)
    if ret ≠ 0 then return eFault
    relocateChunk o rest

/-- The entries that fit in `stack_reloc`. -/
def stackRelocs : ℕ := 512 / 32

/-- The chunks in which `remain` entries are copied. -/
def chunks (remain : ℕ) : List ℕ :=
  List.replicate (remain / stackRelocs) stackRelocs ++
    if remain % stackRelocs = 0 then [] else [remain % stackRelocs]

def relocateChunks (o : ObjId) : List ℕ → ExecM ℤ
  | [] => pure 0
  | count :: rest => do
    let e ← callOut
    if e.ret ≠ 0 then return eFault
    let ret ← relocateChunk o ((List.range count).map e.relocs)
    if ret ≠ 0 then return ret
    relocateChunks o rest

/-- `i915_gem_execbuffer_relocate_object` -/
def relocateObject (o : ObjId) : ExecM ℤ := do
  let w ← get
  relocateChunks o (chunks (w.entry o).relocationCount)

/-- The loop of `i915_gem_execbuffer_relocate`. -/
def relocateObjects : List ObjId → ExecM ℤ
  | [] => pure 0
  | o :: rest => do
    let ret ← relocateObject o
    if ret ≠ 0 then return ret
    relocateObjects rest

/-- `i915_gem_execbuffer_relocate` -/
def relocate : ExecM ℤ := do
  let w ← get
  relocateObjects w.objects

/-! ### The slow path -/

/-- The temporary arrays of `i915_gem_execbuffer_relocate_slow`. -/
inductive SlowArray where
  | reloc
  | relocOffset
  deriving DecidableEq

inductive HeapEvent where
  | alloc (array : SlowArray) (size : BitVec 64)
  | free (array : SlowArray) (size : BitVec 64)
  deriving DecidableEq

/-- `drm_calloc` -/
def drmCalloc (array : SlowArray) (size : BitVec 64) : ExecM (List HeapEvent) := do
  let e ← callOut
  return if e.ret = 0 then [.alloc array size] else []

/-- `drm_free` of what `drm_calloc` returned, which does nothing for NULL. -/
def drmFree (array : SlowArray) (allocs : List HeapEvent) (size : BitVec 64) : List HeapEvent :=
  if allocs = [] then [] else [.free array size]

/-- An `int` times a `sizeof`, as a `size_t`. -/
def arraySize (n : BitVec 32) (sizeof : BitVec 64) : BitVec 64 := n.signExtend 64 * sizeof

def sizeofRelocation : BitVec 64 := 32
def sizeofInt : BitVec 64 := 4

/-- The relocation counts of the entries listed, summed as an `int`. -/
def relocTotal (exec : ℕ → ExecObject2) (l : List ℕ) : BitVec 32 :=
  (l.map fun i => BitVec.ofNat 32 (exec i).relocationCount).sum

/-- The variables of the copy loop when it ends. -/
structure Copied where
  ret : ℤ
  total : BitVec 32
  /-- What starts at `reloc + reloc_offset[i]`. -/
  relocs : ℕ → ℕ → RelocationEntry

/-- The loop that copies the relocation arrays in. -/
def copyRelocs : List ℕ → Copied → ExecM Copied
  | [], c => pure c
  | i :: rest, c => do
    let e ← callOut
    if e.ret ≠ 0 then return { c with ret := eFault }
    let w ← get
    copyRelocs rest { c with
      total := c.total + BitVec.ofNat 32 (w.exec i).relocationCount
      relocs := Function.update c.relocs i e.relocs }

/-- The objects of the call are let go of. -/
def releaseObjects : ExecM Unit := do
  let w ← get
  w.objects.forM unreference
  modify fun w => { w with objects := [] }

/-- `list_add_tail` of an object, which cuts the list short if the object is on it already. -/
def World.addTail (w : World) (o : ObjId) : World :=
  { w with
    objects := w.objects.takeWhile (· != o) ++ [o]
    faults := w.faults ++ (w.objects.dropWhile (· != o)).map .repeated }

/-- The loop that looks the handles up again. -/
def reacquire : List ℕ → ExecM ℤ
  | [] => pure 0
  | i :: rest => do
    let e ← callOut
    match e.lookup with
    | none => return eNoent
    | some o =>
      reference o
      modify fun w => w.addTail o
      modifyBo o fun b => { b with execEntry := i }
      reacquire rest

/-- `i915_gem_execbuffer_relocate_object_slow` -/
def relocateObjectSlow (o : ObjId) : List RelocationEntry → ExecM ℤ
  | [] => pure 0
  | r :: rest => do
    let (ret, _) ← relocateEntry o r
    if ret ≠ 0 then return ret
    relocateObjectSlow o rest

/-- The loop over the objects at the end of the slow path. -/
def relocateObjectsSlow (relocs : ℕ → ℕ → RelocationEntry) : List ObjId → ExecM ℤ
  | [] => pure 0
  | o :: rest => do
    let w ← get
    let ret ← relocateObjectSlow o
      ((List.range (w.entry o).relocationCount).map (relocs (w.bo o).execEntry))
    if ret ≠ 0 then return ret
    relocateObjectsSlow relocs rest

/-- The slow path from the lock on to the label `err`. -/
def relocateAgain (noReloc : Bool) (relocs : ℕ → ℕ → RelocationEntry) (entries : List ℕ) :
    ExecM ℤ := do
  let ret ← relock
  if ret ≠ 0 then return ret
  let ret ← reacquire entries
  if ret ≠ 0 then return ret
  modify fun w => { w with needRelocs := !noReloc }
  let ret ← reserve
  if ret ≠ 0 then return ret
  let w ← get
  relocateObjectsSlow relocs w.objects

/-- The slow path once it has both arrays: `total` starts anew as the running index of the
copy loop, and the arrays are freed at the label `err`. -/
def relocateCopied (noReloc : Bool) (count : BitVec 32) (entries : List ℕ) :
    ExecM (ℤ × List HeapEvent) := do
  let c ← copyRelocs entries ⟨0, 0, fun _ _ => ⟨0, 0, 0, 0, 0, 0⟩⟩
  let ret ← (if c.ret = 0 then relocateAgain noReloc c.relocs entries else do
    discard relock
    return c.ret)
  return (ret, [.free .reloc (arraySize c.total sizeofRelocation),
    .free .relocOffset (arraySize count sizeofInt)])

/-- `i915_gem_execbuffer_relocate_slow`, with what it asks of the allocator. -/
def relocateSlow (noReloc : Bool) (count : BitVec 32) : ExecM (ℤ × List HeapEvent) := do
  releaseObjects
  let w ← get
  let entries := List.range count.toInt.toNat
  let total := relocTotal w.exec entries
  let relocOffset ← drmCalloc .relocOffset (arraySize count sizeofInt)
  let reloc ← drmCalloc .reloc (arraySize total sizeofRelocation)
  if reloc = [] ∨ relocOffset = [] then
    discard relock
    return (eNomem, relocOffset ++ reloc ++
      drmFree .reloc reloc (arraySize total sizeofRelocation) ++
      drmFree .relocOffset relocOffset (arraySize count sizeofInt))
  else
    let (ret, frees) ← relocateCopied noReloc count entries
    return (ret, relocOffset ++ reloc ++ frees)

/-! ### The check of the exec list -/

def intMax : ℕ := 2147483647

/-- The loop of `validate_exec_list`: no more entries than fit in one array. -/
def validateFrom (exec : ℕ → ExecObject2) : List ℕ → ℕ → ℤ
  | [], _ => 0
  | i :: rest, relocsTotal =>
    if intMax / 32 - relocsTotal < (exec i).relocationCount then eInval
    else validateFrom exec rest (relocsTotal + (exec i).relocationCount)

/-- `validate_exec_list` -/
def validateExecList (exec : ℕ → ExecObject2) (count : BitVec 32) : ℤ :=
  validateFrom exec (List.range count.toInt.toNat) 0

end GfxDrm.I915
