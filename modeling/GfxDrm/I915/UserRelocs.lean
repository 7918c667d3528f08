import GfxDrm.I915.Relocate
import GfxDrm.Lib.Bytes

/-! The relocations of one execbuffer call as bytes of user memory: a pass over them that
faults, the slow pass that follows it, and what both write into the objects. -/

namespace GfxDrm.I915

open Bytes Errno

def sizeofReloc : ℕ := 32

/-- The entry at an address of user memory. -/
def readReloc (m : Mem) (a : ℕ) : RelocationEntry where
  targetHandle := load m a 4
  delta := BitVec.ofNat 32 (load m (a + 4) 4)
  offset := BitVec.ofNat 64 (load m (a + 8) 8)
  presumedOffset := BitVec.ofNat 64 (load m (a + 16) 8)
  readDomains := BitVec.ofNat 32 (load m (a + 24) 4)
  writeDomain := BitVec.ofNat 32 (load m (a + 28) 4)

/-- The presumed offset goes back to the entry at `a`. -/
def writePresumed (m : Mem) (a : ℕ) (offset : BitVec 64) : Mem :=
  store m (a + 16) offset.toNat 8

def readRelocs (m : Mem) (a : ℕ) : ℕ → List RelocationEntry
  | 0 => []
  | n + 1 => readReloc m a :: readRelocs m (a + sizeofReloc) n

/-- What a call names, and what its handles stand for. `validate_exec_list` has passed the
counts, so that an `int` holds them, and no object was found twice. -/
structure RelocCall where
  count : ℕ
  object : ℕ → ObjId
  relocsPtr : ℕ → ℕ
  relocationCount : ℕ → ℕ
  lookup : ℕ → Option ObjId
  size : ObjId → BitVec 64
  distinct : ∀ i < count, ∀ j < count, object i = object j → i = j
  size_pos : ∀ i < count, 0 < (size (object i)).toNat

/-- Where the objects are during one pass, and what fails in it: the accesses to user memory, by
address, and the domain change or the fence release of an object. -/
structure RelocPass where
  gttOffset : ObjId → BitVec 32
  gttSpace : ObjId → Bool
  prepare : ObjId → ℤ
  copyIn : ℕ → Bool
  copyOut : ℕ → Bool

/-- A dword written into an object. -/
structure DwordWrite where
  object : ObjId
  address : ℤ
  value : BitVec 32
  deriving DecidableEq

structure RelocState where
  user : Mem
  log : List DwordWrite

/-- The dwords of the objects after the writes of the log. One in front of the pages is not
part of the object. -/
def contents (c : ObjId → ℕ → BitVec 32) (log : List DwordWrite) : ObjId → ℕ → BitVec 32 :=
  log.foldl (fun c w =>
    if 0 ≤ w.address then
      Function.update c w.object (Function.update (c w.object) w.address.toNat w.value)
    else c) c

namespace RelocPass

variable (p : RelocPass) (c : RelocCall)

/-- `i915_gem_object_set_to_gtt_domain` and `i915_gem_object_put_fence`. -/
def makeWritable (o : ObjId) : ℤ := if p.gttSpace o then p.prepare o else eInval

/-- `i915_gem_execbuffer_relocate_entry` -/
def relocateEntry (o : ObjId) (reloc : RelocationEntry) (log : List DwordWrite) :
    ℤ × RelocationEntry × List DwordWrite :=
  match c.lookup reloc.targetHandle with
  | none => (eNoent, reloc, log)
  | some target =>
    let targetOffset := p.gttOffset target
    if reloc.badDomains then (eInval, reloc, log)
    else if targetOffset.setWidth 64 = reloc.presumedOffset then (0, reloc, log)
    else if reloc.badAddress (c.size o) then (eInval, reloc, log)
    else if p.makeWritable o ≠ 0 then (p.makeWritable o, reloc, log)
    else (0, { reloc with presumedOffset := targetOffset.setWidth 64 },
      log ++ [⟨o, reloc.address, targetOffset + reloc.delta⟩])

/-- The entries of a chunk that was copied from `a` on. -/
def relocateChunk (o : ObjId) : ℕ → List RelocationEntry → RelocState → ℤ × RelocState
  | _, [], s => (0, s)
  | a, r :: rest, s =>
    let (ret, r', log) := p.relocateEntry c o r s.log
    if ret ≠ 0 then (ret, { s with log := log })
    else if r'.presumedOffset = r.presumedOffset then
      relocateChunk o (a + sizeofReloc) rest { s with log := log }
    else if p.copyOut a then (eFault, { s with log := log })
    else relocateChunk o (a + sizeofReloc) rest
      { user := writePresumed s.user a r'.presumedOffset, log := log }

def relocateChunks (o : ObjId) : List ℕ → ℕ → RelocState → ℤ × RelocState
  | [], _, s => (0, s)
  | count :: rest, a, s =>
    if p.copyIn a then (eFault, s)
    else
      let (ret, s) := p.relocateChunk c o a (readRelocs s.user a count) s
      if ret ≠ 0 then (ret, s) else relocateChunks o rest (a + sizeofReloc * count) s

/-- `i915_gem_execbuffer_relocate_object` -/
def relocateObject (i : ℕ) (s : RelocState) : ℤ × RelocState :=
  p.relocateChunks c (c.object i) (chunks (c.relocationCount i)) (c.relocsPtr i) s

/-- `i915_gem_execbuffer_relocate`, over the entries in the order of the object list. -/
def relocate : List ℕ → RelocState → ℤ × RelocState
  | [], s => (0, s)
  | i :: rest, s =>
    let (ret, s) := p.relocateObject c i s
    if ret ≠ 0 then (ret, s) else relocate rest s

/-- `i915_gem_execbuffer_relocate_object_slow` -/
def relocateObjectSlow (o : ObjId) : List RelocationEntry → List DwordWrite → ℤ × List DwordWrite
  | [], log => (0, log)
  | r :: rest, log =>
    let (ret, _, log) := p.relocateEntry c o r log
    if ret ≠ 0 then (ret, log) else relocateObjectSlow o rest log

/-- The loop over the objects at the end of the slow path. -/
def relocateObjectsSlow (relocs : ℕ → List RelocationEntry) :
    List ℕ → List DwordWrite → ℤ × List DwordWrite
  | [], log => (0, log)
  | i :: rest, log =>
    let (ret, log) := p.relocateObjectSlow c (c.object i) (relocs i) log
    if ret ≠ 0 then (ret, log) else relocateObjectsSlow relocs rest log

/-- What `i915_gem_execbuffer_relocate_slow` does about the relocations: all arrays are copied
in first, and user memory is left as it is. -/
def relocateSlow (order : List ℕ) (s : RelocState) : ℤ × RelocState :=
  if (List.range c.count).any fun i => p.copyIn (c.relocsPtr i) then (eFault, s)
  else
    let (ret, log) := p.relocateObjectsSlow c
      (fun i => readRelocs s.user (c.relocsPtr i) (c.relocationCount i)) order s.log
    (ret, { s with log := log })

/-! ### What one entry comes to -/

/-- The offset of the entry's target. -/
def target (r : RelocationEntry) : Option (BitVec 64) :=
  (c.lookup r.targetHandle).map fun o => (p.gttOffset o).setWidth 64

/-- The entry presumes another offset than its target has. -/
def stale (r : RelocationEntry) : Bool :=
  (p.target c r).any fun offset => offset != r.presumedOffset

/-- The entry once it has been dealt with. -/
def settled (r : RelocationEntry) : RelocationEntry :=
  { r with presumedOffset := (p.target c r).getD r.presumedOffset }

/-- The dword that a stale entry writes. -/
def patch (o : ObjId) (r : RelocationEntry) : DwordWrite :=
  ⟨o, r.address, ((p.target c r).getD 0).setWidth 32 + r.delta⟩

/-- The dwords that entries of one object write. -/
def patches (o : ObjId) (l : List RelocationEntry) : List DwordWrite :=
  (l.filter (p.stale c)).map (p.patch c o)

end RelocPass

/-- The entries of the array of object `i`. -/
def RelocCall.relocs (c : RelocCall) (m : Mem) (i : ℕ) : List RelocationEntry :=
  readRelocs m (c.relocsPtr i) (c.relocationCount i)

/-- The byte is in the array of object `i`. -/
def RelocCall.Covers (c : RelocCall) (i x : ℕ) : Prop :=
  c.relocsPtr i ≤ x ∧ x < c.relocsPtr i + sizeofReloc * c.relocationCount i

/-- No byte is in two arrays. -/
def RelocCall.Apart (c : RelocCall) : Prop :=
  ∀ i < c.count, ∀ j < c.count, i ≠ j → ∀ x, c.Covers i x → ¬ c.Covers j x

/-- The list names every object of the call once. -/
def RelocCall.Lists (c : RelocCall) (order : List ℕ) : Prop := order.Perm (List.range c.count)

end GfxDrm.I915
