import GfxDrm.Errno
import GfxDrm.Lib.Copy
import GfxDrm.Lib.Run
import Mathlib.Data.UInt

/-! The DMA buffers of a device (drm_bufs.c). The lists of an order's buffers and of all buffers
are rebuilt under `struct_mutex`, so a call is one step. -/

namespace GfxDrm.Bufs
open Run

/-- drm_buf, of which the rest is zeroed. -/
structure DrmBuf where
  idx : ℕ
  total : ℕ
  order : ℕ
  offset : UInt64
  busAddress : UInt64
  address : UInt64
  devPrivSize : ℕ
  deriving DecidableEq, Repr

/-- drm_buf_entry; `buf_count` is the length of its list. -/
structure DrmBufEntry where
  bufSize : ℕ := 0
  pageOrder : ℕ := 0
  buflist : List DrmBuf := []
  deriving DecidableEq, Repr

/-- What an entry of `dma->buflist` points to: a buffer of an order, or something else. -/
inductive BufPtr where
  | buf (order k : ℕ)
  | other (address : ℕ)
  deriving DecidableEq, Repr

inductive DmaFlags where
  | unset
  | useAgp
  | useSg
  deriving DecidableEq, Repr

/-- drm_device_dma; its `seg_count` stays 0. -/
structure DrmDeviceDma where
  bufs : ℕ → DrmBufEntry := fun _ => {}
  bufCount : ℕ := 0
  buflist : ℕ → BufPtr := fun _ => .other 0
  pageCount : Int32 := 0
  byteCount : UInt64 := 0
  flags : DmaFlags := .unset

/-- Memory from an address on, which ends before the address space does. -/
structure Region where
  base : UInt64
  size : ℕ
  fits : base.toNat + size < 2 ^ 64

/-- drm_sg_mem; `pages` is an int. -/
structure DrmSgMem where
  handle : UInt64
  pages : ℕ
  pages_lt : pages < 2 ^ 31

structure BufState where
  driverHaveDma : Bool := true
  driverSg : Bool := true
  /-- `dev->dma` is set. -/
  hasDma : Bool := true
  dma : DrmDeviceDma := {}
  bufUse : ℕ := 0
  /-- `dev->agp`: the aperture. -/
  agp : Option Region := none
  sg : Option DrmSgMem := none
  bufPrivSize : ℕ := 1

/-- drm_buf_desc, without the marks. -/
structure DrmBufDesc where
  count : ℤ
  size : Int32
  flags : UInt32
  agpStart : UInt64
  deriving DecidableEq

def drmPageAlign : UInt32 := 0x01
def drmAgpBuffer : UInt32 := 0x02
def drmSgBuffer : UInt32 := 0x04
def drmMinOrder : ℕ := 5
def drmMaxOrder : ℕ := 22
def pageShift : ℕ := 12
def pageSize : ℕ := 4096

/-- Whether the caller is privileged, and what memory there is: for the buffers of the order, for
the `k`-th buffer's private data, and for the new list, with what that holds before it is
written. -/
structure AddbufsOutcome where
  suser : Bool := true
  buflist : Bool := true
  devPrivate : ℕ → Bool := fun _ => true
  tempBuflist : Bool := true
  junk : ℕ → BufPtr := BufPtr.other

/-- Whether kmalloc returns memory; it has none of no size. -/
def kmalloc (size : ℕ) (memory : Bool) : Bool := size ≠ 0 && memory

/-- The loop counts how often the size can be halved. -/
def drmOrder (size : UInt64) : ℕ :=
  Nat.log2 size.toNat + if size &&& (size - 1) ≠ 0 then 1 else 0

def roundPage (x : ℕ) : ℕ := (x + (pageSize - 1)) / pageSize * pageSize

namespace DrmBufDesc
variable (r : DrmBufDesc)

def order : ℕ := drmOrder r.size.toInt64.toUInt64

def bufSize : ℕ := 2 ^ r.order

def alignment : ℕ := if r.flags &&& drmPageAlign ≠ 0 then roundPage r.bufSize else r.bufSize

/-- `order - PAGE_SHIFT > 0 ? order - PAGE_SHIFT : 0`. -/
def pageOrder : ℕ := r.order - pageShift

def total : Int32 := Int32.ofNat (pageSize * 2 ^ r.pageOrder)

end DrmBufDesc

/-! ### The buffers of a request -/

/-- The entry's list, `offset` and `byte_count` in the loop. -/
structure Filling where
  buflist : List DrmBuf := []
  offset : UInt64 := 0
  byteCount : Int32 := 0

/-- The buffer the loop makes at `entry->buf_count` = `k` and `offset`. -/
def BufState.mkBuf (s : BufState) (r : DrmBufDesc) (agpOffset handle : UInt64) (k : ℕ)
    (offset : UInt64) : DrmBuf where
  idx := s.dma.bufCount + k
  total := r.alignment
  order := r.order
  offset := s.dma.byteCount + offset
  busAddress := agpOffset + offset
  address := agpOffset + offset + handle
  devPrivSize := s.bufPrivSize

/-- `while (entry->buf_count < count)`, with so many buffers to go. -/
def BufState.fill (s : BufState) (r : DrmBufDesc) (o : AddbufsOutcome) (agpOffset handle : UInt64) :
    ℕ → Filling → Option Filling
  | 0, f => some f
  | n + 1, f =>
    if kmalloc s.bufPrivSize (o.devPrivate f.buflist.length) then
      s.fill r o agpOffset handle n
        { buflist := f.buflist ++ [s.mkBuf r agpOffset handle f.buflist.length f.offset]
          offset := f.offset + UInt64.ofNat r.alignment
          byteCount := f.byteCount + r.total }
    else none

/-! ### The list of all buffers -/

/-- bcopy: from `src` to `dst`, in this order. -/
def bcopy (src dst : ℕ → BufPtr) (n : ℕ) : ℕ → BufPtr := Copy.run (Copy.block 0 0 n) src dst

/-- drm_realloc of a list of `n` entries. -/
def drmRealloc (old : ℕ → BufPtr) (n n' : ℕ) : ℕ → BufPtr :=
  let pt := fun _ => .other 0
  if n ≠ 0 then bcopy old pt (min n n') else pt

/-- `temp_buflist` and `dma->buflist` after the bcopy of drm_addbufs_agp. -/
def agpCopied (temp old : ℕ → BufPtr) (n : ℕ) : (ℕ → BufPtr) × (ℕ → BufPtr) :=
  (temp, bcopy temp old n)

/-- What drm_addbufs_agp and drm_addbufs_sg do each in its own way: where the buffers begin on the
bus, what is added to that for the address, if it can be read, how the list grows from `n` to `n'`
entries, and what is noted. -/
structure AddbufsKind where
  agpOffset : UInt64
  handle : Option UInt64
  grow : (junk old : ℕ → BufPtr) → (n n' : ℕ) → ℕ → BufPtr
  countsPages : Bool
  flags : DmaFlags

/-- The entry of an order is set. -/
def BufState.setEntry (s : BufState) (r : DrmBufDesc) (buflist : List DrmBuf) : BufState :=
  let entry : DrmBufEntry := { bufSize := r.bufSize, pageOrder := r.pageOrder, buflist }
  { s with dma := { s.dma with bufs := Function.update s.dma.bufs r.order entry } }

/-- The end of an addbufs function. -/
def BufState.addEntry (s : BufState) (kind : AddbufsKind) (r : DrmBufDesc) (o : AddbufsOutcome)
    (f : Filling) : BufState :=
  let n := s.dma.bufCount
  let n' := n + f.buflist.length
  let list := kind.grow o.junk s.dma.buflist n n'
  let t := s.setEntry r f.buflist
  { t with
    dma := { t.dma with
      bufCount := n'
      buflist := fun i => if n ≤ i ∧ i < n' then .buf r.order (i - n) else list i
      pageCount :=
        if kind.countsPages then s.dma.pageCount + (f.byteCount >>> (12 : Int32))
        else s.dma.pageCount
      byteCount := s.dma.byteCount + f.byteCount.toInt64.toUInt64
      flags := kind.flags } }

/-- What drm_addbufs_agp and drm_addbufs_sg have in common; none stands for reading through a
NULL. -/
def BufState.addbufs (s : BufState) (kind : AddbufsKind) (r : DrmBufDesc) (o : AddbufsOutcome) :
    Option (ℤ × DrmBufDesc × BufState) :=
  if r.order < drmMinOrder ∨ r.order > drmMaxOrder then some (Errno.eInval, r, s)
  else if s.bufUse ≠ 0 then some (Errno.eBusy, r, s)
  else if (s.dma.bufs r.order).buflist.length ≠ 0 then some (Errno.eNomem, r, s)
  else if r.count < 0 ∨ r.count > 4096 then some (Errno.eInval, r, s)
  else if !kmalloc r.count.toNat o.buflist then some (Errno.eNomem, r, s)
  else
    kind.handle.map fun handle =>
      match s.fill r o kind.agpOffset handle r.count.toNat {} with
      | none => (Errno.eNomem, r, s.setEntry r [])
      | some f =>
        if !kmalloc (s.dma.bufCount + f.buflist.length) o.tempBuflist then
          (Errno.eNomem, r, s.setEntry r [])
        else
          (0, { r with count := f.buflist.length, size := Int32.ofNat r.bufSize },
            s.addEntry kind r o f)

/-! ### The calls -/

def agpKind (agp : Region) (r : DrmBufDesc) : AddbufsKind where
  agpOffset := agp.base + r.agpStart
  handle := some 0
  grow junk old n _ := (agpCopied junk old n).1
  countsPages := true
  flags := .useAgp

def sgKind (sg : Option DrmSgMem) (r : DrmBufDesc) : AddbufsKind where
  agpOffset := r.agpStart
  handle := sg.map fun sg => sg.handle
  grow _ old n n' := drmRealloc old n n'
  countsPages := false
  flags := .useSg

/-- drm_addbufs_agp. -/
def BufState.drmAddbufsAgp (s : BufState) (r : DrmBufDesc) (o : AddbufsOutcome) :
    Option (ℤ × DrmBufDesc × BufState) :=
  if !s.hasDma then some (Errno.eInval, r, s)
  else
    match s.agp with
    | none => none
    | some agp => s.addbufs (agpKind agp r) r o

/-- drm_addbufs_sg. -/
def BufState.drmAddbufsSg (s : BufState) (r : DrmBufDesc) (o : AddbufsOutcome) :
    Option (ℤ × DrmBufDesc × BufState) :=
  if !s.driverSg then some (Errno.eInval, r, s)
  else if !s.hasDma then some (Errno.eInval, r, s)
  else if !o.suser then some (Errno.ePerm, r, s)
  else s.addbufs (sgKind s.sg r) r o

/-- drm_addbufs. -/
def BufState.drmAddbufs (s : BufState) (r : DrmBufDesc) (o : AddbufsOutcome) :
    Option (ℤ × DrmBufDesc × BufState) :=
  if !s.driverHaveDma then some (Errno.eInval, r, s)
  else if r.flags &&& drmAgpBuffer ≠ 0 then s.drmAddbufsAgp r o
  else if r.flags &&& drmSgBuffer ≠ 0 then s.drmAddbufsSg r o
  else some (Errno.eInval, r, s)

/-- What drm_infobufs changes. -/
def BufState.drmInfobufs (s : BufState) : BufState := { s with bufUse := s.bufUse + 1 }

/-! ### Runs -/

inductive BufAction where
  | addbufs (r : DrmBufDesc) (o : AddbufsOutcome)
  | infobufs

def BufState.step (s : BufState) : BufAction → Option BufState
  | .addbufs r o => (s.drmAddbufs r o).map fun result => result.2.2
  | .infobufs => some s.drmInfobufs

/-- A device whose drm_dma_setup has just run. -/
def BufState.Fresh (s : BufState) : Prop := s.dma = {} ∧ s.bufUse = 0

def bufSystem : System BufState BufAction := .ofStep BufState.Fresh BufState.step

/-! The buffers of one request: where they lie. -/

variable {s : BufState} {r : DrmBufDesc} {o : AddbufsOutcome} {agpOffset handle : UInt64}

/-- The offset of the `k`-th buffer. -/
def DrmBufDesc.offset (r : DrmBufDesc) (k : ℕ) : UInt64 := UInt64.ofNat (k * r.alignment)

theorem DrmBufDesc.offset_zero : r.offset 0 = 0 := by
  rw [offset, Nat.zero_mul]
  rfl

theorem DrmBufDesc.offset_succ (k : ℕ) :
    r.offset k + UInt64.ofNat r.alignment = r.offset (k + 1) := by
  rw [offset, offset, Nat.succ_mul, UInt64.ofNat_add]

/-- The buffers of the request in their order. -/
def BufState.requested (s : BufState) (r : DrmBufDesc) (agpOffset handle : UInt64) (n : ℕ) :
    List DrmBuf :=
  (List.range n).map fun k => s.mkBuf r agpOffset handle k (r.offset k)

theorem BufState.requested_succ (n : ℕ) :
    s.requested r agpOffset handle (n + 1) =
      s.requested r agpOffset handle n ++ [s.mkBuf r agpOffset handle n (r.offset n)] := by
  simp only [requested, List.range_succ, List.map_append, List.map_cons, List.map_nil]

@[simp] theorem BufState.length_requested (n : ℕ) :
    (s.requested r agpOffset handle n).length = n := by
  rw [requested, List.length_map, List.length_range]

/-- The loop with `n` buffers to go, `m` of which there are. -/
theorem BufState.fill_buflist {n m : ℕ} {f g : Filling}
    (hlist : f.buflist = s.requested r agpOffset handle m) (hoffset : f.offset = r.offset m)
    (h : s.fill r o agpOffset handle n f = some g) :
    g.buflist = s.requested r agpOffset handle (m + n) := by
  induction n generalizing m f with
  | zero =>
    cases h
    exact hlist
  | succ n ih =>
    unfold fill at h
    split at h
    · have hlen : f.buflist.length = m := by rw [hlist, length_requested]
      have hlist' : f.buflist ++ [s.mkBuf r agpOffset handle f.buflist.length f.offset] =
          s.requested r agpOffset handle (m + 1) := by
        rw [requested_succ, hlen, hlist, hoffset]
      have hoffset' : f.offset + UInt64.ofNat r.alignment = r.offset (m + 1) := by
        rw [hoffset, r.offset_succ]
      rw [ih hlist' hoffset' h, Nat.add_right_comm]
      rfl
    · cases h

/-! ### Where they lie -/

theorem DrmBufDesc.alignment_le (h : r.order ≤ drmMaxOrder) : r.alignment ≤ 2 ^ 23 := by
  have hsize : r.bufSize ≤ 2 ^ drmMaxOrder := Nat.pow_le_pow_right (by decide) h
  unfold drmMaxOrder at hsize
  unfold alignment roundPage pageSize
  split <;> omega

/-- Two buffers take no byte of the bus twice. -/
def DrmBuf.Apart (a b : DrmBuf) : Prop :=
  a.busAddress.toNat + a.total ≤ b.busAddress.toNat ∨
    b.busAddress.toNat + b.total ≤ a.busAddress.toNat

theorem busAddress_toNat (k : ℕ) :
    (agpOffset + r.offset k).toNat = (agpOffset.toNat + k * r.alignment) % 2 ^ 64 := by
  rw [UInt64.toNat_add, DrmBufDesc.offset, UInt64.toNat_ofNat', Nat.add_mod_mod]

/-- Even where the addresses wrap. -/
theorem mkBuf_apart {j k n : ℕ} (horder : r.order ≤ drmMaxOrder) (hn : n ≤ 4096) (hjk : j < k)
    (hk : k < n) :
    (s.mkBuf r agpOffset handle j (r.offset j)).Apart
      (s.mkBuf r agpOffset handle k (r.offset k)) := by
  have hle := DrmBufDesc.alignment_le horder
  have hspan : (k - j) * r.alignment ≤ 4095 * 2 ^ 23 := Nat.mul_le_mul (by omega) hle
  have hfirst : 1 * r.alignment ≤ (k - j) * r.alignment :=
    Nat.mul_le_mul_right _ (by omega)
  have hsplit : k * r.alignment = j * r.alignment + (k - j) * r.alignment := by
    rw [← Nat.add_mul, Nat.add_sub_of_le hjk.le]
  unfold DrmBuf.Apart BufState.mkBuf
  dsimp only
  rw [busAddress_toNat, busAddress_toNat]
  omega

theorem requested_apart {n : ℕ} (horder : r.order ≤ drmMaxOrder) (hn : n ≤ 4096) :
    (s.requested r agpOffset handle n).Pairwise DrmBuf.Apart := by
  rw [BufState.requested, List.pairwise_map]
  refine List.pairwise_lt_range.imp_of_mem fun _ hk hjk => ?_
  exact mkBuf_apart horder hn hjk (List.mem_range.mp hk)

/-- The buffer lies in the region. -/
def Region.Contains (region : Region) (b : DrmBuf) : Prop :=
  region.base.toNat ≤ b.busAddress.toNat ∧
    b.busAddress.toNat + b.total ≤ region.base.toNat + region.size

theorem contains_mkBuf {region : Region} {start : UInt64} {k : ℕ} :
    region.Contains (s.mkBuf r (region.base + start) handle k (r.offset k)) ↔
      region.base.toNat ≤ (region.base.toNat + start.toNat + k * r.alignment) % 2 ^ 64 ∧
        (region.base.toNat + start.toNat + k * r.alignment) % 2 ^ 64 + r.alignment ≤
          region.base.toNat + region.size := by
  unfold Region.Contains BufState.mkBuf
  rw [busAddress_toNat, UInt64.toNat_add, Nat.mod_add_mod]

/-- A buffer in the region leaves no way to wrap to the next one. -/
theorem room_of_inside {region : Region} {start : UInt64} {n k : ℕ} (hk : k < n)
    (h : ∀ b ∈ s.requested r (region.base + start) handle n, region.Contains b) :
    start.toNat + (k + 1) * r.alignment ≤ region.size := by
  have hcontains : ∀ k < n, _ := fun k hk =>
    contains_mkBuf.mp (h _ (List.mem_map.mpr ⟨k, List.mem_range.mpr hk, rfl⟩))
  have hfits := region.fits
  have hstart := start.toNat_lt
  induction k with
  | zero =>
    have hzero := hcontains 0 hk
    omega
  | succ k ih =>
    have hnext := hcontains (k + 1) hk
    rw [Nat.succ_mul (k + 1)]
    omega

/-- All of `n` buffers lie in the region if and only if there is room for them from the start
on. -/
theorem requested_inside_iff {region : Region} {start : UInt64} {n : ℕ} (hn : 0 < n) :
    (∀ b ∈ s.requested r (region.base + start) handle n, region.Contains b) ↔
      start.toNat + n * r.alignment ≤ region.size := by
  constructor
  · intro h
    have hlast := room_of_inside (k := n - 1) (by omega) h
    rwa [Nat.sub_add_cancel hn] at hlast
  · intro h b hb
    obtain ⟨k, hk, rfl⟩ := List.mem_map.mp hb
    have hk' : (k + 1) * r.alignment ≤ n * r.alignment :=
      Nat.mul_le_mul_right _ (List.mem_range.mp hk)
    have hfits := region.fits
    rw [contains_mkBuf]
    rw [Nat.succ_mul] at hk'
    omega

end GfxDrm.Bufs
