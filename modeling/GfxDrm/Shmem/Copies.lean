import GfxDrm.Errno
import GfxDrm.Lib.Copy
import GfxDrm.Lib.Word
import Mathlib.Data.List.TakeWhile
import Mathlib.Data.Nat.Bitwise

/-! Reading and writing an object's pages from user space (i915_gem.c). -/

namespace GfxDrm.Shmem
open Copy

/-- DRM_PAGE_SIZE. -/
def pageSize : ℕ := 4096

inductive TilingMode where
  | none
  | x
  | y
  deriving DecidableEq, Repr

/-- I915_BIT_6_SWIZZLE_*. -/
inductive Bit6Swizzle where
  | none
  | bit9
  | bit9_10
  | bit9_11
  | bit9_10_11
  | unknown
  | bit9_17
  | bit9_10_17
  deriving DecidableEq, Repr

structure GemObject where
  size : ℕ
  tilingMode : TilingMode := .none
  cpuReadDomain : Bool := true
  cpuWriteDomain : Bool := true
  gttSpace : Bool := false
  /-- `page_list != NULL`. -/
  pageList : Bool := false
  /-- The bits of `bit_17`, if they have been saved. -/
  bit17 : Option (ℕ → Bool) := Option.none
  /-- The physical address of each page. -/
  phys : ℕ → ℕ

/-- drm_i915_gem_pread and drm_i915_gem_pwrite. -/
structure TransferArgs where
  offset : ℕ
  size : ℕ
  dataPtr : ℕ
  deriving DecidableEq, Repr

/-- The object's bytes from `kaddr` on and the user's by address, with the moves made so far,
each as (object byte, user byte). -/
structure Memory where
  obj : ℕ → UInt8
  user : ℕ → UInt8
  moved : Moves := []

/-- The user addresses ddi_copyin and ddi_copyout can reach. -/
structure UserSpace where
  mapped : ℕ → Bool
  below : ∀ a, mapped a = true → a < 2 ^ 64

/-- i915_gem_object_needs_bit17_swizzle. -/
def needsBit17Swizzle (bit6SwizzleX : Bit6Swizzle) (o : GemObject) : Bool :=
  bit6SwizzleX = .bit9_10_17 && o.tilingMode ≠ .none

/-- `page_to_phys` reads the first word of the page. -/
def pageToPhys (obj : ℕ → UInt8) (page : ℕ) : ℕ :=
  let gpuPage := page * pageSize
  (obj gpuPage).toNat + 2 ^ 8 * (obj (gpuPage + 1)).toNat + 2 ^ 16 * (obj (gpuPage + 2)).toNat +
    2 ^ 24 * (obj (gpuPage + 3)).toNat

/-- `addr & (1 << 17)`. -/
def bit17 (addr : ℕ) : Bool := addr.testBit 17

/-! ### The page list -/

/-- i915_gem_object_do_bit_17_swizzle, whose rounds each touch their own page only;
i915_gem_swizzle_page swaps its lines in pairs. -/
def doBit17Swizzle (o : GemObject) (obj : ℕ → UInt8) : ℕ → UInt8 :=
  match o.bit17 with
  | Option.none => obj
  | some saved => fun a =>
    let i := a / pageSize
    if i < o.size / pageSize ∧ bit17 (pageToPhys obj i) ≠ saved i then obj (a ^^^ 64) else obj a

/-- i915_gem_object_get_pages; `alloc` tells whether there is memory for the list. -/
def getPages (bit6SwizzleX : Bit6Swizzle) (o : GemObject) (alloc : Bool) (m : Memory) :
    ℤ × Memory :=
  if o.pageList then (0, m)
  else if !alloc then (Errno.eNomem, m)
  else if needsBit17Swizzle bit6SwizzleX o then (0, { m with obj := doBit17Swizzle o m.obj })
  else (0, m)

/-! ### The copies -/

/-- The moves of a copy of `length` bytes: it stops where the user memory ends. -/
def UserSpace.copy (u : UserSpace) (gpu cpu length : ℕ) : Moves :=
  (block gpu cpu length).takeWhile fun p => u.mapped p.2

/-- DRM_COPY_TO_USER of object bytes and DRM_COPY_FROM_USER into them. -/
def drmCopy (isRead : Bool) (u : UserSpace) (gpu cpu length : ℕ) (m : Memory) : ℤ × Memory :=
  let moves := u.copy gpu cpu length
  (if moves.length = length then 0 else -1,
    if isRead then { m with user := run moves m.obj m.user, moved := m.moved ++ moves }
    else
      { m with
        obj := run (moves.map Prod.swap) m.user m.obj
        moved := m.moved ++ moves })

/-- `p + i` for a `uint32_t *`. -/
def wordPtr (p : ℕ) (i : ℤ) : ℕ := ((p + 4 * i) % 2 ^ 64).toNat

/-- The lines of a page with bit 17 set; the copies' results are only logged. -/
def bit17Lines (isRead : Bool) (u : UserSpace) (gpuPage gpuOffset cpuPage cpuOffset length : ℕ)
    (m : Memory) : Memory :=
  if _h : 0 < length then
    let cachelineEnd := (gpuOffset + 1 + 63) / 64 * 64
    let thisLength := min (cachelineEnd - gpuOffset) length
    let swizzledGpuOffset := gpuOffset ^^^ 64
    bit17Lines isRead u gpuPage (gpuOffset + thisLength) cpuPage (cpuOffset + thisLength)
      (length - thisLength)
      (drmCopy isRead u (gpuPage + swizzledGpuOffset) (wordPtr cpuPage cpuOffset) thisLength m).2
  else m
termination_by length
decreasing_by omega

/-- slow_shmem_bit17_copy. -/
def slowShmemBit17Copy (isRead : Bool) (u : UserSpace)
    (page gpuOffset cpuPage cpuOffset length : ℕ) (m : Memory) : Memory :=
  let gpuPage := page * pageSize
  if !bit17 (pageToPhys m.obj page) then
    (drmCopy isRead u (gpuPage + gpuOffset) (wordPtr cpuPage cpuOffset) length m).2
  else bit17Lines isRead u gpuPage gpuOffset cpuPage cpuOffset length m

/-- The loop over the parts that lie in one object page and in one user page. -/
def bit17Loop (isRead : Bool) (u : UserSpace) (userData firstDataPage remain dataPtr offset : ℕ)
    (m : Memory) : Memory :=
  if _h : 0 < remain then
    let shmemPageIndex := offset / pageSize
    let shmemPageOffset := offset % pageSize
    let dataPageIndex := Word.signed 32 (Word.sub 64 (dataPtr / pageSize) firstDataPage)
    let dataPageOffset := dataPtr % pageSize
    let pageLength := remain
    let pageLength :=
      if pageSize < shmemPageOffset + pageLength then pageSize - shmemPageOffset else pageLength
    let pageLength :=
      if pageSize < dataPageOffset + pageLength then pageSize - dataPageOffset else pageLength
    let cpuPage := wordPtr userData (Word.signedMul 32 dataPageIndex pageSize)
    bit17Loop isRead u userData firstDataPage (remain - pageLength)
      (Word.add 64 dataPtr pageLength) (Word.add 32 offset pageLength)
      (slowShmemBit17Copy isRead u shmemPageIndex shmemPageOffset cpuPage dataPageOffset pageLength m)
  else m
termination_by remain
decreasing_by
  have hoff : offset % pageSize < pageSize := Nat.mod_lt _ (by decide)
  have hptr : dataPtr % pageSize < pageSize := Nat.mod_lt _ (by decide)
  simp only [dite_eq_ite]
  split <;> split <;> omega

/-- What i915_gem_object_set_to_gtt_domain returns, and whether the list can be allocated. -/
structure TransferOutcome where
  setToGttDomain : ℤ := 0
  alloc : Bool := true

/-- The body the two functions share. -/
def shmemTransfer (isRead : Bool) (bit6SwizzleX : Bit6Swizzle) (u : UserSpace) (o : GemObject)
    (args : TransferArgs) (inCpuDomain : Bool) (out : TransferOutcome) (m : Memory) :
    ℤ × Memory :=
  if !inCpuDomain ∧ o.gttSpace ∧ out.setToGttDomain ≠ 0 then (out.setToGttDomain, m)
  else
    let r := getPages bit6SwizzleX o out.alloc m
    if r.1 ≠ 0 then r
    else if needsBit17Swizzle bit6SwizzleX o then
      (0, bit17Loop isRead u args.dataPtr (args.dataPtr / pageSize)
        (Word.signed 64 args.size).toNat args.dataPtr (args.offset % 2 ^ 32) r.2)
    else drmCopy isRead u args.offset args.dataPtr args.size r.2

/-- i915_gem_shmem_pread. -/
def i915GemShmemPread (bit6SwizzleX : Bit6Swizzle) (u : UserSpace) (o : GemObject)
    (args : TransferArgs) (out : TransferOutcome) (m : Memory) : ℤ × Memory :=
  shmemTransfer true bit6SwizzleX u o args o.cpuReadDomain out m

/-- i915_gem_shmem_pwrite. -/
def i915GemShmemPwrite (bit6SwizzleX : Bit6Swizzle) (u : UserSpace) (o : GemObject)
    (args : TransferArgs) (out : TransferOutcome) (m : Memory) : ℤ × Memory :=
  shmemTransfer false bit6SwizzleX u o args o.cpuWriteDomain out m

/-! ### The requests -/

/-- What i915_gem_pread_ioctl and i915_gem_pwrite_ioctl check before they look at the pages. -/
def checkTransfer (lock : ℤ) (o : Option GemObject) (args : TransferArgs) : Except ℤ GemObject :=
  if args.size = 0 then .error 0
  else if lock ≠ 0 then .error lock
  else
    match o with
    | Option.none => .error Errno.eNoent
    | some o =>
      if o.size < args.offset ∨ o.size - args.offset < args.size then .error Errno.eInval
      else .ok o

/-- i915_gem_pread_ioctl. -/
def i915GemPreadIoctl (bit6SwizzleX : Bit6Swizzle) (u : UserSpace) (lock : ℤ)
    (o : Option GemObject) (args : TransferArgs) (out : TransferOutcome) (m : Memory) :
    ℤ × Memory :=
  match checkTransfer lock o args with
  | .error ret => (ret, m)
  | .ok o => i915GemShmemPread bit6SwizzleX u o args out m

/-! What the loops move: the trace, its length, and its first bytes. -/

variable {isRead : Bool} {u : UserSpace} {m : Memory} {gpu cpu n : ℕ}

/-- Bit 6 flips within a pair of lines. -/
theorem xor_64 (a : ℕ) : a ^^^ 64 = if a % 128 < 64 then a + 64 else a - 64 := by
  have hdiv : (a ^^^ 64) / 2 ^ 6 = a / 2 ^ 6 ^^^ 1 := Nat.xor_div_two_pow
  have hmod : (a ^^^ 64) % 2 ^ 6 = a % 2 ^ 6 := by
    rw [Nat.xor_mod_two_pow]
    exact Nat.xor_zero _
  have hhalf : (a / 2 ^ 6 ^^^ 1) / 2 = a / 2 ^ 6 / 2 := by
    rw [Nat.xor_div_two]
    exact Nat.xor_zero _
  have hodd : (a / 2 ^ 6 ^^^ 1) % 2 = (a / 2 ^ 6 + 1) % 2 := Nat.xor_mod_two_eq
  split <;> omega

/-- The two halves of a block of 128 change places. -/
theorem xor_64_block (a : ℕ) : (a ^^^ 64) / 128 = a / 128 ∧ (a ^^^ 64) % 64 = a % 64 := by
  rw [xor_64]
  split <;> omega

theorem xor_64_add {a i : ℕ} (h : a % 64 + i < 64) : (a + i) ^^^ 64 = (a ^^^ 64) + i := by
  rw [xor_64, xor_64]
  split <;> split <;> omega

theorem xor_64_page (a : ℕ) : a / pageSize * pageSize + (a % pageSize ^^^ 64) = a ^^^ 64 := by
  rw [xor_64, xor_64, pageSize]
  split <;> split <;> omega

/-! ### One copy -/

theorem length_copy_le (u : UserSpace) (gpu cpu n : ℕ) : (u.copy gpu cpu n).length ≤ n := by
  have h := (List.takeWhile_prefix (fun p : ℕ × ℕ => u.mapped p.2) (l := block gpu cpu n)).length_le
  rwa [length_block] at h

theorem copy_of_length (h : (u.copy gpu cpu n).length = n) : u.copy gpu cpu n = block gpu cpu n :=
  (List.takeWhile_prefix _).eq_of_length (h.trans (length_block ..).symm)

theorem copy_of_mapped (h : ∀ i < n, u.mapped (cpu + i) = true) :
    u.copy gpu cpu n = block gpu cpu n := by
  refine List.takeWhile_eq_self_iff.mpr fun p hp => ?_
  obtain ⟨i, hi, rfl⟩ := mem_block.mp hp
  exact h i hi

theorem drmCopy_moved (isRead : Bool) (u : UserSpace) (gpu cpu n : ℕ) (m : Memory) :
    (drmCopy isRead u gpu cpu n m).2.moved = m.moved ++ u.copy gpu cpu n := by
  unfold drmCopy
  split <;> rfl

/-- The at most `n` moves the trace has gained since `m` are what has happened to the memories. -/
def Memory.Follows (isRead : Bool) (n : ℕ) (m m' : Memory) : Prop :=
  ∃ moves, m'.moved = m.moved ++ moves ∧ moves.length ≤ n ∧
    if isRead then m'.user = run moves m.obj m.user ∧ m'.obj = m.obj
    else m'.obj = run (moves.map Prod.swap) m.user m.obj ∧ m'.user = m.user

theorem Memory.Follows.refl (isRead : Bool) (n : ℕ) (m : Memory) : m.Follows isRead n m := by
  refine ⟨[], (List.append_nil _).symm, Nat.zero_le _, ?_⟩
  split <;> exact ⟨rfl, rfl⟩

theorem Memory.Follows.trans {m₁ m₂ m₃ : Memory} {k : ℕ} (h : m₁.Follows isRead k m₂)
    (h' : m₂.Follows isRead n m₃) : m₁.Follows isRead (k + n) m₃ := by
  obtain ⟨l, hl, hlen, hmem⟩ := h
  obtain ⟨l', hl', hlen', hmem'⟩ := h'
  refine ⟨l ++ l', by rw [hl', hl, List.append_assoc], ?_, ?_⟩
  · rw [List.length_append]
    exact Nat.add_le_add hlen hlen'
  cases isRead with
  | true =>
    rw [run_append, hmem'.1, hmem'.2, hmem.1, hmem.2]
    exact ⟨rfl, rfl⟩
  | false =>
    simp only [Bool.false_eq_true, if_false] at hmem hmem' ⊢
    rw [List.map_append, run_append, hmem'.1, hmem'.2, hmem.1, hmem.2]
    exact ⟨rfl, rfl⟩

theorem Memory.Follows.mono {m' : Memory} {k : ℕ} (h : m.Follows isRead n m') (hle : n ≤ k) :
    m.Follows isRead k m' := by
  obtain ⟨l, hl, hlen, hmem⟩ := h
  exact ⟨l, hl, hlen.trans hle, hmem⟩

theorem Memory.Follows.length_le {m' : Memory} (h : m.Follows isRead n m') :
    m'.moved.length ≤ m.moved.length + n := by
  obtain ⟨l, hl, hlen, -⟩ := h
  rw [hl, List.length_append]
  omega

theorem Memory.Follows.mem {m' : Memory} (h : m.Follows isRead n m') {p : ℕ × ℕ}
    (hp : p ∈ m.moved) : p ∈ m'.moved := by
  obtain ⟨l, hl, -⟩ := h
  rw [hl]
  exact List.mem_append_left _ hp

theorem follows_drmCopy (isRead : Bool) (u : UserSpace) (gpu cpu n : ℕ) (m : Memory) :
    m.Follows isRead n (drmCopy isRead u gpu cpu n m).2 := by
  refine ⟨u.copy gpu cpu n, drmCopy_moved .., length_copy_le .., ?_⟩
  cases isRead <;> exact ⟨rfl, rfl⟩

/-! ### Lines -/

theorem follows_bit17Lines (gpuPage gpuOffset cpuPage cpuOffset length : ℕ) (m : Memory) :
    m.Follows isRead length
      (bit17Lines isRead u gpuPage gpuOffset cpuPage cpuOffset length m) := by
  fun_induction bit17Lines with
  | case1 gpuOffset cpuOffset length m hpos cachelineEnd thisLength swizzled ih =>
    exact ((follows_drmCopy ..).trans ih).mono (by omega)
  | case2 => exact .refl ..

variable {gpuPage gpuOffset cpuPage cpuOffset length : ℕ}

/-- The rest of a line, or of the transfer within it, is one copy. -/
theorem bit17Lines_within (hpos : 0 < length) (hline : gpuOffset % 64 + length ≤ 64) :
    bit17Lines isRead u gpuPage gpuOffset cpuPage cpuOffset length m =
      (drmCopy isRead u (gpuPage + (gpuOffset ^^^ 64)) (wordPtr cpuPage cpuOffset) length m).2 := by
  have hlen : min ((gpuOffset + 1 + 63) / 64 * 64 - gpuOffset) length = length := by omega
  rw [bit17Lines, dif_pos hpos]
  simp only [hlen, Nat.sub_self]
  rw [bit17Lines, dif_neg (Nat.lt_irrefl 0)]

/-- Otherwise the line is copied and the loop goes on with the next. -/
theorem bit17Lines_next (hline : 64 < gpuOffset % 64 + length) :
    bit17Lines isRead u gpuPage gpuOffset cpuPage cpuOffset length m =
      bit17Lines isRead u gpuPage (gpuOffset + (64 - gpuOffset % 64)) cpuPage
        (cpuOffset + (64 - gpuOffset % 64)) (length - (64 - gpuOffset % 64))
        (drmCopy isRead u (gpuPage + (gpuOffset ^^^ 64)) (wordPtr cpuPage cpuOffset)
          (64 - gpuOffset % 64) m).2 := by
  have hlen : min ((gpuOffset + 1 + 63) / 64 * 64 - gpuOffset) length = 64 - gpuOffset % 64 := by
    omega
  rw [bit17Lines, dif_pos (by omega)]
  simp only [hlen]

/-- The bytes of a copy that was not cut short. -/
theorem mem_of_drmCopy (h : (drmCopy isRead u gpu cpu n m).2.moved.length = m.moved.length + n)
    {j : ℕ} (hj : j < n) : (gpu + j, cpu + j) ∈ (drmCopy isRead u gpu cpu n m).2.moved := by
  rw [drmCopy_moved] at h ⊢
  rw [List.length_append] at h
  rw [copy_of_length (by omega)]
  exact List.mem_append_right _ (mem_block.mpr ⟨j, hj, rfl⟩)

theorem head_of_drmCopy (h : (drmCopy isRead u gpu cpu n m).2.moved.length = m.moved.length + n)
    (hn : 0 < n) : (gpu, cpu) ∈ (drmCopy isRead u gpu cpu n m).2.moved :=
  mem_of_drmCopy h hn

/-- The first line, if nothing was cut short. -/
theorem head_of_bit17Lines
    (hwhole : (bit17Lines isRead u gpuPage gpuOffset cpuPage cpuOffset length m).moved.length =
      m.moved.length + length) (hpos : 0 < length) :
    (gpuPage + (gpuOffset ^^^ 64), wordPtr cpuPage cpuOffset) ∈
      (bit17Lines isRead u gpuPage gpuOffset cpuPage cpuOffset length m).moved := by
  by_cases hline : gpuOffset % 64 + length ≤ 64
  · rw [bit17Lines_within hpos hline] at hwhole ⊢
    exact head_of_drmCopy hwhole hpos
  · rw [bit17Lines_next (by omega)] at hwhole ⊢
    have hfirst := (follows_drmCopy isRead u (gpuPage + (gpuOffset ^^^ 64))
      (wordPtr cpuPage cpuOffset) (64 - gpuOffset % 64) m).length_le
    have hrest := (follows_bit17Lines ..).length_le.trans' hwhole.ge
    exact (follows_bit17Lines ..).mem (head_of_drmCopy (by omega) (by omega))

/-- The second line: the user's offset has moved on by words. -/
theorem next_of_bit17Lines
    (hwhole : (bit17Lines isRead u gpuPage gpuOffset cpuPage cpuOffset length m).moved.length =
      m.moved.length + length) (hline : 64 < gpuOffset % 64 + length) :
    (gpuPage + ((gpuOffset + (64 - gpuOffset % 64)) ^^^ 64),
        wordPtr cpuPage (cpuOffset + (64 - gpuOffset % 64) : ℕ)) ∈
      (bit17Lines isRead u gpuPage gpuOffset cpuPage cpuOffset length m).moved := by
  rw [bit17Lines_next hline] at hwhole ⊢
  have hfirst := (follows_drmCopy isRead u (gpuPage + (gpuOffset ^^^ 64))
    (wordPtr cpuPage cpuOffset) (64 - gpuOffset % 64) m).length_le
  have hrest := (follows_bit17Lines ..).length_le.trans' hwhole.ge
  exact head_of_bit17Lines (by omega) (by omega)

/-! ### A part within one page -/

section Page
variable {page gpuOffset cpuPage cpuOffset length : ℕ}

theorem slowShmemBit17Copy_of_false (hbit : bit17 (pageToPhys m.obj page) = false) :
    slowShmemBit17Copy isRead u page gpuOffset cpuPage cpuOffset length m =
      (drmCopy isRead u (page * pageSize + gpuOffset) (wordPtr cpuPage cpuOffset) length m).2 := by
  simp [slowShmemBit17Copy, hbit]

theorem slowShmemBit17Copy_of_true (hbit : bit17 (pageToPhys m.obj page) = true) :
    slowShmemBit17Copy isRead u page gpuOffset cpuPage cpuOffset length m =
      bit17Lines isRead u (page * pageSize) gpuOffset cpuPage cpuOffset length m := by
  simp [slowShmemBit17Copy, hbit]

theorem follows_slowShmemBit17Copy (page gpuOffset cpuPage cpuOffset length : ℕ) (m : Memory) :
    m.Follows isRead length
      (slowShmemBit17Copy isRead u page gpuOffset cpuPage cpuOffset length m) := by
  unfold slowShmemBit17Copy
  split
  · exact follows_drmCopy ..
  · exact follows_bit17Lines ..

/-- The object byte the part starts with is the one at its offset or that of the line beside it. -/
theorem head_of_slowShmemBit17Copy
    (hwhole : (slowShmemBit17Copy isRead u page gpuOffset cpuPage cpuOffset length m).moved.length =
      m.moved.length + length) (hpos : 0 < length) :
    (page * pageSize +
        (if bit17 (pageToPhys m.obj page) then gpuOffset ^^^ 64 else gpuOffset),
        wordPtr cpuPage cpuOffset) ∈
      (slowShmemBit17Copy isRead u page gpuOffset cpuPage cpuOffset length m).moved := by
  cases hbit : bit17 (pageToPhys m.obj page) with
  | true =>
    rw [slowShmemBit17Copy_of_true hbit] at hwhole ⊢
    exact head_of_bit17Lines hwhole hpos
  | false =>
    rw [slowShmemBit17Copy_of_false hbit] at hwhole ⊢
    exact head_of_drmCopy hwhole hpos

end Page

end GfxDrm.Shmem
