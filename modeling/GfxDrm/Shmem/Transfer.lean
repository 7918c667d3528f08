import GfxDrm.Shmem.Copies
import Mathlib.Data.List.Perm.Basic

/-! When the swizzled transfer is the one that was asked for. -/

namespace GfxDrm.Shmem
open Copy

/-- Where the byte at `a` of the object lies: bit 6 is flipped if the physical address of its
page has bit 17. -/
def swizzled (phys : ℕ → ℕ) (a : ℕ) : ℕ :=
  if bit17 (phys (a / pageSize)) then a ^^^ 64 else a

/-- The transfer that was asked for. -/
def bit17Moves (phys : ℕ → ℕ) (args : TransferArgs) : Moves :=
  (List.range args.size).map fun i => (swizzled phys (args.offset + i), args.dataPtr + i)

/-- The transfer lies in one object page from a user page on, in one line if the page has bit 17;
and the page's first word tells whether it has. -/
def OnePart (phys : ℕ → ℕ) (obj : ℕ → UInt8) (args : TransferArgs) : Prop :=
  args.size = 0 ∨
    args.offset < 2 ^ 32 ∧ args.dataPtr % pageSize = 0 ∧
      args.offset % pageSize + args.size ≤ pageSize ∧
      bit17 (pageToPhys obj (args.offset / pageSize)) = bit17 (phys (args.offset / pageSize)) ∧
      (bit17 (phys (args.offset / pageSize)) = true → args.offset % 64 + args.size ≤ 64)

/-- The user buffer is there. -/
def UserSpace.Buffer (u : UserSpace) (args : TransferArgs) : Prop :=
  ∀ i < args.size, u.mapped (args.dataPtr + i) = true

variable {isRead : Bool} {u : UserSpace} {m : Memory} {phys : ℕ → ℕ} {args : TransferArgs}

theorem UserSpace.Buffer.below (h : u.Buffer args) (hpos : 0 < args.size) :
    args.dataPtr + args.size ≤ 2 ^ 64 := by
  have hlast := u.below _ (h (args.size - 1) (by omega))
  omega

theorem length_bit17Moves (phys : ℕ → ℕ) (args : TransferArgs) :
    (bit17Moves phys args).length = args.size := by simp [bit17Moves]

theorem mem_bit17Moves {x y : ℕ} : (x, y) ∈ bit17Moves phys args ↔
    ∃ i < args.size, swizzled phys (args.offset + i) = x ∧ args.dataPtr + i = y := by
  simp [bit17Moves]

theorem swizzled_cases (phys : ℕ → ℕ) (a : ℕ) :
    bit17 (phys (a / pageSize)) = false ∧ swizzled phys a = a ∨
      bit17 (phys (a / pageSize)) = true ∧
        swizzled phys a = if a % 128 < 64 then a + 64 else a - 64 := by
  unfold swizzled
  cases hbit : bit17 (phys (a / pageSize)) with
  | true => exact .inr ⟨rfl, by rw [if_pos rfl, xor_64]⟩
  | false => exact .inl ⟨rfl, if_neg (by decide)⟩

/-! ### Where a part lies -/

/-- `page_length`. -/
def partLength (remain dataPtr offset : ℕ) : ℕ :=
  min remain (min (pageSize - offset % pageSize) (pageSize - dataPtr % pageSize))

/-- `user_data + data_page_index * DRM_PAGE_SIZE`. -/
def partPage (userData dataPtr : ℕ) : ℕ :=
  wordPtr userData (Word.signedMul 32
    (Word.signed 32 (Word.sub 64 (dataPtr / pageSize) (userData / pageSize))) pageSize)

/-- The user address of the part at `dataPtr`. -/
def partPtr (userData dataPtr : ℕ) : ℕ :=
  wordPtr (partPage userData dataPtr) (dataPtr % pageSize : ℕ)

/-- What the copy of the first part leaves. -/
def partCopied (isRead : Bool) (u : UserSpace) (userData remain dataPtr offset : ℕ) (m : Memory) :
    Memory :=
  slowShmemBit17Copy isRead u (offset / pageSize) (offset % pageSize) (partPage userData dataPtr)
    (dataPtr % pageSize) (partLength remain dataPtr offset) m

theorem partLength_le (remain dataPtr offset : ℕ) : partLength remain dataPtr offset ≤ remain :=
  Nat.min_le_left ..

theorem partLength_pos {remain : ℕ} (dataPtr offset : ℕ) (hpos : 0 < remain) :
    0 < partLength remain dataPtr offset := by
  have hoff : offset % pageSize < pageSize := Nat.mod_lt _ (by decide)
  have hptr : dataPtr % pageSize < pageSize := Nat.mod_lt _ (by decide)
  unfold partLength
  omega

theorem bit17Loop_step {userData remain dataPtr offset : ℕ} (hpos : 0 < remain) :
    bit17Loop isRead u userData (userData / pageSize) remain dataPtr offset m =
      bit17Loop isRead u userData (userData / pageSize)
        (remain - partLength remain dataPtr offset)
        (Word.add 64 dataPtr (partLength remain dataPtr offset))
        (Word.add 32 offset (partLength remain dataPtr offset))
        (partCopied isRead u userData remain dataPtr offset m) := by
  have hlen : partLength remain dataPtr offset =
      if pageSize < dataPtr % pageSize +
        (if pageSize < offset % pageSize + remain then pageSize - offset % pageSize else remain)
      then pageSize - dataPtr % pageSize
      else if pageSize < offset % pageSize + remain then pageSize - offset % pageSize
        else remain := by
    have hoff : offset % pageSize < pageSize := Nat.mod_lt _ (by decide)
    have hptr : dataPtr % pageSize < pageSize := Nat.mod_lt _ (by decide)
    unfold partLength
    split <;> split <;> omega
  rw [bit17Loop, dif_pos hpos, partCopied, partPage, hlen]

theorem bit17Loop_zero {userData firstDataPage dataPtr offset : ℕ} :
    bit17Loop isRead u userData firstDataPage 0 dataPtr offset m = m := by
  rw [bit17Loop, dif_neg (Nat.lt_irrefl 0)]

theorem follows_partCopied (userData remain dataPtr offset : ℕ) (m : Memory) :
    m.Follows isRead (partLength remain dataPtr offset)
      (partCopied isRead u userData remain dataPtr offset m) :=
  follows_slowShmemBit17Copy ..

theorem follows_bit17Loop (isRead : Bool) (u : UserSpace) (userData remain dataPtr offset : ℕ) (m : Memory) :
    m.Follows isRead remain
      (bit17Loop isRead u userData (userData / pageSize) remain dataPtr offset m) := by
  induction remain using Nat.strong_induction_on generalizing dataPtr offset m with
  | h remain ih =>
    rcases Nat.eq_zero_or_pos remain with rfl | hpos
    · rw [bit17Loop_zero]
      exact .refl ..
    · have hle := partLength_le remain dataPtr offset
      have hlt := partLength_pos dataPtr offset hpos
      have hrest := ih (remain - partLength remain dataPtr offset) (by omega)
      rw [bit17Loop_step hpos]
      exact ((follows_partCopied ..).trans (hrest ..)).mono (by omega)

theorem wordPtr_natCast (p i : ℕ) : wordPtr p (i : ℕ) = (p + 4 * i) % 2 ^ 64 := by
  unfold wordPtr
  omega

theorem wordPtr_partPage_first (d i : ℕ) :
    wordPtr (partPage d d) (i : ℕ) = (d + 4 * i) % 2 ^ 64 := by
  have hidx : Word.signedMul 32 (Word.signed 32 0) pageSize = (0 : ℕ) := by decide
  rw [partPage, Word.sub_self, hidx, wordPtr_natCast, wordPtr_natCast]
  omega

theorem partPtr_first (d : ℕ) : partPtr d d = (d + 4 * (d % pageSize)) % 2 ^ 64 :=
  wordPtr_partPage_first d _

/-- The part after the first, from a user page on. -/
theorem partPtr_second {d k : ℕ} (hpage : d % pageSize = 0) (hk : k ≤ pageSize)
    (hd : d + k < 2 ^ 64) : partPtr d (d + k) = (d + 4 * k) % 2 ^ 64 := by
  have hsize : pageSize = 4096 := rfl
  have hidx : Word.signedMul 32 (Word.signed 32 0) pageSize = (0 : ℕ) := by decide
  have hidx' : Word.signedMul 32 (Word.signed 32 1) pageSize = (pageSize : ℕ) := by decide
  rw [hsize] at hpage hk hidx hidx'
  rw [partPtr, partPage, hsize]
  rcases hk.eq_or_lt with rfl | hk
  · have hone : Word.sub 64 ((d + 4096) / 4096) (d / 4096) = 1 := by
      rw [Word.sub_of_le] <;> omega
    rw [hone, hidx', wordPtr_natCast, wordPtr_natCast]
    omega
  · have hzero : (d + k) / 4096 = d / 4096 := by omega
    rw [hzero, Word.sub_self, hidx, wordPtr_natCast, wordPtr_natCast]
    omega

/-! ### The loop -/

/-- The loop's run over the whole transfer. -/
abbrev bit17Run (isRead : Bool) (u : UserSpace) (args : TransferArgs) (m : Memory) : Memory :=
  bit17Loop isRead u args.dataPtr (args.dataPtr / pageSize) (Word.signed 64 args.size).toNat
    args.dataPtr (args.offset % 2 ^ 32) m

theorem signed_of_le {n : ℕ} (h : n ≤ pageSize) : (Word.signed 64 n).toNat = n := by
  have hsize : pageSize = 4096 := rfl
  have hn : n % 2 ^ 64 = n := Nat.mod_eq_of_lt (by omega)
  rw [Word.signed, hn, if_pos (by omega)]
  omega

theorem signed_of_pos {n : ℕ} (hn : n ≤ 2 ^ 64) (h : 0 < (Word.signed 64 n).toNat) :
    (Word.signed 64 n).toNat = n := by
  unfold Word.signed at h ⊢
  split <;> rename_i hlt
  · rw [if_pos hlt] at h
    omega
  · rw [if_neg hlt] at h
    omega

/-- One part that the loop gets right moves what was asked for. -/
theorem bit17Run_moved (hbuf : u.Buffer args) (h : OnePart phys m.obj args) :
    (bit17Run isRead u args m).moved = m.moved ++ bit17Moves phys args := by
  have hsize : pageSize = 4096 := rfl
  rcases Nat.eq_zero_or_pos args.size with h0 | hpos
  · rw [bit17Run, h0, show (Word.signed 64 0).toNat = 0 from rfl, bit17Loop_zero]
    simp [bit17Moves, h0]
  obtain h0 | ⟨hoff, hptr, hpage, hfirst, hline⟩ := h
  · omega
  have hbelow := hbuf.below hpos
  have hlen : partLength args.size args.dataPtr args.offset = args.size := by
    unfold partLength
    omega
  have hcpu : wordPtr (partPage args.dataPtr args.dataPtr) (args.dataPtr % pageSize : ℕ) =
      args.dataPtr := by
    have hp := partPtr_first args.dataPtr
    rw [hptr] at hp
    rw [← partPtr, hp]
    omega
  rw [bit17Run, signed_of_le (by omega), Nat.mod_eq_of_lt hoff, bit17Loop_step hpos, hlen,
    Nat.sub_self, bit17Loop_zero, partCopied, hlen]
  have hsame : ∀ i ∈ List.range args.size, (args.offset + i) / pageSize = args.offset / pageSize := by
    intro i hi
    have hlt := List.mem_range.mp hi
    rw [hsize] at hpage ⊢
    omega
  cases hbit : bit17 (phys (args.offset / pageSize)) with
  | false =>
    rw [slowShmemBit17Copy_of_false (hfirst.trans hbit), drmCopy_moved, hcpu, copy_of_mapped hbuf]
    congr 1
    refine List.map_congr_left fun i hi => ?_
    have hplain : swizzled phys (args.offset + i) = args.offset + i := by
      rw [swizzled, hsame i hi, hbit, if_neg (by decide)]
    rw [hplain, Nat.div_add_mod']
  | true =>
    have hline := hline hbit
    have hmod : args.offset % pageSize % 64 = args.offset % 64 := Nat.mod_mod_of_dvd _ ⟨64, rfl⟩
    rw [slowShmemBit17Copy_of_true (hfirst.trans hbit), bit17Lines_within hpos (by omega),
      drmCopy_moved, hcpu, copy_of_mapped hbuf]
    congr 1
    refine List.map_congr_left fun i hi => ?_
    have hlt := List.mem_range.mp hi
    have hflip : swizzled phys (args.offset + i) = (args.offset + i) ^^^ 64 := by
      rw [swizzled, hsame i hi, hbit, if_pos rfl]
    have hobj : args.offset / pageSize * pageSize + (args.offset % pageSize ^^^ 64) + i =
        (args.offset + i) ^^^ 64 := by
      rw [xor_64_page, xor_64_add (by omega)]
    exact Prod.ext (hobj.trans hflip.symm) rfl

/-! ### A loop that moves what was asked for -/

theorem swizzled_block (phys : ℕ → ℕ) (a : ℕ) : swizzled phys a / 128 = a / 128 := by
  rcases swizzled_cases phys a with ⟨-, h⟩ | ⟨-, h⟩
  · rw [h]
  · rw [h]
    split <;> omega

theorem swizzled_mod (phys : ℕ → ℕ) (a : ℕ) : swizzled phys a % 64 = a % 64 := by
  rcases swizzled_cases phys a with ⟨-, h⟩ | ⟨-, h⟩
  · rw [h]
  · rw [h]
    split <;> omega

section Asked
variable {userData remain dataPtr offset : ℕ} (hpos : 0 < remain)
  (hwhole : (bit17Loop isRead u userData (userData / pageSize) remain dataPtr offset m).moved.length
    = m.moved.length + remain)
include hpos hwhole

/-- If nothing was cut short in the loop, nothing was in its first part. -/
theorem partCopied_whole : (partCopied isRead u userData remain dataPtr offset m).moved.length =
    m.moved.length + partLength remain dataPtr offset := by
  have hle := partLength_le remain dataPtr offset
  have hpart : (partCopied isRead u userData remain dataPtr offset m).moved.length ≤ _ :=
    (follows_partCopied ..).length_le
  rw [bit17Loop_step hpos] at hwhole
  have hrest := (follows_bit17Loop ..).length_le.trans' hwhole.ge
  omega

/-- Nor in the parts after it. -/
theorem rest_whole :
    (bit17Loop isRead u userData (userData / pageSize) (remain - partLength remain dataPtr offset)
      (Word.add 64 dataPtr (partLength remain dataPtr offset))
      (Word.add 32 offset (partLength remain dataPtr offset))
      (partCopied isRead u userData remain dataPtr offset m)).moved.length =
    (partCopied isRead u userData remain dataPtr offset m).moved.length +
      (remain - partLength remain dataPtr offset) := by
  have hle := partLength_le remain dataPtr offset
  rw [partCopied_whole hpos hwhole, ← bit17Loop_step hpos, hwhole]
  omega

variable (hasked : ∀ p ∈ (bit17Loop isRead u userData (userData / pageSize) remain dataPtr offset
  m).moved, p ∈ bit17Moves phys args)
include hasked

omit hwhole in
theorem part_asked {x y : ℕ}
    (h : (x, y) ∈ (partCopied isRead u userData remain dataPtr offset m).moved) :
    ∃ i < args.size, swizzled phys (args.offset + i) = x ∧ args.dataPtr + i = y := by
  rw [bit17Loop_step hpos] at hasked
  exact mem_bit17Moves.mp (hasked _ ((follows_bit17Loop ..).mem h))

/-- The first byte of the loop. -/
theorem head_asked : ∃ i < args.size,
    swizzled phys (args.offset + i) =
      (if bit17 (pageToPhys m.obj (offset / pageSize)) then offset ^^^ 64 else offset) ∧
    args.dataPtr + i = partPtr userData dataPtr := by
  have hhead := head_of_slowShmemBit17Copy (partCopied_whole hpos hwhole)
    (partLength_pos dataPtr offset hpos)
  have hbyte : offset / pageSize * pageSize +
      (if bit17 (pageToPhys m.obj (offset / pageSize)) then offset % pageSize ^^^ 64
        else offset % pageSize) =
      if bit17 (pageToPhys m.obj (offset / pageSize)) then offset ^^^ 64 else offset := by
    split
    · exact xor_64_page offset
    · exact Nat.div_add_mod' offset pageSize
  rw [hbyte] at hhead
  exact part_asked hpos hasked hhead

/-- The bytes of a first part whose page has no bit 17. -/
theorem plain_asked (hbit : bit17 (pageToPhys m.obj (offset / pageSize)) = false) {j : ℕ}
    (hj : j < partLength remain dataPtr offset) : ∃ i < args.size,
    swizzled phys (args.offset + i) = offset + j ∧
      args.dataPtr + i = partPtr userData dataPtr + j := by
  have hpart := partCopied_whole hpos hwhole
  refine part_asked hpos hasked ?_
  rw [partCopied, slowShmemBit17Copy_of_false hbit] at hpart ⊢
  rw [Nat.div_add_mod'] at hpart ⊢
  exact mem_of_drmCopy hpart hj

/-- The second line of a first part whose page has it. -/
theorem line_asked (hbit : bit17 (pageToPhys m.obj (offset / pageSize)) = true)
    (hline : 64 < offset % 64 + partLength remain dataPtr offset) : ∃ i < args.size,
    swizzled phys (args.offset + i) = (offset + (64 - offset % 64)) ^^^ 64 ∧
      args.dataPtr + i =
        wordPtr (partPage userData dataPtr) (dataPtr % pageSize + (64 - offset % 64) : ℕ) := by
  have hpart := partCopied_whole hpos hwhole
  have hmod : offset % pageSize % 64 = offset % 64 := Nat.mod_mod_of_dvd _ ⟨64, rfl⟩
  refine part_asked hpos hasked ?_
  rw [partCopied, slowShmemBit17Copy_of_true hbit] at hpart ⊢
  have hnext := next_of_bit17Lines hpart (by omega)
  rw [hmod] at hnext
  have hin : offset % pageSize + (64 - offset % 64) < pageSize := by
    have hlt : partLength remain dataPtr offset ≤ pageSize - offset % pageSize :=
      (Nat.min_le_right ..).trans (Nat.min_le_left ..)
    omega
  have hbyte : offset / pageSize * pageSize +
      ((offset % pageSize + (64 - offset % 64)) ^^^ 64) = (offset + (64 - offset % 64)) ^^^ 64 := by
    have hdiv : offset / pageSize = (offset + (64 - offset % 64)) / pageSize := by
      rw [pageSize] at hin ⊢
      omega
    have hoff : offset % pageSize + (64 - offset % 64) =
        (offset + (64 - offset % 64)) % pageSize := by
      rw [pageSize] at hin ⊢
      omega
    rw [hoff, hdiv, xor_64_page]
  rw [hbyte] at hnext
  exact hnext

end Asked

/-! ### The conditions are needed -/

/-- The line that starts a page is not one further on by three times the bytes before it. -/
theorem page_start_ne {x n a : ℕ} (hpos : 0 < n) (hle : n ≤ 4096) (hstart : (x + n) % 4096 = 0)
    (hblock : a / 128 = (x + 4 * n) / 128) (hmod : a % 64 = (x + 4 * n) % 64)
    (hblock' : a / 128 = Word.add 32 x n / 128) (hmod' : a % 64 = Word.add 32 x n % 64) : False := by
  have hle : Word.add 32 x n ≤ x + n := Nat.mod_le _ _
  have halign : Word.add 32 x n % 64 = 0 := by
    rw [Word.add]
    omega
  omega

/-- A buffer that starts 16 bytes into a page leaves room for two lines. -/
theorem two_lines {args : TransferArgs} (hlt : 4 * (args.dataPtr % pageSize) < args.size)
    (h : 4 * (args.dataPtr % pageSize) = 64 ∧ args.offset % 128 < 64) :
    4 * (args.dataPtr % pageSize) = 64 ∧ args.offset % 128 < 64 ∧
      64 < partLength args.size args.dataPtr args.offset := by
  refine ⟨h.1, h.2, ?_⟩
  rw [pageSize] at h hlt
  rw [partLength, pageSize]
  omega

section Needed
variable (hbuf : u.Buffer args) (hpos : 0 < args.size)
  (hwhole : (bit17Loop isRead u args.dataPtr (args.dataPtr / pageSize) args.size args.dataPtr
    (args.offset % 2 ^ 32) m).moved.length = m.moved.length + args.size)
  (hasked : ∀ p ∈ (bit17Loop isRead u args.dataPtr (args.dataPtr / pageSize) args.size
    args.dataPtr (args.offset % 2 ^ 32) m).moved, p ∈ bit17Moves phys args)
include hbuf hpos hwhole hasked

/-- The first byte comes from its own page, so the offset was not cut; the user's address has
moved by three times its place in the page, a block of two lines at the most. -/
theorem first_byte : args.offset % 2 ^ 32 = args.offset ∧ 4 * (args.dataPtr % pageSize) < args.size ∧
    (args.offset + 4 * (args.dataPtr % pageSize)) / 128 = args.offset / 128 ∧
    swizzled phys (args.offset + 4 * (args.dataPtr % pageSize)) =
      if bit17 (pageToPhys m.obj (args.offset / pageSize)) then args.offset ^^^ 64
        else args.offset := by
  have hbelow := hbuf.below hpos
  obtain ⟨i, hi, hobj, hptr⟩ := head_asked hpos hwhole hasked
  rw [partPtr_first] at hptr
  have hblock := swizzled_block phys (args.offset + i)
  have hi4 : i = 4 * (args.dataPtr % pageSize) := by
    rw [pageSize] at hptr ⊢
    omega
  have hcut : args.offset % 2 ^ 32 = args.offset ∧ (args.offset + i) / 128 = args.offset / 128 := by
    rw [hobj] at hblock
    have hxor := xor_64 (args.offset % 2 ^ 32)
    split at hblock
    · split at hxor <;> omega
    · omega
  rw [hcut.1] at hobj
  exact ⟨hcut.1, hi4 ▸ hi, hi4 ▸ hcut.2, hi4 ▸ hobj⟩

/-- The transfer ends with its first object page: the next part is looked for too far on. -/
theorem one_page (hptr : args.dataPtr % pageSize = 0) :
    args.offset % pageSize + args.size ≤ pageSize := by
  have hsize : pageSize = 4096 := rfl
  have hbelow := hbuf.below hpos
  have hcut := (first_byte hbuf hpos hwhole hasked).1
  rw [hcut] at hwhole hasked
  by_contra hlong
  have hlen : partLength args.size args.dataPtr args.offset = pageSize - args.offset % pageSize := by
    rw [hsize] at hptr hlong
    rw [partLength, hsize]
    omega
  have hrest := rest_whole hpos hwhole
  rw [bit17Loop_step hpos] at hasked
  obtain ⟨i, hi, hobj, haddr⟩ := head_asked (by omega) hrest hasked
  rw [hlen] at haddr hobj
  rw [hsize] at hptr hlong hlen haddr hobj
  have hadd : Word.add 64 args.dataPtr (4096 - args.offset % 4096) =
      args.dataPtr + (4096 - args.offset % 4096) := Word.add_of_lt (by omega)
  rw [hadd, partPtr_second hptr (by omega) (by omega)] at haddr
  have hi4 : i = 4 * (4096 - args.offset % 4096) := by omega
  have hrestpos : 0 < 4096 - args.offset % 4096 := by omega
  have hrestle : 4096 - args.offset % 4096 ≤ 4096 := Nat.sub_le ..
  have hstart : (args.offset + (4096 - args.offset % 4096)) % 4096 = 0 := by omega
  have hblock := swizzled_block phys (args.offset + i)
  have hmod := swizzled_mod phys (args.offset + i)
  rw [hobj, hi4] at hblock hmod
  split at hblock
  · rename_i hbit
    obtain ⟨hxor, hxormod⟩ := xor_64_block (Word.add 32 args.offset (4096 - args.offset % 4096))
    rw [if_pos hbit] at hmod
    exact page_start_ne hrestpos hrestle hstart hblock hmod hxor hxormod
  · rename_i hbit
    rw [if_neg hbit] at hmod
    exact page_start_ne hrestpos hrestle hstart hblock hmod rfl rfl

/-- The page's first word tells its bit 17, and the user buffer starts a page. -/
theorem first_word : bit17 (pageToPhys m.obj (args.offset / pageSize)) =
      bit17 (phys (args.offset / pageSize)) ∧ args.dataPtr % pageSize = 0 := by
  have hbelow := hbuf.below hpos
  obtain ⟨hcut, hlt, hblock, hobj⟩ := first_byte hbuf hpos hwhole hasked
  rw [hcut] at hwhole hasked
  have hswz := swizzled_cases phys (args.offset + 4 * (args.dataPtr % pageSize))
  have hpage : (args.offset + 4 * (args.dataPtr % pageSize)) / pageSize =
      args.offset / pageSize := by
    rw [pageSize] at hblock ⊢
    omega
  rw [hpage] at hswz
  have hxor := xor_64 args.offset
  have hptr := partPtr_first args.dataPtr
  cases hbit : bit17 (pageToPhys m.obj (args.offset / pageSize)) with
  | false =>
    rw [hbit, if_neg (by decide)] at hobj
    rcases hswz with ⟨hphys, hs⟩ | ⟨hphys, hs⟩
    · exact ⟨hphys.symm, by omega⟩
    · -- the 65th byte lands in the line that the first should have come from
      exfalso
      have h64 := two_lines hlt (by split at hs <;> omega)
      obtain ⟨i, hi, hat, haddr⟩ := plain_asked hpos hwhole hasked hbit (h64.2.2)
      have hi128 : i = 128 := by
        rw [pageSize] at h64 hptr
        omega
      rcases swizzled_cases phys (args.offset + i) with ⟨-, hs⟩ | ⟨-, hs⟩
      · omega
      · split at hs <;> omega
  | true =>
    rw [hbit, if_pos rfl] at hobj
    rcases hswz with ⟨hphys, hs⟩ | ⟨hphys, hs⟩
    · -- so does the second line
      exfalso
      have h64 := two_lines hlt (by split at hxor <;> omega)
      obtain ⟨i, hi, hat, haddr⟩ := line_asked hpos hwhole hasked hbit (by omega)
      rw [wordPtr_partPage_first] at haddr
      have hi64 : i = 64 + 4 * (64 - args.offset % 64) := by omega
      have hxor' := xor_64 (args.offset + (64 - args.offset % 64))
      rcases swizzled_cases phys (args.offset + i) with ⟨-, hs⟩ | ⟨-, hs⟩
      · split at hxor' <;> omega
      · split at hs <;> split at hxor' <;> omega
    · refine ⟨hphys.symm, ?_⟩
      split at hs <;> split at hxor <;> omega

/-- In a page with bit 17 the transfer ends with its first line. -/
theorem one_line (hphys : bit17 (phys (args.offset / pageSize)) = true) :
    args.offset % 64 + args.size ≤ 64 := by
  have hbelow := hbuf.below hpos
  have hcut := (first_byte hbuf hpos hwhole hasked).1
  obtain ⟨hword, hptr⟩ := first_word hbuf hpos hwhole hasked
  have hpage := one_page hbuf hpos hwhole hasked hptr
  rw [hcut] at hwhole hasked
  by_contra hlong
  have hlen : partLength args.size args.dataPtr args.offset = args.size := by
    rw [partLength]
    omega
  obtain ⟨i, hi, hat, haddr⟩ := line_asked hpos hwhole hasked (hword.trans hphys) (by omega)
  rw [wordPtr_partPage_first] at haddr
  have hi4 : i = 4 * (64 - args.offset % 64) := by omega
  have hsame : (args.offset + i) / pageSize = args.offset / pageSize := by
    rw [pageSize] at hpage ⊢
    omega
  have hxor := xor_64 (args.offset + (64 - args.offset % 64))
  rcases swizzled_cases phys (args.offset + i) with ⟨hno, -⟩ | ⟨-, hs⟩
  · rw [hsame, hphys] at hno
    cases hno
  · split at hs <;> split at hxor <;> omega

end Needed

/-- The loop makes the moves that were asked for exactly where it finds them in one part. -/
theorem bit17Run_perm_iff (hbuf : u.Buffer args) (hm : m.moved = []) :
    (bit17Run isRead u args m).moved.Perm (bit17Moves phys args) ↔ OnePart phys m.obj args := by
  refine ⟨fun h => ?_, fun h => ?_⟩
  · rcases Nat.eq_zero_or_pos args.size with h0 | hpos
    · exact .inl h0
    have hlen := h.length_eq
    rw [length_bit17Moves] at hlen
    have hremain : (Word.signed 64 args.size).toNat = args.size := by
      have hle : (bit17Run isRead u args m).moved.length ≤ _ := (follows_bit17Loop ..).length_le
      rw [hm, List.length_nil, hlen] at hle
      have hbelow := hbuf.below hpos
      exact signed_of_pos (by omega) (by omega)
    rw [bit17Run, hremain] at h hlen
    have hwhole : _ = m.moved.length + args.size :=
      hlen.trans (by rw [hm, List.length_nil, Nat.zero_add])
    have hasked : ∀ p ∈ _, p ∈ bit17Moves phys args := fun p hp => h.subset hp
    have hword := first_word hbuf hpos hwhole hasked
    refine .inr ⟨?_, hword.2, one_page hbuf hpos hwhole hasked hword.2, hword.1,
      one_line hbuf hpos hwhole hasked⟩
    have hcut := (first_byte hbuf hpos hwhole hasked).1
    omega
  · rw [bit17Run_moved hbuf h, hm, List.nil_append]

/-! i915_gem_shmem_pread and i915_gem_shmem_pwrite, by what they have moved. -/

variable {x : Bit6Swizzle} {u : UserSpace} {o : GemObject} {args : TransferArgs}
  {out : TransferOutcome} {m m' : Memory}

/-- Exactly the bytes of the request have been moved, each at its swizzled address. -/
def Memory.Exact (m : Memory) (o : GemObject) (args : TransferArgs) : Prop :=
  m.moved.Perm (bit17Moves o.phys args)

/-- The object's bytes when the copying starts. -/
def startBytes (x : Bit6Swizzle) (o : GemObject) (out : TransferOutcome) (m : Memory) : ℕ → UInt8 :=
  (getPages x o out.alloc m).2.obj

theorem getPages_moved (x : Bit6Swizzle) (o : GemObject) (alloc : Bool) (m : Memory) :
    (getPages x o alloc m).2.moved = m.moved ∧ (getPages x o alloc m).2.user = m.user := by
  unfold getPages
  split
  · exact ⟨rfl, rfl⟩
  · split
    · exact ⟨rfl, rfl⟩
    · split <;> exact ⟨rfl, rfl⟩

/-- A transfer that returns 0 has run its loop or its copy. -/
theorem shmemTransfer_ran {isRead inCpuDomain : Bool}
    (h : shmemTransfer isRead x u o args inCpuDomain out m = (0, m')) :
    m' = if needsBit17Swizzle x o then bit17Run isRead u args (getPages x o out.alloc m).2
      else (drmCopy isRead u args.offset args.dataPtr args.size (getPages x o out.alloc m).2).2 := by
  unfold shmemTransfer at h
  split at h
  · rename_i hdom
    exact absurd (congrArg Prod.fst h) hdom.2.2
  · dsimp only at h
    split at h
    · rename_i hret
      rw [h] at hret
      exact absurd rfl hret
    · refine (congrArg Prod.snd h).symm.trans ?_
      split <;> rfl

/-- What a swizzled transfer has done: it is exact in one part only, and its trace tells what has
happened to the two memories. -/
theorem shmemTransfer_spec (isRead : Bool) {inCpuDomain : Bool} (hm : m.moved = [])
    (hneeds : needsBit17Swizzle x o = true) (hbuf : u.Buffer args)
    (h : shmemTransfer isRead x u o args inCpuDomain out m = (0, m')) :
    (m'.Exact o args ↔ OnePart o.phys (startBytes x o out m) args) ∧
      if isRead then
        m'.user = run m'.moved (startBytes x o out m) m.user ∧ m'.obj = startBytes x o out m
      else
        m'.obj = run (m'.moved.map Prod.swap) m.user (startBytes x o out m) ∧
          m'.user = m.user := by
  obtain ⟨hmoved, huser⟩ := getPages_moved x o out.alloc m
  have hran := (shmemTransfer_ran h).trans (if_pos hneeds)
  subst hran
  refine ⟨bit17Run_perm_iff hbuf (hmoved.trans hm), ?_⟩
  obtain ⟨moves, htrace, -, hmem⟩ := follows_bit17Loop isRead u args.dataPtr
    (Word.signed 64 args.size).toNat args.dataPtr (args.offset % 2 ^ 32)
    (getPages x o out.alloc m).2
  rw [hmoved, hm, List.nil_append] at htrace
  rw [huser, ← htrace] at hmem
  exact hmem

/-- Without bit 17 the request is for the bytes of the plain copy. -/
theorem bit17Moves_of_false (h : ∀ page, bit17 (o.phys page) = false) :
    bit17Moves o.phys args = block args.offset args.dataPtr args.size := by
  refine List.map_congr_left fun i _ => ?_
  rw [swizzled, h, if_neg (by decide)]

/-- The swizzled read and write are exact where the transfer lies in one part, and nowhere else;
the plain copy is exact wherever no page has bit 17. -/
theorem bit17_transfers_exact (x : Bit6Swizzle) (u : UserSpace) (o : GemObject)
    (args : TransferArgs) (out : TransferOutcome) (m m' : Memory) (hm : m.moved = [])
    (hneeds : needsBit17Swizzle x o = true) (hbuf : u.Buffer args) :
    (i915GemShmemPread x u o args out m = (0, m') →
      (m'.Exact o args ↔ OnePart o.phys (startBytes x o out m) args) ∧
        m'.user = run m'.moved (startBytes x o out m) m.user ∧
        m'.obj = startBytes x o out m) ∧
    (i915GemShmemPwrite x u o args out m = (0, m') →
      (m'.Exact o args ↔ OnePart o.phys (startBytes x o out m) args) ∧
        m'.obj = run (m'.moved.map Prod.swap) m.user (startBytes x o out m) ∧
        m'.user = m.user) ∧
    ((∀ page, bit17 (o.phys page) = false) → ∀ isRead,
      (drmCopy isRead u args.offset args.dataPtr args.size m).2.Exact o args) := by
  refine ⟨fun h => shmemTransfer_spec true hm hneeds hbuf h,
    fun h => shmemTransfer_spec false hm hneeds hbuf h, fun hphys isRead => ?_⟩
  rw [Memory.Exact, drmCopy_moved, hm, copy_of_mapped hbuf, bit17Moves_of_false hphys]
  rfl

/-! ### Two requests -/

/-- A tiled object of two pages without bit 17. -/
def tiledBo : GemObject := { size := 8192, tilingMode := .x, pageList := true, phys := fun _ => 0 }

def lowSpace : UserSpace where
  mapped a := a < 65536
  below a h := by
    have := of_decide_eq_true h
    omega

def zeroed : Memory := { obj := fun _ => 0, user := fun _ => 0 }

theorem bit17_transfers_exact_page :
    (bit17Run true lowSpace ⟨64, 100, 8192⟩ zeroed).Exact tiledBo ⟨64, 100, 8192⟩ := by
  have hbuf : lowSpace.Buffer ⟨64, 100, 8192⟩ := fun i hi => decide_eq_true (by
    change 8192 + i < 65536
    change i < 100 at hi
    omega)
  refine ((bit17_transfers_exact .bit9_10_17 lowSpace tiledBo ⟨64, 100, 8192⟩ {} zeroed _ rfl rfl
    hbuf).1 rfl).1.mpr (.inr ⟨by decide, by decide, by decide, by decide, by decide⟩)

/-- A user buffer that does not start a page. -/
theorem bit17_transfer_misplaced :
    ¬ ∀ (x : Bit6Swizzle) (u : UserSpace) (o : GemObject) (args : TransferArgs)
      (out : TransferOutcome) (m m' : Memory), m.moved = [] → needsBit17Swizzle x o = true →
      u.Buffer args → checkTransfer 0 (some o) args = .ok o →
      i915GemShmemPread x u o args out m = (0, m') → m'.Exact o args := by
  intro h
  have hbuf : lowSpace.Buffer ⟨0, 4, 4100⟩ := fun i hi => decide_eq_true (by
    change 4100 + i < 65536
    change i < 4 at hi
    omega)
  have hexact := h .bit9_10_17 lowSpace tiledBo ⟨0, 4, 4100⟩ {} zeroed _ rfl rfl hbuf rfl rfl
  have hran : i915GemShmemPread .bit9_10_17 lowSpace tiledBo ⟨0, 4, 4100⟩ {} zeroed = (0, _) := rfl
  have hone := (shmemTransfer_spec true rfl rfl hbuf hran).1.mp hexact
  exact absurd hone (by unfold OnePart; decide)

/-! ### Writing and reading back -/

theorem swizzled_injective (phys : ℕ → ℕ) : Function.Injective (swizzled phys) := by
  refine Function.Involutive.injective fun a => ?_
  have hblock := swizzled_block phys a
  have hpage : swizzled phys a / pageSize = a / pageSize := by
    change swizzled phys a / 4096 = a / 4096
    omega
  rw [swizzled, hpage, swizzled]
  split
  · exact Nat.xor_xor_cancel_right ..
  · rfl

/-- What is moved by a transfer that is exact or a plain copy. -/
theorem shmemTransfer_moves (isRead : Bool) {inCpuDomain : Bool} (hm : m.moved = [])
    (hbuf : u.Buffer args) (h : shmemTransfer isRead x u o args inCpuDomain out m = (0, m'))
    (hone : needsBit17Swizzle x o = true → OnePart o.phys (startBytes x o out m) args) :
    ∃ moves : Moves,
      moves.Perm (bit17Moves (if needsBit17Swizzle x o then o.phys else fun _ => 0) args) ∧
      if isRead then m'.user = run moves (startBytes x o out m) m.user
      else m'.obj = run (moves.map Prod.swap) m.user (startBytes x o out m) := by
  cases hneeds : needsBit17Swizzle x o with
  | true =>
    obtain ⟨hexact, hmem⟩ := shmemTransfer_spec isRead hm hneeds hbuf h
    refine ⟨_, hexact.mpr (hone hneeds), ?_⟩
    cases isRead <;> exact hmem.1
  | false =>
    refine ⟨u.copy args.offset args.dataPtr args.size, ?_, ?_⟩
    · rw [copy_of_mapped hbuf]
      exact .of_eq (bit17Moves_of_false (o := { o with phys := fun _ => 0 })
        fun _ => Nat.zero_testBit _).symm
    · rw [shmemTransfer_ran h, hneeds, drmCopy, (getPages_moved x o out.alloc m).2]
      cases isRead <;> rfl

/-- What has been written is read back, where both transfers of a swizzled object are exact;
the object may have changed its domain. -/
theorem pread_pwrite (x : Bit6Swizzle) (u : UserSpace) (o : GemObject) (args : TransferArgs)
    (dataPtr : ℕ) (cpuReadDomain gttSpace : Bool) (out out' : TransferOutcome)
    (m m' m'' : Memory) (hm : m.moved = [])
    (hbuf : u.Buffer args) (hbuf' : u.Buffer { args with dataPtr })
    (hw : i915GemShmemPwrite x u o args out m = (0, m'))
    (hr : i915GemShmemPread x u { o with pageList := true, cpuReadDomain, gttSpace }
      { args with dataPtr } out' { m' with moved := [] } = (0, m''))
    (hone : needsBit17Swizzle x o = true → OnePart o.phys (startBytes x o out m) args ∧
      OnePart o.phys m'.obj { args with dataPtr }) :
    ∀ i < args.size, m''.user (dataPtr + i) = m.user (args.dataPtr + i) := by
  intro i hi
  obtain ⟨moves, hperm, hobj⟩ := shmemTransfer_moves false hm hbuf hw fun h => (hone h).1
  obtain ⟨moves', hperm', huser⟩ := shmemTransfer_moves true rfl hbuf' hr fun h => (hone h).2
  have hmem := hperm.mem_iff.mpr (mem_bit17Moves.mpr ⟨i, hi, rfl, rfl⟩)
  have hmem' := hperm'.mem_iff.mpr (mem_bit17Moves.mpr ⟨i, hi, rfl, rfl⟩)
  have hnodup : ((moves.map Prod.swap).map Prod.snd).Nodup := by
    rw [List.map_map, (hperm.map _).nodup_iff, bit17Moves, List.map_map]
    exact List.nodup_range.map fun a b hab => Nat.add_left_cancel (swizzled_injective _ hab)
  have hnodup' : (moves'.map Prod.snd).Nodup := by
    rw [(hperm'.map _).nodup_iff, bit17Moves, List.map_map]
    exact List.nodup_range.map fun a b hab => Nat.add_left_cancel hab
  rw [huser, run_of_mem hnodup' hmem']
  exact (congrFun hobj _).trans (run_of_mem hnodup (List.mem_map_of_mem hmem))

theorem pread_pwrite_plain : (i915GemShmemPread .none lowSpace tiledBo ⟨64, 4, 4096⟩ {}
    { (i915GemShmemPwrite .none lowSpace tiledBo ⟨64, 4, 8192⟩ {}
      { zeroed with user := UInt8.ofNat }).2 with moved := [] }).2.user 4099 = 3 := by
  have hbuf (d : ℕ) (h : d ≤ 8192) : lowSpace.Buffer ⟨64, 4, d⟩ := fun i hi => decide_eq_true (by
    change d + i < 65536
    change i < 4 at hi
    omega)
  exact pread_pwrite .none lowSpace tiledBo ⟨64, 4, 8192⟩ 4096 true false {} {} _ _ _ rfl
    (hbuf _ le_rfl) (hbuf _ (by decide)) rfl rfl nofun 3 (by decide)

/-! ### Releasing the pages -/

/-- i915_gem_object_save_bit_17_swizzle; the bits beyond the pages are never read. -/
def saveBit17Swizzle (o : GemObject) (obj : ℕ → UInt8) : GemObject :=
  { o with bit17 := some fun i => bit17 (pageToPhys obj i) }

/-- i915_gem_object_put_pages_gtt. -/
def putPages (x : Bit6Swizzle) (o : GemObject) (obj : ℕ → UInt8) : GemObject :=
  { if needsBit17Swizzle x o then saveBit17Swizzle o obj else o with pageList := false }

end GfxDrm.Shmem
