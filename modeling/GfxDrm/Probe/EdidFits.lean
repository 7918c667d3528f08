import GfxDrm.Errno
import GfxDrm.Lib.Span
import GfxDrm.Lib.Run
import Mathlib.Algebra.Order.Ring.Nat
import Mathlib.Data.UInt
import Mathlib.Order.Interval.Finset.Nat
import Mathlib.Data.Nat.SuccPred
import Mathlib.Order.Interval.Finset.SuccPred

/-! Reading the EDID blocks of a monitor (drm_edid.c). -/

namespace GfxDrm.Probe

/-- EDID_LENGTH. -/
def edidLength : ℕ := 128

/-- DRM_MAX_EDID_EXT_NUM. -/
def drmMaxEdidExtNum : ℕ := 4

/-- What kmalloc is asked for. -/
def edidBufSize : ℕ := edidLength * (drmMaxEdidExtNum + 1)

/-- What i2c_transfer returns and the bytes it leaves where the block goes. -/
structure I2cReply where
  ret : ℤ
  bytes : ℕ → UInt8

/-- What the monitor answers when asked for a block, by try and by retry. -/
abbrev I2cAdapter := ℕ → ℕ → ℕ → I2cReply

/-- The bytes from `block` on, and where bytes have been written so far. -/
structure EdidBuf where
  block : ℕ → UInt8
  writes : List Span := []

def EdidBuf.write (b : EdidBuf) (off len : ℕ) (bytes : ℕ → UInt8) : EdidBuf where
  block k := if off ≤ k ∧ k < off + len then bytes (k - off) else b.block k
  writes := b.writes ++ [⟨off, len⟩]

structure DrmConnector where
  nullEdidCounter : ℕ := 0
  badEdidCounter : ℕ := 0
  deriving DecidableEq, Repr

def edidHeader (k : ℕ) : UInt8 := if k = 0 ∨ k = 7 then 0 else 0xff

def drmEdidHeaderIsValid (raw : ℕ → UInt8) : ℕ :=
  ((List.range 8).filter fun k => raw k = edidHeader k).length

/-- Whether drm_edid_block_valid puts the header of the base block right. -/
def fixesHeader (block : ℕ) (raw : ℕ → UInt8) : Bool :=
  block = 0 ∧ drmEdidHeaderIsValid raw ≠ 8 ∧ 6 ≤ drmEdidHeaderIsValid raw

def fixedHeader (block : ℕ) (raw : ℕ → UInt8) (k : ℕ) : UInt8 :=
  if fixesHeader block raw ∧ k < 8 then edidHeader k else raw k

/-- drm_edid_block_valid, of the bytes from `raw_edid` on. -/
def drmEdidBlockValid (block : ℕ) (raw : ℕ → UInt8) : Bool :=
  if block = 0 ∧ drmEdidHeaderIsValid raw < 6 then false
  else
    let raw := fixedHeader block raw
    let csum := ((List.range edidLength).map raw).sum
    -- CEA blocks may slide through
    if csum ≠ 0 ∧ raw 0 ≠ 2 then false
    -- the major version of a base block
    else if raw 0 = 0 ∧ raw 18 ≠ 1 then false
    else true

def EdidBuf.raw (b : EdidBuf) (off : ℕ) (k : ℕ) : UInt8 := b.block (off + k)

/-- drm_edid_block_valid at `off`, with the header it may write. -/
def EdidBuf.blockValid (b : EdidBuf) (off block : ℕ) : Bool × EdidBuf :=
  (drmEdidBlockValid block (b.raw off),
    if fixesHeader block (b.raw off) then b.write off 8 edidHeader else b)

def drmEdidIsZero (raw : ℕ → UInt8) : Bool := (List.range edidLength).all fun k => raw k = 0

/-- The number of messages of a transfer: with a segment address or without. -/
def i2cXfers (block : ℕ) : ℤ := if (block / 2) % 256 = 0 then 2 else 3

/-- The loop of drm_do_probe_ddc_edid from the `n`-th transfer on. -/
def probeLoop (reply : ℕ → I2cReply) (off : ℕ) (xfers : ℤ) : ℕ → ℕ → EdidBuf → Bool × EdidBuf
  | 0, _, b => (false, b)
  | retries + 1, n, b =>
    let b := b.write off edidLength (reply n).bytes
    if (reply n).ret = Errno.eNxio then (false, b)
    else if (reply n).ret = xfers then (true, b)
    else probeLoop reply off xfers retries (n + 1) b

def drmDoProbeDdcEdid (reply : ℕ → I2cReply) (off block : ℕ) (b : EdidBuf) : Bool × EdidBuf :=
  probeLoop reply off (i2cXfers block) 5 0 b

/-- How the loop for the base block ends: at its `break`, at `carp`, at `carp` after counting
a null EDID, at `out`. -/
inductive BaseFetch where
  | accepted
  | carp
  | null
  | out
  deriving DecidableEq, Repr

def baseLoop (adapter : I2cAdapter) : ℕ → ℕ → EdidBuf → BaseFetch × EdidBuf
  | 0, _, b => (.carp, b)
  | tries + 1, i, b =>
    match drmDoProbeDdcEdid (adapter 0 i) 0 0 b with
    | (false, b) => (.out, b)
    | (true, b) =>
      match b.blockValid 0 0 with
      | (true, b) => (.accepted, b)
      | (false, b) =>
        if i = 0 ∧ drmEdidIsZero b.block then (.null, b) else baseLoop adapter tries (i + 1) b

/-- The tries for extension block `j`: whether it turned out valid, unless a probe failed. -/
def extTries (adapter : I2cAdapter) (off j : ℕ) : ℕ → ℕ → EdidBuf → Option Bool × EdidBuf
  | 0, _, b => (some false, b)
  | tries + 1, i, b =>
    match drmDoProbeDdcEdid (adapter j i) off j b with
    | (false, b) => (none, b)
    | (true, b) =>
      match b.blockValid off j with
      | (true, b) => (some true, b)
      | (false, b) => extTries adapter off j tries (i + 1) b

/-- The loop over the extension blocks from `j` on. It returns `valid_extensions`, unless a
probe failed; `block[0x7e]` is at most 255. -/
def extLoop (adapter : I2cAdapter) : ℕ → ℕ → ℕ → EdidBuf → Option ℕ × EdidBuf
  | 0, _, validExtensions, b => (some validExtensions, b)
  | fuel + 1, j, validExtensions, b =>
    if j ≤ (b.block 0x7e).toNat then
      match extTries adapter ((validExtensions + 1) * edidLength) j 4 0 b with
      | (none, b) => (none, b)
      | (some valid, b) =>
        extLoop adapter fuel (j + 1)
          (if valid then (validExtensions + 1) % 256 else validExtensions) b
    else (some validExtensions, b)

/-- drm_do_get_edid: whether it returns the block, what it leaves in it, and the counters.
`kmalloc` is what the buffer holds at first. -/
def drmDoGetEdid (adapter : I2cAdapter) (connector : DrmConnector) (kmalloc : Option (ℕ → UInt8)) :
    Bool × EdidBuf × DrmConnector :=
  match kmalloc with
  | none => (false, { block := fun _ => 0 }, connector)
  | some junk =>
    match baseLoop adapter 4 0 { block := junk } with
    | (.out, b) => (false, b, connector)
    | (.carp, b) => (false, b, { connector with badEdidCounter := connector.badEdidCounter + 1 })
    | (.null, b) => (false, b,
      { nullEdidCounter := connector.nullEdidCounter + 1
        badEdidCounter := connector.badEdidCounter + 1 })
    | (.accepted, b) =>
      if b.block 0x7e = 0 then (true, b, connector)
      else
        match extLoop adapter 255 1 0 b with
        | (none, b) => (false, b, connector)
        | (some validExtensions, b) =>
          if validExtensions ≠ (b.block 0x7e).toNat then
            let sum := b.block 127 + b.block 0x7e - UInt8.ofNat validExtensions
            let b := b.write 127 1 fun _ => sum
            (true, b.write 0x7e 1 fun _ => UInt8.ofNat validExtensions, connector)
          else (true, b, connector)

/-! Where drm_do_get_edid writes. -/

open GfxDrm.Span

/-- The bytes of the transfer that goes through, if one does. -/
def ddcAnswer (reply : ℕ → I2cReply) (xfers : ℤ) : ℕ → ℕ → Option (ℕ → UInt8)
  | 0, _ => none
  | retries + 1, n =>
    if (reply n).ret = Errno.eNxio then none
    else if (reply n).ret = xfers then some (reply n).bytes
    else ddcAnswer reply xfers retries (n + 1)

/-- What the monitor delivers when it is asked for block `j` for the `i`-th time. -/
def ddcBlock (adapter : I2cAdapter) (j i : ℕ) : Option (ℕ → UInt8) :=
  ddcAnswer (adapter j i) (i2cXfers j) 5 0

/-- The `i`-th time it delivers a valid block. -/
def Valid (adapter : I2cAdapter) (j i : ℕ) : Prop :=
  (ddcBlock adapter j i).any (drmEdidBlockValid j) = true

def Invalid (adapter : I2cAdapter) (j i : ℕ) : Prop :=
  (ddcBlock adapter j i).any (fun raw => !drmEdidBlockValid j raw) = true

/-- A valid block comes in one of the tries `i` to `n`. -/
def ComesValid (adapter : I2cAdapter) (j i n : ℕ) : Prop :=
  FirstAfter (Valid adapter j) (Invalid adapter j) i n

/-- One of the tries fails before a valid block has come. -/
def Fails (adapter : I2cAdapter) (j i n : ℕ) : Prop :=
  FirstAfter (fun m => ddcBlock adapter j m = none) (Invalid adapter j) i n

instance (adapter : I2cAdapter) (j : ℕ) : DecidablePred (Valid adapter j) :=
  fun _ => inferInstanceAs (Decidable (_ = _))

instance (adapter : I2cAdapter) (j : ℕ) : DecidablePred (Invalid adapter j) :=
  fun _ => inferInstanceAs (Decidable (_ = _))

instance (adapter : I2cAdapter) (j i n : ℕ) : Decidable (ComesValid adapter j i n) :=
  inferInstanceAs (Decidable (FirstAfter _ _ i n))

/-- The base block that drm_do_get_edid goes on with, from its `i`-th try on. -/
def BaseAccepted (adapter : I2cAdapter) (base : ℕ → UInt8) (i n : ℕ) : Prop :=
  FirstAfter (fun m => ddcBlock adapter 0 m = some base ∧ drmEdidBlockValid 0 base = true)
    (fun l => Invalid adapter 0 l ∧ (l = 0 →
      ¬(ddcBlock adapter 0 l).any (fun raw => drmEdidIsZero (fixedHeader 0 raw)) = true)) i n

/-- With `v` valid ones before block `j`, whenever an extension block up to `count` is asked
for fewer than four have come in valid. -/
def RoomFor (adapter : I2cAdapter) (v j count : ℕ) : Prop :=
  ∀ j' ∈ Finset.Icc j count, (∀ k ∈ Finset.Ico j j', ¬ Fails adapter k 0 4) →
    v + ((Finset.Ico j j').filter fun k => ComesValid adapter k 0 4).card < drmMaxEdidExtNum

/-- The extension blocks that come in valid fit behind the base block. -/
def ExtensionsFit (adapter : I2cAdapter) : Prop :=
  ∀ base, BaseAccepted adapter base 0 4 → RoomFor adapter 0 1 (base 0x7e).toNat

section
variable {adapter : I2cAdapter} {reply : ℕ → I2cReply} {off block j i n retries size : ℕ}
  {xfers : ℤ} {b : EdidBuf} {raw raw' : ℕ → UInt8}

/-! ### One block -/

variable {bytes : ℕ → UInt8}

@[simp] theorem EdidBuf.allInside_write {len : ℕ} :
    AllInside size (b.write off len bytes).writes ↔ AllInside size b.writes ∧ off + len ≤ size := by
  simp [EdidBuf.write, Inside]
  norm_cast
  simp

theorem EdidBuf.write_of_lt {len k : ℕ} (h : k < off) :
    (b.write off len bytes).block k = b.block k :=
  if_neg fun hk => (not_le.mpr h) hk.1

theorem EdidBuf.write_raw {len k : ℕ} (h : k < len) :
    (b.write off len bytes).raw off k = bytes k := by
  simp [EdidBuf.raw, EdidBuf.write, h]

theorem probeLoop_of_lt {k : ℕ} (h : k < off) :
    (probeLoop reply off xfers retries n b).2.block k = b.block k := by
  induction retries generalizing n b with
  | zero => rfl
  | succ retries ih =>
    simp only [probeLoop]
    split
    · exact EdidBuf.write_of_lt h
    · split
      · exact EdidBuf.write_of_lt h
      · rw [ih, EdidBuf.write_of_lt h]

theorem probeLoop_allInside (h : 0 < retries) :
    AllInside size (probeLoop reply off xfers retries n b).2.writes ↔
      AllInside size b.writes ∧ off + edidLength ≤ size := by
  induction retries generalizing n b with
  | zero => exact absurd h (lt_irrefl 0)
  | succ retries ih =>
    simp only [probeLoop]
    split
    · simp
    · split
      · simp
      · cases retries with
        | zero => simp [probeLoop]
        | succ retries =>
          rw [ih (Nat.succ_pos _), EdidBuf.allInside_write, and_assoc, and_self]

/-- The probe succeeds when a transfer goes through, and leaves its bytes. -/
theorem probeLoop_answer :
    (∃ raw, ddcAnswer reply xfers retries n = some raw ∧
      (probeLoop reply off xfers retries n b).1 = true ∧
      ∀ k < edidLength, (probeLoop reply off xfers retries n b).2.raw off k = raw k) ∨
    ddcAnswer reply xfers retries n = none ∧ (probeLoop reply off xfers retries n b).1 = false := by
  induction retries generalizing n b with
  | zero => exact .inr ⟨rfl, rfl⟩
  | succ retries ih =>
    simp only [probeLoop, ddcAnswer]
    split
    · exact .inr ⟨rfl, rfl⟩
    · split
      · exact .inl ⟨_, rfl, rfl, fun k hk => EdidBuf.write_raw hk⟩
      · exact ih

theorem drmEdidHeaderIsValid_congr (h : ∀ k < edidLength, raw k = raw' k) :
    drmEdidHeaderIsValid raw = drmEdidHeaderIsValid raw' := by
  unfold drmEdidHeaderIsValid
  congr 1
  apply List.filter_congr
  intro k hk
  rw [h k ((List.mem_range.mp hk).trans (by decide))]

theorem fixesHeader_congr (h : ∀ k < edidLength, raw k = raw' k) :
    fixesHeader block raw = fixesHeader block raw' := by
  unfold fixesHeader
  rw [drmEdidHeaderIsValid_congr h]

/-- A block is judged by its 128 bytes. -/
theorem drmEdidBlockValid_congr (h : ∀ k < edidLength, raw k = raw' k) :
    drmEdidBlockValid block raw = drmEdidBlockValid block raw' := by
  have hfixed : ∀ k < edidLength, fixedHeader block raw k = fixedHeader block raw' k := by
    intro k hk
    unfold fixedHeader
    rw [fixesHeader_congr h, h k hk]
  have hsum : (List.range edidLength).map (fixedHeader block raw) =
      (List.range edidLength).map (fixedHeader block raw') := by
    apply List.map_congr_left
    intro k hk
    exact hfixed k (List.mem_range.mp hk)
  unfold drmEdidBlockValid
  simp only [drmEdidHeaderIsValid_congr h, hsum, hfixed 0 (by decide), hfixed 18 (by decide)]

theorem drmEdidIsZero_congr (h : ∀ k < edidLength, raw k = raw' k) :
    drmEdidIsZero raw = drmEdidIsZero raw' := by
  unfold drmEdidIsZero
  rw [Bool.eq_iff_iff, List.all_eq_true, List.all_eq_true]
  constructor
  · intro hz k hk
    rw [← h k (List.mem_range.mp hk)]
    exact hz k hk
  · intro hz k hk
    rw [h k (List.mem_range.mp hk)]
    exact hz k hk

theorem fixesHeader_of_ne (h : block ≠ 0) : fixesHeader block raw = false := by
  simp [fixesHeader, h]

/-- What a probe leaves, as the validity check sees it. -/
theorem drmDoProbeDdcEdid_answer (adapter : I2cAdapter) (off j i : ℕ) (b : EdidBuf) :
    (∃ raw, ddcBlock adapter j i = some raw ∧ (drmDoProbeDdcEdid (adapter j i) off j b).1 = true ∧
      ∀ k < edidLength, (drmDoProbeDdcEdid (adapter j i) off j b).2.raw off k = raw k) ∨
    ddcBlock adapter j i = none ∧ (drmDoProbeDdcEdid (adapter j i) off j b).1 = false :=
  probeLoop_answer

/-! ### The tries for an extension block -/

theorem extTries_spec (hj : j ≠ 0) {tries : ℕ} :
    let r := extTries adapter off j tries i b
    (∀ k < off, r.2.block k = b.block k) ∧
      (0 < tries →
        (AllInside size r.2.writes ↔ AllInside size b.writes ∧ off + edidLength ≤ size)) ∧
      (r.1 = none ↔ Fails adapter j i (i + tries)) ∧
      (r.1 = some true ↔ ComesValid adapter j i (i + tries)) := by
  induction tries generalizing i b with
  | zero =>
    refine ⟨fun k _ => rfl, fun h => absurd h (lt_irrefl 0), ?_, ?_⟩
    · exact iff_of_false (by simp [extTries]) (FirstAfter.not_of_le le_rfl)
    · exact iff_of_false (by simp [extTries]) (FirstAfter.not_of_le le_rfl)
  | succ tries ih =>
    have hlt : i < i + (tries + 1) := Nat.lt_add_of_pos_right (Nat.succ_pos _)
    have hprobe := drmDoProbeDdcEdid_answer adapter off j i b
    have hframe : ∀ k < off, (drmDoProbeDdcEdid (adapter j i) off j b).2.block k = b.block k :=
      fun k hk => probeLoop_of_lt hk
    have hin : AllInside size (drmDoProbeDdcEdid (adapter j i) off j b).2.writes ↔
        AllInside size b.writes ∧ off + edidLength ≤ size := probeLoop_allInside (by decide)
    simp only [Fails, ComesValid, FirstAfter.iff_or hlt]
    unfold extTries
    generalize drmDoProbeDdcEdid (adapter j i) off j b = r at hprobe hframe hin
    obtain ⟨ok, b'⟩ := r
    rcases hprobe with ⟨raw, hraw, rfl, hsame⟩ | ⟨hnone, rfl⟩
    · have hvalid : drmEdidBlockValid j (b'.raw off) = drmEdidBlockValid j raw :=
        drmEdidBlockValid_congr hsame
      simp only [EdidBuf.blockValid, hvalid, fixesHeader_of_ne hj, Valid, Invalid, hraw,
        Option.any_some, Bool.false_eq_true, if_false]
      cases hv : drmEdidBlockValid j raw with
      | true => exact ⟨hframe, fun _ => hin, by simp, by simp⟩
      | false =>
        obtain ⟨hframe', hin', hfail, hcome⟩ := ih (i := i + 1) (b := b')
        rw [Nat.add_right_comm, Nat.add_assoc] at hfail hcome
        unfold Fails at hfail
        unfold ComesValid at hcome
        refine ⟨fun k hk => (hframe' k hk).trans (hframe k hk), fun _ => ?_, ?_, ?_⟩
        · cases tries with
          | zero => exact hin
          | succ tries => rw [hin' (Nat.succ_pos _), hin, and_assoc, and_self]
        · simpa using hfail
        · simpa using hcome
    · simp only [Valid, Invalid, hnone]
      exact ⟨hframe, fun _ => hin, by simp, by simp⟩

/-! ### The loop over the extension blocks -/

variable {v count : ℕ}

theorem RoomFor.of_lt (h : count < j) : RoomFor adapter v j count := by
  intro j' hj'
  rw [Finset.Icc_eq_empty (not_le.mpr h)] at hj'
  exact absurd hj' (Finset.notMem_empty _)

theorem roomFor_of_fails (h : j ≤ count) (hf : Fails adapter j 0 4) :
    RoomFor adapter v j count ↔ v < drmMaxEdidExtNum := by
  constructor
  · intro hroom
    simpa using hroom j (Finset.mem_Icc.mpr ⟨le_rfl, h⟩) (by simp)
  · intro hv j' hj' hnot
    rcases (Finset.mem_Icc.mp hj').1.eq_or_lt with rfl | hlt
    · simpa using hv
    · exact absurd hf (hnot j (Finset.mem_Ico.mpr ⟨le_rfl, hlt⟩))

theorem roomFor_succ (h : j ≤ count) (hf : ¬ Fails adapter j 0 4) :
    RoomFor adapter v j count ↔ v < drmMaxEdidExtNum ∧
      RoomFor adapter (if ComesValid adapter j 0 4 then v + 1 else v) (j + 1) count := by
  have hcard : ∀ j', j < j' → v + ((Finset.Ico j j').filter fun k => ComesValid adapter k 0 4).card =
      (if ComesValid adapter j 0 4 then v + 1 else v) +
        ((Finset.Ico (j + 1) j').filter fun k => ComesValid adapter k 0 4).card := by
    intro j' hlt
    rw [← Finset.insert_Ico_succ_left_eq_Ico hlt, Finset.filter_insert]
    split
    · rw [Finset.card_insert_of_notMem (by simp)]
      simp only [Order.succ_eq_add_one]
      omega
    · rfl
  constructor
  · intro hroom
    refine ⟨by simpa using hroom j (Finset.mem_Icc.mpr ⟨le_rfl, h⟩) (by simp), ?_⟩
    intro j' hj' hnot
    obtain ⟨hlt, hle⟩ := Finset.mem_Icc.mp hj'
    rw [← hcard j' hlt]
    refine hroom j' (Finset.mem_Icc.mpr ⟨by omega, hle⟩) fun k hk => ?_
    obtain ⟨hjk, hkj⟩ := Finset.mem_Ico.mp hk
    rcases hjk.eq_or_lt with rfl | hjk
    · exact hf
    · exact hnot k (Finset.mem_Ico.mpr ⟨hjk, hkj⟩)
  · rintro ⟨hv, hroom⟩ j' hj' hnot
    obtain ⟨hjle, hle⟩ := Finset.mem_Icc.mp hj'
    rcases hjle.eq_or_lt with rfl | hlt
    · simpa using hv
    · rw [hcard j' hlt]
      refine hroom j' (Finset.mem_Icc.mpr ⟨hlt, hle⟩) fun k hk => ?_
      obtain ⟨hjk, hkj⟩ := Finset.mem_Ico.mp hk
      exact hnot k (Finset.mem_Ico.mpr ⟨by omega, hkj⟩)

/-- The loop stays inside the buffer when there is room for the blocks it asks for. -/
theorem extLoop_allInside {fuel : ℕ} (hcount : (b.block 0x7e).toNat = count)
    (hfuel : j + fuel = 256) (hv : v < j) :
    AllInside edidBufSize (extLoop adapter fuel j v b).2.writes ↔
      AllInside edidBufSize b.writes ∧ RoomFor adapter v j count := by
  have hbyte : count < 256 := hcount ▸ (b.block 0x7e).toNat_lt
  induction fuel generalizing j v b with
  | zero =>
    simp only [extLoop, RoomFor.of_lt (show count < j by omega), and_true]
  | succ fuel ih =>
    unfold extLoop
    by_cases hj : j ≤ count
    · rw [if_pos (hcount.symm ▸ hj)]
      obtain ⟨hframe, hin, hfail, hcome⟩ := @extTries_spec adapter ((v + 1) * edidLength) j 0
        edidBufSize b (by omega) 4
      have hspan : (v + 1) * edidLength + edidLength ≤ edidBufSize ↔ v < drmMaxEdidExtNum := by
        unfold edidLength edidBufSize edidLength drmMaxEdidExtNum
        omega
      rw [hspan] at hin
      have hcount' := hframe 0x7e (by unfold edidLength; omega)
      revert hin hfail hcome hcount'
      generalize extTries adapter ((v + 1) * edidLength) j 4 0 b = r
      obtain ⟨res, b'⟩ := r
      intro hin hfail hcome hcount'
      cases res with
      | none =>
        rw [roomFor_of_fails hj (hfail.mp rfl)]
        exact hin (by decide)
      | some valid =>
        have hf : ¬ Fails adapter j 0 4 := fun hf => nomatch hfail.mpr hf
        have hnext : (if valid then (v + 1) % 256 else v) =
            if ComesValid adapter j 0 4 then v + 1 else v := by
          cases valid with
          | true => rw [if_pos rfl, if_pos (hcome.mp rfl), Nat.mod_eq_of_lt (by omega)]
          | false => rw [if_neg (by simp), if_neg fun h => by simpa using hcome.mpr h]
        have hlt : (if ComesValid adapter j 0 4 then v + 1 else v) < j + 1 := by
          split <;> omega
        have hrec := ih (b := b') (hcount' ▸ hcount) (by omega) hlt
        dsimp only
        rw [hnext]
        exact hrec.trans (by rw [hin (by decide), roomFor_succ hj hf, and_assoc])
    · rw [if_neg (hcount.symm ▸ hj)]
      simp only [RoomFor.of_lt (not_le.mp hj), and_true]

/-! ### The base block -/

theorem fixesHeader_write_block {k : ℕ} (b : EdidBuf) (hk : 8 ≤ k) :
    (b.blockValid 0 0).2.block k = b.block k := by
  unfold EdidBuf.blockValid
  split
  · exact if_neg fun h => absurd hk (by omega)
  · rfl

/-- The base block is in the buffer as the check of its header leaves it. -/
theorem blockValid_block (b : EdidBuf) (k : ℕ) :
    (b.blockValid 0 0).2.block k = fixedHeader 0 (b.raw 0) k := by
  unfold EdidBuf.blockValid fixedHeader
  cases fixesHeader 0 (b.raw 0) with
  | true => simp [EdidBuf.write, EdidBuf.raw]
  | false => simp [EdidBuf.raw]

theorem blockValid_allInside (h : AllInside edidBufSize b.writes) :
    AllInside edidBufSize (b.blockValid 0 0).2.writes := by
  unfold EdidBuf.blockValid
  split
  · exact EdidBuf.allInside_write.mpr ⟨h, by decide⟩
  · exact h

theorem fixedHeader_congr (h : ∀ k < edidLength, raw k = raw' k) {k : ℕ} (hk : k < edidLength) :
    fixedHeader block raw k = fixedHeader block raw' k := by
  unfold fixedHeader
  rw [fixesHeader_congr h, h k hk]

theorem baseLoop_allInside {tries : ℕ} (h : AllInside edidBufSize b.writes) :
    AllInside edidBufSize (baseLoop adapter tries i b).2.writes := by
  induction tries generalizing i b with
  | zero => exact h
  | succ tries ih =>
    have hprobe : AllInside edidBufSize (drmDoProbeDdcEdid (adapter 0 i) 0 0 b).2.writes :=
      (probeLoop_allInside (by decide)).mpr ⟨h, by decide⟩
    unfold baseLoop
    generalize drmDoProbeDdcEdid (adapter 0 i) 0 0 b = r at hprobe
    obtain ⟨ok, b'⟩ := r
    have hvalid := blockValid_allInside hprobe
    cases ok with
    | false => exact hprobe
    | true =>
      dsimp only at hvalid ⊢
      generalize b'.blockValid 0 0 = r' at hvalid
      obtain ⟨valid, b''⟩ := r'
      cases valid with
      | true => exact hvalid
      | false =>
        dsimp only
        split
        · exact hvalid
        · exact ih hvalid

/-- The loop for the base block ends at its `break` with the block that is accepted. -/
theorem baseLoop_accepted {tries : ℕ} :
    let r := baseLoop adapter tries i b
    (r.1 ≠ .accepted ∧ ∀ base, ¬ BaseAccepted adapter base i (i + tries)) ∨
      (r.1 = .accepted ∧ ∃ base, r.2.block 0x7e = base 0x7e ∧
        ∀ base', BaseAccepted adapter base' i (i + tries) ↔ base' = base) := by
  induction tries generalizing i b with
  | zero => exact .inl ⟨by simp [baseLoop], fun base => FirstAfter.not_of_le le_rfl⟩
  | succ tries ih =>
    have hlt : i < i + (tries + 1) := Nat.lt_add_of_pos_right (Nat.succ_pos _)
    have hprobe := drmDoProbeDdcEdid_answer adapter 0 0 i b
    simp only [BaseAccepted, FirstAfter.iff_or hlt]
    unfold baseLoop
    generalize drmDoProbeDdcEdid (adapter 0 i) 0 0 b = r at hprobe
    obtain ⟨ok, b'⟩ := r
    rcases hprobe with ⟨raw, hraw, rfl, hsame⟩ | ⟨hnone, rfl⟩
    · have hvalid : (b'.blockValid 0 0).1 = drmEdidBlockValid 0 raw :=
        drmEdidBlockValid_congr hsame
      have hzero : drmEdidIsZero (b'.blockValid 0 0).2.block = drmEdidIsZero (fixedHeader 0 raw) :=
        drmEdidIsZero_congr fun k hk => by
          rw [blockValid_block, fixedHeader_congr hsame hk]
      have hcount : (b'.blockValid 0 0).2.block 0x7e = raw 0x7e := by
        rw [fixesHeader_write_block b' (by decide), ← hsame 0x7e (by decide)]
        simp [EdidBuf.raw]
      simp only [Invalid, hraw, Option.any_some, Option.some.injEq]
      generalize b'.blockValid 0 0 = r' at hvalid hzero hcount
      obtain ⟨valid, b''⟩ := r'
      subst hvalid
      cases hv : drmEdidBlockValid 0 raw with
      | true =>
        refine .inr ⟨rfl, raw, hcount, fun base' => ⟨?_, ?_⟩⟩
        · rintro (⟨rfl, -⟩ | ⟨⟨h, -⟩, -⟩)
          · rfl
          · simp at h
        · rintro rfl
          exact .inl ⟨rfl, hv⟩
      | false =>
        have hnot : ∀ base, ¬(raw = base ∧ drmEdidBlockValid 0 base = true) := by
          rintro base ⟨rfl, h⟩
          simp [hv] at h
        simp only [hnot, false_or, hzero, Bool.not_false, true_and]
        by_cases hz : i = 0 ∧ drmEdidIsZero (fixedHeader 0 raw) = true
        · rw [if_pos hz]
          refine .inl ⟨by simp, fun base h => ?_⟩
          exact h.1 hz.1 hz.2
        · rw [if_neg hz]
          have hz' : (i = 0 → ¬ drmEdidIsZero (fixedHeader 0 raw) = true) ↔ True :=
            iff_true_intro fun h0 h => hz ⟨h0, h⟩
          have hrec := ih (i := i + 1) (b := b'')
          rw [Nat.add_right_comm, Nat.add_assoc] at hrec
          simpa only [BaseAccepted, Invalid, hz', true_and] using hrec
    · simp [Invalid, hnone]

/-! ### drm_do_get_edid -/

theorem extensionsFit_of_not (h : ∀ base, ¬ BaseAccepted adapter base 0 4) :
    ExtensionsFit adapter := fun base hb => absurd hb (h base)

/-- Every block is written inside the buffer exactly when no fifth extension block is asked
for after four valid ones. -/
theorem drm_do_get_edid_inside (adapter : I2cAdapter) (connector : DrmConnector)
    (kmalloc : Option (ℕ → UInt8)) :
    AllInside edidBufSize (drmDoGetEdid adapter connector kmalloc).2.1.writes ↔
      kmalloc = none ∨ ExtensionsFit adapter := by
  cases kmalloc with
  | none => simp [drmDoGetEdid]
  | some junk =>
    have hin : AllInside edidBufSize (baseLoop adapter 4 0 { block := junk }).2.writes :=
      baseLoop_allInside (by simp)
    have hbase := @baseLoop_accepted adapter 0 { block := junk } 4
    unfold drmDoGetEdid
    simp only [reduceCtorEq, false_or]
    generalize baseLoop adapter 4 0 { block := junk } = r at hin hbase
    obtain ⟨fetch, b⟩ := r
    dsimp only at hin hbase
    rcases hbase with ⟨hne, hnot⟩ | ⟨rfl, base, hcount, hbase⟩
    · have hfit := extensionsFit_of_not hnot
      cases fetch with
      | accepted => exact absurd rfl hne
      | carp => exact iff_of_true hin hfit
      | null => exact iff_of_true hin hfit
      | out => exact iff_of_true hin hfit
    · have hfit : ExtensionsFit adapter ↔ RoomFor adapter 0 1 (b.block 0x7e).toNat := by
        unfold ExtensionsFit
        simp only [hbase, forall_eq, hcount]
      rw [hfit]
      dsimp only
      split
      · rename_i hzero
        exact iff_of_true hin (RoomFor.of_lt (by simp [hzero]))
      · have hext := @extLoop_allInside adapter 1 b 0 _ 255 rfl rfl Nat.zero_lt_one
        generalize extLoop adapter 255 1 0 b = r' at hext
        obtain ⟨res, b'⟩ := r'
        refine Iff.trans ?_ (hext.trans (and_iff_right hin))
        cases res with
        | none => rfl
        | some valid =>
          dsimp only
          split
          · rw [EdidBuf.allInside_write, EdidBuf.allInside_write]
            have h127 : 127 + 1 ≤ edidBufSize := by decide
            have h126 : 0x7e + 1 ≤ edidBufSize := by decide
            simp only [h127, h126, and_true]
          · rfl

end

/-- A monitor with `count` extension blocks, all of them CEA blocks. -/
def ceaMonitor (count : UInt8) : I2cAdapter := fun block _ _ =>
  { ret := i2cXfers block
    bytes := fun k =>
      if block ≠ 0 then if k = 0 then 2 else 0
      else if k < 8 then edidHeader k
      else if k = 18 then 1 else if k = 0x7e then count else if k = 127 then 0 - (1 + count + 250)
      else 0 }

/-- Its fifth extension block is written behind the buffer. -/
theorem drm_do_get_edid_overruns : ¬ ∀ adapter connector kmalloc,
    AllInside edidBufSize (drmDoGetEdid adapter connector kmalloc).2.1.writes := by
  intro h
  have hfive := h (ceaMonitor 5) {} (some fun _ => 0)
  revert hfive
  decide +kernel

end GfxDrm.Probe
