import GfxDrm.Modes.Defs

/-! The detailed timings that SDVO encoders are told and asked (intel_sdvo.c). -/

namespace GfxDrm.Sdvo
open Modes BitField

/-- struct intel_sdvo_dtd, with the fields of part1 and part2. -/
structure SdvoDtd where
  clock : BitVec 16
  hActive : BitVec 8
  hBlank : BitVec 8
  hHigh : BitVec 8
  vActive : BitVec 8
  vBlank : BitVec 8
  vHigh : BitVec 8
  hSyncOff : BitVec 8
  hSyncWidth : BitVec 8
  vSyncOffWidth : BitVec 8
  syncOffWidthHigh : BitVec 8
  dtdFlags : BitVec 8
  sdvoFlags : BitVec 8
  vSyncOffHigh : BitVec 8
  reserved : BitVec 8
  deriving DecidableEq, Repr

def dtdFlagHsyncPositive : BitVec 8 := 1 <<< 1
def dtdFlagVsyncPositive : BitVec 8 := 1 <<< 2
def dtdFlagInterlace : BitVec 8 := 1 <<< 7

/-- What a `uint16_t` keeps. -/
def u16 (x : ℤ) : ℕ := (x % 2 ^ 16).toNat

/-- The flags of the DTD of a mode. -/
def dtdFlags (flags : BitVec 32) : BitVec 8 :=
  let dtd : BitVec 8 := 0x18
  let dtd := if flags &&& modeFlagInterlace ≠ 0 then dtd ||| dtdFlagInterlace else dtd
  let dtd := if flags &&& modeFlagPhsync ≠ 0 then dtd ||| dtdFlagHsyncPositive else dtd
  if flags &&& modeFlagPvsync ≠ 0 then dtd ||| dtdFlagVsyncPositive else dtd

/-- intel_sdvo_get_dtd_from_mode. -/
def getDtdFromMode (mode : Mode) : SdvoDtd :=
  let width := u16 mode.hdisplay
  let height := u16 mode.vdisplay
  let hBlankLen := u16 (mode.htotal - mode.hdisplay)
  let hSyncLen := u16 (mode.hsyncEnd - mode.hsyncStart)
  let vBlankLen := u16 (mode.vtotal - mode.vdisplay)
  let vSyncLen := u16 (mode.vsyncEnd - mode.vsyncStart)
  let hSyncOffset := u16 (mode.hsyncStart - mode.hdisplay)
  let vSyncOffset := u16 (mode.vsyncStart - mode.vdisplay)
  { clock := BitVec.ofInt 16 (mode.clock.tdiv 10)
    hActive := BitVec.ofNat 8 (width &&& 0xff)
    hBlank := BitVec.ofNat 8 (hBlankLen &&& 0xff)
    hHigh := BitVec.ofNat 8 (((width >>> 8) &&& 0xf) <<< 4 ||| ((hBlankLen >>> 8) &&& 0xf))
    vActive := BitVec.ofNat 8 (height &&& 0xff)
    vBlank := BitVec.ofNat 8 (vBlankLen &&& 0xff)
    vHigh := BitVec.ofNat 8 (((height >>> 8) &&& 0xf) <<< 4 ||| ((vBlankLen >>> 8) &&& 0xf))
    hSyncOff := BitVec.ofNat 8 (hSyncOffset &&& 0xff)
    hSyncWidth := BitVec.ofNat 8 (hSyncLen &&& 0xff)
    vSyncOffWidth := BitVec.ofNat 8 ((vSyncOffset &&& 0xf) <<< 4 ||| (vSyncLen &&& 0xf))
    syncOffWidthHigh := BitVec.ofNat 8
      ((hSyncOffset &&& 0x300) >>> 2 ||| (hSyncLen &&& 0x300) >>> 4 |||
        (vSyncOffset &&& 0x30) >>> 2 ||| (vSyncLen &&& 0x30) >>> 4)
    dtdFlags := dtdFlags mode.flags
    sdvoFlags := 0
    vSyncOffHigh := BitVec.ofNat 8 (vSyncOffset &&& 0xc0)
    reserved := 0 }

/-- The flags of the mode of a DTD, which had `flags` before. -/
def modeFlags (flags : BitVec 32) (dtd : BitVec 8) : BitVec 32 :=
  let flags := flags &&& ~~~(modeFlagPhsync ||| modeFlagPvsync)
  let flags := if dtd &&& dtdFlagInterlace ≠ 0 then flags ||| modeFlagInterlace else flags
  let flags := if dtd &&& dtdFlagHsyncPositive ≠ 0 then flags ||| modeFlagPhsync else flags
  if dtd &&& dtdFlagVsyncPositive ≠ 0 then flags ||| modeFlagPvsync else flags

/-- intel_sdvo_get_mode_from_dtd. -/
def getModeFromDtd (mode : Mode) (dtd : SdvoDtd) : Mode :=
  let byte (b : BitVec 8) : ℕ := b.toNat
  let hdisplay : ℤ := byte dtd.hActive + (((byte dtd.hHigh >>> 4) &&& 0xf) <<< 8 : ℕ)
  let hsyncStart := hdisplay + byte dtd.hSyncOff + ((byte dtd.syncOffWidthHigh &&& 0xc0) <<< 2 : ℕ)
  let hsyncEnd :=
    hsyncStart + byte dtd.hSyncWidth + ((byte dtd.syncOffWidthHigh &&& 0x30) <<< 4 : ℕ)
  let vdisplay : ℤ := byte dtd.vActive + (((byte dtd.vHigh >>> 4) &&& 0xf) <<< 8 : ℕ)
  let vsyncStart :=
    vdisplay + ((byte dtd.vSyncOffWidth >>> 4) &&& 0xf : ℕ) +
      ((byte dtd.syncOffWidthHigh &&& 0xc) <<< 2 : ℕ) + (byte dtd.vSyncOffHigh &&& 0xc0 : ℕ)
  let vsyncEnd :=
    vsyncStart + (byte dtd.vSyncOffWidth &&& 0xf : ℕ) +
      ((byte dtd.syncOffWidthHigh &&& 0x3) <<< 4 : ℕ)
  { mode with
    hdisplay, hsyncStart, hsyncEnd, vdisplay, vsyncStart, vsyncEnd
    htotal := hdisplay + byte dtd.hBlank + ((byte dtd.hHigh &&& 0xf) <<< 8 : ℕ)
    vtotal := vdisplay + byte dtd.vBlank + ((byte dtd.vHigh &&& 0xf) <<< 8 : ℕ)
    clock := dtd.clock.toNat * 10
    flags := modeFlags mode.flags dtd.dtdFlags }

/-! ### The numbers in the bytes -/

theorem u16_of_range {x : ℤ} (h0 : 0 ≤ x) (h : x < 2 ^ 16) : (u16 x : ℤ) = x := by
  unfold u16
  omega

theorem and_ff (x : ℕ) : x &&& 0xff = x % 256 := Nat.and_two_pow_sub_one_eq_mod x 8

theorem and_f (x : ℕ) : x &&& 0xf = x % 16 := Nat.and_two_pow_sub_one_eq_mod x 4

/-- Two bits of a number, moved down. -/
theorem two_bits (x : ℕ) {s k : ℕ} (h : k ≤ s) :
    (x &&& (2 ^ 2 - 1) <<< s) >>> k = (x / 2 ^ s % 4) <<< (s - k) := by
  rw [and_mask]
  nth_rewrite 2 [show s = (s - k) + k by omega]
  rw [Nat.shiftLeft_add, Nat.shiftLeft_shiftRight]
  rfl

/-- A number of four bits under another. -/
theorem or_four {b : ℕ} (a : ℕ) (hb : b < 16) : a <<< 4 ||| b = a * 16 + b := shift_or (k := 4) hb a

/-- Four numbers of two bits, one after the other. -/
theorem or_pairs {b c d : ℕ} (a : ℕ) (hb : b < 4) (hc : c < 4) (hd : d < 4) :
    a <<< 6 ||| b <<< 4 ||| c <<< 2 ||| d = a * 64 + b * 16 + c * 4 + d := by
  have hcd : c <<< 2 ||| d = c * 4 + d := shift_or (k := 2) hd c
  have hbcd : b <<< 4 ||| (c * 4 + d) = b * 16 + (c * 4 + d) := shift_or (k := 4) (by omega) b
  have h : a <<< 6 ||| (b * 16 + (c * 4 + d)) = a * 64 + (b * 16 + (c * 4 + d)) :=
    shift_or (k := 6) (by omega) a
  rw [Nat.or_assoc, Nat.or_assoc, hcd, hbcd]
  omega

theorem toNat_low (x : ℕ) : (BitVec.ofNat 8 (x &&& 0xff)).toNat = x % 256 := by
  rw [and_ff]
  exact Nat.mod_mod x 256

/-- Four high bits each of two numbers. -/
theorem toNat_high (x y : ℕ) :
    (BitVec.ofNat 8 (((x >>> 8) &&& 0xf) <<< 4 ||| ((y >>> 8) &&& 0xf))).toNat =
      x / 256 % 16 * 16 + y / 256 % 16 := by
  rw [and_f, and_f, or_four _ (Nat.mod_lt _ (by decide)), BitVec.toNat_ofNat]
  omega

/-- Four low bits each of two numbers. -/
theorem toNat_lows (x y : ℕ) :
    (BitVec.ofNat 8 ((x &&& 0xf) <<< 4 ||| (y &&& 0xf))).toNat = x % 16 * 16 + y % 16 := by
  rw [and_f, and_f, or_four _ (Nat.mod_lt _ (by decide)), BitVec.toNat_ofNat]
  omega

/-- Two high bits each of four numbers. -/
theorem toNat_syncHigh (x y z w : ℕ) :
    (BitVec.ofNat 8 ((x &&& 0x300) >>> 2 ||| (y &&& 0x300) >>> 4 ||| (z &&& 0x30) >>> 2 |||
      (w &&& 0x30) >>> 4)).toNat =
      x / 256 % 4 * 64 + y / 256 % 4 * 16 + z / 16 % 4 * 4 + w / 16 % 4 := by
  have hx : (x &&& 0x300) >>> 2 = (x / 256 % 4) <<< 6 := two_bits x (s := 8) (by decide)
  have hy : (y &&& 0x300) >>> 4 = (y / 256 % 4) <<< 4 := two_bits y (s := 8) (by decide)
  have hz : (z &&& 0x30) >>> 2 = (z / 16 % 4) <<< 2 := two_bits z (s := 4) (by decide)
  have hw : (w &&& 0x30) >>> 4 = w / 16 % 4 := two_bits w (s := 4) (by decide)
  rw [hx, hy, hz, or_pairs _ (by omega) (by omega) (by omega), BitVec.toNat_ofNat]
  omega

/-- Two bits of a number, where they are. -/
theorem and_two (x s : ℕ) : x &&& (2 ^ 2 - 1) <<< s = x / 2 ^ s % 4 * 2 ^ s := by
  rw [and_mask, Nat.shiftLeft_eq]
  rfl

theorem toNat_mid (x : ℕ) : (BitVec.ofNat 8 (x &&& 0xc0)).toNat = x / 64 % 4 * 64 := by
  have hmask : x &&& 0xc0 = x / 64 % 4 * 64 := and_two x 6
  rw [BitVec.toNat_ofNat]
  omega

/-- Four numbers of two bits are found again. -/
theorem pairs_parts {a b c d : ℕ} (hb : b < 4) (hc : c < 4) (hd : d < 4) :
    (a * 64 + b * 16 + c * 4 + d) / 64 = a ∧ (a * 64 + b * 16 + c * 4 + d) / 16 % 4 = b ∧
      (a * 64 + b * 16 + c * 4 + d) / 4 % 4 = c ∧ (a * 64 + b * 16 + c * 4 + d) % 4 = d := by
  omega

/-! ### Round trips -/

/-- The numbers of a DTD. -/
structure Timings where
  clock : ℕ
  hactive : ℕ
  hblank : ℕ
  hsyncOff : ℕ
  hsyncWidth : ℕ
  vactive : ℕ
  vblank : ℕ
  vsyncOff : ℕ
  vsyncWidth : ℕ

def SdvoDtd.timings (d : SdvoDtd) : Timings where
  clock := d.clock.toNat
  hactive := d.hActive.toNat + d.hHigh.toNat / 16 * 256
  hblank := d.hBlank.toNat + d.hHigh.toNat % 16 * 256
  hsyncOff := d.hSyncOff.toNat + d.syncOffWidthHigh.toNat / 64 * 256
  hsyncWidth := d.hSyncWidth.toNat + d.syncOffWidthHigh.toNat / 16 % 4 * 256
  vactive := d.vActive.toNat + d.vHigh.toNat / 16 * 256
  vblank := d.vBlank.toNat + d.vHigh.toNat % 16 * 256
  vsyncOff :=
    d.vSyncOffWidth.toNat / 16 + d.syncOffWidthHigh.toNat / 4 % 4 * 16 +
      d.vSyncOffHigh.toNat / 64 * 64
  vsyncWidth := d.vSyncOffWidth.toNat % 16 + d.syncOffWidthHigh.toNat % 4 * 16

/-- The mode of the numbers. -/
def Timings.mode (t : Timings) (mode : Mode) (flags : BitVec 32) : Mode :=
  { mode with
    clock := t.clock * 10
    hdisplay := t.hactive
    hsyncStart := t.hactive + t.hsyncOff
    hsyncEnd := t.hactive + t.hsyncOff + t.hsyncWidth
    htotal := t.hactive + t.hblank
    vdisplay := t.vactive
    vsyncStart := t.vactive + t.vsyncOff
    vsyncEnd := t.vactive + t.vsyncOff + t.vsyncWidth
    vtotal := t.vactive + t.vblank
    flags := flags }

theorem getModeFromDtd_eq (mode : Mode) (d : SdvoDtd) :
    getModeFromDtd mode d = d.timings.mode mode (modeFlags mode.flags d.dtdFlags) := by
  have h0c (x : ℕ) : x &&& 0xc = x / 4 % 4 * 4 := and_two x 2
  have h03 (x : ℕ) : x &&& 0x3 = x % 4 := Nat.and_two_pow_sub_one_eq_mod x 2
  have h30 (x : ℕ) : x &&& 0x30 = x / 16 % 4 * 16 := and_two x 4
  have hc0 (x : ℕ) : x &&& 0xc0 = x / 64 % 4 * 64 := and_two x 6
  simp only [getModeFromDtd, Timings.mode, SdvoDtd.timings, Mode.mk.injEq, h0c, h03, h30, hc0,
    and_f, true_and, and_true]
  refine ⟨?_, ?_, ?_, ?_, ?_, ?_, ?_, ?_⟩
  all_goals omega

/-- The sizes of a mode as the encoder's locals have them. -/
def sizes (mode : Mode) : Timings where
  clock := (mode.clock.tdiv 10 % 2 ^ 16).toNat
  hactive := u16 mode.hdisplay
  hblank := u16 (mode.htotal - mode.hdisplay)
  hsyncOff := u16 (mode.hsyncStart - mode.hdisplay)
  hsyncWidth := u16 (mode.hsyncEnd - mode.hsyncStart)
  vactive := u16 mode.vdisplay
  vblank := u16 (mode.vtotal - mode.vdisplay)
  vsyncOff := u16 (mode.vsyncStart - mode.vdisplay)
  vsyncWidth := u16 (mode.vsyncEnd - mode.vsyncStart)

/-- What the fields of a DTD have room for. -/
structure Timings.Fits (t : Timings) : Prop where
  clock : t.clock < 2 ^ 16
  hactive : t.hactive < 4096
  hblank : t.hblank < 4096
  hsyncOff : t.hsyncOff < 1024
  hsyncWidth : t.hsyncWidth < 1024
  vactive : t.vactive < 4096
  vblank : t.vblank < 4096
  vsyncOff : t.vsyncOff < 256
  vsyncWidth : t.vsyncWidth < 64

/-- The bytes of the numbers. -/
def Timings.dtd (t : Timings) (flags : BitVec 8) : SdvoDtd where
  clock := BitVec.ofNat 16 t.clock
  hActive := BitVec.ofNat 8 t.hactive
  hBlank := BitVec.ofNat 8 t.hblank
  hHigh := BitVec.ofNat 8 (t.hactive / 256 * 16 + t.hblank / 256)
  vActive := BitVec.ofNat 8 t.vactive
  vBlank := BitVec.ofNat 8 t.vblank
  vHigh := BitVec.ofNat 8 (t.vactive / 256 * 16 + t.vblank / 256)
  hSyncOff := BitVec.ofNat 8 t.hsyncOff
  hSyncWidth := BitVec.ofNat 8 t.hsyncWidth
  vSyncOffWidth := BitVec.ofNat 8 (t.vsyncOff % 16 * 16 + t.vsyncWidth % 16)
  syncOffWidthHigh := BitVec.ofNat 8 (t.hsyncOff / 256 * 64 + t.hsyncWidth / 256 * 16 +
    t.vsyncOff / 16 % 4 * 4 + t.vsyncWidth / 16)
  dtdFlags := flags
  sdvoFlags := 0
  vSyncOffHigh := BitVec.ofNat 8 (t.vsyncOff / 64 * 64)
  reserved := 0

variable {mode : Mode}

theorem getDtdFromMode_eq (h : (sizes mode).Fits) :
    getDtdFromMode mode = (sizes mode).dtd (dtdFlags mode.flags) := by
  obtain ⟨-, ha, hb, ho, hw, ha', hb', ho', hw'⟩ := h
  simp only [sizes] at ha hb ho hw ha' hb' ho' hw'
  simp only [getDtdFromMode, Timings.dtd, sizes, SdvoDtd.mk.injEq, and_true, true_and]
  refine ⟨?_, ?_, ?_, ?_, ?_, ?_, ?_, ?_, ?_, ?_, ?_, ?_⟩
  all_goals apply BitVec.eq_of_toNat_eq
  · rw [BitVec.toNat_ofInt, BitVec.toNat_ofNat]
    omega
  · exact toNat_low _
  · exact toNat_low _
  · rw [toNat_high, BitVec.toNat_ofNat]
    omega
  · exact toNat_low _
  · exact toNat_low _
  · rw [toNat_high, BitVec.toNat_ofNat]
    omega
  · exact toNat_low _
  · exact toNat_low _
  · rw [toNat_lows, BitVec.toNat_ofNat]
    omega
  · rw [toNat_syncHigh, BitVec.toNat_ofNat]
    omega
  · rw [toNat_mid, BitVec.toNat_ofNat]
    omega

/-- The bytes hold the numbers that fit. -/
theorem Timings.Fits.timings_dtd {t : Timings} (h : t.Fits) (flags : BitVec 8) :
    (t.dtd flags).timings = t := by
  obtain ⟨hclock, ha, hb, ho, hw, ha', hb', ho', hw'⟩ := h
  obtain ⟨clock, hactive, hblank, hsyncOff, hsyncWidth, vactive, vblank, vsyncOff, vsyncWidth⟩ := t
  simp only [Timings.dtd, SdvoDtd.timings, BitVec.toNat_ofNat, Timings.mk.injEq] at *
  -- the shared bytes do not overflow
  have hlow : (vsyncOff % 16 * 16 + vsyncWidth % 16) % 2 ^ 8 =
      vsyncOff % 16 * 16 + vsyncWidth % 16 := Nat.mod_eq_of_lt (by omega)
  have hsync : (hsyncOff / 256 * 64 + hsyncWidth / 256 * 16 + vsyncOff / 16 % 4 * 4 +
      vsyncWidth / 16) % 2 ^ 8 = hsyncOff / 256 * 64 + hsyncWidth / 256 * 16 +
        vsyncOff / 16 % 4 * 4 + vsyncWidth / 16 := Nat.mod_eq_of_lt (by omega)
  have hoff : vsyncOff / 64 * 64 % 2 ^ 8 = vsyncOff / 64 * 64 := Nat.mod_eq_of_lt (by omega)
  obtain ⟨h0, h1, h2, h3⟩ := pairs_parts (a := hsyncOff / 256) (b := hsyncWidth / 256)
    (c := vsyncOff / 16 % 4) (d := vsyncWidth / 16) (by omega) (by omega) (by omega)
  rw [hlow, hsync]
  refine ⟨?_, ?_, ?_, ?_, ?_, ?_, ?_, ?_, ?_⟩
  all_goals omega

/-- The numbers of a DTD fit. -/
theorem timings_fits (d : SdvoDtd) : d.timings.Fits := by
  refine ⟨d.clock.isLt, ?_, ?_, ?_, ?_, ?_, ?_, ?_, ?_⟩
  all_goals
    simp only [SdvoDtd.timings]
    omega

/-- The mode of numbers that fit has them. -/
theorem Timings.Fits.sizes_mode {t : Timings} (h : t.Fits) (mode : Mode) (flags : BitVec 32) :
    sizes (t.mode mode flags) = t := by
  obtain ⟨hclock, ha, hb, ho, hw, ha', hb', ho', hw'⟩ := h
  obtain ⟨clock, hactive, hblank, hsyncOff, hsyncWidth, vactive, vblank, vsyncOff, vsyncWidth⟩ := t
  have htdiv : ((clock : ℤ) * 10).tdiv 10 = clock := Int.mul_tdiv_cancel _ (by decide)
  simp only [Timings.mode, sizes, u16, Timings.mk.injEq] at *
  refine ⟨?_, ?_, ?_, ?_, ?_, ?_, ?_, ?_, ?_⟩
  all_goals omega

/-- The bytes that the encoder never sets are clear. -/
structure SdvoDtd.Clear (d : SdvoDtd) : Prop where
  sdvoFlags : d.sdvoFlags = 0
  vSyncOffHigh : d.vSyncOffHigh &&& 0x3f = 0
  reserved : d.reserved = 0

/-- The shared bytes are put together again. -/
theorem dtd_timings (d : SdvoDtd) : d.timings.dtd d.dtdFlags =
    { d with
      sdvoFlags := 0
      vSyncOffHigh := BitVec.ofNat 8 (d.vSyncOffHigh.toNat / 64 * 64)
      reserved := 0 } := by
  simp only [Timings.dtd, SdvoDtd.timings, SdvoDtd.mk.injEq, and_true, true_and]
  refine ⟨?_, ?_, ?_, ?_, ?_, ?_, ?_, ?_, ?_, ?_, ?_, ?_⟩
  all_goals
    apply BitVec.eq_of_toNat_eq
    simp only [BitVec.toNat_ofNat]
    omega

theorem dtd_timings_iff (d : SdvoDtd) (flags : BitVec 8) :
    d.timings.dtd flags = d ↔ d.Clear ∧ flags = d.dtdFlags := by
  have hoff : BitVec.ofNat 8 (d.vSyncOffHigh.toNat / 64 * 64) = d.vSyncOffHigh ↔
      d.vSyncOffHigh &&& 0x3f = 0 := by
    generalize d.vSyncOffHigh = b
    revert b
    decide
  have hdtd : d.timings.dtd flags = { d.timings.dtd d.dtdFlags with dtdFlags := flags } := rfl
  rw [hdtd, dtd_timings]
  constructor
  · intro h
    have hoffEq : BitVec.ofNat 8 (d.vSyncOffHigh.toNat / 64 * 64) = d.vSyncOffHigh :=
      congrArg SdvoDtd.vSyncOffHigh h
    exact ⟨⟨(congrArg SdvoDtd.sdvoFlags h).symm, hoff.mp hoffEq,
      (congrArg SdvoDtd.reserved h).symm⟩, congrArg SdvoDtd.dtdFlags h⟩
  · rintro ⟨⟨hsdvo, hclear, hreserved⟩, rfl⟩
    rw [hoff.mpr hclear]
    obtain ⟨⟩ := d
    cases hsdvo
    cases hreserved
    rfl

/-! ### Flags -/

theorem modeFlags_phsync (flags : BitVec 32) (dtd : BitVec 8) :
    modeFlags flags dtd &&& modeFlagPhsync =
      if dtd &&& dtdFlagHsyncPositive ≠ 0 then modeFlagPhsync else 0 := by
  simp only [modeFlags, modeFlagPhsync, modeFlagPvsync, modeFlagInterlace]
  split <;> split <;> split <;> simp [BitVec.and_or_distrib_right, BitVec.and_assoc]

theorem modeFlags_pvsync (flags : BitVec 32) (dtd : BitVec 8) :
    modeFlags flags dtd &&& modeFlagPvsync =
      if dtd &&& dtdFlagVsyncPositive ≠ 0 then modeFlagPvsync else 0 := by
  simp only [modeFlags, modeFlagPhsync, modeFlagPvsync, modeFlagInterlace]
  split <;> split <;> split <;> simp [BitVec.and_or_distrib_right, BitVec.and_assoc]

/-- The flag of before is not cleared. -/
theorem modeFlags_interlace (flags : BitVec 32) (dtd : BitVec 8) :
    modeFlags flags dtd &&& modeFlagInterlace =
      if dtd &&& dtdFlagInterlace ≠ 0 then modeFlagInterlace else flags &&& modeFlagInterlace := by
  have habsorb (x y : BitVec 32) : x &&& y ||| y = y := by
    apply BitVec.eq_of_getLsbD_eq
    intro i _
    rw [BitVec.getLsbD_or, BitVec.getLsbD_and]
    cases x.getLsbD i <;> cases y.getLsbD i <;> rfl
  simp only [modeFlags, modeFlagPhsync, modeFlagPvsync, modeFlagInterlace]
  split <;> split <;> split <;> simp [BitVec.and_or_distrib_right, BitVec.and_assoc, habsorb]

/-- A flag is there or not. -/
theorem and_flag {w : ℕ} (x : BitVec w) (k : ℕ) :
    x &&& BitVec.twoPow w k = 0 ∨ x &&& BitVec.twoPow w k = BitVec.twoPow w k := by
  rw [BitVec.and_twoPow]
  split
  · exact .inr rfl
  · exact .inl rfl

/-- The flags of the DTD by what the encoder finds in the mode's. -/
def flagByte (interlace phsync pvsync : Bool) : BitVec 8 :=
  let dtd : BitVec 8 := if interlace then 0x18 ||| dtdFlagInterlace else 0x18
  let dtd := if phsync then dtd ||| dtdFlagHsyncPositive else dtd
  if pvsync then dtd ||| dtdFlagVsyncPositive else dtd

theorem dtdFlags_eq (flags : BitVec 32) :
    dtdFlags flags = flagByte (decide (flags &&& modeFlagInterlace ≠ 0))
      (decide (flags &&& modeFlagPhsync ≠ 0)) (decide (flags &&& modeFlagPvsync ≠ 0)) := by
  simp only [dtdFlags, flagByte, decide_eq_true_eq]

theorem flagByte_bits (i h v : Bool) :
    decide (flagByte i h v &&& dtdFlagInterlace ≠ 0) = i ∧
      decide (flagByte i h v &&& dtdFlagHsyncPositive ≠ 0) = h ∧
      decide (flagByte i h v &&& dtdFlagVsyncPositive ≠ 0) = v := by
  revert i h v
  decide

/-- The bytes that the encoder makes. -/
theorem flagByte_self_iff (dtd : BitVec 8) :
    flagByte (decide (dtd &&& dtdFlagInterlace ≠ 0)) (decide (dtd &&& dtdFlagHsyncPositive ≠ 0))
      (decide (dtd &&& dtdFlagVsyncPositive ≠ 0)) = dtd ↔ dtd &&& 0x79 = 0x18 := by
  revert dtd
  decide

/-- The interlace flag that the target had is not a stale one. -/
def Fresh (flags : BitVec 32) (interlaced : Prop) : Prop :=
  flags &&& modeFlagInterlace = 0 ∨ interlaced

/-- The target gets the DTD's flags. -/
theorem dtdFlags_modeFlags {flags : BitVec 32} {dtd : BitVec 8}
    (h : Fresh flags (dtd &&& dtdFlagInterlace ≠ 0)) : dtdFlags (modeFlags flags dtd) =
      flagByte (decide (dtd &&& dtdFlagInterlace ≠ 0)) (decide (dtd &&& dtdFlagHsyncPositive ≠ 0))
        (decide (dtd &&& dtdFlagVsyncPositive ≠ 0)) := by
  have htest {c : Prop} [Decidable c] {m : BitVec 32} (hm : m ≠ 0) :
      decide ((if c then m else 0) ≠ 0) = decide c := by
    by_cases hc : c
    · rw [if_pos hc, decide_eq_true hm, decide_eq_true hc]
    · rw [if_neg hc, decide_eq_false (not_not.mpr rfl), decide_eq_false hc]
  have hclear : (if dtd &&& dtdFlagInterlace ≠ 0 then modeFlagInterlace
      else flags &&& modeFlagInterlace) =
        if dtd &&& dtdFlagInterlace ≠ 0 then modeFlagInterlace else 0 := by
    split
    case isTrue => rfl
    case isFalse hnot => exact h.resolve_right hnot
  rw [dtdFlags_eq, modeFlags_interlace, modeFlags_phsync, modeFlags_pvsync, hclear,
    htest (by decide), htest (by decide), htest (by decide)]

/-- A flag that is decoded as it was encoded. -/
theorem flag_restored {flags m : BitVec 32} {b : Prop} [Decidable b]
    (hm : flags &&& m = 0 ∨ flags &&& m = m) (hb : b ↔ flags &&& m ≠ 0) :
    (if b then m else 0) = flags &&& m := by
  by_cases h0 : flags &&& m = 0
  · rw [if_neg fun h => hb.mp h h0, h0]
  · rw [if_pos (hb.mpr h0), hm.resolve_left h0]

/-! ### The two conversions -/

/-- The modes that a DTD has room for. -/
structure InRange (mode : Mode) : Prop where
  hactive : 0 ≤ mode.hdisplay ∧ mode.hdisplay < 4096
  hblank : 0 ≤ mode.htotal - mode.hdisplay ∧ mode.htotal - mode.hdisplay < 4096
  vactive : 0 ≤ mode.vdisplay ∧ mode.vdisplay < 4096
  vblank : 0 ≤ mode.vtotal - mode.vdisplay ∧ mode.vtotal - mode.vdisplay < 4096
  hsyncOff : 0 ≤ mode.hsyncStart - mode.hdisplay ∧ mode.hsyncStart - mode.hdisplay < 1024
  hsyncWidth : 0 ≤ mode.hsyncEnd - mode.hsyncStart ∧ mode.hsyncEnd - mode.hsyncStart < 1024
  vsyncOff : 0 ≤ mode.vsyncStart - mode.vdisplay ∧ mode.vsyncStart - mode.vdisplay < 256
  vsyncWidth : 0 ≤ mode.vsyncEnd - mode.vsyncStart ∧ mode.vsyncEnd - mode.vsyncStart < 64
  clock : 0 ≤ mode.clock ∧ mode.clock < 655360 ∧ 10 ∣ mode.clock

theorem InRange.fits (h : InRange mode) : (sizes mode).Fits := by
  have hclock : (mode.clock.tdiv 10 % 2 ^ 16).toNat < 2 ^ 16 := by omega
  obtain ⟨h1, h2, h3, h4, h5, h6, h7, h8, -⟩ := h
  refine ⟨hclock, ?_, ?_, ?_, ?_, ?_, ?_, ?_, ?_⟩
  all_goals
    simp only [sizes, u16]
    omega

/-- The timings and the clock of a mode. -/
structure SameTimings (m m' : Mode) : Prop where
  clock : m.clock = m'.clock
  hdisplay : m.hdisplay = m'.hdisplay
  hsyncStart : m.hsyncStart = m'.hsyncStart
  hsyncEnd : m.hsyncEnd = m'.hsyncEnd
  htotal : m.htotal = m'.htotal
  vdisplay : m.vdisplay = m'.vdisplay
  vsyncStart : m.vsyncStart = m'.vsyncStart
  vsyncEnd : m.vsyncEnd = m'.vsyncEnd
  vtotal : m.vtotal = m'.vtotal

theorem InRange.same (h : InRange mode) (prev : Mode) (flags : BitVec 32) :
    SameTimings ((sizes mode).mode prev flags) mode := by
  have hclock : (((mode.clock.tdiv 10 % 2 ^ 16).toNat : ℕ) : ℤ) * 10 = mode.clock := by
    obtain ⟨h0, hlt, hdvd⟩ := h.clock
    rw [Int.tdiv_eq_ediv_of_nonneg h0]
    omega
  have hkeep {x n : ℤ} (hx : 0 ≤ x ∧ x < n) (hn : n ≤ 2 ^ 16) : (u16 x : ℤ) = x :=
    u16_of_range hx.1 (hx.2.trans_le hn)
  have h1 := hkeep h.hactive (by decide)
  have h2 := hkeep h.hblank (by decide)
  have h3 := hkeep h.vactive (by decide)
  have h4 := hkeep h.vblank (by decide)
  have h5 := hkeep h.hsyncOff (by decide)
  have h6 := hkeep h.hsyncWidth (by decide)
  have h7 := hkeep h.vsyncOff (by decide)
  have h8 := hkeep h.vsyncWidth (by decide)
  refine ⟨hclock, ?_, ?_, ?_, ?_, ?_, ?_, ?_, ?_⟩
  all_goals
    simp only [Timings.mode, sizes]
    omega

/-- What the decoder gives back of an encoded mode. -/
structure Restored (prev mode : Mode) : Prop where
  timings : SameTimings (getModeFromDtd prev (getDtdFromMode mode)) mode
  phsync : (getModeFromDtd prev (getDtdFromMode mode)).flags &&& modeFlagPhsync =
    mode.flags &&& modeFlagPhsync
  pvsync : (getModeFromDtd prev (getDtdFromMode mode)).flags &&& modeFlagPvsync =
    mode.flags &&& modeFlagPvsync
  interlace : Fresh prev.flags (mode.flags &&& modeFlagInterlace ≠ 0) →
    (getModeFromDtd prev (getDtdFromMode mode)).flags &&& modeFlagInterlace =
      mode.flags &&& modeFlagInterlace

theorem InRange.restored (h : InRange mode) (prev : Mode) : Restored prev mode := by
  have hmode : getModeFromDtd prev (getDtdFromMode mode) =
      (sizes mode).mode prev (modeFlags prev.flags (dtdFlags mode.flags)) := by
    rw [getModeFromDtd_eq, getDtdFromMode_eq h.fits, h.fits.timings_dtd]
    rfl
  have hflags : (getModeFromDtd prev (getDtdFromMode mode)).flags =
      modeFlags prev.flags (dtdFlags mode.flags) := congrArg Mode.flags hmode
  obtain ⟨hi, hh, hv⟩ := flagByte_bits (decide (mode.flags &&& modeFlagInterlace ≠ 0))
    (decide (mode.flags &&& modeFlagPhsync ≠ 0)) (decide (mode.flags &&& modeFlagPvsync ≠ 0))
  rw [← dtdFlags_eq, decide_eq_decide] at hi hh hv
  refine ⟨hmode ▸ h.same prev _, ?_, ?_, fun hfresh => ?_⟩
  · rw [hflags, modeFlags_phsync]
    exact flag_restored (and_flag _ 0) hh
  · rw [hflags, modeFlags_pvsync]
    exact flag_restored (and_flag _ 2) hv
  · rw [hflags, modeFlags_interlace]
    by_cases hset : mode.flags &&& modeFlagInterlace ≠ 0
    · rw [if_pos (hi.mpr hset)]
      exact ((and_flag mode.flags 4).resolve_left hset).symm
    · rw [if_neg (mt hi.mp hset), hfresh.resolve_right hset, not_not.mp hset]

theorem getDtdFromMode_getModeFromDtd_iff {prev : Mode} {d : SdvoDtd}
    (h : Fresh prev.flags (d.dtdFlags &&& dtdFlagInterlace ≠ 0)) :
    getDtdFromMode (getModeFromDtd prev d) = d ↔ d.Clear ∧ d.dtdFlags &&& 0x79 = 0x18 := by
  have hfits := timings_fits d
  have hsizes := hfits.sizes_mode prev (modeFlags prev.flags d.dtdFlags)
  have hdtd : getDtdFromMode (getModeFromDtd prev d) =
      d.timings.dtd (dtdFlags (modeFlags prev.flags d.dtdFlags)) := by
    rw [getModeFromDtd_eq, getDtdFromMode_eq (hsizes.symm ▸ hfits), hsizes]
    rfl
  rw [hdtd, dtd_timings_iff, dtdFlags_modeFlags h, flagByte_self_iff]

/-- Both round trips, but for an interlace flag that the target of the decoder had before. -/
theorem sdvo_dtd_round_trips :
    (∀ prev mode : Mode, InRange mode → Restored prev mode) ∧
      ∀ (prev : Mode) (d : SdvoDtd), Fresh prev.flags (d.dtdFlags &&& dtdFlagInterlace ≠ 0) →
        (getDtdFromMode (getModeFromDtd prev d) = d ↔ d.Clear ∧ d.dtdFlags &&& 0x79 = 0x18) :=
  ⟨fun prev _ h => h.restored prev, fun _ _ h => getDtdFromMode_getModeFromDtd_iff h⟩

/-- 1920x1080 at 60 Hz. -/
def mode1080 : Mode :=
  { clock := 148500, hdisplay := 1920, hsyncStart := 2008, hsyncEnd := 2052, htotal := 2200,
    vdisplay := 1080, vsyncStart := 1084, vsyncEnd := 1089, vtotal := 1125, flags := 5 }

theorem sdvo_dtd_round_trips_1080 : Restored {} mode1080 :=
  sdvo_dtd_round_trips.1 {} mode1080 ⟨by decide, by decide, by decide, by decide, by decide,
    by decide, by decide, by decide, by decide⟩

/-- A DTD of zeros says composite sync, which the encoder never does. -/
theorem sdvo_dtd_zero_changed :
    ¬∀ (prev : Mode) (d : SdvoDtd), d.reserved = 0 → d.sdvoFlags = 0 →
      d.vSyncOffHigh &&& 0x3f = 0 → getDtdFromMode (getModeFromDtd prev d) = d := by
  intro h
  have hflags := congrArg SdvoDtd.dtdFlags
    (h {} ⟨0, 0, 0, 0, 0, 0, 0, 0, 0, 0, 0, 0, 0, 0, 0⟩ rfl rfl rfl)
  exact absurd hflags (by decide)

end GfxDrm.Sdvo
