import GfxDrm.Lib.Word
import Mathlib.Data.BitVec

/-! Display modes and framebuffers, as mode setting compares them (drm_modes.c). -/

namespace GfxDrm

/-- What of struct drm_display_mode is compared, and its name. -/
structure DrmDisplayMode where
  name : String := ""
  clock : ℕ := 0
  hdisplay : ℕ := 0
  hsyncStart : ℕ := 0
  hsyncEnd : ℕ := 0
  htotal : ℕ := 0
  hskew : ℕ := 0
  vdisplay : ℕ := 0
  vsyncStart : ℕ := 0
  vsyncEnd : ℕ := 0
  vtotal : ℕ := 0
  vscan : ℕ := 0
  flags : ℕ := 0
  deriving DecidableEq, Repr

def khz2picos (a : ℕ) : ℕ := 1000000000 / a

/-- drm_mode_equal_no_clocks. -/
def drmModeEqualNoClocks (mode1 mode2 : DrmDisplayMode) : Bool :=
  mode1.hdisplay == mode2.hdisplay && mode1.hsyncStart == mode2.hsyncStart &&
    mode1.hsyncEnd == mode2.hsyncEnd && mode1.htotal == mode2.htotal &&
    mode1.hskew == mode2.hskew && mode1.vdisplay == mode2.vdisplay &&
    mode1.vsyncStart == mode2.vsyncStart && mode1.vsyncEnd == mode2.vsyncEnd &&
    mode1.vtotal == mode2.vtotal && mode1.vscan == mode2.vscan && mode1.flags == mode2.flags

/-- drm_mode_equal. -/
def drmModeEqual (mode1 mode2 : DrmDisplayMode) : Bool :=
  if mode1.clock ≠ 0 ∧ mode2.clock ≠ 0 then
    khz2picos mode1.clock == khz2picos mode2.clock && drmModeEqualNoClocks mode1 mode2
  else mode1.clock == mode2.clock && drmModeEqualNoClocks mode1 mode2

/-- A framebuffer; two of them are two pointers where `id` differs. -/
structure DrmFramebuffer where
  id : ℕ
  pixelFormat : ℕ := 0
  deriving DecidableEq, Repr

end GfxDrm

/-! Display modes as they are worked out, and what is worked out from them (drm_modes.c). -/

namespace GfxDrm.Modes

open CInt

def modeFlagPhsync : BitVec 32 := 1 <<< 0
def modeFlagNhsync : BitVec 32 := 1 <<< 1
def modeFlagPvsync : BitVec 32 := 1 <<< 2
def modeFlagNvsync : BitVec 32 := 1 <<< 3
def modeFlagInterlace : BitVec 32 := 1 <<< 4
def modeFlagDblscan : BitVec 32 := 1 <<< 5

def modeTypeBuiltin : BitVec 32 := 1 <<< 0
def modeTypeCrtcC : BitVec 32 := 1 <<< 2 ||| modeTypeBuiltin
def modeTypeDriver : BitVec 32 := 1 <<< 6

/-- struct drm_display_mode, as drm_mode_create leaves it where nothing else is said. -/
structure Mode where
  name : String := ""
  type : BitVec 32 := 0
  clock : ℤ := 0
  hdisplay : ℤ := 0
  hsyncStart : ℤ := 0
  hsyncEnd : ℤ := 0
  htotal : ℤ := 0
  vdisplay : ℤ := 0
  vsyncStart : ℤ := 0
  vsyncEnd : ℤ := 0
  vtotal : ℤ := 0
  vscan : ℤ := 0
  flags : BitVec 32 := 0
  widthMm : ℤ := 0
  heightMm : ℤ := 0
  vrefresh : ℤ := 0
  hsync : ℤ := 0
  deriving DecidableEq, Repr

/-- drm_mode_set_name. -/
def Mode.setName (mode : Mode) : Mode :=
  let interlaced := mode.flags &&& modeFlagInterlace ≠ 0
  { mode with
    name := toString mode.hdisplay ++ "x" ++ toString mode.vdisplay ++
      if interlaced then "i" else "" }

/-- drm_mode_hsync; none where the division traps. -/
def Mode.hsyncRate (mode : Mode) : Option ℤ :=
  if mode.hsync ≠ 0 then some mode.hsync
  else if mode.htotal < 0 then some 0
  else if mode.htotal = 0 then none
  else some (i32 (u32 (u32 ((i32 (mode.clock * 1000)).tdiv mode.htotal) + 500) / 1000))

/-- drm_mode_vrefresh. -/
def Mode.refresh (mode : Mode) : Option ℤ :=
  if 0 < mode.vrefresh then some mode.vrefresh
  else if 0 < mode.htotal ∧ 0 < mode.vtotal then do
    let calcVal ← udiv (i32 (mode.clock * 1000)) mode.htotal
    let refresh ← udiv (calcVal + mode.vtotal.tdiv 2) mode.vtotal
    let refresh := i32 refresh
    let refresh := if mode.flags &&& modeFlagInterlace ≠ 0 then i32 (refresh * 2) else refresh
    let refresh := if mode.flags &&& modeFlagDblscan ≠ 0 then refresh.tdiv 2 else refresh
    some (if 1 < mode.vscan then refresh.tdiv mode.vscan else refresh)
  else some 0

/-- The crtc_ fields of a mode. -/
structure CrtcTimings where
  hdisplay : ℤ
  hsyncStart : ℤ
  hsyncEnd : ℤ
  htotal : ℤ
  vdisplay : ℤ
  vsyncStart : ℤ
  vsyncEnd : ℤ
  vtotal : ℤ
  vblankStart : ℤ
  vblankEnd : ℤ
  hblankStart : ℤ
  hblankEnd : ℤ
  deriving DecidableEq, Repr

/-- CRTC_INTERLACE_HALVE_V. -/
def crtcInterlaceHalveV : BitVec 32 := 1

/-- What drm_mode_set_crtcinfo makes of a vertical field. -/
def Mode.crtcLines (p : Mode) (adjustFlags : BitVec 32) (v : ℤ) : ℤ :=
  let v :=
    if p.flags &&& modeFlagInterlace ≠ 0 ∧ adjustFlags &&& crtcInterlaceHalveV ≠ 0 then v.tdiv 2
    else v
  let v := if p.flags &&& modeFlagDblscan ≠ 0 then i32 (v * 2) else v
  if 1 < p.vscan then i32 (v * p.vscan) else v

/-- drm_mode_set_crtcinfo, of a mode that is not built in. -/
def Mode.setCrtcinfo (p : Mode) (adjustFlags : BitVec 32) : CrtcTimings :=
  let lines := p.crtcLines adjustFlags
  { hdisplay := p.hdisplay
    hsyncStart := p.hsyncStart
    hsyncEnd := p.hsyncEnd
    htotal := p.htotal
    vdisplay := lines p.vdisplay
    vsyncStart := lines p.vsyncStart
    vsyncEnd := lines p.vsyncEnd
    vtotal := lines p.vtotal
    vblankStart := min (lines p.vsyncStart) (lines p.vdisplay)
    vblankEnd := max (lines p.vsyncEnd) (lines p.vtotal)
    hblankStart := min p.hsyncStart p.hdisplay
    hblankEnd := max p.hsyncEnd p.htotal }

/-- The order that a mode's timings have to have. -/
structure Mode.Ordered (m : Mode) : Prop where
  hdisplay_le : m.hdisplay ≤ m.hsyncStart
  hsync_le : m.hsyncStart ≤ m.hsyncEnd
  hsyncEnd_le : m.hsyncEnd ≤ m.htotal
  htotal_pos : 0 < m.htotal
  vdisplay_le : m.vdisplay ≤ m.vsyncStart
  vsync_le : m.vsyncStart ≤ m.vsyncEnd
  vsyncEnd_le : m.vsyncEnd ≤ m.vtotal
  vtotal_pos : 0 < m.vtotal

end GfxDrm.Modes
