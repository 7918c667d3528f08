import GfxDrm.Modes.Defs

/-! Modelines by the CVT standard, in integers (drm_cvt_mode). -/

namespace GfxDrm.Modes

open CInt

/-- HV_FACTOR. -/
def hvFactor : ℤ := 1000

def cvtMarginPercentage : ℤ := 18
def cvtHGranularity : ℤ := 8
def cvtMinVPorch : ℤ := 3
def cvtMinVBporch : ℤ := 6
def cvtClockStep : ℤ := 250
def cvtMinVsyncBp : ℤ := 550
def cvtHsyncPercentage : ℤ := 8
def cvtMPrime : ℤ := 300
def cvtCPrime : ℤ := 30
def cvtRbMinVblank : ℤ := 460
def cvtRbHSync : ℤ := 32
def cvtRbHBlank : ℤ := 160
def cvtRbVfporch : ℤ := 3

/-- The vsync width by the aspect ratio. -/
def cvtVsync (hdisplay vdisplay : ℤ) : ℤ :=
  if vdisplay.tmod 3 = 0 ∧ (i32 (vdisplay * 4)).tdiv 3 = hdisplay then 4
  else if vdisplay.tmod 9 = 0 ∧ (i32 (vdisplay * 16)).tdiv 9 = hdisplay then 5
  else if vdisplay.tmod 10 = 0 ∧ (i32 (vdisplay * 16)).tdiv 10 = hdisplay then 6
  else if vdisplay.tmod 4 = 0 ∧ (i32 (vdisplay * 5)).tdiv 4 = hdisplay then 7
  else if vdisplay.tmod 9 = 0 ∧ (i32 (vdisplay * 15)).tdiv 9 = hdisplay then 7
  else 10

theorem cvtVsync_bounds (hdisplay vdisplay : ℤ) :
    4 ≤ cvtVsync hdisplay vdisplay ∧ cvtVsync hdisplay vdisplay ≤ 10 := by
  unfold cvtVsync
  split_ifs <;> decide

/-- What both branches of drm_cvt_mode start from; `lines` is `vdisplay_rnd + 2 * vmargin`. -/
structure CvtInput where
  hdisplay : ℤ
  vdisplay : ℤ
  lines : ℤ
  vsync : ℤ
  vfieldrate : ℤ
  interlace : ℤ
  deriving DecidableEq, Repr

namespace CvtInput

variable (i : CvtInput)

/-! ### Blanking as in GTF -/

/-- The estimated horizontal period; none where the division traps. -/
def hperiod : Option ℤ :=
  let tmp1 := i32 (u32 (hvFactor * 1000000 - u32 (cvtMinVsyncBp * hvFactor * i.vfieldrate)))
  let tmp2 := i32 ((i.lines + cvtMinVPorch) * 2 + i.interlace)
  udiv (i32 (tmp1 * 2)) (u32 tmp2 * i.vfieldrate)

/-- The lines of the sync and the back porch. -/
def vsyncandbackPorch (hperiod : ℤ) : Option ℤ :=
  (udiv (cvtMinVsyncBp * hvFactor) hperiod).map fun quot =>
    let tmp1 := i32 (u32 (quot + 1))
    if tmp1 < i.vsync + cvtMinVPorch then i.vsync + cvtMinVPorch else tmp1

/-- The ideal blanking duty cycle, of at least 20 percent. -/
def hblankPercentage (hperiod : ℤ) : ℤ :=
  let percentage := u32 (cvtCPrime * hvFactor - u32 (cvtMPrime * hperiod) / 1000)
  if percentage < 20 * hvFactor then 20 * hvFactor else percentage

/-- The blanking time in pixels. -/
def hblank (hperiod : ℤ) : Option ℤ :=
  let percentage := hblankPercentage hperiod
  (udiv (u32 i.hdisplay * percentage) (100 * hvFactor - percentage)).map fun quot =>
    let hblank := i32 quot
    hblank - hblank.tmod (2 * cvtHGranularity)

def times (hblank vsyncandbackPorch : ℤ) : Mode :=
  let htotal := i32 (i.hdisplay + hblank)
  let hsyncEnd := i32 (i.hdisplay + hblank.tdiv 2)
  let hsyncStart := i32 (hsyncEnd - (i32 (htotal * cvtHsyncPercentage)).tdiv 100)
  { hdisplay := i.hdisplay
    hsyncStart := i32 (hsyncStart + (cvtHGranularity - hsyncStart.tmod cvtHGranularity))
    hsyncEnd := hsyncEnd
    htotal := htotal
    vdisplay := i.vdisplay
    vsyncStart := i32 (i.vdisplay + cvtMinVPorch)
    vsyncEnd := i32 (i.vdisplay + cvtMinVPorch + i.vsync)
    vtotal := i32 (i.lines + vsyncandbackPorch + cvtMinVPorch) }

/-- The branch without `reduced`: the timings and the horizontal period. -/
def blanking : Option (Mode × ℤ) := do
  let hperiod ← i.hperiod
  let vsyncandbackPorch ← i.vsyncandbackPorch hperiod
  let hblank ← i.hblank hperiod
  some (i.times hblank vsyncandbackPorch, hperiod)

/-! ### Reduced blanking -/

def rbHperiod : Option ℤ :=
  let tmp1 := i32 (u32 (hvFactor * 1000000 - u32 (cvtRbMinVblank * hvFactor * i.vfieldrate)))
  udiv tmp1 (u32 i.lines * i.vfieldrate)

/-- The lines of the vertical blanking. -/
def vbilines (hperiod : ℤ) : Option ℤ :=
  (udiv (cvtRbMinVblank * hvFactor) hperiod).map fun quot =>
    let vbilines := i32 (u32 (quot + 1))
    let least := cvtRbVfporch + i.vsync + cvtMinVBporch
    if vbilines < least then least else vbilines

def rbTimes (vbilines : ℤ) : Mode where
  hdisplay := i.hdisplay
  hsyncStart := i32 (i.hdisplay + cvtRbHBlank.tdiv 2 - cvtRbHSync)
  hsyncEnd := i32 (i.hdisplay + cvtRbHBlank.tdiv 2)
  htotal := i32 (i.hdisplay + cvtRbHBlank)
  vdisplay := i.vdisplay
  vsyncStart := i32 (i.vdisplay + cvtRbVfporch)
  vsyncEnd := i32 (i.vdisplay + cvtRbVfporch + i.vsync)
  vtotal := i32 (i.lines + vbilines)

/-- The branch with `reduced`. -/
def reducedBlanking : Option (Mode × ℤ) := do
  let hperiod ← i.rbHperiod
  let vbilines ← i.vbilines hperiod
  some (i.rbTimes vbilines, hperiod)

end CvtInput

/-- The sizes and rates from the arguments of drm_cvt_mode. -/
def cvtInput (hdisplay vdisplay vrefresh : ℤ) (interlaced margins : Bool) : CvtInput :=
  let vrefresh := if vrefresh = 0 then 60 else vrefresh
  let hdisplayRnd := hdisplay - hdisplay.tmod cvtHGranularity
  let hmargin := if margins then (i32 (hdisplayRnd * cvtMarginPercentage)).tdiv 1000 else 0
  let hmargin := hmargin - hmargin.tmod cvtHGranularity
  let vdisplayRnd := if interlaced then vdisplay.tdiv 2 else vdisplay
  let vmargin := if margins then (i32 (vdisplayRnd * cvtMarginPercentage)).tdiv 1000 else 0
  { hdisplay := i32 (hdisplayRnd + 2 * hmargin)
    vdisplay := i32 (vdisplay + 2 * vmargin)
    lines := i32 (vdisplayRnd + 2 * vmargin)
    vsync := cvtVsync hdisplay vdisplay
    vfieldrate := u32 (if interlaced then i32 (vrefresh * 2) else vrefresh)
    interlace := if interlaced then 1 else 0 }

/-- What drm_cvt_mode does once it has the timings: the clock, the flags and the name. -/
def cvtFinish (reduced interlaced : Bool) (mode : Mode) (hperiod : ℤ) : Option Mode :=
  (udiv (i32 (i32 (mode.htotal * hvFactor) * 1000)) hperiod).map fun quot =>
    let clock := i32 quot
    let mode := { mode with clock := clock - clock.tmod cvtClockStep }
    let mode :=
      if interlaced then
        { mode with vtotal := i32 (mode.vtotal * 2), flags := mode.flags ||| modeFlagInterlace }
      else mode
    let mode := mode.setName
    { mode with
      flags := mode.flags |||
        if reduced then modeFlagPhsync ||| modeFlagNvsync else modeFlagPvsync ||| modeFlagNhsync }

/-- drm_cvt_mode, once the mode is allocated; none where a division traps. -/
def drmCvtMode (hdisplay vdisplay vrefresh : ℤ) (reduced interlaced margins : Bool) :
    Option Mode := do
  let i := cvtInput hdisplay vdisplay vrefresh interlaced margins
  let (mode, hperiod) ← if reduced then i.reducedBlanking else i.blanking
  cvtFinish reduced interlaced mode hperiod

end GfxDrm.Modes
