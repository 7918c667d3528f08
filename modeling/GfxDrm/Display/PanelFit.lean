import GfxDrm.Modes.Defs
import Mathlib.Algebra.Order.Ring.Int
import Mathlib.Algebra.Order.Group.Abs

/-! A mode on a panel of another size (intel_panel.c). -/

namespace GfxDrm.Display
open CInt Modes

def drmModeScaleFullscreen : ℤ := 1
def drmModeScaleCenter : ℤ := 2
def drmModeScaleAspect : ℤ := 3

/-- The window of the panel that the mode is shown in. -/
structure PanelWindow where
  x : ℤ
  y : ℤ
  width : ℤ
  height : ℤ
  deriving DecidableEq, Repr

/-- The field pch_pfit of a pipe's configuration. -/
structure PchPfit where
  pos : BitVec 32 := 0
  size : BitVec 32 := 0
  deriving DecidableEq, Repr

/-- Native modes do not need fitting. -/
def Native (mode panel : Mode) : Prop :=
  panel.hdisplay = mode.hdisplay ∧ panel.vdisplay = mode.vdisplay

instance (mode panel : Mode) : Decidable (Native mode panel) :=
  inferInstanceAs (Decidable (_ ∧ _))

def scaledWidth (mode panel : Mode) : ℤ := u32 (panel.hdisplay * mode.vdisplay)

def scaledHeight (mode panel : Mode) : ℤ := u32 (mode.hdisplay * panel.vdisplay)

/-- `if (width & 1) width++`. -/
def makeEven (width : ℤ) : ℤ := if width % 2 = 1 then i32 (width + 1) else width

/-- `(size - width + 1) / 2` on `int`. -/
def halfBorder (size width : ℤ) : ℤ := (i32 (size - width + 1)).tdiv 2

/-- The window of the aspect mode; none where a division traps. -/
def aspectWindow (mode panel : Mode) : Option PanelWindow :=
  if scaledHeight mode panel < scaledWidth mode panel then do -- pillar
    let width := makeEven (i32 (← udiv (scaledHeight mode panel) mode.vdisplay))
    some { x := halfBorder panel.hdisplay width, y := 0, width, height := panel.vdisplay }
  else if scaledWidth mode panel < scaledHeight mode panel then do -- letter
    let height := makeEven (i32 (← udiv (scaledWidth mode panel) mode.hdisplay))
    some { x := 0, y := halfBorder panel.vdisplay height, width := panel.hdisplay, height }
  else some { x := 0, y := 0, width := panel.hdisplay, height := panel.vdisplay }

/-- The window, or none within for a fitting mode that it does not know. -/
def pchWindow (mode panel : Mode) (fittingMode : ℤ) : Option (Option PanelWindow) :=
  if Native mode panel then some (some { x := 0, y := 0, width := 0, height := 0 })
  else if fittingMode = drmModeScaleCenter then
    some (some {
      x := halfBorder panel.hdisplay mode.hdisplay
      y := halfBorder panel.vdisplay mode.vdisplay
      width := mode.hdisplay
      height := mode.vdisplay })
  else if fittingMode = drmModeScaleAspect then (aspectWindow mode panel).map some
  else if fittingMode = drmModeScaleFullscreen then
    some (some { x := 0, y := 0, width := panel.hdisplay, height := panel.vdisplay })
  else some none

/-- `(hi << 16) | lo`. -/
def packPair (hi lo : ℤ) : BitVec 32 := BitVec.ofInt 32 hi <<< 16 ||| BitVec.ofInt 32 lo

/-- The registers of a window. -/
def PanelWindow.pfit (w : PanelWindow) : PchPfit where
  pos := packPair w.x w.y
  size := packPair w.width w.height

def intelPchPanelFitting (mode panel : Mode) (fittingMode : ℤ) (pfit : PchPfit) :
    Option PchPfit := do
  match ← pchWindow mode panel fittingMode with
  | none => some pfit
  | some w => some w.pfit

/-! ### The window -/

/-- Sizes from 1 to 65535. -/
structure Sized (m : Mode) : Prop where
  h : 1 ≤ m.hdisplay ∧ m.hdisplay ≤ 65535
  v : 1 ≤ m.vdisplay ∧ m.vdisplay ≤ 65535

/-- The window lies in the panel, its two borders differ by at most one pixel, and the registers
hold it. -/
structure PanelWindow.Fits (panel : Mode) (w : PanelWindow) : Prop where
  nonneg : 0 ≤ w.x ∧ 0 ≤ w.y ∧ 0 ≤ w.width ∧ 0 ≤ w.height
  inside : w.x + w.width ≤ panel.hdisplay ∧ w.y + w.height ≤ panel.vdisplay
  centred : |panel.hdisplay - w.width - 2 * w.x| ≤ 1 ∧ |panel.vdisplay - w.height - 2 * w.y| ≤ 1
  pos : (w.pfit.pos.toNat : ℤ) = w.x * 2 ^ 16 + w.y
  size : (w.pfit.size.toNat : ℤ) = w.width * 2 ^ 16 + w.height

/-- One direction is filled and the other is the exact length up to one pixel. -/
def PanelWindow.KeepsAspect (mode panel : Mode) (w : PanelWindow) : Prop :=
  w.height = panel.vdisplay ∧
      |w.width * mode.vdisplay - mode.hdisplay * panel.vdisplay| ≤ mode.vdisplay ∨
    w.width = panel.hdisplay ∧
      |w.height * mode.hdisplay - panel.hdisplay * mode.vdisplay| ≤ mode.hdisplay

theorem packPair_toNat {hi lo : ℤ} (hh : 0 ≤ hi) (hhi : hi ≤ 65535) (hl : 0 ≤ lo)
    (hlo : lo ≤ 65535) : ((packPair hi lo).toNat : ℤ) = hi * 2 ^ 16 + lo := by
  obtain ⟨a, rfl⟩ := Int.eq_ofNat_of_zero_le hh
  obtain ⟨b, rfl⟩ := Int.eq_ofNat_of_zero_le hl
  have hb : b < 2 ^ 16 := by omega
  have hshift : a <<< 16 < 2 ^ 32 := by
    omega
  have hA : (BitVec.ofInt 32 a <<< 16).toNat = a <<< 16 := by
    rw [BitVec.toNat_shiftLeft, BitVec.ofInt_natCast, BitVec.toNat_ofNat,
      Nat.mod_eq_of_lt (show a < 2 ^ 32 by omega)]
    exact Nat.mod_eq_of_lt hshift
  have hB : (BitVec.ofInt 32 b).toNat = b := by
    rw [BitVec.ofInt_natCast]
    exact Nat.mod_eq_of_lt (by omega)
  rw [packPair, BitVec.toNat_or, hA, hB, BitField.shift_or hb]
  rfl

section Window
variable {mode panel : Mode} {fittingMode : ℤ}

theorem halfBorder_eq {size width : ℤ} (hs : 0 ≤ size) (hs' : size ≤ 65535) (hw : 0 ≤ width)
    (hw' : width ≤ 65535) : halfBorder size width = (size - width + 1).tdiv 2 := by
  rw [halfBorder, i32_of_range (by omega) (by omega)]

/-- A length that is no longer than the panel stays in it between its borders. -/
theorem halfBorder_inside {size width : ℤ} (hs : size ≤ 65535) (hw : 0 ≤ width)
    (hle : width ≤ size) :
    0 ≤ halfBorder size width ∧ halfBorder size width + width ≤ size ∧
      |size - width - 2 * halfBorder size width| ≤ 1 := by
  rw [halfBorder_eq (by omega) hs hw (by omega), Int.tdiv_eq_ediv_of_nonneg (by omega), abs_le]
  omega

theorem PanelWindow.Fits.of_le {w : PanelWindow} (hp : Sized panel)
    (hw : 0 ≤ w.width ∧ w.width ≤ panel.hdisplay) (hh : 0 ≤ w.height ∧ w.height ≤ panel.vdisplay)
    (hx : w.x = halfBorder panel.hdisplay w.width)
    (hy : w.y = halfBorder panel.vdisplay w.height) : w.Fits panel := by
  have h := halfBorder_inside hp.h.2 hw.1 hw.2
  have v := halfBorder_inside hp.v.2 hh.1 hh.2
  rw [← hx] at h
  rw [← hy] at v
  have hph := hp.h.2
  have hpv := hp.v.2
  refine ⟨⟨h.1, v.1, hw.1, hh.1⟩, ⟨h.2.1, v.2.1⟩, ⟨h.2.2, v.2.2⟩, ?_, ?_⟩
  · exact packPair_toNat h.1 (by omega) v.1 (by omega)
  · exact packPair_toNat hw.1 (by omega) hh.1 (by omega)

theorem halfBorder_self (size : ℤ) : halfBorder size size = 0 := by
  rw [halfBorder, Int.sub_self]
  rfl

theorem product_range {a b : ℤ} (ha : 1 ≤ a ∧ a ≤ 65535) (hb : 1 ≤ b ∧ b ≤ 65535) :
    0 < a * b ∧ a * b < 0x100000000 := by
  have hpos : 0 < a * b := Int.mul_pos (by omega) (by omega)
  have hle : a * b ≤ 65535 * 65535 := Int.mul_le_mul ha.2 hb.2 (by omega) (by omega)
  exact ⟨hpos, by omega⟩

theorem scaledWidth_eq (hm : Sized mode) (hp : Sized panel) :
    scaledWidth mode panel = panel.hdisplay * mode.vdisplay := by
  have h := product_range hp.h hm.v
  exact u32_of_range h.1.le h.2

theorem scaledHeight_eq (hm : Sized mode) (hp : Sized panel) :
    scaledHeight mode panel = mode.hdisplay * panel.vdisplay := by
  have h := product_range hm.h hp.v
  exact u32_of_range h.1.le h.2

/-- The division by which a length is scaled leaves less than the size it is compared with. -/
theorem scaled_quotient {num den size : ℤ} (hnum : 0 < num) (hden : 1 ≤ den ∧ den ≤ 65535)
    (hmax : num < 0x100000000) (hsize : size ≤ 65535) (hlt : num < size * den) :
    udiv num den = some (num / den) ∧ i32 (num / den) = num / den ∧ 0 ≤ num / den ∧
      num / den < size := by
  have hq0 : 0 ≤ num / den := Int.ediv_nonneg hnum.le (by omega)
  have hqlt : num / den < size := Int.ediv_lt_of_lt_mul (by omega) hlt
  exact ⟨udiv_of_pos hnum.le hmax (by omega) (by omega), i32_of_range (by omega) (by omega), hq0,
    hqlt⟩

/-- A length that is made even, by products: it is the exact one up to one pixel, and still within
the panel where the exact one is shorter. -/
theorem makeEven_spec {num den size : ℤ} (hnum : 0 < num) (hden : 1 ≤ den ∧ den ≤ 65535)
    (hmax : num < 0x100000000) (hsize : size ≤ 65535) (hlt : num < size * den) :
    ∃ q, udiv num den = some q ∧ 0 ≤ makeEven (i32 q) ∧ makeEven (i32 q) ≤ size ∧
      |makeEven (i32 q) * den - num| ≤ den := by
  obtain ⟨hudiv, hint, hq0, hqlt⟩ := scaled_quotient hnum hden hmax hsize hlt
  refine ⟨num / den, hudiv, ?_⟩
  rw [hint]
  have hrem := Int.emod_add_mul_ediv num den
  have hr0 := Int.emod_nonneg num (show den ≠ 0 by omega)
  have hr1 := Int.emod_lt_of_pos num (show 0 < den by omega)
  have hmul : num / den * den = num - num % den := by
    rw [Int.mul_comm]
    omega
  unfold makeEven
  split
  · rw [i32_of_range (by omega) (by omega)]
    refine ⟨by omega, by omega, ?_⟩
    rw [Int.add_mul, abs_le]
    omega
  · refine ⟨hq0, hqlt.le, ?_⟩
    rw [abs_le]
    omega

theorem aspectWindow_spec (hm : Sized mode) (hp : Sized panel) :
    ∃ w, aspectWindow mode panel = some w ∧ w.Fits panel ∧ w.KeepsAspect mode panel := by
  have hW := product_range hp.h hm.v
  have hH := product_range hm.h hp.v
  have hph : 0 ≤ panel.hdisplay := Int.le_trans (by decide) hp.h.1
  have hpv : 0 ≤ panel.vdisplay := Int.le_trans (by decide) hp.v.1
  rw [aspectWindow, scaledWidth_eq hm hp, scaledHeight_eq hm hp]
  by_cases hpillar : mode.hdisplay * panel.vdisplay < panel.hdisplay * mode.vdisplay
  · obtain ⟨q, hq, h0, hle, habs⟩ := makeEven_spec hH.1 hm.v hH.2 hp.h.2 hpillar
    rw [if_pos hpillar, hq]
    refine ⟨_, rfl, ?_, Or.inl ⟨rfl, habs⟩⟩
    exact PanelWindow.Fits.of_le hp ⟨h0, hle⟩ ⟨hpv, le_rfl⟩ rfl (halfBorder_self _).symm
  rw [if_neg hpillar]
  by_cases hletter : panel.hdisplay * mode.vdisplay < mode.hdisplay * panel.vdisplay
  · obtain ⟨q, hq, h0, hle, habs⟩ := makeEven_spec hW.1 hm.h hW.2 hp.v.2 (by
      rw [Int.mul_comm panel.vdisplay]
      exact hletter)
    rw [if_pos hletter, hq]
    refine ⟨_, rfl, ?_, Or.inr ⟨rfl, habs⟩⟩
    exact PanelWindow.Fits.of_le hp ⟨hph, le_rfl⟩ ⟨h0, hle⟩ (halfBorder_self _).symm rfl
  -- The aspects match: the window is the panel.
  have heq : panel.hdisplay * mode.vdisplay = mode.hdisplay * panel.vdisplay := by omega
  rw [if_neg hletter]
  refine ⟨_, rfl, ?_, Or.inl ⟨rfl, ?_⟩⟩
  · exact PanelWindow.Fits.of_le hp ⟨hph, le_rfl⟩ ⟨hpv, le_rfl⟩ (halfBorder_self _).symm
      (halfBorder_self _).symm
  · have := hm.v
    rw [heq, Int.sub_self, abs_zero]
    omega

/-- A mode of another size than the panel's gets a window that fits, of its aspect where that is
asked for, or none for a fitting mode that is not known. -/
def PchMeets (mode panel : Mode) (fittingMode : ℤ) : Prop :=
  ∃ o, pchWindow mode panel fittingMode = some o ∧ ∀ w, o = some w → ¬ Native mode panel →
    w.Fits panel ∧ (fittingMode = drmModeScaleAspect → w.KeepsAspect mode panel)

/-- The centred mode is not larger than the panel. -/
def CentreFits (mode panel : Mode) (fittingMode : ℤ) : Prop :=
  fittingMode = drmModeScaleCenter → Native mode panel ∨
    mode.hdisplay ≤ panel.hdisplay ∧ mode.vdisplay ≤ panel.vdisplay

theorem pchMeets_iff (hm : Sized mode) (hp : Sized panel) :
    PchMeets mode panel fittingMode ↔ CentreFits mode panel fittingMode := by
  have hmh : 0 ≤ mode.hdisplay := Int.le_trans (by decide) hm.h.1
  have hmv : 0 ≤ mode.vdisplay := Int.le_trans (by decide) hm.v.1
  have hph : 0 ≤ panel.hdisplay := Int.le_trans (by decide) hp.h.1
  have hpv : 0 ≤ panel.vdisplay := Int.le_trans (by decide) hp.v.1
  unfold PchMeets CentreFits pchWindow
  by_cases hnative : Native mode panel
  · rw [if_pos hnative]
    exact iff_of_true ⟨_, rfl, fun w _ hnot => absurd hnative hnot⟩ fun _ => Or.inl hnative
  rw [if_neg hnative]
  by_cases hcentre : fittingMode = drmModeScaleCenter
  · rw [if_pos hcentre]
    constructor
    · intro hmeets _
      obtain ⟨o, ho, hfits⟩ := hmeets
      obtain ⟨hfit, -⟩ := hfits _ (Option.some.inj ho).symm hnative
      have hnonneg := hfit.nonneg
      have hinside := hfit.inside
      simp only at hnonneg hinside
      exact Or.inr ⟨by omega, by omega⟩
    · intro hle
      obtain ⟨hh, hv⟩ := (hle hcentre).resolve_left hnative
      refine ⟨_, rfl, ?_⟩
      intro w hw _
      cases hw
      refine ⟨PanelWindow.Fits.of_le hp ⟨hmh, hh⟩ ⟨hmv, hv⟩ rfl rfl, ?_⟩
      intro haspect
      rw [hcentre] at haspect
      exact absurd haspect (by decide)
  rw [if_neg hcentre]
  refine iff_of_true ?_ fun h => absurd h hcentre
  by_cases haspect : fittingMode = drmModeScaleAspect
  · obtain ⟨w, hw, hfits, hkeeps⟩ := aspectWindow_spec hm hp
    rw [if_pos haspect, hw]
    refine ⟨_, rfl, ?_⟩
    intro w' hw' _
    cases hw'
    exact ⟨hfits, fun _ => hkeeps⟩
  rw [if_neg haspect]
  by_cases hfull : fittingMode = drmModeScaleFullscreen
  · rw [if_pos hfull]
    refine ⟨_, rfl, ?_⟩
    intro w hw _
    cases hw
    refine ⟨?_, fun h => absurd h haspect⟩
    exact PanelWindow.Fits.of_le hp ⟨hph, le_rfl⟩ ⟨hpv, le_rfl⟩ (halfBorder_self _).symm
      (halfBorder_self _).symm
  · rw [if_neg hfull]
    refine ⟨_, rfl, ?_⟩
    intro w hw
    cases hw

end Window

/-! ### Timings with borders -/

/-- The crtc_ fields of one direction that the fitting moves. -/
structure CrtcAxis where
  display : ℤ
  blankStart : ℤ
  blankEnd : ℤ
  syncStart : ℤ
  syncEnd : ℤ

def horizontal (t : CrtcTimings) : CrtcAxis :=
  ⟨t.hdisplay, t.hblankStart, t.hblankEnd, t.hsyncStart, t.hsyncEnd⟩

def vertical (t : CrtcTimings) : CrtcAxis :=
  ⟨t.vdisplay, t.vblankStart, t.vblankEnd, t.vsyncStart, t.vsyncEnd⟩

/-- `(size - width + 1) / 2` as unsigned, made even where that is asked for. -/
def axisBorder (even : Bool) (size width : ℤ) : ℤ :=
  let border := u32 (halfBorder size width)
  if even then u32 (border + border % 2) else border

/-- What the two functions below have in common. -/
def centreAxis (even : Bool) (size width : ℤ) (a : CrtcAxis) : CrtcAxis :=
  let syncWidth := u32 (a.syncEnd - a.syncStart)
  let blankWidth := u32 (a.blankEnd - a.blankStart)
  let syncPos := u32 (blankWidth - syncWidth + 1) / 2
  let blankStart := i32 (width + axisBorder even size width)
  let syncStart := i32 (blankStart + syncPos)
  { display := width
    blankStart
    blankEnd := i32 (blankStart + blankWidth)
    syncStart
    syncEnd := i32 (syncStart + syncWidth) }

def centreHorizontally (panel : Mode) (width : ℤ) (t : CrtcTimings) : CrtcTimings :=
  let a := centreAxis true panel.hdisplay width (horizontal t)
  { t with
    hdisplay := a.display, hblankStart := a.blankStart, hblankEnd := a.blankEnd
    hsyncStart := a.syncStart, hsyncEnd := a.syncEnd }

def centreVertically (panel : Mode) (height : ℤ) (t : CrtcTimings) : CrtcTimings :=
  let a := centreAxis false panel.vdisplay height (vertical t)
  { t with
    vdisplay := a.display, vblankStart := a.blankStart, vblankEnd := a.blankEnd
    vsyncStart := a.syncStart, vsyncEnd := a.syncEnd }

/-- The factor is 1 << 12. -/
def panelFitterScaling (source target : ℤ) : Option (BitVec 32) := do
  let ratio ← udiv (source * 4096) target
  some (BitVec.ofInt 32 (u32 (4096 * ratio + 2048) / 4096))

def pfitEnable : BitVec 32 := 1 <<< 31
def pfitPipeShift : ℕ := 29
def vertInterpBilinear : BitVec 32 := 1 <<< 10
def vertAutoScale : BitVec 32 := 1 <<< 9
def horizInterpBilinear : BitVec 32 := 1 <<< 6
def horizAutoScale : BitVec 32 := 1 <<< 5
def panel8to6DitherEnable : BitVec 32 := 1 <<< 3
def pfitFilterFuzzy : BitVec 32 := 0 <<< 24
def pfitScalingAuto : BitVec 32 := 0 <<< 26
def pfitScalingPillar : BitVec 32 := 2 <<< 26
def pfitScalingLetter : BitVec 32 := 3 <<< 26
def pfitVertScaleShift : ℕ := 20
def pfitHorizScaleShift : ℕ := 4
def lvdsBorderEnable : BitVec 32 := 1 <<< 15

/-- The field gmch_pfit of a pipe's configuration. -/
structure GmchPfit where
  control : BitVec 32 := 0
  pgmRatios : BitVec 32 := 0
  lvdsBorderBits : BitVec 32 := 0
  deriving DecidableEq, Repr

/-- What the fitting works on: the crtc_ fields of the panel's mode and the registers. -/
structure GmchFit where
  crtc : CrtcTimings
  timingsSet : Bool
  pfit : GmchPfit
  deriving DecidableEq, Repr

/-- The bits of a picture with borders in one direction, which is scaled where its size in the
other one is not the panel's. -/
def borderedPfit (source target : ℤ) : Option GmchPfit :=
  if source ≠ target then do
    let bits ← panelFitterScaling source target
    some {
      control := pfitEnable ||| vertInterpBilinear ||| horizInterpBilinear
      pgmRatios := bits <<< pfitHorizScaleShift ||| bits <<< pfitVertScaleShift
      lvdsBorderBits := lvdsBorderEnable }
  else some { lvdsBorderBits := lvdsBorderEnable }

/-- The case of the aspect mode. -/
def gmchAspect (gen : ℕ) (mode panel : Mode) (t : CrtcTimings) :
    Option (CrtcTimings × GmchPfit) :=
  if 4 ≤ gen then
    if scaledHeight mode panel < scaledWidth mode panel then
      some (t, { control := pfitEnable ||| pfitScalingPillar })
    else if scaledWidth mode panel < scaledHeight mode panel then
      some (t, { control := pfitEnable ||| pfitScalingLetter })
    else if panel.hdisplay ≠ mode.hdisplay then
      some (t, { control := pfitEnable ||| pfitScalingAuto })
    else some (t, {})
  else if scaledHeight mode panel < scaledWidth mode panel then do -- pillar
    let width := i32 (← udiv (scaledHeight mode panel) mode.vdisplay)
    some (centreHorizontally panel width t, ← borderedPfit mode.vdisplay panel.vdisplay)
  else if scaledWidth mode panel < scaledHeight mode panel then do -- letter
    let height := i32 (← udiv (scaledWidth mode panel) mode.hdisplay)
    some (centreVertically panel height t, ← borderedPfit mode.hdisplay panel.hdisplay)
  else
    some (t, { control := pfitEnable ||| (vertAutoScale ||| horizAutoScale |||
      vertInterpBilinear ||| horizInterpBilinear) })

/-- The end of the function, from the label `out` on. -/
def gmchOut (gen : ℕ) (pipeBpp : ℤ) (p : GmchPfit) : GmchPfit :=
  let p := if p.control &&& pfitEnable = 0 then { p with control := 0, pgmRatios := 0 } else p
  if gen < 4 ∧ pipeBpp = 18 then { p with control := p.control ||| panel8to6DitherEnable } else p

/-- The crtc_ fields that drm_mode_set_crtcinfo leaves; it does nothing to a built-in mode. -/
def crtcinfo (panel : Mode) (t : CrtcTimings) : CrtcTimings :=
  if panel.type &&& modeTypeCrtcC = modeTypeBuiltin then t else panel.setCrtcinfo 0

/-- None where a division traps. -/
def intelGmchPanelFitting (gen : ℕ) (pipe : BitVec 32) (pipeBpp : ℤ) (mode panel : Mode)
    (fittingMode : ℤ) (s : GmchFit) : Option GmchFit :=
  if Native mode panel then some { s with pfit := gmchOut gen pipeBpp {} }
  else
    let t := crtcinfo panel s.crtc
    let finish (r : CrtcTimings × GmchPfit) : GmchFit :=
      let control :=
        if 4 ≤ gen then r.2.control ||| (pipe <<< pfitPipeShift ||| pfitFilterFuzzy)
        else r.2.control
      { crtc := r.1, timingsSet := true, pfit := gmchOut gen pipeBpp { r.2 with control } }
    if fittingMode = drmModeScaleCenter then
      some (finish (centreVertically panel mode.vdisplay (centreHorizontally panel mode.hdisplay t),
        { lvdsBorderBits := lvdsBorderEnable }))
    else if fittingMode = drmModeScaleAspect then (gmchAspect gen mode panel t).map finish
    else if fittingMode = drmModeScaleFullscreen then
      if mode.vdisplay ≠ panel.vdisplay ∨ mode.hdisplay ≠ panel.hdisplay then
        some (finish (t, { control := pfitEnable ||| if 4 ≤ gen then pfitScalingAuto else
          vertAutoScale ||| vertInterpBilinear ||| horizAutoScale ||| horizInterpBilinear }))
      else some (finish (t, {}))
    else some { s with crtc := t, timingsSet := true }

/-! ### The order of the timings -/

structure CrtcAxis.Ordered (a : CrtcAxis) : Prop where
  display_le : a.display ≤ a.blankStart
  blank_le : a.blankStart ≤ a.syncStart
  sync_le : a.syncStart ≤ a.syncEnd
  sync_blank : a.syncEnd ≤ a.blankEnd

/-- The widths of the blank and of the sync are those of `b`. -/
structure CrtcAxis.SameWidths (a b : CrtcAxis) : Prop where
  blank : a.blankEnd - a.blankStart = b.blankEnd - b.blankStart
  sync : a.syncEnd - a.syncStart = b.syncEnd - b.syncStart

/-- In order, from zero on and with room left in an `int`. -/
structure CrtcAxis.Sane (a : CrtcAxis) : Prop where
  ordered : a.Ordered
  nonneg : 0 ≤ a.display
  small : a.blankEnd < 0x40000000

section Axis
variable {a : CrtcAxis} {size width : ℤ}

/-- How far a picture may be larger than the panel before its border is negative. -/
def borderSlack (even : Bool) : ℤ := if even then 4 else 2

/-- `x / 2` rounds towards zero. -/
theorem tdiv_two (x : ℤ) : x.tdiv 2 = if 0 ≤ x then x / 2 else -(-x / 2) := by
  split
  · exact Int.tdiv_eq_ediv_of_nonneg ‹0 ≤ x›
  · have h : (-x).tdiv 2 = -x / 2 := Int.tdiv_eq_ediv_of_nonneg (by omega)
    rw [← h, Int.neg_tdiv, Int.neg_neg]

/-- The border is small, or it is one below zero as an unsigned number. -/
theorem axisBorder_cases (even : Bool) (hs : 1 ≤ size ∧ size ≤ 65535)
    (hw : 0 ≤ width ∧ width ≤ 65535) :
    0 ≤ axisBorder even size width ∧ axisBorder even size width < 0x10000 ∧
        width ≤ size + borderSlack even ∨
      0xffff0000 ≤ axisBorder even size width ∧ axisBorder even size width < 0x100000000 ∧
        size + borderSlack even < width := by
  unfold axisBorder
  rw [halfBorder_eq (by omega) hs.2 hw.1 hw.2, tdiv_two]
  cases even
  · simp only [borderSlack, u32, Bool.false_eq_true, if_false]
    omega
  · simp only [borderSlack, u32, if_true]
    omega

/-- The widths of a sane axis do not wrap. -/
theorem CrtcAxis.Sane.widths (h : a.Sane) :
    u32 (a.syncEnd - a.syncStart) = a.syncEnd - a.syncStart ∧
      u32 (a.blankEnd - a.blankStart) = a.blankEnd - a.blankStart ∧
      u32 (a.blankEnd - a.blankStart - (a.syncEnd - a.syncStart) + 1) =
        a.blankEnd - a.blankStart - (a.syncEnd - a.syncStart) + 1 := by
  obtain ⟨⟨h1, h2, h3, h4⟩, h5, h6⟩ := h
  exact ⟨u32_of_range (by omega) (by omega), u32_of_range (by omega) (by omega),
    u32_of_range (by omega) (by omega)⟩

/-- A centred axis is in order exactly where its border is not negative. -/
theorem centreAxis_ordered_iff (even : Bool) (h : a.Sane) (hs : 1 ≤ size ∧ size ≤ 65535)
    (hw : 0 ≤ width ∧ width ≤ 65535) :
    (centreAxis even size width a).Ordered ↔ width ≤ size + borderSlack even := by
  obtain ⟨hsync, hblank, hpos⟩ := h.widths
  obtain ⟨⟨h1, h2, h3, h4⟩, h5, h6⟩ := h
  have hb := axisBorder_cases even hs hw
  unfold centreAxis
  simp only [hsync, hblank]
  constructor
  · intro hord
    have hle := hord.display_le
    simp only [i32] at hle
    omega
  · intro hle
    constructor <;> simp only [i32] <;> omega

theorem centreAxis_sameWidths (even : Bool) (h : a.Sane) (hs : 1 ≤ size ∧ size ≤ 65535)
    (hw : 0 ≤ width ∧ width ≤ 65535) : (centreAxis even size width a).SameWidths a := by
  obtain ⟨hsync, hblank, hpos⟩ := h.widths
  obtain ⟨⟨h1, h2, h3, h4⟩, h5, h6⟩ := h
  have hb := axisBorder_cases even hs hw
  unfold centreAxis
  simp only [hsync, hblank]
  constructor <;> simp only [i32] <;> omega

end Axis

section Gmch
variable {mode panel : Mode} {fittingMode : ℤ} {gen : ℕ} {pipe : BitVec 32} {pipeBpp : ℤ}
  {s : GmchFit}

/-- The timings that the mode set goes on with: those of the fitting, or the panel's own. -/
def finalTimings (panel : Mode) (s r : GmchFit) : CrtcTimings :=
  if r.timingsSet then r.crtc else crtcinfo panel s.crtc

/-- Both directions are in order and have the widths of the panel's own. -/
structure TimingsKept (t t' : CrtcTimings) : Prop where
  hOrdered : (horizontal t').Ordered
  vOrdered : (vertical t').Ordered
  hWidths : (horizontal t').SameWidths (horizontal t)
  vWidths : (vertical t').SameWidths (vertical t)

def GmchMeets (gen : ℕ) (pipe : BitVec 32) (pipeBpp : ℤ) (mode panel : Mode) (fittingMode : ℤ)
    (s : GmchFit) : Prop :=
  ∃ r, intelGmchPanelFitting gen pipe pipeBpp mode panel fittingMode s = some r ∧
    TimingsKept (crtcinfo panel s.crtc) (finalTimings panel s r)

/-- The centred mode is not so much larger than the panel that a border is negative. -/
def CentreBorders (mode panel : Mode) (fittingMode : ℤ) : Prop :=
  fittingMode = drmModeScaleCenter → Native mode panel ∨
    mode.hdisplay ≤ panel.hdisplay + 4 ∧ mode.vdisplay ≤ panel.vdisplay + 2

theorem sameWidths_refl (a : CrtcAxis) : a.SameWidths a := ⟨rfl, rfl⟩

variable {t : CrtcTimings}

theorem timingsKept_refl (hh : (horizontal t).Sane) (hv : (vertical t).Sane) :
    TimingsKept t t :=
  ⟨hh.ordered, hv.ordered, sameWidths_refl _, sameWidths_refl _⟩

theorem centreHorizontally_kept {width : ℤ} (hh : (horizontal t).Sane) (hv : (vertical t).Sane)
    (hp : Sized panel) (hw : 0 ≤ width ∧ width ≤ panel.hdisplay) :
    TimingsKept t (centreHorizontally panel width t) := by
  have hwidth : 0 ≤ width ∧ width ≤ 65535 := ⟨hw.1, hw.2.trans hp.h.2⟩
  have hslack : width ≤ panel.hdisplay + borderSlack true := by
    simp only [borderSlack]
    omega
  exact ⟨(centreAxis_ordered_iff true hh hp.h hwidth).mpr hslack, hv.ordered,
    centreAxis_sameWidths true hh hp.h hwidth, sameWidths_refl _⟩

theorem centreVertically_kept {height : ℤ} (hh : (horizontal t).Sane) (hv : (vertical t).Sane)
    (hp : Sized panel) (hw : 0 ≤ height ∧ height ≤ panel.vdisplay) :
    TimingsKept t (centreVertically panel height t) := by
  have hheight : 0 ≤ height ∧ height ≤ 65535 := ⟨hw.1, hw.2.trans hp.v.2⟩
  have hslack : height ≤ panel.vdisplay + borderSlack false := by
    simp only [borderSlack]
    omega
  exact ⟨hh.ordered, (centreAxis_ordered_iff false hv hp.v hheight).mpr hslack,
    sameWidths_refl _, centreAxis_sameWidths false hv hp.v hheight⟩

/-- A length that is scaled by products is shorter than the panel. -/
theorem scaled_length {num den size : ℤ} (hnum : 0 < num) (hden : 1 ≤ den ∧ den ≤ 65535)
    (hmax : num < 0x100000000) (hsize : size ≤ 65535) (hlt : num < size * den) :
    ∃ q, udiv num den = some q ∧ 0 ≤ i32 q ∧ i32 q ≤ size := by
  obtain ⟨hudiv, hint, hq0, hqlt⟩ := scaled_quotient hnum hden hmax hsize hlt
  refine ⟨num / den, hudiv, ?_⟩
  rw [hint]
  exact ⟨hq0, hqlt.le⟩

theorem borderedPfit_some (source : ℤ) {target : ℤ} (ht : 1 ≤ target ∧ target ≤ 65535) :
    ∃ p, borderedPfit source target = some p := by
  unfold borderedPfit panelFitterScaling
  split
  · have hne : u32 target ≠ 0 := by
      rw [u32_of_range (by omega) (by omega)]
      omega
    rw [udiv, if_neg hne]
    exact ⟨_, rfl⟩
  · exact ⟨_, rfl⟩

theorem gmchAspect_kept (gen : ℕ) (hm : Sized mode) (hp : Sized panel) (hh : (horizontal t).Sane)
    (hv : (vertical t).Sane) :
    ∃ r, gmchAspect gen mode panel t = some r ∧ TimingsKept t r.1 := by
  have hW := product_range hp.h hm.v
  have hH := product_range hm.h hp.v
  unfold gmchAspect
  rw [scaledWidth_eq hm hp, scaledHeight_eq hm hp]
  by_cases hgen : 4 ≤ gen
  · rw [if_pos hgen]
    split_ifs
    all_goals exact ⟨_, rfl, timingsKept_refl hh hv⟩
  rw [if_neg hgen]
  by_cases hpillar : mode.hdisplay * panel.vdisplay < panel.hdisplay * mode.vdisplay
  · obtain ⟨q, hq, hrange⟩ := scaled_length hH.1 hm.v hH.2 hp.h.2 hpillar
    obtain ⟨p, hpfit⟩ := borderedPfit_some mode.vdisplay hp.v
    rw [if_pos hpillar, hq, hpfit]
    exact ⟨_, rfl, centreHorizontally_kept hh hv hp hrange⟩
  rw [if_neg hpillar]
  by_cases hletter : panel.hdisplay * mode.vdisplay < mode.hdisplay * panel.vdisplay
  · obtain ⟨q, hq, hrange⟩ := scaled_length hW.1 hm.h hW.2 hp.v.2 (by
      rw [Int.mul_comm panel.vdisplay]
      exact hletter)
    obtain ⟨p, hpfit⟩ := borderedPfit_some mode.hdisplay hp.h
    rw [if_pos hletter, hq, hpfit]
    exact ⟨_, rfl, centreVertically_kept hh hv hp hrange⟩
  · rw [if_neg hletter]
    exact ⟨_, rfl, timingsKept_refl hh hv⟩

theorem gmchMeets_iff (hm : Sized mode) (hp : Sized panel)
    (hh : (horizontal (crtcinfo panel s.crtc)).Sane) (hv : (vertical (crtcinfo panel s.crtc)).Sane)
    (hset : Native mode panel → s.timingsSet = false) :
    GmchMeets gen pipe pipeBpp mode panel fittingMode s ↔
      CentreBorders mode panel fittingMode := by
  have hmh : 0 ≤ mode.hdisplay ∧ mode.hdisplay ≤ 65535 :=
    ⟨Int.le_trans (by decide) hm.h.1, hm.h.2⟩
  have hmv : 0 ≤ mode.vdisplay ∧ mode.vdisplay ≤ 65535 :=
    ⟨Int.le_trans (by decide) hm.v.1, hm.v.2⟩
  unfold GmchMeets CentreBorders intelGmchPanelFitting
  by_cases hnative : Native mode panel
  · rw [if_pos hnative]
    refine iff_of_true ⟨_, rfl, ?_⟩ fun _ => Or.inl hnative
    rw [hset hnative]
    exact timingsKept_refl hh hv
  rw [if_neg hnative]
  by_cases hcentre : fittingMode = drmModeScaleCenter
  · simp only [if_pos hcentre]
    have hhiff := centreAxis_ordered_iff true hh hp.h hmh
    have hviff := centreAxis_ordered_iff false hv hp.v hmv
    constructor
    · intro hmeets _
      obtain ⟨r, hr, hkept⟩ := hmeets
      cases hr
      exact Or.inr ⟨hhiff.mp hkept.hOrdered, hviff.mp hkept.vOrdered⟩
    · intro hle
      obtain ⟨h4, h2⟩ := (hle hcentre).resolve_left hnative
      exact ⟨_, rfl, hhiff.mpr h4, hviff.mpr h2, centreAxis_sameWidths true hh hp.h hmh,
        centreAxis_sameWidths false hv hp.v hmv⟩
  simp only [if_neg hcentre]
  refine iff_of_true ?_ fun h => absurd h hcentre
  by_cases haspect : fittingMode = drmModeScaleAspect
  · obtain ⟨r, hr, hkept⟩ := gmchAspect_kept gen hm hp hh hv
    rw [if_pos haspect, hr]
    exact ⟨_, rfl, hkept⟩
  split_ifs
  all_goals exact ⟨_, rfl, timingsKept_refl hh hv⟩

end Gmch

/-- The lines of a mode that is scanned `k` times as often. -/
theorem crtcLines_eq (panel : Mode) (hscan : panel.vscan ≤ 8191) :
    ∃ k : ℤ, 1 ≤ k ∧ k ≤ 16382 ∧ ∀ v, 0 ≤ v → v ≤ 65535 → panel.crtcLines 0 v = v * k := by
  have hflag : ¬ (panel.flags &&& modeFlagInterlace ≠ 0 ∧
      (0 : BitVec 32) &&& crtcInterlaceHalveV ≠ 0) := fun h => h.2 rfl
  let d : ℤ := if panel.flags &&& modeFlagDblscan ≠ 0 then 2 else 1
  have hd : 1 ≤ d ∧ d ≤ 2 := by
    simp only [d]
    split_ifs <;> decide
  have hdbl (v : ℤ) (h0 : 0 ≤ v) (h : v ≤ 65535) :
      (if panel.flags &&& modeFlagDblscan ≠ 0 then i32 (v * 2) else v) = v * d := by
    simp only [d]
    split_ifs
    · exact i32_of_range (by omega) (by omega)
    · exact (Int.mul_one v).symm
  by_cases hs : 1 < panel.vscan
  · refine ⟨d * panel.vscan, ?_, ?_, ?_⟩
    · have := Int.mul_le_mul hd.1 hs.le (by decide) (by omega)
      omega
    · have := Int.mul_le_mul hd.2 hscan (by omega) (by decide)
      omega
    · intro v h0 h
      rw [Mode.crtcLines, if_neg hflag, hdbl v h0 h, if_pos hs, Int.mul_assoc]
      have hprod : d * panel.vscan ≤ 16382 := Int.mul_le_mul hd.2 hscan (by omega) (by decide)
      have hpos : 0 ≤ d * panel.vscan := Int.mul_nonneg (by omega) (by omega)
      have hle := Int.mul_le_mul h hprod hpos (by decide)
      have hnonneg := Int.mul_nonneg h0 hpos
      exact i32_of_range (by omega) (by omega)
  · refine ⟨d, hd.1, by omega, ?_⟩
    intro v h0 h
    rw [Mode.crtcLines, if_neg hflag, hdbl v h0 h, if_neg hs]

/-- A panel mode in order gives sane timings, unless its lines are scanned too often. -/
theorem crtcinfo_sane {panel : Mode} (t : CrtcTimings) (hp : Sized panel) (ho : panel.Ordered)
    (hh : panel.htotal ≤ 65535) (hv : panel.vtotal ≤ 65535) (hscan : panel.vscan ≤ 8191)
    (htype : panel.type &&& modeTypeCrtcC ≠ modeTypeBuiltin) :
    (horizontal (crtcinfo panel t)).Sane ∧ (vertical (crtcinfo panel t)).Sane := by
  obtain ⟨k, hk1, hk, hlines⟩ := crtcLines_eq panel hscan
  obtain ⟨h1, h2, h3, -, v1, v2, v3, -⟩ := ho
  have hph := hp.h.1
  have hpv := hp.v.1
  rw [crtcinfo, if_neg htype]
  constructor
  · refine ⟨⟨?_, ?_, ?_, ?_⟩, ?_, ?_⟩
    all_goals
      simp only [horizontal, Mode.setCrtcinfo]
      omega
  · -- The lines keep their order when they are multiplied.
    have hk0 : 0 ≤ k := by omega
    have m1 := Int.mul_le_mul_of_nonneg_right v1 hk0
    have m2 := Int.mul_le_mul_of_nonneg_right v2 hk0
    have m3 := Int.mul_le_mul_of_nonneg_right v3 hk0
    have m0 := Int.mul_nonneg (show 0 ≤ panel.vdisplay by omega) hk0
    have mt := Int.mul_le_mul hv hk hk0 (by decide)
    refine ⟨⟨?_, ?_, ?_, ?_⟩, ?_, ?_⟩
    all_goals
      simp only [vertical, Mode.setCrtcinfo, hlines panel.vdisplay (by omega) (by omega),
        hlines panel.vsyncStart (by omega) (by omega), hlines panel.vsyncEnd (by omega) (by omega),
        hlines panel.vtotal (by omega) (by omega)]
      omega

/-- The window fits the panel unless a larger mode is centred, and so do the timings, whose
borders are rounded. -/
theorem panelFitting_meets_iff {mode panel : Mode} (hm : Sized mode) (hp : Sized panel)
    (fittingMode : ℤ) (gen : ℕ) (pipe : BitVec 32) (pipeBpp : ℤ) (s : GmchFit)
    (hset : Native mode panel → s.timingsSet = false) :
    (PchMeets mode panel fittingMode ↔ CentreFits mode panel fittingMode) ∧
      ((horizontal (crtcinfo panel s.crtc)).Sane → (vertical (crtcinfo panel s.crtc)).Sane →
        (GmchMeets gen pipe pipeBpp mode panel fittingMode s ↔
          CentreBorders mode panel fittingMode)) :=
  ⟨pchMeets_iff hm hp, fun hh hv => gmchMeets_iff hm hp hh hv hset⟩

def mode640 : Mode :=
  { clock := 25175, hdisplay := 640, hsyncStart := 656, hsyncEnd := 752, htotal := 800
    vdisplay := 480, vsyncStart := 490, vsyncEnd := 492, vtotal := 525 }

def mode800 : Mode :=
  { clock := 40000, hdisplay := 800, hsyncStart := 840, hsyncEnd := 968, htotal := 1056
    vdisplay := 600, vsyncStart := 601, vsyncEnd := 605, vtotal := 628 }

def mode1024 : Mode :=
  { clock := 65000, hdisplay := 1024, hsyncStart := 1048, hsyncEnd := 1184, htotal := 1344
    vdisplay := 768, vsyncStart := 771, vsyncEnd := 777, vtotal := 806 }

/-- The fitting starts from the panel's own timings. -/
def fit800 : GmchFit := { crtc := mode800.setCrtcinfo 0, timingsSet := false, pfit := {} }

/-- 640x480 in the middle of 800x600. -/
theorem panelFitting_meets_at :
    PchMeets mode640 mode800 drmModeScaleCenter ∧
      GmchMeets 3 1 24 mode640 mode800 drmModeScaleCenter fit800 := by
  have hm : Sized mode640 := ⟨by decide, by decide⟩
  have hp : Sized mode800 := ⟨by decide, by decide⟩
  have ho : mode800.Ordered := by constructor <;> decide
  obtain ⟨hh, hv⟩ := crtcinfo_sane fit800.crtc hp ho (by decide) (by decide) (by decide)
    (by decide)
  obtain ⟨hpch, hgmch⟩ := panelFitting_meets_iff hm hp drmModeScaleCenter 3 1 24 fit800
    fun _ => rfl
  exact ⟨hpch.mpr fun _ => Or.inr (by decide), (hgmch hh hv).mpr fun _ => Or.inr (by decide)⟩

/-- 1024x768 is centred on 800x600 from a position left of and above the panel, and its blank
starts before its end. -/
theorem panelFitting_larger_mode :
    pchWindow mode1024 mode800 drmModeScaleCenter =
        some (some { x := -111, y := -83, width := 1024, height := 768 }) ∧
      ¬ PchMeets mode1024 mode800 drmModeScaleCenter ∧
      ¬ GmchMeets 3 1 24 mode1024 mode800 drmModeScaleCenter fit800 := by
  refine ⟨by decide, ?_, ?_⟩
  · intro hmeets
    obtain ⟨o, ho, hfits⟩ := hmeets
    have hnonneg := (hfits _ (Option.some.inj ho).symm (by decide)).1.nonneg
    exact absurd hnonneg.1 (by decide)
  · intro hmeets
    obtain ⟨r, hr, hkept⟩ := hmeets
    cases hr
    exact absurd hkept.hOrdered.display_le (by decide)

end GfxDrm.Display
