import GfxDrm.Lib.Checked
import GfxDrm.Modes.Defs
import Mathlib.Algebra.Order.Ring.Int

/-! Modelines by the GTF standard, in integers, and the formula they follow
(drm_gtf_mode_complex). -/

namespace GfxDrm.Modes

open CInt Checked

def gtfMarginPercentage : ℤ := 18
def gtfCellGran : ℤ := 8
def gtfMinVPorch : ℤ := 1
def vSyncRqd : ℤ := 3
def hSyncPercent : ℤ := 8
def minVsyncPlusBp : ℤ := 550

/-- GTF_M, GTF_2C, GTF_K and GTF_2J. -/
structure GtfCurve where
  m : ℤ
  twoC : ℤ
  k : ℤ
  twoJ : ℤ
  deriving DecidableEq, Repr

/-- The curve of drm_gtf_mode. -/
def gtfDefault : GtfCurve := ⟨600, 80, 128, 40⟩

namespace GtfCurve

variable (g : GtfCurve)

/-- GTF_C_PRIME. -/
def cPrime : ℤ := (i32 ((i32 ((g.twoC - g.twoJ) * g.k)).tdiv 256 + g.twoJ)).tdiv 2

/-- GTF_M_PRIME. -/
def mPrime : ℤ := (i32 (g.k * g.m)).tdiv 256

/-- The ideal blanking duty cycle. -/
def idealDutyCycle (hfreqEst : ℤ) : Checked ℤ := do
  let slope ← udiv (i32 (g.mPrime * 1000000)) hfreqEst
  usub (i32 (g.cPrime * 1000)) slope

end GtfCurve

/-- The estimated horizontal frequency. -/
def gtfHfreqEst (vdisplayRnd topMargin vfieldrateRqd interlace : ℤ) : Checked ℤ := do
  let rest ← usub 1000000 (minVsyncPlusBp * vfieldrateRqd)
  let tmp1 := rest / 500
  let tmp2 := u32 ((vdisplayRnd + 2 * topMargin + gtfMinVPorch) * 2 + interlace)
  udiv (tmp2 * 1000 * vfieldrateRqd) tmp1

/-- The lines of the vertical sync and the back porch. -/
def gtfVsyncPlusBp (hfreqEst : ℤ) : ℤ :=
  let vsyncPlusBp := i32 (u32 (minVsyncPlusBp * hfreqEst) / 1000)
  (i32 (vsyncPlusBp + 500)).tdiv 1000

/-- The pixels of the blanking time, to the nearest double character cell. -/
def gtfHblank (totalActivePixels idealDutyCycle : ℤ) : Checked ℤ := do
  let active ← usub 100000 idealDutyCycle
  let hblank ← udiv (totalActivePixels * idealDutyCycle) active
  let hblank := u32 (hblank + gtfCellGran) / (2 * gtfCellGran)
  pure (u32 (hblank * 2 * gtfCellGran))

/-- The pixels of the horizontal sync. -/
def gtfHsync (totalPixels : ℤ) : ℤ :=
  let hsync := i32 (u32 (hSyncPercent * totalPixels) / 100)
  let hsync := (i32 (hsync + gtfCellGran.tdiv 2)).tdiv gtfCellGran
  i32 (hsync * gtfCellGran)

/-- How drm_gtf_mode_complex ends: the name and the flags, which only interlacing sets before. -/
def gtfFinish (interlaced : Bool) (g : GtfCurve) (mode : Mode) : Mode :=
  let mode :=
    if interlaced then
      { mode with vtotal := i32 (mode.vtotal * 2), flags := mode.flags ||| modeFlagInterlace }
    else mode
  { mode.setName with
    flags := if g = gtfDefault then modeFlagNhsync ||| modeFlagPvsync
      else modeFlagPhsync ||| modeFlagNvsync }

/-- drm_gtf_mode_complex, once the mode is allocated. -/
def drmGtfModeComplex (hdisplay vdisplay vrefresh : ℤ) (interlaced margins : Bool)
    (g : GtfCurve) : Checked Mode := do
  let hdisplayRnd := (i32 (hdisplay + gtfCellGran.tdiv 2)).tdiv gtfCellGran
  let hdisplayRnd := u32 (u32 hdisplayRnd * gtfCellGran)
  let vdisplayRnd := u32 (if interlaced then vdisplay.tdiv 2 else vdisplay)
  let vfieldrateRqd := u32 (if interlaced then i32 (vrefresh * 2) else vrefresh)
  let margin (size : ℤ) : ℤ :=
    if margins then i32 (u32 (size * gtfMarginPercentage + 500) / 1000) else 0
  let topMargin := margin vdisplayRnd
  let hfreqEst ← gtfHfreqEst vdisplayRnd topMargin vfieldrateRqd (if interlaced then 1 else 0)
  let vsyncPlusBp := gtfVsyncPlusBp hfreqEst
  let vtotalLines := u32 (vdisplayRnd + topMargin + topMargin + vsyncPlusBp + gtfMinVPorch)
  -- nothing reads vfieldrate_est, hperiod and vfield_rate, but they are worked out
  let _ ← udiv hfreqEst vtotalLines
  let _ ← udiv 1000000 (vfieldrateRqd * vtotalLines)
  let leftMargin := margin hdisplayRnd
  let totalActivePixels := u32 (hdisplayRnd + leftMargin + leftMargin)
  let idealDutyCycle ← g.idealDutyCycle hfreqEst
  let hblank ← gtfHblank totalActivePixels idealDutyCycle
  let totalPixels := u32 (totalActivePixels + hblank)
  let hsync := gtfHsync totalPixels
  let hfrontPorch ← usub (hblank / 2) hsync
  let hsyncStart := i32 (hdisplayRnd + i32 hfrontPorch)
  let vsyncStart := i32 (vdisplayRnd + gtfMinVPorch)
  pure (gtfFinish interlaced g
    { clock := i32 (u32 (totalPixels * hfreqEst) / 1000)
      hdisplay := i32 hdisplayRnd
      hsyncStart := hsyncStart
      hsyncEnd := i32 (hsyncStart + hsync)
      htotal := i32 totalPixels
      vdisplay := i32 vdisplayRnd
      vsyncStart := vsyncStart
      vsyncEnd := i32 (vsyncStart + vSyncRqd)
      vtotal := i32 vtotalLines })

/-- drm_gtf_mode. -/
def drmGtfMode (hdisplay vdisplay vrefresh : ℤ) (interlaced margins : Bool) : Checked Mode :=
  drmGtfModeComplex hdisplay vdisplay vrefresh interlaced margins gtfDefault

/-! ### The formula -/

/-- What the two bytes of a standard timing can stand for. -/
structure StdRange (h v r : ℤ) : Prop where
  h_ge : 248 ≤ h
  h_le : h ≤ 2288
  cells : h % 8 = 0
  v_ge : 139 ≤ v
  v_le : v ≤ 2288
  r_ge : 60 ≤ r
  r_le : r ≤ 123

/-- The coefficients as bytes, M as two. -/
structure GtfCurve.Bytes (g : GtfCurve) : Prop where
  m_nonneg : 0 ≤ g.m
  m_le : g.m ≤ 65535
  twoC_nonneg : 0 ≤ g.twoC
  twoC_le : g.twoC ≤ 255
  k_nonneg : 0 ≤ g.k
  k_le : g.k ≤ 255
  twoJ_nonneg : 0 ≤ g.twoJ
  twoJ_le : g.twoJ ≤ 255

/-- The lines of a second, from the size and the rate. -/
def lineRate (v r : ℤ) : ℤ := (v + 1) * 2 * 1000 * r / ((1000000 - 550 * r) / 500)

def gtfVtotal (v r : ℤ) : ℤ := v + (550 * lineRate v r / 1000 + 500) / 1000 + 1

/-- The pixels of the horizontal sync in a line of `total`. -/
def syncPixels (total : ℤ) : ℤ := (8 * total / 100 + 4) / 8 * 8

namespace GtfCurve

variable (g : GtfCurve) (h v r : ℤ)

/-- What M' takes off C'; the product is one of int and then of unsigned int. -/
def slope : ℤ := u32 (g.mPrime * 1000000) / lineRate v r

def duty : ℤ := g.cPrime * 1000 - g.slope v r

def blank : ℤ := (h * g.duty v r / (100000 - g.duty v r) + 8) / 16 * 16

def total : ℤ := h + g.blank h v r

/-- The curve stays above zero and below the whole line, and its blanking time has room for the
sync. -/
structure Fits : Prop where
  slope_le : g.slope v r ≤ g.cPrime * 1000
  duty_lt : g.duty v r < 100000
  sync_le : syncPixels (g.total h v r) ≤ g.blank h v r / 2

instance : Decidable (g.Fits h v r) :=
  decidable_of_iff (g.slope v r ≤ g.cPrime * 1000 ∧ g.duty v r < 100000 ∧
      syncPixels (g.total h v r) ≤ g.blank h v r / 2)
    ⟨fun h => ⟨h.1, h.2.1, h.2.2⟩, fun h => ⟨h.1, h.2, h.3⟩⟩

/-- The product of the line and its rate is one of unsigned int. -/
def clock : ℤ := u32 (g.total h v r * lineRate v r) / 1000

/-- The rate of the mode's lines in kHz, rounded. -/
def khz : ℤ := (g.clock h v r * 1000 / g.total h v r + 500) / 1000

/-- The mode of the formula. -/
def mode : Mode :=
  let hsync := syncPixels (g.total h v r)
  let hsyncStart := h + (g.blank h v r / 2 - hsync)
  gtfFinish false g
    { clock := g.clock h v r
      hdisplay := h
      hsyncStart := hsyncStart
      hsyncEnd := hsyncStart + hsync
      htotal := g.total h v r
      vdisplay := v
      vsyncStart := v + 1
      vsyncEnd := v + 1 + 3
      vtotal := gtfVtotal v r }

end GtfCurve

/-! ### The code follows it -/

section
variable {h v r : ℤ} {g : GtfCurve} {Q : ℤ → Prop}

/-- The estimated period of a line, in 500 microseconds of the second less its vertical sync. -/
theorem StdRange.rest_bounds (hs : StdRange h v r) :
    1864 ≤ (1000000 - 550 * r) / 500 ∧ (1000000 - 550 * r) / 500 ≤ 1934 := by
  have := hs.r_ge
  have := hs.r_le
  omega

theorem StdRange.lines_bounds (hs : StdRange h v r) :
    16800000 ≤ (v + 1) * 2 * 1000 * r ∧ (v + 1) * 2 * 1000 * r ≤ 563094000 := by
  have hv := hs.v_ge
  have hvle := hs.v_le
  have hr := hs.r_ge
  have hrle := hs.r_le
  have hlow : 280000 * 60 ≤ (v + 1) * 2 * 1000 * r :=
    mul_le_mul (by omega) hr (by decide) (by omega)
  have hhigh : (v + 1) * 2 * 1000 * r ≤ 4578000 * 123 :=
    mul_le_mul (by omega) hrle (by omega) (by decide)
  omega

theorem StdRange.lineRate_bounds (hs : StdRange h v r) :
    8686 ≤ lineRate v r ∧ lineRate v r ≤ 302089 := by
  obtain ⟨hrest, hrestle⟩ := hs.rest_bounds
  obtain ⟨hlines, hlinesle⟩ := hs.lines_bounds
  constructor
  · apply Int.le_ediv_of_mul_le (by omega)
    omega
  · apply Int.lt_add_one_iff.mp
    apply Int.ediv_lt_of_lt_mul (by omega)
    omega

theorem StdRange.runs_gtfHfreqEst (hs : StdRange h v r) :
    Runs (gtfHfreqEst v 0 r 0) Q ↔ Q (lineRate v r) := by
  have hv := hs.v_ge
  have hvle := hs.v_le
  have hr := hs.r_ge
  have hrle := hs.r_le
  obtain ⟨hlines, hlinesle⟩ := hs.lines_bounds
  have hfield : u32 (1000000 - 550 * r) = 1000000 - 550 * r := u32_of_range (by omega) (by omega)
  have htmp2 : u32 ((v + 2 * 0 + 1) * 2 + 0) = (v + 1) * 2 := by
    rw [mul_zero, add_zero, add_zero]
    exact u32_of_range (by omega) (by omega)
  unfold gtfHfreqEst minVsyncPlusBp gtfMinVPorch
  simp only [runs_bind, runs_usub, runs_udiv]
  rw [hfield, htmp2, u32_of_range (by omega) (by omega), u32_of_range (by omega) (by omega),
    u32_of_range (by omega) (by omega), u32_of_range (by omega) (by omega)]
  constructor
  · intro hrun
    exact hrun.2.2
  · intro hQ
    exact ⟨by omega, by omega, hQ⟩

theorem gtfVsyncPlusBp_eq {rate : ℤ} (h0 : 0 ≤ rate) (hle : rate ≤ 302089) :
    gtfVsyncPlusBp rate = (550 * rate / 1000 + 500) / 1000 := by
  unfold gtfVsyncPlusBp minVsyncPlusBp
  dsimp only
  rw [u32_of_range (by omega) (by omega), @i32_of_range (550 * rate / 1000) (by omega) (by omega),
    i32_of_range (by omega) (by omega)]
  exact Int.tdiv_eq_ediv_of_nonneg (by omega)

theorem StdRange.gtfVtotal_bounds (hs : StdRange h v r) :
    139 ≤ gtfVtotal v r ∧ gtfVtotal v r ≤ 2456 := by
  have hv := hs.v_ge
  have hvle := hs.v_le
  obtain ⟨hrate, hratele⟩ := hs.lineRate_bounds
  unfold gtfVtotal
  omega

namespace GtfCurve

theorem Bytes.cPrime_bounds (hg : g.Bytes) : 0 ≤ g.cPrime ∧ g.cPrime ≤ 127 := by
  obtain ⟨-, -, hc0, hc, hk0, hk, hj0, hj⟩ := hg
  unfold cPrime
  rcases le_total g.twoJ g.twoC with hle | hle
  · have hprod0 : 0 ≤ (g.twoC - g.twoJ) * g.k := mul_nonneg (by omega) hk0
    have hprod : (g.twoC - g.twoJ) * g.k ≤ (g.twoC - g.twoJ) * 255 :=
      mul_le_mul_of_nonneg_left hk (by omega)
    generalize (g.twoC - g.twoJ) * g.k = prod at hprod0 hprod
    rw [@i32_of_range prod (by omega) (by omega), Int.tdiv_eq_ediv_of_nonneg hprod0,
      i32_of_range (by omega) (by omega), Int.tdiv_eq_ediv_of_nonneg (by omega)]
    omega
  · -- C below J: a share of the difference below one comes off J, so the rest is not negative
    have hprod0 : 0 ≤ (g.twoJ - g.twoC) * g.k := mul_nonneg (by omega) hk0
    have hprod : (g.twoJ - g.twoC) * g.k ≤ (g.twoJ - g.twoC) * 255 :=
      mul_le_mul_of_nonneg_left hk (by omega)
    have hneg : (g.twoC - g.twoJ) * g.k = -((g.twoJ - g.twoC) * g.k) := by
      rw [← neg_mul, neg_sub]
    rw [hneg]
    generalize (g.twoJ - g.twoC) * g.k = prod at hprod0 hprod
    rw [@i32_of_range (-prod) (by omega) (by omega), Int.neg_tdiv, Int.tdiv_eq_ediv_of_nonneg hprod0,
      i32_of_range (by omega) (by omega), Int.tdiv_eq_ediv_of_nonneg (by omega)]
    omega

theorem slope_nonneg (hs : StdRange h v r) : 0 ≤ g.slope v r := by
  have hrate := hs.lineRate_bounds.1
  exact Int.ediv_nonneg (Int.emod_nonneg _ (by decide)) (by omega)

/-- The cycle runs where the slope leaves something of C'. -/
theorem Bytes.runs_idealDutyCycle (hg : g.Bytes) (hs : StdRange h v r) :
    Runs (g.idealDutyCycle (lineRate v r)) Q ↔
      g.slope v r ≤ g.cPrime * 1000 ∧ Q (g.duty v r) := by
  obtain ⟨hrate, hratele⟩ := hs.lineRate_bounds
  obtain ⟨hc0, hc⟩ := hg.cPrime_bounds
  have hslope0 := @slope_nonneg h v r g hs
  have hslope : g.slope v r < 0x100000000 := by
    have hprod : u32 (g.mPrime * 1000000) < 0x100000000 := Int.emod_lt_of_pos _ (by decide)
    exact lt_of_le_of_lt (Int.ediv_le_self _ (Int.emod_nonneg _ (by decide))) hprod
  unfold idealDutyCycle
  simp only [runs_bind, runs_usub, runs_udiv]
  rw [u32_i32, @u32_of_range (lineRate v r) (by omega) (by omega), ← slope,
    @i32_of_range (g.cPrime * 1000) (by omega) (by omega), @u32_of_range (g.slope v r) hslope0 hslope,
    @u32_of_range (g.cPrime * 1000) (by omega) (by omega), ← duty]
  constructor
  · intro hrun
    obtain ⟨-, hle, hQ⟩ := hrun
    rw [u32_of_range (by unfold duty; omega) (by unfold duty; omega)] at hQ
    exact ⟨hle, hQ⟩
  · intro hrun
    obtain ⟨hle, hQ⟩ := hrun
    rw [u32_of_range (by unfold duty; omega) (by unfold duty; omega)]
    exact ⟨by omega, hle, hQ⟩

/-- What is blanked of a line that is not blanked whole. -/
theorem blank_bounds (hs : StdRange h v r) (h0 : 0 ≤ g.duty v r) (hlt : g.duty v r < 100000) :
    0 ≤ h * g.duty v r ∧ h * g.duty v r ≤ 228800000 ∧
      0 ≤ h * g.duty v r / (100000 - g.duty v r) ∧
      h * g.duty v r / (100000 - g.duty v r) ≤ 228800000 := by
  have hh := hs.h_ge
  have hhle := hs.h_le
  have hnum0 : 0 ≤ h * g.duty v r := mul_nonneg (by omega) h0
  have hnum : h * g.duty v r ≤ 2288 * 100000 :=
    mul_le_mul hhle (Int.le_of_lt hlt) h0 (by decide)
  have hquot0 : 0 ≤ h * g.duty v r / (100000 - g.duty v r) := Int.ediv_nonneg hnum0 (by omega)
  have hquot : h * g.duty v r / (100000 - g.duty v r) ≤ h * g.duty v r :=
    Int.ediv_le_self _ hnum0
  omega

/-- The blanking runs where the cycle leaves something of the line. -/
theorem Bytes.runs_gtfHblank (hg : g.Bytes) (hs : StdRange h v r) (h0 : 0 ≤ g.duty v r) :
    Runs (gtfHblank h (g.duty v r)) Q ↔ g.duty v r < 100000 ∧ Q (g.blank h v r) := by
  obtain ⟨hc0, hc⟩ := hg.cPrime_bounds
  have hslope0 := @slope_nonneg h v r g hs
  have hdle : g.duty v r ≤ 127000 := by
    unfold duty
    omega
  unfold gtfHblank gtfCellGran
  simp only [runs_bind, runs_usub, runs_udiv, runs_pure]
  rw [@u32_of_range (g.duty v r) h0 (by omega), @u32_of_range 100000 (by decide) (by decide)]
  rcases lt_or_ge (g.duty v r) 100000 with hlt | hge
  · obtain ⟨hnum0, hnum, hquot0, hquot⟩ := blank_bounds hs h0 hlt
    have hblank : u32 (h * g.duty v r / (100000 - g.duty v r) + 8) / (2 * 8) * 2 * 8 =
        g.blank h v r := by
      rw [u32_of_range (by omega) (by omega), mul_assoc]
      rfl
    rw [@u32_of_range (100000 - g.duty v r) (by omega) (by omega),
      @u32_of_range (100000 - g.duty v r) (by omega) (by omega),
      @u32_of_range (h * g.duty v r) hnum0 (by omega), hblank, u32_of_range]
    constructor
    · intro hrun
      exact ⟨hlt, hrun.2.2⟩
    · intro hrun
      exact ⟨Int.le_of_lt hlt, by omega, hrun.2⟩
    all_goals (unfold blank; omega)
  · constructor
    · intro hrun
      obtain ⟨hle, hne, -⟩ := hrun
      -- the whole line is blanked: the division traps
      have hall : g.duty v r = 100000 := by omega
      rw [hall] at hne
      exact absurd rfl hne
    · intro hrun
      exact absurd hrun.1 (by omega)

end GtfCurve

theorem gtfHsync_eq {total : ℤ} (h0 : 0 ≤ total) (hle : total ≤ 300000000) :
    gtfHsync total = syncPixels total := by
  unfold gtfHsync hSyncPercent gtfCellGran
  dsimp only
  rw [u32_of_range (by omega) (by omega), @i32_of_range (8 * total / 100) (by omega) (by omega),
    show Int.tdiv 8 2 = 4 from rfl, @i32_of_range (8 * total / 100 + 4) (by omega) (by omega),
    Int.tdiv_eq_ediv_of_nonneg (by omega)]
  exact i32_of_range (by omega) (by omega)

/-- A line that is not blanked whole, and its blanking. -/
theorem GtfCurve.line_bounds (hs : StdRange h v r) (hslope : g.slope v r ≤ g.cPrime * 1000)
    (hlt : g.duty v r < 100000) :
    0 ≤ g.blank h v r ∧ g.blank h v r ≤ 228800008 ∧ 248 ≤ g.total h v r ∧
      g.total h v r ≤ 228802296 ∧ 0 ≤ syncPixels (g.total h v r) ∧
      syncPixels (g.total h v r) ≤ 18304191 := by
  have hh := hs.h_ge
  have hhle := hs.h_le
  obtain ⟨-, -, hquot0, hquot⟩ := blank_bounds hs (by unfold duty; omega) hlt
  have hblank : 0 ≤ g.blank h v r ∧ g.blank h v r ≤ 228800008 := by
    unfold blank
    omega
  unfold syncPixels total
  omega

/-- The difference of the front porch is one of the formula. -/
theorem GtfCurve.porch_iff (hs : StdRange h v r) (hslope : g.slope v r ≤ g.cPrime * 1000)
    (hlt : g.duty v r < 100000) :
    u32 (syncPixels (g.total h v r)) ≤ u32 (g.blank h v r / 2) ↔
      syncPixels (g.total h v r) ≤ g.blank h v r / 2 := by
  obtain ⟨hb0, hb, -, -, hsync0, hsync⟩ := line_bounds hs hslope hlt
  rw [u32_of_range hsync0 (by omega), u32_of_range (by omega) (by omega)]

/-- What is stored in the mode is what the formula has. -/
theorem GtfCurve.Fits.stored_eq (hf : g.Fits h v r) (hs : StdRange h v r) :
    gtfFinish false g
      { clock := i32 (u32 (g.total h v r * lineRate v r) / 1000)
        hdisplay := i32 h
        hsyncStart := i32 (h + i32 (u32 (g.blank h v r / 2 - syncPixels (g.total h v r))))
        hsyncEnd := i32 (i32 (h + i32 (u32 (g.blank h v r / 2 - syncPixels (g.total h v r)))) +
          syncPixels (g.total h v r))
        htotal := i32 (g.total h v r)
        vdisplay := i32 v
        vsyncStart := i32 (v + gtfMinVPorch)
        vsyncEnd := i32 (i32 (v + gtfMinVPorch) + vSyncRqd)
        vtotal := i32 (gtfVtotal v r) } = g.mode h v r := by
  have hh := hs.h_ge
  have hhle := hs.h_le
  have hv := hs.v_ge
  have hvle := hs.v_le
  have hfits := hf.sync_le
  obtain ⟨hvtotal, hvtotalle⟩ := hs.gtfVtotal_bounds
  obtain ⟨hb0, hb, htotal, htotalle, hsync0, hsync⟩ := line_bounds hs hf.slope_le hf.duty_lt
  have hclock0 : 0 ≤ u32 (g.total h v r * lineRate v r) := Int.emod_nonneg _ (by decide)
  have hclock : u32 (g.total h v r * lineRate v r) < 0x100000000 :=
    Int.emod_lt_of_pos _ (by decide)
  have hporch : i32 (u32 (g.blank h v r / 2 - syncPixels (g.total h v r))) =
      g.blank h v r / 2 - syncPixels (g.total h v r) := by
    rw [u32_of_range (by omega) (by omega), i32_of_range (by omega) (by omega)]
  have hstart : i32 (h + (g.blank h v r / 2 - syncPixels (g.total h v r))) =
      h + (g.blank h v r / 2 - syncPixels (g.total h v r)) := i32_of_range (by omega) (by omega)
  unfold gtfMinVPorch vSyncRqd
  rw [hporch, hstart, i32_of_range (by omega) (by omega), @i32_of_range h (by omega) (by omega),
    i32_of_range (by omega) (by omega), @i32_of_range (g.total h v r) (by omega) (by omega),
    @i32_of_range v (by omega) (by omega), @i32_of_range (v + 1) (by omega) (by omega),
    i32_of_range (by omega) (by omega), @i32_of_range (gtfVtotal v r) (by omega) (by omega)]
  rfl

variable {Q : Mode → Prop}

/-- Without interlacing and margins the code runs where the curve fits, to the formula's mode. -/
theorem GtfCurve.Bytes.runs_drmGtfModeComplex (hg : g.Bytes) (hs : StdRange h v r) :
    Runs (drmGtfModeComplex h v r false false g) Q ↔ g.Fits h v r ∧ Q (g.mode h v r) := by
  have hh := hs.h_ge
  have hhle := hs.h_le
  have hcells := hs.cells
  have hv := hs.v_ge
  have hvle := hs.v_le
  have hr := hs.r_ge
  have hrle := hs.r_le
  obtain ⟨hrate, hratele⟩ := hs.lineRate_bounds
  obtain ⟨hvtotal, hvtotalle⟩ := hs.gtfVtotal_bounds
  have hcell : (i32 (h + gtfCellGran.tdiv 2)).tdiv gtfCellGran = h / 8 := by
    unfold gtfCellGran
    rw [show Int.tdiv 8 2 = 4 from rfl, i32_of_range (by omega) (by omega),
      Int.tdiv_eq_ediv_of_nonneg (by omega)]
    omega
  have hrnd : u32 (u32 (h / 8) * gtfCellGran) = h := by
    unfold gtfCellGran
    rw [@u32_of_range (h / 8) (by omega) (by omega), u32_of_range (by omega) (by omega)]
    omega
  have hvrnd : u32 v = v := u32_of_range (by omega) (by omega)
  have hrrnd : u32 r = r := u32_of_range (by omega) (by omega)
  have hvtot : u32 (v + 0 + 0 + gtfVsyncPlusBp (lineRate v r) + gtfMinVPorch) = gtfVtotal v r := by
    rw [gtfVsyncPlusBp_eq (by omega) hratele, add_zero, add_zero]
    exact u32_of_range (by exact le_trans (by decide) hvtotal)
      (by exact lt_of_le_of_lt hvtotalle (by decide))
  have hvtotu : u32 (gtfVtotal v r) = gtfVtotal v r := u32_of_range (by omega) (by omega)
  have hperiod : 60 * 139 ≤ r * gtfVtotal v r ∧ r * gtfVtotal v r ≤ 123 * 2456 :=
    ⟨mul_le_mul hr hvtotal (by decide) (by omega), mul_le_mul hrle hvtotalle (by omega) (by decide)⟩
  have hperiodu : u32 (r * gtfVtotal v r) = r * gtfVtotal v r :=
    u32_of_range (by omega) (by omega)
  have hactive : u32 (h + 0 + 0) = h := by
    rw [add_zero, add_zero]
    exact u32_of_range (by omega) (by omega)
  unfold drmGtfModeComplex
  simp only [if_false, Bool.false_eq_true, hcell, hrnd, hvrnd, hrrnd, runs_bind,
    hs.runs_gtfHfreqEst, runs_udiv, hvtot, hactive,
    hg.runs_idealDutyCycle hs, runs_usub, runs_pure]
  -- the curve, the blanking and the porch are left: one condition of `Fits` each
  constructor
  · intro hrun
    obtain ⟨-, -, hslope, hrun⟩ := hrun
    rw [hg.runs_gtfHblank hs (by unfold GtfCurve.duty; omega)] at hrun
    obtain ⟨hlt, hporch, hQ⟩ := hrun
    obtain ⟨-, -, htotal, htotalle, -⟩ := GtfCurve.line_bounds hs hslope hlt
    rw [← GtfCurve.total, @u32_of_range (g.total h v r) (by omega) (by omega),
      gtfHsync_eq (by omega) (by omega)] at hporch hQ
    have hf : g.Fits h v r := ⟨hslope, hlt, (GtfCurve.porch_iff hs hslope hlt).mp hporch⟩
    rw [hf.stored_eq hs] at hQ
    exact ⟨hf, hQ⟩
  · intro hrun
    obtain ⟨hf, hQ⟩ := hrun
    have hslope := hf.slope_le
    obtain ⟨-, -, htotal, htotalle, -⟩ := GtfCurve.line_bounds hs hslope hf.duty_lt
    refine ⟨by omega, by omega, hslope, ?_⟩
    rw [hg.runs_gtfHblank hs (by unfold GtfCurve.duty; omega), ← GtfCurve.total,
      @u32_of_range (g.total h v r) (by omega) (by omega), gtfHsync_eq (by omega) (by omega),
      hf.stored_eq hs]
    exact ⟨hf.duty_lt, (GtfCurve.porch_iff hs hslope hf.duty_lt).mpr hf.sync_le, hQ⟩

example : gtfDefault.Fits 1152 720 60 ∧ ¬gtfDefault.Fits 256 144 60 := by decide

/-! ### The default curve -/

/-- With the default curve no more than three sevenths of the width are blanked. -/
theorem gtfDefault_total_bounds (hs : StdRange h v r) (hf : gtfDefault.Fits h v r) :
    248 ≤ gtfDefault.total h v r ∧ gtfDefault.total h v r ≤ 3280 := by
  have hh := hs.h_ge
  have hhle := hs.h_le
  have hslope := hf.slope_le
  have hslope0 := @GtfCurve.slope_nonneg h v r gtfDefault hs
  have hd0 : 0 ≤ gtfDefault.duty v r := by
    unfold GtfCurve.duty
    omega
  have hd : gtfDefault.duty v r ≤ 30000 := by
    unfold GtfCurve.duty
    rw [show gtfDefault.cPrime = 30 from rfl]
    omega
  obtain ⟨hnum0, -, hquot0, -⟩ := GtfCurve.blank_bounds hs hd0 hf.duty_lt
  have hfloor := @Int.ediv_mul_le (h * gtfDefault.duty v r) (100000 - gtfDefault.duty v r)
    (by omega)
  have hden : h * gtfDefault.duty v r / (100000 - gtfDefault.duty v r) * 70000 ≤
      h * gtfDefault.duty v r / (100000 - gtfDefault.duty v r) *
        (100000 - gtfDefault.duty v r) :=
    mul_le_mul_of_nonneg_left (by omega) hquot0
  have hnum : h * gtfDefault.duty v r ≤ h * 30000 := mul_le_mul_of_nonneg_left hd (by omega)
  unfold GtfCurve.total GtfCurve.blank
  omega

/-- The clock is not cut off, so it is there. -/
theorem gtfDefault_clock_bounds (hs : StdRange h v r) (hf : gtfDefault.Fits h v r) :
    0 < gtfDefault.clock h v r ∧ gtfDefault.clock h v r ≤ 1000000 := by
  obtain ⟨htotal, htotalle⟩ := gtfDefault_total_bounds hs hf
  obtain ⟨hrate, hratele⟩ := hs.lineRate_bounds
  have hlow : 248 * 8686 ≤ gtfDefault.total h v r * lineRate v r :=
    mul_le_mul htotal hrate (by decide) (by omega)
  have hhigh : gtfDefault.total h v r * lineRate v r ≤ 3280 * 302089 :=
    mul_le_mul htotalle hratele (by omega) (by decide)
  unfold GtfCurve.clock
  rw [u32_of_range (by omega) (by omega)]
  omega

theorem gtfDefault_hsyncRate (hs : StdRange h v r) (hf : gtfDefault.Fits h v r) :
    (gtfDefault.mode h v r).hsyncRate = some (gtfDefault.khz h v r) := by
  obtain ⟨htotal, htotalle⟩ := gtfDefault_total_bounds hs hf
  obtain ⟨hclock, hclockle⟩ := gtfDefault_clock_bounds hs hf
  have hrate0 : 0 ≤ gtfDefault.clock h v r * 1000 / gtfDefault.total h v r :=
    Int.ediv_nonneg (by omega) (by omega)
  have hrate : gtfDefault.clock h v r * 1000 / gtfDefault.total h v r ≤
      gtfDefault.clock h v r * 1000 := Int.ediv_le_self _ (by omega)
  change (if (0 : ℤ) ≠ 0 then _ else if gtfDefault.total h v r < 0 then _
    else if gtfDefault.total h v r = 0 then _
    else some (i32 (u32 (u32 ((i32 (gtfDefault.clock h v r * 1000)).tdiv
      (gtfDefault.total h v r)) + 500) / 1000))) = _
  rw [if_neg (by decide), if_neg (by omega), if_neg (by omega),
    @i32_of_range (gtfDefault.clock h v r * 1000) (by omega) (by omega),
    Int.tdiv_eq_ediv_of_nonneg (by omega),
    @u32_of_range (gtfDefault.clock h v r * 1000 / gtfDefault.total h v r) hrate0 (by omega),
    u32_of_range (by omega) (by omega), i32_of_range (by omega) (by omega)]
  rfl

end

end GfxDrm.Modes
