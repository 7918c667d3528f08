import GfxDrm.Modes.Cvt
import Mathlib.Algebra.Order.Ring.Int

/-! The CVT formula in exact integers, and when drm_cvt_mode follows it. -/

namespace GfxDrm.Modes

open CInt

namespace CvtInput

variable (i : CvtInput)

/-! ### The formula -/

/-- A second in microseconds times HV_FACTOR, less that much vertical blanking in each field. -/
def exactTime (minVblank : ℤ) : ℤ := hvFactor * 1000000 - minVblank * hvFactor * i.vfieldrate

/-- The half lines of a field with its front porch. -/
def exactHalfLines : ℤ := (i.lines + cvtMinVPorch) * 2 + i.interlace

def exactHperiod (reduced : Bool) : ℤ :=
  if reduced then i.exactTime cvtRbMinVblank / (i.lines * i.vfieldrate)
  else i.exactTime cvtMinVsyncBp * 2 / (i.exactHalfLines * i.vfieldrate)

/-- The lines of the sync and the back porch, or of all vertical blanking. -/
def exactPorch (reduced : Bool) : ℤ :=
  if reduced then
    max (cvtRbVfporch + i.vsync + cvtMinVBporch)
      (cvtRbMinVblank * hvFactor / i.exactHperiod true + 1)
  else max (i.vsync + cvtMinVPorch) (cvtMinVsyncBp * hvFactor / i.exactHperiod false + 1)

def exactPercentage : ℤ :=
  max (20 * hvFactor) (cvtCPrime * hvFactor - cvtMPrime * i.exactHperiod false / 1000)

def exactHblank (reduced : Bool) : ℤ :=
  if reduced then cvtRbHBlank
  else
    let hblank := i.hdisplay * i.exactPercentage / (100 * hvFactor - i.exactPercentage)
    hblank - hblank % (2 * cvtHGranularity)

def exactHtotal (reduced : Bool) : ℤ := i.hdisplay + i.exactHblank reduced

def exactHsyncEnd (reduced : Bool) : ℤ := i.hdisplay + i.exactHblank reduced / 2

/-- Before it is rounded. -/
def exactHsyncStart (reduced : Bool) : ℤ :=
  if reduced then i.exactHsyncEnd true - cvtRbHSync
  else i.exactHsyncEnd false - i.exactHtotal false * cvtHsyncPercentage / 100

def exactVtotal (reduced : Bool) : ℤ :=
  if reduced then i.lines + i.exactPorch true else i.lines + i.exactPorch false + cvtMinVPorch

def exactClock (reduced : Bool) : ℤ :=
  let clock := i.exactHtotal reduced * hvFactor * 1000 / i.exactHperiod reduced
  clock - clock % cvtClockStep

/-! ### Its steps -/

def rbInts : List ℤ :=
  [i.exactTime cvtRbMinVblank, cvtRbMinVblank * hvFactor / i.exactHperiod true + 1]

def blankingInts : List ℤ :=
  [i.exactTime cvtMinVsyncBp, i.lines + cvtMinVPorch, (i.lines + cvtMinVPorch) * 2,
    i.exactHalfLines, i.exactTime cvtMinVsyncBp * 2,
    cvtMinVsyncBp * hvFactor / i.exactHperiod false + 1, i.lines + i.exactPorch false,
    i.hdisplay * i.exactPercentage / (100 * hvFactor - i.exactPercentage),
    i.exactHtotal false * cvtHsyncPercentage, i.exactHsyncStart false + cvtHGranularity]

def sharedInts (reduced : Bool) : List ℤ :=
  [i.exactPorch reduced, i.exactHtotal reduced, i.exactHsyncEnd reduced,
    i.exactHsyncStart reduced, i.vdisplay + 3, i.vdisplay + 3 + i.vsync,
    i.exactVtotal reduced, i.exactHtotal reduced * hvFactor,
    i.exactHtotal reduced * hvFactor * 1000,
    i.exactHtotal reduced * hvFactor * 1000 / i.exactHperiod reduced,
    i.exactVtotal reduced * (1 + i.interlace)]

/-- The values of type int on the way. -/
def intSteps (reduced : Bool) : List ℤ :=
  (if reduced then i.rbInts else i.blankingInts) ++ i.sharedInts reduced

def rbUints : List ℤ :=
  [cvtRbMinVblank * hvFactor * i.vfieldrate, i.exactTime cvtRbMinVblank, i.lines,
    i.lines * i.vfieldrate, cvtRbMinVblank * hvFactor / i.exactHperiod true + 1]

def blankingUints : List ℤ :=
  [cvtMinVsyncBp * hvFactor * i.vfieldrate, i.exactTime cvtMinVsyncBp,
    i.exactTime cvtMinVsyncBp * 2, i.exactHalfLines, i.exactHalfLines * i.vfieldrate,
    cvtMinVsyncBp * hvFactor / i.exactHperiod false + 1, cvtMPrime * i.exactHperiod false,
    cvtCPrime * hvFactor - cvtMPrime * i.exactHperiod false / 1000, i.hdisplay,
    i.hdisplay * i.exactPercentage, 100 * hvFactor - i.exactPercentage]

/-- The values of type unsigned int on the way. -/
def uintSteps (reduced : Bool) : List ℤ :=
  (if reduced then i.rbUints else i.blankingUints) ++
    [i.vfieldrate, i.exactHperiod reduced, i.exactHtotal reduced * hvFactor * 1000]

end CvtInput

/-- The sizes and rates of the formula. -/
def cvtExactInput (hdisplay vdisplay vrefresh : ℤ) (interlaced margins : Bool) : CvtInput :=
  let hdisplayRnd := hdisplay - hdisplay % cvtHGranularity
  let hmargin := if margins then hdisplayRnd * cvtMarginPercentage / 1000 else 0
  let hmargin := hmargin - hmargin % cvtHGranularity
  let vdisplayRnd := if interlaced then vdisplay / 2 else vdisplay
  let vmargin := if margins then vdisplayRnd * cvtMarginPercentage / 1000 else 0
  { hdisplay := hdisplayRnd + 2 * hmargin
    vdisplay := vdisplay + 2 * vmargin
    lines := vdisplayRnd + 2 * vmargin
    vsync := cvtVsync hdisplay vdisplay
    vfieldrate := if interlaced then vrefresh * 2 else vrefresh
    interlace := if interlaced then 1 else 0 }

/-- The values of type int that drm_cvt_mode starts with. -/
def cvtInputSteps (hdisplay vdisplay vrefresh : ℤ) (interlaced margins : Bool) : List ℤ :=
  let i := cvtExactInput hdisplay vdisplay vrefresh interlaced margins
  let vdisplayRnd := if interlaced then vdisplay / 2 else vdisplay
  [i.vfieldrate, (hdisplay - hdisplay % cvtHGranularity) * cvtMarginPercentage, i.hdisplay,
    vdisplayRnd * cvtMarginPercentage, i.vdisplay, i.lines, vdisplay * 4, vdisplay * 16,
    vdisplay * 5, vdisplay * 15]

/-- drm_cvt_mode works out the clock of the formula, with nothing that leaves the range of its type
on the way, and timings in their order. -/
structure CvtRight (hdisplay vdisplay vrefresh : ℤ) (reduced interlaced margins : Bool) : Prop where
  start : ∀ x ∈ cvtInputSteps hdisplay vdisplay vrefresh interlaced margins, IsInt x
  ints : ∀ x ∈ (cvtExactInput hdisplay vdisplay vrefresh interlaced margins).intSteps reduced,
    IsInt x
  uints : ∀ x ∈ (cvtExactInput hdisplay vdisplay vrefresh interlaced margins).uintSteps reduced,
    IsUint x
  mode : ∃ m, drmCvtMode hdisplay vdisplay vrefresh reduced interlaced margins = some m ∧
    m.clock = (cvtExactInput hdisplay vdisplay vrefresh interlaced margins).exactClock reduced ∧
    (m.hdisplay ≤ m.hsyncStart ∧ m.hsyncStart ≤ m.hsyncEnd ∧ m.hsyncEnd ≤ m.htotal) ∧
    m.vdisplay ≤ m.vsyncStart ∧ m.vsyncStart ≤ m.vsyncEnd ∧ m.vsyncEnd ≤ m.vtotal

/-- The line takes at least one unit of time, its pixels times 10^6 are held by int; without
`reduced`, the blanking time is not off the scale and the width is two characters or more. -/
structure CvtFits (hdisplay vdisplay vrefresh : ℤ) (reduced interlaced margins : Bool) : Prop where
  period : 1 ≤ (cvtExactInput hdisplay vdisplay vrefresh interlaced margins).exactHperiod reduced
  total : (cvtExactInput hdisplay vdisplay vrefresh interlaced margins).exactHtotal reduced ≤ 2147
  blanking : reduced = false →
    (cvtExactInput hdisplay vdisplay vrefresh interlaced margins).exactHperiod false ≤ 100003 ∧
      16 ≤ hdisplay

/-! ### The input -/

/-- What the sizes of 16 bits leave possible. -/
structure CvtInput.Sized (i : CvtInput) : Prop where
  hdisplay_nonneg : 0 ≤ i.hdisplay
  hdisplay_le : i.hdisplay ≤ 68000
  hdisplay_mod : i.hdisplay % 8 = 0
  lines_nonneg : 0 ≤ i.lines
  lines_le : i.lines ≤ 68000
  vdisplay_nonneg : 0 ≤ i.vdisplay
  vdisplay_le : i.vdisplay ≤ 68000
  vdisplay_lines : i.vdisplay ≤ i.lines * (1 + i.interlace) + i.interlace
  vsync_ge : 4 ≤ i.vsync
  vsync_le : i.vsync ≤ 10
  vfieldrate_pos : 1 ≤ i.vfieldrate
  interlace : i.interlace = 0 ∨ i.interlace = 1

section
variable {hdisplay vdisplay vrefresh : ℤ} {reduced interlaced margins : Bool} {i : CvtInput}

/-- A margin is no more than 1.8 percent. -/
theorem margin_bounds {x : ℤ} (hx0 : 0 ≤ x) (hx : x ≤ 65535) :
    0 ≤ (if margins then x * 18 / 1000 else 0) ∧ (if margins then x * 18 / 1000 else 0) ≤ 1179 := by
  split <;> omega

theorem margin_eq {x : ℤ} (hx0 : 0 ≤ x) (hx : x ≤ 65535) :
    (i32 (x * 18)).tdiv 1000 = x * 18 / 1000 := by
  rw [i32_of_range (by omega) (by omega), Int.tdiv_eq_ediv_of_nonneg (by omega)]

theorem lines_bounds (hv0 : 1 ≤ vdisplay) (hv : vdisplay ≤ 65535) :
    0 ≤ (if interlaced then vdisplay / 2 else vdisplay) ∧
      (if interlaced then vdisplay / 2 else vdisplay) ≤ 65535 := by
  split <;> omega

theorem cvtExactInput_sized (hh0 : 1 ≤ hdisplay) (hh : hdisplay ≤ 65535) (hv0 : 1 ≤ vdisplay)
    (hv : vdisplay ≤ 65535) (hr : 1 ≤ vrefresh) :
    (cvtExactInput hdisplay vdisplay vrefresh interlaced margins).Sized := by
  have hvsync := cvtVsync_bounds hdisplay vdisplay
  have hlines := @lines_bounds vdisplay interlaced hv0 hv
  have hhmargin := @margin_bounds margins (hdisplay - hdisplay % 8) (by omega) (by omega)
  have hvmargin := @margin_bounds margins _ hlines.1 hlines.2
  unfold cvtExactInput
  dsimp only [cvtHGranularity, cvtMarginPercentage]
  generalize (if margins then (if interlaced then vdisplay / 2 else vdisplay) * 18 / 1000 else 0) =
    vmargin at hvmargin ⊢
  cases interlaced with
  | false => constructor <;> simp <;> omega
  | true => constructor <;> simp <;> omega

/-- The code and the formula start from the same. -/
theorem cvtInput_eq (hh0 : 1 ≤ hdisplay) (hh : hdisplay ≤ 65535) (hv0 : 1 ≤ vdisplay)
    (hv : vdisplay ≤ 65535) (hr : 1 ≤ vrefresh)
    (hrate : (cvtExactInput hdisplay vdisplay vrefresh interlaced margins).vfieldrate <
      0x80000000) :
    cvtInput hdisplay vdisplay vrefresh interlaced margins =
      cvtExactInput hdisplay vdisplay vrefresh interlaced margins := by
  have hlines := @lines_bounds vdisplay interlaced hv0 hv
  have hhmargin := @margin_bounds margins (hdisplay - hdisplay % 8) (by omega) (by omega)
  have hne : vrefresh ≠ 0 := by omega
  have hmod : hdisplay.tmod 8 = hdisplay % 8 := Int.tmod_eq_emod_of_nonneg (by omega)
  have hhalf : vdisplay.tdiv 2 = vdisplay / 2 := Int.tdiv_eq_ediv_of_nonneg (by omega)
  have hfield : u32 (if interlaced then i32 (vrefresh * 2) else vrefresh) =
      if interlaced then vrefresh * 2 else vrefresh := by
    cases interlaced with
    | false =>
      have hrate : vrefresh < 0x80000000 := hrate
      rw [if_neg Bool.false_ne_true, if_neg Bool.false_ne_true,
        u32_of_range (by omega) (by omega)]
    | true =>
      have hrate : vrefresh * 2 < 0x80000000 := hrate
      rw [if_pos rfl, if_pos rfl, i32_of_range (by omega) (by omega),
        u32_of_range (by omega) (by omega)]
  unfold cvtInput cvtExactInput
  dsimp only [cvtHGranularity, cvtMarginPercentage]
  rw [if_neg hne, hmod, hhalf, margin_eq (by omega) (by omega), margin_eq hlines.1 hlines.2, hfield]
  rw [Int.tmod_eq_emod_of_nonneg hhmargin.1, i32_of_range (by omega) (by omega),
    i32_of_range (by omega) (by omega), i32_of_range (by omega) (by omega)]

/-! ### The horizontal period -/

namespace CvtInput

theorem Sized.halfLines_pos (hi : i.Sized) : 6 ≤ i.exactHalfLines := by
  have := hi.lines_nonneg
  have := hi.interlace
  unfold exactHalfLines cvtMinVPorch
  omega

/-- A field has fewer than 1819 periods of the minimal blanking. -/
theorem time_bounds {minVblank total k : ℤ} (htotal : 0 ≤ total) (hk : k = 1 ∨ k = 2)
    (hp : 1 ≤ i.exactTime minVblank * k / total) :
    0 < total ∧ total ≤ i.exactTime minVblank * k ∧ minVblank * 1000 * i.vfieldrate ≤ 1000000000 ∧
      0 < i.exactTime minVblank := by
  have hpos : 0 < total := by
    rcases htotal.eq_or_lt with h0 | hpos
    · rw [← h0] at hp
      omega
    · exact hpos
  have hle : total ≤ i.exactTime minVblank * k := by
    have := (Int.le_ediv_iff_mul_le hpos).mp hp
    omega
  have htime : 0 < i.exactTime minVblank := by
    rcases hk with rfl | rfl <;> omega
  refine ⟨hpos, hle, ?_, htime⟩
  unfold exactTime hvFactor at htime
  omega

theorem Sized.time_eq (hi : i.Sized) {minVblank : ℤ} (hmin : 0 ≤ minVblank)
    (hle : minVblank * 1000 * i.vfieldrate ≤ 1000000000) :
    i32 (u32 (hvFactor * 1000000 - u32 (minVblank * hvFactor * i.vfieldrate))) =
      i.exactTime minVblank ∧ i.exactTime minVblank ≤ 1000000000 := by
  have hpos : 0 ≤ minVblank * 1000 * i.vfieldrate :=
    mul_nonneg (by omega) (by have := hi.vfieldrate_pos; omega)
  unfold exactTime hvFactor
  rw [u32_of_range hpos (by omega), u32_of_range (by omega) (by omega),
    i32_of_range (by omega) (by omega)]
  omega

/-- Where a field has room for the blanking, its periods are as many as in the formula. -/
theorem Sized.rate_of_time (hi : i.Sized) {minVblank : ℤ} (hmin : 460 ≤ minVblank)
    (htime : 0 ≤ i.exactTime minVblank) :
    minVblank * 1000 * i.vfieldrate ≤ 1000000000 ∧ i.vfieldrate ≤ 2173 := by
  have hrate := hi.vfieldrate_pos
  have hle : 460 * i.vfieldrate ≤ minVblank * i.vfieldrate :=
    mul_le_mul_of_nonneg_right hmin (by omega)
  have hassoc : minVblank * 1000 * i.vfieldrate = 1000 * (minVblank * i.vfieldrate) := by
    rw [mul_right_comm, mul_comm]
  unfold exactTime hvFactor at htime
  omega

theorem Sized.hperiod_eq (hi : i.Sized) (htime : 0 ≤ i.exactTime cvtMinVsyncBp) :
    i.hperiod = some (i.exactHperiod false) := by
  have hhalf := hi.halfLines_pos
  have hrate := hi.vfieldrate_pos
  obtain ⟨hfield, hratele⟩ := hi.rate_of_time (by decide) htime
  obtain ⟨heq, hmax⟩ := hi.time_eq (by decide) hfield
  have hlines : i32 ((i.lines + cvtMinVPorch) * 2 + i.interlace) = i.exactHalfLines := by
    have := hi.lines_nonneg
    have := hi.lines_le
    have := hi.interlace
    unfold exactHalfLines cvtMinVPorch
    exact i32_of_range (by omega) (by omega)
  have hhalfle : i.exactHalfLines ≤ 140000 := by
    have := hi.lines_le
    have := hi.interlace
    unfold exactHalfLines cvtMinVPorch
    omega
  have htotal : 0 < i.exactHalfLines * i.vfieldrate := mul_pos (by omega) (by omega)
  have htotalle : i.exactHalfLines * i.vfieldrate ≤ 140000 * 2173 :=
    mul_le_mul hhalfle hratele (by omega) (by decide)
  unfold hperiod
  dsimp only
  rw [heq, hlines, i32_of_range (by omega) (by omega), u32_of_range (by omega) (by omega)]
  exact udiv_of_pos (by omega) (by omega) htotal (by omega)

theorem Sized.rbHperiod_eq (hi : i.Sized) (htime : 0 ≤ i.exactTime cvtRbMinVblank)
    (hlines : 0 < i.lines) : i.rbHperiod = some (i.exactHperiod true) := by
  have hlinesle := hi.lines_le
  have hrate := hi.vfieldrate_pos
  obtain ⟨hfield, hratele⟩ := hi.rate_of_time (by decide) htime
  obtain ⟨heq, hmax⟩ := hi.time_eq (by decide) hfield
  have htotal : 0 < i.lines * i.vfieldrate := mul_pos (by omega) (by omega)
  have htotalle : i.lines * i.vfieldrate ≤ 68000 * 2173 :=
    mul_le_mul hlinesle hratele (by omega) (by decide)
  unfold rbHperiod
  rw [heq, u32_of_range (by omega) (by omega)]
  exact udiv_of_pos (by omega) (by omega) htotal (by omega)

/-- The time of a field that a period of one or more was worked out from. -/
theorem Sized.time_nonneg (hi : i.Sized) (hp : 1 ≤ i.exactHperiod false) :
    0 ≤ i.exactTime cvtMinVsyncBp := by
  have hhalf := hi.halfLines_pos
  have hrate := hi.vfieldrate_pos
  have hnonneg : 0 ≤ i.exactHalfLines * i.vfieldrate := mul_nonneg (by omega) (by omega)
  obtain ⟨-, -, -, htime⟩ := time_bounds hnonneg (.inr rfl) hp
  exact Int.le_of_lt htime

theorem Sized.rbTime_nonneg (hi : i.Sized) (hp : 1 ≤ i.exactHperiod true) :
    0 ≤ i.exactTime cvtRbMinVblank ∧ 0 < i.lines := by
  have hrate := hi.vfieldrate_pos
  have hlines := hi.lines_nonneg
  have hnonneg : 0 ≤ i.lines * i.vfieldrate := mul_nonneg hlines (by omega)
  have hp' : 1 ≤ i.exactTime cvtRbMinVblank * 1 / (i.lines * i.vfieldrate) := by
    rw [mul_one]
    exact hp
  obtain ⟨hpos, -, -, htime⟩ := time_bounds hnonneg (.inl rfl) hp'
  refine ⟨Int.le_of_lt htime, hlines.lt_of_ne fun h0 => ?_⟩
  rw [← h0, zero_mul] at hpos
  exact lt_irrefl 0 hpos

/-- Without a period there is no mode. -/
theorem Sized.branch_zero {reduced : Bool} (hi : i.Sized)
    (htime : 0 ≤ i.exactTime (if reduced then cvtRbMinVblank else cvtMinVsyncBp))
    (h0 : i.exactHperiod reduced = 0) :
    (if reduced then i.reducedBlanking else i.blanking) = none := by
  cases reduced with
  | true =>
    simp only [reducedBlanking]
    rcases hi.lines_nonneg.eq_or_lt with hlines | hlines
    · have hnone : i.rbHperiod = none := by
        unfold rbHperiod
        rw [← hlines, show u32 0 * i.vfieldrate = 0 from zero_mul _]
        rfl
      rw [hnone]
      rfl
    · rw [hi.rbHperiod_eq htime hlines, h0]
      rfl
  | false =>
    simp only [blanking]
    rw [hi.hperiod_eq htime, h0]
    rfl

/-! ### The timings -/

theorem Sized.porch_eq (hi : i.Sized) (hp : 1 ≤ i.exactHperiod false)
    (hmax : i.exactHperiod false ≤ 100003) :
    i.vsyncandbackPorch (i.exactHperiod false) = some (i.exactPorch false) := by
  unfold vsyncandbackPorch exactPorch
  rw [udiv_of_pos (by decide) (by decide) (by omega) (by omega)]
  have hquot0 : 0 ≤ cvtMinVsyncBp * hvFactor / i.exactHperiod false :=
    Int.ediv_nonneg (by decide) (by omega)
  have hquot : cvtMinVsyncBp * hvFactor / i.exactHperiod false ≤ cvtMinVsyncBp * hvFactor :=
    Int.ediv_le_self _ (by decide)
  generalize cvtMinVsyncBp * hvFactor / i.exactHperiod false = quot at hquot0 hquot
  unfold cvtMinVsyncBp hvFactor at hquot
  rw [Option.map_some, u32_of_range (by omega) (by omega), i32_of_range (by omega) (by omega)]
  simp only [if_false, Option.some.injEq, Bool.false_eq_true]
  omega

theorem Sized.vbilines_eq (hi : i.Sized) (hp : 1 ≤ i.exactHperiod true)
    (hmax : i.exactHperiod true < 0x100000000) :
    i.vbilines (i.exactHperiod true) = some (i.exactPorch true) := by
  unfold vbilines exactPorch
  rw [udiv_of_pos (by decide) (by decide) (by omega) (by omega)]
  have hquot0 : 0 ≤ cvtRbMinVblank * hvFactor / i.exactHperiod true :=
    Int.ediv_nonneg (by decide) (by omega)
  have hquot : cvtRbMinVblank * hvFactor / i.exactHperiod true ≤ cvtRbMinVblank * hvFactor :=
    Int.ediv_le_self _ (by decide)
  generalize cvtRbMinVblank * hvFactor / i.exactHperiod true = quot at hquot0 hquot
  unfold cvtRbMinVblank hvFactor at hquot
  rw [Option.map_some, u32_of_range (by omega) (by omega), i32_of_range (by omega) (by omega)]
  simp only [if_true, Option.some.injEq]
  omega

theorem percentage_bounds (hp : 1 ≤ i.exactHperiod false) :
    20000 ≤ i.exactPercentage ∧ i.exactPercentage ≤ 30000 := by
  unfold exactPercentage hvFactor cvtCPrime cvtMPrime
  omega

theorem percentage_eq (hp : 1 ≤ i.exactHperiod false) (hmax : i.exactHperiod false ≤ 100003) :
    hblankPercentage (i.exactHperiod false) = i.exactPercentage := by
  unfold hblankPercentage exactPercentage cvtMPrime cvtCPrime hvFactor
  dsimp only
  rw [@u32_of_range (300 * i.exactHperiod false) (by omega) (by omega),
    u32_of_range (by omega) (by omega)]
  omega

/-- The blanking time before it is rounded: a quarter of the width to three sevenths. -/
theorem Sized.hblank_bounds (hi : i.Sized) (hp : 1 ≤ i.exactHperiod false) :
    0 ≤ i.hdisplay * i.exactPercentage ∧ i.hdisplay * i.exactPercentage ≤ 2040000000 ∧
      i.hdisplay / 4 ≤ i.hdisplay * i.exactPercentage / (100 * hvFactor - i.exactPercentage) ∧
      7 * (i.hdisplay * i.exactPercentage / (100 * hvFactor - i.exactPercentage)) ≤
        3 * i.hdisplay := by
  have h0 := hi.hdisplay_nonneg
  have hle := hi.hdisplay_le
  obtain ⟨hq0, hq⟩ := percentage_bounds hp
  generalize i.exactPercentage = q at hq0 hq
  generalize i.hdisplay = h at h0 hle
  have hden : 70000 ≤ 100 * hvFactor - q ∧ 100 * hvFactor - q ≤ 80000 := by
    unfold hvFactor
    omega
  generalize 100 * hvFactor - q = den at hden
  have hlow : h * 20000 ≤ h * q := mul_le_mul_of_nonneg_left hq0 h0
  have hhigh : h * q ≤ h * 30000 := mul_le_mul_of_nonneg_left hq h0
  have hquarter : h / 4 * den ≤ h / 4 * 80000 :=
    mul_le_mul_of_nonneg_left hden.2 (Int.ediv_nonneg h0 (by decide))
  have hfloor : h * q / den * den ≤ h * q := Int.ediv_mul_le _ (by omega)
  have hquot : h * q / den * 70000 ≤ h * q / den * den :=
    mul_le_mul_of_nonneg_left hden.1 (Int.ediv_nonneg (by omega) (by omega))
  refine ⟨by omega, by omega, ?_, by omega⟩
  exact Int.le_ediv_of_mul_le (by omega) (by omega)

theorem Sized.hblank_eq (hi : i.Sized) (hp : 1 ≤ i.exactHperiod false)
    (hmax : i.exactHperiod false ≤ 100003) :
    i.hblank (i.exactHperiod false) = some (i.exactHblank false) := by
  have h0 := hi.hdisplay_nonneg
  have hle := hi.hdisplay_le
  obtain ⟨hq0, hq⟩ := percentage_bounds hp
  obtain ⟨hnum0, hnum, hlow, hhigh⟩ := hi.hblank_bounds hp
  have hden : 70000 ≤ 100 * hvFactor - i.exactPercentage ∧
      100 * hvFactor - i.exactPercentage ≤ 80000 := by
    unfold hvFactor
    omega
  unfold hblank exactHblank
  dsimp only
  rw [percentage_eq hp hmax, u32_of_range h0 (by omega),
    udiv_of_pos hnum0 (by omega) (by omega) (by omega), Option.map_some,
    i32_of_range (by omega) (by omega), Int.tmod_eq_emod_of_nonneg (by omega)]
  simp only [if_false, Bool.false_eq_true]

/-- The timings of the formula. -/
structure ExactTimes (i : CvtInput) (reduced : Bool) (m : Mode) : Prop where
  hdisplay : m.hdisplay = i.hdisplay
  hsyncStart : m.hsyncStart = if reduced then i.exactHsyncStart true
    else i.exactHsyncStart false + (8 - i.exactHsyncStart false % 8)
  hsyncEnd : m.hsyncEnd = i.exactHsyncEnd reduced
  htotal : m.htotal = i.exactHtotal reduced
  vdisplay : m.vdisplay = i.vdisplay
  vsyncStart : m.vsyncStart = i.vdisplay + 3
  vsyncEnd : m.vsyncEnd = i.vdisplay + 3 + i.vsync

theorem exactPorch_bounds {reduced : Bool} (hi : i.Sized) (hp : 1 ≤ i.exactHperiod reduced) :
    i.vsync + 3 ≤ i.exactPorch reduced ∧ i.exactPorch reduced ≤ 550001 := by
  have hvsync := hi.vsync_le
  have hquot : ∀ x : ℤ, 0 ≤ x → 0 ≤ x / i.exactHperiod reduced ∧ x / i.exactHperiod reduced ≤ x :=
    fun x hx => ⟨Int.ediv_nonneg hx (by omega), Int.ediv_le_self _ hx⟩
  have h460 := hquot (cvtRbMinVblank * hvFactor) (by decide)
  have h550 := hquot (cvtMinVsyncBp * hvFactor) (by decide)
  unfold exactPorch cvtRbVfporch cvtMinVBporch cvtMinVPorch
  unfold cvtRbMinVblank hvFactor at h460
  unfold cvtMinVsyncBp hvFactor at h550
  unfold cvtRbMinVblank cvtMinVsyncBp hvFactor
  cases reduced with
  | true =>
    simp only [if_true]
    omega
  | false =>
    simp only [if_false, Bool.false_eq_true]
    omega

theorem Sized.exactHblank_bounds (hi : i.Sized) (hp : 1 ≤ i.exactHperiod false) :
    0 ≤ i.exactHblank false ∧ i.exactHblank false % 16 = 0 ∧
      i.hdisplay / 4 ≤ i.exactHblank false + 15 ∧ 7 * i.exactHblank false ≤ 3 * i.hdisplay := by
  have h0 := hi.hdisplay_nonneg
  obtain ⟨hnum0, hnum, hlow, hhigh⟩ := hi.hblank_bounds hp
  unfold exactHblank cvtHGranularity
  simp only [if_false, Bool.false_eq_true]
  omega

theorem Sized.times_eq (hi : i.Sized) (hp : 1 ≤ i.exactHperiod false)
    (htotal : i.exactHtotal false ≤ 2147) :
    i.ExactTimes false (i.times (i.exactHblank false) (i.exactPorch false)) ∧
      (i.times (i.exactHblank false) (i.exactPorch false)).vtotal = i.exactVtotal false := by
  have hv0 := hi.vdisplay_nonneg
  have hvle := hi.vdisplay_le
  have hvsync0 := hi.vsync_ge
  have hl0 := hi.lines_nonneg
  have hlle := hi.lines_le
  obtain ⟨hporch0, hporch⟩ := exactPorch_bounds hi hp
  obtain ⟨hb0, hbmod, hblow, hbhigh⟩ := hi.exactHblank_bounds hp
  unfold exactHtotal at htotal
  have htot : i32 (i.hdisplay + i.exactHblank false) = i.hdisplay + i.exactHblank false :=
    i32_of_range (by omega) (by omega)
  have hhalf : (i.exactHblank false).tdiv 2 = i.exactHblank false / 2 :=
    Int.tdiv_eq_ediv_of_nonneg hb0
  have hend : i32 (i.hdisplay + i.exactHblank false / 2) = i.hdisplay + i.exactHblank false / 2 :=
    i32_of_range (by omega) (by omega)
  have hpulse : (i32 ((i.hdisplay + i.exactHblank false) * cvtHsyncPercentage)).tdiv 100 =
      (i.hdisplay + i.exactHblank false) * cvtHsyncPercentage / 100 := by
    unfold cvtHsyncPercentage
    rw [i32_of_range (by omega) (by omega), Int.tdiv_eq_ediv_of_nonneg (by omega)]
  have hstart : 0 ≤ i.exactHsyncStart false ∧ i.exactHsyncStart false ≤ 2147 := by
    unfold exactHsyncStart exactHsyncEnd exactHtotal cvtHsyncPercentage
    simp only [if_false, Bool.false_eq_true]
    omega
  have hstart' : i32 (i.hdisplay + i.exactHblank false / 2 -
      (i.hdisplay + i.exactHblank false) * cvtHsyncPercentage / 100) = i.exactHsyncStart false :=
    i32_of_range (by have := hstart.1; exact le_trans (by decide) this)
      (lt_of_le_of_lt hstart.2 (by decide))
  refine ⟨⟨rfl, ?_, ?_, htot, rfl, ?_, ?_⟩, ?_⟩
  · unfold times cvtHGranularity
    dsimp only
    rw [htot, hhalf, hend, hpulse, hstart', Int.tmod_eq_emod_of_nonneg hstart.1,
      i32_of_range (by omega) (by omega)]
    simp only [if_false, Bool.false_eq_true]
  · change i32 (i.hdisplay + (i.exactHblank false).tdiv 2) = _
    rw [hhalf, hend]
    rfl
  · exact i32_of_range (by unfold cvtMinVPorch; omega) (by unfold cvtMinVPorch; omega)
  · exact i32_of_range (by unfold cvtMinVPorch; omega) (by unfold cvtMinVPorch; omega)
  · exact i32_of_range (by unfold cvtMinVPorch; omega) (by unfold cvtMinVPorch; omega)

theorem Sized.rbTimes_eq (hi : i.Sized) (hp : 1 ≤ i.exactHperiod true) :
    i.ExactTimes true (i.rbTimes (i.exactPorch true)) ∧
      (i.rbTimes (i.exactPorch true)).vtotal = i.exactVtotal true := by
  have h0 := hi.hdisplay_nonneg
  have hle := hi.hdisplay_le
  have hv0 := hi.vdisplay_nonneg
  have hvle := hi.vdisplay_le
  have hvsync0 := hi.vsync_ge
  have hl0 := hi.lines_nonneg
  have hlle := hi.lines_le
  obtain ⟨hporch0, hporch⟩ := exactPorch_bounds hi hp
  have hstart : i32 (i.hdisplay + 80 - 32) = i.hdisplay + 80 - 32 :=
    i32_of_range (by omega) (by omega)
  have hend : i32 (i.hdisplay + 80) = i.hdisplay + 80 := i32_of_range (by omega) (by omega)
  have htot : i32 (i.hdisplay + 160) = i.hdisplay + 160 := i32_of_range (by omega) (by omega)
  refine ⟨⟨rfl, hstart, hend, htot, rfl, ?_, ?_⟩, ?_⟩
  · exact i32_of_range (by unfold cvtRbVfporch; omega) (by unfold cvtRbVfporch; omega)
  · exact i32_of_range (by unfold cvtRbVfporch; omega) (by unfold cvtRbVfporch; omega)
  · exact i32_of_range (by omega) (by omega)

theorem Sized.rbHperiod_le (hi : i.Sized) (hp : 1 ≤ i.exactHperiod true) :
    i.exactHperiod true ≤ 1000000000 := by
  have hrate := hi.vfieldrate_pos
  have hlines : 0 ≤ i.lines * i.vfieldrate := mul_nonneg hi.lines_nonneg (by omega)
  have hp' : 1 ≤ i.exactTime cvtRbMinVblank * 1 / (i.lines * i.vfieldrate) := by
    rw [mul_one]
    exact hp
  obtain ⟨-, -, hfield, htime⟩ := time_bounds hlines (.inl rfl) hp'
  obtain ⟨-, hmax⟩ := hi.time_eq (by decide) hfield
  exact (Int.ediv_le_self _ (Int.le_of_lt htime)).trans hmax

/-- The branch that is taken gives the timings and the period of the formula. -/
theorem Sized.branch_eq {reduced : Bool} (hi : i.Sized) (hp : 1 ≤ i.exactHperiod reduced)
    (htotal : i.exactHtotal reduced ≤ 2147)
    (hmax : reduced = false → i.exactHperiod false ≤ 100003) :
    ∃ m, (if reduced then i.reducedBlanking else i.blanking) =
      some (m, i.exactHperiod reduced) ∧ i.ExactTimes reduced m ∧
        m.vtotal = i.exactVtotal reduced := by
  cases reduced with
  | true =>
    have htime : i.exactHperiod true ≤ 1000000000 := hi.rbHperiod_le hp
    refine ⟨i.rbTimes (i.exactPorch true), ?_, hi.rbTimes_eq hp⟩
    simp only [if_true, reducedBlanking, hi.rbHperiod_eq (hi.rbTime_nonneg hp).1 (hi.rbTime_nonneg hp).2,
       hi.vbilines_eq hp (by omega), Option.bind_eq_bind, Option.bind_some]
  | false =>
    refine ⟨i.times (i.exactHblank false) (i.exactPorch false), ?_, hi.times_eq hp htotal⟩
    simp only [Bool.false_eq_true, if_false, blanking, hi.hperiod_eq (hi.time_nonneg hp),
      hi.porch_eq hp (hmax rfl), hi.hblank_eq hp (hmax rfl), Option.bind_eq_bind, Option.bind_some]

end CvtInput

/-! ### The clock -/

theorem cvtFinish_eq {mode : Mode} {hperiod : ℤ} (hp : 1 ≤ hperiod) (hmax : hperiod < 0x100000000)
    (h0 : 0 ≤ mode.htotal) (htotal : mode.htotal ≤ 2147) :
    ∃ m, cvtFinish reduced interlaced mode hperiod = some m ∧
      m.clock = mode.htotal * hvFactor * 1000 / hperiod -
        mode.htotal * hvFactor * 1000 / hperiod % cvtClockStep ∧
      m = { mode with
        clock := m.clock
        vtotal := if interlaced then i32 (mode.vtotal * 2) else mode.vtotal
        name := m.name
        flags := m.flags } := by
  unfold cvtFinish hvFactor
  rw [@i32_of_range (mode.htotal * 1000) (by omega) (by omega), i32_of_range (by omega) (by omega),
    udiv_of_pos (by omega) (by omega) (by omega) (by omega)]
  have hquot0 : 0 ≤ mode.htotal * 1000 * 1000 / hperiod := Int.ediv_nonneg (by omega) (by omega)
  have hquot : mode.htotal * 1000 * 1000 / hperiod ≤ mode.htotal * 1000 * 1000 :=
    Int.ediv_le_self _ (by omega)
  have hclock : ∀ q, q = mode.htotal * 1000 * 1000 / hperiod →
      q - q.tmod cvtClockStep = mode.htotal * 1000 * 1000 / hperiod -
        mode.htotal * 1000 * 1000 / hperiod % cvtClockStep := by
    intro q hq
    rw [hq, Int.tmod_eq_emod_of_nonneg hquot0]
  refine ⟨_, rfl, ?_, ?_⟩
  · cases interlaced <;> exact hclock _ (i32_of_range (by omega) (by omega))
  · cases interlaced <;> rfl

namespace CvtInput

variable {reduced : Bool}

theorem Sized.rate_lt (hi : i.Sized) (hp : 1 ≤ i.exactHperiod reduced) :
    i.vfieldrate ≤ 2173 := by
  have hhalf := hi.halfLines_pos
  have hrate := hi.vfieldrate_pos
  cases reduced with
  | true =>
    have hlines : 0 ≤ i.lines * i.vfieldrate := mul_nonneg hi.lines_nonneg (by omega)
    have hp' : 1 ≤ i.exactTime cvtRbMinVblank * 1 / (i.lines * i.vfieldrate) := by
      rw [mul_one]
      exact hp
    obtain ⟨-, -, hfield, -⟩ := time_bounds hlines (.inl rfl) hp'
    unfold cvtRbMinVblank at hfield
    omega
  | false =>
    have hlines : 0 ≤ i.exactHalfLines * i.vfieldrate := mul_nonneg (by omega) (by omega)
    obtain ⟨-, -, hfield, -⟩ := time_bounds hlines (.inr rfl) hp
    unfold cvtMinVsyncBp at hfield
    omega

/-- The timings of the formula are in their order, if the line has room for the rounding. -/
theorem ExactTimes.ordered {m : Mode} (hm : i.ExactTimes reduced m) (hi : i.Sized)
    (hp : 1 ≤ i.exactHperiod reduced) (hv : m.vtotal = i.exactVtotal reduced * (1 + i.interlace))
    (hwide : reduced = false → 16 ≤ i.hdisplay) :
    (m.hdisplay ≤ m.hsyncStart ∧ m.hsyncStart ≤ m.hsyncEnd ∧ m.hsyncEnd ≤ m.htotal) ∧
      m.vdisplay ≤ m.vsyncStart ∧ m.vsyncStart ≤ m.vsyncEnd ∧ m.vsyncEnd ≤ m.vtotal := by
  have hmod := hi.hdisplay_mod
  have hvsync := hi.vsync_ge
  have hlines := hi.vdisplay_lines
  obtain ⟨hporch, -⟩ := exactPorch_bounds hi hp
  rw [hm.hdisplay, hm.hsyncStart, hm.hsyncEnd, hm.htotal, hm.vdisplay, hm.vsyncStart, hm.vsyncEnd,
    hv]
  constructor
  · cases reduced with
    | true =>
      simp only [if_true, exactHsyncStart, exactHsyncEnd, exactHtotal, exactHblank, cvtRbHSync,
        cvtRbHBlank]
      omega
    | false =>
      obtain ⟨hb0, hbmod, hblow, hbhigh⟩ := hi.exactHblank_bounds hp
      have hwide := hwide rfl
      simp only [Bool.false_eq_true, if_false, exactHsyncStart, exactHsyncEnd, exactHtotal,
        cvtHsyncPercentage]
      omega
  · have hvtotal : i.lines + i.vsync + 3 ≤ i.exactVtotal reduced := by
      unfold exactVtotal cvtMinVPorch
      cases reduced with
      | true =>
        simp only [if_true]
        omega
      | false =>
        simp only [Bool.false_eq_true, if_false]
        omega
    rcases hi.interlace with hint | hint <;> rw [hint] at hlines ⊢ <;> omega

/-- A line of one character is too short for the rounding. -/
theorem ExactTimes.not_ordered {m : Mode} (hm : i.ExactTimes false m) (hi : i.Sized)
    (hp : 1 ≤ i.exactHperiod false) (hnarrow : i.hdisplay < 16) :
    m.hsyncEnd < m.hsyncStart := by
  have hmod := hi.hdisplay_mod
  obtain ⟨hb0, hbmod, hblow, hbhigh⟩ := hi.exactHblank_bounds hp
  rw [hm.hsyncStart, hm.hsyncEnd]
  simp only [Bool.false_eq_true, if_false, exactHsyncStart, exactHtotal,
    cvtHsyncPercentage]
  omega

theorem exactPercentage_bounds (hp : 1 ≤ i.exactHperiod false)
    (hmax : i.exactHperiod false ≤ 100003) :
    20000 ≤ i.exactPercentage ∧ i.exactPercentage ≤ 30000 ∧
      0 ≤ cvtCPrime * hvFactor - cvtMPrime * i.exactHperiod false / 1000 ∧
      cvtCPrime * hvFactor - cvtMPrime * i.exactHperiod false / 1000 ≤ 30000 := by
  unfold exactPercentage hvFactor cvtCPrime cvtMPrime
  omega

/-- What both branches end with. -/
theorem Sized.end_bounds (hi : i.Sized) (hp : 1 ≤ i.exactHperiod reduced) :
    0 ≤ i.exactHtotal reduced ∧ 0 ≤ i.exactHsyncEnd reduced ∧
      i.exactHsyncEnd reduced ≤ i.exactHtotal reduced ∧ 0 ≤ i.exactHsyncStart reduced ∧
      i.exactHsyncStart reduced ≤ i.exactHtotal reduced ∧ 0 ≤ i.exactVtotal reduced ∧
      i.exactVtotal reduced ≤ 618005 := by
  have h0 := hi.hdisplay_nonneg
  have hl0 := hi.lines_nonneg
  have hlle := hi.lines_le
  have hvsync := hi.vsync_ge
  obtain ⟨hporch0, hporch⟩ := exactPorch_bounds hi hp
  cases reduced with
  | true =>
    simp only [if_true, exactHsyncEnd, exactHsyncStart, exactHtotal, exactVtotal, exactHblank,
      cvtRbHBlank, cvtRbHSync]
    omega
  | false =>
    obtain ⟨hb0, -⟩ := hi.exactHblank_bounds hp
    simp only [Bool.false_eq_true, if_false, exactHsyncEnd, exactHsyncStart, exactHtotal,
      exactVtotal, cvtMinVPorch, cvtHsyncPercentage]
    omega

theorem quot_bounds {x y : ℤ} (hx : 0 ≤ x) (hy : 1 ≤ y) : 0 ≤ x / y ∧ x / y ≤ x :=
  ⟨Int.ediv_nonneg hx (by omega), Int.ediv_le_self _ hx⟩

theorem Sized.rbInts_isInt (hi : i.Sized) (hp : 1 ≤ i.exactHperiod true) :
    ∀ x ∈ i.rbInts, IsInt x := by
  have hrate := hi.vfieldrate_pos
  have hratele := hi.rate_lt hp
  have hquot := @quot_bounds (cvtRbMinVblank * hvFactor) _ (by decide) hp
  simp only [rbInts, List.forall_mem_cons, List.not_mem_nil, false_imp_iff, implies_true,
    and_true, IsInt, exactTime]
  unfold cvtRbMinVblank hvFactor at hquot ⊢
  omega

theorem Sized.blankingInts_isInt (hi : i.Sized) (hp : 1 ≤ i.exactHperiod false)
    (htotal : i.exactHtotal false ≤ 2147) : ∀ x ∈ i.blankingInts, IsInt x := by
  have hrate := hi.vfieldrate_pos
  have hratele := hi.rate_lt hp
  have hquot := @quot_bounds (cvtMinVsyncBp * hvFactor) _ (by decide) hp
  have hle := hi.hdisplay_le
  have hl0 := hi.lines_nonneg
  have hlle := hi.lines_le
  have hint := hi.interlace
  have hvsync := hi.vsync_ge
  obtain ⟨hporch0, hporch⟩ := exactPorch_bounds hi hp
  obtain ⟨hn0, hn, hnlow, hnhigh⟩ := hi.hblank_bounds hp
  obtain ⟨ht0, he0, hele, hs0, hsle, hvt0, hvtle⟩ := hi.end_bounds hp
  simp only [blankingInts, List.forall_mem_cons, List.not_mem_nil, false_imp_iff, implies_true,
    and_true, IsInt, exactTime, exactHalfLines]
  unfold cvtMinVsyncBp hvFactor at hquot ⊢
  unfold hvFactor at hnlow hnhigh
  unfold cvtMinVPorch cvtHsyncPercentage cvtHGranularity
  omega

theorem Sized.sharedInts_isInt (hi : i.Sized) (hp : 1 ≤ i.exactHperiod reduced)
    (htotal : i.exactHtotal reduced ≤ 2147) : ∀ x ∈ i.sharedInts reduced, IsInt x := by
  have hv0 := hi.vdisplay_nonneg
  have hvle := hi.vdisplay_le
  have hvsync0 := hi.vsync_ge
  obtain ⟨hporch0, hporch⟩ := exactPorch_bounds hi hp
  obtain ⟨ht0, he0, hele, hs0, hsle, hvt0, hvtle⟩ := hi.end_bounds hp
  have hclock := @quot_bounds (i.exactHtotal reduced * hvFactor * 1000) _
    (by unfold hvFactor; omega) hp
  have hvtotal : 0 ≤ i.exactVtotal reduced * (1 + i.interlace) ∧
      i.exactVtotal reduced * (1 + i.interlace) ≤ 1236010 := by
    rcases hi.interlace with hint | hint <;> rw [hint] <;> omega
  simp only [sharedInts, List.forall_mem_cons, List.not_mem_nil, false_imp_iff, implies_true,
    and_true, IsInt]
  unfold hvFactor at hclock ⊢
  omega

theorem Sized.intSteps_isInt (hi : i.Sized) (hp : 1 ≤ i.exactHperiod reduced)
    (htotal : i.exactHtotal reduced ≤ 2147) : ∀ x ∈ i.intSteps reduced, IsInt x := by
  have hshared := hi.sharedInts_isInt hp htotal
  cases reduced with
  | true => exact List.forall_mem_append.mpr ⟨hi.rbInts_isInt hp, hshared⟩
  | false => exact List.forall_mem_append.mpr ⟨hi.blankingInts_isInt hp htotal, hshared⟩

theorem Sized.rbUints_isUint (hi : i.Sized) (hp : 1 ≤ i.exactHperiod true) :
    ∀ x ∈ i.rbUints, IsUint x := by
  have hrate := hi.vfieldrate_pos
  have hl0 := hi.lines_nonneg
  have hlle := hi.lines_le
  have hquot := @quot_bounds (cvtRbMinVblank * hvFactor) _ (by decide) hp
  have hnonneg : 0 ≤ i.lines * i.vfieldrate := mul_nonneg hl0 (by omega)
  have hp' : 1 ≤ i.exactTime cvtRbMinVblank * 1 / (i.lines * i.vfieldrate) := by
    rw [mul_one]
    exact hp
  obtain ⟨-, hle, hfield, htime⟩ := time_bounds hnonneg (.inl rfl) hp'
  obtain ⟨-, hmax⟩ := hi.time_eq (by decide) hfield
  simp only [rbUints, List.forall_mem_cons, List.not_mem_nil, false_imp_iff, implies_true,
    and_true, IsUint]
  unfold cvtRbMinVblank hvFactor at *
  omega

theorem Sized.blankingUints_isUint (hi : i.Sized) (hp : 1 ≤ i.exactHperiod false)
    (hmax : i.exactHperiod false ≤ 100003) : ∀ x ∈ i.blankingUints, IsUint x := by
  have hrate := hi.vfieldrate_pos
  have h0 := hi.hdisplay_nonneg
  have hhle := hi.hdisplay_le
  have hhalf := hi.halfLines_pos
  have hquot := @quot_bounds (cvtMinVsyncBp * hvFactor) _ (by decide) hp
  have hnonneg : 0 ≤ i.exactHalfLines * i.vfieldrate := mul_nonneg (by omega) (by omega)
  have hhalfle : i.exactHalfLines ≤ i.exactHalfLines * i.vfieldrate :=
    le_mul_of_one_le_right (by omega) hrate
  obtain ⟨-, hle, hfield, htime⟩ := time_bounds hnonneg (.inr rfl) hp
  obtain ⟨-, htimele⟩ := hi.time_eq (by decide) hfield
  obtain ⟨hn0, hn, -, -⟩ := hi.hblank_bounds hp
  obtain ⟨hq0, hq, hr0, hr⟩ := exactPercentage_bounds hp hmax
  simp only [blankingUints, List.forall_mem_cons, List.not_mem_nil, false_imp_iff, implies_true,
    and_true, IsUint]
  unfold cvtMinVsyncBp hvFactor cvtCPrime cvtMPrime at *
  omega

theorem Sized.uintSteps_isUint (hi : i.Sized) (hp : 1 ≤ i.exactHperiod reduced)
    (htotal : i.exactHtotal reduced ≤ 2147) (hmax : reduced = false → i.exactHperiod false ≤ 100003) :
    ∀ x ∈ i.uintSteps reduced, IsUint x := by
  have hrate := hi.vfieldrate_pos
  have hratele := hi.rate_lt hp
  obtain ⟨ht0, -⟩ := hi.end_bounds hp
  have hpmax : i.exactHperiod reduced ≤ 1000000000 := by
    cases reduced with
    | true => exact hi.rbHperiod_le hp
    | false => exact (hmax rfl).trans (by decide)
  have hshared : ∀ x ∈ [i.vfieldrate, i.exactHperiod reduced,
      i.exactHtotal reduced * hvFactor * 1000], IsUint x := by
    simp only [List.forall_mem_cons, List.not_mem_nil, false_imp_iff, implies_true, and_true,
      IsUint]
    unfold hvFactor
    omega
  cases reduced with
  | true => exact List.forall_mem_append.mpr ⟨hi.rbUints_isUint hp, hshared⟩
  | false => exact List.forall_mem_append.mpr ⟨hi.blankingUints_isUint hp (hmax rfl), hshared⟩

end CvtInput

/-- Within these bounds the code gives what the formula gives. -/
theorem drmCvtMode_exact (hh0 : 1 ≤ hdisplay) (hh : hdisplay ≤ 65535) (hv0 : 1 ≤ vdisplay)
    (hv : vdisplay ≤ 65535) (hr : 1 ≤ vrefresh)
    (hi : i = cvtExactInput hdisplay vdisplay vrefresh interlaced margins)
    (hp : 1 ≤ i.exactHperiod reduced) (htotal : i.exactHtotal reduced ≤ 2147)
    (hmax : reduced = false → i.exactHperiod false ≤ 100003) :
    ∃ m, drmCvtMode hdisplay vdisplay vrefresh reduced interlaced margins = some m ∧
      m.clock = i.exactClock reduced ∧ i.ExactTimes reduced m ∧
      m.vtotal = i.exactVtotal reduced * (1 + i.interlace) := by
  have hsized : i.Sized := hi ▸ cvtExactInput_sized hh0 hh hv0 hv hr
  have hrate := hsized.rate_lt hp
  have hinput := @cvtInput_eq hdisplay vdisplay vrefresh interlaced margins hh0 hh hv0 hv hr
    (by rw [← hi]; omega)
  obtain ⟨times, hbranch, htimes, hvtotal⟩ := hsized.branch_eq hp htotal hmax
  obtain ⟨ht0, -, -, -, -, hvt0, hvtle⟩ := hsized.end_bounds hp
  have hpmax : i.exactHperiod reduced ≤ 1000000000 := by
    cases reduced with
    | true => exact hsized.rbHperiod_le hp
    | false => exact (hmax rfl).trans (by decide)
  have hhtotal := htimes.htotal
  obtain ⟨m, hfinish, hclock, hm⟩ := @cvtFinish_eq reduced interlaced times _ hp (by omega)
    (by omega) (by omega)
  refine ⟨m, ?_, ?_, ?_, ?_⟩
  · unfold drmCvtMode
    rw [hinput, ← hi]
    cases reduced with
    | true =>
      rw [if_pos rfl] at hbranch ⊢
      rw [hbranch]
      exact hfinish
    | false =>
      rw [if_neg Bool.false_ne_true] at hbranch ⊢
      rw [hbranch]
      exact hfinish
  · rw [hclock, hhtotal]
    rfl
  · rw [hm]
    exact ⟨htimes.hdisplay, htimes.hsyncStart, htimes.hsyncEnd, htimes.htotal, htimes.vdisplay,
      htimes.vsyncStart, htimes.vsyncEnd⟩
  · have hint : i.interlace = if interlaced then 1 else 0 := by
      rw [hi]
      rfl
    rw [hm, hint]
    rw [hvtotal]
    cases interlaced with
    | true =>
      simp only [if_true]
      rw [i32_of_range (by omega) (by omega)]
      omega
    | false => simp

theorem cvtInputSteps_isInt (hh0 : 1 ≤ hdisplay) (hh : hdisplay ≤ 65535) (hv0 : 1 ≤ vdisplay)
    (hv : vdisplay ≤ 65535)
    (hsized : (cvtExactInput hdisplay vdisplay vrefresh interlaced margins).Sized)
    (hrate : (cvtExactInput hdisplay vdisplay vrefresh interlaced margins).vfieldrate ≤ 2173) :
    ∀ x ∈ cvtInputSteps hdisplay vdisplay vrefresh interlaced margins, IsInt x := by
  have h0 := hsized.hdisplay_nonneg
  have hle := hsized.hdisplay_le
  have hl0 := hsized.lines_nonneg
  have hlle := hsized.lines_le
  have hv0' := hsized.vdisplay_nonneg
  have hvle := hsized.vdisplay_le
  have hrate0 := hsized.vfieldrate_pos
  simp only [cvtInputSteps, List.forall_mem_cons, List.not_mem_nil, false_imp_iff, implies_true,
    and_true, IsInt, cvtHGranularity, cvtMarginPercentage]
  omega

/-- drm_cvt_mode follows the formula exactly within these bounds. -/
theorem cvtRight_iff (hdisplay vdisplay vrefresh : ℤ) (reduced interlaced margins : Bool)
    (hh0 : 1 ≤ hdisplay) (hh : hdisplay ≤ 65535) (hv0 : 1 ≤ vdisplay) (hv : vdisplay ≤ 65535)
    (hr : 1 ≤ vrefresh) :
    CvtRight hdisplay vdisplay vrefresh reduced interlaced margins ↔
      CvtFits hdisplay vdisplay vrefresh reduced interlaced margins := by
  have hsized := @cvtExactInput_sized hdisplay vdisplay vrefresh interlaced margins hh0 hh hv0 hv hr
  have hwidth : 16 ≤ (cvtExactInput hdisplay vdisplay vrefresh interlaced margins).hdisplay ↔
      16 ≤ hdisplay := by
    have hcells : 0 ≤ (hdisplay - hdisplay % 8) * 18 / 1000 / 8 := by omega
    cases margins <;> simp [cvtExactInput, cvtHGranularity, cvtMarginPercentage] <;> omega
  generalize hi : cvtExactInput hdisplay vdisplay vrefresh interlaced margins = i at hsized hwidth
  constructor
  · rintro ⟨-, hints, huints, m, hm, -, ⟨-, hsync, -⟩, -⟩
    rw [hi] at hints huints
    have hmem : ∀ x ∈ [i.vfieldrate, i.exactHperiod reduced,
        i.exactHtotal reduced * hvFactor * 1000], IsUint x := fun x hx =>
      huints x (List.mem_append_right _ hx)
    have hp0 := (hmem (i.exactHperiod reduced) (by simp)).1
    have htotal : i.exactHtotal reduced ≤ 2147 := by
      have := (hints (i.exactHtotal reduced * hvFactor * 1000)
        (List.mem_append_right _ (by simp [CvtInput.sharedInts]))).2
      unfold hvFactor at this
      omega
    have htime : 0 ≤ i.exactTime (if reduced then cvtRbMinVblank else cvtMinVsyncBp) := by
      cases reduced with
      | true => exact (huints _ (List.mem_append_left _ (by simp [CvtInput.rbUints]))).1
      | false => exact (huints _ (List.mem_append_left _ (by simp [CvtInput.blankingUints]))).1
    have hrate : i.vfieldrate ≤ 2173 := by
      cases reduced with
      | true => exact (hsized.rate_of_time (by decide) htime).2
      | false => exact (hsized.rate_of_time (by decide) htime).2
    have hp : 1 ≤ i.exactHperiod reduced := by
      rcases hp0.eq_or_lt with h0 | hpos
      · have hnone := hsized.branch_zero htime h0.symm
        have hinput := @cvtInput_eq hdisplay vdisplay vrefresh interlaced margins hh0 hh hv0 hv hr
          (by rw [hi]; omega)
        unfold drmCvtMode at hm
        rw [hinput, hi] at hm
        cases reduced with
        | true =>
          rw [if_pos rfl] at hnone
          simp [hnone] at hm
        | false =>
          rw [if_neg Bool.false_ne_true] at hnone
          simp [hnone] at hm
      · exact hpos
    have hmax : reduced = false → i.exactHperiod false ≤ 100003 := by
      rintro rfl
      have := (huints (cvtCPrime * hvFactor - cvtMPrime * i.exactHperiod false / 1000)
        (List.mem_append_left _ (by simp [CvtInput.blankingUints]))).1
      unfold cvtCPrime hvFactor cvtMPrime at this
      omega
    refine ⟨hi.symm ▸ hp, hi.symm ▸ htotal, fun hred => ⟨hi.symm ▸ hmax hred, ?_⟩⟩
    subst hred
    obtain ⟨m', hm', -, htimes, -⟩ := drmCvtMode_exact hh0 hh hv0 hv hr hi.symm hp htotal hmax
    obtain rfl : m = m' := Option.some.inj (hm.symm.trans hm')
    by_contra hnarrow
    have := htimes.not_ordered hsized hp (by omega)
    omega
  · rintro ⟨hp, htotal, hblanking⟩
    rw [hi] at hp htotal hblanking
    obtain ⟨m, hm, hclock, htimes, hvtotal⟩ := drmCvtMode_exact hh0 hh hv0 hv hr hi.symm hp htotal
      fun h => (hblanking h).1
    have hordered := htimes.ordered hsized hp hvtotal fun h => hwidth.mpr (hblanking h).2
    refine ⟨?_, ?_, ?_, m, hm, ?_, hordered⟩
    · exact cvtInputSteps_isInt hh0 hh hv0 hv (by rw [hi]; exact hsized)
        (by rw [hi]; exact hsized.rate_lt hp)
    · rw [hi]
      exact hsized.intSteps_isInt hp htotal
    · rw [hi]
      exact hsized.uintSteps_isUint hp htotal fun h => (hblanking h).1
    · rw [hi]
      exact hclock

end

/-- 1024x768 at 60 Hz. -/
theorem cvtRight_xga : CvtRight 1024 768 60 false false false :=
  (cvtRight_iff 1024 768 60 false false false (by decide) (by decide) (by decide) (by decide)
    (by decide)).mpr ⟨by decide, by decide, fun _ => ⟨by decide, by decide⟩⟩

/-- 1920x1080 at 60 Hz: the 2576 pixels of a line times 10^6 leave the range of int. -/
theorem cvt_overflows : ¬ ∀ (hdisplay vdisplay vrefresh : ℤ) (reduced interlaced margins : Bool),
    1 ≤ hdisplay → hdisplay ≤ 65535 → 1 ≤ vdisplay → vdisplay ≤ 65535 → 1 ≤ vrefresh →
      CvtRight hdisplay vdisplay vrefresh reduced interlaced margins := by
  intro h
  have hright := h 1920 1080 60 false false false (by decide) (by decide) (by decide) (by decide)
    (by decide)
  have hpixels := hright.ints 2576000000 (by decide)
  revert hpixels
  decide

end GfxDrm.Modes
