import GfxDrm.Edid.Detailed

/-! The values of a detailed timing descriptor against the EDID's layout of its bits. -/

namespace GfxDrm.Edid

open Modes BitField

/-- The timings that a descriptor stands for. -/
structure Timing where
  pixelClock : ℕ
  hactive : ℕ
  hblank : ℕ
  vactive : ℕ
  vblank : ℕ
  hsyncOffset : ℕ
  hsyncPulseWidth : ℕ
  vsyncOffset : ℕ
  vsyncPulseWidth : ℕ
  deriving DecidableEq, Repr

/-- The layout: twelve bits of active and blank, ten of the horizontal and six of the vertical
sync values, the high bits of which share bytes. -/
def DetailedTiming.layout (d : DetailedTiming) : Timing where
  pixelClock := d.pixelClock.toNat
  hactive := d.hactiveHblankHi.toNat / 16 * 256 + d.hactiveLo.toNat
  hblank := d.hactiveHblankHi.toNat % 16 * 256 + d.hblankLo.toNat
  vactive := d.vactiveVblankHi.toNat / 16 * 256 + d.vactiveLo.toNat
  vblank := d.vactiveVblankHi.toNat % 16 * 256 + d.vblankLo.toNat
  hsyncOffset := d.hsyncVsyncOffsetPulseWidthHi.toNat / 64 * 256 + d.hsyncOffsetLo.toNat
  hsyncPulseWidth := d.hsyncVsyncOffsetPulseWidthHi.toNat / 16 % 4 * 256 + d.hsyncPulseWidthLo.toNat
  vsyncOffset := d.hsyncVsyncOffsetPulseWidthHi.toNat / 4 % 4 * 16 +
    d.vsyncOffsetPulseWidthLo.toNat / 16
  vsyncPulseWidth := d.hsyncVsyncOffsetPulseWidthHi.toNat % 4 * 16 +
    d.vsyncOffsetPulseWidthLo.toNat % 16

/-- The timings that the layout has room for. -/
structure Timing.Fits (t : Timing) : Prop where
  pixelClock : t.pixelClock < 65536
  hactive : t.hactive < 4096
  hblank : t.hblank < 4096
  vactive : t.vactive < 4096
  vblank : t.vblank < 4096
  hsyncOffset : t.hsyncOffset < 1024
  hsyncPulseWidth : t.hsyncPulseWidth < 1024
  vsyncOffset : t.vsyncOffset < 64
  vsyncPulseWidth : t.vsyncPulseWidth < 64

/-- The descriptor of some timings; what does not belong to them is as in `rest`. -/
def Timing.encode (t : Timing) (rest : DetailedTiming) : DetailedTiming :=
  { rest with
    pixelClock := BitVec.ofNat 16 t.pixelClock
    hactiveLo := BitVec.ofNat 8 t.hactive
    hblankLo := BitVec.ofNat 8 t.hblank
    hactiveHblankHi := BitVec.ofNat 8 (t.hactive / 256 * 16 + t.hblank / 256)
    vactiveLo := BitVec.ofNat 8 t.vactive
    vblankLo := BitVec.ofNat 8 t.vblank
    vactiveVblankHi := BitVec.ofNat 8 (t.vactive / 256 * 16 + t.vblank / 256)
    hsyncOffsetLo := BitVec.ofNat 8 t.hsyncOffset
    hsyncPulseWidthLo := BitVec.ofNat 8 t.hsyncPulseWidth
    vsyncOffsetPulseWidthLo := BitVec.ofNat 8 (t.vsyncOffset % 16 * 16 + t.vsyncPulseWidth % 16)
    hsyncVsyncOffsetPulseWidthHi := BitVec.ofNat 8 (t.hsyncOffset / 256 * 64 +
      t.hsyncPulseWidth / 256 * 16 + t.vsyncOffset / 16 * 4 + t.vsyncPulseWidth / 16) }

theorem Timing.layout_encode {t : Timing} (h : t.Fits) (rest : DetailedTiming) :
    (t.encode rest).layout = t := by
  obtain ⟨h1, h2, h3, h4, h5, h6, h7, h8, h9⟩ := h
  cases t
  simp only [Timing.encode, DetailedTiming.layout, BitVec.toNat_ofNat, Timing.mk.injEq] at *
  omega

/-! ### What the masks and shifts of drm_mode_detailed cut out -/

section

variable (d : DetailedTiming)

theorem hactive_eq : d.hactive = d.layout.hactive := by
  have h := field_shl_or (k := 8) d.hactiveLo.isLt d.hactiveHblankHi.toNat 4 4 (by decide)
  refine h.trans ?_
  simp only [DetailedTiming.layout]
  omega

theorem vactive_eq : d.vactive = d.layout.vactive := by
  have h := field_shl_or (k := 8) d.vactiveLo.isLt d.vactiveVblankHi.toNat 4 4 (by decide)
  refine h.trans ?_
  simp only [DetailedTiming.layout]
  omega

theorem hblank_eq : d.hblank = d.layout.hblank := by
  have h := field_shl_or (k := 8) d.hblankLo.isLt d.hactiveHblankHi.toNat 0 4 (by decide)
  refine h.trans ?_
  simp only [DetailedTiming.layout]
  omega

theorem vblank_eq : d.vblank = d.layout.vblank := by
  have h := field_shl_or (k := 8) d.vblankLo.isLt d.vactiveVblankHi.toNat 0 4 (by decide)
  refine h.trans ?_
  simp only [DetailedTiming.layout]
  omega

theorem hsyncOffset_eq : d.hsyncOffset = d.layout.hsyncOffset := by
  have h := field_shl_or (k := 8) d.hsyncOffsetLo.isLt d.hsyncVsyncOffsetPulseWidthHi.toNat 6 2
    (by decide)
  refine h.trans ?_
  simp only [DetailedTiming.layout]
  omega

theorem hsyncPulseWidth_eq : d.hsyncPulseWidth = d.layout.hsyncPulseWidth := by
  have h := field_shl_or (k := 8) d.hsyncPulseWidthLo.isLt d.hsyncVsyncOffsetPulseWidthHi.toNat 4 2
    (by decide)
  refine h.trans ?_
  rfl

theorem vsyncPulseWidth_eq : d.vsyncPulseWidth = d.layout.vsyncPulseWidth := by
  have hlow : d.vsyncOffsetPulseWidthLo.toNat &&& 0xf = d.vsyncOffsetPulseWidthLo.toNat % 16 :=
    Nat.and_two_pow_sub_one_eq_mod _ 4
  have hlt : d.vsyncOffsetPulseWidthLo.toNat % 16 < 2 ^ 4 := Nat.mod_lt _ (by decide)
  have h := field_shl_or (k := 4) hlt d.hsyncVsyncOffsetPulseWidthHi.toNat 0 2 (by decide)
  rw [DetailedTiming.vsyncPulseWidth, hlow]
  refine h.trans ?_
  simp only [DetailedTiming.layout]
  omega

/-- The high bits of the vertical offset are moved down where they should be moved up, and fall
together with the low ones. -/
theorem vsyncOffset_eq : d.vsyncOffset =
    d.hsyncVsyncOffsetPulseWidthHi.toNat / 4 % 4 ||| d.vsyncOffsetPulseWidthLo.toNat / 16 := by
  have h := field_shr d.hsyncVsyncOffsetPulseWidthHi.toNat 2 2
  rw [DetailedTiming.vsyncOffset, Nat.shiftRight_eq_div_pow d.vsyncOffsetPulseWidthLo.toNat]
  exact congrArg (fun x => x ||| d.vsyncOffsetPulseWidthLo.toNat / 16) h

theorem vsyncOffset_lt : d.vsyncOffset < 16 := by
  rw [vsyncOffset_eq]
  exact Nat.or_lt_two_pow (n := 4) (by omega) (by omega)

theorem vsyncOffset_eq_of_lt (h : d.layout.vsyncOffset < 16) :
    d.vsyncOffset = d.layout.vsyncOffset := by
  simp only [DetailedTiming.layout] at h ⊢
  have hzero : d.hsyncVsyncOffsetPulseWidthHi.toNat / 4 % 4 = 0 := by omega
  rw [vsyncOffset_eq, hzero, Nat.zero_or]
  omega

end

/-! The timings of the mode that drm_mode_detailed makes of a descriptor. -/

open Modes

/-- The mode has the timings as the descriptor spells them. -/
structure Timing.Decoded (t : Timing) (m : Mode) : Prop where
  clock : m.clock = t.pixelClock * 10
  hdisplay : m.hdisplay = t.hactive
  hsyncStart : m.hsyncStart = t.hactive + t.hsyncOffset
  hsyncEnd : m.hsyncEnd = t.hactive + t.hsyncOffset + t.hsyncPulseWidth
  htotal : m.htotal = t.hactive + t.hblank
  vdisplay : m.vdisplay = t.vactive
  vsyncStart : m.vsyncStart = t.vactive + t.vsyncOffset
  vsyncEnd : m.vsyncEnd = t.vactive + t.vsyncOffset + t.vsyncPulseWidth
  vtotal : m.vtotal = t.vactive + t.vblank

/-- The blanking that a mode gets: one clock or line more than up to the end of the sync where the
descriptor's blanking ends before it. -/
def blanking (blank offset width : ℕ) : ℕ :=
  if blank < offset + width then offset + width + 1 else blank

theorem fixed_total (active blank offset width : ℕ) :
    (if (active : ℤ) + blank < active + offset + width then (active : ℤ) + offset + width + 1
      else active + blank) = active + blanking blank offset width := by
  unfold blanking
  by_cases h : blank < offset + width
  · rw [if_pos h]
    omega
  · rw [if_neg h, if_neg (by omega)]

/-- How many lines of the mode a line of the descriptor stands for: two where an interlaced one
gives the field of a CEA size. -/
def DetailedTiming.linesPer (d : DetailedTiming) : ℤ :=
  if d.misc &&& ptInterlaced ≠ 0 ∧
      ((d.layout.hactive : ℤ), 2 * (d.layout.vactive : ℤ)) ∈ ceaInterlaced then 2
  else 1

/-- The mode's timings with the corrections of drm_mode_detailed. Of the vertical sync's place
only offsets are told that need no high bits. -/
structure Timing.Corrected (t : Timing) (k : ℤ) (m : Mode) : Prop where
  clock : m.clock = t.pixelClock * 10
  hdisplay : m.hdisplay = t.hactive
  hsyncStart : m.hsyncStart = t.hactive + t.hsyncOffset
  hsyncEnd : m.hsyncEnd = t.hactive + t.hsyncOffset + t.hsyncPulseWidth
  htotal : m.htotal = t.hactive + blanking t.hblank t.hsyncOffset t.hsyncPulseWidth
  vdisplay : m.vdisplay = k * t.vactive
  vsyncWidth : m.vsyncEnd - m.vsyncStart = k * t.vsyncPulseWidth
  vsyncStart : t.vsyncOffset < 16 → m.vsyncStart = k * (t.vactive + t.vsyncOffset)
  vtotal : t.vsyncOffset < 16 →
    m.vtotal = k * (t.vactive + blanking t.vblank t.vsyncOffset t.vsyncPulseWidth) + (k - 1)

/-- What fixTotals makes of the descriptor's values, in terms of the layout. -/
theorem fixTotals_corrected (d : DetailedTiming) : d.layout.Corrected 1 (fixTotals d.timings) where
  clock := rfl
  hdisplay := congrArg Nat.cast (hactive_eq d)
  hsyncStart := by
    change (d.hactive : ℤ) + d.hsyncOffset = _
    rw [hactive_eq, hsyncOffset_eq]
  hsyncEnd := by
    change (d.hactive : ℤ) + d.hsyncOffset + d.hsyncPulseWidth = _
    rw [hactive_eq, hsyncOffset_eq, hsyncPulseWidth_eq]
  htotal := by
    simp only [DetailedTiming.timings, hactive_eq, hblank_eq, hsyncOffset_eq,
      hsyncPulseWidth_eq]
    exact fixed_total _ _ _ _
  vdisplay := by
    rw [one_mul]
    exact congrArg Nat.cast (vactive_eq d)
  vsyncWidth := by
    simp only [fixTotals, DetailedTiming.timings, vsyncPulseWidth_eq]
    omega
  vsyncStart h := by
    change (d.vactive : ℤ) + d.vsyncOffset = _
    rw [vactive_eq, vsyncOffset_eq_of_lt d h, one_mul]
  vtotal h := by
    simp only [DetailedTiming.timings, vactive_eq, vblank_eq,
      vsyncOffset_eq_of_lt d h, vsyncPulseWidth_eq, one_mul, sub_self, add_zero]
    exact fixed_total _ _ _ _

variable {m : Mode}

/-- The interlace quirk doubles the lines, and adds one to the total. -/
theorem Timing.Corrected.frames {t : Timing} (h : t.Corrected 1 m) :
    t.Corrected 2 (frames m) where
  clock := h.clock
  hdisplay := h.hdisplay
  hsyncStart := h.hsyncStart
  hsyncEnd := h.hsyncEnd
  htotal := h.htotal
  vdisplay := by
    change m.vdisplay * 2 = _
    rw [h.vdisplay]
    omega
  vsyncWidth := by
    have hw := h.vsyncWidth
    change m.vsyncEnd * 2 - m.vsyncStart * 2 = _
    omega
  vsyncStart hlt := by
    change m.vsyncStart * 2 = _
    rw [h.vsyncStart hlt]
    omega
  vtotal hlt := by
    change orOne (m.vtotal * 2) = _
    rw [h.vtotal hlt, orOne]
    omega

theorem Timing.Corrected.of_sameTimes {t : Timing} {k : ℤ} {m m' : Mode}
    (h : t.Corrected k m') (hs : SameTimes m m') : t.Corrected k m where
  clock := hs.clock.trans h.clock
  hdisplay := hs.hdisplay.trans h.hdisplay
  hsyncStart := hs.hsyncStart.trans h.hsyncStart
  hsyncEnd := hs.hsyncEnd.trans h.hsyncEnd
  htotal := hs.htotal.trans h.htotal
  vdisplay := hs.vdisplay.trans h.vdisplay
  vsyncWidth := by
    rw [hs.vsyncEnd, hs.vsyncStart]
    exact h.vsyncWidth
  vsyncStart hlt := hs.vsyncStart.trans (h.vsyncStart hlt)
  vtotal hlt := hs.vtotal.trans (h.vtotal hlt)

theorem isField_iff {d : DetailedTiming} (hh : m.hdisplay = d.layout.hactive)
    (hv : m.vdisplay = d.layout.vactive) : IsField ceaInterlaced m ↔
      ((d.layout.hactive : ℤ), 2 * (d.layout.vactive : ℤ)) ∈ ceaInterlaced := by
  have heven : ∀ size ∈ ceaInterlaced, 2 * size.2.tdiv 2 = size.2 := by decide
  constructor
  · rintro ⟨size, hsize, hd⟩
    rw [← hh, ← hv, hd.1, hd.2, heven size hsize]
    exact hsize
  · intro hmem
    refine ⟨_, hmem, hh, ?_⟩
    rw [hv]
    exact (Int.mul_tdiv_cancel_left _ (by decide)).symm

/-- The interlace quirk on a mode that has the descriptor's corrected timings. -/
theorem drmModeDoInterlaceQuirk_corrected {d : DetailedTiming} (h : d.layout.Corrected 1 m) :
    d.layout.Corrected d.linesPer (drmModeDoInterlaceQuirk m d) := by
  have hv : m.vdisplay = d.layout.vactive := h.vdisplay.trans (one_mul _)
  unfold drmModeDoInterlaceQuirk DetailedTiming.linesPer
  by_cases hmisc : d.misc &&& ptInterlaced = 0
  · rw [if_pos hmisc, if_neg (fun hn => hn.1 hmisc)]
    exact h
  · rw [if_neg hmisc, foldl_interlaceTurn ceaInterlaced_once]
    by_cases hfield : IsField ceaInterlaced m
    · rw [if_pos hfield, if_pos ⟨hmisc, (isField_iff h.hdisplay hv).mp hfield⟩]
      exact h.frames.of_sameTimes ⟨rfl, rfl, rfl, rfl, rfl, rfl, rfl, rfl, rfl⟩
    · rw [if_neg hfield, if_neg (fun hn => hfield ((isField_iff h.hdisplay hv).mpr hn.2))]
      exact h.of_sameTimes ⟨rfl, rfl, rfl, rfl, rfl, rfl, rfl, rfl, rfl⟩

theorem drmModeDetailed_corrected {create : Bool} {edid : EdidSize} {d d' : DetailedTiming}
    (h : drmModeDetailed create edid d 0 = some (some m, d')) :
    d.layout.Corrected d.linesPer m := by
  have hmode := (drmModeDetailed_some h).mode
  exact (drmModeDoInterlaceQuirk_corrected (fixTotals_corrected d)).of_sameTimes hmode.2.1

/-- Without corrections the mode is the descriptor. -/
theorem Timing.Corrected.decoded {t : Timing} (h : t.Corrected 1 m)
    (hh : t.hsyncOffset + t.hsyncPulseWidth ≤ t.hblank)
    (hv : t.vsyncOffset + t.vsyncPulseWidth ≤ t.vblank) (hlt : t.vsyncOffset < 16) :
    t.Decoded m where
  clock := h.clock
  hdisplay := h.hdisplay
  hsyncStart := h.hsyncStart
  hsyncEnd := h.hsyncEnd
  htotal := by
    rw [h.htotal, blanking, if_neg (Nat.not_lt.mpr hh)]
  vdisplay := h.vdisplay.trans (one_mul _)
  vsyncStart := (h.vsyncStart hlt).trans (one_mul _)
  vsyncEnd := by
    have hstart := h.vsyncStart hlt
    have hwidth := h.vsyncWidth
    omega
  vtotal := by
    rw [h.vtotal hlt, blanking, if_neg (Nat.not_lt.mpr hv), one_mul, sub_self, add_zero]

/-- Without quirks a descriptor is turned down only for its size, stereo, or a sync of no width. -/
theorem drmModeDetailed_accepts {edid : EdidSize} {d : DetailedTiming} (hh : 64 ≤ d.hactive)
    (hv : 64 ≤ d.vactive) (hstereo : d.misc &&& ptStereo = 0) (hhw : d.hsyncPulseWidth ≠ 0)
    (hvw : d.vsyncPulseWidth ≠ 0) : ∃ m d', drmModeDetailed true edid d 0 = some (some m, d') := by
  unfold drmModeDetailed
  rw [if_neg (not_or.mpr ⟨Nat.not_lt.mpr hh, Nat.not_lt.mpr hv⟩), if_neg (not_not.mpr hstereo),
    if_neg (not_or.mpr ⟨hhw, hvw⟩)]
  exact ⟨_, _, rfl⟩

end GfxDrm.Edid
