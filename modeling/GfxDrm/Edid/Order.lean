import GfxDrm.Edid.Decoded

/-! The order of the timings of a mode from a detailed timing descriptor, and the totals that are
divided by. -/

namespace GfxDrm.Edid

open Modes CInt

/-! ### Reduced blanking -/

section

variable {i : CvtInput}

/-- At 60 Hz the period is not zero. -/
theorem rbHperiod_pos (hl0 : 0 < i.lines) (hl : i.lines < 65536) (hrate : i.vfieldrate = 60) :
    ∃ hperiod, i.rbHperiod = some hperiod ∧ 1 ≤ hperiod ∧ hperiod ≤ 972400000 := by
  have htmp1 : i32 (u32 (hvFactor * 1000000 - u32 (cvtRbMinVblank * hvFactor * 60))) =
      972400000 := by decide
  have hlines0 : 0 < i.lines * 60 := by omega
  refine ⟨972400000 / (i.lines * 60), ?_, ?_, Int.ediv_le_self _ (by decide)⟩
  · rw [CvtInput.rbHperiod, hrate, htmp1, u32_of_range (by omega) (by omega)]
    exact udiv_of_pos (by decide) (by decide) hlines0 (by omega)
  · apply Int.le_ediv_of_mul_le hlines0
    omega

theorem vbilines_bounds {hperiod : ℤ} (h0 : 1 ≤ hperiod) (h : hperiod ≤ 972400000)
    (hs : i.vsync ≤ 10) :
    ∃ vbilines, i.vbilines hperiod = some vbilines ∧ i.vsync + 9 ≤ vbilines ∧
      vbilines ≤ 460001 := by
  have hquot : udiv (cvtRbMinVblank * hvFactor) hperiod = some (460000 / hperiod) :=
    udiv_of_pos (by decide) (by decide) (by omega) (by omega)
  have hquot0 : 0 ≤ 460000 / hperiod := Int.ediv_nonneg (by decide) (by omega)
  have hquotle : 460000 / hperiod ≤ 460000 := Int.ediv_le_self _ (by decide)
  unfold CvtInput.vbilines
  rw [hquot]
  generalize 460000 / hperiod = quot at hquot0 hquotle
  have hword : i32 (u32 (quot + 1)) = quot + 1 := by
    rw [u32_of_range (by omega) (by omega), i32_of_range (by omega) (by omega)]
  refine ⟨_, rfl, ?_⟩
  unfold cvtRbVfporch cvtMinVBporch
  dsimp only
  split_ifs <;> omega

theorem rbTimes_ordered {vbilines : ℤ} (hh0 : 0 ≤ i.hdisplay) (hh : i.hdisplay < 65536)
    (hv0 : 0 < i.vdisplay) (hv : i.vdisplay < 65536) (hlines : i.lines = i.vdisplay)
    (hs0 : 4 ≤ i.vsync) (hs : i.vsync ≤ 10) (hb0 : i.vsync + 9 ≤ vbilines)
    (hb : vbilines ≤ 460001) : (i.rbTimes vbilines).Ordered := by
  have hstart : i32 (i.hdisplay + 80 - 32) = i.hdisplay + 48 := by
    rw [i32_of_range (by omega) (by omega)]
    omega
  have hend : i32 (i.hdisplay + 80) = i.hdisplay + 80 := i32_of_range (by omega) (by omega)
  have htot : i32 (i.hdisplay + 160) = i.hdisplay + 160 := i32_of_range (by omega) (by omega)
  have vstart : i32 (i.vdisplay + 3) = i.vdisplay + 3 := i32_of_range (by omega) (by omega)
  have vend : i32 (i.vdisplay + 3 + i.vsync) = i.vdisplay + 3 + i.vsync :=
    i32_of_range (by omega) (by omega)
  have vtot : i32 (i.lines + vbilines) = i.lines + vbilines := i32_of_range (by omega) (by omega)
  refine ⟨?_, ?_, ?_, ?_, ?_, ?_, ?_, ?_⟩
  · change i.hdisplay ≤ i32 (i.hdisplay + 80 - 32)
    omega
  · change i32 (i.hdisplay + 80 - 32) ≤ i32 (i.hdisplay + 80)
    omega
  · change i32 (i.hdisplay + 80) ≤ i32 (i.hdisplay + 160)
    omega
  · change 0 < i32 (i.hdisplay + 160)
    omega
  · change i.vdisplay ≤ i32 (i.vdisplay + 3)
    omega
  · change i32 (i.vdisplay + 3) ≤ i32 (i.vdisplay + 3 + i.vsync)
    omega
  · change i32 (i.vdisplay + 3 + i.vsync) ≤ i32 (i.lines + vbilines)
    omega
  · change 0 < i32 (i.lines + vbilines)
    omega

end

/-- What the refresh and CRTC computations need of a mode. -/
structure Usable (m : Mode) : Prop where
  ordered : m.Ordered
  plain : Plain m
  htotal_lt : m.htotal < 0x10000
  vtotal_le : 2 ≤ m.vtotal
  vtotal_lt : m.vtotal < 0x100000

/-- drm_cvt_mode with reduced blanking, for an active size of twelve bits. -/
theorem drmCvtMode_usable {h v : ℤ} (hh0 : 64 ≤ h) (hh : h < 4096) (hv0 : 64 ≤ v) (hv : v < 4096) :
    ∃ mode, drmCvtMode h v 60 true false false = some mode ∧ Usable mode := by
  have hvsync := cvtVsync_bounds h v
  have hmod : h.tmod cvtHGranularity = h % 8 := Int.tmod_eq_emod_of_nonneg (by omega)
  have hhd : i32 (h - h.tmod cvtHGranularity + 2 * (0 - (0 : ℤ).tmod cvtHGranularity)) =
      h - h % 8 := by
    rw [hmod, Int.zero_tmod, Int.sub_zero, Int.mul_zero, Int.add_zero]
    exact i32_of_range (by omega) (by omega)
  have hvd : i32 (v + 2 * 0) = v := by
    rw [Int.mul_zero, Int.add_zero]
    exact i32_of_range (by omega) (by omega)
  unfold drmCvtMode
  dsimp only
  generalize hi : cvtInput h v 60 false false = i
  have hdisplay : i.hdisplay = h - h % 8 := by
    rw [← hi]
    exact hhd
  have vdisplay : i.vdisplay = v := by
    rw [← hi]
    exact hvd
  have lines : i.lines = v := by
    rw [← hi]
    exact hvd
  have vsync : i.vsync = cvtVsync h v := by rw [← hi]; rfl
  have rate : i.vfieldrate = 60 := by rw [← hi]; rfl
  obtain ⟨hperiod, hper, hper0, hperle⟩ := rbHperiod_pos (i := i) (by omega) (by omega) rate
  obtain ⟨vbilines, hvbi, hvbi0, hvbile⟩ := vbilines_bounds (i := i) hper0 hperle (by omega)
  have hordered := rbTimes_ordered (i := i) (by omega) (by omega) (by omega) (by omega)
    (lines.trans vdisplay.symm) (by omega) (by omega) hvbi0 hvbile
  have hbranch : i.reducedBlanking = some (i.rbTimes vbilines, hperiod) := by
    unfold CvtInput.reducedBlanking
    rw [hper]
    change (i.vbilines hperiod).bind _ = _
    rw [hvbi]
    rfl
  have hclock : ∀ x : ℤ, udiv x hperiod = some (u32 x / hperiod) := by
    intro x
    rw [udiv, u32_of_range (by omega) (by omega), if_neg (by omega)]
  rw [hbranch]
  change ∃ mode, cvtFinish true false (i.rbTimes vbilines) hperiod = some mode ∧ Usable mode
  unfold cvtFinish
  rw [hclock]
  refine ⟨_, rfl, ?_⟩
  have htot : i32 (i.hdisplay + 160) = i.hdisplay + 160 := i32_of_range (by omega) (by omega)
  have vtot : i32 (i.lines + vbilines) = i.lines + vbilines := i32_of_range (by omega) (by omega)
  refine ⟨?_, ?_, ?_, ?_, ?_⟩
  · exact ⟨hordered.hdisplay_le, hordered.hsync_le, hordered.hsyncEnd_le, hordered.htotal_pos,
      hordered.vdisplay_le, hordered.vsync_le, hordered.vsyncEnd_le, hordered.vtotal_pos⟩
  · refine ⟨rfl, ?_⟩
    change ((0 : BitVec 32) ||| (modeFlagPhsync ||| modeFlagNvsync)) &&& modeFlagDblscan = 0
    decide
  · change i32 (i.hdisplay + 160) < 0x10000
    omega
  · change 2 ≤ i32 (i.lines + vbilines)
    omega
  · change i32 (i.lines + vbilines) < 0x100000
    omega

/-! ### The descriptor's own timings -/

theorem hactive_lt (d : DetailedTiming) : d.hactive < 4096 := by
  rw [hactive_eq]
  simp only [DetailedTiming.layout]
  omega

theorem vactive_lt (d : DetailedTiming) : d.vactive < 4096 := by
  rw [vactive_eq]
  simp only [DetailedTiming.layout]
  omega

theorem hblank_lt (d : DetailedTiming) : d.hblank < 4096 := by
  rw [hblank_eq]
  simp only [DetailedTiming.layout]
  omega

theorem vblank_lt (d : DetailedTiming) : d.vblank < 4096 := by
  rw [vblank_eq]
  simp only [DetailedTiming.layout]
  omega

theorem hsync_lt (d : DetailedTiming) : d.hsyncOffset < 1024 ∧ d.hsyncPulseWidth < 1024 := by
  rw [hsyncOffset_eq, hsyncPulseWidth_eq]
  simp only [DetailedTiming.layout]
  omega

theorem vsyncPulseWidth_lt (d : DetailedTiming) : d.vsyncPulseWidth < 64 := by
  rw [vsyncPulseWidth_eq]
  simp only [DetailedTiming.layout]
  omega

/-- The order of a mode's times, and the bounds of its totals. -/
structure Timed (bound : ℤ) (m : Mode) : Prop where
  ordered : m.Ordered
  htotal_lt : m.htotal < 0x10000
  vtotal_le : 2 ≤ m.vtotal
  vtotal_lt : m.vtotal < bound

theorem fixTotals_timed {d : DetailedTiming} (hh : 64 ≤ d.hactive) (hv : 64 ≤ d.vactive) :
    Timed 0x10000 (fixTotals d.timings) := by
  have h1 := hactive_lt d
  have h2 := vactive_lt d
  have h3 := hblank_lt d
  have h4 := vblank_lt d
  have h5 := hsync_lt d
  have h6 := vsyncPulseWidth_lt d
  have h7 := vsyncOffset_lt d
  have htotal : ∀ total send : ℤ, send ≤ (if total < send then send + 1 else total) ∧
      (if total < send then send + 1 else total) ≤ max total (send + 1) := by
    intro total send
    by_cases h : total < send
    · omega
    · omega
  have hhtot := htotal d.timings.htotal d.timings.hsyncEnd
  have hvtot := htotal d.timings.vtotal d.timings.vsyncEnd
  refine ⟨⟨?_, ?_, hhtot.1, ?_, ?_, ?_, hvtot.1, ?_⟩, ?_, ?_, ?_⟩ <;>
    simp only [fixTotals, DetailedTiming.timings] <;> omega

variable {m : Mode}

/-- Doubled lines keep their order, since the total grows by one more. -/
theorem Timed.frames {bound : ℤ} (h : Timed bound m) :
    Timed (bound * 2) (frames m) := by
  have ho := h.ordered
  have hlt := h.vtotal_lt
  have hle := h.vtotal_le
  have htotal : orOne (m.vtotal * 2) = m.vtotal * 2 + 1 := by
    rw [orOne, if_pos (by omega)]
  refine ⟨⟨ho.hdisplay_le, ho.hsync_le, ho.hsyncEnd_le, ho.htotal_pos, ?_, ?_, ?_, ?_⟩,
    h.htotal_lt, ?_, ?_⟩
  · have := ho.vdisplay_le
    change m.vdisplay * 2 ≤ m.vsyncStart * 2
    omega
  · have := ho.vsync_le
    change m.vsyncStart * 2 ≤ m.vsyncEnd * 2
    omega
  · have := ho.vsyncEnd_le
    change m.vsyncEnd * 2 ≤ orOne (m.vtotal * 2)
    omega
  · change 0 < orOne (m.vtotal * 2)
    omega
  · change 2 ≤ orOne (m.vtotal * 2)
    omega
  · change orOne (m.vtotal * 2) < bound * 2
    omega

theorem Timed.mono {bound bound' : ℤ} (h : Timed bound m) (hle : bound ≤ bound') :
    Timed bound' m :=
  ⟨h.ordered, h.htotal_lt, h.vtotal_le, h.vtotal_lt.trans_le hle⟩

theorem Timed.of_sameTimes {bound : ℤ} {m m' : Mode} (h : Timed bound m') (hs : SameTimes m m') :
    Timed bound m := by
  obtain ⟨⟨o1, o2, o3, o4, o5, o6, o7, o8⟩, hh, hle, hlt⟩ := h
  obtain ⟨-, e1, e2, e3, e4, e5, e6, e7, e8⟩ := hs
  rw [← e1, ← e2] at o1
  rw [← e2, ← e3] at o2
  rw [← e3, ← e4] at o3
  rw [← e4] at o4 hh
  rw [← e5, ← e6] at o5
  rw [← e6, ← e7] at o6
  rw [← e7, ← e8] at o7
  rw [← e8] at o8 hle hlt
  exact ⟨⟨o1, o2, o3, o4, o5, o6, o7, o8⟩, hh, hle, hlt⟩

theorem drmModeDoInterlaceQuirk_timed {bound : ℤ} (h : Timed bound m) (hpos : 0 ≤ bound)
    (pt : DetailedTiming) :
    Timed (bound * 2) (drmModeDoInterlaceQuirk m pt) := by
  unfold drmModeDoInterlaceQuirk
  by_cases hmisc : pt.misc &&& ptInterlaced = 0
  · rw [if_pos hmisc]
    exact h.mono (by omega)
  · rw [if_neg hmisc, foldl_interlaceTurn ceaInterlaced_once]
    by_cases hfield : IsField ceaInterlaced m
    · rw [if_pos hfield]
      exact h.frames.of_sameTimes ⟨rfl, rfl, rfl, rfl, rfl, rfl, rfl, rfl, rfl⟩
    · rw [if_neg hfield]
      exact (h.mono (by omega)).of_sameTimes ⟨rfl, rfl, rfl, rfl, rfl, rfl, rfl, rfl, rfl⟩

/-! ### What is worked out from the mode -/

theorem Usable.crtcLines_pos (h : Usable m) (adjustFlags : BitVec 32) :
    0 < m.crtcLines adjustFlags m.vtotal := by
  have hle := h.vtotal_le
  have hhalf : m.vtotal.tdiv 2 = m.vtotal / 2 := Int.tdiv_eq_ediv_of_nonneg (by omega)
  unfold Mode.crtcLines
  rw [h.plain.1, h.plain.2, if_neg (by decide), if_neg (by decide)]
  split
  · omega
  · omega

theorem Usable.hsyncRate_ne (h : Usable m) : m.hsyncRate ≠ none := by
  have hpos := h.ordered.htotal_pos
  unfold Mode.hsyncRate
  split
  · exact Option.some_ne_none _
  · rw [if_neg (by omega), if_neg (by omega)]
    exact Option.some_ne_none _

theorem Usable.refresh_ne (h : Usable m) : m.refresh ≠ none := by
  have hh := h.ordered.htotal_pos
  have hhlt := h.htotal_lt
  have hv := h.ordered.vtotal_pos
  have hvlt := h.vtotal_lt
  have hdiv : ∀ {x y : ℤ}, 0 < y → y < 0x100000000 → udiv x y = some (u32 x / y) := by
    intro x y h0 hlt
    rw [udiv, u32_of_range (Int.le_of_lt h0) hlt, if_neg (Int.ne_of_gt h0)]
  unfold Mode.refresh
  split
  · exact Option.some_ne_none _
  · rw [if_pos ⟨hh, hv⟩, hdiv hh (by omega)]
    dsimp only [Option.bind_eq_bind, Option.bind_some]
    rw [hdiv hv (by omega)]
    exact Option.some_ne_none _

theorem Usable.of_accepted {create : Bool} {edid : EdidSize} {d d' : DetailedTiming}
    {quirks : BitVec 32} (h : Accepted create edid d quirks m d') : Usable m := by
  have hmode := h.mode
  by_cases hforce : quirks &&& quirkForceReducedBlanking ≠ 0
  · rw [if_pos hforce] at hmode
    obtain ⟨mode, hcvt, rfl⟩ := hmode
    have hh := h.hactive
    have hv := h.vactive
    have hhlt := hactive_lt d
    have hvlt := vactive_lt d
    obtain ⟨mode', hcvt', huse⟩ := @drmCvtMode_usable d.hactive d.vactive (by omega) (by omega)
      (by omega) (by omega)
    rw [hcvt] at hcvt'
    cases hcvt'
    have htimed : Timed 0x100000 mode := ⟨huse.ordered, huse.htotal_lt, huse.vtotal_le,
      huse.vtotal_lt⟩
    have hset := htimed.of_sameTimes (setSize_times edid d quirks mode)
    exact ⟨hset.ordered, huse.plain, hset.htotal_lt, hset.vtotal_le, hset.vtotal_lt⟩
  · rw [if_neg hforce] at hmode
    obtain ⟨hplain, hsame, -⟩ := hmode
    have hactive : (fixClock quirks d).hactive = d.hactive := by
      unfold fixClock
      split <;> rfl
    have vactive : (fixClock quirks d).vactive = d.vactive := by
      unfold fixClock
      split <;> rfl
    have hfix := @fixTotals_timed (fixClock quirks d) (hactive ▸ h.hactive) (vactive ▸ h.vactive)
    have htimed := (drmModeDoInterlaceQuirk_timed hfix (by decide) (fixClock quirks d)).of_sameTimes
      hsame
    exact ⟨htimed.ordered, hplain, htimed.htotal_lt, htimed.vtotal_le,
      htimed.vtotal_lt.trans (by decide)⟩

/-- The division in drm_cvt_mode is never by zero. -/
theorem drmModeDetailed_ne_none (create : Bool) (edid : EdidSize) (d : DetailedTiming)
    (quirks : BitVec 32) : ∃ r, drmModeDetailed create edid d quirks = some r := by
  unfold drmModeDetailed
  by_cases htiny : d.hactive < 64 ∨ d.vactive < 64
  · exact ⟨_, if_pos htiny⟩
  · rw [if_neg htiny]
    have hhlt := hactive_lt d
    have hvlt := vactive_lt d
    obtain ⟨mode, hcvt, -⟩ := @drmCvtMode_usable d.hactive d.vactive (by omega) (by omega)
      (by omega) (by omega)
    rw [hcvt]
    split
    · exact ⟨_, rfl⟩
    · split
      · exact ⟨_, rfl⟩
      · split
        · exact ⟨_, rfl⟩
        · split <;> exact ⟨_, rfl⟩

/-- drm_mode_detailed never divides by zero, and whatever the descriptor and the quirks, the times
of the mode that it returns are in order and no later computation divides by zero either. -/
theorem drmModeDetailed_ordered (create : Bool) (edid : EdidSize) (d : DetailedTiming)
    (quirks : BitVec 32) :
    ∃ r, drmModeDetailed create edid d quirks = some r ∧ ∀ m, r.1 = some m →
      m.Ordered ∧ m.hsyncRate ≠ none ∧ m.refresh ≠ none ∧
        ∀ adjustFlags, 0 < (m.setCrtcinfo adjustFlags).htotal ∧
          0 < (m.setCrtcinfo adjustFlags).vtotal := by
  obtain ⟨r, hr⟩ := drmModeDetailed_ne_none create edid d quirks
  refine ⟨r, hr, ?_⟩
  intro m hm
  have hsome : drmModeDetailed create edid d quirks = some (some m, r.2) := by
    rw [hr, ← hm]
  have huse := Usable.of_accepted (drmModeDetailed_some hsome)
  refine ⟨huse.ordered, huse.hsyncRate_ne, huse.refresh_ne, ?_⟩
  intro adjustFlags
  exact ⟨huse.ordered.htotal_pos, huse.crtcLines_pos adjustFlags⟩

end GfxDrm.Edid
