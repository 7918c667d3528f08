import GfxDrm.Modes.Cvt

/-! The mode of an EDID detailed timing descriptor (drm_mode_detailed). -/

namespace GfxDrm.Edid

open Modes

/-- struct detailed_timing with pixel data, the 18 bytes of a descriptor; `pixelClock` is two. -/
structure DetailedTiming where
  pixelClock : BitVec 16
  hactiveLo : BitVec 8
  hblankLo : BitVec 8
  hactiveHblankHi : BitVec 8
  vactiveLo : BitVec 8
  vblankLo : BitVec 8
  vactiveVblankHi : BitVec 8
  hsyncOffsetLo : BitVec 8
  hsyncPulseWidthLo : BitVec 8
  vsyncOffsetPulseWidthLo : BitVec 8
  hsyncVsyncOffsetPulseWidthHi : BitVec 8
  widthMmLo : BitVec 8
  heightMmLo : BitVec 8
  widthHeightMmHi : BitVec 8
  hborder : BitVec 8
  vborder : BitVec 8
  misc : BitVec 8
  deriving DecidableEq, Repr

/-- The maximum image size of the EDID. -/
structure EdidSize where
  widthCm : BitVec 8
  heightCm : BitVec 8

def ptHsyncPositive : BitVec 8 := 1 <<< 1
def ptVsyncPositive : BitVec 8 := 1 <<< 2
def ptStereo : BitVec 8 := 1 <<< 5
def ptInterlaced : BitVec 8 := 1 <<< 7

def quirk135ClockTooHigh : BitVec 32 := 1 <<< 1
def quirkDetailedInCm : BitVec 32 := 1 <<< 3
def quirkDetailedUseMaximumSize : BitVec 32 := 1 <<< 4
def quirkDetailedSyncPp : BitVec 32 := 1 <<< 6
def quirkForceReducedBlanking : BitVec 32 := 1 <<< 7

namespace DetailedTiming

variable (pt : DetailedTiming)

/-! ### The unsigned values that drm_mode_detailed starts with -/

def hactive : ℕ := (pt.hactiveHblankHi.toNat &&& 0xf0) <<< 4 ||| pt.hactiveLo.toNat
def vactive : ℕ := (pt.vactiveVblankHi.toNat &&& 0xf0) <<< 4 ||| pt.vactiveLo.toNat
def hblank : ℕ := (pt.hactiveHblankHi.toNat &&& 0xf) <<< 8 ||| pt.hblankLo.toNat
def vblank : ℕ := (pt.vactiveVblankHi.toNat &&& 0xf) <<< 8 ||| pt.vblankLo.toNat

def hsyncOffset : ℕ :=
  (pt.hsyncVsyncOffsetPulseWidthHi.toNat &&& 0xc0) <<< 2 ||| pt.hsyncOffsetLo.toNat

def hsyncPulseWidth : ℕ :=
  (pt.hsyncVsyncOffsetPulseWidthHi.toNat &&& 0x30) <<< 4 ||| pt.hsyncPulseWidthLo.toNat

def vsyncOffset : ℕ :=
  (pt.hsyncVsyncOffsetPulseWidthHi.toNat &&& 0xc) >>> 2 |||
    pt.vsyncOffsetPulseWidthLo.toNat >>> 4

def vsyncPulseWidth : ℕ :=
  (pt.hsyncVsyncOffsetPulseWidthHi.toNat &&& 0x3) <<< 4 |||
    pt.vsyncOffsetPulseWidthLo.toNat &&& 0xf

end DetailedTiming

/-- `cea_interlaced`. -/
def ceaInterlaced : List (ℤ × ℤ) :=
  [(1920, 1080), (720, 480), (1440, 480), (2880, 480), (720, 576), (1440, 576), (2880, 576)]

/-- `x | 1`. -/
def orOne (x : ℤ) : ℤ := if x % 2 = 0 then x + 1 else x

/-- A mode of frames from one of fields. -/
def frames (mode : Mode) : Mode :=
  { mode with
    vdisplay := mode.vdisplay * 2
    vsyncStart := mode.vsyncStart * 2
    vsyncEnd := mode.vsyncEnd * 2
    vtotal := orOne (mode.vtotal * 2) }

/-- One turn of the loop of drm_mode_do_interlace_quirk. -/
def interlaceTurn (mode : Mode) (size : ℤ × ℤ) : Mode :=
  if mode.hdisplay = size.1 ∧ mode.vdisplay = size.2.tdiv 2 then frames mode else mode

/-- drm_mode_do_interlace_quirk. -/
def drmModeDoInterlaceQuirk (mode : Mode) (pt : DetailedTiming) : Mode :=
  if pt.misc &&& ptInterlaced = 0 then mode
  else
    let mode := ceaInterlaced.foldl interlaceTurn mode
    { mode with flags := mode.flags ||| modeFlagInterlace }

/-- The mode's timings as they are first filled in. -/
def DetailedTiming.timings (pt : DetailedTiming) : Mode :=
  let hdisplay : ℤ := pt.hactive
  let vdisplay : ℤ := pt.vactive
  { clock := pt.pixelClock.toNat * 10
    hdisplay := hdisplay
    hsyncStart := hdisplay + pt.hsyncOffset
    hsyncEnd := hdisplay + pt.hsyncOffset + pt.hsyncPulseWidth
    htotal := hdisplay + pt.hblank
    vdisplay := vdisplay
    vsyncStart := vdisplay + pt.vsyncOffset
    vsyncEnd := vdisplay + pt.vsyncOffset + pt.vsyncPulseWidth
    vtotal := vdisplay + pt.vblank }

/-- "Some EDIDs have bogus h/vtotal values". -/
def fixTotals (mode : Mode) : Mode :=
  { mode with
    htotal := if mode.htotal < mode.hsyncEnd then mode.hsyncEnd + 1 else mode.htotal
    vtotal := if mode.vtotal < mode.vsyncEnd then mode.vsyncEnd + 1 else mode.vtotal }

def syncFlags (misc : BitVec 8) : BitVec 32 :=
  (if misc &&& ptHsyncPositive ≠ 0 then modeFlagPhsync else modeFlagNhsync) |||
    if misc &&& ptVsyncPositive ≠ 0 then modeFlagPvsync else modeFlagNvsync

/-- The part of drm_mode_detailed from `set_size` on. -/
def setSize (edid : EdidSize) (pt : DetailedTiming) (quirks : BitVec 32) (mode : Mode) : Mode :=
  let widthMm : ℤ := (pt.widthMmLo.toNat ||| (pt.widthHeightMmHi.toNat &&& 0xf0) <<< 4 : ℕ)
  let heightMm : ℤ := (pt.heightMmLo.toNat ||| (pt.widthHeightMmHi.toNat &&& 0xf) <<< 8 : ℕ)
  let inCm := quirks &&& quirkDetailedInCm ≠ 0
  let useMax := quirks &&& quirkDetailedUseMaximumSize ≠ 0
  let mode :=
    { mode with
      widthMm :=
        if useMax then edid.widthCm.toNat * 10 else if inCm then widthMm * 10 else widthMm
      heightMm :=
        if useMax then edid.heightCm.toNat * 10 else if inCm then heightMm * 10 else heightMm
      type := modeTypeDriver }
  mode.setName

/-- EDID_QUIRK_135_CLOCK_TOO_HIGH puts another clock into the descriptor. -/
def fixClock (quirks : BitVec 32) (timing : DetailedTiming) : DetailedTiming :=
  if quirks &&& quirk135ClockTooHigh ≠ 0 then { timing with pixelClock := 1088 } else timing

/-- EDID_QUIRK_DETAILED_SYNC_PP makes both syncs positive in the descriptor. -/
def fixSync (quirks : BitVec 32) (timing : DetailedTiming) : DetailedTiming :=
  if quirks &&& quirkDetailedSyncPp ≠ 0 then
    { timing with misc := timing.misc ||| (ptHsyncPositive ||| ptVsyncPositive) }
  else timing

/-- drm_mode_detailed: the mode, none for NULL, and the descriptor with what the quirks change in
it. `create` is whether drm_mode_create has the memory; none where a division traps. -/
def drmModeDetailed (create : Bool) (edid : EdidSize) (timing : DetailedTiming)
    (quirks : BitVec 32) : Option (Option Mode × DetailedTiming) :=
  let pt := timing
  if pt.hactive < 64 ∨ pt.vactive < 64 then some (none, timing)
  else if pt.misc &&& ptStereo ≠ 0 then some (none, timing)
  else if pt.hsyncPulseWidth = 0 ∨ pt.vsyncPulseWidth = 0 then some (none, timing)
  else if create = false then some (none, timing)
  else if quirks &&& quirkForceReducedBlanking ≠ 0 then
    (drmCvtMode pt.hactive pt.vactive 60 true false false).map fun mode =>
      (some (setSize edid pt quirks mode), timing)
  else
    let timing := fixClock quirks timing
    let mode := drmModeDoInterlaceQuirk (fixTotals timing.timings) timing
    let timing := fixSync quirks timing
    let mode := { mode with flags := mode.flags ||| syncFlags timing.misc }
    some (some (setSize edid timing quirks mode), timing)

/-! ### The interlace quirk -/

/-- The mode is a field of one of the sizes. -/
def IsField (sizes : List (ℤ × ℤ)) (mode : Mode) : Prop :=
  ∃ size ∈ sizes, mode.hdisplay = size.1 ∧ mode.vdisplay = size.2.tdiv 2

instance (sizes : List (ℤ × ℤ)) (mode : Mode) : Decidable (IsField sizes mode) :=
  inferInstanceAs (Decidable (∃ size ∈ sizes, _))

theorem foldl_interlaceTurn_of_not {sizes : List (ℤ × ℤ)} {mode : Mode}
    (h : ¬ IsField sizes mode) : sizes.foldl interlaceTurn mode = mode := by
  induction sizes with
  | nil => rfl
  | cons size sizes ih =>
    have hhead : ¬ (mode.hdisplay = size.1 ∧ mode.vdisplay = size.2.tdiv 2) := fun hd =>
      h ⟨size, List.mem_cons_self, hd⟩
    rw [List.foldl_cons, interlaceTurn, if_neg hhead]
    apply ih
    rintro ⟨s, hs, hd⟩
    exact h ⟨s, List.mem_cons_of_mem _ hs, hd⟩

/-- The lines are doubled at most once where no frame's height is a field's. -/
theorem foldl_interlaceTurn {sizes : List (ℤ × ℤ)} {mode : Mode}
    (honce : ∀ s ∈ sizes, ∀ s' ∈ sizes, s.2.tdiv 2 * 2 ≠ s'.2.tdiv 2) :
    sizes.foldl interlaceTurn mode = if IsField sizes mode then frames mode else mode := by
  induction sizes with
  | nil =>
    rw [if_neg]
    · rfl
    · rintro ⟨s, hs, -⟩
      cases hs
  | cons size sizes ih =>
    rw [List.foldl_cons, interlaceTurn]
    by_cases hhead : mode.hdisplay = size.1 ∧ mode.vdisplay = size.2.tdiv 2
    · have hfield : IsField (size :: sizes) mode := ⟨size, List.mem_cons_self, hhead⟩
      rw [if_pos hhead, if_pos hfield]
      apply foldl_interlaceTurn_of_not
      rintro ⟨s, hs, -, hv⟩
      apply honce size List.mem_cons_self s (List.mem_cons_of_mem _ hs)
      rw [← hhead.2, ← hv]
      rfl
    · rw [if_neg hhead, ih fun s hs s' hs' =>
        honce s (List.mem_cons_of_mem _ hs) s' (List.mem_cons_of_mem _ hs')]
      have hiff : IsField (size :: sizes) mode ↔ IsField sizes mode := by
        constructor
        · rintro ⟨s, hs, hd⟩
          rcases List.mem_cons.mp hs with rfl | hs
          · exact absurd hd hhead
          · exact ⟨s, hs, hd⟩
        · rintro ⟨s, hs, hd⟩
          exact ⟨s, List.mem_cons_of_mem _ hs, hd⟩
      simp only [hiff]

theorem ceaInterlaced_once :
    ∀ s ∈ ceaInterlaced, ∀ s' ∈ ceaInterlaced, s.2.tdiv 2 * 2 ≠ s'.2.tdiv 2 := by
  decide

/-- Two modes with the same clock and timings. -/
structure SameTimes (m m' : Mode) : Prop where
  clock : m.clock = m'.clock
  hdisplay : m.hdisplay = m'.hdisplay
  hsyncStart : m.hsyncStart = m'.hsyncStart
  hsyncEnd : m.hsyncEnd = m'.hsyncEnd
  htotal : m.htotal = m'.htotal
  vdisplay : m.vdisplay = m'.vdisplay
  vsyncStart : m.vsyncStart = m'.vsyncStart
  vsyncEnd : m.vsyncEnd = m'.vsyncEnd
  vtotal : m.vtotal = m'.vtotal

theorem setSize_times (edid : EdidSize) (pt : DetailedTiming) (quirks : BitVec 32) (mode : Mode) :
    SameTimes (setSize edid pt quirks mode) mode :=
  ⟨rfl, rfl, rfl, rfl, rfl, rfl, rfl, rfl, rfl⟩

/-- Neither doubled lines nor scans. -/
def Plain (m : Mode) : Prop := m.vscan = 0 ∧ m.flags &&& modeFlagDblscan = 0

/-- What a mode that drm_mode_detailed returns was made from. -/
structure Accepted (create : Bool) (edid : EdidSize) (d : DetailedTiming) (quirks : BitVec 32)
    (m : Mode) (d' : DetailedTiming) : Prop where
  hactive : 64 ≤ d.hactive
  vactive : 64 ≤ d.vactive
  mode : if quirks &&& quirkForceReducedBlanking ≠ 0 then
      ∃ mode, drmCvtMode d.hactive d.vactive 60 true false false = some mode ∧
        m = setSize edid d quirks mode
    else Plain m ∧ SameTimes m
        (drmModeDoInterlaceQuirk (fixTotals (fixClock quirks d).timings) (fixClock quirks d)) ∧
      (quirks = 0 → d' = d)

/-- No mode made from a descriptor has doubled lines. -/
theorem plain_of_quirk {mode : Mode} (hscan : mode.vscan = 0) (hflags : mode.flags = 0)
    (pt pt' pt'' : DetailedTiming) (edid : EdidSize) (quirks : BitVec 32) :
    Plain (setSize edid pt'' quirks { drmModeDoInterlaceQuirk mode pt with
      flags := (drmModeDoInterlaceQuirk mode pt).flags ||| syncFlags pt'.misc }) := by
  have hsync : ∀ f : BitVec 32, f = 0 ∨ f = modeFlagInterlace →
      (f ||| syncFlags pt'.misc) &&& modeFlagDblscan = 0 := by
    intro f hf
    unfold syncFlags
    rcases hf with rfl | rfl <;> split_ifs <;> decide
  have hquirk : (drmModeDoInterlaceQuirk mode pt).vscan = 0 ∧
      ((drmModeDoInterlaceQuirk mode pt).flags = 0 ∨
        (drmModeDoInterlaceQuirk mode pt).flags = modeFlagInterlace) := by
    unfold drmModeDoInterlaceQuirk
    by_cases hmisc : pt.misc &&& ptInterlaced = 0
    · rw [if_pos hmisc]
      exact ⟨hscan, Or.inl hflags⟩
    · rw [if_neg hmisc, foldl_interlaceTurn ceaInterlaced_once]
      have hor : (0 : BitVec 32) ||| modeFlagInterlace = modeFlagInterlace := by decide
      by_cases hfield : IsField ceaInterlaced mode
      · rw [if_pos hfield]
        refine ⟨hscan, Or.inr ?_⟩
        change mode.flags ||| modeFlagInterlace = modeFlagInterlace
        rw [hflags, hor]
      · rw [if_neg hfield]
        refine ⟨hscan, Or.inr ?_⟩
        change mode.flags ||| modeFlagInterlace = modeFlagInterlace
        rw [hflags, hor]
  exact ⟨hquirk.1, hsync _ hquirk.2⟩

theorem drmModeDetailed_some {create : Bool} {edid : EdidSize} {d d' : DetailedTiming}
    {quirks : BitVec 32} {m : Mode}
    (h : drmModeDetailed create edid d quirks = some (some m, d')) :
    Accepted create edid d quirks m d' := by
  unfold drmModeDetailed at h
  by_cases htiny : d.hactive < 64 ∨ d.vactive < 64
  · rw [if_pos htiny] at h
    cases h
  · rw [if_neg htiny] at h
    obtain ⟨hh, hv⟩ := not_or.mp htiny
    by_cases hstereo : d.misc &&& ptStereo ≠ 0
    · rw [if_pos hstereo] at h
      cases h
    · rw [if_neg hstereo] at h
      by_cases hwidth : d.hsyncPulseWidth = 0 ∨ d.vsyncPulseWidth = 0
      · rw [if_pos hwidth] at h
        cases h
      · rw [if_neg hwidth] at h
        by_cases hcreate : create = false
        · rw [if_pos hcreate] at h
          cases h
        · rw [if_neg hcreate] at h
          refine ⟨Nat.not_lt.mp hh, Nat.not_lt.mp hv, ?_⟩
          by_cases hforce : quirks &&& quirkForceReducedBlanking ≠ 0
          · rw [if_pos hforce] at h ⊢
            obtain ⟨mode, hcvt, hmode⟩ := Option.map_eq_some_iff.mp h
            cases hmode
            exact ⟨mode, hcvt, rfl⟩
          · rw [if_neg hforce] at h ⊢
            cases h
            refine ⟨plain_of_quirk rfl rfl _ _ _ _ _,
              ⟨rfl, rfl, rfl, rfl, rfl, rfl, rfl, rfl, rfl⟩, ?_⟩
            intro hzero
            rw [hzero]
            rfl

end GfxDrm.Edid
