import GfxDrm.Lib.Best
import GfxDrm.Modes.Defs
import Mathlib.Data.Rat.Floor

/-! The link and the depth that a DisplayPort sink gets for a mode (intel_dp.c). -/

namespace GfxDrm.Dp

open CInt Modes Best

def dpMaxLinkRate : Fin 15 := 1
def dpMaxLaneCount : Fin 15 := 2
def dpMaxLaneCountMask : BitVec 8 := 0x1f

def dpLinkBw162 : ℤ := 0x06
def dpLinkBw27 : ℤ := 0x0a
def dpLinkBw54 : ℤ := 0x14

def modeFlagDblclk : BitVec 32 := 1 <<< 12

/-- What the driver knows of the sink and of the panel behind it. -/
structure IntelDp where
  dpcd : Fin 15 → BitVec 8
  isEdp : Bool := false
  fixedMode : Option Mode := none
  /-- vbt.edp_bpp -/
  edpBpp : ℤ := 0

/-- The values of enum drm_mode_status that a DisplayPort connector gives. -/
inductive ModeStatus
  | ok | hIllegal | clockHigh | clockLow | panel
  deriving DecidableEq, Repr

/-- What the search settles on: pipe_bpp, link_bw and lane_count. -/
structure Link where
  bpp : ℤ
  bw : ℤ
  lanes : ℤ
  deriving DecidableEq, Repr

def drmDpBwCodeToLinkRate (linkBw : ℤ) : ℤ :=
  if linkBw = dpLinkBw27 then 270000
  else if linkBw = dpLinkBw54 then 540000
  else 162000

/-- port_clock -/
def Link.portClock (l : Link) : ℤ := drmDpBwCodeToLinkRate l.bw

def intelDpLinkRequired (pixelClock bpp : ℤ) : ℤ := (i32 (i32 (pixelClock * bpp) + 9)).tdiv 10

def intelDpMaxDataRate (maxLinkClock maxLanes : ℤ) : ℤ :=
  (i32 (i32 (maxLinkClock * maxLanes) * 8)).tdiv 10

/-- The panel takes its own timings whatever is asked of it; the flags stay. -/
def intelFixedPanelMode (fixed adjusted : Mode) : Mode :=
  { adjusted with
    hdisplay := fixed.hdisplay
    hsyncStart := fixed.hsyncStart
    hsyncEnd := fixed.hsyncEnd
    htotal := fixed.htotal
    vdisplay := fixed.vdisplay
    vsyncStart := fixed.vsyncStart
    vsyncEnd := fixed.vsyncEnd
    vtotal := fixed.vtotal
    clock := fixed.clock }

namespace IntelDp

/-- The panel's own mode, where there is a panel. -/
def panelMode (dp : IntelDp) : Option Mode := if dp.isEdp then dp.fixedMode else none

def maxLinkBw (dp : IntelDp) : ℤ :=
  let bw : ℤ := (dp.dpcd dpMaxLinkRate).toNat
  if bw = dpLinkBw162 ∨ bw = dpLinkBw27 then bw
  else if bw = dpLinkBw54 then dpLinkBw27  -- displays of version 1.2 may advertise more
  else dpLinkBw162

def maxLaneCount (dp : IntelDp) : ℤ := (dp.dpcd dpMaxLaneCount &&& dpMaxLaneCountMask).toNat

def maxLinkClock (dp : IntelDp) : ℤ := drmDpBwCodeToLinkRate dp.maxLinkBw

/-- Some side of the mode is longer than the panel's. -/
def TooLarge (dp : IntelDp) (mode : Mode) : Prop :=
  ∃ fixed ∈ dp.panelMode, fixed.hdisplay < mode.hdisplay ∨ fixed.vdisplay < mode.vdisplay

instance (dp : IntelDp) (mode : Mode) : Decidable (dp.TooLarge mode) :=
  inferInstanceAs (Decidable (∃ fixed ∈ dp.panelMode, _))

/-- The clock the pipe has to run at. -/
def targetClock (dp : IntelDp) (mode : Mode) : ℤ := (dp.panelMode.getD mode).clock

def intelDpModeValid (dp : IntelDp) (mode : Mode) : ModeStatus :=
  if dp.TooLarge mode then .panel
  else if intelDpMaxDataRate dp.maxLinkClock dp.maxLaneCount <
      intelDpLinkRequired (dp.targetClock mode) 18 then .clockHigh
  else if mode.clock < 10000 then .clockLow
  else if mode.flags &&& modeFlagDblclk ≠ 0 then .hIllegal
  else .ok

/-- What the pipe is told to show. -/
def adjustedMode (dp : IntelDp) (mode : Mode) : Mode :=
  dp.panelMode.elim mode (intelFixedPanelMode · mode)

/-- The depth at which the search starts. -/
def bppLimit (dp : IntelDp) (pipeBpp : ℤ) : ℤ :=
  if dp.isEdp ∧ dp.edpBpp ≠ 0 then min pipeBpp dp.edpBpp else pipeBpp

/-- The depths that the search goes through. -/
def bpps (limit : ℤ) : List ℤ :=
  ((List.range limit.toNat).map fun k : ℕ => limit - 6 * k).takeWhile (18 ≤ ·)

/-- The link clocks that the search goes through. -/
def bws (dp : IntelDp) : List ℤ :=
  let maxClock := if dp.maxLinkBw = dpLinkBw27 then 1 else 0
  [dpLinkBw162, dpLinkBw27].take (maxClock + 1)

/-- The numbers of lanes that the search goes through, of which the mask leaves at most five. -/
def laneCounts (dp : IntelDp) : List ℤ :=
  ((List.range 5).map fun k => (2 : ℤ) ^ k).takeWhile (· ≤ dp.maxLaneCount)

/-- All that the search goes through, in its order. -/
def links (dp : IntelDp) (limit : ℤ) : List Link :=
  (bpps limit).flatMap fun bpp => dp.bws.flatMap fun bw => dp.laneCounts.map fun lanes =>
    ⟨bpp, bw, lanes⟩

def intelDpComputeConfig (dp : IntelDp) (mode : Mode) (pipeBpp : ℤ) : Option Link :=
  let adjusted := dp.adjustedMode mode
  if adjusted.flags &&& modeFlagDblclk ≠ 0 then none
  else (dp.links (dp.bppLimit pipeBpp)).find? fun l =>
    intelDpLinkRequired adjusted.clock l.bpp ≤ intelDpMaxDataRate l.portClock l.lanes

end IntelDp

/-! ### Exact rates -/

/-- The link carries every pixel: what is needed is at most what there is, in exact numbers. -/
def Carries (clock : ℤ) (l : Link) : Prop :=
  (⌈(clock * l.bpp : ℚ) / 10⌉ : ℚ) ≤ l.portClock * l.lanes * 8 / 10

/-- A link that the sink can take and that is fast enough. -/
structure Feasible (dp : IntelDp) (clock limit : ℤ) (l : Link) : Prop where
  bpp : 18 ≤ l.bpp ∧ l.bpp ≤ limit ∧ 6 ∣ limit - l.bpp
  bw : (l.bw = dpLinkBw162 ∨ l.bw = dpLinkBw27) ∧ l.portClock ≤ dp.maxLinkClock
  lanes : (l.lanes = 1 ∨ l.lanes = 2 ∨ l.lanes = 4) ∧ l.lanes ≤ dp.maxLaneCount
  carries : Carries clock l

/-- Deeper, or slower at the same depth, or with fewer lanes at the same clock. -/
def Link.Before (l l' : Link) : Prop :=
  l'.bpp < l.bpp ∨ l.bpp = l'.bpp ∧
    (l.portClock < l'.portClock ∨ l.portClock = l'.portClock ∧ l.lanes < l'.lanes)

/-- What is asked of a configuration. -/
structure IsBest (dp : IntelDp) (clock limit : ℤ) (l : Link) : Prop where
  feasible : Feasible dp clock limit l
  first : ∀ l', Feasible dp clock limit l' → l' = l ∨ l.Before l'

/-- The configuration found is the best one, and what is accepted as a mode has one. -/
structure ConfigMeets (dp : IntelDp) (mode : Mode) (pipeBpp : ℤ) : Prop where
  best : ∀ l, dp.intelDpComputeConfig mode pipeBpp = some l →
    IsBest dp (dp.targetClock mode) (dp.bppLimit pipeBpp) l
  found : dp.intelDpModeValid mode = .ok → (dp.intelDpComputeConfig mode pipeBpp).isSome

/-- Some number of lanes looks enough for a depth at the sink's own link clock. -/
def IntelDp.Appears (dp : IntelDp) (clock bpp : ℤ) : Prop :=
  ∃ lanes ∈ dp.laneCounts,
    intelDpLinkRequired clock bpp ≤ intelDpMaxDataRate dp.maxLinkClock lanes

instance (dp : IntelDp) (clock bpp : ℤ) : Decidable (dp.Appears clock bpp) :=
  inferInstanceAs (Decidable (∃ lanes ∈ dp.laneCounts, _))

/-- No depth looks as if it fits only because its rate wraps or because lanes are counted that
no link has, and where 18 bits look enough some lanes of the search are. -/
structure RatesFit (dp : IntelDp) (mode : Mode) (limit : ℤ) : Prop where
  exact : mode.flags &&& modeFlagDblclk = 0 → ∀ bpp ∈ IntelDp.bpps limit,
    dp.Appears (dp.targetClock mode) bpp → dp.targetClock mode * bpp + 9 < 0x80000000 ∧
      (dp.maxLaneCount < 8 ∨
        intelDpLinkRequired (dp.targetClock mode) bpp ≤ intelDpMaxDataRate 162000 4)
  found : ¬dp.TooLarge mode → 10000 ≤ mode.clock → mode.flags &&& modeFlagDblclk = 0 →
    intelDpLinkRequired (dp.targetClock mode) 18 ≤
      intelDpMaxDataRate dp.maxLinkClock dp.maxLaneCount →
    18 ≤ limit ∧ dp.Appears (dp.targetClock mode) (18 + (limit - 18) % 6)

namespace IntelDp
variable {dp : IntelDp} {limit bpp bw lanes : ℤ} {l : Link}

theorem steps_pairwise (limit : ℤ) (n : ℕ) :
    ((List.range n).map fun k : ℕ => limit - 6 * k).Pairwise (· > ·) := by
  refine List.pairwise_map.mpr (List.pairwise_lt_range.imp fun h => ?_)
  omega

theorem mem_bpps : bpp ∈ bpps limit ↔ 18 ≤ bpp ∧ bpp ≤ limit ∧ 6 ∣ limit - bpp := by
  rw [bpps, mem_takeWhile (steps_pairwise limit _) (fun a b hab hb =>
    decide_eq_true ((of_decide_eq_true hb).trans (le_of_lt hab))), List.mem_map]
  simp only [List.mem_range, decide_eq_true_eq]
  constructor
  · rintro ⟨⟨k, hk, rfl⟩, hbpp⟩
    exact ⟨hbpp, by omega, ⟨k, by omega⟩⟩
  · rintro ⟨hbpp, hle, k, hk⟩
    exact ⟨⟨k.toNat, by omega, by omega⟩, hbpp⟩

theorem bpps_pairwise (limit : ℤ) : (bpps limit).Pairwise (· > ·) :=
  (steps_pairwise limit _).sublist (List.takeWhile_sublist _)

theorem powers_pairwise : ((List.range 5).map fun k => (2 : ℤ) ^ k).Pairwise (· < ·) := by decide

theorem mem_laneCounts : lanes ∈ dp.laneCounts ↔
    (lanes = 1 ∨ lanes = 2 ∨ lanes = 4 ∨ lanes = 8 ∨ lanes = 16) ∧
      lanes ≤ dp.maxLaneCount := by
  rw [laneCounts, mem_takeWhile powers_pairwise (fun a b hab hb =>
    decide_eq_true ((le_of_lt hab).trans (of_decide_eq_true hb)))]
  simp [List.range_succ]

theorem laneCounts_pairwise (dp : IntelDp) : dp.laneCounts.Pairwise (· < ·) :=
  powers_pairwise.sublist (List.takeWhile_sublist _)

theorem maxLinkBw_eq (dp : IntelDp) :
    dp.maxLinkBw = dpLinkBw162 ∨ dp.maxLinkBw = dpLinkBw27 := by
  unfold maxLinkBw
  dsimp only
  split
  · assumption
  · split
    · exact .inr rfl
    · exact .inl rfl

theorem mem_bws : bw ∈ dp.bws ↔
    (bw = dpLinkBw162 ∨ bw = dpLinkBw27) ∧ drmDpBwCodeToLinkRate bw ≤ dp.maxLinkClock := by
  rw [bws, maxLinkClock]
  obtain h | h := dp.maxLinkBw_eq
  · simp only [h, show dpLinkBw162 ≠ dpLinkBw27 by decide, if_false, List.take,
      List.mem_singleton]
    constructor
    · rintro rfl
      exact ⟨.inl rfl, le_rfl⟩
    · rintro ⟨rfl | rfl, hle⟩
      · rfl
      · exact absurd hle (by decide)
  · simp only [h, if_true, List.take, List.mem_cons, List.not_mem_nil, or_false]
    refine (and_iff_left_of_imp ?_).symm
    rintro (rfl | rfl) <;> decide

theorem bws_pairwise (dp : IntelDp) :
    dp.bws.Pairwise (drmDpBwCodeToLinkRate · < drmDpBwCodeToLinkRate ·) :=
  List.Pairwise.sublist (List.take_sublist _ _) (by decide)

theorem mem_links : l ∈ dp.links limit ↔
    l.bpp ∈ bpps limit ∧ l.bw ∈ dp.bws ∧ l.lanes ∈ dp.laneCounts := by
  simp only [links, List.mem_flatMap, List.mem_map]
  constructor
  · rintro ⟨bpp, hbpp, bw, hbw, lanes, hlanes, rfl⟩
    exact ⟨hbpp, hbw, hlanes⟩
  · rintro ⟨hbpp, hbw, hlanes⟩
    exact ⟨l.bpp, hbpp, l.bw, hbw, l.lanes, hlanes, rfl⟩

theorem links_pairwise (dp : IntelDp) (limit : ℤ) : (dp.links limit).Pairwise Link.Before := by
  refine List.pairwise_flatMap.mpr ⟨fun bpp _ => List.pairwise_flatMap.mpr ⟨fun bw _ => ?_, ?_⟩, ?_⟩
  · exact List.pairwise_map.mpr (dp.laneCounts_pairwise.imp fun h => .inr ⟨rfl, .inr ⟨rfl, h⟩⟩)
  · refine dp.bws_pairwise.imp fun h l hl l' hl' => ?_
    obtain ⟨lanes, -, rfl⟩ := List.mem_map.mp hl
    obtain ⟨lanes', -, rfl⟩ := List.mem_map.mp hl'
    exact .inr ⟨rfl, .inl h⟩
  · refine (bpps_pairwise limit).imp fun h l hl l' hl' => ?_
    simp only [List.mem_flatMap, List.mem_map] at hl hl'
    obtain ⟨bw, -, lanes, -, rfl⟩ := hl
    obtain ⟨bw', -, lanes', -, rfl⟩ := hl'
    exact .inl h

theorem portClock_eq (h : l.bw ∈ dp.bws) : l.portClock = 162000 ∨ l.portClock = 270000 := by
  rw [Link.portClock]
  obtain h | h := (mem_bws.mp h).1
  · exact .inl (h ▸ rfl)
  · exact .inr (h ▸ rfl)

theorem maxLinkClock_eq (dp : IntelDp) : dp.maxLinkClock = 162000 ∨ dp.maxLinkClock = 270000 := by
  rw [maxLinkClock]
  obtain h | h := dp.maxLinkBw_eq
  · exact .inl (h ▸ rfl)
  · exact .inr (h ▸ rfl)

theorem slow_mem (dp : IntelDp) : dpLinkBw162 ∈ dp.bws := by
  refine mem_bws.mpr ⟨.inl rfl, ?_⟩
  have h : drmDpBwCodeToLinkRate dpLinkBw162 = 162000 := rfl
  obtain hc | hc := dp.maxLinkClock_eq <;> omega

/-- The sink's own link clock is one of those the search goes through. -/
theorem maxLinkBw_mem (dp : IntelDp) : dp.maxLinkBw ∈ dp.bws :=
  mem_bws.mpr ⟨dp.maxLinkBw_eq, le_rfl⟩

end IntelDp

/-! ### The rates that the search compares -/

section rates
variable {clock bpp c lanes : ℤ} {l : Link}

theorem maxDataRate_eq (hc : c = 162000 ∨ c = 270000) (h0 : 0 ≤ lanes) (h : lanes < 32) :
    intelDpMaxDataRate c lanes = c * lanes * 8 / 10 := by
  rw [intelDpMaxDataRate]
  obtain rfl | rfl := hc
  all_goals
    rw [i32_of_range (x := _ * lanes) (by omega) (by omega),
      i32_of_range (by omega) (by omega), Int.tdiv_eq_ediv_of_nonneg (by omega)]

theorem linkRequired_eq (h0 : 0 < clock * bpp) (h : clock * bpp + 9 < 0x80000000) :
    intelDpLinkRequired clock bpp = (clock * bpp + 9) / 10 := by
  rw [intelDpLinkRequired, i32_of_range (x := clock * bpp) (by omega) (by omega),
    i32_of_range (by omega) h, Int.tdiv_eq_ediv_of_nonneg (by omega)]

/-- Where nothing wraps the comparison is the exact one. -/
theorem linkRequired_le_iff (hc : c = 162000 ∨ c = 270000) (hl0 : 0 ≤ lanes) (hl : lanes < 32)
    (h0 : 0 < clock * bpp) (h : clock * bpp + 9 < 0x80000000) :
    intelDpLinkRequired clock bpp ≤ intelDpMaxDataRate c lanes ↔ clock * bpp ≤ c * lanes * 8 := by
  rw [linkRequired_eq h0 h, maxDataRate_eq hc hl0 hl]
  obtain rfl | rfl := hc <;> omega

theorem carries_iff (hc : l.portClock = 162000 ∨ l.portClock = 270000) :
    Carries clock l ↔ clock * l.bpp ≤ l.portClock * l.lanes * 8 := by
  have hrate : (l.portClock * l.lanes * 8 / 10 : ℚ) = (l.portClock / 10 * l.lanes * 8 : ℤ) := by
    obtain h | h := hc <;> rw [h] <;> push_cast <;> ring
  rw [Carries, hrate, Int.cast_le, Int.ceil_le, div_le_iff₀ (by norm_num)]
  norm_cast
  obtain h | h := hc <;> rw [h] <;> omega

end rates

/-! ### What the search finds -/

section search
variable {dp : IntelDp} {mode : Mode} {pipeBpp clock limit bpp : ℤ} {l : Link}

theorem adjustedMode_clock (dp : IntelDp) (mode : Mode) :
    (dp.adjustedMode mode).clock = dp.targetClock mode := by
  rw [IntelDp.adjustedMode, IntelDp.targetClock]
  cases dp.panelMode <;> rfl

theorem adjustedMode_flags (dp : IntelDp) (mode : Mode) :
    (dp.adjustedMode mode).flags = mode.flags := by
  rw [IntelDp.adjustedMode]
  cases dp.panelMode <;> rfl

/-- The link looks fast enough. -/
def Looks (clock : ℤ) (l : Link) : Prop :=
  intelDpLinkRequired clock l.bpp ≤ intelDpMaxDataRate l.portClock l.lanes

/-- Of the links that look fast enough it is the one that the search comes to first. -/
structure FirstLook (dp : IntelDp) (clock limit : ℤ) (l : Link) : Prop where
  mem : l ∈ dp.links limit
  looks : Looks clock l
  first : ∀ l' ∈ dp.links limit, Looks clock l' → l' = l ∨ l.Before l'

theorem computeConfig_eq (hd : mode.flags &&& modeFlagDblclk = 0) :
    dp.intelDpComputeConfig mode pipeBpp = (dp.links (dp.bppLimit pipeBpp)).find? fun l =>
      intelDpLinkRequired (dp.targetClock mode) l.bpp ≤
        intelDpMaxDataRate l.portClock l.lanes := by
  rw [IntelDp.intelDpComputeConfig, adjustedMode_clock, adjustedMode_flags, if_neg (not_not.mpr hd)]

theorem computeConfig_none (hd : mode.flags &&& modeFlagDblclk ≠ 0) :
    dp.intelDpComputeConfig mode pipeBpp = none := by
  rw [IntelDp.intelDpComputeConfig, adjustedMode_flags, if_pos hd]

theorem computeConfig_first (h : dp.intelDpComputeConfig mode pipeBpp = some l) :
    mode.flags &&& modeFlagDblclk = 0 ∧
      FirstLook dp (dp.targetClock mode) (dp.bppLimit pipeBpp) l := by
  by_cases hd : mode.flags &&& modeFlagDblclk = 0
  · rw [computeConfig_eq hd] at h
    have hlooks := List.find?_some h
    rw [decide_eq_true_eq] at hlooks
    exact ⟨hd, List.mem_of_find?_eq_some h, hlooks,
      fun l' hl' hlooks => find?_first (dp.links_pairwise _) h l' hl' (decide_eq_true hlooks)⟩
  · rw [computeConfig_none hd] at h
    cases h

/-- Where some link looks fast enough for a depth, one at the sink's own clock does. -/
theorem Looks.appears (hl : l ∈ dp.links limit) (h : Looks clock l) :
    dp.Appears clock l.bpp := by
  obtain ⟨-, hbw, hlanes⟩ := IntelDp.mem_links.mp hl
  refine ⟨l.lanes, hlanes, h.trans ?_⟩
  have hmax : l.portClock ≤ dp.maxLinkClock := (IntelDp.mem_bws.mp hbw).2
  obtain ⟨hlanes, -⟩ := IntelDp.mem_laneCounts.mp hlanes
  rw [maxDataRate_eq (IntelDp.portClock_eq hbw) (by omega) (by omega),
    maxDataRate_eq dp.maxLinkClock_eq (by omega) (by omega)]
  obtain hl | hl | hl | hl | hl := hlanes <;> rw [hl] <;> omega

theorem computeConfig_isSome (hd : mode.flags &&& modeFlagDblclk = 0) :
    (dp.intelDpComputeConfig mode pipeBpp).isSome ↔
      ∃ bpp ∈ IntelDp.bpps (dp.bppLimit pipeBpp), dp.Appears (dp.targetClock mode) bpp := by
  rw [computeConfig_eq hd, List.find?_isSome]
  simp only [decide_eq_true_eq]
  constructor
  · rintro ⟨l, hl, hlooks⟩
    exact ⟨l.bpp, (IntelDp.mem_links.mp hl).1, Looks.appears hl hlooks⟩
  · rintro ⟨bpp, hbpp, lanes, hlanes, hle⟩
    exact ⟨⟨bpp, dp.maxLinkBw, lanes⟩, IntelDp.mem_links.mpr ⟨hbpp, dp.maxLinkBw_mem, hlanes⟩, hle⟩

/-- What an exact comparison lets through the code's lets through, at an exact value. -/
theorem Feasible.looks (hclock : 0 < clock) (h : Feasible dp clock limit l) :
    l ∈ dp.links limit ∧ Looks clock l ∧ clock * l.bpp + 9 < 0x80000000 := by
  have hbw : l.bw ∈ dp.bws := IntelDp.mem_bws.mpr h.bw
  have hc := IntelDp.portClock_eq hbw
  have hcarries := (carries_iff hc).mp h.carries
  have hpos : 0 < clock * l.bpp := Int.mul_pos hclock (by linarith [h.bpp.1])
  have hlanes := h.lanes.1
  have hfits : clock * l.bpp + 9 < 0x80000000 := by
    obtain hl | hl | hl := hlanes <;> rw [hl] at hcarries <;> omega
  refine ⟨IntelDp.mem_links.mpr ⟨IntelDp.mem_bpps.mpr h.bpp, hbw,
    IntelDp.mem_laneCounts.mpr ⟨by omega, h.lanes.2⟩⟩, ?_, hfits⟩
  exact (linkRequired_le_iff hc (by omega) (by omega) hpos hfits).mpr hcarries

/-- More lanes than four are found exactly where the sink has them and four of the slower clock
look too few: no faster link with four is tried before. -/
theorem four_lanes_iff (h : FirstLook dp clock limit l) :
    l.lanes ≤ 4 ↔ dp.maxLaneCount < 8 ∨
      intelDpLinkRequired clock l.bpp ≤ intelDpMaxDataRate 162000 4 := by
  obtain ⟨hbpp, hbw, hlanes⟩ := IntelDp.mem_links.mp h.mem
  obtain ⟨hlanes, hle⟩ := IntelDp.mem_laneCounts.mp hlanes
  have hclocks := IntelDp.portClock_eq hbw
  have htried {n : ℤ} (hn : n = 4 ∨ n = 8) (hmax : n ≤ dp.maxLaneCount)
      (hrate : intelDpLinkRequired clock l.bpp ≤ intelDpMaxDataRate 162000 n) :
      l.portClock = 162000 ∧ l.lanes ≤ n := by
    have hn : n ∈ dp.laneCounts := IntelDp.mem_laneCounts.mpr ⟨by omega, hmax⟩
    have hmem : (⟨l.bpp, dpLinkBw162, n⟩ : Link) ∈ dp.links limit :=
      IntelDp.mem_links.mpr ⟨hbpp, dp.slow_mem, hn⟩
    obtain he | hlt | ⟨-, hlt | ⟨heq, hlt⟩⟩ := h.first _ hmem hrate
    · rw [← he]
      exact ⟨rfl, le_rfl⟩
    · exact absurd hlt (lt_irrefl _)
    · have hslow : l.portClock < 162000 := hlt
      omega
    · exact ⟨heq, hlt.le⟩
  constructor
  · intro hfour
    by_contra hmany
    obtain ⟨hmax, hrate⟩ := not_or.mp hmany
    have hlooks : intelDpLinkRequired clock l.bpp ≤ _ := h.looks
    rw [maxDataRate_eq hclocks (by omega) (by omega)] at hlooks
    rw [maxDataRate_eq (.inl rfl) (by decide) (by decide)] at hrate
    obtain hc | hc := hclocks
    · rw [hc] at hlooks
      omega
    · have htwice := htried (n := 8) (.inr rfl) (by omega) (by
        rw [maxDataRate_eq (.inl rfl) (by decide) (by decide)]
        rw [hc] at hlooks
        omega)
      omega
  · rintro (hmax | hrate)
    · omega
    · by_contra hfour
      have hmany := htried (.inl rfl) (by omega) hrate
      omega

/-- The configuration found is the best one exactly where its rate does not wrap and it has no
more lanes than a link can have. -/
theorem isBest_iff (hclock : 0 < clock) (h : FirstLook dp clock limit l) :
    IsBest dp clock limit l ↔ clock * l.bpp + 9 < 0x80000000 ∧ (dp.maxLaneCount < 8 ∨
      intelDpLinkRequired clock l.bpp ≤ intelDpMaxDataRate 162000 4) := by
  rw [← four_lanes_iff h]
  constructor
  · intro hbest
    have hlanes := hbest.feasible.lanes.1
    exact ⟨(hbest.feasible.looks hclock).2.2, by omega⟩
  · rintro ⟨hfits, hfour⟩
    obtain ⟨hbpp, hbw, hlanes⟩ := IntelDp.mem_links.mp h.mem
    obtain ⟨hlanes, hle⟩ := IntelDp.mem_laneCounts.mp hlanes
    have hbpp := IntelDp.mem_bpps.mp hbpp
    have hpos : 0 < clock * l.bpp := Int.mul_pos hclock (by linarith [hbpp.1])
    have hc := IntelDp.portClock_eq hbw
    exact {
      feasible := {
        bpp := hbpp
        bw := IntelDp.mem_bws.mp hbw
        lanes := ⟨by omega, hle⟩
        carries := (carries_iff hc).mpr
          ((linkRequired_le_iff hc (by omega) (by omega) hpos hfits).mp h.looks) }
      first := fun l' hl' => h.first l' (hl'.looks hclock).1 (hl'.looks hclock).2.1 }

/-- A mode is accepted where it fits the panel and 18 bits a pixel look as if they fit. -/
theorem modeValid_eq_ok : dp.intelDpModeValid mode = .ok ↔
    ¬dp.TooLarge mode ∧ 10000 ≤ mode.clock ∧ mode.flags &&& modeFlagDblclk = 0 ∧
      intelDpLinkRequired (dp.targetClock mode) 18 ≤
        intelDpMaxDataRate dp.maxLinkClock dp.maxLaneCount := by
  unfold IntelDp.intelDpModeValid
  split_ifs <;> simp_all

/-- The lowest depth of the search. -/
theorem lowest_mem (h : 18 ≤ limit) : 18 + (limit - 18) % 6 ∈ IntelDp.bpps limit :=
  IntelDp.mem_bpps.mpr ⟨by omega, by omega, by omega⟩

theorem lowest_le (h : bpp ∈ IntelDp.bpps limit) :
    18 ≤ limit ∧ 18 + (limit - 18) % 6 ≤ bpp := by
  have := IntelDp.mem_bpps.mp h
  omega

/-- No depth that appears to fit is greater than what is found. -/
theorem FirstLook.le (h : FirstLook dp clock limit l) (hbpp : bpp ∈ IntelDp.bpps limit)
    (happears : dp.Appears clock bpp) : bpp ≤ l.bpp := by
  obtain ⟨lanes, hlanes, hle⟩ := happears
  have hmem : (⟨bpp, dp.maxLinkBw, lanes⟩ : Link) ∈ dp.links limit :=
    IntelDp.mem_links.mpr ⟨hbpp, dp.maxLinkBw_mem, hlanes⟩
  obtain rfl | hlt | ⟨heq, -⟩ := h.first _ hmem hle
  · exact le_rfl
  · exact hlt.le
  · exact heq.ge

/-- What needs less appears to fit too, as long as nothing wraps. -/
theorem Appears.mono {bpp' : ℤ} (h : dp.Appears clock bpp) (hclock : 0 < clock) (h0 : 0 < bpp')
    (hle : bpp' ≤ bpp) (hfits : clock * bpp + 9 < 0x80000000) : dp.Appears clock bpp' := by
  obtain ⟨lanes, hlanes, hrate⟩ := h
  have hpos : 0 < clock * bpp' := Int.mul_pos hclock h0
  have hmul := Int.mul_le_mul_of_nonneg_left hle hclock.le
  refine ⟨lanes, hlanes, le_trans ?_ hrate⟩
  rw [linkRequired_eq hpos (by omega), linkRequired_eq (by omega) hfits]
  omega

/-- The search has the best configuration, and one for every mode that is accepted, exactly where
the rates that look small enough are. -/
theorem intel_dp_compute_config_meets_iff (dp : IntelDp) (mode : Mode) (pipeBpp : ℤ)
    (hclock : 0 < dp.targetClock mode) :
    ConfigMeets dp mode pipeBpp ↔ RatesFit dp mode (dp.bppLimit pipeBpp) := by
  constructor
  · intro h
    have hexact : mode.flags &&& modeFlagDblclk = 0 → ∀ bpp ∈ IntelDp.bpps (dp.bppLimit pipeBpp),
        dp.Appears (dp.targetClock mode) bpp → dp.targetClock mode * bpp + 9 < 0x80000000 ∧
          (dp.maxLaneCount < 8 ∨
            intelDpLinkRequired (dp.targetClock mode) bpp ≤ intelDpMaxDataRate 162000 4) := by
      intro hd bpp hbpp happears
      obtain ⟨l, hfound⟩ := Option.isSome_iff_exists.mp
        ((computeConfig_isSome hd).mpr ⟨bpp, hbpp, happears⟩)
      obtain ⟨-, hfirst⟩ := computeConfig_first hfound
      obtain ⟨hfits, hrate⟩ := (isBest_iff hclock hfirst).mp (h.best l hfound)
      have hle := hfirst.le hbpp happears
      have hpos : 0 < dp.targetClock mode * bpp :=
        Int.mul_pos hclock (by linarith [(IntelDp.mem_bpps.mp hbpp).1])
      have hmul := Int.mul_le_mul_of_nonneg_left hle hclock.le
      refine ⟨by omega, hrate.imp_right (le_trans ?_)⟩
      rw [linkRequired_eq hpos (by omega), linkRequired_eq (by omega) hfits]
      omega
    refine ⟨hexact, fun hpanel hlow hd hrate => ?_⟩
    obtain ⟨bpp, hbpp, happears⟩ := (computeConfig_isSome hd).mp
      (h.found (modeValid_eq_ok.mpr ⟨hpanel, hlow, hd, hrate⟩))
    obtain ⟨hlimit, hle⟩ := lowest_le hbpp
    exact ⟨hlimit, Appears.mono happears hclock (by omega) hle (hexact hd bpp hbpp happears).1⟩
  · intro h
    refine ⟨fun l hfound => ?_, fun hvalid => ?_⟩
    · obtain ⟨hd, hfirst⟩ := computeConfig_first hfound
      exact (isBest_iff hclock hfirst).mpr (h.exact hd l.bpp
        (IntelDp.mem_links.mp hfirst.mem).1 (hfirst.looks.appears hfirst.mem))
    · obtain ⟨hpanel, hlow, hd, hrate⟩ := modeValid_eq_ok.mp hvalid
      obtain ⟨hlimit, happears⟩ := h.found hpanel hlow hd hrate
      exact (computeConfig_isSome hd).mpr ⟨_, lowest_mem hlimit, happears⟩

end search

/-- A sink of four lanes at 2.7 GHz. -/
def fourLanes : IntelDp where
  dpcd i := if i = dpMaxLinkRate then 0x0a else if i = dpMaxLaneCount then 0x84 else 0x11

/-- 1920x1080 at 60 Hz. -/
def fullHd : Mode := { clock := 148500, hdisplay := 1920, vdisplay := 1080 }

theorem intel_dp_compute_config_meets_full_hd :
    0 < fourLanes.targetClock fullHd ∧ ConfigMeets fourLanes fullHd 24 :=
  ⟨by decide, (intel_dp_compute_config_meets_iff fourLanes fullHd 24 (by decide)).mpr
    ⟨by decide, by decide⟩⟩

/-- The product is 2 ^ 31 + 16, and one lane looks enough. -/
theorem intel_dp_compute_config_wraps : ¬ConfigMeets fourLanes { clock := 119304648 } 18 := by
  intro h
  have hbest := h.best ⟨18, dpLinkBw162, 1⟩ (by decide)
  have hcarries := (carries_iff (.inl rfl)).mp hbest.feasible.carries
  exact absurd hcarries (by decide)

end GfxDrm.Dp
