import GfxDrm.Errno
import GfxDrm.Lib.Span
import GfxDrm.Lib.Traced
import Mathlib.Algebra.Order.Ring.Nat

/-! The parsers of the video BIOS tables (intel_bios.c), with every byte they read. Nothing sets
`opregion.vbt` here, so the tables are those of the mapped ROM. -/

namespace GfxDrm.Bios
open Traced

/-- Bytes are read; `a - b` is taken, unsigned, for the bound of a loop; a value `width` bits
wide is shifted. -/
inductive Event where
  | read (s : Span)
  | bound (a b : ℕ)
  | shift (amount width : ℕ)
  deriving DecidableEq, Repr

def Event.Ok (size : ℕ) : Event → Prop
  | .read s => s.Inside size
  | .bound a b => b ≤ a
  | .shift amount width => amount < width

instance (size : ℕ) : DecidablePred (Event.Ok size)
  | .read s => inferInstanceAs (Decidable (s.Inside size))
  | .bound a b => inferInstanceAs (Decidable (b ≤ a))
  | .shift amount width => inferInstanceAs (Decidable (_ < _))

abbrev Parse := Traced Event

/-- What is mapped: addresses are distances from the start of the image, and beyond its end there
are bytes too. -/
structure Rom where
  mem : ℤ → UInt8
  size : ℕ

/-! ### Reading -/

section
variable (mem : ℤ → UInt8)

def get8 (a : ℤ) : ℕ := (mem a).toNat
def get16 (a : ℤ) : ℕ := get8 mem a + 2 ^ 8 * get8 mem (a + 1)
def get32 (a : ℤ) : ℕ := get16 mem a + 2 ^ 16 * get16 mem (a + 2)

def u8 (a : ℤ) : Parse ℕ := do
  emit (.read ⟨a, 1⟩)
  pure (get8 mem a)

def u16 (a : ℤ) : Parse ℕ := do
  emit (.read ⟨a, 2⟩)
  pure (get16 mem a)

def u32 (a : ℤ) : Parse ℕ := do
  emit (.read ⟨a, 4⟩)
  pure (get32 mem a)

def bits (x lo width : ℕ) : ℕ := x / 2 ^ lo % 2 ^ width

/-- A field of at most eight bits. -/
structure Field where
  off : ℕ
  lo : ℕ := 0
  width : ℕ := 8
  deriving DecidableEq, Repr

def Field.get (p : ℤ) (f : Field) : ℕ := bits (get8 mem (p + f.off)) f.lo f.width

def Field.read (p : ℤ) (f : Field) : Parse ℕ := do
  let b ← u8 mem (p + f.off)
  pure (bits b f.lo f.width)

/-! ### The blocks -/

/-- The loop of find_section from `index` on. -/
def findSectionFrom (bdb : ℤ) (sectionId total index : ℕ) : Parse (Option ℤ) :=
  if index < total then do
    let currentId ← u8 mem (bdb + index)
    let currentSize ← u16 mem (bdb + index + 1)
    if currentId = sectionId then pure (some (bdb + index + 3))
    else findSectionFrom bdb sectionId total (index + 3 + currentSize)
  else pure none
termination_by total - index

def findSection (bdb : ℤ) (sectionId : ℕ) : Parse (Option ℤ) := do
  let headerSize ← u16 mem (bdb + 18)
  let total ← u16 mem (bdb + 20)
  findSectionFrom mem bdb sectionId total headerSize

def getBlocksize (p : ℤ) : Parse ℕ := u16 mem (p - 2)

def bdbGeneralFeatures : ℕ := 1
def bdbGeneralDefinitions : ℕ := 2
def bdbDriverFeatures : ℕ := 12
def bdbSdvoLvdsOptions : ℕ := 22
def bdbSdvoPanelDtds : ℕ := 23
def bdbEdp : ℕ := 27
def bdbLvdsOptions : ℕ := 40
def bdbLvdsLfpDataPtrs : ℕ := 41
def bdbLvdsLfpData : ℕ := 42

/-- sizeof(struct lvds_dvo_timing). -/
def dvoTimingSize : ℕ := 18

/-- sizeof(struct lvds_fp_timing). -/
def fpTimingSize : ℕ := 46

/-- sizeof(struct bdb_general_definitions). -/
def generalDefinitionsSize : ℕ := 5

/-- sizeof(struct child_device_config). -/
def childDeviceSize : ℕ := 33

/-! ### struct lvds_dvo_timing, after its clock -/

def hactiveLo : Field := { off := 2 }
def hblankLo : Field := { off := 3 }
def hblankHi : Field := { off := 4, lo := 0, width := 4 }
def hactiveHi : Field := { off := 4, lo := 4, width := 4 }
def vactiveLo : Field := { off := 5 }
def vblankLo : Field := { off := 6 }
def vblankHi : Field := { off := 7, lo := 0, width := 4 }
def vactiveHi : Field := { off := 7, lo := 4, width := 4 }
def hsyncOffLo : Field := { off := 8 }
def hsyncPulseWidth : Field := { off := 9 }
def vsyncPulseWidth : Field := { off := 10, lo := 0, width := 4 }
def vsyncOff : Field := { off := 10, lo := 4, width := 4 }
def hsyncOffHi : Field := { off := 11, lo := 6, width := 2 }
def vsyncPositive : Field := { off := 17, lo := 5, width := 1 }
def hsyncPositive : Field := { off := 17, lo := 6, width := 1 }

structure DrmDisplayMode where
  hdisplay : ℕ
  hsyncStart : ℕ
  hsyncEnd : ℕ
  htotal : ℕ
  vdisplay : ℕ
  vsyncStart : ℕ
  vsyncEnd : ℕ
  vtotal : ℕ
  clock : ℕ
  /-- DRM_MODE_TYPE_PREFERRED. -/
  type : ℕ := 8
  flags : ℕ
  deriving DecidableEq, Repr

def fillDetailTimingData (p : ℤ) : Parse DrmDisplayMode := do
  let hdisplay := 2 ^ 8 * (← hactiveHi.read mem p) + (← hactiveLo.read mem p)
  let hsyncStart := hdisplay + (2 ^ 8 * (← hsyncOffHi.read mem p) + (← hsyncOffLo.read mem p))
  let hsyncEnd := hsyncStart + (← hsyncPulseWidth.read mem p)
  let htotal := hdisplay + (2 ^ 8 * (← hblankHi.read mem p) + (← hblankLo.read mem p))
  let vdisplay := 2 ^ 8 * (← vactiveHi.read mem p) + (← vactiveLo.read mem p)
  let vsyncStart := vdisplay + (← vsyncOff.read mem p)
  let vsyncEnd := vsyncStart + (← vsyncPulseWidth.read mem p)
  let vtotal := vdisplay + (2 ^ 8 * (← vblankHi.read mem p) + (← vblankLo.read mem p))
  let clock := (← u16 mem p) * 10
  let hsync ← hsyncPositive.read mem p
  let vsync ← vsyncPositive.read mem p
  -- some VBTs have bogus totals
  pure { hdisplay, hsyncStart, hsyncEnd
         htotal := if htotal < hsyncEnd then hsyncEnd + 1 else htotal
         vdisplay, vsyncStart, vsyncEnd
         vtotal := if vtotal < vsyncEnd then vsyncEnd + 1 else vtotal
         clock
         flags := (if hsync ≠ 0 then 1 else 2) + if vsync ≠ 0 then 4 else 8 }

/-- What lvds_dvo_timing_equal_size compares, in its order. -/
def equalSizeFields : List Field :=
  [hactiveHi, hactiveLo, hsyncOffHi, hsyncOffLo, hsyncPulseWidth, hblankHi, hblankLo,
    vactiveHi, vactiveLo, vsyncOff, vsyncPulseWidth, vblankHi, vblankLo]

def equalFields (a b : ℤ) : List Field → Parse Bool
  | [] => pure true
  | f :: fs => do
    let x ← f.read mem a
    let y ← f.read mem b
    if x ≠ y then pure false else equalFields a b fs

def lvdsDvoTimingEqualSize (a b : ℤ) : Parse Bool := equalFields mem a b equalSizeFields

/-! ### What the parsers fill in -/

structure EdpPowerSeq where
  t1T3 : ℕ := 0
  t8 : ℕ := 0
  t9 : ℕ := 0
  t10 : ℕ := 0
  t11T12 : ℕ := 0
  deriving DecidableEq, Repr

structure SdvoDeviceMapping where
  dvoPort : ℕ := 0
  slaveAddr : ℕ := 0
  dvoWiring : ℕ := 0
  ddcPin : ℕ := 0
  i2cPin : ℕ := 0
  initialized : Bool := false
  deriving DecidableEq, Repr

/-- `dev_priv->vbt`. -/
structure IntelVbtData where
  lfpLvdsVbtMode : Option DrmDisplayMode := none
  sdvoLvdsVbtMode : Option DrmDisplayMode := none
  intTvSupport : ℕ := 0
  lvdsDither : ℕ := 0
  lvdsVbt : ℕ := 0
  intCrtSupport : ℕ := 0
  lvdsUseSsc : ℕ := 0
  displayClockMode : ℕ := 0
  fdiRxPolarityInverted : ℕ := 0
  lvdsSscFreq : ℕ := 0
  biosLvdsVal : ℕ := 0
  edpRate : ℕ := 0
  edpLanes : ℕ := 0
  edpPreemphasis : ℕ := 0
  edpVswing : ℕ := 0
  edpSupport : Bool := false
  edpBpp : ℕ := 0
  edpPps : EdpPowerSeq := {}
  crtDdcPin : ℕ := 0
  childDevNum : ℕ := 0
  childDev : Option (List (List ℕ)) := none

/-- The parts of `dev_priv` the parsers write, and the static `panel_type`. -/
structure DrmI915Private where
  vbt : IntelVbtData := {}
  lvdsDownclockAvail : Bool := false
  lvdsDownclock : ℕ := 0
  sdvoMappings : ℕ → SdvoDeviceMapping := fun _ => {}
  renderReclockAvail : Bool := false
  panelType : ℕ := 0

/-- The device, the module parameters, and which of the three allocations succeed. -/
structure Env where
  gen : ℕ := 6
  hasPchNop : Bool := false
  supportsEdp : Bool := false
  i915VbtSdvoPanelType : ℤ := -1
  i915LvdsDownclock : ℕ := 0
  kzallocLfp : Bool := true
  kzallocSdvo : Bool := true
  kcallocChild : Bool := true

variable (env : Env)

def intelBiosSscFrequency (alternate : Bool) : ℕ :=
  match env.gen with
  | 2 => if alternate then 66 else 48
  | 3 | 4 => if alternate then 100 else 96
  | _ => if alternate then 100 else 120

/-! ### The parsers -/

variable (bdb : ℤ) (s : DrmI915Private)

/-- `p = find_section(bdb, id); if (!p) return;` and what follows. -/
def withSection (sectionId : ℕ) (k : ℤ → Parse DrmI915Private) : Parse DrmI915Private := do
  match ← findSection mem bdb sectionId with
  | none => pure s
  | some p => k p

def parseGeneralFeatures : Parse DrmI915Private :=
  withSection mem bdb s bdbGeneralFeatures fun general => do
    let intTvSupport ← Field.read mem general { off := 4, lo := 1, width := 1 }
    let intCrtSupport ← Field.read mem general { off := 4, lo := 0, width := 1 }
    let enableSsc ← Field.read mem general { off := 1, lo := 1, width := 1 }
    let sscFreq ← Field.read mem general { off := 1, lo := 2, width := 1 }
    let displayClockMode ← Field.read mem general { off := 1, lo := 6, width := 1 }
    let fdiRxPolarityInverted ← Field.read mem general { off := 2, lo := 3, width := 1 }
    pure { s with vbt := { s.vbt with
      intTvSupport, intCrtSupport, lvdsUseSsc := enableSsc
      lvdsSscFreq := intelBiosSscFrequency env (sscFreq ≠ 0)
      displayClockMode, fdiRxPolarityInverted } }

/-- GMBUS_PORT_SSC to GMBUS_PORT_DPD. -/
def intelGmbusIsPortValid (port : ℕ) : Bool := 1 ≤ port ∧ port ≤ 6

def parseGeneralDefinitions : Parse DrmI915Private :=
  withSection mem bdb s bdbGeneralDefinitions fun general => do
    let blockSize ← getBlocksize mem general
    if generalDefinitionsSize ≤ blockSize then do
      let busPin ← u8 mem general
      pure (if intelGmbusIsPortValid busPin then { s with vbt.crtDdcPin := busPin } else s)
    else pure s

/-- The entry it returns is not looked at. -/
def getLvdsDvoTiming (lvdsLfpData lvdsLfpDataPtrs : ℤ) (index : ℕ) : Parse ℤ := do
  let dvoTimingOffset1 ← u16 mem (lvdsLfpDataPtrs + 13)
  let dvoTimingOffset0 ← u16 mem (lvdsLfpDataPtrs + 4)
  let fpTimingOffset0 ← u16 mem (lvdsLfpDataPtrs + 1)
  let lfpDataSize : ℤ := dvoTimingOffset1 - dvoTimingOffset0
  let dvoTimingOffset : ℤ := dvoTimingOffset0 - fpTimingOffset0
  pure (lvdsLfpData + lfpDataSize * index + dvoTimingOffset)

def getLvdsFpTiming (data ptrs : ℤ) (index : ℕ) : Parse (Option ℤ) := do
  let dataOfs := data - bdb
  let dataSize ← u16 mem (data - 2)
  if 16 ≤ index then pure none
  else do
    let ofs ← u16 mem (ptrs + 1 + 9 * index)
    if (ofs : ℤ) < dataOfs ∨ dataOfs + dataSize < ofs + fpTimingSize then pure none
    else pure (some (bdb + ofs))

/-- A round of the enumeration of the panel timings: the downclock so far. -/
def downclockRound (lvdsLfpData lvdsLfpDataPtrs panelDvoTiming : ℤ) (i downclock : ℕ) :
    Parse ℕ := do
  let dvoTiming ← getLvdsDvoTiming mem lvdsLfpData lvdsLfpDataPtrs i
  if ← lvdsDvoTimingEqualSize mem dvoTiming panelDvoTiming then do
    let clock ← u16 mem dvoTiming
    pure (if clock < downclock then clock else downclock)
  else pure downclock

/-- `vbt.bios_lvds_val`, from the panel's flat panel timing. -/
def fpLvdsVal (fpTiming : Option ℤ) (mode : DrmDisplayMode) (biosLvdsVal : ℕ) : Parse ℕ :=
  match fpTiming with
  | none => pure biosLvdsVal
  | some p => do
    let xRes ← u16 mem p
    if xRes = mode.hdisplay then do
      let yRes ← u16 mem (p + 2)
      if yRes = mode.vdisplay then u32 mem (p + 8) else pure biosLvdsVal
    else pure biosLvdsVal

/-- parse_lfp_panel_data once the LVDS data and the pointers to it have been found. -/
def parseLfpTimings (type : ℕ) (lvdsLfpData lvdsLfpDataPtrs : ℤ) : Parse DrmI915Private := do
  let s := { s with vbt.lvdsVbt := 1 }
  let panelDvoTiming ← getLvdsDvoTiming mem lvdsLfpData lvdsLfpDataPtrs type
  if env.kzallocLfp then do
    let panelFixedMode ← fillDetailTimingData mem panelDvoTiming
    let s := { s with vbt.lfpLvdsVbtMode := some panelFixedMode }
    let clock ← u16 mem panelDvoTiming
    let downclock ← loop (downclockRound mem lvdsLfpData lvdsLfpDataPtrs panelDvoTiming) 16 clock
    let s := if downclock < clock ∧ env.i915LvdsDownclock ≠ 0 then
      { s with lvdsDownclockAvail := true, lvdsDownclock := downclock * 10 } else s
    let fpTiming ← getLvdsFpTiming mem bdb lvdsLfpData lvdsLfpDataPtrs type
    let biosLvdsVal ← fpLvdsVal mem fpTiming panelFixedMode s.vbt.biosLvdsVal
    pure { s with vbt.biosLvdsVal := biosLvdsVal }
  else pure s

def parseLfpPanelData : Parse DrmI915Private :=
  withSection mem bdb s bdbLvdsOptions fun lvdsOptions => do
    let pixelDither ← Field.read mem lvdsOptions { off := 2, lo := 5, width := 1 }
    let s := { s with vbt.lvdsDither := pixelDither }
    let type ← u8 mem lvdsOptions
    if type = 0xff then pure s
    else
      let s := { s with panelType := type }
      withSection mem bdb s bdbLvdsLfpData fun lvdsLfpData =>
        withSection mem bdb s bdbLvdsLfpDataPtrs fun lvdsLfpDataPtrs =>
          parseLfpTimings mem env bdb s type lvdsLfpData lvdsLfpDataPtrs

/-- parse_sdvo_panel_data with the panel type it has come to. -/
def parseSdvoDtd (index : ℤ) : Parse DrmI915Private :=
  withSection mem bdb s bdbSdvoPanelDtds fun dvoTiming =>
    if env.kzallocSdvo then do
      let panelFixedMode ← fillDetailTimingData mem (dvoTiming + dvoTimingSize * index)
      pure { s with vbt.sdvoLvdsVbtMode := some panelFixedMode }
    else pure s

def parseSdvoPanelData : Parse DrmI915Private :=
  if env.i915VbtSdvoPanelType = -2 then pure s
  else if env.i915VbtSdvoPanelType = -1 then
    withSection mem bdb s bdbSdvoLvdsOptions fun sdvoLvdsOptions => do
      let panelType ← u8 mem (sdvoLvdsOptions + 2)
      parseSdvoDtd mem env bdb s panelType
  else parseSdvoDtd mem env bdb s env.i915VbtSdvoPanelType

/-- `(block_size - sizeof(*p_defs)) / sizeof(*p_child)`: size_t arithmetic, then an int. -/
def childDeviceNum (blockSize : ℕ) : Parse ℤ := do
  emit (.bound blockSize generalDefinitionsSize)
  pure (Int.bmod
    ((blockSize + 2 ^ 64 - generalDefinitionsSize) % 2 ^ 64 / childDeviceSize : ℕ) (2 ^ 32))

/-- `&devices[i]`. -/
def childDevice (defs : ℤ) (i : ℕ) : ℤ := defs + generalDefinitionsSize + childDeviceSize * i

/-- The general definitions with child devices of the size expected: the number of them. -/
def withChildDevices (k : ℤ → ℕ → Parse DrmI915Private) : Parse DrmI915Private :=
  withSection mem bdb s bdbGeneralDefinitions fun defs => do
    let childDevSize ← u8 mem (defs + 4)
    if childDevSize ≠ childDeviceSize then pure s
    else do
      let blockSize ← getBlocksize mem defs
      let num ← childDeviceNum blockSize
      k defs num.toNat

def slaveAddr1 : ℕ := 0x70
def slaveAddr2 : ℕ := 0x72
def devicePortDvob : ℕ := 1
def devicePortDvoc : ℕ := 2

/-- A round of parse_sdvo_device_mapping. -/
def sdvoRound (defs : ℤ) (i : ℕ) (mappings : ℕ → SdvoDeviceMapping) :
    Parse (ℕ → SdvoDeviceMapping) := do
  let child := childDevice defs i
  if (← u16 mem (child + 2)) = 0 then pure mappings
  else do
    let slaveAddr ← u8 mem (child + 18)
    if slaveAddr ≠ slaveAddr1 ∧ slaveAddr ≠ slaveAddr2 then pure mappings
    else do
      let dvoPort ← u8 mem (child + 16)
      if dvoPort ≠ devicePortDvob ∧ dvoPort ≠ devicePortDvoc then pure mappings
      else do
        let mappings ← if (mappings (dvoPort - 1)).initialized then pure mappings
          else do
            let dvoWiring ← u8 mem (child + 28)
            let ddcPin ← u8 mem (child + 19)
            let i2cPin ← u8 mem (child + 17)
            pure (Function.update mappings (dvoPort - 1)
              { dvoPort, slaveAddr, dvoWiring, ddcPin, i2cPin, initialized := true })
        let _ ← u8 mem (child + 25)
        pure mappings

def parseSdvoDeviceMapping : Parse DrmI915Private :=
  withChildDevices mem bdb s fun defs num => do
    let sdvoMappings ← loop (sdvoRound mem defs) num s.sdvoMappings
    pure { s with sdvoMappings }

/-- `memcpy` of `len` bytes. -/
def copy (a : ℤ) (len : ℕ) : Parse (List ℕ) := do
  emit (.read ⟨a, len⟩)
  pure ((List.range len).map fun k => get8 mem (a + k))

def countRound (defs : ℤ) (i count : ℕ) : Parse ℕ := do
  let deviceType ← u16 mem (childDevice defs i + 2)
  pure (if deviceType = 0 then count else count + 1)

def copyRound (defs : ℤ) (i : ℕ) (childDev : List (List ℕ)) : Parse (List (List ℕ)) := do
  if (← u16 mem (childDevice defs i + 2)) = 0 then pure childDev
  else do
    let child ← copy mem (childDevice defs i) childDeviceSize
    pure (childDev ++ [child])

def parseDeviceMapping : Parse DrmI915Private :=
  withChildDevices mem bdb s fun defs num => do
    let count ← loop (countRound mem defs) num 0
    if count = 0 then pure s
    else if env.kcallocChild then do
      let childDev ← loop (copyRound mem defs) num []
      pure { s with vbt.childDevNum := count, vbt.childDev := some childDev }
    else pure { s with vbt.childDev := none }

/-- BDB_DRIVER_FEATURE_EDP. -/
def bdbDriverFeatureEdp : ℕ := 3

def parseDriverFeatures : Parse DrmI915Private :=
  withSection mem bdb s bdbDriverFeatures fun driver => do
    let edp ← if env.supportsEdp then do
        let lvdsConfig ← u16 mem (driver + 7)
        pure (decide (bits lvdsConfig 11 2 = bdbDriverFeatureEdp))
      else pure false
    let dualFrequency ← u16 mem (driver + 7)
    pure { s with
      vbt.edpSupport := s.vbt.edpSupport || edp
      renderReclockAvail := s.renderReclockAvail || bits dualFrequency 2 1 ≠ 0 }

def edpBpp (depth bpp : ℕ) : ℕ :=
  match depth with
  | 0 => 18
  | 1 => 24
  | 2 => 30
  | _ => bpp

def edpLanes : ℕ → ℕ
  | 0 => 1
  | 1 => 2
  | _ => 4

def readEdpPowerSeq (p : ℤ) : Parse EdpPowerSeq := do
  emit (.read ⟨p, 10⟩)
  pure { t1T3 := get16 mem p, t8 := get16 mem (p + 2), t9 := get16 mem (p + 4)
         t10 := get16 mem (p + 6), t11T12 := get16 mem (p + 8) }

/-- `color_depth >> amount`, where the processor takes the amount modulo the width. -/
def shiftRight32 (x amount : ℕ) : Parse ℕ := do
  emit (.shift amount 32)
  pure (x / 2 ^ (amount % 32))

def parseEdp : Parse DrmI915Private :=
  withSection mem bdb s bdbEdp fun edp => do
    let colorDepth ← u32 mem (edp + 160)
    let depth ← shiftRight32 colorDepth (s.panelType * 2)
    let edpPps ← readEdpPowerSeq mem (edp + 10 * s.panelType)
    let edpLinkParams := edp + 164 + 2 * s.panelType
    let rate ← Field.read mem edpLinkParams { off := 0, lo := 0, width := 4 }
    let lanes ← Field.read mem edpLinkParams { off := 0, lo := 4, width := 4 }
    let preemphasis ← Field.read mem edpLinkParams { off := 1, lo := 0, width := 4 }
    let vswing ← Field.read mem edpLinkParams { off := 1, lo := 4, width := 4 }
    pure { s with vbt := { s.vbt with
      edpBpp := edpBpp (depth % 4) s.vbt.edpBpp
      edpPps
      -- DP_LINK_BW_2_7 or DP_LINK_BW_1_62
      edpRate := if rate ≠ 0 then 0x0a else 0x06
      edpLanes := edpLanes lanes
      edpPreemphasis := if preemphasis ≤ 3 then preemphasis * 8 else s.vbt.edpPreemphasis
      edpVswing := if vswing ≤ 3 then vswing else s.vbt.edpVswing } }

end

/-! ### intel_parse_bios -/

def initVbtDefaults (env : Env) (s : DrmI915Private) : DrmI915Private :=
  { s with vbt := { s.vbt with
    -- GMBUS_PORT_VGADDC
    crtDdcPin := 2
    lvdsDither := 1
    lvdsVbt := 0
    sdvoLvdsVbtMode := none
    intTvSupport := 1
    intCrtSupport := 1
    lvdsUseSsc := 1
    lvdsSscFreq := intelBiosSscFrequency env true } }

/-- "$VBT". -/
def IsVbtSignature (mem : ℤ → UInt8) (a : ℤ) : Prop :=
  mem a = 0x24 ∧ mem (a + 1) = 0x56 ∧ mem (a + 2) = 0x42 ∧ mem (a + 3) = 0x54

instance (mem : ℤ → UInt8) (a : ℤ) : Decidable (IsVbtSignature mem a) :=
  inferInstanceAs (Decidable (_ ∧ _))

/-- The next `n` places of the image from `i` on are searched for the signature. -/
def scour (mem : ℤ → UInt8) : ℕ → ℕ → Parse (Option ℕ)
  | 0, _ => pure none
  | n + 1, i => do
    emit (.read ⟨i, 4⟩)
    if IsVbtSignature mem i then pure (some i) else scour mem n (i + 1)

/-- The parsers in turn. -/
def parseBdb (mem : ℤ → UInt8) (env : Env) (bdb : ℤ) (s : DrmI915Private) :
    Parse DrmI915Private := do
  let s ← parseGeneralFeatures mem env bdb s
  let s ← parseGeneralDefinitions mem bdb s
  let s ← parseLfpPanelData mem env bdb s
  let s ← parseSdvoPanelData mem env bdb s
  let s ← parseSdvoDeviceMapping mem bdb s
  let s ← parseDeviceMapping mem env bdb s
  let s ← parseDriverFeatures mem env bdb s
  parseEdp mem bdb s

/-- intel_parse_bios; `rom` is what pci_map_rom maps. -/
def intelParseBios (env : Env) (rom : Option Rom) (s : DrmI915Private) :
    Parse (ℤ × DrmI915Private) :=
  if env.hasPchNop then pure (Errno.eNodev, s)
  else
    let s := initVbtDefaults env s
    match rom with
    | none => pure (-1, s)
    | some rom => do
      match ← scour rom.mem (rom.size - 4) 0 with
      | none => pure (-1, s)
      | some i => do
        let bdbOffset ← u32 rom.mem (i + 28)
        let s ← parseBdb rom.mem env (i + bdbOffset) s
        pure (0, s)

end GfxDrm.Bios
