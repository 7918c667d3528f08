import GfxDrm.Display.LinkMN
import GfxDrm.Dp.Config
import GfxDrm.Errno
import GfxDrm.Sdvo.Dtd

/-! The configuration of a pipe that shares FDI lanes (intel_display.c), on hardware with a PCH and
no DDI. -/

namespace GfxDrm.Fdi
open CInt Modes Display

inductive Pipe where
  | a
  | b
  | c
  deriving DecidableEq, Repr

/-- intel_device_info as far as it is asked for. -/
structure Device where
  gen : ℕ
  numPipes : ℕ
  isHaswell : Bool := false

def ivybridge : Device := { gen := 7, numPipes := 3 }

/-- intel_crtc_config. -/
structure PipeConfig where
  requestedMode : Mode := {}
  adjustedMode : Mode := {}
  pixelMultiplier : ℤ := 1
  portClock : ℤ := 0
  pipeBpp : ℤ := 0
  bwConstrained : Bool := false
  hasPchEncoder : Bool := false
  fdiLanes : ℤ := 0
  fdiMN : Option IntelLinkMN := none
  dither : Bool := false
  /-- The values that `pipeBpp` has been given, last first. -/
  bpps : List ℤ := []

def PipeConfig.setBpp (cfg : PipeConfig) (bpp : ℤ) : PipeConfig :=
  { cfg with pipeBpp := bpp, bpps := bpp :: cfg.bpps }

structure Crtc where
  enabled : Bool := false
  config : PipeConfig := {}

/-- pipe_has_enabled_pch. -/
def Crtc.hasEnabledPch (crtc : Crtc) : Bool := crtc.enabled && crtc.config.hasPchEncoder

/-! ### The lanes -/

/-- ironlake_check_fdi_lanes. -/
def ironlakeCheckFdiLanes (dev : Device) (crtc : Pipe → Crtc) (pipe : Pipe) (fdiLanes : ℤ) :
    Bool :=
  if 4 < fdiLanes then false
  else if dev.isHaswell then !decide (2 < fdiLanes)
  else if dev.numPipes = 2 then true
  else
    match pipe with
    | .a => true
    | .b => !((crtc .c).enabled && decide (2 < fdiLanes))
    | .c =>
      if !(crtc .b).hasEnabledPch || decide ((crtc .b).config.fdiLanes ≤ 2) then
        !decide (2 < fdiLanes)
      else false

/-- ironlake_get_lanes_required. -/
def ironlakeGetLanesRequired (targetClock linkBw bpp : ℤ) : ℤ :=
  let bps := u32 ((i32 (i32 (targetClock * bpp) * 21)).tdiv 20)
  i32 (u32 (bps / u32 (i32 (linkBw * 8)) + 1))

/-- What is tuned by hand only. -/
def i915LaneWorkaround : Bool := false
def i915DefaultLanes : ℤ := 4

/-- intel_fdi_link_freq after generation 5, in 100 MHz. -/
def intelFdiLinkFreq : ℤ := 27

/-- `intel_fdi_link_freq(dev) * MHz(100)/KHz(1)/10`. -/
def linkBw : ℤ := u32 (intelFdiLinkFreq * 100000000) / 1000 / 10

inductive ComputeResult where
  | done
  | retry
  | failed
  deriving DecidableEq, Repr

section Fdi
variable (dev : Device) (crtc : Pipe → Crtc) (pipe : Pipe)

def PipeConfig.fdiDotclock (cfg : PipeConfig) : ℤ :=
  cfg.adjustedMode.clock.tdiv cfg.pixelMultiplier

/-- One round of ironlake_fdi_compute_config up to its check. -/
def PipeConfig.computeLanes (cfg : PipeConfig) : PipeConfig :=
  let lane :=
    if i915LaneWorkaround then i915DefaultLanes
    else ironlakeGetLanesRequired cfg.fdiDotclock linkBw cfg.pipeBpp
  { cfg with
    fdiLanes := lane
    fdiMN := intelLinkComputeMN 64 cfg.pipeBpp lane cfg.fdiDotclock linkBw }

/-- The rounds of ironlake_fdi_compute_config; none when they have not ended after `fuel`. -/
def fdiRounds : ℕ → Bool → PipeConfig → Option (ComputeResult × PipeConfig)
  | 0, _, _ => none
  | fuel + 1, needsRecompute, cfg =>
    let cfg := cfg.computeLanes
    let setupOk := ironlakeCheckFdiLanes dev crtc pipe cfg.fdiLanes
    if !setupOk ∧ 18 < cfg.pipeBpp then
      fdiRounds fuel true { cfg.setBpp (cfg.pipeBpp - 6) with bwConstrained := true }
    else
      some (if needsRecompute then .retry else if setupOk then .done else .failed, cfg)

def ironlakeFdiComputeConfig (cfg : PipeConfig) : Option (ComputeResult × PipeConfig) :=
  fdiRounds dev crtc pipe (cfg.pipeBpp.toNat + 1) false cfg

def ironlakeFdiFreq : ℤ := 2700000

/-- intel_crtc_compute_config. -/
def intelCrtcComputeConfig (cfg : PipeConfig) : Option (ComputeResult × PipeConfig) :=
  if ironlakeFdiFreq * 4 < i32 (cfg.requestedMode.clock * 3) then some (.failed, cfg)
  else if cfg.adjustedMode.hsyncStart = cfg.adjustedMode.hdisplay then some (.failed, cfg)
  else if cfg.hasPchEncoder then ironlakeFdiComputeConfig dev crtc pipe cfg
  else some (.done, cfg)

end Fdi

/-! ### The encoders -/

/-- A mode that a panel asks for: its clock is 16 bits of 10 kHz, in the VBT and in the EDID. -/
structure PanelMode where
  mode : Mode
  clock : 0 ≤ mode.clock ∧ mode.clock ≤ 655350

/-- A DisplayPort sink, with the panel and the depth that the VBT may give it. -/
structure DpSink where
  dp : Dp.IntelDp
  panel : ∀ fixed ∈ dp.fixedMode, 0 ≤ fixed.clock ∧ fixed.clock ≤ 655350
  edpBpp : dp.edpBpp = 0 ∨ dp.edpBpp = 18 ∨ dp.edpBpp = 24 ∨ dp.edpBpp = 30

/-- What comes of asking an SDVO encoder about its input timings. -/
inductive SdvoAnswer where
  /-- The output timings were not taken. -/
  | refused
  /-- It was not asked, or did not answer. -/
  | kept
  | preferred (dtd : Sdvo.SdvoDtd)

/-- The encoders, in the state they are in when they are asked. An SDVO encoder may answer
otherwise in the second pass. -/
inductive Encoder where
  | crt
  | lvds (a3PowerUp : Bool) (panel : PanelMode)
  | hdmi
  | dp (portA : Bool) (sink : DpSink)
  | sdvo (answer : Bool → SdvoAnswer)

def Encoder.cloneable : Encoder → Bool
  | .crt => true
  | _ => false

def hdmiPortclockLimit (dev : Device) : ℤ := if dev.isHaswell then 300000 else 225000

def intelSdvoGetPixelMultiplier (mode : Mode) : ℤ :=
  if 100000 ≤ mode.clock then 1 else if 50000 ≤ mode.clock then 2 else 4

def intelCrtComputeConfig (cfg : PipeConfig) : Bool × PipeConfig :=
  (true, { cfg with hasPchEncoder := true })

def intelLvdsComputeConfig (a3PowerUp : Bool) (panel : PanelMode) (cfg : PipeConfig) :
    Bool × PipeConfig :=
  let lvdsBpp : ℤ := if a3PowerUp then 24 else 18
  let cfg := if lvdsBpp ≠ cfg.pipeBpp ∧ !cfg.bwConstrained then cfg.setBpp lvdsBpp else cfg
  (true, { cfg with
    adjustedMode := Dp.intelFixedPanelMode panel.mode cfg.adjustedMode
    hasPchEncoder := true })

def intelHdmiComputeConfig (dev : Device) (cfg : PipeConfig) : Bool × PipeConfig :=
  let clock12bpc := (i32 (cfg.requestedMode.clock * 3)).tdiv 2
  let portclockLimit := hdmiPortclockLimit dev
  let deep := 24 < cfg.pipeBpp ∧ clock12bpc ≤ portclockLimit
  let cfg := { cfg with hasPchEncoder := true }
  let cfg := if deep then { cfg with portClock := clock12bpc } else cfg
  let cfg := if !cfg.bwConstrained then cfg.setBpp (if deep then 36 else 24) else cfg
  (!decide (portclockLimit < cfg.adjustedMode.clock), cfg)

def intelDpComputeConfig (portA : Bool) (sink : DpSink) (cfg : PipeConfig) : Bool × PipeConfig :=
  let found := sink.dp.intelDpComputeConfig cfg.adjustedMode cfg.pipeBpp
  let cfg :=
    { cfg with
      hasPchEncoder := cfg.hasPchEncoder || !portA
      adjustedMode := sink.dp.adjustedMode cfg.adjustedMode }
  match found with
  | none => (false, cfg)
  | some link => (true, { cfg.setBpp link.bpp with portClock := link.portClock })

def intelSdvoComputeConfig (answer : SdvoAnswer) (cfg : PipeConfig) : Bool × PipeConfig :=
  let cfg := { cfg.setBpp 24 with hasPchEncoder := true }
  match answer with
  | .refused => (false, cfg)
  | .kept => (true, multiply cfg cfg.adjustedMode)
  | .preferred dtd => (true, multiply cfg (Sdvo.getModeFromDtd cfg.adjustedMode dtd))
where
  multiply (cfg : PipeConfig) (mode : Mode) : PipeConfig :=
    { cfg with
      pixelMultiplier := intelSdvoGetPixelMultiplier mode
      adjustedMode := { mode with clock := i32 (mode.clock * intelSdvoGetPixelMultiplier mode) } }

/-- `retry` is set in the first pass. -/
def Encoder.computeConfig (dev : Device) (retry : Bool) :
    Encoder → PipeConfig → Bool × PipeConfig
  | .crt => intelCrtComputeConfig
  | .lvds a3PowerUp panel => intelLvdsComputeConfig a3PowerUp panel
  | .hdmi => intelHdmiComputeConfig dev
  | .dp portA sink => intelDpComputeConfig portA sink
  | .sdvo answer => intelSdvoComputeConfig (answer retry)

/-- The encoders of a crtc, until one of them rejects the mode. -/
def computeConfigs (dev : Device) (retry : Bool) : List Encoder → PipeConfig → Bool × PipeConfig
  | [], cfg => (true, cfg)
  | encoder :: encoders, cfg =>
    match encoder.computeConfig dev retry cfg with
    | (false, cfg) => (false, cfg)
    | (true, cfg) => computeConfigs dev retry encoders cfg

/-! ### The configuration -/

inductive PixelFormat where
  | c8
  | xrgb1555
  | argb1555
  | rgb565
  | xbgr8888
  | abgr8888
  | xrgb8888
  | argb8888
  | xrgb2101010
  | argb2101010
  | xbgr2101010
  | abgr2101010
  | other
  deriving DecidableEq, Repr

/-- The depth of the plane in compute_baseline_pipe_bpp; none where it is an error. -/
def planeBpp (dev : Device) : PixelFormat → Option ℤ
  | .c8 => some 24
  | .xrgb1555 | .argb1555 => if 3 < dev.gen then none else some 18
  | .rgb565 => some 18
  | .xbgr8888 | .abgr8888 => if dev.gen < 4 then none else some 24
  | .xrgb8888 | .argb8888 => some 24
  | .xrgb2101010 | .argb2101010 | .xbgr2101010 | .abgr2101010 =>
    if dev.gen < 4 then none else some 30
  | .other => none

/-- The revision and the input byte of an EDID. -/
structure EdidInput where
  revision : BitVec 8
  input : BitVec 8

/-- The bpc that drm_add_display_info sets. -/
def EdidInput.bpc (edid : EdidInput) : ℤ :=
  if edid.revision.toNat < 4 ∨ edid.input &&& 0x80 = 0 then 0
  else
    match (edid.input &&& 0x70).toNat with
    | 0x10 => 6
    | 0x20 => 8
    | 0x30 => 10
    | 0x40 => 12
    | 0x50 => 14
    | 0x60 => 16
    | _ => 0

/-- connected_sink_compute_bpp. -/
def connectedSinkComputeBpp (cfg : PipeConfig) (edid : EdidInput) : PipeConfig :=
  let bpp := cfg.pipeBpp
  let cfg := if edid.bpc ≠ 0 ∧ edid.bpc * 3 < bpp then cfg.setBpp (edid.bpc * 3) else cfg
  if edid.bpc = 0 ∧ 24 < bpp then cfg.setBpp 24 else cfg

inductive PipeResult where
  | ok
  | failed
  /-- "loop in pipe configuration computation" -/
  | loop
  deriving DecidableEq, Repr

section Pass
variable (dev : Device) (crtc : Pipe → Crtc) (pipe : Pipe) (encoders : List Encoder)

/-- check_encoder_cloning. -/
def checkEncoderCloning : Bool :=
  !(decide (1 < encoders.length) && encoders.any fun encoder => !encoder.cloneable)

/-- What is between `encoder_retry` and the result of intel_crtc_compute_config. -/
def encoderPass (retry : Bool) (cfg : PipeConfig) : Option (ComputeResult × PipeConfig) :=
  match computeConfigs dev retry encoders { cfg with portClock := 0, pixelMultiplier := 1 } with
  | (false, cfg) => some (.failed, cfg)
  | (true, cfg) =>
    intelCrtcComputeConfig dev crtc pipe
      (if cfg.portClock = 0 then { cfg with portClock := cfg.adjustedMode.clock } else cfg)

/-- The two passes. -/
def encoderPasses (bpp : ℤ) (cfg : PipeConfig) : Option (PipeResult × PipeConfig) := do
  let (result, cfg) ← encoderPass dev crtc pipe encoders true cfg
  match result with
  | .done => some (.ok, { cfg with dither := decide (cfg.pipeBpp ≠ bpp) })
  | .failed => some (.failed, cfg)
  | .retry =>
    let (result, cfg) ← encoderPass dev crtc pipe encoders false cfg
    match result with
    | .done => some (.ok, { cfg with dither := decide (cfg.pipeBpp ≠ bpp) })
    | .failed => some (.failed, cfg)
    | .retry => some (.loop, cfg)

/-- intel_modeset_pipe_config with the encoders and the sinks of the crtc. -/
def intelModesetPipeConfig (sinks : List EdidInput) (format : PixelFormat) (mode : Mode) :
    Option (PipeResult × PipeConfig) :=
  let cfg : PipeConfig := { adjustedMode := mode, requestedMode := mode }
  if !checkEncoderCloning encoders then some (.failed, cfg)
  else
    match planeBpp dev format with
    | none => some (.failed, cfg)
    | some bpp =>
      encoderPasses dev crtc pipe encoders bpp
        (sinks.foldl connectedSinkComputeBpp (cfg.setBpp bpp))

end Pass

end GfxDrm.Fdi
