import GfxDrm.Errno
import GfxDrm.Display.PanelFit

/-! What a put-image request is checked for, and what it programs (intel_overlay.c). -/

namespace GfxDrm.Overlay
open Errno CInt

/-- drm_intel_overlay_put_image, without the handles. -/
structure PutImageRec where
  flags : BitVec 32
  strideY : BitVec 16
  strideUV : BitVec 16
  offsetY : BitVec 32
  offsetU : BitVec 32
  offsetV : BitVec 32
  srcWidth : BitVec 16
  srcHeight : BitVec 16
  srcScanWidth : BitVec 16
  srcScanHeight : BitVec 16
  dstX : BitVec 16
  dstY : BitVec 16
  dstWidth : BitVec 16
  dstHeight : BitVec 16
  deriving DecidableEq, Repr

/-- put_image_params; the fields of 16 bits are read as `short`. -/
structure PutImageParams where
  format : BitVec 32
  dstX : BitVec 16
  dstY : BitVec 16
  dstW : BitVec 16
  dstH : BitVec 16
  srcW : BitVec 16
  srcScanH : BitVec 16
  srcScanW : BitVec 16
  srcH : BitVec 16
  strideY : BitVec 16
  strideUV : BitVec 16
  offsetY : BitVec 32
  offsetU : BitVec 32
  offsetV : BitVec 32
  deriving DecidableEq, Repr

structure OverlayDevice where
  gen : ℕ
  i830 : Bool := false
  i845 : Bool := false

def overlayTypeMask : BitVec 32 := 0xff
def overlayYuvPlanar : BitVec 32 := 0x01
def overlayYuvPacked : BitVec 32 := 0x02
def overlayDepthMask : BitVec 32 := 0xff00
def overlayYuv422 : BitVec 32 := 0x0100
def overlayYuv411 : BitVec 32 := 0x0200
def overlayYuv420 : BitVec 32 := 0x0300
def overlayYuv410 : BitVec 32 := 0x0400
def overlayFlagsMask : BitVec 32 := 0xff000000

def packedDepthBytes (format : BitVec 32) : ℤ :=
  if format &&& overlayDepthMask = overlayYuv422 then 4 else eInval

def packedWidthBytes (format : BitVec 32) (width : BitVec 16) : ℤ :=
  if format &&& overlayDepthMask = overlayYuv422 then width.toInt * 2 else eInval

/-- The horizontal subsampling of a depth. -/
def hsubsampling (depth : BitVec 32) : ℤ :=
  if depth = overlayYuv422 ∨ depth = overlayYuv420 then 2
  else if depth = overlayYuv411 ∨ depth = overlayYuv410 then 4
  else eInval

def uvHsubsampling (format : BitVec 32) : ℤ := hsubsampling (format &&& overlayDepthMask)

/-- The vertical subsampling of a depth. -/
def vsubsampling (depth : BitVec 32) : ℤ :=
  if depth = overlayYuv420 ∨ depth = overlayYuv410 then 2
  else if depth = overlayYuv422 ∨ depth = overlayYuv411 then 1
  else eInval

def uvVsubsampling (format : BitVec 32) : ℤ := vsubsampling (format &&& overlayDepthMask)

/-! ### The panel fitter -/

structure PfitRegs where
  control : BitVec 32
  pgmRatios : BitVec 32
  autoRatios : BitVec 32

/-- The fields pfit_active and pfit_vscale_ratio of the overlay. -/
structure PfitState where
  active : Bool
  vscaleRatio : BitVec 32

structure OverlayCrtc where
  pipe : ℤ
  hdisplay : ℤ
  vdisplay : ℤ

def updatePfitVscaleRatio (dev : OverlayDevice) (regs : PfitRegs) : BitVec 32 :=
  if 4 ≤ dev.gen then regs.pgmRatios >>> 16
  else (if regs.control &&& Display.vertAutoScale ≠ 0 then regs.autoRatios
    else regs.pgmRatios) >>> 20

def intelPanelFitterPipe (dev : OverlayDevice) (regs : PfitRegs) : ℤ :=
  if dev.i830 then -1
  else if regs.control &&& Display.pfitEnable = 0 then -1
  else if dev.gen = 4 then (regs.control >>> 29 &&& 3).toNat
  else 1

/-- A request with what it finds: whether the overlay moves to the crtc, what is left of the panel
fitter else, and the size of the buffer. -/
structure ImageRequest where
  image : PutImageRec
  dev : OverlayDevice
  regs : PfitRegs
  crtc : OverlayCrtc
  moves : Bool
  left : PfitState
  size : ℕ

/-- The state of the panel fitter that the request is checked with. -/
def ImageRequest.pfit (q : ImageRequest) : PfitState :=
  if q.moves then
    if 1024 < q.crtc.hdisplay ∧ intelPanelFitterPipe q.dev q.regs = q.crtc.pipe then
      { active := true, vscaleRatio := updatePfitVscaleRatio q.dev q.regs }
    else { q.left with active := false }
  else q.left

/-! ### The checks -/

def checkOverlayDst (crtc : OverlayCrtc) (r : PutImageRec) : ℤ :=
  if (r.dstX.toNat : ℤ) < crtc.hdisplay ∧ (r.dstX.toNat + r.dstWidth.toNat : ℤ) ≤ crtc.hdisplay ∧
      (r.dstY.toNat : ℤ) < crtc.vdisplay ∧
      (r.dstY.toNat + r.dstHeight.toNat : ℤ) ≤ crtc.vdisplay then 0
  else eInval

/-- A line or a height of the panel as the panel fitter scales it. -/
def PfitState.scale (p : PfitState) (y : BitVec 16) : BitVec 32 :=
  y.setWidth 32 <<< 12 / p.vscaleRatio

/-- The height that is programmed, where no division traps. -/
def ImageRequest.dstH (q : ImageRequest) : BitVec 16 :=
  if q.pfit.active then (q.pfit.scale q.image.dstHeight + 1).setWidth 16 else q.image.dstHeight

def ImageRequest.dstY (q : ImageRequest) : BitVec 16 :=
  if q.pfit.active then (q.pfit.scale q.image.dstY).setWidth 16 else q.image.dstY

/-- The downscaling limit is 8.0; none where the division traps. -/
def checkScale (srcScan dst : BitVec 16) : Option Bool :=
  if dst.toInt = 0 then none
  else some (decide (u32 ((srcScan.toInt * 65536).tdiv dst.toInt / 65536) ≤ 7))

def checkOverlayScaling (p : PutImageParams) : Option ℤ := do
  if ← checkScale p.srcScanH p.dstH then
    if ← checkScale p.srcScanW p.dstW then some 0 else some eInval
  else some eInval

/-- The dimensions of the source. -/
def checkSrcSize (dev : OverlayDevice) (r : PutImageRec) : Bool :=
  let legacy := dev.i845 || dev.i830
  decide (r.srcHeight.toNat ≤ (if legacy then 1088 else 2046) ∧
    r.srcWidth.toNat ≤ (if legacy then 1024 else 2048) ∧
    12 ≤ r.srcHeight.toNat ∧ 20 ≤ r.srcWidth.toNat)

/-- The constraints of the type; a packed image has no UV planes. -/
def checkSrcType (r : PutImageRec) : Except ℤ PutImageRec :=
  if r.flags &&& overlayTypeMask = overlayYuvPacked then
    if uvVsubsampling r.flags ≠ 1 then .error eInval
    else if packedDepthBytes r.flags < 0 then .error (packedDepthBytes r.flags)
    else if r.offsetY.toNat % packedDepthBytes r.flags ≠ 0 then .error eInval
    else .ok { r with strideUV := 0, offsetU := 0, offsetV := 0 }
  else if r.flags &&& overlayTypeMask = overlayYuvPlanar then
    if uvVsubsampling r.flags < 0 ∨ uvHsubsampling r.flags < 0 then .error eInval else .ok r
  else .error eInval

/-- The width in subsamples and the strides. -/
def checkSrcStrides (dev : OverlayDevice) (r : PutImageRec) : Bool :=
  let mask : BitVec 16 := if dev.i830 || dev.i845 then 255 else 63
  let max := if r.flags &&& overlayTypeMask = overlayYuvPlanar then 4096 else 8192
  decide ((r.srcWidth.toNat : ℤ).tmod (uvHsubsampling r.flags) = 0 ∧
    r.strideY &&& mask = 0 ∧ r.strideUV &&& mask = 0 ∧
    ¬ (dev.gen = 4 ∧ r.strideY.toNat < 512) ∧ r.strideY.toNat ≤ max ∧ r.strideUV.toNat ≤ 2048)

/-- `offset + len > size`, with a sum of 32 bits. -/
def exceeds (offset : BitVec 32) (len size : ℕ) : Bool :=
  decide (size < (offset + BitVec.ofNat 32 len).toNat)

/-- The lines of a UV plane. -/
def uvHeight (r : PutImageRec) : ℕ := ((r.srcHeight.toNat : ℤ).tdiv (uvVsubsampling r.flags)).toNat

/-- The extents in the buffer. -/
def checkSrcBuffer (r : PutImageRec) (size : ℕ) : Bool :=
  if r.flags &&& overlayTypeMask = overlayYuvPacked then
    decide (packedWidthBytes r.flags r.srcWidth ≤ r.strideY.toNat) &&
      !exceeds r.offsetY (r.strideY.toNat * r.srcHeight.toNat) size
  else
    decide (r.srcWidth.toNat ≤ r.strideY.toNat) &&
      decide ((r.srcWidth.toNat : ℤ).tdiv (uvHsubsampling r.flags) ≤ r.strideUV.toNat) &&
      !exceeds r.offsetY (r.strideY.toNat * r.srcHeight.toNat) size &&
      !exceeds r.offsetU (r.strideUV.toNat * uvHeight r) size &&
      !exceeds r.offsetV (r.strideUV.toNat * uvHeight r) size

/-- What is left of the request, or the error. -/
def checkOverlaySrc (dev : OverlayDevice) (r : PutImageRec) (size : ℕ) : Except ℤ PutImageRec :=
  if !checkSrcSize dev r then .error eInval
  else
    match checkSrcType r with
    | .error e => .error e
    | .ok r =>
      if !checkSrcStrides dev r then .error eInval
      else if !checkSrcBuffer r size then .error eInval
      else .ok r

/-- The sizes are compared as `short`. -/
def scanFits (r : PutImageRec) : Bool :=
  decide (r.srcScanHeight.toInt ≤ r.srcHeight.toInt ∧ r.srcScanWidth.toInt ≤ r.srcWidth.toInt)

/-- The parameters of a request whose source is `r`. -/
def ImageRequest.params (q : ImageRequest) (r : PutImageRec) : PutImageParams where
  format := r.flags &&& ~~~ overlayFlagsMask
  dstX := r.dstX
  dstY := q.dstY
  dstW := r.dstWidth
  dstH := q.dstH
  srcW := r.srcWidth
  srcScanH := r.srcScanHeight
  srcScanW := r.srcScanWidth
  srcH := r.srcHeight
  strideY := r.strideY
  strideUV := r.strideUV
  offsetY := r.offsetY
  offsetU := r.offsetU
  offsetV := r.offsetV

/-- The checks of intel_overlay_put_image; none where a division traps. -/
def checkImage (q : ImageRequest) : Option (Except ℤ PutImageParams) :=
  if checkOverlayDst q.crtc q.image ≠ 0 then some (.error (checkOverlayDst q.crtc q.image))
  else if q.pfit.active ∧ q.pfit.vscaleRatio = 0 then none
  else if !scanFits q.image then some (.error eInval)
  else
    match checkOverlaySrc q.dev q.image q.size with
    | .error e => some (.error e)
    | .ok r => do
      let ret ← checkOverlayScaling (q.params r)
      some (if ret ≠ 0 then .error ret else .ok (q.params r))

/-! ### The registers -/

/-- overlay_registers, without the filters and the colours. -/
structure OverlayRegs where
  obuf0Y : BitVec 32 := 0
  obuf0U : BitVec 32 := 0
  obuf0V : BitVec 32 := 0
  ostride : BitVec 32 := 0
  dwinpos : BitVec 32 := 0
  dwinsz : BitVec 32 := 0
  swidth : BitVec 32 := 0
  swidthsw : BitVec 32 := 0
  sheight : BitVec 32 := 0
  yrgbscale : BitVec 32 := 0
  uvscale : BitVec 32 := 0
  uvscalev : BitVec 32 := 0
  deriving DecidableEq, Repr

/-- The fields old_xscale and old_yscale of the overlay. -/
structure OldScale where
  x : BitVec 32
  y : BitVec 32
  deriving DecidableEq, Repr

def calcSwidthsw (dev : OverlayDevice) (offset width : BitVec 32) : BitVec 32 :=
  let mask : BitVec 32 := if dev.gen = 2 then 0x1f else 0x3f
  let shift := if dev.gen = 2 then 5 else 6
  let ret := (offset + width + mask) >>> shift - offset >>> shift
  ((if dev.gen = 2 then ret else ret <<< 1) - 1) <<< 2

/-- A `short` as an `unsigned int`. -/
def ofShort (x : BitVec 16) : BitVec 32 := x.signExtend 32

/-- `((src_scan - 1) << FP_SHIFT) / dst`, and 1 for a destination of one pixel or none. -/
def fixedScale (srcScan dst : BitVec 16) : Option (BitVec 32) :=
  if 1 < dst.toInt then
    if dst.toInt = 0 then none
    else some (BitVec.ofInt 32 (((srcScan.toInt - 1) * 4096).tdiv dst.toInt))
  else some (1 <<< 12)

/-- `x / y` on `unsigned int`. -/
def divU32 (x : BitVec 32) (y : ℤ) : Option (BitVec 32) :=
  if BitVec.ofInt 32 y = 0 then none else some (x / BitVec.ofInt 32 y)

/-- The registers, what is left for the next frame, and whether that is another scale. -/
def updateScalingFactors (old : OldScale) (regs : OverlayRegs) (p : PutImageParams) :
    Option (OverlayRegs × OldScale × Bool) := do
  let uvHscale := uvHsubsampling p.format
  let uvVscale := uvVsubsampling p.format
  let xscaleUV ← divU32 (← fixedScale p.srcScanW p.dstW) uvHscale
  let yscaleUV ← divU32 (← fixedScale p.srcScanH p.dstH) uvVscale
  -- make the Y scale to UV scale ratio an exact multiply
  let xscale := xscaleUV * BitVec.ofInt 32 uvHscale
  let yscale := yscaleUV * BitVec.ofInt 32 uvVscale
  let regs := { regs with
    yrgbscale := (yscale &&& 0xfff) <<< 20 ||| xscale >>> 12 <<< 16 ||| (xscale &&& 0xfff) <<< 3
    uvscale := (yscaleUV &&& 0xfff) <<< 20 ||| xscaleUV >>> 12 <<< 16 |||
      (xscaleUV &&& 0xfff) <<< 3
    uvscalev := yscale >>> 12 <<< 16 ||| yscaleUV >>> 12 }
  some (regs, ⟨xscale, yscale⟩, decide (xscale ≠ old.x ∨ yscale ≠ old.y))

/-- The window and the Y plane, or the whole of a packed image. -/
def programY (dev : OverlayDevice) (gttOffset : BitVec 32) (p : PutImageParams)
    (regs : OverlayRegs) : OverlayRegs :=
  let tmpWidth : BitVec 32 :=
    if p.format &&& overlayYuvPacked ≠ 0 then BitVec.ofInt 32 (packedWidthBytes p.format p.srcW)
    else ofShort p.srcW
  { regs with
    dwinpos := ofShort p.dstY <<< 16 ||| ofShort p.dstX
    dwinsz := ofShort p.dstH <<< 16 ||| ofShort p.dstW
    swidth := ofShort p.srcW
    swidthsw := calcSwidthsw dev p.offsetY tmpWidth
    sheight := ofShort p.srcH
    obuf0Y := gttOffset + p.offsetY
    ostride := ofShort p.strideY }

/-- The planes of the colours. -/
def programUV (dev : OverlayDevice) (gttOffset : BitVec 32) (p : PutImageParams)
    (regs : OverlayRegs) : OverlayRegs :=
  let uvWidth := BitVec.ofInt 32 (p.srcW.toInt.tdiv (uvHsubsampling p.format))
  let uvHeight := BitVec.ofInt 32 (p.srcH.toInt.tdiv (uvVsubsampling p.format))
  let tmpU := calcSwidthsw dev p.offsetU uvWidth
  let tmpV := calcSwidthsw dev p.offsetV uvWidth
  { regs with
    swidth := regs.swidth ||| uvWidth <<< 16
    swidthsw := regs.swidthsw ||| (if tmpV ≤ tmpU then tmpU else tmpV) <<< 16
    sheight := regs.sheight ||| uvHeight <<< 16
    obuf0U := gttOffset + p.offsetU
    obuf0V := gttOffset + p.offsetV
    ostride := regs.ostride ||| ofShort p.strideUV <<< 16 }

/-- What intel_overlay_do_put_image writes before the scaling factors. -/
def programImage (dev : OverlayDevice) (gttOffset : BitVec 32) (p : PutImageParams)
    (regs : OverlayRegs) : OverlayRegs :=
  if p.format &&& overlayYuvPlanar ≠ 0 then
    programUV dev gttOffset p (programY dev gttOffset p regs)
  else programY dev gttOffset p regs

/-- The checks and the registers of intel_overlay_put_image; none where a division traps. -/
def putImageRegs (q : ImageRequest) (gttOffset : BitVec 32) (old : OldScale) (regs : OverlayRegs) :
    Option (Except ℤ (OverlayRegs × OldScale × Bool)) := do
  match ← checkImage q with
  | .error e => some (.error e)
  | .ok p =>
    let r ← updateScalingFactors old (programImage q.dev gttOffset p regs) p
    some (.ok r)

/-! ### The planes that are programmed -/

/-- Lines of a buffer from an offset on. -/
structure Plane where
  offset : ℕ
  stride : ℕ
  height : ℕ
  deriving DecidableEq, Repr

def Plane.Inside (p : Plane) (size : ℕ) : Prop := p.offset + p.stride * p.height ≤ size

def OverlayRegs.planeY (regs : OverlayRegs) (gttOffset : BitVec 32) : Plane where
  offset := (regs.obuf0Y - gttOffset).toNat
  stride := (regs.ostride &&& 0xffff).toNat
  height := (regs.sheight &&& 0xffff).toNat

/-- A plane of the colours; the two differ in their offsets only. -/
def OverlayRegs.planeUV (regs : OverlayRegs) (obuf gttOffset : BitVec 32) : Plane where
  offset := (obuf - gttOffset).toNat
  stride := (regs.ostride >>> 16).toNat
  height := (regs.sheight >>> 16).toNat

/-- The planes lie in the buffer and the destination in the crtc's mode. -/
structure ImageInside (q : ImageRequest) (gttOffset : BitVec 32) (regs : OverlayRegs) : Prop where
  planeY : (regs.planeY gttOffset).Inside q.size
  planeU : q.image.flags &&& overlayTypeMask = overlayYuvPlanar →
    (regs.planeUV regs.obuf0U gttOffset).Inside q.size
  planeV : q.image.flags &&& overlayTypeMask = overlayYuvPlanar →
    (regs.planeUV regs.obuf0V gttOffset).Inside q.size
  dstX : (q.image.dstX.toNat + q.image.dstWidth.toNat : ℤ) ≤ q.crtc.hdisplay
  dstY : (q.image.dstY.toNat + q.image.dstHeight.toNat : ℤ) ≤ q.crtc.vdisplay

/-- No division traps, and what is accepted is programmed within its bounds. -/
def PutImageMeets (q : ImageRequest) (gttOffset : BitVec 32) (old : OldScale)
    (regs : OverlayRegs) : Prop :=
  ∃ r, putImageRegs q gttOffset old regs = some r ∧
    ∀ x, r = .ok x → ImageInside q gttOffset x.1

/-- The request passes the checks of its destination and its source. -/
structure ImageRequest.Passes (q : ImageRequest) : Prop where
  dst : checkOverlayDst q.crtc q.image = 0
  scan : scanFits q.image = true
  src : ∃ r, checkOverlaySrc q.dev q.image q.size = .ok r

/-- The end of the extent does not wrap, unless the buffer has it all the same. -/
def NoWrap (offset : BitVec 32) (len size : ℕ) : Prop :=
  offset.toNat + len < 2 ^ 32 ∨ offset.toNat + len ≤ size

/-- The extents of the request's planes do not wrap. -/
structure ImageRequest.NoWraps (q : ImageRequest) : Prop where
  planeY : NoWrap q.image.offsetY (q.image.strideY.toNat * q.image.srcHeight.toNat) q.size
  planeU : q.image.flags &&& overlayTypeMask = overlayYuvPlanar →
    NoWrap q.image.offsetU (q.image.strideUV.toNat * uvHeight q.image) q.size
  planeV : q.image.flags &&& overlayTypeMask = overlayYuvPlanar →
    NoWrap q.image.offsetV (q.image.strideUV.toNat * uvHeight q.image) q.size

/-- The condition: where it matters, the ratio, the height and the width are not zero, and the
extents do not wrap. -/
structure PutImageSafe (q : ImageRequest) : Prop where
  ratio : checkOverlayDst q.crtc q.image = 0 → q.pfit.active = true → q.pfit.vscaleRatio ≠ 0
  height : q.Passes → q.dstH ≠ 0
  width : q.Passes → checkScale q.image.srcScanHeight q.dstH = some true →
    q.image.dstWidth ≠ 0
  extents : q.Passes → checkScale q.image.srcScanHeight q.dstH = some true →
    checkScale q.image.srcScanWidth q.image.dstWidth = some true → q.NoWraps

/-! ### What the checks imply -/

section Checks
variable {dev : OverlayDevice} {r r' : PutImageRec} {size : ℕ}

theorem inside_iff_noWrap {offset : BitVec 32} {len : ℕ}
    (h : exceeds offset len size = false) :
    offset.toNat + len ≤ size ↔ NoWrap offset len size := by
  have hle : (offset.toNat + len) % 2 ^ 32 ≤ size := by
    have h' := of_decide_eq_false h
    rw [BitVec.toNat_add, BitVec.toNat_ofNat] at h'
    omega
  constructor
  · exact Or.inr
  · intro hfit
    rcases hfit with hlt | hin
    · rwa [Nat.mod_eq_of_lt hlt] at hle
    · exact hin

theorem uvSubsampling_range (format : BitVec 32) :
    (uvHsubsampling format = 2 ∨ uvHsubsampling format = 4 ∨ uvHsubsampling format = eInval) ∧
      (uvVsubsampling format = 1 ∨ uvVsubsampling format = 2 ∨
        uvVsubsampling format = eInval) := by
  unfold uvHsubsampling uvVsubsampling hsubsampling vsubsampling
  constructor
  · split_ifs
    · exact Or.inl rfl
    · exact Or.inr (Or.inl rfl)
    · exact Or.inr (Or.inr rfl)
  · split_ifs
    · exact Or.inr (Or.inl rfl)
    · exact Or.inl rfl
    · exact Or.inr (Or.inr rfl)

/-- What a source that passes is like. -/
structure SrcChecked (r r' : PutImageRec) (size : ℕ) : Prop where
  height : 12 ≤ r.srcHeight.toNat ∧ r.srcHeight.toNat ≤ 2046
  width : 20 ≤ r.srcWidth.toNat ∧ r.srcWidth.toNat ≤ 2048
  hsub : uvHsubsampling r.flags = 2 ∨ uvHsubsampling r.flags = 4
  vsub : uvVsubsampling r.flags = 1 ∨ uvVsubsampling r.flags = 2
  strideY : r.strideY.toNat ≤ 8192
  strideUV : r'.strideUV.toNat ≤ 2048
  planeY : exceeds r.offsetY (r.strideY.toNat * r.srcHeight.toNat) size = false
  type : r.flags &&& overlayTypeMask = overlayYuvPacked ∧
      r' = { r with strideUV := 0, offsetU := 0, offsetV := 0 } ∨
    r.flags &&& overlayTypeMask = overlayYuvPlanar ∧ r' = r ∧
      exceeds r.offsetU (r.strideUV.toNat * uvHeight r) size = false ∧
      exceeds r.offsetV (r.strideUV.toNat * uvHeight r) size = false

theorem checkSrcSize_spec (h : checkSrcSize dev r = true) :
    (12 ≤ r.srcHeight.toNat ∧ r.srcHeight.toNat ≤ 2046) ∧
      20 ≤ r.srcWidth.toNat ∧ r.srcWidth.toNat ≤ 2048 := by
  have h' := of_decide_eq_true h
  have hheight : (if dev.i845 || dev.i830 then 1088 else 2046) ≤ 2046 := by split <;> decide
  have hwidth : (if dev.i845 || dev.i830 then 1024 else 2048) ≤ 2048 := by split <;> decide
  omega

theorem checkSrcType_spec (h : checkSrcType r = .ok r') :
    (uvHsubsampling r.flags = 2 ∨ uvHsubsampling r.flags = 4) ∧
      (uvVsubsampling r.flags = 1 ∨ uvVsubsampling r.flags = 2) ∧
      (r.flags &&& overlayTypeMask = overlayYuvPacked ∧
          r' = { r with strideUV := 0, offsetU := 0, offsetV := 0 } ∨
        r.flags &&& overlayTypeMask = overlayYuvPlanar ∧ r' = r) := by
  obtain ⟨hhs, hvs⟩ := uvSubsampling_range r.flags
  unfold checkSrcType at h
  split at h
  · next hpacked =>
    split_ifs at h with hv hdepth hoff
    cases h
    -- A packed image has the depth of YUV422.
    have h422 : r.flags &&& overlayDepthMask = overlayYuv422 := by
      by_contra hne
      rw [packedDepthBytes, if_neg hne] at hdepth
      exact hdepth (by decide)
    have hsub : uvHsubsampling r.flags = 2 := by
      rw [uvHsubsampling, hsubsampling, if_pos (Or.inl h422)]
    exact ⟨Or.inl hsub, Or.inl (not_not.mp hv), Or.inl ⟨hpacked, rfl⟩⟩
  · split_ifs at h with hplanar hneg
    cases h
    have he : eInval = -22 := rfl
    exact ⟨by omega, by omega, Or.inr ⟨hplanar, rfl⟩⟩

theorem checkOverlaySrc_spec (h : checkOverlaySrc dev r size = .ok r') : SrcChecked r r' size := by
  unfold checkOverlaySrc at h
  split at h
  · cases h
  next hsize =>
  rw [Bool.not_eq_true, Bool.not_eq_false'] at hsize
  split at h
  · cases h
  next r₁ htype =>
  split_ifs at h with hstrides hbuffer
  cases h
  rw [Bool.not_eq_true, Bool.not_eq_false'] at hstrides hbuffer
  obtain ⟨hheight, hwidth⟩ := checkSrcSize_spec hsize
  obtain ⟨hhsub, hvsub, hkind⟩ := checkSrcType_spec htype
  obtain ⟨-, -, -, -, hy, huv⟩ := of_decide_eq_true hstrides
  have hmax : (if r'.flags &&& overlayTypeMask = overlayYuvPlanar then 4096 else 8192) ≤ 8192 := by
    split <;> decide
  rcases hkind with ⟨hpacked, rfl⟩ | ⟨hplanar, rfl⟩
  · rw [checkSrcBuffer, if_pos hpacked, Bool.and_eq_true, Bool.not_eq_true'] at hbuffer
    exact ⟨hheight, hwidth, hhsub, hvsub, hy.trans hmax, huv, hbuffer.2, Or.inl ⟨hpacked, rfl⟩⟩
  · have hnot : ¬ r'.flags &&& overlayTypeMask = overlayYuvPacked := by
      rw [hplanar]
      decide
    rw [checkSrcBuffer, if_neg hnot] at hbuffer
    simp only [Bool.and_eq_true, Bool.not_eq_true'] at hbuffer
    obtain ⟨⟨⟨-, hY⟩, hU⟩, hV⟩ := hbuffer
    exact ⟨hheight, hwidth, hhsub, hvsub, hy.trans hmax, huv, hY,
      Or.inr ⟨hplanar, rfl, hU, hV⟩⟩

end Checks

/-! ### What is programmed -/

section Program
variable {dev : OverlayDevice} {gttOffset : BitVec 32} {regs : OverlayRegs}

theorem low_half {a b : BitVec 32} (ha : a.toNat < 2 ^ 16) (hb : b.toNat < 2 ^ 16) :
    ((a ||| b <<< 16) &&& 0xffff).toNat = a.toNat ∧ ((a ||| b <<< 16) >>> 16).toNat = b.toNat := by
  have hshift : (b <<< 16).toNat = b.toNat <<< 16 := by
    exact Nat.mod_eq_of_lt (by omega)
  have hor : (a ||| b <<< 16).toNat = b.toNat * 2 ^ 16 + a.toNat := by
    rw [BitVec.toNat_or, hshift, Nat.or_comm, BitField.shift_or ha]
  constructor
  · rw [BitVec.toNat_and, hor]
    change (b.toNat * 2 ^ 16 + a.toNat) &&& (2 ^ 16 - 1) = a.toNat
    rw [Nat.and_two_pow_sub_one_eq_mod]
    omega
  · rw [BitVec.toNat_ushiftRight]
    omega

theorem and_low {a : BitVec 32} (ha : a.toNat < 2 ^ 16) : (a &&& 0xffff).toNat = a.toNat := by
  change a.toNat &&& (2 ^ 16 - 1) = a.toNat
  rw [Nat.and_two_pow_sub_one_eq_mod, Nat.mod_eq_of_lt ha]

/-- A `short` that is not negative. -/
theorem toNat_ofShort {x : BitVec 16} (h : x.toNat < 2 ^ 15) : (ofShort x).toNat = x.toNat := by
  have hmsb : x.msb = false := by
    rw [BitVec.msb_eq_false_iff_two_mul_lt]
    omega
  rw [ofShort, BitVec.signExtend_eq_setWidth_of_msb_false hmsb, BitVec.toNat_setWidth]
  exact Nat.mod_eq_of_lt (by omega)

theorem toInt_short {x : BitVec 16} (h : x.toNat < 2 ^ 15) : x.toInt = x.toNat :=
  BitVec.toInt_eq_toNat_of_lt (by omega)

theorem format_type (flags : BitVec 32) (b : BitVec 32) (hb : b &&& overlayTypeMask = b)
    (hb' : ~~~ overlayFlagsMask &&& b = b) :
    flags &&& ~~~ overlayFlagsMask &&& b = flags &&& overlayTypeMask &&& b := by
  rw [BitVec.and_assoc, hb', BitVec.and_assoc, BitVec.and_comm overlayTypeMask, hb]

theorem format_depth (flags : BitVec 32) :
    flags &&& ~~~ overlayFlagsMask &&& overlayDepthMask = flags &&& overlayDepthMask := by
  rw [BitVec.and_assoc, show ~~~ overlayFlagsMask &&& overlayDepthMask = overlayDepthMask by decide]

variable {q : ImageRequest} {r : PutImageRec}

/-- The fields that the checks leave as they are. -/
theorem SrcChecked.fields {size : ℕ} {i : PutImageRec} (h : SrcChecked i r size) :
    r.flags = i.flags ∧ r.strideY = i.strideY ∧ r.offsetY = i.offsetY ∧
      r.srcHeight = i.srcHeight ∧ r.srcWidth = i.srcWidth ∧ r.dstWidth = i.dstWidth ∧
      r.srcScanHeight = i.srcScanHeight ∧ r.srcScanWidth = i.srcScanWidth := by
  rcases h.type with ⟨-, rfl⟩ | ⟨-, rfl, -, -⟩
  · exact ⟨rfl, rfl, rfl, rfl, rfl, rfl, rfl, rfl⟩
  · exact ⟨rfl, rfl, rfl, rfl, rfl, rfl, rfl, rfl⟩

theorem format_planar (h : SrcChecked q.image r q.size) :
    (q.params r).format &&& overlayYuvPlanar ≠ 0 ↔
      q.image.flags &&& overlayTypeMask = overlayYuvPlanar := by
  have hf := h.fields.1
  change r.flags &&& ~~~ overlayFlagsMask &&& overlayYuvPlanar ≠ 0 ↔ _
  rw [hf, format_type _ _ (by decide) (by decide)]
  rcases h.type with ⟨hpacked, -⟩ | ⟨hplanar, -⟩
  · rw [hpacked]
    decide
  · rw [hplanar]
    decide

theorem uvHeight_range (h : SrcChecked q.image r q.size) :
    (BitVec.ofInt 32 ((q.params r).srcH.toInt.tdiv (uvVsubsampling (q.params r).format))).toNat =
      uvHeight q.image ∧ uvHeight q.image ≤ 2046 := by
  obtain ⟨hflags, -, -, hheight, -⟩ := h.fields
  have hv : uvVsubsampling (q.params r).format = uvVsubsampling q.image.flags := by
    change vsubsampling (r.flags &&& ~~~ overlayFlagsMask &&& overlayDepthMask) = _
    rw [format_depth, hflags]
    rfl
  have hrange := h.height
  have hs : (q.params r).srcH.toInt = q.image.srcHeight.toNat := by
    change r.srcHeight.toInt = _
    rw [hheight, toInt_short (by omega)]
  have hquot : ∃ k : ℕ, k ≤ 2046 ∧
      (q.image.srcHeight.toNat : ℤ).tdiv (uvVsubsampling q.image.flags) = k := by
    rw [Int.tdiv_eq_ediv_of_nonneg (by omega)]
    rcases h.vsub with hsub | hsub
    · exact ⟨q.image.srcHeight.toNat, hrange.2, by rw [hsub, Int.ediv_one]⟩
    · exact ⟨q.image.srcHeight.toNat / 2, by omega, by rw [hsub]; rfl⟩
  obtain ⟨k, hk, hquot⟩ := hquot
  rw [uvHeight, hv, hs, hquot, BitVec.ofInt_natCast]
  exact ⟨Nat.mod_eq_of_lt (by omega), hk⟩

/-- The halves that the registers are put together from. -/
theorem params_halves (h : SrcChecked q.image r q.size) :
    (ofShort (q.params r).strideY).toNat = q.image.strideY.toNat ∧
      (ofShort (q.params r).srcH).toNat = q.image.srcHeight.toNat ∧
      (ofShort (q.params r).strideUV).toNat = r.strideUV.toNat := by
  obtain ⟨-, hstride, -, hheight, -⟩ := h.fields
  have hheight' := h.height
  have hstride' := h.strideY
  have huv := h.strideUV
  refine ⟨?_, ?_, ?_⟩
  · change (ofShort r.strideY).toNat = _
    rw [hstride, toNat_ofShort (by omega)]
  · change (ofShort r.srcHeight).toNat = _
    rw [hheight, toNat_ofShort (by omega)]
  · change (ofShort r.strideUV).toNat = _
    exact toNat_ofShort (by omega)

theorem add_sub_gtt (offset : BitVec 32) : gttOffset + offset - gttOffset = offset := by
  rw [BitVec.add_comm, BitVec.add_sub_cancel]

/-- The registers hold the Y plane of the request. -/
theorem programImage_planeY (h : SrcChecked q.image r q.size) :
    (programImage dev gttOffset (q.params r) regs).planeY gttOffset =
      ⟨q.image.offsetY.toNat, q.image.strideY.toNat, q.image.srcHeight.toNat⟩ := by
  obtain ⟨hs, hh, huv⟩ := params_halves h
  have hv := uvHeight_range h
  have ho : (q.params r).offsetY = q.image.offsetY := h.fields.2.2.1
  unfold programImage OverlayRegs.planeY
  by_cases hplanar : (q.params r).format &&& overlayYuvPlanar ≠ 0
  · simp only [if_pos hplanar, programUV, programY, add_sub_gtt, ho]
    rw [(low_half (by omega) (by omega)).1, (low_half (by omega) (by omega)).1, hs, hh]
  · simp only [if_neg hplanar, programY, add_sub_gtt, ho]
    rw [and_low (by omega), and_low (by omega), hs, hh]

/-- The registers hold the planes of the colours of a planar request. -/
theorem programImage_planeUV (h : SrcChecked q.image r q.size)
    (hplanar : q.image.flags &&& overlayTypeMask = overlayYuvPlanar) (obuf : BitVec 32) :
    (programImage dev gttOffset (q.params r) regs).obuf0U = gttOffset + q.image.offsetU ∧
      (programImage dev gttOffset (q.params r) regs).obuf0V = gttOffset + q.image.offsetV ∧
      (programImage dev gttOffset (q.params r) regs).planeUV obuf gttOffset =
        ⟨(obuf - gttOffset).toNat, q.image.strideUV.toNat, uvHeight q.image⟩ := by
  obtain ⟨hs, hh, huv⟩ := params_halves h
  have hv := uvHeight_range h
  have heq : r = q.image := by
    rcases h.type with ⟨hpacked, -⟩ | ⟨-, heq, -⟩
    · rw [hplanar] at hpacked
      exact absurd hpacked (by decide)
    · exact heq
  have hflag := (format_planar h).mpr hplanar
  unfold programImage OverlayRegs.planeUV
  simp only [if_pos hflag, programUV, programY]
  rw [(low_half (by omega) (by omega)).2, (low_half (by omega) (by omega)).2, huv, hv.1, heq]
  exact ⟨rfl, rfl, rfl⟩

/-- The scaling factors do not divide by zero, and leave the planes as they are. -/
theorem updateScalingFactors_spec (h : SrcChecked q.image r q.size) (old : OldScale) :
    ∃ x, updateScalingFactors old regs (q.params r) = some x ∧ x.1.obuf0Y = regs.obuf0Y ∧
      x.1.obuf0U = regs.obuf0U ∧ x.1.obuf0V = regs.obuf0V ∧ x.1.ostride = regs.ostride ∧
      x.1.sheight = regs.sheight := by
  have hflags : (q.params r).format &&& overlayDepthMask = q.image.flags &&& overlayDepthMask := by
    change r.flags &&& ~~~ overlayFlagsMask &&& overlayDepthMask = _
    rw [format_depth, h.fields.1]
  have hh : BitVec.ofInt 32 (uvHsubsampling (q.params r).format) ≠ 0 := by
    rw [uvHsubsampling, hflags]
    rcases h.hsub with hsub | hsub <;> rw [uvHsubsampling] at hsub <;> rw [hsub] <;> decide
  have hv : BitVec.ofInt 32 (uvVsubsampling (q.params r).format) ≠ 0 := by
    rw [uvVsubsampling, hflags]
    rcases h.vsub with hsub | hsub <;> rw [uvVsubsampling] at hsub <;> rw [hsub] <;> decide
  have hfixed (srcScan dst : BitVec 16) : ∃ x, fixedScale srcScan dst = some x := by
    unfold fixedScale
    split_ifs with hlt hzero
    · omega
    · exact ⟨_, rfl⟩
    · exact ⟨_, rfl⟩
  obtain ⟨x, hx⟩ := hfixed (q.params r).srcScanW (q.params r).dstW
  obtain ⟨y, hy⟩ := hfixed (q.params r).srcScanH (q.params r).dstH
  rw [updateScalingFactors]
  simp only [hx, hy, divU32, if_neg hh, if_neg hv]
  exact ⟨_, rfl, rfl, rfl, rfl, rfl, rfl⟩

end Program

/-! ### The request -/

section Request
variable {q : ImageRequest} {r : PutImageRec} {gttOffset : BitVec 32} {old : OldScale}
  {regs : OverlayRegs}

theorem checkScale_none_iff {srcScan dst : BitVec 16} :
    checkScale srcScan dst = none ↔ dst = 0 := by
  unfold checkScale
  split
  · next h => exact iff_of_true rfl (BitVec.eq_of_toInt_eq h)
  · next h =>
    refine iff_of_false (by simp) ?_
    intro hzero
    rw [hzero] at h
    exact h rfl

theorem ne_zero_of_checkScale {srcScan dst : BitVec 16} {ok : Bool}
    (h : checkScale srcScan dst = some ok) : dst ≠ 0 := by
  intro hzero
  rw [checkScale_none_iff.mpr hzero] at h
  cases h

theorem PutImageMeets.of_error {e : ℤ} (h : checkImage q = some (.error e)) :
    PutImageMeets q gttOffset old regs := by
  refine ⟨.error e, ?_, ?_⟩
  · rw [putImageRegs, h]
    rfl
  · intro x hx
    cases hx

theorem not_putImageMeets (h : checkImage q = none) : ¬ PutImageMeets q gttOffset old regs := by
  intro hmeets
  obtain ⟨x, hx, -⟩ := hmeets
  rw [putImageRegs, h] at hx
  cases hx

/-- The request's planes are what the registers hold, so they lie in the buffer exactly where
their extents do not wrap. -/
theorem imageInside_iff {x : OverlayRegs} (hdst : checkOverlayDst q.crtc q.image = 0)
    (h : SrcChecked q.image r q.size)
    (hx : x.obuf0Y = (programImage q.dev gttOffset (q.params r) regs).obuf0Y ∧
      x.obuf0U = (programImage q.dev gttOffset (q.params r) regs).obuf0U ∧
      x.obuf0V = (programImage q.dev gttOffset (q.params r) regs).obuf0V ∧
      x.ostride = (programImage q.dev gttOffset (q.params r) regs).ostride ∧
      x.sheight = (programImage q.dev gttOffset (q.params r) regs).sheight) :
    ImageInside q gttOffset x ↔ q.NoWraps := by
  obtain ⟨hY, hU, hV, hstride, hheight⟩ := hx
  have hplaneY : x.planeY gttOffset =
      ⟨q.image.offsetY.toNat, q.image.strideY.toNat, q.image.srcHeight.toNat⟩ := by
    have hprog : (programImage q.dev gttOffset (q.params r) regs).planeY gttOffset = _ :=
      programImage_planeY h
    rw [← hprog, OverlayRegs.planeY, hY, hstride, hheight]
    rfl
  have hy : (x.planeY gttOffset).Inside q.size ↔
      NoWrap q.image.offsetY (q.image.strideY.toNat * q.image.srcHeight.toNat) q.size := by
    rw [hplaneY]
    exact inside_iff_noWrap h.planeY
  have huv (hplanar : q.image.flags &&& overlayTypeMask = overlayYuvPlanar) :
      ((x.planeUV x.obuf0U gttOffset).Inside q.size ↔
          NoWrap q.image.offsetU (q.image.strideUV.toNat * uvHeight q.image) q.size) ∧
        ((x.planeUV x.obuf0V gttOffset).Inside q.size ↔
          NoWrap q.image.offsetV (q.image.strideUV.toNat * uvHeight q.image) q.size) := by
    obtain ⟨-, -, hexU, hexV⟩ := h.type.resolve_left fun hp => by
      rw [hplanar] at hp
      exact absurd hp.1 (by decide)
    have hplane (obuf : BitVec 32) : x.planeUV obuf gttOffset =
        ⟨(obuf - gttOffset).toNat, q.image.strideUV.toNat, uvHeight q.image⟩ := by
      have hprog : (programImage q.dev gttOffset (q.params r) regs).planeUV obuf gttOffset = _ :=
        (programImage_planeUV h hplanar obuf).2.2
      rw [← hprog, OverlayRegs.planeUV, hstride, hheight]
      rfl
    have hbufU : (programImage q.dev gttOffset (q.params r) regs).obuf0U = _ :=
      (programImage_planeUV h hplanar 0).1
    have hbufV : (programImage q.dev gttOffset (q.params r) regs).obuf0V = _ :=
      (programImage_planeUV h hplanar 0).2.1
    rw [hplane, hplane, hU, hV, hbufU, hbufV, add_sub_gtt, add_sub_gtt]
    exact ⟨inside_iff_noWrap hexU, inside_iff_noWrap hexV⟩
  constructor
  · intro hin
    exact ⟨hy.mp hin.planeY, fun hp => (huv hp).1.mp (hin.planeU hp),
      fun hp => (huv hp).2.mp (hin.planeV hp)⟩
  · intro hnowrap
    have hwin : (q.image.dstX.toNat : ℤ) < q.crtc.hdisplay ∧
        (q.image.dstX.toNat + q.image.dstWidth.toNat : ℤ) ≤ q.crtc.hdisplay ∧
        (q.image.dstY.toNat : ℤ) < q.crtc.vdisplay ∧
        (q.image.dstY.toNat + q.image.dstHeight.toNat : ℤ) ≤ q.crtc.vdisplay := by
      by_contra hnot
      rw [checkOverlayDst, if_neg hnot] at hdst
      exact absurd hdst (by decide)
    exact ⟨hy.mpr hnowrap.planeY, fun hp => (huv hp).1.mpr (hnowrap.planeU hp),
      fun hp => (huv hp).2.mpr (hnowrap.planeV hp), hwin.2.1, hwin.2.2.2⟩

/-- What the checks come to where the request passes those of its destination and its source. -/
theorem checkImage_passes (hp : q.Passes) (hr : ¬ (q.pfit.active = true ∧ q.pfit.vscaleRatio = 0))
    (hsrc : checkOverlaySrc q.dev q.image q.size = .ok r) :
    checkImage q = (checkOverlayScaling (q.params r)).bind fun ret =>
      some (if ret ≠ 0 then .error ret else .ok (q.params r)) := by
  rw [checkImage, if_neg (not_not.mpr hp.dst), if_neg hr, if_neg (by rw [hp.scan]; decide), hsrc]
  rfl

/-- The scaling is checked of the request's own sizes. -/
theorem checkOverlayScaling_params (h : SrcChecked q.image r q.size) :
    checkOverlayScaling (q.params r) =
      (checkScale q.image.srcScanHeight q.dstH).bind fun ok =>
        if ok then (checkScale q.image.srcScanWidth q.image.dstWidth).bind fun ok =>
          if ok then some 0 else some eInval
        else some eInval := by
  obtain ⟨-, -, -, -, -, hw, hsh, hsw⟩ := h.fields
  rw [checkOverlayScaling]
  change (checkScale r.srcScanHeight q.dstH).bind _ = _
  rw [hsh, ← hsw, ← hw]
  rfl

/-- An accepted request meets the claim exactly where its extents do not wrap. -/
theorem putImageMeets_accepted (hp : q.Passes) (h : SrcChecked q.image r q.size)
    (haccepted : checkImage q = some (.ok (q.params r))) :
    PutImageMeets q gttOffset old regs ↔ q.NoWraps := by
  let programmed := programImage q.dev gttOffset (q.params r) regs
  obtain ⟨x, hx, hfields⟩ : ∃ x, updateScalingFactors old programmed (q.params r) = some x ∧ _ :=
    updateScalingFactors_spec h old
  have hregs : putImageRegs q gttOffset old regs = some (.ok x) := by
    rw [putImageRegs, haccepted]
    change (updateScalingFactors old programmed (q.params r)).bind _ = _
    rw [hx]
    rfl
  rw [← imageInside_iff hp.dst h hfields]
  constructor
  · intro hmeets
    obtain ⟨y, hy, hin⟩ := hmeets
    rw [hregs] at hy
    cases hy
    exact hin x rfl
  · intro hin
    refine ⟨.ok x, hregs, ?_⟩
    intro y hy
    cases hy
    exact hin

/-- The scaling of a request that has passed the other checks. -/
theorem putImage_meets_iff_of_passes (hp : q.Passes)
    (hratio : ¬ (q.pfit.active = true ∧ q.pfit.vscaleRatio = 0)) :
    PutImageMeets q gttOffset old regs ↔ PutImageSafe q := by
  have hratio' : checkOverlayDst q.crtc q.image = 0 → q.pfit.active = true →
      q.pfit.vscaleRatio ≠ 0 := fun _ hact hzero => hratio ⟨hact, hzero⟩
  obtain ⟨r, hsrc⟩ := hp.src
  have hcheck := checkOverlaySrc_spec hsrc
  have himage := checkImage_passes hp hratio hsrc
  rw [checkOverlayScaling_params hcheck] at himage
  -- The two scales are checked one after the other, each by a division.
  cases hheight : checkScale q.image.srcScanHeight q.dstH with
  | none =>
    rw [hheight] at himage
    exact iff_of_false (not_putImageMeets himage) fun h =>
      h.height hp (checkScale_none_iff.mp hheight)
  | some ok =>
    have hne : q.dstH ≠ 0 := ne_zero_of_checkScale hheight
    rw [hheight] at himage
    cases ok with
    | false =>
      refine iff_of_true (PutImageMeets.of_error himage) ⟨hratio', fun _ => hne, ?_, ?_⟩
      · intro _ h
        rw [hheight] at h
        cases h
      · intro _ h
        rw [hheight] at h
        cases h
    | true =>
      cases hwidth : checkScale q.image.srcScanWidth q.image.dstWidth with
      | none =>
        rw [hwidth] at himage
        exact iff_of_false (not_putImageMeets himage) fun h =>
          h.width hp hheight (checkScale_none_iff.mp hwidth)
      | some ok =>
        have hne' : q.image.dstWidth ≠ 0 := ne_zero_of_checkScale hwidth
        rw [hwidth] at himage
        cases ok with
        | false =>
          refine iff_of_true (PutImageMeets.of_error himage)
            ⟨hratio', fun _ => hne, fun _ _ => hne', ?_⟩
          intro _ _ h
          rw [hwidth] at h
          cases h
        | true =>
          rw [putImageMeets_accepted hp hcheck himage]
          constructor
          · intro hnowrap
            exact ⟨hratio', fun _ => hne, fun _ _ => hne', fun _ _ _ => hnowrap⟩
          · intro h
            exact h.extents hp hheight hwidth

/-- A put-image is all right exactly where the request is safe. -/
theorem putImage_meets_iff (q : ImageRequest) (gttOffset : BitVec 32) (old : OldScale)
    (regs : OverlayRegs) : PutImageMeets q gttOffset old regs ↔ PutImageSafe q := by
  by_cases hratio : checkOverlayDst q.crtc q.image = 0 ∧ q.pfit.active = true ∧
      q.pfit.vscaleRatio = 0
  · have hnone : checkImage q = none := by
      rw [checkImage, if_neg (not_not.mpr hratio.1), if_pos hratio.2]
    exact iff_of_false (not_putImageMeets hnone) fun h =>
      h.ratio hratio.1 hratio.2.1 hratio.2.2
  by_cases hp : q.Passes
  · exact putImage_meets_iff_of_passes hp fun h => hratio ⟨hp.dst, h⟩
  -- A request that does not pass is refused.
  have hsafe : PutImageSafe q := ⟨fun hdst hact hzero => hratio ⟨hdst, hact, hzero⟩,
    fun h => absurd h hp, fun h => absurd h hp, fun h => absurd h hp⟩
  refine iff_of_true ?_ hsafe
  by_cases hdst : checkOverlayDst q.crtc q.image = 0
  · have hratio' : ¬ (q.pfit.active = true ∧ q.pfit.vscaleRatio = 0) := fun h => hratio ⟨hdst, h⟩
    cases hscan : scanFits q.image with
    | false =>
      refine PutImageMeets.of_error (e := eInval) ?_
      rw [checkImage, if_neg (not_not.mpr hdst), if_neg hratio', hscan]
      rfl
    | true =>
      cases hsrc : checkOverlaySrc q.dev q.image q.size with
      | error e =>
        refine PutImageMeets.of_error (e := e) ?_
        rw [checkImage, if_neg (not_not.mpr hdst), if_neg hratio', hscan, hsrc]
        rfl
      | ok r => exact absurd ⟨hdst, hscan, r, hsrc⟩ hp
  · exact PutImageMeets.of_error (by rw [checkImage, if_pos hdst])

end Request

/-- A planar image of 64x32 in a buffer of one page. -/
def plainImage : PutImageRec :=
  { flags := 0x01000301, strideY := 64, strideUV := 64, offsetY := 0, offsetU := 2048
    offsetV := 3072, srcWidth := 64, srcHeight := 32, srcScanWidth := 64, srcScanHeight := 32
    dstX := 0, dstY := 0, dstWidth := 64, dstHeight := 32 }

def plainRequest (image : PutImageRec) : ImageRequest :=
  { image, dev := { gen := 3 }, regs := ⟨0, 0, 0⟩, crtc := ⟨0, 1024, 768⟩, moves := true
    left := ⟨false, 0⟩, size := 4096 }

/-- A width of zero is divided by, and an offset just below the end of the address space is
accepted. -/
theorem putImage_zero_width_and_wrap :
    ¬ PutImageMeets (plainRequest { plainImage with dstWidth := 0 }) 0 ⟨0, 0⟩ {} ∧
      ¬ PutImageMeets (plainRequest { plainImage with offsetY := 0xfffff800 }) 0 ⟨0, 0⟩ {} := by
  constructor
  · exact not_putImageMeets (by decide +kernel)
  · have hsrc : checkOverlaySrc { gen := 3 } { plainImage with offsetY := 0xfffff800 } 4096 =
        .ok { plainImage with offsetY := 0xfffff800 } := by decide +kernel
    have hp : (plainRequest { plainImage with offsetY := 0xfffff800 }).Passes :=
      ⟨by decide +kernel, by decide +kernel, _, hsrc⟩
    rw [putImageMeets_accepted hp (checkOverlaySrc_spec hsrc) (by decide +kernel)]
    intro h
    rcases h.planeY with hlt | hin
    · exact absurd hlt (by decide)
    · exact absurd hin (by decide)

end GfxDrm.Overlay
