import GfxDrm.Framebuffer.Plane
import GfxDrm.Rect.Scale

/-! The update of a sprite plane (intel_sprite.c). -/

namespace GfxDrm.Sprite
open CInt Rect Framebuffer

/-- drm_rect_calc_hscale. -/
def drmRectCalcHscale (src dst : DrmRect) (minHscale maxHscale : ℤ) : ℤ :=
  let hscale := drmCalcScale (drmRectWidth src) (drmRectWidth dst)
  if hscale < 0 ∨ drmRectWidth dst = 0 then hscale
  else if hscale < minHscale ∨ maxHscale < hscale then Errno.eRange
  else hscale

/-- drm_rect_calc_vscale. -/
def drmRectCalcVscale (src dst : DrmRect) (minVscale maxVscale : ℤ) : ℤ :=
  let vscale := drmCalcScale (drmRectHeight src) (drmRectHeight dst)
  if vscale < 0 ∨ drmRectHeight dst = 0 then vscale
  else if vscale < minVscale ∨ maxVscale < vscale then Errno.eRange
  else vscale

inductive Tiling where
  | none
  | x
  | y
  deriving DecidableEq, Repr

/-- intel_framebuffer, with the bytes of a pixel of its format. -/
structure IntelFramebuffer extends Framebuffer.DrmFramebuffer where
  pitch : UInt32
  cpp : ℕ
  obj : ℕ
  tiling : Tiling := .none
  deriving DecidableEq, Repr

/-- intel_crtc as far as its mode goes, and whether the pipe is running. -/
structure SpriteCrtc where
  pipe : ℕ
  hdisplay : ℤ
  vdisplay : ℤ
  running : Bool := true
  deriving DecidableEq, Repr

/-- The mode has pixels. -/
def SpriteCrtc.HasPixels (crtc : SpriteCrtc) : Prop := 0 < crtc.hdisplay ∧ 0 < crtc.vdisplay

/-- What is programmed. -/
structure SpriteWindow where
  crtcX : ℤ
  crtcY : ℤ
  crtcW : ℤ
  crtcH : ℤ
  srcX : ℤ
  srcY : ℤ
  srcW : ℤ
  srcH : ℤ
  deriving DecidableEq, Repr

/-- intel_plane, what it shows, and what the crtc has of its primary plane. -/
structure IntelPlane where
  pipe : ℕ
  canScale : Bool
  maxDownscale : ℤ
  saved : PlaneUpdate
  obj : Option ℕ := none
  shown : Option SpriteWindow := none
  primaryDisabled : Bool := false
  pins : ℕ → ℤ := fun _ => 0

def formatYuyv : UInt32 := 0x56595559
def formatUyvy : UInt32 := 0x59565955
def formatVyuy : UInt32 := 0x59555956
def formatYvyu : UInt32 := 0x55595659

def formatIsYuv (format : UInt32) : Bool :=
  format == formatYuyv || format == formatUyvy || format == formatVyuy || format == formatYvyu

/-- The source in 16.16 fixed point. -/
def sourceRect (u : PlaneUpdate) : DrmRect where
  x1 := i32 u.srcX.toNat
  y1 := i32 u.srcY.toNat
  x2 := i32 (u.srcX.toNat + u.srcW.toNat)
  y2 := i32 (u.srcY.toNat + u.srcH.toNat)

/-- The destination in pixels. -/
def destRect (u : PlaneUpdate) : DrmRect where
  x1 := u.crtcX.toInt
  y1 := u.crtcY.toInt
  x2 := i32 (u.crtcX.toInt + u.crtcW.toNat)
  y2 := i32 (u.crtcY.toInt + u.crtcH.toNat)

def clipRect (crtc : SpriteCrtc) : DrmRect := ⟨0, 0, crtc.hdisplay, crtc.vdisplay⟩

/-- The smallest factor, and the largest one. -/
def IntelPlane.minScale (p : IntelPlane) : ℤ := if p.canScale then 1 else 0x10000
def IntelPlane.maxScale (p : IntelPlane) : ℤ := i32 (p.maxDownscale * 0x10000)

/-- What is left of the rectangles once they are relaxed and clipped, and whether that is visible;
none where a BUG_ON is met. -/
def clipPlane (p : IntelPlane) (crtc : SpriteCrtc) (u : PlaneUpdate) :
    Option (DrmRect × DrmRect × Bool) :=
  let h := drmRectCalcHscaleRelaxed (sourceRect u) (destRect u) p.minScale p.maxScale
  let v := drmRectCalcVscaleRelaxed h.2.1 h.2.2 p.minScale p.maxScale
  if h.1 < 0 ∨ v.1 < 0 then none
  else some (drmRectClipScaled v.2.1 v.2.2 (clipRect crtc) h.1 v.1)

/-- `&= ~1` of an unsigned number. -/
def evenDown (x : ℤ) : ℤ := x - x % 2

/-- The window of visible rectangles. -/
def adjustWindow (p : IntelPlane) (yuv : Bool) (src dst : DrmRect) :
    Except ℤ (SpriteWindow × Bool) :=
  let hscale := drmRectCalcHscale src dst p.minScale p.maxScale
  let vscale := drmRectCalcVscale src dst p.minScale p.maxScale
  if hscale < 0 then .error hscale
  else if vscale < 0 then .error vscale
  else
    let src := drmRectAdjustSize src (i32 (i32 (drmRectWidth dst * hscale) - drmRectWidth src))
      (i32 (i32 (drmRectHeight dst * vscale) - drmRectHeight src))
    let w : SpriteWindow :=
      { crtcX := dst.x1
        crtcY := dst.y1
        crtcW := u32 (drmRectWidth dst)
        crtcH := u32 (drmRectHeight dst)
        srcX := u32 (src.x1 / 0x10000)
        srcY := u32 (src.y1 / 0x10000)
        srcW := u32 (drmRectWidth src / 0x10000)
        srcH := u32 (drmRectHeight src / 0x10000) }
    if yuv then
      let w := { w with
        srcX := evenDown w.srcX
        srcW := evenDown w.srcW
        crtcW := if p.canScale then w.crtcW else evenDown w.crtcW }
      .ok (w, decide (w.crtcW ≠ 0))
    else .ok (w, true)

/-- The source is scaled. -/
def SpriteWindow.Scaled (w : SpriteWindow) : Prop := w.srcW ≠ w.crtcW ∨ w.srcH ≠ w.crtcH

/-- A size is too small for scaling. -/
def SpriteWindow.Small (w : SpriteWindow) : Prop :=
  w.crtcW < 3 ∨ w.crtcH < 3 ∨ w.srcW < 3 ∨ w.srcH < 3

instance (w : SpriteWindow) : Decidable w.Scaled := inferInstanceAs (Decidable (_ ∨ _))

instance (w : SpriteWindow) : Decidable w.Small := inferInstanceAs (Decidable (_ ∨ _))

/-- The size restrictions when scaling. -/
def checkScaled (fb : IntelFramebuffer) (w : SpriteWindow) : Except ℤ Bool :=
  let widthBytes := u32 (u32 (w.srcX * fb.cpp) % 64 + w.srcW * fb.cpp)
  if 2048 < w.srcW ∨ 2048 < w.srcH ∨ 4096 < widthBytes ∨ 4096 < fb.pitch.toNat then
    .error Errno.eInval
  else .ok (decide ¬ w.Small)

/-- The window and whether it is visible. -/
def fitWindow (p : IntelPlane) (fb : IntelFramebuffer) (u : PlaneUpdate) (src dst : DrmRect)
    (visible : Bool) : Except ℤ (SpriteWindow × Bool) :=
  if visible then do
    let (w, visible) ← adjustWindow p (formatIsYuv fb.pixelFormat) src dst
    if visible ∧ w.Scaled then return (w, ← checkScaled fb w)
    else return (w, visible)
  else
    .ok ({ crtcX := dst.x1
           crtcY := dst.y1
           crtcW := u32 (drmRectWidth dst)
           crtcH := u32 (drmRectHeight dst)
           srcX := u.srcX.toNat
           srcY := u.srcY.toNat
           srcW := u.srcW.toNat
           srcH := u.srcH.toNat }, false)

/-- The destination that the primary plane is compared with. -/
def SpriteWindow.dst (w : SpriteWindow) : DrmRect :=
  ⟨w.crtcX, w.crtcY, i32 (w.crtcX + w.crtcW), i32 (w.crtcY + w.crtcH)⟩

/-- The update once the framebuffer is pinned. -/
def IntelPlane.program (p : IntelPlane) (crtc : SpriteCrtc) (obj : ℕ) (w : SpriteWindow)
    (visible : Bool) : IntelPlane :=
  let pinned := Function.update p.pins obj (p.pins obj + 1)
  { p with
    obj := some obj
    shown := if visible then some w else none
    primaryDisabled := decide (w.dst = clipRect crtc)
    pins :=
      match p.obj with
      | some old => Function.update pinned old (pinned old - 1)
      | none => pinned }

/-- The tests that come before the rectangles. -/
def suitable (p : IntelPlane) (crtc : SpriteCrtc) (fb : IntelFramebuffer) : Bool :=
  crtc.running && decide (p.pipe = crtc.pipe) &&
    !(decide (fb.width.toNat < 3) || decide (fb.height.toNat < 3) ||
      decide (16384 < fb.pitch.toNat)) && decide (fb.tiling ≠ .y)

/-- intel_update_plane, where intel_pin_and_fence_fb_obj returns `pin`; none where a BUG_ON is
met. -/
def intelUpdatePlane (p : IntelPlane) (crtc : SpriteCrtc) (fb : IntelFramebuffer)
    (u : PlaneUpdate) (pin : ℤ) : Option (ℤ × IntelPlane) :=
  let p := { p with saved := u }
  if !suitable p crtc fb then some (Errno.eInval, p)
  else do
    let (src, dst, visible) ← clipPlane p crtc u
    match fitWindow p fb u src dst visible with
    | .error ret => some (ret, p)
    | .ok (w, visible) =>
      some (if pin ≠ 0 then (pin, p) else (0, p.program crtc fb.obj w visible))

/-! ### The factors -/

section Relax
variable {src dst : DrmRect} {minScale maxScale : ℤ}

/-- A source and a destination that were shrunk so that the destination, times the factor, is no
wider than the source. -/
structure Fitted (src dst src' dst' : DrmRect) (scale : ℤ) : Prop where
  src : Shrunk src src'
  dst : Shrunk dst dst'
  nonneg : 0 ≤ scale
  pos : 0 < width dst' → 0 < scale
  small : scale < 0x80000000
  dst_nonneg : 0 ≤ width dst'
  fits : width dst' * scale ≤ width src'

theorem shrunk_isInts {a b : DrmRect} (h : Shrunk a b) (ha : a.IsInts) (hw : 0 ≤ width b) :
    b.IsInts := by
  obtain ⟨⟨hx1, hx1'⟩, ⟨hy1, hy1'⟩, ⟨hx2, hx2'⟩, ⟨hy2, hy2'⟩⟩ := ha
  have hl := h.left
  have hr := h.right
  have ht := h.y1
  have hb := h.y2
  unfold width at hw
  constructor <;> constructor <;> omega

theorem Fitted.src_nonneg {src' dst' : DrmRect} {scale : ℤ} (h : Fitted src dst src' dst' scale) :
    0 ≤ width src' :=
  (Int.mul_nonneg h.dst_nonneg h.nonneg).trans h.fits

/-- A width that `int` holds, and that is not negative. -/
def Wide (r : DrmRect) : Prop := 0 ≤ width r ∧ width r < 0x80000000

theorem Wide.drmRectWidth_eq {r : DrmRect} (h : Wide r) : drmRectWidth r = width r :=
  i32_of_range (by have := h.1; change _ ≤ width r; omega) h.2

theorem Wide.of_eq {r r' : DrmRect} (h : Wide r) (heq : width r' = width r) : Wide r' := by
  rw [Wide, heq]
  exact h

theorem Wide.isInt {r : DrmRect} (h : Wide r) : IsInt (width r) :=
  ⟨by have := h.1; omega, h.2⟩

theorem hscale_relaxed_fitted (hsrc : src.IsInts) (hdst : dst.IsInts) (hs : Wide src)
    (hd : Wide dst) (hmin : 0 < minScale) (hle : minScale ≤ maxScale)
    (hmax : maxScale < 0x80000000) :
    Fitted src dst (drmRectCalcHscaleRelaxed src dst minScale maxScale).2.1
      (drmRectCalcHscaleRelaxed src dst minScale maxScale).2.2
      (drmRectCalcHscaleRelaxed src dst minScale maxScale).1 := by
  by_cases hzero : width dst = 0
  · -- An empty destination is left alone, with factor 0.
    have heq : drmRectCalcHscaleRelaxed src dst minScale maxScale = (0, src, dst) := by
      have hscale : drmCalcScale (width src) 0 = 0 := by
        rw [drmCalcScale, if_neg (by have := hs.1; omega), if_pos rfl]
      unfold drmRectCalcHscaleRelaxed
      simp only [hd.drmRectWidth_eq, hs.drmRectWidth_eq, hzero, hscale, or_true, if_true]
    rw [heq]
    refine ⟨.refl src, .refl dst, le_rfl, ?_, ?_, hd.1, ?_⟩
    · intro h
      exact absurd hzero (ne_of_gt h)
    · exact Int.ofNat_lt.mpr (show 0 < 0x80000000 by decide)
    · rw [mul_zero]
      exact hs.1
  have hpos : 0 < width dst := lt_of_le_of_ne hd.1 (Ne.symm hzero)
  rw [drmRectCalcHscaleRelaxed_eq hs.1 hpos hs.drmRectWidth_eq hd.drmRectWidth_eq]
  by_cases hlow : width src / width dst < minScale
  · rw [if_pos hlow, Int.tdiv_eq_ediv_of_nonneg hs.1]
    have hq0 : 0 ≤ width src / minScale := Int.ediv_nonneg hs.1 hmin.le
    obtain ⟨hshrunk, hwidth⟩ := shrunk_adjust hdst hd.isInt hq0 (quotient_le hmin hpos hlow)
    refine ⟨.refl src, hshrunk, hmin.le, fun _ => hmin, by omega, ?_, ?_⟩
    · rw [hwidth]
      exact hq0
    · rw [hwidth]
      exact Int.ediv_mul_le _ hmin.ne'
  rw [if_neg hlow]
  by_cases hhigh : maxScale < width src / width dst
  · rw [if_pos hhigh]
    have hprod : width dst * maxScale ≤ width src := by
      rw [mul_comm]
      exact (Int.le_ediv_iff_mul_le hpos).mp hhigh.le
    have hprod0 : 0 ≤ width dst * maxScale := Int.mul_nonneg hd.1 (by omega)
    rw [@i32_of_range (width dst * maxScale) (by omega) (by have := hs.2; omega)]
    obtain ⟨hshrunk, hwidth⟩ := shrunk_adjust hsrc hs.isInt hprod0 hprod
    refine ⟨hshrunk, .refl dst, by omega, fun _ => by omega, hmax, hd.1, ?_⟩
    rw [hwidth]
  · rw [if_neg hhigh]
    have hfloor : width dst * (width src / width dst) ≤ width src := Int.mul_ediv_self_le hzero
    exact ⟨.refl src, .refl dst, by omega, fun _ => by omega, by omega, hd.1, hfloor⟩

/-- What one direction of the clipping leaves where it is visible: the source moves by as much as
the destination, times the factor. -/
theorem clip_fits {a b lo hi size k : ℤ} (ha : 0 ≤ a) (hb : b < 0x80000000) (hhi : IsInt hi)
    (hwidth : hi - lo < 0x80000000) (hsize : 0 ≤ size ∧ size < 0x80000000)
    (hk : 0 < k ∧ k < 0x80000000) (hfits : (hi - lo) * k ≤ b - a)
    (hvisible : max lo 0 < min hi size) :
    a ≤ clipLow a (i32 (0 - lo)) k ∧ clipHigh b (i32 (hi - size)) k ≤ b ∧
      (min hi size - max lo 0) * k ≤
        clipHigh b (i32 (hi - size)) k - clipLow a (i32 (0 - lo)) k := by
  obtain ⟨left, hl⟩ : ∃ l, l = max 0 (0 - lo) := ⟨_, rfl⟩
  obtain ⟨right, hr⟩ : ∃ r, r = max 0 (hi - size) := ⟨_, rfl⟩
  have hleft : 0 ≤ left * k := Int.mul_nonneg (by omega) hk.1.le
  have hright : 0 ≤ right * k := Int.mul_nonneg (by omega) hk.1.le
  have hkept : 0 < (min hi size - max lo 0) * k := Int.mul_pos (by omega) hk.1
  have hsum : (min hi size - max lo 0) * k + left * k + right * k = (hi - lo) * k := by
    rw [← Int.add_mul, ← Int.add_mul]
    congr 1
    omega
  have hk' : IsInt k := ⟨by omega, hk.2⟩
  have ha' : IsInt a := ⟨by omega, by omega⟩
  have hb' : IsInt b := ⟨by omega, hb⟩
  have hlow : IsInt (a + left * k) := ⟨by omega, by omega⟩
  have hhigh : IsInt (b - right * k) := ⟨by omega, by omega⟩
  rw [clipLow_eq ha' ⟨by omega, by omega⟩ hk.1 hk', clipHigh_eq hb' ⟨by omega, by omega⟩ hk.1 hk',
    ← hl, ← hr, clampInt64_of_isInt hlow, clampInt64_of_isInt hhigh]
  omega

end Relax

/-! ### The rectangles -/

/-- What the driver is called with: a source below 8192.0, a destination within the coordinates, and
scaling limits as intel_plane_init sets them. -/
structure Asked (p : IntelPlane) (crtc : SpriteCrtc) (u : PlaneUpdate) : Prop where
  srcX : u.srcX.toNat + u.srcW.toNat ≤ 0x20000000
  srcY : u.srcY.toNat + u.srcH.toNat ≤ 0x20000000
  dst : u.DestinationFits
  crtcW : u.crtcW.toNat ≤ 0x7fffffff
  crtcH : u.crtcH.toNat ≤ 0x7fffffff
  downscale : 1 ≤ p.maxDownscale ∧ p.maxDownscale < 0x8000
  hdisplay : 0 ≤ crtc.hdisplay ∧ crtc.hdisplay < 0x80000000
  vdisplay : 0 ≤ crtc.vdisplay ∧ crtc.vdisplay < 0x80000000

/-- One direction of the rectangles before they are clipped: the source lies in `lo` to `hi`, and is
as wide as the destination, times the factor. -/
structure Aligned (src dst : DrmRect) (lo hi scale : ℤ) : Prop where
  left : lo ≤ src.x1
  right : src.x2 ≤ hi
  dst_x1 : IsInt dst.x1
  dst_x2 : IsInt dst.x2
  dst_wide : Wide dst
  nonneg : 0 ≤ scale
  pos : 0 < width dst → 0 < scale
  small : scale < 0x80000000
  fits : width dst * scale ≤ width src

/-- One direction of what is visible: the source lies in `lo` to `hi`, the destination in `size`. -/
structure Placed (src dst : DrmRect) (lo hi size : ℤ) : Prop where
  left : lo ≤ src.x1
  right : src.x2 ≤ hi
  src_wide : 0 ≤ width src
  dst_left : 0 ≤ dst.x1
  dst_right : dst.x2 ≤ size
  dst_pos : 0 < width dst

section Rects
variable {p : IntelPlane} {crtc : SpriteCrtc} {u : PlaneUpdate}

theorem IntelPlane.scales (h : Asked p crtc u) : 0 < p.minScale ∧ p.minScale ≤ p.maxScale ∧
    p.maxScale < 0x80000000 := by
  have hd := h.downscale
  have hmax : p.maxScale = p.maxDownscale * 0x10000 := i32_of_range (by omega) (by omega)
  have hmin : p.minScale = 1 ∨ p.minScale = 0x10000 := by
    unfold IntelPlane.minScale
    split
    · exact Or.inl rfl
    · exact Or.inr rfl
  omega

theorem sourceRect_eq (h : Asked p crtc u) : sourceRect u =
    ⟨u.srcX.toNat, u.srcY.toNat, u.srcX.toNat + u.srcW.toNat, u.srcY.toNat + u.srcH.toNat⟩ := by
  have hx := h.srcX
  have hy := h.srcY
  rw [sourceRect, i32_of_range (by omega) (by omega), i32_of_range (by omega) (by omega),
    i32_of_range (by omega) (by omega), i32_of_range (by omega) (by omega)]

theorem destRect_eq (h : Asked p crtc u) : destRect u =
    ⟨u.crtcX.toInt, u.crtcY.toInt, u.crtcX.toInt + u.crtcW.toNat,
      u.crtcY.toInt + u.crtcH.toNat⟩ := by
  have hx := h.dst.right
  have hy := h.dst.bottom
  have hx0 := u.crtcX.le_toInt
  have hy0 := u.crtcY.le_toInt
  rw [destRect, i32_of_range (by omega) (by omega), i32_of_range (by omega) (by omega)]

theorem sourceRect_isInts (h : Asked p crtc u) : (sourceRect u).IsInts := by
  have hx := h.srcX
  have hy := h.srcY
  rw [sourceRect_eq h]
  constructor <;> constructor <;> dsimp only <;> omega

theorem destRect_isInts (h : Asked p crtc u) : (destRect u).IsInts := by
  have hx := h.dst.right
  have hy := h.dst.bottom
  have hx0 := u.crtcX.le_toInt
  have hy0 := u.crtcY.le_toInt
  rw [destRect_eq h]
  constructor <;> constructor <;> dsimp only <;> omega

theorem wide_sourceRect (h : Asked p crtc u) : Wide (sourceRect u) ∧ Wide (sourceRect u).swap := by
  have hx := h.srcX
  have hy := h.srcY
  rw [sourceRect_eq h]
  constructor <;> constructor <;> simp only [width, DrmRect.swap] <;> omega

theorem wide_destRect (h : Asked p crtc u) : Wide (destRect u) ∧ Wide (destRect u).swap := by
  have hw := h.crtcW
  have hh := h.crtcH
  rw [destRect_eq h]
  constructor <;> constructor <;> simp only [width, DrmRect.swap] <;> omega

/-- Both directions, once the vertical factor has been found with the axes exchanged. -/
theorem Fitted.aligned {src dst src' dst' src'' dst'' : DrmRect} {hscale vscale lo hi lo' hi' : ℤ}
    (hx : Fitted src dst src' dst' hscale)
    (hy : Fitted src'.swap dst'.swap src''.swap dst''.swap vscale) (hdst : dst.IsInts)
    (hdx : Wide dst) (hdy : Wide dst.swap) (hlo : lo ≤ src.x1) (hhi : src.x2 ≤ hi)
    (hlo' : lo' ≤ src.y1) (hhi' : src.y2 ≤ hi') :
    Aligned src'' dst'' lo hi hscale ∧ Aligned src''.swap dst''.swap lo' hi' vscale := by
  have hdst' := shrunk_isInts hx.dst hdst hx.dst_nonneg
  have hdst'' := shrunk_isInts hy.dst hdst'.swap hy.dst_nonneg
  obtain ⟨hsy1, hsy2, hsl, hsr, -⟩ := hx.src
  obtain ⟨hdy1, hdy2, hdl, hdr, -⟩ := hx.dst
  obtain ⟨hsx1, hsx2, hst, hsb, -⟩ := hy.src
  obtain ⟨hdx1, hdx2, hdt, hdb, -⟩ := hy.dst
  have hnonneg := hx.dst_nonneg
  have hnonneg' := hy.dst_nonneg
  have hsrc : width src'' = width src' := congrArg₂ _ hsx2 hsx1
  have hwidth : width dst'' = width dst' := congrArg₂ _ hdx2 hdx1
  have hheight : width dst'.swap = width dst.swap := congrArg₂ _ hdy2 hdy1
  have hsx := hx.dst.width_le
  have hsy := hy.dst.width_le
  have hw := hdx.2
  have hh := hdy.2
  dsimp only [DrmRect.swap] at hsx1 hsx2 hst hsb
  constructor
  · refine ⟨by omega, by omega, hdst''.y1, hdst''.y2, ⟨by omega, by omega⟩, hx.nonneg, ?_, hx.small,
      ?_⟩
    · rw [hwidth]
      exact hx.pos
    · rw [hwidth, hsrc]
      exact hx.fits
  · exact ⟨by dsimp only [DrmRect.swap]; omega, by dsimp only [DrmRect.swap]; omega, hdst''.x1,
      hdst''.x2, ⟨hnonneg', by omega⟩, hy.nonneg, hy.pos, hy.small, hy.fits⟩

/-- The rectangles before they are clipped, one direction after the other. -/
theorem relaxed_aligned (h : Asked p crtc u) {r s : ℤ × DrmRect × DrmRect}
    (hr : r = drmRectCalcHscaleRelaxed (sourceRect u) (destRect u) p.minScale p.maxScale)
    (hs : s = drmRectCalcVscaleRelaxed r.2.1 r.2.2 p.minScale p.maxScale) :
    Aligned s.2.1 s.2.2 u.srcX.toNat (u.srcX.toNat + u.srcW.toNat) r.1 ∧
      Aligned s.2.1.swap s.2.2.swap u.srcY.toNat (u.srcY.toNat + u.srcH.toNat) s.1 := by
  obtain ⟨hmin, hle, hmax⟩ := p.scales h
  have hsrc := sourceRect_isInts h
  have hdst := destRect_isInts h
  obtain ⟨hsx, hsy⟩ := wide_sourceRect h
  obtain ⟨hdx, hdy⟩ := wide_destRect h
  have hx := hscale_relaxed_fitted hsrc hdst hsx hdx hmin hle hmax
  rw [← hr] at hx
  have hsrc' : r.2.1.IsInts := shrunk_isInts hx.src hsrc hx.src_nonneg
  have hdst' : r.2.2.IsInts := shrunk_isInts hx.dst hdst hx.dst_nonneg
  -- The heights are still what they were.
  have hsh : width r.2.1.swap = width (sourceRect u).swap := congrArg₂ _ hx.src.y2 hx.src.y1
  have hdh : width r.2.2.swap = width (destRect u).swap := congrArg₂ _ hx.dst.y2 hx.dst.y1
  have hy := hscale_relaxed_fitted hsrc'.swap hdst'.swap (hsy.of_eq hsh) (hdy.of_eq hdh) hmin hle
    hmax
  rw [drmRectCalcVscaleRelaxed_swap, ← hs] at hy
  have heq := sourceRect_eq h
  refine hx.aligned hy hdst hdx hdy ?_ ?_ ?_ ?_ <;> rw [heq]

/-- One direction of the clipping. -/
theorem Aligned.placed {src dst clip : DrmRect} {lo hi hscale vscale : ℤ}
    (h : Aligned src dst lo hi hscale) (hlo : 0 ≤ lo) (hhi : hi < 0x80000000)
    (hclip : clip.x1 = 0) (hsize : 0 ≤ clip.x2 ∧ clip.x2 < 0x80000000)
    (hvisible : 0 < width (intersection dst clip)) :
    Placed (drmRectClipScaled src dst clip hscale vscale).1 (intersection dst clip) lo hi
      clip.x2 := by
  have hwide := h.dst_wide.2
  have hleft := h.left
  have hright := h.right
  have hfits := h.fits
  simp only [width, intersection, hclip] at hwide hvisible hfits
  have hk : 0 < hscale := h.pos (show 0 < dst.x2 - dst.x1 by omega)
  obtain ⟨hl, hr, hkept⟩ := clip_fits (hlo.trans hleft) (hright.trans_lt hhi) h.dst_x2 hwide hsize
    ⟨hk, h.small⟩ hfits (by omega)
  have hprod : 0 ≤ (min dst.x2 clip.x2 - max dst.x1 0) * hscale :=
    Int.mul_nonneg hvisible.le hk.le
  constructor
  · simp only [drmRectClipScaled, hclip]
    exact hleft.trans hl
  · exact hr.trans hright
  · simp only [width, drmRectClipScaled, hclip]
    omega
  · simp only [intersection]
    omega
  · simp only [intersection]
    omega
  · simp only [intersection, hclip]
    exact hvisible

/-- The width of what the clipping leaves of the destination is an int. -/
theorem Aligned.clipped_isInt {src dst clip : DrmRect} {lo hi hscale : ℤ}
    (h : Aligned src dst lo hi hscale) (hclip : clip.x1 = 0)
    (hsize : 0 ≤ clip.x2 ∧ clip.x2 < 0x80000000) : IsInt (width (intersection dst clip)) := by
  obtain ⟨hx1, hx1'⟩ := h.dst_x1
  have hwide := h.dst_wide.1
  simp only [width, intersection] at hwide ⊢
  constructor <;> omega

theorem swap_intersection (r1 r2 : DrmRect) :
    (intersection r1 r2).swap = intersection r1.swap r2.swap := rfl

theorem swap_clipScaled (src dst clip : DrmRect) (hscale vscale : ℤ) :
    (drmRectClipScaled src dst clip hscale vscale).1.swap =
      (drmRectClipScaled src.swap dst.swap clip.swap vscale hscale).1 := rfl

/-- No BUG_ON is met; what is visible lies where it was asked for, and what is not does not cover
the crtc. -/
theorem clipPlane_spec (h : Asked p crtc u) : ∃ src dst visible,
    clipPlane p crtc u = some (src, dst, visible) ∧
      (visible = true → Placed src dst u.srcX.toNat (u.srcX.toNat + u.srcW.toNat) crtc.hdisplay ∧
        Placed src.swap dst.swap u.srcY.toNat (u.srcY.toNat + u.srcH.toNat) crtc.vdisplay) ∧
      (visible = false → crtc.HasPixels → dst ≠ clipRect crtc) ∧ dst.IsInts := by
  obtain ⟨r, hr⟩ : ∃ r, r = drmRectCalcHscaleRelaxed (sourceRect u) (destRect u) p.minScale
    p.maxScale := ⟨_, rfl⟩
  obtain ⟨s, hs⟩ : ∃ s, s = drmRectCalcVscaleRelaxed r.2.1 r.2.2 p.minScale p.maxScale := ⟨_, rfl⟩
  obtain ⟨hx, hy⟩ := relaxed_aligned h hr hs
  have hsx := h.srcX
  have hsy := h.srcY
  obtain ⟨hh, hh'⟩ := h.hdisplay
  obtain ⟨hv, hv'⟩ := h.vdisplay
  have hwide : 0 ≤ (clipRect crtc).x2 ∧ (clipRect crtc).x2 < 0x80000000 :=
    ⟨hh, hh'⟩
  have hhigh : 0 ≤ (clipRect crtc).swap.x2 ∧ (clipRect crtc).swap.x2 < 0x80000000 :=
    ⟨hv, hv'⟩
  have hwidth : IsInt (width (intersection s.2.2 (clipRect crtc))) := hx.clipped_isInt rfl hwide
  have hheight : IsInt (width (intersection s.2.2 (clipRect crtc)).swap) := by
    rw [swap_intersection]
    exact hy.clipped_isInt rfl hhigh
  have hvisible : drmRectVisible (intersection s.2.2 (clipRect crtc)) = true ↔
      0 < width (intersection s.2.2 (clipRect crtc)) ∧
        0 < width (intersection s.2.2 (clipRect crtc)).swap := by
    have hdecide : drmRectVisible (intersection s.2.2 (clipRect crtc)) = true ↔
        0 < i32 (width (intersection s.2.2 (clipRect crtc))) ∧
          0 < i32 (width (intersection s.2.2 (clipRect crtc)).swap) := decide_eq_true_iff
    rw [hwidth.i32_eq, hheight.i32_eq] at hdecide
    exact hdecide
  refine ⟨(drmRectClipScaled s.2.1 s.2.2 (clipRect crtc) r.1 s.1).1,
    intersection s.2.2 (clipRect crtc), drmRectVisible (intersection s.2.2 (clipRect crtc)), ?_, ?_,
    ?_, ?_⟩
  · have hxk := hx.nonneg
    have hyk := hy.nonneg
    simp only [clipPlane, ← hr, ← hs]
    rw [if_neg (by omega)]
    rfl
  · intro htrue
    obtain ⟨hpos, hpos'⟩ := hvisible.mp htrue
    refine ⟨hx.placed (by omega) (by omega) rfl hwide hpos, ?_⟩
    rw [swap_clipScaled]
    exact hy.placed (by omega) (by omega) rfl hhigh hpos'
  · intro hfalse hmode heq
    rw [heq] at hvisible hfalse
    have hcover : 0 < crtc.hdisplay - 0 ∧ 0 < crtc.vdisplay - 0 := by
      rw [sub_zero, sub_zero]
      exact hmode
    exact absurd (hfalse.symm.trans (hvisible.mpr hcover)) Bool.false_ne_true
  · obtain ⟨hx1, hx1'⟩ := hx.dst_x1
    obtain ⟨hx2, hx2'⟩ := hx.dst_x2
    obtain ⟨hy1, hy1'⟩ := hy.dst_x1
    obtain ⟨hy2, hy2'⟩ := hy.dst_x2
    dsimp only [DrmRect.swap] at hy1 hy1' hy2 hy2'
    constructor <;> constructor <;> dsimp only [intersection, clipRect] <;> omega

end Rects

/-! ### The window -/

section Window
variable {p : IntelPlane} {crtc : SpriteCrtc} {u : PlaneUpdate}

/-- The pixels of a window lie in the source that was asked for, but for the first ones, which may
lie in it only in part: a pixel, or a pair of them where the format has pairs. -/
structure InSource (w : SpriteWindow) (yuv : Bool) (lo hi lo' hi' : ℤ) : Prop where
  left : (if yuv then evenDown (lo / 0x10000) else lo / 0x10000) ≤ w.srcX
  top : lo' / 0x10000 ≤ w.srcY
  srcW : 0 ≤ w.srcW
  srcH : 0 ≤ w.srcH
  right : (w.srcX + w.srcW) * 0x10000 ≤ hi
  bottom : (w.srcY + w.srcH) * 0x10000 ≤ hi'

structure InCrtc (w : SpriteWindow) (crtc : SpriteCrtc) : Prop where
  left : 0 ≤ w.crtcX
  top : 0 ≤ w.crtcY
  crtcW : 0 ≤ w.crtcW
  crtcH : 0 ≤ w.crtcH
  right : w.crtcX + w.crtcW ≤ crtc.hdisplay
  bottom : w.crtcY + w.crtcH ≤ crtc.vdisplay

variable {src dst : DrmRect}

/-- The factor that is found again is that of the rectangles, or an error. -/
theorem Placed.hscale_eq {lo hi size minScale maxScale : ℤ} (h : Placed src dst lo hi size)
    (hs : Wide src) (hd : Wide dst) (hok : ¬ drmRectCalcHscale src dst minScale maxScale < 0) :
    drmRectCalcHscale src dst minScale maxScale = width src / width dst := by
  have hpos := h.dst_pos
  have hquot : 0 ≤ width src / width dst := Int.ediv_nonneg hs.1 hpos.le
  unfold drmRectCalcHscale at hok ⊢
  rw [hs.drmRectWidth_eq, hd.drmRectWidth_eq, drmCalcScale_of_pos hs.1 hpos] at hok ⊢
  rw [if_neg (by omega)] at hok ⊢
  split at hok
  · exact absurd (show Errno.eRange < 0 by decide) hok
  · rename_i hlimits
    rw [if_neg hlimits]

/-- One direction of the source once it is a multiple of the factor. -/
theorem Placed.adjusted {lo hi size minScale maxScale : ℤ} (h : Placed src dst lo hi size)
    (hints : src.IsInts) (hs : Wide src) (hd : Wide dst)
    (hok : ¬ drmRectCalcHscale src dst minScale maxScale < 0) {dw : ℤ} (dh : ℤ)
    (hdw : dw = i32 (i32 (drmRectWidth dst * drmRectCalcHscale src dst minScale maxScale) -
      drmRectWidth src)) :
    lo ≤ (drmRectAdjustSize src dw dh).x1 ∧ (drmRectAdjustSize src dw dh).x2 ≤ hi ∧
      (drmRectAdjustSize src dw dh).x1 ≤ (drmRectAdjustSize src dw dh).x2 := by
  have hfloor : width dst * (width src / width dst) ≤ width src :=
    Int.mul_ediv_self_le h.dst_pos.ne'
  have hnonneg : 0 ≤ width dst * (width src / width dst) :=
    Int.mul_nonneg hd.1 (Int.ediv_nonneg hs.1 hd.1)
  have hlt := hs.2
  have hprod : i32 (width dst * (width src / width dst)) = width dst * (width src / width dst) :=
    i32_of_range (by omega) (by omega)
  rw [h.hscale_eq hs hd hok, hs.drmRectWidth_eq, hd.drmRectWidth_eq, hprod] at hdw
  obtain ⟨hshrunk, hwidth⟩ := shrunk_adjust hints hs.isInt hnonneg hfloor
  rw [← hdw] at hshrunk hwidth
  have hl : src.x1 ≤ (drmRectAdjustSize src dw dh).x1 := hshrunk.left
  have hr : (drmRectAdjustSize src dw dh).x2 ≤ src.x2 := hshrunk.right
  have hw : 0 ≤ (drmRectAdjustSize src dw dh).x2 - (drmRectAdjustSize src dw dh).x1 :=
    hnonneg.trans_eq hwidth.symm
  exact ⟨h.left.trans hl, hr.trans h.right, by omega⟩

/-- Whole pixels of a length of them. -/
theorem pixels_fit {lo hi a b : ℤ} (hlo : 0 ≤ lo) (hhi : hi < 0x80000000) (ha : lo ≤ a)
    (hab : a ≤ b) (hb : b ≤ hi) :
    u32 (a / 0x10000) = a / 0x10000 ∧ u32 (i32 (b - a) / 0x10000) = (b - a) / 0x10000 ∧
      lo / 0x10000 ≤ a / 0x10000 ∧ 0 ≤ (b - a) / 0x10000 ∧
      (a / 0x10000 + (b - a) / 0x10000) * 0x10000 ≤ hi := by
  have hdiff : i32 (b - a) = b - a := i32_of_range (by omega) (by omega)
  rw [hdiff]
  refine ⟨u32_of_range (by omega) (by omega), u32_of_range (by omega) (by omega), by omega,
    by omega, by omega⟩

theorem evenDown_le {x : ℤ} (h : 0 ≤ x) : 0 ≤ evenDown x ∧ evenDown x ≤ x := by
  unfold evenDown
  omega

theorem evenDown_mono {x y : ℤ} (h : x ≤ y) : evenDown x ≤ evenDown y := by
  unfold evenDown
  omega

/-- The pairs of pixels of a window. -/
theorem InSource.even {w : SpriteWindow} {lo hi lo' hi' : ℤ} (h : InSource w false lo hi lo' hi')
    (hlo : 0 ≤ lo) (c : ℤ) :
    InSource { w with srcX := evenDown w.srcX, srcW := evenDown w.srcW, crtcW := c } true lo hi lo'
      hi' := by
  have hx : lo / 0x10000 ≤ w.srcX := h.left
  have hr := h.right
  have hw := evenDown_le h.srcW
  have hx' : evenDown w.srcX ≤ w.srcX := (evenDown_le (by omega)).2
  refine ⟨?_, h.top, hw.1, h.srcH, ?_, h.bottom⟩
  · exact evenDown_mono hx
  · dsimp only
    omega

theorem InCrtc.narrow {w w' : SpriteWindow} (h : InCrtc w crtc) (hx : w'.crtcX = w.crtcX)
    (hy : w'.crtcY = w.crtcY) (hh : w'.crtcH = w.crtcH)
    (hw : 0 ≤ w'.crtcW ∧ w'.crtcW ≤ w.crtcW) : InCrtc w' crtc := by
  obtain ⟨hl, ht, hcw, hch, hr, hb⟩ := h
  constructor <;> omega

/-- The window of adjusted rectangles lies in the source and in the crtc. -/
theorem window_spec (h : Asked p crtc u) {src dst r : DrmRect}
    (hx : Placed src dst u.srcX.toNat (u.srcX.toNat + u.srcW.toNat) crtc.hdisplay)
    (hy : Placed src.swap dst.swap u.srcY.toNat (u.srcY.toNat + u.srcH.toNat) crtc.vdisplay)
    (hhscale : ¬ drmRectCalcHscale src dst p.minScale p.maxScale < 0)
    (hvscale : ¬ drmRectCalcVscale src dst p.minScale p.maxScale < 0)
    (hr : r = drmRectAdjustSize src
      (i32 (i32 (drmRectWidth dst * drmRectCalcHscale src dst p.minScale p.maxScale) -
        drmRectWidth src))
      (i32 (i32 (drmRectHeight dst * drmRectCalcVscale src dst p.minScale p.maxScale) -
        drmRectHeight src))) {w : SpriteWindow}
    (hw : w = SpriteWindow.mk dst.x1 dst.y1 (u32 (drmRectWidth dst))
      (u32 (drmRectHeight dst)) (u32 (r.x1 / 0x10000)) (u32 (r.y1 / 0x10000))
      (u32 (drmRectWidth r / 0x10000)) (u32 (drmRectHeight r / 0x10000))) :
    InSource w false u.srcX.toNat (u.srcX.toNat + u.srcW.toNat) u.srcY.toNat
      (u.srcY.toNat + u.srcH.toNat) ∧ InCrtc w crtc := by
  have hux := h.srcX
  have huy := h.srcY
  have hh := h.hdisplay
  have hv := h.vdisplay
  obtain ⟨hxl, hxr, hxw, hxd, hxd', hxp⟩ := id hx
  obtain ⟨hyl, hyr, hyw, hyd, hyd', hyp⟩ := id hy
  simp only [DrmRect.swap, width] at hxw hxp hyl hyr hyw hyd hyd' hyp
  have hints : src.IsInts := by constructor <;> constructor <;> omega
  have hsx : Wide src := ⟨hxw, by unfold width; omega⟩
  have hsy : Wide src.swap := ⟨hyw, by simp only [DrmRect.swap, width]; omega⟩
  have hdx : Wide dst := ⟨hxp.le, by unfold width; omega⟩
  have hdy : Wide dst.swap := ⟨hyp.le, by simp only [DrmRect.swap, width]; omega⟩
  obtain ⟨dw, hdw⟩ : ∃ dw, dw = i32 (i32 (drmRectWidth dst *
    drmRectCalcHscale src dst p.minScale p.maxScale) - drmRectWidth src) := ⟨_, rfl⟩
  obtain ⟨dh, hdh⟩ : ∃ dh, dh = i32 (i32 (drmRectHeight dst *
    drmRectCalcVscale src dst p.minScale p.maxScale) - drmRectHeight src) := ⟨_, rfl⟩
  obtain ⟨hal, har, haw⟩ := hx.adjusted hints hsx hdx hhscale dh hdw
  obtain ⟨hat, hab, hah⟩ := hy.adjusted hints.swap hsy hdy hvscale dw hdh
  rw [← hdw, ← hdh] at hr
  have hrs : drmRectAdjustSize src.swap dh dw = r.swap := by
    rw [hr]
    rfl
  rw [← hr] at hal har haw
  rw [hrs] at hat hab hah
  obtain ⟨hwx, hww, hwl, hww0, hwr⟩ := pixels_fit (by omega) (by omega) hal haw har
  obtain ⟨hwy, hwh, hwt, hwh0, hwb⟩ := pixels_fit (by omega) (by omega) hat hah hab
  have hcw : u32 (drmRectWidth dst) = dst.x2 - dst.x1 :=
    (congrArg u32 hdx.drmRectWidth_eq).trans
      (u32_of_range (by unfold width; omega) (by unfold width; omega))
  have hch : u32 (drmRectHeight dst) = dst.y2 - dst.y1 :=
    (congrArg u32 hdy.drmRectWidth_eq).trans
      (u32_of_range hyp.le (by simp only [width, DrmRect.swap]; omega))
  subst hw
  constructor
  · constructor <;> dsimp only
    · exact hwl.trans_eq hwx.symm
    · exact hwt.trans_eq hwy.symm
    · exact hww0.trans_eq hww.symm
    · exact hwh0.trans_eq hwh.symm
    · exact (congrArg (· * 0x10000) (congrArg₂ (· + ·) hwx hww)).trans_le hwr
    · exact (congrArg (· * 0x10000) (congrArg₂ (· + ·) hwy hwh)).trans_le hwb
  · constructor <;> simp only [hcw] <;> omega

/-- An error, or a window that lies in the source and in the crtc. -/
theorem adjustWindow_spec (h : Asked p crtc u) (yuv : Bool)
    (hx : Placed src dst u.srcX.toNat (u.srcX.toNat + u.srcW.toNat) crtc.hdisplay)
    (hy : Placed src.swap dst.swap u.srcY.toNat (u.srcY.toNat + u.srcH.toNat) crtc.vdisplay) :
    (∃ ret, adjustWindow p yuv src dst = .error ret ∧ ret < 0) ∨
      ∃ w visible, adjustWindow p yuv src dst = .ok (w, visible) ∧
        InSource w yuv u.srcX.toNat (u.srcX.toNat + u.srcW.toNat) u.srcY.toNat
          (u.srcY.toNat + u.srcH.toNat) ∧
        InCrtc w crtc ∧ (visible = false → w.crtcW = 0) := by
  unfold adjustWindow
  by_cases hhscale : drmRectCalcHscale src dst p.minScale p.maxScale < 0
  · left
    exact ⟨_, if_pos hhscale, hhscale⟩
  by_cases hvscale : drmRectCalcVscale src dst p.minScale p.maxScale < 0
  · left
    exact ⟨_, (if_neg hhscale).trans (if_pos hvscale), hvscale⟩
  right
  rw [if_neg hhscale, if_neg hvscale]
  obtain ⟨r, hr⟩ : ∃ r, r = drmRectAdjustSize src
    (i32 (i32 (drmRectWidth dst * drmRectCalcHscale src dst p.minScale p.maxScale) -
      drmRectWidth src))
    (i32 (i32 (drmRectHeight dst * drmRectCalcVscale src dst p.minScale p.maxScale) -
      drmRectHeight src)) := ⟨_, rfl⟩
  obtain ⟨w, hw⟩ : ∃ w, w = SpriteWindow.mk dst.x1 dst.y1 (u32 (drmRectWidth dst))
    (u32 (drmRectHeight dst)) (u32 (r.x1 / 0x10000)) (u32 (r.y1 / 0x10000))
    (u32 (drmRectWidth r / 0x10000)) (u32 (drmRectHeight r / 0x10000)) := ⟨_, rfl⟩
  obtain ⟨hsource, hcrtc⟩ := window_spec h hx hy hhscale hvscale hr hw
  rw [← hr]
  cases yuv with
  | false => exact ⟨w, true, by rw [hw]; rfl, hsource, hcrtc, Bool.noConfusion⟩
  | true =>
    refine ⟨{ w with
      srcX := evenDown w.srcX
      srcW := evenDown w.srcW
      crtcW := if p.canScale then w.crtcW else evenDown w.crtcW },
      decide ((if p.canScale then w.crtcW else evenDown w.crtcW) ≠ 0), ?_, ?_, ?_, ?_⟩
    · rw [hw]
      rfl
    · exact hsource.even (by omega) _
    · refine hcrtc.narrow rfl rfl rfl ?_
      split
      · exact ⟨hcrtc.crtcW, le_rfl⟩
      · exact evenDown_le hcrtc.crtcW
    · intro hfalse
      exact not_not.mp (of_decide_eq_false hfalse)

/-- An edge is found again from the other one and the unsigned width. -/
theorem edge_of_width {a b : ℤ} (ha : IsInt a) (hb : IsInt b) :
    i32 (a + u32 (i32 (b - a))) = b := by
  obtain ⟨hb0, hb1⟩ := hb
  unfold i32 u32
  omega

/-- An error, or a window that lies where it was asked for if it is visible, and that is not the
whole crtc if it is not, unless its size is too small for scaling. -/
theorem fitWindow_spec (h : Asked p crtc u) (fb : IntelFramebuffer) {visible : Bool}
    (hvisible : visible = true →
      Placed src dst u.srcX.toNat (u.srcX.toNat + u.srcW.toNat) crtc.hdisplay ∧
        Placed src.swap dst.swap u.srcY.toNat (u.srcY.toNat + u.srcH.toNat) crtc.vdisplay)
    (hhidden : visible = false → crtc.HasPixels → dst ≠ clipRect crtc) (hdst : dst.IsInts) :
    (∃ ret, fitWindow p fb u src dst visible = .error ret ∧ ret < 0) ∨
      ∃ w shown, fitWindow p fb u src dst visible = .ok (w, shown) ∧
        (shown = true → InSource w (formatIsYuv fb.pixelFormat) u.srcX.toNat
          (u.srcX.toNat + u.srcW.toNat) u.srcY.toNat (u.srcY.toNat + u.srcH.toNat) ∧
          InCrtc w crtc) ∧
        (shown = false → crtc.HasPixels → w.dst = clipRect crtc → w.Scaled ∧ w.Small) := by
  cases visible with
  | false =>
    right
    refine ⟨_, false, rfl, Bool.noConfusion, fun _ hmode heq => ?_⟩
    refine absurd (Eq.trans ?_ heq) (hhidden rfl hmode)
    have hright := edge_of_width hdst.x1 hdst.x2
    have hbottom := edge_of_width hdst.y1 hdst.y2
    simp only [SpriteWindow.dst, drmRectWidth, drmRectHeight, hright, hbottom]
  | true =>
    obtain ⟨hx, hy⟩ := hvisible rfl
    obtain ⟨ret, heq, hneg⟩ | ⟨w, shown, heq, hsource, hcrtc, hempty⟩ :=
      adjustWindow_spec h (formatIsYuv fb.pixelFormat) hx hy
    · left
      refine ⟨ret, ?_, hneg⟩
      rw [fitWindow, heq]
      rfl
    · have hfit : fitWindow p fb u src dst true =
          if shown = true ∧ w.Scaled then do return (w, ← checkScaled fb w)
          else .ok (w, shown) := by
        rw [fitWindow, heq]
        rfl
      rw [hfit]
      by_cases hscaled : shown = true ∧ w.Scaled
      · rw [if_pos hscaled]
        by_cases hlimits : 2048 < w.srcW ∨ 2048 < w.srcH ∨
            4096 < u32 (u32 (w.srcX * fb.cpp) % 64 + w.srcW * fb.cpp) ∨ 4096 < fb.pitch.toNat
        · left
          refine ⟨Errno.eInval, ?_, by decide⟩
          rw [checkScaled, if_pos hlimits]
          rfl
        · right
          refine ⟨w, decide ¬ w.Small, ?_, fun _ => ⟨hsource, hcrtc⟩, fun hfalse _ _ =>
            ⟨hscaled.2, not_not.mp (of_decide_eq_false hfalse)⟩⟩
          rw [checkScaled, if_neg hlimits]
          rfl
      · rw [if_neg hscaled]
        right
        refine ⟨w, shown, rfl, fun _ => ⟨hsource, hcrtc⟩, fun hfalse hmode hcover => ?_⟩
        -- An empty window is not the whole crtc.
        obtain ⟨hleft, -, hright, -⟩ := DrmRect.mk.inj hcover
        rw [hempty hfalse, hleft] at hright
        exact absurd hright (ne_of_lt (show i32 (0 + 0) < crtc.hdisplay from hmode.1))

end Window

/-! ### The update -/

section Update

/-- What an update leaves: an error leaves what was shown, and otherwise the window lies in the
source and in the crtc, and the primary plane is disabled where the window is the whole crtc. -/
structure Updated (p : IntelPlane) (crtc : SpriteCrtc) (fb : IntelFramebuffer) (u : PlaneUpdate)
    (ret : ℤ) (p' : IntelPlane) : Prop where
  failed : ret ≠ 0 → p'.obj = p.obj ∧ p'.shown = p.shown ∧
    p'.primaryDisabled = p.primaryDisabled ∧ p'.pins = p.pins
  obj : ret = 0 → p'.obj = some fb.obj
  shown : ret = 0 → ∀ w, p'.shown = some w →
    InSource w (formatIsYuv fb.pixelFormat) u.srcX.toNat (u.srcX.toNat + u.srcW.toNat)
      u.srcY.toNat (u.srcY.toNat + u.srcH.toNat) ∧ InCrtc w crtc
  primary : ret = 0 → crtc.HasPixels → p'.primaryDisabled = true →
    ∃ w : SpriteWindow, w.dst = clipRect crtc ∧ (p'.shown = some w ∨ w.Scaled ∧ w.Small)

variable {p : IntelPlane} {crtc : SpriteCrtc} {fb : IntelFramebuffer} {u : PlaneUpdate}

theorem updated_error {ret : ℤ} (h : ret ≠ 0) : Updated p crtc fb u ret { p with saved := u } :=
  ⟨fun _ => ⟨rfl, rfl, rfl, rfl⟩, fun h0 => absurd h0 h, fun h0 => absurd h0 h,
    fun h0 => absurd h0 h⟩

theorem updated_program {w : SpriteWindow} {visible : Bool}
    (hshown : visible = true → InSource w (formatIsYuv fb.pixelFormat) u.srcX.toNat
      (u.srcX.toNat + u.srcW.toNat) u.srcY.toNat (u.srcY.toNat + u.srcH.toNat) ∧ InCrtc w crtc)
    (hhidden : visible = false → crtc.HasPixels → w.dst = clipRect crtc → w.Scaled ∧ w.Small) :
    Updated p crtc fb u 0 (IntelPlane.program { p with saved := u } crtc fb.obj w visible) := by
  refine ⟨fun h => absurd rfl h, fun _ => rfl, fun _ w' hw' => ?_, fun _ hmode hprimary => ?_⟩
  · cases visible with
    | false => cases hw'
    | true =>
      cases hw'
      exact hshown rfl
  · have hcover : w.dst = clipRect crtc := of_decide_eq_true hprimary
    refine ⟨w, hcover, ?_⟩
    cases visible with
    | false => exact Or.inr (hhidden rfl hmode hcover)
    | true => exact Or.inl rfl

theorem intelUpdatePlane_updated (h : Asked p crtc u) (fb : IntelFramebuffer) (pin : ℤ) :
    ∃ ret p', intelUpdatePlane p crtc fb u pin = some (ret, p') ∧ Updated p crtc fb u ret p' := by
  have hasked : Asked { p with saved := u } crtc u :=
    ⟨h.srcX, h.srcY, h.dst, h.crtcW, h.crtcH, h.downscale, h.hdisplay, h.vdisplay⟩
  obtain ⟨src, dst, visible, hclip, hvisible, hhidden, hints⟩ := clipPlane_spec hasked
  unfold intelUpdatePlane
  by_cases hsuitable : suitable { p with saved := u } crtc fb
  · simp only [hsuitable, hclip, Option.bind_eq_bind,
      Option.bind_some]
    obtain ⟨ret, hfit, hneg⟩ | ⟨w, shown, hfit, hshown, hcover⟩ :=
      fitWindow_spec hasked fb hvisible hhidden hints
    · rw [hfit]
      exact ⟨ret, _, rfl, updated_error hneg.ne⟩
    · rw [hfit]
      dsimp only
      by_cases hpin : pin ≠ 0
      · rw [if_pos hpin]
        exact ⟨pin, _, rfl, updated_error hpin⟩
      · rw [if_neg hpin]
        exact ⟨0, _, rfl, updated_program hshown hcover⟩
  · simp only [hsuitable]
    exact ⟨_, _, rfl, updated_error (by decide)⟩

/-- The lengths of a destination that drm_mode_setplane lets through. -/
theorem check_lengths {r : DrmModeSetPlane} {plane : DrmPlane} {fb : Framebuffer.DrmFramebuffer}
    (h : r.check plane fb = 0) :
    r.update.crtcW.toNat ≤ 0x7fffffff ∧ r.update.crtcH.toNat ≤ 0x7fffffff := by
  unfold DrmModeSetPlane.check at h
  by_cases hformat : fb.pixelFormat ∉ plane.formatTypes
  · rw [if_pos hformat] at h
    exact absurd h (by decide)
  · rw [if_neg hformat] at h
    split at h
    · exact absurd h (by decide)
    · split at h
      · exact absurd h (by decide)
      · rename_i hdst
        simp only [Bool.or_eq_true, decide_eq_true_eq, not_or] at hdst
        obtain ⟨⟨⟨hw, -⟩, hh⟩, -⟩ := hdst
        exact ⟨UInt32.le_iff_toNat_le.mp (UInt32.not_lt.mp hw),
          UInt32.le_iff_toNat_le.mp (UInt32.not_lt.mp hh)⟩

end Update

def primaryCrtc : SpriteCrtc := { pipe := 0, hdisplay := 1024, vdisplay := 768 }

def argb : UInt32 := 0x34325241

/-- The sprite of a generation that scales. -/
def scalingPlane : IntelPlane :=
  { pipe := 0
    canScale := true
    maxDownscale := 16
    saved := ⟨0, 0, 0, 0, 0, 0, 0, 0⟩ }

def spriteFb : IntelFramebuffer :=
  { width := 64, height := 64, pixelFormat := argb, pitch := 256, cpp := 4, obj := 9 }

def spritePlane : DrmPlane := { formatTypes := [argb] }

/-- A source that begins in the middle of a pixel. -/
def halfPixel : DrmModeSetPlane where
  planeId := 2
  crtcId := 1
  fbId := 4
  crtcW := 32
  crtcH := 32
  srcX := 0x8000
  srcW := 0x200000
  srcH := 0x200000

/-- What is asked of an update: no part of a pixel is read from outside the viewport, the primary
plane is off only under a sprite that is shown, and an error leaves the plane as it was. -/
structure UpdateRight (p : IntelPlane) (crtc : SpriteCrtc) (u : PlaneUpdate) (ret : ℤ)
    (p' : IntelPlane) : Prop where
  failed : ret ≠ 0 → p'.saved = p.saved ∧ p'.obj = p.obj ∧ p'.primaryDisabled = p.primaryDisabled
  source : ret = 0 → ∀ w, p'.shown = some w →
    u.srcX.toNat ≤ w.srcX * 0x10000 ∧ u.srcY.toNat ≤ w.srcY * 0x10000 ∧
      (w.srcX + w.srcW) * 0x10000 ≤ u.srcX.toNat + u.srcW.toNat ∧
      (w.srcY + w.srcH) * 0x10000 ≤ u.srcY.toNat + u.srcH.toNat
  inside : ret = 0 → ∀ w, p'.shown = some w → InCrtc w crtc
  primary : ret = 0 → p'.primaryDisabled = true →
    ∃ w, p'.shown = some w ∧ w.dst = clipRect crtc

end GfxDrm.Sprite
