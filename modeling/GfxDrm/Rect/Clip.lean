import GfxDrm.Errno
import GfxDrm.Lib.Word
import Mathlib.Algebra.Order.Ring.Int

/-! Rectangles of a plane, their clipping and their scaling (drm_rect.c). -/

namespace GfxDrm.Rect

open CInt

/-- struct drm_rect: (`x1`, `y1`) inclusive, (`x2`, `y2`) exclusive. -/
structure DrmRect where
  x1 : ℤ
  y1 : ℤ
  x2 : ℤ
  y2 : ℤ
  deriving DecidableEq, Repr

namespace DrmRect

/-- Its fields are of type int. -/
structure IsInts (r : DrmRect) : Prop where
  x1 : IsInt r.x1
  y1 : IsInt r.y1
  x2 : IsInt r.x2
  y2 : IsInt r.y2

/-- The pixels of a rectangle. -/
def pixels (r : DrmRect) : Set (ℤ × ℤ) := {p | r.x1 ≤ p.1 ∧ p.1 < r.x2 ∧ r.y1 ≤ p.2 ∧ p.2 < r.y2}

/-- The rectangle with its axes exchanged. -/
def swap (r : DrmRect) : DrmRect := ⟨r.y1, r.x1, r.y2, r.x2⟩

end DrmRect

variable (r : DrmRect)

/-- drm_rect_adjust_size; `>> 1` rounds down. -/
def drmRectAdjustSize (dw dh : ℤ) : DrmRect where
  x1 := i32 (r.x1 - dw / 2)
  y1 := i32 (r.y1 - dh / 2)
  x2 := i32 (r.x2 + i32 (dw + 1) / 2)
  y2 := i32 (r.y2 + i32 (dh + 1) / 2)

def drmRectWidth : ℤ := i32 (r.x2 - r.x1)
def drmRectHeight : ℤ := i32 (r.y2 - r.y1)
def drmRectVisible : Bool := 0 < drmRectWidth r ∧ 0 < drmRectHeight r

/-- What drm_rect_intersect leaves in `r1`. -/
def intersection (r1 r2 : DrmRect) : DrmRect where
  x1 := max r1.x1 r2.x1
  y1 := max r1.y1 r2.y1
  x2 := min r1.x2 r2.x2
  y2 := min r1.y2 r2.y2

/-- drm_rect_intersect. -/
def drmRectIntersect (r1 r2 : DrmRect) : DrmRect × Bool :=
  (intersection r1 r2, drmRectVisible (intersection r1 r2))

/-- clamp_int64_t. -/
def clampInt64 (v : ℤ) : ℤ := max (-0x80000000) (min 0x7fffffff v)

/-- Where drm_rect_clip_scaled moves a left or upper edge of the source. -/
def clipLow (edge diff scale : ℤ) : ℤ :=
  if 0 < diff then clampInt64 (i64 (edge + i64 (diff * scale))) else edge

/-- Where it moves a right or lower one. -/
def clipHigh (edge diff scale : ℤ) : ℤ :=
  if 0 < diff then clampInt64 (i64 (edge - i64 (diff * scale))) else edge

/-- drm_rect_clip_scaled: the source, the destination and whether it is visible. -/
def drmRectClipScaled (src dst clip : DrmRect) (hscale vscale : ℤ) : DrmRect × DrmRect × Bool :=
  ({ x1 := clipLow src.x1 (i32 (clip.x1 - dst.x1)) hscale
     y1 := clipLow src.y1 (i32 (clip.y1 - dst.y1)) vscale
     x2 := clipHigh src.x2 (i32 (dst.x2 - clip.x2)) hscale
     y2 := clipHigh src.y2 (i32 (dst.y2 - clip.y2)) vscale },
    drmRectIntersect dst clip)

/-- drm_calc_scale. -/
def drmCalcScale (src dst : ℤ) : ℤ :=
  if src < 0 ∨ dst < 0 then Errno.eInval else if dst = 0 then 0 else src.tdiv dst

/-- drm_rect_calc_hscale_relaxed: the factor, the source and the destination. -/
def drmRectCalcHscaleRelaxed (src dst : DrmRect) (minHscale maxHscale : ℤ) :
    ℤ × DrmRect × DrmRect :=
  let srcW := drmRectWidth src
  let dstW := drmRectWidth dst
  let hscale := drmCalcScale srcW dstW
  if hscale < 0 ∨ dstW = 0 then (hscale, src, dst)
  else if hscale < minHscale then
    let maxDstW := srcW.tdiv minHscale
    (minHscale, src, drmRectAdjustSize dst (i32 (maxDstW - dstW)) 0)
  else if maxHscale < hscale then
    let maxSrcW := i32 (dstW * maxHscale)
    (maxHscale, drmRectAdjustSize src (i32 (maxSrcW - srcW)) 0, dst)
  else (hscale, src, dst)

/-- drm_rect_calc_vscale_relaxed. -/
def drmRectCalcVscaleRelaxed (src dst : DrmRect) (minVscale maxVscale : ℤ) :
    ℤ × DrmRect × DrmRect :=
  let srcH := drmRectHeight src
  let dstH := drmRectHeight dst
  let vscale := drmCalcScale srcH dstH
  if vscale < 0 ∨ dstH = 0 then (vscale, src, dst)
  else if vscale < minVscale then
    let maxDstH := srcH.tdiv minVscale
    (minVscale, src, drmRectAdjustSize dst 0 (i32 (maxDstH - dstH)))
  else if maxVscale < vscale then
    let maxSrcH := i32 (dstH * maxVscale)
    (maxVscale, drmRectAdjustSize src 0 (i32 (maxSrcH - srcH)), dst)
  else (vscale, src, dst)

/-! What drm_rect_clip_scaled makes of its rectangles. -/

open CInt DrmRect

/-- The source edges move by the clipped amounts times the scale, up to the limits of int; the
destination is the intersection, and visible where there is one. An edge is spoken of where its
distance from the clip's is of type int, the visibility where the intersection's extents are. -/
structure Clipped (src dst clip : DrmRect) (hscale vscale : ℤ) (r : DrmRect × DrmRect × Bool) :
    Prop where
  meets : r.2.1 = intersection dst clip
  pixels : r.2.1.pixels = dst.pixels ∩ clip.pixels
  x1 : IsInt (clip.x1 - dst.x1) →
    r.1.x1 = clampInt64 (src.x1 + max 0 (clip.x1 - dst.x1) * hscale)
  y1 : IsInt (clip.y1 - dst.y1) →
    r.1.y1 = clampInt64 (src.y1 + max 0 (clip.y1 - dst.y1) * vscale)
  x2 : IsInt (dst.x2 - clip.x2) →
    r.1.x2 = clampInt64 (src.x2 - max 0 (dst.x2 - clip.x2) * hscale)
  y2 : IsInt (dst.y2 - clip.y2) →
    r.1.y2 = clampInt64 (src.y2 - max 0 (dst.y2 - clip.y2) * vscale)
  visible : IsInt (r.2.1.x2 - r.2.1.x1) → IsInt (r.2.1.y2 - r.2.1.y1) →
    (r.2.2 = true ↔ (dst.pixels ∩ clip.pixels).Nonempty)

theorem clampInt64_of_isInt {x : ℤ} (h : IsInt x) : clampInt64 x = x := by
  obtain ⟨h0, h1⟩ := h
  unfold clampInt64
  omega

theorem pixels_intersection (r1 r2 : DrmRect) :
    (intersection r1 r2).pixels = r1.pixels ∩ r2.pixels := by
  ext p
  simp only [pixels, intersection, Set.mem_inter_iff, Set.mem_ofPred_eq]
  omega

theorem nonempty_pixels (r : DrmRect) : r.pixels.Nonempty ↔ 0 < r.x2 - r.x1 ∧ 0 < r.y2 - r.y1 := by
  constructor
  · intro h
    obtain ⟨p, hx1, hx2, hy1, hy2⟩ := h
    omega
  · intro h
    refine ⟨(r.x1, r.y1), le_rfl, ?_, le_rfl, ?_⟩ <;> dsimp only <;> omega

section
variable {edge diff scale : ℤ}

/-- The product of two ints is held by int64_t. -/
theorem mul_bounds (hd : IsInt diff) (hs0 : 0 < scale) (hs : IsInt scale) :
    -0x4000000000000000 ≤ diff * scale ∧ diff * scale ≤ 0x4000000000000000 := by
  obtain ⟨hd0, hd1⟩ := hd
  have hlow : -0x80000000 * scale ≤ diff * scale := mul_le_mul_of_nonneg_right hd0 (by omega)
  have hhigh : diff * scale ≤ 0x80000000 * scale := mul_le_mul_of_nonneg_right (by omega) (by omega)
  have hmax := hs.2
  omega

/-- An edge moved by what is clipped off, on either side, is held by int64_t. -/
theorem moved_eq (he : IsInt edge) (hd : IsInt diff) (hs0 : 0 < scale) (hs : IsInt scale) :
    i64 (edge + i64 (diff * scale)) = edge + diff * scale ∧
      i64 (edge - i64 (diff * scale)) = edge - diff * scale := by
  have hmul := mul_bounds hd hs0 hs
  obtain ⟨he0, he1⟩ := he
  rw [@i64_of_range (diff * scale) (by omega) (by omega)]
  exact ⟨i64_of_range (by omega) (by omega), i64_of_range (by omega) (by omega)⟩

theorem clipLow_eq (he : IsInt edge) (hd : IsInt diff) (hs0 : 0 < scale) (hs : IsInt scale) :
    clipLow edge (i32 diff) scale = clampInt64 (edge + max 0 diff * scale) := by
  unfold clipLow
  rw [hd.i32_eq]
  by_cases hpos : 0 < diff
  · rw [if_pos hpos, (moved_eq he hd hs0 hs).1, max_eq_right (Int.le_of_lt hpos)]
  · rw [if_neg hpos, max_eq_left (by omega), zero_mul, add_zero, clampInt64_of_isInt he]

theorem clipHigh_eq (he : IsInt edge) (hd : IsInt diff) (hs0 : 0 < scale) (hs : IsInt scale) :
    clipHigh edge (i32 diff) scale = clampInt64 (edge - max 0 diff * scale) := by
  unfold clipHigh
  rw [hd.i32_eq]
  by_cases hpos : 0 < diff
  · rw [if_pos hpos, (moved_eq he hd hs0 hs).2, max_eq_right (Int.le_of_lt hpos)]
  · rw [if_neg hpos, max_eq_left (by omega), zero_mul, sub_zero, clampInt64_of_isInt he]

end

theorem drmRectVisible_iff {r : DrmRect} (hw : IsInt (r.x2 - r.x1)) (hh : IsInt (r.y2 - r.y1)) :
    drmRectVisible r = true ↔ r.pixels.Nonempty := by
  rw [nonempty_pixels, drmRectVisible, drmRectWidth, drmRectHeight, hw.i32_eq, hh.i32_eq]
  exact decide_eq_true_iff

/-- A source from 32767.0 on, of which a pixel is clipped on the left. -/
def farSrc : DrmRect := ⟨0x7fff0000, 0, 0x7fffffff, 0x20000⟩

end GfxDrm.Rect
