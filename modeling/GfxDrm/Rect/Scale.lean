import GfxDrm.Rect.Clip

/-! The scaling factors of drm_rect_calc_hscale_relaxed and drm_rect_calc_vscale_relaxed. -/

namespace GfxDrm.Rect

open CInt DrmRect

/-- `b` lies in `a` and has its height; its centre is that of `a`, to half a unit. -/
structure Shrunk (a b : DrmRect) : Prop where
  y1 : b.y1 = a.y1
  y2 : b.y2 = a.y2
  left : a.x1 ≤ b.x1
  right : b.x2 ≤ a.x2
  centre : a.x1 + a.x2 ≤ b.x1 + b.x2 ∧ b.x1 + b.x2 ≤ a.x1 + a.x2 + 1

def width (r : DrmRect) : ℤ := r.x2 - r.x1

/-- The factor `r.1` is in its limits and that of the rectangles left, the source `r.2.1` and the
destination `r.2.2`, of which only one was shrunk, because it was too large. -/
structure Relaxed (src dst : DrmRect) (minScale maxScale : ℤ) (r : ℤ × DrmRect × DrmRect) :
    Prop where
  min_le : minScale ≤ r.1
  le_max : r.1 ≤ maxScale
  factor : drmCalcScale (width r.2.1) (width r.2.2) = r.1
  srcKept : drmCalcScale (width src) (width dst) ≤ maxScale → r.2.1 = src
  dstKept : minScale ≤ drmCalcScale (width src) (width dst) → r.2.2 = dst
  src : Shrunk src r.2.1
  dst : Shrunk dst r.2.2

/-- A width is negative as the code sees it; or both are what they are, the destination is not
empty, and where the factor is too small the width of the source, divided by the limit, leaves a
remainder below the quotient. -/
def WidthsFit (src dst : DrmRect) (minScale : ℤ) : Prop :=
  drmRectWidth src < 0 ∨ drmRectWidth dst < 0 ∨
    (0 ≤ width src ∧ 0 < width dst ∧ (width src / width dst < minScale →
      width src % minScale < width src / minScale))

instance (src dst : DrmRect) (minScale : ℤ) : Decidable (WidthsFit src dst minScale) :=
  inferInstanceAs (Decidable (_ ∨ _))

section
variable {src dst : DrmRect} {minScale maxScale : ℤ}

theorem Shrunk.refl (r : DrmRect) : Shrunk r r := ⟨rfl, rfl, le_rfl, le_rfl, by omega⟩

theorem Shrunk.width_le {a b : DrmRect} (h : Shrunk a b) : width b ≤ width a := by
  have hl := h.left
  have hr := h.right
  unfold width
  omega

theorem width_bounds (h : src.IsInts) : -0x100000000 < width src ∧ width src < 0x100000000 := by
  obtain ⟨⟨h1, h1'⟩, -, ⟨h2, h2'⟩, -⟩ := h
  unfold width
  omega

/-- A width that is not negative for the code is too far inverted, or as it should be. -/
theorem drmRectWidth_nonneg (h : src.IsInts) (hw : 0 ≤ drmRectWidth src) :
    width src < -0x80000000 ∨ (0 ≤ width src ∧ drmRectWidth src = width src) := by
  have hb := width_bounds h
  change 0 ≤ i32 (width src) at hw
  change width src < -0x80000000 ∨ (0 ≤ width src ∧ i32 (width src) = width src)
  unfold i32 at hw ⊢
  omega

/-- Shrinking by what is too much leaves the width asked for, about the same centre. -/
theorem shrunk_adjust (h : src.IsInts) (hw : IsInt (width src)) {w : ℤ} (hw0 : 0 ≤ w)
    (hle : w ≤ width src) :
    Shrunk src (drmRectAdjustSize src (i32 (w - width src)) 0) ∧
      width (drmRectAdjustSize src (i32 (w - width src)) 0) = w := by
  obtain ⟨⟨h1, h1'⟩, ⟨h3, h3'⟩, ⟨h2, h2'⟩, ⟨h4, h4'⟩⟩ := h
  obtain ⟨hmin, hmax⟩ := hw
  have hadjust : i32 (w - width src) = w - width src := i32_of_range (by omega) (by omega)
  have hone : i32 (w - width src + 1) = w - width src + 1 := i32_of_range (by omega) (by omega)
  unfold width at hmin hmax hle hadjust hone ⊢
  have hx1 : i32 (src.x1 - (w - (src.x2 - src.x1)) / 2) = src.x1 - (w - (src.x2 - src.x1)) / 2 :=
    i32_of_range (by omega) (by omega)
  have hx2 : i32 (src.x2 + (w - (src.x2 - src.x1) + 1) / 2) =
      src.x2 + (w - (src.x2 - src.x1) + 1) / 2 := i32_of_range (by omega) (by omega)
  have hy1 : i32 (src.y1 - 0 / 2) = src.y1 := by
    rw [Int.zero_ediv, sub_zero]
    exact i32_of_range (by omega) (by omega)
  have hy2 : i32 (src.y2 + i32 (0 + 1) / 2) = src.y2 := by
    rw [show i32 (0 + 1) / 2 = 0 from rfl, add_zero]
    exact i32_of_range (by omega) (by omega)
  simp only [drmRectAdjustSize, hadjust, hone, hy1, hy2]
  refine ⟨⟨rfl, rfl, ?_, ?_, ?_⟩, ?_⟩
  · dsimp only
    omega
  · dsimp only
    omega
  · dsimp only
    omega
  · omega

/-- The factor of two widths that are what they are. -/
theorem drmCalcScale_of_pos {s d : ℤ} (hs : 0 ≤ s) (hd : 0 < d) : drmCalcScale s d = s / d := by
  unfold drmCalcScale
  rw [if_neg (by omega), if_neg (by omega), Int.tdiv_eq_ediv_of_nonneg hs]

theorem widths_of_scale_pos {s d : ℤ} (h : 0 < drmCalcScale s d) : 0 < s ∧ 0 < d := by
  unfold drmCalcScale at h
  by_cases hneg : s < 0 ∨ d < 0
  · rw [if_pos hneg] at h
    exact absurd h (by decide)
  · rw [if_neg hneg] at h
    by_cases hd : d = 0
    · rw [if_pos hd] at h
      exact absurd h (by decide)
    · rw [if_neg hd, Int.tdiv_eq_ediv_of_nonneg (by omega)] at h
      refine ⟨?_, by omega⟩
      by_contra hs
      obtain rfl : s = 0 := by omega
      rw [Int.zero_ediv] at h
      exact lt_irrefl 0 h

/-- Divided by its quotient, a number gives the divisor back if the remainder is below the
quotient. -/
theorem ediv_quotient {s m : ℤ} (hm : 0 < m) :
    (0 < s / m ∧ s / (s / m) = m) ↔ s % m < s / m := by
  have hrem := Int.emod_nonneg s (by omega : m ≠ 0)
  have hsplit := Int.emod_add_mul_ediv s m
  constructor
  · rintro ⟨hq, heq⟩
    have hlt := Int.lt_ediv_add_one_mul_self s hq
    rw [heq] at hlt
    have hassoc : (m + 1) * (s / m) = m * (s / m) + s / m := by rw [add_mul, one_mul]
    omega
  · intro hlt
    have hq : 0 < s / m := by omega
    refine ⟨hq, ?_⟩
    rw [Int.ediv_eq_iff_of_pos hq]
    omega

/-- What the width of a destination that is too large is cut down to. -/
theorem quotient_le {s d m : ℤ} (hm : 0 < m) (hd : 0 < d) (hlow : s / d < m) : s / m ≤ d := by
  have hlt : s < m * d := (Int.ediv_lt_iff_lt_mul hd).mp hlow
  rw [mul_comm] at hlt
  exact Int.le_of_lt ((Int.ediv_lt_iff_lt_mul hm).mpr hlt)

/-- The three ways out of drm_rect_calc_hscale_relaxed with widths that are what they are. -/
theorem drmRectCalcHscaleRelaxed_eq (hs : 0 ≤ width src) (hd : 0 < width dst)
    (hsw : drmRectWidth src = width src) (hdw : drmRectWidth dst = width dst) :
    drmRectCalcHscaleRelaxed src dst minScale maxScale =
      if width src / width dst < minScale then
        (minScale, src,
          drmRectAdjustSize dst (i32 ((width src).tdiv minScale - width dst)) 0)
      else if maxScale < width src / width dst then
        (maxScale, drmRectAdjustSize src (i32 (i32 (width dst * maxScale) - width src)) 0, dst)
      else (width src / width dst, src, dst) := by
  have hquot : 0 ≤ width src / width dst := Int.ediv_nonneg hs (Int.le_of_lt hd)
  unfold drmRectCalcHscaleRelaxed
  simp only [hsw, hdw, drmCalcScale_of_pos hs hd]
  rw [if_neg (by omega)]

theorem relaxed_of_fits (hsrc : src.IsInts) (hdst : dst.IsInts) (hmin : 0 < minScale)
    (hle : minScale ≤ maxScale) (hs : 0 ≤ width src) (hd : 0 < width dst)
    (hsw : drmRectWidth src = width src) (hdw : drmRectWidth dst = width dst)
    (hrem : width src / width dst < minScale → width src % minScale < width src / minScale) :
    Relaxed src dst minScale maxScale (drmRectCalcHscaleRelaxed src dst minScale maxScale) := by
  have hsint : IsInt (width src) := isInt_of_i32_eq hsw
  have hdint : IsInt (width dst) := isInt_of_i32_eq hdw
  rw [drmRectCalcHscaleRelaxed_eq hs hd hsw hdw]
  by_cases hlow : width src / width dst < minScale
  · -- the destination is too large
    rw [if_pos hlow, Int.tdiv_eq_ediv_of_nonneg hs]
    obtain ⟨hq, hfactor⟩ := (ediv_quotient hmin).mpr (hrem hlow)
    have hqle := quotient_le hmin hd hlow
    obtain ⟨hshrunk, hwidth⟩ := shrunk_adjust hdst hdint (Int.le_of_lt hq) hqle
    refine ⟨le_rfl, hle, ?_, fun _ => rfl, fun h => ?_, .refl src, hshrunk⟩
    · rw [hwidth, drmCalcScale_of_pos hs hq, hfactor]
    · rw [drmCalcScale_of_pos hs hd] at h
      exact absurd hlow (not_lt.mpr h)
  · rw [if_neg hlow]
    by_cases hhigh : maxScale < width src / width dst
    · -- the source is too large
      rw [if_pos hhigh]
      have hprod : width dst * maxScale ≤ width src := by
        rw [mul_comm]
        exact (Int.le_ediv_iff_mul_le hd).mp (Int.le_of_lt hhigh)
      have hprod0 : 0 < width dst * maxScale := mul_pos hd (by omega)
      rw [@i32_of_range (width dst * maxScale) (by omega) (by have := hsint.2; omega)]
      obtain ⟨hshrunk, hwidth⟩ := shrunk_adjust hsrc hsint (Int.le_of_lt hprod0) hprod
      refine ⟨hle, le_rfl, ?_, fun h => ?_, fun _ => rfl, hshrunk, .refl dst⟩
      · rw [hwidth, drmCalcScale_of_pos (Int.le_of_lt hprod0) hd,
          Int.mul_ediv_cancel_left _ (by omega)]
      · rw [drmCalcScale_of_pos hs hd] at h
        exact absurd hhigh (not_lt.mpr h)
    · rw [if_neg hhigh]
      exact ⟨not_lt.mp hlow, not_lt.mp hhigh, drmCalcScale_of_pos hs hd, fun _ => rfl,
        fun _ => rfl, .refl src, .refl dst⟩

theorem hscale_relaxed_error (h : drmRectWidth src < 0 ∨ drmRectWidth dst < 0) :
    (drmRectCalcHscaleRelaxed src dst minScale maxScale).1 < 0 := by
  have hscale : drmCalcScale (drmRectWidth src) (drmRectWidth dst) = Errno.eInval := if_pos h
  unfold drmRectCalcHscaleRelaxed
  simp only [hscale]
  exact (by decide : Errno.eInval < 0)

theorem hscale_relaxed_nonneg (hmin : 0 < minScale) (hle : minScale ≤ maxScale)
    (hs : 0 ≤ drmRectWidth src) (hd : 0 ≤ drmRectWidth dst) :
    0 ≤ (drmRectCalcHscaleRelaxed src dst minScale maxScale).1 := by
  have hscale : 0 ≤ drmCalcScale (drmRectWidth src) (drmRectWidth dst) := by
    unfold drmCalcScale
    rw [if_neg (by omega)]
    split
    · exact le_rfl
    · exact Int.tdiv_nonneg hs hd
  unfold drmRectCalcHscaleRelaxed
  dsimp only
  split
  · exact hscale
  · split
    · exact Int.le_of_lt hmin
    · split
      · omega
      · exact hscale

/-- A factor that is not an error is right exactly where the widths fit. -/
theorem hscale_relaxed_iff (src dst : DrmRect) (minScale maxScale : ℤ) (hsrc : src.IsInts)
    (hdst : dst.IsInts) (hmin : 0 < minScale) (hle : minScale ≤ maxScale) :
    (0 ≤ (drmRectCalcHscaleRelaxed src dst minScale maxScale).1 →
      Relaxed src dst minScale maxScale (drmRectCalcHscaleRelaxed src dst minScale maxScale)) ↔
      WidthsFit src dst minScale := by
  constructor
  · intro h
    by_cases hsneg : drmRectWidth src < 0
    · exact .inl hsneg
    by_cases hdneg : drmRectWidth dst < 0
    · exact .inr (.inl hdneg)
    have hr := h (hscale_relaxed_nonneg hmin hle (not_lt.mp hsneg) (not_lt.mp hdneg))
    -- both rectangles have a width, as what is left of them has one
    have hfactor := hr.factor
    have hleft : 0 < drmCalcScale
        (width (drmRectCalcHscaleRelaxed src dst minScale maxScale).2.1)
        (width (drmRectCalcHscaleRelaxed src dst minScale maxScale).2.2) := by
      rw [hfactor]
      exact hmin.trans_le hr.min_le
    obtain ⟨hsleft, hdleft⟩ := widths_of_scale_pos hleft
    have hs : 0 < width src := hsleft.trans_le hr.src.width_le
    have hd : 0 < width dst := hdleft.trans_le hr.dst.width_le
    have hsw : drmRectWidth src = width src :=
      ((drmRectWidth_nonneg hsrc (not_lt.mp hsneg)).resolve_left (by omega)).2
    have hdw : drmRectWidth dst = width dst :=
      ((drmRectWidth_nonneg hdst (not_lt.mp hdneg)).resolve_left (by omega)).2
    refine .inr (.inr ⟨Int.le_of_lt hs, hd, fun hlow => ?_⟩)
    have hq0 : 0 ≤ width src / minScale := Int.ediv_nonneg (Int.le_of_lt hs) (Int.le_of_lt hmin)
    obtain ⟨-, hwidth⟩ := shrunk_adjust hdst (isInt_of_i32_eq hdw) hq0 (quotient_le hmin hd hlow)
    rw [drmRectCalcHscaleRelaxed_eq (Int.le_of_lt hs) hd hsw hdw, if_pos hlow,
      Int.tdiv_eq_ediv_of_nonneg (Int.le_of_lt hs)] at hfactor
    dsimp only at hfactor
    rw [hwidth] at hfactor
    have hq := (widths_of_scale_pos (hfactor.symm ▸ hmin)).2
    rw [drmCalcScale_of_pos (Int.le_of_lt hs) hq] at hfactor
    exact (ediv_quotient hmin).mp ⟨hq, hfactor⟩
  · rintro (hsneg | hdneg | ⟨hs, hd, hrem⟩) hr
    · exact absurd hr (not_le.mpr (hscale_relaxed_error (.inl hsneg)))
    · exact absurd hr (not_le.mpr (hscale_relaxed_error (.inr hdneg)))
    · have herror : ∀ r : DrmRect, r.IsInts → 0 ≤ width r → drmRectWidth r < 0 ∨
          drmRectWidth r = width r := by
        intro r hints hw
        rcases lt_or_ge (drmRectWidth r) 0 with hneg | hnonneg
        · exact .inl hneg
        · exact .inr ((drmRectWidth_nonneg hints hnonneg).resolve_left (by omega)).2
      rcases herror src hsrc hs with hneg | hsw
      · exact absurd hr (not_le.mpr (hscale_relaxed_error (.inl hneg)))
      rcases herror dst hdst (Int.le_of_lt hd) with hneg | hdw
      · exact absurd hr (not_le.mpr (hscale_relaxed_error (.inr hneg)))
      exact relaxed_of_fits hsrc hdst hmin hle hs hd hsw hdw hrem

theorem swap_swap (r : DrmRect) : r.swap.swap = r := rfl

theorem swap_adjust (r : DrmRect) (d : ℤ) :
    drmRectAdjustSize r 0 d = (drmRectAdjustSize r.swap d 0).swap := rfl

/-- The vertical factor is the horizontal one with the axes exchanged. -/
theorem drmRectCalcVscaleRelaxed_swap (src dst : DrmRect) (minScale maxScale : ℤ) :
    (drmRectCalcHscaleRelaxed src.swap dst.swap minScale maxScale) =
      ((drmRectCalcVscaleRelaxed src dst minScale maxScale).1,
        (drmRectCalcVscaleRelaxed src dst minScale maxScale).2.1.swap,
        (drmRectCalcVscaleRelaxed src dst minScale maxScale).2.2.swap) := by
  have hsrc : drmRectWidth src.swap = drmRectHeight src := rfl
  have hdst : drmRectWidth dst.swap = drmRectHeight dst := rfl
  unfold drmRectCalcHscaleRelaxed drmRectCalcVscaleRelaxed
  simp only [hsrc, hdst]
  by_cases hout : drmCalcScale (drmRectHeight src) (drmRectHeight dst) < 0 ∨ drmRectHeight dst = 0
  · rw [if_pos hout, if_pos hout]
  · rw [if_neg hout, if_neg hout]
    by_cases hlow : drmCalcScale (drmRectHeight src) (drmRectHeight dst) < minScale
    · rw [if_pos hlow, if_pos hlow, swap_adjust, swap_swap]
    · rw [if_neg hlow, if_neg hlow]
      by_cases hhigh : maxScale < drmCalcScale (drmRectHeight src) (drmRectHeight dst)
      · rw [if_pos hhigh, if_pos hhigh, swap_adjust, swap_swap]
      · rw [if_neg hhigh, if_neg hhigh]

theorem DrmRect.IsInts.swap (h : src.IsInts) : src.swap.IsInts := ⟨h.y1, h.x1, h.y2, h.x2⟩

/-- What is asked of drm_rect_calc_hscale_relaxed. -/
def HscaleRight (src dst : DrmRect) (minScale maxScale : ℤ) : Prop :=
  0 ≤ (drmRectCalcHscaleRelaxed src dst minScale maxScale).1 →
    Relaxed src dst minScale maxScale (drmRectCalcHscaleRelaxed src dst minScale maxScale)

/-- The same of drm_rect_calc_vscale_relaxed, with the axes exchanged. -/
def VscaleRight (src dst : DrmRect) (minScale maxScale : ℤ) : Prop :=
  0 ≤ (drmRectCalcVscaleRelaxed src dst minScale maxScale).1 →
    Relaxed src.swap dst.swap minScale maxScale
      ((drmRectCalcVscaleRelaxed src dst minScale maxScale).1,
        (drmRectCalcVscaleRelaxed src dst minScale maxScale).2.1.swap,
        (drmRectCalcVscaleRelaxed src dst minScale maxScale).2.2.swap)

/-- Both factors are right exactly where the widths, respectively the heights, fit. -/
theorem scale_relaxed_iff (src dst : DrmRect) (minScale maxScale : ℤ) (hsrc : src.IsInts)
    (hdst : dst.IsInts) (hmin : 0 < minScale) (hle : minScale ≤ maxScale) :
    (HscaleRight src dst minScale maxScale ↔ WidthsFit src dst minScale) ∧
      (VscaleRight src dst minScale maxScale ↔ WidthsFit src.swap dst.swap minScale) := by
  refine ⟨hscale_relaxed_iff src dst minScale maxScale hsrc hdst hmin hle, ?_⟩
  have hswap := hscale_relaxed_iff src.swap dst.swap minScale maxScale hsrc.swap
    hdst.swap hmin hle
  rw [drmRectCalcVscaleRelaxed_swap] at hswap
  exact hswap

end

/-- A source of 3.5 pixels that cannot be enlarged to a destination of ten. -/
def halfSrc : DrmRect := ⟨0, 0, 0x38000, 0x30000⟩

theorem scale_relaxed_half :
    (HscaleRight halfSrc ⟨0, 0, 10, 3⟩ 0x10000 0x20000 ↔
        WidthsFit halfSrc ⟨0, 0, 10, 3⟩ 0x10000) ∧
      (VscaleRight halfSrc ⟨0, 0, 10, 3⟩ 0x10000 0x20000 ↔
        WidthsFit halfSrc.swap (DrmRect.swap ⟨0, 0, 10, 3⟩) 0x10000) :=
  scale_relaxed_iff halfSrc ⟨0, 0, 10, 3⟩ 0x10000 0x20000
    ⟨by decide, by decide, by decide, by decide⟩ ⟨by decide, by decide, by decide, by decide⟩
    (by decide) (by decide)

/-- The destination is cut down to three pixels, and the factor said to be 1.0. -/
theorem scale_relaxed_rounds : ¬ ∀ (src dst : DrmRect) (minScale maxScale : ℤ), src.IsInts →
    dst.IsInts → 0 < minScale → minScale ≤ maxScale →
      HscaleRight src dst minScale maxScale ∧ VscaleRight src dst minScale maxScale := by
  intro h
  obtain ⟨hright, -⟩ := h halfSrc ⟨0, 0, 10, 3⟩ 0x10000 0x20000
    ⟨by decide, by decide, by decide, by decide⟩ ⟨by decide, by decide, by decide, by decide⟩
    (by decide) (by decide)
  have hfactor := (hright (by decide)).factor
  revert hfactor
  decide

end GfxDrm.Rect
