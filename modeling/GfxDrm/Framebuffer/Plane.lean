import GfxDrm.Framebuffer.Runs

/-! The rectangles that drm_mode_setplane hands to the driver. -/

namespace GfxDrm.Framebuffer

/-- The rectangles among the arguments of `update_plane`. -/
structure PlaneUpdate where
  crtcX : Int32
  crtcY : Int32
  crtcW : UInt32
  crtcH : UInt32
  srcX : UInt32
  srcY : UInt32
  srcW : UInt32
  srcH : UInt32
  deriving DecidableEq

/-- What drm_mode_setplane calls `update_plane` with. -/
def DrmModeSetPlane.update (r : DrmModeSetPlane) : PlaneUpdate where
  crtcX := r.crtcX
  crtcY := r.crtcY
  crtcW := r.crtcW
  crtcH := r.crtcH
  srcX := r.srcX
  srcY := r.srcY
  srcW := r.srcW
  srcH := r.srcH

/-- The source, in 16.16 fixed point, lies in the framebuffer. -/
structure PlaneUpdate.SourceInside (u : PlaneUpdate) (fb : DrmFramebuffer) : Prop where
  right : u.srcX.toNat + u.srcW.toNat ≤ fb.width.toNat * 2 ^ 16
  bottom : u.srcY.toNat + u.srcH.toNat ≤ fb.height.toNat * 2 ^ 16

/-- The far edges of the destination are 32-bit signed coordinates, as the near ones are. -/
structure PlaneUpdate.DestinationFits (u : PlaneUpdate) : Prop where
  right : u.crtcX.toInt + u.crtcW.toNat ≤ 0x7fffffff
  bottom : u.crtcY.toInt + u.crtcH.toNat ≤ 0x7fffffff

/-- A span inside a size shifted left is inside the size times 2^16, whether the shift wraps or
not. -/
theorem span_le_shifted {off len size : UInt32} (hlen : ¬ len > size <<< 16)
    (hoff : ¬ off > size <<< 16 - len) : off.toNat + len.toNat ≤ size.toNat * 2 ^ 16 := by
  have hle : len ≤ size <<< 16 := UInt32.not_lt.mp hlen
  have hshift : (size <<< 16).toNat = size.toNat * 2 ^ 16 % 2 ^ 32 := by
    rw [UInt32.toNat_shiftLeft, Nat.shiftLeft_eq]
    rfl
  have hoff' : off.toNat ≤ (size <<< 16 - len).toNat :=
    UInt32.le_iff_toNat_le.mp (UInt32.not_lt.mp hoff)
  rw [UInt32.toNat_sub_of_le _ _ hle] at hoff'
  have hlen' : len.toNat ≤ (size <<< 16).toNat := UInt32.le_iff_toNat_le.mp hle
  omega

/-- A length up to INT_MAX is the same as an int. -/
theorem toInt_toInt32 {len : UInt32} (h : len.toNat ≤ 0x7fffffff) :
    len.toInt32.toInt = len.toNat := by
  change len.toBitVec.toInt = len.toBitVec.toNat
  have h' : len.toBitVec.toNat ≤ 0x7fffffff := h
  rw [BitVec.toInt_eq_toNat_of_lt]
  omega

theorem edge_le_intMax {off : Int32} {len : UInt32} (hlen : ¬ len > intMax)
    (hoff : ¬ off > intMax.toInt32 - len.toInt32) : off.toInt + len.toNat ≤ 0x7fffffff := by
  have hle : len.toNat ≤ 0x7fffffff := UInt32.le_iff_toNat_le.mp (UInt32.not_lt.mp hlen)
  have hoff' : off.toInt ≤ (intMax.toInt32 - len.toInt32).toInt :=
    Int32.le_iff_toInt_le.mp (Int32.not_lt.mp hoff)
  have hmax : intMax.toInt32.toInt = 0x7fffffff := by decide
  rw [Int32.toInt_sub, toInt_toInt32 hle, Int.bmod_eq_of_le (by omega) (by omega)] at hoff'
  omega

variable {nc np : ℕ}

theorem check_eq_zero {r : DrmModeSetPlane} {plane : DrmPlane} {fb : DrmFramebuffer}
    (h : r.check plane fb = 0) : r.update.SourceInside fb ∧ r.update.DestinationFits := by
  unfold DrmModeSetPlane.check at h
  by_cases hformat : fb.pixelFormat ∉ plane.formatTypes
  · rw [if_pos hformat] at h
    exact absurd h (by decide)
  · rw [if_neg hformat] at h
    split at h
    · exact absurd h (by decide)
    · rename_i hsrc
      split at h
      · exact absurd h (by decide)
      · rename_i hdst
        simp only [Bool.or_eq_true, decide_eq_true_eq, not_or] at hsrc hdst
        obtain ⟨⟨⟨hsw, hsx⟩, hsh⟩, hsy⟩ := hsrc
        obtain ⟨⟨⟨hdw, hdx⟩, hdh⟩, hdy⟩ := hdst
        exact ⟨⟨span_le_shifted hsw hsx, span_le_shifted hsh hsy⟩,
          ⟨edge_le_intMax hdw hdx, edge_le_intMax hdh hdy⟩⟩

theorem framebufferLookup_fb (s : FbState nc np) (id : ℕ) :
    (s.framebufferLookup id).2.fb = s.fb := by
  unfold FbState.framebufferLookup
  split <;> rfl

/-- Whatever drm_mode_setplane hands to the driver lies in the framebuffer and does not overflow
the coordinates. -/
theorem setplane_inside (s : FbState nc np) (r : DrmModeSetPlane) (p : Fin np) (x : ℕ)
    (h : (s.setplane r).1 = some (.updatePlane p x)) :
    r.update.SourceInside (s.fb x) ∧ r.update.DestinationFits := by
  unfold FbState.setplane at h
  split at h
  · split at h
    · cases h
    · split at h
      · have hfb := framebufferLookup_fb s r.fbId
        split at h
        · cases h
        · rename_i y s' hlookup
          rw [hlookup] at hfb
          split at h
          · rename_i hcheck
            cases h
            rw [hfb] at hcheck
            exact check_eq_zero hcheck
          · cases h
      · cases h
  · cases h

/-- A framebuffer of 64x32 with id 4 at address 7. -/
def withFb : FbState 1 1 := loaded.framebufferInit 7 { width := 64, height := 32 } true

/-- All of it is shown at the left edge, half off the screen. -/
def showFb : DrmModeSetPlane where
  planeId := 2
  crtcId := 1
  fbId := 4
  crtcX := -32
  crtcW := 64
  crtcH := 32
  srcW := 0x400000
  srcH := 0x200000

theorem setplane_inside_whole :
    showFb.update.SourceInside (withFb.fb 7) ∧ showFb.update.DestinationFits :=
  setplane_inside withFb showFb 0 7 (by decide +kernel)

end GfxDrm.Framebuffer
