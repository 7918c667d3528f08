import GfxDrm.Errno
import Mathlib.Data.BitVec

/-! Creating an object of a given size, and a buffer for a given resolution
(i915_gem_create, i915_gem_dumb_create). -/

namespace GfxDrm.Gem

open Errno

/-- `roundup(x, PAGE_SIZE)` on 64 bits. -/
def roundupPage (x : BitVec 64) : BitVec 64 := (x + (4096 - 1)) / 4096 * 4096

/-- `ALIGN(x, a)` on 32 bits. -/
def align (x a : BitVec 32) : BitVec 32 := (x + (a - 1)) &&& ~~~(a - 1)

/-- Whether `i915_gem_alloc_object` has the memory, and what `drm_gem_handle_create` returns. -/
structure CreateOutcome where
  alloc : Bool
  handle : Except ℤ (BitVec 32)

structure CreatedObject where
  size : BitVec 64
  handle : BitVec 32
  deriving DecidableEq, Repr

/-- i915_gem_create. -/
def i915GemCreate (out : CreateOutcome) (size : BitVec 64) : Except ℤ CreatedObject :=
  let size := roundupPage size
  if size = 0 then .error eInval
  else if out.alloc = false then .error eNomem
  else match out.handle with
    | .error ret => .error ret
    | .ok handle => .ok { size, handle }

/-- struct drm_mode_create_dumb. -/
structure DumbArgs where
  height : BitVec 32
  width : BitVec 32
  bpp : BitVec 32
  handle : BitVec 32 := 0
  pitch : BitVec 32 := 0
  size : BitVec 64 := 0
  deriving DecidableEq, Repr

/-- `pitch` and `size` as i915_gem_dumb_create works them out. -/
def DumbArgs.workOut (args : DumbArgs) : DumbArgs :=
  let pitch := align (args.width * ((args.bpp + 7) / 8)) 64
  { args with pitch := pitch, size := (pitch * args.height).setWidth 64 }

/-- i915_gem_dumb_create; with the handle goes the object it stands for. -/
def i915GemDumbCreate (out : CreateOutcome) (args : DumbArgs) :
    Except ℤ (DumbArgs × CreatedObject) :=
  let args := args.workOut
  match i915GemCreate out args.size with
  | .error ret => .error ret
  | .ok obj => .ok ({ args with handle := obj.handle }, obj)

/-- What a client may rely on when the call succeeds. -/
structure DumbFits (args : DumbArgs) (obj : CreatedObject) : Prop where
  pitch_ge : args.width.toNat * ((args.bpp.toNat + 7) / 8) ≤ args.pitch.toNat
  pitch_dvd : 64 ∣ args.pitch.toNat
  size_ge : args.pitch.toNat * args.height.toNat ≤ args.size.toNat
  holds : args.pitch.toNat * args.height.toNat ≤ obj.size.toNat

/-- The bytes of a row of the buffer, as unbounded numbers. -/
def DumbArgs.rowBytes (args : DumbArgs) : ℕ :=
  (args.width.toNat * ((args.bpp.toNat + 7) / 8) + 63) / 64 * 64

/-! ### Rounding -/

theorem and_not_63 (x : BitVec 32) : x &&& ~~~(64 - 1 : BitVec 32) = (x >>> 6) <<< 6 := by
  apply BitVec.eq_of_getLsbD_eq
  intro i hi
  have hmask : ∀ j < 32, (~~~(64 - 1 : BitVec 32)).getLsbD j = decide (6 ≤ j) := by decide
  rw [BitVec.getLsbD_and, hmask i hi, BitVec.getLsbD_shiftLeft, BitVec.getLsbD_ushiftRight]
  by_cases h6 : i < 6
  · simp [h6]
  · rw [show 6 + (i - 6) = i from by omega]
    simp [h6, hi]
    omega

/-- As long as adding 63 does not wrap, `ALIGN` rounds up to the next multiple of 64. -/
theorem align_toNat (x : BitVec 32) :
    (align x 64).toNat = (x.toNat + 63) % 2 ^ 32 / 64 * 64 := by
  rw [align, and_not_63, BitVec.toNat_shiftLeft, BitVec.toNat_ushiftRight, BitVec.toNat_add]
  have h63 : (64 - 1 : BitVec 32).toNat = 63 := by decide
  rw [h63]
  omega

theorem align_dvd (x : BitVec 32) : 64 ∣ (align x 64).toNat := by
  rw [align_toNat]
  exact Nat.dvd_mul_left 64 _

theorem roundupPage_toNat (x : BitVec 64) :
    (roundupPage x).toNat = (x.toNat + 4095) % 2 ^ 64 / 4096 * 4096 := by
  have h95 : (4096 - 1 : BitVec 64).toNat = 4095 := by decide
  have h96 : (4096 : BitVec 64).toNat = 4096 := by decide
  rw [roundupPage, BitVec.toNat_mul, BitVec.toNat_udiv, BitVec.toNat_add, h95, h96]
  omega

variable {out : CreateOutcome} {obj : CreatedObject}

/-- An object is never smaller than what was asked for. -/
theorem i915GemCreate_size {size : BitVec 64} (h : i915GemCreate out size = .ok obj) :
    obj.size = roundupPage size ∧ obj.size ≠ 0 ∧ size.toNat ≤ obj.size.toNat := by
  unfold i915GemCreate at h
  by_cases hzero : roundupPage size = 0
  · rw [if_pos hzero] at h
    cases h
  · rw [if_neg hzero] at h
    split at h
    · cases h
    · split at h
      · cases h
      · cases h
        refine ⟨rfl, hzero, ?_⟩
        have hne : (roundupPage size).toNat ≠ 0 := fun h => hzero (BitVec.eq_of_toNat_eq h)
        rw [roundupPage_toNat] at hne ⊢
        omega

theorem i915GemDumbCreate_ok {args args' : DumbArgs}
    (h : i915GemDumbCreate out args = .ok (args', obj)) :
    args' = { args.workOut with handle := obj.handle } ∧
      i915GemCreate out args.workOut.size = .ok obj := by
  unfold i915GemDumbCreate at h
  dsimp only at h
  split at h
  · cases h
  · rename_i hcreate
    cases h
    exact ⟨rfl, hcreate⟩

/-! ### What the 32-bit products are -/

theorem DumbArgs.workOut_pitch (args : DumbArgs) :
    args.workOut.pitch.toNat =
      (args.width.toNat * ((args.bpp.toNat + 7) % 2 ^ 32 / 8) % 2 ^ 32 + 63) % 2 ^ 32 / 64 * 64 := by
  have h7 : (7 : BitVec 32).toNat = 7 := by decide
  have h8 : (8 : BitVec 32).toNat = 8 := by decide
  change (align (args.width * ((args.bpp + 7) / 8)) 64).toNat = _
  rw [align_toNat, BitVec.toNat_mul, BitVec.toNat_udiv, BitVec.toNat_add, h7, h8]

theorem DumbArgs.workOut_size (args : DumbArgs) :
    args.workOut.size.toNat = args.workOut.pitch.toNat * args.height.toNat % 2 ^ 32 := by
  change ((args.workOut.pitch * args.height).setWidth 64).toNat = _
  rw [BitVec.toNat_setWidth]
  exact Nat.mod_eq_of_lt ((Nat.mod_lt _ (by decide)).trans (by decide))

/-- A buffer that was created has a size, so neither factor of it is zero. -/
theorem DumbArgs.size_pos {args : DumbArgs} (h : i915GemCreate out args.workOut.size = .ok obj) :
    args.workOut.pitch.toNat ≠ 0 ∧ 0 < args.height.toNat := by
  have hsize : args.workOut.size.toNat ≠ 0 := by
    intro hzero
    have hz : args.workOut.size = 0 := BitVec.eq_of_toNat_eq hzero
    rw [hz] at h
    cases h
  rw [DumbArgs.workOut_size] at hsize
  constructor
  · intro hp
    rw [hp, Nat.zero_mul] at hsize
    exact hsize rfl
  · apply Nat.pos_of_ne_zero
    intro hh
    rw [hh] at hsize
    exact hsize rfl

/-- Where the pitch is not zero, it is the row's bytes as soon as these fit in 32 bits. -/
theorem DumbArgs.pitch_eq_rowBytes {args : DumbArgs} (hp : args.workOut.pitch.toNat ≠ 0)
    (hrow : args.width.toNat * ((args.bpp.toNat + 7) / 8) < 2 ^ 32) :
    args.workOut.pitch.toNat = args.rowBytes := by
  have hpitch := args.workOut_pitch
  have hbpp : args.bpp.toNat + 7 < 2 ^ 32 := by
    by_contra hge
    have hzero : (args.bpp.toNat + 7) % 2 ^ 32 / 8 = 0 := by omega
    rw [hzero, Nat.mul_zero] at hpitch
    exact hp hpitch
  rw [Nat.mod_eq_of_lt hbpp] at hpitch
  unfold DumbArgs.rowBytes
  omega

/-- A dumb buffer that is created is as large as it has to be exactly when the bytes of all its
rows fit in 32 bits. -/
theorem dumbCreate_fits_iff {out : CreateOutcome} {args args' : DumbArgs} {obj : CreatedObject}
    (h : i915GemDumbCreate out args = .ok (args', obj)) :
    DumbFits args' obj ↔ args.rowBytes * args.height.toNat < 2 ^ 32 := by
  obtain ⟨rfl, hcreate⟩ := i915GemDumbCreate_ok h
  obtain ⟨hp, hh⟩ := DumbArgs.size_pos hcreate
  have hobj := (i915GemCreate_size hcreate).2.2
  have hsize := args.workOut_size
  constructor
  · intro hfits
    have hrow : args.width.toNat * ((args.bpp.toNat + 7) / 8) < 2 ^ 32 :=
      hfits.pitch_ge.trans_lt args.workOut.pitch.isLt
    have hge : args.workOut.pitch.toNat * args.height.toNat ≤ args.workOut.size.toNat :=
      hfits.size_ge
    rw [← DumbArgs.pitch_eq_rowBytes hp hrow]
    exact hge.trans_lt (Nat.mod_lt _ (by decide))
  · intro hlt
    have hrowlt : args.rowBytes < 2 ^ 32 := (Nat.le_mul_of_pos_right _ hh).trans_lt hlt
    have hle : args.width.toNat * ((args.bpp.toNat + 7) / 8) ≤ args.rowBytes := by
      unfold DumbArgs.rowBytes
      omega
    have hpitch := DumbArgs.pitch_eq_rowBytes hp (hle.trans_lt hrowlt)
    rw [hpitch, Nat.mod_eq_of_lt hlt] at hsize
    refine ⟨?_, align_dvd _, ?_, ?_⟩
    · exact hle.trans hpitch.ge
    · change args.workOut.pitch.toNat * args.height.toNat ≤ args.workOut.size.toNat
      rw [hpitch, hsize]
    · change args.workOut.pitch.toNat * args.height.toNat ≤ obj.size.toNat
      rw [hpitch, ← hsize]
      exact hobj

theorem dumbCreate_fits_iff_vga :
    DumbFits ⟨480, 640, 32, 1, 2560, 1228800⟩ ⟨1228800, 1⟩ ↔
      (⟨480, 640, 32, 0, 0, 0⟩ : DumbArgs).rowBytes * (480 : BitVec 32).toNat < 2 ^ 32 :=
  @dumbCreate_fits_iff ⟨true, .ok 1⟩ ⟨480, 640, 32, 0, 0, 0⟩ _ _ rfl

/-- 32768 pixels by 32769 rows of four bytes each: the buffer gets a single row. -/
theorem dumbCreate_too_small : ¬ ∀ (out : CreateOutcome) (args args' : DumbArgs)
    (obj : CreatedObject), i915GemDumbCreate out args = .ok (args', obj) →
      DumbFits args' obj := by
  intro hall
  have hfits := hall ⟨true, .ok 1⟩ ⟨32769, 32768, 32, 0, 0, 0⟩
    ⟨32769, 32768, 32, 1, 131072, 131072⟩ ⟨131072, 1⟩ rfl
  exact absurd hfits.size_ge (by decide)

end GfxDrm.Gem
