import GfxDrm.Fence.Ops
import GfxDrm.Lib.Word

/-! Bytes of a surface that is stored in tiles of `w` bytes by `h` rows, one tile after another. -/

namespace GfxDrm.Tiled

/-- The first byte of the tile that holds byte `x` of row `y`. -/
def base (w h pitch x y : ℕ) : ℕ := y / h * (h * pitch) + x / w * (w * h)

def addr (w h pitch x y : ℕ) : ℕ := base w h pitch x y + (y % h * w + x % w)

variable {w h : ℕ}

theorem base_mod (hw : 0 < w) (hh : 0 < h) (pitch x y : ℕ) :
    base w h pitch (x % w) (y % h) = 0 := by
  rw [base, Nat.div_eq_of_lt (Nat.mod_lt x hw), Nat.div_eq_of_lt (Nat.mod_lt y hh), Nat.zero_mul,
    Nat.zero_mul]

/-- A place in the surface is its tile and the place in the first tile. -/
theorem base_add_addr_mod (hw : 0 < w) (hh : 0 < h) (pitch x y : ℕ) :
    base w h pitch x y + addr w h pitch (x % w) (y % h) = addr w h pitch x y := by
  rw [addr, base_mod hw hh, Nat.zero_add, Nat.mod_mod, Nat.mod_mod, addr]

end GfxDrm.Tiled

/-! The page that a plane is scanned out from (intel_display.c). -/

namespace GfxDrm.Display
open Fence (tilingNone tilingX)

structure PageOffset where
  /-- Returned as an `unsigned long`. -/
  offset : BitVec 64
  x : BitVec 32
  y : BitVec 32
  deriving DecidableEq, Repr

/-- `x` and `y` are `int`s, the others are unsigned. -/
def intelGen4ComputePageOffset (x y tilingMode cpp pitch : BitVec 32) : PageOffset :=
  if tilingMode ≠ tilingNone then
    let tileRows := y.sdiv 8
    let tiles := x / (512 / cpp)
    { offset := (tileRows * pitch * 8 + tiles * 4096).setWidth 64
      x := x % (512 / cpp)
      y := y.srem 8 }
  else
    let offset := y * pitch + x * cpp
    { offset := (offset &&& -4096).setWidth 64
      x := (offset &&& 4095) / cpp
      y := 0 }

/-- The byte of the surface where pixel `x` of row `y` begins; X tiles have 512 bytes by 8 rows. -/
def surfaceAddr (tilingMode : BitVec 32) (cpp pitch x y : ℕ) : ℕ :=
  if tilingMode = tilingX then Tiled.addr 512 8 pitch (x * cpp) y else y * pitch + x * cpp

/-- The page begins at a multiple of its size, and from it on the adjusted pixel is the one that
was asked for, within one tile or one page. -/
structure Adjusted (tilingMode cpp pitch x y : BitVec 32) (r : PageOffset) : Prop where
  aligned : 4096 ∣ r.offset.toNat
  same : r.offset.toNat + surfaceAddr tilingMode cpp.toNat pitch.toNat r.x.toNat r.y.toNat =
    surfaceAddr tilingMode cpp.toNat pitch.toNat x.toNat y.toNat
  tiled : tilingMode = tilingX → r.y.toNat < 8 ∧ r.x.toNat < 512 / cpp.toNat
  linear : tilingMode = tilingNone → r.y = 0 ∧ r.x.toNat < 4096 / cpp.toNat

variable {tilingMode cpp pitch x y : BitVec 32}

theorem msb_of_nonneg (h : 0 ≤ x.toInt) : x.msb = false := by
  rw [BitVec.msb_eq_false_iff_two_mul_lt]
  have := mt BitVec.toInt_neg_iff.mpr (Int.not_lt.mpr h)
  omega

theorem toNat_sdiv_eight (h : 0 ≤ y.toInt) : (y.sdiv 8).toNat = y.toNat / 8 := by
  rw [BitVec.sdiv_eq, msb_of_nonneg h]
  exact BitVec.toNat_udiv

theorem toNat_srem_eight (h : 0 ≤ y.toInt) : (y.srem 8).toNat = y.toNat % 8 := by
  rw [BitVec.srem_eq, msb_of_nonneg h]
  exact BitVec.toNat_umod

theorem toNat_and_page (v : BitVec 32) : (v &&& 4095).toNat = v.toNat % 4096 := by
  exact Nat.and_two_pow_sub_one_eq_mod v.toNat 12

theorem toNat_and_not_page (v : BitVec 32) : (v &&& -4096).toNat = v.toNat / 4096 * 4096 := by
  have hlt : v.toNat / 2 ^ 12 < 2 ^ 20 := Nat.div_lt_of_lt_mul v.isLt
  refine (BitField.and_mask v.toNat 12 20).trans ?_
  rw [Nat.shiftLeft_eq, Nat.mod_eq_of_lt hlt]
  rfl

theorem toNat_setWidth_long (v : BitVec 32) : (v.setWidth 64).toNat = v.toNat := by
  rw [BitVec.toNat_setWidth]
  exact Nat.mod_eq_of_lt (v.isLt.trans (by decide))

theorem cpp_pos {c : ℕ} (hcpp : c ∣ 512) : 0 < c := Nat.pos_of_dvd_of_pos hcpp (by decide)

/-! ### Tiles -/

theorem tile_column {c : ℕ} (hcpp : c ∣ 512) (x : ℕ) : x * c / 512 = x / (512 / c) := by
  have h := Nat.mul_div_mul_right x (512 / c) (cpp_pos hcpp)
  rwa [Nat.div_mul_cancel hcpp] at h

theorem byte_in_tile {c : ℕ} (hcpp : c ∣ 512) (x : ℕ) : x % (512 / c) * c = x * c % 512 := by
  have h := Nat.mul_mod_mul_right c x (512 / c)
  rw [Nat.div_mul_cancel hcpp] at h
  exact h.symm

/-- The sum is taken in 32 bits. -/
theorem tiled_offset (x pitch : BitVec 32) (hy : 0 ≤ y.toInt) (hcpp : cpp.toNat ∣ 512)
    (ht : tilingMode ≠ tilingNone) :
    (intelGen4ComputePageOffset x y tilingMode cpp pitch).offset.toNat =
      Tiled.base 512 8 pitch.toNat (x.toNat * cpp.toNat) y.toNat % 2 ^ 32 := by
  rw [intelGen4ComputePageOffset, if_pos ht]
  rw [toNat_setWidth_long, Tiled.base, tile_column hcpp]
  simp only [BitVec.toNat_add, BitVec.toNat_mul, toNat_sdiv_eight hy,
    Nat.mod_mul_mod, Nat.mod_add_mod, Nat.add_mod_mod]
  change (y.toNat / 8 * pitch.toNat * 8 + x.toNat / (512 / cpp.toNat) * 4096) % 2 ^ 32 = _
  rw [Nat.mul_assoc, Nat.mul_comm pitch.toNat]

theorem tiled_base_dvd {p : ℕ} (hp : 512 ∣ p) (x y : ℕ) : 4096 ∣ Tiled.base 512 8 p x y := by
  apply Nat.dvd_add
  · exact Dvd.dvd.mul_left (Nat.mul_dvd_mul_left 8 hp) _
  · exact Nat.dvd_mul_left 4096 _

theorem tiled_adjusted_iff (hy : 0 ≤ y.toInt) (hcpp : cpp.toNat ∣ 512)
    (hpitch : 512 ∣ pitch.toNat) :
    Adjusted tilingX cpp pitch x y (intelGen4ComputePageOffset x y tilingX cpp pitch) ↔
      Tiled.base 512 8 pitch.toNat (x.toNat * cpp.toNat) y.toNat < 2 ^ 32 := by
  have ht : tilingX ≠ tilingNone := by decide
  have hoff := tiled_offset x pitch hy hcpp ht
  have hx' : (intelGen4ComputePageOffset x y tilingX cpp pitch).x.toNat =
      x.toNat % (512 / cpp.toNat) := by
    exact BitVec.toNat_umod
  have hy' : (intelGen4ComputePageOffset x y tilingX cpp pitch).y.toNat = y.toNat % 8 := by
    exact toNat_srem_eight hy
  have hsplit := Tiled.base_add_addr_mod (w := 512) (h := 8) (by decide) (by decide)
    pitch.toNat (x.toNat * cpp.toNat) y.toNat
  constructor
  · intro hadj
    have hsame := hadj.same
    rw [surfaceAddr, surfaceAddr, hoff, hx', hy', byte_in_tile hcpp,
      ← hsplit] at hsame
    have hbase := Nat.add_right_cancel hsame
    rw [← hbase]
    exact Nat.mod_lt _ (by decide)
  · intro hlt
    rw [Nat.mod_eq_of_lt hlt] at hoff
    refine ⟨?_, ?_, ?_, fun h => absurd h ht⟩
    · rw [hoff]
      exact tiled_base_dvd hpitch _ _
    · rw [surfaceAddr, surfaceAddr, if_pos rfl, if_pos rfl, hoff, hx', hy', byte_in_tile hcpp,
        hsplit]
    · intro _
      rw [hy']
      have hpos : 0 < 512 / cpp.toNat :=
        Nat.div_pos (Nat.le_of_dvd (by decide) hcpp) (cpp_pos hcpp)
      exact ⟨Nat.mod_lt _ (by decide), Nat.mod_lt _ hpos⟩

/-! ### Lines -/

theorem linear_adjusted (hcpp : cpp.toNat ∣ 512) (hpitch : cpp.toNat ∣ pitch.toNat)
    (hlt : y.toNat * pitch.toNat + x.toNat * cpp.toNat < 2 ^ 32) :
    Adjusted tilingNone cpp pitch x y
      (intelGen4ComputePageOffset x y tilingNone cpp pitch) := by
  have hne : tilingNone ≠ tilingX := by decide
  have hv : (y * pitch + x * cpp).toNat = y.toNat * pitch.toNat + x.toNat * cpp.toNat := by
    rw [BitVec.toNat_add, BitVec.toNat_mul, BitVec.toNat_mul, Nat.mod_add_mod, Nat.add_mod_mod]
    exact Nat.mod_eq_of_lt hlt
  -- The pixels of a page begin at multiples of `cpp`, as the page itself does.
  have hc4096 : cpp.toNat ∣ 4096 := hcpp.trans (by decide)
  have hdvd : cpp.toNat ∣ (y * pitch + x * cpp).toNat % 4096 := by
    rw [Nat.dvd_mod_iff hc4096, hv]
    exact Nat.dvd_add (Dvd.dvd.mul_left hpitch _) (Nat.dvd_mul_left _ _)
  have hoff : (intelGen4ComputePageOffset x y tilingNone cpp pitch).offset.toNat =
      (y * pitch + x * cpp).toNat / 4096 * 4096 := by
    exact (toNat_setWidth_long _).trans (toNat_and_not_page _)
  have hx' : (intelGen4ComputePageOffset x y tilingNone cpp pitch).x.toNat =
      (y * pitch + x * cpp).toNat % 4096 / cpp.toNat := by
    rw [← toNat_and_page]
    exact BitVec.toNat_udiv
  have hy' : (intelGen4ComputePageOffset x y tilingNone cpp pitch).y = 0 := by
    rw [intelGen4ComputePageOffset, if_neg (not_not.mpr rfl)]
  refine ⟨?_, ?_, fun h => absurd h hne, ?_⟩
  · rw [hoff]
    exact Nat.dvd_mul_left _ _
  · rw [surfaceAddr, surfaceAddr, hoff, hx', Nat.div_mul_cancel hdvd,
      ← hv]
    change _ + (0 * _ + _) = _
    rw [Nat.zero_mul, Nat.zero_add]
    exact Nat.div_add_mod' _ _
  · intro _
    refine ⟨hy', ?_⟩
    rw [hx']
    exact Nat.div_lt_div_of_lt_of_dvd hc4096 (Nat.mod_lt _ (by decide))

/-- Pixel 2^27 of the first row of a tiled surface with rows of 512 bytes: its tile begins at byte
2^32. -/
theorem intelGen4ComputePageOffset_far_tile :
    let r := intelGen4ComputePageOffset 0x8000000 0 tilingX 4 512
    0x8000000 * 4 < 2 ^ 32 ∧ r = { offset := 0, x := 0, y := 0 } ∧
      ¬ Adjusted tilingX 4 512 0x8000000 0 r := by
  intro r
  have hr : r = { offset := 0, x := 0, y := 0 } := by decide
  refine ⟨by decide, hr, ?_⟩
  intro hadj
  have hsame := hadj.same
  exact absurd hsame (by decide)

/-- In the tiled layout the page has to be within 32 bits itself: a pixel beyond the end of its
row is in a tile far behind the byte that it would be in a line. -/
theorem intelGen4ComputePageOffset_adjusts_iff (hy : 0 ≤ y.toInt)
    (hmode : tilingMode = tilingNone ∨ tilingMode = tilingX) (hcpp : cpp.toNat ∣ 512)
    (hpitch : cpp.toNat ∣ pitch.toNat) (htiled : tilingMode = tilingX → 512 ∣ pitch.toNat)
    (hlt : y.toNat * pitch.toNat + x.toNat * cpp.toNat < 2 ^ 32) :
    Adjusted tilingMode cpp pitch x y (intelGen4ComputePageOffset x y tilingMode cpp pitch) ↔
      (tilingMode = tilingX →
        Tiled.base 512 8 pitch.toNat (x.toNat * cpp.toNat) y.toNat < 2 ^ 32) := by
  rcases hmode with rfl | rfl
  · constructor
    · intro _ h
      exact absurd h (by decide)
    · intro _
      exact linear_adjusted hcpp hpitch hlt
  · rw [tiled_adjusted_iff hy hcpp (htiled rfl)]
    exact ⟨fun h _ => h, fun h => h rfl⟩

/-- Pixel 200 of row 21 in tiles, with rows of 8192 bytes. -/
theorem intelGen4ComputePageOffset_adjusts_at :
    Adjusted tilingX 4 8192 200 21 (intelGen4ComputePageOffset 200 21 tilingX 4 8192) :=
  (intelGen4ComputePageOffset_adjusts_iff (by decide) (Or.inr rfl) (by decide) (by decide)
    (fun _ => by decide) (by decide)).mpr fun _ => by decide

end GfxDrm.Display
