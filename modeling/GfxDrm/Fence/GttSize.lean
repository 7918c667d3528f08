import GfxDrm.Fence.Placed
import GfxDrm.Gem.Create

/-! The size of an object's region in the GTT against the size it was created with
(i915_gem_get_gtt_size). -/

namespace GfxDrm.Fence

/-- The loop has ended with the smallest power of two that is no smaller than the object and
than the generation's smallest fence. -/
def FenceDev.GttSizeRight (dev : FenceDev) (size : ℕ) (tiled : Bool) : Prop :=
  ∃ k, dev.getGttSize size tiled = some k ∧
    (dev.gen < 4 → tiled = true →
      IsLeast {p | (∃ m, p = 2 ^ m) ∧ size ≤ p ∧ dev.minFenceSize ≤ p} k)

/-- From a power of two the loop ends at the least one that the size fits in, where there is one
of 32 bits. -/
theorem growGttSize_least {fuel n size : ℕ} (hn : n ≤ 31) (hsize : size ≤ 2 ^ 31)
    (hfuel : 31 - n < fuel) :
    ∃ m, growGttSize fuel (2 ^ n) size = some (2 ^ m) ∧ n ≤ m ∧ size ≤ 2 ^ m ∧
      ∀ j, n ≤ j → size ≤ 2 ^ j → m ≤ j := by
  induction fuel generalizing n with
  | zero => omega
  | succ fuel ih =>
    unfold growGttSize
    by_cases hlt : 2 ^ n < size
    · have hn31 : n < 31 := by
        rcases Nat.lt_or_ge n 31 with h | h
        · exact h
        · have := Nat.pow_le_pow_right (show 0 < 2 from by decide) h
          omega
      have hpow : 2 ^ n * 2 % 2 ^ 32 = 2 ^ (n + 1) := by
        rw [← Nat.pow_succ]
        exact Nat.mod_eq_of_lt (Nat.pow_lt_pow_right (by decide) (by omega))
      rw [if_pos hlt, hpow]
      obtain ⟨m, hm, hle, hfit, hleast⟩ := @ih (n + 1) hn31 (by omega)
      refine ⟨m, hm, by omega, hfit, ?_⟩
      intro j hj hsizej
      rcases Nat.eq_or_lt_of_le hj with rfl | h
      · omega
      · exact hleast j h hsizej
    · rw [if_neg hlt]
      exact ⟨n, rfl, Nat.le_refl n, by omega, fun j hj _ => hj⟩

variable {dev : FenceDev}

theorem FenceDev.minFenceSize_eq (dev : FenceDev) :
    ∃ n, n ≤ 31 ∧ dev.minFenceSize = 2 ^ n := by
  obtain ⟨n, hn, hmin⟩ := dev.minFenceSize_pow
  exact ⟨n, by omega, hmin⟩

theorem FenceDev.getGttSize_old (hgen : dev.gen < 4) (size : ℕ) :
    dev.getGttSize size true = growGttSize 33 dev.minFenceSize (size % 2 ^ 32) := by
  rw [FenceDev.getGttSize, if_neg]
  simp only [Bool.true_eq_false, or_false]
  omega

/-- The older generations' loop ends exactly for sizes of which the low 32 bits are at most
half of what these can hold. -/
theorem FenceDev.getGttSize_ends_iff (hgen : dev.gen < 4) (size : ℕ) :
    dev.getGttSize size true ≠ none ↔ size % 2 ^ 32 ≤ 2 ^ 31 := by
  obtain ⟨n, hn, hmin⟩ := dev.minFenceSize_eq
  rw [FenceDev.getGttSize_old hgen, hmin]
  constructor
  · intro hne
    obtain ⟨k, hk⟩ := Option.ne_none_iff_exists'.mp hne
    obtain ⟨m, -, hm, rfl, hfit⟩ := growGttSize_some hk (by omega)
    exact hfit.trans (Nat.pow_le_pow_right (by decide) (by omega))
  · intro hle
    obtain ⟨m, hm, -⟩ := @growGttSize_least 33 n _ hn hle (by omega)
    rw [hm]
    exact Option.some_ne_none _

theorem FenceDev.gttSizeRight_new {size : ℕ} {tiled : Bool} (h : 4 ≤ dev.gen ∨ tiled = false) :
    dev.GttSizeRight size tiled := by
  refine ⟨size % 2 ^ 32, ?_, ?_⟩
  · rw [FenceDev.getGttSize, if_pos h]
  · intro hgen htiled
    rw [htiled] at h
    simp only [Bool.true_eq_false, or_false] at h
    omega

theorem FenceDev.gttSizeRight_old (hgen : dev.gen < 4) (size : ℕ) :
    dev.GttSizeRight size true ↔ size ≤ 2 ^ 31 := by
  obtain ⟨n, hn, hmin⟩ := dev.minFenceSize_eq
  constructor
  · rintro ⟨k, hk, hleast⟩
    have hfit := (hleast hgen rfl).1.2.1
    rw [FenceDev.getGttSize_old hgen, hmin] at hk
    obtain ⟨m, -, hm, rfl, -⟩ := growGttSize_some hk (by omega)
    exact hfit.trans (Nat.pow_le_pow_right (by decide) (by omega))
  · intro hle
    have hlow : size % 2 ^ 32 = size := Nat.mod_eq_of_lt (by omega)
    obtain ⟨m, hm, hnm, hfit, hleast⟩ := @growGttSize_least 33 n size hn hle (by omega)
    refine ⟨2 ^ m, ?_, ?_⟩
    · rw [FenceDev.getGttSize_old hgen, hmin, hlow, hm]
    · intro _ _
      rw [hmin]
      refine ⟨⟨⟨m, rfl⟩, hfit, Nat.pow_le_pow_right (by decide) hnm⟩, ?_⟩
      rintro p ⟨⟨j, rfl⟩, hp, hminp⟩
      have hnj : n ≤ j := (Nat.pow_le_pow_iff_right (by decide)).mp hminp
      exact Nat.pow_le_pow_right (by decide) (hleast j hnj hp)

/-- For an object of any size the loop ends, and the region is right, unless an older generation
has the object tiled and its size exceeds 2 GiB; of such a size only the low 32 bits decide
whether the loop ends. -/
theorem FenceDev.gttSizeRight_iff (dev : FenceDev) (size : ℕ) (tiling : BitVec 32) :
    ((∃ fuel, growGttSize fuel dev.minFenceSize (size % 2 ^ 32) ≠ none) ↔
        size % 2 ^ 32 ≤ 2 ^ 31) ∧
      (dev.getGttSize size (tiling != tilingNone) ≠ none ↔
        4 ≤ dev.gen ∨ tiling = tilingNone ∨ size % 2 ^ 32 ≤ 2 ^ 31) ∧
      (dev.GttSizeRight size (tiling != tilingNone) ↔
        4 ≤ dev.gen ∨ tiling = tilingNone ∨ size ≤ 2 ^ 31) := by
  obtain ⟨n, hn, hmin⟩ := dev.minFenceSize_eq
  have hloop : (∃ fuel, growGttSize fuel dev.minFenceSize (size % 2 ^ 32) ≠ none) ↔
      size % 2 ^ 32 ≤ 2 ^ 31 := by
    rw [hmin]
    constructor
    · rintro ⟨fuel, hne⟩
      obtain ⟨k, hk⟩ := Option.ne_none_iff_exists'.mp hne
      obtain ⟨m, -, hm, rfl, hfit⟩ := growGttSize_some hk (by omega)
      exact hfit.trans (Nat.pow_le_pow_right (by decide) (by omega))
    · intro hle
      obtain ⟨m, hm, -⟩ := @growGttSize_least 33 n _ hn hle (by omega)
      exact ⟨33, by rw [hm]; exact Option.some_ne_none _⟩
  refine ⟨hloop, ?_⟩
  by_cases hnew : 4 ≤ dev.gen ∨ tiling = tilingNone
  · have htiled : 4 ≤ dev.gen ∨ (tiling != tilingNone) = false := by
      rcases hnew with h | rfl
      · exact Or.inl h
      · exact Or.inr rfl
    have hright : dev.GttSizeRight size (tiling != tilingNone) :=
      FenceDev.gttSizeRight_new htiled
    obtain ⟨k, hk, -⟩ := id hright
    refine ⟨iff_of_true ?_ ?_, iff_of_true hright ?_⟩
    · rw [hk]
      exact Option.some_ne_none k
    · rw [← or_assoc]
      exact Or.inl hnew
    · rw [← or_assoc]
      exact Or.inl hnew
  · obtain ⟨hold, htiled⟩ := not_or.mp hnew
    have htrue : (tiling != tilingNone) = true := bne_iff_ne.mpr htiled
    rw [htrue, ← or_assoc, ← or_assoc, or_iff_right hnew, or_iff_right hnew]
    exact ⟨FenceDev.getGttSize_ends_iff (by omega) size,
      FenceDev.gttSizeRight_old (by omega) size⟩

/-- An object of one page more than 2 GiB may be X-tiled, since the size is checked as a negative
number, and the loop for its region does not end. -/
theorem gen3Dev_gttSize_hangs : ¬ ∀ (dev : FenceDev) (out : Gem.CreateOutcome) (req : BitVec 64)
    (obj : Gem.CreatedObject) (stride tiling : BitVec 32),
    Gem.i915GemCreate out req = .ok obj → dev.tilingOk stride obj.size.toNat tiling = true →
      dev.GttSizeRight obj.size.toNat (tiling != tilingNone) := by
  intro hall
  have hright := hall gen3Dev ⟨true, .ok 1⟩ 0x80001000 ⟨0x80001000, 1⟩ 512 tilingX rfl (by decide)
  exact absurd ((FenceDev.gttSizeRight_old (by decide) _).mp hright) (by decide)

end GfxDrm.Fence
