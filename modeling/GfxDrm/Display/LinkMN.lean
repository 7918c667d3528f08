import GfxDrm.Lib.Word
import Mathlib.Algebra.Order.Field.Basic
import Mathlib.Data.Rat.Cast.Order
import Mathlib.Data.LawfulXor.Basic

/-! A ratio rounded down to a given denominator. -/

namespace GfxDrm.Ratio

/-- `a / b` is not above `m / n` and less than `1 / b` below it. -/
def Rounds (m n a b : ℕ) : Prop :=
  0 ≤ (m : ℚ) / n - (a : ℚ) / b ∧ (m : ℚ) / n - (a : ℚ) / b < 1 / b

variable {m n b : ℕ}

theorem rounds_floor (hn : 0 < n) (hb : 0 < b) : Rounds m n (m * b / n) b := by
  have hn' : (0 : ℚ) < n := Nat.cast_pos.mpr hn
  have hb' : (0 : ℚ) < b := Nat.cast_pos.mpr hb
  have hle : ((m * b / n : ℕ) : ℚ) * n ≤ m * b := by
    exact_mod_cast Nat.div_mul_le_self (m * b) n
  have hlt : (m : ℚ) * b < ((m * b / n : ℕ) + 1) * n := by
    exact_mod_cast Nat.lt_mul_of_div_lt (Nat.lt_succ_self _) hn
  constructor
  · rw [sub_nonneg, div_le_div_iff₀ hb' hn']
    exact hle
  · rw [sub_lt_iff_lt_add, ← add_div, div_lt_div_iff₀ hn' hb', add_comm (1 : ℚ)]
    exact hlt

/-- Halving both sides of a rounded ratio is rounding to half the denominator. -/
theorem floor_div (m n b c : ℕ) (hc : 0 < c) : m * (b * c) / n / c = m * b / n := by
  rw [Nat.div_div_eq_div_mul, ← Nat.mul_assoc, Nat.mul_div_mul_right _ _ hc]

end GfxDrm.Ratio

/-! The M and N values of a link (intel_display.c). -/

namespace GfxDrm.Display
open CInt Ratio

def dataLinkMNMask : ℕ := 0xffffff
def dataLinkNMax : ℕ := 0x800000

/-- None when the loop has not ended after `fuel` rounds. -/
def intelReduceMNRatio : ℕ → ℕ → ℕ → Option (ℕ × ℕ)
  | 0, _, _ => none
  | fuel + 1, num, den =>
    if dataLinkMNMask < num ∨ dataLinkMNMask < den then
      intelReduceMNRatio fuel (num >>> 1) (den >>> 1)
    else some (num, den)

/-- `while (temp != 1) { ret_val++; temp = temp >> 1; }` -/
def countShifts : ℕ → ℕ → ℕ → Option ℕ
  | 0, _, _ => none
  | fuel + 1, temp, retVal =>
    if temp ≠ 1 then countShifts fuel (temp >>> 1) (retVal + 1) else some retVal

def roundupPowOfTwo (fuel n : ℕ) : Option ℕ :=
  if n = 0 then some 0
  else do
    let retVal ← countShifts fuel n 0
    let retVal := if 1 <<< retVal % 2 ^ 32 ^^^ n ≠ 0 then retVal + 1 else retVal
    some (1 <<< retVal % 2 ^ 32)

/-- None also where the division traps. -/
def computeMN (fuel m n : ℕ) : Option (ℕ × ℕ) := do
  let retN := min (← roundupPowOfTwo fuel n) dataLinkNMax
  if n = 0 then none
  else
    let retM := m * retN % 2 ^ 64 / n % 2 ^ 32
    intelReduceMNRatio fuel retM retN

structure IntelLinkMN where
  tu : ℕ
  gmchM : ℕ
  gmchN : ℕ
  linkM : ℕ
  linkN : ℕ
  deriving DecidableEq, Repr

/-- The arguments are `int`s and `compute_m_n` takes `unsigned int`s. -/
def intelLinkComputeMN (fuel : ℕ) (bitsPerPixel nlanes pixelClock linkClock : ℤ) :
    Option IntelLinkMN := do
  let (gmchM, gmchN) ← computeMN fuel (u32 (bitsPerPixel * pixelClock)).toNat
    (u32 (linkClock * nlanes * 8)).toNat
  let (linkM, linkN) ← computeMN fuel (u32 pixelClock).toNat (u32 linkClock).toNat
  some { tu := 64, gmchM, gmchN, linkM, linkN }

/-! ### Rounding up -/

theorem countShifts_spec {temp : ℕ} (ht : 0 < temp) :
    ∀ {fuel : ℕ}, temp.log2 < fuel → ∀ retVal, countShifts fuel temp retVal =
      some (retVal + temp.log2) := by
  induction temp using Nat.strongRecOn with
  | _ temp ih =>
    intro fuel hfuel retVal
    obtain ⟨fuel, rfl⟩ : ∃ k, fuel = k + 1 := ⟨fuel - 1, by omega⟩
    rw [countShifts]
    by_cases h1 : temp = 1
    · rw [h1]
      rfl
    · have hlog : temp.log2 = (temp / 2).log2 + 1 := by
        rw [Nat.log2_def, if_pos (by omega)]
      rw [if_pos h1, Nat.shiftRight_one, ih (temp / 2) (by omega) (by omega) (by omega)]
      rw [hlog, Nat.add_assoc, Nat.add_comm 1]

/-- The power of two is not below `n`. -/
theorem roundupPowOfTwo_spec {n : ℕ} (hn : 0 < n) (hmax : n ≤ 2 ^ 31) {fuel : ℕ}
    (hfuel : 32 ≤ fuel) : ∃ k ≤ 31, roundupPowOfTwo fuel n = some (2 ^ k) ∧ n ≤ 2 ^ k := by
  have hself : 2 ^ n.log2 ≤ n := Nat.log2_self_le (by omega)
  have hlt : n < 2 ^ (n.log2 + 1) := Nat.lt_log2_self
  have hlog : n.log2 ≤ 31 := by
    by_contra h
    have := Nat.pow_le_pow_right (n := 2) (by decide) (Nat.lt_of_not_le h)
    omega
  have hshl {k : ℕ} (hk : k ≤ 31) : 1 <<< k % 2 ^ 32 = 2 ^ k := by
    rw [Nat.shiftLeft_eq, Nat.one_mul]
    exact Nat.mod_eq_of_lt (Nat.pow_lt_pow_right (by decide) (by omega))
  rw [roundupPowOfTwo, if_neg (by omega), countShifts_spec hn (by omega)]
  simp only [Option.bind_eq_bind, Option.bind_some, Nat.zero_add, hshl hlog]
  by_cases heq : 2 ^ n.log2 = n
  · refine ⟨n.log2, hlog, ?_, heq.ge⟩
    rw [if_neg (not_not.mpr (xor_eq_zero_iff.mpr heq)), hshl hlog]
  · -- A number that is no power of two is below `2 ^ 31`, so the shift does not leave the word.
    have hlog' : n.log2 + 1 ≤ 31 := by
      rcases hlog.lt_or_eq with h | h
      · exact h
      · rw [h] at hself heq
        omega
    refine ⟨n.log2 + 1, hlog', ?_, hlt.le⟩
    rw [if_pos (mt xor_eq_zero_iff.mp heq), hshl hlog']

/-! ### Reducing -/

/-- The denominator is not the first to reach zero. -/
theorem intelReduceMNRatio_spec {fuel j num : ℕ} (hfuel : j < fuel) (hnum : num ≤ 2 * 2 ^ j) :
    ∃ i ≤ j, intelReduceMNRatio fuel num (2 ^ j) = some (num / 2 ^ i, 2 ^ (j - i)) ∧
      num / 2 ^ i ≤ dataLinkMNMask ∧ 2 ^ (j - i) ≤ dataLinkMNMask := by
  induction fuel generalizing j num with
  | zero => omega
  | succ fuel ih =>
    rw [intelReduceMNRatio]
    by_cases hbig : dataLinkMNMask < num ∨ dataLinkMNMask < 2 ^ j
    · have hj : j ≠ 0 := by
        intro h0
        rw [h0] at hbig hnum
        rw [dataLinkMNMask] at hbig
        omega
      obtain ⟨j, rfl⟩ : ∃ k, j = k + 1 := ⟨j - 1, by omega⟩
      have hhalf : num / 2 ≤ 2 * 2 ^ j := by omega
      obtain ⟨i, hi, hrun, hm, hn⟩ := ih (by omega) hhalf
      have hnum2 : num / 2 ^ (i + 1) = num / 2 / 2 ^ i := by
        rw [Nat.div_div_eq_div_mul, Nat.pow_succ']
      have hden : j + 1 - (i + 1) = j - i := by omega
      refine ⟨i + 1, by omega, ?_, ?_, ?_⟩
      · rw [if_pos hbig, Nat.shiftRight_one, Nat.shiftRight_one, Nat.pow_succ,
          Nat.mul_div_cancel _ (by decide), hrun, hnum2, hden]
      · rw [hnum2]
        exact hm
      · rw [hden]
        exact hn
    · rw [not_or, Nat.not_lt, Nat.not_lt] at hbig
      refine ⟨0, Nat.zero_le j, ?_, ?_, ?_⟩
      · rw [if_neg (by omega), Nat.pow_zero, Nat.div_one, Nat.sub_zero]
      · rw [Nat.pow_zero, Nat.div_one]
        exact hbig.1
      · exact hbig.2

/-! ### The ratio that is programmed -/

/-- What the registers hold for `m / n`. -/
structure Programs (m n : ℕ) (r : ℕ × ℕ) : Prop where
  pow : ∃ k, r.2 = 2 ^ k
  pos : 0 < r.2
  mFits : r.1 ≤ 0xffffff
  nFits : r.2 ≤ 0xffffff
  rounds : Rounds m n r.1 r.2

theorem computeMN_programs {m n fuel : ℕ} (hn : 0 < n) (hmax : n ≤ 2 ^ 31) (hm : m ≤ 2 * n)
    (hm32 : m < 2 ^ 32) (hfuel : 32 ≤ fuel) :
    ∃ r, computeMN fuel m n = some r ∧ Programs m n r := by
  obtain ⟨k, hk, hround, -⟩ := roundupPowOfTwo_spec hn hmax hfuel
  let j := min k 23
  have hj : j ≤ 23 := Nat.min_le_right k 23
  have hmin : min (2 ^ k) dataLinkNMax = 2 ^ j := by
    change min (2 ^ k) (2 ^ 23) = 2 ^ min k 23
    rcases Nat.le_total k 23 with h | h
    · rw [Nat.min_eq_left h, Nat.min_eq_left (Nat.pow_le_pow_right (by decide) h)]
    · rw [Nat.min_eq_right h, Nat.min_eq_right (Nat.pow_le_pow_right (by decide) h)]
  have hpow : 2 ^ j ≤ 2 ^ 23 := Nat.pow_le_pow_right (by decide) hj
  have hprod : m * 2 ^ j < 2 ^ 64 := by
    calc m * 2 ^ j ≤ m * 2 ^ 23 := Nat.mul_le_mul_left m hpow
      _ < 2 ^ 64 := by omega
  -- The quotient is at most twice the denominator.
  have hquot : m * 2 ^ j / n ≤ 2 * 2 ^ j := by
    apply Nat.div_le_of_le_mul
    calc m * 2 ^ j ≤ 2 * n * 2 ^ j := Nat.mul_le_mul_right _ hm
      _ = n * (2 * 2 ^ j) := by rw [Nat.mul_comm 2 n, Nat.mul_assoc]
  have hM : m * 2 ^ j % 2 ^ 64 / n % 2 ^ 32 = m * 2 ^ j / n := by
    rw [Nat.mod_eq_of_lt hprod]
    exact Nat.mod_eq_of_lt (by omega)
  have hjfuel : j < fuel := by omega
  obtain ⟨i, hi, hrun, hmfit, hnfit⟩ := intelReduceMNRatio_spec hjfuel hquot
  refine ⟨(m * 2 ^ j / n / 2 ^ i, 2 ^ (j - i)), ?_, ?_⟩
  · rw [computeMN, hround]
    simp only [Option.bind_eq_bind, Option.bind_some, hmin]
    rw [if_neg hn.ne', hM, hrun]
  · have hfloor : m * 2 ^ j / n / 2 ^ i = m * 2 ^ (j - i) / n := by
      have h := floor_div m n (2 ^ (j - i)) (2 ^ i) (Nat.two_pow_pos i)
      rwa [← Nat.pow_add, Nat.sub_add_cancel hi] at h
    refine ⟨⟨j - i, rfl⟩, Nat.two_pow_pos _, hmfit, hnfit, ?_⟩
    rw [hfloor]
    exact rounds_floor hn (Nat.two_pow_pos _)

/-- The exact ratio is not below the programmed one. -/
theorem Programs.le {m n : ℕ} {r : ℕ × ℕ} (h : Programs m n r) : (r.1 : ℚ) / r.2 ≤ (m : ℚ) / n :=
  sub_nonneg.mp h.rounds.1

/-- A product that wraps is below the exact one. -/
theorem u32_toNat_le {x : ℤ} (hx : 0 ≤ x) : ((u32 x).toNat : ℚ) ≤ (x : ℚ) := by
  have h0 : 0 ≤ u32 x := Int.emod_nonneg x (by decide)
  have hle : u32 x ≤ x := by
    unfold u32
    omega
  have hcast : ((u32 x).toNat : ℤ) ≤ x := by rwa [Int.toNat_of_nonneg h0]
  exact_mod_cast hcast

theorem computeMN_not_above {x y : ℤ} (hx : 0 < x) (hy : 0 < y) (hmax : y ≤ 2 ^ 31)
    (hxy : x ≤ 2 * y) {fuel : ℕ} (hfuel : 32 ≤ fuel) :
    ∃ r, computeMN fuel (u32 x).toNat (u32 y).toNat = some r ∧ (r.1 : ℚ) / r.2 ≤ (x : ℚ) / y := by
  have hyy : u32 y = y := u32_of_range hy.le (by omega)
  have hxlt : u32 x < 2 ^ 32 := Int.emod_lt_of_pos x (by decide)
  have hxle : u32 x ≤ x := by
    unfold u32
    omega
  rw [hyy]
  obtain ⟨r, hr, hp⟩ := computeMN_programs (m := (u32 x).toNat) (n := y.toNat)
    (by omega) (by omega) (by omega) (by omega) hfuel
  refine ⟨r, hr, hp.le.trans ?_⟩
  have hycast : (y.toNat : ℚ) = (y : ℚ) := by
    exact_mod_cast Int.toNat_of_nonneg hy.le
  rw [hycast]
  exact div_le_div_of_nonneg_right (u32_toNat_le hx.le) (by exact_mod_cast hy.le)

/-- The data and the link ratio of the call, neither above its exact value. -/
structure NotAbove (bitsPerPixel nlanes pixelClock linkClock : ℤ) (r : IntelLinkMN) : Prop where
  gmch : (r.gmchM : ℚ) / r.gmchN ≤ (bitsPerPixel * pixelClock : ℤ) / (linkClock * nlanes * 8 : ℤ)
  link : (r.linkM : ℚ) / r.linkN ≤ (pixelClock : ℤ) / (linkClock : ℤ)

theorem intelLinkComputeMN_notAbove {bitsPerPixel nlanes pixelClock linkClock : ℤ}
    (hm : 0 < bitsPerPixel * pixelClock) (hn : 0 < linkClock * nlanes * 8)
    (hmax : linkClock * nlanes * 8 ≤ 2 ^ 31)
    (hmn : bitsPerPixel * pixelClock ≤ 2 * (linkClock * nlanes * 8)) (hp : 0 < pixelClock)
    (hl : 0 < linkClock) (hlmax : linkClock ≤ 2 ^ 31) (hpl : pixelClock ≤ 2 * linkClock) {fuel : ℕ}
    (hfuel : 32 ≤ fuel) :
    ∃ r, intelLinkComputeMN fuel bitsPerPixel nlanes pixelClock linkClock = some r ∧
      NotAbove bitsPerPixel nlanes pixelClock linkClock r := by
  obtain ⟨g, hg, hgle⟩ := computeMN_not_above hm hn hmax hmn hfuel
  obtain ⟨l, hlrun, hlle⟩ := computeMN_not_above hp hl hlmax hpl hfuel
  refine ⟨{ tu := 64, gmchM := g.1, gmchN := g.2, linkM := l.1, linkN := l.2 }, ?_, hgle, hlle⟩
  rw [intelLinkComputeMN, hg, hlrun]
  rfl

/-- The values of a link fit its registers and are the ratio rounded down, and the two ratios that
are programmed are not above the exact ones. -/
theorem compute_m_n_rounds_down :
    (∀ m n fuel : ℕ, 0 < n → n ≤ 2 ^ 31 → m ≤ 2 * n → m < 2 ^ 32 → 32 ≤ fuel →
      ∃ r, computeMN fuel m n = some r ∧ Programs m n r) ∧
    ∀ (bitsPerPixel nlanes pixelClock linkClock : ℤ) (fuel : ℕ),
      0 < bitsPerPixel * pixelClock → 0 < linkClock * nlanes * 8 →
      linkClock * nlanes * 8 ≤ 2 ^ 31 →
      bitsPerPixel * pixelClock ≤ 2 * (linkClock * nlanes * 8) →
      0 < pixelClock → 0 < linkClock → linkClock ≤ 2 ^ 31 → pixelClock ≤ 2 * linkClock →
      32 ≤ fuel → ∃ r, intelLinkComputeMN fuel bitsPerPixel nlanes pixelClock linkClock = some r ∧
        NotAbove bitsPerPixel nlanes pixelClock linkClock r :=
  ⟨fun _ _ _ hn hmax hm hm32 hfuel => computeMN_programs hn hmax hm hm32 hfuel,
    fun _ _ _ _ _ hm hn hmax hmn hp hl hlmax hpl hfuel =>
      intelLinkComputeMN_notAbove hm hn hmax hmn hp hl hlmax hpl hfuel⟩

/-- 24 bits for each pixel at 148500 kHz over four lanes of 162000 kHz. -/
theorem compute_m_n_rounds_down_at :
    (∃ r, computeMN 32 (24 * 148500) (162000 * 4 * 8) = some r ∧
      Programs (24 * 148500) (162000 * 4 * 8) r) ∧
    ∃ r, intelLinkComputeMN 32 24 4 148500 162000 = some r ∧ NotAbove 24 4 148500 162000 r :=
  ⟨compute_m_n_rounds_down.1 _ _ 32 (by decide) (by decide) (by decide) (by decide) (by decide),
    compute_m_n_rounds_down.2 24 4 148500 162000 32 (by decide) (by decide) (by decide) (by decide)
      (by decide) (by decide) (by decide) (by decide) (by decide)⟩

end GfxDrm.Display
