import GfxDrm.Lib.Best
import GfxDrm.Lib.Word
import Mathlib.Algebra.Order.Field.Basic
import Mathlib.Tactic.Linarith
import Mathlib.Tactic.Ring

/-! The search for the dividers of the WR PLL (intel_ddi.c). -/

namespace GfxDrm.Ddi
open Best Word

def lcFreq : ℕ := 2700
def lcFreq2k : ℕ := lcFreq * 2000
def pMin : ℕ := 2
def pMax : ℕ := 64
def pInc : ℕ := 2
def refMin : ℕ := 48
def refMax : ℕ := 400
def vcoMin : ℕ := 2400
def vcoMax : ℕ := 4800

/-- ABS_DIFF. -/
def absDiff (a b : ℕ) : ℕ := if b < a then a - b else b - a

/-- struct wrpll_rnp. -/
structure WrpllRnp where
  p : ℕ
  n2 : ℕ
  r2 : ℕ
  deriving DecidableEq, Repr

def wrpllGetBudgetForFreq (clock : ℤ) : ℕ :=
  if clock ∈ [25175000, 25200000, 27000000, 27027000, 37762500, 37800000, 40500000, 40541000,
      54000000, 54054000, 59341000, 59400000, 72000000, 74176000, 74250000, 81000000, 81081000,
      89012000, 89100000, 108000000, 108108000, 111264000, 111375000, 148352000, 148500000,
      162000000, 162162000, 222525000, 222750000, 296703000, 297000000] then 0
  else if clock ∈ [233500000, 245250000, 247750000, 253250000, 298000000] then 1500
  else if clock ∈ [169128000, 169500000, 179500000, 202000000] then 2000
  else if clock ∈ [256250000, 262500000, 270000000, 272500000, 273750000, 280750000, 281250000,
      286000000, 291750000] then 4000
  else if clock ∈ [267250000, 268500000] then 5000
  else 1000

/-- The products are of 32 or 64 bits as their operands are; none where one of them does not fit. -/
def wrpllUpdateRnp (freq2k budget r2 n2 p : ℕ) (best : WrpllRnp) : Option WrpllRnp :=
  if best.p = 0 then some { p, n2, r2 }
  else do
    let a ← product 64 (← product 64 (← product 64 freq2k budget) p) r2
    let b ← product 64 (← product 64 (← product 64 freq2k budget) best.p) best.r2
    let diff := absDiff (← product 64 (← product 64 freq2k p) r2) (← product 32 lcFreq2k n2)
    let diffBest := absDiff (← product 64 (← product 64 freq2k best.p) best.r2)
      (← product 32 lcFreq2k best.n2)
    let c ← product 64 1000000 diff
    let d ← product 64 1000000 diffBest
    if a < c ∧ b < d then do
      -- Both are above the budget: the closer one.
      let x ← product 64 (← product 32 best.p best.r2) diff
      let y ← product 64 (← product 32 p r2) diffBest
      some (if x < y then { p, n2, r2 } else best)
    else if c ≤ a ∧ b < d then some { p, n2, r2 }
    else if c ≤ a ∧ d ≤ b then do
      let x ← product 32 (← product 32 n2 best.r2) best.r2
      let y ← product 32 (← product 32 best.n2 r2) r2
      some (if y < x then { p, n2, r2 } else best)
    else some best

/-- `for (x = lo; x <= hi; x++)`. -/
def upward (lo hi : ℕ) : List ℕ := List.range' lo (hi + 1 - lo)

def r2s : List ℕ := upward (lcFreq * 2 / refMax + 1) (lcFreq * 2 / refMin)

def ps : List ℕ := List.range' pMin ((pMax - pMin) / pInc + 1) pInc

/-- The loop over n2. -/
def n2Loop (freq2k budget r2 : ℕ) (best : WrpllRnp) : Option WrpllRnp := do
  let lo ← product 32 vcoMin r2
  let hi ← product 32 vcoMax r2
  (upward (lo / lcFreq + 1) (hi / lcFreq)).foldlM (fun best n2 =>
    ps.foldlM (fun best p => wrpllUpdateRnp freq2k budget r2 n2 p best) best) best

/-- An `int` of Hz as a `uint64_t` of 100 Hz. -/
def freq2kOf (clock : ℤ) : ℕ := (clock.tdiv 100 % 2 ^ 64).toNat

def intelDdiCalculateWrpll (clock : ℤ) : Option WrpllRnp :=
  let freq2k := freq2kOf clock
  let budget := wrpllGetBudgetForFreq clock
  if freq2k = 5400000 then some { p := 1, n2 := 2, r2 := 2 }
  else r2s.foldlM (fun best r2 => n2Loop freq2k budget r2 best) { p := 0, n2 := 0, r2 := 0 }

/-! ### What is searched -/

/-- The dividers within the ranges of the reference, of the VCO and of the post divider; the VCO
is above its lower end. -/
structure WrpllRnp.InRange (c : WrpllRnp) : Prop where
  ref : refMin * c.r2 ≤ lcFreq * 2 ∧ lcFreq * 2 ≤ refMax * c.r2
  vco : vcoMin * c.r2 < lcFreq * c.n2 ∧ lcFreq * c.n2 ≤ vcoMax * c.r2
  post : pMin ≤ c.p ∧ c.p ≤ pMax ∧ 2 ∣ c.p

/-- The pixel clock in Hz. -/
def WrpllRnp.outHz (c : WrpllRnp) : ℚ := 540000000 * c.n2 / (c.p * c.r2)

def WrpllRnp.deviation (hz : ℕ) (c : WrpllRnp) : ℚ := |(hz : ℚ) - c.outHz|

/-- The deviation is within so many ppm. -/
def WrpllRnp.Within (hz budget : ℕ) (c : WrpllRnp) : Prop :=
  c.deviation hz * 1000000 ≤ budget * hz

instance (hz budget : ℕ) : DecidablePred (WrpllRnp.Within hz budget) :=
  fun _ => inferInstanceAs (Decidable (_ ≤ _))

def WrpllRnp.quality (c : WrpllRnp) : ℚ := c.n2 / (c.r2 * c.r2)

/-- The dividers for a clock: of the highest quality within the budget if one is, else the
nearest. -/
abbrev Chosen (hz budget : ℕ) : WrpllRnp → Prop :=
  Preferred (WrpllRnp.Within hz budget) (WrpllRnp.deviation hz) WrpllRnp.quality WrpllRnp.InRange

/-! ### One comparison -/

/-- What the difference of the products stands for. -/
def diffOf (freq2k : ℕ) (c : WrpllRnp) : ℕ := absDiff (freq2k * c.p * c.r2) (lcFreq2k * c.n2)

theorem cast_absDiff (a b : ℕ) : (absDiff a b : ℚ) = |(a : ℚ) - b| := by
  unfold absDiff
  split
  · next h =>
    rw [Nat.cast_sub h.le, abs_of_nonneg (sub_nonneg.mpr (by exact_mod_cast h.le))]
  · next h =>
    have hle := Nat.not_lt.mp h
    rw [Nat.cast_sub hle, abs_sub_comm, abs_of_nonneg (sub_nonneg.mpr (by exact_mod_cast hle))]

theorem absDiff_le {a b n : ℕ} (ha : a ≤ n) (hb : b ≤ n) : absDiff a b ≤ n := by
  unfold absDiff
  split
  · exact (Nat.sub_le a b).trans ha
  · exact (Nat.sub_le b a).trans hb

section Compare
variable {freq2k budget : ℕ} {c best : WrpllRnp}

theorem deviation_eq (hp : 0 < c.p) (hr : 0 < c.r2) :
    c.deviation (freq2k * 100) = 100 * diffOf freq2k c / (c.p * c.r2 : ℕ) := by
  have hq : (0 : ℚ) < c.p * c.r2 := by exact_mod_cast Nat.mul_pos hp hr
  have hlc : ((lcFreq2k : ℕ) : ℚ) = 5400000 := by
    rw [show lcFreq2k = 5400000 from rfl]
    norm_num
  have hsplit : ((freq2k * 100 : ℕ) : ℚ) - 540000000 * c.n2 / (c.p * c.r2) =
      100 * ((freq2k * c.p * c.r2 : ℕ) - (lcFreq2k * c.n2 : ℕ)) / (c.p * c.r2) := by
    rw [eq_div_iff hq.ne', sub_mul, div_mul_cancel₀ _ hq.ne', Nat.cast_mul lcFreq2k, hlc]
    push_cast
    ring
  rw [WrpllRnp.deviation, WrpllRnp.outHz, hsplit, abs_div, abs_of_pos hq, abs_mul,
    abs_of_pos (by norm_num : (0 : ℚ) < 100), diffOf, cast_absDiff, Nat.cast_mul c.p]

/-- The test against the budget. -/
theorem within_iff (freq2k budget : ℕ) (hp : 0 < c.p) (hr : 0 < c.r2) :
    c.Within (freq2k * 100) budget ↔
      1000000 * diffOf freq2k c ≤ freq2k * budget * c.p * c.r2 := by
  have hq : (0 : ℚ) < (c.p * c.r2 : ℕ) := by exact_mod_cast Nat.mul_pos hp hr
  rw [WrpllRnp.Within, deviation_eq hp hr, div_mul_eq_mul_div, div_le_iff₀ hq,
    ← Nat.cast_le (α := ℚ)]
  push_cast
  constructor
  · intro h
    linarith
  · intro h
    linarith

/-- The closer one, by products across. -/
theorem deviation_lt_iff (freq2k : ℕ) (hp : 0 < c.p) (hr : 0 < c.r2) (hbp : 0 < best.p)
    (hbr : 0 < best.r2) :
    c.deviation (freq2k * 100) < best.deviation (freq2k * 100) ↔
      best.p * best.r2 * diffOf freq2k c < c.p * c.r2 * diffOf freq2k best := by
  have hq : (0 : ℚ) < (c.p * c.r2 : ℕ) := by exact_mod_cast Nat.mul_pos hp hr
  have hbq : (0 : ℚ) < (best.p * best.r2 : ℕ) := by exact_mod_cast Nat.mul_pos hbp hbr
  rw [deviation_eq hp hr, deviation_eq hbp hbr, div_lt_div_iff₀ hq hbq, ← Nat.cast_lt (α := ℚ)]
  push_cast
  constructor
  · intro h
    linarith
  · intro h
    linarith

theorem quality_lt_iff (hr : 0 < c.r2) (hbr : 0 < best.r2) :
    best.quality < c.quality ↔ best.n2 * c.r2 * c.r2 < c.n2 * best.r2 * best.r2 := by
  have hq : (0 : ℚ) < c.r2 * c.r2 := by exact_mod_cast Nat.mul_pos hr hr
  have hbq : (0 : ℚ) < best.r2 * best.r2 := by exact_mod_cast Nat.mul_pos hbr hbr
  rw [WrpllRnp.quality, WrpllRnp.quality, div_lt_div_iff₀ hbq hq, ← Nat.cast_lt (α := ℚ)]
  push_cast
  rw [mul_assoc, mul_assoc]

end Compare

/-- The numbers that the loops run through. -/
structure WrpllRnp.Small (c : WrpllRnp) : Prop where
  p : 0 < c.p ∧ c.p ≤ 64
  n2 : c.n2 ≤ 199
  r2 : 0 < c.r2 ∧ c.r2 ≤ 112

/-- One turn of the loops without its wraps. -/
def tryRnp (freq2k budget : ℕ) (best c : WrpllRnp) : WrpllRnp :=
  if best.p = 0 then c
  else prefer (WrpllRnp.Within (freq2k * 100) budget) (WrpllRnp.deviation (freq2k * 100))
    WrpllRnp.quality best c

section Update
variable {freq2k budget : ℕ} {c best : WrpllRnp}

/-- The products of one candidate fit their types. -/
structure ProductsFit (freq2k budget : ℕ) (c : WrpllRnp) : Prop where
  freq_budget : product 64 freq2k budget = some (freq2k * budget)
  budget_p : product 64 (freq2k * budget) c.p = some (freq2k * budget * c.p)
  budget_p_r2 : product 64 (freq2k * budget * c.p) c.r2 = some (freq2k * budget * c.p * c.r2)
  freq_p : product 64 freq2k c.p = some (freq2k * c.p)
  freq_p_r2 : product 64 (freq2k * c.p) c.r2 = some (freq2k * c.p * c.r2)
  lc : product 32 lcFreq2k c.n2 = some (lcFreq2k * c.n2)
  diff : product 64 1000000 (diffOf freq2k c) = some (1000000 * diffOf freq2k c)
  p_r2 : product 32 c.p c.r2 = some (c.p * c.r2)

theorem diffOf_le (hf : freq2k ≤ 21474836) (hc : c.Small) :
    diffOf freq2k c ≤ 21474836 * 64 * 112 := by
  apply absDiff_le
  · exact Nat.mul_le_mul (Nat.mul_le_mul hf hc.p.2) hc.r2.2
  · exact (Nat.mul_le_mul_left lcFreq2k hc.n2).trans (by decide)

theorem productsFit (hf : freq2k ≤ 21474836) (hb : budget ≤ 5000) (hc : c.Small) :
    ProductsFit freq2k budget c := by
  have h1 : freq2k * budget ≤ 21474836 * 5000 := Nat.mul_le_mul hf hb
  have h2 := Nat.mul_le_mul h1 hc.p.2
  have h3 := Nat.mul_le_mul h2 hc.r2.2
  have h4 := Nat.mul_le_mul hf hc.p.2
  have h5 := Nat.mul_le_mul h4 hc.r2.2
  have h6 := Nat.mul_le_mul_left lcFreq2k hc.n2
  have h7 := Nat.mul_le_mul_left 1000000 (diffOf_le hf hc)
  have h8 := Nat.mul_le_mul hc.p.2 hc.r2.2
  constructor
  · exact product_eq (h1.trans_lt (by norm_num))
  · exact product_eq (h2.trans_lt (by norm_num))
  · exact product_eq (h3.trans_lt (by norm_num))
  · exact product_eq (h4.trans_lt (by norm_num))
  · exact product_eq (h5.trans_lt (by norm_num))
  · exact product_eq (h6.trans_lt (by decide))
  · exact product_eq (h7.trans_lt (by norm_num))
  · exact product_eq (h8.trans_lt (by norm_num))

/-- The products across of two candidates fit theirs. -/
theorem cross_fits (hf : freq2k ≤ 21474836) (hc : c.Small) (hbest : best.Small) :
    product 64 (best.p * best.r2) (diffOf freq2k c) =
        some (best.p * best.r2 * diffOf freq2k c) ∧
      product 32 c.n2 best.r2 = some (c.n2 * best.r2) ∧
      product 32 (c.n2 * best.r2) best.r2 = some (c.n2 * best.r2 * best.r2) := by
  have h1 := Nat.mul_le_mul (Nat.mul_le_mul hbest.p.2 hbest.r2.2) (diffOf_le hf hc)
  have h2 := Nat.mul_le_mul hc.n2 hbest.r2.2
  have h3 := Nat.mul_le_mul h2 hbest.r2.2
  exact ⟨product_eq (h1.trans_lt (by norm_num)), product_eq (h2.trans_lt (by norm_num)),
    product_eq (h3.trans_lt (by norm_num))⟩

/-- No product overflows, and what is kept is what the exact comparisons say. -/
theorem wrpllUpdateRnp_eq (hf : freq2k ≤ 21474836) (hb : budget ≤ 5000) (hc : c.Small)
    (hbest : best.p = 0 ∨ best.Small) :
    wrpllUpdateRnp freq2k budget c.r2 c.n2 c.p best = some (tryRnp freq2k budget best c) := by
  by_cases h0 : best.p = 0
  · rw [wrpllUpdateRnp, tryRnp, if_pos h0, if_pos h0]
  have hbest := hbest.resolve_left h0
  have hfit := productsFit hf hb hc
  have hbfit := productsFit hf hb hbest
  obtain ⟨hx, hq1, hq2⟩ := cross_fits hf hc hbest
  obtain ⟨hy, hq3, hq4⟩ := cross_fits hf hbest hc
  have hwc := within_iff freq2k budget hc.p.1 hc.r2.1
  have hwb := within_iff freq2k budget hbest.p.1 hbest.r2.1
  have hdev := deviation_lt_iff freq2k hc.p.1 hc.r2.1 hbest.p.1 hbest.r2.1
  have hqual := quality_lt_iff hc.r2.1 hbest.r2.1
  rw [wrpllUpdateRnp, tryRnp, if_neg h0, if_neg h0, prefer]
  have hd : absDiff (freq2k * c.p * c.r2) (lcFreq2k * c.n2) = diffOf freq2k c := rfl
  have hdb : absDiff (freq2k * best.p * best.r2) (lcFreq2k * best.n2) = diffOf freq2k best := rfl
  simp only [Option.bind_eq_bind, Option.bind_some, hfit.freq_budget, hfit.budget_p,
    hfit.budget_p_r2, hfit.freq_p, hfit.freq_p_r2, hfit.lc, hfit.p_r2, hbfit.budget_p,
    hbfit.budget_p_r2, hbfit.freq_p, hbfit.freq_p_r2, hbfit.lc, hbfit.p_r2, hd, hdb, hfit.diff,
    hbfit.diff, hx, hy, hq1, hq2, hq3, hq4, ← Nat.not_le, ← hwc, ← hwb]
  simp only [Nat.not_le, ← hdev, ← hqual]
  by_cases hcw : c.Within (freq2k * 100) budget
  · by_cases hbw : best.Within (freq2k * 100) budget
    · simp only [hcw, hbw, not_true_eq_false, and_self, and_false, if_true, if_false]
    · simp only [hcw, hbw, not_true_eq_false, not_false_eq_true, and_self, false_and, if_true,
        if_false]
  · by_cases hbw : best.Within (freq2k * 100) budget
    · simp only [hcw, hbw, not_true_eq_false, and_false, false_and, if_true,
        if_false]
    · simp only [hcw, hbw, not_false_eq_true, and_self, if_true, if_false]

end Update

/-! ### The loops -/

/-- All that the loops try, in order. -/
def candidates : List WrpllRnp :=
  r2s.flatMap fun r2 =>
    (upward (vcoMin * r2 / lcFreq + 1) (vcoMax * r2 / lcFreq)).flatMap fun n2 =>
      ps.map fun p => { p, n2, r2 }

theorem mem_upward {lo hi x : ℕ} : x ∈ upward lo hi ↔ lo ≤ x ∧ x ≤ hi := by
  rw [upward, List.mem_range'_1]
  omega

theorem mem_r2s {r2 : ℕ} : r2 ∈ r2s ↔ 14 ≤ r2 ∧ r2 ≤ 112 := mem_upward

theorem mem_ps {p : ℕ} : p ∈ ps ↔ 2 ≤ p ∧ p ≤ 64 ∧ 2 ∣ p := by
  rw [ps, List.mem_range']
  simp only [pMin, pMax, pInc]
  constructor
  · rintro ⟨i, hi, rfl⟩
    omega
  · rintro ⟨h2, h64, k, rfl⟩
    exact ⟨k - 1, by omega, by omega⟩

theorem mem_candidates {c : WrpllRnp} : c ∈ candidates ↔ c.InRange := by
  have hmem : c ∈ candidates ↔ c.r2 ∈ r2s ∧
      c.n2 ∈ upward (vcoMin * c.r2 / lcFreq + 1) (vcoMax * c.r2 / lcFreq) ∧ c.p ∈ ps := by
    simp only [candidates, List.mem_flatMap, List.mem_map]
    constructor
    · rintro ⟨r2, hr2, n2, hn2, p, hp, rfl⟩
      exact ⟨hr2, hn2, hp⟩
    · rintro ⟨hr2, hn2, hp⟩
      exact ⟨c.r2, hr2, c.n2, hn2, c.p, hp, rfl⟩
  rw [hmem, mem_r2s, mem_upward, mem_ps]
  constructor
  · rintro ⟨hr2, hn2, hp⟩
    constructor
    · simp only [refMin, refMax, lcFreq]
      omega
    · simp only [lcFreq] at hn2 ⊢
      omega
    · exact hp
  · rintro ⟨hr2, hn2, hp⟩
    simp only [refMin, refMax, lcFreq] at hr2
    simp only [lcFreq] at hn2 ⊢
    exact ⟨by omega, by omega, hp⟩

theorem WrpllRnp.InRange.small {c : WrpllRnp} (h : c.InRange) : c.Small := by
  obtain ⟨hr2, hn2, hp⟩ := h
  simp only [refMin, lcFreq] at hr2
  simp only [vcoMax, lcFreq] at hn2
  simp only [pMin, pMax] at hp
  exact ⟨by omega, by omega, by omega⟩

section Loops
variable {freq2k budget : ℕ}

/-- What the loops hold: nothing yet, or one of the candidates. -/
def Held (best : WrpllRnp) : Prop := best.p = 0 ∨ best.InRange

theorem Held.tryRnp {best c : WrpllRnp} (h : Held best) (hc : c.InRange) :
    Held (tryRnp freq2k budget best c) := by
  unfold Ddi.tryRnp prefer
  by_cases h0 : best.p = 0
  · rw [if_pos h0]
    exact Or.inr hc
  · split_ifs
    all_goals first | exact h | exact Or.inr hc

/-- The loops are one search through the candidates. -/
theorem loops_eq (hf : freq2k ≤ 21474836) (hb : budget ≤ 5000) {best : WrpllRnp}
    (h : Held best) :
    r2s.foldlM (fun best r2 => n2Loop freq2k budget r2 best) best =
      some (candidates.foldl (tryRnp freq2k budget) best) := by
  rw [candidates, List.foldl_flatMap]
  refine (foldlM_eq_foldl Held ?_ h).1
  intro best hheld r2 hr2
  have hr := mem_r2s.mp hr2
  have hlo : product 32 vcoMin r2 = some (vcoMin * r2) := by
    apply product_eq
    simp only [vcoMin]
    omega
  have hhi : product 32 vcoMax r2 = some (vcoMax * r2) := by
    apply product_eq
    simp only [vcoMax]
    omega
  rw [n2Loop, hlo, hhi, List.foldl_flatMap]
  refine foldlM_eq_foldl Held ?_ hheld
  intro best hheld n2 hn2
  rw [List.foldl_map]
  refine foldlM_eq_foldl Held ?_ hheld
  intro best hheld p hp
  have hc : WrpllRnp.InRange { p, n2, r2 } := mem_candidates.mp (List.mem_flatMap.mpr
    ⟨r2, hr2, List.mem_flatMap.mpr ⟨n2, hn2, List.mem_map_of_mem hp⟩⟩)
  exact ⟨wrpllUpdateRnp_eq hf hb hc.small (hheld.imp_right WrpllRnp.InRange.small),
    hheld.tryRnp hc⟩

/-- After the candidates in `P` nothing was held where there were none, else the best of them. -/
def Found (freq2k budget : ℕ) (P : WrpllRnp → Prop) (best : WrpllRnp) : Prop :=
  (best.p = 0 ∧ ∀ c, ¬ P c) ∨ (best.p ≠ 0 ∧
    Preferred (WrpllRnp.Within (freq2k * 100) budget) (WrpllRnp.deviation (freq2k * 100))
      WrpllRnp.quality P best)

theorem Found.tryRnp {P : WrpllRnp → Prop} {best c : WrpllRnp} (h : Found freq2k budget P best)
    (hc : c.p ≠ 0) :
    Found freq2k budget (fun b => P b ∨ b = c) (tryRnp freq2k budget best c) := by
  rcases h with ⟨h0, hnone⟩ | ⟨h0, hbest⟩
  · rw [Ddi.tryRnp, if_pos h0]
    refine Or.inr ⟨hc, Preferred.single (Or.inr rfl) ?_⟩
    intro b hb
    exact hb.resolve_left (hnone b)
  · rw [Ddi.tryRnp, if_neg h0]
    refine Or.inr ⟨?_, hbest.prefer c⟩
    unfold prefer
    split_ifs
    all_goals assumption

/-- The loops leave the best of all candidates. -/
theorem loops_chosen (freq2k budget : ℕ) (hf : freq2k ≤ 21474836) (hb : budget ≤ 5000) :
    ∃ r, r2s.foldlM (fun best r2 => n2Loop freq2k budget r2 best) { p := 0, n2 := 0, r2 := 0 } =
      some r ∧ Chosen (freq2k * 100) budget r := by
  refine ⟨_, loops_eq hf hb (Or.inl rfl), ?_⟩
  have hfound : Found freq2k budget (fun c => False ∨ c ∈ candidates)
      (candidates.foldl (Ddi.tryRnp freq2k budget) { p := 0, n2 := 0, r2 := 0 }) :=
    foldl_covers candidates (fun P s c hc h => h.tryRnp (mem_candidates.mp hc).small.p.1.ne')
      (Or.inl ⟨rfl, fun _ h => h⟩)
  have hP : (fun c => False ∨ c ∈ candidates) = WrpllRnp.InRange := by
    funext c
    rw [false_or]
    exact propext mem_candidates
  rw [hP] at hfound
  rcases hfound with ⟨-, hnone⟩ | ⟨-, hbest⟩
  · -- The ranges are not empty.
    have h : WrpllRnp.InRange { p := 2, n2 := 13, r2 := 14 } := ⟨by decide, by decide, by decide⟩
    exact absurd h (hnone _)
  · exact hbest

end Loops

theorem wrpllGetBudgetForFreq_le (clock : ℤ) : wrpllGetBudgetForFreq clock ≤ 5000 := by
  unfold wrpllGetBudgetForFreq
  split_ifs <;> decide

theorem freq2kOf_eq {clock : ℤ} (h0 : 0 < clock) (hmax : clock < 2 ^ 31) :
    freq2kOf clock = (clock / 100).toNat := by
  rw [freq2kOf, Int.tdiv_eq_ediv_of_nonneg h0.le, Int.emod_eq_of_lt (by omega) (by omega)]

/-- The dividers for a clock are the best ones for the clock in whole units of 100 Hz, and every
product on the way to them fits its type. -/
theorem intelDdiCalculateWrpll_chosen {clock : ℤ} (h0 : 0 < clock) (hmax : clock < 2 ^ 31)
    (hbypass : clock / 100 ≠ 5400000) :
    ∃ r, intelDdiCalculateWrpll clock = some r ∧
      Chosen ((clock / 100).toNat * 100) (wrpllGetBudgetForFreq clock) r := by
  have hf := freq2kOf_eq h0 hmax
  have hne : freq2kOf clock ≠ 5400000 := by omega
  unfold intelDdiCalculateWrpll
  simp only [if_neg hne]
  rw [hf]
  exact loops_chosen _ _ (by omega) (wrpllGetBudgetForFreq_le clock)

/-- 148500 kHz, where the budget is zero. -/
theorem intelDdiCalculateWrpll_chosen_at :
    ∃ r, intelDdiCalculateWrpll 148500000 = some r ∧
      Chosen ((148500000 / 100 : ℤ).toNat * 100) (wrpllGetBudgetForFreq 148500000) r :=
  intelDdiCalculateWrpll_chosen (by decide) (by decide) (by decide)

/-- No dividers in the ranges are of a higher quality than 24 to 14. -/
theorem r2_eq_of_quality {c : WrpllRnp} (h : c.InRange) (hq : (24 : ℚ) / (14 * 14) ≤ c.quality) :
    c.r2 = 14 ∧ c.n2 = 24 := by
  have hs := h.small
  have hr := h.ref
  have hn := h.vco
  simp only [refMax, lcFreq] at hr
  simp only [vcoMax, lcFreq] at hn
  have hpos : (0 : ℚ) < c.r2 * c.r2 := by exact_mod_cast Nat.mul_pos hs.r2.1 hs.r2.1
  rw [WrpllRnp.quality, div_le_div_iff₀ (by norm_num) hpos] at hq
  have hq' : 24 * (c.r2 * c.r2) ≤ c.n2 * (14 * 14) := by exact_mod_cast hq
  have h15 : c.r2 < 15 := by
    by_contra hge
    have := Nat.mul_le_mul_right c.r2 (Nat.not_lt.mp hge)
    omega
  have h14 : c.r2 = 14 := by omega
  rw [h14] at hn hq'
  exact ⟨h14, by omega⟩

/-- No p brings 24 to 14 within 1000 ppm of 92478900 Hz. -/
theorem above_budget (p : ℕ) :
    ¬ 1000000 * absDiff (924789 * p * 14) (lcFreq2k * 24) ≤ 924789 * 1000 * p * 14 := by
  have hlc : lcFreq2k * 24 = 129600000 := rfl
  rw [absDiff]
  split
  · omega
  · omega

/-- 50 Hz above a multiple of 100 Hz: 24 to 14 with p = 10 are within 1000 ppm of the clock but not
of the multiple, and dividers of a lower quality are returned. -/
theorem intelDdiCalculateWrpll_truncates :
    ¬ ∃ r, intelDdiCalculateWrpll 92478950 = some r ∧
      Chosen 92478950 (wrpllGetBudgetForFreq 92478950) r := by
  rintro ⟨r, hr, hchosen⟩
  obtain ⟨r', hr', hchosen'⟩ := loops_chosen 924789 1000 (by decide) (by decide)
  obtain rfl : r' = r := by
    exact Option.some.inj (hr'.symm.trans hr)
  have hX : WrpllRnp.InRange { p := 10, n2 := 24, r2 := 14 } :=
    ⟨by decide, by decide, by decide⟩
  have hXw : WrpllRnp.Within 92478950 1000 { p := 10, n2 := 24, r2 := 14 } := by
    rw [WrpllRnp.Within, WrpllRnp.deviation, WrpllRnp.outHz]
    norm_num [abs_le]
  obtain ⟨h14, h24⟩ := r2_eq_of_quality hchosen.mem (hchosen.within_of _ hX hXw).2
  -- It is within the budget of the multiple of 100 Hz, as there are such dividers.
  have hY : WrpllRnp.InRange { p := 8, n2 := 37, r2 := 27 } :=
    ⟨by decide, by decide, by decide⟩
  have hYw : WrpllRnp.Within (924789 * 100) 1000 { p := 8, n2 := 37, r2 := 27 } :=
    (within_iff _ _ (by decide) (by decide)).mpr (by decide)
  have hw := (hchosen'.within_of _ hY hYw).1
  have hs := hchosen.mem.small
  rw [within_iff _ _ hs.p.1 hs.r2.1, diffOf, h14, h24] at hw
  exact above_budget r'.p hw

end GfxDrm.Ddi
