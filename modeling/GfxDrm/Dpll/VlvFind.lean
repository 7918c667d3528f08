import GfxDrm.Dpll.Find
import Mathlib.Tactic.Linarith

/-! The search for the divisors of the PLL of Valleyview (vlv_find_best_dpll in
intel_display.c). -/

namespace GfxDrm.Dpll
open CInt Best

structure VlvDivisors where
  n : ℤ := 0
  m1 : ℤ := 0
  m2 : ℤ := 0
  p1 : ℤ := 0
  p2 : ℤ := 0
  deriving DecidableEq, Repr

structure VlvState where
  /-- An `unsigned long`. -/
  bestppm : ℤ := 1000000
  best : VlvDivisors := {}
  deriving DecidableEq, Repr

/-- Divisors whose vco is in the range, with the deviation that is computed for them. -/
structure VlvTried where
  divisors : VlvDivisors
  ppm : ℤ
  deriving DecidableEq, Repr

def minupdate : ℤ := 19200

/-- `fastclk`, an `int` division stored as unsigned. -/
def fastclk (target : ℤ) : ℤ := u32 ((i32 (target * 1000)).tdiv (2 * 100))

/-! ### The loops -/

/-- `for (x = lo; x <= hi; x++)` on `unsigned int`. It passes through zero where it has no end. -/
def countUp (lo hi : ℤ) : List ℤ :=
  upTo ⟨u32 lo, u32 hi⟩ ++ if u32 hi = 0xffffffff then [0] else []

/-- `for (p1 = hi; p1 > lo; p1--)`. -/
def countDown (hi lo : ℤ) : List ℤ := (upTo ⟨u32 lo + 1, u32 hi⟩).reverse

/-- `for (; p2 > 0; p2--)`, whose body first takes one more off a p2 above ten. -/
def p2From : ℕ → List ℤ
  | 0 => []
  | 1 => [1]
  | k + 2 => if 10 < k + 2 then (k + 1 : ℤ) :: p2From k else (k + 2 : ℤ) :: p2From (k + 1)

/-- What one round of the innermost loop is at. -/
structure VlvCombo where
  n : ℤ
  p1 : ℤ
  p2 : ℤ
  m1 : ℤ
  deriving DecidableEq, Repr

/-- The body of the loops up to the comparison; none where a division traps. -/
def tryVlv (limit : IntelLimit) (refclk fast updrate : ℤ) (c : VlvCombo) :
    Option (Option VlvTried) := do
  let p := u32 (c.p1 * c.p2)
  let q ← udiv (fast * p * c.n) c.m1
  let m2 ← udiv (2 * q + refclk) (2 * refclk)
  let vco := u32 (updrate * u32 (c.m1 * m2))
  if u32 limit.vco.min ≤ vco ∧ vco < u32 limit.vco.max then do
    let clock ← udiv vco p
    let ppm ← udiv (1000000 * (clock - fast)) fast
    some (some { divisors := { n := c.n, m1 := c.m1, m2, p1 := c.p1, p2 := c.p2 }, ppm })
  else some none

/-- The comparison with the best so far; `bestppm - 10` is unsigned. -/
def takeVlv (s : VlvState) (c : VlvTried) : VlvState :=
  let larger : Prop := c.ppm < 100 ∧ u32 (s.best.p1 * s.best.p2) <
    u32 (c.divisors.p1 * c.divisors.p2)
  let bestppm := if larger then 0 else s.bestppm
  if c.ppm < (bestppm - 10) % 0x10000000000000000 then { bestppm := c.ppm, best := c.divisors }
  else if larger then { bestppm, best := c.divisors }
  else s

/-- The loops inside the one over n. -/
def vlvInner (limit : IntelLimit) (refclk fast n updrate : ℤ) (s : VlvState) : Option VlvState :=
  (countDown limit.p1.max limit.p1.min).foldlM (fun s p1 =>
    (p2From (u32 (limit.p2Fast + 1)).toNat).foldlM (fun s p2 =>
      (countUp limit.m1.min limit.m1.max).foldlM (fun s m1 =>
        (tryVlv limit refclk fast updrate { n, p1, p2, m1 }).map fun c =>
          c.elim s (takeVlv s)) s) s) s

/-- The loop over n. -/
def vlvNs (limit : IntelLimit) (refclk : ℤ) : List ℤ :=
  upTo ⟨u32 limit.n.min, u32 refclk / minupdate⟩

/-- vlv_find_best_dpll; none where a division traps. -/
def vlvFindBestDpll (limit : IntelLimit) (target refclk : ℤ) : Option (Bool × VlvDivisors) := do
  let s ← (vlvNs limit refclk).foldlM (fun s n => do
    let updrate ← udiv refclk n
    vlvInner limit refclk (fastclk target) n updrate s) {}
  some (true, s.best)

def intelLimitsVlvHdmi : IntelLimit where
  dot := ⟨25000, 270000⟩
  vco := ⟨4000000, 6000000⟩
  n := ⟨1, 7⟩
  m := ⟨60, 300⟩
  m1 := ⟨2, 3⟩
  m2 := ⟨11, 156⟩
  p := ⟨10, 30⟩
  p1 := ⟨2, 3⟩
  dotLimit := 270000
  p2Slow := 2
  p2Fast := 20

example : p2From 21 = [20, 18, 16, 14, 12, 10, 9, 8, 7, 6, 5, 4, 3, 2, 1] := by decide

/-! ### The search space -/

def vlvBox (limit : IntelLimit) (n : ℤ) : List VlvCombo :=
  (countDown limit.p1.max limit.p1.min).flatMap fun p1 =>
    (p2From (u32 (limit.p2Fast + 1)).toNat).flatMap fun p2 =>
      (countUp limit.m1.min limit.m1.max).map fun m1 => { n, p1, p2, m1 }

/-- The rounds of the innermost loop. -/
def vlvCombos (limit : IntelLimit) (refclk : ℤ) : List VlvCombo :=
  (vlvNs limit refclk).flatMap (vlvBox limit)

def tryCombo (limit : IntelLimit) (target refclk : ℤ) (c : VlvCombo) : Option (Option VlvTried) :=
  tryVlv limit refclk (fastclk target) (u32 refclk / u32 c.n) c

/-- The divisors that are compared, in order: those whose vco is in the range. -/
def vlvTried (limit : IntelLimit) (target refclk : ℤ) : List VlvTried :=
  ((vlvCombos limit refclk).filterMap (tryCombo limit target refclk)).filterMap id

/-- m2 as it is computed. -/
def m2Of (target refclk : ℤ) (c : VlvCombo) : ℤ :=
  u32 (2 * (u32 (fastclk target * u32 (c.p1 * c.p2) * c.n) / u32 c.m1) + refclk) /
    u32 (2 * refclk)

/-- The vco as it is computed. -/
def vcoOf (target refclk : ℤ) (c : VlvCombo) : ℤ :=
  u32 (u32 refclk / u32 c.n * u32 (c.m1 * m2Of target refclk c))

def VcoInRange (limit : IntelLimit) (target refclk : ℤ) (c : VlvCombo) : Prop :=
  u32 limit.vco.min ≤ vcoOf target refclk c ∧ vcoOf target refclk c < u32 limit.vco.max

instance (limit : IntelLimit) (target refclk : ℤ) :
    DecidablePred (VcoInRange limit target refclk) :=
  fun _ => inferInstanceAs (Decidable (_ ∧ _))

/-- The divisors of the divisions are not zero. -/
structure VlvTrapFree (limit : IntelLimit) (target refclk : ℤ) : Prop where
  n : ∀ n ∈ vlvNs limit refclk, u32 n ≠ 0
  m1 : ∀ c ∈ vlvCombos limit refclk, u32 c.m1 ≠ 0
  ref : ∀ c ∈ vlvCombos limit refclk, u32 (2 * refclk) ≠ 0
  p : ∀ c ∈ vlvCombos limit refclk, VcoInRange limit target refclk c → u32 (c.p1 * c.p2) ≠ 0
  fast : ∀ c ∈ vlvCombos limit refclk, VcoInRange limit target refclk c → fastclk target ≠ 0

section Space
variable {limit : IntelLimit} {target refclk : ℤ}

theorem u32_u32 (x : ℤ) : u32 (u32 x) = u32 x := Int.emod_emod_of_dvd x (Int.dvd_refl _)

theorem u32_nonneg (x : ℤ) : 0 ≤ u32 x := Int.emod_nonneg x (by decide)

theorem u32_fastclk (target : ℤ) : u32 (fastclk target) = fastclk target := u32_u32 _

theorem udiv_eq_none_iff {x y : ℤ} : udiv x y = none ↔ u32 y = 0 := by
  unfold udiv
  split <;> simp [*]

theorem udiv_of_ne {x y : ℤ} (h : u32 y ≠ 0) : udiv x y = some (u32 x / u32 y) := if_neg h

/-- A round traps exactly where one of its divisors is zero. -/
theorem tryCombo_eq_none_iff {c : VlvCombo} : tryCombo limit target refclk c = none ↔
    u32 c.m1 = 0 ∨ u32 (2 * refclk) = 0 ∨
      VcoInRange limit target refclk c ∧ (u32 (c.p1 * c.p2) = 0 ∨ fastclk target = 0) := by
  unfold tryCombo tryVlv
  by_cases hm1 : u32 c.m1 = 0
  · simp [udiv_eq_none_iff.mpr hm1, hm1]
  by_cases href : u32 (2 * refclk) = 0
  · simp [udiv_eq_none_iff.mpr href, href]
  simp only [udiv_of_ne hm1, udiv_of_ne href, Option.bind_eq_bind, hm1, href,
    false_or]
  change (if VcoInRange limit target refclk c then
    (udiv (vcoOf target refclk c) (u32 (c.p1 * c.p2))).bind _ else _) = none ↔ _
  by_cases hvco : VcoInRange limit target refclk c
  · rw [if_pos hvco]
    by_cases hp : u32 (c.p1 * c.p2) = 0
    · rw [udiv_eq_none_iff.mpr (by rw [u32_u32, hp])]
      exact iff_of_true rfl ⟨hvco, Or.inl hp⟩
    · rw [udiv_of_ne (by rwa [u32_u32])]
      by_cases hfast : fastclk target = 0
      · have htrap (x : ℤ) : udiv x (fastclk target) = none :=
          udiv_eq_none_iff.mpr (by rw [u32_fastclk, hfast])
        simp only [Option.bind_some, htrap, Option.bind_none]
        exact iff_of_true trivial ⟨hvco, Or.inr hfast⟩
      · have hne : u32 (fastclk target) ≠ 0 := by rwa [u32_fastclk]
        simp only [udiv_of_ne hne]
        exact iff_of_false (by simp) fun h => h.2.elim hp hfast
  · rw [if_neg hvco]
    exact iff_of_false (by simp) fun h => hvco h.1

theorem udiv_range {x y z : ℤ} (h : udiv x y = some z) : 0 ≤ z ∧ z < 0x100000000 := by
  unfold udiv at h
  split at h
  · cases h
  · cases h
    have hx := Int.emod_lt_of_pos x (by decide : (0 : ℤ) < 0x100000000)
    exact ⟨Int.ediv_nonneg (u32_nonneg x) (u32_nonneg y),
      (Int.ediv_le_self _ (u32_nonneg x)).trans_lt hx⟩

/-- The deviation of a round is a word. -/
theorem ppm_range {r : VlvTried} (h : r ∈ vlvTried limit target refclk) :
    0 ≤ r.ppm ∧ r.ppm < 0x100000000 := by
  obtain ⟨o, ho, hr⟩ := List.mem_filterMap.mp h
  obtain ⟨c, -, hc⟩ := List.mem_filterMap.mp ho
  cases (show o = some r from hr)
  unfold tryCombo tryVlv at hc
  simp only [Option.bind_eq_bind, Option.bind_eq_some_iff] at hc
  obtain ⟨q, -, m2, -, hc⟩ := hc
  split at hc
  · simp only [Option.bind_eq_some_iff, Option.some.injEq] at hc
    obtain ⟨clock, -, ppm, hppm, rfl⟩ := hc
    exact udiv_range hppm
  · cases hc

end Space

/-! ### The loops as one search -/

section Loops
variable {limit : IntelLimit} {target refclk : ℤ}

theorem vlvInner_eq (fast n updrate : ℤ) (s : VlvState) :
    vlvInner limit refclk fast n updrate s = (vlvBox limit n).foldlM (fun s c =>
      (tryVlv limit refclk fast updrate c).map fun r => r.elim s (takeVlv s)) s := by
  unfold vlvInner vlvBox
  simp only [foldlM_flatMap, List.foldlM_map]

theorem vlvFindBestDpll_eq (hn : ∀ n ∈ vlvNs limit refclk, u32 n ≠ 0) :
    vlvFindBestDpll limit target refclk =
      ((vlvCombos limit refclk).foldlM (fun s c =>
        (tryCombo limit target refclk c).map fun r => r.elim s (takeVlv s)) {}).map
          fun s => (true, s.best) := by
  have hloop : (vlvNs limit refclk).foldlM (fun s n => do
      let updrate ← udiv refclk n
      vlvInner limit refclk (fastclk target) n updrate s) ({} : VlvState) =
      (vlvCombos limit refclk).foldlM (fun s c =>
        (tryCombo limit target refclk c).map fun r => r.elim s (takeVlv s)) {} := by
    rw [vlvCombos, foldlM_flatMap]
    apply foldlM_congr
    intro n hmem s
    change (udiv refclk n).bind _ = _
    rw [udiv_of_ne (hn n hmem), Option.bind_some, vlvInner_eq]
    apply foldlM_congr
    intro c hc s
    -- The rounds inside the loop over n have its n.
    have hcn : c.n = n := by
      simp only [vlvBox, List.mem_flatMap, List.mem_map] at hc
      obtain ⟨p1, -, p2, -, m1, -, rfl⟩ := hc
      rfl
    rw [tryCombo, hcn]
  unfold vlvFindBestDpll
  rw [hloop, Option.map_eq_bind]
  rfl

/-- The rounds whose vco is out of the range change nothing. -/
theorem foldl_tried (l : List (Option VlvTried)) (s : VlvState) :
    l.foldl (fun s r => r.elim s (takeVlv s)) s = (l.filterMap id).foldl takeVlv s := by
  induction l generalizing s with
  | nil => rfl
  | cons r l ih =>
    cases r with
    | none => exact ih s
    | some c => exact ih (takeVlv s c)

/-- The search traps exactly where one of its divisors is zero, and else it compares what it tries
one after the other. -/
theorem vlvFindBestDpll_spec (limit : IntelLimit) (target refclk : ℤ) :
    vlvFindBestDpll limit target refclk =
      some (true, ((vlvTried limit target refclk).foldl takeVlv {}).best) ∧
        VlvTrapFree limit target refclk ∨
    vlvFindBestDpll limit target refclk = none ∧ ¬ VlvTrapFree limit target refclk := by
  by_cases hn : ∀ n ∈ vlvNs limit refclk, u32 n ≠ 0
  · rw [vlvFindBestDpll_eq hn]
    cases hrun : (vlvCombos limit refclk).foldlM (fun s c =>
        (tryCombo limit target refclk c).map fun r => r.elim s (takeVlv s)) ({} : VlvState) with
    | none =>
      right
      refine ⟨rfl, ?_⟩
      intro hfree
      obtain ⟨c, hc, hnone⟩ := (foldlM_map_eq_none_iff _).mp hrun
      rcases tryCombo_eq_none_iff.mp hnone with h | h | ⟨hvco, h | h⟩
      · exact hfree.m1 c hc h
      · exact hfree.ref c hc h
      · exact hfree.p c hc hvco h
      · exact hfree.fast c hc hvco h
    | some s =>
      left
      constructor
      · have hs := foldlM_map_eq_some hrun
        rw [hs, foldl_tried]
        rfl
      · have hsome (c : VlvCombo) (hc : c ∈ vlvCombos limit refclk) :
            tryCombo limit target refclk c ≠ none := by
          intro hnone
          have htrap := (foldlM_map_eq_none_iff (g := fun s (r : Option VlvTried) =>
            r.elim s (takeVlv s)) ({} : VlvState)).mpr ⟨c, hc, hnone⟩
          rw [hrun] at htrap
          cases htrap
        refine ⟨hn, ?_, ?_, ?_, ?_⟩
        · exact fun c hc h => hsome c hc (tryCombo_eq_none_iff.mpr (.inl h))
        · exact fun c hc h => hsome c hc (tryCombo_eq_none_iff.mpr (.inr (.inl h)))
        · exact fun c hc hv h => hsome c hc (tryCombo_eq_none_iff.mpr (.inr (.inr ⟨hv, .inl h⟩)))
        · exact fun c hc hv h => hsome c hc (tryCombo_eq_none_iff.mpr (.inr (.inr ⟨hv, .inr h⟩)))
  · right
    refine ⟨?_, fun hfree => hn hfree.n⟩
    simp only [not_forall, not_not] at hn
    obtain ⟨n, hmem, h0⟩ := hn
    unfold vlvFindBestDpll
    rw [foldlM_eq_none hmem]
    · rfl
    · intro s
      rw [udiv_eq_none_iff.mpr h0]
      rfl

end Loops

/-! ### What is kept -/

def VlvDivisors.vco (refclk : ℤ) (d : VlvDivisors) : ℚ := (refclk * d.m1 * d.m2 : ℤ) / (d.n : ℤ)

/-- In ppm of the clock that is asked for, which is five times the target. -/
def VlvDivisors.deviation (target refclk : ℤ) (d : VlvDivisors) : ℚ :=
  |d.vco refclk / (d.p1 * d.p2 : ℤ) - (5 * target : ℤ)| / (5 * target : ℤ) * 1000000

/-- The divisors are not zero and within the limits, and the vco is in its range. -/
structure VlvDivisors.Sound (limit : IntelLimit) (refclk : ℤ) (d : VlvDivisors) : Prop where
  nonzero : d.n ≠ 0 ∧ d.m1 ≠ 0 ∧ d.m2 ≠ 0 ∧ d.p1 ≠ 0 ∧ d.p2 ≠ 0
  n : limit.n.Has d.n
  m1 : limit.m1.Has d.m1
  m2 : limit.m2.Has d.m2
  p1 : limit.p1.Has d.p1
  p2 : limit.p2Slow ≤ d.p2 ∧ d.p2 ≤ limit.p2Fast
  vco : (limit.vco.min : ℚ) ≤ d.vco refclk ∧ d.vco refclk ≤ limit.vco.max

/-- Out of 100 ppm, it is at most 10 ppm worse than all that was compared. -/
def VlvDivisors.NearBest (limit : IntelLimit) (target refclk : ℤ) (d : VlvDivisors) : Prop :=
  d.deviation target refclk ≤ 100 ∨ ∀ c ∈ vlvTried limit target refclk,
    d.deviation target refclk ≤ c.divisors.deviation target refclk + 10

/-- No division traps and the divisors are sound and near the best. -/
def VlvMeets (limit : IntelLimit) (target refclk : ℤ) : Prop :=
  ∃ d, vlvFindBestDpll limit target refclk = some (true, d) ∧ d.Sound limit refclk ∧
    d.NearBest limit target refclk

/-- Something is better than what the search starts with. -/
def VlvFound (limit : IntelLimit) (target refclk : ℤ) : Prop :=
  ∃ c ∈ vlvTried limit target refclk, c.ppm < 999990

/-- The same with the deviations as they are computed, without their sign. -/
def VlvTop (limit : IntelLimit) (target refclk : ℤ) (e : VlvTried) : Prop :=
  e.ppm < 100 ∨ ∀ c ∈ vlvTried limit target refclk, e.ppm ≤ c.ppm + 10

/-- The search keeps clear of what it gets wrong. -/
structure VlvRegular (limit : IntelLimit) (target refclk : ℤ) : Prop where
  trapFree : VlvTrapFree limit target refclk
  found : VlvFound limit target refclk
  /-- `bestppm - 10` does not wrap while there is more to compare. -/
  noWrap : (vlvTried limit target refclk).Pairwise fun c _ => 10 ≤ c.ppm
  /-- What is near the best as it is computed is so exactly, and is within the limits that are not
  looked at. -/
  top : ∀ e ∈ vlvTried limit target refclk, VlvTop limit target refclk e →
    e.divisors.Sound limit refclk ∧ e.divisors.NearBest limit target refclk

/-- After the candidates in `P`: nothing was kept, or one that is near or at most 10 behind the
others. -/
def VlvKept (P : VlvTried → Prop) (s : VlvState) : Prop :=
  (s = {} ∧ ∀ c, P c → 999990 ≤ c.ppm) ∨
    ∃ b, P b ∧ s = { bestppm := b.ppm, best := b.divisors } ∧
      (b.ppm < 100 ∨ ∀ c, P c → b.ppm ≤ c.ppm + 10)

/-- One turn, while `bestppm - 10` does not wrap. -/
theorem takeVlv_cases {s : VlvState} {c : VlvTried} (hs : 10 ≤ s.bestppm)
    (hmax : s.bestppm < 0x100000000) :
    takeVlv s c = { bestppm := c.ppm, best := c.divisors } ∧
        (c.ppm < 100 ∨ c.ppm + 10 < s.bestppm) ∨
      takeVlv s c = s ∧ s.bestppm ≤ c.ppm + 10 := by
  unfold takeVlv
  by_cases hl : c.ppm < 100 ∧
      u32 (s.best.p1 * s.best.p2) < u32 (c.divisors.p1 * c.divisors.p2)
  · -- The best is first taken to be zero, from which ten are then taken off.
    left
    rw [if_pos (by omega)]
    exact ⟨rfl, Or.inl hl.1⟩
  · simp only [if_neg hl]
    rw [Int.emod_eq_of_lt (by omega) (by omega)]
    by_cases hlt : c.ppm < s.bestppm - 10
    · rw [if_pos hlt]
      exact Or.inl ⟨rfl, Or.inr (by omega)⟩
    · rw [if_neg hlt]
      exact Or.inr ⟨rfl, by omega⟩

theorem VlvKept.take {P : VlvTried → Prop} {s : VlvState} {c : VlvTried} (h : VlvKept P s)
    (hP : ∀ b, P b → 10 ≤ b.ppm ∧ b.ppm < 0x100000000) :
    VlvKept (fun b => P b ∨ b = c) (takeVlv s c) := by
  rcases h with ⟨rfl, hnone⟩ | ⟨b, hb, rfl, hbest⟩
  · rcases takeVlv_cases (s := {}) (c := c) (by decide) (by decide) with
      ⟨htake, hlt⟩ | ⟨hstay, hge⟩
    · refine Or.inr ⟨c, Or.inr rfl, htake, Or.inr ?_⟩
      rintro d (hd | rfl)
      · have := hnone d hd
        change c.ppm < 100 ∨ c.ppm + 10 < 1000000 at hlt
        omega
      · omega
    · refine Or.inl ⟨hstay, ?_⟩
      rintro d (hd | rfl)
      · exact hnone d hd
      · change (1000000 : ℤ) ≤ d.ppm + 10 at hge
        omega
  · obtain ⟨hb10, hbmax⟩ := hP b hb
    rcases takeVlv_cases (c := c) (s := { bestppm := b.ppm, best := b.divisors }) hb10 hbmax with
      ⟨htake, hlt⟩ | ⟨hstay, hge⟩
    · refine Or.inr ⟨c, Or.inr rfl, htake, ?_⟩
      rcases hlt with hlt | hlt
      · exact Or.inl hlt
      · change c.ppm + 10 < b.ppm at hlt
        rcases hbest with hnear | hbest
        · exact Or.inl (by omega)
        · refine Or.inr ?_
          rintro d (hd | rfl)
          · have := hbest d hd
            omega
          · omega
    · refine Or.inr ⟨b, Or.inl hb, hstay, hbest.imp_right ?_⟩
      rintro hbest d (hd | rfl)
      · exact hbest d hd
      · exact hge

/-- A whole list, in which only the last one may be below ten. -/
theorem VlvKept.foldl {P : VlvTried → Prop} {l : List VlvTried} {s : VlvState} (h : VlvKept P s)
    (hP : l ≠ [] → ∀ b, P b → 10 ≤ b.ppm ∧ b.ppm < 0x100000000)
    (hl : l.Pairwise fun c _ => 10 ≤ c.ppm) (hmax : ∀ c ∈ l, c.ppm < 0x100000000) :
    VlvKept (fun b => P b ∨ b ∈ l) (l.foldl takeVlv s) := by
  induction l generalizing P s with
  | nil => simpa using h
  | cons c l ih =>
    obtain ⟨hc, hl⟩ := List.pairwise_cons.mp hl
    have hPc := hP (List.cons_ne_nil c l)
    have hstep := h.take (c := c) hPc
    have hrest := ih hstep (by
      intro hne b hb
      rcases hb with hb | rfl
      · exact hPc b hb
      · obtain ⟨d, hd⟩ := List.exists_mem_of_ne_nil l hne
        exact ⟨hc d hd, hmax b List.mem_cons_self⟩)
      hl (fun d hd => hmax d (List.mem_cons_of_mem c hd))
    simpa only [List.foldl_cons, List.mem_cons, or_assoc] using hrest

section Claim
variable {limit : IntelLimit} {target refclk : ℤ}

/-- Nothing that is better than the start leaves the start. -/
theorem foldl_start {l : List VlvTried} (h : ∀ c ∈ l, 999990 ≤ c.ppm) :
    l.foldl takeVlv {} = {} := by
  induction l with
  | nil => rfl
  | cons c l ih =>
    have hc := h c List.mem_cons_self
    have hstay : takeVlv {} c = {} := by
      have hl : ¬ (c.ppm < 100 ∧ u32 (0 * 0) < u32 (c.divisors.p1 * c.divisors.p2)) := by omega
      unfold takeVlv
      simp only [if_neg hl]
      rw [if_neg (by omega)]
    rw [List.foldl_cons, hstay]
    exact ih fun d hd => h d (List.mem_cons_of_mem c hd)

theorem VlvMeets.necessary (h : VlvMeets limit target refclk) :
    VlvTrapFree limit target refclk ∧ VlvFound limit target refclk := by
  obtain ⟨d, hrun, hsound, -⟩ := h
  rcases vlvFindBestDpll_spec limit target refclk with
    ⟨hspec, hfree⟩ | ⟨hnone, -⟩
  · refine ⟨hfree, ?_⟩
    by_contra hnot
    have hle : ∀ c ∈ vlvTried limit target refclk, 999990 ≤ c.ppm := by
      intro c hc
      by_contra hlt
      exact hnot ⟨c, hc, not_le.mp hlt⟩
    rw [foldl_start hle, hrun] at hspec
    cases hspec
    exact hsound.nonzero.1 rfl
  · rw [hnone] at hrun
    cases hrun

theorem VlvRegular.meets (h : VlvRegular limit target refclk) : VlvMeets limit target refclk := by
  rcases vlvFindBestDpll_spec limit target refclk with
    ⟨hspec, -⟩ | ⟨-, htrap⟩
  · have hkept := VlvKept.foldl (P := fun _ => False) (s := {}) (Or.inl ⟨rfl, fun _ h => h.elim⟩)
      (fun _ _ h => h.elim) h.noWrap fun c hc => (ppm_range hc).2
    rcases hkept with ⟨-, hnone⟩ | ⟨b, hb, hs, hbest⟩
    · obtain ⟨c, hc, hlt⟩ := h.found
      exact absurd (hnone c (Or.inr hc)) (not_le.mpr hlt)
    · have hmem := hb.resolve_left id
      have htop : VlvTop limit target refclk b := by
        apply hbest.imp_right
        intro hle c hc
        exact hle c (Or.inr hc)
      refine ⟨b.divisors, ?_, h.top b hmem htop⟩
      rw [hspec, hs]
  · exact absurd h.trapFree htrap

end Claim

end GfxDrm.Dpll
