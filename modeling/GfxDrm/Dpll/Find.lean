import GfxDrm.Lib.Best
import GfxDrm.Lib.Word
import Mathlib.Algebra.Order.Group.Unbundled.Abs

/-! The search for the divisors of a PLL (find_dpll in intel_display.c). -/

namespace GfxDrm.Dpll
open CInt Best

structure IntelRange where
  min : ℤ
  max : ℤ

/-- struct intel_limit, with the fields of its p2. -/
structure IntelLimit where
  dot : IntelRange
  vco : IntelRange
  n : IntelRange
  m : IntelRange
  m1 : IntelRange
  m2 : IntelRange
  p : IntelRange
  p1 : IntelRange
  dotLimit : ℤ
  p2Slow : ℤ
  p2Fast : ℤ

/-- struct dpll. -/
structure IntelClock where
  n : ℤ := 0
  m1 : ℤ := 0
  m2 : ℤ := 0
  p1 : ℤ := 0
  p2 : ℤ := 0
  dot : ℤ := 0
  vco : ℤ := 0
  m : ℤ := 0
  p : ℤ := 0
  deriving DecidableEq, Repr

/-- What the crtc drives, as far as p2 depends on it. -/
structure PipeOutput where
  lvds : Bool
  dualLink : Bool

/-- `x / y`; none where the division traps. -/
def idiv (x y : ℤ) : Option ℤ := if y = 0 then none else some (i32 (x.tdiv y))

def i9xxDpllComputeM (c : IntelClock) : ℤ := u32 (5 * (c.m1 + 2) + (c.m2 + 2))

/-- A clock from its m, p and the divisor of its vco. -/
def derive (refclk m d : ℤ) (c : IntelClock) : Option IntelClock := do
  let p := i32 (c.p1 * c.p2)
  let vco ← idiv (i32 (refclk * m)) d
  let dot ← idiv vco p
  some { c with m, p, vco, dot }

def i9xxClock (refclk : ℤ) (c : IntelClock) : Option IntelClock :=
  derive refclk (i32 (i9xxDpllComputeM c)) (i32 (c.n + 2)) c

def pineviewClock (refclk : ℤ) (c : IntelClock) : Option IntelClock :=
  derive refclk (i32 (c.m2 + 2)) c.n c

def IntelRange.Has (r : IntelRange) (x : ℤ) : Prop := r.min ≤ x ∧ x ≤ r.max

instance (r : IntelRange) : DecidablePred r.Has := fun _ => inferInstanceAs (Decidable (_ ∧ _))

/-- intel_PLL_is_valid. -/
structure PllIsValid (pineview : Bool) (limit : IntelLimit) (c : IntelClock) : Prop where
  p1 : limit.p1.Has c.p1
  p : limit.p.Has c.p
  m2 : limit.m2.Has c.m2
  m1 : limit.m1.Has c.m1
  m1_m2 : ¬(c.m1 ≤ c.m2 ∧ pineview = false)
  m : limit.m.Has c.m
  n : limit.n.Has c.n
  vco : limit.vco.Has c.vco
  dot : limit.dot.Has c.dot

instance (pineview : Bool) (limit : IntelLimit) (c : IntelClock) :
    Decidable (PllIsValid pineview limit c) :=
  decidable_of_iff (limit.p1.Has c.p1 ∧ limit.p.Has c.p ∧ limit.m2.Has c.m2 ∧ limit.m1.Has c.m1 ∧
      ¬(c.m1 ≤ c.m2 ∧ pineview = false) ∧ limit.m.Has c.m ∧ limit.n.Has c.n ∧
      limit.vco.Has c.vco ∧ limit.dot.Has c.dot)
    ⟨fun ⟨h1, h2, h3, h4, h5, h6, h7, h8, h9⟩ => ⟨h1, h2, h3, h4, h5, h6, h7, h8, h9⟩,
      fun ⟨h1, h2, h3, h4, h5, h6, h7, h8, h9⟩ => ⟨h1, h2, h3, h4, h5, h6, h7, h8, h9⟩⟩

/-- The p2 that the searches start with. -/
def chooseP2 (limit : IntelLimit) (out : PipeOutput) (target : ℤ) : ℤ :=
  if out.lvds then if out.dualLink then limit.p2Fast else limit.p2Slow
  else if target < limit.dotLimit then limit.p2Slow else limit.p2Fast

/-- The numbers of a range, going up. -/
def upTo (r : IntelRange) : List ℤ :=
  (List.range (r.max - r.min + 1).toNat).map fun k : ℕ => r.min + k

/-- `abs(clock.dot - target)`. -/
def thisErr (target : ℤ) (c : IntelClock) : ℤ := i32 (|i32 (c.dot - target)|)

/-! ### i9xx and Pineview -/

/-- `clock.p != match_clock->p` is not the case. -/
def matchesP (matchP : Option ℤ) (c : IntelClock) : Prop := ∀ p ∈ matchP, c.p = p

instance (matchP : Option ℤ) (c : IntelClock) : Decidable (matchesP matchP c) :=
  inferInstanceAs (Decidable (∀ _ ∈ _, _))

/-- The body of the loops: the best clock so far with its error. -/
def tryClock (clockOf : IntelClock → Option IntelClock) (pineview : Bool) (limit : IntelLimit)
    (matchP : Option ℤ) (target : ℤ) (s : IntelClock × ℤ) (c : IntelClock) :
    Option (IntelClock × ℤ) :=
  (clockOf c).map fun clock =>
    if PllIsValid pineview limit clock ∧ matchesP matchP clock then
      improve (thisErr target) Prod.snd (fun c => (c, thisErr target c)) s clock
    else s

/-- The loops of i9xx_find_best_dpll and pnv_find_best_dpll; `m2s` are the values of m2. -/
def findLoops (clockOf : IntelClock → Option IntelClock) (pineview : Bool) (limit : IntelLimit)
    (m2s : ℤ → List ℤ) (p2 target : ℤ) (matchP : Option ℤ) : Option (Bool × IntelClock) := do
  let (best, err) ←
    (upTo limit.m1).foldlM (fun s m1 =>
      (m2s m1).foldlM (fun s m2 =>
        (upTo limit.n).foldlM (fun s n =>
          (upTo limit.p1).foldlM (fun s p1 =>
            tryClock clockOf pineview limit matchP target s { n, m1, m2, p1, p2 }) s) s) s)
      (({} : IntelClock), target)
  some (decide (err ≠ target), best)

/-- i9xx_find_best_dpll, which is not used on Pineview; none where a division traps. -/
def i9xxFindBestDpll (limit : IntelLimit) (out : PipeOutput) (target refclk : ℤ)
    (matchP : Option ℤ) : Option (Bool × IntelClock) :=
  findLoops (i9xxClock refclk) false limit (fun m1 => (upTo limit.m2).takeWhile (· < m1))
    (chooseP2 limit out target) target matchP

/-- pnv_find_best_dpll. -/
def pnvFindBestDpll (limit : IntelLimit) (out : PipeOutput) (target refclk : ℤ)
    (matchP : Option ℤ) : Option (Bool × IntelClock) :=
  findLoops (pineviewClock refclk) true limit (fun _ => upTo limit.m2)
    (chooseP2 limit out target) target matchP

/-! ### G4X -/

structure G4xState where
  best : IntelClock
  errMost : ℤ
  maxN : ℤ
  found : Bool

def tryG4x (limit : IntelLimit) (target refclk : ℤ) (s : G4xState) (c : IntelClock) :
    Option G4xState :=
  (i9xxClock refclk c).map fun clock =>
    if PllIsValid false limit clock then
      improve (thisErr target) G4xState.errMost
        (fun c => ⟨c, thisErr target c, c.n, true⟩) s clock
    else s

/-- The loops inside the one over n; they go down. -/
def g4xInner (limit : IntelLimit) (p2 target refclk n : ℤ) (s : G4xState) : Option G4xState :=
  (upTo limit.m1).reverse.foldlM (fun s m1 =>
    (upTo limit.m2).reverse.foldlM (fun s m2 =>
      (upTo limit.p1).reverse.foldlM (fun s p1 =>
        tryG4x limit target refclk s { n, m1, m2, p1, p2 }) s) s) s

/-- The loop over n as long as n is at most `max_n`. -/
def g4xLoop (limit : IntelLimit) (p2 target refclk : ℤ) : List ℤ → G4xState → Option G4xState
  | [], s => some s
  | n :: ns, s =>
    if n ≤ s.maxN then do
      let s ← g4xInner limit p2 target refclk n s
      g4xLoop limit p2 target refclk ns s
    else some s

/-- The tolerance that g4x_find_best_dpll starts with. -/
def errMost (target : ℤ) : ℤ := target / 256 + target / 512

/-- g4x_find_best_dpll. -/
def g4xFindBestDpll (limit : IntelLimit) (out : PipeOutput) (target refclk : ℤ) :
    Option (Bool × IntelClock) := do
  let s ← g4xLoop limit (chooseP2 limit out target) target refclk (upTo limit.n)
    ⟨{}, errMost target, limit.n.max, false⟩
  some (s.found, s.best)

/-! ### The candidates -/

theorem mem_upTo {r : IntelRange} {x : ℤ} : x ∈ upTo r ↔ r.Has x := by
  unfold upTo IntelRange.Has
  rw [List.mem_map]
  constructor
  · rintro ⟨k, hk, rfl⟩
    have := List.mem_range.mp hk
    omega
  · intro h
    exact ⟨(x - r.min).toNat, List.mem_range.mpr (by omega), by omega⟩

theorem upTo_pairwise (r : IntelRange) : (upTo r).Pairwise (· < ·) :=
  List.pairwise_map.mpr (List.pairwise_lt_range.imp fun h => by omega)

/-- What a clock function works out, of the divisors alone. -/
structure Derives (clockOf : IntelClock → Option IntelClock) : Prop where
  again : ∀ {d c}, clockOf d = some c → clockOf c = some c
  divisors : ∀ {d c}, clockOf d = some c →
    c.n = d.n ∧ c.m1 = d.m1 ∧ c.m2 = d.m2 ∧ c.p1 = d.p1 ∧ c.p2 = d.p2
  given : ∀ c : IntelClock, clockOf { c with dot := 0, vco := 0, m := 0, p := 0 } = clockOf c

theorem derive_eq_some {refclk m d : ℤ} {c c' : IntelClock} (h : derive refclk m d c = some c') :
    ∃ vco dot, idiv (i32 (refclk * m)) d = some vco ∧ idiv vco (i32 (c.p1 * c.p2)) = some dot ∧
      c' = { c with m := m, p := i32 (c.p1 * c.p2), vco := vco, dot := dot } := by
  obtain ⟨vco, hvco, h⟩ := Option.bind_eq_some_iff.mp h
  obtain ⟨dot, hdot, h⟩ := Option.bind_eq_some_iff.mp h
  exact ⟨vco, dot, hvco, hdot, (Option.some.inj h).symm⟩

theorem i9xxClock_derives (refclk : ℤ) : Derives (i9xxClock refclk) where
  again h := by
    obtain ⟨vco, dot, hvco, hdot, rfl⟩ := derive_eq_some h
    exact h
  divisors h := by
    obtain ⟨vco, dot, -, -, rfl⟩ := derive_eq_some h
    exact ⟨rfl, rfl, rfl, rfl, rfl⟩
  given c := rfl

theorem pineviewClock_derives (refclk : ℤ) : Derives (pineviewClock refclk) where
  again h := by
    obtain ⟨vco, dot, hvco, hdot, rfl⟩ := derive_eq_some h
    exact h
  divisors h := by
    obtain ⟨vco, dot, -, -, rfl⟩ := derive_eq_some h
    exact ⟨rfl, rfl, rfl, rfl, rfl⟩
  given c := rfl

/-- A combination of divisors with the chosen p2 that is valid and has the requested p. -/
structure Combination (clockOf : IntelClock → Option IntelClock) (pineview : Bool)
    (limit : IntelLimit) (p2 : ℤ) (matchP : Option ℤ) (c : IntelClock) : Prop where
  made : clockOf c = some c
  valid : PllIsValid pineview limit c
  p2 : c.p2 = p2
  matchesP : matchesP matchP c

/-- The divisors that the loops go through, in their order. -/
def box (limit : IntelLimit) (m2s : ℤ → List ℤ) (p2 : ℤ) : List IntelClock :=
  (upTo limit.m1).flatMap fun m1 => (m2s m1).flatMap fun m2 =>
    (upTo limit.n).flatMap fun n => (upTo limit.p1).map fun p1 => { n, m1, m2, p1, p2 }

variable {clockOf : IntelClock → Option IntelClock} {pineview : Bool} {limit : IntelLimit}
  {m2s : ℤ → List ℤ} {p2 target refclk : ℤ} {matchP : Option ℤ}

theorem mem_box {d : IntelClock} : d ∈ box limit m2s p2 ↔ limit.m1.Has d.m1 ∧ d.m2 ∈ m2s d.m1 ∧
    limit.n.Has d.n ∧ limit.p1.Has d.p1 ∧
      d = { n := d.n, m1 := d.m1, m2 := d.m2, p1 := d.p1, p2 := p2 } := by
  simp only [box, List.mem_flatMap, List.mem_map, mem_upTo]
  constructor
  · rintro ⟨m1, hm1, m2, hm2, n, hn, p1, hp1, rfl⟩
    exact ⟨hm1, hm2, hn, hp1, rfl⟩
  · rintro ⟨hm1, hm2, hn, hp1, hd⟩
    exact ⟨d.m1, hm1, d.m2, hm2, d.n, hn, d.p1, hp1, hd.symm⟩

variable {c : IntelClock}

/-- The candidates of the loops are the combinations. -/
theorem mem_candidates (hclock : Derives clockOf)
    (hm2 : ∀ c, PllIsValid pineview limit c → c.m2 ∈ m2s c.m1) :
    c ∈ (box limit m2s p2).filterMap clockOf ∧
        (PllIsValid pineview limit c ∧ matchesP matchP c) ↔
      Combination clockOf pineview limit p2 matchP c := by
  rw [List.mem_filterMap]
  constructor
  · rintro ⟨⟨d, hd, hc⟩, hvalid, hmatch⟩
    obtain ⟨-, -, -, -, hp2⟩ := hclock.divisors hc
    obtain ⟨-, -, -, -, hd⟩ := mem_box.mp hd
    exact ⟨hclock.again hc, hvalid, hp2.trans (congrArg IntelClock.p2 hd), hmatch⟩
  · rintro ⟨hmade, hvalid, hp2, hmatch⟩
    refine ⟨⟨{ c with dot := 0, vco := 0, m := 0, p := 0 }, ?_, (hclock.given c).trans hmade⟩,
      hvalid, hmatch⟩
    exact mem_box.mpr ⟨hvalid.m1, hm2 c hvalid, hvalid.n, hvalid.p1, hp2 ▸ rfl⟩

theorem findLoops_eq : findLoops clockOf pineview limit m2s p2 target matchP =
    ((box limit m2s p2).foldlM (tryClock clockOf pineview limit matchP target) ({}, target)).map
      fun s => (decide (s.2 ≠ target), s.1) := by
  unfold findLoops box
  simp only [foldlM_flatMap, List.foldlM_map, Option.map_eq_bind]
  rfl

/-! ### The best clock -/

/-- What a search returns: whether a combination has an error below the target, and then one with
the least error. -/
structure BestDpll (Comb : IntelClock → Prop) (target : ℤ) (r : Bool × IntelClock) : Prop where
  found_iff : r.1 = true ↔ ∃ c, Comb c ∧ |c.dot - target| < target
  best : r.1 = true → Comb r.2 ∧ |r.2.dot - target| < target ∧
    ∀ c, Comb c → |r.2.dot - target| ≤ |c.dot - target|

/-- The differences that are computed are ints. -/
def ErrFits (limit : IntelLimit) (target : ℤ) : Prop :=
  ∀ dot, limit.dot.Has dot → |dot - target| < 2 ^ 31

theorem thisErr_eq (h : ErrFits limit target) (hc : PllIsValid pineview limit c) :
    thisErr target c = |c.dot - target| := by
  have hlt := h c.dot hc.dot
  have hint : i32 (c.dot - target) = c.dot - target := by
    apply i32_of_range
    · have := neg_abs_le (c.dot - target)
      omega
    · have := le_abs_self (c.dot - target)
      omega
  rw [thisErr, hint]
  exact i32_of_range ((by decide : (-0x80000000 : ℤ) ≤ 0).trans (abs_nonneg _)) hlt

theorem findLoops_best (hclock : Derives clockOf)
    (hm2 : ∀ c, PllIsValid pineview limit c → c.m2 ∈ m2s c.m1) (h : ErrFits limit target)
    {r : Bool × IntelClock} (hr : findLoops clockOf pineview limit m2s p2 target matchP = some r) :
    BestDpll (Combination clockOf pineview limit p2 matchP) target r := by
  rw [findLoops_eq] at hr
  obtain ⟨s, hs, rfl⟩ := Option.map_eq_some_iff.mp hr
  have herr {c : IntelClock} (hc : Combination clockOf pineview limit p2 matchP c) :
      thisErr target c = |c.dot - target| := thisErr_eq h hc.valid
  obtain ⟨rfl, hle⟩ | ⟨a, ha, hok, rfl, hlt, hle⟩ := foldlM_improve (thisErr target) Prod.snd
    (fun c => (c, thisErr target c)) (fun _ => rfl)
    (fun c => PllIsValid pineview limit c ∧ matchesP matchP c) hs
  · have hnone : ¬∃ c, Combination clockOf pineview limit p2 matchP c ∧
        |c.dot - target| < target := by
      rintro ⟨c, hc, hlt⟩
      obtain ⟨hmem, hok⟩ := (mem_candidates hclock hm2).mpr hc
      have := hle c hmem hok
      rw [herr hc] at this
      omega
    exact ⟨iff_of_false (by simp) hnone, fun hf => absurd hf (by simp)⟩
  · have hcomb := (mem_candidates hclock hm2).mp ⟨ha, hok⟩
    have hbelow : |a.dot - target| < target := herr hcomb ▸ hlt
    refine ⟨iff_of_true (decide_eq_true (ne_of_lt hlt)) ⟨a, hcomb, hbelow⟩, fun _ =>
      ⟨hcomb, hbelow, fun c hc => ?_⟩⟩
    obtain ⟨hmem, hok⟩ := (mem_candidates hclock hm2).mpr hc
    have := hle c hmem hok
    rwa [herr hcomb, herr hc] at this

/-- No divisor of the ranges is zero. -/
structure Divides (limit : IntelLimit) (p2 : ℤ) (divisor : ℤ → ℤ) : Prop where
  n : ∀ n, limit.n.Has n → divisor n ≠ 0
  p : ∀ p1, limit.p1.Has p1 → i32 (p1 * p2) ≠ 0

theorem derive_isSome {refclk m d : ℤ} (hd : d ≠ 0) (hp : i32 (c.p1 * c.p2) ≠ 0) :
    (derive refclk m d c).isSome := by
  simp only [derive, idiv, if_neg hd, if_neg hp]
  rfl

theorem findLoops_isSome {divisor : ℤ → ℤ} (hdiv : Divides limit p2 divisor)
    (hclock : ∀ d : IntelClock, divisor d.n ≠ 0 → i32 (d.p1 * d.p2) ≠ 0 → (clockOf d).isSome) :
    (findLoops clockOf pineview limit m2s p2 target matchP).isSome := by
  rw [findLoops_eq, Option.isSome_map, Option.isSome_iff_ne_none]
  intro hnone
  obtain ⟨d, hd, hc⟩ := (foldlM_map_eq_none_iff _).mp hnone
  obtain ⟨-, -, hn, hp1, heq⟩ := mem_box.mp hd
  have hp2 : d.p2 = p2 := congrArg IntelClock.p2 heq
  have hsome := hclock d (hdiv.n d.n hn) (hp2 ▸ hdiv.p d.p1 hp1)
  rw [hc] at hsome
  exact absurd hsome (by decide)

/-- i9xx_find_best_dpll looks at all that is valid. -/
theorem i9xxFindBestDpll_best {out : PipeOutput} (h : ErrFits limit target)
    (hdiv : Divides limit (chooseP2 limit out target) fun n => i32 (n + 2)) :
    ∃ r, i9xxFindBestDpll limit out target refclk matchP = some r ∧
      BestDpll (Combination (i9xxClock refclk) false limit (chooseP2 limit out target) matchP)
        target r := by
  have hsome : (i9xxFindBestDpll limit out target refclk matchP).isSome :=
    findLoops_isSome hdiv fun _ => derive_isSome
  obtain ⟨r, hr⟩ := Option.isSome_iff_exists.mp hsome
  refine ⟨r, hr, findLoops_best (i9xxClock_derives refclk) (fun c hc => ?_) h hr⟩
  refine (mem_takeWhile (upTo_pairwise _) fun a b hab hb => ?_).mpr
    ⟨mem_upTo.mpr hc.m2, ?_⟩
  · rw [decide_eq_true_eq] at hb ⊢
    exact hab.trans hb
  rw [decide_eq_true_eq]
  have := hc.m1_m2
  simp only [and_true] at this
  omega

theorem pnvFindBestDpll_best {out : PipeOutput} (h : ErrFits limit target)
    (hdiv : Divides limit (chooseP2 limit out target) fun n => n) :
    ∃ r, pnvFindBestDpll limit out target refclk matchP = some r ∧
      BestDpll (Combination (pineviewClock refclk) true limit (chooseP2 limit out target) matchP)
        target r := by
  have hsome : (pnvFindBestDpll limit out target refclk matchP).isSome :=
    findLoops_isSome hdiv fun _ => derive_isSome
  obtain ⟨r, hr⟩ := Option.isSome_iff_exists.mp hsome
  exact ⟨r, hr, findLoops_best (pineviewClock_derives refclk)
    (fun c hc => mem_upTo.mpr hc.m2) h hr⟩

/-! ### G4X -/

/-- The divisors of one n, in the order of the loops. -/
def g4xBox (limit : IntelLimit) (p2 n : ℤ) : List IntelClock :=
  (upTo limit.m1).reverse.flatMap fun m1 => (upTo limit.m2).reverse.flatMap fun m2 =>
    (upTo limit.p1).reverse.map fun p1 => { n, m1, m2, p1, p2 }

theorem g4xInner_eq (n : ℤ) (s : G4xState) : g4xInner limit p2 target refclk n s =
    (g4xBox limit p2 n).foldlM (tryG4x limit target refclk) s := by
  unfold g4xInner g4xBox
  simp only [foldlM_flatMap, List.foldlM_map]

theorem mem_g4xBox {n : ℤ} {d : IntelClock} : d ∈ g4xBox limit p2 n ↔ limit.m1.Has d.m1 ∧
    limit.m2.Has d.m2 ∧ limit.p1.Has d.p1 ∧
      d = { n := n, m1 := d.m1, m2 := d.m2, p1 := d.p1, p2 := p2 } := by
  simp only [g4xBox, List.mem_flatMap, List.mem_map, List.mem_reverse, mem_upTo]
  constructor
  · rintro ⟨m1, hm1, m2, hm2, p1, hp1, rfl⟩
    exact ⟨hm1, hm2, hp1, rfl⟩
  · rintro ⟨hm1, hm2, hp1, hd⟩
    exact ⟨d.m1, hm1, d.m2, hm2, d.p1, hp1, hd.symm⟩

/-- The combinations that g4x_find_best_dpll looks for. -/
abbrev G4xComb (limit : IntelLimit) (p2 refclk : ℤ) : IntelClock → Prop :=
  Combination (i9xxClock refclk) false limit p2 none

theorem mem_g4xCandidates {n : ℤ} :
    c ∈ (g4xBox limit p2 n).filterMap (i9xxClock refclk) ∧ PllIsValid false limit c ↔
      G4xComb limit p2 refclk c ∧ c.n = n ∧ limit.n.Has n := by
  have hclock := i9xxClock_derives refclk
  rw [List.mem_filterMap]
  constructor
  · rintro ⟨⟨d, hd, hc⟩, hvalid⟩
    obtain ⟨hn, -, -, -, hp2⟩ := hclock.divisors hc
    obtain ⟨-, -, -, hd⟩ := mem_g4xBox.mp hd
    have hcn : c.n = n := hn.trans (congrArg IntelClock.n hd)
    have hp2' := hp2.trans (congrArg IntelClock.p2 hd)
    exact ⟨⟨hclock.again hc, hvalid, hp2', fun p hp => by cases hp⟩, hcn, hcn ▸ hvalid.n⟩
  · rintro ⟨⟨hmade, hvalid, hp2, -⟩, rfl, -⟩
    refine ⟨⟨{ c with dot := 0, vco := 0, m := 0, p := 0 }, ?_, (hclock.given c).trans hmade⟩,
      hvalid⟩
    exact mem_g4xBox.mpr ⟨hvalid.m1, hvalid.m2, hvalid.p1, hp2 ▸ rfl⟩

/-- What the loops of one n do. -/
theorem g4xInner_best {n : ℤ} {s s' : G4xState}
    (h : g4xInner limit p2 target refclk n s = some s') :
    (s' = s ∧ ∀ c, G4xComb limit p2 refclk c → c.n = n → s.errMost ≤ thisErr target c) ∨
      ∃ a, G4xComb limit p2 refclk a ∧ a.n = n ∧ s' = ⟨a, thisErr target a, n, true⟩ ∧
        thisErr target a < s.errMost ∧
        ∀ c, G4xComb limit p2 refclk c → c.n = n → thisErr target a ≤ thisErr target c := by
  rw [g4xInner_eq] at h
  have hmem {c : IntelClock} (hc : G4xComb limit p2 refclk c) (hn : c.n = n) :=
    mem_g4xCandidates.mpr ⟨hc, hn, hn ▸ hc.valid.n⟩
  obtain ⟨hstay, hle⟩ | ⟨a, ha, hok, hbest, hlt, hle⟩ := foldlM_improve (thisErr target)
    G4xState.errMost (fun c => ⟨c, thisErr target c, c.n, true⟩) (fun _ => rfl)
    (PllIsValid false limit) h
  · exact .inl ⟨hstay, fun c hc hn => hle c (hmem hc hn).1 (hmem hc hn).2⟩
  · obtain ⟨hcomb, rfl, -⟩ := mem_g4xCandidates.mp ⟨ha, hok⟩
    exact .inr ⟨a, hcomb, rfl, hbest, hlt, fun c hc hn => hle c (hmem hc hn).1 (hmem hc hn).2⟩

/-- The loop over n stops after the first n that has a combination within the tolerance. -/
theorem g4xLoop_best {ns : List ℤ} (hns : ns.Pairwise (· < ·)) {s s' : G4xState}
    (hmax : ∀ n ∈ ns, n ≤ s.maxN) (h : g4xLoop limit p2 target refclk ns s = some s') :
    (s' = s ∧ ∀ c, G4xComb limit p2 refclk c → c.n ∈ ns → s.errMost ≤ thisErr target c) ∨
      ∃ a, G4xComb limit p2 refclk a ∧ s' = ⟨a, thisErr target a, a.n, true⟩ ∧
        thisErr target a < s.errMost ∧
        ∀ c, G4xComb limit p2 refclk c → c.n ∈ ns → thisErr target c < s.errMost →
          a.n ≤ c.n ∧ (c.n = a.n → thisErr target a ≤ thisErr target c) := by
  induction ns generalizing s with
  | nil => exact .inl ⟨(Option.some.inj h).symm, fun c _ hn => (List.not_mem_nil hn).elim⟩
  | cons n ns ih =>
    obtain ⟨hlt, hns⟩ := List.pairwise_cons.mp hns
    rw [g4xLoop, if_pos (hmax n List.mem_cons_self)] at h
    obtain ⟨t, ht, hrest⟩ := Option.bind_eq_some_iff.mp h
    obtain ⟨rfl, hle⟩ | ⟨a, ha, rfl, rfl, hbelow, hle⟩ := g4xInner_best ht
    · obtain ⟨rfl, hlater⟩ | ⟨a, ha, hs', hbelow, hbest⟩ :=
        ih hns (fun m hm => hmax m (List.mem_cons_of_mem _ hm)) hrest
      · refine .inl ⟨rfl, fun c hc hn => ?_⟩
        obtain hn | hn := List.mem_cons.mp hn
        · exact hle c hc hn
        · exact hlater c hc hn
      · refine .inr ⟨a, ha, hs', hbelow, fun c hc hn hcerr => ?_⟩
        obtain hn | hn := List.mem_cons.mp hn
        · exact absurd hcerr (not_lt.mpr (hle c hc hn))
        · exact hbest c hc hn hcerr
    · -- `max_n` is this n, and the others are above it
      have hstop : g4xLoop limit p2 target refclk ns ⟨a, thisErr target a, a.n, true⟩ =
          some ⟨a, thisErr target a, a.n, true⟩ := by
        cases ns with
        | nil => rfl
        | cons m ns =>
          have := hlt m List.mem_cons_self
          rw [g4xLoop, if_neg (by simpa using this)]
      rw [hstop] at hrest
      refine .inr ⟨a, ha, (Option.some.inj hrest).symm, hbelow, fun c hc hn _ => ?_⟩
      obtain hn | hn := List.mem_cons.mp hn
      · exact ⟨hn.ge, fun _ => hle c hc hn⟩
      · exact ⟨(hlt c.n hn).le, fun he => hle c hc he⟩

theorem g4xLoop_isSome (target refclk : ℤ) (hdiv : Divides limit p2 fun n => i32 (n + 2))
    {ns : List ℤ} (hns : ∀ n ∈ ns, limit.n.Has n) (s : G4xState) :
    (g4xLoop limit p2 target refclk ns s).isSome := by
  induction ns generalizing s with
  | nil => rfl
  | cons n ns ih =>
    rw [g4xLoop]
    split
    · have hinner : (g4xInner limit p2 target refclk n s).isSome := by
        rw [g4xInner_eq, Option.isSome_iff_ne_none]
        intro hnone
        obtain ⟨d, hd, hc⟩ := (foldlM_map_eq_none_iff _).mp hnone
        obtain ⟨-, -, hp1, heq⟩ := mem_g4xBox.mp hd
        have hdn : d.n = n := congrArg IntelClock.n heq
        have hp2 : d.p2 = p2 := congrArg IntelClock.p2 heq
        have hsome : (i9xxClock refclk d).isSome := derive_isSome
          (hdn ▸ hdiv.n n (hns n List.mem_cons_self)) (hp2 ▸ hdiv.p d.p1 hp1)
        rw [hc] at hsome
        exact absurd hsome (by decide)
      obtain ⟨t, ht⟩ := Option.isSome_iff_exists.mp hinner
      rw [ht]
      exact ih (fun m hm => hns m (List.mem_cons_of_mem _ hm)) t
    · rfl

/-- What g4x_find_best_dpll returns: a combination of the smallest n that has one within the
tolerance, with the least error of that n. -/
structure G4xBest (Comb : IntelClock → Prop) (target tolerance : ℤ) (r : Bool × IntelClock) :
    Prop where
  found_iff : r.1 = true ↔ ∃ c, Comb c ∧ |c.dot - target| < tolerance
  best : r.1 = true → Comb r.2 ∧ |r.2.dot - target| < tolerance ∧
    ∀ c, Comb c → |c.dot - target| < tolerance →
      r.2.n ≤ c.n ∧ (c.n = r.2.n → |r.2.dot - target| ≤ |c.dot - target|)

theorem g4xFindBestDpll_best {out : PipeOutput} (h : ErrFits limit target)
    (hdiv : Divides limit (chooseP2 limit out target) fun n => i32 (n + 2)) :
    ∃ r, g4xFindBestDpll limit out target refclk = some r ∧
      G4xBest (G4xComb limit (chooseP2 limit out target) refclk) target (errMost target) r := by
  obtain ⟨s, hs⟩ := Option.isSome_iff_exists.mp (g4xLoop_isSome target
    refclk hdiv (fun n hn => mem_upTo.mp hn)
    ⟨{}, errMost target, limit.n.max, false⟩)
  refine ⟨(s.found, s.best), by rw [g4xFindBestDpll, hs]; rfl, ?_⟩
  have herr {c : IntelClock} (hc : G4xComb limit (chooseP2 limit out target) refclk c) :
      thisErr target c = |c.dot - target| := thisErr_eq h hc.valid
  have hmem {c : IntelClock} (hc : G4xComb limit (chooseP2 limit out target) refclk c) :
      c.n ∈ upTo limit.n := mem_upTo.mpr hc.valid.n
  obtain ⟨rfl, hle⟩ | ⟨a, ha, rfl, hlt, hbest⟩ := g4xLoop_best (upTo_pairwise limit.n)
    (fun n hn => (mem_upTo.mp hn).2) hs
  · refine ⟨iff_of_false Bool.false_ne_true ?_, fun hf => absurd hf Bool.false_ne_true⟩
    rintro ⟨c, hc, hclt⟩
    have := hle c hc (hmem hc)
    rw [herr hc] at this
    exact absurd hclt (not_lt.mpr this)
  · have hbelow : |a.dot - target| < errMost target := herr ha ▸ hlt
    refine ⟨iff_of_true rfl ⟨a, ha, hbelow⟩, fun _ => ⟨ha, hbelow, fun c hc hclt => ?_⟩⟩
    obtain ⟨hn, hle⟩ := hbest c hc (hmem hc) (show thisErr target c < errMost target from
      herr hc ▸ hclt)
    exact ⟨hn, fun he => herr ha ▸ herr hc ▸ hle he⟩

/-! ### The tables of the driver -/

def intelLimitsI8xxDvo : IntelLimit :=
  { dot := ⟨25000, 350000⟩, vco := ⟨930000, 1400000⟩, n := ⟨3, 16⟩, m := ⟨96, 140⟩,
    m1 := ⟨18, 26⟩, m2 := ⟨6, 16⟩, p := ⟨4, 128⟩, p1 := ⟨2, 33⟩,
    dotLimit := 165000, p2Slow := 4, p2Fast := 2 }

def intelLimitsI8xxLvds : IntelLimit :=
  { dot := ⟨25000, 350000⟩, vco := ⟨930000, 1400000⟩, n := ⟨3, 16⟩, m := ⟨96, 140⟩,
    m1 := ⟨18, 26⟩, m2 := ⟨6, 16⟩, p := ⟨4, 128⟩, p1 := ⟨1, 6⟩,
    dotLimit := 165000, p2Slow := 14, p2Fast := 7 }

def intelLimitsI9xxSdvo : IntelLimit :=
  { dot := ⟨20000, 400000⟩, vco := ⟨1400000, 2800000⟩, n := ⟨1, 6⟩, m := ⟨70, 120⟩,
    m1 := ⟨8, 18⟩, m2 := ⟨3, 7⟩, p := ⟨5, 80⟩, p1 := ⟨1, 8⟩,
    dotLimit := 200000, p2Slow := 10, p2Fast := 5 }

def intelLimitsI9xxLvds : IntelLimit :=
  { dot := ⟨20000, 400000⟩, vco := ⟨1400000, 2800000⟩, n := ⟨1, 6⟩, m := ⟨70, 120⟩,
    m1 := ⟨8, 18⟩, m2 := ⟨3, 7⟩, p := ⟨7, 98⟩, p1 := ⟨1, 8⟩,
    dotLimit := 112000, p2Slow := 14, p2Fast := 7 }

def intelLimitsG4xSdvo : IntelLimit :=
  { dot := ⟨25000, 270000⟩, vco := ⟨1750000, 3500000⟩, n := ⟨1, 4⟩, m := ⟨104, 138⟩,
    m1 := ⟨17, 23⟩, m2 := ⟨5, 11⟩, p := ⟨10, 30⟩, p1 := ⟨1, 3⟩,
    dotLimit := 270000, p2Slow := 10, p2Fast := 10 }

def intelLimitsG4xHdmi : IntelLimit :=
  { dot := ⟨22000, 400000⟩, vco := ⟨1750000, 3500000⟩, n := ⟨2, 4⟩, m := ⟨104, 138⟩,
    m1 := ⟨16, 23⟩, m2 := ⟨5, 11⟩, p := ⟨5, 80⟩, p1 := ⟨1, 8⟩,
    dotLimit := 165000, p2Slow := 10, p2Fast := 5 }

def intelLimitsG4xSingleChannelLvds : IntelLimit :=
  { dot := ⟨20000, 115000⟩, vco := ⟨1750000, 3500000⟩, n := ⟨1, 3⟩, m := ⟨104, 138⟩,
    m1 := ⟨17, 23⟩, m2 := ⟨5, 11⟩, p := ⟨28, 112⟩, p1 := ⟨2, 8⟩,
    dotLimit := 0, p2Slow := 14, p2Fast := 14 }

def intelLimitsG4xDualChannelLvds : IntelLimit :=
  { dot := ⟨80000, 224000⟩, vco := ⟨1750000, 3500000⟩, n := ⟨1, 3⟩, m := ⟨104, 138⟩,
    m1 := ⟨17, 23⟩, m2 := ⟨5, 11⟩, p := ⟨14, 42⟩, p1 := ⟨2, 6⟩,
    dotLimit := 0, p2Slow := 7, p2Fast := 7 }

def intelLimitsPineviewSdvo : IntelLimit :=
  { dot := ⟨20000, 400000⟩, vco := ⟨1700000, 3500000⟩, n := ⟨3, 6⟩, m := ⟨2, 256⟩,
    m1 := ⟨0, 0⟩, m2 := ⟨0, 254⟩, p := ⟨5, 80⟩, p1 := ⟨1, 8⟩,
    dotLimit := 200000, p2Slow := 10, p2Fast := 5 }

def intelLimitsPineviewLvds : IntelLimit :=
  { dot := ⟨20000, 400000⟩, vco := ⟨1700000, 3500000⟩, n := ⟨3, 6⟩, m := ⟨2, 256⟩,
    m1 := ⟨0, 0⟩, m2 := ⟨0, 254⟩, p := ⟨7, 112⟩, p1 := ⟨1, 8⟩,
    dotLimit := 112000, p2Slow := 14, p2Fast := 14 }

def intelLimitsIronlakeDac : IntelLimit :=
  { dot := ⟨25000, 350000⟩, vco := ⟨1760000, 3510000⟩, n := ⟨2, 5⟩, m := ⟨79, 127⟩,
    m1 := ⟨12, 22⟩, m2 := ⟨5, 9⟩, p := ⟨5, 80⟩, p1 := ⟨1, 8⟩,
    dotLimit := 225000, p2Slow := 10, p2Fast := 5 }

def intelLimitsIronlakeSingleLvds : IntelLimit :=
  { dot := ⟨25000, 350000⟩, vco := ⟨1760000, 3510000⟩, n := ⟨1, 3⟩, m := ⟨79, 118⟩,
    m1 := ⟨12, 22⟩, m2 := ⟨5, 9⟩, p := ⟨28, 112⟩, p1 := ⟨2, 8⟩,
    dotLimit := 225000, p2Slow := 14, p2Fast := 14 }

def intelLimitsIronlakeDualLvds : IntelLimit :=
  { dot := ⟨25000, 350000⟩, vco := ⟨1760000, 3510000⟩, n := ⟨1, 3⟩, m := ⟨79, 127⟩,
    m1 := ⟨12, 22⟩, m2 := ⟨5, 9⟩, p := ⟨14, 56⟩, p1 := ⟨2, 8⟩,
    dotLimit := 225000, p2Slow := 7, p2Fast := 7 }

def intelLimitsIronlakeSingleLvds100m : IntelLimit :=
  { dot := ⟨25000, 350000⟩, vco := ⟨1760000, 3510000⟩, n := ⟨1, 2⟩, m := ⟨79, 126⟩,
    m1 := ⟨12, 22⟩, m2 := ⟨5, 9⟩, p := ⟨28, 112⟩, p1 := ⟨2, 8⟩,
    dotLimit := 225000, p2Slow := 14, p2Fast := 14 }

def intelLimitsIronlakeDualLvds100m : IntelLimit :=
  { dot := ⟨25000, 350000⟩, vco := ⟨1760000, 3510000⟩, n := ⟨1, 3⟩, m := ⟨79, 126⟩,
    m1 := ⟨12, 22⟩, m2 := ⟨5, 9⟩, p := ⟨14, 42⟩, p1 := ⟨2, 6⟩,
    dotLimit := 225000, p2Slow := 7, p2Fast := 7 }

def intelLimits : List IntelLimit :=
  [intelLimitsI8xxDvo, intelLimitsI8xxLvds, intelLimitsI9xxSdvo, intelLimitsI9xxLvds,
    intelLimitsG4xSdvo, intelLimitsG4xHdmi, intelLimitsG4xSingleChannelLvds,
    intelLimitsG4xDualChannelLvds, intelLimitsPineviewSdvo, intelLimitsPineviewLvds,
    intelLimitsIronlakeDac, intelLimitsIronlakeSingleLvds, intelLimitsIronlakeDualLvds,
    intelLimitsIronlakeSingleLvds100m, intelLimitsIronlakeDualLvds100m]

/-- What the tables have in common. -/
@[mk_iff] structure IntelLimit.Small (limit : IntelLimit) : Prop where
  n : 0 < limit.n.min ∧ limit.n.max < 100
  p1 : 0 < limit.p1.min ∧ limit.p1.max < 100
  slow : 0 < limit.p2Slow ∧ limit.p2Slow < 100
  fast : 0 < limit.p2Fast ∧ limit.p2Fast < 100
  dot : 0 ≤ limit.dot.min ∧ limit.dot.max < 2 ^ 31

instance : DecidablePred IntelLimit.Small := fun limit =>
  decidable_of_iff' _ (IntelLimit.small_iff limit)

theorem intelLimits_small : ∀ limit ∈ intelLimits, limit.Small := by decide

theorem IntelLimit.Small.divides (h : limit.Small) (out : PipeOutput) (target : ℤ) :
    Divides limit (chooseP2 limit out target) (fun n => i32 (n + 2)) ∧
      Divides limit (chooseP2 limit out target) (fun n => n) := by
  obtain ⟨hn, hp1, hslow, hfast, -⟩ := h
  have hp2 : 0 < chooseP2 limit out target ∧ chooseP2 limit out target < 100 := by
    unfold chooseP2
    split
    · split
      · exact hfast
      · exact hslow
    · split
      · exact hslow
      · exact hfast
  have hp (p1 : ℤ) (h : limit.p1.Has p1) : i32 (p1 * chooseP2 limit out target) ≠ 0 := by
    obtain ⟨hmin, hmax⟩ := h
    have hpos : 0 < p1 * chooseP2 limit out target := Int.mul_pos (by omega) hp2.1
    have hlt : p1 * chooseP2 limit out target ≤ 100 * 100 :=
      Int.mul_le_mul (by omega) hp2.2.le hp2.1.le (by decide)
    rw [i32_of_range (by omega) (by omega)]
    exact hpos.ne'
  refine ⟨⟨fun n h => ?_, hp⟩, ⟨fun n h => ?_, hp⟩⟩
  · obtain ⟨hmin, hmax⟩ := h
    rw [i32_of_range (by omega) (by omega)]
    omega
  · obtain ⟨hmin, hmax⟩ := h
    omega

/-- A clock frequency is no negative number. -/
theorem IntelLimit.Small.errFits (h : limit.Small) (h0 : 0 ≤ target) (hlt : target < 2 ^ 31) :
    ErrFits limit target := by
  rintro dot ⟨hmin, hmax⟩
  obtain ⟨hdot, hdot'⟩ := h.dot
  rw [abs_lt]
  omega

/-- A table in which every p1 is zero. -/
def zeroLimit : IntelLimit := { intelLimitsI9xxSdvo with p1 := ⟨0, 0⟩ }

/-- A table for which a clock of 17 is valid. -/
def narrowLimit : IntelLimit :=
  { dot := ⟨17, 17⟩, vco := ⟨17, 17⟩, n := ⟨-1, -1⟩, m := ⟨17, 17⟩, m1 := ⟨1, 1⟩, m2 := ⟨0, 0⟩,
    p := ⟨1, 1⟩, p1 := ⟨1, 1⟩, dotLimit := 0, p2Slow := 1, p2Fast := 1 }

end GfxDrm.Dpll
