import GfxDrm.Dpll.Defs

/-! What each function does to the counts of the PLLs, and to their timings. -/

namespace GfxDrm.Dpll
open Function DisplayState

variable {h : Pch} {m : ℕ} {s s' : DisplayState h m} {c c' : Fin h.numPipes}
  {i j : Fin h.numSharedDpll} {x : Crtc h.numSharedDpll}

/-! ### Timings -/

/-- What registers say but for the enable bit. -/
def timings (r : DpllHwState) : BitVec 32 × BitVec 32 × BitVec 32 :=
  (r.dpll &&& 0x7fffffff, r.fp0, r.fp1)

theorem enable_masked (x : BitVec 32) : (x ||| dpllVcoEnable) &&& 0x7fffffff = x &&& 0x7fffffff := by
  have hmask : dpllVcoEnable &&& 0x7fffffff = 0#32 := by decide
  rw [BitVec.and_or_distrib_right, hmask, BitVec.or_zero]

theorem disable_masked (x : BitVec 32) :
    (x &&& ~~~dpllVcoEnable) &&& 0x7fffffff = x &&& 0x7fffffff := by
  have hmask : ~~~dpllVcoEnable &&& 0x7fffffff = 0x7fffffff := by decide
  rw [BitVec.and_assoc, hmask]

/-- With the enable bit set, a value is known from the others. -/
theorem eq_of_masked {x y : BitVec 32} (hx : x ||| dpllVcoEnable = x) (hy : y ||| dpllVcoEnable = y)
    (hxy : x &&& 0x7fffffff = y &&& 0x7fffffff) : x = y := by
  have hall : 0x7fffffff ||| dpllVcoEnable = BitVec.allOnes 32 := by decide
  have hsplit : ∀ z : BitVec 32, z ||| dpllVcoEnable = z →
      z = (z &&& 0x7fffffff) ||| dpllVcoEnable := fun z hz => by
    have hbit : z &&& dpllVcoEnable = dpllVcoEnable := by
      rw [← hz]
      ext k
      simp +contextual
    calc z = z &&& BitVec.allOnes 32 := BitVec.and_allOnes.symm
      _ = (z &&& 0x7fffffff) ||| (z &&& dpllVcoEnable) := by rw [← hall, BitVec.and_or_distrib_left]
      _ = (z &&& 0x7fffffff) ||| dpllVcoEnable := by rw [hbit]
  rw [hsplit x hx, hsplit y hy, hxy]

theorem timings_enable (r : DpllHwState) :
    timings { r with dpll := r.dpll ||| dpllVcoEnable } = timings r := by
  unfold timings
  rw [enable_masked]

theorem timings_disable (r : DpllHwState) :
    timings { r with dpll := r.dpll &&& ~~~dpllVcoEnable } = timings r := by
  unfold timings
  rw [disable_masked]

/-! ### Counts -/

structure Tracked (s : DisplayState h m) : Prop where
  refs : ∀ i, (s.plls i).refcount = census fun c => decide ((s.crtcs c).sharedDpll = some i)
  acts : ∀ i, (s.plls i).active =
    census fun c => (s.crtcs c).active && decide ((s.crtcs c).sharedDpll = some i)
  isOn : ∀ i, (s.plls i).isOn = decide (0 < (s.plls i).active)
  kept : s.rewritten = false

/-- The counts are what they were. -/
theorem Tracked.congr (ht : Tracked s)
    (hshared : ∀ c, (s'.crtcs c).sharedDpll = (s.crtcs c).sharedDpll)
    (hactive : ∀ c, (s.crtcs c).sharedDpll ≠ none → (s'.crtcs c).active = (s.crtcs c).active)
    (hplls : ∀ i, (s'.plls i).refcount = (s.plls i).refcount ∧
      (s'.plls i).active = (s.plls i).active ∧ (s'.plls i).isOn = (s.plls i).isOn)
    (hkept : s'.rewritten = s.rewritten) : Tracked s' := by
  refine ⟨fun i => ?_, fun i => ?_, fun i => ?_, hkept.trans ht.kept⟩
  · rw [(hplls i).1, ht.refs i]
    exact Census.congr fun c => by rw [hshared c]
  · rw [(hplls i).2.1, ht.acts i]
    refine Census.congr fun c => ?_
    rw [hshared c]
    cases hi : (s.crtcs c).sharedDpll with
    | none => simp
    | some j => rw [hactive c (by rw [hi]; exact Option.some_ne_none j)]
  · rw [(hplls i).2.1, (hplls i).2.2, ht.isOn i]

/-- One crtc changes, and the one PLL it is or comes to be assigned to. -/
theorem Tracked.step (ht : Tracked s) (hcrtcs : ∀ c', c' ≠ c → s'.crtcs c' = s.crtcs c')
    (hplls : ∀ j, j ≠ i → s'.plls j = s.plls j)
    (hold : ∀ j, (s.crtcs c).sharedDpll = some j → j = i)
    (hnew : ∀ j, (s'.crtcs c).sharedDpll = some j → j = i)
    (hrefs : (s'.plls i).refcount + (decide ((s.crtcs c).sharedDpll = some i)).toNat =
      (s.plls i).refcount + (decide ((s'.crtcs c).sharedDpll = some i)).toNat)
    (hacts : (s'.plls i).active +
        ((s.crtcs c).active && decide ((s.crtcs c).sharedDpll = some i)).toNat =
      (s.plls i).active +
        ((s'.crtcs c).active && decide ((s'.crtcs c).sharedDpll = some i)).toNat)
    (hon : (s'.plls i).isOn = decide (0 < (s'.plls i).active))
    (hkept : s'.rewritten = s.rewritten) : Tracked s' := by
  have hother : ∀ j, j ≠ i → decide ((s.crtcs c).sharedDpll = some j) = false ∧
      decide ((s'.crtcs c).sharedDpll = some j) = false := fun j hne =>
    ⟨decide_eq_false fun hj => hne (hold j hj), decide_eq_false fun hj => hne (hnew j hj)⟩
  refine ⟨fun j => ?_, fun j => ?_, fun j => ?_, hkept.trans ht.kept⟩
  · have hcensus := Census.change (fun c => decide ((s.crtcs c).sharedDpll = some j))
      (fun c => decide ((s'.crtcs c).sharedDpll = some j)) c fun c' hne => by rw [hcrtcs c' hne]
    rw [← ht.refs j] at hcensus
    by_cases hj : j = i
    · subst hj
      omega
    · rw [(hother j hj).1, (hother j hj).2] at hcensus
      rw [hplls j hj]
      exact (Nat.add_right_cancel hcensus).symm
  · have hcensus := Census.change
      (fun c => (s.crtcs c).active && decide ((s.crtcs c).sharedDpll = some j))
      (fun c => (s'.crtcs c).active && decide ((s'.crtcs c).sharedDpll = some j)) c
      fun c' hne => by rw [hcrtcs c' hne]
    rw [← ht.acts j] at hcensus
    by_cases hj : j = i
    · subst hj
      omega
    · rw [(hother j hj).1, (hother j hj).2, Bool.and_false, Bool.and_false] at hcensus
      rw [hplls j hj]
      exact (Nat.add_right_cancel hcensus).symm
  · by_cases hj : j = i
    · rw [hj, hon]
    · rw [hplls j hj, ht.isOn j]

/-- An assigned crtc is counted. -/
theorem Tracked.refcount_pos (ht : Tracked s) (hi : (s.crtcs c).sharedDpll = some i) :
    0 < (s.plls i).refcount := by
  rw [ht.refs i]
  exact Census.pos_iff.mpr ⟨c, decide_eq_true hi⟩

theorem Tracked.active_pos_iff (ht : Tracked s) : 0 < (s.plls i).active ↔ s.InUse i := by
  rw [ht.acts i, Census.pos_iff]
  refine exists_congr fun c => ?_
  rw [Bool.and_eq_true, decide_eq_true_iff]

theorem Tracked.unassigned (ht : Tracked s) (hzero : (s.plls i).refcount = 0) :
    (s.crtcs c).sharedDpll ≠ some i := fun hi => by
  have hpos := ht.refcount_pos hi
  omega

/-! ### Functions -/

@[simp] theorem setCrtc_crtcs : (s.setCrtc c x).crtcs = update s.crtcs c x := rfl
@[simp] theorem setCrtc_plls : (s.setCrtc c x).plls = s.plls := rfl
@[simp] theorem setPll_crtcs {pll : SharedDpll} : (s.setPll i pll).crtcs = s.crtcs := rfl
@[simp] theorem setPll_plls {pll : SharedDpll} : (s.setPll i pll).plls = update s.plls i pll := rfl

/-- The timings in the registers of every PLL are what they were. -/
def SameTimings (s s' : DisplayState h m) : Prop :=
  ∀ i, timings (s'.plls i).regs = timings (s.plls i).regs

theorem SameTimings.update {pll : SharedDpll} (hplls : s'.plls = Function.update s.plls i pll)
    (hregs : timings pll.regs = timings (s.plls i).regs) : SameTimings s s' := fun j => by
  rw [hplls]
  by_cases hj : j = i
  · rw [hj, update_self, hregs]
  · rw [update_of_ne hj]

theorem crtc_unassigned (hx : x.sharedDpll = none) : { x with sharedDpll := none } = x := by
  cases x
  cases hx
  rfl

theorem crtc_inactive (hx : x.active = false) : { x with active := false } = x := by
  cases x
  cases hx
  rfl

/-- The crtc is let go, if it is assigned and not active. -/
theorem put_spec (ht : Tracked s) (hoff : (s.crtcs c).active = false) :
    Tracked (s.intelPutSharedDpll c) ∧ SameTimings s (s.intelPutSharedDpll c) ∧
      (s.intelPutSharedDpll c).encoders = s.encoders ∧
      (s.intelPutSharedDpll c).crtcs = update s.crtcs c { s.crtcs c with sharedDpll := none } := by
  cases hi : (s.crtcs c).sharedDpll with
  | none =>
    have hput : s.intelPutSharedDpll c = s := by
      unfold intelPutSharedDpll
      rw [hi]
    rw [hput, crtc_unassigned hi, update_eq_self]
    exact ⟨ht, fun _ => rfl, rfl, rfl⟩
  | some i =>
    have hpos := ht.refcount_pos hi
    have hput : s.intelPutSharedDpll c =
        (s.setPll i { s.plls i with refcount := (s.plls i).refcount - 1 }).setCrtc c
          { s.crtcs c with sharedDpll := none } := by
      unfold intelPutSharedDpll
      rw [hi]
      exact if_neg (by omega)
    rw [hput]
    refine ⟨ht.step (c := c) (i := i) (fun c' hne => update_of_ne hne ..)
      (fun j hne => update_of_ne hne ..) (fun j hj => ?_) (fun j hj => ?_) ?_ ?_ ?_ rfl,
      .update rfl rfl, rfl, rfl⟩
    · rw [hi] at hj
      exact (Option.some.inj hj).symm
    · rw [setCrtc_crtcs, update_self] at hj
      cases hj
    · simp [hi]
      omega
    · simp [hoff]
    · simp [ht.isOn i]

theorem intelDisableSharedDpll_none (hi : (s.crtcs c).sharedDpll = none) :
    s.intelDisableSharedDpll c = s := by
  unfold intelDisableSharedDpll
  rw [hi]

theorem intelDisableSharedDpll_some (hi : (s.crtcs c).sharedDpll = some i)
    (href : 0 < (s.plls i).refcount) (hactive : 0 < (s.plls i).active)
    (hon : (s.plls i).isOn = true) :
    ∃ pll, s.intelDisableSharedDpll c = s.setPll i pll ∧ pll.refcount = (s.plls i).refcount ∧
      pll.active + 1 = (s.plls i).active ∧ pll.isOn = decide (0 < pll.active) ∧
      timings pll.regs = timings (s.plls i).regs := by
  unfold intelDisableSharedDpll
  rw [hi]
  dsimp only
  rw [if_neg (by omega)]
  split
  · exact ⟨_, rfl, rfl, by dsimp only; omega, hon.trans (decide_eq_true (by dsimp only; omega)).symm,
      rfl⟩
  · exact ⟨_, rfl, rfl, by dsimp only; omega, rfl, timings_disable _⟩

/-- An active crtc is made inactive; `hpch` tells that its PLL is disabled with it. -/
theorem disable_spec (ht : Tracked s)
    (hpch : (s.crtcs c).sharedDpll ≠ none → (s.crtcs c).hasPchEncoder = true) :
    Tracked (s.ironlakeCrtcDisable c) ∧ SameTimings s (s.ironlakeCrtcDisable c) ∧
      (s.ironlakeCrtcDisable c).encoders = s.encoders ∧
      (s.ironlakeCrtcDisable c).crtcs = update s.crtcs c { s.crtcs c with active := false } := by
  unfold ironlakeCrtcDisable
  cases hactive : (s.crtcs c).active with
  | false =>
    rw [crtc_inactive hactive, update_eq_self]
    exact ⟨ht, fun _ => rfl, rfl, rfl⟩
  | true =>
    simp only [Bool.not_true, Bool.false_eq_true, if_false]
    rcases Option.eq_none_or_eq_some (s.crtcs c).sharedDpll with hi | ⟨i, hi⟩
    · rw [intelDisableSharedDpll_none hi, ite_self]
      refine ⟨ht.congr (fun c' => ?_) (fun c' hc' => ?_) (fun _ => ⟨rfl, rfl, rfl⟩) rfl,
        fun _ => rfl, rfl, rfl⟩
      · by_cases hcc : c' = c
        · rw [hcc, setCrtc_crtcs, update_self]
        · rw [setCrtc_crtcs, update_of_ne hcc]
      · have hcc : c' ≠ c := fun heq => hc' (heq ▸ hi)
        rw [setCrtc_crtcs, update_of_ne hcc]
    · have huse : 0 < (s.plls i).active := ht.active_pos_iff.mpr ⟨c, hactive, hi⟩
      obtain ⟨pll, heq, href, hact, hon, hregs⟩ := intelDisableSharedDpll_some hi
        (ht.refcount_pos hi) huse ((ht.isOn i).trans (decide_eq_true huse))
      rw [if_pos (hpch (by rw [hi]; exact Option.some_ne_none i)), heq]
      refine ⟨ht.step (c := c) (i := i) (fun c' hne => update_of_ne hne ..)
        (fun j hne => update_of_ne hne ..) (fun j hj => ?_) (fun j hj => ?_) ?_ ?_ ?_ rfl,
        .update rfl hregs, rfl, rfl⟩
      · rw [hi] at hj
        exact (Option.some.inj hj).symm
      · rw [setCrtc_crtcs, update_self] at hj
        change (s.crtcs c).sharedDpll = _ at hj
        rw [hi] at hj
        exact (Option.some.inj hj).symm
      · simp [href]
      · simp [hi, hactive, hact]
      · simp [hon]

theorem ironlakeEnableSharedDpll_some (hi : (s.crtcs c).sharedDpll = some i)
    (href : 0 < (s.plls i).refcount) (hon : (s.plls i).isOn = decide (0 < (s.plls i).active)) :
    ∃ pll, s.ironlakeEnableSharedDpll c = s.setPll i pll ∧ pll.refcount = (s.plls i).refcount ∧
      pll.active = (s.plls i).active + 1 ∧ pll.isOn = true ∧
      timings pll.regs = timings (s.plls i).regs := by
  unfold ironlakeEnableSharedDpll
  rw [hi]
  dsimp only
  rw [if_neg (by omega)]
  split
  · exact ⟨_, rfl, rfl, rfl, hon.trans (decide_eq_true (by omega)), rfl⟩
  · exact ⟨_, rfl, rfl, by dsimp only; omega, rfl, timings_enable _⟩

/-- A crtc is made active; `hpch` tells that its PLL is enabled with it. -/
theorem enable_spec (ht : Tracked s)
    (hpch : (s.crtcs c).sharedDpll ≠ none → (s.crtcs c).hasPchEncoder = true) :
    Tracked (s.ironlakeCrtcEnable c) ∧ SameTimings s (s.ironlakeCrtcEnable c) ∧
      (s.ironlakeCrtcEnable c).encoders = s.encoders ∧
      (s.ironlakeCrtcEnable c).crtcs = update s.crtcs c { s.crtcs c with active := true } := by
  unfold ironlakeCrtcEnable
  by_cases hactive : (s.crtcs c).active = true
  · rw [if_pos hactive]
    refine ⟨ht, fun _ => rfl, rfl, (update_eq_self_iff.mpr ?_).symm⟩
    rw [← hactive]
  · rw [if_neg hactive]
    have hoff : (s.crtcs c).active = false := by simpa using hactive
    obtain ⟨s₁, hs₁⟩ : ∃ s₁, s₁ = s.setCrtc c { s.crtcs c with active := true } := ⟨_, rfl⟩
    have hcrtc : s₁.crtcs c = { s.crtcs c with active := true } := by
      rw [hs₁, setCrtc_crtcs, update_self]
    have hplls : s₁.plls = s.plls := by rw [hs₁]; rfl
    dsimp only
    rw [← hs₁]
    rcases Option.eq_none_or_eq_some (s.crtcs c).sharedDpll with hi | ⟨i, hi⟩
    · have hnone : s₁.ironlakeEnableSharedDpll c = s₁ := by
        unfold ironlakeEnableSharedDpll
        rw [hcrtc, hi]
      rw [hnone, ite_self]
      subst hs₁
      refine ⟨ht.congr (fun c' => ?_) (fun c' hc' => ?_) (fun _ => ⟨rfl, rfl, rfl⟩) rfl,
        fun _ => rfl, rfl, rfl⟩
      · by_cases hcc : c' = c
        · rw [hcc, hcrtc]
        · rw [setCrtc_crtcs, update_of_ne hcc]
      · have hcc : c' ≠ c := fun heq => hc' (heq ▸ hi)
        rw [setCrtc_crtcs, update_of_ne hcc]
    · have hi' : (s₁.crtcs c).sharedDpll = some i := by rw [hcrtc]; exact hi
      obtain ⟨pll, heq, href, hact, hon, hregs⟩ := ironlakeEnableSharedDpll_some hi'
        (by rw [hplls]; exact ht.refcount_pos hi) (by rw [hplls]; exact ht.isOn i)
      have hpch₁ : (s₁.crtcs c).hasPchEncoder = true := by
        rw [hcrtc]
        exact hpch (by rw [hi]; exact Option.some_ne_none i)
      rw [if_pos hpch₁, heq]
      subst hs₁
      refine ⟨ht.step (c := c) (i := i) (fun c' hne => update_of_ne hne ..)
        (fun j hne => update_of_ne hne ..) (fun j hj => ?_) (fun j hj => ?_) ?_ ?_ ?_ rfl,
        .update rfl hregs, rfl, rfl⟩
      · rw [hi] at hj
        exact (Option.some.inj hj).symm
      · rw [setPll_crtcs, hi'] at hj
        exact (Option.some.inj hj).symm
      · simp [href]
      · simp [hi, hoff, hact]
      · simp [hon, hact]

end GfxDrm.Dpll
