import GfxDrm.Dpll.Track

/-! When the PLLs' counts, timings and registers stay right. -/

namespace GfxDrm.Dpll
open Function Run DisplayState

variable {h : Pch} {m : ℕ} {s s' : DisplayState h m} {c c' : Fin h.numPipes}
  {i : Fin h.numSharedDpll}

/-! ### The condition -/

/-- The PLL that the crtc gets is used by no active crtc, and if others are assigned to it they
require the same FP1. -/
def TakesAlone (s : DisplayState h m) (c : Fin h.numPipes) (hw : DpllHwState) : Prop :=
  let s := (s.setCrtc c { s.crtcs c with dpllHwState := hw }).intelPutSharedDpll c
  ∀ i, s.findSharedDpll c hw.dpll hw.fp0 = some i →
    ¬s.InUse i ∧ ((s.plls i).refcount ≠ 0 → (s.plls i).regs.fp1 = hw.fp1)

/-- A mode without divisors finds its crtc without a PLL; one with divisors takes its PLL alone. -/
def ModeSetWhole (s : DisplayState h m) (c : Fin h.numPipes) (o : ModeSetOutcome) : Prop :=
  match o.clocks with
  | none => (s.crtcs c).sharedDpll = none
  | some clocks => (s.crtcs c).hasPchEncoder = true → TakesAlone s c (requiredState clocks)

def DisplayAction.Whole (s : DisplayState h m) : DisplayAction h m → Prop
  | .setMode r => s.modesetPipe r = true → ∀ hasPchEncoder, r.pipeConfig = some hasPchEncoder →
    ModeSetWhole (s.prepareMode r hasPchEncoder) r.crtc r.outcome
  | .updateDpms _ _ => True

/-! ### What an assigned crtc has -/

/-- A crtc with a PLL drives a PCH encoder, and the registers say what it requires. -/
def Fits (s : DisplayState h m) (c : Fin h.numPipes) : Prop :=
  ∀ i, (s.crtcs c).sharedDpll = some i → (s.crtcs c).hasPchEncoder = true ∧
    timings (s.plls i).regs = timings (s.crtcs c).dpllHwState ∧
    (s.crtcs c).dpllHwState.dpll ||| dpllVcoEnable = (s.crtcs c).dpllHwState.dpll ∧
    (h.ibx = true → i.val = c.val)

theorem Fits.of_none (hnone : (s.crtcs c).sharedDpll = none) : Fits s c := fun i hi => by
  rw [hnone] at hi
  cases hi

theorem Fits.congr (hf : Fits s c) (htimes : SameTimings s s')
    (hshared : (s'.crtcs c).sharedDpll = (s.crtcs c).sharedDpll)
    (hpch : (s'.crtcs c).hasPchEncoder = (s.crtcs c).hasPchEncoder)
    (hhw : (s'.crtcs c).dpllHwState = (s.crtcs c).dpllHwState) : Fits s' c := fun i hi => by
  rw [hshared] at hi
  rw [hpch, hhw, htimes i]
  exact hf i hi

theorem Fits.hasPch (hf : Fits s c) (hs : (s.crtcs c).sharedDpll ≠ none) :
    (s.crtcs c).hasPchEncoder = true := by
  obtain ⟨i, hi⟩ := Option.ne_none_iff_exists'.mp hs
  exact (hf i hi).1

/-! ### Disabling -/

/-- Crtcs lose their PLLs and activity, and nothing else changes. -/
structure Less (s s' : DisplayState h m) : Prop where
  encoders : s'.encoders = s.encoders
  enabled : ∀ c, (s'.crtcs c).enabled = (s.crtcs c).enabled
  active : ∀ c, (s'.crtcs c).active = true → (s.crtcs c).active = true
  shared : ∀ c, (s'.crtcs c).sharedDpll ≠ none → (s.crtcs c).sharedDpll ≠ none

theorem Less.refl (s : DisplayState h m) : Less s s :=
  ⟨rfl, fun _ => rfl, fun _ => id, fun _ => id⟩

theorem Less.trans {s'' : DisplayState h m} (h₁ : Less s s') (h₂ : Less s' s'') : Less s s'' :=
  ⟨h₂.encoders.trans h₁.encoders, fun c => (h₂.enabled c).trans (h₁.enabled c),
    fun c hc => h₁.active c (h₂.active c hc), fun c hc => h₁.shared c (h₂.shared c hc)⟩

structure Kept (s : DisplayState h m) : Prop where
  tracked : Tracked s
  fits : ∀ c, Fits s c

/-- A field that one crtc's new value leaves alone is the same in all of them. -/
theorem update_field {β : Type} (f : Crtc h.numSharedDpll → β) {x : Crtc h.numSharedDpll}
    (hcrtcs : s'.crtcs = update s.crtcs c x) (hx : f x = f (s.crtcs c)) (c' : Fin h.numPipes) :
    f (s'.crtcs c') = f (s.crtcs c') := by
  rw [hcrtcs]
  by_cases hcc : c' = c
  · rw [hcc, update_self, hx]
  · rw [update_of_ne hcc]

theorem Kept.disable (hk : Kept s) (c : Fin h.numPipes) :
    Kept (s.ironlakeCrtcDisable c) ∧ Less s (s.ironlakeCrtcDisable c) ∧
      ((s.ironlakeCrtcDisable c).crtcs c).active = false := by
  obtain ⟨ht, htimes, henc, hcrtcs⟩ := disable_spec hk.tracked (hk.fits c).hasPch
  refine ⟨⟨ht, fun c' => (hk.fits c').congr htimes (update_field _ hcrtcs rfl c')
    (update_field _ hcrtcs rfl c') (update_field _ hcrtcs rfl c')⟩,
    ⟨henc, update_field _ hcrtcs rfl, fun c' hc' => ?_, fun c' hc' => ?_⟩, ?_⟩
  · by_cases hcc : c' = c
    · rw [hcrtcs, hcc, update_self] at hc'
      cases hc'
    · rwa [hcrtcs, update_of_ne hcc] at hc'
  · rwa [update_field Crtc.sharedDpll hcrtcs rfl c'] at hc'
  · rw [hcrtcs, update_self]

theorem Kept.put (hk : Kept s) (hoff : (s.crtcs c).active = false) :
    Kept (s.intelPutSharedDpll c) ∧ Less s (s.intelPutSharedDpll c) ∧
      ((s.intelPutSharedDpll c).crtcs c).sharedDpll = none := by
  obtain ⟨ht, htimes, henc, hcrtcs⟩ := put_spec hk.tracked hoff
  have hnone : ((s.intelPutSharedDpll c).crtcs c).sharedDpll = none := by
    rw [hcrtcs, update_self]
  have hother : ∀ c', c' ≠ c → (s.intelPutSharedDpll c).crtcs c' = s.crtcs c' := fun c' hcc => by
    rw [hcrtcs, update_of_ne hcc]
  refine ⟨⟨ht, fun c' => ?_⟩, ⟨henc, update_field _ hcrtcs rfl, fun c' hc' => ?_, fun c' hc' => ?_⟩,
    hnone⟩
  · by_cases hcc : c' = c
    · exact .of_none (hcc ▸ hnone)
    · exact (hk.fits c').congr htimes (by rw [hother c' hcc]) (by rw [hother c' hcc])
        (by rw [hother c' hcc])
  · rwa [update_field Crtc.active hcrtcs rfl c'] at hc'
  · by_cases hcc : c' = c
    · exact (hc' (hcc ▸ hnone)).elim
    · rwa [hother c' hcc] at hc'

/-- A crtc that is off: not active, and without a PLL. -/
def IsOff (s : DisplayState h m) (c : Fin h.numPipes) : Prop :=
  (s.crtcs c).active = false ∧ (s.crtcs c).sharedDpll = none

theorem Less.isOff (hl : Less s s') (hoff : IsOff s c) : IsOff s' c := by
  refine ⟨?_, ?_⟩
  · cases hactive : (s'.crtcs c).active with
    | false => rfl
    | true => cases hoff.1.symm.trans (hl.active c hactive)
  · by_contra hs
    exact hl.shared c hs hoff.2

theorem Kept.intelCrtcDisable (hk : Kept s) (c : Fin h.numPipes) :
    Kept (s.intelCrtcDisable c) ∧ Less s (s.intelCrtcDisable c) ∧ IsOff (s.intelCrtcDisable c) c := by
  obtain ⟨hk₁, hless₁, hoff⟩ := hk.disable c
  obtain ⟨hk₂, hless₂, hnone⟩ := hk₁.put hoff
  refine ⟨hk₂, hless₁.trans hless₂, ?_, hnone⟩
  cases hactive : ((s.intelCrtcDisable c).crtcs c).active with
  | false => rfl
  | true => cases hoff.symm.trans (hless₂.active c hactive)

theorem Kept.disableAll (l : List (Fin h.numPipes)) (hk : Kept s) :
    Kept (l.foldl DisplayState.intelCrtcDisable s) ∧
      Less s (l.foldl DisplayState.intelCrtcDisable s) ∧
      ∀ c ∈ l, IsOff (l.foldl DisplayState.intelCrtcDisable s) c := by
  induction l generalizing s with
  | nil => exact ⟨hk, .refl s, fun c hc => by cases hc⟩
  | cons c l ih =>
    obtain ⟨hk₁, hless₁, hoff₁⟩ := hk.intelCrtcDisable c
    obtain ⟨hk₂, hless₂, hoff₂⟩ := ih hk₁
    refine ⟨hk₂, hless₁.trans hless₂, fun c' hc' => ?_⟩
    rcases List.mem_cons.mp hc' with rfl | hc'
    · exact hless₂.isOff hoff₁
    · exact hoff₂ c' hc'

/-! ### Getting a PLL -/

theorem findSharedDpll_some {dpll fp : BitVec 32}
    (hfind : s.findSharedDpll c dpll fp = some i) :
    (h.ibx = true ∧ i.val = c.val) ∨ (h.ibx ≠ true ∧ (s.plls i).refcount = 0) ∨
      h.ibx ≠ true ∧ dpll &&& 0x7fffffff = (s.plls i).regs.dpll &&& 0x7fffffff ∧
        fp = (s.plls i).regs.fp0 := by
  unfold findSharedDpll at hfind
  split at hfind
  · rename_i hibx
    cases hfind
    exact .inl ⟨hibx, rfl⟩
  · rename_i hibx
    rcases Option.or_eq_some_iff.mp hfind with hshare | ⟨-, hfree⟩
    · have hmatch := List.find?_some hshare
      simp only [Bool.and_eq_true, decide_eq_true_eq] at hmatch
      exact .inr (.inr ⟨hibx, hmatch.1.2, hmatch.2⟩)
    · exact .inr (.inl ⟨hibx, by simpa using List.find?_some hfree⟩)

/-- A crtc that is not active does not use a PLL by being assigned to it. -/
theorem not_inUse_congr (huse : ¬s.InUse i) (hactive : ∀ c', (s'.crtcs c').active = true →
    s'.crtcs c' = s.crtcs c') : ¬s'.InUse i := by
  rintro ⟨c', hc', hi'⟩
  have heq := hactive c' hc'
  exact huse ⟨c', heq ▸ hc', heq ▸ hi'⟩

theorem writePll_eq (huse : ¬s.InUse i) (regs : DpllHwState) :
    s.writePll i regs = s.setPll i { s.plls i with regs := regs } := by
  unfold writePll
  rw [decide_eq_false huse, Bool.or_false]
  rfl

theorem active_update {x : Crtc h.numSharedDpll} (hcrtcs : s'.crtcs = update s.crtcs c x)
    (hx : x.active = false) (c' : Fin h.numPipes) (hc' : (s'.crtcs c').active = true) :
    s'.crtcs c' = s.crtcs c' := by
  rw [hcrtcs] at hc' ⊢
  by_cases hcc : c' = c
  · rw [hcc, update_self, hx] at hc'
    cases hc'
  · rw [update_of_ne hcc]

variable {s₂ : DisplayState h m}

/-- A crtc that is not active gets a PLL that no active crtc uses. -/
theorem intelGetSharedDpll_some {dpll fp : BitVec 32} (hs₂ : s₂ = s.intelPutSharedDpll c)
    (hfind : s₂.findSharedDpll c dpll fp = some i) (hzero : (s₂.plls i).active = 0)
    (hoff : (s₂.crtcs c).active = false) (huse : ¬s₂.InUse i) :
    ∃ pll, s.intelGetSharedDpll c dpll fp =
        (some i, (s₂.setCrtc c { s₂.crtcs c with sharedDpll := some i }).setPll i pll) ∧
      pll.refcount = (s₂.plls i).refcount + 1 ∧ pll.active = (s₂.plls i).active ∧
      pll.isOn = (s₂.plls i).isOn ∧ pll.regs.fp0 = fp := by
  have huse' : ∀ x, ¬((s₂.setCrtc c { s₂.crtcs c with sharedDpll := some i }).setPll i x).InUse i :=
    fun x => not_inUse_congr huse (active_update rfl hoff)
  refine ⟨{ s₂.plls i with
      refcount := (s₂.plls i).refcount + 1
      hwState := (s₂.crtcs c).dpllHwState
      regs := { (s₂.plls i).regs with dpll := dpll &&& ~~~dpllVcoEnable, fp0 := fp } },
    ?_, rfl, rfl, rfl, rfl⟩
  unfold intelGetSharedDpll
  rw [← hs₂]
  simp only [hfind, setCrtc_plls, hzero, if_true]
  rw [writePll_eq (huse' _)]
  simp only [DisplayState.setPll, DisplayState.setCrtc, update_self, update_idem]

/-- What the crtc that gets a PLL, and the PLL, come to in a mode set. -/
theorem modeSet_some {clocks : DpllHwState} (base : ℤ) {hw : DpllHwState}
    (hhw : hw = requiredState clocks) (hpch : (s.crtcs c).hasPchEncoder = true)
    (hs₂ : s₂ = (s.setCrtc c { s.crtcs c with dpllHwState := hw }).intelPutSharedDpll c)
    (hfind : s₂.findSharedDpll c hw.dpll hw.fp0 = some i) (hzero : (s₂.plls i).active = 0)
    (hoff : (s₂.crtcs c).active = false) (huse : ¬s₂.InUse i) :
    ∃ pll, (s.ironlakeCrtcModeSet c ⟨some clocks, base⟩).2 =
        (s₂.setCrtc c { s₂.crtcs c with sharedDpll := some i }).setPll i pll ∧
      pll.refcount = (s₂.plls i).refcount + 1 ∧ pll.active = (s₂.plls i).active ∧
      pll.isOn = (s₂.plls i).isOn ∧ pll.regs = hw := by
  obtain ⟨pll, hget, href, hact, hon, hfp0⟩ := intelGetSharedDpll_some hs₂ hfind hzero hoff huse
  have huse' : ¬((s₂.setCrtc c { s₂.crtcs c with sharedDpll := some i }).setPll i pll).InUse i :=
    not_inUse_congr huse (active_update rfl hoff)
  refine ⟨{ pll with regs := hw }, ?_, href, hact, hon, rfl⟩
  unfold ironlakeCrtcModeSet
  simp only [if_pos hpch, ← hhw, hget]
  rw [writePll_eq huse']
  simp only [DisplayState.setPll, update_self, update_idem, hfp0]

/-! ### Mode sets -/

/-- All is right but for one crtc, which is not active. -/
structure KeptBut (s : DisplayState h m) (c : Fin h.numPipes) : Prop where
  tracked : Tracked s
  fits : ∀ c', c' ≠ c → Fits s c'
  off : (s.crtcs c).active = false

/-- What a mode set does to the crtcs. -/
structure SetsOne (s s' : DisplayState h m) (c : Fin h.numPipes) : Prop where
  encoders : s'.encoders = s.encoders
  others : ∀ c', c' ≠ c → s'.crtcs c' = s.crtcs c'
  enabled : (s'.crtcs c).enabled = (s.crtcs c).enabled

theorem KeptBut.put (hk : KeptBut s c) :
    Kept (s.intelPutSharedDpll c) ∧ SetsOne s (s.intelPutSharedDpll c) c ∧
      (s.intelPutSharedDpll c).crtcs c = { s.crtcs c with sharedDpll := none } := by
  obtain ⟨ht, htimes, henc, hcrtcs⟩ := put_spec hk.tracked hk.off
  have hself : (s.intelPutSharedDpll c).crtcs c = { s.crtcs c with sharedDpll := none } := by
    rw [hcrtcs, update_self]
  have hother : ∀ c', c' ≠ c → (s.intelPutSharedDpll c).crtcs c' = s.crtcs c' := fun c' hcc => by
    rw [hcrtcs, update_of_ne hcc]
  refine ⟨⟨ht, fun c' => ?_⟩, ⟨henc, hother, by rw [hself]⟩, hself⟩
  by_cases hcc : c' = c
  · exact .of_none (by rw [hcc, hself])
  · exact (hk.fits c' hcc).congr htimes (by rw [hother c' hcc]) (by rw [hother c' hcc])
      (by rw [hother c' hcc])

/-- What the crtc requires is not yet looked at. -/
theorem KeptBut.require (hk : KeptBut s c) (hw : DpllHwState) :
    KeptBut (s.setCrtc c { s.crtcs c with dpllHwState := hw }) c := by
  have hcrtcs : (s.setCrtc c { s.crtcs c with dpllHwState := hw }).crtcs =
    update s.crtcs c { s.crtcs c with dpllHwState := hw } := rfl
  refine ⟨hk.tracked.congr (update_field _ hcrtcs rfl) (fun c' _ => update_field _ hcrtcs rfl c')
    (fun _ => ⟨rfl, rfl, rfl⟩) rfl, fun c' hcc => ?_, ?_⟩
  · have heq : (s.setCrtc c { s.crtcs c with dpllHwState := hw }).crtcs c' = s.crtcs c' := by
      rw [hcrtcs, update_of_ne hcc]
    exact (hk.fits c' hcc).congr (fun _ => rfl) (by rw [heq]) (by rw [heq]) (by rw [heq])
  · rw [hcrtcs, update_self]
    exact hk.off

/-- The crtc that gets the PLL fits it, and so do those that share it. -/
theorem Kept.assign {hw : DpllHwState} {pll : SharedDpll} (hk : Kept s₂)
    (hfind : s₂.findSharedDpll c hw.dpll hw.fp0 = some i)
    (hfp1 : (s₂.plls i).refcount ≠ 0 → (s₂.plls i).regs.fp1 = hw.fp1)
    (hcrtc : (s₂.crtcs c).sharedDpll = none ∧ (s₂.crtcs c).active = false ∧
      (s₂.crtcs c).hasPchEncoder = true ∧ (s₂.crtcs c).dpllHwState = hw)
    (hdpll : hw.dpll ||| dpllVcoEnable = hw.dpll)
    (hpll : pll.refcount = (s₂.plls i).refcount + 1 ∧ pll.active = (s₂.plls i).active ∧
      pll.isOn = (s₂.plls i).isOn ∧ pll.regs = hw) :
    Kept ((s₂.setCrtc c { s₂.crtcs c with sharedDpll := some i }).setPll i pll) := by
  obtain ⟨hnone, hoff, hpch, hreq⟩ := hcrtc
  obtain ⟨href, hact, hon, hregs⟩ := hpll
  refine ⟨hk.tracked.step (c := c) (i := i) (fun c' hne => update_of_ne hne ..)
    (fun j hne => update_of_ne hne ..) (fun j hj => ?_) (fun j hj => ?_) ?_ ?_ ?_ rfl, fun c' => ?_⟩
  · rw [hnone] at hj
    cases hj
  · rw [setPll_crtcs, setCrtc_crtcs, update_self] at hj
    exact (Option.some.inj hj).symm
  · simp [hnone, href]
  · simp [hoff, hact]
  · simp [hon, hact, hk.tracked.isOn i]
  · intro j hj
    rw [setPll_crtcs, setCrtc_crtcs] at hj ⊢
    rw [setPll_plls]
    by_cases hcc : c' = c
    · subst hcc
      rw [update_self] at hj ⊢
      obtain rfl : i = j := Option.some.inj hj
      rw [update_self, hregs]
      refine ⟨hpch, by rw [hreq], by rw [hreq, hdpll], fun hibx => ?_⟩
      rcases findSharedDpll_some hfind with ⟨-, heq⟩ | ⟨hno, -⟩ | ⟨hno, -⟩
      · exact heq
      · exact (hno hibx).elim
      · exact (hno hibx).elim
    · rw [update_of_ne hcc] at hj ⊢
      obtain ⟨hpch', htimes, hbit, hown⟩ := hk.fits c' j hj
      refine ⟨hpch', ?_, hbit, hown⟩
      by_cases hji : j = i
      · -- the PLL is shared, so its registers said what the crtc requires
        subst hji
        rw [update_self, hregs, ← htimes]
        rcases findSharedDpll_some hfind with ⟨hibx, heq⟩ | ⟨-, hzero⟩ | ⟨-, hmask, hfp0⟩
        · exact (hcc (Fin.ext ((hown hibx).symm.trans heq))).elim
        · exact (hk.tracked.unassigned hzero hj).elim
        · have hpos := hk.tracked.refcount_pos hj
          unfold timings
          rw [hmask, hfp0, hfp1 (by omega)]
      · rw [update_of_ne hji]
        exact htimes

theorem requiredState_enabled (clocks : DpllHwState) :
    (requiredState clocks).dpll ||| dpllVcoEnable = (requiredState clocks).dpll := by
  show clocks.dpll ||| dpllVcoEnable ||| dpllVcoEnable = clocks.dpll ||| dpllVcoEnable
  rw [BitVec.or_assoc, BitVec.or_self]

theorem KeptBut.modeSet (hk : KeptBut s c) {o : ModeSetOutcome} (hw : ModeSetWhole s c o) :
    Kept (s.ironlakeCrtcModeSet c o).2 ∧ SetsOne s (s.ironlakeCrtcModeSet c o).2 c := by
  obtain ⟨clocks, base⟩ := o
  cases clocks with
  | none =>
    have hnone : (s.crtcs c).sharedDpll = none := hw
    refine ⟨⟨hk.tracked, fun c' => ?_⟩, rfl, fun _ _ => rfl, rfl⟩
    by_cases hcc : c' = c
    · exact .of_none (hcc ▸ hnone)
    · exact hk.fits c' hcc
  | some clocks =>
    cases hpch : (s.crtcs c).hasPchEncoder with
    | false =>
      have hput : (s.ironlakeCrtcModeSet c ⟨some clocks, base⟩).2 = s.intelPutSharedDpll c := by
        unfold ironlakeCrtcModeSet
        simp only [hpch, Bool.false_eq_true, if_false]
      rw [hput]
      exact ⟨hk.put.1, hk.put.2.1⟩
    | true =>
      obtain ⟨hw', hhw'⟩ : ∃ hw', hw' = requiredState clocks := ⟨_, rfl⟩
      have halone : TakesAlone s c hw' := hhw' ▸ hw hpch
      obtain ⟨hk₂, hsets, hcrtc⟩ := (hk.require hw').put
      obtain ⟨s₂, hs₂⟩ : ∃ s₂, s₂ =
        (s.setCrtc c { s.crtcs c with dpllHwState := hw' }).intelPutSharedDpll c := ⟨_, rfl⟩
      rw [← hs₂] at hk₂ hsets hcrtc
      rw [setCrtc_crtcs, update_self] at hcrtc
      have hothers : ∀ c', c' ≠ c → s₂.crtcs c' = s.crtcs c' := fun c' hcc => by
        rw [hsets.others c' hcc, setCrtc_crtcs, update_of_ne hcc]
      have hoff : (s₂.crtcs c).active = false := by rw [hcrtc]; exact hk.off
      cases hfind : s₂.findSharedDpll c hw'.dpll hw'.fp0 with
      | none =>
        have hres : (s.ironlakeCrtcModeSet c ⟨some clocks, base⟩).2 = s₂ := by
          unfold ironlakeCrtcModeSet intelGetSharedDpll
          simp only [if_pos hpch, ← hhw', ← hs₂, hfind]
        rw [hres]
        exact ⟨hk₂, hsets.encoders, hothers, by rw [hcrtc]⟩
      | some i =>
        obtain ⟨huse, hfp1⟩ : ¬s₂.InUse i ∧ ((s₂.plls i).refcount ≠ 0 →
            (s₂.plls i).regs.fp1 = hw'.fp1) := by
          rw [hs₂] at hfind ⊢
          exact halone i hfind
        have hzero : (s₂.plls i).active = 0 := by
          have hnot := mt hk₂.tracked.active_pos_iff.mp huse
          omega
        obtain ⟨pll, hres, hpll⟩ := modeSet_some base hhw' hpch hs₂ hfind hzero hoff huse
        rw [hres]
        refine ⟨hk₂.assign hfind hfp1 ⟨by rw [hcrtc], hoff, by rw [hcrtc]; exact hpch, by rw [hcrtc]⟩
          (hhw' ▸ requiredState_enabled clocks) hpll, hsets.encoders, fun c' hcc => ?_, ?_⟩
        · rw [setPll_crtcs, setCrtc_crtcs, update_of_ne hcc, hothers c' hcc]
        · rw [setPll_crtcs, setCrtc_crtcs, update_self, hcrtc]

/-! ### Steps -/

structure PllInv (s : DisplayState h m) : Prop where
  kept : Kept s
  off : ∀ c, (s.crtcs c).enabled = false → IsOff s c
  used : ∀ c, (s.crtcs c).enabled = inUse s.encoders c

variable (hinv : PllInv s)
include hinv

theorem PllInv.disablePipes (r : SetModeRequest h m) :
    Kept (s.disablePipes r) ∧ Less s (s.disablePipes r) ∧
      (∀ c, s.disablePipe c r = true → IsOff (s.disablePipes r) c) ∧
      (s.modesetPipe r = true → ((s.disablePipes r).crtcs r.crtc).active = false) := by
  obtain ⟨hk, hless, hoff⟩ :=
    hinv.kept.disableAll ((List.finRange h.numPipes).filter fun c => s.disablePipe c r)
  have hmem : ∀ c, s.disablePipe c r = true →
      c ∈ (List.finRange h.numPipes).filter fun c => s.disablePipe c r := fun c hc =>
    List.mem_filter.mpr ⟨List.mem_finRange c, hc⟩
  unfold DisplayState.disablePipes
  dsimp only
  split
  · obtain ⟨hk', hless', hoff'⟩ := hk.disable r.crtc
    exact ⟨hk', hless.trans hless', fun c hc => hless'.isOff (hoff c (hmem c hc)), fun _ => hoff'⟩
  · rename_i hnot
    refine ⟨hk, hless, fun c hc => hoff c (hmem c hc), fun hm => ?_⟩
    -- a crtc that is not enabled is not active
    have hdisabled : (s.crtcs r.crtc).enabled = false := by
      rw [hm, hless.enabled] at hnot
      exact Bool.eq_false_iff.mpr hnot
    exact (hless.isOff (hinv.off _ hdisabled)).1

/-- A crtc that is not staged for any encoder is off when the pipes are disabled. -/
theorem PllInv.unstaged (r : SetModeRequest h m) (hc : inUse r.staged c = false) :
    IsOff (s.disablePipes r) c := by
  obtain ⟨-, hless, hoff, -⟩ := hinv.disablePipes r
  cases henabled : (s.crtcs c).enabled with
  | false => exact hless.isOff (hinv.off c henabled)
  | true =>
    refine hoff c ?_
    unfold disablePipe
    rw [henabled, hc]
    rfl

variable {r : SetModeRequest h m}

theorem PllInv.staged (he : DisplayAction.Enabled s (.setMode r)) (hm : s.modesetPipe r = true) :
    inUse r.staged r.crtc = true := by
  unfold modesetPipe disablePipe at hm
  cases henabled : (s.crtcs r.crtc).enabled with
  | true => simpa [henabled] using hm
  | false =>
    have hchanged : r.changed = true := by simpa [henabled] using hm
    rcases he hchanged with hbefore | hafter
    · rw [← hinv.used, henabled] at hbefore
      cases hbefore
    · exact hafter

theorem PllInv.prepareMode (hm : s.modesetPipe r = true) (hasPchEncoder : Bool) :
    KeptBut (s.prepareMode r hasPchEncoder) r.crtc := by
  obtain ⟨hk, -, -, hoff⟩ := hinv.disablePipes r
  have hcrtcs : ∀ c, c ≠ r.crtc → (s.prepareMode r hasPchEncoder).crtcs c =
      { (s.disablePipes r).crtcs c with enabled := inUse r.staged c } := fun c hne => by
    unfold DisplayState.prepareMode updateState setPipeConfig
    simp only [setCrtc_crtcs, update_of_ne hne]
  have hself : (s.prepareMode r hasPchEncoder).crtcs r.crtc =
      { (s.disablePipes r).crtcs r.crtc with
        hasPchEncoder := hasPchEncoder, dpllHwState := {}, enabled := inUse r.staged r.crtc } := by
    unfold DisplayState.prepareMode updateState setPipeConfig
    simp only [setCrtc_crtcs, update_self]
  refine ⟨hk.tracked.congr (fun c => ?_) (fun c _ => ?_) (fun _ => ⟨rfl, rfl, rfl⟩) rfl,
    fun c hne => (hk.fits c).congr (fun _ => rfl) ?_ ?_ ?_, ?_⟩
  · by_cases hc : c = r.crtc
    · rw [hc, hself]
    · rw [hcrtcs c hc]
  · by_cases hc : c = r.crtc
    · rw [hc, hself]
    · rw [hcrtcs c hc]
  · rw [hcrtcs c hne]
  · rw [hcrtcs c hne]
  · rw [hcrtcs c hne]
  · rw [hself]
    exact hoff hm

theorem PllInv.enable (henabled : (s.crtcs c).enabled = true) : PllInv (s.ironlakeCrtcEnable c) := by
  obtain ⟨ht, htimes, henc, hcrtcs⟩ := enable_spec hinv.kept.tracked (hinv.kept.fits c).hasPch
  refine ⟨⟨ht, fun c' => (hinv.kept.fits c').congr htimes (update_field _ hcrtcs rfl c')
    (update_field _ hcrtcs rfl c') (update_field _ hcrtcs rfl c')⟩, fun c' hc' => ?_, fun c' => ?_⟩
  · rw [update_field Crtc.enabled hcrtcs rfl c'] at hc'
    have hcc : c' ≠ c := fun heq => by
      rw [heq, henabled] at hc'
      cases hc'
    obtain ⟨hoff, hnone⟩ := hinv.off c' hc'
    exact ⟨by rw [hcrtcs, update_of_ne hcc, hoff], by rw [hcrtcs, update_of_ne hcc, hnone]⟩
  · rw [update_field Crtc.enabled hcrtcs rfl c', henc, hinv.used c']

/-- A mode set of a crtc that is staged leaves all right. -/
theorem PllInv.of_modeSet {hasPchEncoder : Bool} (hstaged : inUse r.staged r.crtc = true)
    (hk : Kept s') (hsets : SetsOne (s.prepareMode r hasPchEncoder) s' r.crtc) : PllInv s' := by
  have henabled : ∀ c, (s'.crtcs c).enabled = inUse r.staged c := fun c => by
    by_cases hc : c = r.crtc
    · rw [hc, hsets.enabled]
      rfl
    · rw [hsets.others c hc]
      rfl
  refine ⟨hk, fun c hc => ?_, fun c => ?_⟩
  · rw [henabled c] at hc
    have hne : c ≠ r.crtc := fun heq => by
      rw [heq, hstaged] at hc
      cases hc
    have hoff := hinv.unstaged r hc
    have hcrtc : s'.crtcs c =
        { (s.disablePipes r).crtcs c with enabled := inUse r.staged c } := by
      rw [hsets.others c hne]
      unfold DisplayState.prepareMode updateState setPipeConfig
      simp only [setCrtc_crtcs, update_of_ne hne]
    exact ⟨by rw [hcrtc]; exact hoff.1, by rw [hcrtc]; exact hoff.2⟩
  · rw [henabled c, hsets.encoders]
    rfl

theorem PllInv.setMode (he : DisplayAction.Enabled s (.setMode r))
    (hw : DisplayAction.Whole s (.setMode r)) : PllInv (s.intelSetMode r).2 := by
  unfold intelSetMode
  split
  · rename_i hm
    cases hconfig : r.pipeConfig with
    | none => exact hinv
    | some hasPchEncoder =>
      have hstaged := hinv.staged he hm
      obtain ⟨hk, hsets⟩ := (hinv.prepareMode hm hasPchEncoder).modeSet (hw hm _ hconfig)
      have hset := hinv.of_modeSet hstaged hk hsets
      dsimp only
      split
      · exact hset
      · refine hset.enable ?_
        rw [hsets.enabled]
        exact hstaged
  · obtain ⟨hk, -, -, -⟩ := hinv.disablePipes r
    exact ⟨⟨hk.tracked.congr (fun _ => rfl) (fun _ _ => rfl) (fun _ => ⟨rfl, rfl, rfl⟩) rfl,
      fun c => (hk.fits c).congr (fun _ => rfl) rfl rfl rfl⟩, fun c hc => hinv.unstaged r hc,
      fun c => rfl⟩

theorem PllInv.updateDpms {enable : Bool} (hc : inUse s.encoders c = true) :
    PllInv (DisplayAction.apply s (.updateDpms c enable)) := by
  cases enable with
  | true => exact hinv.enable ((hinv.used c).trans hc)
  | false =>
    obtain ⟨hk, hless, -⟩ := hinv.kept.disable c
    refine ⟨hk, fun c' hc' => ?_, fun c' => ?_⟩
    · exact hless.isOff (hinv.off c' ((hless.enabled c').symm.trans hc'))
    · exact (hless.enabled c').trans
        ((hinv.used c').trans (congrArg (fun e => inUse e c') hless.encoders.symm))

theorem PllInv.pllsOk : PllsOk s := by
  have ht := hinv.kept.tracked
  refine ⟨fun i => ?_, ht.acts, fun i => ?_, fun i c c' hc hc' => ?_, ht.kept⟩
  · rw [ht.refs i]
    refine Census.congr fun c => ?_
    cases henabled : (s.crtcs c).enabled with
    | true => rw [Bool.true_and]
    | false => simp [(hinv.off c henabled).2]
  · rw [ht.isOn i, decide_eq_true_iff]
  · obtain ⟨-, htimes, hbit, -⟩ := hinv.kept.fits c i hc
    obtain ⟨-, htimes', hbit', -⟩ := hinv.kept.fits c' i hc'
    obtain ⟨hdpll, hfps⟩ := Prod.mk.inj (htimes.symm.trans htimes')
    obtain ⟨hfp0, hfp1⟩ := Prod.mk.inj hfps
    have heq := eq_of_masked hbit hbit' hdpll
    calc (s.crtcs c).dpllHwState
        = ⟨(s.crtcs c').dpllHwState.dpll, (s.crtcs c').dpllHwState.fp0,
            (s.crtcs c').dpllHwState.fp1⟩ := by rw [← heq, ← hfp0, ← hfp1]
      _ = (s.crtcs c').dpllHwState := rfl

omit hinv

/-! ### Runs -/

theorem PllInv.of_init (hs : (displaySystem h m).init s) : PllInv s := by
  obtain ⟨hcrtcs, hplls, henc, hkept⟩ := hs
  refine ⟨⟨⟨fun i => ?_, fun i => ?_, fun i => ?_, hkept⟩, fun c => .of_none (by rw [hcrtcs])⟩,
    fun c _ => ⟨by rw [hcrtcs], by rw [hcrtcs]⟩, fun c => ?_⟩
  · rw [hplls]
    exact (Census.eq_zero_iff.mpr fun c => by rw [hcrtcs]; rfl).symm
  · rw [hplls]
    exact (Census.eq_zero_iff.mpr fun c => by rw [hcrtcs]; rfl).symm
  · rw [hplls]
    rfl
  · rw [hcrtcs]
    exact (decide_eq_false (by simp [henc])).symm

/-- As long as mode sets take their PLLs alone, and those without divisors had none, counts,
activity, timings and registers of all PLLs are right. -/
theorem plls_ok (hs : ReachWhile (displaySystem h m) (fun s a => a.Whole s) s) : PllsOk s := by
  refine PllInv.pllsOk (hs.invariant (fun s hs => .of_init hs) fun s a s' hinv hw hs => ?_)
  obtain ⟨he, rfl⟩ := hs
  cases a with
  | setMode r => exact hinv.setMode he hw
  | updateDpms c enable => exact hinv.updateDpms he

/-! ### Computed runs -/

theorem displayRun_reach (guard : DisplayState h m → DisplayAction h m → Prop)
    (l : List (DisplayAction h m))
    (hl : AllAllowed (fun s a => a.Enabled s ∧ guard s a) (fun s a => DisplayAction.apply s a) l {}) :
    ReachWhile (displaySystem h m) guard (l.foldl (fun s a => DisplayAction.apply s a) {}) :=
  ReachWhile.foldl (S := displaySystem h m) _ (fun _ _ hs => ⟨hs.2, hs.1, rfl⟩) l
    (.init ⟨fun _ => rfl, fun _ => rfl, fun _ => rfl, rfl⟩) hl

instance (s : DisplayState h m) (a : DisplayAction h m) : Decidable (a.Enabled s) :=
  match a with
  | .setMode r => inferInstanceAs (Decidable (_ → _))
  | .updateDpms c _ => inferInstanceAs (Decidable (_ = _))

instance (s : DisplayState h m) (c : Fin h.numPipes) (hw : DpllHwState) :
    Decidable (TakesAlone s c hw) := inferInstanceAs (Decidable (∀ _, _))

instance (s : DisplayState h m) (c : Fin h.numPipes) (o : ModeSetOutcome) :
    Decidable (ModeSetWhole s c o) :=
  match o with
  | ⟨none, _⟩ => inferInstanceAs (Decidable (_ = _))
  | ⟨some clocks, _⟩ => inferInstanceAs (Decidable (_ → _))

instance (s : DisplayState h m) (a : DisplayAction h m) : Decidable (a.Whole s) :=
  match a with
  | .setMode r => inferInstanceAs (Decidable (_ → _))
  | .updateDpms _ _ => inferInstanceAs (Decidable True)

/-- Two pipes on a PCH whose PLLs any pipe may take. -/
def cpt : Pch := { numPipes := 2, fixed := fun hibx => by cases hibx }

/-- Encoder 0 drives crtc 0, and if told so encoder 1 drives crtc 1. -/
def modeOf (c : Fin 2) (two : Bool) (fp1 : BitVec 32) : DisplayAction cpt 2 :=
  .setMode
    { crtc := c
      staged := fun e => if e = 0 then some (0 : Fin 2) else if two then some (1 : Fin 2) else none
      changed := true
      outcome := { clocks := some { dpll := 0x4000000, fp0 := 0x20e08, fp1 := fp1 } } }

/-- The first crtc is switched off before the second takes the same PLL. -/
theorem plls_ok_shared :
    PllsOk ([modeOf 0 false 0x20e08, .updateDpms (0 : Fin 2) false, modeOf 1 true 0x20e08,
      .updateDpms (0 : Fin 2) true].foldl (fun s a => DisplayAction.apply s a) {}) :=
  plls_ok (displayRun_reach _ _ (by decide))

/-- The second crtc has a reduced clock, and shares the PLL that the first one is active on. -/
theorem pll_rewritten : ¬ ∀ h m s, Reach (displaySystem h m) s → PllsOk s := by
  intro hall
  have hok := hall cpt 2 _ (displayRun_reach _ [modeOf 0 false 0x20e08, modeOf 1 true 0x31108]
    (by decide))
  exact absurd hok.kept (by decide)

end GfxDrm.Dpll
