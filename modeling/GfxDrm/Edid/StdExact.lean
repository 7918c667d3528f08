import GfxDrm.Edid.Std

/-! When drm_mode_std neither traps nor wraps below zero, and what it returns then. -/

namespace GfxDrm.Edid
open CInt Modes Checked Traced

/-! ### What a standard timing stands for -/

section
variable {t : StdTiming} {revision : ℤ} {s : StdSize}

theorem StdTiming.decode_range (t : StdTiming) (revision : ℤ) :
    StdRange (t.decode revision).hsize (t.decode revision).vsize (t.decode revision).rate := by
  have hsize := t.hsize.toNat_lt
  have hfreq : (t.vfreqAspect &&& 0x3f).toNat ≤ 63 := by
    exact Nat.and_le_right
  have hdiv : ∀ k n : ℤ, 0 ≤ k → ((t.hsize.toNat * 8 + 248 : ℤ) * k).tdiv n =
      (t.hsize.toNat * 8 + 248 : ℤ) * k / n := fun k n hk =>
    Int.tdiv_eq_ediv_of_nonneg (mul_nonneg (by omega) hk)
  have hv : 139 ≤ (t.decode revision).vsize ∧ (t.decode revision).vsize ≤ 2288 := by
    unfold StdTiming.decode
    dsimp only
    rw [hdiv 10 16 (by decide), hdiv 3 4 (by decide), hdiv 4 5 (by decide), hdiv 9 16 (by decide)]
    split_ifs <;> omega
  have hh : (t.decode revision).hsize = t.hsize.toNat * 8 + 248 := rfl
  have hr : (t.decode revision).rate = (t.vfreqAspect &&& 0x3f).toNat + 60 := rfl
  exact ⟨by omega, by omega, by omega, hv.1, hv.2, by omega, by omega⟩

/-- The size that the HDTV hack puts in is that of its second part. -/
theorem StdSize.hdtv_eq (s : StdSize) :
    s.hdtv = s ∨ s.hdtv.hsize = 1366 ∧ s.hdtv.vsize = 768 ∧ s.hdtv.rate = 60 := by
  unfold StdSize.hdtv
  split
  · next h => exact .inr ⟨rfl, rfl, h.1⟩
  · exact .inl rfl

end

/-! ### The lookups -/

section
variable {s : StdSize} {m : Mode}

/-- A mode as it is stored, its totals of type int. -/
abbrev IntMode := { m : Mode // IsInt m.htotal ∧ IsInt m.vtotal }

theorem refresh_isSome (hm : IsInt m.htotal ∧ IsInt m.vtotal) : ∃ rate, m.refresh = some rate := by
  obtain ⟨hh, hv⟩ := hm
  have hne : ∀ x y, IsInt y → 0 < y → ∃ q, CInt.udiv x y = some q := by
    intro x y hy hpos
    unfold IsInt at hy
    unfold CInt.udiv
    rw [u32_of_range (by omega) (by omega), if_neg (by omega)]
    exact ⟨_, rfl⟩
  unfold Mode.refresh
  split
  · exact ⟨_, rfl⟩
  · split
    · next hpos =>
      obtain ⟨calcVal, hcalc⟩ := hne (i32 (m.clock * 1000)) _ hh hpos.1
      obtain ⟨rate, hrate⟩ := hne (calcVal + m.vtotal.tdiv 2) _ hv hpos.2
      rw [hcalc, Option.bind_eq_bind, Option.bind_some, hrate]
      exact ⟨_, rfl⟩
    · exact ⟨_, rfl⟩

/-- The size and the rate of the mode. -/
def StdSize.Is (s : StdSize) (m : Mode) : Prop :=
  m.hdisplay = s.hsize ∧ m.vdisplay = s.vsize ∧ m.refresh = some s.rate

instance (s : StdSize) : DecidablePred s.Is := fun m => inferInstanceAs (Decidable (_ ∧ _))

theorem runs_sameMode (hm : IsInt m.htotal ∧ IsInt m.vtotal) {Q : Bool → Prop} :
    Runs (s.sameMode m) Q ↔ Q (decide (s.Is m)) := by
  obtain ⟨rate, hrate⟩ := refresh_isSome hm
  unfold StdSize.sameMode
  by_cases hsize : m.hdisplay = s.hsize ∧ m.vdisplay = s.vsize
  · have his : s.Is m ↔ rate = s.rate := by
      unfold StdSize.Is
      rw [hrate, Option.some.injEq]
      exact ⟨fun h => h.2.2, fun h => ⟨hsize.1, hsize.2, h⟩⟩
    rw [if_pos hsize, hrate]
    simp [his]
  · have his : ¬s.Is m := fun h => hsize ⟨h.1, h.2.1⟩
    rw [if_neg hsize, runs_pure, decide_eq_false his]

theorem drmDmtModes_spec : ∀ m ∈ drmDmtModes,
    (IsInt m.htotal ∧ IsInt m.vtotal) ∧ 0 < m.clock ∧ 0 < m.htotal ∧ 0 < m.vtotal := by
  decide

/-- The mode of the table that drm_mode_find_dmt comes to. -/
def StdSize.dmtMode (s : StdSize) (rb : Bool) : Option Mode :=
  drmDmtModes.find? fun m => decide (s.Is m) && (rb == modeIsRb m)

theorem runs_findDmt {rb memory : Bool} {Q : Option Mode → Prop} :
    Runs (s.findDmt rb memory) Q ↔ Q (if memory then s.dmtMode rb else none) := by
  unfold StdSize.findDmt
  rw [runs_bind, runs_find (q := fun m => decide (s.Is m) && (rb == modeIsRb m))]
  · rw [runs_pure]
    rfl
  · intro m hm R
    rw [runs_bind, runs_sameMode (drmDmtModes_spec m hm).1]
    by_cases his : s.Is m <;> simp [his]

/-- What drm_mode_std may return. -/
structure StdSize.Right (s : StdSize) (m : Mode) : Prop where
  hdisplay : m.hdisplay = s.hsize
  clock : 0 < m.clock
  htotal : 0 < m.htotal
  vtotal : 0 < m.vtotal

theorem dmtMode_right {rb : Bool} (h : s.dmtMode rb = some m) : s.Right m := by
  have hmem := List.mem_of_find?_eq_some h
  have hfound := List.find?_some h
  rw [Bool.and_eq_true, decide_eq_true_eq] at hfound
  obtain ⟨-, hclock, hhtotal, hvtotal⟩ := drmDmtModes_spec m hmem
  exact ⟨hfound.1.1, hclock, hhtotal, hvtotal⟩

end

/-! ### CVT -/

section
variable {s : StdSize} {width : ℤ}

/-- What a timing that CVT works out starts from, and the period of its lines. -/
theorem cvt_period_bounds (hs : StdRange width s.vsize s.rate) (hh : 248 ≤ s.hsize)
    (hhle : s.hsize ≤ 2288) :
    (cvtExactInput s.hsize s.vsize s.rate false false).Sized ∧
      0 ≤ (cvtExactInput s.hsize s.vsize s.rate false false).exactTime cvtMinVsyncBp ∧
      3307 ≤ (cvtExactInput s.hsize s.vsize s.rate false false).exactHperiod false ∧
      (cvtExactInput s.hsize s.vsize s.rate false false).exactHperiod false ≤ 120000 := by
  have hv := hs.v_ge
  have hvle := hs.v_le
  have hr := hs.r_ge
  have hrle := hs.r_le
  have hsized := @cvtExactInput_sized s.hsize s.vsize s.rate false false (by omega) (by omega)
    (by omega) (by omega) (by omega)
  have hlow : 284 * 60 ≤ ((s.vsize + 3) * 2) * s.rate :=
    mul_le_mul (by omega) hr (by decide) (by omega)
  have hhigh : ((s.vsize + 3) * 2) * s.rate ≤ 4582 * 123 :=
    mul_le_mul (by omega) hrle (by omega) (by decide)
  have htime : (cvtExactInput s.hsize s.vsize s.rate false false).exactTime cvtMinVsyncBp =
      1000000000 - 550000 * s.rate := rfl
  have hperiod : (cvtExactInput s.hsize s.vsize s.rate false false).exactHperiod false =
      (1000000000 - 550000 * s.rate) * 2 / (((s.vsize + 3) * 2) * s.rate) := by
    have hhalf : (cvtExactInput s.hsize s.vsize s.rate false false).exactHalfLines =
        (s.vsize + 3) * 2 := by
      change (s.vsize + 2 * 0 + 3) * 2 + 0 = _
      omega
    unfold CvtInput.exactHperiod
    rw [hhalf]
    rfl
  rw [hperiod]
  refine ⟨hsized, by omega, ?_, ?_⟩
  · exact Int.le_ediv_of_mul_le (by omega) (by omega)
  · exact Int.lt_add_one_iff.mp (Int.ediv_lt_of_lt_mul (by omega) (by omega))

theorem cvtInput_std (hs : StdRange width s.vsize s.rate) (hh : 248 ≤ s.hsize)
    (hhle : s.hsize ≤ 2288) :
    cvtInput s.hsize s.vsize s.rate false false =
      cvtExactInput s.hsize s.vsize s.rate false false := by
  have hv := hs.v_ge
  have hvle := hs.v_le
  have hr := hs.r_ge
  have hrle := hs.r_le
  apply cvtInput_eq (by omega) (by omega) (by omega) (by omega) (by omega)
  change s.rate < 0x80000000
  omega

/-- The mode of CVT: what is blanked of a line is at most three sevenths of its width. -/
theorem drmCvtMode_std (hs : StdRange width s.vsize s.rate) (hh : 248 ≤ s.hsize)
    (hhle : s.hsize ≤ 2288)
    (hmax : (cvtExactInput s.hsize s.vsize s.rate false false).exactHperiod false ≤ 100003) :
    ∃ m, drmCvtMode s.hsize s.vsize s.rate false false false = some m ∧
      m.hdisplay = s.hsize - s.hsize % 8 ∧ 0 < m.clock ∧ 0 < m.htotal ∧ 0 < m.vtotal := by
  have hv := hs.v_ge
  have hvle := hs.v_le
  obtain ⟨hsized, htime, hp, -⟩ := cvt_period_bounds hs hh hhle
  have hinput := cvtInput_std hs hh hhle
  have hwidth : (cvtExactInput s.hsize s.vsize s.rate false false).hdisplay =
      s.hsize - s.hsize % 8 := by
    change s.hsize - s.hsize % 8 + 2 * (0 - 0 % 8) = _
    omega
  have hlines : (cvtExactInput s.hsize s.vsize s.rate false false).lines = s.vsize := by
    change s.vsize + 2 * 0 = _
    omega
  generalize cvtExactInput s.hsize s.vsize s.rate false false = i at *
  obtain ⟨hporch0, hporch⟩ := @CvtInput.exactPorch_bounds i false hsized (by omega)
  have hvsync := hsized.vsync_ge
  obtain ⟨hb0, -, -, hb⟩ := hsized.exactHblank_bounds (by omega)
  have htotal : i32 (i.hdisplay + i.exactHblank false) = i.hdisplay + i.exactHblank false :=
    i32_of_range (by omega) (by omega)
  have hvtotal : i32 (i.lines + i.exactPorch false + cvtMinVPorch) =
      i.lines + i.exactPorch false + cvtMinVPorch := by
    unfold cvtMinVPorch
    exact i32_of_range (by omega) (by omega)
  -- the pixels times 10^6 wrap as an int, but the division is one of unsigned int
  have hpixels : u32 (i32 (i32 ((i.hdisplay + i.exactHblank false) * hvFactor) * 1000)) =
      (i.hdisplay + i.exactHblank false) * 1000000 := by
    unfold hvFactor
    rw [@i32_of_range ((i.hdisplay + i.exactHblank false) * 1000) (by omega) (by omega), u32_i32,
      u32_of_range (by omega) (by omega)]
    omega
  have hclock : 2300 ≤ (i.hdisplay + i.exactHblank false) * 1000000 / i.exactHperiod false ∧
      (i.hdisplay + i.exactHblank false) * 1000000 / i.exactHperiod false < 0x80000000 := by
    constructor
    · exact Int.le_ediv_of_mul_le (by omega) (by omega)
    · exact Int.ediv_lt_of_lt_mul (by omega) (by omega)
  unfold drmCvtMode
  rw [hinput]
  dsimp only
  rw [CvtInput.blanking, hsized.hperiod_eq htime]
  dsimp only [Option.bind_eq_bind, Option.bind_some]
  rw [hsized.porch_eq (by omega) hmax]
  rw [hsized.hblank_eq (by omega) hmax]
  dsimp only [Option.bind_some]
  have hdiv : CInt.udiv (i32 (i32 ((i.times (i.exactHblank false) (i.exactPorch false)).htotal *
      hvFactor) * 1000)) (i.exactHperiod false) =
        some ((i.hdisplay + i.exactHblank false) * 1000000 / i.exactHperiod false) := by
    change CInt.udiv (i32 (i32 (i32 (i.hdisplay + i.exactHblank false) * hvFactor) * 1000)) _ = _
    unfold CInt.udiv
    rw [htotal, hpixels, u32_of_range (by omega) (by omega), if_neg (by omega)]
  unfold cvtFinish
  rw [hdiv]
  refine ⟨_, rfl, hwidth, ?_, ?_, ?_⟩
  · change 0 < i32 _ - (i32 _).tmod cvtClockStep
    unfold cvtClockStep
    rw [i32_of_range (by omega) (by omega), Int.tmod_eq_emod_of_nonneg (by omega)]
    omega
  · change 0 < i32 (i.hdisplay + i.exactHblank false)
    omega
  · change 0 < i32 (i.lines + i.exactPorch false + cvtMinVPorch)
    rw [hvtotal]
    unfold cvtMinVPorch
    omega

/-- CVT runs where a line takes no more than 100003 units of time. -/
theorem runs_cvtMode (hs : StdRange width s.vsize s.rate) (hh : 248 ≤ s.hsize)
    (hhle : s.hsize ≤ 2288) {Q : Mode → Prop} :
    Runs s.cvtMode Q ↔
      (cvtExactInput s.hsize s.vsize s.rate false false).exactHperiod false ≤ 100003 ∧
        ∃ m, drmCvtMode s.hsize s.vsize s.rate false false false = some m ∧ Q m := by
  have hr := hs.r_ge
  have hrle := hs.r_le
  obtain ⟨hsized, htime, hp, hple⟩ := cvt_period_bounds hs hh hhle
  have hrate : (cvtExactInput s.hsize s.vsize s.rate false false).vfieldrate = s.rate := rfl
  unfold StdSize.cvtMode
  rw [cvtInput_std hs hh hhle]
  generalize cvtExactInput s.hsize s.vsize s.rate false false = i at *
  unfold cvtMinVsyncBp cvtCPrime hvFactor cvtMPrime
  simp only [runs_bind, runs_usub, runs_ofOption, hsized.hperiod_eq htime, Option.some.injEq,
    exists_eq_left']
  rw [@u32_of_range (300 * i.exactHperiod false) (by omega) (by omega)]
  constructor
  · intro hrun
    obtain ⟨-, porch, -, hle, -, m, hm, hQ⟩ := hrun
    rw [u32_of_range (by omega) (by omega), u32_of_range (by omega) (by omega)] at hle
    exact ⟨by omega, m, hm, hQ⟩
  · intro hrun
    obtain ⟨hmax, m, hm, hQ⟩ := hrun
    have hpercentage := CvtInput.percentage_bounds (i := i) (by omega)
    -- the rest of the second, what the slope leaves of C', and the share of the line that is shown
    refine ⟨?_, _, hsized.porch_eq (by omega) hmax, ?_, ?_, m, hm, hQ⟩
    · rw [u32_of_range (by omega) (by omega), u32_of_range (by omega) (by omega)]
      omega
    · rw [u32_of_range (by omega) (by omega), u32_of_range (by omega) (by omega)]
      omega
    · rw [CvtInput.percentage_eq (by omega) hmax, u32_of_range (by omega) (by omega),
        u32_of_range (by omega) (by omega)]
      omega

end

/-! ### The generators -/

section
variable {raw : ℕ → UInt8} {s : StdSize} {width : ℤ} {mem : StdMemory}

theorem gtf2Byte_le (raw : ℕ → UInt8) (k : ℕ) : gtf2Byte raw k ≤ 255 := by
  unfold gtf2Byte
  split
  · next block t _ => exact Nat.lt_succ_iff.mp (byteAt raw block (t + k)).toNat_lt
  · exact Nat.zero_le _

theorem gtf2Curve_bytes (raw : ℕ → UInt8) : (gtf2Curve raw).Bytes := by
  have h13 := gtf2Byte_le raw 13
  have h14 := gtf2Byte_le raw 14
  have h15 := gtf2Byte_le raw 15
  have h16 := gtf2Byte_le raw 16
  have h17 := gtf2Byte_le raw 17
  constructor <;> unfold gtf2Curve <;> dsimp only <;> omega

theorem gtfDefault_bytes : gtfDefault.Bytes := by
  constructor <;> decide

theorem runs_allocated {memory : Bool} {m : Checked Mode} {Q : Option Mode → Prop} :
    Runs (StdSize.allocated memory m) Q ↔
      (memory = true → Runs m fun mode => Q (some mode)) ∧ (memory = false → Q none) := by
  unfold StdSize.allocated
  cases memory <;> simp

/-- A mode of the GTF formula is right where its clock is there. -/
theorem gtfMode_right_iff {g : GtfCurve} (hs : StdRange s.hsize s.vsize s.rate)
    (hf : g.Fits s.hsize s.vsize s.rate) :
    s.Right (g.mode s.hsize s.vsize s.rate) ↔
      1000 ≤ u32 (g.total s.hsize s.vsize s.rate * lineRate s.vsize s.rate) := by
  obtain ⟨-, -, htotal, -⟩ := GtfCurve.line_bounds hs hf.slope_le hf.duty_lt
  have hvtotal := hs.gtfVtotal_bounds.1
  have hclock : 0 < g.clock s.hsize s.vsize s.rate ↔
      1000 ≤ u32 (g.total s.hsize s.vsize s.rate * lineRate s.vsize s.rate) := by
    unfold GtfCurve.clock
    omega
  constructor
  · intro h
    exact hclock.mp h.clock
  · intro h
    refine ⟨rfl, hclock.mpr h, ?_, ?_⟩
    · change 0 < g.total s.hsize s.vsize s.rate
      omega
    · change 0 < gtfVtotal s.vsize s.rate
      omega

/-- The generators that the level picks fit the size: CVT, where a line takes no more than 100003
units of time; GTF with the default curve; and where its lines come faster than the break, GTF
with the monitor's curve, which leaves a clock. -/
def GeneratorFits (raw : ℕ → UInt8) (s : StdSize) (mem : StdMemory) : Prop :=
  match standardTimingLevel raw with
  | .dmt => True
  | .gtf => gtfDefault.Fits s.hsize s.vsize s.rate
  | .gtf2 =>
    gtfDefault.Fits s.hsize s.vsize s.rate ∧
      (drmGtf2Hbreak raw < gtfDefault.khz s.hsize s.vsize s.rate → mem.again →
        (gtf2Curve raw).Fits s.hsize s.vsize s.rate ∧
          1000 ≤ u32 ((gtf2Curve raw).total s.hsize s.vsize s.rate * lineRate s.vsize s.rate))
  | .cvt => (cvtExactInput s.hsize s.vsize s.rate false false).exactHperiod false ≤ 100003

theorem runs_gtf (hs : StdRange s.hsize s.vsize s.rate) {Q : Mode → Prop} :
    Runs (drmGtfMode s.hsize s.vsize s.rate false false) Q ↔
      gtfDefault.Fits s.hsize s.vsize s.rate ∧ Q (gtfDefault.mode s.hsize s.vsize s.rate) :=
  gtfDefault_bytes.runs_drmGtfModeComplex hs

/-- With the default curve a mode that fits is right. -/
theorem gtfDefault_right (hs : StdRange s.hsize s.vsize s.rate)
    (hf : gtfDefault.Fits s.hsize s.vsize s.rate) :
    s.Right (gtfDefault.mode s.hsize s.vsize s.rate) := by
  have hclock := (gtfDefault_clock_bounds hs hf).1
  apply (gtfMode_right_iff hs hf).mpr
  unfold GtfCurve.clock at hclock
  omega

/-- With the monitor's curve a mode that fits may be left without a clock. -/
theorem runs_gtf2 (hs : StdRange s.hsize s.vsize s.rate) {memory : Bool} :
    Runs (StdSize.allocated memory
        (drmGtfModeComplex s.hsize s.vsize s.rate false false (gtf2Curve raw)))
        (fun mode => ∀ m ∈ mode, s.Right m) ↔
      (memory = true → (gtf2Curve raw).Fits s.hsize s.vsize s.rate ∧
        1000 ≤ u32 ((gtf2Curve raw).total s.hsize s.vsize s.rate * lineRate s.vsize s.rate)) := by
  rw [runs_allocated, (gtf2Curve_bytes raw).runs_drmGtfModeComplex hs]
  simp only [Option.mem_def, Option.some.injEq, forall_eq', reduceCtorEq, false_imp_iff,
    implies_true, and_true]
  exact forall_congr' fun _ => and_congr_right fun hf => gtfMode_right_iff hs hf

theorem generate_iff (hs : StdRange s.hsize s.vsize s.rate) :
    Runs (s.generate raw mem) (fun mode => ∀ m ∈ mode, s.Right m) ↔
      (mem.mode = true → GeneratorFits raw s mem) := by
  unfold StdSize.generate GeneratorFits
  cases standardTimingLevel raw with
  | dmt => simp
  | gtf =>
    simp only [runs_allocated, runs_gtf hs, Option.mem_def, Option.some.injEq, forall_eq',
      reduceCtorEq, false_imp_iff, implies_true, and_true]
    exact forall_congr' fun _ => and_iff_left_of_imp (gtfDefault_right hs)
  | gtf2 =>
    cases mem.mode with
    | false => simp
    | true =>
      rw [if_pos rfl, runs_bind, runs_gtf hs, forall_prop_of_true rfl]
      apply and_congr_right
      intro hf
      rw [runs_bind, runs_ofOption, gtfDefault_hsyncRate hs hf]
      simp only [Option.some.injEq, exists_eq_left']
      by_cases hbreak : drmGtf2Hbreak raw < gtfDefault.khz s.hsize s.vsize s.rate
      · rw [if_pos hbreak, runs_gtf2 hs, forall_prop_of_true hbreak]
      · rw [if_neg hbreak, runs_pure]
        refine iff_of_true ?_ fun h => absurd h hbreak
        intro m hm
        cases hm
        exact gtfDefault_right hs hf
  | cvt =>
    have hcells := hs.cells
    simp only [runs_allocated, runs_cvtMode hs hs.h_ge hs.h_le, Option.mem_def,
      Option.some.injEq, forall_eq', reduceCtorEq, false_imp_iff, implies_true, and_true]
    apply forall_congr'
    intro _
    apply and_iff_left_of_imp
    intro hmax
    obtain ⟨m, hm, hwidth, hright⟩ := drmCvtMode_std hs hs.h_ge hs.h_le hmax
    exact ⟨m, hm, by omega, hright.1, hright.2.1, hright.2.2⟩

end

/-! ### drm_mode_std -/

/-- The run neither traps nor wraps below zero, and the mode it returns is right. -/
def StdRight (raw : ℕ → UInt8) (t : StdTiming) (revision : ℤ) (probedModes : List IntMode)
    (mem : StdMemory) : Prop :=
  Runs (drmModeStd raw t revision (probedModes.map Subtype.val) mem)
    fun mode => ∀ m ∈ mode, (t.decode revision).hdtv.Right m

/-- A mode has to be generated: the bytes stand for a timing that no mode is there for yet, it is
not that of the hack, and the table has no mode for it that there is the memory to copy. -/
structure Generated (raw : ℕ → UInt8) (t : StdTiming) (s : StdSize) (probedModes : List IntMode)
    (mem : StdMemory) : Prop where
  used : badStdTiming t.hsize t.vfreqAspect = false
  unknown : ∀ m ∈ probedModes, ¬s.Is m.1
  plain : ¬(s.hsize = 1366 ∧ s.vsize = 768 ∧ s.rate = 60)
  noRb : drmMonitorSupportsRb raw = true → mem.rbCopy = true → s.dmtMode true = none
  noDmt : mem.copy = true → s.dmtMode false = none
  memory : mem.mode = true

/-- Where a mode has to be generated, the size fits the generators. -/
def StdFits (raw : ℕ → UInt8) (t : StdTiming) (revision : ℤ) (probedModes : List IntMode)
    (mem : StdMemory) : Prop :=
  Generated raw t (t.decode revision).hdtv probedModes mem →
    GeneratorFits raw (t.decode revision).hdtv mem

section
variable {raw : ℕ → UInt8} {s : StdSize} {mem : StdMemory}

/-- The mode of the hack: drm_cvt_mode for 1366x768 at 60 Hz runs. -/
theorem runs_hdtvMode (hrate : s.rate = 60) (hsize : s.hsize = 1366) :
    Runs (s.hdtvMode mem) fun mode => ∀ m ∈ mode, s.Right m := by
  have hrange : StdRange 1360 768 60 := by constructor <;> decide
  have hcvt : ({ s with hsize := 1366, vsize := 768 } : StdSize) = ⟨1366, 768, 60⟩ := by
    rw [← hrate]
  obtain ⟨m, hm, -, hclock, hhtotal, hvtotal⟩ := @drmCvtMode_std ⟨1366, 768, 60⟩ 1360 hrange
    (by decide) (by decide) (by decide)
  have hrun := (@runs_cvtMode ⟨1366, 768, 60⟩ 1360 hrange (by decide) (by decide)
    (fun mode => mode = m)).mpr ⟨by decide, m, hm, rfl⟩
  unfold StdSize.hdtvMode
  rw [hcvt]
  refine runs_allocated.mpr ⟨fun _ => ?_, fun _ m hm => by cases hm⟩
  rw [runs_bind]
  refine hrun.mono ?_
  rintro _ rfl
  rw [runs_pure]
  rintro _ ⟨⟩
  exact ⟨hsize.symm, hclock, hhtotal, hvtotal⟩

/-- A mode that is found is returned. -/
theorem runs_found {found : Option Mode} {rest : Checked (Option Mode)}
    (hfound : ∀ m ∈ found, s.Right m) :
    Runs (if found.isSome then pure found else rest) (fun mode => ∀ m ∈ mode, s.Right m) ↔
      (found = none → Runs rest fun mode => ∀ m ∈ mode, s.Right m) := by
  cases found with
  | none => simp
  | some m =>
    simp only [Option.isSome_some, if_true, runs_pure, reduceCtorEq, false_imp_iff, iff_true]
    exact hfound

/-- The part of drm_mode_std that looks the size up in the table. -/
theorem lookup_iff (hs : StdRange s.hsize s.vsize s.rate) :
    Runs (do
        let rb ← s.findRb raw mem.rbCopy
        if rb.isSome then pure rb
        else do
          let dmt ← s.findDmt false mem.copy
          if dmt.isSome then pure dmt else s.generate raw mem)
        (fun mode => ∀ m ∈ mode, s.Right m) ↔
      ((drmMonitorSupportsRb raw = true → mem.rbCopy = true → s.dmtMode true = none) →
        (mem.copy = true → s.dmtMode false = none) → mem.mode = true →
          GeneratorFits raw s mem) := by
  have hright : ∀ (c rb : Bool), ∀ m ∈ (if c then s.dmtMode rb else none), s.Right m := by
    intro c rb m hm
    cases c with
    | false => cases hm
    | true => exact dmtMode_right hm
  have hnone : ∀ (c rb : Bool), (if c then s.dmtMode rb else none) = none ↔
      (c = true → s.dmtMode rb = none) := by
    intro c rb
    cases c <;> simp
  have hrb : ∀ Q, Runs (s.findRb raw mem.rbCopy) Q ↔
      Q (if drmMonitorSupportsRb raw && mem.rbCopy then s.dmtMode true else none) := by
    intro Q
    unfold StdSize.findRb
    cases drmMonitorSupportsRb raw with
    | false => simp
    | true => exact runs_findDmt
  rw [runs_bind, hrb, runs_found (hright _ _), hnone, runs_bind, runs_findDmt,
    runs_found (hright _ _), hnone, generate_iff hs, Bool.and_eq_true, and_imp]

end

/-- drm_mode_std is right exactly where what has to be generated fits. -/
theorem stdRight_iff (raw : ℕ → UInt8) (t : StdTiming) (revision : ℤ)
    (probedModes : List IntMode) (mem : StdMemory) :
    StdRight raw t revision probedModes mem ↔ StdFits raw t revision probedModes mem := by
  unfold StdRight StdFits drmModeStd
  by_cases hbad : badStdTiming t.hsize t.vfreqAspect = true
  · rw [if_pos hbad, runs_pure]
    refine iff_of_true (fun m hm => by cases hm) fun h => ?_
    exact absurd hbad (by rw [h.used]; decide)
  rw [if_neg hbad]
  have hrange := (t.decode revision).hdtv_eq
  have hdecode := t.decode_range revision
  generalize (t.decode revision).hdtv = s at hrange
  have hprobed : ∀ m ∈ probedModes.map Subtype.val, ∀ R : Bool → Prop,
      Runs (s.sameMode m) R ↔ R (decide (s.Is m)) := by
    intro m hm R
    obtain ⟨probed, -, rfl⟩ := List.mem_map.mp hm
    exact runs_sameMode probed.2
  rw [runs_bind, runs_find hprobed]
  by_cases hknown : ∃ m ∈ probedModes, s.Is m.1
  · -- the connector has a mode of this size and rate: NULL
    obtain ⟨m, hm, his⟩ := hknown
    have hsome : ((probedModes.map Subtype.val).find? fun m => decide (s.Is m)).isSome = true :=
      List.find?_isSome.mpr ⟨m.1, List.mem_map_of_mem hm, decide_eq_true his⟩
    rw [if_pos hsome, runs_pure]
    exact iff_of_true (fun m hm => by cases hm) fun h => absurd his (h.unknown m hm)
  have hunknown : ∀ m ∈ probedModes, ¬s.Is m.1 := fun m hm his => hknown ⟨m, hm, his⟩
  have hnone : ((probedModes.map Subtype.val).find? fun m => decide (s.Is m)) = none := by
    apply List.find?_eq_none.mpr
    intro m hm
    obtain ⟨probed, hprobed, rfl⟩ := List.mem_map.mp hm
    simpa using hunknown probed hprobed
  rw [hnone, Option.isSome_none, if_neg Bool.false_ne_true]
  by_cases hhack : s.hsize = 1366 ∧ s.vsize = 768 ∧ s.rate = 60
  · rw [if_pos hhack]
    exact iff_of_true (runs_hdtvMode hhack.2.2 hhack.1) fun h => absurd hhack h.plain
  · -- past the hack the size is the decoded one, so it is in range for the generators
    rcases hrange with rfl | hrange
    · rw [if_neg hhack, lookup_iff hdecode]
      constructor
      · intro h hgen
        exact h hgen.noRb hgen.noDmt hgen.memory
      · intro h hrb hdmt hmem
        exact h ⟨Bool.eq_false_iff.mpr hbad, hunknown, hhack, hrb, hdmt, hmem⟩
    · exact absurd hrange hhack

/-- 256x144 at 60 Hz by GTF: 30000 less 33348 is taken for the duty cycle. -/
theorem stdRight_fails : ¬∀ (raw : ℕ → UInt8) (t : StdTiming) (revision : ℤ)
    (probedModes : List IntMode) (mem : StdMemory), StdRight raw t revision probedModes mem := by
  intro h
  have hright := h (fun k => if k = 0x13 then 3 else 0) ⟨0x01, 0xc0⟩ 3 [] ⟨true, true, true, true⟩
  have hduty := hright.1 (-3348) (by decide +kernel)
  exact absurd hduty (by decide)

end GfxDrm.Edid
