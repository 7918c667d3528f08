import GfxDrm.Display.PipeConfig
import GfxDrm.Lib.Run

/-! The FDI lanes of a configuration, and the passes that look for it. -/

namespace GfxDrm.Fdi
open CInt Modes Display

/-- The rates at a clock are below 2^32 whatever the depth. -/
def ClockFits (clock : ℤ) : Prop := 0 ≤ clock ∧ clock ≤ 3600000

/-- What pipe_bpp may be. -/
structure Depth (bpp : ℤ) : Prop where
  low : 18 ≤ bpp
  high : bpp ≤ 36
  dvd : 6 ∣ bpp

/-- The lanes carry every pixel and 5% more. -/
def PipeConfig.Carries (cfg : PipeConfig) : Prop :=
  cfg.fdiDotclock * cfg.pipeBpp * 21 < 20 * (cfg.fdiLanes * (linkBw * 8))

theorem linkBw_eq : linkBw = 270000 := by decide

section Lanes
variable {clock bpp bpp' : ℤ}

theorem rate_bounds (hc : ClockFits clock) (hb : Depth bpp) :
    0 ≤ clock * bpp ∧ clock * bpp ≤ 129600000 := by
  have hmul : clock * bpp ≤ 3600000 * 36 := Int.mul_le_mul hc.2 hb.high (by have := hb.low; omega)
    (by decide)
  exact ⟨Int.mul_nonneg hc.1 (by have := hb.low; omega), by omega⟩

/-- The lanes that are asked for, and the rate of more than an int that is never given as many as
four. -/
theorem lanesRequired_cases (hc : ClockFits clock) (hb : Depth bpp) :
    (clock * bpp * 21 < 0x80000000 ∧
      ironlakeGetLanesRequired clock linkBw bpp = clock * bpp * 21 / 20 / 2160000 + 1) ∨
    (0x80000000 ≤ clock * bpp * 21 ∧ 4 < ironlakeGetLanesRequired clock linkBw bpp) := by
  obtain ⟨h0, h1⟩ := rate_bounds hc hb
  obtain ⟨rate, hrate⟩ : ∃ rate, rate = clock * bpp := ⟨_, rfl⟩
  have hdivisor : u32 (i32 (linkBw * 8)) = 2160000 := by decide
  rw [ironlakeGetLanesRequired, hdivisor, ← hrate]
  rw [i32_of_range (x := rate) (by omega) (by omega)]
  by_cases hwrap : rate * 21 < 0x80000000
  · left
    have hbits : u32 (rate * 21 / 20) = rate * 21 / 20 := u32_of_range (by omega) (by omega)
    refine ⟨hwrap, ?_⟩
    rw [i32_of_range (x := rate * 21) (by omega) hwrap, Int.tdiv_eq_ediv_of_nonneg (by omega),
      hbits, u32_of_range (by omega) (by omega), i32_of_range (by omega) (by omega)]
  · right
    refine ⟨not_lt.mp hwrap, ?_⟩
    -- The product is negative as an int, and a huge number of bits once it is unsigned.
    have hneg : i32 (rate * 21) = rate * 21 - 0x100000000 := by
      unfold i32
      omega
    have hdiv : (rate * 21 - 0x100000000).tdiv 20 = -((0x100000000 - rate * 21) / 20) := by
      rw [show rate * 21 - 0x100000000 = -(0x100000000 - rate * 21) by omega, Int.neg_tdiv,
        Int.tdiv_eq_ediv_of_nonneg (by omega)]
    have hbits : u32 (-((0x100000000 - rate * 21) / 20)) =
        0x100000000 - (0x100000000 - rate * 21) / 20 := by
      unfold u32
      omega
    rw [hneg, hdiv, u32_of_range (by omega) (by omega), i32_of_range (by omega) (by omega)]
    omega

theorem carries_of_le (hc : ClockFits clock) (hb : Depth bpp)
    (h : ironlakeGetLanesRequired clock linkBw bpp ≤ 4) :
    clock * bpp * 21 < 20 * (ironlakeGetLanesRequired clock linkBw bpp * (linkBw * 8)) := by
  obtain ⟨-, heq⟩ | ⟨-, hlt⟩ := lanesRequired_cases hc hb
  · rw [heq, linkBw_eq]
    omega
  · omega

/-- A lower depth needs no more lanes. -/
theorem lanesRequired_mono (hc : ClockFits clock) (hb : Depth bpp) (hb' : Depth bpp')
    (hle : bpp' ≤ bpp) (h : ironlakeGetLanesRequired clock linkBw bpp ≤ 4) :
    ironlakeGetLanesRequired clock linkBw bpp' ≤ ironlakeGetLanesRequired clock linkBw bpp := by
  have hmul : clock * bpp' ≤ clock * bpp := Int.mul_le_mul_of_nonneg_left hle hc.1
  obtain ⟨hlt, heq⟩ | ⟨-, hlt⟩ := lanesRequired_cases hc hb
  · obtain ⟨-, heq'⟩ | ⟨hge, -⟩ := lanesRequired_cases hc hb'
    · omega
    · omega
  · omega

end Lanes

section Check
variable {dev : Device} {crtc : Pipe → Crtc} {pipe : Pipe} {lanes lanes' : ℤ}

theorem check_le_four (h : ironlakeCheckFdiLanes dev crtc pipe lanes = true) : lanes ≤ 4 := by
  by_contra hlt
  unfold ironlakeCheckFdiLanes at h
  rw [if_pos (not_le.mp hlt)] at h
  exact Bool.false_ne_true h

/-- Fewer lanes pass where more do. -/
theorem check_mono (hle : lanes' ≤ lanes) (h : ironlakeCheckFdiLanes dev crtc pipe lanes = true) :
    ironlakeCheckFdiLanes dev crtc pipe lanes' = true := by
  have hfour := check_le_four h
  have hfew : (!decide (2 < lanes)) = true → (!decide (2 < lanes')) = true := by
    simp only [Bool.not_eq_true', decide_eq_false_iff_not, not_lt]
    exact hle.trans
  unfold ironlakeCheckFdiLanes at h ⊢
  rw [if_neg (by omega)] at h ⊢
  split
  · rename_i hhaswell
    rw [if_pos hhaswell] at h
    exact hfew h
  · rename_i hhaswell
    rw [if_neg hhaswell] at h
    split
    · rfl
    · rename_i hpipes
      rw [if_neg hpipes] at h
      cases pipe with
      | a => rfl
      | b =>
        cases hc : (crtc .c).enabled with
        | false => simp only [Bool.false_and, Bool.not_false]
        | true =>
          simp only [hc] at h ⊢
          exact hfew h
      | c =>
        dsimp only at h ⊢
        split
        · rename_i hb
          rw [if_pos hb] at h
          exact hfew h
        · rename_i hb
          rw [if_neg hb] at h
          exact h

/-- Pipe B has at most two lanes while pipe C is on. -/
theorem check_b (h : ironlakeCheckFdiLanes ivybridge crtc .b lanes = true)
    (hc : (crtc .c).enabled = true) : lanes ≤ 2 := by
  have hfour := check_le_four h
  unfold ironlakeCheckFdiLanes at h
  rw [if_neg (by omega), if_neg (by decide), if_neg (by decide)] at h
  simp only [hc, Bool.true_and, Bool.not_eq_true', decide_eq_false_iff_not, not_lt] at h
  exact h

/-- Pipe C has at most two lanes, and so has pipe B if it uses the PCH. -/
theorem check_c (h : ironlakeCheckFdiLanes ivybridge crtc .c lanes = true) :
    lanes ≤ 2 ∧ ((crtc .b).hasEnabledPch = true → (crtc .b).config.fdiLanes ≤ 2) := by
  have hfour := check_le_four h
  unfold ironlakeCheckFdiLanes at h
  rw [if_neg (by omega), if_neg (by decide), if_neg (by decide)] at h
  dsimp only at h
  split at h
  · rename_i hb
    simp only [Bool.not_eq_true', decide_eq_false_iff_not, not_lt] at h
    refine ⟨h, fun hpch => ?_⟩
    simp only [hpch, Bool.not_true, Bool.false_or, decide_eq_true_eq] at hb
    exact hb
  · exact absurd h Bool.false_ne_true

end Check

/-! ### The rounds -/

section Rounds
variable {dev : Device} {crtc : Pipe → Crtc} {pipe : Pipe} {cfg cfg' : PipeConfig}

/-- The depth is one that it may be, and so are those before it. -/
structure Deep (cfg : PipeConfig) : Prop where
  depth : Depth cfg.pipeBpp
  bpps : ∀ bpp ∈ cfg.bpps, Depth bpp

/-- What the rounds leave alone. -/
structure SameMode (cfg cfg' : PipeConfig) : Prop where
  requestedMode : cfg'.requestedMode = cfg.requestedMode
  adjustedMode : cfg'.adjustedMode = cfg.adjustedMode
  pixelMultiplier : cfg'.pixelMultiplier = cfg.pixelMultiplier
  hasPchEncoder : cfg'.hasPchEncoder = cfg.hasPchEncoder

/-- What the rounds leave. -/
structure Rounds (dev : Device) (crtc : Pipe → Crtc) (pipe : Pipe) (needsRecompute : Bool)
    (cfg : PipeConfig) (result : ComputeResult) (cfg' : PipeConfig) : Prop where
  same : SameMode cfg cfg'
  deep : Deep cfg'
  le : cfg'.pipeBpp ≤ cfg.pipeBpp
  lanes : cfg'.fdiLanes = ironlakeGetLanesRequired cfg.fdiDotclock linkBw cfg'.pipeBpp
  done : result = .done → ironlakeCheckFdiLanes dev crtc pipe cfg'.fdiLanes = true
  retry : result = .retry → cfg'.bwConstrained = true ∧
    (ironlakeCheckFdiLanes dev crtc pipe cfg'.fdiLanes = true ∨ cfg'.pipeBpp ≤ 18)

theorem Deep.of_eq (h : Deep cfg) (hbpp : cfg'.pipeBpp = cfg.pipeBpp)
    (hbpps : cfg'.bpps = cfg.bpps) : Deep cfg' := by
  constructor
  · rw [hbpp]
    exact h.depth
  · rw [hbpps]
    exact h.bpps

theorem Deep.setBpp (h : Deep cfg) {bpp : ℤ} (hbpp : Depth bpp) : Deep (cfg.setBpp bpp) := by
  refine ⟨hbpp, fun b hb => ?_⟩
  rcases List.mem_cons.mp hb with rfl | hb
  · exact hbpp
  · exact h.bpps b hb

theorem Depth.sub_six {bpp : ℤ} (h : Depth bpp) (hlt : 18 < bpp) : Depth (bpp - 6) := by
  obtain ⟨hlow, hhigh, hdvd⟩ := h
  constructor <;> omega

/-- The lanes of a round, whose depth, mode and constraint stay what they are. -/
theorem computeLanes_rounds (hdeep : Deep cfg) {needsRecompute : Bool} {result : ComputeResult}
    (hdone : result = .done →
      ironlakeCheckFdiLanes dev crtc pipe cfg.computeLanes.fdiLanes = true)
    (hretry : result = .retry → cfg.bwConstrained = true ∧
      (ironlakeCheckFdiLanes dev crtc pipe cfg.computeLanes.fdiLanes = true ∨
        cfg.pipeBpp ≤ 18)) :
    Rounds dev crtc pipe needsRecompute cfg result cfg.computeLanes :=
  ⟨⟨rfl, rfl, rfl, rfl⟩, ⟨hdeep.depth, hdeep.bpps⟩, le_rfl, rfl, hdone, hretry⟩

/-- The rounds end, as each of them but the last takes 6 bits away. -/
theorem fdiRounds_spec {fuel : ℕ} {needsRecompute : Bool} (hdeep : Deep cfg)
    (hfuel : cfg.pipeBpp < fuel + 18) (hneeds : needsRecompute = true → cfg.bwConstrained = true)
    (h0 : 0 < fuel) :
    ∃ result cfg', fdiRounds dev crtc pipe fuel needsRecompute cfg = some (result, cfg') ∧
      Rounds dev crtc pipe needsRecompute cfg result cfg' := by
  induction fuel generalizing needsRecompute cfg with
  | zero => exact absurd h0 (lt_irrefl 0)
  | succ fuel ih =>
    unfold fdiRounds
    by_cases hagain : (!ironlakeCheckFdiLanes dev crtc pipe cfg.computeLanes.fdiLanes) = true ∧
        18 < cfg.computeLanes.pipeBpp
    · rw [if_pos hagain]
      have hlt : 18 < cfg.pipeBpp := hagain.2
      have hdepth := hdeep.depth.sub_six hlt
      have hnext : Deep { cfg.computeLanes.setBpp (cfg.computeLanes.pipeBpp - 6) with
          bwConstrained := true } :=
        (hdeep.setBpp hdepth).of_eq rfl rfl
      obtain ⟨result, cfg', heq, hrounds⟩ := ih hnext (by change cfg.pipeBpp - 6 < _; omega)
        (fun _ : true = true => rfl) (by omega)
      have hle : cfg'.pipeBpp ≤ cfg.pipeBpp - 6 := hrounds.le
      exact ⟨result, cfg', heq, ⟨hrounds.same.1, hrounds.same.2, hrounds.same.3, hrounds.same.4⟩,
        hrounds.deep, by omega, hrounds.lanes, hrounds.done, hrounds.retry⟩
    · rw [if_neg hagain]
      refine ⟨_, _, rfl, computeLanes_rounds hdeep ?_ ?_⟩
      · intro hdone
        split at hdone
        · cases hdone
        · split at hdone
          · assumption
          · cases hdone
      · intro hretry
        split at hretry
        · rename_i hrecompute
          refine ⟨hneeds hrecompute, ?_⟩
          by_contra hnot
          obtain ⟨hcheck, hhigh⟩ := not_or.mp hnot
          exact hagain ⟨(Bool.not_eq_true' _).mpr (Bool.eq_false_of_not_eq_true hcheck),
            not_le.mp hhigh⟩
        · split at hretry <;> cases hretry

theorem fdiCompute_spec (dev : Device) (crtc : Pipe → Crtc) (pipe : Pipe) (hdeep : Deep cfg) :
    ∃ result cfg', ironlakeFdiComputeConfig dev crtc pipe cfg = some (result, cfg') ∧
      Rounds dev crtc pipe false cfg result cfg' :=
  fdiRounds_spec hdeep (by omega) Bool.false_ne_true.elim (Nat.succ_pos _)

/-- A configuration that passes at once, or that has no bits to give, is not asked for again. -/
theorem fdiCompute_once (h : ironlakeCheckFdiLanes dev crtc pipe cfg.computeLanes.fdiLanes = true ∨
    cfg.pipeBpp ≤ 18) : ironlakeFdiComputeConfig dev crtc pipe cfg =
      some (if ironlakeCheckFdiLanes dev crtc pipe cfg.computeLanes.fdiLanes then .done
        else .failed, cfg.computeLanes) := by
  have hbpp : cfg.computeLanes.pipeBpp = cfg.pipeBpp := rfl
  unfold ironlakeFdiComputeConfig fdiRounds
  rw [if_neg ?_]
  · rfl
  · rintro ⟨hcheck, hlt⟩
    rcases h with h | h
    · rw [h] at hcheck
      exact Bool.false_ne_true hcheck
    · omega

end Rounds

/-! ### The encoders -/

section Encoders
variable {dev : Device} {cfg cfg' : PipeConfig} {f g : ℤ → ℤ}

/-- What an encoder that accepts a configuration leaves, where it makes `f` of the clock. -/
structure Kept (f : ℤ → ℤ) (cfg cfg' : PipeConfig) : Prop where
  requestedMode : cfg'.requestedMode = cfg.requestedMode
  clock : cfg'.adjustedMode.clock = f cfg.adjustedMode.clock
  pixelMultiplier : cfg'.pixelMultiplier = cfg.pixelMultiplier
  bwConstrained : cfg'.bwConstrained = cfg.bwConstrained
  le : cfg.bwConstrained = true → cfg'.pipeBpp ≤ cfg.pipeBpp

/-- The clock is left alone, or it is that of a panel. -/
def Settles (f : ℤ → ℤ) : Prop :=
  (∀ clock, f clock = clock) ∨ ∃ k, 0 ≤ k ∧ k ≤ 655350 ∧ ∀ clock, f clock = k

theorem Settles.comp (hg : Settles g) (hf : Settles f) : Settles (g ∘ f) := by
  rcases hg with hg | ⟨k, h0, hk, hg⟩
  · rcases hf with hf | ⟨k, h0, hk, hf⟩
    · exact .inl fun clock => (hg _).trans (hf clock)
    · exact .inr ⟨k, h0, hk, fun clock => (hg _).trans (hf clock)⟩
  · exact .inr ⟨k, h0, hk, fun clock => hg _⟩

/-- A second time changes nothing. -/
theorem Settles.idem (h : Settles f) (clock : ℤ) : f (f clock) = f clock := by
  rcases h with h | ⟨k, -, -, h⟩
  · rw [h]
  · rw [h, h]

theorem Settles.fits (h : Settles f) {clock : ℤ} (hc : ClockFits clock) : ClockFits (f clock) := by
  rcases h with h | ⟨k, h0, hk, h⟩
  · rw [h]
    exact hc
  · rw [h]
    exact ⟨h0, by omega⟩

theorem Kept.trans {cfg'' : PipeConfig} (h : Kept f cfg cfg') (h' : Kept g cfg' cfg'') :
    Kept (g ∘ f) cfg cfg'' := by
  refine ⟨h'.requestedMode.trans h.requestedMode, ?_, h'.pixelMultiplier.trans h.pixelMultiplier,
    h'.bwConstrained.trans h.bwConstrained, fun hc => ?_⟩
  · rw [h'.clock, h.clock]
    rfl
  · exact (h'.le (h.bwConstrained.trans hc)).trans (h.le hc)

/-- The encoders whatever the configuration: they only go to depths that may be, and what they
accept has its clock settled. -/
structure Meek (f : ℤ → ℤ) (run : PipeConfig → Bool × PipeConfig) : Prop where
  deep : ∀ cfg, Deep cfg → Deep (run cfg).2
  kept : ∀ cfg, Deep cfg → (run cfg).1 = true → Kept f cfg (run cfg).2

/-- A depth that is forced only where there is no constraint. -/
theorem force_bpp {c : Prop} [Decidable c] {bpp : ℤ} (hdepth : Depth bpp)
    (hfree : c → cfg.bwConstrained = false) (hdeep : Deep cfg) :
    Deep (if c then cfg.setBpp bpp else cfg) ∧ Kept id cfg (if c then cfg.setBpp bpp else cfg) := by
  split
  · rename_i hc
    refine ⟨hdeep.setBpp hdepth, rfl, rfl, rfl, rfl, fun hconstrained => ?_⟩
    rw [hfree hc] at hconstrained
    cases hconstrained
  · exact ⟨hdeep, rfl, rfl, rfl, rfl, fun _ => le_rfl⟩

theorem meek_crt : Meek id intelCrtComputeConfig :=
  ⟨fun _ h => h.of_eq rfl rfl, fun _ _ _ => ⟨rfl, rfl, rfl, rfl, fun _ => le_rfl⟩⟩

theorem meek_lvds (a3PowerUp : Bool) (panel : PanelMode) :
    Meek (fun _ => panel.mode.clock) (intelLvdsComputeConfig a3PowerUp panel) := by
  have hdepth : Depth (if a3PowerUp then 24 else 18) := by
    split <;> constructor <;> decide
  have hforce (cfg : PipeConfig) (hdeep : Deep cfg) :=
    force_bpp (c := (if a3PowerUp then (24 : ℤ) else 18) ≠ cfg.pipeBpp ∧ !cfg.bwConstrained) hdepth
      (fun h => (Bool.not_eq_true' _).mp h.2) hdeep
  constructor
  · intro cfg hdeep
    exact (hforce cfg hdeep).1.of_eq rfl rfl
  · intro cfg hdeep _
    exact (hforce cfg hdeep).2.trans (g := fun _ => panel.mode.clock)
      ⟨rfl, rfl, rfl, rfl, fun _ => le_rfl⟩

theorem meek_hdmi (dev : Device) : Meek id (intelHdmiComputeConfig dev) := by
  have hport (cfg : PipeConfig) (c : Prop) [Decidable c] (portClock : ℤ) :
      Kept id cfg (if c then { cfg with hasPchEncoder := true, portClock }
        else { cfg with hasPchEncoder := true }) := by
    split <;> exact ⟨rfl, rfl, rfl, rfl, fun _ => le_rfl⟩
  have hdeep' (cfg : PipeConfig) (h : Deep cfg) (c : Prop) [Decidable c] (portClock : ℤ) :
      Deep (if c then { cfg with hasPchEncoder := true, portClock }
        else { cfg with hasPchEncoder := true }) := by
    split <;> exact h.of_eq rfl rfl
  have hdepth (c : Prop) [Decidable c] : Depth (if c then 36 else 24) := by
    split <;> constructor <;> decide
  constructor
  · intro cfg hdeep
    exact (force_bpp (hdepth _) (fun h => (Bool.not_eq_true' _).mp h) (hdeep' cfg hdeep _ _)).1
  · intro cfg hdeep _
    exact (hport cfg _ _).trans
      (force_bpp (hdepth _) (fun h => (Bool.not_eq_true' _).mp h) (hdeep' cfg hdeep _ _)).2

theorem panelMode_fits (sink : DpSink) {fixed : Mode} (h : sink.dp.panelMode = some fixed) :
    0 ≤ fixed.clock ∧ fixed.clock ≤ 655350 := by
  unfold Dp.IntelDp.panelMode at h
  split at h
  · exact sink.panel fixed h
  · cases h

/-- The depth of a DisplayPort link. -/
theorem depth_link (sink : DpSink) {mode : Mode} {bpp : ℤ} (hbpp : Depth bpp) {link : Dp.Link}
    (h : sink.dp.intelDpComputeConfig mode bpp = some link) : Depth link.bpp ∧ link.bpp ≤ bpp := by
  obtain ⟨hlow, hhigh, hdvd⟩ := hbpp
  have hedp := sink.edpBpp
  have hmem := (Dp.IntelDp.mem_links.mp (Dp.computeConfig_first h).2.mem).1
  obtain ⟨h18, hle, hsix⟩ := Dp.IntelDp.mem_bpps.mp hmem
  unfold Dp.IntelDp.bppLimit at hle hsix
  split at hle
  · rename_i hlimit
    refine ⟨⟨h18, by omega, by omega⟩, by omega⟩
  · rename_i hlimit
    refine ⟨⟨h18, by omega, by omega⟩, hle⟩

def DpSink.clock (sink : DpSink) (clock : ℤ) : ℤ := (sink.dp.panelMode.map (·.clock)).getD clock

theorem adjustedMode_clock (sink : DpSink) (mode : Mode) :
    (sink.dp.adjustedMode mode).clock = sink.clock mode.clock := by
  rw [Dp.adjustedMode_clock, Dp.IntelDp.targetClock, DpSink.clock]
  cases sink.dp.panelMode <;> rfl

theorem meek_dp (portA : Bool) (sink : DpSink) :
    Meek sink.clock (intelDpComputeConfig portA sink) := by
  constructor
  · intro cfg hdeep
    unfold intelDpComputeConfig
    dsimp only
    split
    · exact hdeep.of_eq rfl rfl
    · rename_i link hlink
      have hset := hdeep.setBpp (depth_link sink hdeep.depth hlink).1
      exact hset.of_eq rfl rfl
  · intro cfg hdeep hok
    unfold intelDpComputeConfig at hok ⊢
    dsimp only at hok ⊢
    split at hok
    · cases hok
    · rename_i link hlink
      exact ⟨rfl, adjustedMode_clock sink _, rfl, rfl, fun _ =>
        (depth_link sink hdeep.depth hlink).2⟩

/-- An encoder that is not SDVO. -/
theorem Encoder.meek (dev : Device) (encoder : Encoder) (h : ∀ answer, encoder ≠ .sdvo answer) :
    ∃ f, Settles f ∧ ∀ retry, Meek f (encoder.computeConfig dev retry) := by
  cases encoder with
  | crt => exact ⟨id, .inl fun _ => rfl, fun _ => meek_crt⟩
  | lvds a3PowerUp panel =>
    exact ⟨_, .inr ⟨panel.mode.clock, panel.clock.1, panel.clock.2, fun _ => rfl⟩, fun _ =>
      meek_lvds a3PowerUp panel⟩
  | hdmi => exact ⟨id, .inl fun _ => rfl, fun _ => meek_hdmi dev⟩
  | dp portA sink =>
    refine ⟨sink.clock, ?_, fun _ => meek_dp portA sink⟩
    cases hpanel : sink.dp.panelMode with
    | none => exact .inl fun clock => by rw [DpSink.clock, hpanel]; rfl
    | some fixed =>
      have hfits := panelMode_fits sink hpanel
      exact .inr ⟨fixed.clock, hfits.1, hfits.2, fun clock => by rw [DpSink.clock, hpanel]; rfl⟩
  | sdvo answer => exact absurd rfl (h answer)

/-- The encoders of a crtc, of which none is SDVO. -/
theorem computeConfigs_meek (dev : Device) (encoders : List Encoder)
    (h : ∀ answer, Encoder.sdvo answer ∉ encoders) :
    ∃ f, Settles f ∧ ∀ retry, Meek f (computeConfigs dev retry encoders) := by
  induction encoders with
  | nil =>
    exact ⟨id, .inl fun _ => rfl, fun _ =>
      ⟨fun _ hdeep => hdeep, fun _ _ _ => ⟨rfl, rfl, rfl, rfl, fun _ => le_rfl⟩⟩⟩
  | cons encoder encoders ih =>
    obtain ⟨f, hf, hfirst⟩ := encoder.meek dev fun answer heq =>
      h answer (heq ▸ List.mem_cons_self)
    obtain ⟨g, hg, hrest⟩ := ih fun answer hmem => h answer (List.mem_cons_of_mem _ hmem)
    refine ⟨g ∘ f, hg.comp hf, fun retry => ⟨fun cfg hdeep => ?_, fun cfg hdeep hok => ?_⟩⟩
    · have hdeep' := (hfirst retry).deep cfg hdeep
      unfold computeConfigs
      split
      · rename_i hrun
        rw [hrun] at hdeep'
        exact hdeep'
      · rename_i hrun
        rw [hrun] at hdeep'
        exact (hrest retry).deep _ hdeep'
    · have hdeep' := (hfirst retry).deep cfg hdeep
      unfold computeConfigs at hok ⊢
      split at hok
      · cases hok
      · rename_i cfg' hrun
        have hkept := (hfirst retry).kept cfg hdeep
        rw [hrun] at hdeep' hkept
        exact (hkept rfl).trans ((hrest retry).kept cfg' hdeep' hok)

end Encoders

/-! ### The passes -/

section Passes
variable {dev : Device} {crtc : Pipe → Crtc} {pipe : Pipe} {encoders : List Encoder}
  {cfg cfg' : PipeConfig} {f : ℤ → ℤ}

/-- A mode's clock is not negative, and three times as much is an int. -/
def ClockInt (clock : ℤ) : Prop := 0 ≤ clock ∧ clock * 3 < 0x80000000

/-- What is found by intel_crtc_compute_config for a crtc that uses the PCH is right. -/
structure LanesRight (dev : Device) (crtc : Pipe → Crtc) (pipe : Pipe) (cfg : PipeConfig) :
    Prop where
  check : ironlakeCheckFdiLanes dev crtc pipe cfg.fdiLanes = true
  carries : cfg.Carries

/-- Another pass at this depth would not ask for a third. -/
def Ready (dev : Device) (crtc : Pipe → Crtc) (pipe : Pipe) (clock bpp : ℤ) : Prop :=
  ironlakeCheckFdiLanes dev crtc pipe (ironlakeGetLanesRequired clock linkBw bpp) = true ∨ bpp ≤ 18

/-- What intel_crtc_compute_config leaves. -/
structure Computed (dev : Device) (crtc : Pipe → Crtc) (pipe : Pipe) (cfg : PipeConfig)
    (result : ComputeResult) (cfg' : PipeConfig) : Prop where
  same : SameMode cfg cfg'
  deep : Deep cfg'
  done : result = .done → cfg'.hasPchEncoder = true → LanesRight dev crtc pipe cfg'
  retry : result = .retry → cfg'.bwConstrained = true ∧
    Ready dev crtc pipe cfg.fdiDotclock cfg'.pipeBpp

theorem Ready.le {clock bpp bpp' : ℤ} (h : Ready dev crtc pipe clock bpp) (hc : ClockFits clock)
    (hb : Depth bpp) (hb' : Depth bpp') (hle : bpp' ≤ bpp) : Ready dev crtc pipe clock bpp' := by
  rcases h with hcheck | hlow
  · exact .inl (check_mono (lanesRequired_mono hc hb hb' hle (check_le_four hcheck)) hcheck)
  · exact .inr (hle.trans hlow)

theorem computed_failed (hdeep : Deep cfg) : Computed dev crtc pipe cfg .failed cfg := by
  refine ⟨⟨rfl, rfl, rfl, rfl⟩, hdeep, ?_, ?_⟩
  · intro h
    cases h
  · intro h
    cases h

theorem Rounds.computed {result : ComputeResult}
    (h : Rounds dev crtc pipe false cfg result cfg') (hdot : ClockFits cfg.fdiDotclock) :
    Computed dev crtc pipe cfg result cfg' := by
  have hdotclock : cfg'.fdiDotclock = cfg.fdiDotclock := by
    rw [PipeConfig.fdiDotclock, h.same.adjustedMode, h.same.pixelMultiplier]
    rfl
  refine ⟨h.same, h.deep, fun hdone _ => ?_, fun hretry => ?_⟩
  · have hcheck := h.done hdone
    refine ⟨hcheck, ?_⟩
    have hfour := check_le_four hcheck
    rw [h.lanes] at hfour
    rw [PipeConfig.Carries, hdotclock, h.lanes]
    exact carries_of_le hdot h.deep.depth hfour
  · obtain ⟨hconstrained, hready⟩ := h.retry hretry
    rw [h.lanes] at hready
    exact ⟨hconstrained, hready⟩

theorem crtcCompute_spec (dev : Device) (crtc : Pipe → Crtc) (pipe : Pipe) (hdeep : Deep cfg)
    (hclock : ClockInt cfg.requestedMode.clock)
    (hfits : ClockFits cfg.requestedMode.clock → ClockFits cfg.fdiDotclock) :
    ∃ result cfg', intelCrtcComputeConfig dev crtc pipe cfg = some (result, cfg') ∧
      Computed dev crtc pipe cfg result cfg' ∧
      (result ≠ .failed → ClockFits cfg.requestedMode.clock) ∧
      (Ready dev crtc pipe cfg.fdiDotclock cfg.pipeBpp → result ≠ .retry) := by
  have hlimit : i32 (cfg.requestedMode.clock * 3) = cfg.requestedMode.clock * 3 :=
    i32_of_range (by have := hclock.1; omega) hclock.2
  unfold intelCrtcComputeConfig
  rw [hlimit]
  by_cases hfast : ironlakeFdiFreq * 4 < cfg.requestedMode.clock * 3
  · rw [if_pos hfast]
    exact ⟨_, _, rfl, computed_failed hdeep, fun h => absurd rfl h, fun _ =>
      ComputeResult.noConfusion⟩
  rw [if_neg hfast]
  by_cases hsync : cfg.adjustedMode.hsyncStart = cfg.adjustedMode.hdisplay
  · rw [if_pos hsync]
    exact ⟨_, _, rfl, computed_failed hdeep, fun h => absurd rfl h, fun _ =>
      ComputeResult.noConfusion⟩
  rw [if_neg hsync]
  have hrequested : ClockFits cfg.requestedMode.clock := by
    refine ⟨hclock.1, ?_⟩
    unfold ironlakeFdiFreq at hfast
    omega
  by_cases hpch : cfg.hasPchEncoder = true
  · rw [if_pos hpch]
    obtain ⟨result, cfg', heq, hrounds⟩ := fdiCompute_spec dev crtc pipe hdeep
    refine ⟨result, cfg', heq, hrounds.computed (hfits hrequested), fun _ => hrequested, ?_⟩
    intro hready hretry
    rw [fdiCompute_once hready] at heq
    have hresult := congrArg Prod.fst (Option.some.inj heq)
    rw [hretry] at hresult
    split at hresult <;> cases hresult
  · rw [if_neg hpch]
    refine ⟨_, _, rfl, ⟨⟨rfl, rfl, rfl, rfl⟩, hdeep, fun _ h => absurd h hpch, ?_⟩,
      fun _ => hrequested, fun _ => ComputeResult.noConfusion⟩
    intro h
    cases h

/-- What a pass leaves of a configuration whose clock settles at `clock`. -/
structure Passed (dev : Device) (crtc : Pipe → Crtc) (pipe : Pipe) (clock : ℤ) (cfg : PipeConfig)
    (result : ComputeResult) (cfg' : PipeConfig) : Prop where
  deep : Deep cfg'
  done : result = .done → cfg'.hasPchEncoder = true → LanesRight dev crtc pipe cfg'
  fits : result = .retry → ClockFits cfg.requestedMode.clock
  same : result = .retry → cfg'.requestedMode = cfg.requestedMode ∧ cfg'.adjustedMode.clock = clock
  ready : result = .retry → cfg'.bwConstrained = true ∧ Ready dev crtc pipe clock cfg'.pipeBpp
  once : cfg.bwConstrained = true → ClockFits clock → Ready dev crtc pipe clock cfg.pipeBpp →
    result ≠ .retry

theorem passed_failed {clock : ℤ} (hdeep : Deep cfg') :
    Passed dev crtc pipe clock cfg .failed cfg' := by
  refine ⟨hdeep, ?_, ?_, ?_, ?_, ?_⟩
  · intro h
    cases h
  · intro h
    cases h
  · intro h
    cases h
  · intro h
    cases h
  · intro _ _ _ h
    cases h

/-- The default of the port clock changes nothing else. -/
theorem defaultPort_same (cfg : PipeConfig) : ∃ cfg',
    (if cfg.portClock = 0 then { cfg with portClock := cfg.adjustedMode.clock } else cfg) = cfg' ∧
      SameMode cfg cfg' ∧ cfg'.pipeBpp = cfg.pipeBpp ∧ cfg'.bpps = cfg.bpps := by
  refine ⟨_, rfl, ?_⟩
  split <;> exact ⟨⟨rfl, rfl, rfl, rfl⟩, rfl, rfl⟩

/-- One pass of encoders of which none is SDVO. -/
theorem encoderPass_spec (crtc : Pipe → Crtc) (pipe : Pipe) {retry : Bool}
    (hmeek : Meek f (computeConfigs dev retry encoders)) (hf : Settles f) (hdeep : Deep cfg)
    (hclock : ClockInt cfg.requestedMode.clock)
    (hsettled : f cfg.adjustedMode.clock = f cfg.requestedMode.clock) :
    ∃ result cfg', encoderPass dev crtc pipe encoders retry cfg = some (result, cfg') ∧
      Passed dev crtc pipe (f cfg.requestedMode.clock) cfg result cfg' := by
  have hstart : Deep { cfg with portClock := 0, pixelMultiplier := 1 } := hdeep.of_eq rfl rfl
  have hdeep' := hmeek.deep _ hstart
  have hkept := hmeek.kept _ hstart
  unfold encoderPass
  rcases hrun : computeConfigs dev retry encoders { cfg with portClock := 0, pixelMultiplier := 1 }
    with ⟨_ | _, cfg1⟩
  · rw [hrun] at hdeep'
    exact ⟨_, _, rfl, passed_failed hdeep'⟩
  · rw [hrun] at hdeep' hkept
    have hkept := hkept rfl
    dsimp only at hdeep' hkept ⊢
    obtain ⟨cfg2, hport, hsame, hbpp, hbpps⟩ := defaultPort_same cfg1
    have hrequested : cfg2.requestedMode = cfg.requestedMode :=
      hsame.requestedMode.trans hkept.requestedMode
    have hadjusted : cfg2.adjustedMode.clock = f cfg.requestedMode.clock := by
      rw [hsame.adjustedMode, hkept.clock]
      exact hsettled
    have hdot : cfg2.fdiDotclock = f cfg.requestedMode.clock := by
      rw [PipeConfig.fdiDotclock, hadjusted, hsame.pixelMultiplier, hkept.pixelMultiplier]
      exact Int.tdiv_one _
    rw [hport]
    obtain ⟨result, cfg', heq, hcomputed, hfits, honce⟩ := crtcCompute_spec dev crtc pipe
      (hdeep'.of_eq hbpp hbpps) (hrequested ▸ hclock) (fun h => by
        rw [hdot]
        rw [hrequested] at h
        exact hf.fits h)
    rw [hdot] at honce
    refine ⟨result, cfg', heq, hcomputed.deep, hcomputed.done, fun h => ?_, fun h => ?_,
      fun h => ?_, fun hc hfit hready => ?_⟩
    · rw [← hrequested]
      exact hfits (h ▸ ComputeResult.noConfusion)
    · exact ⟨hcomputed.same.requestedMode.trans hrequested,
        (congrArg Mode.clock hcomputed.same.adjustedMode).trans hadjusted⟩
    · have hretry := hcomputed.retry h
      rw [hdot] at hretry
      exact hretry
    · refine honce (hready.le hfit hdeep.depth ?_ ?_)
      · rw [hbpp]
        exact hdeep'.depth
      · rw [hbpp]
        exact hkept.le hc

/-- What is asked of a configuration and of the way to it. -/
structure Configured (dev : Device) (crtc : Pipe → Crtc) (pipe : Pipe) (result : PipeResult)
    (cfg : PipeConfig) : Prop where
  bpps : ∀ bpp ∈ cfg.bpps, 18 ≤ bpp
  noLoop : result ≠ .loop
  depth : result = .ok → 18 ≤ cfg.pipeBpp
  lanes : result = .ok → cfg.hasPchEncoder = true → LanesRight dev crtc pipe cfg

theorem configured_failed (hdeep : Deep cfg) : Configured dev crtc pipe .failed cfg :=
  ⟨fun bpp hbpp => (hdeep.bpps bpp hbpp).low, PipeResult.noConfusion, PipeResult.noConfusion,
    PipeResult.noConfusion⟩

theorem configured_ok {dither : Bool} (hdeep : Deep cfg)
    (hlanes : cfg.hasPchEncoder = true → LanesRight dev crtc pipe cfg) :
    Configured dev crtc pipe .ok { cfg with dither } :=
  ⟨fun bpp hbpp => (hdeep.bpps bpp hbpp).low, PipeResult.noConfusion, fun _ => hdeep.depth.low,
    fun _ hpch => ⟨(hlanes hpch).check, (hlanes hpch).carries⟩⟩

/-- Encoders of which none is SDVO do not ask for a third pass. -/
theorem encoderPasses_meek (crtc : Pipe → Crtc) (pipe : Pipe) (bpp : ℤ) (hf : Settles f)
    (hmeek : ∀ retry, Meek f (computeConfigs dev retry encoders)) (hdeep : Deep cfg)
    (hclock : ClockInt cfg.requestedMode.clock) (hmode : cfg.adjustedMode = cfg.requestedMode) :
    ∃ result cfg', encoderPasses dev crtc pipe encoders bpp cfg = some (result, cfg') ∧
      Configured dev crtc pipe result cfg' := by
  obtain ⟨result, cfg1, hfirst, hpassed⟩ := encoderPass_spec crtc pipe (hmeek true) hf hdeep hclock
    (by rw [hmode])
  unfold encoderPasses
  simp only [hfirst, Option.bind_eq_bind, Option.bind_some]
  cases result with
  | done => exact ⟨_, _, rfl, configured_ok hpassed.deep (hpassed.done rfl)⟩
  | failed => exact ⟨_, _, rfl, configured_failed hpassed.deep⟩
  | retry =>
    obtain ⟨hrequested, hadjusted⟩ := hpassed.same rfl
    obtain ⟨hconstrained, hready⟩ := hpassed.ready rfl
    have hfits := hpassed.fits rfl
    obtain ⟨result, cfg2, hsecond, hpassed'⟩ := encoderPass_spec crtc pipe (hmeek false) hf
      hpassed.deep (hrequested ▸ hclock) (by rw [hadjusted, hrequested, hf.idem])
    rw [hrequested] at hpassed'
    simp only [hsecond]
    cases result with
    | done => exact ⟨_, _, rfl, configured_ok hpassed'.deep (hpassed'.done rfl)⟩
    | failed => exact ⟨_, _, rfl, configured_failed hpassed'.deep⟩
    | retry => exact absurd rfl (hpassed'.once hconstrained (hf.fits hfits) hready)

/-! ### SDVO -/

/-- The clock an SDVO encoder runs at, before it is multiplied. -/
def SdvoAnswer.clock (mode : Mode) : SdvoAnswer → Option ℤ
  | .refused => none
  | .kept => some mode.clock
  | .preferred dtd => some (Sdvo.getModeFromDtd mode dtd).clock

/-- The 24 bits that an SDVO encoder sets in every pass fit the lanes of the pipe. -/
def SdvoFits (dev : Device) (crtc : Pipe → Crtc) (pipe : Pipe) (mode : Mode)
    (answer : SdvoAnswer) : Prop :=
  ∀ clock ∈ answer.clock mode,
    ironlakeCheckFdiLanes dev crtc pipe (ironlakeGetLanesRequired clock linkBw 24) = true

/-- The multiplier is taken out again. -/
theorem multiplied_clock {mode : Mode} (h0 : 0 ≤ mode.clock) (h : mode.clock < 0x80000000) :
    (i32 (mode.clock * intelSdvoGetPixelMultiplier mode)).tdiv (intelSdvoGetPixelMultiplier mode) =
      mode.clock := by
  unfold intelSdvoGetPixelMultiplier
  split
  · rw [mul_one, i32_of_range (by omega) h]
    exact Int.tdiv_one _
  · split
    · rw [i32_of_range (by omega) (by omega)]
      exact Int.mul_tdiv_cancel _ (by decide)
    · rw [i32_of_range (by omega) (by omega)]
      exact Int.mul_tdiv_cancel _ (by decide)

theorem preferred_clock (mode : Mode) (dtd : Sdvo.SdvoDtd) :
    0 ≤ (Sdvo.getModeFromDtd mode dtd).clock ∧ (Sdvo.getModeFromDtd mode dtd).clock ≤ 655350 := by
  change 0 ≤ (dtd.clock.toNat : ℤ) * 10 ∧ (dtd.clock.toNat : ℤ) * 10 ≤ 655350
  omega

/-- What an SDVO encoder leaves of a configuration it accepts. -/
structure SdvoLeft (answer : SdvoAnswer) (cfg cfg' : PipeConfig) : Prop where
  clock : cfg'.fdiDotclock ∈ answer.clock cfg.adjustedMode
  fits : ClockFits cfg.adjustedMode.clock → ClockFits cfg'.fdiDotclock
  requestedMode : cfg'.requestedMode = cfg.requestedMode
  pipeBpp : cfg'.pipeBpp = 24

theorem depth_24 : Depth 24 := ⟨by decide, by decide, by decide⟩

theorem sdvo_deep (hdeep : Deep cfg) (answer : SdvoAnswer) :
    Deep (intelSdvoComputeConfig answer cfg).2 := by
  have hset := hdeep.setBpp depth_24
  cases answer <;> exact hset.of_eq rfl rfl

theorem sdvo_left (hclock : ClockInt cfg.adjustedMode.clock) {answer : SdvoAnswer}
    (h : (intelSdvoComputeConfig answer cfg).1 = true) :
    SdvoLeft answer cfg (intelSdvoComputeConfig answer cfg).2 := by
  obtain ⟨h0, hlt⟩ := hclock
  have hint : cfg.adjustedMode.clock < 0x80000000 := by omega
  cases answer with
  | refused => cases h
  | kept =>
    have hdot : (intelSdvoComputeConfig .kept cfg).2.fdiDotclock = cfg.adjustedMode.clock :=
      multiplied_clock h0 hint
    exact ⟨congrArg some hdot.symm, fun hfits => hdot.symm ▸ hfits, rfl, rfl⟩
  | preferred dtd =>
    have hdtd := preferred_clock cfg.adjustedMode dtd
    have hint' : (Sdvo.getModeFromDtd cfg.adjustedMode dtd).clock < 0x80000000 := by omega
    have hdot : (intelSdvoComputeConfig (.preferred dtd) cfg).2.fdiDotclock =
        (Sdvo.getModeFromDtd cfg.adjustedMode dtd).clock := multiplied_clock hdtd.1 hint'
    refine ⟨congrArg some hdot.symm, fun _ => ?_, rfl, rfl⟩
    rw [hdot]
    exact ⟨hdtd.1, by omega⟩

theorem computeConfigs_singleton (dev : Device) (retry : Bool) (encoder : Encoder)
    (cfg : PipeConfig) : computeConfigs dev retry [encoder] cfg =
      encoder.computeConfig dev retry cfg := by
  unfold computeConfigs
  rcases encoder.computeConfig dev retry cfg with ⟨_ | _, cfg'⟩ <;> rfl

/-- A pass of an SDVO encoder whose 24 bits fit is not asked for again. -/
theorem encoderPass_sdvo (dev : Device) (crtc : Pipe → Crtc) (pipe : Pipe) (retry : Bool)
    (answer : Bool → SdvoAnswer) (hdeep : Deep cfg) (hclock : ClockInt cfg.requestedMode.clock)
    (hmode : cfg.adjustedMode = cfg.requestedMode)
    (hfits : SdvoFits dev crtc pipe cfg.requestedMode (answer retry)) :
    ∃ result cfg', encoderPass dev crtc pipe [.sdvo answer] retry cfg = some (result, cfg') ∧
      Deep cfg' ∧ (result = .done → cfg'.hasPchEncoder = true → LanesRight dev crtc pipe cfg') ∧
      result ≠ .retry := by
  obtain ⟨start, hstart⟩ : ∃ start : PipeConfig, start =
    { cfg with portClock := 0, pixelMultiplier := 1 } := ⟨_, rfl⟩
  have hrequested : start.requestedMode = cfg.requestedMode := by rw [hstart]
  have hadjusted : start.adjustedMode = cfg.requestedMode := by rw [hstart, ← hmode]
  have hdeep' : Deep ((Encoder.sdvo answer).computeConfig dev retry start).2 :=
    sdvo_deep (hdeep.of_eq (by rw [hstart]) (by rw [hstart])) (answer retry)
  have hleft : ((Encoder.sdvo answer).computeConfig dev retry start).1 = true →
      SdvoLeft (answer retry) start ((Encoder.sdvo answer).computeConfig dev retry start).2 :=
    sdvo_left (by rw [hadjusted]; exact hclock)
  unfold encoderPass
  rw [← hstart, computeConfigs_singleton]
  rcases hrun : (Encoder.sdvo answer).computeConfig dev retry start with ⟨_ | _, cfg1⟩
  · rw [hrun] at hdeep'
    exact ⟨_, _, rfl, hdeep', ComputeResult.noConfusion, ComputeResult.noConfusion⟩
  · rw [hrun] at hdeep' hleft
    have hleft := hleft rfl
    dsimp only at hdeep' hleft ⊢
    obtain ⟨cfg2, hport, hsame, hbpp, hbpps⟩ := defaultPort_same cfg1
    have hmode2 : cfg2.requestedMode = cfg.requestedMode :=
      (hsame.requestedMode.trans hleft.requestedMode).trans hrequested
    have hdot : cfg2.fdiDotclock = cfg1.fdiDotclock := by
      rw [PipeConfig.fdiDotclock, hsame.adjustedMode, hsame.pixelMultiplier]
      rfl
    rw [hport]
    obtain ⟨result, cfg', heq, hcomputed, -, honce⟩ := crtcCompute_spec dev crtc pipe
      (hdeep'.of_eq hbpp hbpps) (hmode2 ▸ hclock) (fun h => by
        rw [hdot]
        rw [hmode2, ← hadjusted] at h
        exact hleft.fits h)
    refine ⟨result, cfg', heq, hcomputed.deep, hcomputed.done, honce (.inl ?_)⟩
    rw [hdot, hbpp, hleft.pipeBpp]
    have hclock := hleft.clock
    rw [hadjusted] at hclock
    exact hfits _ hclock

/-- The first pass of an SDVO encoder whose 24 bits fit is the only one. -/
theorem encoderPasses_sdvo (dev : Device) (crtc : Pipe → Crtc) (pipe : Pipe) (bpp : ℤ)
    (answer : Bool → SdvoAnswer) (hdeep : Deep cfg) (hclock : ClockInt cfg.requestedMode.clock)
    (hmode : cfg.adjustedMode = cfg.requestedMode)
    (hfits : SdvoFits dev crtc pipe cfg.requestedMode (answer true)) :
    ∃ result cfg', encoderPasses dev crtc pipe [.sdvo answer] bpp cfg = some (result, cfg') ∧
      Configured dev crtc pipe result cfg' := by
  obtain ⟨result, cfg', hfirst, hdeep', hdone, honce⟩ :=
    encoderPass_sdvo dev crtc pipe true answer hdeep hclock hmode hfits
  unfold encoderPasses
  simp only [hfirst]
  cases result with
  | done => exact ⟨_, _, rfl, configured_ok hdeep' (hdone rfl)⟩
  | failed => exact ⟨_, _, rfl, configured_failed hdeep'⟩
  | retry => exact absurd rfl honce

/-! ### The whole configuration -/

theorem depth_plane {bpp : ℤ} {format : PixelFormat} (h : planeBpp ivybridge format = some bpp) :
    Depth bpp := by
  have hcases : bpp = 18 ∨ bpp = 24 ∨ bpp = 30 := by
    cases format <;> cases h <;> decide
  rcases hcases with rfl | rfl | rfl <;> constructor <;> decide

theorem bpc_cases (edid : EdidInput) : edid.bpc = 0 ∨ edid.bpc = 6 ∨ edid.bpc = 8 ∨
    edid.bpc = 10 ∨ edid.bpc = 12 ∨ edid.bpc = 14 ∨ edid.bpc = 16 := by
  unfold EdidInput.bpc
  split
  · exact .inl rfl
  · split <;> decide

theorem deep_sink (hdeep : Deep cfg) (edid : EdidInput) :
    Deep (connectedSinkComputeBpp cfg edid) := by
  have hbpc := bpc_cases edid
  have hhigh := hdeep.depth.high
  unfold connectedSinkComputeBpp
  dsimp only
  split
  · rename_i hzero
    rw [if_neg (by omega)]
    exact hdeep.setBpp depth_24
  · split
    · rename_i hlow
      exact hdeep.setBpp ⟨by omega, by omega, by omega⟩
    · exact hdeep

/-- What the sinks of a crtc leave alone. -/
theorem sinks_spec (sinks : List EdidInput) (hdeep : Deep cfg) :
    Deep (sinks.foldl connectedSinkComputeBpp cfg) ∧
      SameMode cfg (sinks.foldl connectedSinkComputeBpp cfg) := by
  induction sinks generalizing cfg with
  | nil => exact ⟨hdeep, rfl, rfl, rfl, rfl⟩
  | cons edid sinks ih =>
    have hsame : SameMode cfg (connectedSinkComputeBpp cfg edid) := by
      unfold connectedSinkComputeBpp
      dsimp only
      split <;> split <;> exact ⟨rfl, rfl, rfl, rfl⟩
    obtain ⟨hrest, hrest'⟩ := ih (deep_sink hdeep edid)
    exact ⟨hrest, hrest'.requestedMode.trans hsame.requestedMode,
      hrest'.adjustedMode.trans hsame.adjustedMode,
      hrest'.pixelMultiplier.trans hsame.pixelMultiplier,
      hrest'.hasPchEncoder.trans hsame.hasPchEncoder⟩

/-- An encoder that cannot be cloned is alone. -/
theorem alone_of_cloning (h : checkEncoderCloning encoders = true) {encoder : Encoder}
    (hmem : encoder ∈ encoders) (hclone : encoder.cloneable = false) : encoders = [encoder] := by
  have hany : (encoders.any fun encoder => !encoder.cloneable) = true :=
    List.any_eq_true.mpr ⟨encoder, hmem, by rw [hclone]; rfl⟩
  rw [checkEncoderCloning, hany, Bool.and_true, Bool.not_eq_true', decide_eq_false_iff_not,
    not_lt] at h
  obtain ⟨other, rfl⟩ := List.length_eq_one_iff.mp
    (le_antisymm h (List.length_pos_of_mem hmem))
  rw [List.mem_singleton.mp hmem]

/-- The configuration of a pipe ends, goes to no depth below 18 and asks for no third pass. -/
theorem intelModesetPipeConfig_spec (crtc : Pipe → Crtc) (pipe : Pipe) (encoders : List Encoder)
    (sinks : List EdidInput) (format : PixelFormat) (mode : Mode) (hclock : ClockInt mode.clock)
    (hsdvo : ∀ answer, Encoder.sdvo answer ∈ encoders →
      SdvoFits ivybridge crtc pipe mode (answer true)) :
    ∃ result cfg, intelModesetPipeConfig ivybridge crtc pipe encoders sinks format mode =
        some (result, cfg) ∧ Configured ivybridge crtc pipe result cfg := by
  have hempty : Configured ivybridge crtc pipe .failed
      { adjustedMode := mode, requestedMode := mode } := by
    refine ⟨?_, PipeResult.noConfusion, PipeResult.noConfusion, PipeResult.noConfusion⟩
    intro bpp hbpp
    cases hbpp
  unfold intelModesetPipeConfig
  by_cases hcloning : checkEncoderCloning encoders = true
  · rw [hcloning, Bool.not_true, if_neg Bool.false_ne_true]
    split
    · exact ⟨_, _, rfl, hempty⟩
    · rename_i bpp hbpp
      have hdepth := depth_plane hbpp
      have hdeep : Deep (PipeConfig.setBpp { adjustedMode := mode, requestedMode := mode }
          bpp) := by
        refine ⟨hdepth, fun b hb => ?_⟩
        rw [List.mem_singleton.mp hb]
        exact hdepth
      obtain ⟨hsinks, hsame⟩ := sinks_spec sinks hdeep
      have hrequested : (sinks.foldl connectedSinkComputeBpp (PipeConfig.setBpp
          { adjustedMode := mode, requestedMode := mode } bpp)).requestedMode = mode :=
        hsame.requestedMode
      have hmode := hsame.adjustedMode.trans hrequested.symm
      by_cases hany : ∃ answer, Encoder.sdvo answer ∈ encoders
      · obtain ⟨answer, hmem⟩ := hany
        rw [alone_of_cloning hcloning hmem rfl]
        refine encoderPasses_sdvo ivybridge crtc pipe bpp answer hsinks ?_ hmode ?_
        · rw [hrequested]
          exact hclock
        · rw [hrequested]
          exact hsdvo answer hmem
      · obtain ⟨f, hf, hmeek⟩ := computeConfigs_meek ivybridge encoders (not_exists.mp hany)
        refine encoderPasses_meek crtc pipe bpp hf hmeek hsinks ?_ hmode
        rw [hrequested]
        exact hclock
  · rw [if_pos ((Bool.not_eq_true' _).mpr (Bool.eq_false_of_not_eq_true hcloning))]
    exact ⟨_, _, rfl, hempty⟩

end Passes

end GfxDrm.Fdi
