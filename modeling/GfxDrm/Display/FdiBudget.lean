import GfxDrm.Display.FdiLanes
import Mathlib.Data.Fin.VecNotation

/-! Mode sets one after the other, and the FDI lanes that pipes B and C share (intel_display.c). -/

namespace GfxDrm.Fdi
open CInt Modes Run

/-- The outputs and the crtcs. Connectors and encoders go by their places in their lists. -/
structure ModesetState (nk ne : ℕ) where
  /-- connector->encoder -/
  encoderOf : Fin nk → Option (Fin ne)
  /-- encoder->crtc -/
  crtcOf : Fin ne → Option Pipe
  crtc : Pipe → Crtc
  inUse : ∀ pipe, (crtc pipe).enabled = true ↔ ∃ encoder, crtcOf encoder = some pipe

/-- A call of intel_set_mode, with the outputs that are staged and what is read on the way. -/
structure ModeSet (nk ne : ℕ) where
  pipe : Pipe
  mode : Mode
  format : PixelFormat
  newEncoder : Fin nk → Option (Fin ne)
  newCrtc : Fin ne → Option Pipe
  encoder : Fin ne → Encoder
  edid : Fin nk → EdidInput
  /-- What intel_crtc_mode_set returns. -/
  ret : ℤ := 0

variable {nk ne : ℕ}

namespace ModeSet
variable (m : ModeSet nk ne) (s : ModesetState nk ne)

def encoders : List Encoder :=
  ((List.finRange ne).filter fun encoder => m.newCrtc encoder = some m.pipe).map m.encoder

def sinks : List EdidInput :=
  ((List.finRange nk).filter fun connector =>
    (m.newEncoder connector).bind m.newCrtc = some m.pipe).map m.edid

/-- A connector or an encoder changes, and had the crtc before or has it now. -/
def OutputsChange : Prop :=
  (∃ connector, s.encoderOf connector ≠ m.newEncoder connector ∧
    ((s.encoderOf connector).bind s.crtcOf = some m.pipe ∨
      (m.newEncoder connector).bind m.newCrtc = some m.pipe)) ∨
  ∃ encoder, s.crtcOf encoder ≠ m.newCrtc encoder ∧
    (s.crtcOf encoder = some m.pipe ∨ m.newCrtc encoder = some m.pipe)

instance : Decidable (m.OutputsChange s) := inferInstanceAs (Decidable (_ ∨ _))

/-- The crtc's own bit of `modeset_pipes`. -/
def modesetPipe : Bool :=
  let prepare := decide (m.OutputsChange s) || (s.crtc m.pipe).enabled
  let disable := (s.crtc m.pipe).enabled && !decide (∃ encoder, m.newCrtc encoder = some m.pipe)
  prepare && !disable

def pipeConfig : Option (PipeResult × PipeConfig) :=
  intelModesetPipeConfig ivybridge s.crtc m.pipe m.encoders m.sinks m.format m.mode

/-- intel_modeset_update_state, once the crtc may have been given a configuration. -/
def updateState (config : Option PipeConfig) : ModesetState nk ne where
  encoderOf := m.newEncoder
  crtcOf := m.newCrtc
  crtc pipe :=
    { enabled := decide (∃ encoder, m.newCrtc encoder = some pipe)
      config := if pipe = m.pipe then config.getD (s.crtc pipe).config else (s.crtc pipe).config }
  inUse _ := decide_eq_true_iff

/-- __intel_set_mode. -/
def intelSetMode : Option (ℤ × ModesetState nk ne) :=
  if m.modesetPipe s then
    match m.pipeConfig s with
    | none => none
    | some (.ok, config) => some (m.ret, m.updateState s (some config))
    | some (.failed, _) => some (Errno.eInval, s)
    | some (.loop, _) => some (Errno.eInval, s)
  else some (0, m.updateState s none)

end ModeSet

/-- What is asked of the lanes: those of pipes B and C fit what the two share, and every pipe's
carry it. -/
structure LanesFit (s : ModesetState nk ne) : Prop where
  b : (s.crtc .c).hasEnabledPch = true → (s.crtc .b).hasEnabledPch = true →
    (s.crtc .b).config.fdiLanes ≤ 2
  c : (s.crtc .c).hasEnabledPch = true → (s.crtc .c).config.fdiLanes ≤ 2
  carries : ∀ pipe, (s.crtc pipe).hasEnabledPch = true → (s.crtc pipe).config.Carries
  depth : ∀ pipe, (s.crtc pipe).hasEnabledPch = true → 18 ≤ (s.crtc pipe).config.pipeBpp

/-- The clock can be tripled, an SDVO encoder need not go below its 24 bits, and no crtc is turned
on with what is left of an earlier configuration. -/
structure Supported (s : ModesetState nk ne) (m : ModeSet nk ne) : Prop where
  clock : ClockInt m.mode.clock
  sdvo : ∀ answer, Encoder.sdvo answer ∈ m.encoders →
    SdvoFits ivybridge s.crtc m.pipe m.mode (answer true)
  others : ∀ pipe, pipe ≠ m.pipe → (∃ encoder, m.newCrtc encoder = some pipe) →
    (s.crtc pipe).enabled = true ∨ (s.crtc pipe).config.hasPchEncoder = false

/-- Mode sets, from any state in which the lanes fit, such as that with every crtc off. -/
def modeSets (nk ne : ℕ) : System (ModesetState nk ne) (ModeSet nk ne) where
  init := LanesFit
  step s m s' := ∃ ret, m.intelSetMode s = some (ret, s')

section Step
variable {s : ModesetState nk ne} {m : ModeSet nk ne}

/-- The other crtcs that use the PCH did so before. -/
theorem others_kept (hm : Supported s m) {config : Option PipeConfig} {pipe : Pipe}
    (hne : pipe ≠ m.pipe)
    (h : ((m.updateState s config).crtc pipe).hasEnabledPch = true) :
    (s.crtc pipe).hasEnabledPch = true ∧
      ((m.updateState s config).crtc pipe).config = (s.crtc pipe).config := by
  have hconfig : ((m.updateState s config).crtc pipe).config = (s.crtc pipe).config := if_neg hne
  obtain ⟨henabled, hpch⟩ := (Bool.and_eq_true _ _).mp h
  rw [hconfig] at hpch
  refine ⟨?_, hconfig⟩
  rcases hm.others pipe hne (of_decide_eq_true henabled) with hon | hoff
  · rw [Crtc.hasEnabledPch, hon, hpch]
    rfl
  · rw [hpch] at hoff
    cases hoff

/-- A crtc that is not set up is not on afterwards. -/
theorem own_off (h : m.modesetPipe s = false) (config : Option PipeConfig) :
    ((m.updateState s config).crtc m.pipe).enabled = false := by
  refine decide_eq_false fun hused => ?_
  obtain ⟨encoder, hencoder⟩ := hused
  have hprepare : (decide (m.OutputsChange s) || (s.crtc m.pipe).enabled) = true := by
    cases henabled : (s.crtc m.pipe).enabled with
    | true => exact Bool.or_true _
    | false =>
      -- The encoder was on no crtc or on another one.
      rw [Bool.or_false]
      refine decide_eq_true (.inr ⟨encoder, fun hsame => ?_, .inr hencoder⟩)
      have hon := (s.inUse m.pipe).mpr ⟨encoder, hsame.trans hencoder⟩
      rw [henabled] at hon
      exact Bool.false_ne_true hon
  unfold ModeSet.modesetPipe at h
  rw [hprepare, decide_eq_true (⟨encoder, hencoder⟩ : ∃ encoder, m.newCrtc encoder = some m.pipe),
    Bool.not_true, Bool.and_false] at h
  cases h

/-- The lanes still fit once the outputs are updated, if those of the crtc that is set up do. -/
theorem updateState_fit (hs : LanesFit s) (hm : Supported s m) {config : Option PipeConfig}
    (hown : ((m.updateState s config).crtc m.pipe).hasEnabledPch = true →
      LanesRight ivybridge s.crtc m.pipe ((m.updateState s config).crtc m.pipe).config ∧
        18 ≤ ((m.updateState s config).crtc m.pipe).config.pipeBpp) :
    LanesFit (m.updateState s config) := by
  constructor
  · intro hc hb
    cases hpipe : m.pipe with
    | a =>
      have hc' := others_kept hm (by rw [hpipe]; decide) hc
      have hb' := others_kept hm (by rw [hpipe]; decide) hb
      rw [hb'.2]
      exact hs.b hc'.1 hb'.1
    | b =>
      have hc' := others_kept hm (by rw [hpipe]; decide) hc
      rw [hpipe] at hown
      exact check_b (hown hb).1.check ((Bool.and_eq_true _ _).mp hc'.1).1
    | c =>
      have hb' := others_kept hm (by rw [hpipe]; decide) hb
      rw [hpipe] at hown
      rw [hb'.2]
      exact (check_c (hown hc).1.check).2 hb'.1
  · intro hc
    by_cases hpipe : Pipe.c = m.pipe
    · rw [← hpipe] at hown
      exact (check_c (hown hc).1.check).1
    · have hc' := others_kept hm hpipe hc
      rw [hc'.2]
      exact hs.c hc'.1
  · intro pipe hon
    by_cases hpipe : pipe = m.pipe
    · rw [← hpipe] at hown
      exact (hown hon).1.carries
    · have hkept := others_kept hm hpipe hon
      rw [hkept.2]
      exact hs.carries pipe hkept.1
  · intro pipe hon
    by_cases hpipe : pipe = m.pipe
    · rw [← hpipe] at hown
      exact (hown hon).2
    · have hkept := others_kept hm hpipe hon
      rw [hkept.2]
      exact hs.depth pipe hkept.1

theorem pipeConfig_spec (hm : Supported s m) : ∃ result cfg,
    m.pipeConfig s = some (result, cfg) ∧ Configured ivybridge s.crtc m.pipe result cfg :=
  intelModesetPipeConfig_spec s.crtc m.pipe m.encoders m.sinks m.format m.mode hm.clock hm.sdvo

/-- One mode set: it returns, and the lanes fit after it. -/
theorem intelSetMode_fit (hs : LanesFit s) (hm : Supported s m) :
    ∃ ret s', m.intelSetMode s = some (ret, s') ∧ LanesFit s' := by
  unfold ModeSet.intelSetMode
  cases hset : m.modesetPipe s with
  | false =>
    refine ⟨_, _, rfl, updateState_fit hs hm fun hon => ?_⟩
    have hoff := own_off hset none
    rw [Crtc.hasEnabledPch, hoff] at hon
    cases hon
  | true =>
    obtain ⟨result, cfg, heq, hcfg⟩ := pipeConfig_spec hm
    rw [heq]
    cases result with
    | ok =>
      refine ⟨_, _, rfl, updateState_fit hs hm fun hon => ?_⟩
      have hconfig : ((m.updateState s (some cfg)).crtc m.pipe).config = cfg := if_pos rfl
      have hpch := ((Bool.and_eq_true _ _).mp hon).2
      rw [hconfig] at hpch ⊢
      exact ⟨hcfg.lanes rfl hpch, hcfg.depth rfl⟩
    | failed => exact ⟨_, _, rfl, hs⟩
    | loop => exact ⟨_, _, rfl, hs⟩

/-- In every run of supported mode sets the lanes fit in every state reached; each of them returns,
and its configuration asks for no third pass and goes to no depth below 18. -/
theorem modeSets_fit (h : ReachWhile (modeSets nk ne) Supported s) :
    LanesFit s ∧ ∀ m, Supported s m → (∃ ret s', m.intelSetMode s = some (ret, s') ∧ LanesFit s') ∧
      ∃ result cfg, m.pipeConfig s = some (result, cfg) ∧
        Configured ivybridge s.crtc m.pipe result cfg := by
  have hfit : LanesFit s := by
    refine h.invariant (fun _ h0 => h0) (fun s m s' hs hm hstep => ?_)
    obtain ⟨ret, hstep⟩ := hstep
    obtain ⟨ret', s'', heq, hs''⟩ := intelSetMode_fit hs hm
    rw [hstep] at heq
    cases heq
    exact hs''
  exact ⟨hfit, fun m hm => ⟨intelSetMode_fit hfit hm, pipeConfig_spec hm⟩⟩

end Step

/-! ### A VGA output on pipe C and an SDVO one for pipe B -/

/-- XGA on the VGA output of pipe C takes one lane. -/
def vgaConfig : PipeConfig where
  adjustedMode := { clock := 65000 }
  pipeBpp := 24
  hasPchEncoder := true
  fdiLanes := 1

def vgaOnC : ModesetState 2 2 where
  encoderOf := ![some ⟨0, Nat.two_pos⟩, none]
  crtcOf := ![some .c, none]
  crtc pipe := if pipe = .c then { enabled := true, config := vgaConfig } else {}
  inUse pipe := by cases pipe <;> decide

theorem vgaOnC_fit : LanesFit vgaOnC := by
  constructor
  · decide
  · decide
  · intro pipe
    cases pipe
    · exact Bool.false_ne_true.elim
    · exact Bool.false_ne_true.elim
    · intro _
      unfold PipeConfig.Carries
      decide
  · intro pipe
    cases pipe <;> decide

/-- The second output is put on pipe B. -/
def onB (encoder : Encoder) (clock : ℤ) : ModeSet 2 2 where
  pipe := .b
  mode := { clock, hdisplay := 1920, hsyncStart := 1968 }
  format := .xrgb8888
  newEncoder := ![some ⟨0, Nat.two_pos⟩, some ⟨1, Nat.one_lt_two⟩]
  newCrtc := ![some .c, some .b]
  encoder := ![.crt, encoder]
  edid _ := ⟨3, 0⟩

/-- Pipe A has no configuration, and pipe C is on. -/
theorem onB_others {pipe : Pipe} (hne : pipe ≠ .b) :
    (vgaOnC.crtc pipe).enabled = true ∨ (vgaOnC.crtc pipe).config.hasPchEncoder = false := by
  cases pipe with
  | a => exact .inr rfl
  | b => exact absurd rfl hne
  | c => exact .inl rfl

theorem hdmi_supported : Supported vgaOnC (onB .hdmi 148500) := by
  refine ⟨by unfold ClockInt; decide, fun answer hmem => ?_, fun _ hne _ =>
    onB_others hne⟩
  cases List.mem_singleton.mp hmem

/-- 1920x1080 is put on pipe B, which gets two lanes. -/
theorem modeSets_fit_hdmi : ∃ ret s', (onB .hdmi 148500).intelSetMode vgaOnC = some (ret, s') ∧
    LanesFit s' := by
  obtain ⟨ret, s', hstep, -⟩ := intelSetMode_fit vgaOnC_fit hdmi_supported
  have hreach : ReachWhile (modeSets 2 2) Supported s' :=
    (ReachWhile.init vgaOnC_fit).step hdmi_supported ⟨ret, hstep⟩
  exact ⟨ret, s', hstep, (modeSets_fit hreach).1⟩

/-- At 200 MHz the 24 bits of SDVO need three lanes in either pass. -/
theorem modeSets_sdvo_loops : ¬ ∀ (nk ne : ℕ) (s : ModesetState nk ne) (m : ModeSet nk ne),
    Reach (modeSets nk ne) s → ∃ result cfg, m.pipeConfig s = some (result, cfg) ∧
      Configured ivybridge s.crtc m.pipe result cfg := by
  intro h
  obtain ⟨result, cfg, heq, hcfg⟩ := h 2 2 vgaOnC (onB (.sdvo fun _ => .kept) 200000)
    (.init vgaOnC_fit)
  have hloop : ((onB (.sdvo fun _ => .kept) 200000).pipeConfig vgaOnC).map (·.1) =
      some .loop := by
    decide +kernel
  rw [heq] at hloop
  exact hcfg.noLoop (Option.some.inj hloop)

end GfxDrm.Fdi
