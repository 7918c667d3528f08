import GfxDrm.Errno
import GfxDrm.Lib.Census
import GfxDrm.Lib.Run
import Mathlib.Data.Fintype.Basic

/-! The PLLs that crtcs share on PCH hardware, from mode set to disable (intel_display.c). -/

namespace GfxDrm.Dpll
open Run Function

/-- struct intel_dpll_hw_state. -/
structure DpllHwState where
  dpll : BitVec 32 := 0
  fp0 : BitVec 32 := 0
  fp1 : BitVec 32 := 0
  deriving DecidableEq, Repr

def dpllVcoEnable : BitVec 32 := 0x80000000

/-- struct intel_shared_dpll, with its registers. -/
structure SharedDpll where
  refcount : ℕ := 0
  active : ℕ := 0
  isOn : Bool := false
  hwState : DpllHwState := {}
  regs : DpllHwState := {}
  deriving DecidableEq, Repr

/-- How many pipes and PLLs there are. The first PCH has a PLL for each pipe. -/
structure Pch where
  numPipes : ℕ
  numSharedDpll : ℕ := 2
  ibx : Bool := false
  fixed : ibx = true → numPipes ≤ numSharedDpll

/-- What of struct intel_crtc the PLLs depend on; `sharedDpll` is none for DPLL_ID_PRIVATE. -/
structure Crtc (k : ℕ) where
  enabled : Bool := false
  active : Bool := false
  sharedDpll : Option (Fin k) := none
  hasPchEncoder : Bool := false
  dpllHwState : DpllHwState := {}
  deriving DecidableEq, Repr

/-- `encoders` tells each encoder's crtc. -/
structure DisplayState (h : Pch) (m : ℕ) where
  crtcs : Fin h.numPipes → Crtc h.numSharedDpll := fun _ => {}
  plls : Fin h.numSharedDpll → SharedDpll := fun _ => {}
  encoders : Fin m → Option (Fin h.numPipes) := fun _ => none
  /-- The registers of a PLL were written again while an active crtc used it. -/
  rewritten : Bool := false

variable {h : Pch} {m : ℕ}

namespace DisplayState

def setCrtc (s : DisplayState h m) (c : Fin h.numPipes) (x : Crtc h.numSharedDpll) :
    DisplayState h m :=
  { s with crtcs := update s.crtcs c x }

def setPll (s : DisplayState h m) (i : Fin h.numSharedDpll) (x : SharedDpll) : DisplayState h m :=
  { s with plls := update s.plls i x }

variable (s : DisplayState h m) (c : Fin h.numPipes) (i : Fin h.numSharedDpll)

/-- An active crtc uses the PLL. -/
def InUse : Prop := ∃ c, (s.crtcs c).active = true ∧ (s.crtcs c).sharedDpll = some i

instance : Decidable (s.InUse i) := inferInstanceAs (Decidable (∃ _, _))

/-- Mode set writes a PLL's registers. -/
def writePll (regs : DpllHwState) : DisplayState h m :=
  { s.setPll i { s.plls i with regs := regs } with
    rewritten := s.rewritten || decide (s.InUse i) }

/-! ### Enabling and disabling -/

/-- ironlake_enable_shared_dpll. -/
def ironlakeEnableSharedDpll : DisplayState h m :=
  match (s.crtcs c).sharedDpll with
  | none => s
  | some i =>
    let pll := s.plls i
    if pll.refcount = 0 then s
    else if pll.active ≠ 0 then s.setPll i { pll with active := pll.active + 1 }
    else
      s.setPll i { pll with
        active := 1
        isOn := true
        regs := { pll.regs with dpll := pll.regs.dpll ||| dpllVcoEnable } }

/-- intel_disable_shared_dpll. -/
def intelDisableSharedDpll : DisplayState h m :=
  match (s.crtcs c).sharedDpll with
  | none => s
  | some i =>
    let pll := s.plls i
    if pll.refcount = 0 ∨ pll.active = 0 then s
    else if pll.active - 1 ≠ 0 then s.setPll i { pll with active := pll.active - 1 }
    else
      s.setPll i { pll with
        active := 0
        isOn := false
        regs := { pll.regs with dpll := pll.regs.dpll &&& ~~~dpllVcoEnable } }

/-- intel_put_shared_dpll. -/
def intelPutSharedDpll : DisplayState h m :=
  match (s.crtcs c).sharedDpll with
  | none => s
  | some i =>
    let pll := s.plls i
    if pll.refcount = 0 then s
    else
      (s.setPll i { pll with refcount := pll.refcount - 1 }).setCrtc c
        { s.crtcs c with sharedDpll := none }

/-- ironlake_crtc_enable. -/
def ironlakeCrtcEnable : DisplayState h m :=
  if (s.crtcs c).active then s
  else
    let s := s.setCrtc c { s.crtcs c with active := true }
    if (s.crtcs c).hasPchEncoder then s.ironlakeEnableSharedDpll c else s

/-- ironlake_crtc_disable. -/
def ironlakeCrtcDisable : DisplayState h m :=
  if !(s.crtcs c).active then s
  else
    let s := if (s.crtcs c).hasPchEncoder then s.intelDisableSharedDpll c else s
    s.setCrtc c { s.crtcs c with active := false }

/-- intel_crtc_disable, with ironlake_crtc_off. -/
def intelCrtcDisable : DisplayState h m := (s.ironlakeCrtcDisable c).intelPutSharedDpll c

/-! ### Mode sets -/

/-- The PLL that intel_get_shared_dpll takes: the pipe's own, else one in use with these timings,
else a free one. -/
def findSharedDpll (dpll fp : BitVec 32) : Option (Fin h.numSharedDpll) :=
  if hibx : h.ibx = true then some ⟨c, Nat.lt_of_lt_of_le c.isLt (h.fixed hibx)⟩
  else
    ((List.finRange h.numSharedDpll).find? fun i =>
      (s.plls i).refcount ≠ 0 && (dpll &&& 0x7fffffff) = ((s.plls i).regs.dpll &&& 0x7fffffff) &&
        fp = (s.plls i).regs.fp0).or
      ((List.finRange h.numSharedDpll).find? fun i => (s.plls i).refcount = 0)

/-- intel_get_shared_dpll. -/
def intelGetSharedDpll (dpll fp : BitVec 32) : Option (Fin h.numSharedDpll) × DisplayState h m :=
  let s := s.intelPutSharedDpll c
  match s.findSharedDpll c dpll fp with
  | none => (none, s)
  | some i =>
    let s := s.setCrtc c { s.crtcs c with sharedDpll := some i }
    let s :=
      if (s.plls i).active = 0 then
        let s := s.setPll i { s.plls i with hwState := (s.crtcs c).dpllHwState }
        s.writePll i { (s.plls i).regs with dpll := dpll &&& ~~~dpllVcoEnable, fp0 := fp }
      else s
    (some i, s.setPll i { s.plls i with refcount := (s.plls i).refcount + 1 })

/-- What the functions outside return: the divisors for the mode, if there are any, and what
intel_pipe_set_base and the rest of the mode set return. -/
structure ModeSetOutcome where
  clocks : Option DpllHwState
  base : ℤ := 0

/-- The values a crtc requires; ironlake_compute_dpll sets the enable bit. -/
def requiredState (clocks : DpllHwState) : DpllHwState :=
  { clocks with dpll := clocks.dpll ||| dpllVcoEnable }

/-- intel_crtc_mode_set, with ironlake_crtc_mode_set. -/
def ironlakeCrtcModeSet (o : ModeSetOutcome) : ℤ × DisplayState h m :=
  match o.clocks with
  | none => (Errno.eInval, s)
  | some clocks =>
    if (s.crtcs c).hasPchEncoder then
      let hw := requiredState clocks
      let s := s.setCrtc c { s.crtcs c with dpllHwState := hw }
      let res := s.intelGetSharedDpll c hw.dpll hw.fp0
      match res.1 with
      | none => (Errno.eInval, res.2)
      | some i =>
        (o.base, res.2.writePll i { (res.2.plls i).regs with dpll := hw.dpll, fp1 := hw.fp1 })
    else (o.base, s.intelPutSharedDpll c)

/-- A call of __intel_set_mode: the crtcs that the encoders are staged for, whether the outputs of
the crtc change, its new pipe config if one can be computed, and what its mode set returns. -/
structure SetModeRequest (h : Pch) (m : ℕ) where
  crtc : Fin h.numPipes
  staged : Fin m → Option (Fin h.numPipes)
  changed : Bool := false
  /-- `has_pch_encoder` of the new config. -/
  pipeConfig : Option Bool := some true
  outcome : ModeSetOutcome

/-- intel_crtc_in_use. -/
def inUse (encoders : Fin m → Option (Fin h.numPipes)) (c : Fin h.numPipes) : Bool :=
  decide (∃ e, encoders e = some c)

/-- The pipes that are disabled, of intel_modeset_affected_pipes. -/
def disablePipe (r : SetModeRequest h m) : Bool := (s.crtcs c).enabled && !inUse r.staged c

/-- Whether the request's own pipe is prepared and set; no other is. -/
def modesetPipe (r : SetModeRequest h m) : Bool :=
  ((s.crtcs r.crtc).enabled || r.changed) && !s.disablePipe r.crtc r

/-- All that __intel_set_mode disables. -/
def disablePipes (r : SetModeRequest h m) : DisplayState h m :=
  let s' := ((List.finRange h.numPipes).filter fun c => s.disablePipe c r).foldl
    intelCrtcDisable s
  if s.modesetPipe r && (s'.crtcs r.crtc).enabled then s'.ironlakeCrtcDisable r.crtc else s'

/-- intel_modeset_update_state. -/
def updateState (encoders : Fin m → Option (Fin h.numPipes)) : DisplayState h m :=
  { s with
    encoders := encoders
    crtcs := fun c => { s.crtcs c with enabled := inUse encoders c } }

/-- The new pipe config, which keeps the PLL. -/
def setPipeConfig (hasPchEncoder : Bool) : DisplayState h m :=
  s.setCrtc c { s.crtcs c with hasPchEncoder := hasPchEncoder, dpllHwState := {} }

/-- What __intel_set_mode does before it sets the mode of the request's crtc. -/
def prepareMode (r : SetModeRequest h m) (hasPchEncoder : Bool) : DisplayState h m :=
  ((s.disablePipes r).setPipeConfig r.crtc hasPchEncoder).updateState r.staged

/-- __intel_set_mode. -/
def intelSetMode (r : SetModeRequest h m) : ℤ × DisplayState h m :=
  if s.modesetPipe r then
    match r.pipeConfig with
    | none => (Errno.eInval, s)
    | some hasPchEncoder =>
      let res := (s.prepareMode r hasPchEncoder).ironlakeCrtcModeSet r.crtc r.outcome
      if res.1 ≠ 0 then res else (0, res.2.ironlakeCrtcEnable r.crtc)
  else (0, (s.disablePipes r).updateState r.staged)

end DisplayState

/-! ### Runs -/

inductive DisplayAction (h : Pch) (m : ℕ) where
  | setMode (r : DisplayState.SetModeRequest h m)
  /-- intel_crtc_update_dpms of the crtc of some encoder. -/
  | updateDpms (c : Fin h.numPipes) (enable : Bool)

variable (s : DisplayState h m)

/-- The outputs that change lead to a crtc, before or after. -/
def DisplayAction.Enabled : DisplayAction h m → Prop
  | .setMode r => r.changed = true →
    DisplayState.inUse s.encoders r.crtc = true ∨ DisplayState.inUse r.staged r.crtc = true
  | .updateDpms c _ => DisplayState.inUse s.encoders c = true

def DisplayAction.apply : DisplayAction h m → DisplayState h m
  | .setMode r => (s.intelSetMode r).2
  | .updateDpms c enable => if enable then s.ironlakeCrtcEnable c else s.ironlakeCrtcDisable c

/-- A display with all crtcs and PLLs off; the registers hold anything. -/
def displaySystem (h : Pch) (m : ℕ) : System (DisplayState h m) (DisplayAction h m) where
  init s := (∀ c, s.crtcs c = {}) ∧ (∀ i, s.plls i = { regs := (s.plls i).regs }) ∧
    (∀ e, s.encoders e = none) ∧ s.rewritten = false
  step s a s' := a.Enabled s ∧ s' = a.apply s

/-- The counts of every PLL are right, it is on when some crtc is active on it, the crtcs that are
assigned to it require the same, and its registers were left alone while it was in use. -/
structure PllsOk : Prop where
  refs : ∀ i, (s.plls i).refcount =
    census fun c => (s.crtcs c).enabled && decide ((s.crtcs c).sharedDpll = some i)
  acts : ∀ i, (s.plls i).active =
    census fun c => (s.crtcs c).active && decide ((s.crtcs c).sharedDpll = some i)
  isOn : ∀ i, (s.plls i).isOn = true ↔ 0 < (s.plls i).active
  same : ∀ i c c', (s.crtcs c).sharedDpll = some i → (s.crtcs c').sharedDpll = some i →
    (s.crtcs c).dpllHwState = (s.crtcs c').dpllHwState
  kept : s.rewritten = false

end GfxDrm.Dpll
