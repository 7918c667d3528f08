import GfxDrm.Errno
import GfxDrm.Modes.Defs

/-! Setting a configuration with the crtc helper (drm_crtc_helper.c). -/

namespace GfxDrm.CrtcHelper
open Errno Function

/-- What of struct drm_crtc the helper keeps. -/
structure Crtc where
  enabled : Bool := false
  mode : DrmDisplayMode := {}
  hwmode : DrmDisplayMode := {}
  x : ℕ := 0
  y : ℕ := 0
  fb : Option DrmFramebuffer := none
  deriving DecidableEq, Repr

structure Encoder (n : ℕ) where
  possibleCrtcs : ℕ
  crtc : Option (Fin n) := none
  deriving DecidableEq, Repr

/-- A connector; `disconnected` is connector_status_disconnected. -/
structure Connector (m : ℕ) where
  encoder : Option (Fin m) := none
  disconnected : Bool := false
  deriving DecidableEq, Repr

/-- Crtcs, encoders and connectors, in the order of their lists. -/
structure ModeConfig (n m k : ℕ) where
  crtcs : Fin n → Crtc := fun _ => {}
  encoders : Fin m → Encoder n
  connectors : Fin k → Connector m := fun _ => {}

/-- struct drm_mode_set, as the upper layers make it. -/
structure DrmModeSet (n k : ℕ) where
  crtc : Fin n
  fb : Option DrmFramebuffer
  mode : Option DrmDisplayMode
  x : ℕ := 0
  y : ℕ := 0
  connectors : List (Fin k)
  hmode : fb ≠ none → mode ≠ none
  hconnectors : fb = none ↔ connectors = []

/-- What the callbacks of a mode set return: whether there is memory for the adjusted mode, whether
encoders and crtc fix the mode up, what mode_set returns and what the mode is adjusted to. -/
structure SetModeOutcome (m : ℕ) where
  alloc : Bool := true
  encoderFixup : Fin m → Bool := fun _ => true
  crtcFixup : Bool := true
  modeSet : ℤ := 0
  adjusted : DrmDisplayMode := {}

/-- What drm_crtc_helper_set_config meets: memory, the connectors' best_encoder, whether the crtc has
a mode_set_base and what it returns, the mode set, and the one that is to restore the
configuration. -/
structure SetConfigOutcome (m k : ℕ) where
  alloc : Bool := true
  bestEncoder : Fin k → Option (Fin m)
  hasModeSetBase : Bool := true
  modeSetBase : ℤ := 0
  setMode : SetModeOutcome m := {}
  restore : SetModeOutcome m := {}

variable {n m k : ℕ}

instance (set : DrmModeSet n k) (j : Fin k) : Decidable (j ∈ set.connectors) :=
  decidable_of_iff (set.connectors.contains j = true) List.contains_iff_mem

namespace ModeConfig

variable (s : ModeConfig n m k) (c : Fin n)

def setCrtc (x : Crtc) : ModeConfig n m k := { s with crtcs := update s.crtcs c x }

def setEncoderCrtc (e : Fin m) (crtc : Option (Fin n)) : ModeConfig n m k :=
  { s with encoders := update s.encoders e { s.encoders e with crtc := crtc } }

/-- The crtc of a connector's encoder. -/
def route (j : Fin k) : Option (Fin n) :=
  (s.connectors j).encoder.bind fun e => (s.encoders e).crtc

/-- drm_helper_encoder_in_use. -/
def drmHelperEncoderInUse (e : Fin m) : Bool := decide (∃ j, (s.connectors j).encoder = some e)

/-- drm_helper_crtc_in_use. -/
def drmHelperCrtcInUse : Bool :=
  decide (∃ e, (s.encoders e).crtc = some c ∧ s.drmHelperEncoderInUse e = true)

/-- drm_helper_disable_unused_functions. -/
def drmHelperDisableUnusedFunctions : ModeConfig n m k :=
  let s := { s with
    connectors := fun j =>
      if (s.connectors j).disconnected then { s.connectors j with encoder := none }
      else s.connectors j }
  let s := { s with
    encoders := fun e =>
      if s.drmHelperEncoderInUse e then s.encoders e else { s.encoders e with crtc := none } }
  { s with
    crtcs := fun i =>
      if s.drmHelperCrtcInUse i then { s.crtcs i with enabled := true }
      else { s.crtcs i with enabled := false, fb := none } }

/-- drm_encoder_crtc_ok. -/
def drmEncoderCrtcOk (e : Fin m) : Bool := (s.encoders e).possibleCrtcs.testBit c

/-- The callbacks of a mode set all agree. -/
def accepts (o : SetModeOutcome m) : Bool :=
  decide (∀ e, (s.encoders e).crtc = some c → o.encoderFixup e = true) && o.crtcFixup &&
    decide (o.modeSet = 0)

/-- drm_crtc_helper_set_mode. -/
def drmCrtcHelperSetMode (mode : DrmDisplayMode) (x y : ℕ) (o : SetModeOutcome m) :
    Bool × ModeConfig n m k :=
  let s := s.setCrtc c { s.crtcs c with enabled := s.drmHelperCrtcInUse c }
  if !(s.crtcs c).enabled then (true, s)
  else if !o.alloc then (false, s)
  else
    let saved := s.crtcs c
    let s := s.setCrtc c { s.crtcs c with mode := mode, x := x, y := y }
    if s.accepts c o then (true, s.setCrtc c { s.crtcs c with hwmode := o.adjusted })
    else
      (false, s.setCrtc c { s.crtcs c with
        hwmode := saved.hwmode
        mode := saved.mode
        x := saved.x
        y := saved.y })

/-- drm_crtc_helper_disable. -/
def drmCrtcHelperDisable : ModeConfig n m k :=
  let s := { s with
    connectors := fun j =>
      if s.route j = some c then { s.connectors j with encoder := none } else s.connectors j }
  s.drmHelperDisableUnusedFunctions

end ModeConfig

/-! ### drm_crtc_helper_set_config -/

/-- The loops over the connectors: what they have found and what they have made of the links. -/
structure Scan (n m k : ℕ) where
  fail : Bool := false
  modeChanged : Bool
  config : ModeConfig n m k

namespace Scan

variable (set : DrmModeSet n k)

/-- A connector of the request gets its best encoder. -/
def pickEncoder (bestEncoder : Fin k → Option (Fin m)) (x : Scan n m k) (j : Fin k) : Scan n m k :=
  let s := x.config
  let encoder := (s.connectors j).encoder
  let newEncoder := if j ∈ set.connectors then bestEncoder j else encoder
  let x := { x with fail := x.fail || decide (j ∈ set.connectors ∧ bestEncoder j = none) }
  if newEncoder ≠ encoder then
    -- the appropriate crtc is to be set later
    let s := match encoder with
      | none => s
      | some e => s.setEncoderCrtc e none
    { x with
      modeChanged := true
      config := { s with
        connectors := update s.connectors j { s.connectors j with encoder := newEncoder } } }
  else x

/-- The connectors' encoders get their crtcs, as long as they fit. -/
def assignCrtcs : List (Fin k) → Scan n m k → Scan n m k
  | [], x => x
  | j :: l, x =>
    let s := x.config
    match (s.connectors j).encoder with
    | none => assignCrtcs l x
    | some e =>
      let crtc := (s.encoders e).crtc
      let newCrtc :=
        if j ∈ set.connectors then some set.crtc
        else if crtc = some set.crtc then none
        else crtc
      if newCrtc.any fun c => !s.drmEncoderCrtcOk c e then { x with fail := true }
      else if newCrtc ≠ crtc then
        assignCrtcs l { x with modeChanged := true, config := s.setEncoderCrtc e newCrtc }
      else assignCrtcs l x

end Scan

namespace ModeConfig

variable (s : ModeConfig n m k)

/-- What of the crtc a request changes, as `mode_changed` and `fb_changed`. -/
def crtcChanges (set : DrmModeSet n k) : Bool × Bool :=
  let crtc := s.crtcs set.crtc
  let changed : Bool × Bool :=
    if crtc.fb ≠ set.fb then
      match crtc.fb, set.fb with
      | none, _ | _, none => (true, false)
      | some old, some fb =>
        if fb.pixelFormat ≠ old.pixelFormat then (true, false) else (false, true)
    else (false, false)
  (changed.1 || set.mode.any fun mode => !drmModeEqual mode crtc.mode,
    changed.2 || decide (set.x ≠ crtc.x) || decide (set.y ≠ crtc.y))

/-- The `fail` label: everything is what it was saved as, and the crtc's mode is set again. -/
def fail (set : DrmModeSet n k) (modeChanged : Bool) (o : SetConfigOutcome m k) :
    ModeConfig n m k :=
  let x := s.crtcs set.crtc
  if modeChanged then (s.drmCrtcHelperSetMode set.crtc x.mode x.x x.y o.restore).2 else s

/-- drm_crtc_helper_set_config. -/
def drmCrtcHelperSetConfig (set : DrmModeSet n k) (o : SetConfigOutcome m k) :
    ℤ × ModeConfig n m k :=
  match set.mode, set.fb with
  | none, _ | _, none => (0, s.drmCrtcHelperDisable set.crtc)
  | some mode, some fb =>
    if !o.alloc then (eNomem, s)
    else
      let changes := s.crtcChanges set
      let picked := (List.finRange k).foldl (Scan.pickEncoder set o.bestEncoder)
        { modeChanged := changes.1, config := s }
      if picked.fail then (eInval, s.fail set picked.modeChanged o)
      else
        let assigned := Scan.assignCrtcs set (List.finRange k) picked
        if assigned.fail then (eInval, s.fail set assigned.modeChanged o)
        else
          let modeChanged := assigned.modeChanged || (changes.2 && !o.hasModeSetBase)
          let t := assigned.config
          if modeChanged then
            let t := t.setCrtc set.crtc
              { t.crtcs set.crtc with enabled := t.drmHelperCrtcInUse set.crtc }
            if !(t.crtcs set.crtc).enabled then (0, t.drmHelperDisableUnusedFunctions)
            else
              let t := t.setCrtc set.crtc { t.crtcs set.crtc with fb := some fb }
              let res := t.drmCrtcHelperSetMode set.crtc mode set.x set.y o.setMode
              if !res.1 then (eInval, s.fail set modeChanged o)
              else (0, res.2.drmHelperDisableUnusedFunctions)
          else if changes.2 then
            if o.modeSetBase ≠ 0 then (o.modeSetBase, s.fail set modeChanged o)
            else
              (0, t.setCrtc set.crtc
                { t.crtcs set.crtc with fb := some fb, x := set.x, y := set.y })
          else (0, t)

end ModeConfig

/-! What a request to the crtc helper restores when it fails, and what it routes when it does not. -/

open ModeConfig

variable {n m k : ℕ} {s t : ModeConfig n m k} {c i : Fin n} {e : Fin m} {j : Fin k}
  {set : DrmModeSet n k} {o : SetConfigOutcome m k} {x y : Scan n m k}

/-! ### Links and crtcs -/

@[simp] theorem setCrtc_self (s : ModeConfig n m k) (c : Fin n) (z : Crtc) :
    (s.setCrtc c z).crtcs c = z := update_self ..

@[simp] theorem setCrtc_setCrtc (s : ModeConfig n m k) (c : Fin n) (z z' : Crtc) :
    (s.setCrtc c z).setCrtc c z' = s.setCrtc c z' := by
  unfold ModeConfig.setCrtc
  rw [update_idem]

/-- A mode set changes its crtc only: it may switch it off, and where it fails nothing else changes. -/
theorem setMode_eq (s : ModeConfig n m k) (c : Fin n) (mode : DrmDisplayMode) (x y : ℕ)
    (o : SetModeOutcome m) : s.drmCrtcHelperSetMode c mode x y o =
      if s.drmHelperCrtcInUse c = false then
        (true, s.setCrtc c { s.crtcs c with enabled := false })
      else if o.alloc = true ∧ s.accepts c o = true then
        (true, s.setCrtc c { s.crtcs c with
          enabled := true
          mode := mode
          x := x
          y := y
          hwmode := o.adjusted })
      else (false, s.setCrtc c { s.crtcs c with enabled := true }) := by
  unfold drmCrtcHelperSetMode
  cases huse : s.drmHelperCrtcInUse c with
  | false => simp
  | true =>
    have haccepts : ∀ z, (s.setCrtc c z).accepts c o = s.accepts c o := fun _ => rfl
    cases halloc : o.alloc <;> cases hok : s.accepts c o <;> simp [hok, haccepts]

/-- Disconnected connectors lose their encoders. -/
theorem disableUnused_encoder (s : ModeConfig n m k) (j : Fin k) :
    (s.drmHelperDisableUnusedFunctions.connectors j).encoder =
      if (s.connectors j).disconnected = true then none else (s.connectors j).encoder := by
  unfold drmHelperDisableUnusedFunctions
  dsimp only
  split <;> rfl

/-- An encoder in use keeps its crtc. -/
theorem disableUnused_crtc
    (hused : (s.drmHelperDisableUnusedFunctions.connectors j).encoder = some e) :
    (s.drmHelperDisableUnusedFunctions.encoders e).crtc = (s.encoders e).crtc :=
  congrArg Encoder.crtc (if_pos (decide_eq_true ⟨j, hused⟩))

theorem disableUnused_route (s : ModeConfig n m k) (j : Fin k) :
    s.drmHelperDisableUnusedFunctions.route j =
      if (s.connectors j).disconnected = true then none else s.route j := by
  have hencoder := disableUnused_encoder s j
  unfold ModeConfig.route
  by_cases hgone : (s.connectors j).disconnected = true
  · rw [if_pos hgone] at hencoder ⊢
    rw [hencoder]
    rfl
  · rw [if_neg hgone] at hencoder ⊢
    rw [hencoder]
    cases hj : (s.connectors j).encoder with
    | none => rfl
    | some e => exact disableUnused_crtc (hencoder.trans hj)

/-! ### Failures -/

/-- A request calls for a full mode set: another mode or framebuffer, a crtc without mode_set_base, or
another route for some connector. -/
def ModeConfig.CallsForModeSet (s : ModeConfig n m k) (set : DrmModeSet n k)
    (o : SetConfigOutcome m k) : Prop :=
  (s.crtcChanges set).1 = true ∨
    ((s.crtcChanges set).2 = true ∧ o.hasModeSetBase = false) ∨
    (∃ j, j ∈ set.connectors ∧
      (o.bestEncoder j ≠ (s.connectors j).encoder ∨ s.route j ≠ some set.crtc)) ∨
    ∃ j, j ∉ set.connectors ∧ s.route j = some set.crtc

/-- A failed request leaves all as it was, but for what setting the crtc's mode again stores. -/
structure Restored (s t : ModeConfig n m k) (set : DrmModeSet n k) (o : SetConfigOutcome m k) :
    Prop where
  uncalled : ¬ s.CallsForModeSet set o → t = s
  connectors : t.connectors = s.connectors
  encoders : t.encoders = s.encoders
  others : ∀ i, i ≠ set.crtc → t.crtcs i = s.crtcs i
  mode : (t.crtcs set.crtc).mode = (s.crtcs set.crtc).mode
  x : (t.crtcs set.crtc).x = (s.crtcs set.crtc).x
  y : (t.crtcs set.crtc).y = (s.crtcs set.crtc).y
  fb : (t.crtcs set.crtc).fb = (s.crtcs set.crtc).fb
  enabled : (t.crtcs set.crtc).enabled = (s.crtcs set.crtc).enabled ∨
    (t.crtcs set.crtc).enabled = s.drmHelperCrtcInUse set.crtc
  hwmode : (t.crtcs set.crtc).hwmode = (s.crtcs set.crtc).hwmode ∨
    s.drmHelperCrtcInUse set.crtc = true ∧ s.accepts set.crtc o.restore = true ∧
      (t.crtcs set.crtc).hwmode = o.restore.adjusted

theorem Restored.refl (s : ModeConfig n m k) (set : DrmModeSet n k) (o : SetConfigOutcome m k) :
    Restored s s set o :=
  ⟨fun _ => rfl, rfl, rfl, fun _ _ => rfl, rfl, rfl, rfl, rfl, .inl rfl, .inl rfl⟩

theorem fail_restored {modeChanged : Bool} (hcalls : modeChanged = true → s.CallsForModeSet set o) :
    Restored s (s.fail set modeChanged o) set o := by
  unfold ModeConfig.fail
  dsimp only
  cases modeChanged with
  | false => exact .refl ..
  | true =>
    have hcalled : ∀ t, ¬ s.CallsForModeSet set o → t = s := fun _ hnot =>
      (hnot (hcalls rfl)).elim
    have hother : ∀ z i, i ≠ set.crtc → (s.setCrtc set.crtc z).crtcs i = s.crtcs i :=
      fun z i hne => update_of_ne hne ..
    rw [setMode_eq]
    by_cases huse : s.drmHelperCrtcInUse set.crtc = false
    · rw [if_pos huse]
      refine ⟨hcalled _, rfl, rfl, hother _, ?_, ?_, ?_, ?_, .inr ?_, .inl ?_⟩ <;> simp [huse]
    rw [if_neg huse]
    rw [Bool.not_eq_false] at huse
    by_cases hok : o.restore.alloc = true ∧ s.accepts set.crtc o.restore = true
    · rw [if_pos hok]
      refine ⟨hcalled _, rfl, rfl, hother _, ?_, ?_, ?_, ?_, .inr ?_, .inr ⟨huse, hok.2, ?_⟩⟩ <;>
        simp [huse]
    · rw [if_neg hok]
      refine ⟨hcalled _, rfl, rfl, hother _, ?_, ?_, ?_, ?_, .inr ?_, .inl ?_⟩ <;> simp [huse]

/-! ### Picking encoders -/

/-- The connectors of a list have got their encoders, and a mode set is called for unless nothing has
changed. -/
structure Picked (s : ModeConfig n m k) (set : DrmModeSet n k) (o : SetConfigOutcome m k)
    (l : List (Fin k)) (x : Scan n m k) : Prop where
  encoder : ∀ j, (x.config.connectors j).encoder =
    if j ∈ l ∧ j ∈ set.connectors then o.bestEncoder j else (s.connectors j).encoder
  disconnected : ∀ j, (x.config.connectors j).disconnected = (s.connectors j).disconnected
  found : x.fail = false → ∀ j ∈ l, j ∈ set.connectors → o.bestEncoder j ≠ none
  calls : s.CallsForModeSet set o ∨ x.modeChanged = false ∧ x.config = s

variable {l : List (Fin k)}

theorem Picked.step (h : Picked s set o l x) (j : Fin k) :
    Picked s set o (j :: l) (x.pickEncoder set o.bestEncoder j) := by
  have hold := h.encoder j
  by_cases hnew : (if j ∈ set.connectors then o.bestEncoder j else (x.config.connectors j).encoder) =
      (x.config.connectors j).encoder
  · -- the encoder stays
    have hstep : x.pickEncoder set o.bestEncoder j =
        { x with fail := x.fail || decide (j ∈ set.connectors ∧ o.bestEncoder j = none) } := by
      unfold Scan.pickEncoder
      rw [if_neg (not_not.mpr hnew)]
    rw [hstep]
    refine ⟨fun j' => ?_, h.disconnected, fun hf j' hj' hmem => ?_, h.calls⟩
    · by_cases hj : j' = j
      · subst hj
        by_cases hmem : j' ∈ set.connectors
        · rw [if_pos hmem] at hnew
          rw [if_pos ⟨List.mem_cons_self, hmem⟩]
          exact hnew.symm
        · rw [if_neg fun hin => hmem hin.2]
          exact hold.trans (if_neg fun hin => hmem hin.2)
      · simpa only [List.mem_cons, hj, false_or] using h.encoder j'
    · rw [Bool.or_eq_false_iff, decide_eq_false_iff_not] at hf
      rcases List.mem_cons.mp hj' with rfl | hj'
      · exact fun hnone => hf.2 ⟨hmem, hnone⟩
      · exact h.found hf.1 j' hj' hmem
  · -- another encoder: only a connector of the request gets one
    have hmem : j ∈ set.connectors := by
      by_contra hnot
      exact hnew (if_neg hnot)
    rw [if_pos hmem] at hnew
    obtain ⟨t, ht, hstep⟩ : ∃ t : ModeConfig n m k, t.connectors = x.config.connectors ∧
        x.pickEncoder set o.bestEncoder j =
          ⟨x.fail || decide (j ∈ set.connectors ∧ o.bestEncoder j = none), true, { t with
            connectors := update t.connectors j
              { t.connectors j with encoder := o.bestEncoder j } }⟩ := by
      cases hj : (x.config.connectors j).encoder with
      | none =>
        refine ⟨x.config, rfl, ?_⟩
        simp [Scan.pickEncoder, hmem, hj, hj ▸ hnew]
      | some e =>
        refine ⟨x.config.setEncoderCrtc e none, rfl, ?_⟩
        simp [Scan.pickEncoder, hmem, hj, hj ▸ hnew]
    rw [hstep]
    refine ⟨fun j' => ?_, fun j' => ?_, fun hf j' hj' hin => ?_, .inl ?_⟩
    · show (update t.connectors j { t.connectors j with encoder := o.bestEncoder j } j').encoder = _
      by_cases hj : j' = j
      · subst hj
        rw [update_self, if_pos ⟨List.mem_cons_self, hmem⟩]
      · rw [update_of_ne hj, ht, h.encoder j']
        simp only [List.mem_cons, hj, false_or]
    · show (update t.connectors j _ j').disconnected = _
      by_cases hj : j' = j
      · subst hj
        rw [update_self, ht]
        exact h.disconnected j'
      · rw [update_of_ne hj, ht]
        exact h.disconnected j'
    · rw [Bool.or_eq_false_iff, decide_eq_false_iff_not] at hf
      rcases List.mem_cons.mp hj' with rfl | hj'
      · exact fun hnone => hf.2 ⟨hin, hnone⟩
      · exact h.found hf.1 j' hj' hin
    · rcases h.calls with hcalls | ⟨-, hconfig⟩
      · exact hcalls
      · rw [hconfig] at hnew
        exact .inr (.inr (.inl ⟨j, hmem, .inl hnew⟩))

theorem Picked.foldl (h : Picked s set o l x) (l' : List (Fin k)) :
    Picked s set o (l'.reverse ++ l) (l'.foldl (Scan.pickEncoder set o.bestEncoder) x) := by
  induction l' generalizing l x with
  | nil => exact h
  | cons j l' ih =>
    have hnext := ih (h.step j)
    rwa [List.append_cons, ← List.reverse_cons] at hnext

/-! ### Assigning crtcs -/

/-- An encoder that a connector of the request is to have is in use by one outside of it. -/
def ModeConfig.Reused (s : ModeConfig n m k) (set : DrmModeSet n k) (o : SetConfigOutcome m k)
    (e : Fin m) : Prop :=
  (∃ j, j ∈ set.connectors ∧ o.bestEncoder j = some e) ∧
    ∃ j, j ∉ set.connectors ∧ (s.connectors j).encoder = some e

/-- Connectors of the encoder all belong to the request or none does. -/
def ModeConfig.Split (p : ModeConfig n m k) (set : DrmModeSet n k) (e : Fin m) : Prop :=
  ∀ j j', (p.connectors j).encoder = some e → (p.connectors j').encoder = some e →
    j ∈ set.connectors → j' ∈ set.connectors

/-- The connectors of a list are on the crtc of the request if they belong to it, and off it if not. -/
structure Assigned (p : ModeConfig n m k) (set : DrmModeSet n k) (l : List (Fin k))
    (t : ModeConfig n m k) : Prop where
  connectors : t.connectors = p.connectors
  crtc : ∀ j ∈ l, ∀ e, p.Split set e → (p.connectors j).encoder = some e →
    ((t.encoders e).crtc = some set.crtc ↔ j ∈ set.connectors)

/-- The crtc that a connector's encoder is to have. -/
def newCrtc (set : DrmModeSet n k) (j : Fin k) (crtc : Option (Fin n)) : Option (Fin n) :=
  if j ∈ set.connectors then some set.crtc else if crtc = some set.crtc then none else crtc

theorem newCrtc_iff (set : DrmModeSet n k) (j : Fin k) (crtc : Option (Fin n)) :
    newCrtc set j crtc = some set.crtc ↔ j ∈ set.connectors := by
  unfold newCrtc
  by_cases hmem : j ∈ set.connectors
  · simp [hmem]
  · by_cases hcrtc : crtc = some set.crtc <;> simp [hmem]

theorem Assigned.step {p : ModeConfig n m k} (h : Assigned p set l t)
    (he : (p.connectors j).encoder = some e) :
    Assigned p set (j :: l) (t.setEncoderCrtc e (newCrtc set j (t.encoders e).crtc)) := by
  refine ⟨h.connectors, fun j' hj' e' hsplit he' => ?_⟩
  show (update t.encoders e _ e').crtc = _ ↔ _
  by_cases heq : e' = e
  · subst heq
    rw [update_self]
    have hsame : j ∈ set.connectors ↔ j' ∈ set.connectors :=
      ⟨hsplit j j' he he', hsplit j' j he' he⟩
    exact (newCrtc_iff ..).trans hsame
  · rw [update_of_ne heq]
    rcases List.mem_cons.mp hj' with rfl | hj'
    · exact absurd (Option.some.inj (he'.symm.trans he)) heq
    · exact h.crtc j' hj' e' hsplit he'

theorem setEncoderCrtc_self (t : ModeConfig n m k) (e : Fin m) :
    t.setEncoderCrtc e (t.encoders e).crtc = t := by
  unfold ModeConfig.setEncoderCrtc
  rw [update_eq_self]

/-- What is done for a connector with an encoder. -/
theorem assignCrtcs_cons (l : List (Fin k)) (he : (x.config.connectors j).encoder = some e) :
    Scan.assignCrtcs set (j :: l) x =
      if (newCrtc set j (x.config.encoders e).crtc).any fun c => !x.config.drmEncoderCrtcOk c e then
        { x with fail := true }
      else if newCrtc set j (x.config.encoders e).crtc ≠ (x.config.encoders e).crtc then
        Scan.assignCrtcs set l { x with
          modeChanged := true
          config := x.config.setEncoderCrtc e (newCrtc set j (x.config.encoders e).crtc) }
      else Scan.assignCrtcs set l x := by
  simp only [Scan.assignCrtcs, he]
  rfl

theorem assignCrtcs_assigned {p : ModeConfig n m k} (h : Assigned p set l x.config)
    (l' : List (Fin k)) (hok : (Scan.assignCrtcs set l' x).fail = false) :
    Assigned p set (l'.reverse ++ l) (Scan.assignCrtcs set l' x).config := by
  induction l' generalizing l x with
  | nil => exact h
  | cons j l' ih =>
    rw [List.reverse_cons, ← List.append_cons]
    cases he : (x.config.connectors j).encoder with
    | none =>
      have hnext : Scan.assignCrtcs set (j :: l') x = Scan.assignCrtcs set l' x := by
        simp only [Scan.assignCrtcs, he]
      rw [hnext] at hok ⊢
      refine ih ⟨h.connectors, fun j' hj' e' hsplit he' => ?_⟩ hok
      rcases List.mem_cons.mp hj' with rfl | hj'
      · rw [h.connectors, he'] at he
        cases he
      · exact h.crtc j' hj' e' hsplit he'
    | some e =>
      have hnext := h.step (h.connectors ▸ he)
      rw [assignCrtcs_cons l' he] at hok ⊢
      by_cases hfit : ((newCrtc set j (x.config.encoders e).crtc).any fun c =>
          !x.config.drmEncoderCrtcOk c e) = true
      · rw [if_pos hfit] at hok
        cases hok
      rw [if_neg hfit] at hok ⊢
      by_cases hnew : newCrtc set j (x.config.encoders e).crtc ≠ (x.config.encoders e).crtc
      · rw [if_pos hnew] at hok ⊢
        exact ih hnext hok
      · rw [if_neg hnew] at hok ⊢
        rw [not_not.mp hnew, setEncoderCrtc_self] at hnext
        exact ih hnext hok

theorem assignCrtcs_connectors (l : List (Fin k)) (x : Scan n m k) :
    (Scan.assignCrtcs set l x).config.connectors = x.config.connectors := by
  induction l generalizing x with
  | nil => rfl
  | cons j l ih =>
    cases he : (x.config.connectors j).encoder with
    | none =>
      simp only [Scan.assignCrtcs, he]
      exact ih x
    | some e =>
      rw [assignCrtcs_cons l he]
      split
      · rfl
      split
      · exact ih _
      · exact ih x

/-- A crtc assigned anew calls for a mode set. -/
theorem assignCrtcs_calls
    (h : s.CallsForModeSet set o ∨ x.modeChanged = false ∧ x.config = s) (l : List (Fin k)) :
    s.CallsForModeSet set o ∨ (Scan.assignCrtcs set l x).modeChanged = false ∧
      (Scan.assignCrtcs set l x).config = s := by
  induction l generalizing x with
  | nil => exact h
  | cons j l ih =>
    rcases h with hcalls | ⟨hunchanged, hconfig⟩
    · exact .inl hcalls
    cases he : (x.config.connectors j).encoder with
    | none =>
      have hnext : Scan.assignCrtcs set (j :: l) x = Scan.assignCrtcs set l x := by
        simp only [Scan.assignCrtcs, he]
      rw [hnext]
      exact ih (.inr ⟨hunchanged, hconfig⟩)
    | some e =>
      rw [assignCrtcs_cons l he]
      by_cases hfit : ((newCrtc set j (x.config.encoders e).crtc).any fun c =>
          !x.config.drmEncoderCrtcOk c e) = true
      · rw [if_pos hfit]
        exact .inr ⟨hunchanged, hconfig⟩
      rw [if_neg hfit]
      by_cases hnew : newCrtc set j (x.config.encoders e).crtc ≠ (x.config.encoders e).crtc
      · rw [hconfig] at he hnew
        have hroute : s.route j = (s.encoders e).crtc := by
          unfold ModeConfig.route
          rw [he]
          rfl
        refine .inl (.inr (.inr ?_))
        rw [← hroute] at hnew
        unfold newCrtc at hnew
        by_cases hmem : j ∈ set.connectors
        · rw [if_pos hmem] at hnew
          exact .inl ⟨j, hmem, .inr hnew.symm⟩
        · rw [if_neg hmem] at hnew
          by_cases hcrtc : s.route j = some set.crtc
          · exact .inr ⟨j, hmem, hcrtc⟩
          · exact absurd (if_neg hcrtc) hnew
      · rw [if_neg hnew]
        exact ih (.inr ⟨hunchanged, hconfig⟩)

/-! ### Routes -/

/-- A successful request has its connectors on its crtc, unless they are disconnected and left without
an encoder, and no others, and makes none share an encoder but those that are to have the same one; of
encoders in use outside the request this says nothing. -/
structure Routed (s t : ModeConfig n m k) (set : DrmModeSet n k) (o : SetConfigOutcome m k) :
    Prop where
  requested : ∀ j ∈ set.connectors, (∀ e, o.bestEncoder j = some e → ¬ s.Reused set o e) →
    t.route j = some set.crtc ∨
      (s.connectors j).disconnected = true ∧ (t.connectors j).encoder = none
  others : ∀ j, j ∉ set.connectors →
    (∀ e, (s.connectors j).encoder = some e → ¬ s.Reused set o e) → t.route j ≠ some set.crtc
  shared : ∀ j j' e, (t.connectors j).encoder = some e → (t.connectors j').encoder = some e →
    ¬ s.Reused set o e →
    (j ∈ set.connectors ∧ j' ∈ set.connectors ∧ o.bestEncoder j = o.bestEncoder j') ∨
      (s.connectors j).encoder = (s.connectors j').encoder

theorem Routed.disableUnused (h : Routed s t set o)
    (hdisc : ∀ j, (t.connectors j).disconnected = (s.connectors j).disconnected) :
    Routed s t.drmHelperDisableUnusedFunctions set o := by
  have hkept : ∀ {j e}, (t.drmHelperDisableUnusedFunctions.connectors j).encoder = some e →
      (t.connectors j).encoder = some e := fun {j e} he => by
    rw [disableUnused_encoder] at he
    by_cases hgone : (t.connectors j).disconnected = true
    · rw [if_pos hgone] at he
      cases he
    · rwa [if_neg hgone] at he
  refine ⟨fun j hj hown => ?_, fun j hj hown => ?_,
    fun j j' e he he' => h.shared j j' e (hkept he) (hkept he')⟩
  · rw [disableUnused_route, disableUnused_encoder, ← hdisc]
    by_cases hgone : (t.connectors j).disconnected = true
    · rw [if_pos hgone, if_pos hgone]
      exact .inr ⟨hgone, rfl⟩
    · rw [if_neg hgone, if_neg hgone, hdisc]
      exact h.requested j hj hown
  · rw [disableUnused_route]
    split
    · exact fun hnone => nomatch hnone
    · exact h.others j hj hown

theorem Picked.split (h : Picked s set o l x) (hall : ∀ j, j ∈ l) (hown : ¬ s.Reused set o e) :
    x.config.Split set e := fun j j' he he' hmem => by
  by_contra hnot
  rw [h.encoder, if_pos ⟨hall j, hmem⟩] at he
  rw [h.encoder, if_neg fun hin => hnot hin.2] at he'
  exact hown ⟨⟨j, hmem, he⟩, j', hnot, he'⟩

theorem Picked.routed {l l' : List (Fin k)} (h : Picked s set o l x) (hall : ∀ j, j ∈ l)
    (hfound : x.fail = false) (hassigned : Assigned x.config set l' t) (hall' : ∀ j, j ∈ l') :
    Routed s t set o := by
  have hroute : ∀ j e, (x.config.connectors j).encoder = some e →
      t.route j = (t.encoders e).crtc := fun j e he => by
    unfold ModeConfig.route
    rw [hassigned.connectors, he]
    rfl
  refine ⟨fun j hj hown => .inl ?_, fun j hj hown => ?_, fun j j' e he he' hown => ?_⟩
  · obtain ⟨e, he⟩ := Option.ne_none_iff_exists'.mp (h.found hfound j (hall j) hj)
    have hpicked : (x.config.connectors j).encoder = some e := by
      rw [h.encoder, if_pos ⟨hall j, hj⟩, he]
    rw [hroute j e hpicked]
    exact (hassigned.crtc j (hall' j) e (h.split hall (hown e he)) hpicked).mpr hj
  · have hkept : (x.config.connectors j).encoder = (s.connectors j).encoder := by
      rw [h.encoder, if_neg fun hin => hj hin.2]
    cases he : (s.connectors j).encoder with
    | none =>
      unfold ModeConfig.route
      rw [hassigned.connectors, hkept, he]
      exact fun hnone => nomatch hnone
    | some e =>
      rw [hroute j e (hkept.trans he)]
      have hiff := hassigned.crtc j (hall' j) e (h.split hall (hown e he)) (hkept.trans he)
      exact fun hcrtc => hj (hiff.mp hcrtc)
  · rw [hassigned.connectors] at he he'
    have hsplit := h.split hall hown
    by_cases hj : j ∈ set.connectors
    · have hj' := hsplit j j' he he' hj
      rw [h.encoder, if_pos ⟨hall j, hj⟩] at he
      rw [h.encoder, if_pos ⟨hall j', hj'⟩] at he'
      exact .inl ⟨hj, hj', he.trans he'.symm⟩
    · have hj' : j' ∉ set.connectors := fun hmem => hj (hsplit j' j he' he hmem)
      rw [h.encoder, if_neg fun hin => hj hin.2] at he
      rw [h.encoder, if_neg fun hin => hj' hin.2] at he'
      exact .inr (he.trans he'.symm)

/-- Without a framebuffer the crtc is disabled, and nothing is left on it. -/
theorem disable_routed (set : DrmModeSet n k) (o : SetConfigOutcome m k) (hnone : set.fb = none) :
    Routed s (s.drmCrtcHelperDisable set.crtc) set o := by
  have hempty : ∀ j, j ∉ set.connectors := fun j hj => by
    rw [set.hconnectors.mp hnone] at hj
    cases hj
  let t : ModeConfig n m k := { s with
    connectors := fun j =>
      if s.route j = some set.crtc then { s.connectors j with encoder := none }
      else s.connectors j }
  have hencoder : ∀ j, (t.connectors j).encoder =
      if s.route j = some set.crtc then none else (s.connectors j).encoder := fun j => by
    show (if s.route j = some set.crtc then _ else _ : Connector m).encoder = _
    split <;> rfl
  have hroute : ∀ j, t.route j = if s.route j = some set.crtc then none else s.route j := fun j => by
    unfold ModeConfig.route at hencoder ⊢
    rw [hencoder j]
    split <;> rfl
  have hkept : ∀ {j e}, (t.connectors j).encoder = some e → (s.connectors j).encoder = some e :=
    fun {j e} he => by
      rw [hencoder] at he
      by_cases hon : s.route j = some set.crtc
      · rw [if_pos hon] at he
        cases he
      · rwa [if_neg hon] at he
  have hcleared : Routed s t set o := by
    refine ⟨fun j hj => (hempty j hj).elim, fun j _ _ => ?_, fun j j' e he he' _ => .inr ?_⟩
    · rw [hroute j]
      by_cases hon : s.route j = some set.crtc
      · rw [if_pos hon]
        exact fun hnone => nomatch hnone
      · rw [if_neg hon]
        exact hon
    · exact (hkept he).trans (hkept he').symm
  refine hcleared.disableUnused fun j => ?_
  show (if s.route j = some set.crtc then _ else _ : Connector m).disconnected = _
  split <;> rfl

/-! ### A request -/

/-- What a request returns with what it leaves: a failed one the configuration as it was, a successful
one its connectors on its crtc. -/
def Settled (s : ModeConfig n m k) (set : DrmModeSet n k) (o : SetConfigOutcome m k)
    (res : ℤ × ModeConfig n m k) : Prop :=
  (res.1 ≠ 0 → Restored s res.2 set o) ∧ (res.1 = 0 → Routed s res.2 set o)

theorem settled_fail {modeChanged : Bool} {ret : ℤ} (hret : ret ≠ 0)
    (hcalls : modeChanged = true → s.CallsForModeSet set o) :
    Settled s set o (ret, s.fail set modeChanged o) :=
  ⟨fun _ => fail_restored hcalls, fun hzero => (hret hzero).elim⟩

theorem settled_done (h : Routed s t set o) : Settled s set o (0, t) :=
  ⟨fun hne => (hne rfl).elim, fun _ => h⟩

/-- Routes depend on links only. -/
theorem Routed.of_links {t' : ModeConfig n m k} (h : Routed s t set o)
    (hconnectors : t'.connectors = t.connectors) (hencoders : t'.encoders = t.encoders) :
    Routed s t' set o := by
  have hroute : ∀ j, t'.route j = t.route j := fun j => by
    unfold ModeConfig.route
    rw [hconnectors, hencoders]
  refine ⟨fun j hj hown => ?_, fun j hj hown => ?_, fun j j' e he he' => ?_⟩
  · rw [hroute, hconnectors]
    exact h.requested j hj hown
  · rw [hroute]
    exact h.others j hj hown
  · rw [hconnectors] at he he'
    exact h.shared j j' e he he'

theorem setMode_links (t : ModeConfig n m k) (c : Fin n) (mode : DrmDisplayMode) (x y : ℕ)
    (o : SetModeOutcome m) : (t.drmCrtcHelperSetMode c mode x y o).2.connectors = t.connectors ∧
      (t.drmCrtcHelperSetMode c mode x y o).2.encoders = t.encoders := by
  rw [setMode_eq]
  split
  · exact ⟨rfl, rfl⟩
  split
  · exact ⟨rfl, rfl⟩
  · exact ⟨rfl, rfl⟩

/-- The loops over the connectors, as a request runs them. -/
theorem picked_finRange (s : ModeConfig n m k) (set : DrmModeSet n k) (o : SetConfigOutcome m k) :
    Picked s set o (List.finRange k).reverse
      ((List.finRange k).foldl (Scan.pickEncoder set o.bestEncoder)
        { modeChanged := (s.crtcChanges set).1, config := s }) := by
  have hinit : Picked s set o [] { modeChanged := (s.crtcChanges set).1, config := s } := by
    refine ⟨fun j => (if_neg fun hin => List.not_mem_nil hin.1).symm, fun _ => rfl,
      fun _ j hj => (List.not_mem_nil hj).elim, ?_⟩
    cases hchanged : (s.crtcChanges set).1 with
    | true => exact .inl (.inl hchanged)
    | false => exact .inr ⟨rfl, rfl⟩
  have hfold := hinit.foldl (List.finRange k)
  rwa [List.append_nil] at hfold

/-- One crtc and one encoder that it drives. -/
def oneEncoder (connectors : Fin 2 → Connector 1) (enabled : Bool) : ModeConfig 1 1 2 where
  crtcs := fun _ => { enabled := enabled }
  encoders := fun _ => { possibleCrtcs := 1, crtc := some (Fin.last 0) }
  connectors := connectors

/-- A mode for some connectors, on the one crtc. -/
def oneMode (j : Fin 2) (l : List (Fin 2)) : DrmModeSet 1 2 where
  crtc := Fin.last 0
  fb := some ⟨1, 0⟩
  mode := some { clock := 25175 }
  connectors := j :: l
  hmode := fun _ => Option.some_ne_none _
  hconnectors := iff_of_false (Option.some_ne_none _) (List.cons_ne_nil _ _)

/-- Every connector is to have the one encoder. -/
def oneOutcome (modeSet : ℤ) : SetConfigOutcome 1 2 where
  bestEncoder := fun _ => some (Fin.last 0)
  setMode := { modeSet := modeSet }
  restore := { modeSet := modeSet }

end GfxDrm.CrtcHelper
