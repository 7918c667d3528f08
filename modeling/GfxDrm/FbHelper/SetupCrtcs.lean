import GfxDrm.FbHelper.PickCrtcs
import GfxDrm.Lib.Run

/-! The modes that the framebuffer console sets up at each hotplug (drm_setup_crtcs). -/

namespace GfxDrm.FbHelper

open Function Run

/-- What does not change: the crtcs, the connectors a mode_set has room for, the sizes of the
device, what drm_mode_create_from_cmdline_mode makes and the DMT mode of 1024x768 at 60 Hz. -/
structure FbConfig where
  crtcCount : ℕ
  maxConnCount : ℕ
  maxWidth : ℕ
  maxHeight : ℕ
  createMode : CmdlineMode → Option (ℕ → ConnectorMode)
  dmtMode : DrmDisplayMode

/-- struct drm_fb_helper_crtc with its mode_set; `desiredMode` is a pointer, `connectors` the
entries of the array up to num_connectors. -/
structure CrtcInfo where
  desiredMode : Option ℕ := none
  mode : Option DrmDisplayMode := none
  connectors : List ℕ := []
  fb : Bool := false

/-- The connectors and the modes that are being chosen for them; `nextId` is the next pointer. -/
structure Targets where
  connectors : List FbConnector
  nextId : ℕ
  modes : ConnectorModes := fun _ => none

/-! ### The target modes -/

def drmConnectorEnabled (c : FbConnector) (strict : Bool) : Bool :=
  if strict then c.status = .connected else c.status ≠ .disconnected

/-- enabled[i] -/
def drmEnableConnectors (connectors : List FbConnector) (i : ℕ) : Bool :=
  let anyEnabled := connectors.any (drmConnectorEnabled · true)
  (connectors[i]?).any (drmConnectorEnabled · anyEnabled)

/-- Whether a mode of the list is what the command line asks for. -/
def CmdlineMode.matches (cmdline : CmdlineMode) (m : ConnectorMode) : Bool :=
  m.mode.hdisplay = cmdline.xres ∧ m.mode.vdisplay = cmdline.yres ∧
    (cmdline.refreshSpecified → m.vrefresh = cmdline.refresh) ∧
    (cmdline.interlace → m.mode.flags.testBit 4)

/-- The mode for the command line: one of the list, or a new one that is put on the list. -/
def drmPickCmdlineMode (cfg : FbConfig) (c : FbConnector) (nextId : ℕ) :
    Option ConnectorMode × FbConnector :=
  let cmdline := c.cmdlineMode
  if !cmdline.specified then (none, c)
  else
    let found := if cmdline.rb || cmdline.margins then none else c.modes.find? cmdline.matches
    found.elim
      ((cfg.createMode cmdline).elim (none, c) fun create =>
        (some (create nextId), { c with modes := create nextId :: c.modes }))
      fun m => (some m, c)

namespace Targets

/-- modes[i] = drm_pick_cmdline_mode(..) -/
def pickCmdline (cfg : FbConfig) (t : Targets) (i : ℕ) : Targets :=
  (t.connectors[i]?).elim t fun c =>
    let p := drmPickCmdlineMode cfg c t.nextId
    { connectors := t.connectors.set i p.2
      nextId := t.nextId + 1
      modes := update t.modes i p.1 }

/-- modes[i] = mode, where there is one. -/
def setMode (t : Targets) (i : ℕ) (mode : Option ConnectorMode) : Targets :=
  { t with modes := update t.modes i (mode.or (t.modes i)) }

/-- Check the command line; whether all modes are there and equal. -/
def cloneCmdline (cfg : FbConfig) (enabled : ℕ → Bool) : List ℕ → Bool → Targets → Bool × Targets
  | [], canClone, t => (canClone, t)
  | i :: is, canClone, t =>
    if !enabled i then cloneCmdline cfg enabled is canClone t
    else
      let t := t.pickCmdline cfg i
      if (t.modes i).isNone then (false, t)
      else
        let same := (List.range i).all fun j => !enabled j ||
          (t.modes j).any fun m => (t.modes i).any fun m' => drmModeEqual m.mode m'.mode
        cloneCmdline cfg enabled is (canClone && same) t

/-- Try and find a 1024x768 mode on each connector: the last of the list is taken. -/
def cloneDmt (cfg : FbConfig) (enabled : ℕ → Bool) : List ℕ → Bool → Targets → Bool × Targets
  | [], canClone, t => (canClone, t)
  | i :: is, canClone, t =>
    if !enabled i then cloneDmt cfg enabled is canClone t
    else
      let t := t.setMode i ((t.connectors[i]?).bind fun c =>
        c.modes.reverse.find? fun m => drmModeEqual m.mode cfg.dmtMode)
      cloneDmt cfg enabled is (canClone && (t.modes i).isSome) t

def drmTargetCloned (cfg : FbConfig) (enabled : ℕ → Bool) (t : Targets) : Bool × Targets :=
  let indices := List.range t.connectors.length
  if 1 < cfg.crtcCount then (false, t)
  else if indices.countP enabled ≤ 1 then (false, t)
  else
    let cmdline := t.cloneCmdline cfg enabled indices true
    if cmdline.1 then cmdline else cmdline.2.cloneDmt cfg enabled indices true

/-- The target of one connector: the command line's, the preferred mode or the first there is. -/
def preferred (cfg : FbConfig) (enabled : ℕ → Bool) (t : Targets) (i : ℕ) : Targets :=
  if !enabled i then t
  else
    let t := t.pickCmdline cfg i
    if (t.modes i).isSome then t
    else t.setMode i ((t.connectors[i]?).bind fun c =>
      (drmHasPreferredMode c cfg.maxWidth cfg.maxHeight).or c.modes.head?)

def drmTargetPreferred (cfg : FbConfig) (enabled : ℕ → Bool) (t : Targets) : Targets :=
  (List.range t.connectors.length).foldl (preferred cfg enabled) t

/-- The modes that drm_setup_crtcs goes on with. -/
def choose (cfg : FbConfig) (t : Targets) : Targets :=
  let enabled := drmEnableConnectors t.connectors
  let cloned := t.drmTargetCloned cfg enabled
  if cloned.1 then cloned.2 else cloned.2.drmTargetPreferred cfg enabled

/-- The crtcs for these modes. -/
def pick (cfg : FbConfig) (t : Targets) : Crtcs :=
  (drmPickCrtcs ⟨t.connectors, cfg.crtcCount⟩ (fun _ => none) t.modes 0 cfg.maxWidth
    cfg.maxHeight).2

end Targets

/-! ### The mode sets -/

structure FbState where
  connectors : List FbConnector
  crtcInfo : ℕ → CrtcInfo := fun _ => {}
  /-- `fb != NULL` -/
  fb : Bool := false

/-- The connector and its mode go to the mode_set of its crtc. -/
def fillModeset (fb : Bool) (t : Targets) (crtcs : Crtcs) (info : ℕ → CrtcInfo) (i : ℕ) :
    ℕ → CrtcInfo :=
  (t.modes i).elim info fun mode => (crtcs i).elim info fun c =>
    update info c
      { desiredMode := some mode.id
        mode := some mode.mode
        connectors := (info c).connectors ++ [i]
        fb := fb }

/-- Clear out any old modes if there are no more connected outputs. -/
def CrtcInfo.clearOld (info : CrtcInfo) : CrtcInfo :=
  if info.connectors = [] then { info with mode := none } else info

/-- drm_setup_crtcs; `nextId` is where new modes are allocated. -/
def drmSetupCrtcs (cfg : FbConfig) (nextId : ℕ) (s : FbState) : FbState :=
  let t := Targets.choose cfg ⟨s.connectors, nextId, fun _ => none⟩
  let cleared c := { s.crtcInfo c with connectors := [], fb := false }
  let filled := (List.range t.connectors.length).foldl (fillModeset s.fb t (t.pick cfg)) cleared
  { s with
    connectors := t.connectors
    crtcInfo := fun c => (filled c).clearOld }

/-! ### Hotplugs -/

/-- What fill_modes finds at a connector. -/
structure Found where
  status : ConnectorStatus
  modes : List ConnectorMode
  bestEncoder : Option (BitVec 32)

/-- What a probe finds; modes that are made later are allocated from `nextId` on. -/
structure Probe where
  found : ℕ → Found
  nextId : ℕ
  fresh : ∀ i, ∀ m ∈ (found i).modes, m.id < nextId

namespace FbState

/-- drm_fb_helper_parse_command_line; the size is the console's. -/
def parseCommandLine (xres yres : ℕ) (s : FbState) : FbState :=
  { s with
    connectors := s.connectors.map fun c =>
      { c with
        cmdlineMode := { c.cmdlineMode with
          specified := true
          xres := xres
          yres := yres
          refreshSpecified := true
          refresh := 60 } } }

/-- drm_fb_helper_probe_connector_modes. -/
def probeConnectorModes (p : Probe) (s : FbState) : FbState :=
  { s with
    connectors := s.connectors.mapIdx fun i c =>
      { c with
        status := (p.found i).status
        modes := (p.found i).modes
        bestEncoder := (p.found i).bestEncoder } }

/-- drm_fb_helper_single_fb_probe, as far as the mode sets go; `probe` is what fb_probe returns. -/
def singleFbProbe (probe : ℤ) (s : FbState) : FbState :=
  if probe < 0 then s
  else
    { s with
      fb := true
      crtcInfo := fun c =>
        if (s.crtcInfo c).connectors = [] then s.crtcInfo c else { s.crtcInfo c with fb := true } }

end FbState

inductive FbAction
  | initialConfig (xres yres : ℕ) (p : Probe) (probe : ℤ)
  | hotplug (isBound : Bool) (p : Probe) (probe : ℤ)

namespace FbAction

/-- The state in which drm_setup_crtcs runs, where it does, and where it allocates modes. -/
def before (s : FbState) : FbAction → Option (FbState × ℕ)
  | initialConfig xres yres p _ =>
    some ((s.parseCommandLine xres yres).probeConnectorModes p, p.nextId)
  | hotplug isBound p _ =>
    if !s.fb then none
    else if !isBound then none
    else some (s.probeConnectorModes p, p.nextId)

def probed : FbAction → ℤ
  | initialConfig _ _ _ probe | hotplug _ _ probe => probe

/-- drm_fb_helper_initial_config and drm_fb_helper_hotplug_event. -/
def apply (cfg : FbConfig) (s : FbState) (a : FbAction) : FbState :=
  (a.before s).elim s fun p => (drmSetupCrtcs cfg p.2 p.1).singleFbProbe a.probed

end FbAction

/-- A console and its hotplugs. -/
def fbSystem (cfg : FbConfig) : System FbState FbAction where
  init s := s.crtcInfo = (fun _ => {}) ∧ s.fb = false
  step s a s' := s' = a.apply cfg s

/-- The desired mode is on the list of a connector of the mode_set, which has room for all of its
connectors. -/
structure CrtcInfo.Sound (cfg : FbConfig) (connectors : List FbConnector) (info : CrtcInfo) :
    Prop where
  listed : ∀ m ∈ info.desiredMode, info.connectors ≠ [] ∧ ∃ i ∈ info.connectors,
    ∃ c ∈ connectors[i]?, ∃ mode ∈ c.modes, mode.id = m
  fits : info.connectors.length ≤ cfg.maxConnCount

def FbState.Sound (cfg : FbConfig) (s : FbState) : Prop :=
  ∀ c < cfg.crtcCount, (s.crtcInfo c).Sound cfg s.connectors

/-- The connectors that drm_pick_crtcs gives a crtc, for the modes that are chosen. -/
def pickedFor (cfg : FbConfig) (p : FbState × ℕ) (c : ℕ) : List ℕ :=
  let t := Targets.choose cfg ⟨p.1.connectors, p.2, fun _ => none⟩
  (List.range t.connectors.length).filter fun i => t.pick cfg i = some c

/-- Every crtc with a desired mode is picked again, and none for more connectors than its mode_set
has room for. -/
def Refits (cfg : FbConfig) (p : FbState × ℕ) : Prop :=
  ∀ c < cfg.crtcCount, ((p.1.crtcInfo c).desiredMode.isSome → pickedFor cfg p c ≠ []) ∧
    (pickedFor cfg p c).length ≤ cfg.maxConnCount

instance (cfg : FbConfig) (p : FbState × ℕ) : Decidable (Refits cfg p) :=
  inferInstanceAs (Decidable (∀ _ < _, _))

/-- The setup that an action makes, if any, picks every crtc in use again. -/
def FbAction.Repicks (cfg : FbConfig) (s : FbState) (a : FbAction) : Prop :=
  ∀ p ∈ a.before s, Refits cfg p

/-! ### The chosen modes are on the lists -/

/-- The mode chosen for a connector is on its list. -/
def Targets.Listed (t : Targets) : Prop :=
  ∀ i, ∀ m ∈ t.modes i, ∃ c ∈ t.connectors[i]?, m ∈ c.modes

section listed
variable {cfg : FbConfig} {t : Targets} {i : ℕ}

theorem pickCmdlineMode_mem {c : FbConnector} {nextId : ℕ} {m : ConnectorMode}
    (h : m ∈ (drmPickCmdlineMode cfg c nextId).1) :
    m ∈ (drmPickCmdlineMode cfg c nextId).2.modes := by
  revert h
  rw [drmPickCmdlineMode]
  split
  · exact fun h => nomatch h
  · cases hfound : if c.cmdlineMode.rb || c.cmdlineMode.margins then none
        else c.modes.find? c.cmdlineMode.matches with
    | none =>
      cases cfg.createMode c.cmdlineMode with
      | none => exact fun h => nomatch h
      | some create =>
        intro h
        obtain rfl := Option.some.inj h
        exact List.mem_cons_self
    | some m' =>
      intro h
      obtain rfl := Option.some.inj h
      split at hfound
      · cases hfound
      · exact List.mem_of_find?_eq_some hfound

theorem Targets.Listed.update (h : t.Listed) {connectors : List FbConnector} {nextId : ℕ}
    {mode : Option ConnectorMode} (hkept : ∀ j ≠ i, connectors[j]? = t.connectors[j]?)
    (hmode : ∀ m ∈ mode, ∃ c ∈ connectors[i]?, m ∈ c.modes) :
    Targets.Listed ⟨connectors, nextId, update t.modes i mode⟩ := by
  intro j m hm
  dsimp only at hm ⊢
  by_cases hj : j = i
  · subst hj
    rw [update_self] at hm
    exact hmode m hm
  · rw [update_of_ne hj] at hm
    rw [hkept j hj]
    exact h j m hm

theorem Targets.Listed.setMode (h : t.Listed) {mode : Option ConnectorMode}
    (hmode : ∀ m ∈ mode, ∃ c ∈ t.connectors[i]?, m ∈ c.modes) : (t.setMode i mode).Listed := by
  refine h.update (fun _ _ => rfl) fun m hm => ?_
  obtain hm | ⟨-, hm⟩ := Option.or_eq_some_iff.mp hm
  · exact hmode m hm
  · exact h i m hm

theorem Targets.Listed.pickCmdline (h : t.Listed) (i : ℕ) : (t.pickCmdline cfg i).Listed := by
  rw [Targets.pickCmdline]
  cases hc : t.connectors[i]? with
  | none => exact h
  | some c =>
    have hlt := (List.getElem?_eq_some_iff.mp hc).1
    exact h.update (fun j hj => List.getElem?_set_ne (Ne.symm hj))
      fun m hm => ⟨_, List.getElem?_set_self hlt, pickCmdlineMode_mem hm⟩

variable {enabled : ℕ → Bool}

theorem Targets.Listed.cloneCmdline (is : List ℕ) {canClone : Bool} (h : t.Listed) :
    (t.cloneCmdline cfg enabled is canClone).2.Listed := by
  induction is generalizing t canClone with
  | nil => exact h
  | cons i is ih =>
    rw [Targets.cloneCmdline]
    split
    · exact ih h
    · dsimp only
      split
      · exact h.pickCmdline i
      · exact ih (h.pickCmdline i)

theorem Targets.Listed.cloneDmt (is : List ℕ) {canClone : Bool} (h : t.Listed) :
    (t.cloneDmt cfg enabled is canClone).2.Listed := by
  induction is generalizing t canClone with
  | nil => exact h
  | cons i is ih =>
    rw [Targets.cloneDmt]
    split
    · exact ih h
    · refine ih (h.setMode fun m hm => ?_)
      obtain ⟨c, hc, hfind⟩ := Option.bind_eq_some_iff.mp hm
      exact ⟨c, hc, List.mem_reverse.mp (List.mem_of_find?_eq_some hfind)⟩

theorem Targets.Listed.preferred (h : t.Listed) (i : ℕ) :
    (t.preferred cfg enabled i).Listed := by
  rw [Targets.preferred]
  split
  · exact h
  · dsimp only
    split
    · exact h.pickCmdline i
    · refine (h.pickCmdline i).setMode fun m hm => ?_
      obtain ⟨c, hc, hfind⟩ := Option.bind_eq_some_iff.mp hm
      obtain hfind | ⟨-, hhead⟩ := Option.or_eq_some_iff.mp hfind
      · exact ⟨c, hc, List.mem_of_find?_eq_some hfind⟩
      · exact ⟨c, hc, List.mem_of_mem_head? hhead⟩

theorem Targets.Listed.choose (h : t.Listed) : (t.choose cfg).Listed := by
  have hcloned {enabled : ℕ → Bool} : (t.drmTargetCloned cfg enabled).2.Listed := by
    rw [Targets.drmTargetCloned]
    dsimp only
    split_ifs
    · exact h
    · exact h
    · exact h.cloneCmdline _
    · exact (h.cloneCmdline _).cloneDmt _
  rw [Targets.choose]
  split
  · exact hcloned
  · exact List.foldlRecOn _ _ hcloned fun t ht i _ => ht.preferred i

/-- Whatever the probe found, the chosen modes are on the lists. -/
theorem choose_listed (cfg : FbConfig) (connectors : List FbConnector) (nextId : ℕ) :
    (Targets.choose cfg ⟨connectors, nextId, fun _ => none⟩).Listed :=
  Targets.Listed.choose fun _ _ hm => nomatch hm

end listed

/-! ### One setup -/

section setup
variable {cfg : FbConfig} {t : Targets} {s : FbState} {fb : Bool} {crtcs : Crtcs}
  {info : ℕ → CrtcInfo} {c n : ℕ}

theorem fillModeset_of_some {i : ℕ} {m : ConnectorMode} (hm : t.modes i = some m)
    (hc : crtcs i = some c) : fillModeset fb t crtcs info i = update info c
      ⟨some m.id, some m.mode, (info c).connectors ++ [i], fb⟩ := by
  rw [fillModeset, hm, hc]
  rfl

theorem fillModeset_of_ne {i : ℕ} (hc : crtcs i ≠ some c) :
    fillModeset fb t crtcs info i c = info c := by
  rw [fillModeset]
  cases t.modes i with
  | none => rfl
  | some m =>
    cases hi : crtcs i with
    | none => rfl
    | some b => exact update_of_ne (fun he => hc (hi.trans (congrArg some he.symm))) _ _

/-- After the first `n` connectors the mode_set has those that are given the crtc, and the desired
mode is that of one of them, if there are any. -/
theorem fill_spec (fb : Bool) (info : ℕ → CrtcInfo)
    (hmodes : ∀ i < n, crtcs i = some c → (t.modes i).isSome)
    (hinfo : (info c).connectors = []) :
    let info' := (List.range n).foldl (fillModeset fb t crtcs) info
    let picked := (List.range n).filter fun i => crtcs i = some c
    (info' c).connectors = picked ∧
      (picked = [] ∧ (info' c).desiredMode = (info c).desiredMode ∨
        ∃ i ∈ picked, ∃ m ∈ t.modes i, (info' c).desiredMode = some m.id) := by
  induction n with
  | zero => exact ⟨hinfo, .inl ⟨rfl, rfl⟩⟩
  | succ n ih =>
    obtain ⟨hlist, hdesired⟩ := ih fun i hi => hmodes i (by omega)
    simp only [List.range_succ, List.foldl_append, List.foldl_cons, List.foldl_nil,
      List.filter_append]
    by_cases hc : crtcs n = some c
    · obtain ⟨m, hm⟩ := Option.isSome_iff_exists.mp (hmodes n (Nat.lt_succ_self n) hc)
      have hfilter : [n].filter (fun i => decide (crtcs i = some c)) = [n] := by simp [hc]
      rw [fillModeset_of_some hm hc, update_self, hfilter]
      exact ⟨congrArg (· ++ [n]) hlist,
        .inr ⟨n, List.mem_append_right _ List.mem_cons_self, m, hm, rfl⟩⟩
    · have hfilter : [n].filter (fun i => decide (crtcs i = some c)) = [] := by simp [hc]
      rw [fillModeset_of_ne hc, hfilter, List.append_nil]
      exact ⟨hlist, hdesired⟩

theorem clearOld_connectors (info : CrtcInfo) : info.clearOld.connectors = info.connectors := by
  unfold CrtcInfo.clearOld
  split <;> rfl

theorem clearOld_desiredMode (info : CrtcInfo) : info.clearOld.desiredMode = info.desiredMode := by
  unfold CrtcInfo.clearOld
  split <;> rfl

/-- Only connectors with a mode are given a crtc. -/
theorem pick_isSome {i : ℕ} (hi : i < t.connectors.length) (hc : t.pick cfg i = some c) :
    (t.modes i).isSome :=
  have hbest : BestFrom ⟨t.connectors, cfg.crtcCount⟩ t.modes cfg.maxWidth cfg.maxHeight 0
      (fun _ => none) (drmPickCrtcs ⟨t.connectors, cfg.crtcCount⟩ (fun _ => none) t.modes 0
        cfg.maxWidth cfg.maxHeight) :=
    pickCrtcs_best rfl ⟨fun _ hi => absurd hi (Nat.not_lt_zero _), fun _ _ _ hj =>
      absurd hj (Nat.not_lt_zero _)⟩
  (hbest.admissible.allowed i hi c hc).2.1

/-- A setup leaves a mode set sound exactly where it picks the crtc again if it was in use. -/
theorem sound_iff_picked {connectors : List FbConnector} {old info : CrtcInfo} {picked : List ℕ}
    (hlist : info.connectors = picked)
    (hdesired : picked = [] ∧ info.desiredMode = old.desiredMode ∨
      ∃ i ∈ picked, ∃ m ∈ t.modes i, info.desiredMode = some m.id)
    (hlisted : ∀ i, ∀ m ∈ t.modes i, ∃ c ∈ connectors[i]?, m ∈ c.modes) :
    info.Sound cfg connectors ↔
      (old.desiredMode.isSome → picked ≠ []) ∧ picked.length ≤ cfg.maxConnCount := by
  constructor
  · intro h
    refine ⟨fun hsome => ?_, hlist ▸ h.fits⟩
    obtain ⟨-, hold⟩ | ⟨i, hi, -⟩ := hdesired
    · obtain ⟨m, hm⟩ := Option.isSome_iff_exists.mp hsome
      exact hlist ▸ (h.listed m (hold.trans hm)).1
    · exact List.ne_nil_of_mem hi
  · rintro ⟨hpicked, hfits⟩
    refine ⟨fun m hm => ?_, hlist.symm ▸ hfits⟩
    obtain ⟨hnil, hold⟩ | ⟨i, hi, mode, hmode, hnew⟩ := hdesired
    · exact absurd hnil (hpicked (by rw [← hold, hm]; rfl))
    · obtain ⟨c, hc, hmem⟩ := hlisted i mode hmode
      have hid : mode.id = m := Option.some.inj (hnew.symm.trans hm)
      rw [hlist]
      exact ⟨List.ne_nil_of_mem hi, i, hi, c, hc, mode, hmem, hid⟩

theorem drmSetupCrtcs_sound_iff (cfg : FbConfig) (nextId : ℕ) (s : FbState) :
    (drmSetupCrtcs cfg nextId s).Sound cfg ↔ Refits cfg (s, nextId) := by
  have hlisted := choose_listed cfg s.connectors nextId
  refine forall_congr' fun c => forall_congr' fun _ => ?_
  obtain ⟨hlist, hdesired⟩ := fill_spec s.fb (c := c)
    (fun c => { s.crtcInfo c with connectors := [], fb := false })
    (fun i hi hc => pick_isSome hi hc) rfl
  exact sound_iff_picked ((clearOld_connectors _).trans hlist)
    (hdesired.imp (And.imp_right (clearOld_desiredMode _).trans) fun ⟨i, hi, m, hm, he⟩ =>
      ⟨i, hi, m, hm, (clearOld_desiredMode _).trans he⟩) hlisted

/-! ### Runs -/

theorem singleFbProbe_sound {probe : ℤ} (h : s.Sound cfg) : (s.singleFbProbe probe).Sound cfg := by
  rw [FbState.singleFbProbe]
  split
  · exact h
  · intro c hc
    dsimp only
    split
    · exact h c hc
    · exact ⟨(h c hc).listed, (h c hc).fits⟩

end setup

/-- 1024x768 at 60 Hz. -/
def xga : DrmDisplayMode where
  clock := 65000
  hdisplay := 1024
  hsyncStart := 1048
  hsyncEnd := 1184
  htotal := 1344
  vdisplay := 768
  vsyncStart := 771
  vsyncEnd := 777
  vtotal := 806
  flags := 10

/-- Two crtcs; a mode for the command line has its size. -/
def twoCrtcs : FbConfig where
  crtcCount := 2
  maxConnCount := 4
  maxWidth := 4096
  maxHeight := 4096
  createMode cmdline := some fun id =>
    { id := id, mode := { xga with hdisplay := cmdline.xres, vdisplay := cmdline.yres } }
  dmtMode := xga

/-- A monitor is found. -/
def pluggedIn : Probe where
  found _ :=
    ⟨.connected, [{ id := 0, mode := xga, type := modeTypePreferred, vrefresh := 60 }], some 3⟩
  nextId := 1
  fresh _ _ hm := by
    obtain rfl := List.mem_singleton.mp hm
    decide

/-- The monitor is gone. -/
def pulledOut : Probe where
  found _ := ⟨.disconnected, [], some 3⟩
  nextId := 1
  fresh _ _ hm := nomatch hm

/-- One connector, nothing set up. -/
def freshConsole : FbState := { connectors := [⟨.unknown, [], some 3, {}⟩] }

/-- The console on the monitor. -/
def shownConsole : FbState :=
  FbAction.apply twoCrtcs freshConsole (.initialConfig 1024 768 pluggedIn 0)

theorem shownConsole_repicks :
    (FbAction.initialConfig 1024 768 pluggedIn 0).Repicks twoCrtcs freshConsole := by
  intro p hp
  obtain rfl := Option.some.inj hp
  decide

end GfxDrm.FbHelper
