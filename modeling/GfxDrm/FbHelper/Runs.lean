import GfxDrm.Errno
import GfxDrm.Lib.Ring
import GfxDrm.Lib.Run
import Mathlib.Data.List.Perm.Basic

/-! The helpers of the framebuffer console and the global list they are linked on
(drm_fb_helper.c). -/

namespace GfxDrm.FbHelper
open Ring

structure Helper where
  live : Bool := false
  /-- `fb != NULL`. -/
  fb : Bool := false
  delayedHotplug : Bool := false
  deriving DecidableEq, Repr

/-- The node `none` is `kernel_fb_helper_list`, the node `some h` the `kernel_fb_list` of `h`. -/
structure HelperState where
  links : Links (Option ℕ) ℕ := Links.zero
  helper : ℕ → Helper := fun _ => {}
  /-- A list macro has read through a null pointer. -/
  fault : Bool := false

namespace HelperState

def setHelper (s : HelperState) (h : ℕ) (e : Helper) : HelperState :=
  { s with helper := Function.update s.helper h e }

/-- What a list macro leaves, if it ran through. -/
def setLinks (s : HelperState) : Option (Links (Option ℕ) ℕ) → HelperState
  | some links => { s with links := links }
  | none => { s with fault := true }

end HelperState

/-- Whether `crtc_info`, `connector_info` and every set of connectors could be allocated. -/
structure InitOutcome where
  crtcInfo : Bool := true
  connectorInfo : Bool := true
  connectors : Bool := true

/-- drm_fb_helper_init of zeroed memory; the memory of a failed one is freed again. -/
def drmFbHelperInit (s : HelperState) (h : ℕ) (o : InitOutcome) : ℤ × HelperState :=
  let s := { s with links := (s.links.init none).init (some h) }
  if o.crtcInfo ∧ o.connectorInfo ∧ o.connectors then (0, s.setHelper h { live := true })
  else (Errno.eNomem, s.setHelper h {})

/-- drm_fb_helper_fini. -/
def drmFbHelperFini (s : HelperState) (h : ℕ) : HelperState :=
  let s := if !s.links.empty (some h) then s.setLinks (s.links.del (some h)) else s
  s.setHelper h { s.helper h with live := false }

/-- drm_fb_helper_single_fb_probe; `probe` is what the driver's `fb_probe` returns, which sets
`fb` unless it fails. -/
def drmFbHelperSingleFbProbe (s : HelperState) (h : ℕ) (probe : ℤ) : ℤ × HelperState :=
  if probe < 0 then (probe, s)
  else
    let s := s.setHelper h { s.helper h with fb := true }
    (0, s.setLinks (s.links.add (some h) none h))

/-- drm_fb_helper_initial_config. -/
def drmFbHelperInitialConfig (s : HelperState) (h : ℕ) (probe : ℤ) : ℤ × HelperState :=
  drmFbHelperSingleFbProbe s h probe

/-- What a crtc of the device shows. -/
inductive CrtcFb where
  | off
  | own
  | other
  deriving DecidableEq, Repr

/-- drm_fb_helper_is_bound. -/
def drmFbHelperIsBound (crtcs : List CrtcFb) : Bool :=
  let crtcsBound := crtcs.countP (· ≠ .off)
  let bound := crtcs.countP (· = .own)
  !decide (bound < crtcsBound)

/-- drm_fb_helper_hotplug_event. -/
def drmFbHelperHotplugEvent (s : HelperState) (h : ℕ) (crtcs : List CrtcFb) (probe : ℤ) :
    ℤ × HelperState :=
  if !(s.helper h).fb then (0, s)
  else if !drmFbHelperIsBound crtcs then
    (0, s.setHelper h { s.helper h with delayedHotplug := true })
  else drmFbHelperSingleFbProbe s h probe

/-- drm_fb_helper_force_kernel_mode, with the helpers it visits; `off` tells whose device is
powered off and `restore` whose modes could not be restored. -/
def drmFbHelperForceKernelMode (s : HelperState) (off restore : ℕ → Bool) (fuel : ℕ) :
    Option (Bool × List ℕ) :=
  if s.links.empty none then some (false, [])
  else
    (s.links.walk some fuel ((s.links.next none).bind s.links.entry)).map fun l =>
      (l.any fun h => !off h && restore h, l)

/-! ### Runs -/

inductive HelperAction where
  | init (h : ℕ) (o : InitOutcome)
  | initialConfig (h : ℕ) (probe : ℤ)
  | hotplug (h : ℕ) (crtcs : List CrtcFb) (probe : ℤ)
  | fini (h : ℕ)

/-- A helper is set up before it is used and not set up twice. -/
def HelperAction.Enabled (s : HelperState) : HelperAction → Prop
  | .init h _ => (s.helper h).live = false
  | .initialConfig h _ | .hotplug h _ _ | .fini h => (s.helper h).live = true

def HelperAction.apply (s : HelperState) : HelperAction → HelperState
  | .init h o => (drmFbHelperInit s h o).2
  | .initialConfig h probe => (drmFbHelperInitialConfig s h probe).2
  | .hotplug h crtcs probe => (drmFbHelperHotplugEvent s h crtcs probe).2
  | .fini h => drmFbHelperFini s h

/-- The helpers on the list: none before the first is set up. -/
def HelperState.OnList (s : HelperState) (l : List ℕ) : Prop :=
  s.links.next none = none ∧ l = [] ∨ s.links.IsRing none (l.map some)

/-- The live helpers with a framebuffer are on the list, each once, and no other; and the walk
ends after them. -/
def HelpersOk (s : HelperState) : Prop :=
  ∃ l : List ℕ, l.Nodup ∧
    (∀ h, h ∈ l ↔ (s.helper h).live = true ∧ (s.helper h).fb = true) ∧ s.OnList l ∧
    ∀ off restore, ∃ fuel error, drmFbHelperForceKernelMode s off restore fuel = some (error, l)

/-! When the list of helpers stays whole. -/

open Run Function

/-- The list at rest: `l` holds the live helpers with a framebuffer, each node names its helper,
and the nodes of the other live helpers are lists of their own. -/
structure HelperInv (s : HelperState) (l : List ℕ) : Prop where
  mem : ∀ h, h ∈ l ↔ (s.helper h).live = true ∧ (s.helper h).fb = true
  onList : s.OnList l
  head : s.links.entry none = none
  entry : ∀ h ∈ l, s.links.entry (some h) = some h
  alone : ∀ h, (s.helper h).live = true → (s.helper h).fb = false →
    s.links.next (some h) = some (some h)
  ready : ∀ h, (s.helper h).live = true → s.links.IsRing none (l.map some)
  fault : s.fault = false

variable {s : HelperState} {l : List ℕ} {h : ℕ}

theorem HelperInv.nodup (hs : HelperInv s l) : l.Nodup := by
  rcases hs.onList with ⟨-, rfl⟩ | hring
  · exact List.nodup_nil
  · exact (List.nodup_cons.mp hring.nodup).2.of_map _

theorem HelperInv.helpersOk (hs : HelperInv s l) : HelpersOk s := by
  refine ⟨l, hs.nodup, hs.mem, hs.onList, fun off restore => ?_⟩
  have hwalk : ∃ fuel,
      s.links.walk some fuel ((s.links.next none).bind s.links.entry) = some l := by
    rcases hs.onList with ⟨hnull, rfl⟩ | hring
    · refine ⟨1, ?_⟩
      rw [hnull]
      rfl
    · exact hring.walk hs.head hs.entry
  by_cases hempty : s.links.empty none = true
  · have hl : l = [] := by
      rcases hs.onList with ⟨-, rfl⟩ | hring
      · rfl
      · exact List.map_eq_nil_iff.mp (hring.empty_iff.mp hempty)
    refine ⟨0, false, ?_⟩
    rw [drmFbHelperForceKernelMode, if_pos hempty, hl]
  · obtain ⟨fuel, hfuel⟩ := hwalk
    refine ⟨fuel, l.any fun h => !off h && restore h, ?_⟩
    rw [drmFbHelperForceKernelMode, if_neg hempty, hfuel]
    rfl

/-! ### The condition -/

/-- No helper is set up while another has a framebuffer, and what would put a helper on the list
again does not get that far. -/
def HelperAction.Whole (s : HelperState) : HelperAction → Prop
  | .init _ _ => ∀ h, ¬((s.helper h).live = true ∧ (s.helper h).fb = true)
  | .initialConfig h probe => (s.helper h).fb = true → probe < 0
  | .hotplug h crtcs probe =>
    (s.helper h).fb = true → drmFbHelperIsBound crtcs = true → probe < 0
  | .fini _ => True

theorem HelperInv.init (hs : HelperInv s l) (h : ℕ) (o : InitOutcome)
    (hw : ∀ h', ¬((s.helper h').live = true ∧ (s.helper h').fb = true)) :
    HelperInv (drmFbHelperInit s h o).2 [] := by
  have hne : (none : Option ℕ) ≠ some h := Option.some_ne_none h |>.symm
  have hring : ((s.links.init none).init (some h)).IsRing none [] := by
    refine (Links.IsRing.init s.links none).congr (fun x hx => ?_) fun x hx => ?_
    · rw [List.mem_singleton.mp hx]
      exact Links.init_next_of_ne _ hne
    · rw [List.mem_singleton.mp hx]
      exact Links.init_prev_of_ne _ hne
  have hhead : ((s.links.init none).init (some h)).entry none = none := by
    rw [Links.init_entry_of_ne _ hne, Links.init_entry_self]
  have halone : ∀ h', h' ≠ h → ((s.links.init none).init (some h)).next (some h') =
      s.links.next (some h') := fun h' hne' => by
    rw [Links.init_next_of_ne _ (by simpa using hne'), Links.init_next_of_ne _ (by simp)]
  -- the helper is live if all could be allocated, and has no framebuffer yet
  obtain ⟨live, hres⟩ : ∃ live, (drmFbHelperInit s h o).2 =
      ({ s with links := (s.links.init none).init (some h) } : HelperState).setHelper h
        { live := live } := by
    unfold drmFbHelperInit
    split
    · exact ⟨true, rfl⟩
    · exact ⟨false, rfl⟩
  rw [hres]
  have hother : ∀ h', h' ≠ h → (HelperState.setHelper
      { s with links := (s.links.init none).init (some h) } h { live := live }).helper h' =
        s.helper h' := fun h' hne' => update_of_ne hne' ..
  have hself : (HelperState.setHelper
      { s with links := (s.links.init none).init (some h) } h { live := live }).helper h =
        { live := live } := update_self ..
  refine ⟨fun h' => ?_, .inr hring, hhead, by simp, fun h' hlive hfb => ?_, fun _ _ => hring,
    hs.fault⟩
  · by_cases hh : h' = h
    · rw [hh, hself]
      simp
    · rw [hother h' hh]
      simpa using hw h'
  · by_cases hh : h' = h
    · rw [hh]
      exact Links.init_next_self ..
    · rw [hother h' hh] at hlive hfb
      exact (halone h' hh).trans (hs.alone h' hlive hfb)

theorem HelperInv.probe (hs : HelperInv s l) (hlive : (s.helper h).live = true) (probe : ℤ)
    (hw : (s.helper h).fb = true → probe < 0) :
    ∃ l', HelperInv (drmFbHelperSingleFbProbe s h probe).2 l' := by
  unfold drmFbHelperSingleFbProbe
  by_cases hprobe : probe < 0
  · rw [if_pos hprobe]
    exact ⟨l, hs⟩
  rw [if_neg hprobe]
  have hfb : (s.helper h).fb = false := by
    cases hfb : (s.helper h).fb with
    | true => exact absurd (hw hfb) hprobe
    | false => rfl
  have hnot : h ∉ l := fun hm => by
    have := ((hs.mem h).mp hm).2
    rw [hfb] at this
    cases this
  obtain ⟨t, ht, hring, hentry, hframe⟩ := (hs.ready h hlive).add (x := some h) (by simpa using hnot) h
  dsimp only
  have hset : (s.setHelper h { s.helper h with fb := true }).links.add (some h) none h = some t := ht
  rw [hset]
  refine ⟨h :: l, ?_⟩
  have hother : ∀ h', h' ≠ h → Function.update s.helper h { s.helper h with fb := true } h' =
      s.helper h' := fun h' hne => update_of_ne hne ..
  refine ⟨fun h' => ?_, .inr hring, ?_, fun h' hm => ?_, fun h' hl hf => ?_, fun _ _ => hring,
    hs.fault⟩
  · show h' ∈ h :: l ↔ (update s.helper h _ h').live = true ∧ (update s.helper h _ h').fb = true
    by_cases hh : h' = h
    · rw [hh]
      simp [hlive]
    · rw [hother h' hh, ← hs.mem h']
      simp [hh]
  · show t.entry none = none
    rw [hentry]
    exact hs.head
  · show t.entry (some h') = some h'
    rw [hentry]
    by_cases hh : h' = h
    · rw [hh, update_self]
    · rw [update_of_ne (by simpa using hh)]
      exact hs.entry h' (List.mem_of_ne_of_mem hh hm)
  · show t.next (some h') = some (some h')
    change (update s.helper h _ h').live = true at hl
    change (update s.helper h _ h').fb = false at hf
    have hh : h' ≠ h := by
      rintro rfl
      rw [update_self] at hf
      cases hf
    rw [hother h' hh] at hl hf
    have hout : h' ∉ l := fun hm => by
      have := ((hs.mem h').mp hm).2
      rw [hf] at this
      cases this
    rw [(hframe _ (by simp [hh, hout])).1]
    exact hs.alone h' hl hf

/-- The helper is off the list, however it was left: the end of drm_fb_helper_fini. -/
theorem HelperInv.leave {links : Links (Option ℕ) ℕ} (hs : HelperInv s l)
    (hring : links.IsRing none ((l.erase h).map some)) (hentry : links.entry = s.links.entry)
    (hframe : ∀ h', h' ∉ l → links.next (some h') = s.links.next (some h')) :
    HelperInv
      (({ s with links := links } : HelperState).setHelper h { s.helper h with live := false })
      (l.erase h) := by
  have hother : ∀ h', h' ≠ h → update s.helper h { s.helper h with live := false } h' =
      s.helper h' := fun h' hne => update_of_ne hne ..
  refine ⟨fun h' => ?_, .inr hring, ?_, fun h' hm => ?_, fun h' hl hf => ?_, fun _ _ => hring,
    hs.fault⟩
  · show h' ∈ l.erase h ↔
      (update s.helper h _ h').live = true ∧ (update s.helper h _ h').fb = true
    rw [hs.nodup.mem_erase_iff]
    by_cases hh : h' = h
    · rw [hh]
      simp
    · rw [hother h' hh, ← hs.mem h']
      simp [hh]
  · show links.entry none = none
    rw [hentry]
    exact hs.head
  · show links.entry (some h') = some h'
    rw [hentry]
    exact hs.entry h' (List.mem_of_mem_erase hm)
  · show links.next (some h') = some (some h')
    change (update s.helper h _ h').live = true at hl
    change (update s.helper h _ h').fb = false at hf
    have hh : h' ≠ h := by
      rintro rfl
      rw [update_self] at hl
      cases hl
    rw [hother h' hh] at hl hf
    have hout : h' ∉ l := fun hm => by
      have := ((hs.mem h').mp hm).2
      rw [hf] at this
      cases this
    rw [hframe h' hout]
    exact hs.alone h' hl hf

theorem HelperInv.fini (hs : HelperInv s l) (hlive : (s.helper h).live = true) :
    HelperInv (drmFbHelperFini s h) (l.erase h) := by
  have hring := hs.ready h hlive
  have hinj : Function.Injective (some : ℕ → Option ℕ) := fun _ _ => Option.some.inj
  unfold drmFbHelperFini
  cases hfb : (s.helper h).fb with
  | true =>
    have hmem : some h ∈ l.map some := List.mem_map_of_mem ((hs.mem h).mpr ⟨hlive, hfb⟩)
    obtain ⟨t, ht, hring', hentry, hframe⟩ := hring.del hmem
    have hmap : t.IsRing none ((l.erase h).map some) := by
      rw [List.map_erase hinj]
      convert hring' using 2
      exact lawful_beq_subsingleton _ _
    rw [hring.not_empty hmem, ht]
    exact hs.leave hmap hentry fun h' hout => (hframe _ (by simpa using hout)).1
  | false =>
    have hempty : s.links.empty (some h) = true :=
      decide_eq_true (hs.alone h hlive hfb)
    have hout : h ∉ l := fun hm => by
      have := ((hs.mem h).mp hm).2
      rw [hfb] at this
      cases this
    rw [hempty]
    refine hs.leave ?_ rfl fun _ _ => rfl
    rw [List.erase_of_not_mem hout]
    exact hring

theorem HelperInv.setDelayed (hs : HelperInv s l) (h : ℕ) :
    HelperInv (s.setHelper h { s.helper h with delayedHotplug := true }) l := by
  have hsame : ∀ h', (update s.helper h { s.helper h with delayedHotplug := true } h').live =
      (s.helper h').live ∧
      (update s.helper h { s.helper h with delayedHotplug := true } h').fb = (s.helper h').fb := by
    intro h'
    by_cases hh : h' = h
    · rw [hh, update_self]
      exact ⟨rfl, rfl⟩
    · rw [update_of_ne hh]
      exact ⟨rfl, rfl⟩
  refine ⟨fun h' => ?_, hs.onList, hs.head, hs.entry, fun h' hl hf => ?_, fun h' hl => ?_,
    hs.fault⟩
  · exact (hs.mem h').trans (by rw [HelperState.setHelper, (hsame h').1, (hsame h').2])
  · exact hs.alone h' ((hsame h').1 ▸ hl) ((hsame h').2 ▸ hf)
  · exact hs.ready h' ((hsame h').1 ▸ hl)

/-! ### Runs -/

theorem HelperInv.apply {a : HelperAction} (hs : HelperInv s l) (he : a.Enabled s)
    (hw : a.Whole s) : ∃ l', HelperInv (a.apply s) l' := by
  cases a with
  | init h o => exact ⟨[], hs.init h o hw⟩
  | initialConfig h probe => exact hs.probe he probe hw
  | hotplug h crtcs probe =>
    show ∃ l', HelperInv (drmFbHelperHotplugEvent s h crtcs probe).2 l'
    unfold drmFbHelperHotplugEvent
    split
    · exact ⟨l, hs⟩
    · rename_i hfb
      have hfb : (s.helper h).fb = true := by simpa using hfb
      split
      · exact ⟨l, hs.setDelayed h⟩
      · rename_i hbound
        exact hs.probe he probe fun _ => hw hfb (by simpa using hbound)
  | fini h => exact ⟨l.erase h, hs.fini he⟩

/-- Runs from the loading of the module. -/
def helperSystem : System HelperState HelperAction where
  init s := s = {}
  step s a s' := a.Enabled s ∧ s' = a.apply s

theorem initial_inv : HelperInv {} [] := by
  refine ⟨fun h => ?_, .inl ⟨rfl, rfl⟩, rfl, by simp, fun h hlive => ?_, fun h hlive => ?_, rfl⟩
  · simp
  · cases hlive
  · cases hlive

/-- As long as no helper is set up beside a linked one and none is put on the list again, the
list is what it should be. -/
theorem fb_helper_list_ok
    (h : ReachWhile helperSystem (fun s a => a.Whole s) s) : HelpersOk s := by
  have hinv : ∃ l, HelperInv s l := by
    refine h.invariant (I := fun s => ∃ l, HelperInv s l) (fun s hs => ?_)
      fun s a s' hl hg hs => ?_
    · exact hs ▸ ⟨[], initial_inv⟩
    · obtain ⟨l, hl⟩ := hl
      obtain ⟨he, rfl⟩ := hs
      exact hl.apply he hg
  obtain ⟨l, hl⟩ := hinv
  exact hl.helpersOk

/-! ### Computed runs -/

theorem helperRun_reach (guard : HelperState → HelperAction → Prop) (l : List HelperAction)
    (h : AllAllowed (fun s a => a.Enabled s ∧ guard s a) (fun s a => HelperAction.apply s a) l {}) :
    ReachWhile helperSystem guard (l.foldl (fun s a => HelperAction.apply s a) {}) :=
  ReachWhile.foldl (S := helperSystem) _ (fun _ _ hs => ⟨hs.2, hs.1, rfl⟩) l (.init rfl) h

/-- A node that follows itself keeps the walk for ever. -/
theorem walk_self (links : Links (Option ℕ) ℕ) (h : ℕ)
    (hself : (links.next (some h)).bind links.entry = some h) (fuel : ℕ) :
    links.walk some fuel (some h) = none := by
  induction fuel with
  | zero => rfl
  | succ n ih =>
    rw [Links.walk, hself, ih]
    rfl

/-- The console comes up, and a hotplug interrupt finds it shown. -/
def hotplugged : List HelperAction :=
  [.init 0 {}, .initialConfig 0 0, .hotplug 0 [.own] 0]

/-- The second list_add makes the helper its own neighbour. -/
theorem fb_helper_linked_twice : ¬ ∀ s, Reach helperSystem s → HelpersOk s := by
  intro hall
  have hreach : Reach helperSystem (hotplugged.foldl (fun s a => HelperAction.apply s a) {}) :=
    helperRun_reach _ _ ⟨⟨rfl, trivial⟩, ⟨rfl, trivial⟩, ⟨rfl, trivial⟩, trivial⟩
  obtain ⟨l, -, -, -, hwalk⟩ := hall _ hreach
  obtain ⟨fuel, error, hres⟩ := hwalk (fun _ => false) fun _ => false
  have hnone := walk_self (hotplugged.foldl (fun s a => HelperAction.apply s a) {}).links 0
    (by decide) fuel
  rw [drmFbHelperForceKernelMode] at hres
  have hfirst : ((hotplugged.foldl (fun s a => HelperAction.apply s a) {}).links.next none).bind
      (hotplugged.foldl (fun s a => HelperAction.apply s a) {}).links.entry = some 0 := by decide
  rw [hfirst, hnone] at hres
  cases hres

/-- A hotplug event while another client shows its framebuffer, one whose framebuffer cannot be
set up, and the helper goes. -/
theorem fb_helper_list_ok_delayed :
    HelpersOk ([HelperAction.init 0 {}, .initialConfig 0 0, .hotplug 0 [.other] 0,
      .hotplug 0 [.own, .off] (-12), .fini 0].foldl (fun s a => HelperAction.apply s a) {}) := by
  refine fb_helper_list_ok (helperRun_reach _ _ ?_)
  refine ⟨⟨rfl, fun h hh => ?_⟩, ⟨rfl, fun hfb => ?_⟩, ⟨rfl, fun _ hbound => ?_⟩,
    ⟨rfl, fun _ _ => by decide⟩, ⟨rfl, trivial⟩, trivial⟩
  · cases hh.1
  · cases hfb
  · exact absurd hbound (by decide)

end GfxDrm.FbHelper
