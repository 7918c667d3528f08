import GfxDrm.Errno
import GfxDrm.Lib.Kref
import GfxDrm.Lib.Run

/-! User mappings of GEM objects: the callbacks the devmap framework makes for the segments
(drm_sunmod.c). -/

namespace GfxDrm.GemMap
open Kref Run

/-- gem_map_list. -/
structure GemMapList where
  dhp : ℕ
  mapoffset : ℕ
  maplen : ℕ
  deriving DecidableEq, Repr

/-- `handles` counts the references that are not owed to mappings, `segs` are the segments the
framework has, each devmap handle with its object. A handle's `dh_cookie` is the umem cookie of
the object it was set up for. -/
structure GemMapState where
  refs : Counts ℕ := {}
  cookRefcnt : ℕ → ℕ := fun _ => 0
  segList : ℕ → List GemMapList := fun _ => []
  handles : ℕ → ℕ := fun _ => 0
  segs : List (ℕ × ℕ) := []
  /-- An ASSERT has failed. -/
  asserted : Bool := false

namespace GemMapState

/-- The live segments of an object. -/
def segments (s : GemMapState) (o : ℕ) : ℕ := s.segs.countP fun p => p.2 = o

/-- A devmap handle the framework does not use. -/
def Fresh (s : GemMapState) (dh : ℕ) : Prop := ∀ p ∈ s.segs, p.1 ≠ dh

/-- drm_gem_map; `minor` tells whether the minor was found, and the object is found in `map_idr`
as long as it is there. A segment whose callback fails is not made. -/
def drmGemMap (s : GemMapState) (dh o : ℕ) (minor : Bool) : ℤ × GemMapState :=
  if !minor then (-Errno.eNodev, s)
  else if !s.refs.alive o then (-Errno.eInval, s)
  else
    (0, { s with
      asserted := s.asserted || decide (s.cookRefcnt o ≠ 0)
      cookRefcnt := Function.update s.cookRefcnt o (s.cookRefcnt o + 1)
      refs := s.refs.get o
      segs := (dh, o) :: s.segs })

/-- drm_gem_map_access; `load` is what devmap_load returns. -/
def drmGemMapAccess (s : GemMapState) (dh o offset len : ℕ) (load : ℤ) (alloc : Bool) :
    ℤ × GemMapState :=
  if load ≠ 0 then (-1, s)
  else if alloc then
    (0, { s with
      segList := Function.update s.segList o
        (s.segList o ++ [{ dhp := dh, mapoffset := offset, maplen := len }]) })
  else (0, s)

/-- drm_gem_dup. -/
def drmGemDup (s : GemMapState) (o new : ℕ) : GemMapState :=
  { s with
    cookRefcnt := Function.update s.cookRefcnt o (s.cookRefcnt o + 1)
    segs := (new, o) :: s.segs }

/-- drm_gem_unmap; the new halves have the cookie of the old handle. -/
def drmGemUnmap (s : GemMapState) (dh o : ℕ) (new1 new2 : Option ℕ) : GemMapState :=
  let halves := new1.toList ++ new2.toList
  let cook := s.cookRefcnt o + halves.length
  let s :=
    { s with
      segList := Function.update s.segList o []
      asserted := s.asserted || decide (cook = 0)
      cookRefcnt := Function.update s.cookRefcnt o (cook - 1)
      segs := halves.map (fun h => (h, o)) ++ s.segs.erase (dh, o) }
  if cook - 1 = 0 then { s with refs := s.refs.put o } else s

end GemMapState

/-! ### Runs -/

inductive GemMapAction where
  /-- drm_gem_object_init, with the first reference. -/
  | create (o : ℕ)
  /-- Another reference through a handle or a name. -/
  | openHandle (o : ℕ)
  | closeHandle (o : ℕ)
  | map (dh o : ℕ) (minor : Bool)
  | access (dh o offset len : ℕ) (load : ℤ) (alloc : Bool)
  | dup (dh o new : ℕ)
  | unmap (dh o : ℕ) (new1 new2 : Option ℕ)
  deriving Repr

variable (s : GemMapState)

/-- The framework calls back for the segments it has, and names a new one by a handle it does not
use; a half may keep the old handle. -/
def GemMapAction.Enabled : GemMapAction → Prop
  | .create o => s.refs.alive o = false
  | .openHandle o | .closeHandle o => 0 < s.handles o
  | .map dh _ _ => s.Fresh dh
  | .access dh o _ _ _ _ => (dh, o) ∈ s.segs
  | .dup dh o new => (dh, o) ∈ s.segs ∧ s.Fresh new
  | .unmap dh o new1 new2 =>
    (dh, o) ∈ s.segs ∧ (new1.toList ++ new2.toList).Nodup ∧
      ∀ h ∈ new1.toList ++ new2.toList, h = dh ∨ s.Fresh h

def GemMapAction.apply : GemMapAction → GemMapState
  | .create o =>
    { s with
      refs := s.refs.new o
      cookRefcnt := Function.update s.cookRefcnt o 0
      segList := Function.update s.segList o []
      handles := Function.update s.handles o 1 }
  | .openHandle o =>
    { s with
      refs := s.refs.get o
      handles := Function.update s.handles o (s.handles o + 1) }
  | .closeHandle o =>
    { s with
      refs := s.refs.put o
      handles := Function.update s.handles o (s.handles o - 1) }
  | .map dh o minor => (s.drmGemMap dh o minor).2
  | .access dh o offset len load alloc => (s.drmGemMapAccess dh o offset len load alloc).2
  | .dup _ o new => s.drmGemDup o new
  | .unmap dh o new1 new2 => s.drmGemUnmap dh o new1 new2

/-- The references an object should have: its handles, and one while it is mapped. -/
def GemMapState.owed (o : ℕ) : ℕ := s.handles o + if 0 < s.segments o then 1 else 0

/-- An object is there as long as it has a handle or a segment, its count is the handles and one
more while it is mapped, its cookie counts the segments, no ASSERT has failed, and what is on its
list belongs to a live handle. -/
structure MapsOk : Prop where
  refs : Balanced s.refs s.owed
  cook : ∀ o, s.cookRefcnt o = s.segments o
  asserted : s.asserted = false
  segList : ∀ o, ∀ e ∈ s.segList o, (e.dhp, o) ∈ s.segs

/-- A segment is made by drm_gem_map for an object that has none. -/
def GemMapAction.Whole : GemMapAction → Prop
  | .map _ o minor => minor = true → s.refs.alive o = true → s.segments o = 0
  | _ => True

def gemMapSystem : System GemMapState GemMapAction where
  init s := s = {}
  step s a s' := a.Enabled s ∧ s' = a.apply s

/-! When an object's references, cookie and segments agree. -/

open Function

variable {s : GemMapState} {o dh : ℕ}

theorem MapsOk.owed_of_dead (h : MapsOk s) (hdead : s.refs.alive o = false) :
    s.handles o = 0 ∧ s.segments o = 0 := by
  have hnot : ¬0 < s.owed o := fun hpos => by
    rw [(h.refs.alive o).mpr hpos] at hdead
    cases hdead
  rw [GemMapState.owed] at hnot
  split at hnot <;> omega

theorem MapsOk.create (h : MapsOk s) (hdead : s.refs.alive o = false) :
    MapsOk ((GemMapAction.create o).apply s) := by
  obtain ⟨hhandles, hsegs⟩ := h.owed_of_dead hdead
  refine ⟨h.refs.new hdead fun x => ?_, fun x => ?_, h.asserted, fun x => ?_⟩
  · show update s.handles o 1 x + _ = s.handles x + _ + _
    by_cases hxo : x = o
    · rw [hxo, update_self, points_self, hhandles, Nat.add_comm 1, Nat.zero_add]
      rfl
    · rw [update_of_ne hxo, points_some_of_ne hxo]
      rfl
  · show update s.cookRefcnt o 0 x = s.segments x
    by_cases hxo : x = o
    · rw [hxo, update_self, hsegs]
    · rw [update_of_ne hxo, h.cook x]
  · show ∀ e ∈ update s.segList o [] x, (e.dhp, x) ∈ s.segs
    by_cases hxo : x = o
    · rw [hxo]
      simp
    · rw [update_of_ne hxo]
      exact h.segList x

theorem MapsOk.openHandle (h : MapsOk s) (hpos : 0 < s.handles o) :
    MapsOk ((GemMapAction.openHandle o).apply s) := by
  have howed : 0 < s.owed o := by
    rw [GemMapState.owed]
    omega
  refine ⟨h.refs.get howed fun x => ?_, h.cook, h.asserted, h.segList⟩
  show update s.handles o (s.handles o + 1) x + _ = s.handles x + _ + _
  by_cases hxo : x = o
  · rw [hxo, update_self, points_self, Nat.add_right_comm]
    rfl
  · rw [update_of_ne hxo, points_some_of_ne hxo]
    rfl

theorem MapsOk.closeHandle (h : MapsOk s) (hpos : 0 < s.handles o) :
    MapsOk ((GemMapAction.closeHandle o).apply s) := by
  refine ⟨h.refs.put fun x => ?_, h.cook, h.asserted, h.segList⟩
  show s.handles x + _ = update s.handles o (s.handles o - 1) x + _ + _
  by_cases hxo : x = o
  · rw [hxo, update_self, points_self, Nat.add_right_comm, Nat.sub_add_cancel hpos]
    rfl
  · rw [update_of_ne hxo, points_some_of_ne hxo]
    rfl

/-! ### Segments -/

theorem countP_halves (o x : ℕ) (halves : List ℕ) (l : List (ℕ × ℕ)) :
    (halves.map (fun h => (h, o)) ++ l).countP (fun p => decide (p.2 = x)) =
      l.countP (fun p => decide (p.2 = x)) + halves.length * points (some o) x := by
  induction halves with
  | nil => simp
  | cons h halves ih =>
    rw [List.map_cons, List.cons_append, countP_cons_points Prod.snd, ih, List.length_cons, Nat.succ_mul,
      Nat.add_assoc]

theorem MapsOk.map (h : MapsOk s) (minor : Bool)
    (hw : minor = true → s.refs.alive o = true → s.segments o = 0) :
    MapsOk (s.drmGemMap dh o minor).2 := by
  unfold GemMapState.drmGemMap
  split
  · exact h
  · rename_i hminor
    split
    · exact h
    · rename_i halive
      have halive : s.refs.alive o = true := by simpa using halive
      have hzero := hw (by simpa using hminor) halive
      have hseg : ∀ x, ((dh, o) :: s.segs).countP (fun p => decide (p.2 = x)) =
          s.segments x + points (some o) x := fun x => countP_cons_points Prod.snd ..
      refine ⟨h.refs.get ((h.refs.alive o).mp halive) fun x => ?_, fun x => ?_, ?_,
        fun x e he => List.mem_cons_of_mem _ (h.segList x e he)⟩
      · show s.handles x + (if 0 < ((dh, o) :: s.segs).countP _ then 1 else 0) =
          s.handles x + (if 0 < s.segments x then 1 else 0) + _
        rw [hseg]
        by_cases hxo : x = o
        · rw [hxo, hzero, points_self]
          rfl
        · rw [points_some_of_ne hxo]
          rfl
      · show update s.cookRefcnt o (s.cookRefcnt o + 1) x = ((dh, o) :: s.segs).countP _
        rw [hseg]
        by_cases hxo : x = o
        · rw [hxo, update_self, h.cook o, points_self]
        · rw [update_of_ne hxo, h.cook x, points_some_of_ne hxo]
          rfl
      · rw [h.asserted, h.cook o, hzero]
        rfl

theorem MapsOk.access (h : MapsOk s) (hm : (dh, o) ∈ s.segs) (offset len : ℕ) (load : ℤ)
    (alloc : Bool) : MapsOk (s.drmGemMapAccess dh o offset len load alloc).2 := by
  unfold GemMapState.drmGemMapAccess
  split
  · exact h
  · split
    · refine ⟨h.refs, h.cook, h.asserted, fun x e he => ?_⟩
      change e ∈ update s.segList o _ x at he
      by_cases hxo : x = o
      · rw [hxo, update_self, List.mem_append, List.mem_singleton] at he
        rcases he with he | rfl
        · exact hxo ▸ h.segList o e he
        · exact hxo ▸ hm
      · rw [update_of_ne hxo] at he
        exact h.segList x e he
    · exact h

/-- A segment more of an object that has one already. -/
theorem MapsOk.dup (h : MapsOk s) (hm : (dh, o) ∈ s.segs) (new : ℕ) :
    MapsOk (s.drmGemDup o new) := by
  have hpos : 0 < s.segments o := List.countP_pos_iff.mpr ⟨(dh, o), hm, by simp⟩
  have hseg : ∀ x, ((new, o) :: s.segs).countP (fun p => decide (p.2 = x)) =
      s.segments x + points (some o) x := fun x => countP_cons_points Prod.snd ..
  refine ⟨h.refs.congr fun x => ?_, fun x => ?_, h.asserted,
    fun x e he => List.mem_cons_of_mem _ (h.segList x e he)⟩
  · show s.handles x + (if 0 < ((new, o) :: s.segs).countP _ then 1 else 0) =
      s.handles x + if 0 < s.segments x then 1 else 0
    rw [hseg]
    by_cases hxo : x = o
    · rw [hxo, if_pos hpos, if_pos (by omega)]
    · rw [points_some_of_ne hxo]
      rfl
  · show update s.cookRefcnt o (s.cookRefcnt o + 1) x = ((new, o) :: s.segs).countP _
    rw [hseg]
    by_cases hxo : x = o
    · rw [hxo, update_self, h.cook o, points_self]
    · rw [update_of_ne hxo, h.cook x, points_some_of_ne hxo]
      rfl

theorem MapsOk.unmap (h : MapsOk s) (hm : (dh, o) ∈ s.segs) (new1 new2 : Option ℕ) :
    MapsOk (s.drmGemUnmap dh o new1 new2) := by
  have hpos : 0 < s.segments o := List.countP_pos_iff.mpr ⟨(dh, o), hm, by simp⟩
  obtain ⟨halves, hhalves⟩ : ∃ halves, halves = new1.toList ++ new2.toList := ⟨_, rfl⟩
  have hseg : ∀ x, (halves.map (fun h => (h, o)) ++ s.segs.erase (dh, o)).countP
      (fun p => decide (p.2 = x)) + points (some o) x =
        s.segments x + halves.length * points (some o) x := fun x => by
    have herase := countP_erase_points Prod.snd hm x
    rw [countP_halves, Nat.add_right_comm]
    exact congrArg (· + halves.length * points (some o) x) herase
  have hself := hseg o
  rw [points_self] at hself
  have hother : ∀ x, x ≠ o → (halves.map (fun h => (h, o)) ++ s.segs.erase (dh, o)).countP
      (fun p => decide (p.2 = x)) = s.segments x := fun x hxo => by
    have hx := hseg x
    rwa [points_some_of_ne hxo] at hx
  have hcook : ∀ x, update s.cookRefcnt o (s.cookRefcnt o + halves.length - 1) x =
      (halves.map (fun h => (h, o)) ++ s.segs.erase (dh, o)).countP
        (fun p => decide (p.2 = x)) := fun x => by
    by_cases hxo : x = o
    · rw [hxo, update_self, h.cook o]
      omega
    · rw [update_of_ne hxo, h.cook x, hother x hxo]
  have hassert : (s.asserted || decide (s.cookRefcnt o + halves.length = 0)) = false := by
    rw [h.asserted, h.cook o]
    simp only [Bool.false_or, decide_eq_false_iff_not]
    omega
  have hlist : ∀ x, ∀ e ∈ update s.segList o [] x,
      (e.dhp, x) ∈ halves.map (fun h => (h, o)) ++ s.segs.erase (dh, o) := by
    intro x e he
    by_cases hxo : x = o
    · rw [hxo, update_self] at he
      cases he
    · rw [update_of_ne hxo] at he
      have hne : (e.dhp, x) ≠ (dh, o) := fun heq => hxo (congrArg Prod.snd heq)
      exact List.mem_append_right _ ((List.mem_erase_of_ne hne).mpr (h.segList x e he))
  unfold GemMapState.drmGemUnmap
  rw [← hhalves]
  dsimp only
  split
  · rename_i hlast
    refine ⟨h.refs.put fun x => ?_, hcook, hassert, hlist⟩
    show s.handles x + (if 0 < s.segments x then 1 else 0) =
      s.handles x + (if 0 < (halves.map (fun h => (h, o)) ++ s.segs.erase (dh, o)).countP _ then 1
        else 0) + _
    by_cases hxo : x = o
    · rw [h.cook o] at hlast
      rw [hxo, if_pos hpos, if_neg (by omega), points_self]
    · rw [hother x hxo, points_some_of_ne hxo]
      rfl
  · rename_i hmore
    refine ⟨h.refs.congr fun x => ?_, hcook, hassert, hlist⟩
    show s.handles x + (if 0 < (halves.map (fun h => (h, o)) ++ s.segs.erase (dh, o)).countP _ then 1
        else 0) = s.handles x + if 0 < s.segments x then 1 else 0
    by_cases hxo : x = o
    · rw [h.cook o] at hmore
      rw [hxo, if_pos hpos, if_pos (by omega)]
    · rw [hother x hxo]

/-! ### Runs -/

theorem MapsOk.apply {a : GemMapAction} (h : MapsOk s) (he : a.Enabled s) (hw : a.Whole s) :
    MapsOk (a.apply s) := by
  cases a with
  | create o => exact h.create he
  | openHandle o => exact h.openHandle he
  | closeHandle o => exact h.closeHandle he
  | map dh o minor => exact h.map minor hw
  | access dh o offset len load alloc => exact h.access he offset len load alloc
  | dup dh o new => exact h.dup he.1 new
  | unmap dh o new1 new2 => exact h.unmap he.1 new1 new2

theorem maps_init : MapsOk {} :=
  ⟨.init fun _ => rfl, fun _ => rfl, rfl, fun _ _ he => by cases he⟩

/-- As long as drm_gem_map only ever meets objects without a segment, references, cookies and
segments agree. -/
theorem gem_maps_ok (h : ReachWhile gemMapSystem (fun s a => a.Whole s) s) : MapsOk s := by
  refine h.invariant (fun s hs => ?_) fun s a s' hinv hg hs => ?_
  · exact hs ▸ maps_init
  · obtain ⟨he, rfl⟩ := hs
    exact hinv.apply he hg

/-! ### Computed runs -/

theorem gemMapRun_reach (guard : GemMapState → GemMapAction → Prop) (l : List GemMapAction)
    (h : AllAllowed (fun s a => a.Enabled s ∧ guard s a) (fun s a => GemMapAction.apply s a) l {}) :
    ReachWhile gemMapSystem guard (l.foldl (fun s a => GemMapAction.apply s a) {}) :=
  ReachWhile.foldl (S := gemMapSystem) _ (fun _ _ hs => ⟨hs.2, hs.1, rfl⟩) l (.init rfl) h

instance (s : GemMapState) (dh : ℕ) : Decidable (s.Fresh dh) :=
  inferInstanceAs (Decidable (∀ _ ∈ _, _))

instance (s : GemMapState) (a : GemMapAction) : Decidable (a.Enabled s) :=
  match a with
  | .create o => inferInstanceAs (Decidable (_ = _))
  | .openHandle o | .closeHandle o => inferInstanceAs (Decidable (_ < _))
  | .map dh _ _ => inferInstanceAs (Decidable (s.Fresh dh))
  | .access dh o _ _ _ _ => inferInstanceAs (Decidable (_ ∈ _))
  | .dup dh o new => inferInstanceAs (Decidable (_ ∧ _))
  | .unmap dh o new1 new2 =>
    inferInstanceAs (Decidable ((dh, o) ∈ s.segs ∧ (new1.toList ++ new2.toList).Nodup ∧
      ∀ h ∈ new1.toList ++ new2.toList, h = dh ∨ s.Fresh h))

instance (s : GemMapState) (a : GemMapAction) : Decidable (a.Whole s) :=
  match a with
  | .map _ o minor => inferInstanceAs (Decidable (_ → _))
  | .create _ | .openHandle _ | .closeHandle _ | .access _ _ _ _ _ _ | .dup _ _ _
  | .unmap _ _ _ _ => inferInstanceAs (Decidable True)

/-- A segment is faulted in, inherited by a child, split by a partial unmap and gone; then the
object is mapped again. -/
theorem gem_maps_ok_split :
    MapsOk ([GemMapAction.create 0, .map 1 0 true, .access 1 0 0 4096 0 true, .dup 1 0 2,
      .unmap 1 0 (some 1) (some 3), .closeHandle 0, .unmap 1 0 none none, .unmap 3 0 none none,
      .unmap 2 0 none none, .create 0, .map 1 0 true].foldl
        (fun s a => GemMapAction.apply s a) {}) :=
  gem_maps_ok (gemMapRun_reach _ _ (by decide))

/-- Two processes map one object. -/
theorem gem_map_twice : ¬ ∀ s, Reach gemMapSystem s → MapsOk s := by
  intro hall
  have hok := hall _ (gemMapRun_reach _ [.create 0, .map 1 0 true, .map 2 0 true] (by decide))
  exact absurd hok.asserted (by decide)

end GfxDrm.GemMap
