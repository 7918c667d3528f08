import GfxDrm.Framebuffer.Defs
import GfxDrm.Idr.Map
import GfxDrm.Lib.Pool

/-! What refers to a framebuffer. -/

namespace GfxDrm.Framebuffer
open Kref Run

variable {nc np : ℕ}

/-- The references a call is to drop or to hand on. -/
def FbCall.holds : FbCall nc np → List ℕ
  | addfb _ x | remove x _ | removeActive x _ | removeLast x _ | updatePlane _ x
  | pageFlip _ x => [x]
  | release _ | disablePlane _ => []
  | setcrtc x => x.toList
  | out l _ => l

namespace FbState

/-- The crtcs and planes that scan `x` out. -/
def crtcRefs (s : FbState nc np) (x : ℕ) : ℕ := pointers Finset.univ (fun c => (s.crtc c).fb) x

def planeRefs (s : FbState nc np) (x : ℕ) : ℕ := pointers Finset.univ (fun p => (s.plane p).fb) x

/-- How often the idr has `x`. -/
def registered (s : FbState nc np) (x : ℕ) : ℕ := (idrPointers s.crtcIdr).count (some (.fb x))

/-- How often the lists of the files have `x`. -/
def filpRefs (s : FbState nc np) (x : ℕ) : ℕ := listed s.files s.fbs x

def callRefs (s : FbState nc np) (x : ℕ) : ℕ := Pool.total (fun c x => c.holds.count x) s.calls x

def fbRefs (s : FbState nc np) (x : ℕ) : ℕ :=
  s.crtcRefs x + s.planeRefs x + s.registered x + s.filpRefs x + s.callRefs x

end FbState

/-- A framebuffer is there as long as something refers to it, with one reference for each. -/
structure FramebuffersOk (s : FbState nc np) : Prop where
  refs : Balanced s.refs s.fbRefs
  bug : s.bug = false

/-- The invariant while a step has the references `hand` in hand. -/
structure FbInv (hand : List ℕ) (s : FbState nc np) : Prop where
  refs : Balanced s.refs fun x => s.fbRefs x + hand.count x
  sound : Idr.Sound s.crtcIdr
  bug : s.bug = false

variable {s s' : FbState nc np} {hand : List ℕ} {x y file id : ℕ} {alloc : Bool}

theorem FbInv.framebuffersOk (h : FbInv [] s) : FramebuffersOk s :=
  ⟨h.refs.congr fun _ => rfl, h.bug⟩

namespace FbInv

/-- References change hands. -/
theorem trade {hand' : List ℕ} (h : FbInv hand s) (hrefs : s'.refs = s.refs)
    (hidr : s'.crtcIdr = s.crtcIdr) (hbug : s'.bug = s.bug)
    (he : ∀ x, s'.fbRefs x + hand'.count x = s.fbRefs x + hand.count x) : FbInv hand' s' :=
  ⟨hrefs ▸ h.refs.congr he, hidr ▸ h.sound, hbug ▸ h.bug⟩

/-- Locks come and go. -/
theorem locks {fbsLock : ℕ → Bool} {modeMutex : Bool} {crtcMutex : Fin nc → Bool}
    (h : FbInv hand s) : FbInv hand { s with fbsLock, modeMutex, crtcMutex } :=
  ⟨h.refs, h.sound, h.bug⟩

theorem reference (h : FbInv hand s) (hx : 0 < s.fbRefs x + hand.count x) :
    FbInv (x :: hand) (s.reference x) := by
  refine ⟨h.refs.get hx fun y => ?_, h.sound, h.bug⟩
  rw [List.count_cons, points]
  show s.fbRefs y + _ = _
  simp only [beq_iff_eq, Option.some.injEq]
  omega

theorem unreference (h : FbInv (x :: hand) s) : FbInv hand (s.unreference x) := by
  refine ⟨h.refs.put fun y => ?_, h.sound, h.bug⟩
  rw [List.count_cons, points]
  show s.fbRefs y + _ = s.fbRefs y + _ + _
  simp only [beq_iff_eq, Option.some.injEq]
  omega

/-- What holds another reference of it. -/
theorem unreferenceBug (h : FbInv (x :: hand) s) (hx : 0 < s.fbRefs x + hand.count x) :
    FbInv hand (s.unreferenceBug x) := by
  refine ⟨h.unreference.refs, h.sound, ?_⟩
  have halive := (h.refs.alive x).mpr (by rw [List.count_cons_self]; omega)
  have hcount := h.refs.count x halive
  rw [List.count_cons_self] at hcount
  show (s.bug || decide (s.refs.count x - 1 = 0)) = false
  rw [h.bug, Bool.false_or, decide_eq_false_iff_not]
  omega

end FbInv

/-! ### Calls -/

theorem fbRefs_calls (calls : List (FbCall nc np)) (x : ℕ) :
    { s with calls }.fbRefs x + s.callRefs x =
      s.fbRefs x + Pool.total (fun c x => c.holds.count x) calls x := by
  show s.crtcRefs x + s.planeRefs x + s.registered x + s.filpRefs x +
    Pool.total (fun c x => c.holds.count x) calls x + s.callRefs x = _
  unfold FbState.fbRefs
  omega

/-- A call leaves the pool with what it holds in hand. -/
theorem FbInv.take {c : FbCall nc np} (h : FbInv [] s) (hc : c ∈ s.calls) :
    FbInv c.holds { s with calls := s.calls.erase c } := by
  refine h.trade rfl rfl rfl fun x => ?_
  have hcalls := fbRefs_calls (s := s) (s.calls.erase c) x
  have htotal : s.callRefs x = Pool.total (fun c x => c.holds.count x) (c :: s.calls.erase c) x :=
    Pool.total_perm (List.perm_cons_erase hc) x
  rw [Pool.total_cons] at htotal
  rw [List.count_nil]
  omega

/-- A call goes on with what is in hand. -/
theorem FbInv.goOn {r : Option (FbCall nc np) × FbState nc np}
    (h : FbInv ((r.1.map FbCall.holds).getD []) r.2) : FbInv [] (FbState.goOn r) := by
  obtain ⟨c, s⟩ := r
  cases c with
  | none => exact h
  | some c =>
    refine h.trade rfl rfl rfl fun x => ?_
    have hcalls := fbRefs_calls (s := s) (c :: s.calls) x
    rw [Pool.total_cons] at hcalls
    show { s with calls := c :: s.calls }.fbRefs x + _ = s.fbRefs x + c.holds.count x
    unfold FbState.callRefs at hcalls
    rw [List.count_nil]
    omega

/-! ### Ids -/

theorem mem_of_idrFind {o : ModeObject nc np} (h : idrFind s.crtcIdr id = some o) :
    some o ∈ idrPointers s.crtcIdr :=
  List.mem_map.mpr ⟨_, Idr.mem_entries.mpr (Option.join_eq_some_iff.mp h), rfl⟩

theorem lookup_some (h : s.lookup id = some x) :
    idrFind s.crtcIdr id = some (.fb x) ∧ (s.fb x).id = id := by
  unfold FbState.lookup at h
  split at h
  · rename_i y hy
    split at h
    · rename_i hid
      obtain rfl := Option.some.inj h
      exact ⟨hy, hid⟩
    · cases h
  · cases h

theorem registered_pos (h : idrFind s.crtcIdr id = some (.fb x)) : 0 < s.registered x :=
  List.count_pos_iff.mpr (mem_of_idrFind h)

theorem FbInv.framebufferLookup (h : FbInv hand s) (id : ℕ) :
    FbInv ((s.framebufferLookup id).1.toList ++ hand) (s.framebufferLookup id).2 := by
  unfold FbState.framebufferLookup
  cases hx : s.lookup id with
  | none => exact h
  | some x =>
    refine h.reference ?_
    have := registered_pos (lookup_some hx).1
    unfold FbState.fbRefs
    omega

variable {idr : Idr (ModeObject nc np)}

/-- Another idr. -/
theorem registered_insert (hfree : s.crtcIdr.ptrs id = none)
    (h : idr.ptrs = Function.update s.crtcIdr.ptrs id (some (some (.fb x)))) (y : ℕ) :
    (idrPointers idr).count (some (.fb y)) = s.registered y + points (some x) y := by
  rw [(Idr.idrPointers_insert hfree h).count_eq, List.count_cons, points]
  simp only [beq_iff_eq, Option.some.injEq, ModeObject.fb.injEq]
  rfl

theorem registered_remove (hid : s.crtcIdr.ptrs id = some (some (.fb x)))
    (h : idr.ptrs = Function.update s.crtcIdr.ptrs id none) (y : ℕ) :
    s.registered y = (idrPointers idr).count (some (.fb y)) + points (some x) y := by
  unfold FbState.registered
  rw [(Idr.idrPointers_remove hid h).count_eq, List.count_cons, points]
  simp only [beq_iff_eq, Option.some.injEq, ModeObject.fb.injEq]

theorem registered_congr (h : idr.ptrs = s.crtcIdr.ptrs) (y : ℕ) :
    (idrPointers idr).count (some (.fb y)) = s.registered y :=
  (Idr.idrPointers_congr h).count_eq _

theorem FbInv.framebufferInit {v : DrmFramebuffer} (h : FbInv hand s)
    (hx : s.refs.alive x = false) : FbInv (x :: hand) (s.framebufferInit x v alloc) := by
  have hnew : Balanced (s.refs.new x) fun y => s.fbRefs y + (x :: hand).count y := by
    refine h.refs.new hx fun y => ?_
    rw [List.count_cons, points]
    simp only [beq_iff_eq, Option.some.injEq]
    omega
  obtain ⟨hsound, hcases⟩ := h.sound.getNewAbove (some (.fb x)) 1 alloc
  unfold FbState.framebufferInit
  dsimp only
  generalize idrGetNewAbove s.crtcIdr (some (.fb x)) 1 alloc = r at hsound hcases
  obtain ⟨res, idr⟩ := r
  dsimp only at hsound hcases
  obtain ⟨id, rfl, -, hfree, hptrs⟩ | ⟨⟨e, rfl⟩, hptrs⟩ := hcases
  · refine ⟨hnew.get ?_ fun y => ?_, hsound, h.bug⟩
    · rw [List.count_cons_self]
      omega
    · have hreg := registered_insert hfree hptrs y
      show s.crtcRefs y + s.planeRefs y + (idrPointers idr).count (some (.fb y)) + s.filpRefs y +
        s.callRefs y + _ = s.fbRefs y + _ + _
      unfold FbState.fbRefs
      omega
  · refine ⟨hnew.congr fun y => ?_, hsound, h.bug⟩
    have hreg := registered_congr hptrs y
    show s.crtcRefs y + s.planeRefs y + (idrPointers idr).count (some (.fb y)) + s.filpRefs y +
      s.callRefs y + _ = s.fbRefs y + _
    unfold FbState.fbRefs
    omega

/-- Whether drm_mode_object_get has given a framebuffer its id. -/
def FbState.Registered (s : FbState nc np) (x : ℕ) : Prop :=
  idrFind s.crtcIdr (s.fb x).id = some (.fb x)

/-- Besides the idr, something else refers to the framebuffer. -/
theorem FbInv.unregister (h : FbInv hand s) (hreg : s.Registered x)
    (hx : s.registered x < s.fbRefs x + hand.count x) : FbInv hand (s.unregister x true) := by
  obtain ⟨hsound, hptrs⟩ := h.sound.remove (s.fb x).id true
  have hptrs := hptrs rfl
  have hcount := registered_remove (Option.join_eq_some_iff.mp hreg) hptrs
  have hhand (y : ℕ) : FbState.fbRefs { s with
      crtcIdr := (idrRemove s.crtcIdr (s.fb x).id true).2
      fb := Function.update s.fb x { s.fb x with id := 0 } } y + (x :: hand).count y =
      s.fbRefs y + hand.count y := by
    have := hcount y
    rw [points] at this
    rw [List.count_cons]
    simp only [beq_iff_eq, Option.some.injEq] at this ⊢
    show s.crtcRefs y + s.planeRefs y +
      (idrPointers (idrRemove s.crtcIdr (s.fb x).id true).2).count (some (.fb y)) + s.filpRefs y +
        s.callRefs y + _ = _
    unfold FbState.fbRefs
    omega
  have hmid : FbInv (x :: hand) { s with
      crtcIdr := (idrRemove s.crtcIdr (s.fb x).id true).2
      fb := Function.update s.fb x { s.fb x with id := 0 } } :=
    ⟨h.refs.congr hhand, hsound, h.bug⟩
  refine hmid.unreferenceBug ?_
  have hself := hhand x
  have hpos := hcount x
  rw [List.count_cons_self] at hself
  rw [points_self] at hpos
  omega

end GfxDrm.Framebuffer
