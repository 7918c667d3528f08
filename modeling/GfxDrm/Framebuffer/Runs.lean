import GfxDrm.Framebuffer.Refs

/-! Framebuffers over whole runs. -/

namespace GfxDrm.Framebuffer
open Kref Run

variable {nc np : ℕ} {s s' : FbState nc np} {hand : List ℕ} {x y file id : ℕ} {alloc : Bool}

/-! ### The lists of the files -/

theorem fbRefs_fbs (hf : file ∈ s.files) (l : List ℕ) (x : ℕ) :
    { s with fbs := Function.update s.fbs file l }.fbRefs x + (s.fbs file).count x =
      s.fbRefs x + l.count x := by
  have := listed_update (l := s.fbs) hf l x
  show s.crtcRefs x + s.planeRefs x + s.registered x + listed s.files (Function.update s.fbs file l)
    x + s.callRefs x + _ = _
  unfold FbState.fbRefs FbState.filpRefs
  omega

theorem FbInv.listAdd (h : FbInv (x :: hand) s) (hf : file ∈ s.files) :
    FbInv hand { s with fbs := Function.update s.fbs file (x :: s.fbs file) } := by
  refine h.trade rfl rfl rfl fun y => ?_
  have := fbRefs_fbs hf (x :: s.fbs file) y
  rw [List.count_cons] at this ⊢
  omega

theorem FbInv.listDel {l : List ℕ} (h : FbInv hand s) (hf : file ∈ s.files)
    (hl : (s.fbs file).Perm (x :: l)) :
    FbInv (x :: hand) { s with fbs := Function.update s.fbs file l } := by
  refine h.trade rfl rfl rfl fun y => ?_
  have := fbRefs_fbs hf l y
  rw [hl.count_eq, List.count_cons] at this
  rw [List.count_cons]
  omega

/-- A framebuffer on a list is unregistered and taken off. -/
theorem FbInv.reap {l : List ℕ} (h : FbInv hand s) (hf : file ∈ s.files)
    (hl : (s.fbs file).Perm (x :: l)) (hreg : s.Registered x) :
    FbInv (x :: hand) { s.unregister x true with fbs := Function.update s.fbs file l } := by
  have hfilp : 0 < s.filpRefs x := by
    have hcount := listed_update (l := s.fbs) hf l x
    rw [hl.count_eq, List.count_cons_self] at hcount
    unfold FbState.filpRefs
    omega
  have hun : FbInv hand (s.unregister x true) := h.unregister hreg (by
    unfold FbState.fbRefs
    omega)
  exact hun.listDel hf hl

/-! ### Scanning out -/

theorem fbRefs_crtc (crtc : Fin nc → DrmCrtc) (x : ℕ) :
    { s with crtc }.fbRefs x + s.crtcRefs x =
      s.fbRefs x + pointers Finset.univ (fun c => (crtc c).fb) x := by
  show pointers Finset.univ (fun c => (crtc c).fb) x + s.planeRefs x + s.registered x +
    s.filpRefs x + s.callRefs x + s.crtcRefs x = _
  unfold FbState.fbRefs
  omega

theorem fbRefs_plane (plane : Fin np → DrmPlane) (x : ℕ) :
    { s with plane }.fbRefs x + s.planeRefs x =
      s.fbRefs x + pointers Finset.univ (fun p => (plane p).fb) x := by
  show s.crtcRefs x + pointers Finset.univ (fun p => (plane p).fb) x + s.registered x +
    s.filpRefs x + s.callRefs x + s.planeRefs x = _
  unfold FbState.fbRefs
  omega

theorem update_comp {ι σ τ : Type*} [DecidableEq ι] (f : ι → σ) (g : σ → τ) (i : ι) (v : σ) :
    Function.update (fun j => g (f j)) i (g v) = fun j => g (Function.update f i v j) :=
  funext fun j => (Function.apply_update (fun _ => g) f i v j).symm

/-- A crtc trades its framebuffer for one in hand. -/
theorem FbInv.setCrtc {c : Fin nc} {v : DrmCrtc} {l l' : List ℕ}
    (h : FbInv l s) (hl : ∀ x, l'.count x + points v.fb x =
      l.count x + points (s.crtc c).fb x) :
    FbInv l' { s with crtc := Function.update s.crtc c v } := by
  refine h.trade rfl rfl rfl fun x => ?_
  have hrefs := fbRefs_crtc (s := s) (Function.update s.crtc c v) x
  have hup := pointers_update (p := fun c => (s.crtc c).fb) (Finset.mem_univ c) v.fb x
  rw [update_comp s.crtc (·.fb) c v] at hup
  have := hl x
  unfold FbState.crtcRefs at hrefs
  omega

theorem FbInv.setPlane {p : Fin np} {v : DrmPlane} {l l' : List ℕ}
    (h : FbInv l s) (hl : ∀ x, l'.count x + points v.fb x =
      l.count x + points (s.plane p).fb x) :
    FbInv l' { s with plane := Function.update s.plane p v } := by
  refine h.trade rfl rfl rfl fun x => ?_
  have hrefs := fbRefs_plane (s := s) (Function.update s.plane p v) x
  have hup := pointers_update (p := fun p => (s.plane p).fb) (Finset.mem_univ p) v.fb x
  rw [update_comp s.plane (·.fb) p v] at hup
  have := hl x
  unfold FbState.planeRefs at hrefs
  omega

theorem count_toList (o : Option ℕ) (x : ℕ) : o.toList.count x = points o x := by
  cases o with
  | none => rfl
  | some y => simp [points, List.count_singleton]

/-- Each crtc's new framebuffer is the old one, or the one the caller has in hand. -/
theorem FbInv.setConfigInternal {fb : Option ℕ} {o : SetConfig nc} (h : FbInv hand s)
    (hfb : ∀ x, fb = some x → x ∈ hand) : FbInv hand (s.setConfigInternal fb o) := by
  let new (c : Fin nc) : Option ℕ := (o.change c).apply (s.crtc c).fb fb
  have hold (x : ℕ) : s.crtcRefs x =
      (((List.finRange nc).map fun c => (new c, (s.crtc c).fb)).map Prod.snd).count (some x) := by
    rw [List.map_map]
    exact pointers_univ _ x
  have hnew (x : ℕ) : pointers Finset.univ new x =
      (((List.finRange nc).map fun c => (new c, (s.crtc c).fb)).map Prod.fst).count (some x) := by
    rw [List.map_map]
    exact pointers_univ _ x
  let base (x : ℕ) : ℕ :=
    s.planeRefs x + s.registered x + s.filpRefs x + s.callRefs x + hand.count x
  have hbase : Balanced s.refs fun x => base x +
      (((List.finRange nc).map fun c => (new c, (s.crtc c).fb)).map Prod.snd).count (some x) := by
    refine h.refs.congr fun x => ?_
    rw [← hold]
    show s.planeRefs x + s.registered x + s.filpRefs x + s.callRefs x + hand.count x +
      s.crtcRefs x = s.fbRefs x + hand.count x
    unfold FbState.fbRefs
    omega
  refine ⟨(hbase.swapAll fun p hp x hx => ?_).congr fun x => ?_, h.sound, h.bug⟩
  · obtain ⟨c, -, rfl⟩ := List.mem_map.mp hp
    have hx : (o.change c).apply (s.crtc c).fb fb = some x := hx
    cases hc : o.change c <;> rw [hc] at hx
    · exact .inl hx
    · cases hx
    · have := List.count_pos_iff.mpr (hfb x hx)
      exact .inr (show 0 < _ + hand.count x by omega)
  · rw [← hnew]
    show pointers Finset.univ new x + s.planeRefs x + s.registered x + s.filpRefs x +
      s.callRefs x + hand.count x = s.planeRefs x + s.registered x + s.filpRefs x +
        s.callRefs x + hand.count x + pointers Finset.univ new x
    omega

theorem FbInv.planeForceDisable {p : Fin np} (h : FbInv hand s)
    (hp : ∀ x, (s.plane p).fb = some x → x ∈ hand) : FbInv hand (s.planeForceDisable p) := by
  unfold FbState.planeForceDisable
  cases hy : (s.plane p).fb with
  | none => exact h
  | some y =>
    have hput : FbInv (y :: hand)
        { s with plane := Function.update s.plane p { s.plane p with fb := none } } := by
      refine h.setPlane fun x => ?_
      rw [List.count_cons, hy]
      simp [points]
    refine hput.unreferenceBug ?_
    have := List.count_pos_iff.mpr (hp y hy)
    omega

theorem FbInv.removeCrtcs {o : Fin nc → SetConfig nc} (h : FbInv hand s) :
    FbInv hand (s.removeCrtcs x o) := by
  unfold FbState.removeCrtcs
  induction List.finRange nc generalizing s with
  | nil => exact h
  | cons c l ih =>
    refine ih ?_
    dsimp only
    split
    · exact h.setConfigInternal fun y hy => by cases hy
    · exact h

theorem FbInv.removePlanes (h : FbInv hand s) (hx : x ∈ hand) :
    FbInv hand (s.removePlanes x) := by
  unfold FbState.removePlanes
  induction List.finRange np generalizing s with
  | nil => exact h
  | cons p l ih =>
    refine ih ?_
    dsimp only
    split
    · rename_i hp
      refine h.planeForceDisable fun y hy => ?_
      obtain rfl := Option.some.inj (hp.symm.trans hy)
      exact hx
    · exact h

/-! ### Steps -/

/-- What is in hand when a call has got so far. -/
def handOf (r : Option (FbCall nc np)) : List ℕ := (r.map FbCall.holds).getD []

/-- A step of drm_fb_release finds its framebuffer registered, and idr_remove finds memory. -/
def FbCall.Whole (s : FbState nc np) (o : FbOutcome nc) : FbCall nc np → Prop
  | release file => ∀ x ∈ (s.fbs file).head?, s.Registered x ∧ o.alloc = true
  | _ => True

theorem FbInv.step {c : FbCall nc np} {o : FbOutcome nc} (h : FbInv c.holds s)
    (he : c.Enabled s) (hw : c.Whole s o) :
    FbInv (handOf (c.step s o).1) (c.step s o).2 := by
  cases c with
  | addfb file x => exact FbInv.listAdd h he.1
  | remove x file =>
    show FbInv (handOf (some (if _ then _ else _))) s
    split <;> exact h
  | removeActive x file => exact (FbInv.removeCrtcs h).removePlanes (List.mem_singleton_self x)
  | removeLast x file =>
    have hput := FbInv.unreference h
    cases file <;> exact hput
  | release file =>
    unfold FbCall.step
    dsimp only
    cases hl : s.fbs file with
    | nil => exact FbInv.locks h
    | cons x l =>
      obtain ⟨hreg, halloc⟩ := hw x (by simp [hl])
      rw [halloc]
      exact FbInv.reap h he (hl ▸ List.Perm.refl _) hreg
  | setcrtc x =>
    have hin : ∀ y, x = some y → y ∈ x.toList := by
      rintro y rfl
      exact List.mem_singleton_self y
    exact FbInv.setConfigInternal h hin
  | disablePlane p =>
    refine FbInv.setPlane h fun y => ?_
    show (s.plane p).fb.toList.count y + points none y = [].count y + _
    rw [count_toList, points_none, List.count_nil, Nat.zero_add, Nat.add_zero]
  | updatePlane p x =>
    unfold FbCall.step
    dsimp only
    split
    · refine FbInv.setPlane h fun y => ?_
      show (s.plane p).fb.toList.count y + points (some x) y = (some x).toList.count y + _
      rw [count_toList, count_toList, Nat.add_comm]
    · exact h
  | pageFlip c x =>
    unfold FbCall.step
    dsimp only
    split
    · refine FbInv.setCrtc h fun y => ?_
      show (s.crtc c).fb.toList.count y + points (some x) y = (some x).toList.count y + _
      rw [count_toList, count_toList, Nat.add_comm]
    · exact h
  | out l lock =>
    cases l with
    | nil =>
      obtain _ | _ | c := lock
      · exact h
      · exact FbInv.locks h
      · exact FbInv.locks h
    | cons x l => exact FbInv.unreference h

/-! ### The first step of each call -/

theorem FbInv.addfb {o : FbCreate} (h : FbInv [] s)
    (ho : ∀ x, o.kzalloc = some x → s.refs.alive x = false) :
    FbInv (handOf (s.addfb file o).1) (s.addfb file o).2 := by
  unfold FbState.addfb
  cases hx : o.kzalloc with
  | none => exact h
  | some x => exact h.framebufferInit (ho x hx)

theorem FbInv.rmfb (h : FbInv [] s) (hf : file ∈ s.files)
    (hw : ∀ x, s.lookup id = some x → x ∈ s.fbs file → alloc = true) :
    FbInv (handOf (s.rmfb file id alloc).1) (s.rmfb file id alloc).2 := by
  unfold FbState.rmfb
  cases hx : s.lookup id with
  | none => exact h
  | some x =>
    dsimp only
    split
    · rename_i hmem
      obtain ⟨hfind, hid⟩ := lookup_some hx
      have hreg : s.Registered x := by rwa [FbState.Registered, hid]
      rw [hw x hx hmem]
      exact h.reap hf (List.perm_cons_erase hmem) hreg
    · exact h

theorem FbInv.setcrtcFb {c : Fin nc} {r : DrmModeCrtc} (h : FbInv [] s) :
    FbInv (s.setcrtcFb c r).1.toList (s.setcrtcFb c r).2 := by
  unfold FbState.setcrtcFb
  split
  · cases hx : (s.crtc c).fb with
    | none => exact h
    | some x =>
      refine h.reference ?_
      have : 0 < s.crtcRefs x := pointers_pos.mpr ⟨c, Finset.mem_univ c, hx⟩
      unfold FbState.fbRefs
      omega
  · have hget := h.framebufferLookup r.fbId
    rwa [List.append_nil] at hget

theorem FbInv.setcrtc {r : DrmModeCrtc} {o : ModeCrtcOutcome} (h : FbInv [] s) :
    FbInv (handOf (s.setcrtc r o).1) (s.setcrtc r o).2 := by
  have hgo {t : FbState nc np} {x : Option ℕ} {b : Prop} [Decidable b] (ht : FbInv x.toList t) :
      FbInv (handOf (some (if b then (.setcrtc x : FbCall nc np) else .out x.toList (some .all))))
        t.lockAll := by
    split <;> exact ht.locks
  unfold FbState.setcrtc
  split
  · exact h
  · split
    · rename_i c hc
      split
      · exact hgo h
      · have hget := h.setcrtcFb (c := c) (r := r)
        generalize s.setcrtcFb c r = res at hget
        obtain ⟨_ | x, t⟩ := res
        · exact hget
        · exact hgo hget
    · exact h

theorem FbInv.setplane {r : DrmModeSetPlane} (h : FbInv [] s) :
    FbInv (handOf (s.setplane r).1) (s.setplane r).2 := by
  unfold FbState.setplane
  split
  · split
    · exact h
    · split
      · have hget := h.framebufferLookup r.fbId
        generalize s.framebufferLookup r.fbId = res at hget
        obtain ⟨_ | x, t⟩ := res
        · exact hget
        · dsimp only
          split <;> exact hget
      · exact h
  · exact h

theorem FbInv.pageFlip {r : DrmModeCrtcPageFlip} {event : Bool} (h : FbInv [] s) :
    FbInv (handOf (s.pageFlip r event).1) (s.pageFlip r event).2 := by
  unfold FbState.pageFlip
  split
  · exact h
  · split
    · split
      · exact h
      · split
        · exact h
        · have hget := h.framebufferLookup r.fbId
          generalize s.framebufferLookup r.fbId = res at hget
          obtain ⟨_ | x, t⟩ := res
          · exact hget
          · dsimp only
            split <;> exact hget.locks
    · exact h

/-! ### Runs -/

/-- The two failures that go wrong do not happen: what drm_fb_release unregisters has an id, and
idr_remove finds memory for the id it takes back. -/
def FbAction.Whole (s : FbState nc np) : FbAction nc np → Prop
  | .rmfb file id alloc => ∀ x ∈ s.lookup id, x ∈ s.fbs file → alloc = true
  | .run c o => c.Whole s o
  | _ => True

theorem FbInv.apply {a : FbAction nc np} (h : FbInv [] s) (he : a.Enabled s) (hw : a.Whole s) :
    FbInv [] (a.apply s) := by
  cases a with
  | «open» file =>
    refine h.trade rfl rfl rfl fun x => ?_
    have := listed_insert (l := s.fbs) he [] x
    show s.crtcRefs x + s.planeRefs x + s.registered x +
      listed (insert file s.files) (Function.update s.fbs file []) x + s.callRefs x + _ = _
    rw [this]
    rfl
  | addfb file o => exact (h.addfb he.2).goOn
  | rmfb file id alloc => exact (h.rmfb he.1 hw).goOn
  | release file => exact FbInv.goOn (r := (some (.release file), _)) h.locks
  | setcrtc r o => exact h.setcrtc.goOn
  | setplane r => exact h.setplane.goOn
  | pageFlip r event => exact h.pageFlip.goOn
  | run c o => exact ((h.take he.1).step he.2 hw).goOn

/-- Runs from a state in which the driver has just loaded. -/
def fbSystem (nc np : ℕ) : System (FbState nc np) (FbAction nc np) where
  init s := s.Loaded ∧ Idr.Sound s.crtcIdr
  step s a s' := a.Enabled s ∧ s' = a.apply s

theorem loaded_inv (h : s.Loaded) (hs : Idr.Sound s.crtcIdr) : FbInv [] s := by
  refine ⟨h.refs ▸ .init fun x => ?_, hs, h.bug⟩
  have hidr := List.count_eq_zero.mpr (h.idr x)
  simp [FbState.fbRefs, FbState.crtcRefs, FbState.planeRefs, FbState.registered,
    FbState.filpRefs, FbState.callRefs, pointers, h.crtc, h.plane, h.fbs, h.calls, hidr]

/-- As long as those failures stay away, a framebuffer has the references that are held of it. -/
theorem framebuffer_refs_held
    (h : ReachWhile (fbSystem nc np) (fun s a => a.Whole s) s) : FramebuffersOk s := by
  refine FbInv.framebuffersOk (h.invariant (fun s hs => ?_) fun s a s' hinv hg hs => ?_)
  · exact loaded_inv hs.1 hs.2
  · obtain ⟨he, rfl⟩ := hs
    exact hinv.apply he hg

/-! ### Computed runs -/

instance (s : FbState nc np) : Decidable s.Unlocked := inferInstanceAs (Decidable (_ ∧ _))

instance (s : FbState nc np) (c : FbCall nc np) : Decidable (c.Enabled s) :=
  match c with
  | .addfb _ _ => inferInstanceAs (Decidable (_ ∧ _))
  | .release file => inferInstanceAs (Decidable (_ ∈ _))
  | .removeActive _ _ | .disablePlane _ | .updatePlane _ _ =>
    inferInstanceAs (Decidable s.Unlocked)
  | .remove _ _ | .removeLast _ _ | .setcrtc _ | .pageFlip _ _ | .out _ _ =>
    inferInstanceAs (Decidable True)

instance (s : FbState nc np) (a : FbAction nc np) : Decidable (a.Enabled s) :=
  match a with
  | .open file => inferInstanceAs (Decidable (_ ∉ _))
  | .addfb file o => inferInstanceAs (Decidable (_ ∧ _))
  | .rmfb _ _ _ | .release _ => inferInstanceAs (Decidable (_ ∧ _))
  | .setcrtc _ _ => inferInstanceAs (Decidable s.Unlocked)
  | .setplane _ => inferInstanceAs (Decidable True)
  | .pageFlip r _ => inferInstanceAs (Decidable (∀ _, _))
  | .run _ _ => inferInstanceAs (Decidable (_ ∧ _))

instance (s : FbState nc np) (x : ℕ) : Decidable (s.Registered x) :=
  inferInstanceAs (Decidable (_ = _))

instance (s : FbState nc np) (a : FbAction nc np) : Decidable (a.Whole s) :=
  match a with
  | .rmfb file id alloc => inferInstanceAs (Decidable (∀ _ ∈ _, _))
  | .run (.release file) o => inferInstanceAs (Decidable (∀ _ ∈ _, _))
  | .run (.addfb _ _) _ | .run (.remove _ _) _ | .run (.removeActive _ _) _
  | .run (.removeLast _ _) _ | .run (.setcrtc _) _ | .run (.disablePlane _) _
  | .run (.updatePlane _ _) _ | .run (.pageFlip _ _) _ | .run (.out _ _) _ | .open _ | .addfb _ _
  | .release _ | .setcrtc _ _ | .setplane _ | .pageFlip _ _ => inferInstanceAs (Decidable True)

/-- One crtc with id 1, one plane with id 2 and a connector with id 3. -/
def loaded : FbState 1 1 where
  crtcIdr := [.crtc 0, .plane 0, .connector].foldl
    (fun idr o => (idrGetNewAbove idr (some o) 1 true).2) idrInit
  plane _ := { formatTypes := [0] }
  numConnector := 1

theorem loaded_reach {guard : FbState 1 1 → FbAction 1 1 → Prop} :
    ReachWhile (fbSystem 1 1) guard loaded := by
  have hptrs : idrPointers loaded.crtcIdr =
      [some .connector, some (.plane 0), some (.crtc 0)] := by decide +kernel
  refine .init ⟨⟨rfl, fun _ => rfl, fun _ => rfl, fun x => ?_, rfl, rfl, rfl⟩, ?_⟩
  · rw [hptrs]
    simp
  · exact (((Idr.idrInit_inv.sound.getNewAbove _ 1 true).1.getNewAbove _ 1 true).1.getNewAbove _ 1
      true).1

theorem fbRun_reach (guard : FbState 1 1 → FbAction 1 1 → Prop) (l : List (FbAction 1 1))
    (h : AllAllowed (fun s a => a.Enabled s ∧ guard s a) (fun s a => a.apply s) l loaded) :
    ReachWhile (fbSystem 1 1) guard (l.foldl (fun s a => a.apply s) loaded) :=
  ReachWhile.foldl (S := fbSystem 1 1) _ (fun _ _ hs => ⟨hs.2, hs.1, rfl⟩) l loaded_reach h

/-- Two framebuffers; the crtc shows the first, flips to the second, and the plane the first. -/
def showBoth : List (FbAction 1 1) :=
  [.open 0, .addfb 0 { kzalloc := some 7 }, .run (.addfb 0 7) {},
    .addfb 0 { kzalloc := some 8 }, .run (.addfb 0 8) {},
    .setcrtc { crtcId := 1, fbId := 4 } { connectors := fun _ => some 3 },
    .run (.setcrtc (some 7)) { config := { change := fun _ => .set } },
    .run (.out [7] (some .all)) {}, .run (.out [] (some .all)) {},
    .pageFlip { crtcId := 1, fbId := 5 } true, .run (.pageFlip 0 8) {},
    .setplane { planeId := 2, crtcId := 1, fbId := 4 },
    .run (.out [7] (some (.crtc 0))) {}, .run (.out [] (some (.crtc 0))) {},
    .run (.updatePlane 0 7) {}, .run (.out [] none) {}]

/-- The first is removed. -/
def removeFirst : List (FbAction 1 1) :=
  [.rmfb 0 4 true, .run (.remove 7 none) {}, .run (.removeActive 7 none) {}]

theorem framebuffer_refs_held_both :
    FramebuffersOk ((showBoth ++ removeFirst).foldl (fun s a => a.apply s) loaded) :=
  framebuffer_refs_held (fbRun_reach (fun s a => a.Whole s) _ (by decide +kernel))

/-- A framebuffer that got no id, and the file is closed: drm_fb_release destroys what it is about
to remove. -/
theorem framebuffer_destroyed_early :
    ¬ ∀ s, Reach (fbSystem 1 1) s → FramebuffersOk s := by
  intro h
  have halive := (h _ (fbRun_reach _ [.open 0, .addfb 0 { kzalloc := some 7, alloc := false },
    .run (.addfb 0 7) {}, .release 0, .run (.release 0) {}] (by decide +kernel))).refs.alive 7
  exact absurd halive (by decide +kernel)

end GfxDrm.Framebuffer
