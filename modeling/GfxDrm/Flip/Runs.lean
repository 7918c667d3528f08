import GfxDrm.Flip.Ledger

/-! Flips over whole runs. -/

namespace GfxDrm.Flip
open Run Function Kref FlipState

variable {n : ℕ} {s t : FlipState n} {c : Fin n} {w : UnpinWork n} {a : FlipAction n}

/-! ### The ledger -/

theorem ledger_init (h : (flipSystem n).init s) : Ledger s := by
  rw [show s = _ from h]
  refine ⟨fun c w hw => ?_, fun c m _ => rfl, fun v hv => ?_, List.nodup_nil, fun v hv => ?_,
    fun v hv => ?_⟩
  · cases hw
  · cases hv
  · cases hv
  · cases hv

theorem Ledger.nextStep (h : Ledger s) (c : Fin n) (q : QueueFlipOutcome) :
    Ledger (s.nextStep c q) := by
  by_cases hclaim : ∀ r, (s.crtcs c).request = some r → r.stage = .got →
      (s.crtcs c).unpinWork ≠ none
  · exact h.keeps (asks_nextStep s c q hclaim).keeps
  · push Not at hclaim
    obtain ⟨r, hr, hstage, hwork⟩ := hclaim
    unfold FlipState.nextStep
    rw [hr]
    dsimp only
    rw [hstage]
    rw [hwork]
    exact h.claim rfl rfl rfl rfl rfl rfl rfl rfl rfl

theorem Ledger.finishPageFlip (h : Ledger s) (c : Fin n) : Ledger (s.doIntelFinishPageFlip c) := by
  unfold doIntelFinishPageFlip
  cases hwork : (s.crtcs c).unpinWork with
  | none => exact h
  | some w =>
    dsimp only
    split
    · exact h
    · obtain ⟨hwc, -, htally, -⟩ := h.own c w hwork
      rw [FlipState.tally, hwc] at htally
      simp only [drmVblankPut, setCrtc, count, hwc, update_self, update_idem, htally, Nat.zero_add]
      exact h.finish rfl hwork rfl rfl rfl rfl rfl rfl

theorem Ledger.unpinWork (h : Ledger s) (hw : w ∈ s.queue) : Ledger (s.intelUnpinWorkFn w) := by
  have htally : (s.crtcs w.crtc).tally w.seq = finishedTally w := h.queued w hw
  refine h.unpin hw rfl rfl rfl ?_ rfl rfl rfl
  simp only [intelUnpinFbObj, drmGemObjectUnreference, htally]
  rfl

theorem Ledger.apply (h : Ledger s) (he : a.Enabled s) : Ledger (a.apply s) := by
  cases a with
  | pageFlip c fb event alloc vblank => exact h.keeps (keeps_pageFlip s c fb event alloc vblank)
  | nextStep c q => exact h.nextStep c q
  | prepare c => exact h.keeps (asks_prepare s c).keeps
  | finish c => exact h.finishPageFlip c
  | unpinWork w => exact h.unpinWork he.1
  | endUnpinWork w => exact h.endUnpin he
  | setBase c fb q => exact h.keeps (asks_setBase s c fb q).keeps
  | disable c => exact h.keeps (asks_disable s c).keeps
  | setMode c pipes base => exact h.keeps (asks_setMode s c pipes base).keeps
  | close file => exact ⟨h.own, h.fresh, h.listed, h.nodup, h.queued, h.run⟩

/-! ### Pins -/

theorem Inv.outside (h : Inv s) (hlock : s.structMutex ≠ some c) : (s.crtcs c).inSection = none := by
  cases hr : (s.crtcs c).request with
  | none => rw [FlipCrtc.inSection, hr]; rfl
  | some r =>
    cases hstage : r.stage with
    | referenced | failed => exact (hlock (h.fits_at hr hstage).2.2).elim
    | got | busy | claimed | cleaned | cleared =>
      exact inSection_none hr (by simp [hstage]) (by simp [hstage])

theorem points_map {α : Type*} (f : α → ℕ) (p : Option α) (o : ℕ) :
    points (p.map f) o = (p.any fun x => decide (f x = o)).toNat := by
  cases p with
  | none => rfl
  | some x =>
    rw [points, Option.map_some, Option.any_some]
    by_cases hx : f x = o
    · rw [if_pos (congrArg some hx), decide_eq_true hx]
      rfl
    · rw [if_neg fun he => hx (Option.some.inj he), decide_eq_false hx]
      rfl

/-- What flips hold of an object, crtc by crtc and in the queue. -/
theorem flips_eq (s : FlipState n) (f : UnpinWork n → ℕ) (o : ℕ) :
    (s.flips fun w => decide (f w = o)) =
      ∑ c, points ((s.crtcs c).flying.map f) o + s.queue.countP fun w => f w = o := by
  rw [FlipState.flips, Census.census_eq_sum]
  simp only [points_map]

theorem Inv.pins_eq (h : Inv s) (hlock : s.structMutex = none) (o : ℕ) :
    s.pins o = s.shown o + s.flips fun w => decide (w.oldFbObj = o) := by
  have hout : ∀ c, (s.crtcs c).inSection = none := fun c => h.outside (by rw [hlock]; simp)
  rw [h.pins, flips_eq, ← Nat.add_assoc, FlipState.shown, Census.census_eq_sum,
    ← Finset.sum_add_distrib]
  refine congrArg (· + _) (Finset.sum_congr rfl fun c _ => ?_)
  rw [FlipCrtc.pinsOf, hout c, Option.map_none, Option.none_or, points]
  split <;> simp [*]

theorem Inv.refs_eq (h : Inv s) (hlock : s.structMutex = none) (o : ℕ) :
    s.refs o = (s.flips fun w => decide (w.oldFbObj = o)) +
      s.flips fun w => decide (w.pendingFlipObj = o) := by
  have hout : ∀ c, (s.crtcs c).inSection = none := fun c => h.outside (by rw [hlock]; simp)
  have hsum : ∑ c, (s.crtcs c).refsOf o = ∑ c, points ((s.crtcs c).flying.map UnpinWork.oldFbObj) o +
      ∑ c, points ((s.crtcs c).flying.map UnpinWork.pendingFlipObj) o := by
    rw [← Finset.sum_add_distrib]
    refine Finset.sum_congr rfl fun c _ => ?_
    rw [FlipCrtc.refsOf, hout c]
    simp
  rw [h.refs, flips_eq, flips_eq]
  omega

theorem Inv.pinsOk (h : Inv s) : PinsOk s := by
  refine ⟨fun hlock => h.pins_eq hlock, fun c hlock fb hfb => h.shown_pos (h.outside hlock) hfb,
    ?_, h.bug⟩
  rintro w (⟨c, hw⟩ | hw)
  · have hge := h.pins_ge c w.oldFbObj
    rw [FlipCrtc.pinsOf, hw, Option.map_some, points_self] at hge
    omega
  · have hpos : 0 < s.queue.countP fun v => v.oldFbObj = w.oldFbObj :=
      List.countP_pos_iff.mpr ⟨w, hw, decide_eq_true rfl⟩
    rw [h.pins]
    omega

/-! ### Events -/

/-- The works and requests are of files that are open. -/
structure Opens (s : FlipState n) : Prop where
  works : ∀ c, ∀ w ∈ (s.crtcs c).unpinWork, ∀ file ∈ w.event, s.isOpen file = true
  requests : ∀ c, ∀ r ∈ (s.crtcs c).request, ∀ file ∈ r.event, s.isOpen file = true
  events : ∀ file ∈ s.events, s.isOpen file = true

theorem Opens.asks (h : Opens s) (ha : s.Asks t) : Opens t := by
  refine ⟨fun c w hw file hfile => ?_, fun c r hr file hfile => ?_, fun file hfile => ?_⟩
  · obtain ⟨v, hv, -, hevent⟩ := (ha.crtcs c).work w hw
    rw [ha.isOpen]
    exact h.works c v hv file (hevent ▸ hfile)
  · obtain ⟨r', hr', hevent⟩ := (ha.crtcs c).request r hr
    rw [ha.isOpen]
    exact h.requests c r' hr' file (hevent ▸ hfile)
  · rw [ha.isOpen]
    exact h.events file (ha.events ▸ hfile)

/-- One crtc has another work or request. -/
theorem Opens.ofCrtc (h : Opens s) {x : FlipCrtc n} (hcrtcs : t.crtcs = update s.crtcs c x)
    (hwork : ∀ w ∈ x.unpinWork, ∀ file ∈ w.event, s.isOpen file = true)
    (hreq : ∀ r ∈ x.request, ∀ file ∈ r.event, s.isOpen file = true) (hopen : t.isOpen = s.isOpen)
    (hevents : ∀ file ∈ t.events, s.isOpen file = true) : Opens t := by
  refine ⟨fun c' => ?_, fun c' => ?_, fun file hfile => hopen ▸ hevents file hfile⟩
  · rw [hcrtcs, hopen]
    by_cases hcc : c' = c
    · rw [hcc, update_self]
      exact hwork
    · rw [update_of_ne hcc]
      exact h.works c'
  · rw [hcrtcs, hopen]
    by_cases hcc : c' = c
    · rw [hcc, update_self]
      exact hreq
    · rw [update_of_ne hcc]
      exact h.requests c'

theorem Opens.pageFlip (h : Opens s) {fb : Framebuffer} {event : Option ℕ} {alloc vblank : Bool}
    (hevent : ∀ file ∈ event, s.isOpen file = true) :
    Opens (s.intelCrtcPageFlip c fb event alloc vblank) := by
  unfold intelCrtcPageFlip
  split
  · exact h
  split
  · exact h
  split
  · exact h
  split
  · exact h
  refine h.ofCrtc rfl (h.works c) (fun r hr => ?_) rfl h.events
  cases hr
  exact hevent

theorem Opens.nextStep (h : Opens s) (c : Fin n) (q : QueueFlipOutcome) :
    Opens (s.nextStep c q) := by
  by_cases hclaim : ∀ r, (s.crtcs c).request = some r → r.stage = .got →
      (s.crtcs c).unpinWork ≠ none
  · exact h.asks (asks_nextStep s c q hclaim)
  · push Not at hclaim
    obtain ⟨r, hr, hstage, hwork⟩ := hclaim
    unfold FlipState.nextStep
    rw [hr]
    dsimp only
    rw [hstage]
    rw [hwork]
    refine h.ofCrtc rfl (fun w hw => ?_) (fun r' hr' => ?_) rfl h.events
    · cases hw
      exact h.requests c r hr
    · cases hr'
      exact h.requests c r hr

theorem Opens.finish (h : Opens s) (hledger : Ledger s) (c : Fin n) :
    Opens (s.doIntelFinishPageFlip c) := by
  unfold doIntelFinishPageFlip
  cases hwork : (s.crtcs c).unpinWork with
  | none => exact h
  | some w =>
    dsimp only
    split
    · exact h
    · obtain ⟨hwc, -⟩ := hledger.own c w hwork
      simp only [drmVblankPut, setCrtc, count, hwc, update_self, update_idem]
      refine h.ofCrtc rfl (fun v hv => ?_) (h.requests c) rfl fun file hfile => ?_
      · cases hv
      · rcases List.mem_append.mp hfile with hfile | hfile
        · exact h.works c w hwork file (Option.mem_toList.mp hfile)
        · exact h.events file hfile

/-- No flip of the file is still to be finished when it is closed. -/
def FlipAction.Whole (s : FlipState n) : FlipAction n → Prop
  | .close file => ∀ c, ∀ w ∈ (s.crtcs c).unpinWork, w.event ≠ some file
  | _ => True

theorem Opens.close (h : Opens s) {file : ℕ} (he : (FlipAction.close file).Enabled s)
    (hw : (FlipAction.close file).Whole s) : Opens ((FlipAction.close file).apply s) := by
  have hother : ∀ f, f ≠ file → s.isOpen f = true → update s.isOpen file false f = true :=
    fun f hne hf => by rwa [update_of_ne hne]
  refine ⟨fun c w hwork f hf => ?_, fun c r hr f hf => ?_, fun f hf => ?_⟩
  · refine hother f ?_ (h.works c w hwork f hf)
    rintro rfl
    exact hw c w hwork hf
  · refine hother f ?_ (h.requests c r hr f hf)
    rintro rfl
    exact he.2 c r hr hf
  · obtain ⟨hmem, hne⟩ := List.mem_filter.mp hf
    exact hother f (of_decide_eq_true hne) (h.events f hmem)

theorem Opens.apply (h : Opens s) (hledger : Ledger s) (he : a.Enabled s) (hw : a.Whole s) :
    Opens (a.apply s) := by
  cases a with
  | pageFlip c fb event alloc vblank => exact h.pageFlip he.2
  | nextStep c q => exact h.nextStep c q
  | prepare c => exact h.asks (asks_prepare s c)
  | finish c => exact h.finish hledger c
  | unpinWork w => exact h.ofCrtc rfl (h.works w.crtc) (h.requests w.crtc) rfl h.events
  | endUnpinWork w => exact h.ofCrtc rfl (h.works w.crtc) (h.requests w.crtc) rfl h.events
  | setBase c fb q => exact h.asks (asks_setBase s c fb q)
  | disable c => exact h.asks (asks_disable s c)
  | setMode c pipes base => exact h.asks (asks_setMode s c pipes base)
  | close file => exact h.close he hw

/-! ### Runs -/

theorem inv_run (h : Reach (flipSystem n) s) : Inv s := by
  refine h.invariant (fun s hs => inv_init hs) fun s a s' hinv _ hs => ?_
  obtain ⟨he, rfl⟩ := hs
  exact hinv.apply he

theorem ledger_run (h : Reach (flipSystem n) s) : Ledger s := by
  refine h.invariant (fun s hs => ledger_init hs) fun s a s' hledger _ hs => ?_
  obtain ⟨he, rfl⟩ := hs
  exact hledger.apply he

/-- No pin of an object that is shown or flipped from is dropped, and none is left over. -/
theorem pins_ok (h : Reach (flipSystem n) s) : PinsOk s := (inv_run h).pinsOk

theorem opens_run (h : ReachWhile (flipSystem n) (fun s a => a.Whole s) s) : Opens s := by
  refine ReachWhile.invariant_of (I := Ledger) (fun s hs => ledger_run hs.reach) (fun s hs => ?_)
    (fun s a s' hledger hopens hw hs => ?_) h
  · rw [show s = _ from hs]
    refine ⟨fun c w hw => ?_, fun c r hr => ?_, fun file hfile => ?_⟩
    · cases hw
    · cases hr
    · cases hfile
  · obtain ⟨he, rfl⟩ := hs
    exact hopens.apply hledger he hw

/-- As long as no file is closed before its flips are finished, everything is done once for every
flip. -/
theorem flips_ok (h : ReachWhile (flipSystem n) (fun s a => a.Whole s) s) : FlipsOk s := by
  have hinv := inv_run h.reach
  have hledger := ledger_run h.reach
  refine ⟨fun c w hw => (hledger.own c w hw).2.2.1, hledger.queued, fun w hw => ?_,
    (opens_run h).events, hinv.pinsOk, hinv.vblank, fun hlock => hinv.refs_eq hlock, fun c hlock => ?_,
    hinv.kept, hinv.bug⟩
  · exact hledger.run w (List.mem_append.mpr hw)
  · rw [hinv.counts c, hinv.outside hlock]
    simp

/-! ### Computed runs -/

instance (s : FlipState n) (a : FlipAction n) : Decidable (a.Enabled s) :=
  match a with
  | .pageFlip c _ event _ _ => inferInstanceAs (Decidable (_ ∧ _))
  | .nextStep c _ =>
    decidable_of_iff ((s.crtcs c).request.any fun r =>
      decide (r.stage = .claimed → s.structMutex = none)) (by
        rw [Option.any_eq_true]
        exact exists_congr fun r => and_congr_right fun _ => decide_eq_true_iff)
  | .prepare _ | .finish _ => inferInstanceAs (Decidable True)
  | .unpinWork w => inferInstanceAs (Decidable (_ ∧ _))
  | .endUnpinWork w => inferInstanceAs (Decidable (_ ∈ _))
  | .setBase c _ _ | .disable c => inferInstanceAs (Decidable (_ ∧ _))
  | .setMode _ _ _ =>
    inferInstanceAs (Decidable ((∀ c, (s.crtcs c).request = none) ∧ s.structMutex = none))
  | .close file => inferInstanceAs (Decidable (_ ∧ _))

instance (s : FlipState n) (a : FlipAction n) : Decidable (a.Whole s) :=
  match a with
  | .close file => inferInstanceAs (Decidable (∀ _, _))
  | .pageFlip _ _ _ _ _ | .nextStep _ _ | .prepare _ | .finish _ | .unpinWork _ | .endUnpinWork _
  | .setBase _ _ _ | .disable _ | .setMode _ _ _ => inferInstanceAs (Decidable True)

theorem flipRun_reach (guard : FlipState n → FlipAction n → Prop) (l : List (FlipAction n))
    (h : AllAllowed (fun s a => a.Enabled s ∧ guard s a) (fun s a => FlipAction.apply s a) l {}) :
    ReachWhile (flipSystem n) guard (l.foldl (fun s a => FlipAction.apply s a) {}) :=
  ReachWhile.foldl (S := flipSystem n) _ (fun _ _ hs => ⟨hs.2, hs.1, rfl⟩) l (.init rfl) h

/-- Two crtcs show object 1 and flip from it, the second without success; the first is disabled
before its work is run. -/
def flipRun (c d : Fin n) : List (FlipAction n) :=
  [.setBase c (some ⟨1, 0, 0, 0⟩) {}, .setMode d [c] (some (some ⟨1, 0, 0, 0⟩, {})),
    .setBase c (some ⟨1, 0, 0, 0⟩) {}, .pageFlip c ⟨2, 0, 0, 0⟩ (some 5) true true, .nextStep c {},
    .pageFlip d ⟨2, 0, 0, 0⟩ none true true, .nextStep c {}, .prepare c, .nextStep c {},
    .nextStep d {}, .nextStep d {}, .nextStep d { ringBegin := -5 }, .nextStep d {}, .nextStep d {},
    .nextStep d {}, .prepare c, .finish c, .close 5, .disable c,
    .unpinWork ⟨c, 0, some 5, 1, 2, 2⟩, .endUnpinWork ⟨c, 0, some 5, 1, 2, 2⟩]

theorem pins_ok_flipped :
    PinsOk ((flipRun (0 : Fin 2) 1).foldl (fun s a => FlipAction.apply s a) {}) :=
  pins_ok (flipRun_reach _ _ (by decide))

theorem flips_ok_flipped :
    FlipsOk ((flipRun (0 : Fin 2) 1).foldl (fun s a => FlipAction.apply s a) {}) :=
  flips_ok (flipRun_reach _ _ (by decide))

/-- A file is closed while its flip is pending. -/
theorem flip_closed : ¬ ∀ n s, Reach (flipSystem n) s → FlipsOk s := by
  intro hall
  have hok := hall 1 _ (flipRun_reach _
    [.setBase 0 (some ⟨1, 0, 0, 0⟩) {}, .pageFlip 0 ⟨2, 0, 0, 0⟩ (some 5) true true, .nextStep 0 {},
      .nextStep 0 {}, .nextStep 0 {}, .close 5, .prepare 0, .finish 0] (by decide))
  exact absurd (hok.events 5 (by decide)) (by decide)

end GfxDrm.Flip
