import GfxDrm.Flip.Track

/-! Every step of requests, interrupts, works and mode sets keeps the shares. -/

namespace GfxDrm.Flip
open Function Kref FlipState

variable {n : ℕ} {s s' : FlipState n} {c c' : Fin n} {x : FlipCrtc n} {w : UnpinWork n}
  {r : Request} {o : ℕ}

/-! ### Objects -/

@[simp] theorem pin_pins (s : FlipState n) (a o : ℕ) :
    (s.intelPinAndFenceFbObj a).pins o = s.pins o + points (some a) o := pins_added ..

@[simp] theorem reference_refs (s : FlipState n) (a o : ℕ) :
    (s.drmGemObjectReference a).refs o = s.refs o + points (some a) o := pins_added ..

/-- A pin is taken back that is there. -/
theorem unpin_pins {a : ℕ} (hpos : 0 < s.pins a) :
    (∀ o, (s.intelUnpinFbObj a).pins o + points (some a) o = s.pins o) ∧
      (s.intelUnpinFbObj a).bug = s.bug := by
  refine ⟨fun o => pins_dropped s.pins hpos o, ?_⟩
  show (s.bug || decide (s.pins a = 0)) = s.bug
  rw [decide_eq_false (by omega), Bool.or_false]

theorem unreference_refs {a : ℕ} (hpos : 0 < s.refs a) :
    (∀ o, (s.drmGemObjectUnreference a).refs o + points (some a) o = s.refs o) ∧
      (s.drmGemObjectUnreference a).bug = s.bug := by
  refine ⟨fun o => pins_dropped s.refs hpos o, ?_⟩
  show (s.bug || decide (s.refs a = 0)) = s.bug
  rw [decide_eq_false (by omega), Bool.or_false]

theorem unreference_two {a b : ℕ}
    (hge : ∀ o, points (some a) o + points (some b) o ≤ s.refs o) :
    (∀ o, ((s.drmGemObjectUnreference a).drmGemObjectUnreference b).refs o +
      (points (some a) o + points (some b) o) = s.refs o) ∧
      ((s.drmGemObjectUnreference a).drmGemObjectUnreference b).bug = s.bug := by
  have ha : 0 < s.refs a := by
    have hself := hge a
    rw [points_self] at hself
    omega
  obtain ⟨hfirst, hbug⟩ := unreference_refs ha
  have hb : 0 < (s.drmGemObjectUnreference a).refs b := by
    have hself := hge b
    have hdrop := hfirst b
    rw [points_self] at hself
    omega
  obtain ⟨hsecond, hbug'⟩ := unreference_refs hb
  refine ⟨fun o => ?_, hbug'.trans hbug⟩
  have hone := hfirst o
  have htwo := hsecond o
  omega

/-! ### Requests -/

section nextStep
variable (h : Inv s) (hr : (s.crtcs c).request = some r)
include h hr

theorem Inv.queueFlip (hstage : r.stage = .referenced) {q : QueueFlipOutcome} :
    Inv (let res := s.intelQueueFlip c r.fb.obj q
      if res.1 ≠ 0 then res.2.setStage c r .failed
      else { res.2.setCrtc c { res.2.crtcs c with request := none } with structMutex := none }) := by
  unfold intelQueueFlip
  by_cases hpin : q.pin ≠ 0
  · simp only [if_pos hpin]
    exact h.flipFailed hr hstage rfl rfl rfl rfl rfl rfl (fun _ => rfl) rfl rfl rfl rfl rfl rfl
  · simp only [if_neg hpin]
    by_cases hring : q.ringBegin ≠ 0
    · simp only [if_pos hring]
      have hpos : 0 < (s.intelPinAndFenceFbObj r.fb.obj).pins r.fb.obj := by
        rw [pin_pins, points_self]
        omega
      obtain ⟨hpins, hbug⟩ := unpin_pins hpos
      refine h.flipFailed hr hstage rfl rfl rfl rfl rfl rfl (fun o => ?_) rfl rfl rfl rfl rfl hbug
      have ho := hpins o
      rw [pin_pins] at ho
      exact Nat.add_right_cancel ho
    · simp only [if_neg hring]
      have hcrtcs : ∀ x y : FlipCrtc n, update (update s.crtcs c x) c y = update s.crtcs c y :=
        fun x y => update_idem ..
      simp only [setCrtc, intelPinAndFenceFbObj, update_self, hcrtcs]
      exact h.accepted hr hstage rfl rfl rfl rfl rfl rfl (fun o => pin_pins s r.fb.obj o) rfl rfl rfl
        rfl rfl rfl

theorem Inv.cleanup (hstage : r.stage = .failed) :
    Inv { ((s.setCrtc c { s.crtcs c with
        fb := some r.oldFb
        unpinWorkCount := (s.crtcs c).unpinWorkCount - 1
        request := some { r with stage := .cleaned } }).drmGemObjectUnreference
          r.oldFb.obj).drmGemObjectUnreference r.fb.obj with structMutex := none } := by
  obtain ⟨hclaims, -, -⟩ := h.fits_at hr hstage
  have hge : ∀ o, points (some r.oldFb.obj) o + points (some r.fb.obj) o ≤ s.refs o := fun o => by
    rw [← (inSection_shares (inSection_some hr (.inr hstage)) hclaims.flying o).2]
    exact h.refs_ge c o
  obtain ⟨hrefs, hbug⟩ := unreference_two (s := s.setCrtc c { s.crtcs c with
    fb := some r.oldFb
    unpinWorkCount := (s.crtcs c).unpinWorkCount - 1
    request := some { r with stage := .cleaned } }) hge
  exact h.cleaned hr hstage rfl rfl rfl rfl rfl rfl rfl rfl hrefs rfl rfl rfl hbug

theorem Inv.clear (hstage : r.stage = .cleaned) :
    Inv (s.setCrtc c { s.crtcs c with
      unpinWork := none
      request := some { r with stage := .cleared } }) := by
  obtain ⟨hclaims, hfb⟩ := h.fits_at hr hstage
  refine h.moveTo hr (inSection_none hr (by simp [hstage]) (by simp [hstage])) (by simp) (by simp) rfl
    ⟨?_, hfb⟩ rfl ?_ rfl rfl
  · intro w hw
    cases hw
  · rw [hclaims.flying]
    rfl

end nextStep

theorem Inv.nextStep (h : Inv s) {q : QueueFlipOutcome}
    (he : ∃ r, (s.crtcs c).request = some r ∧ (r.stage = .claimed → s.structMutex = none)) :
    Inv (s.nextStep c q) := by
  obtain ⟨r, hr, hfree⟩ := he
  unfold FlipState.nextStep
  rw [hr]
  dsimp only
  cases hstage : r.stage with
  | got =>
    obtain ⟨hsettled, hfb⟩ := h.fits_at hr hstage
    have hsec : (s.crtcs c).inSection = none := inSection_none hr (by simp [hstage]) (by simp [hstage])
    cases hwork : (s.crtcs c).unpinWork with
    | some w =>
      exact h.moveTo hr hsec (by simp) (by simp) rfl ⟨hsettled, hfb⟩ rfl rfl rfl rfl
    | none =>
      refine h.moveTo hr hsec (by simp) (by simp) rfl ⟨⟨_, rfl, rfl, rfl, rfl, rfl⟩, hfb⟩ rfl ?_ rfl
        rfl
      rw [FlipCrtc.flying, FlipCrtc.flying, hwork]
      rfl
  | busy =>
    obtain ⟨hsettled, hfb⟩ := h.fits_at hr hstage
    exact h.endRequest hr (inSection_none hr (by simp [hstage]) (by simp [hstage])) hsettled hfb
  | claimed =>
    refine h.reference hr hstage (hfree hstage) rfl rfl rfl rfl rfl rfl rfl rfl (fun o => ?_) rfl rfl
      rfl rfl
    exact (reference_refs _ r.fb.obj o).trans (by rw [reference_refs])
  | referenced => exact h.queueFlip hr hstage
  | failed => exact h.cleanup hr hstage
  | cleaned => exact h.clear hr hstage
  | cleared =>
    obtain ⟨hsettled, hfb⟩ := h.fits_at hr hstage
    exact h.endRequest hr (inSection_none hr (by simp [hstage]) (by simp [hstage])) hsettled hfb

/-! ### Interrupts and works -/

/-- Only settled crtcs have works that interrupts look at. -/
theorem FlipCrtc.Fits.settled {lock : Option (Fin n)} (h : x.Fits c lock)
    (hwork : x.unpinWork = some w) (hpending : w.pending ≠ 0) :
    x.Settled c ∧ x.inSection = none ∧
      ∀ y : FlipCrtc n, y.request = x.request → y.fb = x.fb → y.Settled c → y.Fits c lock := by
  have hclaims : ∀ r, ¬ x.Claims c r := by
    rintro r ⟨w', hw', -, hzero, -⟩
    rw [hwork] at hw'
    cases hw'
    exact hpending hzero
  unfold FlipCrtc.Fits at h
  cases hr : x.request with
  | none =>
    rw [hr] at h
    refine ⟨h, by rw [FlipCrtc.inSection, hr]; rfl, fun y hy _ hsettled => ?_⟩
    unfold FlipCrtc.Fits
    rwa [hy]
  | some r =>
    rw [hr] at h
    have hkeep : x.Settled c ∧ x.fb = some r.oldFb → r.stage ≠ .referenced → r.stage ≠ .failed →
        (∀ y : FlipCrtc n, y.Settled c → y.fb = some r.oldFb → y.At c lock r r.stage) →
        x.Settled c ∧ x.inSection = none ∧ ∀ y : FlipCrtc n, y.request = some r → y.fb = x.fb →
          y.Settled c → y.Fits c lock := by
      intro hx h₁ h₂ hat
      refine ⟨hx.1, inSection_none hr h₁ h₂, fun y hy hfb hsettled => ?_⟩
      unfold FlipCrtc.Fits
      rw [hy]
      exact hat y hsettled (hfb.trans hx.2)
    cases hstage : r.stage with
    | got | busy | cleared =>
      simp only [hstage] at h hkeep
      exact hkeep h (by simp) (by simp) fun y hy hfb => ⟨hy, hfb⟩
    | claimed | cleaned | referenced | failed =>
      simp only [hstage] at h
      exact (hclaims r h.1).elim

theorem flying_some (hwork : x.unpinWork = some w) (hpending : w.pending ≠ 0) :
    x.flying = some w := by
  rw [FlipCrtc.flying, hwork, Option.filter_some, if_pos (decide_eq_true hpending)]

/-- The shares of a crtc change with its flip. -/
theorem shares_flying {y : FlipCrtc n} (hsec : y.inSection = x.inSection) (hfb : y.fb = x.fb)
    (o : ℕ) :
    y.pinsOf o + points (x.flying.map UnpinWork.oldFbObj) o =
        x.pinsOf o + points (y.flying.map UnpinWork.oldFbObj) o ∧
      y.refsOf o + (points (x.flying.map UnpinWork.oldFbObj) o +
          points (x.flying.map UnpinWork.pendingFlipObj) o) =
        x.refsOf o + (points (y.flying.map UnpinWork.oldFbObj) o +
          points (y.flying.map UnpinWork.pendingFlipObj) o) := by
  rw [FlipCrtc.pinsOf, FlipCrtc.pinsOf, FlipCrtc.refsOf, FlipCrtc.refsOf, hsec, hfb]
  exact ⟨by omega, by omega⟩

theorem Inv.prepare (h : Inv s) (c : Fin n) : Inv (s.intelPreparePageFlip c) := by
  unfold intelPreparePageFlip
  cases hwork : (s.crtcs c).unpinWork with
  | none => exact h
  | some w =>
    dsimp only
    split
    · exact h
    · rename_i hpending
      obtain ⟨hsettled, -, hfits⟩ := (h.fits c).settled hwork hpending
      have hflying := flying_some hwork hpending
      refine h.inPlace rfl (hfits _ rfl rfl ?_) rfl (.inl rfl) rfl rfl (fun o => ?_) (fun o => ?_) ?_
        ?_ h.kept h.bug
      · intro w' hw'
        cases hw'
        exact ⟨(hsettled w hwork).1, Nat.succ_ne_zero _⟩
      · rw [FlipCrtc.pinsOf, hflying]
        rfl
      · rw [FlipCrtc.refsOf, hflying]
        rfl
      · rw [hflying]
        rfl
      · have hvbl := h.vblank c
        rw [hflying] at hvbl
        exact hvbl

theorem countP_append_points {l : List (UnpinWork n)} (f : UnpinWork n → ℕ) :
    ((l ++ [w]).countP fun v => decide (f v = o)) =
      (l.countP fun v => decide (f v = o)) + points (some (f w)) o := by
  rw [(List.perm_append_singleton w l).countP_eq, countP_cons_points]

/-- The crtc's flip goes to the work queue. -/
theorem Inv.finished {y : FlipCrtc n} (h : Inv s) (hwork : (s.crtcs c).unpinWork = some w)
    (hpending : w.pending ≠ 0) (hcrtcs : s'.crtcs = update s.crtcs c y)
    (hreq : y.request = (s.crtcs c).request) (hyfb : y.fb = (s.crtcs c).fb)
    (hnone : y.unpinWork = none) (hcount : y.unpinWorkCount = (s.crtcs c).unpinWorkCount)
    (hvbl : y.vblankRefs = (s.crtcs c).vblankRefs - 1) (hpins : s'.pins = s.pins)
    (hlock : s'.structMutex = s.structMutex) (hrefs : s'.refs = s.refs)
    (hqueue : s'.queue = s.queue ++ [w]) (hrunning : s'.running = s.running)
    (hkept : s'.fbLost = s.fbLost) (hbug : s'.bug = s.bug) : Inv s' := by
  obtain ⟨hsettled, -, hfits⟩ := (h.fits c).settled hwork hpending
  obtain ⟨hwc, -⟩ := hsettled w hwork
  have hflying := flying_some hwork hpending
  have hflying' : y.flying = none := by rw [FlipCrtc.flying, hnone]; rfl
  have hsec : y.inSection = (s.crtcs c).inSection := by
    rw [FlipCrtc.inSection, FlipCrtc.inSection, hreq]
  have hperm : (s.queue ++ [w] ++ s.running).Perm (w :: (s.queue ++ s.running)) := by
    rw [List.append_assoc]
    exact List.perm_middle
  have hvblank := h.vblank c
  have hcounts := h.counts c
  rw [hflying] at hvblank hcounts
  refine h.step hcrtcs ?_ (fun _ _ => by rw [hlock]) (fun hc => ?_) (fun o => ?_) (fun o => ?_) ?_
    (fun c' hne => ?_) ?_ (hkept.trans h.kept) (hbug.trans h.bug)
  · rw [hlock]
    refine hfits y hreq hyfb fun w' hw' => ?_
    rw [hnone] at hw'
    cases hw'
  · rw [hsec]
    exact h.lock c (hlock ▸ hc)
  · have hshare := (shares_flying hsec hyfb o).1
    rw [hflying, hflying', Option.map_some, Option.map_none, points_none] at hshare
    rw [hqueue, hpins, countP_append_points]
    omega
  · have hshare := (shares_flying hsec hyfb o).2
    rw [hflying, hflying', Option.map_some, Option.map_some, Option.map_none, Option.map_none,
      points_none] at hshare
    rw [hqueue, hrefs, countP_append_points, countP_append_points UnpinWork.pendingFlipObj]
    omega
  · rw [hqueue, hrunning, hperm.countP_eq, countP_cons_points UnpinWork.crtc, hwc, points_self,
      hcount, hcounts, hsec, hflying']
    simp only [Option.isSome_some, Option.isSome_none, Bool.toNat_true, Bool.toNat_false]
    omega
  · rw [hqueue, hrunning, hperm.countP_eq, countP_cons_points UnpinWork.crtc, hwc,
      points_some_of_ne hne]
    rfl
  · rw [hvbl, hvblank, hreq, hflying']
    rfl

theorem Inv.finish (h : Inv s) (c : Fin n) : Inv (s.doIntelFinishPageFlip c) := by
  unfold doIntelFinishPageFlip
  cases hwork : (s.crtcs c).unpinWork with
  | none => exact h
  | some w =>
    dsimp only
    split
    · exact h
    · rename_i hcomplete
      have hpending : w.pending ≠ 0 := by
        intro hzero
        rw [hzero] at hcomplete
        exact hcomplete (by decide)
      obtain ⟨hwc, -⟩ := ((h.fits c).settled hwork hpending).1 w hwork
      have hvbl := h.vblank c
      rw [flying_some hwork hpending] at hvbl
      have hpos : (s.crtcs c).vblankRefs ≠ 0 := by
        rw [hvbl]
        exact Nat.succ_ne_zero _
      simp only [drmVblankPut, setCrtc, count, hwc, update_self, update_idem]
      refine h.finished hwork hpending rfl rfl rfl rfl rfl rfl rfl rfl rfl rfl rfl rfl ?_
      rw [decide_eq_false hpos, Bool.or_false]

/-- The queue holds a pin and two references for each work. -/
theorem Inv.unpinWork (h : Inv s) (hw : w ∈ s.queue) : Inv (s.intelUnpinWorkFn w) := by
  have hold := countP_erase_points UnpinWork.oldFbObj hw
  have hnew := countP_erase_points UnpinWork.pendingFlipObj hw
  have hpos : 0 < s.pins w.oldFbObj := by
    have hself := hold w.oldFbObj
    rw [points_self] at hself
    rw [h.pins]
    omega
  obtain ⟨hpins, hbug⟩ := unpin_pins hpos
  obtain ⟨hrefs, hbug'⟩ := unreference_two (s := s.intelUnpinFbObj w.oldFbObj)
    (a := w.pendingFlipObj) (b := w.oldFbObj) fun o => by
      show _ ≤ s.refs o
      rw [h.refs, ← hold o, ← hnew o]
      omega
  have hperm : (s.queue.erase w ++ w :: s.running).Perm (s.queue ++ s.running) :=
    List.perm_middle.trans ((List.perm_cons_erase hw).symm.append_right s.running)
  refine h.step (c := w.crtc) rfl (h.fits w.crtc) (fun _ _ => Iff.rfl) (h.lock w.crtc) (fun o => ?_)
    (fun o => ?_) ?_ (fun c' _ => hperm.countP_eq _) (h.vblank w.crtc) h.kept
    ((hbug'.trans hbug).trans h.bug)
  · have hdrop := hpins o
    have hlist := hold o
    show (s.intelUnpinFbObj w.oldFbObj).pins o + (s.crtcs w.crtc).pinsOf o + _ =
      s.pins o + (s.crtcs w.crtc).pinsOf o + (s.queue.erase w).countP fun v => v.oldFbObj = o
    omega
  · have hdrop := hrefs o
    have hlist := hold o
    have hlist' := hnew o
    show (((s.intelUnpinFbObj w.oldFbObj).drmGemObjectUnreference
        w.pendingFlipObj).drmGemObjectUnreference w.oldFbObj).refs o +
        (s.crtcs w.crtc).refsOf o + _ =
      s.refs o + (s.crtcs w.crtc).refsOf o + (((s.queue.erase w).countP fun v => v.oldFbObj = o) +
        (s.queue.erase w).countP fun v => v.pendingFlipObj = o)
    change _ = s.refs o at hdrop
    omega
  · exact (h.counts w.crtc).trans (congrArg _ (hperm.countP_eq _).symm)

theorem Inv.endUnpinWork (h : Inv s) (hw : w ∈ s.running) : Inv (s.endUnpinWork w) := by
  have hlist := countP_erase_points UnpinWork.crtc hw
  have hcounts := h.counts w.crtc
  have hself := hlist w.crtc
  rw [points_self] at hself
  rw [List.countP_append] at hcounts
  refine h.step (c := w.crtc) rfl (h.fits w.crtc) (fun _ _ => Iff.rfl) (h.lock w.crtc)
    (fun _ => rfl) (fun _ => rfl) ?_ (fun c' hne => ?_) (h.vblank w.crtc) h.kept ?_
  · show (s.crtcs w.crtc).unpinWorkCount - 1 = (s.crtcs w.crtc).inSection.isSome.toNat +
      (s.crtcs w.crtc).flying.isSome.toNat + (s.queue ++ s.running.erase w).countP _
    rw [List.countP_append]
    omega
  · rw [List.countP_append, List.countP_append, ← hlist c', points_some_of_ne hne]
    rfl
  · show (s.bug || decide ((s.crtcs w.crtc).unpinWorkCount = 0)) = false
    rw [h.bug, decide_eq_false (by omega)]
    rfl

/-! ### Mode sets -/

/-- A crtc without a request shows another framebuffer. -/
theorem Inv.shows {y : FlipCrtc n} (h : Inv s) (hnone : (s.crtcs c).request = none)
    (fb : Option Framebuffer) (hy : y = { s.crtcs c with fb := fb })
    (hcrtcs : s'.crtcs = update s.crtcs c y)
    (hpins : ∀ o, s'.pins o + points ((s.crtcs c).fb.map Framebuffer.obj) o =
      s.pins o + points (fb.map Framebuffer.obj) o)
    (hlock : s'.structMutex = s.structMutex) (hrefs : s'.refs = s.refs) (hqueue : s'.queue = s.queue)
    (hrunning : s'.running = s.running) (hkept : s'.fbLost = s.fbLost) (hbug : s'.bug = s.bug) :
    Inv s' := by
  have hsec : (s.crtcs c).inSection = none := by rw [FlipCrtc.inSection, hnone]; rfl
  have hsec' : y.inSection = none := by rw [hy]; exact hsec
  have hfits := h.fits c
  unfold FlipCrtc.Fits at hfits
  rw [hnone] at hfits
  refine h.inPlace hcrtcs ?_ hlock (.inl (hsec'.trans hsec.symm)) hqueue hrunning (fun o => ?_)
    (fun o => ?_) ?_ ?_ (hkept.trans h.kept) (hbug.trans h.bug)
  · unfold FlipCrtc.Fits
    rw [hy, hnone]
    exact hfits
  · rw [FlipCrtc.pinsOf, FlipCrtc.pinsOf, hsec, hsec', hy, Option.map_none, Option.none_or,
      ← Nat.add_assoc, ← Nat.add_assoc, hpins o]
    rfl
  · rw [hrefs, FlipCrtc.refsOf, FlipCrtc.refsOf, hsec, hsec', hy]
    rfl
  · rw [hsec, hsec', hy]
    rfl
  · rw [hy]
    exact h.vblank c

/-- The object a crtc shows is pinned. -/
theorem Inv.shown_pos (h : Inv s) (hsec : (s.crtcs c).inSection = none) {fb : Framebuffer}
    (hfb : (s.crtcs c).fb = some fb) : 0 < s.pins fb.obj := by
  have hge := h.pins_ge c fb.obj
  rw [(outside_shares hsec hfb _).1, points_self] at hge
  omega

theorem Inv.setBase (h : Inv s) (hnone : (s.crtcs c).request = none) (fb : Option Framebuffer)
    (q : SetBaseOutcome) : Inv (s.intelPipeSetBase c fb q) := by
  unfold intelPipeSetBase
  cases fb with
  | none => exact h
  | some fb =>
    dsimp only
    split
    · exact h
    split
    · exact h
    split
    · have hpos : 0 < (s.intelPinAndFenceFbObj fb.obj).pins fb.obj := by
        rw [pin_pins, points_self]
        omega
      obtain ⟨hpins, hbug⟩ := unpin_pins hpos
      refine h.shows hnone (s.crtcs c).fb rfl (update_eq_self c s.crtcs).symm (fun o => ?_)
        rfl rfl rfl rfl rfl hbug
      have hdrop := hpins o
      rw [pin_pins] at hdrop
      rw [Nat.add_right_cancel hdrop]
    cases hold : (s.crtcs c).fb with
    | none =>
      have hfb : ((s.intelPinAndFenceFbObj fb.obj).crtcs c).fb = none := hold
      simp only [hfb]
      refine h.shows hnone (some fb) rfl rfl (fun o => ?_) rfl rfl rfl rfl rfl rfl
      rw [hold]
      exact pin_pins s fb.obj o
    | some oldFb =>
      have hpos : 0 < s.pins oldFb.obj :=
        h.shown_pos (by rw [FlipCrtc.inSection, hnone]; rfl) hold
      obtain ⟨hpins, hbug⟩ := unpin_pins (a := oldFb.obj) (s := (s.intelPinAndFenceFbObj
        fb.obj).setCrtc c { s.crtcs c with fb := some fb }) (by
          show 0 < (s.intelPinAndFenceFbObj fb.obj).pins oldFb.obj
          rw [pin_pins]
          omega)
      have hfb : ((s.intelPinAndFenceFbObj fb.obj).crtcs c).fb = some oldFb := hold
      simp only [hfb]
      refine h.shows hnone (some fb) rfl rfl (fun o => ?_) rfl rfl rfl rfl rfl hbug
      rw [hold]
      exact (hpins o).trans (pin_pins s fb.obj o)

theorem Inv.disable (h : Inv s) (hnone : (s.crtcs c).request = none) :
    Inv (s.intelCrtcDisable c) := by
  unfold intelCrtcDisable
  cases hfb : (s.crtcs c).fb with
  | none => exact h
  | some fb =>
    obtain ⟨hpins, hbug⟩ := unpin_pins
      (h.shown_pos (by rw [FlipCrtc.inSection, hnone]; rfl) hfb)
    refine h.shows hnone none rfl rfl (fun o => ?_) rfl rfl rfl rfl rfl hbug
    rw [hfb]
    exact hpins o

theorem disable_frame (s : FlipState n) (c c' : Fin n) :
    ((s.intelCrtcDisable c).crtcs c').request = (s.crtcs c').request ∧
      (s.intelCrtcDisable c).structMutex = s.structMutex := by
  unfold intelCrtcDisable
  cases (s.crtcs c).fb with
  | none => exact ⟨rfl, rfl⟩
  | some fb =>
    refine ⟨?_, rfl⟩
    show (update s.crtcs c { s.crtcs c with fb := none } c').request = _
    by_cases hcc : c' = c
    · rw [hcc, update_self]
    · rw [update_of_ne hcc]

theorem Inv.disables (pipes : List (Fin n)) (h : Inv s) (hnone : ∀ c, (s.crtcs c).request = none) :
    Inv (pipes.foldl intelCrtcDisable s) ∧
      ∀ c, ((pipes.foldl intelCrtcDisable s).crtcs c).request = none := by
  induction pipes generalizing s with
  | nil => exact ⟨h, hnone⟩
  | cons p pipes ih =>
    exact ih (h.disable (hnone p)) fun c => (disable_frame s p c).1.trans (hnone c)

theorem Inv.setMode (h : Inv s) (hnone : ∀ c, (s.crtcs c).request = none) (pipes : List (Fin n))
    (base : Option (Option Framebuffer × SetBaseOutcome)) : Inv (s.intelSetMode c pipes base) := by
  obtain ⟨hdisabled, hnone'⟩ := h.disables pipes hnone
  cases base with
  | none => exact hdisabled
  | some base => exact hdisabled.setBase (hnone' c) base.1 base.2

/-! ### Runs -/

theorem inv_init (h : (flipSystem n).init s) : Inv s := by
  rw [show s = _ from h]
  refine ⟨fun c w hw => ?_, fun c hc => ?_, fun o => ?_, fun o => ?_, fun c => rfl, fun c => rfl,
    rfl, rfl⟩
  · cases hw
  · cases hc
  · simp [FlipCrtc.pinsOf, FlipCrtc.inSection, FlipCrtc.flying]
  · simp [FlipCrtc.refsOf, FlipCrtc.inSection, FlipCrtc.flying]

theorem Inv.apply (h : Inv s) {a : FlipAction n} (he : a.Enabled s) : Inv (a.apply s) := by
  cases a with
  | pageFlip c fb event alloc vblank => exact h.pageFlip he.1
  | nextStep c q => exact h.nextStep he
  | prepare c => exact h.prepare c
  | finish c => exact h.finish c
  | unpinWork w => exact h.unpinWork he.1
  | endUnpinWork w => exact h.endUnpinWork he
  | setBase c fb q => exact h.setBase he.1 fb q
  | disable c => exact h.disable he.1
  | setMode c pipes base => exact h.setMode he.1 pipes base
  | close file => exact ⟨h.fits, h.lock, h.pins, h.refs, h.counts, h.vblank, h.kept, h.bug⟩

end GfxDrm.Flip
