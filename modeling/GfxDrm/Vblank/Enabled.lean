import GfxDrm.Vblank.Runs

/-! An event is pending only while its crtc interrupts. -/

namespace GfxDrm.Vblank
open Pool Run

def VblankCall.isOff (c : ℕ) : VblankCall → Bool
  | offDeliver k _ => k = c
  | _ => false

/-- No event is put on the list of a crtc whose interrupt is off, unless drm_vblank_off has yet
to deliver the list. -/
def VblankEvent.lit (d : VblankDevice) : VblankEvent → Bool
  | .run i _ =>
    match d.calls[i]? with
    | some (.queueEvent f c req) =>
      (d.file f).full || (req.next (d.count c)).due (d.count c) || (d.crtc c).enabled ||
        d.calls.any (VblankCall.isOff c)
    | _ => true
  | _ => true

namespace VblankDevice

variable {drv : VblankDriver} {d d' : VblankDevice} {c i : ℕ} {p : VblankCall}
  {n : Option VblankCall}

/-- A crtc with a pending event interrupts, or a drm_vblank_off is about to deliver it. -/
def Lit (d : VblankDevice) : Prop :=
  ∀ e ∈ d.vblankEventList, (d.crtc e.pipe).enabled = true ∨ d.calls.any (VblankCall.isOff e.pipe)

theorem Lit.congr (h : d.Lit) (hlist : d'.vblankEventList ⊆ d.vblankEventList)
    (hon : ∀ k, (d.crtc k).enabled = true → (d'.crtc k).enabled = true)
    (hoff : ∀ k, d.calls.any (VblankCall.isOff k) = true →
      d'.calls.any (VblankCall.isOff k) = true) : d'.Lit := fun e he =>
  (h e (hlist he)).imp (hon e.pipe) (hoff e.pipe)

theorem any_isOff_moveOn (hp : d.calls[i]? = some p) {k : ℕ} (hoff : p.isOff k = false)
    (hany : d.calls.any (VblankCall.isOff k) = true) :
    (moveOn d.calls i n).any (VblankCall.isOff k) = true := by
  obtain ⟨u, hu, huoff⟩ := List.any_eq_true.mp hany
  refine List.any_eq_true.mpr ⟨u, mem_moveOn_iff.mpr (.inr (mem_others hp hu ?_)), huoff⟩
  rintro rfl
  rw [hoff] at huoff
  cases huoff

/-- A call that is not drm_vblank_off moves on, and nothing goes off or on the list. -/
theorem Lit.move (h : d.Lit) (hp : d.calls[i]? = some p) (hoff : ∀ k, p.isOff k = false)
    (hlist : d'.vblankEventList ⊆ d.vblankEventList)
    (hon : ∀ k, (d.crtc k).enabled = true → (d'.crtc k).enabled = true)
    (hcalls : d'.calls = moveOn d.calls i n) : d'.Lit :=
  h.congr hlist hon fun k hany => by
    rw [hcalls]
    exact any_isOff_moveOn hp (hoff k) hany

theorem enabled_put (d : VblankDevice) (c k : ℕ) :
    ((d.put c).crtc k).enabled = (d.crtc k).enabled := by
  simp only [put, drmVblankPut, crtc_setCrtc]
  split
  · rename_i hk
    subst hk
    split <;> rfl
  · rfl

theorem Lit.setCrtc (h : d.Lit) {x : Crtc} (hon : (d.crtc c).enabled = true → x.enabled = true) :
    (d.setCrtc c x).Lit := by
  refine h.congr (List.Subset.refl _) (fun k hk => ?_) fun _ => id
  rw [crtc_setCrtc]
  split
  · rename_i hkc
    subst hkc
    exact hon hk
  · exact hk

theorem Lit.put (h : d.Lit) (c : ℕ) : (d.put c).Lit :=
  h.congr (List.Subset.refl _) (fun k hk => (d.enabled_put c k).trans hk) fun _ => id

theorem enabled_get {enable ret : ℤ} {r : List Reading}
    (h : d.get drv c enable r = some (ret, d')) :
    d'.vblankEventList = d.vblankEventList ∧ d'.calls = d.calls ∧
      ∀ k, (d.crtc k).enabled = true → (d'.crtc k).enabled = true := by
  obtain ⟨x, frame, rfl, -, -, hon, -⟩ := get_cases h
  refine ⟨rfl, rfl, fun k hk => ?_⟩
  rw [crtc_setCrtc]
  split
  · rename_i hkc
    subst hkc
    exact hon hk
  · exact hk

theorem enabled_remove (d : VblankDevice) (e : PendingEvent) (k : ℕ) :
    ((d.remove e).crtc k).enabled = (d.crtc k).enabled := enabled_put _ e.pipe k

theorem enabled_deliver (d : VblankDevice) (seq : BitVec 32) (e : PendingEvent) (k : ℕ) :
    ((d.deliver seq e).crtc k).enabled = (d.crtc k).enabled := d.enabled_remove e k

theorem enabled_deliverAll (d : VblankDevice) (seq : BitVec 32) (due : PendingEvent → Bool)
    (k : ℕ) : ((d.deliverAll seq due).crtc k).enabled = (d.crtc k).enabled :=
  foldl_keeps (fun d => (d.crtc k).enabled) (fun d e => d.enabled_deliver seq e k) _ d

theorem Lit.deliverAll (h : d.Lit) (hn : d.vblankEventList.Nodup) (seq : BitVec 32)
    (due : PendingEvent → Bool) : (d.deliverAll seq due).Lit := by
  refine h.congr ?_ (fun k hk => (d.enabled_deliverAll seq due k).trans hk) fun k hany => ?_
  · rw [deliverAll_list hn]
    exact List.filter_sublist.subset
  · rwa [calls_deliverAll]

theorem Lit.drmEventsRelease (h : d.Lit) (f : ℕ) : (drmEventsRelease d f).Lit := by
  have hkeep : ((d.vblankEventList.filter fun e => e.file = f).foldl VblankDevice.remove d).Lit := by
    refine h.congr ?_ (fun k hk => ?_) fun k hany => ?_
    · rw [foldl_erase fun _ _ => rfl]
      exact (List.diff_sublist _ _).subset
    · exact (foldl_keeps (fun d => (d.crtc k).enabled) (fun d e => d.enabled_remove e k) _ d).trans hk
    · rwa [foldl_keeps VblankDevice.calls calls_remove]
  exact hkeep

/-- The list of one crtc is delivered when its drm_vblank_off ends. -/
theorem Lit.offDeliver (h : d.Lit) (hn : d.vblankEventList.Nodup) {seq : BitVec 32}
    (hp : d.calls[i]? = some (.offDeliver c seq)) :
    (d.setCall i none |>.deliverAll seq fun e => decide (e.pipe = c)).Lit := by
  intro e he
  rw [deliverAll_list (d := d.setCall i none) hn, List.mem_filter] at he
  have hne : e.pipe ≠ c := by simpa using he.2
  rw [enabled_deliverAll, calls_deliverAll]
  refine (h e he.1).imp id fun hany => any_isOff_moveOn hp ?_ hany
  simpa [VblankCall.isOff] using hne.symm

theorem Lit.queueVblankEvent (h : d.Lit) {f : ℕ} {req : WaitRequest}
    (hp : d.calls[i]? = some (.queueEvent f c req))
    (hlit : ((d.file f).full || (req.next (d.count c)).due (d.count c) || (d.crtc c).enabled ||
      d.calls.any (VblankCall.isOff c)) = true) : (queueVblankEvent d i f c req).Lit := by
  simp only [Vblank.queueVblankEvent]
  split
  · exact h.move hp (fun _ => rfl) (List.Subset.refl _) (fun _ => id) rfl
  · rename_i hspace
    have hend : (d.setCall i none).Lit :=
      h.move hp (fun _ => rfl) (List.Subset.refl _) (fun _ => id) rfl
    split
    · exact hend.put c
    · rename_i hwait
      simp only [hspace, hwait, Bool.false_or, Bool.or_eq_true] at hlit
      intro e he
      rcases List.mem_append.mp he with he | he
      · exact hend e he
      · rw [List.mem_singleton.mp he]
        exact hlit.imp id fun hany => any_isOff_moveOn hp rfl hany

theorem Lit.run (h : d.Lit) (hok : d.Ok) {x : Input} (hp : d.calls[i]? = some p)
    (hlit : (VblankEvent.run i x).lit d = true) (hs : p.run drv d i x = some d') : d'.Lit := by
  cases p with
  | waitGet f c req =>
    obtain ⟨⟨ret, d1⟩, hget, rfl⟩ := Option.map_eq_some_iff.mp hs
    obtain ⟨hlist, hcalls, hon⟩ := enabled_get hget
    exact h.move hp (fun _ => rfl) (hlist ▸ List.Subset.refl _) hon (congrArg (moveOn · i _) hcalls)
  | queueEvent f c req =>
    cases hs
    simp only [VblankEvent.lit, hp] at hlit
    exact h.queueVblankEvent hp hlit
  | offDeliver c seq =>
    cases hs
    exact h.offDeliver hok.nodup hp
  | flipGet f c e =>
    simp only [VblankCall.run] at hs
    split at hs
    · obtain ⟨⟨ret, d1⟩, hget, rfl⟩ := Option.map_eq_some_iff.mp hs
      obtain ⟨hlist, hcalls, hon⟩ := enabled_get hget
      exact h.move hp (fun _ => rfl) (hlist ▸ List.Subset.refl _) hon
        (congrArg (moveOn · i _) hcalls)
    · cases hs
      exact h.move hp (fun _ => rfl) (List.Subset.refl _) (fun _ => id) rfl
  | waitPut f c | direct c | flipPut f c e =>
    cases hs
    exact h.move hp (fun _ => rfl) (List.Subset.refl _)
      (fun k hk => (d.enabled_put c k).trans hk) rfl
  | blocked f c seq | queueAlloc f c req | flipCredit f | flipCleanup f c e =>
    cases hs
    exact h.move hp (fun _ => rfl) (List.Subset.refl _) (fun _ => id) rfl
  | waitSeq f c req | copying f max total e | flipReserve f c | flipAlloc f c | flipBusy f c e
  | flipQueue f c e =>
    simp only [VblankCall.run] at hs
    split at hs <;> cases hs <;>
      exact h.move hp (fun _ => rfl) (List.Subset.refl _) (fun _ => id) rfl
  | read f max total =>
    simp only [VblankCall.run] at hs
    split at hs
    · cases hs
      exact h.move hp (fun _ => rfl) (List.Subset.refl _) (fun _ => id) rfl
    · split at hs <;> cases hs <;>
        exact h.move hp (fun _ => rfl) (List.Subset.refl _) (fun _ => id) rfl

theorem Lit.push (h : d.Lit) (p : VblankCall) :
    ({ d with calls := p :: d.calls } : VblankDevice).Lit :=
  h.congr (List.Subset.refl _) (fun _ => id) fun k hany => by
    rw [List.any_cons, hany, Bool.or_true]

theorem Lit.off (h : d.Lit) (r : ℕ → Reading) {seq : BitVec 32} : ({ d.save drv c r with
    vblLock := true
    calls := .offDeliver c seq :: d.calls } : VblankDevice).Lit := fun e he => by
  by_cases hc : e.pipe = c
  · exact .inr (by simp [VblankCall.isOff, hc])
  · refine (h e he).imp (fun hon => ?_) fun hany => by rw [List.any_cons, hany, Bool.or_true]
    rw [← hon]
    exact congrArg Crtc.enabled ((d.crtc_setCrtc c _ e.pipe).trans (if_neg hc))

/-- The timer runs out only where nothing is pending. -/
theorem Lit.timer (h : d.Lit) (hb : d.Balanced) (hidle : (d.crtc c).refcount = 0)
    (r : ℕ → Reading) : (d.save drv c r).Lit := fun e he => by
  refine (h e he).imp (fun hon => ?_) id
  have hc : e.pipe ≠ c := by
    rintro rfl
    have hpos : 0 < d.vblankEventList.countP fun x => decide (x.pipe = e.pipe) :=
      List.countP_pos_iff.mpr ⟨e, he, decide_eq_true rfl⟩
    have hzero := hb.zero e.pipe
    simp only [balance, refsOf] at hzero
    omega
  rw [← hon]
  exact congrArg Crtc.enabled ((d.crtc_setCrtc c _ e.pipe).trans (if_neg hc))

theorem Lit.preModeset (h : d.Lit) {x : Input} (hs : drmVblankPreModeset drv d c x = some d') :
    d'.Lit := by
  simp only [drmVblankPreModeset] at hs
  split at hs
  · obtain ⟨⟨ret, d2⟩, hget, rfl⟩ := Option.map_eq_some_iff.mp hs
    obtain ⟨hlist, hcalls, hon⟩ := enabled_get hget
    have h1 : (d.setCrtc c { d.crtc c with inmodeset := 1 }).Lit := h.setCrtc id
    have h2 : d2.Lit := h1.congr (hlist ▸ List.Subset.refl _) hon fun _ => hcalls ▸ id
    split
    · exact h2.setCrtc id
    · exact h2
  · cases hs
    exact h

theorem Lit.postModeset (h : d.Lit) (hs : drmVblankPostModeset d c = some d') : d'.Lit := by
  simp only [drmVblankPostModeset] at hs
  split at hs
  · split at hs
    · cases hs
    · have h1 : ({ d with disableAllowed := true } : VblankDevice).Lit := h
      split at hs <;> cases hs
      · exact (h1.put c).setCrtc id
      · exact h1.setCrtc id
  · cases hs
    exact h

theorem Lit.finishPageFlip (h : d.Lit) (c : ℕ) : (finishPageFlip d c).Lit := by
  unfold Vblank.finishPageFlip
  split
  · rename_i e hwork
    cases e with
    | none => exact Lit.put (d := d.setWork c none) h c
    | some e => exact Lit.put (d := (d.setWork c none).send { e with pipe := c } _) h c
  · exact h

theorem enabled_drmHandleVblank (x : Crtc) (t : ℤ) : (drmHandleVblank x t).enabled = x.enabled := by
  simp only [drmHandleVblank]
  split
  · split <;> rfl
  · rfl

theorem Lit.step (h : d.Lit) (hok : d.Ok) {e : VblankEvent} (hlit : e.lit d = true)
    (hs : vblankStep drv d e = some d') : d'.Lit := by
  cases e with
  | openFile =>
    cases hs
    exact h
  | close f =>
    simp only [vblankStep] at hs
    split at hs <;> cases hs
    exact h.drmEventsRelease f
  | wait f req =>
    simp only [vblankStep] at hs
    split at hs
    · split at hs <;> cases hs
      · exact h.push _
      · exact h
    · cases hs
  | read f max =>
    simp only [vblankStep] at hs
    split at hs <;> cases hs
    exact h.push _
  | flip f c event =>
    simp only [vblankStep] at hs
    split at hs <;> cases hs
    exact h.push _
  | get c x =>
    simp only [vblankStep] at hs
    split at hs
    · obtain ⟨⟨ret, d1⟩, hget, rfl⟩ := Option.map_eq_some_iff.mp hs
      obtain ⟨hlist, hcalls, hon⟩ := enabled_get hget
      have h1 : d1.Lit := h.congr (hlist ▸ List.Subset.refl _) hon fun _ => hcalls ▸ id
      split
      · exact h1.push _
      · exact h1
    · cases hs
  | off c r =>
    simp only [vblankStep] at hs
    split at hs <;> cases hs
    exact h.off r
  | preModeset c x =>
    simp only [vblankStep] at hs
    split at hs
    · exact h.preModeset hs
    · cases hs
  | postModeset c =>
    simp only [vblankStep] at hs
    split at hs
    · exact h.postModeset hs
    · cases hs
  | timer c r =>
    simp only [vblankStep] at hs
    split at hs
    · cases hs
    · split at hs <;> cases hs
      · rename_i hidle
        exact h.timer hok.balanced hidle.2.1 r
      · exact h
  | irq c t =>
    simp only [vblankStep] at hs
    split at hs <;> cases hs
    · exact (h.setCrtc (fun hon => (enabled_drmHandleVblank _ t).trans hon)).deliverAll hok.nodup _ _
    · exact h
  | tick c =>
    cases hs
    exact h
  | finish c =>
    cases hs
    exact h.finishPageFlip c
  | run i x =>
    obtain ⟨p, hp, hrun⟩ := Option.bind_eq_some_iff.mp hs
    exact h.run hok hp hlit hrun

end VblankDevice

/-- In every run `vblank_refcount` counts the pending events, the calls that hold a reference
and the modeset and the page flip of a crtc, and `BUG_ON` does not fire; and a crtc with a
pending event interrupts, where no event is put on the list of one that does not. -/
theorem vblank_refs_held (drv : VblankDriver) (d : VblankDevice) :
    (Reach (vblankSystem drv) d → d.bug = false ∧ ∀ c, (d.crtc c).refcount = d.refsOf c) ∧
    (ReachWhile (vblankSystem drv) (fun d e => e.lit d = true) d → d.Lit) := by
  refine ⟨fun h => ?_, fun h => ?_⟩
  · have hb := (VblankDevice.ok_of_reach h).balanced
    refine ⟨hb.bug, fun c => ?_⟩
    have hzero := hb.zero c
    rw [VblankDevice.balance] at hzero
    omega
  · refine h.invariant_of (fun _ h => VblankDevice.ok_of_reach h.reach)
      (fun _ hd => ?_) fun _ _ _ hok hl hg hs => hl.step hok hg hs
    rw [hd]
    exact fun e he => absurd he List.not_mem_nil

/-- A client waits for an event that is then pending. -/
theorem vblank_refs_held_pending : ∃ d : VblankDevice, d.bug = false ∧
    (d.crtc 0).refcount = d.refsOf 0 ∧ d.Lit ∧ d.vblankEventList ≠ [] := by
  obtain ⟨d, hd, hp⟩ : ∃ d,
      ReachWhile (vblankSystem { numCrtcs := 1 }) (fun d e => e.lit d = true) d ∧
      (!d.vblankEventList.isEmpty) = true :=
    ReachWhile.of_exec_any (l := [.openFile, .wait 0 ⟨WaitRequest.event, 5⟩, .run 0 {}, .run 0 {},
      .run 0 {}, .run 0 {}]) (.init rfl) (by decide +kernel)
  obtain ⟨href, hlit⟩ := vblank_refs_held { numCrtcs := 1 } d
  obtain ⟨hbug, hcount⟩ := href hd.reach
  exact ⟨d, hbug, hcount 0, hlit hd, by simpa using hp⟩

/-- drm_vblank_off runs between drm_vblank_get and the event_lock section of
drm_queue_vblank_event. -/
theorem vblank_pending_dark : ¬ ∀ drv d, Reach (vblankSystem drv) d → d.Lit := by
  intro h
  obtain ⟨d, hd, hp⟩ : ∃ d,
      ReachWhile (vblankSystem { numCrtcs := 1 }) (fun _ _ => true = true) d ∧
      (d.vblankEventList.any fun e => !((d.crtc e.pipe).enabled ||
        d.calls.any (VblankCall.isOff e.pipe))) = true :=
    ReachWhile.of_exec_any (l := [.openFile, .wait 0 ⟨WaitRequest.event, 5⟩, .run 0 {}, .run 0 {},
      .run 0 {}, .off 0 fun _ => {}, .run 0 {}, .run 0 {}]) (.init rfl) (by decide +kernel)
  obtain ⟨e, he, hdark⟩ := List.any_eq_true.mp hp
  rw [Bool.not_eq_true', ← Bool.not_eq_true, Bool.or_eq_true] at hdark
  exact hdark (h _ d hd.reach e he)

end GfxDrm.Vblank
