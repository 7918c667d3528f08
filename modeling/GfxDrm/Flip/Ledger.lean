import GfxDrm.Flip.Steps

/-! What was done for each flip, from its request to the end of its work. -/

namespace GfxDrm.Flip
open Function FlipState

variable {n : ℕ} {s s' t : FlipState n} {c c' : Fin n} {x y z : FlipCrtc n} {v w : UnpinWork n}
  {r : Request}

/-- Which flip a work is for. -/
def UnpinWork.key (w : UnpinWork n) : Fin n × ℕ := (w.crtc, w.seq)

/-- The works of finished flips. -/
def FlipState.works (s : FlipState n) : List (UnpinWork n) := s.queue ++ (s.running ++ s.done)

structure Ledger (s : FlipState n) : Prop where
  own : ∀ c w, (s.crtcs c).unpinWork = some w → w.crtc = c ∧ w.seq < (s.crtcs c).nextSeq ∧
    s.tally w = {} ∧ w.key ∉ s.works.map UnpinWork.key
  fresh : ∀ c m, (s.crtcs c).nextSeq ≤ m → (s.crtcs c).tally m = {}
  listed : ∀ v ∈ s.works, v.seq < (s.crtcs v.crtc).nextSeq
  nodup : (s.works.map UnpinWork.key).Nodup
  queued : ∀ v ∈ s.queue, s.tally v = finishedTally v
  run : ∀ v ∈ s.running ++ s.done, s.tally v = runTally v

/-- Nothing is done for a flip, and there are no new ones. -/
structure FlipCrtc.Keeps (x y : FlipCrtc n) : Prop where
  nextSeq : y.nextSeq = x.nextSeq
  tally : y.tally = x.tally
  work : ∀ w, y.unpinWork = some w →
    ∃ v, x.unpinWork = some v ∧ v.key = w.key ∧ v.event = w.event

/-- Its request is for the same event, if there is one. -/
structure FlipCrtc.Asks (x y : FlipCrtc n) : Prop extends x.Keeps y where
  request : ∀ r, y.request = some r → ∃ r', x.request = some r' ∧ r'.event = r.event

theorem FlipCrtc.Asks.of_eq (hseq : y.nextSeq = x.nextSeq) (htally : y.tally = x.tally)
    (hwork : y.unpinWork = x.unpinWork) (hreq : y.request = x.request) : x.Asks y :=
  ⟨⟨hseq, htally, fun w hw => ⟨w, hwork ▸ hw, rfl, rfl⟩⟩, fun r hr => ⟨r, hreq ▸ hr, rfl⟩⟩

/-- A request goes on. -/
theorem FlipCrtc.Asks.of_stage (hr : x.request = some r) (stage : Stage)
    (hreq : y.request = some { r with stage := stage }) (hseq : y.nextSeq = x.nextSeq)
    (htally : y.tally = x.tally) (hwork : y.unpinWork = x.unpinWork) : x.Asks y := by
  refine ⟨⟨hseq, htally, fun w hw => ⟨w, hwork ▸ hw, rfl, rfl⟩⟩, fun r' hr' => ⟨r, hr, ?_⟩⟩
  rw [hreq] at hr'
  cases hr'
  rfl

/-- A request is over. -/
theorem FlipCrtc.Asks.of_none (hreq : y.request = none) (hseq : y.nextSeq = x.nextSeq)
    (htally : y.tally = x.tally) (hwork : y.unpinWork = x.unpinWork) : x.Asks y := by
  refine ⟨⟨hseq, htally, fun w hw => ⟨w, hwork ▸ hw, rfl, rfl⟩⟩, fun r' hr' => ?_⟩
  rw [hreq] at hr'
  cases hr'

theorem FlipCrtc.Asks.trans (h : x.Asks y) (h' : y.Asks z) : x.Asks z := by
  refine ⟨⟨h'.nextSeq.trans h.nextSeq, h'.tally.trans h.tally, fun w hw => ?_⟩, fun r hr => ?_⟩
  · obtain ⟨v, hv, hkey, hevent⟩ := h'.work w hw
    obtain ⟨u, hu, hkey', hevent'⟩ := h.work v hv
    exact ⟨u, hu, hkey'.trans hkey, hevent'.trans hevent⟩
  · obtain ⟨r', hr', hevent⟩ := h'.request r hr
    obtain ⟨r'', hr'', hevent'⟩ := h.request r' hr'
    exact ⟨r'', hr'', hevent'.trans hevent⟩

structure FlipState.Keeps (s t : FlipState n) : Prop where
  crtcs : ∀ c, (s.crtcs c).Keeps (t.crtcs c)
  queue : t.queue = s.queue
  running : t.running = s.running
  done : t.done = s.done

structure FlipState.Asks (s t : FlipState n) : Prop where
  crtcs : ∀ c, (s.crtcs c).Asks (t.crtcs c)
  queue : t.queue = s.queue
  running : t.running = s.running
  done : t.done = s.done
  isOpen : t.isOpen = s.isOpen
  events : t.events = s.events

theorem FlipState.Asks.keeps (h : s.Asks t) : s.Keeps t :=
  ⟨fun c => (h.crtcs c).toKeeps, h.queue, h.running, h.done⟩

theorem FlipState.Asks.refl (s : FlipState n) : s.Asks s :=
  ⟨fun _ => .of_eq rfl rfl rfl rfl, rfl, rfl, rfl, rfl, rfl⟩

theorem FlipState.Asks.trans (h : s.Asks t) (h' : t.Asks s') : s.Asks s' :=
  ⟨fun c => (h.crtcs c).trans (h'.crtcs c), h'.queue.trans h.queue, h'.running.trans h.running,
    h'.done.trans h.done, h'.isOpen.trans h.isOpen, h'.events.trans h.events⟩

/-- Objects and struct_mutex are not looked at. -/
theorem FlipState.Asks.of_crtcs (hcrtcs : t.crtcs = s.crtcs) (hqueue : t.queue = s.queue)
    (hrunning : t.running = s.running) (hdone : t.done = s.done) (hopen : t.isOpen = s.isOpen)
    (hevents : t.events = s.events) : s.Asks t :=
  ⟨fun c => by rw [hcrtcs]; exact .of_eq rfl rfl rfl rfl, hqueue, hrunning, hdone, hopen, hevents⟩

theorem asks_update (hcrtcs : t.crtcs = update s.crtcs c x) (h : (s.crtcs c).Asks x)
    (hqueue : t.queue = s.queue) (hrunning : t.running = s.running) (hdone : t.done = s.done)
    (hopen : t.isOpen = s.isOpen) (hevents : t.events = s.events) : s.Asks t := by
  refine ⟨fun c' => ?_, hqueue, hrunning, hdone, hopen, hevents⟩
  rw [hcrtcs]
  by_cases hcc : c' = c
  · rw [hcc, update_self]
    exact h
  · rw [update_of_ne hcc]
    exact .of_eq rfl rfl rfl rfl

theorem asks_setCrtc (h : (s.crtcs c).Asks x) : s.Asks (s.setCrtc c x) :=
  asks_update rfl h rfl rfl rfl rfl rfl

theorem asks_vblankPut (s : FlipState n) (c : Fin n) : s.Asks (s.drmVblankPut c) :=
  asks_update (c := c) rfl (.of_eq rfl rfl rfl rfl) rfl rfl rfl rfl rfl

theorem asks_queueFlip (s : FlipState n) (c : Fin n) (obj : ℕ) (q : QueueFlipOutcome) :
    s.Asks (s.intelQueueFlip c obj q).2 := by
  unfold intelQueueFlip
  split
  · exact .refl s
  split
  · exact .of_crtcs rfl rfl rfl rfl rfl rfl
  · refine asks_update (c := c) rfl ⟨⟨rfl, rfl, fun w hw => ?_⟩, fun r hr => ⟨r, hr, rfl⟩⟩ rfl rfl rfl
      rfl rfl
    obtain ⟨v, hv, rfl⟩ := Option.map_eq_some_iff.mp hw
    exact ⟨v, hv, rfl, rfl⟩

theorem keeps_pageFlip (s : FlipState n) (c : Fin n) (fb : Framebuffer) (event : Option ℕ)
    (alloc vblank : Bool) : s.Keeps (s.intelCrtcPageFlip c fb event alloc vblank) := by
  unfold intelCrtcPageFlip
  split
  · exact (FlipState.Asks.refl s).keeps
  split
  · exact (FlipState.Asks.refl s).keeps
  split
  · exact (FlipState.Asks.refl s).keeps
  split
  · exact (FlipState.Asks.refl s).keeps
  refine ⟨fun c' => ?_, rfl, rfl, rfl⟩
  show (s.crtcs c').Keeps (update s.crtcs c _ c')
  by_cases hcc : c' = c
  · rw [hcc, update_self]
    exact ⟨rfl, rfl, fun w hw => ⟨w, hw, rfl, rfl⟩⟩
  · rw [update_of_ne hcc]
    exact ⟨rfl, rfl, fun w hw => ⟨w, hw, rfl, rfl⟩⟩

theorem queueFlip_request (s : FlipState n) (c : Fin n) (obj : ℕ) (q : QueueFlipOutcome) :
    ((s.intelQueueFlip c obj q).2.crtcs c).request = (s.crtcs c).request := by
  unfold intelQueueFlip
  split
  · rfl
  split
  · rfl
  · show (update s.crtcs c _ c).request = _
    rw [update_self]
    rfl

/-- Only a request that finds its crtc free makes a work. -/
theorem asks_nextStep (s : FlipState n) (c : Fin n) (q : QueueFlipOutcome)
    (hclaim : ∀ r, (s.crtcs c).request = some r → r.stage = .got → (s.crtcs c).unpinWork ≠ none) :
    s.Asks (s.nextStep c q) := by
  unfold FlipState.nextStep
  cases hr : (s.crtcs c).request with
  | none => exact .refl s
  | some r =>
    dsimp only
    cases hstage : r.stage with
    | got =>
      cases hwork : (s.crtcs c).unpinWork with
      | none => exact (hclaim r hr hstage hwork).elim
      | some w => exact asks_setCrtc (.of_stage hr .busy rfl rfl rfl rfl)
    | claimed =>
      exact asks_update (c := c) rfl (.of_stage hr .referenced rfl rfl rfl rfl) rfl rfl rfl rfl rfl
    | referenced =>
      have hflip := asks_queueFlip s c r.fb.obj q
      have hreq : ((s.intelQueueFlip c r.fb.obj q).2.crtcs c).request = some r := by
        rw [queueFlip_request, hr]
      dsimp only
      split
      · exact hflip.trans (asks_setCrtc (.of_stage hreq .failed rfl rfl rfl rfl))
      · exact hflip.trans
          (asks_update (c := c) rfl (.of_none rfl rfl rfl rfl) rfl rfl rfl rfl rfl)
    | failed =>
      exact asks_update (c := c) rfl (.of_stage hr .cleaned rfl rfl rfl rfl) rfl rfl rfl rfl rfl
    | cleaned =>
      refine asks_setCrtc ⟨⟨rfl, rfl, fun w hw => ?_⟩, fun r' hr' => ⟨r, hr, ?_⟩⟩
      · cases hw
      · cases hr'
        rfl
    | busy | cleared =>
      exact (asks_vblankPut s c).trans
        (asks_update (c := c) rfl (.of_none rfl rfl rfl rfl) rfl rfl rfl rfl rfl)

theorem asks_prepare (s : FlipState n) (c : Fin n) : s.Asks (s.intelPreparePageFlip c) := by
  unfold intelPreparePageFlip
  cases hwork : (s.crtcs c).unpinWork with
  | none => exact .refl s
  | some w =>
    dsimp only
    split
    · exact .refl s
    · refine asks_setCrtc ⟨⟨rfl, rfl, fun v hv => ⟨w, hwork, ?_⟩⟩, fun r hr => ⟨r, hr, rfl⟩⟩
      cases hv
      exact ⟨rfl, rfl⟩

theorem asks_setBase (s : FlipState n) (c : Fin n) (fb : Option Framebuffer) (q : SetBaseOutcome) :
    s.Asks (s.intelPipeSetBase c fb q) := by
  unfold intelPipeSetBase
  split
  · exact .refl s
  split
  · exact .refl s
  split
  · exact .refl s
  dsimp only
  split
  · exact .of_crtcs rfl rfl rfl rfl rfl rfl
  split
  · exact asks_update (c := c) rfl (.of_eq rfl rfl rfl rfl) rfl rfl rfl rfl rfl
  · exact asks_update (c := c) rfl (.of_eq rfl rfl rfl rfl) rfl rfl rfl rfl rfl

theorem asks_disable (s : FlipState n) (c : Fin n) : s.Asks (s.intelCrtcDisable c) := by
  unfold intelCrtcDisable
  split
  · exact .refl s
  · exact asks_update (c := c) rfl (.of_eq rfl rfl rfl rfl) rfl rfl rfl rfl rfl

theorem asks_disables (pipes : List (Fin n)) (s : FlipState n) :
    s.Asks (pipes.foldl intelCrtcDisable s) := by
  induction pipes generalizing s with
  | nil => exact .refl s
  | cons p pipes ih => exact (asks_disable s p).trans (ih _)

theorem asks_setMode (s : FlipState n) (c : Fin n) (pipes : List (Fin n))
    (base : Option (Option Framebuffer × SetBaseOutcome)) : s.Asks (s.intelSetMode c pipes base) := by
  cases base with
  | none => exact asks_disables pipes s
  | some base => exact (asks_disables pipes s).trans (asks_setBase _ c base.1 base.2)

/-! ### Steps -/

theorem FlipState.Keeps.works (h : s.Keeps t) : t.works = s.works := by
  rw [FlipState.works, FlipState.works, h.queue, h.running, h.done]

theorem FlipState.Keeps.tally (h : s.Keeps t) (w : UnpinWork n) : t.tally w = s.tally w := by
  rw [FlipState.tally, FlipState.tally, (h.crtcs w.crtc).tally]

theorem Ledger.keeps (h : Ledger s) (hk : s.Keeps t) : Ledger t := by
  refine ⟨fun c w hw => ?_, fun c m hm => ?_, fun v hv => ?_, ?_, fun v hv => ?_, fun v hv => ?_⟩
  · obtain ⟨v, hv, hkey, -⟩ := (hk.crtcs c).work w hw
    obtain ⟨hvc, hseq, htally, hnot⟩ := h.own c v hv
    have hcrtc : v.crtc = w.crtc := congrArg Prod.fst hkey
    have hs : v.seq = w.seq := congrArg Prod.snd hkey
    refine ⟨hcrtc.symm.trans hvc, ?_, ?_, ?_⟩
    · rw [(hk.crtcs c).nextSeq, ← hs]
      exact hseq
    · rw [hk.tally, ← htally, FlipState.tally, FlipState.tally, hcrtc, hs]
    · rw [hk.works, ← hkey]
      exact hnot
  · rw [(hk.crtcs c).tally]
    exact h.fresh c m ((hk.crtcs c).nextSeq ▸ hm)
  · rw [(hk.crtcs v.crtc).nextSeq]
    exact h.listed v (hk.works ▸ hv)
  · rw [hk.works]
    exact h.nodup
  · rw [hk.tally]
    exact h.queued v (hk.queue ▸ hv)
  · rw [hk.tally]
    exact h.run v (hk.running ▸ hk.done ▸ hv)

/-- A new work has a number no work had. -/
theorem Ledger.claim (h : Ledger s) (hcrtcs : t.crtcs = update s.crtcs c x)
    (hwork : x.unpinWork = some w) (hwc : w.crtc = c) (hseq : w.seq = (s.crtcs c).nextSeq)
    (hnext : x.nextSeq = (s.crtcs c).nextSeq + 1) (htally : x.tally = (s.crtcs c).tally)
    (hqueue : t.queue = s.queue) (hrunning : t.running = s.running) (hdone : t.done = s.done) :
    Ledger t := by
  have hself : t.crtcs c = x := by rw [hcrtcs, update_self]
  have hother : ∀ c', c' ≠ c → t.crtcs c' = s.crtcs c' := fun c' hne => by
    rw [hcrtcs, update_of_ne hne]
  have hworks : t.works = s.works := by
    rw [FlipState.works, FlipState.works, hqueue, hrunning, hdone]
  have hnextSeq : ∀ c', (s.crtcs c').nextSeq ≤ (t.crtcs c').nextSeq := fun c' => by
    by_cases hcc : c' = c
    · rw [hcc, hself]
      omega
    · rw [hother c' hcc]
  have htallies : ∀ c', (t.crtcs c').tally = (s.crtcs c').tally := fun c' => by
    by_cases hcc : c' = c
    · rw [hcc, hself, htally]
    · rw [hother c' hcc]
  refine ⟨fun c' v hv => ?_, fun c' m hm => ?_, fun v hv => ?_, hworks ▸ h.nodup, fun v hv => ?_,
    fun v hv => ?_⟩
  · rw [hworks, FlipState.tally, htallies]
    by_cases hcc : c' = c
    · rw [hcc, hself, hwork] at hv
      cases hv
      rw [hcc, hself, hseq, hwc]
      refine ⟨rfl, by omega, h.fresh c _ (Nat.le_refl _), fun hmem => ?_⟩
      -- the works on the list have smaller numbers
      obtain ⟨v, hv, hkey⟩ := List.mem_map.mp hmem
      have hcrtc : v.crtc = w.crtc := congrArg Prod.fst hkey
      have hvseq : v.seq = w.seq := congrArg Prod.snd hkey
      have hlt := h.listed v hv
      rw [hcrtc, hwc, hvseq, hseq] at hlt
      exact Nat.lt_irrefl _ hlt
    · rw [hother c' hcc] at hv ⊢
      exact h.own c' v hv
  · rw [htallies]
    exact h.fresh c' m (Nat.le_trans (hnextSeq c') hm)
  · exact Nat.lt_of_lt_of_le (h.listed v (hworks ▸ hv)) (hnextSeq v.crtc)
  · rw [FlipState.tally, htallies]
    exact h.queued v (hqueue ▸ hv)
  · rw [FlipState.tally, htallies]
    exact h.run v (hrunning ▸ hdone ▸ hv)

/-- Something is done for the flip of a work, and for no other. -/
theorem tally_update {m : Tally} (hcrtcs : t.crtcs = update s.crtcs w.crtc x)
    (htally : x.tally = update (s.crtcs w.crtc).tally w.seq m) :
    t.tally w = m ∧ ∀ v : UnpinWork n, v.key ≠ w.key → t.tally v = s.tally v := by
  refine ⟨?_, fun v hne => ?_⟩
  · rw [FlipState.tally, hcrtcs, update_self, htally, update_self]
  · rw [FlipState.tally, FlipState.tally, hcrtcs]
    by_cases hc : v.crtc = w.crtc
    · rw [hc, update_self, htally, update_of_ne]
      intro hseq
      exact hne (Prod.ext hc hseq)
    · rw [update_of_ne hc]

theorem Ledger.finish (h : Ledger s) (hcrtcs : t.crtcs = update s.crtcs c x)
    (hwork : (s.crtcs c).unpinWork = some w) (hnone : x.unpinWork = none)
    (hnext : x.nextSeq = (s.crtcs c).nextSeq)
    (htally : x.tally = update (s.crtcs c).tally w.seq (finishedTally w))
    (hqueue : t.queue = s.queue ++ [w]) (hrunning : t.running = s.running)
    (hdone : t.done = s.done) : Ledger t := by
  obtain ⟨hwc, hseq, -, hnot⟩ := h.own c w hwork
  rw [← hwc] at hcrtcs htally hseq hnext
  obtain ⟨htw, htallies⟩ := tally_update hcrtcs htally
  have hperm : t.works.Perm (w :: s.works) := by
    rw [FlipState.works, hqueue, hrunning, hdone, List.append_assoc]
    exact List.perm_middle
  have hnextSeq : ∀ c', (t.crtcs c').nextSeq = (s.crtcs c').nextSeq := fun c' => by
    by_cases hcc : c' = w.crtc
    · rw [hcrtcs, hcc, update_self, hnext]
    · rw [hcrtcs, update_of_ne hcc]
  have hkeys : ∀ v ∈ s.works, v.key ≠ w.key := fun v hv hkey =>
    hnot (hkey ▸ List.mem_map_of_mem hv)
  refine ⟨fun c' v hv => ?_, fun c' m hm => ?_, fun v hv => ?_, ?_, fun v hv => ?_, fun v hv => ?_⟩
  · have hcc : c' ≠ w.crtc := by
      rintro rfl
      rw [hcrtcs, update_self, hnone] at hv
      cases hv
    have hold := hv
    rw [hcrtcs, update_of_ne hcc] at hold
    obtain ⟨hvc, hvseq, hvt, hvn⟩ := h.own c' v hold
    have hne : v.key ≠ w.key := fun hkey => hcc (hvc.symm.trans (congrArg Prod.fst hkey))
    refine ⟨hvc, by rwa [hnextSeq], (htallies v hne).trans hvt, fun hmem => ?_⟩
    rcases List.mem_cons.mp ((hperm.map UnpinWork.key).mem_iff.mp hmem) with hkey | hmem
    · exact hne hkey
    · exact hvn hmem
  · rw [hnextSeq] at hm
    by_cases hcc : c' = w.crtc
    · have hms : m ≠ w.seq := by
        rintro rfl
        rw [hcc] at hm
        omega
      rw [hcrtcs, hcc, update_self, htally, update_of_ne hms]
      exact h.fresh w.crtc m (hcc ▸ hm)
    · rw [hcrtcs, update_of_ne hcc]
      exact h.fresh c' m hm
  · rw [hnextSeq]
    rcases List.mem_cons.mp (hperm.mem_iff.mp hv) with rfl | hv
    · exact hseq
    · exact h.listed v hv
  · rw [(hperm.map UnpinWork.key).nodup_iff]
    exact List.nodup_cons.mpr ⟨hnot, h.nodup⟩
  · rw [hqueue] at hv
    rcases List.mem_append.mp hv with hv | hv
    · rw [htallies v (hkeys v (List.mem_append_left _ hv))]
      exact h.queued v hv
    · rw [List.mem_singleton.mp hv]
      exact htw
  · rw [hrunning, hdone] at hv
    rw [htallies v (hkeys v (List.mem_append_right _ hv))]
    exact h.run v hv

theorem Ledger.unpin (h : Ledger s) (hw : w ∈ s.queue) (hcrtcs : t.crtcs = update s.crtcs w.crtc x)
    (hunpin : x.unpinWork = (s.crtcs w.crtc).unpinWork)
    (hnext : x.nextSeq = (s.crtcs w.crtc).nextSeq)
    (htally : x.tally = update (s.crtcs w.crtc).tally w.seq (runTally w))
    (hqueue : t.queue = s.queue.erase w) (hrunning : t.running = w :: s.running)
    (hdone : t.done = s.done) : Ledger t := by
  obtain ⟨htw, htallies⟩ := tally_update hcrtcs htally
  have hperm : t.works.Perm s.works := by
    rw [FlipState.works, hqueue, hrunning, hdone]
    exact List.perm_middle.trans ((List.perm_cons_erase hw).symm.append_right _)
  have hnextSeq : ∀ c', (t.crtcs c').nextSeq = (s.crtcs c').nextSeq ∧
      (t.crtcs c').unpinWork = (s.crtcs c').unpinWork := fun c' => by
    by_cases hcc : c' = w.crtc
    · rw [hcrtcs, hcc, update_self]
      exact ⟨hnext, hunpin⟩
    · rw [hcrtcs, update_of_ne hcc]
      exact ⟨rfl, rfl⟩
  have hcons : ((w :: (s.queue.erase w ++ (s.running ++ s.done))).map UnpinWork.key).Nodup := by
    refine (List.Perm.nodup_iff ?_).mp h.nodup
    exact ((List.perm_cons_erase hw).append_right _).map UnpinWork.key
  have hkeys : ∀ v ∈ s.queue.erase w ++ (s.running ++ s.done), v.key ≠ w.key := fun v hv hkey =>
    (List.nodup_cons.mp hcons).1 (hkey ▸ List.mem_map_of_mem hv)
  have hwm : w.key ∈ s.works.map UnpinWork.key :=
    List.mem_map_of_mem (List.mem_append_left _ hw)
  refine ⟨fun c' v hv => ?_, fun c' m hm => ?_, fun v hv => ?_, ?_, fun v hv => ?_, fun v hv => ?_⟩
  · rw [(hnextSeq c').2] at hv
    obtain ⟨hvc, hvseq, hvt, hvn⟩ := h.own c' v hv
    refine ⟨hvc, by rwa [(hnextSeq c').1], ?_, fun hmem => ?_⟩
    · rw [htallies v fun hkey => hvn (hkey ▸ hwm)]
      exact hvt
    · exact hvn ((hperm.map UnpinWork.key).mem_iff.mp hmem)
  · rw [(hnextSeq c').1] at hm
    by_cases hcc : c' = w.crtc
    · have hms : m ≠ w.seq := by
        rintro rfl
        have hlt := h.listed w (List.mem_append_left _ hw)
        rw [hcc] at hm
        omega
      rw [hcrtcs, hcc, update_self, htally, update_of_ne hms]
      exact h.fresh w.crtc m (hcc ▸ hm)
    · rw [hcrtcs, update_of_ne hcc]
      exact h.fresh c' m hm
  · rw [(hnextSeq v.crtc).1]
    exact h.listed v (hperm.mem_iff.mp hv)
  · rw [(hperm.map UnpinWork.key).nodup_iff]
    exact h.nodup
  · rw [hqueue] at hv
    rw [htallies v (hkeys v (List.mem_append_left _ hv))]
    exact h.queued v (List.mem_of_mem_erase hv)
  · rw [hrunning, hdone] at hv
    rcases List.mem_cons.mp hv with rfl | hv
    · exact htw
    · rw [htallies v (hkeys v (List.mem_append_right _ hv))]
      exact h.run v hv

theorem Ledger.endUnpin (h : Ledger s) (hw : w ∈ s.running) : Ledger (s.endUnpinWork w) := by
  have hperm : (s.running.erase w ++ w :: s.done).Perm (s.running ++ s.done) :=
    List.perm_middle.trans ((List.perm_cons_erase hw).symm.append_right _)
  have hasks : s.Asks (s.setCrtc w.crtc { s.crtcs w.crtc with
      unpinWorkCount := (s.crtcs w.crtc).unpinWorkCount - 1 }) :=
    asks_setCrtc (.of_eq rfl rfl rfl rfl)
  have hk' := h.keeps hasks.keeps
  have hworks : (s.endUnpinWork w).works.Perm s.works := hperm.append_left s.queue
  refine ⟨fun c v hv => ?_, hk'.fresh, fun v hv => hk'.listed v (hworks.mem_iff.mp hv), ?_,
    hk'.queued, fun v hv => hk'.run v (hperm.mem_iff.mp hv)⟩
  · obtain ⟨hvc, hseq, htally, hnot⟩ := hk'.own c v hv
    exact ⟨hvc, hseq, htally, fun hmem => hnot ((hworks.map UnpinWork.key).mem_iff.mp hmem)⟩
  · rw [(hworks.map UnpinWork.key).nodup_iff]
    exact h.nodup

end GfxDrm.Flip
