import GfxDrm.Vblank.Events

/-! Every accepted event is in one place. -/

namespace GfxDrm.Vblank
open Pool Run

/-- The event of a page flip that is not accepted yet. -/
def VblankCall.requested : VblankCall → Option PendingEvent
  | flipGet _ _ e | flipBusy _ _ e | flipQueue _ _ e | flipCleanup _ _ e | flipPut _ _ e => e
  | _ => none

/-- A uiomove of drm_read goes through. -/
def VblankEvent.copies (d : VblankDevice) : VblankEvent → Bool
  | .run i x =>
    match d.calls[i]? with
    | some (.copying _ _ _ _) => x.ok
    | _ => true
  | _ => true

namespace VblankDevice

variable {drv : VblankDriver} {d d' : VblankDevice} {c i f : ℕ} {p : VblankCall}
  {n : Option VblankCall}

/-- How often id `x` was given out. -/
def uses (d : VblankDevice) (x : ℕ) : ℕ :=
  d.accepted.countP (fun e => e.id = x) +
    (d.calls.filterMap VblankCall.requested).countP fun e => e.id = x

structure Fresh (d : VblankDevice) : Prop where
  once : ∀ x, d.uses x ≤ 1
  new : ∀ x, d.nextEvent ≤ x → d.uses x = 0

theorem Fresh.mono (h : d.Fresh) (hnext : d.nextEvent ≤ d'.nextEvent)
    (huses : ∀ x, d'.uses x ≤ d.uses x) : d'.Fresh where
  once x := (huses x).trans (h.once x)
  new x hx := Nat.le_zero.mp ((huses x).trans_eq (h.new x (hnext.trans hx)))

/-- Nothing was accepted and no call has moved. -/
theorem Fresh.congr (h : d.Fresh) (hnext : d.nextEvent ≤ d'.nextEvent)
    (haccept : d'.accepted = d.accepted) (hcalls : d'.calls = d.calls) : d'.Fresh :=
  h.mono hnext fun x => by rw [uses, uses, haccept, hcalls]

/-- The next id is given out. -/
theorem Fresh.give (h : d.Fresh) (hnext : d'.nextEvent = d.nextEvent + 1)
    (huses : ∀ x, d'.uses x ≤ d.uses x + if d.nextEvent = x then 1 else 0) : d'.Fresh where
  once x := by
    have hx := huses x
    have hold := h.once x
    split at hx
    · rename_i he
      have hzero := h.new x (Nat.le_of_eq he)
      omega
    · omega
  new x hx := by
    have hle := huses x
    have hold := h.new x (by omega)
    rw [if_neg (by omega)] at hle
    omega

theorem uses_setCall (hp : d.calls[i]? = some p) (n : Option VblankCall) (x : ℕ) :
    (d.setCall i n).uses x + p.requested.toList.countP (fun e => e.id = x) =
      d.uses x + (n.bind VblankCall.requested).toList.countP fun e => e.id = x := by
  have hcount := countP_filterMap_moveOn VblankCall.requested (fun e => decide (e.id = x)) hp n
  simp only [uses, setCall]
  omega

theorem Fresh.move (h : d.Fresh) (hp : d.calls[i]? = some p)
    (hreq : n.bind VblankCall.requested = p.requested ∨ n.bind VblankCall.requested = none) :
    (d.setCall i n).Fresh := by
  refine h.mono (Nat.le_refl _) fun x => ?_
  have huses := uses_setCall hp n x
  rcases hreq with hreq | hreq <;> rw [hreq] at huses
  · omega
  · simp only [Option.toList_none, List.countP_nil] at huses
    omega

theorem Fresh.push (h : d.Fresh) (hp : p.requested = none) :
    ({ d with calls := p :: d.calls } : VblankDevice).Fresh :=
  h.mono (Nat.le_refl _) fun x => by simp only [uses, List.filterMap_cons_none hp, Nat.le_refl]

theorem Fresh.deliverAll (h : d.Fresh) (seq : BitVec 32) (due : PendingEvent → Bool) :
    (d.deliverAll seq due).Fresh :=
  h.congr (Nat.le_of_eq (foldl_keeps VblankDevice.nextEvent
      (fun d e => (rfl : (d.deliver seq e).nextEvent = _)) _ d).symm)
    (foldl_keeps VblankDevice.accepted (fun d e => (rfl : (d.deliver seq e).accepted = _)) _ d)
    (d.calls_deliverAll seq due)

theorem flipFailed_requested (k : ℕ) (e : Option PendingEvent) :
    (VblankCall.flipFailed k e).bind VblankCall.requested = none := by
  cases e <;> rfl

theorem uses_accepted (d : VblankDevice) (l : List PendingEvent) (x : ℕ) :
    ({ d with accepted := l ++ d.accepted } : VblankDevice).uses x =
      d.uses x + l.countP fun e => e.id = x := by
  simp only [uses, List.countP_append]
  omega

theorem Fresh.queueVblankEvent (h : d.Fresh) {k : ℕ} {req : WaitRequest}
    (hp : d.calls[i]? = some (.queueEvent k c req)) : (queueVblankEvent d i k c req).Fresh := by
  simp only [Vblank.queueVblankEvent]
  split
  · exact h.move hp (.inl rfl)
  · have huses : ∀ (e : PendingEvent) (x : ℕ), e.id = d.nextEvent →
        (d.accept i e).uses x = d.uses x + if d.nextEvent = x then 1 else 0 := fun e x he => by
      have hcall := uses_setCall (d := d.debit e.file) hp none x
      have haccept := uses_accepted ((d.debit e.file).setCall i none) [e] x
      simp only [List.countP_singleton, he, decide_eq_true_eq] at haccept
      exact haccept.trans (congrArg (· + _) hcall)
    split
    · exact h.give rfl fun x => Nat.le_of_eq (huses ⟨d.nextEvent, k, c, _⟩ x rfl)
    · exact h.give rfl fun x => Nat.le_of_eq (huses ⟨d.nextEvent, k, c, _⟩ x rfl)

theorem Fresh.run (h : d.Fresh) {x : Input} (hp : d.calls[i]? = some p)
    (hs : p.run drv d i x = some d') : d'.Fresh := by
  cases p with
  | waitGet k c req =>
    obtain ⟨⟨ret, d1⟩, hget, rfl⟩ := Option.map_eq_some_iff.mp hs
    obtain ⟨x, frame, rfl, -⟩ := get_cases hget
    refine Fresh.move (h.congr (Nat.le_refl _) rfl rfl) hp (.inl ?_)
    split <;> rfl
  | waitSeq k c req =>
    simp only [VblankCall.run] at hs
    split at hs <;> cases hs <;> exact h.move hp (.inl rfl)
  | blocked k c seq =>
    cases hs
    exact h.move hp (.inl rfl)
  | waitPut k c | direct c | flipCredit k =>
    cases hs
    exact Fresh.move (h.congr (Nat.le_refl _) rfl rfl) hp (.inl rfl)
  | queueAlloc k c req =>
    cases hs
    refine h.move hp (.inl ?_)
    split <;> rfl
  | queueEvent k c req =>
    cases hs
    exact h.queueVblankEvent hp
  | offDeliver c seq =>
    cases hs
    exact ((h.move hp (.inl rfl)).deliverAll seq _).congr (Nat.le_refl _) rfl rfl
  | read k max total =>
    simp only [VblankCall.run] at hs
    split at hs
    · cases hs
      exact h.move hp (.inl rfl)
    · split at hs <;> cases hs
      · exact h.move hp (.inl rfl)
      · exact Fresh.move (h.congr (Nat.le_refl _) rfl rfl) hp (.inl rfl)
  | copying k max total e =>
    simp only [VblankCall.run] at hs
    split at hs <;> cases hs
    · exact (h.move hp (.inl rfl)).congr (Nat.le_refl _) rfl rfl
    · exact (h.move hp (.inl rfl)).congr (Nat.le_refl _) rfl rfl
  | flipReserve k c =>
    simp only [VblankCall.run] at hs
    split at hs <;> cases hs
    · exact h.move hp (.inl rfl)
    · exact Fresh.move (h.congr (Nat.le_refl _) rfl rfl) hp (.inl rfl)
  | flipAlloc k c =>
    simp only [VblankCall.run] at hs
    split at hs <;> cases hs
    · refine h.give rfl fun y => Nat.le_of_eq ?_
      have huses := uses_setCall hp (some (.flipGet k c (some ⟨d.nextEvent, k, 0, 0⟩))) y
      simp only [Option.bind_some, VblankCall.requested, Option.toList_some, List.countP_singleton,
        decide_eq_true_eq] at huses
      exact huses
    · exact h.move hp (.inl rfl)
  | flipGet k c e =>
    simp only [VblankCall.run] at hs
    split at hs
    · obtain ⟨⟨ret, d1⟩, hget, rfl⟩ := Option.map_eq_some_iff.mp hs
      obtain ⟨x, frame, rfl, -⟩ := get_cases hget
      refine Fresh.move (h.congr (Nat.le_refl _) rfl rfl) hp ?_
      split
      · exact .inl rfl
      · exact .inr (flipFailed_requested k e)
    · cases hs
      exact h.move hp (.inr (flipFailed_requested k e))
  | flipBusy k c e =>
    simp only [VblankCall.run] at hs
    split at hs <;> cases hs
    · exact h.move hp (.inl rfl)
    · exact Fresh.move (h.congr (Nat.le_refl _) rfl rfl) hp (.inl rfl)
  | flipQueue k c e =>
    simp only [VblankCall.run] at hs
    split at hs <;> cases hs
    · refine h.mono (Nat.le_refl _) fun y => Nat.le_of_eq ?_
      have huses := uses_setCall hp none y
      exact (uses_accepted (d.setCall i none) e.toList y).trans huses
    · exact h.move hp (.inl rfl)
  | flipCleanup k c e =>
    cases hs
    exact Fresh.move (h.congr (Nat.le_refl _) rfl rfl) hp (.inl rfl)
  | flipPut k c e =>
    cases hs
    exact Fresh.move (h.congr (Nat.le_refl _) rfl rfl) hp (.inr (flipFailed_requested k e))

theorem Fresh.step (h : d.Fresh) {e : VblankEvent} (hs : vblankStep drv d e = some d') :
    d'.Fresh := by
  cases e with
  | openFile | tick c =>
    cases hs
    exact h.congr (Nat.le_refl _) rfl rfl
  | close f =>
    simp only [vblankStep] at hs
    split at hs <;> cases hs
    exact h.congr (Nat.le_of_eq (foldl_keeps VblankDevice.nextEvent
        (fun d e => (rfl : (d.remove e).nextEvent = _)) _ d).symm)
      (foldl_keeps VblankDevice.accepted (fun d e => (rfl : (d.remove e).accepted = _)) _ d)
      (foldl_keeps VblankDevice.calls calls_remove _ d)
  | wait f req =>
    simp only [vblankStep] at hs
    split at hs
    · split at hs <;> cases hs
      · exact h.push rfl
      · exact h
    · cases hs
  | read f max =>
    simp only [vblankStep] at hs
    split at hs <;> cases hs
    exact h.push rfl
  | flip f c event =>
    simp only [vblankStep] at hs
    split at hs <;> cases hs
    cases event <;> exact h.push rfl
  | get c x =>
    simp only [vblankStep] at hs
    split at hs
    · obtain ⟨⟨ret, d1⟩, hget, rfl⟩ := Option.map_eq_some_iff.mp hs
      obtain ⟨x, frame, rfl, -⟩ := get_cases hget
      have h1 : Fresh { d.setCrtc c x with frame := frame } := h.congr (Nat.le_refl _) rfl rfl
      split
      · exact h1.push rfl
      · exact h1
    · cases hs
  | off c r =>
    simp only [vblankStep] at hs
    split at hs <;> cases hs
    exact (h.push (p := .offDeliver c ((d.save drv c r).count c)) rfl).congr (Nat.le_refl _) rfl rfl
  | preModeset c x =>
    simp only [vblankStep, drmVblankPreModeset] at hs
    split at hs
    · split at hs
      · obtain ⟨⟨ret, d1⟩, hget, rfl⟩ := Option.map_eq_some_iff.mp hs
        obtain ⟨x, frame, rfl, -⟩ := get_cases hget
        split <;> exact h.congr (Nat.le_refl _) rfl rfl
      · cases hs
        exact h
    · cases hs
  | postModeset c =>
    simp only [vblankStep, drmVblankPostModeset] at hs
    split at hs
    · split at hs
      · split at hs <;> cases hs
        split <;> exact h.congr (Nat.le_refl _) rfl rfl
      · cases hs
        exact h
    · cases hs
  | timer c r =>
    simp only [vblankStep] at hs
    split at hs
    · cases hs
    · split at hs <;> cases hs
      · exact h.congr (Nat.le_refl _) rfl rfl
      · exact h
  | irq c t =>
    simp only [vblankStep] at hs
    split at hs <;> cases hs
    · have h1 : (d.setCrtc c (drmHandleVblank (d.crtc c) t)).Fresh :=
        h.congr (Nat.le_refl _) rfl rfl
      exact h1.deliverAll _ _
    · exact h
  | finish c =>
    cases hs
    unfold Vblank.finishPageFlip
    split
    · rename_i e hwork
      cases e <;> exact h.congr (Nat.le_refl _) rfl rfl
    · exact h
  | run i x =>
    obtain ⟨p, hp, hrun⟩ := Option.bind_eq_some_iff.mp hs
    exact h.run hp hrun

/-! ### Lost events -/

theorem lost_run {x : Input} (hs : p.run drv d i x = some d')
    (hcopy : ∀ k max total e, p = .copying k max total e → x.ok = true) : d'.lost = d.lost := by
  cases p with
  | waitGet k c req =>
    obtain ⟨⟨ret, d1⟩, hget, rfl⟩ := Option.map_eq_some_iff.mp hs
    obtain ⟨x, frame, rfl, -⟩ := get_cases hget
    rfl
  | queueEvent k c req =>
    cases hs
    unfold queueVblankEvent
    split
    · rfl
    · dsimp only
      split <;> rfl
  | offDeliver c seq =>
    cases hs
    exact foldl_keeps VblankDevice.lost (fun d e => (rfl : (d.deliver seq e).lost = _)) _ _
  | read k max total =>
    simp only [VblankCall.run] at hs
    split at hs
    · cases hs
      rfl
    · split at hs <;> cases hs <;> rfl
  | copying k max total e =>
    simp only [VblankCall.run, hcopy k max total e rfl] at hs
    cases hs
    rfl
  | flipGet k c e =>
    simp only [VblankCall.run] at hs
    split at hs
    · obtain ⟨⟨ret, d1⟩, hget, rfl⟩ := Option.map_eq_some_iff.mp hs
      obtain ⟨x, frame, rfl, -⟩ := get_cases hget
      rfl
    · cases hs
      rfl
  | waitSeq k c req | flipReserve k c | flipAlloc k c | flipBusy k c e | flipQueue k c e =>
    simp only [VblankCall.run] at hs
    split at hs <;> cases hs <;> rfl
  | blocked k c seq | waitPut k c | queueAlloc k c req | direct c | flipCredit k
  | flipCleanup k c e | flipPut k c e =>
    cases hs
    rfl

theorem lost_step {e : VblankEvent} (hg : e.copies d = true)
    (hs : vblankStep drv d e = some d') : d'.lost = d.lost := by
  cases e with
  | openFile | tick c =>
    cases hs
    rfl
  | close f =>
    simp only [vblankStep] at hs
    split at hs <;> cases hs
    exact foldl_keeps VblankDevice.lost (fun d e => (rfl : (d.remove e).lost = _)) _ d
  | wait f req =>
    simp only [vblankStep] at hs
    split at hs
    · split at hs <;> cases hs <;> rfl
    · cases hs
  | read f max | flip f c event | off c r =>
    simp only [vblankStep] at hs
    split at hs <;> cases hs
    rfl
  | get c x =>
    simp only [vblankStep] at hs
    split at hs
    · obtain ⟨⟨ret, d1⟩, hget, rfl⟩ := Option.map_eq_some_iff.mp hs
      obtain ⟨x, frame, rfl, -⟩ := get_cases hget
      split <;> rfl
    · cases hs
  | preModeset c x =>
    simp only [vblankStep, drmVblankPreModeset] at hs
    split at hs
    · split at hs
      · obtain ⟨⟨ret, d1⟩, hget, rfl⟩ := Option.map_eq_some_iff.mp hs
        obtain ⟨x, frame, rfl, -⟩ := get_cases hget
        split <;> rfl
      · cases hs
        rfl
    · cases hs
  | postModeset c =>
    simp only [vblankStep, drmVblankPostModeset] at hs
    split at hs
    · split at hs
      · split at hs <;> cases hs
        split <;> rfl
      · cases hs
        rfl
    · cases hs
  | timer c r =>
    simp only [vblankStep] at hs
    split at hs
    · cases hs
    · split at hs <;> cases hs <;> rfl
  | irq c t =>
    simp only [vblankStep] at hs
    split at hs <;> cases hs
    · exact foldl_keeps VblankDevice.lost (fun d e => (rfl : (d.deliver _ e).lost = _)) _ _
    · rfl
  | finish c =>
    cases hs
    unfold finishPageFlip
    split
    · rename_i e hwork
      cases e <;> rfl
    · rfl
  | run i x =>
    obtain ⟨p, hp, hrun⟩ := Option.bind_eq_some_iff.mp hs
    refine lost_run hrun fun k max total e he => ?_
    rw [he] at hp
    simpa only [VblankEvent.copies, hp] using hg

/-! ### Where the events of a file are -/

theorem count_ids (l : List PendingEvent) (f x : ℕ) :
    ((l.filter fun e => e.file = f).map PendingEvent.id).count x =
      l.countP (PendingEvent.own f fun y => y = x) := by
  rw [List.count, List.countP_map, List.countP_filter]
  refine List.countP_congr fun e _ => ?_
  simp [PendingEvent.own, and_comm]

theorem Filed.outstanding (h : Filed drv d) :
    (d.outstanding drv f).filter (fun e => e.file = f) = d.outstanding drv f := by
  refine List.filter_eq_self.mpr fun e he => ?_
  rcases List.mem_append.mp he with he | he
  · exact (List.mem_filter.mp he).2
  · exact decide_eq_true (h.queued f e he)

theorem filed_init : Filed drv {} where
  opened := by simp
  calls := by simp
  queued := by simp
  work := by simp

theorem books_init : Books drv {} where
  space f _ := by simp [spaceGap, owed_eq, flying, UnpinWork.flying]
  events f _ g := by simp [eventGap, owed_eq, flying, UnpinWork.flying]
  fresh _ _ := rfl
  nonneg _ := Int.natCast_nonneg 4096

theorem books_of_reach (h : Reach (vblankSystem drv) d) : Filed drv d ∧ Books drv d ∧ d.Fresh :=
  h.invariant_of (J := fun d => Filed drv d ∧ Books drv d ∧ d.Fresh) (fun _ h => ok_of_reach h)
    (fun _ hd => hd ▸ ⟨filed_init, books_init, ⟨fun _ => by simp [uses], fun _ _ => by simp [uses]⟩⟩)
    fun _ _ _ hok ⟨hfiled, hbooks, hfresh⟩ _ hs =>
      ⟨hfiled.step hs, hbooks.step hfiled hok hs, hfresh.step hs⟩

end VblankDevice

open VblankDevice in
/-- The event space of an open file and its outstanding events are 4096 bytes together, its
accepted events are different and each is outstanding, copied, consumed or lost, and none is
lost in a run in which every copy to a client goes through. -/
theorem event_space_exact (drv : VblankDriver) (d : VblankDevice) (f : ℕ)
    (h : Reach (vblankSystem drv) d) (hopen : (d.file f).opened = true) :
    (d.file f).eventSpace + eventLength * ((d.outstanding drv f).length +
      d.calls.countP (VblankCall.reserves f)) = 4096 ∧
    0 ≤ (d.file f).eventSpace ∧
    (d.accepted.map PendingEvent.id).Nodup ∧
    ((d.accepted.filter fun e => e.file = f).map PendingEvent.id).Perm
      ((d.outstanding drv f ++ (d.calls.filterMap VblankCall.copied ++ d.consumed ++ d.lost).filter
        fun e => e.file = f).map PendingEvent.id) ∧
    (ReachWhile (vblankSystem drv) (fun d e => e.copies d = true) d → d.lost = []) := by
  obtain ⟨hfiled, hbooks, hfresh⟩ := books_of_reach h
  refine ⟨?_, hbooks.nonneg f, ?_, ?_, fun hg => ?_⟩
  · have hgap := hbooks.space f (.inl hopen)
    have howed : d.owed drv f (fun _ => true) = (d.outstanding drv f).length := by
      refine List.countP_eq_length.mpr fun e he => ?_
      rw [← hfiled.outstanding] at he
      rw [own_true]
      exact (List.mem_filter.mp he).2
    rw [spaceGap, howed] at hgap
    omega
  · rw [List.nodup_iff_count_le_one]
    intro x
    rw [List.count, List.countP_map]
    refine le_trans ?_ (hfresh.once x)
    refine le_trans (Nat.le_of_eq ?_) (Nat.le_add_right _ _)
    exact List.countP_congr fun e _ => by simp
  · rw [List.perm_iff_count]
    intro x
    have hgap := hbooks.events f (.inl hopen) fun y => y = x
    rw [eventGap, owed] at hgap
    rw [← hfiled.outstanding, ← List.filter_append, count_ids, count_ids]
    simp only [List.countP_append]
    omega
  · exact hg.invariant (I := fun d => d.lost = []) (fun _ hd => hd ▸ rfl)
      fun _ _ _ hl hc hs => (lost_step hc hs).trans hl

/-- A client reads an event. -/
theorem event_space_exact_read : ∃ d : VblankDevice, d.lost = [] ∧
    (d.file 0).eventSpace = 4096 ∧ d.consumed ≠ [] := by
  obtain ⟨d, hd, hp⟩ : ∃ d,
      ReachWhile (vblankSystem { numCrtcs := 1 }) (fun d e => e.copies d = true) d ∧
      ((d.file 0).opened && (d.outstanding { numCrtcs := 1 } 0).isEmpty && d.calls.isEmpty &&
        !d.consumed.isEmpty) = true :=
    ReachWhile.of_exec_any (l := [.openFile, .wait 0 ⟨WaitRequest.event, 0⟩, .run 0 {}, .run 0 {},
      .run 0 {}, .run 0 {}, .read 0 64, .run 0 {}, .run 0 {}, .run 0 {}]) (.init rfl)
      (by decide +kernel)
  simp only [Bool.and_eq_true, List.isEmpty_iff] at hp
  obtain ⟨⟨⟨hopen, hout⟩, hcalls⟩, hread⟩ := hp
  obtain ⟨hspace, -, -, -, hlost⟩ := event_space_exact { numCrtcs := 1 } d 0 hd.reach hopen
  refine ⟨d, hlost hd, ?_, by simpa using hread⟩
  rw [hout, hcalls] at hspace
  simpa using hspace

/-- A copy to the client fails: the event is gone. -/
theorem event_lost_by_read : ¬ ∀ drv d f, Reach (vblankSystem drv) d →
    (d.file f).opened = true → ((d.accepted.filter fun e => e.file = f).map PendingEvent.id).Perm
      ((d.outstanding drv f ++ (d.calls.filterMap VblankCall.copied ++ d.consumed).filter
        fun e => e.file = f).map PendingEvent.id) := by
  intro h
  obtain ⟨d, hd, hp⟩ : ∃ d,
      ReachWhile (vblankSystem { numCrtcs := 1 }) (fun _ _ => true = true) d ∧
      ((d.file 0).opened && !((d.accepted.filter fun e => e.file = 0).length ==
        (d.outstanding { numCrtcs := 1 } 0 ++
          (d.calls.filterMap VblankCall.copied ++ d.consumed).filter fun e => e.file = 0).length)) =
        true :=
    ReachWhile.of_exec_any (l := [.openFile, .wait 0 ⟨WaitRequest.event, 0⟩, .run 0 {}, .run 0 {},
      .run 0 {}, .run 0 {}, .read 0 64, .run 0 {}, .run 0 { ok := false }]) (.init rfl)
      (by decide +kernel)
  rw [Bool.and_eq_true, Bool.not_eq_true', beq_eq_false_iff_ne] at hp
  have hperm := (h _ d 0 hd.reach hp.1).length_eq
  rw [List.length_map, List.length_map] at hperm
  exact hp.2 hperm

end GfxDrm.Vblank
