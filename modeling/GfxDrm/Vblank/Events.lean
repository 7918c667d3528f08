import GfxDrm.Vblank.Ledger

/-! The event space and the events of every file along runs. -/

namespace GfxDrm.Vblank
open Pool Run

namespace VblankDevice

variable {drv : VblankDriver} {d d' : VblankDevice} {c i f : ℕ} {g : ℕ → Bool} {p : VblankCall}
  {n : Option VblankCall}

theorem file_space (k f : ℕ) (s : ℤ → ℤ) :
    ((d.setFile k fun p => { p with eventSpace := s p.eventSpace }).file f).opened =
      (d.file f).opened ∧
    ((d.setFile k fun p => { p with eventSpace := s p.eventSpace }).file f).eventSpace =
      if f = k then s (d.file k).eventSpace else (d.file f).eventSpace := by
  by_cases hf : f = k
  · subst hf
    simp [setFile]
  · simp [setFile, hf]

/-- A debit or credit of the event space of an open file, paid for by the call that makes it. -/
theorem Books.transfer (h : Books drv d) {k : ℕ} (hk : k < d.nextFile) {s : ℤ → ℤ}
    (hpos : 0 ≤ s (d.file k).eventSpace) (hp : d.calls[i]? = some p)
    (hspace : ∀ f, (if k = f then s (d.file f).eventSpace - (d.file f).eventSpace else 0) +
      eventLength * (n.toList.countP (VblankCall.reserves f) - ((p.reserves f).toNat : ℤ)) = 0)
    (hcopy : n.bind VblankCall.copied = p.copied) :
    Books drv ((d.setFile k fun p => { p with eventSpace := s p.eventSpace }).setCall i n) := by
  have hfile := fun f => d.file_space k f s
  refine h.keep rfl (fun f => (hfile f).1) (fun f => ?_) (fun f g => ?_) fun f => ?_
  · have hgap := hspace f
    rw [spaceGap_setCall (d := d.setFile k _) hp, spaceGap_setFile]
    omega
  · rw [eventGap_setCall (d := d.setFile k _) hp, eventGap_setFile, hcopy]
    omega
  · rw [setCall, (hfile f).2]
    split
    · rename_i hf
      exact .inr ⟨hf ▸ hk, hpos⟩
    · exact .inl rfl

/-- A call moves on and keeps what it has reserved and copies. -/
theorem Books.pass (h : Books drv d) (hp : d.calls[i]? = some p) {q : VblankCall}
    (hres : ∀ f, q.reserves f = p.reserves f) (hcopy : q.copied = p.copied) :
    Books drv (d.setCall i (some q)) := by
  refine h.move hp (fun f => ?_) hcopy
  rw [Option.toList_some, List.countP_singleton, ← hres f]
  cases q.reserves f <;> rfl

theorem flipFailed_reserves (k f : ℕ) (e : Option PendingEvent) :
    (VblankCall.flipFailed k e).toList.countP (VblankCall.reserves f) =
      (e.isSome && decide (k = f)).toNat ∧
    (VblankCall.flipFailed k e).bind VblankCall.copied = none := by
  cases e
  · simp [VblankCall.flipFailed]
  · by_cases hk : k = f <;> simp [VblankCall.flipFailed, VblankCall.reserves, VblankCall.copied, hk]

theorem full_iff {p : EventFile} (hpos : 0 ≤ p.eventSpace) :
    p.full = false ↔ 0 ≤ p.eventSpace - eventLength := by
  simp only [EventFile.full, eventLength]
  by_cases h : p.eventSpace < 32 <;> simp [h, hpos]
  omega

/-- A crtc gets another work and none of the two flies. -/
theorem Books.setWork (h : Books drv d) (hc : c < drv.numCrtcs) {w : Option UnpinWork}
    (hold : UnpinWork.flying (d.unpinWork c) = none) (hnew : UnpinWork.flying w = none) :
    Books drv (d.setWork c w) := by
  refine h.congr rfl rfl (fun f g => ?_) rfl ⟨rfl, rfl, rfl⟩
  have howed := owed_setWork (f := f) (g := g) (d := d) hc w
  rwa [hold, hnew] at howed

theorem eventGap_accepted (l : List PendingEvent) :
    ({ d with accepted := l ++ d.accepted } : VblankDevice).eventGap drv f g =
      d.eventGap drv f g + l.countP (PendingEvent.own f g) := by
  have howed : ({ d with accepted := l ++ d.accepted } : VblankDevice).owed drv f g =
      d.owed drv f g := rfl
  simp only [eventGap, List.countP_append]
  omega

def debit (d : VblankDevice) (k : ℕ) : VblankDevice :=
  d.setFile k fun p => { p with eventSpace := p.eventSpace - eventLength }

/-- The device when drm_queue_vblank_event has taken event `e` on. -/
def accept (d : VblankDevice) (i : ℕ) (e : PendingEvent) : VblankDevice :=
  { (d.debit e.file).setCall i none with
    nextEvent := d.nextEvent + 1
    accepted := e :: d.accepted }

theorem spaceGap_accept (hp : d.calls[i]? = some p) (hres : ∀ f, p.reserves f = false)
    (e : PendingEvent) : (d.accept i e).spaceGap drv f =
      d.spaceGap drv f - if e.file = f then (eventLength : ℤ) else 0 := by
  have hdebit : (d.debit e.file).spaceGap drv f = _ :=
    spaceGap_setFile e.file fun x => x - eventLength
  have hcall : (d.accept i e).spaceGap drv f = _ :=
    spaceGap_setCall (d := d.debit e.file) hp none
  rw [hcall, hdebit, hres]
  split <;> simp
  omega

theorem eventGap_accept (hp : d.calls[i]? = some p) (hcopy : p.copied = none) (e : PendingEvent) :
    (d.accept i e).eventGap drv f g = d.eventGap drv f g + (e.own f g).toNat := by
  have hdebit : (d.debit e.file).eventGap drv f g = _ :=
    eventGap_setFile e.file fun x => x - eventLength
  have hcall : ((d.debit e.file).setCall i none).eventGap drv f g = _ :=
    eventGap_setCall (d := d.debit e.file) hp none
  have hown : (d.accept i e).eventGap drv f g = _ :=
    eventGap_accepted (d := (d.debit e.file).setCall i none) [e]
  rw [hown, hcall, hdebit, hcopy, List.countP_singleton]
  cases e.own f g <;> simp

theorem Books.accept (h : Books drv d) (hp : d.calls[i]? = some p)
    (hres : ∀ f, p.reserves f = false) (hcopy : p.copied = none) {e : PendingEvent}
    (he : e.file < d.nextFile) (hpos : 0 ≤ (d.file e.file).eventSpace - eventLength)
    (hnext : d'.nextFile = d.nextFile)
    (hfile : ∀ f, (d'.file f).opened = ((d.accept i e).file f).opened ∧
      (d'.file f).eventSpace = ((d.accept i e).file f).eventSpace)
    (hspace : ∀ f, d'.spaceGap drv f =
      (d.accept i e).spaceGap drv f + if e.file = f then (eventLength : ℤ) else 0)
    (hevents : ∀ f g, d'.eventGap drv f g =
      (d.accept i e).eventGap drv f g - (e.own f g).toNat) : Books drv d' := by
  have haccept := fun f => d.file_space e.file f fun x => x - eventLength
  refine h.keep hnext (fun f => (hfile f).1.trans (haccept f).1) (fun f => ?_) (fun f g => ?_)
    fun f => ?_
  · rw [hspace, spaceGap_accept hp hres]
    omega
  · rw [hevents, eventGap_accept hp hcopy]
    omega
  · rw [(hfile f).2]
    refine (em (f = e.file)).symm.imp (fun hf => ?_) fun hf => ?_
    · exact ((haccept f).2).trans (if_neg hf)
    · refine ⟨hf ▸ he, ?_⟩
      rw [show ((d.accept i e).file f).eventSpace = _ from (haccept f).2, if_pos hf]
      exact hpos

theorem Books.queueVblankEvent (h : Books drv d) (hfiled : Filed drv d) {k : ℕ}
    {req : WaitRequest} (hp : d.calls[i]? = some (.queueEvent k c req)) :
    Books drv (queueVblankEvent d i k c req) := by
  have hk : k < d.nextFile :=
    hfiled.opened k ((hfiled.calls _ (List.mem_of_getElem? hp)).opened k rfl)
  simp only [Vblank.queueVblankEvent]
  split
  · exact h.pass hp (fun _ => rfl) rfl
  · rename_i hspace
    have hpos := (full_iff (h.nonneg k)).mp (by simpa using hspace)
    generalize he : (⟨d.nextEvent, k, c, (req.next (d.count c)).sequence⟩ : PendingEvent) = e
    have hek : e.file = k := he ▸ rfl
    subst hek
    split
    · exact h.accept hp (fun _ => rfl) rfl hk hpos rfl
        (fun f => ((d.accept i e).put c).file_send e _ f)
        (fun _ => spaceGap_send (d := (d.accept i e).put c) e _)
        fun _ _ => eventGap_send (d := (d.accept i e).put c) e _
    · change Books drv { d.accept i e with vblankEventList := (d.accept i e).vblankEventList ++ [e] }
      exact h.accept hp (fun _ => rfl) rfl hk hpos rfl (fun _ => ⟨rfl, rfl⟩)
        (fun _ => spaceGap_append e) fun _ _ => eventGap_append e

theorem Books.dequeue (h : Books drv d) {e : PendingEvent} {rest : List PendingEvent}
    (hk : e.file < d.nextFile) (hlist : (d.file e.file).eventList = e :: rest)
    (hp : d.calls[i]? = some p) (hres : ∀ f, p.reserves f = false) (hcopy : p.copied = none)
    {q : VblankCall} (hqres : ∀ f, q.reserves f = false) (hqcopy : q.copied = some e) :
    Books drv ((d.dequeue e.file rest).setCall i (some q)) := by
  have hfile : ∀ f, ((d.dequeue e.file rest).file f).opened = (d.file f).opened ∧
      ((d.dequeue e.file rest).file f).eventSpace =
        if f = e.file then (d.file f).eventSpace + eventLength else (d.file f).eventSpace := fun f => by
    by_cases hf : f = e.file
    · subst hf
      simp [VblankDevice.dequeue, setFile]
    · simp [VblankDevice.dequeue, setFile, hf]
  refine h.keep rfl (fun f => (hfile f).1) (fun f => ?_) (fun f g => ?_) fun f => ?_
  · rw [spaceGap_setCall (d := d.dequeue e.file rest) hp, spaceGap_dequeue hlist, hres]
    simp [hqres]
  · rw [eventGap_setCall (d := d.dequeue e.file rest) hp, eventGap_dequeue hlist, hcopy,
      Option.bind_some, hqcopy, Option.toList_some, List.countP_singleton]
    cases e.own f g <;> simp
  · rw [setCall, (hfile f).2]
    split
    · rename_i hf
      have hpos := h.nonneg f
      exact .inr ⟨hf ▸ hk, by omega⟩
    · exact .inl rfl

/-- The hardware is told of a flip: its event is accepted. -/
theorem Books.launch (h : Books drv d) (hc : c < drv.numCrtcs) {e : Option PendingEvent} {k : ℕ}
    (hwork : d.unpinWork c = some ⟨e, false⟩) (hp : d.calls[i]? = some (.flipQueue k c e))
    (he : ∀ x ∈ e, x.file = k) :
    Books drv { (d.setWork c (some ⟨e, true⟩)).setCall i none with
      accepted := e.toList ++ d.accepted } := by
  have howed : ∀ f g, (d.setWork c (some ⟨e, true⟩)).owed drv f g =
      d.owed drv f g + e.toList.countP (PendingEvent.own f g) := fun f g => by
    have hset := owed_setWork (f := f) (g := g) (d := d) hc (some ⟨e, true⟩)
    rwa [hwork] at hset
  refine h.keep rfl (fun _ => rfl) (fun f => ?_) (fun f g => ?_) fun _ => .inl rfl
  · refine (spaceGap_setCall (d := d.setWork c (some ⟨e, true⟩)) hp none).trans ?_
    simp only [spaceGap, howed]
    simp only [VblankDevice.setWork, eventLength]
    cases e with
    | none => simp [VblankCall.reserves]
    | some x =>
      have hx := he x rfl
      subst hx
      simp only [Option.toList_some, List.countP_singleton, own_true, VblankCall.reserves]
      by_cases hf : x.file = f <;> simp [hf]
      omega
  · refine (eventGap_accepted (d := (d.setWork c (some ⟨e, true⟩)).setCall i none) _).trans ?_
    rw [eventGap_setCall (d := d.setWork c (some ⟨e, true⟩)) hp]
    simp only [eventGap, howed, VblankCall.copied, Option.bind_none]
    simp only [VblankDevice.setWork]
    omega

/-- The event that drm_read has in hand is copied, or dropped. -/
theorem Books.copy (h : Books drv d) {k max total : ℕ} {e : PendingEvent}
    (hp : d.calls[i]? = some (.copying k max total e)) {q : Option VblankCall}
    (hres : ∀ f, q.toList.countP (VblankCall.reserves f) = 0)
    (hcopy : q.bind VblankCall.copied = none) {a b : List PendingEvent} (hab : a ++ b = [e]) :
    Books drv { d.setCall i q with consumed := a ++ d.consumed, lost := b ++ d.lost } := by
  refine h.keep rfl (fun _ => rfl) (fun f => ?_) (fun f g => ?_) fun _ => .inl rfl
  · refine (spaceGap_setCall hp q).trans ?_
    simp [hres, VblankCall.reserves]
  · have hcount := congrArg (List.countP (PendingEvent.own f g)) hab
    have hcall : (d.setCall i q).eventGap drv f g = _ := eventGap_setCall hp q
    have howed : ({ d.setCall i q with consumed := a ++ d.consumed, lost := b ++ d.lost } :
        VblankDevice).owed drv f g = (d.setCall i q).owed drv f g := rfl
    rw [hcopy, VblankCall.copied, Option.toList_some, ← hcount, Option.toList_none, List.countP_nil] at hcall
    simp only [eventGap, howed, List.countP_append] at hcall ⊢
    simp only [setCall] at hcall ⊢
    omega

theorem Books.run (h : Books drv d) (hfiled : Filed drv d) (hok : d.Ok) {x : Input}
    (hp : d.calls[i]? = some p) (hs : p.run drv d i x = some d') : Books drv d' := by
  have hmem := List.mem_of_getElem? hp
  have hown := hfiled.calls _ hmem
  cases p with
  | waitGet k c req =>
    obtain ⟨⟨ret, d1⟩, hget, rfl⟩ := Option.map_eq_some_iff.mp hs
    refine (h.get hget).move ((hfiled.get hget).2 ▸ hp) (fun f => ?_) ?_ <;> split <;> rfl
  | waitSeq k c req =>
    simp only [VblankCall.run] at hs
    split at hs <;> cases hs <;> exact h.move hp (fun _ => rfl) rfl
  | blocked k c seq =>
    cases hs
    exact h.move hp (fun _ => rfl) rfl
  | waitPut k c | direct c =>
    cases hs
    exact (h.put c).move hp (fun _ => rfl) rfl
  | queueAlloc k c req =>
    cases hs
    refine h.move hp (fun f => ?_) ?_ <;> split <;> rfl
  | queueEvent k c req =>
    cases hs
    exact h.queueVblankEvent hfiled hp
  | offDeliver c seq =>
    cases hs
    have h1 : Books drv (d.setCall i none) := h.move hp (fun _ => rfl) rfl
    exact (h1.deliverAll hok.nodup seq _).congr rfl rfl (fun _ _ => rfl) rfl ⟨rfl, rfl, rfl⟩
  | read k max total =>
    have hend : Books drv (d.setCall i none) := h.move hp (fun _ => rfl) rfl
    simp only [VblankCall.run] at hs
    split at hs
    · cases hs
      exact hend
    · rename_i e rest hlist
      split at hs <;> cases hs
      · exact hend
      · have hek := hfiled.queued k e (hlist ▸ List.mem_cons_self)
        subst hek
        exact h.dequeue (hfiled.opened _ (hown.opened _ rfl)) hlist hp (fun _ => rfl) rfl
          (fun _ => rfl) rfl
  | copying k max total e =>
    simp only [VblankCall.run] at hs
    split at hs <;> cases hs
    · exact h.copy hp (fun _ => rfl) rfl (a := [e]) (b := []) rfl
    · exact h.copy hp (q := none) (fun _ => rfl) rfl (a := []) (b := [e]) rfl
  | flipReserve k c =>
    simp only [VblankCall.run] at hs
    split at hs <;> cases hs
    · exact h.move hp (fun _ => rfl) rfl
    · rename_i hspace
      refine h.transfer (s := fun x => x - eventLength) (hfiled.opened k (hown.opened k rfl))
        ((full_iff (h.nonneg k)).mp (by simpa using hspace)) hp (fun f => ?_) rfl
      by_cases hk : k = f <;> simp [VblankCall.reserves, hk]
  | flipAlloc k c =>
    simp only [VblankCall.run] at hs
    split at hs <;> cases hs
    · have h1 : Books drv { d with nextEvent := d.nextEvent + 1 } :=
        h.congr rfl rfl (fun _ _ => rfl) rfl ⟨rfl, rfl, rfl⟩
      exact h1.pass hp (fun _ => rfl) rfl
    · exact h.pass hp (fun _ => rfl) rfl
  | flipCredit k =>
    cases hs
    have hpos := h.nonneg k
    refine h.transfer (s := fun x => x + eventLength) (hfiled.opened k (hown.opened k rfl))
      (by omega) hp (fun f => ?_) rfl
    by_cases hk : k = f <;> simp [VblankCall.reserves, hk]
  | flipGet k c e =>
    have hfail := fun f => flipFailed_reserves k f e
    simp only [VblankCall.run] at hs
    split at hs
    · obtain ⟨⟨ret, d1⟩, hget, rfl⟩ := Option.map_eq_some_iff.mp hs
      have hp' := (hfiled.get hget).2 ▸ hp
      split
      · exact (h.get hget).pass hp' (fun _ => rfl) rfl
      · exact (h.get hget).move hp' (fun f => (hfail f).1) (hfail 0).2
    · cases hs
      exact h.move hp (fun f => (hfail f).1) (hfail 0).2
  | flipBusy k c e =>
    simp only [VblankCall.run] at hs
    split at hs <;> cases hs
    · exact h.pass hp (fun _ => rfl) rfl
    · rename_i hfree
      refine (h.setWork (hown.crtc c rfl) ?_ rfl).pass hp (fun _ => rfl) rfl
      rw [Option.not_isSome_iff_eq_none.mp hfree]
      rfl
  | flipQueue k c e =>
    have hwork := hok.work _ hmem c e rfl
    simp only [VblankCall.run] at hs
    split at hs <;> cases hs
    · rw [hwork]
      exact h.launch (hown.crtc c rfl) hwork hp fun x hx => (Option.some.inj (hown.event x hx)).symm
    · exact h.pass hp (fun _ => rfl) rfl
  | flipCleanup k c e =>
    have hwork := hok.work _ hmem c e rfl
    cases hs
    exact (h.setWork (hown.crtc c rfl) (hwork ▸ rfl) rfl).pass hp (fun _ => rfl) rfl
  | flipPut k c e =>
    cases hs
    exact (h.put c).move hp (fun f => (flipFailed_reserves k f e).1) (flipFailed_reserves k 0 e).2

theorem Books.finishPageFlip (h : Books drv d) (hfiled : Filed drv d) (c : ℕ) :
    Books drv (finishPageFlip d c) := by
  unfold Vblank.finishPageFlip
  split
  · rename_i e hwork
    have hc : c < drv.numCrtcs := by
      by_contra hc
      simp [hfiled.work c (by omega)] at hwork
    cases e with
    | none => exact (h.setWork hc (by rw [hwork]; rfl) rfl).put c
    | some e =>
      have howed : ∀ f g, (d.setWork c none).owed drv f g + (e.own f g).toNat = d.owed drv f g :=
        fun f g => by
          have hset := owed_setWork (f := f) (g := g) (d := d) hc none
          rw [hwork] at hset
          simp only [UnpinWork.flying] at hset
          cases hown : e.own f g <;> simp [hown] at hset ⊢ <;> omega
      refine Books.put ?_ c
      have hfile := (d.setWork c none).file_send { e with pipe := c } (d.count c)
      refine h.keep rfl (fun f => (hfile f).1) (fun f => ?_) (fun f g => ?_)
        fun f => .inl (hfile f).2
      · refine spaceGap_congr ?_ (hfile f).2 rfl
        rw [owed_send, ← howed]
        rfl
      · have hset := howed f g
        refine (eventGap_send (d := d.setWork c none) { e with pipe := c } (d.count c)).trans ?_
        simp only [eventGap, ← hset]
        simp only [VblankDevice.setWork, PendingEvent.own]
        omega
  · exact h

/-- A file whose record is replaced while nothing of it is counted. -/
theorem owed_file (hlist : d'.vblankEventList = d.vblankEventList)
    (hwork : d'.unpinWork = d.unpinWork) : d'.owed drv f g +
      (d.file f).eventList.countP (PendingEvent.own f g) =
    d.owed drv f g + (d'.file f).eventList.countP (PendingEvent.own f g) := by
  simp only [owed_eq, flying, hlist, hwork]
  omega

/-- Of a file that was never opened nothing is owed. -/
theorem Books.unopened (h : Books drv d) (hf : d.nextFile ≤ f) (g : ℕ → Bool) :
    d.owed drv f g = 0 ∧ d.calls.countP (VblankCall.reserves f) = 0 := by
  have hzero := h.space f (.inr hf)
  rw [spaceGap, h.fresh f hf, eventLength] at hzero
  have hle : d.owed drv f g ≤ d.owed drv f fun _ => true := by
    refine List.countP_mono_left fun e _ he => ?_
    rw [own_true]
    exact ((Bool.and_eq_true _ _).mp he).1
  omega

theorem Books.openFile (h : Books drv d) : Books drv { d.setFile d.nextFile
    (fun _ => { opened := true }) with nextFile := d.nextFile + 1 } := by
  generalize hd : ({ d.setFile d.nextFile (fun _ => { opened := true }) with
    nextFile := d.nextFile + 1 } : VblankDevice) = d'
  have hnew : d'.file d.nextFile = { opened := true } := by simp [← hd, setFile]
  have hold : ∀ f, f ≠ d.nextFile → d'.file f = d.file f := fun f hf => by
    simp [← hd, setFile, Function.update_of_ne hf]
  have howed : ∀ f g, d'.owed drv f g + (d.file f).eventList.countP (PendingEvent.own f g) =
      d.owed drv f g + (d'.file f).eventList.countP (PendingEvent.own f g) := fun f g => by
    rw [← hd]
    exact owed_file rfl rfl
  have hgaps : ∀ f, f ≠ d.nextFile → d'.spaceGap drv f = d.spaceGap drv f ∧
      ∀ g, d'.eventGap drv f g = d.eventGap drv f g := fun f hf => by
    refine gaps_congr (fun g => ?_) (by rw [hold f hf]) (by rw [← hd]; rfl) (by simp [← hd, setFile])
    have how := howed f g
    rw [hold f hf] at how
    omega
  have hlive : ∀ f, f ≠ d.nextFile → d'.live f → d.live f := fun f hf hl => by
    refine hl.imp (fun ho => by rwa [hold f hf] at ho) fun hle => ?_
    have hle' : d.nextFile + 1 ≤ f := by rwa [← hd] at hle
    omega
  have hnone : ∀ g, d.owed drv d.nextFile g = 0 ∧ d'.owed drv d.nextFile g = 0 := fun g => by
    have hzero := h.unopened (Nat.le_refl _) g
    have how := howed d.nextFile g
    rw [hnew, List.countP_nil] at how
    omega
  refine ⟨fun f hf => ?_, fun f hf g => ?_, fun f hf => ?_, fun f => ?_⟩
  · by_cases hfn : f = d.nextFile
    · subst hfn
      have hcalls : d'.calls = d.calls := by rw [← hd]; rfl
      rw [spaceGap, hnew, hcalls, (hnone _).2, (h.unopened (Nat.le_refl _) fun _ => true).2]
      rfl
    · rw [(hgaps f hfn).1]
      exact h.space f (hlive f hfn hf)
  · by_cases hfn : f = d.nextFile
    · subst hfn
      have hgap := h.events d.nextFile (.inr (Nat.le_refl _)) g
      rw [eventGap, (hnone g).1] at hgap
      rw [eventGap, (hnone g).2, ← hgap, ← hd]
      rfl
    · rw [(hgaps f hfn).2]
      exact h.events f (hlive f hfn hf) g
  · have hle : d.nextFile + 1 ≤ f := by rwa [← hd] at hf
    rw [hold f (by omega)]
    exact h.fresh f (by omega)
  · by_cases hfn : f = d.nextFile
    · rw [hfn, hnew]
      decide
    · rw [hold f hfn]
      exact h.nonneg f

/-- The last close of a file drops its pending events and touches no other file. -/
theorem gaps_drmEventsRelease (hn : d.vblankEventList.Nodup) {k : ℕ} (hk : k ≠ f) :
    (drmEventsRelease d f).file k = d.file k ∧
    (drmEventsRelease d f).spaceGap drv k = d.spaceGap drv k ∧
    ∀ g, (drmEventsRelease d f).eventGap drv k g = d.eventGap drv k g := by
  have hkeep := foldl_keeps (f := VblankDevice.remove)
    (fun d => (d.file, d.calls, d.accepted, d.consumed, d.lost)) (fun _ _ => rfl)
    (d.vblankEventList.filter fun e => e.file = f) d
  have howed : ∀ g, ((d.vblankEventList.filter fun e => e.file = f).foldl VblankDevice.remove d).owed
      drv k g = d.owed drv k g := fun g => by
    refine walk_induction (P := fun x => x.owed drv k g = d.owed drv k g) (fun _ _ => rfl)
      (fun x e he hx hmem => ?_) (hn.filter _) List.filter_sublist.subset rfl
    have hfile : e.file = f := by simpa using (List.mem_filter.mp he).2
    have hremove : _ + _ = x.owed drv k g := owed_remove hmem
    have hother : e.own k g = false := by simp [PendingEvent.own, hfile, Ne.symm hk]
    rw [hother, hx] at hremove
    exact hremove
  unfold Vblank.drmEventsRelease
  generalize (d.vblankEventList.filter fun e => e.file = f).foldl VblankDevice.remove d = x at *
  simp only [Prod.mk.injEq] at hkeep
  obtain ⟨hfile, hcalls, hghost⟩ := hkeep
  have hsame : (x.setFile f fun p => { p with opened := false, eventList := [] }).file k =
      d.file k := by
    simp [setFile, Function.update_of_ne hk, hfile]
  refine ⟨hsame, gaps_congr (fun g => ?_) (congrArg EventFile.eventSpace hsame) hcalls hghost⟩
  have hset : (x.setFile f fun p => { p with opened := false, eventList := [] }).owed drv k g + _ =
      x.owed drv k g + _ := owed_file rfl rfl
  rw [hsame, hfile, howed] at hset
  exact Nat.add_right_cancel hset

theorem Books.drmEventsRelease (h : Books drv d) (hfiled : Filed drv d)
    (hn : d.vblankEventList.Nodup) (hopen : (d.file f).opened = true) :
    Books drv (drmEventsRelease d f) := by
  have hlt := hfiled.opened f hopen
  have hother : ∀ k, k ≠ f → _ ∧ _ = d.spaceGap drv k ∧ _ := fun k hk =>
    gaps_drmEventsRelease hn hk
  have hnext : (Vblank.drmEventsRelease d f).nextFile = d.nextFile :=
    foldl_keeps VblankDevice.nextFile (fun d e => (rfl : (d.remove e).nextFile = _)) _ d
  have hself : ((Vblank.drmEventsRelease d f).file f).opened = false ∧
      ((Vblank.drmEventsRelease d f).file f).eventSpace = (d.file f).eventSpace := by
    have hfile := foldl_keeps (fun d => d.file) (fun d e => (rfl : (d.remove e).file = _))
      (d.vblankEventList.filter fun e => e.file = f) d
    simp [Vblank.drmEventsRelease, setFile, hfile]
  have hlive : ∀ k, (Vblank.drmEventsRelease d f).live k → k ≠ f ∧ d.live k := fun k hk => by
    have hne : k ≠ f := by
      rintro rfl
      rcases hk with ho | hle
      · simp [hself.1] at ho
      · omega
    refine ⟨hne, ?_⟩
    rwa [live, (hother k hne).1, hnext] at hk
  refine ⟨fun k hk => ?_, fun k hk g => ?_, fun k hk => ?_, fun k => ?_⟩
  · rw [(hother k (hlive k hk).1).2.1]
    exact h.space k (hlive k hk).2
  · rw [(hother k (hlive k hk).1).2.2]
    exact h.events k (hlive k hk).2 g
  · rw [hnext] at hk
    rw [(hother k (by omega)).1]
    exact h.fresh k hk
  · by_cases hkf : k = f
    · rw [hkf, hself.2]
      exact h.nonneg f
    · rw [(hother k hkf).1]
      exact h.nonneg k

theorem Books.step (h : Books drv d) (hfiled : Filed drv d) (hok : d.Ok) {e : VblankEvent}
    (hs : vblankStep drv d e = some d') : Books drv d' := by
  cases e with
  | openFile =>
    cases hs
    exact h.openFile
  | close f =>
    simp only [vblankStep] at hs
    split at hs <;> cases hs
    rename_i hclose
    exact h.drmEventsRelease hfiled hok.nodup hclose.1
  | wait f req =>
    simp only [vblankStep] at hs
    split at hs
    · split at hs <;> cases hs
      · exact h.push (fun _ => rfl) rfl
      · exact h
    · cases hs
  | read f max =>
    simp only [vblankStep] at hs
    split at hs <;> cases hs
    exact h.push (fun _ => rfl) rfl
  | flip f c event =>
    simp only [vblankStep] at hs
    split at hs <;> cases hs
    cases event <;> exact h.push (fun _ => rfl) rfl
  | get c x =>
    simp only [vblankStep] at hs
    split at hs
    · obtain ⟨⟨ret, d1⟩, hget, rfl⟩ := Option.map_eq_some_iff.mp hs
      split
      · exact (h.get hget).push (fun _ => rfl) rfl
      · exact h.get hget
    · cases hs
  | off c r =>
    simp only [vblankStep] at hs
    split at hs <;> cases hs
    have h1 := h.push (p := .offDeliver c ((d.save drv c r).count c)) (fun _ => rfl) rfl
    exact h1.congr rfl rfl (fun _ _ => rfl) rfl ⟨rfl, rfl, rfl⟩
  | preModeset c x =>
    simp only [vblankStep, drmVblankPreModeset] at hs
    split at hs
    · split at hs
      · obtain ⟨⟨ret, d1⟩, hget, rfl⟩ := Option.map_eq_some_iff.mp hs
        have h1 := (h.setCrtc c _).get hget
        split
        · exact h1.setCrtc c _
        · exact h1
      · cases hs
        exact h
    · cases hs
  | postModeset c =>
    simp only [vblankStep, drmVblankPostModeset] at hs
    split at hs
    · split at hs
      · split at hs <;> cases hs
        split <;> exact h.congr rfl rfl (fun _ _ => rfl) rfl ⟨rfl, rfl, rfl⟩
      · cases hs
        exact h
    · cases hs
  | timer c r =>
    simp only [vblankStep] at hs
    split at hs
    · cases hs
    · split at hs <;> cases hs
      · exact h.congr rfl rfl (fun _ _ => rfl) rfl ⟨rfl, rfl, rfl⟩
      · exact h
  | irq c t =>
    simp only [vblankStep] at hs
    split at hs <;> cases hs
    · exact (h.setCrtc c _).deliverAll hok.nodup _ _
    · exact h
  | tick c =>
    cases hs
    exact h.congr rfl rfl (fun _ _ => rfl) rfl ⟨rfl, rfl, rfl⟩
  | finish c =>
    cases hs
    exact h.finishPageFlip hfiled c
  | run i x =>
    obtain ⟨p, hp, hrun⟩ := Option.bind_eq_some_iff.mp hs
    exact h.run hfiled hok hp hrun

end VblankDevice
end GfxDrm.Vblank
