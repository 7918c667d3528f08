import GfxDrm.Vblank.Owner

/-! What becomes of the event space and of the events of a file. -/

namespace GfxDrm.Vblank
open Pool Run

/-- Event of file `f` whose id is one of `g`. -/
def PendingEvent.own (f : ℕ) (g : ℕ → Bool) (e : PendingEvent) : Bool := e.file = f && g e.id

/-- The event of a flip that the hardware was told of. -/
def UnpinWork.flying : Option UnpinWork → Option PendingEvent
  | some ⟨e, true⟩ => e
  | _ => none

/-- A running page flip has taken event space of `f`. -/
def VblankCall.reserves (f : ℕ) : VblankCall → Bool
  | flipAlloc k _ | flipCredit k => k = f
  | flipGet k _ e | flipBusy k _ e | flipQueue k _ e | flipCleanup k _ e | flipPut k _ e =>
    e.isSome && k = f
  | _ => false

/-- The event drm_read has taken off the list and not yet copied. -/
def VblankCall.copied : VblankCall → Option PendingEvent
  | copying _ _ _ e => some e
  | _ => none

namespace VblankDevice

variable {drv : VblankDriver} {d d' : VblankDevice} {c i f : ℕ} {g : ℕ → Bool} {p : VblankCall}
  {n : Option VblankCall}

def flying (drv : VblankDriver) (d : VblankDevice) : List PendingEvent :=
  (List.range drv.numCrtcs).filterMap fun c => UnpinWork.flying (d.unpinWork c)

/-- The events of a file that are pending or queued for reading. -/
def outstanding (drv : VblankDriver) (d : VblankDevice) (f : ℕ) : List PendingEvent :=
  (d.vblankEventList ++ d.flying drv).filter (fun e => e.file = f) ++ (d.file f).eventList

def owed (drv : VblankDriver) (d : VblankDevice) (f : ℕ) (g : ℕ → Bool) : ℕ :=
  (d.outstanding drv f).countP (PendingEvent.own f g)

def spaceGap (drv : VblankDriver) (d : VblankDevice) (f : ℕ) : ℤ :=
  (d.file f).eventSpace + eventLength * (d.owed drv f (fun _ => true) +
    d.calls.countP (VblankCall.reserves f)) - 4096

def eventGap (drv : VblankDriver) (d : VblankDevice) (f : ℕ) (g : ℕ → Bool) : ℤ :=
  d.accepted.countP (PendingEvent.own f g) - d.owed drv f g -
    (d.calls.filterMap VblankCall.copied).countP (PendingEvent.own f g) -
    d.consumed.countP (PendingEvent.own f g) - d.lost.countP (PendingEvent.own f g)

/-! ### What the operations do to them -/

theorem owed_eq (d : VblankDevice) (f : ℕ) (g : ℕ → Bool) : d.owed drv f g =
    d.vblankEventList.countP (PendingEvent.own f g) + (d.flying drv).countP (PendingEvent.own f g) +
      (d.file f).eventList.countP (PendingEvent.own f g) := by
  have hown : (fun e => PendingEvent.own f g e && decide (e.file = f)) = PendingEvent.own f g := by
    funext e
    cases hf : decide (e.file = f) <;> simp [PendingEvent.own, hf]
  rw [owed, outstanding, List.countP_append, List.countP_filter, hown, List.countP_append]

theorem owed_send (e : PendingEvent) (seq : BitVec 32) :
    (d.send e seq).owed drv f g = d.owed drv f g + (e.own f g).toNat := by
  simp only [owed_eq]
  by_cases hf : e.file = f
  · subst hf
    simp only [send, setFile, flying, Function.update_self, List.countP_append,
      List.countP_singleton, PendingEvent.own, decide_true, Bool.true_and]
    cases g e.id <;> simp only [Bool.toNat_true, Bool.toNat_false, if_true, Bool.false_eq_true,
      if_false] <;> omega
  · simp [send, setFile, flying, PendingEvent.own, hf, Function.update_of_ne (Ne.symm hf)]

variable {e : PendingEvent}

theorem owed_remove (he : e ∈ d.vblankEventList) :
    (d.remove e).owed drv f g + (e.own f g).toNat = d.owed drv f g := by
  have hcount := (List.perm_cons_erase he).countP_eq (p := PendingEvent.own f g)
  rw [List.countP_cons] at hcount
  simp only [owed_eq, hcount]
  simp only [remove, put, setCrtc, flying]
  cases e.own f g <;> simp
  omega

theorem owed_deliver (he : e ∈ d.vblankEventList) (seq : BitVec 32) :
    (d.deliver seq e).owed drv f g = d.owed drv f g := by
  rw [deliver, owed_send, owed_remove he]

theorem countP_filterMap_update {α β : Type*} {l : List ℕ} (hl : l.Nodup) (hc : c ∈ l)
    (k : α → Option β) (u : ℕ → α) (w : α) (P : β → Bool) :
    (l.filterMap fun x => k (Function.update u c w x)).countP P + (k (u c)).toList.countP P =
      (l.filterMap fun x => k (u x)).countP P + (k w).toList.countP P := by
  have hrest : ((l.erase c).filterMap fun x => k (Function.update u c w x)) =
      (l.erase c).filterMap fun x => k (u x) :=
    List.filterMap_congr fun x hx => by
      rw [Function.update_of_ne (hl.mem_erase_iff.mp hx).1]
  have hsplit : ∀ v : ℕ → α, (l.filterMap fun x => k (v x)).countP P =
      (k (v c)).toList.countP P + ((l.erase c).filterMap fun x => k (v x)).countP P := fun v => by
    rw [((List.perm_cons_erase hc).filterMap _).countP_eq, List.filterMap_cons]
    cases k (v c) with
    | none => simp
    | some x =>
      dsimp only
      rw [← List.singleton_append, List.countP_append, Option.toList_some]
  rw [hsplit, hsplit, hrest, Function.update_self]
  omega

theorem owed_setWork (hc : c < drv.numCrtcs) (w : Option UnpinWork) : (d.setWork c w).owed drv f g +
    (UnpinWork.flying (d.unpinWork c)).toList.countP (PendingEvent.own f g) =
      d.owed drv f g + (UnpinWork.flying w).toList.countP (PendingEvent.own f g) := by
  have hfly := countP_filterMap_update List.nodup_range (List.mem_range.mpr hc) UnpinWork.flying
    d.unpinWork w (PendingEvent.own f g)
  simp only [owed_eq, flying]
  simp only [setWork]
  omega

/-! ### Gaps -/

theorem spaceGap_congr (howed : d'.owed drv f (fun _ => true) = d.owed drv f fun _ => true)
    (hspace : (d'.file f).eventSpace = (d.file f).eventSpace) (hcalls : d'.calls = d.calls) :
    d'.spaceGap drv f = d.spaceGap drv f := by
  rw [spaceGap, spaceGap, howed, hspace, hcalls]

theorem spaceGap_setCall (hp : d.calls[i]? = some p) (n : Option VblankCall) :
    (d.setCall i n).spaceGap drv f = d.spaceGap drv f +
      eventLength * (n.toList.countP (VblankCall.reserves f) - (p.reserves f).toNat) := by
  have hcount := countP_moveOn (VblankCall.reserves f) hp n
  have howed : (d.setCall i n).owed drv f (fun _ => true) = d.owed drv f fun _ => true := rfl
  simp only [spaceGap, howed, eventLength]
  simp only [setCall]
  omega

theorem eventGap_setCall (hp : d.calls[i]? = some p) (n : Option VblankCall) :
    (d.setCall i n).eventGap drv f g = d.eventGap drv f g +
      p.copied.toList.countP (PendingEvent.own f g) -
      (n.bind VblankCall.copied).toList.countP (PendingEvent.own f g) := by
  have hcount := countP_filterMap_moveOn VblankCall.copied (PendingEvent.own f g) hp n
  have howed : (d.setCall i n).owed drv f g = d.owed drv f g := rfl
  simp only [eventGap, howed]
  simp only [setCall]
  omega

/-- Event space of file `k` changes to what `s` makes of it. -/
theorem spaceGap_setFile (k : ℕ) (s : ℤ → ℤ) :
    (d.setFile k fun p => { p with eventSpace := s p.eventSpace }).spaceGap drv f =
      d.spaceGap drv f + if k = f then s (d.file f).eventSpace - (d.file f).eventSpace else 0 := by
  by_cases hk : f = k
  · subst hk
    simp only [spaceGap, owed_eq, flying, setFile, Function.update_self, if_true]
    omega
  · simp only [spaceGap, owed_eq, flying, setFile, Function.update_of_ne hk]
    omega

theorem eventGap_setFile (k : ℕ) (s : ℤ → ℤ) :
    (d.setFile k fun p => { p with eventSpace := s p.eventSpace }).eventGap drv f g =
      d.eventGap drv f g := by
  by_cases hk : f = k
  · subst hk
    simp only [eventGap, owed_eq, flying, setFile, Function.update_self]
  · simp only [eventGap, owed_eq, flying, setFile, Function.update_of_ne hk]

theorem file_send (e : PendingEvent) (seq : BitVec 32) (f : ℕ) :
    ((d.send e seq).file f).opened = (d.file f).opened ∧
    ((d.send e seq).file f).eventSpace = (d.file f).eventSpace := by
  by_cases hf : f = e.file
  · subst hf
    simp [send, setFile]
  · simp [send, setFile, Function.update_of_ne hf]

theorem own_true (e : PendingEvent) : e.own f (fun _ => true) = decide (e.file = f) := by
  simp [PendingEvent.own]

theorem spaceGap_send (e : PendingEvent) (seq : BitVec 32) : (d.send e seq).spaceGap drv f =
    d.spaceGap drv f + if e.file = f then (eventLength : ℤ) else 0 := by
  simp only [spaceGap, owed_send, own_true, (d.file_send e seq f).2]
  split <;> rename_i hf <;> simp only [hf, decide_true, decide_false, Bool.toNat_true,
    Bool.toNat_false, eventLength] <;> simp only [send, setFile] <;> omega

theorem eventGap_send (e : PendingEvent) (seq : BitVec 32) :
    (d.send e seq).eventGap drv f g = d.eventGap drv f g - (e.own f g).toNat := by
  simp only [eventGap, owed_send]
  simp only [send, setFile]
  omega

theorem owed_append (e : PendingEvent) :
    ({ d with vblankEventList := d.vblankEventList ++ [e] } : VblankDevice).owed drv f g =
      d.owed drv f g + (e.own f g).toNat := by
  simp only [owed_eq, List.countP_append, List.countP_singleton, flying]
  cases e.own f g <;> simp
  omega

theorem spaceGap_append (e : PendingEvent) :
    ({ d with vblankEventList := d.vblankEventList ++ [e] } : VblankDevice).spaceGap drv f =
      d.spaceGap drv f + if e.file = f then (eventLength : ℤ) else 0 := by
  simp only [spaceGap, owed_append, own_true]
  split <;> rename_i hf <;> simp only [hf, decide_true, decide_false, Bool.toNat_true,
    Bool.toNat_false, eventLength] <;> omega

theorem eventGap_append (e : PendingEvent) :
    ({ d with vblankEventList := d.vblankEventList ++ [e] } : VblankDevice).eventGap drv f g =
      d.eventGap drv f g - (e.own f g).toNat := by
  simp only [eventGap, owed_append]
  omega

/-- drm_dequeue_event takes the first event off. -/
def dequeue (d : VblankDevice) (k : ℕ) (rest : List PendingEvent) : VblankDevice :=
  d.setFile k fun p => { p with eventSpace := p.eventSpace + eventLength, eventList := rest }

variable {rest : List PendingEvent}

theorem owed_dequeue (hlist : (d.file e.file).eventList = e :: rest) :
    (d.dequeue e.file rest).owed drv f g + (e.own f g).toNat = d.owed drv f g := by
  simp only [owed_eq, flying, dequeue, setFile]
  by_cases hf : f = e.file
  · subst hf
    rw [hlist, List.countP_cons]
    cases e.own e.file g <;> simp
    omega
  · rw [Function.update_of_ne hf]
    simp [PendingEvent.own, Ne.symm hf]

theorem spaceGap_dequeue (hlist : (d.file e.file).eventList = e :: rest) :
    (d.dequeue e.file rest).spaceGap drv f = d.spaceGap drv f := by
  have howed : _ = d.owed drv f fun _ => true := owed_dequeue hlist
  rw [own_true] at howed
  simp only [spaceGap, ← howed, dequeue, setFile, eventLength]
  by_cases hf : f = e.file
  · subst hf
    rw [Function.update_self]
    simp only [decide_true, Bool.toNat_true]
    omega
  · rw [Function.update_of_ne hf]
    simp [Ne.symm hf]

theorem eventGap_dequeue (hlist : (d.file e.file).eventList = e :: rest) :
    (d.dequeue e.file rest).eventGap drv f g = d.eventGap drv f g + (e.own f g).toNat := by
  have howed : _ = d.owed drv f g := owed_dequeue hlist
  simp only [eventGap, ← howed]
  simp only [dequeue, setFile]
  omega

/-! ### Books -/

/-- `f` is open, or was never opened yet. -/
def live (d : VblankDevice) (f : ℕ) : Prop := (d.file f).opened = true ∨ d.nextFile ≤ f

structure Books (drv : VblankDriver) (d : VblankDevice) : Prop where
  space : ∀ f, d.live f → d.spaceGap drv f = 0
  events : ∀ f, d.live f → ∀ g, d.eventGap drv f g = 0
  fresh : ∀ f, d.nextFile ≤ f → (d.file f).eventSpace = 4096
  nonneg : ∀ f, 0 ≤ (d.file f).eventSpace

/-- A step closes no gap and opens none; it changes the event space of files that have been
opened only. -/
theorem Books.keep (h : Books drv d) (hnext : d'.nextFile = d.nextFile)
    (hopen : ∀ f, (d'.file f).opened = (d.file f).opened)
    (hspace : ∀ f, d'.spaceGap drv f = d.spaceGap drv f)
    (hevents : ∀ f g, d'.eventGap drv f g = d.eventGap drv f g)
    (hfile : ∀ f, (d'.file f).eventSpace = (d.file f).eventSpace ∨
      f < d.nextFile ∧ 0 ≤ (d'.file f).eventSpace) : Books drv d' where
  space f hf := (hspace f).trans (h.space f (by rwa [live, hopen, hnext] at hf))
  events f hf g := (hevents f g).trans (h.events f (by rwa [live, hopen, hnext] at hf) g)
  fresh f hf := by
    rw [hnext] at hf
    rcases hfile f with he | ⟨hlt, -⟩
    · rw [he]
      exact h.fresh f hf
    · omega
  nonneg f := by
    rcases hfile f with he | ⟨-, hpos⟩
    · rw [he]
      exact h.nonneg f
    · exact hpos

theorem gaps_congr (howed : ∀ g, d'.owed drv f g = d.owed drv f g)
    (hfile : (d'.file f).eventSpace = (d.file f).eventSpace) (hcalls : d'.calls = d.calls)
    (hghost : d'.accepted = d.accepted ∧ d'.consumed = d.consumed ∧ d'.lost = d.lost) :
    d'.spaceGap drv f = d.spaceGap drv f ∧ ∀ g, d'.eventGap drv f g = d.eventGap drv f g := by
  obtain ⟨ha, hc, hl⟩ := hghost
  refine ⟨spaceGap_congr (howed _) hfile hcalls, fun g => ?_⟩
  rw [eventGap, eventGap, howed, hcalls, ha, hc, hl]

/-- Nothing that is counted changes. -/
theorem Books.congr (h : Books drv d) (hnext : d'.nextFile = d.nextFile) (hfile : d'.file = d.file)
    (howed : ∀ f g, d'.owed drv f g = d.owed drv f g) (hcalls : d'.calls = d.calls)
    (hghost : d'.accepted = d.accepted ∧ d'.consumed = d.consumed ∧ d'.lost = d.lost) :
    Books drv d' := by
  have hgaps := fun f => gaps_congr (howed f) (by rw [hfile]) hcalls hghost
  exact h.keep hnext (fun f => by rw [hfile]) (fun f => (hgaps f).1) (fun f => (hgaps f).2)
    fun f => .inl (by rw [hfile])

theorem Books.move (h : Books drv d) (hp : d.calls[i]? = some p)
    (hres : ∀ f, n.toList.countP (VblankCall.reserves f) = (p.reserves f).toNat)
    (hcopy : n.bind VblankCall.copied = p.copied) : Books drv (d.setCall i n) := by
  refine h.keep rfl (fun _ => rfl) (fun f => ?_) (fun f g => ?_) fun _ => .inl rfl
  · rw [spaceGap_setCall hp, hres, Int.sub_self, Int.mul_zero, Int.add_zero]
  · rw [eventGap_setCall hp, hcopy]
    omega

theorem Books.put (h : Books drv d) (c : ℕ) : Books drv (d.put c) :=
  h.congr rfl rfl (fun _ _ => rfl) rfl ⟨rfl, rfl, rfl⟩

theorem Books.setCrtc (h : Books drv d) (c : ℕ) (x : Crtc) : Books drv (d.setCrtc c x) :=
  h.congr rfl rfl (fun _ _ => rfl) rfl ⟨rfl, rfl, rfl⟩

theorem Books.get (h : Books drv d) {enable ret : ℤ} {r : List Reading}
    (hget : d.get drv c enable r = some (ret, d')) : Books drv d' := by
  obtain ⟨x, frame, rfl, -⟩ := get_cases hget
  exact h.congr rfl rfl (fun _ _ => rfl) rfl ⟨rfl, rfl, rfl⟩

theorem Books.push (h : Books drv d) (hres : ∀ f, p.reserves f = false) (hcopy : p.copied = none) :
    Books drv { d with calls := p :: d.calls } := by
  refine h.keep rfl (fun _ => rfl) (fun f => ?_) (fun f g => ?_) fun _ => .inl rfl
  · have howed : ({ d with calls := p :: d.calls } : VblankDevice).owed drv f (fun _ => true) =
        d.owed drv f fun _ => true := rfl
    simp only [spaceGap, howed, List.countP_cons, hres]
    simp
  · have howed : ({ d with calls := p :: d.calls } : VblankDevice).owed drv f g =
        d.owed drv f g := rfl
    simp only [eventGap, howed, List.filterMap_cons_none hcopy]

theorem Books.deliver (h : Books drv d) (he : e ∈ d.vblankEventList) (seq : BitVec 32) :
    Books drv (d.deliver seq e) := by
  have hfile := fun f => (d.remove e).file_send e seq f
  refine h.keep rfl (fun f => (hfile f).1) (fun f => ?_) (fun f g => ?_) fun f => .inl (hfile f).2
  · exact spaceGap_congr (owed_deliver he seq) (hfile f).2 rfl
  · rw [eventGap, owed_deliver he seq]
    rfl

theorem Books.deliverAll (h : Books drv d) (hn : d.vblankEventList.Nodup) (seq : BitVec 32)
    (due : PendingEvent → Bool) : Books drv (d.deliverAll seq due) :=
  walk_induction (fun _ _ => rfl) (fun _ _ _ hd he => hd.deliver he seq) (hn.filter _)
    List.filter_sublist.subset h

end VblankDevice
end GfxDrm.Vblank
