import GfxDrm.Vblank.Runs

/-! Calls, events and files belong together. -/

namespace GfxDrm.Vblank
open Pool Run

/-- The event a running call has in hand. -/
def VblankCall.event : VblankCall → Option PendingEvent
  | copying _ _ _ e => some e
  | flipGet _ _ e | flipBusy _ _ e | flipQueue _ _ e | flipCleanup _ _ e | flipPut _ _ e => e
  | _ => none

def VblankCall.flipCrtc : VblankCall → Option ℕ
  | flipReserve _ c | flipAlloc _ c | flipGet _ c _ | flipBusy _ c _ | flipQueue _ c _
  | flipCleanup _ c _ | flipPut _ c _ => some c
  | _ => none

namespace VblankDevice

variable {drv : VblankDriver} {d d' : VblankDevice} {c i : ℕ} {p : VblankCall}
  {n : Option VblankCall}

/-- A call is on an open file, has an event of that file and is for a crtc of the device. -/
structure Owned (drv : VblankDriver) (d : VblankDevice) (p : VblankCall) : Prop where
  opened : ∀ f ∈ p.file, (d.file f).opened = true
  event : ∀ e ∈ p.event, p.file = some e.file
  crtc : ∀ c ∈ p.flipCrtc, c < drv.numCrtcs

structure Filed (drv : VblankDriver) (d : VblankDevice) : Prop where
  opened : ∀ f, (d.file f).opened = true → f < d.nextFile
  calls : ∀ p ∈ d.calls, Owned drv d p
  queued : ∀ f, ∀ e ∈ (d.file f).eventList, e.file = f
  work : ∀ c, drv.numCrtcs ≤ c → d.unpinWork c = none

theorem Filed.congr (h : Filed drv d) (hnext : d'.nextFile = d.nextFile)
    (hcalls : d'.calls = d.calls) (hopen : ∀ f, (d'.file f).opened = (d.file f).opened)
    (hqueue : ∀ f, ∀ e ∈ (d'.file f).eventList, e ∈ (d.file f).eventList ∨ e.file = f)
    (hwork : ∀ c, drv.numCrtcs ≤ c → d'.unpinWork c = d.unpinWork c) : Filed drv d' where
  opened f hf := by
    rw [hnext]
    exact h.opened f (hopen f ▸ hf)
  calls p hp := by
    have hown := h.calls p (hcalls ▸ hp)
    exact ⟨fun f hf => (hopen f).trans (hown.opened f hf), hown.event, hown.crtc⟩
  queued f e he := (hqueue f e he).elim (h.queued f e) id
  work c hc := (hwork c hc).trans (h.work c hc)

theorem Filed.push (h : Filed drv d) (hp : Owned drv d p) :
    Filed drv { d with calls := p :: d.calls } where
  opened := h.opened
  calls q hq := by
    rcases List.mem_cons.mp hq with rfl | hq
    · exact ⟨hp.opened, hp.event, hp.crtc⟩
    · exact ⟨(h.calls q hq).opened, (h.calls q hq).event, (h.calls q hq).crtc⟩
  queued := h.queued
  work := h.work

theorem Filed.move (h : Filed drv d) (hp : d.calls[i]? = some p)
    (hown : ∀ u ∈ n, Owned drv d p → Owned drv d u) : Filed drv (d.setCall i n) where
  opened := h.opened
  calls q hq := by
    have hq' : Owned drv d q := by
      rcases mem_moveOn hp hq with hq | hq
      · exact h.calls q hq
      · exact hown q hq (h.calls p (List.mem_of_getElem? hp))
    exact ⟨hq'.opened, hq'.event, hq'.crtc⟩
  queued := h.queued
  work := h.work

variable {f : ℕ}

theorem Filed.setFile (h : Filed drv d) {g : EventFile → EventFile}
    (hopen : (g (d.file f)).opened = (d.file f).opened)
    (hqueue : (g (d.file f)).eventList ⊆ (d.file f).eventList) : Filed drv (d.setFile f g) := by
  refine h.congr rfl rfl (fun k => ?_) (fun k e he => .inl ?_) fun _ _ => rfl
  · by_cases hk : k = f
    · subst hk
      simp [VblankDevice.setFile, hopen]
    · simp [VblankDevice.setFile, Function.update_of_ne hk]
  · by_cases hk : k = f
    · subst hk
      refine hqueue ?_
      simpa [VblankDevice.setFile] using he
    · simpa [VblankDevice.setFile, Function.update_of_ne hk] using he

theorem Filed.send (h : Filed drv d) (e : PendingEvent) (seq : BitVec 32) :
    Filed drv (d.send e seq) := by
  refine h.congr rfl rfl (fun k => ?_) (fun k x hx => ?_) fun _ _ => rfl
  · by_cases hk : k = e.file
    · subst hk
      simp [VblankDevice.send, VblankDevice.setFile]
    · simp [VblankDevice.send, VblankDevice.setFile, Function.update_of_ne hk]
  · by_cases hk : k = e.file
    · subst hk
      simp only [VblankDevice.send, VblankDevice.setFile, Function.update_self,
        List.mem_append, List.mem_singleton] at hx
      rcases hx with hx | rfl
      · exact .inl hx
      · exact .inr rfl
    · left
      simpa [VblankDevice.send, VblankDevice.setFile, Function.update_of_ne hk] using hx

theorem Filed.put (h : Filed drv d) (c : ℕ) : Filed drv (d.put c) :=
  h.congr rfl rfl (fun _ => rfl) (fun _ _ => .inl) fun _ _ => rfl

theorem Filed.setCrtc (h : Filed drv d) (c : ℕ) (x : Crtc) : Filed drv (d.setCrtc c x) :=
  h.congr rfl rfl (fun _ => rfl) (fun _ _ => .inl) fun _ _ => rfl

theorem Filed.get (h : Filed drv d) {enable ret : ℤ} {r : List Reading}
    (hget : d.get drv c enable r = some (ret, d')) : Filed drv d' ∧ d'.calls = d.calls := by
  obtain ⟨x, frame, rfl, -⟩ := get_cases hget
  exact ⟨h.congr rfl rfl (fun _ => rfl) (fun _ _ => .inl) fun _ _ => rfl, rfl⟩

theorem Filed.setWork (h : Filed drv d) (hc : c < drv.numCrtcs) (w : Option UnpinWork) :
    Filed drv (d.setWork c w) := by
  refine h.congr rfl rfl (fun _ => rfl) (fun _ _ => .inl) fun k hk => ?_
  rw [unpinWork_setWork, Function.update_of_ne (by omega)]

theorem Filed.remove (h : Filed drv d) (e : PendingEvent) : Filed drv (d.remove e) :=
  h.congr rfl rfl (fun _ => rfl) (fun _ _ => .inl) fun _ _ => rfl

theorem Filed.deliverAll (h : Filed drv d) (seq : BitVec 32) (due : PendingEvent → Bool) :
    Filed drv (d.deliverAll seq due) := by
  unfold VblankDevice.deliverAll
  generalize d.vblankEventList.filter due = l
  induction l generalizing d with
  | nil => exact h
  | cons e l ih => exact ih ((h.remove e).send e seq)

theorem Owned.flipFailed (h : Owned drv d p) (hf : p.file = some f) {e : Option PendingEvent}
    {u : VblankCall} (hu : u ∈ VblankCall.flipFailed f e) :
    Owned drv d u := by
  obtain ⟨-, -, rfl⟩ := Option.map_eq_some_iff.mp hu
  refine ⟨fun k hk => h.opened k ?_, by simp [VblankCall.event], by simp [VblankCall.flipCrtc]⟩
  rw [hf]
  exact hk

theorem Filed.queueVblankEvent (h : Filed drv d) {req : WaitRequest}
    (hp : d.calls[i]? = some (.queueEvent f c req)) :
    Filed drv (queueVblankEvent d i f c req) := by
  simp only [Vblank.queueVblankEvent]
  split
  · exact h.move hp fun u hu ho => by cases hu; exact ⟨ho.opened, ho.event, ho.crtc⟩
  · have h1 := (h.setFile (f := f) (g := fun p => { p with eventSpace := p.eventSpace - eventLength })
      rfl (List.Subset.refl _)).move (n := none) hp (by simp)
    split
    · refine Filed.send ?_ _ _
      exact h1.congr rfl rfl (fun _ => rfl) (fun _ _ => .inl) fun _ _ => rfl
    · exact h1.congr rfl rfl (fun _ => rfl) (fun _ _ => .inl) fun _ _ => rfl

theorem Filed.run (h : Filed drv d) {x : Input} (hp : d.calls[i]? = some p)
    (hs : p.run drv d i x = some d') : Filed drv d' := by
  have hmem := List.mem_of_getElem? hp
  cases p with
  | waitGet f c req =>
    obtain ⟨⟨ret, d1⟩, hget, rfl⟩ := Option.map_eq_some_iff.mp hs
    obtain ⟨h1, hcalls⟩ := h.get hget
    refine h1.move (hcalls ▸ hp) fun u hu ho => ?_
    split at hu <;> cases hu
    exact ⟨ho.opened, ho.event, ho.crtc⟩
  | waitSeq f c req =>
    simp only [VblankCall.run] at hs
    split at hs <;> cases hs <;>
      exact h.move hp fun u hu ho => by cases hu; exact ⟨ho.opened, ho.event, ho.crtc⟩
  | blocked f c seq =>
    cases hs
    exact h.move hp fun u hu ho => by cases hu; exact ⟨ho.opened, ho.event, ho.crtc⟩
  | waitPut f c | direct c =>
    cases hs
    exact (h.put c).move hp (by simp)
  | queueAlloc f c req =>
    cases hs
    refine h.move hp fun u hu ho => ?_
    cases hu
    split <;> exact ⟨ho.opened, ho.event, ho.crtc⟩
  | queueEvent f c req =>
    cases hs
    exact h.queueVblankEvent hp
  | offDeliver c seq =>
    cases hs
    exact ((h.move hp (n := none) (by simp)).deliverAll seq _).congr rfl rfl (fun _ => rfl)
      (fun _ _ => .inl) fun _ _ => rfl
  | read f max total =>
    have hend : Filed drv (d.setCall i none) := h.move hp (by simp)
    simp only [VblankCall.run] at hs
    split at hs
    · cases hs
      exact hend
    · rename_i e rest hlist
      split at hs <;> cases hs
      · exact hend
      · have h1 := h.setFile (f := f) (g := fun p =>
            { p with eventSpace := p.eventSpace + eventLength, eventList := rest }) rfl
          (by simp [hlist])
        refine h1.move hp fun u hu ho => ?_
        cases hu
        refine ⟨ho.opened, fun x hx => ?_, ho.crtc⟩
        cases hx
        rw [h.queued f e (by simp [hlist])]
        rfl
  | copying f max total e =>
    simp only [VblankCall.run] at hs
    split at hs <;> cases hs
    · have h1 : Filed drv (d.setCall i (some (.read f (max - eventLength) (total + eventLength)))) :=
        h.move hp fun u hu ho => by cases hu; exact ⟨ho.opened, by simp [VblankCall.event], ho.crtc⟩
      exact h1.congr rfl rfl (fun _ => rfl) (fun _ _ => .inl) fun _ _ => rfl
    · have h1 : Filed drv (d.setCall i none) := h.move hp (by simp)
      exact h1.congr rfl rfl (fun _ => rfl) (fun _ _ => .inl) fun _ _ => rfl
  | flipReserve f c =>
    simp only [VblankCall.run] at hs
    split at hs <;> cases hs
    · exact h.move hp (by simp)
    · refine (h.setFile rfl (List.Subset.refl _)).move hp fun u hu ho => ?_
      cases hu
      exact ⟨ho.opened, ho.event, ho.crtc⟩
  | flipAlloc f c =>
    simp only [VblankCall.run] at hs
    split at hs <;> cases hs
    · have h1 : Filed drv { d with nextEvent := d.nextEvent + 1 } :=
        h.congr rfl rfl (fun _ => rfl) (fun _ _ => .inl) fun _ _ => rfl
      refine h1.move hp fun u hu ho => ?_
      cases hu
      exact ⟨ho.opened, fun x hx => by cases hx; rfl, ho.crtc⟩
    · exact h.move hp fun u hu ho => by
        cases hu
        exact ⟨ho.opened, ho.event, by simp [VblankCall.flipCrtc]⟩
  | flipCredit f =>
    cases hs
    exact (h.setFile rfl (List.Subset.refl _)).move hp (by simp)
  | flipGet f c e =>
    simp only [VblankCall.run] at hs
    split at hs
    · obtain ⟨⟨ret, d1⟩, hget, rfl⟩ := Option.map_eq_some_iff.mp hs
      obtain ⟨h1, hcalls⟩ := h.get hget
      refine h1.move (hcalls ▸ hp) fun u hu ho => ?_
      split at hu
      · cases hu
        exact ⟨ho.opened, ho.event, ho.crtc⟩
      · exact ho.flipFailed rfl hu
    · cases hs
      exact h.move hp fun u hu ho => ho.flipFailed rfl hu
  | flipBusy f c e =>
    simp only [VblankCall.run] at hs
    split at hs <;> cases hs
    · exact h.move hp fun u hu ho => by cases hu; exact ⟨ho.opened, ho.event, ho.crtc⟩
    · refine (h.setWork ((h.calls _ hmem).crtc c rfl) _).move hp fun u hu ho => ?_
      cases hu
      exact ⟨ho.opened, ho.event, ho.crtc⟩
  | flipQueue f c e =>
    simp only [VblankCall.run] at hs
    split at hs <;> cases hs
    · have h1 := (h.setWork ((h.calls _ hmem).crtc c rfl)
        ((d.unpinWork c).map fun w => { w with active := true })).move (n := none) hp (by simp)
      exact h1.congr rfl rfl (fun _ => rfl) (fun _ _ => .inl) fun _ _ => rfl
    · exact h.move hp fun u hu ho => by cases hu; exact ⟨ho.opened, ho.event, ho.crtc⟩
  | flipCleanup f c e =>
    cases hs
    refine (h.setWork ((h.calls _ hmem).crtc c rfl) none).move hp fun u hu ho => ?_
    cases hu
    exact ⟨ho.opened, ho.event, ho.crtc⟩
  | flipPut f c e =>
    cases hs
    exact (h.put c).move hp fun u hu ho => ho.flipFailed rfl hu

theorem Filed.finishPageFlip (h : Filed drv d) (c : ℕ) : Filed drv (finishPageFlip d c) := by
  unfold Vblank.finishPageFlip
  split
  · rename_i e hwork
    have hc : c < drv.numCrtcs := by
      by_contra hc
      simp [h.work c (by omega)] at hwork
    cases e with
    | none => exact (h.setWork hc none).put c
    | some e => exact ((h.setWork hc none).send _ _).put c
  · exact h

theorem Filed.close (h : Filed drv d) (hidle : ∀ p ∈ d.calls, p.file ≠ some f) :
    Filed drv (d.setFile f fun p => { p with opened := false, eventList := [] }) where
  opened k hk := by
    by_cases hkf : k = f
    · subst hkf
      simp [VblankDevice.setFile] at hk
    · exact h.opened k (by simpa [VblankDevice.setFile, Function.update_of_ne hkf] using hk)
  calls p hp := by
    have hown := h.calls p hp
    refine ⟨fun k hk => ?_, hown.event, hown.crtc⟩
    have hkf : k ≠ f := by
      rintro rfl
      exact hidle p hp hk
    simpa [VblankDevice.setFile, Function.update_of_ne hkf] using hown.opened k hk
  queued k e he := by
    by_cases hkf : k = f
    · subst hkf
      simp [VblankDevice.setFile] at he
    · exact h.queued k e (by simpa [VblankDevice.setFile, Function.update_of_ne hkf] using he)
  work := h.work

theorem Filed.openFile (h : Filed drv d) : Filed drv { d.setFile d.nextFile
    (fun _ => { opened := true }) with nextFile := d.nextFile + 1 } where
  opened k hk := by
    by_cases hkn : k = d.nextFile
    · exact hkn ▸ Nat.lt_succ_self _
    · exact Nat.lt_succ_of_lt (h.opened k (by
        simpa [VblankDevice.setFile, Function.update_of_ne hkn] using hk))
  calls p hp := by
    have hown := h.calls p hp
    refine ⟨fun k hk => ?_, hown.event, hown.crtc⟩
    by_cases hkn : k = d.nextFile
    · simp [VblankDevice.setFile, hkn]
    · simpa [VblankDevice.setFile, Function.update_of_ne hkn] using hown.opened k hk
  queued k e he := by
    by_cases hkn : k = d.nextFile
    · subst hkn
      simp [VblankDevice.setFile] at he
    · exact h.queued k e (by simpa [VblankDevice.setFile, Function.update_of_ne hkn] using he)
  work := h.work

theorem Filed.drmEventsRelease (h : Filed drv d) (hidle : ∀ p ∈ d.calls, p.file ≠ some f) :
    Filed drv (drmEventsRelease d f) := by
  have hkeep : ∀ l : List PendingEvent, Filed drv (l.foldl VblankDevice.remove d) := fun l => by
    refine h.congr ?_ ?_ (fun k => ?_) (fun k e he => .inl ?_) fun k _ => ?_
    · exact foldl_keeps VblankDevice.nextFile (fun d e => (rfl : (d.remove e).nextFile = _)) _ d
    · exact foldl_keeps VblankDevice.calls (fun d e => (rfl : (d.remove e).calls = _)) _ d
    · exact foldl_keeps (fun d => (d.file k).opened)
        (fun d e => (rfl : ((d.remove e).file k).opened = _)) _ d
    · rwa [foldl_keeps (fun d => (d.file k).eventList)
        (fun d e => (rfl : ((d.remove e).file k).eventList = _)) _ d] at he
    · exact foldl_keeps (fun d => d.unpinWork k)
        (fun d e => (rfl : (d.remove e).unpinWork k = _)) _ d
  have hcalls : ∀ l : List PendingEvent, (l.foldl VblankDevice.remove d).calls = d.calls := fun l =>
    foldl_keeps VblankDevice.calls (fun d e => (rfl : (d.remove e).calls = _)) _ d
  unfold Vblank.drmEventsRelease
  generalize hl : d.vblankEventList.filter (fun e => e.file = f) = l
  exact (hkeep l).close fun p hp => hidle p (hcalls l ▸ hp)

theorem Filed.step (h : Filed drv d) {e : VblankEvent} (hs : vblankStep drv d e = some d') :
    Filed drv d' := by
  cases e with
  | openFile =>
    cases hs
    exact h.openFile
  | close f =>
    simp only [vblankStep] at hs
    split at hs <;> cases hs
    rename_i hclose
    exact h.drmEventsRelease (by simpa using hclose.2)
  | wait f req =>
    simp only [vblankStep] at hs
    split at hs
    · rename_i hopen
      split at hs <;> cases hs
      · exact h.push ⟨by simpa [VblankCall.file] using hopen, by simp [VblankCall.event],
          by simp [VblankCall.flipCrtc]⟩
      · exact h
    · cases hs
  | read f max =>
    simp only [vblankStep] at hs
    split at hs <;> cases hs
    rename_i hopen
    exact h.push ⟨by simpa [VblankCall.file] using hopen, by simp [VblankCall.event],
      by simp [VblankCall.flipCrtc]⟩
  | flip f c event =>
    simp only [vblankStep] at hs
    split at hs <;> cases hs
    rename_i hopen
    cases event <;> exact h.push ⟨by simpa [VblankCall.file] using hopen.1,
      by simp [VblankCall.event], by simpa [VblankCall.flipCrtc] using hopen.2⟩
  | get c x =>
    simp only [vblankStep] at hs
    split at hs
    · obtain ⟨⟨ret, d1⟩, hget, rfl⟩ := Option.map_eq_some_iff.mp hs
      obtain ⟨h1, -⟩ := h.get hget
      split
      · exact h1.push ⟨by simp [VblankCall.file], by simp [VblankCall.event],
          by simp [VblankCall.flipCrtc]⟩
      · exact h1
    · cases hs
  | off c r =>
    simp only [vblankStep] at hs
    split at hs <;> cases hs
    have h1 := h.push (p := .offDeliver c ((d.save drv c r).count c)) ⟨by simp [VblankCall.file],
      by simp [VblankCall.event], by simp [VblankCall.flipCrtc]⟩
    exact h1.congr rfl rfl (fun _ => rfl) (fun _ _ => .inl) fun _ _ => rfl
  | preModeset c x =>
    simp only [vblankStep, drmVblankPreModeset] at hs
    split at hs
    · split at hs
      · obtain ⟨⟨ret, d1⟩, hget, rfl⟩ := Option.map_eq_some_iff.mp hs
        obtain ⟨h1, -⟩ := (h.setCrtc c _).get hget
        split
        · exact h1.setCrtc c _
        · exact h1
      · cases hs
        exact h
    · cases hs
  | postModeset c =>
    simp only [vblankStep, drmVblankPostModeset] at hs
    split at hs
    · split at hs
      · split at hs <;> cases hs
        split <;> exact h.congr rfl rfl (fun _ => rfl) (fun _ _ => .inl) fun _ _ => rfl
      · cases hs
        exact h
    · cases hs
  | timer c r =>
    simp only [vblankStep] at hs
    split at hs
    · cases hs
    · split at hs <;> cases hs
      · exact h.congr rfl rfl (fun _ => rfl) (fun _ _ => .inl) fun _ _ => rfl
      · exact h
  | irq c t =>
    simp only [vblankStep] at hs
    split at hs <;> cases hs
    · exact (h.setCrtc c _).deliverAll _ _
    · exact h
  | tick c =>
    cases hs
    exact h.congr rfl rfl (fun _ => rfl) (fun _ _ => .inl) fun _ _ => rfl
  | finish c =>
    cases hs
    exact h.finishPageFlip c
  | run i x =>
    obtain ⟨p, hp, hrun⟩ := Option.bind_eq_some_iff.mp hs
    exact h.run hp hrun

end VblankDevice
end GfxDrm.Vblank
