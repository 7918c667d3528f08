import GfxDrm.Vblank.Refs
import Mathlib.Data.List.Nodup

/-! The vblank references along runs. -/

namespace GfxDrm.Vblank
open Pool Run

/-- The crtc whose work a running page flip has put in place and not yet queued, and the event
of that work. -/
def VblankCall.flipping : VblankCall → Option (ℕ × Option PendingEvent)
  | flipQueue _ c e | flipCleanup _ c e => some (c, e)
  | _ => none

def VblankCall.slot (p : VblankCall) : Option ℕ := p.flipping.map Prod.fst

namespace VblankDevice

variable {drv : VblankDriver} {d d' : VblankDevice} {c i : ℕ} {p : VblankCall}
  {n : Option VblankCall}

@[simp] theorem unpinWork_setCall : (d.setCall i n).unpinWork = d.unpinWork := rfl

@[simp] theorem unpinWork_setWork (w : Option UnpinWork) :
    (d.setWork c w).unpinWork = Function.update d.unpinWork c w := rfl

/-- A pending event is new to the list, and a flip that is not queued yet has its crtc alone. -/
structure Wf (d : VblankDevice) : Prop where
  nodup : d.vblankEventList.Nodup
  fresh : ∀ e ∈ d.vblankEventList, e.id < d.nextEvent
  apart : (d.calls.filterMap VblankCall.slot).Nodup
  work : ∀ p ∈ d.calls, ∀ c e, p.flipping = some (c, e) → d.unpinWork c = some ⟨e, false⟩

theorem Wf.congr (h : d.Wf) (hlist : d'.vblankEventList.Sublist d.vblankEventList)
    (hnext : d.nextEvent ≤ d'.nextEvent) (hcalls : d'.calls = d.calls)
    (hwork : d'.unpinWork = d.unpinWork) : d'.Wf where
  nodup := h.nodup.sublist hlist
  fresh e he := Nat.lt_of_lt_of_le (h.fresh e (hlist.subset he)) hnext
  apart := hcalls ▸ h.apart
  work := by
    rw [hcalls, hwork]
    exact h.work

theorem Wf.push (h : d.Wf) (hp : p.flipping = none) : ({ d with calls := p :: d.calls } :
    VblankDevice).Wf where
  nodup := h.nodup
  fresh := h.fresh
  apart := by
    rw [List.filterMap_cons_none (by simp [VblankCall.slot, hp])]
    exact h.apart
  work q hq c e hflip := by
    rcases List.mem_cons.mp hq with rfl | hq
    · simp [hp] at hflip
    · exact h.work q hq c e hflip

/-- A call moves on and keeps the work it has put in place, or has none afterwards. -/
theorem Wf.move (h : d.Wf) (hp : d.calls[i]? = some p)
    (hflip : ∀ u ∈ n, ∀ c e, u.flipping = some (c, e) → p.flipping = some (c, e)) :
    (d.setCall i n).Wf where
  nodup := h.nodup
  fresh := h.fresh
  apart := by
    refine nodup_filterMap_moveOn hp h.apart fun u hu x hx => .inl ?_
    obtain ⟨⟨c, e⟩, hce, rfl⟩ := Option.map_eq_some_iff.mp hx
    simp [VblankCall.slot, hflip u hu c e hce]
  work u hu c e hce := by
    rcases mem_moveOn hp hu with hu | hu
    · exact h.work u hu c e hce
    · exact h.work p (List.mem_of_getElem? hp) c e (hflip u hu c e hce)

theorem Wf.move_none (h : d.Wf) (hp : d.calls[i]? = some p)
    (hflip : ∀ u ∈ n, u.flipping = none) : (d.setCall i n).Wf :=
  h.move hp fun u hu _ _ hce => by simp [hflip u hu] at hce

/-- The flip whose work it is lets it be changed. -/
theorem Wf.leave (h : d.Wf) (hp : d.calls[i]? = some p) {e : Option PendingEvent}
    (hflip : p.flipping = some (c, e)) (hnone : ∀ u ∈ n, u.flipping = none)
    (w : Option UnpinWork) : ((d.setWork c w).setCall i n).Wf where
  nodup := h.nodup
  fresh := h.fresh
  apart := (h.move_none hp hnone).apart
  work u hu k e' hke := by
    rcases mem_moveOn_iff.mp hu with rfl | hu
    · simp [hnone u rfl] at hke
    · have hne : k ≠ c := by
        rintro rfl
        refine key_ne_of_others hp h.apart (x := k) ?_ hu ?_ <;>
          simp [VblankCall.slot, hflip, hke]
      rw [unpinWork_setCall, unpinWork_setWork, Function.update_of_ne hne]
      exact h.work u (mem_of_others hp hu) k e' hke

/-- A flip puts its work in place. -/
theorem Wf.enter (h : d.Wf) (hp : d.calls[i]? = some p) (hfree : d.unpinWork c = none)
    {u : VblankCall} {e : Option PendingEvent} (hflip : u.flipping = some (c, e)) :
    ((d.setWork c (some { event := e })).setCall i (some u)).Wf where
  nodup := h.nodup
  fresh := h.fresh
  apart := by
    refine nodup_filterMap_moveOn hp h.apart fun v hv x hx => .inr fun q hq hqx => ?_
    cases hv
    obtain ⟨⟨k, e'⟩, hke, rfl⟩ := Option.map_eq_some_iff.mp hqx
    rw [VblankCall.slot, hflip] at hx
    cases hx
    simp [h.work q hq _ e' hke] at hfree
  work v hv k e' hke := by
    rcases mem_moveOn_iff.mp hv with he | hv
    · cases he
      rw [hflip] at hke
      cases hke
      rw [unpinWork_setCall, unpinWork_setWork, Function.update_self]
    · have hne : k ≠ c := by
        rintro rfl
        simp [h.work v (mem_of_others hp hv) k e' hke] at hfree
      rw [unpinWork_setCall, unpinWork_setWork, Function.update_of_ne hne]
      exact h.work v (mem_of_others hp hv) k e' hke

theorem Wf.append (h : d.Wf) {e : PendingEvent} (he : e.id = d.nextEvent) : ({ d with
    nextEvent := d.nextEvent + 1, vblankEventList := d.vblankEventList ++ [e] } :
      VblankDevice).Wf where
  nodup := by
    refine h.nodup.append (List.nodup_singleton e) ?_
    rw [List.disjoint_singleton]
    intro hmem
    have hlt := h.fresh e hmem
    omega
  fresh x hx := by
    rcases List.mem_append.mp hx with hx | hx
    · exact Nat.lt_succ_of_lt (h.fresh x hx)
    · rw [List.mem_singleton.mp hx, he]
      exact Nat.lt_succ_self _
  apart := h.apart
  work := h.work

/-! ### Walks over the list of pending events -/

variable {f : VblankDevice → PendingEvent → VblankDevice}

/-- What each of its rounds leaves alone a walk leaves alone. -/
theorem foldl_keeps {β : Type*} (g : VblankDevice → β) (h : ∀ d e, g (f d e) = g d)
    (l : List PendingEvent) (d : VblankDevice) : g (l.foldl f d) = g d := by
  induction l generalizing d with
  | nil => rfl
  | cons e l ih => exact (ih (f d e)).trans (h d e)

/-- A walk that takes off the events it visits. -/
theorem foldl_erase (h : ∀ d e, (f d e).vblankEventList = d.vblankEventList.erase e)
    (l : List PendingEvent) (d : VblankDevice) :
    (l.foldl f d).vblankEventList = d.vblankEventList.diff l := by
  induction l generalizing d with
  | nil => rfl
  | cons e l ih => rw [List.foldl_cons, ih, h, List.diff_cons]

theorem diff_filter {l : List PendingEvent} (hl : l.Nodup) (due : PendingEvent → Bool) :
    l.diff (l.filter due) = l.filter fun e => !due e := by
  rw [hl.sdiff_eq_filter]
  refine List.filter_congr fun e he => ?_
  cases hd : due e <;> simp [he, hd]

theorem deliverAll_list (hn : d.vblankEventList.Nodup) (seq : BitVec 32)
    (due : PendingEvent → Bool) :
    (d.deliverAll seq due).vblankEventList = d.vblankEventList.filter fun e => !due e := by
  rw [deliverAll, foldl_erase fun _ _ => rfl, diff_filter hn]

theorem calls_remove (d : VblankDevice) (e : PendingEvent) : (d.remove e).calls = d.calls := rfl

theorem calls_deliverAll (d : VblankDevice) (seq : BitVec 32) (due : PendingEvent → Bool) :
    (d.deliverAll seq due).calls = d.calls :=
  foldl_keeps VblankDevice.calls (fun d e => (rfl : (d.deliver seq e).calls = _)) _ d

theorem Wf.deliverAll (h : d.Wf) (seq : BitVec 32) (due : PendingEvent → Bool) :
    (d.deliverAll seq due).Wf := by
  refine h.congr ?_ (Nat.le_of_eq ?_) (d.calls_deliverAll seq due) ?_
  · rw [deliverAll_list h.nodup]
    exact List.filter_sublist
  · exact (foldl_keeps VblankDevice.nextEvent
      (fun d e => (rfl : (d.deliver seq e).nextEvent = _)) _ d).symm
  · exact foldl_keeps VblankDevice.unpinWork
      (fun d e => (rfl : (d.deliver seq e).unpinWork = _)) _ d

/-! ### Steps of the calls -/

/-- What every run keeps. -/
structure Ok (d : VblankDevice) : Prop extends d.Wf where
  balanced : d.Balanced

theorem Ok.get (h : d.Ok) {enable ret : ℤ} {r : List Reading}
    (hget : d.get drv c enable r = some (ret, d')) : d'.Wf ∧ d'.calls = d.calls ∧
      d'.unpinWork = d.unpinWork ∧ if ret = 0 then d'.Owing c else d'.Balanced := by
  obtain ⟨x, frame, hd, -⟩ := get_cases hget
  refine ⟨h.toWf.congr ?_ ?_ ?_ ?_, ?_, ?_, h.balanced.get hget⟩ <;> simp [hd, setCrtc]

theorem Ok.move (h : d.Ok) (hp : d.calls[i]? = some p)
    (hflip : ∀ u ∈ n, ∀ c e, u.flipping = some (c, e) → p.flipping = some (c, e))
    (hheld : ∀ k, total VblankCall.held n.toList k = p.held k) : (d.setCall i n).Ok :=
  ⟨h.toWf.move hp hflip, h.balanced.move hp hheld⟩

/-- A call gives its reference back. -/
theorem Ok.drop (h : d.Ok) (hp : d.calls[i]? = some p) (hflip : ∀ u ∈ n, u.flipping = none)
    (hheld : ∀ k, p.held k = (if c = k then 1 else 0) + total VblankCall.held n.toList k) :
    ((d.put c).setCall i n).Ok := by
  exact ⟨(h.toWf.move_none hp hflip).congr (List.Sublist.refl _) (Nat.le_refl _) rfl rfl,
    (h.balanced.drop hp hheld).put⟩

/-- Nothing of the files is counted. -/
theorem Ok.setFile (h : d.Ok) (f : ℕ) (g : EventFile → EventFile) : (d.setFile f g).Ok :=
  ⟨h.toWf.congr (List.Sublist.refl _) (Nat.le_refl _) rfl rfl,
    h.balanced.congr rfl (fun _ => ⟨rfl, rfl⟩) rfl rfl fun _ => rfl⟩

theorem Owing.accept (h : d.Owing c) (n : ℕ) (l : List PendingEvent) :
    ({ d with nextEvent := n, accepted := l } : VblankDevice).Owing c := ⟨h.bug, h.one⟩

theorem Ok.pend (hw : d.Wf) {e : PendingEvent} (ho : d.Owing e.pipe) (he : e.id = d.nextEvent)
    (l : List PendingEvent) : ({ d with
      nextEvent := d.nextEvent + 1
      accepted := l
      vblankEventList := d.vblankEventList ++ [e] } : VblankDevice).Ok :=
  ⟨(hw.append he).congr (List.Sublist.refl _) (Nat.le_refl _) rfl rfl,
    ⟨ho.append.bug, ho.append.zero⟩⟩

theorem Ok.queueVblankEvent (h : d.Ok) {f : ℕ} {req : WaitRequest}
    (hp : d.calls[i]? = some (.queueEvent f c req)) : (queueVblankEvent d i f c req).Ok := by
  simp only [Vblank.queueVblankEvent]
  split
  · exact h.move hp (by simp [VblankCall.flipping]) (by simp [VblankCall.held])
  · have hcall := h.setFile f fun p => { p with eventSpace := p.eventSpace - eventLength }
    have hw := hcall.toWf.move_none (n := none) hp (by simp)
    have ho := hcall.balanced.drop (c := c) (n := none) hp (by simp [VblankCall.held])
    split
    · exact ⟨hw.congr (List.Sublist.refl _) (Nat.le_succ _) rfl rfl, (ho.accept _ _).put.send _ _⟩
    · exact Ok.pend hw ho rfl _

/-- A drm_vblank_get whose caller keeps the reference when it has got one. -/
theorem Ok.move_get (h : d.Ok) {enable ret : ℤ} {r : List Reading}
    (hget : d.get drv c enable r = some (ret, d')) (hp : d.calls[i]? = some p)
    (hnone : ∀ k, p.held k = 0) {q : VblankCall} (hq : q.flipping = none)
    (hheld : ∀ k, q.held k = if c = k then 1 else 0) {u : Option VblankCall}
    (hu : ∀ v ∈ u, v.flipping = none) (hfree : ∀ k, total VblankCall.held u.toList k = 0) :
    (d'.setCall i (if ret = 0 then some q else u)).Ok := by
  obtain ⟨hw, hcalls, -, href⟩ := h.get hget
  rw [← hcalls] at hp
  split
  · rename_i hret
    rw [if_pos hret] at href
    exact ⟨hw.move_none hp (by simp [hq]), href.take hp (by simp [hheld, hnone])⟩
  · rename_i hret
    rw [if_neg hret] at href
    exact ⟨hw.move_none hp hu, href.move hp (by simp [hfree, hnone])⟩

theorem flipFailed_free (f : ℕ) (e : Option PendingEvent) :
    (∀ u ∈ VblankCall.flipFailed f e, u.flipping = none) ∧
    ∀ k, total VblankCall.held (VblankCall.flipFailed f e).toList k = 0 := by
  cases e <;> simp [VblankCall.flipFailed, VblankCall.flipping, VblankCall.held]

theorem Ok.run (h : d.Ok) {x : Input} (hp : d.calls[i]? = some p)
    (hs : p.run drv d i x = some d') : d'.Ok := by
  cases p with
  | waitGet f c req =>
    obtain ⟨⟨ret, d1⟩, hget, rfl⟩ := Option.map_eq_some_iff.mp hs
    exact h.move_get hget hp (fun _ => rfl) rfl (fun _ => rfl) (by simp) (by simp)
  | waitSeq f c req =>
    simp only [VblankCall.run] at hs
    split at hs <;> cases hs
    · exact h.move hp (by simp [VblankCall.flipping]) (by simp [VblankCall.held])
    · exact h.move hp (by simp [VblankCall.flipping]) (by simp [VblankCall.held])
  | blocked f c seq =>
    cases hs
    exact h.move hp (by simp [VblankCall.flipping]) (by simp [VblankCall.held])
  | waitPut f c =>
    cases hs
    exact h.drop hp (by simp) (by simp [VblankCall.held])
  | queueAlloc f c req =>
    cases hs
    refine h.move hp ?_ ?_ <;> cases x.ok <;> simp [VblankCall.flipping, VblankCall.held]
  | queueEvent f c req =>
    cases hs
    exact h.queueVblankEvent hp
  | direct c =>
    cases hs
    exact h.drop hp (by simp) (by simp [VblankCall.held])
  | offDeliver c seq =>
    cases hs
    have hk : (d.setCall i none).Ok := h.move hp (by simp) (by simp [VblankCall.held])
    exact ⟨(hk.toWf.deliverAll seq _).congr (List.Sublist.refl _) (Nat.le_refl _) rfl rfl,
      (hk.balanced.deliverAll hk.nodup seq _).congr rfl (fun _ => ⟨rfl, rfl⟩) rfl rfl fun _ => rfl⟩
  | read f max total =>
    have hend : (d.setCall i none).Ok := h.move hp (by simp) (by simp [VblankCall.held])
    simp only [VblankCall.run] at hs
    split at hs
    · cases hs
      exact hend
    · split at hs <;> cases hs
      · exact hend
      · exact (h.setFile f _).move hp (by simp [VblankCall.flipping]) (by simp [VblankCall.held])
  | copying f max total e =>
    simp only [VblankCall.run] at hs
    split at hs <;> cases hs
    · have hk : (d.setCall i (some (.read f (max - eventLength) (total + eventLength)))).Ok :=
        h.move hp (by simp [VblankCall.flipping]) (by simp [VblankCall.held])
      exact ⟨⟨hk.nodup, hk.fresh, hk.apart, hk.work⟩, ⟨hk.balanced.bug, hk.balanced.zero⟩⟩
    · have hk : (d.setCall i none).Ok := h.move hp (by simp) (by simp [VblankCall.held])
      exact ⟨⟨hk.nodup, hk.fresh, hk.apart, hk.work⟩, ⟨hk.balanced.bug, hk.balanced.zero⟩⟩
  | flipReserve f c =>
    simp only [VblankCall.run] at hs
    split at hs <;> cases hs
    · exact h.move hp (by simp) (by simp [VblankCall.held])
    · exact (h.setFile f _).move hp (by simp [VblankCall.flipping]) (by simp [VblankCall.held])
  | flipAlloc f c =>
    simp only [VblankCall.run] at hs
    split at hs <;> cases hs
    · have hn : ({ d with nextEvent := d.nextEvent + 1 } : VblankDevice).Ok :=
        ⟨h.toWf.congr (List.Sublist.refl _) (Nat.le_succ _) rfl rfl,
          ⟨h.balanced.bug, h.balanced.zero⟩⟩
      exact hn.move hp (by simp [VblankCall.flipping]) (by simp [VblankCall.held])
    · exact h.move hp (by simp [VblankCall.flipping]) (by simp [VblankCall.held])
  | flipCredit f =>
    cases hs
    exact (h.setFile f _).move hp (by simp) (by simp [VblankCall.held])
  | flipGet f c e =>
    obtain ⟨hflip, hfree⟩ := flipFailed_free f e
    simp only [VblankCall.run] at hs
    split at hs
    · obtain ⟨⟨ret, d1⟩, hget, rfl⟩ := Option.map_eq_some_iff.mp hs
      exact h.move_get hget hp (fun _ => rfl) rfl (fun _ => rfl) hflip hfree
    · cases hs
      exact h.move hp (fun u hu c e hce => by simp [hflip u hu] at hce) hfree
  | flipBusy f c e =>
    simp only [VblankCall.run] at hs
    split at hs <;> cases hs
    · exact h.move hp (by simp [VblankCall.flipping]) (by simp [VblankCall.held])
    · rename_i hfree
      refine ⟨h.toWf.enter hp (by simpa using hfree) rfl, ?_⟩
      exact (h.balanced.drop (c := c) (n := some (.flipQueue f c e)) hp
        (by simp [VblankCall.held])).putWork (by simpa using hfree) _
  | flipQueue f c e =>
    simp only [VblankCall.run] at hs
    split at hs <;> cases hs
    · have hw := h.toWf.leave (n := none) hp rfl (by simp)
        ((d.unpinWork c).map fun w => { w with active := true })
      refine ⟨⟨hw.nodup, hw.fresh, hw.apart, hw.work⟩, ?_⟩
      refine (h.balanced.move (n := none) hp (by simp [VblankCall.held])).congr rfl
        (fun _ => ⟨rfl, rfl⟩) rfl rfl fun k => ?_
      by_cases hkc : k = c <;> simp [hkc]
    · exact h.move hp (by simp [VblankCall.flipping]) (by simp [VblankCall.held])
  | flipCleanup f c e =>
    cases hs
    have hwork := h.work _ (List.mem_of_getElem? hp) c e rfl
    refine ⟨h.toWf.leave hp rfl (by simp [VblankCall.flipping]) none, ?_⟩
    exact (h.balanced.clearWork (by simp [hwork])).take hp (by simp [VblankCall.held])
  | flipPut f c e =>
    cases hs
    obtain ⟨hflip, hfree⟩ := flipFailed_free f e
    exact h.drop hp hflip (by simp [hfree, VblankCall.held])

/-! ### Steps of the device -/

theorem Ok.setCrtc (h : d.Ok) {x : Crtc} (href : x.refcount = (d.crtc c).refcount)
    (hmode : x.inmodeset = (d.crtc c).inmodeset) : (d.setCrtc c x).Ok := by
  refine ⟨h.toWf.congr (List.Sublist.refl _) (Nat.le_refl _) rfl rfl,
    h.balanced.congr rfl (fun k => ?_) rfl rfl fun _ => rfl⟩
  rw [crtc_setCrtc]
  split
  · rename_i hk
    rw [hk]
    exact ⟨href, hmode⟩
  · exact ⟨rfl, rfl⟩

theorem Ok.save (h : d.Ok) (r : ℕ → Reading) : (d.save drv c r).Ok :=
  have hk := h.setCrtc (c := c) (x := vblankDisableAndSave drv.toVblankConfig (d.crtc c)
    (saveSample drv.toVblankConfig (d.frame c) r)) rfl rfl
  ⟨⟨hk.nodup, hk.fresh, hk.apart, hk.work⟩, ⟨hk.balanced.bug, hk.balanced.zero⟩⟩

theorem Ok.push (h : d.Ok) (hp : p.flipping = none) (hheld : ∀ k, p.held k = 0) :
    ({ d with calls := p :: d.calls } : VblankDevice).Ok := by
  refine ⟨h.toWf.push hp, h.balanced.bug, fun k => ?_⟩
  have hk := h.balanced.zero k
  simp only [balance, refsOf, total_cons, hheld] at hk ⊢
  omega

theorem Ok.deliverAll (h : d.Ok) (seq : BitVec 32) (due : PendingEvent → Bool) :
    (d.deliverAll seq due).Ok :=
  ⟨h.toWf.deliverAll seq due, h.balanced.deliverAll h.nodup seq due⟩

theorem Ok.irq (h : d.Ok) (t : ℤ) :
    (drmHandleVblankEvents (d.setCrtc c (drmHandleVblank (d.crtc c) t)) c).Ok := by
  refine (h.setCrtc ?_ ?_).deliverAll _ _ <;>
  · simp only [drmHandleVblank]
    split
    · split <;> rfl
    · rfl

theorem Ok.finishPageFlip (h : d.Ok) : (finishPageFlip d c).Ok := by
  unfold Vblank.finishPageFlip
  split
  · rename_i e hwork
    have ho : (d.setWork c none).Owing c := h.balanced.clearWork (by simp [hwork])
    have hw : (d.setWork c none).Wf := by
      refine ⟨h.nodup, h.fresh, h.apart, fun p hp k e' hke => ?_⟩
      have hk := h.work p hp k e' hke
      have hne : k ≠ c := by
        rintro rfl
        simp [hwork] at hk
      rw [unpinWork_setWork, Function.update_of_ne hne, hk]
    cases e with
    | none => exact ⟨hw.congr (List.Sublist.refl _) (Nat.le_refl _) rfl rfl, ho.put⟩
    | some e =>
      exact ⟨hw.congr (List.Sublist.refl _) (Nat.le_refl _) rfl rfl, ho.put.send _ _⟩
  · exact h

/-- A modeset takes the reference over, or gives it back. -/
theorem balance_setModeset {m : BitVec 32} (hd : d' = d.setCrtc c { d.crtc c with inmodeset := m })
    (k : ℕ) : d'.balance k = d.balance k +
      (if c = k then ((d.crtc c).modesetRef : ℤ) - Crtc.modesetRef { d.crtc c with inmodeset := m }
        else 0) := by
  subst hd
  simp only [balance, refsOf, crtc_setCrtc]
  by_cases hkc : k = c
  · subst hkc
    simp only [if_true, setCrtc]
    omega
  · rw [if_neg hkc]
    simp only [setCrtc]
    omega

theorem Wf.setCrtc (h : d.Wf) (x : Crtc) : (d.setCrtc c x).Wf :=
  h.congr (List.Sublist.refl _) (Nat.le_refl _) rfl rfl

theorem Wf.put (h : d.Wf) : (d.put c).Wf :=
  h.congr (List.Sublist.refl _) (Nat.le_refl _) rfl rfl

theorem Ok.preModeset (h : d.Ok) {x : Input}
    (hs : drmVblankPreModeset drv d c x = some d') : d'.Ok := by
  simp only [drmVblankPreModeset] at hs
  split at hs
  · rename_i hidle
    have h1 : (d.setCrtc c { d.crtc c with inmodeset := 1 }).Ok := by
      refine ⟨h.toWf.setCrtc _, h.balanced.bug, fun k => ?_⟩
      rw [balance_setModeset rfl, h.balanced.zero]
      simp [Crtc.modesetRef, hidle]
    obtain ⟨⟨ret, d2⟩, hget, rfl⟩ := Option.map_eq_some_iff.mp hs
    obtain ⟨hw, -, -, href⟩ := h1.get hget
    obtain ⟨y, frame, hd, -, hmode, -, -⟩ := get_cases hget
    have hmode2 : (d2.crtc c).inmodeset = 1 := by
      rw [hd]
      simpa [crtc_setCrtc] using hmode
    split
    · rename_i hret
      rw [if_pos hret] at href
      refine ⟨hw.setCrtc _, href.bug, fun k => ?_⟩
      rw [balance_setModeset rfl, href.one]
      split <;> simp [Crtc.modesetRef, hmode2]
    · rename_i hret
      rw [if_neg hret] at href
      exact ⟨hw, href⟩
  · cases hs
    exact h

/-- A modeset that holds a reference ends. -/
theorem Ok.endModeset (h : d.Ok) (hbit : (d.crtc c).inmodeset &&& 2 ≠ 0) :
    ((d.put c).setCrtc c { (d.put c).crtc c with inmodeset := 0 }).Ok := by
  have hone : (d.crtc c).modesetRef = 1 := if_pos hbit
  have hpos : (d.crtc c).refcount ≠ 0 := by
    have hzero := h.balanced.zero c
    simp only [balance, refsOf] at hzero
    omega
  have hput : ((d.put c).crtc c).modesetRef = 1 := by
    rw [put_eq hpos, crtc_setCrtc, if_pos rfl]
    exact hone
  refine ⟨h.toWf.put.setCrtc _, ?_, fun k => ?_⟩
  · rw [put_eq hpos]
    exact h.balanced.bug
  · rw [balance_setModeset rfl, balance_put hpos, h.balanced.zero, hput]
    split <;> simp [Crtc.modesetRef]

theorem Ok.postModeset (h : d.Ok) (hs : drmVblankPostModeset d c = some d') : d'.Ok := by
  simp only [drmVblankPostModeset] at hs
  split at hs
  · split at hs
    · cases hs
    · have h1 : ({ d with disableAllowed := true } : VblankDevice).Ok :=
        ⟨⟨h.nodup, h.fresh, h.apart, h.work⟩, ⟨h.balanced.bug, h.balanced.zero⟩⟩
      split at hs <;> cases hs
      · rename_i hbit
        exact h1.endModeset hbit
      · rename_i hbit
        refine ⟨h1.toWf.setCrtc _, h1.balanced.bug, fun k => ?_⟩
        have hnone : (d.crtc c).modesetRef = 0 := if_neg hbit
        rw [balance_setModeset rfl, h1.balanced.zero]
        split <;> simp [Crtc.modesetRef] at hnone ⊢
        exact hnone
  · cases hs
    exact h

theorem Ok.drmEventsRelease (h : d.Ok) (f : ℕ) : (drmEventsRelease d f).Ok := by
  unfold Vblank.drmEventsRelease
  refine Ok.setFile ?_ f _
  exact walk_induction (fun _ _ => rfl)
    (fun d e _ hd he => ⟨hd.toWf.congr List.erase_sublist (Nat.le_refl _) rfl rfl,
      hd.balanced.remove he⟩)
    (h.nodup.filter _) List.filter_sublist.subset h

theorem Ok.step (h : d.Ok) {e : VblankEvent} (hs : vblankStep drv d e = some d') : d'.Ok := by
  cases e with
  | openFile =>
    cases hs
    have hk := h.setFile d.nextFile fun _ => { opened := true }
    exact ⟨⟨hk.nodup, hk.fresh, hk.apart, hk.work⟩, ⟨hk.balanced.bug, hk.balanced.zero⟩⟩
  | close f =>
    simp only [vblankStep] at hs
    split at hs <;> cases hs
    exact h.drmEventsRelease f
  | wait f req =>
    simp only [vblankStep] at hs
    split at hs
    · split at hs <;> cases hs
      · exact h.push rfl fun _ => rfl
      · exact h
    · cases hs
  | read f max =>
    simp only [vblankStep] at hs
    split at hs <;> cases hs
    exact h.push rfl fun _ => rfl
  | flip f c event =>
    simp only [vblankStep] at hs
    split at hs <;> cases hs
    cases event <;> exact h.push rfl fun _ => rfl
  | get c x =>
    simp only [vblankStep] at hs
    split at hs
    · obtain ⟨⟨ret, d1⟩, hget, rfl⟩ := Option.map_eq_some_iff.mp hs
      obtain ⟨hw, -, -, href⟩ := h.get hget
      split
      · rename_i hret
        rw [if_pos hret] at href
        refine ⟨hw.push rfl, href.bug, fun k => ?_⟩
        have hk := href.one k
        simp only [balance, refsOf, total_cons, VblankCall.held] at hk ⊢
        by_cases hck : c = k <;> simp only [hck, if_true, if_false] at hk ⊢ <;> omega
      · rename_i hret
        rw [if_neg hret] at href
        exact ⟨hw, href⟩
    · cases hs
  | off c r =>
    simp only [vblankStep] at hs
    split at hs <;> cases hs
    have hk := Ok.push (d := d.save drv c r) (h.save r)
      (p := .offDeliver c ((d.save drv c r).count c)) rfl fun _ => rfl
    exact ⟨⟨hk.nodup, hk.fresh, hk.apart, hk.work⟩, ⟨hk.balanced.bug, hk.balanced.zero⟩⟩
  | preModeset c x =>
    simp only [vblankStep] at hs
    split at hs
    · exact h.preModeset hs
    · cases hs
  | postModeset c =>
    simp only [vblankStep] at hs
    split at hs
    · exact h.postModeset hs
    · cases hs
  | timer c r =>
    simp only [vblankStep] at hs
    split at hs
    · cases hs
    · split at hs <;> cases hs
      · exact h.save r
      · exact h
  | irq c t =>
    simp only [vblankStep] at hs
    split at hs <;> cases hs
    · exact h.irq t
    · exact h
  | tick c =>
    cases hs
    exact ⟨⟨h.nodup, h.fresh, h.apart, h.work⟩, ⟨h.balanced.bug, h.balanced.zero⟩⟩
  | finish c =>
    cases hs
    exact h.finishPageFlip
  | run i x =>
    obtain ⟨p, hp, hrun⟩ := Option.bind_eq_some_iff.mp hs
    exact h.run hp hrun

theorem ok_init : ({} : VblankDevice).Ok where
  nodup := List.nodup_nil
  fresh := by simp
  apart := List.nodup_nil
  work := by simp
  balanced := ⟨rfl, fun _ => by simp [VblankDevice.balance, VblankDevice.refsOf, Crtc.modesetRef]⟩

theorem ok_of_reach (h : Reach (vblankSystem drv) d) : d.Ok :=
  h.invariant (fun _ hd => hd ▸ ok_init) fun _ _ _ hok _ hs => hok.step hs

end VblankDevice
end GfxDrm.Vblank
