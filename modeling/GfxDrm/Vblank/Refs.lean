import GfxDrm.Vblank.Count

/-! Who holds the references of a crtc. -/

namespace GfxDrm.Vblank
open Pool Run

/-- The reference a running call holds. -/
def VblankCall.held (x : VblankCall) (k : ℕ) : ℕ :=
  match x with
  | waitSeq _ c _ | blocked _ c _ | waitPut _ c | queueAlloc _ c _ | queueEvent _ c _ | direct c
  | flipBusy _ c _ | flipPut _ c _ => if c = k then 1 else 0
  | _ => 0

def Crtc.modesetRef (x : Crtc) : ℕ := if x.inmodeset &&& 2 ≠ 0 then 1 else 0

namespace VblankDevice

variable {d d' : VblankDevice} {c i k : ℕ} {p : VblankCall}

/-- Pending events, blocked waiters and other running calls, a modeset, a page flip. -/
def refsOf (d : VblankDevice) (k : ℕ) : ℕ :=
  d.vblankEventList.countP (fun e => e.pipe = k) + total VblankCall.held d.calls k +
    (d.crtc k).modesetRef + (d.unpinWork k).isSome.toNat

def balance (d : VblankDevice) (k : ℕ) : ℤ := (d.crtc k).refcount - d.refsOf k

/-- Every reference has its holder. -/
structure Balanced (d : VblankDevice) : Prop where
  bug : d.bug = false
  zero : ∀ k, d.balance k = 0

/-- One reference to `c` is without a holder. -/
structure Owing (d : VblankDevice) (c : ℕ) : Prop where
  bug : d.bug = false
  one : ∀ k, d.balance k = if c = k then 1 else 0

theorem crtc_setCrtc (d : VblankDevice) (c : ℕ) (x : Crtc) (k : ℕ) :
    (d.setCrtc c x).crtc k = if k = c then x else d.crtc k := by
  simp [setCrtc, Function.update_apply]

/-- Nothing that is counted changes. -/
theorem balance_congr (hcrtc : ∀ k, (d'.crtc k).refcount = (d.crtc k).refcount ∧
      (d'.crtc k).inmodeset = (d.crtc k).inmodeset)
    (hlist : d'.vblankEventList = d.vblankEventList) (hcalls : d'.calls = d.calls)
    (hwork : ∀ k, (d'.unpinWork k).isSome = (d.unpinWork k).isSome) (k : ℕ) :
    d'.balance k = d.balance k := by
  simp only [balance, refsOf, Crtc.modesetRef, (hcrtc k).1, (hcrtc k).2, hlist, hcalls, hwork]

theorem Balanced.congr (h : d.Balanced) (hbug : d'.bug = d.bug)
    (hcrtc : ∀ k, (d'.crtc k).refcount = (d.crtc k).refcount ∧
      (d'.crtc k).inmodeset = (d.crtc k).inmodeset)
    (hlist : d'.vblankEventList = d.vblankEventList) (hcalls : d'.calls = d.calls)
    (hwork : ∀ k, (d'.unpinWork k).isSome = (d.unpinWork k).isSome) : d'.Balanced :=
  ⟨hbug.trans h.bug, fun k => (balance_congr hcrtc hlist hcalls hwork k).trans (h.zero k)⟩

theorem put_eq (h : (d.crtc c).refcount ≠ 0) : d.put c =
    d.setCrtc c { d.crtc c with refcount := (d.crtc c).refcount - 1 } := by
  have hput : drmVblankPut (d.crtc c) =
      some { d.crtc c with refcount := (d.crtc c).refcount - 1 } := if_neg h
  simp [VblankDevice.put, hput, setCrtc]

theorem balance_put (h : (d.crtc c).refcount ≠ 0) (k : ℕ) :
    (d.put c).balance k = d.balance k - if c = k then 1 else 0 := by
  simp only [put_eq h, balance, refsOf, crtc_setCrtc]
  by_cases hkc : k = c
  · subst hkc
    simp only [if_true, setCrtc, Crtc.modesetRef]
    omega
  · rw [if_neg hkc, if_neg (Ne.symm hkc), Int.sub_zero]
    rfl

/-- The reference without a holder is given back. -/
theorem Owing.put (h : d.Owing c) : (d.put c).Balanced := by
  have hone := h.one c
  rw [balance] at hone
  have hpos : (d.crtc c).refcount ≠ 0 := by omega
  refine ⟨by rw [put_eq hpos]; exact h.bug, fun k => ?_⟩
  rw [balance_put hpos, h.one, Int.sub_self]

theorem balance_setCall (hp : d.calls[i]? = some p) (n : Option VblankCall) (k : ℕ) :
    (d.setCall i n).balance k = d.balance k + p.held k - total VblankCall.held n.toList k := by
  have hsum : total VblankCall.held d.calls k = total VblankCall.held (p :: others d.calls i) k :=
    total_perm (perm_others hp) k
  have hsum' : total VblankCall.held (moveOn d.calls i n) k =
      total VblankCall.held (n.toList ++ others d.calls i) k :=
    total_perm (moveOn_perm d.calls i n) k
  rw [total_cons] at hsum
  rw [total_append] at hsum'
  simp only [balance, refsOf, setCall]
  omega

variable {n : Option VblankCall}

/-- A call moves on with the reference it has, or without one. -/
theorem Balanced.move (h : d.Balanced) (hp : d.calls[i]? = some p)
    (hheld : ∀ k, total VblankCall.held n.toList k = p.held k) : (d.setCall i n).Balanced := by
  refine ⟨h.bug, fun k => ?_⟩
  rw [balance_setCall hp, hheld, h.zero]
  omega

/-- A call lets go of its reference. -/
theorem Balanced.drop (h : d.Balanced) (hp : d.calls[i]? = some p)
    (hheld : ∀ k, p.held k = (if c = k then 1 else 0) + total VblankCall.held n.toList k) :
    (d.setCall i n).Owing c := by
  refine ⟨h.bug, fun k => ?_⟩
  rw [balance_setCall hp, hheld, h.zero]
  split <;> omega

/-- A call takes the reference over. -/
theorem Owing.take (h : d.Owing c) (hp : d.calls[i]? = some p)
    (hheld : ∀ k, total VblankCall.held n.toList k = p.held k + if c = k then 1 else 0) :
    (d.setCall i n).Balanced := by
  refine ⟨h.bug, fun k => ?_⟩
  rw [balance_setCall hp, hheld, h.one]
  split <;> omega

/-! ### The list of pending events -/

variable {e : PendingEvent}

theorem Balanced.erase (h : d.Balanced) (he : e ∈ d.vblankEventList) :
    ({ d with vblankEventList := d.vblankEventList.erase e } : VblankDevice).Owing e.pipe := by
  refine ⟨h.bug, fun k => ?_⟩
  have hk := h.zero k
  have hcount := (List.perm_cons_erase he).countP_eq (p := fun e => decide (e.pipe = k))
  rw [List.countP_cons] at hcount
  simp only [balance, refsOf] at hk ⊢
  by_cases hpipe : e.pipe = k <;> simp only [hpipe, decide_true, decide_false, if_true, if_false,
    Bool.false_eq_true] at hcount ⊢ <;> omega

theorem Owing.append (h : d.Owing e.pipe) :
    ({ d with vblankEventList := d.vblankEventList ++ [e] } : VblankDevice).Balanced := by
  refine ⟨h.bug, fun k => ?_⟩
  have hk := h.one k
  simp only [balance, refsOf] at hk ⊢
  by_cases hpipe : e.pipe = k <;> simp [hpipe] at hk ⊢ <;> omega

theorem Balanced.send (h : d.Balanced) (e : PendingEvent) (seq : BitVec 32) :
    (d.send e seq).Balanced := h.congr rfl (fun _ => ⟨rfl, rfl⟩) rfl rfl fun _ => rfl

theorem Balanced.remove (h : d.Balanced) (he : e ∈ d.vblankEventList) :
    (d.remove e).Balanced := (h.erase he).put

theorem Balanced.deliver (h : d.Balanced) (he : e ∈ d.vblankEventList) (seq : BitVec 32) :
    (d.deliver seq e).Balanced := (h.remove he).send e seq

/-- What holds of the device and is kept by delivering an event that is on the list holds after
a walk that delivers some of them. -/
theorem walk_induction {P : VblankDevice → Prop} {f : VblankDevice → PendingEvent → VblankDevice}
    (hlist : ∀ d e, (f d e).vblankEventList = d.vblankEventList.erase e)
    {l : List PendingEvent} (hstep : ∀ d, ∀ e ∈ l, P d → e ∈ d.vblankEventList → P (f d e))
    (hl : l.Nodup) (hsub : l ⊆ d.vblankEventList) (h : P d) : P (l.foldl f d) := by
  induction l generalizing d with
  | nil => exact h
  | cons e l ih =>
    rw [List.nodup_cons] at hl
    refine ih (fun d x hx => hstep d x (List.mem_cons_of_mem _ hx)) hl.2 (fun x hx => ?_)
      (hstep d e List.mem_cons_self h (hsub List.mem_cons_self))
    rw [hlist]
    refine (List.mem_erase_of_ne ?_).mpr (hsub (List.mem_cons_of_mem _ hx))
    rintro rfl
    exact hl.1 hx

theorem Balanced.deliverAll (h : d.Balanced) (hn : d.vblankEventList.Nodup) (seq : BitVec 32)
    (due : PendingEvent → Bool) : (d.deliverAll seq due).Balanced :=
  walk_induction (fun _ _ => rfl) (fun _ _ _ hd he => hd.deliver he seq) (hn.filter _)
    List.filter_sublist.subset h

/-! ### The flip of a crtc -/

theorem Balanced.clearWork (h : d.Balanced) (hw : (d.unpinWork c).isSome = true) :
    (d.setWork c none).Owing c := by
  refine ⟨h.bug, fun k => ?_⟩
  have hk := h.zero k
  simp only [balance, refsOf, setWork, Function.update_apply] at hk ⊢
  by_cases hkc : k = c
  · subst hkc
    simp only [hw, Bool.toNat_true] at hk
    simp only [if_true, Option.isSome_none, Bool.toNat_false]
    omega
  · rw [if_neg hkc, if_neg (Ne.symm hkc)]
    exact hk

theorem Owing.putWork (h : d.Owing c) (hw : (d.unpinWork c).isSome = false) (w : UnpinWork) :
    (d.setWork c (some w)).Balanced := by
  refine ⟨h.bug, fun k => ?_⟩
  have hk := h.one k
  simp only [balance, refsOf, setWork, Function.update_apply] at hk ⊢
  by_cases hkc : k = c
  · subst hkc
    simp only [hw, Bool.toNat_false, if_true] at hk
    simp only [if_true, Option.isSome_some, Bool.toNat_true]
    omega
  · rw [if_neg hkc]
    rw [if_neg (Ne.symm hkc)] at hk
    exact hk

/-! ### drm_vblank_get and modesets -/

/-- drm_vblank_get changes the crtc only, and switches its interrupt on if anything. -/
theorem get_cases {drv : VblankDriver} {enable ret : ℤ} {r : List Reading}
    (h : d.get drv c enable r = some (ret, d')) : ∃ x frame,
      d' = { d.setCrtc c x with frame := frame } ∧
      x.refcount = (d.crtc c).refcount + (if ret = 0 then 1 else 0) ∧
      x.inmodeset = (d.crtc c).inmodeset ∧ ((d.crtc c).enabled = true → x.enabled = true) ∧
      (ret = 0 → x.enabled = true) := by
  simp only [VblankDevice.get] at h
  split at h
  · cases h
  · obtain ⟨⟨ret, x, frame⟩, hget, he⟩ := Option.map_eq_some_iff.mp h
    cases he
    refine ⟨x, _, rfl, ?_⟩
    rcases drmVblankGet_cases hget with ⟨rfl, rfl, hon, -⟩ | ⟨m, hz, -, -, rfl, -, rfl, rfl⟩
    · exact ⟨rfl, rfl, id, hon⟩
    · simp only [drmUpdateVblankCount, hz]
      split <;> exact ⟨rfl, rfl, fun _ => rfl, fun _ => rfl⟩

theorem balance_get {x : Crtc} {frame : ℕ → ℕ} {n : ℕ}
    (hd : d' = { d.setCrtc c x with frame := frame }) (href : x.refcount = (d.crtc c).refcount + n)
    (hmode : x.inmodeset = (d.crtc c).inmodeset) (k : ℕ) :
    d'.balance k = d.balance k + if c = k then (n : ℤ) else 0 := by
  subst hd
  simp only [balance, refsOf, crtc_setCrtc, Crtc.modesetRef]
  by_cases hkc : k = c
  · subst hkc
    simp only [if_true, hmode]
    simp only [setCrtc]
    omega
  · rw [if_neg hkc]
    simp only [setCrtc]
    omega

theorem Balanced.get (h : d.Balanced) {drv : VblankDriver} {enable ret : ℤ} {r : List Reading}
    (hget : d.get drv c enable r = some (ret, d')) :
    if ret = 0 then d'.Owing c else d'.Balanced := by
  obtain ⟨x, frame, hd, href, hmode, -, -⟩ := get_cases hget
  have hbal := balance_get hd href hmode
  have hbug : d'.bug = d.bug := by rw [hd]; rfl
  split
  · rename_i hret
    refine ⟨hbug.trans h.bug, fun k => ?_⟩
    rw [hbal, h.zero, if_pos hret]
    simp
  · rename_i hret
    refine ⟨hbug.trans h.bug, fun k => ?_⟩
    rw [hbal, h.zero, if_neg hret]
    simp

end VblankDevice
end GfxDrm.Vblank
