import GfxDrm.HwContext.Defs
import Mathlib.Algebra.BigOperators.Group.Finset.Piecewise

/-! What holds the references and the pins of hardware contexts. -/

namespace GfxDrm.HwContext
open Kref Run

namespace CtxState

/-- The default context, as long as contexts are in use. -/
def usedDefault (s : CtxState) : Option ℕ :=
  if s.hwContextsDisabled then none else s.defaultContext

/-- Whether `x` is registered in its file's idr, as a number. -/
def registered (s : CtxState) (x : ℕ) : ℕ :=
  points (s.contextGet (s.ctx x).filePriv (s.ctx x).id) x

/-- The requests not retired that recorded `x`. -/
def requests (s : CtxState) (x : ℕ) : ℕ := listed Finset.univ s.requestList (some x)

def contextRefs (s : CtxState) (x : ℕ) : ℕ :=
  s.registered x + pointers Finset.univ s.lastContext x + s.requests x + points s.usedDefault x

def contextPins (s : CtxState) (x : ℕ) : ℕ :=
  pointers Finset.univ s.lastContext x + points s.usedDefault x

end CtxState

/-- Each context has the references that are held of it, each object the pins, and no BUG_ON has
come true. -/
structure ContextsOk (s : CtxState) : Prop where
  refs : Balanced s.refs s.contextRefs
  pins : ∀ x, s.pins x = s.contextPins x
  bug : s.bug = false

/-- The invariant, with a pin that a switch under way holds of `extra`. -/
structure CtxInv (extra : Option ℕ) (s : CtxState) : Prop where
  refs : Balanced s.refs s.contextRefs
  pins : ∀ x, s.pins x = s.contextPins x + points extra x
  bug : s.bug = false
  ready : s.hwContextsDisabled = false → s.defaultContext ≠ none
  owned : ∀ f id x, s.contextGet f id = some x → (s.ctx x).filePriv = f ∧ (s.ctx x).id = id
  sound : ∀ f idr, s.contextIdr f = some idr → Idr.Sound idr
  entries : ∀ f idr id p, s.contextIdr f = some idr → idr.ptrs id = some p → 0 < id ∧ p ≠ none

variable {s s' : CtxState} {e : Option ℕ} {c x f id n : ℕ} {ring : Ring} {w : Waited}

theorem CtxInv.contextsOk (h : CtxInv none s) : ContextsOk s :=
  ⟨h.refs, fun x => by simpa using h.pins x, h.bug⟩

/-! ### Requests -/

/-- Other requests, and the references with them. -/
theorem contextRefs_requests (r : Counts ℕ) (l : Ring → List (Option ℕ)) (x : ℕ) :
    { s with refs := r, requestList := l }.contextRefs x + s.requests x =
      s.contextRefs x + listed Finset.univ l (some x) := by
  show s.registered x + pointers Finset.univ s.lastContext x + listed Finset.univ l (some x) +
    points s.usedDefault x + s.requests x = _
  unfold CtxState.contextRefs
  omega

/-- What a wait does: requests come and go, with the references they hold. -/
structure Waits (s s' : CtxState) : Prop where
  refs : Balanced s.refs s.contextRefs → Balanced s'.refs s'.contextRefs
  same : s' = { s with refs := s'.refs, requestList := s'.requestList }

namespace Waits

theorem refl : Waits s s := ⟨id, rfl⟩

theorem trans {s'' : CtxState} (h : Waits s s') (h' : Waits s' s'') : Waits s s'' := by
  refine ⟨h'.refs ∘ h.refs, ?_⟩
  rw [h'.same, h.same]

theorem addRequest (ring : Ring) (ret : ℤ) : Waits s (s.addRequest ring ret).2 := by
  unfold CtxState.addRequest
  split
  · exact refl
  · refine ⟨fun h => h.getIf (fun c hc => ?_) fun x => ?_, rfl⟩
    · have : 0 < pointers Finset.univ s.lastContext c :=
        pointers_pos.mpr ⟨ring, Finset.mem_univ ring, hc⟩
      simp only [CtxState.contextRefs]
      omega
    · have hcount := listed_update (l := s.requestList) (Finset.mem_univ ring)
        (s.requestList ring ++ [s.lastContext ring]) (some x)
      have hone : [s.lastContext ring].count (some x) = points (s.lastContext ring) x := by
        simp [List.count_singleton, points]
      have hrefs := contextRefs_requests (s := s) (s.refs.getIf (s.lastContext ring))
        (Function.update s.requestList ring (s.requestList ring ++ [s.lastContext ring])) x
      rw [List.count_append] at hcount
      unfold CtxState.requests at hrefs
      dsimp only
      omega

theorem retireRequests (ring : Ring) (n : ℕ) : Waits s (s.retireRequests ring n) := by
  refine ⟨fun h => h.putAll fun x => ?_, rfl⟩
  have hcount := listed_update (l := s.requestList) (Finset.mem_univ ring)
    ((s.requestList ring).drop n) (some x)
  have hrefs := contextRefs_requests (s := s)
    (((s.requestList ring).take n).foldl Counts.putIf s.refs)
    (Function.update s.requestList ring ((s.requestList ring).drop n)) x
  have hsplit : (s.requestList ring).count (some x) =
      ((s.requestList ring).take n).count (some x) +
        ((s.requestList ring).drop n).count (some x) := by
    rw [← List.count_append, List.take_append_drop]
  unfold CtxState.requests at hrefs
  unfold CtxState.retireRequests
  omega

theorem event (ev : GpuEvent) : Waits s (s.event ev) := by
  cases ev with
  | addRequest ring ret => exact addRequest ring ret
  | retire ring n => exact retireRequests ring n

theorem wait (w : Waited) : Waits s (s.wait w) := by
  unfold CtxState.wait
  induction w.events generalizing s with
  | nil => exact refl
  | cons ev l ih => exact (event ev).trans ih

end Waits

namespace CtxInv

theorem waits (h : CtxInv e s) (hw : Waits s s') : CtxInv e s' := by
  have hrefs := hw.refs h.refs
  obtain hsame := hw.same
  refine ⟨hrefs, ?_, ?_, ?_, ?_, ?_, ?_⟩ <;> rw [hsame]
  · exact h.pins
  · exact h.bug
  · exact h.ready
  · exact h.owned
  · exact h.sound
  · exact h.entries

/-- Other pins and another `bug` are all that changes. -/
theorem setPins {pins : ℕ → ℕ} {b : Bool} {e' : Option ℕ} (h : CtxInv e s)
    (hpins : ∀ x, pins x = s.contextPins x + points e' x) (hb : b = false) :
    CtxInv e' { s with pins, bug := b } :=
  ⟨h.refs, hpins, hb, h.ready, h.owned, h.sound, h.entries⟩

theorem pin (h : CtxInv none s) (c : ℕ) (w : Waited) :
    (s.pin c w).1 ≠ 0 ∧ CtxInv none (s.pin c w).2 ∨
      (s.pin c w).1 = 0 ∧ CtxInv (some c) (s.pin c w).2 ∧
        (s.pin c w).2 = { s.wait w with pins := Function.update s.pins c (s.pins c + 1) } := by
  unfold CtxState.pin
  split
  · refine .inl ⟨?_, h⟩
    show (Errno.eBusy : ℤ) ≠ 0
    decide
  · have hw := h.waits (Waits.wait w)
    have hsame : (s.wait w).pins = s.pins := by rw [(Waits.wait w).same]
    dsimp only
    split
    · rename_i hret
      exact .inl ⟨hret, hw⟩
    · refine .inr ⟨rfl, hw.setPins (fun x => ?_) hw.bug, by rw [hsame]⟩
      have hx := hw.pins x
      rw [points_none, Nat.add_zero] at hx
      by_cases hxc : x = c
      · subst hxc
        rw [Function.update_self, points_self, hx]
      · rw [Function.update_of_ne hxc, points_some_of_ne hxc, hx]
        rfl

theorem unpin (h : CtxInv (some c) s) : CtxInv none (s.unpin c) := by
  have hc := h.pins c
  rw [points_self] at hc
  refine h.setPins (fun x => ?_) ?_
  · have hx := h.pins x
    by_cases hxc : x = c
    · subst hxc
      rw [Function.update_self, hc]
      rfl
    · rw [Function.update_of_ne hxc, hx, points_some_of_ne hxc]
      rfl
  · show (s.bug || decide (s.pins c = 0)) = false
    rw [h.bug, Bool.false_or, decide_eq_false_iff_not]
    omega

end CtxInv

/-! ### do_switch -/

/-- A context that is registered or the default one. -/
def CtxState.Held (s : CtxState) (c : ℕ) : Prop := 0 < s.registered c + points s.usedDefault c

theorem Waits.held (hw : Waits s s') : s'.Held c ↔ s.Held c := by
  rw [hw.same]
  exact Iff.rfl

theorem Waits.lastContext (hw : Waits s s') : s'.lastContext = s.lastContext := by rw [hw.same]

theorem switched_ctx : ((s.switched c).ctx x).filePriv = (s.ctx x).filePriv ∧
    ((s.switched c).ctx x).id = (s.ctx x).id := by
  unfold CtxState.switched CtxState.reference
  by_cases hxc : x = c
  · subst hxc
    simp
  · simp [hxc]

theorem switched_registered : (s.switched c).registered x = s.registered x := by
  unfold CtxState.registered
  rw [switched_ctx.1, switched_ctx.2]
  rfl

/-- The ring has gone from one context to another. -/
theorem CtxInv.switched {fromCtx : Option ℕ} {pins : ℕ → ℕ} {b : Bool} (h : CtxInv (some c) s)
    (hheld : s.Held c) (hfrom : s.lastContext rcs = fromCtx)
    (hpins : ∀ x, pins x + points fromCtx x = s.pins x) (hb : b = false) :
    CtxInv none
      (({ s with pins, bug := b, refs := s.refs.putIf fromCtx } : CtxState).switched c) := by
  have hlast (x : ℕ) := pointers_update (p := s.lastContext) (Finset.mem_univ rcs) (some c) x
  have hnone (x : ℕ) := pointers_update (p := s.lastContext) (Finset.mem_univ rcs) none x
  rw [hfrom] at hlast hnone
  have hput : Balanced (s.refs.putIf fromCtx)
      ({ s with lastContext := Function.update s.lastContext rcs none }).contextRefs := by
    refine h.refs.putIf fun x => ?_
    show s.contextRefs x = s.registered x + pointers Finset.univ (Function.update s.lastContext rcs
      none) x + s.requests x + points s.usedDefault x + points fromCtx x
    have := hnone x
    rw [points_none] at this
    unfold CtxState.contextRefs
    omega
  refine ⟨hput.get ?_ fun x => ?_, fun x => ?_, hb, h.ready, fun f id x hx => ?_, h.sound,
    h.entries⟩
  · show 0 < s.registered c + _ + s.requests c + points s.usedDefault c
    have := hheld
    unfold CtxState.Held at this
    omega
  · show CtxState.registered _ x + pointers Finset.univ (Function.update s.lastContext rcs
        (some c)) x + s.requests x + points s.usedDefault x =
      s.registered x + pointers Finset.univ (Function.update s.lastContext rcs none) x +
        s.requests x + points s.usedDefault x + points (some c) x
    rw [switched_registered]
    show s.registered x + _ + _ + _ = _
    have := hlast x
    have := hnone x
    rw [points_none] at this
    omega
  · show pins x = pointers Finset.univ (Function.update s.lastContext rcs (some c)) x +
      points s.usedDefault x + points none x
    have := hlast x
    have := hpins x
    have := h.pins x
    unfold CtxState.contextPins at this
    rw [points_none]
    omega
  · rw [switched_ctx.1, switched_ctx.2]
    exact h.owned f id x hx

theorem CtxInv.handOver {fromCtx : Option ℕ} {o : SwitchOutcome} (h : CtxInv (some c) s)
    (hheld : s.Held c) (hfrom : s.lastContext rcs = fromCtx)
    (hreq : fromCtx ≠ none → o.request.ret = 0) :
    CtxInv none (s.handOver fromCtx c o).2 := by
  cases fromCtx with
  | none => exact h.switched hheld hfrom (fun x => rfl) h.bug
  | some d =>
    have hret := hreq (by simp)
    have hwaits := (Waits.wait (s := s) o.request).trans
      (Waits.addRequest (s := s.wait o.request) rcs o.request.ret)
    have hok : ((s.wait o.request).addRequest rcs o.request.ret).1 = 0 := by
      simp [CtxState.addRequest, hret]
    unfold CtxState.handOver
    generalize (s.wait o.request).addRequest rcs o.request.ret = r at hwaits hok
    obtain ⟨ret, t⟩ := r
    obtain rfl : ret = 0 := hok
    dsimp only at hwaits
    have ht := h.waits hwaits
    have hlast : t.lastContext rcs = some d := by rw [hwaits.lastContext, hfrom]
    have hd := ht.pins d
    have hpos : 0 < t.contextPins d := by
      have : 0 < pointers Finset.univ t.lastContext d :=
        pointers_pos.mpr ⟨rcs, Finset.mem_univ rcs, hlast⟩
      unfold CtxState.contextPins
      omega
    refine ht.switched (hwaits.held.mpr hheld) hlast (fun x => ?_) ?_
    · show Function.update t.pins d (t.pins d - 1) x + points (some d) x = t.pins x
      by_cases hxd : x = d
      · subst hxd
        rw [Function.update_self, points_self]
        omega
      · rw [Function.update_of_ne hxd, points_some_of_ne hxd, Nat.add_zero]
    · show (t.bug || decide (t.pins d = 0)) = false
      rw [ht.bug, Bool.false_or, decide_eq_false_iff_not]
      omega

theorem bugOn_false : s.bugOn false = s := by simp [CtxState.bugOn]

theorem CtxInv.lastContext_pinned (h : CtxInv none s) :
    ((s.lastContext rcs).any fun d => decide (s.pins d = 0)) = false := by
  cases hlast : s.lastContext rcs with
  | none => rfl
  | some d =>
    have hpos : 0 < pointers Finset.univ s.lastContext d :=
      pointers_pos.mpr ⟨rcs, Finset.mem_univ rcs, hlast⟩
    have hd := h.pins d
    unfold CtxState.contextPins at hd
    rw [Option.any_some, decide_eq_false_iff_not]
    omega

/-- Whether a switch to `c` replaces a context and comes to its request. -/
def CtxState.Replaces (s : CtxState) (c : ℕ) (o : SwitchOutcome) : Prop :=
  s.lastContext rcs ≠ none ∧ s.lastContext rcs ≠ some c ∧ s.pins c ≠ maxPinCount ∧
    o.pin.ret = 0 ∧ o.domain.ret = 0 ∧ o.mi.ret = 0

instance (s : CtxState) (c : ℕ) (o : SwitchOutcome) : Decidable (s.Replaces c o) :=
  inferInstanceAs (Decidable (_ ∧ _))

theorem CtxInv.doSwitch {o : SwitchOutcome} (h : CtxInv none s) (hheld : s.Held c)
    (hreq : s.Replaces c o → o.request.ret = 0) : CtxInv none (s.doSwitch c o).2 := by
  unfold CtxState.doSwitch
  dsimp only
  rw [h.lastContext_pinned, bugOn_false]
  split
  · exact h
  · rename_i hne
    have hpin := h.pin c o.pin
    have hpinOk : (s.pin c o.pin).1 = 0 → s.pins c ≠ maxPinCount ∧ o.pin.ret = 0 := by
      unfold CtxState.pin
      split
      · exact fun he => absurd (show Errno.eBusy = 0 from he) (by decide)
      · rename_i hmax
        split
        · exact fun he => ⟨hmax, he⟩
        · rename_i hret
          exact fun _ => ⟨hmax, not_not.mp hret⟩
    generalize s.pin c o.pin = r at hpin hpinOk
    obtain ⟨ret, t⟩ := r
    dsimp only at hpin hpinOk ⊢
    obtain ⟨hret, ht⟩ | ⟨hret, ht, hsame⟩ := hpin
    · rw [if_pos hret]
      exact ht
    · rw [if_neg (not_not.mpr hret)]
      have hdomain := ht.waits (Waits.wait o.domain)
      split
      · exact hdomain.unpin
      · rename_i hdomainRet
        have hmi := hdomain.waits (Waits.wait o.mi)
        split
        · exact hmi.unpin
        · rename_i hmiRet
          have hwaits : Waits t ((t.wait o.domain).wait o.mi) :=
            (Waits.wait o.domain).trans (Waits.wait o.mi)
          have hlast : t.lastContext = s.lastContext := by
            rw [hsame]
            exact (Waits.wait o.pin).lastContext
          have htHeld : t.Held c := by
            rw [hsame]
            exact (Waits.wait (s := s) o.pin).held.mpr hheld
          refine hmi.handOver (hwaits.held.mpr htHeld) ?_ fun hsome => ?_
          · rw [hwaits.lastContext, hlast]
          · obtain ⟨hmax, hpinRet⟩ := hpinOk hret
            exact hreq ⟨hsome, hne, hmax, hpinRet, not_not.mp hdomainRet, not_not.mp hmiRet⟩

end GfxDrm.HwContext
