import GfxDrm.Fence.Ops

/-! What survives the single changes of the state survives the functions made of them. -/

namespace GfxDrm.Fence
open Hoare Errno

variable {dev : FenceDev} {I P Q : FenceState → Prop} {o : ℕ}

/-- A condition that waiting leaves alone. -/
structure Quiet (P : FenceState → Prop) : Prop where
  coming : ∀ {w} c, P w → P { w with coming := c }
  retire : ∀ {w} o, P w → P (w.retire o)

/-- A condition that the changes of other objects leave alone, and those that the object of
the call may be hit by. -/
structure Kept (dev : FenceDev) (I : FenceState → Prop) : Prop extends Quiet I where
  hung : ∀ {w}, I w → I { w with hung := true }
  touch : ∀ {w o r}, I w → (w.bo o).fenceReg = some r → I (w.touch r)
  clear : ∀ {w r}, I w → (w.reg r).obj = none → I (w.clearFence r)
  refresh : ∀ {w o r}, I w → (w.bo o).fenceReg = some r → (w.bo o).tiled = true →
    I (w.attachFence dev o r)
  disable : ∀ {w o r}, I w → (w.bo o).fenceReg = some r → (w.bo o).tiled = false →
    I (w.detachFence o r)
  /-- An object that is not pinned may lose its fence and its place. -/
  drop : ∀ {w o r}, I w → (w.bo o).fenceReg = some r → (w.bo o).pinCount = 0 →
    I (w.detachFence o r)
  unplace : ∀ {w o}, I w → (w.bo o).fenceReg = none → (w.bo o).pinCount = 0 →
    I (w.setBo o (w.bo o).unbound)

theorem Quiet.and (hP : Quiet P) (hQ : Quiet Q) : Quiet fun w => P w ∧ Q w where
  coming c h := ⟨hP.coming c h.1, hQ.coming c h.2⟩
  retire x h := ⟨hP.retire x h.1, hQ.retire x h.2⟩

@[simp] theorem FenceState.setBo_bo_self (w : FenceState) (o : ℕ) (b : FenceBo) :
    (w.setBo o b).bo o = b := Function.update_self ..

theorem FenceState.setBo_bo (w : FenceState) (o : ℕ) (b : FenceBo) (x : ℕ) :
    (w.setBo o b).bo x = if x = o then b else w.bo x := Function.update_apply ..

theorem unpinFence_of_none {w : FenceState} (h : (w.bo o).fenceReg = none) :
    (unpinFence o w).2 = w := by
  simp [unpinFence, run_modify, h]

theorem unpinFence_of_some {w : FenceState} {r : ℕ} (h : (w.bo o).fenceReg = some r) :
    (unpinFence o w).2 = w.setReg r { w.reg r with pinCount := (w.reg r).pinCount - 1 } := by
  simp [unpinFence, run_modify, h]

variable {A : FenceBo → Prop}

/-- What does not depend on the use by the GPU is left alone by waiting. -/
theorem quiet_bo (hA : ∀ b, A b → A b.idle) :
    Quiet fun w => A (w.bo o) where
  coming _ h := h
  retire {w} x h := by
    show A ((w.setBo x _).bo o)
    rw [FenceState.setBo_bo]
    split
    · rename_i hx
      exact hA _ (hx ▸ h)
    · exact h

theorem quiet_reg {A : (ℕ → FenceReg) → Prop} : Quiet fun w => A w.reg where
  coming _ h := h
  retire _ h := h

namespace Quiet

theorem callOut (h : Quiet P) : Keeps P callOut := by
  intro w hw
  have hfold : ∀ (l : List ℕ) v, P v → P (l.foldl FenceState.retire v) := by
    intro l
    induction l with
    | nil => exact fun _ hv => hv
    | cons x l ih => exact fun v hv => ih _ (h.retire x hv)
  exact hfold _ _ (h.coming _ hw)

theorem ret (h : Quiet P) : Keeps P (Outcome.ret <$> Fence.callOut) :=
  fun w hw => h.callOut w hw

theorem waitFence (h : Quiet P) : Keeps P (waitFence o) := by
  refine Triple.bind (Q := fun _ => P) (fun w hw => hw) fun b => ?_
  have hwait : Keeps P (if b.fenceBusy then Outcome.ret <$> Fence.callOut else pure 0) :=
    Triple.ite (fun _ => h.ret) fun _ => Keeps.pure
  refine hwait.bind fun ret => Triple.ite (fun _ => Keeps.pure) fun _ => ?_
  exact Keeps.bind (Keeps.modify fun w => h.retire o) fun _ => Keeps.pure

end Quiet

theorem triple_getBo {α : Type} {k : FenceBo → FenceM α} {R : α → FenceState → Prop}
    (h : ∀ b, Triple (fun w => P w ∧ w.bo o = b) (k b) R) : Triple P (getBo o >>= k) R :=
  fun w hw => h (w.bo o) w ⟨hw, rfl⟩

theorem triple_get {α : Type} {k : FenceState → FenceM α} {R : α → FenceState → Prop}
    (h : ∀ v, Triple (fun w => P w ∧ w = v) (k v) R) : Triple P (get >>= k) R :=
  fun w hw => h w w ⟨hw, rfl⟩

/-- The caller goes on only where the call returned zero. -/
theorem triple_guard {m : FenceM ℤ} {k : FenceM ℤ} {R : ℤ → FenceState → Prop}
    (hm : Triple P m fun ret w => if ret = 0 then Q w else I w) (hk : Triple Q k R)
    (herr : ∀ ret w, ret ≠ 0 → I w → R ret w) :
    Triple P (m >>= fun ret => if ret ≠ 0 then pure ret else k) R := by
  refine hm.bind fun ret => Triple.ite (fun hret => Triple.pure fun w hw => ?_) fun hret => ?_
  · exact herr ret w hret (by simpa [hret] using hw)
  · exact hk.pre fun w hw => by simpa [not_not.mp hret] using hw

theorem Quiet.wait {m : FenceM ℤ} (h : Keeps P m) :
    Triple P m fun ret w => if ret = 0 then P w else P w :=
  h.post fun _ _ hw => by simpa using hw

theorem putFence_spec (hP : Quiet P) (hfree : ∀ w, P w → (w.bo o).fenceReg = none → Q w)
    (hdrop : ∀ w r, P w → (w.bo o).fenceReg = some r → Q (w.detachFence o r)) :
    Triple P (putFence dev o) fun ret w => if ret = 0 then Q w else P w := by
  refine triple_guard (Quiet.wait hP.waitFence) ?_ fun ret w hret hw => by simpa [hret] using hw
  refine triple_getBo fun b => ?_
  cases hb : b.fenceReg with
  | none => exact Triple.pure fun w hw => hfree w hw.1 (hw.2 ▸ hb)
  | some r =>
    intro w hw
    have hlost : (w.setBo o (w.bo o).fenceLost).detachFence o r = w.detachFence o r := by
      simp [FenceState.detachFence, FenceState.setBo, FenceBo.fenceLost]
    show Q ((w.setBo o (w.bo o).fenceLost).detachFence o r)
    rw [hlost]
    exact hdrop w r hw.1 (hw.2 ▸ hb)

theorem Kept.and (hP : Kept dev P) (hQ : Kept dev Q) : Kept dev fun w => P w ∧ Q w where
  toQuiet := hP.toQuiet.and hQ.toQuiet
  hung h := ⟨hP.hung h.1, hQ.hung h.2⟩
  touch h hr := ⟨hP.touch h.1 hr, hQ.touch h.2 hr⟩
  clear h hr := ⟨hP.clear h.1 hr, hQ.clear h.2 hr⟩
  refresh h hr ht := ⟨hP.refresh h.1 hr ht, hQ.refresh h.2 hr ht⟩
  disable h hr ht := ⟨hP.disable h.1 hr ht, hQ.disable h.2 hr ht⟩
  drop h hr hp := ⟨hP.drop h.1 hr hp, hQ.drop h.2 hr hp⟩
  unplace h hr hp := ⟨hP.unplace h.1 hr hp, hQ.unplace h.2 hr hp⟩

/-- What depends on neither the fence nor the use by the GPU and bears an unbinding. -/
theorem kept_bo (hidle : ∀ b, A b → A b.idle)
    (hfence : ∀ b f, A b → A { b with fenceReg := f, fenceDirty := false })
    (hunbound : ∀ b, A b → b.pinCount = 0 → A b.unbound) : Kept dev fun w => A (w.bo o) := by
  have hset : ∀ {w : FenceState} {x b}, A (w.bo o) → (A (w.bo x) → A b) →
      A ((w.setBo x b).bo o) := by
    intro w x b h hb
    rw [FenceState.setBo_bo]
    split
    · rename_i hx
      exact hb (hx ▸ h)
    · exact h
  exact {
    toQuiet := quiet_bo hidle
    hung := id
    touch := fun h _ => h
    clear := fun h _ => h
    refresh := fun h _ _ => hset h (hfence _ _)
    disable := fun h _ _ => hset h (hfence _ _)
    drop := fun h _ _ => hset h (hfence _ _)
    unplace := fun h _ hp => hset h fun hb => hunbound _ hb hp }

namespace Kept

theorem hang (hI : Kept dev I) : Triple I Fence.hang fun ret w => ret ≠ 0 ∧ I w :=
  fun _ hw => ⟨(by decide : eInval ≠ 0), hI.hung hw⟩

theorem unbind (hI : Kept dev I) :
    Triple I (unbind dev o) fun ret w => I w ∧ (ret = 0 → (w.bo o).gttSpace = none) := by
  refine triple_getBo fun b => Triple.ite (fun hb => ?_) fun _ => Triple.ite (fun _ => ?_) fun hpin => ?_
  · exact Triple.pure fun w hw => ⟨hw.1, fun _ => hw.2 ▸ hb⟩
  · exact Triple.pure fun w hw => ⟨hw.1, fun h => absurd h (by decide)⟩
  have hP : Quiet fun w => I w ∧ (w.bo o).pinCount = 0 :=
    hI.toQuiet.and (quiet_bo (A := fun b => b.pinCount = 0) fun _ h => h)
  have hcall : Triple (fun w => I w ∧ w.bo o = b) callOut
      fun _ w => I w ∧ (w.bo o).pinCount = 0 :=
    hP.callOut.pre fun w hw => ⟨hw.1, hw.2 ▸ not_not.mp hpin⟩
  refine hcall.bind fun e => Triple.ite (fun he => Triple.pure fun w hw => ?_) fun _ => ?_
  · exact ⟨hw.1, fun h => absurd h he⟩
  have hput : Triple _ (putFence dev o) _ := putFence_spec (o := o)
    (Q := fun w => I w ∧ (w.bo o).fenceReg = none ∧ (w.bo o).pinCount = 0) hP
    (fun w hw hr => ⟨hw.1, hr, hw.2⟩)
    fun w r hw hr => ⟨hI.drop hw.1 hr hw.2, by simp [FenceState.detachFence, FenceState.setReg],
      by simpa [FenceState.detachFence, FenceState.setReg] using hw.2⟩
  refine triple_guard hput ?_ fun ret w hret hw => ⟨hw.1, fun h => absurd h hret⟩
  refine Triple.bind (Triple.modify (Q := fun _ w => I w ∧ (w.bo o).gttSpace = none)
    fun w hw => ⟨hI.unplace hw.1 hw.2.1 hw.2.2, by simp [FenceBo.unbound]⟩) fun _ => ?_
  exact Triple.pure fun w hw => ⟨hw.1, fun _ => hw.2⟩

theorem unbindVictims (hI : Kept dev I) (l : List ℕ) : Keeps I (unbindVictims dev l) := by
  induction l with
  | nil => exact Keeps.pure
  | cons x l ih =>
    have hunbind : Keeps I (Fence.unbind dev x) := hI.unbind.post fun _ _ h => h.1
    exact hunbind.bind fun ret => Triple.ite (fun _ => Keeps.pure) fun _ => ih

theorem evictSomething (hI : Kept dev I) : Keeps I (evictSomething dev) := by
  refine hI.callOut.bind fun e => triple_get fun v => Triple.pre ?_ fun w hw => hw.1
  exact Triple.ite (fun _ => Keeps.pure) fun _ => hI.unbindVictims _

theorem searchFree (hI : Kept dev I) (size alignment gttMax misses : ℕ) :
    Triple I (searchFree dev size alignment gttMax misses) fun found w =>
      I w ∧ match found with
        | .ok n => n.fits size alignment gttMax = true
        | .error ret => ret ≠ 0 := by
  have hnospc : eNospc ≠ 0 := by decide
  induction misses with
  | zero => exact Triple.pure fun w hw => ⟨hw, hnospc⟩
  | succ misses ih =>
    refine Triple.bind hI.callOut fun e => ?_
    cases e.node with
    | some n =>
      refine Triple.ite (fun hfit => ?_) fun _ => Triple.pure fun w hw => ⟨hw, hnospc⟩
      exact Triple.pure fun w hw => ⟨hw, hfit⟩
    | none =>
      refine Triple.bind hI.evictSomething fun ret => Triple.ite (fun hret => ?_) fun _ => ih
      exact Triple.pure fun w hw => ⟨hw, hret⟩

end Kept

/-! ### Binding and pinning -/

theorem FenceDev.getGttSize_fits {size k : ℕ} {tiled : Bool} (h : dev.getGttSize size tiled = some k)
    (hsize : size < 2 ^ 32) : size ≤ k := by
  unfold FenceDev.getGttSize at h
  rw [Nat.mod_eq_of_lt hsize] at h
  split at h
  · exact (Option.some.inj h).le
  · obtain ⟨n, hn, hmin⟩ := dev.minFenceSize_pow
    rw [hmin] at h
    exact (growGttSize_some h hn).choose_spec.2.2.2

theorem FenceDev.getGttAlignment_pow {size a : ℕ} {tiled fenced : Bool}
    (h : dev.getGttAlignment size tiled fenced = some a) : ∃ m, a = 2 ^ m := by
  unfold FenceDev.getGttAlignment at h
  split at h
  · exact ⟨12, (Option.some.inj h).symm⟩
  · rename_i hc
    have htiled : tiled = true := by
      by_contra hne
      exact hc (.inr (.inr (by simpa using hne)))
    subst htiled
    obtain ⟨m, hm, -⟩ := FenceDev.getGttSize_tiled (by omega) h
    exact ⟨m, hm⟩

/-- A place found for a mappable and fenceable object makes it so. -/
theorem FenceBo.bound_mapAndFenceable {b : FenceBo} {g : Region} {n : Node} {alignment : ℕ}
    (hg : dev.region b = some g) (halign : alignment &&& (g.fenceAlignment - 1) = 0)
    (hsize : b.size ≤ dev.mappableEnd)
    (hfit : n.fits g.fenceSize alignment dev.mappableEnd = true) :
    (b.bound dev g n).mapAndFenceable = true := by
  simp only [FenceDev.region, Option.bind_eq_bind, Option.bind_eq_some_iff, Option.pure_def,
    Option.some.injEq] at hg
  obtain ⟨fs, hfs, fa, hfa, ua, -, rfl⟩ := hg
  simp only [Node.fits, Bool.and_eq_true, decide_eq_true_eq] at hfit
  obtain ⟨⟨hn, hmod⟩, hend⟩ := hfit
  obtain ⟨m, rfl⟩ := FenceDev.getGttAlignment_pow hfa
  have htotal : b.size < 2 ^ 32 := by
    have := dev.mappable_le
    have := dev.total_lt
    omega
  have hfits : b.size ≤ fs := FenceDev.getGttSize_fits hfs htotal
  simp only [Nat.and_two_pow_sub_one_eq_mod] at halign
  have hdvd : 2 ^ m ∣ n.start :=
    (Nat.dvd_of_mod_eq_zero halign).trans (Nat.dvd_of_mod_eq_zero hmod)
  simp only [FenceBo.bound, Nat.and_two_pow_sub_one_eq_mod, Bool.and_eq_true, decide_eq_true_eq]
  exact ⟨by omega, hn, Nat.mod_eq_zero_of_dvd hdvd⟩

variable {J : FenceState → Prop}

/-- Where the call succeeds the object is bound, and as asked for. -/
theorem Kept.bindToGtt (hI : Kept dev I) (alignment misses : ℕ) (maf : Bool)
    (hplace : ∀ w g n, I w → (w.bo o).gttSpace = none → dev.region (w.bo o) = some g →
      (maf = true → ((w.bo o).bound dev g n).mapAndFenceable = true) →
      J (w.setBo o ((w.bo o).bound dev g n))) :
    Triple (fun w => I w ∧ (w.bo o).gttSpace = none) (bindToGtt dev o alignment maf misses)
      fun ret w => if ret = 0 then J w else I w := by
  refine triple_getBo fun b => ?_
  cases hg : dev.region b with
  | none => exact hI.hang.conseq (fun w hw => hw.1.1) fun ret w hw => by simpa [hw.1] using hw.2
  | some g =>
    have hP : Kept dev fun w => I w ∧ (w.bo o).gttSpace = none ∧ (w.bo o).size = b.size ∧
        dev.region (w.bo o) = some g :=
      hI.and (kept_bo (A := fun c => c.gttSpace = none ∧ c.size = b.size ∧ dev.region c = some g)
        (fun _ h => h) (fun _ _ h => h) fun _ h _ => ⟨rfl, h.2⟩)
    refine Triple.pre (P := fun w => I w ∧ (w.bo o).gttSpace = none ∧ (w.bo o).size = b.size ∧
      dev.region (w.bo o) = some g) ?_ fun w hw => ⟨hw.1.1, hw.1.2, hw.2 ▸ rfl, hw.2 ▸ hg⟩
    refine Triple.ite (fun _ => Triple.pure fun w hw => hw.1) fun hal => ?_
    refine Triple.ite (fun _ => Triple.pure fun w hw => hw.1) fun hsize => ?_
    refine Triple.bind hP.callOut fun e => Triple.ite (fun he => Triple.pure fun w hw => ?_) fun _ => ?_
    · simpa [he] using hw.1
    refine Triple.bind (hP.searchFree _ _ _ _) fun found => ?_
    cases found with
    | error ret => exact Triple.pure fun w hw => by simpa [hw.2] using hw.1.1
    | ok n =>
      have hcall : Keeps (fun w => (I w ∧ (w.bo o).gttSpace = none ∧ (w.bo o).size = b.size ∧
          dev.region (w.bo o) = some g) ∧ n.fits (if maf then g.fenceSize else b.size) (g.alignment alignment maf)
            (if maf then dev.mappableEnd else dev.total) = true) callOut :=
        fun w hw => ⟨hP.callOut w hw.1, hw.2⟩
      refine Triple.bind hcall fun e => Triple.ite (fun he => Triple.pure fun w hw => ?_) fun _ => ?_
      · simpa [he] using hw.1.1
      refine Triple.bind (Triple.modify (Q := fun _ => J) fun w hw => ?_) fun _ =>
        Triple.pure fun w hw => hw
      refine hplace w g n hw.1.1 hw.1.2.1 hw.1.2.2.2 fun hmaf => ?_
      subst hmaf
      exact FenceBo.bound_mapAndFenceable hw.1.2.2.2 (by simpa using hal)
        (hw.1.2.2.1 ▸ not_lt.mp hsize) hw.2

/-- A pinned object is bound and as asked for, and `pin_count` has gone up. -/
theorem Kept.pin (hI : Kept dev I) (alignment misses : ℕ) (maf : Bool)
    (hplace : ∀ w g n, I w → (w.bo o).gttSpace = none → dev.region (w.bo o) = some g →
      I (w.setBo o ((w.bo o).bound dev g n)))
    (hpin : ∀ w, I w → (w.bo o).gttSpace ≠ none → (maf = true → (w.bo o).mapAndFenceable = true) →
      (w.bo o).pinCount ≠ maxPinCount →
      J (w.setBo o { w.bo o with pinCount := (w.bo o).pinCount + 1 })) :
    Triple I (pin dev o alignment maf misses) fun ret w => if ret = 0 then J w else I w := by
  refine triple_getBo fun b => Triple.ite (fun _ => ?_) fun hmax => ?_
  · exact Triple.pure fun w hw => hw.1
  have hP : Kept dev fun w => I w ∧ (w.bo o).pinCount ≠ maxPinCount :=
    hI.and (kept_bo (A := fun c => c.pinCount ≠ maxPinCount) (fun _ h => h) (fun _ _ h => h)
      fun _ h _ => h)
  have hfit : Triple (fun w => I w ∧ w.bo o = b)
      (if b.gttSpace.isSome && b.misplaced alignment maf then Fence.unbind dev o else pure 0)
      fun ret w => if ret = 0 then (I w ∧ (w.bo o).pinCount ≠ maxPinCount) ∧
        ((w.bo o).gttSpace ≠ none → maf = true → (w.bo o).mapAndFenceable = true) else I w := by
    refine Triple.ite (fun _ => ?_) fun hb => Triple.pure fun w hw => ?_
    · refine hP.unbind.conseq (fun w hw => ⟨hw.1, hw.2 ▸ hmax⟩) fun ret w hw => ?_
      split
      · exact ⟨hw.1, fun h => absurd (hw.2 ‹_›) h⟩
      · exact hw.1.1
    · obtain ⟨hw, rfl⟩ := hw
      refine ⟨⟨hw, hmax⟩, fun hbound hmaf => ?_⟩
      have hsome : (w.bo o).gttSpace.isSome = true := Option.isSome_iff_ne_none.mpr hbound
      simp only [hsome, Bool.true_and, FenceBo.misplaced, hmaf, Bool.or_eq_true, not_or] at hb
      simpa using hb.2
  refine triple_guard hfit ?_ fun ret w hret hw => by simpa [hret] using hw
  refine triple_getBo fun c => ?_
  have hbind : Triple (fun w => ((I w ∧ (w.bo o).pinCount ≠ maxPinCount) ∧
        ((w.bo o).gttSpace ≠ none → maf = true → (w.bo o).mapAndFenceable = true)) ∧ w.bo o = c)
      (if c.gttSpace.isSome then pure 0 else Fence.bindToGtt dev o alignment maf misses)
      fun ret w => if ret = 0 then I w ∧ (w.bo o).gttSpace ≠ none ∧
        (maf = true → (w.bo o).mapAndFenceable = true) ∧ (w.bo o).pinCount ≠ maxPinCount
        else I w := by
    refine Triple.ite (fun hc => Triple.pure fun w hw => ?_) fun hc => ?_
    · have hbound : (w.bo o).gttSpace ≠ none := by
        rw [hw.2]
        exact Option.isSome_iff_ne_none.mp hc
      exact ⟨hw.1.1.1, hbound, hw.1.2 hbound, hw.1.1.2⟩
    · have h := hP.bindToGtt (o := o) (J := fun w => I w ∧ (w.bo o).gttSpace ≠ none ∧
        (maf = true → (w.bo o).mapAndFenceable = true) ∧ (w.bo o).pinCount ≠ maxPinCount)
        alignment misses maf fun w g n hw hnone hg hmaf => by
          refine ⟨hplace w g n hw.1 hnone hg, ?_, ?_, ?_⟩
          · simp [FenceBo.bound]
          · simpa using hmaf
          · simpa [FenceBo.bound] using hw.2
      refine h.conseq (fun w hw => ⟨hw.1.1, by simpa [hw.2] using hc⟩) fun ret w hw => ?_
      split
      · simpa [*] using hw
      · exact (by simpa [*] using hw : I w ∧ _).1
  refine triple_guard hbind ?_ fun ret w hret hw => by simpa [hret] using hw
  refine Triple.bind (Triple.modify (Q := fun _ => J) fun w hw => ?_) fun _ => Triple.pure fun w hw => hw
  exact hpin w hw.1 hw.2.1 hw.2.2.1 hw.2.2.2

/-! ### Fences -/

theorem FenceState.findFenceReg_some {w : FenceState} {r : ℕ} (h : w.findFenceReg dev = some r) :
    (w.reg r).obj = none ∨ (w.reg r).pinCount = 0 := by
  simp only [FenceState.findFenceReg] at h
  split at h
  · rename_i x hx
    obtain rfl := Option.some.inj h
    exact .inl (by simpa using List.find?_some hx)
  · split at h
    · exact .inr (by simpa using List.find?_some h)
    · cases h

/-- An untiled object has no register, and the register of any other is up to date. -/
def FenceBo.Fenced (b : FenceBo) : Prop :=
  (b.fenceReg = none → b.tiled = false) ∧ (b.fenceReg ≠ none → b.fenceDirty = false)

@[simp] theorem FenceState.attachFence_bo_self (w : FenceState) (o r : ℕ) :
    (w.attachFence dev o r).bo o = { w.bo o with fenceReg := some r, fenceDirty := false } := by
  simp [FenceState.attachFence, FenceState.setReg]

@[simp] theorem FenceState.detachFence_bo_self (w : FenceState) (o r : ℕ) :
    (w.detachFence o r).bo o = { w.bo o with fenceReg := none, fenceDirty := false } := by
  simp [FenceState.detachFence, FenceState.setReg]

/-- The state just before the register is written. -/
def Taking (I : FenceState → Prop) (A : FenceBo → Prop) (o r : ℕ) (w : FenceState) : Prop :=
  ∃ v, I v ∧ A (v.bo o) ∧ (v.bo o).fenceReg = none ∧ (v.bo o).tiled = true ∧
    ((v.reg r).obj = none ∨ (v.reg r).pinCount = 0) ∧ w = v.loseFence r

theorem Quiet.stealFence (hI : Quiet I) (hA : ∀ b, A b → A b.idle) {r : ℕ} :
    Triple (fun w => I w ∧ A (w.bo o) ∧ (w.bo o).fenceReg = none ∧ (w.bo o).tiled = true ∧
      ((w.reg r).obj = none ∨ (w.reg r).pinCount = 0)) (stealFence r)
      fun ret w => if ret = 0 then Taking I A o r w else I w := by
  have hP : Quiet fun w => I w ∧ A (w.bo o) ∧ (w.bo o).fenceReg = none ∧ (w.bo o).tiled = true ∧
      ((w.reg r).obj = none ∨ (w.reg r).pinCount = 0) :=
    hI.and ((quiet_bo hA).and ((quiet_bo (A := fun b => b.fenceReg = none) fun _ h => h).and
      ((quiet_bo (A := fun b => b.tiled = true) fun _ h => h).and
        (quiet_reg (A := fun reg => (reg r).obj = none ∨ (reg r).pinCount = 0)))))
  refine triple_get fun v => Triple.pre ?_ fun w hw => hw.1
  refine triple_guard (Quiet.wait ?_) ?_ fun ret w hret hw => by simpa [hret] using hw.1
  · cases (v.reg r).obj with
    | none => exact Keeps.pure
    | some old => exact hP.waitFence
  · refine Triple.bind (Triple.modify (Q := fun _ => Taking I A o r) fun w hw => ?_) fun _ =>
      Triple.pure fun w hw => hw
    exact ⟨w, hw.1, hw.2.1, hw.2.2.1, hw.2.2.2.1, hw.2.2.2.2, rfl⟩

/-- Where a caller may give an object that is fit for it (`A`) a register, the call keeps the
invariant. -/
theorem Kept.getFence (hI : Kept dev I) (hA : ∀ b, A b → A b.idle)
    (htake : ∀ w r, I w → A (w.bo o) → (w.bo o).fenceReg = none → (w.bo o).tiled = true →
      ((w.reg r).obj = none ∨ (w.reg r).pinCount = 0) → I ((w.loseFence r).attachFence dev o r)) :
    Triple (fun w => I w ∧ A (w.bo o)) (getFence dev o)
      fun ret w => I w ∧ (ret = 0 → (w.bo o).Fenced) := by
  refine triple_getBo fun b => ?_
  have hP : Quiet fun w => I w ∧ A (w.bo o) ∧ (w.bo o).fenceReg = b.fenceReg ∧
      (w.bo o).fenceDirty = b.fenceDirty ∧ (w.bo o).tiled = b.tiled :=
    hI.toQuiet.and ((quiet_bo hA).and (quiet_bo (A := fun c => c.fenceReg = b.fenceReg ∧
      c.fenceDirty = b.fenceDirty ∧ c.tiled = b.tiled) fun _ h => h))
  refine triple_guard (Q := fun w => I w ∧ A (w.bo o) ∧ (w.bo o).fenceReg = b.fenceReg ∧
    (w.bo o).fenceDirty = b.fenceDirty ∧ (w.bo o).tiled = b.tiled) (I := I) ?_ ?_
    fun ret w hret hw => ⟨hw, fun h => absurd h hret⟩
  · refine Triple.ite (fun _ => ?_) fun _ => Triple.pure fun w hw => ?_
    · refine hP.waitFence.conseq (fun w hw => ⟨hw.1.1, hw.1.2, ?_⟩) fun ret w hw => ?_
      · simp [hw.2]
      · split
        · exact hw
        · exact hw.1
    · exact ⟨hw.1.1, hw.1.2, by simp [hw.2]⟩
  cases hr : b.fenceReg with
  | some r =>
    refine Triple.ite (fun hdirty => ?_) fun hclean => ?_
    · refine Triple.bind (Triple.modify (Q := fun _ w => I w ∧ (w.bo o).Fenced) fun w hw => ?_)
        fun _ => Triple.pure fun w hw => ⟨hw.1, fun _ => hw.2⟩
      by_cases ht : b.tiled = true
      · rw [if_pos ht]
        exact ⟨hI.refresh hw.1 hw.2.2.1 (hw.2.2.2.2.trans ht),
          by simp [FenceBo.Fenced]⟩
      · have ht : b.tiled = false := by simpa using ht
        rw [if_neg (by simp [ht])]
        refine ⟨hI.disable hw.1 hw.2.2.1 (hw.2.2.2.2.trans ht), ?_⟩
        simpa [FenceBo.Fenced, FenceBo.tiled] using hw.2.2.2.2.trans ht
    · refine Triple.bind (Triple.modify (Q := fun _ w => I w ∧ (w.bo o).Fenced) fun w hw => ?_)
        fun _ => Triple.pure fun w hw => ⟨hw.1, fun _ => hw.2⟩
      refine ⟨hI.touch hw.1 hw.2.2.1, fun h => ?_, fun _ => ?_⟩
      · exact absurd (h.symm.trans hw.2.2.1) (by simp)
      · exact hw.2.2.2.1.trans (by simpa using hclean)
  | none =>
    refine Triple.ite (fun ht => ?_) fun ht => Triple.pure fun w hw => ⟨hw.1, fun _ => ?_⟩
    · refine triple_get fun v => ?_
      cases hv : v.findFenceReg dev with
      | none => exact Triple.pure fun w hw => ⟨hw.1.1, fun h => absurd h (by decide)⟩
      | some r =>
        refine triple_guard ((hI.toQuiet.stealFence (o := o) (r := r) hA).pre fun w hw => ?_) ?_
          fun ret w hret hw => ⟨hw, fun h => absurd h hret⟩
        · obtain ⟨hw, rfl⟩ := hw
          exact ⟨hw.1, hw.2.1, hw.2.2.1, hw.2.2.2.2.trans ht,
            FenceState.findFenceReg_some hv⟩
        · refine Triple.bind (Triple.modify (Q := fun _ w => I w ∧ (w.bo o).Fenced) ?_)
            fun _ => Triple.pure fun w hw => ⟨hw.1, fun _ => hw.2⟩
          rintro w ⟨v, hv, hAv, hreg, htiled, hfree, rfl⟩
          exact ⟨htake v r hv hAv hreg htiled hfree, by simp [FenceBo.Fenced]⟩
    · refine ⟨fun _ => hw.2.2.2.2.trans (by simpa using ht), fun h => ?_⟩
      exact absurd hw.2.2.1 h

theorem Kept.restoreFences (hI : Kept dev I)
    (hobj : ∀ w o r, I w → (w.reg r).obj = some o → (w.bo o).fenceReg = some r) :
    Keeps I (restoreFences dev) := by
  refine Keeps.forM fun r _ => triple_get fun v => ?_
  cases hr : (v.reg r).obj with
  | none => exact Triple.modify fun w hw => hI.clear hw.1 (hw.2 ▸ hr)
  | some o =>
    refine Triple.modify fun w hw => ?_
    obtain ⟨hw, rfl⟩ := hw
    split
    · exact hI.refresh hw (hobj w o r hw hr) ‹_›
    · rename_i ht
      exact hI.disable hw (hobj w o r hw hr) (by simpa using ht)

/-! ### Tiling -/

def FenceBo.remapped (b : FenceBo) (mapAndFenceable : Bool) : FenceBo :=
  { b with mapAndFenceable := mapAndFenceable }

theorem Kept.setTiling (hI : Kept dev I) {tiling stride : BitVec 32} (hIJ : ∀ w, I w → J w)
    (hfalse : ∀ w, I w → I (w.setBo o ((w.bo o).remapped false))) (hretile : ∀ w m, I w →
      (m = false ∨ (w.bo o).gttSpace = none ∨ dev.mapAndFenceable (w.bo o) tiling = some m) →
      J (w.setBo o (((w.bo o).remapped m).retiled tiling stride))) :
    Triple I (setTiling dev o tiling stride) fun _ => J := by
  refine triple_getBo fun b => Triple.ite (fun _ => ?_) fun _ => Triple.pure fun w hw => hIJ w hw.1
  refine triple_getBo fun c => ?_
  cases hm : dev.mapAndFenceable c tiling with
  | none => exact hI.hang.conseq (fun w hw => hw.1.1) fun ret w hw => hIJ w hw.2
  | some m =>
    cases m with
    | true =>
      rintro w ⟨⟨hw, -⟩, rfl⟩
      have h := hretile w true hw (.inr (.inr hm))
      have hset : (w.setBo o ((w.bo o).remapped true)).setBo o
          (((w.setBo o ((w.bo o).remapped true)).bo o).retiled tiling stride) =
          w.setBo o (((w.bo o).remapped true).retiled tiling stride) := by
        simp [FenceState.setBo]
      exact (congrArg J hset).mpr h
    | false =>
      have hmodify : Triple (fun w => (I w ∧ w.bo o = b) ∧ w.bo o = c)
          (modifyBo o fun b => { b with mapAndFenceable := false })
          fun _ w => I w ∧ (w.bo o).mapAndFenceable = false :=
        Triple.modify fun w hw => ⟨hfalse w hw.1.1, by simp⟩
      refine Triple.bind hmodify fun _ => ?_
      refine triple_guard (Q := fun w => I w ∧
        ((w.bo o).mapAndFenceable = false ∨ (w.bo o).gttSpace = none)) (I := I) ?_ ?_
        fun ret w _ hw => hIJ w hw
      · refine triple_getBo fun d => ?_
        cases dev.getGttAlignment d.size (tiling != tilingNone) false with
        | none => exact hI.hang.conseq (fun w hw => hw.1.1) fun ret w hw => by simpa [hw.1] using hw.2
        | some a =>
          refine Triple.ite (fun _ => ?_) fun _ => Triple.pure fun w hw => ⟨hw.1.1, .inl hw.1.2⟩
          refine hI.unbind.conseq (fun w hw => hw.1.1) fun ret w hw => ?_
          split
          · exact ⟨hw.1, .inr (hw.2 ‹_›)⟩
          · exact hw.1
      · refine Triple.bind (Triple.modify (Q := fun _ => J) fun w hw => ?_) fun _ =>
          Triple.pure fun w hw => hw
        have hself : (w.bo o).remapped (w.bo o).mapAndFenceable = w.bo o := rfl
        have h := hretile w (w.bo o).mapAndFenceable hw.1 (hw.2.imp id .inl)
        rwa [hself] at h

end GfxDrm.Fence
