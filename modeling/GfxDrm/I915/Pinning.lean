import GfxDrm.I915.Held

/-! What pinning and binding do to the pin counts during a reservation. -/

namespace GfxDrm.I915

open Hoare Errno

/-! ### The flags word -/

theorem ExecObject2.has_or_self {e : ExecObject2} {flag : BitVec 64} (h : flag ≠ 0) :
    ({ e with flags := e.flags ||| flag } : ExecObject2).has flag = true := by
  have : (e.flags ||| flag) &&& flag = flag := by
    ext i hi
    simpa using Or.inr
  unfold has
  rw [this]
  simpa using h

theorem ExecObject2.has_or_of_disjoint {e : ExecObject2} {flag flag' : BitVec 64}
    (h : flag &&& flag' = 0) :
    ({ e with flags := e.flags ||| flag } : ExecObject2).has flag' = e.has flag' := by
  have : (e.flags ||| flag) &&& flag' = e.flags &&& flag' := by
    rw [BitVec.and_comm, BitVec.and_or_distrib_left, BitVec.and_comm flag' flag, h]
    simp [BitVec.and_comm]
  simp [has, this]

/-- A flag is set in the entry of `o`. -/
def World.mark (w : World) (o : ObjId) (flag : BitVec 64) : World :=
  w.setExec (w.bo o).execEntry { w.entry o with flags := (w.entry o).flags ||| flag }

theorem World.entry_mark_self (w : World) (o : ObjId) (flag : BitVec 64) :
    (w.mark o flag).entry o = { w.entry o with flags := (w.entry o).flags ||| flag } :=
  Function.update_self ..

theorem World.entry_mark_of_ne {w : World} {o x : ObjId} {flag : BitVec 64}
    (h : (w.bo x).execEntry ≠ (w.bo o).execEntry) : (w.mark o flag).entry x = w.entry x :=
  Function.update_of_ne h ..

namespace Held

variable {L : List ObjId} {s w w' : World} {C C' P P' F : Finset ObjId} {o : ObjId}

/-- Everything of one object but its fence register may change, and its entry with it. -/
theorem touch (hw : Held L s C P F w) (hdev : w'.dev = w.dev) (hfence : w'.fence = w.fence)
    (hother : ∀ x ≠ o, (w'.bo x).core = (w.bo x).core)
    (hexec : (w'.bo o).execEntry = (w.bo o).execEntry)
    (hreg : (w'.bo o).fenceReg = (w.bo o).fenceReg)
    (hP : ∀ x ≠ o, x ∈ P' ↔ x ∈ P) (hPF : F ⊆ P') (hC : ∀ x ≠ o, x ∈ C → x ∈ C')
    (hpin : s.dev.contextObj o = false →
      (w'.bo o).pinCount = (s.bo o).pinCount + if o ∈ P' then 1 else 0)
    (hunbound : (w'.bo o).gttSpace = false → (w.bo o).fenceReg = none ∧ (w'.bo o).gttOffset = 0)
    (hbound : o ∈ P' → (w'.bo o).gttSpace = true ∧ o ∈ L)
    (hfrom : s.dev.contextObj o = false → (w'.bo o).gttSpace = true →
      (s.bo o).gttSpace = true ∨ o ∈ P' ∨ o ∈ C')
    (hfenceFrom : s.dev.contextObj o = false → (s.bo o).gttSpace = false →
      (w.bo o).fenceReg ≠ none → o ∈ F ∨ o ∈ C')
    (hhasPin : ∀ x ∈ L, (w'.entry x).has execObjectHasPin =
      ((s.entry x).has execObjectHasPin || decide (x ∈ P')))
    (hhasFence : ∀ x ∈ L,
      (w'.entry x).has execObjectHasFence = (w.entry x).has execObjectHasFence) :
    Held L s C' P' F w' := by
  have hrest : ∀ x, (w'.bo x).fenceReg = (w.bo x).fenceReg ∧
      (w'.bo x).execEntry = (w.bo x).execEntry := by
    intro x
    by_cases hx : x = o
    · exact hx ▸ ⟨hreg, hexec⟩
    · have h := hother x hx
      simp only [Bo.core, Prod.mk.injEq] at h
      exact h.2.2.2
  have hne : ∀ x ≠ o, (w'.bo x).pinCount = (w.bo x).pinCount ∧
      (w'.bo x).gttSpace = (w.bo x).gttSpace ∧ (w'.bo x).gttOffset = (w.bo x).gttOffset := by
    intro x hx
    have h := hother x hx
    simp only [Bo.core, Prod.mk.injEq] at h
    exact ⟨h.1, h.2.1, h.2.2.1⟩
  constructor
  case dev => exact hdev.trans hw.dev
  case execEntry => exact fun x hx => (hrest x).2.trans (hw.execEntry x hx)
  case pinCount =>
    intro x hx
    by_cases hxo : x = o
    · exact hxo ▸ hpin (hxo ▸ hx)
    · rw [(hne x hxo).1, hw.pinCount x hx]
      simp [hP x hxo]
  case fencePinned => simpa [hrest, hfence] using hw.fencePinned
  case fenceFree => simpa [hrest, hfence] using hw.fenceFree
  case linked => simpa [hrest, hfence] using hw.linked
  case unbound =>
    intro x hx hu
    rw [(hrest x).1]
    by_cases hxo : x = o
    · subst hxo
      exact hunbound hu
    · rw [(hne x hxo).2.1] at hu
      rw [(hne x hxo).2.2]
      exact hw.unbound x hx hu
  case bound =>
    intro x hx
    by_cases hxo : x = o
    · exact hxo ▸ (hbound (hxo ▸ hx)).1
    · exact (hne x hxo).2.1.trans (hw.bound x ((hP x hxo).mp hx))
  case fenced => exact fun x hx => ⟨hPF hx, (hrest x).1 ▸ (hw.fenced x hx).2⟩
  case listed =>
    intro x hx
    by_cases hxo : x = o
    · exact hxo ▸ (hbound (hxo ▸ hx)).2
    · exact hw.listed x ((hP x hxo).mp hx)
  case boundFrom =>
    intro x hx hb
    by_cases hxo : x = o
    · subst hxo
      exact hfrom hx hb
    · rw [(hne x hxo).2.1] at hb
      exact (hw.boundFrom x hx hb).imp_right (Or.imp (hP x hxo).mpr (hC x hxo))
  case fenceFrom =>
    intro x hx hs hf
    rw [(hrest x).1] at hf
    by_cases hxo : x = o
    · subst hxo
      exact hfenceFrom hx hs hf
    · exact (hw.fenceFrom x hx hs hf).imp_right (hC x hxo)
  case hasPin => exact hhasPin
  case hasFence => exact fun x hx => (hhasFence x hx).trans (hw.hasFence x hx)

/-- An object without pin and fence loses its GTT space. -/
theorem release (hw : Held L s C P F w) (hP : o ∉ P) (hr : (w.bo o).fenceReg = none) {b : Bo}
    (hb : b.core = { w.bo o with gttSpace := false, gttOffset := 0 }.core) :
    Held L s C P F (w.setBo o b) := by
  have hself := w.setBo_self o b
  simp only [Bo.core, Prod.mk.injEq] at hb
  obtain ⟨hpin, hgtt, hoff, hreg, hexec⟩ := hb
  refine hw.touch (o := o) rfl rfl (fun x hx => by rw [w.setBo_of_ne _ _ _ hx])
    (by rw [hself, hexec]) (by rw [hself, hreg]) (fun _ _ => Iff.rfl)
    (fun x hx => (hw.fenced x hx).1) (fun _ _ => id) (fun hx => ?_) (fun _ => ⟨hr, by rw [hself, hoff]⟩)
    (fun h => absurd h hP) (fun _ h => by simp [hgtt] at h) (fun _ _ h => absurd hr h)
    (fun x hx => ?_) fun x _ => ?_
  · rw [hself, hpin]
    exact hw.pinCount o hx
  · rw [entry_setBo hexec]
    exact hw.hasPin x hx
  · rw [entry_setBo hexec]

/-- The object at work is bound. -/
theorem place (hw : Held L s C P F w) {b : Bo} {x : BitVec 32}
    (hb : b.core = { w.bo o with gttSpace := true, gttOffset := x }.core) :
    Held L s (insert o C) P F (w.setBo o b) := by
  have hself := w.setBo_self o b
  simp only [Bo.core, Prod.mk.injEq] at hb
  obtain ⟨hpin, hgtt, hoff, hreg, hexec⟩ := hb
  have ho : o ∈ insert o C := Finset.mem_insert_self o C
  refine hw.touch (o := o) rfl rfl (fun x hx => by rw [w.setBo_of_ne _ _ _ hx])
    (by rw [hself, hexec]) (by rw [hself, hreg]) (fun _ _ => Iff.rfl)
    (fun x hx => (hw.fenced x hx).1) (fun _ _ => Finset.mem_insert_of_mem) (fun hx => ?_)
    (fun h => by simp [hgtt] at h) (fun h => ⟨by rw [hself, hgtt], hw.listed o h⟩)
    (fun _ _ => Or.inr (Or.inr ho)) (fun _ _ _ => Or.inr ho) (fun x hx => ?_) fun x _ => ?_
  · rw [hself, hpin]
    exact hw.pinCount o hx
  · rw [entry_setBo hexec]
    exact hw.hasPin x hx
  · rw [entry_setBo hexec]

/-- What is pinned has a pin count that shows it. -/
theorem pinCount_ne_zero (hw : Held L s C P F w) (hs : s.Consistent) (hl : Listed L s)
    (ho : o ∈ P) : (w.bo o).pinCount ≠ 0 := by
  have hplain := hl.plain o (hw.listed o ho)
  have hle := hs.pins o hplain
  rw [hw.pinCount o hplain, if_pos ho]
  unfold maxPinCount at hle
  bv_omega

theorem unbind (hs : s.Consistent) (hl : Listed L s) :
    Keeps (Held L s C P F) (unbind o) := by
  refine triple_getBo fun b => Triple.ite (fun _ => Triple.pure fun w hw => hw.1) fun _ => ?_
  refine Triple.ite (fun _ => Triple.pure fun w hw => hw.1) fun hpin w hw => ?_
  obtain ⟨hw, rfl⟩ := hw
  have hP : o ∉ P := fun h => hpin (hw.pinCount_ne_zero hs hl h)
  have hF : o ∉ F := fun h => hP (hw.fenced o h).1
  refine (?_ : Triple (Held L s C P F) _ fun _ => Held L s C P F) w hw
  refine Triple.bind (keeps Quiet.finishGpu) fun ret => Triple.ite (fun _ => Keeps.pure) fun _ => ?_
  refine Triple.bind (keeps Quiet.finishGtt) fun _ => Triple.bind (putFence hF) fun ret => ?_
  refine Triple.ite (fun _ => Triple.pure fun w hw => hw.1) fun hret w hw => ?_
  exact hw.1.release hP (hw.2 (not_not.mp hret)) rfl

theorem unbindVictims (hs : s.Consistent) (hl : Listed L s) (l : List ObjId) (ret : ℤ) :
    Keeps (Held L s C P F) (unbindVictims l ret) := by
  induction l generalizing ret with
  | nil => exact Keeps.pure
  | cons o l ih =>
    refine Triple.bind (Triple.ite (fun _ => unbind hs hl) fun _ => Keeps.pure) fun ret => ?_
    exact Triple.bind (keeps_same unreference_same) fun _ => ih ret

theorem evictSomething (hs : s.Consistent) (hl : Listed L s) :
    Keeps (Held L s C P F) evictSomething := by
  refine Triple.bind (keeps Quiet.callOut) fun e => Triple.bind Keeps.get fun w => ?_
  refine Triple.ite (fun _ => Keeps.pure) fun _ => ?_
  exact Triple.bind (keeps_same (Frame.forM fun _ _ => reference_same))
    fun _ => unbindVictims hs hl _ _

theorem searchFree (hs : s.Consistent) (hl : Listed L s) (misses : ℕ) :
    Keeps (Held L s C P F) (searchFree misses) := by
  induction misses with
  | zero => exact Keeps.pure
  | succ misses ih =>
    refine Triple.bind (evictSomething hs hl) fun ret => ?_
    exact Triple.ite (fun _ => ih) fun _ => Keeps.pure

/-- An object the pass did not find bound has no fence before the pass gives it one. -/
theorem fenceReg_eq_none (hw : Held L s ∅ P F w) (hF : o ∉ F)
    (hplain : s.dev.contextObj o = false) (hu : (s.bo o).gttSpace = false) :
    (w.bo o).fenceReg = none := by
  by_contra h
  simpa [hF] using hw.fenceFrom o hplain hu h

/-- What is left of a pass that has bound `o` and is about to pin it. -/
def Placed (L : List ObjId) (s : World) (P F : Finset ObjId) (o : ObjId) (w : World) : Prop :=
  Held L s {o} P F w ∧ (w.bo o).gttSpace = true ∧
    ((s.bo o).gttSpace = false → (w.bo o).fenceReg = none)

theorem bindToGtt (hs : s.Consistent) (hl : Listed L s) (ho : o ∈ L) (hP : o ∉ P) :
    Triple (Held L s ∅ P F) (bindToGtt o) fun ret w =>
      (ret ≠ 0 → Held L s ∅ P F w) ∧ (ret = 0 → Placed L s P F o w) := by
  have hfail : ∀ (ret : ℤ), ret ≠ 0 → ∀ w, Held L s ∅ P F w →
      (ret ≠ 0 → Held L s ∅ P F w) ∧ (ret = 0 → Placed L s P F o w) :=
    fun ret h w hw => ⟨fun _ => hw, fun h' => absurd h' h⟩
  refine Triple.bind (keeps Quiet.callOut) fun e => ?_
  refine Triple.ite (fun h => Triple.pure (hfail _ h)) fun _ => ?_
  refine Triple.bind (searchFree hs hl _) fun ret => ?_
  refine Triple.ite (fun h => Triple.pure (hfail _ h)) fun _ => ?_
  refine Triple.bind (keeps Quiet.callOut) fun e => ?_
  refine Triple.ite (fun h => Triple.pure (hfail _ h)) fun _ w hw => ?_
  have hself := w.setBo_self o
    { w.bo o with gttSpace := true, gttOffset := e.start, mapAndFenceable := e.mapAndFenceable }
  refine ⟨fun h => absurd rfl h, fun _ => ⟨hw.place rfl, congrArg Bo.gttSpace hself, fun hu => ?_⟩⟩
  have hF : o ∉ F := fun h => hP (hw.fenced o h).1
  exact (congrArg Bo.fenceReg hself).trans (hw.fenceReg_eq_none hF (hl.plain o ho) hu)

/-- Entries of the list stay apart, so a flag set for one object shows in no other entry. -/
theorem entry_mark (hw : Held L s C P F w) (hl : Listed L s) (ho : o ∈ L) {x : ObjId}
    (hx : x ∈ L) (hne : x ≠ o) (flag : BitVec 64) : (w.mark o flag).entry x = w.entry x := by
  refine World.entry_mark_of_ne fun h => hne (hl.entries x hx o ho ?_)
  rwa [hw.execEntry x (hl.plain x hx), hw.execEntry o (hl.plain o ho)] at h

/-- The pin is taken and the entry marked. -/
theorem pinned (h : Placed L s P F o w) (hl : Listed L s) (ho : o ∈ L) (hP : o ∉ P) {b : Bo}
    (hb : b.core = { w.bo o with pinCount := (w.bo o).pinCount + 1 }.core) :
    Held L s ∅ (insert o P) F ((w.setBo o b).mark o execObjectHasPin) := by
  obtain ⟨hw, hbound, hnone⟩ := h
  have hself := w.setBo_self o b
  simp only [Bo.core, Prod.mk.injEq] at hb
  obtain ⟨hpin, hgtt, -, hreg, hexec⟩ := hb
  have hmem : o ∈ insert o P := Finset.mem_insert_self o P
  have hentry : ∀ x, (w.setBo o b).entry x = w.entry x := entry_setBo hexec
  have hne : ∀ x ∈ L, x ≠ o →
      ((w.setBo o b).mark o execObjectHasPin).entry x = w.entry x := by
    intro x hx hxo
    rw [← hentry x]
    refine World.entry_mark_of_ne ?_
    rw [hself, hexec, w.setBo_of_ne _ _ _ hxo, hw.execEntry x (hl.plain x hx),
      hw.execEntry o (hl.plain o ho)]
    exact fun h => hxo (hl.entries x hx o ho h)
  have hbo : ∀ x, ((w.setBo o b).mark o execObjectHasPin).bo x = (w.setBo o b).bo x := fun _ => rfl
  refine hw.touch (o := o) rfl rfl (fun x hx => by rw [hbo, w.setBo_of_ne _ _ _ hx])
    (by rw [hbo, hself, hexec]) (by rw [hbo, hself, hreg])
    (fun x hx => by simp [hx]) (fun x hx => Finset.mem_insert_of_mem (hw.fenced x hx).1)
    (fun x hx h => absurd (Finset.mem_singleton.mp h) hx) (fun hx => ?_) (fun h => ?_)
    (fun _ => ⟨by rw [hbo, hself, hgtt, hbound], ho⟩) (fun _ _ => Or.inr (Or.inl hmem))
    (fun _ hu h => absurd (hnone hu) h) (fun x hx => ?_) fun x hx => ?_
  · rw [hbo, hself, hpin, hw.pinCount o hx]
    simp [hP]
  · rw [hbo, hself, hgtt, hbound] at h
    cases h
  · by_cases hxo : x = o
    · subst hxo
      rw [World.entry_mark_self, ExecObject2.has_or_self (by decide)]
      simp
    · rw [hne x hx hxo, hw.hasPin x hx]
      simp [hxo]
  · by_cases hxo : x = o
    · subst hxo
      rw [World.entry_mark_self, ExecObject2.has_or_of_disjoint (by decide), hentry]
    · rw [hne x hx hxo]

theorem placed_of_bound (hw : Held L s ∅ P F w) (hl : Listed L s) (ho : o ∈ L) (hP : o ∉ P)
    (hb : (w.bo o).gttSpace = true) : Placed L s P F o w :=
  ⟨hw.weaken (Finset.empty_subset _), hb,
    hw.fenceReg_eq_none (fun h => hP (hw.fenced o h).1) (hl.plain o ho)⟩

theorem pin (hs : s.Consistent) (hl : Listed L s) (ho : o ∈ L) (hP : o ∉ P)
    (alignment : BitVec 32) (mapAndFenceable : Bool) :
    Triple (Held L s ∅ P F) (pin o alignment mapAndFenceable) fun ret w =>
      (ret ≠ 0 → Held L s ∅ P F w) ∧
      (ret = 0 → Held L s ∅ (insert o P) F (w.mark o execObjectHasPin)) := by
  have hfail : ∀ (ret : ℤ), ret ≠ 0 → ∀ w, Held L s ∅ P F w →
      (ret ≠ 0 → Held L s ∅ P F w) ∧
      (ret = 0 → Held L s ∅ (insert o P) F (w.mark o execObjectHasPin)) :=
    fun ret h w hw => ⟨fun _ => hw, fun h' => absurd h' h⟩
  refine Triple.bind (keeps Quiet.getBo) fun b => ?_
  refine Triple.ite (fun _ => Triple.pure (hfail _ (by decide))) fun _ => ?_
  refine Triple.bind (Triple.ite (fun _ => unbind hs hl) fun _ => Keeps.pure) fun ret => ?_
  refine Triple.ite (fun h => Triple.pure (hfail _ h)) fun _ => triple_getBo fun b => ?_
  refine Triple.bind (Q := fun ret w => (ret ≠ 0 → Held L s ∅ P F w) ∧
    (ret = 0 → Placed L s P F o w)) (Triple.ite (fun hb => ?_) fun _ => ?_) fun ret => ?_
  · refine Triple.pure fun w hw => ⟨fun h => absurd rfl h, fun _ => ?_⟩
    exact hw.1.placed_of_bound hl ho hP (hw.2 ▸ hb)
  · exact (bindToGtt hs hl ho hP).pre fun w hw => hw.1
  · refine Triple.ite (fun h => Triple.pure fun w hw => hfail _ h w (hw.1 h)) fun hret w hw => ?_
    exact ⟨fun h => absurd rfl h, fun _ => pinned (hw.2 (not_not.mp hret)) hl ho hP rfl⟩

/-- The work on a pinned object without a fence is done. -/
theorem unfenced (hw : Held L s {o} P F w) (hP : o ∈ P) (hr : (w.bo o).fenceReg = none) :
    Held L s ∅ P F w where
  __ := hw
  boundFrom x hx hb := by
    rcases hw.boundFrom x hx hb with h | h | h
    · exact Or.inl h
    · exact Or.inr (Or.inl h)
    · exact Or.inr (Or.inl (Finset.mem_singleton.mp h ▸ hP))
  fenceFrom x hx hs hne := by
    refine (hw.fenceFrom x hx hs hne).imp_right fun h => ?_
    rw [Finset.mem_singleton.mp h] at hne
    exact absurd hr hne

/-- The fence of a pinned object is pinned and the entry marked. -/
theorem fencePin (hw : Held L s {o} P F w) (hl : Listed L s) (hP : o ∈ P) (hF : o ∉ F) {reg : ℕ}
    (hr : (w.bo o).fenceReg = some reg) :
    Held L s ∅ P (insert o F) ((w.setFence reg
      { w.fence reg with pinCount := (w.fence reg).pinCount + 1 }).mark o execObjectHasFence) := by
  set v := w.setFence reg { w.fence reg with pinCount := (w.fence reg).pinCount + 1 } with hv
  have hbo : ∀ x, (v.mark o execObjectHasFence).bo x = w.bo x := fun _ => rfl
  have hobj : ∀ i, ((v.mark o execObjectHasFence).fence i).obj = (w.fence i).obj := by
    intro i
    by_cases hi : i = reg
    · subst hi
      exact (congrArg FenceReg.obj (w.setFence_self i
        { w.fence i with pinCount := (w.fence i).pinCount + 1 }) :)
    · exact congrArg FenceReg.obj (w.setFence_of_ne _ _ _ hi)
  have hreg : ((v.mark o execObjectHasFence).fence reg).pinCount = (w.fence reg).pinCount + 1 :=
    congrArg FenceReg.pinCount (w.setFence_self _ _)
  have hpins : ∀ i ≠ reg, ((v.mark o execObjectHasFence).fence i).pinCount =
      (w.fence i).pinCount := fun i hi => congrArg FenceReg.pinCount (w.setFence_of_ne _ _ _ hi)
  have hother : ∀ x ∈ F, (w.bo x).fenceReg ≠ some reg := by
    intro x hx h
    have : x = o := Option.some.inj (((hw.linked x reg).mp h).symm.trans ((hw.linked o reg).mp hr))
    exact hF (this ▸ hx)
  have hentry : ∀ x ∈ L, x ≠ o → (v.mark o execObjectHasFence).entry x = w.entry x :=
    fun x hx hxo => entry_mark hw hl (hw.listed o hP) hx hxo _
  have hself : (v.mark o execObjectHasFence).entry o =
      { w.entry o with flags := (w.entry o).flags ||| execObjectHasFence } :=
    World.entry_mark_self v o _
  constructor
  case dev => exact hw.dev
  case execEntry => exact hw.execEntry
  case pinCount => exact hw.pinCount
  case fencePinned =>
    intro x hx i hi
    by_cases hxo : x = o
    · obtain rfl : reg = i := Option.some.inj (hr.symm.trans (hxo ▸ hi))
      rw [hreg, hw.fenceFree reg hother]
    · have hxF := (Finset.mem_insert.mp hx).resolve_left hxo
      rw [hpins i fun h => hother x hxF (h ▸ hi)]
      exact hw.fencePinned x hxF i hi
  case fenceFree =>
    intro i hi
    have hne : i ≠ reg := fun h => hi o (Finset.mem_insert_self o F) (h ▸ hr)
    rw [hpins i hne]
    exact hw.fenceFree i fun x hx => hi x (Finset.mem_insert_of_mem hx)
  case linked => exact fun x i => by rw [hobj]; exact hw.linked x i
  case unbound => exact hw.unbound
  case bound => exact hw.bound
  case fenced =>
    intro x hx
    rcases Finset.mem_insert.mp hx with h | h
    · subst h
      exact ⟨hP, by simp [hbo, hr]⟩
    · exact hw.fenced x h
  case listed => exact hw.listed
  case boundFrom =>
    intro x hx hb
    rcases hw.boundFrom x hx hb with h | h | h
    · exact Or.inl h
    · exact Or.inr (Or.inl h)
    · exact Or.inr (Or.inl (Finset.mem_singleton.mp h ▸ hP))
  case fenceFrom =>
    intro x hx hs hne
    left
    rcases hw.fenceFrom x hx hs hne with h | h
    · exact Finset.mem_insert_of_mem h
    · exact Finset.mem_singleton.mp h ▸ Finset.mem_insert_self o F
  case hasPin =>
    intro x hx
    rw [← hw.hasPin x hx]
    by_cases hxo : x = o
    · rw [hxo, hself, ExecObject2.has_or_of_disjoint (by decide)]
    · rw [hentry x hx hxo]
  case hasFence =>
    intro x hx
    by_cases hxo : x = o
    · subst hxo
      rw [hself, ExecObject2.has_or_self (by decide)]
      simp
    · rw [hentry x hx hxo, hw.hasFence x hx]
      simp [hxo]

theorem pinFence (hl : Listed L s) (hP : o ∈ P) (hF : o ∉ F) :
    Triple (Held L s {o} P F) (pinFence o) fun pinned w =>
      if pinned then Held L s ∅ P (insert o F) (w.mark o execObjectHasFence)
      else Held L s ∅ P F w := by
  refine triple_get fun v hv => ?_
  split
  · exact Triple.pure fun w hw => hw ▸ hv.unfenced hP ‹_›
  · rintro w rfl
    exact hv.fencePin hl hP hF ‹_›

theorem reserveFence (hs : s.Consistent) (hl : Listed L s) (hP : o ∈ P) (hF : o ∉ F) :
    Triple (Held L s ∅ P F) (reserveFence o) fun _ w => ∃ F', Held L s ∅ P F' w := by
  refine triple_get fun v hv => Triple.ite (fun _ => ?_) fun _ => Triple.pure fun w hw => ?_
  · have hget : Triple (fun w => w = v) _ _ :=
      (getFence (L := L) (C := ∅) (P := P) hs hF).pre fun w hw => hw ▸ ⟨hv, fun _ => hv.bound o hP⟩
    refine hget.bind fun ret => Triple.ite (fun h => Triple.pure fun w hw => ⟨F, hw.1 h⟩) fun h => ?_
    refine Triple.bind ((pinFence hl hP hF).pre fun w hw => hw.2 (not_not.mp h)) fun pinned => ?_
    refine Triple.bind (Q := fun _ w => ∃ F', Held L s ∅ P F' w) ?_ fun _ => ?_
    · cases pinned
      · exact fun w hw => ⟨F, hw⟩
      · exact fun w hw => ⟨insert o F, hw⟩
    · rintro w ⟨F', hw⟩
      exact ⟨F', hw.congr (World.Same.setBo rfl)⟩
  · exact hw ▸ ⟨F, hv⟩

/-- A reserved object is pinned, or the pass fails with nothing changed. -/
theorem reserveObject (hs : s.Consistent) (hl : Listed L s) (ho : o ∈ L) (hP : o ∉ P) :
    Triple (Held L s ∅ P F) (reserveObject o) fun _ w =>
      ∃ P' ⊆ insert o P, ∃ F', Held L s ∅ P' F' w := by
  have hsub : P ⊆ insert o P := Finset.subset_insert o P
  have hF : ∀ w, Held L s ∅ P F w → o ∉ F := fun w hw h => hP (hw.fenced o h).1
  refine triple_get fun v hv => ?_
  have hpin : Triple (fun w => w = v) _ _ :=
    (pin hs hl ho hP ((v.entry o).alignment.setWidth 32) (v.needMappable o)).pre
      fun w hw => hw ▸ hv
  refine hpin.bind fun ret => Triple.ite (fun h => Triple.pure fun w hw => ?_) fun h => ?_
  · exact ⟨P, hsub, F, hw.1 h⟩
  refine Triple.bind (Q := fun _ => Held L s ∅ (insert o P) F) ?_ fun _ => ?_
  · exact fun w hw => hw.2 (not_not.mp h)
  refine Triple.bind (reserveFence hs hl (Finset.mem_insert_self o P) (hF v hv)) fun ret => ?_
  refine Triple.ite (fun _ => Triple.pure fun w hw => ⟨insert o P, subset_rfl, hw⟩) fun _ => ?_
  rintro w ⟨F', hw⟩
  exact ⟨insert o P, subset_rfl, F', hw.congr (Quiet.reserveMappings.same w)⟩

end Held

end GfxDrm.I915
