import GfxDrm.I915.Pinning

/-! `i915_gem_execbuffer_reserve` gives back the pins it takes. -/

namespace GfxDrm.I915

open Hoare Errno

/-- Objects that handles can name and fence registers are pinned as before. -/
structure PinsKept (w w' : World) : Prop where
  objects : ∀ o, w.dev.contextObj o = false → (w'.bo o).pinCount = (w.bo o).pinCount
  fences : ∀ i, (w'.fence i).pinCount = (w.fence i).pinCount

theorem PinsKept.trans {w w' w'' : World} (h : PinsKept w w') (h' : PinsKept w' w'')
    (hdev : w'.dev = w.dev) : PinsKept w w'' where
  objects o ho := (h'.objects o (hdev ▸ ho)).trans (h.objects o ho)
  fences i := (h'.fences i).trans (h.fences i)

variable {L l : List ObjId} {s w w₁ : World} {C P F A B D : Finset ObjId} {o : ObjId}

/-! ### The two loops of a pass -/

namespace Held

theorem pinBound (hs : s.Consistent) (hl : Listed L s) (hsub : l ⊆ L) (hnd : l.Nodup) :
    Triple (fun w => ∃ P F, Held L s ∅ P F w ∧ ∀ x ∈ l, x ∉ P) (pinBound l)
      fun _ w => ∃ P F, Held L s ∅ P F w := by
  induction l with
  | nil => exact Triple.pure fun w ⟨P, F, hw, _⟩ => ⟨P, F, hw⟩
  | cons o l ih =>
    obtain ⟨ho, hnd⟩ := List.nodup_cons.mp hnd
    have hoL : o ∈ L := hsub List.mem_cons_self
    refine triple_get fun v ⟨P, F, hv, hP⟩ => ?_
    have hoP : o ∉ P := hP o List.mem_cons_self
    have hlP : ∀ x ∈ l, x ∉ P := fun x hx => hP x (List.mem_cons_of_mem o hx)
    refine Triple.bind (Q := fun _ w => ∃ P F, Held L s ∅ P F w ∧ ∀ x ∈ l, x ∉ P) ?_ fun ret => ?_
    · refine Triple.ite (fun _ => Triple.pure fun w hw => hw ▸ ⟨P, F, hv, hlP⟩) fun _ => ?_
      refine Triple.ite (fun _ => ?_) fun _ => ?_
      · exact (unbind hs hl (P := P) (F := F)).conseq (fun w hw => hw ▸ hv)
          fun _ w hw => ⟨P, F, hw, hlP⟩
      · refine (reserveObject hs hl hoL hoP (F := F)).conseq (fun w hw => hw ▸ hv) ?_
        rintro _ w ⟨P', hP', F', hw⟩
        refine ⟨P', F', hw, fun x hx h => ?_⟩
        rcases Finset.mem_insert.mp (hP' h) with rfl | h
        · exact ho hx
        · exact hlP x hx h
    · refine Triple.ite (fun _ => Triple.pure fun w ⟨P, F, hw, _⟩ => ⟨P, F, hw⟩) fun _ => ?_
      exact ih (fun x hx => hsub (List.mem_cons_of_mem o hx)) hnd

theorem bindFresh (hs : s.Consistent) (hl : Listed L s) (hsub : l ⊆ L) :
    Keeps (fun w => ∃ P F, Held L s ∅ P F w) (bindFresh l) := by
  induction l with
  | nil => exact Keeps.pure
  | cons o l ih =>
    refine triple_get fun v ⟨P, F, hv⟩ => ?_
    refine Triple.bind (Q := fun _ w => ∃ P F, Held L s ∅ P F w) ?_ fun ret => ?_
    · refine Triple.ite (fun _ => Triple.pure fun w hw => hw ▸ ⟨P, F, hv⟩) fun hb => ?_
      have hP : o ∉ P := fun h => hb (hv.bound o h)
      refine (reserveObject hs hl (hsub List.mem_cons_self) hP (F := F)).conseq
        (fun w hw => hw ▸ hv) ?_
      rintro _ w ⟨P', -, F', hw⟩
      exact ⟨P', F', hw⟩
    · exact Triple.ite (fun _ => Keeps.pure) fun _ => ih fun x hx => hsub (List.mem_cons_of_mem o hx)

/-- Whatever a pass meets, what it has pinned by the label `err` is recorded. -/
theorem pinObjects (hs : s.Consistent) (hl : Listed L s) :
    ∃ P F, Held L s ∅ P F (pinObjects L s).2 := by
  refine (?_ : Triple (fun w => w = s) (I915.pinObjects L) fun _ w => ∃ P F, Held L s ∅ P F w) s rfl
  refine Triple.bind (Q := fun _ w => ∃ P F, Held L s ∅ P F w) ?_ fun ret => ?_
  · refine (pinBound hs hl (List.Subset.refl L) hl.nodup).pre ?_
    rintro w rfl
    exact ⟨∅, ∅, hs.held, by simp⟩
  · exact Triple.ite (fun _ => Keeps.pure) fun _ => bindFresh hs hl (List.Subset.refl L)

end Held

/-! ### The release -/

/-- The release takes a pin off what is bound and marked. -/
def World.drops (w : World) (o : ObjId) (flag : BitVec 64) : Bool :=
  (w.bo o).gttSpace && (w.entry o).has flag

/-- The state during the release that began in `w₁`: the fences of `A` and the objects of `B`
are unpinned where their entries say so, and the entries of `D` are cleared. -/
structure Releasing (L : List ObjId) (w₁ : World) (A B D : Finset ObjId) (w : World) : Prop where
  dev : w.dev = w₁.dev
  bo : ∀ x, (w.bo x).gttSpace = (w₁.bo x).gttSpace ∧ (w.bo x).gttOffset = (w₁.bo x).gttOffset ∧
    (w.bo x).fenceReg = (w₁.bo x).fenceReg ∧ (w.bo x).execEntry = (w₁.bo x).execEntry
  obj : ∀ i, (w.fence i).obj = (w₁.fence i).obj
  pinCount : ∀ x, (w.bo x).pinCount =
    (w₁.bo x).pinCount - if x ∈ B ∧ w₁.drops x execObjectHasPin then 1 else 0
  fencePin : ∀ x i, (w₁.bo x).fenceReg = some i → (w.fence i).pinCount =
    (w₁.fence i).pinCount - if x ∈ A ∧ w₁.drops x execObjectHasFence then 1 else 0
  fenceFree : ∀ i, (w₁.fence i).obj = none → (w.fence i).pinCount = (w₁.fence i).pinCount
  cleared : ∀ x ∈ L, x ∈ D → (w₁.bo x).gttSpace = true →
    (w.entry x).has execObjectHasPin = false ∧ (w.entry x).has execObjectHasFence = false
  kept : ∀ x ∈ L, x ∉ D → ∀ flag, (w.entry x).has flag = (w₁.entry x).has flag

namespace Releasing

theorem refl (w : World) : Releasing L w ∅ ∅ ∅ w := by
  constructor <;> simp

/-- Where nothing is dropped, an object counts as done. -/
theorem skipFence (hw : Releasing L w₁ A B D w) (hd : w₁.drops o execObjectHasFence = false) :
    Releasing L w₁ (insert o A) B D w where
  __ := hw
  fencePin x i hx := by
    rw [hw.fencePin x i hx]
    by_cases hxo : x = o <;> simp [hxo, hd]

theorem skipPin (hw : Releasing L w₁ A B D w) (hd : w₁.drops o execObjectHasPin = false) :
    Releasing L w₁ A (insert o B) D w where
  __ := hw
  pinCount x := by
    rw [hw.pinCount x]
    by_cases hxo : x = o <;> simp [hxo, hd]

theorem unpinFence (hw : Releasing L w₁ A B D w)
    (hlinked : ∀ x i, (w₁.bo x).fenceReg = some i ↔ (w₁.fence i).obj = some x) (ho : o ∉ A)
    (hd : w₁.drops o execObjectHasFence = true) :
    Releasing L w₁ (insert o A) B D (unpinFence o w).2 := by
  have hreg := (hw.bo o).2.2.1
  cases hr : (w.bo o).fenceReg with
  | none =>
    have hrun : (I915.unpinFence o w).2 = w := by
      simp [I915.unpinFence, run_modify, hr]
    rw [hrun]
    refine { hw with fencePin := fun x i hx => ?_ }
    have hxo : x ≠ o := by
      rintro rfl
      rw [← hreg, hr] at hx
      cases hx
    rw [hw.fencePin x i hx]
    simp [hxo]
  | some reg =>
    have hr₁ : (w₁.bo o).fenceReg = some reg := hreg.symm.trans hr
    have hobj := (hlinked o reg).mp hr₁
    have hrun : (I915.unpinFence o w).2 =
        w.setFence reg { w.fence reg with pinCount := (w.fence reg).pinCount - 1 } := by
      simp [I915.unpinFence, run_modify, hr]
    rw [hrun]
    have hfence : ∀ i, ((w.setFence reg { w.fence reg with
        pinCount := (w.fence reg).pinCount - 1 }).fence i) = if i = reg then { w.fence reg with
        pinCount := (w.fence reg).pinCount - 1 } else w.fence i := fun i => Function.update_apply ..
    refine { hw with obj := fun i => ?_, fencePin := fun x i hx => ?_, fenceFree := fun i hi => ?_ }
    · rw [hfence]
      split
      · rename_i h
        exact h ▸ hw.obj i
      · exact hw.obj i
    · rw [hfence]
      by_cases hi : i = reg
      · subst hi
        obtain rfl : o = x := Option.some.inj (hobj.symm.trans ((hlinked x i).mp hx))
        simp [hw.fencePin o i hx, ho, hd]
      · have hxo : x ≠ o := by
          rintro rfl
          exact hi (Option.some.inj (hx.symm.trans hr₁))
        simp [hi, hw.fencePin x i hx, hxo]
    · rw [hfence, if_neg fun h => by simp [h, hobj] at hi]
      exact hw.fenceFree i hi

theorem unpin (hw : Releasing L w₁ A B D w) (ho : o ∉ B)
    (hd : w₁.drops o execObjectHasPin = true) : Releasing L w₁ A (insert o B) D (unpin o w).2 := by
  set b : Bo := { w.bo o with
    pinCount := (w.bo o).pinCount - 1
    pinMappable := (w.bo o).pinMappable && (w.bo o).pinCount != 1 } with hb
  change Releasing L w₁ A (insert o B) D (w.setBo o b)
  have hentry := Held.entry_setBo (w := w) (o := o) (b := b) rfl
  refine { hw with bo := fun x => ?_, pinCount := fun x => ?_, cleared := ?_, kept := ?_ }
  · by_cases hx : x = o
    · subst hx
      rw [w.setBo_self]
      exact hw.bo x
    · rw [w.setBo_of_ne _ _ _ hx]
      exact hw.bo x
  · by_cases hx : x = o
    · subst hx
      rw [hb, hw.pinCount x]
      simp [ho, hd]
    · rw [w.setBo_of_ne _ _ _ hx, hw.pinCount x]
      simp [hx]
  · exact fun x hx hD hg => hentry x ▸ hw.cleared x hx hD hg
  · exact fun x hx hD flag => hentry x ▸ hw.kept x hx hD flag

theorem has_clear {e : ExecObject2} {mask flag : BitVec 64} (h : mask &&& flag = flag) :
    ({ e with flags := e.flags &&& ~~~mask } : ExecObject2).has flag = false := by
  have : e.flags &&& ~~~mask &&& flag = 0 := by
    rw [← h]
    ext i hi
    simp only [BitVec.getElem_and, BitVec.getElem_not]
    cases mask[i] <;> simp
  unfold ExecObject2.has
  simpa using this

/-- The entry of `o` is cleared. -/
theorem clear (hw : Releasing L w₁ A B D w) (ho : o ∈ L)
    (hentries : ∀ x ∈ L, (w₁.bo x).execEntry = (w₁.bo o).execEntry → x = o) :
    Releasing L w₁ A B (insert o D) (modifyEntry o (fun e =>
      { e with flags := e.flags &&& ~~~(execObjectHasFence ||| execObjectHasPin) }) w).2 := by
  set v := (modifyEntry o (fun e =>
      { e with flags := e.flags &&& ~~~(execObjectHasFence ||| execObjectHasPin) }) w).2 with hv
  have hself : v.entry o = { w.entry o with
      flags := (w.entry o).flags &&& ~~~(execObjectHasFence ||| execObjectHasPin) } :=
    Function.update_self ..
  have hne : ∀ x ∈ L, x ≠ o → v.entry x = w.entry x := by
    intro x hx hxo
    refine Function.update_of_ne (fun h => hxo (hentries x hx ?_)) ..
    change (w.bo x).execEntry = _ at h
    rwa [(hw.bo x).2.2.2, (hw.bo o).2.2.2] at h
  refine { hw with cleared := fun x hx hD hg => ?_, kept := fun x hx hD flag => ?_ }
  · by_cases hxo : x = o
    · subst hxo
      rw [hself]
      exact ⟨has_clear (by decide), has_clear (by decide)⟩
    · rw [hne x hx hxo]
      exact hw.cleared x hx ((Finset.mem_insert.mp hD).resolve_left hxo) hg
  · have hxo : x ≠ o := fun h => hD (h ▸ Finset.mem_insert_self o D)
    rw [hne x hx hxo]
    exact hw.kept x hx (fun h => hD (Finset.mem_insert_of_mem h)) flag

theorem skipClear (hw : Releasing L w₁ A B D w) (hb : (w₁.bo o).gttSpace = false) :
    Releasing L w₁ A B (insert o D) w where
  __ := hw
  cleared x hx hD hg := by
    rcases Finset.mem_insert.mp hD with h | h
    · simp [h, hb] at hg
    · exact hw.cleared x hx h hg
  kept x hx hD := hw.kept x hx fun h => hD (Finset.mem_insert_of_mem h)

theorem unreserveObject (hw : Releasing L w₁ A A A w)
    (hlinked : ∀ x i, (w₁.bo x).fenceReg = some i ↔ (w₁.fence i).obj = some x)
    (hentries : ∀ x ∈ L, (w₁.bo x).execEntry = (w₁.bo o).execEntry → x = o) (ho : o ∈ L)
    (hA : o ∉ A) :
    Releasing L w₁ (insert o A) (insert o A) (insert o A) (unreserveObject o w).2 := by
  refine (?_ : Triple (fun v => v = w) (I915.unreserveObject o) fun _ =>
    Releasing L w₁ (insert o A) (insert o A) (insert o A)) w rfl
  have hdrops : ∀ flag, w₁.drops o flag = ((w.bo o).gttSpace && (w.entry o).has flag) :=
    fun flag => by rw [World.drops, (hw.bo o).1, hw.kept o ho hA]
  refine triple_get fun v hv => ?_
  subst hv
  refine Triple.ite (fun hb => ?_) fun hb => Triple.pure fun u hu => ?_
  · refine Triple.bind (Q := fun _ => Releasing L w₁ (insert o A) A A) ?_ fun _ => ?_
    · refine Triple.ite (fun hF u hu => ?_) fun hF => Triple.pure fun u hu => ?_
      · exact hu ▸ hw.unpinFence hlinked hA (by simp [hdrops, hb, hF])
      · exact hu ▸ hw.skipFence (by simpa [hdrops, hb] using hF)
    refine Triple.bind (Q := fun _ => Releasing L w₁ (insert o A) (insert o A) A) ?_ fun _ => ?_
    · refine Triple.ite (fun hP u hu => ?_) fun hP => Triple.pure fun u hu => ?_
      · exact hu.unpin hA (by simp [hdrops, hb, hP])
      · exact hu.skipPin (by simpa [hdrops, hb] using hP)
    · exact fun u hu => hu.clear ho hentries
  · have hb' : (v.bo o).gttSpace = false := by simpa using hb
    subst hu
    exact ((hw.skipFence (by simp [hdrops, hb'])).skipPin (by simp [hdrops, hb'])).skipClear
      ((hw.bo o).1 ▸ hb')

/-- The release of a whole list. -/
theorem unreserveAll (hlinked : ∀ x i, (w₁.bo x).fenceReg = some i ↔ (w₁.fence i).obj = some x)
    (hentries : ∀ o ∈ L, ∀ x ∈ L, (w₁.bo x).execEntry = (w₁.bo o).execEntry → x = o)
    (hsub : l ⊆ L) (hnd : l.Nodup) (hA : ∀ x ∈ l, x ∉ A) (hw : Releasing L w₁ A A A w) :
    Releasing L w₁ (l.toFinset ∪ A) (l.toFinset ∪ A) (l.toFinset ∪ A)
      (l.forM I915.unreserveObject w).2 := by
  induction l generalizing A w with
  | nil =>
    change Releasing L w₁ _ _ _ w
    simpa using hw
  | cons o l ih =>
    obtain ⟨ho, hnd⟩ := List.nodup_cons.mp hnd
    have hoL : o ∈ L := hsub List.mem_cons_self
    have h := hw.unreserveObject hlinked (hentries o hoL) hoL (hA o List.mem_cons_self)
    have hA' : ∀ x ∈ l, x ∉ insert o A := by
      intro x hx h
      rcases Finset.mem_insert.mp h with rfl | h
      · exact ho hx
      · exact hA x (List.mem_cons_of_mem o hx) h
    have := ih (fun x hx => hsub (List.mem_cons_of_mem o hx)) hnd hA' h
    rwa [Finset.union_insert, ← Finset.insert_union, ← List.toFinset_cons] at this

end Releasing

/-! ### One round -/

/-- At the label `err` nothing is bound whose flags word came in with a kernel bit that the
pass has not set itself: an object with the pin bit was pinned by the pass, and a fence with
the fence bit too. -/
def RoundClean (L : List ObjId) (s w₁ : World) : Prop :=
  ∀ o ∈ L, (w₁.bo o).gttSpace = true →
    ((s.entry o).has execObjectHasPin = true → (w₁.bo o).pinCount ≠ (s.bo o).pinCount) ∧
    ((s.entry o).has execObjectHasFence = true → ∀ i, (w₁.bo o).fenceReg = some i →
      (w₁.fence i).pinCount ≠ (s.fence i).pinCount)

/-- Entries without the two bits are always clean. -/
theorem roundClean_of_flags (h : ∀ o ∈ L, (s.entry o).has execObjectHasPin = false ∧
    (s.entry o).has execObjectHasFence = false) : RoundClean L s w₁ := by
  intro o ho _
  simp [h o ho]

/-- What the loops and the release of a round leave. -/
theorem reserveRound_spec (hs : s.Consistent) (hl : Listed L s) :
    ∃ P F, Held L s ∅ P F (pinObjects L s).2 ∧
      Releasing L (pinObjects L s).2 L.toFinset L.toFinset L.toFinset (reserveRound L s).2 := by
  obtain ⟨P, F, hw⟩ := Held.pinObjects hs hl
  refine ⟨P, F, hw, ?_⟩
  have hentries : ∀ o ∈ L, ∀ x ∈ L, ((pinObjects L s).2.bo x).execEntry =
      ((pinObjects L s).2.bo o).execEntry → x = o := by
    intro o ho x hx h
    rw [hw.execEntry x (hl.plain x hx), hw.execEntry o (hl.plain o ho)] at h
    exact hl.entries x hx o ho h
  have h := Releasing.unreserveAll (A := ∅) hw.linked hentries (List.Subset.refl L) hl.nodup
    (by simp) (Releasing.refl (pinObjects L s).2)
  rwa [Finset.union_empty] at h

theorem pinCount_kept_iff (hw : Held L s ∅ P F w₁)
    (hr : Releasing L w₁ L.toFinset L.toFinset L.toFinset w)
    (hplain : s.dev.contextObj o = false) :
    (w.bo o).pinCount = (s.bo o).pinCount ↔ (o ∈ L → (w₁.bo o).gttSpace = true →
      (s.entry o).has execObjectHasPin = true → (w₁.bo o).pinCount ≠ (s.bo o).pinCount) := by
  have hpin := hw.pinCount o hplain
  rw [hr.pinCount o]
  by_cases hP : o ∈ P
  · have hd : w₁.drops o execObjectHasPin = true := by
      simp [World.drops, hw.bound o hP, hw.hasPin o (hw.listed o hP), hP]
    simp [hpin, hP, hd, hw.listed o hP]
  · by_cases ho : o ∈ L
    · simp [hpin, hP, World.drops, hw.hasPin o ho]
    · simp [hpin, hP, ho]

theorem fencePin_kept_iff (hw : Held L s ∅ P F w₁)
    (hr : Releasing L w₁ L.toFinset L.toFinset L.toFinset w) (i : ℕ) :
    (w.fence i).pinCount = (s.fence i).pinCount ↔ ∀ o ∈ L, (w₁.bo o).gttSpace = true →
      (s.entry o).has execObjectHasFence = true → (w₁.bo o).fenceReg = some i →
      (w₁.fence i).pinCount ≠ (s.fence i).pinCount := by
  cases hobj : (w₁.fence i).obj with
  | none =>
    have hnone : ∀ o, (w₁.bo o).fenceReg ≠ some i := fun o h => by simp [(hw.linked o i).mp h] at hobj
    simp [hr.fenceFree i hobj, hw.fenceFree i fun o _ => hnone o, hnone]
  | some o =>
    have ho := (hw.linked o i).mpr hobj
    have honly : ∀ x, (w₁.bo x).fenceReg = some i ↔ x = o := fun x => by
      rw [hw.linked, hobj]
      simp [eq_comm]
    have hone : (∀ x ∈ L, (w₁.bo x).gttSpace = true →
        (s.entry x).has execObjectHasFence = true → (w₁.bo x).fenceReg = some i →
        (w₁.fence i).pinCount ≠ (s.fence i).pinCount) ↔ (o ∈ L → (w₁.bo o).gttSpace = true →
        (s.entry o).has execObjectHasFence = true →
        (w₁.fence i).pinCount ≠ (s.fence i).pinCount) :=
      ⟨fun h hL hb hf => h o hL hb hf ho, fun h x hL hb hf hx => by
        obtain rfl := (honly x).mp hx
        exact h hL hb hf⟩
    rw [hr.fencePin o i ho, hone]
    by_cases hF : o ∈ F
    · have hP := (hw.fenced o hF).1
      have hd : w₁.drops o execObjectHasFence = true := by
        simp [World.drops, hw.bound o hP, hw.hasFence o (hw.listed o hP), hF]
      simp [hw.fencePinned o hF i ho, hd, hw.listed o hP]
    · have hfree := hw.fenceFree i fun x hx h => hF ((honly x).mp h ▸ hx)
      by_cases hoL : o ∈ L
      · simp [hfree, World.drops, hw.hasFence o hoL, hF]
      · simp [hfree, hoL]

theorem pinsKept_iff (hl : Listed L s) (hw : Held L s ∅ P F w₁)
    (hr : Releasing L w₁ L.toFinset L.toFinset L.toFinset w) :
    PinsKept s w ↔ RoundClean L s w₁ := by
  constructor
  · intro h o ho hb
    refine ⟨fun hp => ?_, fun hf i hi => ?_⟩
    · exact (pinCount_kept_iff hw hr (hl.plain o ho)).mp (h.objects o (hl.plain o ho)) ho hb hp
    · exact (fencePin_kept_iff hw hr i).mp (h.fences i) o ho hb hf hi
  · intro h
    refine ⟨fun o hp => (pinCount_kept_iff hw hr hp).mpr fun ho hb => (h o ho hb).1, fun i => ?_⟩
    exact (fencePin_kept_iff hw hr i).mpr fun o ho hb hf => (h o ho hb).2 hf i

/-- A clean round leaves the state consistent, its list usable, and no bits on what is bound. -/
theorem round_consistent (hs : s.Consistent) (hl : Listed L s) (hw : Held L s ∅ P F w₁)
    (hr : Releasing L w₁ L.toFinset L.toFinset L.toFinset w) (hk : PinsKept s w) :
    w.Consistent ∧ Listed L w ∧ ∀ o ∈ L, (w.bo o).gttSpace = true →
      (w.entry o).has execObjectHasPin = false ∧ (w.entry o).has execObjectHasFence = false := by
  have hdev : w.dev = s.dev := hr.dev.trans hw.dev
  refine ⟨⟨fun o ho => ?_, fun i => ?_, fun o i => ?_, fun o ho hu => ?_⟩,
    ⟨hl.nodup, fun o ho => hdev ▸ hl.plain o ho, fun o ho x hx h => ?_⟩, fun o ho hb => ?_⟩
  · rw [hdev] at ho
    exact hk.objects o ho ▸ hs.pins o ho
  · exact hk.fences i ▸ hs.fencePins i
  · rw [(hr.bo o).2.2.1, hr.obj]
    exact hw.linked o i
  · rw [(hr.bo o).1] at hu
    rw [(hr.bo o).2.2.1, (hr.bo o).2.1]
    exact hw.unbound o (hdev ▸ ho) hu
  · rw [(hr.bo o).2.2.2, (hr.bo x).2.2.2, hw.execEntry o (hl.plain o ho),
      hw.execEntry x (hl.plain x hx)] at h
    exact hl.entries o ho x hx h
  · rw [(hr.bo o).1] at hb
    exact hr.cleared o ho (List.mem_toFinset.mpr ho) hb

/-! ### Ordering and eviction -/

namespace Held

/-- With nothing pinned, what a pass holds is what consistency asks for. -/
theorem consistent (hs : s.Consistent) (hw : Held L s ∅ ∅ ∅ w) : w.Consistent where
  pins o ho := by
    have hp : s.dev.contextObj o = false := hw.dev ▸ ho
    simpa [hw.pinCount o hp] using hs.pins o hp
  fencePins i := by simpa [hw.fenceFree i] using hs.fencePins i
  linked := hw.linked
  unbound o ho := hw.unbound o (hw.dev ▸ ho)

theorem pinsKept (hw : Held L s ∅ ∅ ∅ w) : PinsKept s w where
  objects o ho := by simp [hw.pinCount o ho]
  fences i := hw.fenceFree i (by simp)

theorem listed' (hl : Listed L s) (hw : Held L s ∅ ∅ ∅ w) : Listed L w where
  nodup := hl.nodup
  plain o ho := hw.dev ▸ hl.plain o ho
  entries o ho x hx h := by
    rw [hw.execEntry o (hl.plain o ho), hw.execEntry x (hl.plain x hx)] at h
    exact hl.entries o ho x hx h

theorem settled (hw : Held L s {o} P F w) (hb : (s.bo o).gttSpace = true) :
    Held L s ∅ P F w where
  __ := hw
  boundFrom x hx h := by
    rcases hw.boundFrom x hx h with h | h | h
    · exact Or.inl h
    · exact Or.inr (Or.inl h)
    · exact Or.inl (Finset.mem_singleton.mp h ▸ hb)
  fenceFrom x hx hu hne := by
    refine (hw.fenceFrom x hx hu hne).imp_right fun h => ?_
    rw [Finset.mem_singleton.mp h, hb] at hu
    cases hu

theorem orderObjects (hs : s.Consistent) (batch : Option ObjId) (ordered : List ObjId)
    (hplain : ∀ o ∈ l, s.dev.contextObj o = false) :
    Triple (Held L s ∅ ∅ ∅) (orderObjects batch l ordered) fun r w =>
      Held L s ∅ ∅ ∅ w ∧ r.Perm (l ++ ordered) := by
  induction l generalizing ordered with
  | nil => exact Triple.pure fun w hw => ⟨hw, List.Perm.refl _⟩
  | cons o l ih =>
    refine triple_get fun v hv => ?_
    refine Triple.bind (Q := fun _ w => Held L s ∅ ∅ ∅ w ∧ v.Same w) ?_ fun _ => ?_
    · exact quiet_from (Quiet.modifyBo (fun _ => rfl) fun _ => rfl) hv
    refine Triple.bind (Q := fun _ => Held L s ∅ ∅ ∅) ?_ fun _ => ?_
    · refine Triple.ite (fun hc => ?_) fun _ => Triple.pure fun w hw => hw.1
      have hoff : (v.bo o).gttOffset ≠ 0 := by simp_all
      have hp := hplain o List.mem_cons_self
      have hbv : (v.bo o).gttSpace = true := by
        by_contra h
        exact hoff (hv.unbound o hp (by simpa using h)).2
      have hb : (s.bo o).gttSpace = true := by simpa using hv.boundFrom o hp hbv
      refine Triple.bind (Q := fun _ => Held L s ∅ ∅ ∅) ?_ fun _ w hw =>
        hw.congr (World.Same.setBo rfl)
      refine Triple.discard (Triple.ite (fun _ => ?_) fun _ => ?_)
      · refine (getFence hs (Finset.notMem_empty o)).conseq
          (fun w hw => ⟨hw.1, fun _ => (core_eq hw.2 o).2.1.trans hbv⟩) fun ret w hw => ?_
        by_cases hret : ret = 0
        · exact settled (hw.2 hret) hb
        · exact hw.1 hret
      · exact (putFence (Finset.notMem_empty o)).conseq (fun w hw => hw.1) fun _ w hw => hw.1
    · refine (ih _ fun x hx => hplain x (List.mem_cons_of_mem o hx)).post fun r w hw => ⟨hw.1, ?_⟩
      refine hw.2.trans ?_
      split
      · exact List.perm_middle
      · rw [← List.append_assoc]
        exact (List.perm_append_singleton o (l ++ ordered)).trans (by simp)

theorem unbindUnpinned (hs : s.Consistent) (hl : Listed L s) :
    Keeps (Held L s C P F) (unbindUnpinned o) := by
  refine Triple.bind (keeps Quiet.getBo) fun b => Triple.ite (fun _ => ?_) fun _ => Keeps.pure
  exact Triple.discard (unbind hs hl)

theorem setContexts (hl : Listed L s) (hw : Held L s ∅ ∅ ∅ w) (c : ObjId → Bo) :
    Held L s ∅ ∅ ∅ (w.setContexts c) := by
  have hbo : ∀ x, s.dev.contextObj x = false → (w.setContexts c).bo x = w.bo x := by
    intro x hx
    simp [World.setContexts, hw.dev, hx]
  have hreg : ∀ x, ((w.setContexts c).bo x).fenceReg = (w.bo x).fenceReg := by
    intro x
    unfold World.setContexts
    dsimp only
    split <;> rfl
  have hentry : ∀ x ∈ L, (w.setContexts c).entry x = w.entry x := by
    intro x hx
    unfold World.entry
    rw [hbo x (hl.plain x hx)]
    rfl
  constructor
  case dev => exact hw.dev
  case execEntry => exact fun x hx => (hbo x hx).symm ▸ hw.execEntry x hx
  case pinCount => exact fun x hx => (hbo x hx).symm ▸ hw.pinCount x hx
  case fencePinned => simp
  case fenceFree => exact fun i _ => hw.fenceFree i (by simp)
  case linked => exact fun x i => hreg x ▸ hw.linked x i
  case unbound => exact fun x hx => (hbo x hx).symm ▸ hw.unbound x hx
  case bound => simp
  case fenced => simp
  case listed => simp
  case boundFrom => exact fun x hx => (hbo x hx).symm ▸ hw.boundFrom x hx
  case fenceFrom => exact fun x hx => (hbo x hx).symm ▸ hw.fenceFrom x hx
  case hasPin => exact fun x hx => (hentry x hx).symm ▸ hw.hasPin x hx
  case hasFence => exact fun x hx => (hentry x hx).symm ▸ hw.hasFence x hx

theorem evictEverything (hs : s.Consistent) (hl : Listed L s) :
    Keeps (Held L s ∅ ∅ ∅) evictEverything := by
  refine Triple.bind (keeps Quiet.callOut) fun e => Triple.ite (fun _ => Keeps.pure) fun _ => ?_
  refine Triple.bind (Q := fun _ => Held L s ∅ ∅ ∅) ?_ fun ret => ?_
  · refine Triple.bind (keeps Quiet.waitOut) fun e => ?_
    exact Triple.bind (Keeps.modify fun w hw => hw.setContexts hl _) fun _ => Keeps.pure
  · refine Triple.ite (fun _ => Keeps.pure) fun _ => Triple.bind (keeps Quiet.callOut) fun e => ?_
    exact Triple.bind (Keeps.forM fun o _ => unbindUnpinned hs hl) fun _ => Keeps.pure

end Held

/-! ### The whole reservation -/

/-- Once the bits are gone from what is bound, every later round is clean. -/
theorem roundClean_of_cleared (hl : Listed L s) (hw : Held L s ∅ P F w₁)
    (hclear : ∀ o ∈ L, (s.bo o).gttSpace = true →
      (s.entry o).has execObjectHasPin = false ∧ (s.entry o).has execObjectHasFence = false) :
    RoundClean L s w₁ := by
  intro o ho hb
  have hp := hl.plain o ho
  refine ⟨fun hpin => ?_, fun hfence i hi => ?_⟩
  · have hu : (s.bo o).gttSpace ≠ true := fun h => by simp [(hclear o ho h).1] at hpin
    have hP : o ∈ P := by simpa [hu] using hw.boundFrom o hp hb
    simp [hw.pinCount o hp, hP]
  · have hu : (s.bo o).gttSpace = false := by
      by_contra h
      simp [(hclear o ho (by simpa using h)).2] at hfence
    have hF : o ∈ F := by simpa using hw.fenceFrom o hp hu (by simp [hi])
    simp [hw.fencePinned o hF i hi]

theorem reserveOrder_spec (hw : w.Consistent) (hl : Listed w.objects w) :
    Held w.objects w ∅ ∅ ∅ (reserveOrder w).2 ∧ Listed (reserveOrder w).2.objects (reserveOrder w).2 := by
  refine (?_ : Triple (fun v => v = w) reserveOrder fun _ v =>
    Held w.objects w ∅ ∅ ∅ v ∧ Listed v.objects v) w rfl
  refine triple_get fun v hv => ?_
  subst hv
  have horder : Triple (fun u => u = v) _ _ :=
    (Held.orderObjects (L := v.objects) hw v.objects.getLast? [] hl.plain).pre (by
      rintro u rfl
      exact hw.held)
  refine horder.bind fun r => Triple.modify fun u hu => ?_
  obtain ⟨hheld, hperm⟩ := hu
  have hheld' : Held v.objects v ∅ ∅ ∅ { u with objects := r } :=
    hheld.congr ⟨rfl, rfl, fun _ => rfl, fun _ => rfl⟩
  have hlisted := hheld'.listed' hl
  have hmem : ∀ o, o ∈ r → o ∈ v.objects := fun o ho => by simpa using hperm.mem_iff.mp ho
  refine ⟨hheld', (hperm.nodup_iff).mpr (by simpa using hl.nodup), fun o ho => ?_,
    fun o ho x hx => ?_⟩
  · exact hlisted.plain o (hmem o ho)
  · exact hlisted.entries o (hmem o ho) x (hmem x hx)

/-- The retry after an eviction keeps the pins, if the first round was clean. -/
theorem retry_pinsKept (hs : s.Consistent) (hl : Listed L s)
    (hclear : ∀ o ∈ L, (s.bo o).gttSpace = true →
      (s.entry o).has execObjectHasPin = false ∧ (s.entry o).has execObjectHasFence = false)
    (hw : Held L s ∅ ∅ ∅ w) : PinsKept s (reserveRound L w).2 := by
  have hs' := hw.consistent hs
  have hl' := hw.listed' hl
  obtain ⟨P, F, hheld, hr⟩ := reserveRound_spec hs' hl'
  refine hw.pinsKept.trans ((pinsKept_iff hl' hheld hr).mpr ?_) hw.dev
  refine roundClean_of_cleared hl' hheld fun o ho hb => ?_
  have hbs : (s.bo o).gttSpace = true := by simpa using hw.boundFrom o (hl.plain o ho) hb
  have := hclear o ho hbs
  simpa [hw.hasPin o ho, hw.hasFence o ho] using this

theorem reserveRetry_spec (hs : s.Consistent) (hl : Listed L s) :
    (RoundClean L s (pinObjects L s).2 → PinsKept s (reserveRetry L s).2) ∧
    ((pinObjects L s).1 ≠ eNospc → (reserveRetry L s).2 = (reserveRound L s).2) := by
  obtain ⟨P, F, hw, hr⟩ := reserveRound_spec hs hl
  have hiff := pinsKept_iff hl hw hr
  refine (?_ : Triple (fun v => v = s) (reserveRetry L) fun _ v =>
    (RoundClean L s (pinObjects L s).2 → PinsKept s v) ∧
    ((pinObjects L s).1 ≠ eNospc → v = (reserveRound L s).2)) s rfl
  refine Triple.bind (Q := fun ret v => ret = (pinObjects L s).1 ∧ v = (reserveRound L s).2)
    (fun v hv => hv ▸ ⟨rfl, rfl⟩) fun ret => Triple.ite (fun _ => ?_) fun hret => ?_
  · exact Triple.pure fun v hv => ⟨fun h => hv.2 ▸ hiff.mpr h, fun _ => hv.2⟩
  rintro v ⟨rfl, rfl⟩
  refine ⟨fun hclean => ?_, fun h => absurd h hret⟩
  have hk := hiff.mpr hclean
  obtain ⟨hs₂, hl₂, hclear⟩ := round_consistent hs hl hw hr hk
  have hdev : (reserveRound L s).2.dev = s.dev := hr.dev.trans hw.dev
  refine hk.trans ?_ hdev
  refine (?_ : Triple (Held L (reserveRound L s).2 ∅ ∅ ∅) _ fun _ =>
    PinsKept (reserveRound L s).2) _ hs₂.held
  refine Triple.bind (Held.evictEverything hs₂ hl₂) fun ret => Triple.ite (fun _ => ?_) fun _ => ?_
  · exact Triple.pure fun v hv => hv.pinsKept
  · exact fun v hv => retry_pinsKept hs₂ hl₂ hclear hv

/-- `i915_gem_execbuffer_reserve` leaves the pin counts as they were if no kernel bit in a
flags word goes unmatched in its first pass; and only then, unless it goes on to evict. -/
theorem reserve_restores_pins (w : World) (hw : w.Consistent) (hl : Listed w.objects w) :
    let s := (reserveOrder w).2
    let pass := pinObjects s.objects s
    (RoundClean s.objects s pass.2 → PinsKept w (reserve w).2) ∧
    (pass.1 ≠ eNospc → PinsKept w (reserve w).2 → RoundClean s.objects s pass.2) := by
  intro s pass
  obtain ⟨hheld, hl'⟩ := reserveOrder_spec hw hl
  have hs : s.Consistent := hheld.consistent hw
  have hdev : s.dev = w.dev := hheld.dev
  have hws : PinsKept w s := hheld.pinsKept
  obtain ⟨hclean, hdone⟩ := reserveRetry_spec hs hl'
  refine ⟨fun h => hws.trans (hclean h) hdev, fun hret hk => ?_⟩
  obtain ⟨P, F, hpass, hr⟩ := reserveRound_spec hs hl'
  have hsame : (reserve w).2 = (reserveRound s.objects s).2 := hdone hret
  rw [hsame] at hk
  refine (pinsKept_iff hl' hpass hr).mp ⟨fun o ho => ?_, fun i => ?_⟩
  · exact (hk.objects o (hdev ▸ ho)).trans (hws.objects o (hdev ▸ ho)).symm
  · exact (hk.fences i).trans (hws.fences i).symm

/-! ### One object with a fence register -/

/-- On a seventh-generation device object 5 is bound and holds fence register 0, as a tiled
object mapped through the aperture does; it is the only one on the list, under `flags`. -/
def fencedObject (flags : BitVec 64) : World where
  bo o := if o = 5 then { Bo.fresh 0x1000 with
    gttSpace := true, gttOffset := 0x1000, tilingMode := 1, fenceReg := some 0 } else Bo.fresh 0
  fence i := if i = 0 then ⟨some 5, 0⟩ else ⟨none, 0⟩
  fenceList := [0]
  ring _ := ⟨0, false, [], 0⟩
  nextSeqno := 1
  dev := ⟨7, 0, 32, false, fun _ => false, fun _ => false⟩
  exec _ := ⟨1, 0, 0, 0x1000, flags⟩
  objects := [5]
  needRelocs := false
  foreign _ := 0
  faults := []
  coming _ := .calm ⟨fun _ => Bo.fresh 0, fun _ => ⟨none, 0⟩, [], fun _ => ⟨0, false, [], 0⟩, 1⟩

theorem fencedObject_consistent (flags : BitVec 64) : (fencedObject flags).Consistent where
  pins o _ := by
    simp only [fencedObject]
    split <;> decide
  fencePins i := by
    simp only [fencedObject]
    split <;> decide
  linked o i := by
    simp only [fencedObject]
    split <;> split <;> simp_all [Bo.fresh, eq_comm]
  unbound o _ := by
    simp only [fencedObject]
    split <;> simp [Bo.fresh]

theorem fencedObject_listed (flags : BitVec 64) :
    Listed (fencedObject flags).objects (fencedObject flags) := by
  constructor <;> simp [fencedObject]

theorem reserve_restores_pins_fencedObject :
    PinsKept (fencedObject 0) (reserve (fencedObject 0)).2 :=
  (reserve_restores_pins (fencedObject 0) (fencedObject_consistent 0) (fencedObject_listed 0)).1
    (roundClean_of_flags (by decide))

/-- With the fence bit forged the reservation succeeds and takes a pin off the register that
nobody took. -/
theorem reserve_unpins_forged_fence :
    (fencedObject execObjectHasFence).Consistent ∧
    Listed (fencedObject execObjectHasFence).objects (fencedObject execObjectHasFence) ∧
    (reserve (fencedObject execObjectHasFence)).1 = 0 ∧
    ((reserve (fencedObject execObjectHasFence)).2.fence 0).pinCount = -1 ∧
    ¬PinsKept (fencedObject execObjectHasFence) (reserve (fencedObject execObjectHasFence)).2 := by
  have hpin : ((reserve (fencedObject execObjectHasFence)).2.fence 0).pinCount = -1 := by decide
  refine ⟨fencedObject_consistent _, fencedObject_listed _, by decide, hpin, fun h => ?_⟩
  have := h.fences 0
  exact absurd this (by decide)

end GfxDrm.I915
