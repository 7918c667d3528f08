import GfxDrm.I915.References

/-! The references of an execbuffer call: those it holds are on its list, and those it never
drops are in its log. -/

namespace GfxDrm.I915

open Hoare Errno

/-- The object of which a reference is left behind. -/
def Fault.object : Fault → ObjId
  | .repeated o => o
  | .relocation target => target

/-- The references to an object that are neither on the list of the call nor left behind by it,
next to those of the active list and of other threads. -/
def World.debt (w : World) : ObjId → ℤ :=
  fun o => w.own o - counted w.objects o - counted (w.faults.map Fault.object) o

/-- So many references are taken that the list and the log do not account for; the log grows, and
no batch is written. -/
structure World.Owes (d : ObjId → ℤ) (w w' : World) : Prop where
  debt : ∀ o, w'.debt o = w.debt o + d o
  log : w.faults <+: w'.faults
  dev : w'.dev = w.dev
  fresh : w.Fresh → w'.Fresh

variable {α β : Type} {m : ExecM α} {k : α → ExecM β}

section

variable {w w' w'' : World} {o : ObjId} {r : RingId} {d d' : ObjId → ℤ}

theorem counted_append (l l' : List ObjId) : counted (l ++ l') = counted l + counted l' := by
  funext o
  unfold counted
  rw [Pi.add_apply, List.count_append]
  omega

theorem counted_perm {l l' : List ObjId} (h : l.Perm l') : counted l = counted l' := by
  funext o
  unfold counted
  rw [h.count_eq]

namespace World

theorem Owes.trans (h : Owes d w w') (h' : Owes d' w' w'') : Owes (d + d') w w'' where
  debt o := by
    rw [h'.debt, h.debt, Pi.add_apply]
    omega
  log := h.log.trans h'.log
  dev := h'.dev.trans h.dev
  fresh hw := h'.fresh (h.fresh hw)

theorem Borrows.owes (h : Borrows d w w') : Owes d w w' where
  debt o := by
    unfold World.debt
    rw [h.own, h.objects, h.faults]
    omega
  log := h.faults ▸ List.prefix_refl _
  dev := h.dev
  fresh := h.fresh

instance : IsPreorder World (Owes 0) where
  refl w := (Borrows.refl w).owes
  trans _ _ _ h h' := by
    have hh := h.trans h'
    rwa [zero_add] at hh

end World

/-- The list and the log account for what the program takes, and it writes no batch. -/
abbrev Even {α : Type} (m : ExecM α) : Prop := Frame (World.Owes 0) m

theorem Level.even (h : Level m) : Even m := fun w => (h w).owes

namespace Even

theorem andThen (hm : Even m) (hk : ∀ a, Frame (World.Owes d) (k a)) :
    Frame (World.Owes d) (m >>= k) := by
  intro w
  have h := (hm w).trans (hk (m w).1 (m w).2)
  rwa [zero_add] at h

theorem balance (hm : Frame (World.Owes d) m) (hk : ∀ a, Frame (World.Owes (-d)) (k a)) :
    Even (m >>= k) := by
  intro w
  have h := (hm w).trans (hk (m w).1 (m w).2)
  rwa [add_neg_cancel] at h

theorem unreference (o : ObjId) : Frame (World.Owes (-Pi.single o 1)) (unreference o) := by
  intro w
  rw [← Pi.single_neg]
  exact (Level.unreference o w).owes

theorem reference (o : ObjId) : Frame (World.Owes (Pi.single o 1)) (reference o) :=
  fun w => (Level.reference o w).owes

/-! ### The reservation -/

theorem orderObjects_perm (batch : Option ObjId) (l ordered : List ObjId) (w : World) :
    (orderObjects batch l ordered w).1.Perm (l ++ ordered) := by
  induction l generalizing ordered w with
  | nil => exact List.Perm.refl _
  | cons o l ih =>
    refine (ih _ _).trans ?_
    split
    · exact List.perm_middle
    · rw [← List.append_assoc]
      exact (List.perm_append_singleton o (l ++ ordered)).trans (by simp)

/-- The list is only put into another order. -/
theorem reserveOrder : Even reserveOrder := by
  intro w
  have h := Level.orderObjects w.objects.getLast? w.objects [] w
  have hperm := orderObjects_perm w.objects.getLast? w.objects [] w
  rw [List.append_nil] at hperm
  refine ⟨fun o => ?_, h.faults ▸ List.prefix_refl _, h.dev, h.fresh⟩
  rw [Pi.zero_apply, Int.add_zero]
  have hdebt := h.owes.debt o
  rw [Pi.zero_apply, Int.add_zero] at hdebt
  rw [← hdebt]
  unfold World.debt
  rw [h.objects, ← counted_perm hperm]
  rfl

theorem reserveRetry (l : List ObjId) : Even (reserveRetry l) := by
  refine Frame.bind (Level.reserveRound l).even fun ret => Frame.ite Frame.pure ?_
  refine Frame.bind Level.evictEverything.even fun ret => Frame.ite Frame.pure ?_
  exact (Level.reserveRound l).even

theorem reserve : Even reserve :=
  Frame.bind reserveOrder fun _ => Frame.bind Frame.get fun _ => reserveRetry _

/-! ### The relocations -/

theorem setToGttDomain (write : Bool) : Even (setToGttDomain o write) := by
  refine Level.even (Frame.bind Level.getBo fun b => Frame.ite Frame.pure (Frame.ite Frame.pure ?_))
  refine Frame.bind Level.waitRendering fun ret => Frame.ite Frame.pure ?_
  exact Frame.bind (Level.modifyBo fun _ => rfl) fun _ => Frame.pure

theorem modifyBo {f : Bo → Bo} (h : ∀ b, (f b).held = b.held) : Even (modifyBo o f) :=
  (Level.modifyBo h).even

theorem unreferencePure (o : ObjId) (a : α) :
    Frame (World.Owes (-Pi.single o 1)) (do I915.unreference o; return a) := unreference o

/-- A reference goes into the log. -/
theorem leave (f : Fault) (a : α) : Frame (World.Owes (-Pi.single f.object 1))
    (do modify fun w : World => { w with faults := w.faults ++ [f] }; return a) := by
  refine fun w => ⟨fun o => ?_, List.prefix_append .., rfl, id⟩
  show w.own o - counted w.objects o - counted ((w.faults ++ [f]).map Fault.object) o = _
  rw [List.map_append, counted_append, List.map_singleton, counted_cons]
  unfold World.debt
  simp only [Pi.add_apply, Pi.neg_apply, show counted [] o = 0 from rfl]
  omega

theorem patchEntry (o target : ObjId) (offset : BitVec 32) (reloc : RelocationEntry) :
    Frame (World.Owes (-Pi.single target 1)) (patchEntry o target offset reloc) := by
  refine andThen (setToGttDomain true) fun ret => ?_
  refine andThen (Frame.ite Level.putFence.even Frame.pure) fun ret => ?_
  refine Frame.ite (leave (.relocation target) _) (andThen (modifyBo fun b => ?_) fun _ => ?_)
  · unfold Bo.writeDword
    split <;> rfl
  · exact unreferencePure target _

theorem relocateEntry (o : ObjId) (reloc : RelocationEntry) : Even (relocateEntry o reloc) := by
  refine Frame.bind Level.callOut.even fun e => ?_
  cases e.lookup with
  | none => exact Frame.pure
  | some target =>
    refine balance (reference target) fun _ => andThen Frame.get fun w => ?_
    refine andThen (frame_onlyIf (modifyBo fun _ => rfl)) fun _ => ?_
    refine Frame.ite (unreferencePure target _) (andThen (modifyBo fun _ => rfl) fun _ => ?_)
    refine Frame.ite (unreferencePure target _) (Frame.ite (unreferencePure target _) ?_)
    exact patchEntry o target _ reloc

theorem relocateChunk (o : ObjId) (l : List RelocationEntry) : Even (relocateChunk o l) := by
  induction l with
  | nil => exact Frame.pure
  | cons r l ih =>
    refine Frame.bind (relocateEntry o r) fun _ => Frame.ite Frame.pure ?_
    refine Frame.bind (Frame.ite Frame.pure ?_) fun ret => Frame.ite Frame.pure ih
    exact Frame.bind Level.callOut.even fun _ => Frame.pure

theorem relocateChunks (o : ObjId) (l : List ℕ) : Even (relocateChunks o l) := by
  induction l with
  | nil => exact Frame.pure
  | cons n l ih =>
    refine Frame.bind Level.callOut.even fun e => Frame.ite Frame.pure ?_
    exact Frame.bind (relocateChunk o _) fun ret => Frame.ite Frame.pure ih

theorem relocateObjects (l : List ObjId) : Even (relocateObjects l) := by
  induction l with
  | nil => exact Frame.pure
  | cons o l ih =>
    refine Frame.bind (Frame.bind Frame.get fun w => relocateChunks o _) fun ret => ?_
    exact Frame.ite Frame.pure ih

theorem relocate : Even relocate := Frame.bind Frame.get fun _ => relocateObjects _

theorem relock : Even relock := Level.even <|
  Frame.bind Level.callOut fun _ => Frame.bind (fun _ => .relock _ _) fun _ => Frame.pure

/-- What was on the list is given back. -/
theorem releaseObjects : Even releaseObjects := by
  intro w
  have h := Level.unreferences w.objects w
  refine ⟨fun o => ?_, h.faults ▸ List.prefix_refl _, h.dev, h.fresh⟩
  show (w.objects.forM I915.unreference w).2.own o - counted [] o -
    counted ((w.objects.forM I915.unreference w).2.faults.map Fault.object) o = _
  rw [h.own, h.faults]
  unfold World.debt
  simp only [Pi.neg_apply, Pi.zero_apply, show counted [] o = 0 from rfl]
  omega

theorem drmCalloc (array : SlowArray) (size : BitVec 64) : Even (drmCalloc array size) :=
  Frame.bind Level.callOut.even fun _ => Frame.pure

theorem copyRelocs (l : List ℕ) (c : Copied) : Even (copyRelocs l c) := by
  induction l generalizing c with
  | nil => exact Frame.pure
  | cons i l ih =>
    refine Frame.bind Level.callOut.even fun e => Frame.ite Frame.pure ?_
    exact Frame.bind Frame.get fun w => ih _

/-- The object goes to the end of the list; if it was on it, the rest of the list is lost. -/
theorem addTail (o : ObjId) :
    Frame (World.Owes (-Pi.single o 1)) (modify fun w : World => w.addTail o) := by
  refine fun w => ⟨fun x => ?_, List.prefix_append .., rfl, id⟩
  have hsplit := congrFun (counted_append (w.objects.takeWhile (· != o))
    (w.objects.dropWhile (· != o))) x
  rw [List.takeWhile_append_dropWhile, Pi.add_apply] at hsplit
  show w.own x - counted (w.objects.takeWhile (· != o) ++ [o]) x -
    counted ((w.faults ++ (w.objects.dropWhile (· != o)).map Fault.repeated).map Fault.object) x = _
  rw [List.map_append, List.map_map, show Fault.object ∘ Fault.repeated = id from rfl, List.map_id,
    counted_append, counted_append, counted_cons]
  unfold World.debt
  simp only [Pi.add_apply, Pi.neg_apply, show counted [] x = 0 from rfl]
  omega

theorem reacquire (l : List ℕ) : Even (reacquire l) := by
  induction l with
  | nil => exact Frame.pure
  | cons i l ih =>
    refine Frame.bind Level.callOut.even fun e => ?_
    cases e.lookup with
    | none => exact Frame.pure
    | some o =>
      refine balance (reference o) fun _ => ?_
      intro w
      have h := (addTail o w).trans ((modifyBo (o := o) (f := fun b => { b with execEntry := i })
        fun _ => rfl) _ |>.trans (ih _))
      rwa [add_zero, add_zero] at h

theorem relocateObjectSlow (o : ObjId) (l : List RelocationEntry) :
    Even (relocateObjectSlow o l) := by
  induction l with
  | nil => exact Frame.pure
  | cons r l ih => exact Frame.bind (relocateEntry o r) fun _ => Frame.ite Frame.pure ih

theorem relocateObjectsSlow (relocs : ℕ → ℕ → RelocationEntry) (l : List ObjId) :
    Even (relocateObjectsSlow relocs l) := by
  induction l with
  | nil => exact Frame.pure
  | cons o l ih =>
    refine Frame.bind Frame.get fun w => ?_
    exact Frame.bind (relocateObjectSlow o _) fun ret => Frame.ite Frame.pure ih

theorem relocateAgain (noReloc : Bool) (relocs : ℕ → ℕ → RelocationEntry) (l : List ℕ) :
    Even (relocateAgain noReloc relocs l) := by
  refine Frame.bind relock fun ret => Frame.ite Frame.pure ?_
  refine Frame.bind (reacquire l) fun ret => Frame.ite Frame.pure ?_
  refine Frame.bind (fun w => ⟨fun _ => by rw [Pi.zero_apply, Int.add_zero]; rfl,
    List.prefix_refl _, rfl, id⟩) fun _ => ?_
  refine Frame.bind reserve fun ret => Frame.ite Frame.pure ?_
  exact Frame.bind Frame.get fun w => relocateObjectsSlow relocs _

theorem relocateCopied (noReloc : Bool) (count : BitVec 32) (l : List ℕ) :
    Even (relocateCopied noReloc count l) := by
  refine Frame.bind (copyRelocs l _) fun c => Frame.bind (Frame.ite ?_ ?_) fun _ => Frame.pure
  · exact relocateAgain noReloc _ l
  · exact Frame.bind relock fun _ => Frame.pure

theorem relocateSlow (noReloc : Bool) (count : BitVec 32) : Even (relocateSlow noReloc count) := by
  refine Frame.bind releaseObjects fun _ => Frame.bind Frame.get fun w => ?_
  refine Frame.bind (drmCalloc _ _) fun _ => Frame.bind (drmCalloc _ _) fun _ => ?_
  refine Frame.ite (Frame.bind relock fun _ => Frame.pure) ?_
  exact Frame.bind (relocateCopied noReloc count _) fun _ => Frame.pure

end Even

end

end GfxDrm.I915
