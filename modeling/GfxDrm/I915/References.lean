import GfxDrm.I915.Execbuffer
import GfxDrm.I915.PwriteBalanced

/-! What the steps of an execbuffer call up to the batch do to the references it has taken, and
to the rings. -/

namespace GfxDrm.I915

open Hoare Errno

/-! ### Steps that leave the list of the call alone -/

def RingCmd.isBatch : RingCmd → Bool
  | .batch .. => true
  | _ => false

/-- The GPU has been told of nothing that is not in the ring, and of nothing when it is stopped. -/
structure Ring.Told (ring : Ring) (stopped : Bool) : Prop where
  visible : ring.visible ≤ ring.trace.length
  stopped : stopped = true → ring.visible = 0

/-- No batch is in a ring. -/
def World.Fresh (w : World) : Prop :=
  ∀ r, (∀ c ∈ (w.ring r).trace, c.isBatch = false) ∧ (w.ring r).Told (w.dev.stopRings r)

/-- So many references are taken, and no batch is written. -/
structure World.Borrows (d : ObjId → ℤ) (w w' : World) : Prop where
  own : ∀ o, w'.own o = w.own o + d o
  objects : w'.objects = w.objects
  faults : w'.faults = w.faults
  dev : w'.dev = w.dev
  fresh : w.Fresh → w'.Fresh

section

variable {w w' w'' : World} {o : ObjId} {r : RingId} {d d' : ObjId → ℤ}

namespace World

theorem Borrows.trans (h : Borrows d w w') (h' : Borrows d' w' w'') : Borrows (d + d') w w'' where
  own o := by
    rw [h'.own, h.own, Pi.add_apply]
    omega
  objects := h'.objects.trans h.objects
  faults := h'.faults.trans h.faults
  dev := h'.dev.trans h.dev
  fresh hw := h'.fresh (h.fresh hw)

theorem Borrows.refl (w : World) : Borrows 0 w w :=
  ⟨fun _ => by rw [Pi.zero_apply, Int.add_zero], rfl, rfl, rfl, id⟩

instance : IsPreorder World (Borrows 0) where
  refl := Borrows.refl
  trans _ _ _ h h' := by
    have hh := h.trans h'
    rwa [zero_add] at hh

theorem Borrows.of_own (hown : ∀ o, w'.own o = w.own o) (hobj : w'.objects = w.objects)
    (hfaults : w'.faults = w.faults) (hdev : w'.dev = w.dev) (hfresh : w.Fresh → w'.Fresh) :
    Borrows 0 w w' :=
  ⟨fun o => by rw [hown, Pi.zero_apply, Int.add_zero], hobj, hfaults, hdev, hfresh⟩

theorem SameRefs.borrows (h : w.SameRefs w') (hdev : w'.dev = w.dev)
    (hfresh : w.Fresh → w'.Fresh) : Borrows 0 w w' :=
  .of_own h.own h.objects h.faults hdev hfresh

/-- Changes outside the objects, the rings and the account. -/
theorem Borrows.aside (hown : w'.own = w.own) (hobj : w'.objects = w.objects)
    (hfaults : w'.faults = w.faults) (hdev : w'.dev = w.dev) (hring : w'.ring = w.ring) :
    Borrows 0 w w' := by
  refine .of_own (fun o => by rw [hown]) hobj hfaults hdev fun h => ?_
  unfold Fresh
  rw [hring, hdev]
  exact h

theorem Borrows.setBo {b : Bo} (h : b.held = (w.bo o).held) : Borrows 0 w (w.setBo o b) :=
  (SameRefs.setBo h).borrows rfl id

theorem Borrows.foldl {α : Type} {f : World → α → World} (h : ∀ w a, Borrows 0 w (f w a)) (l : List α)
    (w : World) : Borrows 0 w (l.foldl f w) := Frame.foldl (Borrows 0) h l w

theorem Borrows.retire (w : World) (o : ObjId) : Borrows 0 w (w.retire o) := by
  refine (Calm.retire w o).toSameRefs.borrows (Calm.retire w o).dev fun h => ?_
  unfold World.retire
  split
  · exact h
  · exact h

theorem Borrows.pass (w : World) : Borrows 0 w w.pass := by
  have h : Borrows 0 w { w with coming := fun n => w.coming (n + 1) } :=
    .aside rfl rfl rfl rfl rfl
  have hforeign : ∀ v : World, Borrows 0 v (v.addForeign (w.coming 0).foreign) :=
    fun v => (Calm.addForeign v _).toSameRefs.borrows rfl id
  exact trans_of (Borrows 0) h (trans_of (Borrows 0) (hforeign _) (Borrows.foldl Borrows.retire _ _))

/-- A ring on which no batch is written. -/
theorem Fresh.setRing {ring : Ring} (h : w.Fresh) (hempty : ∀ c ∈ ring.trace, c.isBatch = false)
    (htold : ring.Told (w.dev.stopRings r)) : (w.setRing r ring).Fresh := by
  intro x
  by_cases hx : x = r
  · subst hx
    rw [show (w.setRing x ring).ring x = ring from Function.update_self ..]
    exact ⟨hempty, htold⟩
  · rw [show (w.setRing r ring).ring x = w.ring x from Function.update_of_ne hx ..]
    exact h x

theorem Borrows.setRing {ring : Ring} (h : w.Fresh → (w.setRing r ring).Fresh) :
    Borrows 0 w (w.setRing r ring) :=
  .of_own (fun _ => rfl) rfl rfl rfl h

end World

/-- Commands are added, and the GPU is told of them unless it is stopped. -/
theorem Ring.Told.append {ring : Ring} {stopped : Bool} (h : ring.Told stopped)
    (cmds : List RingCmd) (request : Seqno) : Ring.Told { ring with
      trace := ring.trace ++ cmds
      visible := if stopped then ring.visible else (ring.trace ++ cmds).length
      outstandingLazyRequest := request } stopped := by
  have hv := h.visible
  refine ⟨?_, fun hs => ?_⟩
  · dsimp only
    rw [List.length_append]
    split <;> omega
  · rw [if_pos hs]
    exact h.stopped hs

namespace World

theorem Borrows.addLazyRequest (w : World) (r : RingId) : Borrows 0 w (w.addLazyRequest r) := by
  unfold World.addLazyRequest
  dsimp only
  split
  · exact Borrows.refl w
  refine Borrows.setRing fun h => h.setRing (fun c hc => ?_) ?_
  · rcases List.mem_append.mp hc with hc | hc
    · exact (h r).1 c hc
    · obtain rfl := List.mem_singleton.mp hc
      rfl
  · have htold := (h r).2.append [.breadcrumb (w.ring r).outstandingLazyRequest] 0
    rwa [List.length_append] at htold

theorem Borrows.setContexts (w : World) (c : ObjId → Bo) : Borrows 0 w (w.setContexts c) := by
  refine .of_own (fun o => ?_) rfl rfl rfl id
  unfold World.own World.setContexts
  dsimp only
  split
  · rw [show Bo.held { c o with fenceReg := (w.bo o).fenceReg } = (c o).held from rfl]
    omega
  · rfl

theorem fresh_relock (w : World) (others : Shared) : (w.relock others).Fresh :=
  fun _ => ⟨fun _ hc => absurd hc List.not_mem_nil, Nat.le_refl 0, fun _ => rfl⟩

theorem Borrows.relock (w : World) (others : Shared) : Borrows 0 w (w.relock others) := by
  refine .of_own (fun o => ?_) rfl rfl rfl fun _ => w.fresh_relock others
  unfold World.own World.relock
  dsimp only
  omega

end World

/-- The program gives back what it takes, and writes no batch. -/
abbrev Level {α : Type} (m : ExecM α) : Prop := Frame (World.Borrows 0) m

namespace Level

theorem getBo : Level (getBo o) := World.Borrows.refl

theorem callOut : Level callOut := World.Borrows.pass

theorem waitOut : Level waitOut := fun w =>
  trans_of (World.Borrows 0) (World.Borrows.foldl World.Borrows.addLazyRequest _ w) (World.Borrows.pass _)

theorem modifyBo {f : Bo → Bo} (h : ∀ b, (f b).held = b.held) : Level (modifyBo o f) :=
  fun w => .setBo (h (w.bo o))

theorem modifyEntry {f : ExecObject2 → ExecObject2} : Level (modifyEntry o f) :=
  fun _ => .aside rfl rfl rfl rfl rfl

/-! ### Waits, fences and bindings -/

theorem waitSeqno : Level waitSeqno := Frame.bind waitOut fun _ => Frame.pure

theorem waitRendering {readonly : Bool} : Level (waitRendering o readonly) := by
  refine Frame.bind getBo fun b => Frame.ite Frame.pure ?_
  refine Frame.bind waitSeqno fun ret => Frame.ite Frame.pure ?_
  exact Frame.bind (modifyBo fun _ => rfl) fun _ => Frame.pure

theorem finishGpu : Level (finishGpu o) := by
  refine Frame.bind getBo fun b => Frame.ite Frame.pure ?_
  refine Frame.bind waitRendering fun ret => Frame.ite Frame.pure ?_
  exact Frame.bind (modifyBo fun _ => rfl) fun _ => Frame.pure

theorem finishGtt : Level (finishGtt o) := modifyBo fun b => by split <;> rfl

theorem waitFence : Level (waitFence o) := by
  refine Frame.bind getBo fun b => Frame.bind (Frame.ite Frame.pure waitSeqno) fun ret => ?_
  exact Frame.ite Frame.pure (Frame.bind (modifyBo fun _ => rfl) fun _ => Frame.pure)

theorem updateFence (reg : ℕ) (enable : Bool) (w : World) :
    World.Borrows 0 w (w.updateFence o reg enable) := by
  have hbo : World.Borrows 0 w (w.setBo o
      { w.bo o with fenceReg := if enable then some reg else none, fenceDirty := false }) :=
    .setBo rfl
  exact ⟨hbo.own, hbo.objects, hbo.faults, hbo.dev, hbo.fresh⟩

theorem putFence : Level (putFence o) := by
  refine Frame.bind waitFence fun ret => Frame.ite Frame.pure (Frame.bind getBo fun b => ?_)
  cases b.fenceReg with
  | none => exact Frame.pure
  | some reg =>
    refine Frame.bind (modifyBo fun _ => rfl) fun _ => ?_
    exact Frame.bind (updateFence reg false) fun _ => Frame.pure

theorem stealFence (reg : ℕ) : Level (stealFence reg) := by
  refine Frame.bind Frame.get fun w => ?_
  cases (w.fence reg).obj with
  | none => exact Frame.pure
  | some old =>
    refine Frame.bind waitFence fun ret => Frame.ite Frame.pure ?_
    exact Frame.bind (modifyBo fun _ => rfl) fun _ => Frame.pure

theorem getFence : Level (getFence o) := by
  refine Frame.bind getBo fun b => Frame.bind (Frame.ite waitFence Frame.pure) fun ret => ?_
  refine Frame.ite Frame.pure (Frame.bind Frame.get fun w => ?_)
  cases b.fenceReg with
  | some reg =>
    refine Frame.ite (Frame.bind (updateFence reg b.tiled) fun _ => Frame.pure) ?_
    exact Frame.bind (fun _ => .aside rfl rfl rfl rfl rfl) fun _ => Frame.pure
  | none =>
    refine Frame.ite ?_ Frame.pure
    cases w.findFenceReg with
    | none => exact Frame.pure
    | some reg =>
      refine Frame.bind (stealFence reg) fun ret => Frame.ite Frame.pure ?_
      exact Frame.bind (updateFence reg true) fun _ => Frame.pure

theorem pinFence : Level (pinFence o) := by
  refine Frame.bind Frame.get fun w => ?_
  cases (w.bo o).fenceReg with
  | none => exact Frame.pure
  | some reg =>
    exact Frame.bind (fun _ => .aside rfl rfl rfl rfl rfl) fun _ => Frame.pure

theorem unpinFence : Level (unpinFence o) := by
  intro w
  cases h : (w.bo o).fenceReg with
  | none =>
    have hnone : (I915.unpinFence o w).2 = w := by
      unfold I915.unpinFence
      rw [run_modify, h]
    rw [hnone]
    exact World.Borrows.refl w
  | some reg =>
    have hsome : (I915.unpinFence o w).2 =
        w.setFence reg { w.fence reg with pinCount := (w.fence reg).pinCount - 1 } := by
      unfold I915.unpinFence
      rw [run_modify, h]
    rw [hsome]
    exact .aside rfl rfl rfl rfl rfl

theorem unbind : Level (unbind o) := by
  refine Frame.bind getBo fun b => Frame.ite Frame.pure (Frame.ite Frame.pure ?_)
  refine Frame.bind finishGpu fun ret => Frame.ite Frame.pure ?_
  refine Frame.bind finishGtt fun _ => Frame.bind putFence fun ret => Frame.ite Frame.pure ?_
  exact Frame.bind (modifyBo fun _ => rfl) fun _ => Frame.pure

/-! ### References taken and given back -/

theorem borrows_setRefs (w : World) (o : ObjId) (n : ℤ) : World.Borrows (Pi.single o n) w
    (w.setBo o { w.bo o with refcount := (w.bo o).refcount + n }) :=
  ⟨(takes_setRefs w o n).own, rfl, rfl, rfl, id⟩

theorem reference (o : ObjId) : Frame (World.Borrows (Pi.single o 1)) (reference o) :=
  fun w => borrows_setRefs w o 1

theorem unreference (o : ObjId) : Frame (World.Borrows (Pi.single o (-1))) (unreference o) :=
  fun w => borrows_setRefs w o (-1)

theorem references (l : List ObjId) : Frame (World.Borrows (counted l)) (l.forM I915.reference) := by
  induction l with
  | nil => exact World.Borrows.refl
  | cons o l ih =>
    intro w
    rw [counted_cons]
    exact (reference o w).trans (ih _)

theorem unreferences (l : List ObjId) :
    Frame (World.Borrows (-counted l)) (l.forM I915.unreference) := by
  induction l with
  | nil => exact World.Borrows.refl
  | cons o l ih =>
    intro w
    rw [counted_cons, neg_add, ← Pi.single_neg]
    exact (unreference o w).trans (ih _)

theorem unbindVictims (l : List ObjId) (ret : ℤ) :
    Frame (World.Borrows (-counted l)) (unbindVictims l ret) := by
  induction l generalizing ret with
  | nil => exact World.Borrows.refl
  | cons o l ih =>
    intro w
    have hunbind : Level (if ret = 0 then I915.unbind o else pure ret) := Frame.ite unbind Frame.pure
    have hsum : (0 : ObjId → ℤ) + (Pi.single o (-1) + -counted l) = -counted (o :: l) := by
      rw [counted_cons, zero_add, neg_add, Pi.single_neg]
    rw [← hsum]
    exact (hunbind w).trans ((unreference o _).trans (ih _ _))

/-- Eviction gives back the references it takes. -/
theorem evictVictims (l : List ObjId) :
    Level (l.forM I915.reference >>= fun _ => I915.unbindVictims l 0) := by
  intro w
  have h := (references l w).trans (unbindVictims l 0 _)
  rwa [add_neg_cancel] at h

theorem evictSomething : Level evictSomething :=
  Frame.bind callOut fun _ => Frame.bind Frame.get fun _ => Frame.ite Frame.pure (evictVictims _)

theorem searchFree (misses : ℕ) : Level (searchFree misses) := by
  induction misses with
  | zero => exact Frame.pure
  | succ misses ih => exact Frame.bind evictSomething fun ret => Frame.ite ih Frame.pure

theorem bindToGtt : Level (bindToGtt o) := by
  refine Frame.bind callOut fun e => Frame.ite Frame.pure ?_
  refine Frame.bind (searchFree _) fun ret => Frame.ite Frame.pure ?_
  refine Frame.bind callOut fun e => Frame.ite Frame.pure ?_
  exact Frame.bind (modifyBo fun _ => rfl) fun _ => Frame.pure

theorem pin (alignment : BitVec 32) (mapAndFenceable : Bool) :
    Level (pin o alignment mapAndFenceable) := by
  refine Frame.bind getBo fun b => Frame.ite Frame.pure ?_
  refine Frame.bind (Frame.ite unbind Frame.pure) fun ret => Frame.ite Frame.pure ?_
  refine Frame.bind getBo fun b => Frame.bind (Frame.ite Frame.pure bindToGtt) fun ret => ?_
  exact Frame.ite Frame.pure (Frame.bind (fun _ => .setBo rfl) fun _ => Frame.pure)

theorem unpin : Level (unpin o) := modifyBo fun _ => rfl

/-! ### The reservation -/

theorem reserveFence : Level (reserveFence o) := by
  refine Frame.bind Frame.get fun w => Frame.ite (Frame.bind getFence fun ret => ?_) Frame.pure
  refine Frame.ite Frame.pure (Frame.bind pinFence fun pinned => ?_)
  refine Frame.bind (frame_onlyIf modifyEntry) fun _ => ?_
  exact Frame.bind (modifyBo fun _ => rfl) fun _ => Frame.pure

theorem reserveMappings : Level (reserveMappings o) := by
  refine Frame.bind (fun _ => .setBo rfl) fun _ => Frame.bind Frame.get fun w => ?_
  refine Frame.bind (frame_onlyIf (Frame.bind modifyEntry fun _ _ => .aside rfl rfl rfl rfl rfl))
    fun _ => ?_
  exact Frame.bind (frame_onlyIf (modifyBo fun _ => rfl)) fun _ => frame_onlyIf (modifyBo fun _ => rfl)

theorem reserveObject : Level (reserveObject o) := by
  refine Frame.bind Frame.get fun w => Frame.bind (pin _ _) fun ret => Frame.ite Frame.pure ?_
  refine Frame.bind modifyEntry fun _ => Frame.bind reserveFence fun ret => ?_
  exact Frame.ite Frame.pure (Frame.bind reserveMappings fun _ => Frame.pure)

theorem unreserveObject : Level (unreserveObject o) := by
  refine Frame.bind Frame.get fun w => frame_onlyIf ?_
  refine Frame.bind (frame_onlyIf unpinFence) fun _ => Frame.bind (frame_onlyIf unpin) fun _ => modifyEntry

theorem orderObjects (batch : Option ObjId) (l ordered : List ObjId) :
    Level (orderObjects batch l ordered) := by
  induction l generalizing ordered with
  | nil => exact Frame.pure
  | cons o l ih =>
    refine Frame.bind Frame.get fun w => Frame.bind (modifyBo fun _ => rfl) fun _ => ?_
    refine Frame.bind (frame_onlyIf (Frame.bind ?_ fun _ => modifyBo fun _ => rfl)) fun _ => ih _
    exact Frame.ite getFence putFence

theorem pinBound (l : List ObjId) : Level (pinBound l) := by
  induction l with
  | nil => exact Frame.pure
  | cons o l ih =>
    refine Frame.bind Frame.get fun w => ?_
    refine Frame.bind (Frame.ite Frame.pure (Frame.ite unbind reserveObject)) fun ret => ?_
    exact Frame.ite Frame.pure ih

theorem bindFresh (l : List ObjId) : Level (bindFresh l) := by
  induction l with
  | nil => exact Frame.pure
  | cons o l ih =>
    refine Frame.bind Frame.get fun w => Frame.bind (Frame.ite Frame.pure reserveObject) fun ret => ?_
    exact Frame.ite Frame.pure ih

theorem reserveRound (l : List ObjId) : Level (reserveRound l) := by
  refine Frame.bind (Frame.bind (pinBound l) fun ret => Frame.ite Frame.pure (bindFresh l))
    fun ret => ?_
  exact Frame.bind (Frame.forM fun _ _ => unreserveObject) fun _ => Frame.pure

theorem gpuIdle : Level gpuIdle :=
  Frame.bind waitOut fun _ => Frame.bind (fun _ => .setContexts _ _) fun _ => Frame.pure

theorem evictEverything : Level evictEverything := by
  refine Frame.bind callOut fun e => Frame.ite Frame.pure ?_
  refine Frame.bind gpuIdle fun ret => Frame.ite Frame.pure (Frame.bind callOut fun e => ?_)
  refine Frame.bind (Frame.forM fun o _ => ?_) fun _ => Frame.pure
  exact Frame.bind getBo fun b => frame_onlyIf unbind

end Level

end

end GfxDrm.I915
