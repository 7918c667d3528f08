import GfxDrm.I915.Reserve
import GfxDrm.Lib.Hoare

/-! What the steps of an execbuffer call leave alone: pins, bindings and fences on the one
hand, references on the other. -/

namespace GfxDrm.I915

open Hoare

/-- The fields of an object that say where it is bound, what pins it and which fence it has. -/
def Bo.core (b : Bo) : BitVec 32 × Bool × BitVec 32 × Option ℕ × ℕ :=
  (b.pinCount, b.gttSpace, b.gttOffset, b.fenceReg, b.execEntry)

/-- The references to an object that neither the active list nor another thread accounts for. -/
def World.own (w : World) (o : ObjId) : ℤ := (w.bo o).held - w.foreign o

/-- Pins, bindings, fences and flags of `w'` are those of `w`. -/
structure World.Same (w w' : World) : Prop where
  dev : w'.dev = w.dev
  fence : w'.fence = w.fence
  flags : ∀ i, (w'.exec i).flags = (w.exec i).flags
  core : ∀ o, (w'.bo o).core = (w.bo o).core

/-- The list and the references the call has to account for are those of `w`. -/
structure World.SameRefs (w w' : World) : Prop where
  own : ∀ o, w'.own o = w.own o
  objects : w'.objects = w.objects
  faults : w'.faults = w.faults

structure World.Calm (w w' : World) : Prop extends World.Same w w', World.SameRefs w w'

variable {w w' w'' : World} {o : ObjId} {b : Bo}

namespace World

instance : IsPreorder World Same where
  refl _ := ⟨rfl, rfl, fun _ => rfl, fun _ => rfl⟩
  trans _ _ _ h h' := ⟨h'.dev.trans h.dev, h'.fence.trans h.fence,
    fun i => (h'.flags i).trans (h.flags i), fun o => (h'.core o).trans (h.core o)⟩

instance : IsPreorder World SameRefs where
  refl _ := ⟨fun _ => rfl, rfl, rfl⟩
  trans _ _ _ h h' := ⟨fun o => (h'.own o).trans (h.own o), h'.objects.trans h.objects,
    h'.faults.trans h.faults⟩

instance : IsPreorder World Calm where
  refl w := ⟨refl_of Same w, refl_of SameRefs w⟩
  trans _ _ _ h h' := ⟨trans_of Same h.toSame h'.toSame, trans_of SameRefs h.toSameRefs h'.toSameRefs⟩

theorem Same.setBo (h : b.core = (w.bo o).core) : w.Same (w.setBo o b) where
  dev := rfl
  fence := rfl
  flags _ := rfl
  core x := by
    by_cases hx : x = o
    · rw [hx, w.setBo_self, h]
    · rw [w.setBo_of_ne _ _ _ hx]

theorem own_setBo (x : ObjId) :
    (w.setBo o b).own x = if x = o then b.held - w.foreign o else w.own x := by
  unfold own
  split
  · subst x
    rw [w.setBo_self]
    rfl
  · rw [w.setBo_of_ne _ _ _ ‹_›]
    rfl

theorem SameRefs.setBo (h : b.held = (w.bo o).held) : w.SameRefs (w.setBo o b) where
  own x := by
    rw [own_setBo]
    split
    · subst x
      rw [h]
      rfl
    · rfl
  objects := rfl
  faults := rfl

theorem Calm.setBo (hc : b.core = (w.bo o).core) (hh : b.held = (w.bo o).held) :
    w.Calm (w.setBo o b) :=
  ⟨.setBo hc, .setBo hh⟩

theorem Calm.retire (w : World) (o : ObjId) : w.Calm (w.retire o) := by
  unfold World.retire
  split
  · rename_i h
    have hact : (w.bo o).active = true := by
      unfold retirable at h
      simp_all
    exact .setBo rfl (Bo.held_moveToInactive hact)
  · exact refl_of Calm w

theorem Calm.addLazyRequest (w : World) (r : RingId) : w.Calm (w.addLazyRequest r) := by
  unfold World.addLazyRequest
  dsimp only
  split
  · exact refl_of Calm w
  · exact ⟨⟨rfl, rfl, fun _ => rfl, fun _ => rfl⟩, ⟨fun _ => rfl, rfl, rfl⟩⟩

theorem Calm.addForeign (w : World) (d : ObjId → ℤ) : w.Calm (w.addForeign d) := by
  refine ⟨⟨rfl, rfl, fun _ => rfl, fun _ => rfl⟩, ⟨fun o => ?_, rfl, rfl⟩⟩
  have h := (w.bo o).held_add (d o)
  change { w.bo o with refcount := (w.bo o).refcount + d o }.held - (w.foreign o + d o) = w.own o
  rw [h, own]
  omega

theorem Calm.pass (w : World) : w.Calm w.pass := by
  have h : w.Calm { w with coming := fun n => w.coming (n + 1) } :=
    ⟨⟨rfl, rfl, fun _ => rfl, fun _ => rfl⟩, ⟨fun _ => rfl, rfl, rfl⟩⟩
  exact trans_of Calm h (trans_of Calm (Calm.addForeign _ _) (Frame.foldl Calm Calm.retire _ _))

end World

/-- The program leaves all of that alone. -/
abbrev Quiet {α : Type} (m : ExecM α) : Prop := Frame World.Calm m

theorem Quiet.same {α : Type} {m : ExecM α} (h : Quiet m) (w : World) : w.Same (m w).2 :=
  (h w).toSame

theorem frame_onlyIf {R : World → World → Prop} [IsPreorder World R] {c : Bool} {m : ExecM Unit}
    (h : Frame R m) : Frame R (onlyIf c m) := Frame.ite h Frame.pure

namespace Quiet

theorem getBo : Quiet (getBo o) := refl_of World.Calm

theorem callOut : Quiet callOut := World.Calm.pass

theorem waitOut : Quiet waitOut := fun w =>
  trans_of World.Calm (Frame.foldl World.Calm World.Calm.addLazyRequest _ w) (World.Calm.pass _)

theorem modifyBo {f : Bo → Bo} (hc : ∀ b, (f b).core = b.core) (hh : ∀ b, (f b).held = b.held) :
    Quiet (modifyBo o f) :=
  fun w => .setBo (hc (w.bo o)) (hh (w.bo o))

theorem modifyEntry {f : ExecObject2 → ExecObject2} (h : ∀ e, (f e).flags = e.flags) :
    Quiet (modifyEntry o f) := by
  refine fun w => ⟨⟨rfl, rfl, fun i => ?_, fun _ => rfl⟩, ⟨fun _ => rfl, rfl, rfl⟩⟩
  by_cases hi : i = (w.bo o).execEntry
  · subst hi
    exact (congrArg ExecObject2.flags (Function.update_self ..)).trans (h _)
  · exact congrArg ExecObject2.flags (Function.update_of_ne hi ..)

theorem waitSeqno : Quiet waitSeqno := Frame.bind waitOut fun _ => Frame.pure

theorem waitRendering {readonly : Bool} : Quiet (waitRendering o readonly) := by
  refine Frame.bind getBo fun b => Frame.ite Frame.pure ?_
  refine Frame.bind waitSeqno fun ret => Frame.ite Frame.pure ?_
  exact Frame.bind (modifyBo (fun _ => rfl) fun _ => rfl) fun _ => Frame.pure

theorem finishGpu : Quiet (finishGpu o) := by
  refine Frame.bind getBo fun b => Frame.ite Frame.pure ?_
  refine Frame.bind waitRendering fun ret => Frame.ite Frame.pure ?_
  exact Frame.bind (modifyBo (fun _ => rfl) fun _ => rfl) fun _ => Frame.pure

theorem finishGtt : Quiet (finishGtt o) :=
  modifyBo (fun b => by split <;> rfl) fun b => by split <;> rfl

theorem waitFence : Quiet (waitFence o) := by
  refine Frame.bind getBo fun b => Frame.bind (Frame.ite Frame.pure waitSeqno) fun ret => ?_
  refine Frame.ite Frame.pure ?_
  exact Frame.bind (modifyBo (fun _ => rfl) fun _ => rfl) fun _ => Frame.pure

theorem reserveMappings : Quiet (reserveMappings o) := by
  refine Frame.bind (fun w => .setBo rfl rfl) fun _ => Frame.bind Frame.get fun w => ?_
  refine Frame.bind (frame_onlyIf (Frame.bind (modifyEntry fun _ => rfl) fun _ => ?_)) fun _ => ?_
  · exact fun w => ⟨⟨rfl, rfl, fun _ => rfl, fun _ => rfl⟩, ⟨fun _ => rfl, rfl, rfl⟩⟩
  · exact Frame.bind (frame_onlyIf (modifyBo (fun _ => rfl) fun _ => rfl))
      fun _ => frame_onlyIf (modifyBo (fun _ => rfl) fun _ => rfl)

end Quiet

theorem reference_same : Frame World.Same (reference o) := fun _ => .setBo rfl

theorem unreference_same : Frame World.Same (unreference o) := fun _ => .setBo rfl

/-! ### Reading the state -/

section

variable {β : Type} {P : World → Prop} {Q : β → World → Prop}

theorem triple_getBo {k : Bo → ExecM β}
    (h : ∀ b, Triple (fun w => P w ∧ w.bo o = b) (k b) Q) : Triple P (getBo o >>= k) Q :=
  fun w hw => h (w.bo o) w ⟨hw, rfl⟩

theorem triple_get {k : World → ExecM β} (h : ∀ v, P v → Triple (fun w => w = v) (k v) Q) :
    Triple P (get >>= k) Q :=
  fun w hw => h w hw w rfl

end

end GfxDrm.I915
