import GfxDrm.DrmMm.Links

/-! Runs of a manager with its list nodes, and the walk of drm_mm_debug_table. -/

namespace GfxDrm
open Circular GfxDrm.Ring GfxDrm.Ring.Links Run

def linkedMmSystem (nodeLinks : Links NodeRef NodeRef)
    (holeLinks : Links (Option NodeRef) NodeRef) (start size : ℕ) (adjust : Option ColorAdjust) :
    System LinkedMm DrmMmOp where
  init s := linkedMmInit nodeLinks holeLinks start size adjust = some s
  step s op s' := op.Ok s.mm ∧ s.apply op = some s'

instance (q : MmRequest) : Decidable q.Ok := inferInstanceAs (Decidable (_ ∧ _))

instance (mm : DrmMm) : (op : DrmMmOp) → Decidable (op.Ok mm)
  | .createBlock .. => inferInstanceAs (Decidable (_ ∧ _))
  | .insertNode .. => inferInstanceAs (Decidable (_ ∧ _))
  | .removeNode _ => inferInstanceAs (Decidable (_ = _))
  | .scan .. => inferInstanceAs (Decidable (_ ∧ _))

/-- The run of a row of calls on a new manager. -/
def linkedMmRun (nodeLinks : Links NodeRef NodeRef) (holeLinks : Links (Option NodeRef) NodeRef)
    (start size : ℕ) (adjust : Option ColorAdjust) (ops : List DrmMmOp) : Option LinkedMm :=
  (linkedMmInit nodeLinks holeLinks start size adjust).bind fun s =>
    exec LinkedMm.apply (fun s op => decide (op.Ok s.mm)) s ops

/-- The free space behind `entry`. -/
def drmMmDebugHole (mm : DrmMm) (entry : NodeRef) : ℕ :=
  if (mm.node entry).holeFollows then
    Word.sub 64 (drmMmHoleNodeEnd mm entry) (drmMmHoleNodeStart mm entry)
  else 0

namespace LinkedMm

/-- The nodes drm_mm_for_each_node visits, if it has ended after `fuel` of them. -/
def debugWalk (s : LinkedMm) (fuel : ℕ) : Option (List NodeRef) :=
  s.nodeLinks.walk id fuel ((s.nodeLinks.next .head).bind s.nodeLinks.entry)

/-- The totals used and free that drm_mm_debug_table prints. -/
def drmMmDebugTable (s : LinkedMm) (fuel : ℕ) : Option (ℕ × ℕ) :=
  (s.debugWalk fuel).map fun visited =>
    (visited.foldl (fun total r => Word.add 64 total (s.mm.node r).size) 0,
      visited.foldl (fun total r => Word.add 64 total (drmMmDebugHole s.mm r))
        (drmMmDebugHole s.mm .head))

/-- The walk ends, after one visit to each allocated node, with totals that add up. -/
def DebugTableOk (s : LinkedMm) (size : ℕ) : Prop :=
  ∃ fuel visited used free, s.debugWalk fuel = some visited ∧
    (∀ n, (s.mm.node (.block n)).allocated = true → visited.count (.block n) = 1) ∧
    s.drmMmDebugTable fuel = some (used, free) ∧ used + free = size

end LinkedMm

open DrmMm LinkedMm

variable {nodeLinks : Links NodeRef NodeRef} {holeLinks : Links (Option NodeRef) NodeRef}
  {start size : ℕ} {adjust : Option ColorAdjust} {s t : LinkedMm}

theorem DrmMm.init_shape (start size : ℕ) (adjust : Option ColorAdjust) :
    Shape { drmMmInit start size with colorAdjust := adjust } where
  head_first := ⟨[], rfl⟩
  nodup := by simp [drmMmInit]
  allocated := by simp [drmMmInit]
  stack_nodup := by simp [drmMmInit]
  mem_stack := by simp +contextual [drmMmInit]

namespace LinkedMm

/-- Whatever the memory held, drm_mm_init leaves two proper lists. -/
theorem init_wired (nodeLinks : Links NodeRef NodeRef)
    (holeLinks : Links (Option NodeRef) NodeRef) (start size : ℕ) (adjust : Option ColorAdjust) :
    ∃ s, linkedMmInit nodeLinks holeLinks start size adjust = some s ∧
      s.mm = { drmMmInit start size with colorAdjust := adjust } ∧ Wired s := by
  have hne : ∀ x ∈ [(none : Option NodeRef)], x ≠ some .head := fun x hx => by
    rw [List.mem_singleton.mp hx]
    simp
  have hring : ((holeLinks.init none).init (some .head)).IsRing none [] :=
    (IsRing.init holeLinks none).congr
      (fun x hx => init_next_of_ne (holeLinks.init none) (hne x hx))
      fun x hx => init_prev_of_ne (holeLinks.init none) (hne x hx)
  obtain ⟨holes, hholes, hw, hentry, -⟩ := hring.addTail (x := some .head)
    (by simp) NodeRef.head
  have hnodes := IsRing.init nodeLinks NodeRef.head
  have hinit : linkedMmInit nodeLinks holeLinks start size adjust = some
      { mm := { drmMmInit start size with colorAdjust := adjust }
        nodeLinks :=
          { nodeLinks.init NodeRef.head with
            entry := Function.update (nodeLinks.init NodeRef.head).entry .head (some .head) }
        holeLinks := holes } := by
    rw [linkedMmInit]
    rw [hholes]
    rfl
  refine ⟨_, hinit, rfl, ⟨?_, ?_⟩, ?_⟩
  · exact hnodes.congr (fun _ _ => rfl) fun _ _ => rfl
  · intro r hr
    have hhead : r = .head := List.mem_singleton.mp hr
    rw [hhead]
    change Function.update (nodeLinks.init NodeRef.head).entry .head (some .head) .head = _
    exact Function.update_self ..
  · refine ⟨hw, ?_, fun r hr => ?_, fun r hr hrs => absurd hr hrs⟩
    · have hhead := hne none (List.mem_singleton_self none)
      rw [hentry, Function.update_of_ne hhead, init_entry_of_ne _ hhead]
      exact init_entry_self ..
    · rw [List.mem_singleton.mp hr, hentry]
      exact Function.update_self ..

theorem reach_wired (h : Reach (linkedMmSystem nodeLinks holeLinks start size adjust) s) :
    Shape s.mm ∧ Wired s := by
  refine h.invariant (I := fun s => Shape s.mm ∧ Wired s) (fun s hi => ?_)
    fun s op t hs _ hstep => ?_
  · obtain ⟨u, hu, hmm, hw⟩ := init_wired nodeLinks holeLinks start size adjust
    obtain rfl : u = s := Option.some.inj (hu.symm.trans hi)
    exact ⟨hmm ▸ init_shape start size adjust, hw⟩
  · obtain ⟨u, hu, hmm, hw⟩ := apply_wired hs.1 hs.2 hstep.1
    obtain rfl : u = t := Option.some.inj (hu.symm.trans hstep.2)
    exact ⟨hmm ▸ hs.1.apply hstep.1, hw⟩

/-- The list nodes carry the manager's lists in every run: the ring of the nodes is `node_list`, the
walk that the searches make meets `hole_stack`, and no operation comes to a null pointer. -/
theorem list_nodes_carry_mm
    (h : Reach (linkedMmSystem nodeLinks holeLinks start size adjust) s) :
    Reach (drmMmSystem start size adjust) s.mm ∧ s.nodeLinks.IsRing .head s.mm.nodeList.tail ∧
      (∃ fuel, s.holeLinks.walk some fuel ((s.holeLinks.next none).bind s.holeLinks.entry) =
        some s.mm.holeStack) ∧
      ∀ op : DrmMmOp, op.Ok s.mm → ∃ t, s.apply op = some t ∧ t.mm = op.apply s.mm := by
  have hreach : Reach (drmMmSystem start size adjust) s.mm := by
    induction h with
    | init hi =>
      obtain ⟨u, hu, hmm, -⟩ := init_wired nodeLinks holeLinks start size adjust
      cases hu.symm.trans hi
      exact .init hmm
    | step hr _ hstep ih =>
      obtain ⟨hshape, hw⟩ := reach_wired hr
      obtain ⟨u, hu, hmm, -⟩ := apply_wired hshape hw hstep.1
      cases hu.symm.trans hstep.2
      exact ih.step trivial ⟨hstep.1, hmm⟩
  obtain ⟨hshape, hw⟩ := reach_wired h
  refine ⟨hreach, hw.nodes.ring, hw.holes.ring.walk hw.holes.head hw.holes.entry, fun op hok => ?_⟩
  obtain ⟨t, ht, hmm, -⟩ := apply_wired hshape hw hok
  exact ⟨t, ht, hmm⟩

/-- A computed run ends in a reachable state. -/
theorem reach_of_run (nodeLinks : Links NodeRef NodeRef)
    (holeLinks : Links (Option NodeRef) NodeRef)
    (start size : ℕ) (adjust : Option ColorAdjust) (ops : List DrmMmOp) (p : LinkedMm → Bool)
    (h : (linkedMmRun nodeLinks holeLinks start size adjust ops).any p = true) :
    ∃ s, Reach (linkedMmSystem nodeLinks holeLinks start size adjust) s ∧ p s = true := by
  obtain ⟨s, hs, hp⟩ := Option.any_eq_true _ _ |>.mp h
  obtain ⟨s₀, hs₀, hrun⟩ := Option.bind_eq_some_iff.mp hs
  refine ⟨s, ReachWhile.of_exec_steps (fun s op t hok ht => ?_) (.init hs₀) hrun, hp⟩
  exact ⟨trivial, of_decide_eq_true hok, ht⟩

theorem list_nodes_carry_mm_block : ∃ s : LinkedMm, (s.mm.node (.block 0)).allocated = true ∧
    Reach (drmMmSystem 0 0x3000 none) s.mm ∧ s.nodeLinks.IsRing .head s.mm.nodeList.tail := by
  obtain ⟨s, hs, hp⟩ := reach_of_run .zero .zero 0 0x3000 none
    [.insertNode { size := 0x1000 } 0] (fun s => (s.mm.node (.block 0)).allocated)
    (by decide +kernel)
  exact ⟨s, hp, (list_nodes_carry_mm hs).1, (list_nodes_carry_mm hs).2.1⟩

end LinkedMm

namespace Wired

/-- The head node names itself, so the walk over the nodes goes round for ever. -/
theorem debugWalk_none (h : Wired s) (fuel : ℕ) : s.debugWalk fuel = none :=
  h.nodes.ring.walk_endless (fun x hx => ⟨x, h.nodes.entry x hx, rfl⟩) fuel

theorem not_debugTableOk (h : Wired s) (size : ℕ) : ¬ s.DebugTableOk size := by
  rintro ⟨fuel, visited, used, free, hwalk, -⟩
  rw [h.debugWalk_none] at hwalk
  exact absurd hwalk (by simp)

end Wired

/-- In no state of any run does drm_mm_debug_table end. -/
theorem debug_table_never_ends
    (h : Reach (linkedMmSystem nodeLinks holeLinks start size adjust) s) :
    ¬ s.DebugTableOk size ∧ ∀ fuel, s.drmMmDebugTable fuel = none := by
  have hw := (reach_wired h).2
  refine ⟨hw.not_debugTableOk size, fun fuel => ?_⟩
  rw [drmMmDebugTable, hw.debugWalk_none]
  rfl

theorem debug_table_never_ends_block :
    ∃ s, Reach (linkedMmSystem .zero .zero 0 0x3000 none) s ∧
      (s.mm.node (.block 0)).allocated = true ∧
      ¬ s.DebugTableOk 0x3000 ∧ ∀ fuel, s.drmMmDebugTable fuel = none := by
  obtain ⟨s, hs, hp⟩ := reach_of_run .zero .zero 0 0x3000 none
    [.insertNode { size := 0x1000 } 0] (fun s => (s.mm.node (.block 0)).allocated)
    (by decide +kernel)
  exact ⟨s, hs, hp, debug_table_never_ends hs⟩

/-- Already the walk over a manager without a node does not end. -/
theorem debug_table_fresh_endless : ¬ ∀ s,
    Reach (linkedMmSystem .zero .zero 0 0x3000 none) s → s.DebugTableOk 0x3000 := by
  intro h
  obtain ⟨s, hs, -, hw⟩ := init_wired .zero .zero 0 0x3000 none
  exact hw.not_debugTableOk _ (h s (.init hs))

end GfxDrm
