import GfxDrm.DrmMm.DebugTable
import GfxDrm.DrmMm.Renamed

/-! drm_mm_replace_node: a new struct takes the place of an allocated node. -/

namespace GfxDrm
open Circular GfxDrm.Ring GfxDrm.Ring.Links Run DrmMm

/-- The new node takes the place of the old one on both lists. -/
def drmMmReplaceNode (mm : DrmMm) (old new : ℕ) : DrmMm :=
  let o := mm.node (.block old)
  let mm' := mm.setNode (.block new) fun n =>
    { n with
      holeFollows := o.holeFollows
      start := o.start
      size := o.size
      color := o.color }
  let mm' := mm'.setNode (.block old) fun n => { n with allocated := false }
  { mm'.setNode (.block new) fun n => { n with allocated := true } with
    nodeList := mm.nodeList.map (NodeRef.rename (Equiv.swap old new))
    holeStack := mm.holeStack.map (NodeRef.rename (Equiv.swap old new)) }

namespace LinkedMm

def replaceNode (s : LinkedMm) (old new : ℕ) : Option LinkedMm :=
  (s.nodeLinks.replace (.block old) (.block new)).bind fun nodes =>
  (s.holeLinks.replace (some (.block old)) (some (.block new))).map fun holes =>
  { mm := drmMmReplaceNode s.mm old new
    nodeLinks := nodes
    holeLinks := holes }

/-- The answers to a row of calls, and the manager after them. -/
def run : LinkedMm → List DrmMmOp → Option (List MmAnswer × LinkedMm)
  | s, [] => some ([], s)
  | s, op :: ops => (s.apply op).bind fun t =>
      (run t ops).map fun r => (op.answer s.mm :: r.1, r.2)

/-- What drm_mm_debug_table has printed after `fuel` nodes: of each its start, its size and the
free space behind it. -/
def debugLines (s : LinkedMm) (fuel : ℕ) : List (ℕ × ℕ × ℕ) :=
  (s.nodeLinks.met id fuel ((s.nodeLinks.next .head).bind s.nodeLinks.entry)).map fun r =>
    ((s.mm.node r).start, (s.mm.node r).size, drmMmDebugHole s.mm r)

/-- Calls that are permitted in turn; `drm_mm_kmalloc` does not hand out the struct `x`. -/
def Permits (x : ℕ) (s : LinkedMm) (ops : List DrmMmOp) : Prop :=
  AllAllowed (fun mm op => op.Ok mm ∧ op.Spares x) DrmMmOp.apply ops s.mm

/-- `t` is `s` with `old` renamed to `new`, for every later call too. -/
structure ReplacedBy (s : LinkedMm) (old new : ℕ) (t : LinkedMm) : Prop where
  wired : Wired t
  renamed : Renamed (Equiv.swap old new) new s.mm t.mm
  gone : .block old ∉ t.mm.nodeList ∧ .block old ∉ t.mm.holeStack
  later : ∀ ops, s.Permits new ops → ∃ answers s' t',
    s.run ops = some (answers, s') ∧
    t.run (ops.map (DrmMmOp.rename (Equiv.swap old new))) =
      some (answers.map (MmAnswer.rename (Equiv.swap old new)), t') ∧
    Wired t' ∧ Renamed (Equiv.swap old new) new s'.mm t'.mm
  debug : ∀ fuel, t.debugLines fuel = s.debugLines fuel

/-- The new struct names itself already where it is to be linked, and the links of the old one's
`hole_stack` are not null. -/
@[mk_iff] structure Replaceable (s : LinkedMm) (old new : ℕ) : Prop where
  node_entry : s.nodeLinks.entry (.block new) = some (.block new)
  hole_entry : (s.mm.node (.block old)).holeFollows = true →
    s.holeLinks.entry (some (.block new)) = some (.block new)
  hole_links : s.holeLinks.next (some (.block old)) ≠ none

end LinkedMm

variable {s t : LinkedMm} {old new : ℕ}

theorem rename_swap (old new : ℕ) :
    NodeRef.rename (Equiv.swap old new) = Equiv.swap (.block old) (.block new) := by
  funext r
  cases r with
  | head => exact (Equiv.swap_apply_of_ne_of_ne (by simp) (by simp)).symm
  | block n =>
    have hinj : Function.Injective NodeRef.block := fun _ _ h => NodeRef.block.inj h
    exact (hinj.swap_apply old new n).symm

namespace DrmMm
variable {mm : DrmMm} {n : ℕ} {r : NodeRef}

theorem rename_old (old new : ℕ) :
    NodeRef.rename (Equiv.swap old new) (.block old) = .block new := by
  rw [rename_block, Equiv.swap_apply_left]

theorem rename_new (old new : ℕ) :
    NodeRef.rename (Equiv.swap old new) (.block new) = .block old := by
  rw [rename_block, Equiv.swap_apply_right]

theorem rename_other (ho : r ≠ .block old) (hn : r ≠ .block new) :
    NodeRef.rename (Equiv.swap old new) r = r := by
  rw [rename_swap]
  exact Equiv.swap_apply_of_ne_of_ne ho hn

/-- The struct of the old node holds what it held, but for its `allocated`. -/
theorem replace_renamed (hold : (mm.node (.block old)).allocated = true)
    (hnew : (mm.node (.block new)).allocated = false) :
    Renamed (Equiv.swap old new) new mm (drmMmReplaceNode mm old new) := by
  have hne : NodeRef.block new ≠ .block old := fun heq => by
    rw [heq, hold] at hnew
    exact absurd hnew (by simp)
  have hnode : (drmMmReplaceNode mm old new).node (.block new) =
      { mm.node (.block new) with
        holeFollows := (mm.node (.block old)).holeFollows
        start := (mm.node (.block old)).start
        size := (mm.node (.block old)).size
        color := (mm.node (.block old)).color
        allocated := true } := by
    simp [drmMmReplaceNode, setNode, Function.update_of_ne hne]
  have hleft : (drmMmReplaceNode mm old new).node (.block old) =
      { mm.node (.block old) with allocated := false } := by
    simp [drmMmReplaceNode, setNode, Function.update_of_ne hne.symm]
  have hother : ∀ r, r ≠ .block old → r ≠ .block new →
      (drmMmReplaceNode mm old new).node r = mm.node r := by
    intro r ho hn
    simp [drmMmReplaceNode, setNode, Function.update_of_ne ho, Function.update_of_ne hn]
  refine ⟨rfl, rfl, rfl, fun r => ?_, fun r hr => ?_⟩
  · by_cases ho : r = .block old
    · rw [ho, rename_old, hnode, hold]
    · by_cases hn : r = .block new
      · rw [hn, rename_new, hleft, hnew]
      · rw [rename_other ho hn, hother r ho hn]
  · by_cases ho : r = .block old
    · rw [ho, rename_old, hnode, DrmMmNode.core, DrmMmNode.core, hold]
    · by_cases hn : r = .block new
      · rw [hn, hnew] at hr
        exact absurd rfl (hr.resolve_right (by simp))
      · rw [rename_other ho hn, hother r ho hn]

theorem apply_colorAdjust (hs : Shape mm) {op : DrmMmOp} (hok : op.Ok mm) :
    (op.apply mm).colorAdjust = mm.colorAdjust := by
  cases op with
  | createBlock kmalloc start size =>
    rcases createBlock_cases mm kmalloc start size with heq | ⟨r, -, n, -, -, -, heq⟩
    · exact congrArg DrmMm.colorAdjust heq
    · exact (congrArg DrmMm.colorAdjust heq).trans linkNode_colorAdjust
  | insertNode q n =>
    change (q.insert mm n).2.colorAdjust = _
    rw [q.insert_eq]
    split
    · rfl
    · exact linkNode_colorAdjust
  | removeNode n => exact removeNode_colorAdjust
  | scan q ns => exact (scanAll_restored hs q (scanList hs hok)).colorAdjust

end DrmMm

/-! ### The links -/

theorem NodesWired.replace {t : Links NodeRef NodeRef} {l : List NodeRef} (h : NodesWired t l)
    (hold : .block old ∈ l) (hnew : .block new ∉ NodeRef.head :: l)
    (hentry : t.entry (.block new) = some (.block new)) :
    ∃ u, t.replace (.block old) (.block new) = some u ∧
      NodesWired u (l.map (NodeRef.rename (Equiv.swap old new))) := by
  obtain ⟨u, hu, hring, hent, -⟩ := h.ring.replace hold hnew
  refine ⟨u, hu, ⟨rename_swap old new ▸ hring, fun r hr => ?_⟩⟩
  rw [hent]
  by_cases hrn : r = .block new
  · rw [hrn, hentry]
  · refine h.entry r ?_
    rcases List.mem_cons.mp hr with heq | hm
    · exact heq ▸ List.mem_cons_self
    · obtain ⟨a, ha, rfl⟩ := List.mem_map.mp hm
      have hao : a ≠ .block old := fun heq => hrn (heq ▸ rename_old old new)
      have han : a ≠ .block new := fun heq => hnew (heq ▸ List.mem_cons_of_mem _ ha)
      rw [rename_other hao han]
      exact List.mem_cons_of_mem _ ha

theorem map_rename_of_notMem {l : List NodeRef} (hold : .block old ∉ l) (hnew : .block new ∉ l) :
    l.map (NodeRef.rename (Equiv.swap old new)) = l := by
  rw [rename_swap]
  exact map_swap_of_notMem hold hnew

theorem map_some_rename (old new : ℕ) (l : List NodeRef) :
    (l.map some).map (Equiv.swap (some (.block old)) (some (.block new))) =
      (l.map (NodeRef.rename (Equiv.swap old new))).map some := by
  rw [rename_swap, List.map_map, List.map_map]
  refine List.map_congr_left fun a _ => ?_
  exact (Option.some_injective NodeRef).swap_apply _ _ a

namespace HolesWired
variable {t : Links (Option NodeRef) NodeRef} {stack listed : List NodeRef}

theorem replace (h : HolesWired t stack listed) (hnew : .block new ∉ listed)
    (hsub : ∀ r ∈ stack, r ∈ listed)
    (hentry : .block old ∈ stack → t.entry (some (.block new)) = some (.block new))
    (hold : .block old ∈ listed) (hlinks : t.next (some (.block old)) ≠ none) :
    ∃ u, t.replace (some (.block old)) (some (.block new)) = some u ∧
      HolesWired u (stack.map (NodeRef.rename (Equiv.swap old new)))
        (listed.map (NodeRef.rename (Equiv.swap old new))) := by
  have hfix : ∀ a ∈ listed, a ≠ .block old → a.rename (Equiv.swap old new) = a := fun a ha hao =>
    rename_other hao fun heq => hnew (heq ▸ ha)
  have hnot : NodeRef.block new ∉ stack := fun hm => hnew (hsub _ hm)
  by_cases hmem : .block old ∈ stack
  · obtain ⟨u, hu, hring, hent, hframe⟩ :=
      h.ring.replace (y := some (.block new)) (List.mem_map_of_mem hmem) (notMem_map hnot)
    rw [map_some_rename] at hring
    refine ⟨u, hu, hring, hent ▸ h.head, fun r hr => ?_, fun r hr hrs => ?_⟩
    · obtain ⟨a, ha, rfl⟩ := List.mem_map.mp hr
      rw [hent]
      by_cases hao : a = .block old
      · rw [hao, rename_old]
        exact hentry hmem
      · rw [hfix a (hsub a ha) hao]
        exact h.entry a ha
    · obtain ⟨a, ha, rfl⟩ := List.mem_map.mp hr
      have has : a ∉ stack := fun hm => hrs (List.mem_map_of_mem hm)
      have hao : a ≠ .block old := fun heq => has (heq ▸ hmem)
      have han : a ≠ .block new := fun heq => hnew (heq ▸ ha)
      rw [hfix a ha hao, (hframe (some a) (by simpa [han] using has)).1]
      exact h.off a ha has
  · have hself := (h.off _ hold hmem).resolve_left hlinks
    obtain ⟨u, hu, hnext, -, hent, hframe⟩ := replace_self (y := some (.block new)) hself
    have hstack := map_rename_of_notMem hmem hnot
    have hout : ∀ y ∈ none :: stack.map some, y ≠ some (.block old) ∧ y ≠ some (.block new) :=
      fun y hy => ⟨fun heq => notMem_map hmem (heq ▸ hy), fun heq => notMem_map hnot (heq ▸ hy)⟩
    rw [hstack]
    refine ⟨u, hu, ?_, hent ▸ h.head, fun r hr => hent ▸ h.entry r hr, fun r hr hrs => ?_⟩
    · exact h.ring.congr (fun y hy => (hframe y (hout y hy).1 (hout y hy).2).1)
        fun y hy => (hframe y (hout y hy).1 (hout y hy).2).2
    · obtain ⟨a, ha, rfl⟩ := List.mem_map.mp hr
      by_cases hao : a = .block old
      · rw [hao, rename_old]
        exact .inr hnext
      · have han : a ≠ .block new := fun heq => hnew (heq ▸ ha)
        rw [hfix a ha hao] at hrs ⊢
        rw [(hframe (some a) (by simpa using hao) (by simpa using han)).1]
        exact h.off a ha hrs

end HolesWired

/-! ### Replacing -/

namespace LinkedMm

/-- The walk of the debug table goes from node to node of the list. -/
theorem met_eq (hk : Linked s.mm) (h : Wired s) {r : NodeRef} (hr : r ∈ s.mm.nodeList) :
    (s.nodeLinks.next r).bind s.nodeLinks.entry = some (s.mm.nextNode r) := by
  have hr' : r ∈ NodeRef.head :: s.mm.nodeList.tail := hk.eq_cons ▸ hr
  rw [h.nodes.ring.next r hr', Option.bind_some, h.nodes.entry _ (succ_mem ..), ← hk.eq_cons]
  rfl

theorem debugLines_renamed {σ : Equiv.Perm ℕ} {x : ℕ} (hs : Shape s.mm) (hw : Wired s)
    (hwt : Wired t) (h : Renamed σ x s.mm t.mm) (fuel : ℕ) :
    t.debugLines fuel = s.debugLines fuel := by
  have hl : ListedInUse s.mm := fun n hn => (hs.allocated n).mpr hn
  have hst := h.shape hs
  have hhole : ∀ r ∈ s.mm.nodeList, drmMmDebugHole t.mm (r.rename σ) = drmMmDebugHole s.mm r := by
    intro r hr
    rw [drmMmDebugHole, drmMmDebugHole, (h.fields (Renamed.known hl hr)).1,
      h.holeNodeEnd hs.toLinked hl, h.holeNodeStart hl hr]
  have hfrom : ∀ r ∈ s.mm.nodeList,
      (t.nodeLinks.met id fuel (some (r.rename σ))).map
          (fun r => ((t.mm.node r).start, (t.mm.node r).size, drmMmDebugHole t.mm r)) =
        (s.nodeLinks.met id fuel (some r)).map
          fun r => ((s.mm.node r).start, (s.mm.node r).size, drmMmDebugHole s.mm r) := by
    induction fuel with
    | zero => exact fun _ _ => rfl
    | succ fuel ih =>
      intro r hr
      obtain ⟨-, hstart, hsize⟩ := h.fields (Renamed.known hl hr)
      simp only [met, id, List.map_cons, met_eq hs.toLinked hw hr,
        met_eq hst.toLinked hwt (h.mem_nodeList.mpr hr), h.nextNode, hstart, hsize, hhole r hr]
      rw [ih _ (hs.toLinked.next_mem r)]
  rw [debugLines, debugLines, met_eq hs.toLinked hw hs.toLinked.head_mem,
    met_eq hst.toLinked hwt hst.toLinked.head_mem]
  have hfirst := h.nextNode .head
  rw [rename_head] at hfirst
  rw [hfirst]
  exact hfrom _ (hs.toLinked.next_mem _)

/-- Rows of calls on two managers that are each other's renaming stay in step. -/
theorem run_renamed {σ : Equiv.Perm ℕ} {x : ℕ} (hs : Shape s.mm) (hw : Wired s) (hwt : Wired t)
    (h : Renamed σ x s.mm t.mm) (hadj : ∀ f ∈ s.mm.colorAdjust, f.ReadsCore) (ops : List DrmMmOp)
    (hops : s.Permits x ops) : ∃ answers s' t',
      s.run ops = some (answers, s') ∧
      t.run (ops.map (DrmMmOp.rename σ)) = some (answers.map (MmAnswer.rename σ), t') ∧
      Wired t' ∧ Renamed σ x s'.mm t'.mm := by
  induction ops generalizing s t with
  | nil => exact ⟨[], s, t, rfl, rfl, hwt, h⟩
  | cons op ops ih =>
    obtain ⟨⟨hok, hx⟩, hrest⟩ := hops
    obtain ⟨u, hu, humm, huw⟩ := apply_wired hs hw hok
    obtain ⟨v, hv, hvmm, hvw⟩ := apply_wired (h.shape hs) hwt (h.ok hok)
    obtain ⟨hans, hren⟩ := h.apply hadj hs hok hx
    rw [← humm, ← hvmm] at hren
    have hadj' : ∀ f ∈ u.mm.colorAdjust, f.ReadsCore := by
      rw [humm, apply_colorAdjust hs hok]
      exact hadj
    obtain ⟨answers, s', t', hrun, hrun', hwt', hren'⟩ := ih (humm ▸ hs.apply hok) huw hvw hren
      hadj' (show AllAllowed _ _ ops u.mm from humm ▸ hrest)
    refine ⟨op.answer s.mm :: answers, s', t', ?_, ?_, hwt', hren'⟩
    · rw [run, hu, Option.bind_some, hrun]
      rfl
    · rw [List.map_cons, run, hv, Option.bind_some, hrun', hans]
      rfl

theorem replacedBy_iff (hs : Shape s.mm) (hw : Wired s)
    (hadj : ∀ f ∈ s.mm.colorAdjust, f.ReadsCore)
    (hold : (s.mm.node (.block old)).allocated = true)
    (hnew : (s.mm.node (.block new)).allocated = false) :
    (∃ t, s.replaceNode old new = some t ∧ s.ReplacedBy old new t) ↔ s.Replaceable old new := by
  have hren := replace_renamed hold hnew
  have holdmem := (hs.allocated old).mp hold
  have hnewmem : .block new ∉ s.mm.nodeList := fun hm => by
    rw [(hs.allocated new).mpr hm] at hnew
    exact absurd hnew (by simp)
  have hcons := hs.toLinked.eq_cons
  constructor
  · rintro ⟨t, ht, hby⟩
    obtain ⟨nodes, hnodes, ht'⟩ := Option.bind_eq_some_iff.mp ht
    obtain ⟨holes, hholes, rfl⟩ := Option.map_eq_some_iff.mp ht'
    have hnodeEntry : nodes.entry = s.nodeLinks.entry := replace_entry hnodes
    have hholeEntry : holes.entry = s.holeLinks.entry := replace_entry hholes
    have hlisted : .block new ∈ (drmMmReplaceNode s.mm old new).nodeList :=
      rename_old old new ▸ hren.mem_nodeList.mpr holdmem
    refine ⟨?_, fun hf => ?_, fun hnull => ?_⟩
    · have hentry := hby.wired.nodes.entry (.block new)
        ((hren.shape hs).toLinked.eq_cons ▸ hlisted)
      exact hnodeEntry ▸ hentry
    · have hstack : .block new ∈ (drmMmReplaceNode s.mm old new).holeStack :=
        rename_old old new ▸ hren.mem_holeStack.mpr ((hs.mem_stack _).mpr ⟨holdmem, hf⟩)
      exact hholeEntry ▸ hby.wired.holes.entry _ hstack
    · rw [Links.replace, hnull] at hholes
      exact absurd hholes (by simp)
  · intro hr
    obtain ⟨nodes, hnodes, hnw⟩ := hw.nodes.replace (hs.toLinked.mem_tail holdmem)
      (hcons ▸ hnewmem) hr.node_entry
    obtain ⟨holes, hholes, hhw⟩ := hw.holes.replace hnewmem
      (fun r hm => ((hs.mem_stack r).mp hm).1)
      (fun hm => hr.hole_entry ((hs.mem_stack _).mp hm).2) holdmem hr.hole_links
    have hwt : Wired ⟨drmMmReplaceNode s.mm old new, nodes, holes⟩ := by
      refine ⟨?_, hhw⟩
      change NodesWired nodes (s.mm.nodeList.map _).tail
      rw [← List.map_tail]
      exact hnw
    have hgone : ∀ l : List NodeRef, .block new ∉ l →
        .block old ∉ l.map (NodeRef.rename (Equiv.swap old new)) := by
      intro l hl hm
      rw [← rename_new old new] at hm
      exact hl ((List.mem_map_of_injective (rename_injective _)).mp hm)
    refine ⟨_, by rw [replaceNode, hnodes, hholes]; rfl, hwt, hren, ⟨?_, ?_⟩,
      fun ops hops => run_renamed hs hw hwt hren hadj ops hops,
      debugLines_renamed hs hw hwt hren⟩
    · exact hgone _ hnewmem
    · exact hgone _ fun hm => hnewmem ((hs.mem_stack _).mp hm).1

theorem reach_colorAdjust {nodeLinks : Links NodeRef NodeRef}
    {holeLinks : Links (Option NodeRef) NodeRef} {start size : ℕ} {adjust : Option ColorAdjust}
    (h : Reach (linkedMmSystem nodeLinks holeLinks start size adjust) s) :
    s.mm.colorAdjust = adjust := by
  refine h.invariant_of (J := fun s => s.mm.colorAdjust = adjust) (fun s hs => reach_wired hs)
    (fun s hi => ?_) fun s op t hs hadj _ hstep => ?_
  · obtain ⟨u, hu, hmm, -⟩ := init_wired nodeLinks holeLinks start size adjust
    obtain rfl : u = s := Option.some.inj (hu.symm.trans hi)
    rw [hmm]
  · obtain ⟨u, hu, hmm, -⟩ := apply_wired hs.1 hs.2 hstep.1
    obtain rfl : u = t := Option.some.inj (hu.symm.trans hstep.2)
    rw [hmm, apply_colorAdjust hs.1 hstep.1, hadj]

instance (s : LinkedMm) (old new : ℕ) : Decidable (s.Replaceable old new) :=
  decidable_of_iff' _ (replaceable_iff s old new)

end LinkedMm

/-- When drm_mm_replace_node renames the old node to the new struct, and nothing else. -/
theorem replace_node_renames {nodeLinks : Links NodeRef NodeRef}
    {holeLinks : Links (Option NodeRef) NodeRef} {start size : ℕ} {adjust : Option ColorAdjust}
    (hadj : ∀ f ∈ adjust, f.ReadsCore)
    (h : Reach (linkedMmSystem nodeLinks holeLinks start size adjust) s)
    (hold : (s.mm.node (.block old)).allocated = true)
    (hnew : (s.mm.node (.block new)).allocated = false) :
    (∃ t, s.replaceNode old new = some t ∧ s.ReplacedBy old new t) ↔ s.Replaceable old new := by
  obtain ⟨hs, hw⟩ := LinkedMm.reach_wired h
  refine LinkedMm.replacedBy_iff hs hw ?_ hold hnew
  rw [LinkedMm.reach_colorAdjust h]
  exact hadj

/-- A struct that has been on the lists before takes the place of a node. -/
theorem replace_node_renames_again :
    ∃ s, Reach (linkedMmSystem .zero .zero 0 0x3000 none) s ∧
      ∃ t, s.replaceNode 0 1 = some t ∧ s.ReplacedBy 0 1 t := by
  obtain ⟨s, hs, hp⟩ := LinkedMm.reach_of_run .zero .zero 0 0x3000 none
    [.insertNode { size := 0x1000 } 1, .removeNode 1, .insertNode { size := 0x1000 } 0]
    (fun s => (s.mm.node (.block 0)).allocated && !(s.mm.node (.block 1)).allocated &&
      decide (s.Replaceable 0 1)) (by decide +kernel)
  simp only [Bool.and_eq_true, Bool.not_eq_true', decide_eq_true_eq] at hp
  exact ⟨s, hs, (replace_node_renames (fun f hf => absurd hf (by simp)) hs hp.1.1 hp.1.2).mpr hp.2⟩

/-- A cleared struct is linked in without its back pointer. -/
theorem replace_node_forgets : ¬ ∀ s, Reach (linkedMmSystem .zero .zero 0 0x3000 none) s →
    ∀ old new, (s.mm.node (.block old)).allocated = true →
      (s.mm.node (.block new)).allocated = false →
        ∃ t, s.replaceNode old new = some t ∧ s.ReplacedBy old new t := by
  intro h
  obtain ⟨s, hs, hp⟩ := LinkedMm.reach_of_run .zero .zero 0 0x3000 none
    [.insertNode { size := 0x1000 } 0]
    (fun s => (s.mm.node (.block 0)).allocated && !(s.mm.node (.block 1)).allocated &&
      decide (s.nodeLinks.entry (.block 1) = none)) (by decide +kernel)
  simp only [Bool.and_eq_true, Bool.not_eq_true', decide_eq_true_eq] at hp
  obtain ⟨hshape, hw⟩ := LinkedMm.reach_wired hs
  have hadj : ∀ f ∈ s.mm.colorAdjust, f.ReadsCore := by
    rw [LinkedMm.reach_colorAdjust hs]
    exact fun f hf => absurd hf (by simp)
  have hentry := ((LinkedMm.replacedBy_iff hshape hw hadj hp.1.1 hp.1.2).mp
    (h s hs 0 1 hp.1.1 hp.1.2)).node_entry
  rw [hp.2] at hentry
  exact absurd hentry (by simp)
end GfxDrm
