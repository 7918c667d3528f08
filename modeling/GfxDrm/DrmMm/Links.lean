import GfxDrm.DrmMm.Evict
import GfxDrm.Lib.Ring

/-! The range manager with the list nodes of drm_linux_list.h behind its two lists. A
`contain_ptr` names the `drm_mm_node` a list node is part of. -/

namespace GfxDrm
open Circular GfxDrm.Ring GfxDrm.Ring.Links

/-- The nodes of `node_list`, and those of `hole_stack` with `none` for `mm->hole_stack`. -/
structure LinkedMm where
  mm : DrmMm
  nodeLinks : Links NodeRef NodeRef
  holeLinks : Links (Option NodeRef) NodeRef

/-- drm_mm_init, on memory that holds anything. -/
def linkedMmInit (nodeLinks : Links NodeRef NodeRef) (holeLinks : Links (Option NodeRef) NodeRef)
    (start size : ℕ) (adjust : Option ColorAdjust) : Option LinkedMm :=
  let nodes := nodeLinks.init .head
  let holes := (holeLinks.init none).init (some .head)
  let nodes := { nodes with entry := Function.update nodes.entry .head (some .head) }
  (holes.addTail (some .head) none .head).map fun holes =>
    { mm := { drmMmInit start size with colorAdjust := adjust }
      nodeLinks := nodes
      holeLinks := holes }

namespace LinkedMm

/-- `list_entry` of the list node before that of `node`. -/
def prevEntry (s : LinkedMm) (node : NodeRef) : Option NodeRef :=
  (s.nodeLinks.prev node).bind s.nodeLinks.entry

/-- drm_mm_insert_helper and drm_mm_insert_helper_range. -/
def insertHelper (s : LinkedMm) (range : Option (ℕ × ℕ)) (hole node : NodeRef)
    (size alignment color : ℕ) : Option LinkedMm :=
  let adjStart := (adjustedHole s.mm range color hole).1
  let adjStart := Word.add 64 adjStart (alignPad adjStart alignment)
  (if adjStart = drmMmHoleNodeStart s.mm hole then s.holeLinks.del (some hole)
    else some s.holeLinks).bind fun holes =>
  let holes := holes.init (some node)
  (s.nodeLinks.add node hole node).bind fun nodes =>
  (if Word.add 64 adjStart size < drmMmHoleNodeEnd s.mm hole then
      holes.add (some node) none node
    else some holes).map fun holes =>
  { mm := insertHelperWith s.mm range hole node size alignment color
    nodeLinks := nodes
    holeLinks := holes }

def insertNode (s : LinkedMm) (q : MmRequest) (n : ℕ) : Option LinkedMm :=
  match q.search s.mm with
  | none => some s
  | some hole => s.insertHelper q.range hole (.block n) q.size q.alignment q.color

def createBlock (s : LinkedMm) (kmalloc : Option NodeRef) (start size : ℕ) : Option LinkedMm :=
  let stop := Word.add 64 start size
  match s.mm.holeStack.find? fun r =>
      decide (drmMmHoleNodeStart s.mm r ≤ start ∧ stop ≤ drmMmHoleNodeEnd s.mm r) with
  | none => some s
  | some hole =>
    match kmalloc with
    | none => some s
    | some node =>
      let holes := s.holeLinks.init (some node)
      (s.nodeLinks.add node hole node).bind fun nodes =>
      (if start = drmMmHoleNodeStart s.mm hole then holes.delInit (some hole)
        else some holes).bind fun holes =>
      (if stop ≠ drmMmHoleNodeEnd s.mm hole then holes.add (some node) none node
        else some holes).map fun holes =>
      { mm := (drmMmCreateBlock s.mm (some node) start size).2
        nodeLinks := nodes
        holeLinks := holes }

def removeNode (s : LinkedMm) (node : NodeRef) : Option LinkedMm :=
  (s.prevEntry node).bind fun prev =>
  (if (s.mm.node node).holeFollows then s.holeLinks.del (some node)
    else some s.holeLinks).bind fun holes =>
  (if !(s.mm.node prev).holeFollows then holes.add (some prev) none prev
    else (holes.del (some prev)).bind fun holes => holes.add (some prev) none prev).bind fun holes =>
  (s.nodeLinks.del node).map fun nodes =>
  { mm := drmMmRemoveNode s.mm node
    nodeLinks := nodes
    holeLinks := holes }

/-- The node keeps the links behind itself that lead back to its place. -/
def scanAddBlock (s : LinkedMm) (node : NodeRef) : Option LinkedMm :=
  (s.prevEntry node).bind fun prev =>
  (s.nodeLinks.del node).map fun nodes =>
  { s with
    mm := (drmMmScanAddBlock s.mm node).2
    nodeLinks :=
      { nodes with
        prev := Function.update nodes.prev node (some prev)
        next := Function.update nodes.next node s.mm.prevScannedNode } }

def scanRemoveBlock (s : LinkedMm) (node : NodeRef) : Option LinkedMm :=
  (s.prevEntry node).bind fun prev =>
  (s.nodeLinks.add node prev node).map fun nodes =>
  { s with
    mm := (drmMmScanRemoveBlock s.mm node).2
    nodeLinks := nodes }

def scanAddAll : LinkedMm → List ℕ → Option LinkedMm
  | s, [] => some s
  | s, n :: l => (s.scanAddBlock (.block n)).bind fun s => scanAddAll s l

def scanRemoveAll : LinkedMm → List ℕ → Option LinkedMm
  | s, [] => some s
  | s, n :: l => (s.scanRemoveBlock (.block n)).bind fun s => scanRemoveAll s l

def scanAll (s : LinkedMm) (q : MmRequest) (ns : List ℕ) : Option LinkedMm :=
  (scanAddAll { s with mm := q.startScan s.mm } ns).bind fun s => scanRemoveAll s ns.reverse

/-- A call on the manager; `none` if it reads through a null pointer. -/
def apply (s : LinkedMm) : DrmMmOp → Option LinkedMm
  | .createBlock kmalloc start size => s.createBlock (kmalloc.map .block) start size
  | .insertNode q n => s.insertNode q n
  | .removeNode n => s.removeNode (.block n)
  | .scan q ns => s.scanAll q ns

end LinkedMm

/-- `node_list` leads through the head node and `l`, and each list node names the node it is
part of. -/
structure NodesWired (t : Links NodeRef NodeRef) (l : List NodeRef) : Prop where
  ring : t.IsRing .head l
  entry : ∀ r ∈ .head :: l, t.entry r = some r

/-- `hole_stack` leads through `stack`; the other nodes of `listed` have been unlinked with
`list_del`, or are lists of their own. -/
structure HolesWired (t : Links (Option NodeRef) NodeRef) (stack listed : List NodeRef) : Prop where
  ring : t.IsRing none (stack.map some)
  head : t.entry none = none
  entry : ∀ r ∈ stack, t.entry (some r) = some r
  off : ∀ r ∈ listed, r ∉ stack → t.next (some r) = none ∨ t.next (some r) = some (some r)

/-- The memory behind the lists is what the lists say. -/
structure Wired (s : LinkedMm) : Prop where
  nodes : NodesWired s.nodeLinks s.mm.nodeList.tail
  holes : HolesWired s.holeLinks s.mm.holeStack s.mm.nodeList

/-! ### The links of `node_list` -/

namespace NodesWired
variable {t : Links NodeRef NodeRef} {l : List NodeRef} {a x : NodeRef}

theorem insert (h : NodesWired t l) (ha : a ∈ .head :: l) (hx : x ∉ .head :: l) :
    ∃ u, t.add x a x = some u ∧ NodesWired u (insertAfter a x (.head :: l)).tail ∧
      ∀ y, y ∉ x :: .head :: l →
        u.next y = t.next y ∧ u.prev y = t.prev y ∧ u.entry y = t.entry y := by
  obtain ⟨u, hu, hring, hentry, hframe⟩ := h.ring.insert ha hx x
  refine ⟨u, hu, ⟨hring, fun r hr => ?_⟩, fun y hy => ?_⟩
  · rw [← insertAfter_tail, mem_insertAfter ha] at hr
    rw [hentry]
    by_cases hrx : r = x
    · rw [hrx]
      exact Function.update_self ..
    · rw [Function.update_of_ne hrx]
      exact h.entry r (hr.resolve_left hrx)
  · obtain ⟨hnext, hprev⟩ := hframe y hy
    refine ⟨hnext, hprev, ?_⟩
    rw [hentry]
    exact Function.update_of_ne (List.ne_of_not_mem_cons hy) ..

theorem del (h : NodesWired t l) (hx : x ∈ l) :
    ∃ u, t.del x = some u ∧ NodesWired u (l.erase x) ∧
      ∀ y, y ∉ .head :: l →
        u.next y = t.next y ∧ u.prev y = t.prev y ∧ u.entry y = t.entry y := by
  obtain ⟨u, hu, hring, hentry, hframe⟩ := h.ring.del hx
  refine ⟨u, hu, ⟨hring, fun r hr => ?_⟩, fun y hy => ?_⟩
  · rw [hentry]
    refine h.entry r ?_
    rcases List.mem_cons.mp hr with heq | hm
    · exact heq ▸ List.mem_cons_self
    · exact List.mem_cons_of_mem _ (List.mem_of_mem_erase hm)
  · rw [hentry]
    exact ⟨(hframe y hy).1, (hframe y hy).2, rfl⟩

end NodesWired

/-! ### The links of `hole_stack` -/

namespace HolesWired
variable {t : Links (Option NodeRef) NodeRef} {stack listed listed' : List NodeRef} {x : NodeRef}

theorem notMem_map (hx : x ∉ stack) : some x ∉ none :: stack.map some := by
  simpa using hx

theorem mono (h : HolesWired t stack listed) (hsub : ∀ r ∈ listed', r ∈ listed) :
    HolesWired t stack listed' :=
  { h with off := fun r hr => h.off r (hsub r hr) }

/-- A new node starts as a list of its own. -/
theorem init (h : HolesWired t stack listed) (hx : x ∉ stack) :
    HolesWired (t.init (some x)) stack (x :: listed) := by
  have hne : ∀ r : NodeRef, r ≠ x → some r ≠ some x := fun r hr heq => hr (Option.some.inj heq)
  have hout : ∀ y ∈ none :: stack.map some, y ≠ some x := fun y hy heq =>
    notMem_map hx (heq ▸ hy)
  refine ⟨?_, ?_, fun r hr => ?_, fun r hr hrs => ?_⟩
  · exact h.ring.congr (fun y hy => init_next_of_ne t (hout y hy))
      fun y hy => init_prev_of_ne t (hout y hy)
  · exact h.head
  · rw [init_entry_of_ne t (hne r fun heq => hx (heq ▸ hr))]
    exact h.entry r hr
  · by_cases hrx : r = x
    · rw [hrx]
      exact .inr (init_next_self ..)
    · rw [init_next_of_ne t (hne r hrx)]
      exact h.off r ((List.mem_cons.mp hr).resolve_left hrx) hrs

/-- A node with a hole behind it goes on top. -/
theorem push (h : HolesWired t stack listed) (hx : x ∉ stack) :
    ∃ u, t.add (some x) none x = some u ∧ HolesWired u (x :: stack) listed := by
  obtain ⟨u, hu, hring, hentry, hframe⟩ := h.ring.add (notMem_map hx) x
  refine ⟨u, hu, ⟨hring, ?_, fun r hr => ?_, fun r hr hrs => ?_⟩⟩
  · rw [hentry]
    exact h.head
  · rw [hentry]
    by_cases hrx : r = x
    · rw [hrx]
      exact Function.update_self ..
    · rw [Function.update_of_ne (by simpa using hrx)]
      exact h.entry r ((List.mem_cons.mp hr).resolve_left hrx)
  · simp only [List.mem_cons, not_or] at hrs
    rw [(hframe (some r) (by simpa using hrs)).1]
    exact h.off r hr hrs.2

theorem del (h : HolesWired t stack listed) (hx : x ∈ stack) :
    ∃ u, t.del (some x) = some u ∧ HolesWired u (stack.erase x) listed := by
  have hmem : some x ∈ stack.map some := List.mem_map_of_mem hx
  obtain ⟨u, hu, hring, hentry, hframe⟩ := h.ring.del hmem
  rw [erase_map (Option.some_injective _)] at hring
  refine ⟨u, hu, ⟨hring, hentry ▸ h.head, fun r hr => ?_, fun r hr hrs => ?_⟩⟩
  · rw [hentry]
    exact h.entry r (List.mem_of_mem_erase hr)
  · by_cases hrx : r = x
    · rw [hrx]
      exact .inl (del_next_self hu)
    · have hrs : r ∉ stack := fun hm => hrs ((List.mem_erase_of_ne hrx).mpr hm)
      rw [(hframe (some r) (notMem_map hrs)).1]
      exact h.off r hr hrs

theorem delInit (h : HolesWired t stack listed) (hx : x ∈ stack) :
    ∃ u, t.delInit (some x) = some u ∧ HolesWired u (stack.erase x) listed := by
  have hnodup : stack.Nodup := (List.nodup_cons.mp h.ring.nodup).2.of_map
  obtain ⟨u, hu, hw⟩ := h.del hx
  refine ⟨u.init (some x), by rw [Links.delInit, hu]; rfl, ?_⟩
  exact (hw.init hnodup.not_mem_erase).mono fun r hr => List.mem_cons_of_mem _ hr

variable {c : Prop} [Decidable c]

theorem delIf (h : HolesWired t stack listed) (hx : c → x ∈ stack) :
    ∃ u, (if c then t.del (some x) else some t) = some u ∧
      HolesWired u (if c then stack.erase x else stack) listed := by
  by_cases hc : c
  · simp only [if_pos hc]
    exact h.del (hx hc)
  · simp only [if_neg hc]
    exact ⟨t, rfl, h⟩

theorem delInitIf (h : HolesWired t stack listed) (hx : c → x ∈ stack) :
    ∃ u, (if c then t.delInit (some x) else some t) = some u ∧
      HolesWired u (if c then stack.erase x else stack) listed := by
  by_cases hc : c
  · simp only [if_pos hc]
    exact h.delInit (hx hc)
  · simp only [if_neg hc]
    exact ⟨t, rfl, h⟩

theorem pushIf (h : HolesWired t stack listed) (hx : x ∉ stack) :
    ∃ u, (if c then t.add (some x) none x else some t) = some u ∧
      HolesWired u (if c then x :: stack else stack) listed := by
  by_cases hc : c
  · simp only [if_pos hc]
    exact h.push hx
  · simp only [if_neg hc]
    exact ⟨t, rfl, h⟩

end HolesWired

/-! ### One call -/

namespace DrmMm
variable {mm : DrmMm} {n : ℕ} {x : NodeRef}

theorem Linked.eq_cons (h : Linked mm) : mm.nodeList = .head :: mm.nodeList.tail := by
  obtain ⟨l, hl⟩ := h.head_first
  rw [hl, List.tail_cons]

theorem Linked.mem_tail (h : Linked mm) (hx : .block n ∈ mm.nodeList) :
    .block n ∈ mm.nodeList.tail := by
  rw [h.eq_cons] at hx
  exact (List.mem_cons.mp hx).resolve_left (by simp)

theorem Linked.cons_tail_erase (h : Linked mm) (n : ℕ) :
    .head :: (mm.nodeList.erase (.block n)).tail = mm.nodeList.erase (.block n) :=
  (h.scanUnlink n).eq_cons.symm

theorem Linked.tail_erase (h : Linked mm) (n : ℕ) :
    (mm.nodeList.erase (.block n)).tail = mm.nodeList.tail.erase (.block n) := by
  rw [h.eq_cons, List.erase_cons_tail (by simp), List.tail_cons, List.tail_cons]

end DrmMm

namespace LinkedMm
open DrmMm
variable {s t : LinkedMm} {q : MmRequest} {n : ℕ} {hole x : NodeRef}

theorem prevEntry_eq (hk : Linked s.mm) (h : NodesWired s.nodeLinks s.mm.nodeList.tail)
    (hx : .block n ∈ s.mm.nodeList) : s.prevEntry (.block n) = some (s.mm.prevNode (.block n)) := by
  have hmem : s.mm.prevNode (.block n) ∈ .head :: s.mm.nodeList.tail :=
    hk.eq_cons ▸ List.mem_of_mem_erase (prevNode_mem_erase hk hx)
  have hprev := h.ring.prev _ hmem
  rw [← hk.eq_cons] at hprev
  change s.nodeLinks.prev (s.mm.nextNode (s.mm.prevNode (.block n))) = _ at hprev
  rw [nextNode_prevNode hk hx] at hprev
  rw [prevEntry, hprev]
  exact h.entry _ hmem

theorem insertHelper_wired (hs : Shape s.mm) (h : Wired s) (hr : hole ∈ s.mm.holeStack)
    (f : TakesHole s.mm hole (.block n)) (range : Option (ℕ × ℕ)) (size alignment color : ℕ) :
    ∃ t, s.insertHelper range hole (.block n) size alignment color = some t ∧
      t.mm = insertHelperWith s.mm range hole (.block n) size alignment color ∧ Wired t := by
  obtain ⟨st, hst⟩ : ∃ st, st = Word.add 64 (adjustedHole s.mm range color hole).1
    (alignPad (adjustedHole s.mm range color hole).1 alignment) := ⟨_, rfl⟩
  have hcons := hs.toLinked.eq_cons
  have hnew : NodeRef.block n ∉ stackAfter s.mm hole st := f.notMem_stackAfter hs
  obtain ⟨holes₁, hdel, h₁⟩ := h.holes.delIf (c := st = drmMmHoleNodeStart s.mm hole) fun _ => hr
  obtain ⟨holes₂, hadd, h₂⟩ := (h₁.init hnew).pushIf
    (c := Word.add 64 st size < drmMmHoleNodeEnd s.mm hole) hnew
  obtain ⟨nodes, hnodes, hw, -⟩ := h.nodes.insert (a := hole) (x := .block n)
    (hcons ▸ f.mem) (hcons ▸ f.new)
  have hmm : insertHelperWith s.mm range hole (.block n) size alignment color =
      linkNode s.mm hole (.block n) st size (some color)
        (decide (Word.add 64 st size < drmMmHoleNodeEnd s.mm hole)) := by
    rw [hst]
    rfl
  refine ⟨⟨insertHelperWith s.mm range hole (.block n) size alignment color, nodes, holes₂⟩,
    ?_, rfl, ?_, ?_⟩
  · unfold insertHelper
    dsimp only
    rw [← hst, hdel, Option.bind_some, hnodes, hadd]
    rfl
  · rw [hmm, linkNode_nodeList, hcons]
    exact hw
  · rw [hmm, linkNode_holeStack, linkNode_nodeList]
    simp only [decide_eq_true_eq]
    refine h₂.mono fun r hr => ?_
    rw [mem_insertAfter f.mem] at hr
    exact List.mem_cons.mpr hr

theorem insertNode_wired (hs : Shape s.mm) (h : Wired s) (q : MmRequest)
    (hn : (s.mm.node (.block n)).allocated = false) :
    ∃ t, s.insertNode q n = some t ∧ t.mm = (q.insert s.mm n).2 ∧ Wired t := by
  unfold insertNode
  rw [q.insert_eq]
  cases hhole : q.search s.mm with
  | none => exact ⟨s, rfl, rfl, h⟩
  | some hole =>
    have hr := (mem_of_search hhole).1
    exact insertHelper_wired hs h hr (takesHole hs hr hn) _ _ _ _

theorem createBlock_wired (hs : Shape s.mm) (h : Wired s) (kmalloc : Option ℕ) (start size : ℕ)
    (hnew : ∀ n ∈ kmalloc, (s.mm.node (.block n)).allocated = false) :
    ∃ t, s.createBlock (kmalloc.map .block) start size = some t ∧
      t.mm = (drmMmCreateBlock s.mm (kmalloc.map .block) start size).2 ∧ Wired t := by
  cases hhole : s.mm.holeStack.find? fun r => decide (drmMmHoleNodeStart s.mm r ≤ start ∧
      Word.add 64 start size ≤ drmMmHoleNodeEnd s.mm r) with
  | none =>
    refine ⟨s, ?_, ?_, h⟩
    · rw [createBlock]
      simp only [hhole]
    · rw [drmMmCreateBlock]
      simp only [hhole]
  | some hole =>
    cases kmalloc with
    | none =>
      refine ⟨s, ?_, ?_, h⟩
      · rw [createBlock]
        simp only [hhole]
        rfl
      · rw [drmMmCreateBlock]
        simp only [hhole]
        rfl
    | some n =>
      have hr := List.mem_of_find?_eq_some hhole
      have f := takesHole hs hr (hnew n rfl)
      have hcons := hs.toLinked.eq_cons
      have hoff : NodeRef.block n ∉ s.mm.holeStack := fun hm => f.new ((hs.mem_stack _).mp hm).1
      have hnot : NodeRef.block n ∉ stackAfter s.mm hole start := f.notMem_stackAfter hs
      obtain ⟨holes₁, hdel, h₁⟩ := (h.holes.init hoff).delInitIf
        (c := start = drmMmHoleNodeStart s.mm hole) fun _ => hr
      obtain ⟨holes₂, hadd, h₂⟩ := h₁.pushIf
        (c := Word.add 64 start size ≠ drmMmHoleNodeEnd s.mm hole) hnot
      obtain ⟨nodes, hnodes, hw, -⟩ := h.nodes.insert (a := hole) (x := .block n)
        (hcons ▸ f.mem) (hcons ▸ f.new)
      have hmm : (drmMmCreateBlock s.mm (some (.block n)) start size).2 =
          linkNode s.mm hole (.block n) start size none
            (decide (Word.add 64 start size ≠ drmMmHoleNodeEnd s.mm hole)) := by
        rw [drmMmCreateBlock]
        simp only [hhole]
      refine ⟨⟨(drmMmCreateBlock s.mm (some (.block n)) start size).2, nodes, holes₂⟩,
        ?_, rfl, ?_, ?_⟩
      · rw [createBlock]
        simp only [hhole, Option.map_some]
        rw [hnodes, Option.bind_some, hdel, Option.bind_some, hadd]
        rfl
      · rw [hmm, linkNode_nodeList, hcons]
        exact hw
      · rw [hmm, linkNode_holeStack, linkNode_nodeList]
        simp only [decide_eq_true_eq]
        refine h₂.mono fun r hr => ?_
        rw [mem_insertAfter f.mem] at hr
        exact List.mem_cons.mpr hr

theorem removeNode_wired (hs : Shape s.mm) (h : Wired s) (hx : .block n ∈ s.mm.nodeList) :
    ∃ t, s.removeNode (.block n) = some t ∧ t.mm = drmMmRemoveNode s.mm (.block n) ∧ Wired t := by
  have hk := hs.toLinked
  obtain ⟨prev, hprev⟩ : ∃ prev, prev = s.mm.prevNode (.block n) := ⟨_, rfl⟩
  have hpmem : prev ∈ s.mm.nodeList := hprev ▸ List.mem_of_mem_erase (prevNode_mem_erase hk hx)
  obtain ⟨holes₁, hdel, h₁⟩ := h.holes.delIf (x := .block n)
    (c := (s.mm.node (.block n)).holeFollows = true) fun hf => (hs.mem_stack _).mpr ⟨hx, hf⟩
  have hstack : (if (s.mm.node (.block n)).holeFollows = true then s.mm.holeStack.erase (.block n)
      else s.mm.holeStack) = s.mm.holeStack.erase (.block n) := by
    split
    · rfl
    · rename_i hf
      exact (List.erase_of_not_mem fun hm => hf ((hs.mem_stack _).mp hm).2).symm
  rw [hstack] at h₁
  obtain ⟨nodes, hnodes, hw, -⟩ := h.nodes.del (hk.mem_tail hx)
  -- the hole before the node goes to the top of the stack
  have hmove : ∃ holes₂, (if !(s.mm.node prev).holeFollows then holes₁.add (some prev) none prev
      else (holes₁.del (some prev)).bind fun holes => holes.add (some prev) none prev) =
        some holes₂ ∧
      HolesWired holes₂ (prev :: (s.mm.holeStack.erase (.block n)).erase prev) s.mm.nodeList := by
    by_cases hf : (s.mm.node prev).holeFollows = true
    · have hpn : prev ≠ .block n := hprev ▸ prevNode_ne hk hx
      have hmem : prev ∈ s.mm.holeStack.erase (.block n) :=
        (List.mem_erase_of_ne hpn).mpr ((hs.mem_stack _).mpr ⟨hpmem, hf⟩)
      obtain ⟨u, hu, hwu⟩ := h₁.del hmem
      obtain ⟨v, hv, hwv⟩ := hwu.push (hs.stack_nodup.erase _).not_mem_erase
      refine ⟨v, ?_, hwv⟩
      simp only [hf, Bool.not_true, Bool.false_eq_true, if_false]
      rw [hu, Option.bind_some, hv]
    · have hnot : prev ∉ s.mm.holeStack.erase (.block n) := fun hm =>
        hf ((hs.mem_stack _).mp (List.mem_of_mem_erase hm)).2
      obtain ⟨v, hv, hwv⟩ := h₁.push hnot
      refine ⟨v, ?_, ?_⟩
      · simp only [hf]
        exact hv
      · rw [List.erase_of_not_mem hnot]
        exact hwv
  obtain ⟨holes₂, hadd, h₂⟩ := hmove
  refine ⟨⟨drmMmRemoveNode s.mm (.block n), nodes, holes₂⟩, ?_, rfl, ?_, ?_⟩
  · unfold removeNode
    rw [prevEntry_eq hk h.nodes hx, ← hprev, Option.bind_some, hdel, Option.bind_some, hadd,
      hnodes]
    rfl
  · change NodesWired nodes (s.mm.nodeList.erase _).tail
    rw [hk.tail_erase]
    exact hw
  · rw [removeNode_holeStack hs, ← hprev]
    exact h₂.mono fun r hr => List.mem_of_mem_erase hr

/-! ### A scan -/

theorem scanAddBlock_wired (hk : Linked s.mm) (h : NodesWired s.nodeLinks s.mm.nodeList.tail)
    (hx : .block n ∈ s.mm.nodeList) :
    ∃ t, s.scanAddBlock (.block n) = some t ∧ t.mm = (drmMmScanAddBlock s.mm (.block n)).2 ∧
      t.holeLinks = s.holeLinks ∧ NodesWired t.nodeLinks (s.mm.nodeList.erase (.block n)).tail ∧
      t.nodeLinks.prev (.block n) = some (s.mm.prevNode (.block n)) ∧
      ∀ y, y ∉ s.mm.nodeList → t.nodeLinks.next y = s.nodeLinks.next y ∧
        t.nodeLinks.prev y = s.nodeLinks.prev y ∧ t.nodeLinks.entry y = s.nodeLinks.entry y := by
  obtain ⟨nodes, hnodes, hw, hframe⟩ := h.del (hk.mem_tail hx)
  rw [← hk.eq_cons] at hframe
  have hout : ∀ y ∈ NodeRef.head :: s.mm.nodeList.tail.erase (.block n), y ≠ .block n := by
    rintro y hy rfl
    rw [← hk.tail_erase, hk.cons_tail_erase] at hy
    exact hk.nodup.not_mem_erase hy
  have hadd : s.scanAddBlock (.block n) = some
      { mm := (drmMmScanAddBlock s.mm (.block n)).2
        nodeLinks :=
          { next := Function.update nodes.next (.block n) s.mm.prevScannedNode
            prev := Function.update nodes.prev (.block n) (some (s.mm.prevNode (.block n)))
            entry := nodes.entry }
        holeLinks := s.holeLinks } := by
    rw [scanAddBlock, prevEntry_eq hk h hx, hnodes]
    rfl
  refine ⟨_, hadd, rfl, rfl, ⟨?_, ?_⟩, Function.update_self .., fun y hy => ?_⟩
  · rw [hk.tail_erase]
    exact hw.ring.congr (fun y hy => Function.update_of_ne (hout y hy) ..)
      fun y hy => Function.update_of_ne (hout y hy) ..
  · rw [hk.tail_erase]
    exact hw.entry
  · have hne : y ≠ .block n := fun heq => hy (heq ▸ hx)
    obtain ⟨hnext, hprev, hentry⟩ := hframe y hy
    exact ⟨(Function.update_of_ne hne ..).trans hnext, (Function.update_of_ne hne ..).trans hprev,
      hentry⟩

theorem scanRemoveAll_append (s : LinkedMm) (l l' : List ℕ) :
    s.scanRemoveAll (l ++ l') = (s.scanRemoveAll l).bind fun t => t.scanRemoveAll l' := by
  induction l generalizing s with
  | nil => rfl
  | cons n l ih =>
    simp only [List.cons_append, scanRemoveAll, Option.bind_assoc, ih]

/-- Blocks added and removed in reverse order are linked as they were. -/
theorem scan_wired {ns : List ℕ} (hk : Linked s.mm)
    (h : NodesWired s.nodeLinks s.mm.nodeList.tail) (hs : ScanList s.mm ns) :
    ∃ t, ((s.scanAddAll ns).bind fun t => t.scanRemoveAll ns.reverse) = some t ∧
      t.mm = (GfxDrm.scanRemoveAll (GfxDrm.scanAddAll s.mm ns) ns.reverse).2 ∧
      t.holeLinks = s.holeLinks ∧ NodesWired t.nodeLinks s.mm.nodeList.tail ∧
      ∀ y, y ∉ s.mm.nodeList → t.nodeLinks.next y = s.nodeLinks.next y ∧
        t.nodeLinks.prev y = s.nodeLinks.prev y ∧ t.nodeLinks.entry y = s.nodeLinks.entry y := by
  -- the later blocks leave alone the links by which the first finds its place again
  induction ns generalizing s with
  | nil => exact ⟨s, rfl, rfl, rfl, h, fun _ _ => ⟨rfl, rfl, rfl⟩⟩
  | cons n ns ih =>
    have hx := hs.mem n List.mem_cons_self
    obtain ⟨u, hu, humm, huholes, huw, hback, huframe⟩ := scanAddBlock_wired hk h hx
    have hlist : u.mm.nodeList = s.mm.nodeList.erase (.block n) := by rw [humm, scanAdd_nodeList]
    obtain ⟨v, hv, hvmm, hvholes, hvw, hvframe⟩ := ih (humm ▸ hk.scanAdd n) (hlist ▸ huw)
      (humm ▸ hs.tail)
    have herase := hk.cons_tail_erase n
    have hpmem := prevNode_mem_erase hk hx
    have hnot : .block n ∉ s.mm.nodeList.erase (.block n) := hk.nodup.not_mem_erase
    rw [hlist] at hvw hvframe
    have hentry : v.prevEntry (.block n) = some (s.mm.prevNode (.block n)) := by
      rw [prevEntry, (hvframe _ hnot).2.1, hback]
      exact hvw.entry _ (herase ▸ hpmem)
    obtain ⟨nodes, hnodes, hw, hframe⟩ := hvw.insert (a := s.mm.prevNode (.block n))
      (x := .block n) (herase ▸ hpmem) (herase ▸ hnot)
    rw [herase, insertAfter_prevNode hk hx] at hw
    refine ⟨⟨(drmMmScanRemoveBlock v.mm (.block n)).2, nodes, v.holeLinks⟩, ?_, ?_,
      hvholes.trans huholes, hw, fun y hy => ?_⟩
    · rw [List.reverse_cons, scanAddAll, hu, Option.bind_some]
      simp only [scanRemoveAll_append, ← Option.bind_assoc]
      rw [hv, Option.bind_some, scanRemoveAll, scanRemoveBlock, hentry, Option.bind_some, hnodes]
      rfl
    · rw [scanRemoveAll_reverse_cons, GfxDrm.scanAddAll, ← humm, ← hvmm]
    · have hyx : y ≠ .block n := fun heq => hy (heq ▸ hx)
      have hyerase : y ∉ s.mm.nodeList.erase (.block n) := fun hm => hy (List.mem_of_mem_erase hm)
      obtain ⟨hnext, hprev, hent⟩ := hframe y (by
        rw [herase]
        exact fun hm => hyerase ((List.mem_cons.mp hm).resolve_left hyx))
      obtain ⟨hnextv, hprevv, hentv⟩ := hvframe y hyerase
      obtain ⟨hnextu, hprevu, hentu⟩ := huframe y hy
      exact ⟨hnext.trans (hnextv.trans hnextu), hprev.trans (hprevv.trans hprevu),
        hent.trans (hentv.trans hentu)⟩

theorem scanAll_wired {ns : List ℕ} (hs : Shape s.mm) (h : Wired s) (q : MmRequest)
    (hl : ScanList s.mm ns) :
    ∃ t, s.scanAll q ns = some t ∧ t.mm = (GfxDrm.scanAll s.mm q ns).2 ∧ Wired t := by
  have hstart := Restored.startScan q s.mm
  have hback := scanAll_restored hs q hl
  obtain ⟨t, ht, hmm, hholes, hw, -⟩ := scan_wired (s := { s with mm := q.startScan s.mm })
    (hstart.shape hs).toLinked (hstart.nodeList ▸ h.nodes)
    ⟨hl.nodup, fun n hn => hstart.nodeList ▸ hl.mem n hn⟩
  have hmm' : t.mm = (GfxDrm.scanAll s.mm q ns).2 := hmm
  refine ⟨t, ht, hmm', ?_, ?_⟩
  · rw [hmm', hback.nodeList, ← hstart.nodeList]
    exact hw
  · rw [hmm', hback.nodeList, hback.holeStack, hholes]
    exact h.holes

/-- Every permitted call goes through, and leaves the memory behind its lists in order. -/
theorem apply_wired (hs : Shape s.mm) (h : Wired s) {op : DrmMmOp} (hok : op.Ok s.mm) :
    ∃ t, s.apply op = some t ∧ t.mm = op.apply s.mm ∧ Wired t := by
  cases op with
  | createBlock kmalloc start size => exact createBlock_wired hs h kmalloc start size hok.2.2
  | insertNode q n => exact insertNode_wired hs h q hok.2
  | removeNode n => exact removeNode_wired hs h ((hs.allocated n).mp hok)
  | scan q ns => exact scanAll_wired hs h q (scanList hs hok)

end LinkedMm

end GfxDrm
