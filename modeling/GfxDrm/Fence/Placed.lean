import GfxDrm.Fence.Clients
import GfxDrm.Fence.Tied

/-! Before generation 4: only objects whose place suits a fence are given one. -/

namespace GfxDrm.Fence
open Hoare Run Errno

/-- The place of an object suits the fence of a tiled object. -/
def FenceBo.Fenceable (dev : FenceDev) (b : FenceBo) : Prop :=
  ∃ size, dev.getGttSize b.size true = some size ∧ b.nodeSize = size ∧
    b.gttOffset &&& (size - 1) = 0 ∧ b.gttOffset + b.size ≤ dev.mappableEnd

structure Placed (dev : FenceDev) (w : FenceState) : Prop where
  tied : Tied dev w
  /-- What `map_and_fenceable` says is true. -/
  fit : ∀ o, (w.bo o).gttSpace ≠ none → (w.bo o).tiled = true →
    (w.bo o).mapAndFenceable = true → (w.bo o).Fenceable dev
  /-- An object that has lost its tiling may still have its register. -/
  attached : ∀ o r, (w.bo o).fenceReg = some r → (w.bo o).Fenceable dev
  logged : ∀ r, fenceValid (w.reg r).written = true →
    ∃ x ∈ w.writes, x.reg = r ∧ x.value = (w.reg r).written
  writes : ∀ x ∈ w.writes, x.value = dev.fenceValue x.bo ∧ x.bo.Fenceable dev

variable {dev : FenceDev} {w w' : FenceState} {o r : ℕ} {b : FenceBo}

/-- On the older generations the place is aligned to its size, a power of two. -/
theorem FenceBo.Fenceable.aligned (hgen : dev.gen < 4) (h : b.Fenceable dev) :
    (∃ k, b.nodeSize = 2 ^ k) ∧ dev.minFenceSize ≤ b.nodeSize ∧ b.nodeSize ∣ b.gttOffset ∧
      b.gttOffset + b.size ≤ dev.mappableEnd := by
  obtain ⟨size, hsize, hnode, halign, hend⟩ := h
  obtain ⟨k, rfl, hmin⟩ := FenceDev.getGttSize_tiled hgen hsize
  rw [Nat.and_two_pow_sub_one_eq_mod] at halign
  exact ⟨⟨k, hnode⟩, hnode ▸ hmin, hnode ▸ Nat.dvd_of_mod_eq_zero halign, hend⟩

namespace Placed

theorem setBo (h : Placed dev w) (htied : Tied dev (w.setBo o b))
    (hfit : b.gttSpace ≠ none → b.tiled = true → b.mapAndFenceable = true → b.Fenceable dev)
    (hatt : ∀ r, b.fenceReg = some r → b.Fenceable dev) : Placed dev (w.setBo o b) where
  tied := htied
  fit x := by
    rw [FenceState.setBo_bo]
    split
    · exact hfit
    · exact h.fit x
  attached x r := by
    rw [FenceState.setBo_bo]
    split
    · exact hatt r
    · exact h.attached x r
  logged := h.logged
  writes := h.writes

/-- Only registers and the objects' notes of them change. -/
theorem refence (h : Placed dev w) (htied : Tied dev w')
    (hbo : ∀ x, ∃ f d, w'.bo x = { w.bo x with fenceReg := f, fenceDirty := d })
    (hatt : ∀ x r, (w'.bo x).fenceReg = some r → (w.bo x).Fenceable dev)
    (hlogged : ∀ r, fenceValid (w'.reg r).written = true →
      ∃ x ∈ w'.writes, x.reg = r ∧ x.value = (w'.reg r).written)
    (hwrites : ∀ x ∈ w'.writes, x.value = dev.fenceValue x.bo ∧ x.bo.Fenceable dev) :
    Placed dev w' where
  tied := htied
  fit x := by
    obtain ⟨f, d, hx⟩ := hbo x
    rw [hx]
    exact h.fit x
  attached x r hr := by
    obtain ⟨f, d, hx⟩ := hbo x
    have hf := hatt x r hr
    rw [hx]
    exact hf
  logged := hlogged
  writes := hwrites

theorem detachFence (h : Placed dev w) (ho : (w.bo o).fenceReg = some r) :
    Placed dev (w.detachFence o r) := by
  have htied := h.tied.detachFence ho
  refine h.refence htied (fun x => ?_) (fun x i hi => ?_) (fun i hi => ?_) h.writes
  · by_cases hx : x = o
    · exact ⟨none, false, by rw [hx, FenceState.detachFence_bo_self]⟩
    · exact ⟨_, _, FenceState.setBo_bo_of_ne _ _ hx⟩
  · by_cases hx : x = o
    · simp [hx] at hi
    · rw [show (w.detachFence o r).bo x = w.bo x from FenceState.setBo_bo_of_ne _ _ hx] at hi
      exact h.attached x i hi
  · by_cases hir : i = r
    · simp [hir, FenceState.detachFence] at hi
    · rw [show (w.detachFence o r).reg i = w.reg i from FenceState.setReg_reg_of_ne _ _ hir] at hi ⊢
      exact h.logged i hi

/-- A write that enables a register is about an object in a suitable place. -/
theorem attachFence {v : FenceState} (h : Placed dev w) (htied : Tied dev (v.attachFence dev o r))
    (hbo : ∀ x, ∃ f d, v.bo x = { w.bo x with fenceReg := f, fenceDirty := d })
    (hatt : ∀ x i, (v.bo x).fenceReg = some i → (w.bo x).Fenceable dev) (hreg : v.reg = w.reg)
    (hwrites : v.writes = w.writes) (ho : (w.bo o).Fenceable dev) :
    Placed dev (v.attachFence dev o r) := by
  refine h.refence htied (fun x => ?_) (fun x i hi => ?_) (fun i hi => ?_) fun x hx => ?_
  · obtain ⟨f, d, hx⟩ := hbo x
    by_cases hxo : x = o
    · subst hxo
      exact ⟨some r, false, by rw [FenceState.attachFence_bo_self, hx]⟩
    · exact ⟨f, d, (FenceState.setBo_bo_of_ne _ _ hxo).trans hx⟩
  · by_cases hx : x = o
    · exact hx ▸ ho
    · rw [show (v.attachFence dev o r).bo x = v.bo x from FenceState.setBo_bo_of_ne _ _ hx] at hi
      exact hatt x i hi
  · by_cases hir : i = r
    · exact ⟨_, List.mem_cons_self, hir.symm, by simp [hir, FenceState.attachFence]⟩
    · rw [show (v.attachFence dev o r).reg i = v.reg i from FenceState.setReg_reg_of_ne _ _ hir,
        hreg] at hi ⊢
      obtain ⟨x, hx, hrest⟩ := h.logged i hi
      exact ⟨x, List.mem_cons_of_mem _ (hwrites ▸ hx), hrest⟩
  · rcases List.mem_cons.mp hx with rfl | hx
    · obtain ⟨f, d, hself⟩ := hbo o
      refine ⟨rfl, ?_⟩
      rw [hself]
      exact ho
    · exact h.writes x (hwrites ▸ hx)

theorem takeFence (h : Placed dev w) (hr : (w.bo o).fenceReg = none)
    (hbound : (w.bo o).gttSpace ≠ none) (ht : (w.bo o).tiled = true)
    (hmap : (w.bo o).mapAndFenceable = true) :
    Placed dev ((w.loseFence r).attachFence dev o r) := by
  have hlost : ∀ x, (w.loseFence r).bo x = w.bo x ∨ (w.loseFence r).bo x = (w.bo x).fenceLost := by
    intro x
    unfold FenceState.loseFence
    split
    · exact .inl rfl
    · rename_i old _
      rw [FenceState.setBo_bo]
      split
      · rename_i hx
        exact .inr (hx ▸ rfl)
      · exact .inl rfl
  refine h.attachFence (h.tied.takeFence hr hbound ht) (fun x => ?_) (fun x i hi => ?_)
    (w.loseFence_reg r) ?_ (h.fit o hbound ht hmap)
  · rcases hlost x with hx | hx
    · exact ⟨_, _, hx⟩
    · exact ⟨none, false, hx⟩
  · rcases hlost x with hx | hx
    · exact h.attached x i (hx ▸ hi)
    · simp [hx, FenceBo.fenceLost] at hi
  · unfold FenceState.loseFence
    split <;> rfl

theorem kept (dev : FenceDev) : Kept dev (Placed dev) where
  coming c h := ⟨(Tied.kept dev).coming c h.tied, h.fit, h.attached, h.logged, h.writes⟩
  retire o h := h.setBo ((Tied.kept dev).retire o h.tied) (h.fit o) (h.attached o)
  hung h := ⟨(Tied.kept dev).hung h.tied, h.fit, h.attached, h.logged, h.writes⟩
  touch h hr := ⟨h.tied.touch hr, h.fit, h.attached, h.logged, h.writes⟩
  clear {w r} h hr := by
    refine ⟨h.tied.clearFence hr, h.fit, h.attached, fun i hi => ?_, h.writes⟩
    by_cases hir : i = r
    · simp [hir, FenceState.clearFence] at hi
    · rw [show (w.clearFence r).reg i = w.reg i from FenceState.setReg_reg_of_ne _ _ hir] at hi ⊢
      exact h.logged i hi
  refresh {w o r} h hr ht := h.attachFence (h.tied.attachFence hr ht) (fun x => ⟨_, _, rfl⟩)
    h.attached rfl rfl (h.attached o r hr)
  disable h hr _ := h.detachFence hr
  drop h hr _ := h.detachFence hr
  unplace h hr hp := h.setBo ((Tied.kept dev).unplace h.tied hr hp) (fun hb => absurd rfl hb)
    fun _ hx => absurd (hr.symm.trans hx) (by simp)

/-- An object that is bound as mappable and fenceable has the place its tiling needs. -/
theorem place (hgen : dev.gen < 4) (h : Placed dev w) (hnone : (w.bo o).gttSpace = none)
    {g : Region} (hg : dev.region (w.bo o) = some g) (n : Node) :
    Placed dev (w.setBo o ((w.bo o).bound dev g n)) := by
  refine h.setBo (h.tied.place hnone g n) (fun _ ht hm => ?_) fun r hr =>
    absurd hnone (h.tied.bound o r hr)
  have ht : (w.bo o).tiled = true := ht
  simp only [FenceDev.region, ht, Option.bind_eq_bind, Option.bind_eq_some_iff, Option.pure_def,
    Option.some.injEq] at hg
  obtain ⟨fs, hfs, fa, hfa, ua, -, rfl⟩ := hg
  rw [FenceDev.getGttAlignment, if_neg (by simp; omega), hfs] at hfa
  obtain rfl := Option.some.inj hfa
  simp only [FenceBo.bound, Bool.and_eq_true, decide_eq_true_eq] at hm
  exact ⟨fs, hfs, hm.2.1, hm.2.2, hm.1⟩

/-- The new mode of a bound object is checked against the place it has. -/
theorem retiled (hgen : dev.gen < 4) (h : Placed dev w) {m : Bool} {tiling : BitVec 32}
    (hm : m = false ∨ (w.bo o).gttSpace = none ∨ dev.mapAndFenceable (w.bo o) tiling = some m)
    (stride : BitVec 32) : Placed dev (w.setBo o (((w.bo o).remapped m).retiled tiling stride)) := by
  refine h.setBo (h.tied.retiled m tiling stride) (fun hb ht hmap => ?_) (h.attached o)
  have hspace : (w.bo o).gttSpace ≠ none := hb
  subst hmap
  have hne : tiling ≠ tilingNone := by
    rintro rfl
    simp [FenceBo.tiled, FenceBo.retiled, tilingNone] at ht
  have hm : dev.mapAndFenceable (w.bo o) tiling = some true := by
    rcases hm with hm | hm | hm
    · simp at hm
    · exact absurd hm hspace
    · exact hm
  rw [FenceDev.mapAndFenceable, if_neg fun hc => hspace (Option.isNone_iff_eq_none.mp hc)] at hm
  split at hm
  · rename_i hend
    rw [FenceDev.fenceOk, if_neg hne, if_neg (by omega)] at hm
    split at hm
    · simp at hm
    · obtain ⟨size, hsize, hok⟩ := Option.map_eq_some_iff.mp hm
      simp only [Bool.and_eq_true, decide_eq_true_eq] at hok
      exact ⟨size, hsize, hok.1, hok.2, hend⟩
  · simp at hm

theorem pinned (h : Placed dev w) (c : BitVec 32) :
    Placed dev (w.setBo o { w.bo o with pinCount := c }) :=
  h.setBo (h.tied.pinned c) (h.fit o) (h.attached o)

theorem countReg (h : Placed dev w) (c : ℤ) :
    Placed dev (w.setReg r { w.reg r with pinCount := c }) := by
  refine ⟨h.tied.countReg c, h.fit, h.attached, fun i hi => ?_, h.writes⟩
  by_cases hir : i = r
  · subst hir
    simp only [FenceState.setReg_reg_self] at hi ⊢
    exact h.logged i hi
  · rw [FenceState.setReg_reg_of_ne _ _ hir] at hi ⊢
    exact h.logged i hi

/-- Who holds which pin plays no part. -/
theorem rules (hgen : dev.gen < 4) :
    ClientRules dev (fun _ _ => True) fun _ => Placed dev where
  kept _ := kept dev
  free _ := ⟨fun _ _ => trivial, fun _ _ => trivial⟩
  owner h := (h.tied.owner _ _).mpr
  located h := h.tied.located _
  place n h hnone hg := h.place hgen hnone hg n
  use _ _ _ h := h.setBo (h.tied.setBo_same rfl rfl rfl rfl rfl rfl) (h.fit _) (h.attached _)
  pin h _ _ := h.pinned _
  unpin h := h.pinned _
  exec h := h
  fenced _ h _ _ := h.countReg _
  unfenced _ h _ _ := h
  take h hfit hr ht _ := h.takeFence hr hfit.1 ht (hfit.2 hgen ht)
  release h _ hr := h.detachFence hr

theorem unpinFence : Keeps (Placed dev) (Fence.unpinFence o) := by
  refine Triple.modify fun w hw => ?_
  split
  · exact hw
  · exact hw.countReg _

theorem unreserveObject (hasFence hasPin : Bool) :
    Keeps (Placed dev) (Fence.unreserveObject o hasFence hasPin) := by
  have hpin : Keeps (Placed dev) (Fence.unpin o) := Triple.modify fun w hw => hw.pinned _
  refine triple_getBo fun b => Triple.pre ?_ fun w hw => hw.1
  refine Triple.ite (fun _ => ?_) fun _ => Keeps.pure
  have hdrop : Keeps (Placed dev) (if hasPin then Fence.unpin o else pure ⟨⟩) :=
    Triple.ite (fun _ => hpin) fun _ => Keeps.pure
  exact Triple.ite (fun _ => unpinFence.bind fun _ => hdrop) fun _ => hdrop

theorem unpinFbObj : Keeps (Placed dev) (Fence.unpinFbObj o) :=
  unpinFence.bind fun _ => Triple.modify fun _ hw => hw.pinned _

end Placed

/-! ### The run -/

/-- Whoever takes, keeps and gives back pins of objects, with whatever arguments. -/
inductive GttOp where
  | call (op : ClientOp)
  | setTiling (o : ℕ) (tiling stride : BitVec 32)
  | pin (o alignment : ℕ) (mapAndFenceable : Bool) (misses : ℕ)
  | unpin (o : ℕ)
  | unreserve (o : ℕ) (hasFence hasPin : Bool)
  | unpinFbObj (o : ℕ)

def GttOp.run (dev : FenceDev) : GttOp → FenceM Unit
  | call op => discard (op.run dev)
  | setTiling o tiling stride => discard (Fence.setTiling dev o tiling stride)
  | pin o alignment mapAndFenceable misses =>
    discard (Fence.pin dev o alignment mapAndFenceable misses)
  | unpin o => Fence.unpin o
  | unreserve o hasFence hasPin => unreserveObject o hasFence hasPin
  | unpinFbObj o => Fence.unpinFbObj o

/-- One call after the other, as long as they return. -/
def gttStep (dev : FenceDev) (w : FenceState) (a : GttOp × (ℕ → Outcome)) : Option FenceState :=
  if w.hung then none else some (a.1.run dev { w with coming := a.2 }).2

def gttSystem (dev : FenceDev) : System FenceState (GttOp × (ℕ → Outcome)) :=
  .ofStep FenceState.Loaded (gttStep dev)

namespace Placed

theorem of_loaded (h : w.Loaded) : Placed dev w where
  tied := .of_loaded h
  fit o hb := absurd (h.1 o).2.1 hb
  attached o r hr := by simp [(h.1 o).1] at hr
  logged r hr := by
    rw [h.2.1 r] at hr
    simp at hr
  writes := by simp [h.2.2.2]

/-- Every call leaves fenced objects in suitable places. -/
theorem run (hgen : dev.gen < 4) (op : GttOp) : Keeps (Placed dev) (op.run dev) := by
  have hI := kept dev
  cases op with
  | call op =>
    refine ((rules hgen).run [] op).conseq (fun w hw => ⟨hw, ?_⟩) (fun _ w hw => hw) |>.discard
    cases op <;> trivial
  | setTiling o tiling stride =>
    refine (hI.setTiling (J := Placed dev) (fun _ h => h) (fun w h => ?_)
      fun w m h hm => h.retiled hgen hm stride).discard
    exact h.setBo (h.tied.remapped false) (fun _ _ hm => by simp [FenceBo.remapped] at hm)
      (h.attached o)
  | pin o alignment maf misses =>
    refine ((hI.pin (J := Placed dev) alignment misses maf
      (fun w g n h hnone hg => h.place hgen hnone hg n) fun w h _ _ _ => h.pinned _).post
      fun ret w hw => ?_).discard
    simpa using hw
  | unpin o => exact Triple.modify fun w hw => hw.pinned _
  | unreserve o hasFence hasPin => exact unreserveObject hasFence hasPin
  | unpinFbObj o => exact unpinFbObj

theorem of_reach (hgen : dev.gen < 4) (h : Reach (gttSystem dev) w) : Placed dev w := by
  refine h.invariant (fun w => of_loaded) fun v a v' hv _ hs => ?_
  simp only [gttSystem, System.ofStep, gttStep] at hs
  split at hs
  · cases hs
  · obtain rfl := Option.some.inj hs
    exact run hgen a.1 _ ((kept dev).coming a.2 hv)

end Placed

/-- Before generation 4 every value that enables a register, the last one of each register
among them, is about an object whose node is a power of two of at least the smallest fence
size, which lies at a multiple of that size and ends in the mappable aperture. -/
theorem fences_fit_nodes (dev : FenceDev) (hgen : dev.gen < 4) (w : FenceState)
    (h : Reach (gttSystem dev) w) :
    (∀ r, fenceValid (w.reg r).written = true →
      ∃ x ∈ w.writes, x.reg = r ∧ x.value = (w.reg r).written) ∧
    ∀ x ∈ w.writes, x.value = dev.fenceValue x.bo ∧ (∃ k, x.bo.nodeSize = 2 ^ k) ∧
      dev.minFenceSize ≤ x.bo.nodeSize ∧ x.bo.nodeSize ∣ x.bo.gttOffset ∧
      x.bo.gttOffset + x.bo.size ≤ dev.mappableEnd := by
  have hp := Placed.of_reach hgen h
  exact ⟨hp.logged, fun x hx => ⟨(hp.writes x hx).1, (hp.writes x hx).2.aligned hgen⟩⟩

/-- A device of the third generation. -/
def gen3Dev : FenceDev where
  gen := 3
  isG33 := false
  hasLlc := false
  isBroadwaterOrCrestline := false
  needVtdWa := false
  has128ByteYTiling := true
  unknownSwizzleX := false
  unknownSwizzleY := false
  fenceRegStart := 0
  numFenceRegs := 8
  mappableEnd := 0x10000000
  total := 0x10000000
  gen_mem := by decide
  mappable_le := by decide
  total_lt := by decide

theorem fences_fit_nodes_fault : ∃ x : FenceWrite, x.reg = 0 ∧ x.bo.nodeSize ∣ x.bo.gttOffset ∧
    x.bo.nodeSize = 0x100000 := by
  obtain ⟨w, hw, hp⟩ : ∃ w : FenceState,
      ReachWhile (gttSystem gen3Dev) (fun _ _ => true = true) w ∧
      (w.writes.head?.any fun x => x.reg == 0 && x.bo.nodeSize == 0x100000) = true :=
    ReachWhile.of_exec_any (l := [(.setTiling 0 tilingX 512, fun _ => {}),
      (.call (.fault 0 1), foundNode ⟨0x300000, 0x100000⟩)])
      (.init (loadedFences_loaded 0x10000)) (by decide +kernel)
  obtain ⟨x, hx, hp⟩ := Option.any_eq_true _ _ |>.mp hp
  simp only [Bool.and_eq_true, beq_iff_eq] at hp
  have hfit := (fences_fit_nodes gen3Dev (by decide) w hw.reach).2 x (List.mem_of_mem_head? hx)
  exact ⟨x, hp.1, hfit.2.2.2.1, hp.2⟩

end GfxDrm.Fence
