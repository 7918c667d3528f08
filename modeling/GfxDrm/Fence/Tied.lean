import GfxDrm.Fence.Rules
import GfxDrm.Lib.Run

/-! Registers and objects name each other, and a register holds what its object needs. -/

namespace GfxDrm.Fence
open Hoare Run Errno

/-- `bound`, `located` and `clean` are what keeps the rest true. -/
structure Tied (dev : FenceDev) (w : FenceState) : Prop where
  owner : ∀ o r, (w.bo o).fenceReg = some r ↔ (w.reg r).obj = some o
  listed : ∀ r, r ∈ w.fenceList ↔ (w.reg r).obj ≠ none
  nodup : w.fenceList.Nodup
  enabled : ∀ r, fenceValid (w.reg r).written = true ↔ (w.reg r).obj ≠ none
  current : ∀ o r, (w.bo o).fenceReg = some r → (w.bo o).fenceDirty = false →
    (w.reg r).written = dev.fenceValue (w.bo o)
  bound : ∀ o r, (w.bo o).fenceReg = some r → (w.bo o).gttSpace ≠ none
  located : ∀ o, (w.bo o).gttSpace = none → (w.bo o).gttOffset = 0
  clean : ∀ o r, (w.bo o).fenceReg = some r → (w.bo o).fenceDirty = false →
    (w.bo o).tiled = true

variable {dev : FenceDev} {w w' : FenceState} {o r : ℕ} {b : FenceBo}

namespace FenceState

@[simp] theorem setReg_reg_self (w : FenceState) (r : ℕ) (f : FenceReg) :
    (w.setReg r f).reg r = f := Function.update_self ..

theorem setReg_reg_of_ne (w : FenceState) (f : FenceReg) {x : ℕ} (hx : x ≠ r) :
    (w.setReg r f).reg x = w.reg x := Function.update_of_ne hx _ _

theorem setBo_bo_of_ne (w : FenceState) (b : FenceBo) {x : ℕ} (hx : x ≠ o) :
    (w.setBo o b).bo x = w.bo x := Function.update_of_ne hx _ _

@[simp] theorem loseFence_reg (w : FenceState) (r : ℕ) : (w.loseFence r).reg = w.reg := by
  unfold loseFence
  split <;> rfl

@[simp] theorem loseFence_fenceList (w : FenceState) (r : ℕ) :
    (w.loseFence r).fenceList = w.fenceList := by
  unfold loseFence
  split <;> rfl

end FenceState

@[simp] theorem fenceValid_zero : fenceValid 0#64 = false := by decide

theorem fenceValue_fenced (dev : FenceDev) (b : FenceBo) (f : Option ℕ) (d : Bool) :
    dev.fenceValue { b with fenceReg := f, fenceDirty := d } = dev.fenceValue b := rfl

namespace Tied

theorem owner_unique (h : Tied dev w) {x : ℕ} (ho : (w.bo o).fenceReg = some r)
    (hx : (w.bo x).fenceReg = some r) : x = o :=
  Option.some.inj (((h.owner x r).mp hx).symm.trans ((h.owner o r).mp ho))

/-- An object changes and keeps its register. -/
theorem setBo (h : Tied dev w) (hreg : b.fenceReg = (w.bo o).fenceReg)
    (hoff : b.gttSpace = none → b.gttOffset = 0)
    (hfit : ∀ r, b.fenceReg = some r → b.gttSpace ≠ none ∧ (b.fenceDirty = false →
      b.tiled = true ∧ (w.reg r).written = dev.fenceValue b)) : Tied dev (w.setBo o b) where
  owner x r := by
    rw [FenceState.setBo_bo]
    split
    · rename_i hx
      rw [hreg, ← hx]
      exact h.owner x r
    · exact h.owner x r
  listed := h.listed
  nodup := h.nodup
  enabled := h.enabled
  current x r := by
    rw [FenceState.setBo_bo]
    split
    · exact fun hr hd => ((hfit r hr).2 hd).2
    · exact h.current x r
  bound x r := by
    rw [FenceState.setBo_bo]
    split
    · exact fun hr => (hfit r hr).1
    · exact h.bound x r
  located x := by
    rw [FenceState.setBo_bo]
    split
    · exact hoff
    · exact h.located x
  clean x r := by
    rw [FenceState.setBo_bo]
    split
    · exact fun hr hd => ((hfit r hr).2 hd).1
    · exact h.clean x r

/-- What the registers do not depend on may change. -/
theorem setBo_same (h : Tied dev w) (hreg : b.fenceReg = (w.bo o).fenceReg)
    (hspace : b.gttSpace = (w.bo o).gttSpace) (hoff : b.gttOffset = (w.bo o).gttOffset)
    (hdirty : b.fenceDirty = (w.bo o).fenceDirty) (htiled : b.tiled = (w.bo o).tiled)
    (hvalue : dev.fenceValue b = dev.fenceValue (w.bo o)) :
    Tied dev (w.setBo o b) := by
  refine h.setBo hreg (fun hb => hoff.trans (h.located o (hspace ▸ hb))) fun r hr =>
    ⟨hspace ▸ h.bound o r (hreg ▸ hr), fun hd => ⟨?_, ?_⟩⟩
  · exact htiled.trans (h.clean o r (hreg ▸ hr) (hdirty ▸ hd))
  · exact (h.current o r (hreg ▸ hr) (hdirty ▸ hd)).trans hvalue.symm

/-- The register goes over to an object that had none, or is written again for its own. -/
theorem attach (h : Tied dev w) (ho : (w.bo o).fenceReg = none ∨ (w.bo o).fenceReg = some r)
    (hbound : (w.bo o).gttSpace ≠ none) (htiled : (w.bo o).tiled = true)
    (hself : w'.bo o = { w.bo o with fenceReg := some r, fenceDirty := false })
    (hother : ∀ x ≠ o, w'.bo x =
      if (w.bo x).fenceReg = some r then (w.bo x).fenceLost else w.bo x)
    (hreg : ∀ x ≠ r, w'.reg x = w.reg x) (hobj : (w'.reg r).obj = some o)
    (hwritten : (w'.reg r).written = dev.fenceValue (w.bo o))
    (hlist : w'.fenceList = w.fenceList.erase r ++ [r]) : Tied dev w' := by
  have hold : ∀ x ≠ o, ∀ i, (w'.bo x).fenceReg = some i → i ≠ r ∧ w'.bo x = w.bo x := by
    intro x hx i hi
    rw [hother x hx] at hi ⊢
    split at hi
    · simp [FenceBo.fenceLost] at hi
    · rename_i hne
      exact ⟨fun h => hne (h ▸ hi), if_neg hne⟩
  have hown : (w'.bo o).fenceReg = some r := by rw [hself]
  have hval : dev.fenceValue (w'.bo o) = dev.fenceValue (w.bo o) := by
    rw [hself, fenceValue_fenced]
  have hplace : ∀ x, (w'.bo x).gttSpace = (w.bo x).gttSpace ∧
      (w'.bo x).gttOffset = (w.bo x).gttOffset := by
    intro x
    by_cases hx : x = o
    · rw [hx, hself]
      exact ⟨rfl, rfl⟩
    · rw [hother x hx]
      split <;> exact ⟨rfl, rfl⟩
  refine ⟨fun x i => ?_, fun i => ?_, ?_, fun i => ?_, fun x i hi hd => ?_, fun x i hi => ?_,
    fun x hx => ?_, fun x i hi hd => ?_⟩
  · by_cases hir : i = r
    · subst hir
      rw [hobj]
      by_cases hx : x = o
      · simp [hx, hown]
      · exact iff_of_false (fun hi => (hold x hx i hi).1 rfl) (by simpa using Ne.symm hx)
    · rw [hreg i hir]
      by_cases hx : x = o
      · subst hx
        rw [hown]
        refine iff_of_false (by simpa using Ne.symm hir) fun hi => ?_
        have := (h.owner x i).mpr hi
        rcases ho with ho | ho <;> simp_all
      · rw [← h.owner x i, hother x hx]
        split
        · rename_i hxr
          simp [FenceBo.fenceLost, hxr, Ne.symm hir]
        · exact Iff.rfl
  · rw [hlist, List.mem_append]
    by_cases hir : i = r
    · simp [hir, hobj]
    · rw [List.mem_erase_of_ne hir, hreg i hir, h.listed]
      simp [hir]
  · rw [hlist, List.nodup_append]
    refine ⟨h.nodup.erase r, List.nodup_singleton r, fun a ha b hb => ?_⟩
    rw [List.mem_singleton.mp hb]
    rintro rfl
    exact h.nodup.not_mem_erase ha
  · by_cases hir : i = r
    · simp [hir, hobj, hwritten, fenceValid_fenceValue]
    · rw [hreg i hir]
      exact h.enabled i
  · by_cases hx : x = o
    · subst hx
      obtain rfl := Option.some.inj (hown.symm.trans hi)
      rw [hwritten, hval]
    · obtain ⟨hir, hsame⟩ := hold x hx i hi
      rw [hreg i hir, hsame]
      rw [hsame] at hi hd
      exact h.current x i hi hd
  · by_cases hx : x = o
    · rw [hx, hself]
      exact hbound
    · obtain ⟨-, hsame⟩ := hold x hx i hi
      rw [hsame] at hi ⊢
      exact h.bound x i hi
  · exact (hplace x).2.trans (h.located x ((hplace x).1 ▸ hx))
  · by_cases hx : x = o
    · rw [hx, hself]
      exact htiled
    · obtain ⟨-, hsame⟩ := hold x hx i hi
      rw [hsame] at hi hd ⊢
      exact h.clean x i hi hd

theorem attachFence (h : Tied dev w) (ho : (w.bo o).fenceReg = some r)
    (htiled : (w.bo o).tiled = true) : Tied dev (w.attachFence dev o r) := by
  refine h.attach (.inr ho) (h.bound o r ho) htiled (by simp) (fun x hx => ?_)
    (fun x hx => FenceState.setReg_reg_of_ne _ _ hx) (by simp [FenceState.attachFence])
    (by simp [FenceState.attachFence]) rfl
  rw [if_neg fun hr => hx (h.owner_unique ho hr)]
  exact FenceState.setBo_bo_of_ne _ _ hx

theorem takeFence (h : Tied dev w) (ho : (w.bo o).fenceReg = none)
    (hbound : (w.bo o).gttSpace ≠ none) (htiled : (w.bo o).tiled = true) :
    Tied dev ((w.loseFence r).attachFence dev o r) := by
  have hlost : ∀ x, (w.loseFence r).bo x =
      if (w.bo x).fenceReg = some r then (w.bo x).fenceLost else w.bo x := by
    intro x
    unfold FenceState.loseFence
    cases hr : (w.reg r).obj with
    | none =>
      rw [if_neg]
      exact fun hx => by simp [(h.owner x r).mp hx] at hr
    | some old =>
      have hold := (h.owner old r).mpr hr
      rw [FenceState.setBo_bo]
      by_cases hx : x = old
      · rw [if_pos hx, hx, if_pos hold]
      · rw [if_neg hx, if_neg fun hxr => hx (h.owner_unique hold hxr)]
  have hself : (w.loseFence r).bo o = w.bo o := by simp [hlost, ho]
  refine h.attach (r := r) (.inl ho) hbound htiled (by simp [hself]) (fun x hx => ?_) (fun x hx => ?_)
    (by simp [FenceState.attachFence]) (by simp [FenceState.attachFence, hself])
    (by simp [FenceState.attachFence])
  · rw [← hlost x]
    exact FenceState.setBo_bo_of_ne _ _ hx
  · rw [← FenceState.loseFence_reg w r]
    exact FenceState.setReg_reg_of_ne _ _ hx

theorem detachFence (h : Tied dev w) (ho : (w.bo o).fenceReg = some r) :
    Tied dev (w.detachFence o r) := by
  have hself : (w.detachFence o r).bo o = { w.bo o with fenceReg := none, fenceDirty := false } := by
    simp
  have hother : ∀ x ≠ o, (w.detachFence o r).bo x = w.bo x :=
    fun x hx => FenceState.setBo_bo_of_ne _ _ hx
  have hreg : ∀ x ≠ r, (w.detachFence o r).reg x = w.reg x :=
    fun x hx => FenceState.setReg_reg_of_ne _ _ hx
  have hobj : (w.detachFence o r).reg r = { w.reg r with obj := none, written := 0 } := by
    simp [FenceState.detachFence]
  have hkeep : ∀ x i, ((w.detachFence o r).bo x).fenceReg = some i →
      i ≠ r ∧ (w.detachFence o r).bo x = w.bo x := by
    intro x i hi
    by_cases hx : x = o
    · simp [hx] at hi
    · rw [hother x hx] at hi
      exact ⟨fun hir => hx (h.owner_unique ho (hir ▸ hi)), hother x hx⟩
  refine ⟨fun x i => ?_, fun i => ?_, h.nodup.erase r, fun i => ?_, fun x i hi hd => ?_,
    fun x i hi => ?_, fun x hx => ?_, fun x i hi hd => ?_⟩
  · by_cases hir : i = r
    · rw [hir, hobj]
      exact iff_of_false (fun hi => (hkeep x r hi).1 rfl) (by simp)
    · rw [hreg i hir, ← h.owner x i]
      by_cases hx : x = o
      · rw [hx, ho]
        simpa using Ne.symm hir
      · rw [hother x hx]
  · show i ∈ w.fenceList.erase r ↔ _
    by_cases hir : i = r
    · simp [hir, hobj, h.nodup.not_mem_erase]
    · rw [List.mem_erase_of_ne hir, hreg i hir]
      exact h.listed i
  · by_cases hir : i = r
    · simp [hir, hobj]
    · rw [hreg i hir]
      exact h.enabled i
  · obtain ⟨hir, hsame⟩ := hkeep x i hi
    rw [hsame] at hi hd ⊢
    rw [hreg i hir]
    exact h.current x i hi hd
  · obtain ⟨-, hsame⟩ := hkeep x i hi
    rw [hsame] at hi ⊢
    exact h.bound x i hi
  · by_cases hxo : x = o
    · rw [hxo, hself] at hx ⊢
      exact h.located o hx
    · rw [hother x hxo] at hx ⊢
      exact h.located x hx
  · obtain ⟨-, hsame⟩ := hkeep x i hi
    rw [hsame] at hi hd ⊢
    exact h.clean x i hi hd

theorem touch (h : Tied dev w) (ho : (w.bo o).fenceReg = some r) : Tied dev (w.touch r) where
  owner := h.owner
  listed i := by
    have hobj : (w.reg r).obj = some o := (h.owner o r).mp ho
    show i ∈ w.fenceList.erase r ++ [r] ↔ (w.reg i).obj ≠ none
    rw [List.mem_append]
    by_cases hir : i = r
    · simp [hir, hobj]
    · rw [List.mem_erase_of_ne hir, h.listed]
      simp [hir]
  nodup := by
    show (w.fenceList.erase r ++ [r]).Nodup
    rw [List.nodup_append]
    refine ⟨h.nodup.erase r, List.nodup_singleton r, fun a ha b hb => ?_⟩
    rw [List.mem_singleton.mp hb]
    rintro rfl
    exact h.nodup.not_mem_erase ha
  enabled := h.enabled
  current := h.current
  bound := h.bound
  located := h.located
  clean := h.clean

/-- A register changes and keeps its object. -/
theorem setReg (h : Tied dev w) {f : FenceReg} (hobj : f.obj = (w.reg r).obj)
    (hused : (w.reg r).obj ≠ none → f.written = (w.reg r).written)
    (hfree : (w.reg r).obj = none → fenceValid f.written = false) : Tied dev (w.setReg r f) := by
  have hreg : ∀ i, (w.setReg r f).reg i = if i = r then f else w.reg i :=
    fun i => Function.update_apply ..
  have hobjs : ∀ i, ((w.setReg r f).reg i).obj = (w.reg i).obj := by
    intro i
    rw [hreg]
    split
    · rename_i hir
      rw [hobj, hir]
    · rfl
  refine ⟨fun x i => (hobjs i).symm ▸ h.owner x i, fun i => (hobjs i).symm ▸ h.listed i, h.nodup,
    fun i => ?_, fun x i hi hd => ?_, h.bound, h.located, h.clean⟩
  · rw [hobjs, hreg, ← h.enabled i]
    split
    · rename_i hir
      subst hir
      by_cases hi : (w.reg i).obj = none
      · have := (h.enabled i).not.mpr (by simpa using hi)
        simp_all
      · rw [hused hi]
    · rfl
  · rw [hreg]
    split
    · rename_i hir
      subst hir
      rw [hused (by simp [(h.owner x i).mp hi])]
      exact h.current x i hi hd
    · exact h.current x i hi hd

theorem clearFence (h : Tied dev w) (hr : (w.reg r).obj = none) : Tied dev (w.clearFence r) :=
  h.setReg rfl (fun hne => absurd hr hne) fun _ => fenceValid_zero

theorem countReg (h : Tied dev w) (c : ℤ) :
    Tied dev (w.setReg r { w.reg r with pinCount := c }) := by
  refine h.setReg rfl (fun _ => rfl) fun hr => ?_
  simpa using (h.enabled r).not.mpr (by simpa using hr)

theorem kept (dev : FenceDev) : Kept dev (Tied dev) where
  coming _ h := ⟨h.owner, h.listed, h.nodup, h.enabled, h.current, h.bound, h.located, h.clean⟩
  retire _ h := h.setBo_same rfl rfl rfl rfl rfl rfl
  hung h := ⟨h.owner, h.listed, h.nodup, h.enabled, h.current, h.bound, h.located, h.clean⟩
  touch h hr := h.touch hr
  clear h hr := h.clearFence hr
  refresh h hr ht := h.attachFence hr ht
  disable h hr _ := h.detachFence hr
  drop h hr _ := h.detachFence hr
  unplace h hr _ := h.setBo rfl (fun _ => rfl) fun _ hx => absurd (hr.symm.trans hx) (by simp)

theorem place (h : Tied dev w) (hnone : (w.bo o).gttSpace = none) (g : Region) (n : Node) :
    Tied dev (w.setBo o ((w.bo o).bound dev g n)) :=
  h.setBo rfl nofun fun r hr => absurd hnone (h.bound o r hr)

theorem pinned (h : Tied dev w) (c : BitVec 32) :
    Tied dev (w.setBo o { w.bo o with pinCount := c }) := h.setBo_same rfl rfl rfl rfl rfl rfl

theorem remapped (h : Tied dev w) (m : Bool) : Tied dev (w.setBo o ((w.bo o).remapped m)) :=
  h.setBo_same rfl rfl rfl rfl rfl rfl

/-- A new tiling mode leaves the register behind until the next use. -/
theorem retiled (h : Tied dev w) (m : Bool) (tiling stride : BitVec 32) :
    Tied dev (w.setBo o (((w.bo o).remapped m).retiled tiling stride)) := by
  refine h.setBo rfl (h.located o) fun r hr => ⟨h.bound o r hr, fun hd => ?_⟩
  have hsome : (w.bo o).fenceReg = some r := hr
  simp [FenceBo.retiled, FenceBo.remapped, hsome] at hd

end Tied

/-! ### The run -/

/-- One call, and what comes from outside during it. -/
inductive FenceOp where
  | getFence (o : ℕ)
  | putFence (o : ℕ)
  | setTiling (o : ℕ) (tiling stride : BitVec 32)
  | bind (o alignment : ℕ) (mapAndFenceable : Bool) (misses : ℕ)
  | unbind (o : ℕ)
  | pin (o alignment : ℕ) (mapAndFenceable : Bool) (misses : ℕ)
  | unpin (o : ℕ)
  | pinFence (o : ℕ)
  | unpinFence (o : ℕ)
  | submit (o : ℕ) (fenced : Bool)
  | retire (o : ℕ)
  | restoreFences

namespace FenceOp

/-- A fence is asked for on a bound object, and only an unbound one is bound. -/
def callable (w : FenceState) : FenceOp → Bool
  | getFence o => (w.bo o).gttSpace.isSome
  | bind o .. => (w.bo o).gttSpace.isNone
  | _ => true

def run (dev : FenceDev) : FenceOp → FenceM Unit
  | getFence o => discard (Fence.getFence dev o)
  | putFence o => discard (Fence.putFence dev o)
  | setTiling o tiling stride => discard (Fence.setTiling dev o tiling stride)
  | bind o alignment mapAndFenceable misses =>
    discard (bindToGtt dev o alignment mapAndFenceable misses)
  | unbind o => discard (Fence.unbind dev o)
  | pin o alignment mapAndFenceable misses =>
    discard (Fence.pin dev o alignment mapAndFenceable misses)
  | unpin o => Fence.unpin o
  | pinFence o => discard (Fence.pinFence o)
  | unpinFence o => Fence.unpinFence o
  | submit o fenced => Fence.submit o fenced
  | retire o => modify fun w => w.retire o
  | restoreFences => Fence.restoreFences dev

end FenceOp

/-- The registers after i915_gem_load: no object has one, and all are disabled. -/
def FenceState.Loaded (w : FenceState) : Prop :=
  (∀ o, (w.bo o).fenceReg = none ∧ (w.bo o).gttSpace = none ∧ (w.bo o).pinCount = 0 ∧
    (w.bo o).gttOffset = 0) ∧
    (∀ r, w.reg r = {}) ∧ w.fenceList = [] ∧ w.writes = []

/-- One call after the other, as long as they return. -/
def fenceStep (dev : FenceDev) (w : FenceState) (a : FenceOp × (ℕ → Outcome)) : Option FenceState :=
  if w.hung = false ∧ a.1.callable w then some (a.1.run dev { w with coming := a.2 }).2 else none

def fenceSystem (dev : FenceDev) : System FenceState (FenceOp × (ℕ → Outcome)) :=
  .ofStep FenceState.Loaded (fenceStep dev)

theorem Tied.of_loaded (h : w.Loaded) : Tied dev w where
  owner o r := by simp [(h.1 o).1, h.2.1 r]
  listed r := by simp [h.2.2.1, h.2.1 r]
  nodup := by simp [h.2.2.1]
  enabled r := by simp [h.2.1 r]
  current o r hr := by simp [(h.1 o).1] at hr
  bound o r hr := by simp [(h.1 o).1] at hr
  located o _ := (h.1 o).2.2.2
  clean o r hr := by simp [(h.1 o).1] at hr

namespace Tied

theorem submit (o : ℕ) (fenced : Bool) : Keeps (Tied dev) (submit o fenced) := by
  intro w h
  have hset : Tied dev (w.setBo o { w.bo o with
      fencedGpuAccess := fenced, fenceBusy := fenced || (w.bo o).fenceBusy }) :=
    h.setBo_same rfl rfl rfl rfl rfl rfl
  cases fenced with
  | false => exact hset
  | true =>
    cases hr : (w.bo o).fenceReg with
    | none => simpa [Fence.submit, run_modify, hr]
        using hset
    | some r => simpa [Fence.submit, run_modify, hr]
        using hset.touch (o := o) (by simpa using hr)

theorem pinFence : Keeps (Tied dev) (Fence.pinFence o) := by
  refine triple_getBo fun b => ?_
  cases b.fenceReg with
  | none => exact Triple.pure fun w hw => hw.1
  | some r =>
    exact Triple.bind (Triple.modify (Q := fun _ => Tied dev) fun w hw => hw.1.countReg _)
      fun _ => Keeps.pure

theorem unpinFence : Keeps (Tied dev) (Fence.unpinFence o) := by
  refine Triple.modify fun w hw => ?_
  split
  · exact hw
  · exact hw.countReg _

theorem setTiling (tiling stride : BitVec 32) : Keeps (Tied dev) (Fence.setTiling dev o tiling stride) :=
  (kept dev).setTiling (fun _ h => h) (fun _ h => h.remapped false) fun _ m h _ =>
    h.retiled m tiling stride

theorem pin (alignment misses : ℕ) (maf : Bool) :
    Keeps (Tied dev) (Fence.pin dev o alignment maf misses) := by
  refine ((kept dev).pin (J := Tied dev) alignment misses maf (fun w g n h hnone _ => h.place hnone g n)
    fun w h _ _ _ => h.pinned _).post fun ret w hw => ?_
  simpa using hw

/-- One call keeps registers and objects together. -/
theorem run (op : FenceOp) :
    Triple (fun w => Tied dev w ∧ op.callable w) (op.run dev) fun _ => Tied dev := by
  have hI := kept dev
  cases op with
  | getFence o =>
    have h := hI.getFence (o := o) (A := fun b => b.gttSpace ≠ none) (fun _ h => h)
      fun w r h hb hr ht _ => h.takeFence hr hb ht
    exact (h.conseq (fun w hw => ⟨hw.1, Option.isSome_iff_ne_none.mp hw.2⟩)
      fun ret w hw => hw.1).discard
  | putFence o =>
    have h : Triple (Tied dev) (Fence.putFence dev o) _ :=
      putFence_spec hI.toQuiet (fun w h _ => h) fun w r h hr => h.detachFence hr
    exact (h.conseq (fun w hw => hw.1) fun ret w hw => by simpa using hw).discard
  | setTiling o tiling stride => exact ((setTiling tiling stride).pre fun w hw => hw.1).discard
  | bind o alignment maf misses =>
    have h := hI.bindToGtt (o := o) alignment misses maf fun w g n h hnone _ _ => h.place hnone g n
    exact (h.conseq (fun w hw => ⟨hw.1, Option.isNone_iff_eq_none.mp hw.2⟩)
      fun ret w hw => by simpa using hw).discard
  | unbind o => exact (hI.unbind.conseq (fun w hw => hw.1) fun ret w hw => hw.1).discard
  | pin o alignment maf misses => exact ((pin alignment misses maf).pre fun w hw => hw.1).discard
  | unpin o => exact fun w hw => hw.1.pinned _
  | pinFence o => exact (pinFence.pre fun w hw => hw.1).discard
  | unpinFence o => exact unpinFence.pre fun w hw => hw.1
  | submit o fenced => exact (submit o fenced).pre fun w hw => hw.1
  | retire o => exact fun w hw => hI.retire o hw.1
  | restoreFences =>
    exact (hI.restoreFences fun w o r h => (h.owner o r).mpr).pre fun w hw => hw.1

theorem of_reach (h : Reach (fenceSystem dev) w) : Tied dev w := by
  refine h.invariant (fun w => of_loaded) fun v a v' hv _ hs => ?_
  simp only [fenceSystem, System.ofStep, fenceStep] at hs
  split at hs
  · rename_i hc
    obtain rfl := Option.some.inj hs
    exact run a.1 _ ⟨(kept dev).coming a.2 hv, hc.2⟩
  · cases hs

end Tied

/-- In every run objects and registers name each other, the list holds the registers in use,
these are the enabled ones, and each describes its object unless the object says it is out of
date. -/
theorem fences_describe_objects (dev : FenceDev) (w : FenceState) (h : Reach (fenceSystem dev) w) :
    (∀ o r, (w.bo o).fenceReg = some r ↔ (w.reg r).obj = some o) ∧
      (∀ r, r ∈ w.fenceList ↔ (w.reg r).obj ≠ none) ∧ w.fenceList.Nodup ∧
      (∀ r, fenceValid (w.reg r).written = false ↔ (w.reg r).obj = none) ∧
      ∀ o r, (w.reg r).obj = some o → (w.bo o).fenceDirty = false →
        (w.reg r).written = dev.fenceValue (w.bo o) := by
  have ht := Tied.of_reach h
  refine ⟨ht.owner, ht.listed, ht.nodup, fun r => ?_, fun o r hr => ht.current o r ((ht.owner o r).mpr hr)⟩
  rw [← not_iff_not, Bool.not_eq_false, ht.enabled]

/-- A device of the fourth generation. -/
def gen4Dev : FenceDev where
  gen := 4
  isG33 := false
  hasLlc := false
  isBroadwaterOrCrestline := false
  needVtdWa := false
  has128ByteYTiling := true
  unknownSwizzleX := false
  unknownSwizzleY := false
  fenceRegStart := 0
  numFenceRegs := 16
  mappableEnd := 0x10000000
  total := 0x20000000
  gen_mem := by decide
  mappable_le := by decide
  total_lt := by decide

def loadedFences (size : ℕ) : FenceState := { bo := fun _ => { size := size } }

theorem loadedFences_loaded (size : ℕ) : (loadedFences size).Loaded :=
  ⟨fun _ => ⟨rfl, rfl, rfl, rfl⟩, fun _ => rfl, rfl, rfl⟩

/-- The search of a binding that evicts nothing finds this node. -/
def foundNode (n : Node) : ℕ → Outcome := fun i => if i = 1 then { node := some n } else {}

theorem fences_describe_objects_tiledObject : ∃ w : FenceState, (w.reg 0).obj = some 0 ∧
    (w.bo 0).fenceDirty = false ∧ fenceValid (w.reg 0).written = true ∧
    (w.reg 0).written = gen4Dev.fenceValue (w.bo 0) := by
  obtain ⟨w, hw, hp⟩ : ∃ w : FenceState, ReachWhile (fenceSystem gen4Dev) (fun _ _ => true = true) w ∧
      (decide ((w.reg 0).obj = some 0) && !(w.bo 0).fenceDirty &&
        fenceValid (w.reg 0).written) = true :=
    ReachWhile.of_exec_any (l := [(.setTiling 0 tilingX 512, fun _ => {}),
      (.pin 0 0 true 1, foundNode ⟨0x100000, 0x10000⟩), (.getFence 0, fun _ => {})])
      (.init (loadedFences_loaded 0x10000)) (by decide +kernel)
  simp only [Bool.and_eq_true, decide_eq_true_eq, Bool.not_eq_true'] at hp
  exact ⟨w, hp.1.1, hp.1.2, hp.2,
    (fences_describe_objects gen4Dev w hw.reach).2.2.2.2 0 0 hp.1.1 hp.1.2⟩

end GfxDrm.Fence
