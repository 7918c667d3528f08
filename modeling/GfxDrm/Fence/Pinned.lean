import GfxDrm.Fence.Clients
import GfxDrm.Fence.Tied
import GfxDrm.Lib.Pool

/-! Who holds which pins of objects and registers, and what a pin protects. -/

namespace GfxDrm.Fence
open Hoare Run Pool Errno

/-- The pins of an object that are out. -/
def objPins (H : List Hold) (o : ℕ) : ℕ := H.countP fun h => h.obj = o

/-- The pins of a register that are out. -/
def regPins (H : List Hold) (r : ℕ) : ℕ := H.countP fun h => h.fence = some r

/-- The counts of objects and registers are those of the pins that are out, a register that
is pinned is the one of the object it was pinned with, and tiling is as `tilings` says. -/
structure Pinned (dev : FenceDev) (tilings : ℕ → BitVec 2 × BitVec 32) (H : List Hold)
    (w : FenceState) : Prop where
  tied : Tied dev w
  tiling : ∀ o, ((w.bo o).tilingMode, (w.bo o).stride) = tilings o
  pins : ∀ o, (w.bo o).pinCount = BitVec.ofNat 32 (objPins H o)
  few : ∀ o, objPins H o ≤ 15
  counts : ∀ r, (w.reg r).pinCount = regPins H r
  bound : ∀ h ∈ H, (w.bo h.obj).gttSpace ≠ none
  fenced : ∀ h ∈ H, ∀ r, h.fence = some r →
    (w.bo h.obj).fenceReg = some r ∧ (w.bo h.obj).tiled = true
  plain : ∀ h ∈ H, h.kind = .plain → h.fence = none
  /-- A scanout buffer without a fence does not get one. -/
  scanout : ∀ h ∈ H, h.kind = .scanout → h.fence = none →
    (w.bo h.obj).fenceReg = none ∧ (w.bo h.obj).tiled = false

/-- The tiling of all objects. -/
def FenceState.tilings (w : FenceState) (o : ℕ) : BitVec 2 × BitVec 32 :=
  ((w.bo o).tilingMode, (w.bo o).stride)

variable {dev : FenceDev} {tilings : ℕ → BitVec 2 × BitVec 32} {H H' : List Hold}
  {w w' : FenceState} {o r : ℕ} {b : FenceBo} {kind : HoldKind}

theorem objPins_eq_zero : objPins H o = 0 ↔ ∀ h ∈ H, h.obj ≠ o := by
  simp [objPins]

theorem regPins_eq_zero : regPins H r = 0 ↔ ∀ h ∈ H, h.fence ≠ some r := by
  simp [regPins]

theorem objPins_cons (h : Hold) (H : List Hold) (o : ℕ) :
    objPins (h :: H) o = objPins H o + if h.obj = o then 1 else 0 := by
  simp [objPins, List.countP_cons]

theorem regPins_cons (h : Hold) (H : List Hold) (r : ℕ) :
    regPins (h :: H) r = regPins H r + if h.fence = some r then 1 else 0 := by
  simp [regPins, List.countP_cons]

namespace Pinned

theorem perm (h : Pinned dev tilings H w) (hp : H.Perm H') : Pinned dev tilings H' w where
  tied := h.tied
  tiling := h.tiling
  pins o := by
    rw [h.pins, objPins, objPins, hp.countP_eq]
  few o := by
    have := h.few o
    rwa [objPins, hp.countP_eq] at this
  counts r := by
    rw [h.counts, regPins, regPins, hp.countP_eq]
  bound x hx := h.bound x (hp.mem_iff.mpr hx)
  fenced x hx := h.fenced x (hp.mem_iff.mpr hx)
  plain x hx := h.plain x (hp.mem_iff.mpr hx)
  scanout x hx := h.scanout x (hp.mem_iff.mpr hx)

/-- An object whose count is zero is not held. -/
theorem unheld (h : Pinned dev tilings H w) (ho : (w.bo o).pinCount = 0) : ∀ x ∈ H, x.obj ≠ o := by
  have hpins := h.pins o
  have hfew := h.few o
  rw [ho] at hpins
  have hnat := congrArg BitVec.toNat hpins
  rw [BitVec.toNat_ofNat, Nat.mod_eq_of_lt (by omega)] at hnat
  exact objPins_eq_zero.mp hnat.symm

theorem unheldReg (h : Pinned dev tilings H w) (hr : (w.reg r).pinCount = 0) :
    ∀ x ∈ H, x.fence ≠ some r :=
  regPins_eq_zero.mp (by have := h.counts r; omega)

/-- Whoever pinned a register pinned the object that has it. -/
theorem holder (h : Pinned dev tilings H w) (ho : (w.bo o).fenceReg = some r) :
    ∀ x ∈ H, x.fence = some r → x.obj = o :=
  fun x hx hxr => h.tied.owner_unique ho (h.fenced x hx r hxr).1

/-- An object changes that nobody holds, or that keeps what its holders rely on. -/
theorem setBo (h : Pinned dev tilings H w) (htied : Tied dev (w.setBo o b))
    (htiling : b.tilingMode = (w.bo o).tilingMode ∧ b.stride = (w.bo o).stride)
    (hpin : b.pinCount = (w.bo o).pinCount)
    (hheld : ∀ x ∈ H, x.obj = o → b.gttSpace ≠ none ∧ b.fenceReg = (w.bo o).fenceReg) :
    Pinned dev tilings H (w.setBo o b) := by
  have hbo : ∀ x, (w.setBo o b).bo x = if x = o then b else w.bo x := FenceState.setBo_bo w o b
  have htiled : b.tiled = (w.bo o).tiled := by
    simp only [FenceBo.tiled, htiling.1]
  refine ⟨htied, fun x => ?_, fun x => ?_, h.few, h.counts, fun x hx => ?_, fun x hx r hr => ?_,
    h.plain, fun x hx hk hr => ?_⟩
  · rw [hbo, ← h.tiling x]
    split
    · rename_i hxo
      rw [htiling.1, htiling.2, hxo]
    · rfl
  · rw [hbo, ← h.pins x]
    split
    · rename_i hxo
      rw [hpin, hxo]
    · rfl
  · rw [hbo]
    split
    · exact (hheld x hx ‹_›).1
    · exact h.bound x hx
  · have hold := h.fenced x hx r hr
    rw [hbo]
    split
    · rename_i hxo
      rw [(hheld x hx hxo).2, htiled]
      exact hxo ▸ hold
    · exact hold
  · have hold := h.scanout x hx hk hr
    rw [hbo]
    split
    · rename_i hxo
      rw [(hheld x hx hxo).2, htiled]
      exact hxo ▸ hold
    · exact hold

/-- Registers and the objects' notes of them change, but not those of pinned registers. -/
theorem refence (h : Pinned dev tilings H w) (htied : Tied dev w')
    (hbo : ∀ x, ∃ f d, w'.bo x = { w.bo x with fenceReg := f, fenceDirty := d })
    (hreg : ∀ r, (w'.reg r).pinCount = (w.reg r).pinCount)
    (hheld : ∀ x ∈ H, (w'.bo x.obj).fenceReg = (w.bo x.obj).fenceReg ∨
      (x.fence = none ∧ ((w'.bo x.obj).fenceReg = none ∨ (w.bo x.obj).tiled = true))) :
    Pinned dev tilings H w' := by
  refine ⟨htied, fun x => ?_, fun x => ?_, h.few, fun r => (hreg r).trans (h.counts r),
    fun x hx => ?_, fun x hx r hr => ?_, h.plain, fun x hx hk hr => ?_⟩
  · obtain ⟨f, d, hx⟩ := hbo x
    rw [hx]
    exact h.tiling x
  · obtain ⟨f, d, hx⟩ := hbo x
    rw [hx]
    exact h.pins x
  · obtain ⟨f, d, hxo⟩ := hbo x.obj
    rw [hxo]
    exact h.bound x hx
  all_goals
    obtain ⟨f, d, hxo⟩ := hbo x.obj
    have htiled : (w'.bo x.obj).tiled = (w.bo x.obj).tiled := by
      rw [hxo]
      rfl
    rw [htiled]
  · have hold := h.fenced x hx r hr
    rcases hheld x hx with hsame | ⟨hnone, -⟩
    · rwa [hsame]
    · simp [hr] at hnone
  · have hold := h.scanout x hx hk hr
    refine ⟨?_, hold.2⟩
    rcases hheld x hx with hsame | ⟨-, hnone | ht⟩
    · rw [hsame]
      exact hold.1
    · exact hnone
    · simp [hold.2] at ht

theorem detachFence (h : Pinned dev tilings H w) (ho : (w.bo o).fenceReg = some r)
    (hfree : ∀ x ∈ H, x.fence ≠ some r) : Pinned dev tilings H (w.detachFence o r) := by
  have hother : ∀ x ≠ o, (w.detachFence o r).bo x = w.bo x :=
    fun x hx => FenceState.setBo_bo_of_ne _ _ hx
  refine h.refence (h.tied.detachFence ho) (fun x => ?_) (fun i => ?_) fun x hx => ?_
  · by_cases hx : x = o
    · exact ⟨none, false, by rw [hx, FenceState.detachFence_bo_self]⟩
    · exact ⟨_, _, hother x hx⟩
  · by_cases hir : i = r
    · simp [hir, FenceState.detachFence]
    · exact congrArg _ (FenceState.setReg_reg_of_ne _ _ hir)
  · by_cases hxo : x.obj = o
    · refine .inr ⟨?_, .inl (by simp [hxo])⟩
      by_contra hne
      obtain ⟨i, hi⟩ := Option.ne_none_iff_exists'.mp hne
      have hreg := (h.fenced x hx i hi).1
      rw [hxo, ho] at hreg
      exact hfree x hx (hi.trans hreg.symm)
    · exact .inl (congrArg _ (hother _ hxo))

theorem attachFence (h : Pinned dev tilings H w) (ho : (w.bo o).fenceReg = some r)
    (ht : (w.bo o).tiled = true) : Pinned dev tilings H (w.attachFence dev o r) := by
  have hother : ∀ x ≠ o, (w.attachFence dev o r).bo x = w.bo x :=
    fun x hx => FenceState.setBo_bo_of_ne _ _ hx
  refine h.refence (h.tied.attachFence ho ht) (fun x => ?_) (fun i => ?_) fun x hx => .inl ?_
  · by_cases hx : x = o
    · exact ⟨some r, false, by rw [hx, FenceState.attachFence_bo_self]⟩
    · exact ⟨_, _, hother x hx⟩
  · by_cases hir : i = r
    · simp [hir, FenceState.attachFence]
    · exact congrArg _ (FenceState.setReg_reg_of_ne _ _ hir)
  · by_cases hxo : x.obj = o
    · rw [hxo, FenceState.attachFence_bo_self, ho]
    · exact congrArg _ (hother _ hxo)

/-- A register that is free or not pinned may be taken from the object that has it. -/
theorem takeFence (h : Pinned dev tilings H w) (hr : (w.bo o).fenceReg = none)
    (hbound : (w.bo o).gttSpace ≠ none) (ht : (w.bo o).tiled = true)
    (hfree : (w.reg r).obj = none ∨ (w.reg r).pinCount = 0) :
    Pinned dev tilings H ((w.loseFence r).attachFence dev o r) := by
  have hunheld : ∀ x ∈ H, x.fence ≠ some r := by
    rcases hfree with hobj | hpin
    · intro x hx hxr
      have := (h.tied.owner _ r).mp (h.fenced x hx r hxr).1
      simp [hobj] at this
    · exact h.unheldReg hpin
  have hlost : ∀ x, (w.loseFence r).bo x = w.bo x ∨
      (w.bo x).fenceReg = some r ∧ (w.loseFence r).bo x = (w.bo x).fenceLost := by
    intro x
    unfold FenceState.loseFence
    cases hobj : (w.reg r).obj with
    | none => exact .inl rfl
    | some old =>
      rw [FenceState.setBo_bo]
      split
      · rename_i hx
        subst hx
        exact .inr ⟨(h.tied.owner x r).mpr hobj, rfl⟩
      · exact .inl rfl
  have hself : (w.loseFence r).bo o = w.bo o := by
    rcases hlost o with hlost | ⟨hown, -⟩
    · exact hlost
    · simp [hr] at hown
  have hother : ∀ x ≠ o, ((w.loseFence r).attachFence dev o r).bo x = (w.loseFence r).bo x :=
    fun x hx => FenceState.setBo_bo_of_ne _ _ hx
  refine h.refence (h.tied.takeFence hr hbound ht) (fun x => ?_) (fun i => ?_) fun x hx => ?_
  · by_cases hx : x = o
    · exact ⟨some r, false, by rw [hx, FenceState.attachFence_bo_self, hself]⟩
    · rw [hother x hx]
      rcases hlost x with hlost | ⟨-, hlost⟩
      · exact ⟨_, _, hlost⟩
      · exact ⟨none, false, hlost⟩
  · by_cases hir : i = r
    · simp [hir, FenceState.attachFence]
    · rw [← FenceState.loseFence_reg w r]
      exact congrArg _ (FenceState.setReg_reg_of_ne _ _ hir)
  · by_cases hxo : x.obj = o
    · refine .inr ⟨?_, .inr (hxo ▸ ht)⟩
      by_contra hne
      obtain ⟨i, hi⟩ := Option.ne_none_iff_exists'.mp hne
      have hreg := (h.fenced x hx i hi).1
      rw [hxo, hr] at hreg
      simp at hreg
    · rw [hother _ hxo]
      rcases hlost x.obj with hlost | ⟨hown, hlost⟩
      · exact .inl (congrArg _ hlost)
      · refine .inr ⟨?_, .inl (by simp [hlost, FenceBo.fenceLost])⟩
        by_contra hne
        obtain ⟨i, hi⟩ := Option.ne_none_iff_exists'.mp hne
        have hreg := (h.fenced x hx i hi).1
        rw [hown] at hreg
        exact hunheld x hx (hi.trans hreg.symm)

theorem clearFence (h : Pinned dev tilings H w) (hr : (w.reg r).obj = none) :
    Pinned dev tilings H (w.clearFence r) := by
  refine h.refence (h.tied.clearFence hr) (fun x => ⟨_, _, rfl⟩) (fun i => ?_) fun x hx => .inl rfl
  by_cases hir : i = r
  · simp [hir, FenceState.clearFence]
  · exact congrArg _ (FenceState.setReg_reg_of_ne _ _ hir)

theorem kept (dev : FenceDev) (tilings : ℕ → BitVec 2 × BitVec 32) (H : List Hold) :
    Kept dev (Pinned dev tilings H) where
  coming c h := h.refence ((Tied.kept dev).coming c h.tied) (fun x => ⟨_, _, rfl⟩) (fun _ => rfl)
    fun _ _ => .inl rfl
  retire o h := h.setBo ((Tied.kept dev).retire o h.tied) ⟨rfl, rfl⟩ rfl fun x hx hxo =>
    ⟨hxo ▸ h.bound x hx, rfl⟩
  hung h := h.refence ((Tied.kept dev).hung h.tied) (fun x => ⟨_, _, rfl⟩) (fun _ => rfl)
    fun _ _ => .inl rfl
  touch h hr := h.refence (h.tied.touch hr) (fun x => ⟨_, _, rfl⟩) (fun _ => rfl)
    fun _ _ => .inl rfl
  clear h hr := h.clearFence hr
  refresh h hr ht := h.attachFence hr ht
  disable {w o r} h hr ht := h.detachFence hr fun x hx hxr => by
    have hheld := (h.fenced x hx r hxr).2
    rw [h.holder hr x hx hxr, ht] at hheld
    cases hheld
  drop h hr hp := h.detachFence hr fun x hx hxr => h.unheld hp x hx (h.holder hr x hx hxr)
  unplace h hr hp := h.setBo ((Tied.kept dev).unplace h.tied hr hp) ⟨rfl, rfl⟩ rfl fun x hx hxo =>
    absurd hxo (h.unheld hp x hx)

/-! ### Taking and giving back -/

theorem pinObj (h : Pinned dev tilings H w) (hb : (w.bo o).gttSpace ≠ none)
    (hmax : (w.bo o).pinCount ≠ maxPinCount) :
    Pinned dev tilings ({ obj := o } :: H)
      (w.setBo o { w.bo o with pinCount := (w.bo o).pinCount + 1 }) := by
  have hbo : ∀ x, (w.setBo o { w.bo o with pinCount := (w.bo o).pinCount + 1 }).bo x =
      { w.bo x with pinCount := (w.bo x).pinCount + if o = x then 1 else 0 } := by
    intro x
    rw [FenceState.setBo_bo]
    by_cases hx : x = o
    · simp [hx]
    · simp [hx, Ne.symm hx]
  have hfifteen : objPins H o ≠ 15 := fun heq => hmax (by rw [h.pins, heq]; rfl)
  refine ⟨h.tied.pinned _, fun x => ?_, fun x => ?_, fun x => ?_, fun r => ?_, fun x hx => ?_,
    fun x hx r hr => ?_, fun x hx hk => ?_, fun x hx hk hr => ?_⟩
  · rw [hbo]
    exact h.tiling x
  · rw [hbo, objPins_cons]
    simp only [h.pins x]
    split <;> simp [BitVec.ofNat_add]
  · have hx := h.few x
    rw [objPins_cons]
    split
    · rename_i hox
      subst hox
      have hx : objPins H o ≤ 15 := hx
      show objPins H o + 1 ≤ 15
      omega
    · exact hx
  · rw [regPins_cons]
    exact (h.counts r).trans (by simp)
  all_goals rcases List.mem_cons.mp hx with rfl | hx
  · rw [hbo]
    exact hb
  · rw [hbo]
    exact h.bound x hx
  · cases hr
  · rw [hbo]
    exact h.fenced x hx r hr
  · rfl
  · exact h.plain x hx hk
  · cases hk
  · rw [hbo]
    exact h.scanout x hx hk hr

theorem unpinObj (h : Pinned dev tilings ({ obj := o } :: H) w) :
    Pinned dev tilings H (w.setBo o { w.bo o with pinCount := (w.bo o).pinCount - 1 }) := by
  have hbo : ∀ x, (w.setBo o { w.bo o with pinCount := (w.bo o).pinCount - 1 }).bo x =
      { w.bo x with pinCount := (w.bo x).pinCount - if o = x then 1 else 0 } := by
    intro x
    rw [FenceState.setBo_bo]
    by_cases hx : x = o
    · simp [hx]
    · simp [hx, Ne.symm hx]
  refine ⟨h.tied.pinned _, fun x => ?_, fun x => ?_, fun x => ?_, fun r => ?_, fun x hx => ?_,
    fun x hx r hr => ?_, fun x hx hk => h.plain x (List.mem_cons_of_mem _ hx) hk,
    fun x hx hk hr => ?_⟩
  · rw [hbo]
    exact h.tiling x
  · rw [hbo]
    simp only [h.pins x, objPins_cons]
    split <;> simp [BitVec.ofNat_add]
  · have hx := h.few x
    rw [objPins_cons] at hx
    omega
  · have hr := h.counts r
    rw [regPins_cons] at hr
    exact hr.trans (by simp)
  all_goals
    rw [hbo]
  · exact h.bound x (List.mem_cons_of_mem _ hx)
  · exact h.fenced x (List.mem_cons_of_mem _ hx) r hr
  · exact h.scanout x (List.mem_cons_of_mem _ hx) hk hr

/-- The pin of an object stays and what it says about a register changes with the count. -/
theorem recount {f f' : Option ℕ} {kind' : HoldKind} {d : ℤ}
    (h : Pinned dev tilings ({ obj := o, kind := kind, fence := f } :: H) w)
    (hd : (if f' = some r then (1 : ℤ) else 0) = d + if f = some r then 1 else 0)
    (hne : ∀ i ≠ r, f ≠ some i ∧ f' ≠ some i)
    (hfenced : ∀ i, f' = some i → (w.bo o).fenceReg = some i ∧ (w.bo o).tiled = true)
    (hplain : kind' = .plain → f' = none)
    (hscanout : kind' = .scanout → f' = none →
      (w.bo o).fenceReg = none ∧ (w.bo o).tiled = false) :
    Pinned dev tilings ({ obj := o, kind := kind', fence := f' } :: H)
      (w.setReg r { w.reg r with pinCount := (w.reg r).pinCount + d }) := by
  refine ⟨h.tied.countReg _, h.tiling, fun x => ?_, fun x => ?_, fun i => ?_, fun x hx => ?_,
    fun x hx i hi => ?_, fun x hx hk => ?_, fun x hx hk hi => ?_⟩
  · exact h.pins x
  · exact h.few x
  · have hi := h.counts i
    rw [regPins_cons] at hi ⊢
    by_cases hir : i = r
    · subst hir
      rw [FenceState.setReg_reg_self]
      rw [hi]
      push_cast
      omega
    · rw [FenceState.setReg_reg_of_ne _ _ hir, hi]
      simp [hne i hir]
  all_goals
    rcases List.mem_cons.mp hx with rfl | hx
  · exact h.bound ⟨o, kind, f⟩ List.mem_cons_self
  · exact h.bound x (List.mem_cons_of_mem _ hx)
  · exact hfenced i hi
  · exact h.fenced x (List.mem_cons_of_mem _ hx) i hi
  · exact hplain hk
  · exact h.plain x (List.mem_cons_of_mem _ hx) hk
  · exact hscanout hk hi
  · exact h.scanout x (List.mem_cons_of_mem _ hx) hk hi

/-- The kind of a pin without a register changes. -/
theorem relabel {kind' : HoldKind}
    (h : Pinned dev tilings ({ obj := o, kind := kind } :: H) w)
    (hscanout : kind' = .scanout → (w.bo o).fenceReg = none ∧ (w.bo o).tiled = false) :
    Pinned dev tilings ({ obj := o, kind := kind' } :: H) w where
  tied := h.tied
  tiling := h.tiling
  pins x := (h.pins x).trans (by simp [objPins_cons])
  few x := (h.few x).trans' (by simp [objPins_cons])
  counts i := (h.counts i).trans (by simp [regPins_cons])
  bound x hx := by
    rcases List.mem_cons.mp hx with rfl | hx
    · exact h.bound ⟨o, kind, none⟩ List.mem_cons_self
    · exact h.bound x (List.mem_cons_of_mem _ hx)
  fenced x hx i hi := by
    rcases List.mem_cons.mp hx with rfl | hx
    · cases hi
    · exact h.fenced x (List.mem_cons_of_mem _ hx) i hi
  plain x hx hk := by
    rcases List.mem_cons.mp hx with rfl | hx
    · rfl
    · exact h.plain x (List.mem_cons_of_mem _ hx) hk
  scanout x hx hk hi := by
    rcases List.mem_cons.mp hx with rfl | hx
    · exact hscanout hk
    · exact h.scanout x (List.mem_cons_of_mem _ hx) hk hi

end Pinned

/-- Nobody has pinned the register of the object. -/
def Unpinned (o : ℕ) (w : FenceState) : Prop :=
  ∀ r, (w.bo o).fenceReg = some r → (w.reg r).pinCount = 0

theorem quiet_unpinned (o : ℕ) : Quiet (Unpinned o) where
  coming _ h := h
  retire {w} x h := by
    have hreg : ((w.retire x).bo o).fenceReg = (w.bo o).fenceReg := by
      show ((w.setBo x (w.bo x).idle).bo o).fenceReg = _
      rw [FenceState.setBo_bo]
      split
      · rename_i hx
        rw [hx]
        rfl
      · rfl
    intro r hr
    exact h r (hreg ▸ hr)

theorem Pinned.rules (dev : FenceDev) (tilings : ℕ → BitVec 2 × BitVec 32) :
    ClientRules dev Unpinned (Pinned dev tilings) where
  kept := kept dev tilings
  free := quiet_unpinned
  owner h := (h.tied.owner _ _).mpr
  located h := h.tied.located _
  place n h hnone _ := h.setBo (h.tied.place hnone _ n) ⟨rfl, rfl⟩ rfl fun x hx hxo =>
    absurd hnone (hxo ▸ h.bound x hx)
  use _ _ _ h := h.setBo (h.tied.setBo_same rfl rfl rfl rfl rfl rfl) ⟨rfl, rfl⟩ rfl
    fun x hx hxo => ⟨hxo ▸ h.bound x hx, rfl⟩
  pin h hb hmax := h.pinObj hb hmax
  unpin h := h.unpinObj
  exec h := h.relabel nofun
  fenced {H w o r kind} hkind h hf hr := by
    refine h.recount (by simp) (fun i hi => ⟨by simp, by simpa using Ne.symm hi⟩)
      (fun i hi => ?_) (fun hk => absurd hk hkind) fun _ hi => by cases hi
    obtain rfl := Option.some.inj hi
    exact ⟨hr, h.tied.clean o r hr (hf.2 (by simp [hr]))⟩
  unfenced kind h hf hr := h.relabel fun _ => ⟨hr, hf.1 hr⟩
  take h hfit hr ht hfree := h.takeFence hr hfit.1 ht hfree
  release h hfree hr := h.detachFence hr (h.unheldReg (hfree _ hr))

/-! ### The run -/

/-- A call of i915_gem_set_tiling between its tests and the mutex, with the arguments as the
tests leave them. -/
structure Retile where
  obj : ℕ
  tiling : BitVec 32
  stride : BitVec 32

structure FenceClients where
  fences : FenceState
  holds : List Hold := []
  retiling : List Retile := []

inductive ClientEvent where
  | call (op : ClientOp)
  /-- The holder of the pin at this index gives it back. -/
  | giveBack (i : ℕ)
  /-- i915_gem_set_tiling up to the mutex. -/
  | setTiling (o : ℕ) (tiling stride : BitVec 32)
  /-- The call at this index has got the mutex. -/
  | retile (i : ℕ)
  /-- i915_gem_execbuffer_reserve releases an entry that it has not reserved, with the flags
  that came from user memory. -/
  | unreserve (o : ℕ) (hasFence hasPin : Bool)

/-- The tests of i915_gem_set_tiling, made without the mutex. -/
def FenceDev.testTiling (dev : FenceDev) (b : FenceBo) (tiling stride : BitVec 32) :
    Except ℤ (BitVec 32 × BitVec 32) :=
  if !dev.tilingOk stride b.size tiling then .error eInval
  else if b.pinCount ≠ 0 then .error eBusy
  else if tiling = tilingNone then .ok (tilingNone, 0)
  else if (if tiling = tilingX then dev.unknownSwizzleX else dev.unknownSwizzleY) then
    .ok (tilingNone, 0)
  else .ok (tiling, stride)

/-- How a pin is given back. -/
def Hold.giveBack (h : Hold) : FenceM Unit :=
  match h.kind with
  | .plain => unpin h.obj
  | .scanout => unpinFbObj h.obj
  | .exec => unreserveObject h.obj h.fence.isSome true

namespace FenceClients

def run (s : FenceClients) (m : FenceM Unit) (coming : ℕ → Outcome) : FenceClients :=
  { s with fences := (m { s.fences with coming := coming }).2 }

def step (dev : FenceDev) (s : FenceClients) (a : ClientEvent × (ℕ → Outcome)) :
    Option FenceClients :=
  if s.fences.hung then none
  else match a.1 with
    | .call op =>
      let res := op.run dev { s.fences with coming := a.2 }
      some { s with fences := res.2, holds := res.1.toList ++ s.holds }
    | .giveBack i => (s.holds[i]?).map fun h =>
      { s.run h.giveBack a.2 with holds := others s.holds i }
    | .setTiling o tiling stride =>
      match dev.testTiling (s.fences.bo o) tiling stride with
      | .error _ => some s
      | .ok (tiling, stride) => some { s with retiling := ⟨o, tiling, stride⟩ :: s.retiling }
    | .retile i => (s.retiling[i]?).map fun c =>
      { s.run (discard (Fence.setTiling dev c.obj c.tiling c.stride)) a.2 with
        retiling := others s.retiling i }
    | .unreserve o hasFence hasPin => some (s.run (unreserveObject o hasFence hasPin) a.2)

/-- The object has no fence, or one that nobody has pinned. -/
def unpinned (w : FenceState) (o : ℕ) : Bool :=
  match (w.bo o).fenceReg with
  | none => true
  | some r => (w.reg r).pinCount == 0

/-- A relocation finds the fence of its object not pinned, a new tiling mode its object not
pinned, and an entry that was not reserved has flags that release nothing. -/
def undisturbed (s : FenceClients) (a : ClientEvent × (ℕ → Outcome)) : Bool :=
  match a.1 with
  | .call (.relocate o) => unpinned s.fences o
  | .retile i =>
    (s.retiling[i]?).all fun c => (s.fences.bo c.obj).pinCount == 0 ||
      (c.tiling == (s.fences.bo c.obj).tiling && c.stride == (s.fences.bo c.obj).stride)
  | .unreserve o hasFence hasPin => (s.fences.bo o).gttSpace.isNone ||
    (!hasPin && (!hasFence || (s.fences.bo o).fenceReg.isNone))
  | _ => true

end FenceClients

def clientSystem (dev : FenceDev) : System FenceClients (ClientEvent × (ℕ → Outcome)) :=
  .ofStep (fun s => s.fences.Loaded ∧ s.holds = []) (FenceClients.step dev)

namespace Pinned

theorem self (h : Pinned dev tilings H w) : Pinned dev w.tilings H w :=
  { h with tiling := fun _ => rfl }

theorem of_loaded (h : w.Loaded) : Pinned dev w.tilings [] w where
  tied := .of_loaded h
  tiling _ := rfl
  pins o := (h.1 o).2.2.1
  few _ := Nat.zero_le _
  counts r := by
    rw [h.2.1 r]
    rfl
  bound := nofun
  fenced := nofun
  plain := nofun
  scanout := nofun

theorem run_unreserveObject (hb : (w.bo o).gttSpace.isSome = true) (hasFence hasPin : Bool) :
    (unreserveObject o hasFence hasPin w).2 =
      let v := if hasFence then (unpinFence o w).2 else w
      if hasPin then (unpin o v).2 else v := by
  show ((if (w.bo o).gttSpace.isSome then _ else _ : FenceM Unit) w).2 = _
  rw [if_pos hb]
  cases hasFence <;> cases hasPin <;> rfl

/-- The pin of a register is given back together with that of the object. -/
theorem unfence (h : Pinned dev tilings ({ obj := o, kind := kind, fence := some r } :: H) w) :
    Pinned dev tilings ({ obj := o } :: H)
      (w.setReg r { w.reg r with pinCount := (w.reg r).pinCount - 1 }) :=
  h.recount (by simp) (fun i hi => ⟨by simpa using Ne.symm hi, by simp⟩) nofun (fun _ => rfl) nofun

theorem giveBack (h : Pinned dev tilings H w) {i : ℕ} {x : Hold} (hx : H[i]? = some x) :
    Pinned dev tilings (others H i) (x.giveBack w).2 := by
  have hcons : Pinned dev tilings (x :: others H i) w := h.perm (perm_others hx)
  obtain ⟨o, kind, f⟩ := x
  have hb : (w.bo o).gttSpace ≠ none := hcons.bound ⟨o, kind, f⟩ List.mem_cons_self
  -- with the register's pin gone the rest is that of a plain pin
  have hplain : Pinned dev tilings ({ obj := o } :: others H i)
      (if f.isSome then (unpinFence o w).2 else w) := by
    cases f with
    | none => exact hcons.relabel nofun
    | some r =>
      have hown := (hcons.fenced ⟨o, kind, some r⟩ List.mem_cons_self r rfl).1
      rw [unpinFence_of_some hown]
      exact hcons.unfence
  cases kind with
  | plain =>
    have hf := hcons.plain ⟨o, .plain, f⟩ List.mem_cons_self rfl
    subst hf
    exact hplain.unpinObj
  | scanout =>
    cases f with
    | some r => exact hplain.unpinObj
    | none =>
      have hnone := (hcons.scanout ⟨o, .scanout, none⟩ List.mem_cons_self rfl rfl).1
      show Pinned dev tilings (others H i) (unpin o (unpinFence o w).2).2
      rw [unpinFence_of_none hnone]
      exact hplain.unpinObj
  | exec =>
    have hsome : (w.bo o).gttSpace.isSome = true := Option.isSome_iff_ne_none.mpr hb
    show Pinned dev tilings (others H i) (unreserveObject o f.isSome true w).2
    rw [run_unreserveObject hsome]
    exact hplain.unpinObj

/-- Giving back a pin disables nothing. -/
theorem reg_obj_unpinFence (w : FenceState) (o r : ℕ) :
    ((unpinFence o w).2.reg r).obj = (w.reg r).obj := by
  cases h : (w.bo o).fenceReg with
  | none => rw [unpinFence_of_none h]
  | some i =>
    rw [unpinFence_of_some h]
    by_cases hri : r = i
    · rw [hri, FenceState.setReg_reg_self]
    · rw [FenceState.setReg_reg_of_ne _ _ hri]

theorem reg_obj_giveBack (x : Hold) (w : FenceState) (r : ℕ) :
    ((x.giveBack w).2.reg r).obj = (w.reg r).obj := by
  obtain ⟨o, kind, f⟩ := x
  cases kind with
  | plain => rfl
  | scanout => exact reg_obj_unpinFence w o r
  | exec =>
    show ((unreserveObject o f.isSome true w).2.reg r).obj = _
    by_cases hb : (w.bo o).gttSpace.isSome = true
    · rw [run_unreserveObject hb]
      cases f with
      | none => rfl
      | some i => exact reg_obj_unpinFence w o r
    · show (((if (w.bo o).gttSpace.isSome then _ else _ : FenceM Unit) w).2.reg r).obj = _
      rw [if_neg hb]
      rfl

/-- Flags that release nothing leave everything as it was. -/
theorem unreserve_idle {hasFence hasPin : Bool} (h : (w.bo o).gttSpace.isNone = true ∨
    hasPin = false ∧ (hasFence = false ∨ (w.bo o).fenceReg = none)) :
    (unreserveObject o hasFence hasPin w).2 = w := by
  by_cases hb : (w.bo o).gttSpace.isSome = true
  · rw [run_unreserveObject hb]
    rcases h with h | ⟨rfl, rfl | h⟩
    · simp [Option.isNone_iff_eq_none.mp h] at hb
    · rfl
    · cases hasFence with
      | false => rfl
      | true => exact unpinFence_of_none h
  · show ((if (w.bo o).gttSpace.isSome then _ else _ : FenceM Unit) w).2 = _
    rw [if_neg hb]
    rfl

theorem setTiling_same {tiling stride : BitVec 32}
    (h : tiling = (w.bo o).tiling ∧ stride = (w.bo o).stride) :
    (Fence.setTiling dev o tiling stride w).2 = w := by
  show ((if tiling ≠ (w.bo o).tiling ∨ stride ≠ (w.bo o).stride then _ else _ : FenceM ℤ) w).2 = _
  rw [if_neg (by simp [h])]
  rfl

/-- A new mode for an object that nobody has pinned concerns no holder. -/
theorem retile (h : Pinned dev tilings H w) (ho : (w.bo o).pinCount = 0)
    (tiling stride : BitVec 32) :
    ∃ t, Pinned dev t H (Fence.setTiling dev o tiling stride w).2 ∧
      ∀ x ≠ o, t x = tilings x := by
  have hP : Kept dev fun w => Pinned dev tilings H w ∧ (w.bo o).pinCount = 0 :=
    (kept dev tilings H).and (kept_bo (A := fun b => b.pinCount = 0) (fun _ h => h)
      (fun _ _ h => h) fun _ h _ => h)
  refine hP.setTiling (J := fun w => ∃ t, Pinned dev t H w ∧ ∀ x ≠ o, t x = tilings x)
    (fun w hw => ⟨tilings, hw.1, fun _ _ => rfl⟩) (fun w hw => ⟨?_, ?_⟩) (fun w m hw _ => ?_) w ⟨h, ho⟩
  · exact hw.1.setBo (hw.1.tied.remapped false) ⟨rfl, rfl⟩ rfl fun x hx hxo =>
      absurd hxo (hw.1.unheld hw.2 x hx)
  · rw [FenceState.setBo_bo_self]
    exact hw.2
  · obtain ⟨hp, hzero⟩ := hw
    have hunheld := hp.unheld hzero
    have hother : ∀ x ≠ o, (w.setBo o (((w.bo o).remapped m).retiled tiling stride)).bo x =
        w.bo x := fun x hx => FenceState.setBo_bo_of_ne _ _ hx
    refine ⟨_, ⟨hp.tied.retiled m tiling stride, fun _ => rfl, fun x => ?_, hp.few, hp.counts,
      fun x hx => ?_, fun x hx r hr => ?_, hp.plain, fun x hx hk hr => ?_⟩, fun x hx => ?_⟩
    · by_cases hx : x = o
      · subst hx
        rw [FenceState.setBo_bo_self]
        exact hp.pins x
      · rw [hother x hx]
        exact hp.pins x
    · rw [hother _ (hunheld x hx)]
      exact hp.bound x hx
    · rw [hother _ (hunheld x hx)]
      exact hp.fenced x hx r hr
    · rw [hother _ (hunheld x hx)]
      exact hp.scanout x hx hk hr
    · rw [hother x hx]
      exact hp.tiling x

/-- One step: the counts go with the pins that are out, a pinned object keeps its tiling, and
a pin that is gone has left the registers alone. -/
theorem step {s s' : FenceClients} {a : ClientEvent × (ℕ → Outcome)}
    (h : Pinned dev s.fences.tilings s.holds s.fences) (hg : s.undisturbed a = true)
    (hs : s.step dev a = some s') :
    ∃ t, Pinned dev t s'.holds s'.fences ∧
      (∀ o, (s.fences.bo o).pinCount ≠ 0 → t o = s.fences.tilings o) ∧
      ∀ x ∈ s.holds, x ∈ s'.holds ∨
        ∀ r, (s'.fences.reg r).obj = (s.fences.reg r).obj := by
  obtain ⟨e, coming⟩ := a
  have hcoming := (kept dev s.fences.tilings s.holds).coming coming h
  unfold FenceClients.step at hs
  split at hs
  · cases hs
  cases e with
  | call op =>
    obtain rfl := Option.some.inj hs
    refine ⟨s.fences.tilings, (rules dev _).run s.holds op _ ⟨hcoming, ?_⟩, fun _ _ => rfl,
      fun x hx => .inl (List.mem_append_right _ hx)⟩
    cases op with
    | relocate o =>
      intro r hr
      have hr : (s.fences.bo o).fenceReg = some r := hr
      simpa [FenceClients.undisturbed, FenceClients.unpinned, hr] using hg
    | _ => trivial
  | giveBack i =>
    obtain ⟨x, hx, rfl⟩ := Option.map_eq_some_iff.mp hs
    exact ⟨s.fences.tilings, hcoming.giveBack hx, fun _ _ => rfl,
      fun y _ => .inr fun r => reg_obj_giveBack x _ r⟩
  | setTiling o tiling stride =>
    simp only at hs
    split at hs <;> obtain rfl := Option.some.inj hs
    · exact ⟨_, h, fun _ _ => rfl, fun x hx => .inl hx⟩
    · exact ⟨_, h, fun _ _ => rfl, fun x hx => .inl hx⟩
  | retile i =>
    obtain ⟨c, hc, rfl⟩ := Option.map_eq_some_iff.mp hs
    simp only [FenceClients.undisturbed, hc, Option.all_some, Bool.or_eq_true, Bool.and_eq_true,
      beq_iff_eq] at hg
    rcases hg with hzero | hsame
    · obtain ⟨t, ht, hother⟩ := hcoming.retile (o := c.obj) hzero c.tiling c.stride
      refine ⟨t, ht, fun o ho => hother o ?_, fun x hx => .inl hx⟩
      rintro rfl
      exact ho hzero
    · refine ⟨s.fences.tilings, ?_, fun _ _ => rfl, fun x hx => .inl hx⟩
      show Pinned dev _ s.holds (Fence.setTiling dev c.obj c.tiling c.stride _).2
      rw [setTiling_same (w := { s.fences with coming := coming }) hsame]
      exact hcoming
  | unreserve o hasFence hasPin =>
    obtain rfl := Option.some.inj hs
    refine ⟨s.fences.tilings, ?_, fun _ _ => rfl, fun x hx => .inl hx⟩
    show Pinned dev _ s.holds (unreserveObject o hasFence hasPin _).2
    rw [unreserve_idle (w := { s.fences with coming := coming })
      (by simpa [FenceClients.undisturbed] using hg)]
    exact hcoming

theorem of_reach {s : FenceClients}
    (h : ReachWhile (clientSystem dev) (fun s a => s.undisturbed a = true) s) :
    Pinned dev s.fences.tilings s.holds s.fences := by
  refine h.invariant (I := fun s => Pinned dev s.fences.tilings s.holds s.fences)
    (fun s hs => ?_) fun s a s' hI hg hs => ?_
  · rw [hs.2]
    exact of_loaded hs.1
  · obtain ⟨t, ht, -⟩ := hI.step hg hs
    exact ht.self

end Pinned

/-- A pinned object keeps its tiling, a pinned register its object and stays enabled, and the
count of a register is that of the pins that are out: zero when the last is given back. -/
def PinsProtect (s s' : FenceClients) : Prop :=
  (∀ o, (s.fences.bo o).pinCount ≠ 0 →
    (s'.fences.bo o).tilingMode = (s.fences.bo o).tilingMode ∧
      (s'.fences.bo o).stride = (s.fences.bo o).stride) ∧
  (∀ r, (s.fences.reg r).pinCount ≠ 0 → (s'.fences.reg r).obj = (s.fences.reg r).obj ∧
    fenceValid (s'.fences.reg r).written = true) ∧
  ∀ r, (s'.fences.reg r).pinCount = regPins s'.holds r

/-- Every step of an undisturbed run leaves pinned objects and registers alone. -/
theorem fence_pins_protect (dev : FenceDev) (s s' : FenceClients)
    (a : ClientEvent × (ℕ → Outcome))
    (h : ReachWhile (clientSystem dev) (fun s a => s.undisturbed a = true) s)
    (hg : s.undisturbed a = true) (hs : (clientSystem dev).step s a s') : PinsProtect s s' := by
  have hI := Pinned.of_reach h
  obtain ⟨t, ht, htiling, hkeep⟩ := hI.step hg hs
  refine ⟨fun o ho => Prod.mk.inj ((ht.tiling o).trans (htiling o ho)), fun r hr => ?_, ht.counts⟩
  have hpinned : ∃ x ∈ s.holds, x.fence = some r := by
    by_contra hnone
    push Not at hnone
    exact hr (by rw [hI.counts, regPins_eq_zero.mpr hnone]; rfl)
  obtain ⟨x, hx, hxr⟩ := hpinned
  have hobj : (s.fences.reg r).obj = some x.obj :=
    (hI.tied.owner _ r).mp (hI.fenced x hx r hxr).1
  have hobj' : (s'.fences.reg r).obj = some x.obj := by
    rcases hkeep x hx with hx' | hsame
    · exact (ht.tied.owner _ r).mp (ht.fenced x hx' r hxr).1
    · exact (hsame r).trans hobj
  exact ⟨hobj'.trans hobj.symm, (ht.tied.enabled r).mpr (by simp [hobj'])⟩

/-- A buffer that the client has made tiled is put on the display. -/
def scanoutRun : List (ClientEvent × (ℕ → Outcome)) :=
  [(.setTiling 0 tilingX 512, fun _ => {}), (.retile 0, fun _ => {}),
    (.call (.display 0 1),
      fun i => if i = 2 then { node := some ⟨0x100000, 0x10000⟩ } else {})]

theorem fence_pins_protect_scanout : ∃ s s' : FenceClients,
    s.holds = [⟨0, .scanout, some 0⟩] ∧ PinsProtect s s' ∧ s'.holds = [] := by
  obtain ⟨s, hs, hp⟩ : ∃ s : FenceClients, ReachWhile (clientSystem gen4Dev)
      (fun s a => s.undisturbed a = true) s ∧ (s.holds == [⟨0, .scanout, some 0⟩] &&
        (s.step gen4Dev (.giveBack 0, fun _ => {})).any fun s' => s'.holds == []) = true :=
    ReachWhile.of_exec_any (l := scanoutRun)
      (s := { fences := loadedFences 0x10000 }) (.init ⟨loadedFences_loaded 0x10000, rfl⟩)
      (by decide +kernel)
  simp only [Bool.and_eq_true, beq_iff_eq] at hp
  obtain ⟨s', hs', hempty⟩ := Option.any_eq_true _ _ |>.mp hp.2
  exact ⟨s, s', hp.1, fence_pins_protect gen4Dev s s' _ hs rfl hs', by simpa using hempty⟩

/-- An execbuffer call with a relocation in a buffer that is on the display takes the fence
away from under the display. -/
theorem relocation_drops_pinned_fence : ¬ ∀ (dev : FenceDev) (s s' : FenceClients)
    (a : ClientEvent × (ℕ → Outcome)), Reach (clientSystem dev) s →
      (clientSystem dev).step s a s' → PinsProtect s s' := by
  intro h
  obtain ⟨s, hs, hp⟩ : ∃ s : FenceClients, ReachWhile (clientSystem gen4Dev)
      (fun _ _ => true = true) s ∧ ((s.fences.reg 0).pinCount == 1 &&
        (s.step gen4Dev (.call (.relocate 0), fun _ => {})).any fun s' =>
          fenceValid (s'.fences.reg 0).written == false) = true :=
    ReachWhile.of_exec_any (l := scanoutRun)
      (s := { fences := loadedFences 0x10000 }) (.init ⟨loadedFences_loaded 0x10000, rfl⟩)
      (by decide +kernel)
  simp only [Bool.and_eq_true, beq_iff_eq] at hp
  obtain ⟨s', hs', hoff⟩ := Option.any_eq_true _ _ |>.mp hp.2
  have hkept := (h gen4Dev s s' _ hs.reach hs').2.1 0 (by rw [hp.1]; decide)
  simp [hkept.2] at hoff

end GfxDrm.Fence
