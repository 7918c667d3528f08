import GfxDrm.DrmMm.LaidOut
import GfxDrm.Gtt.Defs

/-! Setting up the range manager of the global GTT (i915_gem_setup_global_gtt,
i915_gem_init_global_gtt). -/

namespace GfxDrm.Gtt

open Circular

/-- An object whose place in the GTT was fixed before there was a range manager
(i915_gem_object_create_stolen_for_preallocated). -/
structure Preallocated where
  gttOffset : ℕ
  size : ℕ
  size_pos : 0 < size
  gttOffset_lt : gttOffset < 2 ^ 32
  size_lt : size < 2 ^ 32

/-- The device at that time; gen6_gmch_probe finds a GTT of whole GiB. -/
structure SetupDev extends GttDev where
  /-- The module parameter i915_enable_ppgtt. -/
  enablePpgtt : ℤ
  gen6_total : 6 ≤ gen → 2 ^ 30 ≤ total

structure GlobalGtt where
  mm : DrmMm
  /-- How many spare nodes the manager keeps. -/
  numUnused : ℕ := 0
  /-- `gtt.start` and `gtt.total`. -/
  start : ℕ
  total : ℕ
  /-- The `gtt_space` of the preallocated objects. -/
  gttSpace : List (Option NodeRef)
  aliasingPpgtt : Bool := false

/-- I915_PPGTT_PD_ENTRIES * PAGE_SIZE. -/
def ppgttPdeSpace : ℕ := 512 * pageSize

/-- The loop over the preallocated objects; the node of the n-th is `block n`. -/
def reservePreallocated : ℕ → List Preallocated → DrmMm → List (Option NodeRef) × DrmMm
  | _, [], mm => ([], mm)
  | n, obj :: l, mm =>
    let r := drmMmCreateBlock mm (some (.block n)) obj.gttOffset obj.size
    let rest := reservePreallocated (n + 1) l r.2
    (r.1 :: rest.1, rest.2)

/-- The range manager as it is before objects are reserved in it. -/
def emptyGttSpace (dev : GttDev) (start size : ℕ) : DrmMm :=
  { drmMmInit start size with
    colorAdjust := if dev.hasLlc then none else some i915GttColorAdjust }

/-- i915_gem_setup_global_gtt. -/
def i915GemSetupGlobalGtt (dev : GttDev) (prealloc : List Preallocated) (start stop : ℕ) :
    GlobalGtt :=
  let total := Word.sub 64 stop start
  let r := reservePreallocated 0 prealloc (emptyGttSpace dev start (Word.sub 64 total pageSize))
  { mm := r.2, start, total, gttSpace := r.1 }

/-- drm_mm_takedown: only spare nodes are freed, and only of a manager without blocks. -/
def drmMmTakedown (g : GlobalGtt) : GlobalGtt :=
  if g.mm.nodeList = [.head] then { g with numUnused := 0 } else g

def intelEnablePpgtt (dev : SetupDev) : Bool :=
  if 0 ≤ dev.enablePpgtt then dev.enablePpgtt ≠ 0
  else if dev.gen = 6 then false else true

/-- HAS_ALIASING_PPGTT. -/
def hasAliasingPpgtt (dev : GttDev) : Bool := 6 ≤ dev.gen && !dev.isValleyview

def usesPpgtt (dev : SetupDev) : Bool := intelEnablePpgtt dev && hasAliasingPpgtt dev.toGttDev

/-- i915_gem_init_global_gtt; `scratch` is what i915_setup_scratch_page returns and `ppgtt` what
i915_gem_init_aliasing_ppgtt does. -/
def i915GemInitGlobalGtt (dev : SetupDev) (prealloc : List Preallocated) (scratch ppgtt : ℤ) :
    ℤ × GlobalGtt :=
  let gttSize :=
    if usesPpgtt dev = true ∧ dev.gen ≤ 7 then Word.sub 64 dev.total ppgttPdeSpace else dev.total
  let g := i915GemSetupGlobalGtt dev.toGttDev prealloc 0 gttSize
  if scratch ≠ 0 then (scratch, g)
  else if usesPpgtt dev then
    if ppgtt = 0 then (0, { g with aliasingPpgtt := true })
    -- `gtt_size` grows again, and is not used
    else (0, drmMmTakedown g)
  else (0, g)

/-- The aperture that is left beside the page directories of an aliasing PPGTT. -/
def usableAperture (dev : GttDev) (aliasingPpgtt : Bool) : ℕ :=
  if aliasingPpgtt = true ∧ dev.gen ≤ 7 then dev.total - ppgttPdeSpace else dev.total

/-- The manager has all of the usable aperture but the guard page, with every preallocated object
in its place. -/
structure GlobalGtt.Ready (dev : GttDev) (prealloc : List Preallocated) (g : GlobalGtt) :
    Prop where
  laidOut : LaidOut 0 (usableAperture dev g.aliasingPpgtt - pageSize) g.mm
  start : g.start = 0
  total : g.total = usableAperture dev g.aliasingPpgtt
  reserved : ∀ (k : ℕ) (obj : Preallocated), prealloc[k]? = some obj → ∃ n, g.gttSpace[k]? = some (some (NodeRef.block n)) ∧
    (g.mm.node (.block n)).allocated = true ∧
    (g.mm.node (.block n)).start = obj.gttOffset ∧ (g.mm.node (.block n)).size = obj.size

/-- The preallocated ranges lie inside and apart. -/
def Reservable (size : ℕ) (prealloc : List Preallocated) : Prop :=
  (∀ obj ∈ prealloc, obj.gttOffset + obj.size ≤ size) ∧
    prealloc.Pairwise fun (a b : Preallocated) =>
      a.gttOffset + a.size ≤ b.gttOffset ∨ b.gttOffset + b.size ≤ a.gttOffset

/-! ### Reserving -/

section

variable {mm : DrmMm} {lo hi n : ℕ}

/-- A range that meets no block lies in a hole, and is reserved. -/
theorem createBlock_free (h : DrmMm.Inv lo hi mm) {start size : ℕ} (hlo : lo ≤ start)
    (hhi : start + size ≤ hi)
    (hfree : ∀ m, (mm.node (.block m)).allocated = true →
      (mm.node (.block m)).start + (mm.node (.block m)).size ≤ start ∨
        start + size ≤ (mm.node (.block m)).start) (hsize : 0 < size) :
    (drmMmCreateBlock mm (some (.block n)) start size).1 = some (.block n) := by
  have hlt := h.hi_lt
  have hstop : Word.add 64 start size = start + size := Word.add_of_lt (by omega)
  obtain ⟨l, hl⟩ := h.head_first
  have hn := h.nodup
  have ho := h.ordered
  rw [hl] at hn ho
  have hfin : ∀ a ∈ l, drmMmHoleNodeStart mm a ≤ start ∨ start + size ≤ mm.nodeStart a := by
    intro a ha
    cases a with
    | head => exact absurd ha (List.nodup_cons.mp hn).1
    | block m =>
      have hm : NodeRef.block m ∈ mm.nodeList := hl ▸ List.mem_cons_of_mem _ ha
      rw [h.block_end hm]
      exact hfree m ((h.allocated m).mpr hm)
  obtain ⟨a, ha, hle, hge⟩ := ho.exists_gap hn (h.head_end.trans_le hlo)
    (hhi.trans_eq h.head_start.symm) hfin
  have hmem : a ∈ mm.nodeList := hl ▸ ha
  have hge' : start + size ≤ drmMmHoleNodeEnd mm a := by
    unfold drmMmHoleNodeEnd DrmMm.nextNode
    rw [hl]
    exact hge
  have hhole : a ∈ mm.holeStack :=
    (h.mem_stack a).mpr ⟨hmem, (h.hole_follows a hmem).mpr (by omega)⟩
  unfold drmMmCreateBlock
  dsimp only
  rw [hstop]
  split
  · rename_i hnone
    have hno := List.find?_eq_none.mp hnone a hhole
    rw [decide_eq_true_eq] at hno
    exact absurd ⟨hle, hge'⟩ hno
  · rfl

theorem createBlock_keeps {m start size : ℕ} (hm : m ≠ n) :
    ((drmMmCreateBlock mm (some (.block n)) start size).2.node (.block m)).start =
        (mm.node (.block m)).start ∧
      ((drmMmCreateBlock mm (some (.block n)) start size).2.node (.block m)).size =
        (mm.node (.block m)).size ∧
      ((drmMmCreateBlock mm (some (.block n)) start size).2.node (.block m)).allocated =
        (mm.node (.block m)).allocated := by
  rcases DrmMm.createBlock_cases mm (some n) start size with heq | ⟨r, -, k, hk, -, -, heq⟩
  · rw [Option.map_some] at heq
    rw [heq]
    exact ⟨rfl, rfl, rfl⟩
  · obtain rfl : n = k := by simpa using hk
    rw [Option.map_some] at heq
    rw [heq]
    exact DrmMm.linkNode_start_size (by simpa using hm)

/-- A block that is made has the range that was asked for. -/
theorem createBlock_made (h : DrmMm.Shape mm) {start size : ℕ} {x : NodeRef}
    (hnew : (mm.node (.block n)).allocated = false)
    (hmade : (drmMmCreateBlock mm (some (.block n)) start size).1 = some x) :
    x = .block n ∧
      ((drmMmCreateBlock mm (some (.block n)) start size).2.node (.block n)).allocated = true ∧
      ((drmMmCreateBlock mm (some (.block n)) start size).2.node (.block n)).start = start ∧
      ((drmMmCreateBlock mm (some (.block n)) start size).2.node (.block n)).size = size := by
  unfold drmMmCreateBlock at hmade ⊢
  dsimp only at hmade ⊢
  split at hmade
  · exact absurd hmade (by simp)
  · rename_i r hr
    have hmem : r ∈ mm.nodeList := ((h.mem_stack r).mp (List.mem_of_find?_eq_some hr)).1
    have hne : NodeRef.block n ≠ r := by
      rintro rfl
      rw [(h.allocated n).mpr hmem] at hnew
      exact Bool.noConfusion hnew
    rw [DrmMm.linkNode_new hne]
    exact ⟨(Option.some.inj hmade).symm, rfl, rfl, rfl⟩

/-- Blocks made before are left alone. -/
theorem reservePreallocated_keeps (l : List Preallocated) :
    ∀ (n : ℕ) (mm : DrmMm) (m : ℕ), m < n →
      ((reservePreallocated n l mm).2.node (.block m)).start = (mm.node (.block m)).start ∧
      ((reservePreallocated n l mm).2.node (.block m)).size = (mm.node (.block m)).size ∧
      ((reservePreallocated n l mm).2.node (.block m)).allocated =
        (mm.node (.block m)).allocated := by
  induction l with
  | nil => exact fun n mm m _ => ⟨rfl, rfl, rfl⟩
  | cons obj l ih =>
    intro n mm m hm
    obtain ⟨hstart, hsize, halloc⟩ := ih (n + 1)
      (drmMmCreateBlock mm (some (.block n)) obj.gttOffset obj.size).2 m (by omega)
    obtain ⟨hstart', hsize', halloc'⟩ :=
      @createBlock_keeps mm n m obj.gttOffset obj.size (by omega)
    exact ⟨hstart.trans hstart', hsize.trans hsize', halloc.trans halloc'⟩

/-- No node from `n` on is in use. -/
def Fresh (n : ℕ) (mm : DrmMm) : Prop := ∀ m, n ≤ m → (mm.node (.block m)).allocated = false

theorem Fresh.createBlock (h : Fresh n mm) (start size : ℕ) :
    Fresh (n + 1) (drmMmCreateBlock mm (some (.block n)) start size).2 := fun m hm =>
  (createBlock_keeps (by omega)).2.2.trans (h m (by omega))

theorem createBlock_object (h : DrmMm.Inv lo hi mm) (hf : Fresh n mm) (obj : Preallocated) :
    DrmMm.Inv lo hi (drmMmCreateBlock mm (some (.block n)) obj.gttOffset obj.size).2 := by
  have hoff := obj.gttOffset_lt
  have hlt := obj.size_lt
  refine @DrmMm.createBlock_inv _ _ _ _ _ h (some n) ⟨obj.size_pos, by omega, ?_⟩
  intro m hm
  obtain rfl : n = m := by simpa using hm
  exact hf n le_rfl

theorem reservePreallocated_inv (l : List Preallocated) :
    ∀ (n : ℕ) (mm : DrmMm), DrmMm.Inv lo hi mm → Fresh n mm →
      DrmMm.Inv lo hi (reservePreallocated n l mm).2 := by
  induction l with
  | nil => exact fun n mm h _ => h
  | cons obj l ih =>
    exact fun n mm h hf => ih (n + 1) _ (createBlock_object h hf obj) (hf.createBlock _ _)

/-- The k-th object has node `n + k`, with its own range, or none. -/
theorem reservePreallocated_made (l : List Preallocated) :
    ∀ (n : ℕ) (mm : DrmMm), DrmMm.Inv lo hi mm → Fresh n mm →
      ∀ (k : ℕ) (obj : Preallocated) (x : NodeRef), l[k]? = some obj →
        (reservePreallocated n l mm).1[k]? = some (some x) →
        x = .block (n + k) ∧
          ((reservePreallocated n l mm).2.node (.block (n + k))).allocated = true ∧
          ((reservePreallocated n l mm).2.node (.block (n + k))).start = obj.gttOffset ∧
          ((reservePreallocated n l mm).2.node (.block (n + k))).size = obj.size := by
  induction l with
  | nil =>
    intro n mm _ _ k obj x hk
    exact absurd hk (by simp)
  | cons first l ih =>
    intro n mm h hf k obj x hk hx
    cases k with
    | zero =>
      obtain rfl : first = obj := by simpa using hk
      have hmade : (drmMmCreateBlock mm (some (.block n)) first.gttOffset first.size).1 =
          some x := by simpa [reservePreallocated] using hx
      obtain ⟨hname, halloc, hstart, hsize⟩ :=
        createBlock_made h.toShape (hf n le_rfl) hmade
      obtain ⟨kstart, ksize, kalloc⟩ := reservePreallocated_keeps l (n + 1)
        (drmMmCreateBlock mm (some (.block n)) first.gttOffset first.size).2 n (by omega)
      exact ⟨hname, kalloc.trans halloc, kstart.trans hstart, ksize.trans hsize⟩
    | succ k =>
      rw [Nat.add_succ, Nat.succ_eq_add_one, Nat.add_right_comm]
      exact ih (n + 1) _ (createBlock_object h hf first) (hf.createBlock _ _) k obj x
        (by simpa using hk) (by simpa [reservePreallocated] using hx)

/-- Ranges that are free and apart are all reserved. -/
theorem reservePreallocated_all (l : List Preallocated) :
    ∀ (n : ℕ) (mm : DrmMm), DrmMm.Inv 0 hi mm → Fresh n mm → Reservable hi l →
      (∀ obj ∈ l, ∀ m, (mm.node (.block m)).allocated = true →
        (mm.node (.block m)).start + (mm.node (.block m)).size ≤ obj.gttOffset ∨
          obj.gttOffset + obj.size ≤ (mm.node (.block m)).start) →
      ∀ k < l.length, (reservePreallocated n l mm).1[k]? = some (some (.block (n + k))) := by
  induction l with
  | nil => exact fun n mm _ _ _ _ k hk => absurd hk (Nat.not_lt_zero k)
  | cons first l ih =>
    rintro n mm h hf ⟨hin, hapart⟩ hfree k hk
    obtain ⟨hfirst, hrest⟩ := List.pairwise_cons.mp hapart
    have hsome := @createBlock_free mm 0 hi n h _ _ (Nat.zero_le first.gttOffset)
      (hin first List.mem_cons_self) (hfree first List.mem_cons_self) first.size_pos
    cases k with
    | zero => simpa [reservePreallocated] using hsome
    | succ k =>
      have hnext := ih (n + 1) _ (createBlock_object h hf first) (hf.createBlock _ _)
        ⟨fun obj hobj => hin obj (List.mem_cons_of_mem _ hobj), hrest⟩ ?_ k
        (by simpa using hk)
      · rw [Nat.add_right_comm, Nat.add_assoc] at hnext
        simpa [reservePreallocated] using hnext
      intro obj hobj m hm
      by_cases hmn : m = n
      · -- the block just made is that of the first object
        subst hmn
        obtain ⟨-, -, hstart, hsize⟩ := createBlock_made h.toShape (hf m le_rfl) hsome
        rw [hstart, hsize]
        exact hfirst obj hobj
      · obtain ⟨hstart, hsize, halloc⟩ := @createBlock_keeps mm n m first.gttOffset
          first.size hmn
        rw [hstart, hsize]
        exact hfree obj (List.mem_cons_of_mem _ hobj) m (halloc ▸ hm)

end

/-! ### The manager the driver starts with -/

section

variable {dev : GttDev} {prealloc : List Preallocated} {stop : ℕ}

theorem laidOut_of_inv {size : ℕ} {mm : DrmMm} (h : DrmMm.Inv 0 size mm) : LaidOut 0 size mm :=
  DrmMm.Inv.laidOut (by rwa [Nat.zero_add])

theorem emptyGttSpace_inv (hlt : pageSize < stop) (hle : stop ≤ 2 ^ 31) :
    DrmMm.Inv 0 (stop - pageSize) (emptyGttSpace dev 0 (stop - pageSize)) := by
  have h := @DrmMm.init_inv 0 (stop - pageSize) (by omega) (by omega)
    (if dev.hasLlc then none else some i915GttColorAdjust)
  rwa [Nat.zero_add] at h

theorem emptyGttSpace_fresh (size : ℕ) : Fresh 0 (emptyGttSpace dev 0 size) := fun _ _ => rfl

theorem setupGlobalGtt_eq (hlt : pageSize < stop) (hle : stop ≤ 2 ^ 31) :
    i915GemSetupGlobalGtt dev prealloc 0 stop =
      { mm := (reservePreallocated 0 prealloc (emptyGttSpace dev 0 (stop - pageSize))).2
        start := 0
        total := stop
        gttSpace := (reservePreallocated 0 prealloc (emptyGttSpace dev 0 (stop - pageSize))).1 } := by
  have htotal : Word.sub 64 stop 0 = stop := Word.sub_of_le (Nat.zero_le stop) (by omega)
  have hsize : Word.sub 64 stop pageSize = stop - pageSize := Word.sub_of_le hlt.le (by omega)
  unfold i915GemSetupGlobalGtt
  dsimp only
  rw [htotal, hsize]

/-- The manager is laid out, and has every object in place just when they all have room. -/
theorem setupGlobalGtt_reserved_iff (hlt : pageSize < stop) (hle : stop ≤ 2 ^ 31) :
    (∀ (k : ℕ) (obj : Preallocated), prealloc[k]? = some obj →
      ∃ n, (i915GemSetupGlobalGtt dev prealloc 0 stop).gttSpace[k]? = some (some (NodeRef.block n)) ∧
        ((i915GemSetupGlobalGtt dev prealloc 0 stop).mm.node (.block n)).allocated = true ∧
        ((i915GemSetupGlobalGtt dev prealloc 0 stop).mm.node (.block n)).start = obj.gttOffset ∧
        ((i915GemSetupGlobalGtt dev prealloc 0 stop).mm.node (.block n)).size = obj.size) ↔
      Reservable (stop - pageSize) prealloc := by
  have hinv : DrmMm.Inv 0 (stop - pageSize) (emptyGttSpace dev 0 (stop - pageSize)) :=
    emptyGttSpace_inv hlt hle
  have hfresh : Fresh 0 (emptyGttSpace dev 0 (stop - pageSize)) := emptyGttSpace_fresh _
  have hmade := reservePreallocated_made prealloc 0 _ hinv hfresh
  have hdone := reservePreallocated_inv prealloc 0 _ hinv hfresh
  rw [setupGlobalGtt_eq hlt hle]
  constructor
  · intro hres
    have hplace : ∀ (k : ℕ) (obj : Preallocated), prealloc[k]? = some obj →
        ((reservePreallocated 0 prealloc (emptyGttSpace dev 0 (stop - pageSize))).2.node
            (.block k)).allocated = true ∧
          ((reservePreallocated 0 prealloc (emptyGttSpace dev 0 (stop - pageSize))).2.node
            (.block k)).start = obj.gttOffset ∧
          ((reservePreallocated 0 prealloc (emptyGttSpace dev 0 (stop - pageSize))).2.node
            (.block k)).size = obj.size := by
      intro k obj hk
      obtain ⟨n, hn, -⟩ := hres k obj hk
      have hobj := (hmade k obj _ hk hn).2
      rwa [Nat.zero_add] at hobj
    have hlaid := laidOut_of_inv hdone
    refine ⟨?_, ?_⟩
    · intro obj hobj
      obtain ⟨k, hk⟩ := List.mem_iff_getElem?.mp hobj
      obtain ⟨halloc, hstart, hsize⟩ := hplace k obj hk
      have hend := (hlaid.inside k halloc).2
      rw [hstart, hsize, Nat.zero_add] at hend
      exact hend
    · rw [List.pairwise_iff_getElem]
      intro j k hj hk hjk
      obtain ⟨jalloc, jstart, jsize⟩ := hplace j _ (List.getElem?_eq_getElem hj)
      obtain ⟨kalloc, kstart, ksize⟩ := hplace k _ (List.getElem?_eq_getElem hk)
      have hapart := hlaid.disjoint j k jalloc kalloc hjk.ne
      rwa [jstart, jsize, kstart, ksize] at hapart
  · intro hres k obj hk
    have hall := reservePreallocated_all prealloc 0 _ hinv hfresh hres
      (fun _ _ m hm => absurd (hfresh m (Nat.zero_le m)) (by rw [hm]; simp)) k
      (List.getElem?_eq_some_iff.mp hk).1
    exact ⟨0 + k, hall, (hmade k obj _ hk hall).2⟩

theorem setupGlobalGtt_laidOut (hlt : pageSize < stop) (hle : stop ≤ 2 ^ 31) :
    LaidOut 0 (stop - pageSize) (i915GemSetupGlobalGtt dev prealloc 0 stop).mm := by
  rw [setupGlobalGtt_eq hlt hle]
  exact laidOut_of_inv (reservePreallocated_inv prealloc 0 _
    (emptyGttSpace_inv hlt hle) (emptyGttSpace_fresh _))

end

/-- The aperture the manager is set up over. -/
def managedAperture (dev : SetupDev) : ℕ := usableAperture dev.toGttDev (usesPpgtt dev)

theorem managedAperture_bounds (dev : SetupDev) :
    pageSize < managedAperture dev ∧ managedAperture dev ≤ 2 ^ 31 := by
  have hlt := dev.page_lt_total
  have hle := dev.total_le
  unfold managedAperture usableAperture
  split
  · rename_i h
    have hgen : 6 ≤ dev.gen := by
      have huse := h.1
      simp only [usesPpgtt, hasAliasingPpgtt, Bool.and_eq_true, decide_eq_true_eq] at huse
      exact huse.2.1
    have htotal := dev.gen6_total hgen
    unfold ppgttPdeSpace pageSize
    omega
  · exact ⟨hlt, hle⟩

/-- A successful start leaves the manager of the aperture that an aliasing PPGTT would leave,
torn down or not. -/
theorem initGlobalGtt_ok {dev : SetupDev} {prealloc : List Preallocated} {scratch ppgtt : ℤ}
    {g : GlobalGtt} (h : i915GemInitGlobalGtt dev prealloc scratch ppgtt = (0, g)) :
    g.mm = (i915GemSetupGlobalGtt dev.toGttDev prealloc 0 (managedAperture dev)).mm ∧
      g.gttSpace = (i915GemSetupGlobalGtt dev.toGttDev prealloc 0 (managedAperture dev)).gttSpace ∧
      g.start = 0 ∧ g.total = managedAperture dev ∧
      (g.aliasingPpgtt = true ↔ usesPpgtt dev = true ∧ ppgtt = 0) := by
  obtain ⟨hlt, hle⟩ := managedAperture_bounds dev
  have hsize : (if usesPpgtt dev = true ∧ dev.gen ≤ 7 then Word.sub 64 dev.total ppgttPdeSpace
      else dev.total) = managedAperture dev := by
    unfold managedAperture usableAperture at hlt ⊢
    split at hlt
    · rename_i hpd
      have htotal := dev.total_le
      rw [if_pos hpd, if_pos hpd]
      exact Word.sub_of_le (by omega) (by omega)
    · rename_i hpd
      rw [if_neg hpd, if_neg hpd]
  have hset := @setupGlobalGtt_eq dev.toGttDev prealloc _ hlt hle
  unfold i915GemInitGlobalGtt at h
  rw [hsize] at h
  split at h
  · rename_i hscratch
    exact absurd (Prod.mk.inj h).1 hscratch
  split at h
  · rename_i huse
    split at h
    · rename_i hok
      obtain rfl := (Prod.mk.inj h).2
      simp [huse, hok, hset]
    · rename_i hfail
      obtain rfl := (Prod.mk.inj h).2
      unfold drmMmTakedown
      split
      · simp [hfail, hset]
      · simp [hfail, hset]
  · rename_i huse
    obtain rfl := (Prod.mk.inj h).2
    simp [huse, hset]

/-- Failing to set up an aliasing PPGTT leaves its directories' space out of the manager. -/
theorem initGlobalGtt_ready_iff (dev : SetupDev) (prealloc : List Preallocated)
    (scratch ppgtt : ℤ) (g : GlobalGtt)
    (h : i915GemInitGlobalGtt dev prealloc scratch ppgtt = (0, g)) :
    g.Ready dev.toGttDev prealloc ↔
      (usesPpgtt dev = true ∧ dev.gen ≤ 7 → ppgtt = 0) ∧
        Reservable (usableAperture dev.toGttDev (usesPpgtt dev) - pageSize) prealloc := by
  obtain ⟨hlt, hle⟩ := managedAperture_bounds dev
  obtain ⟨hmm, hspace, hstart, htotal, hpp⟩ := initGlobalGtt_ok h
  have hres := @setupGlobalGtt_reserved_iff dev.toGttDev prealloc _ hlt hle
  have hlaid := @setupGlobalGtt_laidOut dev.toGttDev prealloc _ hlt hle
  rw [← hmm, ← hspace] at hres
  rw [← hmm] at hlaid
  have husable : usableAperture dev.toGttDev g.aliasingPpgtt = managedAperture dev ↔
      (usesPpgtt dev = true ∧ dev.gen ≤ 7 → ppgtt = 0) := by
    have hbelow := managedAperture_bounds dev
    unfold managedAperture usableAperture at hbelow ⊢
    by_cases huse : usesPpgtt dev = true ∧ dev.gen ≤ 7
    · rw [if_pos huse] at hbelow ⊢
      by_cases hok : ppgtt = 0
      · rw [if_pos ⟨hpp.mpr ⟨huse.1, hok⟩, huse.2⟩]
        exact ⟨fun _ _ => hok, fun _ => rfl⟩
      · rw [if_neg fun hg => hok (hpp.mp hg.1).2]
        refine ⟨fun heq => ?_, fun himp => absurd (himp huse) hok⟩
        unfold ppgttPdeSpace pageSize at heq hbelow
        omega
    · rw [if_neg huse, if_neg fun hg => huse ⟨(hpp.mp hg.1).1, hg.2⟩]
      exact ⟨fun _ hu => absurd hu huse, fun _ => rfl⟩
  constructor
  · intro hready
    exact ⟨husable.mp (hready.total.symm.trans htotal), hres.mp hready.reserved⟩
  · rintro ⟨hgood, hroom⟩
    exact
      { laidOut := husable.mpr hgood ▸ hlaid
        start := hstart
        total := htotal.trans (husable.mpr hgood).symm
        reserved := hres.mpr hroom }

/-- An Ivybridge with 2 GiB of GTT. -/
def ivybridge : SetupDev where
  gen := 7
  mappableEnd := 2 ^ 28
  total := 2 ^ 31
  aperPages := 2 ^ 16
  scratchPfn := 0x1234
  page_le_mappableEnd := by decide
  mappableEnd_le := by decide
  page_lt_total := by decide
  total_le := by decide
  enablePpgtt := -1
  gen6_total := by decide

/-- The firmware's framebuffer, at the start of the GTT. -/
def firmwareFb : Preallocated where
  gttOffset := 0
  size := 0x300000
  size_pos := by decide
  gttOffset_lt := by decide
  size_lt := by decide

theorem initGlobalGtt_ready_iff_ivybridge :
    (i915GemInitGlobalGtt ivybridge [firmwareFb] 0 0).2.Ready ivybridge.toGttDev [firmwareFb] :=
  (initGlobalGtt_ready_iff ivybridge [firmwareFb] 0 0 _ rfl).mpr
    ⟨fun _ => rfl, by decide, List.pairwise_singleton _ _⟩

/-- Without page tables for the PPGTT (-ENOMEM) 2 MiB of the aperture stay unmanaged. -/
theorem initGlobalGtt_ppgtt_fails :
    ¬ ∀ (dev : SetupDev) (prealloc : List Preallocated) (scratch ppgtt : ℤ) (g : GlobalGtt),
      i915GemInitGlobalGtt dev prealloc scratch ppgtt = (0, g) → g.Ready dev.toGttDev prealloc := by
  intro h
  have hready := h ivybridge [] 0 Errno.eNomem _ rfl
  exact absurd hready.total (by decide)

end GfxDrm.Gtt
