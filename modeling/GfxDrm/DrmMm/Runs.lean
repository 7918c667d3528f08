import GfxDrm.DrmMm.Scan
import GfxDrm.Lib.Run

/-! When a hole is found, and what `check_free_hole` promises of it. -/

namespace GfxDrm
open Circular

/-- The first multiple of `alignment` from `start` on, before any wrap. -/
def roundUp (start alignment : ℕ) : ℕ := start + alignPad start alignment

theorem le_roundUp (start alignment : ℕ) : start ≤ roundUp start alignment := Nat.le_add_right _ _

theorem dvd_roundUp {start alignment : ℕ} (h : alignment ≠ 0) :
    alignment ∣ roundUp start alignment := by
  have hmod : start = alignment * (start / alignment) + start % alignment :=
    (Nat.div_add_mod _ _).symm
  have hlt : start % alignment < alignment := Nat.mod_lt _ (Nat.pos_of_ne_zero h)
  unfold roundUp alignPad
  rw [if_neg h]
  split
  · rename_i h0
    exact Nat.dvd_of_mod_eq_zero (by simpa using h0)
  · refine ⟨start / alignment + 1, ?_⟩
    rw [Nat.mul_add]
    omega

theorem roundUp_le {start alignment m : ℕ} (h : alignment ≠ 0) (hm : alignment ∣ m)
    (hle : start ≤ m) : roundUp start alignment ≤ m := by
  by_contra hlt
  have hpad : roundUp start alignment - start < alignment := by
    have := Nat.mod_lt start (Nat.pos_of_ne_zero h)
    unfold roundUp alignPad
    rw [if_neg h]
    split <;> omega
  have hd : alignment ∣ roundUp start alignment - m := Nat.dvd_sub (dvd_roundUp h) hm
  have := Nat.le_of_dvd (by omega) hd
  omega

/-- Rounding up an earlier start stops before the later start, or lands where that lands. -/
theorem roundUp_of_le {start start' : ℕ} (alignment : ℕ) (h : start' ≤ start) :
    roundUp start' alignment ≤ start ∨
      roundUp start' alignment = roundUp start alignment := by
  by_cases h0 : alignment = 0
  · left
    simpa [roundUp, alignPad, h0] using h
  · rcases Nat.lt_or_ge start (roundUp start' alignment) with hlt | hge
    · right
      exact le_antisymm (roundUp_le h0 (dvd_roundUp h0) (h.trans (le_roundUp _ _)))
        (roundUp_le h0 (dvd_roundUp h0) hlt.le)
    · exact .inl hge

section checkFreeHole
variable {start stop size alignment : ℕ}

theorem checkFreeHole_iff : checkFreeHole start stop size alignment = true ↔
    size ≤ Word.sub 64 stop start ∧
      Word.add 64 (Word.add 64 start (alignPad start alignment)) size ≤ stop := by
  unfold checkFreeHole
  split
  · rename_i h
    simp only [Bool.false_eq_true, false_iff]
    omega
  · rename_i h
    simp only [decide_eq_true_eq]
    exact ⟨fun hs => ⟨by omega, hs⟩, fun hs => hs.2⟩

theorem add_add_eq_mod (a b c : ℕ) :
    Word.add 64 (Word.add 64 a b) c = (a + b + c) % 2 ^ 64 := Nat.mod_add_mod _ _ _

/-- Without a wrap the rounded block lies in the hole. -/
theorem le_of_checkFreeHole (h : checkFreeHole start stop size alignment = true)
    (hwrap : roundUp start alignment + size < 2 ^ 64) : roundUp start alignment + size ≤ stop := by
  have hle := (checkFreeHole_iff.mp h).2
  rw [add_add_eq_mod] at hle
  change (roundUp start alignment + size) % 2 ^ 64 ≤ stop at hle
  rwa [Nat.mod_eq_of_lt hwrap] at hle

/-- A hole that covers a fitting hole fits. -/
theorem checkFreeHole_mono {start' stop' : ℕ} (hs : start' ≤ start) (hse : start ≤ stop)
    (he : stop ≤ stop') (hlt : stop' < 2 ^ 64)
    (h : checkFreeHole start stop size alignment = true) :
    checkFreeHole start' stop' size alignment = true := by
  obtain ⟨hsize, hfit⟩ := checkFreeHole_iff.mp h
  rw [Word.sub_of_le hse (he.trans_lt hlt)] at hsize
  rw [checkFreeHole_iff, Word.sub_of_le (hs.trans (hse.trans he)) hlt]
  refine ⟨by omega, ?_⟩
  rw [add_add_eq_mod] at hfit ⊢
  change (roundUp start' alignment + size) % 2 ^ 64 ≤ stop'
  rcases roundUp_of_le alignment hs with hr | hr
  · exact (Nat.mod_le _ _).trans (by omega)
  · rw [hr]
    exact hfit.trans he

end checkFreeHole

/-- A first-fit search returns a fitting member. -/
theorem searchHoles_some {mm : DrmMm} {fits : NodeRef → Bool} {l : List NodeRef} {r : NodeRef}
    {bestSize : ℕ} (h : searchHoles mm fits false l none bestSize = some r) :
    r ∈ l ∧ fits r = true := by
  induction l with
  | nil => simp [searchHoles] at h
  | cons a l ih =>
    unfold searchHoles at h
    by_cases ha : fits a = true
    · simp only [ha, Bool.not_true, Bool.false_eq_true, if_false, Bool.not_false, if_true,
        Option.some.injEq] at h
      exact ⟨h ▸ List.mem_cons_self, h ▸ ha⟩
    · simp only [ha] at h
      exact ⟨List.mem_cons_of_mem _ (ih h).1, (ih h).2⟩

/-- A first-fit search fails only when no member fits. -/
theorem searchHoles_isSome {mm : DrmMm} {fits : NodeRef → Bool} {l : List NodeRef} {r : NodeRef}
    (bestSize : ℕ) (hr : r ∈ l) (hf : fits r = true) :
    (searchHoles mm fits false l none bestSize).isSome = true := by
  induction l with
  | nil => simp at hr
  | cons a l ih =>
    unfold searchHoles
    by_cases ha : fits a = true
    · simp [ha]
    · have hl : r ∈ l := (List.mem_cons.mp hr).resolve_left fun e => ha (e ▸ hf)
      simpa [ha] using ih hl

theorem checkFreeHole_of_holeFits {mm : DrmMm} {range : Option (ℕ × ℕ)}
    {size alignment color : ℕ} {r : NodeRef} (h : holeFits mm range size alignment color r = true) :
    checkFreeHole (adjustedHole mm range color r).1 (adjustedHole mm range color r).2
      size alignment = true := by
  unfold holeFits at h
  dsimp only at h
  split at h
  · simp at h
  · exact h

/-! Runs of a range manager, and the layout every state of a run has. -/

open Run

/-- A call on the manager; `kmalloc` is the node `drm_mm_kmalloc` found, if any. -/
inductive DrmMmOp
  | createBlock (kmalloc : Option ℕ) (start size : ℕ)
  | insertNode (q : MmRequest) (n : ℕ)
  | removeNode (n : ℕ)
  | scan (q : MmRequest) (ns : List ℕ)
  deriving DecidableEq, Repr

/-- Sizes are positive words, block and range ends do not wrap. -/
def MmRequest.Ok (q : MmRequest) : Prop :=
  0 < q.size ∧ q.size < 2 ^ 64 ∧ q.alignment < 2 ^ 32 ∧
    ∀ i ∈ q.range, i.1 ≤ i.2 ∧ i.2 < 2 ^ 64

/-- What a caller has to observe. -/
def DrmMmOp.Ok (mm : DrmMm) : DrmMmOp → Prop
  | .createBlock kmalloc start size =>
    0 < size ∧ start + size < 2 ^ 64 ∧ ∀ n ∈ kmalloc, (mm.node (.block n)).allocated = false
  | .insertNode q n => q.Ok ∧ (mm.node (.block n)).allocated = false
  | .removeNode n => (mm.node (.block n)).allocated = true
  | .scan q ns => q.Ok ∧ ns.Nodup ∧ ∀ n ∈ ns, (mm.node (.block n)).allocated = true

def DrmMmOp.apply (mm : DrmMm) : DrmMmOp → DrmMm
  | .createBlock kmalloc start size =>
    (drmMmCreateBlock mm (kmalloc.map .block) start size).2
  | .insertNode q n => (q.insert mm n).2
  | .removeNode n => drmMmRemoveNode mm (.block n)
  | .scan q ns => (scanAll mm q ns).2

/-- The runs from `drm_mm_init(start, size)`; the driver may then set `color_adjust`. -/
def drmMmSystem (start size : ℕ) (adjust : Option ColorAdjust) : System DrmMm DrmMmOp where
  init mm := mm = { drmMmInit start size with colorAdjust := adjust }
  step mm op mm' := op.Ok mm ∧ mm' = op.apply mm

namespace MmRequest

/-- The hole an insertion takes. -/
def search (q : MmRequest) (mm : DrmMm) : Option NodeRef :=
  searchFreeWith mm q.range q.size q.alignment q.color false

theorem insert_eq (q : MmRequest) (mm : DrmMm) (n : ℕ) :
    q.insert mm n = match q.search mm with
      | none => (Errno.eNospc, mm)
      | some hole => (0, insertHelperWith mm q.range hole (.block n) q.size q.alignment q.color) := by
  unfold insert search
  rcases hq : q.range with _ | ⟨start, stop⟩ <;> rfl

/-- The first fitting hole leaves room for the rounded block without a wrap, and
`color_adjust` has only narrowed it. -/
def Unwrapped (q : MmRequest) (mm : DrmMm) : Prop :=
  ∀ r ∈ q.search mm,
    let i := adjustedHole mm q.range q.color r
    roundUp i.1 q.alignment + q.size < 2 ^ 64 ∧
      (mm.colorAdjust.isSome = true →
        drmMmHoleNodeStart mm r ≤ i.1 ∧ i.2 ≤ drmMmHoleNodeEnd mm r)

end MmRequest

/-- No insertion wraps around the end of the address space. -/
def DrmMmOp.Unwrapped (mm : DrmMm) : DrmMmOp → Prop
  | .insertNode q _ => q.Unwrapped mm
  | _ => True

namespace DrmMm
variable {mm mm' : DrmMm} {q : MmRequest} {n start size lo hi : ℕ} {r : NodeRef}
  {op : DrmMmOp} {adjust : Option ColorAdjust}

/-! ### One call -/

theorem mem_of_search (h : r ∈ q.search mm) :
    r ∈ mm.holeStack ∧ holeFits mm q.range q.size q.alignment q.color r = true :=
  searchHoles_some h

theorem clampRange_narrows (range : Option (ℕ × ℕ)) (s e : ℕ) :
    s ≤ (clampRange range (s, e)).1 ∧ (clampRange range (s, e)).2 ≤ e := by
  cases range with
  | none => exact ⟨le_rfl, le_rfl⟩
  | some i =>
    simp only [clampRange]
    constructor <;> split <;> omega

theorem adjustedHole_of_none (hc : mm.colorAdjust = none) (range : Option (ℕ × ℕ)) (color : ℕ)
    (r : NodeRef) : adjustedHole mm range color r =
      clampRange range (drmMmHoleNodeStart mm r, drmMmHoleNodeEnd mm r) := by
  simp only [adjustedHole, colorAdjusted, hc]

theorem adjustedHole_narrows (hu : q.Unwrapped mm) (hr : r ∈ q.search mm) :
    drmMmHoleNodeStart mm r ≤ (adjustedHole mm q.range q.color r).1 ∧
      (adjustedHole mm q.range q.color r).2 ≤ drmMmHoleNodeEnd mm r := by
  cases hc : mm.colorAdjust with
  | none =>
    rw [adjustedHole_of_none hc]
    exact clampRange_narrows q.range _ _
  | some f => exact (hu r hr).2 (by simp [hc])

theorem takesHole (h : Shape mm) (hr : r ∈ mm.holeStack)
    (hn : (mm.node (.block n)).allocated = false) : TakesHole mm r (.block n) where
  mem := ((h.mem_stack r).mp hr).1
  follows := ((h.mem_stack r).mp hr).2
  new hm := by simp [(h.allocated n).mpr hm] at hn

/-- Where the insertion puts the node. -/
theorem insert_fitsHole (h : Inv lo hi mm) (hq : q.Ok) (hu : q.Unwrapped mm)
    (hr : r ∈ q.search mm) (hn : (mm.node (.block n)).allocated = false) :
    let st := roundUp (adjustedHole mm q.range q.color r).1 q.alignment
    insertHelperWith mm q.range r (.block n) q.size q.alignment q.color =
        linkNode mm r (.block n) st q.size (some q.color)
          (decide (st + q.size < drmMmHoleNodeEnd mm r)) ∧
      FitsHole mm r (.block n) st q.size (decide (st + q.size < drmMmHoleNodeEnd mm r)) := by
  intro st
  obtain ⟨hmem, hfit⟩ := mem_of_search hr
  obtain ⟨hstart, hend⟩ := adjustedHole_narrows hu hr
  have hwrap : st + q.size < 2 ^ 64 := (hu r hr).1
  have hle : st + q.size ≤ (adjustedHole mm q.range q.color r).2 :=
    le_of_checkFreeHole (checkFreeHole_of_holeFits hfit) hwrap
  have hst : Word.add 64 (adjustedHole mm q.range q.color r).1
      (alignPad (adjustedHole mm q.range q.color r).1 q.alignment) = st :=
    Word.add_of_lt (show st < 2 ^ 64 by omega)
  constructor
  · simp only [insertHelperWith, hst, Word.add_of_lt hwrap]
  · exact
      { toTakesHole := takesHole h.toShape hmem hn
        size_pos := hq.1
        start_le := hstart.trans (le_roundUp _ _)
        le_end := hle.trans hend
        tail_iff := decide_eq_true_iff }

theorem insert_inv (h : Inv lo hi mm) (hq : q.Ok) (hu : q.Unwrapped mm)
    (hn : (mm.node (.block n)).allocated = false) : Inv lo hi (q.insert mm n).2 := by
  rw [q.insert_eq]
  cases hr : q.search mm with
  | none => exact h
  | some r =>
    obtain ⟨he, hf⟩ := insert_fitsHole h hq hu hr hn
    simp only [he]
    exact h.linkNode hf _

theorem insert_shape (h : Shape mm) (hn : (mm.node (.block n)).allocated = false) :
    Shape (q.insert mm n).2 := by
  rw [q.insert_eq]
  cases hr : q.search mm with
  | none => exact h
  | some r => exact h.linkNode (takesHole h (mem_of_search hr).1 hn) _ _ _ _

/-- What `drm_mm_create_block` may do. -/
theorem createBlock_cases (mm : DrmMm) (kmalloc : Option ℕ) (start size : ℕ) :
    (drmMmCreateBlock mm (kmalloc.map .block) start size).2 = mm ∨
      ∃ r ∈ mm.holeStack, ∃ n ∈ kmalloc, drmMmHoleNodeStart mm r ≤ start ∧
        Word.add 64 start size ≤ drmMmHoleNodeEnd mm r ∧
        (drmMmCreateBlock mm (kmalloc.map .block) start size).2 =
          linkNode mm r (.block n) start size none
            (decide (Word.add 64 start size ≠ drmMmHoleNodeEnd mm r)) := by
  unfold drmMmCreateBlock
  dsimp only
  split
  · exact .inl rfl
  · rename_i r hr
    have hfit := List.find?_some hr
    rw [decide_eq_true_eq] at hfit
    cases kmalloc with
    | none => exact .inl rfl
    | some n => exact .inr ⟨r, List.mem_of_find?_eq_some hr, n, rfl, hfit.1, hfit.2, rfl⟩

theorem createBlock_inv (h : Inv lo hi mm) {kmalloc : Option ℕ}
    (hok : (DrmMmOp.createBlock kmalloc start size).Ok mm) :
    Inv lo hi (drmMmCreateBlock mm (kmalloc.map .block) start size).2 := by
  obtain ⟨hsize, hwrap, hnew⟩ := hok
  rcases createBlock_cases mm kmalloc start size with he | ⟨r, hr, n, hn, hs, ht, he⟩
  · rwa [he]
  · rw [Word.add_of_lt hwrap] at ht he
    rw [he]
    refine h.linkNode ?_ _
    exact
      { toTakesHole := takesHole h.toShape hr (hnew n hn)
        size_pos := hsize
        start_le := hs
        le_end := ht
        tail_iff := by rw [decide_eq_true_eq]; omega }

theorem createBlock_shape (h : Shape mm) {kmalloc : Option ℕ}
    (hok : (DrmMmOp.createBlock kmalloc start size).Ok mm) :
    Shape (drmMmCreateBlock mm (kmalloc.map .block) start size).2 := by
  rcases createBlock_cases mm kmalloc start size with he | ⟨r, hr, n, hn, -, -, he⟩
  · rwa [he]
  · rw [he]
    exact h.linkNode (takesHole h hr (hok.2.2 n hn)) _ _ _ _

theorem scanList (h : Shape mm) {ns : List ℕ} (hok : (DrmMmOp.scan q ns).Ok mm) :
    ScanList mm ns :=
  ⟨hok.2.1, fun n hn => (h.allocated n).mp (hok.2.2 n hn)⟩

theorem Inv.apply (h : Inv lo hi mm) (hok : op.Ok mm) (hu : op.Unwrapped mm) :
    Inv lo hi (op.apply mm) := by
  cases op with
  | createBlock kmalloc start size => exact createBlock_inv h hok
  | insertNode q n => exact insert_inv h hok.1 hu hok.2
  | removeNode n => exact h.removeNode ((h.allocated n).mp hok)
  | scan q ns => exact (scanAll_restored h.toShape q (scanList h.toShape hok)).inv h

theorem Shape.apply (h : Shape mm) (hok : op.Ok mm) : Shape (op.apply mm) := by
  cases op with
  | createBlock kmalloc start size => exact createBlock_shape h hok
  | insertNode q n => exact insert_shape h hok.2
  | removeNode n => exact h.removeNode ((h.allocated n).mp hok)
  | scan q ns => exact (scanAll_restored h q (scanList h hok)).shape h

/-! ### Whole runs -/

theorem reach_shape (hsize : 0 < size) (hwrap : start + size < 2 ^ 64)
    (h : Reach (drmMmSystem start size adjust) mm) : Shape mm :=
  h.invariant (fun _ hi => hi ▸ (init_inv hsize hwrap adjust).toShape)
    fun _ _ _ hs _ hstep => hstep.2 ▸ hs.apply hstep.1

theorem reach_inv (hsize : 0 < size) (hwrap : start + size < 2 ^ 64)
    (h : ReachWhile (drmMmSystem start size adjust) (fun mm op => op.Unwrapped mm) mm) :
    Inv start (start + size) mm :=
  h.invariant (fun _ hi => hi ▸ init_inv hsize hwrap adjust)
    fun _ _ _ hs hu hstep => hstep.2 ▸ hs.apply hstep.1 hu

end DrmMm
end GfxDrm
