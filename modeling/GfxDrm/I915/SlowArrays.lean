import GfxDrm.I915.Relocate
import GfxDrm.I915.Frames
import Mathlib.Algebra.Order.BigOperators.Group.List
import Mathlib.Algebra.Order.Ring.Nat

/-! The temporary arrays of the slow relocation path are allocated and freed with one size,
unless a copy fails too early. -/

namespace GfxDrm.I915

open Hoare Errno

/-- The sizes with which the log allocates the array. -/
def allocSizes (array : SlowArray) (log : List HeapEvent) : List (BitVec 64) :=
  log.filterMap fun
    | .alloc a size => if a = array then some size else none
    | .free _ _ => none

/-- The sizes with which the log frees the array. -/
def freeSizes (array : SlowArray) (log : List HeapEvent) : List (BitVec 64) :=
  log.filterMap fun
    | .free a size => if a = array then some size else none
    | .alloc _ _ => none

/-- No array is allocated twice, and each is freed as often as it is allocated, with the same
size. -/
def FreedAsAllocated (log : List HeapEvent) : Prop :=
  ∀ array, (allocSizes array log).length ≤ 1 ∧ freeSizes array log = allocSizes array log

/-- Both arrays are there, and the copy of array `i` fails while an array from `i` on has
entries. The first two events are the allocations. -/
def CopyCutShort (w : World) (count : BitVec 32) : Prop :=
  (w.coming 0).ret = 0 ∧ (w.coming 1).ret = 0 ∧ ∃ i < count.toInt.toNat,
    (∀ j < i, (w.coming (j + 2)).ret = 0) ∧ (w.coming (i + 2)).ret ≠ 0 ∧
    ∃ k < count.toInt.toNat, i ≤ k ∧ 0 < (w.exec k).relocationCount

/-! ### What the exec list asks for -/

/-- The relocation counts of the entries listed, as they are. -/
def relocCount (exec : ℕ → ExecObject2) (l : List ℕ) : ℕ :=
  (l.map fun i => (exec i).relocationCount).sum

theorem relocTotal_eq (exec : ℕ → ExecObject2) (l : List ℕ) :
    relocTotal exec l = BitVec.ofNat 32 (relocCount exec l) := by
  unfold relocTotal relocCount
  induction l with
  | nil => rfl
  | cons i l ih => simp only [List.map_cons, List.sum_cons, ih, BitVec.ofNat_add]

theorem relocCount_append (exec : ℕ → ExecObject2) (l l' : List ℕ) :
    relocCount exec (l ++ l') = relocCount exec l + relocCount exec l' := by
  simp [relocCount]

theorem validateFrom_eq_zero {exec : ℕ → ExecObject2} {l : List ℕ} {t : ℕ}
    (ht : t ≤ intMax / 32) (h : validateFrom exec l t = 0) :
    t + relocCount exec l ≤ intMax / 32 := by
  induction l generalizing t with
  | nil => simpa [relocCount] using ht
  | cons i l ih =>
    rw [validateFrom] at h
    split at h
    · exact absurd h (by decide)
    · rename_i hle
      have hrest := ih (by omega) h
      have hcons : relocCount exec (i :: l) = (exec i).relocationCount + relocCount exec l := by
        simp [relocCount]
      omega

/-- The sizes of arrays that `validate_exec_list` lets pass are those of their lengths. -/
theorem arraySize_inj {m n : ℕ} (hm : m ≤ intMax / 32) (hn : n ≤ intMax / 32)
    (h : arraySize (BitVec.ofNat 32 m) sizeofRelocation =
      arraySize (BitVec.ofNat 32 n) sizeofRelocation) : m = n := by
  have key : ∀ k ≤ intMax / 32,
      (arraySize (BitVec.ofNat 32 k) sizeofRelocation).toNat = k * 32 := by
    intro k hk
    have hk' : k ≤ 67108863 := hk
    have hmsb : (BitVec.ofNat 32 k).msb = false := by
      rw [BitVec.msb_eq_false_iff_two_mul_lt, BitVec.toNat_ofNat]
      omega
    rw [arraySize, BitVec.toNat_mul, BitVec.signExtend_eq_setWidth_of_msb_false hmsb,
      BitVec.toNat_setWidth, BitVec.toNat_ofNat, show sizeofRelocation.toNat = 32 from rfl]
    omega
  have := congrArg BitVec.toNat h
  rw [key m hm, key n hn] at this
  omega

/-! ### The copy loop -/

/-- Neither the entries nor what is to come changes, but for the events used up. -/
structure World.Ahead (n : ℕ) (w w' : World) : Prop where
  exec : w'.exec = w.exec
  coming : ∀ k, w'.coming k = w.coming (k + n)

theorem World.Ahead.retire (w : World) (o : ObjId) : w.Ahead 0 (w.retire o) := by
  unfold World.retire
  split <;> exact ⟨rfl, fun _ => rfl⟩

theorem World.Ahead.trans {m n : ℕ} {w w' w'' : World} (h : w.Ahead m w') (h' : w'.Ahead n w'') :
    w.Ahead (m + n) w'' where
  exec := h'.exec.trans h.exec
  coming k := by rw [h'.coming, h.coming, Nat.add_right_comm, Nat.add_assoc]

theorem World.Ahead.foldl {α : Type} {f : World → α → World} (hf : ∀ (w : World) a, w.Ahead 0 (f w a))
    (l : List α) (w : World) : w.Ahead 0 (l.foldl f w) := by
  induction l generalizing w with
  | nil => exact ⟨rfl, fun _ => rfl⟩
  | cons a l ih => exact (hf w a).trans (ih (f w a))

theorem ahead_callOut (w : World) : w.Ahead 1 (callOut w).2 := by
  have h : World.Ahead 1 w (World.addForeign { w with coming := fun n => w.coming (n + 1) }
      (w.coming 0).foreign) := ⟨rfl, fun _ => rfl⟩
  exact h.trans (World.Ahead.foldl World.Ahead.retire _ _)

theorem ahead_releaseObjects (w : World) : w.Ahead 0 (releaseObjects w).2 := by
  have key : ∀ (l : List ObjId) (v : World), v.Ahead 0 (l.forM unreference v).2 := by
    intro l
    induction l with
    | nil => exact fun v => ⟨rfl, fun _ => rfl⟩
    | cons o l ih =>
      intro v
      have hone : v.Ahead 0 (unreference o v).2 := ⟨rfl, fun _ => rfl⟩
      exact hone.trans (ih _)
  obtain ⟨hexec, hcoming⟩ := key w.objects w
  exact ⟨hexec, hcoming⟩

/-- The loop ends behind the first copy that fails, with the entries copied so far in
`total`. -/
theorem copyRelocs_spec (l : List ℕ) (c : Copied) (w : World) :
    ∃ n ≤ l.length, (∀ j < n, (w.coming j).ret = 0) ∧
      (n < l.length → (w.coming n).ret ≠ 0) ∧
      (copyRelocs l c w).1.total = c.total + relocTotal w.exec (l.take n) := by
  induction l generalizing c w with
  | nil =>
    refine ⟨0, le_rfl, fun j hj => absurd hj (Nat.not_lt_zero j), fun h => absurd h (lt_irrefl 0), ?_⟩
    exact (BitVec.add_zero _).symm
  | cons i l ih =>
    by_cases hret : (w.coming 0).ret = 0
    · obtain ⟨hexec, hcoming⟩ := ahead_callOut w
      obtain ⟨n, hn, hok, hfail, htotal⟩ := ih
        { c with
          total := c.total + BitVec.ofNat 32 ((callOut w).2.exec i).relocationCount
          relocs := Function.update c.relocs i (w.coming 0).relocs } (callOut w).2
      refine ⟨n + 1, Nat.succ_le_succ hn, fun j hj => ?_, fun h => ?_, ?_⟩
      · cases j with
        | zero => exact hret
        | succ j => exact (hcoming j) ▸ hok j (by omega)
      · exact (hcoming n) ▸ hfail (Nat.lt_of_succ_lt_succ h)
      · have hrun : copyRelocs (i :: l) c w = copyRelocs l { c with
            total := c.total + BitVec.ofNat 32 ((callOut w).2.exec i).relocationCount
            relocs := Function.update c.relocs i (w.coming 0).relocs } (callOut w).2 := by
          change (if (w.coming 0).ret ≠ 0 then _ else _ : ExecM Copied) (callOut w).2 = _
          rw [if_neg (not_not.mpr hret)]
          rfl
        rw [hrun, htotal, hexec, BitVec.add_assoc]
        rfl
    · refine ⟨0, Nat.zero_le _, fun j hj => absurd hj (Nat.not_lt_zero j), fun _ => hret, ?_⟩
      change ((if (w.coming 0).ret ≠ 0 then _ else _ : ExecM Copied) (callOut w).2).1.total = _
      rw [if_pos hret]
      exact (BitVec.add_zero _).symm

/-! ### The arrays of a whole call -/

section

variable {noReloc : Bool} {count : BitVec 32} {w : World}

theorem ret_coming (w : World) : (callOut (releaseObjects w).2).1.ret = (w.coming 0).ret ∧
    (callOut (callOut (releaseObjects w).2).2).1.ret = (w.coming 1).ret := by
  have hrel := ahead_releaseObjects w
  have hoff := hrel.trans (ahead_callOut _)
  exact ⟨congrArg Event.ret (hrel.coming 0), congrArg Event.ret (hoff.coming 0)⟩

/-- Without one of the arrays the call frees the other with the size it asked for. -/
theorem relocateSlow_noMem (h : ¬((w.coming 0).ret = 0 ∧ (w.coming 1).ret = 0)) :
    FreedAsAllocated (relocateSlow noReloc count w).1.2 := by
  obtain ⟨h0, h1⟩ := ret_coming w
  rw [← h0, ← h1] at h
  by_cases hoff : (callOut (releaseObjects w).2).1.ret = 0
  · have hreloc : ¬(callOut (callOut (releaseObjects w).2).2).1.ret = 0 := fun hr => h ⟨hoff, hr⟩
    simp only [relocateSlow, drmCalloc, run_bind, run_pure, run_get, if_pos hoff, if_neg hreloc,
      true_or, if_true]
    intro array
    cases array <;> simp [allocSizes, freeSizes, drmFree]
  · by_cases hreloc : (callOut (callOut (releaseObjects w).2).2).1.ret = 0
    · simp only [relocateSlow, drmCalloc, run_bind, run_pure, run_get, if_neg hoff, if_pos hreloc,
        or_true, if_true]
      intro array
      cases array <;> simp [allocSizes, freeSizes, drmFree]
    · simp only [relocateSlow, drmCalloc, run_bind, run_pure, run_get, if_neg hoff, if_neg hreloc,
        or_true, if_true]
      intro array
      cases array <;> simp [allocSizes, freeSizes, drmFree]

/-- With both arrays the second one is freed with the size of what was copied. -/
theorem relocateSlow_copied (h0 : (w.coming 0).ret = 0) (h1 : (w.coming 1).ret = 0) :
    ∃ n ≤ count.toInt.toNat, (∀ j < n, (w.coming (j + 2)).ret = 0) ∧
      (n < count.toInt.toNat → (w.coming (n + 2)).ret ≠ 0) ∧
      (relocateSlow noReloc count w).1.2 =
        [.alloc .relocOffset (arraySize count sizeofInt),
         .alloc .reloc (arraySize (relocTotal w.exec (List.range count.toInt.toNat))
            sizeofRelocation),
         .free .reloc (arraySize (relocTotal w.exec (List.range n)) sizeofRelocation),
         .free .relocOffset (arraySize count sizeofInt)] := by
  have hrel := ahead_releaseObjects w
  have hend := (hrel.trans (ahead_callOut _)).trans (ahead_callOut _)
  obtain ⟨n, hn, hok, hfail, htotal⟩ := copyRelocs_spec (List.range count.toInt.toNat)
    ⟨0, 0, fun _ _ => ⟨0, 0, 0, 0, 0, 0⟩⟩ (callOut (callOut (releaseObjects w).2).2).2
  rw [List.length_range] at hn hfail
  rw [List.take_range, Nat.min_eq_left hn, hend.exec] at htotal
  replace htotal := htotal.trans (BitVec.zero_add _)
  refine ⟨n, hn, fun j hj => (hend.coming j) ▸ hok j hj, fun h => (hend.coming n) ▸ hfail h, ?_⟩
  obtain ⟨hoff, hreloc⟩ := ret_coming w
  rw [h0] at hoff
  rw [h1] at hreloc
  simp only [relocateSlow, drmCalloc, run_bind, run_pure, run_get, if_pos hoff, if_pos hreloc,
    List.cons_ne_nil, or_self, if_false, relocateCopied, htotal, hrel.exec]
  rfl

theorem freedAsAllocated_copied (s s' t : BitVec 64) :
    FreedAsAllocated [.alloc .relocOffset s, .alloc .reloc t, .free .reloc s', .free .relocOffset s] ↔
      s' = t := by
  refine ⟨fun h => ?_, fun h array => ?_⟩
  · have := (h .reloc).2
    simpa [allocSizes, freeSizes] using this
  · cases array <;> simp [allocSizes, freeSizes, h]

theorem relocCount_range_eq_iff (exec : ℕ → ExecObject2) {n count : ℕ} (hn : n ≤ count) :
    relocCount exec (List.range n) = relocCount exec (List.range count) ↔
      ∀ k < count, n ≤ k → (exec k).relocationCount = 0 := by
  obtain ⟨d, rfl⟩ := Nat.exists_eq_add_of_le hn
  rw [List.range_add, relocCount_append, Nat.left_eq_add]
  unfold relocCount
  rw [List.sum_eq_zero_iff, List.map_map]
  refine ⟨fun h k hk hnk => ?_, fun h x hx => ?_⟩
  · refine h _ (List.mem_map.mpr ⟨k - n, List.mem_range.mpr (by omega), ?_⟩)
    change (exec (n + (k - n))).relocationCount = (exec k).relocationCount
    rw [Nat.add_sub_cancel' hnk]
  · obtain ⟨j, hj, rfl⟩ := List.mem_map.mp hx
    exact h (n + j) (Nat.add_lt_add_left (List.mem_range.mp hj) n) (Nat.le_add_right n j)

/-- Of an exec list that has been validated, each temporary array is freed once and with its
size if and only if no copy is cut short. -/
theorem relocate_slow_frees_its_arrays (noReloc : Bool) (count : BitVec 32) (w : World)
    (hv : validateExecList w.exec count = 0) :
    FreedAsAllocated (relocateSlow noReloc count w).1.2 ↔ ¬CopyCutShort w count := by
  by_cases hmem : (w.coming 0).ret = 0 ∧ (w.coming 1).ret = 0
  · obtain ⟨h0, h1⟩ := hmem
    obtain ⟨n, hn, hok, hfail, hlog⟩ := relocateSlow_copied h0 h1
    have htotal := validateFrom_eq_zero (Nat.zero_le _) hv
    rw [Nat.zero_add] at htotal
    have hpart : relocCount w.exec (List.range n) ≤ intMax / 32 := by
      obtain ⟨d, hd⟩ := Nat.exists_eq_add_of_le hn
      rw [hd, List.range_add, relocCount_append] at htotal
      omega
    rw [hlog, freedAsAllocated_copied, relocTotal_eq, relocTotal_eq]
    have hsizes : arraySize (BitVec.ofNat 32 (relocCount w.exec (List.range n))) sizeofRelocation =
        arraySize (BitVec.ofNat 32 (relocCount w.exec (List.range count.toInt.toNat)))
          sizeofRelocation ↔
        ∀ k < count.toInt.toNat, n ≤ k → (w.exec k).relocationCount = 0 :=
      ⟨fun h => (relocCount_range_eq_iff w.exec hn).mp (arraySize_inj hpart htotal h),
        fun h => by rw [(relocCount_range_eq_iff w.exec hn).mpr h]⟩
    rw [hsizes]
    constructor
    · rintro hzero ⟨-, -, i, hi, hiok, hifail, k, hk, hik, hpos⟩
      -- the copy that fails is the one at which the loop ends
      have hin : ¬i < n := fun h => hifail (hok i h)
      have hle : n ≤ i := Nat.le_of_not_lt hin
      rw [hzero k hk (hle.trans hik)] at hpos
      exact absurd hpos (lt_irrefl 0)
    · intro hcut k hk hnk
      by_contra hne
      exact hcut ⟨h0, h1, n, hnk.trans_lt hk, hok, hfail (hnk.trans_lt hk), k, hk, hnk,
        Nat.pos_of_ne_zero hne⟩
  · exact iff_of_true (relocateSlow_noMem hmem) fun h => hmem ⟨h.1, h.2.1⟩

end

/-- Two objects with one relocation each, whose slow path meets the `errors` one after
another. -/
def twoArrays (errors : List ℤ) : World where
  bo _ := Bo.fresh 0x1000
  fence _ := ⟨none, 0⟩
  fenceList := []
  ring _ := ⟨0, false, [], 0⟩
  nextSeqno := 1
  dev := ⟨7, 0, 32, false, fun _ => false, fun _ => false⟩
  exec i := ⟨i + 1, 1, 0, 0, 0⟩
  objects := [5, 6]
  needRelocs := false
  foreign _ := 0
  faults := []
  coming n := { Event.calm ⟨fun _ => Bo.fresh 0, fun _ => ⟨none, 0⟩, [], fun _ => ⟨0, false, [], 0⟩, 1⟩ with
    ret := errors.getD n 0 }

theorem relocate_slow_frees_its_arrays_twoArrays :
    FreedAsAllocated (relocateSlow false 2 (twoArrays [])).1.2 := by
  refine (relocate_slow_frees_its_arrays false 2 (twoArrays []) (by decide)).mpr ?_
  rintro ⟨-, -, i, -, -, hfail, -⟩
  exact hfail (by simp [twoArrays])

/-- The copy of the second array fails, and the array of 64 bytes is freed as one of 32. -/
theorem relocate_slow_frees_too_little :
    validateExecList (twoArrays [0, 0, 0, eFault]).exec 2 = 0 ∧
    (relocateSlow false 2 (twoArrays [0, 0, 0, eFault])).1 =
      (eFault, [.alloc .relocOffset 8, .alloc .reloc 64, .free .reloc 32, .free .relocOffset 8]) ∧
    ¬FreedAsAllocated (relocateSlow false 2 (twoArrays [0, 0, 0, eFault])).1.2 := by
  have hrun : (relocateSlow false 2 (twoArrays [0, 0, 0, eFault])).1 = (eFault,
      [.alloc .relocOffset 8, .alloc .reloc 64, .free .reloc 32, .free .relocOffset 8]) := by decide
  refine ⟨by decide, hrun, fun h => ?_⟩
  exact absurd ((freedAsAllocated_copied 8 32 64).mp h) (by decide)

end GfxDrm.I915
