import GfxDrm.I915.RelocsProgress
import GfxDrm.Gtt.Bound

/-! A fault in the middle of the relocations, and the slow path after it, leave the objects with
the dwords that a pass without a fault would have left. -/

namespace GfxDrm.I915

open Bytes Errno Gtt Run

/-! ### The dword of an entry -/

theorem and_page_mask (x : BitVec 64) : x &&& ~~~(4095 : BitVec 64) = x >>> 12 <<< 12 := by
  have hmask : ∀ i < 64, (~~~(4095 : BitVec 64)).getLsbD i = decide (12 ≤ i) := by decide
  refine BitVec.eq_of_getLsbD_eq fun i hi => ?_
  rw [BitVec.getLsbD_and, hmask i hi]
  by_cases h : 12 ≤ i
  · simp [h, hi]
  · simp [h]

theorem toNat_and_low (x : BitVec 64) {n : ℕ} (hn : n < 64) :
    (x &&& BitVec.ofNat 64 (2 ^ n - 1)).toNat = x.toNat % 2 ^ n := by
  have hlt : 2 ^ n - 1 < 2 ^ 64 :=
    (Nat.sub_le _ _).trans_lt (Nat.pow_lt_pow_right (by decide) hn)
  rw [BitVec.toNat_and, BitVec.toNat_ofNat, Nat.mod_eq_of_lt hlt, Nat.and_two_pow_sub_one_eq_mod]

variable {r : RelocationEntry}

/-- Below the reach of an `int`, the dword is where the entry says. -/
theorem address_eq (h : r.offset.toNat < 2 ^ 31) : r.address = r.offset.toNat := by
  have hbase : ((r.offset &&& ~~~(4095 : BitVec 64)).setWidth 32).toInt =
      ((r.offset.toNat / pageSize * pageSize : ℕ) : ℤ) := by
    have hnat : ((r.offset &&& ~~~(4095 : BitVec 64)).setWidth 32).toNat =
        r.offset.toNat / pageSize * pageSize := by
      rw [and_page_mask, BitVec.toNat_setWidth, BitVec.toNat_shiftLeft, BitVec.toNat_ushiftRight]
      unfold pageSize
      omega
    rw [BitVec.toInt_eq_toNat_of_lt (by rw [hnat]; unfold pageSize; omega), hnat]
  have hlow : (r.offset &&& 4095).toNat = r.offset.toNat % pageSize :=
    toNat_and_low r.offset (n := 12) (by decide)
  unfold RelocationEntry.address
  simp only []
  rw [hbase, hlow, Int.tdiv_eq_ediv_of_nonneg (Int.natCast_nonneg _)]
  unfold pageSize
  omega

/-- An address that is not bad is that of a dword of the object. -/
theorem address_inside {size : BitVec 64} (hpos : 0 < size.toNat) (hpages : pageSize ∣ size.toNat)
    (hle : size.toNat ≤ 2 ^ 31) (h : r.badAddress size = false) :
    0 ≤ r.address ∧ r.address + 4 ≤ size.toNat ∧ 4 ∣ r.address := by
  unfold RelocationEntry.badAddress at h
  rw [Bool.or_eq_false_iff, decide_eq_false_iff_not, bne_eq_false_iff_eq, BitVec.not_lt] at h
  obtain ⟨hbelow, haligned⟩ := h
  have hpage : pageSize ≤ size.toNat := Nat.le_of_dvd hpos hpages
  unfold pageSize at hpage
  have hend : r.offset.toNat ≤ size.toNat - 4 := by
    have hsub : (size - 4).toNat = size.toNat - 4 := BitVec.toNat_sub_of_le (by
      rw [BitVec.le_def]; simp; omega)
    rw [BitVec.le_def, hsub] at hbelow
    exact hbelow
  have hmod : r.offset.toNat % 4 = 0 := by
    have hlow := toNat_and_low r.offset (n := 2) (by decide)
    exact hlow.symm.trans (congrArg BitVec.toNat haligned)
  rw [address_eq (by omega)]
  omega

/-! ### Writes inside the object -/

/-- The dword is in the pages of the object. -/
def DwordWrite.Inside (c : RelocCall) (w : DwordWrite) : Prop :=
  0 ≤ w.address ∧ w.address + 4 ≤ (c.size w.object).toNat ∧ 4 ∣ w.address

/-- The pass finds the objects where the aperture has them. -/
structure RelocPass.Finds (p : RelocPass) (c : RelocCall) (g : GttState) : Prop where
  offset : ∀ o, p.gttOffset o = BitVec.ofNat 32 (g.obj o).gttOffset
  bound : ∀ i < c.count, p.gttSpace (c.object i) = (g.obj (c.object i)).gttSpace
  size : ∀ i < c.count, (c.size (c.object i)).toNat = (g.obj (c.object i)).size

namespace RelocPass

variable {p : RelocPass} {c : RelocCall} {o : ObjId} {a : ℕ} {l : List RelocationEntry}
  {log : List DwordWrite} {order : List ℕ} {s : RelocState} {dev : GttDev} {g : GttState}

/-- What the pass needs to know of an object. -/
def Fits (p : RelocPass) (c : RelocCall) (o : ObjId) : Prop :=
  p.gttSpace o = true → 0 < (c.size o).toNat ∧ pageSize ∣ (c.size o).toNat ∧
    (c.size o).toNat ≤ 2 ^ 31

theorem Finds.fits (h : p.Finds c g) (hg : GttInv dev g) :
    ∀ i < c.count, p.Fits c (c.object i) := by
  intro i hi hbound
  rw [h.bound i hi] at hbound
  have hend := hg.end_le hbound
  have htotal := dev.total_le
  refine ⟨c.size_pos i hi, ?_, ?_⟩
  · rw [h.size i hi]
    exact hg.pages _
  · rw [h.size i hi]
    omega

theorem relocateEntry_inside (r : RelocationEntry) (hfits : p.Fits c o)
    (h : ∀ w ∈ log, w.Inside c) : ∀ w ∈ (p.relocateEntry c o r log).2.2, w.Inside c := by
  unfold relocateEntry
  cases c.lookup r.targetHandle with
  | none => exact h
  | some target =>
    simp only []
    split
    · exact h
    split
    · exact h
    split
    · exact h
    rename_i haddress
    split
    · exact h
    rename_i hret
    have hspace : p.gttSpace o = true := by
      unfold makeWritable at hret
      by_contra hspace
      exact hret (by rw [if_neg hspace]; decide)
    obtain ⟨hpos, hpages, hle⟩ := hfits hspace
    intro w hw
    rcases List.mem_append.mp hw with hw | hw
    · exact h w hw
    · rw [List.mem_singleton.mp hw]
      exact address_inside hpos hpages hle (Bool.not_eq_true _ ▸ haddress)

theorem relocateChunk_inside (hfits : p.Fits c o) (h : ∀ w ∈ s.log, w.Inside c) :
    ∀ w ∈ (p.relocateChunk c o a l s).2.log, w.Inside c := by
  induction l generalizing a s with
  | nil => exact h
  | cons r rest ih =>
    have hentry := relocateEntry_inside r hfits h
    unfold relocateChunk
    simp only []
    split
    · exact hentry
    split
    · exact ih hentry
    split
    · exact hentry
    · exact ih hentry

theorem relocateChunks_inside {counts : List ℕ} (hfits : p.Fits c o)
    (h : ∀ w ∈ s.log, w.Inside c) :
    ∀ w ∈ (p.relocateChunks c o counts a s).2.log, w.Inside c := by
  induction counts generalizing a s with
  | nil => exact h
  | cons count rest ih =>
    unfold relocateChunks
    split
    · exact h
    have hchunk := relocateChunk_inside (a := a) (l := readRelocs s.user a count) hfits h
    simp only []
    split
    · exact hchunk
    · exact ih hchunk

theorem relocate_inside (hfits : ∀ i ∈ order, p.Fits c (c.object i))
    (h : ∀ w ∈ s.log, w.Inside c) : ∀ w ∈ (p.relocate c order s).2.log, w.Inside c := by
  induction order generalizing s with
  | nil => exact h
  | cons i rest ih =>
    rw [List.forall_mem_cons] at hfits
    have hobject : ∀ w ∈ (p.relocateObject c i s).2.log, w.Inside c :=
      relocateChunks_inside hfits.1 h
    unfold relocate
    simp only []
    split
    · exact hobject
    · exact ih hfits.2 hobject

theorem relocateObjectSlow_inside (hfits : p.Fits c o) (h : ∀ w ∈ log, w.Inside c) :
    ∀ w ∈ (p.relocateObjectSlow c o l log).2, w.Inside c := by
  induction l generalizing log with
  | nil => exact h
  | cons r rest ih =>
    have hentry := relocateEntry_inside r hfits h
    unfold relocateObjectSlow
    simp only []
    split
    · exact hentry
    · exact ih hentry

theorem relocateObjectsSlow_inside {relocs : ℕ → List RelocationEntry}
    (hfits : ∀ i ∈ order, p.Fits c (c.object i)) (h : ∀ w ∈ log, w.Inside c) :
    ∀ w ∈ (p.relocateObjectsSlow c relocs order log).2, w.Inside c := by
  induction order generalizing log with
  | nil => exact h
  | cons i rest ih =>
    rw [List.forall_mem_cons] at hfits
    have hobject := relocateObjectSlow_inside (l := relocs i) hfits.1 h
    unfold relocateObjectsSlow
    simp only []
    split
    · exact hobject
    · exact ih hfits.2 hobject

theorem relocateSlow_inside (hfits : ∀ i ∈ order, p.Fits c (c.object i))
    (h : ∀ w ∈ s.log, w.Inside c) : ∀ w ∈ (p.relocateSlow c order s).2.log, w.Inside c := by
  unfold relocateSlow
  split
  · exact h
  · exact relocateObjectsSlow_inside hfits h

end RelocPass

/-! ### What the objects hold in the end -/

/-- The values written to a dword, in order. -/
def valuesAt (log : List DwordWrite) (o : ObjId) (a : ℕ) : List (BitVec 32) :=
  (log.filter fun w => decide (w.object = o ∧ w.address = (a : ℤ))).map DwordWrite.value

variable {o o' : ObjId} {a : ℕ}

theorem valuesAt_append (log log' : List DwordWrite) (o : ObjId) (a : ℕ) :
    valuesAt (log ++ log') o a = valuesAt log o a ++ valuesAt log' o a := by
  rw [valuesAt, List.filter_append, List.map_append]
  rfl

/-- A dword holds what was written last. -/
theorem contents_eq (memory : ObjId → ℕ → BitVec 32) (log : List DwordWrite) (o : ObjId) (a : ℕ) :
    contents memory log o a = (valuesAt log o a).getLast?.getD (memory o a) := by
  induction log generalizing memory with
  | nil => rfl
  | cons w log ih =>
    have hcons : contents memory (w :: log) =
        contents (if 0 ≤ w.address then Function.update memory w.object
          (Function.update (memory w.object) w.address.toNat w.value) else memory) log := rfl
    rw [hcons, ih]
    by_cases hat : w.object = o ∧ w.address = (a : ℤ)
    · have hvalues : valuesAt (w :: log) o a = w.value :: valuesAt log o a := by
        rw [valuesAt, List.filter_cons_of_pos (by simpa using hat)]
        rfl
      rw [hvalues, List.getLast?_cons, Option.getD_some, hat.1, hat.2,
        if_pos (Int.natCast_nonneg a), Function.update_self, Int.toNat_natCast,
        Function.update_self]
    · have hvalues : valuesAt (w :: log) o a = valuesAt log o a := by
        rw [valuesAt, List.filter_cons_of_neg (by simpa using hat)]
        rfl
      have hsame : (if 0 ≤ w.address then Function.update memory w.object
          (Function.update (memory w.object) w.address.toNat w.value) else memory) o a =
          memory o a := by
        split
        · rename_i hpos
          by_cases ho : o = w.object
          · have ha : a ≠ w.address.toNat := fun ha => hat ⟨ho.symm, by omega⟩
            rw [ho, Function.update_self, Function.update_of_ne ha]
          · rw [Function.update_of_ne ho]
        · rfl
      rw [hvalues, hsame]

namespace RelocPass

variable {p q : RelocPass} {c : RelocCall} {l l' es : List RelocationEntry} {j j' : ℕ}

/-- The values that entries of one object write to a dword of it. -/
def values (p : RelocPass) (c : RelocCall) (a : ℕ) (l : List RelocationEntry) :
    List (BitVec 32) :=
  (l.filter fun r => decide (r.address = (a : ℤ)) && p.stale c r).map fun r => (p.patch c 0 r).value

theorem valuesAt_patches (p : RelocPass) (c : RelocCall) (o : ObjId) (a : ℕ)
    (l : List RelocationEntry) : valuesAt (p.patches c o l) o a = p.values c a l := by
  unfold valuesAt patches values
  rw [List.filter_map, List.filter_filter, List.map_map]
  congr 1
  refine List.filter_congr fun r _ => ?_
  by_cases ha : r.address = (a : ℤ)
  · simp [patch, ha]
  · simp [patch, ha]

theorem valuesAt_patches_of_ne (h : o' ≠ o) (l : List RelocationEntry) :
    valuesAt (p.patches c o' l) o a = [] := by
  unfold valuesAt patches
  rw [List.map_eq_nil_iff, List.filter_eq_nil_iff]
  intro w hw
  obtain ⟨r, -, rfl⟩ := List.mem_map.mp hw
  simp [patch, h]

theorem values_append (l l' : List RelocationEntry) :
    p.values c a (l ++ l') = p.values c a l ++ p.values c a l' := by
  rw [values, List.filter_append, List.map_append]
  rfl

theorem values_eq_nil_iff :
    p.values c a l = [] ↔ ∀ r ∈ l, r.address = (a : ℤ) → p.stale c r = false := by
  rw [values]
  simp

/-- Entries with the same targets write the same. -/
theorem values_congr (h : ∀ r ∈ l, r.address = (a : ℤ) → p.target c r = q.target c r) :
    p.values c a l = q.values c a l := by
  unfold values
  have hfilter : l.filter (fun r => decide (r.address = (a : ℤ)) && p.stale c r) =
      l.filter fun r => decide (r.address = (a : ℤ)) && q.stale c r := by
    refine List.filter_congr fun r hr => ?_
    by_cases ha : r.address = (a : ℤ)
    · rw [stale, stale, h r hr ha]
    · simp [ha]
  rw [hfilter]
  refine List.map_congr_left fun r hr => ?_
  obtain ⟨hr, hat⟩ := List.mem_filter.mp hr
  rw [patch, patch, h r hr (of_decide_eq_true (Bool.and_eq_true_iff.mp hat).1)]

/-- The targets that entries name for the dword have not moved since, or all those that had moved
before have moved once more, to where their entries do not presume them either. -/
def SteadyAt (first last : RelocPass) (c : RelocCall) (a : ℕ) (es : List RelocationEntry) : Prop :=
  (∀ r ∈ es, r.address = (a : ℤ) → last.target c r = first.target c r) ∨
    ∀ r ∈ es, r.address = (a : ℤ) → first.stale c r = true →
      last.target c r ≠ first.target c r ∧ last.stale c r = true

theorem getLast?_append_congr {α : Type*} {x z y : List α} (h : y = [] → x = z) :
    (x ++ y).getLast? = (z ++ y).getLast? := by
  cases y with
  | nil => rw [h rfl]
  | cons b y => rw [List.getLast?_append_cons, List.getLast?_append_cons]

variable {r : RelocationEntry}

theorem stale_eq_false_iff :
    p.stale c r = false ↔ ∀ x, p.target c r = some x → x = r.presumedOffset := by
  unfold stale
  cases p.target c r with
  | none => simp
  | some x => simp

/-- An entry that the first pass dealt with is not stale while its target stays. -/
theorem stale_settled_of_eq (h : q.target c r = p.target c r) :
    q.stale c (p.settled c r) = false := by
  rw [stale_eq_false_iff]
  intro x hx
  have hx' : p.target c r = some x := h.symm.trans hx
  rw [settled, hx', Option.getD_some]

/-- It is as stale as it was when its target has moved on. -/
theorem stale_settled_of_ne
    (h : p.stale c r = true → q.target c r ≠ p.target c r ∧ q.stale c r = true) :
    q.stale c (p.settled c r) = q.stale c r := by
  by_cases hstale : p.stale c r = true
  · obtain ⟨hne, hq⟩ := h hstale
    rw [hq]
    by_contra hnot
    rw [Bool.not_eq_true, stale_eq_false_iff] at hnot
    refine hne ?_
    cases hx : q.target c r with
    | none => simp [stale, hx] at hq
    | some x =>
      cases hy : p.target c r with
      | none => simp [stale, hy] at hstale
      | some y =>
        have heq := hnot x hx
        rw [settled, hy, Option.getD_some] at heq
        rw [heq]
  · rw [settled_of_not_stale (Bool.not_eq_true _ ▸ hstale)]

theorem values_settled (h : ∀ r ∈ l, r.address = (a : ℤ) →
    q.stale c (p.settled c r) = q.stale c r) :
    q.values c a (l.map (p.settled c)) = q.values c a l := by
  unfold values
  rw [List.filter_map, List.map_map]
  have hfilter : l.filter ((fun r => decide (r.address = (a : ℤ)) && q.stale c r) ∘ p.settled c) =
      l.filter fun r => decide (r.address = (a : ℤ)) && q.stale c r := by
    refine List.filter_congr fun r hr => ?_
    have haddress : (p.settled c r).address = r.address := rfl
    rw [Function.comp_apply, haddress]
    by_cases ha : r.address = (a : ℤ)
    · rw [h r hr ha]
    · simp [ha]
  have hmap : (fun r => (q.patch c 0 r).value) ∘ p.settled c = fun r => (q.patch c 0 r).value := by
    funext r
    rfl
  rw [hfilter, hmap]

/-- What the dword holds in the end does not depend on how far the first pass came. -/
theorem getLast?_values {first last : RelocPass} (hle : j ≤ j' ∧ j' ≤ j + 1)
    (h : SteadyAt first last c a es) :
    (first.values c a (es.take j') ++
      last.values c a ((es.take j).map (first.settled c) ++ es.drop j)).getLast? =
      (last.values c a es).getLast? := by
  have hes : last.values c a es = last.values c a (es.take j) ++ last.values c a (es.drop j) := by
    rw [← values_append, List.take_append_drop]
  rw [values_append]
  rcases h with h | h
  · have htake : first.values c a (es.take j') = last.values c a (es.take j') :=
      values_congr fun r hr ha => (h r (List.mem_of_mem_take hr) ha).symm
    have hdone : last.values c a ((es.take j).map (first.settled c)) = [] := by
      rw [values_eq_nil_iff, List.forall_mem_map]
      exact fun r hr ha => stale_settled_of_eq (h r (List.mem_of_mem_take hr) ha)
    rw [htake, hdone, List.nil_append, hes]
    refine getLast?_append_congr fun hnil => ?_
    rw [values_eq_nil_iff] at hnil
    have hj' : es.take j' = es.take j ++ (es.drop j).take (j' - j) := by
      rw [← List.take_add, Nat.add_sub_cancel' hle.1]
    rw [hj', values_append, List.append_right_eq_self, values_eq_nil_iff]
    exact fun r hr => hnil r (List.mem_of_mem_take hr)
  · have hdone : last.values c a ((es.take j).map (first.settled c)) =
        last.values c a (es.take j) := by
      exact values_settled fun r hr ha =>
        stale_settled_of_ne (h r (List.mem_of_mem_take hr) ha)
    rw [hdone, ← hes]
    refine getLast?_append_congr (z := []) fun hnil => ?_
    rw [values_eq_nil_iff] at hnil ⊢
    intro r hr ha
    by_contra hstale
    have hr' := List.mem_of_mem_take hr
    exact absurd (h r hr' ha (Bool.not_eq_false _ ▸ hstale)).2 (by simp [hnil r hr' ha])

/-! ### All objects -/

variable {order : List ℕ} {f : ℕ → List RelocationEntry} {k : ℕ}

theorem valuesAt_flatMap_of_ne (h : ∀ i ∈ order, c.object i ≠ o) :
    valuesAt (order.flatMap fun i => p.patches c (c.object i) (f i)) o a = [] := by
  induction order with
  | nil => rfl
  | cons i rest ih =>
    rw [List.forall_mem_cons] at h
    rw [List.flatMap_cons, valuesAt_append, valuesAt_patches_of_ne h.1, ih h.2]
    rfl

/-- The writes into object `k` are those of its own entries. -/
theorem valuesAt_flatMap (hl : c.Lists order) (hk : k < c.count) :
    valuesAt (order.flatMap fun i => p.patches c (c.object i) (f i)) (c.object k) a =
      p.values c a (f k) := by
  have hmem : k ∈ order := hl.mem_iff.mpr (List.mem_range.mpr hk)
  have hnodup : order.Nodup := hl.nodup_iff.mpr List.nodup_range
  have hne : ∀ i ∈ order, i ≠ k → c.object i ≠ c.object k := fun i hi hik heq =>
    hik (c.distinct i (List.mem_range.mp (hl.mem_iff.mp hi)) k hk heq)
  clear hl
  induction order with
  | nil => exact absurd hmem List.not_mem_nil
  | cons i rest ih =>
    rw [List.nodup_cons] at hnodup
    rw [List.forall_mem_cons] at hne
    rw [List.flatMap_cons, valuesAt_append]
    by_cases hik : i = k
    · subst hik
      have hrest : ∀ i' ∈ rest, c.object i' ≠ c.object i := fun i' hi' =>
        hne.2 i' hi' fun heq => hnodup.1 (heq ▸ hi')
      rw [valuesAt_patches, valuesAt_flatMap_of_ne hrest, List.append_nil]
    · rw [valuesAt_patches_of_ne (hne.1 hik)]
      exact ih ((List.mem_cons.mp hmem).resolve_left (Ne.symm hik)) hnodup.2 hne.2

end RelocPass

/-- Between the passes no target has moved, or only in such a way that the second pass finds out. -/
def RelocCall.Steady (c : RelocCall) (first last : RelocPass) (user : Mem) : Prop :=
  ∀ i < c.count, ∀ a, RelocPass.SteadyAt first last c a (c.relocs user i)

variable {first last whole : RelocPass} {c : RelocCall} {order order' order'' : List ℕ}
  {user : Mem} {s : RelocState}

theorem RelocCall.Lists.pairwise (hl : c.Lists order) (h : c.Apart) :
    order.Pairwise fun i i' => ∀ x, c.Covers i x → ¬ c.Covers i' x := by
  have hnodup : order.Nodup := hl.nodup_iff.mpr List.nodup_range
  refine hnodup.imp_of_mem fun hi hi' hne => ?_
  exact h _ (List.mem_range.mp (hl.mem_iff.mp hi)) _ (List.mem_range.mp (hl.mem_iff.mp hi')) hne

theorem RelocPass.relocateSlow_user (p : RelocPass) (c : RelocCall) (order : List ℕ)
    (s : RelocState) : (p.relocateSlow c order s).2.user = s.user := by
  unfold relocateSlow
  split <;> rfl

theorem RelocPass.relocateSlow_log {p : RelocPass} (h : (p.relocateSlow c order s).1 = 0) :
    (p.relocateSlow c order s).2.log =
      s.log ++ order.flatMap fun i => p.patches c (c.object i) (c.relocs s.user i) := by
  unfold relocateSlow at h ⊢
  split at h
  · exact absurd h (show ¬ eFault = 0 by decide)
  · rename_i hcopy
    rw [if_neg hcopy]
    exact relocateObjectsSlow_log h

/-- A pass that completes has dealt with all entries. -/
theorem RelocPass.relocate_done {p : RelocPass} (hl : c.Lists order) (hapart : c.Apart)
    (h : (p.relocate c order s).1 = 0) :
    (p.relocate c order s).2.log =
        s.log ++ order.flatMap (fun i => p.patches c (c.object i) (c.relocs s.user i)) ∧
      ∀ i < c.count, c.relocs (p.relocate c order s).2.user i =
        (c.relocs s.user i).map (p.settled c) := by
  have hnodup : order.Nodup := hl.nodup_iff.mpr List.nodup_range
  obtain ⟨j, j', hp⟩ := relocate_progress p c s hnodup (hl.pairwise hapart)
  have hlen : ∀ i, (c.relocs s.user i).length = c.relocationCount i := fun i =>
    length_readRelocs ..
  refine ⟨?_, fun i hi => ?_⟩
  · rw [hp.log]
    congr 1
    refine List.flatMap_congr fun i hi => ?_
    have hdone := hp.done h i hi
    have hle := hp.le i hi
    rw [List.take_of_length_le (by rw [hlen]; omega)]
  · have hmem : i ∈ order := hl.mem_iff.mpr (List.mem_range.mpr hi)
    rw [hp.user i hmem, hp.done h i hmem, ← hlen i, List.take_length, List.drop_length,
      List.append_nil]

/-- The slow path ends with the contents of a pass that did not fail. -/
theorem contents_agree (hl : c.Lists order) (hl' : c.Lists order') (hl'' : c.Lists order'')
    (hapart : c.Apart) (hsteady : c.Steady first last user)
    (hwhole : whole.gttOffset = last.gttOffset)
    (hslow : (last.relocateSlow c order' (first.relocate c order ⟨user, []⟩).2).1 = 0)
    (hfast : (whole.relocate c order'' ⟨user, []⟩).1 = 0) (memory : ObjId → ℕ → BitVec 32) :
    contents memory (last.relocateSlow c order' (first.relocate c order ⟨user, []⟩).2).2.log =
      contents memory (whole.relocate c order'' ⟨user, []⟩).2.log := by
  have hnodup : order.Nodup := hl.nodup_iff.mpr List.nodup_range
  obtain ⟨j, j', hp⟩ := RelocPass.relocate_progress first c ⟨user, []⟩ hnodup (hl.pairwise hapart)
  funext o a
  rw [contents_eq, contents_eq, RelocPass.relocateSlow_log hslow, hp.log,
    (RelocPass.relocate_done hl'' hapart hfast).1, List.nil_append, List.nil_append,
    valuesAt_append]
  by_cases ho : ∃ k < c.count, c.object k = o
  · obtain ⟨k, hk, rfl⟩ := ho
    have hmem : k ∈ order := hl.mem_iff.mpr (List.mem_range.mpr hk)
    rw [RelocPass.valuesAt_flatMap hl hk, RelocPass.valuesAt_flatMap hl' hk,
      RelocPass.valuesAt_flatMap hl'' hk, hp.user k hmem,
      RelocPass.getLast?_values (hp.le k hmem) (hsteady k hk a)]
    have htarget : ∀ r, last.target c r = whole.target c r := fun r => by
      rw [RelocPass.target, RelocPass.target, hwhole]
    rw [RelocPass.values_congr fun r _ _ => htarget r]
  · have hne : ∀ l : List ℕ, c.Lists l → ∀ i ∈ l, c.object i ≠ o := fun l hl i hi heq =>
      ho ⟨i, List.mem_range.mp (hl.mem_iff.mp hi), heq⟩
    rw [RelocPass.valuesAt_flatMap_of_ne (hne _ hl), RelocPass.valuesAt_flatMap_of_ne (hne _ hl'),
      RelocPass.valuesAt_flatMap_of_ne (hne _ hl'')]
    rfl

/-- A call with its first pass and the slow path after it, and beside them a pass over the same
entries that finds the objects where the slow path finds them. -/
structure SlowCall (dev : GttDev) where
  call : RelocCall
  user : Mem
  first : RelocPass
  last : RelocPass
  whole : RelocPass
  order : List ℕ
  order' : List ℕ
  order'' : List ℕ
  before : GttState
  after : GttState
  before_reach : Reach (gttSystem dev) before
  after_reach : Reach (gttSystem dev) after
  first_finds : first.Finds call before
  last_finds : last.Finds call after
  whole_finds : whole.Finds call after
  order_lists : call.Lists order
  order_lists' : call.Lists order'
  order_lists'' : call.Lists order''

namespace SlowCall

variable {dev : GttDev} (x : SlowCall dev)

/-- Where the first pass ends. -/
def fault : ℤ × RelocState := x.first.relocate x.call x.order ⟨x.user, []⟩

/-- Where the slow path ends. -/
def slow : ℤ × RelocState := x.last.relocateSlow x.call x.order' x.fault.2

/-- Where the pass ends that is not interrupted. -/
def fast : ℤ × RelocState := x.whole.relocate x.call x.order'' ⟨x.user, []⟩

def Steady : Prop := x.call.Steady x.first x.last x.user

end SlowCall

/-- Three objects of one page each, one behind the other. -/
def threeBound : List GttCall :=
  [.create 0 1 (fun _ => 7) false, .bindToGtt 0 0 false 0 true, .create 1 1 (fun _ => 8) false,
    .bindToGtt 1 0 false 0 true, .create 2 1 (fun _ => 9) false, .bindToGtt 2 0 false 0 true]

/-- Object 1 changes places with object 2. -/
def swapBound : List GttCall :=
  threeBound ++ [.unbind 1 {}, .unbind 2 {}, .bindToGtt 2 0 false 0 true,
    .bindToGtt 1 0 false 0 true]

def gttOf (l : List GttCall) : GttState :=
  l.foldl (GttCall.run (smallGtt 6 0x1234)) (emptyGtt (smallGtt 6 0x1234))

theorem threeBound_reach : Reach (gttSystem (smallGtt 6 0x1234)) (gttOf threeBound) :=
  reach_foldl threeBound emptyGtt_reach (by decide +kernel)

theorem swapBound_reach : Reach (gttSystem (smallGtt 6 0x1234)) (gttOf swapBound) :=
  reach_foldl swapBound emptyGtt_reach (by decide +kernel)

/-- A pass in which only the presumed offsets cannot be written back, or nothing fails. -/
def passIn (g : GttState) (copyOut : Bool) : RelocPass where
  gttOffset o := BitVec.ofNat 32 (g.obj o).gttOffset
  gttSpace o := (g.obj o).gttSpace
  prepare _ := 0
  copyIn _ := false
  copyOut _ := copyOut

/-- An entry at address 0 for the dword at 8, with `page` in its presumed offset. -/
def oneEntry (page : BitVec 8) : Mem := fun x =>
  if x = 0 then 1 else if x = 4 then 4 else if x = 8 then 8 else if x = 17 then page
  else if x = 24 then 2 else 0

/-- The objects 0, 2, .. have one entry each, all in the same place. -/
def sharedCall (count : ℕ) : RelocCall where
  count := count
  object i := 2 * i
  relocsPtr _ := 0
  relocationCount _ := 1
  lookup handle := if handle = 1 then some 1 else none
  size _ := 4096
  distinct _ _ _ _ h := Nat.eq_of_mul_eq_mul_left (by decide) h
  size_pos _ _ := by decide

theorem sharedCall_apart : (sharedCall 1).Apart := fun i hi j hj hij => by
  have hi' : i < 1 := hi
  have hj' : j < 1 := hj
  omega

/-- The first pass faults in `l`, and the slow path follows in `l'`. -/
def faultThenSlow {l l' : List GttCall} (count : ℕ) (page : BitVec 8)
    (h : Reach (gttSystem (smallGtt 6 0x1234)) (gttOf l))
    (h' : Reach (gttSystem (smallGtt 6 0x1234)) (gttOf l'))
    (hsize : ∀ i < count, 4096 = ((gttOf l).obj (2 * i)).size)
    (hsize' : ∀ i < count, 4096 = ((gttOf l').obj (2 * i)).size) :
    SlowCall (smallGtt 6 0x1234) where
  call := sharedCall count
  user := oneEntry page
  first := passIn (gttOf l) true
  last := passIn (gttOf l') false
  whole := passIn (gttOf l') false
  order := List.range count
  order' := List.range count
  order'' := List.range count
  before := gttOf l
  after := gttOf l'
  before_reach := h
  after_reach := h'
  first_finds := ⟨fun _ => rfl, fun _ _ => rfl, hsize⟩
  last_finds := ⟨fun _ => rfl, fun _ _ => rfl, hsize'⟩
  whole_finds := ⟨fun _ => rfl, fun _ _ => rfl, hsize'⟩
  order_lists := .refl _
  order_lists' := .refl _
  order_lists'' := .refl _

/-- The entry was patched for one offset, and its target is now at another. -/
def movedOn : SlowCall (smallGtt 6 0x1234) :=
  faultThenSlow 1 0x50 threeBound_reach swapBound_reach (by decide +kernel)
    (by decide +kernel)

theorem movedOn_steady : movedOn.Steady := by
  intro i hi a
  refine .inr fun r hr _ _ => ?_
  obtain rfl : r = readReloc (oneEntry 0x50) 0 := List.mem_singleton.mp hr
  decide +kernel

/-- No target has moved. -/
def unmoved (count : ℕ)
    (hsize : ∀ i < count, 4096 = ((gttOf threeBound).obj (2 * i)).size) :
    SlowCall (smallGtt 6 0x1234) :=
  faultThenSlow count 0x50 threeBound_reach threeBound_reach hsize hsize

theorem unmoved_steady (count : ℕ)
    (hsize : ∀ i < count, 4096 = ((gttOf threeBound).obj (2 * i)).size) :
    (unmoved count hsize).Steady := fun _ _ _ => .inl fun _ _ _ => rfl

/-- The target is now where the entry presumed it before the first pass. -/
def movedBack : SlowCall (smallGtt 6 0x1234) :=
  faultThenSlow 1 0x20 threeBound_reach swapBound_reach (by decide +kernel)
    (by decide +kernel)

end GfxDrm.I915
