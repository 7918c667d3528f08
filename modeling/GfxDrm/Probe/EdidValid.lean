import GfxDrm.Probe.EdidFits
import Mathlib.Tactic.Abel

/-! The EDID that drm_do_get_edid returns passes drm_edid_is_valid. -/

namespace GfxDrm.Probe

/-- The loop of drm_edid_is_valid from block `i` on, with the header it may write. -/
def validLoop : ℕ → ℕ → EdidBuf → Bool × EdidBuf
  | 0, _, b => (true, b)
  | fuel + 1, i, b =>
    if i ≤ (b.block 0x7e).toNat then
      match b.blockValid (i * edidLength) i with
      | (false, b) => (false, b)
      | (true, b) => validLoop fuel (i + 1) b
    else (true, b)

/-- drm_edid_is_valid. -/
def drmEdidIsValid (b : EdidBuf) : Bool × EdidBuf := validLoop 256 0 b

/-- What the bytes of a block sum up to. -/
def blockSum (raw : ℕ → UInt8) : UInt8 := ((List.range edidLength).map raw).sum

/-- A base block with a right header and checksum, of major version 1. -/
structure BaseGood (raw : ℕ → UInt8) : Prop where
  header : ∀ k < 8, raw k = edidHeader k
  sum : blockSum raw = 0
  version : raw 18 = 1

/-- The extension blocks of an EDID are valid as far as drm_edid_block_valid looks. -/
def ExtsGood (b : EdidBuf) (count : ℕ) : Prop :=
  ∀ i, 1 ≤ i → i ≤ count → drmEdidBlockValid i (b.raw (i * edidLength)) = true

section
variable {adapter : I2cAdapter} {off block j i n v count : ℕ} {b : EdidBuf}
  {raw raw' : ℕ → UInt8}

/-! ### One block -/

theorem drmEdidHeaderIsValid_eq (h : ∀ k < 8, raw k = edidHeader k) :
    drmEdidHeaderIsValid raw = 8 := by
  have hall : ((List.range 8).filter fun k => raw k = edidHeader k) = List.range 8 :=
    List.filter_eq_self.mpr fun k hk => decide_eq_true (h k (List.mem_range.mp hk))
  rw [drmEdidHeaderIsValid, hall, List.length_range]

theorem header_of_drmEdidHeaderIsValid (h : drmEdidHeaderIsValid raw = 8) :
    ∀ k < 8, raw k = edidHeader k := by
  intro k hk
  have hall : ((List.range 8).filter fun k => raw k = edidHeader k) = List.range 8 :=
    List.filter_sublist.eq_of_length (by exact h)
  have hmem : k ∈ (List.range 8).filter fun k => raw k = edidHeader k := by
    rw [hall]
    exact List.mem_range.mpr hk
  exact of_decide_eq_true (List.mem_filter.mp hmem).2

theorem BaseGood.fixesHeader (h : BaseGood raw) : fixesHeader 0 raw = false := by
  simp [Probe.fixesHeader, drmEdidHeaderIsValid_eq h.header]

theorem BaseGood.valid (h : BaseGood raw) : drmEdidBlockValid 0 raw = true := by
  have hfixed : fixedHeader 0 raw = raw := by
    funext k
    simp [fixedHeader, h.fixesHeader]
  have hsum := h.sum
  unfold blockSum at hsum
  simp [drmEdidBlockValid, drmEdidHeaderIsValid_eq h.header, hfixed, hsum, h.version]

/-- A base block that is accepted is good with its header put right. -/
theorem baseGood_of_valid (h : drmEdidBlockValid 0 raw = true) :
    BaseGood (fixedHeader 0 raw) := by
  have hscore : 6 ≤ drmEdidHeaderIsValid raw := by
    by_contra hlt
    simp [drmEdidBlockValid, not_le.mp hlt] at h
  have hheader : ∀ k < 8, fixedHeader 0 raw k = edidHeader k := by
    intro k hk
    by_cases hfix : fixesHeader 0 raw = true
    · exact if_pos ⟨hfix, hk⟩
    · have hperfect : drmEdidHeaderIsValid raw = 8 := by
        by_contra hne
        exact hfix (by simp [fixesHeader, hne, hscore])
      rw [fixedHeader, if_neg fun hc => hfix hc.1]
      exact header_of_drmEdidHeaderIsValid hperfect k hk
  have hzero : fixedHeader 0 raw 0 = 0 := hheader 0 (by decide)
  have hrest : blockSum (fixedHeader 0 raw) = 0 ∧ fixedHeader 0 raw 18 = 1 := by
    unfold drmEdidBlockValid at h
    rw [if_neg fun hc => absurd hc.2 (not_lt.mpr hscore)] at h
    simpa [blockSum, hzero] using h
  exact ⟨hheader, hrest.1, hrest.2⟩

theorem fixedHeader_of_ne (h : block ≠ 0) : fixedHeader block raw = raw := by
  funext k
  simp [fixedHeader, fixesHeader_of_ne h]

/-- Of two extension blocks none is judged in its own way. -/
theorem drmEdidBlockValid_ext (hi : i ≠ 0) (hj : j ≠ 0) :
    drmEdidBlockValid i raw = drmEdidBlockValid j raw := by
  simp only [drmEdidBlockValid, fixedHeader_of_ne hi, fixedHeader_of_ne hj, hi, hj]

/-- An extension block that is accepted has a right checksum, or is a CEA block. -/
theorem blockSum_of_valid (hi : i ≠ 0) (h : drmEdidBlockValid i raw = true) :
    blockSum raw = 0 ∨ raw 0 = 2 := by
  unfold drmEdidBlockValid at h
  rw [fixedHeader_of_ne hi] at h
  by_contra hc
  simp only [blockSum] at hc
  simp [hc] at h

/-! ### The extension blocks -/

theorem extTries_valid (hj : j ≠ 0) {tries : ℕ} :
    (extTries adapter off j tries i b).1 = some true →
      drmEdidBlockValid j ((extTries adapter off j tries i b).2.raw off) = true := by
  induction tries generalizing i b with
  | zero =>
    intro h
    cases h
  | succ tries ih =>
    unfold extTries
    generalize drmDoProbeDdcEdid (adapter j i) off j b = r
    obtain ⟨ok, b'⟩ := r
    cases ok with
    | false =>
      intro h
      cases h
    | true =>
      simp only [EdidBuf.blockValid, fixesHeader_of_ne hj]
      cases hv : drmEdidBlockValid j (b'.raw off) with
      | true => exact fun _ => hv
      | false => exact ih

/-- The loop leaves the base block alone, and each block it counts is a valid one. -/
theorem extLoop_spec {fuel : ℕ} (hcount : (b.block 0x7e).toNat = count) (hfuel : j + fuel = 256)
    (hv : v < j) (hgood : ExtsGood b v) :
    (∀ k < edidLength, (extLoop adapter fuel j v b).2.block k = b.block k) ∧
      ∀ w, (extLoop adapter fuel j v b).1 = some w →
        ExtsGood (extLoop adapter fuel j v b).2 w ∧
          w = v + ((Finset.Icc j count).filter fun k => ComesValid adapter k 0 4).card := by
  have hbyte : count < 256 := hcount ▸ (b.block 0x7e).toNat_lt
  induction fuel generalizing j v b with
  | zero =>
    refine ⟨fun k _ => rfl, fun w hw => ?_⟩
    obtain rfl : v = w := Option.some.inj hw
    exact ⟨hgood, by rw [Finset.Icc_eq_empty (by omega)]; rfl⟩
  | succ fuel ih =>
    unfold extLoop
    by_cases hj : j ≤ count
    · rw [if_pos (hcount.symm ▸ hj)]
      obtain ⟨hframe, -, hfail, hcome⟩ := @extTries_spec adapter ((v + 1) * edidLength) j 0
        edidBufSize b (by omega) 4
      have hnew := @extTries_valid adapter ((v + 1) * edidLength) j 0 b (by omega) 4
      revert hframe hfail hcome hnew
      generalize extTries adapter ((v + 1) * edidLength) j 4 0 b = r
      obtain ⟨res, b'⟩ := r
      intro hframe hfail hcome hnew
      dsimp only at hframe hfail hcome hnew
      have hbase : ∀ k < edidLength, b'.block k = b.block k := fun k hk =>
        hframe k (hk.trans_le (Nat.le_mul_of_pos_left _ (Nat.succ_pos v)))
      have hold : ExtsGood b' v := by
        intro i h1 hi
        have hsame : ∀ k < edidLength, b'.raw (i * edidLength) k = b.raw (i * edidLength) k := by
          intro k hk
          apply hframe
          have : (i + 1) * edidLength ≤ (v + 1) * edidLength := Nat.mul_le_mul_right _ (by omega)
          rw [Nat.add_mul] at this
          omega
        rw [drmEdidBlockValid_congr hsame]
        exact hgood i h1 hi
      cases res with
      | none => exact ⟨hbase, fun w hw => by cases hw⟩
      | some valid =>
        have hcount' : (b'.block 0x7e).toNat = count := by
          rw [hbase 0x7e (by decide), hcount]
        have hcard : ((Finset.Icc j count).filter fun k => ComesValid adapter k 0 4).card =
            (if ComesValid adapter j 0 4 then 1 else 0) +
              ((Finset.Icc (j + 1) count).filter fun k => ComesValid adapter k 0 4).card := by
          rw [← Finset.insert_Icc_succ_left_eq_Icc hj, Finset.filter_insert,
            Order.succ_eq_add_one]
          split
          · rw [Finset.card_insert_of_notMem (by simp), Nat.add_comm]
          · rw [Nat.zero_add]
        cases valid with
        | true =>
          have hmod : (v + 1) % 256 = v + 1 := Nat.mod_eq_of_lt (by omega)
          have hgood' : ExtsGood b' (v + 1) := by
            intro i h1 hi
            rcases Nat.le_succ_iff.mp hi with hle | rfl
            · exact hold i h1 hle
            · rw [drmEdidBlockValid_ext (Nat.succ_ne_zero v) (by omega : j ≠ 0)]
              exact hnew rfl
          obtain ⟨hkeep, hend⟩ := ih (j := j + 1) hcount' (by omega) (by omega) hgood'
          rw [hmod]
          refine ⟨fun k hk => (hkeep k hk).trans (hbase k hk), fun w hw => ?_⟩
          obtain ⟨hw1, hw2⟩ := hend w hw
          rw [hcard, if_pos (hcome.mp rfl)]
          exact ⟨hw1, by omega⟩
        | false =>
          have hnot : ¬ ComesValid adapter j 0 4 := by
            intro hc
            cases hcome.mpr hc
          obtain ⟨hkeep, hend⟩ := ih (j := j + 1) hcount' (by omega) (by omega) hold
          refine ⟨fun k hk => (hkeep k hk).trans (hbase k hk), fun w hw => ?_⟩
          obtain ⟨hw1, hw2⟩ := hend w hw
          rw [hcard, if_neg hnot]
          exact ⟨hw1, by omega⟩
    · rw [if_neg (hcount.symm ▸ hj)]
      refine ⟨fun k _ => rfl, fun w hw => ?_⟩
      obtain rfl : v = w := Option.some.inj hw
      exact ⟨hgood, by rw [Finset.Icc_eq_empty hj]; rfl⟩

/-! ### The base block -/

theorem EdidBuf.raw_zero (b : EdidBuf) : b.raw 0 = b.block := by
  funext k
  rw [EdidBuf.raw, Nat.zero_add]

theorem baseLoop_good {tries : ℕ} (h : (baseLoop adapter tries i b).1 = .accepted) :
    BaseGood (baseLoop adapter tries i b).2.block := by
  induction tries generalizing i b with
  | zero => cases h
  | succ tries ih =>
    revert h
    unfold baseLoop
    generalize drmDoProbeDdcEdid (adapter 0 i) 0 0 b = r
    obtain ⟨ok, b'⟩ := r
    cases ok with
    | false =>
      intro h
      cases h
    | true =>
      have hblock : (b'.blockValid 0 0).2.block = fixedHeader 0 (b'.raw 0) :=
        funext (blockValid_block b')
      have hfst : (b'.blockValid 0 0).1 = drmEdidBlockValid 0 (b'.raw 0) := rfl
      dsimp only
      revert hblock hfst
      generalize b'.blockValid 0 0 = r'
      obtain ⟨valid, b''⟩ := r'
      intro hblock hfst
      cases valid with
      | true =>
        intro _
        rw [hblock]
        exact baseGood_of_valid hfst.symm
      | false =>
        dsimp only
        split
        · intro h
          cases h
        · exact ih

theorem blockSum_eq : blockSum raw = ((List.range 126).map raw).sum + raw 126 + raw 127 := by
  rw [blockSum, show edidLength = 126 + 1 + 1 from rfl, List.range_succ, List.range_succ]
  simp only [List.map_append, List.map_cons, List.map_nil, List.sum_append, List.sum_cons,
    List.sum_nil, add_zero]

/-- What drm_do_get_edid makes of the base block where extension blocks were dropped. -/
def EdidBuf.patched (b : EdidBuf) (count : ℕ) : EdidBuf :=
  (b.write 127 1 fun _ => b.block 127 + b.block 0x7e - UInt8.ofNat count).write 0x7e 1 fun _ =>
    UInt8.ofNat count

theorem patched_block {k : ℕ} : (b.patched count).block k =
    if k = 126 then UInt8.ofNat count
    else if k = 127 then b.block 127 + b.block 0x7e - UInt8.ofNat count else b.block k := by
  have h126 : (0x7e ≤ k ∧ k < 0x7e + 1) ↔ k = 126 := by omega
  have h127 : (127 ≤ k ∧ k < 127 + 1) ↔ k = 127 := by omega
  simp only [EdidBuf.patched, EdidBuf.write, h126, h127]

/-- The checksum is adjusted by what the count changes. -/
theorem BaseGood.patched (h : BaseGood b.block) : BaseGood (b.patched count).block := by
  have hold : ∀ k < 126, (b.patched count).block k = b.block k := by
    intro k hk
    rw [patched_block, if_neg (by omega), if_neg (by omega)]
  refine ⟨fun k hk => (hold k (by omega)).trans (h.header k hk), ?_,
    (hold 18 (by omega)).trans h.version⟩
  have hsum := h.sum
  rw [blockSum_eq] at hsum ⊢
  have hmap : (List.range 126).map (b.patched count).block = (List.range 126).map b.block :=
    List.map_congr_left fun k hk => hold k (List.mem_range.mp hk)
  rw [hmap]
  calc ((List.range 126).map b.block).sum + UInt8.ofNat count +
        (b.block 127 + b.block 126 - UInt8.ofNat count)
      = ((List.range 126).map b.block).sum + b.block 126 + b.block 127 := by abel
    _ = 0 := hsum

theorem ExtsGood.patched (h : ExtsGood b count) : ExtsGood (b.patched n) count := by
  intro i h1 hi
  have hsame : (b.patched n).raw (i * edidLength) = b.raw (i * edidLength) := by
    funext k
    have hoff : 128 ≤ i * edidLength := Nat.le_mul_of_pos_left 128 h1
    rw [EdidBuf.raw, patched_block, if_neg (by omega), if_neg (by omega)]
    rfl
  rw [hsame]
  exact h i h1 hi

/-! ### drm_edid_is_valid -/

theorem blockValid_of_good (hbase : BaseGood b.block) (hexts : ExtsGood b count) (hi : i ≤ count) :
    b.blockValid (i * edidLength) i = (true, b) := by
  rcases Nat.eq_zero_or_pos i with rfl | hpos
  · rw [EdidBuf.blockValid, Nat.zero_mul, EdidBuf.raw_zero, hbase.valid, hbase.fixesHeader]
    rfl
  · rw [EdidBuf.blockValid, hexts i hpos hi, fixesHeader_of_ne (by omega)]
    rfl

theorem drmEdidIsValid_of_good (hbase : BaseGood b.block)
    (hexts : ExtsGood b (b.block 0x7e).toNat) : drmEdidIsValid b = (true, b) := by
  have hloop : ∀ fuel i, validLoop fuel i b = (true, b) := by
    intro fuel
    induction fuel with
    | zero => exact fun i => rfl
    | succ fuel ih =>
      intro i
      unfold validLoop
      split
      · rename_i hi
        rw [blockValid_of_good hbase hexts hi]
        exact ih (i + 1)
      · rfl
  exact hloop 256 0

/-- What is known of an EDID that is returned. -/
structure Returned (adapter : I2cAdapter) (b : EdidBuf) : Prop where
  valid : drmEdidIsValid b = (true, b)
  base : blockSum (b.raw 0) = 0
  exts : ∀ i, 1 ≤ i → i ≤ (b.block 0x7e).toNat → b.raw (i * edidLength) 0 ≠ 2 →
    blockSum (b.raw (i * edidLength)) = 0
  count : ∃ base, BaseAccepted adapter base 0 4 ∧ (b.block 0x7e).toNat =
    ((Finset.Icc 1 (base 0x7e).toNat).filter fun k => ComesValid adapter k 0 4).card

theorem returned_of_good {base : ℕ → UInt8} (hbase : BaseGood b.block)
    (hexts : ExtsGood b (b.block 0x7e).toNat) (haccepted : BaseAccepted adapter base 0 4)
    (hcount : (b.block 0x7e).toNat =
      ((Finset.Icc 1 (base 0x7e).toNat).filter fun k => ComesValid adapter k 0 4).card) :
    Returned adapter b where
  valid := drmEdidIsValid_of_good hbase hexts
  base := by
    rw [EdidBuf.raw_zero]
    exact hbase.sum
  exts i h1 hi hcea := (blockSum_of_valid (by omega) (hexts i h1 hi)).resolve_right hcea
  count := ⟨base, haccepted, hcount⟩

/-- An EDID that drm_do_get_edid returns is valid, its base block and its extension blocks sum to
zero unless they are CEA blocks, and it counts the blocks that came in valid. -/
theorem drm_do_get_edid_returned (adapter : I2cAdapter) (connector : DrmConnector)
    (kmalloc : Option (ℕ → UInt8)) (h : (drmDoGetEdid adapter connector kmalloc).1 = true) :
    Returned adapter (drmDoGetEdid adapter connector kmalloc).2.1 := by
  cases kmalloc with
  | none => cases h
  | some junk =>
    have hgood := @baseLoop_good adapter 0 { block := junk } 4
    have hbase := @baseLoop_accepted adapter 0 { block := junk } 4
    revert h
    unfold drmDoGetEdid
    dsimp only
    generalize baseLoop adapter 4 0 { block := junk } = r at hgood hbase
    obtain ⟨fetch, b⟩ := r
    rcases hbase with ⟨hne, -⟩ | ⟨rfl, base, hcount, hbase⟩
    · cases fetch with
      | accepted => exact absurd rfl hne
      | carp =>
        intro h
        cases h
      | null =>
        intro h
        cases h
      | out =>
        intro h
        cases h
    · have haccepted : BaseAccepted adapter base 0 4 := (hbase base).mpr rfl
      have hgood := hgood rfl
      dsimp only
      split
      · -- no extension block is announced
        rename_i hzero
        intro _
        have hnone : (b.block 0x7e).toNat = 0 := by rw [hzero]; rfl
        refine returned_of_good hgood ?_ haccepted ?_
        · intro i h1 hi
          exact absurd hi (by dsimp only at hi ⊢; omega)
        · rw [← hcount, hnone]
          rfl
      · obtain ⟨hkeep, hend⟩ := @extLoop_spec adapter 1 0 _ b 255 rfl rfl Nat.zero_lt_one
          (fun i h1 hi => absurd h1 (by omega))
        generalize extLoop adapter 255 1 0 b = r' at hkeep hend
        obtain ⟨res, b'⟩ := r'
        cases res with
        | none =>
          intro h
          cases h
        | some w =>
          obtain ⟨hexts, hw⟩ := hend w rfl
          rw [Nat.zero_add, hcount] at hw
          have hgood' : BaseGood b'.block := by
            refine ⟨fun k hk => ?_, ?_, ?_⟩
            · rw [hkeep k (by unfold edidLength; omega)]
              exact hgood.header k hk
            · rw [← hgood.sum]
              exact congrArg List.sum
                (List.map_congr_left fun k hk => hkeep k (List.mem_range.mp hk))
            · rw [hkeep 18 (by decide)]
              exact hgood.version
          have hle : w ≤ (base 0x7e).toNat := by
            rw [hw]
            refine (Finset.card_filter_le ..).trans_eq ?_
            rw [Nat.card_Icc, Nat.add_sub_cancel]
          have hbyte := (base 0x7e).toNat_lt
          intro _
          dsimp only
          split
          · change Returned adapter (b'.patched w)
            have hw' : ((b'.patched w).block 0x7e).toNat = w := by
              rw [patched_block, if_pos rfl, UInt8.toNat_ofNat']
              omega
            refine returned_of_good hgood'.patched ?_ haccepted ?_
            · rw [hw']
              exact hexts.patched
            · rw [hw', hw]
          · rename_i hsame
            rw [not_not] at hsame
            refine returned_of_good hgood' ?_ haccepted ?_
            · rw [← hsame]
              exact hexts
            · rw [← hsame, hw]

end

/-- A monitor with one CEA block. -/
theorem drm_do_get_edid_returned_cea :
    Returned (ceaMonitor 1) (drmDoGetEdid (ceaMonitor 1) {} (some fun _ => 0)).2.1 :=
  drm_do_get_edid_returned (ceaMonitor 1) {} (some fun _ => 0) (by decide +kernel)

/-- Its CEA block does not sum to zero, and is let through. -/
theorem drm_do_get_edid_slides : ¬ ∀ adapter connector kmalloc,
    (drmDoGetEdid adapter connector kmalloc).1 = true →
      (drmEdidIsValid (drmDoGetEdid adapter connector kmalloc).2.1).1 = true ∧
        ∀ i ≤ ((drmDoGetEdid adapter connector kmalloc).2.1.block 0x7e).toNat,
          blockSum ((drmDoGetEdid adapter connector kmalloc).2.1.raw (i * edidLength)) = 0 := by
  intro h
  have hone := (h (ceaMonitor 1) {} (some fun _ => 0) (by decide +kernel)).2 1 (by decide +kernel)
  revert hone
  decide +kernel

end GfxDrm.Probe
