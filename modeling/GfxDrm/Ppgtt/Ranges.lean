import GfxDrm.Gtt.Defs
import GfxDrm.Lib.Copy

/-! The page tables of a PPGTT and the ranges of entries written to them (i915_gem_gtt.c). -/

namespace GfxDrm.Ppgtt

open Gtt Word BitField

/-- What the range operations use of struct i915_hw_ppgtt. -/
structure I915HwPpgtt where
  dev : GttDev
  scratchPagePaddr : ℕ

/-- The tables' words by their distance in bytes from `kaddr`. -/
abbrev PtMem := ℕ → ℕ

/-- I915_PPGTT_PT_ENTRIES. -/
def ptEntries : ℕ := 1024

/-- I915_PPGTT_PD_ENTRIES. -/
def pdEntries : ℕ := 512

/-- `kaddr + act_pt * PAGE_SIZE`. -/
def ptVaddr (actPt : ℕ) : ℕ := actPt * pageSize % 2 ^ 32

/-- `pt_vaddr[i] = pte`. -/
def setPte (ptVaddr i pte : ℕ) (mem : PtMem) : PtMem := Function.update mem (ptVaddr + 4 * i) pte

namespace I915HwPpgtt

variable (ppgtt : I915HwPpgtt)

/-- The `pte_encode` of gen6_ppgtt_init is chosen as that of the global GTT. -/
def pteEncode : ℕ → CacheLevel → ℕ := Gtt.pteEncode ppgtt.dev

def scratchPte : ℕ := ppgtt.pteEncode ppgtt.scratchPagePaddr .llc

/-- The entries `first_pte` up to `last_pte` of one table. -/
def clearTable (actPt firstPte lastPte : ℕ) (mem : PtMem) : PtMem :=
  (List.range' firstPte (lastPte - firstPte)).foldl
    (fun mem i => setPte (ptVaddr actPt) i ppgtt.scratchPte mem) mem

/-- The loop of gen6_ppgtt_clear_range. -/
def clearLoop : ℕ → ℕ → ℕ → ℕ → PtMem → Option PtMem
  | 0, _, _, _, _ => none
  | fuel + 1, actPt, firstPte, numEntries, mem =>
    if numEntries = 0 then some mem
    else
      let lastPte := min (add 32 firstPte numEntries) ptEntries
      clearLoop fuel (add 32 actPt 1) 0 (sub 32 numEntries (sub 32 lastPte firstPte))
        (ppgtt.clearTable actPt firstPte lastPte mem)

/-- gen6_ppgtt_clear_range; none where the loop does not end. -/
def gen6PpgttClearRange (firstEntry numEntries : ℕ) (mem : PtMem) : Option PtMem :=
  ppgtt.clearLoop (numEntries + 1) (firstEntry / ptEntries) (firstEntry % ptEntries) numEntries mem

/-- The loop of gen6_ppgtt_insert_entries, which ends at `i = stop`. -/
def insertLoop (pages : ℕ → ℕ) (level : CacheLevel) (stop : ℕ) :
    ℕ → ℕ → ℕ → ℕ → ℕ → ℕ → PtMem → Option PtMem
  | 0, _, _, _, _, _, _ => none
  | fuel + 1, i, j, actPt, actPte, vaddr, mem =>
    if ¬ i < stop then some mem
    else
      let mem := setPte vaddr actPte (ppgtt.pteEncode (pageAddr (pages j)) level) mem
      let actPte := add 32 actPte 1
      if actPte = ptEntries then
        let actPt := add 32 actPt 1
        insertLoop pages level stop fuel (add 32 i 1) (add 32 j 1) actPt 0 (ptVaddr actPt) mem
      else insertLoop pages level stop fuel (add 32 i 1) (add 32 j 1) actPt actPte vaddr mem

/-- gen6_ppgtt_insert_entries. -/
def gen6PpgttInsertEntries (firstEntry numEntries : ℕ) (pages : ℕ → ℕ) (level : CacheLevel)
    (mem : PtMem) : Option PtMem :=
  let actPt := firstEntry / ptEntries
  ppgtt.insertLoop pages level (add 32 firstEntry numEntries) (numEntries + 1) firstEntry 0 actPt
    (firstEntry % ptEntries) (ptVaddr actPt) mem

end I915HwPpgtt

/-! ### What an entry says -/

/-- The low four bits of an entry: it is valid, and the requested cache bits. -/
def pteFlags (dev : GttDev) (level : CacheLevel) : ℕ :=
  if dev.isHaswell then if level = .none then 1 else 5
  else if dev.isValleyview then if level = .none then 3 else 7
  else match level with
    | .llcMlc => 7
    | .llc => 5
    | .none => 3

/-- The address that the hardware reads from an entry. -/
def pteAddr (pte : ℕ) : ℕ := (pte &&& 0xfffff000) ||| (pte &&& 0xff0) <<< 28

variable {pfn : ℕ}

theorem pageAddr_eq (hpfn : pfn < 2 ^ 52) : pageAddr pfn = pfn <<< 12 := by
  rw [pageAddr]
  omega

/-- Bits 39 to 32 of the address go to bits 11 to 4. -/
theorem gen6GttAddrEncode_pageAddr (hpfn : pfn < 2 ^ 52) :
    gen6GttAddrEncode (pageAddr pfn) = (pfn * 256 + pfn / 2 ^ 20 % 256) <<< 4 := by
  have hhigh : pageAddr pfn >>> 28 &&& 0xff0 = (pfn / 2 ^ 20 % 256) <<< 4 := by
    have h := and_mask (pageAddr pfn >>> 28) 4 8
    refine h.trans ?_
    simp only [pageAddr_eq hpfn]
    omega
  have hlt : (pfn / 2 ^ 20 % 256) <<< 4 < 2 ^ 12 := by
    omega
  rw [gen6GttAddrEncode, hhigh, pageAddr_eq hpfn, shift_or hlt]
  omega

theorem pteEncode_pageAddr (dev : GttDev) (hpfn : pfn < 2 ^ 52) (level : CacheLevel) :
    pteEncode dev (pageAddr pfn) level =
      ((pfn * 256 + pfn / 2 ^ 20 % 256) * 16 + pteFlags dev level) % 2 ^ 32 := by
  have hor : ∀ f : ℕ, 1 ||| f < 2 ^ 4 → 1 ||| gen6GttAddrEncode (pageAddr pfn) ||| f =
      (pfn * 256 + pfn / 2 ^ 20 % 256) * 16 + (1 ||| f) := by
    intro f hf
    rw [gen6GttAddrEncode_pageAddr hpfn, Nat.or_comm 1, Nat.or_assoc]
    exact shift_or hf _
  have hbyt : ∀ f : ℕ, 1 ||| gen6GttAddrEncode (pageAddr pfn) ||| 2 ||| f =
      1 ||| gen6GttAddrEncode (pageAddr pfn) ||| (2 ||| f) := fun f => Nat.or_assoc _ 2 f
  unfold pteEncode pteFlags
  by_cases hhsw : dev.isHaswell
  · rw [if_pos hhsw, if_pos hhsw, hswPteEncode]
    cases level <;> rw [hor _ (by decide)] <;> rfl
  · rw [if_neg hhsw, if_neg hhsw]
    by_cases hvlv : dev.isValleyview
    · rw [if_pos hvlv, if_pos hvlv, bytPteEncode, hbyt]
      cases level <;> rw [hor _ (by decide)] <;> rfl
    · rw [if_neg hvlv, if_neg hvlv]
      cases level <;> rw [gen6PteEncode, hor _ (by decide)] <;> rfl

theorem pteFlags_lt (dev : GttDev) (level : CacheLevel) : pteFlags dev level < 16 := by
  unfold pteFlags
  cases level <;> split_ifs <;> decide

theorem pteEncode_flags (dev : GttDev) (hpfn : pfn < 2 ^ 52) (level : CacheLevel) :
    pteEncode dev (pageAddr pfn) level % 16 = pteFlags dev level := by
  have hlt := pteFlags_lt dev level
  rw [pteEncode_pageAddr dev hpfn]
  omega

/-- The hardware finds in an entry the page it was made for, if the address has 40 bits. -/
theorem pteAddr_pteEncode (dev : GttDev) (hpfn : pfn < 2 ^ 28) (level : CacheLevel) :
    pteAddr (pteEncode dev (pageAddr pfn) level) = pageAddr pfn := by
  have hlt := pteFlags_lt dev level
  have hpte := pteEncode_pageAddr dev (show pfn < 2 ^ 52 by omega) level
  generalize pteEncode dev (pageAddr pfn) level = pte at hpte
  have ht : pfn / 2 ^ 20 * 16 + pteFlags dev level < 4096 := by omega
  have hfield : pte = (pfn * 4096 + (pfn / 2 ^ 20 * 16 + pteFlags dev level)) % (4096 * 2 ^ 20) := by
    have hh : pfn / 2 ^ 20 % 256 = pfn / 2 ^ 20 := Nat.mod_eq_of_lt (by omega)
    have hsum : (pfn * 256 + pfn / 2 ^ 20) * 16 + pteFlags dev level =
        pfn * 4096 + (pfn / 2 ^ 20 * 16 + pteFlags dev level) := by omega
    rw [hpte, hh, hsum, show 4096 * 2 ^ 20 = 2 ^ 32 by decide]
  have hlow20 : pte / 2 ^ 12 % 2 ^ 20 = pfn % 2 ^ 20 := by
    have hdiv : pte / 4096 = pfn % 2 ^ 20 := by
      rw [hfield, Nat.mod_mul_right_div_self, Nat.mul_comm, Nat.mul_add_div (by decide),
        Nat.div_eq_of_lt ht, Nat.add_zero]
    omega
  have hlow : pte &&& 0xfffff000 = (pte / 2 ^ 12 % 2 ^ 20) <<< 12 := and_mask pte 12 20
  have hhigh : (pte &&& 0xff0) <<< 28 = (pte / 2 ^ 4 % 2 ^ 8) <<< 32 := by
    have h := and_mask pte 4 8
    refine (congrArg (· <<< 28) h).trans ?_
    rw [← Nat.shiftLeft_add]
  have hlowlt : (pte / 2 ^ 12 % 2 ^ 20) <<< 12 < 2 ^ 32 := by
    omega
  rw [pteAddr, hlow, hhigh, Nat.or_comm, shift_or hlowlt, pageAddr_eq (by omega)]
  omega

/-! Which entries gen6_ppgtt_clear_range and gen6_ppgtt_insert_entries write. -/

open Gtt Word

variable {ppgtt : I915HwPpgtt} {mem mem' : PtMem}

/-- The cell of an entry of a table, counted through all tables. -/
theorem setPte_eq {actPt i : ℕ} (hpt : actPt < 2 ^ 20) (pte : ℕ) (mem : PtMem) :
    setPte (ptVaddr actPt) i pte mem =
      Function.update mem (4 * (actPt * ptEntries + i)) pte := by
  have haddr : ptVaddr actPt + 4 * i = 4 * (actPt * ptEntries + i) := by
    unfold ptVaddr ptEntries pageSize
    omega
  rw [setPte, haddr]

/-- The entries of one table are cleared from `first` on. -/
theorem clearTable_filled {actPt first last base : ℕ} (hpt : actPt < 2 ^ 20)
    (hbase : actPt * ptEntries = base) (hle : first ≤ last) :
    Filled 4 (fun _ => ppgtt.scratchPte) (base + first) (base + last) mem
      (ppgtt.clearTable actPt first last mem) := by
  unfold I915HwPpgtt.clearTable
  obtain ⟨n, rfl⟩ := Nat.exists_eq_add_of_le hle
  rw [Nat.add_sub_cancel_left]
  induction n with
  | zero => exact Filled.nil 4 _ _ mem
  | succ n ih =>
    rw [List.range'_1_concat, List.foldl_append, List.foldl_cons, setPte_eq hpt,
      hbase]
    exact (ih (Nat.le_add_right first n)).update (by decide) (by omega)

/-- One turn of the loop clears what is left of a table, or what is left of the range. -/
theorem clearLoop_filled {fuel actPt first n base : ℕ} (hfuel : n < fuel)
    (hfirst : first < ptEntries) (hbase : actPt * ptEntries = base)
    (hend : base + first + n ≤ pdEntries * ptEntries) :
    ∃ mem', ppgtt.clearLoop fuel actPt first n mem = some mem' ∧
      Filled 4 (fun _ => ppgtt.scratchPte) (base + first) (base + first + n) mem mem' := by
  induction fuel generalizing actPt first n base mem with
  | zero => omega
  | succ fuel ih =>
    unfold I915HwPpgtt.clearLoop
    by_cases hn : n = 0
    · rw [hn]
      exact ⟨mem, rfl, Filled.nil 4 _ _ mem⟩
    · rw [if_neg hn]
      have hpt : ptEntries = 1024 := rfl
      have hpd : pdEntries = 512 := rfl
      rw [hpd] at hend
      have hpt20 : actPt < 2 ^ 20 := by
        rw [hpt] at hbase
        omega
      dsimp only
      rw [add_of_lt (show first + n < 2 ^ 32 by omega),
        add_of_lt (show actPt + 1 < 2 ^ 32 by omega)]
      have hlast : first ≤ min (first + n) ptEntries := by omega
      have hrest : min (first + n) ptEntries - first ≤ n := by omega
      have hturn : min (first + n) ptEntries = first + n ∨
          min (first + n) ptEntries = ptEntries ∧ 0 < min (first + n) ptEntries - first := by
        omega
      have hword : min (first + n) ptEntries < 2 ^ 32 := by omega
      generalize min (first + n) ptEntries = last at hlast hrest hturn hword ⊢
      rw [sub_of_le hlast hword, sub_of_le hrest (show n < 2 ^ 32 by omega)]
      have htable : Filled 4 (fun _ => ppgtt.scratchPte) (base + first) (base + last) mem
          (ppgtt.clearTable actPt first last mem) :=
        clearTable_filled hpt20 hbase hlast
      rcases hturn with heq | ⟨heq, hpos⟩
      · -- the range ends in this table
        rw [heq, Nat.add_sub_cancel_left, Nat.sub_self]
        rw [heq, ← Nat.add_assoc] at htable
        refine ⟨_, ?_, htable⟩
        cases fuel with
        | zero => omega
        | succ fuel => rfl
      · -- the rest begins with the first entry of the next table
        have hnext : (actPt + 1) * ptEntries = base + last := by
          rw [Nat.add_mul, hbase, Nat.one_mul, heq]
        have hstop : base + last + 0 + (n - (last - first)) = base + first + n := by omega
        obtain ⟨mem', hmem', hfill⟩ := @ih (ppgtt.clearTable actPt first last mem) _ _ _ _
          (show n - (last - first) < fuel by omega) (show 0 < ptEntries by omega) hnext
          (by rw [hstop]; exact hend)
        rw [hstop] at hfill
        exact ⟨mem', hmem', htable.trans hfill (by decide) (by omega) (by omega)⟩

/-- The page's entry as the loop of gen6_ppgtt_insert_entries makes it. -/
def pageEntry (ppgtt : I915HwPpgtt) (first : ℕ) (pages : ℕ → ℕ) (level : CacheLevel)
    (k : ℕ) : ℕ :=
  ppgtt.pteEncode (pageAddr (pages (k - first))) level

/-- The three indices stay in step: `i` is the entry in all tables, `actPt` and `actPte` are its
table and its place in it, and `j` is the page. -/
theorem insertLoop_filled {pages : ℕ → ℕ} {level : CacheLevel}
    {first stop fuel i j actPt actPte base : ℕ} (hfuel : stop - i < fuel) (hi : i ≤ stop)
    (hj : i = first + j) (hbase : actPt * ptEntries = base) (hpos : i = base + actPte)
    (hpte : actPte < ptEntries) (hend : stop ≤ pdEntries * ptEntries) :
    ∃ mem', ppgtt.insertLoop pages level stop fuel i j actPt actPte (ptVaddr actPt) mem =
        some mem' ∧ Filled 4 (pageEntry ppgtt first pages level) i stop mem mem' := by
  induction fuel generalizing i j actPt actPte base mem with
  | zero => omega
  | succ fuel ih =>
    unfold I915HwPpgtt.insertLoop
    by_cases hlt : i < stop
    · rw [if_neg (not_not.mpr hlt)]
      have hpt : ptEntries = 1024 := rfl
      have hstop : stop ≤ 512 * 1024 := hend
      have hpt20 : actPt < 2 ^ 20 := by
        rw [hpt] at hbase
        omega
      rw [add_of_lt (show actPte + 1 < 2 ^ 32 by omega), add_of_lt (show i + 1 < 2 ^ 32 by omega),
        add_of_lt (show j + 1 < 2 ^ 32 by omega), add_of_lt (show actPt + 1 < 2 ^ 32 by omega)]
      have hpage : pages j = pages (i - first) := by rw [hj, Nat.add_sub_cancel_left]
      have hset : setPte (ptVaddr actPt) actPte
          (ppgtt.pteEncode (pageAddr (pages j)) level) mem =
            Function.update mem (4 * i) (pageEntry ppgtt first pages level i) := by
        rw [setPte_eq hpt20, hbase, ← hpos, hpage]
        rfl
      rw [hset]
      have hone := (Filled.nil 4 i (pageEntry ppgtt first pages level) mem).update (by decide)
        (Nat.le_refl i)
      by_cases hwrap : actPte + 1 = ptEntries
      · rw [if_pos hwrap]
        have hnext : (actPt + 1) * ptEntries = base + ptEntries := by
          rw [Nat.add_mul, hbase, Nat.one_mul]
        obtain ⟨mem', hmem', hfill⟩ := ih (show stop - (i + 1) < fuel by omega) hlt
          (show i + 1 = first + (j + 1) by omega) hnext (by omega) (show 0 < ptEntries by omega)
        exact ⟨mem', hmem', hone.trans hfill (by decide) (Nat.le_succ i) hlt⟩
      · rw [if_neg hwrap]
        obtain ⟨mem', hmem', hfill⟩ := ih (show stop - (i + 1) < fuel by omega) hlt
          (show i + 1 = first + (j + 1) by omega) hbase
          (show i + 1 = base + (actPte + 1) by omega) (by omega)
        exact ⟨mem', hmem', hone.trans hfill (by decide) (Nat.le_succ i) hlt⟩
    · rw [if_pos hlt]
      have heq : stop = i := by omega
      rw [heq]
      exact ⟨mem, rfl, Filled.nil 4 _ _ mem⟩

/-- For a range inside the PPGTT both operations end, having written exactly the entries of the
range: the scratch page's, or each page's with its address and the requested cache bits. -/
theorem ppgtt_ranges_exact (ppgtt : I915HwPpgtt) {first n : ℕ}
    (hrange : first + n ≤ pdEntries * ptEntries) (pages : ℕ → ℕ) (level : CacheLevel)
    (mem : PtMem) :
    (∃ mem', ppgtt.gen6PpgttClearRange first n mem = some mem' ∧
      (∀ k, first ≤ k → k < first + n →
        mem' (4 * k) = ppgtt.pteEncode ppgtt.scratchPagePaddr .llc) ∧
      ∀ a, (∀ k, first ≤ k → k < first + n → a ≠ 4 * k) → mem' a = mem a) ∧
    ∃ mem', ppgtt.gen6PpgttInsertEntries first n pages level mem = some mem' ∧
      (∀ i < n, mem' (4 * (first + i)) = ppgtt.pteEncode (pageAddr (pages i)) level ∧
        (pages i < 2 ^ 52 → mem' (4 * (first + i)) % 16 = pteFlags ppgtt.dev level) ∧
        (pages i < 2 ^ 28 → pteAddr (mem' (4 * (first + i))) = pageAddr (pages i))) ∧
      ∀ a, (∀ k, first ≤ k → k < first + n → a ≠ 4 * k) → mem' a = mem a := by
  have hsplit : first / ptEntries * ptEntries + first % ptEntries = first := by
    rw [Nat.mul_comm]
    exact Nat.div_add_mod first ptEntries
  have hmod : first % ptEntries < ptEntries := Nat.mod_lt first (by decide)
  constructor
  · obtain ⟨mem', hmem', hfill⟩ := @clearLoop_filled ppgtt mem _ _ _ _ _
      (Nat.lt_succ_self n) hmod rfl (by rw [hsplit]; exact hrange)
    rw [hsplit] at hfill
    exact ⟨mem', hmem', hfill.inside, hfill.outside⟩
  · have hword : first + n < 2 ^ 32 := Nat.lt_of_le_of_lt hrange (by decide)
    obtain ⟨mem', hmem', hfill⟩ := @insertLoop_filled ppgtt mem pages
      level _ _ _ _ _ _ _ _ (show first + n - first < n + 1 by omega) (Nat.le_add_right first n)
      (Nat.add_zero first).symm rfl hsplit.symm hmod hrange
    rw [← add_of_lt hword] at hmem'
    refine ⟨mem', hmem', ?_, hfill.outside⟩
    intro i hi
    have hentry : mem' (4 * (first + i)) = ppgtt.pteEncode (pageAddr (pages i)) level := by
      rw [hfill.inside (first + i) (Nat.le_add_right first i) (by omega), pageEntry,
        Nat.add_sub_cancel_left]
    rw [hentry]
    exact ⟨rfl, fun h => pteEncode_flags ppgtt.dev h level,
      fun h => pteAddr_pteEncode ppgtt.dev h level⟩

/-- A sixth generation device with a 512 MiB GTT. -/
def snb : GttDev where
  gen := 6
  hasLlc := true
  mappableEnd := 0x10000000
  total := 0x20000000
  aperPages := 0x20000
  scratchPfn := 5
  page_le_mappableEnd := by decide
  mappableEnd_le := by decide
  page_lt_total := by decide
  total_le := by decide

/-- Two pages that lie on either side of a table's end. -/
theorem ppgtt_ranges_exact_boundary :
    ∃ mem', (⟨snb, 0x5000⟩ : I915HwPpgtt).gen6PpgttInsertEntries 1023 2 (fun i => i + 7) .llc
        (fun _ => 0) = some mem' ∧
      mem' 4088 = 0 ∧ mem' 4092 = 0x7005 ∧ mem' 4096 = 0x8005 ∧ mem' 4100 = 0 := by
  obtain ⟨mem', hmem', hin, hout⟩ := (ppgtt_ranges_exact ⟨snb, 0x5000⟩
    (show 1023 + 2 ≤ pdEntries * ptEntries by decide) (fun i => i + 7) .llc (fun _ => 0)).2
  refine ⟨mem', hmem', ?_, (hin 0 (by decide)).1, (hin 1 (by decide)).1, ?_⟩
  · exact hout 4088 fun k hk _ => by omega
  · exact hout 4100 fun k _ hk => by omega

end GfxDrm.Ppgtt
