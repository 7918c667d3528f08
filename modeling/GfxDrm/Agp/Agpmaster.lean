import Mathlib.Algebra.Order.Ring.Nat
import Mathlib.Data.List.Range
import Mathlib.Order.Interval.Set.Basic

/-! The graphics translation table of the AGP master (agpmaster.c): four loops over a range of its
entries. `int` and `uint32_t` are words of 32 bits and their arithmetic wraps. -/

namespace GfxDrm.Agpmaster

abbrev Word := BitVec 32

/-- `igd_gtt_seg_t`. The array at `igs_phyaddr` is addressed in words and zero is NULL. -/
structure Seg where
  igsPgstart : Word
  igsNpage : Word
  igsPhyaddr : ℕ
  igsType : Word
  igsScratch : Word
  deriving DecidableEq

structure GttState where
  /-- The words of the mapping by their distance from `gtt_addr`; the table starts at zero. -/
  table : ℤ → Word
  /-- The kernel's words. -/
  mem : ℕ → Word
  paddr : ℕ
  /-- The words of the mapping that were accessed, in order. -/
  touched : List ℤ

/-- `GTT_MB_TO_PAGES` of an `igd_apersize`, held in a `uint32_t`. -/
def maxpages (apersize : BitVec 64) : Word := apersize.setWidth 32 <<< 8

def agpNormal : Word := 0
def agpPhysical : Word := 2
def gttPteMask : Word := 0xfffff000
def gttPteValid : Word := 1

/-- None for the -1 of a type that it does not know. -/
def phys2entry (type physaddr : Word) : Option Word :=
  if type = agpPhysical ∨ type = agpNormal then some (physaddr &&& gttPteMask ||| gttPteValid)
  else none

/-- `*(gtt_addr + i * sizeof (uint32_t))` with an `int i`, which is extended with its sign. -/
def ddiPut32 (i v : Word) (s : GttState) : GttState :=
  { s with table := Function.update s.table i.toInt v, touched := s.touched ++ [i.toInt] }

def ddiGet32 (i : Word) (s : GttState) : Word × GttState :=
  (s.table i.toInt, { s with touched := s.touched ++ [i.toInt] })

/-- `for (; i < stop; i++)`. The error of the body is the state at its `return (-1)`. -/
def forEach (body : Word → GttState → Except GttState GttState) (i stop : Word) (s : GttState) :
    Except GttState GttState :=
  if i < stop then body i s >>= forEach body (i + 1) stop else .ok s
termination_by stop.toNat - i.toNat
decreasing_by
  have := BitVec.lt_def.mp ‹i < stop›
  have := stop.isLt
  rw [BitVec.toNat_add]
  change stop.toNat - (i.toNat + 1) % 2 ^ 32 < stop.toNat - i.toNat
  omega

/-! ### The four operations -/

/-- The body of the loop of `i8xx_add_to_gtt`. -/
def addEntry (seg : Seg) (i : Word) (s : GttState) : Except GttState GttState :=
  match phys2entry seg.igsType (s.mem s.paddr) with
  | none => .error s
  | some entry => .ok { ddiPut32 i entry s with paddr := s.paddr + 1 }

def i8xxAddToGtt (apersize : BitVec 64) (seg : Seg) (s : GttState) : Except GttState GttState :=
  if maxpages apersize < seg.igsPgstart + seg.igsNpage then .error s
  else forEach (addEntry seg) seg.igsPgstart (seg.igsPgstart + seg.igsNpage)
    { s with paddr := seg.igsPhyaddr }

/-- The entry of the scratch page, if there is one. -/
def scratchEntry (seg : Seg) : Word :=
  if seg.igsScratch = 0 then 0 else (phys2entry seg.igsType seg.igsScratch).getD 0

def removeEntry (seg : Seg) (i : Word) (s : GttState) : Except GttState GttState :=
  .ok (ddiPut32 i (scratchEntry seg) s)

/-- The source function is `void`: the error is its early return. -/
def i8xxRemoveFromGtt (apersize : BitVec 64) (seg : Seg) (s : GttState) :
    Except GttState GttState :=
  if maxpages apersize < seg.igsPgstart + seg.igsNpage then .error s
  else forEach (removeEntry seg) seg.igsPgstart (seg.igsPgstart + seg.igsNpage) s

def readEntry (i : Word) (s : GttState) : Except GttState GttState :=
  let (v, s') := ddiGet32 i s
  .ok { s' with mem := Function.update s'.mem s'.paddr v, paddr := s'.paddr + 1 }

def i8xxReadGtt (apersize : BitVec 64) (seg : Seg) (s : GttState) : Except GttState GttState :=
  if seg.igsPhyaddr = 0 then .error s
  else if maxpages apersize < seg.igsPgstart + seg.igsNpage then .error s
  else forEach readEntry seg.igsPgstart (seg.igsPgstart + seg.igsNpage)
    { s with paddr := seg.igsPhyaddr }

def writeEntry (i : Word) (s : GttState) : Except GttState GttState :=
  .ok { ddiPut32 i (s.mem s.paddr) s with paddr := s.paddr + 1 }

def i8xxWriteGtt (apersize : BitVec 64) (seg : Seg) (s : GttState) : Except GttState GttState :=
  if seg.igsPhyaddr = 0 then .error s
  else if maxpages apersize < seg.igsPgstart + seg.igsNpage then .error s
  else forEach writeEntry seg.igsPgstart (seg.igsPgstart + seg.igsNpage)
    { s with paddr := seg.igsPhyaddr }

/-! ### What the loop does -/

section Loop
variable {body : Word → GttState → Except GttState GttState} {i stop : Word} {s : GttState}

theorem forEach_of_le (h : stop ≤ i) : forEach body i stop s = .ok s := by
  rw [forEach, if_neg (BitVec.not_lt.mpr h)]

/-- The error of the first round is the error of the loop. -/
theorem forEach_error {s' : GttState} (h : i < stop) (hb : body i s = .error s') :
    forEach body i stop s = .error s' := by
  rw [forEach, if_pos h, hb]
  rfl

/-- What holds after as many rounds as were made holds at the end. -/
theorem forEach_ok (body : Word → GttState → Except GttState GttState)
    (I : ℕ → GttState → Prop) {n : ℕ} (hn : i.toNat + n = stop.toNat)
    (h0 : I 0 s) (hstep : ∀ j < n, ∀ s, I j s → ∃ s', body (i + BitVec.ofNat 32 j) s = .ok s' ∧
      I (j + 1) s') : ∃ s', forEach body i stop s = .ok s' ∧ I n s' := by
  induction n generalizing i s I with
  | zero =>
    refine ⟨s, forEach_of_le ?_, h0⟩
    rw [BitVec.le_def]
    omega
  | succ n ih =>
    have hlt : i < stop := by
      rw [BitVec.lt_def]
      omega
    obtain ⟨s₁, hs₁, h1⟩ := hstep 0 n.succ_pos s h0
    rw [BitVec.add_zero] at hs₁
    have hi : (i + 1).toNat = i.toNat + 1 := by
      exact Nat.mod_eq_of_lt (by change i.toNat + 1 < 2 ^ 32; omega)
    obtain ⟨s', hs', hI⟩ := ih (fun j => I (j + 1)) (i := i + 1) (by omega) h1 (by
      intro j hj s hs
      obtain ⟨s', hb, hI⟩ := hstep (j + 1) (Nat.succ_lt_succ hj) s hs
      refine ⟨s', ?_, hI⟩
      rw [← hb, BitVec.add_assoc, Nat.add_comm j 1, BitVec.ofNat_add]
      rfl)
    refine ⟨s', ?_, hI⟩
    rw [forEach, if_pos hlt, hs₁]
    exact hs'

end Loop

/-- The word that round `j` of a loop from `start` accesses. -/
def addr (start : Word) (j : ℕ) : ℤ := (start + BitVec.ofNat 32 j).toInt

variable {start : Word}

theorem addr_inj {l j : ℕ} (hl : l < 2 ^ 32) (hj : j < 2 ^ 32) (h : addr start l = addr start j) :
    l = j := by
  have hw : start + BitVec.ofNat 32 l = start + BitVec.ofNat 32 j := BitVec.eq_of_toInt_eq h
  have ho : BitVec.ofNat 32 l = BitVec.ofNat 32 j := (BitVec.add_right_inj start).mp hw
  have hn := congrArg BitVec.toNat ho
  rwa [BitVec.toNat_ofNat, BitVec.toNat_ofNat, Nat.mod_eq_of_lt hl, Nat.mod_eq_of_lt hj] at hn

theorem toNat_add_ofNat {j : ℕ} (h : start.toNat + j < 2 ^ 32) :
    (start + BitVec.ofNat 32 j).toNat = start.toNat + j := by
  rw [BitVec.toNat_add, BitVec.toNat_ofNat, Nat.add_mod_mod]
  exact Nat.mod_eq_of_lt h

/-- Below bit 31 the index is the number that it was. -/
theorem addr_eq {j : ℕ} (h : start.toNat + j < 2 ^ 31) :
    addr start j = (start.toNat + j : ℕ) := by
  have ht : (start + BitVec.ofNat 32 j).toNat = _ := toNat_add_ofNat (by omega)
  rw [addr, BitVec.toInt_eq_toNat_of_lt (by omega), ht]

/-- From bit 31 on it is before the table. -/
theorem addr_neg {j : ℕ} (h : 2 ^ 31 ≤ start.toNat + j) (h' : start.toNat + j < 2 ^ 32) :
    addr start j < 0 := by
  rw [addr, BitVec.toInt_neg_iff, toNat_add_ofNat h']
  omega

/-- `n` entries from `start` on were written, entry `j` with `val j`. -/
structure Put (start : Word) (val : ℕ → Word) (n : ℕ) (s s' : GttState) : Prop where
  mem : s'.mem = s.mem
  touched : s'.touched = s.touched ++ (List.range n).map (addr start)
  put : ∀ j < n, s'.table (addr start j) = val j
  other : ∀ k, (∀ j < n, addr start j ≠ k) → s'.table k = s.table k

/-- `n` entries from `start` on were read into the array at `p`. -/
structure Got (start : Word) (p n : ℕ) (s s' : GttState) : Prop where
  table : s'.table = s.table
  touched : s'.touched = s.touched ++ (List.range n).map (addr start)
  got : ∀ j < n, s'.mem (p + j) = s.table (addr start j)

theorem Put.zero (start : Word) (val : ℕ → Word) (s : GttState) : Put start val 0 s s where
  mem := rfl
  touched := by rw [List.range_zero, List.map_nil, List.append_nil]
  put j hj := absurd hj (Nat.not_lt_zero j)
  other _ _ := rfl

theorem Put.succ {val : ℕ → Word} {n : ℕ} {s s' : GttState} (hn : n < 2 ^ 32)
    (h : Put start val n s s') (p : ℕ) : Put start val (n + 1) s
      { ddiPut32 (start + BitVec.ofNat 32 n) (val n) s' with paddr := p } where
  mem := h.mem
  touched := by
    rw [List.range_succ, List.map_append, ← List.append_assoc, ← h.touched]
    rfl
  put j hj := by
    change Function.update s'.table (addr start n) (val n) (addr start j) = val j
    rcases Nat.lt_succ_iff_lt_or_eq.mp hj with hlt | rfl
    · rw [Function.update_of_ne, h.put j hlt]
      intro he
      exact hlt.ne (addr_inj (by omega) hn he)
    · rw [Function.update_self]
  other k hk := by
    change Function.update s'.table (addr start n) (val n) k = s.table k
    rw [Function.update_of_ne (hk n n.lt_succ_self).symm]
    exact h.other k fun j hj => hk j (Nat.lt_succ_of_lt hj)

theorem Got.succ {p n : ℕ} {s s' : GttState} (h : Got start p n s s') :
    Got start p (n + 1) s
      { s' with
        touched := s'.touched ++ [addr start n]
        mem := Function.update s'.mem (p + n) (s'.table (addr start n))
        paddr := p + n + 1 } where
  table := h.table
  touched := by
    rw [List.range_succ, List.map_append, ← List.append_assoc, ← h.touched]
    rfl
  got j hj := by
    change Function.update s'.mem (p + n) (s'.table (addr start n)) (p + j) = _
    rcases Nat.lt_succ_iff_lt_or_eq.mp hj with hlt | rfl
    · rw [Function.update_of_ne (by omega), h.got j hlt]
    · rw [Function.update_self, h.table]

section Runs
variable {body : Word → GttState → Except GttState GttState} {start stop : Word} {n : ℕ}
  {s : GttState}

/-- A loop whose rounds write one entry each. -/
theorem forEach_put (body : Word → GttState → Except GttState GttState)
    (hn : start.toNat + n = stop.toNat) (val : ℕ → Word) (p : ℕ → ℕ) (hp : s.paddr = p 0)
    (hbody : ∀ j < n, ∀ s', s'.mem = s.mem → s'.paddr = p j →
      body (start + BitVec.ofNat 32 j) s' =
        .ok { ddiPut32 (start + BitVec.ofNat 32 j) (val j) s' with paddr := p (j + 1) }) :
    ∃ s', forEach body start stop s = .ok s' ∧ Put start val n s s' := by
  obtain ⟨s', hs', hput, -⟩ := forEach_ok body
    (fun j s' => Put start val j s s' ∧ s'.paddr = p j) hn ⟨Put.zero start val s, hp⟩ (by
      intro j hj s' hI
      refine ⟨_, hbody j hj s' hI.1.mem hI.2, ?_, rfl⟩
      exact hI.1.succ (by omega) (p (j + 1)))
  exact ⟨s', hs', hput⟩

variable {apersize : BitVec 64} {seg : Seg}

/-- The range that is checked, where it is not the wrapped one. -/
theorem toNat_stop (h : seg.igsPgstart.toNat + seg.igsNpage.toNat < 2 ^ 32) :
    seg.igsPgstart.toNat + seg.igsNpage.toNat = (seg.igsPgstart + seg.igsNpage).toNat := by
  exact (Nat.mod_eq_of_lt h).symm

theorem i8xxAddToGtt_ok (hmax : ¬ maxpages apersize < seg.igsPgstart + seg.igsNpage)
    (hn : seg.igsPgstart.toNat + seg.igsNpage.toNat < 2 ^ 32)
    (htype : seg.igsType = agpPhysical ∨ seg.igsType = agpNormal) :
    ∃ s', i8xxAddToGtt apersize seg s = .ok s' ∧ Put seg.igsPgstart
      (fun j => s.mem (seg.igsPhyaddr + j) &&& gttPteMask ||| gttPteValid)
      seg.igsNpage.toNat s s' := by
  rw [i8xxAddToGtt, if_neg hmax]
  obtain ⟨s', hs', h⟩ := forEach_put (addEntry seg) (toNat_stop hn) _
    (fun j => seg.igsPhyaddr + j) (s := { s with paddr := seg.igsPhyaddr }) rfl (by
      intro j hj s' hmem hp
      rw [addEntry, phys2entry, if_pos htype, hmem, hp]
      rfl)
  exact ⟨s', hs', h.mem, h.touched, h.put, h.other⟩

theorem i8xxRemoveFromGtt_ok (hmax : ¬ maxpages apersize < seg.igsPgstart + seg.igsNpage)
    (hn : seg.igsPgstart.toNat + seg.igsNpage.toNat < 2 ^ 32) :
    ∃ s', i8xxRemoveFromGtt apersize seg s = .ok s' ∧
      Put seg.igsPgstart (fun _ => scratchEntry seg) seg.igsNpage.toNat s s' := by
  rw [i8xxRemoveFromGtt, if_neg hmax]
  apply forEach_put (removeEntry seg) (toNat_stop hn) _ (fun _ => s.paddr) rfl
  intro j hj s' hmem hp
  rw [← hp]
  rfl

theorem i8xxWriteGtt_ok (hp : seg.igsPhyaddr ≠ 0)
    (hmax : ¬ maxpages apersize < seg.igsPgstart + seg.igsNpage)
    (hn : seg.igsPgstart.toNat + seg.igsNpage.toNat < 2 ^ 32) :
    ∃ s', i8xxWriteGtt apersize seg s = .ok s' ∧ Put seg.igsPgstart
      (fun j => s.mem (seg.igsPhyaddr + j)) seg.igsNpage.toNat s s' := by
  rw [i8xxWriteGtt, if_neg hp, if_neg hmax]
  obtain ⟨s', hs', h⟩ := forEach_put writeEntry (toNat_stop hn) _
    (fun j => seg.igsPhyaddr + j) (s := { s with paddr := seg.igsPhyaddr }) rfl (by
      intro j hj s' hmem hp
      rw [writeEntry, hmem, hp]
      rfl)
  exact ⟨s', hs', h.mem, h.touched, h.put, h.other⟩

theorem i8xxReadGtt_ok (hp : seg.igsPhyaddr ≠ 0)
    (hmax : ¬ maxpages apersize < seg.igsPgstart + seg.igsNpage)
    (hn : seg.igsPgstart.toNat + seg.igsNpage.toNat < 2 ^ 32) :
    ∃ s', i8xxReadGtt apersize seg s = .ok s' ∧
      Got seg.igsPgstart seg.igsPhyaddr seg.igsNpage.toNat s s' := by
  rw [i8xxReadGtt, if_neg hp, if_neg hmax]
  obtain ⟨s', hs', h, -⟩ := forEach_ok readEntry
    (s := { s with paddr := seg.igsPhyaddr })
    (fun j s' => Got seg.igsPgstart seg.igsPhyaddr j s s' ∧ s'.paddr = seg.igsPhyaddr + j)
    (toNat_stop hn) ⟨⟨rfl, (List.append_nil _).symm, fun j hj => absurd hj j.not_lt_zero⟩, rfl⟩ (by
      intro j hj s' hI
      refine ⟨_, rfl, ?_, ?_⟩
      · have h := hI.1.succ
        rw [← hI.2] at h
        exact h
      · exact congrArg (· + 1) hI.2)
  exact ⟨s', hs', h⟩

/-- A sum that wraps is no more than its start: no round is made. -/
theorem forEach_wrapped (h : 2 ^ 32 ≤ seg.igsPgstart.toNat + seg.igsNpage.toNat) :
    forEach body seg.igsPgstart (seg.igsPgstart + seg.igsNpage) s = .ok s := by
  apply forEach_of_le
  rw [BitVec.le_def, BitVec.toNat_add]
  omega

end Runs

/-! ### A request fails or accesses its own entries -/

/-- The pages of an aperture of so many megabytes. -/
def gttPages (apersize : BitVec 64) : ℕ := apersize.toNat * 256

/-- `pgstart .. pgstart + npage - 1`, as numbers. -/
def Seg.entries (seg : Seg) : List ℤ :=
  (List.range seg.igsNpage.toNat).map fun j => ((seg.igsPgstart.toNat + j : ℕ) : ℤ)

/-- The table was not touched. -/
def Untouched (s s' : GttState) : Prop := s'.table = s.table ∧ s'.touched = s.touched

/-- The entries of the request were accessed, each once and nothing else, and all are in the
table. -/
structure AccessedExactly (apersize : BitVec 64) (seg : Seg) (s s' : GttState) : Prop where
  touched : s'.touched = s.touched ++ seg.entries
  inside : ∀ k ∈ seg.entries, k < gttPages apersize
  other : ∀ k ∉ seg.entries, s'.table k = s.table k

/-- The outcome of an operation that returns an `int`. -/
def FailsOrExact (apersize : BitVec 64) (seg : Seg) (s : GttState) :
    Except GttState GttState → Prop
  | .error s' => Untouched s s'
  | .ok s' => AccessedExactly apersize seg s s'

/-- The outcome of an operation that returns nothing. -/
def UntouchedOrExact (apersize : BitVec 64) (seg : Seg) (s : GttState) :
    Except GttState GttState → Prop
  | .error s' => Untouched s s'
  | .ok s' => Untouched s s' ∨ AccessedExactly apersize seg s s'

/-- Writing what was read puts the entries back, whatever the table holds by then. -/
def Restores (apersize : BitVec 64) (seg : Seg) : Prop :=
  ∀ s s₁ s₂, i8xxReadGtt apersize seg s = .ok s₁ →
    (∀ j < seg.igsNpage.toNat, s₂.mem (seg.igsPhyaddr + j) = s₁.mem (seg.igsPhyaddr + j)) →
    ∃ s₃, i8xxWriteGtt apersize seg s₂ = .ok s₃ ∧
      ∀ k, s₃.table k = if k ∈ seg.entries then s.table k else s₂.table k

structure Meets (apersize : BitVec 64) (seg : Seg) : Prop where
  add : ∀ s, FailsOrExact apersize seg s (i8xxAddToGtt apersize seg s)
  remove : ∀ s, UntouchedOrExact apersize seg s (i8xxRemoveFromGtt apersize seg s)
  read : ∀ s, FailsOrExact apersize seg s (i8xxReadGtt apersize seg s)
  write : ∀ s, FailsOrExact apersize seg s (i8xxWriteGtt apersize seg s)
  restore : Restores apersize seg

/-- The sum that the operations check is beyond the table, or the range is empty, or it ends
where an `int` does. -/
def InRange (apersize : BitVec 64) (seg : Seg) : Prop :=
  maxpages apersize < seg.igsPgstart + seg.igsNpage ∨ seg.igsNpage = 0 ∨
    seg.igsPgstart.toNat + seg.igsNpage.toNat ≤ 2 ^ 31

section Claim
variable {apersize : BitVec 64} {seg : Seg} {s s' : GttState}

theorem maxpages_le (apersize : BitVec 64) : (maxpages apersize).toNat ≤ gttPages apersize := by
  rw [maxpages, BitVec.toNat_shiftLeft, Nat.shiftLeft_eq]
  exact (Nat.mod_le _ _).trans (Nat.mul_le_mul_right _ (Nat.mod_le _ _))

/-- A range that is accepted and empty or short does not wrap. -/
theorem InRange.short (h : InRange apersize seg)
    (hmax : ¬ maxpages apersize < seg.igsPgstart + seg.igsNpage) :
    seg.igsPgstart.toNat + seg.igsNpage.toNat < 2 ^ 32 ∧
      ∀ j < seg.igsNpage.toNat, seg.igsPgstart.toNat + j < 2 ^ 31 := by
  have := seg.igsPgstart.isLt
  rcases h with h | h | h
  · exact absurd h hmax
  · rw [h]
    exact ⟨this, fun j hj => absurd hj j.not_lt_zero⟩
  · exact ⟨by omega, fun j hj => by omega⟩

theorem InRange.entries_eq (h : InRange apersize seg)
    (hmax : ¬ maxpages apersize < seg.igsPgstart + seg.igsNpage) :
    (List.range seg.igsNpage.toNat).map (addr seg.igsPgstart) = seg.entries := by
  apply List.map_congr_left
  intro j hj
  exact addr_eq ((h.short hmax).2 j (List.mem_range.mp hj))

theorem mem_entries {k : ℤ} :
    k ∈ seg.entries ↔ ∃ j < seg.igsNpage.toNat, ((seg.igsPgstart.toNat + j : ℕ) : ℤ) = k := by
  rw [Seg.entries, List.mem_map]
  simp only [List.mem_range]

theorem entries_inside (hmax : ¬ maxpages apersize < seg.igsPgstart + seg.igsNpage)
    (hn : seg.igsPgstart.toNat + seg.igsNpage.toNat < 2 ^ 32) :
    ∀ k ∈ seg.entries, k < gttPages apersize := by
  intro k hk
  obtain ⟨j, hj, rfl⟩ := mem_entries.mp hk
  have hle := BitVec.le_def.mp (BitVec.not_lt.mp hmax)
  rw [← toNat_stop hn] at hle
  have := maxpages_le apersize
  omega

theorem Put.exact {val : ℕ → Word} (h : InRange apersize seg)
    (hmax : ¬ maxpages apersize < seg.igsPgstart + seg.igsNpage)
    (hput : Put seg.igsPgstart val seg.igsNpage.toNat s s') :
    AccessedExactly apersize seg s s' where
  touched := by rw [hput.touched, h.entries_eq hmax]
  inside := entries_inside hmax (h.short hmax).1
  other k hk := by
    apply hput.other
    intro j hj he
    rw [addr_eq ((h.short hmax).2 j hj)] at he
    exact hk (mem_entries.mpr ⟨j, hj, he⟩)

theorem Got.exact {p : ℕ} (h : InRange apersize seg)
    (hmax : ¬ maxpages apersize < seg.igsPgstart + seg.igsNpage)
    (hgot : Got seg.igsPgstart p seg.igsNpage.toNat s s') :
    AccessedExactly apersize seg s s' where
  touched := by rw [hgot.touched, h.entries_eq hmax]
  inside := entries_inside hmax (h.short hmax).1
  other k _ := congrFun hgot.table k

theorem untouched_self (s : GttState) : Untouched s s := ⟨rfl, rfl⟩

theorem add_failsOrExact (h : InRange apersize seg) (s : GttState) :
    FailsOrExact apersize seg s (i8xxAddToGtt apersize seg s) := by
  by_cases hmax : maxpages apersize < seg.igsPgstart + seg.igsNpage
  · rw [i8xxAddToGtt, if_pos hmax]
    exact untouched_self s
  have hn := (h.short hmax).1
  by_cases htype : seg.igsType = agpPhysical ∨ seg.igsType = agpNormal
  · obtain ⟨s', hs', hput⟩ := i8xxAddToGtt_ok (s := s) hmax hn htype
    rw [hs']
    exact hput.exact h hmax
  -- The type is the same in every round, so an unknown one is found before the first write.
  rw [i8xxAddToGtt, if_neg hmax]
  by_cases h0 : seg.igsNpage = 0
  · rw [forEach_of_le (by rw [h0]; exact BitVec.le_of_eq (BitVec.add_zero _))]
    refine ⟨?_, entries_inside hmax hn, fun _ _ => rfl⟩
    rw [Seg.entries, h0]
    exact (List.append_nil _).symm
  · have hlt : seg.igsPgstart < seg.igsPgstart + seg.igsNpage := by
      have : seg.igsNpage.toNat ≠ 0 := fun h => h0 (BitVec.eq_of_toNat_eq h)
      rw [BitVec.lt_def, ← toNat_stop hn]
      omega
    rw [forEach_error hlt (by rw [addEntry, phys2entry, if_neg htype])]
    exact ⟨rfl, rfl⟩

theorem remove_untouchedOrExact (h : InRange apersize seg) (s : GttState) :
    UntouchedOrExact apersize seg s (i8xxRemoveFromGtt apersize seg s) := by
  by_cases hmax : maxpages apersize < seg.igsPgstart + seg.igsNpage
  · rw [i8xxRemoveFromGtt, if_pos hmax]
    exact untouched_self s
  obtain ⟨s', hs', hput⟩ := i8xxRemoveFromGtt_ok (s := s) hmax (h.short hmax).1
  rw [hs']
  exact Or.inr (hput.exact h hmax)

theorem read_failsOrExact (h : InRange apersize seg) (s : GttState) :
    FailsOrExact apersize seg s (i8xxReadGtt apersize seg s) := by
  by_cases hp : seg.igsPhyaddr = 0
  · rw [i8xxReadGtt, if_pos hp]
    exact untouched_self s
  by_cases hmax : maxpages apersize < seg.igsPgstart + seg.igsNpage
  · rw [i8xxReadGtt, if_neg hp, if_pos hmax]
    exact untouched_self s
  obtain ⟨s', hs', hgot⟩ := i8xxReadGtt_ok (s := s) hp hmax (h.short hmax).1
  rw [hs']
  exact hgot.exact h hmax

theorem write_failsOrExact (h : InRange apersize seg) (s : GttState) :
    FailsOrExact apersize seg s (i8xxWriteGtt apersize seg s) := by
  by_cases hp : seg.igsPhyaddr = 0
  · rw [i8xxWriteGtt, if_pos hp]
    exact untouched_self s
  by_cases hmax : maxpages apersize < seg.igsPgstart + seg.igsNpage
  · rw [i8xxWriteGtt, if_neg hp, if_pos hmax]
    exact untouched_self s
  obtain ⟨s', hs', hput⟩ := i8xxWriteGtt_ok (s := s) hp hmax (h.short hmax).1
  rw [hs']
  exact hput.exact h hmax

theorem restores_of_inRange (h : InRange apersize seg) : Restores apersize seg := by
  intro s s₁ s₂ hread hmem
  -- The read succeeded, so both checks were passed.
  have hp : seg.igsPhyaddr ≠ 0 := by
    intro hp
    rw [i8xxReadGtt, if_pos hp] at hread
    cases hread
  have hmax : ¬ maxpages apersize < seg.igsPgstart + seg.igsNpage := by
    intro hmax
    rw [i8xxReadGtt, if_neg hp, if_pos hmax] at hread
    cases hread
  obtain ⟨hn, hshort⟩ := h.short hmax
  obtain ⟨s', hs', hgot⟩ := i8xxReadGtt_ok (s := s) hp hmax hn
  obtain rfl : s' = s₁ := Except.ok.inj (hs'.symm.trans hread)
  obtain ⟨s₃, hs₃, hput⟩ := i8xxWriteGtt_ok (s := s₂) hp hmax hn
  refine ⟨s₃, hs₃, ?_⟩
  intro k
  by_cases hk : k ∈ seg.entries
  · rw [if_pos hk]
    obtain ⟨j, hj, rfl⟩ := mem_entries.mp hk
    rw [← addr_eq (hshort j hj), hput.put j hj, hmem j hj, hgot.got j hj]
  · rw [if_neg hk]
    exact (hput.exact h hmax).other k hk

theorem entries_ne_nil (h : seg.igsNpage ≠ 0) : seg.entries ≠ [] := by
  intro he
  rw [Seg.entries, List.map_eq_nil_iff, List.range_eq_nil] at he
  exact h (BitVec.eq_of_toNat_eq he)

/-- A sum that wraps into the table is reported as done. -/
theorem add_not_exact (hwrap : 2 ^ 32 ≤ seg.igsPgstart.toNat + seg.igsNpage.toNat)
    (hmax : ¬ maxpages apersize < seg.igsPgstart + seg.igsNpage) (s : GttState) :
    ¬ FailsOrExact apersize seg s (i8xxAddToGtt apersize seg s) := by
  rw [i8xxAddToGtt, if_neg hmax, forEach_wrapped hwrap]
  intro hexact
  have hnil : seg.entries = [] := List.append_right_eq_self.mp hexact.touched.symm
  apply entries_ne_nil _ hnil
  intro h0
  rw [h0] at hwrap
  exact absurd seg.igsPgstart.isLt (Nat.not_lt.mpr hwrap)

/-- An index from bit 31 on is before the table. -/
theorem remove_not_exact (hn : seg.igsPgstart.toNat + seg.igsNpage.toNat < 2 ^ 32)
    (h31 : 2 ^ 31 < seg.igsPgstart.toNat + seg.igsNpage.toNat) (h0 : seg.igsNpage ≠ 0)
    (hmax : ¬ maxpages apersize < seg.igsPgstart + seg.igsNpage) (s : GttState) :
    ¬ UntouchedOrExact apersize seg s (i8xxRemoveFromGtt apersize seg s) := by
  obtain ⟨s', hs', hput⟩ := i8xxRemoveFromGtt_ok (s := s) hmax hn
  rw [hs']
  have hpos : seg.igsNpage.toNat ≠ 0 := fun h => h0 (BitVec.eq_of_toNat_eq h)
  intro hor
  rcases hor with hnone | hexact
  · have hnil := List.append_right_eq_self.mp (hput.touched.symm.trans hnone.2)
    rw [List.map_eq_nil_iff, List.range_eq_nil] at hnil
    exact hpos hnil
  · have heq := List.append_cancel_left (hput.touched.symm.trans hexact.touched)
    have hlast : addr seg.igsPgstart (seg.igsNpage.toNat - 1) ∈ seg.entries := by
      rw [← heq]
      exact List.mem_map_of_mem (List.mem_range.mpr (by omega))
    obtain ⟨j, -, hj⟩ := mem_entries.mp hlast
    have hneg : addr seg.igsPgstart (seg.igsNpage.toNat - 1) < 0 :=
      addr_neg (by omega) (by omega)
    omega

/-- The operations keep to their entries exactly where the sum that they check and the index
that they walk with are the numbers that they stand for. -/
theorem gttOps_meet_iff (apersize : BitVec 64) (seg : Seg) :
    Meets apersize seg ↔ InRange apersize seg := by
  constructor
  · intro hmeets
    by_contra hout
    obtain ⟨hmax, h0, h31⟩ : ¬ maxpages apersize < seg.igsPgstart + seg.igsNpage ∧
        seg.igsNpage ≠ 0 ∧ ¬ seg.igsPgstart.toNat + seg.igsNpage.toNat ≤ 2 ^ 31 := by
      simpa only [InRange, not_or] using hout
    let s : GttState := { table := fun _ => 0, mem := fun _ => 0, paddr := 0, touched := [] }
    by_cases hwrap : 2 ^ 32 ≤ seg.igsPgstart.toNat + seg.igsNpage.toNat
    · exact add_not_exact hwrap hmax s (hmeets.add s)
    · exact remove_not_exact (Nat.lt_of_not_le hwrap) (Nat.lt_of_not_le h31) h0 hmax s
        (hmeets.remove s)
  · intro h
    exact ⟨add_failsOrExact h, remove_untouchedOrExact h, read_failsOrExact h,
      write_failsOrExact h, restores_of_inRange h⟩

/-- Three pages from `0xfffffffe` on in an aperture of one megabyte: the sum is 1. Nothing is
written and the request succeeds. -/
theorem gttOps_wrapped_request :
    let seg : Seg :=
      { igsPgstart := 0xfffffffe, igsNpage := 3, igsPhyaddr := 1, igsType := 0, igsScratch := 0 }
    (∀ s, ∃ s', i8xxAddToGtt 1 seg s = .ok s' ∧ s'.touched = s.touched) ∧ ¬ Meets 1 seg := by
  intro seg
  have hmax : ¬ maxpages 1 < seg.igsPgstart + seg.igsNpage := by decide
  have hwrap : 2 ^ 32 ≤ seg.igsPgstart.toNat + seg.igsNpage.toNat := by decide
  constructor
  · intro s
    refine ⟨{ s with paddr := seg.igsPhyaddr }, ?_, rfl⟩
    rw [i8xxAddToGtt, if_neg hmax, forEach_wrapped hwrap]
  · intro hmeets
    exact add_not_exact hwrap hmax
      { table := fun _ => 0, mem := fun _ => 0, paddr := 0, touched := [] } (hmeets.add _)

end Claim

end GfxDrm.Agpmaster
