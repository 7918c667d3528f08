import GfxDrm.RingBuffer.Defs

/-! The hangcheck's look at rings that wait for each other (i915_irq.c), and the semaphore
commands that they wait on (intel_ringbuffer.c). -/

namespace GfxDrm.Hangcheck
open I915 (Seqno seqnoPassed)
open RingBuffer (Dword miNoop)

inductive RingId
  | rcs
  | vcs
  | bcs
  | vecs
  deriving DecidableEq

def RingId.id : RingId → ℕ
  | .rcs => 0
  | .vcs => 1
  | .bcs => 2
  | .vecs => 3

/-- `&dev_priv->ring[i]`, where `i` is below 3. -/
def RingId.ofIndex : ℕ → RingId
  | 0 => .rcs
  | 1 => .vcs
  | _ => .bcs

def headAddr : BitVec 32 := 0x001FFFFC
def ringWaitSemaphore : BitVec 32 := 0x400

/-- `MI_SEMAPHORE_MBOX | MI_SEMAPHORE_COMPARE | MI_SEMAPHORE_REGISTER`. -/
def semaphoreWait : Dword := 0x0b000001 ||| 0x00100000 ||| 0x00040000

/-- `signaller->semaphore_register[waiter->id]`, above bit 16. -/
def semaphoreRegister : RingId → RingId → ℕ
  | .rcs, .rcs => 3
  | .rcs, .vcs => 2
  | .rcs, .bcs => 0
  | .rcs, .vecs => 2
  | .vcs, .rcs => 0
  | .vcs, .vcs => 3
  | .vcs, .bcs => 2
  | .vcs, .vecs => 1
  | .bcs, .rcs => 2
  | .bcs, .vcs => 0
  | .bcs, .bcs => 3
  | .bcs, .vecs => 0
  | .vecs, .rcs => 1
  | .vecs, .vcs => 1
  | .vecs, .bcs => 1
  | .vecs, .vecs => 3

def semaphoreHeader (signaller waiter : RingId) : Dword :=
  semaphoreWait ||| BitVec.ofNat 32 (semaphoreRegister signaller waiter) <<< 16

/-- The dwords that gen6_ring_sync emits to the waiter. -/
def gen6RingSync (lastSeqno : Seqno) (waiter signaller : RingId) (seqno : Seqno) : List Dword :=
  if lastSeqno < seqno - 1 then [miNoop, miNoop, miNoop, miNoop]
  else [semaphoreHeader signaller waiter, seqno - 1, 0, miNoop]

/-- What the hangcheck sees of a ring: its registers, the seqno on its status page and its
contents, which take 512 pages at most. -/
structure HwRing where
  ipehr : Dword
  acthd : Dword
  ctl : Dword
  seqno : Seqno
  contents : List Dword
  le : contents.length ≤ 2 ^ 19

/-- A call reads a dword outside a ring, or returns. -/
inductive Result (α : Type)
  | outside
  | returns (a : α)
  deriving DecidableEq

namespace HwRing

/-- The dword at `virtual_start + offset`. -/
def read (r : HwRing) (offset : ℕ) : Option Dword := r.contents[offset / 4]?

/-- The loop that looks for the command, from `acthd` backwards. -/
def scan (r : HwRing) (acthdMin : Dword) : ℕ → Dword → Option (Result (Option Dword))
  | 0, _ => none
  | fuel + 1, acthd =>
    match r.read acthd.toNat with
    | none => some .outside
    | some cmd =>
      if cmd = r.ipehr then some (.returns (some acthd))
      else if acthd - 4 < acthdMin then some (.returns none)
      else scan r acthdMin fuel (acthd - 4)

/-- What is made of the command's place. -/
def report (r : HwRing) (ring : RingId) : Result (Option Dword) → Result (Option (RingId × Seqno))
  | .outside => .outside
  | .returns none => .returns none
  | .returns (some acthd) =>
    match r.read (acthd.toNat + 4) with
    | none => .outside
    | some w =>
      .returns (some (.ofIndex ((ring.id + ((r.ipehr >>> 17 &&& 1).toNat + 1)) % 3), w + 1))

def semaphoreWaitsFor (r : HwRing) (ring : RingId) (fuel : ℕ) :
    Option (Result (Option (RingId × Seqno))) :=
  if r.ipehr &&& ~~~0x30000 ≠ semaphoreWait then some (.returns none)
  else
    (r.scan (BitVec.ofInt 32 (max ((r.acthd &&& headAddr).toInt - 3 * 4) 0)) fuel
      (r.acthd &&& headAddr)).map (r.report ring)

/-- i915_seqno_passed of the ring's seqno, as an int. -/
def passed (r : HwRing) (seqno : Seqno) : ℤ := if seqnoPassed r.seqno seqno then 1 else 0

end HwRing

/-- `flagged` are the rings with `hangcheck.deadlock` set. -/
def semaphorePassed (rings : RingId → HwRing) :
    ℕ → RingId → Finset RingId → Option (Result ℤ)
  | 0, _, _ => none
  | fuel + 1, ring, flagged =>
    ((rings ring).semaphoreWaitsFor ring fuel).bind fun
      | .outside => some .outside
      | .returns none => some (.returns (-1))
      | .returns (some (signaller, seqno)) =>
        if signaller ∈ insert ring flagged then some (.returns (-1))
        else if (rings signaller).ctl &&& ringWaitSemaphore ≠ 0 then
          (semaphorePassed rings fuel signaller (insert ring flagged)).map fun
            | .outside => .outside
            | .returns v => .returns (if v < 0 then -1 else (rings signaller).passed seqno)
        else some (.returns ((rings signaller).passed seqno))

/-! ### When a ring is read right -/

namespace HwRing
variable {r : HwRing} {ring signaller : RingId} {fuel i q p : ℕ} {seqno lastSeqno : Seqno}

/-- The dword of the ring that the head is at. -/
def index (r : HwRing) : ℕ := (r.acthd &&& headAddr).toNat / 4

/-- The ring waits on a semaphore, as far as IPEHR tells. -/
def Waits (r : HwRing) : Prop := r.ipehr &&& ~~~0x30000 = semaphoreWait

/-- The head of a ring that waits is in the ring; the command is not the last dword; and it is
found if there are no four dwords before the head. -/
def Inside (r : HwRing) : Prop :=
  r.Waits → r.index < r.contents.length ∧
    (r.index + 1 = r.contents.length → r.contents[r.index]? ≠ some r.ipehr) ∧
    (r.index < 4 → ∃ q ≤ r.index, r.contents[q]? = some r.ipehr)

/-- The ring is stuck on the command that gen6_ring_sync has put at dword `p`: the head is at one
of its dwords. -/
structure StuckOn (r : HwRing) (ring signaller : RingId) (lastSeqno seqno : Seqno) (p : ℕ) :
    Prop where
  ne : signaller ≠ ring
  waits : ¬lastSeqno < seqno - 1
  emitted : gen6RingSync lastSeqno ring signaller seqno <+: r.contents.drop p
  header : r.ipehr = semaphoreHeader signaller ring
  head : p ≤ r.index ∧ r.index < p + 4

/-- Two rings out of the first three, or VECS that waits for VCS. -/
def Told (ring signaller : RingId) : Prop :=
  ring ≠ .vecs ∧ signaller ≠ .vecs ∨ ring = .vecs ∧ signaller = .vcs

instance : Decidable (Told ring signaller) := inferInstanceAs (Decidable (_ ∨ _))

/-- What the command waits for is told by its header, and no dword behind it looks like it. -/
def Clear (r : HwRing) (ring : RingId) : Prop :=
  ∀ signaller lastSeqno seqno p, r.StuckOn ring signaller lastSeqno seqno p →
    Told ring signaller ∧ (seqno - 1 = r.ipehr → r.index = p)

/-- The signaller and the seqno of a command that the ring is stuck on are reported. -/
def Reported (r : HwRing) (ring : RingId) : Prop :=
  ∀ signaller lastSeqno seqno p, r.StuckOn ring signaller lastSeqno seqno p →
    ∃ fuel, r.semaphoreWaitsFor ring fuel = some (.returns (some (signaller, seqno)))

theorem four_dvd_head (x : BitVec 32) :
    (x &&& headAddr).toNat = 4 * ((x &&& headAddr).toNat / 4) ∧
      (x &&& headAddr).toNat / 4 < 2 ^ 19 := by
  have hmask : headAddr.toNat = (2 ^ 19 - 1) <<< 2 := by decide
  have hand : (x &&& headAddr).toNat = (x.toNat >>> 2 &&& (2 ^ 19 - 1)) <<< 2 := by
    rw [BitVec.toNat_and, hmask]
    refine Nat.eq_of_testBit_eq fun j => ?_
    simp only [Nat.testBit_and, Nat.testBit_shiftLeft]
    by_cases hj : 2 ≤ j
    · simp [hj]
    · simp [hj]
  rw [hand, Nat.and_two_pow_sub_one_eq_mod]
  omega

theorem index_lt (r : HwRing) : r.index < 2 ^ 19 := (four_dvd_head r.acthd).2

theorem head_eq (r : HwRing) : r.acthd &&& headAddr = BitVec.ofNat 32 (4 * r.index) := by
  apply BitVec.eq_of_toNat_eq
  rw [BitVec.toNat_ofNat, Nat.mod_eq_of_lt (by have := r.index_lt; omega)]
  exact (four_dvd_head r.acthd).1

/-- The lower bound of the search. -/
theorem acthdMin_eq (r : HwRing) :
    BitVec.ofInt 32 (max ((r.acthd &&& headAddr).toInt - 3 * 4) 0) =
      BitVec.ofNat 32 (4 * (r.index - 3)) := by
  have hlt := r.index_lt
  have hnat : (BitVec.ofNat 32 (4 * r.index)).toNat = 4 * r.index := by
    rw [BitVec.toNat_ofNat, Nat.mod_eq_of_lt (by omega)]
  have hint : (r.acthd &&& headAddr).toInt = 4 * r.index := by
    rw [head_eq, BitVec.toInt_eq_toNat_of_lt (by omega), hnat]
    exact Int.natCast_mul 4 r.index
  have hmax : max ((4 * r.index : ℤ) - 3 * 4) 0 = ((4 * (r.index - 3) : ℕ) : ℤ) := by omega
  rw [hint, hmax, BitVec.ofInt_natCast]

theorem read_ofNat (hi : i < 2 ^ 19) :
    r.read (BitVec.ofNat 32 (4 * i)).toNat = r.contents[i]? := by
  rw [BitVec.toNat_ofNat, Nat.mod_eq_of_lt (by omega), read, Nat.mul_div_cancel_left i (by decide)]

theorem back_one (_ : i + 1 < 2 ^ 19) :
    BitVec.ofNat 32 (4 * (i + 1)) - 4 = BitVec.ofNat 32 (4 * i) := by
  apply BitVec.eq_of_toNat_eq
  have hfour : (4 : BitVec 32).toNat = 4 := rfl
  rw [BitVec.toNat_sub, BitVec.toNat_ofNat, BitVec.toNat_ofNat]
  omega

theorem back_lt (_ : i < 2 ^ 19) (_ : q < 2 ^ 19) :
    BitVec.ofNat 32 (4 * i) < BitVec.ofNat 32 (4 * q) ↔ i < q := by
  rw [BitVec.lt_def, BitVec.toNat_ofNat, BitVec.toNat_ofNat]
  omega

/-- Behind a match the search has met none. -/
theorem scan_found (hi : i < 2 ^ 19) (hq : r.contents[q]? = some r.ipehr) (hqi : q ≤ i)
    (hmin : p ≤ q) (hno : ∀ x, q < x → x ≤ i → ∃ c, r.contents[x]? = some c ∧ c ≠ r.ipehr)
    (hfuel : i < q + fuel) :
    r.scan (BitVec.ofNat 32 (4 * p)) fuel (BitVec.ofNat 32 (4 * i)) =
      some (.returns (some (BitVec.ofNat 32 (4 * q)))) := by
  induction i, hqi using Nat.le_induction generalizing fuel with
  | base =>
    obtain ⟨fuel, rfl⟩ := Nat.exists_eq_add_of_lt (Nat.pos_of_lt_add_right hfuel)
    rw [scan, read_ofNat hi, hq]
    exact if_pos rfl
  | succ i hqi ih =>
    obtain ⟨fuel, rfl⟩ : ∃ k, fuel = k + 1 := ⟨fuel - 1, by omega⟩
    obtain ⟨c, hc, hne⟩ := hno (i + 1) (by omega) le_rfl
    have hge : ¬BitVec.ofNat 32 (4 * i) < BitVec.ofNat 32 (4 * p) := by
      rw [back_lt (by omega) (by omega)]
      omega
    rw [scan, read_ofNat hi, hc]
    dsimp only
    rw [if_neg hne, back_one hi, if_neg hge]
    exact ih (by omega) (fun x hx hxi => hno x hx (by omega)) (by omega)

/-- Without a match it ends at the lower bound, or goes round the end of the address space. -/
theorem scan_missed (hi : i < 2 ^ 19) (hpi : p ≤ i)
    (hno : ∀ x, p ≤ x → x ≤ i → ∃ c, r.contents[x]? = some c ∧ c ≠ r.ipehr)
    (hfuel : i + 1 < p + fuel) :
    r.scan (BitVec.ofNat 32 (4 * p)) fuel (BitVec.ofNat 32 (4 * i)) =
      some (if p = 0 then .outside else .returns none) := by
  induction i, hpi using Nat.le_induction generalizing fuel with
  | base =>
    obtain ⟨fuel, rfl⟩ : ∃ k, fuel = k + 2 := ⟨fuel - 2, by omega⟩
    obtain ⟨c, hc, hne⟩ := hno p le_rfl le_rfl
    rw [scan, read_ofNat hi, hc]
    dsimp only
    rw [if_neg hne]
    by_cases hp : p = 0
    · have hout : r.contents[(BitVec.ofNat 32 (4 * 0) - 4).toNat / 4]? = none :=
        List.getElem?_eq_none (r.le.trans (by decide))
      rw [if_pos hp, hp, if_neg (by decide), scan, read, hout]
    · obtain ⟨p, rfl⟩ := Nat.exists_eq_succ_of_ne_zero hp
      rw [if_neg hp, back_one hi, if_pos ((back_lt (by omega) hi).mpr p.lt_succ_self)]
  | succ i hpi ih =>
    obtain ⟨fuel, rfl⟩ : ∃ k, fuel = k + 1 := ⟨fuel - 1, by omega⟩
    obtain ⟨c, hc, hne⟩ := hno (i + 1) (by omega) le_rfl
    have hge : ¬BitVec.ofNat 32 (4 * i) < BitVec.ofNat 32 (4 * p) := by
      rw [back_lt (by omega) (by omega)]
      omega
    rw [scan, read_ofNat hi, hc]
    dsimp only
    rw [if_neg hne, back_one hi, if_neg hge]
    exact ih (by omega) (fun x hx hxi => hno x hx (by omega)) (by omega)

/-- More fuel changes nothing. -/
theorem scan_mono {m acthd : Dword} {x : Result (Option Dword)} (h : r.scan m fuel acthd = some x)
    (k : ℕ) : r.scan m (fuel + k) acthd = some x := by
  induction fuel generalizing acthd with
  | zero => cases h
  | succ fuel ih =>
    rw [Nat.add_right_comm]
    unfold scan at h ⊢
    split at h
    · exact h
    · split_ifs at h ⊢
      · exact h
      · exact h
      · exact ih h

theorem waitsFor_mono {x : Result (Option (RingId × Seqno))}
    (h : r.semaphoreWaitsFor ring fuel = some x) (k : ℕ) :
    r.semaphoreWaitsFor ring (fuel + k) = some x := by
  unfold semaphoreWaitsFor at h ⊢
  split_ifs at h ⊢
  · exact h
  · obtain ⟨y, hy, rfl⟩ := Option.map_eq_some_iff.mp h
    rw [scan_mono hy k]
    rfl

/-- The last match at or before the head decides what a ring that waits comes to. -/
theorem waitsFor_found (hw : r.Waits) (hlen : r.index < r.contents.length)
    (hq : r.contents[q]? = some r.ipehr) (hqi : q ≤ r.index) (hqmin : r.index ≤ q + 3)
    (hno : ∀ x, q < x → x ≤ r.index → r.contents[x]? ≠ some r.ipehr) (hfuel : 3 < fuel) :
    r.semaphoreWaitsFor ring fuel =
      some (r.report ring (.returns (some (BitVec.ofNat 32 (4 * q))))) := by
  have hscan := r.scan_found (p := r.index - 3) r.index_lt hq hqi (by omega)
    (fun x hqx hxi => ⟨_, List.getElem?_eq_getElem (by omega), fun heq =>
      hno x hqx hxi (heq ▸ List.getElem?_eq_getElem (by omega))⟩) (by omega : r.index < q + fuel)
  have hw' : ¬r.ipehr &&& ~~~0x30000 ≠ semaphoreWait := not_not.mpr hw
  rw [semaphoreWaitsFor, if_neg hw', acthdMin_eq, head_eq, hscan]
  rfl

theorem report_ofNat {w : Dword} (hq : q < 2 ^ 19) (hw : r.contents[q + 1]? = some w) :
    r.report ring (.returns (some (BitVec.ofNat 32 (4 * q)))) =
      .returns (some (.ofIndex ((ring.id + ((r.ipehr >>> 17 &&& 1).toNat + 1)) % 3), w + 1)) := by
  have hread : r.read ((BitVec.ofNat 32 (4 * q)).toNat + 4) = some w := by
    rw [← hw, read, BitVec.toNat_ofNat]
    congr 1
    omega
  rw [report, hread]

/-- The command found is the last dword of the ring. -/
theorem report_end (hq : q < 2 ^ 19) (hw : r.contents[q + 1]? = none) :
    r.report ring (.returns (some (BitVec.ofNat 32 (4 * q)))) = .outside := by
  have hread : r.read ((BitVec.ofNat 32 (4 * q)).toNat + 4) = none := by
    rw [← hw, read, BitVec.toNat_ofNat]
    congr 1
    omega
  rw [report, hread]

theorem waitsFor_missed (hw : r.Waits) (hlen : r.index < r.contents.length)
    (hno : ∀ x, r.index ≤ x + 3 → x ≤ r.index → r.contents[x]? ≠ some r.ipehr)
    (hfuel : 4 < fuel) :
    r.semaphoreWaitsFor ring fuel = some (if r.index < 4 then .outside else .returns none) := by
  have hscan := r.scan_missed r.index_lt (Nat.sub_le r.index 3)
    (fun x hqx hxi => ⟨_, List.getElem?_eq_getElem (by omega), fun heq =>
      hno x (by omega) hxi (heq ▸ List.getElem?_eq_getElem (by omega))⟩)
    (by omega : r.index + 1 < r.index - 3 + fuel)
  have hw' : ¬r.ipehr &&& ~~~0x30000 ≠ semaphoreWait := not_not.mpr hw
  rw [semaphoreWaitsFor, if_neg hw', acthdMin_eq, head_eq, hscan]
  by_cases hi : r.index < 4
  · rw [if_pos hi, if_pos (by omega)]
    rfl
  · rw [if_neg hi, if_neg (by omega)]
    rfl

theorem exists_last_match (h : ∃ q, r.index ≤ q + 3 ∧ q ≤ r.index ∧ r.contents[q]? = some r.ipehr) :
    ∃ q, r.index ≤ q + 3 ∧ q ≤ r.index ∧ r.contents[q]? = some r.ipehr ∧
      ∀ x, q < x → x ≤ r.index → r.contents[x]? ≠ some r.ipehr := by
  obtain ⟨q, hmin, hqi, hq⟩ := h
  refine ⟨Nat.findGreatest (fun x => r.contents[x]? = some r.ipehr) r.index, ?_,
    Nat.findGreatest_le _, Nat.findGreatest_spec (P := fun x => r.contents[x]? = some r.ipehr) hqi hq,
    fun x hx hxi => Nat.findGreatest_is_greatest hx hxi⟩
  exact hmin.trans (Nat.add_le_add_right (Nat.le_findGreatest hqi hq) 3)

theorem waitsFor_of_inside (h : r.Inside) (ring : RingId) (hfuel : 4 < fuel) :
    ∃ x, r.semaphoreWaitsFor ring fuel = some (.returns x) := by
  by_cases hw : r.Waits
  · obtain ⟨hlen, hend, hfew⟩ := h hw
    have hlt := r.index_lt
    by_cases hex : ∃ q, r.index ≤ q + 3 ∧ q ≤ r.index ∧ r.contents[q]? = some r.ipehr
    · obtain ⟨q, hqmin, hqi, hq, hno⟩ := exists_last_match hex
      have hnext : q + 1 < r.contents.length := by
        rcases hqi.lt_or_eq with hlt' | rfl
        · omega
        · exact lt_of_le_of_ne hlen fun heq => hend heq hq
      rw [waitsFor_found hw hlen hq hqi hqmin hno (by omega),
        report_ofNat (by omega) (List.getElem?_eq_getElem hnext)]
      exact ⟨_, rfl⟩
    · rw [waitsFor_missed hw hlen (fun x hmin hxi hx => hex ⟨x, hmin, hxi, hx⟩) hfuel, if_neg ?_]
      · exact ⟨_, rfl⟩
      · intro hi
        obtain ⟨q, hqi, hq⟩ := hfew hi
        exact hex ⟨q, by omega, hqi, hq⟩
  · exact ⟨none, if_pos hw⟩

theorem inside_of_waitsFor {x : Option (RingId × Seqno)}
    (h : r.semaphoreWaitsFor ring fuel = some (.returns x)) : r.Inside := by
  intro hw
  replace h := waitsFor_mono h 5
  have hlen : r.index < r.contents.length := by
    by_contra hge
    have hread : r.read (BitVec.ofNat 32 (4 * r.index)).toNat = none := by
      rw [read_ofNat r.index_lt, List.getElem?_eq_none (not_lt.mp hge)]
    have hw' : ¬r.ipehr &&& ~~~0x30000 ≠ semaphoreWait := not_not.mpr hw
    rw [semaphoreWaitsFor, if_neg hw', head_eq, scan, hread] at h
    cases h
  refine ⟨hlen, fun hend hq => ?_, fun hi => ?_⟩
  · rw [waitsFor_found hw hlen hq le_rfl (by omega) (fun x hx hxi => absurd hxi (not_le.mpr hx))
      (by omega), report_end r.index_lt (List.getElem?_eq_none hend.ge)] at h
    cases h
  · by_contra hno
    rw [waitsFor_missed hw hlen (fun x _ hxi hx => hno ⟨x, hxi, hx⟩) (by omega), if_pos hi] at h
    cases h

/-! ### Commands of gen6_ring_sync -/

theorem header_waits (signaller ring : RingId) :
    semaphoreHeader signaller ring &&& ~~~0x30000 = semaphoreWait := by
  cases signaller <;> cases ring <;> decide

theorem header_tells (hne : signaller ≠ ring) :
    RingId.ofIndex ((ring.id + ((semaphoreHeader signaller ring >>> 17 &&& 1).toNat + 1)) % 3) =
      signaller ↔ Told ring signaller := by
  cases signaller <;> cases ring <;> first | exact absurd rfl hne | decide

/-- What is reported for a command that the ring is stuck on. -/
theorem StuckOn.waitsFor (h : r.StuckOn ring signaller lastSeqno seqno p) (hfuel : 3 < fuel) :
    r.semaphoreWaitsFor ring fuel = some (.returns (some
      (.ofIndex ((ring.id + ((semaphoreHeader signaller ring >>> 17 &&& 1).toNat + 1)) % 3),
        if seqno - 1 = r.ipehr ∧ r.index ≠ p then 1 else seqno))) := by
  obtain ⟨-, hwaits, ⟨rest, hrest⟩, hheader, hhead⟩ := h
  rw [gen6RingSync, if_neg hwaits, ← hheader] at hrest
  have hw : r.Waits := by
    rw [Waits, hheader]
    exact header_waits signaller ring
  have hget : ∀ k, r.contents[p + k]? = (r.ipehr :: (seqno - 1) :: 0 :: miNoop :: rest)[k]? := by
    intro k
    rw [← List.getElem?_drop, ← hrest]
    rfl
  have h₀ : r.contents[p]? = some r.ipehr := hget 0
  have h₁ : r.contents[p + 1]? = some (seqno - 1) := hget 1
  have h₂ : r.contents[p + 2]? = some 0 := hget 2
  have h₃ : r.contents[p + 3]? = some 0 := hget 3
  have hne : (0 : Dword) ≠ r.ipehr := by
    rw [hheader]
    cases signaller <;> cases ring <;> decide
  have hlen : r.index < r.contents.length := by
    have hlt := (List.getElem?_eq_some_iff.mp h₃).1
    omega
  have hlast : ∀ x, p + 1 < x → x ≤ r.index → r.contents[x]? ≠ some r.ipehr := by
    intro x hx hxi heq
    have hx' : x = p + 2 ∨ x = p + 3 := by omega
    rcases hx' with rfl | rfl
    · exact hne (Option.some.inj (h₂.symm.trans heq))
    · exact hne (Option.some.inj (h₃.symm.trans heq))
  have hlt := r.index_lt
  rw [← hheader]
  by_cases hsecond : seqno - 1 = r.ipehr ∧ r.index ≠ p
  · -- The dword behind the header looks like the header.
    rw [if_pos hsecond, waitsFor_found hw hlen (hsecond.1 ▸ h₁) (by omega) (by omega) hlast hfuel,
      report_ofNat (by omega) h₂]
    rfl
  · have hno : ∀ x, p < x → x ≤ r.index → r.contents[x]? ≠ some r.ipehr := by
      intro x hx hxi heq
      rcases (Nat.succ_le_of_lt hx).eq_or_lt with rfl | hx
      · exact hsecond ⟨Option.some.inj (h₁.symm.trans heq), by omega⟩
      · exact hlast x hx hxi heq
    rw [if_neg hsecond, waitsFor_found hw hlen h₀ hhead.1 (by omega) hno hfuel,
      report_ofNat (by omega) h₁, BitVec.sub_add_cancel]

theorem reported_iff : r.Reported ring ↔ r.Clear ring := by
  refine forall₄_congr fun signaller lastSeqno seqno p => forall_congr' fun h => ?_
  rw [← header_tells h.ne]
  constructor
  · rintro ⟨fuel, hf⟩
    have heq := waitsFor_mono hf 4
    rw [h.waitsFor (by omega)] at heq
    simp only [Option.some.injEq, Result.returns.injEq, Prod.mk.injEq] at heq
    refine ⟨heq.1, fun hs => by_contra fun hp => ?_⟩
    have hone := heq.2
    rw [if_pos ⟨hs, hp⟩] at hone
    rw [← hone, h.header] at hs
    exact absurd hs (by cases signaller <;> cases ring <;> decide)
  · rintro ⟨htold, hclear⟩
    refine ⟨4, ?_⟩
    rw [h.waitsFor (by decide), htold, if_neg fun hs => hs.2 (hclear hs.1)]

end HwRing

/-! ### Rings that wait for each other -/

def allRings : Finset RingId := {.rcs, .vcs, .bcs, .vecs}

theorem mem_allRings (ring : RingId) : ring ∈ allRings := by cases ring <;> decide

/-- A ring is looked at once only, so any chain of waits comes to an end. -/
theorem semaphorePassed_returns {rings : RingId → HwRing} (h : ∀ ring, (rings ring).Inside)
    (n : ℕ) (ring : RingId) (flagged : Finset RingId) (hn : (allRings \ flagged).card ≤ n)
    (hring : ring ∉ flagged) :
    ∃ v, semaphorePassed rings (n + 5) ring flagged = some (.returns v) := by
  induction n generalizing ring flagged with
  | zero =>
    have hempty := Finset.card_eq_zero.mp (Nat.le_zero.mp hn)
    exact absurd (Finset.mem_sdiff.mpr ⟨mem_allRings ring, hring⟩) (by simp [hempty])
  | succ n ih =>
    obtain ⟨x, hx⟩ := HwRing.waitsFor_of_inside (h ring) ring (by omega : 4 < n + 5)
    rw [semaphorePassed, hx, Option.bind_some]
    rcases x with _ | ⟨signaller, seqno⟩
    · exact ⟨-1, rfl⟩
    dsimp only
    split_ifs with hflag hctl
    · exact ⟨-1, rfl⟩
    · have hfewer : (allRings \ insert ring flagged).card ≤ n := by
        rw [Finset.sdiff_insert, Finset.card_erase_of_mem
          (Finset.mem_sdiff.mpr ⟨mem_allRings ring, hring⟩)]
        omega
      obtain ⟨v, hv⟩ := ih signaller (insert ring flagged) hfewer hflag
      rw [hv]
      exact ⟨_, rfl⟩
    · exact ⟨_, rfl⟩

/-- The analysis of every ring stays inside the rings and ends, and reports what a stuck ring
waits for, if and only if every ring is read right. -/
theorem semaphores_iff (rings : RingId → HwRing) :
    ((∀ ring, ∃ fuel x, (rings ring).semaphoreWaitsFor ring fuel = some (.returns x)) ∧
      (∀ ring, ∃ fuel v, semaphorePassed rings fuel ring ∅ = some (.returns v)) ∧
      ∀ ring, (rings ring).Reported ring) ↔
      ∀ ring, (rings ring).Inside ∧ (rings ring).Clear ring := by
  constructor
  · rintro ⟨hwaits, -, hreported⟩ ring
    obtain ⟨fuel, x, hx⟩ := hwaits ring
    exact ⟨HwRing.inside_of_waitsFor hx, HwRing.reported_iff.mp (hreported ring)⟩
  · intro h
    refine ⟨fun ring => ⟨5, HwRing.waitsFor_of_inside (h ring).1 ring (by decide)⟩, fun ring => ?_,
      fun ring => HwRing.reported_iff.mpr (h ring).2⟩
    obtain ⟨v, hv⟩ := semaphorePassed_returns (fun ring => (h ring).1) _ ring ∅ le_rfl
      (Finset.notMem_empty ring)
    exact ⟨_, v, hv⟩

/-- VECS is stuck on a wait for BCS. -/
def stuckVecs : HwRing where
  ipehr := semaphoreHeader .bcs .vecs
  acthd := 12
  ctl := ringWaitSemaphore
  seqno := 0
  contents := gen6RingSync 100 .vecs .bcs 5
  le := by decide

/-- The active head is in a batch, and its low bits are past the end of the ring. -/
def strayHead : HwRing where
  ipehr := semaphoreHeader .vcs .rcs
  acthd := 0x100
  ctl := ringWaitSemaphore
  seqno := 0
  contents := gen6RingSync 100 .rcs .vcs 5
  le := by decide

/-- VCS is reported for BCS, and a head that is not in the ring is followed. -/
theorem semaphores_misread :
    (stuckVecs.StuckOn .vecs .bcs 100 5 0 ∧
      stuckVecs.semaphoreWaitsFor .vecs 4 = some (.returns (some (.vcs, 5)))) ∧
    strayHead.semaphoreWaitsFor .rcs 1 = some .outside :=
  ⟨⟨⟨by decide, by decide, ⟨[], by decide⟩, rfl, by decide⟩, by decide⟩, by decide⟩

end GfxDrm.Hangcheck
