import GfxDrm.RingBuffer.Writes
import Mathlib.Data.Nat.Bitwise

/-! Runs of a ring buffer: it is safe if its size is a power of two, and only then. -/

namespace GfxDrm.RingBuffer
open I915 (Seqno seqnoPassed)
open Errno Run

namespace IntelRingBuffer
variable {r r' : IntelRingBuffer} {c x : ℕ}

/-! ### The steps -/

theorem Inv.begin {n : ℕ} {add : Bool} {o : BeginOutcome} (h : r.Inv c x)
    (hs : r.step (.begin n add o) = some r') : ∃ c', r'.Inv c' x := by
  simp only [step, Option.ite_none_right_eq_some] at hs
  obtain ⟨⟨hr, -⟩, hs⟩ := hs
  obtain ⟨⟨ret, s⟩, hbegin, hs⟩ := Option.map_eq_some_iff.mp hs
  have hfirst : Inv { r with adding := none } c x :=
    h.noted ⟨h.listed.four, h.listed.filled, h.listed.slot, h.listed.sorted, h.listed.leading,
      h.listed.seqno, ⟨h.listed.signalled.inOrder, h.listed.signalled.passed⟩⟩
      (h.last.imp_right (Exists.imp fun _ hl => ⟨hl.slot, hl.four, hl.le, hl.drained,
        hl.requests, fun _ h' => by cases h'⟩)) fun _ h' => by cases h'
  cases hfirst.intelRingBegin hr rfl hbegin with
  | failed hret hinv =>
    rw [if_pos hret] at hs
    obtain rfl : s = r' := hs
    exact ⟨_, hinv⟩
  | reserved hret hinv hwithin hspace hend heq =>
    subst hret heq
    rw [← hs]
    refine ⟨_, hinv.reserve (hwithin.reserved.trans hr) hspace hend ?_⟩
    intro b hb
    obtain ⟨-, rfl⟩ : add = true ∧ (r.tail, 4 * r.written.length) = b := by
      simpa using hb
    refine ⟨?_, Nat.dvd_mul_right 4 _, h.laid.le_filled, hwithin.filled, fun q' hq' => ?_⟩
    · rw [hwithin.size]
      exact h.tail_eq hr
    · obtain ⟨q, hq, hpos⟩ := hwithin.requests q' hq'
      exact hpos.trans_le (h.listed.filled q hq)

theorem Inv.emit {data : Dword} {k : ℕ} (h : r.Inv c x) (hr : r.reserved = some (k + 1)) :
    Inv { r.intelRingEmit data with reserved := some k } c x := by
  have hend := h.opened (k + 1) hr
  have hfilled := filled_put r r.tail data
  have hlt := h.filled_lt
  have htail : r.tail = r.filled % r.size := by
    rw [← h.tail, Nat.mod_eq_of_lt (by omega)]
  have hput := h.laid.put htail hlt data
  have hpromised : r.promised = 4 * (k + 1) := by simp [promised, hr]
  have hgap := h.gap
  have hle := h.space_le
  have hdrained := h.le_drained
  have hnext : (r.tail + 4) % r.size = (r.put r.tail data).filled % r.size := by
    rw [hfilled, ← Nat.mod_add_mod r.filled, ← htail]
  have hlt' : (r.put r.tail data).filled < r.drained + r.size := by
    unfold i915RingFreeSpace at hgap
    omega
  have hmoved := hput.moveTail hnext hlt'
  have hgap' : (r.put r.tail data).filled + 4 * k + i915RingFreeSpace ≤ c + r.size := by omega
  have hle' : r.space ≤ (c : ℤ) + r.size - i915RingFreeSpace -
      (r.put r.tail data).filled - (4 * k : ℕ) := by omega
  exact {
    laid := hmoved.noted ..
    listed := h.listed.more (w := (r.put r.tail data).written) (by simp [put]) _ _ _ _ _
    last := h.last.imp_right (Exists.imp fun _ hl => ⟨hl.slot, hl.four, hl.le, hl.drained,
      hl.requests, hl.adding⟩)
    adding := fun a ha => ⟨(h.adding a ha).slot, (h.adding a ha).four, (h.adding a ha).le,
      (h.adding a ha).filled.trans (hfilled ▸ Nat.le_add_right _ 4), (h.adding a ha).requests⟩
    effective := h.effective
    tail := hnext
    closed := fun h' => by cases h'
    opened := by
      rintro _ ⟨⟩
      exact hend.trans' (by simp only [intelRingEmit, moveTail]; omega)
    head := h.head
    le_drained := hdrained
    gap := hgap'
    space_nonneg := h.space_nonneg
    space_le := hle' }

theorem Inv.advance (h : r.Inv c x) (hr : r.reserved = some 0) (stopped : Bool) :
    ∃ x', Inv { r.intelRingAdvance stopped with reserved := none } c x' := by
  have hmask : r.tail &&& (r.size - 1) = r.filled % r.size := by
    obtain ⟨k, -, -, hk⟩ := h.laid.size
    rw [← h.tail, hk, Nat.and_two_pow_sub_one_eq_mod]
  have hmoved := h.laid.moveTail (t := r.tail &&& (r.size - 1))
    (by rw [hmask, Nat.mod_mod]) h.filled_lt
  have hpromised : r.promised = 0 := by simp [promised, hr]
  have hlt := Nat.mod_lt r.filled h.laid.size_pos
  have hinv : ∀ s x', s.Laid x' → s = { r.intelRingAdvance stopped with reserved := none } →
      s.Inv c x' := by
    intro s x' hlaid hs
    have hframe : s = { r with
        tail := r.tail &&& (r.size - 1)
        regTail := s.regTail
        caught := s.caught
        reserved := none } := by
      subst hs
      cases stopped <;> rfl
    rw [hframe] at hlaid ⊢
    exact {
      laid := hlaid
      listed := ⟨h.listed.four, h.listed.filled, h.listed.slot, h.listed.sorted,
        h.listed.leading, h.listed.seqno,
        ⟨h.listed.signalled.inOrder, h.listed.signalled.passed⟩⟩
      last := h.last.imp_right (Exists.imp fun _ hl => ⟨hl.slot, hl.four, hl.le, hl.drained,
        hl.requests, hl.adding⟩)
      adding := fun a ha => ⟨(h.adding a ha).slot, (h.adding a ha).four, (h.adding a ha).le,
        (h.adding a ha).filled, (h.adding a ha).requests⟩
      effective := h.effective
      tail := by
        rw [hmask, Nat.mod_mod]
        rfl
      closed := fun _ => hmask.trans_lt hlt
      opened := fun _ h' => by cases h'
      head := h.head
      le_drained := h.le_drained
      gap := h.gap.trans' (by rw [hpromised]; rfl)
      space_nonneg := h.space_nonneg
      space_le := h.space_le.trans (by rw [hpromised]; rfl) }
  cases stopped with
  | true =>
    exact ⟨x, hinv _ x (hmoved.noted ..) rfl⟩
  | false =>
    exact ⟨r.filled, hinv _ r.filled ⟨hmoved.size, hmoved.offset, hmoved.regHead, hmask,
      hmoved.drained_le.trans hmoved.le_filled, le_rfl, hmoved.kept, hmoved.apart⟩ rfl⟩

theorem Inv.listRequest {a : ℕ × ℕ} (h : r.Inv c x) (ha : r.adding = some a)
    (holr : r.outstandingLazyRequest ≠ 0) (hsig : (r.listRequest a.1 a.2).Signalled) :
    (r.listRequest a.1 a.2).Inv c x := by
  have hadd := h.adding a ha
  have hmem : ∀ {P : Request → Prop}, (∀ q ∈ r.requestList, P q) →
      P ⟨r.outstandingLazyRequest, a.1, a.2⟩ →
      ∀ q ∈ (r.listRequest a.1 a.2).requestList, P q := by
    intro P hold hnew q hq
    rcases List.mem_append.mp hq with hq | hq
    · exact hold q hq
    · exact List.mem_singleton.mp hq ▸ hnew
  have hpair : ∀ {R : Request → Request → Prop}, r.requestList.Pairwise R →
      (∀ q ∈ r.requestList, R q ⟨r.outstandingLazyRequest, a.1, a.2⟩) →
      (r.listRequest a.1 a.2).requestList.Pairwise R := fun hold hnew =>
    List.pairwise_append.mpr ⟨hold, List.pairwise_singleton _ _, fun q hq q' hq' =>
      List.mem_singleton.mp hq' ▸ hnew q hq⟩
  exact {
    laid := ⟨h.laid.size, h.laid.offset, h.laid.regHead, h.laid.regTail, h.laid.drained_le,
      h.laid.le_filled, h.laid.kept, h.laid.apart⟩
    listed := {
      four := hmem h.listed.four hadd.four
      filled := hmem h.listed.filled hadd.filled
      slot := hmem h.listed.slot fun _ => ⟨hadd.slot, hadd.le⟩
      sorted := hpair h.listed.sorted hadd.requests
      leading := hpair h.listed.leading fun q _ ht =>
        absurd (hadd.slot.symm.trans ht) (h.laid.mod_ne_taken a.2)
      seqno := hmem (fun q hq => ⟨(h.listed.seqno q hq).1, (h.listed.seqno q hq).1⟩) ⟨holr, holr⟩
      signalled := hsig }
    last := h.last.imp_right (Exists.imp fun _ hl => ⟨hl.slot, hl.four, hl.le, hl.drained,
      hmem hl.requests fun _ => hl.adding a ha, fun _ h' => by cases h'⟩)
    adding := fun _ h' => by cases h'
    effective := h.effective
    tail := h.tail
    closed := h.closed
    opened := h.opened
    head := h.head
    le_drained := h.le_drained
    gap := h.gap
    space_nonneg := h.space_nonneg
    space_le := h.space_le }

theorem Inv.step {e : RingEvent} (h : r.Inv c x) (hs : r.step e = some r') :
    ∃ c' x', r'.Inv c' x' := by
  cases e with
  | begin n add o =>
    obtain ⟨c', h'⟩ := h.begin hs
    exact ⟨c', x, h'⟩
  | emit data =>
    simp only [IntelRingBuffer.step] at hs
    split at hs
    case h_1 k hk =>
      cases hs
      exact ⟨c, x, h.emit hk⟩
    case h_2 => cases hs
  | advance stopped =>
    simp only [IntelRingBuffer.step, Option.ite_none_right_eq_some, Option.some.injEq] at hs
    obtain ⟨hr, rfl⟩ := hs
    exact ⟨c, h.advance hr stopped⟩
  | listRequest =>
    simp only [IntelRingBuffer.step] at hs
    split at hs
    case h_1 tail position ha =>
      simp only [Option.ite_none_right_eq_some, Option.some.injEq] at hs
      obtain ⟨⟨-, holr, hsig⟩, rfl⟩ := hs
      exact ⟨c, x, h.listRequest ha holr hsig⟩
    case h_2 => cases hs
  | retire =>
    cases hs
    exact ⟨c, x, h.retire⟩
  | gpu p => exact ⟨c, x, (h.gpu hs).1⟩

theorem Inv.safe (h : r.Inv c x) : r.Safe where
  kept := h.laid.kept
  inside w hw := by
    obtain ⟨i, hi, rfl⟩ := List.mem_iff_getElem.mp hw
    have hlt := Nat.mod_lt (4 * i) h.laid.size_pos
    have hfour := (Nat.dvd_mod_iff h.laid.four_dvd_size).mpr (Nat.dvd_mul_right 4 i)
    have hsize := h.laid.four_dvd_size
    rw [h.laid.offset i hi]
    omega
  space := by
    have hle := h.space_le
    have hdrained := h.le_drained
    unfold filled promised at hle
    unfold drained at hdrained
    omega
  apart := h.laid.apart

end IntelRingBuffer

open IntelRingBuffer

variable {s : RingSize} {i830 : Bool} {r : IntelRingBuffer}

theorem RingSize.page_le (s : RingSize) : 4096 ≤ s.bytes := by
  have := s.pos
  unfold RingSize.bytes
  omega

theorem spaceTo_start (s : RingSize) : spaceTo s.bytes 0 0 = s.bytes - 64 := by
  unfold spaceTo i915RingFreeSpace
  omega

theorem initial_inv {k : ℕ} (hk : s.pages = 2 ^ k) (seqno : Seqno) :
    (initialRing s i830 seqno).Inv 0 0 := by
  have hpage := s.page_le
  have hspace := spaceTo_start s
  have hsize : s.bytes = 2 ^ (12 + k) := by
    rw [RingSize.bytes, hk, Nat.pow_add]
  have hle : k ≤ 9 := (Nat.pow_le_pow_iff_right (by decide : 1 < 2)).mp (hk ▸ s.le)
  exact {
    laid := ⟨⟨12 + k, by omega, by omega, hsize⟩, fun i hi => absurd hi (Nat.not_lt_zero i),
      (Nat.zero_and _).trans (Nat.zero_mod _).symm, (Nat.zero_mod _).symm, le_rfl, le_rfl, rfl,
      rfl⟩
    listed := ⟨by simp [initialRing], by simp [initialRing], by simp [initialRing], .nil, .nil,
      by simp [initialRing], ⟨.nil, by simp [initialRing]⟩⟩
    last := .inl rfl
    adding := fun _ h' => by cases h'
    effective := by cases i830 <;> simp [initialRing]
    tail := rfl
    closed := fun _ => hpage.trans_lt' (by decide : 0 < 4096)
    opened := fun _ h' => by cases h'
    head := (Nat.zero_and _).trans (Nat.zero_mod _).symm
    le_drained := le_rfl
    gap := by
      change 0 + 0 + 64 ≤ 0 + s.bytes
      omega
    space_nonneg := by
      change 0 ≤ spaceTo s.bytes 0 0
      omega
    space_le := by
      change spaceTo s.bytes 0 0 ≤ ((0 : ℕ) : ℤ) + s.bytes - (64 : ℕ) - (0 : ℕ) - (0 : ℕ)
      omega }

/-- In every run of a ring whose size is a power of two the invariant holds. -/
theorem ring_inv {k : ℕ} (hk : s.pages = 2 ^ k) (h : Reach (ringSystem s i830) r) :
    ∃ c x, r.Inv c x := by
  refine h.invariant (I := fun r => ∃ c x, r.Inv c x) ?_ ?_
  · rintro _ ⟨seqno, rfl⟩
    exact ⟨0, 0, initial_inv hk seqno⟩
  · rintro r e r' ⟨c, x, hinv⟩ - hstep
    exact hinv.step hstep

/-! ### Sizes that are no power of two -/

/-- The ring after the first dwords of a caller. -/
structure Filling (r : IntelRingBuffer) (s : RingSize) (done left : ℕ) : Prop where
  size : r.size = s.bytes
  tail : r.tail = 4 * done
  reserved : r.reserved = some left
  regHead : r.regHead = 0
  consumed : r.consumed = 0
  written : r.written.length = done

/-- A GPU that has done nothing, of which the driver only needs the next seqno. -/
def idleGpu : BeginOutcome where
  seqno := { nextSeqno := 1, idle := { head := 0, seqno := 0 } }
  wrap := ⟨{ head := 0, seqno := 0 }, { head := 0, seqno := 0 }, []⟩
  space := ⟨{ head := 0, seqno := 0 }, { head := 0, seqno := 0 }, []⟩

theorem filling_begin (i830 : Bool) {n : ℕ} (hn : n * 4 + 128 ≤ s.bytes)
    (hint : n * 4 < 2 ^ 31) :
    ∃ r, Reach (ringSystem s i830) r ∧ Filling r s 0 n := by
  have hspace := spaceTo_start s
  obtain ⟨r, hr⟩ : ∃ r, r = { initialRing s i830 0 with outstandingLazyRequest := 1 } := ⟨_, rfl⟩
  have hfits : ¬r.effectiveSize < r.tail + n * 4 := by
    subst hr
    cases i830 <;> simp only [initialRing, if_true, Bool.false_eq_true, if_false] <;> omega
  have henough : ¬r.space < (n * 4 : ℕ) := by
    rw [show r.space = spaceTo s.bytes 0 0 by rw [hr]; rfl]
    omega
  have hbegin : r.ringBegin idleGpu (n * 4) =
      some (0, { r with space := r.space - (n * 4 : ℕ) }) := by
    unfold ringBegin
    rw [if_neg hfits]
    simp only [Option.bind_some, ne_eq, not_true_eq_false, if_false, ensureSpace, if_neg henough,
      Option.map_some]
  have halloc : (initialRing s i830 0).intelRingAllocSeqno idleGpu.seqno = some (0, r) := by
    rw [hr]
    rfl
  have hstep : (initialRing s i830 0).step (.begin n false idleGpu) =
      some { r with space := r.space - (n * 4 : ℕ), reserved := some n } := by
    have hcall : (initialRing s i830 0).intelRingBegin idleGpu n =
        some (0, { r with space := r.space - (n * 4 : ℕ) }) := by
      unfold intelRingBegin
      simp only [idleGpu] at halloc hbegin ⊢
      rw [halloc]
      simpa only [Option.bind_some, ne_eq, not_true_eq_false, if_false] using hbegin
    refine (if_pos (And.intro rfl hint)).trans ((congrArg (Option.map _) hcall).trans ?_)
    rw [hr]
    rfl
  have hinit : Reach (ringSystem s i830) (initialRing s i830 0) := .init ⟨0, rfl⟩
  refine ⟨_, hinit.step trivial hstep, ?_⟩
  subst hr
  exact ⟨rfl, rfl, rfl, rfl, rfl, rfl⟩

theorem filling_emit {done left : ℕ} (hr : Reach (ringSystem s i830) r)
    (hf : Filling r s done left) :
    ∃ r, Reach (ringSystem s i830) r ∧ Filling r s (done + left) 0 := by
  induction left generalizing r done with
  | zero => exact ⟨r, hr, hf⟩
  | succ left ih =>
    have hstep : r.step (.emit 0) = some { r.intelRingEmit 0 with reserved := some left } := by
      simp only [IntelRingBuffer.step, hf.reserved]
    obtain ⟨r', hr', hf'⟩ := @ih _ (done + 1) (hr.step trivial hstep) {
      size := hf.size
      tail := by
        simp only [intelRingEmit, moveTail, hf.tail]
        omega
      reserved := rfl
      regHead := hf.regHead
      consumed := hf.consumed
      written := by simp [intelRingEmit, moveTail, put, hf.written] }
    exact ⟨r', hr', (show done + (left + 1) = done + 1 + left by omega) ▸ hf'⟩

/-- A caller that fills the buffer up to a bit the mask clears finds the tail at the head. -/
theorem ring_unsafe (i830 : Bool) (hpow : ∀ k, s.pages ≠ 2 ^ k) :
    ∃ r, Reach (ringSystem s i830) r ∧ ¬r.Safe := by
  have hpage := s.page_le
  have hpow' : ∀ k, s.bytes ≠ 2 ^ k := by
    intro k hk
    have hle : 12 ≤ k := by
      by_contra hlt
      have := Nat.pow_lt_pow_right (by decide : 1 < 2) (not_le.mp hlt)
      omega
    refine hpow (k - 12) (Nat.eq_of_mul_eq_mul_left (by decide : 0 < 4096) ?_)
    rw [← RingSize.bytes, hk, show 4096 = 2 ^ 12 by decide, ← Nat.pow_add,
      Nat.add_sub_cancel' hle]
  obtain ⟨b, hclear, hb⟩ := BitField.exists_clear_bit (by omega) hpow'
  have hlow : 2 ≤ b := by
    by_contra hlt
    have hones : (s.bytes - 1) % 4 = 3 := by
      unfold RingSize.bytes at hpage ⊢
      omega
    have hbit : (s.bytes - 1).testBit b = ((s.bytes - 1) % 2 ^ 2).testBit b := by
      rw [Nat.testBit_mod_two_pow, decide_eq_true (not_le.mp hlt), Bool.true_and]
    rw [show (2 : ℕ) ^ 2 = 4 from rfl, hones] at hbit
    obtain rfl | rfl : b = 0 ∨ b = 1 := by omega
    · rw [hbit] at hclear
      exact absurd hclear (by decide)
    · rw [hbit] at hclear
      exact absurd hclear (by decide)
  have hsize : s.bytes ≤ 2 ^ 21 := by
    have := s.le
    unfold RingSize.bytes
    omega
  obtain ⟨n, hn⟩ : ∃ n, 2 ^ b = 4 * n := Nat.pow_dvd_pow 2 hlow
  obtain ⟨r, hr, hf⟩ := filling_begin i830 (s := s) (n := n) (by omega) (by omega)
  obtain ⟨r, hr, hf⟩ := filling_emit hr hf
  rw [Nat.zero_add] at hf
  refine ⟨_, hr.step (a := .advance false) trivial (if_pos hf.reserved), fun hsafe => ?_⟩
  have hzero : r.tail &&& (r.size - 1) = 0 := by
    rw [hf.tail, ← hn, hf.size, Nat.two_pow_and, hclear, Bool.toNat_false, Nat.mul_zero]
  have hpos : 0 < n := by
    have := Nat.two_pow_pos b
    omega
  have hcaught : (r.moveTail (r.tail &&& (r.size - 1))).caught = true := by
    rw [hzero]
    simp only [moveTail, headOffset, hf.regHead, hf.consumed, hf.written, Nat.zero_mod,
      Nat.zero_and, hpos, true_and, decide_true, Bool.or_true]
  exact absurd (hcaught.symm.trans hsafe.apart) (by decide)

/-- Three pages. -/
def threePages : RingSize := ⟨3, by decide, by decide⟩

end GfxDrm.RingBuffer
