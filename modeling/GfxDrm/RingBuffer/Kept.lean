import GfxDrm.Lib.Word
import GfxDrm.RingBuffer.Defs

/-! The invariant of a ring buffer whose size is a power of two. Positions count the bytes written
since the start, so that the buffer's offsets are positions modulo its size. -/

namespace GfxDrm.RingBuffer
open I915 (Seqno seqnoPassed)
open Errno

namespace IntelRingBuffer

def filled (r : IntelRingBuffer) : ℕ := 4 * r.written.length
def drained (r : IntelRingBuffer) : ℕ := 4 * r.consumed
def promised (r : IntelRingBuffer) : ℕ := 4 * r.reserved.getD 0

/-- The memory and the registers; the tail register is at position `x`. -/
structure Laid (r : IntelRingBuffer) (x : ℕ) : Prop where
  size : ∃ k, 12 ≤ k ∧ k ≤ 21 ∧ r.size = 2 ^ k
  offset : ∀ i (h : i < r.written.length), r.written[i].1 = 4 * i % r.size
  regHead : r.headOffset = r.drained % r.size
  regTail : r.regTail = x % r.size
  drained_le : r.drained ≤ x
  le_filled : x ≤ r.filled
  kept : r.overwritten = []
  apart : r.caught = false

/-- The requests, when the cached head is at position `c`. -/
structure Listed (r : IntelRingBuffer) (c : ℕ) : Prop where
  four : ∀ q ∈ r.requestList, 4 ∣ q.position
  filled : ∀ q ∈ r.requestList, q.position ≤ r.filled
  slot : ∀ q ∈ r.requestList, q.tail ≠ taken → q.tail = q.position % r.size ∧ c ≤ q.position
  sorted : r.requestList.Pairwise fun q q' => q.position ≤ q'.position
  leading : r.requestList.Pairwise fun q q' => q'.tail = taken → q.tail = taken
  seqno : ∀ q ∈ r.requestList, q.seqno ≠ 0 ∧ q.seqno ≠ r.outstandingLazyRequest
  signalled : r.Signalled

/-- `last_retired_head` is at position `l`. -/
structure LastAt (r : IntelRingBuffer) (c l : ℕ) : Prop where
  slot : r.lastRetiredHead = l % r.size
  four : 4 ∣ l
  le : c ≤ l
  drained : l ≤ r.drained
  requests : ∀ q ∈ r.requestList, q.tail ≠ taken → l ≤ q.position
  adding : ∀ a ∈ r.adding, l ≤ a.2

/-- The position of a request that is being added. -/
structure AddingAt (r : IntelRingBuffer) (c : ℕ) (a : ℕ × ℕ) : Prop where
  slot : a.1 = a.2 % r.size
  four : 4 ∣ a.2
  le : c ≤ a.2
  filled : a.2 ≤ r.filled
  requests : ∀ q ∈ r.requestList, q.position ≤ a.2

/-- The cached head lies behind everything that may become the head: `last_retired_head`, the
tails of the requests that are not consumed, and the GPU's own. -/
structure Inv (r : IntelRingBuffer) (c x : ℕ) : Prop where
  laid : r.Laid x
  listed : r.Listed c
  last : r.lastRetiredHead = taken ∨ ∃ l, r.LastAt c l
  adding : ∀ a ∈ r.adding, r.AddingAt c a
  effective : r.effectiveSize ≤ r.size
  tail : r.tail % r.size = r.filled % r.size
  closed : r.reserved = none → r.tail < r.size
  opened : ∀ k ∈ r.reserved, r.tail + 4 * k ≤ r.size
  head : r.head &&& headAddr = c % r.size
  le_drained : c ≤ r.drained
  gap : r.filled + r.promised + i915RingFreeSpace ≤ c + r.size
  space_nonneg : 0 ≤ r.space
  space_le : r.space ≤ (c : ℤ) + r.size - i915RingFreeSpace - r.filled - r.promised

variable {r r' : IntelRingBuffer} {c x l : ℕ}

/-! ### What the driver notes -/

theorem Laid.noted (h : r.Laid x) (head tail last : ℕ) (space : ℤ) (lazy hws : Seqno)
    (list : List Request) (reserved : Option ℕ) (adding : Option (ℕ × ℕ)) :
    Laid { r with
      head := head
      tail := tail
      space := space
      lastRetiredHead := last
      outstandingLazyRequest := lazy
      requestList := list
      hwsSeqno := hws
      reserved := reserved
      adding := adding } x :=
  ⟨h.size, h.offset, h.regHead, h.regTail, h.drained_le, h.le_filled, h.kept, h.apart⟩

theorem LastAt.noted (h : r.LastAt c l) (lazy hws : Seqno) :
    LastAt { r with outstandingLazyRequest := lazy, hwsSeqno := hws } c l :=
  ⟨h.slot, h.four, h.le, h.drained, h.requests, h.adding⟩

theorem AddingAt.noted {a : ℕ × ℕ} (h : r.AddingAt c a) (last : ℕ) (lazy hws : Seqno) :
    AddingAt { r with
      lastRetiredHead := last
      outstandingLazyRequest := lazy
      hwsSeqno := hws } c a :=
  ⟨h.slot, h.four, h.le, h.filled, h.requests⟩

/-- The requests and what is known of them may change without the buffer. -/
theorem Inv.noted (h : r.Inv c x) {last : ℕ} {lazy hws : Seqno} {list : List Request}
    {adding : Option (ℕ × ℕ)}
    (hlisted : Listed { r with
      lastRetiredHead := last
      outstandingLazyRequest := lazy
      requestList := list
      hwsSeqno := hws
      adding := adding } c)
    (hlast : last = taken ∨ ∃ l, LastAt { r with
      lastRetiredHead := last
      outstandingLazyRequest := lazy
      requestList := list
      hwsSeqno := hws
      adding := adding } c l)
    (hadding : ∀ a ∈ adding, AddingAt { r with
      lastRetiredHead := last
      outstandingLazyRequest := lazy
      requestList := list
      hwsSeqno := hws
      adding := adding } c a) :
    Inv { r with
      lastRetiredHead := last
      outstandingLazyRequest := lazy
      requestList := list
      hwsSeqno := hws
      adding := adding } c x where
  laid := h.laid.noted ..
  listed := hlisted
  last := hlast
  adding := hadding
  effective := h.effective
  tail := h.tail
  closed := h.closed
  opened := h.opened
  head := h.head
  le_drained := h.le_drained
  gap := h.gap
  space_nonneg := h.space_nonneg
  space_le := h.space_le

/-! ### Offsets -/

theorem Laid.size_pos (h : r.Laid x) : 0 < r.size := by
  obtain ⟨k, -, -, hk⟩ := h.size
  exact hk ▸ Nat.two_pow_pos k

theorem Laid.size_le (h : r.Laid x) : r.size ≤ 2 ^ 21 := by
  obtain ⟨k, -, hle, hk⟩ := h.size
  exact hk ▸ Nat.pow_le_pow_right (by decide) hle

theorem Laid.four_dvd_size (h : r.Laid x) : 4 ∣ r.size := by
  obtain ⟨k, hk, -, e⟩ := h.size
  exact e ▸ Nat.pow_dvd_pow 2 (by omega : 2 ≤ k)

/-- The mask of the head register keeps the dwords' offsets as they are. -/
theorem and_headAddr {y : ℕ} (hy : y < 2 ^ 21) (h : 4 ∣ y) : y &&& headAddr = y := by
  rw [show headAddr = (2 ^ 19 - 1) <<< 2 by decide, BitField.and_mask]
  omega

theorem four_dvd_and_headAddr (y : ℕ) : 4 ∣ y &&& headAddr := by
  rw [show headAddr = (2 ^ 19 - 1) <<< 2 by decide, BitField.and_mask, Nat.shiftLeft_eq]
  exact Nat.dvd_mul_left 4 _

theorem Laid.mod_and (h : r.Laid x) {y : ℕ} (hy : 4 ∣ y) :
    (y % r.size) &&& headAddr = y % r.size :=
  and_headAddr ((Nat.mod_lt y h.size_pos).trans_le h.size_le)
    ((Nat.dvd_mod_iff h.four_dvd_size).mpr hy)

theorem Laid.mod_ne_taken (h : r.Laid x) (y : ℕ) : y % r.size ≠ taken := by
  have := (Nat.mod_lt y h.size_pos).trans_le h.size_le
  unfold taken
  omega

/-- The space worked out from the offsets is exact. -/
theorem spaceTo_eq {s w : ℕ} (hc : c ≤ w) (hw : w + i915RingFreeSpace ≤ c + s) :
    spaceTo s (w % s) (c % s) = (c : ℤ) + s - i915RingFreeSpace - w :=
  Wheel.room_eq hc hw (by decide)

theorem Inv.tail_eq (h : r.Inv c x) (hr : r.reserved = none) : r.tail = r.filled % r.size := by
  rw [← h.tail, Nat.mod_eq_of_lt (h.closed hr)]

theorem Inv.le_filled (h : r.Inv c x) : c ≤ r.filled :=
  h.le_drained.trans (h.laid.drained_le.trans h.laid.le_filled)

theorem Inv.filled_lt (h : r.Inv c x) : r.filled < r.drained + r.size := by
  have := h.gap
  have := h.le_drained
  unfold i915RingFreeSpace at *
  omega

/-! ### The GPU -/

/-- What a driver call leaves alone while it waits for the GPU; of the requests none is new. -/
structure Waited (r r' : IntelRingBuffer) : Prop where
  size : r'.size = r.size
  effectiveSize : r'.effectiveSize = r.effectiveSize
  tail : r'.tail = r.tail
  written : r'.written = r.written
  reserved : r'.reserved = r.reserved
  adding : r'.adding = r.adding
  requests : ∀ q' ∈ r'.requestList, ∃ q ∈ r.requestList, q'.position = q.position

theorem Waited.rfl' : r.Waited r :=
  ⟨rfl, rfl, rfl, rfl, rfl, rfl, fun q hq => ⟨q, hq, rfl⟩⟩

theorem Waited.trans {r'' : IntelRingBuffer} (h : r.Waited r') (h' : r'.Waited r'') :
    r.Waited r'' where
  size := h'.size.trans h.size
  effectiveSize := h'.effectiveSize.trans h.effectiveSize
  tail := h'.tail.trans h.tail
  written := h'.written.trans h.written
  reserved := h'.reserved.trans h.reserved
  adding := h'.adding.trans h.adding
  requests q'' hq'' := by
    obtain ⟨q', hq', e'⟩ := h'.requests q'' hq''
    obtain ⟨q, hq, e⟩ := h.requests q' hq'
    exact ⟨q, hq, e'.trans e⟩

theorem gpu_eq {p : Progress} (h : r.gpu p = some r') :
    r' = { r with
      regHead := p.head
      hwsSeqno := p.seqno
      consumed := r.consumed +
        Wheel.ahead r.size r.headOffset (p.head &&& headAddr) / 4 } ∧
    p.head &&& headAddr < r.size ∧
    Wheel.ahead r.size r.headOffset (p.head &&& headAddr) ≤
      Wheel.ahead r.size r.headOffset r.regTail ∧ r'.Signalled := by
  simp only [gpu, Option.ite_none_right_eq_some, Option.some.injEq] at h
  obtain ⟨⟨hlt, hle, hsig⟩, rfl⟩ := h
  exact ⟨rfl, hlt, hle, hsig⟩

theorem Laid.gpu {p : Progress} (h : r.Laid x) (hx : x < r.drained + r.size)
    (hg : r.gpu p = some r') : r'.Laid x ∧ r.drained ≤ r'.drained := by
  obtain ⟨rfl, hlt, hle, -⟩ := gpu_eq hg
  rw [h.regTail, h.regHead, Wheel.ahead_mod h.drained_le hx] at hle
  rw [h.regHead]
  have hfour : 4 ∣ Wheel.ahead r.size (r.drained % r.size) (p.head &&& headAddr) :=
    Wheel.dvd_ahead h.four_dvd_size
      ((Nat.dvd_mod_iff h.four_dvd_size).mpr (Nat.dvd_mul_right 4 _)) (four_dvd_and_headAddr _)
  have hto := Wheel.add_ahead_mod (a := r.drained) h.size_pos hlt
  have hdrained : 4 * (r.consumed +
      Wheel.ahead r.size (r.drained % r.size) (p.head &&& headAddr) / 4) =
      r.drained + Wheel.ahead r.size (r.drained % r.size) (p.head &&& headAddr) := by
    rw [Nat.mul_add, Nat.mul_div_cancel' hfour, drained]
  have hx' := h.drained_le
  refine ⟨⟨h.size, h.offset, ?_, h.regTail, ?_, h.le_filled, h.kept, h.apart⟩, ?_⟩
  · exact (hdrained ▸ hto).symm
  · exact hdrained.trans_le (by omega)
  · exact Nat.le.intro hdrained.symm

theorem Inv.gpu {p : Progress} (h : r.Inv c x) (hg : r.gpu p = some r') :
    r'.Inv c x ∧ r.Waited r' ∧ r'.requestList = r.requestList ∧
      r'.lastRetiredHead = r.lastRetiredHead := by
  obtain ⟨hlaid, hle⟩ := h.laid.gpu (h.laid.le_filled.trans_lt h.filled_lt) hg
  obtain ⟨rfl, -, -, hsig⟩ := gpu_eq hg
  refine ⟨⟨hlaid, ⟨h.listed.four, h.listed.filled, h.listed.slot, h.listed.sorted,
    h.listed.leading, h.listed.seqno, hsig⟩, h.last.imp_right fun ⟨l, hl⟩ => ⟨l, hl.slot, hl.four,
    hl.le, hl.drained.trans hle, hl.requests, hl.adding⟩, ?_, h.effective, h.tail, h.closed,
    h.opened, h.head, h.le_drained.trans hle, h.gap, h.space_nonneg, h.space_le⟩,
    ⟨rfl, rfl, rfl, rfl, rfl, rfl, fun q hq => ⟨q, hq, rfl⟩⟩, rfl, rfl⟩
  exact fun a ha => ⟨(h.adding a ha).slot, (h.adding a ha).four, (h.adding a ha).le,
    (h.adding a ha).filled, (h.adding a ha).requests⟩

/-! ### Retiring requests -/

theorem Listed.sublist (h : r.Listed c) (t : ℕ) {l' : List Request}
    (hs : l'.Sublist r.requestList) :
    Listed { r with lastRetiredHead := t, requestList := l' } c where
  four q hq := h.four q (hs.subset hq)
  filled q hq := h.filled q (hs.subset hq)
  slot q hq := h.slot q (hs.subset hq)
  sorted := h.sorted.sublist hs
  leading := h.leading.sublist hs
  seqno q hq := h.seqno q (hs.subset hq)
  signalled := ⟨h.signalled.inOrder.sublist hs, fun q hq => h.signalled.passed q (hs.subset hq)⟩

theorem retireUpTo_cases (seqno : Seqno) (last : ℕ) (list : List Request) :
    retireUpTo seqno last list = (last, list) ∨ ∃ l₁ q l₂, list = l₁ ++ q :: l₂ ∧
      seqnoPassed seqno q.seqno = true ∧ retireUpTo seqno last list = (q.tail, l₂) := by
  induction list generalizing last with
  | nil => exact .inl rfl
  | cons q list ih =>
    cases hq : seqnoPassed seqno q.seqno with
    | false =>
      left
      simp only [retireUpTo, hq, Bool.false_eq_true, if_false]
    | true =>
      right
      simp only [retireUpTo, hq]
      rcases ih q.tail with h | ⟨l₁, q', l₂, rfl, hq', h⟩
      · exact ⟨[], q, list, rfl, hq, h⟩
      · exact ⟨q :: l₁, q', l₂, rfl, hq', h⟩

/-- As they are signalled in order, all that are signalled are retired. -/
theorem retireUpTo_rest {seqno : Seqno} {list : List Request}
    (h : list.Pairwise fun q q' => seqnoPassed seqno q'.seqno = true →
      seqnoPassed seqno q.seqno = true) (last : ℕ) :
    ∀ q ∈ (retireUpTo seqno last list).2, seqnoPassed seqno q.seqno = false := by
  induction list generalizing last with
  | nil => simp [retireUpTo]
  | cons q list ih =>
    rw [List.pairwise_cons] at h
    cases hq : seqnoPassed seqno q.seqno with
    | true =>
      simp only [retireUpTo, hq]
      exact ih h.2 q.tail
    | false =>
      simp only [retireUpTo, hq, Bool.false_eq_true, if_false, List.mem_cons, forall_eq_or_imp,
        true_and]
      intro q' hq'
      by_contra hp
      exact absurd (h.1 q' hq' (Bool.eq_true_of_not_eq_false hp)) (by simp [hq])

theorem Inv.retired (h : r.Inv c x) {l₁ l₂ : List Request} {q : Request}
    (e : r.requestList = l₁ ++ q :: l₂) (hq : seqnoPassed r.hwsSeqno q.seqno = true) :
    Inv { r with lastRetiredHead := q.tail, requestList := l₂ } c x ∧ (q.tail ≠ taken →
      LastAt { r with lastRetiredHead := q.tail, requestList := l₂ } c q.position) := by
  have hmem : q ∈ r.requestList := by simp [e]
  have hsub : l₂.Sublist r.requestList :=
    e ▸ (List.sublist_cons_self q l₂).trans (List.sublist_append_right l₁ _)
  have hafter : ∀ q' ∈ l₂, q.position ≤ q'.position := by
    have hs := h.listed.sorted
    rw [e, List.pairwise_append, List.pairwise_cons] at hs
    exact hs.2.1.1
  have hlast : q.tail ≠ taken →
      LastAt { r with lastRetiredHead := q.tail, requestList := l₂ } c q.position := fun ht => {
    slot := (h.listed.slot q hmem ht).1
    four := h.listed.four q hmem
    le := (h.listed.slot q hmem ht).2
    drained := h.listed.signalled.passed q hmem hq
    requests := fun q' hq' _ => hafter q' hq'
    adding := fun a ha => (h.adding a ha).requests q hmem }
  refine ⟨h.noted (h.listed.sublist _ hsub) ?_ fun a ha => ?_, hlast⟩
  · by_cases ht : q.tail = taken
    · exact .inl ht
    · exact .inr ⟨_, hlast ht⟩
  · exact ⟨(h.adding a ha).slot, (h.adding a ha).four, (h.adding a ha).le,
      (h.adding a ha).filled, fun q' hq' => (h.adding a ha).requests q' (hsub.subset hq')⟩

/-- Retiring either finds nothing to retire or goes up to one of the requests. -/
theorem retire_cases (r : IntelRingBuffer) : r.i915GemRetireRequestsRing = r ∨
    ∃ l₁ q l₂, r.requestList = l₁ ++ q :: l₂ ∧ seqnoPassed r.hwsSeqno q.seqno = true ∧
      r.i915GemRetireRequestsRing = { r with lastRetiredHead := q.tail, requestList := l₂ } := by
  unfold i915GemRetireRequestsRing
  rcases retireUpTo_cases r.hwsSeqno r.lastRetiredHead r.requestList with h | ⟨l₁, q, l₂, e, hq, h⟩
  · rw [h]
    exact .inl rfl
  · rw [h]
    exact .inr ⟨l₁, q, l₂, e, hq, rfl⟩

theorem waited_retire (r : IntelRingBuffer) : r.Waited r.i915GemRetireRequestsRing := by
  rcases retire_cases r with h | ⟨l₁, q, l₂, e, -, h⟩
  · exact h.symm ▸ Waited.rfl'
  · rw [h]
    exact ⟨rfl, rfl, rfl, rfl, rfl, rfl, fun q' hq' => ⟨q', by simp [e, hq'], rfl⟩⟩

theorem Inv.retire (h : r.Inv c x) : r.i915GemRetireRequestsRing.Inv c x := by
  rcases retire_cases r with e | ⟨l₁, q, l₂, hl, hq, e⟩
  · rwa [e]
  · rw [e]
    exact (h.retired hl hq).1

/-- After the wait for a request that is not consumed its tail, or a later one, is known. -/
theorem Inv.retire_found (h : r.Inv c x) {q : Request} (hq : q ∈ r.requestList)
    (hp : seqnoPassed r.hwsSeqno q.seqno = true) (ht : q.tail ≠ taken) :
    ∃ l, r.i915GemRetireRequestsRing.LastAt c l ∧ q.position ≤ l := by
  have hrest := retireUpTo_rest h.listed.signalled.inOrder r.lastRetiredHead
  have hnot : q ∉ r.i915GemRetireRequestsRing.requestList := fun hm => by
    simp [hrest q hm] at hp
  rcases retire_cases r with e | ⟨l₁, q', l₂, hl, hq', e⟩
  · exact absurd hq (e ▸ hnot)
  rw [e] at hnot ⊢
  have hbefore : q ∈ l₁ ∨ q = q' := by
    simp only [hl, List.mem_append, List.mem_cons] at hq
    rcases hq with hq | hq | hq
    · exact .inl hq
    · exact .inr hq
    · exact absurd hq hnot
  have hsorted := h.listed.sorted
  have hleading := h.listed.leading
  rw [hl, List.pairwise_append] at hsorted hleading
  have hle : q.position ≤ q'.position ∧ q'.tail ≠ taken := by
    rcases hbefore with hq | rfl
    · exact ⟨hsorted.2.2 q hq q' (by simp), fun ht' => ht (hleading.2.2 q hq q' (by simp) ht')⟩
    · exact ⟨le_rfl, ht⟩
  exact ⟨q'.position, (h.retired hl hq').2 hle.2, hle.1⟩

/-! ### Using a new head -/

/-- The cached head may be put where the GPU's is known to have been. -/
theorem Inv.rehead (h : r.Inv c x) (hr : r.reserved = none) {c' head last : ℕ}
    (hhead : head &&& headAddr = c' % r.size) (hc : c ≤ c') (hdrained : c' ≤ r.drained)
    (hslot : ∀ q ∈ r.requestList, q.tail ≠ taken → c' ≤ q.position)
    (hadding : ∀ a ∈ r.adding, c' ≤ a.2) (hlast : last = taken) :
    Inv { r with
      head := head
      lastRetiredHead := last
      space := ringSpace { r with head := head, lastRetiredHead := last } } c' x ∧
    ringSpace { r with head := head, lastRetiredHead := last } =
      (c' : ℤ) + r.size - i915RingFreeSpace - r.filled := by
  have hgap := h.gap
  have hle : c' ≤ r.filled := hdrained.trans (h.laid.drained_le.trans h.laid.le_filled)
  have hpromised : r.promised = 0 := by simp [promised, hr]
  have hgap' : r.filled + i915RingFreeSpace ≤ c' + r.size := by omega
  have hspace : ringSpace { r with head := head, lastRetiredHead := last } =
      (c' : ℤ) + r.size - i915RingFreeSpace - r.filled := by
    unfold ringSpace
    rw [hhead, h.tail_eq hr]
    exact spaceTo_eq hle hgap'
  have hnonneg : (0 : ℤ) ≤ (c' : ℤ) + r.size - i915RingFreeSpace - r.filled := by omega
  have hroom : (c' : ℤ) + r.size - i915RingFreeSpace - r.filled ≤
      (c' : ℤ) + r.size - i915RingFreeSpace - r.filled - r.promised := by omega
  refine ⟨⟨h.laid.noted .., ⟨h.listed.four, h.listed.filled,
    fun q hq ht => ⟨(h.listed.slot q hq ht).1, hslot q hq ht⟩, h.listed.sorted,
    h.listed.leading, h.listed.seqno, ⟨h.listed.signalled.inOrder, h.listed.signalled.passed⟩⟩,
    .inl hlast, fun a ha => ?_, h.effective, h.tail, h.closed, h.opened, hhead, hdrained, ?_, ?_,
    ?_⟩, hspace⟩
  · exact ⟨(h.adding a ha).slot, (h.adding a ha).four, hadding a ha, (h.adding a ha).filled,
      (h.adding a ha).requests⟩
  · exact hgap.trans (Nat.add_le_add_right hc r.size)
  · exact hnonneg.trans_eq hspace.symm
  · exact hspace.trans_le hroom

theorem Inv.takeLastRetired (h : r.Inv c x) (hr : r.reserved = none) (hl : r.LastAt c l) :
    r.takeLastRetired.Inv l x ∧ r.takeLastRetired.space =
      (l : ℤ) + r.size - i915RingFreeSpace - r.filled := by
  have hhead : r.lastRetiredHead &&& headAddr = l % r.size := by
    rw [hl.slot, h.laid.mod_and hl.four]
  exact h.rehead hr hhead hl.le hl.drained hl.requests hl.adding rfl

theorem waited_takeLastRetired (r : IntelRingBuffer) : r.Waited r.takeLastRetired :=
  ⟨rfl, rfl, rfl, rfl, rfl, rfl, fun q hq => ⟨q, hq, rfl⟩⟩

/-- The head register may be used once no request has a tail left that is behind it. -/
theorem Inv.readHead (h : r.Inv c x) (hr : r.reserved = none) (ha : r.adding = none)
    (hlast : r.lastRetiredHead = taken) (hall : ∀ q ∈ r.requestList, q.tail = taken) :
    r.readHead.Inv r.drained x :=
  (h.rehead hr h.laid.regHead h.le_drained le_rfl (fun q hq ht => absurd (hall q hq) ht)
    (by simp [ha]) hlast).1

end IntelRingBuffer

end GfxDrm.RingBuffer
