import GfxDrm.RingBuffer.Waits

/-! What is written to a ring buffer, and intel_ring_begin as a whole. -/

namespace GfxDrm.RingBuffer
open I915 (Seqno seqnoPassed)
open Errno

namespace IntelRingBuffer
variable {r r' : IntelRingBuffer} {c x : ℕ} {n ret : ℤ}

/-! ### Dwords -/

theorem filled_put (r : IntelRingBuffer) (offset : ℕ) (w : Dword) :
    (r.put offset w).filled = r.filled + 4 := by
  simp only [filled, put, List.length_append, List.length_singleton, Nat.mul_add]

/-- The dword that follows the others is at the offset of none that is left to consume. -/
theorem Laid.put (h : r.Laid x) {offset : ℕ} (ho : offset = r.filled % r.size)
    (hlt : r.filled < r.drained + r.size) (w : Dword) : (r.put offset w).Laid x where
  size := h.size
  offset i hi := by
    simp only [IntelRingBuffer.put, List.length_append, List.length_singleton] at hi
    simp only [IntelRingBuffer.put, List.getElem_append]
    split
    case isTrue hlt => exact h.offset i hlt
    case isFalse hge =>
      obtain rfl : i = r.written.length := by omega
      simp only [Nat.sub_self]
      exact ho
  regHead := h.regHead
  regTail := h.regTail
  drained_le := h.drained_le
  le_filled := h.le_filled.trans (by rw [filled_put]; omega)
  kept := by
    have hfour := h.four_dvd_size
    simp only [IntelRingBuffer.put, h.kept, List.nil_append, List.filter_eq_nil_iff,
      decide_eq_true_eq]
    intro v hv
    obtain ⟨i, hi, rfl⟩ := List.mem_iff_getElem.mp hv
    rw [List.length_drop] at hi
    rw [List.getElem_drop, h.offset]
    have hne := Wheel.mod_ne (n := r.size) (a := 4 * (r.consumed + i)) (b := r.filled)
      (by unfold filled; omega) (by unfold drained at hlt; omega)
    have h₁ := (Nat.dvd_mod_iff hfour).mpr (Nat.dvd_mul_right 4 (r.consumed + i))
    have h₂ := (Nat.dvd_mod_iff hfour).mpr (Nat.dvd_mul_right 4 r.written.length)
    rw [← filled] at h₂
    omega
  apart := h.apart

/-- Only the buffer itself is written. -/
theorem putNoops_eq (k virt : ℕ) (r : IntelRingBuffer) : ∃ written overwritten,
    putNoops k virt r = { r with written := written, overwritten := overwritten } ∧
      r.written.length ≤ written.length := by
  induction k generalizing virt r with
  | zero => exact ⟨_, _, rfl, le_rfl⟩
  | succ k ih =>
    obtain ⟨written, overwritten, h, hle⟩ := ih (virt + 4) (r.put virt miNoop)
    exact ⟨written, overwritten, h, hle.trans' (by simp [put])⟩

theorem Laid.putNoops {k virt : ℕ} (h : r.Laid x) (hv : k = 0 ∨ virt = r.filled % r.size)
    (hend : virt + 4 * k ≤ r.size) (hlt : r.filled + 4 * k ≤ r.drained + r.size) :
    (putNoops k virt r).Laid x ∧ (putNoops k virt r).filled = r.filled + 4 * k := by
  induction k generalizing virt r with
  | zero => exact ⟨h, rfl⟩
  | succ k ih =>
    replace hv := hv.resolve_left (Nat.succ_ne_zero k)
    have hnext : k = 0 ∨ virt + 4 = (r.put virt miNoop).filled % (r.put virt miNoop).size := by
      refine or_iff_not_imp_left.mpr fun hk => ?_
      rw [filled_put, ← Nat.mod_add_mod, show (r.put virt miNoop).size = r.size from rfl, ← hv]
      exact (Nat.mod_eq_of_lt (by omega)).symm
    obtain ⟨hlaid, hfilled⟩ := ih (h.put hv (by omega) miNoop) hnext
      (hend.trans' (by omega)) (by
        rw [filled_put]
        exact hlt.trans' (by omega))
    refine ⟨hlaid, hfilled.trans ?_⟩
    rw [filled_put]
    omega

theorem Laid.moveTail (h : r.Laid x) {t : ℕ} (ht : t % r.size = r.filled % r.size)
    (hlt : r.filled < r.drained + r.size) : (r.moveTail t).Laid x where
  size := h.size
  offset := h.offset
  regHead := h.regHead
  regTail := h.regTail
  drained_le := h.drained_le
  le_filled := h.le_filled
  kept := h.kept
  apart := by
    simp only [IntelRingBuffer.moveTail, h.apart, Bool.false_or, decide_eq_false_iff_not, ht,
      h.regHead]
    rintro ⟨he, hlt'⟩
    exact Wheel.mod_ne (a := r.drained) (b := r.filled) (by unfold drained filled; omega)
      hlt he.symm

/-! ### Wrapping around -/

theorem Listed.more (h : r.Listed c) {w : List (ℕ × Dword)}
    (hle : r.written.length ≤ w.length) (overwritten : List (ℕ × Dword)) (tail : ℕ)
    (space : ℤ) (caught : Bool) (reserved : Option ℕ) :
    Listed { r with
      tail := tail
      space := space
      written := w
      overwritten := overwritten
      caught := caught
      reserved := reserved } c where
  four := h.four
  filled q hq := (h.filled q hq).trans (Nat.mul_le_mul_left 4 hle)
  slot := h.slot
  sorted := h.sorted
  leading := h.leading
  seqno := h.seqno
  signalled := ⟨h.signalled.inOrder, h.signalled.passed⟩

/-- The rest of the buffer is filled and the tail goes to its start. -/
theorem Inv.fillToEnd (h : r.Inv c x) (hr : r.reserved = none) (ha : r.adding = none)
    (hs : ((r.size - r.tail : ℕ) : ℤ) ≤ r.space) : r.fillToEnd.Inv c x := by
  have htail := h.tail_eq hr
  have hclosed := h.closed hr
  have hsize := h.laid.size_pos
  have hroom := h.space_le
  have hle := h.le_drained
  have hfour : 4 ∣ r.size - r.tail := Nat.dvd_sub h.laid.four_dvd_size
    (htail ▸ (Nat.dvd_mod_iff h.laid.four_dvd_size).mpr (Nat.dvd_mul_right 4 _))
  have hrem : 4 * ((r.size - r.tail) / 4) = r.size - r.tail := Nat.mul_div_cancel' hfour
  obtain ⟨hlaid, hfilled⟩ := h.laid.putNoops (k := (r.size - r.tail) / 4) (.inr htail) (by omega)
    (by omega)
  have hmod : (r.filled + (r.size - r.tail)) % r.size = 0 := by
    rw [htail, ← Nat.mod_add_mod, Nat.add_sub_cancel' (Nat.mod_lt _ hsize).le, Nat.mod_self]
  have hgap : r.filled + (r.size - r.tail) + i915RingFreeSpace ≤ c + r.size := by omega
  have hspace : spaceTo r.size 0 (r.head &&& headAddr) =
      (c : ℤ) + r.size - i915RingFreeSpace - (r.filled + (r.size - r.tail) : ℕ) := by
    have := spaceTo_eq (h.le_filled.trans (Nat.le_add_right _ (r.size - r.tail))) hgap
    rwa [hmod, ← h.head] at this
  have hpromised : r.promised = 0 := by simp [promised, hr]
  rw [hrem] at hfilled
  obtain ⟨written, overwritten, hputs, hlen⟩ := putNoops_eq ((r.size - r.tail) / 4) r.tail r
  unfold IntelRingBuffer.fillToEnd
  rw [hputs] at hlaid hfilled ⊢
  have hmoved := hlaid.moveTail (t := 0) (by rw [hfilled, hmod, Nat.zero_mod]) (by
    exact hgap.trans_lt' (by unfold i915RingFreeSpace; omega) |>.trans_le
      (Nat.add_le_add_right hle r.size))
  have hcount : 4 * written.length = r.filled + (r.size - r.tail) := hfilled
  have hgap' : 4 * written.length + r.promised + i915RingFreeSpace ≤ c + r.size := by omega
  have hnonneg : 0 ≤ spaceTo r.size 0 (r.head &&& headAddr) := by omega
  have hle' : spaceTo r.size 0 (r.head &&& headAddr) ≤
      (c : ℤ) + r.size - i915RingFreeSpace - (4 * written.length : ℕ) - r.promised := by omega
  exact {
    laid := ⟨hmoved.size, hmoved.offset, hmoved.regHead, hmoved.regTail, hmoved.drained_le,
      hmoved.le_filled, hmoved.kept, hmoved.apart⟩
    listed := h.listed.more hlen _ _ _ _ _
    last := h.last.imp_right (Exists.imp fun _ hl => ⟨hl.slot, hl.four, hl.le, hl.drained,
      hl.requests, hl.adding⟩)
    adding := fun a h' => by simp [moveTail, ha] at h'
    effective := h.effective
    tail := (Nat.zero_mod _).trans (hfilled ▸ hmod).symm
    closed := fun _ => hsize
    opened := fun k hk => by simp [moveTail, hr] at hk
    head := h.head
    le_drained := hle
    gap := hgap'
    space_nonneg := hnonneg
    space_le := hle' }

/-- What a driver call leaves alone on the way to a successful intel_ring_begin. -/
structure Within (r r' : IntelRingBuffer) : Prop where
  reserved : r'.reserved = r.reserved
  adding : r'.adding = r.adding
  size : r'.size = r.size
  filled : r.filled ≤ r'.filled
  requests : ∀ q' ∈ r'.requestList, ∃ q ∈ r.requestList, q'.position = q.position

theorem Waited.within (h : r.Waited r') : r.Within r' :=
  ⟨h.reserved, h.adding, h.size, h.filled.ge, h.requests⟩

theorem Within.trans {r'' : IntelRingBuffer} (h : r.Within r') (h' : r'.Within r'') :
    r.Within r'' where
  reserved := h'.reserved.trans h.reserved
  adding := h'.adding.trans h.adding
  size := h'.size.trans h.size
  filled := h.filled.trans h'.filled
  requests q'' hq'' := by
    obtain ⟨q', hq', e'⟩ := h'.requests q'' hq''
    obtain ⟨q, hq, e⟩ := h.requests q' hq'
    exact ⟨q, hq, e'.trans e⟩

theorem within_fillToEnd (r : IntelRingBuffer) : r.Within r.fillToEnd := by
  obtain ⟨written, overwritten, h, hle⟩ := putNoops_eq ((r.size - r.tail) / 4) r.tail r
  unfold fillToEnd
  rw [h]
  exact ⟨rfl, rfl, rfl, Nat.mul_le_mul_left 4 hle, fun q hq => ⟨q, hq, rfl⟩⟩

theorem Inv.intelWrapRingBuffer (h : r.Inv c x) (hr : r.reserved = none) (ha : r.adding = none)
    {w : Waiting} (hw : r.intelWrapRingBuffer w = some (ret, r')) :
    (∃ c', r'.Inv c' x) ∧ r.Within r' ∧ (ret = 0 → r'.tail = 0) := by
  obtain ⟨⟨ret', s⟩, hs, hw⟩ := Option.map_eq_some_iff.mp hw
  obtain ⟨⟨c', hinv⟩, hwaited, hspace⟩ := h.ensureSpace hr ha hs
  split at hw
  case isTrue hne =>
    obtain ⟨rfl, rfl⟩ := hw
    exact ⟨⟨c', hinv⟩, hwaited.within, fun h0 => absurd h0 hne⟩
  case isFalse hok =>
    obtain ⟨rfl, rfl⟩ := hw
    have henough := hspace (not_not.mp hok)
    rw [← hwaited.size, ← hwaited.tail] at henough
    exact ⟨⟨c', hinv.fillToEnd (hwaited.reserved.trans hr) (hwaited.adding.trans ha) henough⟩,
      hwaited.within.trans (within_fillToEnd s), fun _ => rfl⟩

/-! ### Seqnos -/

/-- When the last request is signalled, retiring leaves none. -/
theorem retire_eq_nil (h : r.Signalled)
    (hp : ∀ q ∈ r.requestList.getLast?, seqnoPassed r.hwsSeqno q.seqno = true) :
    r.i915GemRetireRequestsRing.requestList = [] := by
  by_contra hne
  have hrest := retireUpTo_rest h.inOrder r.lastRetiredHead
  have hlast : r.requestList.getLast? = r.i915GemRetireRequestsRing.requestList.getLast? := by
    rcases retire_cases r with e | ⟨l₁, q, l₂, hl, -, e⟩
    · rw [e]
    · rw [e] at hne ⊢
      obtain ⟨q', l, rfl⟩ := List.exists_cons_of_ne_nil hne
      rw [hl, List.getLast?_append_cons, List.getLast?_cons_cons]
  have hmem := List.getLast_mem hne
  have hq := hp _ (hlast ▸ List.getLast?_eq_some_getLast hne)
  rw [hrest _ hmem] at hq
  cases hq

theorem Inv.intelRingIdle (h : r.Inv c x) {look : Look}
    (hw : r.intelRingIdle look = some (ret, r')) :
    r'.Inv c x ∧ r.Waited r' ∧
      (ret = 0 → r'.i915GemRetireRequestsRing.requestList = []) := by
  unfold IntelRingBuffer.intelRingIdle at hw
  cases hl : r.requestList.getLast? with
  | none =>
    simp only [hl] at hw
    obtain ⟨rfl, rfl⟩ := hw
    exact ⟨h, Waited.rfl', fun _ => retire_eq_nil h.listed.signalled (by simp [hl])⟩
  | some q =>
    simp only [hl] at hw
    obtain ⟨hgpu, hret⟩ := i915WaitSeqno_cases hw
    obtain ⟨hinv, hwaited, hreq, -⟩ := h.gpu hgpu
    refine ⟨hinv, hwaited, fun h0 => retire_eq_nil hinv.listed.signalled ?_⟩
    rw [hreq, hl]
    rintro _ ⟨⟩
    exact (hret.resolve_right fun hne => hne.1 h0).2

theorem Inv.idled (h : r.Inv c x) (hl : r.requestList = []) (seqno : Seqno) :
    Inv { r with hwsSeqno := seqno } c x :=
  h.noted ⟨h.listed.four, h.listed.filled, h.listed.slot, h.listed.sorted, h.listed.leading,
    h.listed.seqno, ⟨by simp [hl], by simp [hl]⟩⟩
    (h.last.imp_right (Exists.imp fun _ hl => hl.noted ..)) fun a ha => (h.adding a ha).noted ..

theorem Inv.i915GemInitSeqno (h : r.Inv c x) {o : SeqnoOutcome} {seqno : Seqno}
    (hw : r.i915GemInitSeqno o seqno = some (ret, r')) : r'.Inv c x ∧ r.Waited r' := by
  obtain ⟨⟨ret', s⟩, hs, hw⟩ := Option.map_eq_some_iff.mp hw
  obtain ⟨hinv, hwaited, hnil⟩ := h.intelRingIdle hs
  split at hw
  case isTrue =>
    cases hw
    exact ⟨hinv, hwaited⟩
  case isFalse hok =>
    cases ho : o.otherRings with
    | some f =>
      simp only [ho] at hw
      obtain ⟨-, rfl⟩ := hw
      exact ⟨hinv, hwaited⟩
    | none =>
      simp only [ho] at hw
      obtain ⟨-, rfl⟩ := hw
      exact ⟨hinv.retire.idled (hnil (not_not.mp hok)) seqno,
        hwaited.trans ((waited_retire s).trans
          ⟨rfl, rfl, rfl, rfl, rfl, rfl, fun q hq => ⟨q, hq, rfl⟩⟩)⟩

theorem Inv.i915GemGetSeqno (h : r.Inv c x) {o : SeqnoOutcome} {seqno : Seqno}
    (hw : r.i915GemGetSeqno o = some (ret, seqno, r')) : r'.Inv c x ∧ r.Waited r' := by
  unfold IntelRingBuffer.i915GemGetSeqno at hw
  split at hw
  case isTrue =>
    obtain ⟨⟨ret', s⟩, hs, hw⟩ := Option.map_eq_some_iff.mp hw
    cases hw
    exact h.i915GemInitSeqno hs
  case isFalse =>
    cases hw
    exact ⟨h, Waited.rfl'⟩

theorem Inv.lazyRequest (h : r.Inv c x) {seqno : Seqno}
    (hnew : ∀ q ∈ r.requestList, q.seqno ≠ seqno) :
    Inv { r with outstandingLazyRequest := seqno } c x :=
  h.noted ⟨h.listed.four, h.listed.filled, h.listed.slot, h.listed.sorted, h.listed.leading,
    fun q hq => ⟨(h.listed.seqno q hq).1, hnew q hq⟩,
    ⟨h.listed.signalled.inOrder, h.listed.signalled.passed⟩⟩
    (h.last.imp_right (Exists.imp fun _ hl => hl.noted ..)) fun a ha => (h.adding a ha).noted ..

theorem Inv.intelRingAllocSeqno (h : r.Inv c x) {o : SeqnoOutcome}
    (hw : r.intelRingAllocSeqno o = some (ret, r')) : r'.Inv c x ∧ r.Waited r' := by
  unfold IntelRingBuffer.intelRingAllocSeqno at hw
  split at hw
  case isTrue =>
    cases hw
    exact ⟨h, Waited.rfl'⟩
  obtain ⟨⟨ret', seqno, s⟩, hs, hw⟩ := Option.bind_eq_some_iff.mp hw
  obtain ⟨hinv, hwaited⟩ := h.i915GemGetSeqno hs
  split at hw
  case isTrue =>
    cases hw
    exact ⟨hinv, hwaited⟩
  split at hw
  case isTrue hnew =>
    cases hw
    exact ⟨hinv.lazyRequest hnew, hwaited.trans
      ⟨rfl, rfl, rfl, rfl, rfl, rfl, fun q hq => ⟨q, hq, rfl⟩⟩⟩
  case isFalse => cases hw

/-! ### intel_ring_begin -/

/-- How intel_ring_begin ends: the call fails, or the `bytes` are taken out of the space and lie
ahead of the tail. -/
inductive Begun (r : IntelRingBuffer) (x bytes : ℕ) (ret : ℤ) (r' : IntelRingBuffer) : Prop
  | failed (hret : ret ≠ 0) {c : ℕ} (hinv : r'.Inv c x) (hwithin : r.Within r')
  | reserved (hret : ret = 0) {s : IntelRingBuffer} {c : ℕ} (hinv : s.Inv c x)
      (hwithin : r.Within s) (hspace : (bytes : ℤ) ≤ s.space) (hend : s.tail + bytes ≤ s.size)
      (heq : r' = { s with space := s.space - bytes })

theorem Begun.after {s : IntelRingBuffer} {bytes : ℕ} (h : s.Begun x bytes ret r')
    (hw : r.Within s) : r.Begun x bytes ret r' := by
  cases h with
  | failed hret hinv hwithin => exact .failed hret hinv (hw.trans hwithin)
  | reserved hret hinv hwithin hspace hend heq =>
    exact .reserved hret hinv (hw.trans hwithin) hspace hend heq

theorem Inv.reserveBytes {bytes : ℕ} (h : r.Inv c x) (hr : r.reserved = none)
    (ha : r.adding = none) (hend : r.tail = 0 ∨ r.tail + bytes ≤ r.size) {w : Waiting}
    (hw : ((r.ensureSpace w bytes).map fun y =>
      if y.1 ≠ 0 then y else (0, { y.2 with space := y.2.space - bytes })) = some (ret, r')) :
    r.Begun x bytes ret r' := by
  obtain ⟨⟨ret', s⟩, hs, hw⟩ := Option.map_eq_some_iff.mp hw
  obtain ⟨⟨c', hinv⟩, hwaited, hspace⟩ := h.ensureSpace hr ha hs
  split at hw
  case isTrue hne =>
    cases hw
    exact .failed hne hinv hwaited.within
  case isFalse hok =>
    simp only [Prod.mk.injEq] at hw
    have henough := hspace (not_not.mp hok)
    have hle := hinv.space_le
    have hfilled := hinv.le_filled
    have htail := hwaited.tail
    have hsize := hwaited.size
    refine .reserved hw.1.symm hinv hwaited.within henough ?_ hw.2.symm
    rcases hend with h0 | hend <;> omega

theorem Inv.ringBegin {bytes : ℕ} (h : r.Inv c x) (hr : r.reserved = none) (ha : r.adding = none)
    {o : BeginOutcome} (hw : r.ringBegin o bytes = some (ret, r')) : r.Begun x bytes ret r' := by
  unfold IntelRingBuffer.ringBegin at hw
  split at hw
  case isTrue =>
    obtain ⟨⟨ret', s⟩, hs, hw⟩ := Option.bind_eq_some_iff.mp hw
    obtain ⟨⟨c', hinv⟩, hwithin, htail⟩ := h.intelWrapRingBuffer hr ha hs
    split at hw
    case isTrue hne =>
      cases hw
      exact .failed hne hinv hwithin
    case isFalse hok =>
      exact (hinv.reserveBytes (hwithin.reserved.trans hr) (hwithin.adding.trans ha)
        (.inl (htail (not_not.mp hok))) hw).after hwithin
  case isFalse hfits =>
    have hend : r.tail + bytes ≤ r.size := (not_lt.mp hfits).trans h.effective
    exact h.reserveBytes hr ha (.inr hend) hw

theorem Inv.intelRingBegin {numDwords : ℕ} (h : r.Inv c x) (hr : r.reserved = none)
    (ha : r.adding = none) {o : BeginOutcome}
    (hw : r.intelRingBegin o numDwords = some (ret, r')) :
    r.Begun x (numDwords * 4) ret r' := by
  unfold IntelRingBuffer.intelRingBegin at hw
  cases hwedged : o.wedged with
  | some f =>
    simp only [hwedged] at hw
    obtain ⟨rfl, rfl⟩ := hw
    exact .failed f.errno_ne.1 h Waited.rfl'.within
  | none =>
    simp only [hwedged] at hw
    obtain ⟨⟨ret', s⟩, hs, hw⟩ := Option.bind_eq_some_iff.mp hw
    obtain ⟨hinv, hwaited⟩ := h.intelRingAllocSeqno hs
    split at hw
    case isTrue hne =>
      cases hw
      exact .failed hne hinv hwaited.within
    case isFalse =>
      exact (hinv.ringBegin (hwaited.reserved.trans hr) (hwaited.adding.trans ha) hw).after
        hwaited.within

/-- The bytes of a successful call are promised to the caller; the position of a request that is
being added is not behind the tail register. -/
theorem Inv.reserve {k : ℕ} (h : r.Inv c x) (hr : r.reserved = none)
    (hspace : ((k * 4 : ℕ) : ℤ) ≤ r.space) (hend : r.tail + k * 4 ≤ r.size)
    {a : Option (ℕ × ℕ)} (hadd : ∀ b ∈ a, b.1 = b.2 % r.size ∧ 4 ∣ b.2 ∧ x ≤ b.2 ∧
      b.2 ≤ r.filled ∧ ∀ q ∈ r.requestList, q.position ≤ b.2) :
    Inv { r with space := r.space - (k * 4 : ℕ), reserved := some k, adding := a } c x := by
  have hle := h.space_le
  have hle' := h.le_drained.trans h.laid.drained_le
  have hgap : r.filled + 4 * k + i915RingFreeSpace ≤ c + r.size := by omega
  have hnonneg : 0 ≤ r.space - (k * 4 : ℕ) := by omega
  have hroom : r.space - (k * 4 : ℕ) ≤
      (c : ℤ) + r.size - i915RingFreeSpace - r.filled - (4 * k : ℕ) := by omega
  exact {
    laid := h.laid.noted ..
    listed := ⟨h.listed.four, h.listed.filled, h.listed.slot, h.listed.sorted, h.listed.leading,
      h.listed.seqno, ⟨h.listed.signalled.inOrder, h.listed.signalled.passed⟩⟩
    last := h.last.imp_right (Exists.imp fun _ hl => ⟨hl.slot, hl.four, hl.le, hl.drained,
      hl.requests, fun b hb => hl.drained.trans (h.laid.drained_le.trans (hadd b hb).2.2.1)⟩)
    adding := fun b hb => ⟨(hadd b hb).1, (hadd b hb).2.1, hle'.trans (hadd b hb).2.2.1,
      (hadd b hb).2.2.2.1, (hadd b hb).2.2.2.2⟩
    effective := h.effective
    tail := h.tail
    closed := fun h' => by cases h'
    opened := by
      rintro _ ⟨⟩
      exact hend.trans' (by rw [Nat.mul_comm k])
    head := h.head
    le_drained := h.le_drained
    gap := hgap
    space_nonneg := hnonneg
    space_le := hroom }

end IntelRingBuffer

end GfxDrm.RingBuffer
