import GfxDrm.RingBuffer.Kept

/-! What intel_ring_begin does while it waits for space. -/

namespace GfxDrm.RingBuffer
open I915 (Seqno seqnoPassed)
open Errno

def Request.mark (q : Request) : Request := { q with tail := taken }

theorem Fault.errno_ne (f : Fault) : f.errno ≠ 0 ∧ f.errno ≠ eNospc := by
  cases f <;> decide

namespace IntelRingBuffer
variable {r r' : IntelRingBuffer} {c x : ℕ} {n ret : ℤ}

theorem Waited.filled (h : r.Waited r') : r'.filled = r.filled := by
  unfold IntelRingBuffer.filled
  rw [h.written]

/-! ### The loop over the requests -/

theorem consume_cases (size tail : ℕ) (n : ℤ) (list : List Request) :
    ∃ l₁ l₂, list = l₁ ++ l₂ ∧ (consume size tail n list).2 = l₁.map Request.mark ++ l₂ ∧
      ((consume size tail n list).1 = 0 ∧ l₂ = [] ∨ ∃ q l₃, l₂ = q :: l₃ ∧
        (consume size tail n list).1 = q.seqno ∧ q.tail ≠ taken ∧
        n ≤ spaceTo size tail q.tail) := by
  induction list with
  | nil => exact ⟨[], [], rfl, rfl, .inl ⟨rfl, rfl⟩⟩
  | cons q list ih =>
    obtain ⟨l₁, l₂, rfl, h₂, h₁⟩ := ih
    by_cases hq : q.tail = taken
    · have hmark : q.mark = q := by
        unfold Request.mark
        rw [← hq]
      refine ⟨q :: l₁, l₂, rfl, ?_, ?_⟩
      · simp only [consume, if_pos hq, h₂, List.map_cons, hmark, List.cons_append]
      · simpa only [consume, if_pos hq] using h₁
    by_cases hn : n ≤ spaceTo size tail q.tail
    · refine ⟨[], q :: (l₁ ++ l₂), rfl, ?_, .inr ⟨q, l₁ ++ l₂, rfl, ?_, hq, hn⟩⟩
      · simp only [consume, if_neg hq, if_pos hn, List.map_nil, List.nil_append]
      · simp only [consume, if_neg hq, if_pos hn]
    · refine ⟨q :: l₁, l₂, rfl, ?_, ?_⟩
      · simp only [consume, if_neg hq, if_neg hn, h₂, List.map_cons, List.cons_append,
          Request.mark]
      · simpa only [consume, if_neg hq, if_neg hn] using h₁

/-- Marking the first requests leaves their order and their seqnos. -/
theorem map_mark_append {β : Type*} (f : Request → β) (hf : ∀ q, f q.mark = f q)
    (l₁ l₂ : List Request) : (l₁.map Request.mark ++ l₂).map f = (l₁ ++ l₂).map f := by
  simp only [List.map_append, List.map_map, Function.comp_def, hf]

variable {l₁ l₂ : List Request}

theorem mem_map_mark_append {q' : Request} (h : q' ∈ l₁.map Request.mark ++ l₂) :
    ∃ q ∈ l₁ ++ l₂, q'.position = q.position ∧ q'.seqno = q.seqno ∧
      (q'.tail ≠ taken → q' = q) := by
  rw [List.mem_append, List.mem_map] at h
  rcases h with ⟨q, hq, rfl⟩ | h
  · exact ⟨q, List.mem_append_left _ hq, rfl, rfl, fun ht => absurd rfl ht⟩
  · exact ⟨q', List.mem_append_right _ h, rfl, rfl, fun _ => rfl⟩

theorem Listed.mark (h : r.Listed c) (e : r.requestList = l₁ ++ l₂) :
    Listed { r with requestList := l₁.map Request.mark ++ l₂ } c := by
  have hmem : ∀ q' ∈ l₁.map Request.mark ++ l₂, ∃ q ∈ r.requestList,
      q'.position = q.position ∧ q'.seqno = q.seqno ∧ (q'.tail ≠ taken → q' = q) :=
    fun q' hq' => e ▸ mem_map_mark_append hq'
  have hpairs : ∀ {R : Seqno × ℕ → Seqno × ℕ → Prop},
      r.requestList.Pairwise (fun q q' => R (q.seqno, q.position) (q'.seqno, q'.position)) →
      (l₁.map Request.mark ++ l₂).Pairwise
        fun q q' => R (q.seqno, q.position) (q'.seqno, q'.position) := by
    intro R hR
    have hmap : (l₁.map Request.mark ++ l₂).map (fun q => (q.seqno, q.position)) =
        r.requestList.map fun q => (q.seqno, q.position) :=
      e ▸ map_mark_append _ (fun q => rfl) l₁ l₂
    rw [← List.pairwise_map (f := fun q : Request => (q.seqno, q.position)) (R := R)] at hR ⊢
    rwa [hmap]
  constructor
  case four =>
    intro q' hq'
    obtain ⟨q, hq, hpos, -⟩ := hmem q' hq'
    exact hpos ▸ h.four q hq
  case filled =>
    intro q' hq'
    obtain ⟨q, hq, hpos, -⟩ := hmem q' hq'
    exact hpos.trans_le (h.filled q hq)
  case slot =>
    intro q' hq' ht
    obtain ⟨q, hq, -, -, heq⟩ := hmem q' hq'
    have hsame := heq ht
    rw [hsame] at ht ⊢
    exact h.slot q hq ht
  case sorted => exact hpairs (R := fun k k' => k.2 ≤ k'.2) h.sorted
  case leading =>
    have hleading := e ▸ h.leading
    rw [List.pairwise_append] at hleading ⊢
    refine ⟨?_, hleading.2.1, fun q hq q' _ _ => ?_⟩
    · exact List.pairwise_map.mpr (List.pairwise_of_forall fun _ _ _ => rfl)
    · obtain ⟨_, -, rfl⟩ := List.mem_map.mp hq
      rfl
  case seqno =>
    intro q' hq'
    obtain ⟨q, hq, -, hseqno, -⟩ := hmem q' hq'
    exact hseqno ▸ h.seqno q hq
  case signalled =>
    refine ⟨hpairs (R := fun k k' => seqnoPassed r.hwsSeqno k'.1 = true →
      seqnoPassed r.hwsSeqno k.1 = true) h.signalled.inOrder, fun q' hq' hp => ?_⟩
    obtain ⟨q, hq, hpos, hseqno, -⟩ := hmem q' hq'
    exact hpos.trans_le (h.signalled.passed q hq (hseqno ▸ hp))

theorem Inv.mark (h : r.Inv c x) (ha : r.adding = none) (hlast : r.lastRetiredHead = taken)
    (e : r.requestList = l₁ ++ l₂) :
    Inv { r with requestList := l₁.map Request.mark ++ l₂ } c x :=
  h.noted (h.listed.mark e) (.inl hlast) fun a h' => by simp [ha] at h'

theorem waited_mark (e : r.requestList = l₁ ++ l₂) :
    r.Waited { r with requestList := l₁.map Request.mark ++ l₂ } := by
  refine ⟨rfl, rfl, rfl, rfl, rfl, rfl, fun q' hq' => ?_⟩
  obtain ⟨q, hq, hpos, -⟩ := mem_map_mark_append hq'
  exact ⟨q, e ▸ hq, hpos⟩

/-! ### Waiting for a request -/

variable {look : Look}

theorem i915WaitSeqno_cases {seqno : Seqno} (h : r.i915WaitSeqno look seqno = some (ret, r')) :
    r.gpu look.toProgress = some r' ∧
      (ret = 0 ∧ seqnoPassed r'.hwsSeqno seqno = true ∨ ret ≠ 0 ∧ ret ≠ eNospc) := by
  obtain ⟨s, hs, h⟩ := Option.map_eq_some_iff.mp h
  cases hf : look.fault with
  | some f =>
    simp only [hf] at h
    obtain ⟨rfl, rfl⟩ := h
    exact ⟨hs, .inr f.errno_ne⟩
  | none =>
    simp only [hf, Prod.mk.injEq] at h
    obtain ⟨rfl, rfl⟩ := h
    refine ⟨hs, ?_⟩
    by_cases hp : seqnoPassed s.hwsSeqno seqno = true
    · exact .inl ⟨if_pos hp, hp⟩
    · rw [if_neg hp]
      exact .inr (Fault.errno_ne .ebusy)

/-- A call that ends with the ring as it was, but for a head that has gone on, and with enough
space if it succeeds. -/
structure Served (r : IntelRingBuffer) (x : ℕ) (n ret : ℤ) (r' : IntelRingBuffer) : Prop where
  inv : ∃ c, r'.Inv c x
  waited : r.Waited r'
  space : ret = 0 → n ≤ r'.space

theorem Served.after {s : IntelRingBuffer} (h : s.Served x n ret r') (hw : r.Waited s) :
    r.Served x n ret r' := ⟨h.inv, hw.trans h.waited, h.space⟩

/-- No request keeps its tail, so nothing that is retired later changes the head. -/
structure NoneLeft (r : IntelRingBuffer) : Prop where
  last : r.lastRetiredHead = taken
  all : ∀ q ∈ r.requestList, q.tail = taken

theorem Inv.waitListed (h : r.Inv c x) (hr : r.reserved = none) (ha : r.adding = none)
    (hlast : r.lastRetiredHead = taken) (hw : r.waitListed look n = some (ret, r')) :
    r.Served x n ret r' ∧ (ret = eNospc → r'.NoneLeft) := by
  obtain ⟨l₁, l₂, e, hlist, hfound⟩ := consume_cases r.size r.tail n r.requestList
  have hmark := h.mark ha hlast e
  have hwaited := waited_mark e
  simp only [IntelRingBuffer.waitListed, hlist] at hw
  rcases hfound with ⟨h0, rfl⟩ | ⟨q, l₃, rfl, hseqno, htail, hspace⟩
  · simp only [h0] at hw
    obtain ⟨rfl, rfl⟩ := hw
    refine ⟨⟨⟨c, hmark⟩, hwaited, fun h => absurd h (by decide)⟩, fun _ => ⟨hlast, ?_⟩⟩
    intro q' hq'
    rw [List.append_nil, List.mem_map] at hq'
    obtain ⟨q, -, rfl⟩ := hq'
    rfl
  -- the request found is waited for
  have hq : q ∈ r.requestList := by simp [e]
  rw [hseqno, if_neg (h.listed.seqno q hq).1] at hw
  obtain ⟨y, hy, hw⟩ := Option.map_eq_some_iff.mp hw
  obtain ⟨⟨ret', s⟩, hs, rfl⟩ := Option.map_eq_some_iff.mp hy
  obtain ⟨hgpu, hret⟩ := i915WaitSeqno_cases hs
  obtain ⟨hinv, hgw, hreq, -⟩ := hmark.gpu hgpu
  rcases hret with ⟨rfl, hp⟩ | ⟨hne, hnospc⟩
  swap
  · simp only [hne, if_false, ne_eq] at hw
    obtain ⟨rfl, rfl⟩ := hw
    exact ⟨⟨⟨c, hinv⟩, hwaited.trans hgw, fun h => absurd h hne⟩, fun h => absurd h hnospc⟩
  -- it and perhaps later ones are retired, and the last of them leaves enough space
  have hmem : q ∈ s.requestList := by
    rw [hreq]
    simp
  obtain ⟨l, hl, hle⟩ := hinv.retire_found hmem hp htail
  have hrw := hwaited.trans (hgw.trans (waited_retire s))
  have hres : s.i915GemRetireRequestsRing.reserved = none := hrw.reserved.trans hr
  have htake := hinv.retire.takeLastRetired hres hl
  have hne : s.i915GemRetireRequestsRing.lastRetiredHead ≠ taken := by
    rw [hl.slot]
    exact hinv.retire.laid.mod_ne_taken l
  have henough : n ≤ s.i915GemRetireRequestsRing.takeLastRetired.space := by
    have hslot := (h.listed.slot q hq htail)
    have hgap := h.gap
    have hroom : spaceTo r.size r.tail q.tail =
        (q.position : ℤ) + r.size - i915RingFreeSpace - r.filled := by
      rw [h.tail_eq hr, hslot.1]
      exact spaceTo_eq (h.listed.filled q hq) (by omega)
    rw [htake.2, hrw.filled, hrw.size]
    omega
  simp only [if_true, if_neg hne,
    if_neg (not_lt.mpr henough)] at hw
  obtain ⟨rfl, rfl⟩ := hw
  exact ⟨⟨⟨l, htake.1⟩, hrw.trans (waited_takeLastRetired _), fun _ => henough⟩,
    fun h => absurd h (by decide)⟩

theorem Inv.intelRingWaitRequest (h : r.Inv c x) (hr : r.reserved = none) (ha : r.adding = none)
    (hw : r.intelRingWaitRequest look n = some (ret, r')) :
    r.Served x n ret r' ∧ (ret = eNospc → r'.NoneLeft) := by
  have hretire := waited_retire r
  simp only [IntelRingBuffer.intelRingWaitRequest] at hw
  by_cases hlast : r.i915GemRetireRequestsRing.lastRetiredHead = taken
  · simp only [hlast] at hw
    obtain ⟨hserved, hnone⟩ := h.retire.waitListed (hretire.reserved.trans hr)
      (hretire.adding.trans ha) hlast hw
    exact ⟨hserved.after hretire, hnone⟩
  obtain ⟨l, hl⟩ := h.retire.last.resolve_left hlast
  have htake := (h.retire.takeLastRetired (hretire.reserved.trans hr) hl).1
  have htw := hretire.trans (waited_takeLastRetired _)
  simp only [hlast, ne_eq, not_false_eq_true, if_true] at hw
  split at hw
  case isTrue hn =>
    obtain ⟨rfl, rfl⟩ := hw
    exact ⟨⟨⟨l, htake⟩, htw, fun _ => hn⟩, fun h => absurd h (by decide)⟩
  case isFalse =>
    obtain ⟨hserved, hnone⟩ := htake.waitListed (htw.reserved.trans hr) (htw.adding.trans ha)
      rfl hw
    exact ⟨hserved.after htw, hnone⟩

/-! ### Waiting for the head register -/

theorem waited_readHead (r : IntelRingBuffer) : r.Waited r.readHead :=
  ⟨rfl, rfl, rfl, rfl, rfl, rfl, fun q hq => ⟨q, hq, rfl⟩⟩

theorem Inv.lookAtHead {p : Progress} (h : r.Inv c x) (hr : r.reserved = none)
    (ha : r.adding = none) (hnone : r.NoneLeft) (hg : r.gpu p = some r') :
    r'.readHead.Inv r'.drained x ∧ r.Waited r'.readHead ∧ r'.readHead.NoneLeft := by
  obtain ⟨hinv, hgw, hreq, hlast⟩ := h.gpu hg
  have hnone' : r'.NoneLeft := ⟨hlast.trans hnone.last, fun q hq => hnone.all q (hreq ▸ hq)⟩
  exact ⟨hinv.readHead (hgw.reserved.trans hr) (hgw.adding.trans ha) hnone'.last hnone'.all,
    hgw.trans (waited_readHead r'), ⟨hnone'.last, hnone'.all⟩⟩

/-- After a look the loop either ends or goes on with the next one. -/
theorem pollHead_cases {looks : List Look} (hw : pollHead n look looks r = some (ret, r')) :
    ∃ s, r.gpu look.toProgress = some s ∧
      (r' = s.readHead ∧ (ret = 0 → n ≤ s.readHead.space) ∨
        ∃ look' looks', looks = look' :: looks' ∧
          pollHead n look' looks' s.readHead = some (ret, r')) := by
  rw [IntelRingBuffer.pollHead.eq_def] at hw
  obtain ⟨s, hs, hw⟩ := Option.bind_eq_some_iff.mp hw
  refine ⟨s, hs, ?_⟩
  by_cases hn : n ≤ s.readHead.space
  · rw [if_pos hn, Option.some.injEq, Prod.mk.injEq] at hw
    exact .inl ⟨hw.2.symm, fun _ => hn⟩
  rw [if_neg hn] at hw
  cases hf : look.fault with
  | some f =>
    simp only [hf, Option.some.injEq, Prod.mk.injEq] at hw
    exact .inl ⟨hw.2.symm, fun h0 => absurd (hw.1.trans h0) f.errno_ne.1⟩
  | none =>
    cases looks with
    | nil =>
      simp only [hf, Option.some.injEq, Prod.mk.injEq] at hw
      exact .inl ⟨hw.2.symm, fun h0 => absurd (hw.1.trans h0) (by decide)⟩
    | cons look' looks' =>
      simp only [hf] at hw
      exact .inr ⟨look', looks', rfl, hw⟩

theorem Inv.pollHead {looks : List Look} (h : r.Inv c x) (hr : r.reserved = none)
    (ha : r.adding = none) (hnone : r.NoneLeft) (hw : pollHead n look looks r = some (ret, r')) :
    r.Served x n ret r' := by
  induction looks generalizing r c look with
  | nil =>
    obtain ⟨s, hs, ⟨rfl, hspace⟩ | ⟨_, _, e, -⟩⟩ := pollHead_cases hw
    · obtain ⟨hinv, hrw, -⟩ := h.lookAtHead hr ha hnone hs
      exact ⟨⟨_, hinv⟩, hrw, hspace⟩
    · cases e
  | cons look' looks ih =>
    obtain ⟨s, hs, hcase⟩ := pollHead_cases hw
    obtain ⟨hinv, hrw, hnone'⟩ := h.lookAtHead hr ha hnone hs
    rcases hcase with ⟨rfl, hspace⟩ | ⟨_, _, e, hgo⟩
    · exact ⟨⟨_, hinv⟩, hrw, hspace⟩
    · cases e
      exact (ih hinv (hrw.reserved.trans hr) (hrw.adding.trans ha) hnone' hgo).after hrw

theorem Inv.ensureSpace (h : r.Inv c x) (hr : r.reserved = none) (ha : r.adding = none)
    {w : Waiting} (hw : r.ensureSpace w n = some (ret, r')) : r.Served x n ret r' := by
  unfold IntelRingBuffer.ensureSpace at hw
  split at hw
  case isFalse hn =>
    obtain ⟨rfl, rfl⟩ := hw
    exact ⟨⟨c, h⟩, Waited.rfl', fun _ => not_lt.mp hn⟩
  obtain ⟨⟨ret', s⟩, hs, hw⟩ := Option.bind_eq_some_iff.mp hw
  obtain ⟨hserved, hnone⟩ := h.intelRingWaitRequest hr ha hs
  split at hw
  case isTrue =>
    obtain ⟨rfl, rfl⟩ := hw
    exact hserved
  case isFalse hret =>
    obtain ⟨c', hinv⟩ := hserved.inv
    have hw' := hserved.waited
    exact (hinv.pollHead (hw'.reserved.trans hr) (hw'.adding.trans ha)
      (hnone (not_not.mp hret)) hw).after hw'

end IntelRingBuffer

end GfxDrm.RingBuffer
