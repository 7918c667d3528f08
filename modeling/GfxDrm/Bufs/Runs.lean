import GfxDrm.Bufs.Fill
import Mathlib.Algebra.BigOperators.Group.Finset.Piecewise
import Mathlib.Algebra.Order.BigOperators.Group.Finset

/-! The list of all buffers, over the calls that add to it. -/

namespace GfxDrm.Bufs
open Run

variable {s s' : BufState} {r r' : DrmBufDesc} {o : AddbufsOutcome} {kind : AddbufsKind} {ret : ℤ}

/-! ### What a call does -/

/-- A call that fails has at most set an entry that was empty, to an empty one. -/
def BufState.Refuses (s : BufState) (r : DrmBufDesc) (s' : BufState) : Prop :=
  s' = s ∨ (s.dma.bufs r.order).buflist = [] ∧ s' = s.setEntry r []

/-- A call that succeeds has added the entry of its order. -/
structure BufState.Grows (s : BufState) (kind : AddbufsKind) (r : DrmBufDesc) (o : AddbufsOutcome)
    (s' : BufState) : Prop where
  order : r.order ≤ drmMaxOrder
  empty : (s.dma.bufs r.order).buflist = []
  pos : 0 < r.count.toNat
  le : r.count.toNat ≤ 4096
  fill : ∃ handle f, kind.handle = some handle ∧
    f.buflist = s.requested r kind.agpOffset handle r.count.toNat ∧ s' = s.addEntry kind r o f

theorem addbufs_cases (h : s.addbufs kind r o = some (ret, r', s')) :
    ret ≠ 0 ∧ s.Refuses r s' ∨ ret = 0 ∧ s.Grows kind r o s' := by
  unfold BufState.addbufs at h
  split at h
  · cases h
    exact .inl ⟨by decide, .inl rfl⟩
  rename_i horder
  split at h
  · cases h
    exact .inl ⟨by decide, .inl rfl⟩
  split at h
  · cases h
    exact .inl ⟨by decide, .inl rfl⟩
  rename_i hempty
  split at h
  · cases h
    exact .inl ⟨by decide, .inl rfl⟩
  rename_i hcount
  split at h
  · cases h
    exact .inl ⟨by decide, .inl rfl⟩
  rename_i hmemory
  have hempty' : (s.dma.bufs r.order).buflist = [] :=
    List.length_eq_zero_iff.mp (not_not.mp hempty)
  obtain ⟨handle, hhandle, h⟩ := Option.map_eq_some_iff.mp h
  split at h
  · cases h
    exact .inl ⟨by decide, .inr ⟨hempty', rfl⟩⟩
  · rename_i f hfill
    split at h
    · cases h
      exact .inl ⟨by decide, .inr ⟨hempty', rfl⟩⟩
    · cases h
      have hlist := BufState.fill_buflist (m := 0) rfl r.offset_zero.symm hfill
      rw [Nat.zero_add] at hlist
      refine .inr ⟨rfl, ⟨by omega, hempty', ?_, by omega, handle, f, hhandle, hlist, rfl⟩⟩
      refine Nat.pos_of_ne_zero fun hzero => hmemory ?_
      rw [hzero]
      rfl

/-- The memory the buffers of a request are to lie in: the aperture, or the scatter-gather pages. -/
def DrmSgMem.region (sg : DrmSgMem) : Region where
  base := 0
  size := sg.pages * pageSize
  fits := by
    have := sg.pages_lt
    unfold pageSize
    change 0 + sg.pages * 4096 < 2 ^ 64
    omega

def BufState.backing (s : BufState) (r : DrmBufDesc) : Option Region :=
  if r.flags &&& drmAgpBuffer ≠ 0 then s.agp else s.sg.map DrmSgMem.region

/-- How the request's function makes the list longer. -/
def DrmBufDesc.grow (r : DrmBufDesc) (junk old : ℕ → BufPtr) (n n' : ℕ) : ℕ → BufPtr :=
  if r.flags &&& drmAgpBuffer ≠ 0 then (agpCopied junk old n).1 else drmRealloc old n n'

theorem drmAddbufs_cases (h : s.drmAddbufs r o = some (ret, r', s')) :
    ret ≠ 0 ∧ s.Refuses r s' ∨ ret = 0 ∧ ∃ kind region, s.backing r = some region ∧
      kind.agpOffset = region.base + r.agpStart ∧ kind.grow = r.grow ∧ s.Grows kind r o s' := by
  unfold BufState.drmAddbufs at h
  split at h
  · cases h
    exact .inl ⟨by decide, .inl rfl⟩
  split at h
  · rename_i hflags
    unfold BufState.drmAddbufsAgp at h
    split at h
    · cases h
      exact .inl ⟨by decide, .inl rfl⟩
    split at h
    · cases h
    · rename_i agp hagp
      refine (addbufs_cases h).imp id fun hgrows => ⟨hgrows.1, _, agp, ?_, rfl, ?_, hgrows.2⟩
      · rw [BufState.backing, if_pos hflags, hagp]
      · funext junk old n n'
        exact (if_pos hflags).symm
  split at h
  · rename_i hflags _
    unfold BufState.drmAddbufsSg at h
    split at h
    · cases h
      exact .inl ⟨by decide, .inl rfl⟩
    split at h
    · cases h
      exact .inl ⟨by decide, .inl rfl⟩
    split at h
    · cases h
      exact .inl ⟨by decide, .inl rfl⟩
    refine (addbufs_cases h).imp id fun hgrows => ?_
    obtain ⟨handle, f, hhandle, -⟩ := hgrows.2.fill
    obtain ⟨sg, hsg, -⟩ := Option.map_eq_some_iff.mp hhandle
    refine ⟨hgrows.1, _, sg.region, ?_, (UInt64.zero_add _).symm, ?_, hgrows.2⟩
    · rw [BufState.backing, if_neg hflags, hsg]
      rfl
    · funext junk old n n'
      exact (if_neg hflags).symm
  · cases h
    exact .inl ⟨by decide, .inl rfl⟩

/-! ### What holds of the list -/

/-- What a pointer of the list points to. -/
def BufState.deref (s : BufState) : BufPtr → Option DrmBuf
  | .buf order k => (s.dma.bufs order).buflist[k]?
  | .other _ => none

/-- Every entry of the list points to a buffer that has its index. -/
def BufState.Indexed (s : BufState) : Prop :=
  ∀ i < s.dma.bufCount, ∃ b, s.deref (s.dma.buflist i) = some b ∧ b.idx = i

theorem refuses_bufCount (h : s.Refuses r s') :
    s'.dma.bufCount = s.dma.bufCount ∧ s'.dma.buflist = s.dma.buflist := by
  rcases h with rfl | ⟨-, rfl⟩
  · exact ⟨rfl, rfl⟩
  · exact ⟨rfl, rfl⟩

theorem refuses_bufs (h : s.Refuses r s') (order : ℕ) :
    (s'.dma.bufs order).buflist = (s.dma.bufs order).buflist := by
  rcases h with rfl | ⟨hempty, rfl⟩
  · rfl
  · by_cases horder : order = r.order
    · subst horder
      simp [BufState.setEntry, hempty]
    · simp [BufState.setEntry, Function.update_of_ne horder]

/-- The orders do not share their buffers, and the list is as long as all of them together. -/
structure BufInv (s : BufState) : Prop where
  indexed : s.Indexed
  small : ∀ order, (s.dma.bufs order).buflist.length ≤ 4096
  count : s.dma.bufCount = ∑ order ∈ Finset.range (drmMaxOrder + 1),
    (s.dma.bufs order).buflist.length

theorem BufInv.of_refuses (hs : BufInv s) (h : s.Refuses r s') : BufInv s' := by
  obtain ⟨hcount, hlist⟩ := refuses_bufCount h
  have hbufs := refuses_bufs h
  constructor
  · intro i hi
    obtain ⟨b, hb, hidx⟩ := hs.indexed i (hcount ▸ hi)
    refine ⟨b, ?_, hidx⟩
    rw [hlist, ← hb]
    cases s.dma.buflist i with
    | buf order k => exact congrArg (fun l : List DrmBuf => l[k]?) (hbufs order)
    | other address => rfl
  · intro order
    rw [hbufs]
    exact hs.small order
  · rw [hcount, hs.count]
    exact Finset.sum_congr rfl fun order _ => by rw [hbufs]

/-! ### A call that succeeds -/

theorem addEntry_bufs (f : Filling) (order : ℕ) :
    ((s.addEntry kind r o f).dma.bufs order).buflist =
      if order = r.order then f.buflist else (s.dma.bufs order).buflist := by
  unfold BufState.addEntry BufState.setEntry
  dsimp only
  split
  · rename_i horder
    rw [horder, Function.update_self]
  · rename_i horder
    rw [Function.update_of_ne horder]

theorem drmRealloc_of_lt {old : ℕ → BufPtr} {n n' i : ℕ} (hi : i < n) (hn : n ≤ n') :
    drmRealloc old n n' i = old i := by
  rw [drmRealloc, if_pos (by omega), Nat.min_eq_left hn]
  exact Copy.run_block_of_lt hi

namespace BufState.Grows

theorem bufCount (h : s.Grows kind r o s') :
    s'.dma.bufCount = s.dma.bufCount + r.count.toNat := by
  obtain ⟨handle, f, -, hlist, rfl⟩ := h.fill
  change s.dma.bufCount + f.buflist.length = _
  rw [hlist, length_requested]

/-- The buffers of the other orders stay. -/
theorem deref_old (h : s.Grows kind r o s') {p : BufPtr} {b : DrmBuf} (hb : s.deref p = some b) :
    s'.deref p = some b := by
  obtain ⟨handle, f, -, -, rfl⟩ := h.fill
  cases p with
  | other address => cases hb
  | buf order k =>
    have horder : order ≠ r.order := by
      rintro rfl
      rw [deref, h.empty] at hb
      cases hb
    rw [deref, addEntry_bufs, if_neg horder]
    exact hb

/-- The entries there were are what the list grew from. -/
theorem buflist_old (h : s.Grows kind r o s') {i : ℕ} (hi : i < s.dma.bufCount) :
    s'.dma.buflist i = kind.grow o.junk s.dma.buflist s.dma.bufCount s'.dma.bufCount i := by
  obtain ⟨handle, f, -, -, rfl⟩ := h.fill
  exact if_neg fun hnew => Nat.not_lt.mpr hnew.1 hi

/-- The new entries point to the new buffers. -/
theorem deref_new (h : s.Grows kind r o s') {i : ℕ} (hle : s.dma.bufCount ≤ i)
    (hi : i < s'.dma.bufCount) : ∃ b, s'.deref (s'.dma.buflist i) = some b ∧ b.idx = i := by
  have hcount := h.bufCount
  obtain ⟨handle, f, -, hlist, rfl⟩ := h.fill
  have hk : i - s.dma.bufCount < r.count.toNat := by omega
  have hptr : (s.addEntry kind r o f).dma.buflist i = .buf r.order (i - s.dma.bufCount) :=
    if_pos ⟨hle, hi⟩
  refine ⟨s.mkBuf r kind.agpOffset handle (i - s.dma.bufCount) (r.offset (i - s.dma.bufCount)),
    ?_, ?_⟩
  · rw [hptr, deref, addEntry_bufs, if_pos rfl, hlist, requested, List.getElem?_map,
      List.getElem?_range hk]
    rfl
  · exact Nat.add_sub_of_le hle

end BufState.Grows

/-- What is asked of a call that succeeds: the list is in order, the buffers there were are where
they were, and the new ones lie apart from each other in their memory. -/
structure BufState.Added (s s' : BufState) (r : DrmBufDesc) : Prop where
  indexed : s'.Indexed
  keeps : ∀ i < s.dma.bufCount, s'.dma.buflist i = s.dma.buflist i ∧
    s'.deref (s.dma.buflist i) = s.deref (s.dma.buflist i)
  apart : (s'.dma.bufs r.order).buflist.Pairwise DrmBuf.Apart
  inside : ∃ region, s.backing r = some region ∧
    ∀ b ∈ (s'.dma.bufs r.order).buflist, region.Contains b

/-- The fresh list of drm_addbufs_agp happens to hold the old one, and there is room for the
buffers. -/
structure BufState.Carries (s : BufState) (r : DrmBufDesc) (o : AddbufsOutcome) : Prop where
  list : r.flags &&& drmAgpBuffer ≠ 0 → ∀ i < s.dma.bufCount, o.junk i = s.dma.buflist i
  room : ∃ region, s.backing r = some region ∧
    r.agpStart.toNat + r.count.toNat * r.alignment ≤ region.size

theorem grow_eq_iff {n n' : ℕ} {old : ℕ → BufPtr} (hn : n ≤ n') :
    (∀ i < n, r.grow o.junk old n n' i = old i) ↔
      (r.flags &&& drmAgpBuffer ≠ 0 → ∀ i < n, o.junk i = old i) := by
  unfold DrmBufDesc.grow
  by_cases hflags : r.flags &&& drmAgpBuffer ≠ 0
  · simp only [if_pos hflags]
    exact ⟨fun h _ => h, fun h => h hflags⟩
  · simp only [if_neg hflags]
    exact ⟨fun _ h => absurd h hflags, fun _ i hi => drmRealloc_of_lt hi hn⟩

theorem added_iff {region : Region} (hs : s.Indexed) (hregion : s.backing r = some region)
    (hoffset : kind.agpOffset = region.base + r.agpStart) (hgrow : kind.grow = r.grow)
    (h : s.Grows kind r o s') : s.Added s' r ↔ s.Carries r o := by
  have hcount : s.dma.bufCount ≤ s'.dma.bufCount := by
    rw [h.bufCount]
    exact Nat.le_add_right ..
  have hold : ∀ i < s.dma.bufCount, s'.dma.buflist i =
      r.grow o.junk s.dma.buflist s.dma.bufCount s'.dma.bufCount i := fun i hi => by
    rw [h.buflist_old hi, hgrow]
  have hlist : ∃ handle, (s'.dma.bufs r.order).buflist =
      s.requested r (region.base + r.agpStart) handle r.count.toNat := by
    obtain ⟨handle, f, -, hf, hs'⟩ := h.fill
    refine ⟨handle, ?_⟩
    rw [hs', addEntry_bufs, if_pos rfl, hf, hoffset]
  obtain ⟨handle, hbufs⟩ := hlist
  constructor
  · intro hadded
    refine ⟨(grow_eq_iff hcount).mp fun i hi => ?_, region, hregion, ?_⟩
    · rw [← hold i hi]
      exact (hadded.keeps i hi).1
    · obtain ⟨region', hregion', hinside⟩ := hadded.inside
      rw [hregion] at hregion'
      cases hregion'
      rw [hbufs] at hinside
      exact (requested_inside_iff h.pos).mp hinside
  · rintro ⟨hcarries, region', hregion', hroom⟩
    rw [hregion] at hregion'
    cases hregion'
    have hkeep : ∀ i < s.dma.bufCount, s'.dma.buflist i = s.dma.buflist i := fun i hi => by
      rw [hold i hi]
      exact (grow_eq_iff hcount).mpr hcarries i hi
    refine ⟨fun i hi => ?_, fun i hi => ⟨hkeep i hi, ?_⟩, ?_, region, hregion, ?_⟩
    · by_cases hnew : s.dma.bufCount ≤ i
      · exact h.deref_new hnew hi
      · obtain ⟨b, hb, hidx⟩ := hs i (Nat.not_le.mp hnew)
        rw [hkeep i (Nat.not_le.mp hnew)]
        exact ⟨b, h.deref_old hb, hidx⟩
    · obtain ⟨b, hb, -⟩ := hs i hi
      rw [h.deref_old hb, hb]
    · rw [hbufs]
      exact requested_apart h.order h.le
    · rw [hbufs]
      exact (requested_inside_iff h.pos).mpr hroom

/-! ### Runs -/

theorem BufInv.of_fresh (h : s.Fresh) : BufInv s := by
  have hdma := h.1
  refine ⟨fun i hi => ?_, fun order => ?_, ?_⟩
  · rw [hdma] at hi
    exact absurd hi (Nat.not_lt_zero i)
  · rw [hdma]
    exact Nat.zero_le _
  · rw [hdma]
    exact (Finset.sum_eq_zero fun _ _ => rfl).symm

theorem BufInv.of_grows (hs : BufInv s) (h : s.Grows kind r o s') (hindexed : s'.Indexed) :
    BufInv s' := by
  have hbufs : ∀ order, (s'.dma.bufs order).buflist.length =
      (s.dma.bufs order).buflist.length + if order = r.order then r.count.toNat else 0 := by
    intro order
    obtain ⟨handle, f, -, hf, rfl⟩ := h.fill
    rw [addEntry_bufs]
    by_cases horder : order = r.order
    · rw [if_pos horder, if_pos horder, horder, h.empty, hf, BufState.length_requested]
      exact (Nat.zero_add _).symm
    · rw [if_neg horder, if_neg horder, Nat.add_zero]
  refine ⟨hindexed, fun order => ?_, ?_⟩
  · rw [hbufs]
    by_cases horder : order = r.order
    · have hle := h.le
      rw [horder, h.empty]
      simpa using hle
    · rw [if_neg horder]
      exact hs.small order
  · have horder := h.order
    rw [h.bufCount, hs.count, Finset.sum_congr rfl fun order _ => hbufs order,
      Finset.sum_add_distrib, Finset.sum_ite_eq', if_pos (Finset.mem_range.mpr (by omega))]

/-- A call that succeeds finds the list and the room as they should be. -/
def BufAction.Good (s : BufState) : BufAction → Prop
  | .addbufs r o => ∀ r' s', s.drmAddbufs r o = some (0, r', s') → s.Carries r o
  | .infobufs => True

theorem BufInv.of_drmAddbufs (hs : BufInv s) (h : s.drmAddbufs r o = some (ret, r', s'))
    (hgood : (BufAction.addbufs r o).Good s) : BufInv s' := by
  rcases drmAddbufs_cases h with
    ⟨-, hrefuses⟩ | ⟨rfl, kind, region, hregion, hoffset, hgrow, hgrows⟩
  · exact hs.of_refuses hrefuses
  · have hadded := (added_iff hs.indexed hregion hoffset hgrow hgrows).mpr (hgood r' s' h)
    exact hs.of_grows hgrows hadded.indexed

theorem bufInv (h : ReachWhile bufSystem (fun s a => a.Good s) s) : BufInv s := by
  refine h.invariant (fun s hs => .of_fresh hs) fun s a s' hs hgood hstep => ?_
  cases a with
  | addbufs r o =>
    obtain ⟨⟨ret, r', t⟩, hcall, rfl⟩ := Option.map_eq_some_iff.mp hstep
    exact hs.of_drmAddbufs hcall hgood
  | infobufs =>
    cases hstep
    exact ⟨hs.indexed, hs.small, hs.count⟩

/-- After a run in which this was so, a call that succeeds does what is asked of it if and only if
it is so again. -/
theorem drm_addbufs_added_iff (h : ReachWhile bufSystem (fun s a => a.Good s) s)
    (hok : s.drmAddbufs r o = some (0, r', s')) : s.Added s' r ↔ s.Carries r o := by
  rcases drmAddbufs_cases hok with ⟨hne, -⟩ | ⟨-, kind, region, hregion, hoffset, hgrow, hgrows⟩
  · exact absurd rfl hne
  · exact added_iff (bufInv h).indexed hregion hoffset hgrow hgrows

/-- An aperture of 16 MB and no buffers. -/
def apertureOnly : BufState where
  agp := some ⟨0x80000000, 0x1000000, by decide⟩

def agpRequest (size : Int32) : DrmBufDesc where
  count := 1
  size := size
  flags := drmAgpBuffer
  agpStart := 0

/-- The state a call leaves. -/
def BufState.after (s : BufState) (r : DrmBufDesc) : BufState :=
  ((s.drmAddbufs r {}).map fun result => result.2.2).getD s

/-- One buffer of 32 bytes has been added. -/
def withOne : BufState := apertureOnly.after (agpRequest 32)

theorem withOne_reach : ReachWhile bufSystem (fun s a => a.Good s) withOne := by
  have hfresh : ReachWhile bufSystem (fun s a => a.Good s) apertureOnly := .init ⟨rfl, rfl⟩
  refine hfresh.step (a := .addbufs (agpRequest 32) {}) (fun r' s' _ => ⟨fun _ i hi => ?_, ?_⟩) rfl
  · exact absurd hi (Nat.not_lt_zero i)
  · exact ⟨⟨0x80000000, 0x1000000, by decide⟩, rfl, by decide⟩

theorem drm_addbufs_added_second :
    withOne.Added (withOne.after (agpRequest 64)) (agpRequest 64) ↔
      withOne.Carries (agpRequest 64) {} :=
  drm_addbufs_added_iff withOne_reach (Eq.refl (some (0, agpRequest 64, _)))

/-- The first buffer is not on the list any more. -/
theorem drm_addbufs_loses_first :
    Reach bufSystem withOne ∧ ∃ s' r',
      withOne.drmAddbufs (agpRequest 64) {} = some (0, r', s') ∧
        ¬withOne.Added s' (agpRequest 64) := by
  refine ⟨withOne_reach.reach, withOne.after (agpRequest 64), agpRequest 64, rfl, fun h => ?_⟩
  obtain ⟨b, hb, -⟩ := h.indexed 0 (by decide +kernel)
  cases hb

end GfxDrm.Bufs
