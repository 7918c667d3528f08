import GfxDrm.I915.UserRelocs

/-! How far a pass over the relocations gets before it fails, in the objects and in user
memory. -/

namespace GfxDrm.I915

open Bytes Errno

variable {m m' : Mem} {a b n k : ℕ} {v : BitVec 64}

/-! ### Entries in user memory -/

theorem readReloc_congr (h : ∀ x, a ≤ x → x < a + sizeofReloc → m x = m' x) :
    readReloc m a = readReloc m' a := by
  have hload : ∀ d k, d + k ≤ sizeofReloc → load m (a + d) k = load m' (a + d) k := fun d k hd =>
    load_congr fun x hx hlt => h x (by omega) (by omega)
  have h0 := hload 0 4 (by decide)
  have h4 := hload 4 4 (by decide)
  have h8 := hload 8 8 (by decide)
  have h16 := hload 16 8 (by decide)
  have h24 := hload 24 4 (by decide)
  have h28 := hload 28 4 (by decide)
  rw [Nat.add_zero] at h0
  simp only [readReloc, h0, h4, h8, h16, h24, h28]

theorem writePresumed_outside {x : ℕ} (h : x < a ∨ a + sizeofReloc ≤ x) :
    writePresumed m a v x = m x := by
  refine store_outside ?_
  unfold sizeofReloc at h
  omega

theorem readReloc_writePresumed :
    readReloc (writePresumed m a v) a = { readReloc m a with presumedOffset := v } := by
  have hload : ∀ d k, d + k ≤ 16 ∨ 24 ≤ d →
      load (writePresumed m a v) (a + d) k = load m (a + d) k := fun d k hd =>
    load_store_disjoint (by omega)
  have hself : load (writePresumed m a v) (a + 16) 8 = v.toNat := load_store_lt v.isLt
  have h0 := hload 0 4 (by decide)
  have h4 := hload 4 4 (by decide)
  have h8 := hload 8 8 (by decide)
  have h24 := hload 24 4 (by decide)
  have h28 := hload 28 4 (by decide)
  rw [Nat.add_zero] at h0
  simp only [readReloc, h0, h4, h8, h24, h28, hself, BitVec.ofNat_toNat, BitVec.setWidth_eq]

theorem readRelocs_congr (h : ∀ x, a ≤ x → x < a + sizeofReloc * n → m x = m' x) :
    readRelocs m a n = readRelocs m' a n := by
  induction n generalizing a with
  | zero => rfl
  | succ n ih =>
    rw [Nat.mul_succ] at h
    rw [readRelocs, readRelocs, readReloc_congr fun x hx hlt => h x hx (by omega),
      ih fun x hx hlt => h x (by omega) (by omega)]

@[simp] theorem length_readRelocs (m : Mem) (a n : ℕ) : (readRelocs m a n).length = n := by
  induction n generalizing a with
  | zero => rfl
  | succ n ih => rw [readRelocs, List.length_cons, ih]

theorem readRelocs_add (m : Mem) (a n k : ℕ) :
    readRelocs m a (n + k) = readRelocs m a n ++ readRelocs m (a + sizeofReloc * n) k := by
  induction n generalizing a with
  | zero => simp [readRelocs]
  | succ n ih =>
    rw [Nat.succ_add, readRelocs, readRelocs, ih, List.cons_append, Nat.mul_succ, Nat.add_assoc,
      Nat.add_comm sizeofReloc]

/-! ### One entry -/

namespace RelocPass

variable {p : RelocPass} {c : RelocCall} {o : ObjId} {r : RelocationEntry} {log : List DwordWrite}

theorem settled_of_not_stale (h : p.stale c r = false) : p.settled c r = r := by
  unfold stale at h
  unfold settled
  cases ht : p.target c r with
  | none => rfl
  | some offset =>
    rw [ht, Option.any_some, bne_eq_false_iff_eq] at h
    rw [Option.getD_some, h]

theorem patches_single (o : ObjId) (r : RelocationEntry) :
    p.patches c o [r] = if p.stale c r then [p.patch c o r] else [] := by
  unfold patches
  by_cases h : p.stale c r = true
  · rw [List.filter_cons_of_pos h, if_pos h]
    rfl
  · rw [List.filter_cons_of_neg h, if_neg h]
    rfl

theorem patches_append (o : ObjId) (l l' : List RelocationEntry) :
    p.patches c o (l ++ l') = p.patches c o l ++ p.patches c o l' := by
  rw [patches, List.filter_append, List.map_append]
  rfl

/-- The entry is dealt with, or left alone with an error. -/
theorem relocateEntry_spec (p : RelocPass) (c : RelocCall) (o : ObjId) (r : RelocationEntry)
    (log : List DwordWrite) :
    p.relocateEntry c o r log = (0, p.settled c r, log ++ p.patches c o [r]) ∨
      ∃ ret ≠ 0, p.relocateEntry c o r log = (ret, r, log) := by
  unfold relocateEntry
  cases hlook : c.lookup r.targetHandle with
  | none => exact .inr ⟨eNoent, by decide, rfl⟩
  | some t =>
    have htarget : p.target c r = some ((p.gttOffset t).setWidth 64) := by
      rw [target, hlook]
      rfl
    by_cases hdomains : r.badDomains = true
    · exact .inr ⟨eInval, by decide, by simp only [hdomains, if_true]⟩
    by_cases hsame : (p.gttOffset t).setWidth 64 = r.presumedOffset
    · have hstale : p.stale c r = false := by
        rw [stale, htarget, Option.any_some, hsame, bne_self_eq_false]
      refine .inl ?_
      simp only [hdomains, hsame, if_true, Bool.false_eq_true, if_false]
      rw [settled_of_not_stale hstale, patches_single, hstale, if_neg (by simp), List.append_nil]
    by_cases haddress : r.badAddress (c.size o) = true
    · exact .inr ⟨eInval, by decide, by simp [hsame, haddress]⟩
    by_cases hret : p.makeWritable o = 0
    · have hstale : p.stale c r = true := by
        rw [stale, htarget, Option.any_some, bne_iff_ne]
        exact hsame
      have hpatch : p.patch c o r = ⟨o, r.address, p.gttOffset t + r.delta⟩ := by
        rw [patch, htarget, Option.getD_some,
          BitVec.setWidth_setWidth_of_le _ (by decide), BitVec.setWidth_eq]
      refine .inl ?_
      rw [patches_single, if_pos hstale, hpatch, settled, htarget]
      simp [hdomains, hsame, haddress, hret]
    · exact .inr ⟨p.makeWritable o, hret, by simp [hdomains, hsame, haddress, hret]⟩

theorem not_stale_iff {ret : ℤ} {r' : RelocationEntry} {log' : List DwordWrite}
    (h : p.relocateEntry c o r log = (ret, r', log')) (hret : ret = 0) :
    r'.presumedOffset = r.presumedOffset ↔ p.stale c r = false := by
  rcases p.relocateEntry_spec c o r log with heq | ⟨e, he, heq⟩
  · rw [heq] at h
    obtain ⟨-, rfl, -⟩ := Prod.mk.injEq .. ▸ (Prod.mk.injEq .. ▸ h)
    unfold settled stale
    cases p.target c r with
    | none => simp
    | some offset => simp
  · rw [heq] at h
    exact absurd (congrArg Prod.fst h) (by simpa [hret] using he)

/-! ### The entries of one object -/

/-- Of the entries `l`, in user memory at `a`, the first `j` have been dealt with and the first
`j'` written; one may have been written that user memory was not told of. -/
structure Progress (p : RelocPass) (c : RelocCall) (o : ObjId) (a : ℕ) (l : List RelocationEntry)
    (s : RelocState) (out : ℤ × RelocState) (j j' : ℕ) : Prop where
  le : j ≤ j' ∧ j' ≤ j + 1 ∧ j' ≤ l.length
  done : out.1 = 0 → j = l.length
  log : out.2.log = s.log ++ p.patches c o (l.take j')
  user : readRelocs out.2.user a l.length = (l.take j).map (p.settled c) ++ l.drop j
  frame : ∀ x, x < a ∨ a + sizeofReloc * l.length ≤ x → out.2.user x = s.user x

theorem Progress.refl {l : List RelocationEntry} {s : RelocState}
    (hl : readRelocs s.user a l.length = l) {ret : ℤ} (hret : ret = 0 → l = []) :
    Progress p c o a l s (ret, s) 0 0 where
  le := ⟨le_rfl, by omega, Nat.zero_le _⟩
  done h := by rw [hret h, List.length_nil]
  log := by simp [patches]
  user := by simpa using hl
  frame _ _ := rfl

/-- The entries `l'` behind `l` are taken up when `l` is done. -/
theorem Progress.append {l l' : List RelocationEntry} {s u : RelocState} {out : ℤ × RelocState}
    {i i' j j' : ℕ} (h : Progress p c o a l s (0, u) i i')
    (h' : Progress p c o (a + sizeofReloc * l.length) l' u out j j') :
    Progress p c o a (l ++ l') s out (l.length + j) (l.length + j') := by
  obtain rfl := h.done rfl
  have hle := h.le
  have hle' := h'.le
  obtain rfl : i' = l.length := by omega
  have hlen : sizeofReloc * (l ++ l').length =
      sizeofReloc * l.length + sizeofReloc * l'.length := by
    rw [List.length_append, Nat.mul_add]
  refine
    { le := ⟨by omega, by omega, by rw [List.length_append]; omega⟩
      done := fun h0 => by rw [h'.done h0, List.length_append]
      log := ?_
      user := ?_
      frame := fun x hx => ?_ }
  · have hlog := h.log
    rw [List.take_length] at hlog
    rw [h'.log, hlog, List.append_assoc, ← patches_append, List.take_length_add_append]
  · have huser := h.user
    rw [List.take_length, List.drop_length, List.append_nil] at huser
    rw [List.length_append, readRelocs_add, h'.user, List.take_length_add_append,
      List.drop_length_add_append, List.map_append, List.append_assoc, ← huser]
    rw [readRelocs_congr fun x _ hlt => h'.frame x (.inl hlt)]
  · rw [h'.frame x (by omega), h.frame x (by omega)]

/-- A failure leaves the entries behind alone. -/
theorem Progress.stop {l l' : List RelocationEntry} {s : RelocState} {out : ℤ × RelocState}
    {j j' : ℕ} (h : Progress p c o a l s out j j') (hret : out.1 ≠ 0)
    (hl' : readRelocs s.user (a + sizeofReloc * l.length) l'.length = l') :
    Progress p c o a (l ++ l') s out j j' := by
  have hle := h.le
  have hlen : sizeofReloc * (l ++ l').length =
      sizeofReloc * l.length + sizeofReloc * l'.length := by
    rw [List.length_append, Nat.mul_add]
  refine
    { le := ⟨hle.1, hle.2.1, by rw [List.length_append]; omega⟩
      done := fun h0 => absurd h0 hret
      log := ?_
      user := ?_
      frame := fun x hx => h.frame x (by omega) }
  · rw [List.take_append_of_le_length hle.2.2]
    exact h.log
  · rw [List.length_append, readRelocs_add, h.user, List.take_append_of_le_length (by omega),
      List.drop_append_of_le_length (by omega), List.append_assoc,
      readRelocs_congr fun x hx _ => h.frame x (.inr hx), hl']

/-- The entries of a chunk are dealt with one after the other. -/
theorem relocateChunk_progress (p : RelocPass) (c : RelocCall) (o : ObjId)
    (l : List RelocationEntry) (a : ℕ) (s : RelocState) (hl : readRelocs s.user a l.length = l) :
    ∃ j j', Progress p c o a l s (p.relocateChunk c o a l s) j j' := by
  induction l generalizing a s with
  | nil => exact ⟨0, 0, .refl hl fun _ => rfl⟩
  | cons r rest ih =>
    have hl₀ := hl
    rw [List.length_cons, readRelocs, List.cons.injEq] at hl
    obtain ⟨hr, hrest⟩ := hl
    -- the entries behind `r`, once `r` is dealt with
    have hcons : ∀ u : RelocState, u.log = s.log ++ p.patches c o [r] →
        readReloc u.user a = p.settled c r →
        (∀ x, x < a ∨ a + sizeofReloc ≤ x → u.user x = s.user x) →
        ∃ j j', Progress p c o a (r :: rest) s (p.relocateChunk c o (a + sizeofReloc) rest u)
          j j' := by
      intro u hlog hread hframe
      have hrest' : readRelocs u.user (a + sizeofReloc) rest.length = rest := by
        rw [readRelocs_congr fun x hx _ => hframe x (.inr hx), hrest]
      have hfirst : Progress p c o a [r] s (0, u) 1 1 :=
        { le := ⟨le_rfl, by omega, le_rfl⟩
          done := fun _ => rfl
          log := hlog
          user := congrArg (· :: []) hread
          frame := hframe }
      obtain ⟨j, j', h⟩ := ih (a + sizeofReloc) u hrest'
      exact ⟨_, _, hfirst.append h⟩
    unfold relocateChunk
    rcases p.relocateEntry_spec c o r s.log with heq | ⟨ret, hret, heq⟩
    · rw [heq]
      by_cases hstale : p.stale c r = true
      · have hne : ¬ (p.settled c r).presumedOffset = r.presumedOffset := fun h => by
          rw [(not_stale_iff heq rfl).mp h] at hstale
          exact absurd hstale (by simp)
        by_cases hout : p.copyOut a = true
        · simp only [hne, hout]
          refine ⟨0, 1, ?_⟩
          exact
            { le := ⟨by omega, by omega, by simp⟩
              done := fun h => absurd h (show ¬ eFault = 0 by decide)
              log := rfl
              user := hl₀
              frame := fun _ _ => rfl }
        · simp only [hne, hout]
          refine hcons ⟨writePresumed s.user a (p.settled c r).presumedOffset,
            s.log ++ p.patches c o [r]⟩ rfl ?_ fun x hx => writePresumed_outside hx
          rw [readReloc_writePresumed, hr]
          rfl
      · rw [Bool.not_eq_true] at hstale
        have heq' := (not_stale_iff heq rfl).mpr hstale
        simp only [heq']
        refine hcons ⟨s.user, s.log ++ p.patches c o [r]⟩ rfl ?_ fun _ _ => rfl
        rw [settled_of_not_stale hstale]
        exact hr
    · rw [heq]
      simp only [ne_eq, hret]
      exact ⟨0, 0, .refl hl₀ fun h => absurd h hret⟩

/-- The chunks are copied and dealt with one after the other. -/
theorem relocateChunks_progress (p : RelocPass) (c : RelocCall) (o : ObjId) (counts : List ℕ)
    (a : ℕ) (s : RelocState) :
    ∃ j j', Progress p c o a (readRelocs s.user a counts.sum) s (p.relocateChunks c o counts a s)
      j j' := by
  induction counts generalizing a s with
  | nil => exact ⟨0, 0, .refl rfl fun _ => rfl⟩
  | cons count rest ih =>
    unfold relocateChunks
    by_cases hin : p.copyIn a = true
    · rw [if_pos hin]
      refine ⟨0, 0, .refl ?_ fun h => absurd h (by decide)⟩
      rw [length_readRelocs]
    · rw [if_neg hin, List.sum_cons, readRelocs_add]
      obtain ⟨j, j', h⟩ := relocateChunk_progress p c o (readRelocs s.user a count) a s
        (by rw [length_readRelocs])
      generalize hout : p.relocateChunk c o a (readRelocs s.user a count) s = out at h
      obtain ⟨ret, u⟩ := out
      have hlen := length_readRelocs s.user a count
      by_cases hret : ret = 0
      · subst hret
        have hbehind : readRelocs u.user (a + sizeofReloc * count) rest.sum =
            readRelocs s.user (a + sizeofReloc * count) rest.sum :=
          readRelocs_congr fun x hx _ => h.frame x (.inr (by rw [hlen]; exact hx))
        obtain ⟨k, k', h'⟩ := ih (a + sizeofReloc * count) u
        rw [hbehind] at h'
        nth_rewrite 1 [← hlen] at h'
        exact ⟨_, _, h.append h'⟩
      · simp only [ne_eq, hret]
        refine ⟨j, j', h.stop hret ?_⟩
        rw [length_readRelocs, length_readRelocs]

theorem sum_chunks (n : ℕ) : (chunks n).sum = n := by
  unfold chunks
  rw [List.sum_append, List.sum_replicate_nat, Nat.mul_comm]
  have hdiv := Nat.div_add_mod n stackRelocs
  split
  · rw [List.sum_nil]
    omega
  · exact hdiv

theorem relocateObject_progress (p : RelocPass) (c : RelocCall) (i : ℕ) (s : RelocState) :
    ∃ j j', Progress p c (c.object i) (c.relocsPtr i) (c.relocs s.user i) s
      (p.relocateObject c i s) j j' := by
  have h := relocateChunks_progress p c (c.object i) (chunks (c.relocationCount i))
    (c.relocsPtr i) s
  rw [sum_chunks] at h
  exact h

/-! ### All objects -/

/-- What `Progress` says of one object, for the objects of a pass. -/
structure PassProgress (p : RelocPass) (c : RelocCall) (order : List ℕ) (s : RelocState)
    (out : ℤ × RelocState) (j j' : ℕ → ℕ) : Prop where
  le : ∀ i ∈ order, j i ≤ j' i ∧ j' i ≤ j i + 1
  done : out.1 = 0 → ∀ i ∈ order, j i = c.relocationCount i
  log : out.2.log = s.log ++ order.flatMap fun i =>
    p.patches c (c.object i) ((c.relocs s.user i).take (j' i))
  user : ∀ i ∈ order, c.relocs out.2.user i =
    ((c.relocs s.user i).take (j i)).map (p.settled c) ++ (c.relocs s.user i).drop (j i)
  frame : ∀ x, (∀ i ∈ order, ¬ c.Covers i x) → out.2.user x = s.user x

variable {order : List ℕ} {s u : RelocState} {out : ℤ × RelocState}

theorem relocs_congr {i : ℕ} (h : ∀ x, c.Covers i x → m x = m' x) : c.relocs m i = c.relocs m' i :=
  readRelocs_congr fun x hx hlt => h x ⟨hx, hlt⟩

theorem PassProgress.refl {ret : ℤ} (hret : ret = 0 → order = []) :
    PassProgress p c order s (ret, s) (fun _ => 0) fun _ => 0 where
  le _ _ := ⟨le_rfl, Nat.zero_le _⟩
  done h := by simp [hret h]
  log := by simp [patches]
  user _ _ := by simp
  frame _ _ := rfl

/-- An object in front of others whose arrays are apart from its own. -/
theorem PassProgress.cons {i k k' : ℕ} {ret : ℤ} {j j' : ℕ → ℕ} (hi : i ∉ order)
    (hapart : ∀ i' ∈ order, ∀ x, c.Covers i x → ¬ c.Covers i' x)
    (h : Progress p c (c.object i) (c.relocsPtr i) (c.relocs s.user i) s (ret, u) k k')
    (h' : PassProgress p c order u out j j') (hret : out.1 = 0 → ret = 0) :
    PassProgress p c (i :: order) s out (Function.update j i k) (Function.update j' i k') := by
  have hlen : (c.relocs s.user i).length = c.relocationCount i := length_readRelocs ..
  have hframe : ∀ x, ¬ c.Covers i x → u.user x = s.user x := fun x hx =>
    h.frame x (by rw [hlen]; unfold RelocCall.Covers at hx; omega)
  have hsame : ∀ i' ∈ order, c.relocs u.user i' = c.relocs s.user i' := fun i' hi' =>
    relocs_congr fun x hx => hframe x fun hx' => hapart i' hi' x hx' hx
  have hne : ∀ i' ∈ order, i' ≠ i := fun i' hi' heq => hi (heq ▸ hi')
  have hle := h.le
  refine
    { le := List.forall_mem_cons.mpr ⟨?_, fun i' hi' => ?_⟩
      done := fun h0 => List.forall_mem_cons.mpr ⟨?_, fun i' hi' => ?_⟩
      log := ?_
      user := List.forall_mem_cons.mpr ⟨?_, fun i' hi' => ?_⟩
      frame := fun x hx => ?_ }
  · simp only [Function.update_self]
    exact ⟨hle.1, hle.2.1⟩
  · simp only [Function.update_of_ne (hne i' hi')]
    exact h'.le i' hi'
  · rw [Function.update_self, h.done (hret h0), hlen]
  · rw [Function.update_of_ne (hne i' hi'), h'.done h0 i' hi']
  · have hrest : order.flatMap (fun i' => p.patches c (c.object i')
          ((c.relocs u.user i').take (j' i'))) =
        order.flatMap fun i' => p.patches c (c.object i')
          ((c.relocs s.user i').take (Function.update j' i k' i')) := by
      refine List.flatMap_congr fun i' hi' => ?_
      rw [hsame i' hi', Function.update_of_ne (hne i' hi')]
    rw [h'.log, h.log, hrest, List.flatMap_cons, Function.update_self, List.append_assoc]
  · have hbehind : c.relocs out.2.user i = c.relocs u.user i :=
      relocs_congr fun x hx => h'.frame x fun i' hi' => hapart i' hi' x hx
    have huser := h.user
    rw [hlen] at huser
    rw [hbehind, Function.update_self]
    exact huser
  · rw [h'.user i' hi', hsame i' hi', Function.update_of_ne (hne i' hi')]
  · rw [List.forall_mem_cons] at hx
    rw [h'.frame x hx.2, hframe x hx.1]

/-- A pass deals with the objects one after the other. -/
theorem relocate_progress (p : RelocPass) (c : RelocCall) {order : List ℕ} (s : RelocState)
    (hnodup : order.Nodup)
    (hapart : order.Pairwise fun i i' => ∀ x, c.Covers i x → ¬ c.Covers i' x) :
    ∃ j j', PassProgress p c order s (p.relocate c order s) j j' := by
  induction order generalizing s with
  | nil => exact ⟨_, _, .refl fun _ => rfl⟩
  | cons i rest ih =>
    rw [List.nodup_cons] at hnodup
    rw [List.pairwise_cons] at hapart
    obtain ⟨k, k', h⟩ := relocateObject_progress p c i s
    unfold relocate
    generalize p.relocateObject c i s = out at h ⊢
    obtain ⟨ret, u⟩ := out
    by_cases hret : ret = 0
    · obtain ⟨j, j', h'⟩ := ih u hnodup.2 hapart.2
      simp only [hret]
      exact ⟨_, _, .cons hnodup.1 hapart.1 h h' fun _ => hret⟩
    · simp only [ne_eq, hret]
      exact ⟨_, _, .cons hnodup.1 hapart.1 h (.refl fun h0 => absurd h0 hret) id⟩

/-- The slow path writes what the entries it has copied ask for. -/
theorem relocateObjectSlow_log {o : ObjId} {l : List RelocationEntry} {log : List DwordWrite}
    (h : (p.relocateObjectSlow c o l log).1 = 0) :
    (p.relocateObjectSlow c o l log).2 = log ++ p.patches c o l := by
  induction l generalizing log with
  | nil => exact (List.append_nil log).symm
  | cons r rest ih =>
    rw [relocateObjectSlow] at h ⊢
    rcases p.relocateEntry_spec c o r log with heq | ⟨ret, hret, heq⟩
    · simp only [heq, ne_eq, not_true_eq_false, if_false] at h ⊢
      rw [ih h, List.append_assoc, ← patches_append]
      rfl
    · simp only [heq, ne_eq, hret, not_false_eq_true, if_true] at h

theorem relocateObjectsSlow_log {relocs : ℕ → List RelocationEntry} {log : List DwordWrite}
    (h : (p.relocateObjectsSlow c relocs order log).1 = 0) :
    (p.relocateObjectsSlow c relocs order log).2 =
      log ++ order.flatMap fun i => p.patches c (c.object i) (relocs i) := by
  induction order generalizing log with
  | nil => exact (List.append_nil log).symm
  | cons i rest ih =>
    rw [relocateObjectsSlow] at h ⊢
    by_cases hret : (p.relocateObjectSlow c (c.object i) (relocs i) log).1 = 0
    · simp only [ne_eq, hret, not_true_eq_false, if_false] at h ⊢
      rw [ih h, relocateObjectSlow_log hret, List.flatMap_cons, List.append_assoc]
    · simp only [ne_eq, hret, not_false_eq_true, if_true] at h

end RelocPass

end GfxDrm.I915
