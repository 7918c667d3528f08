import GfxDrm.Lib.Insertion
import GfxDrm.Lib.Ring
import Mathlib.Data.UInt

/-! drm_mode_sort, which sorts a list of modes in place (drm_modes.c). -/

namespace GfxDrm.ModeSort
open GfxDrm.Ring

/-- What the order of modes depends on. -/
structure DrmDisplayMode where
  type : UInt32 := 0
  hdisplay : Int32
  vdisplay : Int32
  vrefresh : Int32 := 0
  clock : Int32 := 0
  deriving DecidableEq, Repr

/-- DRM_MODE_TYPE_PREFERRED. -/
def drmModeTypePreferred : UInt32 := 0x08

/-- `(type & DRM_MODE_TYPE_PREFERRED) != 0`. -/
def DrmDisplayMode.preferred (mode : DrmDisplayMode) : Int32 :=
  if mode.type &&& drmModeTypePreferred ≠ 0 then 1 else 0

/-- drm_mode_compare of two modes. -/
def drmModeCompare (a b : DrmDisplayMode) : Int32 :=
  let diff := b.preferred - a.preferred
  if diff ≠ 0 then diff
  else
    let diff := b.hdisplay * b.vdisplay - a.hdisplay * a.vdisplay
    if diff ≠ 0 then diff
    else
      let diff := b.vrefresh - a.vrefresh
      if diff ≠ 0 then diff else b.clock - a.clock

/-- The memory: the modes at their addresses. -/
abbrev Modes := ℕ → DrmDisplayMode

variable (modes : Modes)

/-- drm_mode_compare, through the `contain_ptr` of two nodes. -/
def compareAt (entry : ℕ → Option ℕ) (a b : ℕ) : Option Int32 := do
  let a ← entry a
  let b ← entry b
  pure (drmModeCompare (modes a) (modes b))

/-- The first loop of drm_mode_sort, from `list` on. -/
def isOrdered (s : Links ℕ ℕ) (modeList : ℕ) : ℕ → ℕ → Option Bool
  | 0, _ => none
  | fuel + 1, list => do
    let temp ← s.next list
    if temp = modeList then pure true
    else if (← compareAt modes s.entry list temp) > 0 then pure false
    else isOrdered s modeList fuel temp

/-- The inner loop, from `list` on: the links, `end` and `cur` after it. -/
def place (s : Links ℕ ℕ) (modeList last cur : ℕ) : ℕ → ℕ → Option (Links ℕ ℕ × ℕ × ℕ)
  | 0, _ => none
  | fuel + 1, list =>
    if list = modeList then some (s, last, cur)
    else do
      let temp ← s.next list
      if (← compareAt modes s.entry list cur) > 0 then
        let pNode ← s.prev list
        let t ← s.del cur
        let t := t.link pNode cur list
        pure (t, last, ← t.next last)
      else if list = last then pure (s, cur, ← s.next cur)
      else place s modeList last cur fuel temp

/-- The outer loop. -/
def sortFrom (modeList placeFuel : ℕ) : ℕ → Links ℕ ℕ → (last cur : ℕ) → Option (Links ℕ ℕ)
  | 0, _, _, _ => none
  | fuel + 1, s, last, cur =>
    if cur = modeList then some s
    else do
      let list ← s.next modeList
      let (s, last, cur) ← place modes s modeList last cur placeFuel list
      sortFrom modeList placeFuel fuel s last cur

/-- drm_mode_sort. -/
def drmModeSort (fuel : ℕ) (s : Links ℕ ℕ) (modeList : ℕ) : Option (Links ℕ ℕ) := do
  if s.empty modeList then pure s
  else
    let list ← s.next modeList
    if ← isOrdered modes s modeList fuel list then pure s
    else
      let cur ← s.next list
      sortFrom modes modeList fuel fuel s list cur

/-! ### The loops -/

/-- The first of two nodes is to come after the second. -/
def After (entry : ℕ → Option ℕ) (a b : ℕ) : Prop := (compareAt modes entry a b).any (· > 0) = true

instance (entry : ℕ → Option ℕ) : DecidableRel (After modes entry) := fun a b =>
  inferInstanceAs (Decidable (_ = _))

variable {modes} {s t : Links ℕ ℕ} {h x y last cur : ℕ} {l : List ℕ}

theorem compareAt_of_after (hafter : After modes s.entry x y) :
    ∃ c, compareAt modes s.entry x y = some c ∧ c > 0 := by
  obtain ⟨c, hc, hpos⟩ := (Option.any_eq_true _ _).mp hafter
  exact ⟨c, hc, of_decide_eq_true hpos⟩

theorem compareAt_of_not_after (hx : (s.entry x).isSome = true) (hy : (s.entry y).isSome = true)
    (hafter : ¬After modes s.entry x y) :
    ∃ c, compareAt modes s.entry x y = some c ∧ ¬c > 0 := by
  obtain ⟨a, ha⟩ := Option.isSome_iff_exists.mp hx
  obtain ⟨b, hb⟩ := Option.isSome_iff_exists.mp hy
  have hsome : compareAt modes s.entry x y = some (drmModeCompare (modes a) (modes b)) := by
    rw [compareAt, ha, hb]
    rfl
  refine ⟨_, hsome, fun hpos => hafter ?_⟩
  rw [After, hsome]
  exact decide_eq_true hpos

/-- All nodes of a list have modes. -/
def HaveModes (entry : ℕ → Option ℕ) (l : List ℕ) : Prop := ∀ x ∈ l, (entry x).isSome = true

theorem isOrdered_spec (modes : Modes) {A B : List ℕ} {fuel : ℕ} (hs : s.IsRing h (A ++ x :: B))
    (hmodes : HaveModes s.entry (A ++ x :: B)) (hfuel : B.length < fuel) :
    isOrdered modes s h fuel x =
      some (decide ((x :: B).IsChain fun a b => ¬After modes s.entry a b)) := by
  induction B generalizing A x fuel with
  | nil =>
    obtain ⟨fuel, rfl⟩ := Nat.exists_eq_succ_of_ne_zero (Nat.ne_of_gt hfuel)
    have hnext := (hs.next_of_split (m := h :: A) (p := x) (k := []) rfl).1
    rw [isOrdered, hnext]
    exact if_pos rfl
  | cons b B ih =>
    obtain ⟨fuel, rfl⟩ := Nat.exists_eq_succ_of_ne_zero (Nat.ne_of_gt (Nat.zero_lt_of_lt hfuel))
    obtain ⟨hnext, hmem⟩ := hs.next_of_split (m := h :: A) (p := x) (k := b :: B) rfl
    have hbh : b ≠ h := fun heq => hmem (heq ▸ List.mem_cons_self)
    have hsplit : A ++ x :: b :: B = A ++ [x] ++ b :: B := by simp
    have hrest : isOrdered modes s h fuel b =
        some (decide ((b :: B).IsChain fun a b => ¬After modes s.entry a b)) :=
      ih (A := A ++ [x]) (hsplit ▸ hs) (hsplit ▸ hmodes) (Nat.lt_of_succ_lt_succ hfuel)
    rw [isOrdered, hnext]
    simp only [Option.bind_eq_bind, Option.bind_some, List.headD_cons, if_neg hbh]
    by_cases hafter : After modes s.entry x b
    · obtain ⟨c, hc, hpos⟩ := compareAt_of_after hafter
      have hchain : ¬(x :: b :: B).IsChain fun a b => ¬After modes s.entry a b := fun hchain =>
        (List.isChain_cons_cons.mp hchain).1 hafter
      rw [hc, decide_eq_false hchain]
      exact if_pos hpos
    · obtain ⟨c, hc, hle⟩ := compareAt_of_not_after (hmodes x (by simp)) (hmodes b (by simp)) hafter
      rw [hc, Option.bind_some, if_neg hle, hrest]
      refine congrArg some (decide_eq_decide.mpr ?_)
      rw [List.isChain_cons_cons]
      exact (and_iff_right hafter).symm

/-- What a step of the sorting leaves: the list, the entries, and the nodes of other lists. -/
structure Resorted (s t : Links ℕ ℕ) (h : ℕ) (l l' : List ℕ) : Prop where
  ring : t.IsRing h l'
  perm : l'.Perm l
  entry : t.entry = s.entry
  frame : ∀ y, y ∉ h :: l → t.next y = s.next y ∧ t.prev y = s.prev y

theorem Resorted.refl (hs : s.IsRing h l) : Resorted s s h l l :=
  ⟨hs, List.Perm.refl l, rfl, fun _ _ => ⟨rfl, rfl⟩⟩

theorem Resorted.trans {u : Links ℕ ℕ} {l' l'' : List ℕ} (hst : Resorted s t h l l')
    (htu : Resorted t u h l' l'') : Resorted s u h l l'' := by
  refine ⟨htu.ring, htu.perm.trans hst.perm, htu.entry.trans hst.entry, fun y hy => ?_⟩
  obtain ⟨hnext, hprev⟩ := hst.frame y hy
  obtain ⟨hnext', hprev'⟩ := htu.frame y fun hy' => hy ((hst.perm.cons h).mem_iff.mp hy')
  exact ⟨hnext'.trans hnext, hprev'.trans hprev⟩

variable {A B C : List ℕ}

/-- A node behind `x` is taken out and linked before it. -/
theorem move_spec (hs : s.IsRing h (A ++ x :: (B ++ cur :: C))) :
    ∃ p t, s.prev x = some p ∧ s.del cur = some t ∧
      Resorted s (t.link p cur x) h (A ++ x :: (B ++ cur :: C)) (A ++ cur :: x :: (B ++ C)) := by
  have hcur : cur ∈ A ++ x :: (B ++ cur :: C) := by simp
  obtain ⟨t, ht, hring, hentry, hframe⟩ := hs.del hcur
  have hsplit : A ++ x :: (B ++ cur :: C) = (A ++ x :: B) ++ cur :: C := by simp
  have hnodup := (List.nodup_cons.mp hs.nodup).2
  have hbefore : cur ∉ A ++ x :: B := fun hmem => by
    rw [hsplit] at hnodup
    exact (List.nodup_append.mp hnodup).2.2 cur hmem cur List.mem_cons_self rfl
  have herase : (A ++ x :: (B ++ cur :: C)).erase cur = A ++ x :: (B ++ C) := by
    rw [hsplit, Circular.erase_split hbefore]
    simp
  have hout : cur ∉ h :: (A ++ x :: (B ++ C)) := by
    rw [← herase, List.mem_cons, not_or]
    exact ⟨hs.ne_head hcur, hnodup.not_mem_erase⟩
  rw [herase] at hring
  obtain ⟨hlinked, hlframe⟩ := hring.link hout
  refine ⟨_, t, hs.neighbours.2.1, ht, hlinked, ?_, hentry, fun y hy => ?_⟩
  · have hmove : (B ++ cur :: C).Perm (cur :: (B ++ C)) := List.perm_middle
    exact (((hmove.cons x).trans (List.Perm.swap cur x _)).append_left A).symm
  · obtain ⟨hnext, hprev⟩ := hframe y hy
    have hy' : y ∉ cur :: h :: (A ++ x :: (B ++ C)) := by
      simp only [List.mem_cons, List.mem_append, not_or] at hy ⊢
      tauto
    obtain ⟨hlnext, hlprev⟩ := hlframe y hy'
    exact ⟨hlnext.trans hnext, hlprev.trans hprev⟩

/-- Insertion as `After` has it. -/
abbrev insertNode (modes : Modes) (entry : ℕ → Option ℕ) : List ℕ → ℕ → List ℕ :=
  Insertion.insert (After modes entry)

theorem getLastD_append_cons (A B : List ℕ) (d : ℕ) : (A ++ x :: B).getLastD d = B.getLastD x := by
  induction A generalizing d with
  | nil => exact List.getLastD_cons
  | cons a A ih => exact List.getLastD_cons.trans (ih a)

/-- What follows the last node of a first part. -/
theorem next_last (hs : s.IsRing h (A ++ x :: (B ++ C))) :
    s.next (B.getLastD x) = some (C.headD h) := by
  obtain ⟨m, hm⟩ : ∃ m, x :: B = m ++ [B.getLastD x] := by
    refine ⟨(x :: B).dropLast, ?_⟩
    rw [← List.getLast_eq_getLastD (List.cons_ne_nil x B), List.dropLast_append_getLast]
  refine (hs.next_of_split (m := h :: (A ++ m)) ?_).1
  have hcons : x :: (B ++ C) = m ++ B.getLastD x :: C := by
    rw [← List.cons_append, hm, List.append_assoc]
    rfl
  rw [hcons, ← List.append_assoc]
  rfl

/-- The inner loop where `cur` is to come before `x`. -/
theorem place_of_after (fuel : ℕ) (hs : s.IsRing h (A ++ x :: (B ++ cur :: C)))
    (hmode : (s.entry cur).isSome = true) (hA : ∀ y ∈ A, ¬After modes s.entry y cur)
    (hafter : After modes s.entry x cur) :
    ∃ t, place modes s h (B.getLastD x) cur (fuel + 1) x = some (t, B.getLastD x, C.headD h) ∧
      insertNode modes s.entry (A ++ x :: B) cur = A ++ cur :: x :: B ∧
      Resorted s t h (A ++ x :: (B ++ cur :: C)) (A ++ cur :: x :: (B ++ C)) := by
  obtain ⟨p, t, hp, ht, hmoved⟩ := move_spec hs
  obtain ⟨c, hc, hpos⟩ := compareAt_of_after hafter
  have hx : x ∈ A ++ x :: (B ++ cur :: C) := by simp
  have hnext := hs.next x (List.mem_cons_of_mem h hx)
  have hsplit : A ++ cur :: x :: (B ++ C) = (A ++ [cur]) ++ x :: (B ++ C) := by simp
  have hlast : (t.link p cur x).next (B.getLastD x) = some (C.headD h) :=
    next_last (hsplit ▸ hmoved.ring)
  refine ⟨t.link p cur x, ?_, ?_, hmoved⟩
  · simp only [place, if_neg (hs.ne_head hx), hnext, hc, hp, ht, hlast, Option.bind_eq_bind,
      Option.bind_some, if_pos hpos]
    rfl
  · rw [insertNode, Insertion.insert_append _ hA, Insertion.insert_cons_of_after hafter]

/-- Where `cur` is to come before none of `A`, the inner loop goes on behind it. -/
theorem place_spec (fuel : ℕ) (hs : s.IsRing h (A ++ x :: (B ++ cur :: C)))
    (hmodes : HaveModes s.entry (A ++ x :: (B ++ cur :: C)))
    (hA : ∀ y ∈ A, ¬After modes s.entry y cur) (hfuel : B.length < fuel) :
    ∃ t, place modes s h (B.getLastD x) cur fuel x =
        some (t, (insertNode modes s.entry (A ++ x :: B) cur).getLastD h, C.headD h) ∧
      Resorted s t h (A ++ x :: (B ++ cur :: C))
        (insertNode modes s.entry (A ++ x :: B) cur ++ C) := by
  induction fuel generalizing A B x with
  | zero => exact absurd hfuel (Nat.not_lt_zero _)
  | succ fuel ih =>
    have hx : x ∈ A ++ x :: (B ++ cur :: C) := by simp
    have hxmode : (s.entry x).isSome = true := hmodes x hx
    have hmode : (s.entry cur).isSome = true := hmodes cur (by simp)
    by_cases hafter : After modes s.entry x cur
    · obtain ⟨t, ht, hins, hmoved⟩ := place_of_after fuel hs hmode hA hafter
      refine ⟨t, ?_, ?_⟩
      · rw [ht, hins, getLastD_append_cons, List.getLastD_cons]
      · rw [hins]
        simpa using hmoved
    -- `cur` stays behind `x`
    obtain ⟨c, hc, hle⟩ := compareAt_of_not_after hxmode hmode hafter
    have hAx : ∀ y ∈ A ++ [x], ¬After modes s.entry y cur := by
      intro y hy
      rcases List.mem_append.mp hy with hy | hy
      · exact hA y hy
      · exact List.mem_singleton.mp hy ▸ hafter
    have hnext := (hs.next_of_split (m := h :: A) (p := x) (k := B ++ cur :: C) rfl).1
    cases B with
    | nil =>
      have hins : insertNode modes s.entry (A ++ [x]) cur = A ++ [x] ++ [cur] := by
        have happend := Insertion.insert_append [] hAx
        rwa [List.append_nil] at happend
      have hcur : s.next cur = some (C.headD h) :=
        (hs.next_of_split (m := h :: (A ++ [x])) (p := cur) (k := C) (by simp)).1
      refine ⟨s, ?_, ?_⟩
      · rw [hins, List.getLastD_concat]
        simp only [place, if_neg (hs.ne_head hx), hnext, hc, if_neg hle, hcur, List.getLastD_nil,
          Option.bind_eq_bind, Option.bind_some]
        rfl
      · rw [hins]
        simpa using Resorted.refl hs
    | cons b B =>
      have hsplit : A ++ x :: (b :: B ++ cur :: C) = A ++ [x] ++ b :: (B ++ cur :: C) := by simp
      have hsplit' : A ++ x :: b :: B = A ++ [x] ++ b :: B := by simp
      have hxlast : x ≠ B.getLastD b := fun heq => by
        have hmem : x ∈ b :: B := heq ▸ List.getLastD_mem_cons
        have hnodup := (List.nodup_append.mp (List.nodup_cons.mp hs.nodup).2).2.1
        exact (List.nodup_cons.mp hnodup).1 (List.mem_append_left (cur :: C) hmem)
      obtain ⟨t, ht, hsorted⟩ :=
        ih (A := A ++ [x]) (hsplit ▸ hs) (hsplit ▸ hmodes) hAx (Nat.lt_of_succ_lt_succ hfuel)
      refine ⟨t, ?_, ?_⟩
      · rw [hsplit', ← ht, List.getLastD_cons]
        simp only [place, if_neg (hs.ne_head hx), hnext, hc, if_neg hle, if_neg hxlast,
          Option.bind_eq_bind, Option.bind_some]
        rfl
      · rw [hsplit, hsplit']
        exact hsorted

theorem HaveModes.perm {entry : ℕ → Option ℕ} {l' : List ℕ} (hl : HaveModes entry l)
    (hperm : l'.Perm l) : HaveModes entry l' := fun y hy => hl y (hperm.mem_iff.mp hy)

/-- The outer loop inserts the rest among the first nodes. -/
theorem sortFrom_spec {L R : List ℕ} {placeFuel fuel : ℕ} (hL : L ≠ [])
    (hs : s.IsRing h (L ++ R)) (hmodes : HaveModes s.entry (L ++ R))
    (hplace : L.length + R.length ≤ placeFuel) (hfuel : R.length < fuel) :
    ∃ t, sortFrom modes h placeFuel fuel s (L.getLastD h) (R.headD h) = some t ∧
      Resorted s t h (L ++ R) (R.foldl (insertNode modes s.entry) L) := by
  induction R generalizing L s fuel with
  | nil =>
    obtain ⟨fuel, rfl⟩ := Nat.exists_eq_succ_of_ne_zero (Nat.ne_of_gt hfuel)
    rw [List.append_nil] at hs ⊢
    exact ⟨s, if_pos rfl, Resorted.refl hs⟩
  | cons cur C ih =>
    obtain ⟨fuel, rfl⟩ := Nat.exists_eq_succ_of_ne_zero (Nat.ne_of_gt (Nat.zero_lt_of_lt hfuel))
    obtain ⟨x, P, rfl⟩ := List.exists_cons_of_ne_nil hL
    have hcurh : cur ≠ h := hs.ne_head (by simp)
    have hnext : s.next h = some x := (hs.next_of_split (m := []) (p := h) rfl).1
    rw [List.length_cons, List.length_cons] at hplace
    obtain ⟨t, ht, hmoved⟩ := place_spec (A := []) (B := P) placeFuel hs hmodes
      (fun y hy => by cases hy) (by omega)
    have hlen : (insertNode modes s.entry (x :: P) cur).length = P.length + 1 + 1 :=
      (Insertion.insert_perm (x :: P) cur).length_eq
    have hne : insertNode modes s.entry (x :: P) cur ≠ [] := by
      rw [← List.length_pos_iff_ne_nil, hlen]
      exact Nat.succ_pos _
    have hmodes' : HaveModes t.entry (insertNode modes s.entry (x :: P) cur ++ C) := by
      rw [hmoved.entry]
      exact hmodes.perm hmoved.perm
    obtain ⟨u, hu, hsorted⟩ := ih hne hmoved.ring hmodes' (by omega) (Nat.lt_of_succ_lt_succ hfuel)
    rw [hmoved.entry] at hsorted
    refine ⟨u, ?_, hmoved.trans hsorted⟩
    rw [List.getLastD_cons, List.headD_cons, ← hu]
    simp only [sortFrom, if_neg hcurh, hnext, Option.bind_eq_bind, Option.bind_some]
    rw [ht]
    rfl

/-- drm_mode_sort returns, and the list is the one that is sorted by insertion. -/
theorem drmModeSort_spec (modes : Modes) {fuel : ℕ} (hs : s.IsRing h l) (hmodes : HaveModes s.entry l)
    (hfuel : l.length < fuel) :
    ∃ t, drmModeSort modes fuel s h = some t ∧
      Resorted s t h l (Insertion.sort (After modes s.entry) l) := by
  cases l with
  | nil =>
    have hempty : s.empty h = true := hs.empty_iff.mpr rfl
    exact ⟨s, if_pos hempty, Resorted.refl hs⟩
  | cons x l =>
    have hempty : ¬s.empty h = true := fun heq => by cases hs.empty_iff.mp heq
    have hnext : s.next h = some x := (hs.next_of_split (m := []) (p := h) rfl).1
    have hxnext : s.next x = some (l.headD h) := (hs.next_of_split (m := [h]) (p := x) rfl).1
    have hordered := isOrdered_spec modes (A := []) hs hmodes (Nat.lt_of_succ_lt hfuel)
    have hsort : drmModeSort modes fuel s h =
        if (x :: l).IsChain fun a b => ¬After modes s.entry a b then some s
        else sortFrom modes h fuel fuel s x (l.headD h) := by
      simp only [drmModeSort, if_neg hempty, hnext, hordered, hxnext, Option.bind_eq_bind,
        Option.bind_some, decide_eq_true_eq]
      rfl
    rw [hsort, Insertion.sort]
    split
    · exact ⟨s, rfl, Resorted.refl hs⟩
    · rw [List.length_cons] at hfuel
      have hplace : [x].length + l.length ≤ fuel := by
        rw [List.length_singleton]
        omega
      exact sortFrom_spec (List.cons_ne_nil x []) hs hmodes hplace (Nat.lt_of_succ_lt hfuel)

/-! ### The order -/

/-- A difference and the opposite one are not both positive, not even where they wrap. -/
theorem sub_asymm {x y : Int32} (h : y - x > 0) : ¬x - y > 0 := by
  intro h'
  have hpos := Int32.lt_iff_toInt_lt.mp h
  have hpos' := Int32.lt_iff_toInt_lt.mp h'
  rw [Int32.toInt_sub] at hpos hpos'
  rw [Int.bmod_def] at hpos hpos'
  change 0 < _ at hpos
  change 0 < _ at hpos'
  omega

theorem sub_ne_zero_of_ne {x y : Int32} (h : x ≠ y) : x - y ≠ 0 := fun heq =>
  h ((Int32.sub_left_inj y).mp (heq.trans (Int32.sub_self y).symm))

/-- The next difference counts where one is 0. -/
theorem orElse_asymm {x y u v : Int32} (huv : u > 0 → ¬v > 0)
    (h : (if y - x ≠ 0 then y - x else u) > 0) : ¬(if x - y ≠ 0 then x - y else v) > 0 := by
  by_cases hxy : x = y
  · rw [hxy, Int32.sub_self] at h ⊢
    exact huv h
  · rw [if_pos (sub_ne_zero_of_ne (Ne.symm hxy))] at h
    rw [if_pos (sub_ne_zero_of_ne hxy)]
    exact sub_asymm h

theorem drmModeCompare_asymm {a b : DrmDisplayMode} (h : drmModeCompare a b > 0) :
    ¬drmModeCompare b a > 0 :=
  orElse_asymm (orElse_asymm (orElse_asymm sub_asymm)) h

theorem after_asymm (modes : Modes) (entry : ℕ → Option ℕ) (x y : ℕ) (h : After modes entry x y) :
    ¬After modes entry y x := by
  unfold After compareAt at *
  cases hx : entry x with
  | none => simp [hx] at h
  | some a =>
    cases hy : entry y with
    | none => simp
    | some b =>
      rw [hx, hy] at h
      simpa using drmModeCompare_asymm (by simpa using h)

/-- The node at `x` comes before the one at `y`, or they are equivalent. -/
def InOrder (modes : Modes) (entry : ℕ → Option ℕ) (x y : ℕ) : Prop :=
  ∀ a b, entry x = some a → entry y = some b → drmModeCompare (modes a) (modes b) ≤ 0

theorem inOrder_of_not_after {entry : ℕ → Option ℕ} (h : ¬After modes entry x y) :
    InOrder modes entry x y := by
  intro a b ha hb
  by_contra hgt
  refine h ?_
  rw [After, compareAt, ha, hb]
  exact decide_eq_true (Int32.not_le.mp hgt)

/-- drm_mode_sort of any list of such modes returns, and what it returns is the same list in
order, with its links forwards and backwards and its entries in place. -/
def SortsAll (M : DrmDisplayMode → Prop) : Prop :=
  ∀ (modes : Modes) (s : Links ℕ ℕ) (modeList : ℕ) (l : List ℕ) (fuel : ℕ),
    s.IsRing modeList l → (∀ x ∈ l, ∃ g, s.entry x = some g ∧ M (modes g)) → l.length < fuel →
      ∃ t l', drmModeSort modes fuel s modeList = some t ∧ Resorted s t modeList l l' ∧
        l'.Pairwise (InOrder modes s.entry)

/-- drm_mode_compare is transitive on these modes. -/
def Transitive (M : DrmDisplayMode → Prop) : Prop :=
  ∀ a b c, M a → M b → M c → drmModeCompare a b ≤ 0 → drmModeCompare b c ≤ 0 →
    drmModeCompare a c ≤ 0

variable {M : DrmDisplayMode → Prop}

theorem sortsAll_of_transitive (hM : Transitive M) : SortsAll M := by
  intro modes s h l fuel hs hmodes hfuel
  have hhave : HaveModes s.entry l := fun x hx => by
    obtain ⟨g, hg, -⟩ := hmodes x hx
    rw [hg]
    rfl
  obtain ⟨t, ht, hsorted⟩ := drmModeSort_spec modes hs hhave hfuel
  refine ⟨t, _, ht, hsorted, ?_⟩
  have hchain := Insertion.sort_isChain (after_asymm modes s.entry) l
  refine Insertion.pairwise_of_isChain ?_ (hchain.imp fun x y => inOrder_of_not_after)
  intro x hx y hy z hz hxy hyz a c ha hc
  obtain ⟨a', ha', hMa⟩ := hmodes x (hsorted.perm.mem_iff.mp hx)
  obtain ⟨b, hb, hMb⟩ := hmodes y (hsorted.perm.mem_iff.mp hy)
  obtain ⟨c', hc', hMc⟩ := hmodes z (hsorted.perm.mem_iff.mp hz)
  rw [ha] at ha'
  cases ha'
  rw [hc] at hc'
  cases hc'
  exact hM _ _ _ hMa hMb hMc (hxy a b ha hb) (hyz b c hb hc)

/-- Three nodes with an entry each. -/
theorem exists_three : ∃ s : Links ℕ ℕ, s.IsRing 0 [1, 2, 3] ∧ s.entry 1 = some 1 ∧
    s.entry 2 = some 2 ∧ s.entry 3 = some 3 := by
  have hempty : (Links.zero.init 0 : Links ℕ ℕ).IsRing 0 [] := Links.IsRing.init Links.zero 0
  obtain ⟨s, -, hs, hentry, -⟩ := hempty.add (x := 3) (by decide) 3
  obtain ⟨t, -, ht, hentry', -⟩ := hs.add (x := 2) (by decide) 2
  obtain ⟨u, -, hu, hentry'', -⟩ := ht.add (x := 1) (by decide) 1
  refine ⟨u, hu, ?_, ?_, ?_⟩
  · rw [hentry'']
    rfl
  · rw [hentry'', hentry']
    rfl
  · rw [hentry'', hentry', hentry]
    rfl

/-- Three modes in a row, each in order with the next one, are left as they are. -/
theorem transitive_of_sortsAll (h : SortsAll M) : Transitive M := by
  intro a b c ha hb hc hab hbc
  obtain ⟨s, hs, h1, h2, h3⟩ := exists_three
  obtain ⟨modes, hmodes⟩ : ∃ modes : Modes, modes = fun g => if g = 1 then a else if g = 2 then b
    else c := ⟨_, rfl⟩
  have hm1 : modes 1 = a := by rw [hmodes]; rfl
  have hm2 : modes 2 = b := by rw [hmodes]; rfl
  have hm3 : modes 3 = c := by rw [hmodes]; rfl
  have hall : ∀ x ∈ [1, 2, 3], ∃ g, s.entry x = some g ∧ M (modes g) := by
    simp only [List.mem_cons, List.not_mem_nil, or_false]
    rintro x (rfl | rfl | rfl)
    · exact ⟨1, h1, hm1 ▸ ha⟩
    · exact ⟨2, h2, hm2 ▸ hb⟩
    · exact ⟨3, h3, hm3 ▸ hc⟩
  have hafter : ∀ {x y i j : ℕ}, s.entry x = some i → s.entry y = some j →
      drmModeCompare (modes i) (modes j) ≤ 0 → ¬After modes s.entry x y := by
    intro x y i j hx hy hle hafter
    obtain ⟨d, hd, hpos⟩ := compareAt_of_after hafter
    rw [compareAt, hx, hy] at hd
    cases hd
    exact Int32.not_le.mpr hpos hle
  have hchain : [1, 2, 3].IsChain fun x y => ¬After modes s.entry x y := by
    refine List.isChain_cons_cons.mpr ⟨hafter h1 h2 (hm1 ▸ hm2 ▸ hab), ?_⟩
    exact List.isChain_cons_cons.mpr ⟨hafter h2 h3 (hm2 ▸ hm3 ▸ hbc), List.IsChain.singleton 3⟩
  have hhave : HaveModes s.entry [1, 2, 3] := fun x hx => by
    obtain ⟨g, hg, -⟩ := hall x hx
    rw [hg]
    rfl
  have hfuel : [1, 2, 3].length < 4 := by decide
  obtain ⟨t, l', ht, hsorted, horder⟩ := h modes s 0 [1, 2, 3] 4 hs hall hfuel
  obtain ⟨t', ht', hsorted'⟩ := drmModeSort_spec modes hs hhave hfuel
  rw [ht', Option.some.injEq] at ht
  subst ht
  rw [Insertion.sort, if_pos hchain] at hsorted'
  rw [hsorted.ring.unique hsorted'.ring] at horder
  have hac := (List.pairwise_cons.mp horder).1 3 (by decide) 1 3 h1 h3
  rwa [hm1, hm3] at hac

end GfxDrm.ModeSort
