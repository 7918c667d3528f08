import GfxDrm.HwContext.Refs

/-! The references and pins of hardware contexts over whole runs. -/

namespace GfxDrm.HwContext
open Kref Run

variable {s s' : CtxState} {c x f id n k : ℕ} {idr idr' : Idr ℕ}

/-! ### Registrations -/

theorem contextGet_eq : s.contextGet f id = ((s.contextIdr f).bind fun idr => (idr.ptrs id).join) :=
  rfl

theorem contextGet_some (h : s.contextGet f id = some x) :
    ∃ idr, s.contextIdr f = some idr ∧ idr.ptrs id = some (some x) := by
  obtain ⟨idr, hidr, hfind⟩ := Option.bind_eq_some_iff.mp h
  exact ⟨idr, hidr, Option.join_eq_some_iff.mp hfind⟩

/-- What is not alive is referenced nowhere. -/
theorem CtxInv.dead (h : CtxInv none s) (hc : s.refs.alive c = false) : s.contextRefs c = 0 := by
  have := (h.refs.alive c).not.mp (by simp [hc])
  omega

/-- A context that has just been made: the call that makes it holds its one reference. -/
structure CtxDraft (c : ℕ) (s : CtxState) : Prop where
  refs : Balanced s.refs fun x => s.contextRefs x + points (some c) x
  pins : ∀ x, s.pins x = s.contextPins x
  bug : s.bug = false
  owned : ∀ f id x, s.contextGet f id = some x → (s.ctx x).filePriv = f ∧ (s.ctx x).id = id
  sound : ∀ f idr, s.contextIdr f = some idr → Idr.Sound idr
  entries : ∀ f idr id p, s.contextIdr f = some idr → idr.ptrs id = some p → 0 < id ∧ p ≠ none
  unfiled : (s.ctx c).id = 0

/-- No file has an id 0. -/
theorem contextGet_zero
    (h : ∀ f idr id p, s.contextIdr f = some idr → idr.ptrs id = some p → 0 < id ∧ p ≠ none) :
    s.contextGet f 0 = none := by
  cases hget : s.contextGet f 0 with
  | none => rfl
  | some x =>
    obtain ⟨idr, hidr, hptr⟩ := contextGet_some hget
    exact absurd (h f idr 0 _ hidr hptr).1 (Nat.lt_irrefl 0)

theorem CtxInv.newContext (h : CtxInv none s) (hc : s.refs.alive c = false) :
    CtxDraft c (s.newContext c) := by
  have hdead := h.dead hc
  have hctx (x : ℕ) (hx : x ≠ c) : (s.newContext c).ctx x = s.ctx x :=
    Function.update_of_ne hx _ _
  have hself : (s.newContext c).ctx c = {} := Function.update_self ..
  have hreg (x : ℕ) : (s.newContext c).registered x = s.registered x := by
    by_cases hx : x = c
    · subst hx
      have hzero : s.registered x = 0 := by
        unfold CtxState.contextRefs at hdead
        omega
      rw [hzero, CtxState.registered, hself]
      exact points_of_ne (by simp [show (s.newContext x).contextGet 0 0 = none from
        contextGet_zero h.entries])
    · rw [CtxState.registered, hctx x hx]
      rfl
  have hrefs (x : ℕ) : (s.newContext c).contextRefs x = s.contextRefs x := by
    unfold CtxState.contextRefs
    rw [hreg]
    rfl
  refine ⟨h.refs.new hc fun x => by rw [hrefs], fun x => ?_, h.bug, fun f id x hx => ?_, h.sound,
    h.entries, by rw [hself]⟩
  · show Function.update s.pins c 0 x = s.contextPins x
    by_cases hx : x = c
    · subst hx
      rw [Function.update_self]
      unfold CtxState.contextRefs at hdead
      unfold CtxState.contextPins
      omega
    · rw [Function.update_of_ne hx, h.pins x, points_none, Nat.add_zero]
  · have hne : x ≠ c := by
      rintro rfl
      have hx' : s.contextGet f id = some x := hx
      obtain ⟨hf, hid⟩ := h.owned f id x hx'
      unfold CtxState.contextRefs CtxState.registered at hdead
      rw [hf, hid, hx', points_self] at hdead
      omega
    rw [hctx x hne]
    exact h.owned f id x hx

theorem CtxDraft.unreference (h : CtxDraft c s)
    (hready : s.hwContextsDisabled = false → s.defaultContext ≠ none) :
    CtxInv none (s.unreference c) :=
  ⟨h.refs.put fun _ => rfl, fun x => by exact h.pins x, h.bug, hready, h.owned,
    h.sound, h.entries⟩

/-- Another idr for a file, with the same pointers. -/
theorem contextGet_congr (hidr : s.contextIdr f = some idr) (hsame : idr'.ptrs = idr.ptrs)
    (f' id : ℕ) : (({ s with contextIdr := Function.update s.contextIdr f (some idr') } :
      CtxState)).contextGet f' id = s.contextGet f' id := by
  rw [contextGet_eq, contextGet_eq]
  dsimp only
  by_cases hf : f' = f
  · subst hf
    rw [Function.update_self, hidr, Option.bind_some, Option.bind_some, hsame]
  · rw [Function.update_of_ne hf]

/-- One more id in a file. -/
theorem contextGet_insert (hidr : s.contextIdr f = some idr)
    (hnew : idr'.ptrs = Function.update idr.ptrs n (some (some c))) (f' n' : ℕ) :
    (({ s with contextIdr := Function.update s.contextIdr f (some idr') } :
      CtxState)).contextGet f' n' =
      if f' = f ∧ n' = n then some c else s.contextGet f' n' := by
  rw [contextGet_eq, contextGet_eq]
  dsimp only
  by_cases hf : f' = f
  · subst hf
    rw [Function.update_self, hidr, Option.bind_some, hnew]
    by_cases hn : n' = n
    · subst hn
      simp
    · simp [hn]
  · simp [hf]

theorem CtxDraft.registered_self (h : CtxDraft c s) : s.registered c = 0 := by
  rw [CtxState.registered, h.unfiled, contextGet_zero h.entries]
  rfl

theorem CtxDraft.contextGet_ne (h : CtxDraft c s) (hx : s.contextGet f id = some x) : x ≠ c := by
  rintro rfl
  obtain ⟨-, hid⟩ := h.owned f id x hx
  rw [← hid, h.unfiled, contextGet_zero h.entries] at hx
  cases hx

theorem sound_update (h : ∀ f idr, s.contextIdr f = some idr → Idr.Sound idr)
    (hsound : Idr.Sound idr') (f' : ℕ) (i : Idr ℕ)
    (hi : Function.update s.contextIdr f (some idr') f' = some i) : Idr.Sound i := by
  by_cases hf : f' = f
  · subst hf
    rw [Function.update_self] at hi
    exact Option.some.inj hi ▸ hsound
  · rw [Function.update_of_ne hf] at hi
    exact h f' i hi

theorem entries_update
    (h : ∀ f idr id p, s.contextIdr f = some idr → idr.ptrs id = some p → 0 < id ∧ p ≠ none)
    (hidr' : ∀ id p, idr'.ptrs id = some p → 0 < id ∧ p ≠ none) (f' : ℕ) (i : Idr ℕ) (id : ℕ)
    (p : Option ℕ) (hi : Function.update s.contextIdr f (some idr') f' = some i)
    (hp : i.ptrs id = some p) : 0 < id ∧ p ≠ none := by
  by_cases hf : f' = f
  · subst hf
    rw [Function.update_self] at hi
    exact hidr' id p (Option.some.inj hi ▸ hp)
  · rw [Function.update_of_ne hf] at hi
    exact h f' i id p hi hp

/-- An idr that lost an id, and a context that has none. -/
theorem CtxDraft.refile {v : I915HwContext} (h : CtxDraft c s) (hidr : s.contextIdr f = some idr)
    (hsound : Idr.Sound idr') (hsame : idr'.ptrs = idr.ptrs) (hv : v.id = 0) :
    CtxDraft c { s with
      ctx := Function.update s.ctx c v
      contextIdr := Function.update s.contextIdr f (some idr') } := by
  have hget (f' n : ℕ) := contextGet_congr hidr hsame f' n
  have hreg (x : ℕ) : ({ s with
      ctx := Function.update s.ctx c v
      contextIdr := Function.update s.contextIdr f (some idr') } : CtxState).registered x =
      s.registered x := by
    refine (congrArg (points · x) (hget _ _)).trans ?_
    show points (s.contextGet (Function.update s.ctx c v x).filePriv
      (Function.update s.ctx c v x).id) x = _
    unfold CtxState.registered
    by_cases hx : x = c
    · subst hx
      rw [Function.update_self, hv, contextGet_zero h.entries, h.unfiled,
        contextGet_zero h.entries]
    · rw [Function.update_of_ne hx]
  refine ⟨h.refs.congr fun x => ?_, h.pins, h.bug, fun f' n x hx => ?_, sound_update h.sound hsound,
    entries_update h.entries fun n p hp => h.entries f idr n p hidr (hsame ▸ hp), ?_⟩
  · unfold CtxState.contextRefs
    rw [hreg]
    rfl
  · have hx' : s.contextGet f' n = some x := (hget f' n).symm.trans hx
    show (Function.update s.ctx c v x).filePriv = f' ∧ (Function.update s.ctx c v x).id = n
    rw [Function.update_of_ne (h.contextGet_ne hx')]
    exact h.owned f' n x hx'
  · exact (congrArg I915HwContext.id (Function.update_self ..)).trans hv

/-- The idr has taken the context up. -/
theorem CtxDraft.file {v : I915HwContext} (h : CtxDraft c s) (hidr : s.contextIdr f = some idr)
    (hready : s.hwContextsDisabled = false → s.defaultContext ≠ none)
    (hsound : Idr.Sound idr') (hpos : 0 < v.id) (hfree : idr.ptrs v.id = none)
    (hnew : idr'.ptrs = Function.update idr.ptrs v.id (some (some c))) (hv : v.filePriv = f) :
    CtxInv none { s with
      ctx := Function.update s.ctx c v
      contextIdr := Function.update s.contextIdr f (some idr') } := by
  have hget (f' n : ℕ) := contextGet_insert hidr hnew f' n
  have hgone : s.contextGet f v.id = none := by
    rw [contextGet_eq, hidr, Option.bind_some, hfree]
    rfl
  have hreg (x : ℕ) : ({ s with
      ctx := Function.update s.ctx c v
      contextIdr := Function.update s.contextIdr f (some idr') } : CtxState).registered x =
      s.registered x + points (some c) x := by
    refine (congrArg (points · x) (hget _ _)).trans ?_
    show points (if (Function.update s.ctx c v x).filePriv = f ∧
        (Function.update s.ctx c v x).id = v.id then some c
      else s.contextGet (Function.update s.ctx c v x).filePriv (Function.update s.ctx c v x).id) x =
        s.registered x + points (some c) x
    unfold CtxState.registered
    by_cases hx : x = c
    · subst hx
      rw [Function.update_self, if_pos ⟨hv, rfl⟩]
      have := h.registered_self
      unfold CtxState.registered at this
      omega
    · have hcx := points_some_of_ne hx
      rw [Function.update_of_ne hx, hcx]
      split
      · rename_i heq
        rw [heq.1, heq.2, hgone, hcx]
        rfl
      · rfl
  refine ⟨h.refs.congr fun x => ?_, fun x => ?_, h.bug, hready, fun f' n x hx => ?_,
    sound_update h.sound hsound, entries_update h.entries fun n p hp => ?_⟩
  · unfold CtxState.contextRefs
    rw [hreg]
    show s.registered x + points (some c) x + pointers Finset.univ s.lastContext x +
      s.requests x + points s.usedDefault x = s.registered x +
        pointers Finset.univ s.lastContext x + s.requests x + points s.usedDefault x +
          points (some c) x
    omega
  · exact h.pins x
  · have hx' := (hget f' n).symm.trans hx
    show (Function.update s.ctx c v x).filePriv = f' ∧ (Function.update s.ctx c v x).id = n
    split at hx'
    · rename_i heq
      obtain rfl := Option.some.inj hx'
      rw [Function.update_self, heq.1, heq.2]
      exact ⟨hv, rfl⟩
    · rw [Function.update_of_ne (h.contextGet_ne hx')]
      exact h.owned f' n x hx'
  · rw [hnew] at hp
    by_cases hn : n = v.id
    · subst hn
      rw [Function.update_self] at hp
      obtain rfl := Option.some.inj hp
      exact ⟨hpos, by simp⟩
    · rw [Function.update_of_ne hn] at hp
      exact h.entries f idr n p hidr hp

theorem CtxDraft.register (h : CtxDraft c s) (alloc : Bool)
    (hready : s.hwContextsDisabled = false → s.defaultContext ≠ none)
    (hidr : s.contextIdr f = some idr) : CtxInv none (s.register c f idr alloc).2 := by
  obtain ⟨hsound, hcases⟩ := (h.sound f idr hidr).getNewAbove (some c) 1 alloc
  unfold CtxState.register
  generalize idrGetNewAbove idr (some c) 1 alloc = r at hsound hcases
  obtain ⟨res, idr'⟩ := r
  obtain ⟨n, rfl, hle, hfree, hptrs⟩ | ⟨⟨err, rfl⟩, hptrs⟩ := hcases
  · have hone : (1 : Int32).toInt = 1 := by decide
    exact h.file hidr hready hsound (show 0 < n by omega) hfree hptrs rfl
  · exact (h.refile hidr hsound hptrs (v := { s.ctx c with filePriv := f })
      h.unfiled).unreference hready

/-! ### The calls -/

theorem CtxInv.createIoctl {o : CreateOutcome} (h : CtxInv none s)
    (hf : (s.contextIdr f).isSome) (hnew : ∀ c, o.kzalloc = some c → s.refs.alive c = false) :
    CtxInv none (s.createIoctl f o).2 := by
  unfold CtxState.createIoctl
  split
  · exact h
  · have hctx : CtxInv none (s.createHwContext (some f) o).2 := by
      unfold CtxState.createHwContext
      cases hk : o.kzalloc with
      | none => exact h
      | some c =>
        dsimp only
        have hdraft := h.newContext (hnew c hk)
        split
        · exact h
        · split
          · exact hdraft.unreference h.ready
          · obtain ⟨idr, hidr⟩ := Option.isSome_iff_exists.mp hf
            have hidr' : (s.newContext c).contextIdr f = some idr := hidr
            rw [hidr']
            exact hdraft.register o.idrAlloc h.ready hidr'
    generalize s.createHwContext (some f) o = r at hctx
    obtain ⟨_ | c, s'⟩ := r <;> exact hctx

/-- A file has closed, or has lost some of its ids. -/
theorem CtxInv.forget {i : Option (Idr ℕ)} {l : List (Option ℕ)} {b : Bool} (h : CtxInv none s)
    (hl : ∀ x, s.registered x =
      ({ s with contextIdr := Function.update s.contextIdr f i } : CtxState).registered x +
        l.count (some x))
    (hsub : ∀ j, i = some j → Idr.Sound j ∧ ∃ idr, s.contextIdr f = some idr ∧
      ∀ id p, j.ptrs id = some p → idr.ptrs id = some p) (hb : b = false) :
    CtxInv none { s with
      refs := l.foldl Counts.putIf s.refs
      contextIdr := Function.update s.contextIdr f i
      bug := b } := by
  refine ⟨h.refs.putAll fun x => ?_, h.pins, hb, h.ready, fun f' n x hx => h.owned f' n x ?_,
    fun f' j hj => ?_, fun f' j n p hj hp => ?_⟩
  · have hx := hl x
    show s.registered x + _ + _ + _ = CtxState.registered { s with
      contextIdr := Function.update s.contextIdr f i } x +
        pointers Finset.univ s.lastContext x + s.requests x + points s.usedDefault x + _
    omega
  · obtain ⟨j, hj, hp⟩ := contextGet_some hx
    have hj' : Function.update s.contextIdr f i f' = some j := hj
    rw [contextGet_eq]
    by_cases hf : f' = f
    · subst hf
      rw [Function.update_self] at hj'
      obtain ⟨-, idr, hidr, hptrs⟩ := hsub j hj'
      rw [hidr, Option.bind_some, hptrs n _ hp]
      rfl
    · rw [Function.update_of_ne hf] at hj'
      rw [hj', Option.bind_some, hp]
      rfl
  · by_cases hf : f' = f
    · subst hf
      exact (hsub j (by simpa using hj)).1
    · exact h.sound f' j (by simpa [hf] using hj)
  · by_cases hf : f' = f
    · subst hf
      obtain ⟨-, idr, hidr, hptrs⟩ := hsub j (by simpa using hj)
      exact h.entries f' idr n p hidr (hptrs n p hp)
    · exact h.entries f' j n p (by simpa [hf] using hj) hp

theorem CtxInv.destroyIoctl (h : CtxInv none s) {alloc : Bool}
    (halloc : s.contextGet f id ≠ none → alloc = true) :
    CtxInv none (s.destroyIoctl f id alloc).2 := by
  unfold CtxState.destroyIoctl
  cases hget : s.contextGet f id with
  | none => exact h
  | some c =>
    obtain rfl := halloc (by simp [hget])
    obtain ⟨hf, hid⟩ := h.owned f id c hget
    obtain ⟨idr, hidr, hptr⟩ := contextGet_some hget
    dsimp only
    rw [hf, hid, hidr, Option.map_some]
    obtain ⟨hsound, hptrs⟩ := (h.sound f idr hidr).remove id true
    have hptrs := hptrs rfl
    generalize (idrRemove idr id true).2 = j at hsound hptrs
    refine h.forget (l := [some c]) (fun x => ?_) (fun j' hj' => ?_) h.bug
    · have hnew : CtxState.registered
          { s with contextIdr := Function.update s.contextIdr f (some j) } x =
          points (if (s.ctx x).filePriv = f ∧ (s.ctx x).id = id then none
            else s.contextGet (s.ctx x).filePriv (s.ctx x).id) x := by
        unfold CtxState.registered
        rw [contextGet_eq, contextGet_eq]
        dsimp only
        by_cases hfx : (s.ctx x).filePriv = f
        · rw [hfx, Function.update_self, hidr, Option.bind_some, hptrs]
          by_cases hidx : (s.ctx x).id = id
          · simp [hidx]
          · simp [hidx]
        · simp [hfx]
      rw [hnew, CtxState.registered]
      by_cases hx : x = c
      · subst hx
        rw [hf, hid, hget]
        simp
      · split
        · rename_i heq
          rw [heq.1, heq.2, hget, points_some_of_ne hx]
          simp [Ne.symm hx]
        · simp [Ne.symm hx]
    · obtain rfl := Option.some.inj hj'
      refine ⟨hsound, idr, hidr, fun n p hp => ?_⟩
      rw [hptrs] at hp
      by_cases hn : n = id
      · subst hn
        simp at hp
      · rwa [Function.update_of_ne hn] at hp

theorem foldl_putPtr {l : List (Option ℕ)} (h : none ∉ l) (r : Counts ℕ) :
    l.foldl Counts.putPtr r = l.foldl Counts.putIf r := by
  induction l generalizing r with
  | nil => rfl
  | cons o l ih =>
    obtain ⟨ho, hl⟩ := not_or.mp (mt List.mem_cons.mpr h)
    cases o with
    | none => exact absurd rfl ho
    | some b => exact ih hl _

theorem CtxInv.contextClose (h : CtxInv none s) : CtxInv none (s.contextClose f) := by
  unfold CtxState.contextClose
  cases hidr : s.contextIdr f with
  | none => exact h
  | some idr =>
    have hnone : none ∉ idrPointers idr := by
      intro hmem
      obtain ⟨⟨n, p⟩, ha, hp⟩ := List.mem_map.mp hmem
      exact (h.entries f idr n p hidr (AList.mem_lookup_iff.mpr ha)).2 hp
    have hzero : idr.usedIds.keys.contains 0 = false := by
      rw [List.contains_eq_mem, decide_eq_false_iff_not]
      intro hmem
      obtain ⟨p, hp⟩ := Option.isSome_iff_exists.mp (AList.lookup_isSome.mpr hmem)
      exact absurd (h.entries f idr 0 p hidr hp).1 (Nat.lt_irrefl 0)
    dsimp only
    rw [foldl_putPtr hnone]
    refine h.forget (fun x => ?_) (fun j hj => nomatch hj) ?_
    · have hget (n : ℕ) (hn : idr.ptrs n = some (some x)) :
          (s.ctx x).filePriv = f ∧ (s.ctx x).id = n :=
        h.owned f n x (by rw [contextGet_eq, hidr, Option.bind_some, hn]; rfl)
      have hcount : (idrPointers idr).count (some x) = points (idr.ptrs (s.ctx x).id).join x :=
        Idr.count_idrPointers fun n hn => (hget n hn).2.symm
      rw [hcount]
      unfold CtxState.registered
      rw [contextGet_eq, contextGet_eq]
      dsimp only
      by_cases hf : (s.ctx x).filePriv = f
      · rw [hf, Function.update_self, hidr, Option.bind_some, Option.bind_none, points_none,
          Nat.zero_add]
      · have hno : points (idr.ptrs (s.ctx x).id).join x = 0 :=
          points_of_ne fun hx => hf (hget _ (Option.join_eq_some_iff.mp hx)).1
        rw [Function.update_of_ne hf, hno, Nat.add_zero]
    · show (s.bug || _) = false
      rw [h.bug, hzero]
      rfl

theorem CtxInv.driverOpen (h : CtxInv none s) (hf : s.contextIdr f = none) :
    CtxInv none (s.driverOpen f) := by
  have hget (f' n : ℕ) : (s.driverOpen f).contextGet f' n = s.contextGet f' n := by
    rw [contextGet_eq, contextGet_eq]
    unfold CtxState.driverOpen
    dsimp only
    by_cases hf' : f' = f
    · subst hf'
      rw [Function.update_self, hf]
      rfl
    · rw [Function.update_of_ne hf']
  refine ⟨h.refs.congr fun x => ?_, h.pins, h.bug, h.ready, fun f' n x hx => ?_,
    sound_update h.sound Idr.idrInit_inv.sound, entries_update h.entries fun n p hp => ?_⟩
  · unfold CtxState.contextRefs CtxState.registered
    rw [hget]
    rfl
  · exact h.owned f' n x ((hget f' n).symm.trans hx)
  · cases hp

variable {o : SwitchOutcome}

theorem CtxInv.i915SwitchContext {file : Option ℕ} {ring : Ring} (h : CtxInv none s)
    (hreq : s.hwContextsDisabled = false → ring = rcs →
      ∀ c, s.switchTarget file id = .ok (some c) → s.Replaces c o → o.request.ret = 0) :
    CtxInv none (s.i915SwitchContext ring file id o).2 := by
  unfold CtxState.i915SwitchContext
  split
  · exact h
  · rename_i hused
    split
    · exact h
    · rename_i hring
      have hheld (c : ℕ) (hc : s.switchTarget file id = .ok (some c)) : s.Held c := by
        unfold CtxState.switchTarget at hc
        split at hc
        · have hdef : s.usedDefault = some c := by
            rw [CtxState.usedDefault, if_neg hused]
            exact Except.ok.inj hc
          rw [CtxState.Held, hdef, points_self]
          omega
        · cases file with
          | none => cases hc
          | some f =>
            dsimp only at hc
            cases hget : s.contextGet f id with
            | none => simp [hget] at hc
            | some x =>
              rw [hget] at hc
              obtain rfl : x = c := Option.some.inj (Except.ok.inj hc)
              obtain ⟨hf, hid⟩ := h.owned f id x hget
              rw [CtxState.Held, CtxState.registered, hf, hid, hget, points_self]
              omega
      have hsome : s.switchTarget file id ≠ .ok none := by
        unfold CtxState.switchTarget
        split
        · exact fun he => h.ready (by simpa using hused) (Except.ok.inj he)
        · cases file with
          | none => simp
          | some f => cases hget : s.contextGet f id <;> simp [hget]
      have hr := hreq (by simpa using hused) (not_not.mp hring)
      cases ht : s.switchTarget file id with
      | error e => exact h
      | ok o' =>
        cases o' with
        | none => exact absurd ht hsome
        | some c => exact h.doSwitch (hheld c ht) (hr c ht)

/-! ### i915_gem_context_init -/

theorem usedDefault_handOver {fromCtx : Option ℕ} :
    (s.handOver fromCtx c o).2.usedDefault = s.usedDefault := by
  unfold CtxState.handOver
  cases fromCtx with
  | none => rfl
  | some d =>
    have hwaits := (Waits.wait (s := s) o.request).trans
      (Waits.addRequest (s := s.wait o.request) rcs o.request.ret)
    generalize (s.wait o.request).addRequest rcs o.request.ret = r at hwaits
    obtain ⟨ret, t⟩ := r
    dsimp only at hwaits ⊢
    split
    · rw [(Waits.wait (s := t) o.undo).same, hwaits.same]
      rfl
    · rw [hwaits.same]
      rfl

theorem usedDefault_doSwitch :
    (s.doSwitch c o).2.usedDefault = s.usedDefault := by
  have hpin (t : CtxState) : (t.pin c o.pin).2.usedDefault = t.usedDefault := by
    have hwait : (t.wait o.pin).usedDefault = t.usedDefault := by
      rw [(Waits.wait (s := t) o.pin).same]
      rfl
    unfold CtxState.pin
    split
    · rfl
    · split <;> exact hwait
  have hdef (t : CtxState) (w : Waited) : (t.wait w).usedDefault = t.usedDefault := by
    rw [(Waits.wait (s := t) w).same]
    rfl
  unfold CtxState.doSwitch
  dsimp only
  split
  · rfl
  · generalize hb : s.bugOn _ = t
    have ht : t.usedDefault = s.usedDefault := hb ▸ rfl
    have hp := hpin t
    generalize t.pin c o.pin = r at hp
    obtain ⟨ret, u⟩ := r
    split
    · exact hp.trans ht
    · split
      · exact ((hdef u o.domain).trans hp).trans ht
      · split
        · exact (((hdef _ o.mi).trans (hdef u o.domain)).trans hp).trans ht
        · rw [usedDefault_handOver, hdef, hdef, hp, ht]

/-- No file is open, no context has run and no BUG_ON has come true. -/
structure Unused (s : CtxState) : Prop where
  contextIdr : s.contextIdr = fun _ => none
  lastContext : s.lastContext = fun _ => none
  bug : s.bug = false

theorem Unused.waits (h : Unused s) (hw : Waits s s') : Unused s' := by
  constructor <;> rw [hw.same]
  · exact h.contextIdr
  · exact h.lastContext
  · exact h.bug

theorem Unused.inv {pins : ℕ → ℕ} (h : Unused s) (hrefs : Balanced s.refs s.contextRefs)
    (hpins : ∀ x, pins x = points s.usedDefault x)
    (hready : s.hwContextsDisabled = false → s.defaultContext ≠ none) :
    CtxInv none { s with pins } := by
  have hidr (f : ℕ) (idr : Idr ℕ) : s.contextIdr f ≠ some idr := by simp [h.contextIdr]
  refine ⟨hrefs, fun x => ?_, h.bug, hready, fun f id x hx => ?_,
    fun f idr hf => absurd hf (hidr f idr), fun f idr _ _ hf => absurd hf (hidr f idr)⟩
  · show pins x = pointers Finset.univ s.lastContext x + points s.usedDefault x + points none x
    rw [hpins, h.lastContext]
    simp [pointers]
  · obtain ⟨idr, hf, -⟩ := contextGet_some hx
    exact absurd hf (hidr f idr)

theorem disabled_inv : CtxInv none { ({} : CtxState) with hwContextsDisabled := true } := by
  refine Unused.inv (s := { ({} : CtxState) with hwContextsDisabled := true }) ⟨rfl, rfl, rfl⟩
    (.init fun x => ?_) (fun x => ?_) fun he => Bool.noConfusion he
  · simp [CtxState.contextRefs, CtxState.requests, CtxState.registered, CtxState.contextGet,
      CtxState.usedDefault, pointers]
  · simp [CtxState.usedDefault]

/-- The default context has been made and is not pinned yet. -/
structure DefaultMade (c : ℕ) (s : CtxState) : Prop extends Unused s where
  refs : Balanced s.refs s.contextRefs
  pins : ∀ x, s.pins x = 0
  default : s.usedDefault = some c

theorem defaultMade (c : ℕ) :
    DefaultMade c { ({} : CtxState).newContext c with defaultContext := some c } := by
  have hinit : Balanced ({} : Counts ℕ) fun _ => 0 := .init fun _ => rfl
  refine ⟨⟨rfl, rfl, rfl⟩, hinit.new rfl fun x => ?_, fun x => ?_, rfl⟩
  · unfold CtxState.contextRefs CtxState.requests
    simp [CtxState.newContext, CtxState.registered, CtxState.contextGet, CtxState.usedDefault,
      pointers]
  · exact congrFun (Function.update_eq_self c fun _ : ℕ => 0) x

namespace DefaultMade

theorem ready (h : DefaultMade c s) : s.hwContextsDisabled = false → s.defaultContext ≠ none := by
  have hdef := h.default
  unfold CtxState.usedDefault at hdef
  intro hused
  simp_all

theorem waits (h : DefaultMade c s) (hw : Waits s s') : DefaultMade c s' := by
  refine ⟨h.toUnused.waits hw, hw.refs h.refs, ?_, ?_⟩ <;> rw [hw.same]
  · exact h.pins
  · exact h.default

/-- The pin failed. -/
theorem disable (h : DefaultMade c s) :
    CtxInv none { s.unreference c with hwContextsDisabled := true } := by
  refine Unused.inv (s := { s.unreference c with hwContextsDisabled := true })
    ⟨h.contextIdr, h.lastContext, h.bug⟩ (h.refs.put fun x => ?_) h.pins
    fun he => Bool.noConfusion he
  unfold CtxState.contextRefs
  rw [h.default]
  rfl

theorem pin (h : DefaultMade c s) (w : Waited) :
    (s.pin c w).1 ≠ 0 ∧ DefaultMade c (s.pin c w).2 ∨
      (s.pin c w).1 = 0 ∧ CtxInv none (s.pin c w).2 ∧ (s.pin c w).2.usedDefault = some c ∧
        (s.pin c w).2.lastContext rcs = none := by
  have hmax : s.pins c ≠ maxPinCount := by
    rw [h.pins]
    decide
  have hw := h.waits (Waits.wait w)
  unfold CtxState.pin
  rw [if_neg hmax]
  split
  · rename_i hret
    exact .inl ⟨hret, hw⟩
  · refine .inr ⟨rfl, hw.toUnused.inv hw.refs (fun x => ?_) hw.ready, hw.default,
      congrFun hw.lastContext rcs⟩
    rw [hw.default]
    by_cases hx : x = c
    · subst hx
      rw [Function.update_self, hw.pins, points_self]
    · rw [Function.update_of_ne hx, hw.pins, points_some_of_ne hx]

end DefaultMade

/-- The switch to the default context failed. -/
theorem CtxInv.disable (h : CtxInv none s) (hdef : s.usedDefault = some c) :
    CtxInv none { (s.unpin c).unreference c with hwContextsDisabled := true } := by
  have hc := h.pins c
  unfold CtxState.contextPins at hc
  rw [hdef, points_self, points_none] at hc
  refine ⟨h.refs.put fun x => ?_, fun x => ?_, ?_, fun he => Bool.noConfusion he, h.owned, h.sound,
    h.entries⟩
  · unfold CtxState.contextRefs
    rw [hdef]
    rfl
  · show Function.update s.pins c (s.pins c - 1) x =
      pointers Finset.univ s.lastContext x + points none x + points none x
    have hx := h.pins x
    unfold CtxState.contextPins at hx
    rw [hdef] at hx
    by_cases hxc : x = c
    · subst hxc
      rw [Function.update_self, points_none]
      omega
    · rw [Function.update_of_ne hxc, hx, points_some_of_ne hxc]
      rfl
  · show (s.bug || decide (s.pins c = 0)) = false
    rw [h.bug, Bool.false_or, decide_eq_false_iff_not]
    omega

theorem createDefaultContext_inv (o : InitOutcome) :
    (({} : CtxState).createDefaultContext o).1 ≠ 0 ∧
        CtxInv none { (({} : CtxState).createDefaultContext o).2 with hwContextsDisabled := true } ∨
      (({} : CtxState).createDefaultContext o).1 = 0 ∧
        CtxInv none (({} : CtxState).createDefaultContext o).2 := by
  have hnomem : (Errno.eNomem : ℤ) ≠ 0 := by decide
  unfold CtxState.createDefaultContext CtxState.createHwContext
  cases hk : o.create.kzalloc with
  | none => exact .inl ⟨hnomem, disabled_inv⟩
  | some c =>
    dsimp only
    by_cases halloc : o.create.allocObject = true
    case neg =>
      rw [if_pos (by simpa using halloc)]
      exact .inl ⟨hnomem, disabled_inv⟩
    by_cases hlevel : o.create.setCacheLevel = 0
    case neg =>
      rw [if_neg (by simpa using halloc), if_pos hlevel]
      exact .inl ⟨hnomem, (disabled_inv.newContext rfl).unreference fun he => Bool.noConfusion he⟩
    rw [if_neg (by simpa using halloc), if_neg (not_not.mpr hlevel)]
    dsimp only
    have hmade := defaultMade c
    generalize ({ ({} : CtxState).newContext c with defaultContext := some c } : CtxState) = t
      at hmade ⊢
    have hpin := hmade.pin o.pin
    generalize t.pin c o.pin = r at hpin
    obtain ⟨ret, v⟩ := r
    obtain ⟨hret, hv⟩ | ⟨rfl, hv, hdef, hlast⟩ := hpin
    · rw [if_pos hret]
      exact .inl ⟨hret, hv.disable⟩
    have hheld : v.Held c := by
      rw [CtxState.Held, hdef, points_self]
      omega
    have hswitch := hv.doSwitch (o := o.switch) hheld fun hr => absurd hlast hr.1
    have hafter := (usedDefault_doSwitch (o := o.switch) (c := c) (s := v)).trans hdef
    generalize v.doSwitch c o.switch = r at hswitch hafter
    obtain ⟨ret, w⟩ := r
    by_cases hret : ret = 0
    · rw [if_neg (not_not.mpr hret)]
      exact .inr ⟨rfl, hswitch⟩
    · rw [if_pos hret]
      exact .inl ⟨hret, hswitch.disable hafter⟩

theorem contextInit_inv (o : InitOutcome) : CtxInv none (({} : CtxState).contextInit o) := by
  unfold CtxState.contextInit
  split
  · exact disabled_inv
  · rw [if_neg (by simp)]
    split
    · exact disabled_inv
    · have h := createDefaultContext_inv o
      dsimp only at h ⊢
      obtain ⟨hret, hinv⟩ | ⟨hret, hinv⟩ := h
      · rw [if_pos hret]
        exact hinv
      · rw [if_neg (not_not.mpr hret)]
        exact hinv

/-! ### Runs -/

/-- The two failures that go wrong do not happen: idr_remove finds memory for the id it takes
back, and a switch that was emitted gets its request. -/
def CtxAction.Whole (s : CtxState) : CtxAction → Prop
  | .destroy f id alloc => s.contextGet f id ≠ none → alloc = true
  | .switch ring file id o =>
    s.hwContextsDisabled = false → ring = rcs →
      ∀ c, s.switchTarget file id = .ok (some c) → s.Replaces c o → o.request.ret = 0
  | _ => True

theorem CtxInv.apply {a : CtxAction} (h : CtxInv none s) (hc : a.Calls s) (hg : a.Whole s) :
    CtxInv none (s.apply a) := by
  cases a with
  | «open» f => exact h.driverOpen hc
  | create f o => exact h.createIoctl hc.1 hc.2
  | destroy f id alloc => exact h.destroyIoctl hg
  | close f => exact h.contextClose
  | switch ring file id o => exact h.i915SwitchContext hg
  | gpu ev => exact h.waits (Waits.event ev)

theorem ctxInv_of_reach (h : ReachWhile ctxSystem (fun s a => a.Whole s) s) : CtxInv none s := by
  refine h.invariant (fun s hs => ?_) fun s a s' hinv hg hs => ?_
  · obtain ⟨o, rfl⟩ := hs
    exact contextInit_inv o
  · obtain ⟨hc, rfl⟩ := hs
    exact hinv.apply hc hg

/-- A computed run. -/
def ctxRun (o : InitOutcome) (l : List CtxAction) : CtxState :=
  l.foldl CtxState.apply (({} : CtxState).contextInit o)

theorem ctxRun_reach (guard : CtxState → CtxAction → Prop) (o : InitOutcome) (l : List CtxAction)
    (h : AllAllowed (fun s a => a.Calls s ∧ guard s a) CtxState.apply l
      (({} : CtxState).contextInit o)) :
    ReachWhile ctxSystem guard (ctxRun o l) :=
  ReachWhile.foldl (S := ctxSystem) _ (fun _ _ hs => ⟨hs.2, hs.1, rfl⟩) l (.init ⟨o, rfl⟩) h

instance (s : CtxState) (f : ℕ) : Decidable (s.contextIdr f = none) :=
  decidable_of_iff ((s.contextIdr f).isNone = true) Option.isNone_iff_eq_none

instance (a : CtxAction) (s : CtxState) : Decidable (a.Calls s) :=
  match a with
  | .open f => inferInstanceAs (Decidable (_ = _))
  | .create _ o => inferInstanceAs (Decidable (_ ∧ _))
  | .destroy f _ _ => inferInstanceAs (Decidable (_ = _))
  | .close f => inferInstanceAs (Decidable (_ = _))
  | .switch _ (some f) _ _ => inferInstanceAs (Decidable (_ = _))
  | .switch _ none _ _ => inferInstanceAs (Decidable True)
  | .gpu _ => inferInstanceAs (Decidable True)

instance (a : CtxAction) (s : CtxState) : Decidable (a.Whole s) :=
  match a with
  | .destroy f id alloc => inferInstanceAs (Decidable (_ → _))
  | .switch ring file id o =>
    match h : s.switchTarget file id with
    | .ok (some c) =>
      decidable_of_iff (s.hwContextsDisabled = false → ring = rcs → s.Replaces c o →
        o.request.ret = 0) ⟨fun hc hu hr c' hc' => by cases h.symm.trans hc'; exact hc hu hr,
          fun hc hu hr => hc hu hr c h⟩
    | .ok none => .isTrue fun _ _ c hc => by cases h.symm.trans hc
    | .error e => .isTrue fun _ _ c hc => by cases h.symm.trans hc
  | .open _ | .create _ _ | .close _ | .gpu _ => .isTrue trivial

/-- The default context at 1, a file and its context at 2. -/
def oneContext : List CtxAction := [.open 0, .create 0 { kzalloc := some 2 }]

end GfxDrm.HwContext
