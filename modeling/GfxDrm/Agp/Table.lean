import GfxDrm.Agp.Mapped
import Mathlib.Algebra.Order.BigOperators.Group.Finset

/-! The key table and the count of used pages. -/

namespace GfxDrm.Agp
open Run

/-- The pages of an entry that holds memory. -/
def KeytableEnt.held (e : KeytableEnt) : ℕ := if e.memhdl then e.pages else 0

def AgpState.held (s : AgpState) : ℕ := ∑ k, (s.table k).held

/-- The key table as it should be. -/
structure TableOk (s : AgpState) : Prop where
  memory : ∀ k, (s.table k).bound = true →
    (s.table k).memhdl = true ∧ (s.table k).pfnarray = true
  apart : ∀ k l, k ≠ l → Apart (s.table k) (s.table l)
  inside : ∀ k, (s.table k).bound = true →
    (s.table k).pgoff + (s.table k).pages ≤ agpMb2Pages s.apersize
  used : s.pgused = s.held
  le : s.pgused ≤ s.pgtotal

/-- Where the code keeps it so: no page is left in use at the last close, the sum that is checked
against the limit has not lost its carry, and no memory without pages is bound. -/
def AgpAction.Sound (s : AgpState) : AgpAction → Prop
  | .close unconfig _ => unconfig = 0 → s.pgused = 0
  | .alloc _ pgcount _ _ ok _ => ok = true → (s.pgused + pgcount) % 2 ^ 32 ≤ s.pgtotal →
    s.pgused + pgcount < 2 ^ 32
  | .bind _ key _ _ _ => ∀ k ∈ keyOf key, (s.table k).memhdl = true → (s.table k).pages ≠ 0
  | _ => True

/-- What is true of the table besides. -/
structure TableInv (s : AgpState) : Prop where
  ok : TableOk s
  frames : ∀ k, (s.table k).memhdl = true → (s.table k).pfnarray = decide ((s.table k).pages ≠ 0)
  total : s.pgtotal < 2 ^ 20
  closed : s.opened = 0 → s.pgused = 0

variable {s s' : AgpState} {k l : Fin maxKeys} {e : KeytableEnt}

theorem held_setEnt (s : AgpState) (k : Fin maxKeys) (e : KeytableEnt) :
    (s.setEnt k e).held + (s.table k).held = s.held + e.held := by
  have hself := Finset.add_sum_erase Finset.univ (fun l => ((s.setEnt k e).table l).held)
    (Finset.mem_univ k)
  have hbefore := Finset.add_sum_erase Finset.univ (fun l => (s.table l).held) (Finset.mem_univ k)
  have hrest : ∑ l ∈ Finset.univ.erase k, ((s.setEnt k e).table l).held =
      ∑ l ∈ Finset.univ.erase k, (s.table l).held := by
    refine Finset.sum_congr rfl fun l hl => ?_
    rw [setEnt_ne (Finset.ne_of_mem_erase hl)]
  rw [setEnt_self] at hself
  unfold AgpState.held
  omega

theorem held_le (s : AgpState) (k : Fin maxKeys) : (s.table k).held ≤ s.held :=
  Finset.single_le_sum (f := fun k => (s.table k).held) (fun _ _ => Nat.zero_le _)
    (Finset.mem_univ k)

namespace TableInv

/-- What is bound is in use. -/
theorem bound_used (h : TableInv s) (hb : (s.table k).bound = true) : 0 < s.pgused := by
  obtain ⟨hm, hp⟩ := h.ok.memory k hb
  have hpages : (s.table k).pages ≠ 0 := of_decide_eq_true ((h.frames k hm).symm.trans hp)
  have hle := held_le s k
  unfold KeytableEnt.held at hle
  rw [if_pos hm, ← h.ok.used] at hle
  omega

theorem of_table (h : TableInv s) (ht : s'.table = s.table) (hu : s'.pgused = s.pgused)
    (htotal : s'.pgtotal = s.pgtotal) (haper : s'.apersize = s.apersize)
    (hclosed : s'.opened = 0 → s.opened = 0) : TableInv s' where
  ok := by
    refine ⟨ht ▸ h.ok.memory, ht ▸ h.ok.apart, ?_, ?_, ?_⟩
    · rw [ht, haper]
      exact h.ok.inside
    · rw [hu, h.ok.used]
      unfold AgpState.held
      rw [ht]
    · rw [hu, htotal]
      exact h.ok.le
  frames := ht ▸ h.frames
  total := htotal ▸ h.total
  closed h0 := hu ▸ h.closed (hclosed h0)

/-- An entry and the count change together. -/
theorem setEnt (h : TableInv s) {n : ℕ} (hmemory : e.bound = true → e.memhdl = true ∧ e.pfnarray = true)
    (hapart : ∀ l, l ≠ k → Apart e (s.table l))
    (hinside : e.bound = true → e.pgoff + e.pages ≤ agpMb2Pages s.apersize)
    (hframes : e.memhdl = true → e.pfnarray = decide (e.pages ≠ 0))
    (hn : n + (s.table k).held = s.pgused + e.held) (hle : n ≤ s.pgtotal)
    (hclosed : s.opened = 0 → n = 0) : TableInv { s.setEnt k e with pgused := n } := by
  have hcases : ∀ {P : KeytableEnt → Prop}, P e → (∀ l, P (s.table l)) →
      ∀ l, P ((s.setEnt k e).table l) := by
    intro P he hs l
    by_cases hl : l = k
    · rwa [hl, setEnt_self]
    · rw [setEnt_ne hl]
      exact hs l
  refine ⟨⟨@hcases (fun e => e.bound = true → e.memhdl = true ∧ e.pfnarray = true) hmemory
      h.ok.memory, fun l m hlm => ?_,
      @hcases (fun e => e.bound = true → e.pgoff + e.pages ≤ agpMb2Pages s.apersize) hinside
        h.ok.inside, ?_, hle⟩,
    @hcases (fun e => e.memhdl = true → e.pfnarray = decide (e.pages ≠ 0)) hframes h.frames,
    h.total, hclosed⟩
  · by_cases hl : l = k
    · rw [hl, setEnt_self, setEnt_ne fun hm => hlm (hl.trans hm.symm)]
      exact hapart m fun hm => hlm (hl.trans hm.symm)
    · rw [setEnt_ne hl]
      by_cases hm : m = k
      · rw [hm, setEnt_self]
        exact (hapart l hl).symm
      · rw [setEnt_ne hm]
        exact h.ok.apart l m hlm
  · show n = (s.setEnt k e).held
    have hheld := held_setEnt s k e
    have := h.ok.used
    omega

/-- An entry is the same, or no longer bound. -/
theorem setUnbound (h : TableInv s)
    (he : e = s.table k ∨ e = { s.table k with bound := false }) : TableInv (s.setEnt k e) := by
  rcases he with rfl | rfl
  · rwa [setEnt_same]
  · exact h.setEnt nofun (fun _ _ => nofun) nofun (h.frames k) rfl h.ok.le h.closed

end TableInv

theorem agpUnbindKey_unbound (arctype : ArcType) (e : KeytableEnt) (gtt : ℤ) :
    (agpUnbindKey arctype e gtt).2 = e ∨
      (agpUnbindKey arctype e gtt).2 = { e with bound := false } := by
  unfold agpUnbindKey
  split
  · exact .inl rfl
  split
  · exact .inl rfl
  cases arctype <;> dsimp only
  case igd810 | igd830 =>
    split
    · exact .inl rfl
    · exact .inr rfl
  case intelAgp | amd64Agp => exact .inr rfl
  case unknown => exact .inl rfl

/-- The memory of an entry is freed, or the entry is the same or no longer bound. -/
theorem agpDeallocMem_cases (s : AgpState) (e : KeytableEnt) (gtt : ℤ) :
    ((agpDeallocMem s e gtt).1 = 0 ∧ (agpDeallocMem s e gtt).2.memhdl = false) ∨
      ((agpDeallocMem s e gtt).1 ≠ 0 ∧ ((agpDeallocMem s e gtt).2 = e ∨
        (agpDeallocMem s e gtt).2 = { e with bound := false })) := by
  unfold agpDeallocMem
  have hun : (if e.bound = true ∧ e.refcnt = 0 ∧ s.opened ≠ 0 then
      (agpUnbindKey s.arctype e gtt).2 else e) = e ∨
      (if e.bound = true ∧ e.refcnt = 0 ∧ s.opened ≠ 0 then
        (agpUnbindKey s.arctype e gtt).2 else e) = { e with bound := false } := by
    split
    · exact agpUnbindKey_unbound ..
    · exact .inl rfl
  revert hun
  generalize (if e.bound = true ∧ e.refcnt = 0 ∧ s.opened ≠ 0 then
    (agpUnbindKey s.arctype e gtt).2 else e) = e'
  intro hun
  have hne : (-1 : ℤ) ≠ 0 := by decide
  dsimp only
  split
  · exact .inr ⟨hne, hun⟩
  split
  · exact .inl ⟨rfl, rfl⟩
  · exact .inr ⟨hne, hun⟩

namespace TableInv

variable {pid pgcount type pgstart : ℕ} {copyin ok copyout : Bool} {key gtt gart : ℤ}

theorem alloc (h : TableInv s) (hopen : s.opened ≠ 0) (hlt : pgcount < 2 ^ 32)
    (hsound : (AgpAction.alloc pid pgcount type copyin ok copyout).Sound s) :
    TableInv (ioctlAgpgartAlloc s pid pgcount type copyin ok copyout).2 := by
  unfold ioctlAgpgartAlloc
  split
  · exact h
  split
  · exact h
  split
  · exact h
  rename_i hlimit
  split
  · exact h
  rename_i k s' halloc
  unfold agpAllocMem at halloc
  split at halloc
  · split at halloc
    · rename_i hok
      have hsum := hsound hok (not_lt.mp hlimit)
      have htotal := h.total
      rw [Nat.mod_eq_of_lt hsum] at hlimit
      have hpages : pgcount % 2 ^ 20 = pgcount := Nat.mod_eq_of_lt (by omega)
      rw [agpPages2Bytes_pages, hpages] at halloc
      obtain ⟨l, hfind, hl⟩ := Option.map_eq_some_iff.mp halloc
      cases hl
      have hmem := List.find?_some hfind
      simp only [Bool.not_eq_true'] at hmem
      have hheld : (s.table k).held = 0 := if_neg (by simp [hmem])
      have hnew : KeytableEnt.held
          { type := type, key := k, pages := pgcount, memhdl := true
            pfnarray := decide (pgcount ≠ 0) } = pgcount := rfl
      refine h.setEnt nofun (fun _ _ => nofun) nofun (fun _ => rfl) ?_ ?_ fun h0 => absurd h0 hopen
      · show (s.pgused + pgcount) % 2 ^ 32 + (s.table k).held = _
        rw [hheld, Nat.mod_eq_of_lt hsum]
        exact congrArg (s.pgused + ·) hnew.symm
      · show (s.pgused + pgcount) % 2 ^ 32 ≤ _
        rw [Nat.mod_eq_of_lt hsum]
        exact not_lt.mp hlimit
    · cases halloc
  · cases halloc

theorem dealloc (h : TableInv s) :
    TableInv (ioctlAgpgartDealloc s pid key gtt).2 := by
  unfold ioctlAgpgartDealloc
  split
  · exact h
  split
  · exact h
  split
  · exact h
  rename_i k _ hmem
  have hmem : (s.table k).memhdl = true := by simpa using hmem
  dsimp only
  split
  · rename_i hret
    exact h.setUnbound ((agpDeallocMem_cases s _ gtt).resolve_left fun h => hret h.1).2
  · have hpages := (agpDeallocMem_loses s (s.table k) gtt).pages
    have hle := held_le s k
    have hheld : (s.table k).held = (s.table k).pages := if_pos hmem
    have hused := h.ok.used
    have hlimit := h.ok.le
    have htotal := h.total
    have hcount : (s.pgused + 2 ^ 32 - (agpDeallocMem s (s.table k) gtt).2.pages % 2 ^ 32) %
        2 ^ 32 = s.pgused - (s.table k).pages := by
      omega
    rw [hcount]
    refine h.setEnt nofun (fun _ _ => nofun) nofun nofun ?_ ?_ fun h0 => ?_
    · show s.pgused - (s.table k).pages + (s.table k).held = s.pgused + 0
      omega
    · omega
    · have := h.closed h0
      omega

theorem bind (h : TableInv s) (hI : AgpInv s) (hopen : s.opened ≠ 0)
    (hsound : (AgpAction.bind pid key pgstart copyin gart).Sound s) :
    TableInv (ioctlAgpgartBind s pid key pgstart copyin gart).2 := by
  unfold ioctlAgpgartBind
  split
  · exact h
  split
  · exact h
  split
  · exact h
  rename_i k hkey
  split
  · exact h
  split
  · exact h
  rename_i hmem
  split
  · exact h
  dsimp only
  split
  · rename_i hret
    have hmem : (s.table k).memhdl = true := by simpa using hmem
    obtain ⟨hend, hoff⟩ := agpBindKey_zero hret
    have haper := (agpMb2Pages_le (hI.aper hopen)).2
    have hsmall : pgstart + (s.table k).pages < 2 ^ 32 := by omega
    refine h.setEnt (fun _ => ⟨hmem, ?_⟩) (fun l _ _ hbl => agpCheckOff_apart hsmall hoff hbl)
      (fun _ => hend) (h.frames k) rfl h.ok.le h.closed
    exact (h.frames k hmem).trans (decide_eq_true (hsound k hkey hmem))
  · exact h

theorem unbind (h : TableInv s) :
    TableInv (ioctlAgpgartUnbind s pid key copyin gtt).2 := by
  unfold ioctlAgpgartUnbind
  split
  · exact h
  split
  · exact h
  split
  · exact h
  split
  · exact h
  · exact h.setUnbound (agpUnbindKey_unbound ..)

/-- What is left of an entry when no page is in use. -/
theorem delAllkeys (h : TableInv s) (hzero : s.pgused = 0) {c : AgpState} (hc : c.table = s.table)
    (gtt : Fin maxKeys → ℤ) (k : Fin maxKeys) :
    ((agpDelAllkeys c gtt).table k).bound = false ∧ ((agpDelAllkeys c gtt).table k).held = 0 ∧
    (((agpDelAllkeys c gtt).table k).memhdl = true → ((agpDelAllkeys c gtt).table k).pfnarray =
      decide (((agpDelAllkeys c gtt).table k).pages ≠ 0)) := by
  have hno : (s.table k).bound = false :=
    Bool.eq_false_iff.mpr fun hb => (h.bound_used hb).ne' hzero
  have hheld : (s.table k).held = 0 := by
    have := held_le s k
    rw [← h.ok.used] at this
    omega
  unfold agpDelAllkeys
  dsimp only
  rw [hc]
  split
  · have hb : (agpDeallocMem c (s.table k) (gtt k)).2.bound = false :=
      Bool.eq_false_iff.mpr fun hb => by
        rw [(agpDeallocMem_loses c (s.table k) (gtt k)).bound hb] at hno
        cases hno
    rcases agpDeallocMem_cases c (s.table k) (gtt k) with ⟨-, hm⟩ | ⟨-, he | he⟩
    · exact ⟨hb, if_neg (by simp [hm]), fun h => by rw [hm] at h; cases h⟩
    · rw [he]
      exact ⟨hno, hheld, h.frames k⟩
    · rw [he]
      exact ⟨rfl, hheld, h.frames k⟩
  · exact ⟨hno, hheld, h.frames k⟩

/-- The last close, with no page in use. -/
theorem close (h : TableInv s) {unconfig : ℤ} {gtt : Fin maxKeys → ℤ}
    (hsound : (AgpAction.close unconfig gtt).Sound s) :
    TableInv (agpgartClose s unconfig gtt).2 := by
  unfold agpgartClose
  dsimp only
  split
  · exact h.of_table rfl rfl rfl rfl id
  rename_i hret
  have hzero : s.pgused = 0 := hsound (not_not.mp hret)
  have hent := fun k => h.delAllkeys hzero (c := { s with
    acquired := false, curpid := if s.acquired then 0 else s.curpid, opened := 0 }) rfl gtt k
  have hno := fun k hb => Bool.false_ne_true ((hent k).1.symm.trans hb)
  refine ⟨⟨fun k hb => (hno k hb).elim, fun k _ _ hb => (hno k hb).elim,
    fun k hb => (hno k hb).elim, ?_, ?_⟩, fun k => (hent k).2.2, h.total, fun _ => hzero⟩
  · exact hzero.trans (Finset.sum_eq_zero fun k _ => (hent k).2.1).symm
  · exact hzero.le.trans (Nat.zero_le _)

end TableInv

theorem getMaxPages_lt {physmem apersize : ℕ} (h : apersize < maxAperMegas) :
    getMaxPages physmem apersize < 2 ^ 20 := by
  have hmin : agpMb2Pages minAperMegas < 2 ^ 20 := by decide
  have haper := (agpMb2Pages_le h).1
  unfold maxAperMegas at h
  unfold getMaxPages
  dsimp only
  split <;> split <;> omega

/-- The first open resets the count and finds the limit. -/
theorem agpgartFirstOpen_total (s : AgpState) (o : OpenAnswers) (h : s.pgtotal < 2 ^ 20) :
    (agpgartFirstOpen s o).2.pgused = 0 ∧ (agpgartFirstOpen s o).2.pgtotal < 2 ^ 20 := by
  unfold agpgartFirstOpen
  cases o.lyrInit with
  | none => exact ⟨rfl, h⟩
  | some arctype =>
    dsimp only
    split
    · exact ⟨rfl, h⟩
    rename_i hinfo
    have haper := aperProgrammed_lt hinfo
    have hgart := @getMaxPages_lt o.physmem _ ((gartAper_le o _).trans_lt haper)
    split
    · split
      · exact ⟨rfl, getMaxPages_lt haper⟩
      split
      · exact ⟨rfl, getMaxPages_lt haper⟩
      · exact ⟨rfl, getMaxPages_lt haper⟩
    · split
      · exact ⟨rfl, h⟩
      split
      · exact ⟨rfl, hgart⟩
      split
      · exact ⟨rfl, hgart⟩
      · exact ⟨rfl, hgart⟩

theorem TableInv.open (h : TableInv s) (o : OpenAnswers) : TableInv (agpgartOpen s o).2 := by
  unfold agpgartOpen
  split
  · exact h
  split
  · exact h.of_table rfl rfl rfl rfl fun h0 => absurd h0 (Nat.succ_ne_zero _)
  rename_i hclosed
  have hzero := h.closed (not_not.mp hclosed)
  have hno : ∀ k, (s.table k).bound ≠ true := fun k hb => (h.bound_used hb).ne' hzero
  obtain ⟨ht, -, -⟩ := agpgartFirstOpen_table s o
  obtain ⟨hused, htotal⟩ := agpgartFirstOpen_total s o h.total
  refine ⟨⟨ht ▸ h.ok.memory, ht ▸ h.ok.apart, fun k hb => ?_, ?_, ?_⟩, ht ▸ h.frames, htotal,
    fun _ => hused⟩
  · rw [ht] at hb
    exact absurd hb (hno k)
  · unfold AgpState.held
    rw [ht, hused, ← hzero]
    exact h.ok.used
  · rw [hused]
    exact Nat.zero_le _

/-! ### Runs -/

theorem TableInv.init : TableInv {} where
  ok := ⟨nofun, fun _ _ _ => nofun, nofun, (Finset.sum_eq_zero fun _ _ => rfl).symm, le_rfl⟩
  frames _ := nofun
  total := Nat.two_pow_pos 20
  closed _ := rfl

/-- The callbacks only change references. -/
theorem TableInv.addRef (h : TableInv s) (k : Fin maxKeys) (n : ℤ) (segs : List Segment) :
    TableInv { s.addRef k n with segs := segs } := by
  have href := h.setEnt (k := k) (e := { s.table k with refcnt := (s.table k).refcnt + n })
    (h.ok.memory k) (fun l hl => h.ok.apart k l (Ne.symm hl)) (h.ok.inside k) (h.frames k) rfl
    h.ok.le h.closed
  exact href.of_table rfl rfl rfl rfl id

theorem agpgartSegmap_cases {off len : ℕ} {setup : ℤ}
    (h : (agpgartSegmap s off len setup).2 = some s') :
    s' = s ∨ ∃ k g, s' = { s.addRef k 1 with segs := g :: s.segs } := by
  unfold agpgartSegmap at h
  split at h
  · exact .inl (Option.some.inj h).symm
  split at h
  · exact .inl (Option.some.inj h).symm
  split at h
  · exact .inl (Option.some.inj h).symm
  dsimp only at h
  split at h
  · exact .inl (Option.some.inj h).symm
  split at h
  · cases h
  split at h
  · exact .inl (Option.some.inj h).symm
  · obtain ⟨k, -, hk⟩ := Option.map_eq_some_iff.mp h
    exact .inr ⟨k, _, hk.symm⟩

theorem TableInv.step {a : AgpAction} (h : TableInv s) (hI : AgpInv s) (hsound : a.Sound s)
    (hs : agpSystem.step s a s') : TableInv s' := by
  obtain ⟨ha, happly⟩ := hs
  cases a with
  | «open» o =>
    cases happly
    exact h.open o
  | close unconfig gtt =>
    cases happly
    exact h.close hsound
  | acquire pid =>
    cases happly
    unfold ioctlAgpgartAcquire
    split
    · exact h
    · exact h.of_table rfl rfl rfl rfl id
  | release pid =>
    cases happly
    unfold ioctlAgpgartRelease
    split
    · exact h
    · exact h.of_table rfl rfl rfl rfl id
  | alloc pid pgcount type copyin ok copyout =>
    cases happly
    exact h.alloc ha.1 ha.2 hsound
  | dealloc pid key gtt =>
    cases happly
    exact h.dealloc
  | bind pid key pgstart copyin gart =>
    cases happly
    exact h.bind hI ha.1 hsound
  | unbind pid key copyin gtt =>
    cases happly
    exact h.unbind
  | segmap off len setup =>
    rcases agpgartSegmap_cases happly with rfl | ⟨k, g, rfl⟩
    · exact h
    · exact h.addRef k 1 _
  | dup g =>
    cases happly.symm.trans (hI.dup ha)
    exact h.addRef g.key 1 _
  | unmap g off len =>
    obtain ⟨hg, hoff, hlen, hpos, hle, hend⟩ := ha
    obtain ⟨n, hun, -⟩ := hI.unmap hg hoff hlen hpos hle hend
    cases happly.symm.trans hun
    exact h.addRef g.key n _

instance (s : AgpState) : (a : AgpAction) → Decidable (a.Sound s)
  | .close _ _ => inferInstanceAs (Decidable (_ → _))
  | .alloc _ _ _ _ _ _ => inferInstanceAs (Decidable (_ → _))
  | .bind _ key _ _ _ => inferInstanceAs (Decidable (∀ _ ∈ _, _))
  | .open _ | .acquire _ | .release _ | .dealloc _ _ _ | .unbind _ _ _ _ | .segmap _ _ _ | .dup _
  | .unmap _ _ _ => inferInstanceAs (Decidable True)

/-- Four pages are bound. -/
def bindFour : List AgpAction :=
  [.open openAnswers, .acquire 1, .alloc 1 4 agpNormal true true true, .bind 1 0 0 true 0]

end GfxDrm.Agp
