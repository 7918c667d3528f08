import GfxDrm.Agp.Defs

/-! Mapped segments and the entries they map. -/

namespace GfxDrm.Agp
open Run

/-- A segment maps memory of an entry that is bound. -/
structure Segment.Within (g : Segment) (e : KeytableEnt) : Prop where
  bound : e.bound = true
  memhdl : e.memhdl = true
  offAligned : agpPageSize ∣ g.off
  lenAligned : agpPageSize ∣ g.len
  pos : 0 < g.len
  off_le : e.pgoff * agpPageSize ≤ g.off
  end_le : g.off + g.len ≤ (e.pgoff + e.pages) * agpPageSize
  actxOff : g.actxOff = g.off

/-- Two entries are not bound to a common page. -/
def Apart (e e' : KeytableEnt) : Prop :=
  e.bound = true → e'.bound = true →
    e.pgoff + e.pages ≤ e'.pgoff ∨ e'.pgoff + e'.pages ≤ e.pgoff

structure AgpInv (s : AgpState) : Prop where
  aper : s.opened ≠ 0 → s.apersize < maxAperMegas
  pages : ∀ k, (s.table k).pages < 2 ^ 20
  range : ∀ k, (s.table k).bound = true → (s.table k).pgoff + (s.table k).pages ≤ 2 ^ 20
  apart : ∀ k l, k ≠ l → Apart (s.table k) (s.table l)
  refcnt : ∀ k, (s.table k).refcnt = (s.segs.countP fun g => g.key = k : ℕ)
  segs : ∀ g ∈ s.segs, g.Within (s.table g.key)

/-- Where an entry is bound and what memory it has. -/
def KeytableEnt.memory (e : KeytableEnt) : ℕ × ℕ × ℕ × Bool × Bool × Bool :=
  (e.type, e.pgoff, e.pages, e.bound, e.memhdl, e.pfnarray)

/-- A step that leaves alone what is mapped. -/
structure AgpStep (s s' : AgpState) : Prop where
  inv : AgpInv s'
  keeps : ∀ g ∈ s.segs, (s'.table g.key).memory = (s.table g.key).memory

variable {s s' : AgpState} {k l : Fin maxKeys} {e : KeytableEnt} {g : Segment}

theorem Apart.symm {e' : KeytableEnt} (h : Apart e e') : Apart e' e := fun hb hb' => (h hb' hb).symm

theorem setEnt_self (s : AgpState) (k : Fin maxKeys) (e : KeytableEnt) :
    (s.setEnt k e).table k = e :=
  Function.update_self ..

theorem setEnt_ne (h : l ≠ k) (e : KeytableEnt) : (s.setEnt k e).table l = s.table l :=
  Function.update_of_ne h ..

/-! ### Finding the entry of an offset -/

/-- agp_find_bound_keyent finds the one entry bound to a page. -/
theorem agpFindBoundKeyent_eq (hapart : ∀ k l, k ≠ l → Apart (s.table k) (s.table l)) {p : ℕ}
    (hk : (s.table k).Holds p) : agpFindBoundKeyent s p = some k := by
  unfold agpFindBoundKeyent
  cases hfind : (List.finRange maxKeys).find? fun k => decide ((s.table k).Holds p) with
  | none =>
    have hno := List.find?_eq_none.mp hfind k (List.mem_finRange k)
    exact absurd (decide_eq_true hk) hno
  | some l =>
    have hfound := List.find?_some hfind
    have hl : (s.table l).Holds p := of_decide_eq_true hfound
    by_contra hne
    obtain ⟨hbk, hle, hlt⟩ := hk
    obtain ⟨hbl, hle', hlt'⟩ := hl
    have hkl : k ≠ l := fun h => hne (congrArg some h.symm)
    have := hapart k l hkl hbk hbl
    omega

/-- The page of an offset inside a bound entry. -/
theorem holds_pgOffset {off : ℕ} (hb : e.bound = true) (hrange : e.pgoff + e.pages ≤ 2 ^ 20)
    (hle : e.pgoff * agpPageSize ≤ off) (hlt : off < (e.pgoff + e.pages) * agpPageSize) :
    e.Holds (pgOffset off) := by
  have hoff : pgOffset off = off / agpPageSize := by
    unfold pgOffset agpBytes2Pages
    unfold agpPageSize at *
    omega
  unfold agpPageSize at *
  exact ⟨hb, by omega, by omega⟩

/-- A callback for a page of a segment finds the segment's entry. -/
theorem AgpInv.find (h : AgpInv s) (hg : g ∈ s.segs) {off : ℕ} (hle : g.off ≤ off)
    (hlt : off < g.off + g.len) : agpFindBoundKeyent s (pgOffset off) = some g.key := by
  have hw := h.segs g hg
  refine agpFindBoundKeyent_eq h.apart
    (holds_pgOffset hw.bound (h.range _ hw.bound) (hw.off_le.trans hle) (hlt.trans_le hw.end_le))

/-! ### Changing the table -/

namespace AgpInv

/-- An entry without references has no segment. -/
theorem no_seg (h : AgpInv s) (hk : (s.table k).refcnt = 0) : ∀ g ∈ s.segs, g.key ≠ k := by
  have hcount := h.refcnt k
  have hzero : (s.segs.countP fun g => g.key = k) = 0 := by omega
  intro g hg hgk
  exact List.countP_eq_zero.mp hzero g hg (decide_eq_true hgk)

theorem refcnt_zero (h : AgpInv s) (hno : ∀ g ∈ s.segs, g.key ≠ k) : (s.table k).refcnt = 0 := by
  rw [h.refcnt k, List.countP_eq_zero.mpr fun g hg => by simpa using hno g hg]
  rfl

theorem of_table (h : AgpInv s) (ht : s'.table = s.table) (hs : s'.segs = s.segs)
    (haper : s'.opened ≠ 0 → s'.apersize < maxAperMegas) : AgpStep s s' where
  inv := by
    refine ⟨haper, ht ▸ h.pages, ht ▸ h.range, ht ▸ h.apart, ?_, ?_⟩ <;> rw [ht, hs]
    · exact h.refcnt
    · exact h.segs
  keeps g _ := by rw [ht]

theorem refl (h : AgpInv s) : AgpStep s s := h.of_table rfl rfl h.aper

/-- An entry that no segment maps is replaced. -/
theorem setEnt (h : AgpInv s) (hno : ∀ g ∈ s.segs, g.key ≠ k) (hpages : e.pages < 2 ^ 20)
    (hrange : e.bound = true → e.pgoff + e.pages ≤ 2 ^ 20)
    (hapart : ∀ l, l ≠ k → Apart e (s.table l)) (hrefcnt : e.refcnt = 0) :
    AgpStep s (s.setEnt k e) := by
  have hkeeps : ∀ g ∈ s.segs, (s.setEnt k e).table g.key = s.table g.key := fun g hg =>
    setEnt_ne (hno g hg) e
  refine ⟨⟨h.aper, fun l => ?_, fun l => ?_, fun l m hlm => ?_, fun l => ?_, fun g hg => ?_⟩,
    fun g hg => by rw [hkeeps g hg]⟩
  · by_cases hl : l = k
    · rwa [hl, setEnt_self]
    · rw [setEnt_ne hl]
      exact h.pages l
  · by_cases hl : l = k
    · rwa [hl, setEnt_self]
    · rw [setEnt_ne hl]
      exact h.range l
  · by_cases hl : l = k
    · rw [hl, setEnt_self, setEnt_ne fun hm => hlm (hl.trans hm.symm)]
      exact hapart m fun hm => hlm (hl.trans hm.symm)
    · rw [setEnt_ne hl]
      by_cases hm : m = k
      · rw [hm, setEnt_self]
        exact (hapart l hl).symm
      · rw [setEnt_ne hm]
        exact h.apart l m hlm
  · show _ = ((s.segs.countP fun g => g.key = l : ℕ) : ℤ)
    by_cases hl : l = k
    · rw [hl, setEnt_self, hrefcnt, ← h.refcnt k, h.refcnt_zero hno]
    · rw [setEnt_ne hl, h.refcnt l]
  · rw [hkeeps g hg]
    exact h.segs g hg

/-- Segments come and go, and the references of one entry with them. -/
theorem setSegs (h : AgpInv s) {n : ℤ} {segs : List Segment}
    (hcount : ∀ l, ((segs.countP fun g => g.key = l : ℕ) : ℤ) =
      (s.segs.countP fun g => g.key = l : ℕ) + if l = k then n else 0)
    (hsegs : ∀ g ∈ segs, g.Within (s.table g.key)) :
    AgpStep s { s.addRef k n with segs := segs } := by
  have hother : ∀ l, l ≠ k → (s.addRef k n).table l = s.table l := fun l hl => setEnt_ne hl _
  have hself : (s.addRef k n).table k = { s.table k with refcnt := (s.table k).refcnt + n } :=
    setEnt_self ..
  have hmemory : ∀ l, ((s.addRef k n).table l).memory = (s.table l).memory := by
    intro l
    by_cases hl : l = k
    · rw [hl, hself]
      rfl
    · rw [hother l hl]
  have hfields : ∀ l, ((s.addRef k n).table l).pgoff = (s.table l).pgoff ∧
      ((s.addRef k n).table l).pages = (s.table l).pages ∧
      ((s.addRef k n).table l).bound = (s.table l).bound ∧
      ((s.addRef k n).table l).memhdl = (s.table l).memhdl := by
    intro l
    have hl := hmemory l
    simp only [KeytableEnt.memory, Prod.mk.injEq] at hl
    exact ⟨hl.2.1, hl.2.2.1, hl.2.2.2.1, hl.2.2.2.2.1⟩
  refine ⟨⟨h.aper, fun l => ?_, fun l => ?_, fun l m hlm => ?_, fun l => ?_, fun g hg => ?_⟩,
    fun g _ => hmemory g.key⟩
  · exact (hfields l).2.1.trans_lt (h.pages l)
  · obtain ⟨hp, hn, hb, -⟩ := hfields l
    rw [hp, hn, hb]
    exact h.range l
  · obtain ⟨hp, hn, hb, -⟩ := hfields l
    obtain ⟨hp', hn', hb', -⟩ := hfields m
    unfold Apart
    rw [hp, hn, hb, hp', hn', hb']
    exact h.apart l m hlm
  · rw [hcount l]
    by_cases hl : l = k
    · rw [hl, hself, if_pos rfl, ← h.refcnt k]
    · rw [hother l hl, if_neg hl, ← h.refcnt l, Int.add_zero]
  · have hw := hsegs g hg
    obtain ⟨hp, hn, hb, hm⟩ := hfields g.key
    exact ⟨hb.trans hw.bound, hm.trans hw.memhdl, hw.offAligned, hw.lenAligned, hw.pos,
      hp ▸ hw.off_le, by rw [hp, hn]; exact hw.end_le, hw.actxOff⟩

end AgpInv

theorem AgpStep.setPgused (h : AgpStep s s') (n : ℕ) : AgpStep s { s' with pgused := n } :=
  ⟨(@AgpInv.of_table s' { s' with pgused := n } h.inv rfl rfl h.inv.aper).inv, h.keeps⟩

/-! ### The ioctls -/

theorem setEnt_same (s : AgpState) (k : Fin maxKeys) : s.setEnt k (s.table k) = s := by
  unfold AgpState.setEnt
  rw [Function.update_eq_self]

/-- What an entry may lose: that it is bound, and its memory. -/
structure Loses (e e' : KeytableEnt) : Prop where
  pgoff : e'.pgoff = e.pgoff
  pages : e'.pages = e.pages
  refcnt : e'.refcnt = e.refcnt
  bound : e'.bound = true → e.bound = true
  /-- It loses nothing while it is mapped. -/
  mapped : e.refcnt ≠ 0 → e' = e

theorem Loses.refl (e : KeytableEnt) : Loses e e := ⟨rfl, rfl, rfl, id, fun _ => rfl⟩

theorem Loses.trans {e' e'' : KeytableEnt} (h : Loses e e') (h' : Loses e' e'') : Loses e e'' where
  pgoff := h'.pgoff.trans h.pgoff
  pages := h'.pages.trans h.pages
  refcnt := h'.refcnt.trans h.refcnt
  bound hb := h.bound (h'.bound hb)
  mapped hr := (h'.mapped (by rwa [h.refcnt])).trans (h.mapped hr)

theorem Loses.apart {e₁ e₁' e₂ e₂' : KeytableEnt} (h : Apart e₁ e₂) (h₁ : Loses e₁ e₁')
    (h₂ : Loses e₂ e₂') : Apart e₁' e₂' := by
  intro hb₁ hb₂
  rw [h₁.pgoff, h₁.pages, h₂.pgoff, h₂.pages]
  exact h (h₁.bound hb₁) (h₂.bound hb₂)

theorem agpUnbindKey_loses (arctype : ArcType) (e : KeytableEnt) (gtt : ℤ) :
    Loses e (agpUnbindKey arctype e gtt).2 := by
  unfold agpUnbindKey
  split
  · exact .refl e
  split
  · exact .refl e
  rename_i hrefcnt
  have hun : Loses e { e with bound := false } :=
    ⟨rfl, rfl, rfl, fun h => (Bool.false_ne_true h).elim, fun h => absurd h hrefcnt⟩
  cases arctype <;> dsimp only
  case igd810 | igd830 =>
    split
    · exact .refl e
    · exact hun
  case intelAgp | amd64Agp => exact hun
  case unknown => exact .refl e

/-- The memory of a mapped entry is not freed. -/
theorem agpDeallocMem_mapped (s : AgpState) (gtt : ℤ) (h : e.refcnt ≠ 0) :
    agpDeallocMem s e gtt = (-1, e) := by
  unfold agpDeallocMem
  rw [if_neg fun hc : e.bound = true ∧ e.refcnt = 0 ∧ s.opened ≠ 0 => h hc.2.1]
  exact if_pos h

theorem agpDeallocMem_loses (s : AgpState) (e : KeytableEnt) (gtt : ℤ) :
    Loses e (agpDeallocMem s e gtt).2 := by
  unfold agpDeallocMem
  have hun : Loses e (if e.bound = true ∧ e.refcnt = 0 ∧ s.opened ≠ 0 then
      (agpUnbindKey s.arctype e gtt).2 else e) := by
    split
    · exact agpUnbindKey_loses ..
    · exact .refl e
  revert hun
  generalize (if e.bound = true ∧ e.refcnt = 0 ∧ s.opened ≠ 0 then
    (agpUnbindKey s.arctype e gtt).2 else e) = e'
  intro hun
  dsimp only
  split
  · exact hun
  rename_i hrefcnt
  split
  · exact hun.trans ⟨rfl, rfl, rfl, id, fun h => absurd h hrefcnt⟩
  · exact hun

namespace AgpInv

theorem loses (h : AgpInv s) (hl : Loses (s.table k) e) : AgpStep s (s.setEnt k e) := by
  by_cases hr : (s.table k).refcnt = 0
  · refine h.setEnt (h.no_seg hr) (hl.pages ▸ h.pages k) (fun hb => ?_) (fun l hlk => ?_)
      (hl.refcnt.trans hr)
    · rw [hl.pgoff, hl.pages]
      exact h.range k (hl.bound hb)
    · exact Loses.apart (h.apart k l (Ne.symm hlk)) hl (.refl _)
  · rw [hl.mapped hr, setEnt_same]
    exact h.refl

/-- Without mappings any entry may lose what it has. -/
theorem losesAll (h : AgpInv s) (hsegs : s.segs = []) {table : Fin maxKeys → KeytableEnt}
    (hl : ∀ k, Loses (s.table k) (table k)) : AgpStep s { s with table := table } := by
  have hno : ∀ g, g ∉ s.segs := by
    rw [hsegs]
    exact fun _ => List.not_mem_nil
  refine ⟨⟨h.aper, fun k => (hl k).pages ▸ h.pages k, fun k hb => ?_,
    fun k l hkl => Loses.apart (h.apart k l hkl) (hl k) (hl l), fun k => ?_,
    fun g hg => absurd hg (hno g)⟩, fun g hg => absurd hg (hno g)⟩
  · rw [(hl k).pgoff, (hl k).pages]
    exact h.range k ((hl k).bound hb)
  · rw [(hl k).refcnt, h.refcnt k]

/-- A fresh entry fills one without memory. -/
theorem fillEmptyKeyent (h : AgpInv s) {k : Fin maxKeys} {s' : AgpState}
    (hpages : e.pages < 2 ^ 20) (hb : e.bound = false) (hr : e.refcnt = 0)
    (hfill : agpFillEmptyKeyent s e = some (k, s')) :
    AgpStep s s' ∧ (s.table k).memhdl = false ∧ s' = s.setEnt k { e with key := k } := by
  obtain ⟨l, hfind, hl⟩ := Option.map_eq_some_iff.mp hfill
  cases hl
  have hmem := List.find?_some hfind
  simp only [Bool.not_eq_true'] at hmem
  refine ⟨?_, hmem, rfl⟩
  refine h.setEnt (fun g hg hgk => ?_) hpages (fun hb' => ?_) (fun l hl hb' => ?_) hr
  · have hw := (h.segs g hg).memhdl
    rw [hgk, hmem] at hw
    cases hw
  · rw [show e.bound = true from hb'] at hb
    cases hb
  · rw [show e.bound = true from hb'] at hb
    cases hb

end AgpInv

theorem agpPages2Bytes_pages (pgcount : ℕ) :
    agpBytes2Pages (agpPages2Bytes pgcount) = pgcount % 2 ^ 20 := by
  unfold agpBytes2Pages agpPages2Bytes
  omega

namespace AgpInv

theorem alloc (h : AgpInv s) {pid pgcount type : ℕ} {copyin ok copyout : Bool} :
    AgpStep s (ioctlAgpgartAlloc s pid pgcount type copyin ok copyout).2 := by
  unfold ioctlAgpgartAlloc
  split
  · exact h.refl
  split
  · exact h.refl
  split
  · exact h.refl
  split
  · exact h.refl
  · rename_i k s' halloc
    unfold agpAllocMem at halloc
    split at halloc
    · split at halloc
      · have hpages : agpBytes2Pages (agpPages2Bytes pgcount) < 2 ^ 20 := by
          rw [agpPages2Bytes_pages]
          exact Nat.mod_lt _ (by decide)
        exact (h.fillEmptyKeyent hpages rfl rfl halloc).1.setPgused _
      · cases halloc
    · cases halloc

theorem dealloc (h : AgpInv s) {pid : ℕ} {key gtt : ℤ} :
    AgpStep s (ioctlAgpgartDealloc s pid key gtt).2 := by
  unfold ioctlAgpgartDealloc
  split
  · exact h.refl
  split
  · exact h.refl
  split
  · exact h.refl
  rename_i k _ _
  have hl := agpDeallocMem_loses s (s.table k) gtt
  dsimp only
  split
  · exact h.loses hl
  · rename_i hret
    have hr : (s.table k).refcnt = 0 := by
      by_contra hr
      rw [agpDeallocMem_mapped s gtt hr] at hret
      exact hret (show (-1 : ℤ) ≠ 0 by decide)
    have hset : AgpStep s (s.setEnt k {}) :=
      h.setEnt (h.no_seg hr) (Nat.two_pow_pos 20) nofun (fun l _ => nofun) rfl
    exact hset.setPgused _

theorem unbind (h : AgpInv s) {pid : ℕ} {key gtt : ℤ} {copyin : Bool} :
    AgpStep s (ioctlAgpgartUnbind s pid key copyin gtt).2 := by
  unfold ioctlAgpgartUnbind
  split
  · exact h.refl
  split
  · exact h.refl
  split
  · exact h.refl
  split
  · exact h.refl
  · exact h.loses (agpUnbindKey_loses ..)

end AgpInv

theorem agpMb2Pages_le {apersize : ℕ} (h : apersize < maxAperMegas) :
    agpMb2Pages apersize = apersize * 256 ∧ agpMb2Pages apersize ≤ 2 ^ 20 := by
  unfold agpMb2Pages
  unfold maxAperMegas at h
  omega

/-- agp_bind_key takes a range that lies in the aperture and overlaps nothing that is bound. -/
theorem agpBindKey_zero {p : ℕ} {gart : ℤ} (h : agpBindKey s e p gart = 0) :
    p + e.pages ≤ agpMb2Pages s.apersize ∧ agpCheckOff s p e.pages = false := by
  unfold agpBindKey at h
  split at h
  · simp at h
  split at h
  · simp at h
  · exact ⟨by omega, Bool.eq_false_iff.mpr ‹_›⟩

theorem agpCheckOff_apart {p n : ℕ} (hn : p + n < 2 ^ 32) (h : agpCheckOff s p n = false)
    (hb : (s.table l).bound = true) :
    p + n ≤ (s.table l).pgoff ∨ (s.table l).pgoff + (s.table l).pages ≤ p := by
  have hl := List.any_eq_false.mp h l (List.mem_finRange l)
  have hend : (p + n % 2 ^ 32) % 2 ^ 32 = p + n := by omega
  rw [hend] at hl
  simpa [hb, imp_iff_not_or] using hl

namespace AgpInv

/-- agp_bind_key and what ioctl_agpgart_bind does when it worked. -/
theorem bindKey (h : AgpInv s) (hopen : s.opened ≠ 0) {p : ℕ} {gart : ℤ}
    (hb : (s.table k).bound = false) (hret : agpBindKey s (s.table k) p gart = 0) :
    AgpStep s (s.setEnt k { s.table k with pgoff := p, bound := true }) := by
  obtain ⟨hend, hoff⟩ := agpBindKey_zero hret
  have haper := (agpMb2Pages_le (h.aper hopen)).2
  have hno : ∀ g ∈ s.segs, g.key ≠ k := by
    rintro g hg rfl
    rw [(h.segs g hg).bound] at hb
    cases hb
  refine h.setEnt hno (h.pages k) (fun _ => hend.trans haper) (fun l _ _ hbl => ?_)
    (h.refcnt_zero hno)
  have hsmall : p + (s.table k).pages < 2 ^ 32 := by omega
  exact agpCheckOff_apart hsmall hoff hbl

theorem bind (h : AgpInv s) (hopen : s.opened ≠ 0) {pid pgstart : ℕ} {key gart : ℤ}
    {copyin : Bool} : AgpStep s (ioctlAgpgartBind s pid key pgstart copyin gart).2 := by
  unfold ioctlAgpgartBind
  split
  · exact h.refl
  split
  · exact h.refl
  split
  · exact h.refl
  split
  · exact h.refl
  split
  · exact h.refl
  split
  · exact h.refl
  rename_i hb
  dsimp only
  split
  · exact h.bindKey hopen (Bool.eq_false_iff.mpr hb) ‹_›
  · exact h.refl

/-! ### Opening and closing -/

theorem close (h : AgpInv s) (hsegs : s.segs = []) {unconfig : ℤ} {gtt : Fin maxKeys → ℤ} :
    AgpStep s (agpgartClose s unconfig gtt).2 := by
  unfold agpgartClose
  dsimp only
  split
  · exact h.of_table rfl rfl h.aper
  · have hclosed : AgpInv { s with
        acquired := false, curpid := if s.acquired then 0 else s.curpid, opened := 0 } :=
      AgpStep.inv (h.of_table rfl rfl fun hopen => absurd rfl hopen)
    refine ⟨(hclosed.losesAll hsegs fun k => ?_).inv, fun g hg => ?_⟩
    · dsimp only
      split
      · exact agpDeallocMem_loses ..
      · exact .refl _
    · rw [hsegs] at hg
      cases hg

end AgpInv

theorem halveAper_le (allocGart : ℕ → ℤ) (fuel n apersize : ℕ) :
    halveAper allocGart fuel n apersize ≤ apersize := by
  induction fuel generalizing n apersize with
  | zero => exact le_rfl
  | succ fuel ih =>
    unfold halveAper
    split
    · refine (ih _ _).trans ?_
      exact Nat.div_le_self _ _
    · exact le_rfl

/-- What lyr_get_info lets pass. -/
theorem aperProgrammed_lt {info : Bool} {aperbase apersize : ℕ}
    (h : ¬ (!(info && aperProgrammed aperbase apersize)) = true) : apersize < maxAperMegas := by
  by_contra hge
  refine h ?_
  simp [aperProgrammed, not_lt.mp hge]

theorem gartAper_le (o : OpenAnswers) (apersize : ℕ) : gartAper o apersize ≤ apersize := by
  unfold gartAper
  split
  · exact le_rfl
  · exact halveAper_le ..

/-- The first open leaves the table alone, and finds an aperture below 4 GiB. -/
theorem agpgartFirstOpen_table (s : AgpState) (o : OpenAnswers) :
    (agpgartFirstOpen s o).2.table = s.table ∧ (agpgartFirstOpen s o).2.segs = s.segs ∧
    (s.opened = 0 → (agpgartFirstOpen s o).2.opened ≠ 0 →
      (agpgartFirstOpen s o).2.apersize < maxAperMegas) := by
  unfold agpgartFirstOpen
  cases o.lyrInit with
  | none => exact ⟨rfl, rfl, fun h h' => absurd h h'⟩
  | some arctype =>
    dsimp only
    split
    · exact ⟨rfl, rfl, fun h h' => absurd h h'⟩
    rename_i hinfo
    have haper := aperProgrammed_lt hinfo
    split
    · split
      · exact ⟨rfl, rfl, fun _ _ => haper⟩
      split
      · exact ⟨rfl, rfl, fun _ _ => haper⟩
      · exact ⟨rfl, rfl, fun _ _ => haper⟩
    · split
      · exact ⟨rfl, rfl, fun h h' => absurd h h'⟩
      split
      · exact ⟨rfl, rfl, fun h h' => absurd h h'⟩
      split
      · exact ⟨rfl, rfl, fun h h' => absurd h h'⟩
      · exact ⟨rfl, rfl, fun _ _ => (gartAper_le o _).trans_lt haper⟩

theorem AgpInv.open (h : AgpInv s) (o : OpenAnswers) : AgpStep s (agpgartOpen s o).2 := by
  unfold agpgartOpen
  split
  · exact h.refl
  split
  · rename_i hopen
    exact h.of_table rfl rfl fun _ => h.aper hopen
  · rename_i hopen
    obtain ⟨ht, hs, haper⟩ := agpgartFirstOpen_table s o
    exact h.of_table ht hs (haper (not_not.mp hopen))

/-! ### Mapping and unmapping -/

theorem countP_key_cons (g : Segment) (segs : List Segment) (l : Fin maxKeys) :
    (((g :: segs).countP fun g => g.key = l : ℕ) : ℤ) =
      (segs.countP fun g => g.key = l : ℕ) + if l = g.key then 1 else 0 := by
  rw [List.countP_cons]
  simp only [decide_eq_true_eq, eq_comm (a := l)]
  split <;> simp

theorem countP_key_erase {segs : List Segment} (hg : g ∈ segs) (l : Fin maxKeys) :
    ((segs.countP fun g => g.key = l : ℕ) : ℤ) =
      ((segs.erase g).countP fun g => g.key = l : ℕ) + if l = g.key then 1 else 0 := by
  rw [(List.perm_cons_erase hg).countP_eq, countP_key_cons]

theorem addRef_zero (s : AgpState) (k : Fin maxKeys) : s.addRef k 0 = s := by
  unfold AgpState.addRef
  rw [Int.add_zero]
  exact setEnt_same s k

namespace Segment.Within

variable {off len : ℕ}

/-- What is left of a segment still maps its entry. -/
theorem front (h : g.Within e) (hoff : agpPageSize ∣ off) (hend : off ≤ g.off + g.len) {g' : Segment}
    (hg' : g.front off = some g') : g'.key = g.key ∧ g'.Within e := by
  unfold Segment.front at hg'
  split at hg'
  · cases hg'
    rename_i hlt
    refine ⟨rfl, h.bound, h.memhdl, h.offAligned, Nat.dvd_sub hoff h.offAligned,
      Nat.sub_pos_of_lt hlt, h.off_le, ?_, h.actxOff⟩
    have := h.end_le
    dsimp only
    omega
  · cases hg'

theorem back (h : g.Within e) (hoff : agpPageSize ∣ off) (hlen : agpPageSize ∣ len)
    (hle : g.off ≤ off) {g' : Segment} (hg' : g.back off len = some g') :
    g'.key = g.key ∧ g'.Within e := by
  unfold Segment.back at hg'
  split at hg'
  · cases hg'
    rename_i hlt
    have := h.end_le
    have := h.off_le
    refine ⟨rfl, h.bound, h.memhdl, Nat.dvd_add hoff hlen,
      Nat.dvd_sub (Nat.dvd_add h.offAligned h.lenAligned) (Nat.dvd_add hoff hlen),
      Nat.sub_pos_of_lt hlt, ?_, ?_, rfl⟩ <;> dsimp only <;> omega
  · cases hg'

end Segment.Within

namespace AgpInv

variable {off len : ℕ}

/-- A segment is added for an entry. -/
theorem addSeg (h : AgpInv s) (hw : g.Within (s.table g.key)) :
    AgpStep s { s.addRef g.key 1 with segs := g :: s.segs } := by
  refine h.setSegs (countP_key_cons g s.segs) fun g' hg' => ?_
  rcases List.mem_cons.mp hg' with rfl | hg'
  · exact hw
  · exact h.segs g' hg'

theorem dup (h : AgpInv s) (hg : g ∈ s.segs) :
    agpDevmapDup s g = some { s.addRef g.key 1 with segs := g :: s.segs } := by
  have hw := h.segs g hg
  have hpos := hw.pos
  unfold agpDevmapDup
  rw [hw.actxOff, h.find hg le_rfl (by omega)]
  rfl

/-- agp_devmap_unmap leaves as many references as segments. -/
theorem unmap (h : AgpInv s) (hg : g ∈ s.segs) (hoff : agpPageSize ∣ off)
    (hlen : agpPageSize ∣ len) (hpos : 0 < len) (hle : g.off ≤ off)
    (hend : off + len ≤ g.off + g.len) :
    ∃ n, agpDevmapUnmap s g off len = some { s.addRef g.key n with
        segs := (g.front off).toList ++ (g.back off len).toList ++ s.segs.erase g } ∧
      AgpStep s { s.addRef g.key n with
        segs := (g.front off).toList ++ (g.back off len).toList ++ s.segs.erase g } := by
  have hw := h.segs g hg
  have hfind := h.find hg hle (show off < g.off + g.len by omega)
  have hrest : ∀ g' ∈ s.segs.erase g, g'.Within (s.table g'.key) := fun g' hg' =>
    h.segs g' (List.mem_of_mem_erase hg')
  have hcount := countP_key_erase hg
  unfold agpDevmapUnmap
  cases hf : g.front off with
  | none =>
    cases hb : g.back off len with
    | none =>
      refine ⟨-1, by rw [hfind]; rfl, h.setSegs (fun l => ?_) hrest⟩
      rw [hcount l]
      show ((s.segs.erase g).countP _ : ℤ) = _
      split <;> omega
    | some b =>
      obtain ⟨hkey, hbw⟩ := hw.back hoff hlen hle hb
      refine ⟨0, by rw [addRef_zero], h.setSegs (fun l => ?_) fun g' hg' => ?_⟩
      · rw [hcount l]
        simp only [Option.toList_none, Option.toList_some, List.nil_append, List.singleton_append]
        rw [countP_key_cons, hkey]
        split <;> simp
      · rcases List.mem_cons.mp hg' with rfl | hg'
        · exact hkey ▸ hbw
        · exact hrest g' hg'
  | some f =>
    obtain ⟨hfkey, hfw⟩ := hw.front hoff (by omega) hf
    cases hb : g.back off len with
    | none =>
      refine ⟨0, by rw [addRef_zero], h.setSegs (fun l => ?_) fun g' hg' => ?_⟩
      · rw [hcount l]
        simp only [Option.toList_none, Option.toList_some, List.singleton_append]
        rw [countP_key_cons, hfkey]
        split <;> simp
      · rcases List.mem_cons.mp hg' with rfl | hg'
        · exact hfkey ▸ hfw
        · exact hrest g' hg'
    | some b =>
      obtain ⟨hkey, hbw⟩ := hw.back hoff hlen hle hb
      refine ⟨1, by rw [hfind]; rfl, h.setSegs (fun l => ?_) fun g' hg' => ?_⟩
      · rw [hcount l]
        simp only [Option.toList_some, List.cons_append, List.nil_append]
        rw [countP_key_cons, countP_key_cons, hkey, hfkey]
      · rcases List.mem_cons.mp hg' with rfl | hg'
        · exact hfkey ▸ hfw
        rcases List.mem_cons.mp hg' with rfl | hg'
        · exact hkey ▸ hbw
        · exact hrest g' hg'

/-- The part of a range that lies in one entry is a whole number of pages of it. -/
theorem partOf {pgoff pages : ℕ} (hoff : agpPageSize ∣ off) (hlen : len % agpPageSize = 0)
    (hpos : 0 < len) (hle : pgoff * agpPageSize ≤ off) (hlt : off < (pgoff + pages) * agpPageSize) :
    let rest := pages * agpPageSize - (off - pgoff * agpPageSize)
    let part := if rest < len then rest else len
    agpPageSize ∣ part ∧ 0 < part ∧ off + part ≤ (pgoff + pages) * agpPageSize := by
  unfold agpPageSize at *
  dsimp only
  split <;> refine ⟨?_, ?_, ?_⟩ <;> omega

/-- agpgart_segmap makes a segment inside the entry bound at its offset. -/
theorem segmap (h : AgpInv s) (hoff : agpPageSize ∣ off) (hpos : 0 < len) {setup : ℤ}
    (hs : (agpgartSegmap s off len setup).2 = some s') : AgpStep s s' := by
  unfold agpgartSegmap at hs
  split at hs
  · cases hs
    exact h.refl
  rename_i hlen
  split at hs
  · cases hs
    exact h.refl
  rename_i haper
  split at hs
  · cases hs
    exact h.refl
  rename_i k hfind
  dsimp only at hs
  split at hs
  · cases hs
    exact h.refl
  split at hs
  · cases hs
  rename_i hmem
  split at hs
  · cases hs
    exact h.refl
  have hfound := List.find?_some hfind
  obtain ⟨hb, hle, hlt⟩ : (s.table k).Holds (pgOffset off) := of_decide_eq_true hfound
  have hrange := h.range k hb
  -- neither the offset nor the start of the entry is cut off
  have hpg : pgOffset off = off / agpPageSize := by
    unfold pgOffset agpBytes2Pages
    unfold agpPageSize
    omega
  have hstart : agpPages2Bytes (s.table k).pgoff = (s.table k).pgoff * agpPageSize := by
    unfold agpPages2Bytes
    unfold agpPageSize
    omega
  have hrest : (s.table k).pages <<< 12 = (s.table k).pages * agpPageSize := Nat.shiftLeft_eq ..
  have hle' : (s.table k).pgoff * agpPageSize ≤ off :=
    (Nat.le_div_iff_mul_le (by decide)).mp (hpg ▸ hle)
  have hlt' : off < ((s.table k).pgoff + (s.table k).pages) * agpPageSize :=
    (Nat.div_lt_iff_lt_mul (by decide)).mp (hpg ▸ hlt)
  obtain ⟨hpart, hppos, hpend⟩ := partOf hoff (not_not.mp hlen) hpos hle' hlt'
  unfold agpDevmapMap at hs
  rw [hfind, hstart, hrest] at hs
  cases hs
  exact h.addSeg (g := ⟨k, off, _, off⟩) ⟨hb, by simpa using hmem, hoff, hpart, hppos, hle',
    hpend, rfl⟩

end AgpInv

/-! ### Runs -/

theorem AgpInv.init : AgpInv {} where
  aper := fun h => absurd rfl h
  pages _ := Nat.two_pow_pos 20
  range _ := nofun
  apart _ _ _ := nofun
  refcnt _ := rfl
  segs := nofun

theorem AgpInv.step {a : AgpAction} (h : AgpInv s) (hs : agpSystem.step s a s') :
    AgpStep s s' := by
  obtain ⟨ha, happly⟩ := hs
  cases a with
  | «open» o =>
    cases happly
    exact h.open o
  | close unconfig gtt =>
    cases happly
    exact h.close ha.2
  | acquire pid =>
    cases happly
    unfold ioctlAgpgartAcquire
    split
    · exact h.refl
    · exact h.of_table rfl rfl h.aper
  | release pid =>
    cases happly
    unfold ioctlAgpgartRelease
    split
    · exact h.refl
    · exact h.of_table rfl rfl h.aper
  | alloc pid pgcount type copyin ok copyout =>
    cases happly
    exact h.alloc
  | dealloc pid key gtt =>
    cases happly
    exact h.dealloc
  | bind pid key pgstart copyin gart =>
    cases happly
    exact h.bind ha.1
  | unbind pid key copyin gtt =>
    cases happly
    exact h.unbind
  | segmap off len setup => exact h.segmap ha.2.1 ha.2.2 happly
  | dup g =>
    cases happly.symm.trans (h.dup ha)
    exact h.addSeg (h.segs g ha)
  | unmap g off len =>
    obtain ⟨hg, hoff, hlen, hpos, hle, hend⟩ := ha
    obtain ⟨n, hun, hstep⟩ := h.unmap hg hoff hlen hpos hle hend
    cases happly.symm.trans hun
    exact hstep

theorem reach_agpInv {guard : AgpState → AgpAction → Prop}
    (h : ReachWhile agpSystem guard s) : AgpInv s :=
  h.invariant (fun _ hs => hs ▸ AgpInv.init) fun _ _ _ hI _ hs => (hI.step hs).inv

/-- An entry has a reference for each segment that maps it. As long as there is one it stays bound
where it is, with its memory, and the callbacks find it. -/
theorem devmap_refcnt (s : AgpState) (h : Reach agpSystem s) :
    (∀ k, (s.table k).refcnt = (s.segs.countP fun g => g.key = k : ℕ)) ∧
    ∀ g ∈ s.segs, (s.table g.key).bound = true ∧ (s.table g.key).memhdl = true ∧
      (∀ a s', agpSystem.step s a s' → (s'.table g.key).memory = (s.table g.key).memory) ∧
      (agpDevmapDup s g).isSome ∧ ∀ off len, (AgpAction.unmap g off len).Allowed s →
        (agpDevmapUnmap s g off len).isSome := by
  have hI := reach_agpInv h
  refine ⟨hI.refcnt, fun g hg => ⟨(hI.segs g hg).bound, (hI.segs g hg).memhdl,
    fun a s' hs => (hI.step hs).keeps g hg, ?_, fun off len hu => ?_⟩⟩
  · rw [hI.dup hg]
    rfl
  · obtain ⟨-, hoff, hlen, hpos, hle, hend⟩ := hu
    obtain ⟨n, hun, -⟩ := hI.unmap hg hoff hlen hpos hle hend
    rw [hun]
    rfl

/-- The run of a list of actions. -/
def agpRun (l : List AgpAction) : Option AgpState :=
  exec (fun s a => a.apply s) (fun s a => decide (a.Allowed s)) {} l

theorem agpRun_reach {l : List AgpAction} {s : AgpState} (h : agpRun l = some s) :
    Reach agpSystem s :=
  ReachWhile.of_exec_steps (S := agpSystem)
    (fun _ _ _ ha hs => ⟨trivial, of_decide_eq_true ha, hs⟩) (.init rfl) h

/-- A graphics device with 256 MiB of aperture. -/
def openAnswers : OpenAnswers where
  physmem := 2 ^ 20
  lyrInit := some .igd830
  aperbase := 2 ^ 28
  apersize := 256

/-- Four pages are bound and mapped, and the second page is unmapped in one of two processes. -/
def mapAndSplit : List AgpAction :=
  [.open openAnswers, .acquire 1, .alloc 1 4 agpNormal true true true, .bind 1 0 0 true 0,
    .segmap 0 0x4000 0, .dup ⟨0, 0, 0x4000, 0⟩, .unmap ⟨0, 0, 0x4000, 0⟩ 0x1000 0x1000]

theorem devmap_refcnt_split : ∃ s, agpRun mapAndSplit = some s ∧ s.segs.length = 3 ∧
    (s.table 0).refcnt = (s.segs.countP fun g => g.key = 0 : ℕ) := by
  have hrun : ∃ s, agpRun mapAndSplit = some s ∧ decide (s.segs.length = 3) = true :=
    (Option.any_eq_true _ _).mp (by decide +kernel)
  obtain ⟨s, hs, hlen⟩ := hrun
  exact ⟨s, hs, of_decide_eq_true hlen, (devmap_refcnt s (agpRun_reach hs)).1 0⟩

end GfxDrm.Agp
