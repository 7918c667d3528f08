import GfxDrm.Auth.Unique

/-! Every undisturbed step keeps the magics apart. -/

namespace GfxDrm.Auth
open Pool Run AuthState

variable {magic : Magic}

theorem drmFindFile_some {s : AuthState} (h : AuthInv s) {master found : ℕ}
    (hf : drmFindFile s master magic = some found) : magic ≠ 0 ∧ s.magic found = magic := by
  obtain ⟨e, he, rfl⟩ := Option.map_eq_some_iff.mp hf
  have hm : e.magic = magic := by simpa using List.find?_some he
  have hok := h.entries master (drmHashMagic magic) e (List.mem_of_find?_eq_some he)
  exact ⟨hm ▸ hok.nonzero, hok.own.trans hm⟩

theorem magiclist_setBucket (s : AuthState) (master : ℕ) (magic : Magic) (l : List MagicEntry)
    (M : ℕ) (b : Magic) : (s.setBucket master magic l).magiclist M b =
      if M = master ∧ b = drmHashMagic magic then l else s.magiclist M b := by
  simp only [setBucket]
  by_cases hM : M = master
  · subst hM
    by_cases hb : b = drmHashMagic magic <;> simp [hb]
  · simp [hM]

theorem drmRemoveMagic_sublist (s : AuthState) (master : ℕ) (magic : Magic) (M : ℕ) (b : Magic) :
    ((drmRemoveMagic s master magic).magiclist M b).Sublist (s.magiclist M b) := by
  rw [drmRemoveMagic, magiclist_setBucket]
  split
  · rename_i h
    rw [h.1, h.2]
    exact List.eraseP_sublist
  · exact List.Sublist.refl _

theorem magic_ne_of_eraseP {l : List MagicEntry} (h : (l.map MagicEntry.magic).Nodup)
    {e : MagicEntry} (he : e ∈ l.eraseP fun e => e.magic = magic) : e.magic ≠ magic := by
  induction l with
  | nil => simp at he
  | cons d l ih =>
    rw [List.map_cons, List.nodup_cons] at h
    by_cases hd : d.magic = magic
    · rw [List.eraseP_cons_of_pos (by simpa using hd)] at he
      rintro rfl
      exact h.1 (hd ▸ List.mem_map_of_mem he)
    · rw [List.eraseP_cons_of_neg (by simpa using hd)] at he
      rcases List.mem_cons.mp he with rfl | he
      · exact hd
      · exact ih h.2 he

theorem core_dropAuthenticated (files : List AuthFile) (master f g : ℕ) :
    ((dropAuthenticated files master f).getD g {}).core = (files.getD g {}).core := by
  simp only [dropAuthenticated, List.getD_eq_getElem?_getD, List.getElem?_mapIdx]
  cases files[g]? with
  | none => rfl
  | some q =>
    simp only [Option.map_some]
    split <;> rfl

variable {f : ℕ}

theorem core_unlinkFile {s : AuthState} (hf : f < s.files.length) (g : ℕ) :
    ((unlinkFile s f).file g).core =
      { (s.file g).core with freed := (s.file g).freed || decide (g = f) } := by
  generalize hfiles : (if (s.file f).isMaster then
    dropAuthenticated s.files (s.file f).master f else s.files) = files
  have hlen : files.length = s.files.length := by
    subst hfiles
    split
    · exact List.length_mapIdx
    · rfl
  have hdrop : (files.getD g {}).core = (s.file g).core := by
    subst hfiles
    split
    · exact core_dropAuthenticated _ _ _ _
    · rfl
  have hset : (unlinkFile s f).file g = if g = f ∧ f < files.length then
      { files.getD f {} with isMaster := false, freed := true } else files.getD g {} := by
    simp only [unlinkFile, hfiles]
    exact file_setFile { s with files } f _ g
  rw [hset]
  by_cases hg : g = f
  · subst hg
    rw [if_pos ⟨rfl, hlen ▸ hf⟩]
    have hfreed := congrArg (fun p : AuthFile => { p with freed := true }) hdrop
    simpa [AuthFile.core] using hfreed
  · rw [if_neg (fun h => hg h.1), hdrop]
    simp [AuthFile.core, hg]

theorem claimed_unused {s : AuthState} {c : AuthCall} (h : c.Ok s) {x : Magic}
    (hx : c.claimed = some x) : Unused s x := by
  cases c with
  | find f m won =>
    cases won <;> cases hx
    exact h.2
  | setMagic f m =>
    cases hx
    exact h.2
  | _ => simp [AuthCall.claimed] at hx

namespace AuthInv

variable {s s' : AuthState} {i : ℕ}

/-- The sequence moves on and the call has the number to itself. -/
theorem seqCas (h : AuthInv s) (hp : s.calls[i]? = some (.seqCas f s.sequence))
    (hwrap : s.sequence + 1 ≠ 0) :
    AuthInv ({ s with sequence := s.sequence + 1 }.setCall i
      (some (.find f (s.sequence + 1) true))) := by
  have hlt : ∀ x : Magic, x ≤ s.sequence → x ≠ s.sequence + 1 := fun x hx => by bv_omega
  refine h.keep hp rfl (fun _ => rfl) rfl (by simp only [setCall]; bv_omega)
    (fun _ _ => List.Sublist.refl _) ?_ ?_ (by simp [AuthCall.adding]) h.handed (List.Subset.refl _) h.grants
  · rintro d hd
    obtain rfl := Option.mem_some.mp hd
    exact ⟨h.calls _ (List.mem_of_getElem? hp), hwrap, BitVec.le_refl _,
      fun g => hlt _ (h.bounded g)⟩
  · intro d hd x hx
    obtain rfl := Option.mem_some.mp hd
    cases hx
    exact .inr fun v hv hvx => hlt _ (claimed_unused (h.calls v hv) hvx).2.1 rfl

/-- The file gets its magic: what the other calls rely on stays true. -/
theorem ok_setMagic {s' : AuthState} (hzero : s.magic f = 0)
    (hm : ∀ g, s'.magic g = if g = f then magic else s.magic g)
    (hopened : ∀ g, (s'.file g).opened = (s.file g).opened)
    (hlen : s'.files.length = s.files.length) (hseq : s'.sequence = s.sequence)
    (hlist : s'.magiclist = s.magiclist) {d : AuthCall} (hd : d.Ok s)
    (hclaim : d.claimed ≠ some magic) : d.Ok s' := by
  have hkeep : ∀ g, s.magic g ≠ 0 → s'.magic g = s.magic g := fun g hg => by
    rw [hm, if_neg]
    rintro rfl
    exact hg hzero
  have hunused : ∀ m, m ≠ magic → Unused s m → Unused s' m := fun m hne h => by
    refine ⟨h.1, hseq ▸ h.2.1, fun g => ?_⟩
    rw [hm]
    split
    · exact hne.symm
    · exact h.2.2 g
  have hclosing : ∀ g, s.Closing g → s'.Closing g := fun g h =>
    ⟨hlen ▸ h.1, (hopened g).trans h.2⟩
  have hunlisted : ∀ p, Unlisted s p → Unlisted s' p := fun p h => by
    rw [Unlisted, hlist]
    exact h
  cases d with
  | getTest g | seqRead g | seqCas g _ | authFind g _ | authRemove g _ =>
    exact (hopened g).trans hd
  | getKnown g => exact ⟨(hopened g).trans hd.1, by rw [hkeep g hd.2]; exact hd.2⟩
  | find g m won =>
    cases won with
    | false => exact (hopened g).trans hd
    | true =>
      exact ⟨(hopened g).trans hd.1, hunused m (fun he => hclaim (by rw [he]; rfl)) hd.2⟩
  | setMagic g m =>
    exact ⟨(hopened g).trans hd.1, hunused m (fun he => hclaim (by rw [he]; rfl)) hd.2⟩
  | addMagic g m =>
    obtain ⟨ho, hne, hg, hl⟩ := hd
    exact ⟨(hopened g).trans ho, hne, (hkeep g (hg ▸ hne)).trans hg, hunlisted _ hl⟩
  | authSet g m k =>
    obtain ⟨ho, hne, hk⟩ := hd
    exact ⟨(hopened g).trans ho, hne, (hkeep k (hk ▸ hne)).trans hk⟩
  | releaseTest g => exact hclosing g hd
  | releaseRemove g m =>
    obtain ⟨ho, hne, hg⟩ := hd
    exact ⟨hclosing g ho, hne, (hkeep g (hg ▸ hne)).trans hg⟩
  | releaseUnlink g => exact ⟨hclosing g hd.1, hunlisted _ hd.2⟩

/-- The call's own number becomes the magic of its file. -/
theorem setMagic (h : AuthInv s) (hp : s.calls[i]? = some (.setMagic f magic))
    (hzero : s.magic f = 0) :
    AuthInv { (s.setFile f fun p => { p with magic := magic }).setCall i
        (some (.addMagic f magic)) with handed := (f, magic) :: s.handed } := by
  obtain ⟨hopen, hnz, hle, hfree⟩ := h.calls _ (List.mem_of_getElem? hp)
  have hf : f < s.files.length := lt_of_opened hopen
  generalize hs' : ({ (s.setFile f fun p => { p with magic := magic }).setCall i
        (some (.addMagic f magic)) with handed := (f, magic) :: s.handed } : AuthState) = s'
  have hfile : ∀ g, s'.file g = if g = f then { s.file f with magic := magic } else s.file g :=
    fun g => by
      subst hs'
      exact (file_setFile s f _ g).trans (by simp [hf])
  have hm : ∀ g, s'.magic g = if g = f then magic else s.magic g := fun g => by
    rw [AuthState.magic, hfile]
    split <;> rfl
  have hrest : ∀ g, (s'.file g).opened = (s.file g).opened ∧
      (s'.file g).master = (s.file g).master ∧ (s'.file g).freed = (s.file g).freed := fun g => by
    rw [hfile]
    split
    · rename_i he
      subst he
      exact ⟨rfl, rfl, rfl⟩
    · exact ⟨rfl, rfl, rfl⟩
  have hkeep : ∀ g, s.magic g ≠ 0 → s'.magic g = s.magic g := fun g hg => by
    rw [hm, if_neg]
    rintro rfl
    exact hg hzero
  have hcalls : s'.calls = moveOn s.calls i (some (.addMagic f magic)) := by
    subst hs'
    rfl
  have hseq : s'.sequence = s.sequence := by
    subst hs'
    rfl
  have hlist : s'.magiclist = s.magiclist := by
    subst hs'
    rfl
  have hlen : s'.files.length = s.files.length := by
    subst hs'
    exact List.length_modify _ _ _
  refine ⟨fun g => ?_, fun g k hg he => ?_, ?_, ?_, fun d hd => ?_, fun M b e he => ?_,
    hlist ▸ h.once, fun g hg => ?_, fun x hx => ?_, fun g hg => ?_, fun g hg => ?_⟩
  · rw [hm, hseq]
    split
    · exact hle
    · exact h.bounded g
  · rw [hm] at hg he
    rw [hm] at he
    split_ifs at hg he with h1 h2 h2
    · rw [h1, h2]
    · exact absurd he.symm (hfree k)
    · exact absurd he (hfree g)
    · exact h.distinct g k hg he
  · rw [hcalls]
    exact nodup_filterMap_moveOn hp h.claims (by simp [AuthCall.claimed])
  · rw [hcalls]
    refine nodup_filterMap_moveOn hp h.adds fun d hd x hx => .inr fun v hv hvx => ?_
    obtain rfl := Option.mem_some.mp hd
    cases hx
    cases v <;> simp [AuthCall.adding] at hvx
    subst hvx
    exact hfree _ (h.calls _ hv).2.2.1
  · rw [hcalls, mem_moveOn_iff] at hd
    rcases hd with hd | hd
    · cases hd
      refine ⟨(hrest f).1.trans hopen, hnz, by rw [hm, if_pos rfl], fun M b e he hem => ?_⟩
      rw [hlist] at he
      exact hfree e.priv ((h.entries M b e he).own.trans hem)
    · refine ok_setMagic hzero hm (fun g => (hrest g).1) hlen hseq hlist
        (h.calls d (mem_of_others hp hd)) ?_
      exact key_ne_of_others hp h.claims rfl hd
  · rw [hlist] at he
    have hok := h.entries M b e he
    exact ⟨hok.nonzero, (hkeep _ (hok.own ▸ hok.nonzero)).trans hok.own,
      (hrest _).2.1.trans hok.master, hok.hash, (hrest _).2.2.trans hok.alive⟩
  · rw [(hrest g).1] at hg
    exact (hrest g).2.2.trans (h.alive g hg)
  · have hx : x = (f, magic) ∨ x ∈ s.handed := by
      subst hs'
      exact List.mem_cons.mp hx
    rcases hx with rfl | hx
    · exact ⟨hnz, by rw [hm, if_pos rfl]⟩
    · obtain ⟨hne, he⟩ := h.handed x hx
      exact ⟨hne, (hkeep _ (he ▸ hne)).trans he⟩
  · have hhanded : s'.handed = (f, magic) :: s.handed := by
      subst hs'
      rfl
    rw [hhanded, hm] at *
    split at hg
    · rename_i hgf
      rw [if_pos hgf, hgf]
      exact List.mem_cons_self
    · rename_i hgf
      rw [if_neg hgf]
      exact List.mem_cons_of_mem _ (h.given g hg)
  · have hg : g ∈ s.grants := by
      subst hs'
      exact hg
    obtain ⟨hne, he, ho⟩ := h.grants g hg
    exact ⟨hne, (hkeep _ (he ▸ hne)).trans he, ho⟩

/-- The entry goes to the end of its list. -/
theorem addMagic (h : AuthInv s) (hp : s.calls[i]? = some (.addMagic f magic)) :
    AuthInv ((drmAddMagic s (s.file f).master f magic).setCall i none) := by
  obtain ⟨hopen, hnz, hown, hunlisted⟩ := h.calls _ (List.mem_of_getElem? hp)
  have hlist : ∀ M b, (drmAddMagic s (s.file f).master f magic).magiclist M b =
      if M = (s.file f).master ∧ b = drmHashMagic magic then
        s.magiclist M b ++ [⟨magic, f⟩] else s.magiclist M b := fun M b => by
    rw [drmAddMagic, magiclist_setBucket]
    split
    · rename_i hMb
      rw [hMb.1, hMb.2]
      rfl
    · rfl
  have hmem : ∀ M b e, e ∈ (drmAddMagic s (s.file f).master f magic).magiclist M b →
      e ∈ s.magiclist M b ∨ (e = ⟨magic, f⟩ ∧ M = (s.file f).master ∧ b = drmHashMagic magic) :=
    fun M b e he => by
      rw [hlist] at he
      split at he
      · rename_i hMb
        rw [List.mem_append, List.mem_singleton] at he
        exact he.imp_right fun he => ⟨he, hMb⟩
      · exact .inl he
  refine ⟨h.bounded, h.distinct, nodup_filterMap_moveOn hp h.claims (by simp),
    nodup_filterMap_moveOn hp h.adds (by simp), fun d hd => ?_, fun M b e he => ?_,
    fun M b => ?_, h.alive, h.handed, h.given, h.grants⟩
  · have hd : d ∈ others s.calls i := (mem_moveOn_iff.mp hd).resolve_left (by simp)
    have hok := h.calls d (mem_of_others hp hd)
    have hadd := key_ne_of_others hp h.adds rfl hd
    cases d with
    | find g m won => cases won <;> exact hok
    | addMagic g m =>
      refine ⟨hok.1, hok.2.1, hok.2.2.1, fun M b e he hem => ?_⟩
      rcases hmem M b e he with he | ⟨rfl, -, -⟩
      · exact hok.2.2.2 M b e he hem
      · exact hadd (congrArg some hem.symm)
    | releaseUnlink g =>
      refine ⟨hok.1, fun M b e he heg => ?_⟩
      rcases hmem M b e he with he | ⟨rfl, -, -⟩
      · exact hok.2 M b e he heg
      · have hclosed := hok.1.2
        rw [← show f = g from heg, hopen] at hclosed
        cases hclosed
    | _ => exact hok
  · rcases hmem M b e he with he | ⟨rfl, rfl, rfl⟩
    · exact (h.entries M b e he).of_core rfl
    · exact ⟨hnz, hown, rfl, rfl, h.alive f hopen⟩
  · change ((drmAddMagic s (s.file f).master f magic).magiclist M b |>.map _).Nodup
    rw [hlist]
    split
    · rw [List.map_append]
      refine List.nodup_append.mpr ⟨h.once M b, List.nodup_singleton _, ?_⟩
      intro x hx y hy hxy
      obtain ⟨e, he, rfl⟩ := List.mem_map.mp hx
      exact hunlisted M b e he (hxy.trans (List.mem_singleton.mp hy))
    · exact h.once M b

/-- drm_release takes the magic of its file off the list. -/
theorem releaseRemove (h : AuthInv s) (hp : s.calls[i]? = some (.releaseRemove f magic)) :
    AuthInv ((drmRemoveMagic s (s.file f).master magic).setCall i (some (.releaseUnlink f))) := by
  obtain ⟨hclosing, -, hown⟩ := h.calls _ (List.mem_of_getElem? hp)
  refine h.keep hp rfl (fun _ => rfl) rfl (BitVec.le_refl _)
    (fun M b => drmRemoveMagic_sublist s _ _ M b) ?_ (by simp [AuthCall.claimed])
    (by simp [AuthCall.adding]) h.handed (List.Subset.refl _) h.grants
  rintro d hd
  obtain rfl := Option.mem_some.mp hd
  refine ⟨hclosing, fun M b e he hef => ?_⟩
  have hok := h.entries M b e ((drmRemoveMagic_sublist s _ _ M b).subset he)
  have hem : e.magic = magic := by rw [← hok.own, hef, hown]
  change e ∈ (drmRemoveMagic s (s.file f).master magic).magiclist M b at he
  rw [drmRemoveMagic, magiclist_setBucket,
    if_pos ⟨by rw [← hok.master, hef], by rw [← hok.hash, hem]⟩] at he
  exact magic_ne_of_eraseP (h.once _ _) he hem

/-- The file is freed once no entry names it. -/
theorem releaseUnlink (h : AuthInv s) (hp : s.calls[i]? = some (.releaseUnlink f)) :
    AuthInv ((unlinkFile s f).setCall i none) := by
  obtain ⟨⟨hf, hclosed⟩, hunlisted⟩ := h.calls _ (List.mem_of_getElem? hp)
  have hcore := core_unlinkFile hf
  have hm : ∀ g, (unlinkFile s f).magic g = s.magic g := fun g =>
    (congrArg AuthFile.magic (hcore g) :)
  have hopened : ∀ g, ((unlinkFile s f).file g).opened = (s.file g).opened := fun g =>
    (congrArg AuthFile.opened (hcore g) :)
  have hfreed : ∀ g, g ≠ f → ((unlinkFile s f).file g).freed = (s.file g).freed := fun g hg => by
    have hcg : ((unlinkFile s f).file g).freed = ((s.file g).freed || decide (g = f)) :=
      (congrArg AuthFile.freed (hcore g) :)
    simpa [hg] using hcg
  have hlen : (unlinkFile s f).files.length = s.files.length := by
    simp only [unlinkFile, setFile, List.length_modify]
    split
    · exact List.length_mapIdx
    · rfl
  refine ⟨fun g => (hm g).symm ▸ h.bounded g, fun g k => ?_,
    nodup_filterMap_moveOn hp h.claims (by simp), nodup_filterMap_moveOn hp h.adds (by simp),
    fun d hd => ?_, fun M b e he => ?_, h.once, fun g hg => ?_, fun x hx => ?_,
    fun g hg => ?_, fun x hx => ?_⟩
  · change (unlinkFile s f).magic g ≠ 0 → (unlinkFile s f).magic g = (unlinkFile s f).magic k → _
    rw [hm, hm]
    exact h.distinct g k
  · have hd : d ∈ others s.calls i := (mem_moveOn_iff.mp hd).resolve_left (by simp)
    exact (h.calls d (mem_of_others hp hd)).mono (hopened _) hlen.ge hm (BitVec.le_refl _)
      fun _ _ _ he => he
  · have hok := h.entries M b e he
    exact ⟨hok.nonzero, (hm _).trans hok.own,
      (congrArg AuthFile.master (hcore e.priv) :).trans hok.master, hok.hash,
      (hfreed _ (hunlisted M b e he)).trans hok.alive⟩
  · have hgo : (s.file g).opened = true := (hopened g).symm.trans hg
    have hgf : g ≠ f := by
      rintro rfl
      rw [hclosed] at hgo
      cases hgo
    exact (hfreed g hgf).trans (h.alive g hgo)
  · exact ⟨(h.handed x hx).1, (hm _).trans (h.handed x hx).2⟩
  · have hgm : s.magic g ≠ 0 := (hm g) ▸ hg
    exact (hm g).symm ▸ h.given g hgm
  · exact ⟨(h.grants x hx).1, (hm _).trans (h.grants x hx).2.1, (h.grants x hx).2.2⟩

theorem run (h : AuthInv s) {c : AuthCall} (hp : s.calls[i]? = some c) {alloc : Bool}
    (hg : (AuthEvent.run i alloc).undisturbed s = true) : AuthInv (c.run s i alloc) := by
  have hok := h.calls c (List.mem_of_getElem? hp)
  simp only [AuthEvent.undisturbed, hp] at hg
  cases c with
  | getTest f =>
    refine h.move hp ?_ ?_ ?_
    · rintro d hd
      obtain rfl := Option.mem_some.mp hd
      split
      · exact ⟨hok, ‹_›⟩
      · exact hok
    · rintro d hd x hx
      obtain rfl := Option.mem_some.mp hd
      split at hx <;> cases hx
    · rintro d hd
      obtain rfl := Option.mem_some.mp hd
      split <;> rfl
  | getKnown f =>
    refine h.keep hp rfl (fun _ => rfl) rfl (BitVec.le_refl _) (fun _ _ => List.Sublist.refl _)
      (by simp) (by simp) (by simp) (fun x hx => ?_) (List.subset_cons_self _ _) h.grants
    rcases List.mem_cons.mp hx with rfl | hx
    · exact ⟨hok.2, rfl⟩
    · exact h.handed x hx
  | seqRead f => exact h.move hp (by simpa [AuthCall.Ok] using hok) (by simp [AuthCall.claimed]) (by simp [AuthCall.adding])
  | seqCas f old =>
    simp only [AuthCall.run]
    split
    · rename_i hold
      subst hold
      exact h.seqCas hp (by simpa using hg)
    · exact h.move hp (by simpa [AuthCall.Ok] using hok) (by simp [AuthCall.claimed]) (by simp [AuthCall.adding])
  | find f magic won =>
    have hopen : (s.file f).opened = true := by
      cases won
      · exact hok
      · exact hok.1
    refine h.move hp ?_ ?_ ?_
    · rintro d hd
      obtain rfl := Option.mem_some.mp hd
      split
      · exact hopen
      · rename_i hnone
        cases won
        · exact absurd hg hnone
        · exact hok
    · rintro d hd x hx
      obtain rfl := Option.mem_some.mp hd
      split at hx
      · cases hx
      · rename_i hnone
        cases won
        · exact absurd hg hnone
        · exact hx
    · rintro d hd
      obtain rfl := Option.mem_some.mp hd
      split <;> rfl
  | setMagic f magic => exact h.setMagic hp (by simpa using hg)
  | addMagic f magic =>
    simp only [AuthCall.run]
    split
    · exact h.addMagic hp
    · exact h.move hp (by simp) (by simp) (by simp)
  | authFind f magic =>
    simp only [AuthCall.run]
    split
    · rename_i found hfound
      exact h.move hp (by simpa [AuthCall.Ok] using ⟨hok, drmFindFile_some h hfound⟩)
        (by simp [AuthCall.claimed]) (by simp [AuthCall.adding])
    · exact h.move hp (by simp) (by simp) (by simp)
  | authSet f magic found =>
    have hcore : ∀ g, ((s.setFile found fun p => { p with authenticated := true }).file g).core =
        (s.file g).core := fun g => by
      rw [file_setFile]
      split
      · rename_i he
        rw [he.1]
        rfl
      · rfl
    refine h.keep hp rfl hcore (List.length_modify _ _ _) (BitVec.le_refl _)
      (fun _ _ => List.Sublist.refl _) ?_ (by simp [AuthCall.claimed])
      (by simp [AuthCall.adding]) h.handed
      (List.Subset.refl _) (fun x hx => ?_)
    · rintro d hd
      obtain rfl := Option.mem_some.mp hd
      exact (opened_of_core (hcore f)).trans hok.1
    · rcases List.mem_cons.mp hx with rfl | hx
      · exact ⟨hok.2.1, hok.2.2, hg⟩
      · exact h.grants x hx
  | authRemove f magic =>
    exact h.keep hp rfl (fun _ => rfl) rfl (BitVec.le_refl _)
      (fun M b => drmRemoveMagic_sublist s _ _ M b) (by simp) (by simp) (by simp) h.handed (List.Subset.refl _) h.grants
  | releaseTest f =>
    refine h.move hp ?_ ?_ ?_
    · rintro d hd
      obtain rfl := Option.mem_some.mp hd
      split
      · exact ⟨hok, ‹_›, rfl⟩
      · rename_i hzero
        refine ⟨hok, fun M b e he hef => ?_⟩
        have hentry := h.entries M b e he
        have hown := hentry.own
        rw [show e.priv = f from hef] at hown
        exact hzero (hown ▸ hentry.nonzero)
    · rintro d hd x hx
      obtain rfl := Option.mem_some.mp hd
      split at hx <;> cases hx
    · rintro d hd
      obtain rfl := Option.mem_some.mp hd
      split <;> rfl
  | releaseRemove f magic => exact h.releaseRemove hp
  | releaseUnlink f => exact h.releaseUnlink hp

theorem start (h : AuthInv s) {c : AuthCall} (hok : c.Ok s) (hclaim : c.claimed = none)
    (hadd : c.adding = none) : AuthInv { s with calls := c :: s.calls } := by
  refine ⟨h.bounded, h.distinct, ?_, ?_, fun d hd => ?_,
    fun M b e he => (h.entries M b e he).of_core rfl, h.once, h.alive, h.handed, h.given, h.grants⟩
  · rw [List.filterMap_cons_none hclaim]
    exact h.claims
  · rw [List.filterMap_cons_none hadd]
    exact h.adds
  · have hd : d.Ok s := by
      rcases List.mem_cons.mp hd with rfl | hd
      · exact hok
      · exact h.calls d hd
    exact hd.mono rfl le_rfl (fun _ => rfl) (BitVec.le_refl _) fun _ _ _ he => he

theorem openFile (h : AuthInv s) (master : ℕ) (isMaster authenticated : Bool) :
    AuthInv { s with files := s.files ++ [{ master, isMaster, authenticated, opened := true }] } := by
  generalize hs' : ({ s with files :=
    s.files ++ [{ master, isMaster, authenticated, opened := true }] } : AuthState) = s'
  have hold : ∀ g, g < s.files.length → s'.file g = s.file g := fun g hg => by
    subst hs'
    simp [AuthState.file, List.getElem?_append_left hg]
  have hnew : ∀ g, ¬ g < s.files.length → s'.magic g = 0 ∧ (s'.file g).freed = false :=
    fun g hg => by
      subst hs'
      simp only [AuthState.magic, AuthState.file, List.getD_eq_getElem?_getD,
        List.getElem?_append_right (Nat.le_of_not_lt hg)]
      rcases Nat.eq_zero_or_pos (g - s.files.length) with hz | hz
      · simp [hz]
      · rw [List.getElem?_eq_none (show 1 ≤ _ from hz)]
        exact ⟨rfl, rfl⟩
  have hdefault : ∀ g, ¬ g < s.files.length → s.file g = {} := fun g hg => by
    simp [AuthState.file, List.getElem?_eq_none (Nat.le_of_not_lt hg)]
  have hm : ∀ g, s'.magic g = s.magic g := fun g => by
    by_cases hg : g < s.files.length
    · rw [AuthState.magic, hold g hg, AuthState.magic]
    · rw [(hnew g hg).1, AuthState.magic, hdefault g hg]
  have hlt : ∀ g, s.magic g ≠ 0 → g < s.files.length := fun g hg => by
    by_contra hge
    rw [AuthState.magic, hdefault g hge] at hg
    exact hg rfl
  have hcalls : s'.calls = s.calls := by
    subst hs'
    rfl
  have hlist : s'.magiclist = s.magiclist := by
    subst hs'
    rfl
  have hseq : s'.sequence = s.sequence := by
    subst hs'
    rfl
  have hlen : s.files.length ≤ s'.files.length := by
    subst hs'
    simp
  refine ⟨fun g => ?_, fun g k => ?_, hcalls ▸ h.claims, hcalls ▸ h.adds, fun d hd => ?_,
    fun M b e he => ?_, hlist ▸ h.once, fun g hg => ?_, fun x hx => ?_,
    fun g hg => ?_, fun x hx => ?_⟩
  · rw [hm, hseq]
    exact h.bounded g
  · rw [hm, hm]
    exact h.distinct g k
  · rw [hcalls] at hd
    have hok := h.calls d hd
    refine hok.mono ?_ hlen hm (hseq ▸ BitVec.le_refl _) fun M b e he => hlist ▸ he
    rw [hold]
    exact hok.file_lt
  · rw [hlist] at he
    have hok := h.entries M b e he
    have hpriv := hold e.priv (hlt _ (hok.own ▸ hok.nonzero))
    exact hok.of_core (by rw [hpriv])
  · by_cases hgl : g < s.files.length
    · rw [hold g hgl] at hg ⊢
      exact h.alive g hg
    · exact (hnew g hgl).2
  · have hx : x ∈ s.handed := by
      subst hs'
      exact hx
    exact ⟨(h.handed x hx).1, (hm _).trans (h.handed x hx).2⟩
  · have hhanded : s'.handed = s.handed := by
      subst hs'
      rfl
    rw [hm] at hg ⊢
    exact hhanded ▸ h.given g hg
  · have hx : x ∈ s.grants := by
      subst hs'
      exact hx
    exact ⟨(h.grants x hx).1, (hm _).trans (h.grants x hx).2.1, (h.grants x hx).2.2⟩

/-- The last close of a file starts: its own calls are over. -/
theorem release (h : AuthInv s) (hopen : (s.file f).opened = true)
    (hnone : ∀ c ∈ s.calls, c.file ≠ f) :
    AuthInv { s.setFile f (fun p => { p with opened := false }) with
      calls := .releaseTest f :: s.calls } := by
  have hf := lt_of_opened hopen
  have hfile := file_setFile s f fun p => { p with opened := false }
  have hm : ∀ g, (s.setFile f fun p => { p with opened := false }).magic g = s.magic g :=
    fun g => by
      rw [AuthState.magic, hfile]
      split
      · rename_i he
        rw [he.1]
        rfl
      · rfl
  have hrest : ∀ g, ((s.setFile f fun p => { p with opened := false }).file g).master =
      (s.file g).master ∧ ((s.setFile f fun p => { p with opened := false }).file g).freed =
      (s.file g).freed := fun g => by
    rw [hfile]
    split
    · rename_i he
      rw [he.1]
      exact ⟨rfl, rfl⟩
    · exact ⟨rfl, rfl⟩
  have hlen : (s.setFile f fun p => { p with opened := false }).files.length = s.files.length :=
    List.length_modify _ _ _
  refine ⟨fun g => (hm g).symm ▸ h.bounded g, fun g k => ?_, h.claims, h.adds, fun d hd => ?_,
    fun M b e he => ?_, h.once, fun g hg => ?_, fun x hx => ?_,
    fun g hg => ?_, fun x hx => ?_⟩
  · change (s.setFile f _).magic g ≠ 0 → (s.setFile f _).magic g = (s.setFile f _).magic k → _
    rw [hm, hm]
    exact h.distinct g k
  · rcases List.mem_cons.mp hd with rfl | hd
    · refine ⟨hlen.symm ▸ hf, ?_⟩
      change ((s.setFile f _).file f).opened = false
      rw [hfile, if_pos ⟨rfl, hf⟩]
    · refine (h.calls d hd).mono ?_ hlen.ge hm (BitVec.le_refl _) fun _ _ _ he => he
      change ((s.setFile f _).file _).opened = _
      rw [hfile, if_neg fun he => hnone d hd he.1]
  · have hok := h.entries M b e he
    exact ⟨hok.nonzero, (hm _).trans hok.own, (hrest _).1.trans hok.master, hok.hash,
      (hrest _).2.trans hok.alive⟩
  · refine (hrest g).2.trans (h.alive g ?_)
    change ((s.setFile f _).file g).opened = true at hg
    rw [hfile] at hg
    split at hg
    · cases hg
    · exact hg
  · exact ⟨(h.handed x hx).1, (hm _).trans (h.handed x hx).2⟩
  · have hgm : s.magic g ≠ 0 := (hm g) ▸ hg
    exact (hm g).symm ▸ h.given g hgm
  · exact ⟨(h.grants x hx).1, (hm _).trans (h.grants x hx).2.1, (h.grants x hx).2.2⟩

theorem step (h : AuthInv s) {e : AuthEvent} (hg : e.undisturbed s = true)
    (hs : authStep s e = some s') : AuthInv s' := by
  cases e with
  | openFile master isMaster authenticated =>
    cases hs
    exact h.openFile master isMaster authenticated
  | getmagic f =>
    simp only [authStep] at hs
    split at hs <;> cases hs
    rename_i hopen
    exact h.start hopen rfl rfl
  | authmagic f magic =>
    simp only [authStep] at hs
    split at hs <;> cases hs
    rename_i hopen
    exact h.start hopen rfl rfl
  | release f =>
    simp only [authStep] at hs
    split at hs <;> cases hs
    rename_i hc
    exact h.release hc.1 (by simpa using hc.2)
  | run i alloc =>
    obtain ⟨c, hc, rfl⟩ := Option.map_eq_some_iff.mp hs
    exact h.run hc hg

end AuthInv

theorem init_authInv : AuthInv {} := by
  refine ⟨?_, ?_, List.nodup_nil, List.nodup_nil, by simp, by simp, by simp, ?_, by simp, ?_,
    by simp⟩
  · intro f
    simp [AuthState.magic, AuthState.file]
  · intro f g hf
    simp [AuthState.magic, AuthState.file] at hf
  · intro f hf
    simp [AuthState.file] at hf
  · intro f hf
    simp [AuthState.magic, AuthState.file] at hf

/-- What is promised of magics: none is zero or given to two files, drm_authmagic writes to the
open file that has the magic, and a file that is gone is in no list. -/
structure MagicsApart (s : AuthState) : Prop where
  nonzero : ∀ x ∈ s.handed, x.2 ≠ 0
  unique : ∀ x ∈ s.handed, ∀ y ∈ s.handed, x.2 = y.2 → x.1 = y.1
  grants : ∀ g ∈ s.grants, g.opened = true ∧ (g.file, g.magic) ∈ s.handed
  released : ∀ f, (s.file f).freed = true → Unlisted s fun e => e.priv = f

/-- In a run whose calls do not disturb one another the magics of files are kept apart. -/
theorem auth_magics_apart (s : AuthState)
    (h : ReachWhile authSystem (fun s e => e.undisturbed s = true) s) : MagicsApart s := by
  have hI : AuthInv s :=
    h.invariant (fun _ hi => hi ▸ init_authInv) fun _ _ _ hI hg hs => hI.step hg hs
  have hown : ∀ f g, s.magic f ≠ 0 → s.magic f = s.magic g → f = g := hI.distinct
  refine ⟨fun x hx => (hI.handed x hx).1, fun x hx y hy he => ?_, fun g hg => ?_,
    fun f hf M b e he hef => ?_⟩
  · obtain ⟨hx, hxm⟩ := hI.handed x hx
    exact hown x.1 y.1 (hxm ▸ hx) (hxm.trans (he.trans (hI.handed y hy).2.symm))
  · obtain ⟨hne, hm, hopen⟩ := hI.grants g hg
    have hgiven := hI.given g.file (hm ▸ hne)
    rw [hm] at hgiven
    exact ⟨hopen, hgiven⟩
  · have halive := (hI.entries M b e he).alive
    rw [hef, hf] at halive
    cases halive

/-- The master authenticates another file, which is then released. -/
theorem auth_magics_apart_oneClient : ∃ s, MagicsApart s ∧ s.grants = [⟨1, 1, true⟩] ∧
    (s.file 1).freed = true := by
  obtain ⟨s, hs, hp⟩ : ∃ s, ReachWhile authSystem (fun s e => e.undisturbed s = true) s ∧
      (decide (s.grants = [⟨1, 1, true⟩]) && (s.file 1).freed) = true :=
    ReachWhile.of_exec_any (l := [.openFile 0 true true, .openFile 0 false false, .getmagic 1,
      .run 0 true, .run 0 true, .run 0 true, .run 0 true, .run 0 true, .run 0 true,
      .authmagic 0 1, .run 0 true, .run 0 true, .run 0 true, .release 1, .run 0 true, .run 0 true,
      .run 0 true])
      (.init rfl) (by decide +kernel)
  simp only [Bool.and_eq_true, decide_eq_true_eq] at hp
  exact ⟨s, auth_magics_apart s hs, hp.1, hp.2⟩

/-- Two files read the sequence at once: the loser's loop test comes before the winner's entry. -/
theorem getmagic_shared_magic : ¬ ∀ s, Reach authSystem s → MagicsApart s := by
  intro h
  obtain ⟨s, hs, hp⟩ : ∃ s, ReachWhile authSystem (fun _ _ => true = true) s ∧
      decide (s.handed = [(0, 1), (1, 1)]) = true :=
    ReachWhile.of_exec_any (l := [.openFile 0 true true, .openFile 0 false false, .getmagic 0,
      .getmagic 1, .run 0 true, .run 1 true, .run 0 true, .run 1 true, .run 0 true, .run 1 true,
      .run 0 true, .run 1 true, .run 0 true, .run 1 true])
      (.init rfl) (by decide +kernel)
  have hunique := (h s hs.reach).unique
  rw [of_decide_eq_true hp] at hunique
  have hsame := hunique (0, 1) (by simp) (1, 1) (by simp) rfl
  simp at hsame

end GfxDrm.Auth
