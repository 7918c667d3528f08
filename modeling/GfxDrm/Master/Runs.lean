import GfxDrm.Master.Roles

/-! Calls and runs. -/

namespace GfxDrm.Master
open Kref Run

/-- What a call counts on where it stands. -/
def MasterCall.Fits (s : MasterState) : MasterCall → Prop
  | .done _ => True
  | .openFirst f => f ∈ s.files ∧ f ∉ s.filelist ∧ (s.file f).role = (none, false)
  | .openCreate f | .openUndo f _ | .openSet f =>
    f ∈ s.files ∧ f ∉ s.filelist ∧ (s.file f).isMaster = true
  | .openList f => f ∈ s.files ∧ f ∉ s.filelist ∧ (s.file f).master ≠ none
  | .setHeld f => f ∈ s.filelist ∧ (s.file f).isMaster = true
  | .setIsMaster f | .setMinor f | .setOther f | .setFile f | .setNull f | .setDiffers f
  | .setLock f | .dropIsMaster f | .dropMinor f | .dropLock f => f ∈ s.filelist

/-- The calls and the open files fit together. -/
structure CallsOk (s : MasterState) : Prop where
  listed : ∀ f ∈ s.filelist, f ∈ s.files ∧ (s.file f).master ≠ none
  nodup : s.filelist.Nodup
  fits : ∀ t, (s.call t).Fits s
  /-- Whoever opens a file is alone with it. -/
  alone : ∀ t t' f, (s.call t).opening = some f → (s.call t').file = some f → t = t'
  held : ∀ t, (s.call t).holds = true → s.mutex = true
  oneHolds : ∀ t t', (s.call t).holds = true → (s.call t').holds = true → t = t'

variable {s s' : MasterState} {t f g : ℕ} {c c' : MasterCall}

theorem MasterCall.file_of_opening (h : c.opening = some f) : c.file = some f := by
  cases c <;> simp_all [MasterCall.opening, MasterCall.file]

theorem MasterCall.Fits.listed (h : c.Fits s) (hf : c.file = some f) (hopen : c.opening = none) :
    f ∈ s.filelist := by
  cases c <;> simp_all [MasterCall.opening, MasterCall.file, MasterCall.Fits]

theorem MasterCall.Fits.opens (h : c.Fits s) (hf : c.opening = some f) :
    f ∈ s.files ∧ f ∉ s.filelist := by
  cases c <;> simp_all [MasterCall.opening, MasterCall.Fits]

/-- Only one file changes, and only one thread goes on. -/
structure OneFile (t f : ℕ) (s s' : MasterState) : Prop where
  files : ∀ g, g ≠ f → (g ∈ s'.files ↔ g ∈ s.files)
  listed : ∀ g, g ≠ f → (g ∈ s'.filelist ↔ g ∈ s.filelist)
  role : ∀ g, g ≠ f → (s'.file g).role = (s.file g).role
  call : ∀ t', t' ≠ t → s'.call t' = s.call t'

/-- What a call on another file counts on is left alone. -/
theorem MasterCall.Fits.frame (h : c.Fits s) (hne : c.file ≠ some f)
    (hfiles : ∀ g, g ≠ f → (g ∈ s'.files ↔ g ∈ s.files))
    (hlisted : ∀ g, g ≠ f → (g ∈ s'.filelist ↔ g ∈ s.filelist))
    (hrole : ∀ g, g ≠ f → (s'.file g).role = (s.file g).role) : c.Fits s' := by
  have hfields : ∀ g, g ≠ f → (s'.file g).master = (s.file g).master ∧
      (s'.file g).isMaster = (s.file g).isMaster := fun g hg => by
    simpa only [DrmFile.role, Prod.mk.injEq] using hrole g hg
  cases c <;> unfold MasterCall.Fits at h ⊢ <;> unfold MasterCall.file at hne <;>
    simp_all

/-- What a call of another thread on the same file counts on. -/
theorem MasterCall.Fits.sameFile (h : c.Fits s) (hf : c.file = some f) (hopen : c.opening = none)
    (hlisted : f ∈ s'.filelist)
    (hmaster : c.holds = true → (s.file f).isMaster = true → (s'.file f).isMaster = true) :
    c.Fits s' := by
  cases c with
  | done => trivial
  | openFirst | openCreate | openUndo | openSet | openList => cases hopen
  | setHeld g =>
    cases hf
    exact ⟨hlisted, hmaster rfl h.2⟩
  | _ =>
    cases hf
    exact hlisted

/-- A step of one call that touches one file, with or without the mutex. -/
theorem CallsOk.step (h : CallsOk s) (hone : OneFile t f s s')
    (hfile : (s'.call t).file = none ∨ (s'.call t).file = some f)
    (hlisted : f ∈ s.filelist → f ∈ s'.filelist)
    (hself : f ∈ s'.filelist → f ∈ s'.files ∧ (s'.file f).master ≠ none)
    (hnodup : s'.filelist.Nodup) (hfits : (s'.call t).Fits s')
    (hwas : (s.call t).file = some f ∨ ∀ t', (s.call t').opening ≠ some f)
    (hopens : (s'.call t).opening = some f → ∀ t', t' ≠ t → (s.call t').file ≠ some f)
    (hkeep : (s.call t).holds = true ∨ s.mutex = false ∨ f ∉ s.filelist ∨
      (s'.file f).role = (s.file f).role)
    (hmutex : (s'.mutex = s.mutex ∧ (s'.call t).holds = false) ∨
      (s.mutex = false ∧ s'.mutex = true) ∨
      ((s.call t).holds = true ∧ (s'.call t).holds = false)) : CallsOk s' := by
  have hopening : ∀ t', t' ≠ t → (s.call t').opening ≠ some f := by
    intro t' ht' ho
    rcases hwas with hwas | hwas
    · exact ht' (h.alone t' t f ho hwas)
    · exact hwas t' ho
  have hfresh : ∀ t', t' ≠ t → (s.call t').holds = true → s.mutex = true ∧
      (s.call t).holds = false := by
    refine fun t' ht' hh => ⟨h.held t' hh, ?_⟩
    exact Bool.eq_false_iff.mpr fun ht => ht' (h.oneHolds t' t hh ht)
  refine ⟨fun g hg => ?_, hnodup, fun t' => ?_, fun t₁ t₂ g h₁ h₂ => ?_, fun t' ht' => ?_,
    fun t₁ t₂ h₁ h₂ => ?_⟩
  · by_cases hgf : g = f
    · exact hgf ▸ hself (hgf ▸ hg)
    · obtain ⟨hmem, hmaster⟩ := h.listed g ((hone.listed g hgf).mp hg)
      refine ⟨(hone.files g hgf).mpr hmem, ?_⟩
      exact (congrArg Prod.fst (hone.role g hgf)).trans_ne hmaster
  · by_cases ht' : t' = t
    · exact ht' ▸ hfits
    rw [hone.call t' ht']
    by_cases hf : (s.call t').file = some f
    · have hnone : (s.call t').opening = none := by
        cases ho : (s.call t').opening with
        | none => rfl
        | some g =>
          have hg := MasterCall.file_of_opening ho
          rw [hf] at hg
          cases hg
          exact absurd ho (hopening t' ht')
      refine (h.fits t').sameFile hf hnone (hlisted ((h.fits t').listed hf hnone)) fun hh hm => ?_
      obtain ⟨hheld, hnot⟩ := hfresh t' ht' hh
      rcases hkeep with hkeep | hkeep | hkeep | hkeep
      · rw [hnot] at hkeep
        cases hkeep
      · rw [hheld] at hkeep
        cases hkeep
      · exact absurd ((h.fits t').listed hf hnone) hkeep
      · exact (congrArg Prod.snd hkeep).trans hm
    · exact (h.fits t').frame hf hone.files hone.listed hone.role
  · by_cases ht₁ : t₁ = t <;> by_cases ht₂ : t₂ = t
    · rw [ht₁, ht₂]
    · rw [ht₁] at h₁
      rw [hone.call t₂ ht₂] at h₂
      have hg := MasterCall.file_of_opening h₁
      rcases hfile with hfile | hfile <;> rw [hfile] at hg <;> cases hg
      exact absurd h₂ (hopens h₁ t₂ ht₂)
    · rw [ht₂] at h₂
      rw [hone.call t₁ ht₁] at h₁
      rcases hfile with hfile | hfile <;> rw [hfile] at h₂ <;> cases h₂
      exact absurd h₁ (hopening t₁ ht₁)
    · rw [hone.call t₁ ht₁] at h₁
      rw [hone.call t₂ ht₂] at h₂
      exact h.alone t₁ t₂ g h₁ h₂
  · by_cases htt : t' = t
    · rw [htt] at ht'
      rcases hmutex with ⟨-, hm⟩ | ⟨-, hm⟩ | ⟨-, hm⟩
      · rw [hm] at ht'
        cases ht'
      · exact hm
      · rw [hm] at ht'
        cases ht'
    · rw [hone.call t' htt] at ht'
      obtain ⟨hheld, hnot⟩ := hfresh t' htt ht'
      rcases hmutex with ⟨hm, -⟩ | ⟨-, hm⟩ | ⟨hm, -⟩
      · exact hm.trans hheld
      · exact hm
      · rw [hnot] at hm
        cases hm
  · have hno : ∀ t', t' ≠ t → (s'.call t').holds = true → (s'.call t).holds = false := by
      intro t' ht' hh
      rw [hone.call t' ht'] at hh
      obtain ⟨hheld, hnot⟩ := hfresh t' ht' hh
      rcases hmutex with ⟨-, hm⟩ | ⟨hm, -⟩ | ⟨-, hm⟩
      · exact hm
      · rw [hheld] at hm
        cases hm
      · exact hm
    by_cases ht₁ : t₁ = t <;> by_cases ht₂ : t₂ = t
    · rw [ht₁, ht₂]
    · rw [ht₁, hno t₂ ht₂ h₂] at h₁
      cases h₁
    · rw [ht₂, hno t₁ ht₁ h₁] at h₂
      cases h₂
    · rw [hone.call t₁ ht₁] at h₁
      rw [hone.call t₂ ht₂] at h₂
      exact h.oneHolds t₁ t₂ h₁ h₂

@[simp] theorem goOn_self (s : MasterState) (t : ℕ) (c : MasterCall) : (s.goOn t c).call t = c :=
  Function.update_self ..

theorem goOn_ne {t' : ℕ} (h : t' ≠ t) : (s.goOn t c).call t' = s.call t' :=
  Function.update_of_ne h ..

theorem MasterCall.Fits.goOn (h : c.Fits s) (t : ℕ) (d : MasterCall) : c.Fits (s.goOn t d) := by
  cases c <;> exact h

/-- A step that changes nothing but where a call stands. -/
theorem CallsOk.goOn (h : CallsOk s) (hfile : c.file = none ∨ c.file = some f) (hfits : c.Fits s)
    (hwas : (s.call t).file = some f ∨ ∀ t', (s.call t').opening ≠ some f)
    (hopens : c.opening = some f → (s.call t).opening = some f) (hholds : c.holds = false) :
    CallsOk (s.goOn t c) := by
  refine h.step (f := f) ⟨fun _ _ => .rfl, fun _ _ => .rfl, fun _ _ => rfl, fun _ => goOn_ne⟩
    ?_ id (h.listed f) h.nodup ?_ hwas (fun ho t' ht' hf => ?_) (.inr (.inr (.inr rfl))) (.inl ⟨rfl, ?_⟩)
  all_goals rw [goOn_self] at *
  · exact hfile
  · exact hfits.goOn t c
  · exact ht' (h.alone t t' f (hopens ho) hf).symm
  · exact hholds

theorem MasterCall.Fits.of_listed (hf : f ∈ s.filelist) (hfile : c.file = none ∨ c.file = some f)
    (hno : c.opening = none) (hholds : c.holds = false) : c.Fits s := by
  cases c <;> simp_all [MasterCall.file, MasterCall.opening, MasterCall.holds, MasterCall.Fits]

/-- An ioctl goes on after a test outside the mutex, or returns. -/
theorem CallsOk.test (h : CallsOk s) (hf : (s.call t).file = some f)
    (hopening : (s.call t).opening = none) (hfile : c.file = none ∨ c.file = some f)
    (hno : c.opening = none) (hholds : c.holds = false) : CallsOk (s.goOn t c) :=
  h.goOn hfile (.of_listed ((h.fits t).listed hf hopening) hfile hno hholds) (.inl hf)
    (fun ho => by rw [hno] at ho; cases ho) hholds

theorem role_update {p : DrmFile} (h : g ≠ f) :
    (Function.update s.file f p g).role = (s.file g).role := by
  rw [Function.update_of_ne h]

theorem role_self (p : DrmFile) : (Function.update s.file f p f).role = p.role := by
  rw [Function.update_self]

/-- A step of a call that opens a file. -/
theorem CallsOk.openStep (h : CallsOk s) (ho : (s.call t).opening = some f)
    (hone : OneFile t f s s') (hfile : (s'.call t).file = none ∨ (s'.call t).file = some f)
    (hfits : (s'.call t).Fits s') (hlist : s'.filelist = s.filelist) (hmutex : s'.mutex = s.mutex)
    (hholds : (s'.call t).holds = false) : CallsOk s' := by
  have hf := MasterCall.file_of_opening ho
  have hlisted := ((h.fits t).opens ho).2
  exact h.step hone hfile (fun hl => hlist ▸ hl) (fun hl => absurd (hlist ▸ hl) hlisted)
    (hlist ▸ h.nodup) hfits (.inl hf) (fun _ t' ht' hf' => ht' (h.alone t t' f ho hf').symm)
    (.inr (.inr (.inl hlisted))) (.inl ⟨hmutex, hholds⟩)

/-- An ioctl gives up the mutex and returns. -/
theorem CallsOk.ioctlEnd (h : CallsOk s) (hf : (s.call t).file = some f)
    (hopening : (s.call t).opening = none) (hone : OneFile t f s s')
    (hdone : s'.call t = .done 0) (hlist : s'.filelist = s.filelist) (hfiles : s'.files = s.files)
    (hmaster : (s'.file f).master = (s.file f).master) (hmutex : s'.mutex = false)
    (hheld : (s.call t).holds = true ∨ s.mutex = false) : CallsOk s' := by
  have hlisted := (h.fits t).listed hf hopening
  obtain ⟨hmem, hne⟩ := h.listed f hlisted
  refine h.step hone (.inl ?_) (fun hl => hlist ▸ hl) (fun _ => ⟨hfiles ▸ hmem, hmaster ▸ hne⟩)
    (hlist ▸ h.nodup) ?_ (.inl hf) (fun ho => ?_) (hheld.imp_right .inl) ?_
  all_goals rw [hdone] at *
  · rfl
  · trivial
  · cases ho
  · rcases hheld with hheld | hheld
    · exact .inr (.inr ⟨hheld, rfl⟩)
    · exact .inl ⟨hmutex.trans hheld.symm, rfl⟩

/-- The masters are right, and every call finds what it counts on. -/
structure MasterInv (s : MasterState) : Prop where
  roles : Roles s
  calls : CallsOk s

theorem MasterInv.goOn (h : MasterInv s) (hc : CallsOk (s.goOn t c)) : MasterInv (s.goOn t c) :=
  ⟨h.roles.same (sameRoles_goOn s t c), hc⟩

namespace MasterInv

variable {new : Option ℕ} {ret : ℤ} {suser : Bool}

theorem openBegin (h : MasterInv s) (hf : f ∉ s.files) :
    MasterInv (openBegin s t f suser ret) := by
  have hnew : ∀ t', (s.call t').opening ≠ some f := fun t' ho => hf ((h.calls.fits t').opens ho).1
  unfold Master.openBegin
  split
  · exact h.goOn (h.calls.goOn (f := f) (.inl rfl) trivial (.inr hnew) nofun rfl)
  · refine ⟨(h.roles.newFile hf suser).same (sameRoles_goOn _ t _), ?_⟩
    have hlisted : f ∉ s.filelist := fun hl => hf (h.calls.listed f hl).1
    refine h.calls.step (f := f) ⟨fun g hg => ?_, fun _ _ => .rfl, fun g hg => ?_, fun _ => goOn_ne⟩
      ?_ id (fun hl => absurd hl hlisted) h.calls.nodup ?_ (.inr hnew) (fun ho t' ht' hf' => ?_)
      (.inr (.inr (.inl hlisted))) (.inl ⟨rfl, ?_⟩)
    · exact Finset.mem_insert.trans (or_iff_right hg)
    · exact role_update hg
    all_goals rw [goOn_self] at *
    · exact .inr rfl
    · refine ⟨Finset.mem_insert_self f _, hlisted, ?_⟩
      exact role_self _
    · have hno : (s.call t').opening = none := by
        cases hcall : (s.call t').opening with
        | none => rfl
        | some g =>
          have hg := MasterCall.file_of_opening hcall
          rw [hf'] at hg
          cases hg
          exact absurd hcall (hnew t')
      exact hlisted ((h.calls.fits t').listed hf' hno)
    · rfl

theorem openFirst (h : MasterInv s) (hcall : s.call t = .openFirst f)
    (hnew : ∀ m ∈ new, s.masters.alive m = false) : MasterInv (openFirst s t f new) := by
  obtain ⟨hmem, hlisted, hrole⟩ : (MasterCall.openFirst f).Fits s := hcall ▸ h.calls.fits t
  have hmaster : (s.file f).master = none := congrArg Prod.fst hrole
  have ho : (s.call t).opening = some f := by rw [hcall]; rfl
  unfold Master.openFirst
  split
  · rename_i hminor
    split
    · refine ⟨(h.roles.freeFile hmem hmaster).same (sameRoles_goOn _ t _), ?_⟩
      refine h.calls.openStep ho ⟨fun g hg => ?_, fun _ _ => .rfl, fun _ _ => rfl, fun _ => goOn_ne⟩
        ?_ ?_ rfl rfl ?_
      · exact Finset.mem_erase.trans (and_iff_right hg)
      all_goals rw [goOn_self]
      · exact .inl rfl
      · trivial
      · rfl
    · rename_i m
      refine ⟨Roles.same (s := { s with
          file := Function.update s.file f ⟨some m, true, true⟩
          masters := (s.masters.new m).get m, minorMaster := some m }) ⟨?_, .inr ⟨f, ?_⟩⟩
        (sameRoles_goOn _ t _), ?_⟩
      · exact balanced_newMaster h.roles.balanced hmem hmaster hminor (hnew m rfl) _ rfl
      · refine MasterIs.of_noMaster (h.roles.noMaster hminor) hmem rfl ?_ (fun g hg => ?_) ?_ ?_
        · show (Function.update s.file f _ f).isMaster = true
          rw [Function.update_self]
        · exact Function.update_of_ne hg ..
        · show some m = (Function.update s.file f _ f).master
          rw [Function.update_self]
        · exact Option.some_ne_none m
      · refine h.calls.openStep ho ⟨fun _ _ => .rfl, fun _ _ => .rfl, fun g hg => role_update hg,
          fun _ => goOn_ne⟩ ?_ ?_ rfl rfl ?_
        all_goals rw [goOn_self]
        · exact .inr rfl
        · exact ⟨hmem, hlisted, congrArg Prod.snd (role_self _)⟩
        · rfl
  · rename_i m hminor
    refine ⟨Roles.same (s := { s with
        file := Function.update s.file f { s.file f with master := some m }
        masters := s.masters.get m }) ⟨?_, ?_⟩ (sameRoles_goOn _ t _), ?_⟩
    · exact balanced_share h.roles.balanced hmem hmaster hminor _ rfl
    · obtain ⟨k, hk⟩ := h.roles.master.resolve_left fun hno => by
        rw [hno.minor] at hminor
        cases hminor
      refine .inr ⟨k, hk.mem, ?_, hk.ne_none, fun g hg => ?_⟩
      · show s.minorMaster = (Function.update s.file f _ k).master
        by_cases hkf : k = f
        · rw [hkf, Function.update_self, hminor]
        · rw [Function.update_of_ne hkf, hk.minor]
      · rw [← hk.file g hg]
        show (Function.update s.file f _ g).isMaster = true ↔ _
        by_cases hgf : g = f
        · rw [hgf, Function.update_self]
        · rw [Function.update_of_ne hgf]
    · refine h.calls.openStep ho ⟨fun _ _ => .rfl, fun _ _ => .rfl, fun g hg => role_update hg,
        fun _ => goOn_ne⟩ ?_ ?_ rfl rfl ?_
      all_goals rw [goOn_self]
      · exact .inr rfl
      · refine ⟨hmem, hlisted, ?_⟩
        exact (congrArg Prod.fst (role_self _)).trans_ne (Option.some_ne_none m)
      · rfl

/-- drm_open_helper gives up once its file was made master. -/
theorem openUndo (h : MasterInv s) (ho : (s.call t).opening = some f)
    (hm : (s.file f).isMaster = true) : MasterInv (openUndo s t f ret) := by
  obtain ⟨hmem, hlisted⟩ := (h.calls.fits t).opens ho
  refine ⟨(h.roles.leave (h.roles.masterIs hmem hm)).same (sameRoles_goOn _ t _), ?_⟩
  refine h.calls.openStep ho ⟨fun g hg => ?_, fun _ _ => .rfl, fun g hg => role_update hg,
    fun _ => goOn_ne⟩ ?_ ?_ rfl rfl ?_
  · exact Finset.mem_erase.trans (and_iff_right hg)
  all_goals unfold Master.openUndo; rw [goOn_self]
  · exact .inl rfl
  · trivial
  · rfl

/-- drm_open_helper ends. -/
theorem openList (h : MasterInv s) (hcall : s.call t = .openList f) :
    MasterInv ({ s with filelist := f :: s.filelist }.goOn t (.done 0)) := by
  obtain ⟨hmem, hlisted, hmaster⟩ : (MasterCall.openList f).Fits s := hcall ▸ h.calls.fits t
  have ho : (s.call t).opening = some f := by rw [hcall]; rfl
  refine ⟨h.roles.same ⟨rfl, rfl, rfl, fun _ _ => rfl⟩, ?_⟩
  refine h.calls.step (f := f) ⟨fun _ _ => .rfl, fun g hg => ?_, fun _ _ => rfl, fun _ => goOn_ne⟩
    ?_ (List.mem_cons_of_mem f) (fun _ => ⟨hmem, hmaster⟩) (List.nodup_cons.mpr ⟨hlisted, h.calls.nodup⟩)
    ?_ (.inl (MasterCall.file_of_opening ho)) (fun hd => ?_) (.inr (.inr (.inr rfl))) (.inl ⟨rfl, ?_⟩)
  · exact List.mem_cons.trans (or_iff_right hg)
  all_goals rw [goOn_self] at *
  · exact .inl rfl
  · trivial
  · cases hd
  · rfl

/-- drm_setmaster_ioctl takes the mutex and finds the minor still without a master. -/
theorem setLocked (h : MasterInv s) (hcall : s.call t = .setLock f) (hmutex : s.mutex = false)
    (hminor : s.minorMaster = none) : MasterInv (setLocked s t f) := by
  have hlisted : f ∈ s.filelist := by
    have : (MasterCall.setLock f).Fits s := hcall ▸ h.calls.fits t
    exact this
  have hf : (s.call t).file = some f := by rw [hcall]; rfl
  obtain ⟨hmem, hmaster⟩ := h.calls.listed f hlisted
  obtain ⟨m, hm⟩ := Option.ne_none_iff_exists'.mp hmaster
  have hget : s.getMinor f = { s with masters := s.masters.get m, minorMaster := some m } := by
    unfold MasterState.getMinor
    rw [hm]
  unfold Master.setLocked
  rw [hget]
  refine ⟨⟨?_, .inr ⟨f, ?_⟩⟩, ?_⟩
  · refine (balanced_getMinor h.roles.balanced hmem hm hminor).congr fun x => ?_
    refine congrArg (· + points (some m) x) (pointers_congr (fun g _ => ?_) x)
    show (Function.update s.file f _ g).master = _
    by_cases hg : g = f
    · rw [hg, Function.update_self]
    · rw [Function.update_of_ne hg]
  · refine MasterIs.of_noMaster (h.roles.noMaster hminor) hmem rfl ?_ (fun g hg => ?_) ?_ ?_
    · exact congrArg Prod.snd (role_self _)
    · exact Function.update_of_ne hg ..
    · refine hm.symm.trans ?_
      exact (congrArg Prod.fst (role_self (s := s) { s.file f with isMaster := true })).symm
    · exact Option.some_ne_none m
  · refine h.calls.step (f := f) ⟨fun _ _ => .rfl, fun _ _ => .rfl, fun g hg => role_update hg,
      fun _ => goOn_ne⟩ ?_ id (fun _ => ⟨hmem, ?_⟩) h.calls.nodup ?_ (.inl hf) (fun hd => ?_)
      (.inr (.inl hmutex)) (.inr (.inl ⟨hmutex, rfl⟩))
    · rw [goOn_self]
      exact .inr rfl
    · exact (congrArg Prod.fst (role_self _)).trans_ne hmaster
    · rw [goOn_self]
      exact ⟨hlisted, congrArg Prod.snd (role_self _)⟩
    · rw [goOn_self] at hd
      cases hd

theorem setReturn (h : MasterInv s) (hcall : s.call t = .setHeld f) :
    MasterInv (setReturn s t f ret) := by
  obtain ⟨hlisted, hm⟩ : (MasterCall.setHeld f).Fits s := hcall ▸ h.calls.fits t
  have hmem := (h.calls.listed f hlisted).1
  have hf : (s.call t).file = some f := by rw [hcall]; rfl
  have hopening : (s.call t).opening = none := by rw [hcall]; rfl
  have hheld : (s.call t).holds = true := by rw [hcall]; rfl
  unfold Master.setReturn
  split
  · refine ⟨h.roles.same ⟨rfl, rfl, rfl, fun _ _ => rfl⟩, ?_⟩
    exact h.calls.ioctlEnd hf hopening ⟨fun _ _ => .rfl, fun _ _ => .rfl, fun _ _ => rfl,
      fun _ => goOn_ne⟩ (goOn_self ..) rfl rfl rfl rfl (.inl hheld)
  · refine ⟨(h.roles.resign (h.roles.masterIs hmem hm)).same ⟨rfl, rfl, rfl, fun _ _ => rfl⟩, ?_⟩
    exact h.calls.ioctlEnd hf hopening ⟨fun _ _ => .rfl, fun _ _ => .rfl,
      fun g hg => role_update hg, fun _ => goOn_ne⟩ (goOn_self ..) rfl rfl
      (congrArg Prod.fst (role_self _)) rfl (.inl hheld)

/-- drm_dropmaster_ioctl takes the mutex and finds its file still master. -/
theorem dropLocked (h : MasterInv s) (hcall : s.call t = .dropLock f) (hmutex : s.mutex = false)
    (hm : (s.file f).isMaster = true) : MasterInv (dropLocked s t f) := by
  have hf : (s.call t).file = some f := by rw [hcall]; rfl
  have hopening : (s.call t).opening = none := by rw [hcall]; rfl
  have hmem := (h.calls.listed f ((h.calls.fits t).listed hf hopening)).1
  refine ⟨(h.roles.resign (h.roles.masterIs hmem hm)).same (sameRoles_goOn _ t _), ?_⟩
  exact h.calls.ioctlEnd hf hopening ⟨fun _ _ => .rfl, fun _ _ => .rfl,
    fun g hg => role_update hg, fun _ => goOn_ne⟩ (goOn_self ..) rfl rfl
    (congrArg Prod.fst (role_self _)) hmutex (.inr hmutex)

end MasterInv

/-! ### drm_release -/

theorem unauthenticate_role (s : MasterState) (f g : ℕ) :
    ((unauthenticate s f).file g).role = (s.file g).role := by
  unfold unauthenticate
  dsimp only
  split <;> rfl

/-- Giving up the minor changes no file's role. -/
theorem releaseMaster_frame (s : MasterState) (f : ℕ) :
    (releaseMaster s f).call = s.call ∧ (releaseMaster s f).mutex = s.mutex ∧
    (releaseMaster s f).files = s.files ∧ ∀ g, ((releaseMaster s f).file g).role = (s.file g).role := by
  unfold releaseMaster
  split
  · have hrole := unauthenticate_role s f
    dsimp only
    split
    · exact ⟨rfl, rfl, rfl, hrole⟩
    · exact ⟨rfl, rfl, rfl, hrole⟩
  · exact ⟨rfl, rfl, rfl, fun _ => rfl⟩

theorem drmRelease_frame (s : MasterState) (f : ℕ) :
    (drmRelease s f).call = s.call ∧ (drmRelease s f).mutex = s.mutex ∧
    (drmRelease s f).files = s.files.erase f ∧ (drmRelease s f).filelist = s.filelist.erase f ∧
    ∀ g, g ≠ f → ((drmRelease s f).file g).role = (s.file g).role := by
  obtain ⟨hcall, hmutex, hfiles, hrole⟩ := releaseMaster_frame s f
  refine ⟨hcall, hmutex, congrArg (Finset.erase · f) hfiles, rfl, fun g hg => ?_⟩
  rw [← hrole g, ← role_update (s := releaseMaster s f) hg]
  exact role_update (s := (releaseMaster s f).putFile f) hg

theorem roles_release (h : Roles s) (hmem : f ∈ s.files) (hmaster : (s.file f).master ≠ none) :
    Roles (drmRelease s f) := by
  have hdrop : Roles (((releaseMaster s f).putFile f).freeFile f) := by
    unfold releaseMaster
    cases hm : (s.file f).isMaster with
    | true =>
      have hun : SameRoles s (unauthenticate s f) :=
        ⟨rfl, rfl, rfl, fun g _ => unauthenticate_role s f g⟩
      have his := (h.masterIs hmem hm).same hun
      rw [if_pos his.minor]
      exact (h.same hun).leave his
    | false =>
      refine roles_drop h.balanced hmem hmaster (h.master.imp (fun hno => ?_) fun ⟨g, hg⟩ => ?_)
      · exact ⟨hno.minor, fun g hg _ => hno.file g hg⟩
      · refine ⟨g, ?_, hg⟩
        rintro rfl
        rw [(hg.file g hmem).mpr rfl] at hm
        cases hm
  refine hdrop.same ⟨rfl, rfl, rfl, fun g hg => ?_⟩
  exact role_update (s := (releaseMaster s f).putFile f) (Finset.ne_of_mem_erase hg)

theorem MasterInv.drmRelease (h : MasterInv s) (hlisted : f ∈ s.filelist)
    (hfree : ∀ t, (s.call t).file ≠ some f) : MasterInv (drmRelease s f) := by
  obtain ⟨hmem, hmaster⟩ := h.calls.listed f hlisted
  refine ⟨roles_release h.roles hmem hmaster, ?_⟩
  obtain ⟨hcall, hmutex, hfiles, hlist, hrole⟩ := drmRelease_frame s f
  have hin : ∀ g, g ≠ f → (g ∈ (Master.drmRelease s f).filelist ↔ g ∈ s.filelist) := by
    intro g hg
    exact List.mem_erase_of_ne hg
  have hinFiles : ∀ g, g ≠ f → (g ∈ (Master.drmRelease s f).files ↔ g ∈ s.files) := by
    intro g hg
    rw [hfiles]
    exact Finset.mem_erase.trans (and_iff_right hg)
  constructor
  · intro g hg
    have hgf : g ≠ f := by
      rintro rfl
      exact h.calls.nodup.not_mem_erase (hlist ▸ hg)
    obtain ⟨hmem, hmaster⟩ := h.calls.listed g ((hin g hgf).mp hg)
    exact ⟨(hinFiles g hgf).mpr hmem, (congrArg Prod.fst (hrole g hgf)).trans_ne hmaster⟩
  · exact hlist ▸ h.calls.nodup.erase f
  · intro t
    rw [hcall]
    exact (h.calls.fits t).frame (hfree t) hinFiles hin hrole
  · rw [hcall]
    exact h.calls.alone
  · rw [hcall, hmutex]
    exact h.calls.held
  · rw [hcall]
    exact h.calls.oneHolds

/-! ### Runs -/

theorem MasterInv.init : MasterInv {} where
  roles := ⟨Balanced.init fun _ => rfl, .inl ⟨rfl, nofun⟩⟩
  calls := ⟨nofun, List.nodup_nil, fun _ => trivial, nofun, nofun, nofun⟩

/-- An ioctl starts on an open file. -/
theorem MasterInv.start (h : MasterInv s) (hf : f ∈ s.filelist) (hc : c.file = some f)
    (hno : c.opening = none) (hholds : c.holds = false) : MasterInv (s.goOn t c) := by
  refine h.goOn (h.calls.goOn (.inr hc) (.of_listed hf (.inr hc) hno hholds) (.inr fun t' ho => ?_)
    (fun ho => by rw [hno] at ho; cases ho) hholds)
  exact ((h.calls.fits t').opens ho).2 hf

theorem MasterInv.run {new : Option ℕ} {ret : ℤ} (h : MasterInv s)
    (ha : (MasterAction.run t new ret).Allowed s) (hfresh : (s.call t).Fresh s) :
    MasterInv ((s.call t).run s t new ret) := by
  obtain ⟨hlocks, hnew⟩ := ha
  have hfits := h.calls.fits t
  -- what is left of the calls after a test of an ioctl
  have htest : ∀ {f c'}, (s.call t).file = some f → (s.call t).opening = none →
      c'.file = none ∨ c'.file = some f → c'.opening = none → c'.holds = false →
      MasterInv (s.goOn t c') := fun hf ho hfile hno hholds =>
    h.goOn (h.calls.test hf ho hfile hno hholds)
  have hopen : ∀ {f c'}, (s.call t).opening = some f → c'.file = some f → c'.Fits s →
      c'.holds = false → MasterInv (s.goOn t c') := fun ho hc hfits hholds =>
    h.goOn (h.calls.goOn (.inr hc) hfits (.inl (MasterCall.file_of_opening ho)) (fun _ => ho)
      hholds)
  cases hcall : s.call t with
  | done => exact h
  | openFirst f => exact h.openFirst hcall hnew
  | openCreate f =>
    rw [hcall] at hfits hopen
    show MasterInv (s.goOn t (ite _ _ _))
    split
    · exact hopen rfl rfl hfits rfl
    · exact hopen rfl rfl hfits rfl
  | openUndo f r =>
    rw [hcall] at hfits
    exact h.openUndo (by rw [hcall]; rfl) hfits.2.2
  | openSet f =>
    have hmaster := h.roles.masterIs (hcall ▸ hfits).1 (hcall ▸ hfits).2.2
    rw [hcall] at hfits hopen
    show MasterInv (ite _ _ _)
    split
    · exact h.openUndo (by rw [hcall]; rfl) hfits.2.2
    · exact hopen rfl rfl ⟨hfits.1, hfits.2.1, hmaster.minor ▸ hmaster.ne_none⟩ rfl
  | openList f => exact h.openList hcall
  | setIsMaster f | setMinor f | setOther f | setFile f | setNull f | setDiffers f
  | dropIsMaster f | dropMinor f =>
    rw [hcall] at htest
    show MasterInv (s.goOn t (ite _ _ _))
    split
    · exact htest rfl rfl (by simp [MasterCall.file]) rfl rfl
    · exact htest rfl rfl (by simp [MasterCall.file]) rfl rfl
  | setLock f =>
    rw [hcall] at hlocks hfresh
    exact h.setLocked hcall (hlocks rfl) hfresh
  | setHeld f => exact h.setReturn hcall
  | dropLock f =>
    rw [hcall] at hlocks hfresh
    exact h.dropLocked hcall (hlocks rfl) hfresh

theorem MasterInv.apply {a : MasterAction} (h : MasterInv s) (ha : a.Allowed s)
    (hfresh : a.Fresh s) : MasterInv (a.apply s) := by
  cases a with
  | «open» t f suser ret => exact h.openBegin ha.2
  | setmaster t f => exact h.start ha.2 rfl rfl rfl
  | dropmaster t f => exact h.start ha.2 rfl rfl rfl
  | run t new ret => exact h.run ha hfresh
  | release f => exact h.drmRelease ha.1 ha.2.2

theorem reach_masterInv (h : ReachWhile masterSystem (fun s a => a.Fresh s) s) : MasterInv s := by
  refine h.invariant (I := MasterInv) (fun s hs => ?_) fun s a s' hI hfresh hs => ?_
  · rw [show s = {} from hs]
    exact MasterInv.init
  · rw [hs.2]
    exact hI.apply hs.1 hfresh

/-- One file at most is master, the minor's master is that file's, and a master is there as long
as something refers to it. -/
structure MastersOk (s : MasterState) : Prop where
  one : ∀ f ∈ s.files, ∀ g ∈ s.files, (s.file f).isMaster = true → (s.file g).isMaster = true →
    f = g
  minor : s.minorMaster ≠ none ↔ ∃ f ∈ s.files, (s.file f).isMaster = true
  same : ∀ f ∈ s.files, (s.file f).isMaster = true → s.minorMaster = (s.file f).master
  count : ∀ m, s.masters.alive m = true → s.masters.count m =
    (s.files.filter fun f => (s.file f).master = some m).card +
      if s.minorMaster = some m then 1 else 0
  alive : ∀ m, s.masters.alive m = true ↔
    (∃ f ∈ s.files, (s.file f).master = some m) ∨ s.minorMaster = some m
  fault : s.masters.fault = false

/-- So it is in every run in which an ioctl's tests still hold when it has the mutex. -/
theorem masters_ok (s : MasterState) (h : ReachWhile masterSystem (fun s a => a.Fresh s) s) :
    MastersOk s := by
  obtain ⟨⟨hbal, hmaster⟩, -⟩ := reach_masterInv h
  have hroles : Roles s := ⟨hbal, hmaster⟩
  refine ⟨fun f hf g hg hfm hgm => ?_, ⟨fun hne => ?_, fun ⟨f, hf, hm⟩ => ?_⟩, fun f hf hm => ?_,
    hbal.count, fun m => ?_, hbal.fault⟩
  · exact ((hroles.masterIs hg hgm).file f hf).mp hfm
  · obtain ⟨f, hf⟩ := hmaster.resolve_left fun hno => hne hno.minor
    exact ⟨f, hf.mem, (hf.file f hf.mem).mpr rfl⟩
  · exact (hroles.masterIs hf hm).ne_none
  · exact (hroles.masterIs hf hm).minor
  · rw [hbal.alive m]
    unfold MasterState.refs
    rw [Nat.add_pos_iff_pos_or_pos, pointers_pos, points_pos]

/-- Allowed, and no release. -/
def MasterAction.Calls (s : MasterState) (a : MasterAction) : Prop :=
  a.Allowed s ∧ ∀ f, a ≠ .release f

instance (s : MasterState) : (a : MasterAction) → Decidable (a.Calls s)
  | .release f => isFalse fun h => h.2 f rfl
  | .open .. | .setmaster .. | .dropmaster .. =>
    decidable_of_iff (_ ∧ _) ⟨fun h => ⟨h, nofun⟩, And.left⟩
  | .run _ new _ =>
    decidable_of_iff (_ ∧ ∀ m ∈ new, _) ⟨fun h => ⟨h, nofun⟩, And.left⟩

instance (s : MasterState) : (c : MasterCall) → Decidable (c.Fresh s)
  | .setLock _ => inferInstanceAs (Decidable (_ = _))
  | .dropLock _ => inferInstanceAs (Decidable (_ = _))
  | .done _ | .openFirst _ | .openCreate _ | .openUndo _ _ | .openSet _ | .openList _
  | .setIsMaster _ | .setMinor _ | .setOther _ | .setFile _ | .setNull _ | .setDiffers _
  | .setHeld _ | .dropIsMaster _ | .dropMinor _ => inferInstanceAs (Decidable True)

instance (s : MasterState) : (a : MasterAction) → Decidable (a.Fresh s)
  | .run t _ _ => inferInstanceAs (Decidable ((s.call t).Fresh s))
  | .open .. | .setmaster .. | .dropmaster .. | .release .. => inferInstanceAs (Decidable True)

/-- Two files are opened, and the first one, which is master, drops that. -/
def openTwo : List MasterAction :=
  [.open 0 0 true 0, .run 0 (some 7) 0, .run 0 none 0, .run 0 none 0, .run 0 none 0,
    .open 1 1 true 0, .run 1 none 0, .run 1 none 0,
    .dropmaster 0 0, .run 0 none 0, .run 0 none 0, .run 0 none 0]

/-- Then the second one becomes master. -/
theorem masters_ok_two : MastersOk ((openTwo ++ MasterAction.setmaster 1 1 ::
    List.replicate 7 (.run 1 none 0)).foldl MasterAction.apply {}) :=
  masters_ok _ (ReachWhile.foldl (S := masterSystem)
    (fun s (a : MasterAction) => a.Calls s ∧ a.Fresh s) (fun _ _ h => ⟨h.2, h.1.1, rfl⟩) _
    (.init rfl) (by decide +kernel))

/-- Both ask for it at once, and both get it. -/
def setTogether : List MasterAction :=
  openTwo ++ [.setmaster 0 0, .setmaster 1 1] ++ List.replicate 5 (.run 0 none 0) ++
    List.replicate 7 (.run 1 none 0) ++ List.replicate 2 (.run 0 none 0)

theorem masters_two : ¬ ∀ s, Reach masterSystem s → MastersOk s := by
  intro h
  have hrun : Reach masterSystem (setTogether.foldl MasterAction.apply {}) :=
    ReachWhile.foldl (S := masterSystem) (fun s (a : MasterAction) => a.Calls s)
      (fun _ _ h => ⟨trivial, h.1, rfl⟩) _ (.init rfl) (by decide +kernel)
  exact absurd ((h _ hrun).one 0 (by decide +kernel) 1 (by decide +kernel) (by decide +kernel)
    (by decide +kernel)) (by decide)

end GfxDrm.Master
