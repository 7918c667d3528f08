import GfxDrm.Errno
import GfxDrm.Lib.Kref
import GfxDrm.Lib.Run

/-! The master of a minor (drm_open_helper and drm_release in drm_fops.c, the two ioctls in
drm_stub.c). A step of a call is one test outside `struct_mutex`, or what it does under the mutex
up to a callback of the driver. -/

namespace GfxDrm.Master
open Kref Run

structure DrmFile where
  master : Option ℕ := none
  isMaster : Bool := false
  authenticated : Bool := false
  deriving DecidableEq, Repr

/-- Where a call stands. -/
inductive MasterCall where
  | done (ret : ℤ)
  /-- drm_open_helper at the first `mutex_lock`, in `master_create`, at the `mutex_lock` after its
  failure or its success, and at the last one. -/
  | openFirst (f : ℕ)
  | openCreate (f : ℕ)
  | openUndo (f : ℕ) (ret : ℤ)
  | openSet (f : ℕ)
  | openList (f : ℕ)
  /-- drm_setmaster_ioctl before each of its reads, at `mutex_lock` and in `master_set`. -/
  | setIsMaster (f : ℕ)
  | setMinor (f : ℕ)
  | setOther (f : ℕ)
  | setFile (f : ℕ)
  | setNull (f : ℕ)
  | setDiffers (f : ℕ)
  | setLock (f : ℕ)
  | setHeld (f : ℕ)
  /-- drm_dropmaster_ioctl before its two reads and at `mutex_lock`. -/
  | dropIsMaster (f : ℕ)
  | dropMinor (f : ℕ)
  | dropLock (f : ℕ)
  deriving DecidableEq, Repr

namespace MasterCall

/-- The file a call works on. -/
def file : MasterCall → Option ℕ
  | done _ => none
  | openFirst f | openCreate f | openUndo f _ | openSet f | openList f | setIsMaster f
  | setMinor f | setOther f | setFile f | setNull f | setDiffers f | setLock f | setHeld f
  | dropIsMaster f | dropMinor f | dropLock f => some f

/-- The file it opens. -/
def opening : MasterCall → Option ℕ
  | openFirst f | openCreate f | openUndo f _ | openSet f | openList f => some f
  | _ => none

/-- At a `mutex_lock`. -/
def locks : MasterCall → Bool
  | openFirst _ | openUndo _ _ | openSet _ | openList _ | setLock _ | dropLock _ => true
  | _ => false

/-- Between two steps with `struct_mutex` held. -/
def holds : MasterCall → Bool
  | setHeld _ => true
  | _ => false

end MasterCall

/-- The files of one minor and their masters; `files` are the `drm_file`s there are, `filelist`
the ones that are open. -/
structure MasterState where
  masters : Counts ℕ := {}
  minorMaster : Option ℕ := none
  files : Finset ℕ := ∅
  file : ℕ → DrmFile := fun _ => {}
  filelist : List ℕ := []
  mutex : Bool := false
  call : ℕ → MasterCall := fun _ => .done 0

namespace MasterState

def setFile (s : MasterState) (f : ℕ) (g : DrmFile → DrmFile) : MasterState :=
  { s with file := Function.update s.file f (g (s.file f)) }

/-- The call of thread `t` goes on at `c`. -/
def goOn (s : MasterState) (t : ℕ) (c : MasterCall) : MasterState :=
  { s with call := Function.update s.call t c }

/-- drm_master_put of `minor->master`. -/
def putMinor (s : MasterState) : MasterState :=
  { s with masters := s.masters.putPtr s.minorMaster, minorMaster := none }

/-- drm_master_put of `file_priv->master`. -/
def putFile (s : MasterState) (f : ℕ) : MasterState :=
  { s with masters := s.masters.putPtr (s.file f).master }.setFile f fun p =>
    { p with master := none }

/-- `kfree` of a `drm_file`. -/
def freeFile (s : MasterState) (f : ℕ) : MasterState := { s with files := s.files.erase f }

/-- `minor->master = drm_master_get(file->master)`. -/
def getMinor (s : MasterState) (f : ℕ) : MasterState :=
  match (s.file f).master with
  | none => { s with masters := { s.masters with fault := true } }
  | some m => { s with masters := s.masters.get m, minorMaster := some m }

end MasterState

/-- drm_open_helper up to its first `mutex_lock`; `ret` is what `driver->open` returns. -/
def openBegin (s : MasterState) (t f : ℕ) (suser : Bool) (ret : ℤ) : MasterState :=
  if ret < 0 then s.goOn t (.done ret)
  else
    { s.setFile f fun _ => { authenticated := suser } with
      files := insert f s.files }.goOn t (.openFirst f)

/-- "If there is no current master make this fd it". `new` is what `kzalloc` returns. -/
def openFirst (s : MasterState) (t f : ℕ) (new : Option ℕ) : MasterState :=
  match s.minorMaster with
  | none =>
    match new with
    | none => (s.freeFile f).goOn t (.done Errno.eNomem)
    | some m =>
      { s.setFile f fun _ => { master := some m, isMaster := true, authenticated := true } with
        masters := (s.masters.new m).get m, minorMaster := some m }.goOn t (.openCreate f)
  | some m =>
    { s.setFile f fun p => { p with master := some m } with
      masters := s.masters.get m }.goOn t (.openList f)

/-- "Drop both references if this fails". -/
def openUndo (s : MasterState) (t f : ℕ) (ret : ℤ) : MasterState :=
  ((s.putMinor.putFile f).freeFile f).goOn t (.done ret)

/-- drm_setmaster_ioctl once it has the mutex. -/
def setLocked (s : MasterState) (t f : ℕ) : MasterState :=
  { (s.getMinor f).setFile f fun p => { p with isMaster := true } with mutex := true }.goOn t
    (.setHeld f)

/-- Its end; `ret` is what `master_set` returns. -/
def setReturn (s : MasterState) (t f : ℕ) (ret : ℤ) : MasterState :=
  { (if ret = 0 then s else (s.setFile f fun p => { p with isMaster := false }).putMinor) with
    mutex := false }.goOn t (.done 0)

/-- drm_dropmaster_ioctl once it has the mutex. -/
def dropLocked (s : MasterState) (t f : ℕ) : MasterState :=
  (s.putMinor.setFile f fun p => { p with isMaster := false }).goOn t (.done 0)

/-- The others that share the master of a file lose their authentication. -/
def unauthenticate (s : MasterState) (f : ℕ) : MasterState :=
  { s with
    file := fun g =>
      if g ∈ s.filelist ∧ (s.file g).master = (s.file f).master ∧ g ≠ f then
        { s.file g with authenticated := false }
      else s.file g }

/-- What drm_release does where the file is master. -/
def releaseMaster (s : MasterState) (f : ℕ) : MasterState :=
  if (s.file f).isMaster then
    let s := unauthenticate s f
    if s.minorMaster = (s.file f).master then s.putMinor else s
  else s

/-- drm_release, whose other parts touch no master. -/
def drmRelease (s : MasterState) (f : ℕ) : MasterState :=
  { ((releaseMaster s f).putFile f).setFile f fun p => { p with isMaster := false } with
    filelist := s.filelist.erase f }.freeFile f

/-- The next step of the call of thread `t`; `new` and `ret` are what the allocator and the
driver return in it. -/
def MasterCall.run (s : MasterState) (t : ℕ) (new : Option ℕ) (ret : ℤ) :
    MasterCall → MasterState
  | done _ => s
  | openFirst f => Master.openFirst s t f new
  | openCreate f => s.goOn t (if ret ≠ 0 then openUndo f ret else openSet f)
  | openUndo f ret => Master.openUndo s t f ret
  | openSet f => if ret ≠ 0 then Master.openUndo s t f ret else s.goOn t (openList f)
  | openList f => { s with filelist := f :: s.filelist }.goOn t (done 0)
  | setIsMaster f => s.goOn t (if (s.file f).isMaster then done 0 else setMinor f)
  | setMinor f => s.goOn t (if s.minorMaster ≠ none then setOther f else setFile f)
  | setOther f =>
    s.goOn t (if s.minorMaster ≠ (s.file f).master then done Errno.eInval else setFile f)
  | setFile f => s.goOn t (if (s.file f).master = none then done Errno.eInval else setNull f)
  | setNull f => s.goOn t (if s.minorMaster = none then setDiffers f else done 0)
  | setDiffers f =>
    s.goOn t (if s.minorMaster ≠ (s.file f).master then setLock f else done 0)
  | setLock f => setLocked s t f
  | setHeld f => setReturn s t f ret
  | dropIsMaster f => s.goOn t (if (s.file f).isMaster then dropMinor f else done Errno.eInval)
  | dropMinor f => s.goOn t (if s.minorMaster = none then done Errno.eInval else dropLock f)
  | dropLock f => dropLocked s t f

inductive MasterAction where
  | open (t f : ℕ) (suser : Bool) (ret : ℤ)
  | setmaster (t f : ℕ)
  | dropmaster (t f : ℕ)
  | run (t : ℕ) (new : Option ℕ) (ret : ℤ)
  | release (f : ℕ)
  deriving DecidableEq, Repr

/-- A thread runs one call at a time, a call that locks waits for the mutex, and the allocator
returns what is free. A file is used once it is open, and released when no call uses it. -/
def MasterAction.Allowed (s : MasterState) : MasterAction → Prop
  | .open t f _ _ => (s.call t).file = none ∧ f ∉ s.files
  | .setmaster t f => (s.call t).file = none ∧ f ∈ s.filelist
  | .dropmaster t f => (s.call t).file = none ∧ f ∈ s.filelist
  | .run t new _ => ((s.call t).locks = true → s.mutex = false) ∧
    ∀ m ∈ new, s.masters.alive m = false
  | .release f => f ∈ s.filelist ∧ s.mutex = false ∧ ∀ t, (s.call t).file ≠ some f

def MasterAction.apply (s : MasterState) : MasterAction → MasterState
  | .open t f suser ret => openBegin s t f suser ret
  | .setmaster t f => s.goOn t (.setIsMaster f)
  | .dropmaster t f => s.goOn t (.dropIsMaster f)
  | .run t new ret => (s.call t).run s t new ret
  | .release f => drmRelease s f

def masterSystem : System MasterState MasterAction where
  init s := s = {}
  step s a s' := a.Allowed s ∧ s' = a.apply s

/-- What an ioctl has found out before it took the mutex still holds when it has it. -/
def MasterCall.Fresh (s : MasterState) : MasterCall → Prop
  | setLock _ => s.minorMaster = none
  | dropLock f => (s.file f).isMaster = true
  | _ => True

def MasterAction.Fresh (s : MasterState) : MasterAction → Prop
  | .run t _ _ => (s.call t).Fresh s
  | _ => True

/-! Who is master, and who refers to which master. -/

/-- The references to a master: the files that point to it, and the minor. -/
def MasterState.refs (s : MasterState) (m : ℕ) : ℕ :=
  pointers s.files (fun f => (s.file f).master) m + points s.minorMaster m

/-- Nobody is master. -/
structure NoMaster (s : MasterState) : Prop where
  minor : s.minorMaster = none
  file : ∀ g ∈ s.files, (s.file g).isMaster = false

/-- `f` is master and nobody else. -/
structure MasterIs (s : MasterState) (f : ℕ) : Prop where
  mem : f ∈ s.files
  minor : s.minorMaster = (s.file f).master
  ne_none : s.minorMaster ≠ none
  file : ∀ g ∈ s.files, (s.file g).isMaster = true ↔ g = f

/-- What holds of the masters whenever nobody is between two accesses. -/
structure Roles (s : MasterState) : Prop where
  balanced : Balanced s.masters s.refs
  master : NoMaster s ∨ ∃ f, MasterIs s f

variable {s s' : MasterState} {t f g : ℕ} {c : MasterCall}

namespace Roles

theorem noMaster (h : Roles s) (hm : s.minorMaster = none) : NoMaster s := by
  rcases h.master with h | ⟨f, h⟩
  · exact h
  · exact absurd hm h.ne_none

theorem masterIs (h : Roles s) (hf : f ∈ s.files) (hm : (s.file f).isMaster = true) :
    MasterIs s f := by
  rcases h.master with h | ⟨g, h⟩
  · rw [h.file f hf] at hm
    cases hm
  · rwa [(h.file f hf).mp hm]

end Roles

/-! ### The references -/

theorem putMinor_refs (m : ℕ) : s.refs m = s.putMinor.refs m + points s.minorMaster m := rfl

/-- One file changes. -/
theorem pointers_file (hf : f ∈ s.files) (v : DrmFile) (m : ℕ) :
    pointers s.files (fun g => (Function.update s.file f v g).master) m +
        points (s.file f).master m =
      pointers s.files (fun g => (s.file g).master) m + points v.master m := by
  rw [← pointers_update (p := fun g => (s.file g).master) hf]
  refine congrArg (· + points (s.file f).master m) (pointers_congr (fun g _ => ?_) m)
  by_cases hg : g = f
  · rw [hg, Function.update_self, Function.update_self]
  · rw [Function.update_of_ne hg, Function.update_of_ne hg]

theorem putFile_refs (hf : f ∈ s.files) (m : ℕ) :
    s.refs m = (s.putFile f).refs m + points (s.file f).master m := by
  have h := pointers_file hf ⟨none, (s.file f).isMaster, (s.file f).authenticated⟩ m
  rw [points_none] at h
  unfold MasterState.refs MasterState.putFile MasterState.setFile
  dsimp only
  omega

theorem freeFile_refs (hf : f ∈ s.files) (hm : (s.file f).master = none) (m : ℕ) :
    (s.freeFile f).refs m = s.refs m := by
  have h := pointers_erase (p := fun g => (s.file g).master) hf m
  simp only [hm, points_none, Nat.add_zero] at h
  unfold MasterState.refs MasterState.freeFile
  rw [h]

/-- The minor drops its master. -/
theorem balanced_putMinor (h : Balanced s.masters s.refs) (hm : s.minorMaster ≠ none) :
    Balanced s.putMinor.masters s.putMinor.refs :=
  h.putPtr hm putMinor_refs

theorem balanced_putFile (h : Balanced s.masters s.refs) (hf : f ∈ s.files)
    (hm : (s.file f).master ≠ none) : Balanced (s.putFile f).masters (s.putFile f).refs :=
  h.putPtr hm (putFile_refs hf)

/-- A file drops its master and is freed. -/
theorem balanced_drop (h : Balanced s.masters s.refs) (hf : f ∈ s.files)
    (hm : (s.file f).master ≠ none) :
    Balanced ((s.putFile f).freeFile f).masters ((s.putFile f).freeFile f).refs := by
  refine (balanced_putFile h hf hm).congr (freeFile_refs hf ?_)
  show (Function.update s.file f _ f).master = none
  rw [Function.update_self]

/-! ### Changes of roles -/

theorem setFile_ne {p : DrmFile → DrmFile} (h : g ≠ f) : (s.setFile f p).file g = s.file g :=
  Function.update_of_ne h ..

theorem setFile_self (p : DrmFile → DrmFile) : (s.setFile f p).file f = p (s.file f) :=
  Function.update_self ..

/-- The fields of a file that say whose master it is. -/
def DrmFile.role (p : DrmFile) : Option ℕ × Bool := (p.master, p.isMaster)

/-- Nothing has changed that has to do with masters. -/
structure SameRoles (s s' : MasterState) : Prop where
  masters : s'.masters = s.masters
  minor : s'.minorMaster = s.minorMaster
  files : s'.files = s.files
  role : ∀ f ∈ s.files, (s'.file f).role = (s.file f).role

theorem SameRoles.fields (h : SameRoles s s') (hf : f ∈ s.files) :
    (s'.file f).master = (s.file f).master ∧ (s'.file f).isMaster = (s.file f).isMaster := by
  simpa only [DrmFile.role, Prod.mk.injEq] using h.role f hf

theorem SameRoles.refs (h : SameRoles s s') (m : ℕ) : s'.refs m = s.refs m := by
  unfold MasterState.refs
  rw [h.files, h.minor, pointers_congr fun f hf => (h.fields hf).1]

theorem MasterIs.same (h : MasterIs s f) (hs : SameRoles s s') : MasterIs s' f where
  mem := hs.files ▸ h.mem
  minor := by rw [hs.minor, (hs.fields h.mem).1, h.minor]
  ne_none := hs.minor ▸ h.ne_none
  file g hg := by
    rw [hs.files] at hg
    rw [(hs.fields hg).2, h.file g hg]

theorem Roles.same (h : Roles s) (hs : SameRoles s s') : Roles s' where
  balanced := by
    rw [hs.masters]
    exact h.balanced.congr hs.refs
  master := by
    rcases h.master with hno | ⟨f, hf⟩
    · refine .inl ⟨hs.minor.trans hno.minor, fun g hg => ?_⟩
      rw [hs.files] at hg
      rw [(hs.fields hg).2, hno.file g hg]
    · exact .inr ⟨f, hf.same hs⟩

theorem sameRoles_goOn (s : MasterState) (t : ℕ) (c : MasterCall) : SameRoles s (s.goOn t c) :=
  ⟨rfl, rfl, rfl, fun _ _ => rfl⟩

/-- A new file has no master and is none. -/
theorem Roles.newFile (h : Roles s) (hf : f ∉ s.files) (suser : Bool) :
    Roles { s.setFile f fun _ => { authenticated := suser } with files := insert f s.files } where
  balanced := by
    refine h.balanced.congr fun m => ?_
    unfold MasterState.refs
    rw [pointers_insert hf, setFile_self]
    refine congrArg (· + _) (pointers_congr (fun g hg => ?_) m)
    rw [setFile_ne (ne_of_mem_of_not_mem hg hf)]
  master := by
    have hother : ∀ g ∈ s.files, (s.setFile f fun _ => { authenticated := suser }).file g =
        s.file g := fun g hg => setFile_ne (ne_of_mem_of_not_mem hg hf)
    have hself := setFile_self (s := s) (f := f) fun _ => { authenticated := suser }
    rcases h.master with hno | ⟨k, hk⟩
    · refine .inl ⟨hno.minor, fun g hg => ?_⟩
      rcases Finset.mem_insert.mp hg with rfl | hg
      · exact congrArg DrmFile.isMaster hself
      · exact (congrArg DrmFile.isMaster (hother g hg)).trans (hno.file g hg)
    · refine .inr ⟨k, Finset.mem_insert_of_mem hk.mem, ?_, hk.ne_none, fun g hg => ?_⟩
      · exact hk.minor.trans (congrArg DrmFile.master (hother k hk.mem)).symm
      · rcases Finset.mem_insert.mp hg with rfl | hg
        · rw [congrArg DrmFile.isMaster hself]
          simp only [Bool.false_eq_true, false_iff]
          rintro rfl
          exact hf hk.mem
        · rw [congrArg DrmFile.isMaster (hother g hg)]
          exact hk.file g hg

/-- A file that nobody points to any longer may go. -/
theorem NoMaster.freeFile (h : NoMaster s) (f : ℕ) : NoMaster (s.freeFile f) :=
  ⟨h.minor, fun g hg => h.file g (Finset.mem_of_mem_erase hg)⟩

theorem MasterIs.freeFile (h : MasterIs s g) (hf : g ≠ f) : MasterIs (s.freeFile f) g :=
  ⟨Finset.mem_erase.mpr ⟨hf, h.mem⟩, h.minor, h.ne_none,
    fun k hk => h.file k (Finset.mem_of_mem_erase hk)⟩

/-- A file without a master is freed. -/
theorem Roles.freeFile (h : Roles s) (hf : f ∈ s.files) (hm : (s.file f).master = none) :
    Roles (s.freeFile f) where
  balanced := h.balanced.congr (freeFile_refs hf hm)
  master := by
    rcases h.master with hno | ⟨g, hg⟩
    · exact .inl (hno.freeFile f)
    · refine .inr ⟨g, hg.freeFile ?_⟩
      rintro rfl
      exact hg.ne_none (hg.minor.trans hm)

/-- A file makes itself master. -/
theorem MasterIs.of_noMaster (h : NoMaster s) (hf : f ∈ s.files)
    (hfiles : s'.files = s.files) (hself : (s'.file f).isMaster = true)
    (hother : ∀ g, g ≠ f → s'.file g = s.file g) (hminor : s'.minorMaster = (s'.file f).master)
    (hne : s'.minorMaster ≠ none) : MasterIs s' f := by
  refine ⟨hfiles ▸ hf, hminor, hne, fun g hg => ?_⟩
  by_cases hgf : g = f
  · simp only [hgf, hself]
  · rw [hother g hgf, h.file g (hfiles ▸ hg)]
    simp [hgf]

theorem balanced_newMaster (h : Balanced s.masters s.refs) (hf : f ∈ s.files)
    (hm : (s.file f).master = none) (hminor : s.minorMaster = none) {m : ℕ}
    (hnew : s.masters.alive m = false) (v : DrmFile) (hv : v.master = some m) :
    Balanced ((s.masters.new m).get m)
      (MasterState.refs { s with file := Function.update s.file f v, minorMaster := some m }) := by
  refine (h.new hnew fun x => rfl).get (by simp) fun x => ?_
  have hset := pointers_file hf v x
  rw [hm, points_none, hv] at hset
  unfold MasterState.refs
  dsimp only
  rw [hminor, points_none]
  omega

/-- A file shares the master there is. -/
theorem balanced_share (h : Balanced s.masters s.refs) (hf : f ∈ s.files)
    (hm : (s.file f).master = none) {m : ℕ} (hminor : s.minorMaster = some m) (v : DrmFile)
    (hv : v.master = some m) :
    Balanced (s.masters.get m)
      (MasterState.refs { s with file := Function.update s.file f v }) := by
  refine h.get ?_ fun x => ?_
  · unfold MasterState.refs
    rw [hminor, points_self]
    omega
  · have hset := pointers_file hf v x
    rw [hm, points_none, hv] at hset
    unfold MasterState.refs
    dsimp only
    omega

/-- The minor takes the master of a file. -/
theorem balanced_getMinor (h : Balanced s.masters s.refs) (hf : f ∈ s.files) {m : ℕ}
    (hm : (s.file f).master = some m) (hminor : s.minorMaster = none) :
    Balanced (s.masters.get m) (MasterState.refs { s with minorMaster := some m }) := by
  refine h.get ?_ fun x => ?_
  · exact Nat.add_pos_left (pointers_pos.mpr ⟨f, hf, hm⟩) _
  · unfold MasterState.refs
    rw [hminor]
    rfl

/-- A file that is not master, or whose minor has none any longer, drops its master and goes. -/
theorem roles_drop (h : Balanced s.masters s.refs) (hf : f ∈ s.files)
    (hm : (s.file f).master ≠ none)
    (hrest : (s.minorMaster = none ∧ ∀ g ∈ s.files, g ≠ f → (s.file g).isMaster = false) ∨
      ∃ g, g ≠ f ∧ MasterIs s g) : Roles ((s.putFile f).freeFile f) := by
  refine ⟨balanced_drop h hf hm, ?_⟩
  have hother : ∀ g, g ≠ f → ((s.putFile f).freeFile f).file g = s.file g := by
    intro g hg
    exact Function.update_of_ne hg ..
  rcases hrest with ⟨hminor, hno⟩ | ⟨g, hgf, hg⟩
  · refine .inl ⟨hminor, fun g hg => ?_⟩
    have hgf := Finset.ne_of_mem_erase hg
    rw [hother g hgf]
    exact hno g (Finset.mem_of_mem_erase hg) hgf
  · refine .inr ⟨g, Finset.mem_erase.mpr ⟨hgf, hg.mem⟩, ?_, hg.ne_none, fun k hk => ?_⟩
    · rw [hother g hgf]
      exact hg.minor
    · rw [hother k (Finset.ne_of_mem_erase hk)]
      exact hg.file k (Finset.mem_of_mem_erase hk)

/-- The master drops both its references and goes. -/
theorem Roles.leave (h : Roles s) (hf : MasterIs s f) :
    Roles ((s.putMinor.putFile f).freeFile f) := by
  refine roles_drop (balanced_putMinor h.balanced hf.ne_none) hf.mem (hf.minor ▸ hf.ne_none)
    (.inl ⟨rfl, fun g hg hgf => ?_⟩)
  exact Bool.eq_false_iff.mpr fun hm => hgf ((hf.file g hg).mp hm)

/-- The master resigns. -/
theorem Roles.resign (h : Roles s) (hf : MasterIs s f) :
    Roles (s.putMinor.setFile f fun p => { p with isMaster := false }) where
  balanced := by
    refine (balanced_putMinor h.balanced hf.ne_none).congr fun m => ?_
    have hset := pointers_file hf.mem
      ⟨(s.file f).master, false, (s.file f).authenticated⟩ m
    dsimp only at hset
    unfold MasterState.refs MasterState.setFile MasterState.putMinor
    dsimp only
    omega
  master := by
    refine .inl ⟨rfl, fun g hg => ?_⟩
    by_cases hgf : g = f
    · rw [hgf, setFile_self]
    · rw [setFile_ne hgf]
      exact Bool.eq_false_iff.mpr fun hm => hgf ((hf.file g hg).mp hm)

end GfxDrm.Master
