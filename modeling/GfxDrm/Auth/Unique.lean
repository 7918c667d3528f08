import GfxDrm.Errno
import GfxDrm.Lib.Pool
import GfxDrm.Lib.Run
import Mathlib.Data.List.Nodup

/-! Magic numbers of open files (drm_auth.c, drm_release in drm_fops.c). A step of a running
call is one section of struct_mutex, one compare-and-set or one field access. -/

namespace GfxDrm.Auth
open Pool Run

abbrev Magic := BitVec 32

def hashSize : Magic := 16

def drmHashMagic (magic : Magic) : Magic := magic &&& (hashSize - 1)

structure MagicEntry where
  magic : Magic
  priv : ℕ
  deriving DecidableEq, Repr

/-- `opened` until drm_release is called, `freed` from its `kfree` on. -/
structure AuthFile where
  master : ℕ := 0
  isMaster : Bool := false
  authenticated : Bool := false
  magic : Magic := 0
  opened : Bool := false
  freed : Bool := false
  deriving DecidableEq, Repr

/-- Where a running call on `file` stands. -/
inductive AuthCall
  /-- drm_getmagic: the test of `file->magic`, and the read of one that is there. -/
  | getTest (file : ℕ)
  | getKnown (file : ℕ)
  /-- The read of `sequence` and the compare-and-set on it. -/
  | seqRead (file : ℕ)
  | seqCas (file : ℕ) (old : Magic)
  /-- The loop test; `won` tells whether the compare-and-set went through. -/
  | find (file : ℕ) (magic : Magic) (won : Bool)
  | setMagic (file : ℕ) (magic : Magic)
  | addMagic (file : ℕ) (magic : Magic)
  /-- drm_authmagic: the search, the write to the file it found, drm_remove_magic. -/
  | authFind (file : ℕ) (magic : Magic)
  | authSet (file : ℕ) (magic : Magic) (found : ℕ)
  | authRemove (file : ℕ) (magic : Magic)
  /-- drm_release: the test of the magic, drm_remove_magic, the last section. -/
  | releaseTest (file : ℕ)
  | releaseRemove (file : ℕ) (magic : Magic)
  | releaseUnlink (file : ℕ)
  deriving DecidableEq, Repr

def AuthCall.file : AuthCall → ℕ
  | getTest f | getKnown f | seqRead f | seqCas f _ | find f _ _ | setMagic f _ | addMagic f _
  | authFind f _ | authSet f _ _ | authRemove f _ | releaseTest f | releaseRemove f _
  | releaseUnlink f => f

/-- A write of drm_authmagic to the file it found. -/
structure Grant where
  magic : Magic
  file : ℕ
  opened : Bool
  deriving DecidableEq, Repr

/-- `handed` are the magics drm_getmagic gave out, and to which file. -/
structure AuthState where
  sequence : Magic := 0
  files : List AuthFile := []
  magiclist : ℕ → Magic → List MagicEntry := fun _ _ => []
  calls : List AuthCall := []
  handed : List (ℕ × Magic) := []
  grants : List Grant := []

namespace AuthState

def file (s : AuthState) (f : ℕ) : AuthFile := s.files.getD f {}
def magic (s : AuthState) (f : ℕ) : Magic := (s.file f).magic

def setFile (s : AuthState) (f : ℕ) (g : AuthFile → AuthFile) : AuthState :=
  { s with files := s.files.modify f g }

def setCall (s : AuthState) (i : ℕ) (c : Option AuthCall) : AuthState :=
  { s with calls := moveOn s.calls i c }

def bucket (s : AuthState) (master : ℕ) (magic : Magic) : List MagicEntry :=
  s.magiclist master (drmHashMagic magic)

def setBucket (s : AuthState) (master : ℕ) (magic : Magic) (l : List MagicEntry) : AuthState :=
  { s with
    magiclist := Function.update s.magiclist master
      (Function.update (s.magiclist master) (drmHashMagic magic) l) }

end AuthState

def drmFindFile (s : AuthState) (master : ℕ) (magic : Magic) : Option ℕ :=
  ((s.bucket master magic).find? fun e => e.magic = magic).map MagicEntry.priv

/-- The section of drm_add_magic; the entry is allocated before. -/
def drmAddMagic (s : AuthState) (master priv : ℕ) (magic : Magic) : AuthState :=
  s.setBucket master magic (s.bucket master magic ++ [⟨magic, priv⟩])

def drmRemoveMagic (s : AuthState) (master : ℕ) (magic : Magic) : AuthState :=
  s.setBucket master magic ((s.bucket master magic).eraseP fun e => e.magic = magic)

/-- What the other files of a master lose with it. -/
def dropAuthenticated (files : List AuthFile) (master f : ℕ) : List AuthFile :=
  files.mapIdx fun g q =>
    if q.master = master ∧ g ≠ f ∧ q.freed = false then { q with authenticated := false } else q

/-- The last section of drm_release. -/
def unlinkFile (s : AuthState) (f : ℕ) : AuthState :=
  let p := s.file f
  let files := if p.isMaster then dropAuthenticated s.files p.master f else s.files
  { s with files }.setFile f fun q => { q with isMaster := false, freed := true }

/-- The next step of running call number `i`; `alloc` tells whether `drm_alloc` succeeds. -/
def AuthCall.run (s : AuthState) (i : ℕ) (alloc : Bool) : AuthCall → AuthState
  | getTest f => s.setCall i (some (if s.magic f ≠ 0 then getKnown f else seqRead f))
  | getKnown f => { s.setCall i none with handed := (f, s.magic f) :: s.handed }
  | seqRead f => s.setCall i (some (seqCas f s.sequence))
  | seqCas f old =>
    -- `continue` goes on to the loop test as well
    if s.sequence = old then
      { s with sequence := old + 1 }.setCall i (some (find f (old + 1) true))
    else s.setCall i (some (find f (old + 1) false))
  | find f magic _ =>
    s.setCall i (some (if (drmFindFile s (s.file f).master magic).isSome then seqRead f
      else setMagic f magic))
  | setMagic f magic =>
    { (s.setFile f fun p => { p with magic := magic }).setCall i (some (addMagic f magic)) with
      handed := (f, magic) :: s.handed }
  | addMagic f magic =>
    if alloc then (drmAddMagic s (s.file f).master f magic).setCall i none else s.setCall i none
  | authFind f magic =>
    match drmFindFile s (s.file f).master magic with
    | some found => s.setCall i (some (authSet f magic found))
    | none => s.setCall i none
  | authSet f magic found =>
    { (s.setFile found fun p => { p with authenticated := true }).setCall i
        (some (authRemove f magic)) with
      grants := ⟨magic, found, (s.file found).opened⟩ :: s.grants }
  | authRemove f magic => (drmRemoveMagic s (s.file f).master magic).setCall i none
  | releaseTest f =>
    s.setCall i (some (if s.magic f ≠ 0 then releaseRemove f (s.magic f) else releaseUnlink f))
  | releaseRemove f magic =>
    (drmRemoveMagic s (s.file f).master magic).setCall i (some (releaseUnlink f))
  | releaseUnlink f => (unlinkFile s f).setCall i none

inductive AuthEvent
  | openFile (master : ℕ) (isMaster authenticated : Bool)
  | getmagic (file : ℕ)
  | authmagic (file : ℕ) (magic : Magic)
  | release (file : ℕ)
  | run (i : ℕ) (alloc : Bool)
  deriving DecidableEq, Repr

/-- A file is released when no call on it runs any more. -/
def authStep (s : AuthState) : AuthEvent → Option AuthState
  | .openFile master isMaster authenticated =>
    some { s with files := s.files ++ [{ master, isMaster, authenticated, opened := true }] }
  | .getmagic f =>
    if (s.file f).opened then some { s with calls := .getTest f :: s.calls } else none
  | .authmagic f magic =>
    if (s.file f).opened then some { s with calls := .authFind f magic :: s.calls } else none
  | .release f =>
    if (s.file f).opened ∧ ¬ s.calls.any fun c => c.file = f then
      some { s.setFile f (fun p => { p with opened := false }) with
        calls := .releaseTest f :: s.calls }
    else none
  | .run i alloc => s.calls[i]?.map fun c => c.run s i alloc

abbrev authSystem : System AuthState AuthEvent := System.ofStep (fun s => s = {}) authStep

/-! No two files share a magic, and every entry of a magic list is its file's. -/

/-- The magic a call has for itself, before any file has it. -/
def AuthCall.claimed : AuthCall → Option Magic
  | find _ magic true | setMagic _ magic => some magic
  | _ => none

/-- The magic a call is about to enter in the list. -/
def AuthCall.adding : AuthCall → Option Magic
  | addMagic _ magic => some magic
  | _ => none

/-- A magic that was drawn from the sequence and given to nobody yet. -/
def Unused (s : AuthState) (magic : Magic) : Prop :=
  magic ≠ 0 ∧ magic ≤ s.sequence ∧ ∀ g, s.magic g ≠ magic

def Unlisted (s : AuthState) (p : MagicEntry → Prop) : Prop :=
  ∀ master hash, ∀ e ∈ s.magiclist master hash, ¬ p e

def AuthState.Closing (s : AuthState) (f : ℕ) : Prop :=
  f < s.files.length ∧ (s.file f).opened = false

/-- What is true while a call stands where it does. -/
def AuthCall.Ok (s : AuthState) : AuthCall → Prop
  | getTest f | seqRead f | seqCas f _ | find f _ false | authFind f _ | authRemove f _ =>
    (s.file f).opened = true
  | getKnown f => (s.file f).opened = true ∧ s.magic f ≠ 0
  | find f magic true | setMagic f magic => (s.file f).opened = true ∧ Unused s magic
  | addMagic f magic => (s.file f).opened = true ∧ magic ≠ 0 ∧ s.magic f = magic ∧
      Unlisted s fun e => e.magic = magic
  | authSet f magic found => (s.file f).opened = true ∧ magic ≠ 0 ∧ s.magic found = magic
  | releaseTest f => s.Closing f
  | releaseRemove f magic => s.Closing f ∧ magic ≠ 0 ∧ s.magic f = magic
  | releaseUnlink f => s.Closing f ∧ Unlisted s fun e => e.priv = f

/-- An entry names an open file by its own magic, and hangs where a search looks for it. -/
structure EntryOk (s : AuthState) (master : ℕ) (hash : Magic) (e : MagicEntry) : Prop where
  nonzero : e.magic ≠ 0
  own : s.magic e.priv = e.magic
  master : (s.file e.priv).master = master
  hash : drmHashMagic e.magic = hash
  alive : (s.file e.priv).freed = false

structure AuthInv (s : AuthState) : Prop where
  bounded : ∀ f, s.magic f ≤ s.sequence
  distinct : ∀ f g, s.magic f ≠ 0 → s.magic f = s.magic g → f = g
  claims : (s.calls.filterMap AuthCall.claimed).Nodup
  adds : (s.calls.filterMap AuthCall.adding).Nodup
  calls : ∀ c ∈ s.calls, c.Ok s
  entries : ∀ master hash, ∀ e ∈ s.magiclist master hash, EntryOk s master hash e
  once : ∀ master hash, ((s.magiclist master hash).map MagicEntry.magic).Nodup
  alive : ∀ f, (s.file f).opened = true → (s.file f).freed = false
  handed : ∀ x ∈ s.handed, x.2 ≠ 0 ∧ s.magic x.1 = x.2
  given : ∀ f, s.magic f ≠ 0 → (f, s.magic f) ∈ s.handed
  grants : ∀ g ∈ s.grants, g.magic ≠ 0 ∧ s.magic g.file = g.magic ∧ g.opened = true

/-- No other thread gets in between: the sequence does not wrap, a lost compare-and-set is
followed by a search that finds the magic, the file still has no magic when it gets one, and
the file that is authenticated is still open. -/
def AuthEvent.undisturbed (s : AuthState) : AuthEvent → Bool
  | .run i _ =>
    match s.calls[i]? with
    | some (.seqCas _ old) => decide (s.sequence ≠ old) || decide (old + 1 ≠ 0)
    | some (.find f magic false) => (drmFindFile s (s.file f).master magic).isSome
    | some (.setMagic f _) => decide (s.magic f = 0)
    | some (.authSet _ _ found) => (s.file found).opened
    | _ => true
  | _ => true

/-- The fields of a file that the lists depend on. -/
def AuthFile.core (p : AuthFile) : AuthFile := { p with isMaster := false, authenticated := false }

namespace AuthState

variable {s s' : AuthState} {f : ℕ}

theorem file_setFile (s : AuthState) (f : ℕ) (g : AuthFile → AuthFile) (h : ℕ) :
    (s.setFile f g).file h = if h = f ∧ f < s.files.length then g (s.file f) else s.file h := by
  simp only [file, setFile]
  by_cases hf : f < s.files.length
  · by_cases hh : h = f <;> simp [hh, hf, Ne.symm]
  · by_cases hh : f = h
    · subst hh
      simp [hf]
    · simp [hh, hf]

theorem lt_of_opened (h : (s.file f).opened = true) : f < s.files.length := by
  by_contra hf
  rw [file, List.getD_eq_getElem?_getD, List.getElem?_eq_none (by omega)] at h
  simp at h

theorem magic_of_core (h : (s'.file f).core = (s.file f).core) : s'.magic f = s.magic f :=
  (congrArg AuthFile.magic h :)

theorem opened_of_core (h : (s'.file f).core = (s.file f).core) :
    (s'.file f).opened = (s.file f).opened := (congrArg AuthFile.opened h :)

end AuthState
open AuthState

theorem AuthCall.Ok.mono {s s' : AuthState} {c : AuthCall} (h : c.Ok s)
    (hopened : (s'.file c.file).opened = (s.file c.file).opened)
    (hlen : s.files.length ≤ s'.files.length) (hmagic : ∀ f, s'.magic f = s.magic f)
    (hseq : s.sequence ≤ s'.sequence)
    (hlist : ∀ master hash, ∀ e ∈ s'.magiclist master hash, e ∈ s.magiclist master hash) :
    c.Ok s' := by
  have hunused : ∀ m, Unused s m → Unused s' m := fun m hm =>
    ⟨hm.1, BitVec.le_trans hm.2.1 hseq, fun g => by rw [hmagic]; exact hm.2.2 g⟩
  have hunlisted : ∀ p, Unlisted s p → Unlisted s' p := fun p hp M b e he =>
    hp M b e (hlist M b e he)
  cases c with
  | getTest f | seqRead f | seqCas f _ | authFind f _ | authRemove f _ => exact hopened.trans h
  | getKnown f => exact ⟨hopened.trans h.1, by rw [hmagic]; exact h.2⟩
  | find f m won =>
    cases won with
    | false => exact hopened.trans h
    | true => exact ⟨hopened.trans h.1, hunused m h.2⟩
  | setMagic f m => exact ⟨hopened.trans h.1, hunused m h.2⟩
  | addMagic f m => exact ⟨hopened.trans h.1, h.2.1, by rw [hmagic]; exact h.2.2.1,
      hunlisted _ h.2.2.2⟩
  | authSet f m g => exact ⟨hopened.trans h.1, h.2.1, by rw [hmagic]; exact h.2.2⟩
  | releaseTest f => exact ⟨h.1.trans_le hlen, hopened.trans h.2⟩
  | releaseRemove f m =>
    exact ⟨⟨h.1.1.trans_le hlen, hopened.trans h.1.2⟩, h.2.1, by rw [hmagic]; exact h.2.2⟩
  | releaseUnlink f => exact ⟨⟨h.1.1.trans_le hlen, hopened.trans h.1.2⟩, hunlisted _ h.2⟩

theorem AuthCall.Ok.file_lt {s : AuthState} {c : AuthCall} (h : c.Ok s) :
    c.file < s.files.length := by
  cases c with
  | getTest f | seqRead f | seqCas f _ | authFind f _ | authRemove f _ => exact lt_of_opened h
  | find f m won =>
    cases won with
    | false => exact lt_of_opened h
    | true => exact lt_of_opened h.1
  | getKnown f | setMagic f _ | addMagic f _ | authSet f _ _ => exact lt_of_opened h.1
  | releaseTest f => exact h.1
  | releaseRemove f _ | releaseUnlink f => exact h.1.1

theorem EntryOk.of_core {s s' : AuthState} {master : ℕ} {hash : Magic} {e : MagicEntry}
    (h : EntryOk s master hash e) (hcore : (s'.file e.priv).core = (s.file e.priv).core) :
    EntryOk s' master hash e :=
  ⟨h.nonzero, (magic_of_core hcore).trans h.own, (congrArg AuthFile.master hcore :).trans h.master,
    h.hash, (congrArg AuthFile.freed hcore :).trans h.alive⟩

namespace AuthInv

variable {s s' : AuthState} {i : ℕ} {c : AuthCall}

/-- A step that gives nobody a magic and lists none. -/
theorem keep (h : AuthInv s) (hp : s.calls[i]? = some c) {c' : Option AuthCall}
    (hc : s'.calls = moveOn s.calls i c') (hcore : ∀ f, (s'.file f).core = (s.file f).core)
    (hlen : s'.files.length = s.files.length) (hseq : s.sequence ≤ s'.sequence)
    (hlist : ∀ master hash, (s'.magiclist master hash).Sublist (s.magiclist master hash))
    (hok : ∀ d ∈ c', d.Ok s')
    (hclaim : ∀ d ∈ c', ∀ x, d.claimed = some x →
      c.claimed = some x ∨ ∀ v ∈ s.calls, v.claimed ≠ some x)
    (hadd : ∀ d ∈ c', d.adding = none)
    (hhanded : ∀ x ∈ s'.handed, x.2 ≠ 0 ∧ s.magic x.1 = x.2) (hsub : s.handed ⊆ s'.handed)
    (hgrants : ∀ g ∈ s'.grants, g.magic ≠ 0 ∧ s.magic g.file = g.magic ∧ g.opened = true) :
    AuthInv s' := by
  have hmagic : ∀ f, s'.magic f = s.magic f := fun f => magic_of_core (hcore f)
  refine ⟨fun f => ?_, fun f g => ?_, ?_, ?_, fun d hd => ?_, fun M b e he => ?_, fun M b => ?_,
    fun f hf => ?_, fun x hx => ?_, fun f hf => ?_, fun g hg => ?_⟩
  · rw [hmagic]
    exact BitVec.le_trans (h.bounded f) hseq
  · rw [hmagic, hmagic]
    exact h.distinct f g
  · rw [hc]
    exact nodup_filterMap_moveOn hp h.claims hclaim
  · rw [hc]
    exact nodup_filterMap_moveOn hp h.adds fun d hd x hx => by simp [hadd d hd] at hx
  · rw [hc, mem_moveOn_iff] at hd
    rcases hd with hd | hd
    · exact hok d hd
    · exact (h.calls d (mem_of_others hp hd)).mono (opened_of_core (hcore _)) hlen.ge hmagic hseq
        fun M b e he => (hlist M b).subset he
  · exact (h.entries M b e ((hlist M b).subset he)).of_core (hcore _)
  · exact (h.once M b).sublist ((hlist M b).map _)
  · rw [opened_of_core (hcore f)] at hf
    exact (congrArg AuthFile.freed (hcore f) :).trans (h.alive f hf)
  · rw [hmagic]
    exact hhanded x hx
  · rw [hmagic] at hf ⊢
    exact hsub (h.given f hf)
  · rw [hmagic]
    exact hgrants g hg

/-- A call moves on and nothing else changes. -/
theorem move (h : AuthInv s) (hp : s.calls[i]? = some c) {c' : Option AuthCall}
    (hok : ∀ d ∈ c', d.Ok s)
    (hclaim : ∀ d ∈ c', ∀ x, d.claimed = some x → c.claimed = some x)
    (hadd : ∀ d ∈ c', d.adding = none) : AuthInv (s.setCall i c') := by
  refine h.keep hp rfl (fun _ => rfl) rfl (BitVec.le_refl _) (fun _ _ => List.Sublist.refl _) ?_
    (fun d hd x hx => .inl (hclaim d hd x hx)) hadd h.handed (List.Subset.refl _) h.grants
  intro d hd
  exact (hok d hd).mono rfl le_rfl (fun _ => rfl) (BitVec.le_refl _) fun _ _ _ he => he

end AuthInv
end GfxDrm.Auth
