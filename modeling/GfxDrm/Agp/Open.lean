import GfxDrm.Agp.Defs
import GfxDrm.Lib.Traced

/-! The layered devices agpgart_open opens and agpgart_close closes. -/

namespace GfxDrm.Agp
open Account Traced Run

def maxInstnum : ℕ := 16

/-- The handle of the device of an instance. -/
inductive LdiHandle where
  | gart (i : ℕ)
  | master (i : ℕ)
  | target (i : ℕ)
  deriving DecidableEq, Repr

/-- What ldi_open_by_name returns. -/
inductive LdiOpen where
  | opened
  | enodev
  | error
  deriving DecidableEq

inductive MasterType where
  | isI810
  | isI830
  | isAgp
  | unsupported

inductive ChipType where
  | isIntel
  | isAmd
  | unsupported

/-- agp_registered_dev_t; `none` and no list are NULL. -/
structure RegisteredDev where
  arctype : ArcType := .unknown
  masterhdl : Option LdiHandle := none
  targethdl : Option LdiHandle := none
  cpugarts : List LdiHandle := []
  deriving DecidableEq

/-- The part of the info ioctls that agpgart_open looks at. -/
structure LayeredInfo where
  devid : ℕ
  aperbase : ℕ
  apersize : ℕ

/-- What the layered drivers and the allocator answer; an ioctl that fails answers `none` or
`false`. -/
structure LayeredAnswers where
  permitted : Bool := true
  gartOpen : ℕ → LdiOpen := fun _ => .enodev
  masterOpen : ℕ → Bool := fun _ => true
  targetOpen : ℕ → Bool := fun _ => true
  deviceDetect : Option MasterType := none
  chipDetect : Option ChipType := none
  masterInfo : Option LayeredInfo := none
  preallocSize : Bool := true
  targetInfo : Option LayeredInfo := none
  /-- The n-th alloc_gart_table returns this. -/
  allocGart : ℕ → ℤ := fun _ => 0
  setGttBase : Bool := true
  setGattAddr : Bool := true
  setGartAddr : LdiHandle → Bool := fun _ => true
  targetConfigure : Bool := true
  gartConfigure : LdiHandle → Bool := fun _ => true
  chipsetFlushSetup : Bool := true

/-! ### Opening and closing handles -/

/-- agp_master_regis_byname and agp_target_regis_byname: the first instance that opens. -/
def regisByname (handle : ℕ → LdiHandle) (opens : ℕ → Bool) :
    Traced (Entry LdiHandle) (Option LdiHandle) :=
  match (List.range maxInstnum).find? opens with
  | none => pure none
  | some i => do
    emit (.take (handle i))
    pure (some (handle i))

/-- agp_master_unregister and agp_target_unregister. -/
def unregister : Option LdiHandle → Traced (Entry LdiHandle) Unit
  | none => pure ()
  | some h => emit (.give h)

def amd64GartUnregister : List LdiHandle → Traced (Entry LdiHandle) Unit
  | [] => pure ()
  | h :: l => do
    emit (.give h)
    amd64GartUnregister l

/-- amd64_gart_regis_byname from the given instances on, with the handles it has. -/
def amd64GartRegis (opens : ℕ → LdiOpen) :
    List ℕ → List LdiHandle → Traced (Entry LdiHandle) (LdiOpen × List LdiHandle)
  | [], l => pure (if l.isEmpty then .enodev else .opened, l)
  | i :: is, l =>
    match opens i with
    | .enodev => amd64GartRegis opens is l
    | .error => do
      amd64GartUnregister l
      pure (.error, [])
    | .opened => do
      emit (.take (.gart i))
      amd64GartRegis opens is (.gart i :: l)

/-- What lyr_init takes the devices for, if they are no AMD64 system. -/
def LayeredAnswers.detect (o : LayeredAnswers) : Option ArcType :=
  match o.deviceDetect with
  | some .isI810 => some .igd810
  | some .isI830 => some .igd830
  | some .isAgp =>
    match o.chipDetect with
    | some .isIntel => some .intelAgp
    | _ => none
  | _ => none

/-- lyr_init from the master device on; `arctype` is what it ends up with. -/
def lyrInitDevices (o : LayeredAnswers) (garts : List LdiHandle) (arctype : Option ArcType) :
    Traced (Entry LdiHandle) (ℤ × RegisteredDev) := do
  let master ← regisByname .master o.masterOpen
  if master.isNone then
    amd64GartUnregister garts
    pure (-1, {})
  else
    let target ← regisByname .target o.targetOpen
    if target.isNone then
      unregister master
      amd64GartUnregister garts
      pure (-1, {})
    else
      match arctype with
      | some arctype =>
        pure (0, { arctype, masterhdl := master, targethdl := target, cpugarts := garts })
      | none =>
        unregister target
        unregister master
        amd64GartUnregister garts
        pure (-1, {})

def lyrInit (o : LayeredAnswers) : Traced (Entry LdiHandle) (ℤ × RegisteredDev) := do
  let (ret, garts) ← amd64GartRegis o.gartOpen (List.range maxInstnum) []
  match ret with
  | .enodev => lyrInitDevices o [] o.detect
  | .error => pure (-1, {})
  | .opened => lyrInitDevices o garts (some .amd64Agp)

def RegisteredDev.lyrEnd (d : RegisteredDev) : Traced (Entry LdiHandle) RegisteredDev :=
  match d.arctype with
  | .igd810 | .igd830 | .intelAgp => do
    unregister d.masterhdl
    unregister d.targethdl
    pure { d with masterhdl := none, targethdl := none }
  | .amd64Agp => do
    unregister d.masterhdl
    unregister d.targethdl
    amd64GartUnregister d.cpugarts
    pure { d with masterhdl := none, targethdl := none, cpugarts := [] }
  | .unknown => pure d

/-! ### Ioctls of the layered devices -/

/-- lyr_get_info. -/
def RegisteredDev.lyrGetInfo (d : RegisteredDev) (o : LayeredAnswers) : Option LayeredInfo := do
  let info ←
    match d.arctype with
    | .igd810 | .igd830 => if o.preallocSize then o.masterInfo else none
    | .intelAgp | .amd64Agp => do
      let master ← o.masterInfo
      let target ← o.targetInfo
      pure { target with devid := master.devid }
    | .unknown => none
  if aperProgrammed info.aperbase (info.apersize % 2 ^ 32) then
    some { info with apersize := info.apersize % 2 ^ 32 }
  else none

def RegisteredDev.lyrSetGartAddr (d : RegisteredDev) (o : LayeredAnswers) : Bool :=
  match d.arctype with
  | .igd810 => o.setGttBase
  | .intelAgp => o.setGattAddr
  | .amd64Agp => d.cpugarts.all o.setGartAddr
  | .igd830 | .unknown => false

def RegisteredDev.lyrConfigDevices (d : RegisteredDev) (o : LayeredAnswers) : Bool :=
  match d.arctype with
  | .igd810 | .igd830 => true
  | .intelAgp => o.targetConfigure
  | .amd64Agp => d.cpugarts.all o.gartConfigure
  | .unknown => false

/-- The chipsets that are `IS_INTEL_915`, `IS_INTEL_965`, `IS_INTEL_X33` or `IS_INTEL_G4X`. -/
def flushedChipsets : List ℕ :=
  [0x25828086, 0x25928086, 0x27728086, 0x27a28086, 0x27ae8086,
    0x29728086, 0x29828086, 0x29928086, 0x29a28086, 0x2a028086, 0x2a128086, 0x2a428086,
    0x29b28086, 0x29c28086, 0x29d28086,
    0x2e028086, 0x2e128086, 0x2e228086, 0x2e328086, 0x00428086, 0x00468086, 0x2e428086]

/-! ### The driver -/

/-- The soft state, with the handles that are open. -/
structure OpenState where
  opened : ℕ := 0
  devreg : RegisteredDev := {}
  ldi : Multiset LdiHandle := 0

namespace OpenState

/-- The way out of agpgart_open after lyr_init. -/
def failOpen (s : OpenState) (rc : ℤ) : Traced (Entry LdiHandle) (ℤ × OpenState) := do
  let devreg ← s.devreg.lyrEnd
  pure (rc, { s with devreg })

/-- agpgart_open from lyr_get_info on. -/
def afterInit (s : OpenState) (o : LayeredAnswers) : Traced (Entry LdiHandle) (ℤ × OpenState) :=
  match s.devreg.lyrGetInfo o with
  | none => s.failOpen (-Errno.eIo)
  | some info =>
    if s.devreg.arctype = .igd830 then
      let s := { s with opened := s.opened + 1 }
      if !s.devreg.lyrConfigDevices o then s.failOpen (-Errno.eIo)
      else if info.devid ∈ flushedChipsets ∧ o.chipsetFlushSetup = false then
        s.failOpen (-Errno.eIo)
      else pure (0, s)
    else
      let apersize :=
        if o.allocGart 0 = 0 then info.apersize else halveAper o.allocGart 32 1 info.apersize
      if o.allocGart 0 ≠ 0 ∧ apersize < 4 then s.failOpen (-Errno.eAgain)
      else if !s.devreg.lyrSetGartAddr o then s.failOpen (-Errno.eIo)
      else if !s.devreg.lyrConfigDevices o then s.failOpen (-Errno.eIo)
      else pure (0, { s with opened := s.opened + 1 })

/-- agpgart_open where the driver is not open yet. -/
def firstOpen (s : OpenState) (o : LayeredAnswers) : Traced (Entry LdiHandle) (ℤ × OpenState) := do
  let (ret, devreg) ← lyrInit o
  let s := { s with devreg }
  if ret ≠ 0 then pure (-Errno.eAgain, s) else s.afterInit o

/-- agpgart_open. -/
def agpgartOpen (s : OpenState) (o : LayeredAnswers) : Traced (Entry LdiHandle) (ℤ × OpenState) :=
  if !o.permitted then pure (-Errno.ePerm, s)
  else if s.opened ≠ 0 then pure (0, { s with opened := s.opened + 1 })
  else s.firstOpen o

/-- agpgart_close; `unconfig` is whether lyr_unconfig_devices works. -/
def agpgartClose (s : OpenState) (unconfig : Bool) : Traced (Entry LdiHandle) (ℤ × OpenState) :=
  if !unconfig then pure (-Errno.eIo, s)
  else do
    let devreg ← s.devreg.lyrEnd
    pure (0, { s with devreg, opened := 0 })

/-- The state with the handles that are open after the call; none if it closes what is not open. -/
def settle (s : OpenState) (call : Traced (Entry LdiHandle) (ℤ × OpenState)) : Option OpenState :=
  (held call.events s.ldi).map fun ldi => { call.val.2 with ldi }

end OpenState

inductive OpenAction where
  | open (o : LayeredAnswers)
  | close (unconfig : Bool)

/-- The system calls agpgart_close only for what is open. -/
def OpenState.step (s : OpenState) : OpenAction → Option OpenState
  | .open o => s.settle (s.agpgartOpen o)
  | .close unconfig => if s.opened ≠ 0 then s.settle (s.agpgartClose unconfig) else none

/-- The runs after agpgart_attach. -/
def openSystem : System OpenState OpenAction := .ofStep (fun s => s = {}) OpenState.step

/-! ### The handles of the registered devices -/

def RegisteredDev.handles (d : RegisteredDev) : Multiset LdiHandle :=
  (d.masterhdl.toList ++ (d.targethdl.toList ++ d.cpugarts) : List LdiHandle)

/-- The handles are those lyr_end knows of. -/
structure RegisteredDev.Registered (d : RegisteredDev) : Prop where
  known : d.arctype ≠ .unknown
  garts : d.arctype ≠ .amd64Agp → d.cpugarts = []

variable {m : Multiset LdiHandle} {d : RegisteredDev} {o : LayeredAnswers}

theorem unregister_leads (h : Option LdiHandle) (l : List LdiHandle) :
    Leads (unregister h) ((h.toList ++ l : List LdiHandle) : Multiset LdiHandle) l := by
  cases h with
  | none => exact Leads.pure () _
  | some h => exact Leads.give h l

theorem amd64GartUnregister_leads (l : List LdiHandle) :
    Leads (amd64GartUnregister l) (l : Multiset LdiHandle) 0 := by
  induction l with
  | nil => exact Leads.pure () _
  | cons h l ih => exact (Leads.give h l).bind ih

theorem amd64GartRegis_leads (opens : ℕ → LdiOpen) (is : List ℕ) (l : List LdiHandle) :
    Leads (amd64GartRegis opens is l) (l : Multiset LdiHandle)
      ((amd64GartRegis opens is l).val.2 : Multiset LdiHandle) := by
  induction is generalizing l with
  | nil => exact Leads.pure _ _
  | cons i is ih =>
    unfold amd64GartRegis
    cases opens i with
    | enodev => exact ih l
    | error => exact (amd64GartUnregister_leads l).bind (Leads.pure _ _)
    | opened => exact (Leads.take (LdiHandle.gart i) l).bind (ih (.gart i :: l))

/-- Without handles the search has found no device, or it has closed what it had. -/
theorem amd64GartRegis_nil {opens : ℕ → LdiOpen} {is : List ℕ} {l : List LdiHandle}
    (h : (amd64GartRegis opens is l).val.1 ≠ .opened) :
    (amd64GartRegis opens is l).val.2 = [] := by
  induction is generalizing l with
  | nil =>
    cases l with
    | nil => rfl
    | cons h' l => exact absurd rfl h
  | cons i is ih =>
    unfold amd64GartRegis at h ⊢
    cases hi : opens i with
    | enodev =>
      simp only [hi] at h ⊢
      exact ih h
    | error => rfl
    | opened =>
      simp only [hi] at h ⊢
      exact ih h

theorem regisByname_leads (handle : ℕ → LdiHandle) (opens : ℕ → Bool) (l : List LdiHandle) :
    Leads (regisByname handle opens) (l : Multiset LdiHandle)
      (((regisByname handle opens).val.toList ++ l : List LdiHandle) : Multiset LdiHandle) := by
  unfold regisByname
  cases (List.range maxInstnum).find? opens with
  | none => exact Leads.pure _ _
  | some i => exact (Leads.take (handle i) l).bind (Leads.pure _ _)

/-- What lyr_init leaves open, by what it returns. -/
def initHandles (r : ℤ × RegisteredDev) : Multiset LdiHandle :=
  if r.1 = 0 then r.2.handles else 0

theorem lyrInitDevices_leads (o : LayeredAnswers) (garts : List LdiHandle)
    (arctype : Option ArcType) :
    Leads (lyrInitDevices o garts arctype) (garts : Multiset LdiHandle)
      (initHandles (lyrInitDevices o garts arctype).val) := by
  have hmaster := regisByname_leads .master o.masterOpen garts
  unfold lyrInitDevices
  refine hmaster.bind ?_
  simp only [val_bind]
  generalize (regisByname .master o.masterOpen).val = master at *
  cases master with
  | none => exact (amd64GartUnregister_leads garts).bind (Leads.pure _ _)
  | some hm =>
    have htarget := regisByname_leads .target o.targetOpen ((some hm).toList ++ garts)
    refine htarget.bind ?_
    simp only [Option.isNone_some, Bool.false_eq_true, if_false, val_bind]
    generalize (regisByname .target o.targetOpen).val = target at *
    cases target with
    | none =>
      exact (unregister_leads (some hm) garts).bind
        ((amd64GartUnregister_leads garts).bind (Leads.pure _ _))
    | some ht =>
      cases arctype with
      | none =>
        exact (unregister_leads (some ht) _).bind ((unregister_leads (some hm) garts).bind
          ((amd64GartUnregister_leads garts).bind (Leads.pure _ _)))
      | some arctype =>
        have hswap : ((some ht).toList ++ ((some hm).toList ++ garts)).Perm
            ((some hm).toList ++ ((some ht).toList ++ garts)) := List.Perm.swap _ _ _
        exact Multiset.coe_eq_coe.mpr hswap ▸ Leads.pure _ _

theorem lyrInit_leads (o : LayeredAnswers) :
    Leads (lyrInit o) 0 (initHandles (lyrInit o).val) := by
  have hgarts := amd64GartRegis_leads o.gartOpen (List.range maxInstnum) []
  have hnil := @amd64GartRegis_nil o.gartOpen (List.range maxInstnum) []
  unfold lyrInit
  refine hgarts.bind ?_
  simp only [val_bind]
  generalize (amd64GartRegis o.gartOpen (List.range maxInstnum) []).val = res at *
  obtain ⟨ret, garts⟩ := res
  cases ret with
  | enodev =>
    obtain rfl : garts = [] := hnil (fun e : LdiOpen.enodev = .opened => by cases e)
    exact lyrInitDevices_leads o [] o.detect
  | error =>
    obtain rfl : garts = [] := hnil (fun e : LdiOpen.error = .opened => by cases e)
    exact Leads.pure _ _
  | opened => exact lyrInitDevices_leads o garts (some .amd64Agp)

variable {o : LayeredAnswers}

/-- The registered devices are of the type that was passed down. -/
theorem lyrInitDevices_registered {garts : List LdiHandle} {arctype : Option ArcType}
    (h : (lyrInitDevices o garts arctype).val.1 = 0) :
    ∃ a, arctype = some a ∧ (lyrInitDevices o garts arctype).val.2.arctype = a ∧
      (lyrInitDevices o garts arctype).val.2.cpugarts = garts := by
  unfold lyrInitDevices at h ⊢
  simp only [val_bind] at h ⊢
  generalize (regisByname .master o.masterOpen).val = master at *
  cases master with
  | none => exact absurd (show (-1 : ℤ) = 0 from h) (by decide)
  | some hm =>
    simp only [Option.isNone_some, Bool.false_eq_true, if_false, val_bind] at h ⊢
    generalize (regisByname .target o.targetOpen).val = target at *
    cases target with
    | none => exact absurd (show (-1 : ℤ) = 0 from h) (by decide)
    | some ht =>
      cases arctype with
      | none => exact absurd (show (-1 : ℤ) = 0 from h) (by decide)
      | some a => exact ⟨a, rfl, rfl, rfl⟩

theorem detect_known {a : ArcType} (h : o.detect = some a) :
    a ≠ .unknown ∧ a ≠ .amd64Agp := by
  unfold LayeredAnswers.detect at h
  split at h
  · cases h
    decide
  · cases h
    decide
  · split at h
    · cases h
      decide
    · cases h
  · cases h

theorem lyrInit_registered (h : (lyrInit o).val.1 = 0) : (lyrInit o).val.2.Registered := by
  unfold lyrInit at h ⊢
  simp only [val_bind] at h ⊢
  generalize (amd64GartRegis o.gartOpen (List.range maxInstnum) []).val = res at *
  obtain ⟨ret, garts⟩ := res
  cases ret with
  | enodev =>
    obtain ⟨a, ha, htype, hgarts⟩ := lyrInitDevices_registered h
    obtain ⟨hknown, hamd⟩ := detect_known ha
    exact ⟨htype ▸ hknown, fun _ => hgarts⟩
  | error => exact absurd (show (-1 : ℤ) = 0 from h) (by decide)
  | opened =>
    obtain ⟨a, ha, htype, hgarts⟩ := lyrInitDevices_registered h
    cases ha
    exact ⟨fun hu => absurd (htype.symm.trans hu) (by decide), fun hne => absurd htype hne⟩

theorem RegisteredDev.Registered.lyrEnd_leads (h : d.Registered) :
    Leads d.lyrEnd d.handles 0 := by
  have hgarts := h.garts
  unfold RegisteredDev.lyrEnd RegisteredDev.handles
  cases ha : d.arctype with
  | unknown => exact absurd ha h.known
  | amd64Agp =>
    exact (unregister_leads d.masterhdl _).bind ((unregister_leads d.targethdl _).bind
      ((amd64GartUnregister_leads d.cpugarts).bind (Leads.pure _ _)))
  | igd810 | igd830 | intelAgp =>
    rw [hgarts (by rw [ha]; decide)]
    exact (unregister_leads d.masterhdl _).bind ((unregister_leads d.targethdl []).bind
      (Leads.pure _ _))

/-! ### agpgart_open -/

namespace OpenState
variable {s s' : OpenState}

theorem failOpen_leads (h : s.devreg.Registered) (rc : ℤ) :
    Leads (s.failOpen rc) s.devreg.handles 0 := h.lyrEnd_leads.bind (Leads.pure _ _)

/-- The chipset of an i830 is one that has to be flushed, and that cannot be set up. -/
def FlushFails (d : RegisteredDev) (o : LayeredAnswers) : Prop :=
  d.arctype = .igd830 ∧ ∃ info, d.lyrGetInfo o = some info ∧ info.devid ∈ flushedChipsets ∧
    o.chipsetFlushSetup = false

/-- How a call ends that started with the handles `m`: it succeeds, it fails with everything closed
and not counted, or it fails with everything closed and counted. -/
inductive Ends (m : Multiset LdiHandle) (opened : ℕ) (flushFails : Prop)
    (call : Traced (Entry LdiHandle) (ℤ × OpenState)) : Prop
  | opens (hret : call.val.1 = 0) (hopened : call.val.2.opened = opened + 1)
      (hreg : call.val.2.devreg.Registered) (hleads : Leads call m call.val.2.devreg.handles)
  | fails (hret : call.val.1 ≠ 0) (hopened : call.val.2.opened = opened) (hnot : ¬flushFails)
      (hleads : Leads call m 0)
  | counts (hret : call.val.1 ≠ 0) (hopened : call.val.2.opened = opened + 1) (hflush : flushFails)
      (hleads : Leads call m 0)

theorem afterInit_ends (h : s.devreg.Registered) (o : LayeredAnswers) :
    Ends s.devreg.handles s.opened (FlushFails s.devreg o) (s.afterInit o) := by
  have hleads := failOpen_leads h
  unfold afterInit FlushFails
  cases hinfo : s.devreg.lyrGetInfo o with
  | none => exact .fails (show (5 : ℤ) ≠ 0 by decide) rfl (by simp) (hleads _)
  | some info =>
    dsimp only
    by_cases ha : s.devreg.arctype = .igd830
    · have hconfig : s.devreg.lyrConfigDevices o = true := by
        rw [RegisteredDev.lyrConfigDevices, ha]
      simp only [ha, hconfig, if_true, Bool.not_true, Bool.false_eq_true, if_false]
      split
      case isTrue hflush =>
        exact .counts (show (5 : ℤ) ≠ 0 by decide) rfl ⟨trivial, info, rfl, hflush⟩
          (failOpen_leads (s := { s with opened := s.opened + 1 }) h (-Errno.eIo))
      case isFalse => exact .opens rfl rfl h (Leads.pure _ _)
    · rw [if_neg ha]
      generalize (if o.allocGart 0 = 0 then info.apersize
        else halveAper o.allocGart 32 1 info.apersize) = apersize
      split
      · exact .fails (show (11 : ℤ) ≠ 0 by decide) rfl (fun hf => ha hf.1) (hleads _)
      split
      · exact .fails (show (5 : ℤ) ≠ 0 by decide) rfl (fun hf => ha hf.1) (hleads _)
      split
      · exact .fails (show (5 : ℤ) ≠ 0 by decide) rfl (fun hf => ha hf.1) (hleads _)
      · exact .opens rfl rfl h (Leads.pure _ _)

theorem Ends.bind {α : Type} {x : Traced (Entry LdiHandle) α}
    {f : α → Traced (Entry LdiHandle) (ℤ × OpenState)} {m' : Multiset LdiHandle} {opened : ℕ}
    {flushFails : Prop} (hx : Leads x m m') (h : Ends m' opened flushFails (f x.val)) :
    Ends m opened flushFails (x >>= f) := by
  cases h with
  | opens hret hopened hreg hleads => exact .opens hret hopened hreg (hx.bind hleads)
  | fails hret hopened hnot hleads => exact .fails hret hopened hnot (hx.bind hleads)
  | counts hret hopened hflush hleads => exact .counts hret hopened hflush (hx.bind hleads)

theorem firstOpen_ends (s : OpenState) (o : LayeredAnswers) :
    Ends 0 s.opened ((lyrInit o).val.1 = 0 ∧ FlushFails (lyrInit o).val.2 o) (s.firstOpen o) := by
  have hregistered := @lyrInit_registered o
  refine Ends.bind (lyrInit_leads o) ?_
  generalize (lyrInit o).val = res at *
  obtain ⟨ret, devreg⟩ := res
  dsimp only
  by_cases hret : ret = 0
  · simp only [hret, true_and]
    exact afterInit_ends (s := { s with devreg }) (hregistered hret) o
  · rw [if_pos hret, initHandles, if_neg hret]
    exact .fails (show (11 : ℤ) ≠ 0 by decide) rfl (fun hf => hret hf.1) (Leads.pure _ _)

/-- Between the calls the handles are those of the registered devices, or none. -/
structure Inv (s : OpenState) : Prop where
  closed : s.opened = 0 → s.ldi = 0
  registered : s.opened ≠ 0 → s.devreg.Registered ∧ s.ldi = s.devreg.handles

/-- The first agpgart_open finds an i830 whose chipset has to be flushed and cannot be. -/
def FlushSetupFails (s : OpenState) (o : LayeredAnswers) : Prop :=
  o.permitted = true ∧ s.opened = 0 ∧ (lyrInit o).val.1 = 0 ∧ FlushFails (lyrInit o).val.2 o

/-- The count and the handles are as they were; if the driver was not open, none is held. -/
structure Unopened (s s' : OpenState) : Prop where
  opened : s'.opened = s.opened
  ldi : s'.ldi = s.ldi
  closed : s.opened = 0 → s'.ldi = 0

theorem settle_of_leads {call : Traced (Entry LdiHandle) (ℤ × OpenState)}
    {m : Multiset LdiHandle} (h : Leads call s.ldi m) :
    s.settle call = some { call.val.2 with ldi := m } := by
  rw [settle, show held call.events s.ldi = some m from h, Option.map_some]

theorem agpgartOpen_first (hpermitted : o.permitted = true) (hopened : s.opened = 0) :
    s.agpgartOpen o = s.firstOpen o := by
  rw [agpgartOpen, hpermitted, if_neg (by decide), if_neg (not_not.mpr hopened)]

/-- Unless the flush page is what fails, a call keeps the invariant and undoes itself if it
fails. -/
theorem Inv.open (h : s.Inv) (o : LayeredAnswers) (hflush : ¬s.FlushSetupFails o) :
    ∃ s', s.step (.open o) = some s' ∧ s'.Inv ∧
      ((s.agpgartOpen o).val.1 ≠ 0 → s.Unopened s') := by
  change ∃ s', s.settle (s.agpgartOpen o) = some s' ∧ _
  cases hpermitted : o.permitted with
  | false =>
    have hcall : s.agpgartOpen o = pure (-Errno.ePerm, s) := by
      rw [agpgartOpen, hpermitted]
      rfl
    rw [hcall]
    exact ⟨s, settle_of_leads (Leads.pure _ _), h, fun _ => ⟨rfl, rfl, h.closed⟩⟩
  | true =>
    by_cases hopened : s.opened = 0
    · have hldi := h.closed hopened
      rw [agpgartOpen_first hpermitted hopened]
      cases firstOpen_ends s o with
      | opens hret hcount hreg hleads =>
        rw [← hldi] at hleads
        refine ⟨_, settle_of_leads hleads, ⟨fun h0 => ?_, fun _ => ⟨hreg, rfl⟩⟩,
          fun hne => absurd hret hne⟩
        exact absurd (hcount.symm.trans h0) (Nat.succ_ne_zero _)
      | fails hret hcount hnot hleads =>
        exact ⟨_, settle_of_leads (hldi ▸ hleads), ⟨fun _ => rfl,
          fun hne => absurd (hcount.trans hopened) hne⟩, fun _ => ⟨hcount, hldi.symm, fun _ => rfl⟩⟩
      | counts hret hcount hf hleads => exact absurd ⟨hpermitted, hopened, hf⟩ hflush
    · have hcall : s.agpgartOpen o = pure (0, { s with opened := s.opened + 1 }) := by
        rw [agpgartOpen, hpermitted, if_neg (by decide), if_pos hopened]
      rw [hcall]
      exact ⟨_, settle_of_leads (Leads.pure _ _), ⟨fun h0 => absurd h0 (Nat.succ_ne_zero _),
        fun _ => h.registered hopened⟩, fun hne => absurd rfl hne⟩

theorem Inv.close (h : s.Inv) {unconfig : Bool} (hs : s.step (.close unconfig) = some s') :
    s'.Inv := by
  simp only [step, Option.ite_none_right_eq_some] at hs
  obtain ⟨hopened, hs⟩ := hs
  obtain ⟨hreg, hldi⟩ := h.registered hopened
  cases unconfig with
  | false =>
    cases hs
    exact h
  | true =>
    have hleads : Leads (s.agpgartClose true) s.ldi 0 :=
      hldi ▸ hreg.lyrEnd_leads.bind (Leads.pure _ _)
    rw [settle_of_leads hleads] at hs
    cases hs
    exact ⟨fun _ => rfl, fun hne => absurd rfl hne⟩

/-- The runs in which the flush page can always be set up. -/
theorem open_inv (h : ReachWhile openSystem
    (fun s a => ∀ o, a = .open o → ¬s.FlushSetupFails o) s) : s.Inv := by
  refine h.invariant ?_ ?_
  · rintro _ rfl
    exact ⟨fun _ => rfl, fun hne => absurd rfl hne⟩
  · intro s a s' hinv hguard hs
    cases a with
    | «open» o =>
      obtain ⟨t, ht, hinv', -⟩ := hinv.open o (hguard o rfl)
      obtain rfl : t = s' := Option.some.inj (ht.symm.trans hs)
      exact hinv'
    | close unconfig => exact hinv.close hs

end OpenState

end GfxDrm.Agp
