import GfxDrm.Errno
import GfxDrm.Lib.Run
import Mathlib.Algebra.Order.Ring.Nat
import Mathlib.Data.Fintype.Basic

/-! The key table of the AGP driver and the mappings of its aperture (agpgart.c). Each operation
is one step under `asoft_instmutex`. -/

namespace GfxDrm.Agp
open Run

/-- AGP_MAXKEYS. -/
abbrev maxKeys : ℕ := 256

def agpPageSize : ℕ := 4096
def maxAperMegas : ℕ := 0x1000
def minAperMegas : ℕ := 192
def agpNormal : ℕ := 0
def agpPhysical : ℕ := 2

def agpMb2Pages (x : ℕ) : ℕ := (x <<< 8) % 2 ^ 32
def agpPages2Bytes (x : ℕ) : ℕ := (x <<< 12) % 2 ^ 32
def agpBytes2Pages (x : ℕ) : ℕ := x >>> 12
def agpPages2Kb (x : ℕ) : ℕ := (x <<< 2) % 2 ^ 32

inductive ArcType where
  | igd810
  | igd830
  | intelAgp
  | amd64Agp
  | unknown
  deriving DecidableEq, Repr

structure KeytableEnt where
  type : ℕ := 0
  key : ℕ := 0
  pgoff : ℕ := 0
  pages : ℕ := 0
  bound : Bool := false
  /-- `kte_memhdl != NULL`. -/
  memhdl : Bool := false
  pfnarray : Bool := false
  refcnt : ℤ := 0
  deriving DecidableEq, Repr

/-- A mapped segment with its `agpgart_ctx_t`, in bytes; `key` is the entry whose memory was
mapped. -/
structure Segment where
  key : Fin maxKeys
  off : ℕ
  len : ℕ
  actxOff : ℕ
  deriving DecidableEq, Repr

structure AgpState where
  opened : ℕ := 0
  acquired : Bool := false
  curpid : ℕ := 0
  pgtotal : ℕ := 0
  pgused : ℕ := 0
  /-- In megabytes. -/
  apersize : ℕ := 0
  /-- In kilobytes. -/
  presize : ℕ := 0
  arctype : ArcType := .unknown
  table : Fin maxKeys → KeytableEnt := fun _ => {}
  segs : List Segment := []

def AgpState.setEnt (s : AgpState) (k : Fin maxKeys) (e : KeytableEnt) : AgpState :=
  { s with table := Function.update s.table k e }

/-! ### The key table -/

/-- The pages an entry is bound to. -/
def KeytableEnt.Holds (e : KeytableEnt) (pgOffset : ℕ) : Prop :=
  e.bound = true ∧ e.pgoff ≤ pgOffset ∧ pgOffset < e.pgoff + e.pages

instance (e : KeytableEnt) (pgOffset : ℕ) : Decidable (e.Holds pgOffset) :=
  inferInstanceAs (Decidable (_ ∧ _))

/-- agp_find_bound_keyent. -/
def agpFindBoundKeyent (s : AgpState) (pgOffset : ℕ) : Option (Fin maxKeys) :=
  (List.finRange maxKeys).find? fun k => (s.table k).Holds pgOffset

/-- agp_fill_empty_keyent. -/
def agpFillEmptyKeyent (s : AgpState) (entry : KeytableEnt) : Option (Fin maxKeys × AgpState) :=
  ((List.finRange maxKeys).find? fun k => !(s.table k).memhdl).map fun k =>
    (k, s.setEnt k { entry with key := k })

/-- agp_check_off: whether the range overlaps one that is bound. -/
def agpCheckOff (s : AgpState) (pgStart pgNum : ℕ) : Bool :=
  (List.finRange maxKeys).any fun k =>
    let e := s.table k
    e.bound && !(decide ((pgStart + pgNum % 2 ^ 32) % 2 ^ 32 ≤ e.pgoff) ||
      decide (e.pgoff + e.pages ≤ pgStart))

/-- agp_unbind_key; `gtt` is what lyr_i8xx_remove_from_gtt returns. -/
def agpUnbindKey (arctype : ArcType) (e : KeytableEnt) (gtt : ℤ) : ℤ × KeytableEnt :=
  if !e.bound then (-Errno.eInval, e)
  else if e.refcnt ≠ 0 then (-Errno.eInval, e)
  else
    match arctype with
    | .igd810 | .igd830 => if gtt ≠ 0 then (-Errno.eIo, e) else (0, { e with bound := false })
    | .intelAgp | .amd64Agp => (0, { e with bound := false })
    | .unknown => (-Errno.eIo, e)

/-- agp_dealloc_kmem. -/
def agpDeallocKmem (e : KeytableEnt) : KeytableEnt := { e with pfnarray := false, memhdl := false }

/-- agp_dealloc_mem. -/
def agpDeallocMem (s : AgpState) (e : KeytableEnt) (gtt : ℤ) : ℤ × KeytableEnt :=
  let e := if e.bound = true ∧ e.refcnt = 0 ∧ s.opened ≠ 0 then (agpUnbindKey s.arctype e gtt).2
    else e
  if e.refcnt ≠ 0 then (-1, e)
  else if e.type = agpNormal ∨ e.type = agpPhysical then (0, agpDeallocKmem e)
  else (-1, e)

/-- agp_del_allkeys, whose rounds each touch their own entry only. -/
def agpDelAllkeys (s : AgpState) (gtt : Fin maxKeys → ℤ) : AgpState :=
  { s with
    table := fun k =>
      if (s.table k).memhdl then (agpDeallocMem s (s.table k) (gtt k)).2 else s.table k }

/-- agp_alloc_mem and agp_alloc_kmem; `ok` tells whether the memory was found and is usable. No
memory has no page frames: `kmem_zalloc` of nothing is NULL. -/
def agpAllocMem (s : AgpState) (length type : ℕ) (ok : Bool) : Option (Fin maxKeys × AgpState) :=
  if type = agpNormal ∨ type = agpPhysical then
    if ok then
      agpFillEmptyKeyent s
        { type := type, pages := agpBytes2Pages length, memhdl := true
          pfnarray := decide (agpBytes2Pages length ≠ 0) }
    else none
  else none

/-- agp_bind_key; `gart` is what setting up the entries returns. -/
def agpBindKey (s : AgpState) (e : KeytableEnt) (pgOffset : ℕ) (gart : ℤ) : ℤ :=
  if agpMb2Pages s.apersize < pgOffset + e.pages then -Errno.eInval
  else if agpCheckOff s pgOffset e.pages then -Errno.eInval
  else
    match s.arctype with
    | .igd810 | .igd830 => if gart ≠ 0 then -Errno.eIo else 0
    | .intelAgp | .amd64Agp => if gart ≠ 0 then -Errno.eInval else 0
    | .unknown => -Errno.eInval

/-! ### Opening and closing -/

/-- get_max_pages. -/
def getMaxPages (physmem aperSize : ℕ) : ℕ :=
  let i := agpMb2Pages aperSize
  let j := (physmem >>> 2) % 2 ^ 32
  let size := if i < j then i else j
  if size < agpMb2Pages minAperMegas then agpMb2Pages minAperMegas else size

/-- The end of lyr_get_info. -/
def aperProgrammed (aperbase apersize : ℕ) : Bool :=
  !(decide (maxAperMegas ≤ apersize) || decide (apersize = 0) || decide (aperbase = 0))

/-- What the layered drivers and the allocator answer to the first agpgart_open. -/
structure OpenAnswers where
  permitted : Bool := true
  physmem : ℕ
  lyrInit : Option ArcType
  /-- The calls of lyr_get_info worked. -/
  info : Bool := true
  aperbase : ℕ
  apersize : ℕ
  presize : ℕ := 0
  config : ℤ := 0
  flushSetup : ℤ := 0
  /-- The n-th alloc_gart_table returns this. -/
  allocGart : ℕ → ℤ := fun _ => 0
  setGart : ℤ := 0

/-- The loop that halves the aperture until there is a table for it. -/
def halveAper (allocGart : ℕ → ℤ) : ℕ → ℕ → ℕ → ℕ
  | 0, _, apersize => apersize
  | fuel + 1, n, apersize =>
    if 4 ≤ apersize ∧ allocGart n ≠ 0 then halveAper allocGart fuel (n + 1) (apersize >>> 1)
    else apersize

/-- The aperture there is a table for. -/
def gartAper (o : OpenAnswers) (apersize : ℕ) : ℕ :=
  if o.allocGart 0 = 0 then apersize else halveAper o.allocGart 32 1 apersize

/-- agpgart_open where the driver is not open yet. -/
def agpgartFirstOpen (s : AgpState) (o : OpenAnswers) : ℤ × AgpState :=
  let s := { s with pgused := 0, arctype := o.lyrInit.getD .unknown }
  match o.lyrInit with
  | none => (-Errno.eAgain, s)
  | some arctype =>
    let s := { s with apersize := o.apersize % 2 ^ 32, presize := o.presize }
    if !(o.info && aperProgrammed o.aperbase s.apersize) then (-Errno.eIo, s)
    else if arctype = .igd830 then
      let s := { s with opened := s.opened + 1, pgtotal := getMaxPages o.physmem s.apersize }
      if o.config ≠ 0 then (-Errno.eIo, s)
      else if o.flushSetup ≠ 0 then (-Errno.eIo, s)
      else (0, s)
    else
      let s := { s with apersize := gartAper o s.apersize }
      if o.allocGart 0 ≠ 0 ∧ s.apersize < 4 then (-Errno.eAgain, s)
      else
        let s := { s with pgtotal := getMaxPages o.physmem s.apersize }
        if o.setGart ≠ 0 then (-Errno.eIo, s)
        else if o.config ≠ 0 then (-Errno.eIo, s)
        else (0, { s with opened := s.opened + 1 })

/-- agpgart_open. -/
def agpgartOpen (s : AgpState) (o : OpenAnswers) : ℤ × AgpState :=
  if !o.permitted then (-Errno.ePerm, s)
  else if s.opened ≠ 0 then (0, { s with opened := s.opened + 1 })
  else agpgartFirstOpen s o

/-- agpgart_close; `unconfig` is what lyr_unconfig_devices returns. -/
def agpgartClose (s : AgpState) (unconfig : ℤ) (gtt : Fin maxKeys → ℤ) : ℤ × AgpState :=
  let s := { s with acquired := false, curpid := if s.acquired then 0 else s.curpid }
  if unconfig ≠ 0 then (-Errno.eIo, s) else (0, agpDelAllkeys { s with opened := 0 } gtt)

/-! ### The ioctls -/

def isControllingProc (s : AgpState) (pid : ℕ) : Bool := s.acquired && decide (s.curpid = pid)

/-- The entry that an ioctl's key names. -/
def keyOf (key : ℤ) : Option (Fin maxKeys) :=
  if h : 0 ≤ key ∧ key < maxKeys then some ⟨key.toNat, by omega⟩ else none

def ioctlAgpgartAcquire (s : AgpState) (pid : ℕ) : ℤ × AgpState :=
  if s.acquired then (-Errno.eBusy, s) else (0, { s with curpid := pid, acquired := true })

def ioctlAgpgartRelease (s : AgpState) (pid : ℕ) : ℤ × AgpState :=
  if !isControllingProc s pid then (-Errno.ePerm, s)
  else (0, { s with curpid := 0, acquired := false })

/-- ioctl_agpgart_alloc of `pgcount` pages; `copyin` and `copyout` tell whether the arguments
could be copied. -/
def ioctlAgpgartAlloc (s : AgpState) (pid pgcount type : ℕ) (copyin ok copyout : Bool) :
    ℤ × AgpState :=
  if !isControllingProc s pid then (-Errno.ePerm, s)
  else if !copyin then (-Errno.eFault, s)
  -- the sum is one of 32-bit numbers
  else if s.pgtotal < (s.pgused + pgcount) % 2 ^ 32 then (-Errno.eInval, s)
  else
    match agpAllocMem s (agpPages2Bytes pgcount) type ok with
    | none => (-Errno.eNomem, s)
    | some (_, s) =>
      (if copyout then 0 else -Errno.eFault, { s with pgused := (s.pgused + pgcount) % 2 ^ 32 })

def ioctlAgpgartDealloc (s : AgpState) (pid : ℕ) (key gtt : ℤ) : ℤ × AgpState :=
  if !isControllingProc s pid then (-Errno.ePerm, s)
  else
    match keyOf key with
    | none => (-Errno.eInval, s)
    | some k =>
      if !(s.table k).memhdl then (-Errno.eInval, s)
      else
        let r := agpDeallocMem s (s.table k) gtt
        if r.1 ≠ 0 then (-Errno.eInval, s.setEnt k r.2)
        else
          (0, { s.setEnt k {} with pgused := (s.pgused + 2 ^ 32 - r.2.pages % 2 ^ 32) % 2 ^ 32 })

def ioctlAgpgartBind (s : AgpState) (pid : ℕ) (key : ℤ) (pgstart : ℕ) (copyin : Bool)
    (gart : ℤ) : ℤ × AgpState :=
  if !isControllingProc s pid then (-Errno.ePerm, s)
  else if !copyin then (-Errno.eFault, s)
  else
    match keyOf key with
    | none => (-Errno.eInval, s)
    | some k =>
      if s.arctype = .igd830 ∧ agpPages2Kb pgstart < s.presize then (-Errno.eInval, s)
      else if !(s.table k).memhdl then (-Errno.eInval, s)
      else if (s.table k).bound then (-Errno.eInval, s)
      else
        let retval := agpBindKey s (s.table k) pgstart gart
        (retval,
          if retval = 0 then s.setEnt k { s.table k with pgoff := pgstart, bound := true } else s)

def ioctlAgpgartUnbind (s : AgpState) (pid : ℕ) (key : ℤ) (copyin : Bool) (gtt : ℤ) :
    ℤ × AgpState :=
  if !isControllingProc s pid then (-Errno.ePerm, s)
  else if !copyin then (-Errno.eFault, s)
  else
    match keyOf key with
    | none => (-Errno.eInval, s)
    | some k =>
      if !(s.table k).bound then (-Errno.eInval, s)
      else
        let r := agpUnbindKey s.arctype (s.table k) gtt
        (r.1, s.setEnt k r.2)

/-! ### Mappings -/

/-- `kte_refcnt` changes. -/
def AgpState.addRef (s : AgpState) (k : Fin maxKeys) (n : ℤ) : AgpState :=
  s.setEnt k { s.table k with refcnt := (s.table k).refcnt + n }

/-- The page of an offset, as agp_find_bound_keyent gets it. -/
def pgOffset (off : ℕ) : ℕ := agpBytes2Pages off % 2 ^ 32

/-- agp_devmap_map of `len` bytes at `offset`; without a bound entry the kernel panics. -/
def agpDevmapMap (s : AgpState) (mem : Fin maxKeys) (offset len : ℕ) : Option AgpState :=
  (agpFindBoundKeyent s (pgOffset offset)).map fun k =>
    { s.addRef k 1 with segs := ⟨mem, offset, len, offset⟩ :: s.segs }

/-- agp_devmap_dup. -/
def agpDevmapDup (s : AgpState) (g : Segment) : Option AgpState :=
  (agpFindBoundKeyent s (pgOffset g.actxOff)).map fun k =>
    { s.addRef k 1 with segs := g :: s.segs }

/-- What is left of a segment in front of an unmapped range. -/
def Segment.front (g : Segment) (off : ℕ) : Option Segment :=
  if g.off < off then some { g with len := off - g.off } else none

/-- What is left behind it. -/
def Segment.back (g : Segment) (off len : ℕ) : Option Segment :=
  if off + len < g.off + g.len then
    some { g with off := off + len, len := g.off + g.len - (off + len), actxOff := off + len }
  else none

/-- agp_devmap_unmap, with a new handle for each part that is left. -/
def agpDevmapUnmap (s : AgpState) (g : Segment) (off len : ℕ) : Option AgpState :=
  let segs := (g.front off).toList ++ (g.back off len).toList ++ s.segs.erase g
  match g.front off, g.back off len with
  | none, none =>
    (agpFindBoundKeyent s (pgOffset off)).map fun k => { s.addRef k (-1) with segs := segs }
  | some _, some _ =>
    (agpFindBoundKeyent s (pgOffset off)).map fun k => { s.addRef k 1 with segs := segs }
  | _, _ => some { s with segs := segs }

/-- agpgart_segmap down to agpgart_devmap and agp_devmap_map, for the first segment; `setup` is
what devmap_pmem_setup returns. -/
def agpgartSegmap (s : AgpState) (off len : ℕ) (setup : ℤ) : ℤ × Option AgpState :=
  if len % agpPageSize ≠ 0 then (-Errno.eInval, some s)
  else if (s.apersize <<< 20) % 2 ^ 32 < off then (-Errno.eInval, some s)
  else
    match agpFindBoundKeyent s (pgOffset off) with
    | none => (-Errno.eInval, some s)
    | some k =>
      let e := s.table k
      let localOffset := off - agpPages2Bytes e.pgoff
      let rest := e.pages <<< 12 - localOffset
      if e.type ≠ agpNormal then (-Errno.eInval, some s)
      -- the memory handle is read
      else if !e.memhdl then (0, none)
      else if setup ≠ 0 then (-Errno.eInval, some s)
      else (0, agpDevmapMap s k off (if rest < len then rest else len))

/-! ### Runs -/

inductive AgpAction where
  | open (o : OpenAnswers)
  | close (unconfig : ℤ) (gtt : Fin maxKeys → ℤ)
  | acquire (pid : ℕ)
  | release (pid : ℕ)
  | alloc (pid pgcount type : ℕ) (copyin ok copyout : Bool)
  | dealloc (pid : ℕ) (key gtt : ℤ)
  | bind (pid : ℕ) (key : ℤ) (pgstart : ℕ) (copyin : Bool) (gart : ℤ)
  | unbind (pid : ℕ) (key : ℤ) (copyin : Bool) (gtt : ℤ)
  | segmap (off len : ℕ) (setup : ℤ)
  | dup (g : Segment)
  | unmap (g : Segment) (off len : ℕ)

/-- What the system sees to: ioctls and mappings need an open file, `close` is the last one and
comes after the last mapping, and ranges are of whole pages. -/
def AgpAction.Allowed (s : AgpState) : AgpAction → Prop
  | .open _ => True
  | .close _ _ => s.opened ≠ 0 ∧ s.segs = []
  | .acquire _ | .release _ | .dealloc _ _ _ | .unbind _ _ _ _ => s.opened ≠ 0
  | .alloc _ pgcount _ _ _ _ => s.opened ≠ 0 ∧ pgcount < 2 ^ 32
  | .bind _ _ pgstart _ _ => s.opened ≠ 0 ∧ pgstart < 2 ^ 32
  | .segmap off len _ => s.opened ≠ 0 ∧ agpPageSize ∣ off ∧ 0 < len
  | .dup g => g ∈ s.segs
  | .unmap g off len => g ∈ s.segs ∧ agpPageSize ∣ off ∧ agpPageSize ∣ len ∧ 0 < len ∧
    g.off ≤ off ∧ off + len ≤ g.off + g.len

instance (s : AgpState) : (a : AgpAction) → Decidable (a.Allowed s)
  | .open _ => inferInstanceAs (Decidable True)
  | .close _ _ | .alloc _ _ _ _ _ _ | .bind _ _ _ _ _ => inferInstanceAs (Decidable (_ ∧ _))
  | .acquire _ | .release _ | .dealloc _ _ _ | .unbind _ _ _ _ =>
    inferInstanceAs (Decidable (_ ≠ _))
  | .segmap _ _ _ => inferInstanceAs (Decidable (_ ∧ _))
  | .dup _ => inferInstanceAs (Decidable (_ ∈ _))
  | .unmap _ _ _ => inferInstanceAs (Decidable (_ ∧ _))

/-- None when the kernel panics. -/
def AgpAction.apply (s : AgpState) : AgpAction → Option AgpState
  | .open o => some (agpgartOpen s o).2
  | .close unconfig gtt => some (agpgartClose s unconfig gtt).2
  | .acquire pid => some (ioctlAgpgartAcquire s pid).2
  | .release pid => some (ioctlAgpgartRelease s pid).2
  | .alloc pid pgcount type copyin ok copyout =>
    some (ioctlAgpgartAlloc s pid pgcount type copyin ok copyout).2
  | .dealloc pid key gtt => some (ioctlAgpgartDealloc s pid key gtt).2
  | .bind pid key pgstart copyin gart => some (ioctlAgpgartBind s pid key pgstart copyin gart).2
  | .unbind pid key copyin gtt => some (ioctlAgpgartUnbind s pid key copyin gtt).2
  | .segmap off len setup => (agpgartSegmap s off len setup).2
  | .dup g => agpDevmapDup s g
  | .unmap g off len => agpDevmapUnmap s g off len

/-- The runs after agpgart_attach. -/
def agpSystem : System AgpState AgpAction where
  init s := s = {}
  step s a s' := a.Allowed s ∧ a.apply s = some s'

end GfxDrm.Agp
