import GfxDrm.DrmMm.Runs

/-! Binding objects into the global GTT (i915_gem.c, i915_gem_gtt.c, i915_gem_evict.c). A node of
the range manager is named after the object whose `gtt_space` it is. -/

namespace GfxDrm.Gtt

/-- PAGE_SIZE. -/
def pageSize : ℕ := 4096

/-- enum i915_cache_level. -/
inductive CacheLevel where
  | none
  | llc
  | llcMlc
  deriving DecidableEq, Repr

/-- The level as the colour of a node. -/
def CacheLevel.color : CacheLevel → ℕ
  | .none => 0
  | .llc => 1
  | .llcMlc => 2

/-- What the driver finds out about the hardware; sizes in bytes. -/
structure GttDev where
  gen : ℕ
  isG33 : Bool := false
  isHaswell : Bool := false
  isValleyview : Bool := false
  hasLlc : Bool := false
  mappableEnd : ℕ
  total : ℕ
  /-- The aperture in pages, GTT_MB_TO_PAGES(igd_apersize). -/
  aperPages : ℕ
  /-- `scratch_page->pfnarray[0]`. -/
  scratchPfn : ℕ
  page_le_mappableEnd : pageSize ≤ mappableEnd
  mappableEnd_le : mappableEnd ≤ 2 ^ 31
  page_lt_total : pageSize < total
  total_le : total ≤ 2 ^ 31

structure GttObj where
  size : ℕ := 0
  pfnarray : ℕ → ℕ := fun _ => 0
  tiled : Bool := false
  pinCount : ℕ := 0
  /-- `gtt_space != NULL`. -/
  gttSpace : Bool := false
  gttOffset : ℕ := 0
  mapAndFenceable : Bool := false
  cacheLevel : CacheLevel := .none
  hasGlobalGttMapping : Bool := false
  agpMem : ℤ := 0

structure GttState where
  mm : DrmMm
  obj : ℕ → GttObj := fun _ => {}
  /-- The entries of the GTT. -/
  pte : ℕ → ℕ

def GttState.setObj (s : GttState) (o : ℕ) (f : GttObj → GttObj) : GttState :=
  { s with obj := Function.update s.obj o (f (s.obj o)) }

/-! ### The range manager -/

/-- i915_gtt_color_adjust. -/
def i915GttColorAdjust : ColorAdjust := fun node next color start stop =>
  (if node.color ≠ color then Word.add 64 start 4096 else start,
    match next with
    | none => stop
    | some next =>
      if next.allocated = true ∧ next.color ≠ color then Word.sub 64 stop 4096 else stop)

/-- The manager of i915_gem_setup_global_gtt, without a preallocated object. -/
def gttSpaceInit (dev : GttDev) : DrmMm :=
  { drmMmInit 0 (dev.total - pageSize) with
    colorAdjust := if dev.hasLlc then none else some i915GttColorAdjust }

/-- i915_gem_valid_gtt_space, of the node of `o` if it is bound. -/
def validGttSpace (dev : GttDev) (s : GttState) (o : ℕ) (level : CacheLevel) : Bool :=
  if dev.hasLlc then true
  else if !(s.obj o).gttSpace then true
  else
    let node := NodeRef.block o
    let prev := s.mm.node (s.mm.prevNode node)
    let next := s.mm.node (s.mm.nextNode node)
    if prev.allocated = true ∧ prev.holeFollows = false ∧ prev.color ≠ level.color then false
    else if next.allocated = true ∧ (s.mm.node node).holeFollows = false ∧
        next.color ≠ level.color then false
    else true

/-! ### The entries -/

/-- GEN6_GTT_ADDR_ENCODE. -/
def gen6GttAddrEncode (addr : ℕ) : ℕ := addr ||| ((addr >>> 28) &&& 0xff0)

def gen6PteEncode (addr : ℕ) : CacheLevel → ℕ
  | .llcMlc => (1 ||| gen6GttAddrEncode addr ||| 6) % 2 ^ 32
  | .llc => (1 ||| gen6GttAddrEncode addr ||| 4) % 2 ^ 32
  | .none => (1 ||| gen6GttAddrEncode addr ||| 2) % 2 ^ 32

def bytPteEncode (addr : ℕ) (level : CacheLevel) : ℕ :=
  (1 ||| gen6GttAddrEncode addr ||| 2 ||| if level = .none then 0 else 4) % 2 ^ 32

def hswPteEncode (addr : ℕ) (level : CacheLevel) : ℕ :=
  (1 ||| gen6GttAddrEncode addr ||| if level = .none then 0 else 4) % 2 ^ 32

/-- What i915_gem_gtt_init puts into `pte_encode`. -/
def pteEncode (dev : GttDev) : ℕ → CacheLevel → ℕ :=
  if dev.isHaswell then hswPteEncode else if dev.isValleyview then bytPteEncode else gen6PteEncode

/-- phys2entry of AGP_NORMAL. -/
def phys2entry (physaddr : ℕ) : ℕ := ((physaddr % 2 ^ 32) &&& 0xfffff000) ||| 1

/-- The address of a page. -/
def pageAddr (pfn : ℕ) : ℕ := (pfn <<< 12) % 2 ^ 64

/-- Write `num` entries from `first` on. -/
def putEntries (s : GttState) (first num : ℕ) (entry : ℕ → ℕ) : GttState :=
  { s with pte := fun e => if first ≤ e ∧ e < first + num then entry (e - first) else s.pte e }

def gen6GgttInsertEntries (dev : GttDev) (s : GttState) (o : ℕ) (level : CacheLevel) : GttState :=
  putEntries s ((s.obj o).gttOffset / pageSize) ((s.obj o).size / pageSize) fun j =>
    pteEncode dev (pageAddr ((s.obj o).pfnarray j)) level

def gen6GgttClearRange (dev : GttDev) (s : GttState) (o : ℕ) : GttState :=
  let firstEntry := (s.obj o).gttOffset / pageSize
  let numEntries := (s.obj o).size / pageSize
  let maxEntries := dev.total / pageSize - firstEntry
  putEntries s firstEntry (if maxEntries < numEntries then maxEntries else numEntries) fun _ =>
    pteEncode dev (pageAddr dev.scratchPfn) .llc

/-- i8xx_add_to_gtt. -/
def i8xxAddToGtt (dev : GttDev) (s : GttState) (pgstart npage : ℕ) (phyaddr : ℕ → ℕ) : GttState :=
  if dev.aperPages < pgstart + npage then s
  else putEntries s pgstart npage fun j => phys2entry (phyaddr j)

/-- i8xx_remove_from_gtt. -/
def i8xxRemoveFromGtt (dev : GttDev) (s : GttState) (pgstart npage scratch : ℕ) : GttState :=
  let entry := if scratch % 2 ^ 32 = 0 then 0 else phys2entry scratch
  if dev.aperPages < pgstart + npage then s else putEntries s pgstart npage fun _ => entry

/-- i915_ggtt_insert_entries, down to the AGP driver. -/
def i915GgttInsertEntries (dev : GttDev) (s : GttState) (o : ℕ) : GttState :=
  i8xxAddToGtt dev s ((s.obj o).gttOffset / pageSize) ((s.obj o).size / pageSize) fun j =>
    pageAddr ((s.obj o).pfnarray j)

/-- i915_ggtt_clear_range. -/
def i915GgttClearRange (dev : GttDev) (s : GttState) (o : ℕ) : GttState :=
  if (s.obj o).agpMem = 0 then
    (i8xxRemoveFromGtt dev s ((s.obj o).gttOffset / pageSize) ((s.obj o).size / pageSize)
      dev.scratchPfn).setObj o fun obj => { obj with agpMem := -1 }
  else s

/-- i915_gem_gtt_bind_object. -/
def gttBindObject (dev : GttDev) (s : GttState) (o : ℕ) (level : CacheLevel) : GttState :=
  (if dev.gen ≤ 5 then i915GgttInsertEntries dev s o else gen6GgttInsertEntries dev s o level).setObj
    o fun obj => { obj with hasGlobalGttMapping := true }

/-- i915_gem_gtt_unbind_object. -/
def gttUnbindObject (dev : GttDev) (s : GttState) (o : ℕ) : GttState :=
  (if dev.gen ≤ 5 then i915GgttClearRange dev s o else gen6GgttClearRange dev s o).setObj
    o fun obj => { obj with hasGlobalGttMapping := false }

/-! ### Binding and unbinding -/

/-- What i915_gem_object_finish_gpu and i915_gem_object_put_fence return. -/
structure Waits where
  finishGpu : ℤ := 0
  putFence : ℤ := 0
  deriving DecidableEq, Repr

/-- i915_gem_object_unbind. -/
def objectUnbind (dev : GttDev) (s : GttState) (o : ℕ) (w : Waits) : ℤ × GttState :=
  if !(s.obj o).gttSpace then (0, s)
  else if (s.obj o).pinCount ≠ 0 then (Errno.eBusy, s)
  else if w.finishGpu ≠ 0 then (w.finishGpu, s)
  else if w.putFence ≠ 0 then (w.putFence, s)
  else
    let s := if (s.obj o).hasGlobalGttMapping then gttUnbindObject dev s o else s
    (0, { s.setObj o fun obj =>
        { obj with gttSpace := false, gttOffset := 0, mapAndFenceable := true } with
      mm := drmMmRemoveNode s.mm (.block o) })

/-- i915_gem_get_gtt_size; the loop doubles until the object fits. -/
def doubleUntil (size : ℕ) : ℕ → ℕ → ℕ
  | 0, gttSize => gttSize
  | fuel + 1, gttSize => if gttSize < size then doubleUntil size fuel (2 * gttSize) else gttSize

def getGttSize (dev : GttDev) (size : ℕ) (tiled : Bool) : ℕ :=
  if 4 ≤ dev.gen ∨ tiled = false then size
  else doubleUntil size 32 (if dev.gen = 3 then 1024 * 1024 else 512 * 1024)

/-- i915_gem_get_gtt_alignment. -/
def getGttAlignment (dev : GttDev) (size : ℕ) (tiled fenced : Bool) : ℕ :=
  if 4 ≤ dev.gen ∨ (fenced = false ∧ dev.isG33 = true) ∨ tiled = false then pageSize
  else getGttSize dev size tiled

/-- The alignment that i915_gem_object_bind_to_gtt asks for. -/
def bindAlignment (dev : GttDev) (obj : GttObj) (alignment : ℕ) (mapAndFenceable : Bool) : ℕ :=
  if alignment % 2 ^ 32 = 0 then getGttAlignment dev obj.size obj.tiled mapAndFenceable
  else alignment % 2 ^ 32

/-- What it asks the range manager for. -/
def bindRequest (dev : GttDev) (obj : GttObj) (alignment : ℕ) (mapAndFenceable : Bool) :
    MmRequest where
  size := if mapAndFenceable then getGttSize dev obj.size obj.tiled else obj.size
  alignment := bindAlignment dev obj alignment mapAndFenceable
  color := obj.cacheLevel.color
  range := some (0, if mapAndFenceable then dev.mappableEnd else dev.total)

/-- The checks before the search. -/
def bindRefused (dev : GttDev) (obj : GttObj) (alignment : ℕ) (mapAndFenceable : Bool) :
    Option ℤ :=
  if mapAndFenceable = true ∧ bindAlignment dev obj alignment mapAndFenceable &&&
      (getGttAlignment dev obj.size obj.tiled true - 1) ≠ 0 then some Errno.eInval
  else if (if mapAndFenceable then dev.mappableEnd else dev.total) < obj.size then some Errno.e2Big
  else none

/-- i915_gem_object_bind_to_gtt once the node has been inserted. -/
def bindInserted (dev : GttDev) (s : GttState) (o : ℕ) : ℤ × GttState :=
  let bound := s.setObj o fun obj => { obj with gttSpace := true }
  if !validGttSpace dev bound o (s.obj o).cacheLevel then
    (Errno.eInval, { s with mm := drmMmRemoveNode s.mm (.block o) })
  else
    let node := s.mm.node (.block o)
    let fenceSize := getGttSize dev (s.obj o).size (s.obj o).tiled
    let fenceAlignment := getGttAlignment dev (s.obj o).size (s.obj o).tiled true
    (0, s.setObj o fun obj =>
      { obj with
        gttSpace := true, gttOffset := node.start
        mapAndFenceable := decide (node.start + obj.size ≤ dev.mappableEnd) &&
          decide (node.size = fenceSize) && decide (node.start &&& (fenceAlignment - 1) = 0) })

/-- i915_gem_object_bind_to_gtt up to its first search; with `-ENOSPC` it goes on to
i915_gem_evict_something. `getPages` is what i915_gem_object_get_pages returns, and `kzalloc`
tells whether there is memory for the node. -/
def objectBindToGtt (dev : GttDev) (s : GttState) (o alignment : ℕ) (mapAndFenceable : Bool)
    (getPages : ℤ) (kzalloc : Bool) : ℤ × GttState :=
  match bindRefused dev (s.obj o) alignment mapAndFenceable with
  | some e => (e, s)
  | none =>
    if getPages ≠ 0 then (getPages, s)
    else if !kzalloc then (Errno.eNomem, s)
    else
      let r := (bindRequest dev (s.obj o) alignment mapAndFenceable).insert s.mm o
      if r.1 = 0 then bindInserted dev { s with mm := r.2 } o else (r.1, { s with mm := r.2 })

/-- i915_gem_object_set_cache_level where nothing is left to wait for. -/
def cacheLevelSet (dev : GttDev) (s : GttState) (o : ℕ) (level : CacheLevel) : GttState :=
  if (s.obj o).gttSpace then
    let s := if (s.obj o).hasGlobalGttMapping then gttBindObject dev s o level else s
    { s.setObj o fun obj => { obj with cacheLevel := level } with
      mm := s.mm.setNode (.block o) fun n => { n with color := level.color } }
  else s.setObj o fun obj => { obj with cacheLevel := level }

/-- i915_gem_object_set_cache_level; `w` and `w'` are the waits of its two paths. -/
def objectSetCacheLevel (dev : GttDev) (s : GttState) (o : ℕ) (level : CacheLevel)
    (w w' : Waits) : ℤ × GttState :=
  if (s.obj o).cacheLevel = level then (0, s)
  else if (s.obj o).pinCount ≠ 0 then (Errno.eBusy, s)
  else
    let r := if validGttSpace dev s o level then (0, s) else objectUnbind dev s o w
    if r.1 ≠ 0 then r
    else if (r.2.obj o).gttSpace = true ∧ w'.finishGpu ≠ 0 then (w'.finishGpu, r.2)
    else if (r.2.obj o).gttSpace = true ∧ dev.gen < 6 ∧ w'.putFence ≠ 0 then (w'.putFence, r.2)
    else (0, cacheLevelSet dev r.2 o level)

/-! ### Evicting -/

/-- The objects i915_gem_evict_something marks: those not pinned, until the range manager has
found a hole. -/
def markFree (s : GttState) (mm : DrmMm) : List ℕ → List ℕ × Bool
  | [] => ([], false)
  | o :: l =>
    if (s.obj o).pinCount ≠ 0 then markFree s mm l
    else
      let r := drmMmScanAddBlock mm (.block o)
      if r.1 then ([o], true)
      else
        let rest := markFree s r.2 l
        (o :: rest.1, rest.2)

/-- The scan of i915_gem_evict_something over the objects `lru`: what is to be unbound, if it
has found a hole. -/
def evictScan (s : GttState) (q : MmRequest) (lru : List ℕ) : Option (List ℕ) × GttState :=
  let marked := markFree s (q.startScan s.mm) lru
  let r := scanAll s.mm q marked.1
  (if marked.2 then some r.1.reverse else none, { s with mm := r.2 })

/-- Unbind one after the other, as long as that works. -/
def unbindAll (dev : GttDev) (waits : ℕ → Waits) : List ℕ → GttState → ℤ × GttState
  | [], s => (0, s)
  | o :: l, s =>
    let r := objectUnbind dev s o (waits o)
    if r.1 = 0 then unbindAll dev waits l r.2 else r

/-- i915_gem_evict_something. -/
def evictSomething (dev : GttDev) (s : GttState) (q : MmRequest) (lru : List ℕ)
    (waits : ℕ → Waits) : ℤ × GttState :=
  let r := evictScan s q lru
  match r.1 with
  | none => (Errno.eNospc, r.2)
  | some evict => unbindAll dev waits evict r.2

/-- What i915_gem_object_bind_to_gtt asks i915_gem_evict_something for. -/
def evictRequest (dev : GttDev) (obj : GttObj) (alignment : ℕ) (mapAndFenceable : Bool) :
    MmRequest :=
  { bindRequest dev obj alignment mapAndFenceable with
    range := if mapAndFenceable then some (0, dev.mappableEnd) else none }

/-- The loop at `search_free`. `lru` is what the lists of inactive and active objects hold, and
`waits` what the waits of each round return. -/
def bindEvicting (dev : GttDev) (lru : GttState → List ℕ) (o alignment : ℕ)
    (mapAndFenceable : Bool) : List (ℕ → Waits) → GttState → ℤ × GttState
  | [], s => objectBindToGtt dev s o alignment mapAndFenceable 0 true
  | waits :: l, s =>
    let r := objectBindToGtt dev s o alignment mapAndFenceable 0 true
    if r.1 ≠ Errno.eNospc then r
    else
      let e := evictSomething dev r.2 (evictRequest dev (s.obj o) alignment mapAndFenceable)
        (lru r.2) waits
      if e.1 ≠ 0 then e else bindEvicting dev lru o alignment mapAndFenceable l e.2

/-! ### Runs -/

/-- The calls, each inside `struct_mutex`. i915_gem_evict_something is `evictScan` and the
`unbind` steps after it, and `bindToGtt` is taken again after it. -/
inductive GttCall where
  /-- A new object in a place that no bound object has. -/
  | create (o pages : ℕ) (pfnarray : ℕ → ℕ) (tiled : Bool)
  | setTiling (o : ℕ) (tiled : Bool)
  | bindToGtt (o alignment : ℕ) (mapAndFenceable : Bool) (getPages : ℤ) (kzalloc : Bool)
  | gttBind (o : ℕ)
  | pin (o : ℕ)
  | unpin (o : ℕ)
  | unbind (o : ℕ) (w : Waits)
  | setCacheLevel (o : ℕ) (level : CacheLevel) (unbind rebind : Waits)
  | scan (q : MmRequest) (lru : List ℕ)

/-- What the callers see to. -/
def GttCall.Allowed (s : GttState) : GttCall → Prop
  | .create o pages _ _ => (s.obj o).gttSpace = false ∧ 0 < pages
  | .setTiling _ _ => True
  | .bindToGtt o _ _ _ _ => (s.obj o).gttSpace = false ∧ 0 < (s.obj o).size
  | .gttBind o => (s.obj o).gttSpace = true
  | .pin o => (s.obj o).gttSpace = true
  | .unpin o => (s.obj o).pinCount ≠ 0
  | .unbind _ _ => True
  | .setCacheLevel _ _ _ _ => True
  | .scan q lru => q.Ok ∧ lru.Nodup ∧ ∀ o ∈ lru, (s.obj o).gttSpace = true

def GttCall.run (dev : GttDev) (s : GttState) : GttCall → GttState
  | .create o pages pfnarray tiled => s.setObj o fun _ =>
    { size := pages * pageSize, pfnarray := pfnarray, tiled := tiled
      cacheLevel := if dev.hasLlc then .llc else .none }
  | .setTiling o tiled => s.setObj o fun obj => { obj with tiled := tiled }
  | .bindToGtt o alignment mapAndFenceable getPages kzalloc =>
    (objectBindToGtt dev s o alignment mapAndFenceable getPages kzalloc).2
  | .gttBind o => gttBindObject dev s o (s.obj o).cacheLevel
  | .pin o => s.setObj o fun obj => { obj with pinCount := obj.pinCount + 1 }
  | .unpin o => s.setObj o fun obj => { obj with pinCount := obj.pinCount - 1 }
  | .unbind o w => (objectUnbind dev s o w).2
  | .setCacheLevel o level w w' => (objectSetCacheLevel dev s o level w w').2
  | .scan q lru => (evictScan s q lru).2

/-- The runs after i915_gem_setup_global_gtt, whatever the entries were. -/
def gttSystem (dev : GttDev) : Run.System GttState GttCall where
  init s := s.mm = gttSpaceInit dev ∧ s.obj = fun _ => {}
  step s a s' := a.Allowed s ∧ s' = a.run dev s

end GfxDrm.Gtt
