import GfxDrm.Errno
import GfxDrm.Lib.Pool
import GfxDrm.Lib.Run

/-! Handles, global names and references of shared GEM objects (drm_gem.c, drm_drv.c). One
step of a running call is what it does up to the end of a locked section, or between two. -/

namespace GfxDrm
open Pool Run

structure GemObject where
  refcount : ℕ := 0
  handleCount : ℕ := 0
  name : ℕ := 0
  freed : Bool := false
  deriving DecidableEq, Repr

/-! ### The hashed id lists of drm_sun_idr.c, all buckets in one list -/

/-- The counters `fr_id` and `fr_time` that all lists share. -/
structure FrCounters where
  frId : ℕ := 0
  frTime : ℕ := 0
  deriving DecidableEq, Repr

def idrListFind (head : List (ℕ × ℕ)) (name : ℕ) : Option ℕ :=
  (head.find? fun e => e.1 = name).map Prod.snd

def idrListRemove (head : List (ℕ × ℕ)) (name : ℕ) : List (ℕ × ℕ) :=
  head.eraseP fun e => e.1 = name

/-- The search for an id that is not in use, from `id` on. -/
def idrListNextId (head : List (ℕ × ℕ)) : ℕ → ℕ → ℕ
  | 0, id => id
  | fuel + 1, id => if (idrListFind head id).isSome then idrListNextId head fuel (id + 1) else id

/-- The next id, and the counters it was found with; `0x7fffffff` when none is left. -/
def idrListPickId (c : FrCounters) (head : List (ℕ × ℕ)) : ℕ × FrCounters :=
  let c : FrCounters :=
    if c.frId + 1 = 0x7fffffff then ⟨1, c.frTime + 1⟩ else { c with frId := c.frId + 1 }
  (if c.frTime = 0 then c.frId else idrListNextId head (0x7fffffff - c.frId) c.frId, c)

/-- The new id, the list with it, and the counters; `alloc` tells whether `kmem_zalloc`
succeeds. -/
def idrListGetNewAbove (c : FrCounters) (head : List (ℕ × ℕ)) (obj : ℕ) (alloc : Bool) :
    Except ℤ (ℕ × List (ℕ × ℕ)) × FrCounters :=
  let p := idrListPickId c head
  if 0x7fffffff ≤ p.1 then (.error Errno.eAgain, { p.2 with frId := 0 })
  else
    (if alloc then .ok (p.1, (p.1, obj) :: head) else .error (-1), { p.2 with frId := p.1 })

/-! ### Running calls -/

/-- Where a running call on `file` stands with its object. -/
inductive GemCall
  /-- i915_gem_create: the object is allocated, `drm_gem_handle_create` is next. -/
  | creating (file obj : ℕ)
  /-- drm_gem_open_ioctl: the name was looked up, `drm_gem_handle_create` is next. -/
  | opening (file obj : ℕ)
  /-- drm_gem_handle_create: the handle is in the table, its reference is not yet taken. -/
  | inserted (file obj : ℕ)
  /-- drm_gem_flink_ioctl: the handle was looked up. -/
  | flinkLooked (file obj : ℕ)
  /-- drm_gem_flink_ioctl: the object is named, the name's reference is not yet taken. -/
  | flinkNamed (file obj : ℕ)
  /-- drm_gem_handle_delete, drm_gem_release: the handle is off the table; `rest` are the
  objects `drm_gem_release` still has to visit. -/
  | removed (file obj : ℕ) (rest : List ℕ)
  /-- drm_gem_object_handle_free: the name is gone, its reference is not yet dropped. -/
  | unnamed (file obj : ℕ) (rest : List ℕ)
  /-- `drm_gem_object_unreference` is next. -/
  | unref (file obj : ℕ) (rest : List ℕ)
  deriving DecidableEq, Repr

namespace GemCall

def file : GemCall → ℕ
  | creating f _ | opening f _ | inserted f _ | flinkLooked f _ | flinkNamed f _
  | removed f _ _ | unnamed f _ _ | unref f _ _ => f

def obj : GemCall → ℕ
  | creating _ o | opening _ o | inserted _ o | flinkLooked _ o | flinkNamed _ o
  | removed _ o _ | unnamed _ o _ | unref _ o _ => o

def rest : GemCall → List ℕ
  | removed _ _ r | unnamed _ _ r | unref _ _ r => r
  | _ => []

def naming : GemCall → Bool
  | flinkNamed .. => true
  | _ => false

/-- The end of one object's turn. -/
def finish (file : ℕ) : List ℕ → Option GemCall
  | [] => none
  | o :: rest => some (removed file o rest)

end GemCall

/-- The device, the `object_idr` of its files and the calls that run. -/
structure GemDevice where
  obj : ℕ → GemObject := fun _ => {}
  nextObj : ℕ := 0
  files : List (List (ℕ × ℕ)) := []
  objectNameIdr : List (ℕ × ℕ) := []
  counters : FrCounters := {}
  calls : List GemCall := []

namespace GemDevice

def setObj (d : GemDevice) (o : ℕ) (f : GemObject → GemObject) : GemDevice :=
  { d with obj := Function.update d.obj o (f (d.obj o)) }

def setCall (d : GemDevice) (i : ℕ) (c : Option GemCall) : GemDevice :=
  { d with calls := moveOn d.calls i c }

def objectIdr (d : GemDevice) (f : ℕ) : List (ℕ × ℕ) := d.files.getD f []

def setObjectIdr (d : GemDevice) (f : ℕ) (table : List (ℕ × ℕ)) : GemDevice :=
  { d with files := d.files.set f table }

end GemDevice

def krefGet (g : GemObject) : GemObject := { g with refcount := g.refcount + 1 }

/-- `kref_put` with `drm_gem_object_free`. -/
def krefPut (g : GemObject) : GemObject :=
  { g with refcount := g.refcount - 1, freed := g.freed || decide (g.refcount - 1 = 0) }

/-- `i915_gem_object_free`, whatever the count is. -/
def i915GemObjectFree (g : GemObject) : GemObject := { g with refcount := 0, freed := true }

/-- `kref_put` with `drm_gem_object_ref_bug`. -/
def krefPutBug (g : GemObject) : GemObject := { g with refcount := g.refcount - 1 }

/-- `drm_gem_object_handle_reference`. -/
def handleReference (g : GemObject) : GemObject :=
  { krefGet g with handleCount := g.handleCount + 1 }

/-- `drm_gem_object_handle_unreference` up to its last `drm_gem_object_unreference`. -/
def handleUnreference (d : GemDevice) (i f o : ℕ) (rest : List ℕ) : GemDevice :=
  let g := d.obj o
  if g.handleCount = 0 then d.setCall i (GemCall.finish f rest)
  else
    let d := d.setObj o fun g => { g with handleCount := g.handleCount - 1 }
    if g.handleCount - 1 = 0 ∧ g.name ≠ 0 then
      { (d.setObj o fun g => { g with name := 0 }).setCall i (some (.unnamed f o rest)) with
        objectNameIdr := idrListRemove d.objectNameIdr g.name }
    else d.setCall i (some (.unref f o rest))

/-- The `table_lock` section of `drm_gem_handle_create`; `onError` is where the caller goes
when no handle was made. -/
def handleCreate (d : GemDevice) (i f o : ℕ) (alloc : Bool) (onError : GemDevice) : GemDevice :=
  match idrListGetNewAbove d.counters (d.objectIdr f) o alloc with
  | (.ok (_, table), c) =>
    { (d.setObjectIdr f table).setCall i (some (.inserted f o)) with counters := c }
  | (.error e, c) => { (if e = Errno.eAgain then d else onError) with counters := c }

/-- The `object_name_lock` section of `drm_gem_flink_ioctl`. -/
def flinkName (d : GemDevice) (i f o : ℕ) (alloc : Bool) : GemDevice :=
  if (d.obj o).name ≠ 0 then d.setCall i (some (.unref f o []))
  else
    match idrListGetNewAbove d.counters d.objectNameIdr o alloc with
    | (.ok (n, names), c) =>
      { (d.setObj o fun g => { g with name := n }).setCall i (some (.flinkNamed f o)) with
        objectNameIdr := names, counters := c }
    | (.error e, c) =>
      { (if e = Errno.eAgain then d else d.setCall i (some (.unref f o []))) with counters := c }

/-- The next step of running call number `i`. -/
def GemCall.run (d : GemDevice) (i : ℕ) (alloc : Bool) : GemCall → GemDevice
  | .creating f o =>
    handleCreate d i f o alloc ((d.setObj o i915GemObjectFree).setCall i none)
  | .opening f o => handleCreate d i f o alloc (d.setCall i (some (.unref f o [])))
  | .inserted f o => (d.setObj o handleReference).setCall i (some (.unref f o []))
  | .flinkLooked f o => flinkName d i f o alloc
  | .flinkNamed f o => (d.setObj o krefGet).setCall i (some (.unref f o []))
  | .removed f o rest => handleUnreference d i f o rest
  | .unnamed f o rest =>
    (d.setObj o krefPutBug).setCall i (some (.unref f o rest))
  | .unref f o rest => (d.setObj o krefPut).setCall i (GemCall.finish f rest)

/-- What may happen next: a call starts with its first locked section, or a running call
takes a step. -/
inductive GemEvent
  | openFile
  | create (file : ℕ)
  | open (file name : ℕ)
  | flink (file handle : ℕ)
  | delete (file handle : ℕ)
  | release (file : ℕ)
  | run (i : ℕ) (alloc : Bool)
  deriving DecidableEq, Repr

/-- A file is released when no call on it runs any more; its number may then be used again. -/
def gemStep (d : GemDevice) : GemEvent → Option GemDevice
  | .openFile => some { d with files := d.files ++ [[]] }
  | .create f =>
    if d.files.length ≤ f then none
    else some { d with
      obj := Function.update d.obj d.nextObj { refcount := 1 }
      nextObj := d.nextObj + 1
      calls := .creating f d.nextObj :: d.calls }
  | .open f name =>
    if d.files.length ≤ f then none
    else match idrListFind d.objectNameIdr name with
    | none => some d
    | some o => some { d.setObj o krefGet with calls := .opening f o :: d.calls }
  | .flink f handle =>
    match idrListFind (d.objectIdr f) handle with
    | none => some d
    | some o => some { d.setObj o krefGet with calls := .flinkLooked f o :: d.calls }
  | .delete f handle =>
    match idrListFind (d.objectIdr f) handle with
    | none => some d
    | some o =>
      some { d.setObjectIdr f (idrListRemove (d.objectIdr f) handle) with
        calls := .removed f o [] :: d.calls }
  | .release f =>
    if d.calls.any fun c => c.file = f then none
    else
      some { d.setObjectIdr f [] with
        calls := (GemCall.finish f ((d.objectIdr f).map Prod.snd)).toList ++ d.calls }
  | .run i alloc => d.calls[i]?.map fun c => c.run d i alloc

abbrev gemSystem : System GemDevice GemEvent := System.ofStep (fun d => d = {}) gemStep

/-! The hashed id lists hand out ids that are not in use. -/

variable {head head' : List (ℕ × ℕ)} {name id o obj : ℕ} {c c' : FrCounters} {alloc : Bool}

theorem mem_of_idrListFind (h : idrListFind head name = some o) : (name, o) ∈ head := by
  obtain ⟨e, he, rfl⟩ := Option.map_eq_some_iff.mp h
  have hkey : e.1 = name := by simpa using List.find?_some he
  rw [← hkey]
  exact List.mem_of_find?_eq_some he

theorem idrListFind_none (h : idrListFind head name = none) : ∀ e ∈ head, e.1 ≠ name := by
  simpa [idrListFind] using h

/-- Removing the name that was found takes away the pair that was found. -/
theorem idrListRemove_perm (h : idrListFind head name = some o) :
    head.Perm ((name, o) :: idrListRemove head name) := by
  induction head with
  | nil => simp [idrListFind] at h
  | cons e l ih =>
    unfold idrListFind idrListRemove at *
    by_cases he : e.1 = name
    · rw [List.find?_cons_of_pos (by simpa using he), Option.map_some, Option.some.injEq] at h
      rw [List.eraseP_cons_of_pos (by simpa using he), ← he, ← h]
    · rw [List.find?_cons_of_neg (by simpa using he)] at h
      rw [List.eraseP_cons_of_neg (by simpa using he)]
      exact ((ih h).cons e).trans (List.Perm.swap _ _ _)

theorem idrListNextId_spec (head : List (ℕ × ℕ)) (fuel id : ℕ) :
    id ≤ idrListNextId head fuel id ∧ idrListNextId head fuel id ≤ id + fuel ∧
      (idrListNextId head fuel id < id + fuel →
        idrListFind head (idrListNextId head fuel id) = none) := by
  induction fuel generalizing id with
  | zero => simp [idrListNextId]
  | succ fuel ih =>
    unfold idrListNextId
    cases hf : idrListFind head id with
    | none => simp [hf]
    | some o =>
      obtain ⟨h1, h2, h3⟩ := ih (id + 1)
      simp only [Option.isSome_some, if_true]
      exact ⟨by omega, by omega, fun hlt => h3 (by omega)⟩

/-- The id that is picked is not 0; while the counters never wrapped it is the next one,
later it is one that is not in use. -/
theorem idrListPickId_spec (hlt : c.frId < 0x7fffffff) (head : List (ℕ × ℕ)) :
    (idrListPickId c head).1 ≠ 0 ∧
      ((idrListPickId c head).2.frTime = 0 → c.frTime = 0 ∧
        (idrListPickId c head).1 = c.frId + 1 ∧ (idrListPickId c head).1 < 0x7fffffff) ∧
      ((idrListPickId c head).2.frTime ≠ 0 → (idrListPickId c head).1 < 0x7fffffff →
        idrListFind head (idrListPickId c head).1 = none) := by
  unfold idrListPickId
  by_cases hw : c.frId + 1 = 0x7fffffff
  · obtain ⟨h1, h2, h3⟩ := idrListNextId_spec head (0x7fffffff - 1) 1
    simp only [if_pos hw, Nat.succ_ne_zero, if_false]
    exact ⟨by omega, False.elim, fun _ h => h3 (by omega)⟩
  · simp only [if_neg hw]
    by_cases ht : c.frTime = 0
    · simp only [ht, if_true]
      exact ⟨by omega, fun _ => ⟨trivial, trivial, by omega⟩, fun h => absurd rfl h⟩
    · obtain ⟨h1, h2, h3⟩ :=
        idrListNextId_spec head (0x7fffffff - (c.frId + 1)) (c.frId + 1)
      simp only [ht, if_false]
      exact ⟨by omega, False.elim, fun _ h => h3 (by omega)⟩

/-- The counters stay small, and only grow until they first wrap. -/
theorem idrListGetNewAbove_counters (head : List (ℕ × ℕ)) (obj : ℕ) (alloc : Bool)
    (hlt : c.frId < 0x7fffffff) :
    (idrListGetNewAbove c head obj alloc).2.frId < 0x7fffffff ∧
      ((idrListGetNewAbove c head obj alloc).2.frTime = 0 →
        c.frTime = 0 ∧ c.frId ≤ (idrListGetNewAbove c head obj alloc).2.frId) := by
  obtain ⟨-, h1, -⟩ := idrListPickId_spec hlt head
  unfold idrListGetNewAbove
  dsimp only
  split
  · exact ⟨Nat.zero_lt_succ _, fun ht => by have := h1 ht; omega⟩
  · refine ⟨by dsimp only; omega, fun ht => ?_⟩
    obtain ⟨h2, h3, -⟩ := h1 ht
    exact ⟨h2, by dsimp only; omega⟩

theorem idrListGetNewAbove_list
    (h : idrListGetNewAbove c head obj alloc = (.ok (id, head'), c')) :
    head' = (id, obj) :: head ∧ id = (idrListPickId c head).1 ∧ id < 0x7fffffff ∧
      c'.frId = id ∧ alloc = true := by
  unfold idrListGetNewAbove at h
  dsimp only at h
  split at h
  · simp at h
  · rename_i hid
    cases alloc with
    | false => simp at h
    | true =>
      obtain ⟨⟨rfl, rfl⟩, rfl⟩ := h
      exact ⟨rfl, rfl, by omega, rfl, rfl⟩

/-- A new id is not 0 and not in use. -/
theorem idrListGetNewAbove_ok (hlt : c.frId < 0x7fffffff)
    (hle : c.frTime = 0 → ∀ e ∈ head, e.1 ≤ c.frId)
    (h : idrListGetNewAbove c head obj alloc = (.ok (id, head'), c')) :
    id ≠ 0 ∧ ∀ e ∈ head, e.1 ≠ id := by
  obtain ⟨-, rfl, hid, -, -⟩ := idrListGetNewAbove_list h
  obtain ⟨h0, h1, h2⟩ := idrListPickId_spec hlt head
  refine ⟨h0, fun e he => ?_⟩
  by_cases ht : (idrListPickId c head).2.frTime = 0
  · obtain ⟨h3, h4, -⟩ := h1 ht
    have := hle h3 e he
    omega
  · exact idrListFind_none (h2 ht hid) e he

end GfxDrm
