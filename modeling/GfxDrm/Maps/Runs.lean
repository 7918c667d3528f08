import GfxDrm.Lib.Run
import GfxDrm.Lib.Word
import GfxDrm.Idr.Low

/-! The maps of a device, the tokens user space gets for them, and the id table the tokens are
looked up in (drm_bufs.c, drm_gem.c, drm_sunmod.c). -/

namespace GfxDrm.Maps
open Run

/-- enum drm_map_type. -/
inductive DrmMapType where
  | frameBuffer
  | registers
  | shm
  | agp
  | scatterGather
  | consistent
  | gem
  deriving DecidableEq, Repr

def drmContainsLock : ℕ := 0x20
def drmRemovable : ℕ := 0x40
def drmDriver : ℕ := 0x80

def hasFlag (flags flag : ℕ) : Bool := flags &&& flag ≠ 0

/-- drm_local_map, with the number of bytes behind `handle`, if there is one. -/
structure DrmLocalMap where
  offset : ℕ
  size : ℕ
  type : DrmMapType
  flags : ℕ
  backing : Option ℕ := none
  deriving DecidableEq, Repr

/-- drm_map_list. -/
structure DrmMapList where
  ptr : ℕ
  map : DrmLocalMap
  userToken : ℕ := 0
  master : Option ℕ := none
  /-- `kfree` has been called for it and for its map. -/
  freed : Bool := false
  deriving DecidableEq, Repr

/-- The list of maps in its order, and the GEM objects' own entries, which are on no list. -/
structure MapState where
  maplist : List DrmMapList := []
  gems : List DrmMapList := []
  mapIdr : Idr ℕ := idrInit
  /-- `dev->primary->master`. -/
  master : Option ℕ := none
  /-- Whose `lock.hw_lock` is set. -/
  hwLock : Option ℕ → Bool := fun _ => false
  hasAgp : Bool := true
  agpBase : ℕ := 0
  /-- `dev->sg`: its address and its bytes. -/
  sg : Option (ℕ × ℕ) := none

/-- The entries there are. -/
def MapState.entries (s : MapState) : List DrmMapList := s.maplist ++ s.gems

/-! ### Tokens -/

/-- `newid << PAGE_SHIFT` of an `int`, as a `uint64_t`. -/
def userToken (newid : ℕ) : ℕ := (Word.signed 32 (newid * 2 ^ 12) % (2 ^ 64 : ℕ)).toNat

/-- `token >> PAGE_SHIFT` as the `uint32_t` the id table takes. -/
def tokenId (token : ℕ) : ℕ := token / 2 ^ 12 % 2 ^ 32

/-- __find_local_map. -/
def findLocalMap (s : MapState) (offset : ℕ) : Option ℕ := idrFind s.mapIdr (tokenId offset)

/-- drm_map_handle; `alloc` tells whether idr_get_new_above gets its memory. -/
def drmMapHandle (idr : Idr ℕ) (list : DrmMapList) (alloc : Bool) :
    Except ℤ DrmMapList × Idr ℕ :=
  match idrGetNewAbove idr (some list.ptr) 1 alloc with
  | (.error ret, idr) => (.error ret, idr)
  | (.ok newid, idr) => (.ok { list with userToken := userToken newid }, idr)

/-! ### Adding maps -/

/-- drm_find_matching_map. -/
def drmFindMatchingMap (s : MapState) (map : DrmLocalMap) : Option DrmMapList :=
  s.maplist.find? fun entry =>
    if map.type ≠ entry.map.type ∨ entry.master ≠ s.master then false
    else
      match map.type with
      | .shm => map.flags = drmContainsLock || entry.map.offset = map.offset
      | .registers | .frameBuffer =>
        entry.map.offset % 2 ^ 32 = map.offset % 2 ^ 32 || entry.map.offset = map.offset
      | _ => entry.map.offset = map.offset

structure AddmapRequest where
  offset : ℕ
  size : ℕ
  type : DrmMapType
  flags : ℕ
  deriving Repr

/-- What the calls outside return: whether there is memory for the map, the address of the new
shared memory, the mapping of registers or of the aperture, the cookie, the memory for the entry,
and for its id. -/
structure AddmapOutcome where
  map : Bool := true
  umem : Option ℕ := none
  mapped : Bool := true
  cookie : Bool := true
  list : Option ℕ := none
  alloc : Bool := true

/-- What drm_addmap_core has come to before it makes an entry. -/
inductive Prepared where
  | failed (ret : ℤ)
  /-- The map is a duplicate of one on the list. -/
  | duplicate (list : DrmMapList) (map : DrmLocalMap)
  | new (map : DrmLocalMap)

/-- The checks of drm_addmap_core. -/
def checkedMap (r : AddmapRequest) : Except ℤ DrmLocalMap :=
  let map : DrmLocalMap := { offset := r.offset, size := r.size, type := r.type, flags := r.flags }
  if hasFlag map.flags drmRemovable ∧ map.type ≠ .shm then .error Errno.eInval
  else
    let map :=
      if map.type = .shm then { map with size := (map.size + 4095) % 2 ^ 64 / 4096 * 4096 } else map
    if map.offset % 4096 ≠ 0 ∨ map.size % 4096 ≠ 0 then .error Errno.eInval
    else if Word.add 64 map.offset map.size < map.offset then .error Errno.eInval
    else .ok map

/-- The cases of drm_addmap_core, with the locks they set. -/
def prepareMap (s : MapState) (map : DrmLocalMap) (o : AddmapOutcome) :
    Prepared × (Option ℕ → Bool) :=
  match map.type with
  | .registers | .frameBuffer =>
    match drmFindMatchingMap s map with
    | some list => (.duplicate list map, s.hwLock)
    | none =>
      if map.type = .registers then
        if o.mapped then (.new { map with backing := some map.size }, s.hwLock)
        else (.failed Errno.eNomem, s.hwLock)
      else (.new map, s.hwLock)
  | .shm =>
    match drmFindMatchingMap s map with
    | some list => (.duplicate list map, s.hwLock)
    | none =>
      match o.umem with
      | none => (.failed Errno.eNomem, s.hwLock)
      | some handle =>
        let new : DrmLocalMap := { map with offset := handle, backing := some map.size }
        if hasFlag map.flags drmContainsLock then
          if s.hwLock s.master then (.failed Errno.eBusy, s.hwLock)
          else (.new new, Function.update s.hwLock s.master true)
        else (.new new, s.hwLock)
  | .agp =>
    if !s.hasAgp then (.failed Errno.eInval, s.hwLock)
    else if !o.mapped then (.failed Errno.ePerm, s.hwLock)
    else if !o.cookie then (.failed Errno.eNomem, s.hwLock)
    else
      (.new { map with offset := Word.add 64 map.offset s.agpBase, backing := some map.size },
        s.hwLock)
  | .gem => (.new map, s.hwLock)
  | .scatterGather =>
    match s.sg with
    | none => (.failed Errno.eInval, s.hwLock)
    | some (virtual, bytes) =>
      if !o.cookie then (.failed Errno.eNomem, s.hwLock)
      else
        (.new { map with
          offset := Word.add 64 map.offset virtual, backing := some (bytes - map.offset) },
          s.hwLock)
  | .consistent => (.failed Errno.eNotsup, s.hwLock)

/-- The new size of a map that was on the list. -/
def MapState.resize (s : MapState) (ptr size : ℕ) : MapState :=
  { s with
    maplist := s.maplist.map fun e =>
      if e.ptr = ptr then { e with map := { e.map with size := size } } else e }

/-- drm_addmap_core, with the entry it answers. An entry that gets no id is freed, on the list. -/
def drmAddmapCore (s : MapState) (r : AddmapRequest) (o : AddmapOutcome) :
    Except ℤ DrmMapList × MapState :=
  if !o.map then (.error Errno.eNomem, s)
  else
    match checkedMap r with
    | .error ret => (.error ret, s)
    | .ok map =>
      let p := prepareMap s map o
      let s := { s with hwLock := p.2 }
      match p.1 with
      | .failed ret => (.error ret, s)
      | .duplicate list map =>
        (.ok { list with map := { list.map with size := map.size } }, s.resize list.ptr map.size)
      | .new map =>
        match o.list with
        | none => (.error Errno.eInval, s)
        | some ptr =>
          let list : DrmMapList := { ptr := ptr, map := map }
          match drmMapHandle s.mapIdr list o.alloc with
          | (.error ret, idr) =>
            (.error ret,
              { s with maplist := { list with freed := true } :: s.maplist, mapIdr := idr })
          | (.ok list, idr) =>
            let list := { list with master := if hasFlag map.flags drmDriver then none else s.master }
            (.ok list, { s with maplist := list :: s.maplist, mapIdr := idr })

/-- drm_addmap_ioctl, which answers the token. -/
def drmAddmapIoctl (s : MapState) (suser : Bool) (r : AddmapRequest) (o : AddmapOutcome) :
    Except ℤ ℕ × MapState :=
  if !(suser || r.type = .agp || r.type = .shm) then (.error Errno.ePerm, s)
  else
    let res := drmAddmapCore s r o
    (res.1.map DrmMapList.userToken, res.2)

/-! ### Removing maps -/

/-- drm_rmmap_locked of the map of the entry `ptr`. -/
def drmRmmapLocked (s : MapState) (ptr : ℕ) (alloc : Bool) : ℤ × MapState :=
  match s.maplist.find? fun e => e.ptr = ptr with
  | none => (Errno.eInval, s)
  | some e =>
    (0, { s with
      maplist := s.maplist.erase e
      mapIdr := (idrRemove s.mapIdr (tokenId e.userToken) alloc).2 })

/-- drm_rmmap_ioctl. -/
def drmRmmapIoctl (s : MapState) (handle : ℕ) (alloc : Bool) : ℤ × MapState :=
  match s.maplist.find? fun e => e.userToken = handle && hasFlag e.map.flags drmRemovable with
  | none => (Errno.eInval, s)
  | some e =>
    if e.map.type = .registers ∨ e.map.type = .frameBuffer then (0, s)
    else drmRmmapLocked s e.ptr alloc

/-! ### GEM objects -/

/-- The end of drm_gem_object_init, for an object of `realSize` bytes. -/
def drmGemObjectInit (s : MapState) (ptr realSize : ℕ) (alloc : Bool) : ℤ × MapState :=
  let list : DrmMapList :=
    { ptr := ptr
      map := { offset := ptr % 2 ^ 32, size := realSize, type := .gem, flags := 0x10 ||| drmRemovable
               backing := some realSize } }
  match drmMapHandle s.mapIdr list alloc with
  | (.error _, idr) => (-1, { s with mapIdr := idr })
  | (.ok list, idr) => (0, { s with gems := list :: s.gems, mapIdr := idr })

/-- drm_gem_object_release. -/
def drmGemObjectRelease (s : MapState) (e : DrmMapList) (alloc : Bool) : MapState :=
  { s with
    gems := s.gems.erase e
    mapIdr := (idrRemove s.mapIdr (tokenId e.userToken) alloc).2 }

/-! ### Runs -/

inductive MapAction where
  | addmap (r : AddmapRequest) (o : AddmapOutcome)
  | addmapIoctl (suser : Bool) (r : AddmapRequest) (o : AddmapOutcome)
  | rmmap (ptr : ℕ) (alloc : Bool)
  | rmmapIoctl (handle : ℕ) (alloc : Bool)
  | gemInit (ptr realSize : ℕ) (alloc : Bool)
  | gemRelease (e : DrmMapList) (alloc : Bool)
  | setMaster (master : Option ℕ)

/-- New memory is none of the memory there is. -/
def MapState.Fresh (s : MapState) (ptr : ℕ) : Prop := ∀ e ∈ s.entries, e.ptr ≠ ptr

variable (s : MapState)

def MapAction.Enabled : MapAction → Prop
  | .addmap _ o | .addmapIoctl _ _ o => ∀ ptr ∈ o.list, s.Fresh ptr
  | .gemInit ptr _ _ => s.Fresh ptr
  | .gemRelease e _ => e ∈ s.gems
  | .rmmap _ _ | .rmmapIoctl _ _ | .setMaster _ => True

def MapAction.apply : MapAction → MapState
  | .addmap r o => (drmAddmapCore s r o).2
  | .addmapIoctl suser r o => (drmAddmapIoctl s suser r o).2
  | .rmmap ptr alloc => (drmRmmapLocked s ptr alloc).2
  | .rmmapIoctl handle alloc => (drmRmmapIoctl s handle alloc).2
  | .gemInit ptr realSize alloc => (drmGemObjectInit s ptr realSize alloc).2
  | .gemRelease e alloc => drmGemObjectRelease s e alloc
  | .setMaster master => { s with master := master }

/-- The entries' tokens are apart, each leads to its own entry, and no map is larger than what is
behind its handle. -/
structure MapsOk : Prop where
  tokens : (s.entries.map DrmMapList.userToken).Nodup
  found : ∀ e ∈ s.entries, findLocalMap s e.userToken = some e.ptr
  ptrs : (s.entries.map DrmMapList.ptr).Nodup
  backed : ∀ e ∈ s.entries, ∀ b ∈ e.map.backing, e.map.size ≤ b
  kept : ∀ e ∈ s.entries, e.freed = false

/-- A device with its scatter-gather memory and its aperture, and no maps. -/
def mapSystem : System MapState MapAction where
  init s := s.maplist = [] ∧ s.gems = [] ∧ s.mapIdr = idrInit
  step s a s' := a.Enabled s ∧ s' = a.apply s

/-! When tokens lead back to their own maps. -/

/-! ### Tokens of low ids -/

/-- The ids whose tokens fit the signed int they are made in. -/
abbrev lowIds : ℕ := 2 ^ 19

theorem userToken_of_lt {id : ℕ} (h : id < lowIds) : userToken id = id * 4096 := by
  rw [lowIds] at h
  rw [userToken, Word.signed]
  omega

theorem tokenId_userToken {id : ℕ} (h : id < lowIds) : tokenId (userToken id) = id := by
  rw [userToken_of_lt h, tokenId]
  rw [lowIds] at h
  omega

theorem userToken_inj {id id' : ℕ} (h : id < lowIds) (h' : id' < lowIds)
    (heq : userToken id = userToken id') : id = id' := by
  rw [← tokenId_userToken h, heq, tokenId_userToken h']

/-! ### The invariant -/

structure MapsInv (s : MapState) : Prop where
  sound : Idr.Sound s.mapIdr
  low : Idr.FromOne lowIds s.mapIdr.freeIdRanges
  ids : ∀ e ∈ s.entries, ∃ id, 1 ≤ id ∧ id < lowIds ∧ e.userToken = userToken id ∧
    s.mapIdr.ptrs id = some (some e.ptr)
  ptrs : (s.entries.map DrmMapList.ptr).Nodup
  backed : ∀ e ∈ s.entries, ∀ b ∈ e.map.backing, e.map.size ≤ b
  kept : ∀ e ∈ s.entries, e.freed = false

variable {s : MapState}

theorem MapsInv.mapsOk (h : MapsInv s) : MapsOk s := by
  refine ⟨?_, fun e he => ?_, h.ptrs, h.backed, h.kept⟩
  · refine (List.nodup_map_iff_inj_on h.ptrs.of_map).mpr fun e he e' he' heq => ?_
    obtain ⟨id, -, hlt, htok, hptr⟩ := h.ids e he
    obtain ⟨id', -, hlt', htok', hptr'⟩ := h.ids e' he'
    have hid : id = id' := userToken_inj hlt hlt' (by rw [← htok, ← htok', heq])
    rw [hid, hptr'] at hptr
    exact List.inj_on_of_nodup_map h.ptrs he he' (Option.some.inj (Option.some.inj hptr)).symm
  · obtain ⟨id, -, hlt, htok, hptr⟩ := h.ids e he
    have hlook : s.mapIdr.usedIds.lookup id = some (some e.ptr) := hptr
    rw [findLocalMap, htok, tokenId_userToken hlt, idrFind, hlook]
    rfl

/-! ### The condition -/

/-- An id whose token is right is left. -/
def MapState.LowIdLeft (s : MapState) : Prop :=
  ∃ id, 1 ≤ id ∧ id < lowIds ∧ Idr.Available s.mapIdr id

/-- A duplicate does not outgrow what is behind the map it is one of; a new entry gets an id whose
token is right, and its map is not larger than what is behind it. -/
def AddmapWhole (s : MapState) (r : AddmapRequest) (o : AddmapOutcome) : Prop :=
  o.map = true → ∀ map, checkedMap r = .ok map →
    match (prepareMap s map o).1 with
    | .failed _ => True
    | .duplicate list map => ∀ b ∈ list.map.backing, map.size ≤ b
    | .new map => o.list ≠ none →
      o.alloc = true ∧ s.LowIdLeft ∧ ∀ b ∈ map.backing, map.size ≤ b

def MapAction.Whole (s : MapState) : MapAction → Prop
  | .addmap r o => AddmapWhole s r o
  | .addmapIoctl suser r o =>
    (suser || r.type = .agp || r.type = .shm) = true → AddmapWhole s r o
  | .gemInit _ _ alloc =>
    alloc = true → (∃ id, 1 ≤ id ∧ Idr.Available s.mapIdr id) → s.LowIdLeft
  | .rmmap _ _ | .rmmapIoctl _ _ | .gemRelease _ _ | .setMaster _ => True

/-! ### Ids -/

theorem sound_used_lt {idr : Idr ℕ} (h : Idr.Sound idr) {id : ℕ} (hu : idr.Used id) :
    id < Idr.idEnd := by
  obtain ⟨lost, -, hbelow⟩ := h
  exact hbelow id (.inl hu)

/-- drm_map_handle gives the entry an unused id with a right token, as long as there is one, or
none at all. -/
theorem MapsInv.handle (h : MapsInv s) (list : DrmMapList) (alloc : Bool)
    (hleft : alloc = true → (∃ id, 1 ≤ id ∧ Idr.Available s.mapIdr id) → s.LowIdLeft) :
    Idr.Sound (drmMapHandle s.mapIdr list alloc).2 ∧
      Idr.FromOne lowIds (drmMapHandle s.mapIdr list alloc).2.freeIdRanges ∧
      ((∃ id, (drmMapHandle s.mapIdr list alloc).1 = .ok { list with userToken := userToken id } ∧
          1 ≤ id ∧ id < lowIds ∧ s.mapIdr.ptrs id = none ∧
          (drmMapHandle s.mapIdr list alloc).2.ptrs =
            Function.update s.mapIdr.ptrs id (some (some list.ptr))) ∨
        (∃ e, (drmMapHandle s.mapIdr list alloc).1 = .error e) ∧
          (drmMapHandle s.mapIdr list alloc).2.ptrs = s.mapIdr.ptrs) := by
  obtain ⟨hsound, hcases⟩ := h.sound.getNewAbove (some list.ptr) 1 alloc
  obtain ⟨hlow, hid⟩ := h.low.getNewAbove (some list.ptr) alloc
  unfold drmMapHandle
  rcases hcases with ⟨id, hok, hpos, hfree, hptrs⟩ | ⟨⟨e, herr⟩, hptrs⟩
  · have hpos : 1 ≤ id := by
      have hone : (1 : Int32).toInt = 1 := rfl
      omega
    have halloc : alloc = true := by
      cases alloc with
      | true => rfl
      | false =>
        obtain ⟨r₀, r₁, -, -, -, -, -, -, hget⟩ := h.low.getNewAbove_eq (some list.ptr) false
        rw [hget] at hok
        cases hin : idrGetFreeIdInRange r₁ <;> rw [hin] at hok <;> cases hok
    have hused : Idr.Used (idrGetNewAbove s.mapIdr (some list.ptr) 1 alloc).2 id := by
      rw [Idr.Used, hptrs, Function.update_self]
      exact Option.some_ne_none _
    have havail := h.low.available_of_ok (some list.ptr) hok hpos (sound_used_lt hsound hused)
    have hlt := hid id hok (hleft halloc ⟨id, hpos, havail⟩)
    generalize idrGetNewAbove s.mapIdr (some list.ptr) 1 alloc = res at *
    obtain ⟨ret, idr⟩ := res
    subst hok
    exact ⟨hsound, hlow, .inl ⟨id, rfl, hpos, hlt, hfree, hptrs⟩⟩
  · generalize idrGetNewAbove s.mapIdr (some list.ptr) 1 alloc = res at *
    obtain ⟨ret, idr⟩ := res
    subst herr
    exact ⟨hsound, hlow, .inr ⟨⟨e, rfl⟩, hptrs⟩⟩

theorem MapsInv.handle_ok (h : MapsInv s) (list : DrmMapList) (hleft : s.LowIdLeft) :
    ∃ l, (drmMapHandle s.mapIdr list true).1 = .ok l := by
  obtain ⟨id, hpos, -, havail⟩ := hleft
  obtain ⟨newid, hok⟩ := h.low.getNewAbove_ok (some list.ptr) ⟨id, hpos, havail⟩
  unfold drmMapHandle
  generalize idrGetNewAbove s.mapIdr (some list.ptr) 1 true = res at *
  obtain ⟨ret, idr⟩ := res
  subst hok
  exact ⟨_, rfl⟩

/-! ### Steps -/

variable {s' : MapState}

/-- Fewer entries, whose ids are what they were. -/
theorem MapsInv.mono (h : MapsInv s) (hsub : s'.entries.Sublist s.entries)
    (hsound : Idr.Sound s'.mapIdr) (hlow : Idr.FromOne lowIds s'.mapIdr.freeIdRanges)
    (hkept : ∀ e ∈ s'.entries, ∀ id, id < lowIds → e.userToken = userToken id →
      s'.mapIdr.ptrs id = s.mapIdr.ptrs id) : MapsInv s' := by
  refine ⟨hsound, hlow, fun e he => ?_, h.ptrs.sublist (hsub.map _),
    fun e he => h.backed e (hsub.subset he), fun e he => h.kept e (hsub.subset he)⟩
  obtain ⟨id, hpos, hlt, htok, hptr⟩ := h.ids e (hsub.subset he)
  exact ⟨id, hpos, hlt, htok, (hkept e he id hlt htok).trans hptr⟩

theorem MapsInv.congr (h : MapsInv s) (hentries : s'.entries = s.entries)
    (hidr : s'.mapIdr = s.mapIdr) : MapsInv s' :=
  h.mono (hentries ▸ List.Sublist.refl _) (hidr ▸ h.sound) (hidr ▸ h.low) fun _ _ _ _ _ => by
    rw [hidr]

/-- One entry more, with an id of its own. -/
theorem MapsInv.insert (h : MapsInv s) {e : DrmMapList} {id : ℕ}
    (hperm : s'.entries.Perm (e :: s.entries)) (hfresh : s.Fresh e.ptr) (hpos : 1 ≤ id)
    (hlt : id < lowIds) (htok : e.userToken = userToken id) (hfree : s.mapIdr.ptrs id = none)
    (hptrs : s'.mapIdr.ptrs = Function.update s.mapIdr.ptrs id (some (some e.ptr)))
    (hsound : Idr.Sound s'.mapIdr) (hlow : Idr.FromOne lowIds s'.mapIdr.freeIdRanges)
    (hbacked : ∀ b ∈ e.map.backing, e.map.size ≤ b) (hkept : e.freed = false) : MapsInv s' := by
  have hmem : ∀ e', e' ∈ s'.entries ↔ e' = e ∨ e' ∈ s.entries := fun e' => by
    rw [hperm.mem_iff, List.mem_cons]
  refine ⟨hsound, hlow, fun e' he' => ?_, ?_, fun e' he' => ?_, fun e' he' => ?_⟩
  · rw [hptrs]
    rcases (hmem e').mp he' with rfl | he'
    · exact ⟨id, hpos, hlt, htok, Function.update_self ..⟩
    · obtain ⟨id', hpos', hlt', htok', hptr'⟩ := h.ids e' he'
      have hne : id' ≠ id := fun heq => by
        rw [heq, hfree] at hptr'
        cases hptr'
      exact ⟨id', hpos', hlt', htok', (Function.update_of_ne hne ..).trans hptr'⟩
  · refine (hperm.map DrmMapList.ptr).nodup_iff.mpr (List.nodup_cons.mpr ⟨fun hin => ?_, h.ptrs⟩)
    obtain ⟨e', he', heq⟩ := List.mem_map.mp hin
    exact hfresh e' he' heq
  · rcases (hmem e').mp he' with rfl | he'
    · exact hbacked
    · exact h.backed e' he'
  · rcases (hmem e').mp he' with rfl | he'
    · exact hkept
    · exact h.kept e' he'

theorem idrRemove_ptrs_of_ne (h : Idr.Sound s.mapIdr) {id id' : ℕ} (hne : id' ≠ id)
    (alloc : Bool) : (idrRemove s.mapIdr id alloc).2.ptrs id' = s.mapIdr.ptrs id' := by
  cases alloc with
  | true => rw [(h.remove id true).2 rfl, Function.update_of_ne hne]
  | false =>
    unfold idrRemove
    split <;> rfl

/-- One entry less, and its id with it if there is memory to take it back. -/
theorem MapsInv.remove (h : MapsInv s) {e : DrmMapList} (he : e ∈ s.entries) (alloc : Bool)
    (hperm : s.entries.Perm (e :: s'.entries)) (hsub : s'.entries.Sublist s.entries)
    (hidr : s'.mapIdr = (idrRemove s.mapIdr (tokenId e.userToken) alloc).2) : MapsInv s' := by
  obtain ⟨id, hpos, hlt, htok, hptr⟩ := h.ids e he
  rw [htok, tokenId_userToken hlt] at hidr
  have hnotin : e.ptr ∉ s'.entries.map DrmMapList.ptr :=
    (List.nodup_cons.mp ((hperm.map DrmMapList.ptr).nodup_iff.mp h.ptrs)).1
  refine h.mono hsub (hidr ▸ (h.sound.remove id alloc).1) (hidr ▸ h.low.remove hpos hlt alloc)
    fun e' he' id' hlt' htok' => ?_
  -- the others' ids are not the one that goes, for their entries are not
  obtain ⟨id'', -, hlt'', htok'', hptr''⟩ := h.ids e' (hsub.subset he')
  have hsame : id'' = id' := userToken_inj hlt'' hlt' (htok''.symm.trans htok')
  have hne : id' ≠ id := fun heq => by
    rw [hsame, heq, hptr] at hptr''
    exact hnotin (List.mem_map.mpr ⟨e', he', (Option.some.inj (Option.some.inj hptr'')).symm⟩)
  rw [hidr, idrRemove_ptrs_of_ne h.sound hne]

theorem MapsInv.resize (h : MapsInv s) {list : DrmMapList} (hm : list ∈ s.maplist) {size : ℕ}
    (hfits : ∀ b ∈ list.map.backing, size ≤ b) : MapsInv (s.resize list.ptr size) := by
  have hback : ∀ e ∈ (s.resize list.ptr size).entries, ∃ e' ∈ s.entries,
      e.ptr = e'.ptr ∧ e.userToken = e'.userToken ∧ e.freed = e'.freed ∧
        ∀ b ∈ e.map.backing, e.map.size ≤ b := by
    intro e he
    rcases List.mem_append.mp he with he | he
    · obtain ⟨e', he', rfl⟩ := List.mem_map.mp he
      refine ⟨e', List.mem_append_left _ he', ?_⟩
      split
      · rename_i heq
        have hlist : e' = list := List.inj_on_of_nodup_map h.ptrs (List.mem_append_left _ he')
          (List.mem_append_left _ hm) heq
        exact ⟨rfl, rfl, rfl, hlist ▸ hfits⟩
      · exact ⟨rfl, rfl, rfl, h.backed e' (List.mem_append_left _ he')⟩
    · have he' : e ∈ s.entries := List.mem_append_right _ he
      exact ⟨e, he', rfl, rfl, rfl, h.backed e he'⟩
  have hptrs : (s.resize list.ptr size).entries.map DrmMapList.ptr =
      s.entries.map DrmMapList.ptr := by
    simp only [MapState.entries, MapState.resize, List.map_append, List.map_map]
    congr 1
    refine List.map_congr_left fun e _ => ?_
    show DrmMapList.ptr (if e.ptr = list.ptr then _ else e) = e.ptr
    split <;> rfl
  refine ⟨h.sound, h.low, fun e he => ?_, hptrs ▸ h.ptrs, fun e he => ?_, fun e he => ?_⟩
  · obtain ⟨e', he', hptr, htok, -, -⟩ := hback e he
    rw [hptr, htok]
    exact h.ids e' he'
  · obtain ⟨-, -, -, -, -, hb⟩ := hback e he
    exact hb
  · obtain ⟨e', he', -, -, hkept, -⟩ := hback e he
    exact hkept.trans (h.kept e' he')

/-! ### Operations -/

variable {o : AddmapOutcome}

theorem prepareMap_duplicate {map map' : DrmLocalMap} {list : DrmMapList}
    (h : (prepareMap s map o).1 = .duplicate list map') : list ∈ s.maplist := by
  have hfound : drmFindMatchingMap s map = some list := by
    unfold prepareMap at h
    split at h <;> repeat' split at h
    all_goals first | cases h; assumption | cases h
  exact List.mem_of_find?_eq_some hfound

theorem MapsInv.addmap (h : MapsInv s) {r : AddmapRequest} (hfresh : ∀ ptr ∈ o.list, s.Fresh ptr)
    (hw : AddmapWhole s r o) :
    MapsInv (drmAddmapCore s r o).2 := by
  unfold drmAddmapCore
  split
  · exact h
  · rename_i hmap
    have hmap : o.map = true := by simpa using hmap
    cases hchecked : checkedMap r with
    | error ret => exact h
    | ok map =>
      have hw := hw hmap map hchecked
      have hlock : MapsInv { s with hwLock := (prepareMap s map o).2 } := h.congr rfl rfl
      dsimp only
      cases hp : (prepareMap s map o).1 with
      | failed ret => exact hlock
      | duplicate list map' =>
        rw [hp] at hw
        have hm : list ∈ s.maplist := prepareMap_duplicate hp
        exact hlock.resize hm hw
      | new map' =>
        rw [hp] at hw
        cases hlist : o.list with
        | none => exact hlock
        | some ptr =>
          obtain ⟨halloc, hleft, hbacked⟩ := hw (by simp [hlist])
          obtain ⟨hsound, hlow, hcases⟩ :=
            h.handle { ptr := ptr, map := map' } o.alloc fun _ _ => hleft
          have hok := h.handle_ok { ptr := ptr, map := map' } hleft
          rw [← halloc] at hok
          dsimp only
          generalize drmMapHandle s.mapIdr { ptr := ptr, map := map' } o.alloc = res at *
          obtain ⟨ret, idr⟩ := res
          rcases hcases with ⟨id, hret, hpos, hlt, hfree, hptrs⟩ | ⟨⟨e, herr⟩, -⟩
          · subst hret
            exact h.insert (e := { ptr := ptr, map := map', userToken := userToken id, master := _ })
              (List.Perm.refl _) (hfresh ptr hlist) hpos hlt rfl hfree hptrs hsound hlow hbacked rfl
          · obtain ⟨l, hl⟩ := hok
            rw [hl] at herr
            cases herr

theorem MapsInv.addmapIoctl (h : MapsInv s) {suser : Bool} {r : AddmapRequest}
    (hfresh : ∀ ptr ∈ o.list, s.Fresh ptr)
    (hw : (suser || r.type = .agp || r.type = .shm) = true → AddmapWhole s r o) :
    MapsInv (drmAddmapIoctl s suser r o).2 := by
  unfold drmAddmapIoctl
  cases hallowed : (suser || r.type = .agp || r.type = .shm) with
  | false => exact h
  | true => exact h.addmap hfresh (hw hallowed)

theorem MapsInv.rmmapLocked (h : MapsInv s) (ptr : ℕ) (alloc : Bool) :
    MapsInv (drmRmmapLocked s ptr alloc).2 := by
  unfold drmRmmapLocked
  cases hfind : s.maplist.find? fun e => decide (e.ptr = ptr) with
  | none => exact h
  | some e =>
    have he : e ∈ s.maplist := List.mem_of_find?_eq_some hfind
    have hsub : (s.maplist.erase e ++ s.gems).Sublist s.entries :=
      List.erase_sublist.append (List.Sublist.refl _)
    exact h.remove (List.mem_append_left _ he) alloc ((List.perm_cons_erase he).append_right _)
      hsub rfl

theorem MapsInv.rmmapIoctl (h : MapsInv s) (handle : ℕ) (alloc : Bool) :
    MapsInv (drmRmmapIoctl s handle alloc).2 := by
  unfold drmRmmapIoctl
  split
  · exact h
  · split
    · exact h
    · exact h.rmmapLocked _ alloc

theorem MapsInv.gemInit (h : MapsInv s) {ptr realSize : ℕ} {alloc : Bool} (hfresh : s.Fresh ptr)
    (hleft : alloc = true → (∃ id, 1 ≤ id ∧ Idr.Available s.mapIdr id) → s.LowIdLeft) :
    MapsInv (drmGemObjectInit s ptr realSize alloc).2 := by
  unfold drmGemObjectInit
  dsimp only
  generalize hlist : ({ ptr := ptr, map := _ } : DrmMapList) = list
  obtain ⟨hsound, hlow, hcases⟩ := h.handle list alloc hleft
  generalize drmMapHandle s.mapIdr list alloc = res at *
  obtain ⟨ret, idr⟩ := res
  rcases hcases with ⟨id, hret, hpos, hlt, hfree, hptrs⟩ | ⟨⟨e, herr⟩, hptrs⟩
  · subst hret hlist
    refine h.insert List.perm_middle hfresh hpos hlt rfl hfree hptrs hsound hlow ?_ rfl
    intro b hb
    cases hb
    exact le_rfl
  · subst herr
    exact h.mono (List.Sublist.refl _) hsound hlow fun _ _ id _ _ => congrFun hptrs id

theorem MapsInv.gemRelease (h : MapsInv s) {e : DrmMapList} (he : e ∈ s.gems) (alloc : Bool) :
    MapsInv (drmGemObjectRelease s e alloc) := by
  have hperm : s.entries.Perm (e :: (s.maplist ++ s.gems.erase e)) :=
    ((List.perm_cons_erase he).append_left _).trans List.perm_middle
  have hsub : (s.maplist ++ s.gems.erase e).Sublist s.entries :=
    (List.Sublist.refl _).append List.erase_sublist
  exact h.remove (List.mem_append_right _ he) alloc hperm hsub rfl

theorem MapsInv.apply (h : MapsInv s) {a : MapAction} (he : a.Enabled s) (hw : a.Whole s) :
    MapsInv (a.apply s) := by
  cases a with
  | addmap r o => exact h.addmap he hw
  | addmapIoctl suser r o => exact h.addmapIoctl he hw
  | rmmap ptr alloc => exact h.rmmapLocked ptr alloc
  | rmmapIoctl handle alloc => exact h.rmmapIoctl handle alloc
  | gemInit ptr realSize alloc => exact h.gemInit he hw
  | gemRelease e alloc => exact h.gemRelease he alloc
  | setMaster master => exact h.congr rfl rfl

theorem MapsInv.of_init (hs : mapSystem.init s) : MapsInv s := by
  obtain ⟨hlist, hgems, hidr⟩ := hs
  have hentries : s.entries = [] := by rw [MapState.entries, hlist, hgems]; rfl
  refine ⟨hidr ▸ Idr.idrInit_inv.sound, hidr ▸ Idr.FromOne.init, ?_, ?_, ?_, ?_⟩ <;> simp [hentries]

/-- As long as duplicates fit what is there and ids whose tokens are right are left, tokens lead
back to their own maps. -/
theorem maps_ok (h : ReachWhile mapSystem (fun s a => a.Whole s) s) : MapsOk s := by
  refine MapsInv.mapsOk (h.invariant (fun s hs => .of_init hs) fun s a s' hinv hw hs => ?_)
  obtain ⟨he, rfl⟩ := hs
  exact hinv.apply he hw

/-! ### Computed runs -/

/-- The memory of a lock. -/
def shmRequest (size : ℕ) : AddmapRequest :=
  { offset := 0, size := size, type := .shm, flags := drmContainsLock }

def shmOutcome (ptr : ℕ) : AddmapOutcome := { umem := some 0x10000, list := some ptr }

theorem mapRun_reach (guard : MapState → MapAction → Prop) (l : List MapAction)
    (h : AllAllowed (fun s a => MapAction.Enabled s a ∧ guard s a) MapAction.apply l {}) :
    ReachWhile mapSystem guard (l.foldl MapAction.apply {}) :=
  ReachWhile.foldl (S := mapSystem) _ (fun _ _ hs => ⟨hs.2, hs.1, rfl⟩) l (.init ⟨rfl, rfl, rfl⟩) h

instance (idr : Idr ℕ) (id : ℕ) : Decidable (Idr.Available idr id) :=
  inferInstanceAs (Decidable (∃ r ∈ idr.freeIdRanges, _))

/-- A lock's page, the same page again, a GEM object, and the page removed. -/
theorem maps_ok_shm :
    MapsOk ([MapAction.addmap (shmRequest 4096) (shmOutcome 0),
      .addmapIoctl false (shmRequest 4096) {}, .gemInit 1 8192 true, .rmmap 0 true].foldl
        MapAction.apply {}) := by
  refine maps_ok (mapRun_reach _ _ ⟨⟨?_, ?_⟩, ⟨?_, ?_⟩, ⟨?_, ?_⟩, ⟨trivial, trivial⟩, trivial⟩)
  · intro ptr _ e he
    cases he
  · intro _ map hmap
    obtain rfl := Except.ok.inj hmap
    exact fun _ => ⟨rfl, ⟨1, le_rfl, by decide, by decide⟩, by decide⟩
  · intro ptr hptr
    cases hptr
  · intro _ _ map hmap
    obtain rfl := Except.ok.inj hmap
    show ∀ b ∈ some 4096, 4096 ≤ b
    decide
  · show ∀ e ∈ _, _
    decide
  · exact fun _ _ => ⟨2, by decide, by decide, by decide⟩

/-- A lock's page is added twice, the second time with another size. -/
theorem map_resized : ¬ ∀ s, Reach mapSystem s → MapsOk s := by
  intro hall
  have hok := hall _ (mapRun_reach _ [MapAction.addmap (shmRequest 4096) (shmOutcome 0),
    .addmapIoctl false (shmRequest 8192) {}] ?_)
  · exact absurd (hok.backed _ (List.mem_singleton_self _) 4096 rfl) (by decide)
  · refine ⟨⟨fun ptr _ e he => ?_, trivial⟩, ⟨fun ptr hptr => ?_, trivial⟩, trivial⟩
    · cases he
    · cases hptr

/-! ### Failed calls -/

/-- Nothing freed is on the list or behind a token. -/
structure MapState.NoneFreed (s : MapState) : Prop where
  maplist : ∀ e ∈ s.maplist, e.freed = false
  tokens : ∀ id, ∀ e ∈ s.entries, idrFind s.mapIdr id = some e.ptr → e.freed = false

/-- The list and the table of tokens are as they were, and no call has put anything freed there. -/
structure MapState.Undone (s s' : MapState) : Prop where
  maplist : s'.maplist = s.maplist
  tokens : s'.mapIdr.usedIds = s.mapIdr.usedIds
  freed : s.NoneFreed → s'.NoneFreed

/-- The map and its entry are made, and then there is no id for them. -/
def NoTokenLeft (s : MapState) (r : AddmapRequest) (o : AddmapOutcome) : Prop :=
  o.map = true ∧ ∃ map new ptr ret, checkedMap r = .ok map ∧
    (prepareMap s map o).1 = .new new ∧ o.list = some ptr ∧
    (idrGetNewAbove s.mapIdr (some ptr) 1 o.alloc).1 = .error ret

variable {s' : MapState} {r : AddmapRequest} {o : AddmapOutcome}

theorem undone_hwLock (s : MapState) (hwLock : Option ℕ → Bool) :
    s.Undone { s with hwLock := hwLock } :=
  ⟨rfl, rfl, fun h => ⟨h.maplist, h.tokens⟩⟩

/-- What drm_addmap_core does when there is no id: the freed entry stays on the list. -/
theorem drmAddmapCore_noToken (h : NoTokenLeft s r o) :
    ∃ e, e.freed = true ∧ (drmAddmapCore s r o).2.maplist = e :: s.maplist := by
  obtain ⟨hmap, map, new, ptr, ret, hchecked, hnew, hlist, herr⟩ := h
  unfold drmAddmapCore
  simp only [hmap, hchecked, hnew, hlist]
  have hhandle : (drmMapHandle s.mapIdr { ptr := ptr, map := new } o.alloc).1 = .error ret := by
    unfold drmMapHandle
    generalize idrGetNewAbove s.mapIdr (some ptr) 1 o.alloc = res at *
    obtain ⟨res, idr⟩ := res
    subst herr
    rfl
  generalize drmMapHandle s.mapIdr { ptr := ptr, map := new } o.alloc = res at *
  obtain ⟨res, idr⟩ := res
  subst hhandle
  exact ⟨_, rfl, rfl⟩

/-- Every other failure comes before the entry is on the list. -/
theorem drmAddmapCore_undone (h : ¬NoTokenLeft s r o) {ret : ℤ}
    (herr : (drmAddmapCore s r o).1 = .error ret) : s.Undone (drmAddmapCore s r o).2 := by
  unfold drmAddmapCore at herr ⊢
  cases hmap : o.map with
  | false =>
    exact undone_hwLock s s.hwLock
  | true =>
    simp only [hmap] at herr ⊢
    cases hchecked : checkedMap r with
    | error ret => exact undone_hwLock s s.hwLock
    | ok map =>
      simp only [hchecked] at herr ⊢
      cases hp : (prepareMap s map o).1 with
      | failed ret => exact undone_hwLock s _
      | duplicate list map' =>
        rw [hp] at herr
        cases herr
      | new new =>
        simp only [hp] at herr ⊢
        cases hlist : o.list with
        | none => exact undone_hwLock s _
        | some ptr =>
          simp only [hlist] at herr ⊢
          -- with an id left the call succeeds
          cases hid : (idrGetNewAbove s.mapIdr (some ptr) 1 o.alloc).1 with
          | error ret => exact absurd ⟨hmap, map, new, ptr, ret, hchecked, hp, hlist, hid⟩ h
          | ok id =>
            have hhandle : ∃ l,
                (drmMapHandle s.mapIdr { ptr := ptr, map := new } o.alloc).1 = .ok l := by
              unfold drmMapHandle
              generalize idrGetNewAbove s.mapIdr (some ptr) 1 o.alloc = res at *
              obtain ⟨res, idr⟩ := res
              subst hid
              exact ⟨_, rfl⟩
            obtain ⟨l, hl⟩ := hhandle
            generalize drmMapHandle s.mapIdr { ptr := ptr, map := new } o.alloc = res at *
            obtain ⟨res, idr⟩ := res
            subst hl
            cases herr

/-- A failed call leaves the list and the tokens alone unless it is the token that it cannot
get. -/
theorem drm_addmap_core_undone_iff {ret : ℤ} (herr : (drmAddmapCore s r o).1 = .error ret) :
    s.Undone (drmAddmapCore s r o).2 ↔ ¬NoTokenLeft s r o := by
  refine ⟨fun hundone hnone => ?_, fun h => drmAddmapCore_undone h herr⟩
  obtain ⟨e, -, hlist⟩ := drmAddmapCore_noToken hnone
  have hsame := congrArg List.length (hlist.symm.trans hundone.maplist)
  rw [List.length_cons] at hsame
  omega

/-- The page of a lock for which the master has a lock already. -/
theorem drm_addmap_core_undone_busy :
    ({ hwLock := fun _ => true } : MapState).Undone
        (drmAddmapCore { hwLock := fun _ => true } (shmRequest 4096) (shmOutcome 0)).2 ↔
      ¬NoTokenLeft { hwLock := fun _ => true } (shmRequest 4096) (shmOutcome 0) :=
  drm_addmap_core_undone_iff (Eq.refl (Except.error Errno.eBusy))

/-- There is no memory for the id of a frame buffer's map. -/
theorem drm_addmap_core_keeps_freed :
    (drmAddmapCore {} ⟨0, 4096, .frameBuffer, 0⟩ { list := some 0, alloc := false }).1 =
        .error Errno.eNomem ∧
      ¬({} : MapState).Undone
        (drmAddmapCore {} ⟨0, 4096, .frameBuffer, 0⟩ { list := some 0, alloc := false }).2 := by
  refine ⟨rfl, fun h => ?_⟩
  have hbefore : ({} : MapState).NoneFreed :=
    ⟨fun _ he => (List.not_mem_nil he).elim, fun _ _ he => (List.not_mem_nil he).elim⟩
  have hfreed := (h.freed hbefore).maplist
  exact absurd (hfreed _ (List.mem_singleton_self _)) (by decide)

end GfxDrm.Maps
