import GfxDrm.Idr.Map
import GfxDrm.Lib.Run

/-! The contexts of a device, their ids, and the maps set for them (drm_context.c). -/

namespace GfxDrm.Contexts
open Errno Function Run

/-- drm_ctx_list. -/
structure DrmCtxList where
  handle : ℕ
  tag : ℕ
  deriving DecidableEq

/-- drm_map_list. A map is known by its address, which another one may have had before it;
`serial` is given to one map only. -/
structure DrmMapList where
  map : ℕ
  userToken : ℕ
  serial : ℕ
  freed : Bool
  deriving DecidableEq

/-- `lastSet` is the map that was last set for a context, which the driver does not keep. -/
structure CtxState where
  ctxlist : List DrmCtxList := []
  ctxCount : ℤ := 0
  ctxIdr : Idr ℕ := idrInit
  maplist : List DrmMapList := []
  nextSerial : ℕ := 0
  lastSet : ℕ → Option ℕ := fun _ => none

/-- An int as a drm_context_t. -/
def ctxHandle (ret : ℤ) : ℕ := (ret % 0x100000000).toNat

def CtxState.handles (s : CtxState) : List ℕ := s.ctxlist.map DrmCtxList.handle

/-- idr_pre_get never fails here, and no error of idr_get_new_above is `-EAGAIN`. -/
def drmCtxbitmapNext (idr : Idr ℕ) (alloc : Bool) : ℤ × Idr ℕ :=
  match idrGetNewAbove idr none 1 alloc with
  | (.error ret, idr) => (ret, idr)
  | (.ok newId, idr) => (newId, idr)

def drmCtxbitmapFree (idr : Idr ℕ) (handle : ℕ) (alloc : Bool) : Idr ℕ :=
  (idrRemove idr handle alloc).2

/-- Whether there is memory for the id, for the one after it, and for the entry. -/
structure AddctxOutcome where
  next : Bool
  again : Bool
  entry : Bool

/-- The return value, and the handle that is copied out with it. -/
def drmAddctx (s : CtxState) (file : ℕ) (o : AddctxOutcome) : ℤ × ℕ × CtxState :=
  let r := drmCtxbitmapNext s.ctxIdr o.next
  let r := if ctxHandle r.1 = 0 then drmCtxbitmapNext r.2 o.again else r
  let handle := ctxHandle r.1
  if handle = 0xffffffff then (eNomem, handle, { s with ctxIdr := r.2 })
  else if !o.entry then (eNomem, handle, { s with ctxIdr := r.2 })
  else (0, handle, { s with
    ctxIdr := r.2
    ctxlist := ⟨handle, file⟩ :: s.ctxlist
    ctxCount := s.ctxCount + 1
    lastSet := update s.lastSet handle none })

/-- Take the entries that `gone` holds for off the list. -/
def CtxState.drop (s : CtxState) (gone : DrmCtxList → Bool) : CtxState := { s with
  ctxlist := s.ctxlist.filter fun pos => !gone pos
  ctxCount := s.ctxCount - (s.ctxlist.filter gone).length }

def drmRmctx (s : CtxState) (handle : ℕ) (alloc : Bool) : CtxState :=
  { s with
    ctxIdr := if handle ≠ 0 then drmCtxbitmapFree s.ctxIdr handle alloc else s.ctxIdr
    lastSet := update s.lastSet handle none }.drop fun pos => pos.handle = handle

/-- The loop of drm_release over the contexts. -/
def drmRelease (s : CtxState) (file : ℕ) (alloc : ℕ → Bool) : CtxState :=
  let gone := fun pos : DrmCtxList => decide (pos.tag = file ∧ pos.handle ≠ 0)
  { s with
    ctxIdr := (s.ctxlist.filter gone).foldl
      (fun idr (pos : DrmCtxList) => drmCtxbitmapFree idr pos.handle (alloc pos.handle))
      s.ctxIdr }.drop gone

def drmSetsareactx (s : CtxState) (ctxId handle : ℕ) : ℤ × CtxState :=
  match s.maplist.find? fun rList => rList.map ≠ 0 ∧ rList.userToken = handle with
  | none => (eInval, s)
  | some rList =>
    match idrReplace s.ctxIdr (some rList.map) ctxId with
    | (.error _, _) => (eInval, s)
    | (.ok _, idr) =>
      (0, { s with ctxIdr := idr, lastSet := update s.lastSet ctxId (some rList.serial) })

/-- The return value and the token. -/
def drmGetsareactx (s : CtxState) (ctxId : ℕ) : ℤ × ℕ :=
  match idrFind s.ctxIdr ctxId with
  | none => (eInval, 0)
  | some map =>
    match s.maplist.find? fun entry => entry.map = map with
    | none => (eInval, 0)
    | some entry => if entry.userToken = 0 then (eInval, 0) else (0, entry.userToken)

/-- What drm_addmap_core does to the list: without an id for the map its entry is freed, and stays
where it is. -/
def addmap (s : CtxState) (map userToken : ℕ) (handle : Bool) : CtxState := { s with
  maplist := ⟨map, if handle then userToken else 0, s.nextSerial, !handle⟩ :: s.maplist
  nextSerial := s.nextSerial + 1 }

/-- What drm_rmmap_locked does to it. -/
def rmmap (s : CtxState) (map : ℕ) : CtxState :=
  { s with maplist := s.maplist.eraseP fun rList => rList.map = map }

inductive CtxOp
  | addctx (file : ℕ) (o : AddctxOutcome)
  | rmctx (handle : ℕ) (alloc : Bool)
  | release (file : ℕ) (alloc : ℕ → Bool)
  | setsareactx (ctxId handle : ℕ)
  | getsareactx (ctxId : ℕ)
  | addmap (map userToken : ℕ) (handle : Bool)
  | rmmap (map : ℕ)

/-- A new map is not where a map is that has not been freed. -/
def ctxStep (s : CtxState) : CtxOp → Option CtxState
  | .addctx file o => some (drmAddctx s file o).2.2
  | .rmctx handle alloc => some (drmRmctx s handle alloc)
  | .release file alloc => some (drmRelease s file alloc)
  | .setsareactx ctxId handle => some (drmSetsareactx s ctxId handle).2
  | .getsareactx _ => some s
  | .addmap map userToken handle =>
    if map ≠ 0 ∧ ∀ entry ∈ s.maplist, entry.freed = false → entry.map ≠ map then
      some (addmap s map userToken handle)
    else none
  | .rmmap map => some (rmmap s map)

abbrev ctxSystem : System CtxState CtxOp := .ofStep (fun s => s = {}) ctxStep

/-- No allocation fails, and a new map does not get the address of one that is still remembered
for a context. -/
def CtxOp.Sound (s : CtxState) : CtxOp → Prop
  | .addctx _ o => o.next = true ∧ o.again = true ∧ o.entry = true
  | .rmctx _ alloc => alloc = true
  | .release _ alloc => ∀ handle, alloc handle = true
  | .addmap map _ handle => handle = true ∧ ∀ id, s.ctxIdr.ptrs id ≠ some (some map)
  | _ => True

/-- The contexts are those of the id table, and what is remembered for one is no other map than the
one last set for it. -/
structure Good (s : CtxState) : Prop where
  inv : s.ctxIdr.Inv
  nodup : s.handles.Nodup
  ids : ∀ i, i ∈ s.handles ↔ s.ctxIdr.Used i
  pos : ∀ i, s.ctxIdr.Used i → 1 ≤ i
  count : s.ctxCount = s.ctxlist.length
  live : ∀ entry ∈ s.maplist, entry.freed = false
  maps : (s.maplist.map DrmMapList.map).Nodup
  set : ∀ id map, s.ctxIdr.ptrs id = some (some map) → ∀ entry ∈ s.maplist, entry.map = map →
    s.lastSet id = some entry.serial

variable {s : CtxState} {file handle ctxId map : ℕ} {o : AddctxOutcome}

/-! ### Adding contexts -/

theorem ctxHandle_ofNat {id : ℕ} (h : id ≤ 0x7ffffffe) : ctxHandle id = id := by
  unfold ctxHandle
  omega

/-- With memory there is a new id, or there is none left. -/
theorem drmCtxbitmapNext_cases (h : s.ctxIdr.Inv) :
    (∃ id : ℕ, 1 ≤ id ∧ id ≤ 0x7ffffffe ∧ (drmCtxbitmapNext s.ctxIdr true).1 = id ∧
      s.ctxIdr.ptrs id = none ∧ (drmCtxbitmapNext s.ctxIdr true).2.Inv ∧
      (drmCtxbitmapNext s.ctxIdr true).2.ptrs = update s.ctxIdr.ptrs id (some none)) ∨
    (drmCtxbitmapNext s.ctxIdr true).1 = -1 ∧ (drmCtxbitmapNext s.ctxIdr true).2.Inv ∧
      (drmCtxbitmapNext s.ctxIdr true).2.ptrs = s.ctxIdr.ptrs := by
  have hone : (1 : Int32).toInt = 1 := by decide
  obtain ⟨hstep, hinv⟩ := Idr.getNewAbove_step h none 1
  unfold drmCtxbitmapNext
  generalize idrGetNewAbove s.ctxIdr none 1 true = r at hstep hinv ⊢
  obtain ⟨ret, idr⟩ := r
  cases ret with
  | ok id =>
    obtain ⟨hlo, hhi, hnew, hptrs⟩ := hstep
    exact .inl ⟨id, by omega, hhi, rfl, hnew, hinv, hptrs⟩
  | error e =>
    obtain ⟨hptrs, ⟨hneg, -⟩ | ⟨-, rfl, -⟩⟩ := hstep
    · omega
    · exact .inr ⟨rfl, hinv, hptrs⟩

theorem used_update {idr idr' : Idr ℕ} {id : ℕ} {p : Option (Option ℕ)}
    (h : idr'.ptrs = update idr.ptrs id p) (i : ℕ) :
    idr'.Used i ↔ if i = id then p ≠ none else idr.Used i := by
  unfold Idr.Used
  rw [h]
  by_cases hi : i = id
  · rw [if_pos hi, hi, update_self]
  · rw [if_neg hi, update_of_ne hi]

theorem Good.addctx (h : Good s) (ho : o.next = true ∧ o.again = true ∧ o.entry = true) :
    Good (drmAddctx s file o).2.2 ∧
      ((drmAddctx s file o).1 = 0 → (drmAddctx s file o).2.1 ∉ s.handles ∧
        1 ≤ (drmAddctx s file o).2.1) := by
  have hminus : ctxHandle (-1) = 0xffffffff := by decide
  unfold drmAddctx
  rw [ho.1, ho.2.2]
  rcases drmCtxbitmapNext_cases h.inv with ⟨id, hlo, hhi, hret, hnew, hinv, hptrs⟩ |
    ⟨hret, hinv, hptrs⟩
  · have hid : ctxHandle (drmCtxbitmapNext s.ctxIdr true).1 = id := hret ▸ ctxHandle_ofNat hhi
    have hfresh : id ∉ s.handles := fun hm => (h.ids id).mp hm hnew
    simp only [hid, if_neg (Nat.one_le_iff_ne_zero.mp hlo)]
    rw [if_neg (by omega), if_neg (by decide)]
    refine ⟨⟨hinv, List.nodup_cons.mpr ⟨hfresh, h.nodup⟩, fun i => ?_, fun i hi => ?_, ?_, h.live,
      h.maps, fun i m hm => ?_⟩, fun _ => ⟨hfresh, hlo⟩⟩
    · rw [used_update hptrs, ← h.ids]
      simp only [CtxState.handles]
      by_cases hi : i = id <;> simp [hi]
    · rw [used_update hptrs] at hi
      split at hi
      · omega
      · exact h.pos i hi
    · have hcount := h.count
      simp only [List.length_cons]
      omega
    · rw [hptrs] at hm
      by_cases hi : i = id
      · rw [hi, update_self] at hm
        cases hm
      · rw [update_of_ne hi] at hm
        dsimp only
        rw [update_of_ne hi]
        exact h.set i m hm
  · simp only [hret, hminus, if_neg (by decide : ¬(0xffffffff : ℕ) = 0), if_true]
    have hused : ∀ i, (drmCtxbitmapNext s.ctxIdr true).2.Used i ↔ s.ctxIdr.Used i := fun i => by
      unfold Idr.Used
      rw [hptrs]
    exact ⟨⟨hinv, h.nodup, fun i => (h.ids i).trans (hused i).symm,
      fun i hi => h.pos i ((hused i).mp hi), h.count, h.live, h.maps,
      fun i m hm => h.set i m (hptrs ▸ hm)⟩, fun h0 => absurd h0 (by decide)⟩

/-! ### Removing contexts -/

theorem drmCtxbitmapFree_spec {idr : Idr ℕ} (h : idr.Inv) (id : ℕ) :
    (drmCtxbitmapFree idr id true).Inv ∧
      (drmCtxbitmapFree idr id true).ptrs = update idr.ptrs id none := by
  obtain ⟨hstep, hinv⟩ := Idr.remove_step h id
  refine ⟨hinv, ?_⟩
  rcases hstep with ⟨-, -, hptrs⟩ | ⟨hnone, -, hptrs⟩
  · exact hptrs
  · exact hptrs.trans (update_eq_self_iff.mpr hnone.symm).symm

/-- Entries leave the list together with their ids. -/
theorem Good.drop (h : Good s) {idr : Idr ℕ} {f : ℕ → Option ℕ} (gone : DrmCtxList → Bool)
    (hinv : idr.Inv)
    (hgone : ∀ i, i ∈ (s.ctxlist.filter gone).map DrmCtxList.handle → idr.ptrs i = none)
    (hkept : ∀ i, i ∉ (s.ctxlist.filter gone).map DrmCtxList.handle →
      idr.ptrs i = s.ctxIdr.ptrs i ∧ (idr.ptrs i ≠ none → f i = s.lastSet i)) :
    Good ({ s with ctxIdr := idr, lastSet := f }.drop gone) := by
  have hsub : ((s.ctxlist.filter fun pos => !gone pos).map DrmCtxList.handle).Sublist s.handles :=
    List.filter_sublist.map _
  have hiff : ∀ i, i ∈ (s.ctxlist.filter fun pos => !gone pos).map DrmCtxList.handle ↔
      i ∈ s.handles ∧ i ∉ (s.ctxlist.filter gone).map DrmCtxList.handle := by
    intro i
    constructor
    · intro hi
      refine ⟨hsub.subset hi, fun hg => ?_⟩
      obtain ⟨p, hp, rfl⟩ := List.mem_map.mp hi
      obtain ⟨q, hq, hpq⟩ := List.mem_map.mp hg
      have hsame : q = p := List.inj_on_of_nodup_map h.nodup (List.mem_of_mem_filter hq)
        (List.mem_of_mem_filter hp) hpq
      have hgp := (List.mem_filter.mp hp).2
      rw [← hsame, (List.mem_filter.mp hq).2] at hgp
      cases hgp
    · rintro ⟨hi, hg⟩
      obtain ⟨p, hp, rfl⟩ := List.mem_map.mp hi
      refine List.mem_map_of_mem (List.mem_filter.mpr ⟨hp, ?_⟩)
      by_contra hgp
      exact hg (List.mem_map_of_mem (List.mem_filter.mpr ⟨hp, by simpa using hgp⟩))
  have hused : ∀ i, idr.Used i ↔
      s.ctxIdr.Used i ∧ i ∉ (s.ctxlist.filter gone).map DrmCtxList.handle := by
    intro i
    unfold Idr.Used
    by_cases hi : i ∈ (s.ctxlist.filter gone).map DrmCtxList.handle
    · simp [hgone i hi, hi]
    · simp [(hkept i hi).1, hi]
  have hlength : (s.ctxlist.filter gone).length +
      (s.ctxlist.filter fun pos => !gone pos).length = s.ctxlist.length := by
    have hperm := (List.filter_append_perm gone s.ctxlist).length_eq
    rwa [List.length_append] at hperm
  refine ⟨hinv, h.nodup.sublist hsub, fun i => ?_, fun i hi => h.pos i ((hused i).mp hi).1, ?_,
    h.live, h.maps, fun i m hm entry he hmap => ?_⟩
  · exact (hiff i).trans ((and_congr_left' (h.ids i)).trans (hused i).symm)
  · have hcount := h.count
    simp only [CtxState.drop]
    omega
  · change idr.ptrs i = some (some m) at hm
    have hi : i ∉ (s.ctxlist.filter gone).map DrmCtxList.handle := fun hi => by
      rw [hgone i hi] at hm
      cases hm
    obtain ⟨hsame, hset⟩ := hkept i hi
    have hlast := hset (by simp [hm])
    rw [hsame] at hm
    exact hlast.trans (h.set i m hm entry he hmap)

theorem Good.rmctx (h : Good s) (handle : ℕ) : Good (drmRmctx s handle true) := by
  obtain ⟨hinv, hptrs⟩ := drmCtxbitmapFree_spec h.inv handle
  have hmem : ∀ i, i ∈ (s.ctxlist.filter fun pos => pos.handle = handle).map DrmCtxList.handle →
      i = handle := by
    intro i hi
    obtain ⟨p, hp, rfl⟩ := List.mem_map.mp hi
    exact of_decide_eq_true (List.mem_filter.mp hp).2
  have hgone : ∀ i, i ≠ handle → update s.lastSet handle none i = s.lastSet i := fun i hi =>
    update_of_ne hi ..
  have hzero : s.ctxIdr.ptrs 0 = none := by
    by_contra hused
    exact absurd (h.pos 0 hused) (by decide)
  have hsame : ∀ i, i ∉ (s.ctxlist.filter fun pos => pos.handle = handle).map DrmCtxList.handle →
      i = handle → s.ctxIdr.ptrs i = none := by
    rintro i hi rfl
    by_contra hused
    obtain ⟨p, hp, hpi⟩ := List.mem_map.mp ((h.ids i).mpr hused)
    exact hi (List.mem_map.mpr ⟨p, List.mem_filter.mpr ⟨hp, decide_eq_true hpi⟩, hpi⟩)
  unfold drmRmctx
  by_cases h0 : handle = 0
  · rw [if_neg (not_not.mpr h0)]
    refine h.drop _ h.inv (fun i hi => ?_) fun i hi => ⟨rfl, fun hused => hgone i fun hih =>
      hused (hsame i hi hih)⟩
    rw [hmem i hi, h0]
    exact hzero
  · rw [if_pos h0]
    refine h.drop _ hinv (fun i hi => ?_) fun i hi => ?_
    · rw [hmem i hi, hptrs, update_self]
    · by_cases hih : i = handle
      · have hnone := hsame i hi hih
        rw [hptrs, hih, update_self, ← hih]
        exact ⟨hnone.symm, fun hused => absurd rfl hused⟩
      · rw [hptrs, update_of_ne hih]
        exact ⟨rfl, fun _ => hgone i hih⟩

/-- All ids of a list are given back. -/
theorem free_all {idr : Idr ℕ} (h : idr.Inv) (alloc : ℕ → Bool) (halloc : ∀ i, alloc i = true)
    (l : List DrmCtxList) :
    let idr' := l.foldl (fun idr pos => drmCtxbitmapFree idr pos.handle (alloc pos.handle)) idr
    idr'.Inv ∧ ∀ i, idr'.ptrs i = if i ∈ l.map DrmCtxList.handle then none else idr.ptrs i := by
  induction l generalizing idr with
  | nil => exact ⟨h, fun i => (if_neg List.not_mem_nil).symm⟩
  | cons pos l ih =>
    obtain ⟨hinv, hptrs⟩ := drmCtxbitmapFree_spec h pos.handle
    rw [List.foldl_cons, halloc]
    obtain ⟨hinv', hptrs'⟩ := ih hinv
    refine ⟨hinv', fun i => ?_⟩
    rw [hptrs', hptrs]
    by_cases hi : i = pos.handle
    · simp [hi]
    · simp [hi]

theorem Good.release (h : Good s) (file : ℕ) {alloc : ℕ → Bool} (halloc : ∀ i, alloc i = true) :
    Good (drmRelease s file alloc) := by
  obtain ⟨hinv, hptrs⟩ := free_all h.inv alloc halloc
    (s.ctxlist.filter fun pos => decide (pos.tag = file ∧ pos.handle ≠ 0))
  exact h.drop (f := s.lastSet) _ hinv (fun i hi => (hptrs i).trans (if_pos hi))
    fun i hi => ⟨(hptrs i).trans (if_neg hi), fun _ => rfl⟩

/-! ### Maps -/

theorem Good.setsareactx (h : Good s) (ctxId handle : ℕ) :
    Good (drmSetsareactx s ctxId handle).2 := by
  unfold drmSetsareactx
  cases hfind : s.maplist.find? fun rList => rList.map ≠ 0 ∧ rList.userToken = handle with
  | none => exact h
  | some rList =>
    have hmem := List.mem_of_find?_eq_some hfind
    obtain ⟨hstep, hinv⟩ := Idr.replace_step h.inv (some rList.map) ctxId
    dsimp only
    generalize idrReplace s.ctxIdr (some rList.map) ctxId = r at hstep hinv ⊢
    obtain ⟨ret, idr⟩ := r
    cases ret with
    | error e => exact h
    | ok old =>
      obtain ⟨hold, hptrs⟩ := hstep
      have hused : ∀ i, idr.Used i ↔ s.ctxIdr.Used i := by
        intro i
        rw [used_update hptrs]
        split
        · rename_i hi
          exact iff_of_true (by simp) (hi ▸ fun hnone => by simp [hnone] at hold)
        · rfl
      refine ⟨hinv, h.nodup, fun i => (h.ids i).trans (hused i).symm,
        fun i hi => h.pos i ((hused i).mp hi), h.count, h.live, h.maps,
        fun i m hm entry he hmap => ?_⟩
      dsimp only at hm ⊢
      rw [hptrs] at hm
      by_cases hi : i = ctxId
      · rw [hi, update_self, Option.some.injEq, Option.some.injEq] at hm
        have hsame : entry = rList := List.inj_on_of_nodup_map h.maps he hmem (hmap.trans hm.symm)
        rw [hi, update_self, hsame]
      · rw [update_of_ne hi] at hm ⊢
        exact h.set i m hm entry he hmap

theorem Good.addmap (h : Good s) {userToken : ℕ}
    (hnew : ∀ entry ∈ s.maplist, entry.freed = false → entry.map ≠ map)
    (hold : ∀ id, s.ctxIdr.ptrs id ≠ some (some map)) :
    Good (addmap s map userToken true) := by
  have hmaps : map ∉ s.maplist.map DrmMapList.map := fun hm => by
    obtain ⟨entry, he, hmap⟩ := List.mem_map.mp hm
    exact hnew entry he (h.live entry he) hmap
  refine ⟨h.inv, h.nodup, h.ids, h.pos, h.count, fun entry he => ?_,
    List.nodup_cons.mpr ⟨hmaps, h.maps⟩, fun i m hm entry he hmap => ?_⟩
  · rcases List.mem_cons.mp he with rfl | he
    · rfl
    · exact h.live entry he
  · rcases List.mem_cons.mp he with rfl | he
    · rw [← show map = m from hmap] at hm
      exact absurd hm (hold i)
    · exact h.set i m hm entry he hmap

theorem Good.rmmap (h : Good s) (map : ℕ) : Good (rmmap s map) := by
  have hsub : (s.maplist.eraseP fun rList => rList.map = map).Sublist s.maplist :=
    List.eraseP_sublist
  exact ⟨h.inv, h.nodup, h.ids, h.pos, h.count, fun entry he => h.live entry (hsub.subset he),
    h.maps.sublist (hsub.map _), fun i m hm entry he => h.set i m hm entry (hsub.subset he)⟩

/-! ### Runs -/

theorem Good.step {op : CtxOp} {s' : CtxState} (h : Good s) (hop : op.Sound s)
    (hs : ctxStep s op = some s') : Good s' := by
  cases op with
  | addctx file o =>
    cases hs
    exact (h.addctx hop).1
  | rmctx handle alloc =>
    cases hs
    rw [show alloc = true from hop]
    exact h.rmctx handle
  | release file alloc =>
    cases hs
    exact h.release file hop
  | setsareactx ctxId handle =>
    cases hs
    exact h.setsareactx ctxId handle
  | getsareactx ctxId =>
    cases hs
    exact h
  | addmap map userToken handle =>
    obtain ⟨hhandle, hold⟩ := hop
    obtain ⟨⟨-, hnew⟩, hs⟩ := Option.ite_none_right_eq_some.mp hs
    cases hs
    rw [hhandle]
    exact h.addmap hnew hold
  | rmmap map =>
    cases hs
    exact h.rmmap map

theorem Good.init : Good {} where
  inv := Idr.idrInit_inv
  nodup := List.nodup_nil
  ids i := iff_of_false List.not_mem_nil fun h => h rfl
  pos i hi := absurd rfl hi
  count := rfl
  live entry he := absurd he List.not_mem_nil
  maps := List.nodup_nil
  set id m hm := by cases hm

end GfxDrm.Contexts
