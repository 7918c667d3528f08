import GfxDrm.Errno
import GfxDrm.Lib.Copy
import GfxDrm.Lib.Run

/-! Objects in physically contiguous memory, for cursors and the overlay registers
(i915_gem.c). -/

namespace GfxDrm.Phys
open Copy

abbrev ObjId := ℕ

/-- Where a `struct drm_i915_gem_phys_object` is. -/
abbrev BufferId := ℕ

abbrev Contents := ℕ → UInt8

def pageSize : ℕ := 4096

/-- I915_MAX_PHYS_OBJECT. -/
def maxPhysObject : ℕ := 3

/-- `struct drm_i915_gem_phys_object` with the memory of its handle. -/
structure PhysBuffer where
  id : ℕ := 0
  size : ℕ := 0
  bytes : Contents := fun _ => 0
  curObj : Option ObjId := none

structure PhysObj where
  size : ℕ
  /-- The object's own memory, from `kaddr` on. -/
  pages : Contents
  /-- `page_list != NULL`. -/
  pageList : Bool := false
  physObj : Option BufferId := none
  size_pos : 0 < size
  page_dvd : pageSize ∣ size

structure PhysState where
  obj : ObjId → PhysObj
  /-- `phys_objs[id - 1]`. -/
  physObjs : ℕ → Option BufferId
  buffer : BufferId → PhysBuffer
  /-- Where the next one will be allocated. -/
  next : BufferId
  /-- A buffer has been accessed behind its end. -/
  overrun : Bool := false

namespace PhysState

def setObj (s : PhysState) (o : ObjId) (x : PhysObj) : PhysState :=
  { s with obj := Function.update s.obj o x }

def setBuffer (s : PhysState) (p : BufferId) (b : PhysBuffer) : PhysState :=
  { s with buffer := Function.update s.buffer p b }

/-- The first `len` bytes of the buffer are accessed. -/
def access (s : PhysState) (p : BufferId) (len : ℕ) : PhysState :=
  { s with overrun := s.overrun || decide ((s.buffer p).size < len) }

end PhysState

/-- The loop that copies one page after the other. -/
def copyPages (src : Contents) : ℕ → Contents → Contents
  | 0, dst => dst
  | n + 1, dst =>
    run (block (n * pageSize) (n * pageSize) pageSize) src (copyPages src n dst)

/-- i915_gem_init_phys_object; `alloc` is the memory it gets, if any. -/
def initPhysObject (s : PhysState) (id size : ℕ) (alloc : Option Contents) : ℤ × PhysState :=
  if (s.physObjs id).isSome ∨ size = 0 then (0, s)
  else match alloc with
    | none => (Errno.eNomem, s)
    | some bytes =>
      (0, { s with
        physObjs := Function.update s.physObjs id (some s.next)
        buffer := Function.update s.buffer s.next { id := id, size := size, bytes := bytes }
        next := s.next + 1 })

/-- i915_gem_object_get_pages_gtt, where there is no page list. -/
def getPages (s : PhysState) (o : ObjId) (ret : ℤ) : ℤ × PhysState :=
  if (s.obj o).pageList then (0, s)
  else if ret ≠ 0 then (ret, s)
  else (0, s.setObj o { s.obj o with pageList := true })

/-- Both loops copy the buffer into the object's pages, and then the pages are put. -/
def copyFromBuffer (s : PhysState) (o : ObjId) (p : BufferId) : PhysState :=
  (s.access p ((s.obj o).size / pageSize * pageSize)).setObj o { s.obj o with
    pages := copyPages (s.buffer p).bytes ((s.obj o).size / pageSize) (s.obj o).pages
    pageList := false }

/-- The end of i915_gem_detach_phys_object. -/
def unlink (s : PhysState) (o : ObjId) (p : BufferId) : PhysState :=
  (s.setBuffer p { s.buffer p with curObj := none }).setObj o { s.obj o with physObj := none }

/-- i915_gem_detach_phys_object. -/
def detachPhysObject (s : PhysState) (o : ObjId) (ret : ℤ) : PhysState :=
  match (s.obj o).physObj with
  | none => s
  | some p =>
    let r := getPages s o ret
    unlink (if r.1 ≠ 0 then r.2 else copyFromBuffer r.2 o p) o p

/-- What the allocations of i915_gem_attach_phys_object come to. -/
structure AttachOutcome where
  detachPages : ℤ := 0
  attachPages : ℤ := 0
  alloc : Option Contents := none

/-- The object is attached to this id. -/
def PhysState.attachedTo (s : PhysState) (o : ObjId) (id : ℕ) : Bool :=
  (s.obj o).physObj.any fun p => (s.buffer p).id == id

/-- The end of i915_gem_attach_phys_object: the object is bound to the buffer, which is copied. -/
def linkTo (s : PhysState) (o : ObjId) (p : BufferId) (ret : ℤ) : ℤ × PhysState :=
  let s := (s.setObj o { s.obj o with physObj := some p }).setBuffer p
    { s.buffer p with curObj := some o }
  let g := getPages s o ret
  if g.1 ≠ 0 then g else (0, copyFromBuffer g.2 o p)

/-- i915_gem_attach_phys_object; an object has pages, so the buffer is there when
i915_gem_init_phys_object has returned 0. -/
def attachPhysObject (s : PhysState) (o : ObjId) (id : ℕ) (x : AttachOutcome) : ℤ × PhysState :=
  if maxPhysObject < id then (Errno.eInval, s)
  else if s.attachedTo o id then (0, s)
  else
    let s := detachPhysObject s o x.detachPages
    let r := initPhysObject s id (s.obj o).size x.alloc
    if r.1 ≠ 0 then r
    else match r.2.physObjs id with
      | none => r
      | some p => linkTo r.2 o p x.attachPages

/-- The bytes of a write over what was there. -/
def overlay (offset : ℕ) (data : List UInt8) (m : Contents) : Contents := fun i =>
  if offset ≤ i ∧ i < offset + data.length then data.getD (i - offset) 0 else m i

/-- i915_gem_pwrite_ioctl, with i915_gem_phys_pwrite for an attached object; `data` is what of
the `size` bytes could be read from user space. -/
def pwrite (s : PhysState) (o : ObjId) (offset size : ℕ) (data : List UInt8) : ℤ × PhysState :=
  if (s.obj o).size < offset ∨ (s.obj o).size - offset < size then (Errno.eInval, s)
  else
    let ret := if data.length < size then Errno.eFault else 0
    match (s.obj o).physObj with
    | some p => (ret, (s.access p (offset + size)).setBuffer p
        { s.buffer p with bytes := overlay offset (data.take size) (s.buffer p).bytes })
    | none => (ret, s.setObj o
        { s.obj o with pages := overlay offset (data.take size) (s.obj o).pages })

/-! ### Runs -/

/-- What the object shows: the buffer it is attached to, or else its pages. -/
def PhysState.seen (s : PhysState) (o : ObjId) : Contents :=
  match (s.obj o).physObj with
  | some p => (s.buffer p).bytes
  | none => (s.obj o).pages

inductive PhysCall where
  | attach (o : ObjId) (id : ℕ) (x : AttachOutcome)
  | detach (o : ObjId) (ret : ℤ)
  | pwrite (o : ObjId) (offset size : ℕ) (data : List UInt8)
  /-- The driver gets or puts the pages for another reason. -/
  | pageList (o : ObjId) (present : Bool)

/-- The state, with the contents each object is to have. -/
structure Tracked where
  st : PhysState
  view : ObjId → Contents

def PhysCall.run (s : PhysState) : PhysCall → PhysState
  | .attach o id x => (attachPhysObject s o id x).2
  | .detach o ret => detachPhysObject s o ret
  | .pwrite o offset size data => (Phys.pwrite s o offset size data).2
  | .pageList o present => s.setObj o { s.obj o with pageList := present }

/-- Attaching and detaching is not to change the contents. -/
def PhysCall.show (t : Tracked) : PhysCall → ObjId → Contents
  | .pwrite o offset size data =>
    if (t.st.obj o).size < offset ∨ (t.st.obj o).size - offset < size then t.view
    else Function.update t.view o (overlay offset (data.take size) (t.view o))
  | _ => t.view

/-- The callers name the ids from 1 on. -/
def PhysCall.Allowed : PhysCall → Prop
  | .attach _ id _ => 1 ≤ id
  | _ => True

def physSystem : Run.System Tracked PhysCall where
  init t := t.st.physObjs = (fun _ => none) ∧ (∀ o, (t.st.obj o).physObj = none) ∧
    t.st.overrun = false ∧ ∀ o, t.view o = (t.st.obj o).pages
  step t a t' := a.Allowed ∧ t'.st = a.run t.st ∧ t'.view = a.show t

/-- Objects show their contents, in the buffer of their own id, and nothing is accessed behind
the end of a buffer. -/
structure Faithful (t : Tracked) : Prop where
  seen : ∀ o i, i < (t.st.obj o).size → t.st.seen o i = t.view o i
  own : ∀ o p, (t.st.obj o).physObj = some p → t.st.physObjs (t.st.buffer p).id = some p
  inBounds : t.st.overrun = false

/-- Detaching can take the contents over, or need not. -/
def Saves (s : PhysState) (o : ObjId) (ret : ℤ) : Prop :=
  (s.obj o).pageList = true ∨ ret = 0 ∨ ∀ i < (s.obj o).size, (s.obj o).pages i = s.seen o i

/-- The buffer of the id is as large as the object, holds the object's contents already, and
no other object is attached to it. -/
def Prepared (s : PhysState) (o : ObjId) (id : ℕ) (alloc : Option Contents) : Prop :=
  match s.physObjs id with
  | some p => (s.obj o).size ≤ (s.buffer p).size ∧ (∀ q ≠ o, (s.obj q).physObj ≠ some p) ∧
      ∀ i < (s.obj o).size, (s.buffer p).bytes i = s.seen o i
  | none => ∀ bytes ∈ alloc, ∀ i < (s.obj o).size, bytes i = s.seen o i

/-- A call that loses no contents. -/
def PhysCall.Unharmed (s : PhysState) : PhysCall → Prop
  | .attach o id x => id ≤ maxPhysObject → s.attachedTo o id = false →
    ((s.obj o).physObj ≠ none → Saves s o x.detachPages) ∧ Prepared s o id x.alloc
  | .detach o ret => (s.obj o).physObj ≠ none → Saves s o ret
  | _ => True

/-! What attaching and detaching leave of the contents of objects. -/

open Run

variable {s : PhysState} {o q : ObjId} {p : BufferId} {v : ObjId → Contents}

namespace PhysState

variable {x : PhysObj} {b : PhysBuffer}

@[simp] theorem setObj_self : (s.setObj o x).obj o = x := Function.update_self ..

theorem setObj_of_ne (h : q ≠ o) : (s.setObj o x).obj q = s.obj q := Function.update_of_ne h ..

@[simp] theorem setObj_buffer : (s.setObj o x).buffer = s.buffer := rfl

@[simp] theorem setBuffer_self : (s.setBuffer p b).buffer p = b := Function.update_self ..

theorem setBuffer_of_ne {p' : BufferId} (h : p' ≠ p) : (s.setBuffer p b).buffer p' = s.buffer p' :=
  Function.update_of_ne h ..

@[simp] theorem setBuffer_obj : (s.setBuffer p b).obj = s.obj := rfl

@[simp] theorem access_obj (len : ℕ) : (s.access p len).obj = s.obj := rfl

theorem seen_attached (h : (s.obj o).physObj = some p) : s.seen o = (s.buffer p).bytes := by
  unfold seen
  rw [h]

theorem seen_detached (h : (s.obj o).physObj = none) : s.seen o = (s.obj o).pages := by
  unfold seen
  rw [h]

end PhysState

/-- Page after page, the first `n` pages are copied. -/
theorem copyPages_apply (src dst : Contents) (n i : ℕ) :
    copyPages src n dst i = if i < n * pageSize then src i else dst i := by
  induction n with
  | zero => simp [copyPages]
  | succ n ih =>
    unfold copyPages
    by_cases hin : n * pageSize ≤ i ∧ i < (n + 1) * pageSize
    · rw [if_pos hin.2]
      refine run_of_mem ?_ (mem_block.mpr ⟨i - n * pageSize, ?_, ?_⟩)
      · have hsnd : (block (n * pageSize) (n * pageSize) pageSize).map Prod.snd =
            (List.range pageSize).map fun j => n * pageSize + j := by
          simp [block]
        rw [hsnd]
        exact List.nodup_range.map fun a b h => Nat.add_left_cancel h
      · rw [Nat.add_mul] at hin
        omega
      · rw [Nat.add_sub_cancel' hin.1]
    · rw [run_of_notMem, ih]
      · have hcond : i < n * pageSize ↔ i < (n + 1) * pageSize := by
          rw [Nat.add_mul] at hin ⊢
          omega
        simp only [hcond]
      · intro m hm heq
        obtain ⟨j, hj, rfl⟩ := mem_block.mp hm
        rw [Nat.add_mul] at hin
        omega

theorem PhysObj.copied_size (x : PhysObj) : x.size / pageSize * pageSize = x.size :=
  Nat.div_mul_cancel x.page_dvd

/-- What holds of the driver's state while no contents have been lost. -/
structure PhysInv (v : ObjId → Contents) (s : PhysState) : Prop where
  seen : ∀ o i, i < (s.obj o).size → s.seen o i = v o i
  own : ∀ o p, (s.obj o).physObj = some p → s.physObjs (s.buffer p).id = some p
  fits : ∀ o p, (s.obj o).physObj = some p → (s.obj o).size ≤ (s.buffer p).size
  single : ∀ o q p, (s.obj o).physObj = some p → (s.obj q).physObj = some p → o = q
  named : ∀ id p, s.physObjs id = some p → (s.buffer p).id = id ∧ p < s.next
  inBounds : s.overrun = false

namespace PhysInv

/-- The pages of one object change, as far as they are shown. -/
theorem setPages (h : PhysInv v s) {x : PhysObj} {v' : ObjId → Contents}
    (hsize : x.size = (s.obj o).size) (hphys : x.physObj = (s.obj o).physObj)
    (hother : ∀ q, q ≠ o ∨ (s.obj q).physObj ≠ none → v' q = v q)
    (hpages : (s.obj o).physObj = none → ∀ i < (s.obj o).size, x.pages i = v' o i) :
    PhysInv v' (s.setObj o x) := by
  have hfields : ∀ q, ((s.setObj o x).obj q).size = (s.obj q).size ∧
      ((s.setObj o x).obj q).physObj = (s.obj q).physObj := by
    intro q
    by_cases hq : q = o
    · subst hq
      rw [PhysState.setObj_self]
      exact ⟨hsize, hphys⟩
    · rw [PhysState.setObj_of_ne hq]
      exact ⟨rfl, rfl⟩
  refine
    { seen := ?_
      own := fun q p hq => h.own q p ((hfields q).2 ▸ hq)
      fits := fun q p hq => (hfields q).1 ▸ h.fits q p ((hfields q).2 ▸ hq)
      single := fun q q' p hq hq' => h.single q q' p ((hfields q).2 ▸ hq) ((hfields q').2 ▸ hq')
      named := h.named
      inBounds := h.inBounds }
  intro q i hi
  rw [(hfields q).1] at hi
  cases hp : (s.obj q).physObj with
  | some p =>
    rw [hother q (.inr (by simp [hp])), ← h.seen q i hi, PhysState.seen_attached hp,
      PhysState.seen_attached ((hfields q).2.trans hp)]
    rfl
  | none =>
    rw [PhysState.seen_detached ((hfields q).2.trans hp)]
    by_cases hq : q = o
    · subst hq
      rw [PhysState.setObj_self]
      exact hpages hp i hi
    · rw [hother q (.inl hq), ← h.seen q i hi, PhysState.setObj_of_ne hq,
        PhysState.seen_detached hp]

/-- Fields that do not count may change. -/
theorem setObj (h : PhysInv v s) {x : PhysObj} (hsize : x.size = (s.obj o).size)
    (hphys : x.physObj = (s.obj o).physObj)
    (hpages : (s.obj o).physObj = none → ∀ i < (s.obj o).size, x.pages i = (s.obj o).pages i) :
    PhysInv v (s.setObj o x) := by
  refine h.setPages hsize hphys (fun _ _ => rfl) fun hnone i hi => ?_
  rw [hpages hnone i hi, ← PhysState.seen_detached hnone]
  exact h.seen o i hi

/-- Only `cur_obj` changes. -/
theorem setCurObj (h : PhysInv v s) (c : Option ObjId) :
    PhysInv v (s.setBuffer p { s.buffer p with curObj := c }) := by
  have hfields : ∀ p', ((s.setBuffer p { s.buffer p with curObj := c }).buffer p').bytes =
      (s.buffer p').bytes ∧
      ((s.setBuffer p { s.buffer p with curObj := c }).buffer p').id = (s.buffer p').id ∧
      ((s.setBuffer p { s.buffer p with curObj := c }).buffer p').size = (s.buffer p').size := by
    intro p'
    by_cases hp : p' = p
    · subst hp
      rw [PhysState.setBuffer_self]
      exact ⟨rfl, rfl, rfl⟩
    · rw [PhysState.setBuffer_of_ne hp]
      exact ⟨rfl, rfl, rfl⟩
  refine
    { seen := fun q i hi => ?_
      own := fun q p' hq => (hfields p').2.1 ▸ h.own q p' hq
      fits := fun q p' hq => (hfields p').2.2 ▸ h.fits q p' hq
      single := h.single
      named := fun id p' hid => (hfields p').2.1 ▸ h.named id p' hid
      inBounds := h.inBounds }
  rw [← h.seen q i hi]
  cases hp : (s.obj q).physObj with
  | some p' =>
    have hp' : ((s.setBuffer p { s.buffer p with curObj := c }).obj q).physObj = some p' := hp
    rw [PhysState.seen_attached hp, PhysState.seen_attached hp', (hfields p').1]
  | none =>
    have hp' : ((s.setBuffer p { s.buffer p with curObj := c }).obj q).physObj = none := hp
    rw [PhysState.seen_detached hp, PhysState.seen_detached hp']
    rfl

theorem getPages (h : PhysInv v s) (ret : ℤ) : PhysInv v (getPages s o ret).2 := by
  unfold Phys.getPages
  split
  · exact h
  split
  · exact h
  · exact h.setObj rfl rfl fun _ _ _ => rfl

/-- The access stays in the buffer. -/
theorem access (h : PhysInv v s) {len : ℕ} (hlen : len ≤ (s.buffer p).size) :
    PhysInv v (s.access p len) :=
  { seen := h.seen
    own := h.own
    fits := h.fits
    single := h.single
    named := h.named
    inBounds := by
      unfold PhysState.access
      rw [h.inBounds]
      simpa using hlen }

end PhysInv

theorem getPages_obj (s : PhysState) (o : ObjId) (ret : ℤ) (q : ObjId) :
    ((getPages s o ret).2.obj q).physObj = (s.obj q).physObj ∧
      ((getPages s o ret).2.obj q).pages = (s.obj q).pages ∧
      ((getPages s o ret).2.obj q).size = (s.obj q).size := by
  unfold getPages
  split
  · exact ⟨rfl, rfl, rfl⟩
  split
  · exact ⟨rfl, rfl, rfl⟩
  · by_cases hq : q = o
    · subst hq
      rw [PhysState.setObj_self]
      exact ⟨rfl, rfl, rfl⟩
    · rw [PhysState.setObj_of_ne hq]
      exact ⟨rfl, rfl, rfl⟩

theorem getPages_rest (s : PhysState) (o : ObjId) (ret : ℤ) :
    (getPages s o ret).2.buffer = s.buffer ∧ (getPages s o ret).2.physObjs = s.physObjs ∧
      (getPages s o ret).2.next = s.next := by
  unfold getPages
  split
  · exact ⟨rfl, rfl, rfl⟩
  split <;> exact ⟨rfl, rfl, rfl⟩

theorem getPages_ok_iff (s : PhysState) (o : ObjId) (ret : ℤ) :
    (getPages s o ret).1 = 0 ↔ (s.obj o).pageList = true ∨ ret = 0 := by
  unfold getPages
  split
  · simp_all
  · split <;> simp_all

/-- The pages of an attached object hold its contents afterwards. -/
theorem PhysInv.copyFromBuffer (h : PhysInv v s) (hp : (s.obj o).physObj = some p) :
    PhysInv v (copyFromBuffer s o p) ∧
      ∀ i < (s.obj o).size, ((copyFromBuffer s o p).obj o).pages i = s.seen o i := by
  have hsize := PhysObj.copied_size (s.obj o)
  have hacc : PhysInv v (s.access p ((s.obj o).size / pageSize * pageSize)) :=
    h.access (hsize.le.trans (h.fits o p hp))
  refine ⟨hacc.setObj rfl rfl fun hnone => ?_, fun i hi => ?_⟩
  · have hsome : (s.obj o).physObj = none := hnone
    rw [hp] at hsome
    cases hsome
  · unfold Phys.copyFromBuffer
    rw [PhysState.setObj_self, PhysState.seen_attached hp]
    dsimp only
    rw [copyPages_apply, hsize, if_pos hi]

theorem copyFromBuffer_obj (s : PhysState) (o : ObjId) (p : BufferId) (q : ObjId) :
    ((copyFromBuffer s o p).obj q).physObj = (s.obj q).physObj ∧
      ((copyFromBuffer s o p).obj q).size = (s.obj q).size := by
  unfold copyFromBuffer
  by_cases hq : q = o
  · subst hq
    rw [PhysState.setObj_self]
    exact ⟨rfl, rfl⟩
  · rw [PhysState.setObj_of_ne hq]
    exact ⟨rfl, rfl⟩

/-- An object whose pages hold its contents can be detached. -/
theorem PhysInv.unlink (h : PhysInv v s) (hp : (s.obj o).physObj = some p)
    (hpages : ∀ i < (s.obj o).size, (s.obj o).pages i = s.seen o i) :
    PhysInv v (unlink s o p) := by
  have hcur := h.setCurObj (p := p) none
  have hobj : ∀ q, q ≠ o → (Phys.unlink s o p).obj q = s.obj q := fun q hq =>
    PhysState.setObj_of_ne hq
  have hself : (Phys.unlink s o p).obj o = { s.obj o with physObj := none } :=
    PhysState.setObj_self
  have hattached : ∀ q p', ((Phys.unlink s o p).obj q).physObj = some p' →
      q ≠ o ∧ (s.obj q).physObj = some p' := by
    intro q p' hq
    by_cases hqo : q = o
    · subst hqo
      rw [hself] at hq
      cases hq
    · exact ⟨hqo, hobj q hqo ▸ hq⟩
  refine
    { seen := fun q i hi => ?_
      own := fun q p' hq => hcur.own q p' (hattached q p' hq).2
      fits := fun q p' hq => ?_
      single := fun q q' p' hq hq' =>
        h.single q q' p' (hattached q p' hq).2 (hattached q' p' hq').2
      named := hcur.named
      inBounds := hcur.inBounds }
  · by_cases hqo : q = o
    · subst hqo
      rw [hself] at hi
      have hnone : ((Phys.unlink s q p).obj q).physObj = none := by rw [hself]
      rw [PhysState.seen_detached hnone, hself, ← h.seen q i hi]
      exact hpages i hi
    · rw [hobj q hqo] at hi
      have hsame := hcur.seen q i hi
      rw [← hsame]
      unfold PhysState.seen
      rw [hobj q hqo]
      rfl
  · rw [hobj q (hattached q p' hq).1]
    exact hcur.fits q p' (hattached q p' hq).2

end GfxDrm.Phys
