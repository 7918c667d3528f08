import GfxDrm.Gtt.Bound

/-! Pins that user space takes (i915_gem_pin_ioctl, i915_gem_unpin_ioctl) over the range
manager's model of binding. -/

namespace GfxDrm.Gtt
open Run

/-- DRM_I915_GEM_OBJECT_MAX_PIN_COUNT. -/
def objectMaxPinCount : ℕ := 0xf

/-- What the steps of i915_gem_object_bind_to_gtt come to. -/
structure BindOutcome where
  getPages : ℤ := 0
  kzalloc : Bool := true
  lru : GttState → List ℕ := fun _ => []
  rounds : List (ℕ → Waits) := []

structure PinOutcome where
  waits : Waits := {}
  bind : BindOutcome := {}

structure PinDev extends GttDev where
  /-- `mm.aliasing_ppgtt != NULL`. -/
  aliasingPpgtt : Bool := false

/-- i915_gem_object_bind_to_gtt, with its evictions. -/
def bindToGtt (dev : GttDev) (s : GttState) (o alignment : ℕ) (mapAndFenceable : Bool)
    (x : BindOutcome) : ℤ × GttState :=
  if x.getPages ≠ 0 ∨ x.kzalloc = false then
    objectBindToGtt dev s o alignment mapAndFenceable x.getPages x.kzalloc
  else bindEvicting dev x.lru o alignment mapAndFenceable x.rounds s

/-- The object is where the request does not allow it. -/
def GttObj.misplaced (obj : GttObj) (alignment : ℕ) (mapAndFenceable : Bool) : Bool :=
  decide (alignment ≠ 0 ∧ obj.gttOffset &&& (alignment - 1) ≠ 0) ||
    mapAndFenceable && !obj.mapAndFenceable

/-- Bind what is not bound. -/
def bindIfNeeded (dev : PinDev) (s : GttState) (o alignment : ℕ) (mapAndFenceable : Bool)
    (x : BindOutcome) : ℤ × GttState :=
  if (s.obj o).gttSpace then (0, s)
  else
    let r := bindToGtt dev.toGttDev s o alignment mapAndFenceable x
    if r.1 ≠ 0 then r
    else if dev.aliasingPpgtt then (0, r.2)
    else (0, gttBindObject dev.toGttDev r.2 o (r.2.obj o).cacheLevel)

/-- Unbind what is bound where the request does not allow it. -/
def unbindMisplaced (dev : GttDev) (s : GttState) (o alignment : ℕ) (mapAndFenceable : Bool)
    (w : Waits) : ℤ × GttState :=
  if (s.obj o).gttSpace && (s.obj o).misplaced alignment mapAndFenceable then
    objectUnbind dev s o w
  else (0, s)

/-- A mappable object needs its entries in the GTT itself. -/
def mapIfNeeded (dev : GttDev) (s : GttState) (o : ℕ) (mapAndFenceable : Bool) : GttState :=
  if !(s.obj o).hasGlobalGttMapping && mapAndFenceable then
    gttBindObject dev s o (s.obj o).cacheLevel
  else s

/-- i915_gem_object_pin. -/
def objectPin (dev : PinDev) (s : GttState) (o alignment : ℕ) (mapAndFenceable : Bool)
    (x : PinOutcome) : ℤ × GttState :=
  if (s.obj o).pinCount = objectMaxPinCount then (Errno.eBusy, s)
  else
    let u := unbindMisplaced dev.toGttDev s o alignment mapAndFenceable x.waits
    if u.1 ≠ 0 then u
    else
      let b := bindIfNeeded dev u.2 o alignment mapAndFenceable x.bind
      if b.1 ≠ 0 then b
      else (0, (mapIfNeeded dev.toGttDev b.2 o mapAndFenceable).setObj o fun obj =>
        { obj with pinCount := obj.pinCount + 1 })

abbrev FileId := ℕ

/-- A pin or unpin ioctl that returned 0. -/
inductive UserPinEvent where
  | pinned (file : FileId) (o : ℕ)
  | unpinned (file : FileId) (o : ℕ)
  deriving DecidableEq, Repr

structure PinState where
  gtt : GttState
  userPinCount : ℕ → ℕ := fun _ => 0
  pinFilp : ℕ → Option FileId := fun _ => none
  /-- The pins that the driver has taken for itself, and not given back. -/
  kernelPins : ℕ → ℕ
  /-- A BUG_ON of i915_gem_object_unpin has been hit. -/
  bugOn : Bool := false
  history : List UserPinEvent := []

/-- i915_gem_object_unpin. -/
def objectUnpin (s : PinState) (o : ℕ) : PinState :=
  { s with
    bugOn := s.bugOn || (s.gtt.obj o).pinCount == 0 || !(s.gtt.obj o).gttSpace
    gtt := s.gtt.setObj o fun obj => { obj with pinCount := Word.sub 32 obj.pinCount 1 } }

/-- `struct drm_i915_gem_pin`, without the handle. -/
structure PinArgs where
  alignment : ℕ
  offset : ℕ := 0

/-- The part of i915_gem_pin_ioctl that counts and pins. -/
def userPin (dev : PinDev) (s : PinState) (file : FileId) (o : ℕ) (args : PinArgs)
    (x : PinOutcome) : ℤ × PinState :=
  let s := { s with
    userPinCount := Function.update s.userPinCount o (Word.add 32 (s.userPinCount o) 1)
    pinFilp := Function.update s.pinFilp o (some file) }
  if s.userPinCount o = 1 then
    let r := objectPin dev s.gtt o (args.alignment % 2 ^ 32) true x
    (r.1, { s with gtt := r.2 })
  else (0, s)

/-- i915_gem_pin_ioctl; `lock` is what i915_mutex_lock_interruptible returns and `lookup` the
object of the handle. -/
def pinIoctl (dev : PinDev) (s : PinState) (file : FileId) (lock : ℤ) (lookup : Option ℕ)
    (args : PinArgs) (x : PinOutcome) : ℤ × PinArgs × PinState :=
  if lock ≠ 0 then (lock, args, s)
  else match lookup with
    | none => (Errno.eNoent, args, s)
    | some o =>
      if s.pinFilp o ≠ none ∧ s.pinFilp o ≠ some file then (Errno.eInval, args, s)
      else
        let r := userPin dev s file o args x
        if r.1 ≠ 0 then (r.1, args, r.2)
        else (0, { args with offset := (r.2.gtt.obj o).gttOffset }, r.2)

/-- The part of i915_gem_unpin_ioctl that counts and unpins. -/
def userUnpin (s : PinState) (o : ℕ) : PinState :=
  let s := { s with
    userPinCount := Function.update s.userPinCount o (Word.sub 32 (s.userPinCount o) 1) }
  if s.userPinCount o = 0 then
    objectUnpin { s with pinFilp := Function.update s.pinFilp o none } o
  else s

/-- i915_gem_unpin_ioctl. -/
def unpinIoctl (s : PinState) (file : FileId) (lock : ℤ) (lookup : Option ℕ) : ℤ × PinState :=
  if lock ≠ 0 then (lock, s)
  else match lookup with
    | none => (Errno.eNoent, s)
    | some o => if s.pinFilp o ≠ some file then (Errno.eInval, s) else (0, userUnpin s o)

/-! ### Runs -/

/-- Calls under `struct_mutex`; the driver pins objects for itself too, and its other calls move
no pin. -/
inductive PinCall where
  | pin (file : FileId) (lock : ℤ) (lookup : Option ℕ) (args : PinArgs) (x : PinOutcome)
  | unpin (file : FileId) (lock : ℤ) (lookup : Option ℕ)
  | kernelPin (o alignment : ℕ) (mapAndFenceable : Bool) (x : PinOutcome)
  | kernelUnpin (o : ℕ)
  | driver (c : GttCall)

def GttCall.movesPins : GttCall → Bool
  | .create .. | .pin _ | .unpin _ => true
  | _ => false

/-- The driver gives back only what it has taken. -/
def PinCall.Allowed (s : PinState) : PinCall → Prop
  | .pin .. | .unpin .. | .kernelPin .. => True
  | .kernelUnpin o => s.kernelPins o ≠ 0
  | .driver c => c.Allowed s.gtt ∧ c.movesPins = false

/-- Note an ioctl that has returned 0. -/
def PinState.note (s : PinState) (ret : ℤ) (e : UserPinEvent) : PinState :=
  if ret = 0 then { s with history := e :: s.history } else s

def PinCall.run (dev : PinDev) (s : PinState) : PinCall → PinState
  | .pin file lock lookup args x =>
    let r := pinIoctl dev s file lock lookup args x
    match lookup with
    | none => r.2.2
    | some o => r.2.2.note r.1 (.pinned file o)
  | .unpin file lock lookup =>
    let r := unpinIoctl s file lock lookup
    match lookup with
    | none => r.2
    | some o => r.2.note r.1 (.unpinned file o)
  | .kernelPin o alignment mapAndFenceable x =>
    let r := objectPin dev s.gtt o alignment mapAndFenceable x
    if r.1 = 0 then
      { s with
        gtt := r.2
        kernelPins := Function.update s.kernelPins o (s.kernelPins o + 1) }
    else { s with gtt := r.2 }
  | .kernelUnpin o =>
    { objectUnpin s o with kernelPins := Function.update s.kernelPins o (s.kernelPins o - 1) }
  | .driver c => { s with gtt := c.run dev.toGttDev s.gtt }

/-- The driver has its own pins on bound objects, and user space none, when a run begins. -/
def pinSystem (dev : PinDev) : System PinState PinCall where
  init s := s.userPinCount = (fun _ => 0) ∧ s.pinFilp = (fun _ => none) ∧ s.bugOn = false ∧
    s.history = [] ∧ ∀ o, (s.gtt.obj o).pinCount = s.kernelPins o ∧
      s.kernelPins o ≤ objectMaxPinCount ∧ (s.kernelPins o ≠ 0 → (s.gtt.obj o).gttSpace = true)
  step s a s' := a.Allowed s ∧ s' = a.run dev s

/-! ### What is to hold -/

/-- The successful pins of an object. -/
def pins (history : List UserPinEvent) (o : ℕ) : ℕ :=
  history.countP fun
    | .pinned _ p => p = o
    | .unpinned .. => false

def unpins (history : List UserPinEvent) (o : ℕ) : ℕ :=
  history.countP fun
    | .pinned .. => false
    | .unpinned _ p => p = o

/-- The file has pinned the object more often than unpinned it. -/
def Holds (history : List UserPinEvent) (file : FileId) (o : ℕ) : Prop :=
  history.count (.unpinned file o) < history.count (.pinned file o)

structure PinsAgree (s : PinState) : Prop where
  count : ∀ o, s.userPinCount o + unpins s.history o = pins s.history o
  owner : ∀ o file, s.pinFilp o = some file ↔ Holds s.history file o
  owned : ∀ o, s.pinFilp o ≠ none ↔ 0 < s.userPinCount o
  pinned : ∀ o, 0 < s.userPinCount o → 0 < (s.gtt.obj o).pinCount
  noBug : s.bugOn = false

/-- i915_gem_object_pin can pin: the object lies well, or can be moved to where it does. -/
def CanPin (dev : PinDev) (s : GttState) (o alignment : ℕ) (mapAndFenceable : Bool)
    (x : PinOutcome) : Prop :=
  (s.obj o).pinCount ≠ objectMaxPinCount ∧
    ((s.obj o).gttSpace = true ∧ (s.obj o).misplaced alignment mapAndFenceable = false ∨
      ((s.obj o).gttSpace = false ∨ (s.obj o).pinCount = 0 ∧ x.waits = {}) ∧
        (bindToGtt dev.toGttDev (objectUnbind dev.toGttDev s o x.waits).2 o alignment
          mapAndFenceable x.bind).1 = 0)

/-- A pin ioctl that takes the first pin gets it, and one that takes another still has room in
`user_pin_count`. -/
def PinCall.Counted (dev : PinDev) (s : PinState) : PinCall → Prop
  | .pin file lock lookup args x => lock = 0 → ∀ o ∈ lookup,
    s.pinFilp o = none ∨ s.pinFilp o = some file →
      (s.userPinCount o = 0 → CanPin dev s.gtt o (args.alignment % 2 ^ 32) true x) ∧
        s.userPinCount o ≠ 2 ^ 32 - 1
  | _ => True

end GfxDrm.Gtt
