import GfxDrm.Idr.Map
import GfxDrm.Lib.Kref
import GfxDrm.Lib.Run

/-! Hardware contexts: their references and the pins of their objects (i915_gem_context.c, and
the requests of i915_gem.c). struct_mutex is held throughout each call. -/

namespace GfxDrm.HwContext
open Kref Run

/-- I915_NUM_RINGS. -/
abbrev Ring := Fin 4

/-- RCS, the ring of every context. -/
def rcs : Ring := 0

/-- DRM_I915_GEM_OBJECT_MAX_PIN_COUNT. -/
def maxPinCount : ℕ := 0xf

structure I915HwContext where
  filePriv : ℕ := 0
  id : ℕ := 0
  isInitialized : Bool := false
  deriving DecidableEq, Repr

/-- Contexts and files go by their addresses. `pins` is the pin count of a context's object, a
file is open while it has a `contextIdr`, and `bug` is a BUG_ON that came true. -/
structure CtxState where
  refs : Counts ℕ := {}
  ctx : ℕ → I915HwContext := fun _ => {}
  pins : ℕ → ℕ := fun _ => 0
  lastContext : Ring → Option ℕ := fun _ => none
  defaultContext : Option ℕ := none
  hwContextsDisabled : Bool := false
  /-- Of each request the context it recorded. -/
  requestList : Ring → List (Option ℕ) := fun _ => []
  contextIdr : ℕ → Option (Idr ℕ) := fun _ => none
  bug : Bool := false

namespace CtxState

/-! ### Requests -/

/-- `__i915_add_request`; `ret` is what its steps that may fail return. -/
def addRequest (s : CtxState) (ring : Ring) (ret : ℤ) : ℤ × CtxState :=
  if ret ≠ 0 then (ret, s)
  else (0,
    { s with
      refs := s.refs.getIf (s.lastContext ring)
      requestList := Function.update s.requestList ring
        (s.requestList ring ++ [s.lastContext ring]) })

/-- i915_gem_retire_requests_ring when the first `n` requests have passed. -/
def retireRequests (s : CtxState) (ring : Ring) (n : ℕ) : CtxState :=
  { s with
    refs := ((s.requestList ring).take n).foldl Counts.putIf s.refs
    requestList := Function.update s.requestList ring ((s.requestList ring).drop n) }

end CtxState

/-- What a wait may bring with it. -/
inductive GpuEvent where
  | addRequest (ring : Ring) (ret : ℤ)
  | retire (ring : Ring) (n : ℕ)
  deriving DecidableEq, Repr

/-- What a step of the driver returns, and what happens while it waits. -/
structure Waited where
  ret : ℤ := 0
  events : List GpuEvent := []

namespace CtxState

def event (s : CtxState) : GpuEvent → CtxState
  | .addRequest ring ret => (s.addRequest ring ret).2
  | .retire ring n => s.retireRequests ring n

def wait (s : CtxState) (w : Waited) : CtxState := w.events.foldl event s

/-! ### Pins and references -/

/-- i915_gem_object_pin. -/
def pin (s : CtxState) (c : ℕ) (w : Waited) : ℤ × CtxState :=
  if s.pins c = maxPinCount then (Errno.eBusy, s)
  else
    let s := s.wait w
    if w.ret ≠ 0 then (w.ret, s) else (0, { s with pins := Function.update s.pins c (s.pins c + 1) })

def bugOn (s : CtxState) (b : Bool) : CtxState := { s with bug := s.bug || b }

/-- i915_gem_object_unpin. -/
def unpin (s : CtxState) (c : ℕ) : CtxState :=
  { s.bugOn (s.pins c = 0) with pins := Function.update s.pins c (s.pins c - 1) }

/-- i915_gem_context_reference. -/
def reference (s : CtxState) (c : ℕ) : CtxState := { s with refs := s.refs.get c }

/-- i915_gem_context_unreference. -/
def unreference (s : CtxState) (c : ℕ) : CtxState := { s with refs := s.refs.put c }

/-- The context a file has under an id: i915_gem_context_get. -/
def contextGet (s : CtxState) (filePriv id : ℕ) : Option ℕ :=
  (s.contextIdr filePriv).bind fun idr => idrFind idr id

end CtxState

/-! ### do_switch -/

/-- The steps of do_switch that may fail: the pin, the domain, the command, the request; and the
command that is to undo the switch. -/
structure SwitchOutcome where
  pin : Waited := {}
  domain : Waited := {}
  mi : Waited := {}
  request : Waited := {}
  undo : Waited := {}

namespace CtxState

def switched (s : CtxState) (toCtx : ℕ) : CtxState :=
  let s := s.reference toCtx
  { s with
    lastContext := Function.update s.lastContext rcs (some toCtx)
    ctx := Function.update s.ctx toCtx { s.ctx toCtx with isInitialized := true } }

/-- do_switch once the switch has been emitted. -/
def handOver (s : CtxState) (fromCtx : Option ℕ) (toCtx : ℕ) (o : SwitchOutcome) : ℤ × CtxState :=
  match fromCtx with
  | none => (0, s.switched toCtx)
  | some c =>
    match (s.wait o.request).addRequest rcs o.request.ret with
    | (ret, s) =>
      -- too late, the switch has been scheduled
      if ret ≠ 0 then (ret, s.wait o.undo)
      else (0, ((s.unpin c).unreference c).switched toCtx)

def doSwitch (s : CtxState) (toCtx : ℕ) (o : SwitchOutcome) : ℤ × CtxState :=
  let fromCtx := s.lastContext rcs
  let s := s.bugOn (fromCtx.any fun c => s.pins c = 0)
  if fromCtx = some toCtx then (0, s)
  else
    match s.pin toCtx o.pin with
    | (ret, s) =>
      if ret ≠ 0 then (ret, s)
      else
        let s := s.wait o.domain
        if o.domain.ret ≠ 0 then (o.domain.ret, s.unpin toCtx)
        else
          let s := s.wait o.mi
          if o.mi.ret ≠ 0 then (o.mi.ret, s.unpin toCtx) else s.handOver fromCtx toCtx o

/-- The pointer i915_switch_context goes on with, or its error. -/
def switchTarget (s : CtxState) (file : Option ℕ) (toId : ℕ) : Except ℤ (Option ℕ) :=
  if toId = 0 then .ok s.defaultContext
  else
    match file with
    | none => .error Errno.eInval
    | some f =>
      match s.contextGet f toId with
      | none => .error Errno.eNoent
      | some c => .ok (some c)

def i915SwitchContext (s : CtxState) (ring : Ring) (file : Option ℕ) (toId : ℕ)
    (o : SwitchOutcome) : ℤ × CtxState :=
  if s.hwContextsDisabled then (0, s)
  else if ring ≠ rcs then (0, s)
  else
    match s.switchTarget file toId with
    | .error e => (e, s)
    | .ok none => (0, s.bugOn true)
    | .ok (some c) => s.doSwitch c o

end CtxState

/-! ### Creation and destruction -/

/-- The address kzalloc returns, whether the object is allocated, what setting its cache level
returns, and whether the idr finds memory for the id. -/
structure CreateOutcome where
  kzalloc : Option ℕ
  allocObject : Bool := true
  setCacheLevel : ℤ := 0
  idrAlloc : Bool := true

namespace CtxState

def newContext (s : CtxState) (c : ℕ) : CtxState :=
  { s with
    refs := s.refs.new c
    ctx := Function.update s.ctx c {}
    pins := Function.update s.pins c 0 }

/-- The registration of a new context in its file's idr. -/
def register (s : CtxState) (c f : ℕ) (idr : Idr ℕ) (idrAlloc : Bool) : Option ℕ × CtxState :=
  match idrGetNewAbove idr (some c) 1 idrAlloc with
  | (.ok id, idr) => (some c,
    { s with
      ctx := Function.update s.ctx c { s.ctx c with filePriv := f, id := id }
      contextIdr := Function.update s.contextIdr f (some idr) })
  | (.error _, idr) => (none,
    { s with
      ctx := Function.update s.ctx c { s.ctx c with filePriv := f }
      contextIdr := Function.update s.contextIdr f (some idr) }.unreference c)

def createHwContext (s : CtxState) (filePriv : Option ℕ) (o : CreateOutcome) :
    Option ℕ × CtxState :=
  match o.kzalloc with
  | none => (none, s)
  | some c =>
    if !o.allocObject then (none, s)
    else
      let s := s.newContext c
      if o.setCacheLevel ≠ 0 then (none, s.unreference c)
      else
        match filePriv with
        | none => (some c, s)
        | some f =>
          match s.contextIdr f with
          | none => (none, s)
          | some idr => s.register c f idr o.idrAlloc

/-- i915_gem_context_create_ioctl; what it returns is the id in `args`. -/
def createIoctl (s : CtxState) (f : ℕ) (o : CreateOutcome) : Except ℤ ℕ × CtxState :=
  if s.hwContextsDisabled then (.error Errno.eNodev, s)
  else
    match s.createHwContext (some f) o with
    | (none, s) => (.error Errno.eNomem, s)
    | (some c, s) => (.ok (s.ctx c).id, s)

/-- i915_gem_context_destroy_ioctl; `alloc` tells whether idr_remove finds memory. What that
returns is not looked at. -/
def destroyIoctl (s : CtxState) (f id : ℕ) (alloc : Bool) : ℤ × CtxState :=
  match s.contextGet f id with
  | none => (Errno.eNoent, s)
  | some c =>
    let owner := (s.ctx c).filePriv
    (0, { s with
      contextIdr := Function.update s.contextIdr owner
        ((s.contextIdr owner).map fun idr => (idrRemove idr (s.ctx c).id alloc).2) }.unreference c)

/-- i915_gem_context_close. -/
def contextClose (s : CtxState) (f : ℕ) : CtxState :=
  match s.contextIdr f with
  | none => s
  | some idr =>
    { s.bugOn (idr.usedIds.keys.contains 0) with
      refs := (idrPointers idr).foldl Counts.putPtr s.refs
      contextIdr := Function.update s.contextIdr f none }

/-- i915_driver_open. -/
def driverOpen (s : CtxState) (f : ℕ) : CtxState :=
  { s with contextIdr := Function.update s.contextIdr f (some idrInit) }

end CtxState

/-! ### The default context -/

structure InitOutcome where
  hasHwContexts : Bool := true
  sizeOk : Bool := true
  create : CreateOutcome
  pin : Waited := {}
  switch : SwitchOutcome := {}

namespace CtxState

def createDefaultContext (s : CtxState) (o : InitOutcome) : ℤ × CtxState :=
  match s.createHwContext none o.create with
  | (none, s) => (Errno.eNomem, s)
  | (some c, s) =>
    match { s with defaultContext := some c }.pin c o.pin with
    | (ret, s) =>
      if ret ≠ 0 then (ret, s.unreference c)
      else
        match s.doSwitch c o.switch with
        | (ret, s) => if ret ≠ 0 then (ret, (s.unpin c).unreference c) else (0, s)

def contextInit (s : CtxState) (o : InitOutcome) : CtxState :=
  if !o.hasHwContexts then { s with hwContextsDisabled := true }
  else if s.hwContextsDisabled || s.defaultContext.isSome then s
  else if !o.sizeOk then { s with hwContextsDisabled := true }
  else
    match s.createDefaultContext o with
    | (ret, s) => if ret ≠ 0 then { s with hwContextsDisabled := true } else s

end CtxState

/-! ### Runs -/

inductive CtxAction where
  | open (f : ℕ)
  | create (f : ℕ) (o : CreateOutcome)
  | destroy (f id : ℕ) (alloc : Bool)
  | close (f : ℕ)
  | switch (ring : Ring) (file : Option ℕ) (id : ℕ) (o : SwitchOutcome)
  | gpu (e : GpuEvent)

/-- Calls are made on open files, and new memory is not in use. -/
def CtxAction.Calls (s : CtxState) : CtxAction → Prop
  | .open f => s.contextIdr f = none
  | .create f o => (s.contextIdr f).isSome ∧ ∀ c, o.kzalloc = some c → s.refs.alive c = false
  | .destroy f _ _ | .close f | .switch _ (some f) _ _ => (s.contextIdr f).isSome
  | .switch _ none _ _ | .gpu _ => True

def CtxState.apply (s : CtxState) : CtxAction → CtxState
  | .open f => s.driverOpen f
  | .create f o => (s.createIoctl f o).2
  | .destroy f id alloc => (s.destroyIoctl f id alloc).2
  | .close f => s.contextClose f
  | .switch ring file id o => (s.i915SwitchContext ring file id o).2
  | .gpu e => s.event e

/-- A run begins when the driver has loaded, with i915_gem_context_init. -/
def ctxSystem : System CtxState CtxAction where
  init s := ∃ o, s = ({} : CtxState).contextInit o
  step s a s' := a.Calls s ∧ s' = s.apply a

end GfxDrm.HwContext
