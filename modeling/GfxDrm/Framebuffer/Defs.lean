import GfxDrm.Idr.Defs
import GfxDrm.Lib.Kref
import GfxDrm.Lib.Run
import Mathlib.Data.UInt

/-! Framebuffers and what scans them out (drm_crtc.c). A step of a call is what it does under the
locks of the mode setting, of a file's list or of the idr; `crtc->fb` and `plane->fb` change under
the first alone, so each loop over them is part of one step. -/

namespace GfxDrm.Framebuffer
open Kref Run

structure DrmFramebuffer where
  /-- `base.id`. -/
  id : ℕ := 0
  width : UInt32 := 0
  height : UInt32 := 0
  pixelFormat : UInt32 := 0
  deriving DecidableEq, Repr

/-- The mode counts with its `hdisplay` and `vdisplay`. -/
structure DrmCrtc where
  fb : Option ℕ := none
  x : UInt32 := 0
  y : UInt32 := 0
  hdisplay : UInt32 := 0
  vdisplay : UInt32 := 0
  invertDimensions : Bool := false
  hasPageFlip : Bool := true
  deriving DecidableEq, Repr

structure DrmPlane where
  fb : Option ℕ := none
  formatTypes : List UInt32 := []
  deriving DecidableEq, Repr

/-- What has an id. Crtcs and planes go by their place in `crtc_list` and `plane_list`,
framebuffers by their addresses. -/
inductive ModeObject (nc np : ℕ) where
  | crtc (c : Fin nc)
  | plane (p : Fin np)
  | connector
  | fb (x : ℕ)
  | other
  deriving DecidableEq, Repr

/-- The modeset locks a call has at its end. -/
inductive ModesetLock (nc : ℕ) where
  | all
  | crtc (c : Fin nc)
  deriving DecidableEq, Repr

/-- Where a call stands. -/
inductive FbCall (nc np : ℕ) where
  /-- drm_mode_addfb with what `fb_create` has returned. -/
  | addfb (file x : ℕ)
  /-- drm_framebuffer_remove at its test, at the locks and at its last line, for drm_mode_rmfb or
  for drm_fb_release of a file. -/
  | remove (x : ℕ) (file : Option ℕ)
  | removeActive (x : ℕ) (file : Option ℕ)
  | removeLast (x : ℕ) (file : Option ℕ)
  /-- drm_fb_release in its loop. -/
  | release (file : ℕ)
  /-- drm_mode_setcrtc before drm_mode_set_config_internal. -/
  | setcrtc (x : Option ℕ)
  /-- drm_mode_setplane at the locks. -/
  | disablePlane (p : Fin np)
  | updatePlane (p : Fin np) (x : ℕ)
  /-- drm_mode_page_flip_ioctl before `page_flip`. -/
  | pageFlip (c : Fin nc) (x : ℕ)
  /-- A call at `out`, with the framebuffers it is to unreference. -/
  | out (l : List ℕ) (lock : Option (ModesetLock nc))
  deriving DecidableEq, Repr

/-- `bug` is a drm_framebuffer_free_bug. -/
structure FbState (nc np : ℕ) where
  refs : Counts ℕ := {}
  fb : ℕ → DrmFramebuffer := fun _ => {}
  crtcIdr : Idr (ModeObject nc np) := idrInit
  crtc : Fin nc → DrmCrtc := fun _ => {}
  plane : Fin np → DrmPlane := fun _ => {}
  numConnector : ℕ := 0
  files : Finset ℕ := ∅
  fbs : ℕ → List ℕ := fun _ => []
  fbsLock : ℕ → Bool := fun _ => false
  modeMutex : Bool := false
  crtcMutex : Fin nc → Bool := fun _ => false
  calls : List (FbCall nc np) := []
  bug : Bool := false

variable {nc np : ℕ}

namespace FbState

/-! ### References -/

/-- drm_framebuffer_reference. -/
def reference (s : FbState nc np) (x : ℕ) : FbState nc np := { s with refs := s.refs.get x }

/-- drm_framebuffer_unreference. -/
def unreference (s : FbState nc np) (x : ℕ) : FbState nc np := { s with refs := s.refs.put x }

/-- `__drm_framebuffer_unreference`, which is not to be the last one. -/
def unreferenceBug (s : FbState nc np) (x : ℕ) : FbState nc np :=
  { s.unreference x with bug := s.bug || s.refs.count x - 1 = 0 }

/-- `__drm_framebuffer_lookup`. -/
def lookup (s : FbState nc np) (id : ℕ) : Option ℕ :=
  match idrFind s.crtcIdr id with
  | some (.fb x) => if (s.fb x).id = id then some x else none
  | _ => none

/-- drm_framebuffer_lookup. -/
def framebufferLookup (s : FbState nc np) (id : ℕ) : Option ℕ × FbState nc np :=
  match s.lookup id with
  | none => (none, s)
  | some x => (some x, s.reference x)

/-- drm_mode_object_find; the ids of objects other than framebuffers stay. -/
def objectFind (s : FbState nc np) (id : ℕ) : Option (ModeObject nc np) := idrFind s.crtcIdr id

/-- drm_framebuffer_init of a framebuffer with `v`. What drm_mode_object_get returns is lost. -/
def framebufferInit (s : FbState nc np) (x : ℕ) (v : DrmFramebuffer) (alloc : Bool) :
    FbState nc np :=
  let s := { s with refs := s.refs.new x, fb := Function.update s.fb x { v with id := 0 } }
  match idrGetNewAbove s.crtcIdr (some (.fb x)) 1 alloc with
  | (.ok id, idr) =>
    { s with crtcIdr := idr, fb := Function.update s.fb x { v with id } }.reference x
  | (.error _, idr) => { s with crtcIdr := idr }

/-- `__drm_framebuffer_unregister`. -/
def unregister (s : FbState nc np) (x : ℕ) (alloc : Bool) : FbState nc np :=
  { s with
    crtcIdr := (idrRemove s.crtcIdr (s.fb x).id alloc).2
    fb := Function.update s.fb x { s.fb x with id := 0 } }.unreferenceBug x

end FbState

/-! ### set_config -/

/-- What `set_config` makes of a crtc's framebuffer: it stays, the crtc is disabled, or it is the
one of the set. -/
inductive FbChange where
  | keep
  | disable
  | set
  deriving DecidableEq, Repr

def FbChange.apply (old fb : Option ℕ) : FbChange → Option ℕ
  | keep => old
  | disable => none
  | set => fb

/-- What `set_config` does to each crtc, whether it succeeds or not. -/
structure SetConfig (nc : ℕ) where
  change : Fin nc → FbChange := fun _ => .keep
  crtc : Fin nc → DrmCrtc := fun _ => {}

namespace FbState

/-- drm_mode_set_config_internal. -/
def setConfigInternal (s : FbState nc np) (fb : Option ℕ) (o : SetConfig nc) : FbState nc np :=
  let new c := (o.change c).apply (s.crtc c).fb fb
  { s with
    crtc := fun c => { o.crtc c with fb := new c }
    refs := ((List.finRange nc).map fun c => (new c, (s.crtc c).fb)).foldl
      (fun r p => (r.getIf p.1).putIf p.2) s.refs }

/-- drm_plane_force_disable. -/
def planeForceDisable (s : FbState nc np) (p : Fin np) : FbState nc np :=
  match (s.plane p).fb with
  | none => s
  | some y =>
    { s.unreferenceBug y with plane := Function.update s.plane p { s.plane p with fb := none } }

/-- The two loops of drm_framebuffer_remove. -/
def removeCrtcs (s : FbState nc np) (x : ℕ) (o : Fin nc → SetConfig nc) : FbState nc np :=
  (List.finRange nc).foldl
    (fun s c => if (s.crtc c).fb = some x then s.setConfigInternal none (o c) else s) s

def removePlanes (s : FbState nc np) (x : ℕ) : FbState nc np :=
  (List.finRange np).foldl
    (fun s p => if (s.plane p).fb = some x then s.planeForceDisable p else s) s

/-! ### Locks -/

/-- drm_modeset_lock_all would not wait. -/
def Unlocked (s : FbState nc np) : Prop := s.modeMutex = false ∧ ∀ c, s.crtcMutex c = false

def lockAll (s : FbState nc np) : FbState nc np :=
  { s with modeMutex := true, crtcMutex := fun _ => true }

def unlock (s : FbState nc np) : Option (ModesetLock nc) → FbState nc np
  | none => s
  | some .all => { s with modeMutex := false, crtcMutex := fun _ => false }
  | some (.crtc c) => { s with crtcMutex := Function.update s.crtcMutex c false }

end FbState

/-! ### Requests -/

/-- The test drm_mode_setcrtc and drm_mode_page_flip_ioctl make of a framebuffer. -/
def viewportFits (fb : DrmFramebuffer) (hdisplay vdisplay x y : UInt32) (invert : Bool) : Bool :=
  let h := if invert then vdisplay else hdisplay
  let v := if invert then hdisplay else vdisplay
  !(h > fb.width || v > fb.height || x > fb.width - h || y > fb.height - v)

structure DrmModeCrtc where
  crtcId : ℕ
  fbId : ℕ
  x : UInt32 := 0
  y : UInt32 := 0
  modeValid : Bool := true
  clock : UInt32 := 0
  vrefresh : UInt32 := 0
  hdisplay : UInt16 := 0
  vdisplay : UInt16 := 0
  countConnectors : ℕ := 1
  deriving DecidableEq, Repr

/-- Whether memory is there for the mode and for the connectors, and what get_user reads of their
ids. -/
structure ModeCrtcOutcome where
  modeCreate : Bool := true
  kmalloc : Bool := true
  connectors : ℕ → Option ℕ := fun _ => none

def intMax : UInt32 := 0x7fffffff

/-- drm_crtc_convert_umode. -/
def DrmModeCrtc.convertUmode (r : DrmModeCrtc) : ℤ :=
  if r.clock > intMax || r.vrefresh > intMax then Errno.eRange else 0

namespace FbState

/-- The loop of drm_mode_setcrtc over the connectors from `i` on. -/
def connectorSet (s : FbState nc np) (o : ModeCrtcOutcome) : List ℕ → ℤ
  | [] => 0
  | i :: l =>
    match o.connectors i with
    | none => Errno.eFault
    | some id =>
      match s.objectFind id with
      | some .connector => s.connectorSet o l
      | _ => Errno.eInval

/-- What drm_mode_setcrtc tests once it has looked the framebuffer up. -/
def setcrtcCheck (s : FbState nc np) (c : Fin nc) (x : Option ℕ) (r : DrmModeCrtc)
    (o : ModeCrtcOutcome) : ℤ :=
  if r.modeValid && !o.modeCreate then Errno.eNomem
  else if r.modeValid && r.convertUmode ≠ 0 then r.convertUmode
  else if r.modeValid && !x.all fun x => viewportFits (s.fb x) r.hdisplay.toUInt32
      r.vdisplay.toUInt32 r.x r.y (s.crtc c).invertDimensions then Errno.eNospc
  else if r.countConnectors = 0 && r.modeValid then Errno.eInval
  else if r.countConnectors > 0 && (!r.modeValid || x.isNone) then Errno.eInval
  else if r.countConnectors = 0 then 0
  else if r.countConnectors > s.numConnector then Errno.eInval
  else if !o.kmalloc then Errno.eNomem
  else s.connectorSet o (List.range r.countConnectors)

/-- The framebuffer drm_mode_setcrtc is to set, with a reference; `fb_id` -1 stands for the one the
crtc has. -/
def setcrtcFb (s : FbState nc np) (c : Fin nc) (r : DrmModeCrtc) : Option ℕ × FbState nc np :=
  if r.fbId = 0xffffffff then
    match (s.crtc c).fb with
    | none => (none, s)
    | some x => (some x, s.reference x)
  else s.framebufferLookup r.fbId

/-- drm_mode_setcrtc up to drm_mode_set_config_internal. -/
def setcrtc (s : FbState nc np) (r : DrmModeCrtc) (o : ModeCrtcOutcome) :
    Option (FbCall nc np) × FbState nc np :=
  if r.x > intMax || r.y > intMax then (none, s)
  else
    match s.objectFind r.crtcId with
    | some (.crtc c) =>
      let goOn x (s : FbState nc np) :=
        (some (if s.setcrtcCheck c x r o = 0 then .setcrtc x else .out x.toList (some .all)),
          s.lockAll)
      if !r.modeValid then goOn none s
      else
        match s.setcrtcFb c r with
        | (none, s) => (none, s)
        | (some x, s) => goOn (some x) s
    | _ => (none, s)

end FbState

structure DrmModeSetPlane where
  planeId : ℕ
  crtcId : ℕ
  fbId : ℕ
  crtcX : Int32 := 0
  crtcY : Int32 := 0
  crtcW : UInt32 := 0
  crtcH : UInt32 := 0
  srcX : UInt32 := 0
  srcY : UInt32 := 0
  srcW : UInt32 := 0
  srcH : UInt32 := 0
  deriving DecidableEq

/-- What drm_mode_setplane tests once it has looked the framebuffer up. -/
def DrmModeSetPlane.check (r : DrmModeSetPlane) (plane : DrmPlane) (fb : DrmFramebuffer) : ℤ :=
  let fbWidth := fb.width <<< 16
  let fbHeight := fb.height <<< 16
  if fb.pixelFormat ∉ plane.formatTypes then Errno.eInval
  else if r.srcW > fbWidth || r.srcX > fbWidth - r.srcW || r.srcH > fbHeight ||
      r.srcY > fbHeight - r.srcH then Errno.eNospc
  else if r.crtcW > intMax || r.crtcX > intMax.toInt32 - r.crtcW.toInt32 || r.crtcH > intMax ||
      r.crtcY > intMax.toInt32 - r.crtcH.toInt32 then Errno.eRange
  else 0

/-- drm_mode_setplane up to drm_modeset_lock_all. -/
def FbState.setplane (s : FbState nc np) (r : DrmModeSetPlane) :
    Option (FbCall nc np) × FbState nc np :=
  match s.objectFind r.planeId with
  | some (.plane p) =>
    if r.fbId = 0 then (some (.disablePlane p), s)
    else
      match s.objectFind r.crtcId with
      | some (.crtc _) =>
        match s.framebufferLookup r.fbId with
        | (none, s) => (none, s)
        | (some x, s) =>
          (some (if r.check (s.plane p) (s.fb x) = 0 then .updatePlane p x else .out [x] none), s)
      | _ => (none, s)
  | _ => (none, s)

structure DrmModeCrtcPageFlip where
  crtcId : ℕ
  fbId : ℕ
  flags : UInt32 := 0
  reserved : UInt32 := 0
  deriving DecidableEq, Repr

/-- DRM_MODE_PAGE_FLIP_EVENT and DRM_MODE_PAGE_FLIP_FLAGS. -/
def pageFlipEvent : UInt32 := 0x01
def pageFlipFlags : UInt32 := 0x0f

/-- drm_mode_page_flip_ioctl up to `page_flip`; `event` tells whether there is room and memory for
the event. -/
def FbState.pageFlip (s : FbState nc np) (r : DrmModeCrtcPageFlip) (event : Bool) :
    Option (FbCall nc np) × FbState nc np :=
  if r.flags &&& ~~~pageFlipFlags ≠ 0 || r.reserved ≠ 0 then (none, s)
  else
    match s.objectFind r.crtcId with
    | some (.crtc c) =>
      match (s.crtc c).fb with
      | none => (none, s)
      | some old =>
        if !(s.crtc c).hasPageFlip then (none, s)
        else
          match s.framebufferLookup r.fbId with
          | (none, s) => (none, s)
          | (some x, s) =>
            let crtc := s.crtc c
            let fits := viewportFits (s.fb x) crtc.hdisplay crtc.vdisplay crtc.x crtc.y
              crtc.invertDimensions
            let s := { s with crtcMutex := Function.update s.crtcMutex c true }
            if !fits || (s.fb old).pixelFormat ≠ (s.fb x).pixelFormat ||
                r.flags &&& pageFlipEvent ≠ 0 && !event then
              (some (.out [x] (some (.crtc c))), s)
            else (some (.pageFlip c x), s)
    | _ => (none, s)

/-! ### Files -/

/-- What `fb_create` gets: the address, and whether the idr finds memory for the id. -/
structure FbCreate where
  kzalloc : Option ℕ
  fb : DrmFramebuffer := {}
  alloc : Bool := true

namespace FbState

/-- drm_mode_addfb up to `fbs_lock`. -/
def addfb (s : FbState nc np) (file : ℕ) (o : FbCreate) : Option (FbCall nc np) × FbState nc np :=
  match o.kzalloc with
  | none => (none, s)
  | some x => (some (.addfb file x), s.framebufferInit x o.fb o.alloc)

/-- drm_mode_rmfb up to drm_framebuffer_remove. -/
def rmfb (s : FbState nc np) (file id : ℕ) (alloc : Bool) :
    Option (FbCall nc np) × FbState nc np :=
  match s.lookup id with
  | none => (none, s)
  | some x =>
    if x ∈ s.fbs file then
      (some (.remove x none),
        { s.unregister x alloc with fbs := Function.update s.fbs file ((s.fbs file).erase x) })
    else (none, s)

end FbState

/-! ### Runs -/

/-- What the driver returns, whether idr_remove finds memory, and what `set_config` does. -/
structure FbOutcome (nc : ℕ) where
  ret : ℤ := 0
  alloc : Bool := true
  config : SetConfig nc := {}
  configs : Fin nc → SetConfig nc := fun _ => {}

/-- One step of a call, and where it stands after it. A driver that flips a page has set `crtc->fb`
if it succeeds, and has left it if it fails. -/
def FbCall.step (s : FbState nc np) (o : FbOutcome nc) :
    FbCall nc np → Option (FbCall nc np) × FbState nc np
  | addfb file x => (none, { s with fbs := Function.update s.fbs file (x :: s.fbs file) })
  | remove x file =>
    (some (if s.refs.count x > 1 then removeActive x file else removeLast x file), s)
  | removeActive x file => (some (removeLast x file), (s.removeCrtcs x o.configs).removePlanes x)
  | removeLast x file => (file.map release, s.unreference x)
  | release file =>
    match s.fbs file with
    | [] => (none, { s with fbsLock := Function.update s.fbsLock file false })
    | x :: l =>
      (some (remove x (some file)),
        { s.unregister x o.alloc with fbs := Function.update s.fbs file l })
  | setcrtc x => (some (out x.toList (some .all)), s.setConfigInternal x o.config)
  | disablePlane p =>
    (some (out (s.plane p).fb.toList none),
      { s with plane := Function.update s.plane p { s.plane p with fb := none } })
  | updatePlane p x =>
    if o.ret = 0 then
      (some (out (s.plane p).fb.toList none),
        { s with plane := Function.update s.plane p { s.plane p with fb := some x } })
    else (some (out [x] none), s)
  | pageFlip c x =>
    if o.ret = 0 then
      (some (out (s.crtc c).fb.toList (some (.crtc c))),
        { s with crtc := Function.update s.crtc c { s.crtc c with fb := some x } })
    else (some (out [x] (some (.crtc c))), s)
  | out [] lock => (none, s.unlock lock)
  | out (x :: l) lock => (some (out l lock), s.unreference x)

/-- A call that would wait for a lock makes no step, and its file is open. -/
def FbCall.Enabled (s : FbState nc np) : FbCall nc np → Prop
  | addfb file _ => file ∈ s.files ∧ s.fbsLock file = false
  | release file => file ∈ s.files
  | removeActive _ _ | disablePlane _ | updatePlane _ _ => s.Unlocked
  | remove _ _ | removeLast _ _ | setcrtc _ | pageFlip _ _ | out _ _ => True

inductive FbAction (nc np : ℕ) where
  | open (file : ℕ)
  | addfb (file : ℕ) (o : FbCreate)
  | rmfb (file id : ℕ) (alloc : Bool)
  | release (file : ℕ)
  | setcrtc (r : DrmModeCrtc) (o : ModeCrtcOutcome)
  | setplane (r : DrmModeSetPlane)
  | pageFlip (r : DrmModeCrtcPageFlip) (event : Bool)
  | run (c : FbCall nc np) (o : FbOutcome nc)

/-- Calls are made on open files, wait for their locks, and get memory that is not in use. -/
def FbAction.Enabled (s : FbState nc np) : FbAction nc np → Prop
  | .open file => file ∉ s.files
  | addfb file o => file ∈ s.files ∧ ∀ x, o.kzalloc = some x → s.refs.alive x = false
  | rmfb file _ _ | release file => file ∈ s.files ∧ s.fbsLock file = false
  | setcrtc _ _ => s.Unlocked
  | setplane _ => True
  | pageFlip r _ => ∀ c, s.objectFind r.crtcId = some (.crtc c) → s.crtcMutex c = false
  | run c _ => c ∈ s.calls ∧ c.Enabled s

/-- A call has got so far. -/
def FbState.goOn (r : Option (FbCall nc np) × FbState nc np) : FbState nc np :=
  { r.2 with calls := r.1.toList ++ r.2.calls }

def FbAction.apply (s : FbState nc np) : FbAction nc np → FbState nc np
  | .open file =>
    { s with
      files := insert file s.files
      fbs := Function.update s.fbs file []
      fbsLock := Function.update s.fbsLock file false }
  | addfb file o => .goOn (s.addfb file o)
  | rmfb file id alloc => .goOn (s.rmfb file id alloc)
  | release file =>
    .goOn (some (.release file), { s with fbsLock := Function.update s.fbsLock file true })
  | setcrtc r o => .goOn (s.setcrtc r o)
  | setplane r => .goOn (s.setplane r)
  | pageFlip r event => .goOn (s.pageFlip r event)
  | run c o => .goOn (c.step { s with calls := s.calls.erase c } o)

/-- The driver has loaded and there is no framebuffer yet. -/
structure FbState.Loaded (s : FbState nc np) : Prop where
  refs : s.refs = {}
  crtc : ∀ c, (s.crtc c).fb = none
  plane : ∀ p, (s.plane p).fb = none
  idr : ∀ x, some (.fb x) ∉ idrPointers s.crtcIdr
  fbs : s.fbs = fun _ => []
  calls : s.calls = []
  bug : s.bug = false

end GfxDrm.Framebuffer
