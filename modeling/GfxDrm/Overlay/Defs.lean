import GfxDrm.Errno
import GfxDrm.Lib.Hoare
import GfxDrm.Lib.Run

/-! The video overlay: its requests, and what is left of them to the next one when they are
interrupted (intel_overlay.c). -/

namespace GfxDrm.Overlay
open Errno Run Function

/-- A tail callback. -/
inductive Tail where
  | releaseOldVid
  | off
  deriving DecidableEq, Repr

/-- What an outstanding request does: turn the overlay on, show a frame, wait for a flip before an
old frame is released, turn the overlay off. -/
inductive FlipReq where
  | turnOn
  | flip
  | release
  | turnOff
  deriving DecidableEq, Repr

/-- The callback that a request leaves to whoever waits for it. -/
def FlipReq.tail : FlipReq → Option Tail
  | .turnOn | .flip => none
  | .release => some .releaseOldVid
  | .turnOff => some .off

/-- The request that intel_overlay_do_wait_request submits for a callback. -/
def FlipReq.ofTail : Option Tail → FlipReq
  | none => .turnOn
  | some .releaseOldVid => .release
  | some .off => .turnOff

/-- intel_overlay, with crtcs and buffers as numbers. -/
structure IntelOverlay where
  crtc : Option ℕ := none
  vidBo : Option ℕ := none
  oldVidBo : Option ℕ := none
  active : Bool := false
  /-- `none` is 0. -/
  lastFlipReq : Option FlipReq := none
  flipTail : Option Tail := none
  /-- `crtc->overlay` is set. -/
  crtcOverlay : ℕ → Bool := fun _ => false
  /-- The pins and references that the overlay's requests have taken and not given back. -/
  pins : ℕ → ℤ := fun _ => 0
  refs : ℕ → ℤ := fun _ => 0
  /-- A BUG_ON was met or NULL followed. -/
  bug : Bool := false
  /-- The recovery path has run a callback that is not the outstanding request's. -/
  stray : Bool := false

abbrev OverlayM := StateM IntelOverlay

/-- What intel_ring_begin, i915_add_request and i915_wait_seqno return. -/
structure RequestOutcome where
  ring : ℤ := 0
  add : ℤ := 0
  wait : ℤ := 0
  deriving DecidableEq, Repr

def RequestOutcome.Ok (o : RequestOutcome) : Prop := o.ring = 0 ∧ o.add = 0 ∧ o.wait = 0

def bugOn (cond : IntelOverlay → Bool) : OverlayM PUnit :=
  modify fun s => { s with bug := s.bug || cond s }

def IntelOverlay.unpin (s : IntelOverlay) (b : ℕ) : IntelOverlay :=
  { s with pins := update s.pins b (s.pins b - 1) }

def IntelOverlay.unreference (s : IntelOverlay) (b : ℕ) : IntelOverlay :=
  { s with refs := update s.refs b (s.refs b - 1) }

def releaseOldVidTail : OverlayM PUnit :=
  modify fun s =>
    match s.oldVidBo with
    | some b => { (s.unpin b).unreference b with oldVidBo := none }
    | none => { s with bug := true }

def offTail : OverlayM PUnit :=
  modify fun s =>
    match s.vidBo, s.crtc with
    | some b, some c =>
      { (s.unpin b).unreference b with
        vidBo := none
        crtcOverlay := update s.crtcOverlay c false
        crtc := none
        active := false }
    | _, _ => { s with bug := true }

def Tail.run : Tail → OverlayM PUnit
  | .releaseOldVid => releaseOldVidTail
  | .off => offTail

/-- intel_overlay_do_wait_request, once there is room in the ring. -/
def doWaitRequest (tail : Option Tail) (o : RequestOutcome) : OverlayM ℤ := do
  bugOn fun s => s.lastFlipReq.isSome
  if o.add ≠ 0 then return o.add
  modify fun s => { s with lastFlipReq := some (.ofTail tail) }
  modify fun s => { s with flipTail := tail }
  if o.wait ≠ 0 then return o.wait
  modify fun s => { s with lastFlipReq := none }
  return 0

/-- intel_overlay_on. -/
def overlayOn (o : RequestOutcome) : OverlayM ℤ := do
  bugOn fun s => s.active
  modify fun s => { s with active := true }
  if o.ring ≠ 0 then return o.ring
  doWaitRequest none o

/-- intel_overlay_continue; `o.wait` is not used. -/
def overlayContinue (o : RequestOutcome) : OverlayM ℤ := do
  bugOn fun s => !s.active
  if o.ring ≠ 0 then return o.ring
  if o.add ≠ 0 then return o.add
  modify fun s => { s with lastFlipReq := some .flip }
  return 0

/-- intel_overlay_off. -/
def overlayOff (o : RequestOutcome) : OverlayM ℤ := do
  bugOn fun s => !s.active
  if o.ring ≠ 0 then return o.ring
  doWaitRequest (some .off) o

/-- intel_overlay_recover_from_interrupt; `wait` is what i915_wait_seqno returns. -/
def recoverFromInterrupt (wait : ℤ) : OverlayM ℤ := do
  match (← get).lastFlipReq with
  | none => return 0
  | some req =>
    if wait ≠ 0 then return wait
    match (← get).flipTail with
    | some tail =>
      modify fun s => { s with stray := s.stray || decide (req.tail ≠ some tail) }
      tail.run
    | none => modify fun s => { s with stray := s.stray || req.tail.isSome }
    modify fun s => { s with lastFlipReq := none }
    return 0

/-- intel_overlay_release_old_vid; `pending` is whether ISR shows the flip pending. -/
def releaseOldVid (pending : Bool) (o : RequestOutcome) : OverlayM ℤ := do
  if (← get).oldVidBo.isNone then return 0
  if pending then
    if o.ring ≠ 0 then return o.ring
    let ret ← doWaitRequest (some .releaseOldVid) o
    if ret ≠ 0 then return ret
  releaseOldVidTail
  return 0

/-- What a switch-off finds on its way. -/
structure SwitchOffOutcome where
  recover : ℤ := 0
  pending : Bool := false
  release : RequestOutcome := {}
  off : RequestOutcome := {}
  deriving DecidableEq, Repr

/-- intel_overlay_switch_off from where nothing is outstanding any more. -/
def stopOverlay (o : SwitchOffOutcome) : OverlayM ℤ := do
  if (← get).active = false then return 0
  let ret ← releaseOldVid o.pending o.release
  if ret ≠ 0 then return ret
  let ret ← overlayOff o.off
  if ret ≠ 0 then return ret
  offTail
  return 0

/-- intel_overlay_switch_off. -/
def switchOff (o : SwitchOffOutcome) : OverlayM ℤ := do
  let ret ← recoverFromInterrupt o.recover
  if ret ≠ 0 then return ret
  stopOverlay o

/-- What a put-image finds on its way: what it returns where crtc or buffer are not found, whether the
buffer is tiled, what check_overlay_possible_on_crtc and the checks of the picture return, and what
the calls of intel_overlay_do_put_image return. -/
structure PutImageOutcome where
  lookup : ℤ := 0
  tiled : Bool := false
  recover : ℤ := 0
  switchOff : SwitchOffOutcome := {}
  possible : ℤ := 0
  check : ℤ := 0
  pending : Bool := false
  release : RequestOutcome := {}
  pin : ℤ := 0
  fence : ℤ := 0
  turnOn : RequestOutcome := {}
  flip : RequestOutcome := {}
  deriving DecidableEq, Repr

/-- intel_overlay_do_put_image from i915_gem_object_put_fence to intel_overlay_continue. -/
def showImage (o : PutImageOutcome) : OverlayM ℤ := do
  if o.fence ≠ 0 then return o.fence
  if (← get).active = false then
    let ret ← overlayOn o.turnOn
    if ret ≠ 0 then return ret
  overlayContinue o.flip

/-- intel_overlay_do_put_image from i915_gem_object_pin_to_display_plane on. -/
def pinImage (newBo : ℕ) (o : PutImageOutcome) : OverlayM ℤ := do
  if o.pin ≠ 0 then return o.pin
  modify fun s => { s with pins := update s.pins newBo (s.pins newBo + 1) }
  let ret ← showImage o
  if ret ≠ 0 then
    modify fun s => s.unpin newBo
    return ret
  modify fun s => { s with oldVidBo := s.vidBo, vidBo := some newBo }
  return 0

/-- intel_overlay_do_put_image. -/
def doPutImage (newBo : ℕ) (o : PutImageOutcome) : OverlayM ℤ := do
  let ret ← releaseOldVid o.pending o.release
  if ret ≠ 0 then return ret
  pinImage newBo o

/-- intel_overlay_put_image where it finds the overlay on another crtc. -/
def moveToCrtc (crtc : ℕ) (o : PutImageOutcome) : OverlayM ℤ := do
  let ret ← switchOff o.switchOff
  if ret ≠ 0 then return ret
  if o.possible ≠ 0 then return o.possible
  modify fun s => { s with crtc := some crtc, crtcOverlay := update s.crtcOverlay crtc true }
  return 0

/-- intel_overlay_put_image from its choice of the crtc on. -/
def placeImage (crtc newBo : ℕ) (o : PutImageOutcome) : OverlayM ℤ := do
  let s ← get
  let ret ← if s.crtc ≠ some crtc then moveToCrtc crtc o else pure 0
  if ret ≠ 0 then return ret
  if o.check ≠ 0 then return o.check
  doPutImage newBo o

/-- intel_overlay_put_image between its locks. -/
def putImageLocked (crtc newBo : ℕ) (o : PutImageOutcome) : OverlayM ℤ := do
  if o.tiled then return eInval
  let ret ← recoverFromInterrupt o.recover
  if ret ≠ 0 then return ret
  placeImage crtc newBo o

/-- intel_overlay_put_image with I915_OVERLAY_ENABLE. -/
def putImage (crtc newBo : ℕ) (o : PutImageOutcome) : OverlayM ℤ := do
  if o.lookup ≠ 0 then return o.lookup
  modify fun s => { s with refs := update s.refs newBo (s.refs newBo + 1) }
  let ret ← putImageLocked crtc newBo o
  if ret ≠ 0 then modify fun s => s.unreference newBo
  return ret

/-! ### Runs -/

inductive OverlayAction where
  | putImage (crtc newBo : ℕ) (o : PutImageOutcome)
  | switchOff (o : SwitchOffOutcome)
  /-- intel_crtc_dpms_overlay, where a crtc goes off. -/
  | dpmsOff (crtc : ℕ) (o : SwitchOffOutcome)
  deriving DecidableEq, Repr

def OverlayAction.apply (s : IntelOverlay) : OverlayAction → IntelOverlay
  | .putImage crtc newBo o => (Overlay.putImage crtc newBo o s).2
  | .switchOff o => (Overlay.switchOff o s).2
  | .dpmsOff crtc o => if s.crtcOverlay crtc = true then (Overlay.switchOff o s).2 else s

/-- An overlay after intel_setup_overlay. -/
def overlaySystem : System IntelOverlay OverlayAction where
  init s := s = {}
  step s a s' := s' = a.apply s

/-- How often the overlay holds a buffer. -/
def IntelOverlay.own (s : IntelOverlay) (b : ℕ) : ℤ :=
  (if s.vidBo = some b then 1 else 0) + if s.oldVidBo = some b then 1 else 0

/-- The overlay is on with a frame only, or with its turn-on still to be waited for; every pin and
reference is of a buffer it holds, and none is left when it is off; no BUG_ON is met and no callback
run for a request that is not its own. -/
structure OverlayOk (s : IntelOverlay) : Prop where
  shows : s.active = true → s.vidBo ≠ none ∨ s.lastFlipReq = some .turnOn
  pins : ∀ b, s.pins b = s.own b
  refs : ∀ b, s.refs b = s.own b
  released : s.active = false → ∀ b, s.pins b = 0 ∧ s.refs b = 0
  bug : s.bug = false
  stray : s.stray = false

/-! ### Requests that keep it so -/

/-- The overlay when its outstanding request is done. -/
def IntelOverlay.done (s : IntelOverlay) : IntelOverlay :=
  match s.lastFlipReq with
  | some .turnOff => { s with active := false, vidBo := none, crtc := none, lastFlipReq := none }
  | some .release => { s with oldVidBo := none, lastFlipReq := none }
  | some .turnOn | some .flip | none => { s with lastFlipReq := none }

/-- An old frame can be released. -/
def IntelOverlay.CanRelease (s : IntelOverlay) (pending : Bool) (o : RequestOutcome) : Prop :=
  s.oldVidBo = none ∨ pending = false ∨ o.Ok

/-- A put-image gets as far as to turn the overlay on or to flip it. -/
@[mk_iff] structure PutImageOutcome.Arrives (s : IntelOverlay) (crtc : ℕ) (o : PutImageOutcome) : Prop where
  moved : s.crtc ≠ some crtc →
    (s.active = true → s.CanRelease o.switchOff.pending o.switchOff.release ∧ o.switchOff.off.Ok) ∧
      o.possible = 0
  stayed : s.crtc = some crtc → s.CanRelease o.pending o.release
  check : o.check = 0
  pin : o.pin = 0
  fence : o.fence = 0

/-- The flip is submitted. -/
def PutImageOutcome.Flips (o : PutImageOutcome) : Prop := o.flip.ring = 0 ∧ o.flip.add = 0

/-- A put-image that finds the overlay turned on without a frame shows its own, one that turns it on
submits its request for that and shows its frame unless the wait fails, and no frame is flipped
while a callback is left in `flip_tail`. -/
structure PutImageOutcome.Clean (s : IntelOverlay) (crtc : ℕ) (o : PutImageOutcome) : Prop where
  first : s.active = true → s.vidBo = none →
    s.crtc = some crtc ∧ o.check = 0 ∧ o.pin = 0 ∧ o.fence = 0 ∧ o.Flips
  turnOn : o.Arrives s crtc → s.active = false ∨ s.crtc ≠ some crtc →
    o.turnOn.ring = 0 ∧ o.turnOn.add = 0 ∧ (o.turnOn.wait = 0 → o.Flips)
  flip : o.Arrives s crtc → s.active = true → s.crtc = some crtc → o.Flips →
    s.flipTail = none ∧ (s.oldVidBo = none ∨ o.pending = false)

/-- A switch-off finds the overlay off or with a frame. -/
def SwitchOffOutcome.Clean (s : IntelOverlay) : Prop :=
  s.active = true → s.vidBo ≠ none

/-- A request that waits for the outstanding one, if there is one, keeps to the rules. -/
def OverlayAction.Clean (s : IntelOverlay) : OverlayAction → Prop
  | .putImage crtc _ o => o.lookup = 0 → o.tiled = false →
      s.lastFlipReq = none ∨ o.recover = 0 → o.Clean s.done crtc
  | .switchOff o => s.lastFlipReq = none ∨ o.recover = 0 → SwitchOffOutcome.Clean s.done
  | .dpmsOff crtc o => s.crtcOverlay crtc = true → s.lastFlipReq = none ∨ o.recover = 0 →
      SwitchOffOutcome.Clean s.done

end GfxDrm.Overlay
