import GfxDrm.Errno
import GfxDrm.Lib.Census
import GfxDrm.Lib.Kref
import GfxDrm.Lib.Run

/-! Page flips, and what else pins and unpins the objects that crtcs show (intel_display.c). -/

namespace GfxDrm.Flip
open Run Function

/-- What of a drm_framebuffer a flip looks at. -/
structure Framebuffer where
  obj : ℕ
  pixelFormat : ℕ := 0
  offset : ℕ := 0
  pitch : ℕ := 0
  deriving DecidableEq, Repr

def intelFlipPending : ℕ := 1
def intelFlipComplete : ℕ := 2

/-- struct intel_unpin_work; `event` is the file that is to get the event, and `seq` numbers the
works of the crtc. -/
structure UnpinWork (n : ℕ) where
  crtc : Fin n
  seq : ℕ
  event : Option ℕ
  oldFbObj : ℕ
  pendingFlipObj : ℕ
  pending : ℕ := 0
  deriving DecidableEq, Repr

/-- Where an intel_crtc_page_flip is: it has its vblank reference; it has found the crtc busy; the
crtc has its work; it has taken its references, under struct_mutex; queue_flip has failed; the
references are dropped again; the crtc has no work again. -/
inductive Stage where
  | got
  | busy
  | claimed
  | referenced
  | failed
  | cleaned
  | cleared
  deriving DecidableEq, Repr

/-- A page flip request with its crtc's mutex. -/
structure Request where
  stage : Stage := .got
  fb : Framebuffer
  oldFb : Framebuffer
  event : Option ℕ
  deriving DecidableEq, Repr

/-- What was done for a flip. -/
structure Tally where
  delivered : ℕ := 0
  vblankPuts : ℕ := 0
  unpins : ℕ := 0
  oldPuts : ℕ := 0
  newPuts : ℕ := 0
  deriving DecidableEq, Repr

structure FlipCrtc (n : ℕ) where
  fb : Option Framebuffer := none
  unpinWork : Option (UnpinWork n) := none
  unpinWorkCount : ℕ := 0
  /-- The vblank references of flips. -/
  vblankRefs : ℕ := 0
  request : Option Request := none
  nextSeq : ℕ := 0
  tally : ℕ → Tally := fun _ => {}

/-- `pins` and `refs` are the pins of objects for scanout and their references for flips; `queue`
are the works queued, `running` those past struct_mutex and `done` those that were run. -/
structure FlipState (n : ℕ) where
  gen : ℕ := 7
  crtcs : Fin n → FlipCrtc n := fun _ => {}
  pins : ℕ → ℕ := fun _ => 0
  refs : ℕ → ℕ := fun _ => 0
  /-- The request that holds struct_mutex, by its crtc. -/
  structMutex : Option (Fin n) := none
  queue : List (UnpinWork n) := []
  running : List (UnpinWork n) := []
  done : List (UnpinWork n) := []
  isOpen : ℕ → Bool := fun _ => true
  /-- The flips' events on the event lists of files. -/
  events : List ℕ := []
  /-- A request has failed, and the crtc's framebuffer is not what it was. -/
  fbLost : Bool := false
  /-- A count was decremented from zero. -/
  bug : Bool := false

namespace FlipState

variable {n : ℕ} (s : FlipState n) (c : Fin n)

def setCrtc (x : FlipCrtc n) : FlipState n := { s with crtcs := update s.crtcs c x }

def setStage (r : Request) (stage : Stage) : FlipState n :=
  s.setCrtc c { s.crtcs c with request := some { r with stage := stage } }

/-- intel_pin_and_fence_fb_obj, where it succeeds. -/
def intelPinAndFenceFbObj (o : ℕ) : FlipState n := { s with pins := update s.pins o (s.pins o + 1) }

/-- intel_unpin_fb_obj. -/
def intelUnpinFbObj (o : ℕ) : FlipState n :=
  { s with pins := update s.pins o (s.pins o - 1), bug := s.bug || decide (s.pins o = 0) }

/-- drm_gem_object_reference. -/
def drmGemObjectReference (o : ℕ) : FlipState n := { s with refs := update s.refs o (s.refs o + 1) }

/-- drm_gem_object_unreference. -/
def drmGemObjectUnreference (o : ℕ) : FlipState n :=
  { s with refs := update s.refs o (s.refs o - 1), bug := s.bug || decide (s.refs o = 0) }

/-- drm_vblank_put. -/
def drmVblankPut : FlipState n :=
  { s.setCrtc c { s.crtcs c with vblankRefs := (s.crtcs c).vblankRefs - 1 } with
    bug := s.bug || decide ((s.crtcs c).vblankRefs = 0) }

/-- Something is done for the flip of a work. -/
def count (w : UnpinWork n) (f : Tally → Tally) : FlipState n :=
  s.setCrtc w.crtc { s.crtcs w.crtc with
    tally := update (s.crtcs w.crtc).tally w.seq (f ((s.crtcs w.crtc).tally w.seq)) }

/-! ### Requests -/

/-- The start of intel_crtc_page_flip; `alloc` and `vblank` tell whether there is memory and
whether drm_vblank_get succeeds. -/
def intelCrtcPageFlip (fb : Framebuffer) (event : Option ℕ) (alloc vblank : Bool) : FlipState n :=
  match (s.crtcs c).fb with
  | none => s
  | some oldFb =>
    if fb.pixelFormat ≠ oldFb.pixelFormat then s
    else if 3 < s.gen ∧ (fb.offset ≠ oldFb.offset ∨ fb.pitch ≠ oldFb.pitch) then s
    else if !(alloc && vblank) then s
    else
      s.setCrtc c { s.crtcs c with
        vblankRefs := (s.crtcs c).vblankRefs + 1
        request := some { fb := fb, oldFb := oldFb, event := event } }

/-- What intel_pin_and_fence_fb_obj and intel_ring_begin return to queue_flip. -/
structure QueueFlipOutcome where
  pin : ℤ := 0
  ringBegin : ℤ := 0
  deriving DecidableEq, Repr

/-- queue_flip, as all generations have it; where there is none the pin fails. -/
def intelQueueFlip (obj : ℕ) (o : QueueFlipOutcome) : ℤ × FlipState n :=
  if o.pin ≠ 0 then (o.pin, s)
  else
    let s := s.intelPinAndFenceFbObj obj
    if o.ringBegin ≠ 0 then (o.ringBegin, s.intelUnpinFbObj obj)
    else
      -- intel_mark_page_flip_active
      (0, s.setCrtc c { s.crtcs c with
        unpinWork := (s.crtcs c).unpinWork.map fun w => { w with pending := intelFlipPending } })

/-- A request's next step, between the locks it takes. -/
def nextStep (o : QueueFlipOutcome) : FlipState n :=
  match (s.crtcs c).request with
  | none => s
  | some r =>
    match r.stage with
    | .got =>
      match (s.crtcs c).unpinWork with
      | some _ => s.setStage c r .busy
      | none =>
        s.setCrtc c { s.crtcs c with
          unpinWork := some
            { crtc := c
              seq := (s.crtcs c).nextSeq
              event := r.event
              oldFbObj := r.oldFb.obj
              pendingFlipObj := r.fb.obj }
          nextSeq := (s.crtcs c).nextSeq + 1
          request := some { r with stage := .claimed } }
    | .busy =>
      let s := s.drmVblankPut c
      { s.setCrtc c { s.crtcs c with request := none } with
        fbLost := s.fbLost || decide ((s.crtcs c).fb ≠ some r.oldFb) }
    | .claimed =>
      let s := (s.drmGemObjectReference r.oldFb.obj).drmGemObjectReference r.fb.obj
      { s.setCrtc c { s.crtcs c with
          fb := some r.fb
          unpinWorkCount := (s.crtcs c).unpinWorkCount + 1
          request := some { r with stage := .referenced } } with
        structMutex := some c }
    | .referenced =>
      let res := s.intelQueueFlip c r.fb.obj o
      if res.1 ≠ 0 then res.2.setStage c r .failed
      else
        { res.2.setCrtc c { res.2.crtcs c with request := none } with structMutex := none }
    | .failed =>
      let s := s.setCrtc c { s.crtcs c with
        fb := some r.oldFb
        unpinWorkCount := (s.crtcs c).unpinWorkCount - 1
        request := some { r with stage := .cleaned } }
      { (s.drmGemObjectUnreference r.oldFb.obj).drmGemObjectUnreference r.fb.obj with
        structMutex := none }
    | .cleaned =>
      s.setCrtc c { s.crtcs c with
        unpinWork := none
        request := some { r with stage := .cleared } }
    | .cleared =>
      let s := s.drmVblankPut c
      { s.setCrtc c { s.crtcs c with request := none } with
        fbLost := s.fbLost || decide ((s.crtcs c).fb ≠ some r.oldFb) }

/-! ### Interrupts and the work queue -/

/-- intel_prepare_page_flip. -/
def intelPreparePageFlip : FlipState n :=
  match (s.crtcs c).unpinWork with
  | none => s
  | some w =>
    if w.pending = 0 then s
    else s.setCrtc c { s.crtcs c with unpinWork := some { w with pending := w.pending + 1 } }

/-- do_intel_finish_page_flip. -/
def doIntelFinishPageFlip : FlipState n :=
  match (s.crtcs c).unpinWork with
  | none => s
  | some w =>
    if w.pending < intelFlipComplete then s
    else
      let s := s.setCrtc c { s.crtcs c with unpinWork := none }
      let s := { s with events := w.event.toList ++ s.events }
      let s := s.drmVblankPut c
      let s := s.count w fun t =>
        { t with
          delivered := t.delivered + w.event.toList.length, vblankPuts := t.vblankPuts + 1 }
      { s with queue := s.queue ++ [w] }

/-- intel_unpin_work_fn, under struct_mutex. -/
def intelUnpinWorkFn (w : UnpinWork n) : FlipState n :=
  let s := s.intelUnpinFbObj w.oldFbObj
  let s := s.drmGemObjectUnreference w.pendingFlipObj
  let s := s.drmGemObjectUnreference w.oldFbObj
  let s := s.count w fun t =>
    { t with unpins := t.unpins + 1, newPuts := t.newPuts + 1, oldPuts := t.oldPuts + 1 }
  { s with queue := s.queue.erase w, running := w :: s.running }

/-- The end of intel_unpin_work_fn. -/
def endUnpinWork (w : UnpinWork n) : FlipState n :=
  let x := s.crtcs w.crtc
  { s.setCrtc w.crtc { x with unpinWorkCount := x.unpinWorkCount - 1 } with
    bug := s.bug || decide (x.unpinWorkCount = 0)
    running := s.running.erase w
    done := w :: s.done }

/-! ### Mode sets -/

/-- What intel_pipe_set_base meets: whether the crtc has a plane, what pinning and update_plane
return. -/
structure SetBaseOutcome where
  plane : Bool := true
  pin : ℤ := 0
  updatePlane : ℤ := 0
  deriving DecidableEq, Repr

/-- intel_pipe_set_base. -/
def intelPipeSetBase (fb : Option Framebuffer) (o : SetBaseOutcome) : FlipState n :=
  match fb with
  | none => s
  | some fb =>
    if !o.plane then s
    else if o.pin ≠ 0 then s
    else
      let s := s.intelPinAndFenceFbObj fb.obj
      if o.updatePlane ≠ 0 then s.intelUnpinFbObj fb.obj
      else
        let oldFb := (s.crtcs c).fb
        let s := s.setCrtc c { s.crtcs c with fb := some fb }
        match oldFb with
        | none => s
        | some oldFb => s.intelUnpinFbObj oldFb.obj

/-- intel_crtc_disable. -/
def intelCrtcDisable : FlipState n :=
  match (s.crtcs c).fb with
  | none => s
  | some fb =>
    let s := s.intelUnpinFbObj fb.obj
    s.setCrtc c { s.crtcs c with fb := none }

/-- __intel_set_mode: some crtcs are disabled, and unless it fails before that the crtc gets a
base. -/
def intelSetMode (pipes : List (Fin n)) (base : Option (Option Framebuffer × SetBaseOutcome)) :
    FlipState n :=
  let s := pipes.foldl intelCrtcDisable s
  match base with
  | none => s
  | some (fb, o) => s.intelPipeSetBase c fb o

end FlipState

/-! ### Runs -/

inductive FlipAction (n : ℕ) where
  | pageFlip (c : Fin n) (fb : Framebuffer) (event : Option ℕ) (alloc vblank : Bool)
  | nextStep (c : Fin n) (o : FlipState.QueueFlipOutcome)
  | prepare (c : Fin n)
  | finish (c : Fin n)
  | unpinWork (w : UnpinWork n)
  | endUnpinWork (w : UnpinWork n)
  | setBase (c : Fin n) (fb : Option Framebuffer) (o : FlipState.SetBaseOutcome)
  | disable (c : Fin n)
  | setMode (c : Fin n) (pipes : List (Fin n))
      (base : Option (Option Framebuffer × FlipState.SetBaseOutcome))
  /-- A file is closed, with drm_events_release. -/
  | close (file : ℕ)

variable {n : ℕ} (s : FlipState n)

/-- Requests and mode sets hold the mutex of their crtc, and a file stays open while it makes a
request. -/
def FlipAction.Enabled : FlipAction n → Prop
  | .pageFlip c _ event _ _ =>
    (s.crtcs c).request = none ∧ ∀ file ∈ event, s.isOpen file = true
  | .nextStep c _ => ∃ r, (s.crtcs c).request = some r ∧ (r.stage = .claimed → s.structMutex = none)
  | .prepare _ | .finish _ => True
  | .unpinWork w => w ∈ s.queue ∧ s.structMutex = none
  | .endUnpinWork w => w ∈ s.running
  | .setBase c _ _ | .disable c => (s.crtcs c).request = none ∧ s.structMutex = none
  | .setMode _ _ _ => (∀ c, (s.crtcs c).request = none) ∧ s.structMutex = none
  | .close file => s.isOpen file = true ∧ ∀ c, ∀ r ∈ (s.crtcs c).request, r.event ≠ some file

def FlipAction.apply : FlipAction n → FlipState n
  | .pageFlip c fb event alloc vblank => s.intelCrtcPageFlip c fb event alloc vblank
  | .nextStep c o => s.nextStep c o
  | .prepare c => s.intelPreparePageFlip c
  | .finish c => s.doIntelFinishPageFlip c
  | .unpinWork w => s.intelUnpinWorkFn w
  | .endUnpinWork w => s.endUnpinWork w
  | .setBase c fb o => s.intelPipeSetBase c fb o
  | .disable c => s.intelCrtcDisable c
  | .setMode c pipes base => s.intelSetMode c pipes base
  | .close file =>
    { s with isOpen := update s.isOpen file false, events := s.events.filter (· ≠ file) }

/-- Nothing is shown, and no flip was requested. -/
def flipSystem (n : ℕ) : System (FlipState n) (FlipAction n) where
  init s := s = { gen := s.gen, isOpen := s.isOpen }
  step s a s' := a.Enabled s ∧ s' = a.apply s

/-! ### What is owed -/

/-- The crtc's work, if its flip was accepted. -/
def FlipCrtc.flying (x : FlipCrtc n) : Option (UnpinWork n) := x.unpinWork.filter fun w => w.pending ≠ 0

/-- How many crtcs show the object. -/
def FlipState.shown (o : ℕ) : ℕ :=
  census fun c => decide ((s.crtcs c).fb.map Framebuffer.obj = some o)

/-- How many flips accepted and not yet run have `p`. -/
def FlipState.flips (p : UnpinWork n → Bool) : ℕ :=
  (census fun c => (s.crtcs c).flying.any p) + s.queue.countP p

/-- An object has a pin for every crtc that shows it and for every flip from it that was not yet
run; none is taken back that was not there. -/
structure PinsOk : Prop where
  pins : s.structMutex = none →
    ∀ o, s.pins o = s.shown o + s.flips fun w => decide (w.oldFbObj = o)
  shown : ∀ c, s.structMutex ≠ some c → ∀ fb ∈ (s.crtcs c).fb, 0 < s.pins fb.obj
  flippedFrom : ∀ w, (∃ c, (s.crtcs c).flying = some w) ∨ w ∈ s.queue → 0 < s.pins w.oldFbObj
  bug : s.bug = false

/-- What is done for an accepted flip before its work is run, and after. -/
def finishedTally (w : UnpinWork n) : Tally := { delivered := w.event.toList.length, vblankPuts := 1 }

def runTally (w : UnpinWork n) : Tally :=
  { finishedTally w with unpins := 1, oldPuts := 1, newPuts := 1 }

def FlipState.tally (w : UnpinWork n) : Tally := (s.crtcs w.crtc).tally w.seq

/-- Everything is done just once for every accepted flip, events go to open files only, works are
counted, and failed requests leave nothing of pins, references and vblank references. -/
structure FlipsOk : Prop where
  flying : ∀ c, ∀ w ∈ (s.crtcs c).unpinWork, s.tally w = {}
  queued : ∀ w ∈ s.queue, s.tally w = finishedTally w
  run : ∀ w, w ∈ s.running ∨ w ∈ s.done → s.tally w = runTally w
  events : ∀ file ∈ s.events, s.isOpen file = true
  pins : PinsOk s
  vblank : ∀ c, (s.crtcs c).vblankRefs =
    (s.crtcs c).request.isSome.toNat + (s.crtcs c).flying.isSome.toNat
  refs : s.structMutex = none → ∀ o, s.refs o =
    (s.flips fun w => decide (w.oldFbObj = o)) + s.flips fun w => decide (w.pendingFlipObj = o)
  counts : ∀ c, s.structMutex ≠ some c → (s.crtcs c).unpinWorkCount =
    (s.crtcs c).flying.isSome.toNat + (s.queue ++ s.running).countP fun w => decide (w.crtc = c)
  kept : s.fbLost = false
  bug : s.bug = false

end GfxDrm.Flip
