import GfxDrm.Errno
import GfxDrm.Lib.Pool
import GfxDrm.Lib.Run
import Mathlib.Data.List.Range

/-! The vblank fields of one crtc and the functions of drm_irq.c that change them. The
hardware's frames are numbered without end; its counter shows them modulo a power of two. -/

namespace GfxDrm.Vblank

/-- What the driver fixes: `max_vblank_count`, and what `timeval_to_ns` makes of a timestamp
that was cleared. -/
structure VblankConfig where
  maxVblankCount : BitVec 32 := 0xffffff
  clearedTime : ℤ := -1000001000

namespace VblankConfig

def period (cfg : VblankConfig) : ℕ := cfg.maxVblankCount.toNat + 1

/-- `get_vblank_counter` in hardware frame `frame`. -/
def counter (cfg : VblankConfig) (frame : ℕ) : BitVec 32 := BitVec.ofNat 32 (frame % cfg.period)

end VblankConfig

/-- `time` are the two slots of `_vblank_time`, in nanoseconds. -/
structure Crtc where
  refcount : ℕ := 0
  enabled : Bool := false
  count : BitVec 32 := 0
  lastVblank : BitVec 32 := 0
  time : Bool → ℤ := fun _ => 0
  inmodeset : BitVec 32 := 0

def Crtc.stamp (c : Crtc) (count : BitVec 32) : ℤ := c.time (count.getLsbD 0)

def Crtc.setStamp (c : Crtc) (count : BitVec 32) (t : ℤ) : Crtc :=
  { c with time := fun slot => if slot = count.getLsbD 0 then t else c.time slot }

def redundantVblirqThreshNs : ℕ := 1000000

/-- One round of a loop that reads the counter, a timestamp and the counter again: the frames
that begin before the first read and between the two, the timestamp, and whether
`drm_get_last_vbltimestamp` calls it precise. -/
structure Reading where
  before : ℕ := 0
  between : ℕ := 0
  precise : Bool := false
  time : ℤ := 0
  deriving DecidableEq, Repr

/-- What such a loop leaves: the frame whose counter value it keeps, the frame it ends in. -/
structure Sampled where
  kept : ℕ
  frame : ℕ
  precise : Bool
  time : ℤ
  deriving DecidableEq, Repr

/-- The loop of vblank_disable_and_save, `left` rounds after this one at most. -/
def saveRounds (cfg : VblankConfig) : ℕ → ℕ → (ℕ → Reading) → Sampled
  | left, frame, r =>
    let kept := frame + (r 0).before
    let frame := kept + (r 0).between
    if cfg.counter kept = cfg.counter frame then ⟨kept, frame, (r 0).precise, (r 0).time⟩
    else
      match left with
      | 0 => ⟨kept, frame, false, (r 0).time⟩
      | left + 1 =>
        if (r 0).precise then saveRounds cfg left frame fun k => r (k + 1)
        else ⟨kept, frame, false, (r 0).time⟩

/-- `DRM_TIMESTAMP_MAXRETRIES` rounds. -/
def saveSample (cfg : VblankConfig) (frame : ℕ) (r : ℕ → Reading) : Sampled :=
  saveRounds cfg 2 frame r

def vblankDisableAndSave (cfg : VblankConfig) (c : Crtc) (s : Sampled) : Crtc :=
  { c with
    enabled := false
    lastVblank := cfg.counter s.kept
    count :=
      if s.precise ∧ 1000000 < (s.time - c.stamp c.count).natAbs then c.count + 1
      else c.count
    time := fun _ => cfg.clearedTime }

/-- The loop of drm_update_vblank_count; none while it still runs. -/
def updateRounds (cfg : VblankConfig) : ℕ → List Reading → Option Sampled
  | _, [] => none
  | frame, r :: rest =>
    let kept := frame + r.before
    let frame := kept + r.between
    if cfg.counter kept = cfg.counter frame then some ⟨kept, frame, r.precise, r.time⟩
    else updateRounds cfg frame rest

/-- The frames drm_update_vblank_count takes to have been missed. -/
def missedFrames (cfg : VblankConfig) (last cur : BitVec 32) : BitVec 32 :=
  let diff := cur - last
  if cur < last then diff + cfg.maxVblankCount else diff

def drmUpdateVblankCount (cfg : VblankConfig) (c : Crtc) (s : Sampled) : Crtc :=
  let diff := missedFrames cfg c.lastVblank (cfg.counter s.kept)
  let c := if s.precise then c.setStamp (c.count + diff) s.time else c
  { c with count := c.count + diff }

/-- drm_vblank_get: its result and where the hardware is then. `enable` is what
`enable_vblank` returns. -/
def drmVblankGet (cfg : VblankConfig) (c : Crtc) (frame : ℕ) (enable : ℤ) (r : List Reading) :
    Option (ℤ × Crtc × ℕ) :=
  if c.refcount + 1 = 1 then
    if c.enabled then some (0, { c with refcount := c.refcount + 1 }, frame)
    else if enable ≠ 0 then some (enable, c, frame)
    else (updateRounds cfg frame r).map fun s =>
      (0, drmUpdateVblankCount cfg { c with refcount := c.refcount + 1, enabled := true } s, s.frame)
  else if c.enabled then some (0, { c with refcount := c.refcount + 1 }, frame)
  else some (Errno.eInval, c, frame)

/-- drm_vblank_put up to the timer; none where it runs into `BUG_ON`. -/
def drmVblankPut (c : Crtc) : Option Crtc :=
  if c.refcount = 0 then none else some { c with refcount := c.refcount - 1 }

/-- vblank_disable_fn on one crtc. -/
def vblankDisableFn (cfg : VblankConfig) (c : Crtc) (s : Sampled) : Crtc :=
  if c.refcount = 0 ∧ c.enabled then vblankDisableAndSave cfg c s else c

/-- The part of drm_handle_vblank that counts, with the timestamp `t` of this vblank. -/
def drmHandleVblank (c : Crtc) (t : ℤ) : Crtc :=
  if c.enabled then
    if redundantVblirqThreshNs < (t - c.stamp c.count).natAbs then
      { c.setStamp (c.count + 1) t with count := c.count + 1 }
    else c
  else c

/-! Vblank and page flip events of a device (drm_irq.c, drm_fops.c, drm_crtc.c, and the page
flips of intel_display.c). A step of a running call is one locked section or one atomic access;
drm_handle_vblank is one step, as its two sections are under `vblank_time_lock`. -/

open Pool Run

/-! ### Requests of drm_wait_vblank -/

structure WaitRequest where
  type : BitVec 32
  sequence : BitVec 32
  deriving DecidableEq, Repr

namespace WaitRequest

def relative : BitVec 32 := 0x1
def highCrtcMask : BitVec 32 := 0x3e
def event : BitVec 32 := 0x4000000
def nextOnMiss : BitVec 32 := 0x10000000
def secondary : BitVec 32 := 0x20000000
def signal : BitVec 32 := 0x40000000
def typesMask : BitVec 32 := relative
def flagsMask : BitVec 32 := event ||| signal ||| secondary ||| nextOnMiss

def has (r : WaitRequest) (flag : BitVec 32) : Bool := r.type &&& flag != 0

def valid (r : WaitRequest) : Bool :=
  !r.has signal && !r.has (~~~(typesMask ||| flagsMask ||| highCrtcMask))

def crtc (r : WaitRequest) : ℕ :=
  if r.has highCrtcMask then ((r.type &&& highCrtcMask) >>> 1).toNat
  else if r.has secondary then 1 else 0

/-- The request once the count `seq` was read. -/
def settle (r : WaitRequest) (seq : BitVec 32) : WaitRequest :=
  if r.has relative then
    { type := r.type &&& ~~~relative, sequence := r.sequence + seq }
  else r

/-- The request of one who would rather wait than miss it. -/
def next (r : WaitRequest) (seq : BitVec 32) : WaitRequest :=
  if r.has nextOnMiss ∧ seq - r.sequence ≤ 1 <<< 23 then { r with sequence := seq + 1 } else r

end WaitRequest

/-! ### Events and calls -/

structure PendingEvent where
  id : ℕ
  file : ℕ
  pipe : ℕ
  sequence : BitVec 32
  deriving DecidableEq, Repr

/-- `sizeof e->event`, which is `event.base.length` of every event. -/
def eventLength : ℕ := 32

structure EventFile where
  opened : Bool := false
  eventSpace : ℤ := 4096
  eventList : List PendingEvent := []
  deriving DecidableEq, Repr

/-- The `intel_unpin_work` of a crtc. -/
structure UnpinWork where
  event : Option PendingEvent
  active : Bool := false
  deriving DecidableEq, Repr

/-- Where a running call stands. -/
inductive VblankCall
  /-- drm_wait_vblank: at drm_vblank_get, at the count, in DRM_WAIT_ON, at drm_vblank_put. -/
  | waitGet (file crtc : ℕ) (req : WaitRequest)
  | waitSeq (file crtc : ℕ) (req : WaitRequest)
  | blocked (file crtc : ℕ) (sequence : BitVec 32)
  | waitPut (file crtc : ℕ)
  /-- drm_queue_vblank_event: at kzalloc, at the event_lock section. -/
  | queueAlloc (file crtc : ℕ) (req : WaitRequest)
  | queueEvent (file crtc : ℕ) (req : WaitRequest)
  /-- A direct caller that holds a reference. -/
  | direct (crtc : ℕ)
  /-- drm_vblank_off, which holds vbl_lock: the interrupt is off, the events are next. -/
  | offDeliver (crtc : ℕ) (seq : BitVec 32)
  /-- drm_read: at drm_dequeue_event, at uiomove; `max` is what is left of the buffer. -/
  | read (file max total : ℕ)
  | copying (file max total : ℕ) (e : PendingEvent)
  /-- drm_mode_page_flip_ioctl with an event: at the debit, at kzalloc, at the credit. -/
  | flipReserve (file crtc : ℕ)
  | flipAlloc (file crtc : ℕ)
  | flipCredit (file : ℕ)
  /-- intel_crtc_page_flip: at drm_vblank_get, at the event_lock section, at `queue_flip`, at
  the event_lock section of `cleanup_pending`, at drm_vblank_put. -/
  | flipGet (file crtc : ℕ) (e : Option PendingEvent)
  | flipBusy (file crtc : ℕ) (e : Option PendingEvent)
  | flipQueue (file crtc : ℕ) (e : Option PendingEvent)
  | flipCleanup (file crtc : ℕ) (e : Option PendingEvent)
  | flipPut (file crtc : ℕ) (e : Option PendingEvent)
  deriving DecidableEq, Repr

/-- The file a call of a client is on. -/
def VblankCall.file : VblankCall → Option ℕ
  | waitGet f _ _ | waitSeq f _ _ | blocked f _ _ | waitPut f _ | queueAlloc f _ _
  | queueEvent f _ _ | read f _ _ | copying f _ _ _ | flipReserve f _ | flipAlloc f _ | flipCredit f
  | flipGet f _ _ | flipBusy f _ _ | flipQueue f _ _ | flipCleanup f _ _ | flipPut f _ _ => some f
  | direct _ | offDeliver _ _ => none

/-- The rest of a page flip that failed. -/
def VblankCall.flipFailed (file : ℕ) (e : Option PendingEvent) : Option VblankCall :=
  e.map fun _ => flipCredit file

structure VblankDriver extends VblankConfig where
  numCrtcs : ℕ
  irqEnabled : Bool := true

/-- `bug` is set when drm_vblank_put runs into its `BUG_ON`; `accepted`, `consumed` and `lost`
are the events that were taken on, read by the client, and dropped by a failed read. -/
structure VblankDevice where
  crtc : ℕ → Crtc := fun _ => {}
  frame : ℕ → ℕ := fun _ => 0
  disableAllowed : Bool := false
  vblLock : Bool := false
  vblankEventList : List PendingEvent := []
  unpinWork : ℕ → Option UnpinWork := fun _ => none
  file : ℕ → EventFile := fun _ => {}
  nextFile : ℕ := 0
  nextEvent : ℕ := 0
  calls : List VblankCall := []
  bug : Bool := false
  accepted : List PendingEvent := []
  consumed : List PendingEvent := []
  lost : List PendingEvent := []

namespace VblankDevice

def setCrtc (d : VblankDevice) (c : ℕ) (x : Crtc) : VblankDevice :=
  { d with crtc := Function.update d.crtc c x }

def setFile (d : VblankDevice) (f : ℕ) (g : EventFile → EventFile) : VblankDevice :=
  { d with file := Function.update d.file f (g (d.file f)) }

def setWork (d : VblankDevice) (c : ℕ) (w : Option UnpinWork) : VblankDevice :=
  { d with unpinWork := Function.update d.unpinWork c w }

def setCall (d : VblankDevice) (i : ℕ) (c : Option VblankCall) : VblankDevice :=
  { d with calls := moveOn d.calls i c }

def count (d : VblankDevice) (c : ℕ) : BitVec 32 := (d.crtc c).count

/-- drm_vblank_put. -/
def put (d : VblankDevice) (c : ℕ) : VblankDevice :=
  let x := drmVblankPut (d.crtc c)
  { d.setCrtc c (x.getD (d.crtc c)) with bug := d.bug || x.isNone }

/-- drm_vblank_get, with what it returns. -/
def get (drv : VblankDriver) (d : VblankDevice) (c : ℕ) (enable : ℤ) (r : List Reading) :
    Option (ℤ × VblankDevice) :=
  if d.vblLock then none
  else (drmVblankGet drv.toVblankConfig (d.crtc c) (d.frame c) enable r).map fun (ret, x, frame) =>
    (ret, { d.setCrtc c x with frame := Function.update d.frame c frame })

/-- `vblank_disable_and_save`. -/
def save (drv : VblankDriver) (d : VblankDevice) (c : ℕ) (r : ℕ → Reading) : VblankDevice :=
  let m := saveSample drv.toVblankConfig (d.frame c) r
  { d.setCrtc c (vblankDisableAndSave drv.toVblankConfig (d.crtc c) m) with
    frame := Function.update d.frame c m.frame }

/-- `send_vblank_event`. -/
def send (d : VblankDevice) (e : PendingEvent) (seq : BitVec 32) : VblankDevice :=
  d.setFile e.file fun f => { f with eventList := f.eventList ++ [{ e with sequence := seq }] }

/-- Takes an event off the list: the loop body of drm_events_release. -/
def remove (d : VblankDevice) (e : PendingEvent) : VblankDevice :=
  { d with vblankEventList := d.vblankEventList.erase e }.put e.pipe

/-- The loop body of delivery and of drm_vblank_off. -/
def deliver (d : VblankDevice) (seq : BitVec 32) (e : PendingEvent) : VblankDevice :=
  (d.remove e).send e seq

/-- The events of the list that `due` picks, in list order. -/
def deliverAll (d : VblankDevice) (seq : BitVec 32) (due : PendingEvent → Bool) : VblankDevice :=
  (d.vblankEventList.filter due).foldl (fun d e => d.deliver seq e) d

end VblankDevice

/-- drm_handle_vblank_events. -/
def drmHandleVblankEvents (d : VblankDevice) (c : ℕ) : VblankDevice :=
  let seq := d.count c
  d.deliverAll seq fun e => decide (e.pipe = c) && decide (seq - e.sequence ≤ 1 <<< 23)

/-- The test of `event_space`, which is converted to `size_t` for it. -/
def EventFile.full (p : EventFile) : Bool := 0 ≤ p.eventSpace && decide (p.eventSpace < eventLength)

/-- The count has reached the request. -/
def WaitRequest.due (r : WaitRequest) (seq : BitVec 32) : Bool := seq - r.sequence ≤ 1 <<< 23

/-- The event_lock section of drm_queue_vblank_event. -/
def queueVblankEvent (d : VblankDevice) (i f c : ℕ) (req : WaitRequest) : VblankDevice :=
  if (d.file f).full then d.setCall i (some (.waitPut f c))
  else
    let seq := d.count c
    let req := req.next seq
    let e : PendingEvent := ⟨d.nextEvent, f, c, req.sequence⟩
    let d := (d.setFile f fun p => { p with eventSpace := p.eventSpace - eventLength }).setCall i none
    let d := { d with nextEvent := d.nextEvent + 1, accepted := e :: d.accepted }
    if req.due seq then (d.put c).send e seq
    else { d with vblankEventList := d.vblankEventList ++ [e] }

/-- What a step takes from outside: whether memory is found, a copy or a flip goes through,
what `enable_vblank` returns and what the counter loops read. -/
structure Input where
  ok : Bool := true
  enable : ℤ := 0
  reads : List Reading := [{}]
  deriving DecidableEq, Repr

/-- The next step of running call number `i`. -/
def VblankCall.run (drv : VblankDriver) (d : VblankDevice) (i : ℕ) (x : Input) :
    VblankCall → Option VblankDevice
  | waitGet f c req =>
    (d.get drv c x.enable x.reads).map fun (ret, d) =>
      d.setCall i (if ret = 0 then some (waitSeq f c req) else none)
  | waitSeq f c req =>
    let seq := d.count c
    let settled := req.settle seq
    if req.has WaitRequest.event then some (d.setCall i (some (queueAlloc f c settled)))
    else some (d.setCall i (some (blocked f c (settled.next seq).sequence)))
  | blocked f c _ => some (d.setCall i (some (waitPut f c)))
  | waitPut _ c => some ((d.put c).setCall i none)
  | queueAlloc f c req =>
    some (d.setCall i (some (if x.ok then queueEvent f c req else waitPut f c)))
  | queueEvent f c req => some (queueVblankEvent d i f c req)
  | direct c => some ((d.put c).setCall i none)
  | offDeliver c seq =>
    let d := d.setCall i none
    some { d.deliverAll seq (fun e => decide (e.pipe = c)) with vblLock := false }
  | read f max total =>
    match (d.file f).eventList with
    | [] => some (d.setCall i none)
    | e :: rest =>
      if max < eventLength + total then some (d.setCall i none)
      else
        let d := d.setFile f fun p =>
          { p with eventSpace := p.eventSpace + eventLength, eventList := rest }
        some (d.setCall i (some (copying f max total e)))
  | copying f max total e =>
    if x.ok then
      some { d.setCall i (some (read f (max - eventLength) (total + eventLength))) with
        consumed := e :: d.consumed }
    else some { d.setCall i none with lost := e :: d.lost }
  | flipReserve f c =>
    if (d.file f).full then some (d.setCall i none)
    else
      let d := d.setFile f fun p => { p with eventSpace := p.eventSpace - eventLength }
      some (d.setCall i (some (flipAlloc f c)))
  | flipAlloc f c =>
    if x.ok then
      let e : PendingEvent := ⟨d.nextEvent, f, 0, 0⟩
      some ({ d with nextEvent := d.nextEvent + 1 }.setCall i (some (flipGet f c (some e))))
    else some (d.setCall i (some (flipCredit f)))
  | flipCredit f =>
    let d := d.setFile f fun p => { p with eventSpace := p.eventSpace + eventLength }
    some (d.setCall i none)
  | flipGet f c e =>
    -- not ok: another pixel format or pitch, or no memory for the work
    if x.ok then
      (d.get drv c x.enable x.reads).map fun (ret, d) =>
        d.setCall i (if ret = 0 then some (flipBusy f c e) else VblankCall.flipFailed f e)
    else some (d.setCall i (VblankCall.flipFailed f e))
  | flipBusy f c e =>
    if (d.unpinWork c).isSome then some (d.setCall i (some (flipPut f c e)))
    else some ((d.setWork c (some { event := e })).setCall i (some (flipQueue f c e)))
  | flipQueue f c e =>
    if x.ok then
      some { (d.setWork c ((d.unpinWork c).map fun w => { w with active := true })).setCall i none
        with accepted := e.toList ++ d.accepted }
    else some (d.setCall i (some (flipCleanup f c e)))
  | flipCleanup f c e => some ((d.setWork c none).setCall i (some (flipPut f c e)))
  | flipPut f c e => some ((d.put c).setCall i (VblankCall.flipFailed f e))

/-- do_intel_finish_page_flip, once the flip is complete. -/
def finishPageFlip (d : VblankDevice) (c : ℕ) : VblankDevice :=
  match d.unpinWork c with
  | some ⟨e, true⟩ =>
    let d := d.setWork c none
    let d := match e with
      | some e => d.send { e with pipe := c } (d.count c)
      | none => d
    d.put c
  | _ => d

def drmVblankPreModeset (drv : VblankDriver) (d : VblankDevice) (c : ℕ) (x : Input) :
    Option VblankDevice :=
  if (d.crtc c).inmodeset = 0 then
    let d := d.setCrtc c { d.crtc c with inmodeset := 1 }
    (d.get drv c x.enable x.reads).map fun (ret, d) =>
      if ret = 0 then d.setCrtc c { d.crtc c with inmodeset := (d.crtc c).inmodeset ||| 2 } else d
  else some d

def drmVblankPostModeset (d : VblankDevice) (c : ℕ) : Option VblankDevice :=
  if (d.crtc c).inmodeset ≠ 0 then
    if d.vblLock then none
    else
      let d := { d with disableAllowed := true }
      let d := if (d.crtc c).inmodeset &&& 2 ≠ 0 then d.put c else d
      some (d.setCrtc c { d.crtc c with inmodeset := 0 })
  else some d

/-- drm_events_release. -/
def drmEventsRelease (d : VblankDevice) (f : ℕ) : VblankDevice :=
  let d := (d.vblankEventList.filter fun e => e.file = f).foldl VblankDevice.remove d
  d.setFile f fun p => { p with opened := false, eventList := [] }

/-- `tick` is a new hardware frame, `finish` the end of a page flip. -/
inductive VblankEvent
  | openFile
  | close (file : ℕ)
  | wait (file : ℕ) (req : WaitRequest)
  | read (file max : ℕ)
  | flip (file crtc : ℕ) (event : Bool)
  | get (crtc : ℕ) (x : Input)
  | off (crtc : ℕ) (r : ℕ → Reading)
  | preModeset (crtc : ℕ) (x : Input)
  | postModeset (crtc : ℕ)
  | timer (crtc : ℕ) (r : ℕ → Reading)
  | irq (crtc : ℕ) (t : ℤ)
  | tick (crtc : ℕ)
  | finish (crtc : ℕ)
  | run (i : ℕ) (x : Input)

/-- A client's calls are on an open file, and its last close comes when no call runs on it any
more; modesets of a crtc are one after the other, as `mode_config.mutex` makes them. -/
def vblankStep (drv : VblankDriver) (d : VblankDevice) : VblankEvent → Option VblankDevice
  | .openFile =>
    some { d.setFile d.nextFile (fun _ => { opened := true }) with nextFile := d.nextFile + 1 }
  | .close f =>
    if (d.file f).opened ∧ ¬ d.calls.any fun c => c.file = some f then some (drmEventsRelease d f)
    else none
  | .wait f req =>
    if (d.file f).opened then
      if drv.irqEnabled ∧ req.valid ∧ req.crtc < drv.numCrtcs then
        some { d with calls := .waitGet f req.crtc req :: d.calls }
      else some d
    else none
  | .read f max =>
    if (d.file f).opened then some { d with calls := .read f max 0 :: d.calls } else none
  | .flip f c event =>
    if (d.file f).opened ∧ c < drv.numCrtcs then
      some { d with calls := (if event then .flipReserve f c else .flipGet f c none) :: d.calls }
    else none
  | .get c x =>
    if c < drv.numCrtcs then
      (d.get drv c x.enable x.reads).map fun (ret, d) =>
        if ret = 0 then { d with calls := .direct c :: d.calls } else d
    else none
  | .off c r =>
    if c < drv.numCrtcs ∧ ¬ d.vblLock then
      let d := d.save drv c r
      some { d with vblLock := true, calls := .offDeliver c (d.count c) :: d.calls }
    else none
  | .preModeset c x => if c < drv.numCrtcs then drmVblankPreModeset drv d c x else none
  | .postModeset c => if c < drv.numCrtcs then drmVblankPostModeset d c else none
  | .timer c r =>
    if d.vblLock then none
    else if d.disableAllowed ∧ (d.crtc c).refcount = 0 ∧ (d.crtc c).enabled then
      some (d.save drv c r)
    else some d
  | .irq c t =>
    if (d.crtc c).enabled then
      some (drmHandleVblankEvents (d.setCrtc c (drmHandleVblank (d.crtc c) t)) c)
    else some d
  | .tick c => some { d with frame := Function.update d.frame c (d.frame c + 1) }
  | .finish c => some (finishPageFlip d c)
  | .run i x => d.calls[i]?.bind fun c => c.run drv d i x

abbrev vblankSystem (drv : VblankDriver) : System VblankDevice VblankEvent :=
  System.ofStep (fun d => d = {}) (vblankStep drv)

end GfxDrm.Vblank
