import GfxDrm.I915.Bo
import GfxDrm.Lib.Run
import GfxDrm.Lib.Wheel

/-! The ring buffers of the i915 driver (intel_ringbuffer.c). The driver calls run one at a time
under `struct_mutex`, so a call is one step; where it waits, the GPU goes on. A ring buffer has at
most 2 MB, so no offset, size or difference of them overflows. -/

namespace GfxDrm.RingBuffer
open I915 (Seqno seqnoPassed)
open Errno Run

abbrev Dword := BitVec 32

def miNoop : Dword := 0
def headAddr : ℕ := 0x001FFFFC
def i915RingFreeSpace : ℕ := 64

/-- `last_retired_head` once its value is used, and the tail of a consumed request. -/
def taken : ℕ := 0xffffffff

/-- drm_i915_gem_request. -/
structure Request where
  seqno : Seqno
  tail : ℕ
  /-- The bytes written to the ring up to `tail`, which the driver does not keep. -/
  position : ℕ
  deriving DecidableEq, Repr

/-- intel_ring_buffer, with its registers. The last six fields are for the proofs. -/
structure IntelRingBuffer where
  head : ℕ
  tail : ℕ
  space : ℤ
  size : ℕ
  effectiveSize : ℕ
  lastRetiredHead : ℕ
  outstandingLazyRequest : Seqno
  requestList : List Request
  regHead : ℕ
  regTail : ℕ
  /-- The seqno on the status page. -/
  hwsSeqno : Seqno
  /-- Every dword written to the buffer so far, with its offset from `virtual_start`. -/
  written : List (ℕ × Dword)
  /-- How many of them the GPU has consumed. -/
  consumed : ℕ
  /-- Those that a later write hit before the GPU had consumed them. -/
  overwritten : List (ℕ × Dword)
  /-- The tail was moved onto the head with dwords left to consume. -/
  caught : Bool
  /-- The dwords still to be emitted after a successful intel_ring_begin. -/
  reserved : Option ℕ
  /-- `request_ring_position` of __i915_add_request, and the bytes written up to it. -/
  adding : Option (ℕ × ℕ)
  deriving DecidableEq

/-- What a wait for the GPU may end with; DRM_WAIT times out with `EBUSY`, not `-EBUSY`. -/
inductive Fault where
  | eio
  | eagain
  | enodev
  | ebusy
  | drmWaitBusy
  deriving DecidableEq

def Fault.errno : Fault → ℤ
  | .eio => eIo
  | .eagain => eAgain
  | .enodev => eNodev
  | .ebusy => eBusy
  | .drmWaitBusy => -eBusy

/-- What the head register and the status page show. -/
structure Progress where
  head : ℕ
  seqno : Seqno

/-- What the driver finds at the end of a wait. -/
structure Look extends Progress where
  fault : Option Fault := none

namespace IntelRingBuffer

def headOffset (r : IntelRingBuffer) : ℕ := r.regHead &&& headAddr

/-! ### The GPU -/

/-- The GPU signals the requests in order, and one only when its head has passed the tail. -/
structure Signalled (r : IntelRingBuffer) : Prop where
  inOrder : r.requestList.Pairwise fun q q' =>
    seqnoPassed r.hwsSeqno q'.seqno = true → seqnoPassed r.hwsSeqno q.seqno = true
  passed : ∀ q ∈ r.requestList, seqnoPassed r.hwsSeqno q.seqno = true →
    q.position ≤ 4 * r.consumed

instance (r : IntelRingBuffer) : Decidable r.Signalled :=
  decidable_of_iff _ ⟨fun h => ⟨h.1, h.2⟩, fun h => And.intro h.inOrder h.passed⟩

/-- The head moves forward, but not past the tail; anything else is no step of the GPU. -/
def gpu (r : IntelRingBuffer) (p : Progress) : Option IntelRingBuffer :=
  let moved := Wheel.ahead r.size r.headOffset (p.head &&& headAddr)
  let r' := { r with
    regHead := p.head, hwsSeqno := p.seqno, consumed := r.consumed + moved / 4 }
  if p.head &&& headAddr < r.size ∧ moved ≤ Wheel.ahead r.size r.headOffset r.regTail ∧
      r'.Signalled then some r' else none

/-! ### Writing -/

/-- Store `w` at `offset`. -/
def put (r : IntelRingBuffer) (offset : ℕ) (w : Dword) : IntelRingBuffer := { r with
  written := r.written ++ [(offset, w)]
  overwritten := r.overwritten ++
    (r.written.drop r.consumed).filter fun v => v.1 < offset + 4 ∧ offset < v.1 + 4 }

def moveTail (r : IntelRingBuffer) (tail : ℕ) : IntelRingBuffer := { r with
  tail := tail
  caught := r.caught ||
    decide (tail % r.size = r.headOffset ∧ r.consumed < r.written.length) }

def intelRingEmit (r : IntelRingBuffer) (data : Dword) : IntelRingBuffer :=
  (r.put r.tail data).moveTail (r.tail + 4)

/-- `while (rem--) *virt++ = MI_NOOP`. -/
def putNoops : ℕ → ℕ → IntelRingBuffer → IntelRingBuffer
  | 0, _, r => r
  | rem + 1, virt, r => putNoops rem (virt + 4) (r.put virt miNoop)

/-! ### Waiting for space -/

/-- The space between `tail` and what is to be kept free before `head`. -/
def spaceTo (size tail head : ℕ) : ℤ :=
  if (head : ℤ) - (tail + i915RingFreeSpace) < 0 then
    (head : ℤ) - (tail + i915RingFreeSpace) + size
  else (head : ℤ) - (tail + i915RingFreeSpace)

def ringSpace (r : IntelRingBuffer) : ℤ := spaceTo r.size r.tail (r.head &&& headAddr)

/-- The first loop of i915_gem_retire_requests_ring. -/
def retireUpTo (seqno : Seqno) (lastRetiredHead : ℕ) : List Request → ℕ × List Request
  | [] => (lastRetiredHead, [])
  | q :: l =>
    if seqnoPassed seqno q.seqno then retireUpTo seqno q.tail l else (lastRetiredHead, q :: l)

def i915GemRetireRequestsRing (r : IntelRingBuffer) : IntelRingBuffer := { r with
  lastRetiredHead := (retireUpTo r.hwsSeqno r.lastRetiredHead r.requestList).1
  requestList := (retireUpTo r.hwsSeqno r.lastRetiredHead r.requestList).2 }

/-- The seqno is that of a listed request, so i915_gem_check_olr has nothing to do. -/
def i915WaitSeqno (r : IntelRingBuffer) (look : Look) (seqno : Seqno) :
    Option (ℤ × IntelRingBuffer) :=
  (r.gpu look.toProgress).map fun r =>
    match look.fault with
    | some f => (f.errno, r)
    | none => (if seqnoPassed r.hwsSeqno seqno then 0 else Fault.ebusy.errno, r)

def intelRingWaitSeqno (r : IntelRingBuffer) (look : Look) (seqno : Seqno) :
    Option (ℤ × IntelRingBuffer) :=
  (r.i915WaitSeqno look seqno).map fun x =>
    if x.1 = 0 then (0, x.2.i915GemRetireRequestsRing) else x

def takeLastRetired (r : IntelRingBuffer) : IntelRingBuffer :=
  let r := { r with head := r.lastRetiredHead, lastRetiredHead := taken }
  { r with space := r.ringSpace }

/-- The loop over the requests: the seqno of the first one whose tail leaves `n` bytes, or 0, and
the list with those before it marked. -/
def consume (size tail : ℕ) (n : ℤ) : List Request → Seqno × List Request
  | [] => (0, [])
  | q :: l =>
    if q.tail = taken then ((consume size tail n l).1, q :: (consume size tail n l).2)
    else if n ≤ spaceTo size tail q.tail then (q.seqno, q :: l)
    else ((consume size tail n l).1, { q with tail := taken } :: (consume size tail n l).2)

/-- intel_ring_wait_request after its first look at `last_retired_head`. -/
def waitListed (r : IntelRingBuffer) (look : Look) (n : ℤ) : Option (ℤ × IntelRingBuffer) :=
  let found := consume r.size r.tail n r.requestList
  let r := { r with requestList := found.2 }
  if found.1 = 0 then some (eNospc, r)
  else
    (r.intelRingWaitSeqno look found.1).map fun x =>
      if x.1 ≠ 0 then x
      else if x.2.lastRetiredHead = taken then (eNospc, x.2)
      else if x.2.takeLastRetired.space < n then (eNospc, x.2.takeLastRetired)
      else (0, x.2.takeLastRetired)

def intelRingWaitRequest (r : IntelRingBuffer) (look : Look) (n : ℤ) :
    Option (ℤ × IntelRingBuffer) :=
  let r := r.i915GemRetireRequestsRing
  if r.lastRetiredHead ≠ taken then
    if n ≤ r.takeLastRetired.space then some (0, r.takeLastRetired)
    else r.takeLastRetired.waitListed look n
  else r.waitListed look n

def readHead (r : IntelRingBuffer) : IntelRingBuffer :=
  let r := { r with head := r.regHead }
  { r with space := r.ringSpace }

/-- The loop of ring_wait_for_space, which runs until there is space, the GPU is wedged or time is
up; it looks once at least. -/
def pollHead (n : ℤ) : Look → List Look → IntelRingBuffer → Option (ℤ × IntelRingBuffer)
  | look, looks, r => (r.gpu look.toProgress).bind fun r =>
    if n ≤ r.readHead.space then some (0, r.readHead)
    else match look.fault with
      | some f => some (f.errno, r.readHead)
      | none => match looks with
        | [] => some (eBusy, r.readHead)
        | look' :: looks => pollHead n look' looks r.readHead

/-- The looks at the GPU that one call of ring_wait_for_space takes. -/
structure Waiting where
  request : Look
  first : Look
  more : List Look

def ringWaitForSpace (r : IntelRingBuffer) (w : Waiting) (n : ℤ) : Option (ℤ × IntelRingBuffer) :=
  (r.intelRingWaitRequest w.request n).bind fun x =>
    if x.1 ≠ eNospc then some x else pollHead n w.first w.more x.2

/-- A caller that needs `n` bytes waits if there are fewer. -/
def ensureSpace (r : IntelRingBuffer) (w : Waiting) (n : ℤ) : Option (ℤ × IntelRingBuffer) :=
  if r.space < n then r.ringWaitForSpace w n else some (0, r)

def fillToEnd (r : IntelRingBuffer) : IntelRingBuffer :=
  let r := (putNoops ((r.size - r.tail) / 4) r.tail r).moveTail 0
  { r with space := r.ringSpace }

def intelWrapRingBuffer (r : IntelRingBuffer) (w : Waiting) : Option (ℤ × IntelRingBuffer) :=
  (r.ensureSpace w (r.size - r.tail : ℕ)).map fun x =>
    if x.1 ≠ 0 then x else (0, x.2.fillToEnd)

/-! ### intel_ring_begin -/

/-- `dev_priv->next_seqno`, and what comes of idling the rings when it has run through. -/
structure SeqnoOutcome where
  nextSeqno : Seqno
  idle : Look
  otherRings : Option Fault := none

/-- intel_ring_idle, of a ring with no lazy request. -/
def intelRingIdle (r : IntelRingBuffer) (look : Look) : Option (ℤ × IntelRingBuffer) :=
  match r.requestList.getLast? with
  | none => some (0, r)
  | some q => r.i915WaitSeqno look q.seqno

/-- i915_gem_init_seqno, seen from this ring. -/
def i915GemInitSeqno (r : IntelRingBuffer) (o : SeqnoOutcome) (seqno : Seqno) :
    Option (ℤ × IntelRingBuffer) :=
  (r.intelRingIdle o.idle).map fun x =>
    if x.1 ≠ 0 then x
    else match o.otherRings with
      | some f => (f.errno, x.2)
      | none => (0, { x.2.i915GemRetireRequestsRing with hwsSeqno := seqno })

/-- i915_gem_get_seqno: 0 is reserved for no seqno. -/
def i915GemGetSeqno (r : IntelRingBuffer) (o : SeqnoOutcome) :
    Option (ℤ × Seqno × IntelRingBuffer) :=
  if o.nextSeqno = 0 then (r.i915GemInitSeqno o 0).map fun x => (x.1, 1, x.2)
  else some (0, o.nextSeqno, r)

/-- A new seqno is not that of a request that is still listed. -/
def intelRingAllocSeqno (r : IntelRingBuffer) (o : SeqnoOutcome) : Option (ℤ × IntelRingBuffer) :=
  if r.outstandingLazyRequest ≠ 0 then some (0, r)
  else (r.i915GemGetSeqno o).bind fun x =>
    if x.1 ≠ 0 then some (x.1, x.2.2)
    else if ∀ q ∈ x.2.2.requestList, q.seqno ≠ x.2.1 then
      some (0, { x.2.2 with outstandingLazyRequest := x.2.1 })
    else none

structure BeginOutcome where
  wedged : Option Fault := none
  seqno : SeqnoOutcome
  wrap : Waiting
  space : Waiting

/-- __intel_ring_begin. -/
def ringBegin (r : IntelRingBuffer) (o : BeginOutcome) (bytes : ℕ) : Option (ℤ × IntelRingBuffer) :=
  (if r.effectiveSize < r.tail + bytes then r.intelWrapRingBuffer o.wrap else some (0, r)).bind
    fun x => if x.1 ≠ 0 then some x
      else (x.2.ensureSpace o.space bytes).map fun y =>
        if y.1 ≠ 0 then y else (0, { y.2 with space := y.2.space - bytes })

def intelRingBegin (r : IntelRingBuffer) (o : BeginOutcome) (numDwords : ℕ) :
    Option (ℤ × IntelRingBuffer) :=
  match o.wedged with
  | some f => some (f.errno, r)
  | none => (r.intelRingAllocSeqno o.seqno).bind fun x =>
    if x.1 ≠ 0 then some x else x.2.ringBegin o (numDwords * 4)

/-- A ring whose bit in `stop_rings` is set keeps the tail from the GPU. -/
def intelRingAdvance (r : IntelRingBuffer) (stopped : Bool) : IntelRingBuffer :=
  let r := r.moveTail (r.tail &&& (r.size - 1))
  if stopped then r else { r with regTail := r.tail }

/-- The end of __i915_add_request, when ring->add_request has emitted the breadcrumb. -/
def listRequest (r : IntelRingBuffer) (tail position : ℕ) : IntelRingBuffer := { r with
  requestList := r.requestList ++ [⟨r.outstandingLazyRequest, tail, position⟩]
  outstandingLazyRequest := 0
  adding := none }

end IntelRingBuffer

/-! ### Runs -/

inductive RingEvent where
  /-- intel_ring_begin; in __i915_add_request it is the one of ring->add_request. -/
  | begin (numDwords : ℕ) (addRequest : Bool) (o : IntelRingBuffer.BeginOutcome)
  | emit (data : Dword)
  | advance (stopped : Bool)
  | listRequest
  | retire
  | gpu (p : Progress)

/-- The caller emits what it has reserved before it advances, and the bytes it asks for fit an
int. -/
def IntelRingBuffer.step (r : IntelRingBuffer) : RingEvent → Option IntelRingBuffer
  | .begin n add o =>
    if r.reserved = none ∧ n * 4 < 2 ^ 31 then
      (IntelRingBuffer.intelRingBegin { r with adding := none } o n).map fun x =>
        if x.1 ≠ 0 then x.2
        else { x.2 with
          reserved := some n
          adding := if add then some (r.tail, 4 * r.written.length) else none }
    else none
  | .emit data => match r.reserved with
    | some (k + 1) => some { r.intelRingEmit data with reserved := some k }
    | _ => none
  | .advance stopped =>
    if r.reserved = some 0 then some { r.intelRingAdvance stopped with reserved := none } else none
  | .listRequest => match r.adding with
    | some (tail, position) =>
      if r.reserved = none ∧ r.outstandingLazyRequest ≠ 0 ∧
          (r.listRequest tail position).Signalled then some (r.listRequest tail position) else none
    | none => none
  | .retire => some r.i915GemRetireRequestsRing
  | .gpu p => r.gpu p

/-- A ring buffer is made of pages, of which the control register can count 512. -/
structure RingSize where
  pages : ℕ
  pos : 0 < pages
  le : pages ≤ 512

def RingSize.bytes (s : RingSize) : ℕ := 4096 * s.pages

/-- The ring that init_ring_common leaves; i830 and 845G keep the tail out of the last two
cachelines. -/
def initialRing (s : RingSize) (i830 : Bool) (seqno : Seqno) : IntelRingBuffer where
  head := 0
  tail := 0
  space := IntelRingBuffer.spaceTo s.bytes 0 0
  size := s.bytes
  effectiveSize := if i830 then s.bytes - 128 else s.bytes
  lastRetiredHead := taken
  outstandingLazyRequest := 0
  requestList := []
  regHead := 0
  regTail := 0
  hwsSeqno := seqno
  written := []
  consumed := 0
  overwritten := []
  caught := false
  reserved := none
  adding := none

def ringSystem (s : RingSize) (i830 : Bool) : System IntelRingBuffer RingEvent :=
  .ofStep (fun r => ∃ seqno, r = initialRing s i830 seqno) IntelRingBuffer.step

/-- Nothing is overwritten before the GPU has consumed it, every write is inside the buffer, the
space is never more than what is free without the gap, and the tail does not reach the head. -/
structure IntelRingBuffer.Safe (r : IntelRingBuffer) : Prop where
  kept : r.overwritten = []
  inside : ∀ w ∈ r.written, w.1 + 4 ≤ r.size
  space : r.space ≤ (r.size : ℤ) - 4 * (r.written.length - r.consumed) - 4 * r.reserved.getD 0 -
    i915RingFreeSpace
  apart : r.caught = false

end GfxDrm.RingBuffer
