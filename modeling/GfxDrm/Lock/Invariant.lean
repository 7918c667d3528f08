import GfxDrm.Errno
import GfxDrm.Lib.Pool
import GfxDrm.Lib.Run

/-! The hardware lock of a master (drm_lock.c). A thread's step is one access to the lock word,
which user space changes too, or what it does under `lock_mutex` between two of them. -/

namespace GfxDrm.Lock
open Pool Run

/-! ### The lock word -/

abbrev LockWord := BitVec 32

def lockHeld : LockWord := 0x80000000
def lockCont : LockWord := 0x40000000
def kernelContext : LockWord := 0

def isHeld (w : LockWord) : Bool := w &&& lockHeld != 0
def isCont (w : LockWord) : Bool := w &&& lockCont != 0
def lockingContext (w : LockWord) : LockWord := w &&& ~~~(lockHeld ||| lockCont)

theorem lockHeld_eq : lockHeld = BitVec.twoPow 32 31 := rfl
theorem lockCont_eq : lockCont = BitVec.twoPow 32 30 := rfl

theorem isHeld_eq (w : LockWord) : isHeld w = w[31] := by
  rw [isHeld, lockHeld_eq, BitVec.and_twoPow]
  simp only [BitVec.getLsbD_eq_getElem (show 31 < 32 by omega)]
  cases w[31] <;> rfl

theorem isCont_eq (w : LockWord) : isCont w = w[30] := by
  rw [isCont, lockCont_eq, BitVec.and_twoPow]
  simp only [BitVec.getLsbD_eq_getElem (show 30 < 32 by omega)]
  cases w[30] <;> rfl

theorem getElem_lockingContext (w : LockWord) (i : ℕ) (hi : i < 32) :
    (lockingContext w)[i] = (w[i] && decide (i ≠ 31) && decide (i ≠ 30)) := by
  by_cases h31 : i = 31 <;> by_cases h30 : i = 30 <;>
    simp [lockingContext, lockHeld_eq, lockCont_eq, h31]

@[simp] theorem isHeld_lockingContext (w : LockWord) : isHeld (lockingContext w) = false := by
  simp [isHeld_eq, getElem_lockingContext]

@[simp] theorem isHeld_or_lockHeld (w : LockWord) : isHeld (w ||| lockHeld) = true := by
  simp [isHeld_eq, lockHeld_eq]

@[simp] theorem isHeld_or_lockCont (w : LockWord) : isHeld (w ||| lockCont) = isHeld w := by
  simp [isHeld_eq, lockCont_eq]

@[simp] theorem isCont_or_lockCont (w : LockWord) : isCont (w ||| lockCont) = true := by
  simp [isCont_eq, lockCont_eq]

@[simp] theorem isCont_or_lockHeld (w : LockWord) : isCont (w ||| lockHeld) = isCont w := by
  simp [isCont_eq, lockHeld_eq]

@[simp] theorem isCont_lockingContext (w : LockWord) : isCont (lockingContext w) = false := by
  simp [isCont_eq, getElem_lockingContext]

@[simp] theorem lockingContext_or_lockHeld (w : LockWord) :
    lockingContext (w ||| lockHeld) = lockingContext w := by
  apply BitVec.eq_of_getElem_eq
  intro i hi
  by_cases h : i = 31 <;> simp [getElem_lockingContext, lockHeld_eq, h]

@[simp] theorem lockingContext_or_lockCont (w : LockWord) :
    lockingContext (w ||| lockCont) = lockingContext w := by
  apply BitVec.eq_of_getElem_eq
  intro i hi
  by_cases h : i = 30 <;> simp [getElem_lockingContext, lockCont_eq, h]

structure LockData where
  word : LockWord := 0
  filePriv : Option ℕ := none
  kernelWaiters : BitVec 32 := 0
  userWaiters : BitVec 32 := 0
  idleHasLock : Bool := false
  deriving DecidableEq, Repr

/-- What `drm_lock_take` writes over `old`. -/
def takeWord (l : LockData) (context old : LockWord) : LockWord :=
  if isHeld old then old ||| lockCont
  else context ||| lockHeld ||| (if 1 < l.userWaiters + l.kernelWaiters then lockCont else 0)

/-- What `drm_lock_take` returns, having written `new` over `old`. -/
def tookLock (context old new : LockWord) : Bool :=
  if lockingContext old = context ∧ isHeld old then false
  else decide (lockingContext new = context) && isHeld new

/-! ### Running calls -/

/-- A call of drm_lock; `ret` is its variable, `marked` tells that its compare-and-swap is the
one that set the held bit. -/
structure LockCall where
  id : ℕ
  file : ℕ
  context : LockWord
  quiescent : Bool
  ret : ℤ := 0
  marked : Bool := false
  deriving DecidableEq, Repr

/-- The compare-and-swap loops. -/
inductive CasLoop
  /-- drm_lock_take in drm_lock. -/
  | lock (c : LockCall)
  /-- drm_lock_take in drm_idlelock_take. -/
  | idleTake
  /-- drm_lock_transfer in drm_lock_free. -/
  | transfer
  | free (context : LockWord)
  | idleRelease
  deriving DecidableEq, Repr

def CasLoop.newWord (l : LockData) (old : LockWord) : CasLoop → LockWord
  | lock c => takeWord l c.context old
  | idleTake => takeWord l kernelContext old
  | transfer => kernelContext ||| lockHeld
  | free _ => lockingContext old
  | idleRelease => kernelContext

/-- Where a thread stands. -/
inductive Position
  /-- The four at `mutex_enter`. -/
  | lockEnter (c : LockCall)
  | freeEnter (context : LockWord)
  | idleTakeEnter
  | idleReleaseEnter
  /-- At the read that starts a round of a loop, and at its compare-and-swap. -/
  | read (l : CasLoop)
  | cas (l : CasLoop) (old : LockWord)
  /-- The lock word is free, `cv_broadcast` is next. -/
  | freeBroadcast
  | idleBroadcast
  /-- In `cv_wait_sig`; woken up, it returns `r` once it has the mutex again. -/
  | sleeping (c : LockCall)
  | woken (c : LockCall) (r : ℕ)
  /-- Out of the loop of drm_lock. -/
  | leaving (c : LockCall)
  | quiescing (c : LockCall)
  deriving DecidableEq, Repr

namespace Position

/-- Holds `lock_mutex`. -/
def inside : Position → Bool
  | read _ | cas _ _ | freeBroadcast | idleBroadcast | leaving _ => true
  | _ => false

/-- Counted in `user_waiters`. -/
def waiting : Position → Bool
  | read (.lock _) | cas (.lock _) _ | sleeping _ | woken _ _ | leaving _ => true
  | _ => false

def asleep : Position → Bool
  | sleeping _ => true
  | _ => false

def broadcasting : Position → Bool
  | freeBroadcast | idleBroadcast => true
  | _ => false

def call : Position → Option LockCall
  | lockEnter c | read (.lock c) | cas (.lock c) _ | sleeping c | woken c _ | leaving c
  | quiescing c => some c
  | _ => none

/-- What `cv_broadcast` does to a thread. -/
def wakeup : Position → Position
  | sleeping c => woken c 1
  | p => p

end Position

/-- A call of drm_lock that is over: whether it had set the held bit, whether the lock was
held through it when it returned, and whether the word then named its context. -/
structure LockReturn where
  ret : ℤ
  marked : Bool
  holding : Bool
  named : Bool
  deriving DecidableEq, Repr

/-- What the driver and the master are: the lock is mapped, the driver has DRIVER_DMA_QUEUE,
it has a `dma_quiescent`. -/
structure LockConfig where
  hwLock : Bool := true
  dmaQueue : Bool := false
  dmaQuiescent : Bool := false

/-- `holder` is the call of drm_lock the lock is held through. -/
structure LockState where
  data : LockData := {}
  mutex : Bool := false
  calls : List Position := []
  nextCall : ℕ := 0
  holder : Option ℕ := none
  returns : List LockReturn := []
  deriving DecidableEq, Repr

namespace LockState

def setCall (s : LockState) (i : ℕ) (p : Option Position) : LockState :=
  { s with calls := moveOn s.calls i p }

/-- Writes the lock word for `call`, which is nobody's when it does not ask for the lock. -/
def setWord (s : LockState) (new : LockWord) (call : Option ℕ) : LockState :=
  { s with
    data := { s.data with word := new }
    holder :=
      if ¬ isHeld new then none
      else if isHeld s.data.word ∧ lockingContext s.data.word = lockingContext new then s.holder
      else call }

def enter (s : LockState) : LockState := { s with mutex := true }
def exit (s : LockState) : LockState := { s with mutex := false }

def logReturn (s : LockState) (c : LockCall) (ret : ℤ) : LockState :=
  { s with
    returns := ⟨ret, c.marked, s.holder = some c.id,
      isHeld s.data.word && decide (lockingContext s.data.word = c.context)⟩ :: s.returns }

def broadcast (s : LockState) : LockState := { s with calls := s.calls.map Position.wakeup }

end LockState

/-- drm_lock up to `mutex_enter`. -/
def drmLock (cfg : LockConfig) (s : LockState) (c : LockCall) : LockState :=
  if c.context = kernelContext then s.logReturn c Errno.eInval
  else if cfg.hwLock = false then s.logReturn c Errno.eInval
  else if cfg.dmaQueue ∧ c.context.toInt < 0 then s.logReturn c Errno.eInval
  else { s with calls := .lockEnter c :: s.calls }

/-- The step that ends a loop: `old` was still in the word. -/
def casDone (s : LockState) (i : ℕ) (old : LockWord) (l : CasLoop) : LockState :=
  let new := l.newWord s.data old
  match l with
  | .lock c =>
    let c' := { c with marked := c.marked || !isHeld old }
    let s := s.setWord new (some c.id)
    if tookLock c.context old new then
      { s with data := { s.data with filePriv := some c.file } }.setCall i (some (.leaving c'))
    else s.exit.setCall i (some (.sleeping c'))
  | .idleTake =>
    let s := s.setWord new none
    let taken := tookLock kernelContext old new
    { s with data := { s.data with idleHasLock := s.data.idleHasLock || taken } }.exit.setCall
      i none
  | .transfer =>
    let s := s.setWord new none
    { s with data := { s.data with idleHasLock := true } }.exit.setCall i none
  | .free context =>
    let s := s.setWord new none
    if isHeld old ∧ lockingContext old ≠ context then s.exit.setCall i none
    else s.setCall i (some .freeBroadcast)
  | .idleRelease => (s.setWord new none).setCall i (some .idleBroadcast)

/-- The next step of thread `i`; none while it sleeps or the mutex is taken. -/
def Position.run (cfg : LockConfig) (s : LockState) (i : ℕ) : Position → Option LockState
  | lockEnter c =>
    if s.mutex then none
    else some ({ s with data := { s.data with userWaiters := s.data.userWaiters + 1 } }.enter.setCall
      i (some (read (.lock c))))
  | freeEnter context =>
    if s.mutex then none
    else if s.data.kernelWaiters ≠ 0 then
      some ({ s with data := { s.data with filePriv := none } }.enter.setCall
        i (some (read .transfer)))
    else some (s.enter.setCall i (some (read (.free context))))
  | idleTakeEnter =>
    if s.mutex then none
    else
      let s : LockState := { s with data := { s.data with kernelWaiters := s.data.kernelWaiters + 1 } }
      if s.data.idleHasLock then some (s.setCall i none)
      else some (s.enter.setCall i (some (read .idleTake)))
  | idleReleaseEnter =>
    if s.mutex then none
    else
      let s : LockState := { s with data := { s.data with kernelWaiters := s.data.kernelWaiters - 1 } }
      if s.data.kernelWaiters = 0 ∧ s.data.idleHasLock then
        some (s.enter.setCall i (some (read .idleRelease)))
      else some (s.setCall i none)
  | read l =>
    -- a null `hw_lock` is not read
    if cfg.hwLock then some (s.setCall i (some (cas l s.data.word))) else none
  | cas l old =>
    some (if s.data.word = old then casDone s i old l else s.setCall i (some (read l)))
  | freeBroadcast => some (s.setCall i none).broadcast.exit
  | idleBroadcast =>
    some ({ s with data := { s.data with idleHasLock := false } }.setCall i none).broadcast.exit
  | sleeping _ => none
  | woken c r =>
    if s.mutex then none
    else if r = 0 then some (s.enter.setCall i (some (leaving { c with ret := Errno.eIntr })))
    else some (s.enter.setCall i (some (read (.lock { c with ret := r }))))
  | leaving c =>
    let s := { s with data := { s.data with userWaiters := s.data.userWaiters - 1 } }.exit
    if c.ret ≠ 0 then some ((s.logReturn c c.ret).setCall i none)
    else if cfg.dmaQuiescent ∧ c.quiescent then some (s.setCall i (some (quiescing c)))
    else some ((s.logReturn c 0).setCall i none)
  | quiescing _ => none

/-- What may happen next. User space takes and releases the lock by a compare-and-swap of its
own, for a context that drm_addctx handed out; `wake` is a signal (0) or a spurious wakeup;
`quiesced` is the answer of `dma_quiescent`. -/
inductive LockEvent
  | lock (file : ℕ) (context : LockWord) (quiescent : Bool)
  | unlock (context : LockWord)
  | lockFree (context : LockWord)
  | idlelockTake
  | idlelockRelease
  | run (i : ℕ)
  | wake (i r : ℕ)
  | quiesced (i : ℕ) (failed : Bool)
  | userTake (context : LockWord)
  | userRelease (context : LockWord)
  deriving DecidableEq, Repr

def ofUser (context : LockWord) : Prop :=
  context ≠ kernelContext ∧ lockingContext context = context

instance (context : LockWord) : Decidable (ofUser context) :=
  inferInstanceAs (Decidable (_ ∧ _))

def lockStep (cfg : LockConfig) (s : LockState) : LockEvent → Option LockState
  | .lock file context quiescent =>
    let c : LockCall := { id := s.nextCall, file, context, quiescent }
    some (drmLock cfg { s with nextCall := s.nextCall + 1 } c)
  | .unlock context =>
    some (if context = kernelContext then s else { s with calls := .freeEnter context :: s.calls })
  | .lockFree context => some { s with calls := .freeEnter context :: s.calls }
  | .idlelockTake => some { s with calls := .idleTakeEnter :: s.calls }
  | .idlelockRelease => some { s with calls := .idleReleaseEnter :: s.calls }
  | .run i => s.calls[i]?.bind fun p => p.run cfg s i
  | .wake i r =>
    match s.calls[i]? with
    | some (.sleeping c) => some (s.setCall i (some (.woken c r)))
    | _ => none
  | .quiesced i failed =>
    match s.calls[i]? with
    | some (.quiescing c) =>
      some ((s.logReturn c (if failed then Errno.eBusy else 0)).setCall i none)
    | _ => none
  | .userTake context =>
    if cfg.hwLock ∧ ofUser context ∧ s.data.word = context then
      some (s.setWord (context ||| lockHeld) none)
    else none
  | .userRelease context =>
    if cfg.hwLock ∧ ofUser context ∧ s.data.word = context ||| lockHeld then
      some (s.setWord context none)
    else none

abbrev lockSystem (cfg : LockConfig) : System LockState LockEvent :=
  System.ofStep (fun s => s = {}) (lockStep cfg)

/-! What every run keeps: one thread inside `lock_mutex`, and `user_waiters` in step with the
threads in the loop of drm_lock. -/

structure Inv (s : LockState) : Prop where
  inside : s.calls.countP Position.inside = s.mutex.toNat
  waiters : s.data.userWaiters = BitVec.ofNat 32 (s.calls.countP Position.waiting)

@[simp] theorem Position.inside_wakeup (p : Position) : p.wakeup.inside = p.inside := by
  cases p <;> rfl

@[simp] theorem Position.waiting_wakeup (p : Position) : p.wakeup.waiting = p.waiting := by
  cases p <;> rfl

@[simp] theorem Position.asleep_wakeup (p : Position) : p.wakeup.asleep = false := by
  cases p <;> rfl

theorem countP_wakeup {f : Position → Bool} (hf : ∀ p : Position, f p.wakeup = f p)
    (l : List Position) : (l.map Position.wakeup).countP f = l.countP f := by
  rw [List.countP_map]
  exact List.countP_congr fun p _ => by simp [hf p]

namespace Inv

variable {s s' : LockState} {i : ℕ} {p : Position}

/-- A call starts outside the mutex. -/
theorem start (h : Inv s) (hin : p.inside = false) (hw : p.waiting = false)
    (hc : s'.calls = p :: s.calls) (hm : s'.mutex = s.mutex)
    (hu : s'.data.userWaiters = s.data.userWaiters) : Inv s' := by
  constructor
  · rw [hc, hm, List.countP_cons_of_neg (by simp [hin]), h.inside]
  · rw [hc, hu, List.countP_cons_of_neg (by simp [hw]), h.waiters]

/-- Thread `i` moves on from `p` to `p'`, or ends. -/
theorem move (h : Inv s) (hp : s.calls[i]? = some p) {p' : Option Position}
    (hc : s'.calls = moveOn s.calls i p')
    (hm : s'.mutex.toNat + p.inside.toNat = s.mutex.toNat + p'.toList.countP Position.inside)
    (hu : s'.data.userWaiters + BitVec.ofNat 32 p.waiting.toNat =
      s.data.userWaiters + BitVec.ofNat 32 (p'.toList.countP Position.waiting)) : Inv s' := by
  constructor
  · have hcount := countP_moveOn Position.inside hp p'
    have hin := h.inside
    rw [hc]
    omega
  · have hcount := countP_moveOn Position.waiting hp p'
    rw [h.waiters, ← BitVec.ofNat_add, ← hcount, BitVec.ofNat_add] at hu
    rw [hc]
    exact (BitVec.add_left_inj _).mp hu

theorem wakeup (h : Inv s) : Inv s.broadcast :=
  ⟨(countP_wakeup Position.inside_wakeup _).trans h.inside,
    h.waiters.trans (by rw [LockState.broadcast, countP_wakeup Position.waiting_wakeup])⟩

theorem mutex_of_inside (h : Inv s) (hp : s.calls[i]? = some p) (hin : p.inside = true) :
    s.mutex = true := by
  have hpos : 0 < s.calls.countP Position.inside :=
    List.countP_pos_iff.mpr ⟨p, List.mem_of_getElem? hp, hin⟩
  rw [h.inside] at hpos
  cases hm : s.mutex with
  | true => rfl
  | false => simp [hm] at hpos

/-- Nobody else is inside. -/
theorem alone (h : Inv s) (hp : s.calls[i]? = some p) (hin : p.inside = true) :
    ∀ q ∈ others s.calls i, q.inside = false := by
  have hcount := (perm_others hp).countP_eq (p := Position.inside)
  rw [h.inside, h.mutex_of_inside hp hin, List.countP_cons_of_pos hin] at hcount
  have hzero : (others s.calls i).countP Position.inside = 0 := by
    simp only [Bool.toNat_true] at hcount
    omega
  intro q hq
  simpa using List.countP_eq_zero.mp hzero q hq

theorem cas (h : Inv s) {l : CasLoop} (hp : s.calls[i]? = some (.cas l s.data.word)) :
    Inv (casDone s i s.data.word l) := by
  have hm := h.mutex_of_inside hp rfl
  cases l with
  | lock c =>
    simp only [casDone]
    split
    · exact h.move hp rfl (by simp [LockState.setCall, LockState.setWord, Position.inside]) rfl
    · exact h.move hp rfl
        (by simp [LockState.setCall, LockState.exit, Position.inside, hm]) rfl
  | idleTake =>
    exact h.move hp rfl
      (by simp [casDone, LockState.setCall, LockState.exit, Position.inside, hm]) rfl
  | transfer =>
    exact h.move hp rfl
      (by simp [casDone, LockState.setCall, LockState.exit, Position.inside, hm]) rfl
  | free context =>
    simp only [casDone]
    split
    · exact h.move hp rfl
        (by simp [LockState.setCall, LockState.exit, Position.inside, hm]) rfl
    · exact h.move hp rfl
        (by simp [LockState.setCall, LockState.setWord, Position.inside]) rfl
  | idleRelease =>
    exact h.move hp rfl
      (by simp [casDone, LockState.setCall, LockState.setWord, Position.inside]) rfl

theorem run {cfg : LockConfig} (h : Inv s) (hp : s.calls[i]? = some p)
    (hs : p.run cfg s i = some s') : Inv s' := by
  cases p with
  | lockEnter c =>
    simp only [Position.run] at hs
    split at hs
    · cases hs
    · rename_i hm
      cases hs
      exact h.move hp rfl (by simp [LockState.setCall, LockState.enter, Position.inside, hm])
        (by simp [LockState.setCall, LockState.enter, Position.waiting])
  | freeEnter context =>
    simp only [Position.run] at hs
    split at hs
    · cases hs
    · rename_i hm
      split at hs <;> cases hs <;>
        exact h.move hp rfl (by simp [LockState.setCall, LockState.enter, Position.inside, hm]) rfl
  | idleTakeEnter =>
    simp only [Position.run] at hs
    split at hs
    · cases hs
    · rename_i hm
      split at hs <;> cases hs
      · exact h.move hp rfl (by simp [LockState.setCall, Position.inside]) rfl
      · exact h.move hp rfl (by simp [LockState.setCall, LockState.enter, Position.inside, hm]) rfl
  | idleReleaseEnter =>
    simp only [Position.run] at hs
    split at hs
    · cases hs
    · rename_i hm
      split at hs <;> cases hs
      · exact h.move hp rfl (by simp [LockState.setCall, LockState.enter, Position.inside, hm]) rfl
      · exact h.move hp rfl (by simp [LockState.setCall, Position.inside]) rfl
  | read l =>
    simp only [Position.run] at hs
    split at hs <;> cases hs
    exact h.move hp rfl (by simp [LockState.setCall, Position.inside]) (by cases l <;> rfl)
  | cas l old =>
    simp only [Position.run, Option.some.injEq] at hs
    split at hs
    · rename_i hold
      subst hold hs
      exact h.cas hp
    · subst hs
      exact h.move hp rfl (by simp [LockState.setCall, Position.inside]) (by cases l <;> rfl)
  | freeBroadcast =>
    cases hs
    have hm := h.mutex_of_inside hp rfl
    have hexit : Inv (s.setCall i none).exit :=
      h.move hp rfl (by simp [LockState.exit, Position.inside, hm]) rfl
    exact hexit.wakeup
  | idleBroadcast =>
    cases hs
    have hm := h.mutex_of_inside hp rfl
    have hexit : Inv ({ s with data := { s.data with idleHasLock := false } }.setCall i none).exit :=
      h.move hp rfl (by simp [LockState.exit, Position.inside, hm]) rfl
    exact hexit.wakeup
  | sleeping c => cases hs
  | woken c r =>
    simp only [Position.run] at hs
    split at hs
    · cases hs
    · rename_i hm
      split at hs <;> cases hs <;>
        exact h.move hp rfl (by simp [LockState.setCall, LockState.enter, Position.inside, hm]) rfl
  | leaving c =>
    have hm := h.mutex_of_inside hp rfl
    simp only [Position.run] at hs
    split at hs
    · cases hs
      exact h.move hp rfl
        (by simp [LockState.setCall, LockState.exit, LockState.logReturn, Position.inside, hm])
        (by simp [LockState.setCall, LockState.exit, LockState.logReturn, Position.waiting,
          BitVec.sub_add_cancel])
    · split at hs <;> cases hs
      · exact h.move hp rfl (by simp [LockState.setCall, LockState.exit, Position.inside, hm])
          (by simp [LockState.setCall, LockState.exit, Position.waiting, BitVec.sub_add_cancel])
      · exact h.move hp rfl
          (by simp [LockState.setCall, LockState.exit, LockState.logReturn, Position.inside, hm])
          (by simp [LockState.setCall, LockState.exit, LockState.logReturn, Position.waiting,
          BitVec.sub_add_cancel])
  | quiescing c => cases hs

theorem step {cfg : LockConfig} {e : LockEvent} (h : Inv s) (hs : lockStep cfg s e = some s') :
    Inv s' := by
  cases e with
  | lock file context quiescent =>
    simp only [lockStep, Option.some.injEq, drmLock] at hs
    split_ifs at hs <;> subst hs
    · exact ⟨h.inside, h.waiters⟩
    · exact ⟨h.inside, h.waiters⟩
    · exact ⟨h.inside, h.waiters⟩
    · exact h.start rfl rfl rfl rfl rfl
  | unlock context =>
    simp only [lockStep, Option.some.injEq] at hs
    split at hs <;> subst hs
    · exact h
    · exact h.start rfl rfl rfl rfl rfl
  | lockFree context =>
    cases hs
    exact h.start rfl rfl rfl rfl rfl
  | idlelockTake =>
    cases hs
    exact h.start rfl rfl rfl rfl rfl
  | idlelockRelease =>
    cases hs
    exact h.start rfl rfl rfl rfl rfl
  | run i =>
    obtain ⟨p, hp, hrun⟩ := Option.bind_eq_some_iff.mp hs
    exact h.run hp hrun
  | wake i r =>
    simp only [lockStep] at hs
    split at hs
    · rename_i c hp
      cases hs
      exact h.move hp rfl (by simp [LockState.setCall, Position.inside]) rfl
    · cases hs
  | quiesced i failed =>
    simp only [lockStep] at hs
    split at hs
    · rename_i c hp
      cases hs
      exact h.move hp rfl (by simp [LockState.setCall, LockState.logReturn, Position.inside]) rfl
    · cases hs
  | userTake context =>
    simp only [lockStep] at hs
    split at hs <;> cases hs
    exact ⟨h.inside, h.waiters⟩
  | userRelease context =>
    simp only [lockStep] at hs
    split at hs <;> cases hs
    exact ⟨h.inside, h.waiters⟩

end Inv

theorem init_inv : Inv {} := ⟨rfl, rfl⟩
end GfxDrm.Lock
