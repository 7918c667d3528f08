import GfxDrm.I2c.Transfer
import Mathlib.Data.List.GetD
import Mathlib.Tactic.IntervalCases

/-! Transfers that the GMBUS controller does (intel_i2c.c). -/

namespace GfxDrm.I2c
open Bytes Hoare

/-! ### The controller -/

def gmbusSwClrInt : BitVec 32 := 1 <<< 31
def gmbusSwRdy : BitVec 32 := 1 <<< 30
def gmbusCycleWait : BitVec 32 := 1 <<< 25
def gmbusCycleIndex : BitVec 32 := 2 <<< 25
def gmbusCycleStop : BitVec 32 := 4 <<< 25
def gmbusSlaveRead : BitVec 32 := 1 <<< 0
def gmbusSlaveWrite : BitVec 32 := 0 <<< 0

def gmbusHwWaitPhase : BitVec 32 := 1 <<< 14
def gmbusHwRdy : BitVec 32 := 1 <<< 11
def gmbusSatoer : BitVec 32 := 1 <<< 10
def gmbusActive : BitVec 32 := 1 <<< 9

def gmbusIdleEn : BitVec 32 := 1 <<< 2
def gmbusHwWaitEn : BitVec 32 := 1 <<< 1
def gmbusHwRdyEn : BitVec 32 := 1 <<< 0

def gmbus2byteIndexEn : BitVec 32 := 1 <<< 31

/-- One address with the bytes that go over the wire after it. The address and the number of bytes
have the widths of their fields in GMBUS1. -/
structure GmbusCycle where
  addr : BitVec 7
  rd : Bool
  count : BitVec 9
  bytes : List (BitVec 8)
  bounded : bytes.length ≤ count.toNat
  deriving DecidableEq

/-- Bytes beyond the number of the cycle do not go over. -/
def GmbusCycle.push (c : GmbusCycle) (new : List (BitVec 8)) : GmbusCycle :=
  { c with bytes := (c.bytes ++ new).take c.count.toNat, bounded := List.length_take_le _ _ }

inductive GmbusPhase where
  | cycle (c : GmbusCycle)
  | stop
  deriving DecidableEq

/-- The bytes of GMBUS3, the low one first. -/
def wordBytes (v : BitVec 32) : List (BitVec 8) := (List.range 4).map (byteAt v)

/-- Bytes for the cycle that is under way. -/
def pushWire (rd : Bool) (new : List (BitVec 8)) : List GmbusPhase → List GmbusPhase
  | [] => []
  | .stop :: l => .stop :: pushWire rd new l
  | .cycle c :: l => .cycle (if c.rd = rd then c.push new else c) :: l

/-- The controller and the bus beside it: what each wait is going to find in GMBUS2 until its time
is up, what the reads of GMBUS3 find, the registers, and what was on the wire, newest first. -/
structure Gmbus (δ : Type) extends Bus δ where
  forceBit : Bool := false
  polls : List (List (BitVec 32))
  idlePolls : List (List (BitVec 32))
  words : List (BitVec 32)
  gmbus0 : BitVec 32 := 0
  gmbus3 : BitVec 32 := 0
  gmbus4 : BitVec 32 := 0
  gmbus5 : BitVec 32 := 0
  wire : List GmbusPhase := []

/-- Between two transfers no index is left in GMBUS5. -/
structure GmbusAtRest (δ : Type) extends Gmbus δ where
  rest : gmbus5 = 0

/-- The wire is watched from now on. -/
def GmbusAtRest.watched {δ : Type} (s : GmbusAtRest δ) : Gmbus δ := { s.toGmbus with wire := [] }

/-- The bytes that an index cycle writes before it reads. -/
def indexCycles (addr : BitVec 7) (gmbus1 gmbus5 : BitVec 32) : List GmbusCycle :=
  if gmbus5.getLsbD 31 then [⟨addr, false, 2, [byteAt gmbus5 1, byteAt gmbus5 0], Nat.le_refl 2⟩]
  else if gmbus1.getLsbD 26 then [⟨addr, false, 1, [byteAt gmbus1 1], Nat.le_refl 1⟩]
  else []

/-- The cycle for a value of GMBUS1; the first word of a write is there already. -/
def dataCycle (gmbus1 gmbus3 : BitVec 32) : GmbusCycle :=
  let cycle : GmbusCycle :=
    ⟨gmbus1.extractLsb' 1 7, gmbus1.getLsbD 0, gmbus1.extractLsb' 16 9, [], Nat.zero_le _⟩
  if gmbus1.getLsbD 0 then cycle else cycle.push (wordBytes gmbus3)

variable {δ : Type}

namespace Gmbus

/-- I915_WRITE(GMBUS1, v): nothing happens without SW_RDY, bit 30. The bits 25 to 27 are for a
cycle that leads to the wait phase, for an index before it and for a stop condition after it. -/
def writeGmbus1 (v : BitVec 32) (s : Gmbus δ) : Gmbus δ :=
  if v.getLsbD 30 then
    let cycles := if v.getLsbD 25 then
        .cycle (dataCycle v s.gmbus3) ::
          (indexCycles (v.extractLsb' 1 7) v s.gmbus5).map .cycle
      else []
    let stop := if v.getLsbD 27 then [.stop] else []
    { s with wire := stop ++ (cycles ++ s.wire) }
  else s

/-- I915_WRITE(GMBUS3, v) -/
def writeGmbus3 (v : BitVec 32) (s : Gmbus δ) : Gmbus δ :=
  { s with gmbus3 := v, wire := pushWire false (wordBytes v) s.wire }

/-- I915_READ(GMBUS3) -/
def readGmbus3 : StateM (Gmbus δ) (BitVec 32) := fun s =>
  let val := s.words.headD 0
  (val, { s with words := s.words.tail, wire := pushWire true (wordBytes val) s.wire })

/-- GMBUS5 holds the 16-bit index. -/
def loadIndex (gmbus5 : BitVec 32) (s : Gmbus δ) : Gmbus δ :=
  if gmbus5 ≠ 0 then { s with gmbus5 } else s

/-- Clear GMBUS5 after each index transfer. -/
def clearIndex (gmbus5 : BitVec 32) (s : Gmbus δ) : Gmbus δ :=
  if gmbus5 ≠ 0 then { s with gmbus5 := 0 } else s

end Gmbus

/-! ### The driver -/

/-- The bytes of a buffer. -/
def peek (m : Mem) (buf len : ℕ) : List (BitVec 8) := (List.range len).map fun i => m (buf + i)

/-- Bytes stored one after the other. -/
def fill (m : Mem) (buf : ℕ) : List (BitVec 8) → Mem
  | [] => m
  | b :: bs => fill (Function.update m buf b) (buf + 1) bs

/-- struct intel_gmbus; the generation tells whether GMBUS has an interrupt. -/
structure IntelGmbus (δ : Type) extends I2cAdapter δ where
  reg0 : BitVec 32
  hasGmbusIrq : Bool

/-- The value of GMBUS1 for a message. -/
def gmbus1 (index direction : BitVec 32) (msg : I2cMsg) : BitVec 32 :=
  index ||| gmbusCycleWait ||| BitVec.ofNat 32 msg.len <<< 16 ||| msg.addr.setWidth 32 <<< 1 |||
    direction ||| gmbusSwRdy

/-- The next bytes of a buffer, at most four of them, in a word. -/
def packWord (m : Mem) (buf len : ℕ) : BitVec 32 :=
  join 32 id (peek m buf len) (min len 4)

/-- gmbus_is_index_read for a message and the one after it. -/
def gmbusIsIndexRead (msg next : I2cMsg) : Bool := !msg.rd && decide (msg.len ≤ 2) && next.rd

/-- `gmbus1_index` of gmbus_xfer_index_read. -/
def indexGmbus1 (m : Mem) (msg : I2cMsg) : BitVec 32 :=
  if msg.len = 1 then gmbusCycleIndex ||| (m msg.buf).setWidth 32 <<< 8 else 0

/-- `gmbus5` of gmbus_xfer_index_read. -/
def indexGmbus5 (m : Mem) (msg : I2cMsg) : BitVec 32 :=
  if msg.len = 2 then
    gmbus2byteIndexEn ||| (m (msg.buf + 1)).setWidth 32 ||| (m msg.buf).setWidth 32 <<< 8
  else 0

/-- One turn of the loop of gmbus_xfer. -/
inductive XferStep where
  | one (msg : I2cMsg)
  | index (msg next : I2cMsg)

namespace XferStep

def msgs : XferStep → List I2cMsg
  | one msg => [msg]
  | index msg next => [msg, next]

end XferStep

/-- The turns that the loop takes for a list of messages. -/
def xferSteps : List I2cMsg → List XferStep
  | [] => []
  | [msg] => [.one msg]
  | msg :: next :: msgs =>
    if gmbusIsIndexRead msg next then .index msg next :: xferSteps msgs
    else .one msg :: xferSteps (next :: msgs)

/-- How a wait for `status` ends. -/
def hwStatus (status : BitVec 32) (polls : List (BitVec 32)) : ℤ :=
  (polls.find? (· &&& (gmbusSatoer ||| status) ≠ 0)).elim Errno.eTimedout fun gmbus2 =>
    if gmbus2 &&& gmbusSatoer ≠ 0 then Errno.eNxio
    else if gmbus2 &&& status ≠ 0 then 0
    else Errno.eTimedout

namespace IntelGmbus
variable (a : IntelGmbus δ)

def gmbusWaitHwStatus (status irqEn : BitVec 32) : StateM (Gmbus δ) ℤ := do
  modify fun s => { s with gmbus4 := if a.hasGmbusIrq then irqEn else 0 }
  let s ← get
  modify fun s => { s with polls := s.polls.tail, gmbus4 := 0 }
  pure (hwStatus status (s.polls.headD []))

def gmbusWaitIdle : StateM (Gmbus δ) ℤ := do
  modify fun s => if a.hasGmbusIrq then { s with gmbus4 := gmbusIdleEn } else s
  let s ← get
  modify fun s =>
    { s with idlePolls := s.idlePolls.tail, gmbus4 := if a.hasGmbusIrq then 0 else s.gmbus4 }
  pure (if (s.idlePolls.headD []).any (· &&& gmbusActive = 0) then 0 else Errno.eTimedout)

/-- The loop of gmbus_xfer_read for so many words. -/
def readWords : ℕ → ℕ → ℕ → StateM (Gmbus δ) ℤ
  | 0, _, _ => pure 0
  | n + 1, len, buf => do
    let ret ← a.gmbusWaitHwStatus gmbusHwRdy gmbusHwRdyEn
    if ret ≠ 0 then pure ret
    else
      let val ← Gmbus.readGmbus3
      modify fun s => { s with mem := fill s.mem buf ((wordBytes val).take len) }
      readWords n (len - 4) (buf + 4)

def gmbusXferRead (msg : I2cMsg) (gmbus1Index : BitVec 32) : StateM (Gmbus δ) ℤ := do
  modify (Gmbus.writeGmbus1 (gmbus1 gmbus1Index gmbusSlaveRead msg))
  a.readWords ((msg.len + 3) / 4) msg.len msg.buf

/-- The loop of gmbus_xfer_write for so many words. -/
def writeWords : ℕ → ℕ → ℕ → StateM (Gmbus δ) ℤ
  | 0, _, _ => pure 0
  | n + 1, len, buf => do
    modify fun s => s.writeGmbus3 (packWord s.mem buf len)
    let ret ← a.gmbusWaitHwStatus gmbusHwRdy gmbusHwRdyEn
    if ret ≠ 0 then pure ret else writeWords n (len - 4) (buf + 4)

def gmbusXferWrite (msg : I2cMsg) : StateM (Gmbus δ) ℤ := do
  modify fun s => s.writeGmbus3 (packWord s.mem msg.buf msg.len)
  modify (Gmbus.writeGmbus1 (gmbus1 0 gmbusSlaveWrite msg))
  a.writeWords ((msg.len - 4 + 3) / 4) (msg.len - 4) (msg.buf + 4)

def gmbusXferIndexRead (msg next : I2cMsg) : StateM (Gmbus δ) ℤ := do
  let s ← get
  let gmbus5 := indexGmbus5 s.mem msg
  modify (Gmbus.loadIndex gmbus5)
  let ret ← a.gmbusXferRead next (indexGmbus1 s.mem msg)
  modify (Gmbus.clearIndex gmbus5)
  pure ret

def xferStep : XferStep → StateM (Gmbus δ) ℤ
  | .one msg => if msg.rd then a.gmbusXferRead msg 0 else a.gmbusXferWrite msg
  | .index msg next => a.gmbusXferIndexRead msg next

/-- The loop of gmbus_xfer: what it ends with, and `i` if that is 0. -/
def xferMsgs : ℕ → List XferStep → StateM (Gmbus δ) (ℤ × ℕ)
  | i, [] => pure (0, i)
  | i, step :: steps => do
    let ret ← a.xferStep step
    if ret = Errno.eTimedout ∨ ret = Errno.eNxio then pure (ret, i)
    else
      let ret ← a.gmbusWaitHwStatus gmbusHwWaitPhase gmbusHwWaitEn
      if ret ≠ 0 then pure (ret, i) else xferMsgs (i + step.msgs.length) steps

/-- i2c_bit_algo.master_xfer -/
def masterXfer (msgs : List I2cMsg) : StateM (Gmbus δ) ℤ := fun s =>
  ((a.i2cDoTransfer msgs s.toBus).1, { s with toBus := (a.i2cDoTransfer msgs s.toBus).2 })

/-- All messages are through: a STOP condition, and the interface is disabled when it is idle. -/
def finish (i : ℕ) : StateM (Gmbus δ) ℤ := do
  modify (Gmbus.writeGmbus1 (gmbusCycleStop ||| gmbusSwRdy))
  let ret ← a.gmbusWaitIdle
  modify fun s => { s with gmbus0 := 0 }
  pure (if ret ≠ 0 then Errno.eTimedout else i)

def clearErr : StateM (Gmbus δ) ℤ := do
  let ret ← a.gmbusWaitIdle
  modify (Gmbus.writeGmbus1 gmbusSwClrInt)
  modify (Gmbus.writeGmbus1 0)
  modify fun s => { s with gmbus0 := 0 }
  pure (if ret ≠ 0 then Errno.eTimedout else Errno.eNxio)

/-- Hardware may not support GMBUS over these pins. -/
def timedOut (msgs : List I2cMsg) : StateM (Gmbus δ) ℤ := do
  modify fun s => { s with gmbus0 := 0, forceBit := true }
  a.masterXfer msgs

/-- The messages over the controller. -/
def xferAll (msgs : List I2cMsg) : StateM (Gmbus δ) (ℤ × ℕ) := do
  modify fun s => { s with gmbus0 := a.reg0 }
  a.xferMsgs 0 (xferSteps msgs)

def gmbusXfer (msgs : List I2cMsg) : StateM (Gmbus δ) ℤ := do
  let s ← get
  if s.forceBit then a.masterXfer msgs
  else
    let p ← a.xferAll msgs
    if p.1 = 0 then a.finish p.2
    else if p.1 = Errno.eNxio then a.clearErr
    else a.timedOut msgs

end IntelGmbus

/-! ### What the messages ask for -/

/-- What goes over a bus for one message. -/
structure Segment where
  addr : ℕ
  rd : Bool
  bytes : List (BitVec 8)
  deriving DecidableEq

def GmbusCycle.segment (c : GmbusCycle) : Segment := ⟨c.addr.toNat, c.rd, c.bytes⟩

/-- The messages go over the bus in their order: a write with the bytes that its buffer holds then,
a read with as many bytes as it asks for, which come into its buffer. -/
inductive Exchanged : Mem → List I2cMsg → List Segment → Mem → Prop
  | nil (m : Mem) : Exchanged m [] [] m
  | write {m m' : Mem} {msg : I2cMsg} {msgs : List I2cMsg} {segs : List Segment}
      (hrd : msg.rd = false) (h : Exchanged m msgs segs m') :
      Exchanged m (msg :: msgs)
        (⟨msg.addr.toNat, false, peek m msg.buf msg.len⟩ :: segs) m'
  | read {m m' : Mem} {msg : I2cMsg} {msgs : List I2cMsg} {segs : List Segment}
      {bs : List (BitVec 8)} (hrd : msg.rd = true) (hlen : bs.length = msg.len)
      (h : Exchanged (fill m msg.buf bs) msgs segs m') :
      Exchanged m (msg :: msgs) (⟨msg.addr.toNat, true, bs⟩ :: segs) m'

/-- A message whose address and length have room in GMBUS1. -/
def I2cMsg.Fits (msg : I2cMsg) : Prop := msg.addr.toNat < 2 ^ 7 ∧ msg.len < 2 ^ 9

/-- The messages of an index read are a write of one or two bytes and a read from one slave. -/
def XferStep.Sound : XferStep → Prop
  | .one _ => True
  | .index msg next =>
    msg.rd = false ∧ msg.len ≤ 2 ∧ next.rd = true ∧ msg.addr = next.addr ∧ msg.len ≠ 0

namespace Exchanged
variable {m m' m'' : Mem} {msgs msgs' : List I2cMsg} {segs segs' : List Segment}

theorem append (h : Exchanged m msgs segs m') (h' : Exchanged m' msgs' segs' m'') :
    Exchanged m (msgs ++ msgs') (segs ++ segs') m'' := by
  induction h with
  | nil m => exact h'
  | write hrd h ih => exact .write hrd (ih h')
  | read hrd hlen h ih => exact .read hrd hlen (ih h')

theorem map_addr (h : Exchanged m msgs segs m') :
    segs.map Segment.addr = msgs.map (·.addr.toNat) := by
  induction h with
  | nil m => rfl
  | write hrd h ih => exact congrArg (_ :: ·) ih
  | read hrd hlen h ih => exact congrArg (_ :: ·) ih

/-- Messages whose segments have room in GMBUS1 have it themselves. -/
theorem fits (h : Exchanged m msgs segs m')
    (hsegs : ∀ seg ∈ segs, seg.addr < 2 ^ 7 ∧ seg.bytes.length < 2 ^ 9) :
    ∀ msg ∈ msgs, msg.Fits := by
  induction h with
  | nil m => exact fun _ hmem => (List.not_mem_nil hmem).elim
  | write hrd h ih =>
    obtain ⟨⟨haddr, hlen⟩, hsegs⟩ := List.forall_mem_cons.mp hsegs
    rw [peek, List.length_map, List.length_range] at hlen
    exact List.forall_mem_cons.mpr ⟨⟨haddr, hlen⟩, ih hsegs⟩
  | read hrd hlen h ih =>
    obtain ⟨⟨haddr, hlt⟩, hsegs⟩ := List.forall_mem_cons.mp hsegs
    exact List.forall_mem_cons.mpr ⟨⟨haddr, hlen ▸ hlt⟩, ih hsegs⟩

end Exchanged

/-- No cycle of the controller goes beyond the fields of GMBUS1. -/
theorem GmbusCycle.segment_fits (cs : List GmbusCycle) :
    ∀ seg ∈ cs.map GmbusCycle.segment, seg.addr < 2 ^ 7 ∧ seg.bytes.length < 2 ^ 9 := by
  intro seg hseg
  obtain ⟨c, -, rfl⟩ := List.mem_map.mp hseg
  exact ⟨c.addr.isLt, c.bounded.trans_lt c.count.isLt⟩

/-! ### Bytes and words -/

theorem length_peek (m : Mem) (buf len : ℕ) : (peek m buf len).length = len := by
  rw [peek, List.length_map, List.length_range]

/-- The bytes of a buffer, a word of them first. -/
theorem peek_word (m : Mem) (buf len : ℕ) :
    peek m buf (min len 4) ++ peek m (buf + 4) (len - 4) = peek m buf len := by
  by_cases h4 : 4 ≤ len
  · obtain ⟨k, rfl⟩ := Nat.exists_eq_add_of_le h4
    unfold peek
    rw [Nat.min_eq_right h4, Nat.add_sub_cancel_left, List.range_add, List.map_append,
      List.map_map]
    refine congrArg _ (List.map_congr_left fun i _ => ?_)
    rw [Function.comp_apply, Nat.add_assoc]
  · rw [Nat.min_eq_left (by omega), Nat.sub_eq_zero_of_le (by omega)]
    exact List.append_nil _

theorem fill_append (m : Mem) (buf : ℕ) (bs bs' : List (BitVec 8)) :
    fill (fill m buf bs) (buf + bs.length) bs' = fill m buf (bs ++ bs') := by
  induction bs generalizing m buf with
  | nil => rfl
  | cons b bs ih =>
    rw [List.cons_append, fill, fill, ← ih, List.length_cons, Nat.add_right_comm, Nat.add_assoc]

/-- A word goes to the buffer, and all after it behind it. -/
theorem fill_word (m : Mem) (buf len : ℕ) (v : BitVec 32) {bs : List (BitVec 8)}
    (hbs : bs.length = len - 4) :
    fill (fill m buf ((wordBytes v).take len)) (buf + 4) bs =
      fill m buf ((wordBytes v).take len ++ bs) := by
  by_cases h4 : 4 ≤ len
  · rw [List.take_of_length_le h4]
    exact fill_append m buf (wordBytes v) bs
  · obtain rfl := List.eq_nil_of_length_eq_zero (hbs.trans (by omega))
    rw [List.append_nil]
    rfl

/-- A word holds the bytes it was made of. -/
theorem take_packWord (m : Mem) (buf len : ℕ) :
    (wordBytes (packWord m buf len)).take len = peek m buf (min len 4) := by
  have hbyte : ∀ i < min len 4, byteAt (packWord m buf len) i = m (buf + i) := by
    intro i hi
    have hat : byteAt (packWord m buf len) (id i) = _ :=
      byteAt_join id (fun j _ h => h) (by simp only [id_eq]; omega)
    rw [id_eq, if_pos hi] at hat
    rw [hat, List.getD_eq_getElem _ _ (by rw [length_peek]; omega)]
    simp [peek]
  rw [wordBytes, ← List.map_take, List.take_range]
  exact List.map_congr_left fun i hi => hbyte i (List.mem_range.mp hi)

namespace GmbusCycle
variable {c : GmbusCycle}

theorem push_push (c : GmbusCycle) (bs bs' : List (BitVec 8)) :
    (c.push bs).push bs' = c.push (bs ++ bs') := by
  have htake (l : List (BitVec 8)) (n : ℕ) : (l.take n ++ bs').take n = (l ++ bs').take n := by
    rw [List.take_append, List.take_append, List.take_take, Nat.min_self, List.length_take]
    congr 2
    omega
  unfold push
  simp only [htake, List.append_assoc]

theorem push_of_fits (c : GmbusCycle) (bs : List (BitVec 8))
    (h : c.bytes.length + bs.length ≤ c.count.toNat) :
    (c.push bs).bytes = c.bytes ++ bs :=
  List.take_of_length_le (by rw [List.length_append]; exact h)

/-- Of a word only the bytes that are left go over. -/
theorem push_take (c : GmbusCycle) {len : ℕ} (h : c.bytes.length + len = c.count.toNat)
    (bs : List (BitVec 8)) : c.push (bs.take len) = c.push bs := by
  have htake : (c.bytes ++ bs.take len).take c.count.toNat =
      (c.bytes ++ bs).take c.count.toNat := by
    rw [List.take_append, List.take_append, List.take_take, ← h, Nat.add_sub_cancel_left,
      Nat.min_self]
  unfold push
  simp only [htake]

theorem push_nil (c : GmbusCycle) : c.push [] = c := by
  have htake : (c.bytes ++ []).take c.count.toNat = c.bytes := by
    rw [List.append_nil, List.take_of_length_le c.bounded]
  unfold push
  simp only [htake]

end GmbusCycle

/-! ### One message -/

namespace Gmbus

/-- A wait is over. -/
def waited (s : Gmbus δ) : Gmbus δ := { s with polls := s.polls.tail, gmbus4 := 0 }

/-- The next word of the buffer was written. -/
def sent (s : Gmbus δ) (len buf : ℕ) : Gmbus δ := (s.writeGmbus3 (packWord s.mem buf len)).waited

/-- A word was read, and so many bytes of it went to the buffer. -/
def received (s : Gmbus δ) (len buf : ℕ) : Gmbus δ :=
  { (readGmbus3 s.waited).2 with
    mem := fill s.mem buf ((wordBytes (s.words.headD 0)).take len) }

end Gmbus

namespace IntelGmbus
variable (a : IntelGmbus δ)

theorem readWords_succ (n len buf : ℕ) (s : Gmbus δ) :
    a.readWords (n + 1) len buf s =
      if hwStatus gmbusHwRdy (s.polls.headD []) ≠ 0 then
        (hwStatus gmbusHwRdy (s.polls.headD []), s.waited)
      else a.readWords n (len - 4) (buf + 4) (s.received len buf) := by
  rw [readWords, run_bind, run_ite]
  rfl

/-- What the loop of a read has done when it has read all: the bytes that came over the wire are in
the buffer. -/
theorem readWords_spec {n len buf : ℕ} {s : Gmbus δ} {c : GmbusCycle} {l : List GmbusPhase}
    (hn : n = (len + 3) / 4) (hwire : s.wire = .cycle c :: l) (hrd : c.rd = true)
    (hlen : c.bytes.length + len = c.count.toNat) (h : (a.readWords n len buf s).1 = 0) :
    ∃ bs, bs.length = len ∧ (a.readWords n len buf s).2.mem = fill s.mem buf bs ∧
      (a.readWords n len buf s).2.wire = .cycle (c.push bs) :: l ∧
      (a.readWords n len buf s).2.gmbus5 = s.gmbus5 := by
  induction n generalizing len buf s c with
  | zero =>
    have h0 : len = 0 := by omega
    exact ⟨[], h0.symm, rfl, by rw [c.push_nil]; exact hwire, rfl⟩
  | succ n ih =>
    rw [readWords_succ] at h ⊢
    by_cases h0 : hwStatus gmbusHwRdy (s.polls.headD []) = 0
    case neg =>
      rw [if_pos h0] at h
      exact absurd h h0
    rw [if_neg (not_not.mpr h0)] at h ⊢
    have hnew : ((wordBytes (s.words.headD 0)).take len).length = min len 4 := List.length_take
    have hbytes := c.push_of_fits ((wordBytes (s.words.headD 0)).take len) (by omega)
    have hwire' : (s.received len buf).wire =
        .cycle (c.push ((wordBytes (s.words.headD 0)).take len)) :: l := by
      rw [c.push_take hlen]
      change pushWire true _ s.wire = _
      rw [hwire, pushWire, if_pos hrd]
      rfl
    obtain ⟨bs, hbs, hmem, hwire'', h5⟩ := ih (by omega) hwire' hrd
      (by rw [hbytes, List.length_append]; change _ = c.count.toNat; omega) h
    refine ⟨(wordBytes (s.words.headD 0)).take len ++ bs, ?_, ?_, ?_, h5⟩
    · rw [List.length_append]
      omega
    · exact hmem.trans (fill_word s.mem buf len _ hbs)
    · rw [hwire'', c.push_push]

theorem writeWords_succ (n len buf : ℕ) (s : Gmbus δ) :
    a.writeWords (n + 1) len buf s =
      if hwStatus gmbusHwRdy (s.polls.headD []) ≠ 0 then
        (hwStatus gmbusHwRdy (s.polls.headD []), s.sent len buf)
      else a.writeWords n (len - 4) (buf + 4) (s.sent len buf) := by
  rw [writeWords, run_bind, run_bind, run_ite]
  rfl

/-- What the loop of a write has done when it is through: the rest of the buffer went out. -/
theorem writeWords_spec {n len buf : ℕ} {s : Gmbus δ} {c : GmbusCycle} {l : List GmbusPhase}
    (hn : n = (len + 3) / 4) (hwire : s.wire = .cycle c :: l) (hrd : c.rd = false)
    (hlen : c.bytes.length + len = c.count.toNat) (h : (a.writeWords n len buf s).1 = 0) :
    (a.writeWords n len buf s).2.mem = s.mem ∧
      (a.writeWords n len buf s).2.wire = .cycle (c.push (peek s.mem buf len)) :: l ∧
      (a.writeWords n len buf s).2.gmbus5 = s.gmbus5 := by
  induction n generalizing len buf s c with
  | zero =>
    obtain rfl : len = 0 := by omega
    exact ⟨rfl, by rw [peek, List.range_zero, List.map_nil, c.push_nil]; exact hwire, rfl⟩
  | succ n ih =>
    rw [writeWords_succ] at h ⊢
    by_cases h0 : hwStatus gmbusHwRdy (s.polls.headD []) = 0
    case neg =>
      rw [if_pos h0] at h
      exact absurd h h0
    rw [if_neg (not_not.mpr h0)] at h ⊢
    have hbytes := c.push_of_fits (peek s.mem buf (min len 4))
      (by rw [length_peek]; omega)
    have hwire' : (s.sent len buf).wire = .cycle (c.push (peek s.mem buf (min len 4))) :: l := by
      rw [← take_packWord, c.push_take hlen]
      change pushWire false _ s.wire = _
      rw [hwire, pushWire, if_pos hrd]
    obtain ⟨hmem, hwire'', h5⟩ := ih (by omega) hwire' hrd
      (by rw [hbytes, List.length_append, length_peek]; change _ = c.count.toNat; omega) h
    refine ⟨hmem, ?_, h5⟩
    rw [hwire'', c.push_push]
    change GmbusPhase.cycle (c.push (_ ++ peek s.mem (buf + 4) (len - 4))) :: l = _
    rw [peek_word]

end IntelGmbus

/-! ### The fields of GMBUS1 -/

/-- A value of GMBUS1, field by field. -/
def fieldsWord (indexed : Bool) (index : BitVec 8) (count : BitVec 9) (addr : BitVec 7)
    (rd : Bool) : BitVec 32 :=
  (BitVec.ofBool indexed).setWidth 32 <<< 26 ||| index.setWidth 32 <<< 8 ||| gmbusCycleWait |||
    count.setWidth 32 <<< 16 ||| addr.setWidth 32 <<< 1 ||| (BitVec.ofBool rd).setWidth 32 |||
    gmbusSwRdy

section fields
variable (indexed : Bool) (index : BitVec 8) (count : BitVec 9) (addr : BitVec 7) (rd : Bool)

theorem fieldsWord_bits : (fieldsWord indexed index count addr rd).getLsbD 0 = rd ∧
    (fieldsWord indexed index count addr rd).getLsbD 25 = true ∧
    (fieldsWord indexed index count addr rd).getLsbD 26 = indexed ∧
    (fieldsWord indexed index count addr rd).getLsbD 27 = false ∧
    (fieldsWord indexed index count addr rd).getLsbD 30 = true := by
  simp [fieldsWord, gmbusCycleWait, gmbusSwRdy]

theorem fieldsWord_addr : (fieldsWord indexed index count addr rd).extractLsb' 1 7 = addr := by
  apply BitVec.eq_of_getLsbD_eq
  intro i hi
  interval_cases i <;> simp [fieldsWord, gmbusCycleWait, gmbusSwRdy]

theorem fieldsWord_count : (fieldsWord indexed index count addr rd).extractLsb' 16 9 = count := by
  apply BitVec.eq_of_getLsbD_eq
  intro i hi
  interval_cases i <;> simp [fieldsWord, gmbusCycleWait, gmbusSwRdy]

theorem fieldsWord_index : byteAt (fieldsWord indexed index count addr rd) 1 = index := by
  apply BitVec.eq_of_getLsbD_eq
  intro i hi
  rw [byteAt, BitVec.getLsbD_setWidth, decide_eq_true hi,
    Bool.true_and]
  interval_cases i <;> simp [fieldsWord, gmbusCycleWait, gmbusSwRdy]

end fields

/-- What gmbus_xfer_index_read puts into GMBUS1 for an index of one byte, 0 for none. -/
def indexWord (index : Option (BitVec 8)) : BitVec 32 :=
  index.elim 0 fun b => gmbusCycleIndex ||| b.setWidth 32 <<< 8

/-- What it puts into GMBUS5 for an index of two bytes. -/
def indexWord2 (b b' : BitVec 8) : BitVec 32 :=
  gmbus2byteIndexEn ||| b'.setWidth 32 ||| b.setWidth 32 <<< 8

theorem indexWord2_fields (b b' : BitVec 8) : (indexWord2 b b').getLsbD 31 = true ∧
    byteAt (indexWord2 b b') 1 = b ∧ byteAt (indexWord2 b b') 0 = b' := by
  refine ⟨by simp [indexWord2, gmbus2byteIndexEn], ?_, ?_⟩
  · apply BitVec.eq_of_getLsbD_eq
    intro i hi
    rw [byteAt]
    interval_cases i <;> simp [indexWord2, gmbus2byteIndexEn]
  · apply BitVec.eq_of_getLsbD_eq
    intro i hi
    rw [byteAt]
    interval_cases i <;> simp [indexWord2, gmbus2byteIndexEn]

theorem slaveRead_eq : gmbusSlaveRead = (BitVec.ofBool true).setWidth 32 := by decide

theorem slaveWrite_eq : gmbusSlaveWrite = (BitVec.ofBool false).setWidth 32 := by decide

/-- The address and the length of a message that fits stand in their fields. -/
theorem gmbus1_eq (index : Option (BitVec 8)) {rd : Bool} {dir : BitVec 32}
    (hdir : dir = (BitVec.ofBool rd).setWidth 32) {msg : I2cMsg} (h : msg.Fits) :
    gmbus1 (indexWord index) dir msg =
      fieldsWord index.isSome (index.getD 0) (BitVec.ofNat 9 msg.len) (msg.addr.setWidth 7)
        rd := by
  have haddr : msg.addr.setWidth 32 = (msg.addr.setWidth 7).setWidth 32 := by
    apply BitVec.eq_of_toNat_eq
    have := h.1
    simp only [BitVec.toNat_setWidth]
    omega
  have hlen : BitVec.ofNat 32 msg.len = (BitVec.ofNat 9 msg.len).setWidth 32 := by
    apply BitVec.eq_of_toNat_eq
    have := h.2
    simp only [BitVec.toNat_setWidth, BitVec.toNat_ofNat]
    omega
  have hbit : gmbusCycleIndex = (BitVec.ofBool true).setWidth 32 <<< 26 := by decide
  have hindex : indexWord index = (BitVec.ofBool index.isSome).setWidth 32 <<< 26 |||
      (index.getD 0).setWidth 32 <<< 8 := by
    cases index with
    | none => decide
    | some b => exact congrArg (· ||| b.setWidth 32 <<< 8) hbit
  rw [gmbus1, haddr, hlen, hindex, hdir, fieldsWord]

end GfxDrm.I2c
