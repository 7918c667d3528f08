import GfxDrm.Errno
import GfxDrm.Lib.Bytes
import GfxDrm.Lib.Word
import Mathlib.Data.List.GetD
import Mathlib.Tactic.IntervalCases

/-! Requests and replies over the AUX channel of a DisplayPort link (intel_dp.c). -/

namespace GfxDrm.Dp

open BitField Bytes

abbrev Byte := BitVec 8

/-! ### The registers of the channel -/

def auxSendBusy : BitVec 32 := 1 <<< 31
def auxDone : BitVec 32 := 1 <<< 30
def auxInterrupt : BitVec 32 := 1 <<< 29
def auxTimeOutError : BitVec 32 := 1 <<< 28
def auxReceiveError : BitVec 32 := 1 <<< 25
def auxMessageSizeMask : BitVec 32 := 0x1f <<< 20

/-- DP_AUX_CH_CTL_MESSAGE_SIZE of a value of the control register. -/
def messageSize (ctl : BitVec 32) : ℕ := ((ctl &&& auxMessageSizeMask) >>> 20).toNat

/-- What a read of the control register finds: its value, and the data registers then. -/
structure AuxRead where
  ctl : BitVec 32
  data : ℕ → BitVec 32

/-- The first `n` bytes of the data registers, the high byte of each first. -/
def wire (data : ℕ → BitVec 32) (n : ℕ) : List Byte :=
  (List.range n).map fun i => byteAt (data (i / 4)) (3 - i % 4)

namespace AuxRead

/-- The channel is done and nothing went wrong. -/
def Received (r : AuxRead) : Prop :=
  r.ctl &&& auxDone ≠ 0 ∧ r.ctl &&& (auxTimeOutError ||| auxReceiveError) = 0

/-- The bytes that the sink sent back; there are five data registers. -/
def reply (r : AuxRead) : List Byte := wire r.data (min (messageSize r.ctl) 20)

end AuxRead

/-- The channel: what the reads of its control register are going to find, its data registers, what
the last read found and the messages that went out. -/
structure AuxCh where
  reads : List AuxRead
  data : ℕ → BitVec 32
  last : AuxRead
  sent : List (List Byte) := []

namespace AuxCh

/-- I915_READ(ch_ctl); none while the hardware has not answered. -/
def readCtl (s : AuxCh) : Option (BitVec 32 × AuxCh) :=
  s.reads.head?.map fun r => (r.ctl, { s with reads := s.reads.tail, data := r.data, last := r })

/-- I915_WRITE(ch_ctl, v): with SEND_BUSY a message of the size in `v` goes out. -/
def writeCtl (v : BitVec 32) (s : AuxCh) : AuxCh :=
  if v &&& auxSendBusy ≠ 0 then { s with sent := s.sent ++ [wire s.data (messageSize v)] } else s

end AuxCh

/-- How the channel is driven: its interrupt, the precharge and the divider of its clock. -/
structure AuxConfig where
  hasAuxIrq : Bool
  gen6 : Bool
  auxClockDivider : Fin 0x800

/-! ### Sending and receiving -/

def packAux (src : List Byte) : BitVec 32 := join 32 (3 - ·) src (min src.length 4)

def unpackAux (src : BitVec 32) (dst : Mem) (off n : ℕ) : Mem :=
  (List.range (min n 4)).foldl (fun m i => Function.update m (off + i) (byteAt src (3 - i))) dst

namespace AuxCh

/-- Load the send data into the aux channel data registers. -/
def load (send : List Byte) (s : AuxCh) : AuxCh :=
  { s with
    data := (List.range ((send.length + 3) / 4)).foldl
      (fun d k => Function.update d k (packAux (send.drop (4 * k)))) s.data }

/-- Unload any bytes sent back from the other side. -/
def unload (s : AuxCh) (recv : Mem) (n : ℕ) : Mem :=
  (List.range ((n + 3) / 4)).foldl
    (fun m k => unpackAux (s.data k) m (4 * k) (n - 4 * k)) recv

/-- Try to wait for any previous activity. -/
def waitIdle : ℕ → AuxCh → Option (Bool × AuxCh)
  | 0, s => some (false, s)
  | n + 1, s => do
    let p ← s.readCtl
    if p.1 &&& auxSendBusy = 0 then some (true, p.2) else waitIdle n p.2

/-- The reads that go by until the channel is no longer busy. -/
def pollBusy : List AuxRead → Option (AuxRead × List AuxRead)
  | [] => none
  | r :: reads => if r.ctl &&& auxSendBusy = 0 then some (r, reads) else pollBusy reads

/-- Wait for the command to complete. -/
def waitDone (s : AuxCh) : Option (BitVec 32 × AuxCh) :=
  (pollBusy s.reads).map fun p =>
    (p.1.ctl, { s with reads := p.2, data := p.1.data, last := p.1 })

/-- The value that starts the transfer. -/
def sendCtl (c : AuxConfig) (n : ℕ) : BitVec 32 :=
  auxSendBusy ||| (if c.hasAuxIrq then auxInterrupt else 0) |||
    BitVec.ofNat 32 n <<< 20 |||
    (if c.gen6 then 3 else 5) <<< 16 |||
    BitVec.ofNat 32 c.auxClockDivider |||
    auxDone ||| auxTimeOutError ||| auxReceiveError

/-- One attempt: the status with which it ends. -/
def attempt (c : AuxConfig) (send : List Byte) (s : AuxCh) : Option (BitVec 32 × AuxCh) := do
  let p ← ((s.load send).writeCtl (sendCtl c send.length)).waitDone
  some (p.1, p.2.writeCtl (p.1 ||| auxDone ||| auxTimeOutError ||| auxReceiveError))

/-- Must try at least 3 times according to DP spec. -/
def attempts (c : AuxConfig) (send : List Byte) : ℕ → BitVec 32 → AuxCh →
    Option (BitVec 32 × AuxCh)
  | 0, status, s => some (status, s)
  | n + 1, _, s => do
    let p ← s.attempt c send
    if p.1 &&& (auxTimeOutError ||| auxReceiveError) ≠ 0 then attempts c send n p.1 p.2
    else if p.1 &&& auxDone ≠ 0 then some p
    else attempts c send n p.1 p.2

/-- What is made of the last status. -/
def receive (status : BitVec 32) (recv : Mem) (recvSize : ℕ) (s : AuxCh) : ℤ × Mem × AuxCh :=
  if status &&& auxDone = 0 then (Errno.eBusy, recv, s)
  else if status &&& auxReceiveError ≠ 0 then (Errno.eIo, recv, s)
  else if status &&& auxTimeOutError ≠ 0 then (Errno.eTimedout, recv, s)
  else
    let recvBytes := min (messageSize status) recvSize
    (recvBytes, s.unload recv recvBytes, s)

end AuxCh

def intelDpAuxCh (c : AuxConfig) (send : List Byte) (recv : Mem) (recvSize : ℕ) (s : AuxCh) :
    Option (ℤ × Mem × AuxCh) := do
  let idle ← AuxCh.waitIdle 3 s
  if !idle.1 then some (Errno.eBusy, recv, idle.2)
  else
    -- the status is still that of the wait
    let p ← AuxCh.attempts c send 5 idle.2.last.ctl idle.2
    some (p.2.receive p.1 recv recvSize)

/-! ### Requests -/

/-- The request is made over again until `judge` finds something to return in what came back;
`out` is returned where it has been made so many times. -/
def exchange (c : AuxConfig) (msg : List Byte) (replyBytes : ℕ) (judge : ℤ → Mem → Option ℤ)
    (out : Option ℤ) : ℕ → Mem → AuxCh → Option (ℤ × Mem × AuxCh)
  | 0, reply, s => out.map fun ret => (ret, reply, s)
  | n + 1, reply, s => do
    let p ← intelDpAuxCh c msg reply replyBytes s
    (judge p.1 p.2.1).elim (exchange c msg replyBytes judge out n p.2.1 p.2.2) fun ret =>
      some (ret, p.2)

def auxNativeWrite : Byte := 0x8
def auxNativeRead : Byte := 0x9
def auxI2cWrite : Byte := 0x0
def auxI2cRead : Byte := 0x1
def auxI2cMot : Byte := 0x4

def auxNativeReplyAck : Byte := 0x0 <<< 4
def auxNativeReplyNack : Byte := 0x1 <<< 4
def auxNativeReplyDefer : Byte := 0x2 <<< 4
def auxNativeReplyMask : Byte := 0x3 <<< 4

def auxI2cReplyAck : Byte := 0x0 <<< 6
def auxI2cReplyNack : Byte := 0x1 <<< 6
def auxI2cReplyDefer : Byte := 0x2 <<< 6
def auxI2cReplyMask : Byte := 0x3 <<< 6

def modeI2cWrite : BitVec 32 := 2
def modeI2cRead : BitVec 32 := 4
def modeI2cStop : BitVec 32 := 8

/-- What a call returns, the caller's buffer after it and the channel. -/
structure Outcome where
  ret : ℤ
  recv : Mem
  ch : AuxCh

/-- A native reply: `ret` where it is an ACK, again where it is a DEFER. -/
def judgeNative (ret : ℤ) (ack : Byte) : Option ℤ :=
  if ack &&& auxNativeReplyMask = auxNativeReplyAck then some ret
  else if ack &&& auxNativeReplyMask = auxNativeReplyDefer then none
  else some Errno.eIo

def nativeHeader (command : Byte) (address : BitVec 16) (n : ℕ) : List Byte :=
  [command <<< 4, (address >>> 8).setWidth 8, (address &&& 0xff).setWidth 8,
    BitVec.ofInt 8 ((n : ℤ) - 1)]

def judgeWrite (sendBytes : ℕ) (ret : ℤ) (ack : Mem) : Option ℤ :=
  if ret < 0 then some ret else judgeNative sendBytes (ack 0)

def judgeRead (ret : ℤ) (reply : Mem) : Option ℤ :=
  if ret = 0 then some Errno.eProto
  else if ret < 0 then some ret
  else judgeNative (ret - 1) (reply 0)

/-- `stack` is what the local variable holds before anything is received. -/
def intelDpAuxNativeWrite (c : AuxConfig) (address : BitVec 16) (send : List Byte)
    (stack recv : Mem) (s : AuxCh) : Option Outcome :=
  if 16 < send.length then some ⟨-1, recv, s⟩
  else
    (exchange c (nativeHeader auxNativeWrite address send.length ++ send) 1
      (judgeWrite send.length) none (s.reads.length + 1) stack s).map fun p => ⟨p.1, recv, p.2.2⟩

def intelDpAuxNativeRead (c : AuxConfig) (address : BitVec 16) (recvBytes : ℕ)
    (stack recv : Mem) (s : AuxCh) : Option Outcome :=
  (exchange c (nativeHeader auxNativeRead address recvBytes) (recvBytes + 1) judgeRead none
    (s.reads.length + 1) stack s).map fun p =>
      -- memcpy(recv, reply + 1, ret - 1), which only an ACK reaches
      ⟨p.1, fun i => if (i : ℤ) < p.1 then p.2.1 (i + 1) else recv i, p.2.2⟩

/-- The command of an i2c step. -/
def i2cCommand (mode : BitVec 32) : Byte :=
  let command := if mode &&& modeI2cRead ≠ 0 then auxI2cRead <<< 4 else auxI2cWrite <<< 4
  if mode &&& modeI2cStop = 0 then command ||| auxI2cMot <<< 4 else command

def i2cMessage (mode : BitVec 32) (address : BitVec 16) (writeByte : Byte) : List Byte :=
  let header := [i2cCommand mode, address.setWidth 8 >>> 8, address.setWidth 8]
  if mode = modeI2cWrite then header ++ [0, writeByte]
  else if mode = modeI2cRead then header ++ [0]
  else header

def i2cReplyBytes (mode : BitVec 32) : ℕ := if mode = modeI2cRead then 2 else 1

def judgeI2c (replyBytes : ℕ) (ret : ℤ) (reply : Mem) : Option ℤ :=
  if ret < 0 then some ret
  else if reply 0 &&& auxNativeReplyMask = auxNativeReplyAck then
    if reply 0 &&& auxI2cReplyMask = auxI2cReplyAck then some ((replyBytes : ℤ) - 1)
    else if reply 0 &&& auxI2cReplyMask = auxI2cReplyNack then some Errno.eIo
    else if reply 0 &&& auxI2cReplyMask = auxI2cReplyDefer then none
    else some Errno.eIo
  else if reply 0 &&& auxNativeReplyMask = auxNativeReplyNack then some Errno.eIo
  else if reply 0 &&& auxNativeReplyMask = auxNativeReplyDefer then none
  else some Errno.eIo

/-- `recv` is read_byte. -/
def intelDpI2cAuxCh (c : AuxConfig) (mode : BitVec 32) (address : BitVec 16) (writeByte : Byte)
    (stack recv : Mem) (s : AuxCh) : Option Outcome :=
  let replyBytes := i2cReplyBytes mode
  (exchange c (i2cMessage mode address writeByte) replyBytes (judgeI2c replyBytes)
    (some Errno.eIo) 5 stack s).map fun p =>
      ⟨p.1, if 0 ≤ p.1 ∧ mode = modeI2cRead then Function.update recv 0 (p.2.1 1) else recv, p.2.2⟩

/-! ### The bytes that go in and out -/

/-- The bytes of a list laid over a memory from its start. -/
def overlay (m : Mem) (l : List Byte) : Mem := fun i => l.getD i (m i)

theorem foldl_update {α : Type*} (m : ℕ → α) (off n : ℕ) (f : ℕ → α) (x : ℕ) :
    (List.range n).foldl (fun m i => Function.update m (off + i) (f i)) m x =
      if off ≤ x ∧ x < off + n then f (x - off) else m x := by
  induction n with
  | zero => rw [if_neg (by omega)]; rfl
  | succ n ih =>
    rw [List.range_succ, List.foldl_append, List.foldl_cons, List.foldl_nil]
    by_cases hx : x = off + n
    · subst hx
      rw [Function.update_self, if_pos (by omega), Nat.add_sub_cancel_left]
    · rw [Function.update_of_ne hx, ih]
      exact if_congr (by omega) rfl rfl

theorem byteAt_packAux (src : List Byte) {i : ℕ} (hi : i < 4) :
    byteAt (packAux src) (3 - i) = src.getD i 0 := by
  rw [packAux, byteAt_join (3 - ·) (fun j _ _ => by omega) (by omega)]
  split
  case isTrue => rfl
  case isFalse h => rw [List.getD_eq_default _ _ (by omega)]

/-- What is loaded is what the wire takes. -/
theorem wire_load (s : AuxCh) (send : List Byte) :
    wire (s.load send).data send.length = send := by
  apply List.ext_getElem
  · simp [wire]
  · intro i hi hi'
    have hload := foldl_update s.data 0 ((send.length + 3) / 4)
      (fun k => packAux (send.drop (4 * k))) (i / 4)
    simp only [Nat.zero_add, true_and, Nat.sub_zero] at hload
    simp only [wire, List.getElem_map, List.getElem_range, AuxCh.load]
    rw [hload, if_pos (by omega), byteAt_packAux _ (Nat.mod_lt i (by decide)), List.getD_eq_getElem?_getD,
      List.getElem?_drop, Nat.div_add_mod, List.getElem?_eq_getElem hi']
    rfl

theorem unpackAux_apply (src : BitVec 32) (dst : Mem) (off n x : ℕ) :
    unpackAux src dst off n x =
      if off ≤ x ∧ x < off + min n 4 then byteAt src (3 - (x - off)) else dst x :=
  foldl_update dst off (min n 4) (fun i => byteAt src (3 - i)) x

theorem unload_blocks (s : AuxCh) (recv : Mem) (n b x : ℕ) :
    (List.range b).foldl (fun m k => unpackAux (s.data k) m (4 * k) (n - 4 * k)) recv x =
      if x < 4 * b ∧ x < n then byteAt (s.data (x / 4)) (3 - x % 4) else recv x := by
  induction b with
  | zero => rfl
  | succ b ih =>
    rw [List.range_succ, List.foldl_append, List.foldl_cons, List.foldl_nil, unpackAux_apply]
    by_cases hx : 4 * b ≤ x ∧ x < 4 * b + min (n - 4 * b) 4
    · rw [if_pos hx, if_pos (by omega), show x / 4 = b by omega, show x % 4 = x - 4 * b by omega]
    · rw [if_neg hx, ih]
      exact if_congr (by omega) rfl rfl

theorem unload_eq (s : AuxCh) (recv : Mem) (n : ℕ) :
    s.unload recv n = overlay recv (wire s.data n) := by
  funext x
  rw [AuxCh.unload, unload_blocks, overlay, wire]
  by_cases hx : x < n
  · rw [if_pos (by omega), List.getD_eq_getElem _ _ (by simpa using hx), List.getElem_map,
      List.getElem_range]
  · rw [if_neg (by omega), List.getD_eq_default _ _ (by simpa using hx)]

theorem wire_take (data : ℕ → BitVec 32) (m n : ℕ) :
    (wire data m).take n = wire data (min n m) := by
  rw [wire, wire, ← List.map_take, List.take_range]

/-! ### What the control register is told -/

theorem sendCtl_busy (c : AuxConfig) (n : ℕ) : AuxCh.sendCtl c n &&& auxSendBusy ≠ 0 := by
  intro h
  have hbit := congrArg (fun v : BitVec 32 => v.getLsbD 31) h
  simp [AuxCh.sendCtl, auxSendBusy] at hbit

theorem divider_size (d : Fin 0x800) : BitVec.ofNat 32 d &&& auxMessageSizeMask = 0 := by
  apply BitVec.eq_of_toNat_eq
  have hmask : (auxMessageSizeMask).toNat = (2 ^ 5 - 1) <<< 20 := by decide
  rw [BitVec.toNat_and, hmask, and_mask, BitVec.toNat_ofNat,
    Nat.div_eq_of_lt (by omega)]
  rfl

theorem messageSize_sendCtl (c : AuxConfig) {n : ℕ} (hn : n ≤ 20) :
    messageSize (AuxCh.sendCtl c n) = n := by
  have hsize : AuxCh.sendCtl c n &&& auxMessageSizeMask =
      BitVec.ofNat 32 n <<< 20 &&& auxMessageSizeMask := by
    have hirq : (if c.hasAuxIrq then auxInterrupt else 0) &&& auxMessageSizeMask = 0 := by
      split <;> rfl
    have hprecharge : ((if c.gen6 then 3 else 5) <<< 16 : BitVec 32) &&& auxMessageSizeMask = 0 := by
      split <;> rfl
    simp only [AuxCh.sendCtl, BitVec.and_or_distrib_right, hirq, hprecharge, divider_size,
      show auxSendBusy &&& auxMessageSizeMask = 0 by rfl,
      show auxDone &&& auxMessageSizeMask = 0 by rfl,
      show auxTimeOutError &&& auxMessageSizeMask = 0 by rfl,
      show auxReceiveError &&& auxMessageSizeMask = 0 by rfl]
    simp only [BitVec.ofNat_eq_ofNat, BitVec.or_zero, BitVec.zero_or]
  rw [messageSize, hsize]
  interval_cases n <;> rfl

/-- With its busy bit clear a status starts nothing. -/
theorem writeCtl_status {status : BitVec 32} (h : status &&& auxSendBusy = 0) (s : AuxCh) :
    s.writeCtl (status ||| auxDone ||| auxTimeOutError ||| auxReceiveError) = s := by
  rw [AuxCh.writeCtl, if_neg]
  simp only [BitVec.and_or_distrib_right, h]
  decide

/-! ### What the hardware answers to a request -/

instance : DecidablePred AuxRead.Received := fun _ => inferInstanceAs (Decidable (_ ∧ _))

/-- Whether one of the first reads finds the channel idle. -/
def firstIdle : ℕ → List AuxRead → Option (Bool × List AuxRead)
  | 0, reads => some (false, reads)
  | _ + 1, [] => none
  | n + 1, r :: reads =>
    if r.ctl &&& auxSendBusy = 0 then some (true, reads) else firstIdle n reads

/-- The read that ends the last of so many attempts. -/
def settle : ℕ → AuxRead → List AuxRead → Option (AuxRead × List AuxRead)
  | 0, r, reads => some (r, reads)
  | n + 1, _, reads => do
    let p ← AuxCh.pollBusy reads
    if p.1.Received then some p else settle n p.1 p.2

/-- The reply to a request, none inside where there is an error instead. -/
def answer (reads : List AuxRead) : Option (Option (List Byte) × List AuxRead) := do
  let idle ← firstIdle 3 reads
  if !idle.1 then some (none, idle.2)
  else
    let p ← settle 5 ⟨0, fun _ => 0⟩ idle.2
    some (if p.1.Received then some p.1.reply else none, p.2)

/-- The replies to so many requests in a row, up to the first error. -/
def answers : ℕ → List AuxRead → List (List Byte)
  | 0, _ => []
  | n + 1, reads =>
    (answer reads).elim [] fun p => p.1.elim [] fun reply => reply :: answers n p.2

/-- All that went out in between is the message, once for each attempt. -/
def Sent (send : List Byte) (s s' : AuxCh) : Prop :=
  ∃ n, s'.sent = s.sent ++ List.replicate n send

namespace AuxCh
variable {c : AuxConfig} {send : List Byte} {s s' : AuxCh} {n : ℕ}

theorem waitIdle_reads (n : ℕ) (s : AuxCh) :
    firstIdle n s.reads = (waitIdle n s).map fun p => (p.1, p.2.reads) := by
  induction n generalizing s with
  | zero => rfl
  | succ n ih =>
    rw [waitIdle, readCtl]
    cases hr : s.reads with
    | nil => rfl
    | cons r reads =>
      simp only [firstIdle, List.head?_cons, Option.map_some, Option.bind_eq_bind,
        Option.bind_some]
      split
      · rfl
      · exact ih { s with reads := reads, data := r.data, last := r }

theorem waitIdle_spec {p : Bool × AuxCh} (h : waitIdle n s = some p) :
    p.2.sent = s.sent ∧ p.2.reads.length + min n 1 ≤ s.reads.length ∧
      (p.1 = true → p.2.data = p.2.last.data) := by
  induction n generalizing s with
  | zero =>
    obtain rfl := Option.some.inj h
    exact ⟨rfl, le_rfl, fun h => nomatch h⟩
  | succ n ih =>
    rw [waitIdle, readCtl] at h
    cases hr : s.reads with
    | nil =>
      rw [hr] at h
      cases h
    | cons r reads =>
      simp only [hr, List.head?_cons, List.tail_cons, Option.map_some, Option.bind_eq_bind,
        Option.bind_some] at h
      split at h
      · obtain rfl := Option.some.inj h
        exact ⟨rfl, by simp, fun _ => rfl⟩
      · obtain ⟨hsent, hlen, hdata⟩ := ih h
        exact ⟨hsent, by simp only [List.length_cons] at hlen ⊢; omega, hdata⟩

theorem pollBusy_spec {reads : List AuxRead} {p : AuxRead × List AuxRead}
    (h : pollBusy reads = some p) :
    p.1.ctl &&& auxSendBusy = 0 ∧ p.2.length < reads.length := by
  induction reads with
  | nil => cases h
  | cons r reads ih =>
    rw [pollBusy] at h
    split at h
    case isTrue hr =>
      obtain rfl := Option.some.inj h
      exact ⟨hr, Nat.lt_succ_self _⟩
    case isFalse => exact ⟨(ih h).1, (ih h).2.trans (Nat.lt_succ_self _)⟩

/-- One attempt puts the message on the wire and takes the next reads. -/
theorem attempt_eq (hsend : send.length ≤ 20) (s : AuxCh) :
    s.attempt c send = (pollBusy s.reads).map fun p =>
      (p.1.ctl, ⟨p.2, p.1.data, p.1, s.sent ++ [send]⟩) := by
  have hsent : (s.load send).writeCtl (sendCtl c send.length) =
      { s.load send with sent := s.sent ++ [send] } := by
    rw [writeCtl, if_pos (sendCtl_busy c _), messageSize_sendCtl c hsend, wire_load]
    rfl
  rw [attempt, hsent, waitDone]
  cases hp : pollBusy s.reads with
  | none => simp [load, hp]
  | some p =>
    simp [load, hp, writeCtl_status (pollBusy_spec hp).1]

/-- Another attempt is made unless the status is that of a reply. -/
theorem attempts_succ (hsend : send.length ≤ 20) (n : ℕ) (status : BitVec 32) (s : AuxCh) :
    attempts c send (n + 1) status s = (pollBusy s.reads).bind fun p =>
      if p.1.Received then some (p.1.ctl, ⟨p.2, p.1.data, p.1, s.sent ++ [send]⟩)
      else attempts c send n p.1.ctl ⟨p.2, p.1.data, p.1, s.sent ++ [send]⟩ := by
  rw [attempts, attempt_eq hsend]
  cases pollBusy s.reads with
  | none => rfl
  | some p =>
    simp only [Option.map_some, Option.bind_eq_bind, Option.bind_some]
    by_cases hfail : p.1.ctl &&& (auxTimeOutError ||| auxReceiveError) = 0
    · by_cases hdone : p.1.ctl &&& auxDone = 0
      · rw [if_neg (not_not.mpr hfail), if_neg (not_not.mpr hdone), if_neg fun h => h.1 hdone]
      · rw [if_neg (not_not.mpr hfail), if_pos hdone, if_pos ⟨hdone, hfail⟩]
    · rw [if_pos hfail, if_neg fun h => hfail h.2]

theorem attempts_reads (hsend : send.length ≤ 20) (n : ℕ) (s : AuxCh) :
    settle n s.last s.reads =
      (attempts c send n s.last.ctl s).map fun p => (p.2.last, p.2.reads) := by
  induction n generalizing s with
  | zero => rfl
  | succ n ih =>
    rw [settle, attempts_succ hsend]
    cases pollBusy s.reads with
    | none => rfl
    | some p =>
      simp only [Option.bind_eq_bind, Option.bind_some]
      split
      · rfl
      · exact ih ⟨p.2, p.1.data, p.1, s.sent ++ [send]⟩

theorem attempts_spec (hsend : send.length ≤ 20) (hdata : s.data = s.last.data)
    {p : BitVec 32 × AuxCh} (h : attempts c send n s.last.ctl s = some p) :
    p.1 = p.2.last.ctl ∧ p.2.data = p.2.last.data ∧ Sent send s p.2 ∧
      p.2.reads.length + min n 1 ≤ s.reads.length := by
  induction n generalizing s with
  | zero =>
    obtain rfl := Option.some.inj h
    exact ⟨rfl, hdata, ⟨0, (List.append_nil _).symm⟩, le_rfl⟩
  | succ n ih =>
    rw [attempts_succ hsend] at h
    obtain ⟨q, hq, h⟩ := Option.bind_eq_some_iff.mp h
    have hlt := (pollBusy_spec hq).2
    split at h
    · obtain rfl := Option.some.inj h
      exact ⟨rfl, rfl, ⟨1, rfl⟩, by dsimp only; omega⟩
    · obtain ⟨hctl, hdata, ⟨k, hk⟩, hlen⟩ :=
        ih (s := ⟨q.2, q.1.data, q.1, s.sent ++ [send]⟩) rfl h
      refine ⟨hctl, hdata, ⟨k + 1, ?_⟩, by dsimp only at hlen; omega⟩
      rw [hk, List.append_assoc]
      rfl

end AuxCh

variable {c : AuxConfig} {send : List Byte} {recv : Mem} {size : ℕ} {s : AuxCh}

theorem errors_eq_zero (status : BitVec 32) :
    status &&& (auxTimeOutError ||| auxReceiveError) = 0 ↔
      status &&& auxTimeOutError = 0 ∧ status &&& auxReceiveError = 0 := by
  rw [BitVec.and_or_distrib_left]
  exact BitVec.or_eq_zero_iff

theorem receive_of_received (h : s.last.Received) (hdata : s.data = s.last.data)
    (hsize : size ≤ 20) : s.receive s.last.ctl recv size =
      (((min s.last.reply.length size : ℕ) : ℤ), overlay recv (s.last.reply.take size), s) := by
  obtain ⟨htimeout, hreceive⟩ := (errors_eq_zero _).mp h.2
  have hlen : min (messageSize s.last.ctl) size = min s.last.reply.length size := by
    rw [AuxRead.reply, wire, List.length_map, List.length_range]
    omega
  have htake : wire s.data (min (messageSize s.last.ctl) size) = s.last.reply.take size := by
    rw [AuxRead.reply, wire_take]
    congr 1
    omega
  rw [AuxCh.receive, if_neg h.1, if_neg (not_not.mpr hreceive), if_neg (not_not.mpr htimeout)]
  dsimp only
  rw [unload_eq, htake, hlen]

theorem receive_of_not_received (recv : Mem) (size : ℕ) (h : ¬s.last.Received) :
    ∃ e < 0, s.receive s.last.ctl recv size = (e, recv, s) := by
  unfold AuxCh.receive
  split
  · exact ⟨Errno.eBusy, by decide, rfl⟩
  case isFalse hdone =>
    split
    · exact ⟨Errno.eIo, by decide, rfl⟩
    case isFalse hreceive =>
      split
      · exact ⟨Errno.eTimedout, by decide, rfl⟩
      case isFalse htimeout =>
        exact absurd ⟨hdone, (errors_eq_zero _).mpr ⟨not_not.mp htimeout, not_not.mp hreceive⟩⟩ h

/-- The reply is the hardware's answer, and what is left to read is what it leaves. -/
theorem auxCh_answer (c : AuxConfig) (hsend : send.length ≤ 20) (recv : Mem) (hsize : size ≤ 20)
    (s : AuxCh) :
    answer s.reads = (intelDpAuxCh c send recv size s).map fun p =>
      (if p.1 < 0 then none else some p.2.2.last.reply, p.2.2.reads) := by
  rw [answer, intelDpAuxCh, AuxCh.waitIdle_reads]
  cases hi : AuxCh.waitIdle 3 s with
  | none => rfl
  | some idle =>
    simp only [Option.map_some, Option.bind_eq_bind, Option.bind_some]
    split
    · rfl
    case isFalse hidle =>
      have hdata := (AuxCh.waitIdle_spec hi).2.2 (by simpa using hidle)
      have hsettle : settle 5 ⟨0, fun _ => 0⟩ idle.2.reads =
          settle 5 idle.2.last idle.2.reads := rfl
      rw [hsettle, AuxCh.attempts_reads hsend (c := c)]
      cases ha : AuxCh.attempts c send 5 idle.2.last.ctl idle.2 with
      | none => rfl
      | some p =>
        obtain ⟨hctl, hdata, -, -⟩ := AuxCh.attempts_spec hsend hdata ha
        simp only [Option.map_some, Option.bind_some]
        rw [hctl]
        by_cases hr : p.2.last.Received
        · rw [receive_of_received hr hdata hsize, if_pos hr, if_neg (by omega)]
        · obtain ⟨e, he, hreceive⟩ := receive_of_not_received recv size hr
          rw [hreceive, if_neg hr, if_pos he]

variable {p : ℤ × Mem × AuxCh}

/-- What a call does: it sends the message and nothing else, and it fails or hands over the start
of the reply that it received. -/
theorem auxCh_spec (hsend : send.length ≤ 20) (hsize : size ≤ 20)
    (h : intelDpAuxCh c send recv size s = some p) :
    Sent send s p.2.2 ∧ p.2.2.reads.length < s.reads.length ∧
      (p.1 < 0 ∨ p.2.2.last.Received ∧ p.1 = (min p.2.2.last.reply.length size : ℕ) ∧
        p.2.1 = overlay recv (p.2.2.last.reply.take size)) := by
  obtain ⟨idle, hidle, h⟩ := Option.bind_eq_some_iff.mp h
  obtain ⟨hsent, hlen, hdata⟩ := AuxCh.waitIdle_spec hidle
  have hidleSent : Sent send s idle.2 := ⟨0, by rw [hsent]; exact (List.append_nil _).symm⟩
  split at h
  · obtain rfl := Option.some.inj h
    exact ⟨hidleSent, hlen, .inl (show Errno.eBusy < 0 by decide)⟩
  case isFalse hnot =>
    obtain ⟨q, hq, h⟩ := Option.bind_eq_some_iff.mp h
    obtain ⟨hctl, hdata, ⟨k, hk⟩, hlen'⟩ :=
      AuxCh.attempts_spec hsend (hdata (by simpa using hnot)) hq
    have hsent' : Sent send s q.2 := ⟨k, by rw [hk, hsent]⟩
    rw [hctl] at h
    obtain rfl := Option.some.inj h
    by_cases hr : q.2.last.Received
    · rw [receive_of_received hr hdata hsize]
      exact ⟨hsent', by dsimp only; omega, .inr ⟨hr, rfl, rfl⟩⟩
    · obtain ⟨e, he, hreceive⟩ := receive_of_not_received recv size hr
      rw [hreceive]
      exact ⟨hsent', by dsimp only; omega, .inl he⟩

/-! ### A request made over again -/

/-- No reply that ends the exchange with an ACK in the buffer is shorter than `need`: `b` is the
first byte of the buffer, which an empty reply leaves as it is. -/
def LongEnough (acks defers : Byte → Bool) (need : ℕ) : Byte → List (List Byte) → Prop
  | _, [] => True
  | b, reply :: replies =>
    if acks (reply.headD b) then need ≤ reply.length
    else if defers (reply.headD b) then LongEnough acks defers need (reply.headD b) replies
    else True

/-- What is returned depends on the first byte of the buffer in the way of an ACK and a DEFER. -/
structure Judges (judge : ℤ → Mem → Option ℤ) (acks defers : Byte → Bool) : Prop where
  failed : ∀ ret reply, ret < 0 → judge ret reply = some ret
  acked : ∀ ret reply, 0 ≤ ret → acks (reply 0) → ∃ v, 0 ≤ v ∧ judge ret reply = some v
  deferred : ∀ ret reply, 0 ≤ ret → ¬acks (reply 0) → defers (reply 0) → judge ret reply = none
  rejected : ∀ ret reply, 0 ≤ ret → ¬acks (reply 0) → ¬defers (reply 0) →
    ∃ v < 0, judge ret reply = some v

section exchange
variable {msg : List Byte} {judge : ℤ → Mem → Option ℤ} {out : Option ℤ} {reply : Mem} {n : ℕ}
  {acks defers : Byte → Bool} {need : ℕ}

theorem overlay_zero (m : Mem) (l : List Byte) (hsize : 0 < size) :
    overlay m (l.take size) 0 = l.headD (m 0) := by
  cases l with
  | nil => simp [overlay]
  | cons b l =>
    obtain ⟨k, rfl⟩ := Nat.exists_eq_add_one.mpr hsize
    rfl

theorem Sent.trans {s₁ s₂ s₃ : AuxCh} (h : Sent send s₁ s₂) (h' : Sent send s₂ s₃) :
    Sent send s₁ s₃ := by
  obtain ⟨k, hk⟩ := h
  obtain ⟨l, hl⟩ := h'
  exact ⟨k + l, by rw [hl, hk, List.append_assoc, List.replicate_add]⟩

theorem exchange_sent (hmsg : msg.length ≤ 20) (hsize : size ≤ 20)
    (h : exchange c msg size judge out n reply s = some p) : Sent msg s p.2.2 := by
  induction n generalizing reply s with
  | zero =>
    obtain ⟨v, -, rfl⟩ := Option.map_eq_some_iff.mp h
    exact ⟨0, (List.append_nil _).symm⟩
  | succ n ih =>
    obtain ⟨q, hq, h⟩ := Option.bind_eq_some_iff.mp h
    have hsent := (auxCh_spec hmsg hsize hq).1
    cases hj : judge q.1 q.2.1 with
    | none =>
      rw [hj] at h
      exact hsent.trans (ih h)
    | some v =>
      rw [hj] at h
      obtain rfl := Option.some.inj h
      exact hsent

/-- An exchange that succeeds ends with what was made of a reply that came in. -/
theorem exchange_spec (hmsg : msg.length ≤ 20) (hsize : size ≤ 20) (hout : ∀ v ∈ out, v < 0)
    (hfail : ∀ ret reply, ret < 0 → judge ret reply = some ret)
    (h : exchange c msg size judge out n reply s = some p) (hp : 0 ≤ p.1) :
    p.2.2.last.Received ∧ ∃ m, p.2.1 = overlay m (p.2.2.last.reply.take size) ∧
      judge (min p.2.2.last.reply.length size : ℕ) p.2.1 = some p.1 := by
  induction n generalizing reply s with
  | zero =>
    obtain ⟨v, hv, rfl⟩ := Option.map_eq_some_iff.mp h
    exact absurd hp (not_le.mpr (hout v hv))
  | succ n ih =>
    obtain ⟨q, hq, h⟩ := Option.bind_eq_some_iff.mp h
    obtain ⟨-, -, hneg | ⟨hr, hret, hreply⟩⟩ := auxCh_spec hmsg hsize hq
    · rw [hfail _ _ hneg] at h
      obtain rfl := Option.some.inj h
      exact absurd hp (not_le.mpr hneg)
    · cases hj : judge q.1 q.2.1 with
      | none =>
        rw [hj] at h
        exact ih h
      | some v =>
        rw [hj] at h
        obtain rfl := Option.some.inj h
        exact ⟨hr, reply, hreply, hret ▸ hj⟩

/-- The reply at which an exchange succeeds is long enough, exactly where all are. -/
theorem exchange_longEnough_iff (hmsg : msg.length ≤ 20) (hsize : size ≤ 20) (hpos : 0 < size)
    (hout : ∀ v ∈ out, v < 0) (hj : Judges judge acks defers) :
    LongEnough acks defers need (reply 0) (answers n s.reads) ↔
      ∀ p, exchange c msg size judge out n reply s = some p → 0 ≤ p.1 →
        need ≤ p.2.2.last.reply.length := by
  induction n generalizing reply s with
  | zero =>
    refine iff_of_true trivial fun p hp hret => ?_
    obtain ⟨v, hv, rfl⟩ := Option.map_eq_some_iff.mp hp
    exact absurd hret (not_le.mpr (hout v hv))
  | succ n ih =>
    rw [answers, auxCh_answer c hmsg reply hsize, exchange]
    cases hq : intelDpAuxCh c msg reply size s with
    | none => exact iff_of_true trivial fun p hp => nomatch hp
    | some q =>
      simp only [Option.map_some, Option.bind_eq_bind, Option.bind_some]
      obtain ⟨-, -, hneg | ⟨-, hret, hreply⟩⟩ := auxCh_spec hmsg hsize hq
      · rw [if_pos hneg, hj.failed _ _ hneg]
        refine iff_of_true trivial fun p hp hret => ?_
        obtain rfl := Option.some.inj hp
        exact absurd hret (not_le.mpr hneg)
      · have h0 : 0 ≤ q.1 := by omega
        have hhead : q.2.2.last.reply.headD (reply 0) = q.2.1 0 := by
          rw [hreply, overlay_zero _ _ hpos]
        rw [if_neg (not_lt.mpr h0)]
        simp only [Option.elim_some, LongEnough, hhead]
        by_cases hack : acks (q.2.1 0)
        · obtain ⟨v, hv, hjudge⟩ := hj.acked _ _ h0 hack
          rw [if_pos hack, hjudge]
          constructor
          · intro hlong p hp _
            obtain rfl := Option.some.inj hp
            exact hlong
          · intro hall
            exact hall (v, q.2) rfl hv
        · by_cases hdefer : defers (q.2.1 0)
          · rw [if_neg hack, if_pos hdefer, hj.deferred _ _ h0 hack hdefer]
            exact ih
          · obtain ⟨v, hv, hjudge⟩ := hj.rejected _ _ h0 hack hdefer
            rw [if_neg hack, if_neg hdefer, hjudge]
            refine iff_of_true trivial fun p hp hret => ?_
            obtain rfl := Option.some.inj hp
            exact absurd hret (not_le.mpr hv)

end exchange

/-! ### Steps -/

/-- A native write or read of at most 16 bytes, or a step of i2c over AUX. -/
inductive Request
  | write (address : BitVec 16) (send : List Byte) (h : send.length ≤ 16)
  | read (address : BitVec 16) (recvBytes : ℕ) (h : recvBytes ≤ 16)
  | i2c (mode : BitVec 32) (address : BitVec 16) (writeByte : Byte)

namespace Request

/-- The call: `stack` is what its local buffer holds before, `recv` what the caller's holds. -/
def call (c : AuxConfig) (stack recv : Mem) (s : AuxCh) : Request → Option Outcome
  | write address send _ => intelDpAuxNativeWrite c address send stack recv s
  | read address recvBytes _ => intelDpAuxNativeRead c address recvBytes stack recv s
  | i2c mode address writeByte => intelDpI2cAuxCh c mode address writeByte stack recv s

/-- The header and the payload. -/
def message : Request → List Byte
  | write address send _ => nativeHeader auxNativeWrite address send.length ++ send
  | read address recvBytes _ => nativeHeader auxNativeRead address recvBytes
  | i2c mode address writeByte => i2cMessage mode address writeByte

/-- Whether bytes are asked for. -/
def Asks : Request → Prop
  | write .. => False
  | read .. => True
  | i2c mode .. => mode = modeI2cRead

/-- The size of the caller's buffer. -/
def bufferSize : Request → ℕ
  | write .. => 0
  | read _ recvBytes _ => recvBytes
  | i2c mode .. => if mode = modeI2cRead then 1 else 0

end Request

def nativeAcks (b : Byte) : Bool := b &&& auxNativeReplyMask = auxNativeReplyAck

def nativeDefers (b : Byte) : Bool := b &&& auxNativeReplyMask = auxNativeReplyDefer

def i2cAcks (b : Byte) : Bool := nativeAcks b ∧ b &&& auxI2cReplyMask = auxI2cReplyAck

def i2cDefers (b : Byte) : Bool :=
  nativeDefers b ∨ nativeAcks b ∧ b &&& auxI2cReplyMask = auxI2cReplyDefer

namespace Request

/-- The reply code that lets the request through. -/
def acks : Request → Byte → Bool
  | i2c .. => i2cAcks
  | _ => nativeAcks

/-- The message is what went out, and a success stands on an ACK that came in: the bytes handed
over are those that came with it, as many as there were, and none is beyond the caller's buffer. -/
structure Honest (q : Request) (recv : Mem) (s : AuxCh) (o : Outcome) : Prop where
  sent : Sent q.message s o.ch
  acked : 0 ≤ o.ret → o.ch.last.Received ∧ ∃ b data, o.ch.last.reply = b :: data ∧ q.acks b ∧
    (q.Asks → o.ret = (min data.length q.bufferSize : ℕ) ∧
      ∀ i < min data.length q.bufferSize, o.recv i = data.getD i 0)
  kept : ∀ i, q.bufferSize ≤ i → o.recv i = recv i

/-- No reply to the request is too short for what is looked at when the buffer holds an ACK. -/
def RepliesLongEnough (stack : Mem) (reads : List AuxRead) : Request → Prop
  | write .. => LongEnough nativeAcks nativeDefers 1 (stack 0) (answers (reads.length + 1) reads)
  | read .. => True
  | i2c mode .. => LongEnough i2cAcks i2cDefers (i2cReplyBytes mode) (stack 0) (answers 5 reads)

end Request

theorem judgeNative_ack {ret : ℤ} {ack : Byte} (h : nativeAcks ack) :
    judgeNative ret ack = some ret := if_pos (of_decide_eq_true h)

theorem judgeNative_defer {ret : ℤ} {ack : Byte} (h : ¬nativeAcks ack) (hd : nativeDefers ack) :
    judgeNative ret ack = none := by
  rw [judgeNative, if_neg (mt decide_eq_true h), if_pos (of_decide_eq_true hd)]

theorem judgeNative_reject {ret : ℤ} {ack : Byte} (h : ¬nativeAcks ack) (hd : ¬nativeDefers ack) :
    judgeNative ret ack = some Errno.eIo := by
  rw [judgeNative, if_neg (mt decide_eq_true h), if_neg (mt decide_eq_true hd)]

theorem judges_write (n : ℕ) : Judges (judgeWrite n) nativeAcks nativeDefers where
  failed ret reply h := if_pos h
  acked ret reply h hack := ⟨n, Int.natCast_nonneg n, by
    rw [judgeWrite, if_neg (not_lt.mpr h), judgeNative_ack hack]⟩
  deferred ret reply h hack hdefer := by
    rw [judgeWrite, if_neg (not_lt.mpr h), judgeNative_defer hack hdefer]
  rejected ret reply h hack hdefer := ⟨Errno.eIo, by decide, by
    rw [judgeWrite, if_neg (not_lt.mpr h), judgeNative_reject hack hdefer]⟩

theorem judges_i2c {n : ℕ} (hn : 0 < n) : Judges (judgeI2c n) i2cAcks i2cDefers where
  failed ret reply h := if_pos h
  acked ret reply h hack := by
    obtain ⟨hnative, hi2c⟩ := of_decide_eq_true hack
    refine ⟨(n : ℤ) - 1, by omega, ?_⟩
    rw [judgeI2c, if_neg (not_lt.mpr h), if_pos (of_decide_eq_true hnative), if_pos hi2c]
  deferred ret reply h hack hdefer := by
    rw [judgeI2c, if_neg (not_lt.mpr h)]
    obtain hnative | ⟨hnative, hi2c⟩ := of_decide_eq_true hdefer
    · rw [of_decide_eq_true hnative, if_neg (by decide), if_neg (by decide), if_pos rfl]
    · rw [hi2c, if_pos (of_decide_eq_true hnative), if_neg (by decide), if_neg (by decide),
        if_pos rfl]
  rejected ret reply h hack hdefer := by
    refine ⟨Errno.eIo, by decide, ?_⟩
    rw [judgeI2c, if_neg (not_lt.mpr h)]
    obtain ⟨hd, hd'⟩ := not_or.mp (mt decide_eq_true hdefer)
    split
    case isTrue hnative =>
      have hnative : nativeAcks (reply 0) := decide_eq_true hnative
      rw [if_neg fun hi2c => hack (decide_eq_true ⟨hnative, hi2c⟩),
        if_neg (c := _ = auxI2cReplyDefer) fun hi2c => hd' ⟨hnative, hi2c⟩, ite_self]
    case isFalse =>
      rw [if_neg (c := _ = auxNativeReplyDefer) (mt decide_eq_true hd), ite_self]

/-- What is returned after a reply other than an error stands on an ACK in the buffer. -/
theorem Judges.acks_of_nonneg {judge : ℤ → Mem → Option ℤ} {acks defers : Byte → Bool}
    (hj : Judges judge acks defers) {ret v : ℤ} {reply : Mem} (hret : 0 ≤ ret) (hv : 0 ≤ v)
    (h : judge ret reply = some v) : acks (reply 0) := by
  by_contra hack
  by_cases hdefer : defers (reply 0)
  · rw [hj.deferred ret reply hret hack hdefer] at h
    cases h
  · obtain ⟨w, hw, hjudge⟩ := hj.rejected ret reply hret hack hdefer
    rw [hjudge] at h
    obtain rfl := Option.some.inj h
    exact absurd hv (not_le.mpr hw)

/-- The first bytes of the buffer are those of a reply that has as many. -/
theorem overlay_take {m : Mem} {l : List Byte} {i : ℕ} (hi : i < size) (hl : i < l.length) :
    overlay m (l.take size) i = l.getD i 0 := by
  rw [overlay, List.getD_eq_getElem _ _ (by rw [List.length_take]; omega), List.getElem_take,
    List.getD_eq_getElem _ _ hl]

section steps
variable {recv stack : Mem} {s : AuxCh}

/-- An ACK in the buffer is that of a reply that is not empty. -/
theorem acked_cons {acks : Byte → Bool} {m reply : Mem} {l : List Byte} (hsize : 0 < size)
    (hreply : reply = overlay m (l.take size)) (hack : acks (reply 0)) (hl : 0 < l.length) :
    ∃ b data, l = b :: data ∧ acks b := by
  cases l with
  | nil => exact absurd hl (lt_irrefl 0)
  | cons b data =>
    rw [hreply, overlay_zero m _ hsize] at hack
    exact ⟨b, data, rfl, hack⟩

theorem write_honest_iff (c : AuxConfig) (address : BitVec 16) (send : List Byte)
    (hlen : send.length ≤ 16) :
    (∀ o, (Request.write address send hlen).call c stack recv s = some o →
      (Request.write address send hlen).Honest recv s o) ↔
      (Request.write address send hlen).RepliesLongEnough stack s.reads := by
  have hmsg : (Request.write address send hlen).message.length ≤ 20 := by
    rw [Request.message, List.length_append]
    exact Nat.add_le_add_left hlen 4
  have hj := judges_write send.length
  have hcall : (Request.write address send hlen).call c stack recv s =
      (exchange c (Request.write address send hlen).message 1 (judgeWrite send.length) none
        (s.reads.length + 1) stack s).map fun p => ⟨p.1, recv, p.2.2⟩ := if_neg (not_lt.mpr hlen)
  rw [Request.RepliesLongEnough, exchange_longEnough_iff (c := c) hmsg
    (show 1 ≤ 20 by decide) (by decide) (show ∀ v ∈ (none : Option ℤ), v < 0 by simp) hj, hcall]
  constructor
  · intro h p hp hret
    obtain ⟨-, b, data, hreply, -⟩ := (h _ (Option.map_eq_some_iff.mpr ⟨p, hp, rfl⟩)).acked hret
    rw [hreply]
    exact Nat.succ_pos _
  · intro h o ho
    obtain ⟨p, hp, rfl⟩ := Option.map_eq_some_iff.mp ho
    refine ⟨exchange_sent hmsg (by decide) hp, fun hret => ?_, fun _ _ => rfl⟩
    obtain ⟨hr, m, hreply, hjudge⟩ := exchange_spec hmsg (by decide) (by simp) hj.failed hp hret
    obtain ⟨b, data, hcons, hack⟩ := acked_cons (by decide) hreply
      (hj.acks_of_nonneg (Int.natCast_nonneg _) hret hjudge) (h p hp hret)
    exact ⟨hr, b, data, hcons, hack, False.elim⟩

theorem judgeRead_failed {ret : ℤ} (reply : Mem) (h : ret < 0) : judgeRead ret reply = some ret := by
  rw [judgeRead, if_neg h.ne, if_pos h]

theorem judgeRead_nonneg {ret v : ℤ} {reply : Mem} (h : judgeRead ret reply = some v)
    (hv : 0 ≤ v) : 0 < ret ∧ nativeAcks (reply 0) ∧ v = ret - 1 := by
  rw [judgeRead] at h
  split at h
  · obtain rfl := Option.some.inj h
    exact absurd hv (by decide)
  · split at h
    · obtain rfl := Option.some.inj h
      omega
    · by_cases hack : nativeAcks (reply 0)
      · rw [judgeNative_ack hack] at h
        exact ⟨by omega, hack, (Option.some.inj h).symm⟩
      · by_cases hdefer : nativeDefers (reply 0)
        · rw [judgeNative_defer hack hdefer] at h
          cases h
        · rw [judgeNative_reject hack hdefer] at h
          obtain rfl := Option.some.inj h
          exact absurd hv (by decide)

/-- A native read looks at nothing but what it received. -/
theorem read_honest (c : AuxConfig) (address : BitVec 16) {n : ℕ} (hn : n ≤ 16) {o : Outcome}
    (h : (Request.read address n hn).call c stack recv s = some o) :
    (Request.read address n hn).Honest recv s o := by
  obtain ⟨p, hp, rfl⟩ := Option.map_eq_some_iff.mp h
  have hmsg : (Request.read address n hn).message.length ≤ 20 := show 4 ≤ 20 by decide
  refine ⟨exchange_sent hmsg (by omega) hp, fun hret => ?_, fun i hi => ?_⟩
  · obtain ⟨hr, m, hreply, hjudge⟩ := exchange_spec hmsg (by omega) (by simp)
      (fun ret reply => judgeRead_failed reply) hp hret
    obtain ⟨hpos, hack, hv⟩ := judgeRead_nonneg hjudge hret
    obtain ⟨b, data, hcons, hack⟩ := acked_cons (Nat.succ_pos n) hreply hack (by omega)
    have hlen : p.2.2.last.reply.length = data.length + 1 := by rw [hcons]; rfl
    have hmin : p.1 = (min data.length n : ℕ) := by omega
    refine ⟨hr, b, data, hcons, hack, fun _ => ⟨hmin, fun i hi => ?_⟩⟩
    have hi : i < min data.length n := hi
    dsimp only
    rw [if_pos (by omega), hreply, overlay_take (by omega) (by omega), hcons]
    rfl
  · have hle : p.1 ≤ n := by
      by_contra hlt
      obtain ⟨-, m, -, hjudge⟩ := exchange_spec hmsg (by omega) (by simp)
        (fun ret reply => judgeRead_failed reply) hp (by omega)
      obtain ⟨-, -, hv⟩ := judgeRead_nonneg hjudge (by omega)
      omega
    have hi : n ≤ i := hi
    exact if_neg (by omega)

theorem i2cMessage_length (mode : BitVec 32) (address : BitVec 16) (writeByte : Byte) :
    (i2cMessage mode address writeByte).length ≤ 5 := by
  unfold i2cMessage
  split
  · exact le_rfl
  · split <;> exact Nat.le_of_ble_eq_true rfl

theorem i2cReplyBytes_cases (mode : BitVec 32) :
    mode = modeI2cRead ∧ i2cReplyBytes mode = 2 ∨ mode ≠ modeI2cRead ∧ i2cReplyBytes mode = 1 := by
  unfold i2cReplyBytes
  split
  · exact .inl ⟨‹_›, rfl⟩
  · exact .inr ⟨‹_›, rfl⟩

/-- A success of an i2c step is an ACK in the buffer. -/
theorem judgeI2c_nonneg {n : ℕ} {ret v : ℤ} {reply : Mem} (hn : 0 < n) (hret : 0 ≤ ret)
    (h : judgeI2c n ret reply = some v) (hv : 0 ≤ v) : v = (n : ℤ) - 1 := by
  obtain ⟨hnative, hi2c⟩ := of_decide_eq_true ((judges_i2c hn).acks_of_nonneg hret hv h)
  rw [judgeI2c, if_neg (not_lt.mpr hret), if_pos (of_decide_eq_true hnative), if_pos hi2c] at h
  exact (Option.some.inj h).symm

theorem i2c_honest_iff (c : AuxConfig) (mode : BitVec 32) (address : BitVec 16)
    (writeByte : Byte) :
    (∀ o, (Request.i2c mode address writeByte).call c stack recv s = some o →
      (Request.i2c mode address writeByte).Honest recv s o) ↔
      (Request.i2c mode address writeByte).RepliesLongEnough stack s.reads := by
  have hmsg : (Request.i2c mode address writeByte).message.length ≤ 20 :=
    (i2cMessage_length mode address writeByte).trans (by decide)
  have hsize : i2cReplyBytes mode ≤ 20 := by
    obtain ⟨-, h⟩ | ⟨-, h⟩ := i2cReplyBytes_cases mode <;> rw [h] <;> decide
  have hpos : 0 < i2cReplyBytes mode := by
    obtain ⟨-, h⟩ | ⟨-, h⟩ := i2cReplyBytes_cases mode <;> rw [h] <;> decide
  have hout : ∀ v ∈ some Errno.eIo, v < 0 := fun v hv => Option.some.inj hv ▸ by decide
  have hj := judges_i2c hpos
  rw [Request.RepliesLongEnough, exchange_longEnough_iff (c := c) hmsg hsize hpos hout hj]
  constructor
  · intro h p hp hret
    obtain ⟨-, b, data, hreply, -, hasks⟩ :=
      (h _ (Option.map_eq_some_iff.mpr ⟨p, hp, rfl⟩)).acked hret
    rw [hreply]
    obtain ⟨hread, htwo⟩ | ⟨-, hone⟩ := i2cReplyBytes_cases mode
    · obtain ⟨-, m, -, hjudge⟩ := exchange_spec hmsg hsize hout hj.failed hp hret
      have hv := judgeI2c_nonneg hpos (Int.natCast_nonneg _) hjudge hret
      have hmin : p.1 = (min data.length (if mode = modeI2cRead then 1 else 0) : ℕ) :=
        (hasks hread).1
      rw [List.length_cons]
      omega
    · rw [hone]
      exact Nat.succ_pos _
  · intro h o ho
    obtain ⟨p, hp, rfl⟩ := Option.map_eq_some_iff.mp ho
    refine ⟨exchange_sent hmsg hsize hp, fun hret => ?_, fun i hi => ?_⟩
    · obtain ⟨hr, m, hreply, hjudge⟩ := exchange_spec hmsg hsize hout hj.failed hp hret
      have hlong := h p hp hret
      obtain ⟨b, data, hcons, hack⟩ := acked_cons hpos hreply
        (hj.acks_of_nonneg (Int.natCast_nonneg _) hret hjudge) (hpos.trans_le hlong)
      refine ⟨hr, b, data, hcons, hack, fun hread => ?_⟩
      have hv := judgeI2c_nonneg hpos (Int.natCast_nonneg _) hjudge hret
      have htwo : i2cReplyBytes mode = 2 := if_pos hread
      have hsize : (Request.i2c mode address writeByte).bufferSize = 1 := if_pos hread
      have hlen : p.2.2.last.reply.length = data.length + 1 := by rw [hcons]; rfl
      refine ⟨by dsimp only; omega, fun i hi => ?_⟩
      obtain rfl : i = 0 := by omega
      rw [if_pos ⟨hret, hread⟩, hreply, overlay_take (by omega) (by omega),
        hcons]
      rfl
    · split
      case isTrue hread =>
        have hsize : (Request.i2c mode address writeByte).bufferSize = 1 := if_pos hread.2
        exact Function.update_of_ne (by omega) _ _
      case isFalse => rfl

end steps

/-- Every step does as it reports exactly where no reply that it takes for an ACK is too short. -/
theorem aux_step_honest_iff (c : AuxConfig) (q : Request) (stack recv : Mem) (s : AuxCh) :
    (∀ o, q.call c stack recv s = some o → q.Honest recv s o) ↔
      q.RepliesLongEnough stack s.reads := by
  cases q with
  | write address send h => exact write_honest_iff c address send h
  | read address n h => exact iff_of_true (fun o ho => read_honest c address h ho) trivial
  | i2c mode address writeByte => exact i2c_honest_iff c mode address writeByte

/-- A channel that is idle and then ends the transfer with no byte in return. -/
def silentAux : AuxCh where
  reads := [⟨0, fun _ => 0⟩, ⟨auxDone, fun _ => 0⟩]
  data _ := 0
  last := ⟨0, fun _ => 0⟩

/-- A write of one byte over that channel, with a stack of zeros. -/
def silentWrite : Option Outcome :=
  (Request.write 0x600 [1] (by decide)).call ⟨false, false, 100⟩ (fun _ => 0) (fun _ => 0)
    silentAux

/-- Nothing comes back, and the write reports success as the stack happens to hold an ACK. -/
theorem aux_write_unacked : ¬∀ o, silentWrite = some o →
    (Request.write 0x600 [1] (by decide)).Honest (fun _ => 0) silentAux o := by
  intro h
  have hret : silentWrite.map (fun o => (o.ret, o.ch.last.reply)) = some (1, []) := by
    decide +kernel
  obtain ⟨o, ho, hpair⟩ := Option.map_eq_some_iff.mp hret
  obtain ⟨hone, hempty⟩ := Prod.ext_iff.mp hpair
  dsimp only at hone hempty
  obtain ⟨-, b, data, hreply, -⟩ := (h o ho).acked (by omega)
  rw [hempty] at hreply
  cases hreply

end GfxDrm.Dp
