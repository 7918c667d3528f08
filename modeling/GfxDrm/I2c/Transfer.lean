import GfxDrm.I2c.BitBang

/-! i2c_transfer over the bit-banged bus. -/

namespace GfxDrm.I2c
open Hoare

/-- i2c_msg with the flags I2C_M_RD and I2C_M_NOSTART; `buf` is where its bytes are. -/
structure I2cMsg where
  addr : BitVec 16
  rd : Bool := false
  nostart : Bool := false
  len : ℕ
  buf : ℕ

variable {δ : Type}

namespace I2cAdapter
variable (a : I2cAdapter δ)

/-- i2c_wait_ack as i2c_write_msg and i2c_address take its result. -/
def acked : StateM (Bus δ) ℤ := do
  let ret ← a.i2cWaitAck
  if ret = 1 then pure 0
  else if ret = 0 then pure Errno.eNxio
  else pure ret

/-- i2c_write_msg from `p` on. -/
def i2cWriteMsg (p : ℕ) : ℕ → StateM (Bus δ) ℤ
  | 0 => pure 0
  | n + 1 => do
    let s ← get
    let ret ← a.i2cWriteByte (s.mem p)
    if ret ≠ 0 then pure ret
    else
      let ret ← a.acked
      if ret ≠ 0 then pure ret else i2cWriteMsg (p + 1) n

/-- i2c_read_byte into the buffer. -/
def readTo (p : ℕ) : StateM (Bus δ) ℤ := do
  let (ret, c) ← a.i2cReadByte
  if ret ≠ 0 then pure ret
  else
    modify fun s => { s with mem := Function.update s.mem p c }
    pure 0

/-- i2c_read_msg from `p` on. -/
def i2cReadMsg (p : ℕ) : ℕ → StateM (Bus δ) ℤ
  | 0 => pure 0
  | n + 1 => do
    let ret ← a.readTo p
    if ret ≠ 0 then pure ret
    else
      let ret ← if 0 < n then a.i2cAck else a.i2cNoAck
      if ret ≠ 0 then pure ret else i2cReadMsg (p + 1) n

/-- The byte i2c_address writes. -/
def addrByte (msg : I2cMsg) : BitVec 8 :=
  let addr := (msg.addr <<< 1).setWidth 8
  if msg.rd then addr ||| 1 else addr

def i2cAddress (msg : I2cMsg) : StateM (Bus δ) ℤ := do
  let ret ← a.i2cWriteByte (addrByte msg)
  if ret ≠ 0 then pure ret else a.acked

/-- A message after the first may go on without a start condition. -/
def openMsg (i : ℕ) (msg : I2cMsg) : StateM (Bus δ) ℤ :=
  if i ≠ 0 ∧ msg.nostart then pure 0
  else do
    let ret ← a.i2cStart
    if ret ≠ 0 then pure ret else a.i2cAddress msg

def moveMsg (msg : I2cMsg) : StateM (Bus δ) ℤ :=
  if msg.rd then a.i2cReadMsg msg.buf msg.len else a.i2cWriteMsg msg.buf msg.len

/-- The loop of i2c_do_transfer. -/
def doMsgs : ℕ → List I2cMsg → StateM (Bus δ) ℤ
  | _, [] => pure 0
  | i, msg :: msgs => do
    let ret ← a.openMsg i msg
    if ret ≠ 0 then pure ret
    else
      let ret ← a.moveMsg msg
      if ret ≠ 0 then pure ret else doMsgs (i + 1) msgs

def i2cDoTransfer (msgs : List I2cMsg) : StateM (Bus δ) ℤ := do
  let ret ← a.doMsgs 0 msgs
  if ret ≠ 0 then pure ret
  else
    let ret ← a.i2cStop
    if ret ≠ 0 then pure ret else pure msgs.length

/-- `(ddi_get_lbolt() - start) > adap->timeout`. -/
def late (start : ℤ) : StateM (Bus δ) Bool := do
  let now ← a.ddiGetLbolt
  pure (decide (now - start > a.timeout))

/-- The loop of i2c_transfer with what it has in `ret`; it tells what each attempt returned. -/
def attempts (msgs : List I2cMsg) (start : ℤ) : ℕ → ℤ → StateM (Bus δ) (ℤ × List ℤ)
  | 0, ret => pure (ret, [])
  | n + 1, _ => do
    let ret ← a.i2cDoTransfer msgs
    -- the cases of the switch
    if ret = 0 ∨ ret = 145 then pure (ret, [ret])
    else
      let late ← a.late start
      if late then pure (ret, [ret])
      else
        let (res, rets) ← attempts msgs start n ret
        pure (res, ret :: rets)

def i2cTransfer (msgs : List I2cMsg) : StateM (Bus δ) (ℤ × List ℤ) := do
  let start ← a.ddiGetLbolt
  a.attempts msgs start (a.retries + 1).toNat 0

end I2cAdapter

/-! ### What a transfer does, one operation after the other -/

inductive I2cOp where
  | start
  | write (c : BitVec 8)
  | writeFrom (p : ℕ)
  | acked
  | readTo (p : ℕ)
  | ack
  | noAck
  | stop
  deriving DecidableEq

def writeScript (p : ℕ) : ℕ → List I2cOp
  | 0 => []
  | n + 1 => .writeFrom p :: .acked :: writeScript (p + 1) n

/-- The last byte is not acknowledged. -/
def readScript (p : ℕ) : ℕ → List I2cOp
  | 0 => []
  | n + 1 => .readTo p :: (if 0 < n then .ack else .noAck) :: readScript (p + 1) n

def openScript (i : ℕ) (msg : I2cMsg) : List I2cOp :=
  if i ≠ 0 ∧ msg.nostart then [] else [.start, .write (I2cAdapter.addrByte msg), .acked]

def moveScript (msg : I2cMsg) : List I2cOp :=
  if msg.rd then readScript msg.buf msg.len else writeScript msg.buf msg.len

def msgsScript : ℕ → List I2cMsg → List I2cOp
  | _, [] => []
  | i, msg :: msgs => openScript i msg ++ (moveScript msg ++ msgsScript (i + 1) msgs)

/-- What i2c_do_transfer does. -/
def script (msgs : List I2cMsg) : List I2cOp := msgsScript 0 msgs ++ [.stop]

namespace I2cAdapter
variable (a : I2cAdapter δ)

def run : I2cOp → StateM (Bus δ) ℤ
  | .start => a.i2cStart
  | .write c => a.i2cWriteByte c
  | .writeFrom p => do
    let s ← get
    a.i2cWriteByte (s.mem p)
  | .acked => a.acked
  | .readTo p => a.readTo p
  | .ack => a.i2cAck
  | .noAck => a.i2cNoAck
  | .stop => a.i2cStop

theorem writeMsg_eq (p n : ℕ) : a.i2cWriteMsg p n = carry ((writeScript p n).map a.run) := by
  induction n generalizing p with
  | zero => rfl
  | succ n ih =>
    rw [i2cWriteMsg, ih]
    rfl

theorem readMsg_eq (p n : ℕ) : a.i2cReadMsg p n = carry ((readScript p n).map a.run) := by
  induction n generalizing p with
  | zero => rfl
  | succ n ih =>
    rw [i2cReadMsg, ih]
    by_cases hn : 0 < n
    · simp only [readScript, hn, if_true, List.map_cons, run, carry]
    · simp only [readScript, hn, if_false, List.map_cons, run, carry]

theorem openMsg_eq (i : ℕ) (msg : I2cMsg) :
    a.openMsg i msg = carry ((openScript i msg).map a.run) := by
  unfold openMsg openScript i2cAddress
  split
  · rfl
  · rw [← carry_one a.acked]
    rfl

theorem moveMsg_eq (msg : I2cMsg) : a.moveMsg msg = carry ((moveScript msg).map a.run) := by
  unfold moveMsg moveScript
  split
  · exact a.readMsg_eq _ _
  · exact a.writeMsg_eq _ _

theorem doMsgs_eq (i : ℕ) (msgs : List I2cMsg) :
    a.doMsgs i msgs = carry ((msgsScript i msgs).map a.run) := by
  induction msgs generalizing i with
  | nil => rfl
  | cons msg msgs ih =>
    rw [msgsScript, List.map_append, List.map_append, carry_append, carry_append, ← ih,
      ← openMsg_eq, ← moveMsg_eq]
    rfl

/-- A transfer is its script, and it returns the number of messages if the bus goes along. -/
theorem doTransfer_eq (msgs : List I2cMsg) : a.i2cDoTransfer msgs = (do
    let ret ← carry ((script msgs).map a.run)
    pure (if ret = 0 then (msgs.length : ℤ) else ret)) := by
  rw [script, List.map_append, carry_append, ← doMsgs_eq, List.map_singleton, carry_one]
  funext s
  simp only [i2cDoTransfer, run_bind, run_ite, run_pure, run, ite_not]
  split
  case isTrue => split <;> rfl
  case isFalse => rfl

/-! ### The bus after a transfer -/

/-- Where an operation that fails on the bus `s` leaves the bus free: before the start condition,
or in a stop condition that gets out. -/
def Frees (s : Bus δ) : I2cOp → ℤ → Prop
  | .start, _ => (s.drive (a.setsda s.data true) true).busy = false
  | .stop, ret => ret = Errno.eBusy ∨ ret = Errno.eNotsup ∧ s.Released ∨
      ret = Errno.eTimedout ∧ s.busy = false
  | _, _ => False

/-- The bus goes along with all operations, or refuses one that leaves it free. -/
def GivesBack : List I2cOp → Bus δ → Prop
  | [], _ => True
  | op :: ops, s =>
    if (a.run op s).1 = 0 then GivesBack ops (a.run op s).2 else a.Frees s op (a.run op s).1

/-- All operations but the stop condition leave a transfer under way or break it off. -/
theorem run_goes {op : I2cOp} (hop : op ≠ .stop) : Triple Bus.Held (a.run op) Bus.Goes := by
  cases op with
  | start =>
    refine (a.i2cStart_spec true).conseq (fun s h => ?_) fun ret s h => ?_
    · rw [Bus.drive_of_low h.high]
      exact h.busy
    · obtain ⟨rfl, h⟩ | ⟨hret, h⟩ := h
      · exact .held h
      · exact .broken hret h.busy
  | write c => exact a.i2cWriteByte_goes c
  | writeFrom p => exact fun s h => a.i2cWriteByte_goes _ s h
  | acked =>
    refine Triple.bind a.i2cWaitAck_goes fun ret => Triple.ite (fun h1 => ?_) fun h1 =>
      Triple.ite (fun h0 => ?_) fun h0 => ?_
    · refine Triple.pure fun s h => ?_
      obtain ⟨-, h⟩ | ⟨-, h⟩ | ⟨hneg, -⟩ := h
      · exact .held h
      · exact .held h
      · omega
    · refine Triple.pure fun s h => .broken (by decide) ?_
      obtain ⟨-, h⟩ | ⟨-, h⟩ | ⟨-, h⟩ := h
      · exact h.busy
      · exact h.busy
      · exact h
    · refine Triple.pure fun s h => ?_
      obtain ⟨h, -⟩ | ⟨h, -⟩ | ⟨hneg, h⟩ := h
      · exact absurd h h0
      · exact absurd h h1
      · exact .broken hneg h
  | readTo p =>
    refine Triple.bind a.i2cReadByte_goes fun r => Triple.ite (fun hret => ?_) fun hret => ?_
    · exact Triple.pure fun s h => h
    · intro s h
      rw [not_not.mp hret] at h
      exact ⟨h.scl, h.high, h.busy⟩
  | ack => exact a.i2cAck_goes
  | noAck => exact a.i2cNoAck_goes
  | stop => exact absurd rfl hop

theorem stop_notMem_script (i : ℕ) (msgs : List I2cMsg) : I2cOp.stop ∉ msgsScript i msgs := by
  have hwrite (p n : ℕ) : I2cOp.stop ∉ writeScript p n := by
    induction n generalizing p with
    | zero => exact List.not_mem_nil
    | succ n ih => simpa [writeScript] using ih (p + 1)
  have hread (p n : ℕ) : I2cOp.stop ∉ readScript p n := by
    induction n generalizing p with
    | zero => exact List.not_mem_nil
    | succ n ih =>
      have hack : I2cOp.stop ≠ if 0 < n then .ack else .noAck := by split <;> decide
      simpa [readScript, hack] using ih (p + 1)
  induction msgs generalizing i with
  | nil => exact List.not_mem_nil
  | cons msg msgs ih =>
    rw [msgsScript, List.mem_append, List.mem_append]
    rintro (h | h | h)
    · unfold openScript at h
      split at h <;> simp at h
    · unfold moveScript at h
      split at h
      · exact hread _ _ h
      · exact hwrite _ _ h
    · exact ih (i + 1) h

/-- A run of operations fails with a negative error, and it releases the bus as far as they do. -/
def Faithful (ops : List I2cOp) (s : Bus δ) : Prop :=
  (carry (ops.map a.run) s).1 ≤ 0 ∧
    ((carry (ops.map a.run) s).2.Released ↔ a.GivesBack ops s)

theorem stop_faithful (s : Bus δ) : a.Faithful [.stop] s := by
  rw [Faithful, List.map_singleton, carry_one]
  change (a.i2cStop s).1 ≤ 0 ∧ ((a.i2cStop s).2.Released ↔
    if (a.i2cStop s).1 = 0 then True else a.Frees s .stop (a.i2cStop s).1)
  unfold Frees
  obtain ⟨hret, h⟩ | ⟨hret, h⟩ | ⟨hret, h⟩ | ⟨hret, h⟩ := a.i2cStop_spec s
  · exact ⟨hret.le, by simp [hret, h]⟩
  · exact ⟨hret.le.trans (by decide), by simp [hret, h]⟩
  · exact ⟨hret.le.trans (by decide), by simp [hret, h]⟩
  · refine ⟨hret.le.trans (by decide), ?_⟩
    have hiff : (a.i2cStop s).2.Released ↔ s.busy = false :=
      ⟨fun hr => h.busy.symm.trans hr.busy, fun hb => ⟨h.sda, h.scl, h.busy.trans hb⟩⟩
    simp [hret, hiff]

/-- An operation that succeeds leaves the matter to those after it. -/
theorem Faithful.cons {op : I2cOp} {ops : List I2cOp} {s : Bus δ}
    (hdone : (a.run op s).1 = 0 → a.Faithful ops (a.run op s).2)
    (hfail : (a.run op s).1 ≠ 0 →
      (a.run op s).1 ≤ 0 ∧ ((a.run op s).2.Released ↔ a.Frees s op (a.run op s).1)) :
    a.Faithful (op :: ops) s := by
  rw [Faithful, List.map_cons, carry_cons, GivesBack]
  by_cases h0 : (a.run op s).1 = 0
  · rw [if_neg (not_not.mpr h0), if_pos h0]
    exact hdone h0
  · rw [if_pos h0, if_neg h0]
    exact hfail h0

theorem held_faithful {ops : List I2cOp} (hops : I2cOp.stop ∉ ops) {s : Bus δ} (h : s.Held) :
    a.Faithful (ops ++ [.stop]) s := by
  induction ops generalizing s with
  | nil => exact a.stop_faithful s
  | cons op ops ih =>
    obtain ⟨hop, hops⟩ := not_or.mp fun h => hops (List.mem_cons.mpr h)
    have hgoes := a.run_goes (Ne.symm hop) s h
    refine Faithful.cons a (fun h0 => ih hops ?_) fun h0 => ?_
    · rw [h0] at hgoes
      exact hgoes
    · rw [Bus.Goes, if_neg h0] at hgoes
      refine ⟨hgoes.1.le, fun hr => ?_, fun hf => ?_⟩
      · exact absurd (hgoes.2.symm.trans hr.busy) (by decide)
      · cases op with
        | start =>
          rw [Frees, Bus.drive_of_low h.high] at hf
          exact absurd (h.busy.symm.trans hf) (by decide)
        | stop => exact absurd rfl hop
        | write | writeFrom | acked | readTo | ack | noAck => exact hf.elim

/-- Whatever the bus does, a transfer lets it go as far as its operations do. -/
theorem script_faithful (msgs : List I2cMsg) (s : Bus δ) : a.Faithful (script msgs) s := by
  have hstop := stop_notMem_script 0 msgs
  cases msgs with
  | nil => exact a.stop_faithful s
  | cons msg msgs =>
    have hspec := a.i2cStart_spec (s.drive (a.setsda s.data true) true).busy s rfl
    refine Faithful.cons a (fun h0 => ?_) fun h0 => ?_
    · refine a.held_faithful (fun h => hstop (List.mem_cons_of_mem _ h)) ?_
      obtain ⟨-, h⟩ | ⟨hneg, -⟩ := hspec
      · exact h
      · exact absurd h0 hneg.ne
    · obtain ⟨h, -⟩ | ⟨hneg, h⟩ := hspec
      · exact absurd h h0
      · exact ⟨hneg.le, fun hr => h.busy.symm.trans hr.busy,
          fun hf => ⟨h.sda, h.scl, h.busy.trans hf⟩⟩

theorem givesBack_of_carry {ops : List I2cOp} {s : Bus δ}
    (h : (carry (ops.map a.run) s).1 = 0) : a.GivesBack ops s := by
  induction ops generalizing s with
  | nil => trivial
  | cons op ops ih =>
    rw [List.map_cons, carry_cons] at h
    rw [GivesBack]
    split at h
    case isTrue h0 => exact absurd h h0
    case isFalse h0 =>
      rw [if_pos (not_not.mp h0)]
      exact ih h

end I2cAdapter

/-! ### Attempts -/

/-- What i2c_transfer returns for what its attempts returned: the attempt that succeeds is the last
and only one, and its number of messages is the result. -/
structure Once (num : ℕ) (r : ℤ × List ℤ) : Prop where
  returned : ∀ ret ∈ r.2, 0 ≤ ret → r.1 = num
  once : r.2.countP (0 ≤ ·) ≤ 1
  retried : ∀ ret ∈ r.2.dropLast, ret < 0
  failed : r.1 < 0 → ∀ ret ∈ r.2, ret < 0

theorem once_succeeded (num : ℕ) : Once num ((num : ℤ), [(num : ℤ)]) where
  returned _ _ _ := rfl
  once := List.countP_le_length
  retried _ h := (List.not_mem_nil h).elim
  failed h := absurd h (by omega)

theorem once_none (num : ℕ) : Once num (0, []) where
  returned _ h := (List.not_mem_nil h).elim
  once := Nat.zero_le 1
  retried _ h := (List.not_mem_nil h).elim
  failed h := absurd h (by decide)

theorem once_failed {num : ℕ} {ret : ℤ} (hret : ret < 0) : Once num (ret, [ret]) where
  returned x hx h0 := by
    obtain rfl := List.mem_singleton.mp hx
    omega
  once := List.countP_le_length
  retried _ h := (List.not_mem_nil h).elim
  failed _ x hx := by
    obtain rfl := List.mem_singleton.mp hx
    exact hret

/-- A failed attempt before the others changes nothing. -/
theorem once_cons_iff {num : ℕ} {ret res : ℤ} {rets : List ℤ} (hret : ret < 0) (hne : rets ≠ []) :
    Once num (res, ret :: rets) ↔ Once num (res, rets) := by
  have hcount : (ret :: rets).countP (0 ≤ ·) = rets.countP (0 ≤ ·) :=
    List.countP_cons_of_neg (by simpa using hret)
  have hlast : (ret :: rets).dropLast = ret :: rets.dropLast := List.dropLast_cons_of_ne_nil hne
  constructor
  · intro h
    exact ⟨fun x hx => h.returned x (List.mem_cons_of_mem _ hx), hcount ▸ h.once,
      fun x hx => h.retried x (hlast ▸ List.mem_cons_of_mem _ hx),
      fun h0 x hx => h.failed h0 x (List.mem_cons_of_mem _ hx)⟩
  · intro h
    refine ⟨fun x hx h0 => ?_, hcount ▸ h.once, fun x hx => ?_, fun h0 x hx => ?_⟩
    · obtain rfl | hx := List.mem_cons.mp hx
      · omega
      · exact h.returned x hx h0
    · obtain rfl | hx := List.mem_cons.mp (hlast ▸ hx)
      · exact hret
      · exact h.retried x hx
    · obtain rfl | hx := List.mem_cons.mp hx
      · exact hret
      · exact h.failed h0 x hx

/-- What a successful attempt is followed by fails the rule. -/
theorem not_once_cons {num : ℕ} {ret res : ℤ} {rets : List ℤ} (hret : 0 ≤ ret) (hne : rets ≠ []) :
    ¬Once num (res, ret :: rets) := fun h => by
  have hlast : (ret :: rets).dropLast = ret :: rets.dropLast := List.dropLast_cons_of_ne_nil hne
  have := h.retried ret (hlast ▸ List.mem_cons_self)
  omega

namespace I2cAdapter
variable (a : I2cAdapter δ)

/-- A call keeps to the rule, to the number of retries, and lets the bus go. -/
structure Meets (msgs : List I2cMsg) (s : Bus δ) : Prop where
  once : Once msgs.length (a.i2cTransfer msgs s).1
  tries : (a.i2cTransfer msgs s).1.2.length ≤ (a.retries + 1).toNat
  released : (a.i2cTransfer msgs s).2.Released

/-- Of the attempts that `n` leaves, one that the bus goes along with is the last one, because it
is the n-th or late or for no message or for 145 of them; and if the bus refuses the last one, it
refuses an operation that leaves it free. -/
def LastServes (msgs : List I2cMsg) (start : ℤ) : ℕ → Bus δ → Prop
  | 0, s => s.Released
  | n + 1, s =>
    let served := carry ((script msgs).map a.run) s
    let late := a.late start served.2
    if served.1 = 0 then n = 0 ∨ msgs.length = 0 ∨ msgs.length = 145 ∨ late.1 = true
    else if n = 0 ∨ late.1 = true then a.GivesBack (script msgs) s
    else LastServes msgs start n late.2

theorem length_attempts_le (msgs : List I2cMsg) (start : ℤ) (n : ℕ) (ret : ℤ) (s : Bus δ) :
    (a.attempts msgs start n ret s).1.2.length ≤ n := by
  induction n generalizing ret s with
  | zero => exact le_rfl
  | succ n ih =>
    simp only [attempts, run_bind, run_ite]
    split
    · exact Nat.succ_le_succ (Nat.zero_le n)
    split
    · exact Nat.succ_le_succ (Nat.zero_le n)
    · exact Nat.succ_le_succ (ih _ _)

theorem attempts_ne_nil (msgs : List I2cMsg) (start : ℤ) (n : ℕ) (ret : ℤ) (s : Bus δ) :
    (a.attempts msgs start (n + 1) ret s).1.2 ≠ [] := by
  simp only [attempts, run_bind, run_ite]
  split
  · exact List.cons_ne_nil _ _
  split
  · exact List.cons_ne_nil _ _
  · exact List.cons_ne_nil _ _

theorem doTransfer_run (msgs : List I2cMsg) (s : Bus δ) :
    a.i2cDoTransfer msgs s =
      (if (carry ((script msgs).map a.run) s).1 = 0 then (msgs.length : ℤ)
        else (carry ((script msgs).map a.run) s).1, (carry ((script msgs).map a.run) s).2) := by
  rw [doTransfer_eq]
  rfl

theorem late_released_iff (start : ℤ) (s : Bus δ) :
    (a.late start s).2.Released ↔ s.Released :=
  ⟨fun h => ⟨h.sda, h.scl, h.busy⟩, fun h => ⟨h.sda, h.scl, h.busy⟩⟩

/-- One more attempt. -/
theorem attempts_succ (msgs : List I2cMsg) (start : ℤ) (n : ℕ) (prev ret : ℤ) {s s' : Bus δ}
    (h : a.i2cDoTransfer msgs s = (ret, s')) : a.attempts msgs start (n + 1) prev s =
      if ret = 0 ∨ ret = 145 then ((ret, [ret]), s')
      else if (a.late start s').1 = true then ((ret, [ret]), (a.late start s').2)
      else (((a.attempts msgs start n ret (a.late start s').2).1.1,
        ret :: (a.attempts msgs start n ret (a.late start s').2).1.2),
          (a.attempts msgs start n ret (a.late start s').2).2) := by
  simp only [attempts, run_bind, h, run_ite, run_pure]

theorem attempts_iff (msgs : List I2cMsg) (start : ℤ) {n : ℕ} (hn : n ≠ 0) (prev : ℤ)
    (s : Bus δ) : (Once msgs.length (a.attempts msgs start n prev s).1 ∧
      (a.attempts msgs start n prev s).2.Released) ↔ a.LastServes msgs start n s := by
  induction n generalizing prev s with
  | zero => exact absurd rfl hn
  | succ n ih =>
    obtain ⟨hneg, hreleased⟩ := a.script_faithful msgs s
    have hgives := @givesBack_of_carry δ a (script msgs) s
    have htransfer := a.doTransfer_run msgs s
    rw [LastServes]
    generalize carry ((script msgs).map a.run) s = served at *
    obtain ⟨ret, s'⟩ := served
    by_cases h0 : ret = 0
    · rw [if_pos h0] at htransfer ⊢
      rw [a.attempts_succ msgs start n prev _ htransfer]
      have hfree := hreleased.mpr (hgives h0)
      have hlate := (a.late_released_iff start s').mpr hfree
      by_cases hexit : (msgs.length : ℤ) = 0 ∨ (msgs.length : ℤ) = 145
      · rw [if_pos hexit]
        refine iff_of_true ⟨once_succeeded _, hfree⟩ (.inr ?_)
        obtain h | h := hexit
        · exact .inl (by omega)
        · exact .inr (.inl (by omega))
      rw [if_neg hexit]
      by_cases htime : (a.late start s').1 = true
      · rw [if_pos htime]
        exact iff_of_true ⟨once_succeeded _, hlate⟩ (.inr (.inr (.inr htime)))
      rw [if_neg htime]
      cases n with
      | zero => exact iff_of_true ⟨once_succeeded _, hlate⟩ (.inl rfl)
      | succ n =>
        refine iff_of_false (fun h => ?_) ?_
        · exact not_once_cons (Int.natCast_nonneg _) (a.attempts_ne_nil _ _ _ _ _) h.1
        · rintro (h | h | h | h)
          · omega
          · exact hexit (.inl (by omega))
          · exact hexit (.inr (by omega))
          · exact htime h
    · rw [if_neg h0] at htransfer ⊢
      rw [a.attempts_succ msgs start n prev _ htransfer]
      have hlate := (a.late_released_iff start s').trans hreleased
      have hret : ret < 0 := lt_of_le_of_ne hneg h0
      rw [if_neg (by omega)]
      by_cases htime : (a.late start s').1 = true
      · rw [if_pos htime, if_pos (.inr htime)]
        exact ⟨fun h => hlate.mp h.2, fun h => ⟨once_failed hret, hlate.mpr h⟩⟩
      rw [if_neg htime]
      cases n with
      | zero =>
        exact ⟨fun h => hlate.mp h.2, fun h => ⟨once_failed hret, hlate.mpr h⟩⟩
      | succ n =>
        rw [if_neg (by simp [htime]), ← ih (Nat.succ_ne_zero n) ret]
        exact and_congr_left fun _ => once_cons_iff hret (a.attempts_ne_nil _ _ _ _ _)

/-- A call meets its contract if and only if the attempt that succeeds is the last one there is,
and the bus refuses the last one only where that leaves it free. -/
theorem i2c_transfer_meets_iff (msgs : List I2cMsg) (s : Bus δ) :
    a.Meets msgs s ↔ a.LastServes msgs (a.ddiGetLbolt s).1 (a.retries + 1).toNat
      (a.ddiGetLbolt s).2 := by
  have htries := a.length_attempts_le msgs (a.ddiGetLbolt s).1 (a.retries + 1).toNat 0
    (a.ddiGetLbolt s).2
  have hcall : a.i2cTransfer msgs s =
    a.attempts msgs (a.ddiGetLbolt s).1 (a.retries + 1).toNat 0 (a.ddiGetLbolt s).2 := rfl
  have hmeets : a.Meets msgs s ↔ Once msgs.length (a.i2cTransfer msgs s).1 ∧
      (a.i2cTransfer msgs s).2.Released :=
    ⟨fun h => ⟨h.once, h.released⟩, fun h => ⟨h.1, htries, h.2⟩⟩
  rw [hmeets, hcall]
  cases hn : (a.retries + 1).toNat with
  | zero =>
    exact ⟨fun h => h.2, fun h => ⟨once_none _, h⟩⟩
  | succ n => exact a.attempts_iff msgs _ (Nat.succ_ne_zero n) 0 _

end I2cAdapter

/-- An adapter with three retries on a bus where the clock follows the adapter, and SDA is low at
the reads that `low` tells. -/
def testAdapter (low : ℕ → Bool) : I2cAdapter (Bool × ℕ) where
  setsda d _ := d
  setscl d b := (b, d.2)
  getsda d := (!low d.2, (d.1, d.2 + 1))
  getscl d := (d.1, d)
  delay _ d := d
  lbolt d := (0, d)
  udelay := 10
  timeout := 2
  retries := 3
  polls _ := 1
  ends _ := rfl

/-- A slave that acknowledges its address gets the message four times; one that does not leaves the
bus held. -/
theorem i2c_transfer_repeats :
    (¬∀ (δ : Type) (a : I2cAdapter δ) (msgs : List I2cMsg) (s : Bus δ), s.Released →
      a.Meets msgs s) ∧
      ((testAdapter fun n => n % 3 == 1).i2cTransfer [⟨0, false, false, 0, 0⟩]
        { data := (true, 0), mem := fun _ => 0 }).1 = (1, [1, 1, 1, 1]) ∧
      ((testAdapter fun _ => false).i2cTransfer [⟨0, false, false, 0, 0⟩]
        { data := (true, 0), mem := fun _ => 0 }).2.scl = false := by
  have hheld : ((testAdapter fun _ => false).i2cTransfer [⟨0, false, false, 0, 0⟩]
      { data := (true, 0), mem := fun _ => 0 }).2.scl = false := by decide +kernel
  refine ⟨fun h => ?_, by decide +kernel, hheld⟩
  have hmeets := h _ (testAdapter fun _ => false) [⟨0, false, false, 0, 0⟩]
    { data := (true, 0), mem := fun _ => 0 } ⟨rfl, rfl, rfl⟩
  exact absurd (hheld.symm.trans hmeets.released.scl) (by decide)

end GfxDrm.I2c
