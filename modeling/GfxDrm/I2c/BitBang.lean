import GfxDrm.Errno
import GfxDrm.Lib.Bytes
import GfxDrm.Lib.Hoare

/-! An i2c bus driven bit by bit. -/

namespace GfxDrm.I2c
open Bytes Hoare

/-- The adapter's wires with what is watched on them: what the adapter drives (true is to let the
wire go), whether it has seen the clock high since it let it go, and whether a start condition is
out without its stop condition. -/
structure Bus (δ : Type) where
  data : δ
  mem : Mem
  sda : Bool := true
  scl : Bool := true
  high : Bool := false
  busy : Bool := false

namespace Bus

/-- SDA changes: with the clock high this is a start condition or a stop condition. -/
def drive {δ : Type} (s : Bus δ) (d : δ) (b : Bool) : Bus δ :=
  { s with data := d, sda := b, busy := if s.high && s.sda != b then !b else s.busy }

/-- Both wires are let go, and the stop condition is out. -/
structure Released {δ : Type} (s : Bus δ) : Prop where
  sda : s.sda = true
  scl : s.scl = true
  busy : s.busy = false

end Bus

/-- The callbacks of an i2c_adapter, which may be anything, and the clock. -/
structure I2cDevice (δ : Type) where
  setsda : δ → Bool → δ
  setscl : δ → Bool → δ
  getsda : δ → Bool × δ
  getscl : δ → Bool × δ
  delay : ℕ → δ → δ
  lbolt : δ → ℤ × δ
  udelay : ℕ
  timeout : ℤ
  retries : ℤ

variable {δ : Type}

namespace I2cDevice
variable (a : I2cDevice δ)

def i2cUdelay : StateM (Bus δ) Unit := fun s =>
  ((), { s with data := a.delay ((a.udelay + 1) / 2) s.data })

def i2cGetsda : StateM (Bus δ) Bool := fun s =>
  ((a.getsda s.data).1, { s with data := (a.getsda s.data).2 })

/-- i2c_setsda and i2c_clrsda. -/
def i2cSetsda (b : Bool) : StateM (Bus δ) Unit := fun s => ((), s.drive (a.setsda s.data b) b)

def i2cGetscl : StateM (Bus δ) Bool := fun s =>
  ((a.getscl s.data).1,
    { s with data := (a.getscl s.data).2, high := s.scl && (a.getscl s.data).1 })

/-- The setscl callback; i2c_clrscl does no more. -/
def driveScl (b : Bool) : StateM (Bus δ) Unit := fun s =>
  ((), { s with data := a.setscl s.data b, scl := b, high := s.high && b })

def ddiGetLbolt : StateM (Bus δ) ℤ := fun s =>
  ((a.lbolt s.data).1, { s with data := (a.lbolt s.data).2 })

/-- The loop of i2c_setscl for at most so many turns. -/
def waitScl (start : ℤ) : ℕ → StateM (Bus δ) (Option ℤ)
  | 0 => pure none
  | n + 1 => do
    let up ← a.i2cGetscl
    if up then pure (some 0)
    else
      let now ← a.ddiGetLbolt
      if now - start > a.timeout then pure (some Errno.eTimedout) else waitScl start n

/-- i2c_setscl, with its loop cut off. -/
def holdScl (n : ℕ) : StateM (Bus δ) (Option ℤ) := do
  a.driveScl true
  let start ← a.ddiGetLbolt
  a.waitScl start n

end I2cDevice

/-- The clock goes on: the wait for SCL comes to an end. -/
structure I2cAdapter (δ : Type) extends I2cDevice δ where
  polls : δ → ℕ
  ends : ∀ s : Bus δ, (toI2cDevice.holdScl (polls s.data) s).1.isSome

namespace I2cAdapter
variable (a : I2cAdapter δ)

def i2cSetscl : StateM (Bus δ) ℤ := fun s =>
  ((a.holdScl (a.polls s.data) s).1.get (a.ends s), (a.holdScl (a.polls s.data) s).2)

/-- I2C_HI_CLOCK: if it fails, so does its caller. -/
def hiClock : StateM (Bus δ) ℤ := do
  let ret ← a.i2cSetscl
  if ret ≠ 0 then
    a.i2cSetsda true
    a.i2cUdelay
    pure ret
  else pure 0

def i2cStart : StateM (Bus δ) ℤ := do
  a.i2cSetsda true
  a.i2cUdelay
  let ret ← a.i2cSetscl
  if ret ≠ 0 then pure ret
  else
    let sda ← a.i2cGetsda
    if !sda then pure Errno.eBusy
    else
      a.i2cUdelay
      a.i2cSetsda false
      a.i2cUdelay
      a.driveScl false
      a.i2cUdelay
      pure 0

def i2cStop : StateM (Bus δ) ℤ := do
  let scl ← a.i2cGetscl
  if scl then pure Errno.eNotsup
  else
    a.i2cSetsda false
    a.i2cUdelay
    let ret ← a.hiClock
    if ret ≠ 0 then pure ret
    else
      a.i2cUdelay
      a.i2cSetsda true
      a.i2cUdelay
      let sda ← a.i2cGetsda
      if !sda then pure Errno.eBusy else pure 0

/-- The bits of a byte in the order in which they go over the wire. -/
def wireBits : List ℕ := [7, 6, 5, 4, 3, 2, 1, 0]

/-- Whether another master drives the wire that this one lets go. -/
def loses (needARB : Bool) : StateM (Bus δ) Bool :=
  if needARB then Bool.not <$> a.i2cGetsda else pure false

/-- The loop of i2c_write_byte. -/
def writeBits (c : BitVec 8) : List ℕ → StateM (Bus δ) ℤ
  | [] => pure 0
  | i :: is => do
    let needARB := c.getLsbD i
    a.i2cSetsda needARB
    a.i2cUdelay
    let ret ← a.hiClock
    if ret ≠ 0 then pure ret
    else
      let lost ← a.loses needARB
      if lost then pure Errno.eBusy
      else
        a.i2cUdelay
        a.i2cUdelay
        let lost ← a.loses needARB
        if lost then pure Errno.eBusy
        else
          a.driveScl false
          a.i2cUdelay
          writeBits c is

def i2cWriteByte (c : BitVec 8) : StateM (Bus δ) ℤ := do
  let scl ← a.i2cGetscl
  if scl then pure Errno.eNotsup else a.writeBits c wireBits

/-- The loop of i2c_read_byte. -/
def readBits : List ℕ → BitVec 8 → StateM (Bus δ) (ℤ × BitVec 8)
  | [], c => pure (0, c)
  | i :: is, c => do
    let ret ← a.hiClock
    if ret ≠ 0 then pure (ret, c)
    else
      let r ← a.i2cGetsda
      a.i2cUdelay
      let r' ← a.i2cGetsda
      if r ≠ r' then pure (Errno.eBusy, c)
      else
        a.i2cUdelay
        a.driveScl false
        a.i2cUdelay
        readBits is (if r then c ||| 1#8 <<< i else c)

def i2cReadByte : StateM (Bus δ) (ℤ × BitVec 8) := do
  let scl ← a.i2cGetscl
  if scl then pure (Errno.eNotsup, 0)
  else
    a.i2cSetsda true
    a.i2cUdelay
    a.readBits wireBits 0

def i2cAck : StateM (Bus δ) ℤ := do
  let scl ← a.i2cGetscl
  if scl then pure Errno.eNotsup
  else
    a.i2cSetsda false
    a.i2cUdelay
    let ret ← a.hiClock
    if ret ≠ 0 then pure ret
    else
      a.i2cUdelay
      a.driveScl false
      a.i2cUdelay
      pure 0

def i2cNoAck : StateM (Bus δ) ℤ := do
  let scl ← a.i2cGetscl
  if scl then pure Errno.eNotsup
  else
    a.i2cSetsda true
    a.i2cUdelay
    let ret ← a.hiClock
    if ret ≠ 0 then pure ret
    else
      let sda ← a.i2cGetsda
      if !sda then pure Errno.eBusy
      else
        a.i2cUdelay
        let sda ← a.i2cGetsda
        if !sda then pure Errno.eBusy
        else
          a.driveScl false
          a.i2cUdelay
          pure 0

/-- 1 is an acknowledge and 0 none. -/
def i2cWaitAck : StateM (Bus δ) ℤ := do
  let scl ← a.i2cGetscl
  if scl then pure Errno.eNotsup
  else
    a.i2cSetsda true
    a.i2cUdelay
    let ret ← a.hiClock
    if ret ≠ 0 then pure ret
    else
      a.i2cUdelay
      let sda ← a.i2cGetsda
      let ret : ℤ := if sda then 0 else 1
      a.driveScl false
      a.i2cUdelay
      pure ret

end I2cAdapter

/-! ### What the operations do to the wires -/

namespace Bus

/-- Between two bits of a transfer the adapter holds the clock low. -/
structure Held (s : Bus δ) : Prop where
  scl : s.scl = false
  high : s.high = false
  busy : s.busy = true

/-- During a bit the clock is high. -/
structure Up (s : Bus δ) : Prop where
  scl : s.scl = true
  high : s.high = true
  busy : s.busy = true

/-- The adapter has let the clock go. -/
structure ClockFree (b c : Bool) (s : Bus δ) : Prop where
  scl : s.scl = true
  sda : s.sda = b
  busy : s.busy = c

/-- A transfer that is under way goes on from `s` if `ret` is 0; otherwise it is broken off without
its stop condition. -/
def Goes (ret : ℤ) (s : Bus δ) : Prop := if ret = 0 then s.Held else ret < 0 ∧ s.busy = true

variable {s : Bus δ}

theorem Goes.held (h : s.Held) : Goes 0 s := h

theorem Goes.broken {ret : ℤ} (hret : ret < 0) (h : s.busy = true) : Goes ret s := by
  rw [Goes, if_neg hret.ne]
  exact ⟨hret, h⟩

theorem drive_of_low (h : s.high = false) (d : δ) (b : Bool) :
    s.drive d b = { s with data := d, sda := b } := by
  rw [drive, h]
  rfl

end Bus

namespace I2cDevice
variable (a : I2cDevice δ)

theorem held_setsda (b : Bool) : Keeps Bus.Held (a.i2cSetsda b) := fun s h => by
  change (s.drive _ b).Held
  rw [Bus.drive_of_low h.high]
  exact ⟨h.scl, h.high, h.busy⟩

theorem held_udelay : Keeps Bus.Held a.i2cUdelay := fun _ h => ⟨h.scl, h.high, h.busy⟩

theorem held_getscl : Keeps Bus.Held a.i2cGetscl := fun s h =>
  ⟨h.scl, show (s.scl && _) = false by rw [h.scl, Bool.false_and], h.busy⟩

theorem up_udelay : Keeps Bus.Up a.i2cUdelay := fun _ h => ⟨h.scl, h.high, h.busy⟩

theorem up_getsda : Keeps Bus.Up a.i2cGetsda := fun _ h => ⟨h.scl, h.high, h.busy⟩

/-- i2c_clrscl ends a bit. -/
theorem up_clrscl : Triple Bus.Up (a.driveScl false) fun _ => Bus.Held := fun s h =>
  ⟨rfl, Bool.and_false s.high, h.busy⟩

/-- The wait leaves SDA and the conditions alone. -/
theorem waitScl_spec (start : ℤ) (n : ℕ) (b c : Bool) :
    Triple (Bus.ClockFree b c) (a.waitScl start n) fun ret s => s.ClockFree b c ∧
      ∀ r, ret = some r → r = 0 ∧ s.high = true ∨ r = Errno.eTimedout ∧ s.high = false := by
  induction n with
  | zero => exact Triple.pure fun s h => ⟨h, fun r hr => by cases hr⟩
  | succ n ih =>
    have hread : Triple (Bus.ClockFree b c) a.i2cGetscl fun up s => s.ClockFree b c ∧ s.high = up :=
      fun s h => ⟨⟨h.scl, h.sda, h.busy⟩,
        (congrArg (· && (a.getscl s.data).1) h.scl).trans (Bool.true_and _)⟩
    refine hread.bind fun up => Triple.ite (fun hup => ?_) fun hup => ?_
    · refine Triple.pure fun s h => ⟨h.1, fun r hr => .inl ⟨?_, h.2.trans hup⟩⟩
      exact (Option.some.inj hr).symm
    · have hclock : Triple (fun s : Bus δ => s.ClockFree b c ∧ s.high = up) a.ddiGetLbolt
          fun _ s => s.ClockFree b c ∧ s.high = up :=
        fun s h => ⟨⟨h.1.scl, h.1.sda, h.1.busy⟩, h.2⟩
      refine hclock.bind fun now => Triple.ite (fun hlate => ?_) fun hlate => ih.pre fun s h => h.1
      refine Triple.pure fun s h => ⟨h.1, fun r hr => .inr ⟨?_, ?_⟩⟩
      · exact (Option.some.inj hr).symm
      · exact h.2.trans (Bool.eq_false_iff.mpr hup)

end I2cDevice

namespace I2cAdapter
variable (a : I2cAdapter δ)

theorem i2cSetscl_spec (b c : Bool) :
    Triple (fun s => s.sda = b ∧ s.busy = c) a.i2cSetscl fun ret s => s.ClockFree b c ∧
      (ret = 0 ∧ s.high = true ∨ ret = Errno.eTimedout ∧ s.high = false) := by
  intro s h
  have hup : Triple (fun s : Bus δ => s.sda = b ∧ s.busy = c) (a.driveScl true) fun _ =>
      Bus.ClockFree b c := fun s h => ⟨rfl, h.1, h.2⟩
  have hclock : Keeps (Bus.ClockFree b c) a.ddiGetLbolt := fun s h => ⟨h.scl, h.sda, h.busy⟩
  have hhold := hup.bind fun _ =>
    Triple.bind hclock fun start => a.waitScl_spec start (a.polls s.data) b c
  obtain ⟨hwires, hret⟩ := hhold s h
  exact ⟨hwires, hret _ (Option.some_get (a.ends s)).symm⟩

/-- If the clock stays low, SDA is let go. -/
theorem hiClock_spec (b c : Bool) :
    Triple (fun s => s.sda = b ∧ s.busy = c) a.hiClock fun ret s =>
      ret = 0 ∧ s.ClockFree b c ∧ s.high = true ∨
        ret = Errno.eTimedout ∧ s.ClockFree true c := by
  refine (a.i2cSetscl_spec b c).bind fun ret => Triple.ite (fun hret => ?_) fun hret => ?_
  · have hsda : Triple (fun s : Bus δ => s.ClockFree b c ∧
        (ret = 0 ∧ s.high = true ∨ ret = Errno.eTimedout ∧ s.high = false)) (a.i2cSetsda true)
        fun _ s => ret = Errno.eTimedout ∧ s.ClockFree true c := by
      rintro s ⟨hwires, ⟨h0, -⟩ | ⟨htime, hlow⟩⟩
      · exact absurd h0 hret
      · change _ ∧ (s.drive _ true).ClockFree true c
        rw [Bus.drive_of_low hlow]
        exact ⟨htime, hwires.scl, rfl, hwires.busy⟩
    have hdelay : Keeps (fun s : Bus δ => ret = Errno.eTimedout ∧ s.ClockFree true c) a.i2cUdelay :=
      fun s h => ⟨h.1, h.2.scl, h.2.sda, h.2.busy⟩
    exact hsda.bind fun _ => Triple.bind hdelay fun _ => Triple.pure fun s h => Or.inr h
  · refine Triple.pure fun s h => ?_
    obtain ⟨hwires, ⟨-, hhigh⟩ | ⟨htime, -⟩⟩ := h
    · exact .inl ⟨rfl, hwires, hhigh⟩
    · exact absurd (not_not.mp hret) (htime ▸ by decide)

/-- What is done once the clock is high. -/
theorem hiClock_bind {α : Type} (res : α → ℤ) {fail : ℤ → α} {k : StateM (Bus δ) α}
    (hfail : res (fail Errno.eTimedout) < 0)
    (hk : Triple Bus.Up k fun r s => Bus.Goes (res r) s) :
    Triple Bus.Held (a.hiClock >>= fun ret => if ret ≠ 0 then pure (fail ret) else k)
      fun r s => Bus.Goes (res r) s := by
  have hclock : Triple Bus.Held a.hiClock fun ret s =>
      ret = 0 ∧ s.Up ∨ ret = Errno.eTimedout ∧ s.busy = true := by
    intro s h
    obtain ⟨h0, hwires, hhigh⟩ | ⟨htime, hwires⟩ := a.hiClock_spec s.sda true s ⟨rfl, h.busy⟩
    · exact .inl ⟨h0, hwires.scl, hhigh, hwires.busy⟩
    · exact .inr ⟨htime, hwires.busy⟩
  refine hclock.bind fun ret => Triple.ite (fun hret => ?_) fun hret => ?_
  · rintro s (⟨h0, -⟩ | ⟨rfl, hbusy⟩)
    · exact absurd h0 hret
    · exact .broken hfail hbusy
  · refine hk.pre ?_
    rintro s (⟨-, h⟩ | ⟨htime, -⟩)
    · exact h
    · exact absurd (not_not.mp hret) (htime ▸ by decide)

/-- What is done once the clock has been found low. -/
theorem getscl_bind {α : Type} (res : α → ℤ) {r : α} {k : StateM (Bus δ) α}
    (hr : res r < 0) (hk : Triple Bus.Held k fun r s => Bus.Goes (res r) s) :
    Triple Bus.Held (a.i2cGetscl >>= fun scl => if scl then pure r else k)
      fun r s => Bus.Goes (res r) s := by
  exact Triple.bind (a.held_getscl) fun scl =>
    Triple.ite (fun _ => Triple.pure fun s h => .broken hr h.busy) fun _ => hk

/-- The end of a bit. -/
theorem clrscl_bind {α : Type} (res : α → ℤ) {k : StateM (Bus δ) α}
    (hk : Triple Bus.Held k fun r s => Bus.Goes (res r) s) :
    Triple Bus.Up (a.driveScl false >>= fun _ => a.i2cUdelay >>= fun _ => k)
      fun r s => Bus.Goes (res r) s :=
  a.up_clrscl.bind fun _ => Triple.bind a.held_udelay fun _ => hk

/-- SDA is looked at during a bit, and the transfer is given up if it is not as it should be. -/
theorem lost_bind {lost : StateM (Bus δ) Bool} {k : StateM (Bus δ) ℤ} (hlost : Keeps Bus.Up lost)
    (hk : Triple Bus.Up k Bus.Goes) :
    Triple Bus.Up (lost >>= fun lost => if lost then pure Errno.eBusy else k) Bus.Goes :=
  Triple.bind hlost fun _ => Triple.ite
    (fun _ => Triple.pure fun _ h => .broken (by decide) h.busy) fun _ => hk

theorem writeBits_goes (c : BitVec 8) (is : List ℕ) :
    Triple Bus.Held (a.writeBits c is) Bus.Goes := by
  induction is with
  | nil => exact Triple.pure fun s h => .held h
  | cons i is ih =>
    have hlost : Keeps Bus.Up (a.loses (c.getLsbD i)) :=
      Triple.ite (fun _ _ h => a.up_getsda _ h) fun _ => Keeps.pure
    refine Triple.bind (a.held_setsda _) fun _ => Triple.bind a.held_udelay fun _ =>
      a.hiClock_bind id (by decide) (lost_bind hlost ?_)
    exact Triple.bind a.up_udelay fun _ => Triple.bind a.up_udelay fun _ =>
      lost_bind hlost (a.clrscl_bind id ih)

theorem i2cWriteByte_goes (c : BitVec 8) : Triple Bus.Held (a.i2cWriteByte c) Bus.Goes :=
  a.getscl_bind id (by decide) (a.writeBits_goes c _)

theorem readBits_goes (is : List ℕ) (c : BitVec 8) :
    Triple Bus.Held (a.readBits is c) fun r s => Bus.Goes r.1 s := by
  induction is generalizing c with
  | nil => exact Triple.pure fun s h => .held h
  | cons i is ih =>
    refine a.hiClock_bind Prod.fst (show Errno.eTimedout < 0 by decide) ?_
    refine Triple.bind a.up_getsda fun r => Triple.bind a.up_udelay fun _ =>
      Triple.bind a.up_getsda fun r' => Triple.ite (fun _ => ?_) fun _ => ?_
    · exact Triple.pure fun _ h => .broken (show Errno.eBusy < 0 by decide) h.busy
    · exact Triple.bind a.up_udelay fun _ => a.clrscl_bind Prod.fst (ih _)

theorem i2cReadByte_goes : Triple Bus.Held a.i2cReadByte fun r s => Bus.Goes r.1 s :=
  a.getscl_bind Prod.fst (by decide) (Triple.bind (a.held_setsda true) fun _ =>
    Triple.bind a.held_udelay fun _ => a.readBits_goes _ _)

theorem i2cAck_goes : Triple Bus.Held a.i2cAck Bus.Goes :=
  a.getscl_bind id (by decide) (Triple.bind (a.held_setsda false) fun _ =>
    Triple.bind a.held_udelay fun _ => a.hiClock_bind id (by decide)
      (Triple.bind a.up_udelay fun _ => a.clrscl_bind id (Triple.pure fun _ h => .held h)))

theorem i2cNoAck_goes : Triple Bus.Held a.i2cNoAck Bus.Goes := by
  have hlow {k : StateM (Bus δ) ℤ} (hk : Triple Bus.Up k Bus.Goes) : Triple Bus.Up
      (a.i2cGetsda >>= fun sda => if !sda then pure Errno.eBusy else k) Bus.Goes :=
    Triple.bind a.up_getsda fun _ => Triple.ite
      (fun _ => Triple.pure fun _ h => .broken (by decide) h.busy) fun _ => hk
  exact a.getscl_bind id (by decide) (Triple.bind (a.held_setsda true) fun _ =>
    Triple.bind a.held_udelay fun _ => a.hiClock_bind id (by decide)
      (hlow (Triple.bind a.up_udelay fun _ =>
        hlow (a.clrscl_bind id (Triple.pure fun _ h => .held h)))))

/-- 0 and 1 are answers of the slave. -/
theorem i2cWaitAck_goes : Triple Bus.Held a.i2cWaitAck fun ret s =>
    ret = 0 ∧ s.Held ∨ ret = 1 ∧ s.Held ∨ ret < 0 ∧ s.busy = true := by
  let res : ℤ → ℤ := fun ret => if ret = 1 then 0 else ret
  have hread : Triple Bus.Up (a.i2cGetsda >>= fun sda => a.driveScl false >>= fun _ =>
      a.i2cUdelay >>= fun _ => pure (if sda then 0 else 1)) fun ret s => Bus.Goes (res ret) s :=
    Triple.bind a.up_getsda fun sda => a.clrscl_bind res (Triple.pure fun s h => by
      cases sda <;> exact .held h)
  have hgoes : Triple Bus.Held a.i2cWaitAck fun ret s => Bus.Goes (res ret) s :=
    a.getscl_bind res (by decide) (Triple.bind (a.held_setsda true) fun _ =>
      Triple.bind a.held_udelay fun _ => a.hiClock_bind res (by decide)
        (Triple.bind a.up_udelay fun _ => hread))
  refine hgoes.post fun ret s h => ?_
  by_cases h1 : ret = 1
  · exact .inr (.inl ⟨h1, by simpa [res, h1, Bus.Goes] using h⟩)
  · by_cases h0 : ret = 0
    · exact .inl ⟨h0, by simpa [res, h0, Bus.Goes] using h⟩
    · exact .inr (.inr (by simpa [res, h0, h1, Bus.Goes] using h))

/-- A start condition that fails leaves the bus free unless a transfer was under way. -/
theorem i2cStart_spec (c : Bool) :
    Triple (fun s => (s.drive (a.setsda s.data true) true).busy = c) a.i2cStart fun ret s =>
      ret = 0 ∧ s.Held ∨ ret < 0 ∧ s.ClockFree true c := by
  have hsda : Triple (fun s => (s.drive (a.setsda s.data true) true).busy = c) (a.i2cSetsda true)
      fun _ s => s.sda = true ∧ s.busy = c := fun s h => ⟨rfl, h⟩
  have hdelay : Keeps (fun s : Bus δ => s.sda = true ∧ s.busy = c) a.i2cUdelay := fun _ h => h
  refine hsda.bind fun _ => Triple.bind hdelay fun _ => (a.i2cSetscl_spec true c).bind fun ret =>
    Triple.ite (fun hret => ?_) fun hret => ?_
  · refine Triple.pure fun s h => .inr ?_
    obtain ⟨hwires, ⟨h0, -⟩ | ⟨htime, -⟩⟩ := h
    · exact absurd h0 hret
    · exact ⟨htime ▸ by decide, hwires⟩
  · have hpre : Triple (fun s : Bus δ => s.ClockFree true c ∧
        (ret = 0 ∧ s.high = true ∨ ret = Errno.eTimedout ∧ s.high = false)) a.i2cGetsda
        fun _ s => s.ClockFree true c ∧ s.high = true := by
      rintro s ⟨hwires, ⟨-, hhigh⟩ | ⟨htime, -⟩⟩
      · exact ⟨⟨hwires.scl, hwires.sda, hwires.busy⟩, hhigh⟩
      · exact absurd (not_not.mp hret) (htime ▸ by decide)
    refine hpre.bind fun sda => Triple.ite (fun _ => Triple.pure fun s h => ?_) fun _ => ?_
    · exact .inr ⟨by decide, h.1⟩
    · have hdelay : Keeps (fun s : Bus δ => s.ClockFree true c ∧ s.high = true) a.i2cUdelay :=
        fun s h => ⟨⟨h.1.scl, h.1.sda, h.1.busy⟩, h.2⟩
      have hfall : Triple (fun s : Bus δ => s.ClockFree true c ∧ s.high = true) (a.i2cSetsda false)
          fun _ => Bus.Up := by
        intro s h
        refine ⟨h.1.scl, h.2, ?_⟩
        change (s.drive _ false).busy = true
        rw [Bus.drive, h.2, h.1.sda]
        rfl
      exact Triple.bind hdelay fun _ => hfall.bind fun _ => Triple.bind a.up_udelay fun _ =>
        a.up_clrscl.bind fun _ => Triple.bind a.held_udelay fun _ =>
          Triple.pure fun s h => Or.inl ⟨rfl, h⟩

/-- A stop condition that fails: on the bus as it was, or with the stop condition out. -/
theorem i2cStop_spec (s : Bus δ) :
    (a.i2cStop s).1 = 0 ∧ (a.i2cStop s).2.Released ∨
      (a.i2cStop s).1 = Errno.eBusy ∧ (a.i2cStop s).2.Released ∨
      (a.i2cStop s).1 = Errno.eNotsup ∧ ((a.i2cStop s).2.Released ↔ s.Released) ∨
      (a.i2cStop s).1 = Errno.eTimedout ∧ (a.i2cStop s).2.ClockFree true s.busy := by
  have hfall (c : Bool) : Triple (fun s : Bus δ => s.high = false ∧ s.busy = c) (a.i2cSetsda false)
      fun _ s => s.sda = false ∧ s.busy = c := by
    intro s h
    change (s.drive _ false).sda = false ∧ (s.drive _ false).busy = c
    rw [Bus.drive_of_low h.1]
    exact ⟨rfl, h.2⟩
  have hrise : Triple (fun s : Bus δ => s.scl = true ∧ s.sda = false ∧ s.high = true)
      (a.i2cSetsda true) fun _ => Bus.Released := by
    intro s h
    refine ⟨rfl, h.1, ?_⟩
    change (s.drive _ true).busy = false
    rw [Bus.drive, h.2.1, h.2.2]
    rfl
  have hend : Triple (fun s : Bus δ => s.scl = true ∧ s.sda = false ∧ s.high = true)
      (a.i2cUdelay >>= fun _ => a.i2cSetsda true >>= fun _ => a.i2cUdelay >>= fun _ =>
        a.i2cGetsda >>= fun sda => if !sda then pure Errno.eBusy else pure 0)
      fun ret s => s.Released ∧ (ret = 0 ∨ ret = Errno.eBusy) := by
    have hdelay : Keeps (fun s : Bus δ => s.scl = true ∧ s.sda = false ∧ s.high = true)
        a.i2cUdelay := fun _ h => h
    have hkeep : Keeps Bus.Released a.i2cUdelay := fun _ h => ⟨h.sda, h.scl, h.busy⟩
    have hlook : Keeps Bus.Released a.i2cGetsda := fun _ h => ⟨h.sda, h.scl, h.busy⟩
    exact Triple.bind hdelay fun _ => hrise.bind fun _ => Triple.bind hkeep fun _ =>
      Triple.bind hlook fun _ => Triple.ite (fun _ => Triple.pure fun s h => ⟨h, .inr rfl⟩)
        fun _ => Triple.pure fun s h => ⟨h, .inl rfl⟩
  have hrest (c : Bool) : Triple (fun s : Bus δ => s.high = false ∧ s.busy = c)
      (a.i2cSetsda false >>= fun _ => a.i2cUdelay >>= fun _ => a.hiClock >>= fun ret =>
        if ret ≠ 0 then pure ret
        else a.i2cUdelay >>= fun _ => a.i2cSetsda true >>= fun _ => a.i2cUdelay >>= fun _ =>
          a.i2cGetsda >>= fun sda => if !sda then pure Errno.eBusy else pure 0)
      fun ret s => s.Released ∧ (ret = 0 ∨ ret = Errno.eBusy) ∨
        ret = Errno.eTimedout ∧ s.ClockFree true c := by
    have hdelay : Keeps (fun s : Bus δ => s.sda = false ∧ s.busy = c) a.i2cUdelay := fun _ h => h
    refine (hfall c).bind fun _ => Triple.bind hdelay fun _ => (a.hiClock_spec false c).bind
      fun ret => Triple.ite (fun hret => Triple.pure fun s h => ?_) fun hret => ?_
    · obtain ⟨h0, -⟩ | h := h
      · exact absurd h0 hret
      · exact .inr h
    · refine hend.conseq (fun s h => ?_) fun ret s h => .inl h
      obtain ⟨-, hwires, hhigh⟩ | ⟨htime, -⟩ := h
      · exact ⟨hwires.scl, hwires.sda, hhigh⟩
      · exact absurd (not_not.mp hret) (htime ▸ by decide)
  have hstop : a.i2cStop s = (if (a.getscl s.data).1 then pure Errno.eNotsup else _ :
      StateM (Bus δ) ℤ) (a.i2cGetscl s).2 := rfl
  rw [hstop]
  split
  case isTrue =>
    exact .inr (.inr (.inl ⟨rfl, fun h => ⟨h.sda, h.scl, h.busy⟩, fun h => ⟨h.sda, h.scl, h.busy⟩⟩))
  case isFalse hlow =>
    have hdown : (s.scl && (a.getscl s.data).1) = false := by
      rw [Bool.eq_false_iff.mpr hlow, Bool.and_false]
    obtain ⟨h, h0 | hbusy⟩ | htime := hrest s.busy (a.i2cGetscl s).2 ⟨hdown, rfl⟩
    · exact .inl ⟨h0, h⟩
    · exact .inr (.inl ⟨hbusy, h⟩)
    · exact .inr (.inr (.inr htime))

end I2cAdapter

end GfxDrm.I2c
