import GfxDrm.I2c.Gmbus

/-! What the transfers of the GMBUS controller put on the wire. -/

namespace GfxDrm.I2c
open Bytes Hoare

variable {δ : Type}

/-! ### A transfer of messages that fit -/

/-- A cycle that has all its bytes takes no more. -/
theorem GmbusCycle.push_of_full {c : GmbusCycle} (h : c.bytes.length = c.count.toNat)
    (bs : List (BitVec 8)) : c.push bs = c := by
  rw [← c.push_take (show c.bytes.length + 0 = _ from h), List.take_zero, c.push_nil]

namespace Gmbus

/-- No cycle is under way. -/
def Settled (s : Gmbus δ) : Prop := ∀ rd bs, pushWire rd bs s.wire = s.wire

theorem Settled.of_full {s : Gmbus δ} {c : GmbusCycle} {l : List GmbusPhase}
    (hwire : s.wire = .cycle c :: l) (h : c.bytes.length = c.count.toNat) : s.Settled := by
  intro rd bs
  rw [hwire, pushWire, c.push_of_full h, ite_self]

/-- From `s` to `s'` the messages went over the wire. -/
structure Carried (msgs : List I2cMsg) (s s' : Gmbus δ) : Prop where
  exchanged : ∃ cs : List GmbusCycle, s'.wire = (cs.map .cycle).reverse ++ s.wire ∧
    Exchanged s.mem msgs (cs.map GmbusCycle.segment) s'.mem
  settled : s'.Settled
  rest : s'.gmbus5 = 0

theorem Carried.trans {msgs msgs' : List I2cMsg} {s s' s'' : Gmbus δ} (h : Carried msgs s s')
    (h' : Carried msgs' s' s'') : Carried (msgs ++ msgs') s s'' := by
  obtain ⟨cs, hwire, hex⟩ := h.exchanged
  obtain ⟨cs', hwire', hex'⟩ := h'.exchanged
  refine ⟨⟨cs ++ cs', ?_, ?_⟩, h'.settled, h'.rest⟩
  · rw [hwire', hwire, List.map_append, List.reverse_append, List.append_assoc]
  · rw [List.map_append]
    exact hex.append hex'

theorem writeGmbus1_mem (v : BitVec 32) (s : Gmbus δ) : (s.writeGmbus1 v).mem = s.mem := by
  rw [writeGmbus1]
  split <;> rfl

theorem writeGmbus1_gmbus5 (v : BitVec 32) (s : Gmbus δ) :
    (s.writeGmbus1 v).gmbus5 = s.gmbus5 := by
  rw [writeGmbus1]
  split <;> rfl

end Gmbus

variable {msg : I2cMsg}

theorem I2cMsg.Fits.addr_eq (h : msg.Fits) :
    (msg.addr.setWidth 7).toNat = msg.addr.toNat := by
  rw [BitVec.toNat_setWidth, Nat.mod_eq_of_lt h.1]

theorem I2cMsg.Fits.len_eq (h : msg.Fits) :
    (BitVec.ofNat 9 msg.len).toNat = msg.len := by
  rw [BitVec.toNat_ofNat, Nat.mod_eq_of_lt h.2]

/-- The cycle of a message, before its bytes. -/
def openCycle (msg : I2cMsg) (rd : Bool) : GmbusCycle :=
  ⟨msg.addr.setWidth 7, rd, BitVec.ofNat 9 msg.len, [], Nat.zero_le _⟩

theorem GmbusAtRest.rest_watched (s : GmbusAtRest δ) : s.watched.gmbus5 = 0 := s.rest

theorem GmbusAtRest.settled_watched (s : GmbusAtRest δ) : s.watched.Settled := fun _ _ => rfl

theorem Gmbus.writeGmbus1_polls (v : BitVec 32) (s : Gmbus δ) :
    (s.writeGmbus1 v).polls = s.polls := by
  rw [writeGmbus1]
  split <;> rfl

theorem Gmbus.loadIndex_polls (gmbus5 : BitVec 32) (s : Gmbus δ) :
    (s.loadIndex gmbus5).polls = s.polls := by
  rw [loadIndex]
  split <;> rfl

theorem Gmbus.loadIndex_spec {s : Gmbus δ} (h : s.gmbus5 = 0) (gmbus5 : BitVec 32) :
    (s.loadIndex gmbus5).gmbus5 = gmbus5 ∧ (s.loadIndex gmbus5).mem = s.mem ∧
      (s.loadIndex gmbus5).wire = s.wire := by
  rw [loadIndex]
  split
  case isTrue => exact ⟨rfl, rfl, rfl⟩
  case isFalse h0 => exact ⟨h.trans (not_not.mp h0).symm, rfl, rfl⟩

theorem Gmbus.clearIndex_spec {s : Gmbus δ} {gmbus5 : BitVec 32} (h : s.gmbus5 = gmbus5) :
    (s.clearIndex gmbus5).gmbus5 = 0 ∧ (s.clearIndex gmbus5).mem = s.mem ∧
      (s.clearIndex gmbus5).wire = s.wire := by
  rw [clearIndex]
  split
  case isTrue => exact ⟨rfl, rfl, rfl⟩
  case isFalse h0 => exact ⟨h.trans (not_not.mp h0), rfl, rfl⟩

/-- A command for a message that fits starts its cycle, after the one of an index. -/
theorem Gmbus.writeGmbus1_wire (index : Option (BitVec 8)) {rd : Bool} {dir v : BitVec 32}
    (hdir : dir = (BitVec.ofBool rd).setWidth 32) (h : msg.Fits)
    (hv : v = gmbus1 (indexWord index) dir msg) (s : Gmbus δ) :
    (s.writeGmbus1 v).wire =
      .cycle (if rd then openCycle msg rd
        else (openCycle msg rd).push (wordBytes s.gmbus3)) ::
        ((indexCycles (msg.addr.setWidth 7) v s.gmbus5).map .cycle ++ s.wire) := by
  rw [gmbus1_eq index hdir h] at hv
  obtain ⟨hrd, hcycle, -, hstop, hrdy⟩ := fieldsWord_bits index.isSome (index.getD 0)
    (BitVec.ofNat 9 msg.len) (msg.addr.setWidth 7) rd
  rw [← hv] at hrd hcycle hstop hrdy
  have haddr : v.extractLsb' 1 7 = msg.addr.setWidth 7 := by rw [hv, fieldsWord_addr]
  have hcount : v.extractLsb' 16 9 = BitVec.ofNat 9 msg.len := by rw [hv, fieldsWord_count]
  simp only [writeGmbus1, dataCycle, hrd, hrdy, hcycle, hstop, haddr, hcount, if_true,
    Bool.false_eq_true, if_false, List.nil_append, List.cons_append, openCycle]

/-- GMBUS1 has the index of one byte. -/
theorem indexCycles_gmbus1 (index : Option (BitVec 8)) {rd : Bool} {dir : BitVec 32}
    (hdir : dir = (BitVec.ofBool rd).setWidth 32) (h : msg.Fits) (addr : BitVec 7) :
    indexCycles addr (gmbus1 (indexWord index) dir msg) 0 =
      index.elim [] fun b => [⟨addr, false, 1, [b], Nat.le_refl 1⟩] := by
  rw [indexCycles, gmbus1_eq index hdir h, (fieldsWord_bits _ _ _ _ _).2.2.1,
    fieldsWord_index]
  cases index with
  | none => rfl
  | some b => rfl

/-- GMBUS5 has the index of two bytes, the first one above the second. -/
theorem indexCycles_gmbus5 (addr : BitVec 7) (v : BitVec 32) (b b' : BitVec 8) :
    indexCycles addr v (indexWord2 b b') = [⟨addr, false, 2, [b, b'], Nat.le_refl 2⟩] := by
  obtain ⟨hbit, hhigh, hlow⟩ := indexWord2_fields b b'
  rw [indexCycles, hbit]
  simp only [hhigh, hlow, if_true]

/-- The cycle of a message that has got its bytes. -/
theorem push_openCycle (h : msg.Fits) (rd : Bool) {bs : List (BitVec 8)} (hbs : bs.length = msg.len) :
    ((openCycle msg rd).push bs).segment = ⟨msg.addr.toNat, rd, bs⟩ ∧
      ((openCycle msg rd).push bs).bytes.length = ((openCycle msg rd).push bs).count.toNat := by
  have hbytes : ((openCycle msg rd).push bs).bytes = bs :=
    (openCycle msg rd).push_of_fits bs ((Nat.zero_add _).trans (hbs.trans h.len_eq.symm)).le
  constructor
  · rw [GmbusCycle.segment, hbytes]
    exact congrArg (Segment.mk · rd bs) h.addr_eq
  · rw [hbytes]
    exact hbs.trans h.len_eq.symm

namespace IntelGmbus
variable (a : IntelGmbus δ) {s : Gmbus δ}

/-- A read: its cycle follows that of the index, and its bytes are in the buffer. -/
theorem gmbusXferRead_spec (index : Option (BitVec 8)) {v : BitVec 32} (h : msg.Fits)
    (hv : v = gmbus1 (indexWord index) gmbusSlaveRead msg)
    (hret : (a.gmbusXferRead msg (indexWord index) s).1 = 0) :
    let s' := (a.gmbusXferRead msg (indexWord index) s).2
    ∃ bs, bs.length = msg.len ∧ s'.mem = fill s.mem msg.buf bs ∧
      s'.wire = .cycle ((openCycle msg true).push bs) ::
        ((indexCycles (msg.addr.setWidth 7) v s.gmbus5).map .cycle ++ s.wire) ∧
      s'.gmbus5 = s.gmbus5 := by
  have hwire := Gmbus.writeGmbus1_wire index slaveRead_eq h hv s
  subst hv
  obtain ⟨bs, hbs, hmem, hwire', h5⟩ := a.readWords_spec rfl hwire rfl
    ((Nat.zero_add _).trans h.len_eq.symm) hret
  rw [Gmbus.writeGmbus1_mem] at hmem
  rw [Gmbus.writeGmbus1_gmbus5] at h5
  exact ⟨bs, hbs, hmem, hwire', h5⟩

/-- A write: its cycle has the bytes of the buffer. -/
theorem gmbusXferWrite_spec (h : msg.Fits) (hs : s.Settled) (hrest : s.gmbus5 = 0)
    (hret : (a.gmbusXferWrite msg s).1 = 0) :
    (a.gmbusXferWrite msg s).2.mem = s.mem ∧
      (a.gmbusXferWrite msg s).2.wire =
        .cycle ((openCycle msg false).push (peek s.mem msg.buf msg.len)) :: s.wire ∧
      (a.gmbusXferWrite msg s).2.gmbus5 = 0 := by
  have hwire := Gmbus.writeGmbus1_wire none slaveWrite_eq h rfl
    (s.writeGmbus3 (packWord s.mem msg.buf msg.len))
  have hlen := h.len_eq
  have hnone := indexCycles_gmbus1 none slaveWrite_eq h (msg.addr.setWidth 7)
  have hfirst : (openCycle msg false).push (wordBytes (packWord s.mem msg.buf msg.len)) =
      (openCycle msg false).push (peek s.mem msg.buf (min msg.len 4)) := by
    rw [← take_packWord, (openCycle msg false).push_take ((Nat.zero_add _).trans hlen.symm)]
  have hwire' : (Gmbus.writeGmbus1 (gmbus1 0 gmbusSlaveWrite msg)
      (s.writeGmbus3 (packWord s.mem msg.buf msg.len))).wire =
        .cycle ((openCycle msg false).push (peek s.mem msg.buf (min msg.len 4))) :: s.wire := by
    have hkeep : (s.writeGmbus3 (packWord s.mem msg.buf msg.len)).wire = s.wire := hs _ _
    have h5 : (s.writeGmbus3 (packWord s.mem msg.buf msg.len)).gmbus5 = 0 := hrest
    rw [h5, hnone, hkeep] at hwire
    exact hwire.trans (congrArg (GmbusPhase.cycle · :: s.wire) hfirst)
  have hbytes := (openCycle msg false).push_of_fits
    (peek s.mem msg.buf (min msg.len 4)) (by
      rw [length_peek]
      exact (Nat.zero_add _).trans_le ((Nat.min_le_left _ _).trans hlen.ge))
  obtain ⟨hmem, hpush, h5⟩ := a.writeWords_spec (by rfl) hwire' rfl (by
    rw [hbytes, List.length_append, length_peek]
    change 0 + min msg.len 4 + (msg.len - 4) = (BitVec.ofNat 9 msg.len).toNat
    omega) hret
  rw [Gmbus.writeGmbus1_mem] at hmem hpush
  rw [Gmbus.writeGmbus1_gmbus5] at h5
  refine ⟨hmem, hpush.trans ?_, h5.trans hrest⟩
  rw [GmbusCycle.push_push]
  exact congrArg (fun bs => GmbusPhase.cycle ((openCycle msg false).push bs) :: s.wire)
    (peek_word s.mem msg.buf msg.len)

theorem gmbusXferIndexRead_run (msg next : I2cMsg) (s : Gmbus δ) :
    a.gmbusXferIndexRead msg next s =
      ((a.gmbusXferRead next (indexGmbus1 s.mem msg) (s.loadIndex (indexGmbus5 s.mem msg))).1,
        (a.gmbusXferRead next (indexGmbus1 s.mem msg)
          (s.loadIndex (indexGmbus5 s.mem msg))).2.clearIndex (indexGmbus5 s.mem msg)) := rfl

/-- An index read, whatever it puts into the two registers. -/
theorem indexRead_cycles {msg next : I2cMsg} (index : Option (BitVec 8)) (gmbus5 : BitVec 32)
    {v : BitVec 32} (h : next.Fits) (hv : v = gmbus1 (indexWord index) gmbusSlaveRead next)
    (hindex : indexGmbus1 s.mem msg = indexWord index) (h5 : indexGmbus5 s.mem msg = gmbus5)
    (hrest : s.gmbus5 = 0) (hret : (a.gmbusXferIndexRead msg next s).1 = 0) :
    let s' := (a.gmbusXferIndexRead msg next s).2
    ∃ bs, bs.length = next.len ∧ s'.mem = fill s.mem next.buf bs ∧
      s'.wire = .cycle ((openCycle next true).push bs) ::
        ((indexCycles (next.addr.setWidth 7) v gmbus5).map .cycle ++ s.wire) ∧
      s'.gmbus5 = 0 := by
  obtain ⟨hloaded, hmem0, hwire0⟩ := Gmbus.loadIndex_spec hrest gmbus5
  rw [gmbusXferIndexRead_run, hindex, h5] at hret ⊢
  obtain ⟨bs, hbs, hmem, hwire, h5'⟩ := a.gmbusXferRead_spec index h hv hret
  obtain ⟨hcleared, hmem1, hwire1⟩ := Gmbus.clearIndex_spec (h5'.trans hloaded)
  rw [hloaded, hwire0] at hwire
  rw [hmem0] at hmem
  exact ⟨bs, hbs, hmem1.trans hmem, hwire1.trans hwire, hcleared⟩

/-- An index read writes the index to the slave of the read, if there is one. -/
theorem gmbusXferIndexRead_spec {msg next : I2cMsg} (hlen : msg.len ≤ 2) (h : next.Fits)
    (hrest : s.gmbus5 = 0) (hret : (a.gmbusXferIndexRead msg next s).1 = 0) :
    let s' := (a.gmbusXferIndexRead msg next s).2
    ∃ bs, ∃ cs : List GmbusCycle, bs.length = next.len ∧ s'.mem = fill s.mem next.buf bs ∧
      s'.wire = ((cs ++ [(openCycle next true).push bs]).map .cycle).reverse ++ s.wire ∧
      s'.gmbus5 = 0 ∧ cs.map GmbusCycle.segment =
        if msg.len = 0 then [] else [⟨next.addr.toNat, false, peek s.mem msg.buf msg.len⟩] := by
  obtain h0 | h1 | h2 : msg.len = 0 ∨ msg.len = 1 ∨ msg.len = 2 := by omega
  · obtain ⟨bs, hbs, hmem, hwire, h5⟩ := a.indexRead_cycles none 0 h rfl
      (if_neg (by omega)) (if_neg (by omega)) hrest hret
    rw [indexCycles_gmbus1 none slaveRead_eq h] at hwire
    exact ⟨bs, [], hbs, hmem, hwire, h5, by rw [if_pos h0]; rfl⟩
  · obtain ⟨bs, hbs, hmem, hwire, h5⟩ := a.indexRead_cycles (some (s.mem msg.buf)) 0 h rfl
      (if_pos h1) (if_neg (by omega)) hrest hret
    rw [indexCycles_gmbus1 (some (s.mem msg.buf)) slaveRead_eq h] at hwire
    refine ⟨bs, [⟨next.addr.setWidth 7, false, 1, [s.mem msg.buf], Nat.le_refl 1⟩], hbs, hmem,
      hwire, h5, ?_⟩
    rw [h1]
    exact congrArg (fun n => [Segment.mk n false [s.mem msg.buf]]) h.addr_eq
  · obtain ⟨bs, hbs, hmem, hwire, h5⟩ := a.indexRead_cycles none
      (indexWord2 (s.mem msg.buf) (s.mem (msg.buf + 1))) h rfl
      (if_neg (by omega)) (if_pos h2) hrest hret
    rw [indexCycles_gmbus5] at hwire
    refine ⟨bs, [⟨next.addr.setWidth 7, false, 2, [s.mem msg.buf, s.mem (msg.buf + 1)],
      Nat.le_refl 2⟩], hbs, hmem, hwire, h5, ?_⟩
    rw [h2]
    exact congrArg (fun n => [Segment.mk n false [s.mem msg.buf, s.mem (msg.buf + 1)]]) h.addr_eq

/-- What one turn of the loop carries. -/
theorem xferStep_spec {step : XferStep} (hstep : step.Sound) (hfits : ∀ msg ∈ step.msgs, msg.Fits)
    (hs : s.Settled) (hrest : s.gmbus5 = 0) (hret : (a.xferStep step s).1 = 0) :
    Gmbus.Carried step.msgs s (a.xferStep step s).2 := by
  cases step with
  | one msg =>
    have h := hfits msg List.mem_cons_self
    rw [xferStep] at hret ⊢
    by_cases hrd : msg.rd = true
    · rw [if_pos hrd] at hret ⊢
      obtain ⟨bs, hbs, hmem, hwire, h5⟩ := a.gmbusXferRead_spec none h rfl hret
      rw [hrest, indexCycles_gmbus1 none slaveRead_eq h] at hwire
      obtain ⟨hseg, hfull⟩ := push_openCycle h true hbs
      refine ⟨⟨[_], hwire, ?_⟩, .of_full hwire hfull, h5.trans hrest⟩
      rw [List.map_singleton, hseg]
      exact .read hrd hbs (hmem ▸ .nil _)
    · rw [if_neg hrd] at hret ⊢
      obtain ⟨hmem, hwire, h5⟩ := a.gmbusXferWrite_spec h hs hrest hret
      obtain ⟨hseg, hfull⟩ := push_openCycle h false (length_peek s.mem msg.buf msg.len)
      refine ⟨⟨[_], hwire, ?_⟩, .of_full hwire hfull, h5⟩
      rw [List.map_singleton, hseg]
      exact .write (Bool.eq_false_iff.mpr hrd) (hmem ▸ .nil _)
  | index msg next =>
    obtain ⟨hrd, hle, hnext, haddr, h0⟩ := hstep
    have h := hfits next (List.mem_cons_of_mem _ List.mem_cons_self)
    obtain ⟨bs, cs, hbs, hmem, hwire, h5, hsegs⟩ := a.gmbusXferIndexRead_spec hle h hrest hret
    obtain ⟨hseg, hfull⟩ := push_openCycle h true hbs
    have hex : Exchanged s.mem [msg, next]
        [⟨msg.addr.toNat, false, peek s.mem msg.buf msg.len⟩, ⟨next.addr.toNat, true, bs⟩]
        (fill s.mem next.buf bs) := .write hrd (.read hnext hbs (.nil _))
    rw [if_neg h0, ← haddr] at hsegs
    refine ⟨⟨cs ++ [(openCycle next true).push bs], hwire, ?_⟩, ?_, h5⟩
    · rw [List.map_append, List.map_singleton, hsegs, hseg]
      exact hmem ▸ hex
    · rw [List.map_append, List.reverse_append] at hwire
      exact .of_full hwire hfull

/-- A message ends with 0 or with one of the two errors. -/
def Ended (ret : ℤ) : Prop := ret = 0 ∨ ret = Errno.eTimedout ∨ ret = Errno.eNxio

theorem hwStatus_ended (status : BitVec 32) (polls : List (BitVec 32)) :
    Ended (hwStatus status polls) := by
  rw [hwStatus]
  cases polls.find? (· &&& (gmbusSatoer ||| status) ≠ 0) with
  | none => exact .inr (.inl rfl)
  | some gmbus2 =>
    rw [Option.elim_some]
    split
    · exact .inr (.inr rfl)
    split
    · exact .inl rfl
    · exact .inr (.inl rfl)

theorem readWords_ended (n len buf : ℕ) (s : Gmbus δ) : Ended (a.readWords n len buf s).1 := by
  induction n generalizing len buf s with
  | zero => exact .inl rfl
  | succ n ih =>
    rw [readWords_succ]
    split
    · exact hwStatus_ended _ _
    · exact ih _ _ _

theorem writeWords_ended (n len buf : ℕ) (s : Gmbus δ) : Ended (a.writeWords n len buf s).1 := by
  induction n generalizing len buf s with
  | zero => exact .inl rfl
  | succ n ih =>
    rw [writeWords_succ]
    split
    · exact hwStatus_ended _ _
    · exact ih _ _ _

theorem xferStep_ended (step : XferStep) (s : Gmbus δ) : Ended (a.xferStep step s).1 := by
  cases step with
  | one msg =>
    rw [xferStep]
    split
    · exact a.readWords_ended _ _ _ _
    · exact a.writeWords_ended _ _ _ _
  | index msg next => exact a.readWords_ended _ _ _ _

variable {steps : List XferStep}

/-- The loop is through if a turn and the wait after it succeed, and the loop from there is. -/
theorem xferMsgs_through {i : ℕ} {step : XferStep} (h : (a.xferMsgs i (step :: steps) s).1.1 = 0) :
    (a.xferStep step s).1 = 0 ∧
      a.xferMsgs i (step :: steps) s =
        a.xferMsgs (i + step.msgs.length) steps (a.xferStep step s).2.waited := by
  have hrun : a.xferMsgs i (step :: steps) s =
      if (a.xferStep step s).1 = Errno.eTimedout ∨ (a.xferStep step s).1 = Errno.eNxio then
        (((a.xferStep step s).1, i), (a.xferStep step s).2)
      else if hwStatus gmbusHwWaitPhase ((a.xferStep step s).2.polls.headD []) ≠ 0 then
        ((hwStatus gmbusHwWaitPhase ((a.xferStep step s).2.polls.headD []), i),
          (a.xferStep step s).2.waited)
      else a.xferMsgs (i + step.msgs.length) steps (a.xferStep step s).2.waited := by
    rw [xferMsgs, run_bind, run_ite, run_bind, run_ite]
    rfl
  rw [hrun] at h ⊢
  by_cases herr : (a.xferStep step s).1 = Errno.eTimedout ∨ (a.xferStep step s).1 = Errno.eNxio
  · rw [if_pos herr] at h
    obtain herr | herr := herr
    · exact absurd (herr.symm.trans h) (by decide)
    · exact absurd (herr.symm.trans h) (by decide)
  rw [if_neg herr] at h ⊢
  by_cases hwait : hwStatus gmbusHwWaitPhase ((a.xferStep step s).2.polls.headD []) = 0
  · rw [if_neg (not_not.mpr hwait)]
    exact ⟨(a.xferStep_ended step s).resolve_right herr, rfl⟩
  · rw [if_pos hwait] at h
    exact absurd h hwait

/-- What the loop carries when it is through. -/
theorem xferMsgs_spec (hsteps : ∀ step ∈ steps, step.Sound)
    (hfits : ∀ msg ∈ steps.flatMap XferStep.msgs, msg.Fits) {i : ℕ} (hs : s.Settled)
    (hrest : s.gmbus5 = 0) (hret : (a.xferMsgs i steps s).1.1 = 0) :
    Gmbus.Carried (steps.flatMap XferStep.msgs) s (a.xferMsgs i steps s).2 := by
  induction steps generalizing i s with
  | nil => exact ⟨⟨[], rfl, .nil _⟩, hs, hrest⟩
  | cons step steps ih =>
    obtain ⟨hstep, hsteps⟩ := List.forall_mem_cons.mp hsteps
    obtain ⟨hfirst, hfits⟩ := List.forall_mem_append.mp hfits
    obtain ⟨h0, hrun⟩ := a.xferMsgs_through hret
    have hcarried := a.xferStep_spec hstep hfirst hs hrest h0
    rw [hrun] at hret ⊢
    have hwaited : Gmbus.Carried step.msgs s (a.xferStep step s).2.waited :=
      ⟨hcarried.exchanged, hcarried.settled, hcarried.rest⟩
    exact hwaited.trans (ih hsteps hfits hwaited.settled hwaited.rest hret)

/-- The loop that is through has counted all messages. -/
theorem xferMsgs_count {i : ℕ} (hret : (a.xferMsgs i steps s).1.1 = 0) :
    (a.xferMsgs i steps s).1.2 = i + (steps.flatMap XferStep.msgs).length := by
  induction steps generalizing i s with
  | nil => rfl
  | cons step steps ih =>
    obtain ⟨-, hrun⟩ := a.xferMsgs_through hret
    rw [hrun] at hret ⊢
    rw [ih hret, List.flatMap_cons, List.length_append, Nat.add_assoc]

/-! ### What a transfer leaves alone -/

/-- What the waits for idle are going to find, and GMBUS5. -/
def Frame (idlePolls : List (List (BitVec 32))) (gmbus5 : BitVec 32) (s : Gmbus δ) : Prop :=
  s.idlePolls = idlePolls ∧ s.gmbus5 = gmbus5

variable {idlePolls : List (List (BitVec 32))} {gmbus5 : BitVec 32}

theorem writeGmbus1_frame {v : BitVec 32} (h : Frame idlePolls gmbus5 s) :
    Frame idlePolls gmbus5 (s.writeGmbus1 v) := by
  rw [Gmbus.writeGmbus1]
  split <;> exact h

theorem readWords_frame (n len buf : ℕ) :
    Keeps (Frame idlePolls gmbus5) (a.readWords n len buf) := by
  induction n generalizing len buf with
  | zero => exact Keeps.pure
  | succ n ih =>
    intro s h
    rw [readWords_succ]
    split
    · exact h
    · exact ih _ _ _ h

theorem writeWords_frame (n len buf : ℕ) :
    Keeps (Frame idlePolls gmbus5) (a.writeWords n len buf) := by
  induction n generalizing len buf with
  | zero => exact Keeps.pure
  | succ n ih =>
    intro s h
    rw [writeWords_succ]
    split
    · exact h
    · exact ih _ _ _ h

/-- After an index read GMBUS5 is clear again. -/
theorem xferStep_frame (step : XferStep) : Keeps (Frame idlePolls 0) (a.xferStep step) := by
  cases step with
  | one msg =>
    rw [xferStep]
    split
    · exact fun s h => a.readWords_frame _ _ _ _ (writeGmbus1_frame h)
    · exact fun s h => a.writeWords_frame _ _ _ _ (writeGmbus1_frame h)
  | index msg next =>
    intro s h
    have hidle : (s.loadIndex (indexGmbus5 s.mem msg)).idlePolls = idlePolls := by
      rw [Gmbus.loadIndex]
      split <;> exact h.1
    have hloaded := (Gmbus.loadIndex_spec h.2 (indexGmbus5 s.mem msg)).1
    obtain ⟨hidle', hread⟩ := a.readWords_frame ((next.len + 3) / 4) next.len next.buf _
      (writeGmbus1_frame (v := gmbus1 (indexGmbus1 s.mem msg) gmbusSlaveRead next)
        ⟨hidle, hloaded⟩)
    rw [xferStep, gmbusXferIndexRead_run]
    refine ⟨?_, (Gmbus.clearIndex_spec hread).1⟩
    rw [Gmbus.clearIndex]
    split <;> exact hidle'

theorem xferMsgs_frame (i : ℕ) (steps : List XferStep) :
    Keeps (Frame idlePolls 0) (a.xferMsgs i steps) := by
  induction steps generalizing i with
  | nil => exact Keeps.pure
  | cons step steps ih =>
    refine Keeps.bind (a.xferStep_frame step) fun _ => Triple.ite (fun _ => Keeps.pure) fun _ => ?_
    exact Keeps.bind (fun _ => id) fun _ => Triple.ite (fun _ => Keeps.pure) fun _ => ih _

theorem gmbusWaitIdle_rest (h : s.gmbus5 = 0) :
    (a.gmbusWaitIdle s).2.gmbus5 = 0 := by
  change (if a.hasGmbusIrq then { s with gmbus4 := gmbusIdleEn } else s).gmbus5 = 0
  split <;> exact h

theorem writeGmbus1_rest (v : BitVec 32) (h : s.gmbus5 = 0) :
    (s.writeGmbus1 v).gmbus5 = 0 :=
  (s.writeGmbus1_gmbus5 v).trans h

/-- The three ways on from the loop. -/
theorem gmbusXfer_run (msgs : List I2cMsg) (hbit : s.forceBit = false) :
    a.gmbusXfer msgs s =
      if (a.xferAll msgs s).1.1 = 0 then a.finish (a.xferAll msgs s).1.2 (a.xferAll msgs s).2
      else if (a.xferAll msgs s).1.1 = Errno.eNxio then a.clearErr (a.xferAll msgs s).2
      else a.timedOut msgs (a.xferAll msgs s).2 := by
  rw [gmbusXfer, run_get_bind, hbit, if_neg Bool.false_ne_true, run_bind, run_ite, run_ite]

/-- No run leaves an index in GMBUS5. -/
theorem gmbusXfer_rest (msgs : List I2cMsg) (h : s.gmbus5 = 0) :
    (a.gmbusXfer msgs s).2.gmbus5 = 0 := by
  by_cases hbit : s.forceBit = true
  · rw [gmbusXfer, run_get_bind, if_pos hbit]
    exact h
  have hall : (a.xferAll msgs s).2.gmbus5 = 0 :=
    (a.xferMsgs_frame 0 (xferSteps msgs) { s with gmbus0 := a.reg0 } ⟨rfl, h⟩).2
  rw [a.gmbusXfer_run msgs (Bool.eq_false_iff.mpr hbit)]
  split
  · exact a.gmbusWaitIdle_rest (writeGmbus1_rest _ hall)
  split
  · exact writeGmbus1_rest _ (writeGmbus1_rest _ (a.gmbusWaitIdle_rest hall))
  · exact hall

/-- gmbus_xfer from one rest of the bus to the next; the wire is watched from its start. -/
def xfer (msgs : List I2cMsg) (s : GmbusAtRest δ) : ℤ × GmbusAtRest δ :=
  ((a.gmbusXfer msgs s.watched).1,
    ⟨(a.gmbusXfer msgs s.watched).2, a.gmbusXfer_rest msgs s.rest⟩)

/-- All messages are through on the controller. -/
def Completes (msgs : List I2cMsg) (s : Gmbus δ) : Prop :=
  s.forceBit = false ∧ (a.xferAll msgs s).1.1 = 0

/-- The bus where the messages are left to bit banging. -/
def fallsBack (msgs : List I2cMsg) (s : Gmbus δ) : Option (Bus δ) :=
  if s.forceBit then some s.toBus
  else if (a.xferAll msgs s).1.1 = 0 ∨ (a.xferAll msgs s).1.1 = Errno.eNxio then none
  else some (a.xferAll msgs s).2.toBus

/-- The messages are all through, on the controller or bit by bit. -/
def EveryCompleted (msgs : List I2cMsg) (s : Gmbus δ) : Prop :=
  a.Completes msgs s ∨ ∃ bus, a.fallsBack msgs s = some bus ∧ (a.doMsgs 0 msgs bus).1 = 0

/-- An index read that succeeds stands for the two messages. -/
def Replaces (msg next : I2cMsg) : Prop :=
  ∀ s : GmbusAtRest δ, (a.gmbusXferIndexRead msg next s.watched).1 = 0 →
    ∃ cs : List GmbusCycle,
      (a.gmbusXferIndexRead msg next s.watched).2.wire.reverse = cs.map .cycle ∧
        Exchanged s.mem [msg, next] (cs.map GmbusCycle.segment)
          (a.gmbusXferIndexRead msg next s.watched).2.mem

/-- The messages go over the wire as they are, then the stop condition; an index read is used only
in place of two messages that it stands for; the number of messages is returned. -/
structure Meets (msgs : List I2cMsg) (s : GmbusAtRest δ) : Prop where
  delivered : a.Completes msgs s.watched → ∃ cs : List GmbusCycle,
    (a.xfer msgs s).2.wire.reverse = cs.map .cycle ++ [.stop] ∧
      Exchanged s.mem msgs (cs.map GmbusCycle.segment) (a.xfer msgs s).2.mem
  indexed : s.forceBit = false →
    ∀ msg next, .index msg next ∈ xferSteps msgs → a.Replaces msg next
  returned : a.EveryCompleted msgs s.watched → (a.xfer msgs s).1 = msgs.length

/-- A write of at most two bytes before a read is one of an index to the slave of the read; the
messages that are all through have room in GMBUS1, and the stop condition after them gets out. -/
structure Serves (msgs : List I2cMsg) (s : GmbusAtRest δ) : Prop where
  indexed : s.forceBit = false → ∀ msg next, [msg, next] <:+: msgs →
    gmbusIsIndexRead msg next → msg.addr = next.addr ∧ msg.len ≠ 0 ∧ next.Fits
  fits : a.Completes msgs s.watched → ∀ msg ∈ msgs, msg.Fits
  idle : a.Completes msgs s.watched → (s.idlePolls.headD []).any (· &&& gmbusActive = 0)
  stopped : ∀ bus, a.fallsBack msgs s.watched = some bus → (a.doMsgs 0 msgs bus).1 = 0 →
    (a.i2cStop (a.doMsgs 0 msgs bus).2).1 = 0

/-! ### Index reads -/

end IntelGmbus

theorem flatMap_xferSteps (msgs : List I2cMsg) : (xferSteps msgs).flatMap XferStep.msgs = msgs := by
  fun_induction xferSteps msgs with
  | case1 => rfl
  | case2 msg => rfl
  | case3 msg next msgs hindex ih =>
    rw [List.flatMap_cons, ih]
    rfl
  | case4 msg next msgs hindex ih =>
    rw [List.flatMap_cons, ih]
    rfl

theorem gmbusIsIndexRead_iff (msg next : I2cMsg) :
    gmbusIsIndexRead msg next = true ↔ msg.rd = false ∧ msg.len ≤ 2 ∧ next.rd = true := by
  simp [gmbusIsIndexRead, and_assoc]

/-- The loop does an index read wherever there are two messages for one. -/
theorem index_mem_xferSteps (msgs : List I2cMsg) (msg next : I2cMsg) :
    .index msg next ∈ xferSteps msgs ↔ [msg, next] <:+: msgs ∧ gmbusIsIndexRead msg next := by
  fun_induction xferSteps msgs with
  | case1 => exact iff_of_false List.not_mem_nil fun h => absurd h.1.length_le (by simp)
  | case2 m => exact iff_of_false (by simp) fun h => absurd h.1.length_le (by simp)
  | case3 m n msgs hindex ih =>
    -- no index read begins with the read of another
    have hnot : ∀ l, gmbusIsIndexRead msg next → ¬[msg, next] <+: n :: l := by
      intro l hread hl
      have hn := (gmbusIsIndexRead_iff m n).mp hindex
      have hmsg := (gmbusIsIndexRead_iff msg next).mp hread
      obtain ⟨rfl, -⟩ := List.cons_prefix_cons.mp hl
      exact absurd (hmsg.1.symm.trans hn.2.2) (by decide)
    rw [List.mem_cons, ih, List.infix_cons_iff, List.infix_cons_iff, List.cons_prefix_cons,
      List.cons_prefix_cons]
    constructor
    · rintro (h | ⟨h, hread⟩)
      · obtain ⟨rfl, rfl⟩ := XferStep.index.inj h
        exact ⟨.inl ⟨rfl, rfl, List.nil_prefix⟩, hindex⟩
      · exact ⟨.inr (.inr h), hread⟩
    · rintro ⟨⟨rfl, rfl, -⟩ | h | h, hread⟩
      · exact .inl rfl
      · exact absurd h (hnot _ hread)
      · exact .inr ⟨h, hread⟩
  | case4 m n msgs hindex ih =>
    rw [List.mem_cons, ih, List.infix_cons_iff (a := m), List.cons_prefix_cons,
      List.cons_prefix_cons]
    constructor
    · rintro (h | ⟨h, hread⟩)
      · cases h
      · exact ⟨.inr h, hread⟩
    · rintro ⟨⟨rfl, rfl, -⟩ | h, hread⟩
      · exact absurd hread hindex
      · exact .inr ⟨h, hread⟩

namespace IntelGmbus
variable (a : IntelGmbus δ)

/-- Polls that always find the word ready see a read through. -/
theorem readWords_ready {n k len buf : ℕ} (hn : n ≤ k) {s : Gmbus δ}
    (hs : s.polls = List.replicate k [gmbusHwRdy]) : (a.readWords n len buf s).1 = 0 := by
  induction n generalizing k len buf s with
  | zero => rfl
  | succ n ih =>
    obtain ⟨k, rfl⟩ := Nat.exists_eq_add_one_of_ne_zero (by omega : k ≠ 0)
    have hready : hwStatus gmbusHwRdy (s.polls.headD []) = 0 := by
      rw [hs, List.replicate_succ, List.headD_cons]
      decide
    rw [readWords_succ, if_neg (not_not.mpr hready)]
    refine ih (k := k) (by omega) ?_
    change s.polls.tail = _
    rw [hs]
    rfl

/-- An index read stands for its messages if and only if they are a write of an index and a read
that fits, to one slave. -/
theorem replaces_iff (d : Bus δ) {msg next : I2cMsg} (h : gmbusIsIndexRead msg next = true) :
    a.Replaces msg next ↔ msg.addr = next.addr ∧ msg.len ≠ 0 ∧ next.Fits := by
  obtain ⟨hrd, hle, hnext⟩ := (gmbusIsIndexRead_iff msg next).mp h
  constructor
  · intro hreplaces
    obtain ⟨s, hs⟩ : ∃ s : GmbusAtRest δ,
        s.polls = List.replicate ((next.len + 3) / 4) [gmbusHwRdy] :=
      ⟨{ toBus := d, polls := _, idlePolls := [], words := [], rest := rfl }, rfl⟩
    have hret : (a.gmbusXferIndexRead msg next s.watched).1 = 0 := by
      refine a.readWords_ready (k := (next.len + 3) / 4) le_rfl ?_
      rw [Gmbus.writeGmbus1_polls, Gmbus.loadIndex_polls]
      exact hs
    obtain ⟨cs, hwire, hex⟩ := hreplaces s hret
    have hfits := hex.fits (GmbusCycle.segment_fits cs) next (by simp)
    obtain ⟨bs, cs', hbs, -, hwire', -, hsegs⟩ := a.gmbusXferIndexRead_spec hle hfits s.rest_watched
      hret
    have hcycles : cs = cs' ++ [(openCycle next true).push bs] := by
      have hnil : s.watched.wire = [] := rfl
      rw [hwire', hnil, List.append_nil, List.reverse_reverse] at hwire
      exact (List.map_injective_iff.mpr (fun _ _ => GmbusPhase.cycle.inj) hwire).symm
    have haddr := hex.map_addr
    rw [hcycles, List.map_append, hsegs] at haddr
    by_cases h0 : msg.len = 0
    · rw [if_pos h0] at haddr
      exact absurd (congrArg List.length haddr) (by simp)
    · rw [if_neg h0] at haddr
      exact ⟨(BitVec.eq_of_toNat_eq (List.cons.inj haddr).1).symm, h0, hfits⟩
  · rintro ⟨haddr, h0, hfits⟩ s hret
    have hmsg : msg.Fits := ⟨haddr ▸ hfits.1, by omega⟩
    have hstep : XferStep.Sound (.index msg next) := ⟨hrd, hle, hnext, haddr, h0⟩
    have hcarried := a.xferStep_spec hstep
      (List.forall_mem_cons.mpr ⟨hmsg, List.forall_mem_singleton.mpr hfits⟩)
      s.settled_watched s.rest_watched hret
    obtain ⟨cs, hwire, hex⟩ := hcarried.exchanged
    have hnil : s.watched.wire = [] := rfl
    rw [hnil, List.append_nil] at hwire
    exact ⟨cs, (congrArg List.reverse hwire).trans (List.reverse_reverse _), hex⟩

/-! ### The result -/

theorem finish_run (i : ℕ) (s : Gmbus δ) :
    (a.finish i s).2.wire = .stop :: s.wire ∧ (a.finish i s).2.mem = s.mem ∧
      (a.finish i s).1 = if (s.idlePolls.headD []).any (· &&& gmbusActive = 0) then (i : ℤ)
        else Errno.eTimedout := by
  have hstop : s.writeGmbus1 (gmbusCycleStop ||| gmbusSwRdy) =
      { s with wire := .stop :: s.wire } := by
    have hrdy : (gmbusCycleStop ||| gmbusSwRdy).getLsbD 30 = true := by decide
    have hwait : (gmbusCycleStop ||| gmbusSwRdy).getLsbD 25 = false := by decide
    have hbit : (gmbusCycleStop ||| gmbusSwRdy).getLsbD 27 = true := by decide
    simp only [Gmbus.writeGmbus1, hrdy, hwait, hbit, if_true, Bool.false_eq_true, if_false,
      List.nil_append, List.cons_append]
  have hidle (s : Gmbus δ) : (a.gmbusWaitIdle s).2.wire = s.wire ∧
      (a.gmbusWaitIdle s).2.mem = s.mem ∧ (a.gmbusWaitIdle s).1 =
        if (s.idlePolls.headD []).any (· &&& gmbusActive = 0) then 0 else Errno.eTimedout := by
    change (if a.hasGmbusIrq then { s with gmbus4 := gmbusIdleEn } else s).wire = s.wire ∧
      (if a.hasGmbusIrq then { s with gmbus4 := gmbusIdleEn } else s).mem = s.mem ∧
      (if ((if a.hasGmbusIrq then { s with gmbus4 := gmbusIdleEn } else s).idlePolls.headD
        []).any (· &&& gmbusActive = 0) then 0 else Errno.eTimedout) = _
    split <;> exact ⟨rfl, rfl, rfl⟩
  obtain ⟨hwire, hmem, hret⟩ := hidle { s with wire := .stop :: s.wire }
  rw [finish, run_bind, run_modify, hstop]
  refine ⟨hwire, hmem, ?_⟩
  change (if (a.gmbusWaitIdle _).1 ≠ 0 then Errno.eTimedout else (i : ℤ)) = _
  rw [hret]
  split
  · rfl
  · rfl

variable {msgs : List I2cMsg}

theorem gmbusXfer_fallsBack {s : Gmbus δ} {bus : Bus δ} (h : a.fallsBack msgs s = some bus) :
    (a.gmbusXfer msgs s).1 = (a.i2cDoTransfer msgs bus).1 := by
  rw [fallsBack] at h
  by_cases hbit : s.forceBit = true
  · rw [if_pos hbit] at h
    obtain rfl := Option.some.inj h
    rw [gmbusXfer, run_get_bind, if_pos hbit]
    rfl
  rw [if_neg hbit] at h
  rw [a.gmbusXfer_run msgs (Bool.eq_false_iff.mpr hbit)]
  split at h
  case isTrue => cases h
  case isFalse hret =>
    obtain ⟨h0, hnak⟩ := not_or.mp hret
    obtain rfl := Option.some.inj h
    rw [if_neg h0, if_neg hnak]
    rfl

/-- The stop condition after the messages decides what bit banging returns. -/
theorem doTransfer_eq_iff {bus : Bus δ} (h : (a.doMsgs 0 msgs bus).1 = 0) :
    (a.i2cDoTransfer msgs bus).1 = msgs.length ↔
      (a.i2cStop (a.doMsgs 0 msgs bus).2).1 = 0 := by
  have hrun : (a.i2cDoTransfer msgs bus).1 =
      if (a.i2cStop (a.doMsgs 0 msgs bus).2).1 ≠ 0 then (a.i2cStop (a.doMsgs 0 msgs bus).2).1
      else msgs.length := by
    rw [I2cAdapter.i2cDoTransfer, run_bind, if_neg (not_not.mpr h), run_bind]
    split <;> rfl
  have hneg : (a.i2cStop (a.doMsgs 0 msgs bus).2).1 ≤ 0 := by
    obtain ⟨h, -⟩ | ⟨h, -⟩ | ⟨h, -⟩ | ⟨h, -⟩ := a.i2cStop_spec (a.doMsgs 0 msgs bus).2
    all_goals exact h.trans_le (by decide)
  rw [hrun]
  split
  case isTrue h0 => exact iff_of_false (by omega) h0
  case isFalse h0 => exact iff_of_true rfl (not_not.mp h0)

/-- A transfer on the controller ends in the stop condition. -/
theorem xfer_done {s : GmbusAtRest δ} (h : a.Completes msgs s.watched) :
    (a.xfer msgs s).2.wire = .stop :: (a.xferAll msgs s.watched).2.wire ∧
      (a.xfer msgs s).2.mem = (a.xferAll msgs s.watched).2.mem ∧
      ((a.xfer msgs s).1 = msgs.length ↔
        (s.idlePolls.headD []).any (· &&& gmbusActive = 0) = true) := by
  have hrun : a.gmbusXfer msgs s.watched = _ := a.gmbusXfer_run msgs h.1
  rw [if_pos h.2] at hrun
  have hcount : (a.xferAll msgs s.watched).1.2 = _ := a.xferMsgs_count h.2
  rw [Nat.zero_add, flatMap_xferSteps] at hcount
  have hidle : (a.xferAll msgs s.watched).2.idlePolls = s.idlePolls :=
    (a.xferMsgs_frame 0 (xferSteps msgs) { s.watched with gmbus0 := a.reg0 } ⟨rfl, s.rest⟩).1
  obtain ⟨hwire, hmem, hret⟩ := a.finish_run msgs.length (a.xferAll msgs s.watched).2
  rw [hcount] at hrun
  rw [hidle, ← hrun] at hret
  refine ⟨(congrArg (·.2.wire) hrun).trans hwire, (congrArg (·.2.mem) hrun).trans hmem, ?_⟩
  change (a.gmbusXfer msgs s.watched).1 = _ ↔ _
  rw [hret]
  split
  case isTrue hany => exact iff_of_true rfl hany
  case isFalse hany =>
    have hneg : Errno.eTimedout < 0 := by decide
    exact iff_of_false (by omega) hany

/-- What it carries where the messages serve it. -/
theorem xferAll_carried {s : GmbusAtRest δ} (h : a.Serves msgs s) (hc : a.Completes msgs s.watched) :
    Gmbus.Carried msgs s.watched (a.xferAll msgs s.watched).2 := by
  have hsound : ∀ step ∈ xferSteps msgs, step.Sound := by
    intro step hstep
    cases step with
    | one msg => trivial
    | index msg next =>
      obtain ⟨hnear, hread⟩ := (index_mem_xferSteps msgs msg next).mp hstep
      obtain ⟨hrd, hle, hnext⟩ := (gmbusIsIndexRead_iff msg next).mp hread
      obtain ⟨haddr, h0, -⟩ := h.indexed hc.1 msg next hnear hread
      exact ⟨hrd, hle, hnext, haddr, h0⟩
  have hfits := h.fits hc
  have hcarried := a.xferMsgs_spec (i := 0) (s := { s.watched with gmbus0 := a.reg0 }) hsound
    (by rwa [flatMap_xferSteps]) s.settled_watched s.rest hc.2
  rw [flatMap_xferSteps] at hcarried
  exact ⟨hcarried.exchanged, hcarried.settled, hcarried.rest⟩

/-- A transfer meets its contract if and only if the messages serve it. -/
theorem gmbus_xfer_meets_iff (msgs : List I2cMsg) (s : GmbusAtRest δ) :
    a.Meets msgs s ↔ a.Serves msgs s := by
  have hreplaces : (s.forceBit = false →
      ∀ msg next, .index msg next ∈ xferSteps msgs → a.Replaces msg next) ↔
      (s.forceBit = false → ∀ msg next, [msg, next] <:+: msgs → gmbusIsIndexRead msg next →
        msg.addr = next.addr ∧ msg.len ≠ 0 ∧ next.Fits) := by
    refine imp_congr_right fun _ => forall_congr' fun msg => forall_congr' fun next => ?_
    rw [index_mem_xferSteps, and_imp]
    exact imp_congr_right fun _ => forall_congr' fun hread => a.replaces_iff s.toBus hread
  constructor
  · intro h
    refine ⟨hreplaces.mp h.indexed, fun hc => ?_, fun hc => ?_, fun bus hbus hmsgs => ?_⟩
    · obtain ⟨cs, -, hex⟩ := h.delivered hc
      exact hex.fits (GmbusCycle.segment_fits cs)
    · exact (a.xfer_done hc).2.2.mp (h.returned (.inl hc))
    · have hret := h.returned (.inr ⟨bus, hbus, hmsgs⟩)
      exact (a.doTransfer_eq_iff hmsgs).mp ((a.gmbusXfer_fallsBack hbus).symm.trans hret)
  · intro h
    refine ⟨fun hc => ?_, hreplaces.mpr h.indexed, fun hc => ?_⟩
    · obtain ⟨cs, hwire, hex⟩ := (a.xferAll_carried h hc).exchanged
      obtain ⟨hstop, hmem, -⟩ := a.xfer_done hc
      refine ⟨cs, ?_, hmem ▸ hex⟩
      have hnil : s.watched.wire = [] := rfl
      rw [hstop, hwire, hnil, List.append_nil, List.reverse_cons, List.reverse_reverse]
    · obtain hc | ⟨bus, hbus, hmsgs⟩ := hc
      · exact (a.xfer_done hc).2.2.mpr (h.idle hc)
      · exact (a.gmbusXfer_fallsBack hbus).trans
          ((a.doTransfer_eq_iff hmsgs).mpr (h.stopped bus hbus hmsgs))

end IntelGmbus

/-- A controller that has each word ready and goes idle; the slave that is read from sends AA BB. -/
def readyGmbus : GmbusAtRest (Bool × ℕ) where
  data := (true, 0)
  mem i := if i = 0 then 1 else 0
  polls := [[gmbusHwRdy], [gmbusHwWaitPhase]]
  idlePolls := [[0]]
  words := [0xbbaa]
  rest := rfl

def testGmbus : IntelGmbus (Bool × ℕ) :=
  { testAdapter fun _ => false with reg0 := 2, hasGmbusIrq := true }

/-- One byte for slave 30 before a read from slave 50: the byte goes to slave 50. -/
theorem gmbus_xfer_wrong_slave :
    (¬∀ (δ : Type) (a : IntelGmbus δ) (msgs : List I2cMsg) (s : GmbusAtRest δ), a.Meets msgs s) ∧
      (testGmbus.xfer [⟨0x30, false, false, 1, 0⟩, ⟨0x50, true, false, 2, 16⟩] readyGmbus).1 = 2 ∧
      (testGmbus.xfer [⟨0x30, false, false, 1, 0⟩, ⟨0x50, true, false, 2, 16⟩]
        readyGmbus).2.wire.reverse = [.cycle ⟨0x50, false, 1, [1], Nat.le_refl 1⟩,
          .cycle ⟨0x50, true, 2, [0xaa, 0xbb], Nat.le_refl 2⟩, .stop] := by
  have hwire : (testGmbus.xfer [⟨0x30, false, false, 1, 0⟩, ⟨0x50, true, false, 2, 16⟩]
      readyGmbus).2.wire.reverse = [.cycle ⟨0x50, false, 1, [1], Nat.le_refl 1⟩,
        .cycle ⟨0x50, true, 2, [0xaa, 0xbb], Nat.le_refl 2⟩, .stop] := by
    decide +kernel
  refine ⟨fun h => ?_, by decide +kernel, hwire⟩
  obtain ⟨cs, hcs, hex⟩ := (h _ testGmbus [⟨0x30, false, false, 1, 0⟩, ⟨0x50, true, false, 2, 16⟩]
    readyGmbus).delivered (by unfold IntelGmbus.Completes; decide +kernel)
  have hfirst := congrArg List.head? (hcs.symm.trans hwire)
  have haddr := congrArg List.head? hex.map_addr
  cases cs with
  | nil => exact absurd haddr (by simp)
  | cons c cs =>
    have hc : c = ⟨0x50, false, 1, [1], Nat.le_refl 1⟩ :=
      GmbusPhase.cycle.inj (Option.some.inj hfirst)
    rw [hc] at haddr
    exact absurd (Option.some.inj haddr) (by decide)

end GfxDrm.I2c
