import GfxDrm.Lib.Run
import Mathlib.Data.BitVec

/-! The frequency of the GPU: the interrupts that ask for more or less of it and the work function
that sets it (i915_irq.c, intel_pm.c). -/

namespace GfxDrm.Rps
open Run

/-- GEN6_PM_RPS_EVENTS and GEN6_PM_RP_UP_THRESHOLD. -/
def rpsEvents : BitVec 32 := 0x70
def upThreshold : BitVec 32 := 0x20

/-- The range of the hardware, and RPe, to which Valleyview jumps. -/
structure RpsRange where
  minDelay : BitVec 8
  maxDelay : BitVec 8
  le : minDelay ≤ maxDelay
  rpeDelay : BitVec 8 := 0
  isValleyview : Bool := false

/-- `dev_priv->rps`, with the registers that go with it. -/
structure RpsState where
  pmIir : BitVec 32 := 0
  /-- GEN6_PMIMR: the interrupts that are masked. -/
  pmImr : BitVec 32
  curDelay : BitVec 8
  /-- GEN6_RPNSWREQ, the frequency of it, and GEN6_RP_INTERRUPT_LIMITS. -/
  request : BitVec 8
  limits : BitVec 32
  /-- The handlers between their lock and queue_work, and the work on the queue. -/
  toQueue : ℕ := 0
  queued : ℕ := 0
  /-- The `pm_iir` of a work function between its locks. -/
  work : Option (BitVec 32) := none

variable (d : RpsRange)

def RpsRange.upLimit : BitVec 32 := d.maxDelay.setWidth 32 <<< 24
def RpsRange.downLimit : BitVec 32 := d.minDelay.setWidth 32 <<< 16

/-- gen6_rps_limits: the value and the limits. -/
def RpsRange.gen6RpsLimits (val : BitVec 8) : BitVec 8 × BitVec 32 :=
  let val := if d.maxDelay ≤ val then d.maxDelay else val
  if val ≤ d.minDelay then (d.minDelay, d.upLimit ||| d.downLimit) else (val, d.upLimit)

/-- gen6_set_rps, and valleyview_set_rps where `punit` is the frequency that the hardware has. -/
def RpsRange.setRps (val punit : BitVec 8) (s : RpsState) : RpsState :=
  let (val, limits) := d.gen6RpsLimits val
  let s := if d.isValleyview then { s with curDelay := punit } else s
  if val = s.curDelay then s
  else { s with
    curDelay := val
    request := val
    limits := if d.isValleyview then s.limits else limits }

/-- The frequency that gen6_pm_rps_work wants. -/
def RpsRange.newDelay (pmIir : BitVec 32) (cur : BitVec 8) : BitVec 8 :=
  if pmIir &&& upThreshold ≠ 0 then
    if d.isValleyview ∧ cur < d.rpeDelay then d.rpeDelay else cur + 1
  else cur - 1

/-- gen6_pm_rps_work after its first lock. -/
def RpsRange.rpsWork (pmIir : BitVec 32) (punit : BitVec 8) (s : RpsState) : RpsState :=
  let s := { s with work := none }
  if pmIir &&& rpsEvents = 0 then s
  else
    let new := d.newDelay pmIir s.curDelay
    if d.minDelay ≤ new ∧ new ≤ d.maxDelay then d.setRps new punit s else s

inductive RpsAction where
  /-- gen6_queue_rps_work up to its queue_work. -/
  | queueRpsWork (pmIir : BitVec 32)
  /-- That queue_work. -/
  | queueWork
  /-- hsw_pm_irq_handler. -/
  | hswPmIrq (pmIir : BitVec 32)
  /-- gen6_pm_rps_work up to its first unlock; the queue has one thread. -/
  | rpsWork
  /-- The rest of it. -/
  | setRps (punit : BitVec 8)
  deriving DecidableEq, Repr

def RpsRange.step (s : RpsState) : RpsAction → Option RpsState
  | .queueRpsWork pmIir =>
    let pmIir := s.pmIir ||| pmIir
    some { s with pmIir := pmIir, pmImr := pmIir, toQueue := s.toQueue + 1 }
  | .queueWork =>
    if 0 < s.toQueue then some { s with toQueue := s.toQueue - 1, queued := s.queued + 1 } else none
  | .hswPmIrq pmIir =>
    let pmIir := s.pmIir ||| pmIir &&& rpsEvents
    let s := { s with pmIir := pmIir }
    some (if pmIir ≠ 0 then { s with pmImr := pmIir, queued := s.queued + 1 } else s)
  | .rpsWork =>
    if 0 < s.queued ∧ s.work = none then
      some { s with
        pmIir := 0
        pmImr := s.pmImr &&& ~~~rpsEvents
        queued := s.queued - 1
        work := some s.pmIir }
    else none
  | .setRps punit => s.work.map fun pmIir => d.rpsWork pmIir punit s

/-- gen6_enable_rps and valleyview_enable_rps; the hardware is at `status`. -/
def RpsRange.enableRps (status : BitVec 8) (pmImr : BitVec 32) : RpsState :=
  d.setRps (if d.isValleyview then d.rpeDelay else status) status
    { pmImr := pmImr &&& ~~~rpsEvents
      curDelay := if d.isValleyview then status else 0
      request := 10
      limits := d.upLimit ||| d.downLimit }

def RpsRange.system : System RpsState RpsAction :=
  .ofStep (fun s => ∃ status pmImr, s = d.enableRps status pmImr) d.step

/-! ### Over runs -/

/-- The hardware is to report on the way down at the lowest frequency only. -/
def RpsRange.LimitsFit (s : RpsState) : Prop :=
  s.limits = if s.curDelay = d.minDelay then d.upLimit ||| d.downLimit else d.upLimit

/-- The frequency is in the range and is what the hardware was asked for. -/
structure RpsRange.Fits (s : RpsState) : Prop where
  ge : d.minDelay ≤ s.curDelay
  le : s.curDelay ≤ d.maxDelay
  asked : d.isValleyview = false → d.LimitsFit s ∧ (d.minDelay ≠ 0 → s.request = s.curDelay)

/-- A masked event is pending, and for a pending one there is work to come. -/
structure RpsRange.Ok (s : RpsState) : Prop where
  fits : d.Fits s
  pending : s.pmImr &&& rpsEvents = s.pmImr &&& (s.pmIir &&& rpsEvents)
  work : s.pmIir &&& rpsEvents ≠ 0 → 0 < s.toQueue + s.queued

variable {d} {s s' : RpsState}

theorem gen6RpsLimits_spec (val : BitVec 8) : d.minDelay ≤ (d.gen6RpsLimits val).1 ∧
    (d.gen6RpsLimits val).1 ≤ d.maxDelay ∧ (d.gen6RpsLimits val).2 =
      if (d.gen6RpsLimits val).1 = d.minDelay then d.upLimit ||| d.downLimit else d.upLimit := by
  have hle := d.le
  obtain ⟨v, hv, hmax⟩ :
      ∃ v, v = (if d.maxDelay ≤ val then d.maxDelay else val) ∧ v ≤ d.maxDelay := by
    refine ⟨_, rfl, ?_⟩
    split
    · exact BitVec.le_refl _
    · bv_omega
  simp only [RpsRange.gen6RpsLimits, ← hv]
  split
  · exact ⟨BitVec.le_refl _, hle, (if_pos rfl).symm⟩
  · refine ⟨?_, hmax, (if_neg ?_).symm⟩ <;> dsimp only <;> bv_omega

/-- A new frequency fits; where it is the old one, as long as that did. -/
theorem fits_setRps (val punit : BitVec 8) (hs : d.isValleyview = false →
    s.curDelay = (d.gen6RpsLimits val).1 →
      d.LimitsFit s ∧ (d.minDelay ≠ 0 → s.request = s.curDelay)) :
    d.Fits (d.setRps val punit s) := by
  obtain ⟨hge, hle, hlimits⟩ := gen6RpsLimits_spec (d := d) val
  rw [RpsRange.setRps]
  generalize d.gen6RpsLimits val = p at *
  obtain ⟨new, limits⟩ := p
  cases hvlv : d.isValleyview with
  | true =>
    simp only [↓reduceIte]
    split
    · rename_i hnew
      exact ⟨hnew ▸ hge, hnew ▸ hle, fun hne => absurd (hvlv.symm.trans hne) (by decide)⟩
    · exact ⟨hge, hle, fun hne => absurd (hvlv.symm.trans hne) (by decide)⟩
  | false =>
    simp only [Bool.false_eq_true, ↓reduceIte]
    split
    · rename_i hnew
      exact ⟨hnew ▸ hge, hnew ▸ hle, fun _ => hs hvlv hnew.symm⟩
    · exact ⟨hge, hle, fun _ => ⟨hlimits, fun _ => rfl⟩⟩

theorem setRps_events (val punit : BitVec 8) (s : RpsState) :
    ∃ cur request limits, d.setRps val punit s =
      { s with curDelay := cur, request := request, limits := limits } := by
  rw [RpsRange.setRps]
  dsimp only
  split <;> split <;> exact ⟨_, _, _, rfl⟩

theorem and_and_self (x e : BitVec 32) : x &&& e = x &&& (x &&& e) := by
  rw [← BitVec.and_assoc, BitVec.and_self]

theorem RpsRange.Ok.step {a : RpsAction} (hs : d.Ok s) (h : d.step s a = some s') : d.Ok s' := by
  cases a with
  | queueRpsWork pmIir =>
    cases h
    exact ⟨⟨hs.fits.ge, hs.fits.le, hs.fits.asked⟩, and_and_self _ _,
      fun _ => Nat.add_pos_left (Nat.succ_pos _) _⟩
  | queueWork =>
    rw [RpsRange.step] at h
    split at h <;> cases h
    exact ⟨⟨hs.fits.ge, hs.fits.le, hs.fits.asked⟩, hs.pending,
      fun _ => Nat.add_pos_right _ (Nat.succ_pos _)⟩
  | hswPmIrq pmIir =>
    rw [RpsRange.step] at h
    generalize hiir : s.pmIir ||| pmIir &&& rpsEvents = iir at h
    cases h
    split
    · exact ⟨⟨hs.fits.ge, hs.fits.le, hs.fits.asked⟩, and_and_self _ _,
        fun _ => Nat.add_pos_right _ (Nat.succ_pos _)⟩
    · have hzero : iir = 0 := not_not.mp ‹_›
      have hs0 : s.pmIir = 0 := (BitVec.or_eq_zero_iff.mp (hiir.trans hzero)).1
      exact ⟨⟨hs.fits.ge, hs.fits.le, hs.fits.asked⟩, by simpa [hzero, hs0] using hs.pending,
        fun hne => absurd (by simp [hzero]) hne⟩
  | rpsWork =>
    rw [RpsRange.step] at h
    split at h <;> cases h
    exact ⟨⟨hs.fits.ge, hs.fits.le, hs.fits.asked⟩, by simp [BitVec.and_assoc],
      fun hne => absurd (by simp) hne⟩
  | setRps punit =>
    obtain ⟨pmIir, -, rfl⟩ := Option.map_eq_some_iff.mp h
    have hdone : d.Ok { s with work := none } :=
      ⟨⟨hs.fits.ge, hs.fits.le, hs.fits.asked⟩, hs.pending, hs.work⟩
    rw [RpsRange.rpsWork]
    split
    · exact hdone
    · dsimp only
      split
      · generalize d.newDelay pmIir s.curDelay = val
        have hfits := fits_setRps val punit fun hvlv _ => hdone.fits.asked hvlv
        obtain ⟨cur, request, limits, heq⟩ :=
          setRps_events (d := d) val punit { s with work := none }
        rw [heq] at hfits ⊢
        exact ⟨hfits, hs.pending, hs.work⟩
      · exact hdone

theorem enableRps_ok (status : BitVec 8) (pmImr : BitVec 32) : d.Ok (d.enableRps status pmImr) := by
  have hfits : d.Fits (d.enableRps status pmImr) := by
    refine fits_setRps _ _ fun hvlv heq => ?_
    have hge := (gen6RpsLimits_spec (d := d) (if d.isValleyview then d.rpeDelay else status)).1
    simp only [hvlv, Bool.false_eq_true, ↓reduceIte] at heq hge
    have hmin : d.minDelay = 0 := by bv_omega
    exact ⟨by simp [RpsRange.LimitsFit, hvlv, hmin], fun hne => absurd hmin hne⟩
  rw [RpsRange.enableRps] at hfits ⊢
  generalize (if d.isValleyview then d.rpeDelay else status) = val at *
  obtain ⟨cur, request, limits, heq⟩ := setRps_events (d := d) val status _
  rw [heq] at hfits ⊢
  exact ⟨hfits, by simp [BitVec.and_assoc], fun hne => absurd (by simp) hne⟩

/-- At 10, and an interrupt asks for more. -/
def gpu : RpsRange := { minDelay := 5, maxDelay := 20, le := by decide }

def busy : RpsState :=
  { gpu.enableRps 10 0 with pmIir := upThreshold, pmImr := upThreshold, toQueue := 1 }

theorem setRps_curDelay {val punit : BitVec 8} (hvlv : d.isValleyview = false)
    (hge : d.minDelay ≤ val) (hle : val ≤ d.maxDelay) :
    (d.setRps val punit s).curDelay = val := by
  have hval : (d.gen6RpsLimits val).1 = val := by
    simp only [RpsRange.gen6RpsLimits]
    split <;> split <;> bv_omega
  simp only [RpsRange.setRps, hval, hvlv, Bool.false_eq_true, ↓reduceIte]
  split
  · exact Eq.symm ‹_›
  · rfl

/-- The work moves the frequency by one, as far as the range goes, unless all bytes are in it: then
it goes from one end to the other. -/
theorem rpsWork_moves_iff (d : RpsRange) (hvlv : d.isValleyview = false) :
    (∀ (s : RpsState) (pmIir : BitVec 32) (punit : BitVec 8), d.minDelay ≤ s.curDelay →
      s.curDelay ≤ d.maxDelay → pmIir &&& rpsEvents ≠ 0 →
      (d.rpsWork pmIir punit s).curDelay.toNat =
        if pmIir &&& upThreshold ≠ 0 then min (s.curDelay.toNat + 1) d.maxDelay.toNat
        else max (s.curDelay.toNat - 1) d.minDelay.toNat) ↔
    ¬(d.minDelay = 0 ∧ d.maxDelay = 255) := by
  have hwork : ∀ (s : RpsState) (pmIir : BitVec 32) (punit : BitVec 8), pmIir &&& rpsEvents ≠ 0 →
      (d.rpsWork pmIir punit s).curDelay =
        let new := if pmIir &&& upThreshold ≠ 0 then s.curDelay + 1 else s.curDelay - 1
        if d.minDelay ≤ new ∧ new ≤ d.maxDelay then new else s.curDelay := by
    intro s pmIir punit hev
    simp only [RpsRange.rpsWork, if_neg hev, RpsRange.newDelay, hvlv, Bool.false_eq_true, false_and,
      ↓reduceIte]
    generalize (if pmIir &&& upThreshold ≠ 0 then s.curDelay + 1 else s.curDelay - 1) = new
    split
    · rename_i hin
      exact setRps_curDelay hvlv hin.1 hin.2
    · rfl
  constructor
  · rintro h ⟨hmin, hmax⟩
    have hdown := h { pmImr := 0, curDelay := 0, request := 0, limits := 0 } 0x10 0
      (by rw [hmin]; decide) (by rw [hmax]; decide) (by decide)
    rw [hwork _ _ _ (by decide), hmin, hmax] at hdown
    exact absurd hdown (by decide)
  · intro hrange s pmIir punit hge hle hev
    rw [hwork _ _ _ hev]
    dsimp only
    split <;> split <;> bv_omega

theorem rpsWork_moves_gpu : (gpu.rpsWork 0x20 0 busy).curDelay.toNat = 11 :=
  (rpsWork_moves_iff gpu rfl).mpr (by decide) busy 0x20 0 (by decide) (by decide) (by decide)

end GfxDrm.Rps
