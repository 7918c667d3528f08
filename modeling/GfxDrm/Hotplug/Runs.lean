import GfxDrm.Lib.Run

/-! Hotplug interrupts: storms on a pin, the polling that takes their place and the timer that
ends it (i915_irq.c). -/

namespace GfxDrm.Hotplug
open Run Function

/-- enum hpd_pin; HPD_PORT_A and HPD_TV are HPD_NONE. -/
inductive HpdPin where
  | none
  | crt
  | sdvoB
  | sdvoC
  | portB
  | portC
  | portD
  deriving DecidableEq, Repr

/-- The pins from 1 to HPD_NUM_PINS - 1. -/
def hpdPins : List HpdPin := [.crt, .sdvoB, .sdvoC, .portB, .portC, .portD]

inductive HpdMark where
  | enabled
  | disabled
  | markDisabled
  deriving DecidableEq, Repr

structure HpdStat where
  lastJiffies : ℤ := 0
  cnt : ℕ := 0
  mark : HpdMark := .enabled
  deriving DecidableEq, Repr

def drmConnectorPollHpd : BitVec 8 := 1
def drmConnectorPollConnect : BitVec 8 := 2
def drmConnectorPollDisconnect : BitVec 8 := 4
def hpdStormThreshold : ℕ := 5

/-- An intel_connector: the pin of its encoder and the polling it asks for. -/
structure Connector where
  hpdPin : HpdPin
  polled : BitVec 8 := 0
  deriving DecidableEq, Repr

/-- The connectors in the order of their list, and the device's table of trigger bits;
`stormPeriod` is HPD_STORM_DETECT_PERIOD in jiffies. -/
structure HotplugDev (n : ℕ) where
  connector : Fin n → Connector
  hasHotplug : Bool := true
  hpd : HpdPin → BitVec 32
  stormPeriod : ℤ

variable {n : ℕ} (d : HotplugDev n)

def HotplugDev.pin (c : Fin n) : HpdPin := (d.connector c).hpdPin

/-- How intel_hpd_init has a connector polled. -/
def HotplugDev.configured (c : Fin n) : BitVec 8 :=
  if (d.connector c).polled = 0 ∧ d.hasHotplug = true ∧ d.pin c ≠ .none then drmConnectorPollHpd
  else (d.connector c).polled

/-- How i915_reenable_hotplug_timer_func has a connector polled. -/
def HotplugDev.repolled (c : Fin n) : BitVec 8 :=
  if (d.connector c).polled = 0 then drmConnectorPollHpd else (d.connector c).polled

/-- What interrupts, work function and timer share. -/
structure HotplugState (n : ℕ) where
  stats : HpdPin → HpdStat := fun _ => {}
  eventBits : HpdPin → Bool := fun _ => false
  /-- `connector->polled`. -/
  polled : Fin n → BitVec 8
  /-- hotplug_reenable_timer is pending. -/
  timer : Bool := false
  enableProcessing : Bool := false
  /-- What a work function between its two loops has taken of `eventBits`. -/
  taken : Option (HpdPin → Bool) := Option.none

namespace HotplugState

def setMark (s : HotplugState n) (i : HpdPin) (mark : HpdMark) : HotplugState n :=
  { s with stats := update s.stats i { s.stats i with mark := mark } }

def setPolled (s : HotplugState n) (c : Fin n) (polled : BitVec 8) : HotplugState n :=
  { s with polled := update s.polled c polled }

/-- time_in_range. -/
def timeInRange (a b c : ℤ) : Prop := 0 ≤ a - b ∧ 0 ≤ c - a

instance (a b c : ℤ) : Decidable (timeInRange a b c) := inferInstanceAs (Decidable (_ ∧ _))

/-- An interrupt is for a pin that is enabled. -/
def Fires (s : HotplugState n) (trigger : BitVec 32) (i : HpdPin) : Prop :=
  d.hpd i &&& trigger ≠ 0 ∧ (s.stats i).mark = .enabled

/-- The pin's interrupts have come too often in the period that has begun. -/
def Storms (s : HotplugState n) (now : ℤ) (i : HpdPin) : Prop :=
  timeInRange now (s.stats i).lastJiffies ((s.stats i).lastJiffies + d.stormPeriod) ∧
    hpdStormThreshold < (s.stats i).cnt

instance (s : HotplugState n) (trigger : BitVec 32) (i : HpdPin) : Decidable (s.Fires d trigger i) :=
  inferInstanceAs (Decidable (_ ∧ _))

instance (s : HotplugState n) (now : ℤ) (i : HpdPin) : Decidable (s.Storms d now i) :=
  inferInstanceAs (Decidable (_ ∧ _))

/-- intel_hpd_irq_handler, for one pin. -/
def irqPin (trigger : BitVec 32) (now : ℤ) (s : HotplugState n) (i : HpdPin) : HotplugState n :=
  if s.Fires d trigger i then
    let stat := s.stats i
    if ¬ timeInRange now stat.lastJiffies (stat.lastJiffies + d.stormPeriod) then
      { s with
        stats := update s.stats i { stat with lastJiffies := now, cnt := 0 }
        eventBits := update s.eventBits i true }
    else if hpdStormThreshold < stat.cnt then
      { s with
        stats := update s.stats i { stat with mark := .markDisabled }
        eventBits := update s.eventBits i false }
    else
      { s with
        stats := update s.stats i { stat with cnt := stat.cnt + 1 }
        eventBits := update s.eventBits i true }
  else s

/-- intel_hpd_irq_handler. -/
def irqHandler (s : HotplugState n) (trigger : BitVec 32) (now : ℤ) : HotplugState n :=
  hpdPins.foldl (irqPin d trigger now) s

/-- i915_hotplug_work_func, its first loop for one connector; the flag is `hpd_disabled`. -/
def workConnector (acc : HotplugState n × Bool) (c : Fin n) : HotplugState n × Bool :=
  if d.pin c ≠ .none ∧ (acc.1.stats (d.pin c)).mark = .markDisabled ∧
      acc.1.polled c = drmConnectorPollHpd then
    ((acc.1.setMark (d.pin c) .disabled).setPolled c
      (drmConnectorPollConnect ||| drmConnectorPollDisconnect), true)
  else acc

/-- i915_hotplug_work_func until it drops `irq_lock`. -/
def workFunc (s : HotplugState n) : HotplugState n :=
  if s.enableProcessing = true then
    let acc := (List.finRange n).foldl (workConnector d) ({ s with eventBits := fun _ => false }, false)
    { acc.1 with
      timer := acc.1.timer || acc.2
      taken := some s.eventBits }
  else s

/-- The connectors that the second loop of i915_hotplug_work_func calls intel_hpd_irq_event for. -/
def eventConnectors (bits : HpdPin → Bool) : List (Fin n) :=
  (List.finRange n).filter fun c => bits (d.pin c)

/-- i915_reenable_hotplug_timer_func, for one connector of a pin. -/
def reenableConnector (i : HpdPin) (s : HotplugState n) (c : Fin n) : HotplugState n :=
  if d.pin c = i then s.setPolled c (d.repolled c) else s

/-- i915_reenable_hotplug_timer_func, for one pin. -/
def reenablePin (s : HotplugState n) (i : HpdPin) : HotplugState n :=
  if (s.stats i).mark = .disabled then
    (List.finRange n).foldl (reenableConnector d i) (s.setMark i .enabled)
  else s

/-- i915_reenable_hotplug_timer_func, as the timer's callback. -/
def reenableTimerFunc (s : HotplugState n) : HotplugState n :=
  hpdPins.foldl (reenablePin d) { s with timer := false }

end HotplugState

/-! ### Runs -/

/-- A device at work, and what has come of its events. -/
structure HotplugRun (n : ℕ) where
  state : HotplugState n
  /-- The pins with an event, not judged a storm, since a work function last took `eventBits`. -/
  raised : HpdPin → Bool := fun _ => false
  /-- The same when the running work function took them. -/
  owed : HpdPin → Bool := fun _ => false
  /-- An interrupt has come since a work function last took `eventBits`. -/
  untaken : Bool := true
  /-- For every work function that has returned, the pins whose events had been raised and the
  connectors it called. -/
  served : List ((HpdPin → Bool) × List (Fin n)) := []

inductive HotplugAction where
  | interrupt (trigger : BitVec 32) (now : ℤ)
  /-- `enable_hotplug_processing` is set, once the device is set up. -/
  | enable
  /-- The work function runs until it drops `irq_lock`. -/
  | work
  /-- It returns. -/
  | workDone
  | timer
  deriving DecidableEq, Repr

namespace HotplugRun

/-- The work function has run since the last interrupt. -/
def Settled (r : HotplugRun n) : Prop := r.untaken = false ∧ r.state.taken = none

def Enabled (r : HotplugRun n) : HotplugAction → Prop
  | .interrupt trigger _ => d.hasHotplug = true ∧ trigger ≠ 0
  | .enable => True
  | .work => r.state.taken.isNone = true
  | .workDone => r.state.taken.isSome = true
  | .timer => r.state.timer = true

def apply (r : HotplugRun n) : HotplugAction → HotplugRun n
  | .interrupt trigger now =>
    { r with
      state := r.state.irqHandler d trigger now
      raised := fun i => r.raised i ||
        decide (i ∈ hpdPins ∧ r.state.Fires d trigger i ∧ ¬ r.state.Storms d now i)
      untaken := true }
  | .enable => { r with state := { r.state with enableProcessing := true } }
  | .work =>
    if r.state.enableProcessing = true then
      { r with
        state := r.state.workFunc d
        raised := fun _ => false
        owed := r.raised
        untaken := false }
    else r
  | .workDone =>
    match r.state.taken with
    | some bits =>
      { r with
        state := { r.state with taken := none }
        served := (r.owed, HotplugState.eventConnectors d bits) :: r.served }
    | none => r
  | .timer => { r with state := r.state.reenableTimerFunc d }

end HotplugRun

/-- A device after intel_hpd_init. -/
def hotplugInit : HotplugRun n where
  state :=
    { polled := d.configured }

def hotplugSystem : System (HotplugRun n) HotplugAction where
  init r := r = hotplugInit d
  step r a r' := r.Enabled d a ∧ r' = r.apply d a

/-- The connector is polled by output_poll_execute. -/
def IsPolled (polled : BitVec 8) : Prop := polled ≠ 0 ∧ polled ≠ drmConnectorPollHpd

/-- Storm detection, polling and timer as they should be once the work function has run, and every
event seen by the connectors of its pin only. -/
structure HotplugOk (r : HotplugRun n) : Prop where
  polled : r.Settled → ∀ c, (r.state.stats (d.pin c)).mark ≠ .enabled → IsPolled (r.state.polled c)
  configured : r.Settled → ∀ c, (r.state.stats (d.pin c)).mark = .enabled →
    r.state.polled c = d.configured c
  reenabled : r.Settled → ∀ i, (r.state.stats i).mark ≠ .enabled → r.state.timer = true ∧
    ((r.state.reenableTimerFunc d).stats i).mark = .enabled
  taken : r.Settled → ∀ i, r.raised i = false
  served : ∀ e ∈ r.served, ∀ c, c ∈ e.2 ↔ e.1 (d.pin c) = true

/-- One connector of the pin relies on hotplug interrupts. -/
def HotplugDev.OneRelies (i : HpdPin) : Prop :=
  ∃ c, d.pin c = i ∧ d.configured c = drmConnectorPollHpd ∧
    ∀ c', d.pin c' = i → d.configured c' = drmConnectorPollHpd → c' = c

/-- Every pin judged to storm has one connector that relies on its interrupts and no event that no
work function has taken. -/
def HotplugAction.Clean (r : HotplugRun n) : HotplugAction → Prop
  | .interrupt trigger now => ∀ i ∈ hpdPins, r.state.Fires d trigger i → r.state.Storms d now i →
      d.OneRelies i ∧ r.state.eventBits i = false
  | .enable | .work | .workDone | .timer => True

/-! Which storms leave every pin either listened to or polled. -/

variable {n : ℕ} {d : HotplugDev n} {s : HotplugState n} {r : HotplugRun n} {t : Bool}
  {trigger : BitVec 32} {now : ℤ} {i j : HpdPin} {c : Fin n}

theorem mem_hpdPins (i : HpdPin) : i ∈ hpdPins ↔ i ≠ .none := by
  cases i <;> decide

/-- A connector on a pin asks for some polling. -/
theorem configured_ne_zero (hhot : d.hasHotplug = true) (hpin : d.pin c ≠ .none) :
    d.configured c ≠ 0 := by
  unfold HotplugDev.configured
  split
  · decide
  · rename_i h
    exact fun h0 => h ⟨h0, hhot, hpin⟩

/-- What the timer gives a connector on a pin back is what it had at first. -/
theorem repolled_eq_configured (hhot : d.hasHotplug = true) (hpin : d.pin c ≠ .none) :
    d.repolled c = d.configured c := by
  unfold HotplugDev.repolled HotplugDev.configured
  by_cases h0 : (d.connector c).polled = 0
  · rw [if_pos h0, if_pos ⟨h0, hhot, hpin⟩]
  · rw [if_neg h0, if_neg fun h => h0 h.1]

namespace HotplugState

@[simp] theorem setPolled_stats (s : HotplugState n) (c : Fin n) (p : BitVec 8) :
    (s.setPolled c p).stats = s.stats := rfl

theorem setMark_self (s : HotplugState n) (i : HpdPin) (m : HpdMark) :
    ((s.setMark i m).stats i).mark = m := by
  have hstat : (s.setMark i m).stats i = { s.stats i with mark := m } := update_self ..
  rw [hstat]

theorem setMark_of_ne (s : HotplugState n) (m : HpdMark) (hne : j ≠ i) :
    (s.setMark i m).stats j = s.stats j := update_of_ne hne ..

/-! ### Interrupts -/

/-- An interrupt is for its pin only. -/
theorem irqPin_of_ne (d : HotplugDev n) (trigger : BitVec 32) (now : ℤ) (s : HotplugState n)
    (hne : j ≠ i) : (irqPin d trigger now s i).stats j = s.stats j ∧
    (irqPin d trigger now s i).eventBits j = s.eventBits j := by
  unfold irqPin
  dsimp only
  split_ifs
  · exact ⟨update_of_ne hne .., update_of_ne hne ..⟩
  · exact ⟨update_of_ne hne .., update_of_ne hne ..⟩
  · exact ⟨update_of_ne hne .., update_of_ne hne ..⟩
  · exact ⟨rfl, rfl⟩

theorem irqPin_self : ((irqPin d trigger now s i).stats i).mark =
      (if s.Fires d trigger i ∧ s.Storms d now i then .markDisabled else (s.stats i).mark) ∧
    (irqPin d trigger now s i).eventBits i =
      if s.Fires d trigger i then !decide (s.Storms d now i) else s.eventBits i := by
  unfold irqPin Storms
  dsimp only
  split_ifs <;> simp_all [update_self]

theorem irqPin_frame (d : HotplugDev n) (trigger : BitVec 32) (now : ℤ) (s : HotplugState n)
    (i : HpdPin) : (irqPin d trigger now s i).polled = s.polled ∧
    (irqPin d trigger now s i).timer = s.timer ∧ (irqPin d trigger now s i).taken = s.taken := by
  unfold irqPin
  dsimp only
  split_ifs <;> exact ⟨rfl, rfl, rfl⟩

theorem fires_congr {s s' : HotplugState n} (h : s'.stats i = s.stats i) :
    s'.Fires d trigger i ↔ s.Fires d trigger i := by
  unfold Fires
  rw [h]

theorem storms_congr {s s' : HotplugState n} (h : s'.stats i = s.stats i) :
    s'.Storms d now i ↔ s.Storms d now i := by
  unfold Storms
  rw [h]

/-- The pins of an interrupt do not see one another. -/
theorem irqPins_spec (l : List HpdPin) (hl : l.Nodup) (s : HotplugState n) (i : HpdPin) :
    ((l.foldl (irqPin d trigger now) s).stats i).mark =
        (if i ∈ l ∧ s.Fires d trigger i ∧ s.Storms d now i then .markDisabled
          else (s.stats i).mark) ∧
      (l.foldl (irqPin d trigger now) s).eventBits i =
        if i ∈ l ∧ s.Fires d trigger i then !decide (s.Storms d now i) else s.eventBits i := by
  induction l generalizing s with
  | nil => simp
  | cons j l ih =>
    obtain ⟨hj, hl⟩ := List.nodup_cons.mp hl
    obtain ⟨hmark, hbit⟩ := ih hl (irqPin d trigger now s j)
    rw [List.foldl_cons, hmark, hbit]
    by_cases hij : i = j
    · subst hij
      simp [hj, irqPin_self]
    · obtain ⟨hstat, hbit'⟩ := irqPin_of_ne d trigger now s hij
      simp only [List.mem_cons, hij, false_or, fires_congr hstat, storms_congr hstat, hstat, hbit',
        and_self]

theorem irqHandler_spec (d : HotplugDev n) (trigger : BitVec 32) (now : ℤ) (s : HotplugState n)
    (i : HpdPin) :
    ((s.irqHandler d trigger now).stats i).mark =
        (if i ∈ hpdPins ∧ s.Fires d trigger i ∧ s.Storms d now i then .markDisabled
          else (s.stats i).mark) ∧
      (s.irqHandler d trigger now).eventBits i =
        if i ∈ hpdPins ∧ s.Fires d trigger i then !decide (s.Storms d now i) else s.eventBits i :=
  irqPins_spec hpdPins (by decide) s i

theorem irqHandler_frame (d : HotplugDev n) (trigger : BitVec 32) (now : ℤ) (s : HotplugState n) : (s.irqHandler d trigger now).polled = s.polled ∧
    (s.irqHandler d trigger now).timer = s.timer ∧
    (s.irqHandler d trigger now).taken = s.taken := by
  refine List.foldlRecOn hpdPins (irqPin d trigger now) (motive := fun s' =>
    s'.polled = s.polled ∧ s'.timer = s.timer ∧ s'.taken = s.taken) ⟨rfl, rfl, rfl⟩ ?_
  rintro s' ⟨hpolled, htimer, htaken⟩ i -
  obtain ⟨hpolled', htimer', htaken'⟩ :=
    irqPin_frame d trigger now s' i
  exact ⟨hpolled'.trans hpolled, htimer'.trans htimer, htaken'.trans htaken⟩

end HotplugState

open HotplugState

/-! ### Pins and their connectors -/

/-- A pin and its connectors, where `t` says that the timer is or is about to be armed. -/
structure PinOk (d : HotplugDev n) (s : HotplugState n) (t : Bool) (i : HpdPin) : Prop where
  configured : (s.stats i).mark ≠ .disabled → ∀ c, d.pin c = i → s.polled c = d.configured c
  relies : (s.stats i).mark = .markDisabled → d.OneRelies i
  polled : (s.stats i).mark = .disabled → t = true ∧ ∀ c, d.pin c = i → IsPolled (s.polled c)
  hot : (s.stats i).mark ≠ .enabled → d.hasHotplug = true ∧ i ≠ .none

/-- What leaves a pin's mark and its connectors alone leaves it as it was. -/
theorem PinOk.congr {s' : HotplugState n} {t' : Bool} (h : PinOk d s t i)
    (hmark : (s'.stats i).mark = (s.stats i).mark)
    (hpolled : ∀ c, d.pin c = i → s'.polled c = s.polled c) (ht : t = true → t' = true) :
    PinOk d s' t' i where
  configured hm c hc := (hpolled c hc).trans (h.configured (hmark ▸ hm) c hc)
  relies hm := h.relies (hmark ▸ hm)
  polled hm := by
    obtain ⟨htrue, hp⟩ := h.polled (hmark ▸ hm)
    exact ⟨ht htrue, fun c hc => hpolled c hc ▸ hp c hc⟩
  hot hm := h.hot (hmark ▸ hm)

theorem PinOk.irqHandler (h : PinOk d s t i) (hhot : d.hasHotplug = true)
    (hone : i ∈ hpdPins → s.Fires d trigger i → s.Storms d now i → d.OneRelies i) :
    PinOk d (s.irqHandler d trigger now) t i := by
  have hmark := (irqHandler_spec d trigger now s i).1
  obtain ⟨hpolled, -, -⟩ := irqHandler_frame d trigger now s
  by_cases hstorm : i ∈ hpdPins ∧ s.Fires d trigger i ∧ s.Storms d now i
  · rw [if_pos hstorm] at hmark
    obtain ⟨hi, hfires, hstorms⟩ := hstorm
    have hold : (s.stats i).mark ≠ .disabled := by
      rw [hfires.2]
      decide
    refine ⟨fun _ c hc => ?_, fun _ => hone hi hfires hstorms, fun hm => ?_,
      fun _ => ⟨hhot, (mem_hpdPins i).mp hi⟩⟩
    · rw [hpolled]
      exact h.configured hold c hc
    · rw [hmark] at hm
      cases hm
  · rw [if_neg hstorm] at hmark
    exact h.congr hmark (fun c _ => by rw [hpolled]) id

/-! ### The work function -/

/-- A connector that relies on its interrupts takes its pin from marked to disabled. -/
theorem PinOk.workConnector {acc : HotplugState n × Bool}
    (h : ∀ i, PinOk d acc.1 (acc.1.timer || acc.2) i) (c : Fin n) (i : HpdPin) :
    PinOk d (workConnector d acc c).1
      ((workConnector d acc c).1.timer || (workConnector d acc c).2) i := by
  unfold HotplugState.workConnector
  split
  · rename_i hc
    obtain ⟨hpin, hmark, hhpd⟩ := hc
    by_cases hi : i = d.pin c
    · subst hi
      have hmark' : ((acc.1.setMark (d.pin c) .disabled).stats (d.pin c)).mark = .disabled :=
        setMark_self ..
      have hnd : (acc.1.stats (d.pin c)).mark ≠ .disabled := by
        rw [hmark]
        decide
      have hhot := (h (d.pin c)).hot (by rw [hmark]; decide)
      refine ⟨fun hm => absurd hmark' hm, fun hm => ?_, fun _ => ⟨Bool.or_true _, fun c' hc' => ?_⟩,
        fun _ => hhot⟩
      · rw [setPolled_stats, hmark'] at hm
        cases hm
      · by_cases hcc : c' = c
        · have hnew : ((acc.1.setMark (d.pin c) .disabled).setPolled c
              (drmConnectorPollConnect ||| drmConnectorPollDisconnect)).polled c' =
              drmConnectorPollConnect ||| drmConnectorPollDisconnect := hcc ▸ update_self ..
          rw [hnew]
          exact ⟨by decide, by decide⟩
        · -- the pin's one connector that relies on interrupts is `c`
          obtain ⟨c₀, -, -, huniq⟩ := (h (d.pin c)).relies hmark
          have hconf := (h (d.pin c)).configured hnd
          have hc₀ : c = c₀ := huniq c rfl ((hconf c rfl).symm.trans hhpd)
          have hold : ((acc.1.setMark (d.pin c) .disabled).setPolled c
              (drmConnectorPollConnect ||| drmConnectorPollDisconnect)).polled c' =
              d.configured c' := (update_of_ne hcc ..).trans (hconf c' hc')
          rw [hold]
          refine ⟨configured_ne_zero hhot.1 (hc' ▸ hpin), fun heq => hcc ?_⟩
          exact (huniq c' hc' heq).trans hc₀.symm
    · refine (h i).congr ?_ (fun c' hc' => ?_) fun _ => Bool.or_true _
      · rw [setPolled_stats, setMark_of_ne _ _ hi]
      · exact update_of_ne (fun heq => hi (by rw [← hc', heq])) ..
  · exact h i

/-- The loop marks nothing, gives no connector back to its interrupts and is done with `c` after its
turn. -/
theorem workConnector_shrinks (acc : HotplugState n × Bool) (c : Fin n) :
    (∀ i, ((workConnector d acc c).1.stats i).mark = .markDisabled →
      (acc.1.stats i).mark = .markDisabled) ∧
    (∀ c', (workConnector d acc c).1.polled c' = drmConnectorPollHpd →
      acc.1.polled c' = drmConnectorPollHpd) ∧
    (d.pin c ≠ .none → ((workConnector d acc c).1.stats (d.pin c)).mark = .markDisabled →
      (workConnector d acc c).1.polled c ≠ drmConnectorPollHpd) := by
  unfold HotplugState.workConnector
  split
  · refine ⟨fun i hm => ?_, fun c' hp => ?_, fun _ hm => ?_⟩
    · by_cases hi : i = d.pin c
      · rw [hi, setPolled_stats, setMark_self] at hm
        cases hm
      · rwa [setPolled_stats, setMark_of_ne _ _ hi] at hm
    · by_cases hcc : c' = c
      · have hnew : ((acc.1.setMark (d.pin c) .disabled).setPolled c
            (drmConnectorPollConnect ||| drmConnectorPollDisconnect)).polled c' =
            drmConnectorPollConnect ||| drmConnectorPollDisconnect := hcc ▸ update_self ..
        exact absurd (hnew.symm.trans hp) (by decide)
      · exact (update_of_ne hcc ..).symm.trans hp
    · rw [setPolled_stats, setMark_self] at hm
      cases hm
  · rename_i hc
    exact ⟨fun _ => id, fun _ => id, fun hpin hm hp => hc ⟨hpin, hm, hp⟩⟩

theorem workConnector_frame (acc : HotplugState n × Bool) (c : Fin n) :
    (workConnector d acc c).1.timer = acc.1.timer ∧
      (workConnector d acc c).1.eventBits = acc.1.eventBits := by
  unfold HotplugState.workConnector
  split <;> exact ⟨rfl, rfl⟩

/-- The first loop keeps every pin as it should be, and none of its connectors still relies on a
pin that is marked. -/
theorem workConnectors_spec (l : List (Fin n)) (acc : HotplugState n × Bool)
    (h : ∀ i, PinOk d acc.1 (acc.1.timer || acc.2) i) :
    (∀ i, PinOk d (l.foldl (workConnector d) acc).1
      ((l.foldl (workConnector d) acc).1.timer || (l.foldl (workConnector d) acc).2) i) ∧
    (∀ i, ((l.foldl (workConnector d) acc).1.stats i).mark = .markDisabled →
      (acc.1.stats i).mark = .markDisabled) ∧
    (∀ c', (l.foldl (workConnector d) acc).1.polled c' = drmConnectorPollHpd →
      acc.1.polled c' = drmConnectorPollHpd) ∧
    (∀ c ∈ l, d.pin c ≠ .none →
      ((l.foldl (workConnector d) acc).1.stats (d.pin c)).mark = .markDisabled →
      (l.foldl (workConnector d) acc).1.polled c ≠ drmConnectorPollHpd) ∧
    (l.foldl (workConnector d) acc).1.eventBits = acc.1.eventBits := by
  induction l generalizing acc with
  | nil => exact ⟨h, fun _ => id, fun _ => id, fun _ hc => absurd hc List.not_mem_nil, rfl⟩
  | cons a l ih =>
    obtain ⟨hmark, hpolled, hdone⟩ := workConnector_shrinks (d := d) acc a
    obtain ⟨hpins, hmarks, hpolleds, hdones, hbits⟩ := ih _ (PinOk.workConnector h a)
    refine ⟨hpins, fun i hi => hmark i (hmarks i hi), fun c' hc' => hpolled c' (hpolleds c' hc'),
      fun c hc hpin hm hp => ?_, hbits.trans (workConnector_frame acc a).2⟩
    rcases List.mem_cons.mp hc with rfl | hc
    · exact hdone hpin (hmarks _ hm) (hpolleds c hp)
    · exact hdones c hc hpin hm hp

/-- After the work function no pin is marked. -/
theorem workFunc_spec (h : ∀ i, PinOk d s s.timer i) (hon : s.enableProcessing = true) :
    (∀ i, PinOk d (s.workFunc d) (s.workFunc d).timer i) ∧
      (∀ i, ((s.workFunc d).stats i).mark ≠ .markDisabled) ∧
      (∀ i, (s.workFunc d).eventBits i = false) ∧ (s.workFunc d).taken = some s.eventBits := by
  obtain ⟨hpins, -, -, hdone, hbits⟩ :=
    workConnectors_spec (List.finRange n) ({ s with eventBits := fun _ => false }, false) fun i =>
      (h i).congr rfl (fun _ _ => rfl) fun ht => by simpa using ht
  unfold HotplugState.workFunc
  rw [if_pos hon]
  refine ⟨fun i => (hpins i).congr rfl (fun _ _ => rfl) id, fun i hm => ?_, fun i => ?_, rfl⟩
  · have hm' := (hpins i).relies hm
    obtain ⟨c, hc, hhpd, -⟩ := hm'
    have hnone := ((hpins i).hot (by rw [hm]; decide)).2
    have hconf := (hpins i).configured (by rw [hm]; decide) c hc
    exact hdone c (List.mem_finRange c) (hc ▸ hnone) (hc ▸ hm) (hconf.trans hhpd)
  · exact congrFun hbits i

/-! ### The timer -/

theorem reenableConnectors_frame (l : List (Fin n)) (s : HotplugState n) :
    (l.foldl (reenableConnector d i) s).stats = s.stats ∧
      (l.foldl (reenableConnector d i) s).eventBits = s.eventBits ∧
      (l.foldl (reenableConnector d i) s).taken = s.taken := by
  induction l generalizing s with
  | nil => exact ⟨rfl, rfl, rfl⟩
  | cons c l ih =>
    obtain ⟨hstats, hbits, htaken⟩ := ih (reenableConnector d i s c)
    rw [List.foldl_cons, hstats, hbits, htaken]
    unfold reenableConnector
    split <;> exact ⟨rfl, rfl, rfl⟩

/-- The connectors of the pin, and no others, get their polling back. -/
theorem reenableConnectors_polled (l : List (Fin n)) (s : HotplugState n) (c : Fin n) :
    (c ∈ l ∧ d.pin c = i → (l.foldl (reenableConnector d i) s).polled c = d.repolled c) ∧
      (¬ (c ∈ l ∧ d.pin c = i) → (l.foldl (reenableConnector d i) s).polled c = s.polled c) := by
  induction l generalizing s with
  | nil => exact ⟨fun h => absurd h.1 List.not_mem_nil, fun _ => rfl⟩
  | cons a l ih =>
    rw [List.foldl_cons]
    obtain ⟨hin, hout⟩ := ih (reenableConnector d i s a)
    refine ⟨fun h => ?_, fun h => ?_⟩
    · by_cases hl : c ∈ l
      · exact hin ⟨hl, h.2⟩
      · obtain rfl := (List.mem_cons.mp h.1).resolve_right hl
        rw [hout fun h => hl h.1]
        unfold reenableConnector
        rw [if_pos h.2]
        exact update_self ..
    · rw [hout fun hl => h ⟨List.mem_cons_of_mem _ hl.1, hl.2⟩]
      unfold reenableConnector
      split
      · rename_i hpin
        refine update_of_ne (fun hca => h ?_) ..
        rw [hca]
        exact ⟨List.mem_cons_self, hpin⟩
      · rfl

theorem reenablePin_frame (s : HotplugState n) (i : HpdPin) :
    (reenablePin d s i).eventBits = s.eventBits ∧ (reenablePin d s i).taken = s.taken := by
  unfold HotplugState.reenablePin
  split
  · exact (reenableConnectors_frame (List.finRange n) (s.setMark i .enabled)).2
  · exact ⟨rfl, rfl⟩

theorem reenablePins_frame (l : List HpdPin) (s : HotplugState n) :
    (l.foldl (reenablePin d) s).eventBits = s.eventBits ∧
      (l.foldl (reenablePin d) s).taken = s.taken := by
  induction l generalizing s with
  | nil => exact ⟨rfl, rfl⟩
  | cons i l ih =>
    obtain ⟨hbits, htaken⟩ := ih (reenablePin d s i)
    obtain ⟨hbits', htaken'⟩ := reenablePin_frame (d := d) s i
    exact ⟨hbits.trans hbits', htaken.trans htaken'⟩

theorem reenablePin_mark (s : HotplugState n) (i j : HpdPin) :
    ((reenablePin d s i).stats j).mark =
      if j = i ∧ (s.stats j).mark = .disabled then .enabled else (s.stats j).mark := by
  unfold HotplugState.reenablePin
  by_cases hdis : (s.stats i).mark = .disabled
  · rw [if_pos hdis, (reenableConnectors_frame (List.finRange n) (s.setMark i .enabled)).1]
    by_cases hji : j = i
    · subst hji
      rw [setMark_self, if_pos ⟨rfl, hdis⟩]
    · rw [setMark_of_ne _ _ hji, if_neg fun h => hji h.1]
  · have hne : ¬ (j = i ∧ (s.stats j).mark = .disabled) := fun h => hdis (h.1 ▸ h.2)
    rw [if_neg hdis, if_neg hne]

/-- A pin that is enabled again has its connectors as they were configured. -/
theorem PinOk.reenablePin (h : ∀ j, PinOk d s t j) (i j : HpdPin) :
    PinOk d (reenablePin d s i) t j := by
  have hmark := reenablePin_mark (d := d) s i j
  have hpolled : (s.stats i).mark = .disabled → ∀ c, (HotplugState.reenablePin d s i).polled c =
      if d.pin c = i then d.repolled c else s.polled c := by
    intro hdis c
    unfold HotplugState.reenablePin
    rw [if_pos hdis]
    obtain ⟨hin, hout⟩ := reenableConnectors_polled (d := d) (i := i) (List.finRange n)
      (s.setMark i .enabled) c
    by_cases hpin : d.pin c = i
    · rw [if_pos hpin, hin ⟨List.mem_finRange c, hpin⟩]
    · rw [if_neg hpin, hout fun h => hpin h.2]
      rfl
  by_cases hdis : (s.stats i).mark = .disabled
  · by_cases hji : j = i
    · subst hji
      rw [if_pos ⟨rfl, hdis⟩] at hmark
      obtain ⟨hhot, hnone⟩ := (h j).hot (by rw [hdis]; decide)
      refine ⟨fun _ c hc => ?_, fun hm => ?_, fun hm => ?_, fun hm => absurd hmark hm⟩
      · rw [hpolled hdis c, if_pos hc, repolled_eq_configured hhot (hc ▸ hnone)]
      · rw [hmark] at hm
        cases hm
      · rw [hmark] at hm
        cases hm
    · rw [if_neg fun hj => hji hj.1] at hmark
      refine (h j).congr hmark (fun c hc => ?_) id
      rw [hpolled hdis c, if_neg fun hci => hji (hc.symm.trans hci)]
  · have hsame : HotplugState.reenablePin d s i = s := if_neg hdis
    rw [hsame]
    exact h j

theorem PinOk.reenablePins (l : List HpdPin) (h : ∀ j, PinOk d s t j) (j : HpdPin) :
    PinOk d (l.foldl (HotplugState.reenablePin d) s) t j := by
  induction l generalizing s with
  | nil => exact h j
  | cons i l ih => exact ih fun j => PinOk.reenablePin h i j

theorem reenablePins_mark (l : List HpdPin) (s : HotplugState n) (j : HpdPin) :
    ((l.foldl (reenablePin d) s).stats j).mark =
      if j ∈ l ∧ (s.stats j).mark = .disabled then .enabled else (s.stats j).mark := by
  induction l generalizing s with
  | nil => simp
  | cons i l ih =>
    rw [List.foldl_cons, ih, reenablePin_mark]
    by_cases hji : j = i
    · subst hji
      by_cases hdis : (s.stats j).mark = .disabled <;> simp [hdis]
    · simp [hji]

/-- The callback enables every pin that the work function has disabled. -/
theorem reenableTimerFunc_mark (s : HotplugState n) (hnone : (s.stats .none).mark = .enabled)
    (j : HpdPin) : ((s.reenableTimerFunc d).stats j).mark =
      if (s.stats j).mark = .disabled then .enabled else (s.stats j).mark := by
  unfold reenableTimerFunc
  rw [reenablePins_mark]
  by_cases hj : j = .none
  · subst hj
    simp [hnone]
  · simp [(mem_hpdPins j).mpr hj]

theorem reenableTimerFunc_frame (s : HotplugState n) :
    (s.reenableTimerFunc d).eventBits = s.eventBits ∧
      (s.reenableTimerFunc d).taken = s.taken :=
  reenablePins_frame hpdPins { s with timer := false }

theorem PinOk.none (h : PinOk d s t .none) : (s.stats .none).mark = .enabled := by
  by_contra hne
  exact (h.hot hne).2 rfl

theorem PinOk.reenableTimerFunc {t' : Bool} (h : ∀ j, PinOk d s t j) (i : HpdPin) :
    PinOk d (s.reenableTimerFunc d) t' i := by
  have hoff : ∀ j, PinOk d { s with timer := false } t j := fun j =>
    (h j).congr rfl (fun _ _ => rfl) id
  have hpins : PinOk d (s.reenableTimerFunc d) t i := PinOk.reenablePins hpdPins hoff i
  have hmark := reenableTimerFunc_mark (d := d) s (h .none).none i
  have hnd : ((s.reenableTimerFunc d).stats i).mark ≠ .disabled := by
    intro hm
    rw [hmark] at hm
    split at hm
    · cases hm
    · rename_i hdis
      exact hdis hm
  exact ⟨hpins.configured, hpins.relies, fun hm => absurd hm hnd, hpins.hot⟩

/-! ### Runs -/

/-- What every run keeps while no storm goes wrong. -/
structure RunInv (d : HotplugDev n) (r : HotplugRun n) : Prop where
  pins : ∀ i, PinOk d r.state r.state.timer i
  bits : ∀ i, r.state.eventBits i = r.raised i
  owed : ∀ b, r.state.taken = some b → ∀ i, b i = r.owed i
  marks : r.untaken = false → ∀ i, (r.state.stats i).mark ≠ .markDisabled
  raised : r.untaken = false → ∀ i, r.raised i = false
  served : ∀ e ∈ r.served, ∀ c, c ∈ e.2 ↔ e.1 (d.pin c) = true

theorem mem_eventConnectors (bits : HpdPin → Bool) (c : Fin n) :
    c ∈ HotplugState.eventConnectors d bits ↔ bits (d.pin c) = true := by
  simp [HotplugState.eventConnectors]

theorem RunInv.init (d : HotplugDev n) : RunInv d (hotplugInit d) where
  pins _ :=
    { configured _ _ _ := rfl
      relies hm := nomatch hm
      polled hm := nomatch hm
      hot hm := absurd rfl hm }
  bits _ := rfl
  owed _ hb := nomatch hb
  marks h := nomatch h
  raised h := nomatch h
  served _ he := nomatch he

theorem RunInv.interrupt (h : RunInv d r) (he : r.Enabled d (.interrupt trigger now))
    (hc : HotplugAction.Clean d r (.interrupt trigger now)) :
    RunInv d (r.apply d (.interrupt trigger now)) := by
  obtain ⟨-, htimer, htaken⟩ :=
    irqHandler_frame d trigger now r.state
  refine ⟨fun i => ?_, fun i => ?_, fun b hb => ?_, fun hu => (nomatch hu), fun hu => (nomatch hu),
    h.served⟩
  · exact ((h.pins i).irqHandler he.1 fun hi hfires hstorms => (hc i hi hfires hstorms).1).congr
      rfl (fun _ _ => rfl) fun ht => htimer.trans ht
  · have hbit := (irqHandler_spec d trigger now r.state i).2
    have hold := h.bits i
    have hclean := hc i
    change (r.state.irqHandler d trigger now).eventBits i = (r.raised i ||
      decide (i ∈ hpdPins ∧ r.state.Fires d trigger i ∧ ¬ r.state.Storms d now i))
    rw [hbit]
    by_cases hi : i ∈ hpdPins ∧ r.state.Fires d trigger i
    · by_cases hstorms : r.state.Storms d now i
      · have hraised := hold.symm.trans (hclean hi.1 hi.2 hstorms).2
        simp [hi, hraised]
      · simp [hi, hstorms]
    · have hnot : ¬ (i ∈ hpdPins ∧ r.state.Fires d trigger i ∧ ¬ r.state.Storms d now i) :=
        fun h' => hi ⟨h'.1, h'.2.1⟩
      rw [if_neg hi, decide_eq_false hnot, Bool.or_false, hold]
  · exact h.owed b (htaken.symm.trans hb)

theorem RunInv.work (h : RunInv d r) : RunInv d (r.apply d .work) := by
  unfold HotplugRun.apply
  by_cases hon : r.state.enableProcessing = true
  · rw [if_pos hon]
    obtain ⟨hpins, hmarks, hbits, htaken⟩ := workFunc_spec h.pins hon
    refine ⟨hpins, hbits, fun b hb i => ?_, fun _ => hmarks, fun _ _ => rfl, h.served⟩
    obtain rfl := Option.some.inj (htaken.symm.trans hb)
    exact h.bits i
  · rw [if_neg hon]
    exact h

theorem RunInv.workDone (h : RunInv d r) : RunInv d (r.apply d .workDone) := by
  unfold HotplugRun.apply
  dsimp only
  split
  · rename_i bits htaken
    refine ⟨fun i => (h.pins i).congr rfl (fun _ _ => rfl) id, h.bits, fun b hb => (nomatch hb),
      h.marks, h.raised, fun e he c => ?_⟩
    rcases List.mem_cons.mp he with rfl | he
    · rw [mem_eventConnectors, h.owed bits htaken]
    · exact h.served e he c
  · exact h

theorem RunInv.timer (h : RunInv d r) : RunInv d (r.apply d .timer) := by
  obtain ⟨hbits, htaken⟩ := reenableTimerFunc_frame (d := d) r.state
  have hpins : ∀ t' i, PinOk d (r.state.reenableTimerFunc d) t' i :=
    fun _ i => PinOk.reenableTimerFunc h.pins i
  have hmarks := reenableTimerFunc_mark (d := d) r.state (h.pins .none).none
  have happly : r.apply d .timer = { r with state := r.state.reenableTimerFunc d } := rfl
  rw [happly]
  generalize r.state.reenableTimerFunc d = s at hbits htaken hpins hmarks ⊢
  refine ⟨hpins s.timer, fun i => (congrFun hbits i).trans (h.bits i),
    fun b hb => h.owed b (htaken.symm.trans hb), fun hu i hm => ?_, h.raised, h.served⟩
  refine h.marks hu i ?_
  have hmark := hmarks i
  rw [hm] at hmark
  split at hmark
  · cases hmark
  · exact hmark.symm

theorem RunInv.apply {a : HotplugAction} (h : RunInv d r) (he : r.Enabled d a)
    (hc : a.Clean d r) : RunInv d (r.apply d a) := by
  cases a with
  | interrupt trigger now => exact h.interrupt he hc
  | enable =>
    exact ⟨fun i => (h.pins i).congr rfl (fun _ _ => rfl) id, h.bits, h.owed, h.marks, h.raised,
      h.served⟩
  | work => exact h.work
  | workDone => exact h.workDone
  | timer => exact h.timer

theorem RunInv.hotplugOk (h : RunInv d r) : HotplugOk d r where
  polled hs c hne := by
    have hdis : (r.state.stats (d.pin c)).mark = .disabled := by
      have hmark := h.marks hs.1 (d.pin c)
      cases hm : (r.state.stats (d.pin c)).mark with
      | enabled => exact absurd hm hne
      | disabled => rfl
      | markDisabled => exact absurd hm hmark
    exact ((h.pins _).polled hdis).2 c rfl
  configured _ c hm := (h.pins _).configured (by rw [hm]; decide) c rfl
  reenabled hs i hne := by
    have hdis : (r.state.stats i).mark = .disabled := by
      have hmark := h.marks hs.1 i
      cases hm : (r.state.stats i).mark with
      | enabled => exact absurd hm hne
      | disabled => rfl
      | markDisabled => exact absurd hm hmark
    refine ⟨((h.pins i).polled hdis).1, ?_⟩
    rw [reenableTimerFunc_mark _ (h.pins .none).none, if_pos hdis]
  taken hs := h.raised hs.1
  served := h.served

/-- While no storm is judged on a pin where not exactly one connector relies on the interrupts, or
over an event that waits for the work function, every pin is listened to or polled, comes back, and
has its events seen. -/
theorem hotplug_ok (h : ReachWhile (hotplugSystem d) (fun r a => a.Clean d r) r) :
    HotplugOk d r := by
  refine RunInv.hotplugOk (h.invariant (I := RunInv d) (fun r hr => ?_) fun r a r' hinv hc hs => ?_)
  · exact hr ▸ RunInv.init d
  · obtain ⟨he, rfl⟩ := hs
    exact hinv.apply he hc

/-! ### Computed runs -/

theorem hotplugRun_reach (guard : HotplugRun n → HotplugAction → Prop) (l : List HotplugAction)
    (h : AllAllowed (fun r a => r.Enabled d a ∧ guard r a) (fun r a => r.apply d a) l
      (hotplugInit d)) :
    ReachWhile (hotplugSystem d) guard
      (l.foldl (fun r a => r.apply d a) (hotplugInit d)) :=
  ReachWhile.foldl (S := hotplugSystem d) _ (fun _ _ hs => ⟨hs.2, hs.1, rfl⟩) l (.init rfl) h

instance (r : HotplugRun n) (a : HotplugAction) : Decidable (r.Enabled d a) :=
  match a with
  | .interrupt trigger _ => inferInstanceAs (Decidable (_ ∧ _))
  | .enable => inferInstanceAs (Decidable True)
  | .work => inferInstanceAs (Decidable (_ = _))
  | .workDone => inferInstanceAs (Decidable (_ = _))
  | .timer => inferInstanceAs (Decidable (_ = _))

instance (d : HotplugDev n) (i : HpdPin) : Decidable (d.OneRelies i) :=
  inferInstanceAs (Decidable (∃ _, _))

instance (r : HotplugRun n) (a : HotplugAction) : Decidable (a.Clean d r) :=
  match a with
  | .interrupt trigger now => inferInstanceAs (Decidable (∀ _ ∈ _, _))
  | .enable | .work | .workDone | .timer => inferInstanceAs (Decidable True)

/-- Six events of the first trigger bit, each taken by the work function, and a seventh. -/
def stormRun : List HotplugAction :=
  .enable :: (List.replicate 6 [.interrupt 1 0, .work, .workDone]).flatten ++
    [.interrupt 1 0, .work, .workDone]

/-- The HDMI connector of a port, and the analog connector, which is polled anyway. -/
def ownPort : HotplugDev 2 where
  connector c :=
    if c.val = 0 then { hpdPin := .portB } else { hpdPin := .crt, polled := drmConnectorPollConnect }
  hpd := fun i => if i = .portB then 1 else 0
  stormPeriod := 100

theorem hotplug_ok_storm :
    HotplugOk ownPort ((stormRun ++ [HotplugAction.timer, .interrupt 1 200]).foldl
      (fun r a => r.apply ownPort a) (hotplugInit ownPort)) :=
  hotplug_ok (hotplugRun_reach _ _ (by decide))

/-- The HDMI and the DisplayPort connector of one port. -/
def sharedPort : HotplugDev 2 where
  connector _ := { hpdPin := .portB }
  hpd := fun i => if i = .portB then 1 else 0
  stormPeriod := 100

/-- The first of two connectors takes their pin out of the mark, and the second is not polled. -/
theorem storm_leaves_connector :
    ¬ ∀ n (d : HotplugDev n) r, Reach (hotplugSystem d) r → HotplugOk d r := by
  intro hall
  have hok := hall 2 sharedPort _ (hotplugRun_reach _ stormRun (by decide))
  exact (hok.polled ⟨by decide, by decide⟩ 1 (by decide)).2 (by decide)

end GfxDrm.Hotplug
