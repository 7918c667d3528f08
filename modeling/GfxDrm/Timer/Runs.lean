import GfxDrm.Lib.Run

/-! A timer_list and the threads that arm and delete it, step by step (drm_sun_timer.c). -/

namespace GfxDrm.Timer
open Run Function

/-- Where a thread is; `id` is what it has read from `timer_id` or what timeout() gave it. -/
inductive Call where
  | idle
  | modRead (expires : ℤ)
  | modUntimeout (expires : ℤ) (id : ℕ)
  | modTime (expires : ℤ)
  | modTimeout (expires : ℤ)
  | modStore (expires : ℤ) (id : ℕ)
  | modRelease (expires : ℤ) (id : ℕ)
  | testTime (expires : ℤ)
  | testTimeout (expires : ℤ)
  | testStore (id : ℕ)
  | delUntimeout (id : ℕ) (mark : Option ℕ)
  deriving DecidableEq, Repr

/-- A mod_timer past its guard. -/
def Call.modding : Call → Bool
  | .modRead _ | .modUntimeout _ _ | .modTime _ | .modTimeout _ | .modStore _ _
  | .modRelease _ _ => true
  | _ => false

/-- A test_set_timer past its test. -/
def Call.testing : Call → Bool
  | .testTime _ | .testTimeout _ | .testStore _ => true
  | _ => false

def Call.arming (c : Call) : Bool := c.modding || c.testing

/-- Between reading `timer_id`, or the test, and storing `timer_id`. -/
def Call.holds : Call → Bool
  | .modUntimeout _ _ | .modTime _ | .modTimeout _ | .modStore _ _ | .testTime _ | .testTimeout _
  | .testStore _ => true
  | _ => false

/-- The timeout that a mod_timer has armed. -/
def Call.armed : Call → Option (ℤ × ℕ)
  | .modStore expires id | .modRelease expires id => some (expires, id)
  | _ => none

/-- timer_list, the timeouts pending for it with the times they are due, and `n` threads. -/
structure TimerState (n : ℕ) where
  expires : ℤ := 0
  expiredTime : ℤ := 0
  timerId : ℕ := 0
  jiffies : ℤ := 0
  pending : List (ℕ × ℤ) := []
  nextId : ℕ := 1
  /-- The timeouts whose callbacks have been called. -/
  called : List ℕ := []
  calls : Fin n → Call := fun _ => .idle
  /-- How many calls have gone on to arm the timer. -/
  armings : ℕ := 0
  /-- `armings` as of the last return of a del_timer that no arming call overlapped. -/
  deleted : Option ℕ := none
  /-- A mod_timer has returned, and neither is a timeout pending in time nor was its own called. -/
  missed : Bool := false

variable {n : ℕ} (s : TimerState n)

def TimerState.set (t : Fin n) (c : Call) : TimerState n := { s with calls := update s.calls t c }

/-- untimeout. -/
def TimerState.untimeout (id : ℕ) : TimerState n :=
  { s with pending := s.pending.filter fun p => p.1 ≠ id }

/-- timeout, which answers `s.nextId`. -/
def TimerState.timeout (expires : ℤ) : TimerState n :=
  { s with pending := (s.nextId, s.jiffies + expires) :: s.pending, nextId := s.nextId + 1 }

/-- A timeout is pending that is due `expires` from now or before. -/
def TimerState.InTime (expires : ℤ) : Prop := ∃ p ∈ s.pending, p.2 ≤ s.jiffies + expires

instance (expires : ℤ) : Decidable (s.InTime expires) :=
  inferInstanceAs (Decidable (∃ p ∈ s.pending, _))

/-- mod_timer as far as its guard. -/
def TimerState.modTimer (t : Fin n) (expires : ℤ) : TimerState n :=
  if s.expires = -1 then { s with missed := s.missed || !decide (s.InTime expires) }
  else { s.set t (.modRead expires) with expires := -1, armings := s.armings + 1 }

/-- test_set_timer as far as its test. -/
def TimerState.testSetTimer (t : Fin n) (expires : ℤ) : TimerState n :=
  if s.expiredTime < s.jiffies then
    { s.set t (.testTime expires) with armings := s.armings + 1 }
  else s

/-- del_timer as far as it reads `timer_id`. -/
def TimerState.delTimer (t : Fin n) : TimerState n :=
  s.set t (.delUntimeout s.timerId
    (if ∀ t, (s.calls t).arming = false then some s.armings else none))

/-- A thread's next step. -/
def TimerState.next (t : Fin n) : TimerState n :=
  match s.calls t with
  | .idle => s
  | .modRead expires => s.set t (.modUntimeout expires s.timerId)
  | .modUntimeout expires id => (s.untimeout id).set t (.modTime expires)
  | .modTime expires => { s.set t (.modTimeout expires) with expiredTime := s.jiffies + expires }
  | .modTimeout expires => (s.timeout expires).set t (.modStore expires s.nextId)
  | .modStore expires id => { s.set t (.modRelease expires id) with timerId := id }
  | .modRelease expires id =>
    { s.set t .idle with
      expires := 0
      missed := s.missed || !decide (s.InTime expires ∨ id ∈ s.called) }
  | .testTime expires => { s.set t (.testTimeout expires) with expiredTime := s.jiffies + expires }
  | .testTimeout expires => (s.timeout expires).set t (.testStore s.nextId)
  | .testStore id => { s.set t .idle with timerId := id }
  | .delUntimeout id mark => { (s.untimeout id).set t .idle with deleted := mark }

inductive TimerAction (n : ℕ) where
  | modTimer (t : Fin n) (expires : ℤ)
  | testSetTimer (t : Fin n) (expires : ℤ)
  | delTimer (t : Fin n)
  | next (t : Fin n)
  /-- A callback is called, at its time or later. -/
  | callback (id : ℕ) (due : ℤ)
  | tick
  deriving DecidableEq, Repr

def TimerAction.Enabled : TimerAction n → Prop
  | .modTimer t _ | .testSetTimer t _ | .delTimer t => s.calls t = .idle
  | .next t => s.calls t ≠ .idle
  | .callback id due => (id, due) ∈ s.pending ∧ due ≤ s.jiffies
  | .tick => True

def TimerAction.apply : TimerAction n → TimerState n
  | .modTimer t expires => s.modTimer t expires
  | .testSetTimer t expires => s.testSetTimer t expires
  | .delTimer t => s.delTimer t
  | .next t => s.next t
  | .callback id due =>
    { s with pending := s.pending.erase (id, due), called := id :: s.called }
  | .tick => { s with jiffies := s.jiffies + 1 }

/-- A timer that is set up, with no call under way. -/
def timerSystem (n : ℕ) : System (TimerState n) (TimerAction n) where
  init s := s.expires ≠ -1 ∧ s.pending = [] ∧ (∀ t, s.calls t = .idle) ∧ s.deleted = none ∧
    s.missed = false
  step s a s' := a.Enabled s ∧ s' = a.apply s

/-- One timeout is pending at most, none after a del_timer with no arming call since its start,
and every mod_timer that has returned left one in time or was called back. -/
structure TimerOk : Prop where
  one : s.pending.length ≤ 1
  deleted : s.deleted = some s.armings → s.pending = []
  served : s.missed = false

/-! When a timer has one timeout at most, and which operations may overlap for that. -/

variable {n : ℕ} {s s' : TimerState n} {t : Fin n} {c : Call}

/-- When a mod_timer reads `timer_id`, no other call is between reading and storing it; del_timer
does not cancel the timeout of a mod_timer under way. -/
def Call.Whole (s : TimerState n) : Call → Prop
  | .modRead _ => ∀ t, (s.calls t).holds = false
  | .delUntimeout id _ => ∀ t, (s.calls t).armed.map Prod.snd ≠ some id
  | _ => True

/-- A mod_timer that leaves it to another finds a timeout in time; a test_set_timer that goes on
finds none pending, and no other call between reading and storing `timer_id`. -/
def TimerAction.Whole (s : TimerState n) : TimerAction n → Prop
  | .modTimer _ expires => s.expires = -1 → s.InTime expires
  | .testSetTimer _ _ =>
    s.expiredTime < s.jiffies → s.pending = [] ∧ ∀ t, (s.calls t).holds = false
  | .next t => (s.calls t).Whole s
  | .delTimer _ | .callback _ _ | .tick => True

/-! ### Calls that exclude each other -/

def Exclusive (f : Call → Bool) (calls : Fin n → Call) : Prop :=
  ∀ t t', f (calls t) = true → f (calls t') = true → t = t'

theorem Exclusive.set {f : Call → Bool} {calls : Fin n → Call} (h : Exclusive f calls)
    (hc : f c = true → f (calls t) = true ∨ ∀ t, f (calls t) = false) :
    Exclusive f (update calls t c) := by
  have hother : ∀ t', t' ≠ t → f (update calls t c t') = true → f c = true → False := by
    intro t' hne ht' hft
    rw [update_of_ne hne] at ht'
    rcases hc hft with hold | hnone
    · exact hne (h t' t ht' hold)
    · rw [hnone t'] at ht'
      cases ht'
  intro t₁ t₂ h₁ h₂
  by_cases h1 : t₁ = t
  · by_cases h2 : t₂ = t
    · rw [h1, h2]
    · rw [h1, update_self] at h₁
      exact (hother t₂ h2 h₂ h₁).elim
  · by_cases h2 : t₂ = t
    · rw [h2, update_self] at h₂
      exact (hother t₁ h1 h₁ h₂).elim
    · rw [update_of_ne h1] at h₁
      rw [update_of_ne h2] at h₂
      exact h t₁ t₂ h₁ h₂

theorem Exclusive.others {f : Call → Bool} {calls : Fin n → Call} (h : Exclusive f calls)
    (ht : f (calls t) = true) {t' : Fin n} (hne : t' ≠ t) : f (calls t') = false := by
  cases hf : f (calls t') with
  | false => rfl
  | true => exact (hne (h t' t hf ht)).elim

/-! ### The invariants -/

/-- What a call that holds the timer knows of what is pending. -/
def Call.Owns (pending : List (ℕ × ℤ)) : Call → Prop
  | .modUntimeout _ id | .modStore _ id | .testStore id => ∀ p ∈ pending, p.1 = id
  | .modTime _ | .modTimeout _ | .testTime _ | .testTimeout _ => pending = []
  | _ => True

/-- One call at most arms the timer at a time, and what is pending is its own timeout or the one
whose id is stored. -/
structure Held (s : TimerState n) : Prop where
  flag : ∀ t, (s.calls t).modding = true → s.expires = -1
  modding : Exclusive Call.modding s.calls
  holds : Exclusive Call.holds s.calls
  one : s.pending.length ≤ 1
  free : (∀ t, (s.calls t).holds = false) → ∀ p ∈ s.pending, p.1 = s.timerId
  owns : ∀ t, (s.calls t).Owns s.pending

theorem Call.owns_of_not_holds {pending : List (ℕ × ℤ)} (h : c.holds = false) :
    c.Owns pending := by
  cases c <;> trivial

theorem Call.Owns.sublist {l l' : List (ℕ × ℤ)} (h : c.Owns l) (hsub : l'.Sublist l) :
    c.Owns l' := by
  cases c with
  | modUntimeout _ _ | modStore _ _ | testStore _ => exact fun p hp => h p (hsub.subset hp)
  | modTime _ | modTimeout _ | testTime _ | testTimeout _ =>
    have hnil : l = [] := h
    rw [hnil] at hsub
    exact List.sublist_nil.mp hsub
  | idle | modRead _ | modRelease _ _ | delUntimeout _ _ => trivial

/-- A call that does not hold the timer goes on without holding it, and nothing new is pending. -/
theorem Held.outside (h : Held s) (hcalls : s'.calls = update s.calls t c)
    (hc : c.holds = false) (ht : (s.calls t).holds = false) (hid : s'.timerId = s.timerId)
    (hsub : s'.pending.Sublist s.pending)
    (hflag : ∀ t, (s'.calls t).modding = true → s'.expires = -1)
    (hmod : Exclusive Call.modding s'.calls) : Held s' := by
  have hholds : ∀ t', (s'.calls t').holds = (s.calls t').holds := fun t' => by
    rw [hcalls]
    by_cases heq : t' = t
    · rw [heq, update_self, hc, ht]
    · rw [update_of_ne heq]
  refine ⟨hflag, hmod, fun t₁ t₂ h₁ h₂ => ?_, Nat.le_trans hsub.length_le h.one, fun hnone p hp => ?_,
    fun t' => ?_⟩
  · rw [hholds] at h₁ h₂
    exact h.holds t₁ t₂ h₁ h₂
  · rw [hid]
    exact h.free (fun t' => hholds t' ▸ hnone t') p (hsub.subset hp)
  · rw [hcalls]
    by_cases heq : t' = t
    · rw [heq, update_self]
      exact Call.owns_of_not_holds hc
    · rw [update_of_ne heq]
      exact (h.owns t').sublist hsub

/-- The one call that holds the timer goes on. -/
theorem Held.inside (hcalls : s'.calls = update s.calls t c)
    (hothers : ∀ t', t' ≠ t → (s.calls t').holds = false) (howns : c.Owns s'.pending)
    (hone : s'.pending.length ≤ 1)
    (hfree : c.holds = false → ∀ p ∈ s'.pending, p.1 = s'.timerId)
    (hflag : ∀ t, (s'.calls t).modding = true → s'.expires = -1)
    (hmod : Exclusive Call.modding s'.calls) : Held s' := by
  have hholds : ∀ t', t' ≠ t → (s'.calls t').holds = false := fun t' hne => by
    rw [hcalls, update_of_ne hne]
    exact hothers t' hne
  refine ⟨hflag, hmod, fun t₁ t₂ h₁ h₂ => ?_, hone, fun hnone => ?_, fun t' => ?_⟩
  · have heq : ∀ t', (s'.calls t').holds = true → t' = t := fun t' ht' => by
      by_contra hne
      rw [hholds t' hne] at ht'
      cases ht'
    rw [heq t₁ h₁, heq t₂ h₂]
  · have hc := hnone t
    rw [hcalls, update_self] at hc
    exact hfree hc
  · by_cases heq : t' = t
    · rw [hcalls, heq, update_self]
      exact howns
    · exact Call.owns_of_not_holds (hholds t' heq)

/-! ### Steps -/

/-- A step that starts no mod_timer and ends none. -/
theorem Held.control (h : Held s) (s' : TimerState n) (hcalls : s'.calls = update s.calls t c)
    (hc : c.modding = true → (s.calls t).modding = true) (hexp : s'.expires = s.expires) :
    (∀ t, (s'.calls t).modding = true → s'.expires = -1) ∧ Exclusive Call.modding s'.calls := by
  refine ⟨fun t' ht' => ?_, hcalls ▸ h.modding.set fun hm => .inl (hc hm)⟩
  rw [hexp]
  rw [hcalls] at ht'
  by_cases heq : t' = t
  · rw [heq, update_self] at ht'
    exact h.flag t (hc ht')
  · rw [update_of_ne heq] at ht'
    exact h.flag t' ht'

/-- Nothing but the time passes, or something pending is called. -/
theorem Held.less (h : Held s) (hcalls : s'.calls = s.calls) (hid : s'.timerId = s.timerId)
    (hexp : s'.expires = s.expires) (hsub : s'.pending.Sublist s.pending) : Held s' := by
  refine ⟨?_, hcalls ▸ h.modding, hcalls ▸ h.holds, Nat.le_trans hsub.length_le h.one, ?_, ?_⟩
  · rw [hcalls, hexp]
    exact h.flag
  · rw [hcalls, hid]
    exact fun hnone p hp => h.free hnone p (hsub.subset hp)
  · rw [hcalls]
    exact fun t => (h.owns t).sublist hsub

variable {expires : ℤ}

theorem Held.modTimer (h : Held s) (hidle : s.calls t = .idle) :
    Held (s.modTimer t expires) := by
  unfold TimerState.modTimer
  split
  · exact h.less rfl rfl rfl (List.Sublist.refl _)
  · rename_i hguard
    have hnone : ∀ t, (s.calls t).modding = false := fun t => by
      cases hm : (s.calls t).modding with
      | false => rfl
      | true => exact (hguard (h.flag t hm)).elim
    exact h.outside rfl rfl (by rw [hidle]; rfl) rfl (List.Sublist.refl _) (fun _ _ => rfl)
      (h.modding.set fun _ => .inr hnone)

theorem Held.testSetTimer (h : Held s)
    (hw : s.expiredTime < s.jiffies → s.pending = [] ∧ ∀ t, (s.calls t).holds = false) :
    Held (s.testSetTimer t expires) := by
  unfold TimerState.testSetTimer
  split
  · rename_i htest
    obtain ⟨hnil, hnone⟩ := hw htest
    obtain ⟨hflag, hmod⟩ := h.control { s.set t (.testTime expires) with
      armings := s.armings + 1 } rfl (fun hm => by cases hm) rfl
    refine Held.inside rfl (fun t' _ => hnone t') hnil ?_ (fun hc => by cases hc) hflag hmod
    show s.pending.length ≤ 1
    rw [hnil]
    exact Nat.zero_le 1
  · exact h

theorem untimeout_nil {id : ℕ} (h : ∀ p ∈ s.pending, p.1 = id) : (s.untimeout id).pending = [] :=
  List.filter_eq_nil_iff.mpr fun p hp => by simp [h p hp]

theorem timeout_owned (expires : ℤ) (h : s.pending = []) :
    (s.timeout expires).pending = [(s.nextId, s.jiffies + expires)] := by
  rw [TimerState.timeout, h]

section next
variable (h : Held s)
include h

/-- The holder of the timer goes on holding it. -/
theorem Held.next_inside {b : Call} (hb : s.calls t = b) (ht : b.holds = true)
    (hcalls : s'.calls = update s.calls t c) (howns : c.Owns s'.pending)
    (hone : s'.pending.length ≤ 1) (hfree : c.holds = false → ∀ p ∈ s'.pending, p.1 = s'.timerId)
    (hc : c.modding = true → b.modding = true) (hexp : s'.expires = s.expires) :
    Held s' := by
  subst hb
  obtain ⟨hflag, hmod⟩ := h.control s' hcalls hc hexp
  exact Held.inside hcalls (fun t' hne => h.holds.others ht hne) howns hone hfree hflag hmod

theorem Held.next (hw : (s.calls t).Whole s) : Held (s.next t) := by
  have howns := h.owns t
  unfold TimerState.next
  cases hcall : s.calls t with
  | idle => exact h
  | modRead expires =>
    rw [hcall] at hw
    obtain ⟨hflag, hmod⟩ := h.control (s.set t (.modUntimeout expires s.timerId)) rfl
      (fun _ => by rw [hcall]; rfl) rfl
    exact Held.inside rfl (fun t' _ => hw t') (h.free hw) h.one (fun hc => by cases hc) hflag hmod
  | modUntimeout expires id =>
    rw [hcall] at howns
    have hnil : (s.untimeout id).pending = [] := untimeout_nil howns
    refine h.next_inside hcall rfl rfl hnil ?_ (fun hc => by cases hc) (fun _ => rfl) rfl
    show (s.untimeout id).pending.length ≤ 1
    rw [hnil]
    exact Nat.zero_le 1
  | modTime expires =>
    rw [hcall] at howns
    exact h.next_inside hcall rfl rfl howns h.one (fun hc => by cases hc) (fun _ => rfl) rfl
  | modTimeout expires =>
    rw [hcall] at howns
    have hone := timeout_owned expires howns
    refine h.next_inside hcall rfl rfl ?_ ?_ (fun hc => by cases hc) (fun _ => rfl) rfl
    · show ∀ p ∈ (s.timeout expires).pending, p.1 = s.nextId
      simp [hone]
    · show (s.timeout expires).pending.length ≤ 1
      rw [hone]
      exact Nat.le_refl 1
  | modStore expires id =>
    rw [hcall] at howns
    exact h.next_inside hcall rfl rfl trivial h.one (fun _ => howns) (fun _ => rfl) rfl
  | modRelease expires id =>
    have hnone : ∀ t', (update s.calls t Call.idle t').modding = false := fun t' => by
      by_cases heq : t' = t
      · rw [heq, update_self]
        rfl
      · rw [update_of_ne heq]
        exact h.modding.others (by rw [hcall]; rfl) heq
    refine h.outside rfl rfl (by rw [hcall]; rfl) rfl (List.Sublist.refl _) ?_
      (h.modding.set fun hm => by cases hm)
    exact fun t' hm => by cases (hnone t').symm.trans hm
  | testTime expires =>
    rw [hcall] at howns
    exact h.next_inside hcall rfl rfl howns h.one (fun hc => by cases hc) (fun hm => by cases hm) rfl
  | testTimeout expires =>
    rw [hcall] at howns
    have hone := timeout_owned expires howns
    refine h.next_inside hcall rfl rfl ?_ ?_ (fun hc => by cases hc) (fun hm => by cases hm) rfl
    · show ∀ p ∈ (s.timeout expires).pending, p.1 = s.nextId
      simp [hone]
    · show (s.timeout expires).pending.length ≤ 1
      rw [hone]
      exact Nat.le_refl 1
  | testStore id =>
    rw [hcall] at howns
    exact h.next_inside hcall rfl rfl trivial h.one (fun _ => howns) (fun hm => by cases hm) rfl
  | delUntimeout id mark =>
    obtain ⟨hflag, hmod⟩ := h.control { (s.untimeout id).set t .idle with deleted := mark } rfl
      (fun hm => by cases hm) rfl
    exact h.outside rfl rfl (by rw [hcall]; rfl) rfl List.filter_sublist hflag hmod

end next

variable {a : TimerAction n}

theorem Held.apply (h : Held s) (he : a.Enabled s) (hw : a.Whole s) :
    Held (a.apply s) := by
  cases a with
  | modTimer t expires => exact h.modTimer he
  | testSetTimer t expires => exact h.testSetTimer hw
  | delTimer t =>
    have hidle : s.calls t = .idle := he
    obtain ⟨hflag, hmod⟩ := h.control (s.delTimer t) rfl (fun hm => by cases hm) rfl
    exact h.outside rfl rfl (by rw [hidle]; rfl) rfl (List.Sublist.refl _) hflag hmod
  | next t => exact h.next hw
  | callback id due => exact h.less rfl rfl rfl List.erase_sublist
  | tick => exact h.less rfl rfl rfl (List.Sublist.refl _)

/-! ### mod_timer -/

/-- The timeout `id` is pending in time, or has been called. -/
def TimerState.Left (s : TimerState n) (expires : ℤ) (id : ℕ) : Prop :=
  (∃ p ∈ s.pending, p.1 = id ∧ p.2 ≤ s.jiffies + expires) ∨ id ∈ s.called

structure Served (s : TimerState n) : Prop where
  left : ∀ t expires id, (s.calls t).armed = some (expires, id) → s.Left expires id
  missed : s.missed = false

theorem TimerState.Left.mono {id : ℕ} (h : s.Left expires id)
    (hsub : ∀ p ∈ s.pending, p.1 = id → p ∈ s'.pending) (htime : s.jiffies ≤ s'.jiffies)
    (hcalled : s'.called = s.called) : s'.Left expires id := by
  rcases h with ⟨p, hp, hid, hdue⟩ | hmem
  · exact .inl ⟨p, hsub p hp hid, hid, by omega⟩
  · exact .inr (hcalled ▸ hmem)

theorem Served.step (h : Served s) (hcalls : s'.calls = update s.calls t c)
    (hc : ∀ expires id, c.armed = some (expires, id) → s'.Left expires id)
    (hkeep : ∀ t' expires id, t' ≠ t → (s.calls t').armed = some (expires, id) →
      s.Left expires id → s'.Left expires id)
    (hmissed : s'.missed = false) : Served s' := by
  refine ⟨fun t' expires id harmed => ?_, hmissed⟩
  rw [hcalls] at harmed
  by_cases heq : t' = t
  · rw [heq, update_self] at harmed
    exact hc expires id harmed
  · rw [update_of_ne heq] at harmed
    exact hkeep t' expires id heq harmed (h.left t' expires id harmed)

/-- Nothing pending is lost. -/
theorem Served.keep (h : Served s) (hcalls : s'.calls = update s.calls t c)
    (hc : ∀ expires id, c.armed = some (expires, id) → s'.Left expires id)
    (hsub : ∀ p ∈ s.pending, p ∈ s'.pending) (htime : s'.jiffies = s.jiffies)
    (hcalled : s'.called = s.called) (hmissed : s'.missed = false) : Served s' :=
  h.step hcalls hc (fun _ _ _ _ _ hleft => hleft.mono (fun p hp _ => hsub p hp)
    (Int.le_of_eq htime.symm) hcalled) hmissed

theorem Served.modTimer (h : Served s) (hw : s.expires = -1 → s.InTime expires) :
    Served (s.modTimer t expires) := by
  unfold TimerState.modTimer
  split
  · rename_i hguard
    refine ⟨h.left, ?_⟩
    rw [h.missed, decide_eq_true (hw hguard)]
    rfl
  · exact h.keep rfl (fun _ _ hc => by cases hc) (fun _ hp => hp) rfl rfl h.missed

theorem Served.testSetTimer (h : Served s) : Served (s.testSetTimer t expires) := by
  unfold TimerState.testSetTimer
  split
  · exact h.keep rfl (fun _ _ hc => by cases hc) (fun _ hp => hp) rfl rfl h.missed
  · exact h

theorem armed_modding {id : ℕ} (h : c.armed = some (expires, id)) :
    c.modding = true := by
  cases c <;> first | rfl | cases h

theorem left_of_timeout (expires : ℤ) : (s.timeout expires).Left expires s.nextId :=
  .inl ⟨_, List.mem_cons_self, rfl, Int.le_refl _⟩

theorem Served.next (h : Served s) (hheld : Held s) (hw : (s.calls t).Whole s) :
    Served (s.next t) := by
  have hleft := h.left t
  unfold TimerState.next
  cases hcall : s.calls t with
  | idle => exact h
  | modRead expires =>
    exact h.keep rfl (fun _ _ hc => by cases hc) (fun _ hp => hp) rfl rfl h.missed
  | modUntimeout expires id =>
    -- no other call has armed a timeout, for none is a mod_timer
    refine h.step rfl (fun _ _ hc => by cases hc) (fun t' e i hne harmed _ => ?_) h.missed
    have hnot := hheld.modding.others (t := t) (by rw [hcall]; rfl) hne
    rw [armed_modding harmed] at hnot
    cases hnot
  | modTime expires =>
    exact h.keep rfl (fun _ _ hc => by cases hc) (fun _ hp => hp) rfl rfl h.missed
  | modTimeout expires =>
    refine h.keep rfl (fun e i hc => ?_) (fun p hp => List.mem_cons_of_mem _ hp) rfl rfl h.missed
    obtain ⟨rfl, rfl⟩ := Prod.mk.inj (Option.some.inj hc)
    exact left_of_timeout expires
  | modStore expires id =>
    refine h.keep rfl (fun e i hc => ?_) (fun _ hp => hp) rfl rfl h.missed
    exact hleft e i (by rw [hcall]; exact hc)
  | modRelease expires id =>
    refine h.keep rfl (fun _ _ hc => by cases hc) (fun _ hp => hp) rfl rfl ?_
    have hserved : s.InTime expires ∨ id ∈ s.called :=
      (hleft expires id (by rw [hcall]; rfl)).imp_left fun ⟨p, hp, _, hdue⟩ => ⟨p, hp, hdue⟩
    show (s.missed || !decide (s.InTime expires ∨ id ∈ s.called)) = false
    rw [h.missed, decide_eq_true hserved]
    rfl
  | testTime expires =>
    exact h.keep rfl (fun _ _ hc => by cases hc) (fun _ hp => hp) rfl rfl h.missed
  | testTimeout expires =>
    exact h.keep rfl (fun _ _ hc => by cases hc) (fun p hp => List.mem_cons_of_mem _ hp) rfl rfl
      h.missed
  | testStore id =>
    exact h.keep rfl (fun _ _ hc => by cases hc) (fun _ hp => hp) rfl rfl h.missed
  | delUntimeout id mark =>
    rw [hcall] at hw
    refine h.step rfl (fun _ _ hc => by cases hc) (fun t' e i _ harmed hl => ?_) h.missed
    have hne : i ≠ id := fun heq => hw t' (by rw [harmed, heq]; rfl)
    exact hl.mono (fun p hp hid => List.mem_filter.mpr ⟨hp, by simp [hid, hne]⟩) (Int.le_refl _) rfl

theorem Served.apply (h : Served s) (hheld : Held s) (hw : a.Whole s) :
    Served (a.apply s) := by
  cases a with
  | modTimer t expires => exact h.modTimer hw
  | testSetTimer t expires => exact h.testSetTimer
  | delTimer t => exact h.keep rfl (fun _ _ hc => by cases hc) (fun _ hp => hp) rfl rfl h.missed
  | next t => exact h.next hheld hw
  | callback id due =>
    refine ⟨fun t expires i harmed => ?_, h.missed⟩
    rcases h.left t expires i harmed with ⟨p, hp, hid, hdue⟩ | hmem
    · by_cases hcalled : i = id
      · exact .inr (hcalled ▸ List.mem_cons_self)
      · have hne : p ≠ (id, due) := fun heq => hcalled (by rw [← hid, heq])
        exact .inl ⟨p, (List.mem_erase_of_ne hne).mpr hp, hid, hdue⟩
    · exact .inr (List.mem_cons_of_mem _ hmem)
  | tick =>
    refine ⟨fun t expires i harmed => (h.left t expires i harmed).mono (fun _ hp _ => hp) ?_ rfl,
      h.missed⟩
    show s.jiffies ≤ s.jiffies + 1
    omega

/-! ### del_timer -/

/-- No arming call is under way since the `mark`th, and only timeouts with `P` are pending. -/
def Calm (s : TimerState n) (mark : ℕ) (P : ℕ → Prop) : Prop :=
  mark ≤ s.armings ∧
    (mark = s.armings → (∀ t, (s.calls t).arming = false) ∧ ∀ p ∈ s.pending, P p.1)

structure Deleted (s : TimerState n) : Prop where
  calls : ∀ t id mark, s.calls t = .delUntimeout id (some mark) → Calm s mark (· = id)
  deleted : ∀ mark, s.deleted = some mark → Calm s mark fun _ => False

variable {mark : ℕ} {P : ℕ → Prop}

theorem Calm.armed (h : Calm s mark P) (harm : s'.armings = s.armings + 1) : Calm s' mark P := by
  obtain ⟨hle, -⟩ := h
  refine ⟨?_, fun heq => ?_⟩ <;> omega

theorem Calm.step (h : Calm s mark P) (hcalls : s'.calls = update s.calls t c)
    (harm : s'.armings = s.armings) (hc : c.arming = true → (s.calls t).arming = true)
    (hsub : (s.calls t).arming = false → ∀ p ∈ s'.pending, p ∈ s.pending) : Calm s' mark P := by
  refine ⟨harm ▸ h.1, fun heq => ?_⟩
  obtain ⟨hnone, hP⟩ := h.2 (heq.trans harm)
  refine ⟨fun t' => ?_, fun p hp => hP p (hsub (hnone t) p hp)⟩
  rw [hcalls]
  by_cases htt : t' = t
  · rw [htt, update_self]
    cases hca : c.arming with
    | false => rfl
    | true => cases (hnone t).symm.trans (hc hca)
  · rw [update_of_ne htt]
    exact hnone t'

theorem Deleted.calm (h : Deleted s) (hcalls : s'.calls = update s.calls t c)
    (hc : ∀ id mark, c ≠ .delUntimeout id (some mark)) (hdel : s'.deleted = s.deleted)
    (hcalm : ∀ mark P, Calm s mark P → Calm s' mark P) : Deleted s' := by
  refine ⟨fun t' id mark ht' => ?_, fun mark hm => ?_⟩
  · rw [hcalls] at ht'
    by_cases heq : t' = t
    · rw [heq, update_self] at ht'
      exact (hc id mark ht').elim
    · rw [update_of_ne heq] at ht'
      exact hcalm mark _ (h.calls t' id mark ht')
  · rw [hdel] at hm
    exact hcalm mark _ (h.deleted mark hm)

/-- A step of a call that arms. -/
theorem Deleted.arming (h : Deleted s) {b : Call} (hb : s.calls t = b) (hba : b.arming = true)
    (hcalls : s'.calls = update s.calls t c) (hc : ∀ id mark, c ≠ .delUntimeout id (some mark))
    (harm : s'.armings = s.armings) (hdel : s'.deleted = s.deleted) : Deleted s' := by
  subst hb
  refine h.calm hcalls hc hdel fun mark P hcalm => hcalm.step hcalls harm (fun _ => hba) fun hno => ?_
  cases hba.symm.trans hno

theorem Deleted.next (h : Deleted s) : Deleted (s.next t) := by
  unfold TimerState.next
  cases hcall : s.calls t with
  | idle => exact h
  | modRead _ | modUntimeout _ _ | modTime _ | modTimeout _ | modStore _ _ | modRelease _ _
  | testTime _ | testTimeout _ | testStore _ =>
    exact h.arming hcall rfl rfl (fun _ _ hc => by cases hc) rfl rfl
  | delUntimeout id mark =>
    have hstep : ∀ m P, Calm s m P →
        Calm { (s.untimeout id).set t .idle with deleted := mark } m P := fun m P hcalm =>
      hcalm.step rfl rfl (fun hc => by cases hc) fun _ p hp => List.mem_of_mem_filter hp
    refine ⟨fun t' i m ht' => ?_, fun m hm => ?_⟩
    · change update s.calls t .idle t' = _ at ht'
      by_cases heq : t' = t
      · rw [heq, update_self] at ht'
        cases ht'
      · rw [update_of_ne heq] at ht'
        exact hstep m _ (h.calls t' i m ht')
    · obtain rfl : mark = some m := hm
      obtain ⟨hle, hcalm⟩ := hstep m _ (h.calls t id m hcall)
      refine ⟨hle, fun heq => ?_⟩
      obtain ⟨hnone, hids⟩ := hcalm heq
      refine ⟨hnone, fun p hp => ?_⟩
      -- what is pending has the id that was cancelled
      have hcancelled := (List.mem_filter.mp hp).2
      rw [hids p hp] at hcancelled
      simp at hcancelled

theorem Deleted.delTimer (h : Deleted s) (hheld : Held s) :
    Deleted (s.delTimer t) := by
  have hstep : ∀ m P, Calm s m P → Calm (s.delTimer t) m P := fun m P hcalm =>
    hcalm.step rfl rfl (fun hc => by cases hc) fun _ p hp => hp
  refine ⟨fun t' i m ht' => ?_, fun m hm => hstep m _ (h.deleted m hm)⟩
  change update s.calls t _ t' = _ at ht'
  by_cases heq : t' = t
  · rw [heq, update_self] at ht'
    split at ht'
    · rename_i hnone
      cases ht'
      refine (show Calm s s.armings (· = s.timerId) from ⟨Nat.le_refl _, fun _ => ⟨hnone, ?_⟩⟩).step
        rfl rfl (fun hc => by cases hc) fun _ p hp => hp
      refine hheld.free fun t => ?_
      have hno := hnone t
      cases hcall : s.calls t <;> first | rfl | (rw [hcall] at hno; cases hno)
    · cases ht'
  · rw [update_of_ne heq] at ht'
    exact hstep m _ (h.calls t' i m ht')

/-- Nothing but the time passes, or something pending is called. -/
theorem Deleted.less (h : Deleted s) (hcalls : s'.calls = s.calls) (harm : s'.armings = s.armings)
    (hdel : s'.deleted = s.deleted) (hsub : ∀ p ∈ s'.pending, p ∈ s.pending) : Deleted s' := by
  have hstep : ∀ m P, Calm s m P → Calm s' m P := fun m P hcalm => by
    refine ⟨harm ▸ hcalm.1, fun heq => ?_⟩
    obtain ⟨hnone, hP⟩ := hcalm.2 (heq.trans harm)
    exact ⟨hcalls ▸ hnone, fun p hp => hP p (hsub p hp)⟩
  exact ⟨fun t id m ht => hstep m _ (h.calls t id m (hcalls ▸ ht)),
    fun m hm => hstep m _ (h.deleted m (hdel ▸ hm))⟩

theorem Deleted.modTimer (h : Deleted s) (expires : ℤ) : Deleted (s.modTimer t expires) := by
  unfold TimerState.modTimer
  split
  · exact h.less rfl rfl rfl fun _ hp => hp
  · exact h.calm rfl (fun _ _ hc => by cases hc) rfl fun _ _ hcalm => hcalm.armed rfl

theorem Deleted.testSetTimer (h : Deleted s) (expires : ℤ) :
    Deleted (s.testSetTimer t expires) := by
  unfold TimerState.testSetTimer
  split
  · exact h.calm rfl (fun _ _ hc => by cases hc) rfl fun _ _ hcalm => hcalm.armed rfl
  · exact h

theorem Deleted.apply (h : Deleted s) (hheld : Held s) :
    Deleted (a.apply s) := by
  cases a with
  | modTimer t expires => exact h.modTimer expires
  | testSetTimer t expires => exact h.testSetTimer expires
  | delTimer t => exact h.delTimer hheld
  | next t => exact h.next
  | callback id due => exact h.less rfl rfl rfl fun _ hp => List.mem_of_mem_erase hp
  | tick => exact h.less rfl rfl rfl fun _ hp => hp

/-! ### Runs -/

/-- What holds of every state of a run that meets the condition. -/
structure TimerInv (s : TimerState n) : Prop where
  held : Held s
  served : Served s
  deleted : Deleted s

theorem TimerInv.of_init (hs : (timerSystem n).init s) : TimerInv s := by
  obtain ⟨-, hnil, hidle, hdel, hmissed⟩ := hs
  refine ⟨⟨fun t ht => ?_, fun t t' ht => ?_, fun t t' ht => ?_, ?_, fun _ => ?_, fun t => ?_⟩,
    ⟨fun t e id ht => ?_, hmissed⟩, ⟨fun t id m ht => ?_, fun m hm => ?_⟩⟩
  · rw [hidle t] at ht
    cases ht
  · rw [hidle t] at ht
    cases ht
  · rw [hidle t] at ht
    cases ht
  · rw [hnil]
    exact Nat.zero_le 1
  · rw [hnil]
    simp
  · rw [hidle t]
    trivial
  · rw [hidle t] at ht
    cases ht
  · rw [hidle t] at ht
    cases ht
  · rw [hdel] at hm
    cases hm

theorem TimerInv.timerOk (h : TimerInv s) : TimerOk s := by
  refine ⟨h.held.one, fun hdel => ?_, h.served.missed⟩
  obtain ⟨-, hcalm⟩ := h.deleted.deleted _ hdel
  exact List.eq_nil_iff_forall_not_mem.mpr fun p hp => (hcalm rfl).2 p hp

/-- As long as calls that read, test or store `timer_id` do so one after another, the timer has one
timeout at most, and neither del_timer nor mod_timer is undone. -/
theorem timer_ok (h : ReachWhile (timerSystem n) (fun s a => a.Whole s) s) : TimerOk s := by
  refine TimerInv.timerOk (h.invariant (fun s hs => .of_init hs) fun s a s' hinv hw hs => ?_)
  obtain ⟨he, rfl⟩ := hs
  exact ⟨hinv.held.apply he hw, hinv.served.apply hinv.held hw, hinv.deleted.apply hinv.held⟩

/-! ### Computed runs -/

theorem timerRun_reach (guard : TimerState n → TimerAction n → Prop) (l : List (TimerAction n))
    (h : AllAllowed (fun s a => a.Enabled s ∧ guard s a) (fun s a => TimerAction.apply s a) l
      { jiffies := 1 }) :
    ReachWhile (timerSystem n) guard
      (l.foldl (fun s a => TimerAction.apply s a) { jiffies := 1 }) :=
  ReachWhile.foldl (S := timerSystem n) _ (fun _ _ hs => ⟨hs.2, hs.1, rfl⟩) l
    (.init ⟨(by decide : (0 : ℤ) ≠ -1), rfl, fun _ => rfl, rfl, rfl⟩) h

instance (s : TimerState n) (a : TimerAction n) : Decidable (a.Enabled s) :=
  match a with
  | .modTimer t _ | .testSetTimer t _ | .delTimer t => inferInstanceAs (Decidable (_ = _))
  | .next t => inferInstanceAs (Decidable (_ ≠ _))
  | .callback id due => inferInstanceAs (Decidable (_ ∧ _))
  | .tick => inferInstanceAs (Decidable True)

instance (s : TimerState n) (c : Call) : Decidable (c.Whole s) :=
  match c with
  | .modRead _ => inferInstanceAs (Decidable (∀ _, _))
  | .delUntimeout id _ => inferInstanceAs (Decidable (∀ _, _))
  | .idle | .modUntimeout _ _ | .modTime _ | .modTimeout _ | .modStore _ _ | .modRelease _ _
  | .testTime _ | .testTimeout _ | .testStore _ => inferInstanceAs (Decidable True)

instance (s : TimerState n) (a : TimerAction n) : Decidable (a.Whole s) :=
  match a with
  | .modTimer _ expires => inferInstanceAs (Decidable (_ → _))
  | .testSetTimer _ _ => inferInstanceAs (Decidable (_ → _))
  | .next t => inferInstanceAs (Decidable ((s.calls t).Whole s))
  | .delTimer _ | .callback _ _ | .tick => inferInstanceAs (Decidable True)

/-- A timer armed, armed again while a thread deletes it, called, and tested and set. -/
def armedRun (t u : Fin n) : List (TimerAction n) :=
  [.modTimer t 1, .next t, .next t, .next t, .next t, .modTimer u 5, .next t, .next t, .tick,
    .delTimer u, .modTimer t 0, .next t, .next u, .next t, .next t, .next t, .next t,
    .callback 2 2, .next t, .tick, .testSetTimer u 3, .next u, .next u, .next u, .delTimer t,
    .next t]

theorem timer_ok_armed :
    TimerOk ((armedRun (0 : Fin 2) 1).foldl (fun s a => TimerAction.apply s a) { jiffies := 1 }) :=
  timer_ok (timerRun_reach _ _ (by decide))

/-- Two threads test and set a timer whose time is past. -/
theorem timer_set_twice : ¬ ∀ n s, Reach (timerSystem n) s → TimerOk s := by
  intro hall
  have hok := hall 2 _ (timerRun_reach _
    [.testSetTimer 0 100, .testSetTimer 1 100, .next 0, .next 0, .next 1, .next 1] (by decide))
  exact absurd hok.one (by decide)

end GfxDrm.Timer
