import GfxDrm.Lock.Invariant

/-! Who may clear the held bit, and who is woken when it is cleared. -/

namespace GfxDrm.Lock
open Pool Run

/-- A held word that user space cannot release by itself: contended, or the kernel's. -/
def Guarded (w : LockWord) : Prop := isHeld w ∧ (isCont w ∨ lockingContext w = kernelContext)

/-- Nobody sleeps unless the lock is held or a broadcast is on its way. -/
def Wakes (s : LockState) : Prop :=
  (∃ p ∈ s.calls, p.asleep) → Guarded s.data.word ∨ ∃ p ∈ s.calls, p.broadcasting

/-- The lock is freed for a context only while no other context holds it, and a free lock is
not asked for with one of the two top bits in the context. -/
def LockEvent.orderly (s : LockState) : LockEvent → Bool
  | .run i =>
    match s.calls[i]? with
    | some (.cas (.free context) _) =>
      !isHeld s.data.word || decide (lockingContext s.data.word = context)
    | some (.cas (.lock c) _) =>
      isHeld s.data.word || decide (lockingContext c.context = c.context)
    | _ => true
  | _ => true

theorem guarded_or_lockCont {w : LockWord} (h : isHeld w) : Guarded (w ||| lockCont) :=
  ⟨by simpa using h, .inl (by simp)⟩

theorem guarded_kernel : Guarded (kernelContext ||| lockHeld) := ⟨by decide, .inr (by decide)⟩

theorem isHeld_takeWord (l : LockData) (context old : LockWord) :
    isHeld (takeWord l context old) = true := by
  unfold takeWord
  split
  · rename_i h
    simpa using h
  · split <;> simp

variable {context old : LockWord}

theorem lockingContext_takeWord (l : LockData) (h : isHeld old = false) :
    lockingContext (takeWord l context old) = lockingContext context := by
  rw [takeWord, if_neg (by simp [h])]
  split <;> simp

theorem tookLock_of_free (l : LockData) (h : isHeld old = false)
    (hc : lockingContext context = context) :
    tookLock context old (takeWord l context old) = true := by
  rw [tookLock, if_neg (by simp [h]), lockingContext_takeWord l h, isHeld_takeWord]
  simp [hc]

theorem tookLock_of_held (l : LockData) (h : isHeld old = true) :
    tookLock context old (takeWord l context old) = false := by
  by_cases hc : lockingContext old = context <;> simp [tookLock, takeWord, h]

namespace Wakes

variable {s s' : LockState} {i : ℕ} {p : Position}

theorem of_awake (h : ∀ p ∈ s.calls, p.asleep = false) : Wakes s := by
  rintro ⟨p, hp, ha⟩
  simp [h p hp] at ha

theorem of_guarded (h : Guarded s.data.word) : Wakes s := fun _ => .inl h

/-- A step that ends nobody's broadcast and puts nobody to sleep. -/
theorem move (h : Wakes s) (hp : s.calls[i]? = some p) (hb : p.broadcasting = false)
    {p' : Option Position} (hc : s'.calls = moveOn s.calls i p')
    (ha : ∀ q ∈ p', q.asleep = false)
    (hw : Guarded s.data.word → Guarded s'.data.word) : Wakes s' := by
  rintro ⟨q, hq, hqa⟩
  rw [hc] at hq
  have hqs : q ∈ s.calls := by
    refine (mem_moveOn hp hq).resolve_right fun he => ?_
    simp [ha q he] at hqa
  rcases h ⟨q, hqs, hqa⟩ with hg | ⟨r, hr, hrb⟩
  · exact .inl (hw hg)
  · have hro : r ∈ others s.calls i := by
      rcases List.mem_cons.mp ((perm_others hp).subset hr) with rfl | hro
      · simp [hb] at hrb
      · exact hro
    refine .inr ⟨r, ?_, hrb⟩
    rw [hc]
    exact (moveOn_perm _ _ _).symm.subset (List.mem_append_right _ hro)

theorem start (h : Wakes s) (ha : p.asleep = false) (hc : s'.calls = p :: s.calls)
    (hw : s'.data.word = s.data.word) : Wakes s' := by
  rintro ⟨q, hq, hqa⟩
  rw [hc] at hq
  rcases List.mem_cons.mp hq with rfl | hq
  · simp [ha] at hqa
  · rw [hw, hc]
    rcases h ⟨q, hq, hqa⟩ with hg | ⟨r, hr, hrb⟩
    · exact .inl hg
    · exact .inr ⟨r, List.mem_cons_of_mem _ hr, hrb⟩

/-- Only the word changes. -/
theorem word (h : Wakes s) (hc : s'.calls = s.calls)
    (hw : Guarded s.data.word → Guarded s'.data.word) : Wakes s' := by
  rintro ⟨q, hq, hqa⟩
  rw [hc] at hq ⊢
  exact (h ⟨q, hq, hqa⟩).imp_left hw

/-- Inside the mutex a free lock has no sleepers: no broadcast is on its way. -/
theorem awake_of_free (h : Wakes s) (hI : Inv s) (hp : s.calls[i]? = some p)
    (hin : p.inside = true) (hb : p.broadcasting = false) (hfree : isHeld s.data.word = false) :
    ∀ q ∈ s.calls, q.asleep = false := by
  intro q hq
  by_contra hqa
  rcases h ⟨q, hq, by simpa using hqa⟩ with ⟨hheld, _⟩ | ⟨r, hr, hrb⟩
  · simp [hfree] at hheld
  · rcases List.mem_cons.mp ((perm_others hp).subset hr) with rfl | hro
    · simp [hb] at hrb
    · have hrin := hI.alone hp hin r hro
      cases r <;> simp_all [Position.inside, Position.broadcasting]

theorem awake_moveOn (h : ∀ q ∈ s.calls, q.asleep = false) (hp : s.calls[i]? = some p)
    {p' : Option Position} (ha : ∀ q ∈ p', q.asleep = false) :
    ∀ q ∈ moveOn s.calls i p', q.asleep = false := by
  intro q hq
  rcases mem_moveOn hp hq with hq | hq
  · exact h q hq
  · exact ha q hq

theorem broadcasts {p' : Position}
    (hc : s'.calls = moveOn s.calls i (some p')) (hb : p'.broadcasting = true) :
    ∃ q ∈ s'.calls, q.broadcasting := by
  refine ⟨p', ?_, hb⟩
  rw [hc]
  exact (moveOn_perm _ _ _).symm.subset (by simp)

theorem cas (h : Wakes s) (hI : Inv s) {l : CasLoop} (hp : s.calls[i]? = some (.cas l s.data.word))
    (hg : (LockEvent.run i).orderly s = true) : Wakes (casDone s i s.data.word l) := by
  simp only [LockEvent.orderly, hp] at hg
  cases l with
  | lock c =>
    simp only [Bool.or_eq_true, decide_eq_true_eq] at hg
    by_cases hheld : isHeld s.data.word = true
    · have hguard : Guarded (takeWord s.data c.context s.data.word) := by
        rw [takeWord, if_pos hheld]
        exact guarded_or_lockCont hheld
      simp only [casDone]
      split <;> exact of_guarded hguard
    · rw [Bool.not_eq_true] at hheld
      have hawake := h.awake_of_free hI hp rfl rfl hheld
      have htook : tookLock c.context s.data.word
          ((CasLoop.lock c).newWord s.data s.data.word) = true :=
        tookLock_of_free s.data hheld (hg.resolve_left (by simp [hheld]))
      simp only [casDone]
      rw [if_pos htook]
      exact of_awake (awake_moveOn hawake hp (by simp [Position.asleep]))
  | idleTake =>
    refine h.move hp rfl rfl (by simp) fun hguard => ?_
    change Guarded (takeWord _ _ _)
    rw [takeWord, if_pos hguard.1]
    exact guarded_or_lockCont hguard.1
  | transfer => exact of_guarded guarded_kernel
  | free context =>
    simp only [casDone]
    rw [if_neg (by simpa [imp_iff_not_or] using hg)]
    exact fun _ => .inr (broadcasts rfl rfl)
  | idleRelease =>
    exact fun _ => .inr (broadcasts rfl rfl)

variable {cfg : LockConfig}

theorem run (h : Wakes s) (hI : Inv s) (hp : s.calls[i]? = some p)
    (hg : (LockEvent.run i).orderly s = true) (hs : p.run cfg s i = some s') : Wakes s' := by
  cases p with
  | cas l old =>
    simp only [Position.run, Option.some.injEq] at hs
    split at hs
    · rename_i hold
      subst hold hs
      exact h.cas hI hp hg
    · subst hs
      exact h.move hp rfl rfl (by simp [Position.asleep]) id
  | freeBroadcast =>
    cases hs
    exact of_awake (by simp [LockState.broadcast, LockState.exit])
  | idleBroadcast =>
    cases hs
    exact of_awake (by simp [LockState.broadcast, LockState.exit])
  | sleeping c => cases hs
  | quiescing c => cases hs
  | _ =>
    simp only [Position.run] at hs
    split_ifs at hs <;> cases hs <;> exact h.move hp rfl rfl (by simp [Position.asleep]) id

theorem step {e : LockEvent} (h : Wakes s) (hI : Inv s) (hg : e.orderly s = true)
    (hs : lockStep cfg s e = some s') : Wakes s' := by
  cases e with
  | lock file context quiescent =>
    simp only [lockStep, Option.some.injEq, drmLock] at hs
    split_ifs at hs <;> subst hs
    · exact h
    · exact h
    · exact h
    · exact h.start rfl rfl rfl
  | unlock context =>
    simp only [lockStep, Option.some.injEq] at hs
    split at hs <;> subst hs
    · exact h
    · exact h.start rfl rfl rfl
  | lockFree context =>
    cases hs
    exact h.start rfl rfl rfl
  | idlelockTake =>
    cases hs
    exact h.start rfl rfl rfl
  | idlelockRelease =>
    cases hs
    exact h.start rfl rfl rfl
  | run i =>
    obtain ⟨p, hp, hrun⟩ := Option.bind_eq_some_iff.mp hs
    exact h.run hI hp hg hrun
  | wake i r =>
    simp only [lockStep] at hs
    split at hs
    · rename_i c hp
      cases hs
      exact h.move hp rfl rfl (by simp [Position.asleep]) id
    · cases hs
  | quiesced i failed =>
    simp only [lockStep] at hs
    split at hs
    · rename_i c hp
      cases hs
      exact h.move hp rfl rfl (by simp) id
    · cases hs
  | userTake context =>
    simp only [lockStep] at hs
    split at hs <;> cases hs
    rename_i hc
    refine h.word rfl fun hguard => ?_
    -- a word that is a bare context is not held
    have hfree : isHeld s.data.word = false := by
      rw [hc.2.2, ← hc.2.1.2]
      simp
    simp [Guarded, hfree] at hguard
  | userRelease context =>
    simp only [lockStep] at hs
    split at hs <;> cases hs
    rename_i hc
    refine h.word rfl fun hguard => ?_
    -- user space releases an uncontended lock of its own only
    rcases hguard.2 with hcont | hkernel
    · rw [hc.2.2, ← hc.2.1.2] at hcont
      simp at hcont
    · rw [hc.2.2, lockingContext_or_lockHeld, hc.2.1.2] at hkernel
      exact absurd hkernel hc.2.1.1

end Wakes

/-- What is promised of a step: only the owner's release clears the held bit, a lock that is
no longer held has no sleepers but those a broadcast is on its way to, and a broadcast wakes
them all. -/
structure ReleaseOk (s : LockState) (e : LockEvent) (s' : LockState) : Prop where
  owner : ∀ i context old, e = .run i → s.calls[i]? = some (.cas (.free context) old) →
    isHeld s.data.word → ¬ isHeld s'.data.word → lockingContext s.data.word = context
  woken : ¬ isHeld s'.data.word → (∃ p ∈ s'.calls, p.asleep) → ∃ p ∈ s'.calls, p.broadcasting
  broadcast : ∀ i p, e = .run i → s.calls[i]? = some p → p.broadcasting →
    ∀ q ∈ s'.calls, ¬ q.asleep

theorem lockSystem_inv {s : LockState} (h : Reach (lockSystem cfg) s) : Inv s :=
  h.invariant (fun _ hi => hi ▸ init_inv) fun _ _ _ hI _ hs => hI.step hs

theorem lockSystem_wakes {s : LockState}
    (h : ReachWhile (lockSystem cfg) (fun s e => e.orderly s = true) s) : Wakes s :=
  h.invariant_of (fun _ h => lockSystem_inv h.reach)
    (fun _ hi => hi ▸ Wakes.of_awake (by simp)) fun _ _ _ hI hW hg hs => hW.step hI hg hs

/-- In a run whose releases are the owner's own no wakeup is lost. -/
theorem lock_release_wakes (cfg : LockConfig) (s s' : LockState) (e : LockEvent)
    (h : ReachWhile (lockSystem cfg) (fun s e => e.orderly s = true) s)
    (hg : e.orderly s = true) (hs : lockStep cfg s e = some s') : ReleaseOk s e s' := by
  have hW : Wakes s' := lockSystem_wakes (h.step hg hs)
  refine ⟨fun i context old he hp hheld _ => ?_, fun hfree hasleep => ?_,
    fun i p he hp hb q hq => ?_⟩
  · subst he
    simpa [LockEvent.orderly, hp, hheld] using hg
  · exact (hW hasleep).resolve_left fun hguard => hfree hguard.1
  · subst he
    simp only [lockStep, hp] at hs
    cases p <;> simp [Position.broadcasting] at hb <;> cases hs
    all_goals
      obtain ⟨q, hq, rfl⟩ := List.mem_map.mp hq
      simp

/-- Context 1 frees the lock with context 2 asleep. -/
theorem lock_release_wakes_handOver : ∃ s s', ReleaseOk s (.run 0) s' ∧
    isHeld s.data.word = true ∧ isHeld s'.data.word = false := by
  obtain ⟨s, hs, hp⟩ : ∃ s, ReachWhile (lockSystem {}) (fun s e => e.orderly s = true) s ∧
      ((LockEvent.run 0).orderly s && isHeld s.data.word &&
        (lockStep {} s (.run 0)).any fun s' => !isHeld s'.data.word) = true :=
    ReachWhile.of_exec_any (l := [.lock 1 1 false, .run 0, .run 0, .run 0, .run 0,
      .lock 2 2 false, .run 0, .run 0, .run 0, .unlock 1, .run 0, .run 0])
      (.init rfl) (by decide +kernel)
  simp only [Bool.and_eq_true, Option.any_eq_true, Bool.not_eq_true'] at hp
  obtain ⟨⟨hg, hheld⟩, s', hs', hfree⟩ := hp
  exact ⟨s, s', lock_release_wakes {} s s' (.run 0) hs hg hs', hheld, hfree⟩

/-- Context 3 frees the lock of context 1, for which context 2 waits. -/
theorem lock_free_clears_other : ¬ ∀ s s' e, Reach (lockSystem {}) s → lockStep {} s e = some s' →
    ReleaseOk s e s' := by
  intro h
  obtain ⟨s, hs, hp⟩ : ∃ s, ReachWhile (lockSystem {}) (fun _ _ => true = true) s ∧
      (decide (s.calls[0]? = some (Position.cas (.free 3) 0xC0000001)) && isHeld s.data.word &&
        decide (lockingContext s.data.word ≠ 3) &&
        (lockStep {} s (.run 0)).any fun s' => !isHeld s'.data.word) = true :=
    ReachWhile.of_exec_any (l := [.lock 1 1 false, .run 0, .run 0, .run 0, .run 0,
      .lock 2 2 false, .run 0, .run 0, .run 0, .unlock 3, .run 0, .run 0])
      (.init rfl) (by decide +kernel)
  simp only [Bool.and_eq_true, Option.any_eq_true, Bool.not_eq_true', decide_eq_true_eq] at hp
  obtain ⟨⟨⟨hcas, hheld⟩, hne⟩, s', hs', hfree⟩ := hp
  exact hne ((h s s' _ hs.reach hs').owner 0 3 _ rfl hcas hheld (by simp [hfree]))

end GfxDrm.Lock
