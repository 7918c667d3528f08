import GfxDrm.Lock.Wakeups

/-! What drm_lock returns, and through which call the lock is held. -/

namespace GfxDrm.Lock
open Pool Run

/-- The lock is taken by a call that has not slept yet, under its own context, and
`dma_quiescent` does not fail. -/
def LockEvent.prompt (s : LockState) : LockEvent → Bool
  | .run i =>
    match s.calls[i]? with
    | some (.cas (.lock c) old) =>
      decide (s.data.word ≠ old) || isHeld old ||
        (decide (c.ret = 0) && decide (lockingContext c.context = c.context))
    | _ => true
  | .quiesced _ failed => !failed
  | _ => true

/-- Zero means that the call took the lock, which its context holds until somebody releases
it; anything else is negative, and the lock is not held through the call. -/
structure LockReturn.Ok (r : LockReturn) : Prop where
  zero : r.ret = 0 ↔ r.marked = true
  negative : r.ret ≠ 0 → r.ret < 0
  holding : r.holding = true → r.marked = true ∧ r.named = true

/-- What a running call knows of itself. -/
def Position.Ok : Position → Prop
  | lockEnter c => c.marked = false ∧ c.ret = 0
  | read (.lock c) | cas (.lock c) _ => c.marked = false ∧ 0 ≤ c.ret
  | sleeping c | woken c _ => c.marked = false
  | leaving c => (c.ret = 0 ↔ c.marked = true) ∧ (c.ret ≠ 0 → c.ret < 0)
  | quiescing c => c.marked = true
  | _ => True

def Position.id (p : Position) : Option ℕ := p.call.map LockCall.id

structure Sound (s : LockState) : Prop where
  ok : ∀ p ∈ s.calls, p.Ok
  ids : (s.calls.filterMap Position.id).Nodup
  fresh : ∀ p ∈ s.calls, ∀ c ∈ p.call, c.id < s.nextCall
  holder : ∀ k ∈ s.holder, k < s.nextCall ∧ isHeld s.data.word = true ∧
    ∀ p ∈ s.calls, ∀ c ∈ p.call, c.id = k →
      c.marked = true ∧ lockingContext s.data.word = c.context
  returns : ∀ r ∈ s.returns, r.Ok

theorem setWord_holder {s : LockState} {new : LockWord} {call : Option ℕ} {k : ℕ}
    (h : (s.setWord new call).holder = some k) : isHeld new = true ∧
      ((isHeld s.data.word = true ∧ lockingContext s.data.word = lockingContext new ∧
        s.holder = some k) ∨
      (¬ (isHeld s.data.word = true ∧ lockingContext s.data.word = lockingContext new) ∧
        call = some k)) := by
  simp only [LockState.setWord] at h
  split_ifs at h with hnew hsame
  · exact ⟨by simpa using hnew, .inl ⟨hsame.1, hsame.2, h⟩⟩
  · exact ⟨by simpa using hnew, .inr ⟨hsame, h⟩⟩

namespace Sound

variable {s s' : LockState} {i : ℕ} {p : Position}

theorem id_ne (h : Sound s) (hp : s.calls[i]? = some p) {q : Position}
    (hq : q ∈ others s.calls i) {c c' : LockCall} (hc : c ∈ p.call) (hc' : c' ∈ q.call) :
    c'.id ≠ c.id := by
  have hnodup := ((perm_others hp).filterMap Position.id).nodup_iff.mp h.ids
  have hpid : Position.id p = some c.id := by simp [Position.id, Option.mem_def.mp hc]
  have hqid : Position.id q = some c'.id := by simp [Position.id, Option.mem_def.mp hc']
  rw [List.filterMap_cons_some hpid, List.nodup_cons] at hnodup
  intro he
  exact hnodup.1 (List.mem_filterMap.mpr ⟨q, hq, he ▸ hqid⟩)

variable {p' : Option Position}

/-- Thread `i` moves on within its call, or ends it. -/
theorem move (h : Sound s) (hp : s.calls[i]? = some p) (hc : s'.calls = moveOn s.calls i p')
    (hok : ∀ q ∈ p', q.Ok) (hcall : ∀ q ∈ p', q.id = p.id) (hnext : s'.nextCall = s.nextCall)
    (hholder : ∀ k ∈ s'.holder, k < s.nextCall ∧ isHeld s'.data.word = true ∧
      ∀ q ∈ p'.toList ++ others s.calls i, ∀ c ∈ q.call, c.id = k →
        c.marked = true ∧ lockingContext s'.data.word = c.context) (hret : ∀ r ∈ s'.returns, r.Ok) :
    Sound s' := by
  have hmem : ∀ q, q ∈ s'.calls ↔ q ∈ p'.toList ++ others s.calls i := fun q => by
    rw [hc, (moveOn_perm s.calls i p').mem_iff]
  have hold : ∀ q ∈ others s.calls i, q ∈ s.calls := fun q hq =>
    (perm_others hp).symm.subset (List.mem_cons_of_mem _ hq)
  refine ⟨fun q hq => ?_, ?_, fun q hq c hqc => ?_, fun k hk => ?_, hret⟩
  · rw [hmem, List.mem_append, Option.mem_toList] at hq
    exact hq.elim (hok q) fun hq => h.ok q (hold q hq)
  · rw [hc, ((moveOn_perm s.calls i p').filterMap Position.id).nodup_iff, List.filterMap_append]
    have hnodup := ((perm_others hp).filterMap Position.id).nodup_iff.mp h.ids
    rw [← List.singleton_append, List.filterMap_append] at hnodup
    cases p' with
    | none => exact (List.nodup_append.mp hnodup).2.1
    | some q => simpa [List.filterMap_cons, hcall q rfl] using hnodup
  · rw [hnext]
    rw [hmem, List.mem_append, Option.mem_toList] at hq
    rcases hq with hq | hq
    · have hid : Position.id p = some c.id := by
        rw [← hcall q hq]
        simp [Position.id, Option.mem_def.mp hqc]
      obtain ⟨c₀, hc₀, he⟩ := Option.map_eq_some_iff.mp hid
      rw [← he]
      exact h.fresh p (List.mem_of_getElem? hp) c₀ hc₀
    · exact h.fresh q (hold q hq) c hqc
  · obtain ⟨hlt, hheld, hcalls⟩ := hholder k hk
    exact ⟨hnext ▸ hlt, hheld, fun q hq => hcalls q ((hmem q).mp hq)⟩

/-- The word and its holder stay as they are. -/
theorem keep (h : Sound s) (hp : s.calls[i]? = some p) (hc : s'.calls = moveOn s.calls i p')
    (hok : ∀ q ∈ p', q.Ok)
    (hcall : ∀ q ∈ p', ∀ c' ∈ q.call, ∃ c ∈ p.call, c'.id = c.id ∧ c'.context = c.context ∧
      c'.marked = c.marked) (hid : ∀ q ∈ p', q.id = p.id) (hnext : s'.nextCall = s.nextCall)
    (hholder : s'.holder = s.holder) (hword : s'.data.word = s.data.word)
    (hret : ∀ r ∈ s'.returns, r.Ok) : Sound s' := by
  refine h.move hp hc hok hid hnext (fun k hk => ?_) hret
  rw [hholder] at hk
  rw [hword]
  obtain ⟨hlt, hheld, hcalls⟩ := h.holder k hk
  refine ⟨hlt, hheld, fun q hq c' hc' hk' => ?_⟩
  rw [List.mem_append, Option.mem_toList] at hq
  rcases hq with hq | hq
  · obtain ⟨c, hpc, he, hctx, hm⟩ := hcall q hq c' hc'
    have hold := hcalls p (List.mem_of_getElem? hp) c hpc (he ▸ hk')
    exact ⟨hm ▸ hold.1, hctx ▸ hold.2⟩
  · exact hcalls q ((perm_others hp).symm.subset (List.mem_cons_of_mem _ hq)) c' hc' hk'

/-- A thread that runs no drm_lock writes the word and ends. -/
theorem write (h : Sound s) (hp : s.calls[i]? = some p) {new : LockWord}
    (hc : s'.calls = moveOn s.calls i p') (hok : ∀ q ∈ p', q.Ok) (hnone : p.call = none)
    (hcall : ∀ q ∈ p', q.call = none) (hnext : s'.nextCall = s.nextCall)
    (hholder : s'.holder = (s.setWord new none).holder) (hword : s'.data.word = new)
    (hret : s'.returns = s.returns) : Sound s' := by
  refine h.move hp hc hok (fun q hq => by simp [Position.id, hcall q hq, hnone]) hnext
    (fun k hk => ?_) (hret ▸ h.returns)
  rw [hholder] at hk
  obtain ⟨hnew, ⟨-, hctx, hk⟩ | ⟨-, hk⟩⟩ := setWord_holder hk
  · obtain ⟨hlt, -, hcalls⟩ := h.holder k hk
    rw [hword]
    refine ⟨hlt, hnew, fun q hq c hqc hk' => ?_⟩
    rw [List.mem_append, Option.mem_toList] at hq
    rcases hq with hq | hq
    · simp [hcall q hq] at hqc
    · rw [← hctx]
      exact hcalls q ((perm_others hp).symm.subset (List.mem_cons_of_mem _ hq)) c hqc hk'
  · simp at hk

/-- A call starts, or is turned away at once. -/
theorem start (h : Sound s) (hok : p.Ok) (hc : s'.calls = p :: s.calls)
    (hnew : ∀ c ∈ p.call, c.id = s.nextCall ∧ s'.nextCall = s.nextCall + 1)
    (hnext : s.nextCall ≤ s'.nextCall) (hholder : s'.holder = s.holder)
    (hword : s'.data.word = s.data.word) (hret : s'.returns = s.returns) : Sound s' := by
  refine ⟨fun q hq => ?_, ?_, fun q hq c hqc => ?_, fun k hk => ?_, hret ▸ h.returns⟩
  · rw [hc] at hq
    rcases List.mem_cons.mp hq with rfl | hq
    · exact hok
    · exact h.ok q hq
  · rw [hc, List.filterMap_cons]
    split
    · exact h.ids
    · rename_i k hk
      refine List.nodup_cons.mpr ⟨fun hmem => ?_, h.ids⟩
      obtain ⟨c, hpc, rfl⟩ := Option.map_eq_some_iff.mp hk
      obtain ⟨q, hq, hqk⟩ := List.mem_filterMap.mp hmem
      obtain ⟨c', hqc, he⟩ := Option.map_eq_some_iff.mp hqk
      have hlt := h.fresh q hq c' hqc
      rw [he, (hnew c hpc).1] at hlt
      exact lt_irrefl _ hlt
  · rw [hc] at hq
    rcases List.mem_cons.mp hq with rfl | hq
    · rw [(hnew c hqc).1, (hnew c hqc).2]
      exact Nat.lt_succ_self _
    · exact (h.fresh q hq c hqc).trans_le hnext
  · rw [hholder] at hk
    obtain ⟨hlt, hheld, hcalls⟩ := h.holder k hk
    rw [hword]
    refine ⟨hlt.trans_le hnext, hheld, fun q hq c hqc hk' => ?_⟩
    rw [hc] at hq
    rcases List.mem_cons.mp hq with rfl | hq
    · rw [← hk', (hnew c hqc).1] at hlt
      exact absurd hlt (lt_irrefl _)
    · exact hcalls q hq c hqc hk'

theorem wakeup (h : Sound s) : Sound s.broadcast := by
  have hcall : ∀ p : Position, p.wakeup.call = p.call := fun p => by cases p <;> rfl
  refine ⟨fun q hq => ?_, ?_, fun q hq c hqc => ?_, fun k hk => ?_, h.returns⟩
  · obtain ⟨p, hp, rfl⟩ := List.mem_map.mp hq
    have hok := h.ok p hp
    cases p with
    | sleeping c => exact hok
    | _ => exact hok
  · have hid : ∀ p : Position, p.wakeup.id = p.id := fun p => by simp [Position.id, hcall]
    simpa [LockState.broadcast, hid] using h.ids
  · obtain ⟨p, hp, rfl⟩ := List.mem_map.mp hq
    rw [hcall] at hqc
    exact h.fresh p hp c hqc
  · obtain ⟨hlt, hheld, hcalls⟩ := h.holder k hk
    refine ⟨hlt, hheld, fun q hq c hqc hk' => ?_⟩
    obtain ⟨p, hp, rfl⟩ := List.mem_map.mp hq
    rw [hcall] at hqc
    exact hcalls p hp c hqc hk'

variable {c : LockCall}

/-- What a call that is over leaves in the log. -/
theorem log (h : Sound s) (hp : p ∈ s.calls) (hc : c ∈ p.call) {ret : ℤ}
    (hzero : ret = 0 ↔ c.marked = true) (hneg : ret ≠ 0 → ret < 0) :
    ∀ r ∈ (s.logReturn c ret).returns, r.Ok := by
  intro r hr
  rcases List.mem_cons.mp hr with rfl | hr
  · refine ⟨hzero, hneg, fun hk => ?_⟩
    have hk : s.holder = some c.id := by simpa using hk
    obtain ⟨-, hheld, hcalls⟩ := h.holder c.id hk
    obtain ⟨hm, hctx⟩ := hcalls p hp c hc rfl
    exact ⟨hm, by simp [hheld, hctx]⟩
  · exact h.returns r hr

/-- The lock is held: the call asks for contention and goes to sleep. -/
theorem casHeld (h : Sound s) (hp : s.calls[i]? = some (.cas (.lock c) s.data.word))
    (hheld : isHeld s.data.word = true) :
    Sound (casDone s i s.data.word (.lock c)) := by
  have hnot : tookLock c.context s.data.word
      ((CasLoop.lock c).newWord s.data s.data.word) = false := tookLock_of_held s.data hheld
  have hctx : lockingContext ((CasLoop.lock c).newWord s.data s.data.word) =
      lockingContext s.data.word := by
    simp [CasLoop.newWord, takeWord, hheld]
  have hok := h.ok _ (List.mem_of_getElem? hp)
  simp only [casDone]
  rw [if_neg (by simp [hnot])]
  refine h.move hp rfl ?_ (by simp [Position.id, Position.call]) rfl (fun k hk => ?_) h.returns
  · simpa [Position.Ok, hheld] using hok.1
  · obtain ⟨hnew, ⟨-, -, hk⟩ | ⟨hdiff, -⟩⟩ := setWord_holder hk
    · obtain ⟨hlt, -, hcalls⟩ := h.holder k hk
      refine ⟨hlt, hnew, fun q hq d hqd hk' => ?_⟩
      change d.marked = true ∧ lockingContext ((CasLoop.lock c).newWord s.data s.data.word) = _
      rw [hctx]
      rcases List.mem_cons.mp hq with rfl | hq
      · obtain rfl : _ = d := by simpa [Position.call] using hqd
        have hmarked := hcalls _ (List.mem_of_getElem? hp) c rfl hk'
        exact ⟨by simp [hmarked.1], hmarked.2⟩
      · exact hcalls q ((perm_others hp).symm.subset (List.mem_cons_of_mem _ hq)) d hqd hk'
    · exact absurd ⟨hheld, hctx.symm⟩ hdiff

/-- The lock is free: the call takes it at its first attempt. -/
theorem casFree (h : Sound s) (hp : s.calls[i]? = some (.cas (.lock c) s.data.word))
    (hfree : isHeld s.data.word = false) (hret : c.ret = 0)
    (hctx : lockingContext c.context = c.context) :
    Sound (casDone s i s.data.word (.lock c)) := by
  have htook : tookLock c.context s.data.word
      ((CasLoop.lock c).newWord s.data s.data.word) = true := tookLock_of_free s.data hfree hctx
  simp only [casDone]
  rw [if_pos htook]
  refine h.move hp rfl ?_ (by simp [Position.id, Position.call]) rfl (fun k hk => ?_) h.returns
  · simp [Position.Ok, hfree, hret]
  · obtain ⟨hnew, ⟨hheld, -, -⟩ | ⟨-, hk⟩⟩ := setWord_holder hk
    · simp [hfree] at hheld
    · obtain rfl : c.id = k := by simpa using hk
      refine ⟨h.fresh _ (List.mem_of_getElem? hp) c rfl, hnew, fun q hq d hqd hk' => ?_⟩
      rcases List.mem_cons.mp hq with rfl | hq
      · obtain rfl : _ = d := by simpa [Position.call] using hqd
        exact ⟨by simp [hfree], (lockingContext_takeWord s.data hfree).trans hctx⟩
      · exact absurd hk' (h.id_ne hp hq rfl hqd)

theorem cas (h : Sound s) {l : CasLoop} (hp : s.calls[i]? = some (.cas l s.data.word))
    (hg : (LockEvent.run i).prompt s = true) : Sound (casDone s i s.data.word l) := by
  cases l with
  | lock c =>
    simp only [LockEvent.prompt, hp, ne_eq, not_true_eq_false, decide_false, Bool.false_or,
      Bool.or_eq_true, Bool.and_eq_true, decide_eq_true_eq] at hg
    by_cases hheld : isHeld s.data.word = true
    · exact h.casHeld hp hheld
    · obtain ⟨hret, hctx⟩ := hg.resolve_left hheld
      exact h.casFree hp (by simpa using hheld) hret hctx
  | idleTake => exact h.write hp rfl (by simp) rfl (by simp) rfl rfl rfl rfl
  | transfer => exact h.write hp rfl (by simp) rfl (by simp) rfl rfl rfl rfl
  | free context =>
    simp only [casDone]
    split
    · exact h.write hp rfl (by simp) rfl (by simp) rfl rfl rfl rfl
    · exact h.write hp rfl (by simp [Position.Ok]) rfl (by simp [Position.call]) rfl rfl rfl rfl
  | idleRelease =>
    exact h.write hp rfl (by simp [Position.Ok]) rfl (by simp [Position.call]) rfl rfl rfl rfl

theorem run {cfg : LockConfig} (h : Sound s) (hp : s.calls[i]? = some p)
    (hg : (LockEvent.run i).prompt s = true) (hs : p.run cfg s i = some s') : Sound s' := by
  have hok := h.ok p (List.mem_of_getElem? hp)
  cases p with
  | lockEnter c =>
    simp only [Position.run] at hs
    split at hs <;> cases hs
    exact h.keep hp rfl (by simpa [Position.Ok] using ⟨hok.1, hok.2.ge⟩)
      (by simp [Position.call]) (by simp [Position.id, Position.call]) rfl rfl rfl h.returns
  | read l =>
    simp only [Position.run] at hs
    split at hs <;> cases hs
    cases l with
    | lock c =>
      exact h.keep hp rfl (by simpa [Position.Ok] using hok)
        (by simp [Position.call]) (by simp [Position.id, Position.call]) rfl rfl rfl h.returns
    | _ =>
      exact h.keep hp rfl (by simp [Position.Ok]) (by simp [Position.call])
        (by simp [Position.id, Position.call]) rfl rfl rfl h.returns
  | cas l old =>
    simp only [Position.run, Option.some.injEq] at hs
    split at hs
    · rename_i hold
      subst hold hs
      exact h.cas hp hg
    · subst hs
      cases l with
      | lock c =>
        exact h.keep hp rfl (by simpa [Position.Ok] using hok)
          (by simp [Position.call]) (by simp [Position.id, Position.call]) rfl rfl rfl h.returns
      | _ =>
        exact h.keep hp rfl (by simp [Position.Ok]) (by simp [Position.call])
          (by simp [Position.id, Position.call]) rfl rfl rfl h.returns
  | freeBroadcast =>
    cases hs
    have hexit : Sound (s.setCall i none).exit :=
      h.keep hp rfl (by simp) (by simp) (by simp) rfl rfl rfl h.returns
    exact hexit.wakeup
  | idleBroadcast =>
    cases hs
    have hexit :
        Sound ({ s with data := { s.data with idleHasLock := false } }.setCall i none).exit :=
      h.keep hp rfl (by simp) (by simp) (by simp) rfl rfl rfl h.returns
    exact hexit.wakeup
  | sleeping c => cases hs
  | woken c r =>
    simp only [Position.run] at hs
    have hm : c.marked = false := hok
    split_ifs at hs <;> cases hs
    · exact h.keep hp rfl (by simp [Position.Ok, hm])
        (by simp [Position.call]) (by simp [Position.id, Position.call]) rfl rfl rfl h.returns
    · exact h.keep hp rfl (by simp [Position.Ok, hm])
        (by simp [Position.call]) (by simp [Position.id, Position.call]) rfl rfl rfl h.returns
  | leaving c =>
    simp only [Position.run] at hs
    have hmem := List.mem_of_getElem? hp
    split_ifs at hs with hret hquiet <;> cases hs
    · exact h.keep hp rfl (by simp) (by simp) (by simp) rfl rfl rfl (h.log hmem rfl hok.1 hok.2)
    · have hm : c.marked = true := hok.1.mp (by simpa using hret)
      exact h.keep hp rfl (by simpa [Position.Ok] using hm) (by simp [Position.call])
        (by simp [Position.id, Position.call]) rfl rfl rfl h.returns
    · have hm : c.marked = true := hok.1.mp (by simpa using hret)
      exact h.keep hp rfl (by simp) (by simp) (by simp) rfl rfl rfl
        (h.log hmem rfl (by simp [hm]) (by simp))
  | quiescing c => cases hs
  | _ =>
    simp only [Position.run] at hs
    split_ifs at hs <;> cases hs <;>
      exact h.keep hp rfl (by simp [Position.Ok]) (by simp [Position.call])
        (by simp [Position.id, Position.call]) rfl rfl rfl h.returns

/-- User space writes the word for nobody's call. -/
theorem userWord (h : Sound s) {new : LockWord} (hdiff : isHeld s.data.word = true →
    isHeld new = false) : Sound (s.setWord new none) := by
  refine ⟨h.ok, h.ids, h.fresh, fun k hk => ?_, h.returns⟩
  obtain ⟨hnew, ⟨hheld, -, -⟩ | ⟨-, hk⟩⟩ := setWord_holder hk
  · simp [hdiff hheld] at hnew
  · simp at hk

/-- A call with a bad argument. -/
theorem turnedAway (h : Sound s) (hid : c.id = s.nextCall) (hm : c.marked = false) :
    Sound ({ s with nextCall := s.nextCall + 1 }.logReturn c Errno.eInval) := by
  refine ⟨h.ok, h.ids, fun q hq d hd => (h.fresh q hq d hd).trans (Nat.lt_succ_self _),
    fun k hk => ?_, fun r hr => ?_⟩
  · obtain ⟨hlt, hrest⟩ := h.holder k hk
    exact ⟨hlt.trans (Nat.lt_succ_self _), hrest⟩
  · rcases List.mem_cons.mp hr with rfl | hr
    · refine ⟨by simp [hm], by simp [Errno.eInval], fun hk => ?_⟩
      have hk : s.holder = some s.nextCall := by simpa [hid] using hk
      exact absurd (h.holder _ hk).1 (lt_irrefl _)
    · exact h.returns r hr

theorem step {cfg : LockConfig} {e : LockEvent} (h : Sound s) (hg : e.prompt s = true)
    (hs : lockStep cfg s e = some s') : Sound s' := by
  cases e with
  | lock file context quiescent =>
    simp only [lockStep, Option.some.injEq, drmLock] at hs
    split_ifs at hs <;> subst hs
    · exact h.turnedAway rfl rfl
    · exact h.turnedAway rfl rfl
    · exact h.turnedAway rfl rfl
    · exact h.start (p := .lockEnter ⟨s.nextCall, file, context, quiescent, 0, false⟩)
        ⟨rfl, rfl⟩ rfl (by simp [Position.call]) (Nat.le_succ _) rfl rfl rfl
  | unlock context =>
    simp only [lockStep, Option.some.injEq] at hs
    split at hs <;> subst hs
    · exact h
    · exact h.start (p := .freeEnter context) trivial rfl (by simp [Position.call]) le_rfl rfl rfl rfl
  | lockFree context =>
    cases hs
    exact h.start (p := .freeEnter context) trivial rfl (by simp [Position.call]) le_rfl rfl rfl rfl
  | idlelockTake =>
    cases hs
    exact h.start (p := .idleTakeEnter) trivial rfl (by simp [Position.call]) le_rfl rfl rfl rfl
  | idlelockRelease =>
    cases hs
    exact h.start (p := .idleReleaseEnter) trivial rfl (by simp [Position.call]) le_rfl rfl rfl rfl
  | run i =>
    obtain ⟨p, hp, hrun⟩ := Option.bind_eq_some_iff.mp hs
    exact h.run hp hg hrun
  | wake i r =>
    simp only [lockStep] at hs
    split at hs <;> cases hs
    rename_i c hp
    exact h.keep hp rfl (by simpa [Position.Ok] using h.ok _ (List.mem_of_getElem? hp))
      (by simp [Position.call]) (by simp [Position.id, Position.call]) rfl rfl rfl h.returns
  | quiesced i failed =>
    simp only [LockEvent.prompt, Bool.not_eq_true'] at hg
    simp only [lockStep, hg] at hs
    split at hs <;> cases hs
    rename_i c hp
    have hmem := List.mem_of_getElem? hp
    have hm : c.marked = true := h.ok _ hmem
    exact h.keep hp rfl (by simp) (by simp) (by simp) rfl rfl rfl
      (h.log hmem rfl (by simp [hm]) (by simp))
  | userTake context =>
    simp only [lockStep] at hs
    split at hs <;> cases hs
    rename_i hc
    refine h.userWord fun hheld => ?_
    rw [hc.2.2, ← hc.2.1.2] at hheld
    simp at hheld
  | userRelease context =>
    simp only [lockStep] at hs
    split at hs <;> cases hs
    rename_i hc
    refine h.userWord fun _ => ?_
    rw [← hc.2.1.2]
    simp

end Sound

theorem init_sound : Sound {} := ⟨by simp, List.nodup_nil, by simp, by simp, by simp⟩

/-- What a state of a run promises of drm_lock: the calls that are over returned as they should,
and `user_waiters` counts those that wait. -/
structure LockAccount (s : LockState) : Prop where
  returns : ∀ r ∈ s.returns, r.Ok
  waiters : s.data.userWaiters = BitVec.ofNat 32 (s.calls.countP Position.waiting)

end GfxDrm.Lock
