import GfxDrm.I915.ExecReferences

/-! The references of a whole execbuffer call. -/

namespace GfxDrm.I915

open Hoare Errno

section

variable {w w' : World} {o : ObjId} {r : RingId} {drv : Driver} {args : Execbuffer2}

/-! ### Ring commands -/

theorem World.Borrows.emit {cmds : List RingCmd} (h : ∀ c ∈ cmds, c.isBatch = false) (w : World)
    (r : RingId) : World.Borrows 0 w (w.emit r cmds) :=
  .setRing fun hw => hw.setRing
    (fun c hc => (List.mem_append.mp hc).elim ((hw r).1 c) (h c)) ((hw r).2.append cmds _)

theorem World.Borrows.setRing_same {ring : Ring} (htrace : ring.trace = (w.ring r).trace)
    (hvisible : ring.visible = (w.ring r).visible) : World.Borrows 0 w (w.setRing r ring) := by
  refine .setRing fun hw => hw.setRing (htrace ▸ (hw r).1) ⟨?_, ?_⟩
  · rw [htrace, hvisible]
    exact (hw r).2.visible
  · rw [hvisible]
    exact (hw r).2.stopped

theorem World.Borrows.emitBreadcrumb (w : World) (r : RingId) :
    World.Borrows 0 w (w.emitBreadcrumb r) := by
  have hcmd : ∀ c ∈ [RingCmd.breadcrumb (w.ring r).outstandingLazyRequest], c.isBatch = false := by
    intro c hc
    obtain rfl := List.mem_singleton.mp hc
    rfl
  refine trans_of (World.Borrows 0) (World.Borrows.emit hcmd w r) ?_
  exact .setRing_same rfl rfl

theorem World.Borrows.takeSeqno (w : World) (r : RingId) : World.Borrows 0 w (w.takeSeqno r) := by
  have h : World.Borrows 0 w (w.setRing r { w.ring r with
      outstandingLazyRequest := if w.nextSeqno = 0 then 1 else w.nextSeqno }) :=
    .setRing_same rfl rfl
  exact ⟨h.own, h.objects, h.faults, h.dev, h.fresh⟩

namespace Level

theorem getSeqno (r : RingId) : Level (getSeqno r) := by
  refine Frame.bind Frame.get fun w => Frame.bind (Frame.ite waitSeqno Frame.pure) fun ret => ?_
  exact Frame.ite Frame.pure (Frame.bind (fun v => .takeSeqno v r) fun _ => Frame.pure)

theorem ringBegin (r : RingId) : Level (ringBegin r) := by
  refine Frame.bind callOut fun e => Frame.ite Frame.pure ?_
  refine Frame.bind (Frame.bind Frame.get fun w => Frame.ite Frame.pure (getSeqno r)) fun ret => ?_
  exact Frame.ite Frame.pure (Frame.bind callOut fun _ => Frame.pure)

theorem ringEmit (r : RingId) (dwords : List (BitVec 32)) : Level (ringEmit r dwords) := by
  refine Frame.bind (ringBegin r) fun ret => Frame.ite Frame.pure ?_
  refine Frame.bind (fun w => .emit (fun c hc => ?_) w r) fun _ => Frame.pure
  obtain ⟨d, -, rfl⟩ := List.mem_map.mp hc
  rfl

theorem ringFlush (r : RingId) : Level (ringFlush r) := by
  refine Frame.bind (ringEmit r _) fun ret => Frame.ite Frame.pure ?_
  exact Frame.bind (fun _ => .setRing_same rfl rfl) fun _ => Frame.pure

theorem addRequest (r : RingId) : Level (addRequest r) := by
  refine Frame.bind (Frame.bind Frame.get fun w => Frame.ite (ringFlush r) Frame.pure) fun ret => ?_
  refine Frame.ite Frame.pure (Frame.bind callOut fun e => Frame.ite Frame.pure ?_)
  refine Frame.bind (ringBegin r) fun ret => Frame.ite Frame.pure ?_
  exact Frame.bind (fun w => .emitBreadcrumb w r) fun _ => Frame.pure

theorem objectSync (drv : Driver) (o : ObjId) (r : RingId) : Level (objectSync drv o r) := by
  refine Frame.bind getBo fun b => ?_
  cases b.ring with
  | none => exact Frame.pure
  | some signaller =>
    refine Frame.ite Frame.pure (Frame.ite waitRendering (Frame.ite Frame.pure ?_))
    refine Frame.bind (Frame.bind Frame.get fun w => Frame.ite (addRequest _) Frame.pure)
      fun ret => Frame.ite Frame.pure (ringEmit r _)

theorem moveToGpu (drv : Driver) (r : RingId) : Level (moveToGpu drv r) := by
  have hsync : ∀ l, Level (syncObjects drv r l) := by
    intro l
    induction l with
    | nil => exact Frame.pure
    | cons o l ih => exact Frame.bind (objectSync drv o r) fun ret => Frame.ite Frame.pure ih
  refine Frame.bind Frame.get fun w => Frame.bind (hsync _) fun ret => ?_
  exact Frame.ite Frame.pure (ringFlush r)

theorem emitSetContext (drv : Driver) (r : RingId) : Level (emitSetContext drv r) := by
  refine Frame.bind Frame.get fun w => Frame.bind (Frame.ite (ringEmit r _) Frame.pure) fun ret => ?_
  exact Frame.ite Frame.pure (ringEmit r _)

theorem setToGttDomain (write : Bool) : Level (setToGttDomain o write) := by
  refine Frame.bind getBo fun b => Frame.ite Frame.pure (Frame.ite Frame.pure ?_)
  refine Frame.bind waitRendering fun ret => Frame.ite Frame.pure ?_
  exact Frame.bind (modifyBo fun _ => rfl) fun _ => Frame.pure

theorem handOver (drv : Driver) (r : RingId) (old : ObjId) : Level (handOver drv r old) := by
  refine Frame.bind Frame.get fun w => Frame.bind (modifyBo fun b => ?_) fun _ => ?_
  · exact Bo.held_moveToActive { b with readDomains := domainInstruction } r
      (w.ring r).outstandingLazyRequest
  refine Frame.bind (addRequest r) fun ret => Frame.ite ?_ ?_
  · exact Frame.bind (emitSetContext drv r) fun _ => Frame.pure
  · exact Frame.bind unpin fun _ => Frame.bind callOut fun _ => Frame.pure

theorem doSwitch (drv : Driver) (r : RingId) (s : CtxSwitch) : Level (doSwitch drv r s) := by
  refine Frame.bind (pin _ _) fun ret => Frame.ite Frame.pure ?_
  refine Frame.bind (setToGttDomain false) fun ret => Frame.ite ?_ ?_
  · exact Frame.bind unpin fun _ => Frame.pure
  refine Frame.bind (modifyBo fun _ => rfl) fun _ => Frame.bind (emitSetContext drv r) fun ret => ?_
  refine Frame.ite (Frame.bind unpin fun _ => Frame.pure) ?_
  cases s.fromObj with
  | none => exact Frame.pure
  | some old => exact handOver drv r old

theorem switchContext (drv : Driver) (r : RingId) : Level (switchContext drv r) := by
  refine Frame.ite Frame.pure ?_
  match drv.context with
  | .error ret => exact Frame.pure
  | .ok none => exact Frame.pure
  | .ok (some s) => exact doSwitch drv r s

theorem emitPreamble (drv : Driver) (args : Execbuffer2) (plan : ExecPlan) :
    Level (emitPreamble drv args plan) := by
  refine Frame.bind (moveToGpu drv _) fun ret => Frame.ite Frame.pure ?_
  refine Frame.bind (switchContext drv _) fun ret => Frame.ite Frame.pure ?_
  refine Frame.bind (Frame.ite (ringEmit _ _) Frame.pure) fun ret => Frame.ite Frame.pure ?_
  refine Frame.ite (Frame.bind Frame.get fun w => ?_) Frame.pure
  exact Frame.ite Frame.pure (ringEmit _ _)

theorem prepareBatch (args : Execbuffer2) (batch : ObjId) : Level (prepareBatch args batch) :=
  Frame.bind getBo fun _ => Frame.ite Frame.pure <|
    Frame.bind (modifyBo fun _ => rfl) fun _ => Frame.pure

end Level

/-! ### The objects of the call -/

/-- An object found anew goes on the list; one that is on a list already is left behind. -/
theorem Even.lookupObjects (l : List ℕ) : Even (lookupObjects l) := by
  induction l with
  | nil => exact Frame.pure
  | cons i l ih =>
    refine Frame.bind Level.callOut.even fun e => ?_
    cases e.lookup with
    | none => exact Frame.pure
    | some o =>
      refine balance (reference o) fun _ => andThen Frame.get fun w => Frame.ite ?_ ?_
      · exact leave (.repeated o) _
      have hlist : Frame (World.Owes (-Pi.single o 1))
          (modify fun w : World => { w with objects := w.objects ++ [o] }) := by
        refine fun w => ⟨fun x => ?_, List.prefix_refl _, rfl, id⟩
        show w.own x - counted (w.objects ++ [o]) x - counted (w.faults.map Fault.object) x = _
        rw [counted_append, counted_cons]
        unfold World.debt
        simp only [Pi.add_apply, Pi.neg_apply, show counted [] x = 0 from rfl]
        omega
      intro w
      have h := (hlist w).trans (((modifyBo (o := o) (f := fun b => { b with execEntry := i })
        fun _ => rfl) _).trans (ih _))
      rwa [add_zero, add_zero] at h

theorem Even.applyRelocs (args : Execbuffer2) : Even (applyRelocs args) := by
  refine Frame.bind Frame.get fun w => Frame.bind (Frame.ite relocate Frame.pure) fun ret => ?_
  exact Frame.ite (Frame.bind (relocateSlow _ _) fun _ => Frame.pure) Frame.pure

theorem Even.prepareExec (drv : Driver) (args : Execbuffer2) (plan : ExecPlan) :
    Even (prepareExec drv args plan) := by
  refine Frame.bind (lookupObjects _) fun ret => Frame.ite Frame.pure ?_
  refine Frame.bind Frame.get fun w => ?_
  cases w.objects.getLast? with
  | none => exact Frame.pure
  | some batch =>
    refine Frame.bind reserve fun ret => Frame.ite Frame.pure ?_
    refine Frame.bind (applyRelocs args) fun ret => Frame.ite Frame.pure ?_
    refine Frame.bind (Level.prepareBatch args batch).even fun ret => Frame.ite Frame.pure ?_
    exact Frame.bind (Level.emitPreamble drv args plan).even fun ret =>
      Frame.ite Frame.pure Frame.pure

/-! ### The batch and the exits -/

theorem Level.refs {α : Type} {m : ExecM α} (h : Level m) : Frame World.SameRefs m := fun w =>
  ⟨fun o => by rw [(h w).own, Pi.zero_apply, Int.add_zero], (h w).objects, (h w).faults⟩

theorem dispatchExecbuffer_refs (drv : Driver) (b : Batch) :
    Frame World.SameRefs (dispatchExecbuffer drv b) := by
  refine Frame.ite Frame.pure (Frame.bind (Level.ringBegin _).refs fun ret => ?_)
  exact Frame.ite Frame.pure (Frame.bind (fun _ => ⟨fun _ => rfl, rfl, rfl⟩) fun _ => Frame.pure)

theorem emitBox_level (args : Execbuffer2) (box : ClipRect) : Level (emitBox args box) :=
  Frame.ite Frame.pure (Frame.bind Frame.get fun _ => Level.ringEmit _ _)

theorem dispatchBox_refs (drv : Driver) (args : Execbuffer2) (b : Batch) (box : ClipRect) :
    Frame World.SameRefs (dispatchBox drv args b box) :=
  Frame.bind (emitBox_level args box).refs fun _ =>
    Frame.ite Frame.pure (dispatchExecbuffer_refs drv b)

theorem dispatchAll_refs (drv : Driver) (args : Execbuffer2) (b : Batch) (boxes : List ClipRect) :
    Frame World.SameRefs (dispatchAll drv args b boxes) := by
  have hboxes : Frame World.SameRefs (dispatchBoxes drv args b boxes) := by
    induction boxes with
    | nil => exact Frame.pure
    | cons box rest ih =>
      exact Frame.bind (dispatchBox_refs drv args b box) fun ret => Frame.ite Frame.pure ih
  exact Frame.ite (dispatchExecbuffer_refs drv b) hboxes

theorem Bo.submit_eq (b : Bo) (r : RingId) (seqno : Seqno) :
    (b.submit r seqno).active = true ∧ (b.submit r seqno).ring = some r ∧
      (b.submit r seqno).lastReadSeqno = seqno ∧
      (b.submit r seqno).refcount = if b.active then b.refcount else b.refcount + 1 := by
  have hmoved : ∀ c : Bo, c.active = b.active → c.refcount = b.refcount →
      (c.moveToActive r seqno).active = true ∧ (c.moveToActive r seqno).ring = some r ∧
        (c.moveToActive r seqno).lastReadSeqno = seqno ∧
        (c.moveToActive r seqno).refcount = if b.active then b.refcount else b.refcount + 1 :=
    fun c hactive hrefs => ⟨rfl, rfl, rfl, by rw [← hactive, ← hrefs]; rfl⟩
  unfold Bo.submit
  extract_lets read c
  split
  · exact hmoved _ rfl rfl
  · exact hmoved _ rfl rfl

theorem Bo.held_submit (b : Bo) (r : RingId) (seqno : Seqno) : (b.submit r seqno).held = b.held := by
  obtain ⟨hactive, -, -, hrefs⟩ := b.submit_eq r seqno
  unfold Bo.held
  rw [hactive, hrefs]
  cases b.active <;> simp

theorem moveToActive_level (r : RingId) : Level (moveToActive r) :=
  Frame.bind Frame.get fun _ => Frame.forM fun _ _ => Level.modifyBo fun b => b.held_submit r _

theorem retireCommands_level (r : RingId) : Level (retireCommands r) :=
  Frame.bind (fun _ => .setRing_same rfl rfl) fun _ => Level.addRequest r

/-- The list and the log account for what the call takes. -/
structure World.Accounted (w w' : World) : Prop where
  debt : ∀ o, w'.debt o = w.debt o
  log : w.faults <+: w'.faults

instance : IsPreorder World World.Accounted where
  refl _ := ⟨fun _ => rfl, List.prefix_refl _⟩
  trans _ _ _ h h' := ⟨fun o => (h'.debt o).trans (h.debt o), h.log.trans h'.log⟩

theorem Even.accounted {α : Type} {m : ExecM α} (h : Even m) : Frame World.Accounted m := fun w =>
  ⟨fun o => by rw [(h w).debt, Pi.zero_apply, Int.add_zero], (h w).log⟩

theorem World.SameRefs.accounted (h : w.SameRefs w') : w.Accounted w' where
  debt o := by
    unfold World.debt
    rw [h.own, h.objects, h.faults]
  log := h.faults ▸ List.prefix_refl _

theorem submitExec_accounted (drv : Driver) (args : Execbuffer2) (plan : ExecPlan)
    (boxes : List ClipRect) : Frame World.Accounted (submitExec drv args plan boxes) := by
  refine Frame.bind (Even.prepareExec drv args plan).accounted fun res => ?_
  cases res with
  | error ret => exact Frame.pure
  | ok batch =>
    refine Frame.bind Level.getBo.even.accounted fun b => ?_
    refine Frame.bind (fun v => (dispatchAll_refs drv args _ boxes v).accounted) fun ret => ?_
    refine Frame.ite Frame.pure (Frame.bind (moveToActive_level _).even.accounted fun _ => ?_)
    exact Frame.bind (retireCommands_level _).even.accounted fun _ => Frame.pure

/-! ### The whole call -/

/-- Nothing is taken yet. -/
structure World.Entered (w w' : World) : Prop where
  own : ∀ o, w'.own o = w.own o
  faults : w'.faults = w.faults
  dev : w'.dev = w.dev

theorem World.Entered.level {α : Type} {m : ExecM α} (hm : Level m) (h : w.Entered w') :
    w.Entered (m w').2 where
  own o := by rw [(hm w').own, h.own, Pi.zero_apply, Int.add_zero]
  faults := (hm w').faults.trans h.faults
  dev := (hm w').dev.trans h.dev

theorem copyCliprects_level (args : Execbuffer2) : Level (copyCliprects args) := by
  refine Frame.ite Frame.pure (Frame.bind Level.callOut fun e => Frame.ite Frame.pure ?_)
  exact Frame.bind Level.callOut fun e => Frame.ite Frame.pure Frame.pure

/-- The list is empty when the call begins to take references, and no batch is in a ring. -/
theorem enterExec_spec (drv : Driver) (args : Execbuffer2) (w : World) :
    w.Entered (enterExec drv args w).2 ∧ ∀ p, (enterExec drv args w).1 = .ok p →
      (enterExec drv args w).2.objects = [] ∧ (enterExec drv args w).2.Fresh := by
  have h : Triple (fun v => w.Entered v) (enterExec drv args) fun res v =>
      w.Entered v ∧ ∀ p, res = .ok p → v.objects = [] ∧ v.Fresh := by
    refine triple_get fun u hu => Triple.pre (P := fun v => w.Entered v) ?_ fun v hv => hv ▸ hu
    cases planExec u.dev drv args u.exec with
    | error ret => exact Triple.pure fun v hv => ⟨hv, fun p hp => nomatch hp⟩
    | ok plan =>
      refine Triple.bind (Q := fun _ v => w.Entered v)
        (fun v hv => hv.level (copyCliprects_level args)) fun res => ?_
      cases res with
      | error ret => exact Triple.pure fun v hv => ⟨hv, fun p hp => nomatch hp⟩
      | ok boxes =>
        have hcall : Triple (fun v => w.Entered v ∧ v.Fresh) callOut fun _ v =>
            w.Entered v ∧ v.Fresh :=
          fun v hv => ⟨hv.1.level Level.callOut, (Level.callOut v).fresh hv.2⟩
        refine Triple.bind (Q := fun _ v => w.Entered v ∧ v.Fresh) (fun v hv => ?_) fun ret => ?_
        · exact ⟨hv.level (Frame.bind Level.callOut fun _ => Frame.bind (fun _ => .relock _ _)
            fun _ => Frame.pure), World.fresh_relock _ _⟩
        refine Triple.ite (fun _ => Triple.pure fun v hv => ⟨hv.1, fun p hp => nomatch hp⟩) fun _ => ?_
        refine Triple.bind hcall fun e => Triple.ite
          (fun _ => Triple.pure fun v hv => ⟨hv.1, fun p hp => nomatch hp⟩) fun _ => ?_
        refine Triple.bind hcall fun e => Triple.ite
          (fun _ => Triple.pure fun v hv => ⟨hv.1, fun p hp => nomatch hp⟩) fun _ => ?_
        exact fun v hv => ⟨⟨hv.1.own, hv.1.faults, hv.1.dev⟩, fun p _ => ⟨rfl, hv.2⟩⟩
  exact h w ⟨fun _ => rfl, rfl, rfl⟩

/-- On return a reference is missing for each entry of the log, and no other. -/
theorem doExecbuffer_own (drv : Driver) (args : Execbuffer2) (w : World) :
    ∃ log, (doExecbuffer drv args w).2.faults = w.faults ++ log ∧
      ∀ o, (doExecbuffer drv args w).2.own o = w.own o + counted (log.map Fault.object) o := by
  obtain ⟨henter, hok⟩ := enterExec_spec drv args w
  cases hres : (enterExec drv args w).1 with
  | error ret =>
    have hrun : doExecbuffer drv args w = (ret, (enterExec drv args w).2) := by
      unfold doExecbuffer
      rw [run_bind, hres]
      rfl
    rw [hrun]
    exact ⟨[], by rw [henter.faults, List.append_nil],
      fun o => (henter.own o).trans (Int.add_zero _).symm⟩
  | ok p =>
    obtain ⟨plan, boxes⟩ := p
    obtain ⟨hempty, -⟩ := hok _ hres
    set v := (enterExec drv args w).2
    set u := (releaseObjects (submitExec drv args plan boxes v).2).2 with hu
    have hrun : (doExecbuffer drv args w).2 = u := by
      unfold doExecbuffer
      rw [run_bind, hres]
      rfl
    have hsame : v.Accounted u := trans_of World.Accounted
      (submitExec_accounted drv args plan boxes v) (Even.releaseObjects.accounted _)
    obtain ⟨log, hlog⟩ := hsame.log
    refine ⟨log, by rw [hrun, ← hlog, henter.faults], fun o => ?_⟩
    have hdebt := hsame.debt o
    unfold World.debt at hdebt
    rw [show u.objects = [] from rfl, hempty, ← hlog, List.map_append, counted_append, Pi.add_apply,
      henter.own] at hdebt
    rw [hrun]
    omega

/-- i915_gem_do_execbuffer drops every reference it takes unless a lookup finds an object that is
on a list already, or the domain change or the fence release of a relocation fails. -/
theorem doExecbuffer_balanced_iff (drv : Driver) (args : Execbuffer2) (w : World) :
    (∀ o, (doExecbuffer drv args w).2.own o = w.own o) ↔
      (doExecbuffer drv args w).2.faults = w.faults := by
  obtain ⟨log, hlog, hown⟩ := doExecbuffer_own drv args w
  constructor
  · intro h
    cases log with
    | nil => rw [hlog, List.append_nil]
    | cons f log =>
      have hf := (hown f.object).symm.trans (h f.object)
      have hone : counted ((f :: log).map Fault.object) f.object =
          1 + counted (log.map Fault.object) f.object := by
        rw [List.map_cons, counted_cons, Pi.add_apply, Pi.single_eq_same]
      have hpos : 0 ≤ counted (log.map Fault.object) f.object := Int.natCast_nonneg _
      omega
  · intro h o
    have hnil : log = [] := by
      have hlen := congrArg List.length (hlog.symm.trans h)
      rw [List.length_append] at hlen
      exact List.length_eq_zero_iff.mp (by omega)
    rw [hown, hnil]
    exact Int.add_zero _

end

/-- A driver without semaphores and contexts. -/
def plainDriver : Driver where
  isMaster := false
  ringInitialized _ := true
  semaphores := false
  constantsMode := 0
  constantsModeLocked := 0
  i830 := none
  itlbBeforeCtxSwitch := false
  context := .ok none
  synced _ := false

/-- A batch for the render ring, without relocations. -/
def plainBatch (bufferCount : BitVec 32) (boxes : List ClipRect) : Execbuffer2 where
  bufferCount := bufferCount
  batchStartOffset := 0
  batchLen := 8
  dr1 := 0
  dr4 := 0
  numCliprects := BitVec.ofNat 32 boxes.length
  cliprects n := boxes.getD n ⟨0, 0, 0, 0⟩
  flags := execNoReloc
  contextId := 0

/-- Every handle names the one object, and nothing fails. -/
def oneObject : World :=
  { unmappedUser with coming := fun _ =>
      { Event.calm unmappedUser.toShared with lookup := some 0 } }

/-- The reference to an object listed twice stays. -/
theorem doExecbuffer_leaks_repeated :
    ¬ ∀ (drv : Driver) (args : Execbuffer2) (w : World) (o : ObjId),
      (doExecbuffer drv args w).2.own o = w.own o := by
  intro h
  have hown := h plainDriver (plainBatch 2 []) oneObject 0
  exact absurd hown (by decide +kernel)

end GfxDrm.I915
