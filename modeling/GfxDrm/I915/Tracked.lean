import GfxDrm.I915.Dispatch

/-! The objects of an execbuffer call stay on the active list while its batches may run. -/

namespace GfxDrm.I915

open Hoare Errno

/-- Each batch that the GPU has been told of keeps the objects of the list: they are on the active
list of the ring, and the seqno they wait for is that of the request the batch belongs to, whose
seqno store is not written yet or stands behind the batch. -/
def World.Tracks (w : World) (r : RingId) (l : List ObjId) : Prop :=
  ∀ i start len flags request, i < (w.ring r).visible →
    (w.ring r).trace[i]? = some (.batch start len flags request) → ∀ o ∈ l,
      (w.bo o).active = true ∧ (w.bo o).ring = some r ∧ (w.bo o).lastReadSeqno = request ∧
        ((w.ring r).outstandingLazyRequest = request ∨
          .breadcrumb request ∈ (w.ring r).trace.drop (i + 1))

/-- What is to hold when the mutex is dropped at the end of a call that has begun to look its
objects up. -/
def BatchesTracked (drv : Driver) (args : Execbuffer2) (w : World) : Prop :=
  ∀ plan boxes v, enterExec drv args w = (.ok (plan, boxes), v) →
    (doExecbuffer drv args w).2.Tracks plan.ring (submitExec drv args plan boxes v).2.objects

/-- A batch has been dispatched for the boxes `done` and the ring is not stopped, the box or the
dispatch after them fails, and an object of the list is not on the active list for the
outstanding request. -/
def StopsShort (drv : Driver) (args : Execbuffer2) (w : World) : Prop :=
  ∃ plan boxes v batch u done box rest,
    enterExec drv args w = (.ok (plan, boxes), v) ∧
    prepareExec drv args plan v = (.ok batch, u) ∧
    boxes = done ++ box :: rest ∧ done ≠ [] ∧
    let x := dispatchBoxes drv args (args.batch plan (u.bo batch)) done u
    x.1 = 0 ∧ (dispatchBox drv args (args.batch plan (u.bo batch)) box x.2).1 ≠ 0 ∧
    x.2.dev.stopRings plan.ring = false ∧ ∃ o ∈ x.2.objects, ¬ x.2.Outstanding plan.ring o

section

variable {w w' : World} {r : RingId} {l : List ObjId} {drv : Driver} {args : Execbuffer2}

/-! ### After the dispatch -/

/-- The batches and the objects of the list all belong to the outstanding request. -/
structure World.Kept (r : RingId) (l : List ObjId) (w : World) : Prop extends World.Sent r w where
  request_ne : (w.ring r).outstandingLazyRequest ≠ 0
  outstanding : ∀ o ∈ l, w.Outstanding r o

namespace World

theorem Kept.quiets (h : w.Kept r l) (hq : Quiets r w w') : w'.Kept r l where
  toSent := h.toSent.quiets hq
  request_ne := by
    rw [(hq.request h.request_ne).1]
    exact h.request_ne
  outstanding o ho := ((hq.request h.request_ne).2 o).mpr (h.outstanding o ho)

theorem Sent.mem_of_get {i : ℕ} {start len : BitVec 32} {flags : ℕ} {q : Seqno} (h : w.Sent r)
    (hget : (w.ring r).trace[i]? = some (.batch start len flags q)) :
    q = (w.ring r).outstandingLazyRequest ∧ q ≠ 0 :=
  h.request start len flags q (List.mem_of_getElem? hget)

theorem Sent.tracks (h : w.Sent r) (hout : ∀ o ∈ l, w.Outstanding r o) : w.Tracks r l := by
  intro i start len flags q _ hget o ho
  obtain ⟨hactive, hring, hseqno⟩ := hout o ho
  have hq := (h.mem_of_get hget).1
  exact ⟨hactive, hring, hseqno.trans hq.symm, .inl hq.symm⟩

/-- The seqno store goes behind the batches. -/
theorem Kept.emitBreadcrumb (h : w.Kept r l) : (w.emitBreadcrumb r).Tracks r l := by
  have hring : (w.emitBreadcrumb r).ring r = { (w.emit r
      [.breadcrumb (w.ring r).outstandingLazyRequest]).ring r with outstandingLazyRequest := 0 } :=
    setRing_self ..
  intro i start len flags q _ hget o ho
  rw [hring, emit_ring] at hget
  have hlt : i < (w.ring r).trace.length := by
    by_contra hge
    rw [List.getElem?_append_right (Nat.not_lt.mp hge)] at hget
    have hmem := List.mem_singleton.mp (List.mem_of_getElem? hget)
    exact nomatch hmem
  rw [List.getElem?_append_left hlt] at hget
  obtain ⟨hactive, hown, hseqno⟩ := h.outstanding o ho
  have hq := (h.mem_of_get hget).1
  refine ⟨hactive, hown, hseqno.trans hq.symm, .inr ?_⟩
  rw [hring, emit_ring, hq]
  rw [List.drop_append_of_le_length hlt]
  exact List.mem_append_right _ (List.mem_singleton.mpr rfl)

end World

/-- i915_gem_execbuffer_move_to_active marks the whole list. -/
theorem moveToActive_outstanding (r : RingId) (w : World) :
    (moveToActive r w).2.ring = w.ring ∧ (moveToActive r w).2.dev = w.dev ∧
      ∀ o ∈ w.objects, (moveToActive r w).2.Outstanding r o := by
  -- the objects marked so far stay marked when one more is
  have hrun : ∀ (l : List ObjId) (v : World), v.ring = w.ring → v.dev = w.dev →
      let v' := (l.forM fun o => modifyBo o fun b =>
        b.submit r (w.ring r).outstandingLazyRequest : ExecM PUnit) v
      v'.2.ring = w.ring ∧ v'.2.dev = w.dev ∧
        ∀ o, o ∈ l ∨ v.Outstanding r o → v'.2.Outstanding r o := by
    intro l
    induction l with
    | nil => exact fun v hring hdev => ⟨hring, hdev, fun o ho => ho.resolve_left List.not_mem_nil⟩
    | cons o l ih =>
      intro v hring hdev
      obtain ⟨hring', hdev', hout⟩ := ih
        (v.setBo o ((v.bo o).submit r (w.ring r).outstandingLazyRequest)) hring hdev
      refine ⟨hring', hdev', fun x hx => hout x ?_⟩
      obtain ⟨hactive, hown, hseqno, -⟩ := (v.bo o).submit_eq r (w.ring r).outstandingLazyRequest
      by_cases hxo : x = o
      · subst hxo
        refine .inr ?_
        unfold World.Outstanding
        rw [World.setBo_self]
        exact ⟨hactive, hown, hseqno.trans (by rw [← hring]; rfl)⟩
      · refine hx.imp (fun h => (List.mem_cons.mp h).resolve_left hxo) fun h => ?_
        unfold World.Outstanding
        rw [World.setBo_of_ne _ _ _ _ hxo]
        exact h
  obtain ⟨hring, hdev, hout⟩ := hrun w.objects w rfl rfl
  exact ⟨hring, hdev, fun o ho => hout o (.inl ho)⟩

/-- i915_gem_execbuffer_retire_commands keeps what is marked, whether it can add the request or
not. -/
theorem retireCommands_tracks (h : w.Kept r l) : (retireCommands r w).2.Tracks r l := by
  have hdone : ∀ v : World, v.Kept r l → v.Tracks r l := fun v hv =>
    hv.toSent.tracks hv.outstanding
  have hstart := h.quiets (World.Quiets.setDirty w r true)
  show (addRequest r (w.setRing r { w.ring r with gpuCachesDirty := true })).2.Tracks r l
  generalize w.setRing r { w.ring r with gpuCachesDirty := true } = v at hstart
  have hflush : Frame (World.Quiets r) (flushAllCaches r) :=
    Frame.bind Frame.get fun _ => Frame.ite (ringFlush_quiets r) Frame.pure
  unfold addRequest
  rw [run_bind]
  have hflushed := hstart.quiets (hflush v)
  split
  · exact hdone _ hflushed
  rw [run_bind]
  have hcalled := hflushed.quiets (callOut_quiets r _)
  split
  · exact hdone _ hcalled
  rw [run_bind]
  have hbegun := hcalled.quiets (ringBegin_quiets r _)
  split
  · exact hdone _ hbegun
  · exact hbegun.emitBreadcrumb

/-- The references given back at the end do not matter to the active lists. -/
theorem releaseObjects_tracks (w : World) (r : RingId) (l : List ObjId) :
    (releaseObjects w).2.Tracks r l ↔ w.Tracks r l := by
  have hrun : ∀ (l' : List ObjId) (v : World), v.ring = w.ring →
      (∀ o, (v.bo o).active = (w.bo o).active ∧ (v.bo o).ring = (w.bo o).ring ∧
        (v.bo o).lastReadSeqno = (w.bo o).lastReadSeqno) →
      (l'.forM unreference v).2.ring = w.ring ∧
        ∀ o, ((l'.forM unreference v).2.bo o).active = (w.bo o).active ∧
          ((l'.forM unreference v).2.bo o).ring = (w.bo o).ring ∧
          ((l'.forM unreference v).2.bo o).lastReadSeqno = (w.bo o).lastReadSeqno := by
    intro l'
    induction l' with
    | nil => exact fun v hring hbo => ⟨hring, hbo⟩
    | cons x l' ih =>
      intro v hring hbo
      refine ih (v.setBo x { v.bo x with refcount := (v.bo x).refcount - 1 }) hring fun o => ?_
      rw [World.setBo_bo]
      split
      · subst o
        exact hbo x
      · exact hbo o
  obtain ⟨hring, hbo⟩ := hrun w.objects w rfl fun _ => ⟨rfl, rfl, rfl⟩
  have hrel : (releaseObjects w).2.ring = w.ring := hring
  unfold World.Tracks
  rw [hrel]
  refine forall_congr' fun i => forall_congr' fun start => forall_congr' fun len =>
    forall_congr' fun flags => forall_congr' fun q => imp_congr_right fun _ =>
    imp_congr_right fun _ => forall_congr' fun o => imp_congr_right fun _ => ?_
  obtain ⟨hactive, hown, hseqno⟩ := hbo o
  rw [show (releaseObjects w).2.bo o = (w.objects.forM unreference w).2.bo o from rfl, hactive,
    hown, hseqno]

/-! ### Before the dispatch -/

theorem World.Fresh.tracks (h : w.Fresh) : w.Tracks r l :=
  fun _ _ _ _ _ _ hget => absurd (List.mem_of_getElem? hget) h.not_batch

/-- No batch is written by a dispatch that fails as the first. -/
theorem World.Fresh.tracks_quiets (h : w.Fresh) (hq : World.Quiets r w w') : w'.Tracks r l :=
  fun _ _ _ _ _ _ hget => absurd (hq.mem (List.mem_of_getElem? hget) rfl) h.not_batch

/-- Clip rectangles are for the render ring. -/
theorem planExec_ring {dev : Dev} {exec : ℕ → ExecObject2} {plan : ExecPlan}
    (h : planExec dev drv args exec = .ok plan) (hne : args.numCliprects ≠ 0) :
    plan.ring = rcs := by
  unfold planExec at h
  simp only [bind, Except.bind, throw, throwThe, MonadExceptOf.throw] at h
  -- every other check ends the call
  repeat' split at h
  all_goals cases h
  exact not_not.mp ‹_›

theorem copyCliprects_ok {boxes : List ClipRect} (h : (copyCliprects args w).1 = .ok boxes)
    (hne : boxes ≠ []) : args.numCliprects ≠ 0 := by
  intro hz
  unfold copyCliprects at h
  rw [if_pos hz] at h
  exact hne (Except.ok.inj h).symm

theorem enterExec_ring {plan : ExecPlan} {boxes : List ClipRect} {v : World}
    (h : enterExec drv args w = (.ok (plan, boxes), v)) (hne : boxes ≠ []) : plan.ring = rcs := by
  have hspec : Triple (fun _ => True) (enterExec drv args) fun res _ =>
      ∀ plan boxes, res = .ok (plan, boxes) → boxes ≠ [] → plan.ring = rcs := by
    have hfail : ∀ (ret : ℤ) (P : World → Prop), Triple P
        (pure (.error ret) : ExecM (Except ℤ (ExecPlan × List ClipRect))) fun res _ =>
        ∀ plan boxes, res = .ok (plan, boxes) → boxes ≠ [] → plan.ring = rcs :=
      fun ret P => Triple.pure fun _ _ plan boxes hp => nomatch hp
    refine triple_get fun u _ => ?_
    cases hplan : planExec u.dev drv args u.exec with
    | error ret => exact hfail ret _
    | ok plan =>
      refine Triple.bind (Q := fun res _ => ∀ boxes, res = .ok boxes → boxes ≠ [] →
        args.numCliprects ≠ 0) (fun v _ boxes hres hb => copyCliprects_ok hres hb) fun res => ?_
      cases res with
      | error ret => exact hfail ret _
      | ok boxes =>
        have hok : (boxes ≠ [] → args.numCliprects ≠ 0) → ∀ plan' boxes',
            (.ok (plan, boxes) : Except ℤ _) = .ok (plan', boxes') → boxes' ≠ [] →
            plan'.ring = rcs := by
          intro hcl plan' boxes' heq hb
          cases heq
          exact planExec_ring hplan (hcl hb)
        let P : World → Prop := fun _ => boxes ≠ [] → args.numCliprects ≠ 0
        refine Triple.pre (P := P) ?_ fun v hv hb => hv boxes rfl hb
        refine Triple.bind (Q := fun _ => P) (fun v hv => hv) fun ret => ?_
        refine Triple.ite (fun _ => hfail _ _) fun _ => ?_
        refine Triple.bind (Q := fun _ => P) (fun v hv => hv) fun e => ?_
        refine Triple.ite (fun _ => hfail _ _) fun _ => ?_
        refine Triple.bind (Q := fun _ => P) (fun v hv => hv) fun e => ?_
        exact Triple.ite (fun _ => hfail _ _) fun _ v hv => hok hv
  have hv := hspec w trivial plan boxes
  rw [h] at hv
  exact hv rfl hne

/-! ### The call -/

variable {plan : ExecPlan} {boxes : List ClipRect} {u v : World} {batch : ObjId}

theorem run_submitExec_error {ret : ℤ} (h : prepareExec drv args plan v = (.error ret, u)) :
    submitExec drv args plan boxes v = (ret, u) := by
  unfold submitExec
  rw [run_bind, h]
  rfl

/-- A call that has come to its batch. -/
theorem run_submitExec_ok (boxes : List ClipRect)
    (h : prepareExec drv args plan v = (.ok batch, u)) :
    let d := dispatchAll drv args (args.batch plan (u.bo batch)) boxes u
    (submitExec drv args plan boxes v).2 =
      if d.1 ≠ 0 then d.2 else (retireCommands plan.ring (moveToActive plan.ring d.2).2).2 := by
  intro d
  unfold submitExec
  rw [run_bind, h]
  show ((if d.1 ≠ 0 then _ else _ : ExecM ℤ) d.2).2 = _
  split <;> rfl

/-- After a dispatch that succeeds the objects are kept. -/
theorem submitted_tracks (h : w.Submitted r) :
    (retireCommands r (moveToActive r w).2).2.Tracks r
      (retireCommands r (moveToActive r w).2).2.objects := by
  obtain ⟨hring, hdev, hout⟩ := moveToActive_outstanding r w
  have hobj : (retireCommands r (moveToActive r w).2).2.objects = w.objects :=
    ((retireCommands_level r _).objects).trans (moveToActive_level r w).objects
  rw [hobj]
  refine retireCommands_tracks ⟨⟨?_, ?_⟩, ?_, hout⟩
  · rw [hring]
    exact h.toSent.request
  · rw [hring, hdev]
    exact h.told
  · rw [hring]
    exact h.request_ne

theorem dispatchAll_submitted (hfresh : u.Fresh) (b : Batch) (hring : boxes ≠ [] → b.ring = rcs)
    (hret : (dispatchAll drv args b boxes u).1 = 0) :
    (dispatchAll drv args b boxes u).2.Submitted b.ring := by
  unfold dispatchAll at hret ⊢
  split at hret
  · rename_i hnone
    rw [if_pos hnone]
    exact (dispatchExecbuffer_spec drv b u).2 hret (hfresh.sent _)
  · rename_i hne
    rw [if_neg hne]
    exact dispatchBoxes_submitted (hring hne) boxes (hfresh.sent _) (.inl hne) hret

/-- Where the loop stops short of its end: at the first box nothing is written; at a later one
the objects have to be on the list already. -/
theorem stopped_tracks_iff (b : Batch) (hring : b.ring = rcs) {x : World} {box : ClipRect}
    (hx : x.Submitted b.ring) (hfail : (dispatchBox drv args b box x).1 ≠ 0) :
    (dispatchBox drv args b box x).2.Tracks b.ring (dispatchBox drv args b box x).2.objects ↔
      (x.dev.stopRings b.ring = false → ∀ o ∈ x.objects, x.Outstanding b.ring o) := by
  have hq := (dispatchBox_spec hring drv args box x).1 hfail
  have hy := hx.quiets hq
  rw [(dispatchBox_refs drv args b box x).objects]
  have hout : ∀ o, (dispatchBox drv args b box x).2.Outstanding b.ring o ↔ x.Outstanding b.ring o :=
    (hq.request hx.request_ne).2
  constructor
  · intro h hstop o ho
    obtain ⟨i, start, len, flags, hi, hget⟩ := hy.batch (by rwa [hq.dev])
    obtain ⟨hactive, hown, hseqno, -⟩ := h i start len flags _ hi hget o ho
    exact (hout o).mp ⟨hactive, hown, hseqno⟩
  · intro h
    cases hstop : x.dev.stopRings b.ring with
    | false => exact hy.toSent.tracks fun o ho => (hout o).mpr (h hstop o ho)
    | true =>
      intro i start len flags q hi
      rw [hy.told.stopped (by rw [hq.dev, hstop])] at hi
      exact absurd hi (Nat.not_lt_zero i)

/-- The run of a loop that fails, up to the box at which it does. -/
theorem run_failing (b : Batch) {done rest : List ClipRect} {box : ClipRect}
    (hdone : (dispatchBoxes drv args b done u).1 = 0)
    (hfail : (dispatchBox drv args b box (dispatchBoxes drv args b done u).2).1 ≠ 0) :
    dispatchAll drv args b (done ++ box :: rest) u =
      dispatchBox drv args b box (dispatchBoxes drv args b done u).2 := by
  unfold dispatchAll
  rw [if_neg (by simp), dispatchBoxes_append b done _ u hdone, run_dispatchBoxes_cons,
    if_pos hfail]

theorem submitExec_fresh (h : enterExec drv args w = (.ok (plan, boxes), v)) :
    (prepareExec drv args plan v).2.Fresh := by
  have hv := (enterExec_spec drv args w).2 (plan, boxes) (by rw [h])
  rw [h] at hv
  exact (Even.prepareExec drv args plan v).fresh hv.2

theorem doExecbuffer_run (h : enterExec drv args w = (.ok (plan, boxes), v)) :
    (doExecbuffer drv args w).2 = (releaseObjects (submitExec drv args plan boxes v).2).2 := by
  unfold doExecbuffer
  rw [run_bind, h]
  rfl

/-- i915_gem_do_execbuffer leaves no batch behind that may run while an object of its list is not
held for it, unless it fails between two clip rectangles. -/
theorem batchesTracked_iff (drv : Driver) (args : Execbuffer2) (w : World) :
    BatchesTracked drv args w ↔ ¬ StopsShort drv args w := by
  constructor
  · rintro h ⟨plan, boxes, v, batch, u, done, box, rest, henter, hprep, rfl, hne, hdone, hfail,
      hstop, o, ho, hout⟩
    have hring : plan.ring = rcs := enterExec_ring henter (by simp)
    have hfresh : u.Fresh := by
      have hf := submitExec_fresh henter
      rwa [hprep] at hf
    have hx : (dispatchBoxes drv args (args.batch plan (u.bo batch)) done u).2.Submitted plan.ring :=
      dispatchBoxes_submitted hring done (hfresh.sent _) (.inl hne) hdone
    have htracks := h plan _ v henter
    rw [doExecbuffer_run henter, releaseObjects_tracks, run_submitExec_ok _ hprep,
      run_failing _ hdone hfail, if_pos hfail] at htracks
    exact hout ((stopped_tracks_iff _ hring hx hfail).mp htracks hstop o ho)
  · intro h plan boxes v henter
    have hfresh := submitExec_fresh henter
    rw [doExecbuffer_run henter, releaseObjects_tracks]
    cases hprep : prepareExec drv args plan v with
    | mk res u =>
    rw [hprep] at hfresh
    cases res with
    | error ret =>
      rw [run_submitExec_error hprep]
      exact hfresh.tracks
    | ok batch =>
      have hrun := run_submitExec_ok boxes hprep
      generalize hb : args.batch plan (u.bo batch) = b at hrun
      have hbring : plan.ring = b.ring := by
        rw [← hb]
        rfl
      rw [hrun, hbring]
      split
      · rename_i hret
        by_cases hboxes : boxes = []
        · subst hboxes
          exact hfresh.tracks_quiets ((dispatchExecbuffer_spec drv b u).1 hret)
        have hring : b.ring = rcs := hbring ▸ enterExec_ring henter hboxes
        have hloop : (dispatchBoxes drv args b boxes u).1 ≠ 0 := by
          unfold dispatchAll at hret
          rwa [if_neg hboxes] at hret
        obtain ⟨done, box, rest, rfl, hdone, hfail⟩ := exists_failing b boxes u hloop
        rw [run_failing b hdone hfail]
        by_cases hne : done = []
        · subst hne
          exact hfresh.tracks_quiets ((dispatchBox_spec hring drv args box u).1 hfail)
        have hx := dispatchBoxes_submitted hring done (hfresh.sent _) (.inl hne) hdone
        refine (stopped_tracks_iff b hring hx hfail).mpr fun hstop o ho => ?_
        by_contra hout
        refine h ⟨plan, _, v, batch, u, done, box, rest, henter, hprep, rfl, hne, ?_⟩
        rw [hb, hbring]
        exact ⟨hdone, hfail, hstop, o, ho, hout⟩
      · rename_i hret
        refine submitted_tracks (dispatchAll_submitted hfresh b (fun hne => ?_) (not_not.mp hret))
        exact hbring ▸ enterExec_ring henter hne

end

/-- A batch for two clip rectangles, of which the second is bad. -/
def badBox : Execbuffer2 := plainBatch 1 [⟨0, 0, 1, 1⟩, ⟨0, 0, 0, 0⟩]

/-- The batch of the first box may run, and its object is inactive. -/
theorem doExecbuffer_bad_box :
    ¬ ∀ (drv : Driver) (args : Execbuffer2) (w : World), BatchesTracked drv args w := by
  intro h
  have hplan : (enterExec plainDriver badBox oneObject).1 = .ok
      ({ ring := rcs, mode := 0, mask := constantsMask }, [⟨0, 0, 1, 1⟩, ⟨0, 0, 0, 0⟩]) := by
    decide +kernel
  have htracks := h plainDriver badBox oneObject _ _ _ (Prod.ext hplan rfl)
  have hactive := htracks 5 0 8 0 1 (by decide +kernel) (by decide +kernel) 0 (by decide +kernel)
  exact absurd hactive.1 (by decide +kernel)

end GfxDrm.I915
