import GfxDrm.I915.ExecBalanced

/-! What the batches of an execbuffer call leave in the ring. -/

namespace GfxDrm.I915

open Hoare Errno

/-! ### Objects that a request is to keep -/

/-- The object is on the active list of the ring for the request that is outstanding. -/
def World.Outstanding (w : World) (r : RingId) (o : ObjId) : Prop :=
  (w.bo o).active = true ∧ (w.bo o).ring = some r ∧
    (w.bo o).lastReadSeqno = (w.ring r).outstandingLazyRequest

/-- The ring is as it was, and the outstanding request keeps the objects it kept. -/
structure World.Still (r : RingId) (w w' : World) : Prop where
  ring : w'.ring r = w.ring r
  dev : w'.dev = w.dev
  outstanding : ∀ o, w'.Outstanding r o ↔ w.Outstanding r o

section

variable {w w' w'' : World} {o : ObjId} {r : RingId} {drv : Driver} {args : Execbuffer2}
  {b : Batch}

namespace World

instance : IsPreorder World (Still r) where
  refl _ := ⟨rfl, rfl, fun _ => Iff.rfl⟩
  trans _ _ _ h h' := ⟨h'.ring.trans h.ring, h'.dev.trans h.dev,
    fun o => (h'.outstanding o).trans (h.outstanding o)⟩

theorem setBo_bo (w : World) (o x : ObjId) (b : Bo) :
    (w.setBo o b).bo x = if x = o then b else w.bo x := Function.update_apply ..

theorem setRing_self (w : World) (r : RingId) (ring : Ring) : (w.setRing r ring).ring r = ring :=
  Function.update_self ..

/-- A request that is only outstanding is not found complete. -/
theorem Still.retire (w : World) (o : ObjId) : w.Still r (w.retire o) := by
  unfold World.retire
  split
  · rename_i h
    refine ⟨rfl, rfl, fun x => ?_⟩
    unfold Outstanding
    rw [setBo_bo]
    by_cases hx : x = o
    · subst hx
      rw [if_pos rfl]
      refine ⟨fun hx => absurd hx.1 Bool.false_ne_true, fun hx => ?_⟩
      unfold retirable at h
      rw [hx.2.1, hx.2.2] at h
      simp at h
    · rw [if_neg hx]
      rfl
  · exact refl_of (Still r) w

theorem Still.pass (w : World) : w.Still r w.pass := by
  have h : w.Still r ({ w with coming := fun n => w.coming (n + 1) }.addForeign
      (w.coming 0).foreign) := ⟨rfl, rfl, fun _ => Iff.rfl⟩
  exact trans_of (Still r) h (Frame.foldl (Still r) Still.retire _ _)

/-- A ring without a lazy request is left alone when the others' are added. -/
theorem addLazyRequest_ring (h : (w.ring r).outstandingLazyRequest = 0) (x : RingId) :
    (w.addLazyRequest x).ring r = w.ring r := by
  unfold addLazyRequest
  dsimp only
  split
  · rfl
  · rename_i hx
    have hne : r ≠ x := fun heq => hx (heq ▸ h)
    exact Function.update_of_ne hne ..

theorem addLazyRequests_ring (l : List RingId) (h : (w.ring r).outstandingLazyRequest = 0) :
    (l.foldl addLazyRequest w).ring r = w.ring r := by
  induction l generalizing w with
  | nil => rfl
  | cons x l ih =>
    have hx := addLazyRequest_ring h x
    exact (ih (by rw [hx, h])).trans hx

end World

theorem callOut_still : Frame (World.Still r) callOut := World.Still.pass

/-! ### The space for commands -/

/-- What intel_ring_begin does to the ring: there is a request when it succeeds, and one that
there is already stays. -/
structure World.Begun (r : RingId) (ret : ℤ) (w w' : World) : Prop where
  trace : (w'.ring r).trace = (w.ring r).trace
  visible : (w'.ring r).visible = (w.ring r).visible
  dev : w'.dev = w.dev
  still : (w.ring r).outstandingLazyRequest ≠ 0 → w.Still r w'
  request : ret = 0 → (w'.ring r).outstandingLazyRequest ≠ 0

namespace World

theorem Still.begun {ret : ℤ} (h : w.Still r w')
    (hret : ret = 0 → (w.ring r).outstandingLazyRequest ≠ 0) : Begun r ret w w' where
  trace := by rw [h.ring]
  visible := by rw [h.ring]
  dev := h.dev
  still _ := h
  request hz := by
    rw [h.ring]
    exact hret hz

theorem Begun.after {ret : ℤ} (h : w.Still r w') (h' : Begun r ret w' w'') : Begun r ret w w'' where
  trace := by rw [h'.trace, h.ring]
  visible := by rw [h'.visible, h.ring]
  dev := h'.dev.trans h.dev
  still hne := trans_of (Still r) h (h'.still (by rwa [h.ring]))
  request := h'.request

theorem Begun.andThen {ret ret' : ℤ} (h : Begun r ret w w') (hret : ret = 0) (h' : w'.Still r w'') :
    Begun r ret' w w'' where
  trace := by rw [h'.ring, h.trace]
  visible := by rw [h'.ring, h.visible]
  dev := h'.dev.trans h.dev
  still hne := trans_of (Still r) (h.still hne) h'
  request _ := by
    rw [h'.ring]
    exact h.request hret

end World

theorem getSeqno_begun (w : World) (h : (w.ring r).outstandingLazyRequest = 0) :
    World.Begun r (getSeqno r w).1 w (getSeqno r w).2 := by
  have hwait : ((waitSeqno w).2.ring r) = w.ring r ∧ (waitSeqno w).2.dev = w.dev := by
    have hadd := World.addLazyRequests_ring (w.coming 0).added h
    have hpass := World.Still.pass (r := r) ((w.coming 0).added.foldl World.addLazyRequest w)
    refine ⟨hpass.ring.trans hadd, hpass.dev.trans ?_⟩
    exact (World.Borrows.foldl World.Borrows.addLazyRequest _ w).dev
  have htake : ∀ v : World, v.ring r = w.ring r → v.dev = w.dev →
      World.Begun r 0 w (v.takeSeqno r) := by
    intro v hv hdev
    have hring : (v.takeSeqno r).ring r = { v.ring r with
        outstandingLazyRequest := if v.nextSeqno = 0 then 1 else v.nextSeqno } :=
      World.setRing_self v r _
    refine ⟨?_, ?_, hdev, fun hne => absurd h hne, fun _ => ?_⟩
    · rw [hring, ← hv]
    · rw [hring, ← hv]
    · rw [hring]
      dsimp only
      split
      · decide
      · assumption
  unfold getSeqno
  rw [run_get_bind, run_bind]
  by_cases hwrap : w.nextSeqno = 0
  · rw [if_pos hwrap]
    split
    · rename_i hret
      exact ⟨congrArg Ring.trace hwait.1, congrArg Ring.visible hwait.1, hwait.2,
        fun hne => absurd h hne, fun hz => absurd hz hret⟩
    · exact htake _ hwait.1 hwait.2
  · rw [if_neg hwrap]
    exact htake w rfl rfl

theorem ringBegin_begun (r : RingId) (w : World) :
    World.Begun r (ringBegin r w).1 w (ringBegin r w).2 := by
  have hcall := callOut_still (r := r)
  unfold ringBegin
  rw [run_bind]
  split
  · rename_i hret
    exact (hcall w).begun fun hz => absurd hz hret
  refine World.Begun.after (hcall w) ?_
  generalize (callOut w).2 = v
  have halloc : World.Begun r (allocSeqno r v).1 v (allocSeqno r v).2 := by
    unfold allocSeqno
    rw [run_get_bind]
    split
    · rename_i hne
      exact (refl_of (World.Still r) v).begun fun _ => hne
    · rename_i hz
      exact getSeqno_begun v (not_not.mp hz)
  rw [run_bind]
  split
  · exact halloc
  · rename_i hret
    exact halloc.andThen (not_not.mp hret) (hcall _)

/-! ### Batches in the ring -/

/-- Each batch in the ring belongs to the request that is outstanding. -/
structure World.Sent (r : RingId) (w : World) : Prop where
  request : ∀ start len flags q, .batch start len flags q ∈ (w.ring r).trace →
    q = (w.ring r).outstandingLazyRequest ∧ q ≠ 0
  told : (w.ring r).Told (w.dev.stopRings r)

namespace World

theorem Fresh.not_batch {start len : BitVec 32} {flags : ℕ} {q : Seqno} (h : w.Fresh) :
    .batch start len flags q ∉ (w.ring r).trace :=
  fun hc => Bool.false_ne_true ((h r).1 _ hc).symm

theorem Fresh.sent (h : w.Fresh) (r : RingId) : w.Sent r where
  request _ _ _ _ hc := absurd hc h.not_batch
  told := (h r).2

theorem emit_ring (w : World) (r : RingId) (cmds : List RingCmd) :
    (w.emit r cmds).ring r = { w.ring r with
      trace := (w.ring r).trace ++ cmds
      visible := if w.dev.stopRings r then (w.ring r).visible
        else ((w.ring r).trace ++ cmds).length } := setRing_self ..

theorem Sent.emit {cmds : List RingCmd} (h : w.Sent r)
    (hcmds : ∀ start len flags q, .batch start len flags q ∈ cmds →
      q = (w.ring r).outstandingLazyRequest ∧ q ≠ 0) : (w.emit r cmds).Sent r where
  request start len flags q hc := by
    rw [emit_ring] at hc ⊢
    exact (List.mem_append.mp hc).elim (h.request start len flags q) (hcmds start len flags q)
  told := by
    rw [emit_ring]
    exact h.told.append cmds _

theorem emit_outstanding (w : World) (r : RingId) (cmds : List RingCmd) (o : ObjId) :
    (w.emit r cmds).Outstanding r o ↔ w.Outstanding r o := by
  unfold Outstanding
  rw [emit_ring]
  rfl

end World

theorem batch_mem_commands {b : Batch} {start len : BitVec 32} {flags : ℕ} {q request : Seqno}
    (h : .batch start len flags q ∈ b.commands drv request) : q = request := by
  unfold Batch.commands at h
  split at h <;> simp_all

theorem exists_batch (b : Batch) (drv : Driver) (request : Seqno) :
    ∃ start len flags, .batch start len flags request ∈ b.commands drv request := by
  unfold Batch.commands
  split
  · exact ⟨b.start, b.len, b.flags, List.mem_singleton.mpr rfl⟩
  · rename_i csOffset _
    exact ⟨csOffset, b.len, b.flags, by simp⟩

/-! ### Steps that write no batch -/

/-- Commands may be added that are no batches, and the outstanding request stays. -/
structure World.Quiets (r : RingId) (w w' : World) : Prop where
  commands : ∃ cmds, (w'.ring r).trace = (w.ring r).trace ++ cmds ∧ ∀ c ∈ cmds, c.isBatch = false
  told : (w.ring r).Told (w.dev.stopRings r) →
    (w'.ring r).Told (w'.dev.stopRings r) ∧ (w.ring r).visible ≤ (w'.ring r).visible
  dev : w'.dev = w.dev
  request : (w.ring r).outstandingLazyRequest ≠ 0 →
    (w'.ring r).outstandingLazyRequest = (w.ring r).outstandingLazyRequest ∧
      ∀ o, w'.Outstanding r o ↔ w.Outstanding r o

namespace World

instance : IsPreorder World (Quiets r) where
  refl w := ⟨⟨[], (List.append_nil _).symm, fun _ hc => absurd hc List.not_mem_nil⟩,
    fun h => ⟨h, Nat.le_refl _⟩, rfl, fun _ => ⟨rfl, fun _ => Iff.rfl⟩⟩
  trans w w' w'' h h' := by
    obtain ⟨cmds, htrace, hcmds⟩ := h.commands
    obtain ⟨cmds', htrace', hcmds'⟩ := h'.commands
    refine ⟨⟨cmds ++ cmds', ?_, ?_⟩, fun htold => ?_, h'.dev.trans h.dev, fun hne => ?_⟩
    · rw [htrace', htrace, List.append_assoc]
    · exact fun c hc => (List.mem_append.mp hc).elim (hcmds c) (hcmds' c)
    · obtain ⟨htold', hle⟩ := h.told htold
      obtain ⟨htold'', hle'⟩ := h'.told htold'
      exact ⟨htold'', hle.trans hle'⟩
    · obtain ⟨hreq, hout⟩ := h.request hne
      obtain ⟨hreq', hout'⟩ := h'.request (by rwa [hreq])
      exact ⟨hreq'.trans hreq, fun o => (hout' o).trans (hout o)⟩

theorem Quiets.mem {c : RingCmd} (h : Quiets r w w') (hc : c ∈ (w'.ring r).trace)
    (hbatch : c.isBatch = true) : c ∈ (w.ring r).trace := by
  obtain ⟨cmds, htrace, hcmds⟩ := h.commands
  rw [htrace] at hc
  exact (List.mem_append.mp hc).resolve_right fun hnew =>
    Bool.false_ne_true ((hcmds c hnew).symm.trans hbatch)

theorem Sent.quiets (h : w.Sent r) (hq : Quiets r w w') : w'.Sent r where
  request start len flags q hc := by
    obtain ⟨heq, hne⟩ := h.request start len flags q (hq.mem hc rfl)
    rw [(hq.request (heq ▸ hne)).1]
    exact ⟨heq, hne⟩
  told := (hq.told h.told).1

theorem Begun.quiets {ret : ℤ} (h : Begun r ret w w') : Quiets r w w' where
  commands := ⟨[], by rw [h.trace, List.append_nil], fun _ hc => absurd hc List.not_mem_nil⟩
  told ht := ⟨⟨by rw [h.visible, h.trace]; exact ht.visible,
    by rw [h.visible, h.dev]; exact ht.stopped⟩, by rw [h.visible]⟩
  dev := h.dev
  request hne := ⟨by rw [(h.still hne).ring], (h.still hne).outstanding⟩

theorem Quiets.emit {cmds : List RingCmd} (h : ∀ c ∈ cmds, c.isBatch = false) (w : World)
    (r : RingId) : Quiets r w (w.emit r cmds) where
  commands := ⟨cmds, by rw [emit_ring], h⟩
  told ht := by
    rw [emit_ring]
    refine ⟨ht.append cmds _, ?_⟩
    have hv := ht.visible
    dsimp only
    rw [List.length_append]
    split <;> omega
  dev := rfl
  request _ := ⟨by rw [emit_ring], w.emit_outstanding r cmds⟩

/-- Only the caches are marked. -/
theorem Quiets.setDirty (w : World) (r : RingId) (dirty : Bool) :
    Quiets r w (w.setRing r { w.ring r with gpuCachesDirty := dirty }) := by
  have hring := w.setRing_self r { w.ring r with gpuCachesDirty := dirty }
  refine ⟨⟨[], ?_, fun _ hc => absurd hc List.not_mem_nil⟩, fun ht => ?_, rfl,
    fun _ => ⟨?_, fun o => ?_⟩⟩
  · rw [hring, List.append_nil]
  · rw [hring]
    exact ⟨⟨ht.visible, ht.stopped⟩, Nat.le_refl _⟩
  · rw [hring]
  · unfold Outstanding
    rw [hring]
    rfl

end World

theorem isBatch_dwords {dwords : List (BitVec 32)} :
    ∀ c ∈ dwords.map fun d => RingCmd.other d.toNat, c.isBatch = false := by
  intro c hc
  obtain ⟨d, -, rfl⟩ := List.mem_map.mp hc
  rfl

theorem ringBegin_quiets (r : RingId) : Frame (World.Quiets r) (ringBegin r) :=
  fun w => (ringBegin_begun r w).quiets

theorem callOut_quiets (r : RingId) : Frame (World.Quiets r) callOut := fun w =>
  have h : World.Begun r 1 w (callOut w).2 := (callOut_still w).begun fun h => absurd h (by decide)
  h.quiets

theorem ringEmit_quiets (r : RingId) (dwords : List (BitVec 32)) :
    Frame (World.Quiets r) (ringEmit r dwords) := by
  refine Frame.bind (ringBegin_quiets r) fun ret => Frame.ite Frame.pure ?_
  exact Frame.bind (fun w => .emit isBatch_dwords w r) fun _ => Frame.pure

theorem ringFlush_quiets (r : RingId) : Frame (World.Quiets r) (ringFlush r) := by
  refine Frame.bind (ringEmit_quiets r _) fun ret => Frame.ite Frame.pure ?_
  exact Frame.bind (fun w => .setDirty w r false) fun _ => Frame.pure

/-! ### The loop over the clip rectangles -/

/-- A batch is in the ring, for the outstanding request, and the GPU knows unless the ring is
stopped. -/
structure World.Submitted (r : RingId) (w : World) : Prop extends World.Sent r w where
  request_ne : (w.ring r).outstandingLazyRequest ≠ 0
  batch : w.dev.stopRings r = false → ∃ i start len flags, i < (w.ring r).visible ∧
    (w.ring r).trace[i]? = some (.batch start len flags (w.ring r).outstandingLazyRequest)

theorem World.Submitted.quiets (h : w.Submitted r) (hq : World.Quiets r w w') : w'.Submitted r where
  toSent := h.toSent.quiets hq
  request_ne := by
    rw [(hq.request h.request_ne).1]
    exact h.request_ne
  batch hstop := by
    rw [hq.dev] at hstop
    obtain ⟨i, start, len, flags, hi, hget⟩ := h.batch hstop
    obtain ⟨cmds, htrace, -⟩ := hq.commands
    refine ⟨i, start, len, flags, hi.trans_le (hq.told h.told).2, ?_⟩
    rw [htrace, (hq.request h.request_ne).1, List.getElem?_append_left, hget]
    exact (List.getElem?_eq_some_iff.mp hget).1

/-- A batch is written behind what is in the ring. -/
theorem World.Sent.submitted (h : w.Sent b.ring) (hne : (w.ring b.ring).outstandingLazyRequest ≠ 0) :
    (w.emit b.ring (b.commands drv (w.ring b.ring).outstandingLazyRequest)).Submitted b.ring where
  toSent := h.emit fun start len flags q hc => by
    obtain rfl := batch_mem_commands hc
    exact ⟨rfl, hne⟩
  request_ne := by
    rw [World.emit_ring]
    exact hne
  batch hstop := by
    obtain ⟨start, len, flags, hmem⟩ := exists_batch b drv (w.ring b.ring).outstandingLazyRequest
    have hall := List.mem_append_right (w.ring b.ring).trace hmem
    obtain ⟨i, hi, hget⟩ := List.getElem_of_mem hall
    rw [World.emit_ring]
    refine ⟨i, start, len, flags, ?_, ?_⟩
    · rw [show w.dev.stopRings b.ring = false from hstop]
      exact hi
    · rw [List.getElem?_eq_getElem hi, hget]

/-- A dispatch fails before it has written its batch. -/
theorem dispatchExecbuffer_spec (drv : Driver) (b : Batch) (w : World) :
    ((dispatchExecbuffer drv b w).1 ≠ 0 → World.Quiets b.ring w (dispatchExecbuffer drv b w).2) ∧
      ((dispatchExecbuffer drv b w).1 = 0 → w.Sent b.ring →
        (dispatchExecbuffer drv b w).2.Submitted b.ring) := by
  unfold dispatchExecbuffer
  split
  · exact ⟨fun _ => refl_of (World.Quiets b.ring) w,
      fun h => absurd (show eNospc = 0 from h) (by decide)⟩
  rw [run_bind]
  have hbegin := ringBegin_begun b.ring w
  split
  · exact ⟨fun _ => hbegin.quiets, fun h => absurd h ‹_›⟩
  · rename_i hret
    exact ⟨fun h => absurd rfl h, fun _ hsent =>
      (hsent.quiets hbegin.quiets).submitted (hbegin.request (not_not.mp hret))⟩

theorem emitBox_quiets (args : Execbuffer2) (box : ClipRect) :
    Frame (World.Quiets rcs) (emitBox args box) :=
  Frame.ite Frame.pure (Frame.bind Frame.get fun _ => ringEmit_quiets rcs _)

theorem dispatchBox_spec {b : Batch} (hring : b.ring = rcs) (drv : Driver) (args : Execbuffer2)
    (box : ClipRect) (w : World) :
    ((dispatchBox drv args b box w).1 ≠ 0 →
        World.Quiets b.ring w (dispatchBox drv args b box w).2) ∧
      ((dispatchBox drv args b box w).1 = 0 → w.Sent b.ring →
        (dispatchBox drv args b box w).2.Submitted b.ring) := by
  have hbox : World.Quiets b.ring w (emitBox args box w).2 := by
    rw [hring]
    exact emitBox_quiets args box w
  obtain ⟨hfail, hok⟩ := dispatchExecbuffer_spec drv b (emitBox args box w).2
  unfold dispatchBox
  rw [run_bind]
  split
  · exact ⟨fun _ => hbox, fun h => absurd h ‹_›⟩
  · exact ⟨fun h => trans_of (World.Quiets b.ring) hbox (hfail h),
      fun h hsent => hok h (hsent.quiets hbox)⟩

theorem run_dispatchBoxes_cons (b : Batch) (box : ClipRect) (rest : List ClipRect) (w : World) :
    dispatchBoxes drv args b (box :: rest) w =
      if (dispatchBox drv args b box w).1 ≠ 0 then dispatchBox drv args b box w
      else dispatchBoxes drv args b rest (dispatchBox drv args b box w).2 := by
  show (if (dispatchBox drv args b box w).1 ≠ 0 then _ else _ : ExecM ℤ) _ = _
  rw [run_ite]
  rfl

/-- After the first box a batch is in the ring. -/
theorem dispatchBoxes_submitted (hring : b.ring = rcs) (boxes : List ClipRect)
    (hsent : w.Sent b.ring) (hb : boxes ≠ [] ∨ w.Submitted b.ring)
    (hret : (dispatchBoxes drv args b boxes w).1 = 0) :
    (dispatchBoxes drv args b boxes w).2.Submitted b.ring := by
  induction boxes generalizing w with
  | nil => exact hb.resolve_left fun h => h rfl
  | cons box rest ih =>
    obtain ⟨-, hok⟩ := dispatchBox_spec hring drv args box w
    rw [run_dispatchBoxes_cons] at hret ⊢
    by_cases hbox : (dispatchBox drv args b box w).1 = 0
    · rw [if_neg (not_not.mpr hbox)] at hret ⊢
      have hsub := hok hbox hsent
      exact ih hsub.toSent (.inr hsub) hret
    · rw [if_pos hbox] at hret
      exact absurd hret hbox

/-- The boxes before the one at which the loop stops. -/
theorem dispatchBoxes_append (b : Batch) (done rest : List ClipRect) (w : World)
    (hret : (dispatchBoxes drv args b done w).1 = 0) :
    dispatchBoxes drv args b (done ++ rest) w =
      dispatchBoxes drv args b rest (dispatchBoxes drv args b done w).2 := by
  induction done generalizing w with
  | nil => rfl
  | cons box done ih =>
    rw [List.cons_append, run_dispatchBoxes_cons]
    rw [run_dispatchBoxes_cons] at hret ⊢
    by_cases hbox : (dispatchBox drv args b box w).1 = 0
    · rw [if_neg (not_not.mpr hbox)] at hret ⊢
      rw [if_neg (not_not.mpr hbox)]
      exact ih _ hret
    · rw [if_pos hbox] at hret
      exact absurd hret hbox

/-- The loop fails at one of the boxes. -/
theorem exists_failing (b : Batch) (boxes : List ClipRect) (w : World)
    (hret : (dispatchBoxes drv args b boxes w).1 ≠ 0) :
    ∃ done box rest, boxes = done ++ box :: rest ∧ (dispatchBoxes drv args b done w).1 = 0 ∧
      (dispatchBox drv args b box (dispatchBoxes drv args b done w).2).1 ≠ 0 := by
  induction boxes generalizing w with
  | nil => exact absurd rfl hret
  | cons box boxes ih =>
    by_cases hbox : (dispatchBox drv args b box w).1 = 0
    · rw [run_dispatchBoxes_cons, if_neg (not_not.mpr hbox)] at hret
      obtain ⟨done, last, rest, rfl, hdone, hlast⟩ := ih _ hret
      have hrun : dispatchBoxes drv args b (box :: done) w =
          dispatchBoxes drv args b done (dispatchBox drv args b box w).2 := by
        rw [run_dispatchBoxes_cons, if_neg (not_not.mpr hbox)]
      exact ⟨box :: done, last, rest, rfl, by rw [hrun, hdone], by rw [hrun]; exact hlast⟩
    · exact ⟨[], box, boxes, rfl, rfl, hbox⟩

end

end GfxDrm.I915
