import GfxDrm.Active.Retire

/-! The hang statistics of the requests that are thrown away at a reset: i915_set_reset_status
and i915_gem_reset_ring_lists (i915_gem.c). -/

namespace GfxDrm.Reset
open Active (GpuState)
open I915 (Bo ObjId RingId Seqno)

abbrev CtxId := ℕ
abbrev FileId := ℕ

/-- `enum intel_ring_hangcheck_action`. -/
inductive HangcheckAction where
  | wait | active | kick | hung
  deriving DecidableEq

/-- What intel_ring_wait_request writes over the end of a request it has consumed. -/
def tailConsumed : BitVec 32 := 0xffffffff

/-- drm_i915_gem_request. -/
structure Request where
  /-- Which of the requests it is. -/
  id : ℕ
  seqno : Seqno
  /-- Where its commands start in the ring buffer. -/
  head : BitVec 32
  /-- What is saved as their end. -/
  tail : BitVec 32
  /-- Where they end. -/
  stop : BitVec 32
  ctx : Option CtxId
  batchObj : Option ObjId
  filePriv : Option FileId
  tail_eq : tail = stop ∨ tail = tailConsumed

/-- i915_ctx_hang_stats. -/
@[ext]
structure HangStats where
  batchPending : BitVec 32 := 0
  batchActive : BitVec 32 := 0

/-- Who has hang statistics. -/
inductive Holder where
  | ctx (c : CtxId)
  | file (f : FileId)
  deriving DecidableEq

abbrev Stats := Holder → HangStats

structure ResetState where
  gpu : GpuState
  /-- The request_list of each ring, oldest first. -/
  requests : RingId → List Request
  /-- `id` of a context. -/
  ctxId : CtxId → ℤ
  ctxRefs : CtxId → ℤ
  stats : Stats
  /-- The mm.request_list of each file. -/
  clientList : FileId → List ℕ
  seqnos : ∀ r, (gpu.ring r).requests = (requests r).map Request.seqno

/-- What the hangcheck timer and the registers say of the ring. -/
structure RingHang where
  /-- intel_ring_get_active_head. -/
  acthd : BitVec 32
  action : HangcheckAction

/-! ### Guilt -/

def headAddr : BitVec 32 := 0x001ffffc

def defaultContextId : ℤ := 0

/-- i915_head_inside_object. The sum is one of 64 bits. -/
def headInsideObject (acthd : BitVec 32) (obj : Bo) : Bool :=
  decide (obj.gttOffset ≤ acthd) &&
    decide (acthd.setWidth 64 < obj.gttOffset.setWidth 64 + obj.size)

/-- i915_head_inside_request. -/
def headInsideRequest (acthdUnmasked requestStart requestEnd : BitVec 32) : Bool :=
  let acthd := acthdUnmasked &&& headAddr
  if requestStart < requestEnd then
    decide (requestStart ≤ acthd) && decide (acthd < requestEnd)
  else if requestEnd < requestStart then
    decide (requestStart ≤ acthd) || decide (acthd < requestEnd)
  else false

/-- i915_request_guilty. -/
def requestGuilty (bo : ObjId → Bo) (request : Request) (acthd : BitVec 32) : Bool :=
  (request.batchObj.any fun o => headInsideObject acthd (bo o)) ||
    headInsideRequest acthd request.head request.tail

/-- The hang statistics that i915_set_reset_status picks. -/
def Request.holder (request : Request) (ctxId : CtxId → ℤ) : Option Holder :=
  match request.ctx with
  | some c =>
    if ctxId c ≠ defaultContextId then some (.ctx c) else request.filePriv.map Holder.file
  | none => request.filePriv.map Holder.file

/-- `batch_active++` or `batch_pending++`. -/
def HangStats.count (hs : HangStats) (guilty : Bool) : HangStats :=
  if guilty then { hs with batchActive := hs.batchActive + 1 }
  else { hs with batchPending := hs.batchPending + 1 }

def Stats.count (s : Stats) (h : Holder) (guilty : Bool) : Stats :=
  Function.update s h ((s h).count guilty)

/-! ### The lists -/

namespace ResetState

/-- i915_set_reset_status. -/
def setResetStatus (w : ResetState) (hang : RingHang) (request : Request) : ResetState :=
  let guilty := hang.action ≠ .wait && requestGuilty w.gpu.bo request hang.acthd
  match request.holder w.ctxId with
  | some h => { w with stats := w.stats.count h guilty }
  | none => w

/-- list_del of the first request of a ring. -/
def popRequest (w : ResetState) (r : RingId) : ResetState where
  gpu := w.gpu.setRing r
    { w.gpu.ring r with requests := (w.gpu.ring r).requests.tail }
  requests := Function.update w.requests r (w.requests r).tail
  ctxId := w.ctxId
  ctxRefs := w.ctxRefs
  stats := w.stats
  clientList := w.clientList
  seqnos r' := by
    by_cases h : r' = r
    · subst h
      simp [GpuState.setRing, w.seqnos]
    · simp [GpuState.setRing, h, w.seqnos]

/-- i915_gem_request_remove_from_client. -/
def removeFromClient (w : ResetState) (request : Request) : ResetState :=
  match request.filePriv with
  | none => w
  | some f =>
    { w with clientList := Function.update w.clientList f ((w.clientList f).erase request.id) }

/-- i915_gem_context_unreference, where there is a context. -/
def contextUnreference (w : ResetState) (request : Request) : ResetState :=
  match request.ctx with
  | none => w
  | some c => { w with ctxRefs := Function.update w.ctxRefs c (w.ctxRefs c - 1) }

/-- i915_gem_free_request, for the first request of a ring. -/
def freeRequest (w : ResetState) (r : RingId) (request : Request) : ResetState :=
  ((w.popRequest r).removeFromClient request).contextUnreference request

/-- One round of the first loop of i915_gem_reset_ring_lists. -/
def resetRequest (w : ResetState) (hang : RingHang) (r : RingId) (completedSeqno : Seqno)
    (request : Request) : ResetState :=
  let w := if completedSeqno < request.seqno then w.setResetStatus hang request else w
  w.freeRequest r request

/-- The first loop of i915_gem_reset_ring_lists. -/
def resetRequests (hang : RingHang) (r : RingId) (completedSeqno : Seqno) :
    ℕ → ResetState → ResetState
  | 0, w => w
  | n + 1, w =>
    match w.requests r with
    | [] => w
    | q :: _ => resetRequests hang r completedSeqno n (w.resetRequest hang r completedSeqno q)

/-- The second loop of i915_gem_reset_ring_lists. -/
def retireObjects (w : ResetState) (r : RingId) : ResetState :=
  { w with
    gpu := w.gpu.retireWhile r (fun _ => true) (w.gpu.ring r).activeList.length
    seqnos := fun r' => (Active.retireWhile_requests w.gpu r').trans (w.seqnos r') }

/-- i915_gem_reset_ring_lists. -/
def resetRingLists (w : ResetState) (hang : RingHang) (r : RingId) : ResetState :=
  (resetRequests hang r (w.gpu.ring r).completed (w.requests r).length w).retireObjects r

end ResetState

/-! Who is charged at a reset, and what is left of the lists. -/

open I915 (Bo ObjId RingId Seqno seqnoPassed)

variable {w : ResetState} {hang : RingHang} {r r' : RingId} {q : Request} {c : Seqno}
  {acthd start stop : BitVec 32} {l : List Request} {s s' : Stats} {h : Holder}

/-! ### Where the head is -/

/-- On the way around the ring from `start`, the head comes before `stop`. -/
def InSegment (acthd start stop : BitVec 32) : Prop :=
  (acthd &&& headAddr) - start < stop - start

instance : Decidable (InSegment acthd start stop) := inferInstanceAs (Decidable (_ < _))

def InObject (acthd : BitVec 32) (obj : Bo) : Prop :=
  obj.gttOffset.toNat ≤ acthd.toNat ∧ acthd.toNat < obj.gttOffset.toNat + obj.size.toNat

/-- The head lies in the batch object of the request or in its part of the ring. -/
def Request.Touched (q : Request) (bo : ObjId → Bo) (acthd : BitVec 32) : Prop :=
  (∃ o ∈ q.batchObj, InObject acthd (bo o)) ∨ InSegment acthd q.head q.stop

theorem headInsideRequest_iff :
    headInsideRequest acthd start stop = true ↔ InSegment acthd start stop := by
  unfold headInsideRequest InSegment
  split
  · simp only [Bool.and_eq_true, decide_eq_true_eq]
    bv_omega
  · split
    · simp only [Bool.or_eq_true, decide_eq_true_eq]
      bv_omega
    · have heq : start = stop := by bv_omega
      subst heq
      simp

theorem masked_le : (acthd &&& headAddr).toNat ≤ headAddr.toNat := by
  exact Nat.and_le_right

/-- Once the end of a request is overwritten, its part of the ring seems to go on to the end. -/
theorem inSegment_consumed :
    InSegment acthd start tailConsumed ↔ start ≤ acthd &&& headAddr := by
  have hle : (acthd &&& headAddr).toNat ≤ headAddr.toNat := masked_le
  unfold InSegment
  revert hle
  generalize acthd &&& headAddr = a
  intro hle
  have hlt : a.toNat < tailConsumed.toNat := lt_of_le_of_lt hle (by decide)
  have hc : tailConsumed.toNat = 4294967295 := rfl
  bv_omega

theorem headInsideObject_inObject {obj : Bo} (hin : headInsideObject acthd obj = true) :
    InObject acthd obj := by
  simp only [headInsideObject, Bool.and_eq_true, decide_eq_true_eq] at hin
  obtain ⟨hlo, hhi⟩ := hin
  refine ⟨hlo, lt_of_lt_of_le ?_ (Nat.mod_le _ (2 ^ 64))⟩
  rw [BitVec.lt_def, BitVec.toNat_add, BitVec.toNat_setWidth, BitVec.toNat_setWidth] at hhi
  rwa [Nat.mod_eq_of_lt (by omega), Nat.mod_eq_of_lt (a := obj.gttOffset.toNat) (by omega)] at hhi

/-! ### One request -/

/-- What the round of a request does to the hang statistics. -/
structure Turn where
  request : Request
  before : Stats
  after : Stats

/-- The request is charged if it had not completed: one statistic of its context or file goes
up by one, and it is batch_active only if the head was in the request. -/
def Turn.Right (t : Turn) (ctxId : CtxId → ℤ) (bo : ObjId → Bo) (acthd : BitVec 32)
    (completed : Seqno) : Prop :=
  if seqnoPassed completed t.request.seqno then t.after = t.before
  else match t.request.holder ctxId with
    | none => t.after = t.before
    | some h => ∃ guilty, t.after = t.before.count h guilty ∧
        (guilty = true → t.request.Touched bo acthd)

/-- The request compares with the completed seqno as if neither had wrapped. -/
def Request.SeqnoInOrder (q : Request) (completed : Seqno) : Prop :=
  completed < q.seqno ↔ seqnoPassed completed q.seqno = false

/-- If the saved end is lost, the head is before the request, or still in it. -/
def Request.EndKnown (q : Request) (acthd : BitVec 32) : Prop :=
  q.tail = tailConsumed → q.head ≤ acthd &&& headAddr → InSegment acthd q.head q.stop

/-- When a request is charged rightly. -/
def Request.Fair (q : Request) (ctxId : CtxId → ℤ) (bo : ObjId → Bo) (hang : RingHang)
    (completed : Seqno) : Prop :=
  q.holder ctxId ≠ none → q.SeqnoInOrder completed ∧
    (completed < q.seqno → hang.action ≠ .wait →
      (∀ o ∈ q.batchObj, ¬InObject hang.acthd (bo o)) → q.EndKnown hang.acthd)

theorem Stats.count_ne (s : Stats) (h : Holder) (guilty : Bool) : s.count h guilty ≠ s := by
  intro heq
  have hh := congrFun heq h
  simp only [Stats.count, Function.update_self] at hh
  cases guilty
  · have hp := congrArg HangStats.batchPending hh
    simp only [HangStats.count, Bool.false_eq_true, if_false] at hp
    bv_omega
  · have ha := congrArg HangStats.batchActive hh
    simp only [HangStats.count, if_true] at ha
    bv_omega

theorem Stats.count_guilty_inj {g g' : Bool} (heq : s.count h g = s.count h g') : g = g' := by
  have hh := congrFun heq h
  simp only [Stats.count] at hh
  have hp := congrArg HangStats.batchPending hh
  cases g <;> cases g' <;> simp [HangStats.count] at hp ⊢

/-- What a round does to the hang statistics. -/
def Request.charged (q : Request) (ctxId : CtxId → ℤ) (bo : ObjId → Bo) (hang : RingHang)
    (completed : Seqno) (s : Stats) : Stats :=
  if completed < q.seqno then
    match q.holder ctxId with
    | some h => s.count h (hang.action ≠ .wait && requestGuilty bo q hang.acthd)
    | none => s
  else s

theorem guilty_touched_iff {bo : ObjId → Bo} :
    ((hang.action ≠ .wait && requestGuilty bo q hang.acthd) = true → q.Touched bo hang.acthd) ↔
      (hang.action ≠ .wait → (∀ o ∈ q.batchObj, ¬InObject hang.acthd (bo o)) →
        q.EndKnown hang.acthd) := by
  simp only [Bool.and_eq_true, decide_eq_true_eq, requestGuilty, Bool.or_eq_true,
    headInsideRequest_iff, Option.any_eq_true]
  constructor
  · intro htouch haction hout hend hhead
    have hseg : InSegment hang.acthd q.head q.tail := by
      rw [hend]
      exact inSegment_consumed.mpr hhead
    rcases htouch ⟨haction, Or.inr hseg⟩ with ⟨o, ho, hin⟩ | hin
    · exact absurd hin (hout o ho)
    · exact hin
  · rintro hknown ⟨haction, ⟨o, ho, hin⟩ | hseg⟩
    · exact Or.inl ⟨o, ho, headInsideObject_inObject hin⟩
    · by_cases hbatch : ∃ o ∈ q.batchObj, InObject hang.acthd (bo o)
      · exact Or.inl hbatch
      · -- the head is where the saved end has it in the request
        have hout : ∀ o ∈ q.batchObj, ¬InObject hang.acthd (bo o) :=
          fun o ho hin => hbatch ⟨o, ho, hin⟩
        rcases q.tail_eq with htail | htail
        · exact Or.inr (htail ▸ hseg)
        · rw [htail] at hseg
          exact Or.inr (hknown haction hout htail (inSegment_consumed.mp hseg))

theorem right_iff_fair {ctxId : CtxId → ℤ} {bo : ObjId → Bo} {t : Turn}
    (ht : t.after = t.request.charged ctxId bo hang c t.before) :
    t.Right ctxId bo hang.acthd c ↔ t.request.Fair ctxId bo hang c := by
  unfold Turn.Right Request.Fair Request.SeqnoInOrder
  unfold Request.charged at ht
  cases hh : t.request.holder ctxId with
  | none => simpa [hh] using ht
  | some h =>
    rw [hh] at ht
    by_cases hlt : c < t.request.seqno
    · cases hp : seqnoPassed c t.request.seqno with
      | true => simp [ht, hlt, Stats.count_ne]
      | false =>
        simp only [ne_eq, reduceCtorEq, not_false_eq_true, hlt,
          forall_const, true_and, ht]
        constructor
        · rintro ⟨g, hg, htouch⟩
          rw [← Stats.count_guilty_inj hg] at htouch
          exact guilty_touched_iff.mp htouch
        · intro hknown
          exact ⟨_, rfl, guilty_touched_iff.mpr hknown⟩
    · cases hp : seqnoPassed c t.request.seqno with
      | true => simp [ht, hlt]
      | false => simp [ht, hlt, fun g => (Stats.count_ne t.before h g).symm]

/-! ### The loop over the requests -/

/-- The loop over the requests `l` of a ring took them off every list and changed nothing else
but the hang statistics. -/
structure Emptied (w w' : ResetState) (r : RingId) (l : List Request) : Prop where
  gpu : w'.gpu = w.gpu.setRing r { w.gpu.ring r with requests := [] }
  requests : w'.requests = Function.update w.requests r []
  ctxId : w'.ctxId = w.ctxId
  ctxRefs : ∀ x, w'.ctxRefs x = w.ctxRefs x - l.countP (fun q => q.ctx = some x)
  clientList : ∀ f, w'.clientList f =
    (w.clientList f).diff ((l.filter fun q => q.filePriv = some f).map Request.id)

/-- The rounds follow on each other. -/
def Chained : Stats → List Turn → Stats → Prop
  | s, [], s' => s' = s
  | s, t :: ts, s' => t.before = s ∧ Chained t.after ts s'

namespace ResetState

theorem charge_eq (w : ResetState) (hang : RingHang) (c : Seqno) (q : Request) :
    (if c < q.seqno then w.setResetStatus hang q else w) =
      { w with stats := q.charged w.ctxId w.gpu.bo hang c w.stats } := by
  unfold setResetStatus Request.charged
  split
  · cases q.holder w.ctxId with
    | none => rfl
    | some h => rfl
  · rfl

theorem removeFromClient_eq (w : ResetState) (q : Request) :
    w.removeFromClient q =
      { w with
        clientList := fun f =>
          if q.filePriv = some f then (w.clientList f).erase q.id else w.clientList f } := by
  unfold removeFromClient
  cases q.filePriv with
  | none => simp
  | some f =>
    dsimp only
    congr 1
    funext f'
    by_cases hf : f' = f
    · subst hf
      simp
    · simp [hf, Ne.symm hf]

theorem contextUnreference_eq (w : ResetState) (q : Request) :
    w.contextUnreference q =
      { w with ctxRefs := fun x => w.ctxRefs x - if q.ctx = some x then 1 else 0 } := by
  unfold contextUnreference
  cases q.ctx with
  | none => simp
  | some x =>
    dsimp only
    congr 1
    funext x'
    by_cases hx : x' = x
    · subst hx
      simp
    · simp [hx, Ne.symm hx]

/-- What one round does. -/
theorem resetRequest_eq (w : ResetState) (hang : RingHang) (r : RingId) (c : Seqno)
    (q : Request) :
    w.resetRequest hang r c q =
      { w.popRequest r with
        stats := q.charged w.ctxId w.gpu.bo hang c w.stats
        clientList := fun f =>
          if q.filePriv = some f then (w.clientList f).erase q.id else w.clientList f
        ctxRefs := fun x => w.ctxRefs x - if q.ctx = some x then 1 else 0 } := by
  unfold resetRequest
  rw [charge_eq]
  dsimp only
  unfold freeRequest
  rw [removeFromClient_eq, contextUnreference_eq]
  rfl

/-- The rounds of the requests, in the order in which the loop takes them. -/
def turns (hang : RingHang) (r : RingId) (c : Seqno) : ℕ → ResetState → List Turn
  | 0, _ => []
  | n + 1, w =>
    match w.requests r with
    | [] => []
    | q :: _ =>
      let w' := w.resetRequest hang r c q
      { request := q, before := w.stats, after := w'.stats } :: turns hang r c n w'

theorem resetRequest_requests_self (hl : w.requests r = q :: l) :
    (w.resetRequest hang r c q).requests r = l := by
  simp [resetRequest_eq, popRequest, hl]

theorem resetRequests_cons (hl : w.requests r = q :: l) :
    resetRequests hang r c (l.length + 1) w =
      resetRequests hang r c l.length (w.resetRequest hang r c q) := by
  rw [resetRequests, hl]

theorem turns_cons (hl : w.requests r = q :: l) :
    turns hang r c (l.length + 1) w =
      { request := q, before := w.stats, after := (w.resetRequest hang r c q).stats } ::
        turns hang r c l.length (w.resetRequest hang r c q) := by
  rw [turns, hl]

theorem setRing_self (g : GpuState) (r : RingId) : g.setRing r (g.ring r) = g := by
  unfold GpuState.setRing
  simp

theorem resetRequests_emptied (hl : w.requests r = l) :
    Emptied w (resetRequests hang r c l.length w) r l := by
  induction l generalizing w with
  | nil =>
    have hnil : (w.gpu.ring r).requests = [] := by rw [w.seqnos, hl, List.map_nil]
    refine ⟨?_, ?_, rfl, fun x => ?_, fun f => ?_⟩
    · rw [← hnil]
      exact (setRing_self w.gpu r).symm
    · change w.requests = _
      rw [← hl, Function.update_eq_self]
    · simp [resetRequests]
    · simp [resetRequests]
  | cons q l ih =>
    rw [List.length_cons, resetRequests_cons hl]
    have hstep := resetRequest_eq w hang r c q
    have hrest := ih (w := w.resetRequest hang r c q) (resetRequest_requests_self hl)
    refine ⟨?_, ?_, ?_, fun x => ?_, fun f => ?_⟩
    · rw [hrest.gpu, hstep]
      simp [popRequest, GpuState.setRing]
    · rw [hrest.requests, hstep]
      simp [popRequest]
    · rw [hrest.ctxId, hstep]
      rfl
    · rw [hrest.ctxRefs, hstep, List.countP_cons]
      by_cases hx : q.ctx = some x
      · simp only [hx, if_true, decide_true]
        omega
      · simp [hx]
    · rw [hrest.clientList, hstep]
      by_cases hf : q.filePriv = some f
      · simp only [hf, if_true, List.filter_cons, decide_true, List.map_cons, List.diff_cons]
      · simp [hf]

/-! ### What the rounds add up to -/

theorem turns_chained (hl : w.requests r = l) :
    Chained w.stats (turns hang r c l.length w) (resetRequests hang r c l.length w).stats := by
  induction l generalizing w with
  | nil => rfl
  | cons q l ih =>
    rw [List.length_cons, resetRequests_cons hl, turns_cons hl]
    exact ⟨rfl, ih (resetRequest_requests_self hl)⟩

theorem turns_request (hl : w.requests r = l) :
    (turns hang r c l.length w).map Turn.request = l := by
  induction l generalizing w with
  | nil => rfl
  | cons q l ih =>
    rw [List.length_cons, turns_cons hl, List.map_cons, ih (resetRequest_requests_self hl)]

theorem turns_after (hl : w.requests r = l) :
    ∀ t ∈ turns hang r c l.length w,
      t.after = t.request.charged w.ctxId w.gpu.bo hang c t.before := by
  induction l generalizing w with
  | nil => exact fun _ ht => nomatch ht
  | cons q l ih =>
    rw [List.length_cons, turns_cons hl, List.forall_mem_cons]
    constructor
    · rw [resetRequest_eq]
    · have hrest := ih (w := w.resetRequest hang r c q) (resetRequest_requests_self hl)
      rw [resetRequest_eq] at hrest ⊢
      exact hrest

end ResetState

/-! ### The objects of the ring -/

/-- The objects on the list of a ring have left it, and the references that the list held are
dropped. -/
structure Retired (g g' : GpuState) (r : RingId) (objs : List ObjId) : Prop where
  activeList : (g'.ring r).activeList = []
  refcount : ∀ o, (g'.bo o).refcount = (g.bo o).refcount - objs.count o
  inactive : ∀ o ∈ objs, (g'.bo o).active = false
  others : ∀ o ∉ objs, g'.bo o = g.bo o

theorem moveToInactive_activeList {g : GpuState} {o : ObjId} {objs : List ObjId}
    (hl : (g.ring r).activeList = o :: objs) :
    ((g.moveToInactive o).ring r).activeList = objs := by
  simp only [GpuState.moveToInactive, GpuState.bugOn_eq]
  rw [hl, List.erase_cons_head]

theorem retireWhile_retired {g : GpuState} {objs : List ObjId}
    (hl : (g.ring r).activeList = objs) :
    Retired g (g.retireWhile r (fun _ => true) objs.length) r objs := by
  induction objs generalizing g with
  | nil => exact ⟨hl, fun o => by simp [GpuState.retireWhile], (fun _ ho => nomatch ho),
      fun _ _ => rfl⟩
  | cons o objs ih =>
    have heq : g.retireWhile r (fun _ => true) (o :: objs).length =
        (g.moveToInactive o).retireWhile r (fun _ => true) objs.length := by
      rw [List.length_cons, GpuState.retireWhile, hl]
      rfl
    have hrest := ih (moveToInactive_activeList hl)
    rw [heq]
    refine ⟨hrest.activeList, fun x => ?_, fun x hx => ?_, fun x hx => ?_⟩
    · rw [hrest.refcount, List.count_cons]
      by_cases hxo : x = o
      · subst hxo
        rw [Active.moveToInactive_bo_self]
        simp only [Bo.moveToInactive, beq_self_eq_true, if_true]
        omega
      · rw [Active.moveToInactive_bo_of_ne g hxo]
        simp [Ne.symm hxo]
    · by_cases hmem : x ∈ objs
      · exact hrest.inactive x hmem
      · have hxo : x = o := (List.mem_cons.mp hx).resolve_right hmem
        rw [hrest.others x hmem, hxo, Active.moveToInactive_bo_self]
        rfl
    · have hne := List.ne_of_not_mem_cons hx
      rw [hrest.others x (List.not_mem_of_not_mem_cons hx), Active.moveToInactive_bo_of_ne g hne]

/-! ### i915_gem_reset_ring_lists -/

namespace ResetState

/-- The rounds of the first loop. -/
def resetTurns (w : ResetState) (hang : RingHang) (r : RingId) : List Turn :=
  w.turns hang r (w.gpu.ring r).completed (w.requests r).length

theorem resetRingLists_gpu (w : ResetState) (hang : RingHang) (r : RingId) :
    (w.resetRingLists hang r).gpu = w.gpu.resetRingLists r := by
  unfold resetRingLists retireObjects GpuState.resetRingLists
  have hempty : Emptied w
      (resetRequests hang r (w.gpu.ring r).completed (w.requests r).length w) r (w.requests r) :=
    resetRequests_emptied rfl
  simp [hempty.gpu, GpuState.setRing]

theorem resetRingLists_retired (w : ResetState) (hang : RingHang) (r : RingId) :
    Retired w.gpu (w.resetRingLists hang r).gpu r (w.gpu.ring r).activeList := by
  rw [resetRingLists_gpu]
  have hl : ((w.gpu.setRing r { w.gpu.ring r with requests := [] }).ring r).activeList =
      (w.gpu.ring r).activeList := by simp [GpuState.setRing]
  exact { retireWhile_retired hl with }

end ResetState

/-- What i915_gem_reset_ring_lists is meant to do: every request of the list has its round and is
charged rightly there, and the lists are empty afterwards, with their references dropped. -/
structure ResetRight (w : ResetState) (hang : RingHang) (r : RingId) : Prop where
  rounds : (w.resetTurns hang r).map Turn.request = w.requests r
  chained : Chained w.stats (w.resetTurns hang r) (w.resetRingLists hang r).stats
  right : ∀ t ∈ w.resetTurns hang r,
    t.Right w.ctxId w.gpu.bo hang.acthd (w.gpu.ring r).completed
  requests : (w.resetRingLists hang r).requests = Function.update w.requests r []
  ctxRefs : ∀ x, (w.resetRingLists hang r).ctxRefs x =
    w.ctxRefs x - (w.requests r).countP (fun q => q.ctx = some x)
  clientList : ∀ f, (w.resetRingLists hang r).clientList f =
    (w.clientList f).diff (((w.requests r).filter fun q => q.filePriv = some f).map Request.id)
  objects : Retired w.gpu (w.resetRingLists hang r).gpu r (w.gpu.ring r).activeList

theorem ResetRight.fair (hright : ResetRight w hang r) :
    ∀ q ∈ w.requests r, q.Fair w.ctxId w.gpu.bo hang (w.gpu.ring r).completed := by
  intro q hq
  rw [← hright.rounds] at hq
  obtain ⟨t, ht, rfl⟩ := List.mem_map.mp hq
  exact (right_iff_fair (ResetState.turns_after rfl t ht)).mp (hright.right t ht)

theorem resetRingLists_right_iff (w : ResetState) (hang : RingHang) (r : RingId) :
    ResetRight w hang r ↔
      ∀ q ∈ w.requests r, q.Fair w.ctxId w.gpu.bo hang (w.gpu.ring r).completed := by
  refine ⟨ResetRight.fair, fun hfair => ?_⟩
  have hround : (w.resetTurns hang r).map Turn.request = w.requests r :=
    ResetState.turns_request rfl
  have hempty : Emptied w (ResetState.resetRequests hang r (w.gpu.ring r).completed
      (w.requests r).length w) r (w.requests r) :=
    ResetState.resetRequests_emptied rfl
  refine ⟨hround, ResetState.turns_chained rfl, fun t ht => ?_, hempty.requests,
    hempty.ctxRefs, hempty.clientList, w.resetRingLists_retired hang r⟩
  apply (right_iff_fair (ResetState.turns_after rfl t ht)).mpr (hfair _ ?_)
  rw [← hround]
  exact List.mem_map_of_mem ht

/-- Two requests of one file. The first hangs short of the end of the ring, the second lies at
its start, and both were consumed when someone looked for room. -/
def wrappedRequests : List Request :=
  [{ id := 0, seqno := 6, head := 131008, tail := tailConsumed, stop := 131024, ctx := none,
     batchObj := none, filePriv := some 0, tail_eq := Or.inr rfl },
   { id := 1, seqno := 7, head := 0, tail := tailConsumed, stop := 16, ctx := none,
     batchObj := none, filePriv := some 0, tail_eq := Or.inr rfl }]

def wrappedState : ResetState where
  gpu := {
    bo := fun _ => Bo.fresh 4096
    ring := fun r => { requests := if r = 0 then [6, 7] else [], completed := 5 }
    activeList := []
    inactiveList := []
    bugs := [] }
  requests r := if r = 0 then wrappedRequests else []
  ctxId _ := 0
  ctxRefs _ := 0
  stats _ := {}
  clientList f := if f = 0 then [0, 1] else []
  seqnos r := by
    by_cases h : r = 0
    · simp [h, wrappedRequests]
    · simp [h]

/-- The second request is charged with the hang of the first. -/
theorem resetRingLists_blames_next :
    ¬ResetRight wrappedState { acthd := 131012, action := .hung } 0 := by
  intro hright
  have hmem : (wrappedRequests.get ⟨1, by decide⟩) ∈ wrappedState.requests 0 :=
    List.get_mem wrappedRequests _
  have hfair := hright.fair _ hmem (by decide)
  have hknown := hfair.2 (by decide) (by decide) (fun _ ho => nomatch ho) rfl (by decide)
  exact absurd hknown (by decide)

end GfxDrm.Reset
