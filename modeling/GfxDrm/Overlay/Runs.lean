import GfxDrm.Overlay.Defs
import Mathlib.Algebra.Ring.Int.Defs
import Mathlib.Algebra.Group.Pi.Basic

/-! What an interrupted request may leave to the next one. -/

namespace GfxDrm.Overlay
open Hoare Function Run Errno

variable {s t : IntelOverlay} {o : RequestOutcome} {w : ℤ} {b c : ℕ} {req : FlipReq}
  {tail : Option Tail} {P R : ℕ → ℤ} {pending : Bool}

/-! ### The calls, run -/

/-- A call whose error is passed on. -/
theorem run_check (m k : OverlayM ℤ) (s : IntelOverlay) :
    (m >>= fun ret => if ret ≠ 0 then pure ret else k) s =
      if (m s).1 ≠ 0 then m s else k (m s).2 := by
  rw [run_bind, run_ite]
  rfl

theorem bugOn_eq {cond : IntelOverlay → Bool} (h : cond s = false) : (bugOn cond s).2 = s := by
  unfold bugOn
  rw [run_modify, h, Bool.or_false]

theorem doWaitRequest_eq (h : s.lastFlipReq = none) : doWaitRequest tail o s =
    if o.add ≠ 0 then (o.add, s)
    else if o.wait ≠ 0 then
      (o.wait, { s with lastFlipReq := some (.ofTail tail), flipTail := tail })
    else (0, { s with flipTail := tail }) := by
  have hbug : (bugOn (fun s => s.lastFlipReq.isSome) s).2 = s := bugOn_eq (by rw [h]; rfl)
  unfold doWaitRequest
  simp only [run_bind, run_ite, run_modify, run_pure, hbug]
  split_ifs
  · rfl
  · rfl
  · rw [h]

theorem overlayOn_eq (h : s.active = false) : overlayOn o s =
    if o.ring ≠ 0 then (o.ring, { s with active := true })
    else doWaitRequest none o { s with active := true } := by
  have hbug : (bugOn (fun s => s.active) s).2 = s := bugOn_eq h
  unfold overlayOn
  simp only [run_bind, run_ite, run_modify, run_pure, hbug]

theorem overlayContinue_eq (h : s.active = true) : overlayContinue o s =
    if o.ring ≠ 0 then (o.ring, s)
    else if o.add ≠ 0 then (o.add, s)
    else (0, { s with lastFlipReq := some .flip }) := by
  have hbug : (bugOn (fun s => !s.active) s).2 = s := bugOn_eq (by rw [h]; rfl)
  unfold overlayContinue
  simp only [run_bind, run_ite, run_modify, run_pure, hbug]

theorem overlayOff_eq (h : s.active = true) : overlayOff o s =
    if o.ring ≠ 0 then (o.ring, s) else doWaitRequest (some .off) o s := by
  have hbug : (bugOn (fun s => !s.active) s).2 = s := bugOn_eq (by rw [h]; rfl)
  unfold overlayOff
  simp only [run_bind, run_ite, run_pure, hbug]

theorem releaseOldVid_none (h : s.oldVidBo = none) : releaseOldVid pending o s = (0, s) := by
  unfold releaseOldVid
  simp only [run_bind, run_get, h, Option.isNone_none, if_true, run_pure]

theorem releaseOldVid_idle (h : s.oldVidBo = some b) :
    releaseOldVid false o s = (0, (releaseOldVidTail s).2) := by
  unfold releaseOldVid
  simp only [run_bind, run_get, run_pure, h, Option.isNone_some, Bool.false_eq_true, if_false]

theorem releaseOldVid_pending (h : s.oldVidBo = some b) (hl : s.lastFlipReq = none) :
    releaseOldVid true o s =
      if o.ring ≠ 0 then (o.ring, s)
      else if o.add ≠ 0 then (o.add, s)
      else if o.wait ≠ 0 then
        (o.wait, { s with lastFlipReq := some .release, flipTail := some .releaseOldVid })
      else (0, (releaseOldVidTail { s with flipTail := some .releaseOldVid }).2) := by
  unfold releaseOldVid
  simp only [run_bind, run_get, run_ite, run_pure, h, Option.isNone_some, Bool.false_eq_true,
    if_false, if_true, doWaitRequest_eq hl]
  split_ifs <;> simp_all [FlipReq.ofTail]

theorem recover_none (h : s.lastFlipReq = none) : recoverFromInterrupt w s = (0, s) := by
  unfold recoverFromInterrupt
  simp only [run_bind, run_get, h, run_pure]

theorem recover_wait (h : s.lastFlipReq = some req) (hw : w ≠ 0) :
    recoverFromInterrupt w s = (w, s) := by
  unfold recoverFromInterrupt
  simp only [run_bind, run_get, h, if_pos hw, run_pure]

/-- The callback left is the outstanding request's own. -/
theorem recover_some (h : s.lastFlipReq = some req) (htail : s.flipTail = req.tail) :
    recoverFromInterrupt 0 s = (0,
      { (match req.tail with
          | some tail => (tail.run s).2
          | none => s) with lastFlipReq := none }) := by
  obtain ⟨crtc, vidBo, oldVidBo, active, lastFlipReq, flipTail, crtcOverlay, pins, refs, bug, stray⟩ := s
  subst h htail
  unfold recoverFromInterrupt
  cases ht : req.tail with
  | none =>
    simp only [run_bind, run_get, ne_eq, not_true_eq_false, if_false, ht, run_modify,
      run_pure, Option.isSome_none, Bool.or_false]
  | some tail =>
    simp only [run_bind, run_get, ne_eq, not_true_eq_false, if_false, ht, run_modify,
      run_pure, decide_false, Bool.or_false]

/-! ### Pins and references -/

/-- No BUG_ON was met, no callback was astray, and beside those of the buffers it holds the overlay
has `P` pins and `R` references. -/
structure Sound (P R : ℕ → ℤ) (s : IntelOverlay) : Prop where
  bug : s.bug = false
  stray : s.stray = false
  pins : ∀ b, s.pins b = s.own b + P b
  refs : ∀ b, s.refs b = s.own b + R b

def single (b x : ℕ) : ℤ := if x = b then 1 else 0

theorem Sound.congr (h : Sound P R s) (hbug : t.bug = s.bug) (hstray : t.stray = s.stray)
    (hpins : t.pins = s.pins) (hrefs : t.refs = s.refs) (hvid : t.vidBo = s.vidBo)
    (hold : t.oldVidBo = s.oldVidBo) : Sound P R t where
  bug := hbug.trans h.bug
  stray := hstray.trans h.stray
  pins b := by
    rw [hpins, h.pins, IntelOverlay.own, IntelOverlay.own, hvid, hold]
  refs b := by
    rw [hrefs, h.refs, IntelOverlay.own, IntelOverlay.own, hvid, hold]

theorem update_sub_one (f : ℕ → ℤ) (b x : ℕ) : update f b (f b - 1) x = f x - single b x := by
  unfold single
  by_cases hx : x = b
  · rw [hx, update_self, if_pos rfl]
  · rw [update_of_ne hx, if_neg hx, Int.sub_zero]

theorem update_add_one (f : ℕ → ℤ) (b x : ℕ) : update f b (f b + 1) x = f x + single b x := by
  unfold single
  by_cases hx : x = b
  · rw [hx, update_self, if_pos rfl]
  · rw [update_of_ne hx, if_neg hx, add_zero]

theorem own_eq (s : IntelOverlay) (x : ℕ) : s.own x =
    (s.vidBo.elim 0 fun b => single b x) + s.oldVidBo.elim 0 fun b => single b x := by
  unfold IntelOverlay.own single
  cases s.vidBo <;> cases s.oldVidBo <;> simp [eq_comm]

/-- The old frame is released. -/
theorem Sound.releaseOldVidTail (h : Sound P R s) (hold : s.oldVidBo = some b) :
    Sound P R (releaseOldVidTail s).2 ∧ (releaseOldVidTail s).2 =
      { (s.unpin b).unreference b with oldVidBo := none } := by
  have heq : (Overlay.releaseOldVidTail s).2 =
      { (s.unpin b).unreference b with oldVidBo := none } := by
    unfold Overlay.releaseOldVidTail
    rw [run_modify, hold]
  rw [heq]
  refine ⟨⟨h.bug, h.stray, fun x => ?_, fun x => ?_⟩, rfl⟩
  · refine (update_sub_one s.pins b x).trans ?_
    rw [h.pins, own_eq, own_eq, hold]
    change _ + single b x + P x - single b x = s.vidBo.elim 0 (fun b => single b x) + 0 + P x
    omega
  · refine (update_sub_one s.refs b x).trans ?_
    rw [h.refs, own_eq, own_eq, hold]
    change _ + single b x + R x - single b x = s.vidBo.elim 0 (fun b => single b x) + 0 + R x
    omega

/-- The last frame is released and the overlay leaves its crtc. -/
theorem Sound.offTail (h : Sound P R s) (hvid : s.vidBo = some b) (hcrtc : s.crtc = some c) :
    Sound P R (offTail s).2 ∧ (offTail s).2 =
      { (s.unpin b).unreference b with
        vidBo := none
        crtcOverlay := update s.crtcOverlay c false
        crtc := none
        active := false } := by
  have heq : (Overlay.offTail s).2 =
      { (s.unpin b).unreference b with
        vidBo := none
        crtcOverlay := update s.crtcOverlay c false
        crtc := none
        active := false } := by
    unfold Overlay.offTail
    rw [run_modify, hvid, hcrtc]
  rw [heq]
  refine ⟨⟨h.bug, h.stray, fun x => ?_, fun x => ?_⟩, rfl⟩
  · refine (update_sub_one s.pins b x).trans ?_
    rw [h.pins, own_eq, own_eq, hvid]
    change single b x + _ + P x - single b x = 0 + s.oldVidBo.elim 0 (fun b => single b x) + P x
    omega
  · refine (update_sub_one s.refs b x).trans ?_
    rw [h.refs, own_eq, own_eq, hvid]
    change single b x + _ + R x - single b x = 0 + s.oldVidBo.elim 0 (fun b => single b x) + R x
    omega

theorem Sound.pin (h : Sound 0 R s) (b : ℕ) :
    Sound (single b) R { s with pins := update s.pins b (s.pins b + 1) } where
  bug := h.bug
  stray := h.stray
  pins x := by
    refine (update_add_one s.pins b x).trans ?_
    rw [h.pins, Pi.zero_apply, add_zero]
    rfl
  refs := h.refs

theorem Sound.unpin (h : Sound (single b) R s) : Sound 0 R (s.unpin b) where
  bug := h.bug
  stray := h.stray
  pins x := by
    refine (update_sub_one s.pins b x).trans ?_
    rw [h.pins, Pi.zero_apply, add_zero, add_sub_cancel_right]
    rfl
  refs := h.refs

theorem Sound.reference (h : Sound P 0 s) (b : ℕ) :
    Sound P (single b) { s with refs := update s.refs b (s.refs b + 1) } where
  bug := h.bug
  stray := h.stray
  pins := h.pins
  refs x := by
    refine (update_add_one s.refs b x).trans ?_
    rw [h.refs, Pi.zero_apply, add_zero]
    rfl

theorem Sound.unreference (h : Sound P (single b) s) : Sound P 0 (s.unreference b) where
  bug := h.bug
  stray := h.stray
  pins := h.pins
  refs x := by
    refine (update_sub_one s.refs b x).trans ?_
    rw [h.refs, Pi.zero_apply, add_zero, add_sub_cancel_right]
    rfl

/-- The overlay takes a buffer over, its pin and its reference. -/
theorem Sound.take (h : Sound (single b) (single b) s) (hold : s.oldVidBo = none) :
    Sound 0 0 { s with oldVidBo := s.vidBo, vidBo := some b } where
  bug := h.bug
  stray := h.stray
  pins x := by
    rw [own_eq]
    refine (h.pins x).trans ?_
    rw [own_eq, hold]
    change s.vidBo.elim 0 (fun b => single b x) + 0 + single b x =
      single b x + s.vidBo.elim 0 (fun b => single b x) + 0
    omega
  refs x := by
    rw [own_eq]
    refine (h.refs x).trans ?_
    rw [own_eq, hold]
    change s.vidBo.elim 0 (fun b => single b x) + 0 + single b x =
      single b x + s.vidBo.elim 0 (fun b => single b x) + 0
    omega

/-! ### Phases -/

/-- Where the overlay is between two calls; it is `started` within a request only. -/
inductive Phase where
  | off
  | starting
  | started
  | shown
  | flipping
  | releasing
  | stopping
  deriving DecidableEq

def Phase.Is : Phase → IntelOverlay → Prop
  | .off, s => s.active = false ∧ s.vidBo = none ∧ s.oldVidBo = none ∧ s.lastFlipReq = none
  | .starting, s => s.active = true ∧ s.crtc ≠ none ∧ s.vidBo = none ∧ s.oldVidBo = none ∧
      s.lastFlipReq = some .turnOn ∧ s.flipTail = none
  | .started, s => s.active = true ∧ s.crtc ≠ none ∧ s.vidBo = none ∧ s.oldVidBo = none ∧
      s.lastFlipReq = none ∧ s.flipTail = none
  | .shown, s => s.active = true ∧ s.crtc ≠ none ∧ s.vidBo ≠ none ∧ s.lastFlipReq = none
  | .flipping, s => s.active = true ∧ s.crtc ≠ none ∧ s.vidBo ≠ none ∧
      s.lastFlipReq = some .flip ∧ s.flipTail = none
  | .releasing, s => s.active = true ∧ s.crtc ≠ none ∧ s.vidBo ≠ none ∧ s.oldVidBo ≠ none ∧
      s.lastFlipReq = some .release ∧ s.flipTail = some .releaseOldVid
  | .stopping, s => s.active = true ∧ s.crtc ≠ none ∧ s.vidBo ≠ none ∧ s.oldVidBo = none ∧
      s.lastFlipReq = some .turnOff ∧ s.flipTail = some .off

/-- Between two requests, with references to spare. -/
def Resting (P R : ℕ → ℤ) (s : IntelOverlay) : Prop :=
  Sound P R s ∧ ∃ p : Phase, p ≠ .started ∧ p.Is s

theorem Resting.off (h : Sound P R s) (hp : Phase.off.Is s) : Resting P R s :=
  ⟨h, .off, by decide, hp⟩

theorem Resting.shown (h : Sound P R s) (hp : Phase.shown.Is s) : Resting P R s :=
  ⟨h, .shown, by decide, hp⟩

/-- The same to a request that is to come. -/
structure Agrees (s t : IntelOverlay) : Prop where
  crtc : t.crtc = s.crtc
  vidBo : t.vidBo = s.vidBo
  oldVidBo : t.oldVidBo = s.oldVidBo
  active : t.active = s.active
  flipTail : t.flipTail = s.flipTail

/-- The outstanding request is waited for: what follows is `started`, `shown` or `off`. -/
structure Recovered (s t : IntelOverlay) : Prop where
  phase : Phase.off.Is t ∨ Phase.started.Is t ∨ Phase.shown.Is t
  agrees : Agrees s.done t

theorem Recovered.of_none (hl : s.lastFlipReq = none)
    (hp : Phase.off.Is s ∨ Phase.shown.Is s) : Recovered s s := by
  have hdone : s.done = { s with lastFlipReq := none } := by
    unfold IntelOverlay.done
    rw [hl]
  refine ⟨hp.imp_right .inr, ?_, ?_, ?_, ?_, ?_⟩ <;> rw [hdone]

theorem Sound.setLast (h : Sound P R s) (l : Option FlipReq) :
    Sound P R { s with lastFlipReq := l } :=
  h.congr rfl rfl rfl rfl rfl rfl

/-- The recovery path waits in vain and changes nothing, or it finds what the request has left. -/
abbrev Recovers (P R : ℕ → ℤ) (s : IntelOverlay) (w : ℤ) : Prop :=
  Returns (· = s) (fun t => (s.lastFlipReq = none ∨ w = 0) ∧ Sound P R t ∧ Recovered s t)
    (recoverFromInterrupt w s)

theorem recover_spec (h : Resting P R s) (w : ℤ) : Recovers P R s w := by
  obtain ⟨hs, p, hne, hp⟩ := h
  -- with nothing outstanding there is nothing to do
  have hidle : s.lastFlipReq = none → (Phase.off.Is s ∨ Phase.shown.Is s) →
      Recovers P R s w := by
    intro hl hp
    unfold Recovers
    rw [recover_none hl]
    exact .ok ⟨.inl hl, hs, .of_none hl hp⟩
  -- what is outstanding is waited for, and its callback is run
  have hwaits : ∀ req, s.lastFlipReq = some req → s.flipTail = req.tail →
      (∀ t, (recoverFromInterrupt 0 s).2 = t → Sound P R t ∧ Recovered s t) →
      Recovers P R s w := by
    intro req hl htail hdone
    by_cases hw : w = 0
    · subst hw
      have hafter := hdone _ rfl
      unfold Recovers
      rw [recover_some hl htail] at hafter ⊢
      exact .ok ⟨.inr rfl, hafter⟩
    · unfold Recovers
      rw [recover_wait hl hw]
      exact .error hw rfl
  cases p with
  | off => exact hidle hp.2.2.2 (.inl hp)
  | started => exact absurd rfl hne
  | shown => exact hidle hp.2.2.2 (.inr hp)
  | starting =>
    obtain ⟨hact, hcrtc, hvid, hold, hl, htail⟩ := hp
    refine hwaits .turnOn hl htail fun t ht => ?_
    rw [recover_some hl htail] at ht
    subst ht
    refine ⟨hs.setLast none, .inr (.inl ⟨hact, hcrtc, hvid, hold, rfl, htail⟩), ?_⟩
    constructor <;> simp [IntelOverlay.done, hl, FlipReq.tail]
  | flipping =>
    obtain ⟨hact, hcrtc, hvid, hl, htail⟩ := hp
    refine hwaits .flip hl htail fun t ht => ?_
    rw [recover_some hl htail] at ht
    subst ht
    refine ⟨hs.setLast none, .inr (.inr ⟨hact, hcrtc, hvid, rfl⟩), ?_⟩
    constructor <;> simp [IntelOverlay.done, hl, FlipReq.tail]
  | releasing =>
    obtain ⟨hact, hcrtc, hvid, hold, hl, htail⟩ := hp
    obtain ⟨b, hb⟩ := Option.ne_none_iff_exists'.mp hold
    obtain ⟨hsound, hrun⟩ := hs.releaseOldVidTail hb
    refine hwaits .release hl htail fun t ht => ?_
    rw [recover_some hl htail] at ht
    change { (releaseOldVidTail s).2 with lastFlipReq := none } = t at ht
    subst ht
    refine ⟨hsound.setLast none, ?_⟩
    rw [hrun]
    refine ⟨.inr (.inr ⟨hact, hcrtc, hvid, rfl⟩), ?_⟩
    constructor <;> simp [IntelOverlay.done, hl, IntelOverlay.unpin, IntelOverlay.unreference]
  | stopping =>
    obtain ⟨hact, hcrtc, hvid, hold, hl, htail⟩ := hp
    obtain ⟨b, hb⟩ := Option.ne_none_iff_exists'.mp hvid
    obtain ⟨c, hc⟩ := Option.ne_none_iff_exists'.mp hcrtc
    obtain ⟨hsound, hrun⟩ := hs.offTail hb hc
    refine hwaits .turnOff hl htail fun t ht => ?_
    rw [recover_some hl htail] at ht
    change { (offTail s).2 with lastFlipReq := none } = t at ht
    subst ht
    refine ⟨hsound.setLast none, ?_⟩
    rw [hrun]
    refine ⟨.inl ⟨rfl, rfl, hold, rfl⟩, ?_⟩
    constructor <;> simp [IntelOverlay.done, hl, IntelOverlay.unpin, IntelOverlay.unreference]

/-! ### Old frames -/

/-- An old frame is released, or the request that waits for it fails or is left behind. -/
theorem releaseOldVid_spec (hs : Sound P R s) (hp : Phase.shown.Is s) (pending : Bool)
    (o : RequestOutcome) :
    Returns (Resting P R) (fun t => s.CanRelease pending o ∧ Sound P R t ∧ Phase.shown.Is t ∧
        t.oldVidBo = none ∧ t.crtc = s.crtc ∧
        (s.flipTail = none → s.oldVidBo = none ∨ pending = false → t.flipTail = none))
      (releaseOldVid pending o s) := by
  have hrest : Resting P R s := .shown hs hp
  obtain ⟨hact, hcrtc, hvid, hl⟩ := hp
  cases hold : s.oldVidBo with
  | none =>
    rw [releaseOldVid_none hold]
    exact .ok ⟨.inl hold, hs, ⟨hact, hcrtc, hvid, hl⟩, hold, rfl, fun ht _ => ht⟩
  | some b =>
    -- the release, with what the wait has left in `flip_tail`
    have hdone : ∀ l, Sound P R (releaseOldVidTail { s with flipTail := l }).2 ∧
        (releaseOldVidTail { s with flipTail := l }).2 =
          { (s.unpin b).unreference b with oldVidBo := none, flipTail := l } := fun l =>
      (hs.congr rfl rfl rfl rfl rfl rfl : Sound P R { s with flipTail := l }).releaseOldVidTail hold
    cases pending with
    | false =>
      obtain ⟨hsound, hrun⟩ := hdone s.flipTail
      rw [releaseOldVid_idle hold]
      refine .ok ⟨.inr (.inl rfl), hsound, ?_⟩
      rw [hrun]
      exact ⟨⟨hact, hcrtc, hvid, hl⟩, rfl, rfl, fun ht _ => ht⟩
    | true =>
      obtain ⟨hsound, hrun⟩ := hdone (some .releaseOldVid)
      rw [releaseOldVid_pending hold hl]
      refine .ite (fun _ => hrest) fun hring => .ite (fun _ => hrest) fun hadd =>
        .ite (fun _ => ?_) fun hwait => .ok ⟨.inr (.inr ⟨hring, hadd, hwait⟩), hsound, ?_⟩
      · refine ⟨hs.congr rfl rfl rfl rfl rfl rfl, .releasing, by decide, hact, hcrtc, hvid, ?_, rfl,
          rfl⟩
        rw [hold]
        exact Option.some_ne_none b
      · rw [hrun]
        exact ⟨⟨hact, hcrtc, hvid, hl⟩, rfl, rfl, fun _ hslow => absurd hslow (by simp)⟩

/-! ### Switching off -/

/-- The overlay goes off, or the request for that fails or is left behind. -/
theorem overlayOff_spec (hs : Sound P R s) (hp : Phase.shown.Is s) (hold : s.oldVidBo = none)
    (o : RequestOutcome) :
    Returns (Resting P R) (fun t => o.Ok ∧ t = { s with flipTail := some .off })
      (overlayOff o s) := by
  have hrest : Resting P R s := .shown hs hp
  obtain ⟨hact, hcrtc, hvid, hl⟩ := hp
  rw [overlayOff_eq hact, doWaitRequest_eq hl]
  refine .ite (fun _ => hrest) fun hring => .ite (fun _ => hrest) fun hadd =>
    .ite (fun _ => ?_) fun hwait => .ok ⟨⟨hring, hadd, hwait⟩, rfl⟩
  exact ⟨hs.congr rfl rfl rfl rfl rfl rfl, .stopping, by decide, hact, hcrtc, hvid, hold, rfl, rfl⟩

/-- A shown overlay is switched off and gives its frames back, or stays as it can be left. -/
theorem stopOverlay_spec (hs : Sound P R s) (hp : Phase.off.Is s ∨ Phase.shown.Is s)
    (o : SwitchOffOutcome) :
    Returns (Resting P R) (fun t => (s.active = true →
        s.CanRelease o.pending o.release ∧ o.off.Ok) ∧ Sound P R t ∧ Phase.off.Is t)
      (stopOverlay o s) := by
  unfold stopOverlay
  rw [run_get_bind, run_ite]
  rcases hp with hoff | hshown
  · rw [if_pos hoff.1]
    exact .ok ⟨fun h => absurd (hoff.1.symm.trans h) (by decide), hs, hoff⟩
  rw [if_neg (by rw [hshown.1]; decide)]
  refine (releaseOldVid_spec hs hshown _ _).check ?_
  rintro t ⟨hcan, hsound, hshown, hold, -⟩
  refine (overlayOff_spec hsound hshown hold _).check ?_
  rintro _ ⟨hoffok, rfl⟩
  obtain ⟨-, hcrtc, hvid, hl⟩ := hshown
  obtain ⟨b, hb⟩ := Option.ne_none_iff_exists'.mp hvid
  obtain ⟨c, hc⟩ := Option.ne_none_iff_exists'.mp hcrtc
  have hsound' : Sound P R { t with flipTail := some .off } :=
    hsound.congr rfl rfl rfl rfl rfl rfl
  obtain ⟨hsoundOff, hrun⟩ := hsound'.offTail (b := b) (c := c) hb hc
  have hoff : Phase.off.Is (offTail { t with flipTail := some .off }).2 := by
    rw [hrun]
    exact ⟨rfl, rfl, hold, hl⟩
  exact .ok ⟨fun _ => ⟨hcan, hoffok⟩, hsoundOff, hoff⟩

/-- A switch-off that finds no turn-on without a frame. -/
theorem switchOff_spec (h : Resting P R s) (o : SwitchOffOutcome)
    (hc : s.lastFlipReq = none ∨ o.recover = 0 → SwitchOffOutcome.Clean s.done) :
    Resting P R (switchOff o s).2 := by
  refine (((recover_spec h o.recover).imp (fun t ht => ht ▸ h) fun _ => id).check ?_).state
  rintro t ⟨hwaited, hsound, hrec⟩
  have hp : Phase.off.Is t ∨ Phase.shown.Is t := by
    rcases hrec.phase with hoff | hstarted | hshown
    · exact .inl hoff
    · exact absurd (hrec.agrees.vidBo.symm.trans hstarted.2.2.1)
        (hc hwaited (hrec.agrees.active.symm.trans hstarted.1))
    · exact .inr hshown
  exact (stopOverlay_spec hsound hp o).imp (fun _ => id) fun _ h => .off h.2.1 h.2.2

/-! ### New frames -/

/-- What a put-image leaves: the overlay has taken the buffer over or it still has its reference to
give back. -/
abbrev Placed (b : ℕ) (r : ℤ × IntelOverlay) : Prop :=
  Returns (Resting 0 (single b)) (Resting 0 0) r

/-- The new frame is flipped to. -/
theorem Resting.flip (hs : Sound (single b) (single b) s) (hact : s.active = true)
    (hcrtc : s.crtc ≠ none) (hold : s.oldVidBo = none) (htail : s.flipTail = none) :
    Resting 0 0 { s with
      lastFlipReq := some .flip
      oldVidBo := s.vidBo
      vidBo := some b } :=
  ⟨(hs.take hold).congr rfl rfl rfl rfl rfl rfl, .flipping, by decide, hact, hcrtc,
    Option.some_ne_none b, rfl, htail⟩

variable {o : PutImageOutcome}

/-- The buffer is pinned, and unpinned again where it is not shown. -/
theorem pinImage_spec (h : o.pin ≠ 0 → Resting 0 (single b) s)
    (hshow : o.pin = 0 → Returns (fun t => Resting 0 (single b) (t.unpin b))
      (fun t => Resting 0 0 { t with oldVidBo := t.vidBo, vidBo := some b })
      (showImage o { s with pins := update s.pins b (s.pins b + 1) })) :
    Placed b (pinImage b o s) := by
  have heq : pinImage b o s =
      if o.pin ≠ 0 then (o.pin, s)
      else
        let r := showImage o { s with pins := update s.pins b (s.pins b + 1) }
        if r.1 ≠ 0 then (r.1, r.2.unpin b)
        else (0, { r.2 with oldVidBo := r.2.vidBo, vidBo := some b }) := by
    unfold pinImage
    simp only [run_bind, run_ite, run_modify, run_pure]
  rw [heq]
  refine .ite h fun hpin => ?_
  dsimp only
  split
  case isTrue hret => exact .error hret ((hshow hpin).fails hret)
  case isFalse hret => exact .ok ((hshow hpin).succeeds (not_not.mp hret))

theorem showImage_fence (hfence : o.fence ≠ 0) :
    showImage o s = (o.fence, s) := by
  unfold showImage
  rw [if_pos hfence, run_pure]

theorem showImage_active (hfence : o.fence = 0) (hact : s.active = true) :
    showImage o s = overlayContinue o.flip s := by
  unfold showImage
  rw [if_neg (not_not.mpr hfence), run_get_bind, if_neg (by rw [hact]; decide)]

theorem showImage_off (hfence : o.fence = 0) (hact : s.active = false) (hl : s.lastFlipReq = none)
    (hring : o.turnOn.ring = 0) (hadd : o.turnOn.add = 0) :
    showImage o s =
      if o.turnOn.wait ≠ 0 then
        (o.turnOn.wait,
          { s with active := true, lastFlipReq := some .turnOn, flipTail := none })
      else overlayContinue o.flip { s with active := true, flipTail := none } := by
  have hon : overlayOn o.turnOn s =
      if o.turnOn.wait ≠ 0 then
        (o.turnOn.wait,
          { s with active := true, lastFlipReq := some .turnOn, flipTail := none })
      else (0, { s with active := true, flipTail := none }) := by
    rw [overlayOn_eq hact, if_neg (not_not.mpr hring),
      doWaitRequest_eq (s := { s with active := true }) hl, if_neg (not_not.mpr hadd)]
    rfl
  unfold showImage
  rw [if_neg (not_not.mpr hfence), run_get_bind, if_pos hact, run_check, hon]
  by_cases hwait : o.turnOn.wait ≠ 0
  · rw [if_pos hwait, if_pos hwait, if_pos hwait]
  · rw [if_neg hwait, if_neg (not_not.mpr rfl), if_neg hwait]

theorem overlayContinue_flips (hact : s.active = true) (hflips : o.Flips) :
    overlayContinue o.flip s = (0, { s with lastFlipReq := some .flip }) := by
  rw [overlayContinue_eq hact, if_neg (not_not.mpr hflips.1), if_neg (not_not.mpr hflips.2)]

/-- A put-image that finds the overlay off. -/
theorem pinImage_off (hs : Sound 0 (single b) s) (hp : Phase.off.Is s) (hcrtc : s.crtc ≠ none)
    (o : PutImageOutcome) (hon : o.pin = 0 → o.fence = 0 →
      o.turnOn.ring = 0 ∧ o.turnOn.add = 0 ∧ (o.turnOn.wait = 0 → o.Flips)) :
    Placed b (pinImage b o s) := by
  refine pinImage_spec (fun _ => .off hs hp) fun hpin => ?_
  have hpinned := hs.pin b
  obtain ⟨hact, hvid, hold, hl⟩ := hp
  by_cases hfence : o.fence ≠ 0
  · rw [showImage_fence hfence]
    exact .error hfence (.off hpinned.unpin ⟨hact, hvid, hold, hl⟩)
  obtain ⟨hring, hadd, hflips⟩ := hon hpin (not_not.mp hfence)
  rw [showImage_off (s := { s with pins := update s.pins b (s.pins b + 1) }) (not_not.mp hfence)
    hact hl hring hadd]
  refine .ite (fun _ => ⟨?_, .starting, by decide, rfl, hcrtc, hvid, hold, rfl, rfl⟩)
    fun hwait => ?_
  · exact hpinned.unpin.congr rfl rfl rfl rfl rfl rfl
  · rw [overlayContinue_flips rfl (hflips hwait)]
    exact .ok (.flip (hpinned.congr rfl rfl rfl rfl rfl rfl) rfl hcrtc hold rfl)

/-- A put-image that finds the overlay on, with nothing outstanding and no old frame. -/
theorem pinImage_active (hs : Sound 0 (single b) s) (hact : s.active = true) (hcrtc : s.crtc ≠ none)
    (hold : s.oldVidBo = none) (hl : s.lastFlipReq = none) (o : PutImageOutcome)
    (hfirst : s.vidBo = none → o.pin = 0 ∧ o.fence = 0 ∧ o.Flips)
    (htail : o.pin = 0 → o.fence = 0 → o.Flips → s.flipTail = none) :
    Placed b (pinImage b o s) := by
  -- a failure leaves the frame that is shown
  have hshown : ¬ (o.pin = 0 ∧ o.fence = 0 ∧ o.Flips) → Phase.shown.Is s := fun hne =>
    ⟨hact, hcrtc, fun hvid => hne (hfirst hvid), hl⟩
  have hpinned := hs.pin b
  refine pinImage_spec (fun hpin => .shown hs (hshown fun h => hpin h.1)) fun hpin => ?_
  by_cases hfence : o.fence ≠ 0
  · rw [showImage_fence hfence]
    exact .error hfence (.shown hpinned.unpin (hshown fun h => hfence h.2.1))
  rw [showImage_active (s := { s with pins := update s.pins b (s.pins b + 1) })
    (not_not.mp hfence) hact,
    overlayContinue_eq (s := { s with pins := update s.pins b (s.pins b + 1) }) hact]
  refine .ite (fun hring => ?_) fun hring => .ite (fun hadd => ?_) fun hadd => .ok ?_
  · exact .shown hpinned.unpin (hshown fun h => hring h.2.2.1)
  · exact .shown hpinned.unpin (hshown fun h => hadd h.2.2.2)
  · exact .flip (s := { s with pins := update s.pins b (s.pins b + 1) }) hpinned hact hcrtc hold
      (htail hpin (not_not.mp hfence) ⟨hring, hadd⟩)

/-- The rest of a put-image on a crtc the overlay is on. -/
theorem doPutImage_off (hs : Sound 0 (single b) s) (hp : Phase.off.Is s) (hcrtc : s.crtc ≠ none)
    (o : PutImageOutcome) (hon : o.pin = 0 → o.fence = 0 →
      o.turnOn.ring = 0 ∧ o.turnOn.add = 0 ∧ (o.turnOn.wait = 0 → o.Flips)) :
    Placed b (doPutImage b o s) := by
  unfold doPutImage
  rw [run_check, releaseOldVid_none hp.2.2.1]
  exact pinImage_off hs hp hcrtc o hon

theorem doPutImage_started (hs : Sound 0 (single b) s) (hp : Phase.started.Is s)
    (o : PutImageOutcome) (hfirst : o.pin = 0 ∧ o.fence = 0 ∧ o.Flips) :
    Placed b (doPutImage b o s) := by
  obtain ⟨hact, hcrtc, -, hold, hl, htail⟩ := hp
  unfold doPutImage
  rw [run_check, releaseOldVid_none hold]
  exact pinImage_active hs hact hcrtc hold hl o (fun _ => hfirst) fun _ _ _ => htail

theorem doPutImage_shown (hs : Sound 0 (single b) s) (hp : Phase.shown.Is s) (o : PutImageOutcome)
    (hflip : s.CanRelease o.pending o.release → o.pin = 0 → o.fence = 0 → o.Flips →
      s.flipTail = none ∧ (s.oldVidBo = none ∨ o.pending = false)) :
    Placed b (doPutImage b o s) := by
  refine (releaseOldVid_spec hs hp o.pending o.release).check ?_
  rintro t ⟨hcan, hsound, ⟨hact, hcrtc, hvid, hl⟩, hold, -, htail⟩
  refine pinImage_active hsound hact hcrtc hold hl o (fun h => absurd h hvid)
    fun hpin hfence hflips => ?_
  obtain ⟨ht, hfast⟩ := hflip hcan hpin hfence hflips
  exact htail ht hfast

/-! ### Put-image -/

/-- A shown overlay, or one that is off, comes to its new crtc switched off. -/
theorem moveToCrtc_spec (hs : Sound P R s) (hp : Phase.off.Is s ∨ Phase.shown.Is s) (c : ℕ)
    (o : PutImageOutcome) :
    Returns (Resting P R) (fun t => ((s.active = true →
        s.CanRelease o.switchOff.pending o.switchOff.release ∧ o.switchOff.off.Ok) ∧
        o.possible = 0) ∧ Sound P R t ∧ Phase.off.Is t ∧ t.crtc = some c)
      (moveToCrtc c o s) := by
  have hl : s.lastFlipReq = none := hp.elim (fun h => h.2.2.2) fun h => h.2.2.2
  have hoff : switchOff o.switchOff s = stopOverlay o.switchOff s := by
    unfold switchOff
    rw [run_check, recover_none hl, if_neg (not_not.mpr rfl)]
  unfold moveToCrtc
  refine .check (hoff ▸ stopOverlay_spec hs hp o.switchOff) ?_
  rintro t ⟨hcan, hsound, hoff⟩
  exact .guard (fun _ => .off hsound hoff) fun hposs =>
    .ok ⟨⟨hcan, hposs⟩, hsound.congr rfl rfl rfl rfl rfl rfl, hoff, rfl⟩

/-- A put-image once nothing is outstanding. -/
theorem placeImage_spec (hs : Sound 0 (single b) s)
    (hp : Phase.off.Is s ∨ Phase.started.Is s ∨ Phase.shown.Is s) (o : PutImageOutcome)
    (hc : o.Clean s c) : Placed b (placeImage c b o s) := by
  unfold placeImage
  rw [run_get_bind]
  by_cases hcrtc : s.crtc = some c
  · -- the overlay stays on its crtc
    have hsome : s.crtc ≠ none := by
      rw [hcrtc]
      exact Option.some_ne_none c
    rw [if_neg (not_not.mpr hcrtc)]
    refine .guard (fun hcheck => ?_) fun hcheck => ?_
    · rcases hp with hoff | hstarted | hshown
      · exact .off hs hoff
      · exact absurd (hc.first hstarted.1 hstarted.2.2.1).2.1 hcheck
      · exact .shown hs hshown
    have harrives : s.CanRelease o.pending o.release → o.pin = 0 → o.fence = 0 → o.Arrives s c :=
      fun hcan hpin hfence => ⟨fun h => absurd hcrtc h, fun _ => hcan, hcheck, hpin, hfence⟩
    rcases hp with hoff | hstarted | hshown
    · refine doPutImage_off hs hoff hsome o fun hpin hfence => ?_
      exact hc.turnOn (harrives (.inl hoff.2.2.1) hpin hfence) (.inl hoff.1)
    · obtain ⟨-, -, hpin, hfence, hflips⟩ := hc.first hstarted.1 hstarted.2.2.1
      exact doPutImage_started hs hstarted o ⟨hpin, hfence, hflips⟩
    · refine doPutImage_shown hs hshown o fun hcan hpin hfence hflips => ?_
      exact hc.flip (harrives hcan hpin hfence) hshown.1 hcrtc hflips
  · -- it moves, and is switched off for that
    have hp' : Phase.off.Is s ∨ Phase.shown.Is s := by
      rcases hp with hoff | hstarted | hshown
      · exact .inl hoff
      · exact absurd (hc.first hstarted.1 hstarted.2.2.1).1 hcrtc
      · exact .inr hshown
    rw [if_pos hcrtc]
    refine (moveToCrtc_spec hs hp' c o).check ?_
    rintro t ⟨hmoved, hsound, hoff, hnew⟩
    refine .guard (fun _ => .off hsound hoff) fun hcheck => ?_
    refine doPutImage_off hsound hoff (by rw [hnew]; exact Option.some_ne_none c) o
      fun hpin hfence => ?_
    exact hc.turnOn ⟨fun _ => hmoved, fun h => absurd h hcrtc, hcheck, hpin, hfence⟩ (.inr hcrtc)

/-- The rules speak of what a request sees only. -/
theorem Agrees.clean (h : Agrees s t) (hc : o.Clean s c) : o.Clean t c := by
  have hcan : ∀ pending o, s.CanRelease pending o ↔ t.CanRelease pending o := by
    intro pending o
    unfold IntelOverlay.CanRelease
    rw [h.oldVidBo]
  have harrives : o.Arrives t c → o.Arrives s c := by
    intro ha
    refine ⟨fun hne => ?_, fun heq => (hcan _ _).mpr (ha.stayed (h.crtc ▸ heq)), ha.check, ha.pin,
      ha.fence⟩
    obtain ⟨hoff, hposs⟩ := ha.moved (h.crtc ▸ hne)
    refine ⟨fun hact => ?_, hposs⟩
    obtain ⟨hrel, hok⟩ := hoff (h.active ▸ hact)
    exact ⟨(hcan _ _).mpr hrel, hok⟩
  refine ⟨fun hact hvid => ?_, fun ha hoff => ?_, fun ha hact hcrtc hflips => ?_⟩
  · rw [h.crtc]
    exact hc.first (h.active ▸ hact) (h.vidBo ▸ hvid)
  · refine hc.turnOn (harrives ha) ?_
    rwa [h.active, h.crtc] at hoff
  · rw [h.flipTail, h.oldVidBo]
    exact hc.flip (harrives ha) (h.active ▸ hact) (h.crtc ▸ hcrtc) hflips

theorem putImageLocked_spec (h : Resting 0 (single b) s) (o : PutImageOutcome)
    (hc : o.tiled = false → s.lastFlipReq = none ∨ o.recover = 0 → o.Clean s.done c) :
    Placed b (putImageLocked c b o s) := by
  unfold putImageLocked
  cases htiled : o.tiled with
  | true => exact .error (by decide : (eInval : ℤ) ≠ 0) h
  | false =>
    rw [if_neg (by decide)]
    refine ((recover_spec h o.recover).imp (fun t ht => ht ▸ h) fun _ => id).check ?_
    rintro t ⟨hwaited, hsound, hrec⟩
    exact placeImage_spec hsound hrec.phase o (hrec.agrees.clean (hc htiled hwaited))

theorem Phase.Is.setRefs {p : Phase} (h : p.Is s) (refs : ℕ → ℤ) :
    p.Is { s with refs := refs } := by
  cases p <;> exact h

theorem Resting.reference (h : Resting 0 0 s) (b : ℕ) :
    Resting 0 (single b) { s with refs := update s.refs b (s.refs b + 1) } := by
  obtain ⟨hs, p, hne, hp⟩ := h
  exact ⟨hs.reference b, p, hne, hp.setRefs _⟩

theorem Resting.unreference (h : Resting 0 (single b) s) : Resting 0 0 (s.unreference b) := by
  obtain ⟨hs, p, hne, hp⟩ := h
  exact ⟨hs.unreference, p, hne, hp.setRefs _⟩

/-- A put-image that keeps to the rules. -/
theorem putImage_spec (h : Resting 0 0 s) (c b : ℕ) (o : PutImageOutcome)
    (hc : o.lookup = 0 → o.tiled = false → s.lastFlipReq = none ∨ o.recover = 0 →
      o.Clean s.done c) : Resting 0 0 (putImage c b o s).2 := by
  by_cases hlookup : o.lookup ≠ 0
  · have heq : putImage c b o s = (o.lookup, s) := by
      unfold putImage
      rw [if_pos hlookup, run_pure]
    rw [heq]
    exact h
  obtain ⟨u, hu⟩ : ∃ u, u = { s with refs := update s.refs b (s.refs b + 1) } := ⟨_, rfl⟩
  have hput : (putImage c b o s).2 =
      if (putImageLocked c b o u).1 ≠ 0 then (putImageLocked c b o u).2.unreference b
      else (putImageLocked c b o u).2 := by
    unfold putImage
    rw [if_neg hlookup, run_bind, run_modify, ← hu, run_bind]
    split_ifs <;> rfl
  have hrest : Resting 0 (single b) u := hu ▸ h.reference b
  have hdone : Agrees s.done u.done := by
    rw [hu]
    unfold IntelOverlay.done
    constructor <;> (dsimp only; split <;> rfl)
  have hplaced : Placed b (putImageLocked c b o u) :=
    putImageLocked_spec hrest o fun htiled hwaited =>
      hdone.clean (hc (not_not.mp hlookup) htiled (by rwa [hu] at hwaited))
  rw [hput]
  split_ifs with hret
  · exact (hplaced.fails hret).unreference
  · exact hplaced.succeeds (not_not.mp hret)

/-! ### Runs -/

theorem Resting.apply {a : OverlayAction} (h : Resting 0 0 s) (hc : a.Clean s) :
    Resting 0 0 (a.apply s) := by
  cases a with
  | putImage crtc newBo o => exact putImage_spec h crtc newBo o hc
  | switchOff o => exact switchOff_spec h o hc
  | dpmsOff crtc o =>
    unfold OverlayAction.apply
    dsimp only
    split_ifs with hcrtc
    · exact switchOff_spec h o (hc hcrtc)
    · exact h

theorem Resting.overlayOk (h : Resting 0 0 s) : OverlayOk s := by
  obtain ⟨hs, p, hne, hp⟩ := h
  have hpins : ∀ b, s.pins b = s.own b := fun b => (hs.pins b).trans (Int.add_zero _)
  have hrefs : ∀ b, s.refs b = s.own b := fun b => (hs.refs b).trans (Int.add_zero _)
  refine ⟨fun hact => ?_, hpins, hrefs, fun hoff b => ?_, hs.bug, hs.stray⟩
  · cases p with
    | off => exact absurd (hp.1.symm.trans hact) (by decide)
    | started => exact absurd rfl hne
    | starting => exact .inr hp.2.2.2.2.1
    | shown | flipping | releasing | stopping => exact .inl hp.2.2.1
  · cases p with
    | off =>
      have hown : s.own b = 0 := by
        rw [own_eq, hp.2.1, hp.2.2.1]
        rfl
      rw [hpins, hrefs, hown]
      exact ⟨rfl, rfl⟩
    | starting | started | shown | flipping | releasing | stopping =>
      exact absurd (hoff.symm.trans hp.1) (by decide)

/-- While every turn-on is submitted and followed by a frame and no frame is flipped over a callback
that is left, the overlay never stays on without a frame, gives every buffer back once and meets no
BUG_ON. -/
theorem overlay_ok (h : ReachWhile overlaySystem (fun s a => a.Clean s) s) : OverlayOk s := by
  refine Resting.overlayOk (h.invariant (I := Resting 0 0) (fun s hs => ?_) fun s a s' hr hc hs => ?_)
  · rw [hs]
    exact .off ⟨rfl, rfl, fun _ => rfl, fun _ => rfl⟩ ⟨rfl, rfl, rfl, rfl⟩
  · rw [hs]
    exact hr.apply hc

/-! ### Computed runs -/

instance (o : RequestOutcome) : Decidable o.Ok := inferInstanceAs (Decidable (_ ∧ _))

instance (o : PutImageOutcome) : Decidable o.Flips := inferInstanceAs (Decidable (_ ∧ _))

instance (s : IntelOverlay) (pending : Bool) (o : RequestOutcome) :
    Decidable (s.CanRelease pending o) := inferInstanceAs (Decidable (_ ∨ _))

instance (s : IntelOverlay) (c : ℕ) (o : PutImageOutcome) : Decidable (o.Arrives s c) :=
  decidable_of_iff' _ (PutImageOutcome.arrives_iff s c o)

instance (s : IntelOverlay) (c : ℕ) (o : PutImageOutcome) : Decidable (o.Clean s c) :=
  have : Decidable (s.active = false ∨ s.crtc ≠ some c →
      o.turnOn.ring = 0 ∧ o.turnOn.add = 0 ∧ (o.turnOn.wait = 0 → o.Flips)) := inferInstance
  have : Decidable (s.active = true → s.crtc = some c → o.Flips →
      s.flipTail = none ∧ (s.oldVidBo = none ∨ o.pending = false)) := inferInstance
  decidable_of_iff
    ((s.active = true → s.vidBo = none →
        s.crtc = some c ∧ o.check = 0 ∧ o.pin = 0 ∧ o.fence = 0 ∧ o.Flips) ∧
      (o.Arrives s c → s.active = false ∨ s.crtc ≠ some c →
        o.turnOn.ring = 0 ∧ o.turnOn.add = 0 ∧ (o.turnOn.wait = 0 → o.Flips)) ∧
      (o.Arrives s c → s.active = true → s.crtc = some c → o.Flips →
        s.flipTail = none ∧ (s.oldVidBo = none ∨ o.pending = false)))
    ⟨fun h => ⟨h.1, h.2.1, h.2.2⟩, fun h => ⟨h.first, h.turnOn, h.flip⟩⟩

instance (s : IntelOverlay) : Decidable (SwitchOffOutcome.Clean s) :=
  inferInstanceAs (Decidable (_ → _))

instance (s : IntelOverlay) (a : OverlayAction) : Decidable (a.Clean s) :=
  match a with
  | .putImage c _ o => inferInstanceAs (Decidable (_ → _))
  | .switchOff o => inferInstanceAs (Decidable (_ → _))
  | .dpmsOff crtc o => inferInstanceAs (Decidable (_ → _))

theorem overlayRun_reach (guard : IntelOverlay → OverlayAction → Prop) (l : List OverlayAction)
    (h : AllAllowed guard (fun s a => OverlayAction.apply s a) l {}) :
    ReachWhile overlaySystem guard (l.foldl (fun s a => OverlayAction.apply s a) {}) :=
  ReachWhile.foldl (S := overlaySystem) _ (fun _ _ hs => ⟨hs, rfl⟩) l (.init rfl) h

/-- A turn-on interrupted and resumed, two more frames, a switch-off interrupted and resumed. -/
def resumedRun : List OverlayAction :=
  [.putImage 0 7 { turnOn := { wait := eIntr } }, .putImage 0 7 {}, .putImage 0 8 {},
    .putImage 0 9 {}, .switchOff { off := { wait := eIntr } }, .switchOff {}]

theorem overlay_ok_resumed :
    OverlayOk (resumedRun.foldl (fun s a => OverlayAction.apply s a) {}) :=
  overlay_ok (overlayRun_reach _ _ (by decide))

/-- A turn-on is interrupted, and the next request is to switch the overlay off. -/
theorem overlay_off_without_frame : ¬ ∀ s, Reach overlaySystem s → OverlayOk s := by
  intro hall
  have hok := hall _ (overlayRun_reach _
    [.putImage 0 7 { turnOn := { wait := eIntr } }, .switchOff {}] ⟨trivial, trivial, trivial⟩)
  exact absurd hok.bug (by decide)

end GfxDrm.Overlay
