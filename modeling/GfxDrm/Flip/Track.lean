import GfxDrm.Flip.Defs

/-! What crtcs, requests and works hold of pins, references and counts. -/

namespace GfxDrm.Flip
open Function Kref FlipState

variable {n : ℕ} {s s' : FlipState n} {c c' : Fin n} {x : FlipCrtc n} {w : UnpinWork n}
  {r : Request} {o : ℕ}

/-! ### Shares -/

/-- The request that has taken its references and is under struct_mutex. -/
def FlipCrtc.inSection (x : FlipCrtc n) : Option Request :=
  x.request.filter fun r => r.stage = .referenced || r.stage = .failed

/-- The pins a crtc has of an object: for what it shows, or for what it showed before a request
that is not through, and for what its flip is from. -/
def FlipCrtc.pinsOf (x : FlipCrtc n) (o : ℕ) : ℕ :=
  points ((x.inSection.map fun r => r.oldFb.obj).or
    (x.fb.map Framebuffer.obj)) o + points (x.flying.map UnpinWork.oldFbObj) o

def FlipCrtc.refsOf (x : FlipCrtc n) (o : ℕ) : ℕ :=
  points (x.inSection.map fun r => r.oldFb.obj) o + points (x.inSection.map fun r => r.fb.obj) o +
    (points (x.flying.map UnpinWork.oldFbObj) o + points (x.flying.map UnpinWork.pendingFlipObj) o)

/-- No work, or one whose flip was accepted. -/
def FlipCrtc.Settled (x : FlipCrtc n) (c : Fin n) : Prop :=
  ∀ w, x.unpinWork = some w → w.crtc = c ∧ w.pending ≠ 0

/-- The work is the request's, and no interrupt looks at it yet. -/
def FlipCrtc.Claims (x : FlipCrtc n) (c : Fin n) (r : Request) : Prop :=
  ∃ w, x.unpinWork = some w ∧ w.crtc = c ∧ w.pending = 0 ∧ w.oldFbObj = r.oldFb.obj ∧
    w.pendingFlipObj = r.fb.obj

/-- What a crtc's fields are at each stage of its request. -/
def FlipCrtc.At (x : FlipCrtc n) (c : Fin n) (lock : Option (Fin n)) (r : Request) : Stage → Prop
  | .got | .busy | .cleared => x.Settled c ∧ x.fb = some r.oldFb
  | .claimed | .cleaned => x.Claims c r ∧ x.fb = some r.oldFb
  | .referenced | .failed => x.Claims c r ∧ x.fb = some r.fb ∧ lock = some c

def FlipCrtc.Fits (x : FlipCrtc n) (c : Fin n) (lock : Option (Fin n)) : Prop :=
  match x.request with
  | none => x.Settled c
  | some r => x.At c lock r r.stage

/-! ### The invariant -/

structure Inv (s : FlipState n) : Prop where
  fits : ∀ c, (s.crtcs c).Fits c s.structMutex
  lock : ∀ c, s.structMutex = some c → (s.crtcs c).inSection ≠ none
  pins : ∀ o, s.pins o = ∑ c, (s.crtcs c).pinsOf o + s.queue.countP fun w => w.oldFbObj = o
  refs : ∀ o, s.refs o = ∑ c, (s.crtcs c).refsOf o +
    ((s.queue.countP fun w => w.oldFbObj = o) + s.queue.countP fun w => w.pendingFlipObj = o)
  counts : ∀ c, (s.crtcs c).unpinWorkCount = (s.crtcs c).inSection.isSome.toNat +
    (s.crtcs c).flying.isSome.toNat + (s.queue ++ s.running).countP fun w => w.crtc = c
  vblank : ∀ c, (s.crtcs c).vblankRefs =
    (s.crtcs c).request.isSome.toNat + (s.crtcs c).flying.isSome.toNat
  kept : s.fbLost = false
  bug : s.bug = false

theorem FlipCrtc.Fits.congr_lock {lock lock' : Option (Fin n)} (h : x.Fits c lock)
    (hlock : lock = some c → lock' = some c) : x.Fits c lock' := by
  unfold FlipCrtc.Fits at h ⊢
  split at h
  · exact h
  · rename_i r _
    generalize r.stage = stage at h ⊢
    cases stage <;> first | exact h | exact ⟨h.1, h.2.1, hlock h.2.2⟩

/-- One crtc changes, and its shares with it. -/
theorem Inv.step (h : Inv s) (hcrtcs : s'.crtcs = update s.crtcs c x)
    (hfits : x.Fits c s'.structMutex)
    (hlock : ∀ c', c' ≠ c → (s'.structMutex = some c' ↔ s.structMutex = some c'))
    (hself : s'.structMutex = some c → x.inSection ≠ none)
    (hpins : ∀ o, s'.pins o + (s.crtcs c).pinsOf o + (s.queue.countP fun w => w.oldFbObj = o) =
      s.pins o + x.pinsOf o + s'.queue.countP fun w => w.oldFbObj = o)
    (hrefs : ∀ o, s'.refs o + (s.crtcs c).refsOf o + ((s.queue.countP fun w => w.oldFbObj = o) +
        s.queue.countP fun w => w.pendingFlipObj = o) =
      s.refs o + x.refsOf o + ((s'.queue.countP fun w => w.oldFbObj = o) +
        s'.queue.countP fun w => w.pendingFlipObj = o))
    (hcount : x.unpinWorkCount = x.inSection.isSome.toNat + x.flying.isSome.toNat +
      (s'.queue ++ s'.running).countP fun w => w.crtc = c)
    (hworks : ∀ c', c' ≠ c → ((s'.queue ++ s'.running).countP fun w => decide (w.crtc = c')) =
      (s.queue ++ s.running).countP fun w => decide (w.crtc = c'))
    (hvblank : x.vblankRefs = x.request.isSome.toNat + x.flying.isSome.toNat)
    (hkept : s'.fbLost = false) (hbug : s'.bug = false) : Inv s' := by
  have hother : ∀ c', c' ≠ c → s'.crtcs c' = s.crtcs c' := fun c' hne => by
    rw [hcrtcs, update_of_ne hne]
  have hx : s'.crtcs c = x := by rw [hcrtcs, update_self]
  refine ⟨fun c' => ?_, fun c' hc' => ?_, fun o => ?_, fun o => ?_, fun c' => ?_, fun c' => ?_,
    hkept, hbug⟩
  · by_cases hcc : c' = c
    · rw [hcc, hx]
      exact hfits
    · rw [hother c' hcc]
      exact (h.fits c').congr_lock (hlock c' hcc).mpr
  · by_cases hcc : c' = c
    · rw [hcc, hx]
      exact hself (hcc ▸ hc')
    · rw [hother c' hcc]
      exact h.lock c' ((hlock c' hcc).mp hc')
  · have hsum := Census.sum_change (fun c => (s.crtcs c).pinsOf o) (fun c => (s'.crtcs c).pinsOf o) c
      fun c' hcc => by rw [hother c' hcc]
    have hold := h.pins o
    have hnew := hpins o
    simp only [hx] at hsum
    omega
  · have hsum := Census.sum_change (fun c => (s.crtcs c).refsOf o) (fun c => (s'.crtcs c).refsOf o) c
      fun c' hcc => by rw [hother c' hcc]
    have hold := h.refs o
    have hnew := hrefs o
    simp only [hx] at hsum
    omega
  · by_cases hcc : c' = c
    · rw [hcc, hx]
      exact hcount
    · rw [hother c' hcc, hworks c' hcc]
      exact h.counts c'
  · by_cases hcc : c' = c
    · rw [hcc, hx]
      exact hvblank
    · rw [hother c' hcc]
      exact h.vblank c'

theorem Inv.pins_ge (h : Inv s) (c : Fin n) (o : ℕ) : (s.crtcs c).pinsOf o ≤ s.pins o := by
  rw [h.pins o]
  exact Nat.le_trans (Census.le_sum (fun c => (s.crtcs c).pinsOf o) c) (Nat.le_add_right ..)

theorem Inv.refs_ge (h : Inv s) (c : Fin n) (o : ℕ) : (s.crtcs c).refsOf o ≤ s.refs o := by
  rw [h.refs o]
  exact Nat.le_trans (Census.le_sum (fun c => (s.crtcs c).refsOf o) c) (Nat.le_add_right ..)

/-- The queue and struct_mutex stay as they are. -/
theorem Inv.inPlace (h : Inv s) (hcrtcs : s'.crtcs = update s.crtcs c x)
    (hfits : x.Fits c s.structMutex) (hlock : s'.structMutex = s.structMutex)
    (hsection : x.inSection = (s.crtcs c).inSection ∨ x.inSection ≠ none)
    (hqueue : s'.queue = s.queue) (hrunning : s'.running = s.running)
    (hpins : ∀ o, s'.pins o + (s.crtcs c).pinsOf o = s.pins o + x.pinsOf o)
    (hrefs : ∀ o, s'.refs o + (s.crtcs c).refsOf o = s.refs o + x.refsOf o)
    (hcount : x.unpinWorkCount + (s.crtcs c).inSection.isSome.toNat +
        (s.crtcs c).flying.isSome.toNat =
      (s.crtcs c).unpinWorkCount + x.inSection.isSome.toNat + x.flying.isSome.toNat)
    (hvblank : x.vblankRefs = x.request.isSome.toNat + x.flying.isSome.toNat)
    (hkept : s'.fbLost = false) (hbug : s'.bug = false) : Inv s' := by
  have hold := h.counts c
  refine h.step hcrtcs (hlock ▸ hfits) (fun _ _ => by rw [hlock]) (fun hc => ?_)
    (fun o => by rw [hqueue, hpins o]) (fun o => by rw [hqueue, hrefs o]) ?_
    (fun _ _ => by rw [hqueue, hrunning]) hvblank hkept hbug
  · rcases hsection with heq | hne
    · rw [heq]
      exact h.lock c (hlock ▸ hc)
    · exact hne
  · rw [hqueue, hrunning]
    omega

/-! ### Requests -/

/-- A pin more of one object. -/
theorem pins_added (f : ℕ → ℕ) (o' o : ℕ) : update f o' (f o' + 1) o = f o + points (some o') o := by
  by_cases ho : o = o'
  · rw [ho, update_self, points_self]
  · rw [update_of_ne ho, points_some_of_ne ho]
    rfl

/-- A pin less, where there is one. -/
theorem pins_dropped (f : ℕ → ℕ) {o' : ℕ} (hpos : 0 < f o') (o : ℕ) :
    update f o' (f o' - 1) o + points (some o') o = f o := by
  by_cases ho : o = o'
  · rw [ho, update_self, points_self]
    omega
  · rw [update_of_ne ho, points_some_of_ne ho]
    rfl

theorem Inv.pageFlip (h : Inv s) {fb : Framebuffer} {event : Option ℕ} {alloc vblank : Bool}
    (hnone : (s.crtcs c).request = none) : Inv (s.intelCrtcPageFlip c fb event alloc vblank) := by
  unfold intelCrtcPageFlip
  cases hfb : (s.crtcs c).fb with
  | none => exact h
  | some oldFb =>
    dsimp only
    split
    · exact h
    · split
      · exact h
      · split
        · exact h
        · have hsettled : (s.crtcs c).Settled c := by
            have hfits := h.fits c
            unfold FlipCrtc.Fits at hfits
            rwa [hnone] at hfits
          have hsec : (s.crtcs c).inSection = none := by rw [FlipCrtc.inSection, hnone]; rfl
          refine h.inPlace rfl ⟨hsettled, hfb⟩ rfl (.inl ?_) rfl rfl (fun o => ?_) (fun o => ?_) ?_ ?_
            h.kept h.bug
          · rw [hsec]
            rfl
          · rw [FlipCrtc.pinsOf, hsec]
            rfl
          · rw [FlipCrtc.refsOf, hsec]
            rfl
          · rw [hsec]
            rfl
          · have hold := h.vblank c
            rw [hnone] at hold
            show (s.crtcs c).vblankRefs + 1 = 1 + (s.crtcs c).flying.isSome.toNat
            rw [hold]
            simp only [Option.isSome_none, Bool.toNat_false]
            omega

theorem Inv.fits_at (h : Inv s) {stage : Stage} (hr : (s.crtcs c).request = some r)
    (hstage : r.stage = stage) : (s.crtcs c).At c s.structMutex r stage := by
  have hfits := h.fits c
  unfold FlipCrtc.Fits at hfits
  rw [hr] at hfits
  exact hstage ▸ hfits

theorem inSection_some (hr : x.request = some r) (hstage : r.stage = .referenced ∨ r.stage = .failed) :
    x.inSection = some r := by
  rw [FlipCrtc.inSection, hr]
  rcases hstage with hstage | hstage <;> simp [hstage]

/-- While a request holds struct_mutex, its crtc holds pins and references through it alone. -/
theorem inSection_shares (hsec : x.inSection = some r) (hflying : x.flying = none) (o : ℕ) :
    x.pinsOf o = points (some r.oldFb.obj) o ∧
      x.refsOf o = points (some r.oldFb.obj) o + points (some r.fb.obj) o := by
  rw [FlipCrtc.pinsOf, FlipCrtc.refsOf, hsec, hflying]
  exact ⟨rfl, rfl⟩

theorem outside_shares (hsec : x.inSection = none) {fb : Framebuffer} (hfb : x.fb = some fb)
    (o : ℕ) : x.pinsOf o = points (some fb.obj) o + points (x.flying.map UnpinWork.oldFbObj) o ∧
      x.refsOf o = points (x.flying.map UnpinWork.oldFbObj) o +
        points (x.flying.map UnpinWork.pendingFlipObj) o := by
  rw [FlipCrtc.pinsOf, FlipCrtc.refsOf, hsec, hfb]
  exact ⟨rfl, by simp⟩

theorem inSection_none (hr : x.request = some r) (h₁ : r.stage ≠ .referenced)
    (h₂ : r.stage ≠ .failed) : x.inSection = none := by
  rw [FlipCrtc.inSection, hr]
  simp [h₁, h₂]

theorem FlipCrtc.Claims.flying (hx : x.Claims c r) : x.flying = none := by
  obtain ⟨w, hw, -, hpending, -, -⟩ := hx
  rw [FlipCrtc.flying, hw]
  simp [hpending]

section nextStep
variable (h : Inv s) (hr : (s.crtcs c).request = some r)
include h hr

variable {y : FlipCrtc n}

/-- A request moves to another stage out of struct_mutex. -/
theorem Inv.moveTo {stage : Stage} (hsec : (s.crtcs c).inSection = none) (h₁ : stage ≠ .referenced)
    (h₂ : stage ≠ .failed) (hy : y.request = some { r with stage := stage })
    (hfits : y.Fits c s.structMutex) (hfb : y.fb = (s.crtcs c).fb)
    (hflying : y.flying = (s.crtcs c).flying)
    (hcount : y.unpinWorkCount = (s.crtcs c).unpinWorkCount)
    (hvbl : y.vblankRefs = (s.crtcs c).vblankRefs) : Inv (s.setCrtc c y) := by
  have hsec' : y.inSection = none := inSection_none hy h₁ h₂
  refine h.inPlace rfl hfits rfl (.inl (hsec'.trans hsec.symm)) rfl rfl (fun o => ?_) (fun o => ?_)
    ?_ ?_ h.kept h.bug
  · show s.pins o + _ = s.pins o + _
    rw [FlipCrtc.pinsOf, FlipCrtc.pinsOf, hsec, hsec', hfb, hflying]
  · show s.refs o + _ = s.refs o + _
    rw [FlipCrtc.refsOf, FlipCrtc.refsOf, hsec, hsec', hflying]
  · rw [hsec, hsec', hcount, hflying]
  · rw [hvbl, h.vblank c, hr, hy, hflying]
    rfl

/-- The vblank reference of a request that fails is dropped with it. -/
theorem Inv.endRequest (hsec : (s.crtcs c).inSection = none)
    (hsettled : (s.crtcs c).Settled c) (hfb : (s.crtcs c).fb = some r.oldFb) :
    Inv { (s.drmVblankPut c).setCrtc c { (s.drmVblankPut c).crtcs c with request := none } with
      fbLost := s.fbLost || decide (((s.drmVblankPut c).crtcs c).fb ≠ some r.oldFb) } := by
  have hkept : ((s.drmVblankPut c).crtcs c).fb = some r.oldFb := by
    show (update s.crtcs c _ c).fb = some r.oldFb
    rw [update_self]
    exact hfb
  have hvbl := h.vblank c
  rw [hr] at hvbl
  simp only [Option.isSome_some, Bool.toNat_true] at hvbl
  have hcrtcs : ((s.drmVblankPut c).setCrtc c
      { (s.drmVblankPut c).crtcs c with request := none }).crtcs = update s.crtcs c
        { s.crtcs c with vblankRefs := (s.crtcs c).vblankRefs - 1, request := none } := by
    simp only [drmVblankPut, setCrtc, update_self, update_idem]
  refine h.inPlace hcrtcs hsettled rfl (.inl hsec.symm) rfl rfl (fun o => ?_) (fun o => ?_) ?_ ?_
    ?_ ?_
  · rw [FlipCrtc.pinsOf, hsec]
    rfl
  · rw [FlipCrtc.refsOf, hsec]
    rfl
  · rw [hsec]
    rfl
  · show (s.crtcs c).vblankRefs - 1 = 0 + (s.crtcs c).flying.isSome.toNat
    omega
  · rw [h.kept, decide_eq_false (not_not.mpr hkept)]
    rfl
  · show (s.bug || decide ((s.crtcs c).vblankRefs = 0)) = false
    rw [h.bug, decide_eq_false (by omega)]
    rfl

/-- The references are taken, under struct_mutex. -/
theorem Inv.reference (hstage : r.stage = .claimed) (hfree : s.structMutex = none)
    (hcrtcs : s'.crtcs = update s.crtcs c y)
    (hreq : y.request = some { r with stage := .referenced }) (hyfb : y.fb = some r.fb)
    (hwork : y.unpinWork = (s.crtcs c).unpinWork)
    (hcount : y.unpinWorkCount = (s.crtcs c).unpinWorkCount + 1)
    (hvbl : y.vblankRefs = (s.crtcs c).vblankRefs) (hpins : s'.pins = s.pins)
    (hlock : s'.structMutex = some c)
    (hrefs : ∀ o, s'.refs o = s.refs o + points (some r.oldFb.obj) o + points (some r.fb.obj) o)
    (hqueue : s'.queue = s.queue) (hrunning : s'.running = s.running) (hkept : s'.fbLost = s.fbLost)
    (hbug : s'.bug = s.bug) : Inv s' := by
  obtain ⟨hclaims, hfb⟩ := h.fits_at hr hstage
  have hsec : (s.crtcs c).inSection = none := inSection_none hr (by simp [hstage]) (by simp [hstage])
  have hsec' : y.inSection = some { r with stage := .referenced } := inSection_some hreq (.inl rfl)
  have hflying := hclaims.flying
  have hclaims' : y.Claims c { r with stage := .referenced } := by
    obtain ⟨w, hw⟩ := hclaims
    exact ⟨w, by rw [hwork]; exact hw⟩
  have hold := h.counts c
  rw [hsec, hflying] at hold
  refine h.step hcrtcs ?_ (fun c' hne => ?_) (fun _ => ?_) (fun o => ?_) (fun o => ?_) ?_
    (fun _ _ => by rw [hqueue, hrunning]) ?_ (hkept.trans h.kept) (hbug.trans h.bug)
  · unfold FlipCrtc.Fits
    rw [hreq]
    exact ⟨hclaims', hyfb, hlock⟩
  · rw [hlock, hfree]
    constructor
    · intro heq
      exact (hne (Option.some.inj heq).symm).elim
    · intro heq
      cases heq
  · rw [hsec']
    exact Option.some_ne_none _
  · rw [hqueue, hpins, (outside_shares hsec hfb o).1, hflying,
      (inSection_shares hsec' hclaims'.flying o).1]
    rfl
  · rw [hqueue, hrefs, (outside_shares hsec hfb o).2, hflying,
      (inSection_shares hsec' hclaims'.flying o).2]
    simp only [Option.map_none, points_none]
    omega
  · rw [hqueue, hrunning, hsec', hclaims'.flying, hcount, hold]
    simp only [Option.isSome_some, Option.isSome_none, Bool.toNat_true, Bool.toNat_false]
    omega
  · rw [hvbl, h.vblank c, hr, hreq, hflying, hclaims'.flying]
    rfl

/-- queue_flip fails, and takes back its pin. -/
theorem Inv.flipFailed (hstage : r.stage = .referenced) (hcrtcs : s'.crtcs = update s.crtcs c y)
    (hreq : y.request = some { r with stage := .failed }) (hyfb : y.fb = (s.crtcs c).fb)
    (hwork : y.unpinWork = (s.crtcs c).unpinWork)
    (hcount : y.unpinWorkCount = (s.crtcs c).unpinWorkCount)
    (hvbl : y.vblankRefs = (s.crtcs c).vblankRefs) (hpins : ∀ o, s'.pins o = s.pins o)
    (hlock : s'.structMutex = s.structMutex) (hrefs : s'.refs = s.refs)
    (hqueue : s'.queue = s.queue) (hrunning : s'.running = s.running) (hkept : s'.fbLost = s.fbLost)
    (hbug : s'.bug = s.bug) : Inv s' := by
  obtain ⟨hclaims, hfb, hown⟩ := h.fits_at hr hstage
  have hsec : (s.crtcs c).inSection = some r := inSection_some hr (.inl hstage)
  have hsec' : y.inSection = some { r with stage := .failed } := inSection_some hreq (.inr rfl)
  have hflying := hclaims.flying
  have hclaims' : y.Claims c { r with stage := .failed } := by
    obtain ⟨w, hw⟩ := hclaims
    exact ⟨w, by rw [hwork]; exact hw⟩
  refine h.inPlace hcrtcs ?_ hlock (.inr (by rw [hsec']; exact Option.some_ne_none _)) hqueue
    hrunning (fun o => ?_) (fun o => ?_) ?_ ?_ (hkept.trans h.kept) (hbug.trans h.bug)
  · unfold FlipCrtc.Fits
    rw [hreq]
    exact ⟨hclaims', hyfb.trans hfb, hown⟩
  · rw [hpins, (inSection_shares hsec hflying o).1, (inSection_shares hsec' hclaims'.flying o).1]
  · rw [hrefs, (inSection_shares hsec hflying o).2, (inSection_shares hsec' hclaims'.flying o).2]
  · rw [hsec, hsec', hflying, hclaims'.flying, hcount]
    rfl
  · rw [hvbl, h.vblank c, hr, hreq, hflying, hclaims'.flying]
    rfl

/-- The flip is accepted: the request's work may now be finished. -/
theorem Inv.accepted (hstage : r.stage = .referenced) (hcrtcs : s'.crtcs = update s.crtcs c y)
    (hreq : y.request = none) (hyfb : y.fb = (s.crtcs c).fb) (hwork : y.unpinWork =
      (s.crtcs c).unpinWork.map fun w => { w with pending := intelFlipPending })
    (hcount : y.unpinWorkCount = (s.crtcs c).unpinWorkCount)
    (hvbl : y.vblankRefs = (s.crtcs c).vblankRefs)
    (hpins : ∀ o, s'.pins o = s.pins o + points (some r.fb.obj) o) (hlock : s'.structMutex = none)
    (hrefs : s'.refs = s.refs) (hqueue : s'.queue = s.queue) (hrunning : s'.running = s.running)
    (hkept : s'.fbLost = s.fbLost) (hbug : s'.bug = s.bug) :
    Inv s' := by
  obtain ⟨hclaims, hfb, hown⟩ := h.fits_at hr hstage
  have hflying := hclaims.flying
  obtain ⟨w, hw, hwc, -, hold, hnew⟩ := hclaims
  rw [hw] at hwork
  have hsec : (s.crtcs c).inSection = some r := inSection_some hr (.inl hstage)
  have hsec' : y.inSection = none := by rw [FlipCrtc.inSection, hreq]; rfl
  have hflying' : y.flying = some { w with pending := intelFlipPending } := by
    rw [FlipCrtc.flying, hwork]
    rfl
  have hc := h.counts c
  rw [hsec, hflying] at hc
  refine h.step hcrtcs ?_ (fun c' hne => ?_) (fun hself => ?_) (fun o => ?_) (fun o => ?_) ?_
    (fun _ _ => by rw [hqueue, hrunning]) ?_ (hkept.trans h.kept) (hbug.trans h.bug)
  · unfold FlipCrtc.Fits
    rw [hreq]
    intro w' hw'
    rw [hwork] at hw'
    cases hw'
    exact ⟨hwc, Nat.one_ne_zero⟩
  · rw [hlock, hown]
    constructor
    · intro heq
      cases heq
    · intro heq
      exact (hne (Option.some.inj heq).symm).elim
  · rw [hlock] at hself
    cases hself
  · rw [hqueue, hpins, (inSection_shares hsec hflying o).1,
      (outside_shares hsec' (hyfb.trans hfb) o).1, hflying']
    show _ = s.pins o + (_ + points (some w.oldFbObj) o) + _
    rw [hold]
    omega
  · rw [hqueue, hrefs, (inSection_shares hsec hflying o).2,
      (outside_shares hsec' (hyfb.trans hfb) o).2, hflying']
    show _ = s.refs o + (points (some w.oldFbObj) o + points (some w.pendingFlipObj) o) + _
    rw [hold, hnew]
  · rw [hqueue, hrunning, hsec', hflying', hcount, hc]
    rfl
  · rw [hvbl, h.vblank c, hr, hreq, hflying, hflying']
    rfl

/-- The references are dropped again. -/
theorem Inv.cleaned (hstage : r.stage = .failed) (hcrtcs : s'.crtcs = update s.crtcs c y)
    (hreq : y.request = some { r with stage := .cleaned }) (hyfb : y.fb = some r.oldFb)
    (hwork : y.unpinWork = (s.crtcs c).unpinWork)
    (hcount : y.unpinWorkCount = (s.crtcs c).unpinWorkCount - 1)
    (hvbl : y.vblankRefs = (s.crtcs c).vblankRefs) (hpins : s'.pins = s.pins)
    (hlock : s'.structMutex = none)
    (hrefs : ∀ o, s'.refs o + (points (some r.oldFb.obj) o + points (some r.fb.obj) o) = s.refs o)
    (hqueue : s'.queue = s.queue) (hrunning : s'.running = s.running) (hkept : s'.fbLost = s.fbLost)
    (hbug : s'.bug = s.bug) : Inv s' := by
  obtain ⟨hclaims, hfb, hown⟩ := h.fits_at hr hstage
  have hsec : (s.crtcs c).inSection = some r := inSection_some hr (.inr hstage)
  have hsec' : y.inSection = none := inSection_none hreq (by simp) (by simp)
  have hflying := hclaims.flying
  have hclaims' : y.Claims c { r with stage := .cleaned } := by
    obtain ⟨w, hw⟩ := hclaims
    exact ⟨w, by rw [hwork]; exact hw⟩
  have hc := h.counts c
  rw [hsec, hflying] at hc
  refine h.step hcrtcs ?_ (fun c' hne => ?_) (fun hself => ?_) (fun o => ?_) (fun o => ?_) ?_
    (fun _ _ => by rw [hqueue, hrunning]) ?_ (hkept.trans h.kept) (hbug.trans h.bug)
  · unfold FlipCrtc.Fits
    rw [hreq]
    exact ⟨hclaims', hyfb⟩
  · rw [hlock, hown]
    constructor
    · intro heq
      cases heq
    · intro heq
      exact (hne (Option.some.inj heq).symm).elim
  · rw [hlock] at hself
    cases hself
  · rw [hqueue, hpins, (inSection_shares hsec hflying o).1, (outside_shares hsec' hyfb o).1,
      hclaims'.flying]
    rfl
  · rw [hqueue, ← hrefs o, (inSection_shares hsec hflying o).2, (outside_shares hsec' hyfb o).2,
      hclaims'.flying]
    simp only [Option.map_none, points_none]
    omega
  · rw [hqueue, hrunning, hsec', hclaims'.flying, hcount, hc]
    simp only [Option.isSome_some, Option.isSome_none, Bool.toNat_true, Bool.toNat_false]
    omega
  · rw [hvbl, h.vblank c, hr, hreq, hflying, hclaims'.flying]
    rfl

end nextStep

end GfxDrm.Flip
