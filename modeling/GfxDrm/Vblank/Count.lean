import GfxDrm.Vblank.Defs

/-! The software frame count against the hardware's frames. -/

namespace GfxDrm.Vblank
open Run

/-- One crtc and its hardware. `sampledFrame` is the frame whose counter value `lastVblank`
holds and `sampledCount` the count then; `offFrame` and `offCount` are the two when the
interrupt went off, and `resampled` tells that they have parted since. -/
structure Scanout where
  crtc : Crtc := {}
  frame : ℕ := 0
  sampledFrame : ℕ := 0
  sampledCount : BitVec 32 := 0
  offFrame : ℕ := 0
  offCount : BitVec 32 := 0
  resampled : Bool := false

/-- `tick` is a new hardware frame; the loops that read the counter come with what they read. -/
inductive ScanoutEvent
  | tick
  | get (enable : ℤ) (r : List Reading)
  | put
  | timer (r : ℕ → Reading)
  | off (r : ℕ → Reading)
  | handle (t : ℤ)

/-- A counter value and the count are saved together. -/
def Scanout.save (cfg : VblankConfig) (s : Scanout) (r : ℕ → Reading) : Scanout :=
  let m := saveSample cfg s.frame r
  let c := vblankDisableAndSave cfg s.crtc m
  { crtc := c
    frame := m.frame
    sampledFrame := m.kept
    sampledCount := c.count
    offFrame := if s.crtc.enabled then m.kept else s.offFrame
    offCount := if s.crtc.enabled then c.count else s.offCount
    resampled := !s.crtc.enabled }

def scanoutStep (cfg : VblankConfig) (s : Scanout) : ScanoutEvent → Option Scanout
  | .tick => some { s with frame := s.frame + 1 }
  | .get enable r =>
    (drmVblankGet cfg s.crtc s.frame enable r).map fun (_, c, frame) =>
      { s with crtc := c, frame }
  | .put => (drmVblankPut s.crtc).map fun c => { s with crtc := c }
  | .timer r =>
    some (if s.crtc.refcount = 0 ∧ s.crtc.enabled then s.save cfg r else s)
  | .off r => some (s.save cfg r)
  | .handle t => some { s with crtc := drmHandleVblank s.crtc t }

/-- The device starts with all fields zero, in any frame. -/
abbrev scanoutSystem (cfg : VblankConfig) : System Scanout ScanoutEvent :=
  System.ofStep (fun s => ∃ n, s = { frame := n }) (scanoutStep cfg)

/-- Less than one counter period lies between the last sample and the reads of an enable. -/
def ScanoutEvent.inPeriod (cfg : VblankConfig) (s : Scanout) : ScanoutEvent → Bool
  | .get _ r => (updateRounds cfg s.frame r).all fun m => m.frame - s.sampledFrame < cfg.period
  | _ => true

/-- The counter has not wrapped since the last sample when the interrupt goes on. -/
def ScanoutEvent.unwrapped (cfg : VblankConfig) (s : Scanout) : ScanoutEvent → Bool
  | .get enable r =>
    decide (s.crtc.refcount ≠ 0) || s.crtc.enabled || decide (enable ≠ 0) ||
      (updateRounds cfg s.frame r).all fun m => s.crtc.lastVblank ≤ cfg.counter m.kept
  | _ => true

/-- What is promised of a step: the count goes forward by one frame at most or by those that
passed since the last sample, and by exactly those when the interrupt goes on. -/
structure CountOk (s s' : Scanout) : Prop where
  forward : ∃ k, k ≤ max 1 (s'.frame - s.sampledFrame) ∧
    s'.crtc.count = s.crtc.count + BitVec.ofNat 32 k
  enable : s.crtc.enabled = false → s'.crtc.enabled = true →
    s'.crtc.count = s.sampledCount + BitVec.ofNat 32 (s'.frame - s.sampledFrame)

/-! ### Counter arithmetic -/

namespace VblankConfig

variable (cfg : VblankConfig) {L F : ℕ}

theorem period_pos : 0 < cfg.period := Nat.succ_pos _

theorem period_le : cfg.period ≤ 2 ^ 32 := cfg.maxVblankCount.isLt

theorem toNat_counter (F : ℕ) : (cfg.counter F).toNat = F % cfg.period := by
  exact Nat.mod_eq_of_lt (Nat.lt_of_lt_of_le (Nat.mod_lt F cfg.period_pos) cfg.period_le)

/-- Within a period the counter is ahead by the frames that passed, or by that less a period. -/
theorem mod_period (hle : L ≤ F) (hlt : F - L < cfg.period) :
    F % cfg.period = L % cfg.period + (F - L) ∨
    F % cfg.period + cfg.period = L % cfg.period + (F - L) := by
  obtain ⟨d, rfl⟩ := Nat.exists_eq_add_of_le hle
  rw [Nat.add_sub_cancel_left] at hlt ⊢
  have hL := Nat.mod_lt L cfg.period_pos
  rw [Nat.add_mod, Nat.mod_eq_of_lt hlt]
  rcases Nat.lt_or_ge (L % cfg.period + d) cfg.period with h | h
  · exact .inl (Nat.mod_eq_of_lt h)
  · rw [Nat.mod_eq_sub_mod h, Nat.mod_eq_of_lt (by omega)]
    omega

/-- Without a wrap of the counter no frame is missed. -/
theorem missedFrames_of_le (hle : L ≤ F) (hlt : F - L < cfg.period)
    (hno : cfg.counter L ≤ cfg.counter F) :
    missedFrames cfg (cfg.counter L) (cfg.counter F) = BitVec.ofNat 32 (F - L) := by
  have hL := Nat.mod_lt L cfg.period_pos
  have hM := cfg.period_le
  rw [BitVec.le_def, toNat_counter, toNat_counter] at hno
  rw [missedFrames, if_neg (by rw [BitVec.lt_def, toNat_counter, toNat_counter]; omega)]
  apply BitVec.eq_of_toNat_eq
  rw [BitVec.toNat_sub, toNat_counter, toNat_counter, BitVec.toNat_ofNat]
  rcases cfg.mod_period hle hlt with hm | hm <;> omega

/-- A wrap of the counter costs one. -/
theorem missedFrames_of_lt (hle : L ≤ F) (hlt : F - L < cfg.period)
    (hwrap : cfg.counter F < cfg.counter L) :
    missedFrames cfg (cfg.counter L) (cfg.counter F) = BitVec.ofNat 32 (F - L - 1) := by
  have hL := Nat.mod_lt L cfg.period_pos
  have hmax : cfg.maxVblankCount.toNat = cfg.period - 1 := rfl
  have hlt' := hwrap
  rw [BitVec.lt_def, toNat_counter, toNat_counter] at hlt'
  rw [missedFrames, if_pos hwrap]
  apply BitVec.eq_of_toNat_eq
  rw [BitVec.toNat_add, BitVec.toNat_sub, toNat_counter, toNat_counter, BitVec.toNat_ofNat]
  rcases cfg.mod_period hle hlt with hm | hm <;> omega

end VblankConfig

/-! ### What every run keeps -/

structure Scanout.Inv (cfg : VblankConfig) (s : Scanout) : Prop where
  last : s.crtc.lastVblank = cfg.counter s.sampledFrame
  le : s.sampledFrame ≤ s.frame
  idle : s.crtc.enabled = false → s.crtc.count = s.sampledCount
  off : s.resampled = false → s.sampledCount = s.offCount ∧ s.sampledFrame = s.offFrame

theorem saveRounds_le (cfg : VblankConfig) (left frame : ℕ) (r : ℕ → Reading) :
    frame ≤ (saveRounds cfg left frame r).kept ∧
      (saveRounds cfg left frame r).kept ≤ (saveRounds cfg left frame r).frame := by
  induction left generalizing frame r with
  | zero =>
    simp only [saveRounds]
    split_ifs <;> simp
  | succ left ih =>
    simp only [saveRounds]
    split_ifs
    · simp
    · obtain ⟨h1, h2⟩ := ih (frame + (r 0).before + (r 0).between) fun k => r (k + 1)
      exact ⟨by omega, h2⟩
    · simp

theorem updateRounds_some {cfg : VblankConfig} {frame : ℕ} {r : List Reading} {m : Sampled}
    (h : updateRounds cfg frame r = some m) :
    frame ≤ m.kept ∧ m.kept ≤ m.frame ∧ cfg.counter m.kept = cfg.counter m.frame := by
  induction r generalizing frame with
  | nil => simp [updateRounds] at h
  | cons r rest ih =>
    simp only [updateRounds] at h
    split at h
    · rename_i heq
      cases h
      exact ⟨by simp, by simp, heq⟩
    · obtain ⟨h1, h2, h3⟩ := ih h
      exact ⟨by omega, h2, h3⟩

/-- What drm_vblank_get may do to a crtc: nothing but count its user, or switch the interrupt
on. -/
theorem drmVblankGet_cases {cfg : VblankConfig} {c c' : Crtc} {frame frame' : ℕ} {enable ret : ℤ}
    {r : List Reading} (h : drmVblankGet cfg c frame enable r = some (ret, c', frame')) :
    (frame' = frame ∧ c' = { c with refcount := c.refcount + (if ret = 0 then 1 else 0) } ∧
      (ret = 0 → c.enabled = true) ∧ (c.refcount ≠ 0 ∨ c.enabled = true ∨ enable ≠ 0)) ∨
    (∃ m, c.refcount = 0 ∧ c.enabled = false ∧ enable = 0 ∧ ret = 0 ∧
      updateRounds cfg frame r = some m ∧ frame' = m.frame ∧
      c' = drmUpdateVblankCount cfg { c with refcount := 1, enabled := true } m) := by
  simp only [drmVblankGet] at h
  split_ifs at h with hzero hon hfail hon
  · cases h
    exact .inl ⟨rfl, rfl, fun _ => hon, .inr (.inl hon)⟩
  · cases h
    exact .inl ⟨rfl, by simp [hfail], fun he => absurd he hfail, .inr (.inr hfail)⟩
  · obtain ⟨m, hm, he⟩ := Option.map_eq_some_iff.mp h
    cases he
    have hz : c.refcount = 0 := by omega
    exact .inr ⟨m, hz, by simpa using hon, by simpa using hfail, rfl, hm, rfl, by rw [hz]⟩
  · cases h
    exact .inl ⟨rfl, rfl, fun _ => hon, .inr (.inl hon)⟩
  · cases h
    exact .inl ⟨rfl, by simp [Errno.eInval], by simp [Errno.eInval], .inl (by omega)⟩

namespace Scanout

variable {cfg : VblankConfig} {s s' : Scanout}

theorem inv_save (s : Scanout) (r : ℕ → Reading) : (s.save cfg r).Inv cfg := by
  obtain ⟨-, hle⟩ := saveRounds_le cfg 2 s.frame r
  refine ⟨rfl, hle, fun _ => rfl, fun hr => ?_⟩
  have hon : s.crtc.enabled = true := by simpa [Scanout.save] using hr
  exact ⟨by simp [Scanout.save, hon], by simp [Scanout.save, hon]⟩

theorem lastVblank_update (cfg : VblankConfig) (c : Crtc) (m : Sampled) :
    (drmUpdateVblankCount cfg c m).lastVblank = c.lastVblank ∧
    (drmUpdateVblankCount cfg c m).enabled = c.enabled ∧
    (drmUpdateVblankCount cfg c m).count =
      c.count + missedFrames cfg c.lastVblank (cfg.counter m.kept) := by
  simp only [drmUpdateVblankCount]
  split <;> exact ⟨rfl, rfl, rfl⟩

theorem Inv.step (h : s.Inv cfg) {e : ScanoutEvent} (hs : scanoutStep cfg s e = some s') :
    s'.Inv cfg := by
  cases e with
  | tick =>
    cases hs
    exact ⟨h.last, Nat.le_succ_of_le h.le, h.idle, h.off⟩
  | get enable r =>
    obtain ⟨⟨ret, c, frame⟩, hget, he⟩ := Option.map_eq_some_iff.mp hs
    cases he
    rcases drmVblankGet_cases hget with ⟨rfl, rfl, -, -⟩ | ⟨m, -, -, -, -, hm, rfl, rfl⟩
    · exact ⟨h.last, h.le, h.idle, h.off⟩
    · obtain ⟨hlast, hon, -⟩ := lastVblank_update cfg
        { s.crtc with refcount := 1, enabled := true } m
      obtain ⟨h1, h2, -⟩ := updateRounds_some hm
      have hle := h.le
      exact ⟨hlast.trans h.last, by dsimp only; omega, fun he => by simp [hon] at he, h.off⟩
  | put =>
    obtain ⟨c, hput, he⟩ := Option.map_eq_some_iff.mp hs
    cases he
    simp only [drmVblankPut] at hput
    split at hput <;> cases hput
    exact ⟨h.last, h.le, h.idle, h.off⟩
  | timer r =>
    cases hs
    split
    · exact inv_save s r
    · exact h
  | off r =>
    cases hs
    exact inv_save s r
  | handle t =>
    cases hs
    simp only [drmHandleVblank]
    split
    · rename_i hon
      split
      · exact ⟨h.last, h.le, fun he => by simp [Crtc.setStamp, hon] at he, h.off⟩
      · exact ⟨h.last, h.le, h.idle, h.off⟩
    · exact ⟨h.last, h.le, h.idle, h.off⟩

/-- The count after a save. -/
theorem save_forward (s : Scanout) (r : ℕ → Reading) : ∃ k, k ≤ 1 ∧
    (s.save cfg r).crtc.count = s.crtc.count + BitVec.ofNat 32 k := by
  simp only [Scanout.save, vblankDisableAndSave]
  split
  · exact ⟨1, le_rfl, rfl⟩
  · exact ⟨0, Nat.zero_le _, by simp⟩

/-- A step that leaves the interrupt as it is, or switches it off. -/
theorem countOk_of_keep (hon : s'.crtc.enabled = true → s.crtc.enabled = true)
    (h : ∃ k, k ≤ 1 ∧ s'.crtc.count = s.crtc.count + BitVec.ofNat 32 k) : CountOk s s' := by
  obtain ⟨k, hk, hc⟩ := h
  exact ⟨⟨k, hk.trans (Nat.le_max_left _ _), hc⟩,
    fun hoff he => by simp [hon he] at hoff⟩

/-- The interrupt goes on: the step is right exactly when the counter has not wrapped. -/
theorem countOk_enable (h : s.Inv cfg) (hoff : s.crtc.enabled = false) {r : List Reading}
    {m : Sampled} (hm : updateRounds cfg s.frame r = some m)
    (hperiod : m.frame - s.sampledFrame < cfg.period)
    (hc : s'.crtc = drmUpdateVblankCount cfg { s.crtc with refcount := 1, enabled := true } m)
    (hframe : s'.frame = m.frame) :
    CountOk s s' ↔ s.crtc.lastVblank ≤ cfg.counter m.kept := by
  obtain ⟨h1, h2, h3⟩ := updateRounds_some hm
  have hle : s.sampledFrame ≤ m.frame := by
    have := h.le
    omega
  obtain ⟨-, hon, hcount⟩ := lastVblank_update cfg
    { s.crtc with refcount := 1, enabled := true } m
  rw [← hc] at hon hcount
  rw [h.last, h3] at hcount
  rw [h.last, h3]
  constructor
  · intro hok
    by_contra hwrap
    have hexact := hok.enable hoff hon
    rw [hcount, h.idle hoff, cfg.missedFrames_of_lt hle hperiod (BitVec.not_le.mp hwrap)] at hexact
    have hne : m.frame ≠ s.sampledFrame := fun he => hwrap (he ▸ BitVec.le_refl _)
    have hn := congrArg BitVec.toNat ((BitVec.add_right_inj _).mp hexact)
    rw [BitVec.toNat_ofNat, BitVec.toNat_ofNat] at hn
    omega
  · intro hno
    rw [cfg.missedFrames_of_le hle hperiod hno] at hcount
    refine ⟨⟨_, ?_, hcount⟩, fun _ _ => ?_⟩
    · rw [hframe]
      exact Nat.le_max_right _ _
    · rw [hcount, h.idle hoff, hframe]

theorem countOk_iff (h : s.Inv cfg) {e : ScanoutEvent} (hg : e.inPeriod cfg s = true)
    (hs : scanoutStep cfg s e = some s') : CountOk s s' ↔ e.unwrapped cfg s = true := by
  cases e with
  | get enable r =>
    obtain ⟨⟨ret, c, frame⟩, hget, he⟩ := Option.map_eq_some_iff.mp hs
    cases he
    rcases drmVblankGet_cases hget with ⟨rfl, rfl, -, hkeep⟩ | ⟨m, hz, hoff, hen, -, hm, rfl, rfl⟩
    · exact iff_of_true (countOk_of_keep id ⟨0, Nat.zero_le _, by simp⟩)
        (by simp only [ScanoutEvent.unwrapped, Bool.or_eq_true, decide_eq_true_eq]; tauto)
    · simp only [ScanoutEvent.inPeriod, hm, Option.all_some, decide_eq_true_eq] at hg
      refine (countOk_enable h hoff hm hg rfl rfl).trans ?_
      simp [ScanoutEvent.unwrapped, hz, hoff, hen, hm]
  | tick =>
    cases hs
    exact iff_of_true (countOk_of_keep id ⟨0, Nat.zero_le _, by simp⟩) rfl
  | put =>
    obtain ⟨c, hput, he⟩ := Option.map_eq_some_iff.mp hs
    cases he
    simp only [drmVblankPut] at hput
    split at hput <;> cases hput
    exact iff_of_true (countOk_of_keep id ⟨0, Nat.zero_le _, by simp⟩) rfl
  | timer r =>
    cases hs
    refine iff_of_true ?_ rfl
    split
    · exact countOk_of_keep (by simp [Scanout.save, vblankDisableAndSave]) (s.save_forward r)
    · exact countOk_of_keep id ⟨0, Nat.zero_le _, by simp⟩
  | off r =>
    cases hs
    exact iff_of_true
      (countOk_of_keep (by simp [Scanout.save, vblankDisableAndSave]) (s.save_forward r)) rfl
  | handle t =>
    cases hs
    refine iff_of_true ?_ rfl
    simp only [drmHandleVblank]
    split_ifs
    · exact countOk_of_keep id ⟨1, le_rfl, rfl⟩
    · exact countOk_of_keep id ⟨0, Nat.zero_le _, by simp⟩
    · exact countOk_of_keep id ⟨0, Nat.zero_le _, by simp⟩

theorem inv_init (n : ℕ) : Scanout.Inv cfg { frame := n } :=
  ⟨by simp [VblankConfig.counter], Nat.zero_le _, fun _ => rfl, fun _ => ⟨rfl, rfl⟩⟩

end Scanout

/-- In every run that samples the counter in time a step counts right exactly when it does not
switch the interrupt on over a wrapped counter; the count has then advanced by all frames since
the interrupt went off, unless drm_vblank_off sampled again in between. -/
theorem vblank_count_exact (cfg : VblankConfig) (s s' : Scanout) (e : ScanoutEvent)
    (h : ReachWhile (scanoutSystem cfg) (fun s e => e.inPeriod cfg s = true) s)
    (hg : e.inPeriod cfg s = true) (hs : scanoutStep cfg s e = some s') :
    (CountOk s s' ↔ e.unwrapped cfg s = true) ∧
    (s.resampled = false → e.unwrapped cfg s = true → s.crtc.enabled = false →
      s'.crtc.enabled = true →
      s'.crtc.count = s.offCount + BitVec.ofNat 32 (s'.frame - s.offFrame)) := by
  have hI : s.Inv cfg :=
    h.invariant (fun _ ⟨n, hn⟩ => hn ▸ Scanout.inv_init n) fun _ _ _ hI _ hs => hI.step hs
  have hiff := Scanout.countOk_iff hI hg hs
  refine ⟨hiff, fun hr hno hoff hon => ?_⟩
  obtain ⟨hcount, hframe⟩ := hI.off hr
  rw [← hcount, ← hframe]
  exact (hiff.mpr hno).enable hoff hon

/-- The interrupt goes off in frame 0 and on again two frames later. -/
theorem vblank_count_exact_twoFrames : ∃ s s', CountOk s s' ∧
    s.crtc.enabled = false ∧ s'.crtc.enabled = true ∧ s'.crtc.count = s.crtc.count + 2 := by
  obtain ⟨s, hs, hp⟩ : ∃ s,
      ReachWhile (scanoutSystem {}) (fun s e => e.inPeriod {} s = true) s ∧
      ((ScanoutEvent.get 0 [{}]).inPeriod {} s && (ScanoutEvent.get 0 [{}]).unwrapped {} s &&
        !s.crtc.enabled && (scanoutStep {} s (.get 0 [{}])).any fun s' =>
          s'.crtc.enabled && decide (s'.crtc.count = s.crtc.count + 2)) = true :=
    ReachWhile.of_exec_any (l := [.get 0 [{}], .put, .timer fun _ => {}, .tick, .tick])
      (.init ⟨0, rfl⟩) (by decide +kernel)
  simp only [Bool.and_eq_true, Option.any_eq_true, Bool.not_eq_true', decide_eq_true_eq] at hp
  obtain ⟨⟨⟨hg, hno⟩, hoff⟩, s', hs', hon, hcount⟩ := hp
  exact ⟨s, s', (vblank_count_exact {} s s' _ hs hg hs').1.mpr hno, hoff, hon, hcount⟩

/-- The interrupt goes off in the last frame of a period and on in the next: the count stays. -/
theorem vblank_count_misses_frame : ¬ ∀ s s' e,
    ReachWhile (scanoutSystem {}) (fun s e => e.inPeriod {} s = true) s →
    e.inPeriod {} s = true → scanoutStep {} s e = some s' → CountOk s s' := by
  intro h
  obtain ⟨s, hs, hp⟩ : ∃ s,
      ReachWhile (scanoutSystem {}) (fun s e => e.inPeriod {} s = true) s ∧
      ((ScanoutEvent.get 0 [{}]).inPeriod {} s && !(ScanoutEvent.get 0 [{}]).unwrapped {} s &&
        (scanoutStep {} s (.get 0 [{}])).isSome) = true :=
    ReachWhile.of_exec_any (l := [.get 0 [{}], .put, .timer fun _ => {}, .tick])
      (.init ⟨0xffffff, rfl⟩) (by decide +kernel)
  simp only [Bool.and_eq_true, Option.isSome_iff_exists, Bool.not_eq_true'] at hp
  obtain ⟨⟨hg, hwrap⟩, s', hs'⟩ := hp
  have hI : s.Inv {} :=
    hs.invariant (fun _ ⟨n, hn⟩ => hn ▸ Scanout.inv_init n) fun _ _ _ hI _ hs => hI.step hs
  have hno := (Scanout.countOk_iff hI hg hs').mp (h s s' _ hs hg hs')
  rw [hwrap] at hno
  cases hno

end GfxDrm.Vblank
