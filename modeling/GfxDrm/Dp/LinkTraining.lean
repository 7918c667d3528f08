import Mathlib.Data.BitVec
import Mathlib.Data.List.Basic

/-! Training a DisplayPort link (intel_dp.c, drm_dp_helper.c). -/

namespace GfxDrm.Dp.LinkTrain

/-- DPCD registers 0x202 to 0x207. -/
abbrev LinkStatus := ℕ → BitVec 8

/-- What the sink does in one round: whether the lanes' settings are written, and the link status
where it can be read. -/
structure Answer where
  laneSet : Bool
  linkStatus : Option LinkStatus

/-- The source side of a link, as far as its training depends on it. -/
structure IntelDp where
  hasDdi : Bool := false
  isValleyview : Bool := false
  isGen7 : Bool := false
  hasPchCpt : Bool := false
  portA : Bool := false
  laneCount : ℕ

variable (dp : IntelDp)

/-- DP_TRAIN_VOLTAGE_SWING_MASK, DP_TRAIN_MAX_SWING_REACHED, DP_TRAIN_MAX_PRE_EMPHASIS_REACHED. -/
def swingMask : BitVec 8 := 0x3
def maxSwingReached : BitVec 8 := 0x4
def maxPreEmphasisReached : BitVec 8 := 0x20

/-- dp_get_lane_status. -/
def dpGetLaneStatus (s : LinkStatus) (lane : ℕ) : BitVec 8 :=
  (s (lane / 2) >>> (lane % 2 * 4)) &&& 0xf

/-- drm_dp_clock_recovery_ok; DP_LANE_CR_DONE is bit 0. -/
def clockRecoveryOk (s : LinkStatus) (laneCount : ℕ) : Bool :=
  (List.range laneCount).all fun lane => dpGetLaneStatus s lane &&& 1 ≠ 0

/-- drm_dp_channel_eq_ok; DP_CHANNEL_EQ_BITS are bits 0 to 2. -/
def channelEqOk (s : LinkStatus) (laneCount : ℕ) : Bool :=
  s 2 &&& 1 ≠ 0 && (List.range laneCount).all fun lane => dpGetLaneStatus s lane &&& 7 = 7

/-- drm_dp_get_adjust_request_voltage. -/
def adjustRequestVoltage (s : LinkStatus) (lane : ℕ) : BitVec 8 :=
  (s (4 + lane / 2) >>> (lane % 2 * 4)) &&& 3

/-- drm_dp_get_adjust_request_pre_emphasis. -/
def adjustRequestPreEmphasis (s : LinkStatus) (lane : ℕ) : BitVec 8 :=
  ((s (4 + lane / 2) >>> (lane % 2 * 4 + 2)) &&& 3) <<< 3

/-- intel_dp_voltage_max. -/
def IntelDp.voltageMax : BitVec 8 :=
  if dp.isValleyview then 3
  else if dp.isGen7 && dp.portA then 2
  else if dp.hasPchCpt && !dp.portA then 3
  else 2

/-- intel_dp_pre_emphasis_max. -/
def IntelDp.preEmphasisMax (voltageSwing : BitVec 8) : BitVec 8 :=
  let swing := (voltageSwing &&& swingMask).toNat
  let level : List (BitVec 8) := if dp.hasDdi || dp.isValleyview then [3, 2, 1, 0]
    else if dp.isGen7 && dp.portA then [2, 1, 1, 0] else [2, 2, 1, 0]
  level.getD swing 0 <<< 3

/-- The largest of the requests of the lanes, as the loop of intel_get_adjust_train finds it. -/
def largest (request : ℕ → BitVec 8) (laneCount : ℕ) : BitVec 8 :=
  (List.range laneCount).foldl (fun v lane => if v < request lane then request lane else v) 0

/-- The swing and the pre-emphasis that a link status asks for. -/
def IntelDp.voltage (s : LinkStatus) : BitVec 8 := largest (adjustRequestVoltage s) dp.laneCount
def IntelDp.preEmphasis (s : LinkStatus) : BitVec 8 :=
  largest (adjustRequestPreEmphasis s) dp.laneCount

/-- The bits of the swing in train_set, for an asked swing. -/
def IntelDp.swingSet (v : BitVec 8) : BitVec 8 :=
  if dp.voltageMax ≤ v then dp.voltageMax ||| maxSwingReached else v

/-- intel_get_adjust_train, which gives all lanes the same. -/
def IntelDp.getAdjustTrain (s : LinkStatus) : Fin 4 → BitVec 8 :=
  let v := dp.swingSet (dp.voltage s)
  let p := dp.preEmphasis s
  let preemphMax := dp.preEmphasisMax v
  let p := if preemphMax ≤ p then preemphMax ||| maxPreEmphasisReached else p
  fun _ => v ||| p

/-! ### Clock recovery -/

theorem lane_pos : 0 < 4 := by decide

/-- The lane whose setting the loop compares. -/
abbrev lane0 : Fin 4 := ⟨0, lane_pos⟩

/-- The variables of the loop of intel_dp_start_link_train. -/
structure Recovery where
  trainSet : Fin 4 → BitVec 8 := fun _ => 0
  voltage : BitVec 8 := 0xff
  voltageTries : ℕ := 0
  loopTries : ℕ := 0

/-- One round: the variables for the next, or train_set as the loop leaves it. -/
def IntelDp.recoveryRound (r : Recovery) (a : Answer) : Except (Fin 4 → BitVec 8) Recovery :=
  match a.laneSet, a.linkStatus with
  | true, some s =>
    if clockRecoveryOk s dp.laneCount then .error r.trainSet
    else if ∀ i : Fin 4, i < dp.laneCount → r.trainSet i &&& maxSwingReached ≠ 0 then
      if r.loopTries + 1 = 5 then .error r.trainSet
      else .ok { r with trainSet := fun _ => 0, voltageTries := 0, loopTries := r.loopTries + 1 }
    else
      let tries := if r.trainSet lane0 &&& swingMask = r.voltage then r.voltageTries + 1 else 0
      if tries = 5 then .error r.trainSet
      else .ok { r with
        trainSet := dp.getAdjustTrain s
        voltage := r.trainSet lane0 &&& swingMask
        voltageTries := tries }
  | _, _ => .error r.trainSet

/-- The loop from the `t`-th answer of the sink on: train_set and the number of answers at its
end. -/
def IntelDp.recover (sink : ℕ → Answer) : ℕ → ℕ → Recovery → Option ((Fin 4 → BitVec 8) × ℕ)
  | 0, _, _ => none
  | fuel + 1, t, r =>
    match dp.recoveryRound r (sink t) with
    | .error trainSet => some (trainSet, t + 1)
    | .ok r => recover sink fuel (t + 1) r

/-- intel_dp_start_link_train. -/
def IntelDp.startLinkTrain (sink : ℕ → Answer) (fuel t : ℕ) : Option ((Fin 4 → BitVec 8) × ℕ) :=
  dp.recover sink fuel t {}

/-! ### Channel equalisation -/

/-- The variables of the loop of intel_dp_complete_link_train. -/
structure Equalization where
  trainSet : Fin 4 → BitVec 8
  tries : ℕ := 0
  crTries : ℕ := 0

/-- How that loop ends. -/
inductive Ending where
  | aborted
  | noAnswer
  | channelEq
  deriving DecidableEq, Repr

/-- What comes of one round: the end, another clock recovery before the next round, or the next
round. -/
inductive EqRound where
  | stop (ending : Ending)
  | retrain (e : Equalization)
  | again (e : Equalization)

def IntelDp.eqRound (e : Equalization) (a : Answer) : EqRound :=
  match a.laneSet, a.linkStatus with
  | true, some s =>
    if !clockRecoveryOk s dp.laneCount then .retrain { e with crTries := e.crTries + 1 }
    else if channelEqOk s dp.laneCount then .stop .channelEq
    else if 5 < e.tries then .retrain { e with tries := 0, crTries := e.crTries + 1 }
    else .again { e with trainSet := dp.getAdjustTrain s, tries := e.tries + 1 }
  | _, _ => .stop .noAnswer

/-- The loop: how it ends, the number of answers then, and `cr_tries`. -/
def IntelDp.equalize (sink : ℕ → Answer) : ℕ → ℕ → Equalization → Option (Ending × ℕ × ℕ)
  | 0, _, _ => none
  | fuel + 1, t, e =>
    if 5 < e.crTries then some (.aborted, t, e.crTries)
    else
      match dp.eqRound e (sink t) with
      | .stop ending => some (ending, t + 1, e.crTries)
      | .retrain e =>
        (dp.startLinkTrain sink fuel (t + 1)).bind fun p =>
          equalize sink fuel p.2 { e with trainSet := p.1 }
      | .again e => equalize sink fuel (t + 1) e

/-- intel_dp_start_link_train and intel_dp_complete_link_train. -/
def IntelDp.linkTrain (sink : ℕ → Answer) (fuel : ℕ) : Option (Ending × ℕ × ℕ) :=
  (dp.startLinkTrain sink fuel 0).bind fun p => dp.equalize sink fuel p.2 { trainSet := p.1 }

/-! ### What a round can do -/

variable {dp} {sink : ℕ → Answer} {v : BitVec 8} {N t fuel : ℕ} {r r' : Recovery}

/-- What no lane has in a bit of the low three the largest has not. -/
theorem largest_and_seven {request : ℕ → BitVec 8} (h : ∀ lane, request lane &&& 7 = 0) (n : ℕ) :
    largest request n &&& 7 = 0 := by
  rw [largest]
  induction n with
  | zero => exact BitVec.zero_and
  | succ n ih =>
    rw [List.range_succ, List.foldl_append]
    simp only [List.foldl_cons, List.foldl_nil]
    split
    · exact h n
    · exact ih

theorem shiftLeft_and_seven : ∀ x : BitVec 8, (x <<< 3) &&& 7 = 0 := by decide

/-- Pre-emphasis and its flag leave the bits of the swing alone. -/
theorem getAdjustTrain_and (dp : IntelDp) (s : LinkStatus) (i : Fin 4) :
    dp.getAdjustTrain s i &&& 7 = dp.swingSet (dp.voltage s) &&& 7 := by
  have hp : dp.preEmphasis s &&& 7 = 0 := largest_and_seven (fun _ => shiftLeft_and_seven _) _
  have hmax : (dp.preEmphasisMax (dp.swingSet (dp.voltage s)) ||| maxPreEmphasisReached) &&& 7 =
      0 := by
    rw [BitVec.and_or_distrib_right, IntelDp.preEmphasisMax, shiftLeft_and_seven]
    decide
  rw [IntelDp.getAdjustTrain, BitVec.and_or_distrib_right]
  split
  · rw [hmax]
    exact BitVec.or_zero
  · rw [hp]
    exact BitVec.or_zero

/-- The swing after a round that asked for `v`. -/
def IntelDp.swing (dp : IntelDp) (v : BitVec 8) : BitVec 8 := dp.swingSet v &&& swingMask

theorem getAdjustTrain_swing (dp : IntelDp) (s : LinkStatus) (i : Fin 4) :
    dp.getAdjustTrain s i &&& swingMask = dp.swing (dp.voltage s) := by
  have h := congrArg (· &&& swingMask) (getAdjustTrain_and dp s i)
  simp only [BitVec.and_assoc, show (7 : BitVec 8) &&& swingMask = swingMask by decide] at h
  exact h

/-- The counters that the loop has while it runs. -/
def Recovery.Counts (r : Recovery) : Prop := r.voltageTries < 5 ∧ r.loopTries < 5

/-- A round that is not the last one starts the lanes afresh or takes over what is asked. -/
theorem recoveryRound_cases {a : Answer} (h : dp.recoveryRound r a = .ok r') :
    ∃ s, a.linkStatus = some s ∧
      ((r.loopTries + 1 ≠ 5 ∧
        r' = { r with trainSet := fun _ => 0, voltageTries := 0, loopTries := r.loopTries + 1 }) ∨
      ∃ tries, tries = (if r.trainSet lane0 &&& swingMask = r.voltage then r.voltageTries + 1
          else 0) ∧ tries ≠ 5 ∧ r' = { r with
          trainSet := dp.getAdjustTrain s
          voltage := r.trainSet lane0 &&& swingMask
          voltageTries := tries }) := by
  obtain ⟨laneSet, linkStatus⟩ := a
  unfold IntelDp.recoveryRound at h
  split at h
  · rename_i s _ hs
    refine ⟨s, hs, ?_⟩
    split at h
    · cases h
    · split at h
      · split at h
        · cases h
        · exact .inl ⟨‹_›, (Except.ok.inj h).symm⟩
      · simp only at h
        generalize (if r.trainSet lane0 &&& swingMask = r.voltage then r.voltageTries + 1
          else 0) = n at h
        split at h
        · cases h
        · exact .inr ⟨n, rfl, ‹_›, (Except.ok.inj h).symm⟩
  · cases h

theorem Recovery.Counts.round {a : Answer} (hr : r.Counts) (h : dp.recoveryRound r a = .ok r') :
    r'.Counts := by
  obtain ⟨hv, hl⟩ := hr
  obtain ⟨s, -, ⟨hne, rfl⟩ | ⟨tries, htries, hne, rfl⟩⟩ := recoveryRound_cases h
  · exact ⟨Nat.zero_lt_succ _, by dsimp only; omega⟩
  · refine ⟨?_, hl⟩
    dsimp only
    split at htries <;> omega

/-! ### A sink that settles -/

/-- From its `N`-th answer on the sink asks for the swing `v`. -/
def Settles (dp : IntelDp) (sink : ℕ → Answer) (N : ℕ) (v : BitVec 8) : Prop :=
  ∀ t, N ≤ t → ∀ s ∈ (sink t).linkStatus, dp.voltage s = v

/-- What is left to do once the sink has settled: five times at full swing, each of them after the
tries of the swing it asks for. -/
def Recovery.left (dp : IntelDp) (v : BitVec 8) (r : Recovery) : ℕ :=
  8 * (5 - r.loopTries) + if r.trainSet lane0 &&& swingMask ≠ dp.swing v then 7
    else if r.voltage ≠ dp.swing v then 6 else 5 - r.voltageTries

theorem left_le (dp : IntelDp) (v : BitVec 8) (r : Recovery) :
    r.left dp v ≤ 8 * (5 - r.loopTries) + 7 := by
  rw [Recovery.left]
  split
  · exact le_rfl
  · split <;> omega

theorem lt_left (h : r.voltageTries < 5) : 8 * (5 - r.loopTries) < r.left dp v := by
  rw [Recovery.left]
  split
  · omega
  · split <;> omega

theorem left_round (hr : r.Counts) (hs : ∀ s ∈ (sink t).linkStatus, dp.voltage s = v)
    (h : dp.recoveryRound r (sink t) = .ok r') : r'.left dp v < r.left dp v := by
  obtain ⟨hv, hl⟩ := hr
  obtain ⟨s, hmem, ⟨hne, rfl⟩ | ⟨tries, htries, hne, rfl⟩⟩ := recoveryRound_cases h
  · refine lt_of_le_of_lt ((left_le dp v _).trans ?_) (lt_left hv)
    dsimp only
    omega
  · have hswing := (getAdjustTrain_swing dp s lane0).trans (congrArg _ (hs s hmem))
    simp only [Recovery.left, hswing, ne_eq, not_true_eq_false, ↓reduceIte]
    by_cases hset : r.trainSet lane0 &&& swingMask = dp.swing v
    · rw [hset] at htries ⊢
      by_cases hvolt : dp.swing v = r.voltage
      · rw [if_pos hvolt] at htries
        simp only [hvolt, not_true_eq_false, ↓reduceIte]
        omega
      · rw [if_neg hvolt] at htries
        simp only [not_true_eq_false, ↓reduceIte, Ne.symm hvolt, not_false_eq_true, htries]
        omega
    · simp only [hset, not_false_eq_true, ↓reduceIte]
      omega

/-- The rounds that the loop still makes at most, the sink's `t`-th answer being the next. -/
def Recovery.bound (dp : IntelDp) (v : BitVec 8) (N t : ℕ) (r : Recovery) : ℕ :=
  if N ≤ t then r.left dp v else N - t + 48

theorem recover_returns (hs : Settles dp sink N v) (hr : r.Counts)
    (hfuel : r.bound dp v N t < fuel) : (dp.recover sink fuel t r).isSome = true := by
  induction fuel generalizing t r with
  | zero => exact absurd hfuel (Nat.not_lt_zero _)
  | succ fuel ih =>
    rw [IntelDp.recover]
    cases hround : dp.recoveryRound r (sink t) with
    | error trainSet => rfl
    | ok r' =>
      refine ih (hr.round hround) ?_
      have hle := left_le dp v r'
      rw [Recovery.bound] at hfuel ⊢
      split at hfuel
      · have hlt := left_round hr (hs t ‹_›) hround
        rw [if_pos (by omega)]
        omega
      · split <;> omega

theorem recover_mono {fuel' : ℕ} {p : (Fin 4 → BitVec 8) × ℕ}
    (h : dp.recover sink fuel t r = some p) (hle : fuel ≤ fuel') :
    dp.recover sink fuel' t r = some p := by
  induction fuel generalizing t r fuel' with
  | zero => cases h
  | succ fuel ih =>
    obtain ⟨fuel', rfl⟩ := Nat.exists_eq_succ_of_ne_zero (Nat.ne_of_gt (Nat.zero_lt_of_lt hle))
    rw [IntelDp.recover] at h ⊢
    split at h
    · exact h
    · exact ih h (Nat.le_of_succ_le_succ hle)

theorem startLinkTrain_returns (h : Settles dp sink N v) (t : ℕ) :
    ∃ p, ∀ fuel, N + 49 ≤ fuel → dp.startLinkTrain sink fuel t = some p := by
  have hsome : (dp.recover sink (N + 49) t {}).isSome = true := by
    refine recover_returns h ⟨by decide, by decide⟩ ?_
    have hle := left_le dp v {}
    rw [Recovery.bound]
    split <;> omega
  obtain ⟨p, hp⟩ := Option.isSome_iff_exists.mp hsome
  exact ⟨p, fun fuel hle => recover_mono hp hle⟩

/-- What an end of intel_dp_complete_link_train says: after success the last status had all lanes
aligned, equalised and locked, and it gives up after six more clock recoveries and no earlier. -/
def Ends (dp : IntelDp) (sink : ℕ → Answer) : Ending × ℕ × ℕ → Prop
  | (ending, t, crTries) =>
    (ending = .channelEq → ∃ s ∈ (sink (t - 1)).linkStatus, channelEqOk s dp.laneCount = true) ∧
      crTries ≤ 6 ∧ (ending = .aborted ↔ crTries = 6)

theorem eqRound_spec (dp : IntelDp) (e : Equalization) (a : Answer) : match dp.eqRound e a with
    | .stop ending => ending ≠ .aborted ∧
      (ending = .channelEq → ∃ s ∈ a.linkStatus, channelEqOk s dp.laneCount = true)
    | .retrain e' => e'.tries ≤ e.tries ∧ e'.crTries = e.crTries + 1
    | .again e' => e.tries ≤ 5 ∧ e'.tries = e.tries + 1 ∧ e'.crTries = e.crTries := by
  obtain ⟨laneSet, linkStatus⟩ := a
  rw [IntelDp.eqRound]
  cases laneSet with
  | false => exact ⟨nofun, nofun⟩
  | true =>
    cases linkStatus with
    | none => exact ⟨nofun, nofun⟩
    | some s =>
      dsimp only
      split_ifs with hclock heq htries
      · exact ⟨le_rfl, rfl⟩
      · exact ⟨nofun, fun _ => ⟨s, rfl, heq⟩⟩
      · exact ⟨Nat.zero_le _, rfl⟩
      · exact ⟨not_lt.mp htries, rfl, rfl⟩

theorem equalize_returns (hs : Settles dp sink N v) (m : ℕ) (t : ℕ) (e : Equalization)
    (htries : e.tries ≤ 6) (hcr : e.crTries ≤ 6)
    (hm : 8 * (6 - e.crTries) + (7 - e.tries) ≤ m) :
    ∃ n p, Ends dp sink p ∧ ∀ fuel, n ≤ fuel → dp.equalize sink (fuel + 1) t e = some p := by
  induction m generalizing t e with
  | zero => omega
  | succ m ih =>
    by_cases hdone : 5 < e.crTries
    · exact ⟨0, (.aborted, t, e.crTries), ⟨nofun, hcr, by simp; omega⟩,
        fun fuel _ => if_pos hdone⟩
    have hspec := eqRound_spec dp e (sink t)
    simp only [IntelDp.equalize, if_neg hdone]
    cases hround : dp.eqRound e (sink t) with
    | stop ending =>
      rw [hround] at hspec
      exact ⟨0, (ending, t + 1, e.crTries), ⟨hspec.2, hcr, by simp [hspec.1]; omega⟩,
        fun _ _ => rfl⟩
    | retrain e' =>
      rw [hround] at hspec
      obtain ⟨q, hq⟩ := startLinkTrain_returns hs (t + 1)
      obtain ⟨n, p, hp, hn⟩ := ih q.2 { e' with trainSet := q.1 } (by dsimp only; omega)
        (by dsimp only; omega) (by dsimp only; omega)
      refine ⟨N + 49 + n + 1, p, hp, fun fuel hfuel => ?_⟩
      obtain ⟨fuel, rfl⟩ := Nat.exists_eq_add_of_le' (Nat.le_of_add_left_le hfuel)
      dsimp only
      rw [hq _ (by omega), Option.bind_some]
      exact hn fuel (by omega)
    | again e' =>
      rw [hround] at hspec
      obtain ⟨n, p, hp, hn⟩ := ih (t + 1) e' (by omega) (by omega) (by omega)
      refine ⟨n + 1, p, hp, fun fuel hfuel => ?_⟩
      obtain ⟨fuel, rfl⟩ := Nat.exists_eq_add_of_le' (Nat.le_of_add_left_le hfuel)
      exact hn fuel (by omega)

/-- A sink of one lane that never has a clock and asks for nothing. -/
def silent : ℕ → Answer := fun _ => ⟨true, some fun _ => 0⟩

theorem lt_three : ∀ v : BitVec 8, v < 3 → v &&& swingMask = v ∧ v &&& maxSwingReached = 0 := by
  decide

theorem getAdjustTrain_of_lt {s : LinkStatus} (h : dp.voltage s < dp.voltageMax) (i : Fin 4) :
    dp.getAdjustTrain s i &&& swingMask = dp.voltage s ∧
      dp.getAdjustTrain s i &&& maxSwingReached = 0 := by
  have hset : dp.swingSet (dp.voltage s) = dp.voltage s := if_neg (BitVec.not_le.mpr h)
  have hmax : dp.voltageMax ≤ 3 := by
    rw [IntelDp.voltageMax]
    split_ifs <;> decide
  obtain ⟨hswing, hreached⟩ := lt_three (dp.voltage s) (by bv_omega)
  refine ⟨(getAdjustTrain_swing dp s i).trans (by rw [IntelDp.swing, hset, hswing]), ?_⟩
  have hand := congrArg (· &&& maxSwingReached) (getAdjustTrain_and dp s i)
  simp only [BitVec.and_assoc, show (7 : BitVec 8) &&& maxSwingReached = maxSwingReached by decide,
    hset, hreached] at hand
  exact hand

/-- intel_dp_start_link_train never returns where each status lacks a clock and asks for another
swing than the one before, below the largest one. -/
theorem startLinkTrain_never (dp : IntelDp) (status : ℕ → LinkStatus) (hlanes : 0 < dp.laneCount)
    (hclock : ∀ t, clockRecoveryOk (status t) dp.laneCount = false)
    (hmax : ∀ t, dp.voltage (status t) < dp.voltageMax)
    (hne : ∀ t, dp.voltage (status (t + 1)) ≠ dp.voltage (status t)) (fuel t : ℕ)
    (ht : dp.voltage (status t) ≠ 0) :
    dp.startLinkTrain (fun t => ⟨true, some (status t)⟩) fuel t = none := by
  suffices h : ∀ r : Recovery, r.trainSet lane0 &&& maxSwingReached = 0 →
      r.trainSet lane0 &&& swingMask ≠ r.voltage →
      r.trainSet lane0 &&& swingMask ≠ dp.voltage (status t) →
      dp.recover (fun t => ⟨true, some (status t)⟩) fuel t r = none from
    h {} (by decide) (by decide) (Ne.symm ht)
  clear ht
  induction fuel generalizing t with
  | zero => exact fun _ _ _ _ => rfl
  | succ fuel ih =>
    intro r hreached hvolt hset
    obtain ⟨hswing, hreached'⟩ := getAdjustTrain_of_lt (hmax t) lane0
    have hround : dp.recoveryRound r ⟨true, some (status t)⟩ = .ok
        { r with
          trainSet := dp.getAdjustTrain (status t)
          voltage := r.trainSet lane0 &&& swingMask
          voltageTries := 0 } := by
      have hlane : ¬∀ i : Fin 4, i < dp.laneCount → r.trainSet i &&& maxSwingReached ≠ 0 :=
        fun h => h lane0 hlanes hreached
      simp only [IntelDp.recoveryRound, hclock t, Bool.false_eq_true, ↓reduceIte, if_neg hlane,
        if_neg hvolt, OfNat.zero_ne_ofNat]
    rw [IntelDp.recover, hround]
    exact ih (t + 1) _ hreached' (hswing ▸ Ne.symm hset) (hswing ▸ Ne.symm (hne t))

/-- A sink of one lane that asks for the second and the first swing in turn. -/
theorem startLinkTrain_never_in_turn : IntelDp.startLinkTrain { laneCount := 1 }
    (fun t => ⟨true, some fun i => if i = 4 ∧ t % 2 = 0 then 1 else 0⟩) 1000 0 = none := by
  have hvoltage : ∀ t, IntelDp.voltage { laneCount := 1 }
      (fun i => if i = 4 ∧ t % 2 = 0 then 1 else 0) = if t % 2 = 0 then 1 else 0 := fun t => by
    rcases Nat.mod_two_eq_zero_or_one t with h | h <;> simp only [h] <;> decide
  refine startLinkTrain_never _ _ Nat.one_pos ?_ ?_ ?_ 1000 0 ?_
  · intro t
    rcases Nat.mod_two_eq_zero_or_one t with h | h <;> simp only [h] <;> decide
  · intro t
    rw [hvoltage]
    split <;> decide
  · intro t
    rw [hvoltage, hvoltage]
    have hsucc : (t + 1) % 2 = 1 - t % 2 := by omega
    rcases Nat.mod_two_eq_zero_or_one t with h | h <;> simp only [hsucc, h] <;> decide
  · rw [hvoltage]
    decide

end GfxDrm.Dp.LinkTrain
