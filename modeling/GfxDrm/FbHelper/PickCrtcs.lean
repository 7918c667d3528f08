import GfxDrm.Lib.Best
import GfxDrm.Modes.Defs

/-! Which crtc drives which connector of the framebuffer console (drm_pick_crtcs). -/

namespace GfxDrm.FbHelper

open Best Function

def modeTypePreferred : BitVec 32 := 1 <<< 3

/-- A mode on a connector's list; two of them are two pointers where `id` differs. -/
structure ConnectorMode where
  id : ℕ
  mode : DrmDisplayMode
  type : BitVec 32 := 0
  vrefresh : ℕ := 0
  deriving DecidableEq

inductive ConnectorStatus
  | connected | disconnected | unknown
  deriving DecidableEq

/-- struct drm_cmdline_mode, as far as the console looks at it. -/
structure CmdlineMode where
  specified : Bool := false
  refreshSpecified : Bool := false
  rb : Bool := false
  interlace : Bool := false
  margins : Bool := false
  xres : ℕ := 0
  yres : ℕ := 0
  refresh : ℕ := 0

/-- A connector with its command line; its best encoder is given by its possible_crtcs. -/
structure FbConnector where
  status : ConnectorStatus
  modes : List ConnectorMode
  bestEncoder : Option (BitVec 32)
  cmdlineMode : CmdlineMode := {}

/-- What of struct drm_fb_helper the choice depends on. -/
structure FbOutputs where
  connectors : List FbConnector
  crtcCount : ℕ

/-- The crtc of each connector. -/
abbrev Crtcs := ℕ → Option ℕ

/-- The mode of each connector. -/
abbrev ConnectorModes := ℕ → Option ConnectorMode

def drmHasPreferredMode (c : FbConnector) (width height : ℕ) : Option ConnectorMode :=
  c.modes.find? fun m =>
    ¬(width < m.mode.hdisplay ∨ height < m.mode.vdisplay) ∧ m.type &&& modeTypePreferred ≠ 0

def drmHasCmdlineMode (c : FbConnector) : Bool := c.cmdlineMode.specified

/-- my_score -/
def myScore (width height : ℕ) (c : FbConnector) : ℕ :=
  1 + (if c.status = .connected then 1 else 0) + (if drmHasCmdlineMode c then 1 else 0) +
    if (drmHasPreferredMode c width height).isSome then 1 else 0

/-- The local variables of the loop over the crtcs. -/
structure PickState where
  bestScore : ℕ
  bestCrtcs : Crtcs
  crtcs : Crtcs

/-- Whether connector `n` may have the crtc next to the connectors before it. -/
def mayTake (crtcCount : ℕ) (modes : ConnectorModes) (n : ℕ) (mode : ConnectorMode)
    (bestCrtcs : Crtcs) (c : ℕ) : Bool :=
  ((List.range n).find? fun o => bestCrtcs o = some c).all fun o =>
    -- ignore cloning unless only a single crtc
    ¬1 < crtcCount ∧ (modes o).any fun m => drmModeEqual m.mode mode.mode

/-- One turn of the loop; `rest` configures the remaining connectors. -/
def tryCrtc (crtcCount : ℕ) (modes : ConnectorModes) (rest : Crtcs → ℕ × Crtcs) (n : ℕ)
    (mode : ConnectorMode) (possibleCrtcs : BitVec 32) (score : ℕ) (s : PickState) (c : ℕ) :
    PickState :=
  if possibleCrtcs &&& 1 <<< c = 0 then s
  else if !mayTake crtcCount modes n mode s.bestCrtcs c then s
  else
    let crtcs i := if i < n then s.bestCrtcs i else update s.crtcs n (some c) i
    let r := rest crtcs
    if s.bestScore < score + r.1 then ⟨score + r.1, r.2, r.2⟩ else { s with crtcs := r.2 }

/-- drm_pick_crtcs for the connectors from `n` on. -/
def pickCrtcs (crtcCount : ℕ) (modes : ConnectorModes) (width height : ℕ) :
    List FbConnector → ℕ → Crtcs → ℕ × Crtcs
  | [], _, bestCrtcs => (0, bestCrtcs)
  | connector :: connectors, n, bestCrtcs =>
    let r := pickCrtcs crtcCount modes width height connectors (n + 1) (update bestCrtcs n none)
    (modes n).elim r fun mode =>
      connector.bestEncoder.elim r fun possibleCrtcs =>
        let s := (List.range crtcCount).foldl
          (tryCrtc crtcCount modes (pickCrtcs crtcCount modes width height connectors (n + 1)) n
            mode possibleCrtcs (myScore width height connector)) ⟨r.1, r.2, fun _ => none⟩
        (s.bestScore, s.bestCrtcs)

def drmPickCrtcs (f : FbOutputs) (bestCrtcs : Crtcs) (modes : ConnectorModes) (n width height : ℕ) :
    ℕ × Crtcs :=
  pickCrtcs f.crtcCount modes width height (f.connectors.drop n) n bestCrtcs

/-! ### Assignments -/

/-- Both connectors have a mode, and these are equal. -/
def SameMode (m m' : Option ConnectorMode) : Prop :=
  ∃ a ∈ m, ∃ b ∈ m', drmModeEqual a.mode b.mode

/-- The crtcs of the connectors below `l` are allowed by their encoders, and two connectors share
one only if it is the only one and their modes are equal. -/
structure Admissible (f : FbOutputs) (modes : ConnectorModes) (crtcs : Crtcs) (l : ℕ) : Prop where
  allowed : ∀ i < l, ∀ c ∈ crtcs i, c < f.crtcCount ∧ (modes i).isSome ∧
    ∃ connector ∈ f.connectors[i]?, ∃ possible ∈ connector.bestEncoder,
      possible &&& 1 <<< c ≠ 0
  shared : ∀ i j, i < j → j < l → ∀ c, crtcs i = some c → crtcs j = some c →
    f.crtcCount ≤ 1 ∧ SameMode (modes i) (modes j)

/-- The scores of the connectors that have a crtc, from `n` on. -/
def totalScore (f : FbOutputs) (width height n : ℕ) (crtcs : Crtcs) : ℕ :=
  (((f.connectors.drop n).zipIdx n).map fun p =>
    if (crtcs p.2).isSome then myScore width height p.1 else 0).sum

/-- The result is the best that the connectors from `n` on can have after those before. -/
structure BestFrom (f : FbOutputs) (modes : ConnectorModes) (width height n : ℕ) (bestCrtcs : Crtcs)
    (r : ℕ × Crtcs) : Prop where
  kept : ∀ i < n, r.2 i = bestCrtcs i
  admissible : Admissible f modes r.2 f.connectors.length
  score : r.1 = totalScore f width height n r.2
  le : ∀ crtcs, Admissible f modes crtcs f.connectors.length →
    (∀ i < n, crtcs i = bestCrtcs i) → totalScore f width height n crtcs ≤ r.1

/-! ### Equal modes -/

/-- What two equal modes have in common. -/
def modeKey (m : DrmDisplayMode) : Option ℕ × DrmDisplayMode :=
  (if m.clock = 0 then none else some (khz2picos m.clock), { m with name := "", clock := 0 })

theorem drmModeEqual_iff {a b : DrmDisplayMode} :
    drmModeEqual a b = true ↔ modeKey a = modeKey b := by
  have hkey : drmModeEqualNoClocks a b = true ↔ (modeKey a).2 = (modeKey b).2 := by
    simp [drmModeEqualNoClocks, modeKey, and_assoc]
  rw [drmModeEqual, Prod.ext_iff, ← hkey, modeKey, modeKey]
  by_cases ha : a.clock = 0
  · by_cases hb : b.clock = 0
    · simp [ha, hb]
    · simp [ha, hb, Ne.symm hb]
  · by_cases hb : b.clock = 0 <;> simp [ha, hb]

theorem SameMode.symm {m m' : Option ConnectorMode} (h : SameMode m m') : SameMode m' m := by
  obtain ⟨a, ha, b, hb, h⟩ := h
  exact ⟨b, hb, a, ha, drmModeEqual_iff.mpr (drmModeEqual_iff.mp h).symm⟩

theorem SameMode.trans {m m' m'' : Option ConnectorMode} (h : SameMode m m')
    (h' : SameMode m' m'') : SameMode m m'' := by
  obtain ⟨a, ha, b, hb, h⟩ := h
  obtain ⟨b', hb', c, hc, h'⟩ := h'
  obtain rfl := Option.mem_unique hb hb'
  exact ⟨a, ha, c, hc, drmModeEqual_iff.mpr
    ((drmModeEqual_iff.mp h).trans (drmModeEqual_iff.mp h'))⟩

/-! ### The search finds the best assignment -/

section search
variable {f : FbOutputs} {modes : ConnectorModes} {width height n : ℕ} {bestCrtcs crtcs : Crtcs}
  {connector : FbConnector} {connectors : List FbConnector} {mode : ConnectorMode} {c : ℕ}

theorem Admissible.mono {l l' : ℕ} (h : Admissible f modes crtcs l) (hl : l' ≤ l) :
    Admissible f modes crtcs l' :=
  ⟨fun i hi => h.allowed i (hi.trans_le hl), fun i j hij hj => h.shared i j hij (hj.trans_le hl)⟩

/-- One more connector gets a crtc, or none. -/
theorem Admissible.succ (h : Admissible f modes bestCrtcs n) (hkept : ∀ i < n, crtcs i = bestCrtcs i)
    (hallowed : ∀ c ∈ crtcs n, c < f.crtcCount ∧ (modes n).isSome ∧
      ∃ connector ∈ f.connectors[n]?, ∃ possible ∈ connector.bestEncoder, possible &&& 1 <<< c ≠ 0)
    (hshared : ∀ c ∈ crtcs n, ∀ o < n, bestCrtcs o = some c →
      f.crtcCount ≤ 1 ∧ SameMode (modes o) (modes n)) : Admissible f modes crtcs (n + 1) where
  allowed i hi c hc := by
    obtain hi | rfl := Nat.lt_succ_iff_lt_or_eq.mp hi
    · exact h.allowed i hi c (hkept i hi ▸ hc)
    · exact hallowed c hc
  shared i j hij hj c hi hc := by
    obtain hj | rfl := Nat.lt_succ_iff_lt_or_eq.mp hj
    · exact h.shared i j hij hj c (hkept i (hij.trans hj) ▸ hi) (hkept j hj ▸ hc)
    · exact hshared c hc i hij (hkept i hij ▸ hi)

/-- The first connector with the crtc stands for all of them, as their modes are equal. -/
theorem mayTake_iff (h : Admissible f modes bestCrtcs n) (hn : modes n = some mode) :
    mayTake f.crtcCount modes n mode bestCrtcs c = true ↔
      ∀ o < n, bestCrtcs o = some c → f.crtcCount ≤ 1 ∧ SameMode (modes o) (modes n) := by
  have hsame (o : ℕ) : ((modes o).any fun m => drmModeEqual m.mode mode.mode) = true ↔
      SameMode (modes o) (modes n) := by
    rw [Option.any_eq_true, hn]
    constructor
    · rintro ⟨m, hm, heq⟩
      exact ⟨m, hm, mode, rfl, heq⟩
    · rintro ⟨m, hm, mode', hmode, heq⟩
      obtain rfl := Option.some.inj hmode
      exact ⟨m, hm, heq⟩
  rw [mayTake]
  cases ho : (List.range n).find? fun o => bestCrtcs o = some c with
  | none =>
    refine iff_of_true rfl fun o hon hc => ?_
    have hnone := List.find?_eq_none.mp ho o (List.mem_range.mpr hon)
    exact absurd hc (by simpa using hnone)
  | some o =>
    have hoc : bestCrtcs o = some c := by simpa using List.find?_some ho
    have hon : o < n := List.mem_range.mp (List.mem_of_find?_eq_some ho)
    rw [Option.all_some, decide_eq_true_eq, hsame, not_lt]
    constructor
    · rintro ⟨hone, hmode⟩ o' ho' hc
      obtain rfl | hlt := find?_first List.pairwise_lt_range ho o' (List.mem_range.mpr ho')
        (decide_eq_true hc)
      · exact ⟨hone, hmode⟩
      · exact ⟨hone, (h.shared o o' hlt ho' c hoc hc).2.symm.trans hmode⟩
    · exact fun hall => hall o hon hoc

theorem totalScore_cons (hdrop : f.connectors.drop n = connector :: connectors) :
    totalScore f width height n crtcs =
      (if (crtcs n).isSome then myScore width height connector else 0) +
        totalScore f width height (n + 1) crtcs := by
  have htail : f.connectors.drop (n + 1) = connectors := by
    rw [← List.drop_drop, hdrop]
    rfl
  rw [totalScore, totalScore, hdrop, htail, List.zipIdx_cons, List.map_cons, List.sum_cons]

/-- The best so far, over all assignments in which connector `n` has a crtc of `P` or none. -/
structure Covers (f : FbOutputs) (modes : ConnectorModes) (width height n : ℕ) (bestCrtcs : Crtcs)
    (P : ℕ → Prop) (s : PickState) : Prop where
  kept : ∀ i < n, s.bestCrtcs i = bestCrtcs i
  admissible : Admissible f modes s.bestCrtcs f.connectors.length
  score : s.bestScore = totalScore f width height n s.bestCrtcs
  le : ∀ crtcs, Admissible f modes crtcs f.connectors.length →
    (∀ i < n, crtcs i = bestCrtcs i) → (∀ c ∈ crtcs n, P c) →
    totalScore f width height n crtcs ≤ s.bestScore

theorem Covers.best {P : ℕ → Prop} {s : PickState}
    (h : Covers f modes width height n bestCrtcs P s)
    (hall : ∀ crtcs, Admissible f modes crtcs f.connectors.length → ∀ c ∈ crtcs n, P c) :
    BestFrom f modes width height n bestCrtcs (s.bestScore, s.bestCrtcs) :=
  ⟨h.kept, h.admissible, h.score, fun crtcs hadm hkept => h.le crtcs hadm hkept (hall crtcs hadm)⟩

/-- The connector goes without a crtc. -/
theorem BestFrom.covers_none {r : ℕ × Crtcs}
    (hdrop : f.connectors.drop n = connector :: connectors)
    (h : BestFrom f modes width height (n + 1) (update bestCrtcs n none) r) :
    Covers f modes width height n bestCrtcs (fun _ => False) ⟨r.1, r.2, fun _ => none⟩ where
  kept i hi := (h.kept i (by omega)).trans (update_of_ne (by omega) _ _)
  admissible := h.admissible
  score := by
    have hn : r.2 n = none := (h.kept n (Nat.lt_succ_self n)).trans (update_self _ _ _)
    have htotal : totalScore f width height n r.2 = 0 + totalScore f width height (n + 1) r.2 := by
      rw [totalScore_cons hdrop, hn]
      rfl
    exact h.score.trans (htotal.trans (Nat.zero_add _)).symm
  le crtcs hadm hkept hnone := by
    have hn : crtcs n = none := Option.eq_none_iff_forall_not_mem.mpr hnone
    rw [totalScore_cons hdrop, hn]
    refine (Nat.zero_add _).trans_le (h.le crtcs hadm fun i hi => ?_)
    obtain hi | rfl := Nat.lt_succ_iff_lt_or_eq.mp hi
    · exact (hkept i hi).trans (update_of_ne hi.ne _ _).symm
    · rw [hn, update_self]

/-- One turn of the loop deals with the assignments that give the connector this crtc. -/
theorem Covers.tryCrtc {P : ℕ → Prop} {s : PickState} {possible : BitVec 32}
    {rest : Crtcs → ℕ × Crtcs} (hdrop : f.connectors.drop n = connector :: connectors)
    (hbest : Admissible f modes bestCrtcs n) (hmode : modes n = some mode)
    (hencoder : connector.bestEncoder = some possible) (hc : c < f.crtcCount)
    (hrest : ∀ crtcs, Admissible f modes crtcs (n + 1) →
      BestFrom f modes width height (n + 1) crtcs (rest crtcs))
    (h : Covers f modes width height n bestCrtcs P s) :
    Covers f modes width height n bestCrtcs (fun b => P b ∨ b = c)
      (tryCrtc f.crtcCount modes rest n mode possible (myScore width height connector) s c) := by
  have hconnector : f.connectors[n]? = some connector := by
    rw [← List.head?_drop, hdrop]
    rfl
  have hlt : n < f.connectors.length := (List.getElem?_eq_some_iff.mp hconnector).1
  -- a turn that is skipped deals with assignments that are not admissible
  have hskip (hno : ∀ crtcs, Admissible f modes crtcs f.connectors.length →
      (∀ i < n, crtcs i = bestCrtcs i) → crtcs n ≠ some c) :
      Covers f modes width height n bestCrtcs (fun b => P b ∨ b = c) s := {
    kept := h.kept
    admissible := h.admissible
    score := h.score
    le := fun crtcs hadm hkept hP => h.le crtcs hadm hkept fun b hb =>
      (hP b hb).resolve_right fun he => hno crtcs hadm hkept (he ▸ hb) }
  have htake := mayTake_iff (c := c) (h.admissible.mono hlt.le) hmode
  rw [FbHelper.tryCrtc]
  split
  case isTrue hpossible =>
    refine hskip fun crtcs hadm _ hn => ?_
    obtain ⟨-, -, connector', hc', possible', hp', hne⟩ := hadm.allowed n hlt c hn
    obtain rfl := Option.mem_unique hc' hconnector
    obtain rfl := Option.mem_unique hp' hencoder
    exact hne hpossible
  case isFalse hpossible =>
    split
    case isTrue hno =>
      refine hskip fun crtcs hadm hkept hn => ?_
      rw [Bool.not_eq_true', ← Bool.not_eq_true, htake] at hno
      exact hno fun o ho hco => hadm.shared o n ho hlt c
        ((hkept o ho).trans ((h.kept o ho).symm.trans hco)) hn
    case isFalse hyes =>
      rw [Bool.not_eq_true', Bool.not_eq_false, htake] at hyes
      let crtcs' : Crtcs := fun i => if i < n then s.bestCrtcs i else update s.crtcs n (some c) i
      have hkept : ∀ i < n, crtcs' i = s.bestCrtcs i := fun i hi => if_pos hi
      have hn : crtcs' n = some c := (if_neg (lt_irrefl n)).trans (update_self _ _ _)
      have hadm' : Admissible f modes crtcs' (n + 1) := by
        refine (h.admissible.mono hlt.le).succ hkept (fun b hb => ?_) (fun b hb => ?_)
        · obtain rfl := Option.some.inj (hn.symm.trans hb)
          exact ⟨hc, by rw [hmode]; rfl, connector, hconnector, possible, hencoder, hpossible⟩
        · obtain rfl := Option.some.inj (hn.symm.trans hb)
          exact hyes
      have hr := hrest crtcs' hadm'
      have hrn : (rest crtcs').2 n = some c := (hr.kept n (Nat.lt_succ_self n)).trans hn
      have hwith (crtcs : Crtcs) (hc : crtcs n = some c) : totalScore f width height n crtcs =
          myScore width height connector + totalScore f width height (n + 1) crtcs := by
        rw [totalScore_cons hdrop, hc]
        rfl
      have hle : ∀ crtcs, Admissible f modes crtcs f.connectors.length →
          (∀ i < n, crtcs i = bestCrtcs i) → (∀ b ∈ crtcs n, P b ∨ b = c) →
          totalScore f width height n crtcs ≤
            max s.bestScore (myScore width height connector + (rest crtcs').1) := by
        intro crtcs hadm hk hP
        by_cases hcn : crtcs n = some c
        · rw [hwith crtcs hcn]
          refine le_max_of_le_right (Nat.add_le_add_left (hr.le crtcs hadm fun i hi => ?_) _)
          obtain hi | rfl := Nat.lt_succ_iff_lt_or_eq.mp hi
          · rw [hk i hi, hkept i hi, h.kept i hi]
          · rw [hcn, hn]
        · exact le_max_of_le_left (h.le crtcs hadm hk fun b hb =>
            (hP b hb).resolve_right fun he => hcn (he ▸ hb))
      dsimp only
      split
      case isTrue hgt =>
        exact {
          kept := fun i hi => (hr.kept i (by omega)).trans ((hkept i hi).trans (h.kept i hi))
          admissible := hr.admissible
          score := (congrArg _ hr.score).trans (hwith _ hrn).symm
          le := fun crtcs hadm hk hP => (hle crtcs hadm hk hP).trans (max_le hgt.le le_rfl) }
      case isFalse hge =>
        exact {
          kept := h.kept
          admissible := h.admissible
          score := h.score
          le := fun crtcs hadm hk hP =>
            (hle crtcs hadm hk hP).trans (max_le le_rfl (not_lt.mp hge)) }

/-- The connectors from `n` on get the best assignment there is after those before. -/
theorem pickCrtcs_best (hdrop : f.connectors.drop n = connectors)
    (hbest : Admissible f modes bestCrtcs n) : BestFrom f modes width height n bestCrtcs
      (pickCrtcs f.crtcCount modes width height connectors n bestCrtcs) := by
  induction connectors generalizing n bestCrtcs with
  | nil =>
    have hlen : f.connectors.length ≤ n := List.drop_eq_nil_iff.mp hdrop
    have hzero (crtcs : Crtcs) : totalScore f width height n crtcs = 0 := by
      rw [totalScore, hdrop]
      rfl
    exact ⟨fun _ _ => rfl, hbest.mono hlen, (hzero _).symm, fun crtcs _ _ => (hzero crtcs).le⟩
  | cons connector connectors ih =>
    have htail : f.connectors.drop (n + 1) = connectors := by
      rw [← List.drop_drop, hdrop]
      rfl
    have hconnector : f.connectors[n]? = some connector := by
      rw [← List.head?_drop, hdrop]
      rfl
    have hlt : n < f.connectors.length := (List.getElem?_eq_some_iff.mp hconnector).1
    have hnone : Admissible f modes (update bestCrtcs n none) (n + 1) :=
      hbest.succ (fun i hi => update_of_ne hi.ne _ _) (fun c hc => by simp at hc)
        (fun c hc => by simp at hc)
    have hwithout := (ih htail hnone).covers_none hdrop
    rw [pickCrtcs]
    cases hmode : modes n with
    | none =>
      refine hwithout.best fun crtcs hadm c hc => ?_
      have hsome := (hadm.allowed n hlt c hc).2.1
      rw [hmode] at hsome
      cases hsome
    | some mode =>
      cases hencoder : connector.bestEncoder with
      | none =>
        refine hwithout.best fun crtcs hadm c hc => ?_
        obtain ⟨-, -, connector', hc', possible, hpossible, -⟩ := hadm.allowed n hlt c hc
        obtain rfl := Option.mem_unique hc' hconnector
        rw [hencoder] at hpossible
        cases hpossible
      | some possible =>
        have hall := foldl_covers (List.range f.crtcCount)
          (fun P s c hc hP => hP.tryCrtc hdrop hbest hmode hencoder (List.mem_range.mp hc)
            (fun crtcs hadm => ih htail hadm)) hwithout
        exact hall.best fun crtcs hadm c hc =>
          .inr (List.mem_range.mpr (hadm.allowed n hlt c hc).1)


end search

/-- After any choice for the connectors before it, the search finds the best one for the others. -/
theorem drm_pick_crtcs_best (f : FbOutputs) (modes : ConnectorModes) (bestCrtcs : Crtcs)
    (n width height : ℕ) (h : Admissible f modes bestCrtcs n) :
    BestFrom f modes width height n bestCrtcs
      (drmPickCrtcs f bestCrtcs modes n width height) :=
  pickCrtcs_best rfl h

/-- Two connectors with one preferred mode, on either of two crtcs. -/
def twoPanels : FbOutputs :=
  let mode : ConnectorMode :=
    { id := 0, mode := { hdisplay := 1024, vdisplay := 768 }, type := modeTypePreferred }
  ⟨[⟨.connected, [mode], some 3, {}⟩, ⟨.connected, [mode], some 3, {}⟩], 2⟩

/-- The first connector has the first crtc. -/
def firstTaken : Crtcs := fun i => if i = 0 then some 0 else none

/-- The only mode of each. -/
def panelModes : ConnectorModes := fun i => twoPanels.connectors[i]?.bind fun c => c.modes.head?

theorem drm_pick_crtcs_best_two :
    Admissible twoPanels panelModes firstTaken 1 ∧
      BestFrom twoPanels panelModes 1024 768 1 firstTaken
        (drmPickCrtcs twoPanels firstTaken panelModes 1 1024 768) ∧
      (drmPickCrtcs twoPanels firstTaken panelModes 1 1024 768).1 = 3 := by
  have h : Admissible twoPanels panelModes firstTaken 1 := by
    refine ⟨fun i hi c hc => ?_, fun i j hij hj => by omega⟩
    obtain rfl : i = 0 := by omega
    obtain rfl := Option.some.inj hc
    exact ⟨by decide, rfl, _, rfl, _, rfl, by decide⟩
  exact ⟨h, drm_pick_crtcs_best twoPanels panelModes firstTaken 1 1024 768 h, by decide⟩

end GfxDrm.FbHelper
