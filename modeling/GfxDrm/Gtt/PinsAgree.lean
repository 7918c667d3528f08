import GfxDrm.Gtt.PinsKept

/-! What the pin and unpin ioctls count, over whole runs. -/

namespace GfxDrm.Gtt
open Run

variable {dev : PinDev} {o alignment : ℕ} {mapAndFenceable : Bool}

/-! ### The counts of one object -/

section

variable {t t' : PinState} {p : ℕ} {file : FileId} {history : List UserPinEvent}

@[simp] theorem pins_pinned : pins (.pinned file o :: history) p =
    pins history p + if o = p then 1 else 0 := by
  simp [pins, List.countP_cons]

@[simp] theorem pins_unpinned : pins (.unpinned file o :: history) p = pins history p := by
  simp [pins]

@[simp] theorem unpins_pinned : unpins (.pinned file o :: history) p = unpins history p := by
  simp [unpins]

@[simp] theorem unpins_unpinned : unpins (.unpinned file o :: history) p =
    unpins history p + if o = p then 1 else 0 := by
  simp [unpins, List.countP_cons]

/-- The user's pins on one object, and the pin they hold together. -/
structure UserPinInv (s : PinState) (o : ℕ) : Prop where
  count : s.userPinCount o + unpins s.history o = pins s.history o
  held : ∀ file, s.pinFilp o = some file → 0 < s.userPinCount o ∧
    s.userPinCount o + s.history.count (.unpinned file o) = s.history.count (.pinned file o)
  others : ∀ file, s.pinFilp o ≠ some file →
    s.history.count (.unpinned file o) = s.history.count (.pinned file o)
  free : s.pinFilp o = none → s.userPinCount o = 0
  small : s.userPinCount o < 2 ^ 32
  pinCount : (s.gtt.obj o).pinCount = s.kernelPins o + if 0 < s.userPinCount o then 1 else 0
  most : (s.gtt.obj o).pinCount ≤ objectMaxPinCount
  bound : (s.gtt.obj o).pinCount ≠ 0 → (s.gtt.obj o).gttSpace = true

/-- What the invariant reads of an object has not changed. -/
structure SamePins (t t' : PinState) (p : ℕ) : Prop where
  userPinCount : t'.userPinCount p = t.userPinCount p
  pinFilp : t'.pinFilp p = t.pinFilp p
  kernelPins : t'.kernelPins p = t.kernelPins p
  pins : pins t'.history p = pins t.history p
  unpins : unpins t'.history p = unpins t.history p
  pinned : ∀ file, t'.history.count (.pinned file p) = t.history.count (.pinned file p)
  unpinned : ∀ file, t'.history.count (.unpinned file p) = t.history.count (.unpinned file p)
  pinCount : (t'.gtt.obj p).pinCount = (t.gtt.obj p).pinCount
  gttSpace : (t.gtt.obj p).pinCount ≠ 0 → (t.gtt.obj p).gttSpace = true →
    (t'.gtt.obj p).gttSpace = true

theorem UserPinInv.frame (h : UserPinInv t p) (hs : SamePins t t' p) : UserPinInv t' p where
  count := by rw [hs.userPinCount, hs.unpins, hs.pins, h.count]
  held file hfile := by
    rw [hs.userPinCount, hs.unpinned, hs.pinned]
    exact h.held file (hs.pinFilp.symm.trans hfile)
  others file hfile := by
    rw [hs.unpinned, hs.pinned]
    exact h.others file (hs.pinFilp ▸ hfile)
  free hfree := hs.userPinCount.trans (h.free (hs.pinFilp.symm.trans hfree))
  small := hs.userPinCount ▸ h.small
  pinCount := by rw [hs.pinCount, hs.kernelPins, hs.userPinCount, h.pinCount]
  most := hs.pinCount ▸ h.most
  bound hp := by
    rw [hs.pinCount] at hp
    exact hs.gttSpace hp (h.bound hp)

variable {g : GttState}

theorem UserPinInv.keeps (h : UserPinInv t p) (hg : KeepsPins t.gtt g) :
    UserPinInv { t with gtt := g } p :=
  h.frame
    { userPinCount := rfl
      pinFilp := rfl
      kernelPins := rfl
      pins := rfl
      unpins := rfl
      pinned := fun _ => rfl
      unpinned := fun _ => rfl
      pinCount := hg.pinCount p
      gttSpace := hg.gttSpace p }

/-- Every object's counts are right, and no BUG_ON has been hit. -/
structure PinInv (s : PinState) : Prop where
  noBug : s.bugOn = false
  objects : ∀ o, UserPinInv s o

theorem PinInv.keeps (h : PinInv t) (hg : KeepsPins t.gtt g) :
    PinInv { t with gtt := g } := ⟨h.noBug, fun o => (h.objects o).keeps hg⟩

/-! ### One call -/

/-- The state after the file's pin, which brings the count to `n`. -/
def PinState.pinnedBy (t : PinState) (file : FileId) (o n : ℕ) (g : GttState) : PinState :=
  { t with
    gtt := g
    userPinCount := Function.update t.userPinCount o n
    pinFilp := Function.update t.pinFilp o (some file)
    history := .pinned file o :: t.history }

/-- Other objects do not notice. -/
theorem SamePins.pinnedBy {n : ℕ} (hpo : p ≠ o)
    (hcount : (g.obj p).pinCount = (t.gtt.obj p).pinCount)
    (hspace : (t.gtt.obj p).pinCount ≠ 0 → (t.gtt.obj p).gttSpace = true →
      (g.obj p).gttSpace = true) : SamePins t (t.pinnedBy file o n g) p where
  userPinCount := Function.update_of_ne hpo ..
  pinFilp := Function.update_of_ne hpo ..
  kernelPins := rfl
  pins := by simp [PinState.pinnedBy, hpo.symm]
  unpins := by simp [PinState.pinnedBy]
  pinned file := by simp [PinState.pinnedBy, hpo.symm]
  unpinned file := by simp [PinState.pinnedBy]
  pinCount := hcount
  gttSpace := hspace

/-- A pin that is counted and, if it is the first, taken. -/
theorem PinInv.pinnedBy (h : PinInv t) (hfile : t.pinFilp o = none ∨ t.pinFilp o = some file)
    (hroom : t.userPinCount o + 1 < 2 ^ 32)
    (hother : ∀ p, p ≠ o → (g.obj p).pinCount = (t.gtt.obj p).pinCount ∧
      ((t.gtt.obj p).pinCount ≠ 0 → (t.gtt.obj p).gttSpace = true → (g.obj p).gttSpace = true))
    (hcount : (g.obj o).pinCount = t.kernelPins o + 1)
    (hmost : (g.obj o).pinCount ≤ objectMaxPinCount) (hbound : (g.obj o).gttSpace = true) :
    PinInv (t.pinnedBy file o (t.userPinCount o + 1) g) := by
  refine ⟨h.noBug, fun p => ?_⟩
  have ho := h.objects p
  by_cases hpo : p = o
  · subst hpo
    have hcounts := ho.count
    unfold PinState.pinnedBy
    refine
      { count := ?_
        held := ?_
        others := ?_
        free := ?_
        small := ?_
        pinCount := ?_
        most := hmost
        bound := fun _ => hbound }
    · simp only [Function.update_self, pins_pinned, unpins_pinned, if_true]
      omega
    · intro f hf
      obtain rfl : file = f := by simpa using hf
      simp only [Function.update_self, List.count_cons, if_true,
        beq_iff_eq, reduceCtorEq, if_false]
      refine ⟨Nat.succ_pos _, ?_⟩
      rcases hfile with hnone | hown
      · have hzero := ho.free hnone
        have hsame := ho.others file (by rw [hnone]; simp)
        omega
      · have hheld := (ho.held file hown).2
        omega
    · intro f hf
      have hne : file ≠ f := by simpa using hf
      have hsame := ho.others f (by
        rcases hfile with hnone | hown
        · rw [hnone]
          simp
        · rw [hown]
          simpa using hne)
      simpa [hne] using hsame
    · intro hf
      simp at hf
    · simpa using hroom
    · simpa using hcount
  · exact ho.frame (SamePins.pinnedBy hpo (hother p hpo).1 (hother p hpo).2)

theorem userPin_first {args : PinArgs} {x : PinOutcome} (h : t.userPinCount o = 0) :
    userPin dev t file o args x =
      ((objectPin dev t.gtt o (args.alignment % 2 ^ 32) true x).1, { t with
        gtt := (objectPin dev t.gtt o (args.alignment % 2 ^ 32) true x).2
        userPinCount := Function.update t.userPinCount o (t.userPinCount o + 1)
        pinFilp := Function.update t.pinFilp o (some file) }) := by
  have hone : Word.add 32 (t.userPinCount o) 1 = t.userPinCount o + 1 :=
    Word.add_of_lt (by omega)
  unfold userPin
  simp only [hone, Function.update_self]
  rw [if_pos (by omega)]

theorem userPin_more {args : PinArgs} {x : PinOutcome} (h : t.userPinCount o ≠ 0)
    (hroom : t.userPinCount o + 1 < 2 ^ 32) :
    userPin dev t file o args x = (0, { t with
        userPinCount := Function.update t.userPinCount o (t.userPinCount o + 1)
        pinFilp := Function.update t.pinFilp o (some file) }) := by
  have hone : Word.add 32 (t.userPinCount o) 1 = t.userPinCount o + 1 := Word.add_of_lt hroom
  unfold userPin
  simp only [hone, Function.update_self]
  rw [if_neg (by omega)]

/-- A pin ioctl that is refused changes nothing. -/
theorem pin_run_cases (dev : PinDev) (t : PinState) (file : FileId) (lock : ℤ)
    (lookup : Option ℕ) (args : PinArgs) (x : PinOutcome) :
    (PinCall.pin file lock lookup args x).run dev t = t ∨
      lock = 0 ∧ ∃ o, lookup = some o ∧ (t.pinFilp o = none ∨ t.pinFilp o = some file) ∧
        (PinCall.pin file lock lookup args x).run dev t =
          (userPin dev t file o args x).2.note (userPin dev t file o args x).1
            (.pinned file o) := by
  unfold PinCall.run pinIoctl
  by_cases hlock : lock = 0
  · simp only [hlock, ne_eq, not_true, if_false]
    cases lookup with
    | none => exact .inl rfl
    | some o =>
      dsimp only
      by_cases hbusy : ¬ t.pinFilp o = none ∧ ¬ t.pinFilp o = some file
      · rw [if_pos hbusy]
        exact .inl rfl
      · rw [if_neg hbusy]
        refine .inr ⟨trivial, o, rfl, by tauto, ?_⟩
        split
        · rfl
        · rename_i hret
          rw [not_not.mp hret]
  · simp only [ne_eq, hlock]
    refine .inl ?_
    cases lookup with
    | none => rfl
    | some o => exact if_neg hlock

theorem unpin_run_cases (dev : PinDev) (t : PinState) (file : FileId) (lock : ℤ)
    (lookup : Option ℕ) :
    (PinCall.unpin file lock lookup).run dev t = t ∨
      ∃ o, t.pinFilp o = some file ∧ (PinCall.unpin file lock lookup).run dev t =
        { userUnpin t o with history := .unpinned file o :: (userUnpin t o).history } := by
  unfold PinCall.run unpinIoctl
  by_cases hlock : lock = 0
  · simp only [hlock]
    cases lookup with
    | none => exact .inl rfl
    | some o =>
      dsimp only
      by_cases hfile : t.pinFilp o = some file
      · rw [if_neg (not_not.mpr hfile)]
        exact .inr ⟨o, hfile, rfl⟩
      · rw [if_pos hfile]
        exact .inl rfl
  · simp only [ne_eq, hlock]
    refine .inl ?_
    cases lookup with
    | none => rfl
    | some o => exact if_neg hlock

/-- A counted pin of a file that may pin. -/
theorem PinInv.userPin (h : PinInv t) {args : PinArgs} {x : PinOutcome}
    (hfile : t.pinFilp o = none ∨ t.pinFilp o = some file)
    (hfirst : t.userPinCount o = 0 → CanPin dev t.gtt o (args.alignment % 2 ^ 32) true x)
    (hroom : t.userPinCount o ≠ 2 ^ 32 - 1) :
    PinInv ((Gtt.userPin dev t file o args x).2.note (Gtt.userPin dev t file o args x).1
      (.pinned file o)) := by
  have ho := h.objects o
  have hsmall := ho.small
  have hcount := ho.pinCount
  by_cases hzero : t.userPinCount o = 0
  · have hret := (objectPin_ok_iff dev t.gtt o (args.alignment % 2 ^ 32) true x).mpr
      (hfirst hzero)
    rcases objectPin_cases dev t.gtt o (args.alignment % 2 ^ 32) true x with
      ⟨hbad, -⟩ | ⟨-, hmax, g, hg, hbound, he⟩
    · exact absurd hret hbad
    rw [userPin_first hzero, he, hret]
    have hpin := hg.pinCount o
    have hmost := ho.most
    rw [if_neg (by omega)] at hcount
    have hself : (g.setObj o fun obj => { obj with pinCount := obj.pinCount + 1 }).obj o =
        { g.obj o with pinCount := (g.obj o).pinCount + 1 } := GttState.setObj_self _
    refine h.pinnedBy hfile (by omega) (fun p hpo => ?_) ?_ ?_ ?_
    · rw [GttState.setObj_of_ne hpo]
      exact ⟨hg.pinCount p, hg.gttSpace p⟩
    · rw [hself]
      dsimp only
      omega
    · rw [hself]
      dsimp only
      omega
    · rwa [hself]
  · rw [userPin_more hzero (by omega)]
    rw [if_pos (by omega)] at hcount
    exact h.pinnedBy hfile (by omega) (fun p _ => ⟨rfl, fun _ hb => hb⟩) hcount ho.most
      (ho.bound (by omega))

/-- What an unpin leaves of the other objects. -/
theorem SamePins.userUnpin (hpo : p ≠ o) :
    SamePins t { Gtt.userUnpin t o with
      history := .unpinned file o :: (Gtt.userUnpin t o).history } p := by
  unfold Gtt.userUnpin objectUnpin
  dsimp only
  split
  · exact
      { userPinCount := Function.update_of_ne hpo ..
        pinFilp := Function.update_of_ne hpo ..
        kernelPins := rfl
        pins := by simp
        unpins := by simp [Ne.symm hpo]
        pinned := fun f => by simp
        unpinned := fun f => by simp [Ne.symm hpo]
        pinCount := by simp [GttState.setObj_of_ne hpo]
        gttSpace := fun _ hb => by simpa [GttState.setObj_of_ne hpo] using hb }
  · exact
      { userPinCount := Function.update_of_ne hpo ..
        pinFilp := rfl
        kernelPins := rfl
        pins := by simp
        unpins := by simp [Ne.symm hpo]
        pinned := fun f => by simp
        unpinned := fun f => by simp [Ne.symm hpo]
        pinCount := rfl
        gttSpace := fun _ hb => hb }

/-- A file gives back one of several pins. -/
theorem UserPinInv.unpin_more (ho : UserPinInv t o) (hfile : t.pinFilp o = some file)
    (hmore : t.userPinCount o ≠ 1) :
    UserPinInv { t with
      userPinCount := Function.update t.userPinCount o (t.userPinCount o - 1)
      history := .unpinned file o :: t.history } o := by
  obtain ⟨hpos, hheld⟩ := ho.held file hfile
  have hsmall := ho.small
  have hcount := ho.count
  have hpin := ho.pinCount
  rw [if_pos hpos] at hpin
  refine
    { count := ?_
      held := ?_
      others := ?_
      free := ?_
      small := ?_
      pinCount := ?_
      most := ho.most
      bound := ho.bound }
  · simp only [Function.update_self, pins_unpinned, unpins_unpinned, if_true]
    omega
  · intro f hf
    obtain rfl : file = f := by simpa [hfile] using hf
    simp only [Function.update_self, List.count_cons, if_true,
      beq_iff_eq, reduceCtorEq, if_false]
    omega
  · intro f hf
    have hff : file ≠ f := by simpa [hfile] using hf
    have hsame := ho.others f hf
    simpa [hff] using hsame
  · intro hf
    simp [hfile] at hf
  · simp only [Function.update_self]
    omega
  · simp only [Function.update_self]
    rw [if_pos (by omega), hpin]

/-- The last pin of a file takes that of the object with it. -/
theorem UserPinInv.unpin_last (ho : UserPinInv t o) (hfile : t.pinFilp o = some file)
    (hlast : t.userPinCount o = 1) {bug : Bool} (hword : (g.obj o).pinCount = t.kernelPins o)
    (hbound : (g.obj o).gttSpace = true) :
    UserPinInv { t with
      gtt := g
      bugOn := bug
      userPinCount := Function.update t.userPinCount o (t.userPinCount o - 1)
      pinFilp := Function.update t.pinFilp o none
      history := .unpinned file o :: t.history } o := by
  obtain ⟨hpos, hheld⟩ := ho.held file hfile
  have hcount := ho.count
  have hpin := ho.pinCount
  have hmost := ho.most
  refine
    { count := ?_
      held := ?_
      others := ?_
      free := ?_
      small := ?_
      pinCount := ?_
      most := ?_
      bound := fun _ => hbound }
  · simp only [Function.update_self, pins_unpinned, unpins_unpinned, if_true]
    omega
  · intro f hf
    simp at hf
  · intro f _
    by_cases hff : file = f
    · subst hff
      simp only [List.count_cons, if_true, beq_iff_eq, reduceCtorEq,
        if_false]
      omega
    · have hsame := ho.others f (by rw [hfile]; simpa using hff)
      simpa [hff] using hsame
  · intro _
    simp [hlast]
  · simp [hlast]
  · simp [hlast, hword]
  · rw [hword]
    omega

/-- A file gives back one of its pins. -/
theorem PinInv.userUnpin (h : PinInv t) (hfile : t.pinFilp o = some file) :
    PinInv { Gtt.userUnpin t o with
      history := .unpinned file o :: (Gtt.userUnpin t o).history } := by
  have ho := h.objects o
  obtain ⟨hpos, hheld⟩ := ho.held file hfile
  have hpin := ho.pinCount
  have hmost := ho.most
  rw [if_pos hpos] at hpin
  unfold objectMaxPinCount at hmost
  have hsub : Word.sub 32 (t.userPinCount o) 1 = t.userPinCount o - 1 :=
    Word.sub_of_le hpos ho.small
  have hword : Word.sub 32 (t.gtt.obj o).pinCount 1 = t.kernelPins o := by
    rw [hpin, Word.sub_of_le (by omega) (by omega)]
    rfl
  have hbound := ho.bound (by omega)
  refine ⟨?_, fun p => ?_⟩
  · unfold Gtt.userUnpin objectUnpin
    dsimp only
    split
    · simp [h.noBug, hbound, hpin]
    · exact h.noBug
  by_cases hpo : p = o
  · subst hpo
    unfold Gtt.userUnpin objectUnpin
    simp only [hsub, Function.update_self]
    by_cases hlast : t.userPinCount p = 1
    · rw [if_pos (by omega)]
      exact ho.unpin_last hfile hlast (by simpa using hword) (by simpa using hbound)
    · rw [if_neg (by omega)]
      exact ho.unpin_more hfile hlast
  · exact (h.objects p).frame (SamePins.userUnpin hpo)

/-- One more pin of a bound object, or one less, is the driver's own. -/
theorem PinInv.kernel (h : PinInv t) {k : ℕ} {bug : Bool} (hbug : bug = false)
    (hother : ∀ p, p ≠ o → (g.obj p).pinCount = (t.gtt.obj p).pinCount ∧
      ((t.gtt.obj p).pinCount ≠ 0 → (t.gtt.obj p).gttSpace = true → (g.obj p).gttSpace = true))
    (hcount : (g.obj o).pinCount + t.kernelPins o = (t.gtt.obj o).pinCount + k)
    (hmost : (g.obj o).pinCount ≤ objectMaxPinCount) (hbound : (g.obj o).gttSpace = true) :
    PinInv { t with
      gtt := g
      bugOn := bug
      kernelPins := Function.update t.kernelPins o k } := by
  refine ⟨hbug, fun p => ?_⟩
  have ho := h.objects p
  by_cases hpo : p = o
  · subst hpo
    have hpin := ho.pinCount
    refine
      { count := ho.count
        held := ho.held
        others := ho.others
        free := ho.free
        small := ho.small
        pinCount := ?_
        most := hmost
        bound := fun _ => hbound }
    simp only [Function.update_self]
    omega
  · exact ho.frame
      { userPinCount := rfl
        pinFilp := rfl
        kernelPins := Function.update_of_ne hpo ..
        pins := rfl
        unpins := rfl
        pinned := fun _ => rfl
        unpinned := fun _ => rfl
        pinCount := (hother p hpo).1
        gttSpace := (hother p hpo).2 }

theorem PinInv.kernelPin (h : PinInv t) (o alignment : ℕ) (mapAndFenceable : Bool)
    (x : PinOutcome) :
    PinInv ((PinCall.kernelPin o alignment mapAndFenceable x).run dev t) := by
  unfold PinCall.run
  dsimp only
  rcases objectPin_cases dev t.gtt o alignment mapAndFenceable x with
    ⟨hbad, hkeep⟩ | ⟨hret, hmax, g, hg, hbound, he⟩
  · rw [if_neg hbad]
    exact h.keeps hkeep
  · rw [if_pos hret, he]
    have hpin := hg.pinCount o
    have hmost := (h.objects o).most
    have hself : (g.setObj o fun obj => { obj with pinCount := obj.pinCount + 1 }).obj o =
        { g.obj o with pinCount := (g.obj o).pinCount + 1 } := GttState.setObj_self _
    refine h.kernel h.noBug (fun p hpo => ?_) ?_ ?_ ?_
    · rw [GttState.setObj_of_ne hpo]
      exact ⟨hg.pinCount p, hg.gttSpace p⟩
    · rw [hself]
      dsimp only
      omega
    · rw [hself]
      dsimp only
      omega
    · rwa [hself]

theorem PinInv.kernelUnpin (h : PinInv t) (hown : t.kernelPins o ≠ 0) :
    PinInv ((PinCall.kernelUnpin o).run dev t) := by
  have ho := h.objects o
  have hpin := ho.pinCount
  have hmost := ho.most
  have hbound := ho.bound (by omega)
  unfold objectMaxPinCount at hmost
  have hword : Word.sub 32 (t.gtt.obj o).pinCount 1 = (t.gtt.obj o).pinCount - 1 :=
    Word.sub_of_le (by omega) (by omega)
  unfold PinCall.run objectUnpin
  refine h.kernel ?_ (fun p hpo => ?_) ?_ ?_ ?_
  · have hzero : (t.gtt.obj o).pinCount ≠ 0 := by omega
    simp [h.noBug, hbound, hzero]
  · rw [GttState.setObj_of_ne hpo]
    exact ⟨rfl, fun _ hb => hb⟩
  · simp only [GttState.setObj_self]
    omega
  · simp only [GttState.setObj_self]
    unfold objectMaxPinCount
    omega
  · simpa using hbound

/-! ### Whole runs -/

theorem PinInv.run (h : PinInv t) {a : PinCall} (ha : a.Allowed t) (hc : a.Counted dev t) :
    PinInv (a.run dev t) := by
  cases a with
  | pin file lock lookup args x =>
    rcases pin_run_cases dev t file lock lookup args x with he | ⟨hlock, o, rfl, hfile, he⟩
    · rwa [he]
    · rw [he]
      obtain ⟨hfirst, hroom⟩ := hc hlock o rfl hfile
      exact h.userPin hfile hfirst hroom
  | unpin file lock lookup =>
    rcases unpin_run_cases dev t file lock lookup with he | ⟨o, hfile, he⟩
    · rwa [he]
    · rw [he]
      exact h.userUnpin hfile
  | kernelPin o alignment mapAndFenceable x => exact h.kernelPin ..
  | kernelUnpin o => exact h.kernelUnpin ha
  | driver c => exact h.keeps (KeepsPins.run dev.toGttDev ha.2 ha.1)

theorem pinInv_init (h : (pinSystem dev).init t) : PinInv t := by
  obtain ⟨hcount, hfilp, hbug, hhistory, hpins⟩ := h
  refine ⟨hbug, fun o => ?_⟩
  obtain ⟨hpin, hmost, hbound⟩ := hpins o
  exact
    { count := by simp [hcount, hhistory, pins, unpins]
      held := fun file hfile => by simp [hfilp] at hfile
      others := fun file _ => by simp [hhistory]
      free := fun _ => by rw [hcount]
      small := by simp [hcount]
      pinCount := by simp [hcount, hpin]
      most := hpin ▸ hmost
      bound := fun hp => hbound (hpin ▸ hp) }

theorem PinInv.agree (h : PinInv t) : PinsAgree t where
  count o := (h.objects o).count
  owner o file := by
    have ho := h.objects o
    constructor
    · intro hfile
      obtain ⟨hpos, hheld⟩ := ho.held file hfile
      unfold Holds
      omega
    · intro hholds
      by_contra hfile
      have hsame := ho.others file hfile
      unfold Holds at hholds
      omega
  owned o := by
    have ho := h.objects o
    constructor
    · intro hsome
      obtain ⟨file, hfile⟩ := Option.ne_none_iff_exists'.mp hsome
      exact (ho.held file hfile).1
    · intro hpos hnone
      exact hpos.ne' (ho.free hnone)
  pinned o hpos := by
    rw [(h.objects o).pinCount, if_pos hpos]
    exact Nat.succ_pos _
  noBug := h.noBug

end

/-- A device, and a page that nobody has pinned yet. -/
def pinGtt : PinDev := { smallGtt 4 0x1234 with }

def unpinnedPage : PinState where
  gtt := { emptyGtt (smallGtt 4 0x1234) with obj := fun _ => { size := pageSize } }
  kernelPins := fun _ => 0

theorem unpinnedPage_reach {guard : PinState → PinCall → Prop} :
    ReachWhile (pinSystem pinGtt) guard unpinnedPage :=
  .init ⟨rfl, rfl, rfl, rfl, fun _ => ⟨rfl, Nat.zero_le _, fun h => absurd rfl h⟩⟩

end GfxDrm.Gtt
