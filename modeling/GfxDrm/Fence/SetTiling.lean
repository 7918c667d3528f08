import GfxDrm.Fence.Pinned
import GfxDrm.Fence.Placed

/-! What a call of i915_gem_set_tiling leaves of an object when it fails and when it
succeeds. -/

namespace GfxDrm.Fence
open Hoare Run Errno

/-- A device with what is known of its swizzling. -/
structure SwizzleDev extends FenceDev where
  /-- `bit_6_swizzle_x` is `I915_BIT_6_SWIZZLE_9_10_17`. -/
  bit17 : Bool
  known : bit17 = true → unknownSwizzleX = false

/-- i915_gem_object_needs_bit17_swizzle. -/
def SwizzleDev.needsBit17Swizzle (dev : SwizzleDev) (b : FenceBo) : Bool := dev.bit17 && b.tiled

/-- i915_gem_set_tiling, with whether the object has its `bit_17` storage before and after. The
tests saw the pin count `pins`, and others may have had the mutex since. -/
def setTilingIoctl (dev : SwizzleDev) (o : ℕ) (pins tiling stride : BitVec 32) (bit17 : Bool) :
    FenceM (ℤ × Bool) := do
  let b ← getBo o
  match dev.testTiling { b with pinCount := pins } tiling stride with
  | .error ret => return (ret, bit17)
  | .ok (tiling, stride) =>
    let ret ← setTiling dev.toFenceDev o tiling stride
    let b ← getBo o
    return (ret, dev.needsBit17Swizzle b)

/-- What tells one tiling of an object from another. -/
structure SameTiling (b b' : FenceBo) : Prop where
  tilingMode : b'.tilingMode = b.tilingMode
  stride : b'.stride = b.stride
  mapAndFenceable : b'.mapAndFenceable = b.mapAndFenceable
  fenceDirty : b'.fenceDirty = b.fenceDirty

/-- One of the three tiling modes with a stride that suits it, and `map_and_fenceable` only
where the object may be mapped through a fence. -/
structure WellTiled (dev : FenceDev) (b : FenceBo) : Prop where
  mode : b.tiling = tilingNone ∨ b.tiling = tilingX ∨ b.tiling = tilingY
  stride : dev.tilingOk b.stride b.size b.tiling = true
  placed : b.gttSpace ≠ none → b.mapAndFenceable = true → dev.fenceOk b b.tiling = some true

/-- The call, if it returns, either fails and changes nothing or leaves the object well
tiled. -/
structure TilesWell (dev : SwizzleDev) (o : ℕ) (bit17 : Bool) (w : FenceState)
    (r : (ℤ × Bool) × FenceState) : Prop where
  failed : r.2.hung = false → r.1.1 ≠ 0 → SameTiling (w.bo o) (r.2.bo o) ∧ r.1.2 = bit17
  succeeded : r.2.hung = false → r.1.1 = 0 → WellTiled dev.toFenceDev (r.2.bo o)

/-- The waits of an unbinding, or a pin, make it fail. -/
def UnbindFails (o : ℕ) (w : FenceState) : Prop :=
  (w.bo o).gttSpace ≠ none ∧ ((w.bo o).pinCount ≠ 0 ∨ (w.coming 0).ret ≠ 0 ∨
    (w.bo o).fenceBusy = true ∧ o ∉ (w.coming 0).retired ∧ (w.coming 1).ret ≠ 0)

/-- The object lies where the new mode does not allow it. -/
def MustRebind (dev : FenceDev) (b : FenceBo) (tiling : BitVec 32) : Prop :=
  dev.mapAndFenceable b tiling = some false ∧
  ∃ alignment, dev.getGttAlignment b.size (tiling != tilingNone) false = some alignment ∧
    b.gttOffset &&& (alignment - 1) ≠ 0

/-- The loop of i915_gem_get_gtt_size does not end for the new mode. -/
def Hangs (dev : FenceDev) (b : FenceBo) (tiling : BitVec 32) : Prop :=
  dev.mapAndFenceable b tiling = none ∨
  dev.mapAndFenceable b tiling = some false ∧
    dev.getGttAlignment b.size (tiling != tilingNone) false = none

/-- The arguments differ from what the object has. -/
def Retiles (b : FenceBo) (tiling stride : BitVec 32) : Prop :=
  tiling ≠ b.tiling ∨ stride ≠ b.stride

instance (b : FenceBo) (tiling stride : BitVec 32) : Decidable (Retiles b tiling stride) :=
  inferInstanceAs (Decidable (_ ∨ _))

/-- The call has to rebind the object and cannot unbind it. -/
def RebindFails (dev : FenceDev) (o : ℕ) (w : FenceState) (tiling stride : BitVec 32) : Prop :=
  Retiles (w.bo o) tiling stride ∧ MustRebind dev (w.bo o) tiling ∧ UnbindFails o w

/-- What a call has to meet, with the arguments as its tests leave them. -/
structure CanTile (dev : SwizzleDev) (o : ℕ) (bit17 : Bool) (w : FenceState)
    (tiling stride : BitVec 32) : Prop where
  /-- Where the unbinding fails, the object was not mappable and fenceable before. -/
  failed : RebindFails dev.toFenceDev o w tiling stride →
    (w.bo o).mapAndFenceable = false ∧ dev.needsBit17Swizzle (w.bo o) = bit17
  /-- The two bits of the mode that are stored are those of a mode. -/
  mode : ¬RebindFails dev.toFenceDev o w tiling stride →
    ¬(Retiles (w.bo o) tiling stride ∧ Hangs dev.toFenceDev (w.bo o) tiling) →
    tiling.setWidth 2 ≠ 3
  /-- Where nothing is to change, `map_and_fenceable` was right. -/
  placed : ¬Retiles (w.bo o) tiling stride → (w.bo o).gttSpace ≠ none →
    (w.bo o).mapAndFenceable = true → dev.fenceOk (w.bo o) tiling = some true

/-! ### Unbinding -/

variable {dev : FenceDev} {w : FenceState} {o : ℕ}

theorem foldl_retire_bo (l : List ℕ) (w : FenceState) (o : ℕ) :
    (l.foldl FenceState.retire w).bo o = if o ∈ l then (w.bo o).idle else w.bo o := by
  induction l generalizing w with
  | nil => rfl
  | cons x l ih =>
    have hstep : (w.retire x).bo o = if o = x then (w.bo x).idle else w.bo o :=
      FenceState.setBo_bo _ _ _ _
    rw [List.foldl_cons, ih, hstep]
    by_cases hx : o = x
    · subst hx
      by_cases hl : o ∈ l <;> simp [FenceBo.idle]
    · simp [hx]

theorem foldl_retire_coming (l : List ℕ) (w : FenceState) :
    (l.foldl FenceState.retire w).coming = w.coming := by
  induction l generalizing w with
  | nil => rfl
  | cons x l ih => exact ih (w.retire x)

/-- A call that goes on only after a zero fails if either part does. -/
theorem guard_ret_ne_zero_iff {α : Type} {m : FenceM α} (ret : α → ℤ) {k : FenceM ℤ} :
    ((m >>= fun a => if ret a ≠ 0 then pure (ret a) else k) w).1 ≠ 0 ↔
      ret (m w).1 ≠ 0 ∨ (k (m w).2).1 ≠ 0 := by
  rw [run_bind]
  by_cases hret : ret (m w).1 = 0
  · simp [hret]
  · simp [run_pure, hret]

theorem waitFence_ret_ne_zero_iff :
    (waitFence o w).1 ≠ 0 ↔ (w.bo o).fenceBusy = true ∧ (w.coming 0).ret ≠ 0 := by
  have hguard : (waitFence o w).1 ≠ 0 ↔
      ((if (w.bo o).fenceBusy then Outcome.ret <$> callOut else pure 0 : FenceM ℤ) w).1 ≠ 0 ∨
        False :=
    (guard_ret_ne_zero_iff id).trans (or_congr_right (by simp [run_bind, run_pure]))
  rw [hguard, or_false]
  cases (w.bo o).fenceBusy with
  | false => simp [run_pure]
  | true => exact ⟨fun h => ⟨rfl, h⟩, fun h => h.2⟩

/-- Only the wait for the last fenced access can keep a fence from being given up. -/
theorem putFence_ret_ne_zero_iff : (putFence dev o w).1 ≠ 0 ↔ (waitFence o w).1 ≠ 0 := by
  refine (guard_ret_ne_zero_iff id).trans ⟨fun h => h.resolve_right ?_, .inl⟩
  rw [run_bind, not_not]
  cases (getBo o (waitFence o w).2).1.fenceReg with
  | none => rfl
  | some r => rfl

/-- An unbinding fails where a pin or one of its waits makes it fail. -/
theorem unbind_ret_ne_zero_iff : (unbind dev o w).1 ≠ 0 ↔ UnbindFails o w := by
  by_cases hspace : (w.bo o).gttSpace = none
  · change ((if (w.bo o).gttSpace = none then _ else _ : FenceM ℤ) w).1 ≠ 0 ↔ _
    rw [if_pos hspace]
    exact iff_of_false (fun h => h rfl) fun h => h.1 hspace
  change ((if (w.bo o).gttSpace = none then _ else _ : FenceM ℤ) w).1 ≠ 0 ↔ _
  rw [if_neg hspace]
  by_cases hpin : (w.bo o).pinCount = 0
  · change ((if (w.bo o).pinCount ≠ 0 then _ else _ : FenceM ℤ) w).1 ≠ 0 ↔ _
    rw [if_neg (not_not.mpr hpin)]
    have hbo : (callOut w).2.bo o =
        if o ∈ (w.coming 0).retired then (w.bo o).idle else w.bo o := foldl_retire_bo _ _ _
    have hcoming : (callOut w).2.coming 0 = w.coming 1 :=
      congrFun (foldl_retire_coming _ _) 0
    have hput : ∀ v, (((putFence dev o >>= fun ret => if ret ≠ 0 then pure ret else do
        modifyBo o FenceBo.unbound
        return 0 : FenceM ℤ) v).1 ≠ 0 ↔ (putFence dev o v).1 ≠ 0) := fun v =>
      (guard_ret_ne_zero_iff id).trans ⟨fun h => h.resolve_right fun h => h rfl, .inl⟩
    refine (guard_ret_ne_zero_iff Outcome.ret).trans ?_
    rw [hput, putFence_ret_ne_zero_iff, waitFence_ret_ne_zero_iff, hbo, hcoming]
    have hbusy : (if o ∈ (w.coming 0).retired then (w.bo o).idle else w.bo o).fenceBusy = true ↔
        (w.bo o).fenceBusy = true ∧ o ∉ (w.coming 0).retired := by
      split
      · exact iff_of_false (fun h => Bool.noConfusion h) fun h => h.2 ‹_›
      · exact (and_iff_left ‹_›).symm
    rw [hbusy, and_assoc]
    exact ⟨fun h => ⟨hspace, .inr h⟩, fun h => h.2.resolve_left fun h => h hpin⟩
  · change ((if (w.bo o).pinCount ≠ 0 then _ else _ : FenceM ℤ) w).1 ≠ 0 ↔ _
    rw [if_pos hpin]
    exact iff_of_true (by decide : eBusy ≠ 0) ⟨hspace, .inl hpin⟩

theorem SameTiling.refl (b : FenceBo) : SameTiling b b := ⟨rfl, rfl, rfl, rfl⟩

/-- A failed unbinding leaves the tiling alone. -/
theorem unbind_kept (b : FenceBo) (hung : Bool) :
    Triple (fun w => SameTiling b (w.bo o) ∧ (w.bo o).size = b.size ∧ w.hung = hung) (unbind dev o)
      fun ret w => if ret = 0 then
        (w.bo o).size = b.size ∧ (w.bo o).gttSpace = none ∧ w.hung = hung
      else SameTiling b (w.bo o) ∧ (w.bo o).size = b.size ∧ w.hung = hung := by
  have hsame : Quiet fun w => SameTiling b (w.bo o) :=
    quiet_bo fun _ h => ⟨h.tilingMode, h.stride, h.mapAndFenceable, h.fenceDirty⟩
  have hsize : Quiet fun w => (w.bo o).size = b.size :=
    quiet_bo (A := fun b' => b'.size = b.size) fun _ h => h
  have hhung : Quiet fun w => w.hung = hung := ⟨fun _ h => h, fun _ h => h⟩
  have hquiet := hsame.and (hsize.and hhung)
  refine triple_getBo fun b' => Triple.ite (fun hnone => ?_) fun _ => Triple.ite (fun _ => ?_) fun _ => ?_
  · exact Triple.pure fun w hw => ⟨hw.1.2.1, by rw [hw.2, hnone], hw.1.2.2⟩
  · exact Triple.pure fun w hw => hw.1
  refine Triple.bind (Q := fun _ w => SameTiling b (w.bo o) ∧ (w.bo o).size = b.size ∧
    w.hung = hung) (hquiet.callOut.pre fun w hw => hw.1) fun e => ?_
  refine Triple.ite (fun hret => Triple.pure fun w hw => ?_) fun _ => ?_
  · rw [if_neg hret]
    exact hw
  refine triple_guard (Q := fun w => (w.bo o).size = b.size ∧ w.hung = hung)
    (putFence_spec hquiet (fun w hw _ => hw.2) fun w r hw _ => ?_) ?_ fun ret w hret hw => ?_
  · refine ⟨?_, hw.2.2⟩
    change ((w.setBo o _).bo o).size = _
    rw [FenceState.setBo_bo_self]
    exact hw.2.1
  · intro w hw
    have hbo : (w.setBo o (w.bo o).unbound).bo o = (w.bo o).unbound := w.setBo_bo_self o _
    change ((w.setBo o (w.bo o).unbound).bo o).size = b.size ∧
      ((w.setBo o (w.bo o).unbound).bo o).gttSpace = none ∧ w.hung = hung
    rw [hbo]
    exact ⟨hw.1, rfl, hw.2⟩
  · rw [if_neg hret]
    exact hw

/-! ### The part under the mutex -/

section

variable {tiling stride : BitVec 32}

/-- The end of the call, once the object has a new value of `map_and_fenceable`. -/
def retileEnd (dev : FenceDev) (o : ℕ) (tiling stride : BitVec 32) (m : Bool) : FenceM ℤ := do
  let ret ← (if m then pure 0 else unbindUnaligned dev o tiling)
  if ret ≠ 0 then return ret
  modifyBo o fun b => b.retiled tiling stride
  return 0

theorem retile_eq : retile dev o tiling stride w =
    (match dev.mapAndFenceable (w.bo o) tiling with
      | none => hang w
      | some m => retileEnd dev o tiling stride m (w.setBo o ((w.bo o).remapped m))) := by
  change (match dev.mapAndFenceable (w.bo o) tiling with
    | none => hang
    | some m => _ : FenceM ℤ) w = _
  cases dev.mapAndFenceable (w.bo o) tiling <;> rfl

theorem unbindUnaligned_eq : unbindUnaligned dev o tiling w =
    (match dev.getGttAlignment (w.bo o).size (tiling != tilingNone) false with
      | none => hang w
      | some alignment =>
        if (w.bo o).gttOffset &&& (alignment - 1) ≠ 0 then unbind dev o w else (0, w)) := by
  change (match dev.getGttAlignment (w.bo o).size (tiling != tilingNone) false with
    | none => hang
    | some alignment =>
      if (w.bo o).gttOffset &&& (alignment - 1) ≠ 0 then unbind dev o else pure 0 : FenceM ℤ) w = _
  cases dev.getGttAlignment (w.bo o).size (tiling != tilingNone) false with
  | none => rfl
  | some alignment => exact run_ite _ _ _

/-- The call goes on with what the unbinding returns. -/
theorem retileEnd_eq : retileEnd dev o tiling stride false w =
    if (unbindUnaligned dev o tiling w).1 ≠ 0 then unbindUnaligned dev o tiling w
    else (0, (unbindUnaligned dev o tiling w).2.setBo o
      (((unbindUnaligned dev o tiling w).2.bo o).retiled tiling stride)) := by
  unfold retileEnd
  rw [run_bind]
  rw [run_ite]
  rfl

theorem retile_hangs (stride : BitVec 32) (h : Hangs dev (w.bo o) tiling) :
    (retile dev o tiling stride w).2.hung = true := by
  rw [retile_eq]
  rcases h with h | ⟨hm, hal⟩
  · rw [h]
    rfl
  · rw [hm]
    have hrun : unbindUnaligned dev o tiling (w.setBo o ((w.bo o).remapped false)) =
        hang (w.setBo o ((w.bo o).remapped false)) := by
      rw [unbindUnaligned_eq, w.setBo_bo_self]
      change (match dev.getGttAlignment (w.bo o).size (tiling != tilingNone) false with
        | none => hang (w.setBo o ((w.bo o).remapped false))
        | some al => _) = _
      rw [hal]
    change (retileEnd dev o tiling stride false _).2.hung = true
    rw [retileEnd_eq, hrun]
    rfl

/-- An object that may stay where it is gets the new mode there. -/
theorem retile_stays (stride : BitVec 32) {m : Bool} (hm : dev.mapAndFenceable (w.bo o) tiling = some m)
    (hstay : m = false → ∃ alignment,
      dev.getGttAlignment (w.bo o).size (tiling != tilingNone) false = some alignment ∧
      (w.bo o).gttOffset &&& (alignment - 1) = 0) :
    (retile dev o tiling stride w).1 = 0 ∧ (retile dev o tiling stride w).2.hung = w.hung ∧
      (retile dev o tiling stride w).2.bo o = ((w.bo o).remapped m).retiled tiling stride := by
  rw [retile_eq, hm]
  have hself : (w.setBo o ((w.bo o).remapped m)).bo o = (w.bo o).remapped m := w.setBo_bo_self o _
  have hend : retileEnd dev o tiling stride m (w.setBo o ((w.bo o).remapped m)) =
      (0, (w.setBo o ((w.bo o).remapped m)).setBo o
        (((w.setBo o ((w.bo o).remapped m)).bo o).retiled tiling stride)) := by
    cases m with
    | true => rfl
    | false =>
      obtain ⟨al, hal, hzero⟩ := hstay rfl
      have hrun : unbindUnaligned dev o tiling (w.setBo o ((w.bo o).remapped false)) =
          (0, w.setBo o ((w.bo o).remapped false)) := by
        rw [unbindUnaligned_eq, hself]
        change (match dev.getGttAlignment (w.bo o).size (tiling != tilingNone) false with
          | none => _
          | some al => if (w.bo o).gttOffset &&& (al - 1) ≠ 0 then _ else _) = _
        rw [hal]
        exact if_neg (not_not.mpr hzero)
      rw [retileEnd_eq, hrun]
      exact if_neg (not_not.mpr rfl)
  change (retileEnd dev o tiling stride m _).1 = 0 ∧ (retileEnd dev o tiling stride m _).2.hung = _ ∧
    (retileEnd dev o tiling stride m _).2.bo o = _
  rw [hend, hself]
  exact ⟨rfl, rfl, FenceState.setBo_bo_self ..⟩

/-- An object that has to leave its place keeps its tiling if it cannot, and is nowhere once it
has the new mode. -/
theorem retile_rebinds (stride : BitVec 32) (h : MustRebind dev (w.bo o) tiling) :
    (UnbindFails o w → (retile dev o tiling stride w).1 ≠ 0 ∧
      SameTiling ((w.bo o).remapped false) ((retile dev o tiling stride w).2.bo o)) ∧
    (¬UnbindFails o w → (retile dev o tiling stride w).1 = 0 ∧
      ∃ b : FenceBo, b.size = (w.bo o).size ∧ b.gttSpace = none ∧
        (retile dev o tiling stride w).2.bo o = b.retiled tiling stride) ∧
    (retile dev o tiling stride w).2.hung = w.hung := by
  obtain ⟨hm, al, hal, hne⟩ := h
  rw [retile_eq, hm]
  have hself : (w.setBo o ((w.bo o).remapped false)).bo o = (w.bo o).remapped false :=
    w.setBo_bo_self o _
  have hrun : unbindUnaligned dev o tiling (w.setBo o ((w.bo o).remapped false)) =
      unbind dev o (w.setBo o ((w.bo o).remapped false)) := by
    rw [unbindUnaligned_eq, hself]
    change (match dev.getGttAlignment (w.bo o).size (tiling != tilingNone) false with
      | none => _
      | some al => if (w.bo o).gttOffset &&& (al - 1) ≠ 0 then _ else _) = _
    rw [hal]
    exact if_pos hne
  have hfails : (unbind dev o (w.setBo o ((w.bo o).remapped false))).1 ≠ 0 ↔ UnbindFails o w := by
    rw [unbind_ret_ne_zero_iff]
    unfold UnbindFails
    rw [hself]
    rfl
  have hkept := @unbind_kept dev o ((w.bo o).remapped false) w.hung
    (w.setBo o ((w.bo o).remapped false))
    ⟨by rw [hself]; exact .refl _, by rw [hself], rfl⟩
  dsimp only
  rw [retileEnd_eq, hrun]
  by_cases hret : (unbind dev o (w.setBo o ((w.bo o).remapped false))).1 = 0
  · simp only [if_pos hret] at hkept
    rw [if_neg (not_not.mpr hret)]
    refine ⟨fun h => absurd hret (hfails.mpr h), fun _ => ⟨rfl, _, hkept.1, hkept.2.1, ?_⟩, hkept.2.2⟩
    exact FenceState.setBo_bo_self ..
  · simp only [if_neg hret] at hkept
    rw [if_pos hret]
    exact ⟨fun _ => ⟨hret, hkept.1⟩, fun h => absurd (hfails.mp hret) h, hkept.2.2⟩

end

/-! ### The whole call -/

/-- The width of a tile, for a mode that is none of the three as for X. -/
def tileWidth (dev : FenceDev) (tiling : BitVec 32) : ℤ :=
  if dev.gen = 2 ∨ (tiling = tilingY ∧ dev.has128ByteYTiling) then 128 else 512

theorem tilingOk_iff {stride tiling : BitVec 32} {size : ℕ} (hne : tiling ≠ tilingNone) :
    dev.tilingOk stride size tiling = true ↔
      ¬(7 ≤ dev.gen ∧ 0x0800 < stride.toInt.tdiv 128) ∧
      ¬(4 ≤ dev.gen ∧ dev.gen < 7 ∧ 0x0400 < stride.toInt.tdiv 128) ∧
      ¬(dev.gen < 4 ∧ 8192 < stride.toInt) ∧
      ¬(dev.gen = 3 ∧ 2 ^ 8 * 2 ^ 20 < (BitVec.ofNat 32 size).toInt) ∧
      ¬(dev.gen = 2 ∧ 2 ^ 8 * 2 ^ 19 < (BitVec.ofNat 32 size).toInt) ∧
      ¬stride.toInt < tileWidth dev tiling ∧
      (4 ≤ dev.gen → stride &&& BitVec.ofInt 32 (tileWidth dev tiling - 1) = 0) ∧
      (dev.gen < 4 → stride &&& (stride - 1) = 0) := by
  unfold FenceDev.tilingOk
  rw [if_neg hne]
  change (if _ then false else if _ then false else if _ then false else if _ then false
    else if _ then false else if stride.toInt < tileWidth dev tiling then false
    else if 4 ≤ dev.gen then
      decide (stride &&& BitVec.ofInt 32 (tileWidth dev tiling - 1) = 0) else _) = true ↔ _
  repeat' split
  all_goals simp_all

/-- The two bits of the mode that an object stores suit every stride that the whole mode
suits. -/
theorem tilingOk_stored {stride tiling : BitVec 32} {size : ℕ}
    (h : dev.tilingOk stride size tiling = true) :
    dev.tilingOk stride size ((tiling.setWidth 2).setWidth 32) = true := by
  by_cases hzero : (tiling.setWidth 2).setWidth 32 = tilingNone
  · rw [hzero]
    rfl
  have hne : tiling ≠ tilingNone := by
    rintro rfl
    exact hzero (by decide)
  rw [tilingOk_iff hzero]
  obtain ⟨h7, h4, h3, hs3, hs2, hwidth, hmod, hpow⟩ := (tilingOk_iff hne).mp h
  have hcases : tileWidth dev ((tiling.setWidth 2).setWidth 32) = tileWidth dev tiling ∨
      tileWidth dev ((tiling.setWidth 2).setWidth 32) = 128 ∧ tileWidth dev tiling = 512 := by
    unfold tileWidth
    by_cases hY : tiling = tilingY
    · rw [hY]
      exact .inl rfl
    · by_cases hgen : dev.gen = 2
      · exact .inl (by rw [if_pos (.inl hgen), if_pos (.inl hgen)])
      · rw [if_neg (show ¬(dev.gen = 2 ∨ tiling = tilingY ∧ _) from fun h =>
          h.elim hgen fun h => hY h.1)]
        split
        · exact .inr ⟨rfl, rfl⟩
        · exact .inl rfl
  rcases hcases with heq | ⟨hnew, hold⟩
  · rw [heq]
    exact ⟨h7, h4, h3, hs3, hs2, hwidth, hmod, hpow⟩
  · rw [hold] at hwidth hmod
    rw [hnew]
    refine ⟨h7, h4, h3, hs3, hs2, by omega, fun hgen => ?_, hpow⟩
    have hmask : BitVec.ofInt 32 (128 - 1) = BitVec.ofInt 32 (512 - 1) &&& BitVec.ofInt 32 (128 - 1) := by
      decide
    rw [hmask, ← BitVec.and_assoc, hmod hgen]
    exact BitVec.zero_and

variable {b : FenceBo}

theorem tiling_mode :
    (b.tiling = tilingNone ∨ b.tiling = tilingX ∨ b.tiling = tilingY) ↔ b.tilingMode ≠ 3 := by
  unfold FenceBo.tiling tilingNone tilingX tilingY
  generalize b.tilingMode = t
  revert t
  decide

/-- The fence suits the stored mode where it suits the whole one. -/
theorem fenceOk_stored {tiling stride : BitVec 32} (h : dev.fenceOk b tiling = some true) :
    dev.fenceOk (b.retiled tiling stride) (b.retiled tiling stride).tiling = some true := by
  by_cases hzero : (tiling.setWidth 2).setWidth 32 = tilingNone
  · exact if_pos hzero
  have hne : tiling ≠ tilingNone := by
    rintro rfl
    exact hzero (by decide)
  unfold FenceDev.fenceOk at h ⊢
  rw [if_neg hne] at h
  rw [if_neg (show ¬(b.retiled tiling stride).tiling = tilingNone from hzero)]
  exact h

section

variable {dev : SwizzleDev} {bit17 : Bool} {pins tiling stride t s : BitVec 32}

theorem setTilingIoctl_error {ret : ℤ}
    (h : dev.testTiling { w.bo o with pinCount := pins } tiling stride = .error ret) :
    setTilingIoctl dev o pins tiling stride bit17 w = ((ret, bit17), w) := by
  change (match dev.testTiling { w.bo o with pinCount := pins } tiling stride with
    | .error ret => pure (ret, bit17)
    | .ok (tiling, stride) => _ : FenceM (ℤ × Bool)) w = _
  rw [h]
  rfl

theorem setTilingIoctl_ok
    (h : dev.testTiling { w.bo o with pinCount := pins } tiling stride = .ok (t, s)) :
    setTilingIoctl dev o pins tiling stride bit17 w =
      (((setTiling dev.toFenceDev o t s w).1,
        dev.needsBit17Swizzle ((setTiling dev.toFenceDev o t s w).2.bo o)),
        (setTiling dev.toFenceDev o t s w).2) := by
  change (match dev.testTiling { w.bo o with pinCount := pins } tiling stride with
    | .error ret => pure (ret, bit17)
    | .ok (tiling, stride) => _ : FenceM (ℤ × Bool)) w = _
  rw [h]
  rfl

/-- The tests fail with an error, and let pass only what i915_tiling_ok accepts. -/
theorem testTiling_error {ret : ℤ} (h : dev.testTiling b tiling stride = .error ret) :
    ret ≠ 0 := by
  unfold FenceDev.testTiling at h
  repeat' split at h
  all_goals cases h <;> decide

theorem testTiling_ok (h : dev.testTiling b tiling stride = .ok (t, s)) :
    dev.tilingOk s b.size t = true := by
  unfold FenceDev.testTiling at h
  repeat' split at h
  all_goals cases h <;> first | rfl | simp_all

theorem setTiling_eq (hs : Retiles (w.bo o) t s) :
    setTiling dev.toFenceDev o t s w = retile dev.toFenceDev o t s w := by
  change (if Retiles (w.bo o) t s then _ else _ : FenceM ℤ) w = _
  rw [if_pos hs]

theorem setTiling_same (hs : ¬Retiles (w.bo o) t s) :
    setTiling dev.toFenceDev o t s w = (0, w) := by
  change (if Retiles (w.bo o) t s then _ else _ : FenceM ℤ) w = _
  rw [if_neg hs]
  rfl

/-- An object with a new mode is well tiled if what it stores of it is a mode. -/
theorem wellTiled_retiled_iff (hs : dev.tilingOk s b.size t = true)
    (hplaced : b.gttSpace ≠ none → b.mapAndFenceable = true → dev.fenceOk b t = some true) :
    WellTiled dev.toFenceDev (b.retiled t s) ↔ t.setWidth 2 ≠ 3 := by
  refine ⟨fun h => tiling_mode.mp h.mode, fun h => ⟨tiling_mode.mpr h, ?_, fun hb hm => ?_⟩⟩
  · exact tilingOk_stored hs
  · exact fenceOk_stored (hplaced hb hm)

/-- Unless the loop for the size of its fence does not end, an object that need not leave its
place gets a `map_and_fenceable` that is right. -/
theorem stays {dev : FenceDev} (hhang : ¬Hangs dev (w.bo o) t) (hmust : ¬MustRebind dev (w.bo o) t) :
    ∃ m, dev.mapAndFenceable (w.bo o) t = some m ∧
      (m = false → ∃ alignment,
        dev.getGttAlignment (w.bo o).size (t != tilingNone) false = some alignment ∧
        (w.bo o).gttOffset &&& (alignment - 1) = 0) ∧
      ((w.bo o).gttSpace ≠ none → m = true → dev.fenceOk (w.bo o) t = some true) := by
  cases hm : dev.mapAndFenceable (w.bo o) t with
  | none => exact absurd (.inl hm) hhang
  | some m =>
    refine ⟨m, rfl, fun hfalse => ?_, fun hb htrue => ?_⟩
    · subst hfalse
      cases hal : dev.getGttAlignment (w.bo o).size (t != tilingNone) false with
      | none => exact absurd (.inr ⟨hm, hal⟩) hhang
      | some al =>
        refine ⟨al, rfl, ?_⟩
        by_contra hne
        exact hmust ⟨hm, al, hal, hne⟩
    · subst htrue
      unfold FenceDev.mapAndFenceable at hm
      rw [if_neg (by simpa using hb)] at hm
      split at hm
      · exact hm
      · cases hm

/-- Of an object that the tests let pass, the call leaves it well tiled or as it was if and
only if it can be tiled. -/
theorem tilesWell_iff (hrun : w.hung = false)
    (htest : dev.testTiling { w.bo o with pinCount := pins } tiling stride = .ok (t, s)) :
    TilesWell dev o bit17 w (setTilingIoctl dev o pins tiling stride bit17 w) ↔
      CanTile dev o bit17 w t s := by
  have hok := testTiling_ok htest
  rw [setTilingIoctl_ok htest]
  by_cases hre : Retiles (w.bo o) t s
  · rw [setTiling_eq hre]
    by_cases hhang : Hangs dev.toFenceDev (w.bo o) t
    · -- the call never returns
      have hhung := retile_hangs s hhang
      refine iff_of_true ⟨fun h => ?_, fun h => ?_⟩
        ⟨fun h => ?_, fun _ h => absurd ⟨hre, hhang⟩ h, fun h => absurd hre h⟩
      · exact absurd (hhung.symm.trans h) (by decide)
      · exact absurd (hhung.symm.trans h) (by decide)
      · obtain ⟨hm, al, hal, -⟩ := h.2.1
        rcases hhang with hnone | ⟨-, hnone⟩
        · exact absurd (hm.symm.trans hnone) nofun
        · exact absurd (hal.symm.trans hnone) nofun
    by_cases hmust : MustRebind dev.toFenceDev (w.bo o) t
    · obtain ⟨hfails, hsucceeds, hhung⟩ := retile_rebinds s hmust
      rw [hrun] at hhung
      by_cases hf : UnbindFails o w
      · obtain ⟨hret, hsame⟩ := hfails hf
        have hrf : RebindFails dev.toFenceDev o w t s := ⟨hre, hmust, hf⟩
        have hneeds : dev.needsBit17Swizzle ((retile dev.toFenceDev o t s w).2.bo o) =
            dev.needsBit17Swizzle (w.bo o) := by
          unfold SwizzleDev.needsBit17Swizzle FenceBo.tiled
          rw [hsame.tilingMode]
          rfl
        refine ⟨fun h => ?_, fun h => ⟨fun _ _ => ?_, fun _ h0 => absurd h0 hret⟩⟩
        · obtain ⟨hkept, hbit⟩ := h.failed hhung hret
          exact ⟨fun _ => ⟨hkept.mapAndFenceable.symm.trans hsame.mapAndFenceable, hneeds ▸ hbit⟩,
            fun h => absurd hrf h, fun h => absurd hre h⟩
        · obtain ⟨hmap, hbit⟩ := h.failed hrf
          exact ⟨⟨hsame.tilingMode, hsame.stride, hsame.mapAndFenceable.trans hmap.symm,
            hsame.fenceDirty⟩, hneeds.trans hbit⟩
      · obtain ⟨hret, b, hsize, hspace, hbo⟩ := hsucceeds hf
        have hrf : ¬RebindFails dev.toFenceDev o w t s := fun h => hf h.2.2
        have hwell := wellTiled_retiled_iff (b := b) (hsize ▸ hok) fun h => absurd hspace h
        rw [← hbo] at hwell
        exact ⟨fun h => ⟨fun h => absurd h hrf, fun _ _ => hwell.mp (h.succeeded hhung hret),
          fun h => absurd hre h⟩, fun h => ⟨fun _ h0 => absurd hret h0,
          fun _ _ => hwell.mpr (h.mode hrf fun h => hhang h.2)⟩⟩
    · obtain ⟨m, hm, hal, hplaced⟩ := stays hhang hmust
      obtain ⟨hret, hhung, hbo⟩ := retile_stays s hm hal
      rw [hrun] at hhung
      have hrf : ¬RebindFails dev.toFenceDev o w t s := fun h => hmust h.2.1
      have hwell := wellTiled_retiled_iff (b := (w.bo o).remapped m) hok hplaced
      rw [← hbo] at hwell
      exact ⟨fun h => ⟨fun h => absurd h hrf, fun _ _ => hwell.mp (h.succeeded hhung hret),
        fun h => absurd hre h⟩, fun h => ⟨fun _ h0 => absurd hret h0,
        fun _ _ => hwell.mpr (h.mode hrf fun h => hhang h.2)⟩⟩
  · rw [setTiling_same hre]
    obtain ⟨ht, hs⟩ := not_or.mp hre
    rw [not_not] at ht hs
    have hmode : t.setWidth 2 = (w.bo o).tilingMode := by
      rw [ht, FenceBo.tiling]
      generalize (w.bo o).tilingMode = x
      revert x
      decide
    refine ⟨fun h => ?_, fun h => ⟨fun _ h0 => absurd rfl h0, fun _ _ => ⟨?_, ?_, ?_⟩⟩⟩
    · have hwell := h.succeeded hrun rfl
      refine ⟨fun h => absurd h.1 hre, fun _ _ => ?_, fun _ hb hm => ?_⟩
      · exact hmode ▸ tiling_mode.mp hwell.mode
      · exact ht ▸ hwell.placed hb hm
    · exact tiling_mode.mpr (hmode ▸ h.mode (fun h => hre h.1) fun h => hre h.1)
    · exact hs ▸ ht ▸ hok
    · exact fun hb hm => ht ▸ h.placed hre hb hm

/-- A call fails without a change or succeeds with a tiling that is well formed if and only if
its object can be tiled as the tests let pass. -/
theorem set_tiling_tiles_well (dev : SwizzleDev) (o : ℕ) (pins tiling stride : BitVec 32)
    (bit17 : Bool) (w : FenceState) (hrun : w.hung = false) :
    TilesWell dev o bit17 w (setTilingIoctl dev o pins tiling stride bit17 w) ↔
      ∀ t s, dev.testTiling { w.bo o with pinCount := pins } tiling stride = .ok (t, s) →
        CanTile dev o bit17 w t s := by
  cases htest : dev.testTiling { w.bo o with pinCount := pins } tiling stride with
  | error ret =>
    rw [setTilingIoctl_error htest]
    exact iff_of_true ⟨fun _ _ => ⟨.refl _, rfl⟩, fun _ h => absurd h (testTiling_error htest)⟩
      nofun
  | ok p =>
    obtain ⟨t, s⟩ := p
    rw [tilesWell_iff hrun htest]
    refine ⟨fun h t' s' he => ?_, fun h => h t s rfl⟩
    cases he
    exact h

end

/-- A third-generation device that does not swizzle by bit 17. -/
def gen3Swizzle : SwizzleDev := { gen3Dev with bit17 := false, known := nofun }

/-- One page, linear and bound behind the first page of the aperture, and a wait that returns
`ret`. -/
def boundPage (ret : ℤ) : FenceState where
  bo _ := { size := 0x1000, gttSpace := some ⟨0x1000, 0x1000⟩, gttOffset := 0x1000 }
  coming _ := { ret := ret }

theorem set_tiling_tiles_well_boundPage :
    TilesWell gen3Swizzle 0 false (boundPage 0)
      (setTilingIoctl gen3Swizzle 0 0 tilingX 512 false (boundPage 0)) := by
  refine (set_tiling_tiles_well gen3Swizzle 0 0 tilingX 512 false (boundPage 0) rfl).mpr ?_
  intro t s h
  cases h
  refine ⟨fun h => ?_, fun _ _ => by decide, fun h => absurd (.inl (by decide)) h⟩
  rcases h.2.2.2 with hpin | hwait | hlast
  · exact absurd rfl hpin
  · exact absurd rfl hwait
  · exact absurd hlast.1 (by decide)

/-- After an interrupted wait the page keeps its mode and stride but is no longer mappable and
fenceable; a mode that is none of the three is accepted. -/
theorem set_tiling_changes_what_it_refuses :
    ((setTilingIoctl gen3Swizzle 0 0 tilingX 512 false (boundPage eIntr)).1.1 = eIntr ∧
      ((boundPage eIntr).bo 0).mapAndFenceable = true ∧
      ¬TilesWell gen3Swizzle 0 false (boundPage eIntr)
        (setTilingIoctl gen3Swizzle 0 0 tilingX 512 false (boundPage eIntr))) ∧
    (setTilingIoctl gen3Swizzle 0 0 3 512 false (boundPage 0)).1.1 = 0 ∧
      ((setTilingIoctl gen3Swizzle 0 0 3 512 false (boundPage 0)).2.bo 0).tilingMode = 3 ∧
      ¬TilesWell gen3Swizzle 0 false (boundPage 0)
        (setTilingIoctl gen3Swizzle 0 0 3 512 false (boundPage 0)) := by
  have hret : (setTilingIoctl gen3Swizzle 0 0 tilingX 512 false (boundPage eIntr)).1.1 = eIntr := by
    decide
  have hmode : ((setTilingIoctl gen3Swizzle 0 0 3 512 false (boundPage 0)).2.bo 0).tilingMode = 3 := by
    decide
  refine ⟨⟨hret, rfl, fun h => ?_⟩, by decide, hmode, fun h => ?_⟩
  · have hsame := (h.failed (by decide) (by decide)).1.mapAndFenceable
    exact absurd hsame (by decide)
  · exact tiling_mode.mp (h.succeeded (by decide) (by decide)).mode hmode

end GfxDrm.Fence
