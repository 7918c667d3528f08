import Mathlib.Data.Finset.Card
import GfxDrm.Idr.Map
import GfxDrm.Lib.Run

/-! What a failed idr_get_new_above leaves: the ids that later calls can still obtain. -/

namespace GfxDrm
open Run

variable {α : Type*}

/-- The ids that a row of calls obtains. -/
def idrIds (idr : Idr α) : List Int32 → List ℕ
  | [] => []
  | start :: l =>
    let r := idrGetNewAbove idr none start true
    match r.1 with
    | .ok id => id :: idrIds r.2 l
    | .error _ => idrIds r.2 l

/-- Some row of calls obtains the id. -/
def Idr.Obtainable (idr : Idr α) (id : ℕ) : Prop := ∃ starts, id ∈ idrIds idr starts

/-- A call that may change the allocator, and whether its allocation succeeds. -/
inductive IdrRequest (α : Type*)
  | getNewAbove (obj : Option α) (start : Int32) (alloc : Bool)
  | replace (obj : Option α) (id : ℕ)
  | remove (id : ℕ) (alloc : Bool)
  | removeAll

def IdrRequest.run (idr : Idr α) : IdrRequest α → Idr α
  | .getNewAbove obj start alloc => (idrGetNewAbove idr obj start alloc).2
  | .replace obj id => (idrReplace idr obj id).2
  | .remove id alloc => (idrRemove idr id alloc).2
  | .removeAll => idrInit

def idrSystem (α : Type*) : System (Idr α) (IdrRequest α) where
  init idr := idr = idrInit
  step idr call idr' := idr' = call.run idr

namespace Idr
variable {idr : Idr α} {lost : ℕ → Prop} {id st : ℕ} {start : Int32}

/-- The ranges account for the ids in use and the lost ones. -/
structure Account (idr : Idr α) (lost : ℕ → Prop) : Prop where
  ranges : Partition (fun i => idr.Used i ∨ lost i) 0 idr.freeIdRanges
  lt_end : ∀ i, idr.Used i ∨ lost i → i < idEnd

theorem Inv.account (h : Inv idr) : Account idr fun _ => False := by
  constructor <;> simp only [or_false]
  · exact h.ranges
  · exact h.used_lt

/-- The loop finds a free id, or all from `st` on are taken. -/
theorem Account.getFreeId (h : Account idr lost) (hst : st ≤ idEnd) :
    (∃ id rs, getFreeIdFrom st (GfxDrm.rangesFrom idr.freeIdRanges st) = some (id, rs) ∧ st ≤ id ∧
        id < idEnd ∧ ¬ (idr.Used id ∨ lost id) ∧
        Partition (fun i => i = id ∨ (idr.Used i ∨ lost i)) 0 rs) ∨
      getFreeIdFrom st (GfxDrm.rangesFrom idr.freeIdRanges st) = none ∧
        Partition (fun i => idr.Used i ∨ lost i) 0 (GfxDrm.rangesFrom idr.freeIdRanges st) ∧
        ∀ i, st ≤ i → i < idEnd → idr.Used i ∨ lost i := by
  cases hget : getFreeIdFrom st (GfxDrm.rangesFrom idr.freeIdRanges st) with
  | some p =>
    obtain ⟨id, rs⟩ := p
    obtain ⟨hs, he, hnot, hranges⟩ := h.ranges.getFreeIdFrom hst hget
    exact .inl ⟨id, rs, rfl, hs, he, hnot, hranges⟩
  | none =>
    obtain ⟨hp, hr₀⟩ := h.ranges.rangesFrom hst
    obtain ⟨l₁, l₂, heq, hhead, hcases⟩ := getFreeIdFrom_cases hr₀
    have hsuf := (heq ▸ hp).suffix hhead
    rw [hcases, Option.map_eq_none_iff] at hget
    refine .inr ⟨rfl, hp, fun i hs he => ?_⟩
    obtain ⟨r, hr, hrs, hre⟩ := hsuf.exists_range hs he
    exact (hsuf.ok r hr).full (getFreeId_none hget r hr) hrs hre

/-- A call that obtains an id. -/
theorem Account.ok (h : Account idr lost) (obj : Option α) {alloc : Bool}
    (hok : (idrGetNewAbove idr obj start alloc).1 = .ok id) :
    start.toInt ≤ id ∧ id < idEnd ∧ ¬ (idr.Used id ∨ lost id) ∧
      Account (idrGetNewAbove idr obj start alloc).2 lost ∧
      (idrGetNewAbove idr obj start alloc).2.Used = fun i => i = id ∨ idr.Used i := by
  unfold idrGetNewAbove at hok ⊢
  by_cases hneg : start.toInt < 0
  · rw [if_pos hneg] at hok
    cases hok
  rw [if_neg hneg] at hok ⊢
  have hlt : start.toInt < 2 ^ 31 := start.toInt_lt
  have hend : idEnd = 0x7fffffff := rfl
  have hcast : (start.toInt.toNat : ℤ) = start.toInt := Int.toNat_of_nonneg (by omega)
  generalize start.toInt.toNat = st at hcast hok ⊢
  dsimp only at hok ⊢
  rcases h.getFreeId (show st ≤ idEnd by omega) with ⟨i, rs, hget, hs, he, hnot, hranges⟩ |
    ⟨hget, -, -⟩
  · rw [hget] at hok ⊢
    cases alloc with
    | false => cases hok
    | true =>
      obtain rfl : i = id := Except.ok.inj hok
      have hused : Used (⟨idr.usedIds.insert i obj, rs⟩ : Idr α) = fun k => k = i ∨ idr.Used k :=
        used_insert
      refine ⟨by omega, he, hnot, ⟨?_, fun k hk => ?_⟩, hused⟩
      · show Partition (fun k => Used (⟨idr.usedIds.insert i obj, rs⟩ : Idr α) k ∨ lost k) 0 rs
        rw [hused]
        simpa only [or_assoc] using hranges
      · change Used (⟨idr.usedIds.insert i obj, rs⟩ : Idr α) k ∨ lost k at hk
        rw [hused] at hk
        rcases hk with (rfl | hk) | hk
        · exact he
        · exact h.lt_end k (.inl hk)
        · exact h.lt_end k (.inr hk)
  · rw [hget] at hok
    cases hok

/-- A call that obtains none, its allocation succeeding. -/
theorem Account.error (h : Account idr lost) (obj : Option α) {e : ℤ}
    (herror : (idrGetNewAbove idr obj start true).1 = .error e) :
    Account (idrGetNewAbove idr obj start true).2 lost ∧
      (idrGetNewAbove idr obj start true).2.Used = idr.Used ∧
      (start.toInt < 0 ∨ ∀ i : ℕ, start.toInt ≤ i → i < idEnd → idr.Used i ∨ lost i) := by
  unfold idrGetNewAbove at herror ⊢
  by_cases hneg : start.toInt < 0
  · rw [if_pos hneg]
    exact ⟨h, rfl, .inl hneg⟩
  rw [if_neg hneg] at herror ⊢
  have hlt : start.toInt < 2 ^ 31 := start.toInt_lt
  have hend : idEnd = 0x7fffffff := rfl
  have hcast : (start.toInt.toNat : ℤ) = start.toInt := Int.toNat_of_nonneg (by omega)
  generalize start.toInt.toNat = st at hcast herror ⊢
  dsimp only at herror ⊢
  rcases h.getFreeId (show st ≤ idEnd by omega) with ⟨i, rs, hget, -⟩ | ⟨hget, hp, hall⟩
  · rw [hget] at herror
    cases herror
  · rw [hget]
    exact ⟨⟨hp, h.lt_end⟩, rfl, .inr fun i hs he => hall i (by omega) he⟩

/-! ### Obtainable ids -/

theorem Account.mem_ids (h : Account idr lost) (starts : List Int32) (hid : id ∈ idrIds idr starts) :
    id < idEnd ∧ ¬ (idr.Used id ∨ lost id) := by
  induction starts generalizing idr with
  | nil => cases hid
  | cons start l ih =>
    unfold idrIds at hid
    dsimp only at hid
    cases hret : (idrGetNewAbove idr none start true).1 with
    | ok i =>
      obtain ⟨-, hi, hnot, hnext, hused⟩ := h.ok none hret
      rw [hret] at hid
      rcases List.mem_cons.mp hid with rfl | hid
      · exact ⟨hi, hnot⟩
      · obtain ⟨hlt, hfree⟩ := ih hnext hid
        rw [hused] at hfree
        exact ⟨hlt, fun hu => hfree (hu.imp_left .inr)⟩
    | error e =>
      obtain ⟨hnext, hused, -⟩ := h.error none hret
      rw [hret] at hid
      obtain ⟨hlt, hfree⟩ := ih hnext hid
      rw [hused] at hfree
      exact ⟨hlt, hfree⟩

theorem toInt_ofNat (hid : id < idEnd) : (Int32.ofNat id).toInt = id := by
  have hend : idEnd = 0x7fffffff := rfl
  exact Int32.toInt_ofNat_of_lt (by omega)

/-- A free id is obtained sooner or later when its own number is asked for: every other id that comes
first is one free id less. -/
theorem Account.exists_starts (h : Account idr lost) (hid : id < idEnd)
    (hfree : ¬ (idr.Used id ∨ lost id)) : ∃ starts, id ∈ idrIds idr starts := by
  classical
  generalize hn : ((Finset.range idEnd).filter fun i => ¬ (idr.Used i ∨ lost i)).card = n
  induction n using Nat.strong_induction_on generalizing idr with
  | _ n ih =>
  cases hret : (idrGetNewAbove idr none (Int32.ofNat id) true).1 with
  | error e =>
    obtain ⟨-, -, hneg | hall⟩ := h.error none hret
    · rw [toInt_ofNat hid] at hneg
      omega
    · exact absurd (hall id (toInt_ofNat hid).le hid) hfree
  | ok i =>
    obtain ⟨-, hi, hnot, hnext, hused⟩ := h.ok none hret
    by_cases heq : i = id
    · refine ⟨[Int32.ofNat id], ?_⟩
      simp [idrIds, hret, heq]
    · have hlt : ((Finset.range idEnd).filter fun k =>
          ¬ ((idrGetNewAbove idr none (Int32.ofNat id) true).2.Used k ∨ lost k)).card < n := by
        rw [← hn]
        refine Finset.card_lt_card (Finset.ssubset_iff_of_subset ?_ |>.mpr ⟨i, ?_, ?_⟩)
        · intro k hk
          simp only [Finset.mem_filter, hused] at hk ⊢
          exact ⟨hk.1, fun hu => hk.2 (hu.imp_left .inr)⟩
        · simpa using ⟨hi, by simpa using hnot⟩
        · simp [hused]
      obtain ⟨starts, hmem⟩ := ih _ hlt hnext (by
        rw [hused]
        rintro ((heq' | hu) | hl)
        · exact heq heq'.symm
        · exact hfree (.inl hu)
        · exact hfree (.inr hl)) rfl
      refine ⟨Int32.ofNat id :: starts, ?_⟩
      unfold idrIds
      dsimp only
      rw [hret]
      exact List.mem_cons_of_mem _ hmem

/-- The ids that can be obtained are the ones neither used nor lost. -/
theorem Account.obtainable_iff (h : Account idr lost) (id : ℕ) :
    idr.Obtainable id ↔ id < idEnd ∧ ¬ (idr.Used id ∨ lost id) :=
  ⟨fun ⟨starts, hmem⟩ => h.mem_ids starts hmem, fun ⟨hid, hfree⟩ => h.exists_starts hid hfree⟩

end Idr

/-! ### Failed calls -/

/-- A failed call has a reason, and leaves the same ids used and the same ones obtainable. -/
def Idr.FailsWell (idr : Idr α) (obj : Option α) (start : Int32) (alloc : Bool) : Prop :=
  ∀ e, (idrGetNewAbove idr obj start alloc).1 = .error e →
    (start.toInt < 0 ∨ alloc = false ∨
      ∀ id : ℕ, start.toInt ≤ id → id ≤ 0x7ffffffe → idr.Used id) ∧
    (idrGetNewAbove idr obj start alloc).2.ptrs = idr.ptrs ∧
    ∀ id, (idrGetNewAbove idr obj start alloc).2.Obtainable id ↔ idr.Obtainable id

/-- No allocation fails in a call that has found an id. -/
def IdrRequest.Allocates (idr : Idr α) : IdrRequest α → Prop
  | .getNewAbove _ start alloc => alloc = true ∨ start.toInt < 0 ∨
      ∀ id : ℕ, start.toInt ≤ id → id ≤ 0x7ffffffe → idr.Used id
  | _ => True

namespace Idr
variable {idr : Idr α} {start : Int32} {alloc : Bool}

/-- Without a free id the allocation is not tried. -/
theorem Inv.getNewAbove_of_used (h : Inv idr) (obj : Option α)
    (hused : start.toInt < 0 ∨ ∀ id : ℕ, start.toInt ≤ id → id ≤ 0x7ffffffe → idr.Used id) :
    idrGetNewAbove idr obj start alloc = idrGetNewAbove idr obj start true := by
  unfold idrGetNewAbove
  by_cases hneg : start.toInt < 0
  · rw [if_pos hneg, if_pos hneg]
  have hused := hused.resolve_left hneg
  have hlt : start.toInt < 2 ^ 31 := start.toInt_lt
  have hend : idEnd = 0x7fffffff := rfl
  have hcast : (start.toInt.toNat : ℤ) = start.toInt := Int.toNat_of_nonneg (by omega)
  generalize start.toInt.toNat = st at hcast ⊢
  rcases h.account.getFreeId (show st ≤ idEnd by omega) with ⟨i, rs, -, hs, he, hnot, -⟩ |
    ⟨hget, -, -⟩
  · exact absurd (.inl (hused i (by omega) (by omega))) hnot
  · dsimp only
    rw [hget]

theorem Inv.run (h : Inv idr) {call : IdrRequest α} (hcall : call.Allocates idr) :
    Inv (call.run idr) := by
  cases call with
  | getNewAbove obj start alloc =>
    have heq : idrGetNewAbove idr obj start alloc = idrGetNewAbove idr obj start true := by
      rcases hcall with rfl | hused
      · rfl
      · exact h.getNewAbove_of_used obj hused
    show Inv (idrGetNewAbove idr obj start alloc).2
    rw [heq]
    exact (getNewAbove_step h obj start).2
  | replace obj id => exact (replace_step h obj id).2
  | remove id alloc =>
    cases alloc with
    | true => exact (remove_step h id).2
    | false =>
      have hkept : (idrRemove idr id false).2 = idr := by
        unfold idrRemove
        split <;> rfl
      show Inv (idrRemove idr id false).2
      rwa [hkept]
  | removeAll => exact idrInit_inv

theorem Inv.failsWell (h : Inv idr) (obj : Option α)
    (hcall : (IdrRequest.getNewAbove obj start alloc).Allocates idr) :
    idr.FailsWell obj start alloc := by
  intro e herror
  have heq : idrGetNewAbove idr obj start alloc = idrGetNewAbove idr obj start true := by
    rcases hcall with rfl | hused
    · rfl
    · exact h.getNewAbove_of_used obj hused
  rw [heq] at herror ⊢
  obtain ⟨hnext, hused, hcause⟩ := h.account.error obj herror
  have hptrs : (idrGetNewAbove idr obj start true).2.ptrs = idr.ptrs := by
    have hstep := (getNewAbove_step h obj start).1
    rw [herror] at hstep
    exact hstep.1
  refine ⟨hcause.imp_right fun hall => .inr fun id hs he => ?_, hptrs, fun id => ?_⟩
  · have hend : idEnd = 0x7fffffff := rfl
    exact (hall id hs (by omega)).resolve_right not_false
  · rw [hnext.obtainable_iff, h.account.obtainable_iff, hused]

/-- An allocation that fails after an id was found loses it. -/
theorem Inv.not_failsWell (h : Inv idr) (obj : Option α) (id : ℕ) (hneg : ¬ start.toInt < 0)
    (hs : start.toInt ≤ id) (hid : id ≤ 0x7ffffffe) (hfree : ¬ idr.Used id) :
    ¬ idr.FailsWell obj start false := by
  intro hwell
  have hend : idEnd = 0x7fffffff := rfl
  rcases h.account.getFreeId (show start.toInt.toNat ≤ idEnd by omega) with
    ⟨i, rs, hget, -, he, hnot, hranges⟩ | ⟨-, -, hall⟩
  · have hret : idrGetNewAbove idr obj start false =
        (.error Errno.eNomem, { idr with freeIdRanges := rs }) := by
      unfold idrGetNewAbove
      rw [if_neg hneg]
      dsimp only
      rw [hget]
      rfl
    have hlost : Account ({ idr with freeIdRanges := rs } : Idr α) fun k => k = i := by
      refine ⟨?_, fun k hk => ?_⟩
      · have heq : (fun k => k = i ∨ (idr.Used k ∨ False)) = fun k => idr.Used k ∨ k = i := by
          funext k
          rw [or_false, or_comm]
        exact heq ▸ hranges
      · rcases hk with hk | rfl
        · exact h.used_lt k hk
        · exact he
    have hsame := (hwell _ (congrArg Prod.fst hret)).2.2 i
    rw [hret, hlost.obtainable_iff, h.account.obtainable_iff] at hsame
    exact (hsame.mpr ⟨he, hnot⟩).2 (.inr rfl)
  · exact hfree ((hall id (by omega) (by omega)).resolve_right False.elim)

theorem reach_inv (h : ReachWhile (idrSystem α) (fun idr call => call.Allocates idr) idr) :
    Inv idr :=
  h.invariant (fun _ hinit => hinit ▸ idrInit_inv) fun _ _ _ hinv hcall hstep => hstep ▸ hinv.run hcall

end Idr

end GfxDrm
