import GfxDrm.Idr.Ranges

/-! The allocator is a finite map from ids to pointers. -/

namespace GfxDrm

inductive IdrOp (α : Type*)
  | getNewAbove (obj : Option α) (start : Int32)
  | find (id : ℕ)
  | replace (obj : Option α) (id : ℕ)
  | remove (id : ℕ)

inductive IdrRet (α : Type*)
  | newId (r : Except ℤ ℕ)
  | ptr (p : Option α)
  | old (r : Except ℤ (Option α))
  | code (c : ℤ)

/-- What a caller thinks of: the pointers under the live ids. -/
abbrev PtrMap (α : Type*) := ℕ → Option (Option α)

/-- What each call promises of the map. -/
def PtrMap.Step {α : Type*} (m : PtrMap α) : IdrOp α → IdrRet α → PtrMap α → Prop
  | .getNewAbove obj start, .newId (.ok id), m' =>
    start.toInt ≤ id ∧ id ≤ 0x7ffffffe ∧ m id = none ∧ m' = Function.update m id (some obj)
  | .getNewAbove _ start, .newId (.error e), m' =>
    m' = m ∧ (start.toInt < 0 ∧ e = Errno.eInval ∨
      0 ≤ start.toInt ∧ e = -1 ∧ ∀ id : ℕ, start.toInt ≤ id → id ≤ 0x7ffffffe → m id ≠ none)
  | .find id, .ptr p, m' => m' = m ∧ p = (m id).join
  | .replace obj id, .old (.ok p), m' => m id = some p ∧ m' = Function.update m id (some obj)
  | .replace _ id, .old (.error e), m' => m id = none ∧ e = Errno.eInval ∧ m' = m
  | .remove id, .code c, m' =>
    m id ≠ none ∧ c = 0 ∧ m' = Function.update m id none ∨
      m id = none ∧ c = Errno.eInval ∧ m' = m
  | _, _, _ => False

/-- A sequence of calls with what they returned. -/
inductive PtrMap.Run {α : Type*} : PtrMap α → List (IdrOp α) → List (IdrRet α) → PtrMap α → Prop
  | nil (m : PtrMap α) : Run m [] [] m
  | cons {m m' m'' : PtrMap α} {op : IdrOp α} {ret : IdrRet α} {ops : List (IdrOp α)}
      {rets : List (IdrRet α)} (h : m.Step op ret m') (hr : Run m' ops rets m'') :
      Run m (op :: ops) (ret :: rets) m''

/-- One call, its allocations succeeding. -/
def IdrOp.apply {α : Type*} (idr : Idr α) : IdrOp α → IdrRet α × Idr α
  | .getNewAbove obj start =>
    let r := idrGetNewAbove idr obj start true
    (.newId r.1, r.2)
  | .find id => (.ptr (idrFind idr id), idr)
  | .replace obj id =>
    let r := idrReplace idr obj id
    (.old r.1, r.2)
  | .remove id =>
    let r := idrRemove idr id true
    (.code r.1, r.2)

def idrRun {α : Type*} (idr : Idr α) : List (IdrOp α) → List (IdrRet α) × Idr α
  | [] => ([], idr)
  | op :: ops =>
    let r := op.apply idr
    let rest := idrRun r.2 ops
    (r.1 :: rest.1, rest.2)

namespace Idr
variable {α : Type*} {idr : Idr α} {id : ℕ}

/-- The map an allocator stands for. -/
def ptrs (idr : Idr α) : PtrMap α := fun id => idr.usedIds.lookup id

def Used (idr : Idr α) (id : ℕ) : Prop := idr.ptrs id ≠ none

/-- The ranges partition the ids and account for the used ones. -/
structure Inv (idr : Idr α) : Prop where
  ranges : Partition idr.Used 0 idr.freeIdRanges
  used_lt : ∀ id, idr.Used id → id < idEnd

theorem ptrs_insert (idr : Idr α) (id : ℕ) (obj : Option α) (rs : List IdrFreeIdRange) :
    ptrs ⟨idr.usedIds.insert id obj, rs⟩ = Function.update idr.ptrs id (some obj) := by
  funext i
  unfold ptrs
  by_cases hi : i = id
  · subst hi
    rw [AList.lookup_insert, Function.update_self]
  · rw [AList.lookup_insert_ne hi, Function.update_of_ne hi]

theorem ptrs_erase (idr : Idr α) (id : ℕ) (rs : List IdrFreeIdRange) :
    ptrs ⟨idr.usedIds.erase id, rs⟩ = Function.update idr.ptrs id none := by
  funext i
  unfold ptrs
  by_cases hi : i = id
  · subst hi
    rw [AList.lookup_erase, Function.update_self]
  · rw [AList.lookup_erase_ne hi, Function.update_of_ne hi]

theorem idrInit_inv : Inv (idrInit : Idr α) where
  ranges :=
    { contiguous := ⟨rfl, .inr rfl, rfl⟩
      ok := by
        intro r hr
        obtain rfl : r = frNew 0 := by simpa [idrInit] using hr
        refine ⟨le_rfl, Nat.zero_le _, List.nodup_nil, fun id => ?_, by simp [frNew]⟩
        simp [frNew, Used, ptrs, idrInit] }
  used_lt id hu := by simp [Used, ptrs, idrInit] at hu

/-! ### The pointers -/

theorem mem_entries {p : Option α} : ⟨id, p⟩ ∈ idr.usedIds.entries ↔ idr.ptrs id = some p :=
  AList.mem_lookup_iff.symm

theorem nodup_entries (idr : Idr α) : idr.usedIds.entries.Nodup := idr.usedIds.nodupKeys.nodup

/-- One pointer more. -/
theorem idrPointers_insert {idr' : Idr α} {p : Option α} (hfree : idr.ptrs id = none)
    (h : idr'.ptrs = Function.update idr.ptrs id (some p)) :
    (idrPointers idr').Perm (p :: idrPointers idr) := by
  have hnot : (⟨id, p⟩ : Sigma fun _ : ℕ => Option α) ∉ idr.usedIds.entries := by
    rw [mem_entries, hfree]
    exact Option.some_ne_none p ∘ Eq.symm
  have hperm : idr'.usedIds.entries.Perm (⟨id, p⟩ :: idr.usedIds.entries) := by
    refine (List.perm_ext_iff_of_nodup idr'.nodup_entries
      (List.nodup_cons.mpr ⟨hnot, idr.nodup_entries⟩)).mpr ?_
    rintro ⟨i, q⟩
    rw [mem_entries, h, List.mem_cons, mem_entries]
    by_cases hi : i = id
    · subst hi
      simp [hfree, eq_comm]
    · simp [hi]
  exact hperm.map _

theorem idrPointers_congr {idr' : Idr α} (h : idr'.ptrs = idr.ptrs) :
    (idrPointers idr').Perm (idrPointers idr) := by
  refine List.Perm.map _ ((List.perm_ext_iff_of_nodup idr'.nodup_entries idr.nodup_entries).mpr ?_)
  rintro ⟨i, q⟩
  rw [mem_entries, h, mem_entries]

/-- One pointer less. -/
theorem idrPointers_remove {idr' : Idr α} {p : Option α} (hid : idr.ptrs id = some p)
    (h : idr'.ptrs = Function.update idr.ptrs id none) :
    (idrPointers idr).Perm (p :: idrPointers idr') := by
  have hfree : idr'.ptrs id = none := by rw [h, Function.update_self]
  have hback : idr.ptrs = Function.update idr'.ptrs id (some p) := by
    rw [h, Function.update_idem, ← hid, Function.update_eq_self]
  exact idrPointers_insert hfree hback

/-- A pointer under one id only is met once. -/
theorem count_idrPointers [DecidableEq α] {x : α} {k : ℕ}
    (h : ∀ n, idr.ptrs n = some (some x) → n = k) :
    (idrPointers idr).count (some x) = if (idr.ptrs k).join = some x then 1 else 0 := by
  have hcount : (idrPointers idr).count (some x) =
      idr.usedIds.entries.count ⟨k, some x⟩ := by
    unfold idrPointers
    rw [List.count, List.countP_map]
    refine List.countP_congr fun a ha => ?_
    obtain ⟨n, p⟩ := a
    have hiff : p = some x ↔ (⟨n, p⟩ : Sigma fun _ : ℕ => Option α) = ⟨k, some x⟩ := by
      constructor
      · rintro rfl
        rw [h n (mem_entries.mp ha)]
      · rintro ⟨⟩
        rfl
    simpa using hiff
  have hmem : (⟨k, some x⟩ : Sigma fun _ : ℕ => Option α) ∈ idr.usedIds.entries ↔
      (idr.ptrs k).join = some x := mem_entries.trans Option.join_eq_some_iff.symm
  rw [hcount, idr.nodup_entries.count]
  exact if_congr hmem rfl rfl

/-! ### The four calls -/

theorem used_insert {obj : Option α} {rs : List IdrFreeIdRange} :
    Used ⟨idr.usedIds.insert id obj, rs⟩ = fun i => i = id ∨ idr.Used i := by
  funext i
  unfold Used
  rw [ptrs_insert]
  by_cases hi : i = id <;> simp [hi]

theorem used_erase {rs : List IdrFreeIdRange} :
    Used ⟨idr.usedIds.erase id, rs⟩ = fun i => i ≠ id ∧ idr.Used i := by
  funext i
  unfold Used
  rw [ptrs_erase]
  by_cases hi : i = id <;> simp [hi]

theorem getNewAbove_step (h : Inv idr) (obj : Option α) (start : Int32) :
    idr.ptrs.Step (.getNewAbove obj start) (.newId (idrGetNewAbove idr obj start true).1)
        (idrGetNewAbove idr obj start true).2.ptrs ∧
      Inv (idrGetNewAbove idr obj start true).2 := by
  unfold idrGetNewAbove
  by_cases hneg : start.toInt < 0
  · rw [if_pos hneg]
    exact ⟨⟨rfl, .inl ⟨hneg, rfl⟩⟩, h⟩
  rw [if_neg hneg]
  have hlt : start.toInt < 2 ^ 31 := start.toInt_lt
  have hend : idEnd = 0x7fffffff := rfl
  have hcast : (start.toInt.toNat : ℤ) = start.toInt := Int.toNat_of_nonneg (by omega)
  generalize start.toInt.toNat = st at hcast ⊢
  have hst : st ≤ idEnd := by omega
  dsimp only
  cases hget : getFreeIdFrom st (rangesFrom idr.freeIdRanges st) with
  | none =>
    obtain ⟨hp, hr₀⟩ := h.ranges.rangesFrom hst
    obtain ⟨l₁, l₂, heq, hhead, hcases⟩ := getFreeIdFrom_cases hr₀
    have hsuf := (heq ▸ hp).suffix hhead
    rw [hcases, Option.map_eq_none_iff] at hget
    refine ⟨⟨rfl, .inr ⟨by omega, rfl, fun id hs he => ?_⟩⟩, hp, h.used_lt⟩
    obtain ⟨r, hr, hrs, hre⟩ := hsuf.exists_range (show st ≤ id by omega) (by omega)
    exact (hsuf.ok r hr).full (getFreeId_none hget r hr) hrs hre
  | some p =>
    obtain ⟨hs, he, hnu, hranges⟩ := h.ranges.getFreeIdFrom hst hget
    refine ⟨⟨by omega, by omega, not_not.mp hnu, ptrs_insert _ _ _ _⟩, ?_, ?_⟩
    · simp only [if_true]
      rwa [used_insert]
    · simp only [if_true]
      rw [used_insert]
      rintro i (rfl | hi)
      · exact he
      · exact h.used_lt i hi

theorem remove_step (h : Inv idr) (id : ℕ) :
    idr.ptrs.Step (.remove id) (.code (idrRemove idr id true).1) (idrRemove idr id true).2.ptrs ∧
      Inv (idrRemove idr id true).2 := by
  unfold idrRemove
  cases hl : idr.usedIds.lookup id with
  | none => exact ⟨.inr ⟨hl, rfl, rfl⟩, h⟩
  | some p =>
    have hu : idr.Used id := by simp [Used, ptrs, hl]
    refine ⟨.inl ⟨hu, rfl, ptrs_erase _ _ _⟩, ?_, ?_⟩
    · simp only [if_true]
      rw [used_erase]
      exact h.ranges.putId hu (h.used_lt id hu)
    · simp only [if_true]
      rw [used_erase]
      exact fun i hi => h.used_lt i hi.2

theorem replace_step (h : Inv idr) (obj : Option α) (id : ℕ) :
    idr.ptrs.Step (.replace obj id) (.old (idrReplace idr obj id).1)
        (idrReplace idr obj id).2.ptrs ∧ Inv (idrReplace idr obj id).2 := by
  unfold idrReplace
  cases hl : idr.usedIds.lookup id with
  | none => exact ⟨⟨hl, rfl, rfl⟩, h⟩
  | some old =>
    have hu : idr.Used id := by simp [Used, ptrs, hl]
    have hused : (Idr.Used ⟨idr.usedIds.insert id obj, idr.freeIdRanges⟩) = idr.Used := by
      funext i
      by_cases hi : i = id
      · subst hi
        simp only [hu]
        simp [Used, ptrs_insert]
      · unfold Used
        rw [ptrs_insert, Function.update_of_ne hi]
    exact ⟨⟨hl, ptrs_insert _ _ _ _⟩, hused ▸ h.ranges, hused ▸ h.used_lt⟩

theorem apply_step (h : Inv idr) (op : IdrOp α) :
    idr.ptrs.Step op (op.apply idr).1 (op.apply idr).2.ptrs ∧ Inv (op.apply idr).2 := by
  cases op with
  | getNewAbove obj start => exact getNewAbove_step h obj start
  | find id => exact ⟨⟨rfl, rfl⟩, h⟩
  | replace obj id => exact replace_step h obj id
  | remove id => exact remove_step h id

theorem run_refines (h : Inv idr) (ops : List (IdrOp α)) :
    PtrMap.Run idr.ptrs ops (idrRun idr ops).1 (idrRun idr ops).2.ptrs ∧
      Inv (idrRun idr ops).2 := by
  induction ops generalizing idr with
  | nil => exact ⟨.nil _, h⟩
  | cons op ops ih =>
    obtain ⟨hstep, hinv⟩ := apply_step h op
    obtain ⟨hrun, hinv'⟩ := ih hinv
    exact ⟨.cons hstep hrun, hinv'⟩

/-! ### When allocations fail -/

/-- The ranges account for the ids in use and for those that failed calls have lost. -/
def Sound (idr : Idr α) : Prop :=
  ∃ lost : ℕ → Prop, Partition (fun i => idr.Used i ∨ lost i) 0 idr.freeIdRanges ∧
    ∀ i, idr.Used i ∨ lost i → i < idEnd

theorem Inv.sound (h : Inv idr) : Sound idr := by
  refine ⟨fun _ => False, ?_, ?_⟩ <;> simp only [or_false]
  · exact h.ranges
  · exact h.used_lt

theorem Sound.getNewAbove (h : Sound idr) (obj : Option α) (start : Int32) (alloc : Bool) :
    Sound (idrGetNewAbove idr obj start alloc).2 ∧
      ((∃ id : ℕ, (idrGetNewAbove idr obj start alloc).1 = .ok id ∧ start.toInt ≤ id ∧
        idr.ptrs id = none ∧
          (idrGetNewAbove idr obj start alloc).2.ptrs = Function.update idr.ptrs id (some obj)) ∨
      (∃ e, (idrGetNewAbove idr obj start alloc).1 = .error e) ∧
        (idrGetNewAbove idr obj start alloc).2.ptrs = idr.ptrs) := by
  obtain ⟨lost, hp, hbelow⟩ := h
  unfold idrGetNewAbove
  by_cases hneg : start.toInt < 0
  · rw [if_pos hneg]
    exact ⟨⟨lost, hp, hbelow⟩, .inr ⟨⟨_, rfl⟩, rfl⟩⟩
  rw [if_neg hneg]
  have hlt : start.toInt < 2 ^ 31 := start.toInt_lt
  have hend : idEnd = 0x7fffffff := rfl
  have hcast : (start.toInt.toNat : ℤ) = start.toInt := Int.toNat_of_nonneg (by omega)
  generalize start.toInt.toNat = st at hcast ⊢
  have hst : st ≤ idEnd := by omega
  dsimp only
  cases hget : getFreeIdFrom st (rangesFrom idr.freeIdRanges st) with
  | none => exact ⟨⟨lost, (hp.rangesFrom hst).1, hbelow⟩, .inr ⟨⟨_, rfl⟩, rfl⟩⟩
  | some p =>
    obtain ⟨id, rs⟩ := p
    obtain ⟨hs, he, hnu, hranges⟩ := hp.getFreeIdFrom hst hget
    have hnew : ∀ i, i = id ∨ (idr.Used i ∨ lost i) → i < idEnd := by
      rintro i (rfl | hi)
      · exact he
      · exact hbelow i hi
    cases alloc with
    | true =>
      simp only [if_true]
      refine ⟨⟨lost, ?_, ?_⟩, .inl ⟨id, rfl, by omega, ?_, ptrs_insert _ _ _ _⟩⟩
      · rw [used_insert]
        simpa only [or_assoc] using hranges
      · rw [used_insert]
        simpa only [or_assoc] using hnew
      · exact not_not.mp fun hu => hnu (.inl hu)
    | false =>
      -- the id is neither used nor free from then on
      refine ⟨⟨fun i => i = id ∨ lost i, ?_, ?_⟩, .inr ⟨⟨_, rfl⟩, rfl⟩⟩
      · show Partition (fun i => idr.Used i ∨ i = id ∨ lost i) 0 rs
        simpa only [or_left_comm] using hranges
      · show ∀ i, idr.Used i ∨ i = id ∨ lost i → i < idEnd
        simpa only [or_left_comm] using hnew

theorem Sound.remove (h : Sound idr) (id : ℕ) (alloc : Bool) :
    Sound (idrRemove idr id alloc).2 ∧
      (alloc = true → (idrRemove idr id alloc).2.ptrs = Function.update idr.ptrs id none) := by
  obtain ⟨lost, hp, hbelow⟩ := h
  unfold idrRemove
  cases hl : idr.usedIds.lookup id with
  | none =>
    refine ⟨⟨lost, hp, hbelow⟩, fun _ => ?_⟩
    exact (Function.update_eq_self_iff.mpr hl.symm).symm
  | some p =>
    have hu : idr.Used id := by simp [Used, ptrs, hl]
    cases alloc with
    | true =>
      simp only [if_true]
      refine ⟨⟨fun i => i ≠ id ∧ lost i, ?_, ?_⟩, fun _ => ptrs_erase _ _ _⟩
      · rw [used_erase]
        simpa only [and_or_left] using hp.putId (.inl hu) (hbelow id (.inl hu))
      · rw [used_erase]
        exact fun i hi => hbelow i (hi.imp And.right And.right)
    | false => exact ⟨⟨lost, hp, hbelow⟩, nofun⟩

end Idr

/-- Every history of calls is one of a finite map, and its ranges partition `[0, 0x7fffffff)`. -/
theorem idr_refines_map {α : Type*} (ops : List (IdrOp α)) :
    PtrMap.Run (fun _ => none) ops (idrRun idrInit ops).1 (idrRun idrInit ops).2.ptrs ∧
      Idr.Partition (idrRun idrInit ops).2.Used 0 (idrRun idrInit ops).2.freeIdRanges := by
  obtain ⟨hrun, hinv⟩ := Idr.run_refines Idr.idrInit_inv ops
  have hempty : (idrInit : Idr α).ptrs = fun _ => none := by
    funext i
    simp [Idr.ptrs, idrInit]
  exact ⟨hempty ▸ hrun, hinv.ranges⟩

end GfxDrm
