import GfxDrm.Gem.Defs
import Mathlib.Data.BitVec

/-! The hashed id lists with their buckets, all drawing from one counter (drm_sun_idr.c). -/

namespace GfxDrm
open Run

/-- DRM_GEM_OBJIDR_HASHNODE. -/
def hashNodes : ℕ := 1024

/-- `fr_id` and `fr_time`. -/
structure FrState where
  frId : ℕ := 0
  frTime : BitVec 32 := 0
  deriving DecidableEq, Repr

/-- The buckets of one id list, each with its ids and objects. -/
abbrev IdrTable := ℕ → List (ℕ × ℕ)

namespace IdrTable

def empty : IdrTable := fun _ => []

/-- idr_list_find. -/
def find (t : IdrTable) (name : ℕ) : Option ℕ := idrListFind (t (name % hashNodes)) name

/-- idr_list_remove. -/
def remove (t : IdrTable) (name : ℕ) : IdrTable :=
  Function.update t (name % hashNodes) (idrListRemove (t (name % hashNodes)) name)

def add (t : IdrTable) (id obj : ℕ) : IdrTable :=
  Function.update t (id % hashNodes) ((id, obj) :: t (id % hashNodes))

/-- The loop of idr_list_get_new_above, from `id` on. -/
def nextId (t : IdrTable) : ℕ → ℕ → ℕ
  | 0, id => id
  | fuel + 1, id => if (t.find id).isSome then nextId t fuel (id + 1) else id

def entries (t : IdrTable) : List (ℕ × ℕ) := (List.range hashNodes).flatMap t

end IdrTable

/-- The counters after `++fr_id`. -/
def FrState.next (c : FrState) : FrState :=
  if c.frId + 1 = 0x7fffffff then ⟨1, c.frTime + 1⟩ else { c with frId := c.frId + 1 }

/-- idr_list_get_new_above; `alloc` tells whether `kmem_zalloc` succeeds. -/
def IdrTable.getNewAbove (c : FrState) (t : IdrTable) (obj : ℕ) (alloc : Bool) :
    Except ℤ (ℕ × IdrTable) × FrState :=
  let c := c.next
  let id := if c.frTime = 0 then c.frId else t.nextId (0x7fffffff - c.frId) c.frId
  if c.frTime ≠ 0 ∧ 0x7fffffff ≤ id then (.error Errno.eAgain, { c with frId := 0 })
  else (if alloc then .ok (id, t.add id obj) else .error (-1), { c with frId := id })

/-- All the tables there are. `stored` is what the calls so far have stored and not removed. -/
structure IdrTables where
  fr : FrState := {}
  table : ℕ → IdrTable := fun _ => IdrTable.empty
  stored : ℕ → ℕ → Option ℕ := fun _ _ => none

inductive IdrCall where
  | getNewAbove (k obj : ℕ) (alloc : Bool)
  | find (k name : ℕ)
  | remove (k name : ℕ)
  /-- idr_list_free, and idr_list_init for the next user of the table. -/
  | free (k : ℕ)
  /-- drm_gem_handle_create from the label `again` on; `opens` tells whether the hook
  `gem_open_object` succeeds. After -EAGAIN the caller goes back there. -/
  | handleCreate (k obj : ℕ) (alloc opens : Bool)
  deriving DecidableEq, Repr

namespace IdrTables

def getNewAbove (s : IdrTables) (k obj : ℕ) (alloc : Bool) : Option ℕ × IdrTables :=
  match IdrTable.getNewAbove s.fr (s.table k) obj alloc with
  | (.error _, c) => (none, { s with fr := c })
  | (.ok (id, t), c) => (some id,
    { fr := c
      table := Function.update s.table k t
      stored := Function.update s.stored k (Function.update (s.stored k) id (some obj)) })

def remove (s : IdrTables) (k name : ℕ) : IdrTables :=
  { s with
    table := Function.update s.table k ((s.table k).remove name)
    stored := Function.update s.stored k (Function.update (s.stored k) name none) }

/-- The handle drm_gem_handle_create returns, if it does. -/
def handleCreate (s : IdrTables) (k obj : ℕ) (alloc opens : Bool) : Option ℕ × IdrTables :=
  match s.getNewAbove k obj alloc with
  | (none, s) => (none, s)
  | (some id, s) => if opens then (some id, s) else (none, s.remove k id)

/-- What a call returns, where it is an id, and what it leaves. -/
def call (s : IdrTables) : IdrCall → Option ℕ × IdrTables
  | .getNewAbove k obj alloc => s.getNewAbove k obj alloc
  | .find _ _ => (none, s)
  | .remove k name => (none, s.remove k name)
  | .free k => (none,
    { s with
      table := Function.update s.table k IdrTable.empty
      stored := Function.update s.stored k fun _ => none })
  | .handleCreate k obj alloc opens => s.handleCreate k obj alloc opens

end IdrTables

def idrTablesSystem : System IdrTables IdrCall where
  init s := s = {}
  step s a s' := s' = (s.call a).2

/-- The counter does not wrap for the 2^32nd time, after which `fr_time` is 0 again. -/
def IdrTables.timeKept (s : IdrTables) (a : IdrCall) : Bool :=
  match a with
  | .getNewAbove .. | .handleCreate .. =>
    !(s.fr.frId + 1 == 0x7fffffff && s.fr.frTime == 0xffffffff)
  | _ => true

/-! ### One table -/

namespace IdrTable

variable {t : IdrTable} {id name obj o k : ℕ} {c : FrState} {alloc : Bool}

/-- The ids are in their buckets, in use once and not 0. -/
structure Hashed (t : IdrTable) : Prop where
  bucket : ∀ b, ∀ e ∈ t b, e.1 % hashNodes = b
  nodup : ∀ b, ((t b).map Prod.fst).Nodup
  nonzero : ∀ b, ∀ e ∈ t b, e.1 ≠ 0

theorem Hashed.empty : Hashed empty :=
  ⟨by simp [IdrTable.empty], by simp [IdrTable.empty], by simp [IdrTable.empty]⟩

theorem find_add (t : IdrTable) (id obj name : ℕ) :
    (t.add id obj).find name = if name = id then some obj else t.find name := by
  unfold find add
  by_cases hn : name = id
  · subst hn
    simp [idrListFind]
  · rw [if_neg hn]
    by_cases hb : name % hashNodes = id % hashNodes
    · rw [hb]
      simp [idrListFind, Ne.symm hn]
    · rw [Function.update_of_ne hb]

theorem Hashed.find_remove (h : Hashed t) (id name : ℕ) :
    (t.remove id).find name = if name = id then none else t.find name := by
  unfold find remove
  by_cases hb : name % hashNodes = id % hashNodes
  · rw [hb, Function.update_self]
    have hnodup := h.nodup (id % hashNodes)
    generalize t (id % hashNodes) = l at hnodup
    unfold idrListFind idrListRemove
    induction l with
    | nil => simp
    | cons e l ih =>
      rw [List.map_cons, List.nodup_cons] at hnodup
      by_cases he : e.1 = id
      · rw [List.eraseP_cons_of_pos (by simpa using he)]
        by_cases hn : name = id
        · -- the id was in use only once
          rw [if_pos hn, Option.map_eq_none_iff, List.find?_eq_none]
          intro x hx hname
          rw [decide_eq_true_eq] at hname
          apply hnodup.1
          rw [he, ← hn, ← hname]
          exact List.mem_map_of_mem hx
        · rw [if_neg hn, List.find?_cons_of_neg]
          simpa [he] using Ne.symm hn
      · rw [List.eraseP_cons_of_neg (by simpa using he)]
        by_cases hn : e.1 = name
        · rw [if_neg fun hni => he (hn.trans hni)]
          simp [hn]
        · rw [List.find?_cons_of_neg (by simpa using hn),
            List.find?_cons_of_neg (by simpa using hn)]
          exact ih hnodup.2
  · rw [Function.update_of_ne hb, if_neg]
    rintro rfl
    exact hb rfl

theorem Hashed.remove (h : Hashed t) (id : ℕ) : Hashed (t.remove id) := by
  have hsub : ∀ b, (t.remove id b).Sublist (t b) := by
    intro b
    unfold IdrTable.remove
    by_cases hb : b = id % hashNodes
    · rw [hb, Function.update_self]
      exact List.eraseP_sublist
    · rw [Function.update_of_ne hb]
  exact ⟨fun b e he => h.bucket b e ((hsub b).mem he),
    fun b => (h.nodup b).sublist ((hsub b).map _),
    fun b e he => h.nonzero b e ((hsub b).mem he)⟩

theorem mem_of_find (h : t.find name = some o) : (name, o) ∈ t (name % hashNodes) :=
  mem_of_idrListFind h

/-- An id that is not in use is added. -/
theorem Hashed.add (h : Hashed t) (hid : id ≠ 0) (hfree : t.find id = none) :
    Hashed (t.add id obj) := by
  have hadd : ∀ b, t.add id obj b = if b = id % hashNodes then (id, obj) :: t b else t b := by
    intro b
    unfold IdrTable.add
    rw [Function.update_apply]
    split
    · rename_i hb
      rw [hb]
    · rfl
  refine ⟨fun b e he => ?_, fun b => ?_, fun b e he => ?_⟩ <;> rw [hadd] at *
  · split at he
    · rename_i hb
      rcases List.mem_cons.mp he with rfl | he
      · exact hb.symm
      · exact h.bucket b e he
    · exact h.bucket b e he
  · split
    · rename_i hb
      rw [List.map_cons, List.nodup_cons]
      refine ⟨fun hmem => ?_, h.nodup b⟩
      obtain ⟨e, he, hkey⟩ := List.mem_map.mp hmem
      subst hb
      exact idrListFind_none hfree e he hkey
    · exact h.nodup b
  · split at he
    · rcases List.mem_cons.mp he with rfl | he
      · exact hid
      · exact h.nonzero b e he
    · exact h.nonzero b e he

theorem nextId_spec (t : IdrTable) (fuel id : ℕ) :
    id ≤ t.nextId fuel id ∧ (t.nextId fuel id < id + fuel → t.find (t.nextId fuel id) = none) := by
  induction fuel generalizing id with
  | zero => simp [nextId]
  | succ fuel ih =>
    unfold nextId
    cases hf : t.find id with
    | none => simp [hf]
    | some o =>
      obtain ⟨hle, hfree⟩ := ih (id + 1)
      simp only [Option.isSome_some, if_true]
      exact ⟨by omega, fun hlt => hfree (by omega)⟩

/-- What the counters promise of every table: until they wrap no id is ahead of them. -/
def Behind (c : FrState) (t : IdrTable) : Prop := c.frTime = 0 → ∀ b, ∀ e ∈ t b, e.1 ≤ c.frId

theorem Behind.mono {c c' : FrState} (h : Behind c t)
    (hc : c'.frTime = 0 → c.frTime = 0 ∧ c.frId ≤ c'.frId) : Behind c' t :=
  fun ht b e he => (h (hc ht).1 b e he).trans (hc ht).2

theorem next_counters (hlt : c.frId < 0x7fffffff)
    (hkept : ¬(c.frId + 1 = 0x7fffffff ∧ c.frTime = 0xffffffff)) :
    c.next.frId ≠ 0 ∧ c.next.frId < 0x7fffffff ∧
      (c.next.frTime = 0 → c.frTime = 0 ∧ c.next.frId = c.frId + 1) := by
  unfold FrState.next
  by_cases hw : c.frId + 1 = 0x7fffffff
  · rw [if_pos hw]
    refine ⟨Nat.one_ne_zero, Nat.one_lt_succ_succ _, fun ht => absurd ht fun h => hkept ⟨hw, ?_⟩⟩
    bv_omega
  · rw [if_neg hw]
    exact ⟨Nat.succ_ne_zero _, by dsimp only; omega, fun ht => ⟨ht, rfl⟩⟩

theorem getNewAbove_of_zero (h : c.next.frTime = 0) :
    getNewAbove c t obj alloc =
      (if alloc then .ok (c.next.frId, t.add c.next.frId obj) else .error (-1), c.next) := by
  unfold getNewAbove
  generalize c.next = d at h ⊢
  obtain ⟨frId, frTime⟩ := d
  obtain rfl : frTime = 0 := h
  rfl

theorem getNewAbove_of_ne (h : c.next.frTime ≠ 0)
    (hid : id = t.nextId (0x7fffffff - c.next.frId) c.next.frId) :
    getNewAbove c t obj alloc =
      if 0x7fffffff ≤ id then (.error Errno.eAgain, { c.next with frId := 0 })
      else (if alloc then .ok (id, t.add id obj) else .error (-1), { c.next with frId := id }) := by
  subst hid
  unfold getNewAbove
  dsimp only
  rw [if_neg h]
  simp only [h, ne_eq, not_false_eq_true, true_and]

/-- The counters stay below the bound and, unless `fr_time` comes back to 0, only grow until
they wrap. -/
theorem getNewAbove_counters (hlt : c.frId < 0x7fffffff)
    (hkept : ¬(c.frId + 1 = 0x7fffffff ∧ c.frTime = 0xffffffff)) :
    (getNewAbove c t obj alloc).2.frId < 0x7fffffff ∧
      ((getNewAbove c t obj alloc).2.frTime = 0 →
        c.frTime = 0 ∧ c.frId ≤ (getNewAbove c t obj alloc).2.frId) := by
  obtain ⟨-, hnext, hgrow⟩ := next_counters hlt hkept
  by_cases ht : c.next.frTime = 0
  · rw [getNewAbove_of_zero ht]
    refine ⟨hnext, fun _ => ⟨(hgrow ht).1, ?_⟩⟩
    rw [(hgrow ht).2]
    exact Nat.le_succ _
  · rw [getNewAbove_of_ne ht rfl]
    split
    · exact ⟨Nat.zero_lt_succ _, fun h => absurd h ht⟩
    · rename_i hid
      exact ⟨not_le.mp hid, fun h => absurd h ht⟩

/-- A new id is not 0 and not in use. -/
theorem getNewAbove_ok {t' : IdrTable} (hlt : c.frId < 0x7fffffff)
    (hkept : ¬(c.frId + 1 = 0x7fffffff ∧ c.frTime = 0xffffffff)) (hb : Behind c t)
    (h : (getNewAbove c t obj alloc).1 = .ok (id, t')) :
    t' = t.add id obj ∧ id ≠ 0 ∧ t.find id = none ∧ (getNewAbove c t obj alloc).2.frId = id := by
  obtain ⟨hne, hnext, hgrow⟩ := next_counters hlt hkept
  by_cases ht : c.next.frTime = 0
  · rw [getNewAbove_of_zero ht] at h ⊢
    cases alloc with
    | false => cases h
    | true =>
      obtain ⟨rfl, rfl⟩ : c.next.frId = id ∧ t.add c.next.frId obj = t' := by simpa using h
      refine ⟨rfl, hne, ?_, rfl⟩
      -- the counters have not wrapped, and the id is the next one
      cases hf : t.find c.next.frId with
      | none => rfl
      | some o =>
        have hle := hb (hgrow ht).1 _ _ (mem_of_find hf)
        have hsucc := (hgrow ht).2
        omega
  · rw [getNewAbove_of_ne ht rfl] at h ⊢
    obtain ⟨hle, hfree⟩ := nextId_spec t (0x7fffffff - c.next.frId) c.next.frId
    split at h
    · cases h
    rename_i hid
    rw [if_neg hid]
    cases alloc with
    | false => cases h
    | true =>
      obtain ⟨rfl, rfl⟩ : _ = id ∧ _ = t' := by simpa using h
      exact ⟨rfl, by omega, hfree (by omega), rfl⟩

/-- No two entries of a table have the same id. -/
theorem Hashed.entries_nodup (h : Hashed t) : (t.entries.map Prod.fst).Nodup := by
  unfold entries
  rw [List.map_flatMap, List.nodup_flatMap]
  refine ⟨fun b _ => h.nodup b, List.nodup_range.imp fun {b b'} hne => ?_⟩
  intro id hb hb'
  obtain ⟨e, he, rfl⟩ := List.mem_map.mp hb
  obtain ⟨e', he', hkey⟩ := List.mem_map.mp hb'
  apply hne
  rw [← h.bucket b e he, ← h.bucket b' e' he', hkey]

end IdrTable

/-! ### All of them -/

namespace IdrTables

/-- The ids of every table are distinct and not 0, and a lookup finds what was stored. -/
def Exact (s : IdrTables) : Prop :=
  ∀ k, ((s.table k).entries.map Prod.fst).Nodup ∧ (∀ e ∈ (s.table k).entries, e.1 ≠ 0) ∧
    ∀ id, (s.table k).find id = s.stored k id

structure Inv (s : IdrTables) : Prop where
  lt : s.fr.frId < 0x7fffffff
  hashed : ∀ k, (s.table k).Hashed
  behind : ∀ k, (s.table k).Behind s.fr
  stored : ∀ k id, (s.table k).find id = s.stored k id

theorem Inv.exact {s : IdrTables} (h : s.Inv) : s.Exact := by
  refine fun k => ⟨(h.hashed k).entries_nodup, fun e he => ?_, h.stored k⟩
  obtain ⟨b, -, heb⟩ := List.mem_flatMap.mp he
  exact (h.hashed k).nonzero b e heb

variable {s : IdrTables} {k obj name : ℕ} {alloc opens : Bool} {a : IdrCall}

theorem Inv.remove (h : s.Inv) (k name : ℕ) : (s.remove k name).Inv where
  lt := h.lt
  hashed k' := by
    by_cases hk : k' = k
    · simp only [IdrTables.remove, hk, Function.update_self]
      exact (h.hashed k).remove name
    · simp only [IdrTables.remove, Function.update_of_ne hk]
      exact h.hashed k'
  behind k' ht b e he := by
    by_cases hk : k' = k
    · simp only [IdrTables.remove, hk, Function.update_self, IdrTable.remove] at he
      by_cases hb : b = name % hashNodes
      · rw [hb, Function.update_self] at he
        exact h.behind k ht _ e (List.mem_of_mem_eraseP he)
      · rw [Function.update_of_ne hb] at he
        exact h.behind k ht b e he
    · simp only [IdrTables.remove, Function.update_of_ne hk] at he
      exact h.behind k' ht b e he
  stored k' id := by
    by_cases hk : k' = k
    · simp only [IdrTables.remove, hk, Function.update_self, Function.update_apply]
      rw [(h.hashed k).find_remove, h.stored]
    · simp only [IdrTables.remove, Function.update_of_ne hk]
      exact h.stored k' id

theorem Inv.getNewAbove (h : s.Inv)
    (hkept : ¬(s.fr.frId + 1 = 0x7fffffff ∧ s.fr.frTime = 0xffffffff)) :
    (s.getNewAbove k obj alloc).2.Inv ∧
      ∀ id, (s.getNewAbove k obj alloc).1 = some id → s.stored k id = none := by
  obtain ⟨hlt, hgrow⟩ :=
    @IdrTable.getNewAbove_counters (s.table k) obj s.fr alloc h.lt hkept
  have hok := fun id t' =>
    @IdrTable.getNewAbove_ok (s.table k) id obj s.fr alloc t' h.lt hkept (h.behind k)
  unfold IdrTables.getNewAbove
  generalize IdrTable.getNewAbove s.fr (s.table k) obj alloc = r at hlt hgrow hok
  obtain ⟨res, c⟩ := r
  cases res with
  | error _ =>
    refine ⟨⟨hlt, h.hashed, fun k' => (h.behind k').mono hgrow, h.stored⟩, nofun⟩
  | ok p =>
    obtain ⟨id, t'⟩ := p
    obtain ⟨rfl, hne, hfree, hid⟩ := hok id t' rfl
    refine ⟨⟨hlt, fun k' => ?_, fun k' => ?_, fun k' id' => ?_⟩, fun id' h' => ?_⟩
    · by_cases hk : k' = k
      · simp only [hk, Function.update_self]
        exact (h.hashed k).add hne hfree
      · simp only [Function.update_of_ne hk]
        exact h.hashed k'
    · by_cases hk : k' = k
      · simp only [hk, Function.update_self]
        intro ht b e he
        have hold := (h.behind k).mono hgrow ht
        unfold IdrTable.add at he
        by_cases hb : b = id % hashNodes
        · rw [hb, Function.update_self] at he
          rcases List.mem_cons.mp he with rfl | he
          · exact hid.ge
          · exact hold _ e he
        · rw [Function.update_of_ne hb] at he
          exact hold b e he
      · simp only [Function.update_of_ne hk]
        exact (h.behind k').mono hgrow
    · by_cases hk : k' = k
      · simp only [hk, Function.update_self, Function.update_apply]
        rw [IdrTable.find_add, h.stored]
      · simp only [Function.update_of_ne hk]
        exact h.stored k' id'
    · obtain rfl := Option.some.inj h'
      rw [← h.stored]
      exact hfree

theorem Inv.free (h : s.Inv) (k : ℕ) : (s.call (.free k)).2.Inv where
  lt := h.lt
  hashed k' := by
    by_cases hk : k' = k
    · simp only [call, hk, Function.update_self]
      exact IdrTable.Hashed.empty
    · simp only [call, Function.update_of_ne hk]
      exact h.hashed k'
  behind k' ht b e he := by
    by_cases hk : k' = k
    · simp [call, hk, IdrTable.empty] at he
    · simp only [call, Function.update_of_ne hk] at he
      exact h.behind k' ht b e he
  stored k' id := by
    by_cases hk : k' = k
    · simp only [call, hk, Function.update_self]
      rfl
    · simp only [call, Function.update_of_ne hk]
      exact h.stored k' id

theorem not_and_of_timeKept {k obj : ℕ} {alloc : Bool}
    (hg : s.timeKept (.getNewAbove k obj alloc) = true) :
    ¬(s.fr.frId + 1 = 0x7fffffff ∧ s.fr.frTime = 0xffffffff) := by
  rintro ⟨hid, htime⟩
  simp [timeKept, hid, htime] at hg

theorem Inv.call (h : s.Inv) (hg : s.timeKept a = true) : (s.call a).2.Inv ∧
    ∀ k obj alloc opens id, a = .handleCreate k obj alloc opens → (s.call a).1 = some id →
      s.stored k id = none := by
  cases a with
  | getNewAbove k obj alloc =>
    exact ⟨(h.getNewAbove (not_and_of_timeKept hg)).1, nofun⟩
  | find k name => exact ⟨h, nofun⟩
  | remove k name => exact ⟨h.remove k name, nofun⟩
  | free k => exact ⟨h.free k, nofun⟩
  | handleCreate k obj alloc opens =>
    obtain ⟨hinv, hnew⟩ := @Inv.getNewAbove s k obj alloc h
      (@not_and_of_timeKept s k obj alloc hg)
    simp only [IdrTables.call, handleCreate]
    revert hinv hnew
    obtain ⟨id | id, s'⟩ := s.getNewAbove k obj alloc <;> intro hinv hnew
    · exact ⟨hinv, nofun⟩
    · cases opens with
      | false => exact ⟨hinv.remove k id, nofun⟩
      | true =>
        refine ⟨hinv, fun k' obj' alloc' opens' id' ha hid => ?_⟩
        obtain ⟨rfl, -, -, -⟩ := IdrCall.handleCreate.inj ha
        exact hnew id' hid

theorem init_inv : Inv {} where
  lt := by decide
  hashed _ := IdrTable.Hashed.empty
  behind _ _ := by simp [IdrTable.empty]
  stored _ _ := rfl

/-- Until `fr_time` comes back to 0, the tables hold what was stored in them and a new handle
is one that no object of the file has. -/
theorem idr_list_ids_exact (s : IdrTables)
    (h : ReachWhile idrTablesSystem (fun s a => s.timeKept a = true) s) :
    s.Exact ∧ ∀ k obj alloc opens id, s.timeKept (.handleCreate k obj alloc opens) = true →
      (s.call (.handleCreate k obj alloc opens)).1 = some id → s.stored k id = none := by
  have hI : s.Inv := by
    refine h.invariant (I := Inv) (fun s hs => ?_) fun s a s' hI hg hs => ?_
    · rw [show s = {} from hs]
      exact init_inv
    rw [show s' = (s.call a).2 from hs]
    exact (hI.call hg).1
  exact ⟨hI.exact, fun k obj alloc opens id hg hid =>
    (hI.call hg).2 k obj alloc opens id rfl hid⟩

/-- Two calls in, with time kept: one object of the file has a handle and gets another. -/
theorem idr_list_ids_exact_second :
    ∃ s : IdrTables, s.fr.frId = 1 ∧ s.Exact ∧
      ∀ k obj alloc opens id, s.timeKept (.handleCreate k obj alloc opens) = true →
        (s.call (.handleCreate k obj alloc opens)).1 = some id → s.stored k id = none :=
  ⟨(({} : IdrTables).call (.handleCreate 0 7 true true)).2, rfl,
    idr_list_ids_exact _ (.step (.init rfl) (a := .handleCreate 0 7 true true) rfl rfl)⟩

/-! ### When `fr_time` wraps

One file holds handle 1, and the others take and give back handles. -/

def handleOneHeld (c : FrState) : IdrTables where
  fr := c
  table := Function.update (fun _ => IdrTable.empty) 0 (IdrTable.empty.add 1 7)
  stored := Function.update (fun _ _ => none) 0 (Function.update (fun _ => none) 1 (some 7))

theorem IdrTable.remove_add_empty (id obj : ℕ) :
    (IdrTable.empty.add id obj).remove id = IdrTable.empty := by
  unfold IdrTable.remove IdrTable.add
  simp [idrListRemove]

/-- An id of an empty table is the next value of the counter. -/
theorem IdrTable.getNewAbove_empty {c : FrState} (hlt : c.next.frId < 0x7fffffff) (obj : ℕ) :
    IdrTable.getNewAbove c .empty obj true =
      (.ok (c.next.frId, IdrTable.empty.add c.next.frId obj), c.next) := by
  by_cases ht : c.next.frTime = 0
  · exact IdrTable.getNewAbove_of_zero ht
  · obtain ⟨fuel, hfuel⟩ : ∃ fuel, 0x7fffffff - c.next.frId = fuel + 1 :=
      ⟨0x7fffffff - c.next.frId - 1, by omega⟩
    have hid : IdrTable.empty.nextId (0x7fffffff - c.next.frId) c.next.frId = c.next.frId := by
      rw [hfuel]
      rfl
    rw [IdrTable.getNewAbove_of_ne ht hid.symm, if_neg (not_le.mpr hlt)]
    rfl

/-- Another file takes a handle and gives it back. -/
theorem reach_next {c : FrState} (hlt : c.next.frId < 0x7fffffff)
    (h : Reach idrTablesSystem (handleOneHeld c)) :
    Reach idrTablesSystem (handleOneHeld c.next) := by
  have hget : (handleOneHeld c).getNewAbove 1 8 true = (some c.next.frId,
      { fr := c.next
        table := Function.update (handleOneHeld c).table 1 (IdrTable.empty.add c.next.frId 8)
        stored := Function.update (handleOneHeld c).stored 1
          (Function.update ((handleOneHeld c).stored 1) c.next.frId (some 8)) }) := by
    unfold getNewAbove
    rw [show (handleOneHeld c).table 1 = IdrTable.empty from rfl,
      show (handleOneHeld c).fr = c from rfl, IdrTable.getNewAbove_empty hlt]
  refine (h.step (a := .getNewAbove 1 8 true) trivial rfl).step (a := .remove 1 c.next.frId)
    trivial ?_
  simp only [idrTablesSystem, call, hget, remove]
  unfold handleOneHeld
  congr 1
  · rw [Function.update_self, IdrTable.remove_add_empty, Function.update_idem]
    symm
    exact Function.update_eq_self_iff.mpr rfl
  · rw [Function.update_idem]
    symm
    exact Function.update_eq_self_iff.mpr (funext fun id => by simp [Function.update_apply])

theorem reach_frId {t : BitVec 32} (h : Reach idrTablesSystem (handleOneHeld ⟨1, t⟩)) (n : ℕ)
    (hn : n ≤ 0x7ffffffd) : Reach idrTablesSystem (handleOneHeld ⟨1 + n, t⟩) := by
  induction n with
  | zero => exact h
  | succ n ih =>
    have hnext : (⟨1 + n, t⟩ : FrState).next = ⟨1 + (n + 1), t⟩ := by
      unfold FrState.next
      rw [if_neg (by dsimp only; omega)]
      rfl
    rw [← hnext]
    apply reach_next _ (ih (by omega))
    rw [hnext]
    dsimp only
    omega

theorem reach_frTime (t : ℕ) : Reach idrTablesSystem (handleOneHeld ⟨1, BitVec.ofNat 32 t⟩) := by
  induction t with
  | zero =>
    refine .step (.init rfl) (a := .handleCreate 0 7 true true) trivial ?_
    rfl
  | succ t ih =>
    have hlast := reach_frId ih 0x7ffffffd le_rfl
    have hnext : (⟨1 + 0x7ffffffd, BitVec.ofNat 32 t⟩ : FrState).next =
        ⟨1, BitVec.ofNat 32 (t + 1)⟩ := by
      rw [BitVec.ofNat_add]
      rfl
    rw [← hnext]
    apply reach_next _ hlast
    exact Nat.one_lt_succ_succ _

/-- After 2^32 wraps of the counter a file gets a handle that another of its objects has. -/
theorem idr_list_id_twice : ¬ ∀ s, Reach idrTablesSystem s → s.Exact := by
  intro h
  have hlast := reach_frId (reach_frTime 0xffffffff) 0x7ffffffd le_rfl
  have hex := h _ (hlast.step (a := .handleCreate 0 8 true true) trivial rfl) 0
  have hbucket := (List.nodup_flatMap.mp (List.map_flatMap ▸ hex.1)).1 1 (by simp [hashNodes])
  -- the counter is at 1 again and no membership test is made
  exact absurd hbucket (by decide)

end IdrTables

end GfxDrm
