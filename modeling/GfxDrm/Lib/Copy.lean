import Mathlib.Data.List.Nodup
import Mathlib.Data.List.Range

/-! A run of equally wide cells of a memory written one after the other. -/

namespace GfxDrm

variable {α : Type*}

/-- The cells `lo` up to `hi`, `w` addresses apart, hold what `f` says in `m'`; at every other
address `m'` is `m`. -/
structure Filled (w : ℕ) (f : ℕ → α) (lo hi : ℕ) (m m' : ℕ → α) : Prop where
  inside : ∀ k, lo ≤ k → k < hi → m' (w * k) = f k
  outside : ∀ a, (∀ k, lo ≤ k → k < hi → a ≠ w * k) → m' a = m a

namespace Filled

variable {w lo mid hi : ℕ} {f : ℕ → α} {m m' m'' : ℕ → α}

theorem nil (w lo : ℕ) (f : ℕ → α) (m : ℕ → α) : Filled w f lo lo m m where
  inside _ hlo hhi := absurd hhi (Nat.not_lt.mpr hlo)
  outside _ _ := rfl

/-- One more cell is written at the end. -/
theorem update (h : Filled w f lo hi m m') (hw : 0 < w) (hle : lo ≤ hi) :
    Filled w f lo (hi + 1) m (Function.update m' (w * hi) (f hi)) where
  inside k hlo hhi := by
    by_cases hk : k = hi
    · rw [hk, Function.update_self]
    · have hne : w * k ≠ w * hi := fun heq => hk (Nat.eq_of_mul_eq_mul_left hw heq)
      rw [Function.update_of_ne hne]
      exact h.inside k hlo (by omega)
  outside a ha := by
    have hne : a ≠ w * hi := ha hi hle (Nat.lt_succ_self hi)
    rw [Function.update_of_ne hne]
    exact h.outside a fun k hlo hhi => ha k hlo (by omega)

/-- A run is continued where it ended. -/
theorem trans (h : Filled w f lo mid m m') (h' : Filled w f mid hi m' m'') (hw : 0 < w)
    (hlm : lo ≤ mid) (hle : mid ≤ hi) : Filled w f lo hi m m'' where
  inside k hlo hhi := by
    by_cases hk : k < mid
    · have hkeep : m'' (w * k) = m' (w * k) := by
        apply h'.outside
        intro j hj _ heq
        have := Nat.eq_of_mul_eq_mul_left hw heq
        omega
      rw [hkeep]
      exact h.inside k hlo hk
    · exact h'.inside k (by omega) hhi
  outside a ha := by
    rw [h'.outside a fun k hk hhi => ha k (Nat.le_trans hlm hk) hhi]
    exact h.outside a fun k hk hhi => ha k hk (Nat.lt_of_lt_of_le hhi hle)

end Filled

end GfxDrm

/-! Bytes copied from one memory into another, one move (source address, target address) at a
time. -/

namespace GfxDrm.Copy

abbrev Moves := List (ℕ × ℕ)

/-- `memcpy` of `n` bytes. -/
def block (src dst n : ℕ) : Moves := (List.range n).map fun i => (src + i, dst + i)

variable {β : Type*} {moves : Moves} {src dst : ℕ → β}

/-- What the target memory holds after the moves. -/
def run (moves : Moves) (src dst : ℕ → β) : ℕ → β :=
  moves.foldl (fun d m => Function.update d m.2 (src m.1)) dst

@[simp] theorem length_block (a b n : ℕ) : (block a b n).length = n := by simp [block]

theorem mem_block {a b n : ℕ} {m : ℕ × ℕ} :
    m ∈ block a b n ↔ ∃ i < n, (a + i, b + i) = m := by simp [block]

theorem run_append (moves moves' : Moves) (src dst : ℕ → β) :
    run (moves ++ moves') src dst = run moves' src (run moves src dst) :=
  List.foldl_append

theorem run_of_notMem {b : ℕ} (h : ∀ m ∈ moves, m.2 ≠ b) : run moves src dst b = dst b := by
  induction moves generalizing dst with
  | nil => rfl
  | cons m moves ih =>
    have hrest : run moves src (Function.update dst m.2 (src m.1)) b =
        Function.update dst m.2 (src m.1) b :=
      ih fun m' hm' => h m' (List.mem_cons_of_mem _ hm')
    have hm : b ≠ m.2 := (h m List.mem_cons_self).symm
    exact hrest.trans (Function.update_of_ne hm _ _)

/-- Where no target is written twice, each holds its own byte afterwards. -/
theorem run_of_mem {a b : ℕ} (hnodup : (moves.map Prod.snd).Nodup) (h : (a, b) ∈ moves) :
    run moves src dst b = src a := by
  induction moves generalizing dst with
  | nil => cases h
  | cons m moves ih =>
    rw [List.map_cons, List.nodup_cons] at hnodup
    rcases List.mem_cons.mp h with rfl | h
    · have hlast : run moves src (Function.update dst b (src a)) b =
          Function.update dst b (src a) b := by
        refine run_of_notMem fun m hm heq => hnodup.1 ?_
        exact List.mem_map.mpr ⟨m, hm, heq⟩
      exact hlast.trans (Function.update_self ..)
    · exact ih hnodup.2 h

theorem run_block_of_lt {i n : ℕ} (hi : i < n) : run (block 0 0 n) src dst i = src i := by
  refine run_of_mem ?_ (mem_block.mpr ⟨i, hi, by rw [Nat.zero_add]⟩)
  have hsnd : (block 0 0 n).map Prod.snd = List.range n := by simp [block, Function.comp_def]
  rw [hsnd]
  exact List.nodup_range

end GfxDrm.Copy
