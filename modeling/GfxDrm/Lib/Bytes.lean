import Mathlib.Data.List.Basic
import Mathlib.Data.Nat.ModEq

/-! Byte memories, numbers in them, and bytes of words. -/

namespace GfxDrm.Bytes

abbrev Mem := ℕ → BitVec 8

/-- The number in the `n` bytes from `a` on. -/
def load (m : Mem) (a : ℕ) : ℕ → ℕ
  | 0 => 0
  | n + 1 => (m a).toNat + 256 * load m (a + 1) n

/-- The `n` low bytes of `v` are written from `a` on. -/
def store (m : Mem) (a v : ℕ) : ℕ → Mem
  | 0 => m
  | n + 1 => Function.update (store m (a + 1) (v / 256) n) a (BitVec.ofNat 8 v)

variable {m m' : Mem} {a b x v n k : ℕ}

theorem store_outside (h : x < a ∨ a + n ≤ x) : store m a v n x = m x := by
  induction n generalizing a v with
  | zero => rfl
  | succ n ih =>
    have hne : x ≠ a := by omega
    rw [store, Function.update_of_ne hne]
    exact ih (by omega)

theorem load_congr (h : ∀ x, a ≤ x → x < a + n → m x = m' x) : load m a n = load m' a n := by
  induction n generalizing a with
  | zero => rfl
  | succ n ih =>
    rw [load, load, h a le_rfl (by omega), ih fun x hx hlt => h x (by omega) (by omega)]

theorem load_store_disjoint (h : b + k ≤ a ∨ a + n ≤ b) : load (store m a v n) b k = load m b k :=
  load_congr fun x hx hlt => store_outside (by omega)

theorem load_store_self : load (store m a v n) a n = v % 256 ^ n := by
  induction n generalizing a v m with
  | zero => simp [load, Nat.mod_one]
  | succ n ih =>
    have hrest : load (store m a v (n + 1)) (a + 1) n =
        load (store m (a + 1) (v / 256) n) (a + 1) n :=
      load_congr fun x hx _ => Function.update_of_ne (by omega) ..
    have hbyte : (store m a v (n + 1) a).toNat = v % 256 := by
      rw [store, Function.update_self, BitVec.toNat_ofNat]
    rw [load, hbyte, hrest, ih, pow_succ, Nat.mul_comm (256 ^ n), Nat.mod_mul]

/-- A word written is read back. -/
theorem load_store_lt (h : v < 256 ^ n) : load (store m a v n) a n = v := by
  rw [load_store_self, Nat.mod_eq_of_lt h]

/-! ### Bytes of words -/

/-- The byte `k` of a word, the lowest one first. -/
def byteAt {w : ℕ} (v : BitVec w) (k : ℕ) : BitVec 8 := (v >>> (8 * k)).setWidth 8

theorem byteAt_or {w : ℕ} (v v' : BitVec w) (k : ℕ) :
    byteAt (v ||| v') k = byteAt v k ||| byteAt v' k := by
  simp only [byteAt, BitVec.ushiftRight_or_distrib, BitVec.setWidth_or]

/-- A byte moved up to a place in the word is there and nowhere else. -/
theorem byteAt_shift {w j k : ℕ} (b : BitVec 8) (hk : 8 * k + 8 ≤ w) :
    byteAt (b.setWidth w <<< (8 * j)) k = if k = j then b else 0 := by
  apply BitVec.eq_of_getLsbD_eq
  intro i hi
  have hbit : (byteAt (b.setWidth w <<< (8 * j)) k).getLsbD i =
      (!decide (8 * k + i < 8 * j) && b.getLsbD (8 * k + i - 8 * j)) := by
    simp only [byteAt]
    simp [hi, show 8 * k + i < w by omega, show 8 * k + i - 8 * j < w by omega]
  rw [hbit]
  split
  case isTrue h =>
    subst h
    simp
  case isFalse h =>
    obtain hlt | hlt := Nat.lt_or_gt_of_ne h
    · simp [show 8 * k + i < 8 * j by omega]
    · simp [BitVec.getLsbD_of_ge b (8 * k + i - 8 * j) (by omega)]

/-- The first `n` bytes of a list put together, each at its place. -/
def join (w : ℕ) (place : ℕ → ℕ) (src : List (BitVec 8)) (n : ℕ) : BitVec w :=
  (List.range n).foldl (fun v i => v ||| (src.getD i 0).setWidth w <<< (8 * place i)) 0

theorem byteAt_join {w : ℕ} (place : ℕ → ℕ) {src : List (BitVec 8)} {n i : ℕ}
    (hinj : ∀ j < n, place i = place j → i = j) (hw : 8 * place i + 8 ≤ w) :
    byteAt (join w place src n) (place i) = if i < n then src.getD i 0 else 0 := by
  induction n with
  | zero => simp [join, byteAt]
  | succ n ih =>
    rw [join, List.range_succ, List.foldl_append]
    have hfold := ih fun j hj => hinj j (by omega)
    rw [join] at hfold
    rw [List.foldl_cons, List.foldl_nil, byteAt_or, hfold, byteAt_shift _ hw]
    by_cases hn : i = n
    · subst hn
      rw [if_neg (Nat.lt_irrefl i), if_pos rfl, if_pos (Nat.lt_succ_self i)]
      exact BitVec.zero_or
    · rw [if_neg (mt (hinj n (Nat.lt_succ_self n)) hn)]
      exact BitVec.or_zero.trans (if_congr (by omega) rfl rfl)

end GfxDrm.Bytes
