import Mathlib.Data.Nat.ModEq
import Mathlib.Algebra.Order.Ring.Int

/-! Positions on a wheel of `n` slots: position `a` is at slot `a % n`, and two positions are told
apart by their slots as long as they are less than a turn apart. -/

namespace GfxDrm.Wheel

variable {n a b c g : ℕ}

/-- How far slot `b` is ahead of slot `a`. -/
def ahead (n a b : ℕ) : ℕ := (b + n - a) % n

/-- A position less than a turn after `a` is in the same turn or in the next. -/
theorem same_or_next (hab : a ≤ b) (hb : b < a + n) :
    (b / n = a / n ∧ a % n ≤ b % n) ∨ (b / n = a / n + 1 ∧ b % n < a % n) := by
  have hn : 0 < n := by omega
  have ha := Nat.div_add_mod a n
  have hb' := Nat.div_add_mod b n
  have hle : a / n ≤ b / n := Nat.div_le_div_right hab
  have hlt : b / n < a / n + 2 := by
    rw [Nat.div_lt_iff_lt_mul hn, Nat.add_mul, Nat.mul_comm (a / n)]
    have := Nat.mod_lt a hn
    omega
  obtain h | h : b / n = a / n ∨ b / n = a / n + 1 := by omega
  · rw [h] at hb'
    exact .inl ⟨h, by omega⟩
  · rw [h, Nat.mul_add] at hb'
    exact .inr ⟨h, by omega⟩

theorem mod_ne (hab : a < b) (hb : b < a + n) : a % n ≠ b % n := by
  have ha := Nat.div_add_mod a n
  have hb' := Nat.div_add_mod b n
  rcases same_or_next hab.le hb with ⟨h, -⟩ | ⟨-, h⟩
  · rw [h] at hb'
    omega
  · omega

theorem ahead_mod (hab : a ≤ b) (hb : b < a + n) : ahead n (a % n) (b % n) = b - a := by
  have ha := Nat.div_add_mod a n
  have hb' := Nat.div_add_mod b n
  unfold ahead
  rcases same_or_next hab hb with ⟨h, hle⟩ | ⟨h, hle⟩
  · rw [h] at hb'
    rw [show b % n + n - a % n = b - a + n by omega, Nat.add_mod_right,
      Nat.mod_eq_of_lt (by omega)]
  · rw [h, Nat.mul_add] at hb'
    rw [show b % n + n - a % n = b - a by omega, Nat.mod_eq_of_lt (by omega)]

/-- The slot `ahead n (a % n) b` after position `a` is `b`. -/
theorem add_ahead_mod (ha : 0 < n) (hb : b < n) : (a + ahead n (a % n) b) % n = b := by
  have hlt := Nat.mod_lt a ha
  have hd := Nat.div_add_mod a n
  unfold ahead
  rw [Nat.add_mod_mod, show a + (b + n - a % n) = b + n * (a / n + 1) by
    rw [Nat.mul_add]; omega, Nat.add_mul_mod_self_left, Nat.mod_eq_of_lt hb]

theorem dvd_ahead {d : ℕ} (hn : d ∣ n) (ha : d ∣ a) (hb : d ∣ b) : d ∣ ahead n a b :=
  (Nat.dvd_mod_iff hn).mpr (Nat.dvd_sub (Nat.dvd_add hb hn) ha)

/-- The room a writer at `b` has before it comes within `g` of the reader at `a`, worked out from
their slots. -/
theorem room_eq (hab : a ≤ b) (hb : b + g ≤ a + n) (hg : 0 < g) :
    (if ((a % n : ℕ) : ℤ) - ((b % n : ℕ) + g) < 0 then ((a % n : ℕ) : ℤ) - ((b % n : ℕ) + g) + n
      else ((a % n : ℕ) : ℤ) - ((b % n : ℕ) + g)) = (a : ℤ) + n - g - b := by
  have ha := Nat.div_add_mod a n
  have hb' := Nat.div_add_mod b n
  rcases same_or_next hab (by omega : b < a + n) with ⟨h, hle⟩ | ⟨h, hle⟩
  · rw [h] at hb'
    omega
  · rw [h, Nat.mul_add] at hb'
    omega

end GfxDrm.Wheel
