import Mathlib.Algebra.Order.Ring.Nat

/-! The frame counter of the pipes that show it in two registers (i915_get_vblank_counter in
i915_irq.c). -/

namespace GfxDrm.Vblank

def pipeFrameHighMask : BitVec 32 := 0x0000ffff
def pipeFrameHighShift : ℕ := 0
def pipeFrameLowMask : BitVec 32 := 0xff000000
def pipeFrameLowShift : ℕ := 24

/-- The frames a pipe has shown at each moment. PIPEFRAME and PIPEFRAMEPIXEL show the upper and
the lower part of their number modulo 2^24, beside other fields. -/
structure FrameCounter where
  frames : ℕ → ℕ
  highFrame : ℕ → BitVec 32
  lowFrame : ℕ → BitVec 32
  step : ∀ t, frames (t + 1) = frames t ∨ frames (t + 1) = frames t + 1
  high : ∀ t, highFrame t &&& pipeFrameHighMask = BitVec.ofNat 32 (frames t / 256 % 65536)
  low : ∀ t, lowFrame t &&& pipeFrameLowMask = BitVec.ofNat 32 (frames t % 256) <<< 24

/-- The moments at which a call reads a register, one read after the other. -/
structure Reads where
  moment : ℕ → ℕ
  mono : Monotone moment

/-- The loop, for `fuel` rounds at most, with the number of reads made before. -/
def vblankCounterLoop (c : FrameCounter) (r : Reads) : ℕ → ℕ → Option (BitVec 32)
  | 0, _ => none
  | fuel + 1, k =>
    let high1 := c.highFrame (r.moment k) &&& pipeFrameHighMask
    let low := c.lowFrame (r.moment (k + 1)) &&& pipeFrameLowMask
    let high2 := c.highFrame (r.moment (k + 2)) &&& pipeFrameHighMask
    if high1 ≠ high2 then vblankCounterLoop c r fuel (k + 3)
    else some (((high1 >>> pipeFrameHighShift) <<< 8) ||| (low >>> pipeFrameLowShift))

/-- `enabled` is what i915_pipe_enabled says. -/
def i915GetVblankCounter (enabled : Bool) (c : FrameCounter) (r : Reads) (fuel : ℕ) :
    Option (BitVec 32) :=
  if !enabled then some 0 else vblankCounterLoop c r fuel 0

namespace FrameCounter
variable {c : FrameCounter} {r : Reads} {a b i k n : ℕ}

/-- What the combined counter shows. -/
def value (c : FrameCounter) (t : ℕ) : BitVec 32 := BitVec.ofNat 32 (c.frames t % 2 ^ 24)

/-- The two reads of the high half in round `i` agree. -/
def Settles (c : FrameCounter) (r : Reads) (i : ℕ) : Prop :=
  c.highFrame (r.moment (3 * i)) &&& pipeFrameHighMask =
    c.highFrame (r.moment (3 * i + 2)) &&& pipeFrameHighMask

/-- Between them the counter goes round, but for a few frames. -/
def GoesRound (c : FrameCounter) (r : Reads) (i : ℕ) : Prop :=
  c.frames (r.moment (3 * i)) + 2 ^ 24 ≤ c.frames (r.moment (3 * i + 2)) + 255 ∧
    c.frames (r.moment (3 * i + 2)) + 1 < c.frames (r.moment (3 * i)) + 2 ^ 24

theorem frames_mono (c : FrameCounter) : Monotone c.frames :=
  monotone_nat_of_le_succ fun t => by
    rcases c.step t with h | h <;> omega

/-- The counter leaves no number out. -/
theorem exists_frames_eq (ha : c.frames a ≤ n) (hb : n ≤ c.frames b) (hab : a ≤ b) :
    ∃ t, a ≤ t ∧ t ≤ b ∧ c.frames t = n := by
  induction b, hab using Nat.le_induction with
  | base => exact ⟨a, le_rfl, le_rfl, le_antisymm ha hb⟩
  | succ b hab ih =>
    by_cases hn : n ≤ c.frames b
    · obtain ⟨t, hat, htb, ht⟩ := ih hn
      exact ⟨t, hat, htb.trans b.le_succ, ht⟩
    · refine ⟨b + 1, hab.trans b.le_succ, le_rfl, ?_⟩
      rcases c.step b with h | h <;> omega

theorem ofNat_halves {h l : ℕ} (hh : h < 65536) (hl : l < 256) :
    ((BitVec.ofNat 32 h >>> pipeFrameHighShift) <<< 8) |||
      ((BitVec.ofNat 32 l <<< 24) >>> pipeFrameLowShift) = BitVec.ofNat 32 (h * 256 + l) := by
  have hor : h <<< 8 + l = h <<< 8 ||| l := Nat.shiftLeft_add_eq_or_of_lt hl h
  have hmul : h <<< 8 = h * 256 := Nat.shiftLeft_eq h 8
  have hleft : l <<< 24 = l * 2 ^ 24 := Nat.shiftLeft_eq l 24
  apply BitVec.eq_of_toNat_eq
  simp only [pipeFrameHighShift, pipeFrameLowShift, BitVec.ushiftRight_zero, BitVec.toNat_or,
    BitVec.toNat_shiftLeft, BitVec.toNat_ushiftRight, BitVec.toNat_ofNat]
  rw [Nat.mod_eq_of_lt (a := h) (by omega), Nat.mod_eq_of_lt (a := l) (by omega), hmul, hleft,
    Nat.mod_eq_of_lt (a := h * 256) (by omega), Nat.mod_eq_of_lt (a := l * 2 ^ 24) (by omega),
    Nat.shiftRight_eq_div_pow, Nat.mul_div_cancel _ (by decide), ← hmul, ← hor]
  exact (Nat.mod_eq_of_lt (by omega)).symm

/-- What a round in which the high half settles makes of its reads. -/
theorem loop_settled (h : c.Settles r i) (fuel : ℕ) :
    vblankCounterLoop c r (fuel + 1) (3 * i) =
      some (BitVec.ofNat 32 (c.frames (r.moment (3 * i)) / 256 % 65536 * 256 +
        c.frames (r.moment (3 * i + 1)) % 256)) := by
  refine (if_neg (not_not.mpr h)).trans ?_
  rw [c.high, c.low]
  exact congrArg some (ofNat_halves (Nat.mod_lt _ (by decide)) (Nat.mod_lt _ (by decide)))

theorem loop_unsettled (h : ¬c.Settles r i) (fuel : ℕ) :
    vblankCounterLoop c r (fuel + 1) (3 * i) = vblankCounterLoop c r fuel (3 * (i + 1)) := by
  exact if_pos h

/-- The rounds before the one that settles are run through. -/
theorem loop_skip (h : ∀ j < i, ¬c.Settles r j) (fuel : ℕ) :
    vblankCounterLoop c r (fuel + i) 0 = vblankCounterLoop c r fuel (3 * i) := by
  induction i generalizing fuel with
  | zero => rfl
  | succ i ih =>
    have hstep := ih (fun j hj => h j (hj.trans i.lt_succ_self)) (fuel + 1)
    rw [Nat.add_right_comm] at hstep
    rw [← Nat.add_assoc, hstep, loop_unsettled (h i i.lt_succ_self)]

/-- A round that settles has a value that the counter had in it. -/
theorem settled_had (h : c.Settles r i) (hround : ¬c.GoesRound r i) :
    ∃ t, r.moment (3 * i) ≤ t ∧ t ≤ r.moment (3 * i + 2) ∧
      c.value t = BitVec.ofNat 32 (c.frames (r.moment (3 * i)) / 256 % 65536 * 256 +
        c.frames (r.moment (3 * i + 1)) % 256) := by
  have hm₁ : r.moment (3 * i) ≤ r.moment (3 * i + 1) := r.mono (by omega)
  have hm₂ : r.moment (3 * i + 1) ≤ r.moment (3 * i + 2) := r.mono (by omega)
  have hn₁ := c.frames_mono hm₁
  have hn₂ := c.frames_mono hm₂
  have heq : c.frames (r.moment (3 * i)) / 256 % 65536 =
      c.frames (r.moment (3 * i + 2)) / 256 % 65536 := by
    have hh := congrArg BitVec.toNat (((c.high _).symm.trans h).trans (c.high _))
    simp only [BitVec.toNat_ofNat] at hh
    omega
  unfold GoesRound at hround
  by_cases hfew : c.frames (r.moment (3 * i + 2)) + 255 < c.frames (r.moment (3 * i)) + 2 ^ 24
  · -- The high half has not moved, so the value is that of the moment the low half is read.
    refine ⟨r.moment (3 * i + 1), hm₁, hm₂, ?_⟩
    unfold value
    congr 1
    omega
  · -- All values have come by.
    obtain ⟨n, hn⟩ : ∃ n, n = c.frames (r.moment (3 * i)) / 256 % 65536 * 256 +
      c.frames (r.moment (3 * i + 1)) % 256 := ⟨_, rfl⟩
    obtain ⟨t, hat, htb, ht⟩ := exists_frames_eq (c := c)
      (n := c.frames (r.moment (3 * i)) +
        (n + 2 ^ 24 - c.frames (r.moment (3 * i)) % 2 ^ 24) % 2 ^ 24)
      (Nat.le_add_right _ _) (b := r.moment (3 * i + 2)) (by omega) (hm₁.trans hm₂)
    refine ⟨t, hat, htb, ?_⟩
    unfold value
    congr 1
    omega

end FrameCounter

open FrameCounter

theorem high_mask {h : ℕ} (hh : h < 65536) :
    BitVec.ofNat 32 h &&& pipeFrameHighMask = BitVec.ofNat 32 h := by
  apply BitVec.eq_of_toNat_eq
  have hmask : pipeFrameHighMask.toNat = 2 ^ 16 - 1 := by decide
  rw [BitVec.toNat_and, hmask, Nat.and_two_pow_sub_one_eq_mod, BitVec.toNat_ofNat]
  omega

theorem low_mask (x : BitVec 32) : x <<< 24 &&& pipeFrameLowMask = x <<< 24 := by
  have hmask : pipeFrameLowMask = BitVec.allOnes 32 <<< 24 := by decide
  rw [hmask, ← BitVec.shiftLeft_and_distrib, BitVec.and_allOnes]

/-- A pipe whose registers show nothing but the counter. -/
def FrameCounter.plain (frames : ℕ → ℕ)
    (step : ∀ t, frames (t + 1) = frames t ∨ frames (t + 1) = frames t + 1) : FrameCounter where
  frames := frames
  highFrame t := BitVec.ofNat 32 (frames t / 256 % 65536)
  lowFrame t := BitVec.ofNat 32 (frames t % 256) <<< 24
  step := step
  high t := high_mask (Nat.mod_lt _ (by decide))
  low t := low_mask _

/-- The counter stands still on a pipe that is off. -/
def stopped : FrameCounter := .plain (fun _ => 5) fun _ => .inl rfl

/-- A frame at every moment. -/
def running : FrameCounter := .plain (fun t => t) fun _ => .inr rfl

/-- The call sleeps before it reads the low half, and then before it reads the high half again. -/
def sleepy : Reads where
  moment k := if k = 0 then 255 else if k = 1 then 272 else 2 ^ 24
  mono := monotone_nat_of_le_succ fun k => by
    rcases k with _ | _ | k <;> simp

/-- Every read is 256 frames after the one before. -/
def slow : Reads where
  moment k := 256 * k
  mono := monotone_nat_of_le_succ fun k => Nat.mul_le_mul_left 256 k.le_succ

end GfxDrm.Vblank
