import GfxDrm.Lib.Word
import GfxDrm.Lib.Traced

/-! Arithmetic on `unsigned int` with the differences that it takes, as they are before they wrap. -/

namespace GfxDrm

/-- A computation in `unsigned int`: none where a division traps. -/
abbrev Checked (α : Type) := OptionT (Traced ℤ) α

namespace Checked
open CInt Traced

variable {α β : Type} {Q : α → Prop}

def ofOption (x : Option α) : Checked α := OptionT.mk (pure x)

/-- `x / y`. -/
def udiv (x y : ℤ) : Checked ℤ := ofOption (CInt.udiv x y)

/-- `x - y`, which leaves its value behind. -/
def usub (x y : ℤ) : Checked ℤ := do
  OptionT.lift (emit (u32 x - u32 y))
  pure (u32 (x - y))

/-- The first of the list that `p` is true of. -/
def find (p : α → Checked Bool) : List α → Checked (Option α)
  | [] => pure none
  | a :: as => do
    if ← p a then pure (some a) else find p as

/-- No division traps, no difference is below zero, and `Q` holds of what comes of it. -/
def Runs (m : Checked α) (Q : α → Prop) : Prop :=
  Always (0 ≤ ·) m.run ∧ ∃ a, m.run.val = some a ∧ Q a

@[simp] theorem runs_pure {a : α} : Runs (pure a) Q ↔ Q a := by
  constructor
  · intro h
    obtain ⟨-, b, hb, hQ⟩ := h
    cases hb
    exact hQ
  · intro hQ
    exact ⟨always_pure _, a, rfl, hQ⟩

@[simp] theorem runs_ofOption {x : Option α} : Runs (ofOption x) Q ↔ ∃ a, x = some a ∧ Q a :=
  and_iff_right (always_pure x)

/-- What a bind does, by what its first part leaves. -/
theorem run_bind (m : Checked β) (f : β → Checked α) :
    (m >>= f).run = m.run >>= fun
      | some b => (f b).run
      | none => pure none := rfl

@[simp] theorem runs_bind {m : Checked β} {f : β → Checked α} :
    Runs (m >>= f) Q ↔ Runs m fun b => Runs (f b) Q := by
  unfold Runs
  rw [run_bind, always_bind, val_bind]
  cases h : m.run.val with
  | none => simp
  | some b => simp [and_assoc]

theorem runs_udiv {x y : ℤ} {Q : ℤ → Prop} :
    Runs (udiv x y) Q ↔ u32 y ≠ 0 ∧ Q (u32 x / u32 y) := by
  unfold udiv CInt.udiv
  split <;> simp [*]

theorem runs_usub {x y : ℤ} {Q : ℤ → Prop} :
    Runs (usub x y) Q ↔ u32 y ≤ u32 x ∧ Q (u32 (x - y)) := by
  have hlift : Runs (OptionT.lift (emit (u32 x - u32 y))) (fun _ => Q (u32 (x - y))) ↔
      0 ≤ u32 x - u32 y ∧ Q (u32 (x - y)) := by
    unfold Runs
    simp
  unfold usub
  rw [runs_bind]
  simp only [runs_pure]
  rw [hlift, Int.sub_nonneg]

theorem Runs.mono {m : Checked α} {R : α → Prop} (h : Runs m Q) (hQR : ∀ a, Q a → R a) :
    Runs m R := by
  obtain ⟨halways, a, ha, hQ⟩ := h
  exact ⟨halways, a, ha, hQR a hQ⟩

/-- The search is that of the list where what is asked of an element runs. -/
theorem runs_find {p : α → Checked Bool} {q : α → Bool} {l : List α} {Q : Option α → Prop}
    (h : ∀ a ∈ l, ∀ R : Bool → Prop, Runs (p a) R ↔ R (q a)) :
    Runs (find p l) Q ↔ Q (l.find? q) := by
  induction l with
  | nil => simp [find]
  | cons a l ih =>
    rw [find, runs_bind, h a List.mem_cons_self, List.find?_cons]
    cases q a with
    | true => simp
    | false => simpa using ih fun b hb => h b (List.mem_cons_of_mem a hb)

end Checked

/-! Arithmetic as the machine computes it, and the same arithmetic stopped where a value does not
fit its type. -/

/-- What a type keeps of a value; none where the computation stops. -/
structure Arith where
  int : ℤ → Option ℤ
  long : ℤ → Option ℤ
  ulong : ℤ → Option ℤ

namespace Arith
open CInt

/-- Values wrap. -/
def machine : Arith where
  int x := some (i32 x)
  long x := some (i64 x)
  ulong x := some (u64 x)

/-- Values have to fit. -/
def exact : Arith where
  int x := if IsInt x then some x else none
  long x := if IsLong x then some x else none
  ulong x := if IsUlong x then some x else none

/-- `x / y`; none where it traps. -/
def quot (x y : ℤ) : Option ℤ := if y = 0 then none else some (x.tdiv y)

/-- The computation comes to an end, and `Q` holds of its value. -/
def Runs {α : Type} (m : Option α) (Q : α → Prop) : Prop := ∃ a, m = some a ∧ Q a

variable {α β : Type} {Q R : α → Prop}

@[simp] theorem runs_some {a : α} : Runs (some a) Q ↔ Q a := by
  constructor
  · intro h
    obtain ⟨b, hb, hQ⟩ := h
    cases hb
    exact hQ
  · intro hQ
    exact ⟨a, rfl, hQ⟩

@[simp] theorem runs_bind {m : Option β} {f : β → Option α} :
    Runs (m >>= f) Q ↔ Runs m fun b => Runs (f b) Q := by
  unfold Runs
  cases m with
  | none => simp
  | some b => simp

variable {Q : ℤ → Prop}

@[simp] theorem runs_int {x : ℤ} : Runs (exact.int x) Q ↔ IsInt x ∧ Q x := by
  simp [Runs, exact]

@[simp] theorem runs_long {x : ℤ} : Runs (exact.long x) Q ↔ IsLong x ∧ Q x := by
  simp [Runs, exact]

@[simp] theorem runs_ulong {x : ℤ} : Runs (exact.ulong x) Q ↔ IsUlong x ∧ Q x := by
  simp [Runs, exact]

@[simp] theorem runs_quot {x y : ℤ} :
    Runs (quot x y) Q ↔ y ≠ 0 ∧ Q (x.tdiv y) := by
  simp [Runs, quot]

/-- The machine has every value that the exact computation comes to. -/
def Agrees (f : Arith → Option α) : Prop := ∀ a, f exact = some a → f machine = some a

theorem agrees_const (m : Option α) : Agrees fun _ => m := fun _ h => h

theorem agrees_int (x : ℤ) : Agrees fun A => A.int x := by
  intro a h
  obtain ⟨hx, rfl⟩ := runs_int.mp ⟨a, h, rfl⟩
  exact congrArg some hx.i32_eq

theorem agrees_long (x : ℤ) : Agrees fun A => A.long x := by
  intro a h
  obtain ⟨hx, rfl⟩ := runs_long.mp ⟨a, h, rfl⟩
  exact congrArg some (i64_of_range hx.1 hx.2)

theorem agrees_ulong (x : ℤ) : Agrees fun A => A.ulong x := by
  intro a h
  obtain ⟨hx, rfl⟩ := runs_ulong.mp ⟨a, h, rfl⟩
  exact congrArg some (Int.emod_eq_of_lt hx.1 hx.2)

theorem Agrees.ite {c : Prop} [Decidable c] {f g : Arith → Option α} (hf : Agrees f)
    (hg : Agrees g) : Agrees fun A => if c then f A else g A := by
  by_cases hc : c
  · simpa only [if_pos hc] using hf
  · simpa only [if_neg hc] using hg

theorem Agrees.bind {f : Arith → Option β} {g : Arith → β → Option α} (hf : Agrees f)
    (hg : ∀ b, Agrees fun A => g A b) : Agrees fun A => f A >>= g A := by
  intro a h
  obtain ⟨b, hb, ha⟩ := Option.bind_eq_some_iff.mp h
  exact Option.bind_eq_some_iff.mpr ⟨b, hf b hb, hg b a ha⟩

end Arith

end GfxDrm
