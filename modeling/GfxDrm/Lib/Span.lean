import Mathlib.Data.Int.Notation
import Mathlib.Data.List.Basic

namespace GfxDrm

/-- `len` bytes from offset `off` on. -/
structure Span where
  off : ℤ
  len : ℕ
  deriving DecidableEq, Repr

namespace Span

/-- All of its bytes are among the first `size`. -/
def Inside (size : ℕ) (s : Span) : Prop := 0 ≤ s.off ∧ s.off + s.len ≤ size

instance (size : ℕ) (s : Span) : Decidable (s.Inside size) :=
  inferInstanceAs (Decidable (_ ∧ _))

def AllInside (size : ℕ) (l : List Span) : Prop := ∀ s ∈ l, s.Inside size

instance (size : ℕ) (l : List Span) : Decidable (AllInside size l) :=
  inferInstanceAs (Decidable (∀ s ∈ l, _))

variable {size : ℕ} {s : Span} {l l' : List Span}

@[simp] theorem allInside_nil : AllInside size [] := by simp [AllInside]

@[simp] theorem allInside_cons : AllInside size (s :: l) ↔ s.Inside size ∧ AllInside size l := by
  simp [AllInside]

@[simp] theorem allInside_append :
    AllInside size (l ++ l') ↔ AllInside size l ∧ AllInside size l' := by
  simp only [AllInside, List.mem_append, or_imp, forall_and]

end Span

end GfxDrm
