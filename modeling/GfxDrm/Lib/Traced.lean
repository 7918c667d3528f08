import Mathlib.Control.Monad.Writer
import Mathlib.Data.Multiset.AddSub

/-! Computations that leave behind the events of their run. -/

namespace GfxDrm

abbrev Traced (ε α : Type) := Writer (List ε) α

namespace Traced
variable {ε α β σ : Type} {P : ε → Prop}

def emit (e : ε) : Traced ε Unit := tell [e]

def val (m : Traced ε α) : α := (WriterT.run m : α × List ε).1

def events (m : Traced ε α) : List ε := (WriterT.run m : α × List ε).2

/-- Every event of the run meets `P`. -/
def Always (P : ε → Prop) (m : Traced ε α) : Prop := ∀ e ∈ m.events, P e

/-- `for (i = 0; i < n; i++)`. -/
def loop (body : ℕ → σ → Traced ε σ) : ℕ → σ → Traced ε σ
  | 0, s => pure s
  | n + 1, s => do
    let s ← loop body n s
    body n s

@[simp] theorem val_pure (a : α) : (pure a : Traced ε α).val = a := rfl

@[simp] theorem val_bind (m : Traced ε α) (f : α → Traced ε β) :
    (m >>= f).val = (f m.val).val := rfl

@[simp] theorem events_bind (m : Traced ε α) (f : α → Traced ε β) :
    (m >>= f).events = m.events ++ (f m.val).events := rfl

@[simp] theorem always_pure (a : α) : Always P (pure a : Traced ε α) := by
  intro e he
  cases he

@[simp] theorem always_emit {e : ε} : Always P (emit e) ↔ P e := by
  change (∀ e' ∈ [e], P e') ↔ P e
  simp

@[simp] theorem always_bind {m : Traced ε α} {f : α → Traced ε β} :
    Always P (m >>= f) ↔ Always P m ∧ Always P (f m.val) := by
  simp only [Always, events_bind, List.mem_append, or_imp, forall_and]

theorem val_ite {c : Prop} [Decidable c] {m m' : Traced ε α} :
    (if c then m else m').val = if c then m.val else m'.val := apply_ite val c m m'

theorem always_ite {c : Prop} [Decidable c] {m m' : Traced ε α} :
    Always P (if c then m else m') ↔ (c → Always P m) ∧ (¬c → Always P m') := by
  split <;> simp [*]

/-- The body is judged in each round at what the rounds before left. -/
theorem always_loop {body : ℕ → σ → Traced ε σ} {n : ℕ} {s : σ} :
    Always P (loop body n s) ↔ ∀ i < n, Always P (body i (loop body i s).val) := by
  induction n with
  | zero => simp [loop]
  | succ n ih =>
    simp only [loop, always_bind, ih, Nat.lt_succ_iff_lt_or_eq, or_imp, forall_and, forall_eq]

/-- What the body keeps, the loop keeps. -/
theorem loop_induct {body : ℕ → σ → Traced ε σ} {I : ℕ → σ → Prop} {n : ℕ} {s : σ} (h0 : I 0 s)
    (h : ∀ i < n, ∀ s, I i s → I (i + 1) (body i s).val) : I n (loop body n s).val := by
  induction n with
  | zero => exact h0
  | succ n ih => exact h n n.lt_succ_self _ (ih fun i hi => h i (Nat.lt_succ_of_lt hi))

end Traced

end GfxDrm

/-! What a computation takes and gives back on its way. -/

namespace GfxDrm.Account

inductive Entry (ρ : Type) where
  | take (r : ρ)
  | give (r : ρ)
  deriving DecidableEq, Repr

variable {ρ α β : Type} [DecidableEq ρ] {m m' : Multiset ρ} {l l' : List (Entry ρ)} {r : ρ}

/-- What is held after the entries; to give what is not held is a fault. -/
def held : List (Entry ρ) → Multiset ρ → Option (Multiset ρ)
  | [], m => some m
  | .take r :: l, m => held l (r ::ₘ m)
  | .give r :: l, m => if r ∈ m then held l (m.erase r) else none

/-- All that was taken is given back once, and nothing else is given. -/
def Settled (l : List (Entry ρ)) : Prop := held l 0 = some 0

instance : Decidable (Settled l) := inferInstanceAs (Decidable (_ = _))

theorem held_append : held (l ++ l') m = (held l m).bind fun m => held l' m := by
  induction l generalizing m with
  | nil => rfl
  | cons e l ih =>
    cases e with
    | take r => exact ih
    | give r =>
      by_cases hr : r ∈ m
      · simpa only [List.cons_append, held, if_pos hr] using ih
      · simp only [List.cons_append, held, if_neg hr, Option.bind_none]

theorem held_give (r : ρ) (l : List (Entry ρ)) (m : Multiset ρ) :
    held (.give r :: l) (r ::ₘ m) = held l m := by
  rw [held, if_pos (Multiset.mem_cons_self r m), Multiset.erase_cons_head]

/-- The entries of a computation make `m'` of `m`. -/
def Leads (x : Traced (Entry ρ) α) (m m' : Multiset ρ) : Prop := held x.events m = some m'

theorem Leads.pure (a : α) (m : Multiset ρ) : Leads (Pure.pure a : Traced (Entry ρ) α) m m := rfl

theorem Leads.take (r : ρ) (m : Multiset ρ) : Leads (Traced.emit (.take r)) m (r ::ₘ m) := rfl

theorem Leads.give (r : ρ) (m : Multiset ρ) : Leads (Traced.emit (.give r)) (r ::ₘ m) m :=
  held_give r [] m

variable {m'' : Multiset ρ}

/-- Once `m'` is held, the rest decides. -/
theorem Leads.bind_iff {x : Traced (Entry ρ) α} {f : α → Traced (Entry ρ) β} (h : Leads x m m') :
    Leads (x >>= f) m m'' ↔ Leads (f x.val) m' m'' := by
  rw [Leads, Traced.events_bind, held_append, h]
  exact Iff.rfl

theorem Leads.bind {x : Traced (Entry ρ) α} {f : α → Traced (Entry ρ) β} (h : Leads x m m')
    (h' : Leads (f x.val) m' m'') : Leads (x >>= f) m m'' := h.bind_iff.mpr h'

/-- What is not held cannot be given. -/
theorem not_leads_give {f : Unit → Traced (Entry ρ) β} (hr : r ∉ m) :
    ¬Leads (Traced.emit (.give r) >>= f) m m'' := by
  intro h
  change held (.give r :: (f ()).events) m = some m'' at h
  rw [held, if_neg hr] at h
  cases h

end GfxDrm.Account
