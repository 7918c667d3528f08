import GfxDrm.Gem.Defs

/-! What the references, handles and names of an object add up to. -/

namespace GfxDrm
open Pool Run

namespace GemCall

/-- References the call holds on its object. At `flinkNamed` the reference of the lookup
serves the name until the call takes another. -/
def refs : GemCall → ℕ
  | creating .. | opening .. | inserted .. | flinkLooked .. | unref .. => 1
  | flinkNamed .. | removed .. => 0
  | unnamed .. => 2

def held (c : GemCall) (x : ℕ) : ℕ := if c.obj = x then c.refs else 0

/-- Handles in a table whose reference is still to be taken. -/
def adding : GemCall → ℕ → ℕ
  | inserted _ o, x => if o = x then 1 else 0
  | _, _ => 0

/-- Handles off their table whose reference is still to be dropped. -/
def dropping : GemCall → ℕ → ℕ
  | removed _ o rest, x => (if o = x then 1 else 0) + rest.count x
  | c, x => c.rest.count x

/-- How often a call names an object. -/
def mention (c : GemCall) (x : ℕ) : ℕ := (if c.obj = x then 1 else 0) + c.rest.count x

theorem finish_totals (f : ℕ) (rest : List ℕ) (x : ℕ) :
    total held (finish f rest).toList x = 0 ∧ total adding (finish f rest).toList x = 0 ∧
      total dropping (finish f rest).toList x = rest.count x ∧
      total mention (finish f rest).toList x = rest.count x := by
  cases rest with
  | nil => simp [finish]
  | cons o rest =>
    simp only [finish]
    by_cases hx : o = x
    · subst hx
      simp [held, refs, adding, dropping, mention, obj, GemCall.rest, Nat.add_comm]
    · simp [held, adding, dropping, mention, obj, GemCall.rest, hx]

end GemCall

namespace GemDevice
open GemCall

/-- Handles on `x` in all tables. -/
def entries (d : GemDevice) (x : ℕ) : ℕ :=
  total (fun table x => table.countP fun e => decide (e.2 = x)) d.files x

def nameRef (g : GemObject) : ℕ := if g.name = 0 then 0 else 1

/-- `object_name_idr` holds the names the objects have. -/
structure NamesOk (d : GemDevice) : Prop where
  mem_iff : ∀ n x, (n, x) ∈ d.objectNameIdr ↔ n ≠ 0 ∧ (d.obj x).name = n
  nodup : (d.objectNameIdr.map Prod.fst).Nodup
  frId_lt : d.counters.frId < 0x7fffffff
  le_frId : d.counters.frTime = 0 → ∀ e ∈ d.objectNameIdr, e.1 ≤ d.counters.frId

/-- What holds between any two steps. -/
structure Inv (d : GemDevice) : Prop where
  refs : ∀ x, (d.obj x).refcount =
    (d.obj x).handleCount + nameRef (d.obj x) + total held d.calls x
  handles : ∀ x, (d.obj x).handleCount + total adding d.calls x =
    d.entries x + total dropping d.calls x
  named : ∀ x, (d.obj x).name ≠ 0 → 0 < (d.obj x).handleCount
  freed : ∀ x < d.nextObj, ((d.obj x).freed = true ↔ (d.obj x).refcount = 0)
  flink : ∀ f x, flinkNamed f x ∈ d.calls → 0 < (d.obj x).refcount
  fresh : ∀ f x, creating f x ∈ d.calls →
    (d.obj x).refcount = 1 ∧ total mention d.calls x = 1 ∧ d.entries x = 0
  bound : ∀ x, d.nextObj ≤ x → d.obj x = {} ∧ total mention d.calls x = 0 ∧ d.entries x = 0
  files : ∀ c ∈ d.calls, c.file < d.files.length
  names : NamesOk d

/-! ### Steps of the same kind -/

/-- The object is as before, and no more is said of it. -/
structure Untouched (d d' : GemDevice) (old new : Option GemCall) (x : ℕ) : Prop where
  obj : d'.obj x = d.obj x
  mention_le : total mention new.toList x + d'.entries x ≤ total mention old.toList x + d.entries x
  new_ne : ∀ f, new ≠ some (flinkNamed f x)

/-- The object a step works on. -/
structure Touched (d d' : GemDevice) (others : List GemCall) (x : ℕ) : Prop where
  lt : x < d.nextObj
  known : ∀ f, creating f x ∉ others
  named : (d'.obj x).name ≠ 0 → 0 < (d'.obj x).handleCount
  freed : (d'.obj x).freed = true ↔ (d'.obj x).refcount = 0
  flink : ∀ f, flinkNamed f x ∈ d'.calls → 0 < (d'.obj x).refcount

/-- A step replaces the running call `old` by `new`; references and handles balance. -/
structure Turn (d d' : GemDevice) (old new : Option GemCall) (others : List GemCall) : Prop where
  before : d.calls.Perm (old.toList ++ others)
  after : d'.calls.Perm (new.toList ++ others)
  next : d'.nextObj = d.nextObj
  new_ne : ∀ f x, new ≠ some (creating f x)
  refs : ∀ x, (d'.obj x).refcount + total held old.toList x + (d.obj x).handleCount +
      nameRef (d.obj x) =
    (d.obj x).refcount + total held new.toList x + (d'.obj x).handleCount + nameRef (d'.obj x)
  handles : ∀ x, (d'.obj x).handleCount + total adding new.toList x + d.entries x +
      total dropping old.toList x =
    (d.obj x).handleCount + total adding old.toList x + d'.entries x + total dropping new.toList x
  objects : ∀ x, Untouched d d' old new x ∨ Touched d d' others x
  files : d'.files.length = d.files.length
  new_file : ∀ c, new = some c → c.file < d.files.length
  names : NamesOk d'

section turn
variable {d d' : GemDevice} {old new : Option GemCall} {others : List GemCall}

theorem Turn.inv (h : Inv d) (t : Turn d d' old new others) : Inv d' := by
  have hb : ∀ (hold : GemCall → ℕ → ℕ) x, total hold d.calls x =
      total hold old.toList x + total hold others x := fun hold x => by
    rw [total_perm t.before, total_append]
  have ha : ∀ (hold : GemCall → ℕ → ℕ) x, total hold d'.calls x =
      total hold new.toList x + total hold others x := fun hold x => by
    rw [total_perm t.after, total_append]
  have hothers : ∀ c, c ∈ d'.calls → c ∈ others ∨ new = some c := fun c hc => by
    have := t.after.subset hc
    rw [List.mem_append, Option.mem_toList] at this
    exact this.symm
  have hmem : ∀ c ∈ others, c ∈ d.calls := fun c hc =>
    t.before.symm.subset (List.mem_append_right _ hc)
  refine
    { refs := fun x => ?_
      handles := fun x => ?_
      named := fun x => ?_
      freed := fun x hx => ?_
      flink := fun f x hf => ?_
      fresh := fun f x hf => ?_
      bound := fun x hx => ?_
      files := fun c hc => t.files ▸
        (hothers c hc).elim (fun ho => h.files c (hmem c ho)) (t.new_file c)
      names := t.names }
  · have h1 := t.refs x
    have h2 := h.refs x
    rw [hb] at h2
    rw [ha]
    omega
  · have h1 := t.handles x
    have h2 := h.handles x
    rw [hb, hb] at h2
    rw [ha, ha]
    omega
  · rcases t.objects x with hu | ht
    · rw [hu.obj]
      exact h.named x
    · exact ht.named
  · rcases t.objects x with hu | ht
    · rw [hu.obj]
      exact h.freed x (t.next ▸ hx)
    · exact ht.freed
  · rcases t.objects x with hu | ht
    · rw [hu.obj]
      exact h.flink f x (hmem _ ((hothers _ hf).resolve_right (hu.new_ne f)))
    · exact ht.flink f hf
  · have ho := (hothers _ hf).resolve_right (t.new_ne f x)
    obtain ⟨h1, h2, h3⟩ := h.fresh f x (hmem _ ho)
    rcases t.objects x with hu | ht
    · have hle : mention (creating f x) x ≤ total mention others x := le_total ho
      have hone : mention (creating f x) x = 1 := by simp [mention, GemCall.obj, GemCall.rest]
      have hm := hu.mention_le
      rw [hb] at h2
      rw [ha, hu.obj]
      exact ⟨h1, by omega, by omega⟩
    · exact absurd ho (ht.known f)
  · rw [t.next] at hx
    obtain ⟨h1, h2, h3⟩ := h.bound x hx
    rcases t.objects x with hu | ht
    · have hm := hu.mention_le
      rw [hb] at h2
      rw [ha, hu.obj]
      exact ⟨h1, by omega, by omega⟩
    · exact absurd ht.lt (by omega)

end turn

/-! ### What the invariant says of one object -/

section facts
variable {d : GemDevice} {x : ℕ} (h : Inv d)
include h

theorem Inv.lt_of_mention {c : GemCall} (hc : c ∈ d.calls) : c.obj < d.nextObj := by
  by_contra hle
  have hm := (h.bound c.obj (by omega)).2.1
  have hle : mention c c.obj ≤ total mention d.calls c.obj := le_total hc
  have hone : 1 ≤ mention c c.obj := by simp [mention]
  omega

theorem Inv.lt_of_entries (he : 0 < d.entries x) : x < d.nextObj := by
  by_contra hle
  have := (h.bound x (by omega)).2.2
  omega

/-- No other call on an object runs while it is being created. -/
theorem Inv.known_of_call {c : GemCall} {others : List GemCall}
    (hp : d.calls.Perm (c :: others)) (f : ℕ) : creating f c.obj ∉ others := by
  intro ho
  have hmem : creating f c.obj ∈ d.calls := hp.symm.subset (List.mem_cons_of_mem _ ho)
  have hm := (h.fresh f c.obj hmem).2.1
  have hle : mention (creating f c.obj) c.obj ≤ total mention others c.obj := le_total ho
  have hone : mention (creating f c.obj) c.obj = 1 := by simp [mention, GemCall.obj, GemCall.rest]
  have hone' : 1 ≤ mention c c.obj := by simp [mention]
  rw [total_perm hp, total_cons] at hm
  omega

theorem Inv.known_of_entries (he : 0 < d.entries x) (f : ℕ) : creating f x ∉ d.calls := by
  intro ho
  have := (h.fresh f x ho).2.2
  omega

theorem Inv.known_of_name (hn : (d.obj x).name ≠ 0) (f : ℕ) : creating f x ∉ d.calls := by
  intro ho
  have h1 := (h.fresh f x ho).1
  have h2 := h.refs x
  have h3 := h.named x hn
  simp only [nameRef, if_neg hn] at h2
  omega

/-- A handle keeps its object alive until its reference is dropped. -/
theorem Inv.refcount_of_handle (he : 0 < d.entries x + total dropping d.calls x) :
    0 < (d.obj x).refcount := by
  have h1 := h.refs x
  have h2 := h.handles x
  rcases Nat.eq_zero_or_pos (total adding d.calls x) with ha | ha
  · omega
  · obtain ⟨c, hc, hpos⟩ : ∃ c ∈ d.calls, adding c x ≠ 0 := by
      by_contra hno
      have hall : ∀ c ∈ d.calls, adding c x = 0 := fun c hc => by
        by_contra hne
        exact hno ⟨c, hc, hne⟩
      exact absurd (total_eq_zero.mpr hall) (by omega)
    have hle : held c x ≤ total held d.calls x := le_total hc
    have hheld : held c x = 1 := by
      cases c <;> simp_all [adding, held, GemCall.obj, GemCall.refs]
    omega

/-- A running call never works on freed memory. -/
theorem Inv.alive {c : GemCall} (hc : c ∈ d.calls) : 0 < (d.obj c.obj).refcount := by
  have hle : held c c.obj ≤ total held d.calls c.obj := le_total hc
  rw [held, if_pos rfl] at hle
  have hrefs := h.refs c.obj
  cases c with
  | flinkNamed f o => exact h.flink f o hc
  | removed f o rest =>
    have hd : dropping (removed f o rest) o ≤ total dropping d.calls o := le_total hc
    have hone : 1 ≤ dropping (removed f o rest) o := by simp [dropping]
    exact h.refcount_of_handle (x := o) (by omega)
  | _ =>
    simp only [GemCall.refs] at hle
    omega

end facts
end GemDevice
end GfxDrm
