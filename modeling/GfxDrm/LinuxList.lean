import GfxDrm.Lib.Ring
import GfxDrm.Lib.Run

/-! The linked lists that the driver is built on (drm_linux_list.h). -/

namespace GfxDrm.LinuxList
open Function Ring Run

variable {α γ : Type*} [DecidableEq α]

/-- The macros that change lists. A `list_head` is known by its address; `entry` is the structure
that it is said to be part of. -/
inductive ListOp (α γ : Type*)
  | initListHead (head : α)
  | listAdd (ptr head : α) (entry : γ)
  | listAddTail (ptr head : α) (entry : γ)
  | listDel (ptr : α)
  | listDelInit (ptr : α)
  | listMove (ptr head : α) (entry : γ)
  | listMoveTail (ptr head : α) (entry : γ)
  | listSplice (list be ne : α)

/-- What a macro does to the memory; `none` if it follows a null pointer. -/
def ListOp.run (s : Links α γ) : ListOp α γ → Option (Links α γ)
  | .initListHead head => some (s.init head)
  | .listAdd ptr head entry => s.add ptr head entry
  | .listAddTail ptr head entry => s.addTail ptr head entry
  | .listDel ptr => s.del ptr
  | .listDelInit ptr => s.delInit ptr
  | .listMove ptr head entry => (s.del ptr).bind fun t => t.add ptr head entry
  | .listMoveTail ptr head entry => (s.del ptr).bind fun t => t.addTail ptr head entry
  | .listSplice list be ne => s.splice list be ne

/-- The body of a list_for_each_entry_safe may take the entry it is at off the list. -/
inductive Body
  | keep
  | listDel
  | listDelInit
  deriving DecidableEq

def Body.run (s : Links α γ) (ptr : α) : Body → Option (Links α γ)
  | .keep => some s
  | .listDel => s.del ptr
  | .listDelInit => s.delInit ptr

/-- The loop of list_for_each_entry_safe, with the entries it visits. -/
def safeLoop (member : γ → α) (head : α) (body : γ → Body) :
    ℕ → Links α γ → Option γ → Option γ → Option (List γ × Links α γ)
  | 0, _, _, _ => none
  | _ + 1, s, none, _ => some ([], s)
  | fuel + 1, s, some pos, n =>
    ((body pos).run s (member pos)).bind fun t =>
      (safeLoop member head body fuel t n
        ((t.next (n.elim head member)).bind t.entry)).map fun r => (pos :: r.1, r.2)

def listForEachEntrySafe (member : γ → α) (head : α) (body : γ → Body) (fuel : ℕ)
    (s : Links α γ) : Option (List γ × Links α γ) :=
  let pos := (s.next head).bind s.entry
  safeLoop member head body fuel s pos (pos.bind fun g => (s.next (member g)).bind s.entry)

def listForEachEntry (member : γ → α) (head : α) (fuel : ℕ) (s : Links α γ) : Option (List γ) :=
  s.walk member fuel ((s.next head).bind s.entry)

/-- The nodes met on the way along `f`. -/
def follow (f : α → Option α) : ℕ → α → Option (List α)
  | 0, _ => some []
  | n + 1, x => (f x).bind fun y => (follow f n y).map (y :: ·)

/-! ### What the lists are meant to hold -/

/-- The members of each list with their entries; what is not the head of a list has none. -/
abbrev Lists (α γ : Type*) := α → Option (List (α × γ))

/-- `x` is neither a head nor on a list. -/
def Lists.Free (a : Lists α γ) (x : α) : Prop :=
  ∀ k l, a k = some l → x ∉ k :: l.map Prod.fst

/-- The uses of the macros, and what they do. list_splice takes its members from `list`, which
is not a list afterwards. -/
inductive Spec : Lists α γ → ListOp α γ → Lists α γ → Prop
  | initListHead {a : Lists α γ} {h : α} (hh : ∀ k l, a k = some l → h ∉ l.map Prod.fst) :
    Spec a (.initListHead h) (update a h (some []))
  | listAdd {a : Lists α γ} {x h : α} {g : γ} {l : List (α × γ)} (hh : a h = some l)
    (hx : a.Free x) : Spec a (.listAdd x h g) (update a h (some ((x, g) :: l)))
  | listAddTail {a : Lists α γ} {x h : α} {g : γ} {l : List (α × γ)} (hh : a h = some l)
    (hx : a.Free x) : Spec a (.listAddTail x h g) (update a h (some (l ++ [(x, g)])))
  | listDel {a : Lists α γ} {x k : α} {g : γ} {l₁ l₂ : List (α × γ)}
    (hk : a k = some (l₁ ++ (x, g) :: l₂)) : Spec a (.listDel x) (update a k (some (l₁ ++ l₂)))
  | listDelInit {a : Lists α γ} {x k : α} {g : γ} {l₁ l₂ : List (α × γ)}
    (hk : a k = some (l₁ ++ (x, g) :: l₂)) :
    Spec a (.listDelInit x) (update a k (some (l₁ ++ l₂)))
  | listMove {a : Lists α γ} {x h k : α} {g g' : γ} {l l₁ l₂ : List (α × γ)}
    (hk : a k = some (l₁ ++ (x, g') :: l₂)) (hh : update a k (some (l₁ ++ l₂)) h = some l) :
    Spec a (.listMove x h g)
      (update (update a k (some (l₁ ++ l₂))) h (some ((x, g) :: l)))
  | listMoveTail {a : Lists α γ} {x h k : α} {g g' : γ} {l l₁ l₂ : List (α × γ)}
    (hk : a k = some (l₁ ++ (x, g') :: l₂)) (hh : update a k (some (l₁ ++ l₂)) h = some l) :
    Spec a (.listMoveTail x h g)
      (update (update a k (some (l₁ ++ l₂))) h (some (l ++ [(x, g)])))
  | spliceEmpty {a : Lists α γ} {k p n : α} (hk : a k = some []) : Spec a (.listSplice k p n) a
  | listSplice {a : Lists α γ} {k h : α} {m l₁ l₂ : List (α × γ)} (hk : a k = some m)
    (hm : m ≠ []) (hne : k ≠ h) (hh : a h = some (l₁ ++ l₂)) :
    Spec a (.listSplice k ((l₁.map Prod.fst).getLastD h) ((l₂.map Prod.fst).headD h))
      (update (update a k none) h (some (l₁ ++ (m ++ l₂))))

/-- The memory together with what it is meant to hold; at first there are no lists in it. -/
def listSystem (α γ : Type*) [DecidableEq α] : System (Links α γ × Lists α γ) (ListOp α γ) where
  init s := s.2 = fun _ => none
  step s op s' := Spec s.2 op s'.2 ∧ op.run s.1 = some s'.1

/-- The memory holds the lists; heads name no entry, and no two lists share a node. -/
structure Holds (s : Links α γ) (a : Lists α γ) : Prop where
  ring : ∀ h l, a h = some l → s.IsRing h (l.map Prod.fst)
  head : ∀ h l, a h = some l → s.entry h = none
  entry : ∀ h l, a h = some l → ∀ p ∈ l, s.entry p.1 = some p.2
  apart : ∀ h l k m, a h = some l → a k = some m → h ≠ k →
    ∀ x ∈ h :: l.map Prod.fst, x ∉ k :: m.map Prod.fst

variable {s t : Links α γ} {a b : Lists α γ} {x h k : α} {g : γ} {l m l₁ l₂ : List (α × γ)}

/-! ### One list at a time -/

/-- Nothing is changed at the nodes of the list at `k`. -/
def Same (s t : Links α γ) (k : α) (m : List (α × γ)) : Prop :=
  ∀ y ∈ k :: m.map Prod.fst, t.next y = s.next y ∧ t.prev y = s.prev y ∧ t.entry y = s.entry y

/-- A new list takes the place of the one at `h`, and the others are left alone. -/
theorem Holds.set (hs : Holds s a) (hring : t.IsRing h (l.map Prod.fst)) (hhead : t.entry h = none)
    (hentry : ∀ p ∈ l, t.entry p.1 = some p.2)
    (hrest : ∀ k m, k ≠ h → a k = some m →
      Same s t k m ∧ ∀ y ∈ k :: m.map Prod.fst, y ∉ h :: l.map Prod.fst) :
    Holds t (update a h (some l)) where
  ring k m hk := by
    by_cases hkh : k = h
    · subst hkh
      rw [update_self, Option.some.injEq] at hk
      exact hk ▸ hring
    · rw [update_of_ne hkh] at hk
      have hsame := (hrest k m hkh hk).1
      exact (hs.ring k m hk).congr (fun y hy => (hsame y hy).1) fun y hy => (hsame y hy).2.1
  head k m hk := by
    by_cases hkh : k = h
    · exact hkh ▸ hhead
    · rw [update_of_ne hkh] at hk
      exact ((hrest k m hkh hk).1 k List.mem_cons_self).2.2.trans (hs.head k m hk)
  entry k m hk p hp := by
    by_cases hkh : k = h
    · subst hkh
      rw [update_self, Option.some.injEq] at hk
      exact hentry p (hk ▸ hp)
    · rw [update_of_ne hkh] at hk
      have hmem := List.mem_cons_of_mem k (List.mem_map_of_mem (f := Prod.fst) hp)
      exact ((hrest k m hkh hk).1 p.1 hmem).2.2.trans (hs.entry k m hk p hp)
  apart k m k' m' hk hk' hne y hy hy' := by
    by_cases hkh : k = h
    · subst hkh
      rw [update_self, Option.some.injEq] at hk
      rw [update_of_ne hne.symm] at hk'
      exact (hrest k' m' hne.symm hk').2 y hy' (hk ▸ hy)
    · rw [update_of_ne hkh] at hk
      by_cases hkh' : k' = h
      · subst hkh'
        rw [update_self, Option.some.injEq] at hk'
        exact (hrest k m hkh hk).2 y hy (hk' ▸ hy')
      · rw [update_of_ne hkh'] at hk'
        exact hs.apart k m k' m' hk hk' hne y hy hy'

/-- A head may be given up. -/
theorem Holds.forget (hs : Holds s a) (k : α) : Holds s (update a k none) := by
  have hold : ∀ h l, update a k none h = some l → a h = some l := by
    intro h l hh
    by_cases hhk : h = k
    · rw [hhk, update_self] at hh
      cases hh
    · rwa [update_of_ne hhk] at hh
  exact ⟨fun h l hh => hs.ring h l (hold h l hh), fun h l hh => hs.head h l (hold h l hh),
    fun h l hh => hs.entry h l (hold h l hh),
    fun h l k' m hh hk => hs.apart h l k' m (hold h l hh) (hold k' m hk)⟩

/-! ### Each macro -/

theorem Holds.initListHead (hs : Holds s a) (hh : ∀ k l, a k = some l → h ∉ l.map Prod.fst) :
    Holds (s.init h) (update a h (some [])) := by
  refine hs.set (.init s h) (s.init_entry_self h) (fun p hp => nomatch hp) fun k m hkh hk => ?_
  have hne : ∀ y ∈ k :: m.map Prod.fst, y ≠ h := by
    rintro y hy rfl
    exact (List.mem_cons.mp hy).elim hkh.symm (hh k m hk)
  exact ⟨fun y hy => ⟨s.init_next_of_ne (hne y hy), s.init_prev_of_ne (hne y hy),
    s.init_entry_of_ne (hne y hy)⟩, fun y hy => List.not_mem_cons_of_ne_of_not_mem (hne y hy)
      List.not_mem_nil⟩

/-- A free node is put on a list, wherever that is. -/
theorem Holds.added (hs : Holds s a) (hh : a h = some l) (hx : a.Free x) (hperm : m.Perm ((x, g) :: l))
    (hring : t.IsRing h (m.map Prod.fst)) (hentry : t.entry = update s.entry x (some g))
    (hframe : ∀ y, y ∉ h :: x :: l.map Prod.fst → t.next y = s.next y ∧ t.prev y = s.prev y) :
    Holds t (update a h (some m)) := by
  have hmem : ∀ y, y ∈ h :: m.map Prod.fst ↔ y ∈ h :: x :: l.map Prod.fst := fun y => by
    rw [List.mem_cons, (hperm.map Prod.fst).mem_iff, List.mem_cons (a := y) (b := h), List.map_cons]
  have hxl := hx h l hh
  have hother : ∀ y, y ≠ x → t.entry y = s.entry y := fun y hy => by rw [hentry, update_of_ne hy]
  refine hs.set hring ?_ (fun p hp => ?_) fun k n hkh hk => ?_
  · rw [hother h (fun heq => hxl (heq ▸ List.mem_cons_self)), hs.head h l hh]
  · rcases List.mem_cons.mp (hperm.mem_iff.mp hp) with rfl | hp
    · rw [hentry, update_self]
    · have hpx : p.1 ≠ x := ne_of_mem_of_not_mem
        (List.mem_cons_of_mem h (List.mem_map_of_mem (f := Prod.fst) hp)) hxl
      rw [hother p.1 hpx, hs.entry h l hh p hp]
  · have hne : ∀ y ∈ k :: n.map Prod.fst, y ≠ x ∧ y ∉ h :: x :: l.map Prod.fst := by
      intro y hy
      have hyx : y ≠ x := ne_of_mem_of_not_mem hy (hx k n hk)
      have hyl := hs.apart k n h l hk hh hkh y hy
      simp only [List.mem_cons, not_or] at hyl ⊢
      exact ⟨hyx, hyl.1, hyx, hyl.2⟩
    exact ⟨fun y hy => ⟨(hframe y (hne y hy).2).1, (hframe y (hne y hy).2).2,
      hother y (hne y hy).1⟩, fun y hy => mt (hmem y).mp (hne y hy).2⟩

theorem Holds.listAdd (hs : Holds s a) (hh : a h = some l) (hx : a.Free x) (g : γ) :
    ∃ t, s.add x h g = some t ∧ Holds t (update a h (some ((x, g) :: l))) := by
  obtain ⟨t, ht, hring, hentry, hframe⟩ := (hs.ring h l hh).add (hx h l hh) g
  exact ⟨t, ht, hs.added hh hx (List.Perm.refl _) hring hentry hframe⟩

theorem Holds.listAddTail (hs : Holds s a) (hh : a h = some l) (hx : a.Free x) (g : γ) :
    ∃ t, s.addTail x h g = some t ∧ Holds t (update a h (some (l ++ [(x, g)]))) := by
  obtain ⟨t, ht, hring, hentry, hframe⟩ := (hs.ring h l hh).addTail (hx h l hh) g
  refine ⟨t, ht, hs.added hh hx List.perm_append_comm ?_ hentry hframe⟩
  rwa [List.map_append]

/-- A member leaves its list and is free. -/
theorem Holds.listDel (hs : Holds s a) (hk : a k = some (l₁ ++ (x, g) :: l₂)) :
    ∃ t, s.del x = some t ∧ Holds t (update a k (some (l₁ ++ l₂))) ∧
      Lists.Free (update a k (some (l₁ ++ l₂))) x := by
  have hring := hs.ring k _ hk
  rw [List.map_append, List.map_cons] at hring
  have hxmem : x ∈ l₁.map Prod.fst ++ x :: l₂.map Prod.fst :=
    List.mem_append_right _ List.mem_cons_self
  obtain ⟨t, ht, hring', hentry, hframe⟩ := hring.del hxmem
  have hnodup := (List.nodup_cons.mp hring.nodup).2
  have hx₁ : x ∉ l₁.map Prod.fst := fun hm =>
    (List.nodup_append.mp hnodup).2.2 x hm x List.mem_cons_self rfl
  rw [Circular.erase_split hx₁] at hring'
  have hsub : ∀ y, y ∈ l₁.map Prod.fst ++ l₂.map Prod.fst →
      y ∈ l₁.map Prod.fst ++ x :: l₂.map Prod.fst := fun y hy =>
    (List.mem_append.mp hy).elim (List.mem_append_left _) fun h =>
      List.mem_append_right _ (List.mem_cons_of_mem x h)
  have hapart : ∀ k' m, k' ≠ k → a k' = some m → ∀ y ∈ k' :: m.map Prod.fst,
      y ∉ k :: (l₁.map Prod.fst ++ x :: l₂.map Prod.fst) := by
    intro k' m hne hk' y hy
    have hh := hs.apart k' m k _ hk' hk hne y hy
    rwa [List.map_append] at hh
  refine ⟨t, ht, hs.set (by rwa [List.map_append]) ?_ (fun p hp => ?_) fun k' m hne hk' => ?_,
    fun k' m hk' => ?_⟩
  · rw [hentry, hs.head k _ hk]
  · have hp' : p ∈ l₁ ++ (x, g) :: l₂ := (List.mem_append.mp hp).elim (List.mem_append_left _)
      fun h => List.mem_append_right _ (List.mem_cons_of_mem _ h)
    rw [hentry, hs.entry k _ hk p hp']
  · refine ⟨fun y hy => ⟨(hframe y (hapart k' m hne hk' y hy)).1,
      (hframe y (hapart k' m hne hk' y hy)).2, congrFun hentry y⟩, fun y hy => ?_⟩
    have hno := hapart k' m hne hk' y hy
    rw [List.map_append]
    exact fun hm => hno ((List.mem_cons.mp hm).elim (fun h => h ▸ List.mem_cons_self)
      fun h => List.mem_cons_of_mem k (hsub y h))
  · by_cases hne : k' = k
    · subst hne
      rw [update_self, Option.some.injEq] at hk'
      rw [← hk', List.map_append, ← Circular.erase_split (a := x) hx₁]
      exact List.not_mem_cons_of_ne_of_not_mem (hring.ne_head hxmem) hnodup.not_mem_erase
    · rw [update_of_ne hne] at hk'
      exact fun hm => hapart k' m hne hk' x hm (List.mem_cons_of_mem k hxmem)

theorem Holds.listDelInit (hs : Holds s a) (hk : a k = some (l₁ ++ (x, g) :: l₂)) :
    ∃ t, s.delInit x = some t ∧ Holds t (update a k (some (l₁ ++ l₂))) := by
  obtain ⟨t, ht, hholds, hfree⟩ := hs.listDel hk
  refine ⟨t.init x, by rw [Links.delInit, ht]; rfl, ?_⟩
  have hinit := (hholds.initListHead (h := x) fun k' m hk' hm =>
    hfree k' m hk' (List.mem_cons_of_mem k' hm)).forget x
  have hnone : update a k (some (l₁ ++ l₂)) x = none := by
    cases hx : update a k (some (l₁ ++ l₂)) x with
    | none => rfl
    | some m => exact absurd List.mem_cons_self (hfree x m hx)
  rwa [update_idem, ← hnone, update_eq_self] at hinit

theorem Holds.listSplice (hs : Holds s a) (hk : a k = some m) (hm : m ≠ []) (hne : k ≠ h)
    (hh : a h = some (l₁ ++ l₂)) :
    ∃ t, s.splice k ((l₁.map Prod.fst).getLastD h) ((l₂.map Prod.fst).headD h) = some t ∧
      Holds t (update (update a k none) h (some (l₁ ++ (m ++ l₂)))) := by
  have hring := hs.ring h _ hh
  have hapart := hs.apart h _ k m hh hk hne.symm
  rw [List.map_append] at hring hapart
  obtain ⟨t, ht, hring', hentry, hframe⟩ := hring.splice (hs.ring k m hk)
    (fun hnil => hm (List.map_eq_nil_iff.mp hnil)) hapart
  refine ⟨t, ht, (hs.forget k).set ?_ ?_ (fun p hp => ?_) fun k' m' hne' hk' => ?_⟩
  · rwa [List.map_append, List.map_append]
  · rw [hentry, hs.head h _ hh]
  · rw [hentry]
    simp only [List.mem_append] at hp
    rcases hp with hp | hp | hp
    · exact hs.entry h _ hh p (List.mem_append_left _ hp)
    · exact hs.entry k _ hk p hp
    · exact hs.entry h _ hh p (List.mem_append_right _ hp)
  · have hkk : k' ≠ k := fun heq => by
      rw [heq, update_self] at hk'
      cases hk'
    rw [update_of_ne hkk] at hk'
    have hno : ∀ y ∈ k' :: m'.map Prod.fst,
        y ∉ h :: (l₁.map Prod.fst ++ (m.map Prod.fst ++ l₂.map Prod.fst)) := by
      intro y hy
      have h₁ := hs.apart k' m' h _ hk' hh hne' y hy
      have h₂ := hs.apart k' m' k _ hk' hk hkk y hy
      simp only [List.map_append, List.mem_cons, List.mem_append] at h₁ h₂ ⊢
      tauto
    refine ⟨fun y hy => ⟨(hframe y (hno y hy)).1, (hframe y (hno y hy)).2, congrFun hentry y⟩,
      fun y hy => ?_⟩
    rw [List.map_append, List.map_append]
    exact hno y hy

/-- Every use of a macro keeps the lists, and follows no null pointer. -/
theorem Holds.step {op : ListOp α γ} (hs : Holds s a) (hop : Spec a op b) :
    ∃ t, op.run s = some t ∧ Holds t b := by
  cases hop with
  | initListHead hh => exact ⟨_, rfl, hs.initListHead hh⟩
  | listAdd hh hx => exact hs.listAdd hh hx _
  | listAddTail hh hx => exact hs.listAddTail hh hx _
  | listDel hk =>
    obtain ⟨t, ht, hholds, -⟩ := hs.listDel hk
    exact ⟨t, ht, hholds⟩
  | listDelInit hk => exact hs.listDelInit hk
  | listMove hk hh =>
    obtain ⟨t, ht, hholds, hfree⟩ := hs.listDel hk
    obtain ⟨u, hu, hholds'⟩ := hholds.listAdd hh hfree _
    exact ⟨u, by rw [ListOp.run, ht]; exact hu, hholds'⟩
  | listMoveTail hk hh =>
    obtain ⟨t, ht, hholds, hfree⟩ := hs.listDel hk
    obtain ⟨u, hu, hholds'⟩ := hholds.listAddTail hh hfree _
    exact ⟨u, by rw [ListOp.run, ht]; exact hu, hholds'⟩
  | spliceEmpty hk =>
    have hempty : s.empty _ = true := (hs.ring _ _ hk).empty_iff.mpr rfl
    exact ⟨s, by rw [ListOp.run, Links.splice, hempty]; rfl, hs⟩
  | listSplice hk hm hne hh => exact hs.listSplice hk hm hne hh

theorem holds_of_reach (hr : Reach (listSystem α γ) (s, a)) : Holds s a := by
  refine hr.invariant (I := fun st => Holds st.1 st.2) (fun st h0 => ?_)
    fun st op st' hs _ hstep => ?_
  · have hnone : ∀ h, st.2 h = none := fun h => congrFun h0 h
    constructor <;> simp [hnone]
  · obtain ⟨t, ht, hholds⟩ := hs.step hstep.1
    rw [hstep.2, Option.some.injEq] at ht
    exact ht ▸ hholds

/-! ### Chains and walks -/

omit [DecidableEq α] in
theorem follow_next {p n : α} {l : List α} (hs : s.Seg p l n) :
    follow s.next (l.length + 1) p = some (l ++ [n]) := by
  induction l generalizing p with
  | nil => simp [follow, hs.1]
  | cons y l ih => rw [List.length_cons, follow, hs.1.1, Option.bind_some, ih hs.2]; rfl

omit [DecidableEq α] in
theorem follow_concat {f : α → Option α} {n : ℕ} {p z : α} {l : List α}
    (hl : follow f n p = some l) (hz : f (l.getLastD p) = some z) :
    follow f (n + 1) p = some (l ++ [z]) := by
  induction n generalizing p l with
  | zero =>
    obtain rfl : [] = l := Option.some.inj hl
    rw [follow, show f p = some z from hz]
    rfl
  | succ n ih =>
    obtain ⟨q, hq, hrest⟩ := Option.bind_eq_some_iff.mp hl
    obtain ⟨m, hm, rfl⟩ := Option.map_eq_some_iff.mp hrest
    rw [List.getLastD_cons] at hz
    rw [follow, hq, Option.bind_some, ih hm hz]
    rfl

omit [DecidableEq α] in
theorem follow_prev {p n : α} {l : List α} (hs : s.Seg p l n) :
    follow s.prev (l.length + 1) n = some (l.reverse ++ [p]) := by
  induction l generalizing p with
  | nil => simp [follow, hs.2]
  | cons y l ih =>
    rw [List.length_cons, List.reverse_cons]
    exact follow_concat (ih hs.2) (by rw [List.getLastD_concat, hs.1.2])

/-- What an iteration reads to go on: the entry behind the node `x`. -/
theorem Holds.entry_next (hs : Holds s a) (hh : a h = some (l ++ m))
    (hx : x = (l.map Prod.fst).getLastD h) :
    (s.next x).bind s.entry = m.head?.map Prod.snd := by
  have hring := hs.ring h _ hh
  rw [List.map_append] at hring
  rw [hx, hring.ends_of_split.1]
  cases m with
  | nil => exact hs.head h _ hh
  | cons q m => exact hs.entry h _ hh q (List.mem_append_right l List.mem_cons_self)

/-- What the loop body leaves of the list behind the entries that are done with. -/
theorem Holds.body (hs : Holds s a) (body : γ → Body) (hh : a h = some (l₁ ++ (x, g) :: l₂)) :
    ∃ t l, (body g).run s x = some t ∧
      Holds t (update a h (some (l₁ ++ l ++ l₂))) ∧ l = [(x, g)].filter (body ·.2 = .keep) := by
  cases hb : body g with
  | keep =>
    refine ⟨s, [(x, g)], rfl, ?_, by simp [hb]⟩
    rwa [List.append_assoc, List.singleton_append, ← hh, update_eq_self]
  | listDel =>
    obtain ⟨t, ht, hholds, -⟩ := hs.listDel hh
    exact ⟨t, [], ht, by rwa [List.append_nil], by simp [hb]⟩
  | listDelInit =>
    obtain ⟨t, ht, hholds⟩ := hs.listDelInit hh
    exact ⟨t, [], ht, by rwa [List.append_nil], by simp [hb]⟩

/-- From any entry on the loop visits that entry and those behind it. -/
theorem Holds.safeLoop (hs : Holds s a) (member : γ → α) (body : γ → Body)
    (hh : a h = some (l₁ ++ (x, g) :: l₂)) (hmem : ∀ p ∈ (x, g) :: l₂, member p.2 = p.1) :
    ∃ t, safeLoop member h body (l₂.length + 2) s (some g) (l₂.head?.map Prod.snd) =
        some (g :: l₂.map Prod.snd, t) ∧
      Holds t (update a h (some (l₁ ++ ((x, g) :: l₂).filter (body ·.2 = .keep)))) := by
  induction l₂ generalizing s a l₁ x g with
  | nil =>
    obtain ⟨t, l, hrun, hholds, rfl⟩ := hs.body body hh
    rw [List.append_nil] at hholds
    refine ⟨t, ?_, hholds⟩
    rw [LinuxList.safeLoop, hmem (x, g) List.mem_cons_self, hrun]
    rfl
  | cons q l₂ ih =>
    obtain ⟨y, d⟩ := q
    obtain ⟨t, l, hrun, hholds, hl⟩ := hs.body body hh
    have hmem' : ∀ p ∈ (y, d) :: l₂, member p.2 = p.1 := fun p hp =>
      hmem p (List.mem_cons_of_mem _ hp)
    -- Whether the entry is kept or not, the next one is still on the list.
    have hnext : (t.next (member d)).bind t.entry = l₂.head?.map Prod.snd :=
      hholds.entry_next (h := h) (l := l₁ ++ l ++ [(y, d)]) (m := l₂)
        (by rw [update_self, List.append_assoc (l₁ ++ l)]; rfl)
        (by rw [List.map_append, hmem' (y, d) List.mem_cons_self, List.map_singleton,
          List.getLastD_concat])
    obtain ⟨u, hu, hholds'⟩ := ih hholds (update_self ..) hmem'
    refine ⟨u, ?_, ?_⟩
    · rw [LinuxList.safeLoop, hmem (x, g) List.mem_cons_self, hrun, Option.bind_some]
      simp only [List.head?_cons, Option.map_some, Option.elim_some, hnext]
      rw [List.length_cons, hu]
      rfl
    · rwa [update_idem, hl, List.append_assoc, ← List.filter_append]
        at hholds'

theorem Holds.listForEachEntrySafe (hs : Holds s a) (member : γ → α) (body : γ → Body)
    (hh : a h = some l) (hmem : ∀ p ∈ l, member p.2 = p.1) :
    ∃ t, listForEachEntrySafe member h body (l.length + 1) s = some (l.map Prod.snd, t) ∧
      Holds t (update a h (some (l.filter (body ·.2 = .keep)))) := by
  have hpos : (s.next h).bind s.entry = l.head?.map Prod.snd :=
    hs.entry_next (l := []) hh rfl
  cases l with
  | nil =>
    refine ⟨s, ?_, by rwa [List.filter_nil, ← hh, update_eq_self]⟩
    rw [LinuxList.listForEachEntrySafe, hpos]
    rfl
  | cons q l =>
    have hh' : a h = some ([] ++ (q.1, q.2) :: l) := hh
    obtain ⟨t, ht, hholds⟩ := hs.safeLoop member body hh' hmem
    have hn : (s.next (member q.2)).bind s.entry = l.head?.map Prod.snd :=
      hs.entry_next (l := [q]) hh (hmem q List.mem_cons_self)
    refine ⟨t, ?_, hholds⟩
    rw [LinuxList.listForEachEntrySafe, hpos]
    simp only [List.head?_cons, Option.map_some, Option.bind_some, hn]
    exact ht

/-- A head that list_splice has taken the members from is no list until it is set up again; every
other list stays one through all uses of the macros, the same backwards as forwards. A walk visits
its members in order and ends, also when its body takes them off. -/
theorem lists_stay (hr : Reach (listSystem α γ) (s, a)) :
    (∀ op b, Spec a op b → ∃ t, op.run s = some t) ∧
    ∀ head l, a head = some l →
      (head :: l.map Prod.fst).Nodup ∧
      follow s.next (l.length + 1) head = some (l.map Prod.fst ++ [head]) ∧
      follow s.prev (l.length + 1) head = some ((l.map Prod.fst).reverse ++ [head]) ∧
      ∀ member : γ → α, (∀ p ∈ l, member p.2 = p.1) →
        (∃ fuel, listForEachEntry member head fuel s = some (l.map Prod.snd)) ∧
        ∀ body, ∃ fuel t, listForEachEntrySafe member head body fuel s =
            some (l.map Prod.snd, t) ∧
          Holds t (update a head (some (l.filter (body ·.2 = .keep)))) := by
  have hs := holds_of_reach hr
  refine ⟨fun op b hop => ?_, fun head l hh => ?_⟩
  · obtain ⟨t, ht, -⟩ := hs.step hop
    exact ⟨t, ht⟩
  obtain ⟨hnodup, hseg⟩ := Links.isRing_iff_seg.mp (hs.ring head l hh)
  have hnext := follow_next hseg
  have hprev := follow_prev hseg
  rw [List.length_map] at hnext hprev
  refine ⟨hnodup, hnext, hprev, fun member hmem => ⟨?_, fun body => ?_⟩⟩
  · have hmap : l.map Prod.fst = (l.map Prod.snd).map member := by
      rw [List.map_map]
      exact List.map_congr_left fun p hp => (hmem p hp).symm
    refine (hmap ▸ hs.ring head l hh).walk (hs.head head l hh) fun g hg => ?_
    obtain ⟨p, hp, rfl⟩ := List.mem_map.mp hg
    rw [hmem p hp]
    exact hs.entry head l hh p hp
  · obtain ⟨t, ht, hholds⟩ := hs.listForEachEntrySafe member body hh hmem
    exact ⟨l.length + 1, t, ht, hholds⟩

theorem lists_stay_one : ∃ s : Links ℕ ℕ, follow s.next 2 0 = some [2, 0] ∧
    ∃ fuel, listForEachEntry (fun _ => 2) 0 fuel s = some [7] := by
  have h₀ : Reach (listSystem ℕ ℕ) (Links.zero, fun _ => none) := .init rfl
  have h₁ : Reach (listSystem ℕ ℕ) (Links.zero.init 0, update (fun _ => none) 0 (some [])) :=
    h₀.step (a := .initListHead 0) trivial ⟨.initListHead (by simp), rfl⟩
  have hfree : Lists.Free (update (fun _ => none) 0 (some []) : Lists ℕ ℕ) 2 := by
    intro k l hk
    by_cases hk0 : k = 0
    · simp only [hk0, update_self, Option.some.injEq] at hk
      simp [hk0, ← hk]
    · simp [update_of_ne hk0] at hk
  have hadd := Spec.listAdd (g := 7) (update_self ..) hfree
  obtain ⟨s, hs⟩ := (lists_stay h₁).1 _ _ hadd
  obtain ⟨-, hnext, -, hwalk⟩ :=
    (lists_stay (h₁.step trivial ⟨hadd, hs⟩)).2 0 [(2, 7)] rfl
  exact ⟨s, hnext, (hwalk (fun _ => 2) (by simp)).1⟩

/-- The members of the list at 1 are put into the one at 0, and 1 still points at them. -/
theorem spliced_head_dangles :
    ∃ s, [ListOp.initListHead 0, .initListHead 1, .listAdd 2 1 7, .listSplice 1 0 0].foldlM
        (fun s (op : ListOp ℕ ℕ) => op.run s) Links.zero = some s ∧
      s.next 1 = some 2 ∧ ∀ l, ¬s.IsRing 1 l := by
  refine ⟨_, rfl, rfl, fun l hl => ?_⟩
  have hnext := hl.next 1 List.mem_cons_self
  have hprev := hl.prev 1 List.mem_cons_self
  rw [← Option.some.inj hnext] at hprev
  exact absurd hprev (by decide)

end GfxDrm.LinuxList
