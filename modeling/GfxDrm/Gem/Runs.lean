import GfxDrm.Gem.Steps

/-! Whole runs: the references of an object are its handles, its name and what running calls
hold, and it is freed with the last of them. -/

namespace GfxDrm
open Pool Run

namespace GemDevice
open GemCall
variable {d d' : GemDevice} {i f o x : ℕ} {rest : List ℕ} {c : GemCall} {alloc : Bool}

/-! ### Making a handle -/

/-- The new handle is in the table, its reference pending. -/
theorem Inv.insertHandle (h : Inv d) (hc : d.calls[i]? = some c) (hr : c.refs = 1)
    (ha : ∀ x, adding c x = 0) (hrest : c.rest = []) (hd : ∀ x, dropping c x = 0)
    {id : ℕ} {table : List (ℕ × ℕ)} {c' : FrCounters}
    (hget : idrListGetNewAbove d.counters (d.objectIdr c.file) c.obj alloc = (.ok (id, table), c')) :
    Inv { (d.setObjectIdr c.file table).setCall i (some (inserted c.file c.obj)) with
      counters := c' } := by
  have hp := perm_others hc
  have hmem := List.mem_of_getElem? hc
  have hfreed := h.freed c.obj (h.lt_of_mention hmem)
  have htable : table = (id, c.obj) :: d.objectIdr c.file := (idrListGetNewAbove_list hget).1
  have hent : ∀ x, entries { (d.setObjectIdr c.file table).setCall i
      (some (inserted c.file c.obj)) with counters := c' } x =
        d.entries x + if c.obj = x then 1 else 0 := fun x => by
    have he := entries_setObjectIdr (h.files c hmem) table x
    rw [htable, List.countP_cons] at he
    have he' : entries (d.setObjectIdr c.file table) x = d.entries x + if c.obj = x then 1 else 0 := by
      rw [htable]
      by_cases hx : c.obj = x
      · simp only [hx, decide_true] at he ⊢
        omega
      · simp only [hx, decide_false, Bool.false_eq_true] at he ⊢
        omega
    exact he'
  suffices t : Turn d { (d.setObjectIdr c.file table).setCall i
      (some (inserted c.file c.obj)) with counters := c' } (some c)
      (some (inserted c.file c.obj)) (Pool.others d.calls i) from t.inv h
  refine
    { before := hp
      after := moveOn_perm _ _ _
      next := rfl
      new_ne := by simp
      refs := fun x => ?_
      handles := fun x => ?_
      objects := fun x => ?_
      files := List.length_set
      new_file := fun c'' e => by
        rw [← Option.some.inj e]
        exact h.files c hmem
      names := h.names.taken (d.objectIdr c.file) c.obj alloc rfl (fun _ => rfl)
        (by rw [hget]) }
  · have hheld : held (inserted c.file c.obj) x = held c x := by
      rw [held, held, hr]
      rfl
    rw [Option.toList_some, Option.toList_some, total_cons, total_cons, hheld]
    rfl
  · have h1 : total adding (some (inserted c.file c.obj)).toList x =
        if c.obj = x then 1 else 0 := by
      rfl
    have h2 : total dropping (some (inserted c.file c.obj)).toList x = 0 := rfl
    rw [hent, h1, Option.toList_some, total_cons, total_nil, total_cons, total_nil, ha, hd]
    simp only [setCall, setObjectIdr]
    omega
  · by_cases hx : x = c.obj
    · subst hx
      refine .inr (h.touched hp (h.named _) hfreed fun f' hf' => ?_)
      exact h.flink f' _ ((mem_moveOn hc hf').resolve_right (by simp))
    · refine .inl ⟨rfl, ?_, by simp⟩
      have hm : mention (inserted c.file c.obj) x = mention c x := by
        rw [mention, mention, hrest]
        rfl
      rw [hent, if_neg (Ne.symm hx), Option.toList_some, total_cons,
        hm]
      exact le_rfl

theorem Inv.run_opening (h : Inv d) (hc : d.calls[i]? = some (opening f o)) (alloc : Bool) :
    Inv (GemCall.run d i alloc (opening f o)) := by
  show Inv (handleCreate d i f o alloc (d.setCall i (some (unref f o []))))
  have htaken := h.taken (d.objectIdr f) o alloc
  unfold handleCreate
  split
  · rename_i id table c' hget
    exact h.insertHandle hc rfl (fun _ => rfl) rfl (fun _ => rfl) hget
  · rename_i e c' hget
    rw [hget] at htaken
    split
    · exact htaken
    · exact htaken.toUnref (c := opening f o) hc rfl rfl rfl rfl

/-- An object whose creation failed has no other user. -/
theorem Inv.dropNew (h : Inv d) (hc : d.calls[i]? = some (creating f o)) :
    Inv ((d.setObj o i915GemObjectFree).setCall i none) := by
  have hmem := List.mem_of_getElem? hc
  have hobj := setObj_self d o i915GemObjectFree
  obtain ⟨h1, h2, -⟩ := h.fresh f o hmem
  have hname : nameRef (i915GemObjectFree (d.obj o)) = nameRef (d.obj o) := rfl
  refine h.solo _ none hc (.inr rfl) rfl rfl rfl (fun y hy => setObj_of_ne d _ hy)
    ?_ ?_ ?_ ?_ ?_ (h.names.congr rfl (setObj_name d _ fun _ => rfl) rfl)
  all_goals
    simp only [setCall, GemCall.obj, hobj, hname, GemCall.refs, Option.toList_none, total_nil]
    simp only [i915GemObjectFree]
  · omega
  · rfl
  · exact h.named o
  · intro f' hf'
    have hin : flinkNamed f' o ∈ Pool.others d.calls i := by
      have hm := (moveOn_perm d.calls i none).subset hf'
      simpa using hm
    have hle : mention (flinkNamed f' o) o ≤ total mention (Pool.others d.calls i) o := le_total hin
    have hone : mention (flinkNamed f' o) o = 1 := by simp [mention, GemCall.obj, GemCall.rest]
    have hone' : mention (creating f o) o = 1 := by simp [mention, GemCall.obj, GemCall.rest]
    rw [total_perm (perm_others hc), total_cons] at h2
    omega

theorem Inv.run_creating (h : Inv d) (hc : d.calls[i]? = some (creating f o)) (alloc : Bool) :
    Inv (GemCall.run d i alloc (creating f o)) := by
  show Inv (handleCreate d i f o alloc
    ((d.setObj o i915GemObjectFree).setCall i none))
  have htaken := h.taken (d.objectIdr f) o alloc
  unfold handleCreate
  split
  · rename_i id table c' hget
    exact h.insertHandle hc rfl (fun _ => rfl) rfl (fun _ => rfl) hget
  · rename_i e c' hget
    rw [hget] at htaken
    split
    · exact htaken
    · exact htaken.dropNew hc

theorem Inv.run (h : Inv d) (hc : d.calls[i]? = some c)
    (hg : (GemEvent.run i alloc).undisturbed d = true) : Inv (GemCall.run d i alloc c) := by
  simp only [GemEvent.undisturbed, hc] at hg
  cases c with
  | creating f o => exact h.run_creating hc alloc
  | opening f o => exact h.run_opening hc alloc
  | inserted f o => exact h.run_inserted hc alloc
  | flinkLooked f o =>
    refine h.run_flinkLooked hc fun ha => ?_
    simpa [ha] using hg
  | flinkNamed f o => exact h.run_flinkNamed hc alloc
  | removed f o rest => exact h.run_removed hc alloc (of_decide_eq_true hg)
  | unnamed f o rest => exact h.run_unnamed hc alloc
  | unref f o rest =>
    refine h.run_unref hc alloc fun h1 f' hf' => ?_
    have hall : ∀ c ∈ d.calls, c.naming = false ∨ c.obj ≠ o := by simpa [h1] using hg
    exact (hall _ hf').elim (by simp [GemCall.naming]) (fun hne => hne rfl)

/-! ### The first section of a call -/

/-- A lookup takes a reference on an object that is alive. -/
theorem Inv.start_held (h : Inv d) (hlt : o < d.nextObj) (hrc : 0 < (d.obj o).refcount)
    (hknown : ∀ f, creating f o ∉ d.calls) (ho : c.obj = o) (hr : c.refs = 1)
    (ha : ∀ x, adding c x = 0) (hrest : c.rest = []) (hd : ∀ x, dropping c x = 0)
    (hnc : ∀ f x, c ≠ creating f x) (hnf : ∀ f x, c ≠ flinkNamed f x)
    (hf : c.file < d.files.length) :
    Inv { d.setObj o krefGet with calls := c :: d.calls } := by
  have hobj := setObj_self d o krefGet
  have hfreed : (d.obj o).freed = false := by
    rw [Bool.eq_false_iff, ne_eq, h.freed o hlt]
    omega
  have hname : nameRef (krefGet (d.obj o)) = nameRef (d.obj o) := rfl
  suffices t : Turn d { d.setObj o krefGet with calls := c :: d.calls } none (some c) d.calls from
    t.inv h
  refine
    { before := List.Perm.refl _
      after := List.Perm.refl _
      next := rfl
      new_ne := fun f x e => hnc f x (Option.some.inj e)
      refs := fun x => ?_
      handles := fun x => ?_
      objects := fun x => ?_
      files := rfl
      new_file := fun c' e => Option.some.inj e ▸ hf
      names := h.names.congr rfl (setObj_name d _ fun _ => rfl) rfl }
  · simp only [Option.toList_none, Option.toList_some, total_cons, total_nil, held, hr, ho]
    by_cases hx : x = o
    · subst hx
      rw [hobj, hname, if_pos rfl]
      simp only [krefGet]
    · rw [setObj_of_ne d _ hx, if_neg (Ne.symm hx)]
  · simp only [Option.toList_none, Option.toList_some, total_cons, total_nil, ha, hd]
    show _ + _ + d.entries x + _ = _ + _ + d.entries x + _
    by_cases hx : x = o
    · subst hx
      rw [hobj]
      rfl
    · rw [setObj_of_ne d _ hx]
  · by_cases hx : x = o
    · subst hx
      refine .inr ⟨hlt, hknown, ?_, ?_, fun f' _ => ?_⟩
      all_goals rw [hobj]
      · exact h.named x
      · simp [krefGet, hfreed]
      · simp [krefGet]
    · refine .inl ⟨setObj_of_ne d _ hx, ?_, fun f e => hnf f x (Option.some.inj e)⟩
      show _ + d.entries x ≤ _ + d.entries x
      simp [mention, ho, hrest, Ne.symm hx]

theorem entries_pos (hf : f < d.files.length) (hfind : idrListFind (d.objectIdr f) x = some o) :
    0 < d.entries o := by
  have hmem : d.objectIdr f ∈ d.files := by
    rw [objectIdr, List.getD_eq_getElem?_getD, List.getElem?_eq_getElem hf]
    exact List.getElem_mem hf
  have hle : (d.objectIdr f).countP (fun e => decide (e.2 = o)) ≤ d.entries o := le_total hmem
  have hpos : 0 < (d.objectIdr f).countP fun e => decide (e.2 = o) :=
    List.countP_pos_iff.mpr ⟨_, mem_of_idrListFind hfind, by simp⟩
  exact hpos.trans_le hle

theorem file_lt_of_find (hfind : idrListFind (d.objectIdr f) x = some o) : f < d.files.length := by
  by_contra hle
  rw [objectIdr, List.getD_eq_getElem?_getD, List.getElem?_eq_none (by omega)] at hfind
  simp [idrListFind] at hfind

theorem Inv.open (h : Inv d) (hf : f < d.files.length)
    (hfind : idrListFind d.objectNameIdr x = some o) :
    Inv { d.setObj o krefGet with calls := .opening f o :: d.calls } := by
  obtain ⟨hx0, hname⟩ := (h.names.mem_iff x o).mp (mem_of_idrListFind hfind)
  have hn : (d.obj o).name ≠ 0 := by rw [hname]; exact hx0
  have hhc := h.named o hn
  have hrc := h.refs o
  have hlt : o < d.nextObj := by
    by_contra hle
    rw [(h.bound o (by omega)).1] at hn
    exact hn rfl
  exact h.start_held hlt (by omega) (fun f' => h.known_of_name hn f') rfl rfl (fun _ => rfl) rfl
    (fun _ => rfl) (by simp) (by simp) hf

theorem Inv.flinkLook (h : Inv d) (hfind : idrListFind (d.objectIdr f) x = some o) :
    Inv { d.setObj o krefGet with calls := .flinkLooked f o :: d.calls } := by
  have hf := file_lt_of_find hfind
  have he := entries_pos hf hfind
  exact h.start_held (h.lt_of_entries he) (h.refcount_of_handle (by omega))
    (fun f' => h.known_of_entries he f') rfl rfl (fun _ => rfl) rfl (fun _ => rfl) (by simp)
    (by simp) hf

/-- Handles leave their table and are still to be dropped. -/
theorem Inv.takeOff (h : Inv d) (hf : f < d.files.length) {table : List (ℕ × ℕ)} (objs : List ℕ)
    (hcount : ∀ x, (d.objectIdr f).countP (fun e => decide (e.2 = x)) =
      objs.count x + table.countP fun e => decide (e.2 = x)) :
    Inv { d.setObjectIdr f table with calls := (finish f objs).toList ++ d.calls } := by
  have hent : ∀ x, entries (d.setObjectIdr f table) x + objs.count x = d.entries x := fun x => by
    have he := entries_setObjectIdr hf table x
    have hx := hcount x
    omega
  suffices t : Turn d { d.setObjectIdr f table with
      calls := (finish f objs).toList ++ d.calls } none (finish f objs) d.calls from t.inv h
  refine
    { before := List.Perm.refl _
      after := List.Perm.refl _
      next := rfl
      new_ne := fun f' x => by cases objs <;> simp [finish]
      refs := fun x => ?_
      handles := fun x => ?_
      objects := fun x => .inl ⟨rfl, ?_, fun f' => by cases objs <;> simp [finish]⟩
      files := List.length_set
      new_file := fun c' e => ?_
      names := h.names.congr rfl (fun _ => rfl) rfl }
  · rw [(finish_totals f objs x).1]
    rfl
  · obtain ⟨-, h1, h2, -⟩ := finish_totals f objs x
    have he := hent x
    rw [h1, h2]
    show (d.obj x).handleCount + 0 + d.entries x + 0 =
      (d.obj x).handleCount + 0 + entries (d.setObjectIdr f table) x + objs.count x
    omega
  · have he := hent x
    rw [(finish_totals f objs x).2.2.2]
    show objs.count x + entries (d.setObjectIdr f table) x ≤ 0 + d.entries x
    omega
  · cases objs with
    | nil => simp [finish] at e
    | cons o objs =>
      simp only [finish, Option.some.injEq] at e
      rw [← e]
      exact hf

/-! ### Every step -/

theorem init_inv : Inv {} where
  refs x := rfl
  handles x := rfl
  named x hx := absurd rfl hx
  freed x hx := absurd hx (Nat.not_lt_zero x)
  flink f x hx := by simp at hx
  fresh f x hx := by simp at hx
  bound x _ := ⟨rfl, rfl, rfl⟩
  files c hc := by simp at hc
  names := ⟨fun n x => by simp [eq_comm], by simp, by decide, fun _ e he => by simp at he⟩

theorem Inv.create (h : Inv d) (hf : f < d.files.length) :
    Inv { d with
      obj := Function.update d.obj d.nextObj { refcount := 1 }
      nextObj := d.nextObj + 1
      calls := .creating f d.nextObj :: d.calls } := by
  obtain ⟨hnew, hm, he⟩ := h.bound d.nextObj le_rfl
  have hother : ∀ x ≠ d.nextObj, Function.update d.obj d.nextObj { refcount := 1 } x = d.obj x :=
    fun x hx => Function.update_of_ne hx _ _
  have hself : Function.update d.obj d.nextObj { refcount := 1 } d.nextObj = { refcount := 1 } :=
    Function.update_self _ _ _
  have hheld : total held d.calls d.nextObj = 0 := total_eq_zero.mpr fun c hc => by
    have hmc := total_eq_zero.mp hm c hc
    by_contra hne
    have hobj : c.obj = d.nextObj := by
      by_contra hno
      exact hne (if_neg hno)
    simp [mention, hobj] at hmc
  have hzero := h.handles d.nextObj
  rw [hnew] at hzero
  have hheld' : ∀ x ≠ d.nextObj, held (creating f d.nextObj) x = 0 := fun x hx =>
    if_neg (Ne.symm hx)
  have hmention' : ∀ x ≠ d.nextObj, mention (creating f d.nextObj) x = 0 := fun x hx => by
    simp [mention, GemCall.obj, GemCall.rest, Ne.symm hx]
  refine
    { refs := fun x => ?_
      handles := fun x => ?_
      named := fun x => ?_
      freed := fun x hx => ?_
      flink := fun f' x hx => ?_
      fresh := fun f' x hx => ?_
      bound := fun x hx => ?_
      files := fun c hc => ?_
      names := h.names.congr rfl (fun x => ?_) rfl }
  · dsimp only
    rw [total_cons]
    by_cases hx : x = d.nextObj
    · rw [hx, hheld]
      simp [held, GemCall.obj, GemCall.refs, nameRef]
    · rw [hother x hx, hheld' x hx, Nat.zero_add]
      exact h.refs x
  · dsimp only
    show _ + (0 + _) = d.entries x + (0 + _)
    rw [Nat.zero_add, Nat.zero_add]
    by_cases hx : x = d.nextObj
    · rw [hx, hself]
      exact hzero
    · rw [hother x hx]
      exact h.handles x
  · dsimp only
    by_cases hx : x = d.nextObj
    · rw [hx, hself]
      exact fun hn => absurd rfl hn
    · rw [hother x hx]
      exact h.named x
  · dsimp only at hx ⊢
    by_cases hxn : x = d.nextObj
    · rw [hxn]
      simp
    · rw [hother x hxn]
      exact h.freed x (by omega)
  · dsimp only at hx ⊢
    have hx : flinkNamed f' x ∈ d.calls := by simpa using hx
    have hlt := h.lt_of_mention hx
    rw [hother x (Nat.ne_of_lt hlt)]
    exact h.flink f' x hx
  · dsimp only at hx ⊢
    rw [total_cons]
    show _ ∧ _ ∧ d.entries x = 0
    by_cases hxn : x = d.nextObj
    · rw [hxn, hm, he]
      simp [mention, GemCall.obj, GemCall.rest]
    · have hx : creating f' x ∈ d.calls := by simpa [hxn] using hx
      rw [hother x hxn, hmention' x hxn, Nat.zero_add]
      exact h.fresh f' x hx
  · dsimp only at hx ⊢
    have hxn : x ≠ d.nextObj := by omega
    rw [total_cons, hother x hxn, hmention' x hxn, Nat.zero_add]
    exact h.bound x (by omega)
  · rcases List.mem_cons.mp hc with rfl | hc
    · exact hf
    · exact h.files c hc
  · dsimp only
    by_cases hx : x = d.nextObj
    · rw [hx, hself, hnew]
    · rw [hother x hx]

theorem Inv.openFile (h : Inv d) : Inv { d with files := d.files ++ [[]] } := by
  have hent : ∀ x, entries { d with files := d.files ++ [[]] } x = d.entries x := fun x => by
    simp [entries, total_append]
  exact
    { refs := h.refs
      handles := fun x => by
        rw [hent]
        exact h.handles x
      named := h.named
      freed := h.freed
      flink := h.flink
      fresh := fun f x hx => by
        rw [hent]
        exact h.fresh f x hx
      bound := fun x hx => by
        rw [hent]
        exact h.bound x hx
      files := fun c hc => by
        have := h.files c hc
        simp only [List.length_append]
        omega
      names := h.names.congr rfl (fun _ => rfl) rfl }

theorem count_objs (l : List (ℕ × ℕ)) (x : ℕ) :
    l.countP (fun e => decide (e.2 = x)) = (l.map Prod.snd).count x := by
  induction l with
  | nil => rfl
  | cons e l ih =>
    by_cases he : e.2 = x <;> simp [he, ih]

theorem Inv.step (h : Inv d) {e : GemEvent} (hg : e.undisturbed d = true) (hs : gemStep d e = some d') :
    Inv d' := by
  cases e with
  | openFile =>
    cases hs
    exact h.openFile
  | create f =>
    simp only [gemStep] at hs
    split at hs
    · simp at hs
    · rename_i hf
      cases hs
      exact h.create (by omega)
  | «open» f name =>
    simp only [gemStep] at hs
    split at hs
    · simp at hs
    · rename_i hf
      split at hs
      · cases hs
        exact h
      · rename_i o hfind
        cases hs
        exact h.open (by omega) hfind
  | flink f handle =>
    simp only [gemStep] at hs
    split at hs
    · cases hs
      exact h
    · rename_i o hfind
      cases hs
      exact h.flinkLook hfind
  | delete f handle =>
    simp only [gemStep] at hs
    split at hs
    · cases hs
      exact h
    · rename_i o hfind
      cases hs
      refine h.takeOff (file_lt_of_find hfind) [o] fun x => ?_
      rw [(idrListRemove_perm hfind).countP_eq]
      by_cases hx : o = x <;> simp [hx, Nat.add_comm]
  | release f =>
    simp only [gemStep] at hs
    split at hs
    · simp at hs
    · cases hs
      by_cases hf : f < d.files.length
      · exact h.takeOff hf _ fun x => by simp [count_objs]
      · have hempty : d.objectIdr f = [] := by
          rw [objectIdr, List.getD_eq_getElem?_getD, List.getElem?_eq_none (by omega)]
          rfl
        have hset : d.setObjectIdr f [] = d := by
          rw [setObjectIdr, List.set_eq_of_length_le (by omega)]
        simpa [hempty, hset, finish] using h
  | run i alloc =>
    obtain ⟨c, hc, rfl⟩ := Option.map_eq_some_iff.mp hs
    exact h.run hc hg

end GemDevice
open GemDevice

/-- What is promised of an object: a name only while there are handles, every reference
accounted for, and the memory freed with the last handle and the last running user. -/
structure Accounted (d : GemDevice) (o : ℕ) : Prop where
  named : (d.obj o).name ≠ 0 → 0 < (d.obj o).handleCount
  refs : (d.obj o).refcount =
    (d.obj o).handleCount + nameRef (d.obj o) + total GemCall.held d.calls o
  freed : (d.obj o).freed = true ↔
    (d.obj o).handleCount = 0 ∧ total GemCall.held d.calls o = 0
  handles : (d.obj o).handleCount + total GemCall.adding d.calls o =
    d.entries o + total GemCall.dropping d.calls o
  alive : ∀ c ∈ d.calls, c.obj = o → (d.obj o).freed = false

theorem gemSystem_inv {d : GemDevice}
    (h : ReachWhile gemSystem (fun d e => e.undisturbed d = true) d) : Inv d :=
  h.invariant (fun _ hi => hi ▸ init_inv) fun _ _ _ hI hg hs => hI.step hg hs

end GfxDrm
