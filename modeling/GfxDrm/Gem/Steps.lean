import Mathlib.Data.List.Nodup
import GfxDrm.Gem.Invariant

/-! Every step of a call keeps the balance, unless it is disturbed in one of three ways. -/

namespace GfxDrm
open Pool Run

/-- No last handle is closed between the lookup and the naming of `drm_gem_flink_ioctl`; no
handle is closed before its creation has taken its reference; no object is freed before
`drm_gem_flink_ioctl` has taken the reference of the name. -/
def GemEvent.undisturbed (d : GemDevice) : GemEvent → Bool
  | .run i alloc =>
    match d.calls[i]? with
    | some (.flinkLooked _ o) => !alloc || decide (0 < (d.obj o).handleCount)
    | some (.removed _ o _) => decide (0 < (d.obj o).handleCount)
    | some (.unref _ o _) =>
      decide ((d.obj o).refcount ≠ 1) || d.calls.all fun c => !(c.naming && decide (c.obj = o))
    | _ => true
  | _ => true

namespace GemDevice
open GemCall
variable {d d' : GemDevice} {i f o x : ℕ} {rest : List ℕ} {c : GemCall} {alloc : Bool}
  {others : List GemCall} {old new : Option GemCall}

theorem setObj_obj (d : GemDevice) (o : ℕ) (g : GemObject → GemObject) (x : ℕ) :
    (d.setObj o g).obj x = if x = o then g (d.obj o) else d.obj x := by
  unfold setObj
  by_cases hx : x = o
  · subst hx
    simp
  · simp [hx]

theorem entries_setObjectIdr (hf : f < d.files.length) (table : List (ℕ × ℕ)) (x : ℕ) :
    (d.setObjectIdr f table).entries x + (d.objectIdr f).countP (fun e => decide (e.2 = x)) =
      d.entries x + table.countP (fun e => decide (e.2 = x)) := by
  have hold : d.files.Perm (d.objectIdr f :: Pool.others d.files f) := by
    apply perm_others
    rw [objectIdr, List.getD_eq_getElem?_getD, List.getElem?_eq_getElem hf, Option.getD_some]
  unfold entries
  rw [total_perm hold, total_cons]
  unfold setObjectIdr
  rw [total_perm (set_perm hf table), total_cons]
  omega

theorem NamesOk.congr (h : NamesOk d) (hidr : d'.objectNameIdr = d.objectNameIdr)
    (hname : ∀ x, (d'.obj x).name = (d.obj x).name) (hc : d'.counters = d.counters) :
    NamesOk d' where
  mem_iff n x := by rw [hidr, hname, h.mem_iff]
  nodup := hidr ▸ h.nodup
  frId_lt := hc ▸ h.frId_lt
  le_frId := by
    rw [hc, hidr]
    exact h.le_frId

/-- Taking an id for some list leaves the names as they are. -/
theorem NamesOk.taken (h : NamesOk d) (head : List (ℕ × ℕ)) (obj : ℕ) (alloc : Bool)
    (hidr : d'.objectNameIdr = d.objectNameIdr) (hname : ∀ x, (d'.obj x).name = (d.obj x).name)
    (hc : d'.counters = (idrListGetNewAbove d.counters head obj alloc).2) : NamesOk d' := by
  obtain ⟨h1, h2⟩ := idrListGetNewAbove_counters head obj alloc h.frId_lt
  refine ⟨fun n x => by rw [hidr, hname, h.mem_iff], hidr ▸ h.nodup, hc ▸ h1, fun ht e he => ?_⟩
  rw [hc] at ht ⊢
  exact (h.le_frId (h2 ht).1 e (hidr ▸ he)).trans (h2 ht).2

/-- Only the counters change. -/
theorem Inv.taken (h : Inv d) (head : List (ℕ × ℕ)) (obj : ℕ) (alloc : Bool) :
    Inv { d with counters := (idrListGetNewAbove d.counters head obj alloc).2 } where
  refs := h.refs
  handles := h.handles
  named := h.named
  freed := h.freed
  flink := h.flink
  fresh := h.fresh
  bound := h.bound
  files := h.files
  names := h.names.taken head obj alloc rfl (fun _ => rfl) rfl

/-- The object of a running call, when the step leaves it alive. -/
theorem Inv.touched (h : Inv d) (hp : d.calls.Perm (c :: others))
    (hnamed : (d'.obj c.obj).name ≠ 0 → 0 < (d'.obj c.obj).handleCount)
    (hfreed : (d'.obj c.obj).freed = true ↔ (d'.obj c.obj).refcount = 0)
    (hflink : ∀ f, flinkNamed f c.obj ∈ d'.calls → 0 < (d'.obj c.obj).refcount) :
    Touched d d' others c.obj where
  lt := h.lt_of_mention (hp.symm.subset (List.mem_cons_self))
  known := h.known_of_call hp
  named := hnamed
  freed := hfreed
  flink := hflink

theorem Inv.refs_le (h : Inv d) (hc : c ∈ d.calls) : c.refs ≤ (d.obj c.obj).refcount := by
  have hle : held c c.obj ≤ total held d.calls c.obj := le_total hc
  rw [held, if_pos rfl] at hle
  have := h.refs c.obj
  omega

theorem Inv.not_freed (h : Inv d) (hc : c ∈ d.calls) (hr : 0 < (d.obj c.obj).refcount) :
    (d.obj c.obj).freed = false := by
  rw [Bool.eq_false_iff, ne_eq, h.freed _ (h.lt_of_mention hc)]
  omega

/-- The call stays with its object, or turns to the next one. -/
def Stays (c : GemCall) (new : Option GemCall) : Prop :=
  (∃ c', new = some c' ∧ c'.obj = c.obj ∧ c'.rest = c.rest ∧ c'.file = c.file ∧
    ∀ f x, c' ≠ creating f x) ∨ new = finish c.file c.rest

theorem totals_of_ne (hx : x ≠ c.obj) :
    held c x = 0 ∧ adding c x = 0 ∧ dropping c x = c.rest.count x := by
  have hx' : ¬ c.obj = x := Ne.symm hx
  refine ⟨if_neg hx', ?_, ?_⟩
  · cases c <;> first | rfl | exact if_neg hx'
  · cases c with
    | removed f o rest =>
      have ho : ¬ o = x := hx'
      rw [dropping, if_neg ho]
      exact Nat.zero_add _
    | _ => rfl

namespace Stays
variable (hs : Stays c new)
include hs

theorem totals (hx : x ≠ c.obj) : total held new.toList x = 0 ∧ total adding new.toList x = 0 ∧
    total dropping new.toList x = c.rest.count x := by
  rcases hs with ⟨c', rfl, ho, hr, -, -⟩ | rfl
  · obtain ⟨h1, h2, h3⟩ := totals_of_ne (ho ▸ hx)
    simp only [Option.toList_some, total_cons, total_nil, h1, h2, h3, hr, Nat.add_zero, and_self]
  · obtain ⟨h1, h2, h3, -⟩ := finish_totals c.file c.rest x
    exact ⟨h1, h2, h3⟩

theorem mention_le (x : ℕ) : total mention new.toList x ≤ mention c x := by
  rcases hs with ⟨c', rfl, ho, hr, -, -⟩ | rfl
  · simp [mention, ho, hr]
  · rw [(finish_totals c.file c.rest x).2.2.2]
    exact Nat.le_add_left _ _

theorem ne_creating (f x : ℕ) : new ≠ some (creating f x) := by
  rcases hs with ⟨c', rfl, -, -, -, hc⟩ | rfl
  · exact fun e => hc f x (Option.some.inj e)
  · cases hr : c.rest <;> simp [finish]

theorem ne_flinkNamed (hx : x ≠ c.obj) (f : ℕ) : new ≠ some (flinkNamed f x) := by
  rcases hs with ⟨c', rfl, ho, -, -, -⟩ | rfl
  · rintro e
    rw [Option.some.inj e] at ho
    exact hx ho
  · cases hr : c.rest <;> simp [finish]

theorem file (hf : c.file < d.files.length) : ∀ c', new = some c' → c'.file < d.files.length := by
  rintro c' e
  rcases hs with ⟨c'', rfl, -, -, hfile, -⟩ | rfl
  · rw [← Option.some.inj e, hfile]
    exact hf
  · cases hr : c.rest with
    | nil => simp [finish, hr] at e
    | cons o rest =>
      simp only [finish, hr, Option.some.injEq] at e
      rw [← e]
      exact hf

end Stays

/-- A step of one call on its own object, the tables aside. -/
theorem Inv.solo (h : Inv d) (d' : GemDevice) (new : Option GemCall) (hc : d.calls[i]? = some c) (hs : Stays c new)
    (hcalls : d'.calls = moveOn d.calls i new) (hnext : d'.nextObj = d.nextObj)
    (hfiles : d'.files = d.files) (hobj : ∀ y ≠ c.obj, d'.obj y = d.obj y)
    (hrefs : (d'.obj c.obj).refcount + c.refs + (d.obj c.obj).handleCount + nameRef (d.obj c.obj) =
      (d.obj c.obj).refcount + total held new.toList c.obj + (d'.obj c.obj).handleCount +
        nameRef (d'.obj c.obj))
    (hhandles : (d'.obj c.obj).handleCount + total adding new.toList c.obj + dropping c c.obj =
      (d.obj c.obj).handleCount + adding c c.obj + total dropping new.toList c.obj)
    (hnamed : (d'.obj c.obj).name ≠ 0 → 0 < (d'.obj c.obj).handleCount)
    (hfreed : (d'.obj c.obj).freed = true ↔ (d'.obj c.obj).refcount = 0)
    (hflink : ∀ f, flinkNamed f c.obj ∈ d'.calls → 0 < (d'.obj c.obj).refcount)
    (hnames : NamesOk d') : Inv d' := by
  have hp := perm_others hc
  have hent : ∀ x, d'.entries x = d.entries x := fun x => by rw [entries, entries, hfiles]
  suffices t : Turn d d' (some c) new (Pool.others d.calls i) from t.inv h
  refine
    { before := hp
      after := hcalls ▸ moveOn_perm _ _ _
      next := hnext
      new_ne := hs.ne_creating
      refs := fun x => ?_
      handles := fun x => ?_
      objects := fun x => ?_
      files := by rw [hfiles]
      new_file := hs.file (h.files _ (List.mem_of_getElem? hc))
      names := hnames }
  · rw [Option.toList_some, total_cons, total_nil]
    by_cases hx : x = c.obj
    · subst hx
      rw [held, if_pos rfl]
      exact hrefs
    · rw [hobj x hx, (totals_of_ne hx).1, (hs.totals hx).1]
  · rw [Option.toList_some, total_cons, total_nil, total_cons, total_nil, hent]
    by_cases hx : x = c.obj
    · subst hx
      omega
    · obtain ⟨-, h1, h2⟩ := totals_of_ne hx
      obtain ⟨-, h3, h4⟩ := hs.totals hx
      rw [hobj x hx]
      omega
  · by_cases hx : x = c.obj
    · subst hx
      exact .inr (h.touched hp hnamed hfreed hflink)
    · refine .inl ⟨hobj x hx, ?_, hs.ne_flinkNamed hx⟩
      rw [hent, Option.toList_some, total_cons]
      have := hs.mention_le x
      omega

/-! ### The steps of a running call -/

theorem stays_unref (f o : ℕ) (rest : List ℕ) {c : GemCall} (ho : c.obj = o) (hr : c.rest = rest)
    (hf : c.file = f) : Stays c (some (unref f o rest)) :=
  .inl ⟨_, rfl, ho.symm, hr.symm, hf.symm, by simp⟩

theorem setObj_self (d : GemDevice) (o : ℕ) (g : GemObject → GemObject) :
    (d.setObj o g).obj o = g (d.obj o) := by
  rw [setObj_obj, if_pos rfl]

theorem setObj_of_ne (d : GemDevice) (g : GemObject → GemObject) (hx : x ≠ o) :
    (d.setObj o g).obj x = d.obj x := by
  rw [setObj_obj, if_neg hx]

theorem setObj_name (d : GemDevice) (g : GemObject → GemObject) (hg : ∀ a, (g a).name = a.name)
    (x : ℕ) : ((d.setObj o g).obj x).name = (d.obj x).name := by
  rw [setObj_obj]
  split
  · rename_i hx
    rw [hx, hg]
  · rfl

theorem Inv.run_inserted (h : Inv d) (hc : d.calls[i]? = some (inserted f o)) (alloc : Bool) :
    Inv (GemCall.run d i alloc (inserted f o)) := by
  have hmem := List.mem_of_getElem? hc
  have hrc : 1 ≤ (d.obj o).refcount := h.refs_le hmem
  have hnf : (d.obj o).freed = false := h.not_freed hmem hrc
  have hobj := setObj_self d o handleReference
  have hname : nameRef (handleReference (d.obj o)) = nameRef (d.obj o) := rfl
  refine h.solo ((d.setObj o handleReference).setCall i (some (unref f o []))) _ hc
    (stays_unref f o [] rfl rfl rfl) rfl rfl rfl (fun y hy => setObj_of_ne d _ hy) ?_ ?_ ?_ ?_ ?_
    (h.names.congr rfl (setObj_name d _ fun _ => rfl) rfl)
  all_goals
    simp only [setCall, GemCall.obj, hobj, hname, GemCall.refs, held, adding, dropping,
      GemCall.rest, Option.toList_some, total_cons, total_nil, if_true]
    simp only [handleReference, krefGet, hnf]
  · omega
  · simp
  · omega
  · simp
  · omega

theorem Inv.run_flinkNamed (h : Inv d) (hc : d.calls[i]? = some (flinkNamed f o)) (alloc : Bool) :
    Inv (GemCall.run d i alloc (flinkNamed f o)) := by
  have hmem := List.mem_of_getElem? hc
  have hrc : 0 < (d.obj o).refcount := h.flink f o hmem
  have hnf : (d.obj o).freed = false := h.not_freed hmem hrc
  have hobj := setObj_self d o krefGet
  have hname : nameRef (krefGet (d.obj o)) = nameRef (d.obj o) := rfl
  refine h.solo ((d.setObj o krefGet).setCall i (some (unref f o []))) _ hc
    (stays_unref f o [] rfl rfl rfl) rfl rfl rfl (fun y hy => setObj_of_ne d _ hy) ?_ ?_ ?_ ?_ ?_
    (h.names.congr rfl (setObj_name d _ fun _ => rfl) rfl)
  all_goals
    simp only [setCall, GemCall.obj, hobj, hname, GemCall.refs, held, adding, dropping,
      GemCall.rest, Option.toList_some, total_cons, total_nil, if_true]
    simp only [krefGet, hnf]
  · omega
  · exact fun hn => h.named o hn
  · simp
  · omega

theorem Inv.run_unnamed (h : Inv d) (hc : d.calls[i]? = some (unnamed f o rest)) (alloc : Bool) :
    Inv (GemCall.run d i alloc (unnamed f o rest)) := by
  have hmem := List.mem_of_getElem? hc
  have hrc : 2 ≤ (d.obj o).refcount := h.refs_le hmem
  have hnf : (d.obj o).freed = false := h.not_freed hmem (Nat.lt_of_lt_of_le (by decide) hrc)
  have hobj := setObj_self d o krefPutBug
  have hname : nameRef (krefPutBug (d.obj o)) = nameRef (d.obj o) := rfl
  refine h.solo ((d.setObj o krefPutBug).setCall i (some (unref f o rest))) _ hc
    (stays_unref f o rest rfl rfl rfl) rfl rfl rfl (fun y hy => setObj_of_ne d _ hy) ?_ ?_ ?_ ?_ ?_
    (h.names.congr rfl (setObj_name d _ fun _ => rfl) rfl)
  all_goals
    simp only [setCall, GemCall.obj, hobj, hname, GemCall.refs, held, adding, dropping,
      GemCall.rest, Option.toList_some, total_cons, total_nil, if_true]
    simp only [krefPutBug]
  · omega
  · omega
  · exact fun hn => h.named o hn
  · simp only [hnf, Bool.false_eq_true, false_iff]
    omega
  · omega

theorem Inv.run_unref (h : Inv d) (hc : d.calls[i]? = some (unref f o rest)) (alloc : Bool)
    (hg : (d.obj o).refcount = 1 → ∀ f, flinkNamed f o ∉ d.calls) :
    Inv (GemCall.run d i alloc (unref f o rest)) := by
  have hmem := List.mem_of_getElem? hc
  have hrc : 1 ≤ (d.obj o).refcount := h.refs_le hmem
  have hnf : (d.obj o).freed = false := h.not_freed hmem hrc
  have hobj := setObj_self d o krefPut
  have hname : nameRef (krefPut (d.obj o)) = nameRef (d.obj o) := rfl
  obtain ⟨t1, t2, t3, -⟩ := finish_totals f rest o
  refine h.solo ((d.setObj o krefPut).setCall i (finish f rest)) (finish f rest) hc
    (.inr rfl) rfl rfl rfl (fun y hy => setObj_of_ne d _ hy) ?_ ?_ ?_ ?_ ?_
    (h.names.congr rfl (setObj_name d _ fun _ => rfl) rfl)
  all_goals
    simp only [setCall, GemCall.obj, hobj, hname, GemCall.refs, t2, t3, adding, dropping,
      GemCall.rest]
    simp only [krefPut]
  · omega
  · exact fun hn => h.named o hn
  · simp [hnf]
  · intro f' hf'
    have hin : flinkNamed f' o ∈ d.calls := by
      refine (mem_moveOn hc hf').resolve_right ?_
      cases rest <;> simp [finish]
    have hne : (d.obj o).refcount ≠ 1 := fun h1 => hg h1 f' hin
    omega

/-! ### Closing a handle -/

theorem NamesOk.removeName (h : NamesOk d) (hn : (d.obj o).name ≠ 0)
    (hidr : d'.objectNameIdr = idrListRemove d.objectNameIdr (d.obj o).name)
    (hself : (d'.obj o).name = 0) (hname : ∀ x ≠ o, (d'.obj x).name = (d.obj x).name)
    (hc : d'.counters = d.counters) : NamesOk d' := by
  have hmem : ((d.obj o).name, o) ∈ d.objectNameIdr := (h.mem_iff _ _).mpr ⟨hn, rfl⟩
  obtain ⟨o', hfind⟩ : ∃ o', idrListFind d.objectNameIdr (d.obj o).name = some o' := by
    cases hf : idrListFind d.objectNameIdr (d.obj o).name with
    | none => exact absurd rfl (idrListFind_none hf _ hmem)
    | some o' => exact ⟨o', rfl⟩
  have hperm := idrListRemove_perm hfind
  have hnd := h.nodup
  rw [(hperm.map Prod.fst).nodup_iff, List.map_cons, List.nodup_cons] at hnd
  have hsub : ∀ e ∈ d'.objectNameIdr, e ∈ d.objectNameIdr ∧ e.1 ≠ (d.obj o).name := by
    intro e he
    rw [hidr] at he
    exact ⟨hperm.symm.subset (List.mem_cons_of_mem _ he),
      fun heq => hnd.1 (List.mem_map.mpr ⟨e, he, heq⟩)⟩
  refine ⟨fun n x => ⟨fun hm => ?_, fun hx => ?_⟩, hidr ▸ hnd.2, hc ▸ h.frId_lt,
    fun ht e he => hc ▸ h.le_frId (hc ▸ ht) e (hsub e he).1⟩
  · obtain ⟨hm, hne⟩ := hsub _ hm
    obtain ⟨h1, h2⟩ := (h.mem_iff n x).mp hm
    have hxo : x ≠ o := by
      rintro rfl
      exact hne h2.symm
    exact ⟨h1, (hname x hxo).trans h2⟩
  · have hxo : x ≠ o := by
      rintro rfl
      exact hx.1 (hx.2.symm.trans hself)
    have hm := (h.mem_iff n x).mpr ⟨hx.1, (hname x hxo).symm.trans hx.2⟩
    rw [hidr]
    refine (List.mem_cons.mp (hperm.subset hm)).resolve_left fun he => ?_
    have hkey := List.inj_on_of_nodup_map h.nodup hm hmem (Prod.mk.inj he).1
    exact hxo (Prod.mk.inj hkey).2

theorem Inv.run_removed (h : Inv d) (hc : d.calls[i]? = some (removed f o rest)) (alloc : Bool)
    (hg : 0 < (d.obj o).handleCount) : Inv (GemCall.run d i alloc (removed f o rest)) := by
  have hmem := List.mem_of_getElem? hc
  have hfreed := h.freed o (h.lt_of_mention hmem)
  unfold GemCall.run handleUnreference
  dsimp only
  rw [if_neg hg.ne']
  split
  · rename_i hlast
    set g : GemObject → GemObject := fun g => { g with handleCount := g.handleCount - 1 } with hgd
    set d₁ := d.setObj o g with hd₁
    have hobj₁ := setObj_self d o g
    have hobj := setObj_self d₁ o fun g => { g with name := 0 }
    have hne : ∀ y ≠ o, (d₁.setObj o fun g => { g with name := 0 }).obj y = d.obj y := fun y hy =>
      (setObj_of_ne d₁ _ hy).trans (setObj_of_ne d _ hy)
    rw [← hd₁] at hobj₁
    refine h.solo _ (some (unnamed f o rest)) hc
      (.inl ⟨_, rfl, rfl, rfl, rfl, by simp⟩) rfl rfl rfl hne ?_ ?_ ?_ ?_ ?_
      (h.names.removeName hlast.2 rfl ?_ (fun x hx => by rw [setCall, hne x hx]) rfl)
    all_goals
      simp only [setCall, GemCall.obj, hobj, hobj₁, hgd, GemCall.refs, held, adding, dropping,
        GemCall.rest, Option.toList_some, total_cons, total_nil, if_true]
    · simp only [nameRef, if_neg hlast.2, if_true]
      omega
    · omega
    · simp
    · exact hfreed
    · intro f' hf'
      exact h.flink f' o ((mem_moveOn hc hf').resolve_right (by simp))
  · rename_i hlast
    set g : GemObject → GemObject := fun g => { g with handleCount := g.handleCount - 1 } with hgd
    have hobj := setObj_self d o g
    have hname : nameRef (g (d.obj o)) = nameRef (d.obj o) := rfl
    refine h.solo _ (some (unref f o rest)) hc (stays_unref f o rest rfl rfl rfl) rfl rfl rfl
      (fun y hy => setObj_of_ne d _ hy) ?_ ?_ ?_ ?_ ?_
      (h.names.congr rfl (setObj_name d _ fun _ => rfl) rfl)
    all_goals
      simp only [setCall, GemCall.obj, hobj, hname, GemCall.refs, held, adding, dropping,
        GemCall.rest, Option.toList_some, total_cons, total_nil, if_true]
      simp only [hgd]
    · omega
    · omega
    · intro hn
      omega
    · exact hfreed
    · intro f' hf'
      exact h.flink f' o ((mem_moveOn hc hf').resolve_right (by simp))

/-! ### Naming an object -/

theorem NamesOk.insertName (h : NamesOk d) (d' : GemDevice) {n : ℕ} {names : List (ℕ × ℕ)} {c' : FrCounters}
    (hget : idrListGetNewAbove d.counters d.objectNameIdr o alloc = (.ok (n, names), c'))
    (hold : (d.obj o).name = 0) (hidr : d'.objectNameIdr = names) (hself : (d'.obj o).name = n)
    (hname : ∀ x ≠ o, (d'.obj x).name = (d.obj x).name) (hc : d'.counters = c') :
    NamesOk d' ∧ n ≠ 0 := by
  obtain ⟨hnames, -, -, hid, -⟩ := idrListGetNewAbove_list hget
  obtain ⟨hn0, hfresh⟩ := idrListGetNewAbove_ok h.frId_lt h.le_frId hget
  obtain ⟨h1, h2⟩ := idrListGetNewAbove_counters d.objectNameIdr o alloc h.frId_lt
  rw [hget] at h1 h2
  refine ⟨⟨fun m x => ?_, ?_, hc ▸ h1, fun ht e he => ?_⟩, hn0⟩
  · rw [hidr, hnames, List.mem_cons, Prod.mk.injEq, h.mem_iff]
    by_cases hx : x = o
    · subst hx
      rw [hself, hold]
      constructor
      · rintro (⟨rfl, -⟩ | ⟨h0, h0'⟩)
        · exact ⟨hn0, rfl⟩
        · exact absurd h0'.symm h0
      · rintro ⟨-, rfl⟩
        exact .inl ⟨rfl, rfl⟩
    · rw [hname x hx]
      simp [hx]
  · rw [hidr, hnames, List.map_cons, List.nodup_cons]
    refine ⟨fun hm => ?_, h.nodup⟩
    obtain ⟨e, he, heq⟩ := List.mem_map.mp hm
    exact hfresh e he heq
  · rw [hc] at ht ⊢
    rw [hidr, hnames] at he
    rcases List.mem_cons.mp he with rfl | he
    · exact hid.ge
    · exact (h.le_frId (h2 ht).1 e he).trans (h2 ht).2

/-- A call that only drops what it held goes on to its `drm_gem_object_unreference`. -/
theorem Inv.toUnref (h : Inv d) (hc : d.calls[i]? = some c) (hr : c.refs = 1)
    (ha : adding c c.obj = 0) (hd : dropping c c.obj = 0) (hrest : c.rest = []) :
    Inv (d.setCall i (some (unref c.file c.obj []))) := by
  have hmem := List.mem_of_getElem? hc
  refine h.solo _ (some (unref c.file c.obj [])) hc (stays_unref _ _ _ rfl hrest rfl)
    rfl rfl rfl (fun _ _ => rfl) ?_ ?_ (h.named _) (h.freed _ (h.lt_of_mention hmem)) ?_
    (h.names.congr rfl (fun _ => rfl) rfl)
  · have hone : held (unref c.file c.obj []) c.obj = 1 := if_pos rfl
    rw [Option.toList_some, total_cons, hone, hr]
    rfl
  · rw [ha, hd]
    rfl
  · intro f' hf'
    exact h.flink f' _ ((mem_moveOn hc hf').resolve_right (by simp))

theorem Inv.run_flinkLooked (h : Inv d) (hc : d.calls[i]? = some (flinkLooked f o))
    (hg : alloc = true → 0 < (d.obj o).handleCount) :
    Inv (GemCall.run d i alloc (flinkLooked f o)) := by
  have hmem := List.mem_of_getElem? hc
  have hrc : 1 ≤ (d.obj o).refcount := h.refs_le hmem
  have hfreed := h.freed o (h.lt_of_mention hmem)
  show Inv (flinkName d i f o alloc)
  unfold flinkName
  split
  · exact h.toUnref hc rfl rfl rfl rfl
  rename_i hname
  have hname : (d.obj o).name = 0 := not_not.mp hname
  have htaken := h.taken d.objectNameIdr o alloc
  split
  · rename_i n names c' hget
    have halloc := (idrListGetNewAbove_list hget).2.2.2.2
    have hobj := setObj_self d o fun g => { g with name := n }
    have hne : ∀ y ≠ o, (d.setObj o fun g => { g with name := n }).obj y = d.obj y := fun y hy =>
      setObj_of_ne d _ hy
    obtain ⟨hnames, hn0⟩ := h.names.insertName { (d.setObj o fun g =>
      { g with name := n }).setCall i (some (flinkNamed f o)) with
        objectNameIdr := names, counters := c' } hget hname rfl (by simp only [setCall, hobj])
      (fun x hx => by simp only [setCall, hne x hx]) rfl
    refine h.solo _ (some (flinkNamed f o)) hc (.inl ⟨_, rfl, rfl, rfl, rfl, by simp⟩)
      rfl rfl rfl hne ?_ ?_ ?_ ?_ ?_ hnames
    all_goals
      simp only [setCall, GemCall.obj, hobj, GemCall.refs, held, Option.toList_some, total_cons, total_nil, if_true]
    · simp only [nameRef, if_neg hn0, if_pos hname]
      omega
    · rfl
    · exact fun _ => hg halloc
    · exact hfreed
    · exact fun _ _ => hrc
  · rename_i e c' hget
    rw [hget] at htaken
    split
    · exact htaken
    · exact htaken.toUnref (c := flinkLooked f o) hc rfl rfl rfl rfl

end GemDevice
end GfxDrm
