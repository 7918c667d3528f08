import GfxDrm.Phys.Contents

/-! Attaching, writing and detaching over whole runs. -/

namespace GfxDrm.Phys
open Copy Run

variable {s t : PhysState} {o q : ObjId} {p : BufferId} {id : ℕ} {v : ObjId → Contents}

/-! ### Detaching -/

/-- Apart from `o`, which is attached no more, the states agree on who is attached where, and on
the buffers. -/
structure Detached (o : ObjId) (s t : PhysState) : Prop where
  self : (t.obj o).physObj = none
  others : ∀ q, q ≠ o → (t.obj q).physObj = (s.obj q).physObj
  size : ∀ q, (t.obj q).size = (s.obj q).size
  physObjs : t.physObjs = s.physObjs
  next : t.next = s.next
  bufferSize : ∀ p, (t.buffer p).size = (s.buffer p).size
  bytes : ∀ p, (t.buffer p).bytes = (s.buffer p).bytes

theorem unlink_detached (hobj : ∀ q, (t.obj q).physObj = (s.obj q).physObj ∧
      (t.obj q).size = (s.obj q).size) (hbuf : t.buffer = s.buffer)
    (hphys : t.physObjs = s.physObjs) (hnext : t.next = s.next) :
    Detached o s (unlink t o p) where
  self := by
    unfold unlink
    rw [PhysState.setObj_self]
  others q hq := by
    unfold unlink
    rw [PhysState.setObj_of_ne hq]
    exact (hobj q).1
  size q := by
    unfold unlink
    by_cases hq : q = o
    · subst hq
      rw [PhysState.setObj_self]
      exact (hobj q).2
    · rw [PhysState.setObj_of_ne hq]
      exact (hobj q).2
  physObjs := hphys
  next := hnext
  bufferSize p' := by
    unfold unlink
    rw [PhysState.setObj_buffer]
    by_cases hp : p' = p
    · rw [hp, PhysState.setBuffer_self, hbuf]
    · rw [PhysState.setBuffer_of_ne hp, hbuf]
  bytes p' := by
    unfold unlink
    rw [PhysState.setObj_buffer]
    by_cases hp : p' = p
    · rw [hp, PhysState.setBuffer_self, hbuf]
    · rw [PhysState.setBuffer_of_ne hp, hbuf]

/-- Detaching takes the contents over, where it can get the pages or need not. -/
theorem PhysInv.detach (h : PhysInv v s) {ret : ℤ}
    (hsave : (s.obj o).physObj ≠ none → Saves s o ret) :
    PhysInv v (detachPhysObject s o ret) ∧ Detached o s (detachPhysObject s o ret) := by
  unfold detachPhysObject
  cases hp : (s.obj o).physObj with
  | none =>
    exact ⟨h,
      { self := hp
        others := fun _ _ => rfl
        size := fun _ => rfl
        physObjs := rfl
        next := rfl
        bufferSize := fun _ => rfl
        bytes := fun _ => rfl }⟩
  | some p =>
    have hpages := h.getPages (o := o) ret
    have hobj := getPages_obj s o ret
    obtain ⟨hbuf, hphys, hnext⟩ := getPages_rest s o ret
    have hp' : ((Phys.getPages s o ret).2.obj o).physObj = some p := (hobj o).1.trans hp
    dsimp only
    by_cases hret : (Phys.getPages s o ret).1 = 0
    · rw [if_neg (not_not.mpr hret)]
      obtain ⟨hinv, hcopied⟩ := hpages.copyFromBuffer hp'
      have hcopy := copyFromBuffer_obj (Phys.getPages s o ret).2 o p
      refine ⟨hinv.unlink ((hcopy o).1.trans hp') fun i hi => ?_, ?_⟩
      · rw [(hcopy o).2] at hi
        rw [hcopied i hi, PhysState.seen_attached hp',
          PhysState.seen_attached ((hcopy o).1.trans hp')]
        rfl
      · exact unlink_detached (fun q => ⟨(hcopy q).1.trans (hobj q).1,
          (hcopy q).2.trans (hobj q).2.2⟩) hbuf hphys hnext
    · rw [if_pos hret]
      refine ⟨hpages.unlink hp' fun i hi => ?_, unlink_detached (fun q => ⟨(hobj q).1,
        (hobj q).2.2⟩) hbuf hphys hnext⟩
      rw [(hobj o).2.2] at hi
      rw [(hobj o).2.1, PhysState.seen_attached hp', hbuf, ← PhysState.seen_attached hp]
      rcases hsave (by rw [hp]; simp) with hlist | hzero | hsame
      · exact absurd ((getPages_ok_iff s o ret).mpr (.inl hlist)) hret
      · exact absurd ((getPages_ok_iff s o ret).mpr (.inr hzero)) hret
      · exact hsame i hi

/-! ### Attaching -/

theorem initPhysObject_there {size : ℕ} {alloc : Option Contents} (h : s.physObjs id = some p) :
    initPhysObject s id size alloc = (0, s) := by
  unfold initPhysObject
  rw [if_pos (.inl (by simp [h]))]

/-- A state with one more buffer, which belongs to `id`. -/
def PhysState.withBuffer (s : PhysState) (id size : ℕ) (bytes : Contents) : PhysState :=
  { s with
    physObjs := Function.update s.physObjs id (some s.next)
    buffer := Function.update s.buffer s.next { id := id, size := size, bytes := bytes }
    next := s.next + 1 }

theorem initPhysObject_new {size : ℕ} {alloc : Option Contents} (h : s.physObjs id = none)
    (hsize : size ≠ 0) : initPhysObject s id size alloc =
      match alloc with
      | none => (Errno.eNomem, s)
      | some bytes => (0, s.withBuffer id size bytes) := by
  unfold initPhysObject
  rw [if_neg (by simp [h, hsize])]
  rfl

/-- A new buffer is nobody's yet. -/
theorem PhysInv.withBuffer (h : PhysInv v s) (hnone : s.physObjs id = none)
    (bytes : Contents) (size : ℕ) : PhysInv v (s.withBuffer id size bytes) := by
  have hold : ∀ q p', (s.obj q).physObj = some p' → p' ≠ s.next ∧ (s.buffer p').id ≠ id := by
    intro q p' hq
    have hown := h.own q p' hq
    refine ⟨(h.named _ p' hown).2.ne, fun hid => ?_⟩
    rw [hid, hnone] at hown
    cases hown
  unfold PhysState.withBuffer
  refine
    { seen := fun q i hi => ?_
      own := fun q p' hq => ?_
      fits := fun q p' hq => ?_
      single := h.single
      named := fun id' p' hid => ?_
      inBounds := h.inBounds }
  · rw [← h.seen q i hi]
    unfold PhysState.seen
    cases hp : (s.obj q).physObj with
    | none => rfl
    | some p' =>
      dsimp only
      rw [Function.update_of_ne (hold q p' hp).1]
  · obtain ⟨hne, hid⟩ := hold q p' hq
    dsimp only
    rw [Function.update_of_ne hne, Function.update_of_ne hid]
    exact h.own q p' hq
  · dsimp only
    rw [Function.update_of_ne (hold q p' hq).1]
    exact h.fits q p' hq
  · dsimp only at hid ⊢
    by_cases hi : id' = id
    · subst hi
      rw [Function.update_self] at hid
      obtain rfl := Option.some.inj hid
      rw [Function.update_self]
      exact ⟨rfl, Nat.lt_succ_self _⟩
    · rw [Function.update_of_ne hi] at hid
      obtain ⟨hname, hlt⟩ := h.named id' p' hid
      rw [Function.update_of_ne hlt.ne]
      exact ⟨hname, hlt.trans (Nat.lt_succ_self _)⟩

/-- An object may take a buffer of its own that holds its contents. -/
theorem PhysInv.link (h : PhysInv v s) (hfree : (s.obj o).physObj = none)
    (hid : s.physObjs id = some p) (hfits : (s.obj o).size ≤ (s.buffer p).size)
    (halone : ∀ q ≠ o, (s.obj q).physObj ≠ some p)
    (hbytes : ∀ i < (s.obj o).size, (s.buffer p).bytes i = s.seen o i) :
    PhysInv v (s.setObj o { s.obj o with physObj := some p }) := by
  have hself : (s.setObj o { s.obj o with physObj := some p }).obj o =
      { s.obj o with physObj := some p } := PhysState.setObj_self
  have hother : ∀ q, q ≠ o → (s.setObj o { s.obj o with physObj := some p }).obj q = s.obj q :=
    fun q hq => PhysState.setObj_of_ne hq
  refine
    { seen := fun q i hi => ?_
      own := fun q p' hq => ?_
      fits := fun q p' hq => ?_
      single := fun q q' p' hq hq' => ?_
      named := h.named
      inBounds := h.inBounds }
  · by_cases hqo : q = o
    · subst hqo
      rw [hself] at hi
      have hlinked : ((s.setObj q { s.obj q with physObj := some p }).obj q).physObj = some p := by
        rw [hself]
      rw [PhysState.seen_attached hlinked, ← h.seen q i hi]
      exact hbytes i hi
    · rw [hother q hqo] at hi
      rw [← h.seen q i hi]
      unfold PhysState.seen
      rw [hother q hqo]
      rfl
  · by_cases hqo : q = o
    · subst hqo
      rw [hself] at hq
      obtain rfl := Option.some.inj hq
      have hname := (h.named id p hid).1
      show s.physObjs (s.buffer p).id = some p
      rw [hname, hid]
    · rw [hother q hqo] at hq
      exact h.own q p' hq
  · by_cases hqo : q = o
    · subst hqo
      rw [hself] at hq ⊢
      obtain rfl := Option.some.inj hq
      exact hfits
    · rw [hother q hqo] at hq ⊢
      exact h.fits q p' hq
  · by_cases hqo : q = o
    · by_cases hqo' : q' = o
      · rw [hqo, hqo']
      · subst hqo
        rw [hself] at hq
        obtain rfl := Option.some.inj hq
        rw [hother q' hqo'] at hq'
        exact absurd hq' (halone q' hqo')
    · rw [hother q hqo] at hq
      by_cases hqo' : q' = o
      · subst hqo'
        rw [hself] at hq'
        obtain rfl := Option.some.inj hq'
        exact absurd hq (halone q hqo)
      · rw [hother q' hqo'] at hq'
        exact h.single q q' p' hq hq'

theorem PhysInv.linkTo (h : PhysInv v s) (hfree : (s.obj o).physObj = none)
    (hid : s.physObjs id = some p) (hfits : (s.obj o).size ≤ (s.buffer p).size)
    (halone : ∀ q ≠ o, (s.obj q).physObj ≠ some p)
    (hbytes : ∀ i < (s.obj o).size, (s.buffer p).bytes i = s.seen o i) (ret : ℤ) :
    PhysInv v (linkTo s o p ret).2 := by
  have hlink := (h.link hfree hid hfits halone hbytes).setCurObj (p := p) (some o)
  have hpages := hlink.getPages (o := o) ret
  unfold Phys.linkTo
  dsimp only
  split
  · exact hpages
  · refine (hpages.copyFromBuffer ?_).1
    rw [(getPages_obj _ o ret o).1]
    exact congrArg PhysObj.physObj PhysState.setObj_self

theorem PhysInv.attach (h : PhysInv v s) {x : AttachOutcome}
    (hguard : id ≤ maxPhysObject → s.attachedTo o id = false →
      ((s.obj o).physObj ≠ none → Saves s o x.detachPages) ∧ Prepared s o id x.alloc) :
    PhysInv v (attachPhysObject s o id x).2 := by
  unfold attachPhysObject
  split
  · exact h
  rename_i hmax
  split
  · exact h
  rename_i hatt
  rw [Bool.not_eq_true] at hatt
  obtain ⟨hsave, hprep⟩ := hguard (by omega) hatt
  obtain ⟨hinv, hdet⟩ := h.detach hsave
  generalize detachPhysObject s o x.detachPages = t at hinv hdet
  have hseen : ∀ i < (s.obj o).size, t.seen o i = s.seen o i := by
    intro i hi
    rw [hinv.seen o i (by rwa [hdet.size]), h.seen o i hi]
  unfold Prepared at hprep
  dsimp only
  cases hid : s.physObjs id with
  | some p =>
    rw [hid] at hprep
    obtain ⟨hfits, halone, hbytes⟩ := hprep
    have htid : t.physObjs id = some p := hdet.physObjs ▸ hid
    rw [initPhysObject_there htid]
    rw [htid]
    refine hinv.linkTo hdet.self htid ?_ (fun q hq => ?_) (fun i hi => ?_) x.attachPages
    · rw [hdet.size, hdet.bufferSize]
      exact hfits
    · rw [hdet.others q hq]
      exact halone q hq
    · rw [hdet.size] at hi
      rw [hdet.bytes, hseen i hi]
      exact hbytes i hi
  | none =>
    rw [hid] at hprep
    have htid : t.physObjs id = none := hdet.physObjs ▸ hid
    rw [initPhysObject_new htid (t.obj o).size_pos.ne']
    cases hx : x.alloc with
    | none =>
      exact hinv
    | some bytes =>
      rw [hx] at hprep
      have hnew := hinv.withBuffer htid bytes (t.obj o).size
      have hnewid : (t.withBuffer id (t.obj o).size bytes).physObjs id = some t.next :=
        Function.update_self ..
      have hbuffer : (t.withBuffer id (t.obj o).size bytes).buffer t.next =
          { id := id, size := (t.obj o).size, bytes := bytes } := Function.update_self ..
      rw [hnewid]
      refine hnew.linkTo hdet.self hnewid ?_ (fun q _ hq => ?_) (fun i hi => ?_) x.attachPages
      · rw [hbuffer]
        rfl
      · exact absurd (hinv.named _ _ (hinv.own q _ hq)).2 (lt_irrefl _)
      · have hi' : i < (s.obj o).size := by
          rw [← hdet.size]
          exact hi
        have hown : (t.withBuffer id (t.obj o).size bytes).seen o i = t.seen o i := by
          rw [PhysState.seen_detached hdet.self]
          exact congrFun (@PhysState.seen_detached (t.withBuffer id (t.obj o).size bytes) o
            hdet.self) i
        rw [hown, hbuffer, hseen i hi']
        exact hprep bytes rfl i hi'

/-! ### Writing -/

theorem overlay_congr {offset : ℕ} {data : List UInt8} {m m' : Contents} {i : ℕ} (h : m i = m' i) :
    overlay offset data m i = overlay offset data m' i := by
  unfold overlay
  rw [h]

/-- The contents of one object change, in its buffer or in its pages. -/
theorem PhysInv.pwrite (h : PhysInv v s) (o : ObjId) (offset size : ℕ) (data : List UInt8)
    (hin : ¬ ((s.obj o).size < offset ∨ (s.obj o).size - offset < size)) :
    PhysInv (Function.update v o (overlay offset (data.take size) (v o)))
      (Phys.pwrite s o offset size data).2 := by
  unfold Phys.pwrite
  rw [if_neg hin]
  dsimp only
  cases hp : (s.obj o).physObj with
  | some p =>
    have hlen : offset + size ≤ (s.buffer p).size := by
      have := h.fits o p hp
      omega
    have hacc := h.access hlen
    refine
      { seen := fun q i hi => ?_
        own := fun q p' hq => ?_
        fits := fun q p' hq => ?_
        single := h.single
        named := fun id p' hid => ?_
        inBounds := hacc.inBounds }
    · have hv := h.seen q i hi
      by_cases hqo : q = o
      · subst hqo
        have hp' : (((s.access p (offset + size)).setBuffer p { s.buffer p with
            bytes := overlay offset (data.take size) (s.buffer p).bytes }).obj q).physObj =
            some p := hp
        rw [PhysState.seen_attached hp] at hv
        rw [Function.update_self, PhysState.seen_attached hp', PhysState.setBuffer_self]
        exact overlay_congr hv
      · rw [Function.update_of_ne hqo, ← hv]
        unfold PhysState.seen
        rw [PhysState.setBuffer_obj, PhysState.access_obj]
        cases hq : (s.obj q).physObj with
        | none => rfl
        | some p' =>
          have hne : p' ≠ p := by
            rintro rfl
            exact hqo (h.single q o p' hq hp)
          dsimp only
          rw [PhysState.setBuffer_of_ne hne]
          rfl
    · by_cases hpp : p' = p
      · subst hpp
        rw [PhysState.setBuffer_self]
        exact h.own q p' hq
      · rw [PhysState.setBuffer_of_ne hpp]
        exact h.own q p' hq
    · by_cases hpp : p' = p
      · subst hpp
        rw [PhysState.setBuffer_self]
        exact h.fits q p' hq
      · rw [PhysState.setBuffer_of_ne hpp]
        exact h.fits q p' hq
    · by_cases hpp : p' = p
      · subst hpp
        rw [PhysState.setBuffer_self]
        exact h.named id p' hid
      · rw [PhysState.setBuffer_of_ne hpp]
        exact h.named id p' hid
  | none =>
    refine h.setPages rfl hp.symm (fun q hq => ?_) fun _ i hi => ?_
    · refine Function.update_of_ne ?_ ..
      rintro rfl
      rcases hq with hne | hatt
      · exact hne rfl
      · exact hatt hp
    · have hv := h.seen o i hi
      rw [PhysState.seen_detached hp] at hv
      rw [Function.update_self]
      exact overlay_congr hv

/-! ### Whole runs -/

theorem PhysInv.run {τ : Tracked} (h : PhysInv τ.view τ.st) {a : PhysCall}
    (hg : a.Unharmed τ.st) : PhysInv (a.show τ) (a.run τ.st) := by
  cases a with
  | attach o id x => exact h.attach hg
  | detach o ret => exact (h.detach hg).1
  | pwrite o offset size data =>
    unfold PhysCall.show PhysCall.run
    dsimp only
    by_cases hin : (τ.st.obj o).size < offset ∨ (τ.st.obj o).size - offset < size
    · rw [if_pos hin]
      unfold Phys.pwrite
      rw [if_pos hin]
      exact h
    · rw [if_neg hin]
      exact h.pwrite o offset size data hin
  | pageList o present => exact h.setObj rfl rfl fun _ _ _ => rfl

theorem physInv_init {τ : Tracked} (h : physSystem.init τ) : PhysInv τ.view τ.st := by
  obtain ⟨hnone, hfree, hover, hview⟩ := h
  exact
    { seen := fun o i _ => by rw [PhysState.seen_detached (hfree o), hview]
      own := fun o p hp => by rw [hfree o] at hp; cases hp
      fits := fun o p hp => by rw [hfree o] at hp; cases hp
      single := fun o q p hp => by rw [hfree o] at hp; cases hp
      named := fun id p hid => by rw [hnone] at hid; cases hid
      inBounds := hover }

/-- In a run that attaches objects to prepared buffers only, and can save what it detaches,
objects keep their contents. -/
theorem phys_contents_kept (τ : Tracked)
    (h : ReachWhile physSystem (fun τ a => a.Unharmed τ.st) τ) : Faithful τ := by
  have hinv : PhysInv τ.view τ.st := by
    refine h.invariant (I := fun τ => PhysInv τ.view τ.st) (fun _ => physInv_init) ?_
    rintro τ a τ' hI hg ⟨-, hst, hview⟩
    rw [hst, hview]
    exact hI.run hg
  exact ⟨hinv.seen, hinv.own, hinv.inBounds⟩

/-- A cursor image of one page. -/
def cursorImage : PhysObj where
  size := pageSize
  pages := fun _ => 7
  size_pos := by decide
  page_dvd := ⟨1, rfl⟩

def beforeCursor : Tracked where
  st :=
    { obj := fun _ => cursorImage
      physObjs := fun _ => none
      buffer := fun _ => {}
      next := 0 }
  view := fun _ _ => 7

/-- The state after the image is attached to I915_GEM_PHYS_CURSOR_0. -/
def afterCursor (bytes : Contents) : Tracked where
  st := (PhysCall.attach 0 1 { alloc := some bytes }).run beforeCursor.st
  view := beforeCursor.view

theorem afterCursor_reach {guard : Tracked → PhysCall → Prop} (bytes : Contents)
    (hg : guard beforeCursor (.attach 0 1 { alloc := some bytes })) :
    ReachWhile physSystem guard (afterCursor bytes) :=
  .step (a := .attach 0 1 { alloc := some bytes })
    (.init ⟨rfl, fun _ => rfl, rfl, fun _ => rfl⟩) hg ⟨le_rfl, rfl, rfl⟩

/-- The new buffer happens to hold the image. -/
theorem phys_contents_kept_cursor : Faithful (afterCursor fun _ => 7) := by
  refine phys_contents_kept _ (afterCursor_reach _ fun _ _ => ⟨fun h => absurd rfl h, ?_⟩)
  rintro bytes hbytes i _
  obtain rfl : (fun _ => 7) = bytes := Option.some.inj hbytes
  rfl

/-- The copy goes the wrong way: the object has the buffer's zeros in place of the image. -/
theorem phys_attach_loses_contents :
    ¬ ∀ τ : Tracked, Reach physSystem τ → Faithful τ := by
  intro h
  have hseen := (h _ (afterCursor_reach (fun _ => 0) trivial)).seen 0 0 (by decide)
  exact absurd hseen (by decide +kernel)

end GfxDrm.Phys
