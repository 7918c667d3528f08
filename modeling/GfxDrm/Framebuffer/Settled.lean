import GfxDrm.Framebuffer.Defs
import GfxDrm.Lib.Traced

/-! The memory, the id and the reference drm_mode_setcrtc takes for the time of the call. -/

namespace GfxDrm.Framebuffer
open Account Traced

/-- Memory goes by its address, which is none for NULL, and the size it is allocated or freed
with. -/
inductive Resource where
  | memory (p : Option ℕ) (size : ℕ)
  | id (id : ℕ)
  | reference (x : ℕ)
  deriving DecidableEq, Repr

/-- What kmem_alloc and kmem_zalloc return. -/
def kmemAlloc (p : Option ℕ) (size : ℕ) : Traced (Entry Resource) (Option ℕ) := do
  if p.isSome then emit (.take (.memory p size))
  pure p

/-- kmem_free; NULL counts as an allocation of no bytes. -/
def kmemFree (p : Option ℕ) (size : ℕ) : Traced (Entry Resource) Unit :=
  if p = none ∧ size = 0 then pure () else emit (.give (.memory p size))

/-- What drm_mode_setcrtc gets from outside: the driver's features, the memory for the mode and for
the connectors, the ids get_user reads, and what drm_mode_set_config_internal returns. -/
structure SetcrtcInput where
  modeset : Bool := true
  nmode : Option ℕ := none
  idrAlloc : Bool := true
  connectorSet : Option ℕ := none
  connectors : ℕ → Option ℕ := fun _ => none
  setConfig : ℤ := 0

/-- A mode that has been created. -/
structure CreatedMode where
  address : ℕ
  id : ℕ
  deriving DecidableEq, Repr

/-- The locals that `out` reads. -/
structure SetcrtcLocals where
  fb : Option ℕ := none
  mode : Option CreatedMode := none
  connectorSet : Option ℕ := none
  deriving DecidableEq, Repr

def sizeofDrmConnectorPtr : ℕ := 8

/-- The size of the array of connectors. -/
def DrmModeCrtc.connectorSetSize (r : DrmModeCrtc) : ℕ := r.countConnectors * sizeofDrmConnectorPtr

variable {nc np : ℕ} (sizeofMode : ℕ)

/-- drm_mode_create. -/
def FbState.modeCreate (s : FbState nc np) (i : SetcrtcInput) :
    Traced (Entry Resource) (Option CreatedMode × FbState nc np) := do
  match ← kmemAlloc i.nmode sizeofMode with
  | none => pure (none, s)
  | some address =>
    match idrGetNewAbove s.crtcIdr (some .other) 1 i.idrAlloc with
    | (.error _, idr) =>
      kmemFree (some address) sizeofMode
      pure (none, { s with crtcIdr := idr })
    | (.ok id, idr) =>
      emit (.take (.id id))
      pure (some { address, id }, { s with crtcIdr := idr })

/-- drm_mode_destroy. -/
def modeDestroy : Option CreatedMode → Traced (Entry Resource) Unit
  | none => pure ()
  | some mode => do
    emit (.give (.id mode.id))
    kmemFree (some mode.address) sizeofMode

/-- drm_mode_setcrtc from the test of `mode_valid` on. -/
def FbState.setcrtcMode (s : FbState nc np) (c : Fin nc) (r : DrmModeCrtc) (i : SetcrtcInput) :
    Traced (Entry Resource) (ℤ × SetcrtcLocals × FbState nc np) :=
  if !r.modeValid then pure (0, {}, s)
  else
    match s.setcrtcFb c r with
    | (none, s) => pure (Errno.eInval, {}, s)
    | (some x, s) => do
      emit (.take (.reference x))
      let (mode, s) ← s.modeCreate sizeofMode i
      let ret :=
        if mode.isNone then Errno.eNomem
        else if r.convertUmode ≠ 0 then r.convertUmode
        else if !viewportFits (s.fb x) r.hdisplay.toUInt32 r.vdisplay.toUInt32 r.x r.y
            (s.crtc c).invertDimensions then Errno.eNospc
        else 0
      pure (ret, { fb := some x, mode }, s)

/-- drm_mode_setcrtc from the test of `count_connectors` on. -/
def FbState.setcrtcConnectors (s : FbState nc np) (r : DrmModeCrtc) (i : SetcrtcInput)
    (locals : SetcrtcLocals) : Traced (Entry Resource) (ℤ × SetcrtcLocals) :=
  if r.countConnectors = 0 && locals.mode.isSome then pure (Errno.eInval, locals)
  else if r.countConnectors > 0 && (locals.mode.isNone || locals.fb.isNone) then
    pure (Errno.eInval, locals)
  else if r.countConnectors = 0 then pure (0, locals)
  else if r.countConnectors > s.numConnector then pure (Errno.eInval, locals)
  else do
    let connectorSet ← kmemAlloc i.connectorSet r.connectorSetSize
    let ret :=
      if connectorSet.isNone then Errno.eNomem
      else s.connectorSet { connectors := i.connectors } (List.range r.countConnectors)
    pure (ret, { locals with connectorSet })

/-- drm_mode_setcrtc from `out` on. -/
def setcrtcOut (r : DrmModeCrtc) (locals : SetcrtcLocals) : Traced (Entry Resource) Unit := do
  match locals.fb with
  | none => pure ()
  | some x => emit (.give (.reference x))
  kmemFree locals.connectorSet r.connectorSetSize
  modeDestroy sizeofMode locals.mode

/-- drm_mode_setcrtc between drm_mode_object_find and `out`. -/
def FbState.setcrtcBody (s : FbState nc np) (c : Fin nc) (r : DrmModeCrtc) (i : SetcrtcInput) :
    Traced (Entry Resource) (ℤ × SetcrtcLocals) := do
  let (ret, locals, s) ← s.setcrtcMode sizeofMode c r i
  if ret ≠ 0 then pure (ret, locals)
  else
    let (ret, locals) ← s.setcrtcConnectors r i locals
    pure (if ret ≠ 0 then ret else i.setConfig, locals)

/-- drm_mode_setcrtc. -/
def FbState.setcrtcResources (s : FbState nc np) (r : DrmModeCrtc) (i : SetcrtcInput) :
    Traced (Entry Resource) ℤ :=
  if !i.modeset then pure Errno.eInval
  else if r.x > intMax || r.y > intMax then pure Errno.eRange
  else do
    let (ret, locals) ←
      match s.objectFind r.crtcId with
      | some (.crtc c) => s.setcrtcBody sizeofMode c r i
      | _ => pure (Errno.eInval, {})
    setcrtcOut sizeofMode r locals
    pure ret

/-! What drm_mode_setcrtc holds at `out`, and whether it gives back just that. -/

variable {nc np : ℕ} (sizeofMode : ℕ) {s : FbState nc np} {r : DrmModeCrtc} {i : SetcrtcInput}
  {c : Fin nc} {m : Multiset Resource} {locals : SetcrtcLocals}

/-! ### Memory -/

theorem kmemAlloc_leads (p : Option ℕ) (size : ℕ) (m : Multiset Resource) :
    Leads (kmemAlloc p size) m (p.elim m fun _ => .memory p size ::ₘ m) := by
  cases p with
  | none => exact Leads.pure _ m
  | some address => exact (Leads.take _ m).bind (Leads.pure _ _)

@[simp] theorem kmemAlloc_val (p : Option ℕ) (size : ℕ) : (kmemAlloc p size).val = p := by
  cases p <;> rfl

theorem kmemFree_leads (address size : ℕ) (m : Multiset Resource) :
    Leads (kmemFree (some address) size) (.memory (some address) size ::ₘ m) m := by
  exact Leads.give _ m

/-! ### Up to `out` -/

/-- What belongs to a mode, on top of the rest. -/
def modeHeld (sizeofMode : ℕ) (mode : Option CreatedMode) (m : Multiset Resource) :
    Multiset Resource :=
  mode.elim m fun mode => .id mode.id ::ₘ .memory (some mode.address) sizeofMode ::ₘ m

/-- What is held with these locals, the last first. -/
def SetcrtcLocals.held (sizeofMode : ℕ) (r : DrmModeCrtc) (locals : SetcrtcLocals) :
    Multiset Resource :=
  let m := modeHeld sizeofMode locals.mode (locals.fb.elim 0 fun x => {.reference x})
  locals.connectorSet.elim m fun _ => .memory locals.connectorSet r.connectorSetSize ::ₘ m

theorem modeCreate_leads (s : FbState nc np) (i : SetcrtcInput) (m : Multiset Resource) :
    Leads (s.modeCreate sizeofMode i) m
      (modeHeld sizeofMode (s.modeCreate sizeofMode i).val.1 m) := by
  unfold FbState.modeCreate
  cases i.nmode with
  | none => exact (kmemAlloc_leads none sizeofMode m).bind (Leads.pure _ m)
  | some address =>
    refine (kmemAlloc_leads (some address) sizeofMode m).bind ?_
    cases idrGetNewAbove s.crtcIdr (some .other) 1 i.idrAlloc with
    | mk res idr =>
      cases res with
      | error e => exact (kmemFree_leads address sizeofMode m).bind (Leads.pure _ m)
      | ok id => exact (Leads.take (Resource.id id) _).bind (Leads.pure _ _)

/-- With a reference taken, and then with a mode. -/
theorem setcrtcMode_leads (s : FbState nc np) (c : Fin nc) (r : DrmModeCrtc) (i : SetcrtcInput) :
    Leads (s.setcrtcMode sizeofMode c r i) 0
      ((s.setcrtcMode sizeofMode c r i).val.2.1.held sizeofMode r) := by
  unfold FbState.setcrtcMode
  cases r.modeValid with
  | false => exact Leads.pure _ 0
  | true =>
    cases s.setcrtcFb c r with
    | mk fb s =>
      cases fb with
      | none => exact Leads.pure _ 0
      | some x =>
        refine (Leads.take (Resource.reference x) 0).bind ?_
        exact (modeCreate_leads sizeofMode s i _).bind (Leads.pure _ _)

theorem setcrtcMode_array (s : FbState nc np) (c : Fin nc) (r : DrmModeCrtc) (i : SetcrtcInput) :
    (s.setcrtcMode sizeofMode c r i).val.2.1.connectorSet = none := by
  unfold FbState.setcrtcMode
  cases r.modeValid with
  | false => rfl
  | true =>
    cases s.setcrtcFb c r with
    | mk fb s =>
      cases fb with
      | none => rfl
      | some x => rfl

theorem setcrtcConnectors_leads (harray : locals.connectorSet = none) :
    Leads (s.setcrtcConnectors r i locals) (locals.held sizeofMode r)
      ((s.setcrtcConnectors r i locals).val.2.held sizeofMode r) := by
  unfold FbState.setcrtcConnectors
  split
  · exact Leads.pure _ _
  split
  · exact Leads.pure _ _
  split
  · exact Leads.pure _ _
  split
  · exact Leads.pure _ _
  · have hheld : locals.held sizeofMode r =
        modeHeld sizeofMode locals.mode (locals.fb.elim 0 fun x => {.reference x}) := by
      rw [SetcrtcLocals.held, harray]
      rfl
    rw [hheld]
    refine (kmemAlloc_leads i.connectorSet r.connectorSetSize _).bind ?_
    simp only [kmemAlloc_val, val_bind]
    exact Leads.pure _ _

theorem setcrtcBody_leads (s : FbState nc np) (c : Fin nc) (r : DrmModeCrtc) (i : SetcrtcInput) :
    Leads (s.setcrtcBody sizeofMode c r i) 0
      ((s.setcrtcBody sizeofMode c r i).val.2.held sizeofMode r) := by
  unfold FbState.setcrtcBody
  have harray := setcrtcMode_array sizeofMode s c r i
  refine (setcrtcMode_leads sizeofMode s c r i).bind ?_
  rw [val_bind]
  generalize (s.setcrtcMode sizeofMode c r i).val = v at harray ⊢
  obtain ⟨ret, locals, s'⟩ := v
  by_cases hret : ret = 0
  · subst hret
    exact (setcrtcConnectors_leads sizeofMode harray).bind (Leads.pure _ _)
  · simp only [hret, ne_eq]
    exact Leads.pure _ _

/-! ### At `out` -/

theorem modeDestroy_leads (mode : Option CreatedMode) (m : Multiset Resource) :
    Leads (modeDestroy sizeofMode mode) (modeHeld sizeofMode mode m) m := by
  cases mode with
  | none => exact Leads.pure _ m
  | some mode => exact (Leads.give (Resource.id mode.id) _).bind (kmemFree_leads _ _ m)

theorem modeHeld_cons (mode : Option CreatedMode) (a : Resource) (m : Multiset Resource) :
    modeHeld sizeofMode mode (a ::ₘ m) = a ::ₘ modeHeld sizeofMode mode m := by
  cases mode with
  | none => rfl
  | some mode =>
    dsimp only [modeHeld, Option.elim_some]
    rw [Multiset.cons_swap _ a, Multiset.cons_swap _ a]

/-- What is held but for the reference. -/
def SetcrtcLocals.heldMemory (sizeofMode : ℕ) (r : DrmModeCrtc) (locals : SetcrtcLocals) :
    Multiset Resource :=
  locals.connectorSet.elim (modeHeld sizeofMode locals.mode 0) fun _ =>
    .memory locals.connectorSet r.connectorSetSize ::ₘ modeHeld sizeofMode locals.mode 0

theorem held_eq (r : DrmModeCrtc) (locals : SetcrtcLocals) :
    locals.held sizeofMode r =
      locals.fb.elim (locals.heldMemory sizeofMode r) fun x =>
        .reference x ::ₘ locals.heldMemory sizeofMode r := by
  unfold SetcrtcLocals.held SetcrtcLocals.heldMemory
  cases locals.fb with
  | none => rfl
  | some x =>
    dsimp only [Option.elim_some]
    rw [← Multiset.cons_zero, modeHeld_cons]
    cases locals.connectorSet with
    | none => rfl
    | some p => exact Multiset.cons_swap ..

theorem setcrtcOut_leads (r : DrmModeCrtc) (locals : SetcrtcLocals) :
    Leads (setcrtcOut sizeofMode r locals) (locals.held sizeofMode r) 0 ↔
      Leads (kmemFree locals.connectorSet r.connectorSetSize >>= fun _ =>
        modeDestroy sizeofMode locals.mode) (locals.heldMemory sizeofMode r) 0 := by
  rw [held_eq, setcrtcOut]
  cases locals.fb with
  | none => exact Iff.rfl
  | some x => exact (Leads.give (Resource.reference x) _).bind_iff

theorem memory_none_notMem (size : ℕ) (mode : Option CreatedMode) :
    .memory none size ∉ modeHeld sizeofMode mode 0 := by
  cases mode with
  | none => exact Multiset.notMem_zero _
  | some mode => simp [modeHeld]

/-- NULL, freed with a size, is not among what is held. -/
theorem setcrtcOut_leads_iff (r : DrmModeCrtc) (locals : SetcrtcLocals) :
    Leads (setcrtcOut sizeofMode r locals) (locals.held sizeofMode r) 0 ↔
      (locals.connectorSet = none → r.countConnectors = 0) := by
  rw [setcrtcOut_leads, SetcrtcLocals.heldMemory]
  have hdestroy := modeDestroy_leads sizeofMode locals.mode 0
  cases locals.connectorSet with
  | some p => exact iff_of_true ((kmemFree_leads p _ _).bind hdestroy) (by simp)
  | none =>
    by_cases hcount : r.countConnectors = 0
    · have hsize : r.connectorSetSize = 0 := by rw [DrmModeCrtc.connectorSetSize, hcount]; rfl
      rw [kmemFree, if_pos ⟨rfl, hsize⟩]
      exact iff_of_true hdestroy fun _ => hcount
    · have hsize : r.connectorSetSize ≠ 0 := Nat.mul_ne_zero hcount (by decide)
      rw [kmemFree, if_neg fun h => hsize h.2]
      exact iff_of_false (not_leads_give (memory_none_notMem _ _ _)) fun h => hcount (h rfl)

/-! ### Whether there is an array -/

/-- drm_mode_setcrtc gets a framebuffer and a mode for the crtc, and the mode fits. -/
structure FbState.ModeFits (s : FbState nc np) (c : Fin nc) (r : DrmModeCrtc)
    (i : SetcrtcInput) : Prop where
  modeValid : r.modeValid = true
  fb : ∃ x, (s.setcrtcFb c r).1 = some x ∧ viewportFits (s.fb x) r.hdisplay.toUInt32
    r.vdisplay.toUInt32 r.x r.y (s.crtc c).invertDimensions = true
  nmode : i.nmode.isSome = true
  id : ∃ id, (idrGetNewAbove s.crtcIdr (some .other) 1 i.idrAlloc).1 = .ok id
  convert : r.convertUmode = 0

/-- The array for the connectors is asked for and there is memory for it. -/
structure FbState.ArrayAllocated (s : FbState nc np) (r : DrmModeCrtc) (i : SetcrtcInput) :
    Prop where
  mode : ∃ c, s.objectFind r.crtcId = some (.crtc c) ∧ s.ModeFits c r i
  count : r.countConnectors ≤ s.numConnector
  memory : i.connectorSet.isSome = true

theorem setcrtcFb_refs (s : FbState nc np) (c : Fin nc) (r : DrmModeCrtc) :
    ∃ refs, (s.setcrtcFb c r).2 = { s with refs } := by
  unfold FbState.setcrtcFb FbState.framebufferLookup
  split
  · split
    · exact ⟨s.refs, rfl⟩
    · exact ⟨_, rfl⟩
  · split
    · exact ⟨s.refs, rfl⟩
    · exact ⟨_, rfl⟩

theorem modeCreate_isSome :
    (s.modeCreate sizeofMode i).val.1.isSome = true ↔ i.nmode.isSome = true ∧
      ∃ id, (idrGetNewAbove s.crtcIdr (some .other) 1 i.idrAlloc).1 = .ok id := by
  unfold FbState.modeCreate
  cases i.nmode with
  | none => simp
  | some address =>
    cases idrGetNewAbove s.crtcIdr (some .other) 1 i.idrAlloc with
    | mk res idr =>
      cases res with
      | error e => simp
      | ok id => simp

theorem modeCreate_idr : ∃ idr, (s.modeCreate sizeofMode i).val.2 = { s with crtcIdr := idr } := by
  unfold FbState.modeCreate
  cases i.nmode with
  | none => exact ⟨s.crtcIdr, rfl⟩
  | some address =>
    cases idrGetNewAbove s.crtcIdr (some .other) 1 i.idrAlloc with
    | mk res idr =>
      cases res with
      | error e => exact ⟨idr, rfl⟩
      | ok id => exact ⟨idr, rfl⟩

theorem setcrtcMode_fits (s : FbState nc np) (c : Fin nc) (r : DrmModeCrtc) (i : SetcrtcInput) :
    ((s.setcrtcMode sizeofMode c r i).val.1 = 0 ∧
      (s.setcrtcMode sizeofMode c r i).val.2.1.mode.isSome = true) ↔ s.ModeFits c r i := by
  unfold FbState.setcrtcMode
  cases hvalid : r.modeValid with
  | false => exact iff_of_false (by simp) fun h => by simp [h.modeValid] at hvalid
  | true =>
    obtain ⟨refs, hrefs⟩ := setcrtcFb_refs s c r
    cases hfb : s.setcrtcFb c r with
    | mk fb t =>
      rw [hfb] at hrefs
      cases hrefs
      cases fb with
      | none =>
        refine iff_of_false (by simp) fun h => ?_
        obtain ⟨x, hx, -⟩ := h.fb
        rw [hfb] at hx
        cases hx
      | some x =>
        obtain ⟨idr, hidr⟩ := modeCreate_idr sizeofMode
          (s := { s with refs := refs }) (i := i)
        have hsome := modeCreate_isSome sizeofMode
          (s := { s with refs := refs }) (i := i)
        simp only [Bool.not_true, Bool.false_eq_true, if_false, val_bind, val_pure]
        generalize (({ s with refs := refs } : FbState nc np).modeCreate sizeofMode i).val = v
          at hidr hsome ⊢
        obtain ⟨mode, t⟩ := v
        cases hidr
        constructor
        · rintro ⟨hret, hmode⟩
          obtain ⟨hnmode, hid⟩ := hsome.mp hmode
          rw [if_neg (by simp [Option.isSome_iff_ne_none.mp hmode])] at hret
          split at hret
          · rename_i hconvert
            exact absurd hret hconvert
          · rename_i hconvert
            split at hret
            · cases hret
            · rename_i hfits
              exact ⟨hvalid, ⟨x, by rw [hfb], by simpa using hfits⟩, hnmode, hid,
                not_not.mp hconvert⟩
        · rintro ⟨-, ⟨y, hy, hfits⟩, hnmode, hid, hconvert⟩
          have hmode := hsome.mpr ⟨hnmode, hid⟩
          rw [hfb] at hy
          cases hy
          rw [if_neg (by simp [Option.isSome_iff_ne_none.mp hmode]), if_neg (not_not.mpr hconvert)]
          exact ⟨by rw [hfits]; rfl, hmode⟩

theorem setcrtcMode_frame (s : FbState nc np) (c : Fin nc) (r : DrmModeCrtc) (i : SetcrtcInput) :
    (s.setcrtcMode sizeofMode c r i).val.2.2.numConnector = s.numConnector ∧
      ((s.setcrtcMode sizeofMode c r i).val.2.1.mode.isSome = true →
        (s.setcrtcMode sizeofMode c r i).val.2.1.fb.isSome = true) := by
  unfold FbState.setcrtcMode
  cases r.modeValid with
  | false => exact ⟨rfl, fun h => by cases h⟩
  | true =>
    obtain ⟨refs, hrefs⟩ := setcrtcFb_refs s c r
    cases hfb : s.setcrtcFb c r with
    | mk fb t =>
      rw [hfb] at hrefs
      cases hrefs
      cases fb with
      | none => exact ⟨rfl, fun h => by cases h⟩
      | some x =>
        obtain ⟨idr, hidr⟩ := modeCreate_idr sizeofMode
          (s := { s with refs := refs }) (i := i)
        simp only [Bool.not_true, Bool.false_eq_true, if_false, val_bind]
        rw [hidr]
        exact ⟨rfl, fun _ => rfl⟩

theorem setcrtcConnectors_array (hfb : locals.mode.isSome = true → locals.fb.isSome = true)
    (harray : locals.connectorSet = none) (hcount : r.countConnectors ≠ 0) :
    (s.setcrtcConnectors r i locals).val.2.connectorSet.isSome = true ↔
      locals.mode.isSome = true ∧ r.countConnectors ≤ s.numConnector ∧
        i.connectorSet.isSome = true := by
  have hpos : 0 < r.countConnectors := Nat.pos_of_ne_zero hcount
  unfold FbState.setcrtcConnectors
  rw [if_neg (by simp [hcount])]
  cases hmode : locals.mode with
  | none => simp [hpos, harray]
  | some mode =>
    have hsome := hfb (by rw [hmode]; rfl)
    rw [if_neg (by simp [Option.isSome_iff_ne_none.mp hsome]), if_neg hcount]
    split
    · rename_i hgt
      simp [harray, Nat.not_le.mpr hgt]
    · rename_i hle
      simp [Nat.not_lt.mp hle]

theorem setcrtcBody_array (s : FbState nc np) (c : Fin nc) (r : DrmModeCrtc) (i : SetcrtcInput)
    (hcount : r.countConnectors ≠ 0) :
    (s.setcrtcBody sizeofMode c r i).val.2.connectorSet.isSome = true ↔
      s.ModeFits c r i ∧ r.countConnectors ≤ s.numConnector ∧ i.connectorSet.isSome = true := by
  rw [← setcrtcMode_fits sizeofMode]
  have harray := setcrtcMode_array sizeofMode s c r i
  obtain ⟨hnum, hfb⟩ := setcrtcMode_frame sizeofMode s c r i
  unfold FbState.setcrtcBody
  rw [val_bind]
  generalize (s.setcrtcMode sizeofMode c r i).val = v at harray hnum hfb ⊢
  obtain ⟨ret, locals, t⟩ := v
  by_cases hret : ret = 0
  · subst hret
    have hconn := setcrtcConnectors_array (s := t) (i := i) hfb harray hcount
    rw [hnum] at hconn
    simpa using hconn
  · have hnone : locals.connectorSet = none := harray
    simp [hret, hnone]

theorem finish_settled_iff {x : Traced (Entry Resource) (ℤ × SetcrtcLocals)}
    (hx : Leads x 0 (x.val.2.held sizeofMode r)) :
    Settled (do
      let v ← x
      setcrtcOut sizeofMode r v.2
      pure v.1 : Traced (Entry Resource) ℤ).events ↔
      (x.val.2.connectorSet = none → r.countConnectors = 0) := by
  rw [← setcrtcOut_leads_iff sizeofMode]
  refine hx.bind_iff.trans ?_
  rw [Leads, Leads, events_bind]
  exact iff_of_eq (by rw [show (pure x.val.1 : Traced (Entry Resource) ℤ).events = [] from rfl,
    List.append_nil])

theorem arrayAllocated_iff (hfind : s.objectFind r.crtcId = some (.crtc c)) :
    s.ArrayAllocated r i ↔
      s.ModeFits c r i ∧ r.countConnectors ≤ s.numConnector ∧ i.connectorSet.isSome = true := by
  constructor
  · rintro ⟨⟨c', hc', hfits⟩, hcount, hmemory⟩
    rw [hfind] at hc'
    cases hc'
    exact ⟨hfits, hcount, hmemory⟩
  · rintro ⟨hfits, hcount, hmemory⟩
    exact ⟨⟨c, hfind, hfits⟩, hcount, hmemory⟩

/-- The account of drm_mode_setcrtc is settled unless it frees a NULL array with the size of the
connectors asked for. -/
theorem setcrtc_settled_iff (s : FbState nc np) (r : DrmModeCrtc)
    (i : SetcrtcInput) :
    Settled (s.setcrtcResources sizeofMode r i).events ↔
      i.modeset = false ∨ r.x > intMax ∨ r.y > intMax ∨ r.countConnectors = 0 ∨
        s.ArrayAllocated r i := by
  unfold FbState.setcrtcResources
  cases i.modeset with
  | false => exact iff_of_true rfl (Or.inl rfl)
  | true =>
    rw [if_neg (by simp)]
    by_cases hxy : r.x > intMax ∨ r.y > intMax
    · rw [if_pos (by simpa using hxy)]
      exact iff_of_true rfl (Or.inr (by tauto))
    rw [if_neg (by simpa using hxy)]
    have hcond : (true = false ∨ r.x > intMax ∨ r.y > intMax ∨ r.countConnectors = 0 ∨
        s.ArrayAllocated r i) ↔ r.countConnectors = 0 ∨ s.ArrayAllocated r i := by tauto
    rw [hcond]
    split
    · rename_i c hfind
      refine (finish_settled_iff sizeofMode (setcrtcBody_leads sizeofMode s c r i)).trans ?_
      by_cases hcount : r.countConnectors = 0
      · exact iff_of_true (fun _ => hcount) (Or.inl hcount)
      · rw [or_iff_right hcount, arrayAllocated_iff hfind,
          ← setcrtcBody_array sizeofMode s c r i hcount, Option.isSome_iff_ne_none]
        exact imp_congr_right fun _ => iff_of_false hcount id
    · rename_i hfind
      refine (finish_settled_iff sizeofMode
        (Leads.pure (Errno.eInval, ({} : SetcrtcLocals)) 0)).trans ?_
      refine ⟨fun h => Or.inl (h rfl), fun h _ => h.resolve_right fun harray => ?_⟩
      obtain ⟨c, hc, -⟩ := harray.mode
      exact hfind c hc

/-- A connector is asked for on a crtc there is not. -/
def unknownCrtc : DrmModeCrtc where
  crtcId := 7
  fbId := 0

theorem setcrtc_frees_null :
    ¬Settled (({} : FbState 1 1).setcrtcResources 128 unknownCrtc {}).events := by decide

end GfxDrm.Framebuffer
