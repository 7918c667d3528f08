import GfxDrm.Bios.Defs

/-! Which bytes the parsers of the video BIOS tables read. -/

namespace GfxDrm.Bios
open Traced GfxDrm.Span

section
variable (mem : ℤ → UInt8) (size : ℕ)

/-! ### The blocks of the BDB -/

/-- The distances from `bdb` of the block headers, from the one at `index` on. -/
def headersFrom (bdb : ℤ) (total index : ℕ) : List ℕ :=
  if index < total then
    index :: headersFrom bdb total (index + 3 + get16 mem (bdb + index + 1))
  else []
termination_by total - index

def headers (bdb : ℤ) : List ℕ := headersFrom mem bdb (get16 mem (bdb + 20)) (get16 mem (bdb + 18))

/-- The first block of that id. -/
def findBlock (bdb : ℤ) (sectionId : ℕ) : Option ℤ :=
  ((headers mem bdb).find? fun h : ℕ => get8 mem (bdb + h) = sectionId).map
    fun h : ℕ => bdb + h + 3

/-- The block headers up to the first one of that id lie in the image. -/
def HeadersFit (bdb : ℤ) (sectionId : ℕ) : Prop :=
  ∀ h ∈ headers mem bdb, (∀ h' ∈ headers mem bdb, h' < h → get8 mem (bdb + h') ≠ sectionId) →
    Inside size ⟨bdb + h, 3⟩

/-- They do, and a block of that id is as `k` says. -/
def BlockFits (bdb : ℤ) (sectionId : ℕ) (k : ℤ → Prop) : Prop :=
  HeadersFit mem size bdb sectionId ∧ ∀ p, findBlock mem bdb sectionId = some p → k p

def blockSize (p : ℤ) : ℕ := get16 mem (p - 2)

/-! ### What of each block must lie in the image -/

/-- Where the DVO timing of panel `i` is looked for. -/
def dvoTimingAt (lvdsLfpData ptrs : ℤ) (i : ℕ) : ℤ :=
  lvdsLfpData + ((get16 mem (ptrs + 13) : ℤ) - get16 mem (ptrs + 4)) * i +
    (get16 mem (ptrs + 4) - get16 mem (ptrs + 1))

/-- The fields compared: those before the first difference, and it. -/
def compared (a b : ℤ) : List Field → List Field
  | [] => []
  | f :: fs => f :: if f.get mem a = f.get mem b then compared a b fs else []

def SameSize (a b : ℤ) : Prop := ∀ f ∈ equalSizeFields, f.get mem a = f.get mem b

def DvoTimingFits (a b : ℤ) : Prop :=
  (∀ f ∈ compared mem a b equalSizeFields, Inside size ⟨a + f.off, 1⟩) ∧
    (SameSize mem a b → Inside size ⟨a, 2⟩)

def hactive (p : ℤ) : ℕ := 2 ^ 8 * hactiveHi.get mem p + hactiveLo.get mem p
def vactive (p : ℤ) : ℕ := 2 ^ 8 * vactiveHi.get mem p + vactiveLo.get mem p

/-- The flat panel timing of the panel, where its offset lies within the block. -/
def FpTimingFits (bdb lvdsLfpData ptrs panel : ℤ) (type : ℕ) : Prop :=
  type < 16 → Inside size ⟨ptrs + 1 + 9 * type, 2⟩ ∧
    let ofs := get16 mem (ptrs + 1 + 9 * type)
    (lvdsLfpData ≤ bdb + ofs →
      bdb + ofs + fpTimingSize ≤ lvdsLfpData + blockSize mem lvdsLfpData →
        Inside size ⟨bdb + ofs, 2⟩ ∧ (get16 mem (bdb + ofs) = hactive mem panel →
          Inside size ⟨bdb + ofs + 2, 2⟩ ∧ (get16 mem (bdb + ofs + 2) = vactive mem panel →
            Inside size ⟨bdb + ofs + 8, 4⟩)))

/-- The pointers to the LVDS data, the timing of the panel, and what of the sixteen timings is
compared with it. -/
def LfpTimingsFit (env : Env) (bdb : ℤ) (type : ℕ) (lvdsLfpData ptrs : ℤ) : Prop :=
  Inside size ⟨ptrs + 1, 14⟩ ∧
    (env.kzallocLfp →
      let panel := dvoTimingAt mem lvdsLfpData ptrs type
      Inside size ⟨panel, dvoTimingSize⟩ ∧
        (∀ i < 16, DvoTimingFits mem size (dvoTimingAt mem lvdsLfpData ptrs i) panel) ∧
          FpTimingFits mem size bdb lvdsLfpData ptrs panel type)

def LfpPanelFits (env : Env) (bdb : ℤ) : Prop :=
  BlockFits mem size bdb bdbLvdsOptions fun options => Inside size ⟨options, 3⟩ ∧
    (get8 mem options ≠ 0xff → BlockFits mem size bdb bdbLvdsLfpData fun lvdsLfpData =>
      BlockFits mem size bdb bdbLvdsLfpDataPtrs fun ptrs =>
        LfpTimingsFit mem size env bdb (get8 mem options) lvdsLfpData ptrs)

/-- The panel type of the LVDS options, where they have one. -/
def panelTypeAfter (bdb : ℤ) (panelType : ℕ) : ℕ :=
  match findBlock mem bdb bdbLvdsOptions with
  | none => panelType
  | some options => if get8 mem options = 0xff then panelType else get8 mem options

def SdvoDtdFits (env : Env) (bdb index : ℤ) : Prop :=
  BlockFits mem size bdb bdbSdvoPanelDtds fun dtds =>
    env.kzallocSdvo → Inside size ⟨dtds + dvoTimingSize * index, dvoTimingSize⟩

def SdvoPanelFits (env : Env) (bdb : ℤ) : Prop :=
  (env.i915VbtSdvoPanelType = -1 → BlockFits mem size bdb bdbSdvoLvdsOptions fun options =>
    Inside size ⟨options + 2, 1⟩ ∧ SdvoDtdFits mem size env bdb (get8 mem (options + 2))) ∧
  (env.i915VbtSdvoPanelType ≠ -1 → env.i915VbtSdvoPanelType ≠ -2 →
    SdvoDtdFits mem size env bdb env.i915VbtSdvoPanelType)

def deviceType (defs : ℤ) (i : ℕ) : ℕ := get16 mem (childDevice defs i + 2)
def dvoPort (defs : ℤ) (i : ℕ) : ℕ := get8 mem (childDevice defs i + 16)

def HasSdvoAddr (defs : ℤ) (i : ℕ) : Prop :=
  get8 mem (childDevice defs i + 18) = slaveAddr1 ∨ get8 mem (childDevice defs i + 18) = slaveAddr2

def HasSdvoPort (defs : ℤ) (i : ℕ) : Prop :=
  dvoPort mem defs i = devicePortDvob ∨ dvoPort mem defs i = devicePortDvoc

instance (defs : ℤ) (i : ℕ) : Decidable (HasSdvoAddr mem defs i) :=
  inferInstanceAs (Decidable (_ ∨ _))

instance (defs : ℤ) (i : ℕ) : Decidable (HasSdvoPort mem defs i) :=
  inferInstanceAs (Decidable (_ ∨ _))

def IsSdvo (defs : ℤ) (i : ℕ) : Prop :=
  deviceType mem defs i ≠ 0 ∧ HasSdvoAddr mem defs i ∧ HasSdvoPort mem defs i

/-- Child device `i` as parse_sdvo_device_mapping reads it: to the end of its wiring if it is
the first on its port, where `mapped` are the ports mapped before. -/
def SdvoChildFits (mapped : ℕ → Bool) (defs : ℤ) (i : ℕ) : Prop :=
  Inside size ⟨childDevice defs i + 2, 2⟩ ∧
    (deviceType mem defs i ≠ 0 → Inside size ⟨childDevice defs i + 18, 1⟩ ∧
      (HasSdvoAddr mem defs i → Inside size ⟨childDevice defs i + 16, 1⟩)) ∧
    (IsSdvo mem defs i → Inside size ⟨childDevice defs i + 25, 1⟩ ∧
      (¬ mapped (dvoPort mem defs i) →
        (∀ j < i, IsSdvo mem defs j → dvoPort mem defs j ≠ dvoPort mem defs i) →
          Inside size ⟨childDevice defs i + 28, 1⟩))

/-- Child device `i` as parse_device_mapping reads it. -/
def ChildFits (env : Env) (defs : ℤ) (i : ℕ) : Prop :=
  Inside size ⟨childDevice defs i + 2, 2⟩ ∧ (deviceType mem defs i ≠ 0 → env.kcallocChild →
    Inside size ⟨childDevice defs i, childDeviceSize⟩)

/-- The general definitions hold their own header, and each of their child devices is as `k`
says. -/
def ChildDevicesFit (bdb : ℤ) (k : ℤ → ℕ → Prop) : Prop :=
  BlockFits mem size bdb bdbGeneralDefinitions fun defs => Inside size ⟨defs + 4, 1⟩ ∧
    (get8 mem (defs + 4) = childDeviceSize → generalDefinitionsSize ≤ blockSize mem defs ∧
      ∀ i < (blockSize mem defs - generalDefinitionsSize) / childDeviceSize, k defs i)

/-- The panel is one of sixteen, and its power sequence and link parameters lie in the image. -/
def EdpFits (panelType : ℕ) (edp : ℤ) : Prop :=
  panelType < 16 ∧ Inside size ⟨edp + 10 * panelType, 10⟩ ∧
    Inside size ⟨edp + 164 + 2 * panelType, 2⟩

end

/-- What a BDB at `bdb` must be for the parsers to stay in the image. -/
structure BdbFits (mem : ℤ → UInt8) (size : ℕ) (env : Env) (s : DrmI915Private) (bdb : ℤ) :
    Prop where
  header : Inside size ⟨bdb + 18, 4⟩
  generalFeatures : BlockFits mem size bdb bdbGeneralFeatures fun p => Inside size ⟨p + 1, 4⟩
  generalDefinitions : BlockFits mem size bdb bdbGeneralDefinitions fun p =>
    generalDefinitionsSize ≤ blockSize mem p → Inside size ⟨p, 1⟩
  lfpPanel : LfpPanelFits mem size env bdb
  sdvoPanel : SdvoPanelFits mem size env bdb
  sdvoDevices : ChildDevicesFit mem size bdb
    (SdvoChildFits mem size fun port => (s.sdvoMappings (port - 1)).initialized)
  devices : ChildDevicesFit mem size bdb (ChildFits mem size env)
  driverFeatures : BlockFits mem size bdb bdbDriverFeatures fun p => Inside size ⟨p + 7, 2⟩
  edp : BlockFits mem size bdb bdbEdp (EdpFits size (panelTypeAfter mem bdb s.panelType))

/-- The image, if it has a signature, has the VBT header and such a BDB. -/
def BiosFits (env : Env) (rom : Rom) (s : DrmI915Private) : Prop :=
  ∀ i : ℕ, i + 4 < rom.size → IsVbtSignature rom.mem i → (∀ j < i, ¬IsVbtSignature rom.mem j) →
    Inside rom.size ⟨i + 28, 4⟩ ∧
      BdbFits rom.mem rom.size env s (i + get32 rom.mem (i + 28))

section
variable {mem : ℤ → UInt8} {size : ℕ} {a b p bdb : ℤ} {f : Field} {sectionId total index : ℕ}

@[simp] theorem always_u8 : Always (Event.Ok size) (u8 mem a) ↔ Inside size ⟨a, 1⟩ := by
  simp [u8, Event.Ok]

@[simp] theorem always_u16 : Always (Event.Ok size) (u16 mem a) ↔ Inside size ⟨a, 2⟩ := by
  simp [u16, Event.Ok]

@[simp] theorem always_u32 : Always (Event.Ok size) (u32 mem a) ↔ Inside size ⟨a, 4⟩ := by
  simp [u32, Event.Ok]

@[simp] theorem always_field :
    Always (Event.Ok size) (f.read mem p) ↔ Inside size ⟨p + f.off, 1⟩ := by
  simp [Field.read]

@[simp] theorem val_u8 : (u8 mem a).val = get8 mem a := by simp [u8]
@[simp] theorem val_u16 : (u16 mem a).val = get16 mem a := by simp [u16]
@[simp] theorem val_field : (f.read mem p).val = f.get mem p := by
  simp [Field.read, Field.get]

/-! ### find_section -/

theorem le_of_mem_headersFrom {h : ℕ} (hh : h ∈ headersFrom mem bdb total index) : index ≤ h := by
  fun_induction headersFrom mem bdb total index with
  | case1 index hlt ih =>
    rcases List.mem_cons.mp hh with rfl | hh
    · exact Nat.le_refl _
    · have := ih hh
      omega
  | case2 index hlt => exact absurd hh List.not_mem_nil

theorem sorted_headersFrom : (headersFrom mem bdb total index).Pairwise (· < ·) := by
  fun_induction headersFrom mem bdb total index with
  | case1 index hlt ih =>
    refine List.pairwise_cons.mpr ⟨fun h hh => ?_, ih⟩
    have := le_of_mem_headersFrom hh
    omega
  | case2 index hlt => exact List.Pairwise.nil

theorem val_findSectionFrom :
    (findSectionFrom mem bdb sectionId total index).val =
      ((headersFrom mem bdb total index).find? fun h : ℕ => get8 mem (bdb + h) = sectionId).map
        fun h : ℕ => bdb + h + 3 := by
  fun_induction headersFrom mem bdb total index with
  | case1 index hlt ih =>
    rw [findSectionFrom, if_pos hlt]
    by_cases hid : get8 mem (bdb + index) = sectionId
    · simp [hid]
    · simpa [hid] using ih
  | case2 index hlt =>
    rw [findSectionFrom, if_neg hlt]
    rfl

theorem always_findSectionFrom :
    Always (Event.Ok size) (findSectionFrom mem bdb sectionId total index) ↔
      ∀ h ∈ headersFrom mem bdb total index,
        (∀ h' ∈ headersFrom mem bdb total index, h' < h → get8 mem (bdb + h') ≠ sectionId) →
          Inside size ⟨bdb + h, 3⟩ := by
  fun_induction headersFrom mem bdb total index with
  | case1 index hlt ih =>
    have hle {h : ℕ}
        (hh : h ∈ headersFrom mem bdb total (index + 3 + get16 mem (bdb + index + 1))) :=
      le_of_mem_headersFrom hh
    rw [findSectionFrom, if_pos hlt]
    have hfirst : Inside size ⟨bdb + index, 1⟩ ∧ Inside size ⟨bdb + index + 1, 2⟩ ↔
        Inside size ⟨bdb + index, 3⟩ := by
      simp only [Inside]
      omega
    simp only [always_bind, always_ite, always_u8, always_u16, val_u8, val_u16,
      List.forall_mem_cons]
    rw [← and_assoc, hfirst]
    apply and_congr
    · refine ⟨fun h _ => h, fun h => h ⟨fun hlt => absurd hlt (Nat.lt_irrefl _), ?_⟩⟩
      intro h' hh' hlt
      have := hle hh'
      omega
    · by_cases hid : get8 mem (bdb + index) = sectionId
      · refine ⟨fun _ h hh hbefore => ?_, fun _ => ⟨fun _ => always_pure _, absurd hid⟩⟩
        have := hle hh
        exact absurd hid (hbefore.1 (by omega))
      · simp [hid, ih]
  | case2 index hlt =>
    rw [findSectionFrom, if_neg hlt]
    simp

theorem val_findSection : (findSection mem bdb sectionId).val = findBlock mem bdb sectionId :=
  val_findSectionFrom

theorem always_findSection : Always (Event.Ok size) (findSection mem bdb sectionId) ↔
    Inside size ⟨bdb + 18, 4⟩ ∧ HeadersFit mem size bdb sectionId := by
  simp only [findSection, always_bind, always_u16, always_findSectionFrom,
    ← and_assoc]
  apply and_congr_left
  intro _
  simp only [Inside]
  omega

/-- A block that has been found has its header in the image. -/
theorem HeadersFit.header {p : ℤ} (h : HeadersFit mem size bdb sectionId)
    (hp : findBlock mem bdb sectionId = some p) : Inside size ⟨p - 3, 3⟩ := by
  obtain ⟨hd, hfind, rfl⟩ := Option.map_eq_some_iff.mp hp
  obtain ⟨_, before, after, heq, hbefore⟩ := List.find?_eq_some_iff_append.mp hfind
  have hsorted : (headers mem bdb).Pairwise (· < ·) := sorted_headersFrom
  rw [heq] at hsorted
  have hin : Inside size ⟨bdb + hd, 3⟩ := by
    apply h hd (heq ▸ List.mem_append_right _ List.mem_cons_self)
    intro hd' hd'mem hlt
    rw [heq, List.mem_append, List.mem_cons] at hd'mem
    obtain hd'mem | rfl | hd'mem := hd'mem
    · simpa using hbefore hd' hd'mem
    · exact absurd hlt (Nat.lt_irrefl _)
    · have := (List.pairwise_cons.mp (List.pairwise_append.mp hsorted).2.1).1 hd' hd'mem
      omega
  simpa using hin

variable {k : ℤ → Parse DrmI915Private}

theorem always_withSection {s : DrmI915Private} {K : ℤ → Prop} (hbdb : Inside size ⟨bdb + 18, 4⟩)
    (hk : ∀ p, findBlock mem bdb sectionId = some p → Inside size ⟨p - 3, 3⟩ →
      (Always (Event.Ok size) (k p) ↔ K p)) :
    Always (Event.Ok size) (withSection mem bdb s sectionId k) ↔
      BlockFits mem size bdb sectionId K := by
  simp only [withSection, always_bind, always_findSection, val_findSection, hbdb,
    true_and]
  apply and_congr_right
  intro hfit
  cases hfind : findBlock mem bdb sectionId with
  | none => simp
  | some p => simp [hk p hfind (hfit.header hfind)]

/-! ### The panel timings -/

theorem always_fillDetailTimingData :
    Always (Event.Ok size) (fillDetailTimingData mem p) ↔ Inside size ⟨p, dvoTimingSize⟩ := by
  simp only [fillDetailTimingData, always_bind, always_field, always_u16, always_pure, Inside,
    hactiveHi, hactiveLo, hsyncOffHi, hsyncOffLo, hsyncPulseWidth, hblankHi, hblankLo, vactiveHi,
    vactiveLo, vsyncOff, vsyncPulseWidth, vblankHi, vblankLo, hsyncPositive, vsyncPositive,
    dvoTimingSize, and_true]
  omega

theorem val_equalFields {fs : List Field} :
    (equalFields mem a b fs).val = true ↔ ∀ f ∈ fs, f.get mem a = f.get mem b := by
  induction fs with
  | nil => simp [equalFields]
  | cons f fs ih =>
    simp only [equalFields]
    by_cases h : f.get mem a = f.get mem b <;> simp [h, ih]

theorem always_equalFields {fs : List Field} (hb : ∀ f ∈ fs, Inside size ⟨b + f.off, 1⟩) :
    Always (Event.Ok size) (equalFields mem a b fs) ↔
      ∀ f ∈ compared mem a b fs, Inside size ⟨a + f.off, 1⟩ := by
  induction fs with
  | nil => simp [equalFields, compared]
  | cons f fs ih =>
    rw [List.forall_mem_cons] at hb
    simp only [equalFields, compared, always_bind, always_field, hb.1]
    by_cases h : f.get mem a = f.get mem b <;> simp [h, ih hb.2]

variable {env : Env} {s : DrmI915Private} {lvdsLfpData ptrs panel : ℤ} {type i downclock : ℕ}

@[simp] theorem val_getLvdsDvoTiming {index : ℕ} :
    (getLvdsDvoTiming mem lvdsLfpData ptrs index).val =
      dvoTimingAt mem lvdsLfpData ptrs index := rfl

theorem always_getLvdsDvoTiming {index : ℕ} :
    Always (Event.Ok size) (getLvdsDvoTiming mem lvdsLfpData ptrs index) ↔
      Inside size ⟨ptrs + 1, 14⟩ := by
  simp only [getLvdsDvoTiming, always_bind, always_u16, always_pure, Inside, and_true]
  omega

theorem always_downclockRound (hptrs : Inside size ⟨ptrs + 1, 14⟩)
    (hpanel : Inside size ⟨panel, dvoTimingSize⟩) :
    Always (Event.Ok size) (downclockRound mem lvdsLfpData ptrs panel i downclock) ↔
      DvoTimingFits mem size (dvoTimingAt mem lvdsLfpData ptrs i) panel := by
  have hb : ∀ f ∈ equalSizeFields, Inside size ⟨panel + f.off, 1⟩ := by
    intro f hf
    have : f.off < dvoTimingSize := by
      revert f
      decide
    simp only [Inside] at hpanel ⊢
    omega
  simp only [downclockRound, always_bind, always_ite, always_getLvdsDvoTiming, hptrs, true_and,
    lvdsDvoTimingEqualSize, always_equalFields hb, val_equalFields, val_getLvdsDvoTiming,
    always_u16, always_pure, DvoTimingFits, SameSize, and_true, implies_true]

theorem always_getLvdsFpTiming (hdata : Inside size ⟨lvdsLfpData - 3, 3⟩) :
    Always (Event.Ok size) (getLvdsFpTiming mem bdb lvdsLfpData ptrs type) ↔
      (type < 16 → Inside size ⟨ptrs + 1 + 9 * type, 2⟩) := by
  have hsize : Inside size ⟨lvdsLfpData - 2, 2⟩ := by
    simp only [Inside] at hdata ⊢
    omega
  simp only [getLvdsFpTiming, always_bind, always_ite, always_u16, always_pure, hsize, true_and,
    and_true, implies_true, Nat.not_le]

theorem val_getLvdsFpTiming : (getLvdsFpTiming mem bdb lvdsLfpData ptrs type).val =
    let ofs := get16 mem (ptrs + 1 + 9 * type)
    if type < 16 ∧ lvdsLfpData ≤ bdb + ofs ∧
        bdb + ofs + fpTimingSize ≤ lvdsLfpData + blockSize mem lvdsLfpData then some (bdb + ofs)
      else none := by
  simp only [getLvdsFpTiming, val_bind, blockSize]
  by_cases htype : type < 16
  · rw [if_neg (Nat.not_le.mpr htype)]
    simp only [val_bind, val_u16, htype, true_and]
    split_ifs <;> first | rfl | omega
  · rw [if_pos (Nat.not_lt.mp htype)]
    exact (if_neg fun h => htype h.1).symm

theorem always_fpTiming {mode : DrmDisplayMode} {val : ℕ}
    (hdata : Inside size ⟨lvdsLfpData - 3, 3⟩) (hx : mode.hdisplay = hactive mem panel)
    (hy : mode.vdisplay = vactive mem panel) :
    Always (Event.Ok size) (getLvdsFpTiming mem bdb lvdsLfpData ptrs type) ∧
      Always (Event.Ok size)
        (fpLvdsVal mem (getLvdsFpTiming mem bdb lvdsLfpData ptrs type).val mode val) ↔
      FpTimingFits mem size bdb lvdsLfpData ptrs panel type := by
  rw [always_getLvdsFpTiming hdata, val_getLvdsFpTiming]
  simp only [FpTimingFits]
  by_cases htype : type < 16
  · simp only [htype, true_and, forall_const]
    apply and_congr_right
    intro _
    split_ifs with hin
    · simp only [fpLvdsVal, always_bind, always_ite, always_u16, always_u32, always_pure, hin.1,
        hin.2, forall_const, implies_true, and_true, val_u16, hx, hy]
    · refine ⟨fun _ hlo hhi => absurd ⟨hlo, hhi⟩ hin, fun _ => always_pure _⟩
  · simp [htype, fpLvdsVal]

theorem always_parseLfpTimings (hdata : Inside size ⟨lvdsLfpData - 3, 3⟩) :
    Always (Event.Ok size) (parseLfpTimings mem env bdb s type lvdsLfpData ptrs) ↔
      LfpTimingsFit mem size env bdb type lvdsLfpData ptrs := by
  simp only [parseLfpTimings, always_bind, always_ite, always_getLvdsDvoTiming]
  apply and_congr_right
  intro hptrs
  simp only [always_pure, implies_true, and_true, val_getLvdsDvoTiming]
  apply imp_congr_right
  intro _
  rw [always_fillDetailTimingData]
  apply and_congr_right
  intro hpanel
  have hclock : Inside size ⟨dvoTimingAt mem lvdsLfpData ptrs type, 2⟩ := by
    simp only [Inside, dvoTimingSize] at hpanel ⊢
    omega
  simp only [always_u16, hclock, true_and, always_loop, always_downclockRound hptrs hpanel]
  apply and_congr_right
  intro _
  exact always_fpTiming hdata rfl rfl

/-! ### One parser after the other -/

section
variable (hbdb : Inside size ⟨bdb + 18, 4⟩)
include hbdb

theorem always_parseGeneralFeatures :
    Always (Event.Ok size) (parseGeneralFeatures mem env bdb s) ↔
      BlockFits mem size bdb bdbGeneralFeatures fun p => Inside size ⟨p + 1, 4⟩ := by
  apply always_withSection hbdb
  intro p _ _
  simp only [always_bind, always_field, always_pure, Inside, and_true]
  omega

theorem always_parseGeneralDefinitions :
    Always (Event.Ok size) (parseGeneralDefinitions mem bdb s) ↔
      BlockFits mem size bdb bdbGeneralDefinitions fun p =>
        generalDefinitionsSize ≤ blockSize mem p → Inside size ⟨p, 1⟩ := by
  apply always_withSection hbdb
  intro p _ hp
  have hsize : Inside size ⟨p - 2, 2⟩ := by
    simp only [Inside] at hp ⊢
    omega
  simp only [getBlocksize, always_bind, always_ite, always_u16, always_u8, always_pure, val_u16,
    hsize, blockSize, true_and, and_true, implies_true]

theorem always_parseLfpPanelData :
    Always (Event.Ok size) (parseLfpPanelData mem env bdb s) ↔ LfpPanelFits mem size env bdb := by
  apply always_withSection hbdb
  intro options _ _
  have hoptions : Inside size ⟨options + (2 : ℕ), 1⟩ ∧ Inside size ⟨options, 1⟩ ↔
      Inside size ⟨options, 3⟩ := by
    simp only [Inside]
    omega
  simp only [always_bind, always_ite, always_field, always_u8, always_pure, implies_true,
    true_and, ← and_assoc, hoptions]
  apply and_congr_right
  intro _
  apply imp_congr_right
  intro _
  apply always_withSection hbdb
  intro lvdsLfpData _ hdata
  apply always_withSection hbdb
  intro ptrs _ _
  exact always_parseLfpTimings hdata

theorem always_parseSdvoDtd {index : ℤ} :
    Always (Event.Ok size) (parseSdvoDtd mem env bdb s index) ↔
      SdvoDtdFits mem size env bdb index := by
  apply always_withSection hbdb
  intro dtds _ _
  simp only [always_ite, always_bind, always_fillDetailTimingData, always_pure, and_true,
    implies_true]

theorem always_parseSdvoPanelData :
    Always (Event.Ok size) (parseSdvoPanelData mem env bdb s) ↔
      SdvoPanelFits mem size env bdb := by
  simp only [parseSdvoPanelData, SdvoPanelFits, always_ite, always_pure, implies_true, true_and,
    always_parseSdvoDtd hbdb]
  by_cases hnone : env.i915VbtSdvoPanelType = -2
  · simp [hnone]
  · rw [forall_prop_of_true hnone]
    apply and_congr
    · apply imp_congr_right
      intro _
      apply always_withSection hbdb
      intro options _ _
      simp only [always_bind, always_u8, val_u8, always_parseSdvoDtd hbdb]
    · exact ⟨fun h hne _ => h hne, fun h hne => h hne hnone⟩

/-! ### The child devices -/

omit hbdb in
theorem get16_lt : get16 mem a < 2 ^ 16 := by
  have h1 : get8 mem a < 2 ^ 8 := (mem a).toNat_lt
  have h2 : get8 mem (a + 1) < 2 ^ 8 := (mem (a + 1)).toNat_lt
  rw [get16]
  omega

omit hbdb in
theorem val_childDeviceNum {n : ℕ} (hle : generalDefinitionsSize ≤ n) (hlt : n < 2 ^ 16) :
    (childDeviceNum n).val.toNat = (n - generalDefinitionsSize) / childDeviceSize := by
  have hmod : (n + 2 ^ 64 - generalDefinitionsSize) % 2 ^ 64 = n - generalDefinitionsSize := by
    simp only [generalDefinitionsSize] at hle ⊢
    omega
  have hdiv : (n - generalDefinitionsSize) / childDeviceSize < 2 ^ 31 := by
    simp only [generalDefinitionsSize, childDeviceSize]
    omega
  simp only [childDeviceNum, val_bind, val_pure, hmod]
  generalize (n - generalDefinitionsSize) / childDeviceSize = num at hdiv ⊢
  rw [Int.bmod_eq_of_le (by omega) (by omega), Int.toNat_natCast]

omit hbdb in
theorem always_childDeviceNum {n : ℕ} :
    Always (Event.Ok size) (childDeviceNum n) ↔ generalDefinitionsSize ≤ n := by
  simp only [childDeviceNum, always_bind, always_emit, always_pure, and_true, Event.Ok]

theorem always_withChildDevices {k : ℤ → ℕ → Parse DrmI915Private} {K : ℤ → ℕ → Prop}
    (hk : ∀ defs num, Always (Event.Ok size) (k defs num) ↔ ∀ i < num, K defs i) :
    Always (Event.Ok size) (withChildDevices mem bdb s k) ↔ ChildDevicesFit mem size bdb K := by
  apply always_withSection hbdb
  intro defs _ hdefs
  have hsize : Inside size ⟨defs - 2, 2⟩ := by
    simp only [Inside] at hdefs ⊢
    omega
  simp only [always_bind, always_ite, always_u8, always_pure, implies_true, true_and, getBlocksize, always_u16, hsize, hk, not_not, always_childDeviceNum]
  apply and_congr_right
  intro _
  apply imp_congr_right
  intro _
  apply and_congr_right
  intro hle
  rw [val_childDeviceNum hle get16_lt]
  rfl

variable {defs : ℤ} {mappings : ℕ → SdvoDeviceMapping}

omit hbdb in
theorem not_hasSdvoAddr : (get8 mem (childDevice defs i + 18) ≠ slaveAddr1 ∧
    get8 mem (childDevice defs i + 18) ≠ slaveAddr2) ↔ ¬HasSdvoAddr mem defs i := not_or.symm

omit hbdb in
theorem not_hasSdvoPort : (get8 mem (childDevice defs i + 16) ≠ devicePortDvob ∧
    get8 mem (childDevice defs i + 16) ≠ devicePortDvoc) ↔ ¬HasSdvoPort mem defs i := not_or.symm

omit hbdb in
/-- A round maps the port of an SDVO device. -/
theorem initialized_sdvoRound {k : ℕ} :
    ((sdvoRound mem defs i mappings).val k).initialized = true ↔
      (mappings k).initialized = true ∨ IsSdvo mem defs i ∧ dvoPort mem defs i - 1 = k := by
  simp only [sdvoRound, val_bind, val_ite, val_pure, val_u16, val_u8, not_hasSdvoAddr,
    not_hasSdvoPort]
  by_cases htype : get16 mem (childDevice defs i + 2) = 0
  · simp [htype, IsSdvo, deviceType]
  · by_cases haddr : HasSdvoAddr mem defs i
    · by_cases hport : HasSdvoPort mem defs i
      · simp only [htype, haddr, hport, IsSdvo, deviceType, not_true_eq_false, ne_eq,
          not_false_eq_true, if_false, true_and]
        split_ifs with hinit
        · refine ⟨Or.inl, fun h => h.elim id ?_⟩
          rintro rfl
          exact hinit
        · rw [dvoPort]
          by_cases hk : get8 mem (childDevice defs i + 16) - 1 = k
          · subst hk
            simp
          · simp [Function.update_of_ne (Ne.symm hk), hk]
      · simp [htype, haddr, hport, IsSdvo]
    · simp [htype, haddr, IsSdvo]

omit hbdb in
theorem always_sdvoRound :
    Always (Event.Ok size) (sdvoRound mem defs i mappings) ↔
      Inside size ⟨childDevice defs i + 2, 2⟩ ∧
      (deviceType mem defs i ≠ 0 → Inside size ⟨childDevice defs i + 18, 1⟩ ∧
        (HasSdvoAddr mem defs i → Inside size ⟨childDevice defs i + 16, 1⟩)) ∧
      (IsSdvo mem defs i → Inside size ⟨childDevice defs i + 25, 1⟩ ∧
        (¬ (mappings (dvoPort mem defs i - 1)).initialized →
          Inside size ⟨childDevice defs i + 28, 1⟩)) := by
  simp only [sdvoRound, always_bind, always_ite, val_u16, val_u8, always_u16, always_u8,
    always_pure, not_hasSdvoAddr, not_hasSdvoPort]
  apply and_congr_right
  intro hdevice
  -- the pins lie before the wiring
  have hwiring : Inside size ⟨childDevice defs i + 28, 1⟩ ∧
      Inside size ⟨childDevice defs i + 19, 1⟩ ∧ Inside size ⟨childDevice defs i + 17, 1⟩ ∧
        Inside size ⟨childDevice defs i + 25, 1⟩ ↔
      Inside size ⟨childDevice defs i + 25, 1⟩ ∧ Inside size ⟨childDevice defs i + 28, 1⟩ := by
    simp only [Inside] at hdevice ⊢
    omega
  simp only [IsSdvo, deviceType, dvoPort]
  by_cases htype : get16 mem (childDevice defs i + 2) = 0
  · simp [htype]
  · by_cases haddr : HasSdvoAddr mem defs i
    · by_cases hport : HasSdvoPort mem defs i
      · by_cases hinit : (mappings (get8 mem (childDevice defs i + 16) - 1)).initialized = true
        · simp [htype, haddr, hport, hinit, and_assoc]
        · simp [htype, haddr, hport, hinit, and_assoc, hwiring]
      · simp [htype, haddr, hport]
    · simp [htype, haddr]

omit hbdb in
theorem initialized_loop {n k : ℕ} :
    ((loop (sdvoRound mem defs) n mappings).val k).initialized = true ↔
      (mappings k).initialized = true ∨
        ∃ j < n, IsSdvo mem defs j ∧ dvoPort mem defs j - 1 = k := by
  induction n with
  | zero => simp [loop]
  | succ n ih =>
    rw [loop, val_bind, initialized_sdvoRound, ih, or_assoc]
    simp only [Nat.lt_succ_iff_lt_or_eq, or_and_right, exists_or, exists_eq_left]

omit hbdb in
/-- Ports are told apart by their mappings. -/
theorem IsSdvo.port_eq_iff {j : ℕ} (hi : IsSdvo mem defs i) (hj : IsSdvo mem defs j) :
    dvoPort mem defs j - 1 = dvoPort mem defs i - 1 ↔
      dvoPort mem defs j = dvoPort mem defs i := by
  obtain ⟨-, -, hi⟩ := hi
  obtain ⟨-, -, hj⟩ := hj
  simp only [HasSdvoPort, devicePortDvob, devicePortDvoc] at hi hj
  omega

theorem always_parseSdvoDeviceMapping :
    Always (Event.Ok size) (parseSdvoDeviceMapping mem bdb s) ↔ ChildDevicesFit mem size bdb
      (SdvoChildFits mem size fun port => (s.sdvoMappings (port - 1)).initialized) := by
  apply always_withChildDevices hbdb
  intro defs num
  simp only [always_bind, always_pure, and_true, always_loop, always_sdvoRound]
  refine forall₂_congr fun i _ => and_congr_right fun _ => and_congr_right fun _ =>
    imp_congr_right fun hi => and_congr_right fun _ => ?_
  rw [initialized_loop, not_or, and_imp]
  apply imp_congr_right
  intro _
  have hbefore : (¬∃ j < i, IsSdvo mem defs j ∧ dvoPort mem defs j - 1 = dvoPort mem defs i - 1) ↔
      ∀ j < i, IsSdvo mem defs j → dvoPort mem defs j ≠ dvoPort mem defs i := by
    simp only [not_exists, not_and]
    exact forall₃_congr fun j _ hj => not_congr (hi.port_eq_iff hj)
  rw [hbefore]

omit hbdb in
theorem count_eq_zero {n : ℕ} :
    (loop (countRound mem defs) n 0).val = 0 ↔ ∀ j < n, deviceType mem defs j = 0 := by
  induction n with
  | zero => simp [loop]
  | succ n ih =>
    simp only [loop, val_bind, countRound, val_pure, val_u16, Nat.lt_succ_iff_lt_or_eq, or_imp,
      forall_and, forall_eq]
    split_ifs with htype
    · exact ih.trans (and_iff_left htype).symm
    · exact ⟨fun h => h.elim, fun h => absurd h.2 htype⟩

theorem always_parseDeviceMapping :
    Always (Event.Ok size) (parseDeviceMapping mem env bdb s) ↔
      ChildDevicesFit mem size bdb (ChildFits mem size env) := by
  apply always_withChildDevices hbdb
  intro defs num
  have hcount (n count : ℕ) : Always (Event.Ok size) (countRound mem defs n count) ↔
      Inside size ⟨childDevice defs n + 2, 2⟩ := by
    simp [countRound]
  have hcopy (n : ℕ) (l : List (List ℕ)) : Always (Event.Ok size) (copyRound mem defs n l) ↔
      Inside size ⟨childDevice defs n + 2, 2⟩ ∧ (deviceType mem defs n ≠ 0 →
        Inside size ⟨childDevice defs n, childDeviceSize⟩) := by
    simp [copyRound, copy, always_ite, deviceType, Event.Ok]
  simp only [always_bind, always_ite, always_loop, hcount, hcopy, always_pure, count_eq_zero,
    ChildFits, forall_and, and_true, implies_true, true_and]
  apply and_congr_right
  intro htypes
  by_cases hnone : ∀ i < num, deviceType mem defs i = 0
  · simp +contextual [hnone]
  · simp only [hnone, not_false_eq_true, forall_const]
    exact ⟨fun h i hi htype halloc => h.2 halloc i hi htype,
      fun h => ⟨fun _ => htypes, fun halloc i hi htype => h i hi htype halloc⟩⟩

theorem always_parseDriverFeatures :
    Always (Event.Ok size) (parseDriverFeatures mem env bdb s) ↔
      BlockFits mem size bdb bdbDriverFeatures fun p => Inside size ⟨p + 7, 2⟩ := by
  apply always_withSection hbdb
  intro p _ _
  simp only [always_bind, always_ite]
  by_cases hedp : env.supportsEdp = true <;> simp [hedp]

theorem always_parseEdp :
    Always (Event.Ok size) (parseEdp mem bdb s) ↔
      BlockFits mem size bdb bdbEdp (EdpFits size s.panelType) := by
  apply always_withSection hbdb
  intro p _ _
  simp only [always_bind, always_u32, shiftRight32, always_emit, always_pure, readEdpPowerSeq,
    always_field, and_true, Event.Ok, Inside, EdpFits]
  omega

end

/-! ### What the parsers leave to the later ones -/

theorem withSection_induct {Q : DrmI915Private → Prop} (hs : Q s)
    (hk : ∀ p, findBlock mem bdb sectionId = some p → Q (k p).val) :
    Q (withSection mem bdb s sectionId k).val := by
  simp only [withSection, val_bind, val_findSection]
  cases hfind : findBlock mem bdb sectionId with
  | none => exact hs
  | some p => exact hk p hfind

/-- The SDVO mappings and the panel type are as they were. -/
def Keeps (s s' : DrmI915Private) : Prop :=
  s'.sdvoMappings = s.sdvoMappings ∧ s'.panelType = s.panelType

theorem Keeps.refl : Keeps s s := ⟨rfl, rfl⟩

theorem Keeps.trans {s' s'' : DrmI915Private} (h : Keeps s s') (h' : Keeps s' s'') : Keeps s s'' :=
  ⟨h'.1.trans h.1, h'.2.trans h.2⟩

theorem keeps_parseGeneralFeatures : Keeps s (parseGeneralFeatures mem env bdb s).val :=
  withSection_induct .refl fun _ _ => ⟨rfl, rfl⟩

theorem keeps_parseGeneralDefinitions : Keeps s (parseGeneralDefinitions mem bdb s).val := by
  apply withSection_induct .refl
  intro p _
  simp only [val_bind, val_ite]
  split_ifs <;> exact ⟨rfl, rfl⟩

theorem keeps_parseLfpTimings :
    Keeps s (parseLfpTimings mem env bdb s type lvdsLfpData ptrs).val := by
  simp only [parseLfpTimings, val_bind, val_ite]
  split_ifs <;> exact ⟨rfl, rfl⟩

theorem parseLfpPanelData_val :
    (parseLfpPanelData mem env bdb s).val.sdvoMappings = s.sdvoMappings ∧
      (parseLfpPanelData mem env bdb s).val.panelType = panelTypeAfter mem bdb s.panelType := by
  simp only [parseLfpPanelData, withSection, val_bind, val_findSection, panelTypeAfter]
  cases hfind : findBlock mem bdb bdbLvdsOptions with
  | none => exact ⟨rfl, rfl⟩
  | some options =>
    simp only [val_bind, val_u8]
    split_ifs
    · exact ⟨rfl, rfl⟩
    · have htimings (s : DrmI915Private) : Keeps s (withSection mem bdb s bdbLvdsLfpData fun data =>
          withSection mem bdb s bdbLvdsLfpDataPtrs fun ptrs =>
            parseLfpTimings mem env bdb s (get8 mem options) data ptrs).val :=
        withSection_induct .refl fun _ _ => withSection_induct .refl fun _ _ =>
          keeps_parseLfpTimings
      exact htimings _

theorem keeps_parseSdvoPanelData : Keeps s (parseSdvoPanelData mem env bdb s).val := by
  have hdtd (index : ℤ) : Keeps s (parseSdvoDtd mem env bdb s index).val := by
    apply withSection_induct .refl
    intro p _
    split_ifs <;> exact ⟨rfl, rfl⟩
  simp only [parseSdvoPanelData]
  split_ifs
  · exact .refl
  · exact withSection_induct .refl fun _ _ => hdtd _
  · exact hdtd _

theorem withChildDevices_induct {k : ℤ → ℕ → Parse DrmI915Private} {Q : DrmI915Private → Prop}
    (hs : Q s) (hk : ∀ defs num, Q (k defs num).val) : Q (withChildDevices mem bdb s k).val := by
  apply withSection_induct hs
  intro defs _
  simp only [val_bind]
  split_ifs
  · exact hs
  · exact hk defs _

theorem panelType_parseSdvoDeviceMapping :
    (parseSdvoDeviceMapping mem bdb s).val.panelType = s.panelType :=
  withChildDevices_induct (Q := fun s' => s'.panelType = s.panelType) rfl fun _ _ => rfl

theorem panelType_parseDeviceMapping :
    (parseDeviceMapping mem env bdb s).val.panelType = s.panelType := by
  apply withChildDevices_induct (Q := fun s' => s'.panelType = s.panelType) rfl
  intro defs num
  simp only [val_bind]
  split_ifs <;> rfl

theorem panelType_parseDriverFeatures :
    (parseDriverFeatures mem env bdb s).val.panelType = s.panelType := by
  apply withSection_induct (Q := fun s' => s'.panelType = s.panelType) rfl
  intro p _
  split_ifs <;> rfl

/-! ### The whole -/

theorem header_of_always_withSection
    (h : Always (Event.Ok size) (withSection mem bdb s sectionId k)) :
    Inside size ⟨bdb + 18, 4⟩ := by
  simp only [withSection, always_bind, always_findSection] at h
  exact h.1.1

theorem always_parseBdb :
    Always (Event.Ok size) (parseBdb mem env bdb s) ↔ BdbFits mem size env s bdb := by
  by_cases hbdb : Inside size ⟨bdb + 18, 4⟩
  · have hlfp (s' : DrmI915Private) (h : Keeps s s') :
        (parseLfpPanelData mem env bdb s').val.sdvoMappings = s.sdvoMappings ∧
          (parseLfpPanelData mem env bdb s').val.panelType =
            panelTypeAfter mem bdb s.panelType := by
      obtain ⟨hmappings, hpanel⟩ := @parseLfpPanelData_val mem bdb env s'
      exact ⟨hmappings.trans h.1, by rw [hpanel, h.2]⟩
    have hbefore : Keeps s (parseGeneralDefinitions mem bdb
        (parseGeneralFeatures mem env bdb s).val).val :=
      keeps_parseGeneralFeatures.trans keeps_parseGeneralDefinitions
    have hmappings := (@keeps_parseSdvoPanelData mem bdb env _).1.trans (hlfp _ hbefore).1
    simp only [parseBdb, always_bind, always_parseGeneralFeatures hbdb,
      always_parseGeneralDefinitions hbdb, always_parseLfpPanelData hbdb,
      always_parseSdvoPanelData hbdb, always_parseSdvoDeviceMapping hbdb,
      always_parseDeviceMapping hbdb, always_parseDriverFeatures hbdb, always_parseEdp hbdb,
      panelType_parseDriverFeatures, panelType_parseDeviceMapping,
      panelType_parseSdvoDeviceMapping, keeps_parseSdvoPanelData.2, (hlfp _ hbefore).2, hmappings]
    constructor
    · rintro ⟨h1, h2, h3, h4, h5, h6, h7, h8⟩
      exact ⟨hbdb, h1, h2, h3, h4, h5, h6, h7, h8⟩
    · intro h
      exact ⟨h.generalFeatures, h.generalDefinitions, h.lfpPanel, h.sdvoPanel, h.sdvoDevices,
        h.devices, h.driverFeatures, h.edp⟩
  · refine ⟨fun h => absurd ?_ hbdb, fun h => absurd h.header hbdb⟩
    exact header_of_always_withSection (always_bind.mp h).1

theorem BdbFits.congr {s' : DrmI915Private} (h : BdbFits mem size env s bdb) (hs : Keeps s s') :
    BdbFits mem size env s' bdb := by
  obtain ⟨hmappings, hpanel⟩ := hs
  refine { h with sdvoDevices := ?_, edp := ?_ }
  · rw [hmappings]
    exact h.sdvoDevices
  · rw [hpanel]
    exact h.edp

/-- The search for the signature stays in the image. -/
theorem always_scour {n i : ℕ} (h : i + n + 3 < size ∨ n = 0) :
    Always (Event.Ok size) (scour mem n i) := by
  induction n generalizing i with
  | zero => exact always_pure _
  | succ n ih =>
    simp only [scour, always_bind, always_emit, always_ite, always_pure, Event.Ok, Inside]
    exact ⟨by omega, fun _ => trivial, fun _ => ih (by omega)⟩

theorem scour_eq_some {n i k : ℕ} : (scour mem n i).val = some k ↔
    i ≤ k ∧ k < i + n ∧ IsVbtSignature mem k ∧ ∀ j, i ≤ j → j < k → ¬IsVbtSignature mem j := by
  induction n generalizing i with
  | zero =>
    simp only [scour, val_pure, reduceCtorEq, false_iff]
    omega
  | succ n ih =>
    simp only [scour, val_bind]
    split_ifs with hsig
    · constructor
      · rintro ⟨⟩
        exact ⟨Nat.le_refl _, by omega, hsig, fun j hle hlt => by omega⟩
      · rintro ⟨hle, -, -, hfirst⟩
        by_contra hne
        exact hfirst i (Nat.le_refl _) (by simp at hne; omega) hsig
    · rw [ih]
      constructor
      · rintro ⟨hle, hlt, hk, hfirst⟩
        refine ⟨by omega, by omega, hk, fun j hle hlt => ?_⟩
        obtain rfl | hne := eq_or_ne j i
        · exact hsig
        · exact hfirst j (by omega) hlt
      · rintro ⟨hle, hlt, hk, hfirst⟩
        have hne : i ≠ k := fun h => hsig (h ▸ hk)
        exact ⟨by omega, by omega, hk, fun j hle hlt => hfirst j (by omega) hlt⟩

/-- The parsers stay in the image, and take no loop bound below zero and no shift beyond the
width, just when the image holds what they go by. -/
theorem vbt_reads_inside (env : Env) (rom : Rom) (s : DrmI915Private) :
    Always (Event.Ok rom.size) (intelParseBios env (some rom) s) ↔
      (env.hasPchNop = false → BiosFits env rom s) := by
  have hfound (i : ℕ) : (scour rom.mem (rom.size - 4) 0).val = some i ↔
      i + 4 < rom.size ∧ IsVbtSignature rom.mem i ∧ ∀ j < i, ¬IsVbtSignature rom.mem j := by
    rw [scour_eq_some]
    simp only [Nat.zero_le, true_and, forall_const]
    exact and_congr_left fun _ => by omega
  have hscour : Always (Event.Ok rom.size) (scour rom.mem (rom.size - 4) 0) :=
    always_scour (by omega)
  simp only [intelParseBios, always_ite, always_pure, implies_true, true_and,
    Bool.not_eq_true, always_bind, hscour]
  apply imp_congr_right
  intro _
  cases hi : (scour rom.mem (rom.size - 4) 0).val with
  | none =>
    refine ⟨fun _ i hlt hsig hfirst => ?_, fun _ => always_pure _⟩
    rw [(hfound i).mpr ⟨hlt, hsig, hfirst⟩] at hi
    cases hi
  | some i =>
    obtain ⟨hlt, hsig, hfirst⟩ := (hfound i).mp hi
    simp only [always_bind, always_u32, always_parseBdb, always_pure, and_true]
    constructor
    · intro h k hlt' hsig' hfirst'
      have hk := (hfound k).mpr ⟨hlt', hsig', hfirst'⟩
      obtain rfl := Option.some.inj (hi.symm.trans hk)
      exact ⟨h.1, h.2.congr .refl⟩
    · intro h
      obtain ⟨hoffset, hbdb⟩ := h i hlt hsig hfirst
      exact ⟨hoffset, hbdb.congr .refl⟩

/-- A BDB at the end of the image, of one block, the general features, whose header is the last
thing in it. -/
def cutRom : Rom where
  mem a := if a = 0 then 0x24 else if a = 1 then 0x56 else if a = 2 then 0x42
    else if a = 3 then 0x54
    -- bdb_offset
    else if a = 28 then 0xe7 else if a = 29 then 0xff else if a = 30 then 0x01
    -- header_size and bdb_size, and the id of the block
    else if a = 0x1fff9 then 22 else if a = 0x1fffb then 25 else if a = 0x1fffd then 1 else 0
  size := 0x20000

theorem cutRom_headers : headers cutRom.mem 0x1ffe7 = [22] := by
  have hsize : get16 cutRom.mem (0x1ffe7 + 18) = 22 := by decide
  rw [headers, hsize, headersFrom, if_pos (by decide), headersFrom,
    if_neg (by decide)]

theorem vbt_reads_past_end :
    ¬Always (Event.Ok cutRom.size) (intelParseBios {} (some cutRom) {}) := by
  intro h
  have hscour : (scour cutRom.mem (cutRom.size - 4) 0).val = some 0 := by
    rw [scour_eq_some]
    exact ⟨Nat.le_refl _, by decide, by decide, fun j _ hj => absurd hj (Nat.not_lt_zero j)⟩
  simp only [intelParseBios, Bool.false_eq_true, if_false, always_bind, hscour] at h
  obtain ⟨-, -, hbdb, -⟩ := h
  have hblock : findBlock cutRom.mem 0x1ffe7 bdbGeneralFeatures = some 0x20000 := by
    rw [findBlock, cutRom_headers]
    rfl
  rw [always_parseBdb] at hbdb
  have hinside := hbdb.generalFeatures.2 0x20000 hblock
  revert hinside
  decide

end

end GfxDrm.Bios
