import GfxDrm.Edid.Cea
import Mathlib.Data.List.Pairwise

/-! Which bytes the parsers of the extension blocks touch. -/

namespace GfxDrm.Edid
open Traced GfxDrm.Span

/-- Two spans have no byte in common. -/
def Apart (s t : Span) : Prop := s.off + s.len ≤ t.off ∨ t.off + t.len ≤ s.off

def CeaEvent.dataBlock? : CeaEvent → Option Span
  | .dataBlock _ s => some s
  | _ => none

/-- The data blocks that are visited. -/
def dataBlocks {α : Type} (m : CeaParse α) : List Span := m.events.filterMap CeaEvent.dataBlock?

/-- All is in bounds, and the data blocks visited are apart from each other and few. -/
structure Careful {α : Type} (m : CeaParse α) : Prop where
  ok : Always CeaEvent.Ok m
  apart : (dataBlocks m).Pairwise Apart
  few : (dataBlocks m).length < blockLength

/-- A callback reads bytes of its timing only. -/
def Within {σ : Type} (cb : DetailedCb σ) : Prop :=
  ∀ block t s, ∀ e ∈ (cb block t s).events, ∃ k len : ℕ, e = .read block ⟨(t + k : ℕ), len⟩ ∧
    k + len ≤ 18

/-- What is read of the extension blocks of an EDID. -/
structure ExtensionsRead (raw : ℕ → UInt8) : Prop where
  timings : ∀ {σ : Type} (cb : DetailedCb σ) (s : σ), Within cb →
    Always CeaEvent.Ok (drmForEachDetailedBlock raw cb s)
  modes : ∀ duplicate, Careful (addCeaModes raw duplicate)
  eld : ∀ c, Careful (drmEdidToEld raw c)
  sads : ∀ kcalloc, Careful (drmEdidToSad raw kcalloc)
  hdmi : Careful (drmDetectHdmiMonitor raw)
  audio : Careful (drmDetectMonitorAudio raw)
  quant : Careful (drmRgbQuantRangeSelectable raw)

/-- The detailed timings of every CEA extension block start at byte 4 or behind it. -/
def TimingsBehindHeader (raw : ℕ → UInt8) : Prop :=
  ∀ block, 1 ≤ block → block ≤ (raw 0x7e).toNat → byteAt raw block 0 = ceaExt →
    4 ≤ (byteAt raw block 2).toNat

/-- In bounds, and no data block. -/
def CeaEvent.Quiet (e : CeaEvent) : Prop := e.Ok ∧ e.dataBlock? = none

section
variable {raw : ℕ → UInt8} {σ α β : Type} {P : CeaEvent → Prop} {block i n : ℕ} {s : σ}

/-! ### Data blocks apart -/

theorem dataBlocks_bind (m : CeaParse α) (f : α → CeaParse β) :
    dataBlocks (m >>= f) = dataBlocks m ++ dataBlocks (f m.val) := by
  rw [dataBlocks, events_bind, List.filterMap_append]
  rfl

variable {m : CeaParse α}

theorem dataBlocks_of_quiet (h : Always CeaEvent.Quiet m) : dataBlocks m = [] :=
  List.filterMap_eq_nil_iff.mpr fun e he => (h e he).2

theorem ok_of_quiet (h : Always CeaEvent.Quiet m) : Always CeaEvent.Ok m :=
  fun e he => (h e he).1

theorem Careful.of_quiet (h : Always CeaEvent.Quiet m) : Careful m := by
  have hnone := dataBlocks_of_quiet h
  refine ⟨ok_of_quiet h, ?_, ?_⟩
  · rw [hnone]
    exact List.Pairwise.nil
  · rw [hnone]
    decide

theorem Careful.bind_quiet {f : α → CeaParse β} (hm : Always CeaEvent.Quiet m)
    (hf : Careful (f m.val)) : Careful (m >>= f) := by
  have hblocks : dataBlocks (m >>= f) = dataBlocks (f m.val) := by
    rw [dataBlocks_bind, dataBlocks_of_quiet hm, List.nil_append]
  refine ⟨always_bind.mpr ⟨ok_of_quiet hm, hf.ok⟩, ?_, ?_⟩
  · rw [hblocks]
    exact hf.apart
  · rw [hblocks]
    exact hf.few

theorem Careful.quiet_bind {f : α → CeaParse β} (hm : Careful m)
    (hf : Always CeaEvent.Quiet (f m.val)) : Careful (m >>= f) := by
  have hblocks : dataBlocks (m >>= f) = dataBlocks m := by
    rw [dataBlocks_bind, dataBlocks_of_quiet hf, List.append_nil]
  refine ⟨always_bind.mpr ⟨hm.ok, ok_of_quiet hf⟩, ?_, ?_⟩
  · rw [hblocks]
    exact hm.apart
  · rw [hblocks]
    exact hm.few

/-! ### Single accesses -/

theorem quiet_read {len : ℕ} : CeaEvent.Quiet (.read block ⟨i, len⟩) ↔ i + len ≤ 128 := by
  simp only [CeaEvent.Quiet, CeaEvent.Ok, CeaEvent.dataBlock?, Inside, blockLength, and_true]
  omega

theorem quiet_eld {len : ℕ} : CeaEvent.Quiet (.eld ⟨i, len⟩) ↔ i + len ≤ 128 := by
  simp only [CeaEvent.Quiet, CeaEvent.Ok, CeaEvent.dataBlock?, Inside, maxEldBytes, and_true]
  omega

@[simp] theorem u8_val : (u8 raw block i).val = byteAt raw block i := rfl

@[simp] theorem quiet_u8 : Always CeaEvent.Quiet (u8 raw block i) ↔ i < 128 := by
  rw [u8, always_bind, always_emit, quiet_read]
  simp only [always_pure, and_true]
  omega

@[simp] theorem quiet_setEld {v : UInt8} {c : CeaConnector} :
    Always CeaEvent.Quiet (setEld i v c) ↔ i < 128 := by
  rw [setEld, always_bind, always_emit, quiet_eld]
  simp only [always_pure, and_true]
  omega

theorem ceaDbPayloadLen_le : ceaDbPayloadLen raw block i ≤ 31 := by
  exact Nat.and_le_right

/-! ### The loop over the data blocks -/

variable {body : ℕ → σ → CeaParse (Bool × σ)}

/-- What holds of every data block that is met holds of the loop. -/
theorem always_forEachCeaDb {stop : ℕ} (hread : ∀ i < stop, P (.read block ⟨i, 1⟩))
    (hblock : ∀ i, i + ceaDbPayloadLen raw block i < stop →
      P (.dataBlock block ⟨i, ceaDbPayloadLen raw block i + 1⟩))
    (hbody : ∀ i s, i + ceaDbPayloadLen raw block i < stop → Always P (body i s)) :
    Always P (forEachCeaDb raw block stop body i s) := by
  fun_induction forEachCeaDb raw block stop body i s with
  | case1 i s hlt ih =>
    refine always_bind.mpr ⟨always_emit.mpr (hread i hlt), ?_⟩
    by_cases hfits : i + ceaDbPayloadLen raw block i < stop
    · rw [if_pos hfits]
      refine always_bind.mpr ⟨always_emit.mpr (hblock i hfits), ?_⟩
      refine always_bind.mpr ⟨hbody i s hfits, ?_⟩
      rw [always_ite]
      exact ⟨fun _ => ih hfits _, fun _ => always_pure _⟩
    · rw [if_neg hfits]
      exact always_pure _
  | case2 => exact always_pure _

/-- The data blocks met lie one behind the other, from `i` on. -/
theorem dataBlocks_forEachCeaDb {stop : ℕ} (hbody : ∀ i s, i + ceaDbPayloadLen raw block i < stop →
      Always CeaEvent.Quiet (body i s)) :
    (dataBlocks (forEachCeaDb raw block stop body i s)).Pairwise Apart ∧
      (∀ b ∈ dataBlocks (forEachCeaDb raw block stop body i s), (i : ℤ) ≤ b.off) ∧
      (dataBlocks (forEachCeaDb raw block stop body i s)).length ≤ stop - i := by
  have hread : ∀ i, dataBlocks (emit (CeaEvent.read block ⟨i, 1⟩)) = [] := fun i => rfl
  have hvisit : ∀ i len, dataBlocks (emit (CeaEvent.dataBlock block ⟨i, len⟩)) = [⟨i, len⟩] :=
    fun i len => rfl
  have hpure : ∀ s : σ, dataBlocks (pure s : CeaParse σ) = [] := fun s => rfl
  fun_induction forEachCeaDb raw block stop body i s with
  | case1 i s hlt ih =>
    by_cases hfits : i + ceaDbPayloadLen raw block i < stop
    · -- the block at `i` is followed by those of the rest of the loop, which start behind it
      rw [if_pos hfits, dataBlocks_bind, hread, List.nil_append, dataBlocks_bind, hvisit,
        dataBlocks_bind, dataBlocks_of_quiet (hbody i s hfits), List.nil_append]
      split
      · obtain ⟨hapart, hbehind, hlen⟩ := ih hfits (body i s).val
        refine ⟨List.pairwise_cons.mpr ⟨fun b hb => .inl ?_, hapart⟩, ?_, ?_⟩
        · have := hbehind b hb
          push_cast at this ⊢
          omega
        · intro b hb
          rcases List.mem_cons.mp hb with rfl | hb
          · exact le_rfl
          · have := hbehind b hb
            omega
        · rw [List.singleton_append, List.length_cons]
          omega
      · rw [hpure]
        refine ⟨List.pairwise_singleton .., ?_, ?_⟩
        · intro b hb
          rw [List.append_nil, List.mem_singleton] at hb
          rw [hb]
        · rw [List.append_nil, List.length_singleton]
          omega
    · rw [if_neg hfits, dataBlocks_bind, hread, hpure]
      exact ⟨List.Pairwise.nil, by simp, Nat.zero_le _⟩
  | case2 =>
    rw [hpure]
    exact ⟨List.Pairwise.nil, by simp, Nat.zero_le _⟩

theorem careful_forEachCeaDb {stop : ℕ} (hstop : stop ≤ 127)
    (hbody : ∀ i s, i + ceaDbPayloadLen raw block i < stop →
      Always CeaEvent.Quiet (body i s)) :
    Careful (forEachCeaDb raw block stop body i s) := by
  obtain ⟨hapart, -, hlen⟩ := dataBlocks_forEachCeaDb (i := i) (s := s) hbody
  refine ⟨?_, hapart, ?_⟩
  · apply always_forEachCeaDb
    · intro i hi
      exact (quiet_read.mpr (by omega)).1
    · intro i hi
      simp only [CeaEvent.Ok, Inside, blockLength]
      omega
    · intro i s hi
      exact ok_of_quiet (hbody i s hi)
  · unfold blockLength
    omega

theorem quiet_ceaDbOffsets : Always CeaEvent.Quiet (ceaDbOffsets raw block) := by
  simp [ceaDbOffsets]

theorem ceaDbOffsets_le {stop : ℕ} (h : (ceaDbOffsets raw block).val = some stop) :
    stop ≤ 127 := by
  rw [ceaDbOffsets, val_bind, val_pure] at h
  generalize (if (u8 raw block 2).val = 0 then 127 else (u8 raw block 2).val.toNat) = e at h
  by_cases hrange : e < 4 ∨ 127 < e
  · rw [if_pos hrange] at h
    cases h
  · rw [if_neg hrange] at h
    injection h with h
    omega

theorem quiet_findCeaFrom {left : ℕ} : Always CeaEvent.Quiet (findCeaFrom raw left block) := by
  induction left generalizing block with
  | zero => exact always_pure _
  | succ left ih =>
    rw [findCeaFrom, always_bind, quiet_u8, always_ite]
    exact ⟨by omega, fun _ => always_pure _, fun _ => ih⟩

theorem quiet_drmFindCeaExtension : Always CeaEvent.Quiet (drmFindCeaExtension raw) := by
  rw [drmFindCeaExtension, always_bind, quiet_u8]
  exact ⟨by omega, quiet_findCeaFrom⟩

/-! ### The descriptors of the data blocks -/

theorem always_loop_of {body : ℕ → σ → CeaParse σ} (h : ∀ i < n, ∀ s, Always P (body i s)) :
    Always P (loop body n s) :=
  always_loop.mpr fun i hi => h i hi _

theorem quiet_doCeaModes {duplicate : ℕ → Bool} {len : ℕ} {modes : List ℕ} (h : i + len < 127) :
    Always CeaEvent.Quiet (doCeaModes raw duplicate block i len modes) := by
  apply always_loop_of
  intro k hk modes
  rw [always_bind, quiet_u8]
  exact ⟨by omega, always_pure _⟩

theorem quiet_ceaDbIsHdmiVsdb (h : i + ceaDbPayloadLen raw block i < 127) :
    Always CeaEvent.Quiet (ceaDbIsHdmiVsdb raw block i) := by
  rw [ceaDbIsHdmiVsdb, always_ite, always_ite]
  refine ⟨fun _ => always_pure _, fun _ => ⟨fun _ => always_pure _, fun _ => ?_⟩⟩
  simp only [always_bind, quiet_u8, always_pure, and_true]
  omega

theorem quiet_payloadByte {len k : ℕ} {store : UInt8 → CeaConnector → CeaConnector}
    {c : CeaConnector} (h : i + len < 127) :
    Always CeaEvent.Quiet (payloadByte raw block i len k store c) := by
  rw [payloadByte, always_ite, always_bind, quiet_u8]
  exact ⟨fun _ => ⟨by omega, always_pure _⟩, fun _ => always_pure _⟩

theorem quiet_parseHdmiVsdb {c : CeaConnector} (h : i + ceaDbPayloadLen raw block i < 127) :
    Always CeaEvent.Quiet (parseHdmiVsdb raw block i c) := by
  simp only [parseHdmiVsdb, always_bind, always_ite, quiet_u8, quiet_setEld, always_pure,
    quiet_payloadByte h, and_true, implies_true]
  omega

theorem quiet_copyName {name left mnl : ℕ} {c : CeaConnector} (h : name + mnl + left ≤ 128)
    (hmnl : mnl + left ≤ 13) : Always CeaEvent.Quiet (copyName raw block name left mnl c) := by
  induction left generalizing mnl c with
  | zero => exact always_pure _
  | succ left ih =>
    rw [copyName, always_bind, quiet_u8, always_ite]
    refine ⟨by omega, fun _ => always_pure _, fun _ => ?_⟩
    rw [always_bind, quiet_setEld]
    exact ⟨by omega, ih (by omega) (by omega)⟩

theorem copyName_le {name left mnl : ℕ} {c : CeaConnector} :
    (copyName raw block name left mnl c).val.1 ≤ mnl + left := by
  induction left generalizing mnl c with
  | zero => exact le_rfl
  | succ left ih =>
    rw [copyName, val_bind]
    split
    · rw [val_pure]
      omega
    · exact (ih.trans_eq (by omega))

theorem quiet_copySads {src dst len : ℕ} {c : CeaConnector} (hsrc : src + len ≤ 128)
    (hdst : dst + len ≤ 128) : Always CeaEvent.Quiet (copySads raw block src dst len c) := by
  simp only [copySads, always_bind, always_emit, quiet_read, quiet_eld, always_pure, and_true]
  exact ⟨hsrc, hdst⟩

/-- An audio data block fits the ELD behind a name of up to 13 bytes. -/
theorem quiet_eldDataBlock {mnl : ℕ} {r : ℕ × CeaConnector} (hmnl : mnl ≤ 13)
    (h : i + ceaDbPayloadLen raw block i < 127) :
    Always CeaEvent.Quiet (eldDataBlock raw block mnl i r) := by
  have hlen : ceaDbPayloadLen raw block i ≤ 31 := ceaDbPayloadLen_le
  unfold eldDataBlock
  simp only [always_ite, always_bind, always_pure, quiet_u8, quiet_setEld, and_true, implies_true,
    quiet_ceaDbIsHdmiVsdb h, quiet_parseHdmiVsdb h]
  refine ⟨fun _ hdbl => quiet_copySads (by omega) (by omega), fun _ _ _ => ?_⟩
  omega

theorem quiet_sads {count : ℕ} (h : i + count * 3 < 127) :
    Always CeaEvent.Quiet (sads raw block i count) := by
  apply always_loop_of
  intro j hj l
  simp only [always_bind, quiet_u8, always_pure, and_true]
  omega

theorem quiet_logAudioFormats {len : ℕ} (h : i + len < 127) :
    Always CeaEvent.Quiet (logAudioFormats raw block i len) := by
  apply always_loop_of
  intro k hk _
  simp only [always_bind, quiet_u8, always_pure, and_true]
  omega

/-! ### The detailed timings -/

theorem quiet_timing : CeaEvent.Quiet (.timing block ⟨i, 18⟩) ↔ 4 ≤ i ∧ i + 18 ≤ 128 := by
  simp only [CeaEvent.Quiet, CeaEvent.Ok, CeaEvent.dataBlock?, Inside, blockLength, and_true]
  omega

/-- What a callback does at every timing in bounds. -/
def QuietCb (cb : DetailedCb σ) : Prop :=
  ∀ block t s, t + 18 ≤ 128 → Always CeaEvent.Quiet (cb block t s)

variable {cb : DetailedCb σ}

theorem Within.quietCb (h : Within cb) : QuietCb cb := by
  intro block t s ht e he
  obtain ⟨k, len, rfl, hk⟩ := h block t s e he
  exact quiet_read.mpr (by omega)

theorem quiet_timings {detBase : ℕ} (hcb : QuietCb cb) (h4 : n = 0 ∨ 4 ≤ detBase)
    (hend : detBase + 18 * n ≤ 128) :
    Always CeaEvent.Quiet (timings cb block detBase n s) := by
  apply always_loop_of
  intro i hi s
  rw [always_bind, always_emit, quiet_timing]
  exact ⟨by omega, hcb _ _ _ (by omega)⟩

/-- The timings counted from `d` on end before the checksum. -/
theorem detBase_add_le {d : ℕ} (hd : d < 256) :
    ((127 - (d : ℤ)).tdiv 18).toNat = 0 ∨ d + 18 * ((127 - (d : ℤ)).tdiv 18).toNat ≤ 127 := by
  rcases le_or_gt d 127 with h | h
  · right
    rw [Int.tdiv_eq_ediv_of_nonneg (by omega)]
    omega
  · left
    rw [show 127 - (d : ℤ) = -(d - 127) by omega, Int.neg_tdiv,
      Int.tdiv_eq_ediv_of_nonneg (by omega)]
    omega

theorem quiet_extForEachDetailedBlock (hcb : QuietCb cb)
    (h : byteAt raw block 0 = ceaExt → 4 ≤ (byteAt raw block 2).toNat) :
    Always CeaEvent.Quiet (extForEachDetailedBlock raw cb block s) := by
  rw [extForEachDetailedBlock, always_bind, quiet_u8, always_ite, always_ite]
  refine ⟨by omega, fun hcea => ?_, fun _ => ⟨fun _ => ?_, fun _ => always_pure _⟩⟩
  · rw [ceaForEachDetailedBlock, always_bind, quiet_u8, u8_val]
    refine ⟨by omega, ?_⟩
    have hbound := detBase_add_le (byteAt raw block 2).toNat_lt
    dsimp only
    rcases hbound with hzero | hle
    · rw [hzero]
      exact always_loop_of fun i hi => absurd hi (Nat.not_lt_zero i)
    · exact quiet_timings hcb (.inr (h hcea)) (by omega)
  · rw [vtbForEachDetailedBlock, always_bind, quiet_u8, always_bind, quiet_u8, always_ite]
    refine ⟨by omega, by omega, fun _ => always_pure _, fun _ => ?_⟩
    exact quiet_timings hcb (.inr (by omega)) (by omega)

theorem quiet_drmForEachDetailedBlock (hcb : QuietCb cb) (h : TimingsBehindHeader raw) :
    Always CeaEvent.Quiet (drmForEachDetailedBlock raw cb s) := by
  rw [drmForEachDetailedBlock, always_bind, always_bind, quiet_u8, u8_val]
  refine ⟨quiet_timings hcb (.inr (by omega)) (by omega), by omega, ?_⟩
  apply always_loop_of
  intro i hi s
  apply quiet_extForEachDetailedBlock hcb
  apply h (i + 1) (by omega)
  rw [byteAt, Nat.mul_zero, Nat.zero_add] at hi
  omega

/-! ### The name of the monitor -/

def NameFits (name : Option (ℕ × ℕ)) : Prop := ∀ p ∈ name, p.2 + 13 ≤ 128

theorem quietCb_monitorName : QuietCb (monitorName raw) := by
  intro block t name ht
  rw [monitorName, always_bind, quiet_u8]
  exact ⟨by omega, always_pure _⟩

variable {name : Option (ℕ × ℕ)}

theorem nameFits_timings {detBase : ℕ} (hend : detBase + 18 * n ≤ 128) (h : NameFits name) :
    NameFits (timings (monitorName raw) block detBase n name).val := by
  refine loop_induct (I := fun _ name => NameFits name) h fun i hi name hname => ?_
  rw [val_bind, monitorName, val_bind, val_pure]
  split
  · intro p hp
    rw [Option.mem_some_iff] at hp
    rw [← hp]
    omega
  · exact hname

theorem nameFits_extForEachDetailedBlock (h : NameFits name) :
    NameFits (extForEachDetailedBlock raw (monitorName raw) block name).val := by
  rw [extForEachDetailedBlock, val_bind]
  split
  · rw [ceaForEachDetailedBlock, val_bind, u8_val]
    dsimp only
    rcases detBase_add_le (byteAt raw block 2).toNat_lt with hzero | hle
    · rw [hzero]
      exact h
    · exact nameFits_timings (by omega) h
  · split
    · rw [vtbForEachDetailedBlock, val_bind, val_bind]
      split
      · exact h
      · exact nameFits_timings (by omega) h
    · exact h

theorem nameFits_drmForEachDetailedBlock :
    NameFits (drmForEachDetailedBlock raw (monitorName raw) none).val := by
  rw [drmForEachDetailedBlock, val_bind]
  refine loop_induct (I := fun _ name => NameFits name) ?_ fun i _ name hname =>
    nameFits_extForEachDetailedBlock hname
  exact nameFits_timings (by omega) fun p hp => by cases hp

/-! ### The functions -/

theorem careful_pure {a : α} : Careful (pure a : CeaParse α) := .of_quiet (always_pure a)

theorem careful_find {f : Option ℕ → CeaParse α} (hnone : Careful (f none))
    (hsome : ∀ cea, Careful (f (some cea))) : Careful (drmFindCeaExtension raw >>= f) := by
  refine .bind_quiet quiet_drmFindCeaExtension ?_
  cases (drmFindCeaExtension raw).val with
  | none => exact hnone
  | some cea => exact hsome cea

theorem careful_offsets {f : Option ℕ → CeaParse α} (hnone : Careful (f none))
    (hsome : ∀ stop ≤ 127, Careful (f (some stop))) : Careful (ceaDbOffsets raw block >>= f) := by
  refine .bind_quiet quiet_ceaDbOffsets ?_
  cases hstop : (ceaDbOffsets raw block).val with
  | none => exact hnone
  | some stop => exact hsome stop (ceaDbOffsets_le hstop)

theorem careful_u8_bind {f : UInt8 → CeaParse α} (hi : i < 128)
    (hf : Careful (f (byteAt raw block i))) : Careful (u8 raw block i >>= f) :=
  .bind_quiet (quiet_u8.mpr hi) hf

theorem careful_ite {c : Prop} [Decidable c] {m m' : CeaParse α} (hm : Careful m)
    (hm' : Careful m') : Careful (if c then m else m') := by
  split
  · exact hm
  · exact hm'

theorem careful_addCeaModes {duplicate : ℕ → Bool} : Careful (addCeaModes raw duplicate) := by
  refine careful_find careful_pure fun cea => careful_u8_bind (by omega) ?_
  refine careful_ite careful_pure (careful_offsets careful_pure fun stop hstop => ?_)
  refine careful_forEachCeaDb hstop fun i modes hi => ?_
  rw [always_ite]
  refine ⟨fun _ => ?_, fun _ => always_pure _⟩
  exact always_bind.mpr ⟨quiet_doCeaModes (by omega), always_pure _⟩

theorem careful_eldDataBlocks {cea mnl : ℕ} {c : CeaConnector} (hmnl : mnl ≤ 13) :
    Careful (eldDataBlocks raw cea mnl c) := by
  refine careful_u8_bind (by omega) (careful_ite careful_pure ?_)
  refine careful_offsets careful_pure fun stop hstop => ?_
  exact careful_forEachCeaDb hstop fun i r hi => quiet_eldDataBlock hmnl (by omega)

theorem quiet_eldHeader {cea mnl : ℕ} {c : CeaConnector} :
    Always CeaEvent.Quiet (eldHeader raw cea mnl c) := by
  simp only [eldHeader, always_bind, quiet_u8, quiet_setEld]
  omega

theorem quiet_copyMonitorName {c : CeaConnector} (h : NameFits name) :
    Always CeaEvent.Quiet (copyMonitorName raw name c) ∧
      (copyMonitorName raw name c).val.1 ≤ 13 := by
  cases name with
  | none => exact ⟨always_pure _, Nat.zero_le 13⟩
  | some p =>
    have hp : p.2 + 13 ≤ 128 := h p rfl
    exact ⟨quiet_copyName (by omega) (by omega), copyName_le.trans_eq (Nat.zero_add 13)⟩

theorem careful_drmEdidToEld {c : CeaConnector} (h : TimingsBehindHeader raw) :
    Careful (drmEdidToEld raw c) := by
  refine .bind_quiet (always_emit.mpr (quiet_eld.mpr (by decide))) ?_
  refine careful_find careful_pure fun cea => ?_
  refine .bind_quiet (quiet_drmForEachDetailedBlock quietCb_monitorName h) ?_
  have hname : NameFits (drmForEachDetailedBlock raw (monitorName raw) none).val :=
    nameFits_drmForEachDetailedBlock
  obtain ⟨hquiet, hmnl⟩ := @quiet_copyMonitorName raw _ { c with eld := fun _ => 0 } hname
  refine .bind_quiet hquiet (.bind_quiet quiet_eldHeader ?_)
  refine .quiet_bind (careful_eldDataBlocks hmnl) ?_
  simp only [always_bind, quiet_setEld]
  omega

theorem careful_drmEdidToSad {kcalloc : ℕ → Bool} : Careful (drmEdidToSad raw kcalloc) := by
  refine careful_find careful_pure fun cea => careful_u8_bind (by omega) ?_
  refine careful_ite careful_pure (careful_offsets careful_pure fun stop hstop => ?_)
  refine careful_forEachCeaDb hstop fun i r hi => ?_
  simp only [always_ite, always_bind, always_pure, and_true, implies_true]
  intro _ _
  exact quiet_sads (by omega)

theorem careful_drmDetectHdmiMonitor : Careful (drmDetectHdmiMonitor raw) := by
  refine careful_find careful_pure fun cea => ?_
  refine careful_offsets careful_pure fun stop hstop => ?_
  refine careful_forEachCeaDb hstop fun i r hi => ?_
  rw [always_bind, always_ite]
  exact ⟨quiet_ceaDbIsHdmiVsdb (by omega), fun _ => always_pure _, fun _ => always_pure _⟩

theorem careful_drmDetectMonitorAudio : Careful (drmDetectMonitorAudio raw) := by
  refine careful_find careful_pure fun cea => careful_u8_bind (by omega) ?_
  refine careful_ite careful_pure (careful_offsets careful_pure fun stop hstop => ?_)
  refine careful_forEachCeaDb hstop fun i r hi => ?_
  rw [always_ite, always_bind]
  exact ⟨fun _ => ⟨quiet_logAudioFormats (by omega), always_pure _⟩, fun _ => always_pure _⟩

theorem careful_drmRgbQuantRangeSelectable : Careful (drmRgbQuantRangeSelectable raw) := by
  refine careful_find careful_pure fun cea => ?_
  refine careful_offsets careful_pure fun stop hstop => ?_
  refine careful_forEachCeaDb hstop fun i r hi => ?_
  rw [always_ite, always_bind, quiet_u8]
  exact ⟨fun hvcdb => ⟨by omega, always_pure _⟩, fun _ => always_pure _⟩

/-- A CEA extension block whose timings start before byte 4 has such a timing read. -/
theorem not_ok_of_before (h : Always CeaEvent.Ok (drmForEachDetailedBlock raw cb s)) :
    TimingsBehindHeader raw := by
  intro block h1 hcount hcea
  rw [drmForEachDetailedBlock, always_bind, always_bind] at h
  have hloop := always_loop.mp h.2.2 (block - 1) (by
    rw [u8_val, byteAt, Nat.mul_zero, Nat.zero_add]
    omega)
  rw [Nat.sub_add_cancel h1, extForEachDetailedBlock, always_bind, always_ite] at hloop
  have hext := hloop.2.1 hcea
  rw [ceaForEachDetailedBlock, always_bind, u8_val] at hext
  by_contra hlt
  -- seven or six timings then, the first one at `d`
  have hn : 0 < ((127 - ((byteAt raw block 2).toNat : ℤ)).tdiv 18).toNat := by
    rw [Int.tdiv_eq_ediv_of_nonneg (by omega)]
    omega
  have hfirst := always_loop.mp hext.2 0 hn
  rw [always_bind, always_emit] at hfirst
  have h4 := hfirst.1.1
  dsimp only at h4
  omega

/-- The extension blocks are read in bounds exactly when no CEA block has its detailed timings
start before byte 4. -/
theorem extensionsRead_iff (raw : ℕ → UInt8) : ExtensionsRead raw ↔ TimingsBehindHeader raw := by
  constructor
  · intro h
    exact not_ok_of_before (h.timings (fun _ _ s => pure s) () fun _ _ _ e he => by cases he)
  · intro h
    exact {
      timings := fun cb s hcb => ok_of_quiet (quiet_drmForEachDetailedBlock hcb.quietCb h)
      modes := fun _ => careful_addCeaModes
      eld := fun _ => careful_drmEdidToEld h
      sads := fun _ => careful_drmEdidToSad
      hdmi := careful_drmDetectHdmiMonitor
      audio := careful_drmDetectMonitorAudio
      quant := careful_drmRgbQuantRangeSelectable }

end

/-- An EDID with one extension block: a CEA block that has no detailed timings, and says so by 0. -/
def noTimings (k : ℕ) : UInt8 :=
  if k = 0x7e then 1
  else if k = 128 then ceaExt else if k = 129 then 1 else if k = 255 then 253 else 0

/-- Its bytes sum to zero, and the first timing is read from its byte 0. -/
theorem extensions_read_before : ¬ ∀ raw : ℕ → UInt8,
    (∀ block, 1 ≤ block → block ≤ (raw 0x7e).toNat →
      ((List.range blockLength).map (byteAt raw block)).sum = 0) → ExtensionsRead raw := by
  intro h
  have hsum : ∀ block, 1 ≤ block → block ≤ (noTimings 0x7e).toNat →
      ((List.range blockLength).map (byteAt noTimings block)).sum = 0 := by
    intro block h1 hle
    obtain rfl : block = 1 := le_antisymm hle h1
    decide +kernel
  have hread := (h noTimings hsum).timings (fun _ _ s => pure s) () fun _ _ _ e he => by cases he
  revert hread
  unfold Always
  decide +kernel

end GfxDrm.Edid
