import GfxDrm.Errno
import GfxDrm.Lib.Span
import GfxDrm.Lib.Traced
import Mathlib.Algebra.Order.Ring.Nat
import Mathlib.Data.UInt

/-! The parsers of the extension blocks of an EDID, with every byte they touch (drm_edid.c). -/

namespace GfxDrm.Edid
open Traced

/-- A detailed timing, a data block of the CEA extension or other bytes are read, where in which
block; bytes of the ELD are written. -/
inductive CeaEvent where
  | timing (block : ℕ) (s : Span)
  | dataBlock (block : ℕ) (s : Span)
  | read (block : ℕ) (s : Span)
  | eld (s : Span)
  deriving DecidableEq, Repr

abbrev CeaParse := Traced CeaEvent

/-- EDID_LENGTH. -/
def blockLength : ℕ := 128

/-- MAX_ELD_BYTES. -/
def maxEldBytes : ℕ := 128

/-- No timing is read before byte 4 or past the block, all else lies in the block or the ELD. -/
def CeaEvent.Ok : CeaEvent → Prop
  | .timing _ s => 4 ≤ s.off ∧ s.Inside blockLength
  | .dataBlock _ s => s.Inside blockLength
  | .read _ s => s.Inside blockLength
  | .eld s => s.Inside maxEldBytes

instance : DecidablePred CeaEvent.Ok
  | .timing _ s => inferInstanceAs (Decidable (_ ∧ _))
  | .dataBlock _ s => inferInstanceAs (Decidable (s.Inside blockLength))
  | .read _ s => inferInstanceAs (Decidable (s.Inside blockLength))
  | .eld s => inferInstanceAs (Decidable (s.Inside maxEldBytes))

def ceaExt : UInt8 := 0x02
def vtbExt : UInt8 := 0x10

variable (raw : ℕ → UInt8) {σ : Type}

def byteAt (block k : ℕ) : UInt8 := raw (blockLength * block + k)

def u8 (block k : ℕ) : CeaParse UInt8 := do
  emit (.read block ⟨k, 1⟩)
  pure (byteAt raw block k)

/-! ### The detailed timings -/

/-- A detailed_cb: it is given the block and where in it the timing is. -/
abbrev DetailedCb (σ : Type) := ℕ → ℕ → σ → CeaParse σ

/-- The loop over `n` detailed timings from `detBase` on. -/
def timings (cb : DetailedCb σ) (block detBase n : ℕ) : σ → CeaParse σ :=
  loop (fun i s => do
    emit (.timing block ⟨(detBase + 18 * i : ℕ), 18⟩)
    cb block (detBase + 18 * i) s) n

/-- cea_for_each_detailed_block; `n` is an int, negative where `d` is behind the block. -/
def ceaForEachDetailedBlock (cb : DetailedCb σ) (block : ℕ) (s : σ) : CeaParse σ := do
  let d ← u8 raw block 2
  let n := (127 - (d.toNat : ℤ)).tdiv 18
  timings cb block d.toNat n.toNat s

/-- vtb_for_each_detailed_block. -/
def vtbForEachDetailedBlock (cb : DetailedCb σ) (block : ℕ) (s : σ) : CeaParse σ := do
  let n ← u8 raw block 2
  let version ← u8 raw block 1
  if version ≠ 1 then pure s else timings cb block 5 (min n.toNat 6) s

/-- What the loop of drm_for_each_detailed_block does with extension block `block`. -/
def extForEachDetailedBlock (cb : DetailedCb σ) (block : ℕ) (s : σ) : CeaParse σ := do
  let tag ← u8 raw block 0
  if tag = ceaExt then ceaForEachDetailedBlock raw cb block s
  else if tag = vtbExt then vtbForEachDetailedBlock raw cb block s
  else pure s

/-- drm_for_each_detailed_block, of an EDID that is there. -/
def drmForEachDetailedBlock (cb : DetailedCb σ) (s : σ) : CeaParse σ := do
  let s ← timings cb 0 54 4 s
  let extensions ← u8 raw 0 0x7e
  loop (fun i s => extForEachDetailedBlock raw cb (i + 1) s) extensions.toNat s

/-! ### The data blocks of the CEA extension -/

def findCeaFrom : ℕ → ℕ → CeaParse (Option ℕ)
  | 0, _ => pure none
  | left + 1, block => do
    let tag ← u8 raw block 0
    if tag = ceaExt then pure (some block) else findCeaFrom left (block + 1)

/-- drm_find_cea_extension: the number of the block. -/
def drmFindCeaExtension : CeaParse (Option ℕ) := do
  let extensions ← u8 raw 0 0x7e
  findCeaFrom raw extensions.toNat 1

/-- cea_db_payload_len. -/
def ceaDbPayloadLen (block i : ℕ) : ℕ := (byteAt raw block i &&& 0x1f).toNat

/-- cea_db_tag. -/
def ceaDbTag (block i : ℕ) : ℕ := (byteAt raw block i >>> 5).toNat

def audioBlock : ℕ := 1
def videoBlock : ℕ := 2
def vendorBlock : ℕ := 3
def speakerBlock : ℕ := 4
def videoCapabilityBlock : ℕ := 7

/-- cea_db_offsets: where the data blocks end, none for -ERANGE; they start at 4. -/
def ceaDbOffsets (block : ℕ) : CeaParse (Option ℕ) := do
  let e ← u8 raw block 2
  let stop := if e = 0 then 127 else e.toNat
  pure (if stop < 4 ∨ 127 < stop then none else some stop)

/-- for_each_cea_db from `i` on; the body tells whether to go on. -/
def forEachCeaDb (block stop : ℕ) (body : ℕ → σ → CeaParse (Bool × σ)) (i : ℕ) (s : σ) :
    CeaParse σ :=
  if i < stop then do
    emit (.read block ⟨i, 1⟩)
    if i + ceaDbPayloadLen raw block i < stop then do
      emit (.dataBlock block ⟨i, ceaDbPayloadLen raw block i + 1⟩)
      let r ← body i s
      if r.1 then forEachCeaDb block stop body (i + ceaDbPayloadLen raw block i + 1) r.2
      else pure r.2
    else pure s
  else pure s
termination_by stop - i

/-- ARRAY_SIZE(edid_cea_modes). -/
def numCeaModes : ℕ := 64

/-- do_cea_modes, of the `len` bytes behind the header at `i`: which of edid_cea_modes it adds.
`duplicate` is whether drm_mode_duplicate has the memory. -/
def doCeaModes (duplicate : ℕ → Bool) (block i len : ℕ) (modes : List ℕ) : CeaParse (List ℕ) :=
  loop (fun k modes => do
    let mode ← u8 raw block (i + 1 + k)
    let ceaMode := ((mode &&& 127) - 1).toNat
    pure (if ceaMode < numCeaModes ∧ duplicate ceaMode then modes ++ [ceaMode] else modes)) len modes

/-- add_cea_modes. -/
def addCeaModes (duplicate : ℕ → Bool) : CeaParse (List ℕ) := do
  match ← drmFindCeaExtension raw with
  | none => pure []
  | some cea =>
    let revision ← u8 raw cea 1
    if revision < 3 then pure []
    else
      match ← ceaDbOffsets raw cea with
      | none => pure []
      | some stop =>
        forEachCeaDb raw cea stop (fun i modes => do
          if ceaDbTag raw cea i = videoBlock then
            let modes ← doCeaModes raw duplicate cea i (ceaDbPayloadLen raw cea i) modes
            pure (true, modes)
          else pure (true, modes)) 4 []

/-- HDMI_IDENTIFIER. -/
def hdmiIdentifier : ℕ := 0x000c03

/-- cea_db_is_hdmi_vsdb. -/
def ceaDbIsHdmiVsdb (block i : ℕ) : CeaParse Bool :=
  if ceaDbTag raw block i ≠ vendorBlock then pure false
  else if ceaDbPayloadLen raw block i < 5 then pure false
  else do
    let lo ← u8 raw block (i + 1)
    let mid ← u8 raw block (i + 2)
    let hi ← u8 raw block (i + 3)
    pure (decide (lo.toNat ||| mid.toNat <<< 8 ||| hi.toNat <<< 16 = hdmiIdentifier))

/-! ### The ELD -/

/-- The EDID bits of struct drm_connector. -/
structure CeaConnector where
  eld : ℕ → UInt8 := fun _ => 0
  dviDual : Bool := false
  maxTmdsClock : ℕ := 0
  latencyPresent : Bool × Bool := (false, false)
  videoLatency : ℕ × ℕ := (0, 0)
  audioLatency : ℕ × ℕ := (0, 0)

def setEld (k : ℕ) (v : UInt8) (c : CeaConnector) : CeaParse CeaConnector := do
  emit (.eld ⟨k, 1⟩)
  pure { c with eld := Function.update c.eld k v }

/-- A byte of the payload is read where there is one, and stored. -/
def payloadByte (block i len k : ℕ) (store : UInt8 → CeaConnector → CeaConnector)
    (c : CeaConnector) : CeaParse CeaConnector :=
  if k ≤ len then do
    let b ← u8 raw block (i + k)
    pure (store b c)
  else pure c

/-- parse_hdmi_vsdb. -/
def parseHdmiVsdb (block i : ℕ) (c : CeaConnector) : CeaParse CeaConnector := do
  let len := ceaDbPayloadLen raw block i
  let c ←
    if 6 ≤ len then do
      let b ← u8 raw block (i + 6)
      let c ← setEld 5 (c.eld 5 ||| (b >>> 7) <<< 1) c
      pure { c with dviDual := decide (b &&& 1 ≠ 0) }
    else pure c
  let c ← payloadByte raw block i len 7 (fun b c => { c with maxTmdsClock := b.toNat * 5 }) c
  let c ← payloadByte raw block i len 8 (fun b c =>
    { c with latencyPresent := (decide (b >>> 7 ≠ 0), decide ((b >>> 6) &&& 1 ≠ 0)) }) c
  let c ← payloadByte raw block i len 9 (fun b c =>
    { c with videoLatency := (b.toNat, c.videoLatency.2) }) c
  let c ← payloadByte raw block i len 10 (fun b c =>
    { c with audioLatency := (b.toNat, c.audioLatency.2) }) c
  let c ← payloadByte raw block i len 11 (fun b c =>
    { c with videoLatency := (c.videoLatency.1, b.toNat) }) c
  payloadByte raw block i len 12 (fun b c =>
    { c with audioLatency := (c.audioLatency.1, b.toNat) }) c

/-- EDID_DETAIL_MONITOR_NAME. -/
def edidDetailMonitorName : UInt8 := 0xfc

/-- monitor_name: the block of the last name found, and where in it. -/
def monitorName : DetailedCb (Option (ℕ × ℕ)) := fun block t name => do
  let type ← u8 raw block (t + 3)
  pure (if type = edidDetailMonitorName then some (block, t + 5) else name)

/-- The loop that copies the monitor's name, from `mnl` on; `mnl` comes back. -/
def copyName (block name : ℕ) : ℕ → ℕ → CeaConnector → CeaParse (ℕ × CeaConnector)
  | 0, mnl, c => pure (mnl, c)
  | left + 1, mnl, c => do
    let b ← u8 raw block (name + mnl)
    if b = 0x0a then pure (mnl, c)
    else do
      let c ← setEld (20 + mnl) b c
      copyName block name left (mnl + 1) c

/-- memcpy of `len` bytes of the block to the ELD. -/
def copySads (block src dst len : ℕ) (c : CeaConnector) : CeaParse CeaConnector := do
  emit (.read block ⟨src, len⟩)
  emit (.eld ⟨dst, len⟩)
  pure { c with
    eld := fun k => if dst ≤ k ∧ k < dst + len then byteAt raw block (src + (k - dst)) else c.eld k }

/-- The switch of drm_edid_to_eld, with sad_count. -/
def eldDataBlock (cea mnl i : ℕ) (s : ℕ × CeaConnector) : CeaParse (Bool × (ℕ × CeaConnector)) :=
  let dbl := ceaDbPayloadLen raw cea i
  if ceaDbTag raw cea i = audioBlock then
    if 1 ≤ dbl then do
      let c ← copySads raw cea (i + 1) (20 + mnl) dbl s.2
      pure (true, dbl / 3, c)
    else pure (true, dbl / 3, s.2)
  else if ceaDbTag raw cea i = speakerBlock then
    if 1 ≤ dbl then do
      let b ← u8 raw cea (i + 1)
      let c ← setEld 7 b s.2
      pure (true, s.1, c)
    else pure (true, s)
  else if ceaDbTag raw cea i = vendorBlock then do
    if ← ceaDbIsHdmiVsdb raw cea i then do
      let c ← parseHdmiVsdb raw cea i s.2
      pure (true, s.1, c)
    else pure (true, s)
  else pure (true, s)

/-- The data blocks' part of drm_edid_to_eld. -/
def eldDataBlocks (cea mnl : ℕ) (c : CeaConnector) : CeaParse (ℕ × CeaConnector) := do
  let revision ← u8 raw cea 1
  if revision < 3 then pure (0, c)
  else
    match ← ceaDbOffsets raw cea with
    -- start and end are both 0 then
    | none => pure (0, c)
    | some stop => forEachCeaDb raw cea stop (eldDataBlock raw cea mnl) 4 (0, c)

def copyMonitorName (name : Option (ℕ × ℕ)) (c : CeaConnector) : CeaParse (ℕ × CeaConnector) :=
  match name with
  | none => pure (0, c)
  | some (block, str) => copyName raw block str 13 0 c

/-- The ELD's version, the length of the name, and what the base block says of the monitor. -/
def eldHeader (cea mnl : ℕ) (c : CeaConnector) : CeaParse CeaConnector := do
  let revision ← u8 raw cea 1
  let c ← setEld 4 (revision <<< 5 ||| UInt8.ofNat mnl) c
  let c ← setEld 0 ((2 : UInt8) <<< 3) c
  let mfgId0 ← u8 raw 0 8
  let c ← setEld 16 mfgId0 c
  let mfgId1 ← u8 raw 0 9
  let c ← setEld 17 mfgId1 c
  let prodCode0 ← u8 raw 0 10
  let c ← setEld 18 prodCode0 c
  let prodCode1 ← u8 raw 0 11
  setEld 19 prodCode1 c

/-- drm_edid_to_eld. -/
def drmEdidToEld (c : CeaConnector) : CeaParse CeaConnector := do
  emit (.eld ⟨0, maxEldBytes⟩)
  let c := { c with eld := fun _ => 0 }
  match ← drmFindCeaExtension raw with
  | none => pure c
  | some cea =>
    let name ← drmForEachDetailedBlock raw (monitorName raw) none
    let (mnl, c) ← copyMonitorName raw name c
    let c ← eldHeader raw cea mnl c
    let (sadCount, c) ← eldDataBlocks raw cea mnl c
    let c ← setEld 5 (c.eld 5 ||| UInt8.ofNat sadCount <<< 4) c
    setEld 2 (UInt8.ofNat ((20 + mnl + sadCount * 3 + 3) / 4)) c

/-! ### The other users of the data blocks -/

/-- struct cea_sad. -/
structure CeaSad where
  format : UInt8
  channels : UInt8
  freq : UInt8
  byte2 : UInt8
  deriving DecidableEq, Repr

/-- The loop that unpacks `count` SADs. -/
def sads (block i count : ℕ) : CeaParse (List CeaSad) :=
  loop (fun j l => do
    let b0 ← u8 raw block (i + (1 + j * 3))
    let b1 ← u8 raw block (i + (1 + j * 3) + 1)
    let b2 ← u8 raw block (i + (1 + j * 3) + 2)
    pure (l ++ [{
      format := (b0 &&& 0x78) >>> 3
      channels := b0 &&& 0x7
      freq := b1 &&& 0x7f
      byte2 := b2 }])) count []

/-- drm_edid_to_sad: what it returns, and the SADs. `kcalloc` is whether there is memory for as
many. -/
def drmEdidToSad (kcalloc : ℕ → Bool) : CeaParse (ℤ × List CeaSad) := do
  match ← drmFindCeaExtension raw with
  | none => pure (Errno.eNoent, [])
  | some cea =>
    let revision ← u8 raw cea 1
    if revision < 3 then pure (Errno.eNotsup, [])
    else
      match ← ceaDbOffsets raw cea with
      | none => pure (Errno.eProto, [])
      | some stop =>
        forEachCeaDb raw cea stop (fun i r => do
          if ceaDbTag raw cea i = audioBlock then
            let count := ceaDbPayloadLen raw cea i / 3
            if kcalloc count then
              let l ← sads raw cea i count
              pure (false, (count : ℤ), l)
            else pure (false, Errno.eNomem, [])
          else pure (true, r)) 4 (0, [])

/-- drm_detect_hdmi_monitor. -/
def drmDetectHdmiMonitor : CeaParse Bool := do
  match ← drmFindCeaExtension raw with
  | none => pure false
  | some cea =>
    match ← ceaDbOffsets raw cea with
    | none => pure false
    | some stop =>
      forEachCeaDb raw cea stop (fun i r => do
        if ← ceaDbIsHdmiVsdb raw cea i then pure (false, true) else pure (true, r)) 4 false

/-- EDID_BASIC_AUDIO. -/
def edidBasicAudio : UInt8 := (1 : UInt8) <<< 6

/-- The loop that logs the audio formats: `j` is 1, 4, 7 and so on while it is at most `len`. -/
def logAudioFormats (block i len : ℕ) : CeaParse Unit :=
  loop (fun k _ => do
    let _ ← u8 raw block (i + (1 + 3 * k))
    pure ()) ((len + 2) / 3) ()

/-- drm_detect_monitor_audio. -/
def drmDetectMonitorAudio : CeaParse Bool := do
  match ← drmFindCeaExtension raw with
  | none => pure false
  | some cea =>
    let b ← u8 raw cea 3
    if b &&& edidBasicAudio ≠ 0 then pure true
    else
      match ← ceaDbOffsets raw cea with
      | none => pure false
      | some stop =>
        forEachCeaDb raw cea stop (fun i r => do
          if ceaDbTag raw cea i = audioBlock then
            logAudioFormats raw cea i (ceaDbPayloadLen raw cea i)
            pure (false, true)
          else pure (true, r)) 4 false

/-- EDID_CEA_VCDB_QS. -/
def edidCeaVcdbQs : UInt8 := (1 : UInt8) <<< 6

/-- drm_rgb_quant_range_selectable. -/
def drmRgbQuantRangeSelectable : CeaParse Bool := do
  match ← drmFindCeaExtension raw with
  | none => pure false
  | some cea =>
    match ← ceaDbOffsets raw cea with
    | none => pure false
    | some stop =>
      forEachCeaDb raw cea stop (fun i r => do
        if ceaDbTag raw cea i = videoCapabilityBlock ∧ ceaDbPayloadLen raw cea i = 2 then
          let b ← u8 raw cea (i + 2)
          pure (false, decide (b &&& edidCeaVcdbQs ≠ 0))
        else pure (true, r)) 4 false

end GfxDrm.Edid
