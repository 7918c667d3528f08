import GfxDrm.Edid.Cea
import GfxDrm.Modes.CvtExact
import GfxDrm.Modes.Gtf

/-! Standard timings: two bytes that stand for a size and a rate, and the mode made of them
(drm_edid.c). -/

namespace GfxDrm.Edid
open CInt Modes Checked Traced

/-! ### The modes of the DMT standard -/

/-- DRM_MODE, of a driver's mode without skew and scan. -/
def drmMode (name : String) (clock hdisplay hsyncStart hsyncEnd htotal vdisplay vsyncStart
    vsyncEnd vtotal : ℤ) (flags : BitVec 32) : Mode :=
  { name, type := modeTypeDriver, clock, hdisplay, hsyncStart, hsyncEnd, htotal, vdisplay,
    vsyncStart, vsyncEnd, vtotal, flags }

/-- drm_dmt_modes. -/
def drmDmtModes : List Mode :=
  [ drmMode "640x350" 31500 640 672 736 832 350 382 385 445
      (modeFlagPhsync ||| modeFlagNvsync),
    drmMode "640x400" 31500 640 672 736 832 400 401 404 445
      (modeFlagNhsync ||| modeFlagPvsync),
    drmMode "720x400" 35500 720 756 828 936 400 401 404 446
      (modeFlagNhsync ||| modeFlagPvsync),
    drmMode "640x480" 25175 640 656 752 800 480 489 492 525
      (modeFlagNhsync ||| modeFlagNvsync),
    drmMode "640x480" 31500 640 664 704 832 480 489 492 520
      (modeFlagNhsync ||| modeFlagNvsync),
    drmMode "640x480" 31500 640 656 720 840 480 481 484 500
      (modeFlagNhsync ||| modeFlagNvsync),
    drmMode "640x480" 36000 640 696 752 832 480 481 484 509
      (modeFlagNhsync ||| modeFlagNvsync),
    drmMode "800x600" 36000 800 824 896 1024 600 601 603 625
      (modeFlagPhsync ||| modeFlagPvsync),
    drmMode "800x600" 40000 800 840 968 1056 600 601 605 628
      (modeFlagPhsync ||| modeFlagPvsync),
    drmMode "800x600" 50000 800 856 976 1040 600 637 643 666
      (modeFlagPhsync ||| modeFlagPvsync),
    drmMode "800x600" 49500 800 816 896 1056 600 601 604 625
      (modeFlagPhsync ||| modeFlagPvsync),
    drmMode "800x600" 56250 800 832 896 1048 600 601 604 631
      (modeFlagPhsync ||| modeFlagPvsync),
    drmMode "800x600" 73250 800 848 880 960 600 603 607 636
      (modeFlagPhsync ||| modeFlagNvsync),
    drmMode "848x480" 33750 848 864 976 1088 480 486 494 517
      (modeFlagPhsync ||| modeFlagPvsync),
    drmMode "1024x768i" 44900 1024 1032 1208 1264 768 768 772 817
      (modeFlagPhsync ||| modeFlagPvsync ||| modeFlagInterlace),
    drmMode "1024x768" 65000 1024 1048 1184 1344 768 771 777 806
      (modeFlagNhsync ||| modeFlagNvsync),
    drmMode "1024x768" 75000 1024 1048 1184 1328 768 771 777 806
      (modeFlagNhsync ||| modeFlagNvsync),
    drmMode "1024x768" 78750 1024 1040 1136 1312 768 769 772 800
      (modeFlagPhsync ||| modeFlagPvsync),
    drmMode "1024x768" 94500 1024 1072 1168 1376 768 769 772 808
      (modeFlagPhsync ||| modeFlagPvsync),
    drmMode "1024x768" 115500 1024 1072 1104 1184 768 771 775 813
      (modeFlagPhsync ||| modeFlagNvsync),
    drmMode "1152x864" 108000 1152 1216 1344 1600 864 865 868 900
      (modeFlagPhsync ||| modeFlagPvsync),
    drmMode "1280x768" 68250 1280 1328 1360 1440 768 771 778 790
      (modeFlagPhsync ||| modeFlagNvsync),
    drmMode "1280x768" 79500 1280 1344 1472 1664 768 771 778 798
      (modeFlagNhsync ||| modeFlagPvsync),
    drmMode "1280x768" 102250 1280 1360 1488 1696 768 771 778 805
      (modeFlagPhsync ||| modeFlagNvsync),
    drmMode "1280x768" 117500 1280 1360 1496 1712 768 771 778 809
      (modeFlagNhsync ||| modeFlagPvsync),
    drmMode "1280x768" 140250 1280 1328 1360 1440 768 771 778 813
      (modeFlagPhsync ||| modeFlagNvsync),
    drmMode "1280x800" 71000 1280 1328 1360 1440 800 803 809 823
      (modeFlagPhsync ||| modeFlagNvsync),
    drmMode "1280x800" 83500 1280 1352 1480 1680 800 803 809 831
      (modeFlagPhsync ||| modeFlagNvsync),
    drmMode "1280x800" 106500 1280 1360 1488 1696 800 803 809 838
      (modeFlagNhsync ||| modeFlagPvsync),
    drmMode "1280x800" 122500 1280 1360 1496 1712 800 803 809 843
      (modeFlagNhsync ||| modeFlagPvsync),
    drmMode "1280x800" 146250 1280 1328 1360 1440 800 803 809 847
      (modeFlagPhsync ||| modeFlagNvsync),
    drmMode "1280x960" 108000 1280 1376 1488 1800 960 961 964 1000
      (modeFlagPhsync ||| modeFlagPvsync),
    drmMode "1280x960" 148500 1280 1344 1504 1728 960 961 964 1011
      (modeFlagPhsync ||| modeFlagPvsync),
    drmMode "1280x960" 175500 1280 1328 1360 1440 960 963 967 1017
      (modeFlagPhsync ||| modeFlagNvsync),
    drmMode "1280x1024" 108000 1280 1328 1440 1688 1024 1025 1028 1066
      (modeFlagPhsync ||| modeFlagPvsync),
    drmMode "1280x1024" 135000 1280 1296 1440 1688 1024 1025 1028 1066
      (modeFlagPhsync ||| modeFlagPvsync),
    drmMode "1280x1024" 157500 1280 1344 1504 1728 1024 1025 1028 1072
      (modeFlagPhsync ||| modeFlagPvsync),
    drmMode "1280x1024" 187250 1280 1328 1360 1440 1024 1027 1034 1084
      (modeFlagPhsync ||| modeFlagNvsync),
    drmMode "1360x768" 85500 1360 1424 1536 1792 768 771 777 795
      (modeFlagPhsync ||| modeFlagPvsync),
    drmMode "1360x768" 148250 1360 1408 1440 1520 768 771 776 813
      (modeFlagPhsync ||| modeFlagNvsync),
    drmMode "1400x1050" 101000 1400 1448 1480 1560 1050 1053 1057 1080
      (modeFlagPhsync ||| modeFlagNvsync),
    drmMode "1400x1050" 121750 1400 1488 1632 1864 1050 1053 1057 1089
      (modeFlagNhsync ||| modeFlagPvsync),
    drmMode "1400x1050" 156000 1400 1504 1648 1896 1050 1053 1057 1099
      (modeFlagNhsync ||| modeFlagPvsync),
    drmMode "1400x1050" 179500 1400 1504 1656 1912 1050 1053 1057 1105
      (modeFlagNhsync ||| modeFlagPvsync),
    drmMode "1400x1050" 208000 1400 1448 1480 1560 1050 1053 1057 1112
      (modeFlagPhsync ||| modeFlagNvsync),
    drmMode "1440x900" 88750 1440 1488 1520 1600 900 903 909 926
      (modeFlagPhsync ||| modeFlagNvsync),
    drmMode "1440x900" 106500 1440 1520 1672 1904 900 903 909 934
      (modeFlagNhsync ||| modeFlagPvsync),
    drmMode "1440x900" 136750 1440 1536 1688 1936 900 903 909 942
      (modeFlagNhsync ||| modeFlagPvsync),
    drmMode "1440x900" 157000 1440 1544 1696 1952 900 903 909 948
      (modeFlagNhsync ||| modeFlagPvsync),
    drmMode "1440x900" 182750 1440 1488 1520 1600 900 903 909 953
      (modeFlagPhsync ||| modeFlagNvsync),
    drmMode "1600x1200" 162000 1600 1664 1856 2160 1200 1201 1204 1250
      (modeFlagPhsync ||| modeFlagPvsync),
    drmMode "1600x1200" 175500 1600 1664 1856 2160 1200 1201 1204 1250
      (modeFlagPhsync ||| modeFlagPvsync),
    drmMode "1600x1200" 189000 1600 1664 1856 2160 1200 1201 1204 1250
      (modeFlagPhsync ||| modeFlagPvsync),
    drmMode "1600x1200" 202500 1600 1664 1856 2160 1200 1201 1204 1250
      (modeFlagPhsync ||| modeFlagPvsync),
    drmMode "1600x1200" 229500 1600 1664 1856 2160 1200 1201 1204 1250
      (modeFlagPhsync ||| modeFlagPvsync),
    drmMode "1600x1200" 268250 1600 1648 1680 1760 1200 1203 1207 1271
      (modeFlagPhsync ||| modeFlagNvsync),
    drmMode "1680x1050" 119000 1680 1728 1760 1840 1050 1053 1059 1080
      (modeFlagPhsync ||| modeFlagNvsync),
    drmMode "1680x1050" 146250 1680 1784 1960 2240 1050 1053 1059 1089
      (modeFlagNhsync ||| modeFlagPvsync),
    drmMode "1680x1050" 187000 1680 1800 1976 2272 1050 1053 1059 1099
      (modeFlagNhsync ||| modeFlagPvsync),
    drmMode "1680x1050" 214750 1680 1808 1984 2288 1050 1053 1059 1105
      (modeFlagNhsync ||| modeFlagPvsync),
    drmMode "1680x1050" 245500 1680 1728 1760 1840 1050 1053 1059 1112
      (modeFlagPhsync ||| modeFlagNvsync),
    drmMode "1792x1344" 204750 1792 1920 2120 2448 1344 1345 1348 1394
      (modeFlagNhsync ||| modeFlagPvsync),
    drmMode "1792x1344" 261000 1792 1888 2104 2456 1344 1345 1348 1417
      (modeFlagNhsync ||| modeFlagPvsync),
    drmMode "1792x1344" 333250 1792 1840 1872 1952 1344 1347 1351 1423
      (modeFlagPhsync ||| modeFlagNvsync),
    drmMode "1856x1392" 218250 1856 1952 2176 2528 1392 1393 1396 1439
      (modeFlagNhsync ||| modeFlagPvsync),
    drmMode "1856x1392" 288000 1856 1984 2208 2560 1392 1395 1399 1500
      (modeFlagNhsync ||| modeFlagPvsync),
    drmMode "1856x1392" 356500 1856 1904 1936 2016 1392 1395 1399 1474
      (modeFlagPhsync ||| modeFlagNvsync),
    drmMode "1920x1200" 154000 1920 1968 2000 2080 1200 1203 1209 1235
      (modeFlagPhsync ||| modeFlagNvsync),
    drmMode "1920x1200" 193250 1920 2056 2256 2592 1200 1203 1209 1245
      (modeFlagNhsync ||| modeFlagPvsync),
    drmMode "1920x1200" 245250 1920 2056 2264 2608 1200 1203 1209 1255
      (modeFlagNhsync ||| modeFlagPvsync),
    drmMode "1920x1200" 281250 1920 2064 2272 2624 1200 1203 1209 1262
      (modeFlagNhsync ||| modeFlagPvsync),
    drmMode "1920x1200" 317000 1920 1968 2000 2080 1200 1203 1209 1271
      (modeFlagPhsync ||| modeFlagNvsync),
    drmMode "1920x1440" 234000 1920 2048 2256 2600 1440 1441 1444 1500
      (modeFlagNhsync ||| modeFlagPvsync),
    drmMode "1920x1440" 297000 1920 2064 2288 2640 1440 1441 1444 1500
      (modeFlagNhsync ||| modeFlagPvsync),
    drmMode "1920x1440" 380500 1920 1968 2000 2080 1440 1443 1447 1525
      (modeFlagPhsync ||| modeFlagNvsync),
    drmMode "2560x1600" 268500 2560 2608 2640 2720 1600 1603 1609 1646
      (modeFlagPhsync ||| modeFlagNvsync),
    drmMode "2560x1600" 348500 2560 2752 3032 3504 1600 1603 1609 1658
      (modeFlagNhsync ||| modeFlagPvsync),
    drmMode "2560x1600" 443250 2560 2768 3048 3536 1600 1603 1609 1672
      (modeFlagNhsync ||| modeFlagPvsync),
    drmMode "2560x1600" 505250 2560 2768 3048 3536 1600 1603 1609 1682
      (modeFlagNhsync ||| modeFlagPvsync),
    drmMode "2560x1600" 552750 2560 2608 2640 2720 1600 1603 1609 1694
      (modeFlagPhsync ||| modeFlagNvsync) ]

/-- mode_is_rb. -/
def modeIsRb (mode : Mode) : Bool :=
  decide (i32 (mode.htotal - mode.hdisplay) = 160 ∧ i32 (mode.hsyncEnd - mode.hdisplay) = 80 ∧
    i32 (mode.hsyncEnd - mode.hsyncStart) = 32 ∧ i32 (mode.vsyncStart - mode.vdisplay) = 3)

/-! ### The descriptors of the monitor's range -/

variable (raw : ℕ → UInt8)

/-- EDID_DETAIL_MONITOR_RANGE. -/
def edidDetailMonitorRange : UInt8 := 0xfd

def edidRevision : UInt8 := byteAt raw 0 0x13
def edidInput : UInt8 := byteAt raw 0 0x14
def edidFeatures : UInt8 := byteAt raw 0 0x18

/-- is_rb. -/
def isRb : DetailedCb Bool := fun block t rb => do
  let type ← u8 raw block (t + 3)
  if type = edidDetailMonitorRange then do
    let flags ← u8 raw block (t + 15)
    pure (if flags &&& 0x10 ≠ 0 then true else rb)
  else pure rb

/-- drm_monitor_supports_rb. -/
def drmMonitorSupportsRb : Bool :=
  if 4 ≤ (edidRevision raw).toNat then (drmForEachDetailedBlock raw (isRb raw) false).val
  else decide (edidInput raw &&& 0x80 ≠ 0)

/-- find_gtf2. -/
def findGtf2 : DetailedCb (Option (ℕ × ℕ)) := fun block t found => do
  let type ← u8 raw block (t + 3)
  if type = edidDetailMonitorRange then do
    let flags ← u8 raw block (t + 10)
    pure (if flags = 0x02 then some (block, t) else found)
  else pure found

/-- Byte `k` of the last descriptor with a secondary GTF curve. -/
def gtf2Byte (k : ℕ) : ℕ :=
  match (drmForEachDetailedBlock raw (findGtf2 raw) none).val with
  | some (block, t) => (byteAt raw block (t + k)).toNat
  | none => 0

/-- drm_gtf2_hbreak. -/
def drmGtf2Hbreak : ℤ := gtf2Byte raw 12 * 2

/-- drm_gtf2_m, drm_gtf2_2c, drm_gtf2_k and drm_gtf2_2j. -/
def gtf2Curve : GtfCurve where
  m := gtf2Byte raw 15 * 256 + gtf2Byte raw 14
  twoC := gtf2Byte raw 13
  k := gtf2Byte raw 16
  twoJ := gtf2Byte raw 17

inductive TimingLevel where
  | dmt
  | gtf
  | gtf2
  | cvt
  deriving DecidableEq, Repr

/-- standard_timing_level. -/
def standardTimingLevel : TimingLevel :=
  if 2 ≤ (edidRevision raw).toNat then
    if 4 ≤ (edidRevision raw).toNat ∧ edidFeatures raw &&& 0x01 ≠ 0 then .cvt
    else if drmGtf2Hbreak raw ≠ 0 then .gtf2
    else .gtf
  else .dmt

/-! ### The timing -/

/-- struct std_timing. -/
structure StdTiming where
  hsize : UInt8
  vfreqAspect : UInt8
  deriving DecidableEq, Repr

/-- bad_std_timing. -/
def badStdTiming (a b : UInt8) : Bool :=
  decide (a = 0x00 ∧ b = 0x00 ∨ a = 0x01 ∧ b = 0x01 ∨ a = 0x20 ∧ b = 0x20)

structure StdSize where
  hsize : ℤ
  vsize : ℤ
  rate : ℤ
  deriving DecidableEq, Repr

/-- The size and the rate that drm_mode_std decodes. -/
def StdTiming.decode (t : StdTiming) (revision : ℤ) : StdSize :=
  let aspectRatio := (t.vfreqAspect &&& 0xc0) >>> 6
  let hsize : ℤ := t.hsize.toNat * 8 + 248
  { hsize := hsize
    vsize :=
      if aspectRatio = 0 then
        if revision < 3 then hsize else (hsize * 10).tdiv 16
      else if aspectRatio = 1 then (hsize * 3).tdiv 4
      else if aspectRatio = 2 then (hsize * 4).tdiv 5
      else (hsize * 9).tdiv 16
    rate := (t.vfreqAspect &&& 0x3f).toNat + 60 }

/-- The HDTV hack, part 1. -/
def StdSize.hdtv (s : StdSize) : StdSize :=
  if s.rate = 60 ∧ (s.hsize = 1360 ∧ s.vsize = 765 ∨ s.hsize = 1368 ∧ s.vsize = 769) then
    { s with hsize := 1366, vsize := 768 }
  else s

/-- Which of the allocations succeed: the copies of a DMT mode with and without reduced blanking,
the mode that is worked out, and the one worked out with the secondary curve. -/
structure StdMemory where
  rbCopy : Bool
  copy : Bool
  mode : Bool
  again : Bool
  deriving DecidableEq, Repr

namespace StdSize

variable (s : StdSize)

/-- Whether a mode has the size and the rate; the rate is worked out where the size is right. -/
def sameMode (m : Mode) : Checked Bool :=
  if m.hdisplay = s.hsize ∧ m.vdisplay = s.vsize then do
    let refresh ← ofOption m.refresh
    pure (decide (refresh = s.rate))
  else pure false

/-- drm_mode_find_dmt. -/
def findDmt (rb memory : Bool) : Checked (Option Mode) := do
  let found ← find (fun ptr => do
    if ← s.sameMode ptr then pure (rb == modeIsRb ptr) else pure false) drmDmtModes
  pure (if memory then found else none)

/-- The lookup with reduced blanking, of a monitor that has it. -/
def findRb (memory : Bool) : Checked (Option Mode) :=
  if drmMonitorSupportsRb raw then s.findDmt true memory else pure none

/-- drm_cvt_mode without reduced blanking, with the differences of `unsigned int` it takes. -/
def cvtMode : Checked Mode := do
  let i := cvtInput s.hsize s.vsize s.rate false false
  let _ ← usub (hvFactor * 1000000) (cvtMinVsyncBp * hvFactor * i.vfieldrate)
  let hperiod ← ofOption i.hperiod
  let _ ← ofOption (i.vsyncandbackPorch hperiod)
  let _ ← usub (cvtCPrime * hvFactor) (u32 (cvtMPrime * hperiod) / 1000)
  let _ ← usub (100 * hvFactor) (CvtInput.hblankPercentage hperiod)
  ofOption (drmCvtMode s.hsize s.vsize s.rate false false false)

/-- A mode is worked out where there is the memory for it. -/
def allocated (memory : Bool) (m : Checked Mode) : Checked (Option Mode) :=
  if memory then do
    let mode ← m
    pure (some mode)
  else pure none

/-- The HDTV hack, part 2. -/
def hdtvMode (mem : StdMemory) : Checked (Option Mode) :=
  allocated mem.mode do
    let mode ← cvtMode { s with hsize := 1366, vsize := 768 }
    pure { mode with
      hdisplay := 1366
      hsyncStart := i32 (mode.hsyncStart - 1)
      hsyncEnd := i32 (mode.hsyncEnd - 1) }

/-- What drm_mode_std generates by the timing level. -/
def generate (mem : StdMemory) : Checked (Option Mode) :=
  match standardTimingLevel raw with
  | .dmt => pure none
  | .gtf => allocated mem.mode (drmGtfMode s.hsize s.vsize s.rate false false)
  | .gtf2 =>
    if mem.mode then do
      let mode ← drmGtfMode s.hsize s.vsize s.rate false false
      let hsync ← ofOption mode.hsyncRate
      if drmGtf2Hbreak raw < hsync then
        allocated mem.again
          (drmGtfModeComplex s.hsize s.vsize s.rate false false (gtf2Curve raw))
      else pure (some mode)
    else pure none
  | .cvt => allocated mem.mode s.cvtMode

end StdSize

/-- drm_mode_std; none where it returns NULL. -/
def drmModeStd (t : StdTiming) (revision : ℤ) (probedModes : List Mode) (mem : StdMemory) :
    Checked (Option Mode) :=
  if badStdTiming t.hsize t.vfreqAspect then pure none
  else do
    let s := (t.decode revision).hdtv
    let known ← find s.sameMode probedModes
    if known.isSome then pure none
    else if s.hsize = 1366 ∧ s.vsize = 768 ∧ s.rate = 60 then s.hdtvMode mem
    else do
      let rb ← s.findRb raw mem.rbCopy
      if rb.isSome then pure rb
      else do
        let dmt ← s.findDmt false mem.copy
        if dmt.isSome then pure dmt else s.generate raw mem

end GfxDrm.Edid
