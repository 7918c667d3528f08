import GfxDrm.Lib.Checked
import Mathlib.Algebra.Order.Ring.Int

/-! The watermarks of the display's buffers (intel_pm.c). -/

namespace GfxDrm.Display
open CInt Arith

/-- The parameters of one buffer, which a table of the driver holds. -/
structure WatermarkParams where
  fifoSize : ℤ
  maxWm : ℤ
  defaultWm : ℤ
  guardSize : ℤ
  cachelineSize : ℤ
  cacheline : 2 ≤ cachelineSize ∧ cachelineSize < 0x40000000 := by decide
  fifo : 0 ≤ fifoSize * cachelineSize ∧ fifoSize * cachelineSize < 0x40000000 := by decide
  guard : 0 ≤ guardSize ∧ guardSize ≤ maxWm := by decide
  default : 0 ≤ defaultWm ∧ defaultWm ≤ maxWm := by decide
  max : maxWm < 0x40000000 := by decide

/-! The tables of the driver. -/

def pineviewDisplayWm : WatermarkParams :=
  { fifoSize := 512, maxWm := 0x1ff, defaultWm := 0x3f, guardSize := 10, cachelineSize := 64 }

def pineviewDisplayHplloffWm : WatermarkParams :=
  { fifoSize := 512, maxWm := 0x1ff, defaultWm := 0, guardSize := 10, cachelineSize := 64 }

def pineviewCursorWm : WatermarkParams :=
  { fifoSize := 64, maxWm := 0x3f, defaultWm := 0, guardSize := 5, cachelineSize := 64 }

def pineviewCursorHplloffWm : WatermarkParams :=
  { fifoSize := 64, maxWm := 0x3f, defaultWm := 0, guardSize := 5, cachelineSize := 64 }

def g4xWmInfo : WatermarkParams :=
  { fifoSize := 127, maxWm := 0x3f, defaultWm := 0x3f, guardSize := 2, cachelineSize := 64 }

def g4xCursorWmInfo : WatermarkParams :=
  { fifoSize := 64, maxWm := 32, defaultWm := 8, guardSize := 2, cachelineSize := 64 }

def valleyviewWmInfo : WatermarkParams :=
  { fifoSize := 255, maxWm := 0xff, defaultWm := 0xff, guardSize := 2, cachelineSize := 64 }

def valleyviewCursorWmInfo : WatermarkParams :=
  { fifoSize := 64, maxWm := 64, defaultWm := 8, guardSize := 2, cachelineSize := 64 }

def i965CursorWmInfo : WatermarkParams :=
  { fifoSize := 64, maxWm := 32, defaultWm := 8, guardSize := 2, cachelineSize := 64 }

def i945WmInfo : WatermarkParams :=
  { fifoSize := 127, maxWm := 0x3f, defaultWm := 1, guardSize := 2, cachelineSize := 64 }

def i915WmInfo : WatermarkParams :=
  { fifoSize := 95, maxWm := 0x3f, defaultWm := 1, guardSize := 2, cachelineSize := 64 }

def i855WmInfo : WatermarkParams :=
  { fifoSize := 127, maxWm := 0x3f, defaultWm := 1, guardSize := 2, cachelineSize := 32 }

def i830WmInfo : WatermarkParams :=
  { fifoSize := 95, maxWm := 0x3f, defaultWm := 1, guardSize := 2, cachelineSize := 32 }

def ironlakeDisplayWmInfo : WatermarkParams :=
  { fifoSize := 128, maxWm := 64, defaultWm := 8, guardSize := 2, cachelineSize := 64 }

def ironlakeCursorWmInfo : WatermarkParams :=
  { fifoSize := 32, maxWm := 16, defaultWm := 8, guardSize := 2, cachelineSize := 64 }

def ironlakeDisplaySrwmInfo : WatermarkParams :=
  { fifoSize := 512, maxWm := 0x1ff, defaultWm := 0x3f, guardSize := 2, cachelineSize := 64 }

def ironlakeCursorSrwmInfo : WatermarkParams :=
  { fifoSize := 64, maxWm := 0x3f, defaultWm := 8, guardSize := 2, cachelineSize := 64 }

def sandybridgeDisplayWmInfo : WatermarkParams :=
  { fifoSize := 128, maxWm := 0x7f, defaultWm := 8, guardSize := 2, cachelineSize := 64 }

def sandybridgeCursorWmInfo : WatermarkParams :=
  { fifoSize := 32, maxWm := 0x1f, defaultWm := 8, guardSize := 2, cachelineSize := 64 }

def sandybridgeDisplaySrwmInfo : WatermarkParams :=
  { fifoSize := 512, maxWm := 0x1ff, defaultWm := 0x3f, guardSize := 2, cachelineSize := 64 }

def sandybridgeCursorSrwmInfo : WatermarkParams :=
  { fifoSize := 64, maxWm := 0x3f, defaultWm := 8, guardSize := 2, cachelineSize := 64 }

/-- The mode of a crtc and the bytes of a pixel, which are positive. -/
structure ScanMode where
  clock : ℤ
  htotal : ℤ
  hdisplay : ℤ
  pixelSize : ℤ
  clock_pos : 1 ≤ clock ∧ clock < 0x80000000 := by decide
  htotal_pos : 1 ≤ htotal ∧ htotal < 0x80000000 := by decide
  hdisplay_pos : 1 ≤ hdisplay ∧ hdisplay < 0x80000000 := by decide
  pixelSize_pos : 1 ≤ pixelSize ∧ pixelSize < 0x80000000 := by decide

/-- A latency in nanoseconds. -/
structure Latency where
  ns : ℤ
  range : 0 ≤ ns ∧ ns < 0x80000000 := by decide

/-- DIV_ROUND_UP with an `unsigned long` divisor. -/
def divRoundUp (A : Arith) (n d : ℤ) : Option ℤ := do quot (← A.ulong (n + d - 1)) d

/-- `if (wm > max_wm) wm = max_wm`. -/
def capWm (p : WatermarkParams) (wm : ℤ) : ℤ := if p.maxWm < wm then p.maxWm else wm

def intelCalculateWm (A : Arith) (clockInKhz : ℤ) (wm : WatermarkParams)
    (fifoSize pixelSize latencyNs : ℤ) : Option ℤ := do
  let bytes ← A.ulong (clockInKhz / 1000 * pixelSize)
  let product ← A.ulong (bytes * latencyNs)
  let entriesRequired ← A.long (product / 1000)
  let entriesRequired ← A.long (← divRoundUp A entriesRequired wm.cachelineSize)
  let wmSize ← A.long (fifoSize - (entriesRequired + wm.guardSize))
  let wmSize := capWm wm wmSize
  some (if wmSize ≤ 0 then wm.defaultWm else wmSize)

/-- `((clock * pixel_size / 1000) * latency_ns) / 1000`. -/
def smallBuffer (A : Arith) (m : ScanMode) (latencyNs : ℤ) : Option ℤ := do
  let bytes ← A.int (m.clock * m.pixelSize)
  let product ← A.int (bytes.tdiv 1000 * latencyNs)
  some (product.tdiv 1000)

/-- `(htotal * 1000) / clock`. -/
def lineTimeUs (A : Arith) (m : ScanMode) : Option ℤ := do
  quot (← A.int (m.htotal * 1000)) m.clock

/-- What is added for the lines that do not fit the buffer. -/
def addTlbMiss (A : Arith) (p : WatermarkParams) (m : ScanMode) (entries : ℤ) : Option ℤ := do
  let bytes ← A.ulong (p.fifoSize * p.cachelineSize)
  let row ← A.int (m.hdisplay * 8)
  let tlbMiss ← A.int (bytes - row)
  if 0 < tlbMiss then A.int (entries + tlbMiss) else some entries

/-- The entries in cache lines and the guard. -/
def wmLevel (A : Arith) (p : WatermarkParams) (entries : ℤ) : Option ℤ := do
  let lines ← A.int (← divRoundUp A entries p.cachelineSize)
  A.int (lines + p.guardSize)

/-- What a plane is to be programmed with: whether it is on, and the two watermarks. -/
structure PlaneWm where
  enabled : Bool
  planeWm : ℤ
  cursorWm : ℤ
  deriving DecidableEq, Repr

def g4xComputeWm0 (A : Arith) (active : Bool) (m : ScanMode) (display : WatermarkParams)
    (displayLatencyNs : ℤ) (cursor : WatermarkParams) (cursorLatencyNs : ℤ) : Option PlaneWm :=
  if active then do
    -- the small buffer method for the plane
    let entries ← addTlbMiss A display m (← smallBuffer A m displayLatencyNs)
    let planeWm ← wmLevel A display entries
    -- the large buffer method for the cursor
    let lineTime ← lineTimeUs A m
    let sum ← A.int ((← quot cursorLatencyNs lineTime) + 1000)
    let entries ← A.int (sum.tdiv 1000 * 64)
    let entries ← A.int (entries * m.pixelSize)
    let entries ← addTlbMiss A cursor m entries
    let cursorWm ← wmLevel A cursor entries
    some ⟨true, capWm display planeWm, capWm cursor cursorWm⟩
  else some ⟨false, display.guardSize, cursor.guardSize⟩

/-- The comparisons are of `unsigned long`. -/
def g4xCheckSrwm (displayWm cursorWm : ℤ) (display cursor : WatermarkParams) : Bool :=
  if display.maxWm < u64 displayWm then false
  else if cursor.maxWm < u64 cursorWm then false
  else decide ¬ (displayWm = 0 ∧ cursorWm = 0)

def g4xComputeSrwm (A : Arith) (m : ScanMode) (latencyNs : ℤ) (display cursor : WatermarkParams) :
    Option PlaneWm :=
  if latencyNs = 0 then some ⟨false, 0, 0⟩
  else do
    let lineTime ← A.ulong (← lineTimeUs A m)
    let sum ← A.ulong ((← quot latencyNs lineTime) + 1000)
    let lineCount ← A.int (sum / 1000)
    let lineSize ← A.int (m.hdisplay * m.pixelSize)
    let small ← smallBuffer A m latencyNs
    let large ← A.int (lineCount * lineSize)
    let displayWm ← wmLevel A display (min small large)
    let entries ← A.int (lineCount * m.pixelSize)
    let entries ← A.int (entries * 64)
    let cursorWm ← wmLevel A cursor entries
    some ⟨g4xCheckSrwm displayWm cursorWm display cursor, displayWm, cursorWm⟩

/-- A precision and a drain latency of it. -/
structure Drain where
  precMult : ℤ
  dl : ℤ
  deriving DecidableEq, Repr

/-- DRAIN_LATENCY_PRECISION_32 or _16, and the latency for these entries. -/
def drain (entries : ℤ) : Option Drain := do
  let precMult := if 256 < entries then 32 else 16
  some ⟨precMult, ← quot (64 * precMult * 4) entries⟩

/-- The plane's and the cursor's; none within for a crtc that is not active. -/
def vlvComputeDrainLatency (A : Arith) (active : Bool) (m : ScanMode) :
    Option (Option (Drain × Drain)) :=
  if active then do
    let plane ← drain (← A.int (m.clock.tdiv 1000 * m.pixelSize))
    let cursor ← drain (← A.int (m.clock.tdiv 1000 * 4))
    some (some (plane, cursor))
  else some none

/-! ### What fits -/

/-- The product of the small buffer method fits an `int`. -/
structure SmallFits (m : ScanMode) (latency : Latency) : Prop where
  bytes : m.clock * m.pixelSize < 0x80000000
  product : m.clock * m.pixelSize / 1000 * latency.ns < 0x80000000

/-- The time of a line fits an `int` and is at least one microsecond. -/
structure LineFits (m : ScanMode) : Prop where
  total : m.htotal * 1000 < 0x80000000
  clock : m.clock ≤ m.htotal * 1000

/-- The entries of the small buffer method. -/
def smallEntries (m : ScanMode) (latency : Latency) : ℤ :=
  m.clock * m.pixelSize / 1000 * latency.ns / 1000

/-- The lines that are scanned within the latency. -/
def lineCount (m : ScanMode) (latency : Latency) : ℤ :=
  (latency.ns / (m.htotal * 1000 / m.clock) + 1000) / 1000

/-- How much of the buffer the lines of a row leave. -/
def tlbMiss (m : ScanMode) (p : WatermarkParams) : ℤ :=
  max 0 (p.fifoSize * p.cachelineSize - m.hdisplay * 8)

section Exact
variable {m : ScanMode} {p : WatermarkParams} {latency : Latency} {entries : ℤ} {Q : ℤ → Prop}

theorem runs_divRoundUp {n d : ℤ} (hn : 0 ≤ n) (hn' : n < 0x4000000000000000)
    (hd : 0 < d ∧ d < 0x40000000) :
    Runs (divRoundUp exact n d) Q ↔ Q ((n + d - 1) / d) := by
  have hsum : IsUlong (n + d - 1) := ⟨by omega, by omega⟩
  have htdiv : (n + d - 1).tdiv d = (n + d - 1) / d := Int.tdiv_eq_ediv_of_nonneg hsum.1
  simp only [divRoundUp, runs_bind, runs_ulong, runs_quot, htdiv, and_iff_right hsum,
    and_iff_right (ne_of_gt hd.1)]

theorem isInt_iff {x : ℤ} (h : 0 ≤ x) : IsInt x ↔ x < 0x80000000 :=
  and_iff_right (by omega)

theorem runs_smallBuffer :
    Runs (smallBuffer exact m latency.ns) Q ↔
      SmallFits m latency ∧ Q (smallEntries m latency) := by
  have hbytes : 0 ≤ m.clock * m.pixelSize :=
    Int.mul_nonneg (by have := m.clock_pos; omega) (by have := m.pixelSize_pos; omega)
  have hproduct : 0 ≤ m.clock * m.pixelSize / 1000 * latency.ns :=
    Int.mul_nonneg (Int.ediv_nonneg hbytes (by decide)) latency.range.1
  simp only [smallBuffer, runs_bind, runs_int, runs_some, Int.tdiv_eq_ediv_of_nonneg hbytes,
    Int.tdiv_eq_ediv_of_nonneg hproduct, isInt_iff hbytes, isInt_iff hproduct]
  constructor
  · intro h
    exact ⟨⟨h.1, h.2.1⟩, h.2.2⟩
  · intro h
    exact ⟨h.1.bytes, h.1.product, h.2⟩

theorem smallEntries_range (h : SmallFits m latency) :
    0 ≤ smallEntries m latency ∧ smallEntries m latency < 0x300000 := by
  have hc := m.clock_pos
  have hp := m.pixelSize_pos
  have hbytes : 0 ≤ m.clock * m.pixelSize := Int.mul_nonneg (by omega) (by omega)
  have hproduct : 0 ≤ m.clock * m.pixelSize / 1000 * latency.ns :=
    Int.mul_nonneg (Int.ediv_nonneg hbytes (by decide)) latency.range.1
  have := h.product
  rw [smallEntries]
  omega

theorem runs_lineTimeUs :
    Runs (lineTimeUs exact m) Q ↔ m.htotal * 1000 < 0x80000000 ∧ Q (m.htotal * 1000 / m.clock) := by
  have ht := m.htotal_pos
  have hc := m.clock_pos
  have hnonneg : 0 ≤ m.htotal * 1000 := by omega
  simp only [lineTimeUs, runs_bind, runs_int, runs_quot, isInt_iff hnonneg,
    Int.tdiv_eq_ediv_of_nonneg hnonneg, and_iff_right (show m.clock ≠ 0 by omega)]

theorem runs_addTlbMiss (h : 0 ≤ entries) (h' : entries < 0x80000000) :
    Runs (addTlbMiss exact p m entries) Q ↔
      m.hdisplay * 8 < 0x80000000 ∧ entries + tlbMiss m p < 0x80000000 ∧
        Q (entries + tlbMiss m p) := by
  have hm := m.hdisplay_pos
  have hp := p.fifo
  have hfifo : IsUlong (p.fifoSize * p.cachelineSize) := ⟨hp.1, by omega⟩
  have hrow : 0 ≤ m.hdisplay * 8 := by omega
  simp only [addTlbMiss, runs_bind, runs_ulong, runs_int, and_iff_right hfifo, isInt_iff hrow]
  refine and_congr_right fun hlt => ?_
  have hmiss : IsInt (p.fifoSize * p.cachelineSize - m.hdisplay * 8) := ⟨by omega, by omega⟩
  rw [and_iff_right hmiss, tlbMiss]
  by_cases hpos : 0 < p.fifoSize * p.cachelineSize - m.hdisplay * 8
  · rw [if_pos hpos, runs_int, isInt_iff (by omega), max_eq_right hpos.le]
  · rw [if_neg hpos, runs_some, max_eq_left (by omega), Int.add_zero, and_iff_right h']

theorem tlbMiss_range (m : ScanMode) (p : WatermarkParams) :
    0 ≤ tlbMiss m p ∧ tlbMiss m p < 0x40000000 := by
  have hm := m.hdisplay_pos
  have hp := p.fifo
  unfold tlbMiss
  omega

/-- The level of a number of entries. -/
def level (p : WatermarkParams) (entries : ℤ) : ℤ :=
  (entries + p.cachelineSize - 1) / p.cachelineSize + p.guardSize

theorem level_range (h : 0 ≤ entries) (h' : entries < 0x80000000) :
    p.guardSize ≤ level p entries ∧ level p entries < 0x80000000 := by
  have hc := p.cacheline
  have hg := p.guard
  have hmax := p.max
  have hlow : 0 ≤ (entries + p.cachelineSize - 1) / p.cachelineSize :=
    Int.ediv_nonneg (by omega) (by omega)
  -- A cache line holds two entries or more.
  have hhigh : (entries + p.cachelineSize - 1) / p.cachelineSize ≤ 0x40000000 := by
    apply Int.ediv_le_of_le_mul (by omega)
    omega
  rw [level]
  omega

theorem runs_wmLevel (h : 0 ≤ entries) (h' : entries < 0x80000000) :
    Runs (wmLevel exact p entries) Q ↔ Q (level p entries) := by
  have hc := p.cacheline
  have hg := p.guard
  have hrange := level_range h h' (p := p)
  have hint : IsInt ((entries + p.cachelineSize - 1) / p.cachelineSize) := by
    rw [level] at hrange
    exact ⟨by omega, by omega⟩
  have hlevel : IsInt (level p entries) := ⟨by omega, hrange.2⟩
  rw [level] at hlevel
  simp only [wmLevel, runs_bind, runs_int, runs_divRoundUp h (by omega)
    (show 0 < p.cachelineSize ∧ p.cachelineSize < 0x40000000 from ⟨by omega, hc.2⟩),
    and_iff_right hint, and_iff_right hlevel, level]

/-- The line takes a microsecond or more where the division below it does not trap. -/
theorem lineTime_ne_zero_iff :
    m.htotal * 1000 / m.clock ≠ 0 ↔ m.clock ≤ m.htotal * 1000 := by
  have ht := m.htotal_pos
  have hc := m.clock_pos
  have hnonneg : 0 ≤ m.htotal * 1000 / m.clock := Int.ediv_nonneg (by omega) (by omega)
  have hone : 1 ≤ m.htotal * 1000 / m.clock ↔ 1 * m.clock ≤ m.htotal * 1000 :=
    Int.le_ediv_iff_mul_le (by omega)
  omega

theorem lineTime_range (h : LineFits m) :
    1 ≤ m.htotal * 1000 / m.clock ∧ m.htotal * 1000 / m.clock < 0x80000000 := by
  have ht := m.htotal_pos
  have hc := m.clock_pos
  have hne := lineTime_ne_zero_iff.mpr h.clock
  have hnonneg : 0 ≤ m.htotal * 1000 / m.clock := Int.ediv_nonneg (by omega) (by omega)
  have hle : m.htotal * 1000 / m.clock ≤ m.htotal * 1000 := Int.ediv_le_self _ (by omega)
  have := h.total
  omega

theorem quotient_range (h : LineFits m) (latency : Latency) :
    0 ≤ latency.ns / (m.htotal * 1000 / m.clock) ∧
      latency.ns / (m.htotal * 1000 / m.clock) < 0x80000000 := by
  have hl := latency.range
  have hline := lineTime_range h
  have hle := Int.ediv_le_self (m.htotal * 1000 / m.clock) hl.1
  exact ⟨Int.ediv_nonneg hl.1 (by omega), by omega⟩

theorem lineCount_range (h : LineFits m) (latency : Latency) :
    0 ≤ lineCount m latency ∧ lineCount m latency < 0x300000 := by
  have := quotient_range h latency
  rw [lineCount]
  omega

end Exact

/-! ### The four computations -/

/-- The computation comes to an end exactly where `Fits` holds, and what the machine computes is
then the same, of which `Q` holds. -/
def Computes {α : Type} (f : Arith → Option α) (Fits : Prop) (Q : α → Prop) : Prop :=
  ((∃ r, f exact = some r) ↔ Fits) ∧ ∀ r, f exact = some r → f machine = some r ∧ Q r

theorem Computes.of_runs {α : Type} {f : Arith → Option α} {Fits : Prop} {Q : α → Prop} {v : α}
    (hagrees : Agrees f) (hruns : ∀ R : α → Prop, Runs (f exact) R ↔ Fits ∧ R v)
    (hQ : Fits → Q v) : Computes f Fits Q := by
  constructor
  · have h := hruns fun _ => True
    simpa only [Runs, and_true] using h
  · intro r hr
    obtain ⟨hfits, rfl⟩ := (hruns (· = r)).mp ⟨r, hr, rfl⟩
    exact ⟨hagrees _ hr, hQ hfits⟩

section Compute
variable {m : ScanMode} {p display cursor : WatermarkParams} {latency displayLatency
  cursorLatency : Latency}

theorem agrees_divRoundUp (n d : ℤ) : Agrees fun A => divRoundUp A n d :=
  (agrees_ulong _).bind fun _ => agrees_const _

theorem agrees_smallBuffer (m : ScanMode) (latencyNs : ℤ) :
    Agrees fun A => smallBuffer A m latencyNs :=
  (agrees_int _).bind fun _ => (agrees_int _).bind fun _ => agrees_const _

theorem agrees_lineTimeUs (m : ScanMode) : Agrees fun A => lineTimeUs A m :=
  (agrees_int _).bind fun _ => agrees_const _

theorem agrees_addTlbMiss (p : WatermarkParams) (m : ScanMode) (entries : ℤ) :
    Agrees fun A => addTlbMiss A p m entries :=
  (agrees_ulong _).bind fun _ => (agrees_int _).bind fun _ => (agrees_int _).bind fun _ =>
    (agrees_int _).ite (agrees_const _)

theorem agrees_wmLevel (p : WatermarkParams) (entries : ℤ) :
    Agrees fun A => wmLevel A p entries :=
  (agrees_divRoundUp _ _).bind fun _ => (agrees_int _).bind fun _ => agrees_int _

theorem capWm_range {wm : ℤ} (h : p.guardSize ≤ wm) :
    p.guardSize ≤ capWm p wm ∧ capWm p wm ≤ p.maxWm := by
  have := p.guard
  unfold capWm
  split <;> omega

/-- What has to fit for the first watermarks. -/
structure Wm0Fits (m : ScanMode) (displayLatency : Latency) (cursor : WatermarkParams)
    (cursorLatency : Latency) : Prop where
  small : SmallFits m displayLatency
  row : m.hdisplay * 8 < 0x80000000
  line : LineFits m
  lines : cursorLatency.ns / (m.htotal * 1000 / m.clock) + 1000 < 0x80000000
  entries : lineCount m cursorLatency * 64 * m.pixelSize + tlbMiss m cursor < 0x80000000

theorem agrees_g4xComputeWm0 (active : Bool) (displayLatencyNs cursorLatencyNs : ℤ) :
    Agrees fun A =>
      g4xComputeWm0 A active m display displayLatencyNs cursor cursorLatencyNs := by
  refine Agrees.ite ?_ (agrees_const _)
  refine (agrees_smallBuffer _ _).bind fun _ => (agrees_addTlbMiss _ _ _).bind fun _ => ?_
  refine (agrees_wmLevel _ _).bind fun _ => (agrees_lineTimeUs _).bind fun _ => ?_
  refine (agrees_const _).bind fun _ => (agrees_int _).bind fun _ => (agrees_int _).bind fun _ => ?_
  refine (agrees_int _).bind fun _ => (agrees_addTlbMiss _ _ _).bind fun _ => ?_
  exact (agrees_wmLevel _ _).bind fun _ => agrees_const _

theorem runs_g4xComputeWm0 (Q : PlaneWm → Prop) :
    Runs (g4xComputeWm0 exact true m display displayLatency.ns cursor cursorLatency.ns) Q ↔
      Wm0Fits m displayLatency cursor cursorLatency ∧
        Q ⟨true, capWm display (level display (smallEntries m displayLatency + tlbMiss m display)),
          capWm cursor (level cursor
            (lineCount m cursorLatency * 64 * m.pixelSize + tlbMiss m cursor))⟩ := by
  have hfits (P : Prop) : Wm0Fits m displayLatency cursor cursorLatency ∧ P ↔
      SmallFits m displayLatency ∧ m.hdisplay * 8 < 0x80000000 ∧ m.htotal * 1000 < 0x80000000 ∧
        m.clock ≤ m.htotal * 1000 ∧
        cursorLatency.ns / (m.htotal * 1000 / m.clock) + 1000 < 0x80000000 ∧
        lineCount m cursorLatency * 64 * m.pixelSize < 0x80000000 ∧
        lineCount m cursorLatency * 64 * m.pixelSize + tlbMiss m cursor < 0x80000000 ∧ P := by
    have hmiss := (tlbMiss_range m cursor).1
    constructor
    · rintro ⟨⟨h1, h2, ⟨h3, h4⟩, h5, h6⟩, hP⟩
      exact ⟨h1, h2, h3, h4, h5, by omega, h6, hP⟩
    · rintro ⟨h1, h2, h3, h4, h5, -, h6, hP⟩
      exact ⟨⟨h1, h2, ⟨h3, h4⟩, h5, h6⟩, hP⟩
  rw [hfits, g4xComputeWm0, if_pos rfl, runs_bind, runs_smallBuffer]
  refine and_congr_right fun hsmall => ?_
  have hentries := smallEntries_range hsmall
  have hmiss := tlbMiss_range m display
  rw [runs_bind, runs_addTlbMiss hentries.1 (by omega)]
  refine and_congr_right fun hrow => ?_
  rw [and_iff_right (by omega), runs_bind, runs_wmLevel (by omega) (by omega), runs_bind,
    runs_lineTimeUs]
  refine and_congr_right fun htotal => ?_
  rw [runs_bind, runs_quot, lineTime_ne_zero_iff]
  refine and_congr_right fun hclock => ?_
  have hline : LineFits m := ⟨htotal, hclock⟩
  have hquot := quotient_range hline cursorLatency
  have hcount := lineCount_range hline cursorLatency
  rw [Int.tdiv_eq_ediv_of_nonneg cursorLatency.range.1, runs_bind, runs_int, isInt_iff (by omega)]
  refine and_congr_right fun hlines => ?_
  rw [Int.tdiv_eq_ediv_of_nonneg (by omega), ← lineCount, runs_bind, runs_int,
    and_iff_right ⟨by omega, by omega⟩, runs_bind, runs_int]
  have hbytes : 0 ≤ lineCount m cursorLatency * 64 * m.pixelSize :=
    Int.mul_nonneg (by omega) (by have := m.pixelSize_pos; omega)
  rw [isInt_iff hbytes]
  refine and_congr_right fun hlt => ?_
  have hmiss' := tlbMiss_range m cursor
  rw [runs_bind, runs_addTlbMiss hbytes hlt, and_iff_right hrow]
  refine and_congr_right fun hsum => ?_
  rw [runs_bind, runs_wmLevel (by omega) hsum, runs_some]

/-- From the guard to the largest level. -/
structure PlaneWm.InLimits (display cursor : WatermarkParams) (r : PlaneWm) : Prop where
  plane : display.guardSize ≤ r.planeWm ∧ r.planeWm ≤ display.maxWm
  cursor : cursor.guardSize ≤ r.cursorWm ∧ r.cursorWm ≤ cursor.maxWm

theorem g4xComputeWm0_computes (active : Bool) :
    Computes (fun A => g4xComputeWm0 A active m display displayLatency.ns cursor cursorLatency.ns)
      (active = true → Wm0Fits m displayLatency cursor cursorLatency)
      fun r => r.enabled = active ∧ r.InLimits display cursor := by
  cases active with
  | false =>
    refine Computes.of_runs (agrees_g4xComputeWm0 false _ _) (v := ⟨false, display.guardSize,
      cursor.guardSize⟩) ?_ ?_
    · intro R
      rw [g4xComputeWm0, if_neg (by decide), runs_some]
      exact (and_iff_right fun h => absurd h Bool.false_ne_true).symm
    · intro _
      exact ⟨rfl, ⟨le_rfl, display.guard.2⟩, le_rfl, cursor.guard.2⟩
  | true =>
    refine Computes.of_runs (agrees_g4xComputeWm0 true _ _) (fun R =>
      (runs_g4xComputeWm0 R).trans (and_congr_left' (imp_iff_right rfl).symm)) ?_
    intro h
    have hfits := h rfl
    have hentries := smallEntries_range hfits.small
    have hcount := lineCount_range hfits.line cursorLatency
    have hmiss := tlbMiss_range m display
    have hmiss' := (tlbMiss_range m cursor).1
    have hbytes : 0 ≤ lineCount m cursorLatency * 64 * m.pixelSize :=
      Int.mul_nonneg (by omega) (by have := m.pixelSize_pos; omega)
    refine ⟨rfl, capWm_range (level_range ?_ ?_).1, capWm_range (level_range ?_ hfits.entries).1⟩
    · omega
    · omega
    · omega

/-- What has to fit for the self-refresh watermarks. -/
structure SrwmFits (m : ScanMode) (latency : Latency) : Prop where
  small : SmallFits m latency
  line : LineFits m
  row : m.hdisplay * m.pixelSize < 0x80000000
  large : lineCount m latency * (m.hdisplay * m.pixelSize) < 0x80000000
  cursor : lineCount m latency * m.pixelSize * 64 < 0x80000000

theorem agrees_g4xComputeSrwm (latencyNs : ℤ) :
    Agrees fun A => g4xComputeSrwm A m latencyNs display cursor := by
  refine Agrees.ite (agrees_const _) ?_
  refine (agrees_lineTimeUs _).bind fun _ => (agrees_ulong _).bind fun _ => ?_
  refine (agrees_const _).bind fun _ => (agrees_ulong _).bind fun _ => ?_
  refine (agrees_int _).bind fun _ => (agrees_int _).bind fun _ => ?_
  refine (agrees_smallBuffer _ _).bind fun _ => (agrees_int _).bind fun _ => ?_
  refine (agrees_wmLevel _ _).bind fun _ => (agrees_int _).bind fun _ => ?_
  exact (agrees_int _).bind fun _ => (agrees_wmLevel _ _).bind fun _ => agrees_const _

/-- The entries of the plane: the fewer of the two methods. -/
def planeEntries (m : ScanMode) (latency : Latency) : ℤ :=
  min (smallEntries m latency) (lineCount m latency * (m.hdisplay * m.pixelSize))

theorem planeEntries_range (hsmall : SmallFits m latency) (hline : LineFits m) :
    0 ≤ planeEntries m latency ∧ planeEntries m latency < 0x80000000 := by
  have hpix := m.pixelSize_pos
  have hdis := m.hdisplay_pos
  have hentries := smallEntries_range hsmall
  have hcount := lineCount_range hline latency
  have hlarge : 0 ≤ lineCount m latency * (m.hdisplay * m.pixelSize) :=
    Int.mul_nonneg hcount.1 (Int.mul_nonneg (by omega) (by omega))
  rw [planeEntries]
  omega

theorem runs_g4xComputeSrwm (hlat : latency.ns ≠ 0) (Q : PlaneWm → Prop) :
    Runs (g4xComputeSrwm exact m latency.ns display cursor) Q ↔ SrwmFits m latency ∧
      Q ⟨g4xCheckSrwm (level display (planeEntries m latency))
          (level cursor (lineCount m latency * m.pixelSize * 64)) display cursor,
        level display (planeEntries m latency),
        level cursor (lineCount m latency * m.pixelSize * 64)⟩ := by
  have hpix := m.pixelSize_pos
  have hdis := m.hdisplay_pos
  have hfits (P : Prop) : SrwmFits m latency ∧ P ↔
      m.htotal * 1000 < 0x80000000 ∧ m.clock ≤ m.htotal * 1000 ∧
        m.hdisplay * m.pixelSize < 0x80000000 ∧ SmallFits m latency ∧
        lineCount m latency * (m.hdisplay * m.pixelSize) < 0x80000000 ∧
        lineCount m latency * m.pixelSize * 64 < 0x80000000 ∧ P := by
    constructor
    · rintro ⟨⟨h1, ⟨h2, h3⟩, h4, h5, h6⟩, hP⟩
      exact ⟨h2, h3, h4, h1, h5, h6, hP⟩
    · rintro ⟨h2, h3, h4, h1, h5, h6, hP⟩
      exact ⟨⟨h1, ⟨h2, h3⟩, h4, h5, h6⟩, hP⟩
  rw [hfits, g4xComputeSrwm, if_neg hlat, runs_bind, runs_lineTimeUs]
  refine and_congr_right fun htotal => ?_
  have hnonneg : 0 ≤ m.htotal * 1000 / m.clock := by
    have := m.htotal_pos
    have := m.clock_pos
    exact Int.ediv_nonneg (by omega) (by omega)
  have hle : m.htotal * 1000 / m.clock ≤ m.htotal * 1000 :=
    Int.ediv_le_self _ (by have := m.htotal_pos; omega)
  rw [runs_bind, runs_ulong, and_iff_right ⟨hnonneg, by omega⟩, runs_bind, runs_quot,
    lineTime_ne_zero_iff]
  refine and_congr_right fun hclock => ?_
  have hline : LineFits m := ⟨htotal, hclock⟩
  have hquot := quotient_range hline latency
  have hcount := lineCount_range hline latency
  have hrow : 0 ≤ m.hdisplay * m.pixelSize := Int.mul_nonneg (by omega) (by omega)
  rw [Int.tdiv_eq_ediv_of_nonneg latency.range.1, runs_bind, runs_ulong,
    and_iff_right ⟨by omega, by omega⟩, ← lineCount, runs_bind, runs_int,
    and_iff_right ⟨by omega, by omega⟩, runs_bind, runs_int, isInt_iff hrow]
  refine and_congr_right fun _ => ?_
  rw [runs_bind, runs_smallBuffer]
  refine and_congr_right fun hsmall => ?_
  have hlarge : 0 ≤ lineCount m latency * (m.hdisplay * m.pixelSize) :=
    Int.mul_nonneg hcount.1 hrow
  rw [runs_bind, runs_int, isInt_iff hlarge]
  refine and_congr_right fun hlt => ?_
  have hbytes : 0 ≤ lineCount m latency * m.pixelSize := Int.mul_nonneg hcount.1 (by omega)
  have hplane := planeEntries_range hsmall hline
  rw [← planeEntries, runs_bind, runs_wmLevel hplane.1 hplane.2, runs_bind, runs_int,
    isInt_iff hbytes, runs_bind, runs_int, isInt_iff (by omega)]
  constructor
  · rintro ⟨-, hcur, h⟩
    rw [runs_bind, runs_wmLevel (by omega) hcur, runs_some] at h
    exact ⟨hcur, h⟩
  · rintro ⟨hcur, h⟩
    refine ⟨by omega, hcur, ?_⟩
    rw [runs_bind, runs_wmLevel (by omega) hcur, runs_some]
    exact h

/-- The self-refresh is on exactly where both levels fit their registers and one is not zero. -/
structure PlaneWm.Checked (latency : Latency) (display cursor : WatermarkParams) (r : PlaneWm) :
    Prop where
  enabled : r.enabled = true ↔ latency.ns ≠ 0 ∧ r.planeWm ≤ display.maxWm ∧
    r.cursorWm ≤ cursor.maxWm ∧ ¬ (r.planeWm = 0 ∧ r.cursorWm = 0)
  guard : latency.ns ≠ 0 → display.guardSize ≤ r.planeWm ∧ cursor.guardSize ≤ r.cursorWm

theorem g4xCheckSrwm_iff {displayWm cursorWm : ℤ}
    (hd : 0 ≤ displayWm ∧ displayWm < 0x80000000) (hc : 0 ≤ cursorWm ∧ cursorWm < 0x80000000) :
    g4xCheckSrwm displayWm cursorWm display cursor = true ↔ displayWm ≤ display.maxWm ∧
      cursorWm ≤ cursor.maxWm ∧ ¬ (displayWm = 0 ∧ cursorWm = 0) := by
  have hd' : u64 displayWm = displayWm := Int.emod_eq_of_lt hd.1 (by omega)
  have hc' : u64 cursorWm = cursorWm := Int.emod_eq_of_lt hc.1 (by omega)
  unfold g4xCheckSrwm
  split_ifs with h1 h2
  · exact iff_of_false (by decide) fun h => absurd h.1 (by omega)
  · exact iff_of_false (by decide) fun h => absurd h.2.1 (by omega)
  · constructor
    · intro h
      exact ⟨by omega, by omega, of_decide_eq_true h⟩
    · intro h
      exact decide_eq_true h.2.2

theorem g4xComputeSrwm_computes :
    Computes (fun A => g4xComputeSrwm A m latency.ns display cursor)
      (latency.ns ≠ 0 → SrwmFits m latency) fun r => r.Checked latency display cursor := by
  by_cases hlat : latency.ns = 0
  · refine Computes.of_runs (agrees_g4xComputeSrwm _) (v := ⟨false, 0, 0⟩) ?_ ?_
    · intro R
      rw [g4xComputeSrwm, if_pos hlat, runs_some]
      exact (and_iff_right fun h => absurd hlat h).symm
    · intro _
      exact ⟨iff_of_false (by decide) fun h => h.1 hlat, fun h => absurd hlat h⟩
  · refine Computes.of_runs (agrees_g4xComputeSrwm _) (fun R =>
      (runs_g4xComputeSrwm hlat R).trans (and_congr_left' (imp_iff_right hlat).symm)) ?_
    intro h
    have hfits := h hlat
    have hplane := planeEntries_range hfits.small hfits.line
    have hcount := lineCount_range hfits.line latency
    have hbytes : 0 ≤ lineCount m latency * m.pixelSize :=
      Int.mul_nonneg hcount.1 (by have := m.pixelSize_pos; omega)
    have hdisplay := level_range hplane.1 hplane.2 (p := display)
    have hcursor := level_range (by omega) hfits.cursor (p := cursor)
    have hg := display.guard.1
    have hg' := cursor.guard.1
    refine ⟨?_, fun _ => ⟨hdisplay.1, hcursor.1⟩⟩
    rw [and_iff_right hlat]
    exact g4xCheckSrwm_iff ⟨by omega, hdisplay.2⟩ ⟨by omega, hcursor.2⟩

/-- What has to fit for the drain latencies, which are taken of whole MHz. -/
structure DrainFits (m : ScanMode) : Prop where
  mhz : 1000 ≤ m.clock
  entries : m.clock / 1000 * m.pixelSize < 0x80000000

/-- The drain latency is the quotient of its precision, rounded down. -/
structure Drain.Of (entries : ℤ) (d : Drain) : Prop where
  precMult : d.precMult = if 256 < entries then 32 else 16
  range : 0 ≤ d.dl ∧ d.dl ≤ 4096
  quotient : d.dl * entries ≤ 256 * d.precMult ∧ 256 * d.precMult < (d.dl + 1) * entries

theorem runs_drain {entries : ℤ} (h : 0 < entries) :
    ∃ d : Drain, d.Of entries ∧ ∀ R : Drain → Prop, Runs (drain entries) R ↔ R d := by
  let mult : ℤ := if 256 < entries then 32 else 16
  have hmult : mult = 16 ∨ mult = 32 ∧ 256 < entries := by
    simp only [mult]
    split_ifs with hlt
    · exact Or.inr ⟨rfl, hlt⟩
    · exact Or.inl rfl
  have heq : 64 * mult * 4 = 256 * mult := by omega
  have htdiv : (64 * mult * 4).tdiv entries = 256 * mult / entries := by
    rw [heq, Int.tdiv_eq_ediv_of_nonneg (by omega)]
  refine ⟨⟨mult, 256 * mult / entries⟩, ⟨rfl, ⟨Int.ediv_nonneg (by omega) h.le, ?_⟩, ?_, ?_⟩, ?_⟩
  · apply Int.ediv_le_of_le_mul h
    omega
  · exact Int.ediv_mul_le _ h.ne'
  · exact Int.lt_ediv_add_one_mul_self _ h
  · intro R
    rw [drain, runs_bind, runs_quot, and_iff_right h.ne', runs_some]
    exact iff_of_eq (congrArg (fun x => R ⟨mult, x⟩) htdiv)

theorem agrees_vlvComputeDrainLatency (active : Bool) :
    Agrees fun A => vlvComputeDrainLatency A active m := by
  refine Agrees.ite ?_ (agrees_const _)
  refine (agrees_int _).bind fun _ => (agrees_const _).bind fun _ => ?_
  exact (agrees_int _).bind fun _ => (agrees_const _).bind fun _ => agrees_const _

/-- Both latencies are those of their entries, where the crtc is active. -/
def DrainsOf (m : ScanMode) (active : Bool) (r : Option (Drain × Drain)) : Prop :=
  r.isSome = active ∧ ∀ d, r = some d → d.1.Of (m.clock / 1000 * m.pixelSize) ∧
    d.2.Of (m.clock / 1000 * 4)

theorem vlvComputeDrainLatency_computes (active : Bool) :
    Computes (fun A => vlvComputeDrainLatency A active m) (active = true → DrainFits m)
      (DrainsOf m active) := by
  have hc := m.clock_pos
  have hp := m.pixelSize_pos
  cases active with
  | false =>
    refine Computes.of_runs (agrees_vlvComputeDrainLatency false) (v := none) ?_ ?_
    · intro R
      rw [vlvComputeDrainLatency, if_neg (by decide), runs_some]
      exact (and_iff_right fun h => absurd h Bool.false_ne_true).symm
    · intro _
      refine ⟨rfl, ?_⟩
      intro d h
      cases h
  | true =>
    by_cases hmhz : 1000 ≤ m.clock
    · have hpos : 0 < m.clock / 1000 * m.pixelSize := Int.mul_pos (by omega) (by omega)
      obtain ⟨plane, hplane, hruns⟩ := runs_drain hpos
      obtain ⟨cursor, hcursor, hruns'⟩ := runs_drain (show 0 < m.clock / 1000 * 4 by omega)
      have hint : IsInt (m.clock / 1000 * 4) := ⟨by omega, by omega⟩
      refine Computes.of_runs (agrees_vlvComputeDrainLatency true) (v := some (plane, cursor)) ?_ ?_
      · intro R
        rw [vlvComputeDrainLatency, if_pos rfl, Int.tdiv_eq_ediv_of_nonneg (by omega), runs_bind,
          runs_int, isInt_iff hpos.le, runs_bind, hruns, runs_bind, runs_int,
          and_iff_right hint, runs_bind, hruns', runs_some, imp_iff_right rfl]
        exact and_congr_left' ⟨fun h => ⟨hmhz, h⟩, fun h => h.entries⟩
      · intro _
        refine ⟨rfl, ?_⟩
        intro d hd
        cases hd
        exact ⟨hplane, hcursor⟩
    · -- The quotient of the clock is zero, and so is what is divided by.
      have hzero : m.clock.tdiv 1000 * m.pixelSize = 0 := by
        rw [Int.tdiv_eq_ediv_of_nonneg (by omega), Int.ediv_eq_zero_of_lt (by omega) (by omega),
          Int.zero_mul]
      have hnone : ∀ r, vlvComputeDrainLatency exact true m ≠ some r := by
        intro r hr
        have hruns : Runs (vlvComputeDrainLatency exact true m) fun _ => True := ⟨r, hr, trivial⟩
        rw [vlvComputeDrainLatency, if_pos rfl, hzero, runs_bind, runs_int, runs_bind, drain,
          runs_bind, runs_quot] at hruns
        exact hruns.2.1 rfl
      constructor
      · refine iff_of_false (fun h => h.elim hnone) ?_
        intro h
        exact hmhz (h rfl).mhz
      · intro r hr
        exact absurd hr (hnone r)

/-- The product of the level fits an `unsigned long`. -/
def CalculateFits (m : ScanMode) (latencyNs : ℤ) : Prop :=
  m.clock / 1000 * m.pixelSize * latencyNs < 0x10000000000000000

/-- A positive level or the default one, and no more than the largest. -/
structure WmLimits (p : WatermarkParams) (wm : ℤ) : Prop where
  low : wm = p.defaultWm ∨ 1 ≤ wm
  high : 0 ≤ wm ∧ wm ≤ p.maxWm

theorem agrees_intelCalculateWm (clockInKhz fifoSize pixelSize latencyNs : ℤ) :
    Agrees fun A => intelCalculateWm A clockInKhz p fifoSize pixelSize latencyNs := by
  refine (agrees_ulong _).bind fun _ => (agrees_ulong _).bind fun _ => ?_
  refine (agrees_long _).bind fun _ => (agrees_divRoundUp _ _).bind fun _ => ?_
  exact (agrees_long _).bind fun _ => (agrees_long _).bind fun _ => agrees_const _

theorem intelCalculateWm_computes {fifoSize latencyNs : ℤ} (hfifo : IsInt fifoSize)
    (hlat : IsUlong latencyNs) :
    Computes (fun A => intelCalculateWm A m.clock p fifoSize m.pixelSize latencyNs)
      (CalculateFits m latencyNs) (WmLimits p) := by
  have hc := m.clock_pos
  have hp := m.pixelSize_pos
  have hline := p.cacheline
  have hguard := p.guard
  have hdefault := p.default
  have hmax := p.max
  have hbytes : 0 ≤ m.clock / 1000 * m.pixelSize := Int.mul_nonneg (by omega) (by omega)
  have hbytes' : m.clock / 1000 * m.pixelSize ≤ 0x300000 * 0x80000000 :=
    Int.mul_le_mul (by omega) (by omega) (by omega) (by decide)
  have hproduct : 0 ≤ m.clock / 1000 * m.pixelSize * latencyNs := Int.mul_nonneg hbytes hlat.1
  let e := m.clock / 1000 * m.pixelSize * latencyNs / 1000
  let lines := (e + p.cachelineSize - 1) / p.cachelineSize
  let size := capWm p (fifoSize - (lines + p.guardSize))
  refine Computes.of_runs (agrees_intelCalculateWm _ _ _ _)
    (v := if size ≤ 0 then p.defaultWm else size) ?_ ?_
  · intro R
    rw [intelCalculateWm, runs_bind, runs_ulong, and_iff_right ⟨hbytes, by omega⟩, runs_bind,
      runs_ulong, IsUlong, and_iff_right hproduct]
    refine and_congr_right fun hlt => ?_
    have he : 0 ≤ e ∧ e < 0x80000000000000 := by
      omega
    have hlines : 0 ≤ lines ∧ lines < 0x100000000000000 := by
      have hle : lines ≤ e + p.cachelineSize - 1 := Int.ediv_le_self _ (by omega)
      exact ⟨Int.ediv_nonneg (by omega) (by omega), by omega⟩
    have hlong : IsLong (fifoSize - (lines + p.guardSize)) := by
      have := hfifo.1
      have := hfifo.2
      exact ⟨by omega, by omega⟩
    rw [runs_bind, runs_long, and_iff_right ⟨by omega, by omega⟩, runs_bind,
      runs_divRoundUp he.1 (by omega) ⟨by omega, by omega⟩, runs_bind, runs_long,
      and_iff_right ⟨by omega, by omega⟩, runs_bind, runs_long, and_iff_right hlong, runs_some]
  · intro _
    have hsize : size ≤ p.maxWm := by
      simp only [size, capWm]
      split_ifs <;> omega
    split_ifs with h
    · exact ⟨Or.inl rfl, hdefault⟩
    · exact ⟨Or.inr (by omega), by omega, hsize⟩

end Compute

/-- What the four computations do for every mode and every table: where the line takes a
microsecond or more and the products fit, no division traps, nothing overflows, and the levels
are within their limits. -/
theorem watermarks_computes (m : ScanMode) (p display cursor : WatermarkParams)
    (latency displayLatency cursorLatency : Latency) (active : Bool) {fifoSize latencyNs : ℤ}
    (hfifo : IsInt fifoSize) (hlat : IsUlong latencyNs) :
    Computes (fun A => intelCalculateWm A m.clock p fifoSize m.pixelSize latencyNs)
        (CalculateFits m latencyNs) (WmLimits p) ∧
      Computes
        (fun A => g4xComputeWm0 A active m display displayLatency.ns cursor cursorLatency.ns)
        (active = true → Wm0Fits m displayLatency cursor cursorLatency)
        (fun r => r.enabled = active ∧ r.InLimits display cursor) ∧
      Computes (fun A => g4xComputeSrwm A m latency.ns display cursor)
        (latency.ns ≠ 0 → SrwmFits m latency) (fun r => r.Checked latency display cursor) ∧
      Computes (fun A => vlvComputeDrainLatency A active m) (active = true → DrainFits m)
        (DrainsOf m active) :=
  ⟨intelCalculateWm_computes hfifo hlat, g4xComputeWm0_computes active, g4xComputeSrwm_computes,
    vlvComputeDrainLatency_computes active⟩

/-- 1920x1080 with 60 Hz. -/
def scan1080 : ScanMode := { clock := 148500, htotal := 2200, hdisplay := 1920, pixelSize := 4 }

theorem watermarks_computes_1080 :
    ∃ wm, intelCalculateWm machine 148500 i945WmInfo 127 4 5000 = some wm ∧
      WmLimits i945WmInfo wm := by
  have h := watermarks_computes scan1080 i945WmInfo g4xWmInfo g4xCursorWmInfo ⟨12000, by decide⟩
    ⟨5000, by decide⟩ ⟨5000, by decide⟩ true (show IsInt 127 by decide)
    (show IsUlong 5000 by decide)
  obtain ⟨wm, hwm⟩ := h.1.1.mpr (show (_ : ℤ) < _ by decide)
  exact ⟨wm, h.1.2 wm hwm⟩

/-- 2560x1440 with 60 Hz. -/
def scan1440 : ScanMode := { clock := 241500, htotal := 2720, hdisplay := 2560, pixelSize := 4 }

/-- A positive level is kept below the guard and the default, and a self-refresh level that is too
large is left as it is. -/
theorem watermarks_exceed :
    intelCalculateWm machine 240000 pineviewDisplayWm 512 4 33382 = some 1 ∧
      1 < pineviewDisplayWm.guardSize ∧ 1 < pineviewDisplayWm.defaultWm ∧
      g4xComputeSrwm machine scan1440 12000 g4xWmInfo g4xCursorWmInfo = some ⟨false, 184, 10⟩ ∧
      g4xWmInfo.maxWm < 184 := by
  decide +kernel

end GfxDrm.Display
