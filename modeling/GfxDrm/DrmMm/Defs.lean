import GfxDrm.Errno
import GfxDrm.Lib.Circular
import GfxDrm.Lib.Word

/-! The range manager of drm_mm.c. `unsigned long` has 64 bits; `BUG_ON` is `ASSERT`, which
release builds drop. -/

namespace GfxDrm
open Circular

/-- Where a `drm_mm_node` lives: inside the manager, or in a caller's object. -/
inductive NodeRef
  | head
  | block (n : ℕ)
  deriving DecidableEq, Repr

structure DrmMmNode where
  holeFollows : Bool := false
  scannedBlock : Bool := false
  scannedPreceedsHole : Bool := false
  allocated : Bool := false
  color : ℕ := 0
  start : ℕ := 0
  size : ℕ := 0
  /-- The links of `node_list` while a scan keeps the node off the list. -/
  nodeListPrev : NodeRef := .head
  nodeListNext : Option NodeRef := none
  deriving DecidableEq, Repr

/-- `color_adjust` reads the node, its list successor (none on an otherwise empty list)
and the wanted colour. -/
abbrev ColorAdjust := DrmMmNode → Option DrmMmNode → ℕ → ℕ → ℕ → ℕ × ℕ

/-- `nodeList` is `head_node.node_list` in `next` order, the head node first. -/
structure DrmMm where
  node : NodeRef → DrmMmNode
  nodeList : List NodeRef
  holeStack : List NodeRef
  scanCheckRange : Bool := false
  scanAlignment : ℕ := 0
  scanColor : ℕ := 0
  scanSize : ℕ := 0
  scanHitStart : ℕ := 0
  scanHitEnd : ℕ := 0
  scannedBlocks : ℕ := 0
  scanStart : ℕ := 0
  scanEnd : ℕ := 0
  prevScannedNode : Option NodeRef := none
  colorAdjust : Option ColorAdjust := none

namespace DrmMm

def setNode (mm : DrmMm) (r : NodeRef) (f : DrmMmNode → DrmMmNode) : DrmMm :=
  { mm with node := Function.update mm.node r (f (mm.node r)) }

def nextNode (mm : DrmMm) (r : NodeRef) : NodeRef := succ .head r mm.nodeList

def prevNode (mm : DrmMm) (r : NodeRef) : NodeRef :=
  pred (mm.nodeList.getLastD .head) r mm.nodeList

def nodeStart (mm : DrmMm) (r : NodeRef) : ℕ := (mm.node r).start

end DrmMm

def drmMmHoleNodeStart (mm : DrmMm) (r : NodeRef) : ℕ :=
  Word.add 64 (mm.node r).start (mm.node r).size

def drmMmHoleNodeEnd (mm : DrmMm) (r : NodeRef) : ℕ := mm.nodeStart (mm.nextNode r)

/-- The head node ends at `start`: its size is stored negated. -/
def drmMmInit (start size : ℕ) : DrmMm where
  node := Function.update (fun _ => {}) .head
    { holeFollows := true
      start := Word.add 64 start size
      size := Word.sub 64 start (Word.add 64 start size) }
  nodeList := [.head]
  holeStack := [.head]

/-! ### Searching -/

def alignPad (start alignment : ℕ) : ℕ :=
  if alignment = 0 then 0
  else if start % alignment = 0 then 0 else alignment - start % alignment

def checkFreeHole (start stop size alignment : ℕ) : Bool :=
  if Word.sub 64 stop start < size then false
  else decide (Word.add 64 (Word.add 64 start (alignPad start alignment)) size ≤ stop)

def clampRange : Option (ℕ × ℕ) → ℕ × ℕ → ℕ × ℕ
  | none, i => i
  | some (start, stop), (s, e) => (if s < start then start else s, if stop < e then stop else e)

def colorAdjusted (mm : DrmMm) (r : NodeRef) (color : ℕ) (i : ℕ × ℕ) : ℕ × ℕ :=
  match mm.colorAdjust with
  | none => i
  | some adjust =>
    let next := if mm.nextNode r = r then none else some (mm.node (mm.nextNode r))
    adjust (mm.node r) next color i.1 i.2

/-- The part of the hole behind `r` that a request may use. -/
def adjustedHole (mm : DrmMm) (range : Option (ℕ × ℕ)) (color : ℕ) (r : NodeRef) : ℕ × ℕ :=
  colorAdjusted mm r color
    (clampRange range (drmMmHoleNodeStart mm r, drmMmHoleNodeEnd mm r))

def holeFits (mm : DrmMm) (range : Option (ℕ × ℕ)) (size alignment color : ℕ)
    (r : NodeRef) : Bool :=
  let i := adjustedHole mm range color r
  if mm.colorAdjust.isSome && decide (i.2 ≤ i.1) then false
  else checkFreeHole i.1 i.2 size alignment

/-- The walk over `hole_stack`, with the best hole so far and its size. -/
def searchHoles (mm : DrmMm) (fits : NodeRef → Bool) (bestMatch : Bool) :
    List NodeRef → Option NodeRef → ℕ → Option NodeRef
  | [], best, _ => best
  | r :: l, best, bestSize =>
    if !fits r then searchHoles mm fits bestMatch l best bestSize
    else if !bestMatch then some r
    else if (mm.node r).size < bestSize then
      searchHoles mm fits bestMatch l (some r) (mm.node r).size
    else searchHoles mm fits bestMatch l best bestSize

def searchFreeWith (mm : DrmMm) (range : Option (ℕ × ℕ)) (size alignment color : ℕ)
    (bestMatch : Bool) : Option NodeRef :=
  searchHoles mm (holeFits mm range size alignment color) bestMatch mm.holeStack none (2 ^ 64 - 1)

def drmMmSearchFreeGeneric (mm : DrmMm) (size alignment color : ℕ) (bestMatch : Bool) :
    Option NodeRef :=
  searchFreeWith mm none size alignment color bestMatch

def drmMmSearchFreeInRangeGeneric (mm : DrmMm) (size alignment color start stop : ℕ)
    (bestMatch : Bool) : Option NodeRef :=
  searchFreeWith mm (some (start, stop)) size alignment color bestMatch

/-! ### Inserting and removing -/

/-- Put `node` at `[start, start + size)` into the hole behind `hole`; `tail` says whether
a hole is left behind it. -/
def linkNode (mm : DrmMm) (hole node : NodeRef) (start size : ℕ) (color : Option ℕ)
    (tail : Bool) : DrmMm :=
  let mm :=
    if start = drmMmHoleNodeStart mm hole then
      { mm.setNode hole fun h => { h with holeFollows := false } with
        holeStack := mm.holeStack.erase hole }
    else mm
  let mm := mm.setNode node fun n =>
    { n with
      start := start, size := size, color := color.getD n.color
      allocated := true, holeFollows := tail }
  { mm with
    nodeList := insertAfter hole node mm.nodeList
    holeStack := if tail then node :: mm.holeStack else mm.holeStack }

def insertHelperWith (mm : DrmMm) (range : Option (ℕ × ℕ)) (hole node : NodeRef)
    (size alignment color : ℕ) : DrmMm :=
  let adjStart := (adjustedHole mm range color hole).1
  let adjStart := Word.add 64 adjStart (alignPad adjStart alignment)
  linkNode mm hole node adjStart size (some color)
    (decide (Word.add 64 adjStart size < drmMmHoleNodeEnd mm hole))

def drmMmInsertHelper (mm : DrmMm) (hole node : NodeRef) (size alignment color : ℕ) : DrmMm :=
  insertHelperWith mm none hole node size alignment color

def drmMmInsertHelperRange (mm : DrmMm) (hole node : NodeRef)
    (size alignment color start stop : ℕ) : DrmMm :=
  insertHelperWith mm (some (start, stop)) hole node size alignment color

def drmMmInsertNodeGeneric (mm : DrmMm) (node : NodeRef) (size alignment color : ℕ) :
    ℤ × DrmMm :=
  match drmMmSearchFreeGeneric mm size alignment color false with
  | none => (Errno.eNospc, mm)
  | some hole => (0, drmMmInsertHelper mm hole node size alignment color)

def drmMmInsertNodeInRangeGeneric (mm : DrmMm) (node : NodeRef)
    (size alignment color start stop : ℕ) : ℤ × DrmMm :=
  match drmMmSearchFreeInRangeGeneric mm size alignment color start stop false with
  | none => (Errno.eNospc, mm)
  | some hole => (0, drmMmInsertHelperRange mm hole node size alignment color start stop)

/-- `kmalloc` is what `drm_mm_kmalloc` returned; its node may carry old field values. -/
def drmMmCreateBlock (mm : DrmMm) (kmalloc : Option NodeRef) (start size : ℕ) :
    Option NodeRef × DrmMm :=
  let stop := Word.add 64 start size
  match mm.holeStack.find? fun r =>
      decide (drmMmHoleNodeStart mm r ≤ start ∧ stop ≤ drmMmHoleNodeEnd mm r) with
  | none => (none, mm)
  | some hole =>
    match kmalloc with
    | none => (none, mm)
    | some node =>
      (some node, linkNode mm hole node start size none
        (decide (stop ≠ drmMmHoleNodeEnd mm hole)))

def drmMmRemoveNode (mm : DrmMm) (node : NodeRef) : DrmMm :=
  let prev := mm.prevNode node
  let stack := if (mm.node node).holeFollows then mm.holeStack.erase node else mm.holeStack
  let mm' :=
    if (mm.node prev).holeFollows then { mm with holeStack := prev :: stack.erase prev }
    else { mm.setNode prev fun p => { p with holeFollows := true } with
      holeStack := prev :: stack }
  { mm'.setNode node fun n => { n with allocated := false } with
    nodeList := mm.nodeList.erase node }

/-! ### Scanning for nodes to evict -/

def drmMmInitScan (mm : DrmMm) (size alignment color : ℕ) : DrmMm :=
  { mm with
    scanColor := color, scanAlignment := alignment, scanSize := size, scannedBlocks := 0
    scanHitStart := 0, scanHitEnd := 0, scanCheckRange := false, prevScannedNode := none }

def drmMmInitScanWithRange (mm : DrmMm) (size alignment color start stop : ℕ) : DrmMm :=
  { mm with
    scanColor := color, scanAlignment := alignment, scanSize := size, scannedBlocks := 0
    scanHitStart := 0, scanHitEnd := 0, scanStart := start, scanEnd := stop
    scanCheckRange := true, prevScannedNode := none }

def DrmMm.scanRange (mm : DrmMm) : Option (ℕ × ℕ) :=
  if mm.scanCheckRange then some (mm.scanStart, mm.scanEnd) else none

/-- Take the node off the list and remember where it was. -/
def scanUnlink (mm : DrmMm) (node : NodeRef) : DrmMm :=
  let prev := mm.prevNode node
  let mm' := mm.setNode node fun n =>
    { n with
      scannedBlock := true, scannedPreceedsHole := (mm.node prev).holeFollows
      nodeListPrev := prev, nodeListNext := mm.prevScannedNode }
  { mm'.setNode prev fun p => { p with holeFollows := true } with
    nodeList := mm.nodeList.erase node
    scannedBlocks := mm.scannedBlocks + 1
    prevScannedNode := some node }

def drmMmScanAddBlock (mm : DrmMm) (node : NodeRef) : Bool × DrmMm :=
  let prev := mm.prevNode node
  let mm := scanUnlink mm node
  let i := adjustedHole mm mm.scanRange mm.scanColor prev
  if checkFreeHole i.1 i.2 mm.scanSize mm.scanAlignment then
    (true, { mm with
      scanHitStart := drmMmHoleNodeStart mm prev, scanHitEnd := drmMmHoleNodeEnd mm prev })
  else (false, mm)

def drmMmScanRemoveBlock (mm : DrmMm) (node : NodeRef) : Bool × DrmMm :=
  let prev := (mm.node node).nodeListPrev
  let mm' := mm.setNode node fun n => { n with scannedBlock := false }
  let mm' := { mm'.setNode prev fun p =>
      { p with holeFollows := (mm.node node).scannedPreceedsHole } with
    scannedBlocks := mm.scannedBlocks - 1
    nodeList := insertAfter prev node mm.nodeList }
  (decide (mm'.scanHitStart < drmMmHoleNodeEnd mm' node) &&
    decide (mm'.nodeStart node < mm'.scanHitEnd), mm')

end GfxDrm
