import Mathlib.Data.List.AList
import GfxDrm.Errno

/-! The id allocator of drm_sun_idr.c. -/

namespace GfxDrm

/-- One `idr_free_id_range`: ids from `minUnused` on were never handed out, `freeIds` were
returned. -/
structure IdrFreeIdRange where
  start : ℕ
  stop : ℕ
  minUnused : ℕ
  freeIds : List ℕ := []
  deriving DecidableEq, Repr

/-- `used_ids` is keyed by id; a pointer may be `NULL`. -/
structure Idr (α : Type*) where
  usedIds : AList fun _ : ℕ => Option α
  freeIdRanges : List IdrFreeIdRange

variable {α : Type*}

def frIsFull (range : IdrFreeIdRange) : Bool := decide (range.stop ≤ range.minUnused)

def frNew (start : ℕ) : IdrFreeIdRange where
  start := start
  stop := 0x7fffffff
  minUnused := start

def frGet (list : List IdrFreeIdRange) (start : ℕ) : Option IdrFreeIdRange :=
  list.find? fun entry => entry.start = start

/-- Cut `prev` at `start`; the ids from `start` on go to the new range. -/
def frSplit (prev : IdrFreeIdRange) (start : ℕ) (next : List IdrFreeIdRange) :
    List IdrFreeIdRange :=
  let n := frNew start
  let prev := { prev with stop := start }
  let n := { n with stop := (next.head?.map IdrFreeIdRange.start).getD n.stop }
  if frIsFull prev then
    { prev with
      minUnused := start, freeIds := prev.freeIds.filter fun id => decide (id < start) } ::
      { n with
        minUnused := prev.minUnused
        freeIds := (prev.freeIds.filter fun id => decide (start ≤ id)).reverse } :: next
  else prev :: n :: next

def frInsert : List IdrFreeIdRange → ℕ → List IdrFreeIdRange
  | [], _ => []
  | [prev], start => frSplit prev start []
  | prev :: next :: rest, start =>
    if next.start < start then prev :: frInsert (next :: rest) start
    else frSplit prev start (next :: rest)

def idrGetFreeIdInRange (range : IdrFreeIdRange) : Option (ℕ × IdrFreeIdRange) :=
  match range.freeIds with
  | id :: next => some (id, { range with freeIds := next })
  | [] =>
    if frIsFull range then none
    else some (range.minUnused, { range with minUnused := range.minUnused + 1 })

def idrInit : Idr α := ⟨∅, [frNew 0]⟩

/-- The loop of `idr_get_new_above` over a range and its successors. -/
def getFreeId : List IdrFreeIdRange → Option (ℕ × List IdrFreeIdRange)
  | [] => none
  | range :: next =>
    match idrGetFreeIdInRange range with
    | some (id, range) => some (id, range :: next)
    | none => (getFreeId next).map fun p => (p.1, range :: p.2)

/-- The same loop, entered at the range that starts at `start`. -/
def getFreeIdFrom (start : ℕ) : List IdrFreeIdRange → Option (ℕ × List IdrFreeIdRange)
  | [] => none
  | range :: next =>
    if range.start = start then getFreeId (range :: next)
    else (getFreeIdFrom start next).map fun p => (p.1, range :: p.2)

/-- The ranges with one that starts at `start`. -/
def rangesFrom (ranges : List IdrFreeIdRange) (start : ℕ) : List IdrFreeIdRange :=
  if (frGet ranges start).isSome then ranges else frInsert ranges start

/-- `alloc` tells whether `kmem_alloc` succeeds. -/
def idrGetNewAbove (idr : Idr α) (obj : Option α) (start : Int32) (alloc : Bool) :
    Except ℤ ℕ × Idr α :=
  if start.toInt < 0 then (.error Errno.eInval, idr)
  else
    let ranges := rangesFrom idr.freeIdRanges start.toInt.toNat
    match getFreeIdFrom start.toInt.toNat ranges with
    | none => (.error (-1), { idr with freeIdRanges := ranges })
    | some (id, ranges) =>
      if alloc then (.ok id, ⟨idr.usedIds.insert id obj, ranges⟩)
      else (.error Errno.eNomem, { idr with freeIdRanges := ranges })

/-- The pointers, as idr_for_each comes to them. -/
def idrPointers (idr : Idr α) : List (Option α) := idr.usedIds.entries.map Sigma.snd

def idrFind (idr : Idr α) (id : ℕ) : Option α := (idr.usedIds.lookup id).join

/-- Put a returned id on the list of its range. -/
def frPutId : List IdrFreeIdRange → ℕ → List IdrFreeIdRange
  | [], _ => []
  | range :: next, id =>
    if range.stop ≤ id then range :: frPutId next id
    else { range with freeIds := id :: range.freeIds } :: next

def idrRemove (idr : Idr α) (id : ℕ) (alloc : Bool) : ℤ × Idr α :=
  match idr.usedIds.lookup id with
  | none => (Errno.eInval, idr)
  | some _ =>
    if alloc then (0, ⟨idr.usedIds.erase id, frPutId idr.freeIdRanges id⟩)
    else (Errno.eNomem, idr)

def idrReplace (idr : Idr α) (obj : Option α) (id : ℕ) : Except ℤ (Option α) × Idr α :=
  match idr.usedIds.lookup id with
  | none => (.error Errno.eInval, idr)
  | some old => (.ok old, { idr with usedIds := idr.usedIds.insert id obj })

end GfxDrm
