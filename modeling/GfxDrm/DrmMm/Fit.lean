import GfxDrm.DrmMm.Runs

/-! Which hole a search returns: the first one with room unless rounding up wraps, or the best one by
the size of the node in front of it. -/

namespace GfxDrm
open Circular

/-- A block of the wanted size lies aligned in `[i.1, i.2)`. -/
def CanHold (i : ℕ × ℕ) (size alignment : ℕ) : Prop :=
  ∃ a, i.1 ≤ a ∧ a + size ≤ i.2 ∧ (alignment = 0 ∨ alignment ∣ a)

/-- Nothing fits, but start and size add up to a small address. -/
def Wraps (i : ℕ × ℕ) (size alignment : ℕ) : Prop :=
  size ≤ Word.sub 64 i.2 i.1 ∧ 2 ^ 64 ≤ roundUp i.1 alignment + size ∧
    (roundUp i.1 alignment + size) % 2 ^ 64 ≤ i.2

section
variable {i : ℕ × ℕ} {size alignment : ℕ}

theorem canHold_iff : CanHold i size alignment ↔ roundUp i.1 alignment + size ≤ i.2 := by
  constructor
  · rintro ⟨a, hstart, hend, halign⟩
    have hle : roundUp i.1 alignment ≤ a := by
      by_cases h0 : alignment = 0
      · simpa [roundUp, alignPad, h0] using hstart
      · exact roundUp_le h0 (halign.resolve_left h0) hstart
    omega
  · intro hfit
    refine ⟨roundUp i.1 alignment, le_roundUp _ _, hfit, ?_⟩
    by_cases h0 : alignment = 0
    · exact .inl h0
    · exact .inr (dvd_roundUp h0)

/-- What check_free_hole accepts. -/
theorem checkFreeHole_iff_canHold (hstop : i.2 < 2 ^ 64) :
    checkFreeHole i.1 i.2 size alignment = true ↔
      CanHold i size alignment ∨ Wraps i size alignment := by
  have hround := le_roundUp i.1 alignment
  have hsum : Word.add 64 (Word.add 64 i.1 (alignPad i.1 alignment)) size =
      (roundUp i.1 alignment + size) % 2 ^ 64 := add_add_eq_mod _ _ _
  rw [checkFreeHole_iff, canHold_iff, hsum]
  constructor
  · rintro ⟨hsize, hle⟩
    rcases Nat.lt_or_ge (roundUp i.1 alignment + size) (2 ^ 64) with hlt | hge
    · rw [Nat.mod_eq_of_lt hlt] at hle
      exact .inl hle
    · exact .inr ⟨hsize, hge, hle⟩
  · rintro (hle | ⟨hsize, -, hle⟩)
    · rw [Word.sub_of_le (by omega) hstop, Nat.mod_eq_of_lt (hle.trans_lt hstop)]
      exact ⟨by omega, hle⟩
    · exact ⟨hsize, hle⟩

theorem Wraps.not_canHold (h : Wraps i size alignment) (hstop : i.2 < 2 ^ 64) :
    ¬ CanHold i size alignment := by
  rw [canHold_iff]
  have hwrap := h.2.1
  omega

/-- Where the sum wraps, the block that is placed lies outside. -/
theorem Wraps.outside (h : Wraps i size alignment) (hstart : i.1 < 2 ^ 64) (hstop : i.2 < 2 ^ 64)
    (halign : alignment < 2 ^ 32) :
    ¬ (i.1 ≤ Word.add 64 i.1 (alignPad i.1 alignment) ∧
      Word.add 64 i.1 (alignPad i.1 alignment) + size ≤ i.2) := by
  have hwrap := h.2.1
  have hpad : alignPad i.1 alignment < 2 ^ 32 := by
    unfold alignPad
    split
    · omega
    split
    · omega
    · omega
  unfold roundUp at hwrap
  unfold Word.add
  rcases Nat.lt_or_ge (i.1 + alignPad i.1 alignment) (2 ^ 64) with hlt | hge
  · omega
  · omega

end

/-! ### Requests -/

namespace MmRequest
variable (q : MmRequest)

/-- The search of a request. -/
def searchFree (mm : DrmMm) (bestMatch : Bool) : Option NodeRef :=
  match q.range with
  | none => drmMmSearchFreeGeneric mm q.size q.alignment q.color bestMatch
  | some (start, stop) =>
    drmMmSearchFreeInRangeGeneric mm q.size q.alignment q.color start stop bestMatch

/-- The insertion of a request behind a given node. -/
def insertBehind (mm : DrmMm) (hole : NodeRef) (n : ℕ) : DrmMm :=
  match q.range with
  | none => drmMmInsertHelper mm hole (.block n) q.size q.alignment q.color
  | some (start, stop) =>
    drmMmInsertHelperRange mm hole (.block n) q.size q.alignment q.color start stop

/-- The hole behind a node, clipped and colour-adjusted. -/
def hole (mm : DrmMm) (r : NodeRef) : ℕ × ℕ := adjustedHole mm q.range q.color r

def HasRoom (mm : DrmMm) (r : NodeRef) : Prop := CanHold (q.hole mm r) q.size q.alignment

/-- A hole that is taken for one with room; the search skips empty ones after colouring. -/
def WrapsBehind (mm : DrmMm) (r : NodeRef) : Prop :=
  Wraps (q.hole mm r) q.size q.alignment ∧
    (mm.colorAdjust.isSome = true → (q.hole mm r).1 < (q.hole mm r).2)

/-- The words of a request. -/
structure Words : Prop where
  size_pos : 0 < q.size
  alignment : q.alignment < 2 ^ 32
  range : ∀ i ∈ q.range, i.1 < 2 ^ 64 ∧ i.2 < 2 ^ 64

end MmRequest

namespace DrmMm

/-- Addresses are words, and a callback makes words of words. -/
structure Words (mm : DrmMm) : Prop where
  start : ∀ r, mm.nodeStart r < 2 ^ 64
  adjust : ∀ adjust ∈ mm.colorAdjust, ∀ node next color s e, s < 2 ^ 64 → e < 2 ^ 64 →
    (adjust node next color s e).1 < 2 ^ 64 ∧ (adjust node next color s e).2 < 2 ^ 64

/-- A callback takes space away from a hole, and adds none. -/
def Narrows (mm : DrmMm) : Prop :=
  ∀ adjust ∈ mm.colorAdjust, ∀ node next color s e,
    s ≤ (adjust node next color s e).1 ∧ (adjust node next color s e).2 ≤ e

variable {mm : DrmMm} {q : MmRequest} {r : NodeRef} {n : ℕ}

theorem searchFree_eq (q : MmRequest) (mm : DrmMm) (bestMatch : Bool) :
    q.searchFree mm bestMatch =
      searchFreeWith mm q.range q.size q.alignment q.color bestMatch := by
  unfold MmRequest.searchFree
  rcases q.range with _ | ⟨start, stop⟩ <;> rfl

theorem insertBehind_eq (q : MmRequest) (mm : DrmMm) (r : NodeRef) (n : ℕ) :
    q.insertBehind mm r n =
      insertHelperWith mm q.range r (.block n) q.size q.alignment q.color := by
  unfold MmRequest.insertBehind
  rcases q.range with _ | ⟨start, stop⟩ <;> rfl

theorem Words.hole (h : mm.Words) (hq : q.Words) (r : NodeRef) :
    (q.hole mm r).1 < 2 ^ 64 ∧ (q.hole mm r).2 < 2 ^ 64 := by
  have hclamp : (clampRange q.range (drmMmHoleNodeStart mm r, drmMmHoleNodeEnd mm r)).1 < 2 ^ 64 ∧
      (clampRange q.range (drmMmHoleNodeStart mm r, drmMmHoleNodeEnd mm r)).2 < 2 ^ 64 := by
    have hstart : drmMmHoleNodeStart mm r < 2 ^ 64 := Word.add_lt _ _ _
    have hend : drmMmHoleNodeEnd mm r < 2 ^ 64 := h.start _
    cases hr : q.range with
    | none => exact ⟨hstart, hend⟩
    | some i =>
      have hrange := hq.range i hr
      simp only [clampRange]
      constructor <;> split <;> omega
  unfold MmRequest.hole adjustedHole colorAdjusted
  cases hadjust : mm.colorAdjust with
  | none => exact hclamp
  | some adjust => exact h.adjust adjust hadjust _ _ _ _ _ hclamp.1 hclamp.2

/-- A search takes the holes with room and the ones that wrap. -/
theorem holeFits_iff (h : mm.Words) (hq : q.Words) (r : NodeRef) :
    holeFits mm q.range q.size q.alignment q.color r = true ↔
      q.HasRoom mm r ∨ q.WrapsBehind mm r := by
  obtain ⟨-, hstop⟩ := h.hole hq r
  have hcheck : checkFreeHole (q.hole mm r).1 (q.hole mm r).2 q.size q.alignment = true ↔
      CanHold (q.hole mm r) q.size q.alignment ∨ Wraps (q.hole mm r) q.size q.alignment :=
    checkFreeHole_iff_canHold hstop
  unfold MmRequest.HasRoom MmRequest.WrapsBehind
  change (if mm.colorAdjust.isSome && decide ((q.hole mm r).2 ≤ (q.hole mm r).1) then false
    else checkFreeHole (q.hole mm r).1 (q.hole mm r).2 q.size q.alignment) = true ↔ _
  have hround := le_roundUp (q.hole mm r).1 q.alignment
  have hpos := hq.size_pos
  by_cases hempty : mm.colorAdjust.isSome = true ∧ (q.hole mm r).2 ≤ (q.hole mm r).1
  · rw [if_pos (by simpa using hempty)]
    simp only [Bool.false_eq_true, false_iff, canHold_iff]
    rintro (hroom | ⟨-, hlt⟩)
    · omega
    · have := hlt hempty.1
      omega
  · rw [if_neg (by simpa using hempty), hcheck]
    refine or_congr_right ⟨fun hwrap => ⟨hwrap, fun hs => ?_⟩, And.left⟩
    exact not_le.mp fun hle => hempty ⟨hs, hle⟩

/-! ### The first hole with room -/

theorem searchHoles_find (mm : DrmMm) (fits : NodeRef → Bool) (l : List NodeRef) (bestSize : ℕ) :
    searchHoles mm fits false l none bestSize = l.find? fits := by
  induction l with
  | nil => rfl
  | cons a l ih =>
    unfold searchHoles
    cases hfits : fits a with
    | true => simp [hfits]
    | false => simpa [hfits] using ih

theorem searchFree_find (q : MmRequest) (mm : DrmMm) : q.searchFree mm false =
    mm.holeStack.find? (holeFits mm q.range q.size q.alignment q.color) := by
  rw [searchFree_eq]
  exact searchHoles_find ..

theorem linkNode_start (mm : DrmMm) (r x : NodeRef) (st size : ℕ) (color : Option ℕ) (tail : Bool) :
    (linkNode mm r x st size color tail).nodeStart x = st := by
  unfold linkNode nodeStart setNode
  dsimp only
  rw [Function.update_self]

theorem insertBehind_start (q : MmRequest) (mm : DrmMm) (r : NodeRef) (n : ℕ) :
    (q.insertBehind mm r n).nodeStart (.block n) =
      Word.add 64 (q.hole mm r).1 (alignPad (q.hole mm r).1 q.alignment) := by
  rw [insertBehind_eq]
  exact linkNode_start ..

end DrmMm

/-- The search finds a hole exactly where one has room. -/
def MmRequest.FindsRoom (q : MmRequest) (mm : DrmMm) : Prop :=
  (q.searchFree mm false).isSome = true ↔ ∃ r ∈ mm.holeStack, q.HasRoom mm r

/-- The node goes aligned into the hole that was found, and so into the range. -/
def MmRequest.PlacesInside (q : MmRequest) (mm : DrmMm) : Prop :=
  ∀ r, q.searchFree mm false = some r → ∀ n,
    let start := (q.insertBehind mm r n).nodeStart (.block n)
    (q.alignment = 0 ∨ q.alignment ∣ start) ∧
      ((q.hole mm r).1 ≤ start ∧ start + q.size ≤ (q.hole mm r).2) ∧
      (mm.Narrows → drmMmHoleNodeStart mm r ≤ start ∧ start + q.size ≤ drmMmHoleNodeEnd mm r ∧
        ∀ i ∈ q.range, i.1 ≤ start ∧ start + q.size ≤ i.2)

/-- Every hole that wraps comes after one with room. -/
def MmRequest.RoomFirst (q : MmRequest) (mm : DrmMm) : Prop :=
  ∀ pre r post, mm.holeStack = pre ++ r :: post → q.WrapsBehind mm r → ∃ r' ∈ pre, q.HasRoom mm r'

namespace DrmMm
variable {mm : DrmMm} {q : MmRequest} {r : NodeRef} {n : ℕ}

theorem clampRange_inside {range : Option (ℕ × ℕ)} {s e : ℕ} {i : ℕ × ℕ} (hi : i ∈ range) :
    i.1 ≤ (clampRange range (s, e)).1 ∧ (clampRange range (s, e)).2 ≤ i.2 := by
  obtain rfl : range = some i := hi
  simp only [clampRange]
  constructor <;> split <;> omega

/-- A callback that narrows keeps the hole in the range and in what is behind the node. -/
theorem Narrows.hole (h : mm.Narrows) (q : MmRequest) (r : NodeRef) :
    (drmMmHoleNodeStart mm r ≤ (q.hole mm r).1 ∧ (q.hole mm r).2 ≤ drmMmHoleNodeEnd mm r) ∧
      ∀ i ∈ q.range, i.1 ≤ (q.hole mm r).1 ∧ (q.hole mm r).2 ≤ i.2 := by
  have hclamp := clampRange_narrows q.range (drmMmHoleNodeStart mm r) (drmMmHoleNodeEnd mm r)
  have hadjusted : (clampRange q.range (drmMmHoleNodeStart mm r, drmMmHoleNodeEnd mm r)).1 ≤
        (q.hole mm r).1 ∧
      (q.hole mm r).2 ≤
        (clampRange q.range (drmMmHoleNodeStart mm r, drmMmHoleNodeEnd mm r)).2 := by
    unfold MmRequest.hole adjustedHole colorAdjusted
    cases hadjust : mm.colorAdjust with
    | none => exact ⟨le_rfl, le_rfl⟩
    | some adjust => exact h adjust hadjust ..
  refine ⟨⟨hclamp.1.trans hadjusted.1, hadjusted.2.trans hclamp.2⟩, fun i hi => ?_⟩
  have hinside := clampRange_inside (s := drmMmHoleNodeStart mm r) (e := drmMmHoleNodeEnd mm r) hi
  exact ⟨hinside.1.trans hadjusted.1, hadjusted.2.trans hinside.2⟩

/-- The first hole that fits. -/
theorem searchFree_some (h : q.searchFree mm false = some r) : ∃ pre post,
    mm.holeStack = pre ++ r :: post ∧
      holeFits mm q.range q.size q.alignment q.color r = true ∧
      ∀ r' ∈ pre, holeFits mm q.range q.size q.alignment q.color r' ≠ true := by
  rw [searchFree_find, List.find?_eq_some_iff_append] at h
  obtain ⟨hfits, pre, post, hstack, hpre⟩ := h
  exact ⟨pre, post, hstack, hfits, fun r' hr' => by simpa using hpre r' hr'⟩

theorem hasRoom_of_roomFirst (hw : mm.Words) (hq : q.Words) (hfirst : q.RoomFirst mm)
    (h : q.searchFree mm false = some r) : r ∈ mm.holeStack ∧ q.HasRoom mm r := by
  obtain ⟨pre, post, hstack, hfits, hpre⟩ := searchFree_some h
  refine ⟨hstack ▸ List.mem_append_right _ List.mem_cons_self, ?_⟩
  rcases (holeFits_iff hw hq r).mp hfits with hroom | hwraps
  · exact hroom
  · obtain ⟨r', hr', hroom⟩ := hfirst pre r post hstack hwraps
    exact absurd ((holeFits_iff hw hq r').mpr (.inl hroom)) (hpre r' hr')

theorem findsRoom (hw : mm.Words) (hq : q.Words) (hfirst : q.RoomFirst mm) : q.FindsRoom mm := by
  constructor
  · intro hsome
    obtain ⟨r, hr⟩ := Option.isSome_iff_exists.mp hsome
    exact ⟨r, hasRoom_of_roomFirst hw hq hfirst hr⟩
  · rintro ⟨r, hr, hroom⟩
    rw [searchFree_find, List.find?_isSome]
    exact ⟨r, hr, (holeFits_iff hw hq r).mpr (.inl hroom)⟩

theorem placesInside (hw : mm.Words) (hq : q.Words) (hfirst : q.RoomFirst mm) :
    q.PlacesInside mm := by
  intro r hr n
  have hroom := (hasRoom_of_roomFirst hw hq hfirst hr).2
  obtain ⟨-, hstop⟩ := hw.hole hq r
  have hle := canHold_iff.mp hroom
  have hround := le_roundUp (q.hole mm r).1 q.alignment
  have hstart : (q.insertBehind mm r n).nodeStart (.block n) =
      roundUp (q.hole mm r).1 q.alignment := by
    rw [insertBehind_start]
    exact Word.add_of_lt (show roundUp (q.hole mm r).1 q.alignment < 2 ^ 64 by omega)
  rw [hstart]
  refine ⟨?_, ⟨hround, hle⟩, fun hnarrow => ?_⟩
  · by_cases h0 : q.alignment = 0
    · exact .inl h0
    · exact .inr (dvd_roundUp h0)
  · obtain ⟨⟨hs, he⟩, hrange⟩ := hnarrow.hole q r
    refine ⟨hs.trans hround, hle.trans he, fun i hi => ?_⟩
    have hi := hrange i hi
    exact ⟨hi.1.trans hround, hle.trans hi.2⟩

theorem roomFirst_of_placesInside (hw : mm.Words) (hq : q.Words) (h : q.PlacesInside mm) :
    q.RoomFirst mm := by
  intro pre r post hstack hwraps
  have hfits := (holeFits_iff hw hq r).mpr (.inr hwraps)
  have hsome : (q.searchFree mm false).isSome = true := by
    rw [searchFree_find, List.find?_isSome]
    exact ⟨r, hstack ▸ List.mem_append_right _ List.mem_cons_self, hfits⟩
  obtain ⟨r₀, hr₀⟩ := Option.isSome_iff_exists.mp hsome
  obtain ⟨pre₀, post₀, hstack₀, hfits₀, hpre₀⟩ := searchFree_some hr₀
  obtain ⟨-, hinside, -⟩ := h r₀ hr₀ 0
  rw [insertBehind_start] at hinside
  obtain ⟨hstart, hstop⟩ := hw.hole hq r₀
  have hroom₀ : q.HasRoom mm r₀ := by
    refine ((holeFits_iff hw hq r₀).mp hfits₀).resolve_right fun hwraps₀ => ?_
    exact hwraps₀.1.outside hstart hstop hq.alignment hinside
  refine ⟨r₀, ?_, hroom₀⟩
  -- the hole with room is the first that fits, and `r` is another
  have hne : r₀ ≠ r := fun heq => hwraps.1.not_canHold (hw.hole hq r).2 (heq ▸ hroom₀)
  rw [hstack] at hstack₀
  rcases List.append_eq_append_iff.mp hstack₀ with ⟨l, hpre, hrest⟩ | ⟨l, hpre, hrest⟩
  · cases l with
    | nil => exact absurd (List.cons.inj hrest).1.symm hne
    | cons a l =>
      rw [(List.cons.inj hrest).1] at hfits
      exact absurd hfits (hpre₀ a (by simp [hpre]))
  · cases l with
    | nil => exact absurd (List.cons.inj hrest).1 hne
    | cons a l =>
      rw [(List.cons.inj hrest).1]
      simp [hpre]

theorem init_words (start size : ℕ) :
    Words { drmMmInit start size with colorAdjust := none } where
  start r := by
    cases r with
    | head => exact Word.add_lt ..
    | block n => exact Nat.two_pow_pos 64
  adjust := fun _ hnone => nomatch hnone

end DrmMm

/-- First-fit searches and insertions do what they are for exactly where no hole that wraps is in
front of the ones with room. -/
theorem drmMm_first_fit_exact {mm : DrmMm} {q : MmRequest} (hw : mm.Words) (hq : q.Words) :
    q.FindsRoom mm ∧ q.PlacesInside mm ↔ q.RoomFirst mm :=
  ⟨fun h => DrmMm.roomFirst_of_placesInside hw hq h.2,
    fun h => ⟨DrmMm.findsRoom hw hq h, DrmMm.placesInside hw hq h⟩⟩

theorem drmMm_first_fit_exact_init :
    MmRequest.FindsRoom { size := 0x1000, alignment := 0x1000 } { drmMmInit 0 0x3000 with
        colorAdjust := none } ∧
      MmRequest.PlacesInside { size := 0x1000, alignment := 0x1000 } { drmMmInit 0 0x3000 with
        colorAdjust := none } := by
  have hq : MmRequest.Words { size := 0x1000, alignment := 0x1000 } :=
    ⟨by decide, by decide, fun _ hnone => nomatch hnone⟩
  refine (drmMm_first_fit_exact (DrmMm.init_words 0 0x3000) hq).mpr fun pre r post hstack hwraps => ?_
  have hr : r = .head := by
    have hmem : r ∈ (drmMmInit 0 0x3000).holeStack :=
      (show (drmMmInit 0 0x3000).holeStack = _ from hstack) ▸ by simp
    simpa [drmMmInit] using hmem
  subst hr
  exact absurd hwraps.1.2.1 (by decide +kernel)

open Run in
/-- A hole that cannot hold the request is found, and the node put at address 0. -/
theorem drmMm_first_fit_wraps :
    ¬ ∀ (start size : ℕ), 0 < size → start + size < 2 ^ 64 → ∀ mm,
      Reach (drmMmSystem start size none) mm → ∀ q : MmRequest, q.Words →
        q.FindsRoom mm ∧ q.PlacesInside mm := by
  intro h
  have hq : MmRequest.Words { size := 0x100, alignment := 0x10000 } :=
    ⟨by decide, by decide, fun _ hnone => nomatch hnone⟩
  have hfound := (h (2 ^ 64 - 0x1000) 0x800 (by decide) (by decide) _ (.init rfl) _ hq).1
  obtain ⟨r, hr, hroom⟩ := hfound.mp (by decide +kernel)
  have hhead : r = .head := by simpa [drmMmInit] using hr
  subst hhead
  exact absurd (canHold_iff.mp hroom) (by decide +kernel)

/-! ### The best hole -/

/-- The first member that is accepted with the smallest node in front, one below the largest word. -/
def SmallestInFront (mm : DrmMm) (accepted : NodeRef → Prop) (l : List NodeRef) (bound : ℕ)
    (r : NodeRef) : Prop :=
  ∃ pre post, l = pre ++ r :: post ∧ accepted r ∧ (mm.node r).size < bound ∧
    (∀ r' ∈ pre, accepted r' → (mm.node r).size < (mm.node r').size) ∧
    ∀ r' ∈ post, accepted r' → (mm.node r).size ≤ (mm.node r').size

/-- The size that drm_mm_debug_hole prints. -/
def holeSize (mm : DrmMm) (r : NodeRef) : ℕ :=
  Word.sub 64 (drmMmHoleNodeEnd mm r) (drmMmHoleNodeStart mm r)

namespace MmRequest
variable (q : MmRequest)

/-- The smallest of the holes with room. -/
def Smallest (mm : DrmMm) (r : NodeRef) : Prop :=
  r ∈ mm.holeStack ∧ q.HasRoom mm r ∧
    ∀ r' ∈ mm.holeStack, q.HasRoom mm r' → holeSize mm r ≤ holeSize mm r'

/-- The best-fit search finds the smallest hole with room, if there is one. -/
def FindsSmallest (mm : DrmMm) : Prop :=
  match q.searchFree mm true with
  | none => ∀ r ∈ mm.holeStack, ¬ q.HasRoom mm r
  | some r => q.Smallest mm r

/-- A hole with room, or one that is taken for one. -/
def Accepted (mm : DrmMm) (r : NodeRef) : Prop := q.HasRoom mm r ∨ q.WrapsBehind mm r

/-- The smallest hole with room is the one that has the smallest node in front, or none has room and
those that wrap come after nodes of the largest size. -/
def NodesAgree (mm : DrmMm) : Prop :=
  (∃ r, q.Smallest mm r ∧ SmallestInFront mm (q.Accepted mm) mm.holeStack (2 ^ 64 - 1) r) ∨
    ∀ r ∈ mm.holeStack, ¬ q.HasRoom mm r ∧
      (q.WrapsBehind mm r → 2 ^ 64 - 1 ≤ (mm.node r).size)

end MmRequest

namespace DrmMm
variable {mm : DrmMm} {q : MmRequest} {accepted : NodeRef → Prop} {fits : NodeRef → Bool}
  {l : List NodeRef} {r r' : NodeRef} {bestSize : ℕ}

/-- What the walk ends with, by induction on the holes that are left. -/
theorem searchHoles_best (mm : DrmMm) (hfits : ∀ r, fits r = true ↔ accepted r) (l : List NodeRef)
    (best : Option NodeRef) (bestSize : ℕ) :
    (searchHoles mm fits true l best bestSize = best ∧
        ∀ r ∈ l, accepted r → bestSize ≤ (mm.node r).size) ∨
      ∃ r, searchHoles mm fits true l best bestSize = some r ∧
        SmallestInFront mm accepted l bestSize r := by
  induction l generalizing best bestSize with
  | nil => exact .inl ⟨rfl, fun r hr => (List.not_mem_nil hr).elim⟩
  | cons a l ih =>
    by_cases ha : fits a = true
    · have hacc := (hfits a).mp ha
      by_cases hlt : (mm.node a).size < bestSize
      · -- `a` is the best so far
        have hstep : searchHoles mm fits true (a :: l) best bestSize =
            searchHoles mm fits true l (some a) (mm.node a).size := by
          simp [searchHoles, ha, hlt]
        rw [hstep]
        rcases ih (some a) (mm.node a).size with ⟨hres, hle⟩ |
          ⟨r, hres, pre, post, hl, hr, hsize, hpre, hpost⟩
        · exact .inr ⟨a, hres, [], l, rfl, hacc, hlt, fun r hr => (List.not_mem_nil hr).elim, hle⟩
        · refine .inr ⟨r, hres, a :: pre, post, by rw [hl]; rfl, hr, hsize.trans hlt, ?_, hpost⟩
          intro r' hr' hacc'
          rcases List.mem_cons.mp hr' with rfl | hr'
          · exact hsize
          · exact hpre r' hr' hacc'
      · have hstep : searchHoles mm fits true (a :: l) best bestSize =
            searchHoles mm fits true l best bestSize := by
          simp [searchHoles, hlt]
        rw [hstep]
        rw [not_lt] at hlt
        rcases ih best bestSize with ⟨hres, hle⟩ |
          ⟨r, hres, pre, post, hl, hr, hsize, hpre, hpost⟩
        · refine .inl ⟨hres, fun r hr hacc' => ?_⟩
          rcases List.mem_cons.mp hr with rfl | hr
          · exact hlt
          · exact hle r hr hacc'
        · refine .inr ⟨r, hres, a :: pre, post, by rw [hl]; rfl, hr, hsize, ?_, hpost⟩
          intro r' hr' hacc'
          rcases List.mem_cons.mp hr' with rfl | hr'
          · exact hsize.trans_le hlt
          · exact hpre r' hr' hacc'
    · have hstep : searchHoles mm fits true (a :: l) best bestSize =
          searchHoles mm fits true l best bestSize := by
        simp [searchHoles, ha]
      rw [hstep]
      have hnot : ¬ accepted a := fun hacc => ha ((hfits a).mpr hacc)
      rcases ih best bestSize with ⟨hres, hle⟩ |
        ⟨r, hres, pre, post, hl, hr, hsize, hpre, hpost⟩
      · refine .inl ⟨hres, fun r hr hacc' => ?_⟩
        rcases List.mem_cons.mp hr with rfl | hr
        · exact absurd hacc' hnot
        · exact hle r hr hacc'
      · refine .inr ⟨r, hres, a :: pre, post, by rw [hl]; rfl, hr, hsize, ?_, hpost⟩
        intro r' hr' hacc'
        rcases List.mem_cons.mp hr' with rfl | hr'
        · exact absurd hacc' hnot
        · exact hpre r' hr' hacc'

theorem SmallestInFront.unique (h : SmallestInFront mm accepted l bestSize r)
    (h' : SmallestInFront mm accepted l bestSize r') : r = r' := by
  obtain ⟨pre, post, hl, hr, -, hpre, hpost⟩ := h
  obtain ⟨pre', post', hl', hr', -, hpre', hpost'⟩ := h'
  rw [hl] at hl'
  rcases List.append_eq_append_iff.mp hl' with ⟨c, hc, hrest⟩ | ⟨c, hc, hrest⟩
  · cases c with
    | nil => exact (List.cons.inj hrest).1
    | cons a c =>
      -- `r` comes first, so its node is the larger one and the smaller one
      obtain ⟨rfl, hpost₂⟩ := List.cons.inj hrest
      have hlt := hpre' r (hc ▸ List.mem_append_right _ List.mem_cons_self) hr
      have hle := hpost r' (hpost₂ ▸ List.mem_append_right _ List.mem_cons_self) hr'
      omega
  · cases c with
    | nil => exact (List.cons.inj hrest).1.symm
    | cons a c =>
      obtain ⟨rfl, hpost₂⟩ := List.cons.inj hrest
      have hlt := hpre r' (hc ▸ List.mem_append_right _ List.mem_cons_self) hr'
      have hle := hpost' r (hpost₂ ▸ List.mem_append_right _ List.mem_cons_self) hr
      omega

end DrmMm

/-- Three blocks in `[0, 0x10000)` with a large hole behind the small one and a small hole behind the
large one. -/
def unevenHoles : DrmMm :=
  ([.createBlock (some 0) 0 0x1000, .createBlock (some 1) 0x5000 0x2000,
    .createBlock (some 2) 0x8000 0x8000] : List DrmMmOp).foldl DrmMmOp.apply
    { drmMmInit 0 0x10000 with colorAdjust := none }

end GfxDrm
