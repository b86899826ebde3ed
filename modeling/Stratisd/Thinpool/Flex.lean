import Stratisd.Backstore.DmTable

/-! The devices that the thin pool cuts out of the cap device: the metadata and data of the
thin pool, the spare for a repair of the metadata, and the volume with the filesystem
metadata. Each of them is a list of ranges of the cap device. -/

namespace Stratisd.Thinpool

open Run Run.Outcome Engine Extent Backstore List

/-! ### Sizes -/

/-- Sectors in a data block. -/
def dataBlockSize : ℕ := 2048

/-- In data blocks. -/
def dataLowater : ℕ := 2048

/-- Sectors in a block of thin pool metadata. -/
def metaBlockSize : ℕ := 8

/-- In metadata blocks. -/
def initialMetaSize : ℕ := 4096

/-- The least that the metadata device is extended by, in metadata blocks. -/
def minMetaSegmentSize : ℕ := 4096

/-- In data blocks. -/
def initialDataSize : ℕ := 768

/-- In sectors. -/
def initialMdvSize : ℕ := 32768

/-- The largest metadata device that device-mapper allows, in metadata blocks. -/
def maxMetaSize : ℕ := 255 * (2 ^ 14 - 64)

def spaceCritPct : ℕ := 95

def sectorsToDatablocks (sectors : ℕ) : ℕ := sectors / dataBlockSize

def datablocksToSectors (blocks : ℕ) : ℕ := blocks * dataBlockSize

structure ThinPoolSizeParams where
  metaSize : ℕ
  dataSize : ℕ
  mdvSize : ℕ
  deriving DecidableEq

def ThinPoolSizeParams.default : ThinPoolSizeParams :=
  ⟨initialMetaSize, initialDataSize, initialMdvSize⟩

/-- What is taken from the cap device for a new thin pool, in sectors: metadata, spare, data
and the metadata volume. -/
def ThinPoolSizeParams.sizes (p : ThinPoolSizeParams) : List ℕ :=
  [p.metaSize * metaBlockSize, p.metaSize * metaBlockSize, datablocksToSectors p.dataSize,
    p.mdvSize]

/-! ### The low water mark -/

/-- The larger of the marks for extending the data device and for running out of space,
counted from the end of the data device. -/
def prelimMax (lowWaterForCrit available : ℕ) : StratisResult ℕ :=
  if dataLowater + available > lowWaterForCrit then .ok dataLowater
  else if lowWaterForCrit ≥ available then .ok (lowWaterForCrit - available)
  else .panic

/-- The new low water mark, in data blocks. -/
def calcLowater (overflowChecks : Bool) (used dataDevSize available : ℕ) : StratisResult ℕ :=
  let total := dataDevSize + available
  let critPercentTotal := total * spaceCritPct / 100
  if ¬ critPercentTotal < total then .panic
  else if ¬ u64Bound - 1 - available ≥ dataLowater then .panic
  else do
    let prelim ← prelimMax (total - critPercentTotal) available
    let free ← subU64 overflowChecks dataDevSize used
    .ok (max prelim (free - dataLowater))

theorem prelimMax_eq_max (lowWaterForCrit available : ℕ) :
    prelimMax lowWaterForCrit available = .ok (max dataLowater (lowWaterForCrit - available)) := by
  unfold prelimMax
  split_ifs with hextend hge
  · rw [Nat.max_eq_left (by omega)]
  · rw [Nat.max_eq_right (by omega)]
  · omega

/-- The mark is the largest of the three marks it is made of. -/
theorem calcLowater_eq_max {overflowChecks : Bool} {used dataDevSize available : ℕ}
    (hused : used ≤ dataDevSize) (htotal : 0 < dataDevSize + available)
    (hroom : dataLowater + available < u64Bound) :
    calcLowater overflowChecks used dataDevSize available =
      .ok (max (max dataLowater (dataDevSize + available -
        (dataDevSize + available) * spaceCritPct / 100 - available))
        (dataDevSize - used - dataLowater)) := by
  have hcrit : (dataDevSize + available) * spaceCritPct / 100 < dataDevSize + available := by
    have hpct : (dataDevSize + available) * spaceCritPct < (dataDevSize + available) * 100 :=
      Nat.mul_lt_mul_of_pos_left (by decide) htotal
    exact Nat.div_lt_of_lt_mul (by omega)
  unfold calcLowater
  rw [if_neg (not_not.mpr hcrit), if_neg (by omega), prelimMax_eq_max, ok_bind,
    subU64_of_le hused, ok_bind]

namespace U64

/-- The mark of `Thinpool.prelimMax`, in the arithmetic of the source. -/
def prelimMax (overflowChecks : Bool) (lowWaterForCrit available : ℕ) : StratisResult ℕ := do
  let extendLowater ← addU64 overflowChecks dataLowater available
  if extendLowater > lowWaterForCrit then .ok dataLowater
  else if lowWaterForCrit ≥ available then subU64 overflowChecks lowWaterForCrit available
  else .panic

/-- The new low water mark, in the arithmetic of the source. -/
def calcLowater (overflowChecks : Bool) (used dataDevSize available : ℕ) : StratisResult ℕ := do
  let total ← addU64 overflowChecks dataDevSize available
  let product ← mulU64 overflowChecks total spaceCritPct
  let critPercentTotal := product / 100
  if ¬ critPercentTotal < total then .panic
  else
    let lowWaterForCrit ← subU64 overflowChecks total critPercentTotal
    let headroom ← subU64 overflowChecks (u64Bound - 1) available
    if ¬ headroom ≥ dataLowater then .panic
    else
      let prelim ← prelimMax overflowChecks lowWaterForCrit available
      let free ← subU64 overflowChecks dataDevSize used
      .ok (max prelim (free - dataLowater))

theorem prelimMax_eq (overflowChecks : Bool) (lowWaterForCrit : ℕ) {available : ℕ}
    (h : dataLowater + available < u64Bound) :
    prelimMax overflowChecks lowWaterForCrit available =
      Thinpool.prelimMax lowWaterForCrit available := by
  unfold prelimMax Thinpool.prelimMax
  rw [addU64_of_lt h, ok_bind]
  split_ifs with hextend hge
  · rfl
  · exact subU64_of_le hge
  · rfl

theorem calcLowater_eq {overflowChecks : Bool} {used dataDevSize available : ℕ}
    (h : (dataDevSize + available) * spaceCritPct < u64Bound) :
    calcLowater overflowChecks used dataDevSize available =
      Thinpool.calcLowater overflowChecks used dataDevSize available := by
  have hfits : (dataDevSize + available) * 95 < u64Bound := h
  have hbound : u64Bound = 18446744073709551616 := rfl
  have hlow : dataLowater = 2048 := rfl
  unfold calcLowater Thinpool.calcLowater
  rw [addU64_of_lt (by omega), ok_bind, mulU64_of_lt h, ok_bind]
  dsimp only
  by_cases hcrit : (dataDevSize + available) * spaceCritPct / 100 < dataDevSize + available
  · have hroom : u64Bound - 1 - available ≥ dataLowater := by omega
    rw [if_neg (not_not.mpr hcrit), if_neg (not_not.mpr hcrit), if_neg (not_not.mpr hroom),
      subU64_of_le hcrit.le, ok_bind, subU64_of_le (by omega), ok_bind,
      if_neg (not_not.mpr hroom), prelimMax_eq overflowChecks _ (by omega)]
  · rw [if_pos hcrit, if_pos hcrit]

/-- The mark is computed without a failed assertion or subtraction. It keeps the event for the
data device and the one for critical usage, and until the event for this mark usage is neither
critical nor much above what it was. -/
theorem calcLowater_guards (overflowChecks : Bool) (used dataDevSize available : ℕ)
    (hused : used ≤ dataDevSize) (htotal : 0 < dataDevSize + available)
    (hfits : (dataDevSize + available) * spaceCritPct < u64Bound) :
    ∃ lowater, calcLowater overflowChecks used dataDevSize available = .ok lowater ∧
      dataLowater ≤ lowater ∧
      dataDevSize - (dataDevSize + available) * spaceCritPct / 100 ≤ lowater ∧
      ∀ u, used ≤ u → u ≤ dataDevSize → lowater ≤ dataDevSize - u →
        u ≤ (dataDevSize + available) * spaceCritPct / 100 ∧ u ≤ used + dataLowater := by
  have hroom : dataLowater + available < u64Bound := by
    have hlow : dataLowater = 2048 := rfl
    have hbound : u64Bound = 18446744073709551616 := rfl
    have hproduct : (dataDevSize + available) * 95 < u64Bound := hfits
    omega
  refine ⟨_, (calcLowater_eq hfits).trans (calcLowater_eq_max hused htotal hroom), ?_, ?_, ?_⟩
  · omega
  · omega
  · intro u hu hle hquiet
    -- each of the two marks is below the larger one, which is no larger than what is free
    constructor <;> omega

/-- A data device of two terabytes, a quarter used, and nothing left to extend it by. -/
theorem calcLowater_guards_extended :
    ∃ lowater, calcLowater true 524288 2097152 0 = .ok lowater ∧ dataLowater ≤ lowater ∧
      2097152 - (2097152 + 0) * spaceCritPct / 100 ≤ lowater ∧
      ∀ u, 524288 ≤ u → u ≤ 2097152 → lowater ≤ 2097152 - u →
        u ≤ (2097152 + 0) * spaceCritPct / 100 ∧ u ≤ 524288 + dataLowater :=
  calcLowater_guards true 524288 2097152 0 (by decide) (by decide) (by decide)

end U64

/-! ### Segments -/

/-- A linear table over segments of one device. -/
def segsToTable (dev : Device) (segments : List Range) : List TargetLine :=
  linearLines 0 (segments.map fun r => (dev, r))

/-- Two segments as one, if the second continues the first. -/
def joinSegs (left right : Range) : Option Range :=
  if left.1 + left.2 = right.1 then some (left.1, left.2 + right.2) else none

/-- Append segments, merged at the seam if they are adjacent there. -/
def coalesceSegs (left right : List Range) : List Range := appendJoining joinSegs left right

structure Segments where
  metaSegments : List Range
  metaSpareSegments : List Range
  dataSegments : List Range
  mdvSegments : List Range
  deriving DecidableEq

structure FlexDevsSave where
  metaDev : List Range
  thinMetaDev : List Range
  thinDataDev : List Range
  thinMetaDevSpare : List Range
  deriving DecidableEq

def Segments.record (s : Segments) : FlexDevsSave :=
  ⟨s.mdvSegments, s.metaSegments, s.dataSegments, s.metaSpareSegments⟩

/-- The devices under the thin pool that can be extended. -/
inductive SubDevice where
  | thinData
  | thinMeta
  deriving DecidableEq

namespace Segments

def get (s : Segments) : SubDevice → List Range
  | .thinData => s.dataSegments
  | .thinMeta => s.metaSegments

def set (s : Segments) (segs : List Range) : SubDevice → Segments
  | .thinData => { s with dataSegments := segs }
  | .thinMeta => { s with metaSegments := segs }

def lists (s : Segments) : List (List Range) :=
  [s.mdvSegments, s.metaSegments, s.dataSegments, s.metaSpareSegments]

def all (s : Segments) : List Range :=
  s.mdvSegments ++ s.metaSegments ++ s.dataSegments ++ s.metaSpareSegments

@[simp] theorem set_get (s : Segments) (sub : SubDevice) : s.set (s.get sub) sub = s := by
  cases sub <;> rfl

@[simp] theorem get_set (s : Segments) (segs : List Range) (sub : SubDevice) :
    (s.set segs sub).get sub = segs := by
  cases sub <;> rfl

theorem exists_all_set (s : Segments) (sub : SubDevice) :
    ∃ pre post, ∀ segs, (s.set segs sub).all = pre ++ segs ++ post := by
  cases sub with
  | thinData => exact ⟨s.mdvSegments ++ s.metaSegments, s.metaSpareSegments, fun _ => rfl⟩
  | thinMeta =>
    refine ⟨s.mdvSegments, s.dataSegments ++ s.metaSpareSegments, fun segs => ?_⟩
    simp [all, set, append_assoc]

theorem mem_lists_set {s : Segments} {segs l : List Range} {sub : SubDevice}
    (h : l ∈ (s.set segs sub).lists) : l = segs ∨ ∀ segs', l ∈ (s.set segs' sub).lists := by
  cases sub <;> simp only [lists, set, mem_cons, not_mem_nil, or_false] at h ⊢ <;> tauto

theorem set_mem_lists (s : Segments) (segs : List Range) (sub : SubDevice) :
    segs ∈ (s.set segs sub).lists := by
  cases sub <;> simp [lists, set]

theorem mem_all_of_mem_lists {s : Segments} {l : List Range} {r : Range} (hl : l ∈ s.lists)
    (hr : r ∈ l) : r ∈ s.all := by
  simp only [lists, mem_cons, not_mem_nil, or_false] at hl
  rcases hl with rfl | rfl | rfl | rfl <;> simp [all, hr]

end Segments

/-! ### Tilings of the cap device -/

/-- The devices cover the cap device up to an index, each sector once, and the segments of
each are in ascending order. -/
structure Segments.Tiles (s : Segments) (next : ℕ) : Prop where
  nonempty : ∀ l ∈ s.lists, l ≠ []
  pos : ∀ r ∈ s.all, 0 < r.2
  ascending : ∀ l ∈ s.lists, l.Pairwise fun r q => r.1 < q.1
  separate : Separate s.all
  cover : cells s.all = Finset.range next

namespace Segments.Tiles

variable {s : Segments} {next : ℕ}

theorem total_eq (h : s.Tiles next) : total s.all = next := by
  rw [← h.separate.card, h.cover, Finset.card_range]

theorem end_le (h : s.Tiles next) {r : Range} (hr : r ∈ s.all) : r.1 + r.2 ≤ next := by
  have hsub : cells s.all ⊆ Finset.range next := h.cover.subset
  exact cells_subset_range.mp hsub r hr (h.pos r hr)

theorem join {sub : SubDevice} {xs ys : List Range} {a b c : Range} (hj : joinSegs a b = some c)
    (h : (s.set (xs ++ a :: b :: ys) sub).Tiles next) :
    (s.set (xs ++ c :: ys) sub).Tiles next := by
  obtain ⟨start, l⟩ := a
  obtain ⟨start', m⟩ := b
  unfold joinSegs at hj
  split_ifs at hj with hadj
  simp only at hadj
  obtain rfl := Option.some.inj hj
  subst hadj
  obtain ⟨pre, post, hall⟩ := s.exists_all_set sub
  have hsplit : ∀ zs, (s.set (xs ++ zs) sub).all = (pre ++ xs) ++ (zs ++ post) := fun zs => by
    rw [hall, append_assoc, append_assoc, append_assoc]
  have hpos : ∀ r ∈ (s.set (xs ++ (start, l) :: (start + l, m) :: ys) sub).all, 0 < r.2 := h.pos
  have hl : 0 < l := hpos (start, l) (by simp [hsplit])
  have hasc := h.ascending _ (s.set_mem_lists _ sub)
  refine ⟨fun l' hl' => ?_, fun r hr => ?_, fun l' hl' => ?_, ?_, ?_⟩
  · rcases mem_lists_set hl' with rfl | hl'
    · simp
    · exact h.nonempty l' (hl' _)
  · rw [hsplit] at hr
    by_cases hc : r = (start, l + m)
    · rw [hc]
      exact Nat.add_pos_left hl m
    · refine hpos r ?_
      rw [hsplit]
      simp only [mem_append, mem_cons, cons_append] at hr ⊢
      tauto
  · rcases mem_lists_set hl' with rfl | hl'
    · -- the joined segment starts where the first one did
      have hsub : (xs ++ (start, l) :: ys).Sublist (xs ++ (start, l) :: (start + l, m) :: ys) :=
        List.Sublist.append_left ((sublist_cons_self _ _).cons_cons _) _
      have hrest := hasc.sublist hsub
      rw [pairwise_append, pairwise_cons] at hrest ⊢
      obtain ⟨h1, ⟨h2, h3⟩, h4⟩ := hrest
      refine ⟨h1, ⟨h2, h3⟩, fun r hr q hq => ?_⟩
      rcases mem_cons.mp hq with rfl | hq
      · exact h4 r hr (start, l) (by simp)
      · exact h4 r hr q (by simp [hq])
    · exact h.ascending l' (hl' _)
  · have := h.separate
    rw [hsplit] at this ⊢
    exact Separate.join this
  · have := h.cover
    rw [hsplit] at this ⊢
    rw [← this]
    exact cells_join _ _ _ _ _

theorem extend (h : s.Tiles next) {got : ℕ} (hpos : 0 < got) (sub : SubDevice) :
    (s.set (coalesceSegs (s.get sub) [(next, got)]) sub).Tiles (next + got) := by
  refine appendJoining_rule (P := fun segs => (s.set segs sub).Tiles (next + got)) ?_
    fun xs a b c ys hj hP => hP.join hj
  obtain ⟨pre, post, hall⟩ := s.exists_all_set sub
  have hold : s.all = pre ++ s.get sub ++ post := by
    rw [← hall, set_get]
  have hperm : (s.set (s.get sub ++ [(next, got)]) sub).all.Perm ((next, got) :: s.all) := by
    rw [hall, hold, ← append_assoc, append_assoc (pre ++ s.get sub)]
    exact perm_middle
  have hlists : ∀ l, (∀ segs', l ∈ (s.set segs' sub).lists) → l ∈ s.lists := fun l hl => by
    simpa using hl (s.get sub)
  have hmem : s.get sub ∈ s.lists := by simpa using s.set_mem_lists (s.get sub) sub
  refine ⟨fun l hl => ?_, fun r hr => ?_, fun l hl => ?_, ?_, ?_⟩
  · rcases mem_lists_set hl with rfl | hl
    · simp
    · exact h.nonempty l (hlists l hl)
  · rcases mem_cons.mp (hperm.mem_iff.mp hr) with rfl | hr
    · exact hpos
    · exact h.pos r hr
  · rcases mem_lists_set hl with rfl | hl
    · rw [pairwise_append]
      refine ⟨h.ascending _ hmem, pairwise_singleton _ _, fun r hr q hq => ?_⟩
      obtain rfl := mem_singleton.mp hq
      have hr := mem_all_of_mem_lists hmem hr
      have := h.end_le hr
      have := h.pos r hr
      simp only
      omega
    · exact h.ascending l (hlists l hl)
  · refine Separate.perm (pairwise_cons.mpr ⟨fun r hr => ?_, h.separate⟩) hperm.symm
    have := h.end_le hr
    exact Range.disjoint_cells.mpr (by simp only; omega)
  · rw [cells_perm hperm, cells_cons, h.cover]
    ext x
    simp only [Finset.mem_union, Range.mem_cells, Finset.mem_range]
    omega

theorem end_of_highest (h : s.Tiles next) {r : Range} (hr : r ∈ s.all)
    (hmax : ∀ q ∈ s.all, q.1 ≤ r.1) : r.1 + r.2 = next := by
  refine le_antisymm (h.end_le hr) (not_lt.mp fun hlt => ?_)
  have hcell : r.1 + r.2 ∈ cells s.all := by rwa [h.cover, Finset.mem_range]
  obtain ⟨q, hq, hin⟩ := mem_cells.mp hcell
  have hin := Range.mem_cells.mp hin
  have hle := hmax q hq
  have hpos := h.pos r hr
  -- two different segments would share the first sector of the last one
  have hne : q ≠ r := by
    rintro rfl
    omega
  have : Std.Symm fun r q : Range => Disjoint r.cells q.cells := ⟨fun _ _ hd => hd.symm⟩
  have hdis := List.Pairwise.forall h.separate hq hr hne
  have := Range.disjoint_cells.mp hdis
  omega

end Segments.Tiles

theorem Segments.total_all_set (s : Segments) (segs : List Range) (sub : SubDevice) :
    total (s.set segs sub).all + total (s.get sub) = total s.all + total segs := by
  cases sub <;> simp only [Segments.set, Segments.get, Segments.all, total_append] <;> omega

/-! ### Tables -/

theorem total_coalesceSegs (left right : List Range) :
    total (coalesceSegs left right) = total left + total right := by
  rw [← total_append]
  refine appendJoining_rule (P := fun segs => total segs = total (left ++ right)) rfl ?_
  intro xs a b c ys hj h
  unfold joinSegs at hj
  split_ifs at hj
  obtain rfl := Option.some.inj hj
  simp only [total_append, total_cons] at h ⊢
  omega

theorem address_coalesceSegs (dev : Device) (left right : List Range) :
    Layout.address ((coalesceSegs left right).map fun r => (dev, r)) =
      Layout.address ((left ++ right).map fun r => (dev, r)) := by
  refine appendJoining_rule (P := fun segs => Layout.address (segs.map fun r => (dev, r)) =
    Layout.address ((left ++ right).map fun r => (dev, r))) rfl fun xs a b c ys hj hP => ?_
  unfold joinSegs at hj
  split_ifs at hj with hadj
  obtain rfl := Option.some.inj hj
  rw [← hP]
  obtain ⟨start, l⟩ := a
  obtain ⟨start', m⟩ := b
  simp only at hadj
  subst hadj
  simp only [map_append, map_cons]
  exact (Layout.address_join_append _ _ _ _ _ _).symm

end Stratisd.Thinpool
