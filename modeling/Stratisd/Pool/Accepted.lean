import Stratisd.Pool.Loadable
import Stratisd.Backstore.InPlace

/-! What the check of recorded metadata lets through. The check compares the end of the highest
segment with the recorded size of the cap device and with the sum of all segments. It does not
look at where the other segments are. -/

namespace Stratisd.Pool

open Run Run.Outcome Engine Extent Backstore Thinpool
open PerDevSegments.InPlace (sumFrom sumFrom_eq sumFrom_eq_ok)

/-! ### The check on `u64` -/

/-- The last segment of a flex device that starts highest. -/
def highest (flexDevs : FlexDevsSave) : StratisResult Range := do
  let mdv ← Outcome.expect flexDevs.metaDev.getLast?
  let thinMeta ← Outcome.expect flexDevs.thinMetaDev.getLast?
  let thinData ← Outcome.expect flexDevs.thinDataDev.getLast?
  let spare ← Outcome.expect flexDevs.thinMetaDevSpare.getLast?
  Outcome.expect (maxByStart [mdv, thinMeta, thinData, spare])

theorem nextIndex_eq (flexDevs : FlexDevsSave) :
    nextIndex flexDevs = highest flexDevs >>= fun r => .ok (r.1 + r.2) := by
  unfold nextIndex highest
  cases flexDevs.metaDev.getLast? <;> cases flexDevs.thinMetaDev.getLast? <;>
    cases flexDevs.thinDataDev.getLast? <;> cases flexDevs.thinMetaDevSpare.getLast? <;> rfl

namespace U64

variable (overflowChecks : Bool)

def nextIndex (flexDevs : FlexDevsSave) : StratisResult ℕ := do
  let r ← highest flexDevs
  addU64 overflowChecks r.1 r.2

/-- The ranges of the block devices that the data tier has recorded. -/
def dataRanges (segments : List BaseDevSave) : List Range :=
  segments.map fun s => (s.start, s.length)

/-- The check of recorded metadata, in the arithmetic of the source: the numbers are as
recorded, and nothing bounds what they add up to. -/
def checkMetadata (metadata : PoolSave) : StratisResult Unit := do
  let next ← nextIndex overflowChecks metadata.flexDevs
  let cap ← Outcome.expect metadata.backstore.cap.allocs[0]?
  checkCap next cap.2
  let totalAllocated ← sumFrom overflowChecks 0 (flexSegments metadata.flexDevs)
  checkFlex metadata.name next totalAllocated
  let segments ← Outcome.expect metadata.backstore.dataTier.blockdev.allocs[0]?
  let totalAllocated ← sumFrom overflowChecks 0 (dataRanges segments)
  checkDataTier metadata.name next totalAllocated

theorem total_dataRanges (segments : List BaseDevSave) :
    total (dataRanges segments) = (segments.map (·.length)).sum := by
  unfold total dataRanges
  rw [List.map_map]
  rfl

theorem checkMetadata_eq {metadata : PoolSave}
    (hhigh : ∀ r, highest metadata.flexDevs = .ok r → r.1 + r.2 < u64Bound)
    (hflex : total (flexSegments metadata.flexDevs) < u64Bound)
    (hdata : ∀ segments, metadata.backstore.dataTier.blockdev.allocs[0]? = some segments →
      (segments.map (·.length)).sum < u64Bound) :
    checkMetadata overflowChecks metadata = Pool.checkMetadata metadata := by
  unfold checkMetadata Pool.checkMetadata
  have hnext : nextIndex overflowChecks metadata.flexDevs = Pool.nextIndex metadata.flexDevs := by
    rw [nextIndex_eq]
    exact bind_congr fun r hr => addU64_of_lt (hhigh r hr)
  rw [hnext]
  refine bind_congr fun next _ => bind_congr fun cap _ =>
    bind_congr fun _ _ => ?_
  rw [sumFrom_eq (by rwa [Nat.zero_add]), ok_bind, Nat.zero_add]
  refine bind_congr fun _ _ => bind_congr fun segments hsegments => ?_
  have hlt := hdata segments (expect_eq_ok.mp hsegments)
  rw [← total_dataRanges] at hlt ⊢
  rw [sumFrom_eq (by rwa [Nat.zero_add]), ok_bind, Nat.zero_add]

/-- What has been compared when metadata is accepted. -/
theorem checkMetadata_eq_ok {overflowChecks : Bool} {metadata : PoolSave}
    (h : checkMetadata overflowChecks metadata = .ok ()) :
    ∃ cap segments, metadata.backstore.cap.allocs[0]? = some cap ∧
      metadata.backstore.dataTier.blockdev.allocs[0]? = some segments ∧
      nextIndex overflowChecks metadata.flexDevs = .ok cap.2 ∧
      cap.2 = total (flexSegments metadata.flexDevs) % u64Bound ∧
      cap.2 ≤ (segments.map (·.length)).sum := by
  obtain ⟨next, hnext, h⟩ := Outcome.bind_eq_ok.mp h
  obtain ⟨cap, hcap, h⟩ := Outcome.bind_eq_ok.mp h
  obtain ⟨_, hcheck, h⟩ := Outcome.bind_eq_ok.mp h
  obtain ⟨flex, hflex, h⟩ := Outcome.bind_eq_ok.mp h
  obtain ⟨_, htotal, h⟩ := Outcome.bind_eq_ok.mp h
  obtain ⟨segments, hsegments, h⟩ := Outcome.bind_eq_ok.mp h
  obtain ⟨data, hdata, h⟩ := Outcome.bind_eq_ok.mp h
  obtain ⟨hcheck, -⟩ := ite_err_eq_ok.mp hcheck
  obtain ⟨htotal, -⟩ := ite_err_eq_ok.mp htotal
  obtain ⟨-, h⟩ := ite_err_eq_ok.mp h
  obtain ⟨hle, -⟩ := ite_err_eq_ok.mp h
  have hflex := sumFrom_eq_ok (by decide) hflex
  have hdata := sumFrom_eq_ok (by decide) hdata
  rw [Nat.zero_add] at hflex hdata
  have hwrap := Nat.mod_le (total (dataRanges segments)) u64Bound
  rw [total_dataRanges] at hwrap hdata
  obtain rfl : cap.2 = next := not_not.mp hcheck
  refine ⟨cap, segments, expect_eq_ok.mp hcap, expect_eq_ok.mp hsegments, hnext,
    ?_, ?_⟩
  · exact (not_not.mp htotal).symm.trans hflex
  · omega

end U64

/-! ### Metadata of devices that do not overlap -/

def flexDevices (f : FlexDevsSave) : List (List Range) :=
  [f.metaDev, f.thinMetaDev, f.thinDataDev, f.thinMetaDevSpare]

/-- The recorded devices divide the used part of the cap device among them, and it is part of
the data tier. -/
structure Divided (overflowChecks : Bool) (metadata : PoolSave) (next : ℕ) : Prop where
  next_eq : U64.nextIndex overflowChecks metadata.flexDevs = .ok next
  separate : Separate (flexSegments metadata.flexDevs)
  cover : cells (flexSegments metadata.flexDevs) = Finset.range next
  le_dataTier : ∃ segments, metadata.backstore.dataTier.blockdev.allocs[0]? = some segments ∧
    next ≤ (segments.map (·.length)).sum
  no_shared : (flexDevices metadata.flexDevs).Pairwise fun d e => Disjoint (cells d) (cells e)

/-- The segments are apart from each other, and within what the record says is allocated from the
cap device. -/
structure Apart (metadata : PoolSave) : Prop where
  separate : Separate (flexSegments metadata.flexDevs)
  within : ∀ cap, metadata.backstore.cap.allocs[0]? = some cap →
    ∀ r ∈ flexSegments metadata.flexDevs, 0 < r.2 → r.1 + r.2 ≤ cap.2

theorem disjoint_flexDevices {f : FlexDevsSave} (h : Separate (flexSegments f)) :
    (flexDevices f).Pairwise fun d e => Disjoint (cells d) (cells e) := by
  unfold flexSegments at h
  simp only [separate_append, cells_append, Finset.disjoint_union_left] at h
  obtain ⟨⟨⟨-, -, h1⟩, -, h2, h3⟩, -, ⟨h4, h5⟩, h6⟩ := h
  simp [flexDevices, h1, h2, h3, h4, h5, h6]

/-- Metadata that the check accepts divides the cap device among the flex devices exactly if its
segments are apart and within the recorded allocation: the sums leave no gaps then, also when
they have wrapped. -/
theorem checkMetadata_divided_iff {overflowChecks : Bool} {metadata : PoolSave}
    (h : U64.checkMetadata overflowChecks metadata = .ok ()) :
    (∃ next, Divided overflowChecks metadata next) ↔ Apart metadata := by
  obtain ⟨cap, segments, hcap, hsegments, hnext, htotal, hle⟩ := U64.checkMetadata_eq_ok h
  constructor
  · rintro ⟨next, hd⟩
    obtain rfl : cap.2 = next := Outcome.ok.inj (hnext.symm.trans hd.next_eq)
    refine ⟨hd.separate, fun cap' hcap' => ?_⟩
    obtain rfl := Option.some.inj (hcap.symm.trans hcap')
    exact cells_subset_range.mp hd.cover.subset
  · intro ha
    have hsub := cells_subset_range.mpr (ha.within cap hcap)
    have hcard : total (flexSegments metadata.flexDevs) ≤ cap.2 := by
      rw [← ha.separate.card, ← Finset.card_range cap.2]
      exact Finset.card_le_card hsub
    -- the segments are too short for their sum to have wrapped
    have hlt : cap.2 < u64Bound := htotal ▸ Nat.mod_lt _ (by decide)
    rw [Nat.mod_eq_of_lt (hcard.trans_lt hlt)] at htotal
    refine ⟨cap.2, hnext, ha.separate, ?_, ⟨segments, hsegments, hle⟩,
      disjoint_flexDevices ha.separate⟩
    rw [htotal] at hsub ⊢
    exact ha.separate.cells_eq_range hsub

/-- Metadata of a new pool on one device, with the spare recorded at the given sector. -/
def spareAt (start : ℕ) : PoolSave where
  name := "pool1"
  backstore := ⟨⟨⟨[[⟨⟨1#128⟩, 8192, 1671168⟩]], []⟩⟩, ⟨[(0, 1671168)]⟩, none⟩
  flexDevs :=
    { metaDev := [(1638400, 32768)]
      thinMetaDev := [(0, 32768)]
      thinDataDev := [(65536, 1572864)]
      thinMetaDevSpare := [(start, 32768)] }
  thinpoolDev := ⟨dataBlockSize⟩

theorem checkMetadata_spareAt (overflowChecks : Bool) {start : ℕ} (h : start < 1638400) :
    U64.checkMetadata overflowChecks (spareAt start) = .ok () := by
  have hhigh : highest (spareAt start).flexDevs = .ok (1638400, 32768) := by
    have hmax : ¬ 1638400 ≤ start := not_le.mpr h
    simp [highest, spareAt, maxByStart, hmax]
  have hnext : U64.nextIndex overflowChecks (spareAt start).flexDevs = .ok 1671168 := by
    have hadd : addU64 overflowChecks 1638400 32768 = .ok (1638400 + 32768) :=
      addU64_of_lt (by decide)
    rw [U64.nextIndex, hhigh]
    exact hadd
  rw [U64.checkMetadata, hnext]
  cases overflowChecks <;> rfl

theorem checkMetadata_divided_new_pool : ∃ next, Divided false (spareAt 32768) next := by
  have hsep : Separate (flexSegments (spareAt 32768).flexDevs) := by
    simp [Separate, flexSegments, spareAt, Range.disjoint_cells]
  have hwithin : ∀ r ∈ flexSegments (spareAt 32768).flexDevs, r.1 + r.2 ≤ 1671168 := by decide
  refine (checkMetadata_divided_iff (checkMetadata_spareAt false (by decide))).mpr
    ⟨hsep, fun cap hcap r hr _ => ?_⟩
  obtain rfl : (0, 1671168) = cap := Option.some.inj hcap
  exact hwithin r hr

/-- A spare that is recorded over the thin pool's metadata is accepted. -/
theorem checkMetadata_accepts_overlap :
    U64.checkMetadata false (spareAt 0) = .ok () ∧ U64.checkMetadata true (spareAt 0) = .ok () ∧
      (∀ d ∈ flexDevices (spareAt 0).flexDevs, d ≠ []) ∧
      ¬ Disjoint (cells (spareAt 0).flexDevs.thinMetaDev)
        (cells (spareAt 0).flexDevs.thinMetaDevSpare) ∧
      ¬ (∃ next, Divided false (spareAt 0) next) ∧ ¬ ∃ next, Divided true (spareAt 0) next := by
  have hshared : ¬ Disjoint (cells (spareAt 0).flexDevs.thinMetaDev)
      (cells (spareAt 0).flexDevs.thinMetaDevSpare) := by
    rw [Finset.not_disjoint_iff]
    exact ⟨0, by simp [spareAt], by simp [spareAt]⟩
  have hnot : ∀ overflowChecks next, ¬ Divided overflowChecks (spareAt 0) next := by
    intro overflowChecks next hd
    have hmeta := (List.pairwise_cons.mp (List.pairwise_cons.mp hd.no_shared).2).1
    exact hshared (hmeta _ (by simp [spareAt]))
  exact ⟨checkMetadata_spareAt false (by decide), checkMetadata_spareAt true (by decide),
    by decide, hshared, fun ⟨next, hd⟩ => hnot _ next hd, fun ⟨next, hd⟩ => hnot _ next hd⟩

end Stratisd.Pool
