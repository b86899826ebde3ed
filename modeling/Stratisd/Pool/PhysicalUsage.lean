import Mathlib.Algebra.Order.BigOperators.Group.List
import Stratisd.Pool.Accepted
import Stratisd.Pool.GreedyRuns

/-! How much of the devices a pool reports to be in use. Every segment of the thin pool has been
given out by the cap device, the cap device is on segments of the data tier, and these are on the
devices beside the metadata. Failures of device-mapper only leave sectors that have been given out
and are not in use. -/

namespace Stratisd.Backstore

open Run Run.Outcome Engine

namespace Backstore

variable {b b' : Backstore}

/-- The devices of the data tier have given out at least its segments. -/
def Accounted (b : Backstore) : Prop :=
  ∃ history, Tracks b.datadevs history ∧
    totalLength b.dataTier.segments ≤ totalLength history

theorem Accounted.datatierSize_eq (h : b.Accounted) :
    b.datatierSize = .ok (b.datadevs.map (·.bda.devSize)).sum ∧
      totalLength b.dataTier.segments + b.datatierMetadataSize ≤
        (b.datadevs.map (·.bda.devSize)).sum := by
  obtain ⟨history, htr, hle⟩ := h
  have hsize := ok.inj (htr.size_eq.symm.trans htr.account)
  refine ⟨htr.size_eq, ?_⟩
  rw [datatierMetadataSize, DataTier.metadataSize, datadevs, hsize]
  omega

theorem stable_accounted : Stable Accounted := by
  refine stable_of_alloc (fun b n r h halloc => ?_) fun _ _ _ _ h => h
  obtain ⟨history, htr, hle⟩ := h
  obtain ⟨history', htr', heq⟩ := DataTier.alloc_tracks htr halloc
  refine ⟨history', htr', ?_⟩
  show totalLength r.1.segments ≤ totalLength history'
  omega

theorem accounted_addDatadevs (h : b.Accounted) (poolUuid : PoolUuid)
    {prepared : StratisResult (List StratBlockDev)} (hn : b.UnusedData prepared) :
    (addDatadevs poolUuid prepared b).1.Accounted := by
  rcases addDatadevs_cases poolUuid prepared b with heq | ⟨new, hnew, heq⟩
  · rwa [heq]
  · obtain ⟨hfresh, hnodup⟩ := hn new hnew
    obtain ⟨history, htr, hle⟩ := h
    rw [heq]
    exact ⟨history, htr.extend hnodup fun d hd => (hfresh d hd).holds, hle⟩

theorem accounted_of_fresh {devs : List StratBlockDev} (hfresh : ∀ d ∈ devs, d.Fresh)
    (hnodup : (devs.map (·.uuid)).Nodup) :
    Accounted ⟨none, none, DataTier.new ⟨devs, none⟩, none, 0⟩ :=
  ⟨[], CacheTier.tracks_of_fresh hfresh hnodup, le_rfl⟩

end Backstore

end Stratisd.Backstore

namespace Stratisd.Thinpool.ThinPool

open Run Run.Outcome Engine Extent Backstore
open PerDevSegments.InPlace (sumFrom sumFrom_eq)

/-- What is in use of the two devices under the thin pool, in sectors, by its status. -/
def devicesUsed (overflowChecks : Bool) (ids : String) :
    Option ThinPoolStatus → StratisResult (ℕ × ℕ)
  | none => .err (.msg s!"Unknown status for thin pool device with \"{ids}\"")
  | some (.working usage _) => do
    let dataDevUsed ← mulU64 overflowChecks usage.usedData dataBlockSize
    let metaDevUsed ← mulU64 overflowChecks usage.usedMeta metaBlockSize
    .ok (dataDevUsed, metaDevUsed)
  | some .error => .err (.msg
    s!"Devicemapper could not obtain status for devicemapper thin pool device with \"{ids}\"")
  | some .fail => .err (.msg s!"The thinpool device with \"{ids}\" has failed")

/-- What the thin pool uses of the cap device: the spare and the metadata volume are in use as a
whole. -/
def totalPhysicalUsed (overflowChecks : Bool) (ids : String) (t : ThinPool) : StratisResult ℕ := do
  let (dataDevUsed, metaDevUsed) ← devicesUsed overflowChecks ids t.thinPoolStatus
  let spareTotal ← sumFrom overflowChecks 0 t.segments.metaSpareSegments
  let mdvTotal ← sumFrom overflowChecks 0 t.segments.mdvSegments
  let used ← addU64 overflowChecks dataDevUsed spareTotal
  let used ← addU64 overflowChecks used metaDevUsed
  addU64 overflowChecks used mdvTotal

/-- The numbers in a status are within the segments of the two devices. -/
def UsageWithin (t : ThinPool) (usage : ThinPoolUsage) : Prop :=
  datablocksToSectors usage.usedData ≤ total t.segments.dataSegments ∧
    usage.usedMeta * metaBlockSize ≤ total t.segments.metaSegments

instance (t : ThinPool) (usage : ThinPoolUsage) : Decidable (t.UsageWithin usage) :=
  inferInstanceAs (Decidable (_ ∧ _))

theorem totalPhysicalUsed_le (overflowChecks : Bool) {t : ThinPool} {usage : ThinPoolUsage}
    {summary : ThinPoolStatusSummary} (hstatus : t.thinPoolStatus = some (.working usage summary))
    (hwithin : t.UsageWithin usage) (hfits : total t.segments.all < u64Bound) (ids : String) :
    ∃ used, t.totalPhysicalUsed overflowChecks ids = .ok used ∧ used ≤ total t.segments.all := by
  obtain ⟨hdata, hmeta⟩ := hwithin
  rw [datablocksToSectors] at hdata
  rw [Segments.all, total_append, total_append, total_append] at hfits ⊢
  refine ⟨usage.usedData * dataBlockSize + total t.segments.metaSpareSegments +
    usage.usedMeta * metaBlockSize + total t.segments.mdvSegments, ?_, by omega⟩
  have hdevices : devicesUsed overflowChecks ids (some (.working usage summary)) =
      .ok (usage.usedData * dataBlockSize, usage.usedMeta * metaBlockSize) := by
    rw [devicesUsed, mulU64_of_lt (by omega), ok_bind, mulU64_of_lt (by omega),
      ok_bind]
  rw [totalPhysicalUsed, hstatus, hdevices, ok_bind]
  simp only
  rw [sumFrom_eq (by omega), ok_bind, sumFrom_eq (by omega), ok_bind,
    addU64_of_lt (by omega), ok_bind, addU64_of_lt (by omega), ok_bind,
    addU64_of_lt (by omega), Nat.zero_add, Nat.zero_add]

end Stratisd.Thinpool.ThinPool

namespace Stratisd.Pool

open Run Run.Outcome Run.Stateful Engine Extent Metadata Backstore Thinpool Backstore.Backstore
open PerDevSegments.InPlace (fits_of_sumFrom)

namespace StratPool

def totalPhysicalSize (p : StratPool) : StratisResult ℕ := p.backstore.datatierSize

def totalPhysicalUsed (overflowChecks : Bool) (ids : String) (p : StratPool) : StratisResult ℕ := do
  let used ← p.thinPool.totalPhysicalUsed overflowChecks ids
  addU64 overflowChecks used p.backstore.datatierMetadataSize

end StratPool

/-! ### Setting up on `u64` -/

namespace U64

/-- The thin pool and the backstore of recorded metadata, with the check of the metadata on
`u64`. -/
def assemble (overflowChecks : Bool) (io : StratPool.SetupIo)
    (datadevs cachedevs : List StratBlockDev) (timestamp : DateTime) (metadata : PoolSave) :
    StratisResult Stacked := do
  checkMetadata overflowChecks metadata
  let b ← Backstore.setup io.backstore metadata.backstore datadevs cachedevs timestamp
  let thinPool ← ThinPool.setup overflowChecks io.thinPool metadata.thinpoolDev metadata.flexDevs b
  .ok ⟨thinPool, b⟩

def setup (overflowChecks : Bool) (io : StratPool.SetupIo)
    (datadevs cachedevs : List StratBlockDev) (timestamp : DateTime) (metadata : PoolSave) :
    StratisResult StratPool := do
  let s ← assemble overflowChecks io datadevs cachedevs timestamp metadata
  let checked := ThinPool.check overflowChecks io.check s
  let changed ← checked.2
  let written := StratPool.writeIfChanged io.save metadata.name changed ⟨checked.1, some metadata⟩
  written.2
  .ok written.1

end U64

/-! ### From the segments of the thin pool to the devices -/

/-- The segments of the thin pool are within the index of a backstore that has room for it. -/
structure Spacious (s : Stacked) : Prop where
  room : s.backstore.Room
  accounted : s.backstore.Accounted
  segments_le : total s.thinPool.segments.all ≤ s.backstore.next

/-- The same, of a backstore that may have lost its cap device. -/
structure Contained (s : Stacked) : Prop where
  shape : s.backstore.cache = none ∨ s.backstore.linear = none
  room : s.backstore.Room ∨ s.backstore.Capless
  accounted : s.backstore.Accounted
  segments_le : total s.thinPool.segments.all ≤ s.backstore.next
  next_le : s.backstore.next ≤ totalLength s.backstore.dataTier.segments

theorem Spacious.contained {s : Stacked} (h : Spacious s)
    (hshape : s.backstore.cache = none ∨ s.backstore.linear = none) : Contained s :=
  ⟨hshape, Or.inl h.room, h.accounted, h.segments_le, h.room.next_le.trans h.room.size_le⟩

theorem Contained.spacious {s : Stacked} (h : Contained s) (hc : ¬ s.backstore.Capless) :
    Spacious s := ⟨h.room.resolve_right hc, h.accounted, h.segments_le⟩

theorem Contained.reframe {s : Stacked} (h : Contained s) {t : ThinPool}
    (ht : t.segments = s.thinPool.segments) : Contained ⟨t, s.backstore⟩ := by
  refine ⟨h.shape, h.room, h.accounted, ?_, h.next_le⟩
  show total t.segments.all ≤ s.backstore.next
  rw [ht]
  exact h.segments_le

section parts

variable {overflowChecks : Bool}

theorem framed_spacious : Framed Spacious := by
  intro s t ht _ h
  refine ⟨h.room, h.accounted, ?_⟩
  show total t.segments.all ≤ s.backstore.next
  rw [ht]
  exact h.segments_le

/-- What an extension adds to the segments has been given out by the backstore, also if device-mapper
does not attach it. -/
theorem spacious_extendThinSubDevice (io : ThinPool.ExtendIo) (sub : SubDevice) (n modulus : ℕ) :
    Keeps Spacious (ThinPool.extendThinSubDevice overflowChecks io sub n modulus) := by
  intro s h
  obtain ⟨hroom, hcases⟩ :=
    ThinPool.extendThinSubDevice_room overflowChecks h.room io sub n modulus
  have haccounted := ThinPool.keeps_extendThinSubDevice stable_accounted overflowChecks
    io sub n modulus s h.accounted
  refine ⟨hroom, haccounted, ?_⟩
  have hle := h.segments_le
  rcases hcases with ⟨hnext, ht, -⟩ | ⟨got, device, -, hnext, -, ⟨-, -, ht⟩ | ⟨-, -, hsegs⟩⟩
  · rw [hnext, ht]
    exact hle
  · have hset := s.thinPool.segments.total_all_set
      (coalesceSegs (s.thinPool.segments.get sub) [(s.backstore.next, got)]) sub
    rw [total_coalesceSegs, total_cons, total_nil] at hset
    rw [hnext, ht, ThinPool.withRegion]
    simp only
    omega
  · rw [hnext, hsegs]
    omega

theorem spacious_check (env : ℕ → ThinPool.CheckIo) :
    Keeps Spacious (ThinPool.check overflowChecks env) :=
  ThinPool.keeps_check framed_spacious.devs fun _ =>
    ⟨fun _ => spacious_extendThinSubDevice _ _ _ _, fun _ => spacious_extendThinSubDevice _ _ _ _⟩

theorem contained_check (env : ℕ → ThinPool.CheckIo) :
    Keeps Contained (ThinPool.check overflowChecks env) := by
  intro s h
  by_cases hagree : Agree s
  · have hspacious := h.spacious fun hc => not_agree_of_capless hc hagree
    exact (spacious_check env s hspacious).contained (settled_check env s ⟨hagree, h.shape⟩).shape
  · rw [StratPool.check_of_not_agree overflowChecks hagree]
    exact h

theorem contained_setDevice (io : ThinPool.MoveIo) (device : Device) :
    Keeps Contained (ThinPool.setDevice io device) := by
  have hframed : Framed Contained := fun s t ht _ h => h.reframe ht
  refine keeps_read fun s => ?_
  split_ifs
  · exact keeps_pure _
  · exact (ThinPool.keeps_setSubTable hframed _ _ _).bind fun _ =>
      (ThinPool.keeps_setSubTable hframed _ _ _).bind fun _ => (keeps_lift _).bind fun _ =>
        Keeps.bind (keeps_modify fun _ h => h.reframe rfl) fun _ =>
          Keeps.bind (keeps_modify fun _ h => h.reframe rfl) fun _ =>
            keeps_pure _

theorem contained_recapped {s : Stacked} (h : Contained s) {b : Backstore}
    (hb : Backstore.SameRoom s.backstore b) : Contained ⟨s.thinPool, b⟩ := by
  refine ⟨hb.shape h.shape, h.room.imp (fun hr => ⟨?_, ?_⟩) hb.capless, ?_, ?_, ?_⟩
  · rw [hb.next, hb.size]
    exact hr.next_le
  · rw [hb.size, hb.dataTier]
    exact hr.size_le
  · unfold Backstore.Accounted datadevs
    rw [hb.dataTier]
    exact h.accounted
  · exact h.segments_le.trans_eq hb.next.symm
  · rw [hb.next, hb.dataTier]
    exact h.next_le

theorem contained_initCache (io : Backstore.InitCacheIo) (paths : List String) :
    Keeps Contained (ThinPool.onBackstore (initCache io paths)) := by
  intro s h
  rcases initCache_cases io paths h.shape with hsame | ⟨hlost, htier, hnext⟩
  · exact contained_recapped h hsame
  · refine ⟨Or.inl hlost.1, Or.inr hlost, ?_, h.segments_le.trans_eq hnext.symm, ?_⟩
    · show Backstore.Accounted (initCache io paths s.backstore).1
      unfold Backstore.Accounted datadevs
      rw [htier]
      exact h.accounted
    · show (initCache io paths s.backstore).1.next ≤ _
      rw [hnext]
      exact h.next_le.trans_eq (congrArg _ (congrArg _ htier.symm))

theorem contained_addDatadevs {s : Stacked} (h : Contained s) (poolUuid : PoolUuid)
    {prepared : StratisResult (List StratBlockDev)} (hn : s.backstore.UnusedData prepared) :
    Contained (ThinPool.onBackstore (addDatadevs poolUuid prepared) s).1 :=
  ⟨h.shape, h.room.imp_left fun hr => ⟨hr.next_le, hr.size_le⟩,
    accounted_addDatadevs h.accounted poolUuid hn, h.segments_le, h.next_le⟩

theorem keptByParts_contained : KeptByParts overflowChecks (fun _ => True) Contained where
  check env _ := contained_check env
  addDatadevs poolUuid _ _ hs hn := contained_addDatadevs hs poolUuid hn
  addCachedevs io poolUuid _ hs :=
    contained_recapped hs (sameRoom_addCachedevs io poolUuid _)
  initCache := contained_initCache
  setDevice := contained_setDevice
  filesystems h s hs :=
    hs.reframe (h (fun t => t.segments = s.thinPool.segments) (fun _ _ _ _ ht => ht) s.thinPool rfl)

end parts

/-! ### Pools that have been made or set up -/

/-- Accepted metadata whose lengths add up to a `u64`: the index is what they add up to. -/
theorem total_of_checkMetadata {overflowChecks : Bool} {metadata : PoolSave}
    (h : U64.checkMetadata overflowChecks metadata = .ok ())
    (hfits : overflowChecks = false → total (flexSegments metadata.flexDevs) < u64Bound) :
    ∃ cap segs, metadata.backstore.cap.allocs[0]? = some cap ∧
      metadata.backstore.dataTier.blockdev.allocs[0]? = some segs ∧
      total (flexSegments metadata.flexDevs) = cap.2 ∧ cap.2 ≤ (segs.map (·.length)).sum := by
  obtain ⟨cap, segs, hcap, hsegs, -, htotal, hle⟩ := U64.checkMetadata_eq_ok h
  refine ⟨cap, segs, hcap, hsegs, ?_, hle⟩
  rw [htotal, Nat.mod_eq_of_lt]
  cases overflowChecks with
  | false => exact hfits rfl
  | true =>
    obtain ⟨_, -, h⟩ := Outcome.bind_eq_ok.mp h
    obtain ⟨_, -, h⟩ := Outcome.bind_eq_ok.mp h
    obtain ⟨_, -, h⟩ := Outcome.bind_eq_ok.mp h
    obtain ⟨_, hflex, -⟩ := Outcome.bind_eq_ok.mp h
    simpa using fits_of_sumFrom (by decide) hflex

/-- The devices that are found for recorded metadata have given out what is recorded. -/
theorem exists_tracks_of_setup {save : BackstoreSave} {found : List Liminal.FoundDev}
    {datadevs cachedevs : List StratBlockDev} {time : Option DateTime} {t : DataTier}
    (hsize : ∀ f ∈ found, f.bda.devSize < u64Bound)
    (hfound : Liminal.getBlockdevs save found = .ok (datadevs, cachedevs))
    (ht : DataTier.setup ⟨datadevs, time⟩ save.dataTier = .ok t) :
    ∃ history, Tracks t.blockMgr.blockDevs history ∧
      totalLength t.segments ≤ totalLength history := by
  obtain ⟨segs, hsegs, huuids, -, hholds⟩ := Liminal.getBlockdevs_eq_ok hsize hfound
  obtain ⟨data, hdata, hsegs⟩ := Outcome.bind_eq_ok.mp hsegs
  obtain ⟨data', hdata', ht⟩ := Outcome.bind_eq_ok.mp ht
  obtain rfl : data = data' := ok.inj (hdata.symm.trans hdata')
  obtain ⟨segments, hcollect, ht⟩ := Outcome.bind_eq_ok.mp ht
  obtain rfl := ok.inj ht
  obtain ⟨hrecord, hhome⟩ := Liminal.collect_metadataToSegment hcollect
  have hnodup : (datadevs.map (·.uuid)).Nodup := huuids ▸ List.nodup_dedup _
  obtain ⟨history, htr, hlength⟩ := exists_tracks hnodup (Liminal.segmentTable segs)
    fun b hb => hholds b (List.mem_append_left _ hb)
  refine ⟨history, htr, ?_⟩
  have hon : ∀ u, total (onDevice u segments) ≤ total (Liminal.segmentTable segs u) := by
    intro u
    rw [← Liminal.segmentTable_record, hrecord, ← ok.inj hsegs]
    exact total_le_of_sublist (((List.sublist_append_left _ _).filter _).map _)
  have hmem : ∀ s ∈ segments, s.uuid ∈ datadevs.map (·.uuid) := by
    intro s hs
    obtain ⟨b, hb, hu, -⟩ := hhome s hs
    exact hu ▸ List.mem_map_of_mem hb
  show totalLength segments ≤ totalLength history
  rw [hlength, ← sum_onDevice hnodup hmem, List.map_map]
  exact List.sum_le_sum fun b _ => hon b.uuid

section started

variable {overflowChecks : Bool}

theorem contained_new {io : ThinPool.NewIo} {devs : List StratBlockDev} {b : Backstore} {t : ThinPool}
    (hfresh : ∀ d ∈ devs, d.Fresh) (hnodup : (devs.map (·.uuid)).Nodup)
    (h : ThinPool.new overflowChecks io ThinPoolSizeParams.default dataBlockSize
      ⟨none, none, DataTier.new ⟨devs, none⟩, none, 0⟩ = (b, .ok t)) : Contained ⟨t, b⟩ := by
  obtain ⟨_, _, _, _, halloc, -⟩ := ThinPool.new_eq_ok h
  obtain ⟨hroom, htiles⟩ := ThinPool.new_room ⟨le_rfl, le_rfl⟩ rfl (by decide) h
  have haccounted := (stable_accounted.keeps_alloc _ _).after
    (accounted_of_fresh hfresh hnodup) halloc
  have huncached : Uncached b := (stable_uncached.keeps_alloc _ _).after (by rfl) halloc
  exact Spacious.contained ⟨hroom, haccounted, htiles.total_eq.le⟩ (Or.inl huncached)

theorem contained_assemble {io : StratPool.SetupIo} {found : List Liminal.FoundDev}
    {datadevs cachedevs : List StratBlockDev} {timestamp : DateTime} {metadata : PoolSave}
    {s : Stacked} (hsize : ∀ f ∈ found, f.bda.devSize < u64Bound)
    (hfound : Liminal.getBlockdevs metadata.backstore found = .ok (datadevs, cachedevs))
    (hfits : overflowChecks = false → total (flexSegments metadata.flexDevs) < u64Bound)
    (h : U64.assemble overflowChecks io datadevs cachedevs timestamp metadata = .ok s) :
    Contained s := by
  obtain ⟨_, hcheck, h⟩ := Outcome.bind_eq_ok.mp h
  obtain ⟨b, hb, h⟩ := Outcome.bind_eq_ok.mp h
  obtain ⟨t, ht, h⟩ := Outcome.bind_eq_ok.mp h
  obtain rfl := ok.inj h
  obtain ⟨cap, segs, hcap, hsegs, htotal, hle⟩ := total_of_checkMetadata hcheck hfits
  obtain ⟨hroom, hnext⟩ := room_of_setup hb hcap hsegs hle
  obtain ⟨hdata, hshape, -⟩ := setup_eq_ok hb
  obtain ⟨-, hdataSegs, hmdv, hcases⟩ := ThinPool.setup_eq_ok ht
  have hsegments : total t.segments.all = b.next := by
    rw [hnext, ← htotal, Segments.all, flexSegments, hdataSegs, hmdv]
    -- a repair exchanges the two lists of metadata segments
    rcases hcases with ⟨-, hmeta, hspare⟩ | ⟨-, hmeta, hspare⟩
    · rw [hmeta, hspare]
    · rw [hmeta, hspare]
      simp only [total_append]
      omega
  exact Spacious.contained ⟨hroom, exists_tracks_of_setup hsize hfound hdata, hsegments.le⟩ hshape

end started

namespace StratPool

variable {overflowChecks : Bool} {p : StratPool}

/-- A pool that has been made on new devices, or set up from metadata; on a build without overflow
checks the recorded segments of the thin pool add up to a `u64`. -/
inductive Started (overflowChecks : Bool) : StratPool → Prop
  | made {io : InitIo} {name : String} {devs : List StratBlockDev} {p : StratPool}
      (hdevs : io.prepared = .ok devs) (hfresh : ∀ d ∈ devs, d.Fresh)
      (hnodup : (devs.map (·.uuid)).Nodup)
      (h : initializePool overflowChecks io name = .ok p) : Started overflowChecks p
  | assembled {io : SetupIo} {found : List Liminal.FoundDev}
      {datadevs cachedevs : List StratBlockDev} {timestamp : DateTime} {metadata : PoolSave}
      {p : StratPool} (hsize : ∀ f ∈ found, f.bda.devSize < u64Bound)
      (hfound : Liminal.getBlockdevs metadata.backstore found = .ok (datadevs, cachedevs))
      (hfits : overflowChecks = false → total (flexSegments metadata.flexDevs) < u64Bound)
      (h : U64.setup overflowChecks io datadevs cachedevs timestamp metadata = .ok p) :
      Started overflowChecks p

theorem Started.contained (h : Started overflowChecks p) : Contained p.toStacked := by
  cases h with
  | made hdevs hfresh hnodup h =>
    obtain ⟨devs, b, t, hdevs', hmade, rfl⟩ := initializePool_eq_ok h
    obtain rfl := ok.inj (hdevs.symm.trans hdevs')
    rw [toStacked_writeMetadata]
    exact contained_check _ _ (contained_new hfresh hnodup hmade)
  | assembled hsize hfound hfits h =>
    obtain ⟨s, hs, h⟩ := Outcome.bind_eq_ok.mp h
    obtain ⟨changed, -, h⟩ := Outcome.bind_eq_ok.mp h
    obtain ⟨_, -, h⟩ := Outcome.bind_eq_ok.mp h
    obtain rfl := ok.inj h
    rw [toStacked_writeIfChanged]
    exact contained_check _ _ (contained_assemble hsize hfound hfits hs)

/-- Devices that are added to the data tier are new to it. -/
def BringsNew (p : StratPool) : Request → Prop
  | .addBlockdevs io _ _ _ tier => tier = .data → p.backstore.UnusedData io.datadevs
  | _ => True

theorem BringsNew.admitted {r : Request} (h : BringsNew p r) : Admitted (fun _ => True) p r := by
  cases r with
  | addBlockdevs io poolUuid name paths tier => exact ⟨h, trivial⟩
  | eventOn io name => trivial
  | _ => trivial

/-- Some of the thin pool is in use, and the table of its data device can not be loaded. -/
def unattachedCheck : ThinPool.CheckIo :=
  { grantedCheck with
    status := .ok (.working ⟨16, 4096, 300, 768⟩ .good)
    extendData := ⟨⟨some ⟨253, 0⟩, true, true⟩, ⟨false, true⟩, true⟩ }

def unattachedAdd (devs : List StratBlockDev) : AddIo where
  suspend := ⟨true, true, true⟩
  cache := ⟨.ok [], .ok (), true, true⟩
  move := ⟨⟨true, true⟩, ⟨true, true⟩, true⟩
  resumeMdv := true
  resumePool := true
  datadevs := .ok devs
  check _ := unattachedCheck
  save := .ok ()

/-- Metadata of a pool on one device, in which the lengths of the segments add up to more than a
`u64`: with the wrapped sum they are as long as the recorded allocation. -/
def wrappedSave : PoolSave where
  name := "pool"
  backstore := ⟨⟨⟨[[⟨⟨1⟩, 8192, 1671168⟩]], [⟨⟨1⟩, none, none⟩]⟩⟩, ⟨[(0, 1671168)]⟩, none⟩
  flexDevs :=
    { metaDev := [(1638400, 32768)]
      thinMetaDev := [(0, 131072)]
      thinDataDev := [(65536, 1572864)]
      thinMetaDevSpare := [(32768, 2 ^ 64 - 65536)] }
  thinpoolDev := ⟨dataBlockSize⟩

end StratPool

end Stratisd.Pool
