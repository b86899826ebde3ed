import Mathlib.Algebra.Order.BigOperators.Group.List
import Stratisd.Backstore.BackstoreSpec
import Stratisd.Liminal.Blockdevs

/-! Recording a backstore and making it again from the record and the devices. The allocators
of the devices are not recorded; they come back because what is in use on a device is its BDA
and the recorded segments on it. -/

namespace Stratisd.Liminal

open Run Run.Outcome Run.Stateful Engine Extent Metadata Backstore List Backstore.Backstore

/-! ### Runs of the backstore -/

inductive BackstoreInput where
  | alloc (io : CapIo) (sizes : List ℕ)
  | request (io : CapIo) (n modulus : ℕ)
  | initCache (io : Backstore.InitCacheIo) (paths : List String)
  | addCachedevs (io : Backstore.AddCacheIo) (poolUuid : PoolUuid)
  | addDatadevs (poolUuid : PoolUuid) (prepared : StratisResult (List StratBlockDev))

variable (overflowChecks : Bool)

/-- An operation on the backstore, and the chunks that it has allocated. -/
def BackstoreInput.apply : BackstoreInput → Backstore.M (List Range)
  | .alloc io sizes => do
    let chunks ← Backstore.alloc io sizes
    pure (chunks.getD [])
  | .request io n modulus => do
    let chunk ← Backstore.request overflowChecks io n modulus
    pure chunk.toList
  | .initCache io paths => do
    let _ ← Backstore.initCache io paths
    pure []
  | .addCachedevs io poolUuid => do
    let _ ← Backstore.addCachedevs io poolUuid
    pure []
  | .addDatadevs poolUuid prepared => do
    let _ ← Backstore.addDatadevs poolUuid prepared
    pure []

def backstoreStep (b : Backstore) (i : BackstoreInput) :
    Backstore × StratisResult (List Range) := i.apply overflowChecks b

/-- The devices that an operation is given to use. -/
def BackstoreInput.prepared : BackstoreInput → StratisResult (List StratBlockDev)
  | .alloc _ _ | .request _ _ _ => .ok []
  | .initCache io _ => io.prepared
  | .addCachedevs io _ => io.prepared
  | .addDatadevs _ prepared => prepared

/-- Devices that come in are fresh and new to the backstore, and the operation succeeds. -/
def Succeeds (b : Backstore) (i : BackstoreInput) : Prop :=
  b.Unused i.prepared ∧ (backstoreStep overflowChecks b i).2.isOk = true

def chunks (tr : List (BackstoreInput × StratisResult (List Range))) : List Range :=
  tr.flatMap fun p => match p.2 with
    | .ok cs => cs
    | _ => []

variable {overflowChecks} {b : Backstore}

theorem kept_step (h : b.Kept) {i : BackstoreInput} (hs : Succeeds overflowChecks b i) :
    (backstoreStep overflowChecks b i).1.Kept ∧
      (backstoreStep overflowChecks b i).1.next =
        b.next + total (chunks [(i, (backstoreStep overflowChecks b i).2)]) := by
  obtain ⟨hunused, hok⟩ := hs
  obtain ⟨cs, hcs⟩ := isOk_iff.mp hok
  obtain ⟨b', hb'⟩ : ∃ b', backstoreStep overflowChecks b i = (b', .ok cs) := ⟨_, Prod.ext rfl hcs⟩
  rw [hb']
  simp only [chunks, flatMap_cons, flatMap_nil, append_nil]
  cases i with
  | alloc io sizes =>
    obtain ⟨b₁, r, hr, hpure⟩ := bind_eq_ok.mp hb'
    cases hpure
    have hspec := alloc_spec h.sound io sizes
    rw [hr] at hspec
    obtain ⟨hs, hg, ⟨hres, hn⟩ | ⟨hres, hn⟩⟩ := hspec
    · cases hres
      refine ⟨h.grows hs hg, ?_⟩
      rw [hn, Option.getD_some, total, map_snd_chunksFrom]
    · obtain rfl : r = none := Option.eq_none_iff_forall_ne_some.mpr fun cs he => hres cs (by rw [he])
      exact ⟨h.grows hs hg, hn⟩
  | request io n modulus =>
    obtain ⟨b₁, r, hr, hpure⟩ := bind_eq_ok.mp hb'
    cases hpure
    have hspec := request_spec h.sound overflowChecks io n modulus
    rw [hr] at hspec
    obtain ⟨hs, hg, ⟨got, -, -, -, hres, hn⟩ | ⟨hres, hn⟩⟩ := hspec
    · cases hres
      exact ⟨h.grows hs hg, by simpa [total] using hn⟩
    · obtain rfl : r = none := Option.eq_none_iff_forall_ne_some.mpr fun cs he => hres cs (by rw [he])
      exact ⟨h.grows hs hg, hn⟩
  | initCache io paths =>
    obtain ⟨b₁, r, hr, hpure⟩ := bind_eq_ok.mp hb'
    cases hpure
    refine ⟨kept_initCache h hunused hr, ?_⟩
    obtain ⟨_, _, _, _, -, -, -, -, -, -, rfl⟩ := initCache_eq_ok hr
    rfl
  | addCachedevs io poolUuid =>
    obtain ⟨b₁, r, hr, hpure⟩ := bind_eq_ok.mp hb'
    cases hpure
    refine ⟨kept_addCachedevs h hunused hr, ?_⟩
    obtain ⟨_, _, _, _, _, -, -, -, -, rfl⟩ := addCachedevs_eq_ok hr
    rfl
  | addDatadevs poolUuid prepared =>
    obtain ⟨b₁, r, hr, hpure⟩ := bind_eq_ok.mp hb'
    cases hpure
    have hk : (addDatadevs poolUuid prepared b).1.Kept :=
      kept_addDatadevs h hunused
    have hn : (addDatadevs poolUuid prepared b).1.next = b.next := rfl
    rw [hr] at hk hn
    exact ⟨hk, hn⟩

variable {devs : List StratBlockDev}

/-- Every backstore reached from new devices by operations that succeed. -/
theorem kept_run (hf : ∀ d ∈ devs, d.Fresh) (hn : (devs.map (·.uuid)).Nodup)
    (h : initializeStore (.ok devs) = .ok b) {inputs : List BackstoreInput}
    (ha : AllSteps (backstoreStep overflowChecks) (Succeeds overflowChecks) b inputs) :
    (run (backstoreStep overflowChecks) b inputs).1.Kept ∧
      (run (backstoreStep overflowChecks) b inputs).1.next =
        total (chunks (run (backstoreStep overflowChecks) b inputs).2) := by
  obtain ⟨hk, hnext⟩ := kept_initializeStore hf hn h
  refine run_invariant (backstoreStep overflowChecks)
    (P := fun b tr => b.Kept ∧ b.next = total (chunks tr)) (fun b tr i hP hA => ?_)
    ⟨hk, hnext⟩ ha
  obtain ⟨hk', hn'⟩ := kept_step hP.1 hA
  have hsnoc : ∀ x, chunks (tr ++ [x]) = chunks tr ++ chunks [x] := by simp [chunks]
  refine ⟨hk', ?_⟩
  rw [hn', hP.2, hsnoc]
  simp [total]

/-! ### The devices -/

variable {segs : List BlkDevSegment}

theorem tracks_union {bds bds' : List StratBlockDev} {segs' : List BlkDevSegment}
    (h : Tracks bds segs) (h' : Tracks bds' segs') (hn : ((bds ++ bds').map (·.uuid)).Nodup) :
    Tracks (bds ++ bds') (segs ++ segs') := by
  have hne : ∀ b ∈ bds, ∀ b' ∈ bds', b.uuid ≠ b'.uuid := by
    rw [map_append, nodup_append] at hn
    exact fun b hb b' hb' => hn.2.2 _ (mem_map_of_mem hb) _ (mem_map_of_mem hb')
  refine ⟨hn, fun b hb => ?_, fun s hs => ?_⟩
  · rw [onDevice_append]
    rcases mem_append.mp hb with hb | hb
    · have hnil : onDevice b.uuid segs' = [] := onDevice_eq_nil fun s hs he => by
        obtain ⟨-, b', hb', hu, -⟩ := h'.home s hs
        exact hne b hb b' hb' (he.symm.trans hu.symm)
      rw [hnil, append_nil]
      exact h.holds b hb
    · have hnil : onDevice b.uuid segs = [] := onDevice_eq_nil fun s hs he => by
        obtain ⟨-, b', hb', hu, -⟩ := h.home s hs
        exact hne b' hb' b hb (hu.trans he)
      rw [hnil, nil_append]
      exact h'.holds b hb
  · rcases mem_append.mp hs with hs | hs
    · obtain ⟨hpos, b, hb, hu⟩ := h.home s hs
      exact ⟨hpos, b, mem_append_left _ hb, hu⟩
    · obtain ⟨hpos, b, hb, hu⟩ := h'.home s hs
      exact ⟨hpos, b, mem_append_right _ hb, hu⟩

theorem tracks_of_kept (h : b.Kept) :
    Tracks (b.datadevs ++ b.cachedevs) (b.dataTier.segments ++ cacheTierSegments b.cacheTier) := by
  refine tracks_union h.sound.tracked ?_ h.distinct
  cases hct : b.cacheTier with
  | none =>
    rw [cachedevs, hct]
    exact ⟨by simp, by simp, by simp [cacheTierSegments]⟩
  | some t =>
    rw [cachedevs, hct]
    exact (h.cache t hct).tracks

/-- The device as it is found again: its number and its BDA are the same, it has not shrunk,
and nothing is wrong with its encryption. -/
structure FoundDev.Shows (f : FoundDev) (d : StratBlockDev) : Prop where
  bda : f.bda = d.bda
  dev : f.ids.deviceNumber = d.dev
  size : ∃ bytes, f.actualSize = .ok bytes ∧ d.bda.devSize ≤ bytes / sectorSize
  handle : f.handle = .ok ()

variable {d : StratBlockDev}

theorem FoundDev.Shows.checkSize {f : FoundDev} (h : f.Shows d) : checkSize f = .ok () := by
  obtain ⟨bytes, hbytes, hle⟩ := h.size
  rw [Liminal.checkSize, hbytes, ok_bind, h.bda, if_neg (not_lt.mpr hle)]

def tierOf (b : Backstore) (d : StratBlockDev) : BlockDevTier :=
  if d.uuid ∈ b.datadevs.map (·.uuid) then .data else .cache

theorem recordedCache_record (b : Backstore) :
    recordedCache b.record = b.cachedevs.map (·.record) := by
  unfold recordedCache record cachedevs
  cases b.cacheTier <;> rfl

theorem recordedSegments_record (b : Backstore) : recordedSegments b.record =
    .ok ((b.dataTier.segments ++ cacheTierSegments b.cacheTier).map (·.record)) := by
  unfold recordedSegments record
  cases b.cacheTier <;>
    simp [DataTier.record, CacheTier.record, cacheTierSegments, expect]

theorem exists_recordedMap (hn : (devs.map (·.uuid)).Nodup) (hd : d ∈ devs) :
    ∃ i, recordedMap (devs.map (·.record)) d.uuid = some (i, d.record) := by
  have hn' : ((devs.map (·.record)).map (·.uuid)).Nodup := by
    rwa [map_map]
  exact KeyedList.exists_lookup_of_mem hn' (mem_map_of_mem hd)

theorem findRecord_record (h : b.Kept) {f : FoundDev} (hf : f.Shows d)
    (hd : d ∈ b.datadevs ++ b.cachedevs) : findRecord b.record f = .ok (tierOf b d, d.record) := by
  have hdata : b.record.dataTier.blockdev.devs = b.datadevs.map (·.record) := rfl
  have hn := h.distinct
  rw [map_append, nodup_append] at hn
  have hu : f.bda.devUuid = d.uuid := by rw [hf.bda]; rfl
  rw [findRecord, hdata, hu, recordedCache_record]
  by_cases hmem : d.uuid ∈ b.datadevs.map (·.uuid)
  · obtain ⟨d', hd', hdu⟩ := mem_map.mp hmem
    obtain rfl : d' = d := by
      refine inj_on_of_nodup_map h.distinct ?_ hd hdu
      exact mem_append_left _ hd'
    obtain ⟨i, hi⟩ := exists_recordedMap hn.1 hd'
    simp only [hi, tierOf, if_pos hmem]
  · have hc : d ∈ b.cachedevs := (mem_append.mp hd).resolve_left
      fun hd => hmem (mem_map_of_mem hd)
    have hno : recordedMap (b.datadevs.map (·.record)) d.uuid = none := by
      rw [← Option.not_isSome_iff_eq_none, recordedMap, KeyedList.isSome_lookup, map_map]
      exact hmem
    obtain ⟨i, hi⟩ := exists_recordedMap hn.2.1 hc
    simp only [hno, hi, tierOf, if_neg hmem]

theorem getBlockdev_record (h : b.Kept) {f : FoundDev} (hf : f.Shows d)
    (hd : d ∈ b.datadevs ++ b.cachedevs) :
    getBlockdev b.record
      ((b.dataTier.segments ++ cacheTierSegments b.cacheTier).map (·.record)) f =
        .ok (tierOf b d, d) := by
  have htr := tracks_of_kept h
  have hnew := (htr.holds d hd).rebuild fun r hr => by
    obtain ⟨s, hs, -, rfl⟩ := mem_onDevice.mp hr
    exact (htr.home s hs).1
  have hu : f.bda.devUuid = d.uuid := by rw [hf.bda]; rfl
  simp only [getBlockdev, hf.checkSize, ok_bind, findRecord_record h hf hd, hf.handle, hu,
    segmentTable_record, hf.dev, StratBlockDev.record]
  rw [hf.bda, hnew, ok_bind]

theorem eq_of_map_eq {α κ : Type*} {f : α → κ} {as bs : List α} (hn : (bs.map f).Nodup)
    (hs : as ⊆ bs) (h : as.map f = bs.map f) : as = bs := by
  have hlen : as.length = bs.length := by simpa using congrArg List.length h
  refine ext_getElem hlen fun i hi hi' => ?_
  have hkey : f as[i] = f bs[i] := by
    have := congrArg (·[i]?) h
    simpa [hi, hi'] using this
  exact inj_on_of_nodup_map hn (hs (getElem_mem hi)) (getElem_mem hi') hkey

theorem checkAndSortDevs_record {sorted : List StratBlockDev} (hp : devs.Perm sorted)
    (hn : (sorted.map (·.uuid)).Nodup) :
    checkAndSortDevs devs (sorted.map (·.record)) = .ok sorted := by
  have hmap : (sorted.map (·.record)).map (·.uuid) = sorted.map (·.uuid) := by
    rw [map_map]
    rfl
  have hpu := hp.map (·.uuid)
  obtain ⟨out, hout⟩ : ∃ out, checkAndSortDevs devs (sorted.map (·.record)) = .ok out := by
    have hdup : duplicateUuids [] devs = [] :=
      duplicateUuids_eq_nil.mpr ⟨hpu.nodup_iff.mpr hn, by simp⟩
    simp only [checkAndSortDevs, hdup, ne_eq, not_true_eq_false, if_false, hmap]
    rw [if_neg (not_not.mpr ⟨hpu.subset, hpu.symm.subset⟩)]
    exact ⟨_, rfl⟩
  obtain ⟨hperm, huuids⟩ := checkAndSortDevs_eq_ok hout
  rw [hmap, hn.dedup] at huuids
  rw [hout, eq_of_map_eq hn (hperm.trans hp).subset huuids]

theorem filter_tier (h : b.Kept) (tier : BlockDevTier) :
    ((b.datadevs ++ b.cachedevs).filter fun d => tierOf b d = tier) =
      match tier with
      | .data => b.datadevs
      | .cache => b.cachedevs := by
  have hn := h.distinct
  rw [map_append, nodup_append] at hn
  have hdata : ∀ d ∈ b.datadevs, tierOf b d = .data := fun d hd =>
    if_pos (mem_map_of_mem hd)
  have hcache : ∀ d ∈ b.cachedevs, tierOf b d = .cache := fun d hd =>
    if_neg fun hm => hn.2.2 _ hm _ (mem_map_of_mem hd) rfl
  rw [filter_append]
  cases tier with
  | data =>
    rw [filter_eq_self.mpr (by simpa using hdata),
      filter_eq_nil_iff.mpr fun d hd => by simp [hcache d hd], append_nil]
  | cache =>
    rw [filter_eq_nil_iff.mpr fun d hd => by simp [hdata d hd],
      filter_eq_self.mpr (by simpa using hcache), nil_append]

theorem getBlockdevs_record (h : b.Kept) {found : List FoundDev}
    (hp : devs.Perm (b.datadevs ++ b.cachedevs)) (hf : List.Forall₂ FoundDev.Shows found devs) :
    getBlockdevs b.record found = .ok (b.datadevs, b.cachedevs) := by
  have hcollect : collect (getBlockdev b.record
      ((b.dataTier.segments ++ cacheTierSegments b.cacheTier).map (·.record))) found =
        .ok (devs.map fun d => (tierOf b d, d)) := by
    rw [collect_eq_ok, forall₂_map_right_iff]
    have hmem : ∀ d ∈ devs, d ∈ b.datadevs ++ b.cachedevs := fun d hd => hp.subset hd
    clear hp
    induction hf with
    | nil => exact List.Forall₂.nil
    | cons hfd _ ih =>
      rw [forall_mem_cons] at hmem
      exact List.Forall₂.cons (getBlockdev_record h hfd hmem.1) (ih hmem.2)
  have htier : ∀ tier, (ofTier tier (devs.map fun d => (tierOf b d, d))).Perm
      ((b.datadevs ++ b.cachedevs).filter fun d => tierOf b d = tier) := by
    intro tier
    rw [ofTier, filter_map, map_map]
    simpa [Function.comp_def] using hp.filter fun d => tierOf b d = tier
  have hn := h.distinct
  rw [map_append, nodup_append] at hn
  have hd := htier .data
  have hc := htier .cache
  rw [filter_tier h] at hd hc
  rw [getBlockdevs, recordedSegments_record, ok_bind, hcollect, ok_bind,
    recordedCache_record, show b.record.dataTier.blockdev.devs = b.datadevs.map (·.record) from rfl,
    checkAndSortDevs_record hd hn.1, checkAndSortDevs_record hc hn.2.1]
  rfl

/-! ### The tiers -/

theorem collect_record {m : BlockDevMgr} (hn : (m.blockDevs.map (·.uuid)).Nodup)
    (hs : ∀ s ∈ segs, ∃ b ∈ m.blockDevs, b.uuid = s.uuid ∧ b.dev = s.segment.device) :
    collect (metadataToSegment m.uuidToDevno) (segs.map (·.record)) = .ok segs := by
  rw [collect_eq_ok, forall₂_map_left_iff, forall₂_same]
  intro s hmem
  obtain ⟨b, hb, hu, hd⟩ := hs s hmem
  have hdev : m.uuidToDevno s.uuid = some s.segment.device := by
    have hsome : (m.blockDevs.reverse.find? fun d => d.uuid = s.uuid).isSome :=
      List.find?_isSome.mpr ⟨b, mem_reverse.mpr hb, by simpa using hu⟩
    obtain ⟨b', hb'⟩ := Option.isSome_iff_exists.mp hsome
    have hu' : b'.uuid = s.uuid := by simpa using List.find?_some hb'
    rw [BlockDevMgr.uuidToDevno, Option.map_eq_some_iff]
    obtain rfl : b' = b := inj_on_of_nodup_map hn
      (mem_reverse.mp (mem_of_find?_eq_some hb')) hb (hu'.trans hu.symm)
    exact ⟨b', hb', hd⟩
  simp [metadataToSegment, BlkDevSegment.record, hdev]

theorem dataTier_setup_record {t : DataTier} (h : t.Tracked) (time : Option DateTime) :
    DataTier.setup ⟨t.blockMgr.blockDevs, time⟩ t.record =
      .ok ⟨⟨t.blockMgr.blockDevs, time⟩, t.segments⟩ := by
  have hcollect := collect_record (m := ⟨t.blockMgr.blockDevs, time⟩) h.nodup
    fun s hs => (h.home s hs).2
  rw [DataTier.setup, DataTier.record]
  simp [expect, hcollect]

theorem cacheTier_setup_record {t : CacheTier} (h : t.Full) (time : Option DateTime) :
    CacheTier.setup ⟨t.blockMgr.blockDevs, time⟩ t.record =
      .ok ⟨⟨t.blockMgr.blockDevs, time⟩, t.cacheSegments, t.metaSegments⟩ := by
  have hcollect : ∀ segs, (∀ s ∈ segs, s ∈ t.cacheSegments ++ t.metaSegments) →
      collect (metadataToSegment (BlockDevMgr.uuidToDevno ⟨t.blockMgr.blockDevs, time⟩))
        (segs.map (·.record)) = .ok segs := fun segs hsub =>
    collect_record h.tracks.nodup fun s hs => (h.tracks.home s (hsub s hs)).2
  have havail : (⟨t.blockMgr.blockDevs, time⟩ : BlockDevMgr).availSpace = 0 := h.avail
  rw [CacheTier.setup, if_neg (not_not.mpr havail), CacheTier.record]
  simp [expect, hcollect t.metaSegments (by simp +contextual),
    hcollect t.cacheSegments (by simp +contextual)]

/-- Device-mapper makes the devices that it is asked for; it may refuse a device with an empty
table. -/
structure Serves (io : Backstore.SetupIo) (b : Backstore) : Prop where
  origin : mapToDm b.dataTier.segments ≠ [] → io.origin.isSome
  metaSub : ∀ t ∈ b.cacheTier, mapToDm t.metaSegments ≠ [] → io.cache.metaSub.isSome
  cacheSub : ∀ t ∈ b.cacheTier, mapToDm t.cacheSegments ≠ [] → io.cache.cacheSub.isSome
  cache : io.cache.cache.isSome

theorem mapToDm_ne_nil (h : 0 < totalLength segs) : mapToDm segs ≠ [] := by
  intro hnil
  have := tableLength_mapToDm segs
  rw [hnil] at this
  exact h.ne this

theorem linearDev_setup_of_isSome {answer : Option Device} (h : answer.isSome)
    (table : List TargetLine) : ∃ d, LinearDev.setup answer table = .ok d := by
  obtain ⟨device, rfl⟩ := Option.isSome_iff_exists.mp h
  exact ⟨⟨device, table⟩, rfl⟩

/-- Two backstores with the same devices, segments and index. -/
structure SameStore (b b' : Backstore) : Prop where
  datadevs : b'.datadevs = b.datadevs
  cachedevs : b'.cachedevs = b.cachedevs
  segments : b'.dataTier.segments = b.dataTier.segments
  cacheSegments : b'.cacheTier.map (·.cacheSegments) = b.cacheTier.map (·.cacheSegments)
  metaSegments : b'.cacheTier.map (·.metaSegments) = b.cacheTier.map (·.metaSegments)
  next : b'.next = b.next

theorem setup_record (h : b.Kept) (hpos : 0 < b.next) {io : Backstore.SetupIo}
    (hio : Serves io b) (time : DateTime) :
    ∃ b', setup io b.record b.datadevs b.cachedevs time = .ok b' ∧ SameStore b b' := by
  have hlen : 0 < totalLength b.dataTier.segments :=
    (hpos.trans_le h.sound.next_le).trans_le h.sound.size_le
  obtain ⟨origin, horigin⟩ :=
    linearDev_setup_of_isSome (hio.origin (mapToDm_ne_nil hlen)) (mapToDm b.dataTier.segments)
  have hdata : DataTier.setup ⟨b.datadevs, some time⟩ b.record.dataTier =
      .ok ⟨⟨b.datadevs, some time⟩, b.dataTier.segments⟩ :=
    dataTier_setup_record h.sound.tracked (some time)
  simp only [setup, hdata, ok_bind, horigin]
  cases hct : b.cacheTier with
  | none =>
    have hcd : b.cachedevs = [] := by rw [cachedevs, hct]
    refine ⟨⟨none, none, ⟨⟨b.datadevs, some time⟩, b.dataTier.segments⟩, some origin, b.next⟩,
      ?_, rfl, hcd.symm, rfl, ?_, ?_, rfl⟩
    · simp [hcd, record, expect]
    · rw [hct]
    · rw [hct]
  | some t =>
    have hfull := h.cache t hct
    have hcd : b.cachedevs = t.blockMgr.blockDevs := by rw [cachedevs, hct]
    obtain ⟨metaDev, hmeta⟩ := linearDev_setup_of_isSome
      (hio.metaSub t hct (mapToDm_ne_nil hfull.meta_pos)) (mapToDm t.metaSegments)
    obtain ⟨cacheDev, hcache⟩ := linearDev_setup_of_isSome
      (hio.cacheSub t hct (mapToDm_ne_nil hfull.cache_pos)) (mapToDm t.cacheSegments)
    obtain ⟨device, hdevice⟩ := Option.isSome_iff_exists.mp hio.cache
    refine ⟨⟨some ⟨device, metaDev, cacheDev, origin⟩,
      some ⟨⟨t.blockMgr.blockDevs, some time⟩, t.cacheSegments, t.metaSegments⟩,
      ⟨⟨b.datadevs, some time⟩, b.dataTier.segments⟩, none, b.next⟩, ?_, rfl, hcd.symm, rfl, ?_, ?_,
      rfl⟩
    · simp [hcd, hfull.nonempty, hct, cacheTier_setup_record hfull, makeCache, hmeta, wipeMeta,
        hcache, hdevice, record, expect]
    · rw [hct]
      rfl
    · rw [hct]
      rfl

/-- Every backstore that operations have led to from new devices, with something allocated,
comes back after a restart: from its record and its devices, found in any order, its devices
are made again in their order and with what is in use on them, and its tiers have the same
segments and the same index. -/
theorem restart_equivalent {devs : List StratBlockDev} (hf : ∀ d ∈ devs, d.Fresh)
    (hn : (devs.map (·.uuid)).Nodup) {start : Backstore}
    (hstart : Backstore.initializeStore (.ok devs) = .ok start) {inputs : List BackstoreInput}
    (ha : AllSteps (backstoreStep overflowChecks) (Succeeds overflowChecks) start inputs)
    (hne : ∃ c ∈ chunks (run (backstoreStep overflowChecks) start inputs).2, 0 < c.2) :
    let b := (run (backstoreStep overflowChecks) start inputs).1
    ∀ (found : List FoundDev) (order : List StratBlockDev),
      order.Perm (b.datadevs ++ b.cachedevs) → List.Forall₂ FoundDev.Shows found order →
      ∀ io, Serves io b → ∀ time,
        getBlockdevs b.record found = .ok (b.datadevs, b.cachedevs) ∧
        ∃ b', Backstore.setup io b.record b.datadevs b.cachedevs time = .ok b' ∧
          SameStore b b' := by
  intro b found order hp hshow io hio time
  obtain ⟨hk, hnext⟩ := kept_run hf hn hstart ha
  have hpos : 0 < b.next := by
    obtain ⟨c, hc, hc0⟩ := hne
    rw [hnext]
    exact hc0.trans_le (List.single_le_sum (by simp) _ (List.mem_map_of_mem hc))
  exact ⟨getBlockdevs_record hk hp hshow, setup_record hk hpos hio time⟩

def StratBlockDev.found (d : StratBlockDev) : FoundDev :=
  ⟨⟨⟨d.bda.poolUuid, d.uuid⟩, d.dev, "/dev/sdb"⟩, d.bda, .ok (d.bda.devSize * sectorSize), .ok ()⟩

theorem shows_found (d : StratBlockDev) : (StratBlockDev.found d).Shows d :=
  ⟨rfl, rfl, ⟨_, rfl, (Nat.mul_div_cancel _ (by decide)).ge⟩, rfl⟩

/-- One device of which one chunk has been allocated. -/
theorem restart_equivalent_one_device :
    ∃ (d : StratBlockDev) (start b' : Backstore) (io : Backstore.SetupIo) (time : DateTime),
      d.Fresh ∧ Backstore.initializeStore (.ok [d]) = .ok start ∧
      let b := (backstoreStep true start (.alloc ⟨some ⟨253, 0⟩, true, true⟩ [2048])).1
      getBlockdevs b.record ((b.datadevs ++ b.cachedevs).reverse.map StratBlockDev.found) =
          .ok (b.datadevs, b.cachedevs) ∧
        Backstore.setup io b.record b.datadevs b.cachedevs time = .ok b' ∧ SameStore b b' := by
  let bda := BDA.new ⟨⟨0⟩, ⟨1⟩⟩ MDADataSize.default 16384 0
  let input := BackstoreInput.alloc ⟨some ⟨253, 0⟩, true, true⟩ [2048]
  let io : Backstore.SetupIo := ⟨some ⟨253, 0⟩, some ⟨253, 1⟩, true, some ⟨253, 2⟩, some ⟨253, 3⟩⟩
  obtain ⟨d, hd, start, hstart, cs, hcs, c, hc, hpos⟩ :
      ∃ d, StratBlockDev.new ⟨8, 16⟩ bda [] none none = .ok d ∧
      ∃ start, Backstore.initializeStore (.ok [d]) = .ok start ∧
      ∃ cs, (backstoreStep true start input).2 = .ok cs ∧ ∃ c ∈ cs, 0 < c.2 := by
    decide +kernel
  have hfresh : d.Fresh := ⟨⟨8, 16⟩, bda, none, none, by decide +kernel, by decide +kernel, hd⟩
  have hall : ∀ x ∈ [d], x.Fresh := by simpa using hfresh
  have hsucc : Succeeds true start input := by
    refine ⟨fun new hnew => ?_, by rw [hcs]; rfl⟩
    cases hnew
    have := (Backstore.kept_initializeStore hall (by simp) hstart).1.distinct
    simpa using this
  have hrun : chunks (run (backstoreStep true) start [input]).2 = cs := by
    simp [chunks, hcs]
  have hshows : ∀ ds : List StratBlockDev,
      List.Forall₂ FoundDev.Shows (ds.map StratBlockDev.found) ds := fun ds =>
    List.forall₂_map_left_iff.mpr (List.forall₂_same.mpr fun d _ => shows_found d)
  have hre := restart_equivalent hall (by simp) hstart
    (show AllSteps (backstoreStep true) (Succeeds true) start [input] from ⟨hsucc, trivial⟩)
    ⟨c, hrun ▸ hc, hpos⟩
    _ _ (List.reverse_perm _) (hshows _) io
    ⟨fun _ => rfl, fun _ _ _ => rfl, fun _ _ _ => rfl, rfl⟩
    ⟨0, 0, by decide, by decide, by decide⟩
  obtain ⟨hget, b', hb', hsame⟩ := hre
  exact ⟨d, start, b', io, _, hfresh, hstart, hget, hb', hsame⟩

end Stratisd.Liminal
