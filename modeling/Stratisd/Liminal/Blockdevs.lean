import Stratisd.Backstore.Backstore
import Stratisd.Backstore.TierSpec
import Stratisd.Extent.KeyedList
import Stratisd.Liminal.DeviceInfo

/-! Making the block devices of a pool from the devices that have been found and from the
recorded metadata, and what the accepted metadata can not be: no two segments of it share a
sector. -/

namespace Stratisd.Liminal

open Run Run.Outcome Engine Extent Metadata Backstore List

/-- A device that has been found, with its BDA. What opening it and asking for its size in
bytes gives, and whether its encryption can be set up, are answers of the system. -/
structure FoundDev where
  ids : StratisInfo
  bda : BDA
  actualSize : StratisResult ℕ
  handle : StratisResult Unit

/-- The recorded device with a UUID and its place in the record. -/
def recordedMap (devs : List BaseBlockDevSave) (uuid : DevUuid) : Option (ℕ × BaseBlockDevSave) :=
  KeyedList.lookup (·.uuid) uuid devs

/-- The recorded devices of the cache tier. -/
def recordedCache (save : BackstoreSave) : List BaseBlockDevSave :=
  match save.cacheTier with
  | some cacheTier => cacheTier.blockdev.devs
  | none => []

/-- All recorded segments, of both tiers. -/
def recordedSegments (save : BackstoreSave) : StratisResult (List BaseDevSave) := do
  let data ← Outcome.expect save.dataTier.blockdev.allocs[0]?
  .ok (data ++ match save.cacheTier with
    | some cacheTier => cacheTier.blockdev.allocs.flatten
    | none => [])

def segmentTable (segs : List BaseDevSave) (uuid : DevUuid) : List Range :=
  (segs.filter fun s => s.parent = uuid).map fun s => (s.start, s.length)

/-- The device must not have shrunk since it was recorded. -/
def checkSize (f : FoundDev) : StratisResult Unit := do
  let actualSize ← f.actualSize
  if actualSize / sectorSize < f.bda.devSize then .err (.msg
    s!"Stratis device with {f.ids.display} had recorded size {displaySectors f.bda.devSize}, but actual size is less at {displaySectors (actualSize / sectorSize)}")
  else .ok ()

/-- The tier that a device is recorded in, and its record. -/
def findRecord (save : BackstoreSave) (f : FoundDev) :
    StratisResult (BlockDevTier × BaseBlockDevSave) :=
  match recordedMap save.dataTier.blockdev.devs f.bda.devUuid with
  | some (_, bdSave) => .ok (.data, bdSave)
  | none =>
    match recordedMap (recordedCache save) f.bda.devUuid with
    | some (_, bdSave) => .ok (.cache, bdSave)
    | none => .err (.msg
        s!"Stratis device with {f.ids.display} had no record in pool metadata")

/-- Make one block device, with the recorded segments in use. -/
def getBlockdev (save : BackstoreSave) (segs : List BaseDevSave) (f : FoundDev) :
    StratisResult (BlockDevTier × StratBlockDev) := do
  checkSize f
  let (tier, bdSave) ← findRecord save f
  f.handle
  let bd ← StratBlockDev.new f.ids.deviceNumber f.bda (segmentTable segs f.bda.devUuid)
    bdSave.userInfo bdSave.hardwareInfo
  .ok (tier, bd)

/-- The UUIDs that have come before. -/
def duplicateUuids (seen : List DevUuid) : List StratBlockDev → List DevUuid
  | [] => []
  | dev :: devs =>
    if dev.uuid ∈ seen then dev.uuid :: duplicateUuids seen devs
    else duplicateUuids (dev.uuid :: seen) devs

def joinUuids (uuids : List DevUuid) : String :=
  String.intercalate ", " (uuids.map fun u => displayUuid u.val)

/-- The devices of a tier in the recorded order, if they are the recorded devices. -/
def checkAndSortDevs (devs : List StratBlockDev) (recorded : List BaseBlockDevSave) :
    StratisResult (List StratBlockDev) :=
  let uuids := devs.map (·.uuid)
  let recordedUuids := recorded.map (·.uuid)
  if duplicateUuids [] devs ≠ [] then .err (.msg
    s!"The following list of Stratis UUIDs were each claimed by more than one Stratis device: {joinUuids (duplicateUuids [] devs)}")
  else if ¬ (uuids ⊆ recordedUuids ∧ recordedUuids ⊆ uuids) then .err (.msg
    s!"UUIDs of devices found ({joinUuids uuids}) did not correspond with UUIDs specified in the metadata for this group of devices ({joinUuids recordedUuids.dedup})")
  else .ok (devs.insertionSort fun a b =>
    KeyedList.index (·.uuid) recorded a.uuid ≤ KeyedList.index (·.uuid) recorded b.uuid)

/-- An error of one tier, with the tier named in front. -/
def nameTier {α : Type} (tier : String) : StratisResult α → StratisResult α
  | .err (.msg text) =>
    .err (.msg s!"{tier} devices did not appear consistent with metadata: {text}")
  | r => r

def ofTier (tier : BlockDevTier) (bds : List (BlockDevTier × StratBlockDev)) :
    List StratBlockDev := (bds.filter fun p => p.1 = tier).map (·.2)

/-- The data devices and the cache devices of a pool. -/
def getBlockdevs (save : BackstoreSave) (found : List FoundDev) :
    StratisResult (List StratBlockDev × List StratBlockDev) := do
  let segs ← recordedSegments save
  let bds ← Outcome.collect (getBlockdev save segs) found
  let datadevs ← nameTier "Data"
    (checkAndSortDevs (ofTier .data bds) save.dataTier.blockdev.devs)
  let cachedevs ← nameTier "Cache" (checkAndSortDevs (ofTier .cache bds) (recordedCache save))
  .ok (datadevs, cachedevs)

/-! ### The devices of a tier -/

theorem duplicateUuids_eq_nil {seen : List DevUuid} {devs : List StratBlockDev} :
    duplicateUuids seen devs = [] ↔
      (devs.map (·.uuid)).Nodup ∧ ∀ u ∈ devs.map (·.uuid), u ∉ seen := by
  induction devs generalizing seen with
  | nil => simp [duplicateUuids]
  | cons dev devs ih =>
    rw [duplicateUuids, map_cons, nodup_cons, forall_mem_cons]
    split_ifs with h
    · simp [h]
    · rw [ih]
      simp only [mem_cons, not_or]
      constructor
      · rintro ⟨hn, hd⟩
        exact ⟨⟨fun hm => (hd _ hm).1 rfl, hn⟩, h, fun u hu => (hd u hu).2⟩
      · rintro ⟨⟨hm, hn⟩, -, hd⟩
        exact ⟨hn, fun u hu => ⟨fun he => hm (he ▸ hu), hd u hu⟩⟩

theorem checkAndSortDevs_eq_ok {devs sorted : List StratBlockDev}
    {recorded : List BaseBlockDevSave} (h : checkAndSortDevs devs recorded = .ok sorted) :
    sorted.Perm devs ∧ sorted.map (·.uuid) = (recorded.map (·.uuid)).dedup := by
  unfold checkAndSortDevs at h
  simp only at h
  split_ifs at h with hdup hset
  cases h
  have hp := perm_insertionSort (fun a b : StratBlockDev =>
    KeyedList.index (·.uuid) recorded a.uuid ≤ KeyedList.index (·.uuid) recorded b.uuid) devs
  refine ⟨hp, KeyedList.eq_dedup_of_sorted ?_ (fun u => ?_) ?_⟩
  · exact ((hp.map _).nodup_iff).mpr (duplicateUuids_eq_nil.mp (not_not.mp hdup)).1
  · rw [(hp.map _).mem_iff]
    exact ⟨fun hu => hset.1 hu, fun hu => hset.2 hu⟩
  · rw [pairwise_map]
    have : IsTrans StratBlockDev fun a b => KeyedList.index (·.uuid) recorded a.uuid ≤
      KeyedList.index (·.uuid) recorded b.uuid := ⟨fun _ _ _ h h' => h.trans h'⟩
    have : Std.Total fun a b : StratBlockDev => KeyedList.index (·.uuid) recorded a.uuid ≤
      KeyedList.index (·.uuid) recorded b.uuid := ⟨fun _ _ => le_total _ _⟩
    exact pairwise_insertionSort _ _

theorem nameTier_eq_ok {α : Type} {tier : String} {r : StratisResult α} {a : α} :
    nameTier tier r = .ok a ↔ r = .ok a := by
  unfold nameTier
  split <;> simp

/-! ### Accepted metadata -/

theorem getBlockdev_eq_ok {save : BackstoreSave} {segs : List BaseDevSave} {f : FoundDev}
    {p : BlockDevTier × StratBlockDev} (h : getBlockdev save segs f = .ok p) :
    ∃ bdSave, findRecord save f = .ok (p.1, bdSave) ∧
      StratBlockDev.new f.ids.deviceNumber f.bda (segmentTable segs f.bda.devUuid)
        bdSave.userInfo bdSave.hardwareInfo = .ok p.2 := by
  obtain ⟨-, -, h⟩ := Outcome.bind_eq_ok.mp h
  obtain ⟨⟨tier, bdSave⟩, hr, h⟩ := Outcome.bind_eq_ok.mp h
  obtain ⟨-, -, h⟩ := Outcome.bind_eq_ok.mp h
  obtain ⟨bd, hbd, h⟩ := Outcome.bind_eq_ok.mp h
  cases h
  exact ⟨bdSave, hr, hbd⟩

/-- The devices that are returned, each with the recorded segments in use. -/
theorem getBlockdevs_eq_ok {save : BackstoreSave} {found : List FoundDev}
    {datadevs cachedevs : List StratBlockDev} (hu : ∀ f ∈ found, f.bda.devSize < u64Bound)
    (h : getBlockdevs save found = .ok (datadevs, cachedevs)) :
    ∃ segs, recordedSegments save = .ok segs ∧
      datadevs.map (·.uuid) = (save.dataTier.blockdev.devs.map (·.uuid)).dedup ∧
      cachedevs.map (·.uuid) = ((recordedCache save).map (·.uuid)).dedup ∧
      ∀ b ∈ datadevs ++ cachedevs, b.Holds (segmentTable segs b.uuid) := by
  obtain ⟨segs, hsegs, h⟩ := Outcome.bind_eq_ok.mp h
  obtain ⟨bds, hbds, h⟩ := Outcome.bind_eq_ok.mp h
  obtain ⟨datadevs', hdata, h⟩ := Outcome.bind_eq_ok.mp h
  obtain ⟨cachedevs', hcache, h⟩ := Outcome.bind_eq_ok.mp h
  cases h
  obtain ⟨hdp, hdu⟩ := checkAndSortDevs_eq_ok (nameTier_eq_ok.mp hdata)
  obtain ⟨hcp, hcu⟩ := checkAndSortDevs_eq_ok (nameTier_eq_ok.mp hcache)
  have hall : ∀ p ∈ bds, p.2.Holds (segmentTable segs p.2.uuid) := by
    intro p hp
    obtain ⟨f, hf, hfp⟩ := exists_of_mem_collect hbds hp
    obtain ⟨bdSave, -, hnew⟩ := getBlockdev_eq_ok hfp
    obtain ⟨hholds, hid⟩ := StratBlockDev.holds_of_new (hu f hf) hnew
    simp only [StratBlockDev.identity, Prod.mk.injEq] at hid
    rwa [StratBlockDev.uuid, hid.2.1]
  have htier : ∀ tier, ∀ b ∈ ofTier tier bds, b.Holds (segmentTable segs b.uuid) := by
    intro tier b hb
    obtain ⟨p, hp, rfl⟩ := mem_map.mp hb
    exact hall p (mem_filter.mp hp).1
  refine ⟨segs, hsegs, hdu, hcu, fun b hb => ?_⟩
  rcases mem_append.mp hb with hb | hb
  · exact htier .data b (hdp.mem_iff.mp hb)
  · exact htier .cache b (hcp.mem_iff.mp hb)

theorem metadataToSegment_eq_ok {m : BlockDevMgr} {save : BaseDevSave} {s : BlkDevSegment}
    (h : metadataToSegment m.uuidToDevno save = .ok s) :
    s.record = save ∧ ∃ b ∈ m.blockDevs, b.uuid = s.uuid ∧ b.dev = s.segment.device := by
  unfold metadataToSegment at h
  split at h
  · rename_i device hd
    cases h
    refine ⟨rfl, ?_⟩
    obtain ⟨b, hb, rfl⟩ := Option.map_eq_some_iff.mp hd
    have hmem := mem_of_find?_eq_some hb
    have hu := List.find?_some hb
    exact ⟨b, mem_reverse.mp hmem, by simpa using hu, rfl⟩
  · cases h

theorem collect_metadataToSegment {m : BlockDevMgr} {saves : List BaseDevSave}
    {segs : List BlkDevSegment}
    (h : collect (metadataToSegment m.uuidToDevno) saves = .ok segs) :
    segs.map (·.record) = saves ∧
      ∀ s ∈ segs, ∃ b ∈ m.blockDevs, b.uuid = s.uuid ∧ b.dev = s.segment.device := by
  constructor
  · rw [collect_map h fun save _ s hs => (metadataToSegment_eq_ok hs).1, map_id']
  · intro s hs
    obtain ⟨save, -, hsave⟩ := exists_of_mem_collect h hs
    exact (metadataToSegment_eq_ok hsave).2

theorem segmentTable_record (segs : List BlkDevSegment) (u : DevUuid) :
    segmentTable (segs.map (·.record)) u = onDevice u segs := by
  rw [segmentTable, onDevice, filter_map, map_map]
  rfl

/-- All segments of the cache tier, if there is one. -/
def cacheTierSegments : Option CacheTier → List BlkDevSegment
  | some t => t.cacheSegments ++ t.metaSegments
  | none => []

theorem cacheTier_setup_eq_ok {m : BlockDevMgr} {save : CacheTierSave} {t : CacheTier}
    (h : CacheTier.setup m save = .ok t) :
    (∃ rest, save.blockdev.allocs =
        t.cacheSegments.map (·.record) :: t.metaSegments.map (·.record) :: rest) ∧
      ∀ s ∈ cacheTierSegments (some t),
        ∃ b ∈ m.blockDevs, b.uuid = s.uuid ∧ b.dev = s.segment.device := by
  unfold CacheTier.setup at h
  split_ifs at h with havail
  obtain ⟨metas, hmetas, h⟩ := Outcome.bind_eq_ok.mp h
  obtain ⟨msegs, hmsegs, h⟩ := Outcome.bind_eq_ok.mp h
  obtain ⟨caches, hcaches, h⟩ := Outcome.bind_eq_ok.mp h
  obtain ⟨csegs, hcsegs, h⟩ := Outcome.bind_eq_ok.mp h
  cases h
  obtain ⟨hmr, hmh⟩ := collect_metadataToSegment hmsegs
  obtain ⟨hcr, hch⟩ := collect_metadataToSegment hcsegs
  rw [expect_eq_ok] at hmetas hcaches
  constructor
  · match hallocs : save.blockdev.allocs with
    | [] => simp [hallocs] at hcaches
    | [_] => simp [hallocs] at hmetas
    | first :: second :: rest =>
      simp only [hallocs, List.getElem?_cons_zero, List.getElem?_cons_succ,
        Option.some.injEq] at hmetas hcaches
      exact ⟨rest, by rw [hmr, hcr, hmetas, hcaches]⟩
  · intro s hs
    rcases mem_append.mp hs with hs | hs
    · exact hch s hs
    · exact hmh s hs

/-- The segments that the tiers are set up with are among the recorded ones, and on devices of
their own tier. -/
theorem setup_segments {save : BackstoreSave} {segs : List BaseDevSave}
    {dataMgr cacheMgr : BlockDevMgr} {dataTier : DataTier} {cacheTier : Option CacheTier}
    (hsegs : recordedSegments save = .ok segs)
    (hd : DataTier.setup dataMgr save.dataTier = .ok dataTier)
    (hc : save.cacheTier.map (CacheTier.setup cacheMgr) = cacheTier.map .ok) :
    ((dataTier.segments ++ cacheTierSegments cacheTier).map (·.record)).Sublist segs ∧
      (∀ s ∈ dataTier.segments,
        ∃ b ∈ dataMgr.blockDevs, b.uuid = s.uuid ∧ b.dev = s.segment.device) ∧
      ∀ s ∈ cacheTierSegments cacheTier,
        ∃ b ∈ cacheMgr.blockDevs, b.uuid = s.uuid ∧ b.dev = s.segment.device := by
  obtain ⟨data, hdata, h⟩ := Outcome.bind_eq_ok.mp hsegs
  cases h
  obtain ⟨data', hdata', h⟩ := Outcome.bind_eq_ok.mp hd
  obtain ⟨dsegs, hdsegs, h⟩ := Outcome.bind_eq_ok.mp h
  cases h
  obtain rfl : data = data' := ok.inj (hdata.symm.trans hdata')
  obtain ⟨hdr, hdh⟩ := collect_metadataToSegment hdsegs
  cases hct : save.cacheTier with
  | none =>
    rw [hct] at hc
    obtain rfl : cacheTier = none := by simpa using hc.symm
    exact ⟨by simp [cacheTierSegments, hdr], hdh, by simp [cacheTierSegments]⟩
  | some cacheSave =>
    rw [hct] at hc
    obtain ⟨t, rfl, ht⟩ := Option.map_eq_some_iff.mp hc.symm
    obtain ⟨⟨rest, hallocs⟩, hch⟩ := cacheTier_setup_eq_ok ht.symm
    refine ⟨?_, hdh, hch⟩
    simp only [map_append, hdr, cacheTierSegments, hallocs, flatten_cons]
    rw [← append_assoc (t.cacheSegments.map _)]
    exact (List.Sublist.refl data).append (sublist_append_left _ _)

/-- The segment lies on one of the devices, behind its BDA. -/
def InDevice (devs : List StratBlockDev) (s : BlkDevSegment) : Prop :=
  ∃ b ∈ devs, b.uuid = s.uuid ∧ b.dev = s.segment.device ∧
    b.bda.extendedSize ≤ s.segment.start ∧ s.segment.start + s.segment.length ≤ b.bda.devSize

/-- However the metadata came about: if the devices and the tiers can be set up from it, the
devices of each tier are the recorded ones, in the recorded order, no two segments share a
sector, and every segment lies on a device of its own tier, behind the BDA. -/
theorem accepted_layout_disjoint {save : BackstoreSave} {found : List FoundDev}
    {datadevs cachedevs : List StratBlockDev} {time : Option DateTime} {dataTier : DataTier}
    {cacheTier : Option CacheTier} (hu : ∀ f ∈ found, f.bda.devSize < u64Bound)
    (hg : getBlockdevs save found = .ok (datadevs, cachedevs))
    (hd : DataTier.setup ⟨datadevs, time⟩ save.dataTier = .ok dataTier)
    (hc : save.cacheTier.map (CacheTier.setup ⟨cachedevs, time⟩) = cacheTier.map .ok) :
    datadevs.map (·.uuid) = (save.dataTier.blockdev.devs.map (·.uuid)).dedup ∧
      cachedevs.map (·.uuid) = ((recordedCache save).map (·.uuid)).dedup ∧
      (dataTier.segments ++ cacheTierSegments cacheTier).Pairwise Apart ∧
      (∀ s ∈ dataTier.segments, 0 < s.segment.length → InDevice datadevs s) ∧
      ∀ s ∈ cacheTierSegments cacheTier, 0 < s.segment.length → InDevice cachedevs s := by
  obtain ⟨segs, hsegs, hdu, hcu, hholds⟩ := getBlockdevs_eq_ok hu hg
  obtain ⟨hsub, hdh, hch⟩ := setup_segments hsegs hd hc
  have hon : ∀ u, (onDevice u (dataTier.segments ++ cacheTierSegments cacheTier)).Sublist
      (segmentTable segs u) := by
    intro u
    rw [← segmentTable_record]
    exact (hsub.filter _).map _
  have hhome : ∀ s ∈ dataTier.segments ++ cacheTierSegments cacheTier,
      ∃ b ∈ datadevs ++ cachedevs, b.uuid = s.uuid := by
    intro s hs
    rcases List.mem_append.mp hs with hs | hs
    · obtain ⟨b, hb, hbu, -⟩ := hdh s hs
      exact ⟨b, List.mem_append_left _ hb, hbu⟩
    · obtain ⟨b, hb, hbu, -⟩ := hch s hs
      exact ⟨b, List.mem_append_right _ hb, hbu⟩
  -- a segment on a device is one of those that the device was made with
  have hin : ∀ devs, (∀ b ∈ devs, b ∈ datadevs ++ cachedevs) →
      ∀ s ∈ dataTier.segments ++ cacheTierSegments cacheTier, 0 < s.segment.length →
      (∃ b ∈ devs, b.uuid = s.uuid ∧ b.dev = s.segment.device) → InDevice devs s := by
    rintro devs hdevs s hs hpos ⟨b, hb, hbu, hbd⟩
    have hmem : s.range ∈ segmentTable segs b.uuid :=
      (hon b.uuid).subset (mem_onDevice.mpr ⟨s, hs, hbu.symm, rfl⟩)
    obtain ⟨h1, h2⟩ := (hholds b (hdevs b hb)).within hmem hpos
    exact ⟨b, hb, hbu, hbd, h1, h2⟩
  refine ⟨hdu, hcu, apart_of_separate fun u => ?_, fun s hs hpos => ?_, fun s hs hpos => ?_⟩
  · by_cases hex : ∃ s ∈ dataTier.segments ++ cacheTierSegments cacheTier, s.uuid = u
    · obtain ⟨s, hs, rfl⟩ := hex
      obtain ⟨b, hb, hbu⟩ := hhome s hs
      have hsep := (List.pairwise_cons.mp (hholds b hb).separate).2
      rw [hbu] at hsep
      exact List.Pairwise.sublist (hon s.uuid) hsep
    · rw [onDevice_eq_nil fun s hs he => hex ⟨s, hs, he⟩]
      exact List.Pairwise.nil
  · exact hin datadevs (fun b hb => List.mem_append_left _ hb) s (List.mem_append_left _ hs) hpos
      (hdh s hs)
  · exact hin cachedevs (fun b hb => List.mem_append_right _ hb) s (List.mem_append_right _ hs)
      hpos (hch s hs)

/-- A data device and a cache device, found in the other order. -/
theorem accepted_layout_disjoint_two_tiers :
    let found : ℕ → FoundDev := fun n => ⟨⟨⟨⟨0⟩, ⟨BitVec.ofNat 128 n⟩⟩, ⟨8, n⟩, "/dev/disk"⟩,
      BDA.new ⟨⟨0⟩, ⟨BitVec.ofNat 128 n⟩⟩ MDADataSize.default 16384 0, .ok 8388608, .ok ()⟩
    let cacheSave : CacheTierSave :=
      ⟨⟨[[⟨⟨2⟩, 8200, 8184⟩], [⟨⟨2⟩, 8192, 8⟩]], [⟨⟨2⟩, none, none⟩]⟩⟩
    let save : BackstoreSave := ⟨⟨⟨[[⟨⟨1⟩, 8192, 100⟩]], [⟨⟨1⟩, none, none⟩]⟩⟩, ⟨[(0, 100)]⟩,
      some cacheSave⟩
    ∃ datadevs cachedevs dataTier cacheTier,
      getBlockdevs save [found 2, found 1] = .ok (datadevs, cachedevs) ∧
      DataTier.setup ⟨datadevs, none⟩ save.dataTier = .ok dataTier ∧
      CacheTier.setup ⟨cachedevs, none⟩ cacheSave = .ok cacheTier ∧
      (dataTier.segments ++ cacheTierSegments (some cacheTier)).Pairwise Apart := by
  intro found cacheSave save
  obtain ⟨⟨datadevs, cachedevs⟩, hg, dataTier, hd, cacheTier, hc, -⟩ :
      ∃ devs, getBlockdevs save [found 2, found 1] = .ok devs ∧
      ∃ dataTier, DataTier.setup ⟨devs.1, none⟩ save.dataTier = .ok dataTier ∧
      ∃ cacheTier, CacheTier.setup ⟨devs.2, none⟩ cacheSave = .ok cacheTier ∧ True := by
    decide +kernel
  have hu : ∀ f ∈ [found 2, found 1], f.bda.devSize < u64Bound := by decide +kernel
  have hc' : save.cacheTier.map (CacheTier.setup ⟨cachedevs, none⟩) = (some cacheTier).map .ok :=
    congrArg some hc
  exact ⟨datadevs, cachedevs, dataTier, cacheTier, hg, hd, hc,
    (accepted_layout_disjoint hu hg hd hc').2.2.1⟩

end Stratisd.Liminal
