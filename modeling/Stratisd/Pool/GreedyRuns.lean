import Stratisd.Liminal.Blockdevs
import Stratisd.Pool.Assembly
import Stratisd.Pool.Requests
import Stratisd.Thinpool.Greedy

/-! Greedy allocation in every state that a pool gets into while device-mapper does what a check
asks for. No other request has to succeed for that: one that takes the cap device away for good
leaves a pool on which no check returns. -/

namespace Stratisd.Backstore

open Run Run.Stateful Engine Extent

namespace Backstore

variable {b b' : Backstore}

/-! ### The cap device -/

/-- The cap device has all segments of the data tier, or it has been lost. -/
def FilledOrLost (b : Backstore) : Prop := b.Filled ∨ b.Capless

theorem growCap_full (h : b.Filled) {io : CapIo} {amount : ℕ} {granted : Bool}
    (hg : growCap io amount b = (b', .ok granted)) : b'.size = totalLength b'.dataTier.segments := by
  obtain ⟨b₁, allocated, halloc, hg⟩ := bind_eq_ok.mp hg
  obtain ⟨hrefuse, hgrant⟩ := allocData_of_tracked h.tracked amount
  cases allocated with
  | false =>
    cases hg
    have hlt : b.dataTier.blockMgr.availSpace < amount := by
      by_contra hge
      cases (congrArg Prod.snd halloc).symm.trans (hgrant (not_lt.mp hge))
    obtain rfl : b = b' := congrArg Prod.fst ((hrefuse hlt).symm.trans halloc)
    exact h.full
  | true =>
    obtain ⟨b₂, _, hext, hg⟩ := bind_eq_ok.mp hg
    cases hg
    have hroom := (allocData_room b amount).1
    rw [halloc] at hroom
    have hsize := (extendCapDevice_room (h.toRoom.roomier hroom) io).2.2
    have htier := dataTier_extendCapDevice io b₁
    rw [hext] at hsize htier
    rw [htier]
    exact hsize rfl

theorem filled_alloc (h : b.Filled) {io : CapIo} {sizes : List ℕ} {chunks : Option (List Range)}
    (ha : alloc io sizes b = (b', .ok chunks)) : b'.Filled := by
  have hsound := (alloc_spec h.toSound io sizes).1
  rw [ha] at hsound
  refine ⟨hsound, ?_⟩
  rw [alloc, get_bind, availableInCap_eq h.toRoom, lift_ok_bind] at ha
  obtain ⟨b₁, granted, hgrow, ha⟩ := bind_eq_ok.mp ha
  have hfull : b₁.size = totalLength b₁.dataTier.segments := by
    split_ifs at hgrow
    · exact growCap_full h hgrow
    · cases hgrow
      exact h.full
  split_ifs at ha
  · rw [takeChunks_eq] at ha
    cases ha
    exact hfull
  · cases ha
    exact hfull

theorem filledOrLost_addDatadevs (h : b.FilledOrLost) (poolUuid : PoolUuid)
    {prepared : StratisResult (List StratBlockDev)} (hn : b.UnusedData prepared) :
    (addDatadevs poolUuid prepared b).1.FilledOrLost := by
  rcases h with h | h
  · exact Or.inl ⟨sound_addDatadevs h.toSound poolUuid hn, h.full⟩
  · exact Or.inr h

theorem FilledOrLost.recapped (h : b.FilledOrLost) (hb : SameRoom b b') : b'.FilledOrLost := by
  rcases h with h | h
  · refine Or.inl ⟨⟨⟨?_, ?_⟩, ?_, hb.shape h.shape⟩, ?_⟩
    · rw [hb.next, hb.size]
      exact h.next_le
    · rw [hb.size, hb.dataTier]
      exact h.size_le
    · rw [hb.dataTier]
      exact h.tracked
    · rw [hb.size, hb.dataTier]
      exact h.full
  · exact Or.inr (hb.capless h)

theorem FilledOrLost.shape (h : b.FilledOrLost) : b.cache = none ∨ b.linear = none :=
  h.elim (fun h => h.toSound.shape) fun h => Or.inl h.1

theorem filledOrLost_initCache (h : b.FilledOrLost) (io : InitCacheIo) (paths : List String) :
    (initCache io paths b).1.FilledOrLost := by
  rcases initCache_cases io paths h.shape with hsame | ⟨hlost, -⟩
  · exact h.recapped hsame
  · exact Or.inr hlost

end Backstore

end Stratisd.Backstore

namespace Stratisd.Pool

open Run Run.Outcome Run.Stateful Engine Extent Metadata Backstore Thinpool List
  Backstore.Backstore

/-! ### Thin pool and backstore -/

/-- The cap device has all segments or is lost, and the devices under the thin pool are as long as
their segments. -/
structure Supplied (s : Stacked) : Prop where
  store : s.backstore.FilledOrLost
  sized : s.thinPool.Sized

theorem Supplied.of_fed {s : Stacked} (h : ThinPool.Fed s) : Supplied s := ⟨Or.inl h.filled, h.sized⟩

theorem not_agree_of_capless {s : Stacked} (h : s.backstore.Capless) : ¬ Agree s := by
  unfold Agree device
  rw [h.1, h.2]
  simp

section stacked

variable {overflowChecks : Bool}

theorem supplied_check {env : ℕ → ThinPool.CheckIo} (henv : ∀ round, (env round).Succeeds) :
    Keeps Supplied (ThinPool.check overflowChecks env) := by
  intro s h
  rcases h.store with hfilled | hlost
  · exact .of_fed (ThinPool.fed_check henv s ⟨hfilled, h.sized⟩)
  · rw [StratPool.check_of_not_agree overflowChecks (not_agree_of_capless hlost)]
    exact h

theorem supplied_onBackstore {α : Type} {p : Backstore.M α} {s : Stacked} (h : Supplied s)
    (hp : (p s.backstore).1.FilledOrLost) : Supplied (ThinPool.onBackstore p s).1 := ⟨hp, h.sized⟩

theorem FsOnly.supplied {α : Type} {p : ThinPool.F α} (h : FsOnly p) :
    Keeps Supplied (ThinPool.onThinPool p) := by
  intro s hs
  exact ⟨hs.store, h _ (fun _ _ _ _ ht => ht) s.thinPool hs.sized⟩

theorem tableLength_map_moveLine (device : Device) (table : List TargetLine) :
    tableLength (table.map (ThinPool.moveLine device)) = tableLength table := by
  rw [tableLength, map_map]
  rfl

theorem supplied_setSubTable (io : ThinPool.TableIo) {segs : Segments} {sub : SubDevice}
    {table : List TargetLine} (hlength : tableLength table = total (segs.get sub)) :
    Keeps (fun s => Supplied s ∧ s.thinPool.segments = segs)
      (ThinPool.setSubTable io sub table) := by
  refine (keeps_lift _).bind fun _ =>
    Keeps.bind (keeps_modify fun s h => ?_) fun _ => keeps_lift _
  obtain ⟨h, rfl⟩ := h
  refine ⟨⟨h.store, fun sub' => ?_⟩, rfl⟩
  rw [LinearDev.size, ThinPoolDev.dev_setTable]
  split_ifs with he
  · rw [he]
    exact hlength
  · exact h.sized sub'

theorem supplied_setDevice (io : ThinPool.MoveIo) (device : Device) :
    Keeps Supplied (ThinPool.setDevice io device) := by
  refine keeps_get_bind fun s h => ?_
  split_ifs with hd
  · exact h
  · have hmoved : ∀ sub, tableLength ((s.thinPool.thinPool.dev sub).table.map
        (ThinPool.moveLine device)) = total (s.thinPool.segments.get sub) := fun sub =>
      (tableLength_map_moveLine _ _).trans (h.sized sub)
    have hkeeps := (supplied_setSubTable io.metaTable (hmoved .thinMeta)).bind fun _ =>
      (supplied_setSubTable io.dataTable (hmoved .thinData)).bind fun _ =>
        (keeps_lift (dmCall io.mdvTable)).bind fun _ =>
          Keeps.bind (p := ThinPool.update fun t => { t with mdv := { t.mdv with
            dev := { t.mdv.dev with table := t.mdv.dev.table.map (ThinPool.moveLine device) } } })
            (fun s h => ⟨⟨h.1.store, h.1.sized⟩, h.2⟩) fun _ =>
              Keeps.bind (p := ThinPool.update fun t => { t with backstoreDevice := device })
                (fun s h => ⟨⟨h.1.store, h.1.sized⟩, h.2⟩) fun _ => keeps_pure true
    exact (hkeeps s ⟨h, rfl⟩).1

theorem keptByParts_supplied :
    KeptByParts overflowChecks (fun env => ∀ round, (env round).Succeeds) Supplied where
  check _ := supplied_check
  addDatadevs poolUuid _ _ hs hn :=
    supplied_onBackstore hs (filledOrLost_addDatadevs hs.store poolUuid hn)
  addCachedevs io poolUuid s hs :=
    supplied_onBackstore hs (hs.store.recapped (sameRoom_addCachedevs io poolUuid _))
  initCache io paths s hs :=
    supplied_onBackstore hs (filledOrLost_initCache hs.store io paths)
  setDevice := supplied_setDevice
  filesystems := FsOnly.supplied

end stacked

/-! ### Metadata of a pool that is set up -/

/-- Metadata as it is saved: no segment of the data tier is empty, and the segments of the cache are
not on devices of the data tier. -/
structure Regular (save : BackstoreSave) : Prop where
  pos : ∀ segs, save.dataTier.blockdev.allocs[0]? = some segs → ∀ s ∈ segs, 0 < s.length
  apart : ∀ c, save.cacheTier = some c → ∀ s ∈ c.blockdev.allocs.flatten,
    s.parent ∉ save.dataTier.blockdev.devs.map (·.uuid)

theorem regular_record {b : Backstore} (h : b.Kept) : Regular b.record := by
  refine ⟨fun segs hsegs s hs => ?_, fun c hc s hs hdata => ?_⟩
  · obtain rfl := Option.some.inj hsegs
    obtain ⟨seg, hseg, rfl⟩ := mem_map.mp hs
    exact (h.sound.tracked.home seg hseg).1
  · obtain ⟨t, ht, rfl⟩ := Option.map_eq_some_iff.mp hc
    have hs : s ∈ (t.cacheSegments ++ t.metaSegments).map (·.record) := by
      simpa [CacheTier.record] using hs
    obtain ⟨seg, hseg, rfl⟩ := mem_map.mp hs
    obtain ⟨-, d, hd, huuid, -⟩ := (h.cache t ht).tracks.home seg hseg
    have hcache : seg.uuid ∈ b.cachedevs.map (·.uuid) := by
      rw [cachedevs, ht, ← huuid]
      exact mem_map_of_mem hd
    have hdevs : b.record.dataTier.blockdev.devs.map (·.uuid) = b.datadevs.map (·.uuid) :=
      map_map ..
    rw [hdevs] at hdata
    have hdistinct := h.distinct
    rw [map_append, nodup_append] at hdistinct
    exact hdistinct.2.2 _ hdata _ hcache rfl

theorem tracked_of_setup {save : BackstoreSave} {found : List Liminal.FoundDev}
    {datadevs cachedevs : List StratBlockDev} {time : Option DateTime} {t : DataTier}
    (hreg : Regular save) (hsize : ∀ f ∈ found, f.bda.devSize < u64Bound)
    (hfound : Liminal.getBlockdevs save found = .ok (datadevs, cachedevs))
    (ht : DataTier.setup ⟨datadevs, time⟩ save.dataTier = .ok t) : t.Tracked := by
  obtain ⟨segs, hsegs, huuids, -, hholds⟩ := Liminal.getBlockdevs_eq_ok hsize hfound
  obtain ⟨data, hdata, hsegs⟩ := Outcome.bind_eq_ok.mp hsegs
  obtain ⟨data', hdata', ht⟩ := Outcome.bind_eq_ok.mp ht
  obtain rfl : data = data' := ok.inj (hdata.symm.trans hdata')
  obtain ⟨segments, hcollect, ht⟩ := Outcome.bind_eq_ok.mp ht
  obtain rfl := ok.inj ht
  obtain ⟨hrecord, hhome⟩ := Liminal.collect_metadataToSegment hcollect
  refine ⟨huuids ▸ nodup_dedup _, fun b hb => ?_, fun s hs => ⟨?_, hhome s hs⟩⟩
  · have hrecorded : b.uuid ∈ save.dataTier.blockdev.devs.map (·.uuid) := by
      rw [← mem_dedup, ← huuids]
      exact mem_map_of_mem hb
    have htable : Liminal.segmentTable segs b.uuid = onDevice b.uuid segments := by
      rw [← Liminal.segmentTable_record, hrecord, ← ok.inj hsegs]
      cases hc : save.cacheTier with
      | none => rw [append_nil]
      | some c =>
        have hnone : c.blockdev.allocs.flatten.filter (fun s => s.parent = b.uuid) = [] := by
          rw [filter_eq_nil_iff]
          exact fun s hs heq => hreg.apart c hc s hs (of_decide_eq_true heq ▸ hrecorded)
        rw [Liminal.segmentTable, filter_append, hnone, append_nil]
        rfl
    rw [← htable]
    exact hholds b (mem_append_left _ hb)
  · have hmem : s.record ∈ data := hrecord ▸ mem_map_of_mem hs
    exact hreg.pos data (expect_eq_ok.mp hdata) _ hmem

theorem sized_of_tablesMatch {t : ThinPool} (h : t.TablesMatch) : t.Sized := by
  intro sub
  rw [LinearDev.size, h sub, ThinPool.tableLength_segsToTable]

namespace StratPool

variable {overflowChecks : Bool} {p : StratPool}

theorem fed_assemble {io : SetupIo} {found : List Liminal.FoundDev}
    {datadevs cachedevs : List StratBlockDev} {timestamp : DateTime} {metadata : PoolSave}
    {s : Stacked} (hreg : Regular metadata.backstore) (hsize : ∀ f ∈ found, f.bda.devSize < u64Bound)
    (hfound : Liminal.getBlockdevs metadata.backstore found = .ok (datadevs, cachedevs))
    (h : assemble overflowChecks io datadevs cachedevs timestamp metadata = .ok s) :
    ThinPool.Fed s := by
  obtain ⟨hroom, ht⟩ := assemble_eq_ok h
  obtain ⟨_, -, h⟩ := Outcome.bind_eq_ok.mp h
  obtain ⟨b, hb, h⟩ := Outcome.bind_eq_ok.mp h
  obtain ⟨t, -, h⟩ := Outcome.bind_eq_ok.mp h
  obtain rfl := ok.inj h
  obtain ⟨hdata, hshape, hfull, -⟩ := setup_eq_ok hb
  exact ⟨⟨⟨hroom, tracked_of_setup hreg hsize hfound hdata, hshape⟩, hfull⟩,
    sized_of_tablesMatch (ThinPool.tablesMatch_of_setup ht)⟩

theorem fed_new {io : ThinPool.NewIo} {devs : List StratBlockDev} {b : Backstore} {t : ThinPool}
    (hfresh : ∀ d ∈ devs, d.Fresh) (hnodup : (devs.map (·.uuid)).Nodup)
    (h : ThinPool.new overflowChecks io ThinPoolSizeParams.default dataBlockSize
      ⟨none, none, DataTier.new ⟨devs, none⟩, none, 0⟩ = (b, .ok t)) : ThinPool.Fed ⟨t, b⟩ := by
  obtain ⟨_, _, _, _, halloc, -, -, htables⟩ := ThinPool.new_eq_ok h
  have hstart : initializeStore (.ok devs) =
      .ok ⟨none, none, DataTier.new ⟨devs, none⟩, none, 0⟩ := rfl
  have hsound := (kept_initializeStore hfresh hnodup hstart).1.sound
  exact ⟨filled_alloc ⟨hsound, rfl⟩ halloc, sized_of_tablesMatch htables⟩

/-- A pool that has been made on new devices, or set up from metadata as it is saved, while
device-mapper did what the check asked for. -/
inductive Begun (overflowChecks : Bool) : StratPool → Prop
  | made {io : InitIo} {name : String} {devs : List StratBlockDev} {p : StratPool}
      (hdevs : io.prepared = .ok devs) (hfresh : ∀ d ∈ devs, d.Fresh)
      (hnodup : (devs.map (·.uuid)).Nodup) (hcheck : ∀ round, (io.check round).Succeeds)
      (h : initializePool overflowChecks io name = .ok p) : Begun overflowChecks p
  | assembled {io : SetupIo} {found : List Liminal.FoundDev}
      {datadevs cachedevs : List StratBlockDev} {timestamp : DateTime} {metadata : PoolSave}
      {p : StratPool} (hreg : Regular metadata.backstore)
      (hsize : ∀ f ∈ found, f.bda.devSize < u64Bound)
      (hfound : Liminal.getBlockdevs metadata.backstore found = .ok (datadevs, cachedevs))
      (hcheck : ∀ round, (io.check round).Succeeds)
      (h : setup overflowChecks io datadevs cachedevs timestamp metadata = .ok p) :
      Begun overflowChecks p

theorem Begun.supplied (h : Begun overflowChecks p) : Supplied p.toStacked := by
  cases h with
  | made hdevs hfresh hnodup hcheck h =>
    obtain ⟨devs, b, t, hdevs', hmade, rfl⟩ := initializePool_eq_ok h
    obtain rfl := ok.inj (hdevs.symm.trans hdevs')
    rw [toStacked_writeMetadata]
    exact supplied_check hcheck _ (.of_fed (fed_new hfresh hnodup hmade))
  | assembled hreg hsize hfound hcheck h =>
    obtain ⟨s, hs, h⟩ := Outcome.bind_eq_ok.mp h
    obtain ⟨changed, -, h⟩ := Outcome.bind_eq_ok.mp h
    obtain ⟨_, -, h⟩ := Outcome.bind_eq_ok.mp h
    obtain rfl := ok.inj h
    rw [toStacked_writeIfChanged]
    exact supplied_check hcheck _ (.of_fed (fed_assemble hreg hsize hfound hs))

/-! ### Requests -/

/-- Device-mapper does what the checks of the request ask for, and devices for the data tier are new
to it. -/
def Undisturbed (p : StratPool) : Request → Prop
  | .eventOn io _ => ∀ round, (io.check round).Succeeds
  | .addBlockdevs io _ _ _ _ => p.backstore.UnusedData io.datadevs ∧
      ∀ round, (io.check round).Succeeds
  | _ => True

/-- The same for a pool. -/
abbrev WellSupplied (p : StratPool) : Prop := Supplied p.toStacked

theorem Undisturbed.admitted {r : Request} (h : Undisturbed p r) :
    Admitted (fun env => ∀ round, (env round).Succeeds) p r := by
  cases r with
  | addBlockdevs io poolUuid name paths tier => exact ⟨fun _ => h.1, h.2⟩
  | eventOn io name => exact h
  | _ => trivial

theorem wellSupplied_step {r : Request} (hp : WellSupplied p) (hr : Undisturbed p r) :
    WellSupplied (StratPool.step overflowChecks p r).1 :=
  keptByParts_supplied.step hp hr.admitted

/-! ### Checks -/

/-- Device-mapper does what an extension asks for. -/
def grantedExtension : ThinPool.ExtendIo := ⟨⟨some ⟨253, 0⟩, true, true⟩, ⟨true, true⟩, true⟩

def grantedCheck : ThinPool.CheckIo :=
  { smoothCheck with extendMeta := grantedExtension, extendData := grantedExtension }

def grantedInit (devs : List StratBlockDev) : InitIo :=
  { smoothInit devs with check := fun _ => grantedCheck }

end StratPool

end Stratisd.Pool
