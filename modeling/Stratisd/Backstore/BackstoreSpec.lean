import Stratisd.Backstore.CapSpec

/-! The backstore with its cache. Adding devices to a tier and making a cache keep what the
tiers have in use apart, and the cap device keeps its size. -/

namespace Stratisd.Backstore

open Run Run.Outcome Run.Stateful Engine List

namespace Backstore

variable {b : Backstore}

/-- The backstore with its cache: the tiers have in use what they record, and their devices
are distinct. -/
structure Kept (b : Backstore) : Prop where
  sound : b.Sound
  cache : ∀ t ∈ b.cacheTier, t.Full
  paired : b.cache.isSome = b.cacheTier.isSome
  distinct : ((b.datadevs ++ b.cachedevs).map (·.uuid)).Nodup

/-- Devices prepared for a backstore: unused, and distinct from those that it has. -/
def Unused (b : Backstore) (prepared : StratisResult (List StratBlockDev)) : Prop :=
  ∀ new, prepared = .ok new → (∀ d ∈ new, d.Fresh) ∧
    ((b.datadevs ++ b.cachedevs ++ new).map (·.uuid)).Nodup

theorem map_uuid_of_identity {bds bds' : List StratBlockDev}
    (h : bds'.map (·.identity) = bds.map (·.identity)) :
    bds'.map (·.uuid) = bds.map (·.uuid) := map_of_identity (·.2.1.devUuid) h

variable {b' : Backstore}

theorem Kept.grows (h : b.Kept) (hs : b'.Sound) (hg : Grows b b') : b'.Kept := by
  refine ⟨hs, by rw [hg.cacheTier]; exact h.cache, by rw [hg.cache, hg.cacheTier]; exact h.paired,
    ?_⟩
  have hc : b'.cachedevs = b.cachedevs := by rw [cachedevs, cachedevs, hg.cacheTier]
  have hd : b'.datadevs.map (·.uuid) = b.datadevs.map (·.uuid) := map_uuid_of_identity hg.devices
  have := h.distinct
  rw [map_append] at this ⊢
  rwa [hc, hd]

theorem kept_initializeStore {devs : List StratBlockDev} (hf : ∀ d ∈ devs, d.Fresh)
    (hn : (devs.map (·.uuid)).Nodup)
    (h : initializeStore (.ok devs) = .ok b) : b.Kept ∧ b.next = 0 := by
  cases h
  refine ⟨⟨⟨⟨le_rfl, le_rfl⟩, CacheTier.tracks_of_fresh hf hn, Or.inl rfl⟩, ?_, rfl, ?_⟩, rfl⟩
  · intro t ht
    cases ht
  · simpa [datadevs, cachedevs, DataTier.new] using hn

/-- Devices prepared for the data tier: unused, and distinct from those that it has. -/
def UnusedData (b : Backstore) (prepared : StratisResult (List StratBlockDev)) : Prop :=
  ∀ new, prepared = .ok new → (∀ d ∈ new, d.Fresh) ∧ ((b.datadevs ++ new).map (·.uuid)).Nodup

theorem addDatadevs_cases (poolUuid : PoolUuid) (prepared : StratisResult (List StratBlockDev))
    (b : Backstore) :
    (addDatadevs poolUuid prepared b).1 = b ∨ ∃ new, prepared = .ok new ∧
      (addDatadevs poolUuid prepared b).1 = { b with dataTier := { b.dataTier with
        blockMgr := { b.dataTier.blockMgr with blockDevs := b.datadevs ++ new } } } := by
  have hb : (addDatadevs poolUuid prepared b).1 = { b with dataTier := { b.dataTier with
      blockMgr := (BlockDevMgr.add poolUuid prepared b.dataTier.blockMgr).1 } } := rfl
  rcases BlockDevMgr.add_cases poolUuid prepared b.dataTier.blockMgr with
    ⟨hsame, -⟩ | ⟨new, hnew, heq⟩
  · exact Or.inl (by rw [hb, hsame])
  · exact Or.inr ⟨new, hnew, by rw [hb, heq]; rfl⟩

theorem sound_addDatadevs (h : b.Sound) (poolUuid : PoolUuid)
    {prepared : StratisResult (List StratBlockDev)} (hn : b.UnusedData prepared) :
    (addDatadevs poolUuid prepared b).1.Sound := by
  rcases addDatadevs_cases poolUuid prepared b with heq | ⟨new, hnew, heq⟩
  · rwa [heq]
  · obtain ⟨hfresh, hnodup⟩ := hn new hnew
    rw [heq]
    exact ⟨⟨h.next_le, h.size_le⟩, Tracks.extend h.tracked hnodup fun d hd => (hfresh d hd).holds,
      h.shape⟩

variable {poolUuid : PoolUuid}

theorem kept_addDatadevs (h : b.Kept) {prepared : StratisResult (List StratBlockDev)}
    (hn : b.Unused prepared) :
    (addDatadevs poolUuid prepared b).1.Kept := by
  have hperm : ∀ new, ((b.datadevs ++ new) ++ b.cachedevs).Perm
      (b.datadevs ++ b.cachedevs ++ new) := fun new => by
    rw [append_assoc, append_assoc]
    exact List.Perm.append_left _ perm_append_comm
  have hdist : ∀ new, prepared = .ok new →
      (((b.datadevs ++ new) ++ b.cachedevs).map (·.uuid)).Nodup := fun new hnew =>
    ((hperm new).map _).nodup_iff.mpr (hn new hnew).2
  have hunused : b.UnusedData prepared := fun new hnew => by
    have := hdist new hnew
    rw [map_append] at this
    exact ⟨(hn new hnew).1, (nodup_append.mp this).1⟩
  refine ⟨sound_addDatadevs h.sound poolUuid hunused, h.cache, h.paired, ?_⟩
  rcases addDatadevs_cases poolUuid prepared b with heq | ⟨new, hnew, heq⟩
  · rw [heq]
    exact h.distinct
  · rw [heq]
    exact hdist new hnew

theorem totalLength_of_collect {f : DevUuid → Option Device} {saves : List BaseDevSave}
    {segs : List BlkDevSegment} (h : collect (metadataToSegment f) saves = .ok segs) :
    totalLength segs = (saves.map (·.length)).sum := by
  induction collect_eq_ok.mp h with
  | nil => rfl
  | @cons save seg saves segs hseg _ ih =>
    have hlength : seg.segment.length = save.length := by
      unfold metadataToSegment at hseg
      split at hseg
      · obtain rfl := ok.inj hseg
        rfl
      · cases hseg
    have ih := ih (collect_eq_ok.mpr ‹_›)
    simp only [totalLength, map_cons, sum_cons] at ih ⊢
    rw [ih, hlength]

theorem makeCache_eq_ok {io : CacheIo} {t : CacheTier} {origin : LinearDev} {new : Bool}
    {cache : CacheDev} (h : makeCache io t origin new = .ok cache) :
    cache.originDev = origin ∧ io.cache = some cache.device := by
  obtain ⟨metaDev, -, h⟩ := Outcome.bind_eq_ok.mp h
  obtain ⟨-, -, h⟩ := Outcome.bind_eq_ok.mp h
  obtain ⟨cacheDev, -, h⟩ := Outcome.bind_eq_ok.mp h
  obtain ⟨device, hd, h⟩ := Outcome.bind_eq_ok.mp h
  cases h
  refine ⟨rfl, ?_⟩
  cases hio : io.cache with
  | none => simp [hio] at hd
  | some d =>
    rw [hio, ofOption_some] at hd
    rw [ok.inj hd]

theorem setup_eq_ok {io : SetupIo} {save : BackstoreSave} {datadevs cachedevs : List StratBlockDev}
    {time : DateTime} (h : setup io save datadevs cachedevs time = .ok b) :
    DataTier.setup ⟨datadevs, some time⟩ save.dataTier = .ok b.dataTier ∧
      (b.cache = none ∨ b.linear = none) ∧ b.size = totalLength b.dataTier.segments ∧
      ∃ cap, save.cap.allocs[0]? = some cap ∧ b.next = cap.2 := by
  obtain ⟨dataTier, hdata, h⟩ := Outcome.bind_eq_ok.mp h
  obtain ⟨origin, horigin, h⟩ := Outcome.bind_eq_ok.mp h
  obtain ⟨⟨cacheTier, cache, linear⟩, hcap, h⟩ := Outcome.bind_eq_ok.mp h
  obtain ⟨cap, hnext, h⟩ := Outcome.bind_eq_ok.mp h
  obtain rfl := ok.inj h
  obtain ⟨device, -, horigin⟩ := Outcome.bind_eq_ok.mp horigin
  obtain rfl := ok.inj horigin
  have hsize := tableLength_mapToDm dataTier.segments
  have hnext := expect_eq_ok.mp hnext
  split_ifs at hcap with hdevs
  · split at hcap
    · obtain ⟨t, -, hcap⟩ := Outcome.bind_eq_ok.mp hcap
      obtain ⟨c, hc, hcap⟩ := Outcome.bind_eq_ok.mp hcap
      cases hcap
      refine ⟨hdata, Or.inr rfl, ?_, cap, hnext, rfl⟩
      simp only [size, CacheDev.size, (makeCache_eq_ok hc).1]
      exact hsize
    · cases hcap
  · cases hcap
    exact ⟨hdata, Or.inl rfl, hsize, cap, hnext, rfl⟩

theorem room_of_setup {io : SetupIo} {save : BackstoreSave} {datadevs cachedevs : List StratBlockDev}
    {time : DateTime} (h : setup io save datadevs cachedevs time = .ok b) {cap : ℕ × ℕ}
    {segs : List BaseDevSave} (hcap : save.cap.allocs[0]? = some cap)
    (hsegs : save.dataTier.blockdev.allocs[0]? = some segs)
    (hle : cap.2 ≤ (segs.map (·.length)).sum) : b.Room ∧ b.next = cap.2 := by
  obtain ⟨hdata, -, hsize, cap', hcap', hnext⟩ := setup_eq_ok h
  obtain rfl := Option.some.inj (hcap.symm.trans hcap')
  obtain ⟨allocs, hallocs, hdata⟩ := Outcome.bind_eq_ok.mp hdata
  obtain rfl := Option.some.inj (hsegs.symm.trans (expect_eq_ok.mp hallocs))
  obtain ⟨segments, hcollect, hdata⟩ := Outcome.bind_eq_ok.mp hdata
  have hlength := totalLength_of_collect hcollect
  have htier : b.dataTier.segments = segments := by rw [← ok.inj hdata]
  refine ⟨⟨?_, hsize.le⟩, hnext⟩
  rw [hnext, hsize, htier, hlength]
  exact hle

variable {uuids : List DevUuid}

theorem initCache_eq_ok {io : InitCacheIo} {paths : List String}
    (h : initCache io paths b = (b', .ok uuids)) :
    ∃ linear cache new t, b.cacheTier = none ∧ b.linear = some linear ∧ io.prepared = .ok new ∧
      CacheTier.new ⟨new, none⟩ io.wipe = .ok t ∧ cache.originDev = linear ∧
      io.cache.cache = some cache.device ∧
      b' = { b with cache := some cache, cacheTier := some t, linear := none } := by
  unfold initCache at h
  rw [get_bind] at h
  cases hct : b.cacheTier with
  | some t =>
    rw [hct] at h
    cases h
  | none =>
    rw [hct] at h
    simp only at h
    split_ifs at h with hp
    · cases h
    · obtain ⟨b₁, bdm, h1, h⟩ := bind_eq_ok.mp h
      obtain ⟨rfl, hbdm⟩ := Prod.mk.inj h1
      obtain ⟨new, hnew, hmgr⟩ := Outcome.bind_eq_ok.mp hbdm
      obtain rfl := ok.inj hmgr
      obtain ⟨b₂, t, h2, h⟩ := bind_eq_ok.mp h
      obtain ⟨rfl, ht⟩ := Prod.mk.inj h2
      obtain ⟨b₃, linear, h3, h⟩ := bind_eq_ok.mp h
      obtain ⟨rfl, hl⟩ := Prod.mk.inj h3
      rw [modify_bind] at h
      obtain ⟨b₄, cache, h4, h⟩ := bind_eq_ok.mp h
      obtain ⟨rfl, hc⟩ := Prod.mk.inj h4
      obtain ⟨ho, hdev⟩ := makeCache_eq_ok hc
      rw [modify_bind] at h
      cases h
      exact ⟨linear, cache, new, t, rfl, expect_eq_ok.mp hl, hnew, ht, ho, hdev, rfl⟩

theorem kept_initCache (h : b.Kept) {io : InitCacheIo} {paths : List String}
    (hn : b.Unused io.prepared) (hok : initCache io paths b = (b', .ok uuids)) : b'.Kept := by
  obtain ⟨linear, cache, new, t, hct, hl, hnew, ht, ho, -, rfl⟩ := initCache_eq_ok hok
  obtain ⟨hfresh, hnodup⟩ := hn new hnew
  have hc : b.cache = none := by
    have := h.paired
    rw [hct] at this
    simpa using this
  have hcd : b.cachedevs = [] := by rw [cachedevs, hct]
  rw [hcd, append_nil] at hnodup
  rw [map_append] at hnodup
  obtain ⟨hfull, hids⟩ := CacheTier.full_of_new hfresh (nodup_append.mp hnodup).2.1 ht
  have hsize : Backstore.size { b with cache := some cache, cacheTier := some t, linear := none } =
      b.size := by
    simp only [size, hl, hc, CacheDev.size, ho]
  refine ⟨⟨⟨?_, ?_⟩, h.sound.tracked, Or.inr rfl⟩, ?_, rfl, ?_⟩
  · exact h.sound.next_le.trans_eq hsize.symm
  · exact hsize.le.trans h.sound.size_le
  · rintro t' ⟨rfl⟩
    exact hfull
  · rw [map_append]
    simpa [datadevs, cachedevs, map_uuid_of_identity hids] using hnodup

/-- What a table of a device under the cache can not change. -/
def SameCap (load : CacheDev → CacheDev) : Prop :=
  ∀ c, (load c).device = c.device ∧ (load c).originDev = c.originDev

variable {load : CacheDev → CacheDev}

theorem setSubTable_eq_ok {io : AddCacheIo} {change : Bool}
    (h : setSubTable io change load b = (b', .ok ())) (hl : SameCap load) :
    ∃ load', SameCap load' ∧ b' = { b with cache := b.cache.map load' } := by
  unfold setSubTable at h
  split_ifs at h with hc
  · rcases loadTable_cases io.setTable io.resume
      (fun b : Backstore => { b with cache := b.cache.map load }) b with ⟨-, h2⟩ | ⟨h1, -⟩
    · rw [h] at h2
      cases h2
    · rw [h] at h1
      exact ⟨load, hl, h1⟩
  · cases h
    refine ⟨id, fun c => ⟨rfl, rfl⟩, ?_⟩
    simp

/-- Adding cache devices changes the cache tier and nothing of the cap device but the tables
of the devices under it. -/
theorem addCachedevs_eq_ok {io : AddCacheIo} (h : addCachedevs io poolUuid b = (b', .ok uuids)) :
    ∃ t cache t' changes load, b.cacheTier = some t ∧ b.cache = some cache ∧
      CacheTier.add poolUuid io.prepared io.wipe t = (t', .ok (uuids, changes)) ∧ SameCap load ∧
      b' = { b with cache := some (load cache), cacheTier := some t' } := by
  unfold addCachedevs at h
  rw [get_bind] at h
  cases hct : b.cacheTier with
  | none =>
    rw [hct] at h
    cases h
  | some t =>
    rw [hct] at h
    simp only at h
    obtain ⟨b₁, cache, h1, h⟩ := bind_eq_ok.mp h
    obtain ⟨rfl, hc⟩ := Prod.mk.inj h1
    rw [modify_bind] at h
    obtain ⟨b₂, changed, h2, h⟩ := bind_eq_ok.mp h
    obtain ⟨rfl, hadd⟩ := Prod.mk.inj h2
    obtain ⟨b₃, _, h3, h⟩ := bind_eq_ok.mp h
    obtain ⟨load, hload, rfl⟩ := setSubTable_eq_ok h3 fun c => ⟨rfl, rfl⟩
    obtain ⟨b₄, _, h4, h⟩ := bind_eq_ok.mp h
    obtain ⟨load', hload', rfl⟩ := setSubTable_eq_ok h4 fun c => ⟨rfl, rfl⟩
    cases h
    refine ⟨t, cache, (CacheTier.add poolUuid io.prepared io.wipe t).1, changed.2, load' ∘ load,
      rfl, expect_eq_ok.mp hc, Prod.ext rfl hadd, fun c => ?_, ?_⟩
    · exact ⟨(hload' _).1.trans (hload c).1, (hload' _).2.trans (hload c).2⟩
    · simp [expect_eq_ok.mp hc]

theorem kept_addCachedevs (h : b.Kept) {io : AddCacheIo} (hn : b.Unused io.prepared)
    (hok : addCachedevs io poolUuid b = (b', .ok uuids)) : b'.Kept := by
  obtain ⟨t, cache, t', changes, load, hct, hc, hadd, hload, rfl⟩ := addCachedevs_eq_ok hok
  have hcd : b.cachedevs = t.blockMgr.blockDevs := by rw [cachedevs, hct]
  have hl : b.linear = none := by
    rcases h.sound.shape with hs | hs
    · rw [hc] at hs
      cases hs
    · exact hs
  have hsize : Backstore.size { b with cache := some (load cache), cacheTier := some t' } =
      b.size := by
    simp only [size, hl, hc, CacheDev.size, (hload cache).2]
  have hsub : ∀ new, io.prepared = .ok new → (∀ d ∈ new, d.Fresh) ∧
      ((t.blockMgr.blockDevs ++ new).map (·.uuid)).Nodup := by
    intro new hnew
    obtain ⟨hfresh, hnodup⟩ := hn new hnew
    rw [hcd, append_assoc, map_append] at hnodup
    exact ⟨hfresh, (nodup_append.mp hnodup).2.1⟩
  obtain ⟨hfull, -, new, hnew, hids⟩ := CacheTier.full_of_add (h.cache t hct) hsub hadd
  refine ⟨⟨⟨?_, ?_⟩, h.sound.tracked, Or.inr hl⟩, ?_, rfl, ?_⟩
  · exact h.sound.next_le.trans_eq hsize.symm
  · exact hsize.le.trans h.sound.size_le
  · rintro t'' ⟨rfl⟩
    exact hfull
  · have hnodup := (hn new hnew).2
    rw [hcd, append_assoc, map_append] at hnodup
    rw [map_append]
    simp only [datadevs, cachedevs, map_uuid_of_identity hids]
    exact hnodup

/-! ### Changes to the cache, however they end -/

def Capless (b : Backstore) : Prop := b.cache = none ∧ b.linear = none

/-- The same data tier and the same index, under a cap device of the same size. -/
structure SameRoom (b b' : Backstore) : Prop where
  dataTier : b'.dataTier = b.dataTier
  next : b'.next = b.next
  size : b'.size = b.size
  shape : b.cache = none ∨ b.linear = none → b'.cache = none ∨ b'.linear = none
  capless : b.Capless → b'.Capless

theorem SameRoom.refl (b : Backstore) : SameRoom b b := ⟨rfl, rfl, rfl, id, id⟩

theorem SameRoom.loaded (h : SameRoom b b') (hl : SameCap load) :
    SameRoom b { b' with cache := b'.cache.map load } := by
  have hsize : Backstore.size { b' with cache := b'.cache.map load } = b'.size := by
    unfold Backstore.size
    cases b'.linear with
    | some linear => rfl
    | none =>
      cases b'.cache with
      | none => rfl
      | some cache => simp [CacheDev.size, (hl cache).2]
  refine ⟨h.dataTier, h.next, hsize.trans h.size, fun hs => ?_, fun hc => ?_⟩
  · exact (h.shape hs).imp_left fun hc => by simp [hc]
  · exact ⟨by simp [(h.capless hc).1], (h.capless hc).2⟩

theorem sameRoom_setSubTable (io : AddCacheIo) (change : Bool) (hl : SameCap load) :
    Keeps (SameRoom b) (setSubTable io change load) := by
  unfold setSubTable
  split_ifs
  · exact (keeps_lift _).bind fun _ =>
      Keeps.bind (keeps_modify fun _ h => h.loaded hl) fun _ =>
        keeps_lift _
  · exact keeps_pure ()

theorem sameRoom_addCachedevs (io : AddCacheIo) (poolUuid : PoolUuid) (b : Backstore) :
    SameRoom b (addCachedevs io poolUuid b).1 := by
  suffices h : Keeps (SameRoom b) (addCachedevs io poolUuid) from h b (.refl b)
  refine keeps_read fun b₀ => ?_
  split
  · exact keeps_lift _
  · refine (keeps_lift _).bind fun _ =>
      Keeps.bind (keeps_modify fun b₁ h => ?_) fun _ =>
        (keeps_lift _).bind fun changed =>
          (sameRoom_setSubTable io changed.2.1 ?_).bind fun _ =>
            (sameRoom_setSubTable io changed.2.2 ?_).bind fun _ => keeps_pure _
    · exact ⟨h.dataTier, h.next, h.size, h.shape, h.capless⟩
    · exact fun _ => ⟨rfl, rfl⟩
    · exact fun _ => ⟨rfl, rfl⟩

/-- Making a cache, whether it succeeds or not: nothing changes, or the cache is put on the linear
device, or the linear device is lost. -/
theorem initCache_cases (io : InitCacheIo) (paths : List String)
    (hshape : b.cache = none ∨ b.linear = none) :
    SameRoom b (initCache io paths b).1 ∨ (initCache io paths b).1.Capless ∧
      (initCache io paths b).1.dataTier = b.dataTier ∧
      (initCache io paths b).1.next = b.next := by
  unfold initCache
  rw [get_bind]
  cases b.cacheTier with
  | some t => exact Or.inl (.refl b)
  | none =>
    simp only
    split_ifs
    · exact Or.inl (.refl b)
    cases BlockDevMgr.initializeMgr io.prepared with
    | err e => exact Or.inl (.refl b)
    | panic => exact Or.inl (.refl b)
    | ok bdm =>
      rw [lift_ok_bind]
      cases CacheTier.new bdm io.wipe with
      | err e => exact Or.inl (.refl b)
      | panic => exact Or.inl (.refl b)
      | ok t =>
        rw [lift_ok_bind]
        cases hl : b.linear with
        | none => exact Or.inl (.refl b)
        | some linear =>
          have hc : b.cache = none := hshape.resolve_right (by simp [hl])
          rw [expect_some, lift_ok_bind, modify_bind]
          cases hmake : makeCache io.cache t linear true with
          | err e => exact Or.inr ⟨⟨hc, rfl⟩, rfl, rfl⟩
          | panic => exact Or.inr ⟨⟨hc, rfl⟩, rfl, rfl⟩
          | ok cache =>
            refine Or.inl ⟨rfl, rfl, ?_, fun _ => Or.inr rfl, fun h => ?_⟩
            · show Backstore.size ⟨some cache, some t, b.dataTier, none, b.next⟩ = b.size
              simp only [size, hl, CacheDev.size, (makeCache_eq_ok hmake).1]
            · rw [h.2] at hl
              cases hl

end Backstore

end Stratisd.Backstore
