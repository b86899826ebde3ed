import Stratisd.Engine.Bookkeeping
import Stratisd.Pool.Creation

/-! Requests that are made twice. A pool that has the name already, and a cache that is there
already, are compared with the request by the paths of the devices. The devices have been recorded
under their canonical paths, and the request is taken as it is. -/

namespace Stratisd.Engine

open Run Run.Outcome Run.Stateful Metadata Backstore Thinpool Pool Devices List StratEngine

/-- What the block devices are on, by UUID. -/
abbrev Underlying := DevUuid → Option UnderlyingDevice

def recordDevices (bds : List Placed) (underlying : Underlying) : Underlying := fun uuid =>
  ((bds.find? fun bd => bd.dev.uuid = uuid).map (·.underlying)).or (underlying uuid)

def physicalPaths (underlying : Underlying) (devs : List StratBlockDev) : List String :=
  devs.filterMap fun d => (underlying d.uuid).map (·.physicalPath)

/-! ### The paths on record -/

/-- Making a canonical path canonical does not change it. -/
def Canonicalizes (io : PrepareIo) : Prop :=
  ∀ path canonical, (io.one path).devicePath = .ok canonical →
    (io.one canonical).devicePath = .ok canonical

def FreshUuids (io : PrepareIo) (paths : List String) : Prop :=
  ∀ path ∈ paths, ∀ path' ∈ paths, (io.one path).devUuid = (io.one path').devUuid → path = path'

section paths

variable {io : PrepareIo} {encryptionInfo : EncryptionInfo} {poolUuid : PoolUuid}
  {paths : List String} {headers headers' : Headers} {infos : List DeviceInfo} {bds : List Placed}
  (hp : Prepared io encryptionInfo poolUuid paths headers headers' infos bds)

include hp

theorem exists_path {bd : Placed} (hbd : bd ∈ bds) : ∃ path ∈ paths,
    (io.one path).devicePath = .ok bd.underlying.physicalPath ∧
      bd.dev.uuid = (io.one path).devUuid := by
  obtain ⟨info, hinfo, hset⟩ := exists_of_forall₂ hp.setUp.flip hbd
  refine ⟨info.devnode, ?_, hset.physicalPath, hset.uuid⟩
  rw [← mem_eraseDups, ← hp.devnodes]
  exact mem_map_of_mem hinfo

theorem exists_placed {path : String} (hpath : path ∈ paths) :
    ∃ bd ∈ bds, (io.one path).devicePath = .ok bd.underlying.physicalPath := by
  have hnode : path ∈ infos.map (·.devnode) := by
    rw [hp.devnodes]
    exact mem_eraseDups.mpr hpath
  obtain ⟨info, hinfo, rfl⟩ := mem_map.mp hnode
  obtain ⟨bd, hbd, hset⟩ := exists_of_forall₂ hp.setUp hinfo
  exact ⟨bd, hbd, hset.physicalPath⟩

theorem physicalPaths_recordDevices (hfresh : FreshUuids io paths) (underlying : Underlying)
    {devs : List StratBlockDev} (hdevs : devs.map (·.uuid) = bds.map (·.dev.uuid)) :
    physicalPaths (recordDevices bds underlying) devs = bds.map (·.underlying.physicalPath) := by
  have hone : ∀ bd ∈ bds, (recordDevices bds underlying bd.dev.uuid).map (·.physicalPath) =
      some bd.underlying.physicalPath := by
    intro bd hbd
    cases hfind : bds.find? (fun b => b.dev.uuid = bd.dev.uuid) with
    | none => simpa using List.find?_eq_none.mp hfind bd hbd
    | some b =>
      -- the one that is found has the same UUID, and so is for the same path
      have huuid : b.dev.uuid = bd.dev.uuid := by simpa using List.find?_some hfind
      obtain ⟨path, hpath, hdevice, hu⟩ := exists_path hp hbd
      obtain ⟨path', hpath', hdevice', hu'⟩ := exists_path hp (mem_of_find?_eq_some hfind)
      obtain rfl := hfresh path hpath path' hpath' (hu.symm.trans (huuid.symm.trans hu'))
      rw [recordDevices, hfind, ok.inj (hdevice.symm.trans hdevice')]
      rfl
  have hmap : physicalPaths (recordDevices bds underlying) devs = (devs.map (·.uuid)).filterMap
      fun uuid => (recordDevices bds underlying uuid).map (·.physicalPath) := by
    rw [filterMap_map]
    rfl
  rw [hmap, hdevs, filterMap_map, ← filterMap_eq_map]
  exact filterMap_congr hone

theorem same_paths_of_canonical (h : ∀ path ∈ paths, (io.one path).devicePath = .ok path) :
    paths ⊆ bds.map (·.underlying.physicalPath) ∧ bds.map (·.underlying.physicalPath) ⊆ paths := by
  constructor
  · intro path hpath
    obtain ⟨bd, hbd, hdevice⟩ := exists_placed hp hpath
    exact mem_map.mpr ⟨bd, hbd, ok.inj (hdevice.symm.trans (h path hpath))⟩
  · intro path hpath
    obtain ⟨bd, hbd, rfl⟩ := mem_map.mp hpath
    obtain ⟨path', hpath', hdevice, -⟩ := exists_path hp hbd
    rw [← ok.inj ((h path' hpath').symm.trans hdevice)]
    exact hpath'

theorem same_paths_iff (hcanon : Canonicalizes io) :
    (paths ⊆ bds.map (·.underlying.physicalPath) ∧ bds.map (·.underlying.physicalPath) ⊆ paths) ↔
      ∀ path ∈ paths, (io.one path).devicePath = .ok path := by
  refine ⟨?_, same_paths_of_canonical hp⟩
  rintro ⟨hsub, -⟩ path hpath
  obtain ⟨bd, hbd, rfl⟩ := mem_map.mp (hsub hpath)
  obtain ⟨path', -, hdevice, -⟩ := exists_path hp hbd
  exact hcanon path' _ hdevice

end paths

/-! ### Creating a pool twice -/

/-- The engine, with the headers that are on the devices and what the block devices are on. -/
structure Site where
  engine : StratEngine
  headers : Headers
  underlying : Underlying

namespace Site

abbrev M := Stateful Site StratisError

def onEngine {α : Type} : StratEngine.M α → M α :=
  Stateful.within (·.engine) fun e s => { s with engine := e }

def onHeaders {α : Type} : Devices.M α → M α :=
  Stateful.within (·.headers) fun h s => { s with headers := h }

/-- The answers of the system while a pool is created on device nodes. -/
structure CreateIo where
  uuid : PoolUuid
  pool : StratPool.CreationIo

variable (overflowChecks : Bool) (validateName : String → StratisResult Unit)

def createPool (io : CreateIo) (name : String) (paths : List String) (redundancy : Option ℕ)
    (encryptionInfo : EncryptionInfo) : M CreateAction := do
  Stateful.lift (StratEngine.calculateRedundancy redundancy)
  Stateful.lift (validateName name)
  Stateful.lift (StratPool.validatePaths paths)
  let s ← Stateful.get
  match s.engine.pools.getByName name with
  | some (_, pool) => Stateful.lift (StratEngine.createPoolIdempotentOrErr name paths
      (physicalPaths s.underlying pool.backstore.datadevs))
  | none =>
    if paths = [] then
      Stateful.lift (.err (.msg "At least one blockdev is required to create a pool."))
    else do
      let (pool, bds) ← onHeaders
        (StratPool.initializeOn overflowChecks io.pool io.uuid name paths encryptionInfo)
      onEngine (StratEngine.insertPool name io.uuid pool)
      Stateful.modify fun s => { s with underlying := recordDevices bds s.underlying }
      pure (.created io.uuid)

variable {overflowChecks validateName} {io : CreateIo} {name : String} {paths : List String}
  {redundancy : Option ℕ} {encryptionInfo : EncryptionInfo} {s s' : Site}

/-- What has been done by a call that has returned. -/
theorem createPool_eq_ok {a : CreateAction}
    (h : createPool overflowChecks validateName io name paths redundancy encryptionInfo s =
      (s', .ok a)) :
    calculateRedundancy redundancy = .ok () ∧ validateName name = .ok () ∧
    StratPool.validatePaths paths = .ok () ∧
    ((∃ uuid pool, s.engine.pools.getByName name = some (uuid, pool) ∧ s' = s ∧
        createPoolIdempotentOrErr name paths
          (physicalPaths s.underlying pool.backstore.datadevs) = .ok a) ∨
      s.engine.pools.getByName name = none ∧ paths ≠ [] ∧ a = .created io.uuid ∧
        ∃ pool bds, StratPool.initializeOn overflowChecks io.pool io.uuid name paths encryptionInfo
            s.headers = (s'.headers, .ok (pool, bds)) ∧
          insertPool name io.uuid pool s.engine = (s'.engine, .ok ()) ∧
          s'.underlying = recordDevices bds s.underlying) := by
  obtain ⟨_, _, hlift, h⟩ := bind_eq_ok.mp h
  obtain ⟨hredundancy, rfl⟩ := lift_eq_ok hlift
  obtain ⟨_, _, hlift, h⟩ := bind_eq_ok.mp h
  obtain ⟨hname, rfl⟩ := lift_eq_ok hlift
  obtain ⟨_, _, hlift, h⟩ := bind_eq_ok.mp h
  obtain ⟨hpaths, rfl⟩ := lift_eq_ok hlift
  refine ⟨hredundancy, hname, hpaths, ?_⟩
  rw [get_bind] at h
  rcases hfound : s.engine.pools.getByName name with _ | ⟨uuid, pool⟩
  · right
    simp only [hfound] at h
    split_ifs at h with hempty
    · cases h
    · obtain ⟨_, ⟨pool, bds⟩, hwithin, h⟩ := bind_eq_ok.mp h
      obtain ⟨headers, hinit, rfl⟩ := within_eq_ok.mp hwithin
      obtain ⟨_, _, hwithin', h⟩ := bind_eq_ok.mp h
      obtain ⟨engine, hinsert, rfl⟩ := within_eq_ok.mp hwithin'
      cases h
      exact ⟨rfl, hempty, rfl, pool, bds, hinit, hinsert, rfl⟩
  · left
    simp only [hfound] at h
    obtain ⟨hsame, rfl⟩ := lift_eq_ok h
    exact ⟨uuid, pool, rfl, rfl, hsame⟩

section accepted

variable (hredundancy : StratEngine.calculateRedundancy redundancy = .ok ())
  (hname : validateName name = .ok ()) (hpaths : StratPool.validatePaths paths = .ok ())

include hredundancy hname hpaths

theorem createPool_taken {uuid : PoolUuid} {pool : StratPool}
    (hfound : s.engine.pools.getByName name = some (uuid, pool)) :
    createPool overflowChecks validateName io name paths redundancy encryptionInfo s =
      (s, createPoolIdempotentOrErr name paths
        (physicalPaths s.underlying pool.backstore.datadevs)) := by
  rw [createPool, hredundancy, hname, hpaths]
  simp only [lift_ok_bind, get_bind, hfound]
  rfl

theorem createPool_without_devices (hfound : s.engine.pools.getByName name = none)
    (hempty : paths = []) :
    createPool overflowChecks validateName io name paths redundancy encryptionInfo s =
      (s, .err (.msg "At least one blockdev is required to create a pool.")) := by
  rw [createPool, hredundancy, hname, hpaths]
  simp only [lift_ok_bind, get_bind, hfound]
  rw [if_pos hempty]
  rfl

theorem createPool_unmade (hfound : s.engine.pools.getByName name = none) (hempty : paths ≠ [])
    {headers : Headers} {e : StratisError}
    (hinit : StratPool.initializeOn overflowChecks io.pool io.uuid name paths encryptionInfo
      s.headers = (headers, .err e)) :
    createPool overflowChecks validateName io name paths redundancy encryptionInfo s =
      ({ s with headers := headers }, .err e) := by
  have hheaders : onHeaders (StratPool.initializeOn overflowChecks io.pool io.uuid name paths
      encryptionInfo) s = ({ s with headers := headers }, .err e) := by
    rw [onHeaders, within, hinit]
  rw [createPool, hredundancy, hname, hpaths]
  simp only [lift_ok_bind, get_bind, hfound]
  rw [if_neg hempty, bind_of_err (congrArg Prod.snd hheaders), hheaders]

/-- The pool has been made and put into the table. -/
theorem createPool_made (hfound : s.engine.pools.getByName name = none) (hempty : paths ≠ [])
    {headers : Headers} {pool : StratPool} {bds : List Placed} {engine : StratEngine}
    (hinit : StratPool.initializeOn overflowChecks io.pool io.uuid name paths encryptionInfo
      s.headers = (headers, .ok (pool, bds)))
    (hinsert : insertPool name io.uuid pool s.engine = (engine, .ok ())) :
    createPool overflowChecks validateName io name paths redundancy encryptionInfo s =
      (⟨engine, headers, recordDevices bds s.underlying⟩, .ok (.created io.uuid)) := by
  have hheaders : onHeaders (StratPool.initializeOn overflowChecks io.pool io.uuid name paths
      encryptionInfo) s = (⟨s.engine, headers, s.underlying⟩, .ok (pool, bds)) := by
    rw [onHeaders, within, hinit]
  have hengine : onEngine (insertPool name io.uuid pool)
      ⟨s.engine, headers, s.underlying⟩ = (⟨engine, headers, s.underlying⟩, .ok ()) := by
    rw [onEngine, within, hinsert]
  rw [createPool, hredundancy, hname, hpaths]
  simp only [lift_ok_bind, get_bind, hfound]
  rw [if_neg hempty, bind_of_eq hheaders, bind_of_eq hengine]
  rfl

end accepted

theorem createPoolIdempotentOrErr_eq_identity (name : String) {existing : List String} :
    createPoolIdempotentOrErr name paths existing = .ok .identity ↔
      paths ⊆ existing ∧ existing ⊆ paths := by
  unfold createPoolIdempotentOrErr
  split_ifs with h
  · exact iff_of_true rfl h
  · exact iff_of_false (by simp) h

/-- Asking for a pool again that has just been created. -/
theorem createPool_again_iff {uuid : PoolUuid} (hpools : s.engine.pools.Consistent)
    (hcanon : Canonicalizes io.pool.prepare) (hfresh : FreshUuids io.pool.prepare paths)
    (h : createPool overflowChecks validateName io name paths redundancy encryptionInfo s =
      (s', .ok (.created uuid))) (io' : CreateIo) :
    createPool overflowChecks validateName io' name paths redundancy encryptionInfo s' =
        (s', .ok .identity) ↔
      ∀ path ∈ paths, (io.pool.prepare.one path).devicePath = .ok path := by
  obtain ⟨hredundancy, hname, hpaths, ⟨_, _, -, -, hsame⟩ |
    ⟨-, -, -, pool, bds, hinit, hinsert, hunderlying⟩⟩ := createPool_eq_ok h
  · -- a pool that has been there is never reported as a new one
    unfold createPoolIdempotentOrErr at hsame
    split_ifs at hsame
    cases hsame
  · obtain ⟨hprepared, hpool⟩ := StratPool.initializeOn_eq_ok hinit
    obtain ⟨infos, hp⟩ := prepareDevices_eq_ok hprepared
    have hdevs : pool.backstore.datadevs.map (·.uuid) = bds.map (·.dev.uuid) := by
      rw [StratPool.datadevs_initializePool rfl hpool, map_map]
      rfl
    obtain ⟨t, hinserted, hi⟩ := insertPool_eq hpools name io.uuid pool
    have hfound : s'.engine.pools.getByName name = some (io.uuid, pool) := by
      have hitem : t.items.lookup io.uuid = some (name, pool) := hi.found
      rw [(Prod.mk.inj (hinsert.symm.trans hinserted)).1, Table.getByName, hi.found_name,
        Option.bind_some, hitem]
      rfl
    rw [createPool_taken hredundancy hname hpaths hfound, hunderlying,
      physicalPaths_recordDevices hp hfresh _ hdevs, ← same_paths_iff hp hcanon,
      ← createPoolIdempotentOrErr_eq_identity name]
    exact ⟨fun h => (Prod.mk.inj h).2, fun h => Prod.ext rfl h⟩

end Site

/-! ### Making a cache twice -/

/-- A pool, with what its block devices are on. -/
structure PoolSite where
  pool : StratPool
  underlying : Underlying

namespace PoolSite

/-- The encryption of a pool is that of its first data device. -/
def isEncrypted (s : PoolSite) : Bool :=
  ((s.pool.backstore.datadevs.head?.bind fun d => s.underlying d.uuid).map (·.encrypted)).getD false

/-- The answers of the system while a cache is made on device nodes. -/
structure CacheIo where
  prepare : PrepareIo
  suspend : ThinPool.SuspendIo
  /-- Wiping the devices of a cache that would be too large. -/
  wipe : StratisResult Unit
  cache : Backstore.CacheIo
  resumeMdv : Bool
  resumePool : Bool
  save : StratisResult Unit

/-- What a cache is made of: the prepared devices, or those that are there. -/
def CacheIo.on (io : CacheIo) (s : PoolSite) (prepared : StratisResult (List Placed)) :
    StratPool.PoolCacheIo where
  encrypted := s.isEncrypted
  suspend := io.suspend
  cache := ⟨prepared >>= fun bds => .ok (bds.map (·.dev)), io.wipe, io.cache⟩
  resumeMdv := io.resumeMdv
  resumePool := io.resumePool
  save := io.save
  existing := physicalPaths s.underlying s.pool.backstore.cachedevs

/-- Devices are prepared for a cache only if there is none, and with the headers that they have
then. -/
def initCache (io : CacheIo) (headers : Headers) (poolUuid : PoolUuid) (name : String)
    (paths : List String) : Stateful PoolSite StratisError (List DevUuid) := do
  let s ← Stateful.get
  let prepared :=
    (prepareDevices io.prepare poolUuid MDADataSize.default ⟨none, none⟩ paths headers).2
  let uuids ← Stateful.within (·.pool) (fun p s => { s with pool := p })
    (StratPool.initCache (io.on s prepared) name paths)
  if s.pool.hasCache then pure uuids
  else do
    let bds ← Stateful.lift prepared
    Stateful.modify fun s => { s with underlying := recordDevices bds s.underlying }
    pure uuids

variable {io : CacheIo} {headers : Headers} {poolUuid : PoolUuid} {name : String}
  {paths : List String} {s s' : PoolSite}

theorem initCacheIdempotentOrErr_eq_empty {existing : List String} :
    StratPool.initCacheIdempotentOrErr paths existing = .ok [] ↔
      paths ⊆ existing ∧ existing ⊆ paths := by
  unfold StratPool.initCacheIdempotentOrErr
  split_ifs with h
  · exact iff_of_true rfl h
  · exact iff_of_false (by simp) h

theorem initCache_of_hasCache (hcache : s.pool.hasCache = true) (henc : s.isEncrypted = false)
    (hpaths : StratPool.validatePaths paths = .ok ()) :
    initCache io headers poolUuid name paths s =
      (s, StratPool.initCacheIdempotentOrErr paths
        (physicalPaths s.underlying s.pool.backstore.cachedevs)) := by
  have hpool : StratPool.initCache (io.on s
      (prepareDevices io.prepare poolUuid MDADataSize.default ⟨none, none⟩ paths headers).2) name
        paths s.pool = (s.pool, StratPool.initCacheIdempotentOrErr paths
          (physicalPaths s.underlying s.pool.backstore.cachedevs)) := by
    rw [StratPool.initCache, hpaths, lift_ok_bind, get_bind, if_neg (by simp [CacheIo.on, henc]),
      if_pos hcache]
    rfl
  rw [initCache, get_bind, bind_apply, within, hpool]
  cases StratPool.initCacheIdempotentOrErr paths
      (physicalPaths s.underlying s.pool.backstore.cachedevs) with
  | ok uuids => simp only [hcache, if_true, pure_apply]
  | err e => rfl
  | panic => rfl

theorem isEncrypted_recordDevices {bds : List Placed}
    (hbds : ∀ bd ∈ bds, bd.underlying.encrypted = false) (hs : s.isEncrypted = false) :
    isEncrypted ⟨s.pool, recordDevices bds s.underlying⟩ = false := by
  unfold isEncrypted at hs ⊢
  cases hd : s.pool.backstore.datadevs.head? with
  | none => rfl
  | some d =>
    rw [hd] at hs
    cases hfind : bds.find? (fun bd => bd.dev.uuid = d.uuid) with
    | none => simpa [recordDevices, hfind] using hs
    | some bd => simpa [recordDevices, hfind] using hbds bd (mem_of_find?_eq_some hfind)

/-- What has been done by a call that has made a cache. -/
theorem initCache_eq_ok {uuids : List DevUuid} (hcache : s.pool.hasCache = false)
    (h : initCache io headers poolUuid name paths s = (s', .ok uuids)) :
    ∃ bds, (prepareDevices io.prepare poolUuid MDADataSize.default ⟨none, none⟩ paths headers).2 =
        .ok bds ∧
      StratPool.initCache (io.on s (.ok bds)) name paths s.pool = (s'.pool, .ok uuids) ∧
      s'.underlying = recordDevices bds s.underlying := by
  rw [initCache, get_bind] at h
  obtain ⟨_, new, hwithin, h⟩ := bind_eq_ok.mp h
  obtain ⟨p, hpool, rfl⟩ := within_eq_ok.mp hwithin
  rw [if_neg (by simp [hcache])] at h
  obtain ⟨_, bds, hlift, h⟩ := bind_eq_ok.mp h
  obtain ⟨hprepared, rfl⟩ := lift_eq_ok hlift
  rw [hprepared] at hpool
  cases h
  exact ⟨bds, hprepared, hpool, rfl⟩

theorem initCache_again_iff {uuids : List DevUuid} (hcache : s.pool.hasCache = false)
    (hcanon : Canonicalizes io.prepare) (hfresh : FreshUuids io.prepare paths)
    (h : initCache io headers poolUuid name paths s = (s', .ok uuids)) (io' : CacheIo)
    (headers' : Headers) :
    initCache io' headers' poolUuid name paths s' = (s', .ok []) ↔
      ∀ path ∈ paths, (io.prepare.one path).devicePath = .ok path := by
  obtain ⟨bds, hprepared, hpool, hunderlying⟩ := initCache_eq_ok hcache h
  obtain ⟨hpaths, henc, -, hb⟩ := StratPool.initCache_eq_ok hcache hpool
  obtain ⟨_, _, new, t, -, -, hnew, ht, -, -, hb⟩ := Backstore.initCache_eq_ok hb
  obtain ⟨infos, hp⟩ := prepareDevices_eq_ok (Prod.ext rfl hprepared)
  obtain rfl : bds.map (·.dev) = new := ok.inj hnew
  have hcachedevs : s'.pool.backstore.cachedevs.map (·.uuid) = bds.map (·.dev.uuid) := by
    have hdevs := Backstore.map_uuid_of_identity (CacheTier.new_identity ht)
    rw [hb]
    exact hdevs.trans map_map
  have hhas : s'.pool.hasCache = true := by
    rw [StratPool.hasCache, hb]
    rfl
  have hplain : s'.isEncrypted = false := by
    have hplaced : ∀ bd ∈ bds, bd.underlying.encrypted = false := by
      intro bd hbd
      obtain ⟨_, -, hset⟩ := exists_of_forall₂ hp.setUp.flip hbd
      exact hset.encrypted
    rw [isEncrypted, hb, hunderlying]
    exact isEncrypted_recordDevices hplaced henc
  rw [initCache_of_hasCache hhas hplain hpaths, hunderlying,
    physicalPaths_recordDevices hp hfresh _ hcachedevs, ← same_paths_iff hp hcanon,
    ← initCacheIdempotentOrErr_eq_empty, Prod.mk.injEq, and_iff_right rfl]

end PoolSite

/-- A request to create a pool, or to make a cache, that has succeeded and is made again leaves
everything as it is and says so, if and only if all of its paths are canonical. -/
theorem repeated_requests_iff (overflowChecks : Bool) (validateName : String → StratisResult Unit) :
    (∀ (io io' : Site.CreateIo) (name : String) (paths : List String) (redundancy : Option ℕ)
      (encryptionInfo : EncryptionInfo) (s s' : Site) (uuid : PoolUuid),
      s.engine.pools.Consistent → Canonicalizes io.pool.prepare → FreshUuids io.pool.prepare paths →
      Site.createPool overflowChecks validateName io name paths redundancy encryptionInfo s =
        (s', .ok (.created uuid)) →
      (Site.createPool overflowChecks validateName io' name paths redundancy encryptionInfo s' =
          (s', .ok .identity) ↔
        ∀ path ∈ paths, (io.pool.prepare.one path).devicePath = .ok path)) ∧
    (∀ (io io' : PoolSite.CacheIo) (headers headers' : Headers) (poolUuid : PoolUuid) (name : String)
      (paths : List String) (s s' : PoolSite) (uuids : List DevUuid),
      s.pool.hasCache = false → Canonicalizes io.prepare → FreshUuids io.prepare paths →
      PoolSite.initCache io headers poolUuid name paths s = (s', .ok uuids) →
      (PoolSite.initCache io' headers' poolUuid name paths s' = (s', .ok []) ↔
        ∀ path ∈ paths, (io.prepare.one path).devicePath = .ok path)) :=
  ⟨fun _ io' _ _ _ _ _ _ _ hpools hcanon hfresh h =>
      Site.createPool_again_iff hpools hcanon hfresh h io',
    fun _ io' _ headers' _ _ _ _ _ _ hcache hcanon hfresh h =>
      PoolSite.initCache_again_iff hcache hcanon hfresh h io' headers'⟩

/-! ### One pool on one device -/

def emptySite : Site := ⟨⟨Table.default, Liminal.LiminalDevices.default⟩, fun _ => none, fun _ => none⟩

/-- Creating a pool on a device node with the given canonical path. -/
def createOn (path canonical : String) : Site.M CreateAction :=
  Site.createPool true (fun _ => .ok ()) ⟨⟨0⟩, StratPool.smoothCreation canonical⟩ "pool" [path] none
    ⟨none, none⟩

/-- Making a cache on another device node. -/
def cacheOn (path canonical : String) : Stateful PoolSite StratisError (List DevUuid) :=
  PoolSite.initCache ⟨StratPool.smoothPrepare 32 canonical, ⟨true, true, true⟩, .ok (),
    ⟨some ⟨253, 4⟩, true, some ⟨253, 5⟩, some ⟨253, 6⟩⟩, true, true, .ok ()⟩ (fun _ => none) ⟨0⟩ "pool"
    [path]

def poolOn (s : Site) : StratisResult PoolSite := do
  let found ← Outcome.expect (s.engine.pools.getByName "pool")
  .ok ⟨found.2, s.underlying⟩

/-- With canonical paths both requests can be made again. -/
theorem repeated_requests_iff_canonical :
    (∃ s, createOn "/dev/sdb" "/dev/sdb" emptySite = (s, .ok (.created ⟨0⟩)) ∧
      createOn "/dev/sdb" "/dev/sdb" s = (s, .ok .identity)) ∧
    ∃ s s' uuids, poolOn (createOn "/dev/sdb" "/dev/sdb" emptySite).1 = .ok s ∧
      cacheOn "/dev/sdc" "/dev/sdc" s = (s', .ok uuids) ∧
      cacheOn "/dev/sdc" "/dev/sdc" s' = (s', .ok []) := by
  have hrun : ∀ r, createOn "/dev/sdb" "/dev/sdb" emptySite = r → r.2 = .ok (.created ⟨0⟩) ∧
      ∃ s, poolOn r.1 = .ok s ∧ s.pool.hasCache = false ∧
        (cacheOn "/dev/sdc" "/dev/sdc" s).2.isOk = true := by
    intro r hr
    rw [← hr]
    decide +kernel
  have hfresh : ∀ (io : PrepareIo) (path : String), FreshUuids io [path] := by
    intro io path p hp q hq _
    rw [List.mem_singleton.mp hp, List.mem_singleton.mp hq]
  have hcanon : ∀ (minor : ℕ) (path : String), Canonicalizes (StratPool.smoothPrepare minor path) :=
    fun _ _ _ _ h => h
  have hpath : ∀ (minor : ℕ) (path : String), ∀ p ∈ [path],
      ((StratPool.smoothPrepare minor path).one p).devicePath = .ok p := by
    intro minor path p hp
    rw [List.mem_singleton.mp hp]
    rfl
  rcases hcreate : createOn "/dev/sdb" "/dev/sdb" emptySite with ⟨s, created⟩
  obtain ⟨rfl, p, hp, hcache, hok⟩ := hrun _ hcreate
  obtain ⟨uuids, huuids⟩ := Outcome.isOk_iff.mp hok
  refine ⟨⟨s, rfl, ?_⟩, p, (cacheOn "/dev/sdc" "/dev/sdc" p).1, uuids, hp, Prod.ext rfl huuids, ?_⟩
  · exact ((repeated_requests_iff true fun _ => .ok ()).1 _ _ _ _ _ _ _ _ _ Table.consistent_default
      (hcanon _ _) (hfresh _ _) hcreate).mpr (hpath _ _)
  · exact ((repeated_requests_iff true fun _ => .ok ()).2 _ _ _ _ _ _ _ _ _ _ hcache (hcanon _ _)
      (hfresh _ _) (Prod.ext rfl huuids)).mpr (hpath _ _)

/-- A device that is given by a symbolic link is not recognized again. -/
theorem repeated_requests_symlink :
    (∃ s, createOn "/dev/disk/by-id/b" "/dev/sdb" emptySite = (s, .ok (.created ⟨0⟩)) ∧
      (createOn "/dev/disk/by-id/b" "/dev/sdb" s).2.isOk = false) ∧
    ∃ s s' uuids, poolOn (createOn "/dev/disk/by-id/b" "/dev/sdb" emptySite).1 = .ok s ∧
      cacheOn "/dev/disk/by-id/c" "/dev/sdc" s = (s', .ok uuids) ∧
      (cacheOn "/dev/disk/by-id/c" "/dev/sdc" s').2.isOk = false := by
  have hrun : ∀ r, createOn "/dev/disk/by-id/b" "/dev/sdb" emptySite = r →
      r.2 = .ok (.created ⟨0⟩) ∧ (createOn "/dev/disk/by-id/b" "/dev/sdb" r.1).2.isOk = false ∧
      ∃ s, poolOn r.1 = .ok s ∧ (cacheOn "/dev/disk/by-id/c" "/dev/sdc" s).2.isOk = true ∧
        (cacheOn "/dev/disk/by-id/c" "/dev/sdc"
          (cacheOn "/dev/disk/by-id/c" "/dev/sdc" s).1).2.isOk = false := by
    intro r hr
    rw [← hr]
    decide +kernel
  rcases hcreate : createOn "/dev/disk/by-id/b" "/dev/sdb" emptySite with ⟨s, created⟩
  obtain ⟨rfl, hagain, p, hp, hok, hcacheAgain⟩ := hrun _ hcreate
  obtain ⟨uuids, huuids⟩ := Outcome.isOk_iff.mp hok
  exact ⟨⟨s, rfl, hagain⟩, p, _, uuids, hp, Prod.ext rfl huuids, hcacheAgain⟩

end Stratisd.Engine
