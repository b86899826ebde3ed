import Stratisd.Thinpool.ThinPool

/-! A pool: a thin pool on a backstore, and the metadata of both that was last written to the
devices. -/

namespace Stratisd.Pool

open Run Engine Extent Backstore Thinpool

structure PoolSave where
  name : String
  backstore : BackstoreSave
  flexDevs : FlexDevsSave
  thinpoolDev : ThinPoolDevSave
  deriving DecidableEq

/-! ### Checking recorded metadata -/

/-- The range that starts highest, the last one if there are several. -/
def maxByStart : List Range → Option Range
  | [] => none
  | r :: rs => some (rs.foldl (fun best q => if best.1 ≤ q.1 then q else best) r)

/-- Where the unallocated space of the cap device starts. -/
def nextIndex (flexDevs : FlexDevsSave) : StratisResult ℕ := do
  let mdv ← Outcome.expect flexDevs.metaDev.getLast?
  let thinMeta ← Outcome.expect flexDevs.thinMetaDev.getLast?
  let thinData ← Outcome.expect flexDevs.thinDataDev.getLast?
  let spare ← Outcome.expect flexDevs.thinMetaDevSpare.getLast?
  let r ← Outcome.expect (maxByStart [mdv, thinMeta, thinData, spare])
  .ok (r.1 + r.2)

/-- The thin pool and the backstore agree about how much of the cap device is in use. -/
def checkCap (next allocatedFromCap : ℕ) : StratisResult Unit :=
  if allocatedFromCap ≠ next then .err (.msg
    s!"{displaySectors next} used in thinpool, but {displaySectors allocatedFromCap} allocated from backstore cap device")
  else .ok ()

/-- What is in use is what the devices add up to. -/
def checkFlex (name : String) (next totalAllocated : ℕ) : StratisResult Unit :=
  if totalAllocated ≠ next then .err (.msg
    s!"{displaySectors totalAllocated} used in thinpool, but {displaySectors next} given up by cache for pool {name}")
  else .ok ()

/-- The cap device is large enough for what is in use. -/
def checkDataTier (name : String) (next totalAllocated : ℕ) : StratisResult Unit :=
  if totalAllocated = 0 then .err (.msg
    s!"no segments allocated to the cap device for pool {name}")
  else if next > totalAllocated then .err (.msg
    s!"{displaySectors next} allocated to cap device, but {displaySectors totalAllocated} allocated to flex devs")
  else .ok ()

def flexSegments (f : FlexDevsSave) : List Range :=
  f.metaDev ++ f.thinMetaDev ++ f.thinDataDev ++ f.thinMetaDevSpare

def checkMetadata (metadata : PoolSave) : StratisResult Unit := do
  let next ← nextIndex metadata.flexDevs
  let cap ← Outcome.expect metadata.backstore.cap.allocs[0]?
  checkCap next cap.2
  checkFlex metadata.name next (total (flexSegments metadata.flexDevs))
  let segments ← Outcome.expect metadata.backstore.dataTier.blockdev.allocs[0]?
  checkDataTier metadata.name next (segments.map (·.length)).sum

/-! ### The pool -/

structure StratPool extends Stacked where
  /-- The metadata that is on the devices: what was last written. -/
  saved : Option PoolSave

namespace StratPool

abbrev M := Stateful StratPool StratisError

def onStacked {α : Type} : ThinPool.M α → M α :=
  Stateful.within (·.toStacked) fun s p => { p with toStacked := s }

def onFilesystems {α : Type} (p : ThinPool.F α) : M α := onStacked (ThinPool.onThinPool p)

def recordOf (s : Stacked) (name : String) : PoolSave :=
  ⟨name, s.backstore.record, s.thinPool.record, s.thinPool.recordDev⟩

def record (p : StratPool) (name : String) : PoolSave := recordOf p.toStacked name

def hasCache (p : StratPool) : Bool := p.backstore.hasCache

/-- Write the current metadata to the devices. -/
def writeMetadata (save : StratisResult Unit) (name : String) : M Unit := do
  Stateful.lift save
  Stateful.modify fun p => { p with saved := some (p.record name) }

/-- Write the metadata if something has changed. -/
def writeIfChanged (save : StratisResult Unit) (name : String) (changed : Bool) : M Unit :=
  if changed then writeMetadata save name else pure ()

variable (overflowChecks : Bool)

structure InitIo where
  prepared : StratisResult (List StratBlockDev)
  thinPool : ThinPool.NewIo
  check : ℕ → ThinPool.CheckIo
  save : StratisResult Unit

/-- Make a pool on devices that have been prepared for it. -/
def initializePool (io : InitIo) (name : String) : StratisResult StratPool := do
  let b ← Backstore.initializeStore io.prepared
  let made := ThinPool.new overflowChecks io.thinPool ThinPoolSizeParams.default dataBlockSize b
  let thinPool ← made.2
  let checked := ThinPool.check overflowChecks io.check ⟨thinPool, made.1⟩
  let _ ← checked.2
  let written := writeMetadata io.save name ⟨checked.1, none⟩
  written.2
  .ok written.1

/-- The environment of setting up a pool. -/
structure SetupIo where
  backstore : Backstore.SetupIo
  thinPool : ThinPool.SetupIo
  check : ℕ → ThinPool.CheckIo
  save : StratisResult Unit

/-- The thin pool and the backstore of recorded metadata, before they are checked. -/
def assemble (io : SetupIo) (datadevs cachedevs : List StratBlockDev) (timestamp : DateTime)
    (metadata : PoolSave) : StratisResult Stacked := do
  checkMetadata metadata
  let b ← Backstore.setup io.backstore metadata.backstore datadevs cachedevs timestamp
  let thinPool ← ThinPool.setup overflowChecks io.thinPool metadata.thinpoolDev metadata.flexDevs b
  .ok ⟨thinPool, b⟩

/-- Set up a pool from the metadata that is on its devices. -/
def setup (io : SetupIo) (datadevs cachedevs : List StratBlockDev) (timestamp : DateTime)
    (metadata : PoolSave) : StratisResult StratPool := do
  let s ← assemble overflowChecks io datadevs cachedevs timestamp metadata
  let checked := ThinPool.check overflowChecks io.check s
  let changed ← checked.2
  let written := writeIfChanged io.save metadata.name changed ⟨checked.1, some metadata⟩
  written.2
  .ok written.1

structure EventIo where
  check : ℕ → ThinPool.CheckIo
  save : StratisResult Unit

def eventOn (io : EventIo) (name : String) : M Unit := do
  let changed ← onStacked (ThinPool.check overflowChecks io.check)
  writeIfChanged io.save name changed

/-! ### Adding devices -/

def joinPaths (paths : List String) : String := String.intercalate ", " paths

/-- All paths have to be absolute. -/
def validatePaths (paths : List String) : StratisResult Unit :=
  let nonAbsolute := paths.filter fun path => !path.startsWith "/"
  if nonAbsolute = [] then .ok ()
  else .err (.msg s!"Paths\x7b{joinPaths nonAbsolute}\x7d are not absolute")

/-- A part of an error text that names one device or many. -/
def nameDevices (one many : String → String) (paths : List String) : String :=
  match paths with
  | [] => ""
  | [path] => one path
  | paths => many (joinPaths paths)

/-- A cache that exists already must have the same devices. -/
def initCacheIdempotentOrErr (paths existing : List String) : StratisResult (List DevUuid) :=
  if paths ⊆ existing ∧ existing ⊆ paths then .ok []
  else
    let inInput := nameDevices
      (fun path => s!"; the existing cache contains the block device {path} which the input did not include")
      (fun paths => s!"; the existing cache contains the block devices {paths} which the input did not include")
      (paths.dedup.filter (· ∉ existing))
    let inPool := nameDevices
      (fun path => s!"; the input requested block device {path} which does not exist in the already initialized cache")
      (fun paths => s!"; the input requested block devices {paths} which do not exist in the already initialized cache")
      (existing.dedup.filter (· ∉ paths))
    .err (.msg s!"The input requests initialization of a cache with different block devices from the block devices in the existing cache{inInput}{inPool} ; to resolve this error, the block devices requested in the input should be the same as the block devices in the existing cache.")

/-- The environment of `init_cache` on a pool. -/
structure PoolCacheIo where
  encrypted : Bool
  suspend : ThinPool.SuspendIo
  cache : Backstore.InitCacheIo
  resumeMdv : Bool
  resumePool : Bool
  save : StratisResult Unit
  /-- The paths of the devices of the cache that there is. -/
  existing : List String

/-- Run code on the backstore while the thin pool is suspended. The thin pool is resumed
whether it succeeds or not, and a failure to resume comes first. -/
def whileSuspended {α : Type} (suspend : ThinPool.SuspendIo) (resumeMdv resumePool : Bool)
    (p : M α) : M α := fun s =>
  match ThinPool.suspend suspend with
  | .ok () =>
    let r := p s
    match r.2 with
    | .panic => (r.1, .panic)
    | result => (onStacked (ThinPool.resume resumeMdv resumePool) >>= fun _ => Stateful.lift result) r.1
  | .err e => (s, .err e)
  | .panic => (s, .panic)

/-- Add a cache to a pool. The thin pool stays on the device that it was on. -/
def initCache (io : PoolCacheIo) (name : String) (paths : List String) : M (List DevUuid) := do
  Stateful.lift (validatePaths paths)
  let p ← Stateful.get
  if io.encrypted then
    Stateful.lift (.err (.msg "Use of a cache is not supported with an encrypted pool"))
  else if p.hasCache then Stateful.lift (initCacheIdempotentOrErr paths io.existing)
  else if paths = [] then Stateful.lift (.err (.msg
    "At least one blockdev path is required to initialize a cache."))
  else do
    let devices ← whileSuspended io.suspend io.resumeMdv io.resumePool
      (onStacked (ThinPool.onBackstore (Backstore.initCache io.cache paths)))
    writeMetadata io.save name
    pure devices

structure AddIo where
  suspend : ThinPool.SuspendIo
  cache : Backstore.AddCacheIo
  move : ThinPool.MoveIo
  resumeMdv : Bool
  resumePool : Bool
  datadevs : StratisResult (List StratBlockDev)
  check : ℕ → ThinPool.CheckIo
  save : StratisResult Unit

/-- Add devices to the cache and put the thin pool on the device that the backstore presents. -/
def addCache (io : AddIo) (poolUuid : PoolUuid) : M (List DevUuid) := do
  let uuids ← onStacked (ThinPool.onBackstore (Backstore.addCachedevs io.cache poolUuid))
  let p ← Stateful.get
  let device ← Stateful.lift (Outcome.expect p.backstore.device)
  let _ ← onStacked (ThinPool.setDevice io.move device)
  pure uuids

/-- Add devices to the data tier and let the thin pool use them. -/
def addData (io : AddIo) (poolUuid : PoolUuid) : M (List DevUuid) := do
  let uuids ← onStacked (ThinPool.onBackstore (Backstore.addDatadevs poolUuid io.datadevs))
  let _ ← onStacked (ThinPool.check overflowChecks io.check)
  pure uuids

def addBlockdevs (io : AddIo) (poolUuid : PoolUuid) (name : String) (paths : List String)
    (tier : BlockDevTier) : M (List DevUuid) := do
  Stateful.lift (validatePaths paths)
  let p ← Stateful.get
  if tier = .cache ∧ ¬ p.hasCache then Stateful.lift (.err (.msg
    s!"No cache has been initialized for pool with UUID {displayUuid poolUuid.val} and name {name}; it is therefore impossible to add additional devices to the cache"))
  else if paths = [] then pure []
  else do
    let uuids ← (if tier = .cache then
        whileSuspended io.suspend io.resumeMdv io.resumePool (addCache io poolUuid)
      else addData overflowChecks io poolUuid)
    writeMetadata io.save name
    pure uuids

/-! ### User info -/

/-- How changing something about a device has ended. -/
inductive DevRenameAction where
  | renamed (uuid : DevUuid)
  | identity
  | noSource
  deriving DecidableEq

/-- Set the user info of a device and write the metadata if that has changed anything. -/
def setBlockdevUserInfo (save : StratisResult Unit) (poolName : String) (uuid : DevUuid)
    (userInfo : Option String) : M DevRenameAction := do
  let result ← Stateful.attempt
    (onStacked (ThinPool.onBackstore (Backstore.setBlockdevUserInfo uuid userInfo)))
  match result with
  | some (some uuid) => do
    writeMetadata save poolName
    pure (.renamed uuid)
  | some none => pure .identity
  | none => pure .noSource

/-! ### Filesystems -/

/-- Make the filesystems whose names are not in use yet. -/
def createEach : List (String × Option ℕ × FsCreateIo) →
    ThinPool.F (List (String × FilesystemUuid))
  | [] => pure []
  | (name, size, io) :: specs => do
    let t ← Stateful.get
    match t.filesystems.getByName name with
    | some _ => createEach specs
    | none => do
      let uuid ← ThinPool.createFilesystem io name size
      let rest ← createEach specs
      pure ((name, uuid) :: rest)

/-- The specifications are a map from names, in the order in which it is gone through. -/
def createFilesystems (valid : StratisResult Unit) (specs : List (String × Option ℕ × FsCreateIo)) :
    M (List (String × FilesystemUuid)) := do
  Stateful.lift valid
  onFilesystems (createEach specs)

def destroyEach : List (FilesystemUuid × StratisResult Unit × StratisResult Unit) →
    ThinPool.F (List FilesystemUuid)
  | [] => pure []
  | (uuid, destroy, rmFs) :: uuids => do
    let removed ← ThinPool.destroyFilesystem destroy rmFs uuid
    let rest ← destroyEach uuids
    pure (removed.toList ++ rest)

def destroyFilesystems (uuids : List (FilesystemUuid × StratisResult Unit × StratisResult Unit)) :
    M (List FilesystemUuid) := onFilesystems (destroyEach uuids)

def renameFilesystem (valid saveFs : StratisResult Unit) (uuid : FilesystemUuid)
    (newName : String) : M (Option Bool) := do
  Stateful.lift valid
  onFilesystems (ThinPool.renameFilesystem saveFs uuid newName)

/-- A snapshot whose name is in use is not made. -/
def snapshotFilesystem (valid : StratisResult Unit) (io : FsSnapshotIo)
    (originUuid : FilesystemUuid) (snapshotName : String) : M (Option FilesystemUuid) := do
  Stateful.lift valid
  let p ← Stateful.get
  match p.thinPool.filesystems.getByName snapshotName with
  | some _ => pure none
  | none => do
    let uuid ← onFilesystems (ThinPool.snapshotFilesystem io originUuid snapshotName)
    pure (some uuid)

/-! ### Requests -/

/-- What a pool is asked to do, with the environment that it does it in. -/
inductive Request where
  | initCache (io : PoolCacheIo) (name : String) (paths : List String)
  | addBlockdevs (io : AddIo) (poolUuid : PoolUuid) (name : String) (paths : List String)
      (tier : BlockDevTier)
  | eventOn (io : EventIo) (name : String)
  | createFilesystems (valid : StratisResult Unit) (specs : List (String × Option ℕ × FsCreateIo))
  | destroyFilesystems (uuids : List (FilesystemUuid × StratisResult Unit × StratisResult Unit))
  | renameFilesystem (valid saveFs : StratisResult Unit) (uuid : FilesystemUuid) (newName : String)
  | snapshotFilesystem (valid : StratisResult Unit) (io : FsSnapshotIo)
      (originUuid : FilesystemUuid) (snapshotName : String)

/-- Whatever a request returns, what counts here is whether it does. -/
def Request.perform : Request → M Unit
  | .initCache io name paths => Stateful.ignore (StratPool.initCache io name paths)
  | .addBlockdevs io poolUuid name paths tier =>
    Stateful.ignore (StratPool.addBlockdevs overflowChecks io poolUuid name paths tier)
  | .eventOn io name => StratPool.eventOn overflowChecks io name
  | .createFilesystems valid specs => Stateful.ignore (StratPool.createFilesystems valid specs)
  | .destroyFilesystems uuids => Stateful.ignore (StratPool.destroyFilesystems uuids)
  | .renameFilesystem valid saveFs uuid newName =>
    Stateful.ignore (StratPool.renameFilesystem valid saveFs uuid newName)
  | .snapshotFilesystem valid io originUuid snapshotName =>
    Stateful.ignore (StratPool.snapshotFilesystem valid io originUuid snapshotName)

def step (p : StratPool) (r : Request) : StratPool × StratisResult Unit :=
  r.perform overflowChecks p

end StratPool

end Stratisd.Pool
