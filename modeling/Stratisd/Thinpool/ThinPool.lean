import Stratisd.Backstore.Backstore
import Stratisd.Thinpool.Filesystem

/-! The thin pool on top of the cap device of the backstore, with its filesystems. Code that
reaches down into the backstore runs on the thin pool and the backstore together. -/

namespace Stratisd.Thinpool

open Run Engine Extent Backstore

structure ThinPoolUsage where
  usedMeta : ℕ
  totalMeta : ℕ
  usedData : ℕ
  totalData : ℕ
  deriving DecidableEq

inductive ThinPoolStatusSummary where
  | good
  | readOnly
  | outOfSpace
  deriving DecidableEq

inductive ThinPoolStatus where
  | working (usage : ThinPoolUsage) (summary : ThinPoolStatusSummary)
  | error
  | fail
  deriving DecidableEq

/-- The device-mapper thin pool over its two devices. -/
structure ThinPoolDev where
  metaDev : LinearDev
  dataDev : LinearDev
  dataBlockSize : ℕ
  lowWaterMark : ℕ
  deriving DecidableEq

def ThinPoolDev.setTable (d : ThinPoolDev) (table : List TargetLine) : SubDevice → ThinPoolDev
  | .thinData => { d with dataDev := { d.dataDev with table } }
  | .thinMeta => { d with metaDev := { d.metaDev with table } }

structure ThinPoolDevSave where
  dataBlockSize : ℕ
  deriving DecidableEq

structure ThinPool where
  thinPool : ThinPoolDev
  segments : Segments
  idGen : ThinDevIdPool
  filesystems : Table FilesystemUuid StratFilesystem
  mdv : MetadataVol
  /-- The device that the backstore presents to the upper layer. -/
  backstoreDevice : Device
  thinPoolStatus : Option ThinPoolStatus

/-- A thin pool and the backstore under it. -/
structure Stacked where
  thinPool : ThinPool
  backstore : Backstore

namespace ThinPool

abbrev M := Stateful Stacked StratisError

def onBackstore {α : Type} : Backstore.M α → M α :=
  Stateful.within (·.backstore) fun b s => { s with backstore := b }

def update (f : ThinPool → ThinPool) : M Unit :=
  Stateful.modify fun s => { s with thinPool := f s.thinPool }

def onMdv {α : Type} : Stateful MetadataVol StratisError α → M α :=
  Stateful.within (·.thinPool.mdv) fun mdv s => { s with thinPool := { s.thinPool with mdv } }

def record (t : ThinPool) : FlexDevsSave := t.segments.record

def recordDev (t : ThinPool) : ThinPoolDevSave := ⟨t.thinPool.dataBlockSize⟩

/-! ### Making and setting up a thin pool -/

/-- The environment of making a thin pool. -/
structure NewIo where
  cap : CapIo
  metaDev : Option Device
  wipe : StratisResult Unit
  dataDev : Option Device
  mdvDev : Option Device
  /-- Making the filesystem of the metadata volume and mounting it. -/
  mdv : StratisResult Unit
  poolDev : Bool

variable (overflowChecks : Bool)

/-- The devices of a new thin pool on segments of the cap device. -/
def build (io : NewIo) (dataBlockSize : ℕ) (b : Backstore) :
    Option (List Range) → StratisResult ThinPool
  | none => .err (.msg "Could not allocate sufficient space for thinpool devices.")
  | some [metaSegments, spareSegments, dataSegments, mdvSegments] => do
    let backstoreDevice ← Outcome.expect b.device
    let metaDev ← LinearDev.setup io.metaDev (segsToTable backstoreDevice [metaSegments])
    io.wipe
    let dataDev ← LinearDev.setup io.dataDev (segsToTable backstoreDevice [dataSegments])
    let mdvDev ← LinearDev.setup io.mdvDev (segsToTable backstoreDevice [mdvSegments])
    io.mdv
    let available ← b.availableInBackstore overflowChecks
    let lowater ← calcLowater overflowChecks 0 (sectorsToDatablocks dataDev.size)
      (sectorsToDatablocks available)
    dmCall io.poolDev
    .ok {
      thinPool := ⟨metaDev, dataDev, dataBlockSize, lowater⟩
      segments := ⟨[metaSegments], [spareSegments], [dataSegments], [mdvSegments]⟩
      idGen := ThinDevIdPool.newFromIds []
      filesystems := Table.default
      mdv := ⟨mdvDev, ∅⟩
      backstoreDevice
      thinPoolStatus := none }
  | some _ => .panic

def new (io : NewIo) (params : ThinPoolSizeParams) (dataBlockSize : ℕ) : Backstore.M ThinPool := do
  let segmentsList ← Backstore.alloc io.cap params.sizes
  let b ← Stateful.get
  Stateful.lift (build overflowChecks io dataBlockSize b segmentsList)

/-- The environment of setting up a thin pool. -/
structure SetupIo where
  metaDev : Option Device
  /-- Whether there is a device-mapper device for the thin pool already. -/
  deviceExists : StratisResult Bool
  thinCheck : StratisResult Unit
  spareDev : Option Device
  thinRepair : StratisResult Unit
  /-- Tearing down the old metadata device and giving its name to the new one. -/
  swap : StratisResult Unit
  dataDev : Option Device
  poolDev : Bool
  mdvDev : Option Device
  mdv : StratisResult Unit
  /-- The records that are found on the metadata volume. -/
  filesystems : StratisResult (List FilesystemSave)
  thinDev : FilesystemUuid → Option Device

/-- Repair the thin pool metadata onto the spare segments. -/
def attemptThinRepair (io : SetupIo) (device : Device) (spareSegments : List Range) :
    StratisResult LinearDev := do
  let newMetaDev ← LinearDev.setup io.spareDev (segsToTable device spareSegments)
  io.thinRepair
  io.swap
  .ok newMetaDev

/-- Whether the thin pool metadata has to be repaired. Metadata in use is not checked. -/
def needsRepair (io : SetupIo) : StratisResult Bool := do
  let found ← io.deviceExists
  .ok (!found && !io.thinCheck.isOk)

/-- The metadata device, its segments and the spare segments. After a repair the spare
segments are the metadata segments. -/
def setupMetadev (io : SetupIo) (device : Device) (metaSegments spareSegments : List Range) :
    StratisResult (LinearDev × List Range × List Range) := do
  let metaDev ← LinearDev.setup io.metaDev (segsToTable device metaSegments)
  let repair ← needsRepair io
  if repair then do
    let metaDev ← attemptThinRepair io device spareSegments
    .ok (metaDev, spareSegments, metaSegments)
  else .ok (metaDev, metaSegments, spareSegments)

/-- The filesystems that can be set up; the others are left out. -/
def setupFilesystems (io : SetupIo) :
    List FilesystemSave → StratisResult (List (FilesystemSave × StratFilesystem))
  | [] => .ok []
  | save :: saves =>
    match StratFilesystem.setup (io.thinDev save.uuid) save with
    | .ok fs => do
      let rest ← setupFilesystems io saves
      .ok ((save, fs) :: rest)
    | .err _ => setupFilesystems io saves
    | .panic => .panic

def insertFilesystems (table : Table FilesystemUuid StratFilesystem) :
    List (FilesystemSave × StratFilesystem) → StratisResult (Table FilesystemUuid StratFilesystem)
  | [] => .ok table
  | (save, fs) :: rest => do
    let r ← table.insert save.name save.uuid fs
    match r.2 with
    | some _ =>
      .err (.msg "filesystems with duplicate UUID or name specified in metadata")
    | none => insertFilesystems r.1 rest

def setup (io : SetupIo) (save : ThinPoolDevSave) (flexDevs : FlexDevsSave) (b : Backstore) :
    StratisResult ThinPool := do
  let backstoreDevice ← Outcome.expect b.device
  let (metaDev, metaSegments, spareSegments) ← setupMetadev io backstoreDevice
    flexDevs.thinMetaDev flexDevs.thinMetaDevSpare
  let dataDev ← LinearDev.setup io.dataDev (segsToTable backstoreDevice flexDevs.thinDataDev)
  let available ← b.availableInBackstore overflowChecks
  let lowater ← calcLowater overflowChecks 0 (sectorsToDatablocks dataDev.size)
    (sectorsToDatablocks available)
  dmCall io.poolDev
  let mdvDev ← LinearDev.setup io.mdvDev (segsToTable backstoreDevice flexDevs.metaDev)
  io.mdv
  let saves ← io.filesystems
  let found ← setupFilesystems io saves
  let filesystems ← insertFilesystems Table.default found
  .ok {
    thinPool := ⟨metaDev, dataDev, save.dataBlockSize, lowater⟩
    segments := ⟨metaSegments, spareSegments, flexDevs.thinDataDev, flexDevs.metaDev⟩
    idGen := ThinDevIdPool.newFromIds (saves.map (·.thinId))
    filesystems
    mdv := ⟨mdvDev, (saves.map fun save => (⟨save.uuid, save⟩ : Σ _, FilesystemSave)).toAList⟩
    backstoreDevice
    thinPoolStatus := none }

/-! ### Extending the devices -/

/-- Loading a table into a device under the thin pool. The call can fail before the table is
loaded, and after. -/
structure TableIo where
  load : Bool
  finish : Bool

/-- The answers of device-mapper while a device is extended. -/
structure ExtendIo where
  cap : CapIo
  table : TableIo
  resume : Bool

def setSubTable (io : TableIo) (sub : SubDevice) (table : List TargetLine) : M Unit := do
  Stateful.lift (dmCall io.load)
  update fun t => { t with thinPool := t.thinPool.setTable table sub }
  Stateful.lift (dmCall io.finish)

/-- Put a region of the cap device under a device. Its segments count as extended only after
the thin pool has been resumed. -/
def attachRegion (io : ExtendIo) (sub : SubDevice) : Option Range → M ℕ
  | none => pure 0
  | some region => do
    let s ← Stateful.get
    let device ← Stateful.lift (Outcome.expect s.backstore.device)
    let segments := coalesceSegs (s.thinPool.segments.get sub) [region]
    setSubTable io.table sub (segsToTable device segments)
    Stateful.lift (dmCall io.resume)
    update fun t => { t with segments := t.segments.set segments sub }
    pure region.2

/-- Extend a device by at most the given size, in multiples of the modulus; by how much it has
been extended. -/
def extendThinSubDevice (io : ExtendIo) (sub : SubDevice) (extendSize modulus : ℕ) : M ℕ :=
  if modulus = 0 then Stateful.lift .panic
  else do
    let region ← onBackstore (Backstore.request overflowChecks io.cap extendSize modulus)
    attachRegion io sub region

def extendThinDataDevice (io : ExtendIo) (extendSize : ℕ) : M ℕ :=
  extendThinSubDevice overflowChecks io .thinData extendSize dataBlockSize

def extendThinMetaDevice (io : ExtendIo) (extendSize : ℕ) : M ℕ :=
  extendThinSubDevice overflowChecks io .thinMeta extendSize (minMetaSegmentSize * metaBlockSize)

/-! ### Checking -/

/-- What a check of one filesystem meets. -/
structure FsIo where
  check : FsCheckIo
  saveFs : StratisResult Unit

/-- The environment of one round of a check. -/
structure CheckIo where
  status : StratisResult ThinPoolStatus
  extendMeta : ExtendIo
  extendData : ExtendIo
  lowWaterMark : Bool
  resumeMdv : Bool
  resumePool : Bool
  fs : FilesystemUuid → FsIo

/-- Keep the metadata device at a thousandth of the usable size. An error while it is extended
is not passed on. -/
def growMeta (io : CheckIo) (usage : ThinPoolUsage) : M Bool := do
  let s ← Stateful.get
  let usable ← Stateful.lift (s.backstore.datatierUsableSize overflowChecks)
  let targetMetaSize := min (usable / 1000 / metaBlockSize) maxMetaSize
  if usage.totalMeta < targetMetaSize ∧ minMetaSegmentSize < targetMetaSize - usage.totalMeta then do
    let extended ← Stateful.attempt (extendThinMetaDevice overflowChecks io.extendMeta
      ((targetMetaSize - usage.totalMeta) * metaBlockSize))
    pure (extended.getD 0 ≠ 0)
  else pure false

/-- Extend the data device by all the space that is left; by how much it has been extended. -/
def growData (io : CheckIo) : M ℕ := do
  let s ← Stateful.get
  let freeSpace ← Stateful.lift (s.backstore.availableInBackstore overflowChecks)
  if freeSpace < dataBlockSize then pure 0
  else do
    let extended ← Stateful.attempt (extendThinDataDevice overflowChecks io.extendData freeSpace)
    pure (extended.getD 0)

/-- Resume the metadata volume and the thin pool. -/
def resume (mdv pool : Bool) : M Unit := do
  Stateful.lift (dmCall mdv)
  Stateful.lift (dmCall pool)

def setLowWaterMark (io : CheckIo) (usage : ThinPoolUsage) (extended : ℕ) : M Unit := do
  let s ← Stateful.get
  let available ← Stateful.lift (s.backstore.availableInBackstore overflowChecks)
  let lowater ← Stateful.lift (calcLowater overflowChecks usage.usedData
    (usage.totalData + sectorsToDatablocks extended) (sectorsToDatablocks available))
  Stateful.lift (dmCall io.lowWaterMark)
  update fun t => { t with thinPool := { t.thinPool with lowWaterMark := lowater } }
  resume io.resumeMdv io.resumePool

/-- Extend what has to be extended; whether anything has been. -/
def grow (io : CheckIo) : ThinPoolStatus → M Bool
  | .working usage _ => do
    let metaExtended ← growMeta overflowChecks io usage
    let extended ← growData overflowChecks io
    setLowWaterMark overflowChecks io usage extended
    pure (metaExtended || extended ≠ 0)
  | _ => pure false

/-- Check a filesystem, and record it if it has been extended. An error while it is recorded is
not passed on. -/
def checkFilesystem (io : CheckIo) (uuid : FilesystemUuid) : M Unit := do
  let s ← Stateful.get
  match s.thinPool.filesystems.getByUuid uuid with
  | none => pure ()
  | some (name, fs) => do
    let r ← Stateful.lift (fs.check (io.fs uuid).check)
    update fun t => { t with filesystems := t.filesystems.setByUuid uuid r.1 }
    if r.2 then do
      let _ ← Stateful.attempt (onMdv (MetadataVol.saveFs (io.fs uuid).saveFs name uuid r.1))
      pure ()
    else pure ()

/-- The thin pool has to be on the device that the backstore presents. -/
def assertDevice (s : Stacked) : StratisResult Unit := do
  let device ← Outcome.expect s.backstore.device
  if device = s.thinPool.backstoreDevice then .ok () else .panic

/-- One round of a check; whether the metadata has to be saved. -/
def doCheck (io : CheckIo) : M Bool := do
  let s ← Stateful.get
  Stateful.lift (assertDevice s)
  let status ← Stateful.lift io.status
  let shouldSave ← grow overflowChecks io status
  update fun t => { t with thinPoolStatus := some status }
  let s ← Stateful.get
  Stateful.forEach (checkFilesystem io) (s.thinPool.filesystems.iter.map (·.2.1))
  pure shouldSave

/-- Rounds of checks until one does not change anything. The environment has an answer for each
round; the fuel is a bound on the number of rounds. -/
def checkFrom (env : ℕ → CheckIo) : ℕ → ℕ → M Bool
  | 0, _ => pure false
  | fuel + 1, round => do
    let again ← doCheck overflowChecks (env round)
    if again then do
      let _ ← checkFrom env fuel (round + 1)
      pure true
    else pure false

/-- More rounds than a backstore has sectors do not change anything. -/
def checkRounds (b : Backstore) : ℕ := (b.datadevs.map (·.bda.devSize)).sum + 1

def check (env : ℕ → CheckIo) : M Bool := do
  let s ← Stateful.get
  checkFrom overflowChecks env (checkRounds s.backstore) 0

/-! ### Moving to another device -/

/-- The answers of device-mapper while the thin pool is suspended. -/
structure SuspendIo where
  pool : Bool
  mdv : Bool
  resumePool : Bool

/-- Suspend the thin pool and the metadata volume, or neither. -/
def suspend (io : SuspendIo) : StratisResult Unit := do
  dmCall io.pool
  if io.mdv then .ok ()
  else if io.resumePool then .err .dm
  else .err (.chained
    "Suspending the MDV failed and MDV suspend clean up action of resuming the thin pool also failed"
    (.noActionRollback .dm .dm))

/-- The answers of device-mapper while the devices are moved. -/
structure MoveIo where
  metaTable : TableIo
  dataTable : TableIo
  mdvTable : Bool

/-- The same sectors of another device. -/
def moveLine (device : Device) (line : TargetLine) : TargetLine :=
  { line with params := { line.params with device } }

/-- Put all devices on the device that the backstore presents; whether it is another one. -/
def setDevice (io : MoveIo) (device : Device) : M Bool := do
  let s ← Stateful.get
  if device = s.thinPool.backstoreDevice then pure false
  else do
    let pool := s.thinPool.thinPool
    setSubTable io.metaTable .thinMeta (pool.metaDev.table.map (moveLine device))
    setSubTable io.dataTable .thinData (pool.dataDev.table.map (moveLine device))
    Stateful.lift (dmCall io.mdvTable)
    update fun t => { t with mdv := { t.mdv with
      dev := { t.mdv.dev with table := t.mdv.dev.table.map (moveLine device) } } }
    update fun t => { t with backstoreDevice := device }
    pure true

/-! ### Filesystems -/

/-- Code that the backstore plays no part in. -/
abbrev F := Stateful ThinPool StratisError

def onThinPool {α : Type} : F α → M α :=
  Stateful.within (·.thinPool) fun t s => { s with thinPool := t }

def newId : F ℕ := do
  let t ← Stateful.get
  let r ← Stateful.lift t.idGen.newId
  Stateful.modify fun t => { t with idGen := r.1 }
  pure r.2

def saveRecord (io : StratisResult Unit) (name : String) (uuid : FilesystemUuid)
    (fs : StratFilesystem) : F Unit :=
  Stateful.within (·.mdv) (fun mdv t => { t with mdv }) (MetadataVol.saveFs io name uuid fs)

/-- Put a filesystem into the table. What it displaces is dropped. -/
def insertFilesystem (name : String) (uuid : FilesystemUuid) (fs : StratFilesystem) : F Unit := do
  let t ← Stateful.get
  let r ← Stateful.lift (t.filesystems.insert name uuid fs)
  Stateful.modify fun t => { t with filesystems := r.1 }

/-- Make a filesystem whose name is not in use. -/
def createFilesystem (io : FsCreateIo) (name : String) (size : Option ℕ) : F FilesystemUuid := do
  let id ← newId
  let fs ← Stateful.lift (StratFilesystem.initializeFs io size id)
  saveRecord io.saveFs name io.uuid fs
  insertFilesystem name io.uuid fs
  let t ← Stateful.get
  let _ ← Stateful.lift (Outcome.expect (t.filesystems.getByUuid io.uuid))
  pure io.uuid

def snapshotFilesystem (io : FsSnapshotIo) (originUuid : FilesystemUuid) (snapshotName : String) :
    F FilesystemUuid := do
  let id ← newId
  let t ← Stateful.get
  match t.filesystems.getByUuid originUuid with
  | some (fsName, origin) => do
    let fs ← Stateful.lift (origin.snapshot io snapshotName fsName id)
    saveRecord io.saveFs snapshotName io.uuid fs
    insertFilesystem snapshotName io.uuid fs
    let t ← Stateful.get
    let _ ← Stateful.lift (Outcome.expect (t.filesystems.getByUuid io.uuid))
    pure io.uuid
  | none => Stateful.lift (.err (.msg "snapshot_filesystem failed, filesystem not found"))

/-- Destroy a filesystem. If its thin device can not be destroyed, it stays; an error while its
record is removed is not passed on. -/
def destroyFilesystem (destroy : StratisResult Unit) (rmFs : StratisResult Unit)
    (uuid : FilesystemUuid) : F (Option FilesystemUuid) := do
  let t ← Stateful.get
  match t.filesystems.removeByUuid uuid with
  | (filesystems, some (fsName, fs)) => do
    Stateful.modify fun t => { t with filesystems }
    match destroy with
    | .ok () => do
      let _ ← Stateful.attempt (Stateful.within (·.mdv) (fun mdv t => { t with mdv })
        (MetadataVol.rmFs rmFs uuid) : F Unit)
      pure (some uuid)
    | .err e => do
      insertFilesystem fsName uuid fs
      Stateful.lift (.err e)
    | .panic => Stateful.lift .panic
  | (_, none) => pure none

/-- Rename a filesystem; nothing if it does not exist, and `false` if it has that name. -/
def renameFilesystem (saveFs : StratisResult Unit) (uuid : FilesystemUuid) (newName : String) :
    F (Option Bool) := do
  let t ← Stateful.get
  match t.filesystems.getByUuid uuid with
  | none => pure none
  | some (oldName, fs) =>
    if oldName = newName then pure (some false)
    else if t.filesystems.containsName newName then Stateful.lift (.err (.msg newName))
    else do
      Stateful.modify fun t => { t with filesystems := (t.filesystems.removeByUuid uuid).1 }
      match saveFs with
      | .ok () => do
        saveRecord (.ok ()) newName uuid fs
        insertFilesystem newName uuid fs
        let t ← Stateful.get
        let _ ← Stateful.lift (Outcome.expect (t.filesystems.getByUuid uuid))
        pure (some true)
      | .err e => do
        insertFilesystem oldName uuid fs
        Stateful.lift (.err e)
      | .panic => Stateful.lift .panic

end ThinPool

end Stratisd.Thinpool
