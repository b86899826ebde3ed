import Stratisd.Liminal.Liminal

/-! The engine: the pools that are up, and the devices that are in no pool. Pools come up from
devices that are found, and they are created, renamed and destroyed on request. -/

namespace Stratisd.Engine

open Run Pool Liminal

structure StratEngine where
  pools : Table PoolUuid StratPool
  liminalDevices : LiminalDevices

inductive CreateAction where
  | created (uuid : PoolUuid)
  | identity
  deriving DecidableEq

inductive DeleteAction where
  | deleted (uuid : PoolUuid)
  | identity
  deriving DecidableEq

inductive RenameAction where
  | renamed (uuid : PoolUuid)
  | identity
  | noSource
  deriving DecidableEq

namespace StratEngine

abbrev M := Stateful StratEngine StratisError

variable (overflowChecks : Bool)

def onLiminal {α : Type} : LiminalDevices.M α → M α :=
  Stateful.within (·.liminalDevices) fun l e => { e with liminalDevices := l }

/-- Put a pool into the table. What it displaces is dropped. -/
def insertPool (name : String) (uuid : PoolUuid) (pool : StratPool) : M Unit := do
  let e ← Stateful.get
  let r ← Stateful.lift (e.pools.insert name uuid pool)
  Stateful.modify fun e => { e with pools := r.1 }

/-! ### Start-up -/

/-- What the system answers while the engine starts. -/
structure InitEnv where
  verifyBinaries : StratisResult Unit
  findAll : StratisResult LiminalDevices.AllDevices
  setup : PoolUuid → SetupEnv
  keyFs : StratisResult Unit

/-- Put the pools that have come up into a table. -/
def insertAll : Table PoolUuid StratPool → List (String × PoolUuid × StratPool) →
    StratisResult (Table PoolUuid StratPool)
  | pools, [] => .ok pools
  | pools, p :: ps => do
    let r ← pools.insert p.1 p.2.1 p.2.2
    insertAll r.1 ps

def initializeEngine (io : InitEnv) : StratisResult StratEngine := do
  io.verifyBinaries
  let all ← io.findAll
  let found := LiminalDevices.setupPools overflowChecks io.setup all all.poolUuids
    LiminalDevices.default
  let up ← found.2
  let pools ← insertAll Table.default up
  io.keyFs
  .ok ⟨pools, found.1⟩

/-! ### Events -/

/-- Handle an event, and return the name and the UUID of the pool if it has completed one. -/
def handleEvent (env : SetupEnv) (event : LiminalDevices.UdevEngineEvent) :
    M (Option (String × PoolUuid)) := do
  let e ← Stateful.get
  let up ← onLiminal (LiminalDevices.blockEvaluate overflowChecks env e.pools event)
  match up with
  | some (poolUuid, poolName, pool) => do
    insertPool poolName poolUuid pool
    let e ← Stateful.get
    let _ ← Stateful.lift (Outcome.expect (e.pools.getByUuid poolUuid))
    pure (some (poolName, poolUuid))
  | none => pure none

/-! ### Requests -/

def calculateRedundancy : Option ℕ → StratisResult Unit
  | none => .ok ()
  | some 0 => .ok ()
  | some n => .err (.msg s!"code {n} does not correspond to any redundancy")

/-- A pool that exists already must have the same data devices. -/
def createPoolIdempotentOrErr (poolName : String) (paths existing : List String) :
    StratisResult CreateAction :=
  if paths ⊆ existing ∧ existing ⊆ paths then .ok .identity
  else
    let inInput := StratPool.nameDevices
      (fun path => s!" - the input requests blockdev {path} which does not exist in the current pool")
      (fun paths => s!" - the input requests blockdevs {paths} which do not exist in the current pool")
      (paths.dedup.filter (· ∉ existing))
    let inPool := StratPool.nameDevices
      (fun path => s!" - the existing pool contains blockdev {path} which was not requested by the input")
      (fun paths => s!" - the existing pool contains blockdevs {paths} which were not requested by the input")
      (existing.dedup.filter (· ∉ paths))
    .err (.msg s!"There was a difference in the blockdevs associated with the existing pool named {poolName} and the input requesting creation of a pool by the same name{inInput}{inPool}")

/-- What the system answers while a pool is created. -/
structure CreateIo where
  validName : StratisResult Unit
  /-- The UUID that is generated for the pool. -/
  uuid : PoolUuid
  /-- The paths of the data devices of the pool that has the name already. -/
  existing : List String
  init : StratPool.InitIo

def createPool (io : CreateIo) (name : String) (paths : List String) (redundancy : Option ℕ) :
    M CreateAction := do
  Stateful.lift (calculateRedundancy redundancy)
  Stateful.lift io.validName
  Stateful.lift (StratPool.validatePaths paths)
  let e ← Stateful.get
  match e.pools.getByName name with
  | some _ => Stateful.lift (createPoolIdempotentOrErr name paths io.existing)
  | none =>
    if paths = [] then
      Stateful.lift (.err (.msg "At least one blockdev is required to create a pool."))
    else do
      let pool ← Stateful.lift (StratPool.initializePool overflowChecks io.init name)
      insertPool name io.uuid pool
      pure (.created io.uuid)

/-- Whether there are filesystems on the pool. -/
def hasFilesystems (pool : StratPool) : Bool := !pool.thinPool.filesystems.iter.isEmpty

/-- What has been taken out of the table is put back if it could not be destroyed. Tearing down
the pool is the business of the pool, and whatever is left of it is put back. -/
def destroyRemoved (destroy : StratPool.M Unit) (uuid : PoolUuid) (name : String)
    (pool : StratPool) : M DeleteAction :=
  match destroy pool with
  | (_, .ok ()) => pure (.deleted uuid)
  | (pool, .err err) => do
    insertPool name uuid pool
    Stateful.lift (.err err)
  | (_, .panic) => Stateful.lift .panic

def destroyPool (destroy : StratPool.M Unit) (uuid : PoolUuid) : M DeleteAction := do
  let e ← Stateful.get
  match e.pools.getByUuid uuid with
  | none => pure .identity
  | some (_, pool) =>
    if hasFilesystems pool then Stateful.lift (.err (.msg "filesystems remaining on pool"))
    else do
      let removed ← Stateful.lift (Outcome.expect (e.pools.removeByUuid uuid).2)
      Stateful.modify fun e => { e with pools := (e.pools.removeByUuid uuid).1 }
      destroyRemoved destroy uuid removed.1 removed.2

/-- What the system answers while a pool is renamed. -/
structure RenameIo where
  validName : StratisResult Unit
  save : StratisResult Unit

/-- What has been taken out of the table is put back under the new name if that has been
written, and under the old one if not. -/
def renameRemoved (save : StratisResult Unit) (uuid : PoolUuid) (oldName newName : String)
    (pool : StratPool) : M RenameAction :=
  match StratPool.writeMetadata save newName pool with
  | (pool, .ok ()) => do
    insertPool newName uuid pool
    let e ← Stateful.get
    let _ ← Stateful.lift (Outcome.expect (e.pools.getByUuid uuid))
    pure (.renamed uuid)
  | (pool, .err err) => do
    insertPool oldName uuid pool
    Stateful.lift (.err err)
  | (_, .panic) => Stateful.lift .panic

def renamePool (io : RenameIo) (uuid : PoolUuid) (newName : String) : M RenameAction := do
  Stateful.lift io.validName
  let e ← Stateful.get
  match e.pools.getByUuid uuid with
  | none => pure .noSource
  | some (oldName, _) =>
    if oldName = newName then pure .identity
    else if e.pools.containsName newName then Stateful.lift (.err (.msg newName))
    else do
      let removed ← Stateful.lift (Outcome.expect (e.pools.removeByUuid uuid).2)
      Stateful.modify fun e => { e with pools := (e.pools.removeByUuid uuid).1 }
      renameRemoved io.save uuid oldName newName removed.2

end StratEngine

end Stratisd.Engine
