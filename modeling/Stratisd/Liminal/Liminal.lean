import Stratisd.Liminal.Blockdevs
import Stratisd.Liminal.GetMetadata
import Stratisd.Pool.Pool

/-! Devices which are known but not in a pool, and how they become a pool. A set of devices is
errored, which means that it may still have a chance, or hopeless. -/

namespace Stratisd.Liminal

open Run Engine Media Metadata Backstore Pool

/-! ### Setting up a pool from opened devices -/

/-- On an error, whether a set of devices is hopeless or just errored. The texts are only
logged. -/
inductive Destination where
  | hopeless
  | errored
  deriving DecidableEq

/-- What the system answers while a pool is set up. -/
structure SetupEnv where
  /-- Opening a device, reading and repairing its signature block and loading its BDA. -/
  readBda : StratisInfo → StratisResult BDA
  crc : List UInt8 → UInt32
  fromSlice : List UInt8 → Option PoolSave
  /-- Whether a device can be opened to read the metadata. -/
  opens : DevUuid → Bool
  disk : StratisInfo → Disk
  actualSize : StratisInfo → StratisResult ℕ
  /-- How the physical device at a path is encrypted, if it is. -/
  cryptHandle : String → StratisResult (Option EncryptionInfo)
  setup : StratPool.SetupIo

/-- A device with the BDA that has been read from it. -/
structure ReadDev where
  uuid : DevUuid
  info : LStratisInfo
  bda : BDA

namespace ReadDev

/-- The path of the device that may be encrypted. -/
def physicalPath (d : ReadDev) : String :=
  match d.info.luks with
  | some luks => luks.ids.devnode
  | none => d.info.ids.devnode

/-- The device as metadata is read from it. Nothing of it is in use yet. -/
def attached (env : SetupEnv) (d : ReadDev) : AttachedDev :=
  ⟨⟨d.info.ids.deviceNumber, d.bda, ⟨⟨d.bda.devSize, []⟩⟩, none, none⟩, env.disk d.info.ids⟩

def found (env : SetupEnv) (d : ReadDev) : FoundDev :=
  ⟨d.info.ids, d.bda, env.actualSize d.info.ids, do
    let _ ← env.cryptHandle d.physicalPath
    .ok ()⟩

/-- Whether the device turns out to be encrypted. -/
def isEncrypted (env : SetupEnv) (d : ReadDev) : Bool :=
  match env.cryptHandle d.physicalPath with
  | .ok (some encryptionInfo) => encryptionInfo.isEncrypted
  | _ => false

end ReadDev

/-- Any error makes the set of devices errored. -/
def orErrored {α : Type} : StratisResult α → Outcome Destination α
  | .ok a => .ok a
  | .err _ => .err .errored
  | .panic => .panic

def getBdas (env : SetupEnv) (infos : List (DevUuid × LStratisInfo)) :
    StratisResult (List ReadDev) :=
  Outcome.collect (fun p => do
    let bda ← env.readBda p.2.ids
    .ok ⟨p.1, p.2, bda⟩) infos

def numWithLuks (env : SetupEnv) (devs : List ReadDev) (datadevs : List StratBlockDev) : ℕ :=
  datadevs.countP fun d => devs.any fun r => r.bda.devUuid = d.uuid && r.isEncrypted env

variable (overflowChecks : Bool)

/-- Set up a pool from opened devices, next to the pools that there are. -/
def setupPool (env : SetupEnv) (pools : Table PoolUuid StratPool) (poolUuid : PoolUuid)
    (infos : List (DevUuid × LStratisInfo)) : Outcome Destination (String × StratPool) := do
  let devs ← orErrored (getBdas env infos)
  if devs.any fun d => d.uuid ≠ d.bda.devUuid ∨ poolUuid ≠ d.bda.poolUuid then .err .hopeless
  else do
    let found ← orErrored (getMetadata env.crc env.fromSlice env.opens (devs.map (·.attached env)))
    let newest ← Outcome.ofOption .errored found
    if (pools.getByName newest.2.name).isSome then .err .errored
    else do
      let tiers ← orErrored (getBlockdevs newest.2.backstore (devs.map (·.found env)))
      if tiers.1 = [] then .err .hopeless
      else if numWithLuks env devs tiers.1 ≠ 0 ∧ numWithLuks env devs tiers.1 ≠ tiers.1.length then
        .err .errored
      else do
        let pool ← orErrored
          (StratPool.setup overflowChecks env.setup tiers.1 tiers.2 newest.1 newest.2)
        .ok (newest.2.name, pool)

/-! ### Sets of devices that are not in a pool -/

structure LiminalDevices where
  /-- Sets of devices which may still have a chance. -/
  erroredPoolDevices : AList fun _ : PoolUuid => DeviceSet
  /-- Sets of devices which contradict each other. -/
  hopelessDeviceSets : AList fun _ : PoolUuid => DeviceBag

namespace LiminalDevices

def default : LiminalDevices := ⟨∅, ∅⟩

abbrev M := Stateful LiminalDevices StratisError

def insertErrored (l : LiminalDevices) (poolUuid : PoolUuid) (infos : DeviceSet) : LiminalDevices :=
  { l with erroredPoolDevices := l.erroredPoolDevices.insert poolUuid infos }

def insertHopeless (l : LiminalDevices) (poolUuid : PoolUuid) (bag : DeviceBag) : LiminalDevices :=
  { l with hopelessDeviceSets := l.hopelessDeviceSets.insert poolUuid bag }

def removeErrored (l : LiminalDevices) (poolUuid : PoolUuid) : LiminalDevices :=
  { l with erroredPoolDevices := l.erroredPoolDevices.erase poolUuid }

/-- The encrypted pools that are not set up. -/
def lockedPools (l : LiminalDevices) : List (PoolUuid × LockedPoolInfo) :=
  l.erroredPoolDevices.entries.filterMap fun e =>
    e.2.lockedPoolInfo.map fun info => (e.1, info)

/-- Nothing is known of the pool, as `try_setup_pool` asserts. -/
def Unknown (pools : Table PoolUuid StratPool) (l : LiminalDevices) (poolUuid : PoolUuid) : Prop :=
  pools.getByUuid poolUuid = none ∧ l.erroredPoolDevices.lookup poolUuid = none ∧
    l.hopelessDeviceSets.lookup poolUuid = none

/-- Try to set up a pool from a set of devices, or put the set in the place where it belongs. -/
def trySetupPool (env : SetupEnv) (pools : Table PoolUuid StratPool) (poolUuid : PoolUuid)
    (infos : DeviceSet) : M (Option (String × StratPool)) := fun l =>
  if (pools.getByUuid poolUuid).isSome ∨ (l.erroredPoolDevices.lookup poolUuid).isSome ∨
      (l.hopelessDeviceSets.lookup poolUuid).isSome then (l, .panic)
  else
    match infos.asOpenedSet with
    | none => (l.insertErrored poolUuid infos, .ok none)
    | some opened =>
      match setupPool overflowChecks env pools poolUuid opened with
      | .ok pool => (l, .ok (some pool))
      | .err .hopeless => (l.insertHopeless poolUuid infos.intoBag, .ok none)
      | .err .errored => (l.insertErrored poolUuid infos, .ok none)
      | .panic => (l, .panic)

/-! ### Start-up -/

/-- Put the devices of a pool together. If two of them contradict each other, all of them are
returned in a bag. -/
def gather : DeviceSet → List DeviceInfo → Outcome DeviceBag DeviceSet
  | s, [] => .ok s
  | s, info :: infos =>
    match s.processInfoAdd info with
    | .ok s => gather s infos
    | .err bag => .err ⟨bag.internal ∪ (infos.map LInfo.ofDeviceInfo).toFinset⟩
    | .panic => .panic

/-- The devices found at start-up, by the pools they belong to. -/
structure AllDevices where
  luksDevices : AList fun _ : PoolUuid => List LuksInfo
  stratisDevices : AList fun _ : PoolUuid => List StratisInfo
  /-- The pools of the two maps, in the order of the hash set that they are put in. -/
  poolUuids : List PoolUuid

/-- The devices of a pool in the order in which they are taken, from the end of a vector. -/
def AllDevices.infos (all : AllDevices) (poolUuid : PoolUuid) : List DeviceInfo :=
  (((all.stratisDevices.lookup poolUuid).getD []).map DeviceInfo.stratis ++
    ((all.luksDevices.lookup poolUuid).getD []).map DeviceInfo.luks).reverse

/-- Set up one of the pools found at start-up. The table that its name is checked against is
empty. -/
def setupFound (env : SetupEnv) (all : AllDevices) (poolUuid : PoolUuid) :
    M (Option (String × StratPool)) := fun l =>
  if (l.hopelessDeviceSets.lookup poolUuid).isSome then (l, .ok none)
  else
    match gather DeviceSet.new (all.infos poolUuid) with
    | .ok infos => trySetupPool overflowChecks env Table.default poolUuid infos l
    | .err bag => (l.insertHopeless poolUuid bag, .ok none)
    | .panic => (l, .panic)

/-- Set up the pools found at start-up. Those that are up are returned. -/
def setupPools (env : PoolUuid → SetupEnv) (all : AllDevices) :
    List PoolUuid → M (List (String × PoolUuid × StratPool))
  | [] => pure []
  | poolUuid :: poolUuids => do
    let pool ← setupFound overflowChecks (env poolUuid) all poolUuid
    let pools ← setupPools env all poolUuids
    pure ((pool.map fun p => (p.1, poolUuid, p.2)).toList ++ pools)

/-! ### Events -/

inductive EventType where
  | add
  | change
  | remove
  | other
  deriving DecidableEq

/-- A udev event, with what its block device has been identified as. -/
structure UdevEngineEvent where
  eventType : EventType
  info : Option DeviceInfo

/-- The set of devices is tried, and the pool returned with its UUID. -/
def setupDevices (env : SetupEnv) (pools : Table PoolUuid StratPool) (poolUuid : PoolUuid)
    (infos : DeviceSet) : M (Option (PoolUuid × String × StratPool)) := do
  let pool ← trySetupPool overflowChecks env pools poolUuid infos
  pure (pool.map fun p => (poolUuid, p))

/-- A device is there, perhaps not for the first time. -/
def deviceAdded (env : SetupEnv) (pools : Table PoolUuid StratPool) (info : DeviceInfo) :
    M (Option (PoolUuid × String × StratPool)) := fun l =>
  let poolUuid := info.stratisIdentifiers.poolUuid
  if (pools.getByUuid poolUuid).isSome then (l, .ok none)
  else
    match l.hopelessDeviceSets.lookup poolUuid with
    | some bag => (l.insertHopeless poolUuid ⟨insert (.ofDeviceInfo info) bag.internal⟩, .ok none)
    | none =>
      let devices := (l.erroredPoolDevices.lookup poolUuid).getD DeviceSet.new
      let rest := l.removeErrored poolUuid
      match devices.processInfoAdd info with
      | .ok devices => setupDevices overflowChecks env pools poolUuid devices rest
      | .err bag => (rest.insertHopeless poolUuid bag, .ok none)
      | .panic => (rest, .panic)

/-- A device has gone. -/
def deviceRemoved (env : SetupEnv) (pools : Table PoolUuid StratPool) (info : DeviceInfo) :
    M (Option (PoolUuid × String × StratPool)) := fun l =>
  let poolUuid := info.stratisIdentifiers.poolUuid
  if (pools.getByUuid poolUuid).isSome then (l, .ok none)
  else
    match l.hopelessDeviceSets.lookup poolUuid with
    | some bag =>
      (l.insertHopeless poolUuid ⟨bag.internal.erase (.ofDeviceInfo info)⟩, .ok none)
    | none =>
      let devices := (l.erroredPoolDevices.lookup poolUuid).getD DeviceSet.new
      setupDevices overflowChecks env pools poolUuid (devices.processInfoRemove info)
        (l.removeErrored poolUuid)

/-- Evaluate an event, and return the pool if it completes one. -/
def blockEvaluate (env : SetupEnv) (pools : Table PoolUuid StratPool) (event : UdevEngineEvent) :
    M (Option (PoolUuid × String × StratPool)) :=
  match event.eventType, event.info with
  | .add, some info => deviceAdded overflowChecks env pools info
  | .change, some info => deviceAdded overflowChecks env pools info
  | .remove, some info => deviceRemoved overflowChecks env pools info
  | _, _ => pure none

end LiminalDevices

end Stratisd.Liminal
