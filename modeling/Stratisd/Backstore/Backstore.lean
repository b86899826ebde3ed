import Stratisd.Backstore.Tiers

/-! The backstore: the tiers, the device-mapper device on top of them that the upper layer
allocates from, and the index up to which it has allocated. The answers of device-mapper are
part of the environment of a call. -/

namespace Stratisd.Backstore

open Run Engine Extent

structure CapSave where
  allocs : List Range
  deriving DecidableEq

structure BackstoreSave where
  dataTier : DataTierSave
  cap : CapSave
  cacheTier : Option CacheTierSave
  deriving DecidableEq

structure Backstore where
  cache : Option CacheDev
  cacheTier : Option CacheTier
  dataTier : DataTier
  linear : Option LinearDev
  /-- Up to where the cap device has been allocated. -/
  next : ℕ

/-- The answers of device-mapper while a cache is made. -/
structure CacheIo where
  metaSub : Option Device
  wipe : Bool
  cacheSub : Option Device
  cache : Option Device

/-- The answers of device-mapper while the cap device is extended. -/
structure CapIo where
  create : Option Device
  setTable : Bool
  resume : Bool

/-- A new cache gets a clean metadata device. -/
def wipeMeta (new wipe : Bool) : StratisResult Unit :=
  if new ∧ ¬ wipe then .err .io else .ok ()

def makeCache (io : CacheIo) (cacheTier : CacheTier) (origin : LinearDev) (new : Bool) :
    StratisResult CacheDev := do
  let metaDev ← LinearDev.setup io.metaSub (mapToDm cacheTier.metaSegments)
  wipeMeta new io.wipe
  let cacheDev ← LinearDev.setup io.cacheSub (mapToDm cacheTier.cacheSegments)
  let device ← Outcome.ofOption .dm io.cache
  .ok ⟨device, metaDev, cacheDev, origin⟩

namespace Backstore

/-- What the tiers and the cap device are built from. -/
structure SetupIo where
  origin : Option Device
  cache : CacheIo

/-- Make a backstore from devices that already belong to the pool. -/
def setup (io : SetupIo) (save : BackstoreSave) (datadevs cachedevs : List StratBlockDev)
    (lastUpdateTime : DateTime) : StratisResult Backstore := do
  let dataTier ← DataTier.setup ⟨datadevs, some lastUpdateTime⟩ save.dataTier
  let origin ← LinearDev.setup io.origin (mapToDm dataTier.segments)
  let (cacheTier, cache, origin) ←
    (if cachedevs ≠ [] then
      match save.cacheTier with
      | some cacheTierSave => do
        let cacheTier ← CacheTier.setup ⟨cachedevs, some lastUpdateTime⟩ cacheTierSave
        let cache ← makeCache io.cache cacheTier origin false
        .ok (some cacheTier, some cache, none)
      | none => .err (.msg "Cachedevs exist, but cache metdata does not exist")
    else .ok (none, none, some origin) :
      StratisResult (Option CacheTier × Option CacheDev × Option LinearDev))
  let cap ← Outcome.expect save.cap.allocs[0]?
  .ok ⟨cache, cacheTier, dataTier, origin, cap.2⟩

/-- A backstore on devices prepared for a new pool. It has no cap device yet. -/
def initializeStore (prepared : StratisResult (List StratBlockDev)) : StratisResult Backstore := do
  let blockMgr ← BlockDevMgr.initializeMgr prepared
  .ok ⟨none, none, DataTier.new blockMgr, none, 0⟩

def size (b : Backstore) : ℕ :=
  match b.linear, b.cache with
  | some linear, _ => linear.size
  | none, some cache => cache.size
  | none, none => 0

/-- The device that the upper layer builds on. -/
def device (b : Backstore) : Option Device :=
  match b.cache, b.linear with
  | some cache, _ => some cache.device
  | none, some linear => some linear.device
  | none, none => none

def datadevs (b : Backstore) : List StratBlockDev := b.dataTier.blockMgr.blockDevs

def cachedevs (b : Backstore) : List StratBlockDev :=
  match b.cacheTier with
  | some t => t.blockMgr.blockDevs
  | none => []

def hasCache (b : Backstore) : Bool := b.cacheTier.isSome

/-- What is left of the cap device. That no more has been allocated than there is, is
asserted. -/
def availableInCap (b : Backstore) : StratisResult ℕ :=
  if b.next ≤ b.size then .ok (b.size - b.next) else .panic

/-- The size of all devices of the data tier. -/
def datatierSize (b : Backstore) : StratisResult ℕ := b.dataTier.size

def datatierUsableSize (overflowChecks : Bool) (b : Backstore) : StratisResult ℕ :=
  b.dataTier.usableSize overflowChecks

def datatierMetadataSize (b : Backstore) : ℕ := b.dataTier.metadataSize

/-- Usable sectors that the upper layer has not allocated yet. -/
def availableInBackstore (overflowChecks : Bool) (b : Backstore) : StratisResult ℕ := do
  let usable ← b.dataTier.usableSize overflowChecks
  subU64 overflowChecks usable b.next

abbrev M := Stateful Backstore StratisError

def onDataTier {α : Type} : Stateful DataTier StratisError α → M α :=
  Stateful.within (·.dataTier) fun t b => { b with dataTier := t }

def allocData (request : ℕ) : M Bool := do
  let b ← Stateful.get
  let (dataTier, allocated) ← Stateful.lift (b.dataTier.alloc request)
  Stateful.modify fun b => { b with dataTier }
  pure allocated

/-- Load a new table and resume the device. A table that has been loaded counts even if the
device can not be resumed. -/
def loadTable (setTable resume : Bool) (load : Backstore → Backstore) : M Unit := do
  Stateful.lift (dmCall setTable)
  Stateful.modify load
  Stateful.lift (dmCall resume)

/-- Put all segments of the data tier under the cap device, which is created if there is
none. -/
def extendCapDevice (io : CapIo) : M Unit := do
  let b ← Stateful.get
  let table := mapToDm b.dataTier.segments
  match b.cache, b.linear with
  | none, none => do
    let origin ← Stateful.lift (LinearDev.setup io.create table)
    Stateful.modify fun b => { b with linear := some origin }
  | some cache, none => loadTable io.setTable io.resume fun b =>
      { b with cache := some { cache with originDev := { cache.originDev with table } } }
  | none, some linear => loadTable io.setTable io.resume fun b =>
      { b with linear := some { linear with table } }
  | some _, some _ => Stateful.lift .panic

/-- Chunks of the given sizes, end to end. -/
def chunksFrom (next : ℕ) : List ℕ → List Range
  | [] => []
  | size :: sizes => (next, size) :: chunksFrom (next + size) sizes

/-- Allocate from the data tier and put what has been allocated under the cap device. -/
def growCap (io : CapIo) (amount : ℕ) : M Bool := do
  let allocated ← allocData amount
  if allocated then do
    extendCapDevice io
    pure true
  else pure false

/-- Give out chunks from what is left of the cap device. That they have the sizes asked for
is asserted. -/
def takeChunks (sizes : List ℕ) : M (Option (List Range)) := do
  let b ← Stateful.get
  let chunks := chunksFrom b.next sizes
  Stateful.modify fun b => { b with next := b.next + sizes.sum }
  if chunks.map (·.2) = sizes then pure (some chunks) else Stateful.lift .panic

/-- Allocate chunks of all the sizes, or nothing. -/
def alloc (io : CapIo) (sizes : List ℕ) : M (Option (List Range)) := do
  let b ← Stateful.get
  let available ← Stateful.lift b.availableInCap
  let granted ← (if available < sizes.sum then growCap io (sizes.sum - available) else pure true)
  if granted then takeChunks sizes else pure none

variable (overflowChecks : Bool)

/-- The loop that asks the data tier for less and less until it grants something. The
fuel is a bound on the number of rounds. -/
def requestLoop (available modulus : ℕ) : ℕ → ℕ → M Bool
  | 0, _ => pure false
  | fuel + 1, internalRequest =>
    if internalRequest = 0 then pure false
    else do
      let amount ← Stateful.lift (subU64 overflowChecks internalRequest available)
      let allocated ← allocData amount
      if allocated then pure true
      else requestLoop available modulus fuel (internalRequest / 2 / modulus * modulus)

def takeChunk (amount : ℕ) : M (Option Range) := do
  let b ← Stateful.get
  Stateful.modify fun b => { b with next := b.next + amount }
  pure (some (b.next, amount))

/-- Extend the cap device and give out what there is then, up to the request. -/
def takeExtended (io : CapIo) (request modulus : ℕ) : M (Option Range) := do
  extendCapDevice io
  let b ← Stateful.get
  let available ← Stateful.lift b.availableInCap
  takeChunk (min request available / modulus * modulus)

/-- Allocate one chunk of at most the requested size, in multiples of the modulus. -/
def request (io : CapIo) (request modulus : ℕ) : M (Option Range) :=
  if modulus = 0 then Stateful.lift .panic
  else
    let internalRequest := request / modulus * modulus
    if internalRequest = 0 then pure none
    else do
      let b ← Stateful.get
      let available ← Stateful.lift b.availableInCap
      if available < internalRequest then do
        let allocated ← requestLoop overflowChecks available modulus (internalRequest.log2 + 1)
          internalRequest
        if allocated then takeExtended io request modulus else pure none
      else takeChunk internalRequest

structure InitCacheIo where
  prepared : StratisResult (List StratBlockDev)
  wipe : StratisResult Unit
  cache : CacheIo

/-- Put a new cache on top of the linear device. The linear device is given up before the
cache is made. -/
def initCache (io : InitCacheIo) (paths : List String) : M (List DevUuid) := do
  let b ← Stateful.get
  match b.cacheTier with
  | some _ => Stateful.lift .panic
  | none =>
    if paths = [] then
      Stateful.lift (.err (.msg "Must initialize cache with at least one blockdev."))
    else do
      let bdm ← Stateful.lift (BlockDevMgr.initializeMgr io.prepared)
      let cacheTier ← Stateful.lift (CacheTier.new bdm io.wipe)
      let linear ← Stateful.lift (Outcome.expect b.linear)
      Stateful.modify fun b => { b with linear := none }
      let cache ← Stateful.lift (makeCache io.cache cacheTier linear true)
      Stateful.modify fun b => { b with cache := some cache, cacheTier := some cacheTier }
      pure (cacheTier.blockMgr.blockDevs.map (·.uuid))

structure AddCacheIo where
  prepared : StratisResult (List StratBlockDev)
  wipe : StratisResult Unit
  setTable : Bool
  resume : Bool

/-- Load a table into one of the devices under the cache device, if it has changed. -/
def setSubTable (io : AddCacheIo) (change : Bool) (load : CacheDev → CacheDev) : M Unit :=
  if change then loadTable io.setTable io.resume fun b => { b with cache := b.cache.map load }
  else pure ()

def addCachedevs (io : AddCacheIo) (poolUuid : PoolUuid) : M (List DevUuid) := do
  let b ← Stateful.get
  match b.cacheTier with
  | none => Stateful.lift .panic
  | some cacheTier => do
    let _ ← Stateful.lift (Outcome.expect b.cache)
    let r := CacheTier.add poolUuid io.prepared io.wipe cacheTier
    Stateful.modify fun b => { b with cacheTier := some r.1 }
    let changed ← Stateful.lift r.2
    setSubTable io changed.2.1 fun cache =>
      { cache with cacheDev := { cache.cacheDev with table := mapToDm r.1.cacheSegments } }
    setSubTable io changed.2.2 fun cache =>
      { cache with metaDev := { cache.metaDev with table := mapToDm r.1.metaSegments } }
    pure changed.1

def addDatadevs (poolUuid : PoolUuid) (prepared : StratisResult (List StratBlockDev)) :
    M (List DevUuid) := onDataTier (DataTier.add poolUuid prepared)

def record (b : Backstore) : BackstoreSave :=
  ⟨b.dataTier.record, ⟨[(0, b.next)]⟩, b.cacheTier.map (·.record)⟩

/-! ### Single devices -/

def getBlockdevByUuid (b : Backstore) (uuid : DevUuid) : Option StratBlockDev :=
  (b.dataTier.blockMgr.getBlockdevByUuid uuid).or
    (b.cacheTier.bind fun t => t.blockMgr.getBlockdevByUuid uuid)

/-- Change the device with the UUID, which is looked for in the data tier first. -/
def getMutBlockdevByUuid {α : Type} (b : Backstore) (uuid : DevUuid)
    (f : StratBlockDev → StratBlockDev × α) : Option (Backstore × α) :=
  match b.dataTier.blockMgr.getMutBlockdevByUuid uuid f with
  | some (blockMgr, a) => some ({ b with dataTier := { b.dataTier with blockMgr } }, a)
  | none => do
    let t ← b.cacheTier
    let (blockMgr, a) ← t.blockMgr.getMutBlockdevByUuid uuid f
    some ({ b with cacheTier := some { t with blockMgr } }, a)

/-- Set the user info of a device; its UUID if that has changed anything. -/
def setBlockdevUserInfo (uuid : DevUuid) (userInfo : Option String) : M (Option DevUuid) := fun b =>
  match b.getMutBlockdevByUuid uuid (·.setUserInfo userInfo) with
  | none => (b, .err (.msg s!"Blockdev with a UUID of {displayUuid uuid.val} was not found"))
  | some (b, changed) => (b, .ok (if changed then some uuid else none))

end Backstore

end Stratisd.Backstore
