import Stratisd.Backstore.DmTable
import Stratisd.Run.Stateful

/-! The data tier and the cache tier: a manager of block devices and the segments that have
been granted from it. What preparing new devices for a pool gives, with vetting, encryption
and initialization, comes from outside as a result. -/

namespace Stratisd.Backstore

open Run Engine

/-! ### Records -/

structure BlockDevSave where
  allocs : List (List BaseDevSave)
  devs : List BaseBlockDevSave
  deriving DecidableEq

structure DataTierSave where
  blockdev : BlockDevSave
  deriving DecidableEq

structure CacheTierSave where
  blockdev : BlockDevSave
  deriving DecidableEq

/-- The segment that a record describes, on the device with the recorded UUID. -/
def metadataToSegment (uuidToDevno : DevUuid → Option Device) (save : BaseDevSave) :
    StratisResult BlkDevSegment :=
  match uuidToDevno save.parent with
  | some device => .ok ⟨save.parent, ⟨save.start, save.length, device⟩⟩
  | none => .err (.msg
      s!"No block device corresponding to stratisd UUID DevUuid({displayUuid save.parent.val}) found")

namespace BlockDevMgr

/-- A manager of devices that have been prepared for a new pool or a new cache. -/
def initializeMgr (prepared : StratisResult (List StratBlockDev)) : StratisResult BlockDevMgr := do
  let bds ← prepared
  .ok ⟨bds, none⟩

/-- All devices of a manager belong to one pool. -/
def checkPoolUuid (m : BlockDevMgr) (poolUuid : PoolUuid) : StratisResult Unit :=
  match m.blockDevs.head? with
  | some bd =>
    if bd.bda.poolUuid ≠ poolUuid then .err (.msg
      s!"block devices being managed have pool UUID {displayUuid bd.bda.poolUuid.val} but new devices are to be added with pool UUID {displayUuid poolUuid.val}")
    else .ok ()
  | none => .ok ()

/-- Add devices that have been prepared for the pool. -/
def add (poolUuid : PoolUuid) (prepared : StratisResult (List StratBlockDev)) :
    Stateful BlockDevMgr StratisError (List DevUuid) := do
  let m ← Stateful.get
  Stateful.lift (m.checkPoolUuid poolUuid)
  let bds ← Stateful.lift prepared
  Stateful.modify fun m => { m with blockDevs := m.blockDevs ++ bds }
  pure (bds.map (·.uuid))

/-- Take one element out and put the last one in its place. -/
def swapRemove (bds : List StratBlockDev) (index : ℕ) : List StratBlockDev :=
  match bds.getLast? with
  | some last => (bds.set index last).dropLast
  | none => []

/-- The index at which the search from the rear finds a device. It does not look at the first
device. -/
def findFromRear (uuid : DevUuid) (bds : List StratBlockDev) : Option ℕ :=
  ((List.range (bds.length - 1)).map fun i => bds.length - 1 - i).find? fun index =>
    (bds[index]?).any (·.uuid = uuid)

/-- The loop that takes the devices out. There has to be a device to start the search at. -/
def removeEach : List DevUuid → Stateful BlockDevMgr StratisError Unit
  | [] => pure ()
  | uuid :: uuids => do
    let m ← Stateful.get
    if m.blockDevs = [] then Stateful.lift .panic
    else
      match findFromRear uuid m.blockDevs with
      | some index => do
        Stateful.modify fun m => { m with blockDevs := swapRemove m.blockDevs index }
        removeEach uuids
      | none => Stateful.lift (.err (.msg
          s!"Blockdev corresponding to UUID: {displayUuid uuid.val} not found."))

/-- Remove the devices and erase their metadata. -/
def removeBlockdevs (uuids : List DevUuid) (wipe : StratisResult Unit) :
    Stateful BlockDevMgr StratisError Unit := do
  removeEach uuids
  Stateful.lift wipe

end BlockDevMgr

/-! ### The data tier -/

structure DataTier where
  blockMgr : BlockDevMgr
  /-- The segments granted by the manager, in the order of the cap device. -/
  segments : List BlkDevSegment

namespace DataTier

def setup (blockMgr : BlockDevMgr) (save : DataTierSave) : StratisResult DataTier := do
  let allocs ← Outcome.expect save.blockdev.allocs[0]?
  let segments ← Outcome.collect (metadataToSegment blockMgr.uuidToDevno) allocs
  .ok ⟨blockMgr, segments⟩

def new (blockMgr : BlockDevMgr) : DataTier := ⟨blockMgr, []⟩

def add (poolUuid : PoolUuid) (prepared : StratisResult (List StratBlockDev)) :
    Stateful DataTier StratisError (List DevUuid) :=
  Stateful.within (·.blockMgr) (fun m t => { t with blockMgr := m })
    (BlockDevMgr.add poolUuid prepared)

/-- Allocate the requested sectors from the devices, if there are enough. -/
def alloc (t : DataTier) (request : ℕ) : StratisResult (DataTier × Bool) := do
  let (blockMgr, lists) ← t.blockMgr.allocSpace [request]
  match lists with
  | some lists => .ok (⟨blockMgr, coalesceBlkdevsegs t.segments lists.flatten⟩, true)
  | none => .ok (⟨blockMgr, t.segments⟩, false)

def size (t : DataTier) : StratisResult ℕ := t.blockMgr.size

def metadataSize (t : DataTier) : ℕ := t.blockMgr.metadataSize

/-- The size of all the devices without their metadata. -/
def usableSize (overflowChecks : Bool) (t : DataTier) : StratisResult ℕ := do
  let size ← t.size
  subU64 overflowChecks size t.metadataSize

def record (t : DataTier) : DataTierSave :=
  ⟨⟨[t.segments.map (·.record)], t.blockMgr.record⟩⟩

end DataTier

/-! ### The cache tier -/

structure CacheTier where
  blockMgr : BlockDevMgr
  /-- The segments used by the cache device. -/
  cacheSegments : List BlkDevSegment
  /-- The segments used by the metadata device. -/
  metaSegments : List BlkDevSegment

namespace CacheTier

/-- The largest cache that the metadata device is large enough for, 32 TiB. -/
def maxCacheSize : ℕ := 32 * 1024 ^ 4 / sectorSize

/-- The size of the metadata device, in sectors. -/
def metaSpace : ℕ := 1024 ^ 2

def tooLarge : StratisError :=
  .msg s!"The size of the cache sub-device may not exceed {displaySectors maxCacheSize}"

def setup (blockMgr : BlockDevMgr) (save : CacheTierSave) : StratisResult CacheTier :=
  if blockMgr.availSpace ≠ 0 then
    .err (.msg
      s!"{displaySectors blockMgr.availSpace} unallocated to device; probable metadata corruption")
  else do
    let metaAllocs ← Outcome.expect save.blockdev.allocs[1]?
    let metaSegments ← Outcome.collect (metadataToSegment blockMgr.uuidToDevno) metaAllocs
    let cacheAllocs ← Outcome.expect save.blockdev.allocs[0]?
    let cacheSegments ← Outcome.collect (metadataToSegment blockMgr.uuidToDevno) cacheAllocs
    .ok ⟨blockMgr, cacheSegments, metaSegments⟩

/-- All space of new devices goes to the cache device. -/
def extendCache (t : CacheTier) : StratisResult CacheTier := do
  let (blockMgr, lists) ← t.blockMgr.allocSpace [t.blockMgr.availSpace]
  let lists ← Outcome.expect lists
  .ok ⟨blockMgr, coalesceBlkdevsegs t.cacheSegments lists.flatten, t.metaSegments⟩

def onMgr {α : Type} : Stateful BlockDevMgr StratisError α → Stateful CacheTier StratisError α :=
  Stateful.within (·.blockMgr) fun m t => { t with blockMgr := m }

/-- Add devices; the flags say whether the cache device and the metadata device have
changed. -/
def add (poolUuid : PoolUuid) (prepared : StratisResult (List StratBlockDev))
    (wipe : StratisResult Unit) :
    Stateful CacheTier StratisError (List DevUuid × Bool × Bool) := do
  let uuids ← onMgr (BlockDevMgr.add poolUuid prepared)
  let t ← Stateful.get
  if t.blockMgr.availSpace + totalLength t.cacheSegments > maxCacheSize then do
    onMgr (BlockDevMgr.removeBlockdevs uuids wipe)
    Stateful.lift (.err tooLarge)
  else do
    let t' ← Stateful.lift t.extendCache
    Stateful.modify fun _ => t'
    pure (uuids, true, false)

/-- A new cache on all the space of the devices. -/
def new (blockMgr : BlockDevMgr) (wipe : StratisResult Unit) : StratisResult CacheTier :=
  if ¬ metaSpace < blockMgr.availSpace then .panic
  else if blockMgr.availSpace - metaSpace > maxCacheSize then do
    wipe
    .err tooLarge
  else do
    let (blockMgr', lists) ← blockMgr.allocSpace [metaSpace, blockMgr.availSpace - metaSpace]
    match lists with
    | some [metaSegments, cacheSegments] => .ok ⟨blockMgr', cacheSegments, metaSegments⟩
    | _ => .panic

def record (t : CacheTier) : CacheTierSave :=
  ⟨⟨[t.cacheSegments.map (·.record), t.metaSegments.map (·.record)], t.blockMgr.record⟩⟩

end CacheTier

end Stratisd.Backstore
