import Stratisd.Backstore.RangeAlloc
import Stratisd.Metadata.Bda

/-! Block devices and the manager of the devices of one tier. Of a block device the model
keeps its number, its BDA, its allocator and the information that is recorded about it;
paths and encryption handles play no part in allocation. -/

namespace Stratisd.Backstore

open Run Engine Extent Metadata

/-- A continuous set of sectors on a device. -/
structure Segment where
  start : ℕ
  length : ℕ
  device : Device
  deriving DecidableEq

structure BlkDevSegment where
  uuid : DevUuid
  segment : Segment
  deriving DecidableEq

def BlkDevSegment.range (s : BlkDevSegment) : Range := (s.segment.start, s.segment.length)

/-- The sum of the lengths of all segments. -/
def totalLength (segs : List BlkDevSegment) : ℕ := (segs.map (·.segment.length)).sum

/-- What the metadata records about a segment. -/
structure BaseDevSave where
  parent : DevUuid
  start : ℕ
  length : ℕ
  deriving DecidableEq

/-- What the metadata records about a device. -/
structure BaseBlockDevSave where
  uuid : DevUuid
  userInfo : Option String
  hardwareInfo : Option String
  deriving DecidableEq

def BlkDevSegment.record (s : BlkDevSegment) : BaseDevSave :=
  ⟨s.uuid, s.segment.start, s.segment.length⟩

structure StratBlockDev where
  dev : Device
  bda : BDA
  used : RangeAllocator
  userInfo : Option String
  hardwareInfo : Option String

namespace StratBlockDev

/-- Make a block device, with its BDA and the other given segments in use. -/
def new (dev : Device) (bda : BDA) (otherSegments : List Range)
    (userInfo hardwareInfo : Option String) : StratisResult StratBlockDev := do
  let allocator ← RangeAllocator.new bda.devSize ((0, bda.extendedSize) :: otherSegments)
  .ok ⟨dev, bda, allocator, userInfo, hardwareInfo⟩

def uuid (b : StratBlockDev) : DevUuid := b.bda.devUuid

/-- Find sector ranges to allocate; fewer than asked for if not enough are free. -/
def requestSpace (b : StratBlockDev) (size : ℕ) :
    StratisResult (StratBlockDev × PerDevSegments) := do
  let (used, segs) ← b.used.request size
  .ok ({ b with used }, segs)

def metadataSize (b : StratBlockDev) : ℕ := b.bda.extendedSize

/-- Sectors not allocated for any purpose. -/
def available (b : StratBlockDev) : ℕ := b.used.available

/-- The recorded size, which the allocator has to agree with. -/
def totalSize (b : StratBlockDev) : StratisResult ℕ :=
  if b.bda.devSize = b.used.size then .ok b.used.size else .panic

def record (b : StratBlockDev) : BaseBlockDevSave := ⟨b.uuid, b.userInfo, b.hardwareInfo⟩

/-- Set or unset the user info; whether it has changed. -/
def setUserInfo (b : StratBlockDev) (userInfo : Option String) : StratBlockDev × Bool :=
  if b.userInfo ≠ userInfo then ({ b with userInfo }, true) else (b, false)

end StratBlockDev

structure BlockDevMgr where
  blockDevs : List StratBlockDev
  /-- When variable length metadata was last saved to the devices. -/
  lastUpdateTime : Option DateTime

namespace BlockDevMgr

/-- The loop over the devices that serves one size: the devices, the segments granted and
how much has been allocated. -/
def allocFrom (needed alloc : ℕ) :
    List StratBlockDev → StratisResult (List StratBlockDev × List BlkDevSegment × ℕ)
  | [] => .ok ([], [], alloc)
  | bd :: bds =>
    if alloc = needed then .ok (bd :: bds, [], alloc)
    else do
      let (bd', rSegs) ← bd.requestSpace (needed - alloc)
      let segs := rSegs.used.map fun r => (⟨bd.uuid, ⟨r.1, r.2, bd.dev⟩⟩ : BlkDevSegment)
      let (bds', segs', alloc') ← allocFrom needed (alloc + rSegs.sum) bds
      .ok (bd' :: bds', segs ++ segs', alloc')

def allocEach : List ℕ → List StratBlockDev →
    StratisResult (List StratBlockDev × List (List BlkDevSegment))
  | [], bds => .ok (bds, [])
  | needed :: sizes, bds => do
    let (bds, segs, alloc) ← allocFrom needed 0 bds
    if alloc ≠ needed then .panic
    else do
      let (bds, lists) ← allocEach sizes bds
      .ok (bds, segs :: lists)

/-- Sectors not allocated for any purpose. -/
def availSpace (m : BlockDevMgr) : ℕ := (m.blockDevs.map (·.available)).sum

def size (m : BlockDevMgr) : StratisResult ℕ := do
  let sizes ← Outcome.collect (·.totalSize) m.blockDevs
  .ok sizes.sum

def metadataSize (m : BlockDevMgr) : ℕ := (m.blockDevs.map (·.metadataSize)).sum

/-- Allocate all the sizes, one list of segments for each, or nothing. -/
def allocSpace (m : BlockDevMgr) (sizes : List ℕ) :
    StratisResult (BlockDevMgr × Option (List (List BlkDevSegment))) :=
  if m.availSpace < sizes.sum then .ok (m, none)
  else do
    let (blockDevs, lists) ← allocEach sizes m.blockDevs
    .ok ({ m with blockDevs }, some lists)

/-- The number of the device with the given UUID; the last one counts. -/
def uuidToDevno (m : BlockDevMgr) (uuid : DevUuid) : Option Device :=
  (m.blockDevs.reverse.find? fun b => b.uuid = uuid).map (·.dev)

def record (m : BlockDevMgr) : List BaseBlockDevSave := m.blockDevs.map (·.record)

def getBlockdevByUuid (m : BlockDevMgr) (uuid : DevUuid) : Option StratBlockDev :=
  m.blockDevs.find? fun b => b.uuid = uuid

/-- Change the first device with the UUID in its place, and answer with what the change returns;
nothing if there is no such device. -/
def changeFirst {α : Type} (uuid : DevUuid) (f : StratBlockDev → StratBlockDev × α) :
    List StratBlockDev → Option (List StratBlockDev × α)
  | [] => none
  | bd :: bds =>
    if bd.uuid = uuid then some ((f bd).1 :: bds, (f bd).2)
    else (changeFirst uuid f bds).map fun r => (bd :: r.1, r.2)

def getMutBlockdevByUuid {α : Type} (m : BlockDevMgr) (uuid : DevUuid)
    (f : StratBlockDev → StratBlockDev × α) : Option (BlockDevMgr × α) :=
  (changeFirst uuid f m.blockDevs).map fun r => ({ m with blockDevs := r.1 }, r.2)

end BlockDevMgr

end Stratisd.Backstore
