import Stratisd.Engine.Table
import Stratisd.Run.Stateful
import Stratisd.Thinpool.Flex

/-! Filesystems on thin devices, the volume that keeps their records, and the ids of thin
devices. The answers of device-mapper, of the mount table and of the commands that are run are
part of the environment. -/

namespace Stratisd.Thinpool

open Run Engine Backstore

/-- A 128-bit identifier of a filesystem. -/
structure FilesystemUuid where
  val : BitVec 128
  deriving DecidableEq

/-! ### Thin ids -/

/-- The first number that is not the id of a thin device. -/
def thinIdBound : ℕ := 2 ^ 24

structure ThinDevIdPool where
  nextId : ℕ
  deriving DecidableEq

namespace ThinDevIdPool

def newFromIds (ids : List ℕ) : ThinDevIdPool := ⟨(ids.max?.map (· + 1)).getD 0⟩

def newId (p : ThinDevIdPool) : StratisResult (ThinDevIdPool × ℕ) :=
  if p.nextId < thinIdBound then .ok (⟨p.nextId + 1⟩, p.nextId) else .err .dm

theorem lt_newFromIds {ids : List ℕ} {id : ℕ} (h : id ∈ ids) : id < (newFromIds ids).nextId := by
  unfold newFromIds
  cases hmax : ids.max? with
  | none =>
    rw [List.max?_eq_none_iff.mp hmax] at h
    cases h
  | some m => exact Nat.lt_succ_of_le ((List.max?_eq_some_iff.mp hmax).2 id h)

end ThinDevIdPool

/-! ### Filesystems -/

/-- One tebibyte, in sectors. -/
def defaultThinDevSize : ℕ := 2 * 1024 ^ 3

/-- A filesystem with less free space is extended, in sectors. -/
def filesystemLowater : ℕ := 4 * (dataLowater * dataBlockSize)

structure FilesystemSave where
  name : String
  uuid : FilesystemUuid
  thinId : ℕ
  size : ℕ
  /-- Seconds since the Unix epoch, as a `u64`. -/
  created : ℕ
  deriving DecidableEq

/-- A filesystem and its thin device. -/
structure StratFilesystem where
  device : Device
  thinId : ℕ
  size : ℕ
  created : DateTime
  deriving DecidableEq

inductive ThinStatus where
  | working
  | error
  | fail
  deriving DecidableEq

/-- What a check of a filesystem finds: where it is mounted and the block size, the blocks and
the free blocks there. -/
structure FsCheckIo where
  status : StratisResult ThinStatus
  mountPoints : StratisResult (List String)
  usage : StratisResult (ℕ × ℕ × ℕ)
  setTable : Bool

/-- The environment of making a filesystem. -/
structure FsCreateIo where
  uuid : FilesystemUuid
  thinDev : Option Device
  createFs : StratisResult Unit
  now : DateTime
  saveFs : StratisResult Unit

/-- The environment of a snapshot. If the origin is mounted, the log is cleaned by mounting
the snapshot. -/
structure FsSnapshotIo where
  uuid : FilesystemUuid
  thinDev : Except String Device
  mountPoints : StratisResult (List String)
  cleanLog : StratisResult Unit
  setUuid : StratisResult Unit
  now : DateTime
  saveFs : StratisResult Unit

namespace StratFilesystem

def initializeFs (io : FsCreateIo) (size : Option ℕ) (id : ℕ) : StratisResult StratFilesystem := do
  let device ← Outcome.ofOption .dm io.thinDev
  io.createFs
  .ok ⟨device, id, size.getD defaultThinDevSize, io.now⟩

/-- Seconds that were recorded as a `u64`, as an `i64`. -/
def asI64 (n : ℕ) : ℤ := if n ≤ i64Max then n else (n : ℤ) - u64Bound

def setup (thinDev : Option Device) (save : FilesystemSave) : StratisResult StratFilesystem := do
  let device ← Outcome.ofOption .dm thinDev
  let created ← Outcome.expect (DateTime.ofTimestamp (asI64 save.created) 0)
  .ok ⟨device, save.thinId, save.size, created⟩

/-- Clean the log of a snapshot of a mounted filesystem. -/
def cleanIfMounted (io : FsSnapshotIo) : StratisResult Unit := do
  let mountPoints ← io.mountPoints
  if mountPoints ≠ [] then io.cleanLog else .ok ()

def snapshot (fs : StratFilesystem) (io : FsSnapshotIo) (snapshotName fsName : String) (id : ℕ) :
    StratisResult StratFilesystem :=
  match io.thinDev with
  | .ok device => do
    cleanIfMounted io
    io.setUuid
    .ok ⟨device, id, fs.size, io.now⟩
  | .error e => .err (.msg s!"failed to create {snapshotName} snapshot for {fsName} - {e}")

/-- Double the thin device of a filesystem that is short of space. -/
def extendIfShort (fs : StratFilesystem) (io : FsCheckIo) (freeSectors : ℕ) :
    StratFilesystem × Bool :=
  if freeSectors < filesystemLowater ∧ io.setTable then ({ fs with size := fs.size + fs.size }, true)
  else (fs, false)

/-- Extend a filesystem that is getting full; whether it has been extended. -/
def check (fs : StratFilesystem) (io : FsCheckIo) : StratisResult (StratFilesystem × Bool) := do
  let status ← io.status
  match status with
  | .working => do
    let mountPoints ← io.mountPoints
    match mountPoints with
    | [] => .ok (fs, false)
    | _ :: _ => do
      let (blockSize, blocks, blocksFree) ← io.usage
      let freeBytes := blockSize * blocks - blockSize * (blocks - blocksFree)
      .ok (fs.extendIfShort io (freeBytes / sectorSize))
  | .error => .err (.msg
      s!"Unable to get status for filesystem thin device {fs.device.major}:{fs.device.minor}")
  | .fail => .ok (fs, false)

def record (fs : StratFilesystem) (name : String) (uuid : FilesystemUuid) : FilesystemSave :=
  ⟨name, uuid, fs.thinId, fs.size, (fs.created.secs % u64Bound).toNat⟩

end StratFilesystem

/-! ### The metadata volume -/

/-- The volume with the records of the filesystems, one under each UUID. -/
structure MetadataVol where
  dev : LinearDev
  saves : AList fun _ : FilesystemUuid => FilesystemSave

namespace MetadataVol

/-- Write the record of a filesystem; the old record stays until the new one is complete. -/
def saveFs (io : StratisResult Unit) (name : String) (uuid : FilesystemUuid)
    (fs : StratFilesystem) : Stateful MetadataVol StratisError Unit := do
  Stateful.lift io
  Stateful.modify fun m => { m with saves := m.saves.insert uuid (fs.record name uuid) }

def rmFs (io : StratisResult Unit) (uuid : FilesystemUuid) :
    Stateful MetadataVol StratisError Unit := do
  Stateful.lift io
  Stateful.modify fun m => { m with saves := m.saves.erase uuid }

def filesystems (m : MetadataVol) : List FilesystemSave := m.saves.entries.map (·.2)

end MetadataVol

end Stratisd.Thinpool
