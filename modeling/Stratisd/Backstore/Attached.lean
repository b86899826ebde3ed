import Stratisd.Backstore.BlockDevMgr
import Stratisd.Metadata.Crash

/-! Saving the pool metadata through a manager. The devices are kept together with their
media, and the environment of a save says what the clock shows, which devices are drawn
from those with enough space, and how the I/O on each of them goes. -/

namespace Stratisd.Backstore

open Run Engine Media Metadata

/-- A block device and the medium behind its metadata path. -/
structure AttachedDev where
  bd : StratBlockDev
  disk : Disk

/-- A manager together with the media of its devices. -/
structure AttachedMgr where
  devs : List AttachedDev
  lastUpdateTime : Option DateTime

/-- How the I/O of a save on one device goes. -/
structure DevIo where
  opens : Bool
  save : SaveIo

/-- The I/O on the device succeeds or fails before anything is written. -/
def DevIo.Atomic (io : DevIo) : Prop :=
  io.opens = false ∨ io.save.first = some ⟨0, 0⟩ ∨ io.save = ⟨none, none⟩

/-- The environment of one call of `save_state`. -/
structure SaveEnv where
  now : DateTime
  /-- The devices drawn at random. -/
  targets : List DevUuid
  io : DevUuid → DevIo

/-- How a call of `save_state` ended: its result, the stamp that it used, and what happened
on each device that it tried. -/
structure SaveReport where
  result : StratisResult Unit
  stamp : Option DateTime
  devices : List (DevUuid × StratisResult Unit)

def maxNumToWrite : ℕ := 10

namespace AttachedDev

/-- The device as a store of metadata. -/
def store (a : AttachedDev) : DeviceStore := ⟨a.bd.bda, a.disk⟩

def lastUpdateTime (a : AttachedDev) : Option DateTime := a.bd.bda.lastUpdateTime

variable (crc : List UInt8 → UInt32)

def saveState (a : AttachedDev) (time : DateTime) (metadata : List UInt8) (io : DevIo) :
    AttachedDev × StratisResult Unit :=
  if io.opens then
    let r := a.bd.bda.saveState crc time metadata io.save a.disk
    (⟨{ a.bd with bda := r.1.1 }, r.1.2⟩, r.2)
  else (a, .err .io)

/-- The metadata fits in the regions of the device. -/
def isCandidate (a : AttachedDev) (metadata : List UInt8) : Bool :=
  match a.bd.bda.maxDataSize with
  | .ok size => size.bytes ≥ metadata.length
  | _ => false

/-- What a save does with one device: a result if the device is a target. -/
def saveIfTarget (a : AttachedDev) (time : DateTime) (metadata : List UInt8) (env : SaveEnv) :
    AttachedDev × Option (StratisResult Unit) :=
  if a.isCandidate metadata ∧ a.bd.uuid ∈ env.targets then
    let r := a.saveState crc time metadata (env.io a.bd.uuid)
    (r.1, some r.2)
  else (a, none)

/-! ### One device -/

variable {crc} {a : AttachedDev} {time : DateTime} {metadata : List UInt8} {io : DevIo}

theorem isCandidate_iff (hf : a.store.Fits) : a.isCandidate metadata = true ↔
    metadata.length + mdaRegionHdrSize ≤ a.bd.bda.regions.regionSize.bytes := by
  have hdr : mdaRegionHdrSize ≤ a.bd.bda.regions.regionSize.bytes := hf.hdr_le
  have hm : a.bd.bda.maxDataSize =
      .ok ⟨a.bd.bda.regions.regionSize.bytes - mdaRegionHdrSize⟩ := by
    rw [BDA.maxDataSize, MDARegions.maxDataSize, MDARegionSize.dataSize, if_neg (not_lt.mpr hdr)]
  simp only [isCandidate, hm, ge_iff_le, decide_eq_true_eq]
  omega

/-- A later save of metadata that fits leaves the device alone and fails, or is stored. -/
theorem saveState_cases (hf : a.store.Fits) (hrel : a.store.Reloadable crc) (ht : 0 ≤ time.secs)
    (hne : metadata ≠ []) (hlt : ∀ t ∈ a.lastUpdateTime, t < time)
    (hc : a.isCandidate metadata = true) (hio : io.Atomic) :
    a.saveState crc time metadata io = (a, .err .io) ∨
      ∃ a', a.saveState crc time metadata io = (a', .ok ()) ∧ a'.bd.uuid = a.bd.uuid ∧
        a'.store.Represents crc (some (time, metadata)) ∧ a'.store.Reloadable crc := by
  have hr : ¬ a.store.bda.regions.Rejects time metadata := by
    rintro (⟨last, hlast, hle⟩ | hlen)
    · exact absurd (hlt last hlast) (not_lt.mpr hle)
    · exact absurd ((isCandidate_iff hf).mp hc) (not_le.mpr hlen)
  have hsave : ∀ r, a.store.save crc ⟨time, metadata, io.save⟩ = r → io.opens = true →
      a.saveState crc time metadata io = (⟨{ a.bd with bda := r.1.bda }, r.1.disk⟩, r.2) := by
    rintro r rfl ho
    rw [AttachedDev.saveState, if_pos ho]
    rfl
  rcases Bool.eq_false_or_eq_true io.opens with ho | ho
  · by_cases hclean : io.save = ⟨none, none⟩
    · right
      have hdone : a.store.save crc ⟨time, metadata, io.save⟩ = _ :=
        DeviceStore.save_done hf ht hr hclean
      refine ⟨_, hsave _ hdone ho, rfl, ?_, ?_⟩
      · exact DeviceStore.represents_completed (c := ⟨time, metadata, io.save⟩) hf ht hr
          (by rw [hclean])
      · exact DeviceStore.reloadable_completed (c := ⟨time, metadata, io.save⟩) hf hrel ht hne hr
          (by rw [hclean])
    · left
      have hzero := (hio.resolve_left (by simp [ho])).resolve_right hclean
      have hfault : a.store.save crc ⟨time, metadata, io.save⟩ = _ :=
        DeviceStore.save_fault hf ht hr hclean
      rw [DeviceStore.disk_cut_zero (c := ⟨time, metadata, io.save⟩) hf ht hr hzero] at hfault
      exact hsave _ hfault ho
  · left
    rw [AttachedDev.saveState, if_neg (by simp [ho])]

end AttachedDev

namespace AttachedMgr

def mgr (m : AttachedMgr) : BlockDevMgr := ⟨m.devs.map (·.bd), m.lastUpdateTime⟩

/-- The clock, or one nanosecond past the last save if the clock is not past it. -/
def stampTime (m : AttachedMgr) (now : DateTime) : StratisResult DateTime :=
  match m.lastUpdateTime with
  | none => .ok now
  | some last =>
    if now ≤ last then
      match last.addNanosecond with
      | some stamp => .ok stamp
      | none => .panic
    else .ok now

variable (crc : List UInt8 → UInt32)

/-- Write the metadata to the targets. The devices do not depend on each other, so the
order in which they are drawn does not matter. -/
def saveState (m : AttachedMgr) (metadata : List UInt8) (env : SaveEnv) :
    AttachedMgr × SaveReport :=
  match m.stampTime env.now with
  | .ok stamp =>
    let tried := m.devs.map fun a => (a.bd.uuid, a.saveIfTarget crc stamp metadata env)
    let devs := tried.map (·.2.1)
    let results := tried.filterMap fun t => t.2.2.map fun r => (t.1, r)
    if results.any (·.2 = .panic) then (⟨devs, m.lastUpdateTime⟩, ⟨.panic, some stamp, results⟩)
    else if results.any (·.2.isOk) then (⟨devs, some stamp⟩, ⟨.ok (), some stamp, results⟩)
    else (⟨devs, m.lastUpdateTime⟩,
      ⟨.err (.msg "Failed to save metadata to even one device in pool"), some stamp, results⟩)
  | .err e => (m, ⟨.err e, none, []⟩)
  | .panic => (m, ⟨.panic, none, []⟩)

end AttachedMgr

end Stratisd.Backstore
