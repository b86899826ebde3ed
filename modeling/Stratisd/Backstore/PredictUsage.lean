import Mathlib.Algebra.Order.BigOperators.Group.List
import Stratisd.Backstore.AllocSpec
import Stratisd.Backstore.Tiers
import Stratisd.Backstore.Vetting

/-! The prediction that `stratis-predict-usage` makes of the space in a pool, before the pool is
there, and the space in the manager of the devices when it is. -/

namespace Stratisd.Devices

open Run Run.Outcome Run.Stateful Engine Metadata Backstore List

/-- Bytes that the headers of an encrypted device take: two copies of the metadata and the area
for the keyslots. -/
def cryptMetadataSize : ℕ := 2 * 16384 + 16744448

/-- What is printed, in bytes. -/
structure Usage where
  total : ℕ
  used : ℕ
  free : ℕ
  deriving DecidableEq

variable (overflowChecks : Bool) (blkdevSize : String → StratisResult ℕ)

/-- Predict the space in a pool on the given devices. Each device is counted as often as it is
given. -/
def predictUsage (encrypted : Bool) (devices : List String) : StratisResult Usage := do
  let cryptSize := if encrypted then cryptMetadataSize else 0
  let cryptSectors := cryptSize / sectorSize
  if cryptSectors * sectorSize ≠ cryptSize then .panic
  else do
    let stratisSectors := BDA.default.extendedSize
    let sizes ← Outcome.collect (fun device => do
      let size ← blkdevSize device
      .ok (size / sectorSize)) devices
    let stratisDeviceSizes ← Outcome.collect (subU64 overflowChecks · cryptSectors) sizes
    let stratisAvailSizes ←
      Outcome.collect (subU64 overflowChecks · stratisSectors) stratisDeviceSizes
    let usedSize ← subU64 overflowChecks sizes.sum stratisAvailSizes.sum
    .ok ⟨sizes.sum * sectorSize, usedSize * sectorSize, stratisAvailSizes.sum * sectorSize⟩

def sectorsOf (device : String) : ℕ :=
  match blkdevSize device with
  | .ok size => size / sectorSize
  | _ => 0

variable {overflowChecks blkdevSize}

theorem sectorsOf_of_ok {device : String} {size : ℕ} (h : blkdevSize device = .ok size) :
    sectorsOf blkdevSize device = size / sectorSize := by
  simp [sectorsOf, h]

/-- No subtraction underflows for devices with room for the metadata. -/
theorem predictUsage_eq {devices : List String}
    (hsize : ∀ device ∈ devices, ∃ size, blkdevSize device = .ok size)
    (hroom : ∀ device ∈ devices, BDA.default.extendedSize ≤ sectorsOf blkdevSize device) :
    predictUsage overflowChecks blkdevSize false devices = .ok
      ⟨(devices.map (sectorsOf blkdevSize)).sum * sectorSize,
        (devices.map fun _ => BDA.default.extendedSize).sum * sectorSize,
        (devices.map fun device => sectorsOf blkdevSize device - BDA.default.extendedSize).sum *
          sectorSize⟩ := by
  have hsizes : collect (fun device => do
      let size ← blkdevSize device
      .ok (size / sectorSize)) devices = .ok (devices.map (sectorsOf blkdevSize)) := by
    refine collect_eq_map fun device hdevice => ?_
    obtain ⟨size, hs⟩ := hsize device hdevice
    rw [sectorsOf_of_ok hs, hs, ok_bind]
  have hplain : collect (subU64 overflowChecks · 0)
      (devices.map (sectorsOf blkdevSize)) = .ok (devices.map (sectorsOf blkdevSize)) := by
    rw [collect_eq_map (g := id) fun s _ => subU64_of_le (Nat.zero_le s), map_id]
  have havail : collect (subU64 overflowChecks · BDA.default.extendedSize)
      (devices.map (sectorsOf blkdevSize)) =
        .ok (devices.map fun d => sectorsOf blkdevSize d - BDA.default.extendedSize) := by
    rw [collect_eq_map (g := (· - BDA.default.extendedSize)), map_map]
    · rfl
    · intro s hs
      obtain ⟨device, hdevice, rfl⟩ := mem_map.mp hs
      exact subU64_of_le (hroom device hdevice)
  -- the sizes are what is left of them and the metadata
  have htotal : (devices.map (sectorsOf blkdevSize)).sum =
      (devices.map fun d => sectorsOf blkdevSize d - BDA.default.extendedSize).sum +
        (devices.map fun _ => BDA.default.extendedSize).sum := by
    rw [← sum_map_add]
    exact congrArg List.sum (map_congr_left fun device hdevice =>
      (Nat.sub_add_cancel (hroom device hdevice)).symm)
  have hused : subU64 overflowChecks (devices.map (sectorsOf blkdevSize)).sum
      (devices.map fun d => sectorsOf blkdevSize d - BDA.default.extendedSize).sum =
        .ok (devices.map fun _ => BDA.default.extendedSize).sum := by
    rw [htotal, subU64_of_le (Nat.le_add_right _ _), Nat.add_sub_cancel_left]
  simp only [predictUsage, Bool.false_eq_true, if_false, Nat.zero_div, Nat.zero_mul, ne_eq,
    not_true_eq_false, hsizes, hplain, havail, hused, ok_bind]

/-! ### The manager of the devices -/

section manager

variable {io : PrepareIo} {poolUuid : PoolUuid} {headers headers' : Headers}
  {paths : List String} {infos : List DeviceInfo} {bds : List Placed}

/-- How a device that is not encrypted is. -/
def plain : EncryptionInfo := ⟨none, none⟩

/-- The sizes of a device that has been made for a path, with so many sectors of metadata. -/
structure Measured (metadataSize : ℕ) (info : DeviceInfo) (bd : Placed) : Prop where
  total : bd.dev.totalSize = .ok (info.size / sectorSize)
  metadata : bd.dev.metadataSize = metadataSize
  available : bd.dev.available + metadataSize = info.size / sectorSize

theorem measured_of_initializeOne {one : InitOneIo} {info : DeviceInfo} {bd : Placed}
    (hsize : info.size < u64Bound)
    (h : initializeOne one poolUuid .default plain info headers = (headers', .ok bd)) :
    Measured BDA.default.extendedSize info bd := by
  have hplain : ¬plain.isEncrypted = true := by decide
  rw [initializeOne, if_neg hplain] at h
  obtain ⟨_, path, hlift, h⟩ := bind_eq_ok.mp h
  obtain ⟨_, dev, hmeta, h⟩ := bind_eq_ok.mp h
  rw [rescue_eq_ok (cleanUp_ne_ok _ _ _ _)] at hmeta
  obtain ⟨hnew, -⟩ := initializeStratisMetadata_eq_ok hmeta
  cases h
  have hbound : (BDA.new ⟨poolUuid, one.devUuid⟩ .default (info.size / sectorSize)
      one.timestamp).devSize < u64Bound := (Nat.div_le_self _ _).trans_lt hsize
  obtain ⟨hholds, hidentity⟩ := StratBlockDev.holds_of_new hbound hnew
  have hbda : dev.bda = BDA.new ⟨poolUuid, one.devUuid⟩ .default (info.size / sectorSize)
      one.timestamp := congrArg (·.2.1) hidentity
  obtain ⟨havailable, htotal⟩ := hholds.account
  have hmetadata : dev.metadataSize = BDA.default.extendedSize := by
    rw [StratBlockDev.metadataSize, hbda]
    rfl
  rw [hmetadata, hbda] at havailable
  rw [hbda] at htotal
  exact ⟨htotal, hmetadata, havailable⟩

theorem measured_of_initializeFrom {initialized : List Placed}
    (hsize : ∀ info ∈ infos, info.size < u64Bound)
    (h : initializeFrom io poolUuid .default plain initialized infos headers =
      (headers', .ok bds)) :
    ∃ new, bds = initialized ++ new ∧
      List.Forall₂ (Measured BDA.default.extendedSize) infos new := by
  induction infos generalizing initialized headers with
  | nil =>
    cases h
    exact ⟨[], (append_nil _).symm, .nil⟩
  | cons info infos ih =>
    obtain ⟨headers₁, bd, hone, h⟩ := initializeFrom_cons_eq_ok.mp h
    obtain ⟨new, rfl, hall⟩ := ih (fun info hinfo => hsize info (mem_cons_of_mem _ hinfo)) h
    exact ⟨bd :: new, by simp,
      .cons (measured_of_initializeOne (hsize info mem_cons_self) hone) hall⟩

theorem manager_sizes {metadataSize : ℕ}
    (hmeasured : List.Forall₂ (Measured metadataSize) infos bds)
    (hsectors : infos.map (·.size / sectorSize) = paths.eraseDups.map (sectorsOf blkdevSize)) :
    let m : BlockDevMgr := ⟨bds.map (·.dev), none⟩
    m.size = .ok (paths.eraseDups.map (sectorsOf blkdevSize)).sum ∧
      m.metadataSize = (paths.eraseDups.map fun _ => metadataSize).sum ∧
      m.availSpace = (paths.eraseDups.map fun path =>
        sectorsOf blkdevSize path - metadataSize).sum := by
  intro m
  have htotal : collect (·.totalSize) m.blockDevs =
      .ok (infos.map (·.size / sectorSize)) := by
    rw [collect_eq_ok, forall₂_map_left_iff, forall₂_map_right_iff]
    exact (hmeasured.imp fun _ _ h => h.total).flip
  have hmetadata : m.blockDevs.map (·.metadataSize) =
      infos.map fun _ => metadataSize := by
    rw [map_map]
    exact map_eq_of_forall₂ (hmeasured.imp fun _ _ h => h.metadata).flip
  have havailable : m.blockDevs.map (·.available) =
      (infos.map (·.size / sectorSize)).map (· - metadataSize) := by
    rw [map_map, map_map]
    exact map_eq_of_forall₂
      (hmeasured.imp fun _ _ h => Nat.eq_sub_of_add_eq h.available).flip
  have hlength : infos.length = paths.eraseDups.length := by
    simpa using congrArg List.length hsectors
  refine ⟨?_, ?_, ?_⟩
  · rw [BlockDevMgr.size, htotal, ok_bind, hsectors]
  · rw [BlockDevMgr.metadataSize, hmetadata, map_const', map_const', hlength]
  · rw [BlockDevMgr.availSpace, havailable, hsectors, map_map]
    rfl

end manager

theorem eraseDups_perm_dedup (paths : List String) : paths.eraseDups.Perm paths.dedup :=
  (perm_ext_iff_of_nodup (nodup_eraseDups paths) (nodup_dedup paths)).mpr fun path => by
    rw [mem_eraseDups, mem_dedup]

theorem nodup_of_sum_eraseDups {paths : List String} {f : String → ℕ}
    (hpos : ∀ path ∈ paths, 0 < f path)
    (h : (paths.map f).sum = (paths.eraseDups.map f).sum) : paths.Nodup := by
  obtain ⟨again, hall⟩ := (dedup_sublist paths).exists_perm_append
  have hsum := (hall.map f).sum_eq
  rw [map_append, sum_append, h, ((eraseDups_perm_dedup paths).map f).sum_eq] at hsum
  -- what is given once more has no sectors, so it is nothing
  have hnone : again = [] := by
    cases again with
    | nil => rfl
    | cons path again =>
      have hpath := hpos path (hall.mem_iff.mpr (by simp))
      rw [map_cons, sum_cons] at hsum
      omega
  rw [hnone, append_nil] at hall
  exact hall.nodup_iff.mpr (nodup_dedup paths)

/-- The sizes of the devices as they are read for the two of them. -/
theorem sized_of_verified {io : PrepareIo} {poolUuid : PoolUuid} {headers : Headers}
    {paths : List String} {infos : List DeviceInfo}
    (hverified : processAndVerifyDevices io.node headers poolUuid [] paths = .ok infos)
    (hsize : ∀ path ∈ paths, ∀ size, (io.node path).size = .ok size →
      size < u64Bound ∧ blkdevSize path = .ok size) :
    List.Forall₂ (fun path info => info.size < u64Bound ∧ blkdevSize path = .ok info.size)
      paths.eraseDups infos := by
  have hboth := (forall₂_and_left _ _).mpr
    ⟨fun path hpath => hsize path (mem_eraseDups.mp hpath), processed_of_verified hverified⟩
  refine hboth.imp fun path info h => ?_
  obtain ⟨-, hinfo⟩ := processDevice_eq_ok.mp h.2
  obtain ⟨_, -, -, hread, -⟩ := devInfo_eq_ok.mp hinfo
  exact h.1 info.size hread

/-- What is known of the sizes after the devices have been prepared. -/
theorem sizes_of_prepared {io : PrepareIo} {poolUuid : PoolUuid} {headers headers' : Headers}
    {paths : List String} {bds : List Placed}
    (hinit : prepareDevices io poolUuid .default plain paths headers = (headers', .ok bds))
    (hsize : ∀ path ∈ paths, ∀ size, (io.node path).size = .ok size →
      size < u64Bound ∧ blkdevSize path = .ok size) :
    (∀ path ∈ paths, ∃ size, blkdevSize path = .ok size) ∧
      (∀ path ∈ paths, BDA.default.extendedSize ≤ sectorsOf blkdevSize path) ∧
      ∃ infos, List.Forall₂ (Measured BDA.default.extendedSize) infos bds ∧
        infos.map (·.size / sectorSize) = paths.eraseDups.map (sectorsOf blkdevSize) := by
  rw [prepareDevices, get_bind] at hinit
  obtain ⟨_, infos, hlift, hinit⟩ := bind_eq_ok.mp hinit
  obtain ⟨hverified, rfl⟩ := lift_eq_ok hlift
  have hsized := sized_of_verified hverified hsize
  have hbound : ∀ info ∈ infos, info.size < u64Bound := by
    intro info hinfo
    obtain ⟨path, -, h⟩ := exists_of_forall₂ hsized.flip hinfo
    exact h.1
  obtain ⟨new, hnew, hmeasured⟩ := measured_of_initializeFrom hbound hinit
  rw [nil_append] at hnew
  subst hnew
  have hdevice : ∀ path ∈ paths, ∃ info ∈ infos, blkdevSize path = .ok info.size := by
    intro path hpath
    obtain ⟨info, hinfo, -, h⟩ :=
      exists_of_forall₂ hsized (mem_eraseDups.mpr hpath)
    exact ⟨info, hinfo, h⟩
  refine ⟨fun path hpath => ?_, fun path hpath => ?_, infos, hmeasured, ?_⟩
  · obtain ⟨info, -, h⟩ := hdevice path hpath
    exact ⟨info.size, h⟩
  · obtain ⟨info, hinfo, h⟩ := hdevice path hpath
    obtain ⟨bd, -, hbd⟩ := exists_of_forall₂ hmeasured hinfo
    rw [sectorsOf_of_ok h, ← hbd.available]
    exact Nat.le_add_left _ _
  · exact map_eq_of_forall₂
      (hsized.imp fun path info h => (sectorsOf_of_ok h.2).symm).flip

/-- The prediction for devices that are not encrypted is what the manager of the devices then
has, if and only if no path is given twice: the manager takes each path once. -/
theorem predictUsage_exact_iff {io : PrepareIo} {poolUuid : PoolUuid} {headers headers' : Headers}
    {paths : List String} {bds : List Placed} (overflowChecks : Bool)
    (hinit : prepareDevices io poolUuid .default plain paths headers = (headers', .ok bds))
    (hsize : ∀ path ∈ paths, ∀ size, (io.node path).size = .ok size →
      size < u64Bound ∧ blkdevSize path = .ok size) :
    (∃ m total, BlockDevMgr.initializeMgr (.ok (bds.map (·.dev))) = .ok m ∧ m.size = .ok total ∧
        predictUsage overflowChecks blkdevSize false paths =
          .ok ⟨total * sectorSize, m.metadataSize * sectorSize, m.availSpace * sectorSize⟩) ↔
      paths.Nodup := by
  obtain ⟨hread, hroom, infos, hmeasured, hsectors⟩ := sizes_of_prepared hinit hsize
  obtain ⟨htotal, hmetadata, havailable⟩ := manager_sizes hmeasured hsectors
  rw [predictUsage_eq hread hroom]
  constructor
  · rintro ⟨m, total, hm, hsum, hpredicted⟩
    cases hm
    cases htotal.symm.trans hsum
    have hbytes := congrArg Usage.total (Outcome.ok.inj hpredicted)
    have hpos : ∀ path ∈ paths, 0 < sectorsOf blkdevSize path := fun path hpath =>
      Nat.lt_of_lt_of_le (by decide) (hroom path hpath)
    exact nodup_of_sum_eraseDups hpos (Nat.eq_of_mul_eq_mul_right (by decide) hbytes)
  · intro hnodup
    have hperm : paths.eraseDups.Perm paths := by
      have h := eraseDups_perm_dedup paths
      rwa [List.dedup_eq_self.mpr hnodup] at h
    refine ⟨_, _, rfl, htotal, ?_⟩
    rw [hmetadata, havailable, (hperm.map _).sum_eq, (hperm.map _).sum_eq, (hperm.map _).sum_eq]

/-! ### One device of 1 GiB -/

/-- A device that nobody owns and that can be set up. -/
def blankDevice : PrepareIo where
  node := fun _ => ⟨.ok (some (.ok .unowned, some ⟨8, 16⟩, none)), .ok (2 ^ 30), none⟩
  one := fun _ =>
    { devUuid := ⟨1⟩, devicePath := .ok "/dev/sdb", cryptInitialize := .ok (), formatted := false,
      logicalDeviceSize := .err .io, mapDeviceNums := .err .io, openMetadata := .ok (),
      timestamp := 0, bdaInitialize := .ok (), written := false, wipe := .ok () }
  disown := fun _ => .ok ()

/-- The devices that are prepared for a request. -/
def preparedFrom (paths : List String) : StratisResult (List Placed) :=
  (prepareDevices blankDevice ⟨0⟩ .default plain paths fun _ => none).2

/-- The prediction for the device is right. -/
theorem predictUsage_exact_once :
    ∃ bds, preparedFrom ["/dev/sdb"] = .ok bds ∧
      ∃ m total, BlockDevMgr.initializeMgr (.ok (bds.map (·.dev))) = .ok m ∧
        m.size = .ok total ∧
        predictUsage true (fun _ => .ok (2 ^ 30)) false ["/dev/sdb"] =
          .ok ⟨total * sectorSize, m.metadataSize * sectorSize, m.availSpace * sectorSize⟩ := by
  obtain ⟨bds, hbds⟩ : ∃ bds, preparedFrom ["/dev/sdb"] = .ok bds :=
    Outcome.isOk_iff.mp (by decide +kernel)
  refine ⟨bds, hbds, ?_⟩
  refine (predictUsage_exact_iff true (Prod.ext rfl hbds) ?_).mpr (List.nodup_singleton _)
  rintro path - size hsize
  cases hsize
  exact ⟨by decide, rfl⟩

/-- A path that is given twice is one device, and is predicted to be two. -/
theorem predictUsage_counts_twice :
    (∃ bds, preparedFrom ["/dev/sdb", "/dev/sdb"] = .ok bds ∧
      (BlockDevMgr.mk (bds.map (·.dev)) none).size = .ok (2 ^ 30 / sectorSize)) ∧
      ∃ usage, predictUsage true (fun _ => .ok (2 ^ 30)) false ["/dev/sdb", "/dev/sdb"] =
        .ok usage ∧ usage.total = 2 * 2 ^ 30 := by
  decide +kernel

end Stratisd.Devices
