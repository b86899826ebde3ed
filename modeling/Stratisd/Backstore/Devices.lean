import Stratisd.Backstore.BlockDevMgr
import Stratisd.Engine.Keys
import Stratisd.Run.Stateful

/-! Devices that are to be given to a pool: which of them can be used, and the headers that are
written to them. Of what is on the physical devices the model keeps the header that identifies
each, by device number; the contents of a header are the business of the metadata and of the
encryption. A string stands for the path that it is parsed to, so two of them are equal if and
only if their components are. -/

namespace Stratisd.Devices

open Run Run.Stateful Engine Metadata Backstore List Function

/-- The header by which a device is recognized. -/
inductive Header where
  /-- The static header of a device that is not encrypted. -/
  | stratis (ids : StratisIdentifiers)
  /-- The header of an encrypted device, whose static header is inside. -/
  | luks2 (ids : StratisIdentifiers)
  deriving DecidableEq

def Header.ids : Header → StratisIdentifiers
  | .stratis ids => ids
  | .luks2 ids => ids

/-- The headers of the physical devices. -/
abbrev Headers := Device → Option Header

/-- What can be read from the start of a device. -/
def deviceIdentifiers (headers : Headers) (devno : Device) : Option StratisIdentifiers :=
  match headers devno with
  | some (.stratis ids) => some ids
  | _ => none

abbrev M := Stateful Headers StratisError

/-! ### Which devices can be used -/

inductive UdevOwnership where
  | luks
  | multipathMember
  | stratis
  | theirs
  | unowned
  deriving DecidableEq

def UdevOwnership.display : UdevOwnership → String
  | .luks => "LUKS encrypted block device"
  | .multipathMember => "member of a multipath block device"
  | .stratis => "Stratis block device"
  | .theirs => "block device which appears to be owned"
  | .unowned => "block device which appears to be unowned"

/-- What the system says about a device node. Errors are given by their texts. -/
structure NodeIo where
  /-- The entry in the udev database: who owns the device, its number and its `ID_WWN`. -/
  udev : Except String
    (Option (Except String UdevOwnership × Option Device × Option (StratisResult String)))
  /-- The size in bytes of the device, if it can be opened. -/
  size : Except String ℕ
  /-- Why the identifiers can not be read. -/
  unreadable : Option String

/-- The number of the device that a device node is for. -/
def NodeIo.devnum (io : NodeIo) : Option Device :=
  match io.udev with
  | .ok (some (_, devnum, _)) => devnum
  | _ => none

def udevInfo (io : NodeIo) (devnode : String) :
    Except String (UdevOwnership × Device × Option (StratisResult String)) :=
  match io.udev with
  | .error err => .error s!"Could not obtain udev information for block device {devnode}: {err}"
  | .ok none => .error
      (s!"Could not obtain udev information for block device {devnode}: " ++
        s!"Block device {devnode} could not be found in the udev database")
  | .ok (some (_, none, _)) => .error
      s!"Insufficient information: no device number found for device {devnode} using udev"
  | .ok (some (.error err, some _, _)) => .error
      s!"Could not obtain ownership information for device {devnode} using udev: {err}"
  | .ok (some (.ok ownership, some devnum, idWwn)) => .ok (ownership, devnum, idWwn)

/-- The `ID_WWN`, the size, the identifiers and the number of a device. -/
def devInfo (io : NodeIo) (headers : Headers) (devnode : String) :
    Except String (Option (StratisResult String) × ℕ × Option StratisIdentifiers × Device) := do
  let (ownership, devnum, hwId) ← udevInfo io devnode
  if ownership ∈ [.luks, .multipathMember, .theirs] then
    .error s!"udev information indicates that device {devnode} is a {ownership.display}"
  else do
    let devSize ← io.size
    match io.unreadable with
    | some err =>
      .error (s!"There was an error reading Stratis metadata from device {devnode}; " ++
        s!"the device is unsuitable for initialization: {err}")
    | none =>
      let identifiers := deviceIdentifiers headers devnum
      if ownership = .stratis ∧ identifiers = none then
        .error (s!"udev identified device {devnode} as a Stratis device but device metadata " ++
          "does not show that it is a Stratis device")
      else .ok (hwId, devSize, identifiers, devnum)

structure DeviceInfo where
  devno : Device
  devnode : String
  idWwn : Option (StratisResult String)
  /-- The size in bytes. -/
  size : ℕ
  deriving DecidableEq

def joinNodes (infos : List DeviceInfo) : String :=
  String.intercalate ", " (infos.map (·.devnode))

/-- Information about one of the devices of a request. -/
def processDevice (io : NodeIo) (headers : Headers) (devnode : String) :
    StratisResult (DeviceInfo × Option StratisIdentifiers) :=
  match devInfo io headers devnode with
  | .ok (idWwn, size, identifiers, devno) => .ok (⟨devno, devnode, idWwn, size⟩, identifiers)
  | .error err => .err (.msg
      s!"At least one of the devices specified was unsuitable for initialization: {err}")

/-- Device numbers that several of the devices have. -/
def duplicateDeviceNumberMessages (infos : List DeviceInfo) : List String :=
  (infos.map (·.devno)).eraseDups.filterMap fun devno =>
    let same := infos.filter (·.devno = devno)
    if same.length > 1 then
      some s!"device nodes {joinNodes same} correspond to device number {devno.major}:{devno.minor}"
    else none

/-- Every path once, in the order of the request. -/
def processDevices (io : String → NodeIo) (headers : Headers) (paths : List String) :
    StratisResult (List (DeviceInfo × Option StratisIdentifiers)) := do
  let infos ← Outcome.collect (fun path => processDevice (io path) headers path) paths.eraseDups
  let messages := duplicateDeviceNumberMessages (infos.map (·.1))
  if messages ≠ [] then .err (.msg
    ("At least two of the devices specified have the same device number: " ++
      "; ".intercalate messages))
  else .ok infos

/-- Devices that are in the pool already are left out; those of other pools, and those of this
pool that are not in the tier, can not be used. -/
def checkDeviceIds (poolUuid : PoolUuid) (currentUuids : List DevUuid)
    (devices : List (DeviceInfo × Option StratisIdentifiers)) : StratisResult (List DeviceInfo) :=
  let stratisDevices := devices.filterMap fun d => d.2.map fun ids => (d.1, ids)
  let others := stratisDevices.filter (·.2.poolUuid ≠ poolUuid)
  let notIncluded := stratisDevices.filter fun d =>
    d.2.poolUuid = poolUuid ∧ d.2.deviceUuid ∉ currentUuids
  if others ≠ [] then
    let inUse := (others.map (·.2.poolUuid)).eraseDups.map fun uuid =>
      let devs := (others.filter (·.2.poolUuid = uuid)).map (·.1)
      s!"devices ({joinNodes devs}) appear to belong to Stratis pool with UUID {displayUuid uuid.val}"
    .err (.msg
      ("Some devices specified appear to be already in use by other Stratis pools: " ++
        "; ".intercalate inUse))
  else if notIncluded ≠ [] then
    let devs := notIncluded.map (·.1)
    .err (.msg (s!"Devices ({joinNodes devs}) appear to be already in use by this pool " ++
      s!"which has UUID {displayUuid poolUuid.val}; they may be in use by the other tier"))
  else .ok (devices.filterMap fun d => if d.2 = none then some d.1 else none)

/-- The smallest device that can be used, in bytes. -/
def minDevSize : ℕ := 2 ^ 30

def checkSize (info : DeviceInfo) : StratisResult DeviceInfo :=
  if info.size < minDevSize then .err (.msg
    (s!"Device {info.devnode} is {info.size} bytes which is smaller than the minimum required " ++
      s!"size for a Stratis blockdev, {minDevSize} bytes"))
  else .ok info

def processAndVerifyDevices (io : String → NodeIo) (headers : Headers) (poolUuid : PoolUuid)
    (currentUuids : List DevUuid) (paths : List String) : StratisResult (List DeviceInfo) := do
  let devices ← processDevices io headers paths
  let infos ← checkDeviceIds poolUuid currentUuids devices
  Outcome.collect checkSize infos

/-! ### Writing the headers -/

/-- What a block device is on: the path that it was given, made canonical, and the number of the
physical device. -/
structure UnderlyingDevice where
  physicalPath : String
  physical : Device
  encrypted : Bool
  deriving DecidableEq

/-- A block device with what it is on. -/
structure Placed where
  dev : StratBlockDev
  underlying : UnderlyingDevice

/-- The answers of the system while one device is set up. -/
structure InitOneIo where
  /-- The UUID that is generated for the device. -/
  devUuid : DevUuid
  /-- The canonical path of the device node. -/
  devicePath : StratisResult String
  cryptInitialize : StratisResult Unit
  /-- Whether there is a LUKS2 header after `CryptInitializer::initialize` has failed. -/
  formatted : Bool
  logicalDeviceSize : StratisResult ℕ
  mapDeviceNums : StratisResult Device
  openMetadata : StratisResult Unit
  timestamp : ℕ
  bdaInitialize : StratisResult Unit
  /-- Whether there is a static header after `BDA::initialize` has failed. -/
  written : Bool
  wipe : StratisResult Unit

def write (devno : Device) (header : Header) : M Unit :=
  Stateful.modify fun headers => Function.update headers devno (some header)

/-- The header if it has come to it. -/
def writeIf (written : Bool) (devno : Device) (header : Header) : M Unit :=
  if written then write devno header else pure ()

def erase (devno : Device) : M Unit :=
  Stateful.modify fun headers => Function.update headers devno none

/-- The path, and the number and the size of the device inside. -/
def initializeEncrypted (io : InitOneIo) (ids : StratisIdentifiers) (devno : Device) :
    M (String × Device × ℕ) := do
  let path ← Stateful.lift io.devicePath
  match io.cryptInitialize with
  | .err e => do
    writeIf io.formatted devno (.luks2 ids)
    Stateful.lift (.err e)
  | .panic => Stateful.lift .panic
  | .ok () => do
    write devno (.luks2 ids)
    match io.logicalDeviceSize with
    | .err e => do
      let _ ← Stateful.attempt (do
        Stateful.lift io.wipe
        erase devno)
      Stateful.lift (.err e)
    | .panic => Stateful.lift .panic
    | .ok size => do
      let logical ← Stateful.lift io.mapDeviceNums
      pure (path, logical, size)

/-- An encrypted device has no hardware identifier. -/
def hwId (encrypted : Bool) (idWwn : Option (StratisResult String)) : Option String :=
  match encrypted, idWwn with
  | false, some (.ok hwId) => some hwId
  | _, _ => none

/-- Write the static header. The one of an encrypted device is inside, and not on the physical
device. -/
def initializeStratisMetadata (io : InitOneIo) (ids : StratisIdentifiers)
    (mdaDataSize : MDADataSize) (info : DeviceInfo) (encrypted : Bool) (devno : Device) (size : ℕ) :
    M StratBlockDev := do
  Stateful.lift io.openMetadata
  match io.bdaInitialize with
  | .err e => do
    writeIf (!encrypted && io.written) info.devno (.stratis ids)
    Stateful.lift (.err e)
  | .panic => Stateful.lift .panic
  | .ok () => do
    writeIf (!encrypted) info.devno (.stratis ids)
    Stateful.lift (StratBlockDev.new devno (BDA.new ids mdaDataSize size io.timestamp) [] none
      (hwId encrypted info.idWwn))

/-- Clean up a device that could not be set up, and report why. -/
def cleanUp {α : Type} (io : InitOneIo) (kind path : String) (devno : Device)
    (causalError : StratisError) : M α :=
  match io.wipe with
  | .ok () => do
    erase devno
    Stateful.lift (.err causalError)
  | .err e => Stateful.lift (.err (.chained
      (s!"Failed to clean up {kind} device {path}; cleanup was attempted because " ++
        "initialization of the device failed") (.noActionRollback causalError e)))
  | .panic => Stateful.lift .panic

def initializeOne (io : InitOneIo) (poolUuid : PoolUuid) (mdaDataSize : MDADataSize)
    (encryptionInfo : EncryptionInfo) (info : DeviceInfo) : M Placed := do
  let ids : StratisIdentifiers := ⟨poolUuid, io.devUuid⟩
  if encryptionInfo.isEncrypted then do
    let (path, devno, size) ← initializeEncrypted io ids info.devno
    let dev ← Stateful.rescue
      (initializeStratisMetadata io ids mdaDataSize info true devno size)
      (cleanUp io "encrypted" path info.devno)
    pure ⟨dev, path, info.devno, true⟩
  else do
    let path ← Stateful.lift io.devicePath
    let dev ← Stateful.rescue
      (initializeStratisMetadata io ids mdaDataSize info false info.devno (info.size / sectorSize))
      (cleanUp io "unencrypted" info.devnode info.devno)
    pure ⟨dev, path, info.devno, false⟩

/-- Wipe the headers of the devices. Those that can not be wiped are returned, and do not keep
the others from being wiped. -/
def wipeBlockdevs (disown : DevUuid → StratisResult Unit) :
    List Placed → M (List (String × StratisError))
  | [] => pure []
  | bd :: bds =>
    match disown bd.dev.uuid with
    | .ok () => do
      erase bd.underlying.physical
      wipeBlockdevs disown bds
    | .err e => do
      let unerased ← wipeBlockdevs disown bds
      pure ((bd.underlying.physicalPath, e) :: unerased)
    | .panic => Stateful.lift .panic

/-- The answers of the system while devices are prepared for a pool. -/
structure PrepareIo where
  node : String → NodeIo
  one : String → InitOneIo
  disown : DevUuid → StratisResult Unit

/-- Set up devices after those that have been set up already. If one can not be, all of those
are wiped. -/
def initializeFrom (io : PrepareIo) (poolUuid : PoolUuid) (mdaDataSize : MDADataSize)
    (encryptionInfo : EncryptionInfo) : List Placed → List DeviceInfo → M (List Placed)
  | initialized, [] => pure initialized
  | initialized, info :: infos => do
    let dev ← Stateful.rescue
      (initializeOne (io.one info.devnode) poolUuid mdaDataSize encryptionInfo info) fun err => do
        let _ ← wipeBlockdevs io.disown initialized
        Stateful.lift (.err err)
    initializeFrom io poolUuid mdaDataSize encryptionInfo (initialized ++ [dev]) infos

def initializeDevices (io : PrepareIo) (poolUuid : PoolUuid) (mdaDataSize : MDADataSize)
    (encryptionInfo : EncryptionInfo) (devices : List DeviceInfo) : M (List Placed) :=
  initializeFrom io poolUuid mdaDataSize encryptionInfo [] devices

/-- What `BlockDevMgr::initialize` does before there is a manager. -/
def prepareDevices (io : PrepareIo) (poolUuid : PoolUuid) (mdaDataSize : MDADataSize)
    (encryptionInfo : EncryptionInfo) (paths : List String) : M (List Placed) := do
  let headers ← Stateful.get
  let devices ← Stateful.lift (processAndVerifyDevices io.node headers poolUuid [] paths)
  initializeDevices io poolUuid mdaDataSize encryptionInfo devices

/-! ### Devices that have been accepted -/

section accepted

variable {node : String → NodeIo} {headers headers' : Headers} {paths : List String}
  {io : NodeIo} {ids : Option StratisIdentifiers}

theorem devInfo_eq_ok {devnode : String} {hwId : Option (StratisResult String)} {size : ℕ}
    {devno : Device} :
    devInfo io headers devnode = .ok (hwId, size, ids, devno) ↔
      ∃ ownership, udevInfo io devnode = .ok (ownership, devno, hwId) ∧
        ownership ∉ [.luks, .multipathMember, .theirs] ∧ io.size = .ok size ∧
        io.unreadable = none ∧ ids = deviceIdentifiers headers devno ∧
        ¬ (ownership = .stratis ∧ ids = none) := by
  unfold devInfo
  cases hudev : udevInfo io devnode with
  | error err => simp [bind, Except.bind]
  | ok found =>
    obtain ⟨ownership, devnum, hw⟩ := found
    by_cases howner : ownership ∈ [.luks, .multipathMember, .theirs]
    · simp only [bind, Except.bind, if_pos howner]
      constructor
      · intro h
        cases h
      · rintro ⟨_, h, hn, -⟩
        cases h
        exact absurd howner hn
    · simp only [bind, Except.bind, if_neg howner]
      cases io.size with
      | error err => simp
      | ok n =>
        cases io.unreadable with
        | some err => simp
        | none =>
          dsimp only
          split_ifs with hstratis
          · constructor
            · intro h
              cases h
            · rintro ⟨_, h, -, -, -, rfl, hn⟩
              cases h
              exact absurd hstratis hn
          · constructor
            · intro h
              cases h
              exact ⟨ownership, rfl, howner, rfl, rfl, rfl, hstratis⟩
            · rintro ⟨_, h, -, hn, -, rfl, -⟩
              cases h
              cases hn
              rfl

variable {path : String}

theorem processDevice_eq_ok {info : DeviceInfo} :
    processDevice io headers path = .ok (info, ids) ↔
      info.devnode = path ∧ devInfo io headers path = .ok (info.idWwn, info.size, ids, info.devno) := by
  unfold processDevice
  obtain ⟨devno, devnode, idWwn, size⟩ := info
  rcases devInfo io headers path with err | ⟨w, n, i, d⟩
  · simp
  · simp only [Outcome.ok.injEq, Prod.mk.injEq, DeviceInfo.mk.injEq, Except.ok.injEq]
    constructor
    · rintro ⟨⟨rfl, rfl, rfl, rfl⟩, rfl⟩
      exact ⟨rfl, rfl, rfl, rfl, rfl⟩
    · rintro ⟨rfl, rfl, rfl, rfl, rfl⟩
      exact ⟨⟨rfl, rfl, rfl, rfl⟩, rfl⟩

theorem devnum_of_udevInfo {ownership : UdevOwnership} {devno : Device}
    {hwId : Option (StratisResult String)} (h : udevInfo io path = .ok (ownership, devno, hwId)) :
    io.devnum = some devno := by
  unfold udevInfo at h
  split at h
  · cases h
  · cases h
  · cases h
  · cases h
  · rename_i hudev
    cases h
    rw [NodeIo.devnum, hudev]

theorem devnum_of_processDevice {info : DeviceInfo}
    (h : processDevice io headers path = .ok (info, ids)) :
    io.devnum = some info.devno := by
  obtain ⟨-, h⟩ := processDevice_eq_ok.mp h
  obtain ⟨ownership, hudev, -⟩ := devInfo_eq_ok.mp h
  exact devnum_of_udevInfo hudev

theorem processDevice_of_blank {info : DeviceInfo}
    (h : processDevice io headers path = .ok (info, none)) (hblank : headers' info.devno = none) :
    processDevice io headers' path = .ok (info, none) := by
  rw [processDevice_eq_ok, devInfo_eq_ok] at h ⊢
  obtain ⟨hnode, ownership, hudev, howner, hsize, hread, -, hstratis⟩ := h
  refine ⟨hnode, ownership, hudev, howner, hsize, hread, ?_, hstratis⟩
  rw [deviceIdentifiers, hblank]

variable {devices : List (DeviceInfo × Option StratisIdentifiers)}

theorem processDevices_eq_ok :
    processDevices node headers paths = .ok devices ↔
      List.Forall₂ (fun path d => processDevice (node path) headers path = .ok d) paths.eraseDups
        devices ∧ duplicateDeviceNumberMessages (devices.map (·.1)) = [] := by
  rw [processDevices, Outcome.bind_eq_ok, ← Outcome.collect_eq_ok]
  constructor
  · rintro ⟨infos, hcollect, h⟩
    by_cases hdup : duplicateDeviceNumberMessages (infos.map (·.1)) = []
    · cases (if_neg (not_not.mpr hdup)).symm.trans h
      exact ⟨hcollect, hdup⟩
    · cases (if_pos hdup).symm.trans h
  · rintro ⟨hcollect, hdup⟩
    exact ⟨devices, hcollect, if_neg (not_not.mpr hdup)⟩

variable {poolUuid : PoolUuid} {infos : List DeviceInfo}

theorem checkDeviceIds_eq_ok {currentUuids : List DevUuid} :
    checkDeviceIds poolUuid currentUuids devices = .ok infos ↔
      (∀ d ∈ devices, ∀ ids, d.2 = some ids →
        ids.poolUuid = poolUuid ∧ ids.deviceUuid ∈ currentUuids) ∧
        (devices.filterMap fun d => if d.2 = none then some d.1 else none) = infos := by
  have hmem : ∀ (p : DeviceInfo × StratisIdentifiers → Bool),
      ((devices.filterMap fun d => d.2.map fun ids => (d.1, ids)).filter p = [] ↔
        ∀ d ∈ devices, ∀ ids, d.2 = some ids → p (d.1, ids) = false) := by
    intro p
    simp only [filter_eq_nil_iff, mem_filterMap, Option.map_eq_some_iff]
    constructor
    · intro h d hd ids hids
      simpa using h (d.1, ids) ⟨d, hd, ids, hids, rfl⟩
    · rintro h _ ⟨d, hd, ids, hids, rfl⟩
      simp [h d hd ids hids]
  simp only [checkDeviceIds]
  split_ifs with hothers hnot
  · rw [ne_eq, hmem] at hothers
    simp only [false_iff, not_and]
    intro h
    exact absurd (fun d hd ids hids => by simp [(h d hd ids hids).1]) hothers
  · rw [ne_eq, hmem] at hnot
    simp only [false_iff, not_and]
    intro h
    exact absurd (fun d hd ids hids => by simp [(h d hd ids hids).2]) hnot
  · rw [ne_eq, not_not, hmem] at hothers hnot
    rw [Outcome.ok.injEq]
    refine (and_iff_right fun d hd ids hids => ?_).symm
    have hpool : ids.poolUuid = poolUuid := by simpa using hothers d hd ids hids
    exact ⟨hpool, by simpa [hpool] using hnot d hd ids hids⟩

theorem checkDeviceIds_new :
    checkDeviceIds poolUuid [] devices = .ok infos ↔
      devices = infos.map fun info => (info, none) := by
  rw [checkDeviceIds_eq_ok]
  constructor
  · rintro ⟨hids, rfl⟩
    induction devices with
    | nil => rfl
    | cons d devices ih =>
      have hd : d.2 = none := by
        rw [Option.eq_none_iff_forall_ne_some]
        exact fun ids h => absurd (hids d mem_cons_self ids h).2 not_mem_nil
      rw [filterMap_cons, if_pos hd, map_cons,
        ← ih fun d hd => hids d (mem_cons_of_mem _ hd), ← hd]
  · rintro rfl
    simp [filterMap_map]

theorem collect_checkSize {infos' : List DeviceInfo} :
    Outcome.collect checkSize infos = .ok infos' ↔
      infos' = infos ∧ ∀ info ∈ infos, minDevSize ≤ info.size := by
  have hone : ∀ info info' : DeviceInfo,
      checkSize info = .ok info' ↔ minDevSize ≤ info.size ∧ info = info' := by
    intro info info'
    unfold checkSize
    split_ifs with h
    · simpa using fun hle => absurd hle (Nat.not_le.mpr h)
    · simp [Nat.not_lt.mp h]
  simp only [Outcome.collect_eq_ok, hone, forall₂_and_left, forall₂_eq_eq_eq]
  exact ⟨fun h => ⟨h.2.symm, h.1⟩, fun h => ⟨h.2, h.1.symm⟩⟩

/-- The devices of a new pool are all new, whatever its UUID. -/
theorem processAndVerifyDevices_eq_ok :
    processAndVerifyDevices node headers poolUuid [] paths = .ok infos ↔
      processDevices node headers paths = .ok (infos.map fun info => (info, none)) ∧
        ∀ info ∈ infos, minDevSize ≤ info.size := by
  simp only [processAndVerifyDevices, Outcome.bind_eq_ok, checkDeviceIds_new, collect_checkSize]
  constructor
  · rintro ⟨devices, hdevices, infos', rfl, rfl, hsize⟩
    exact ⟨hdevices, hsize⟩
  · rintro ⟨hdevices, hsize⟩
    exact ⟨_, hdevices, infos, rfl, rfl, hsize⟩

theorem processAndVerifyDevices_of_blank {poolUuid' : PoolUuid}
    (h : processAndVerifyDevices node headers poolUuid [] paths = .ok infos)
    (hblank : ∀ info ∈ infos, headers' info.devno = none) :
    processAndVerifyDevices node headers' poolUuid' [] paths = .ok infos := by
  rw [processAndVerifyDevices_eq_ok, processDevices_eq_ok] at h ⊢
  obtain ⟨⟨hprocess, hdup⟩, hsize⟩ := h
  refine ⟨⟨?_, hdup⟩, hsize⟩
  rw [forall₂_map_right_iff] at hprocess ⊢
  have hboth := (forall₂_and_left _ _).mpr ⟨hblank, hprocess.flip⟩
  exact (hboth.imp fun info path h => processDevice_of_blank h.2 h.1).flip

theorem processed_of_verified
    (h : processAndVerifyDevices node headers poolUuid [] paths = .ok infos) : List.Forall₂
      (fun path info => processDevice (node path) headers path = .ok (info, none))
      paths.eraseDups infos := by
  have hprocess := (processDevices_eq_ok.mp (processAndVerifyDevices_eq_ok.mp h).1).1
  rwa [forall₂_map_right_iff] at hprocess

theorem devnodes_of_verified
    (h : processAndVerifyDevices node headers poolUuid [] paths = .ok infos) :
    infos.map (·.devnode) = paths.eraseDups := by
  rw [← map_id paths.eraseDups]
  exact Outcome.map_eq_of_forall₂
    ((processed_of_verified h).imp fun _ _ h => (processDevice_eq_ok.mp h).1).flip

end accepted

/-! ### Devices that have been set up -/

/-- The pool that the header of a device is for. -/
def signature (headers : Headers) (devno : Device) : Option PoolUuid :=
  (headers devno).map (·.ids.poolUuid)

/-- What is known of a device that has been set up. -/
structure SetUp (io : InitOneIo) (encryptionInfo : EncryptionInfo) (info : DeviceInfo)
    (bd : Placed) : Prop where
  physicalPath : io.devicePath = .ok bd.underlying.physicalPath
  physical : bd.underlying.physical = info.devno
  encrypted : bd.underlying.encrypted = encryptionInfo.isEncrypted
  uuid : bd.dev.uuid = io.devUuid

section setUp

variable {io : PrepareIo} {poolUuid : PoolUuid} {mdaDataSize : MDADataSize}
  {encryptionInfo : EncryptionInfo} {headers headers' : Headers}

theorem uuid_of_new {dev : Device} {bda : BDA} {segs : List Extent.Range}
    {userInfo hardwareInfo : Option String} {d : StratBlockDev}
    (h : StratBlockDev.new dev bda segs userInfo hardwareInfo = .ok d) : d.uuid = bda.devUuid := by
  obtain ⟨used, -, h⟩ := Outcome.bind_eq_ok.mp h
  cases h
  rfl

theorem initializeEncrypted_eq_ok {io : InitOneIo} {ids : StratisIdentifiers} {devno : Device}
    {r : String × Device × ℕ} (h : initializeEncrypted io ids devno headers = (headers', .ok r)) :
    io.devicePath = .ok r.1 ∧ headers' = update headers devno (some (.luks2 ids)) := by
  obtain ⟨_, path, hlift, h⟩ := bind_eq_ok.mp h
  obtain ⟨hpath, rfl⟩ := lift_eq_ok hlift
  cases hcrypt : io.cryptInitialize with
  | err e =>
    rw [hcrypt] at h
    obtain ⟨_, _, -, h⟩ := bind_eq_ok.mp h
    cases h
  | panic =>
    rw [hcrypt] at h
    cases h
  | ok u =>
    rw [hcrypt] at h
    cases hsize : io.logicalDeviceSize with
    | err e =>
      rw [hsize] at h
      obtain ⟨_, _, -, h⟩ := bind_eq_ok.mp h
      obtain ⟨_, _, -, h⟩ := bind_eq_ok.mp h
      cases h
    | panic =>
      rw [hsize] at h
      cases h
    | ok size =>
      rw [hsize] at h
      obtain ⟨_, _, hwrite, h⟩ := bind_eq_ok.mp h
      obtain ⟨_, logical, hnums, h⟩ := bind_eq_ok.mp h
      obtain ⟨-, rfl⟩ := lift_eq_ok hnums
      cases hwrite
      cases h
      exact ⟨hpath, rfl⟩

theorem initializeStratisMetadata_eq_ok {io : InitOneIo} {ids : StratisIdentifiers}
    {info : DeviceInfo} {encrypted : Bool} {devno : Device} {size : ℕ} {dev : StratBlockDev}
    (h : initializeStratisMetadata io ids mdaDataSize info encrypted devno size headers =
      (headers', .ok dev)) :
    StratBlockDev.new devno (BDA.new ids mdaDataSize size io.timestamp) [] none
        (hwId encrypted info.idWwn) = .ok dev ∧ headers' =
      if encrypted then headers else update headers info.devno (some (.stratis ids)) := by
  obtain ⟨_, _, hopen, h⟩ := bind_eq_ok.mp h
  obtain ⟨-, rfl⟩ := lift_eq_ok hopen
  cases hbda : io.bdaInitialize with
  | err e =>
    rw [hbda] at h
    obtain ⟨_, _, -, h⟩ := bind_eq_ok.mp h
    cases h
  | panic =>
    rw [hbda] at h
    cases h
  | ok u =>
    rw [hbda] at h
    obtain ⟨_, _, hwrite, h⟩ := bind_eq_ok.mp h
    obtain ⟨hnew, rfl⟩ := lift_eq_ok h
    refine ⟨hnew, ?_⟩
    cases encrypted with
    | true =>
      cases hwrite
      rfl
    | false =>
      cases hwrite
      rfl

theorem cleanUp_ne_ok {α : Type} (io : InitOneIo) (kind path : String) (devno : Device)
    (e : StratisError) (headers headers' : Headers) (a : α) :
    cleanUp io kind path devno e headers ≠ (headers', .ok a) := by
  unfold cleanUp
  cases io.wipe <;> intro h <;> cases h

theorem initializeOne_eq_ok {io : InitOneIo} {info : DeviceInfo} {bd : Placed}
    (h : initializeOne io poolUuid mdaDataSize encryptionInfo info headers = (headers', .ok bd)) :
    SetUp io encryptionInfo info bd ∧ ∃ header : Header, header.ids.poolUuid = poolUuid ∧
      headers' = update headers info.devno (some header) := by
  unfold initializeOne at h
  split_ifs at h with henc
  · obtain ⟨_, ⟨path, devno, size⟩, hcrypt, h⟩ := bind_eq_ok.mp h
    obtain ⟨_, dev, hmeta, h⟩ := bind_eq_ok.mp h
    rw [rescue_eq_ok (cleanUp_ne_ok _ _ _ _)] at hmeta
    obtain ⟨hpath, rfl⟩ := initializeEncrypted_eq_ok hcrypt
    obtain ⟨hnew, rfl⟩ := initializeStratisMetadata_eq_ok hmeta
    cases h
    exact ⟨⟨hpath, rfl, henc.symm, uuid_of_new hnew⟩, _, rfl, rfl⟩
  · obtain ⟨_, path, hlift, h⟩ := bind_eq_ok.mp h
    obtain ⟨hpath, rfl⟩ := lift_eq_ok hlift
    obtain ⟨_, dev, hmeta, h⟩ := bind_eq_ok.mp h
    rw [rescue_eq_ok (cleanUp_ne_ok _ _ _ _)] at hmeta
    obtain ⟨hnew, rfl⟩ := initializeStratisMetadata_eq_ok hmeta
    cases h
    exact ⟨⟨hpath, rfl, (Bool.not_eq_true _ ▸ henc).symm, uuid_of_new hnew⟩, _, rfl, rfl⟩

/-- The new devices have a header of the pool, and no other device has changed. -/
structure Signed (poolUuid : PoolUuid) (headers headers' : Headers) (new : List Placed) : Prop where
  signed : ∀ bd ∈ new, signature headers' bd.underlying.physical = some poolUuid
  framed : ∀ n ∉ new.map (·.underlying.physical), headers' n = headers n

theorem Signed.cons {headers₁ : Headers} {bd : Placed} {new : List Placed} {header : Header}
    (hpool : header.ids.poolUuid = poolUuid)
    (hfirst : headers₁ = update headers bd.underlying.physical (some header))
    (h : Signed poolUuid headers₁ headers' new) : Signed poolUuid headers headers' (bd :: new) := by
  subst hfirst
  constructor
  · intro b hb
    obtain rfl | hb := mem_cons.mp hb
    · -- a later device with the same number would have signed it for the same pool
      by_cases hn : b.underlying.physical ∈ new.map (·.underlying.physical)
      · obtain ⟨c, hc, hcb⟩ := mem_map.mp hn
        rw [← hcb]
        exact h.signed c hc
      · rw [signature, h.framed _ hn, update_self, Option.map_some, hpool]
    · exact h.signed b hb
  · intro n hn
    rw [map_cons, mem_cons, not_or] at hn
    rw [h.framed n hn.2, update_of_ne hn.1]

/-- The devices are set up one after the other, as long as none of them fails. -/
theorem initializeFrom_cons_eq_ok {initialized bds : List Placed} {info : DeviceInfo}
    {infos : List DeviceInfo} :
    initializeFrom io poolUuid mdaDataSize encryptionInfo initialized (info :: infos) headers =
        (headers', .ok bds) ↔
      ∃ headers₁ bd, initializeOne (io.one info.devnode) poolUuid mdaDataSize encryptionInfo info
          headers = (headers₁, .ok bd) ∧
        initializeFrom io poolUuid mdaDataSize encryptionInfo (initialized ++ [bd]) infos headers₁ =
          (headers', .ok bds) := by
  have hwipe : ∀ e s s' (a : Placed), ((do
      let _ ← wipeBlockdevs io.disown initialized
      Stateful.lift (.err e)) : M Placed) s ≠ (s', .ok a) := by
    intro e s s' a h
    obtain ⟨_, _, -, h⟩ := bind_eq_ok.mp h
    cases h
  simp only [initializeFrom, bind_eq_ok, rescue_eq_ok hwipe]

theorem initializeFrom_eq_ok {initialized bds : List Placed} {infos : List DeviceInfo}
    (h : initializeFrom io poolUuid mdaDataSize encryptionInfo initialized infos headers =
      (headers', .ok bds)) :
    ∃ new, bds = initialized ++ new ∧ Signed poolUuid headers headers' new ∧
      List.Forall₂ (fun info => SetUp (io.one info.devnode) encryptionInfo info) infos new := by
  induction infos generalizing initialized headers with
  | nil =>
    cases h
    exact ⟨[], (append_nil _).symm, ⟨by simp, fun n _ => rfl⟩, .nil⟩
  | cons info infos ih =>
    obtain ⟨headers₁, bd, hone, h⟩ := initializeFrom_cons_eq_ok.mp h
    obtain ⟨hset, header, hpool, hheaders⟩ := initializeOne_eq_ok hone
    obtain ⟨new, rfl, hsigned, hall⟩ := ih h
    rw [← hset.physical] at hheaders
    exact ⟨bd :: new, by simp, hsigned.cons hpool hheaders, .cons hset hall⟩

/-- The devices that have been prepared for a new pool. -/
structure Prepared (io : PrepareIo) (encryptionInfo : EncryptionInfo) (poolUuid : PoolUuid)
    (paths : List String) (headers headers' : Headers) (infos : List DeviceInfo)
    (bds : List Placed) : Prop where
  verified : processAndVerifyDevices io.node headers poolUuid [] paths = .ok infos
  setUp : List.Forall₂ (fun info => SetUp (io.one info.devnode) encryptionInfo info) infos bds
  signed : Signed poolUuid headers headers' bds

section prepared

variable {paths : List String} {infos : List DeviceInfo} {bds : List Placed}
  (hp : Prepared io encryptionInfo poolUuid paths headers headers' infos bds)

include hp

theorem Prepared.physical : bds.map (·.underlying.physical) = infos.map (·.devno) :=
  Outcome.map_eq_of_forall₂ (hp.setUp.imp fun _ _ h => h.physical).flip

theorem Prepared.devnodes : infos.map (·.devnode) = paths.eraseDups := devnodes_of_verified hp.verified

theorem Prepared.devnum {info : DeviceInfo} (hinfo : info ∈ infos) :
    (io.node info.devnode).devnum = some info.devno := by
  obtain ⟨path, -, h⟩ := Outcome.exists_of_forall₂ (processed_of_verified hp.verified).flip hinfo
  rw [(processDevice_eq_ok.mp h).1]
  exact devnum_of_processDevice h

end prepared

theorem prepareDevices_eq_ok {paths : List String} {bds : List Placed}
    (h : prepareDevices io poolUuid mdaDataSize encryptionInfo paths headers = (headers', .ok bds)) :
    ∃ infos, Prepared io encryptionInfo poolUuid paths headers headers' infos bds := by
  rw [prepareDevices, get_bind] at h
  obtain ⟨_, infos, hlift, h⟩ := bind_eq_ok.mp h
  obtain ⟨hverify, rfl⟩ := lift_eq_ok hlift
  obtain ⟨new, hnew, hsigned, hall⟩ := initializeFrom_eq_ok h
  rw [nil_append] at hnew
  subst hnew
  exact ⟨infos, hverify, hall, hsigned⟩

end setUp

/-! ### Devices that can not be encrypted -/

section refused

variable {io : PrepareIo} {poolUuid : PoolUuid} {mdaDataSize : MDADataSize}
  {encryptionInfo : EncryptionInfo} {paths : List String}

theorem processAndVerifyDevices_ne_panic (node : String → NodeIo) (headers : Headers)
    (poolUuid : PoolUuid) (currentUuids : List DevUuid) (paths : List String) :
    processAndVerifyDevices node headers poolUuid currentUuids paths ≠ .panic := by
  have hone : ∀ path, processDevice (node path) headers path ≠ .panic := by
    intro path
    unfold processDevice
    split <;> exact nofun
  have hdevices : processDevices node headers paths ≠ .panic := by
    refine Outcome.bind_ne_panic (Outcome.collect_ne_panic hone) fun infos => ?_
    simp only
    split_ifs <;> exact nofun
  have hids : ∀ devices, checkDeviceIds poolUuid currentUuids devices ≠ .panic := by
    intro devices
    unfold checkDeviceIds
    simp only
    split_ifs <;> exact nofun
  have hsize : ∀ info, checkSize info ≠ .panic := by
    intro info
    unfold checkSize
    split_ifs <;> exact nofun
  exact Outcome.bind_ne_panic hdevices fun devices => Outcome.bind_ne_panic (hids devices)
    fun infos => Outcome.collect_ne_panic hsize

/-- The first device that can not be encrypted ends it. -/
theorem initializeDevices_refused (henc : encryptionInfo.isEncrypted = true) {info : DeviceInfo}
    {physicalPath : String} {e : StratisError}
    (hpath : (io.one info.devnode).devicePath = .ok physicalPath)
    (hcrypt : (io.one info.devnode).cryptInitialize = .err e) (infos : List DeviceInfo)
    (headers : Headers) :
    (initializeDevices io poolUuid mdaDataSize encryptionInfo (info :: infos) headers).2 =
      .err e := by
  obtain ⟨headers', hone⟩ : ∃ headers', initializeOne (io.one info.devnode) poolUuid mdaDataSize
      encryptionInfo info headers = (headers', .err e) := by
    rw [initializeOne]
    simp only [henc, if_true]
    have hencrypted : ∀ ids, (initializeEncrypted (io.one info.devnode) ids info.devno headers).2 =
        .err e := by
      intro ids
      rw [initializeEncrypted, hpath, lift_ok_bind, hcrypt]
      cases (io.one info.devnode).formatted <;> rfl
    exact ⟨_, bind_of_err (hencrypted _) _⟩
  have hrescue : rescue (initializeOne (io.one info.devnode) poolUuid mdaDataSize
      encryptionInfo info) (fun err => do
        let _ ← wipeBlockdevs io.disown []
        Stateful.lift (.err err)) headers = (headers', .err e) := by
    rw [rescue, hone]
    rfl
  rw [initializeDevices, initializeFrom, bind_of_err (congrArg Prod.snd hrescue)]

theorem prepareDevices_refused (henc : encryptionInfo.isEncrypted = true) (hpaths : paths ≠ [])
    (hone : ∀ path ∈ paths, ∃ physicalPath e, (io.one path).devicePath = .ok physicalPath ∧
      (io.one path).cryptInitialize = .err e) (headers : Headers) :
    ∃ e, (prepareDevices io poolUuid mdaDataSize encryptionInfo paths headers).2 = .err e := by
  rw [prepareDevices, get_bind]
  cases hverify : processAndVerifyDevices io.node headers poolUuid [] paths with
  | panic => exact absurd hverify (processAndVerifyDevices_ne_panic _ _ _ _ _)
  | err e => exact ⟨e, rfl⟩
  | ok infos =>
    have hnodes := devnodes_of_verified hverify
    rw [lift_ok_bind]
    cases infos with
    | nil =>
      obtain ⟨path, hpath⟩ := exists_mem_of_ne_nil paths hpaths
      rw [← mem_eraseDups, ← hnodes] at hpath
      cases hpath
    | cons info infos =>
      have hmem : info.devnode ∈ paths := by
        rw [← mem_eraseDups, ← hnodes]
        exact mem_cons_self
      obtain ⟨physicalPath, e, hpath, hcrypt⟩ := hone _ hmem
      exact ⟨e, initializeDevices_refused henc hpath hcrypt infos headers⟩

end refused

/-! ### Devices that have been wiped -/

/-- The headers after those of the devices have been wiped. -/
def wiped (headers : Headers) (bds : List Placed) : Headers := fun n =>
  if n ∈ bds.map (·.underlying.physical) then none else headers n

theorem wipeBlockdevs_of_disowned {disown : DevUuid → StratisResult Unit} {bds : List Placed}
    (h : ∀ bd ∈ bds, disown bd.dev.uuid = .ok ()) (headers : Headers) :
    wipeBlockdevs disown bds headers = (wiped headers bds, .ok []) := by
  induction bds generalizing headers with
  | nil => exact Prod.ext (funext fun n => by simp [wipeBlockdevs, wiped]) rfl
  | cons bd bds ih =>
    simp only [wipeBlockdevs, h bd mem_cons_self, erase, modify_bind,
      ih fun b hb => h b (mem_cons_of_mem _ hb)]
    congr 1
    funext n
    by_cases hn : n ∈ bds.map (·.underlying.physical)
    · simp [wiped, hn]
    · by_cases hbd : n = bd.underlying.physical
      · simp [wiped, hbd]
      · simp [wiped, hn, hbd]

end Stratisd.Devices
