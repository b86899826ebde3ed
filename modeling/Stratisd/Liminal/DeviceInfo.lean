import Mathlib.Data.List.AList
import Stratisd.Engine.Keys
import Stratisd.Metadata.StaticHeader

/-! What is known about devices that have been found. The LUKS2 device and the Stratis device
that is opened on top of it share one entry under their device UUID. Hash maps are association
lists with distinct keys. -/

namespace Stratisd.Liminal

open Run Engine Metadata

/-! ### Devices as they are identified -/

structure StratisInfo where
  identifiers : StratisIdentifiers
  deviceNumber : Device
  devnode : String
  deriving DecidableEq

/-- How the source prints what is known about a device. -/
def StratisInfo.display (i : StratisInfo) : String :=
  s!"Stratis pool UUID: \"{displayUuid i.identifiers.poolUuid.val}\", Stratis device UUID: \"{displayUuid i.identifiers.deviceUuid.val}\", device number: \"{i.deviceNumber.major}:{i.deviceNumber.minor}\", devnode: \"{i.devnode}\""

structure LuksInfo where
  info : StratisInfo
  encryptionInfo : EncryptionInfo
  deriving DecidableEq

/-- A LUKS2 device that belongs to Stratis, or a Stratis device. -/
inductive DeviceInfo where
  | luks (info : LuksInfo)
  | stratis (info : StratisInfo)
  deriving DecidableEq

namespace DeviceInfo

def stratisIdentifiers : DeviceInfo → StratisIdentifiers
  | .luks info => info.info.identifiers
  | .stratis info => info.identifiers

def encryptionInfo : DeviceInfo → Option EncryptionInfo
  | .luks info => some info.encryptionInfo
  | .stratis _ => none

end DeviceInfo

/-! ### Entries -/

structure LLuksInfo where
  ids : StratisInfo
  encryptionInfo : EncryptionInfo
  deriving DecidableEq

def LLuksInfo.ofLuksInfo (info : LuksInfo) : LLuksInfo := ⟨info.info, info.encryptionInfo⟩

structure LStratisInfo where
  ids : StratisInfo
  /-- The LUKS2 device under an opened one. -/
  luks : Option LLuksInfo
  deriving DecidableEq

def LStratisInfo.ofStratisInfo (info : StratisInfo) : LStratisInfo := ⟨info, none⟩

inductive LInfo where
  | stratis (info : LStratisInfo)
  | luks (info : LLuksInfo)
  deriving DecidableEq

namespace LInfo

def ofDeviceInfo : DeviceInfo → LInfo
  | .luks info => .luks (.ofLuksInfo info)
  | .stratis info => .stratis (.ofStratisInfo info)

def encryptionInfo : LInfo → Option EncryptionInfo
  | .luks info => some info.encryptionInfo
  | .stratis info => info.luks.map (·.encryptionInfo)

/-- The path of the LUKS2 device, if one is known. -/
def luksDevnode : LInfo → Option String
  | .stratis info => info.luks.map (·.ids.devnode)
  | .luks info => some info.ids.devnode

/-- An encrypted device that is not opened. -/
def isClosed : LInfo → Bool
  | .luks _ => true
  | .stratis _ => false

/-- What is left of an entry after a device with its UUID has been removed. -/
def updateOnRemove : LInfo → DeviceInfo → Option LInfo
  | .luks luksInfo, .stratis _ => some (.luks luksInfo)
  | .stratis stratInfo, .luks _ => some (.stratis stratInfo)
  | .stratis info₁, .stratis info₂ =>
    if info₁.ids.deviceNumber ≠ info₂.deviceNumber then some (.stratis info₁)
    else info₁.luks.map .luks
  | .luks info₁, .luks info₂ =>
    if info₁.ids.deviceNumber ≠ info₂.info.deviceNumber then some (.luks info₁) else none

/-- Whether two descriptions of a LUKS2 device agree. That they are of one device is asserted. -/
def luksLuksCompatible (info₁ : LLuksInfo) (info₂ : LuksInfo) : Outcome Unit Bool :=
  if info₁.ids.identifiers = info₂.info.identifiers then
    .ok (info₁.ids.deviceNumber = info₂.info.deviceNumber ∧
      info₁.encryptionInfo = info₂.encryptionInfo)
  else .panic

/-- Whether two descriptions of a Stratis device agree. -/
def stratisStratisCompatible (info₁ : LStratisInfo) (info₂ : StratisInfo) : Outcome Unit Bool :=
  if info₁.ids.identifiers = info₂.identifiers then
    .ok (info₁.ids.deviceNumber = info₂.deviceNumber)
  else .panic

/-- What the LUKS2 part of an entry has to say about a LUKS2 device. -/
def luksAllows (luks : Option LLuksInfo) (info : LuksInfo) : Outcome Unit Bool :=
  match luks with
  | some luks => luksLuksCompatible luks info
  | none => .ok true

/-- An entry with newer information about a device with its UUID. -/
def update : LInfo → DeviceInfo → Outcome Unit LInfo
  | .luks luksInfo, .stratis stratInfo => .ok (.stratis ⟨stratInfo, some luksInfo⟩)
  | .stratis stratInfo, .luks luksInfo => do
    let compatible ← luksAllows stratInfo.luks luksInfo
    if compatible then .ok (.stratis ⟨stratInfo.ids, some (.ofLuksInfo luksInfo)⟩) else .err ()
  | .luks luksInfo₁, .luks luksInfo₂ => do
    let compatible ← luksLuksCompatible luksInfo₁ luksInfo₂
    if compatible then .ok (.luks (.ofLuksInfo luksInfo₂)) else .err ()
  | .stratis stratInfo₁, .stratis stratInfo₂ => do
    let compatible ← stratisStratisCompatible stratInfo₁ stratInfo₂
    if compatible then .ok (.stratis ⟨stratInfo₂, stratInfo₁.luks⟩) else .err ()

end LInfo

/-! ### Sets of devices -/

/-- A device of a pool that is not set up, as it is reported. -/
structure LockedPoolDevice where
  devnode : String
  uuid : DevUuid
  deriving DecidableEq

/-- An encrypted pool that is not set up, as it is reported. -/
@[ext]
structure LockedPoolInfo where
  info : EncryptionInfo
  devices : List LockedPoolDevice
  deriving DecidableEq

/-- A grab bag of devices. -/
structure DeviceBag where
  internal : Finset LInfo
  deriving DecidableEq

/-- The devices of a pool by their UUIDs. -/
structure DeviceSet where
  internal : AList fun _ : DevUuid => LInfo

namespace DeviceSet

def new : DeviceSet := ⟨∅⟩

/-- The entries, in the order of the map. -/
def values (s : DeviceSet) : List LInfo := s.internal.entries.map (·.2)

def someClosed (s : DeviceSet) : Bool := s.values.any LInfo.isClosed

/-- The set as a set of opened devices, if it is one. -/
def asOpenedSet (s : DeviceSet) : Option (List (DevUuid × LStratisInfo)) :=
  if s.someClosed then none
  else some (s.internal.entries.filterMap fun e =>
    match e.2 with
    | .stratis info => some (e.1, info)
    | .luks _ => none)

def intoBag (s : DeviceSet) : DeviceBag := ⟨s.values.toFinset⟩

/-- The encryption info of the first entry that has one. -/
def encryptionInfo (s : DeviceSet) : Option EncryptionInfo :=
  (s.values.filterMap LInfo.encryptionInfo).head?

/-- The LUKS2 device of an entry as it is reported. -/
def lockedPoolDevice (e : (_ : DevUuid) × LInfo) : Option LockedPoolDevice :=
  e.2.luksDevnode.map fun devnode => ⟨devnode, e.1⟩

/-- The set as it is reported, if it is that of an encrypted pool. -/
def lockedPoolInfo (s : DeviceSet) : Option LockedPoolInfo :=
  s.encryptionInfo.bind fun info =>
    let devices := (s.internal.entries.map lockedPoolDevice).foldl
      (fun vec devInfo => vec.bind fun v => devInfo.map fun d => v ++ [d]) (some [])
    devices.map fun d => ⟨info, d⟩

/-- The data of a device that has been removed. -/
def processInfoRemove (s : DeviceSet) (info : DeviceInfo) : DeviceSet :=
  let uuid := info.stratisIdentifiers.deviceUuid
  match (s.internal.lookup uuid).bind fun removed => LInfo.updateOnRemove removed info with
  | some newInfo => ⟨(s.internal.erase uuid).insert uuid newInfo⟩
  | none => ⟨s.internal.erase uuid⟩

/-- Whether the device is encrypted as the devices of the set are not. -/
def conflicts (s : DeviceSet) (info : DeviceInfo) : Bool :=
  match info.encryptionInfo, s.encryptionInfo with
  | some new, some old => old ≠ new
  | _, _ => false

/-- The data of a device that has been added. If it does not go with the others, all of them
are returned as a bag. -/
def processInfoAdd (s : DeviceSet) (info : DeviceInfo) : Outcome DeviceBag DeviceSet :=
  let uuid := info.stratisIdentifiers.deviceUuid
  if s.conflicts info then .err ⟨insert (.ofDeviceInfo info) s.intoBag.internal⟩
  else
    match s.internal.lookup uuid with
    | none => .ok ⟨s.internal.insert uuid (.ofDeviceInfo info)⟩
    | some removed =>
      let rest : DeviceSet := ⟨s.internal.erase uuid⟩
      match LInfo.update removed info with
      | .ok info => .ok ⟨rest.internal.insert uuid info⟩
      | .err () => .err ⟨insert (.ofDeviceInfo info) (insert removed rest.intoBag.internal)⟩
      | .panic => .panic

/-- The data of several devices, one after the other. -/
def addAll (s : DeviceSet) : List DeviceInfo → Outcome DeviceBag DeviceSet
  | [] => .ok s
  | info :: infos => do
    let s ← s.processInfoAdd info
    s.addAll infos

end DeviceSet

end Stratisd.Liminal
