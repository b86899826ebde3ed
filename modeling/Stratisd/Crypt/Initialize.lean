import Stratisd.Crypt.Manager

/-! New devices of an encrypted manager. Each is formatted, gets the bindings that the manager has,
and what its handle knows of Clevis is read back from the new header. A device that is not added
is wiped, which is left out: it belongs to no manager. -/

namespace Stratisd.Crypt

open Run Engine Media

/-- Put a passphrase into a header whose volume key is in memory. -/
def Luks2Header.addByKey (pass : Passphrase) (h : Luks2Header) : Option (Luks2Header × ℕ) :=
  h.findEmpty.map fun n => ({ h with keyslots := h.keyslots.insert n pass }, n)

/-- The answers of the system while one device is set up. -/
structure InitIo extends CryptIo where
  devicePath : StratisResult Unit
  init : StratisResult Unit
  setMetadataSize : StratisResult Unit
  format : StratisResult Unit
  addByKey : StratisResult Unit
  /-- A key with random content. -/
  randKey : StratisResult Key
  /-- Loading the header that Clevis has changed. -/
  acquireBound : StratisResult Unit
  jsonSet : StratisResult Unit
  activate : StratisResult Unit
  activatedPath : StratisResult Unit
  deviceSize : StratisResult Unit
  deviceNums : StratisResult Unit
  initializeStratisMetadata : StratisResult Unit
  /-- Why the device could not be wiped after a failure. -/
  cleanUp : Option StratisError

namespace CryptInitializer

abbrev M := CryptHandle.M

open CryptHandle (call call_)

def initializeWithKeyring (io : InitIo) (keyDescription : String) : M Unit := do
  let key ← Stateful.lift (CryptHandle.keyDescToPassphrase io.toCryptIo keyDescription)
  let keyslot ← call io.toCryptIo io.addByKey (Luks2Header.addByKey (.keyring key))
  call_ io.toCryptIo io.luks2KeyringSet fun h =>
    some (h.luks2KeyringSet s!"stratis-1-key-{keyDescription}")
  call_ io.toCryptIo io.assignKeyslot (Luks2Header.assignKeyslot keyslot)

/-- Clevis needs a passphrase to bind the device, which is thrown away afterwards. -/
def initializeWithClevis (io : InitIo) : M Unit := do
  Stateful.lift io.memfs
  let key ← Stateful.lift io.randKey
  let keyslot ← call io.toCryptIo io.addByKey (Luks2Header.addByKey (.keyring key))
  call_ io.toCryptIo io.clevisLuksBind (Luks2Header.clevisLuksBind (.keyring key) io.jwe)
  Stateful.lift io.acquire
  call_ io.toCryptIo (io.destroy keyslot) (Luks2Header.destroy keyslot)

def initializeWithBoth (io : InitIo) (keyDescription : String) : M Unit := do
  initializeWithKeyring io keyDescription
  Stateful.lift io.memfs
  let key ← Stateful.lift (CryptHandle.keyOp io.toCryptIo keyDescription)
  call_ io.toCryptIo io.clevisLuksBind (Luks2Header.clevisLuksBind (.keyring key) io.jwe)

def bindNew (io : InitIo) : Option String → Option (String × Value) → M Unit
  | some keyDescription, some _ => do
    initializeWithBoth io keyDescription
    Stateful.lift io.acquireBound
  | some keyDescription, none => initializeWithKeyring io keyDescription
  | none, some _ => do
    initializeWithClevis io
    Stateful.lift io.acquireBound
  | none, none => Stateful.lift .panic

def initializeWithErr (io : InitIo) (keyDescription : Option String)
    (clevisInfo : Option (String × Value)) : M Unit := do
  call_ io.toCryptIo io.format fun _ => some ⟨∅, none, none⟩
  bindNew io keyDescription clevisInfo
  Stateful.lift io.jsonSet
  Stateful.lift io.activate

/-- The configuration is checked before anything is done. -/
def interpretNew : Option (String × Value) → StratisResult Unit
  | some (pin, config) => do
    let _ ← interpretClevisConfig pin config
    .ok ()
  | none => .ok ()

def initializeHandle (pinDispatch : Value → StratisResult (String × Value)) (io : InitIo)
    (physicalPath : String) (keyDescription : Option String) (clevisInfo : Option (String × Value)) :
    StratisResult CryptHandle := do
  interpretNew clevisInfo
  io.init
  io.setMetadataSize
  match initializeWithErr io keyDescription clevisInfo
      ⟨physicalPath, ⟨∅, none, none⟩, ⟨none, none⟩⟩ with
  | (device, .ok ()) => do
    io.acquireAgain
    io.activatedPath
    let info ← CryptHandle.clevisInfoFromMetadata pinDispatch io.toCryptIo device.header
    .ok ⟨physicalPath, device.header, ⟨keyDescription, info⟩⟩
  | (_, .err e) => do
    io.acquireAgain
    .err e
  | (_, .panic) => .panic

end CryptInitializer

/-! ### Several devices -/

section

variable (pinDispatch : Value → StratisResult (String × Value))

def initializeEncrypted (io : InitIo) (path : String) (info : EncryptionInfo) :
    StratisResult CryptHandle := do
  io.devicePath
  let handle ← CryptInitializer.initializeHandle pinDispatch io path info.keyDescription info.clevisInfo
  io.deviceSize
  io.deviceNums
  .ok handle

/-- The error after a device has been wiped, or could not be. -/
def cleanedUp (io : InitIo) (kind path : String) (causal : StratisError) : StratisError :=
  match io.cleanUp with
  | none => causal
  | some e => .chained
      (s!"Failed to clean up {kind} device {path}; cleanup was attempted because " ++
        "initialization of the device failed") (.noActionRollback causal e)

def initializeOne (io : InitIo) (info : EncryptionInfo) (path : String) :
    StratisResult (Option CryptHandle) :=
  if info.isEncrypted then do
    let handle ← initializeEncrypted pinDispatch io path info
    match io.initializeStratisMetadata with
    | .ok () => .ok (some handle)
    | .err e => .err (cleanedUp io "encrypted" path e)
    | .panic => .panic
  else do
    io.devicePath
    match io.initializeStratisMetadata with
    | .ok () => .ok none
    | .err e => .err (cleanedUp io "unencrypted" path e)
    | .panic => .panic

/-- Set up the devices, from the given index on. -/
def initializeDevices (io : ℕ → InitIo) (info : EncryptionInfo) :
    ℕ → List String → StratisResult BlockDevs
  | _, [] => .ok []
  | index, path :: paths => do
    let dev ← initializeOne pinDispatch (io index) info path
    let devs ← initializeDevices io info (index + 1) paths
    .ok (dev :: devs)

end

/-- The answers of the system while devices are added. -/
structure AddIo where
  /-- The paths of the devices, if they are for this pool and can be used. -/
  verified : StratisResult (List String)
  canUnlock : Bool
  /-- While the new device with the given index is set up. -/
  setUp : ℕ → InitIo

def BlockDevs.add (pinDispatch : Value → StratisResult (String × Value)) (io : AddIo) :
    BlockDevs.M Unit := do
  let paths ← Stateful.lift io.verified
  let devs ← Stateful.get
  let info ← Stateful.lift (encryptionInfo devs)
  if info.isEncrypted && !io.canUnlock then
    Stateful.lift (.err (.msg
      ("Neither the key in the kernel keyring nor Clevis could be used to perform encryption " ++
        "operations on the devices in the pool; check that either the appropriate key in the " ++
        "keyring is set or that the Clevis key storage method is available")))
  else do
    let new ← Stateful.lift (initializeDevices pinDispatch io.setUp info 0 paths)
    Stateful.modify (· ++ new)

/-! ### Calls -/

/-- A change of the bindings of all devices, or new devices. -/
inductive ManagerInput where
  | change (input : CryptInput)
  | add (io : AddIo)

def managerStep (pinDispatch : Value → StratisResult (String × Value)) (devs : BlockDevs) :
    ManagerInput → BlockDevs × StratisResult Reply
  | .change input => step pinDispatch devs input
  | .add io => ((fun _ => Reply.done) <$> BlockDevs.add pinDispatch io) devs

end Stratisd.Crypt
