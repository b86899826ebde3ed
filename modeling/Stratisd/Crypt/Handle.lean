import Stratisd.Crypt.Luks2
import Stratisd.Engine.Types
import Stratisd.Run.Stateful

/-! The handle of an encrypted device. Binding and unbinding change the LUKS2 header call by call;
what the handle knows about the encryption is cached and is changed at the end. A call that fails
ends the operation, and the calls before it are not undone. -/

namespace Stratisd.Crypt

open Run Engine Media

structure CryptHandle where
  physicalPath : String
  /-- On the device. -/
  header : Luks2Header
  /-- In the memory of the daemon. -/
  encryptionInfo : EncryptionInfo
  deriving DecidableEq

/-- The answers of the system during an operation on one device. -/
structure CryptIo where
  /-- Loading the header. -/
  acquire : StratisResult Unit
  /-- Loading the header once more, to read what Clevis has written. -/
  acquireAgain : StratisResult Unit
  /-- Whether a token can be read, if it is there. -/
  jsonGet : Bool
  memfs : StratisResult Unit
  readKey : String → StratisResult (Option Key)
  keyfile : StratisResult Unit
  addByPassphrase : StratisResult Unit
  changeByPassphrase : StratisResult Unit
  keepsTokens : Bool
  luks2KeyringSet : StratisResult Unit
  assignKeyslot : StratisResult Unit
  destroy : ℕ → StratisResult Unit
  removeToken : StratisResult Unit
  clevisLuksBind : StratisResult Unit
  clevisLuksUnbind : ℕ → StratisResult Unit
  clevisLuksRegen : StratisResult Unit
  clevisDecrypt : StratisResult Unit
  headerRestore : StratisResult Unit
  /-- What Clevis writes when it binds a keyslot. -/
  jwe : Jwe
  /-- The report of a call that can not be done on the header. -/
  refused : StratisError

def clevisTangTrustUrl : String := "stratis:tang:trust_url"

/-- Take the keys that are not for Clevis out of a configuration. Whether `clevis luks bind` is
told to trust the server. -/
def interpretClevisConfig (pin : String) (config : Value) : StratisResult (Value × Bool) :=
  if pin = "tang" then
    match config with
    | .object fields =>
      let r := fields.remove clevisTangTrustUrl
      .ok (.object r.1, (r.2.bind Value.asBool).getD false)
    | _ => .err (.msg
        s!"configuration for Clevis is is not in JSON object format: {config.display}")
  else .ok (config, false)

namespace CryptHandle

abbrev M := Stateful CryptHandle StratisError

/-- A call that changes the header. -/
def call {α : Type} (io : CryptIo) (answer : StratisResult Unit)
    (change : Luks2Header → Option (Luks2Header × α)) : M α := do
  Stateful.lift answer
  let handle ← Stateful.get
  match change handle.header with
  | some (header, a) => do
    Stateful.modify fun handle => { handle with header }
    pure a
  | none => Stateful.lift (.err io.refused)

/-- A call that changes the header and returns nothing. -/
def call_ (io : CryptIo) (answer : StratisResult Unit)
    (change : Luks2Header → Option Luks2Header) : M Unit :=
  call io answer fun h => (change h).map fun h => (h, ())

def setKeyDescription (keyDescription : Option String) : M Unit :=
  Stateful.modify fun handle =>
    { handle with encryptionInfo := { handle.encryptionInfo with keyDescription } }

def setClevisInfo (clevisInfo : Option (String × Value)) : M Unit :=
  Stateful.modify fun handle =>
    { handle with encryptionInfo := { handle.encryptionInfo with clevisInfo } }

/-- The keyslots of a token, if the token is there and can be read. -/
def keyslotsOf (io : CryptIo) (keyslots : Option (List ℕ)) : Option (List ℕ) :=
  if io.jsonGet then keyslots else none

def clevisKeyslots (io : CryptIo) : M (Option (List ℕ)) := do
  Stateful.lift io.acquire
  let handle ← Stateful.get
  pure (keyslotsOf io (handle.header.clevis.map (·.keyslots)))

/-! ### Clevis -/

/-- Give the content of a key to a command. -/
def keyOp (io : CryptIo) (keyDescription : String) : StratisResult Key := do
  let key ← io.readKey keyDescription
  match key with
  | some key => do
    io.keyfile
    .ok key
  | none => .err .io

def clevisBind (io : CryptIo) (pin : String) (config : Value) : M Unit := do
  let (config, _) ← Stateful.lift (interpretClevisConfig pin config)
  let handle ← Stateful.get
  match handle.encryptionInfo.keyDescription with
  | none => Stateful.lift (.err (.msg
      ("Clevis binding requires a registered key description for the device " ++
        "but none was found")))
  | some keyDescription => do
    Stateful.lift io.memfs
    let key ← Stateful.lift (keyOp io keyDescription)
    call_ io io.clevisLuksBind (Luks2Header.clevisLuksBind (.keyring key) io.jwe)
    setClevisInfo (some (pin, config))

def clevisUnbind (io : CryptIo) : M Unit := do
  let handle ← Stateful.get
  if handle.encryptionInfo.keyDescription.isNone then
    Stateful.lift (.err (.msg
      ("No kernel keyring binding found; removing the Clevis binding " ++
        "would remove the ability to open this device; aborting")))
  else do
    let keyslots ← clevisKeyslots io
    match keyslots with
    | none => Stateful.lift (.err (.msg
        s!"Token slot {clevisLuksTokenId} appears to be empty; could not determine keyslots"))
    | some keyslots => do
      Stateful.forEach (fun n =>
        call_ io (io.clevisLuksUnbind n) (Luks2Header.clevisLuksUnbind n)) keyslots
      setClevisInfo none

section RebindClevis
variable (pinDispatch : Value → StratisResult (String × Value))

/-- The binding as it is recorded on the device. -/
def clevisInfoFromMetadata (io : CryptIo) (header : Luks2Header) :
    StratisResult (Option (String × Value)) :=
  match header.clevis with
  | some ⟨_, some jwe⟩ =>
    if io.jsonGet then do
      let info ← pinDispatch jwe.header
      .ok (some info)
    else .ok none
  | _ => .ok none

def regenerateCachedClevisInfo (io : CryptIo) (handle : CryptHandle) :
    StratisResult (String × Value) := do
  io.acquireAgain
  let info ← clevisInfoFromMetadata pinDispatch io handle.header
  Outcome.ofOption (.msg s!"Did not find Clevis metadata on device {handle.physicalPath}") info

def rebindClevis (io : CryptIo) : M Unit := do
  let handle ← Stateful.get
  if handle.encryptionInfo.clevisInfo.isNone then
    Stateful.lift (.err (.msg
      ("No Clevis binding found; cannot regenerate the Clevis binding if the device does not " ++
        "already have a Clevis binding")))
  else do
    let keyslots ← clevisKeyslots io
    match keyslots.bind List.head? with
    | none => Stateful.lift (.err (.msg "Clevis binding found but no keyslot was associated"))
    | some n => do
      call_ io io.clevisLuksRegen (Luks2Header.clevisLuksRegen n io.jwe)
      let handle ← Stateful.get
      let info ← Stateful.lift (regenerateCachedClevisInfo pinDispatch io handle)
      setClevisInfo (some info)

end RebindClevis

/-! ### The kernel keyring -/

def keyDescToPassphrase (io : CryptIo) (keyDescription : String) : StratisResult Key := do
  let key ← io.readKey keyDescription
  Outcome.ofOption (.msg s!"Key with key description {keyDescription} was not found") key

/-- The passphrase that Clevis keeps, if there is a token. -/
def clevisDecrypt (io : CryptIo) (header : Luks2Header) : StratisResult (Option Passphrase) :=
  match header.clevis with
  | some token =>
    if io.jsonGet then do
      let jwe ← Outcome.ofOption (.msg
        (s!"Token slot {clevisLuksTokenId} is occupied but does not appear to be a Clevis " ++
          "token; aborting")) token.jwe
      io.clevisDecrypt
      .ok (some (.clevis jwe.secret))
    else .ok none
  | none => .ok none

/-- Add the key to the header with a passphrase of the header, or in the place of another key. -/
def initKeyslot (io : CryptIo) (key : Key) : Passphrase ⊕ String → M ℕ
  | .inl pass => call io io.addByPassphrase (Luks2Header.addByPassphrase pass (.keyring key))
  | .inr keyDescription => do
    let pass ← Stateful.lift (keyDescToPassphrase io keyDescription)
    call io io.changeByPassphrase
      (Luks2Header.changeByPassphrase io.keepsTokens (.keyring pass) (.keyring key))

def addKeyringKeyslot (io : CryptIo) (keyDescription : String) (pass : Passphrase ⊕ String) :
    M Unit := do
  let key ← Stateful.lift (keyDescToPassphrase io keyDescription)
  let keyslot ← initKeyslot io key pass
  call_ io io.luks2KeyringSet fun h => some (h.luks2KeyringSet s!"stratis-1-key-{keyDescription}")
  call_ io io.assignKeyslot (Luks2Header.assignKeyslot keyslot)

def bindKeyring (io : CryptIo) (keyDescription : String) : M Unit := do
  Stateful.lift io.acquire
  let handle ← Stateful.get
  let key ← Stateful.lift (clevisDecrypt io handle.header)
  match key with
  | none => Stateful.lift (.err (.msg
      ("The Clevis token appears to have been wiped outside of Stratis; cannot add a keyring " ++
        "key binding without an existing passphrase to unlock the device")))
  | some key => do
    addKeyringKeyslot io keyDescription (.inl key)
    setKeyDescription (some keyDescription)

def unbindKeyring (io : CryptIo) : M Unit := do
  let handle ← Stateful.get
  if handle.encryptionInfo.clevisInfo.isNone then
    Stateful.lift (.err (.msg
      ("No Clevis binding was found; removing the keyring binding would " ++
        "remove the ability to open this device; aborting")))
  else do
    Stateful.lift io.acquire
    match keyslotsOf io (handle.header.keyring.map (·.keyslots)) with
    | none => Stateful.lift (.err (.msg "No LUKS2 keyring token was found"))
    | some keyslots => do
      Stateful.forEach (fun n => call_ io (io.destroy n) (Luks2Header.destroy n)) keyslots
      call_ io io.removeToken fun h => some h.removeKeyringToken
      setKeyDescription none

def rebindKeyring (io : CryptIo) (newKeyDescription : String) : M Unit := do
  Stateful.lift io.acquire
  let handle ← Stateful.get
  match handle.encryptionInfo.keyDescription with
  | none => Stateful.lift (.err (.msg
      ("Cannot change passphrase because this device is not bound to a passphrase in the " ++
        "kernel keyring")))
  | some old => do
    addKeyringKeyslot io newKeyDescription (.inr old)
    setKeyDescription (some newKeyDescription)

/-! ### Headers kept aside -/

/-- Put a header back that was kept before. -/
def restoreLuksHeader (io : CryptIo) (header : Luks2Header) : M Unit := do
  Stateful.lift io.acquire
  call_ io io.headerRestore fun _ => some header

end CryptHandle

end Stratisd.Crypt
