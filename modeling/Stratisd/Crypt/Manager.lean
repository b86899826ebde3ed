import Stratisd.Crypt.Handle
import Stratisd.Crypt.OperationLoop
import Stratisd.Run.Trace

/-! Operations on the encryption of all block devices of a manager, each of which is rolled back if
it fails on one of them. -/

namespace Stratisd.Crypt

open Run Engine Media

/-! ### Block devices -/

/-- The block devices of a manager, with the handles of those that are encrypted. -/
abbrev BlockDevs := List (Option CryptHandle)

/-- An operation on one device, which has to be encrypted. -/
def onHandle (p : CryptHandle.M Unit) : Stateful (Option CryptHandle) StratisError Unit
  | some handle => (some (p handle).1, (p handle).2)
  | none => (none, .err (.msg "This device does not appear to be encrypted"))

/-- The answers of the system during an operation on all devices. -/
structure ManagerIo where
  /-- During the operation on the device with the given index. -/
  act : ℕ → CryptIo
  /-- During the roll-back of the device with the given index. -/
  undo : ℕ → CryptIo
  canUnlock : Bool
  tmpDir : StratisResult Unit
  /-- Keeping the header of the device with the given index aside. -/
  backUp : ℕ → StratisResult Unit

namespace BlockDevs

abbrev M := Stateful BlockDevs StratisError

/-- What is known of the first device is taken for all. -/
def encryptionInfo (devs : BlockDevs) : StratisResult EncryptionInfo :=
  match devs with
  | [] => .panic
  | some handle :: _ => .ok handle.encryptionInfo
  | none :: _ => .ok ⟨none, none⟩

/-- The encryption of the first device, which has to be encrypted. -/
def encrypted : M EncryptionInfo := do
  let devs ← Stateful.get
  let info ← Stateful.lift (encryptionInfo devs)
  if info.isEncrypted then pure info
  else Stateful.lift (.err (.msg "Requested pool does not appear to be encrypted"))

/-- The configuration without the thumbprint, if the server is trusted. -/
def configToCheck (yes : Bool) (config : Value) : Value :=
  match yes, config with
  | true, .object fields => .object (fields.remove "thp").1
  | _, config => config

def bindClevis (io : ManagerIo) (pin : String) (clevisInfo : Value) : M Bool := do
  let info ← encrypted
  let (parsedConfig, yes) ← Stateful.lift (interpretClevisConfig pin clevisInfo)
  match info.clevisInfo with
  | some (existingPin, existingInfo) =>
    if (existingPin, configToCheck yes existingInfo) = (pin, parsedConfig) ∧ io.canUnlock then
      pure false
    else Stateful.lift (.err (.msg
      (s!"Block devices have already been bound with pin {existingPin} and config " ++
        s!"{existingInfo.display}; requested pin {pin} and config {parsedConfig.display} " ++
        "can't be applied")))
  | none => do
    operationLoop (fun i => onHandle (CryptHandle.clevisBind (io.act i) pin clevisInfo))
      (fun i => onHandle (CryptHandle.clevisUnbind (io.undo i)))
    pure true

def unbindClevis (io : ManagerIo) : M Bool := do
  let info ← encrypted
  match info.clevisInfo with
  | none => pure false
  | some (pin, clevisInfo) => do
    operationLoop (fun i => onHandle (CryptHandle.clevisUnbind (io.act i)))
      (fun i => onHandle (CryptHandle.clevisBind (io.undo i) pin clevisInfo))
    pure true

-- The message about another key description names the two in the wrong order, as the source does.
def bindKeyring (io : ManagerIo) (keyDesc : String) : M Bool := do
  let info ← encrypted
  match info.keyDescription with
  | some kd =>
    if kd = keyDesc then
      if io.canUnlock then pure false
      else Stateful.lift (.err (.msg
        (s!"Key description {keyDesc} is registered in the metadata but the associated " ++
          "passphrase can't unlock the device; the associated passphrase may have changed " ++
          "since binding")))
    else Stateful.lift (.err (.msg
      (s!"Block devices have already been bound with key description {keyDesc}; " ++
        s!"requested key description {kd} can't be applied")))
  | none => do
    operationLoop (fun i => onHandle (CryptHandle.bindKeyring (io.act i) keyDesc))
      (fun i => onHandle (CryptHandle.unbindKeyring (io.undo i)))
    pure true

def unbindKeyring (io : ManagerIo) : M Bool := do
  let info ← encrypted
  match info.keyDescription with
  | none => pure false
  | some keyDesc => do
    operationLoop (fun i => onHandle (CryptHandle.unbindKeyring (io.act i)))
      (fun i => onHandle (CryptHandle.bindKeyring (io.undo i) keyDesc))
    pure true

def rebindKeyring (io : ManagerIo) (keyDesc : String) : M (Option Bool) := do
  let info ← encrypted
  match info.keyDescription with
  | none => pure none
  | some old =>
    if old = keyDesc then pure (some false)
    else do
      operationLoop (fun i => onHandle (CryptHandle.rebindKeyring (io.act i) keyDesc))
        (fun i => onHandle (CryptHandle.rebindKeyring (io.undo i) old))
      pure (some true)

/-- Keep the headers of all devices aside, from the given index on. -/
def backUpHeaders (io : ManagerIo) : ℕ → BlockDevs → StratisResult (List Luks2Header)
  | _, [] => .ok []
  | index, none :: _ => .err (io.act index).refused
  | index, some handle :: devs => do
    io.backUp index
    let headers ← backUpHeaders io (index + 1) devs
    .ok (handle.header :: headers)

def restore (io : ManagerIo) (headers : List Luks2Header) (index : ℕ) :
    Stateful (Option CryptHandle) StratisError Unit :=
  match headers[index]? with
  | some header => onHandle (CryptHandle.restoreLuksHeader (io.undo index) header)
  | none => Stateful.lift .panic

def rebindClevis (pinDispatch : Value → StratisResult (String × Value)) (io : ManagerIo) :
    M Unit := do
  let info ← encrypted
  if info.clevisInfo.isNone then
    Stateful.lift (.err (.msg "Requested pool is not already bound to Clevis"))
  else do
    Stateful.lift io.tmpDir
    let devs ← Stateful.get
    let headers ← Stateful.lift (backUpHeaders io 0 devs)
    operationLoop (fun i => onHandle (CryptHandle.rebindClevis pinDispatch (io.act i)))
      (restore io headers)

end BlockDevs

/-! ### Calls -/

inductive Request where
  | bindClevis (pin : String) (clevisInfo : Value)
  | unbindClevis
  | bindKeyring (keyDesc : String)
  | unbindKeyring
  | rebindKeyring (keyDesc : String)
  | rebindClevis

/-- What a call returns. -/
inductive Reply where
  | changed (changed : Bool)
  | rebound (changed : Option Bool)
  | done
  deriving DecidableEq

def Request.run (pinDispatch : Value → StratisResult (String × Value)) (io : ManagerIo) :
    Request → BlockDevs.M Reply
  | .bindClevis pin clevisInfo => .changed <$> BlockDevs.bindClevis io pin clevisInfo
  | .unbindClevis => .changed <$> BlockDevs.unbindClevis io
  | .bindKeyring keyDesc => .changed <$> BlockDevs.bindKeyring io keyDesc
  | .unbindKeyring => .changed <$> BlockDevs.unbindKeyring io
  | .rebindKeyring keyDesc => .rebound <$> BlockDevs.rebindKeyring io keyDesc
  | .rebindClevis => (fun _ => .done) <$> BlockDevs.rebindClevis pinDispatch io

/-- A request and the answers of the system while it is served. -/
structure CryptInput where
  request : Request
  io : ManagerIo

def step (pinDispatch : Value → StratisResult (String × Value)) (devs : BlockDevs)
    (input : CryptInput) : BlockDevs × StratisResult Reply :=
  input.request.run pinDispatch input.io devs

end Stratisd.Crypt
