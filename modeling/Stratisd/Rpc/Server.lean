import Stratisd.Engine.StratEngine
import Stratisd.Rpc.Interface
import Stratisd.Run.Beside

/-! The JSON-RPC server. Requests are served by an engine behind a lock, which is taken for each
step of a request; in between the engine may serve others. Beside the engine stands what becomes of
the file descriptors that come with the packets. -/

namespace Stratisd.Rpc

open Run Engine Media Thinpool

/-! ### The engine -/

inductive MappingCreateAction where
  | created
  | identity
  | valueChanged
  deriving DecidableEq

inductive MappingDeleteAction where
  | deleted
  | identity
  deriving DecidableEq

structure FsView where
  used : Except StratisError ℕ
  created : String
  devnode : String

/-- What can be read of a pool. Sizes are in bytes. -/
structure PoolView where
  totalPhysicalSize : ℕ
  totalPhysicalUsed : Except StratisError ℕ
  hasCache : Bool
  isEncrypted : Bool
  encryptionInfo : EncryptionInfo
  filesystems : List (String × FilesystemUuid × FsView)
  filesystemByName : String → Option FilesystemUuid

/-- The operations of an engine, its pools and its key handler. The actions on several things are
given by what has changed. -/
structure EngineOps (σ : Type) where
  pools : σ → List (String × PoolUuid × PoolView)
  getPool : σ → PoolUuid → Option PoolView
  lockedPools : σ → List (PoolUuid × EncryptionInfo)
  createPool : String → List String → EncryptionInfo → Stateful σ StratisError CreateAction
  destroyPool : PoolUuid → Stateful σ StratisError DeleteAction
  renamePool : PoolUuid → String → Stateful σ StratisError RenameAction
  unlockPool : PoolUuid → UnlockMethod → Stateful σ StratisError (List DevUuid)
  initCache : PoolUuid → String → List String → Stateful σ StratisError (List DevUuid)
  addBlockdevs : PoolUuid → String → List String → BlockDevTier →
    Stateful σ StratisError (List DevUuid)
  createFilesystems : PoolUuid → String → List (String × Option ℕ) →
    Stateful σ StratisError (List (String × FilesystemUuid))
  destroyFilesystems : PoolUuid → String → List FilesystemUuid →
    Stateful σ StratisError (List FilesystemUuid)
  /-- Whether the filesystem has been renamed, if there is one. -/
  renameFilesystem : PoolUuid → String → FilesystemUuid → String →
    Stateful σ StratisError (Option Bool)
  setKey : String → List UInt8 → Stateful σ StratisError MappingCreateAction
  unsetKey : String → Stateful σ StratisError MappingDeleteAction
  listKeys : σ → StratisResult (List String)
  engineStateReport : σ → Value

/-! ### File descriptors -/

/-- What becomes of file descriptors. Those that the key handler has been handed are its own, and
it closes them. -/
structure Descriptors where
  received : List RawFd
  closed : List RawFd
  handed : List RawFd
  closedByHandler : List RawFd
  deriving DecidableEq

/-- Code of the server, beside the file descriptors. -/
abbrev Serving (σ α : Type) := Stateful (σ × Descriptors) StratisError α

variable {σ : Type}

def close (fd : RawFd) : Serving σ Unit :=
  Stateful.note fun d => { d with closed := fd :: d.closed }

/-- The answers of the system while a key is read from a file. -/
structure KeyFileIo where
  alloc : StratisResult Unit
  /-- What is read at once, no more than the longest key. -/
  read : StratisResult (List UInt8)
  poll : StratisResult ℕ

/-- The longest key, in bytes. -/
def maxStratisPassSize : ℕ := 512 / 8

def readKeyFile (io : KeyFileIo) : StratisResult (List UInt8) := do
  io.alloc
  let memory ← io.read
  if memory.length = maxStratisPassSize then do
    let numEvents ← io.poll
    if numEvents > 0 then .err (.msg
      s!"Provided key exceeded maximum allow length of {maxStratisPassSize} bytes")
    else .ok memory
  else .ok memory

/-- The descriptor belongs to the file, which is closed when the function is left. -/
def setKeyShared (io : KeyFileIo) (keyFd : RawFd) : Serving σ (List UInt8) := do
  Stateful.note fun d => { d with closedByHandler := keyFd :: d.closedByHandler }
  Stateful.lift (readKeyFile io)

/-! ### Requests -/

/-- What happens around a request: what the engine does for others between the steps, the file of a
key, and the texts of errors of other libraries. -/
structure ServeIo (σ : Type) where
  afterDesc : σ → σ
  afterKey : σ → σ
  keyFile : KeyFileIo
  foreign : StratisError → String

/-- How the source prints a UUID without hyphens. -/
def displaySimpleUuid (u : BitVec 128) : String :=
  String.ofList ((List.range 32).map fun i => Nat.digitChar (u.toNat / 16 ^ (31 - i) % 16))

/-- The pool of a name. No two pools have one name. -/
def nameToUuidAndPool (ops : EngineOps σ) (name : String) :
    Stateful σ StratisError (Option (PoolUuid × PoolView)) := do
  let s ← Stateful.get
  let uuidsPoolsForName := (ops.pools s).filter fun p => p.1 = name
  if uuidsPoolsForName.length ≤ 1 then pure (uuidsPoolsForName.getLast?.map (·.2))
  else Stateful.lift .panic

def poolNamed (ops : EngineOps σ) (name : String) (message : String) :
    Stateful σ StratisError (PoolUuid × PoolView) := do
  let found ← nameToUuidAndPool ops name
  Stateful.lift (Outcome.ofOption (.msg message) found)

namespace Key

variable (ops : EngineOps σ)

def keySet (io : KeyFileIo) (keyDesc : String) (keyFd : RawFd) : Serving σ (Option Bool) := do
  Stateful.note fun d => { d with handed := keyFd :: d.handed }
  let memory ← setKeyShared io keyFd
  let action ← Stateful.beside (ops.setKey keyDesc memory)
  match action with
  | .created => pure (some false)
  | .valueChanged => pure (some true)
  | .identity => pure none

def keyUnset (keyDesc : String) : Stateful σ StratisError Bool := do
  let action ← ops.unsetKey keyDesc
  match action with
  | .deleted => pure true
  | .identity => pure false

def keyList : Stateful σ StratisError (List String) := do
  let s ← Stateful.get
  Stateful.lift (ops.listKeys s)

def keyGetDesc (s : σ) (poolUuid : PoolUuid) : Option String :=
  ((ops.lockedPools s).lookup poolUuid).bind (·.keyDescription)

end Key

namespace Pool

variable (ops : EngineOps σ)

/-- Unlock one pool after the other. Those that can not be unlocked are passed over. -/
def unlockAll (unlockMethod : UnlockMethod) :
    List PoolUuid → Bool → Stateful σ StratisError Bool
  | [], changed => pure changed
  | uuid :: uuids, changed => do
    let res ← Stateful.attempt (ops.unlockPool uuid unlockMethod)
    match res with
    | some unlocked => unlockAll unlockMethod uuids (changed || !unlocked.isEmpty)
    | none => unlockAll unlockMethod uuids changed

/-- A descriptor is used only if there is a pool to unlock that has a key description. -/
def setPromptedKey (io : ServeIo σ) (poolUuid : Option PoolUuid) (prompt : Option RawFd) :
    Serving σ Unit :=
  match poolUuid with
  | none => pure ()
  | some uuid => do
    let s ← Stateful.beside Stateful.get
    match prompt, Key.keyGetDesc ops s uuid with
    | some fd, some kd => do
      Stateful.beside (Stateful.modify io.afterDesc)
      let _ ← Key.keySet ops io.keyFile kd fd
      pure ()
    | _, _ => pure ()

def unlockEngine (unlockMethod : UnlockMethod) (poolUuid : Option PoolUuid) :
    Stateful σ StratisError Bool :=
  match poolUuid with
  | some uuid => do
    let unlocked ← ops.unlockPool uuid unlockMethod
    pure (!unlocked.isEmpty)
  | none => do
    let s ← Stateful.get
    unlockAll ops unlockMethod ((ops.lockedPools s).map (·.1)) false

def poolUnlock (io : ServeIo σ) (unlockMethod : UnlockMethod) (poolUuid : Option PoolUuid)
    (prompt : Option RawFd) : Serving σ Bool := do
  setPromptedKey ops io poolUuid prompt
  Stateful.beside (Stateful.modify io.afterKey)
  Stateful.beside (unlockEngine ops unlockMethod poolUuid)

def poolCreate (name : String) (blockdevPaths : List String) (encInfo : EncryptionInfo) :
    Stateful σ StratisError Bool := do
  let action ← ops.createPool name blockdevPaths encInfo
  match action with
  | .created _ => pure true
  | .identity => pure false

def poolDestroy (name : String) : Stateful σ StratisError Bool := do
  let (uuid, _) ← poolNamed ops name s!"No pool found with name {name}"
  let action ← ops.destroyPool uuid
  match action with
  | .deleted _ => pure true
  | .identity => pure false

def poolInitCache (name : String) (paths : List String) : Stateful σ StratisError Bool := do
  let (uuid, _) ← poolNamed ops name s!"No pool found with name {name}"
  let changed ← ops.initCache uuid name paths
  pure (!changed.isEmpty)

def poolRename (currentName newName : String) : Stateful σ StratisError Bool := do
  let (uuid, _) ← poolNamed ops currentName s!"No pool found with name {currentName}"
  let action ← ops.renamePool uuid newName
  match action with
  | .identity => pure false
  | .renamed _ => pure true
  | .noSource => Stateful.lift .panic

def addBlockdevs (name : String) (blockdevs : List String) (tier : BlockDevTier) :
    Stateful σ StratisError Bool := do
  let (uuid, _) ← poolNamed ops name s!"No pool found with name {name}"
  let changed ← ops.addBlockdevs uuid name blockdevs tier
  pure (!changed.isEmpty)

def poolAddData (name : String) (blockdevs : List String) : Stateful σ StratisError Bool :=
  addBlockdevs ops name blockdevs .data

def poolAddCache (name : String) (blockdevs : List String) : Stateful σ StratisError Bool :=
  addBlockdevs ops name blockdevs .cache

def poolList (s : σ) : PoolListType :=
  ((ops.pools s).map (·.1),
    (ops.pools s).map fun p => (p.2.2.totalPhysicalSize, p.2.2.totalPhysicalUsed.toOption),
    (ops.pools s).map fun p => (p.2.2.hasCache, p.2.2.isEncrypted),
    (ops.pools s).map (·.2.1))

/-- A property of a pool, or of a locked pool, by its UUID. -/
def poolIs {α : Type} (ofPool : PoolView → α) (ofLocked : EncryptionInfo → α) (uuid : PoolUuid) :
    Stateful σ StratisError α := do
  let s ← Stateful.get
  match ops.getPool s uuid with
  | some pool => pure (ofPool pool)
  | none =>
    match (ops.lockedPools s).lookup uuid with
    | some info => pure (ofLocked info)
    | none => Stateful.lift (.err (.msg
        ("Pool with UUID " ++ displaySimpleUuid uuid.val ++ " not found")))

def poolIsEncrypted : PoolUuid → Stateful σ StratisError Bool :=
  poolIs ops (·.isEncrypted) fun _ => true

def poolIsLocked : PoolUuid → Stateful σ StratisError Bool :=
  poolIs ops (fun _ => false) fun _ => true

def poolIsBound : PoolUuid → Stateful σ StratisError Bool :=
  poolIs ops (·.encryptionInfo.clevisInfo.isSome) (·.clevisInfo.isSome)

def poolHasPassphrase : PoolUuid → Stateful σ StratisError Bool :=
  poolIs ops (·.encryptionInfo.keyDescription.isSome) (·.keyDescription.isSome)

def poolClevisPin : PoolUuid → Stateful σ StratisError (Option String) :=
  poolIs ops (·.encryptionInfo.clevisInfo.map (·.1)) (·.clevisInfo.map (·.1))

end Pool

namespace Filesystem

variable (ops : EngineOps σ)

def filesystemCreate (poolName name : String) : Stateful σ StratisError Bool := do
  let (poolUuid, _) ← poolNamed ops poolName s!"No pool named {poolName} found"
  let changed ← ops.createFilesystems poolUuid poolName [(name, none)]
  pure (!changed.isEmpty)

def filesystemList (s : σ) : FsListType :=
  let rows := (ops.pools s).flatMap fun p => p.2.2.filesystems.map fun f => (p.1, f)
  (rows.map (·.1), rows.map (·.2.1), rows.map (·.2.2.2.used.toOption), rows.map (·.2.2.2.created),
    rows.map (·.2.2.2.devnode), rows.map (·.2.2.1))

def filesystemDestroy (poolName fsName : String) : Stateful σ StratisError Bool := do
  let (poolUuid, pool) ← poolNamed ops poolName s!"No pool named {poolName} found"
  let uuid ← Stateful.lift (Outcome.ofOption (.msg s!"No filesystem named {fsName} found")
    (pool.filesystemByName fsName))
  let changed ← ops.destroyFilesystems poolUuid poolName [uuid]
  pure (!changed.isEmpty)

def filesystemRename (poolName fsName newFsName : String) : Stateful σ StratisError Bool := do
  let (poolUuid, pool) ← poolNamed ops poolName s!"No pool named {poolName} found"
  let uuid ← Stateful.lift (Outcome.ofOption (.msg s!"No filesystem named {fsName} found")
    (pool.filesystemByName fsName))
  let renamed ← ops.renameFilesystem poolUuid poolName uuid newFsName
  pure (renamed == some true)

end Filesystem

/-! ### Replies -/

def stratisResultToReturn {T : Type} (foreign : StratisError → String)
    (result : Except StratisError T) (defaultValue : T) : Coded T :=
  match result with
  | .ok r => (r, opOk, opOkStr)
  | .error e => (defaultValue, opErr, displayError foreign e)

/-- Serve the request, and reply with its result or with its error. -/
def reply {T : Type} (foreign : StratisError → String) (ret : Coded T → StratisRet)
    (defaultValue : T) (p : Serving σ T) : Serving σ StratisRet := fun x =>
  match p x with
  | (x', .ok r) => (x', .ok (ret (stratisResultToReturn foreign (.ok r) defaultValue)))
  | (x', .err e) => (x', .ok (ret (stratisResultToReturn foreign (.error e) defaultValue)))
  | (x', .panic) => (x', .panic)

/-- A request that needs a file descriptor. -/
def expectsFd {T : Type} (foreign : StratisError → String) (fdOpt : Option RawFd)
    (ret : Coded T → StratisRet) (default : T) (rest : RawFd → Serving σ StratisRet) :
    Serving σ StratisRet :=
  match fdOpt with
  | some fd => rest fd
  | none => pure (ret (stratisResultToReturn foreign
      (.error (.msg "Method expected a file descriptor and did not receive one")) default))

/-- A request that does not take a file descriptor. -/
def expectsNoFd {T : Type} (foreign : StratisError → String) (fdOpt : Option RawFd)
    (ret : Coded T → StratisRet) (default : T) (rest : Serving σ StratisRet) :
    Serving σ StratisRet :=
  match fdOpt with
  | some fd => do
    close fd
    pure (ret (stratisResultToReturn foreign (.error (.msg
      ("Method did not expect a file descriptor and received one " ++
        "anyway; file descriptor has been closed"))) default))
  | none => rest

/-- A request that only reads. A file descriptor is closed without a word. -/
def readOnly (fdOpt : Option RawFd) (ret : σ → StratisRet) : Serving σ StratisRet := do
  match fdOpt with
  | some fd => close fd
  | none => pure ()
  let s ← Stateful.beside Stateful.get
  pure (ret s)

def process (ops : EngineOps σ) (io : ServeIo σ) (params : StratisParams) : Serving σ StratisRet :=
  let f := io.foreign
  let fdOpt := params.fdOpt
  match params.type_ with
  | .keySet keyDesc => expectsFd f fdOpt .keySet none fun fd =>
      reply f .keySet none (Key.keySet ops io.keyFile keyDesc fd)
  | .keyUnset keyDesc => expectsNoFd f fdOpt .keyUnset false <|
      reply f .keyUnset false (Stateful.beside (Key.keyUnset ops keyDesc))
  | .keyList => expectsNoFd f fdOpt .keyUnset false <|
      reply f .keyList [] (Stateful.beside (Key.keyList ops))
  | .poolCreate name paths encryptionInfo => expectsNoFd f fdOpt .poolCreate false <|
      reply f .poolCreate false (Stateful.beside (Pool.poolCreate ops name paths encryptionInfo))
  | .poolRename name newName => expectsNoFd f fdOpt .poolRename false <|
      reply f .poolRename false (Stateful.beside (Pool.poolRename ops name newName))
  | .poolAddData name paths => expectsNoFd f fdOpt .poolAddData false <|
      reply f .poolInitCache false (Stateful.beside (Pool.poolAddData ops name paths))
  | .poolInitCache name paths => expectsNoFd f fdOpt .poolInitCache false <|
      reply f .poolInitCache false (Stateful.beside (Pool.poolInitCache ops name paths))
  | .poolAddCache name paths => expectsNoFd f fdOpt .poolAddCache false <|
      reply f .poolAddCache false (Stateful.beside (Pool.poolAddCache ops name paths))
  | .poolDestroy name => expectsNoFd f fdOpt .poolDestroy false <|
      reply f .poolDestroy false (Stateful.beside (Pool.poolDestroy ops name))
  | .poolUnlock unlockMethod uuid =>
      reply f .poolUnlock false (Pool.poolUnlock ops io unlockMethod uuid fdOpt)
  | .poolList => readOnly fdOpt fun s => .poolList (Pool.poolList ops s)
  | .poolIsEncrypted uuid => expectsNoFd f fdOpt .poolIsEncrypted false <|
      reply f .poolIsEncrypted false (Stateful.beside (Pool.poolIsEncrypted ops uuid))
  | .poolIsLocked uuid => expectsNoFd f fdOpt .poolIsLocked false <|
      reply f .poolIsLocked false (Stateful.beside (Pool.poolIsLocked ops uuid))
  | .poolIsBound uuid => expectsNoFd f fdOpt .poolIsBound false <|
      reply f .poolIsBound false (Stateful.beside (Pool.poolIsBound ops uuid))
  | .poolHasPassphrase uuid => expectsNoFd f fdOpt .poolHasPassphrase false <|
      reply f .poolHasPassphrase false (Stateful.beside (Pool.poolHasPassphrase ops uuid))
  | .poolClevisPin uuid => expectsNoFd f fdOpt .poolClevisPin none <|
      reply f .poolClevisPin none (Stateful.beside (Pool.poolClevisPin ops uuid))
  | .fsCreate poolName fsName => expectsNoFd f fdOpt .fsCreate false <|
      reply f .fsCreate false (Stateful.beside (Filesystem.filesystemCreate ops poolName fsName))
  | .fsList => readOnly fdOpt fun s => .fsList (Filesystem.filesystemList ops s)
  | .fsDestroy poolName fsName => expectsNoFd f fdOpt .fsDestroy false <|
      reply f .fsDestroy false (Stateful.beside (Filesystem.filesystemDestroy ops poolName fsName))
  | .fsRename poolName fsName newFsName => expectsNoFd f fdOpt .fsRename false <|
      reply f .fsRename false
        (Stateful.beside (Filesystem.filesystemRename ops poolName fsName newFsName))
  | .report => readOnly fdOpt fun s => .report (ops.engineStateReport s)

/-! ### Packets -/

/-- A control message with file descriptors, or another one. -/
inductive ControlMessage where
  | scmRights (fds : List RawFd)
  | other
  deriving DecidableEq

def ControlMessage.fds : ControlMessage → List RawFd
  | scmRights fds => fds
  | other => []

structure Packet where
  cmsgs : List ControlMessage
  payload : List UInt8
  deriving DecidableEq

def Packet.fds (p : Packet) : List RawFd := p.cmsgs.flatMap (·.fds)

/-- The file descriptor of a packet. If there are more, all are closed. -/
def handleCmsgs (cmsgs : List ControlMessage) : Serving σ (Option RawFd) :=
  if cmsgs.length > 1 then do
    Stateful.forEach close (cmsgs.flatMap (·.fds))
    Stateful.lift (.err (.msg "Unix packet contained more than one ancillary data message"))
  else
    match cmsgs.getLast? with
    | some (.scmRights fds) =>
      if fds.length > 1 then do
        Stateful.forEach close fds
        Stateful.lift (.err (.msg "Received more than one file descriptor"))
      else pure fds.getLast?
    | _ => pure none

/-- The request of a packet, if its payload is one. -/
def tryRecvmsg (fromSlice : List UInt8 → Option StratisParamType) (packet : Packet) :
    Serving σ StratisParams := do
  Stateful.note fun d => { d with received := packet.fds ++ d.received }
  let fdOpt ← handleCmsgs packet.cmsgs
  let type_ ← Stateful.lift (Outcome.ofOption .serde (fromSlice packet.payload))
  pure ⟨type_, fdOpt⟩

/-- There is no reply to a packet without a request. -/
def handleRequest (ops : EngineOps σ) (fromSlice : List UInt8 → Option StratisParamType)
    (io : ServeIo σ) (packet : Packet) : Serving σ (Option StratisRet) := do
  let received ← Stateful.attempt (tryRecvmsg fromSlice packet)
  match received with
  | none => pure none
  | some params => do
    let ret ← process ops io params
    pure (some ret)

end Stratisd.Rpc
