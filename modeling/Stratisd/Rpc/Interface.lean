import Stratisd.Engine.Keys
import Stratisd.Thinpool.Filesystem

/-! What goes over the socket of the JSON-RPC server: the requests, with at most one file
descriptor, and the replies to them. A reply is named like a request. -/

namespace Stratisd.Rpc

open Run Engine Media Thinpool

abbrev RawFd := ℤ

inductive UnlockMethod where
  | clevis
  | keyring
  deriving DecidableEq

/-- The names that requests and replies have. -/
inductive Method where
  | keySet
  | keyUnset
  | keyList
  | poolCreate
  | poolRename
  | poolAddData
  | poolInitCache
  | poolAddCache
  | poolDestroy
  | poolUnlock
  | poolList
  | poolIsEncrypted
  | poolIsLocked
  | poolIsBound
  | poolHasPassphrase
  | poolClevisPin
  | fsCreate
  | fsDestroy
  | fsRename
  | fsList
  | report
  deriving DecidableEq

inductive StratisParamType where
  | keySet (keyDesc : String)
  | keyUnset (keyDesc : String)
  | keyList
  | poolCreate (name : String) (paths : List String) (encryptionInfo : EncryptionInfo)
  | poolRename (name newName : String)
  | poolAddData (name : String) (paths : List String)
  | poolInitCache (name : String) (paths : List String)
  | poolAddCache (name : String) (paths : List String)
  | poolDestroy (name : String)
  | poolUnlock (unlockMethod : UnlockMethod) (uuid : Option PoolUuid)
  | poolList
  | poolIsEncrypted (uuid : PoolUuid)
  | poolIsLocked (uuid : PoolUuid)
  | poolIsBound (uuid : PoolUuid)
  | poolHasPassphrase (uuid : PoolUuid)
  | poolClevisPin (uuid : PoolUuid)
  | fsCreate (poolName fsName : String)
  | fsDestroy (poolName fsName : String)
  | fsRename (poolName fsName newFsName : String)
  | fsList
  | report
  deriving DecidableEq

def StratisParamType.method : StratisParamType → Method
  | keySet _ => .keySet
  | keyUnset _ => .keyUnset
  | keyList => .keyList
  | poolCreate .. => .poolCreate
  | poolRename .. => .poolRename
  | poolAddData .. => .poolAddData
  | poolInitCache .. => .poolInitCache
  | poolAddCache .. => .poolAddCache
  | poolDestroy _ => .poolDestroy
  | poolUnlock .. => .poolUnlock
  | poolList => .poolList
  | poolIsEncrypted _ => .poolIsEncrypted
  | poolIsLocked _ => .poolIsLocked
  | poolIsBound _ => .poolIsBound
  | poolHasPassphrase _ => .poolHasPassphrase
  | poolClevisPin _ => .poolClevisPin
  | fsCreate .. => .fsCreate
  | fsDestroy .. => .fsDestroy
  | fsRename .. => .fsRename
  | fsList => .fsList
  | report => .report

structure StratisParams where
  type_ : StratisParamType
  fdOpt : Option RawFd
  deriving DecidableEq

/-- The names, sizes and sizes in use, whether there is a cache and encryption, and the UUIDs. -/
abbrev PoolListType :=
  List String × List (ℕ × Option ℕ) × List (Bool × Bool) × List PoolUuid

/-- The names of the pools, the names, the sizes in use, the times of creation, the device nodes and
the UUIDs. -/
abbrev FsListType :=
  List String × List String × List (Option ℕ) × List String × List String × List FilesystemUuid

/-- A value with a return code and a text. -/
abbrev Coded (T : Type) := T × ℕ × String

inductive StratisRet where
  | keySet (ret : Coded (Option Bool))
  | keyUnset (ret : Coded Bool)
  | keyList (ret : Coded (List String))
  | poolCreate (ret : Coded Bool)
  | poolRename (ret : Coded Bool)
  | poolAddData (ret : Coded Bool)
  | poolInitCache (ret : Coded Bool)
  | poolAddCache (ret : Coded Bool)
  | poolDestroy (ret : Coded Bool)
  | poolUnlock (ret : Coded Bool)
  | poolList (pools : PoolListType)
  | poolIsEncrypted (ret : Coded Bool)
  | poolIsLocked (ret : Coded Bool)
  | poolIsBound (ret : Coded Bool)
  | poolHasPassphrase (ret : Coded Bool)
  | poolClevisPin (ret : Coded (Option String))
  | fsCreate (ret : Coded Bool)
  | fsList (filesystems : FsListType)
  | fsDestroy (ret : Coded Bool)
  | fsRename (ret : Coded Bool)
  | report (value : Value)

def StratisRet.method : StratisRet → Method
  | keySet _ => .keySet
  | keyUnset _ => .keyUnset
  | keyList _ => .keyList
  | poolCreate _ => .poolCreate
  | poolRename _ => .poolRename
  | poolAddData _ => .poolAddData
  | poolInitCache _ => .poolInitCache
  | poolAddCache _ => .poolAddCache
  | poolDestroy _ => .poolDestroy
  | poolUnlock _ => .poolUnlock
  | poolList _ => .poolList
  | poolIsEncrypted _ => .poolIsEncrypted
  | poolIsLocked _ => .poolIsLocked
  | poolIsBound _ => .poolIsBound
  | poolHasPassphrase _ => .poolHasPassphrase
  | poolClevisPin _ => .poolClevisPin
  | fsCreate _ => .fsCreate
  | fsList _ => .fsList
  | fsDestroy _ => .fsDestroy
  | fsRename _ => .fsRename
  | report _ => .report

def opOk : ℕ := 0

def opErr : ℕ := 1

def opOkStr : String := "OK"

/-- The text of an error. What another library says of its own errors is given. -/
def displayError (foreign : StratisError → String) : StratisError → String
  | .msg text => text
  | .chained text cause => text ++ "; " ++ displayError foreign cause
  | .rollback causal rollback => "Rollback failed; causal_error: " ++ displayError foreign causal ++
      ", rollback error: " ++ displayError foreign rollback
  | .noActionRollback causal rollback => "Rollback failed; causal_error: " ++
      displayError foreign causal ++ ", rollback error: " ++ displayError foreign rollback
  | .io => "IO error: " ++ foreign .io
  | .uuid => "Uuid error: " ++ foreign .uuid
  | .utf8 => "Utf8 error: " ++ foreign .utf8
  | .dm => "DM error: " ++ foreign .dm
  | .serde => "Serde error: " ++ foreign .serde
  | .crypt => "Cryptsetup error: " ++ foreign .crypt

/-- The client takes a reply only if it has the name of its request. -/
def doRequest (request : StratisParamType) (reply : StratisRet) : StratisResult StratisRet :=
  if reply.method = request.method then .ok reply
  else .err (.msg "Request and response types did not match")

theorem doRequest_eq_ok {request : StratisParamType} {reply : StratisRet} :
    doRequest request reply = .ok reply ↔ reply.method = request.method := by
  unfold doRequest
  split_ifs with h
  · exact iff_of_true rfl h
  · exact iff_of_false nofun h

end Stratisd.Rpc
