import Stratisd.Media.Json

/-! How a device is encrypted, and the configuration of Clevis. -/

namespace Stratisd.Engine

open Media

/-- How a device is encrypted: the description of a key in the kernel keyring, and the pin of
Clevis with its configuration. -/
@[ext]
structure EncryptionInfo where
  keyDescription : Option String
  clevisInfo : Option (String × Value)
  deriving DecidableEq

def EncryptionInfo.isEncrypted (e : EncryptionInfo) : Bool :=
  e.keyDescription.isSome || e.clevisInfo.isSome

end Stratisd.Engine
