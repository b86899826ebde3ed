import Stratisd.Engine.Repeated
import Stratisd.Sim.RealPool

/-! The real engine on its devices, as far as the simulated one has the same calls. A pool is
created with the handles of its devices, and gives its devices back when it is destroyed. -/

namespace Stratisd.Sim

open Run Run.Outcome Run.Stateful Engine Media Backstore Pool Devices Crypt CryptHandle

/-- The engine on its devices, with the handles of those that are encrypted. -/
structure Host where
  site : Site
  /-- The block devices of the data tier of each pool. -/
  blockDevs : PoolUuid → BlockDevs

namespace Host

abbrev M := Stateful Host StratisError

abbrev pools (s : Host) : Table PoolUuid StratPool := s.site.engine.pools

def onSite {α : Type} : Site.M α → M α :=
  Stateful.within (·.site) fun site s => { s with site }

/-! ### Creating a pool -/

/-- The answers of the system while a pool is created. -/
structure CreateIo where
  uuid : PoolUuid
  pool : StratPool.CreationIo
  /-- While the device at the given path is encrypted. -/
  crypt : String → Crypt.InitIo

variable (codec : JweCodec) (overflowChecks : Bool) (validateName : String → StratisResult Unit)

/-- The handle of a device that is encrypted for a new pool. -/
def CreateIo.handle (io : CreateIo) (info : EncryptionInfo) (path : String) :
    StratisResult CryptHandle := do
  let physicalPath ← (io.pool.prepare.one path).devicePath
  CryptInitializer.initializeHandle (pinDispatch codec) (io.crypt path) physicalPath
    info.keyDescription info.clevisInfo

/-- The answers while the device at a path is set up, with what becomes of its encryption. -/
def CreateIo.one (io : CreateIo) (info : EncryptionInfo) (path : String) : InitOneIo :=
  { io.pool.prepare.one path with
    cryptInitialize := do
      let _ ← io.handle codec info path
      .ok () }

def CreateIo.onSite (io : CreateIo) (info : EncryptionInfo) : Site.CreateIo :=
  ⟨io.uuid, { io.pool with prepare := { io.pool.prepare with one := io.one codec info } }⟩

/-- The new block devices, in the order in which they are set up. -/
def CreateIo.blockDevs (io : CreateIo) (info : EncryptionInfo) (paths : List String) :
    StratisResult BlockDevs :=
  Outcome.collect (fun path =>
    if info.isEncrypted then do
      let handle ← io.handle codec info path
      .ok (some handle)
    else .ok none) paths.eraseDups

def createPool (io : CreateIo) (name : String) (paths : List String) (redundancy : Option ℕ)
    (encryptionInfo : EncryptionInfo) : M CreateAction := do
  let action ← onSite (Site.createPool overflowChecks validateName (io.onSite codec encryptionInfo)
    name paths redundancy encryptionInfo)
  match action with
  | .created uuid => do
    let devs ← Stateful.lift (io.blockDevs codec encryptionInfo paths)
    Stateful.modify fun s => { s with blockDevs := Function.update s.blockDevs uuid devs }
    pure action
  | .identity => pure action

/-! ### Destroying and renaming a pool -/

/-- The answers of the system while a pool is destroyed. -/
structure DestroyIo where
  thinPool : StratisResult Unit
  cap : StratisResult Unit
  disown : DevUuid → StratisResult Unit

/-- Block devices with what they are on. -/
def placed (underlying : Underlying) (devs : List StratBlockDev) : List Placed :=
  devs.filterMap fun dev => (underlying dev.uuid).map fun u => ⟨dev, u⟩

/-- Tear down a pool and give its devices back. -/
def DestroyIo.destroy (io : DestroyIo) (underlying : Underlying) (pool : StratPool) :
    Devices.M Unit := do
  Stateful.lift io.thinPool
  destroyBackstore io.cap io.disown pool.backstore (placed underlying pool.backstore.cachedevs)
    (placed underlying pool.backstore.datadevs)

/-- The headers afterwards, and whether it has been done. A pool with filesystems is not
touched. -/
def destroyed (io : DestroyIo) (uuid : PoolUuid) (s : Host) : Headers × StratisResult Unit :=
  match s.pools.getByUuid uuid with
  | some (_, pool) =>
    if StratEngine.hasFilesystems pool then (s.site.headers, .ok ())
    else io.destroy s.site.underlying pool s.site.headers
  | none => (s.site.headers, .ok ())

def destroyPool (io : DestroyIo) (uuid : PoolUuid) : M DeleteAction := do
  let s ← Stateful.get
  let r := destroyed io uuid s
  Stateful.modify fun s => { s with site := { s.site with headers := r.1 } }
  onSite (Site.onEngine (StratEngine.destroyPool (fun pool => (pool, r.2)) uuid))

def renamePool (save : StratisResult Unit) (uuid : PoolUuid) (newName : String) : M RenameAction :=
  onSite (Site.onEngine (StratEngine.renamePool ⟨validateName newName, save⟩ uuid newName))

/-- A call on one of the pools, if it is there. -/
def onPool {α : Type} (uuid : PoolUuid) (p : BlockDevs.M α) : M (Option α) := fun s =>
  match s.pools.getByUuid uuid with
  | none => (s, .ok none)
  | some _ =>
    ({ s with blockDevs := Function.update s.blockDevs uuid (p (s.blockDevs uuid)).1 },
      (p (s.blockDevs uuid)).2 >>= fun a => .ok (some a))

/-! ### A key that is not in the keyring -/

/-- The system does what is needed before the key is read, and after it could not be. -/
structure Formats (io : Crypt.InitIo) : Prop where
  init : io.init = .ok ()
  setMetadataSize : io.setMetadataSize = .ok ()
  format : io.format = .ok ()
  acquireAgain : io.acquireAgain = .ok ()

section missing

variable {codec overflowChecks} {keyDesc : String}

theorem initializeWithErr_missing {io : Crypt.InitIo} (hio : Formats io)
    (hread : io.readKey keyDesc = .ok none) (clevisInfo : Option (String × Value))
    (d : CryptHandle) :
    ∃ e, (CryptInitializer.initializeWithErr io (some keyDesc) clevisInfo d).2 = .err e := by
  obtain ⟨e, hkey⟩ : ∃ e, keyDescToPassphrase io.toCryptIo keyDesc = .err e := by
    rw [keyDescToPassphrase, hread]
    exact ⟨_, rfl⟩
  have hformat : call_ io.toCryptIo io.format (fun _ => some ⟨∅, none, none⟩) d =
      ({ d with header := ⟨∅, none, none⟩ }, .ok ()) := by
    rw [call_, call, hio.format]
    rfl
  have hkeyring : ∀ d, (CryptInitializer.initializeWithKeyring io keyDesc d).2 = .err e := by
    intro d
    rw [CryptInitializer.initializeWithKeyring, hkey]
    rfl
  have hbind : ∀ d, (CryptInitializer.bindNew io (some keyDesc) clevisInfo d).2 = .err e := by
    intro d
    cases clevisInfo with
    | none => exact hkeyring d
    | some ci =>
      have hboth : (CryptInitializer.initializeWithBoth io keyDesc d).2 = .err e := by
        rw [CryptInitializer.initializeWithBoth, bind_of_err (hkeyring d)]
      rw [CryptInitializer.bindNew, bind_of_err hboth]
  refine ⟨e, ?_⟩
  rw [CryptInitializer.initializeWithErr, bind_of_eq hformat,
    bind_of_err (hbind _)]

theorem interpretNew_ne_panic (clevisInfo : Option (String × Value)) :
    CryptInitializer.interpretNew clevisInfo ≠ .panic := by
  cases clevisInfo with
  | none => exact nofun
  | some ci =>
    have hinterpret : interpretClevisConfig ci.1 ci.2 ≠ .panic := by
      unfold interpretClevisConfig
      split_ifs
      · split <;> exact nofun
      · exact nofun
    exact bind_ne_panic hinterpret fun _ => nofun

theorem handle_missing {io : CreateIo} {info : EncryptionInfo} {path physicalPath : String}
    (hpath : (io.pool.prepare.one path).devicePath = .ok physicalPath)
    (hio : Formats (io.crypt path)) (hkey : info.keyDescription = some keyDesc)
    (hread : (io.crypt path).readKey keyDesc = .ok none) :
    ∃ e, io.handle codec info path = .err e := by
  rw [CreateIo.handle, hpath, ok_bind, CryptInitializer.initializeHandle, hkey]
  cases hinterpret : CryptInitializer.interpretNew info.clevisInfo with
  | panic => exact absurd hinterpret (interpretNew_ne_panic info.clevisInfo)
  | err e => exact ⟨e, rfl⟩
  | ok u =>
    rw [ok_bind, hio.init, ok_bind, hio.setMetadataSize, ok_bind]
    obtain ⟨e, he⟩ := initializeWithErr_missing hio hread info.clevisInfo
      ⟨physicalPath, ⟨∅, none, none⟩, ⟨none, none⟩⟩
    rcases hdevice : CryptInitializer.initializeWithErr (io.crypt path) (some keyDesc)
      info.clevisInfo ⟨physicalPath, ⟨∅, none, none⟩, ⟨none, none⟩⟩ with ⟨device, answer⟩
    rw [hdevice] at he
    obtain rfl : answer = .err e := he
    refine ⟨e, ?_⟩
    rw [hio.acquireAgain]
    rfl

end missing

end Host

end Stratisd.Sim
