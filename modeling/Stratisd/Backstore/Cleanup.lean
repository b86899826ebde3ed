import Stratisd.Backstore.Devices
import Stratisd.Crypt.Initialize
import Stratisd.Crypt.KeyLoss

/-! What is left on the devices of a request when they can not all be set up. The initializer of an
encrypted device is followed through its calls, to tell where it wipes what it has formatted. -/

namespace Stratisd.Devices

open Run Run.Stateful Engine Metadata Media Function

/-! ### The initializer of an encrypted device -/

/-- The answers of the system to one `CryptInitializer`. -/
structure CryptInitIo where
  calls : Crypt.InitIo
  /-- Whether there is a LUKS2 header after formatting has failed. -/
  formatLeft : Bool
  /-- Wiping the device after a failure. -/
  rollback : StratisResult Unit

/-- Whether there is a LUKS2 header once formatting has been tried. -/
def CryptInitIo.formatted (io : CryptInitIo) : Bool :=
  match io.calls.format with
  | .ok () => true
  | _ => io.formatLeft

section initializer

variable (pinDispatch : Value → StratisResult (String × Value)) (io : CryptInitIo) (path : String)
  (info : EncryptionInfo)

/-- The new device, once it has been bound and activated. -/
def initializeWithErr : Crypt.CryptHandle × StratisResult Unit :=
  Crypt.CryptInitializer.initializeWithErr io.calls info.keyDescription info.clevisInfo
    ⟨path, ⟨∅, none, none⟩, ⟨none, none⟩⟩

/-- `CryptInitializer::initialize`. The state is whether there is a LUKS2 header of its making. The
device is only wiped if it can be loaded again and the failure came before that. -/
def cryptInitialize : Stateful Bool StratisError Crypt.CryptHandle := do
  Stateful.lift (Crypt.CryptInitializer.interpretNew info.clevisInfo)
  Stateful.lift io.calls.init
  Stateful.lift io.calls.setMetadataSize
  Stateful.modify fun _ => io.formatted
  match initializeWithErr io path info with
  | (device, .ok ()) => do
    Stateful.lift io.calls.acquireAgain
    Stateful.lift io.calls.activatedPath
    let clevisInfo ← Stateful.lift
      (Crypt.CryptHandle.clevisInfoFromMetadata pinDispatch io.calls.toCryptIo device.header)
    pure ⟨path, device.header, ⟨info.keyDescription, clevisInfo⟩⟩
  | (_, .err e) => do
    Stateful.lift io.calls.acquireAgain
    let _ ← Stateful.attempt (do
      Stateful.lift io.rollback
      Stateful.modify fun _ => false)
    Stateful.lift (.err e)
  | (_, .panic) => Stateful.lift .panic

/-- The header has been written and nothing wipes it: the device can not be loaded again, or
something fails after it has been loaded. -/
def LeftByInitializer : Prop :=
  Crypt.CryptInitializer.interpretNew info.clevisInfo = .ok () ∧ io.calls.init = .ok () ∧
    io.calls.setMetadataSize = .ok () ∧ io.formatted = true ∧
    ((∃ e, io.calls.acquireAgain = .err e) ∨
      ((initializeWithErr io path info).2 = .ok () ∧ io.calls.acquireAgain = .ok () ∧
        ((∃ e, io.calls.activatedPath = .err e) ∨ io.calls.activatedPath = .ok () ∧
          ∃ e, Crypt.CryptHandle.clevisInfoFromMetadata pinDispatch io.calls.toCryptIo
            (initializeWithErr io path info).1.header = .err e)))

theorem cryptInitialize_snd (hrollback : io.rollback ≠ .panic) (left : Bool) :
    (cryptInitialize pinDispatch io path info left).2 =
      Crypt.CryptInitializer.initializeHandle pinDispatch io.calls path info.keyDescription
        info.clevisInfo := by
  simp only [cryptInitialize, Crypt.CryptInitializer.initializeHandle, lift_bind_snd,
    modify_bind]
  refine congrArg _ (funext fun _ => congrArg _ (funext fun _ => congrArg _ (funext fun _ => ?_)))
  rw [← initializeWithErr]
  rcases initializeWithErr io path info with ⟨device, _ | e | _⟩
  · simp only [lift_bind_snd, pure_apply]
  · simp only [lift_bind_snd]
    refine congrArg _ (funext fun _ => ?_)
    cases hr : io.rollback with
    | ok u => rfl
    | err e' => rfl
    | panic => exact absurd hr hrollback
  · rfl

variable {pinDispatch io path info}

theorem leftByInitializer_iff {left : Bool} {e : StratisError} (hrollback : io.rollback = .ok ())
    (h : cryptInitialize pinDispatch io path info false = (left, .err e)) :
    left = true ↔ LeftByInitializer pinDispatch io path info := by
  unfold LeftByInitializer
  rw [cryptInitialize, lift_bind_eq_err] at h
  rcases h with ⟨hinterpret, rfl⟩ | ⟨_, hinterpret, h⟩
  · simp [hinterpret]
  rw [lift_bind_eq_err] at h
  rcases h with ⟨hinit, rfl⟩ | ⟨_, hinit, h⟩
  · simp [hinit]
  rw [lift_bind_eq_err] at h
  rcases h with ⟨hsize, rfl⟩ | ⟨_, hsize, h⟩
  · simp [hsize]
  rw [modify_bind] at h
  rcases hdevice : initializeWithErr io path info with ⟨device, _ | e' | _⟩
  · -- bound and activated: whatever fails now, the header stays
    simp only [hdevice] at h
    rw [lift_bind_eq_err] at h
    rcases h with ⟨hload, rfl⟩ | ⟨_, hload, h⟩
    · simp [hinterpret, hinit, hsize, hload]
    rw [lift_bind_eq_err] at h
    rcases h with ⟨hpath, rfl⟩ | ⟨_, hpath, h⟩
    · simp [hinterpret, hinit, hsize, hload, hpath]
    rw [lift_bind_eq_err] at h
    rcases h with ⟨hclevis, rfl⟩ | ⟨_, hclevis, h⟩
    · simp [hinterpret, hinit, hsize, hload, hpath, hclevis]
    · cases h
  · simp only [hdevice] at h
    rw [lift_bind_eq_err] at h
    rcases h with ⟨hload, rfl⟩ | ⟨_, hload, h⟩
    · simp [hinterpret, hinit, hsize, hload]
    · -- loaded again, and wiped
      rw [hrollback] at h
      cases h
      simp [hload]
  · rw [hdevice] at h
    cases h

theorem LeftByInitializer.ne_ok (hleft : LeftByInitializer pinDispatch io path info) (left : Bool)
    (handle : Crypt.CryptHandle) :
    (cryptInitialize pinDispatch io path info left).2 ≠ .ok handle := by
  obtain ⟨hinterpret, hinit, hsize, -, hrest⟩ := hleft
  simp only [cryptInitialize, lift_bind_snd, hinterpret, hinit, hsize, Outcome.ok_bind,
    modify_bind]
  rcases hdevice : initializeWithErr io path info with ⟨device, _ | e | _⟩
  · simp only [lift_bind_snd, pure_apply]
    rw [hdevice] at hrest
    rcases hrest with ⟨e, hload⟩ | ⟨-, hload, ⟨e, hpath⟩ | ⟨hpath, e, hclevis⟩⟩
    · simp [hload]
    · simp [hload, hpath]
    · simp [hload, hpath, hclevis]
  · simp only [lift_bind_snd]
    rw [hdevice] at hrest
    rcases hrest with ⟨e, hload⟩ | ⟨hok, -⟩
    · simp [hload]
    · cases hok
  · exact nofun

end initializer

/-! ### One device -/

section one

/-- A LUKS2 header stays after the failure: there is one when the initializer has failed, or the
number of the device inside can not be had. -/
def Leaves (io : InitOneIo) (encryptionInfo : EncryptionInfo) : Prop :=
  encryptionInfo.isEncrypted = true ∧ (∃ path, io.devicePath = .ok path) ∧
    ((∃ e, io.cryptInitialize = .err e) ∧ io.formatted = true ∨
      io.cryptInitialize = .ok () ∧ (∃ n, io.logicalDeviceSize = .ok n) ∧
        ∃ e, io.mapDeviceNums = .err e)

variable {io : InitOneIo} {ids : StratisIdentifiers} {poolUuid : PoolUuid}
  {mdaDataSize : MDADataSize} {encryptionInfo : EncryptionInfo} {info : DeviceInfo}
  {headers headers' : Headers} {e : StratisError}

/-- What has become of a device that could not be set up. -/
def Left (io : InitOneIo) (poolUuid : PoolUuid) (encryptionInfo : EncryptionInfo)
    (info : DeviceInfo) (headers headers' : Headers) : Prop :=
  (Leaves io encryptionInfo ∧ headers' =
      Function.update headers info.devno (some (.luks2 ⟨poolUuid, io.devUuid⟩))) ∨
    (¬ Leaves io encryptionInfo ∧
      (headers' = headers ∨ headers' = Function.update headers info.devno none))

theorem initializeEncrypted_eq_err (henc : encryptionInfo.isEncrypted = true)
    (hwipe : io.wipe = .ok ())
    (h : initializeEncrypted io ⟨poolUuid, io.devUuid⟩ info.devno headers = (headers', .err e)) :
    Left io poolUuid encryptionInfo info headers headers' := by
  rw [initializeEncrypted, lift_bind_eq_err] at h
  rcases h with ⟨hpath, rfl⟩ | ⟨path, hpath, h⟩
  · exact Or.inr ⟨by simp [Leaves, hpath], Or.inl rfl⟩
  cases hcrypt : io.cryptInitialize with
  | panic =>
    rw [hcrypt] at h
    cases h
  | err e' =>
    rw [hcrypt] at h
    cases hformat : io.formatted with
    | false =>
      rw [hformat] at h
      cases h
      exact Or.inr ⟨by simp [Leaves, hcrypt, hformat], Or.inl rfl⟩
    | true =>
      rw [hformat] at h
      cases h
      exact Or.inl ⟨⟨henc, ⟨path, hpath⟩, Or.inl ⟨⟨_, hcrypt⟩, hformat⟩⟩, rfl⟩
  | ok u =>
    rw [hcrypt] at h
    cases hsize : io.logicalDeviceSize with
    | panic =>
      rw [hsize] at h
      cases h
    | err e' =>
      rw [hsize, hwipe] at h
      cases h
      exact Or.inr ⟨by simp [Leaves, hcrypt, hsize], Or.inr (update_idem _ _ _)⟩
    | ok size =>
      rw [hsize] at h
      cases hnums : io.mapDeviceNums with
      | ok logical =>
        rw [hnums] at h
        cases h
      | panic =>
        rw [hnums] at h
        cases h
      | err e' =>
        rw [hnums] at h
        cases h
        exact Or.inl ⟨⟨henc, ⟨path, hpath⟩, Or.inr ⟨hcrypt, ⟨size, hsize⟩, _, hnums⟩⟩, rfl⟩

theorem not_leaves_of_ok {devno : Device} {r : String × Device × ℕ}
    (h : initializeEncrypted io ids devno headers = (headers', .ok r)) :
    ¬ Leaves io encryptionInfo := by
  rintro ⟨-, ⟨path, hpath⟩, ⟨⟨e, hcrypt⟩, hformat⟩ | ⟨hcrypt, ⟨size, hsize⟩, e, hnums⟩⟩
  · rw [initializeEncrypted, hpath, lift_ok_bind, hcrypt, hformat] at h
    cases h
  · rw [initializeEncrypted, hpath, lift_ok_bind, hcrypt, hsize, hnums] at h
    cases h

theorem initializeStratisMetadata_frame (encrypted : Bool) (devno : Device) (size : ℕ) :
    ∃ header, (initializeStratisMetadata io ids mdaDataSize info encrypted devno size headers).1 =
      update headers info.devno header := by
  have hsame : ∃ header, headers = update headers info.devno header :=
    ⟨headers info.devno, (update_eq_self _ _).symm⟩
  have hwrite : ∀ written, ∃ header, (writeIf written info.devno (.stratis ids) headers).1 =
      update headers info.devno header := by
    intro written
    cases written with
    | false => exact hsame
    | true => exact ⟨_, rfl⟩
  unfold initializeStratisMetadata
  cases io.openMetadata with
  | err e => exact hsame
  | panic => exact hsame
  | ok u =>
    rw [lift_ok_bind]
    cases io.bdaInitialize with
    | panic => exact hsame
    | err e =>
      dsimp only
      rw [bind_of_ok (a := ()) (by cases encrypted <;> cases io.written <;> rfl)]
      exact hwrite _
    | ok u =>
      dsimp only
      rw [bind_of_ok (a := ()) (by cases encrypted <;> rfl)]
      exact hwrite _

theorem rescue_cleanUp_eq_err {α : Type} {p : M α} {kind path : String} (hwipe : io.wipe = .ok ())
    (hframe : ∃ header, (p headers).1 = update headers info.devno header)
    (h : rescue p (cleanUp io kind path info.devno) headers = (headers', .err e)) :
    headers' = update headers info.devno none := by
  obtain ⟨header, hframe⟩ := hframe
  rcases hp : p headers with ⟨headers₁, a | e' | _⟩
  · rw [rescue, hp] at h
    cases h
  · rw [hp] at hframe
    obtain rfl : headers₁ = update headers info.devno header := hframe
    simp only [rescue, hp, cleanUp, hwipe] at h
    cases h
    exact update_idem _ _ _
  · rw [rescue, hp] at h
    cases h

theorem initializeOne_eq_err (hwipe : io.wipe = .ok ())
    (h : initializeOne io poolUuid mdaDataSize encryptionInfo info headers = (headers', .err e)) :
    Left io poolUuid encryptionInfo info headers headers' := by
  unfold initializeOne at h
  split_ifs at h with henc
  · rcases bind_eq_err.mp h with hcrypt | ⟨headers₁, ⟨path, devno, size⟩, hcrypt, h⟩
    · exact initializeEncrypted_eq_err henc hwipe hcrypt
    · have hnot : ¬ Leaves io encryptionInfo := not_leaves_of_ok hcrypt
      obtain ⟨-, rfl⟩ := initializeEncrypted_eq_ok hcrypt
      rcases bind_eq_err.mp h with hmeta | ⟨_, _, -, hbad⟩
      · have hheaders := rescue_cleanUp_eq_err hwipe
          (initializeStratisMetadata_frame true devno size) hmeta
        rw [update_idem] at hheaders
        exact Or.inr ⟨hnot, Or.inr hheaders⟩
      · cases hbad
  · have hnot : ¬ Leaves io encryptionInfo := fun hl => henc hl.1
    rw [lift_bind_eq_err] at h
    rcases h with ⟨-, rfl⟩ | ⟨path, -, h⟩
    · exact Or.inr ⟨hnot, Or.inl rfl⟩
    · rcases bind_eq_err.mp h with hmeta | ⟨_, _, -, hbad⟩
      · exact Or.inr ⟨hnot, Or.inr (rescue_cleanUp_eq_err hwipe
          (initializeStratisMetadata_frame false info.devno _) hmeta)⟩
      · cases hbad

end one

/-! ### All devices -/

section all

variable {io : PrepareIo} {poolUuid : PoolUuid} {mdaDataSize : MDADataSize}
  {encryptionInfo : EncryptionInfo} {headers headers' : Headers} {e : StratisError}

/-- An error comes from one device, after those before it have been set up, and they are wiped. -/
theorem initializeFrom_eq_err {initialized : List Placed} {infos : List DeviceInfo}
    (hdisown : ∀ dev ∈ infos, io.disown (io.one dev.devnode).devUuid = .ok ())
    (hinitialized : ∀ bd ∈ initialized, io.disown bd.dev.uuid = .ok ())
    (h : initializeFrom io poolUuid mdaDataSize encryptionInfo initialized infos headers =
      (headers', .err e)) :
    ∃ before dev after headers₁ headers₂ bds, infos = before ++ dev :: after ∧
      initializeFrom io poolUuid mdaDataSize encryptionInfo initialized before headers =
        (headers₁, .ok bds) ∧
      initializeOne (io.one dev.devnode) poolUuid mdaDataSize encryptionInfo dev headers₁ =
        (headers₂, .err e) ∧ headers' = wiped headers₂ bds := by
  induction infos generalizing initialized headers with
  | nil => cases h
  | cons info infos ih =>
    rcases hone : initializeOne (io.one info.devnode) poolUuid mdaDataSize encryptionInfo info
      headers with ⟨headers₁, bd | e' | _⟩
    · have hset := (initializeOne_eq_ok hone).1
      have hfirst : rescue (initializeOne (io.one info.devnode) poolUuid mdaDataSize
          encryptionInfo info) (fun err => do
            let _ ← wipeBlockdevs io.disown initialized
            Stateful.lift (.err err)) headers = (headers₁, .ok bd) := by
        rw [rescue, hone]
      rw [initializeFrom, bind_of_eq hfirst] at h
      obtain ⟨before, dev, after, headers₂, headers₃, bds, rfl, hbefore, hdev, hwiped⟩ :=
        ih (fun d hd => hdisown d (List.mem_cons_of_mem _ hd)) (by
          intro b hb
          rcases List.mem_append.mp hb with hb | hb
          · exact hinitialized b hb
          · rw [List.mem_singleton.mp hb, hset.uuid]
            exact hdisown info List.mem_cons_self) h
      refine ⟨info :: before, dev, after, headers₂, headers₃, bds, rfl, ?_, hdev, hwiped⟩
      rw [initializeFrom, bind_of_eq hfirst]
      exact hbefore
    · have hwipe : rescue (initializeOne (io.one info.devnode) poolUuid mdaDataSize
          encryptionInfo info) (fun err => do
            let _ ← wipeBlockdevs io.disown initialized
            Stateful.lift (.err err)) headers = (wiped headers₁ initialized, .err e') := by
        rw [rescue, hone]
        dsimp only
        rw [bind_of_eq (wipeBlockdevs_of_disowned hinitialized headers₁)]
        rfl
      rw [initializeFrom, bind_apply, hwipe] at h
      cases h
      exact ⟨[], info, infos, headers, headers₁, initialized, rfl, rfl, hone, rfl⟩
    · rw [initializeFrom, bind_apply, rescue, hone] at h
      cases h

/-- A header with the identifiers that the call gives to one of the devices. -/
def Written (io : PrepareIo) (poolUuid : PoolUuid) (devices : List DeviceInfo) (header : Header) :
    Prop :=
  ∃ dev ∈ devices, header.ids = ⟨poolUuid, (io.one dev.devnode).devUuid⟩

/-- No device of the list has a header that the call has written. -/
def Clean (io : PrepareIo) (poolUuid : PoolUuid) (devices : List DeviceInfo) (headers : Headers) :
    Prop :=
  ∀ dev ∈ devices, ∀ header, headers dev.devno = some header → ¬ Written io poolUuid devices header

theorem physical_of_setUp {infos : List DeviceInfo} {bds : List Placed}
    (h : List.Forall₂ (fun info => SetUp (io.one info.devnode) encryptionInfo info) infos bds) :
    bds.map (·.underlying.physical) = infos.map (·.devno) := by
  rw [← List.forall₂_eq_eq_eq, List.forall₂_map_left_iff, List.forall₂_map_right_iff]
  exact (h.imp fun _ _ h => h.physical).flip

/-- What is left after a failure, by the device that could not be set up. -/
theorem clean_iff_of_eq_err (io : PrepareIo) {devices : List DeviceInfo}
    (hwipe : ∀ dev ∈ devices, (io.one dev.devnode).wipe = .ok ())
    (hdisown : ∀ dev ∈ devices, io.disown (io.one dev.devnode).devUuid = .ok ())
    (hfresh : Clean io poolUuid devices headers)
    (h : initializeDevices io poolUuid mdaDataSize encryptionInfo devices headers =
      (headers', .err e)) :
    ∃ before dev after headers₁ headers₂ bds, devices = before ++ dev :: after ∧
      initializeDevices io poolUuid mdaDataSize encryptionInfo before headers =
        (headers₁, .ok bds) ∧
      initializeOne (io.one dev.devnode) poolUuid mdaDataSize encryptionInfo dev headers₁ =
        (headers₂, .err e) ∧
      (Clean io poolUuid devices headers' ↔
        (Leaves (io.one dev.devnode) encryptionInfo → dev.devno ∈ before.map (·.devno))) := by
  obtain ⟨before, dev, after, headers₁, headers₂, bds, rfl, hbefore, hdev, rfl⟩ :=
    initializeFrom_eq_err hdisown (by simp) h
  refine ⟨before, dev, after, headers₁, headers₂, bds, rfl, hbefore, hdev, ?_⟩
  have hmem : dev ∈ before ++ dev :: after := by simp
  obtain ⟨new, hnew, hsigned, hset⟩ := initializeFrom_eq_ok hbefore
  obtain rfl : bds = new := hnew
  have hphysical := physical_of_setUp hset
  have hleft := initializeOne_eq_err (hwipe dev hmem) hdev
  have hwiped : ∀ n, wiped headers₂ bds n =
      if n ∈ before.map (·.devno) then none else headers₂ n := by
    intro n
    rw [wiped, hphysical]
  have hkept : ∀ n ∉ before.map (·.devno), headers₁ n = headers n := fun n hn =>
    hsigned.framed n (hphysical ▸ hn)
  constructor
  · intro hclean hleaves
    by_contra hnot
    rcases hleft with ⟨-, rfl⟩ | ⟨hno, -⟩
    · refine hclean dev hmem (.luks2 ⟨poolUuid, (io.one dev.devnode).devUuid⟩) ?_ ⟨dev, hmem, rfl⟩
      rw [hwiped, if_neg hnot, update_self]
    · exact hno hleaves
  · intro hcond d hd header hheader
    rw [hwiped] at hheader
    split_ifs at hheader with hd'
    by_cases heq : d.devno = dev.devno
    · rcases hleft with ⟨hleaves, -⟩ | ⟨-, rfl | rfl⟩
      · exact absurd (hcond hleaves) (heq ▸ hd')
      · exact hfresh d hd header (by rw [← hkept _ hd', hheader])
      · rw [heq, update_self] at hheader
        cases hheader
    · have hother : headers₂ d.devno = headers₁ d.devno := by
        rcases hleft with ⟨-, rfl⟩ | ⟨-, rfl | rfl⟩
        · exact update_of_ne heq _ _
        · rfl
        · exact update_of_ne heq _ _
      exact hfresh d hd header (by rw [← hkept _ hd', ← hother, hheader])

end all

/-! ### With the initializers -/

section withInitializers

variable (pinDispatch : Value → StratisResult (String × Value)) (crypt : String → CryptInitIo)
  (info : EncryptionInfo)

/-- One device is set up with the initializer. -/
def InitOneIo.withInitializer (io : InitOneIo) (path : String) : InitOneIo :=
  { io with
    cryptInitialize := do
      let _ ← (Devices.cryptInitialize pinDispatch (crypt path) path info false).2
      .ok ()
    formatted := (Devices.cryptInitialize pinDispatch (crypt path) path info false).1 }

/-- The answers of the system, with what the initializers make of theirs. -/
def PrepareIo.withInitializers (io : PrepareIo) : PrepareIo :=
  { io with one := fun path => (io.one path).withInitializer pinDispatch crypt info path }

/-- The places where a LUKS2 header is written and not wiped again: in the initializer, once the
device has been formatted, if it can not be loaded again or if something fails after it has been
loaded; and after the initializer, if the number of the device inside can not be had. -/
def LeavesHeader (io : InitOneIo) (path : String) : Prop :=
  info.isEncrypted = true ∧ (∃ p, io.devicePath = .ok p) ∧
    (LeftByInitializer pinDispatch (crypt path) path info ∨
      (∃ handle, Crypt.CryptInitializer.initializeHandle pinDispatch (crypt path).calls path
        info.keyDescription info.clevisInfo = .ok handle) ∧
      (∃ n, io.logicalDeviceSize = .ok n) ∧ ∃ e, io.mapDeviceNums = .err e)

variable {pinDispatch crypt info} {io : InitOneIo} {path : String}

theorem leaves_withInitializer (hrollback : (crypt path).rollback = .ok ()) {e : StratisError}
    {poolUuid : PoolUuid} {mdaDataSize : MDADataSize} {dev : DeviceInfo} {headers headers' : Headers}
    (h : initializeOne (io.withInitializer pinDispatch crypt info path) poolUuid mdaDataSize info dev
      headers = (headers', .err e)) :
    Leaves (io.withInitializer pinDispatch crypt info path) info ↔
      LeavesHeader pinDispatch crypt info io path := by
  unfold Leaves LeavesHeader
  refine and_congr_right fun henc => and_congr_right fun ⟨p, hpath⟩ => ?_
  have hsnd := cryptInitialize_snd pinDispatch (crypt path) path info
    (by rw [hrollback]; exact nofun) false
  rcases hrun : cryptInitialize pinDispatch (crypt path) path info false with
    ⟨left, handle | e' | _⟩
  · -- the initializer has returned
    have hnot : ¬ LeftByInitializer pinDispatch (crypt path) path info := fun hl =>
      hl.ne_ok false handle (by rw [hrun])
    rw [hrun] at hsnd
    simp only [InitOneIo.withInitializer, hrun, hnot, ← hsnd]
    simp
  · have hiff := leftByInitializer_iff hrollback hrun
    rw [hrun] at hsnd
    simp only [InitOneIo.withInitializer, hrun, ← hsnd, hiff]
    simp
  · exfalso
    have hpanic : (io.withInitializer pinDispatch crypt info path).cryptInitialize = .panic := by
      simp only [InitOneIo.withInitializer, hrun]
      rfl
    have hpath' : (io.withInitializer pinDispatch crypt info path).devicePath = .ok p := hpath
    rw [initializeOne] at h
    simp only [henc, if_true] at h
    rw [bind_apply, initializeEncrypted, hpath', lift_ok_bind, hpanic] at h
    cases h

/-- A request that fails, with every device wiped that is asked to be, leaves no header of its own
exactly if the device that could not be set up does not keep one, or its number stands before it in
the list. -/
theorem initializeDevices_rolls_back_iff {io : PrepareIo} {poolUuid : PoolUuid}
    {mdaDataSize : MDADataSize} {devices : List DeviceInfo} {headers headers' : Headers}
    {e : StratisError}
    (hrollback : ∀ dev ∈ devices, (crypt dev.devnode).rollback = .ok ())
    (hwipe : ∀ dev ∈ devices, (io.one dev.devnode).wipe = .ok ())
    (hdisown : ∀ dev ∈ devices, io.disown (io.one dev.devnode).devUuid = .ok ())
    (hfresh : Clean io poolUuid devices headers)
    (h : initializeDevices (io.withInitializers pinDispatch crypt info) poolUuid mdaDataSize info
      devices headers = (headers', .err e)) :
    ∃ before dev after headers₁ headers₂ bds, devices = before ++ dev :: after ∧
      initializeDevices (io.withInitializers pinDispatch crypt info) poolUuid mdaDataSize info before
        headers = (headers₁, .ok bds) ∧
      initializeOne ((io.withInitializers pinDispatch crypt info).one dev.devnode) poolUuid
        mdaDataSize info dev headers₁ = (headers₂, .err e) ∧
      (Clean io poolUuid devices headers' ↔
        (LeavesHeader pinDispatch crypt info (io.one dev.devnode) dev.devnode →
          dev.devno ∈ before.map (·.devno))) := by
  obtain ⟨before, dev, after, headers₁, headers₂, bds, hsplit, hbefore, hdev, hiff⟩ :=
    clean_iff_of_eq_err (io.withInitializers pinDispatch crypt info) hwipe hdisown hfresh h
  refine ⟨before, dev, after, headers₁, headers₂, bds, hsplit, hbefore, hdev, ?_⟩
  have hmem : dev ∈ devices := by simp [hsplit]
  rw [← leaves_withInitializer (hrollback dev hmem) hdev]
  exact hiff

end withInitializers

/-! ### One encrypted device -/

/-- The answers to an initializer that succeeds, but for loading the device again. -/
def oneInitializer (acquireAgain : StratisResult Unit) : CryptInitIo where
  calls := { Crypt.willing with
    acquireAgain
    devicePath := .ok ()
    init := .ok ()
    setMetadataSize := .ok ()
    format := .ok ()
    addByKey := .ok ()
    randKey := .ok [2]
    acquireBound := .ok ()
    jsonSet := .ok ()
    activate := .ok ()
    activatedPath := .ok ()
    deviceSize := .ok ()
    deviceNums := .ok ()
    initializeStratisMetadata := .ok ()
    cleanUp := none }
  formatLeft := false
  rollback := .ok ()

def oneDevice (logicalDeviceSize : StratisResult ℕ) (mapDeviceNums : StratisResult Device) :
    PrepareIo where
  node := fun _ => ⟨.ok none, .ok 0, none⟩
  one := fun _ =>
    { devUuid := ⟨1⟩, devicePath := .ok "/dev/sdb", cryptInitialize := .ok (), formatted := false,
      logicalDeviceSize, mapDeviceNums, openMetadata := .ok (), timestamp := 0,
      bdaInitialize := .ok (), written := false, wipe := .ok () }
  disown := fun _ => .ok ()

/-- The request for the device, encrypted with a key of the keyring. -/
def requestOne (acquireAgain : StratisResult Unit) (io : PrepareIo) :
    Headers × StratisResult (List Placed) :=
  initializeDevices (io.withInitializers (fun _ => .err .crypt)
    (fun _ => oneInitializer acquireAgain) ⟨some "key", none⟩) ⟨0⟩ MDADataSize.default ⟨some "key", none⟩
    [⟨⟨8, 16⟩, "/dev/sdb", none, 2 ^ 30⟩] fun _ => none

/-- A device whose size can not be read is wiped. -/
theorem initializeDevices_rolls_back_size : ∃ headers',
    requestOne (.ok ()) (oneDevice (.err .io) (.ok ⟨253, 0⟩)) = (headers', .err .io) ∧
      Clean (oneDevice (.err .io) (.ok ⟨253, 0⟩)) ⟨0⟩ [⟨⟨8, 16⟩, "/dev/sdb", none, 2 ^ 30⟩]
        headers' := by
  have hrun : requestOne (.ok ()) (oneDevice (.err .io) (.ok ⟨253, 0⟩)) =
      ((requestOne (.ok ()) (oneDevice (.err .io) (.ok ⟨253, 0⟩))).1, .err .io) := rfl
  refine ⟨_, hrun, ?_⟩
  obtain ⟨before, dev, after, -, -, -, -, -, -, hiff⟩ := initializeDevices_rolls_back_iff
    (by simp [oneInitializer]) (by simp [oneDevice]) (by simp [oneDevice]) (by simp [Clean]) hrun
  refine hiff.mpr ?_
  rintro ⟨-, -, ⟨-, -, -, -, ⟨e, he⟩ | ⟨-, -, ⟨e, he⟩ | ⟨-, e, he⟩⟩⟩ | ⟨-, ⟨n, hn⟩, -⟩⟩
  · cases he
  · cases he
  · cases he
  · cases hn

/-- A device whose number inside can not be had, and one that can not be loaded again after it has
been formatted, keep their LUKS2 headers. -/
theorem initializeDevices_leaves_header :
    let lost := oneDevice (.ok (2 ^ 21)) (.err .io)
    let smooth := oneDevice (.ok (2 ^ 21)) (.ok ⟨253, 0⟩)
    (requestOne (.ok ()) lost).2 = .err .io ∧
      (requestOne (.ok ()) lost).1 ⟨8, 16⟩ = some (.luks2 ⟨⟨0⟩, ⟨1⟩⟩) ∧
      (requestOne (.err .crypt) smooth).2 = .err .crypt ∧
      (requestOne (.err .crypt) smooth).1 ⟨8, 16⟩ = some (.luks2 ⟨⟨0⟩, ⟨1⟩⟩) := by
  exact ⟨rfl, rfl, rfl, rfl⟩

end Stratisd.Devices
