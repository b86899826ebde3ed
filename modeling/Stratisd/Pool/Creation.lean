import Stratisd.Backstore.Devices
import Stratisd.Pool.Recorded

/-! The creation of a pool on device nodes. The devices are set up first, and everything that can
fail afterwards finds them with headers of the new pool. -/

namespace Stratisd.Pool

open Run Run.Stateful Engine Metadata Backstore Thinpool Devices ThinPool

/-! ### Destroying a backstore -/

/-- Wipe the headers of the devices. Of the errors of those that can not be wiped only the first
is kept. -/
def wipeTier (disown : DevUuid → StratisResult Unit) (bds : List Placed) : Devices.M Unit := do
  let unerased ← wipeBlockdevs disown bds
  match unerased with
  | [] => pure ()
  | (path, e) :: _ => Stateful.lift (.err (.chained "Failed to wipe already initialized devnodes"
      (.chained s!"Failed to wipe block device {path}" e)))

/-- Tear down the cap device and give back the devices of both tiers. -/
def destroyBackstore (teardown : StratisResult Unit) (disown : DevUuid → StratisResult Unit)
    (b : Backstore) (cachedevs datadevs : List Placed) : Devices.M Unit :=
  match b.cache, b.linear with
  | some _, _ => do
    Stateful.lift teardown
    wipeTier disown cachedevs
    wipeTier disown datadevs
  | none, some _ => do
    Stateful.lift teardown
    wipeTier disown datadevs
  | none, none => wipeTier disown datadevs

theorem wipeTier_of_disowned {disown : DevUuid → StratisResult Unit} {bds : List Placed}
    (h : ∀ bd ∈ bds, disown bd.dev.uuid = .ok ()) (headers : Headers) :
    wipeTier disown bds headers = (wiped headers bds, .ok ()) :=
  bind_of_eq (wipeBlockdevs_of_disowned h headers) _

theorem destroyBackstore_of_disowned {disown : DevUuid → StratisResult Unit} {bds : List Placed}
    (h : ∀ bd ∈ bds, disown bd.dev.uuid = .ok ()) (b : Backstore) (headers : Headers) :
    destroyBackstore (.ok ()) disown b [] bds headers = (wiped headers bds, .ok ()) := by
  unfold destroyBackstore
  cases b.cache with
  | some cache => exact wipeTier_of_disowned h headers
  | none =>
    cases b.linear with
    | some linear => exact wipeTier_of_disowned h headers
    | none => exact wipeTier_of_disowned h headers

namespace StratPool

variable (overflowChecks : Bool)

/-- The environment of making a pool on device nodes. -/
structure CreationIo where
  prepare : PrepareIo
  thinPool : ThinPool.NewIo
  /-- Tearing down the cap device after a failure. -/
  teardown : StratisResult Unit
  check : ℕ → ThinPool.CheckIo
  save : StratisResult Unit

/-- The rest of the environment, when the devices have been prepared. -/
def CreationIo.on (io : CreationIo) (bds : List Placed) : InitIo :=
  ⟨.ok (bds.map (·.dev)), io.thinPool, io.check, io.save⟩

/-- Make a pool on device nodes. The backstore is destroyed if there is no thin pool, and only
then. -/
def initializeOn (io : CreationIo) (poolUuid : PoolUuid) (name : String) (paths : List String)
    (encryptionInfo : EncryptionInfo) : Devices.M (StratPool × List Placed) := do
  let bds ← prepareDevices io.prepare poolUuid MDADataSize.default encryptionInfo paths
  let b ← Stateful.lift (Backstore.initializeStore (.ok (bds.map (·.dev))))
  let made := ThinPool.new overflowChecks io.thinPool ThinPoolSizeParams.default dataBlockSize b
  match made.2 with
  | .err e => do
    let _ ← Stateful.attempt (destroyBackstore io.teardown io.prepare.disown made.1 [] bds)
    Stateful.lift (.err e)
  | .panic => Stateful.lift .panic
  | .ok thinPool => do
    let checked := ThinPool.check overflowChecks io.check ⟨thinPool, made.1⟩
    let _ ← Stateful.lift checked.2
    let written := writeMetadata io.save name ⟨checked.1, none⟩
    Stateful.lift written.2
    pure (written.1, bds)

variable {overflowChecks} {io : CreationIo} {poolUuid : PoolUuid} {name : String}
  {paths : List String} {encryptionInfo : EncryptionInfo} {headers headers' headers₁ : Headers}
  {bds : List Placed} {b : Backstore} {e : StratisError}

theorem initializeOn_eq_ok {p : StratPool}
    (h : initializeOn overflowChecks io poolUuid name paths encryptionInfo headers =
      (headers', .ok (p, bds))) :
    prepareDevices io.prepare poolUuid MDADataSize.default encryptionInfo paths headers =
      (headers', .ok bds) ∧ initializePool overflowChecks (io.on bds) name = .ok p := by
  obtain ⟨headers₁, devs, hprepared, h⟩ := bind_eq_ok.mp h
  obtain ⟨_, b, hlift, h⟩ := bind_eq_ok.mp h
  obtain ⟨hstore, rfl⟩ := lift_eq_ok hlift
  cases hmade : (new overflowChecks io.thinPool ThinPoolSizeParams.default
      dataBlockSize b).2 with
  | err e =>
    simp only [hmade] at h
    obtain ⟨_, _, -, h⟩ := bind_eq_ok.mp h
    cases h
  | panic =>
    simp only [hmade] at h
    cases h
  | ok t =>
    simp only [hmade] at h
    obtain ⟨_, changed, hlift, h⟩ := bind_eq_ok.mp h
    obtain ⟨hcheck, rfl⟩ := lift_eq_ok hlift
    obtain ⟨_, _, hlift, h⟩ := bind_eq_ok.mp h
    obtain ⟨hwrite, rfl⟩ := lift_eq_ok hlift
    cases h
    refine ⟨hprepared, Outcome.bind_eq_ok.mpr ⟨b, hstore, ?_⟩⟩
    exact Outcome.bind_eq_ok.mpr ⟨t, hmade, Outcome.bind_eq_ok.mpr ⟨changed, hcheck,
      Outcome.bind_eq_ok.mpr ⟨(), hwrite, rfl⟩⟩⟩

theorem initializeOn_of_unprepared
    (hprepared : prepareDevices io.prepare poolUuid MDADataSize.default encryptionInfo paths headers =
      (headers', .err e)) :
    initializeOn overflowChecks io poolUuid name paths encryptionInfo headers =
      (headers', .err e) := by
  rw [initializeOn, bind_of_err (congrArg Prod.snd hprepared), hprepared]

theorem datadevs_initializePool {io : InitIo} {devs : List StratBlockDev} {p : StratPool}
    (hdevs : io.prepared = .ok devs) (h : initializePool overflowChecks io name = .ok p) :
    p.backstore.datadevs.map (·.uuid) = devs.map (·.uuid) := by
  have hstable : Backstore.Stable fun b => b.datadevs.map (·.uuid) = devs.map (·.uuid) :=
    Backstore.stable_of_alloc (fun b n r hb ht => (Backstore.map_uuid_of_identity
      (DataTier.alloc_identity ht)).trans hb) fun _ _ _ _ hb => hb
  obtain ⟨devs', b, t, hdevs', hmade, rfl⟩ := initializePool_eq_ok h
  obtain rfl := Outcome.ok.inj (hdevs.symm.trans hdevs')
  rw [toStacked_writeMetadata]
  refine stable_check hstable _ _ _ ?_
  obtain ⟨_, _, _, _, halloc, -⟩ := new_eq_ok hmade
  exact (hstable.keeps_alloc _ _).after rfl halloc

theorem filesystems_initializePool {io : InitIo} {p : StratPool}
    (h : initializePool overflowChecks io name = .ok p) :
    p.thinPool.filesystems = Table.default := by
  obtain ⟨devs, b, t, -, hmade, rfl⟩ := initializePool_eq_ok h
  rw [toStacked_writeMetadata]
  exact keeps_check_vacant io.check _ (new_filesystems hmade).1

theorem new_of_no_devices (newIo : ThinPool.NewIo) :
    (new overflowChecks newIo ThinPoolSizeParams.default dataBlockSize
      ⟨none, none, DataTier.new ⟨[], none⟩, none, 0⟩).2 =
      .err (.msg "Could not allocate sufficient space for thinpool devices.") := rfl

/-- The headers after a failure: those of the devices have been wiped if there is no thin pool,
and have been left otherwise. -/
theorem initializeOn_eq_err
    (hprepared : prepareDevices io.prepare poolUuid MDADataSize.default encryptionInfo paths headers =
      (headers₁, .ok bds))
    (hstore : Backstore.initializeStore (.ok (bds.map (·.dev))) = .ok b)
    (hteardown : io.teardown = .ok ()) (hdisown : ∀ bd ∈ bds, io.prepare.disown bd.dev.uuid = .ok ())
    (h : initializeOn overflowChecks io poolUuid name paths encryptionInfo headers =
      (headers', .err e)) :
    let made := (new overflowChecks io.thinPool ThinPoolSizeParams.default dataBlockSize b).2
    (∃ e', made = .err e') ∧ headers' = wiped headers₁ bds ∨
      (∃ t, made = .ok t) ∧ headers' = headers₁ := by
  intro made
  rw [initializeOn, bind_of_eq hprepared, hstore, lift_ok_bind] at h
  cases hmade : made with
  | err e' =>
    refine Or.inl ⟨⟨e', rfl⟩, ?_⟩
    simp only [made] at hmade
    simp only [hmade, hteardown] at h
    have hdestroy := destroyBackstore_of_disowned hdisown
      (new overflowChecks io.thinPool ThinPoolSizeParams.default dataBlockSize b).1 headers₁
    rw [bind_apply, attempt, hdestroy] at h
    cases h
    rfl
  | panic =>
    simp only [made] at hmade
    simp only [hmade] at h
    cases h
  | ok t =>
    refine Or.inr ⟨⟨t, rfl⟩, ?_⟩
    simp only [made] at hmade
    simp only [hmade] at h
    rw [bind_eq_err] at h
    obtain h | ⟨_, _, hlift, h⟩ := h
    · exact (Prod.mk.inj h).1.symm
    · obtain ⟨-, rfl⟩ := lift_eq_ok hlift
      rw [bind_eq_err] at h
      obtain h | ⟨_, _, -, h⟩ := h
      · exact (Prod.mk.inj h).1.symm
      · cases h

/-- No device of the request has a header of the pool. -/
def GivenBack (node : String → NodeIo) (headers : Headers) (poolUuid : PoolUuid)
    (paths : List String) : Prop :=
  ∀ path ∈ paths, ∀ devno, (node path).devnum = some devno →
    signature headers devno ≠ some poolUuid

section givenBack

variable {prepareIo : PrepareIo} {infos : List DeviceInfo}
  (hp : Prepared prepareIo encryptionInfo poolUuid paths headers headers₁ infos bds)

include hp

theorem mem_physical_of_devnum {path : String} (hpath : path ∈ paths) {devno : Device}
    (hn : (prepareIo.node path).devnum = some devno) :
    devno ∈ bds.map (·.underlying.physical) := by
  have hnode : path ∈ infos.map (·.devnode) := by
    rw [hp.devnodes]
    exact List.mem_eraseDups.mpr hpath
  obtain ⟨info, hinfo, rfl⟩ := List.mem_map.mp hnode
  rw [hp.devnum hinfo, Option.some.injEq] at hn
  rw [hp.physical, ← hn]
  exact List.mem_map_of_mem hinfo

theorem exists_devnum {bd : Placed} (hbd : bd ∈ bds) :
    ∃ path ∈ paths, (prepareIo.node path).devnum = some bd.underlying.physical := by
  obtain ⟨info, hinfo, hset⟩ := Outcome.exists_of_forall₂ hp.setUp.flip hbd
  refine ⟨info.devnode, ?_, ?_⟩
  · rw [← List.mem_eraseDups, ← hp.devnodes]
    exact List.mem_map_of_mem hinfo
  · rw [hset.physical]
    exact hp.devnum hinfo

theorem givenBack_wiped : GivenBack prepareIo.node (wiped headers₁ bds) poolUuid paths := by
  intro path hpath devno hn
  have hmem := mem_physical_of_devnum hp hpath hn
  simp [signature, wiped, hmem]

theorem not_givenBack (hbds : bds ≠ []) : ¬ GivenBack prepareIo.node headers₁ poolUuid paths := by
  obtain ⟨bd, hbd⟩ := List.exists_mem_of_ne_nil bds hbds
  obtain ⟨path, hpath, hn⟩ := exists_devnum hp hbd
  exact fun h => h path hpath _ hn (hp.signed.signed bd hbd)

theorem verified_wiped (poolUuid' : PoolUuid) :
    processAndVerifyDevices prepareIo.node (wiped headers₁ bds) poolUuid' [] paths = .ok infos := by
  refine processAndVerifyDevices_of_blank hp.verified fun info hinfo => ?_
  rw [wiped, hp.physical, if_pos (List.mem_map_of_mem hinfo)]

end givenBack

/-- If a pool could not be made on devices that had been set up, and everything that was to clean
up has succeeded, its devices are given back if and only if it was the thin pool that could not be
made. Then the same devices are accepted again. -/
theorem devices_given_back_iff
    (hprepared : prepareDevices io.prepare poolUuid MDADataSize.default encryptionInfo paths headers =
      (headers₁, .ok bds))
    (hstore : Backstore.initializeStore (.ok (bds.map (·.dev))) = .ok b)
    (hteardown : io.teardown = .ok ()) (hdisown : ∀ bd ∈ bds, io.prepare.disown bd.dev.uuid = .ok ())
    (herr : initializeOn overflowChecks io poolUuid name paths encryptionInfo headers =
      (headers', .err e)) :
    (GivenBack io.prepare.node headers' poolUuid paths ↔
      ∃ e', (ThinPool.new overflowChecks io.thinPool ThinPoolSizeParams.default dataBlockSize b).2 =
        .err e') ∧
    (GivenBack io.prepare.node headers' poolUuid paths → ∀ poolUuid', ∃ infos,
      processAndVerifyDevices io.prepare.node headers' poolUuid' [] paths = .ok infos) := by
  obtain ⟨infos, hp⟩ := prepareDevices_eq_ok hprepared
  obtain ⟨hmade, rfl⟩ | ⟨⟨t, ht⟩, rfl⟩ :=
    initializeOn_eq_err hprepared hstore hteardown hdisown herr
  · exact ⟨iff_of_true (givenBack_wiped hp) hmade, fun _ uuid => ⟨infos, verified_wiped hp uuid⟩⟩
  · have hbds : bds ≠ [] := by
      rintro rfl
      cases hstore
      cases (new_of_no_devices io.thinPool).symm.trans ht
    have hkept := not_givenBack hp hbds
    refine ⟨iff_of_false hkept ?_, fun h => absurd h hkept⟩
    rintro ⟨e', he'⟩
    cases ht.symm.trans he'

/-! ### One device -/

/-- A device of 2 GiB that nobody owns. -/
def unownedNode (minor : ℕ) : NodeIo :=
  ⟨.ok (some (.ok .unowned, some ⟨8, minor⟩, none)), .ok (2 ^ 31), none⟩

/-- A device node with the given canonical path. Everything that is done to the device succeeds. -/
def smoothPrepare (minor : ℕ) (canonical : String) : PrepareIo where
  node _ := unownedNode minor
  one _ := ⟨⟨BitVec.ofNat 128 minor⟩, .ok canonical, .ok (), false, .ok (2 ^ 22), .ok ⟨253, 0⟩, .ok (),
    0, .ok (), false, .ok ()⟩
  disown _ := .ok ()

def smoothCreation (canonical : String) : CreationIo where
  prepare := smoothPrepare 16 canonical
  thinPool := ThinPool.allGood
  teardown := .ok ()
  check _ := smoothCheck
  save := .ok ()

/-- The device is given back if the metadata device of the thin pool can not be made. -/
theorem devices_given_back_iff_no_thin_pool :
    let io := { smoothCreation "/dev/sdb" with thinPool := { ThinPool.allGood with metaDev := none } }
    ∃ headers', initializeOn true io ⟨0⟩ "pool" ["/dev/sdb"] ⟨none, none⟩ (fun _ => none) =
        (headers', .err .dm) ∧
      GivenBack io.prepare.node headers' ⟨0⟩ ["/dev/sdb"] := by
  intro io
  have hrun : ∃ bds, (prepareDevices io.prepare ⟨0⟩ MDADataSize.default ⟨none, none⟩ ["/dev/sdb"]
        (fun _ => none)).2 = .ok bds ∧
      ∃ b, Backstore.initializeStore (.ok (bds.map (·.dev))) = .ok b ∧
        ((ThinPool.new true io.thinPool ThinPoolSizeParams.default dataBlockSize b).2 >>=
          fun _ => .ok ()) = (.err .dm : StratisResult Unit) ∧
        ((initializeOn true io ⟨0⟩ "pool" ["/dev/sdb"] ⟨none, none⟩ (fun _ => none)).2 >>=
          fun _ => .ok ()) = (.err .dm : StratisResult Unit) := by
    decide +kernel
  obtain ⟨bds, hprepared, b, hstore, hmade, herr⟩ := hrun
  replace hmade := (Outcome.bind_eq_err.mp hmade).resolve_right (by simp)
  replace herr := (Outcome.bind_eq_err.mp herr).resolve_right (by simp)
  rcases hprepare : prepareDevices io.prepare ⟨0⟩ MDADataSize.default ⟨none, none⟩ ["/dev/sdb"]
    (fun _ => none) with ⟨headers₁, r⟩
  rcases hrun : initializeOn true io ⟨0⟩ "pool" ["/dev/sdb"] ⟨none, none⟩ (fun _ => none) with
    ⟨headers', result⟩
  rw [hprepare] at hprepared
  rw [hrun] at herr
  subst hprepared herr
  exact ⟨headers', rfl, (devices_given_back_iff hprepare hstore rfl (fun _ _ => rfl) hrun).1.mpr
    ⟨_, hmade⟩⟩

/-- If the thin pool can not be asked for its state, the device keeps its header, and is not
accepted for another pool. -/
theorem device_kept_after_failed_check :
    let io := { smoothCreation "/dev/sdb" with check := fun _ => { smoothCheck with status := .err .dm } }
    let stratisNode := { unownedNode 16 with udev := .ok (some (.ok .stratis, some ⟨8, 16⟩, none)) }
    ∃ headers₁ headers' bds,
      prepareDevices io.prepare ⟨0⟩ MDADataSize.default ⟨none, none⟩ ["/dev/sdb"] (fun _ => none) =
        (headers₁, .ok bds) ∧
      io.teardown = .ok () ∧ (∀ bd ∈ bds, io.prepare.disown bd.dev.uuid = .ok ()) ∧
      initializeOn true io ⟨0⟩ "pool" ["/dev/sdb"] ⟨none, none⟩ (fun _ => none) =
        (headers', .err .dm) ∧
      ¬ GivenBack io.prepare.node headers' ⟨0⟩ ["/dev/sdb"] ∧
      (processAndVerifyDevices (fun _ => stratisNode) headers' ⟨1⟩ [] ["/dev/sdb"]).isOk = false := by
  intro io stratisNode
  have hall : ∀ run, run = initializeOn true io ⟨0⟩ "pool" ["/dev/sdb"] ⟨none, none⟩ (fun _ => none) →
      (prepareDevices io.prepare ⟨0⟩ MDADataSize.default ⟨none, none⟩ ["/dev/sdb"]
        (fun _ => none)).2.isOk = true ∧
      (run.2 >>= fun _ => .ok ()) = (.err .dm : StratisResult Unit) ∧
      signature run.1 ⟨8, 16⟩ = some ⟨0⟩ ∧
      (processAndVerifyDevices (fun _ => stratisNode) run.1 ⟨1⟩ [] ["/dev/sdb"]).isOk = false := by
    intro run hrun
    rw [hrun]
    decide +kernel
  rcases hprepare : prepareDevices io.prepare ⟨0⟩ MDADataSize.default ⟨none, none⟩ ["/dev/sdb"]
    (fun _ => none) with ⟨headers₁, r⟩
  rcases hrun : initializeOn true io ⟨0⟩ "pool" ["/dev/sdb"] ⟨none, none⟩ (fun _ => none) with
    ⟨headers', result⟩
  obtain ⟨hprepared, herr, hsigned, hrefused⟩ := hall _ hrun.symm
  rw [hprepare] at hprepared
  obtain ⟨bds, hbds⟩ := Outcome.isOk_iff.mp hprepared
  have hresult := (Outcome.bind_eq_err.mp herr).resolve_right (by simp)
  subst hbds hresult
  refine ⟨headers₁, headers', bds, rfl, rfl, fun _ _ => rfl, rfl, ?_, hrefused⟩
  exact fun h => h "/dev/sdb" List.mem_cons_self ⟨8, 16⟩ rfl hsigned

end StratPool

end Stratisd.Pool
