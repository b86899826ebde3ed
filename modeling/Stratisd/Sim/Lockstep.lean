import Stratisd.Engine.Names
import Stratisd.Sim.Agreement

/-! Pools that are created in both engines, and whole runs. -/

namespace Stratisd.Sim

open Run Run.Outcome Run.Stateful Engine Metadata Backstore Pool Devices Crypt List
  StratEngine StratPool Function

section creation

variable {codec : JweCodec} {overflowChecks : Bool} {validateName : String → StratisResult Unit}
  {keys : List String} {s : Host} {t : SimEngine} {io : Host.CreateIo} {name : String}
  {paths : List String} {redundancy : Option ℕ} {info : EncryptionInfo}

/-! ### The new devices -/

theorem eq_of_not_isEncrypted (h : ¬ info.isEncrypted) : info = ⟨none, none⟩ := by
  obtain ⟨key, clevis⟩ := info
  cases key with
  | some keyDesc => exact absurd (Crypt.BlockDevs.isEncrypted_of_key keyDesc clevis) h
  | none =>
    cases clevis with
    | some known => exact absurd (Crypt.BlockDevs.isEncrypted_of_clevis none known) h
    | none => rfl

/-- The handles of the new devices know what was asked for. -/
theorem exists_blockDevs (hs : CreateSucceeds codec overflowChecks keys s io name paths info)
    (hpaths : paths ≠ []) (hkey : KeyKnown keys info) (hinterprets : Interprets info)
    (hdescribes : ∀ known, info.clevisInfo = some known →
      ∀ path ∈ paths, Describes codec (io.crypt path).jwe.header known) :
    ∃ devs, io.blockDevs codec info paths = .ok devs ∧
      Uniform info (devs.map Crypt.BlockDevs.reported) := by
  have hone : ∀ path ∈ paths.eraseDups, ∃ d, (if info.isEncrypted then do
      let handle ← io.handle codec info path
      .ok (some handle) else .ok none : StratisResult (Option CryptHandle)) = .ok d ∧
        Crypt.BlockDevs.reported d = info := by
    intro path hpath
    rw [mem_eraseDups] at hpath
    by_cases henc : info.isEncrypted
    · obtain ⟨c, hc⟩ := hs.handle henc hkey hinterprets path hpath
      obtain ⟨physicalPath, -, hinit⟩ := Outcome.bind_eq_ok.mp hc
      have hknown := (CryptHandle.initializeHandle_consistent_iff hinit).mpr fun known hk =>
        ⟨hs.jsonGet path hpath, hdescribes known hk path hpath⟩
      refine ⟨some c, ?_, hknown.1⟩
      rw [if_pos henc, hc]
      rfl
    · exact ⟨none, if_neg henc, (eq_of_not_isEncrypted henc).symm⟩
  obtain ⟨devs, hdevs⟩ := exists_collect fun path hpath =>
    (hone path hpath).imp fun _ h => h.1
  refine ⟨devs, hdevs, ?_, ?_⟩
  · obtain ⟨path, hpath⟩ := exists_mem_of_ne_nil paths hpaths
    obtain ⟨d, hd, -⟩ := exists_of_collect hdevs (mem_eraseDups.mpr hpath)
    exact ne_nil_of_mem (mem_map_of_mem hd)
  · intro i hi
    obtain ⟨d, hd, rfl⟩ := mem_map.mp hi
    obtain ⟨path, hpath, hd⟩ := exists_of_mem_collect hdevs hd
    obtain ⟨d', hd', hinfo⟩ := hone path hpath
    rw [ok.inj (hd.symm.trans hd'), hinfo]

/-- A key that is not in the keyring is found out when the first device is encrypted. -/
theorem initializeOn_missing (hs : CreateSucceeds codec overflowChecks keys s io name paths info)
    (hpaths : paths ≠ []) (hkey : ¬ KeyKnown keys info) :
    ∃ headers e, initializeOn overflowChecks (io.onSite codec info).pool io.uuid name paths
      info s.site.headers = (headers, .err e) := by
  obtain ⟨keyDesc, hdesc, hunknown⟩ : ∃ keyDesc, info.keyDescription = some keyDesc ∧
      keyDesc ∉ keys := by
    simpa [KeyKnown] using hkey
  have henc : info.isEncrypted = true := by
    rw [EncryptionInfo.isEncrypted, hdesc]
    rfl
  have hone : ∀ path ∈ paths, ∃ physicalPath e,
      (io.one codec info path).devicePath = .ok physicalPath ∧
        (io.one codec info path).cryptInitialize = .err e := by
    intro path hpath
    obtain ⟨physicalPath, hphysical⟩ := hs.devicePath path hpath
    obtain ⟨e, he⟩ : ∃ e, io.handle codec info path = .err e := Host.handle_missing hphysical
      (hs.formats path hpath) hdesc (hs.missing path hpath keyDesc hunknown)
    refine ⟨physicalPath, e, hphysical, ?_⟩
    rw [Host.CreateIo.one, he]
    rfl
  obtain ⟨e, he⟩ : ∃ e, (prepareDevices (io.onSite codec info).pool.prepare io.uuid
      MDADataSize.default info paths s.site.headers).2 = .err e :=
    prepareDevices_refused henc hpaths hone s.site.headers
  exact ⟨_, e, initializeOn_of_unprepared (Prod.ext rfl he)⟩

/-! ### The new pool -/

theorem physicalPaths_of_others {bds : List Placed} {devs : List StratBlockDev}
    (h : ∀ d ∈ devs, ∀ bd ∈ bds, d.uuid ≠ bd.dev.uuid) (underlying : Underlying) :
    physicalPaths (recordDevices bds underlying) devs = physicalPaths underlying devs := by
  refine filterMap_congr fun d hd => ?_
  have hfind : bds.find? (fun bd => bd.dev.uuid = d.uuid) = none := by
    refine List.find?_eq_none.mpr fun bd hbd => ?_
    simpa using (h d hd bd hbd).symm
  rw [recordDevices, hfind]
  rfl

/-- The pool that has been made is the one the simulated engine has. -/
theorem samePool_new {pool : StratPool} {bds : List Placed} {headers : Headers} {devs : BlockDevs}
    {engine : StratEngine} (hfresh : FreshUuids io.pool.prepare paths)
    (hcanon : ∀ path ∈ paths, (io.pool.prepare.one path).devicePath = .ok path)
    (hinit : initializeOn overflowChecks (io.onSite codec info).pool io.uuid name paths
      info s.site.headers = (headers, .ok (pool, bds)))
    (hpaths : paths ≠ []) (hdevs : Uniform info (devs.map Crypt.BlockDevs.reported)) :
    SamePool ⟨⟨engine, headers, recordDevices bds s.site.underlying⟩,
      update s.blockDevs io.uuid devs⟩ io.uuid pool (SimPool.new paths info) := by
  obtain ⟨hprepared, hpool⟩ := initializeOn_eq_ok hinit
  obtain ⟨infos, hp⟩ := prepareDevices_eq_ok hprepared
  have hnames : pool.backstore.datadevs.map (·.uuid) = bds.map (·.dev.uuid) := by
    rw [datadevs_initializePool rfl hpool, map_map]
    rfl
  refine ⟨⟨info, ?_, ?_, ?_⟩, fun path => ?_, ?_⟩
  · dsimp only
    rw [update_self]
    exact hdevs
  · obtain ⟨path, hpath⟩ := exists_mem_of_ne_nil paths hpaths
    rw [SimPool.known, SimPool.new, map_map]
    exact ne_nil_of_mem (mem_map_of_mem (mem_eraseDups.mpr hpath))
  · intro i hi
    rw [SimPool.known, SimPool.new, map_map] at hi
    obtain ⟨path, -, rfl⟩ := mem_map.mp hi
    rfl
  · dsimp only
    have hsame := same_paths_of_canonical hp hcanon
    have hnodes : (SimPool.new paths info).devnodes = paths.eraseDups := by
      rw [SimPool.devnodes, SimPool.new, map_map]
      exact map_id _
    rw [physicalPaths_recordDevices hp hfresh _ hnames, hnodes, mem_eraseDups]
    exact ⟨fun h => hsame.2 h, fun h => hsame.1 h⟩
  · rw [hasFilesystems, filesystems_initializePool hpool]
    rfl

theorem host_createPool_eq {site : Site} {answer : StratisResult CreateAction}
    (h : Site.createPool overflowChecks validateName (io.onSite codec info) name paths redundancy info
      s.site = (site, answer)) (hans : ∀ uuid, answer ≠ .ok (.created uuid)) :
    Host.createPool codec overflowChecks validateName io name paths redundancy info s =
      ({ s with site := site }, answer) := by
  have hsite : Host.onSite (Site.createPool overflowChecks validateName (io.onSite codec info) name
      paths redundancy info) s = ({ s with site := site }, answer) := by
    rw [Host.onSite, within, h]
  rw [Host.createPool, bind_apply, hsite]
  cases answer with
  | err e => rfl
  | panic => rfl
  | ok action =>
    cases action with
    | created uuid => exact absurd rfl (hans uuid)
    | identity => rfl

theorem host_createPool_made {site : Site} {devs : BlockDevs}
    (h : Site.createPool overflowChecks validateName (io.onSite codec info) name paths redundancy info
      s.site = (site, .ok (.created io.uuid))) (hdevs : io.blockDevs codec info paths = .ok devs) :
    Host.createPool codec overflowChecks validateName io name paths redundancy info s =
      (⟨site, update s.blockDevs io.uuid devs⟩, .ok (.created io.uuid)) := by
  have hsite : Host.onSite (Site.createPool overflowChecks validateName (io.onSite codec info) name
      paths redundancy info) s = ({ s with site := site }, .ok (.created io.uuid)) := by
    rw [Host.onSite, within, h]
  rw [Host.createPool, bind_of_eq hsite]
  simp only [hdevs, lift_ok_bind, modify_bind]
  rfl

theorem createPool_invalid (h : ¬ Valid validateName name paths redundancy) :
    ∃ answer : StratisResult CreateAction, (∀ a, answer ≠ .ok a) ∧
      (∀ site, Site.createPool overflowChecks validateName (io.onSite codec info) name paths redundancy
        info site = (site, answer)) ∧
      ∀ t, SimEngine.createPool validateName io.uuid name paths redundancy info t = (t, answer) := by
  unfold Site.createPool SimEngine.createPool
  cases hredundancy : calculateRedundancy redundancy with
  | err e => exact ⟨.err e, nofun, fun _ => rfl, fun _ => rfl⟩
  | panic => exact ⟨.panic, nofun, fun _ => rfl, fun _ => rfl⟩
  | ok u =>
    cases hname : validateName name with
    | err e => exact ⟨.err e, nofun, fun _ => rfl, fun _ => rfl⟩
    | panic => exact ⟨.panic, nofun, fun _ => rfl, fun _ => rfl⟩
    | ok u =>
      cases hverified : validatePaths paths with
      | err e => exact ⟨.err e, nofun, fun _ => rfl, fun _ => rfl⟩
      | panic => exact ⟨.panic, nofun, fun _ => rfl, fun _ => rfl⟩
      | ok u => exact absurd ⟨hredundancy, hname, hverified⟩ h

theorem checkKey_eq_ok_iff : SimEngine.checkKey keys info.keyDescription = .ok () ↔
    KeyKnown keys info := by
  unfold SimEngine.checkKey KeyKnown
  cases info.keyDescription with
  | none => simp
  | some keyDesc => simp

theorem checkKey_ne_panic (keys : List String) (keyDescription : Option String) :
    SimEngine.checkKey keys keyDescription ≠ .panic := by
  unfold SimEngine.checkKey
  cases keyDescription with
  | none => exact nofun
  | some keyDesc =>
    simp only
    split_ifs <;> exact nofun

section accepted

variable (hvalid : Valid validateName name paths redundancy) (hkeys : t.keyHandler = keys)

include hvalid hkeys

theorem simCreate_unknown (hkey : ¬ KeyKnown keys info) (uuid : PoolUuid) :
    ∃ e, SimEngine.createPool validateName uuid name paths redundancy info t = (t, .err e) := by
  obtain ⟨hredundancy, hname, hverified⟩ := hvalid
  obtain ⟨e, he⟩ : ∃ e, SimEngine.checkKey keys info.keyDescription = .err e := by
    cases hcheck : SimEngine.checkKey keys info.keyDescription with
    | ok u => exact absurd (checkKey_eq_ok_iff.mp hcheck) hkey
    | err e => exact ⟨e, rfl⟩
    | panic => exact absurd hcheck (checkKey_ne_panic keys _)
  rw [SimEngine.createPool, hredundancy, hname, hverified]
  simp only [lift_ok_bind, get_bind, hkeys, he]
  exact ⟨e, rfl⟩

theorem simCreate_known (hkey : KeyKnown keys info) (uuid : PoolUuid) :
    SimEngine.createPool validateName uuid name paths redundancy info t =
      (match t.pools.getByName name with
      | some (_, pool) =>
        (t, createPoolIdempotentOrErr name paths pool.devnodes)
      | none =>
        if paths = [] then
          (t, .err (.msg "At least one blockdev is required to create a pool."))
        else (do
          SimEngine.insertPool name uuid (SimPool.new paths info)
          pure (.created uuid) : SimEngine.M CreateAction) t) := by
  obtain ⟨hredundancy, hname, hverified⟩ := hvalid
  rw [SimEngine.createPool, hredundancy, hname, hverified]
  simp only [lift_ok_bind, get_bind, hkeys]
  rw [checkKey_eq_ok_iff.mpr hkey, lift_ok_bind]
  cases t.pools.getByName name with
  | some found => rfl
  | none =>
    by_cases hempty : paths = []
    · simp only [if_pos hempty]
      rfl
    · simp only [if_neg hempty]

end accepted

theorem sameKind_idempotent {existing existing' : List String}
    (h : ∀ path, path ∈ existing ↔ path ∈ existing') (name : String) (paths : List String) :
    SameKind (createPoolIdempotentOrErr name paths existing)
      (createPoolIdempotentOrErr name paths existing') := by
  have hiff : (paths ⊆ existing ∧ existing ⊆ paths) ↔ paths ⊆ existing' ∧ existing' ⊆ paths := by
    simp only [subset_def, h]
  unfold createPoolIdempotentOrErr
  by_cases hsame : paths ⊆ existing ∧ existing ⊆ paths
  · rw [if_pos hsame, if_pos (hiff.mp hsame)]
    exact rfl
  · rw [if_neg hsame, if_neg fun hsame' => hsame (hiff.mpr hsame')]
    trivial

theorem createPoolIdempotentOrErr_ne_created (name : String) (paths existing : List String)
    (uuid : PoolUuid) :
    createPoolIdempotentOrErr name paths existing ≠ .ok (.created uuid) := by
  unfold createPoolIdempotentOrErr
  split_ifs <;> exact nofun

/-- A pool is created in both. -/
theorem agree_created (h : Corresponds keys s t)
    (hs : CreateSucceeds codec overflowChecks keys s io name paths info)
    (ha : CreateAgrees codec keys s io name paths info)
    (hvalid : Valid validateName name paths redundancy) (hfound : s.pools.getByName name = none)
    (hfound' : t.pools.getByName name = none) (hpaths : paths ≠ []) (hkey : KeyKnown keys info) :
    Agree keys (Host.createPool codec overflowChecks validateName io name paths redundancy info s)
      (SimEngine.createPool validateName io.uuid name paths redundancy info t) := by
  obtain ⟨hredundancy, hname, hverified⟩ := id hvalid
  obtain ⟨husable, hcanon⟩ := ha.devices hfound hpaths hkey
  obtain ⟨hinterprets, hdescribes⟩ := ha.clevis hfound hpaths hkey
  obtain ⟨headers, ⟨pool, bds⟩, hinit⟩ := hs.pool hkey hinterprets husable
  obtain ⟨devs, hdevs, huniform⟩ := exists_blockDevs hs hpaths hkey hinterprets hdescribes
  obtain ⟨r, hr, hi⟩ := insertPool_eq h.pools.left name io.uuid pool
  obtain ⟨r', hr', hi'⟩ := simInsert_eq h.pools.right name io.uuid (SimPool.new paths info)
  have hreal := host_createPool_made
    (Site.createPool_made hredundancy hname hverified hfound hpaths hinit hr) hdevs
  have hsim : SimEngine.createPool validateName io.uuid name paths redundancy info t =
      (⟨r', t.keyHandler⟩, .ok (.created io.uuid)) := by
    rw [simCreate_known hvalid h.keyHandler hkey, hfound']
    simp only [if_neg hpaths]
    exact bind_of_eq hr' _
  rw [hreal, hsim]
  refine ⟨⟨h.keyHandler, ?_⟩, rfl⟩
  obtain ⟨infos, hp⟩ := prepareDevices_eq_ok (initializeOn_eq_ok hinit).1
  -- the other pools have other UUIDs, and so have their devices
  have hothers : Table.Matches (SamePool ⟨⟨⟨r, s.site.engine.liminalDevices⟩, headers,
      recordDevices bds s.site.underlying⟩, update s.blockDevs io.uuid devs⟩)
        s.pools t.pools := by
    refine h.pools.imp fun uuid p q hg hsame => ⟨?_, ?_, hsame.filesystems⟩
    · have hne : uuid ≠ io.uuid := by
        rintro rfl
        cases hs.uuid.symm.trans hg
      dsimp only
      rw [update_of_ne hne]
      exact hsame.info
    · dsimp only
      rw [physicalPaths_of_others]
      · exact hsame.paths
      · intro d hd bd hbd
        obtain ⟨path, hpath, -, huuid⟩ := exists_path hp hbd
        rw [huuid]
        exact hs.otherUuids uuid p.1 p.2 hg d hd path hpath
  exact hothers.inserted hi hi' (samePool_new hs.devUuids hcanon hinit hpaths huniform)

theorem agree_createPool (h : Corresponds keys s t)
    (hs : CreateSucceeds codec overflowChecks keys s io name paths info)
    (ha : Valid validateName name paths redundancy → CreateAgrees codec keys s io name paths info) :
    Agree keys (Host.createPool codec overflowChecks validateName io name paths redundancy info s)
      (SimEngine.createPool validateName io.uuid name paths redundancy info t) := by
  by_cases hvalid : Valid validateName name paths redundancy
  · have ha := ha hvalid
    obtain ⟨hredundancy, hname, hverified⟩ := id hvalid
    cases hfound : s.pools.getByName name with
    | some found =>
      have hkey := ha.taken (by rw [hfound]; rfl)
      obtain ⟨q, hfound', hsame⟩ := h.pools.exists_of_getByName hfound
      rw [host_createPool_eq (Site.createPool_taken hredundancy hname hverified hfound)
        (createPoolIdempotentOrErr_ne_created _ _ _), simCreate_known hvalid h.keyHandler hkey,
        hfound']
      exact ⟨h, sameKind_idempotent hsame.paths name paths⟩
    | none =>
      have hfound' := h.pools.getByName_eq_none hfound
      by_cases hempty : paths = []
      · rw [host_createPool_eq (Site.createPool_without_devices hredundancy hname hverified hfound
          hempty) nofun]
        by_cases hkey : KeyKnown keys info
        · rw [simCreate_known hvalid h.keyHandler hkey, hfound']
          simp only [if_pos hempty]
          exact ⟨h, trivial⟩
        · obtain ⟨e, he⟩ := simCreate_unknown hvalid h.keyHandler hkey io.uuid
          rw [he]
          exact ⟨h, trivial⟩
      · by_cases hkey : KeyKnown keys info
        · exact agree_created h hs ha hvalid hfound hfound' hempty hkey
        · -- the real engine finds out when it encrypts the first device
          obtain ⟨e, he⟩ := simCreate_unknown hvalid h.keyHandler hkey io.uuid
          obtain ⟨headers, e', hinit⟩ := initializeOn_missing hs hempty hkey
          rw [host_createPool_eq (Site.createPool_unmade hredundancy hname hverified hfound hempty
            hinit) nofun, he]
          exact ⟨h.of_devices rfl rfl rfl, trivial⟩
  · obtain ⟨answer, hans, hsite, hsim⟩ := createPool_invalid hvalid
    rw [host_createPool_eq (hsite s.site) fun uuid => hans _, hsim]
    exact ⟨h, .refl answer⟩

end creation

/-! ### Runs -/

section runs

variable (codec : JweCodec) (overflowChecks : Bool) (validateName : String → StratisResult Unit)

theorem agree_step {keys : List String} {s : Host} {t : SimEngine} (h : Corresponds keys s t)
    {i : Input} (hs : Succeeds codec overflowChecks keys s i)
    (ha : Agrees codec validateName keys s i) :
    Agree keys (realStep codec overflowChecks validateName s i) (simStep validateName t i) := by
  cases i with
  | createPool io name paths redundancy info =>
    exact (agree_createPool h hs ha).bind fun a => some (Action.ofCreate a)
  | renamePool save uuid newName =>
    obtain rfl : save = .ok () := hs
    exact (agree_renamePool h ha uuid).bind fun a => some (Action.ofRename a)
  | destroyPool io uuid =>
    obtain ⟨hthin, hcap, hdisown⟩ := hs
    exact (agree_destroyPool h hthin hcap hdisown uuid).bind fun a => some (Action.ofDelete a)
  | onPool uuid input => exact agree_onPool h uuid hs ha

/-- As long as all operations of the system succeed and both engines treat each call in the same
way, they have the same pools after each call and have given answers of the same kind. -/
theorem simulator_agrees (keys : List String) (s : Host) (t : SimEngine) (is : List Input)
    (h : Corresponds keys s t)
    (hs : AllSteps (realStep codec overflowChecks validateName)
      (Succeeds codec overflowChecks keys) s is)
    (ha : AllSteps (realStep codec overflowChecks validateName)
      (Agrees codec validateName keys) s is) :
    ∀ js, js <+: is →
      Corresponds keys (run (realStep codec overflowChecks validateName) s js).1
        (run (simStep validateName) t js).1 ∧
      List.Forall₂ (fun a b => a.1 = b.1 ∧ SameKind a.2 b.2)
        (run (realStep codec overflowChecks validateName) s js).2
        (run (simStep validateName) t js).2 := by
  rintro js ⟨rest, rfl⟩
  have hboth := ((allSteps_append _).mp hs).1.and _ ((allSteps_append _).mp ha).1
  exact run_simulation (realStep codec overflowChecks validateName) (simStep validateName)
    (R := Corresponds keys) (Q := SameKind)
    (fun _ _ _ h hi => agree_step codec overflowChecks validateName h hi.1 hi.2) h hboth

end runs

/-! ### One device -/

open Crypt.BlockDevs (plainCodec rebinding describes_tpm2Header)

def withKey (io : CryptIo) : CryptIo :=
  { io with readKey := fun keyDesc => .ok (if keyDesc = "key" then some [1] else none) }

/-- The answers while a pool is created on one device. Everything that is done succeeds. -/
def creating : Host.CreateIo where
  uuid := ⟨0⟩
  pool := StratPool.smoothCreation "/dev/sdb"
  crypt _ := { settingUp .nil with toCryptIo := withKey (rebinding .nil) }

/-- The new pool is bound to the key. -/
def keyed : EncryptionInfo := ⟨some "key", none⟩

def creation : Input := .createPool creating "pool" ["/dev/sdb"] none keyed

def bindTpm : Input :=
  .onPool ⟨0⟩ ⟨.bindClevis "tpm2" (.object .nil), managerIo (withKey (rebinding .nil))⟩

def renameTo (newName : String) : Input := .renamePool (.ok ()) ⟨0⟩ newName

def destruction : Input := .destroyPool ⟨.ok (), .ok (), fun _ => .ok ()⟩ ⟨0⟩

def emptyHost : Host := ⟨emptySite, fun _ => []⟩

def emptySim : SimEngine := ⟨Table.default, ["key"]⟩

theorem corresponds_empty : Corresponds ["key"] emptyHost emptySim := ⟨rfl, .default⟩

theorem readKey_creating (path : String) {keyDesc : String} (h : keyDesc ∉ ["key"]) :
    (creating.crypt path).readKey keyDesc = .ok none := by
  have hne : keyDesc ≠ "key" := fun heq => h (by rw [heq]; exact mem_singleton_self _)
  show Outcome.ok (if keyDesc = "key" then some [1] else none) = Outcome.ok none
  rw [if_neg hne]

theorem blockDevs_creating :
    creating.blockDevs plainCodec keyed ["/dev/sdb"] = .ok [some boundOnce] := by
  rfl

theorem handle_creating (path : String) : creating.handle plainCodec keyed path = .ok boundOnce := by
  rfl

theorem initializeOn_creating : ∃ headers r, initializeOn true
    (creating.onSite plainCodec keyed).pool creating.uuid "pool" ["/dev/sdb"] keyed
      emptyHost.site.headers = (headers, .ok r) := by
  apply exists_of_isOk
  decide +kernel

theorem creation_succeeds : Succeeds plainCodec true ["key"] emptyHost creation where
  uuid := rfl
  devUuids := by
    intro path hpath path' hpath' _
    rw [mem_singleton.mp hpath, mem_singleton.mp hpath']
  otherUuids := by
    intro uuid name pool hpool
    cases hpool
  devicePath _ _ := ⟨_, rfl⟩
  formats _ _ := ⟨rfl, rfl, rfl, rfl⟩
  jsonGet _ _ := rfl
  missing path _ keyDesc hkey := readKey_creating path hkey
  handle _ _ _ path _ := ⟨boundOnce, handle_creating path⟩
  pool _ _ _ := initializeOn_creating

theorem createPool_creating : ∃ site, Site.createPool true validateName
    (creating.onSite plainCodec keyed) "pool" ["/dev/sdb"] none keyed emptyHost.site =
      (site, .ok (.created creating.uuid)) := by
  have hok : (Site.createPool true validateName (creating.onSite plainCodec keyed) "pool" ["/dev/sdb"]
      none keyed emptyHost.site).2 = .ok (.created creating.uuid) := by
    decide +kernel
  generalize Site.createPool true validateName (creating.onSite plainCodec keyed) "pool" ["/dev/sdb"]
    none keyed emptyHost.site = r at hok
  exact ⟨r.1, Prod.ext rfl hok⟩

theorem realStep_creation : ∃ site, realStep plainCodec true validateName emptyHost creation =
    (⟨site, update (fun _ => []) ⟨0⟩ [some boundOnce]⟩, .ok (some .created)) := by
  obtain ⟨site, hsite⟩ := createPool_creating
  have hcreated := host_createPool_made hsite blockDevs_creating
  exact ⟨site, bind_of_eq hcreated fun a => pure (some (Action.ofCreate a))⟩

/-- A new pool is bound by Clevis, takes another name and is destroyed. -/
theorem simulator_agrees_one_device :
    let is := [creation, bindTpm, renameTo "data", destruction]
    (Corresponds ["key"] (run (realStep plainCodec true validateName) emptyHost is).1
        (run (simStep validateName) emptySim is).1 ∧
      List.Forall₂ (fun a b => a.1 = b.1 ∧ SameKind a.2 b.2)
        (run (realStep plainCodec true validateName) emptyHost is).2
        (run (simStep validateName) emptySim is).2) ∧
    (run (simStep validateName) emptySim is).2.map (·.2) =
      [.ok (some .created), .ok (some .created), .ok (some .renamed), .ok (some .deleted)] := by
  intro is
  obtain ⟨site, hcreated⟩ := realStep_creation
  refine ⟨simulator_agrees plainCodec true validateName ["key"] emptyHost emptySim is
    corresponds_empty ⟨creation_succeeds, ?_⟩ ⟨?_, ?_⟩ is List.prefix_rfl, by decide +kernel⟩
  · rw [hcreated]
    refine ⟨⟨rfl, rfl, fun _ => rfl, ?_⟩, rfl, ⟨rfl, rfl, fun _ => rfl⟩, trivial⟩
    rintro (_ | i) c hc -
    · cases hc
      rfl
    · cases hc
  · refine fun _ => ⟨?_, ?_, ?_⟩
    · intro _ keyDesc hkey
      cases hkey
      exact List.mem_singleton_self _
    · refine fun _ _ _ => ⟨?_, ?_⟩
      · exact Outcome.isOk_iff.mp (by decide +kernel)
      · intro path hpath
        rw [List.mem_singleton.mp hpath]
        rfl
    · exact fun _ _ _ => ⟨rfl, nofun⟩
  · rw [hcreated]
    have hname : validateName "data" = .ok () := by decide +kernel
    refine ⟨?_, hname, trivial, trivial⟩
    intro info hinfo _
    cases hinfo
    refine ⟨rfl, fun _ keyDesc hkey => ?_⟩
    cases hkey
    exact List.mem_singleton_self _

/-- A name that is not valid is refused by the real engine only. -/
theorem simulator_takes_any_name :
    let is := [creation, renameTo ".."]
    Corresponds ["key"] emptyHost emptySim ∧
    AllSteps (realStep plainCodec true validateName) (Succeeds plainCodec true ["key"]) emptyHost is ∧
    ∃ e, (run (realStep plainCodec true validateName) emptyHost is).2.map (·.2) =
        [.ok (some .created), .err e] ∧
      (run (simStep validateName) emptySim is).2.map (·.2) =
        [.ok (some .created), .ok (some .renamed)] := by
  obtain ⟨site, hcreated⟩ := realStep_creation
  refine ⟨corresponds_empty, ⟨creation_succeeds, rfl, trivial⟩, .msg "Name is . or .. : ..", ?_,
    by decide +kernel⟩
  rw [run_cons, run_cons, hcreated]
  rfl

end Stratisd.Sim
