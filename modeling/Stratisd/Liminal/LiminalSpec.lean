import Stratisd.Liminal.Liminal

/-! What setting up a pool needs, and where a set of devices is put otherwise. A pool is in at
most one place: up, errored or hopeless. -/

namespace Stratisd.Liminal

open Run Run.Outcome Run.Stateful Engine Backstore Pool

variable {overflowChecks : Bool} {env : SetupEnv} {pools : Table PoolUuid StratPool}
  {poolUuid : PoolUuid}

/-! ### Setting up a pool -/

theorem orErrored_eq_ok {α : Type} {x : StratisResult α} {a : α} :
    orErrored x = .ok a ↔ x = .ok a := by
  cases x <;> simp [orErrored]

/-- Everything that has to be as it should for a pool to come up under a name. -/
structure SetsUp (overflowChecks : Bool) (env : SetupEnv) (poolUuid : PoolUuid)
    (infos : List (DevUuid × LStratisInfo)) (name : String) (pool : StratPool) (devs : List ReadDev)
    (time : DateTime) (metadata : PoolSave) (datadevs cachedevs : List StratBlockDev) : Prop where
  bdas : getBdas env infos = .ok devs
  identifiers : ∀ d ∈ devs, d.uuid = d.bda.devUuid ∧ poolUuid = d.bda.poolUuid
  newest : getMetadata env.crc env.fromSlice env.opens (devs.map (·.attached env)) =
    .ok (some (time, metadata))
  blockdevs : getBlockdevs metadata.backstore (devs.map (·.found env)) = .ok (datadevs, cachedevs)
  nonempty : datadevs ≠ []
  encrypted : numWithLuks env devs datadevs = 0 ∨
    numWithLuks env devs datadevs = datadevs.length
  assembled : StratPool.setup overflowChecks env.setup datadevs cachedevs time metadata = .ok pool
  named : metadata.name = name

theorem setupPool_eq_ok {infos : List (DevUuid × LStratisInfo)} {name : String} {pool : StratPool} :
    setupPool overflowChecks env pools poolUuid infos = .ok (name, pool) ↔
      pools.getByName name = none ∧ ∃ devs time metadata datadevs cachedevs,
        SetsUp overflowChecks env poolUuid infos name pool devs time metadata datadevs
          cachedevs := by
  constructor
  · intro h
    obtain ⟨devs, hdevs, h⟩ := Outcome.bind_eq_ok.mp h
    split_ifs at h with hids
    obtain ⟨found, hfound, h⟩ := Outcome.bind_eq_ok.mp h
    obtain ⟨newest, hnewest, h⟩ := Outcome.bind_eq_ok.mp h
    split_ifs at h with hname
    obtain ⟨tiers, htiers, h⟩ := Outcome.bind_eq_ok.mp h
    split_ifs at h with hempty hluks
    obtain ⟨p, hp, hnamed⟩ := Outcome.bind_eq_ok.mp h
    have hsome : found = some newest := by
      cases found with
      | none => cases hnewest
      | some x =>
        cases hnewest
        rfl
    rw [hsome] at hfound
    cases hnamed
    refine ⟨by simpa using hname, devs, newest.1, newest.2, tiers.1, tiers.2,
      orErrored_eq_ok.mp hdevs, ?_, orErrored_eq_ok.mp hfound, orErrored_eq_ok.mp htiers, hempty, ?_,
      orErrored_eq_ok.mp hp, rfl⟩
    · simpa using hids
    · by_contra hne
      exact hluks (not_or.mp hne)
  · rintro ⟨hname, devs, time, metadata, datadevs, cachedevs, hs⟩
    have hids : ¬ (devs.any fun d => decide (d.uuid ≠ d.bda.devUuid ∨ poolUuid ≠ d.bda.poolUuid)) =
        true := by
      simpa using hs.identifiers
    have hluks : ¬ (numWithLuks env devs datadevs ≠ 0 ∧
        numWithLuks env devs datadevs ≠ datadevs.length) := by
      rintro ⟨h₁, h₂⟩
      exact hs.encrypted.elim h₁ h₂
    have hfree : ¬ (pools.getByName metadata.name).isSome = true := by
      rw [hs.named, hname]
      simp
    unfold setupPool
    rw [orErrored_eq_ok.mpr hs.bdas, ok_bind, if_neg hids, orErrored_eq_ok.mpr hs.newest,
      ok_bind, ofOption_some, ok_bind, if_neg hfree,
      orErrored_eq_ok.mpr hs.blockdevs, ok_bind, if_neg hs.nonempty, if_neg hluks,
      orErrored_eq_ok.mpr hs.assembled, ok_bind, hs.named]

/-! ### Where a set of devices is put -/

namespace LiminalDevices

variable {l : LiminalDevices} {infos : DeviceSet}

/-- No pool is in two places. -/
structure Apart (pools : Table PoolUuid StratPool) (l : LiminalDevices) : Prop where
  errored_up : ∀ u, l.erroredPoolDevices.lookup u = none ∨ pools.getByUuid u = none
  hopeless_up : ∀ u, l.hopelessDeviceSets.lookup u = none ∨ pools.getByUuid u = none
  errored_hopeless : ∀ u, l.erroredPoolDevices.lookup u = none ∨
    l.hopelessDeviceSets.lookup u = none

theorem Apart.removeErrored (h : Apart pools l) (poolUuid : PoolUuid) :
    Apart pools (l.removeErrored poolUuid) := by
  have hle : ∀ u, l.erroredPoolDevices.lookup u = none →
      (l.removeErrored poolUuid).erroredPoolDevices.lookup u = none := by
    intro u hu
    by_cases he : u = poolUuid
    · subst he
      exact AList.lookup_erase _ _
    · exact (AList.lookup_erase_ne he).trans hu
  exact ⟨fun u => (h.errored_up u).imp_left (hle u), h.hopeless_up,
    fun u => (h.errored_hopeless u).imp_left (hle u)⟩

theorem Apart.insertErrored (h : Apart pools l) (hu : Unknown pools l poolUuid)
    (infos : DeviceSet) : Apart pools (l.insertErrored poolUuid infos) := by
  refine ⟨fun u => ?_, h.hopeless_up, fun u => ?_⟩
  · by_cases he : u = poolUuid
    · exact .inr (he ▸ hu.1)
    · exact (h.errored_up u).imp_left fun hn => (AList.lookup_insert_ne he).trans hn
  · by_cases he : u = poolUuid
    · exact .inr (he ▸ hu.2.2)
    · exact (h.errored_hopeless u).imp_left fun hn => (AList.lookup_insert_ne he).trans hn

theorem Apart.insertHopeless (h : Apart pools l) (hp : pools.getByUuid poolUuid = none)
    (hn : l.erroredPoolDevices.lookup poolUuid = none) (bag : DeviceBag) :
    Apart pools (l.insertHopeless poolUuid bag) := by
  refine ⟨h.errored_up, fun u => ?_, fun u => ?_⟩
  · by_cases he : u = poolUuid
    · exact .inr (he ▸ hp)
    · exact (h.hopeless_up u).imp_left fun hn => (AList.lookup_insert_ne he).trans hn
  · by_cases he : u = poolUuid
    · exact .inl (he ▸ hn)
    · exact (h.errored_hopeless u).imp_right fun hn => (AList.lookup_insert_ne he).trans hn

/-- The pool comes up, or the devices are hopeless or errored, or setting up stops. The
assertions do not. -/
theorem trySetupPool_cases (overflowChecks : Bool) (env : SetupEnv) (hu : Unknown pools l poolUuid)
    (infos : DeviceSet) :
    (∃ opened p, infos.asOpenedSet = some opened ∧
        setupPool overflowChecks env pools poolUuid opened = .ok p ∧
        trySetupPool overflowChecks env pools poolUuid infos l = (l, .ok (some p))) ∨
      (∀ opened p, infos.asOpenedSet = some opened →
          setupPool overflowChecks env pools poolUuid opened ≠ .ok p) ∧
        (trySetupPool overflowChecks env pools poolUuid infos l =
            (l.insertHopeless poolUuid infos.intoBag, .ok none) ∨
          trySetupPool overflowChecks env pools poolUuid infos l =
            (l.insertErrored poolUuid infos, .ok none)) ∨
      ∃ opened, infos.asOpenedSet = some opened ∧
        setupPool overflowChecks env pools poolUuid opened = .panic ∧
        trySetupPool overflowChecks env pools poolUuid infos l = (l, .panic) := by
  unfold trySetupPool
  rw [if_neg (by simp [hu.1, hu.2.1, hu.2.2])]
  cases ho : infos.asOpenedSet with
  | none => exact .inr (.inl ⟨by simp, .inr rfl⟩)
  | some opened =>
    cases hs : setupPool overflowChecks env pools poolUuid opened with
    | ok p => exact .inl ⟨opened, p, rfl, hs, by simp [hs]⟩
    | err d =>
      have hnot : ∀ opened' p, some opened = some opened' →
          setupPool overflowChecks env pools poolUuid opened' ≠ .ok p := by
        rintro _ p ⟨rfl⟩
        simp [hs]
      cases d with
      | hopeless => exact .inr (.inl ⟨hnot, .inl (by simp [hs])⟩)
      | errored => exact .inr (.inl ⟨hnot, .inr (by simp [hs])⟩)
    | panic => exact .inr (.inr ⟨opened, rfl, hs, by simp [hs]⟩)

/-! ### What an event does -/

/-- The devices that are known of a pool. -/
def devicesOf (l : LiminalDevices) (poolUuid : PoolUuid) : DeviceSet :=
  (l.erroredPoolDevices.lookup poolUuid).getD DeviceSet.new

/-- The devices of a pool after an event, if an attempt to set it up is made with them. -/
def tried (l : LiminalDevices) (event : UdevEngineEvent) : Option DeviceSet :=
  match event.eventType, event.info with
  | .add, some info | .change, some info =>
    match l.hopelessDeviceSets.lookup info.stratisIdentifiers.poolUuid,
        (l.devicesOf info.stratisIdentifiers.poolUuid).processInfoAdd info with
    | none, .ok devices => some devices
    | _, _ => none
  | .remove, some info =>
    match l.hopelessDeviceSets.lookup info.stratisIdentifiers.poolUuid with
    | none => some ((l.devicesOf info.stratisIdentifiers.poolUuid).processInfoRemove info)
    | some _ => none
  | _, _ => none

/-- Setting up is stopped by itself, with devices that are tried after the event, or by putting
the device next to those known of it. -/
def Stops (overflowChecks : Bool) (env : SetupEnv) (pools : Table PoolUuid StratPool)
    (l : LiminalDevices) (event : UdevEngineEvent) : Prop :=
  ∃ info, event.info = some info ∧
    ((l.devicesOf info.stratisIdentifiers.poolUuid).processInfoAdd info = .panic ∨
      ∃ devices opened, l.tried event = some devices ∧ devices.asOpenedSet = some opened ∧
        setupPool overflowChecks env pools info.stratisIdentifiers.poolUuid opened = .panic)

/-- A pool comes up that is in no place yet, under a name that is free. -/
def ComesUp (pools : Table PoolUuid StratPool) (l : LiminalDevices) (poolUuid : PoolUuid)
    (result : StratisResult (Option (PoolUuid × String × StratPool))) : Prop :=
  ∃ name pool, result = .ok (some (poolUuid, name, pool)) ∧ Unknown pools l poolUuid ∧
    pools.getByName name = none

theorem setupDevices_spec (overflowChecks : Bool) (env : SetupEnv) (h : Apart pools l)
    (hu : Unknown pools l poolUuid) (devices : DeviceSet) :
    let r := setupDevices overflowChecks env pools poolUuid devices l
    Apart pools r.1 ∧ (r.2 = .ok none ∨ ComesUp pools r.1 poolUuid r.2 ∨
      r.2 = .panic ∧ ∃ opened, devices.asOpenedSet = some opened ∧
        setupPool overflowChecks env pools poolUuid opened = .panic) := by
  intro r
  rcases trySetupPool_cases overflowChecks env hu devices with
    ⟨opened, p, -, hp, hr⟩ | ⟨-, hr | hr⟩ | ⟨opened, ho, hp, hr⟩
  · have hr' : r = (l, .ok (some (poolUuid, p))) := bind_of_eq hr _
    rw [hr']
    exact ⟨h, .inr (.inl ⟨p.1, p.2, rfl, hu, (setupPool_eq_ok.mp hp).1⟩)⟩
  · have hr' : r = (l.insertHopeless poolUuid devices.intoBag, .ok none) := bind_of_eq hr _
    rw [hr']
    exact ⟨h.insertHopeless hu.1 hu.2.1 _, .inl rfl⟩
  · have hr' : r = (l.insertErrored poolUuid devices, .ok none) := bind_of_eq hr _
    rw [hr']
    exact ⟨h.insertErrored hu _, .inl rfl⟩
  · have hr' : r = (l, .panic) := by
      have := bind_of_panic (f := fun pool => pure (pool.map fun p => (poolUuid, p)))
        (congrArg Prod.snd hr)
      rw [hr] at this
      exact this
    rw [hr']
    exact ⟨h, .inr (.inr ⟨rfl, opened, ho, hp⟩)⟩

theorem unknown_removeErrored (hp : pools.getByUuid poolUuid = none)
    (hh : l.hopelessDeviceSets.lookup poolUuid = none) :
    Unknown pools (l.removeErrored poolUuid) poolUuid := ⟨hp, AList.lookup_erase _ _, hh⟩

/-- What an event can lead to: nothing that is returned, a pool, or a stop that is not one of
the assertions. No pool is in two places afterwards. -/
def Evaluates (overflowChecks : Bool) (env : SetupEnv) (pools : Table PoolUuid StratPool)
    (l : LiminalDevices) (event : UdevEngineEvent)
    (r : LiminalDevices × StratisResult (Option (PoolUuid × String × StratPool))) : Prop :=
  Apart pools r.1 ∧ (r.2 = .ok none ∨
    (∃ info, event.info = some info ∧ ComesUp pools r.1 info.stratisIdentifiers.poolUuid r.2) ∨
    r.2 = .panic ∧ Stops overflowChecks env pools l event)

theorem deviceAdded_spec (overflowChecks : Bool) (env : SetupEnv) (h : Apart pools l)
    (info : DeviceInfo) {event : UdevEngineEvent} (hi : event.info = some info)
    (he : event.eventType = .add ∨ event.eventType = .change) :
    Evaluates overflowChecks env pools l event (deviceAdded overflowChecks env pools info l) := by
  unfold deviceAdded
  by_cases hp : (pools.getByUuid info.stratisIdentifiers.poolUuid).isSome
  · rw [if_pos hp]
    exact ⟨h, .inl rfl⟩
  rw [if_neg hp]
  have hdown : pools.getByUuid info.stratisIdentifiers.poolUuid = none := by simpa using hp
  cases hh : l.hopelessDeviceSets.lookup info.stratisIdentifiers.poolUuid with
  | some bag =>
    have hnone := (h.errored_hopeless info.stratisIdentifiers.poolUuid).resolve_right (by simp [hh])
    exact ⟨h.insertHopeless hdown hnone _, .inl rfl⟩
  | none =>
    have hu := unknown_removeErrored hdown hh
    have hrest := h.removeErrored info.stratisIdentifiers.poolUuid
    cases ha : (l.devicesOf info.stratisIdentifiers.poolUuid).processInfoAdd info with
    | ok devices =>
      have htried : l.tried event = some devices := by
        obtain ⟨eventType, _⟩ := event
        subst hi
        rcases he with rfl | rfl <;> simp [tried, hh, ha]
      unfold devicesOf at ha
      simp only [ha]
      obtain ⟨hapart, hres⟩ := setupDevices_spec overflowChecks env hrest hu devices
      refine ⟨hapart, hres.imp_right (Or.imp (fun hup => ⟨info, hi, hup⟩) ?_)⟩
      rintro ⟨hpanic, opened, ho, hs⟩
      exact ⟨hpanic, info, hi, .inr ⟨devices, opened, htried, ho, hs⟩⟩
    | err bag =>
      unfold devicesOf at ha
      simp only [ha]
      exact ⟨hrest.insertHopeless hdown hu.2.1 _, .inl rfl⟩
    | panic =>
      have hstop : Stops overflowChecks env pools l event := ⟨info, hi, .inl ha⟩
      unfold devicesOf at ha
      simp only [ha]
      exact ⟨hrest, .inr (.inr ⟨rfl, hstop⟩)⟩

theorem deviceRemoved_spec (overflowChecks : Bool) (env : SetupEnv) (h : Apart pools l)
    (info : DeviceInfo) :
    Evaluates overflowChecks env pools l ⟨.remove, some info⟩
      (deviceRemoved overflowChecks env pools info l) := by
  unfold deviceRemoved
  by_cases hp : (pools.getByUuid info.stratisIdentifiers.poolUuid).isSome
  · rw [if_pos hp]
    exact ⟨h, .inl rfl⟩
  rw [if_neg hp]
  have hdown : pools.getByUuid info.stratisIdentifiers.poolUuid = none := by simpa using hp
  cases hh : l.hopelessDeviceSets.lookup info.stratisIdentifiers.poolUuid with
  | some bag =>
    have hnone := (h.errored_hopeless info.stratisIdentifiers.poolUuid).resolve_right (by simp [hh])
    exact ⟨h.insertHopeless hdown hnone _, .inl rfl⟩
  | none =>
    obtain ⟨hapart, hres⟩ := setupDevices_spec overflowChecks env
      (h.removeErrored info.stratisIdentifiers.poolUuid) (unknown_removeErrored hdown hh)
      ((l.devicesOf info.stratisIdentifiers.poolUuid).processInfoRemove info)
    refine ⟨hapart, hres.imp_right (Or.imp (fun hup => ⟨info, rfl, hup⟩) ?_)⟩
    rintro ⟨hpanic, opened, ho, hs⟩
    exact ⟨hpanic, info, rfl, .inr ⟨_, opened, by simp [tried, hh], ho, hs⟩⟩

theorem blockEvaluate_spec (overflowChecks : Bool) (env : SetupEnv) (h : Apart pools l)
    (event : UdevEngineEvent) :
    Evaluates overflowChecks env pools l event (blockEvaluate overflowChecks env pools event l) := by
  obtain ⟨eventType, info⟩ := event
  cases info with
  | none => cases eventType <;> exact ⟨h, .inl rfl⟩
  | some info =>
    cases eventType with
    | add => exact deviceAdded_spec overflowChecks env h info rfl (.inl rfl)
    | change => exact deviceAdded_spec overflowChecks env h info rfl (.inr rfl)
    | remove => exact deviceRemoved_spec overflowChecks env h info
    | other => exact ⟨h, .inl rfl⟩

end LiminalDevices

end Stratisd.Liminal
