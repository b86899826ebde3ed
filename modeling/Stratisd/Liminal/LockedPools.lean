import Stratisd.Liminal.Removal

/-! The encrypted pools that are reported while they are not set up. A pool is reported with its
LUKS2 devices, but only if one is known under every Stratis device of its set: a single Stratis
device without one hides the pool, so that a device which is found can make a pool disappear. -/

namespace Stratisd.Liminal

open Run Run.Stateful Engine Pool Option AList

theorem foldl_push_eq_some {α : Type} {xs : List (Option α)} {v w : List α} :
    xs.foldl (fun vec x => vec.bind fun v => x.map fun a => v ++ [a]) (some v) = some w ↔
      none ∉ xs ∧ w = v ++ xs.filterMap id := by
  have hnone : ∀ xs : List (Option α),
      xs.foldl (fun vec x => vec.bind fun v => x.map fun a => v ++ [a]) none = none := by
    intro xs
    induction xs with
    | nil => rfl
    | cons x xs ih => exact ih
  induction xs generalizing v with
  | nil => simp [eq_comm]
  | cons x xs ih =>
    cases x with
    | none => simp [hnone]
    | some a => simp [ih]

namespace DeviceSet

variable {s t : DeviceSet} {info : DeviceInfo}

/-- There is a LUKS2 device for every entry. -/
def Covered (s : DeviceSet) : Prop := ∀ a ∈ s.values, a.physical ≠ none

theorem covered_iff_layers : s.Covered ↔ ∀ v, s.physical v = none → s.logical v = none := by
  constructor
  · intro h v hv
    cases hl : s.internal.lookup v with
    | none => simp [logical, hl]
    | some a => exact absurd (physical_of_lookup hl ▸ hv) (h a (mem_values.mpr ⟨v, hl⟩))
  · intro h a ha hp
    obtain ⟨v, hl⟩ := mem_values.mp ha
    have hlogical := h v ((physical_of_lookup hl).trans hp)
    exact LInfo.physical_ne_none ((logical_of_lookup hl).symm.trans hlogical) hp

theorem lockedPoolDevice_eq (e : (_ : DevUuid) × LInfo) :
    lockedPoolDevice e = e.2.physical.map fun luks => ⟨luks.ids.devnode, e.1⟩ := by
  obtain ⟨uuid, a⟩ := e
  cases a with
  | stratis a =>
    simp only [lockedPoolDevice, LInfo.luksDevnode, LInfo.physical, map_map]
    rfl
  | luks a => rfl

theorem none_mem_lockedPoolDevices :
    none ∈ s.internal.entries.map lockedPoolDevice ↔ ¬s.Covered := by
  rw [Covered, values, List.forall_mem_map]
  simp [lockedPoolDevice_eq]

theorem lockedPoolInfo_eq_some {locked : LockedPoolInfo} :
    s.lockedPoolInfo = some locked ↔ s.encryptionInfo = some locked.info ∧ s.Covered ∧
      locked.devices = s.internal.entries.filterMap lockedPoolDevice := by
  have hdevices : (s.internal.entries.map lockedPoolDevice).filterMap id =
      s.internal.entries.filterMap lockedPoolDevice := by
    rw [List.filterMap_map]
    rfl
  simp only [lockedPoolInfo, bind_eq_some_iff, map_eq_some_iff, foldl_push_eq_some,
    none_mem_lockedPoolDevices, not_not, List.nil_append, hdevices]
  constructor
  · rintro ⟨e, he, d, ⟨hcovered, hd⟩, rfl⟩
    exact ⟨he, hcovered, hd⟩
  · rintro ⟨he, hcovered, hd⟩
    exact ⟨_, he, _, ⟨hcovered, hd⟩, rfl⟩

theorem exists_lockedPoolInfo_iff :
    (∃ locked, s.lockedPoolInfo = some locked) ↔ (∃ v, s.physical v ≠ none) ∧ s.Covered := by
  constructor
  · rintro ⟨locked, h⟩
    obtain ⟨he, hcovered, -⟩ := lockedPoolInfo_eq_some.mp h
    obtain ⟨v, luks, hv, -⟩ := exists_of_encryptionInfo he
    exact ⟨⟨v, by simp [hv]⟩, hcovered⟩
  · rintro ⟨⟨v, hv⟩, hcovered⟩
    obtain ⟨luks, hluks⟩ := ne_none_iff_exists'.mp hv
    obtain ⟨e, he⟩ := exists_encryptionInfo hluks
    exact ⟨⟨e, _⟩, lockedPoolInfo_eq_some.mpr ⟨he, hcovered, rfl⟩⟩

/-- What the reported devices are to be: those with a known LUKS2 device, each one once. -/
structure ListsDevices (s : DeviceSet) (devices : List LockedPoolDevice) : Prop where
  mem_iff : ∀ d, d ∈ devices ↔ ∃ luks, s.physical d.uuid = some luks ∧ luks.ids.devnode = d.devnode
  nodup : (devices.map (·.uuid)).Nodup

theorem listsDevices_lockedPoolDevices (s : DeviceSet) :
    s.ListsDevices (s.internal.entries.filterMap lockedPoolDevice) where
  mem_iff d := by
    simp only [List.mem_filterMap, lockedPoolDevice_eq, map_eq_some_iff]
    constructor
    · rintro ⟨⟨v, a⟩, he, luks, hluks, rfl⟩
      exact ⟨luks, (physical_of_lookup (mem_lookup_iff.mpr he)).trans hluks, rfl⟩
    · rintro ⟨luks, hv, hdev⟩
      obtain ⟨a, ha, hluks⟩ := bind_eq_some_iff.mp hv
      exact ⟨⟨d.uuid, a⟩, mem_lookup_iff.mp ha, luks, hluks, by rw [hdev]⟩
  nodup := by
    rw [List.Nodup, List.pairwise_map, List.pairwise_filterMap]
    refine (List.nodupKeys_iff_pairwise.mp s.internal.nodupKeys).imp fun hne d hd d' hd' => ?_
    rw [lockedPoolDevice_eq, map_eq_some_iff] at hd hd'
    obtain ⟨_, -, rfl⟩ := hd
    obtain ⟨_, -, rfl⟩ := hd'
    exact hne

/-- What is said of `locked_pool_info`: a set is reported if and only if an entry has encryption
info, with that info and with the devices that have a known LUKS2 device. -/
structure Documented (s : DeviceSet) : Prop where
  reported_iff : (∃ locked, s.lockedPoolInfo = some locked) ↔
    ∃ a ∈ s.values, a.encryptionInfo ≠ none
  devices : ∀ locked, s.lockedPoolInfo = some locked → s.ListsDevices locked.devices
  info : ∀ locked, s.lockedPoolInfo = some locked →
    ∀ a ∈ s.values, ∀ e, a.encryptionInfo = some e → e = locked.info

/-- The encryption infos of a set agree. -/
def Agreeing (s : DeviceSet) : Prop :=
  ∀ a ∈ s.values, ∀ b ∈ s.values, ∀ e e', a.encryptionInfo = some e → b.encryptionInfo = some e' →
    e = e'

theorem exists_encrypted_iff :
    (∃ a ∈ s.values, a.encryptionInfo ≠ none) ↔ ∃ v, s.physical v ≠ none := by
  constructor
  · rintro ⟨a, ha, he⟩
    obtain ⟨v, hv⟩ := mem_values.mp ha
    rw [LInfo.encryptionInfo_eq, Ne, map_eq_none_iff] at he
    exact ⟨v, by rwa [physical_of_lookup hv]⟩
  · rintro ⟨v, hv⟩
    obtain ⟨luks, hluks⟩ := ne_none_iff_exists'.mp hv
    obtain ⟨a, ha, hp⟩ := bind_eq_some_iff.mp hluks
    exact ⟨a, mem_values.mpr ⟨v, ha⟩, by rw [LInfo.encryptionInfo_eq, hp]; simp⟩

theorem documented_iff (hagree : s.Agreeing) :
    s.Documented ↔ (∀ a ∈ s.values, a.encryptionInfo = none) ∨ s.Covered := by
  constructor
  · intro h
    by_cases hsome : ∃ a ∈ s.values, a.encryptionInfo ≠ none
    · exact Or.inr (exists_lockedPoolInfo_iff.mp (h.reported_iff.mpr hsome)).2
    · push Not at hsome
      exact Or.inl hsome
  · intro h
    refine ⟨?_, fun locked hl => ?_, fun locked hl a ha e he => ?_⟩
    · rw [exists_lockedPoolInfo_iff, exists_encrypted_iff]
      refine ⟨And.left, fun hsome => ⟨hsome, h.resolve_left fun hnone => ?_⟩⟩
      obtain ⟨a, ha, he⟩ := exists_encrypted_iff.mpr hsome
      exact he (hnone a ha)
    · rw [(lockedPoolInfo_eq_some.mp hl).2.2]
      exact listsDevices_lockedPoolDevices s
    · obtain ⟨b, hb, hbe⟩ := List.mem_filterMap.mp
        (List.mem_of_head? (lockedPoolInfo_eq_some.mp hl).1)
      exact hagree a ha b hb e locked.info he hbe

/-- What a device has to be like to go with those of the set. -/
def Accepts (s : DeviceSet) (info : DeviceInfo) : Prop :=
  s.conflicts info = false ∧
    ∀ a, s.internal.lookup info.stratisIdentifiers.deviceUuid = some a → a.Agrees info

/-- A set in which every entry has a LUKS2 device is such a set with one more device if the
device is a LUKS2 device or is under a UUID that is known. -/
theorem covered_add_iff (hcovered : s.Covered)
    (hlayers : ∀ v,
      t.logical v = (if v = info.stratisIdentifiers.deviceUuid then
        info.logical.or (s.logical v) else s.logical v) ∧
      t.physical v = (if v = info.stratisIdentifiers.deviceUuid then
        info.physical.or (s.physical v) else s.physical v)) :
    t.Covered ↔ info.physical ≠ none ∨
      s.internal.lookup info.stratisIdentifiers.deviceUuid ≠ none := by
  rw [covered_iff_layers]
  constructor
  · intro h
    by_contra hnew
    push Not at hnew
    have hphysical : s.physical info.stratisIdentifiers.deviceUuid = none := by
      simp [physical, hnew.2]
    have hlogical := h info.stratisIdentifiers.deviceUuid
      (by rw [(hlayers _).2, if_pos rfl, hnew.1, hphysical]; rfl)
    rw [(hlayers _).1, if_pos rfl, or_eq_none_iff] at hlogical
    cases info with
    | stratis i => exact absurd hlogical.1 (by simp [DeviceInfo.logical])
    | luks i => exact absurd hnew.1 (by simp [DeviceInfo.physical])
  · intro h v hv
    rw [(hlayers v).2] at hv
    rw [(hlayers v).1]
    split_ifs at hv ⊢ with hself
    · subst hself
      rw [or_eq_none_iff] at hv
      obtain ⟨a, ha⟩ := ne_none_iff_exists'.mp (h.resolve_left (not_not.mpr hv.1))
      exact absurd ((physical_of_lookup ha).symm.trans hv.2)
        (hcovered a (mem_values.mpr ⟨_, ha⟩))
    · exact covered_iff_layers.mp hcovered v hv

/-- A set that is reported is reported with one more device under the same condition, if the
device goes with the others. -/
theorem reported_processInfoAdd_iff {pool : PoolUuid} (hs : s.OfPool pool)
    (hpool : info.stratisIdentifiers.poolUuid = pool)
    (hreported : ∃ locked, s.lockedPoolInfo = some locked) :
    (∃ t, s.processInfoAdd info = .ok t ∧ ∃ locked, t.lockedPoolInfo = some locked) ↔
      s.Accepts info ∧ (info.physical ≠ none ∨
        s.internal.lookup info.stratisIdentifiers.deviceUuid ≠ none) := by
  obtain ⟨⟨v, hv⟩, hcovered⟩ := exists_lockedPoolInfo_iff.mp hreported
  by_cases haccepts : s.Accepts info
  · obtain ⟨t, ht, hlayers⟩ := processInfoAdd_of_agrees hs hpool haccepts.1 haccepts.2
    have hsome : ∃ v, t.physical v ≠ none := by
      refine ⟨v, ?_⟩
      rw [(hlayers v).2]
      split_ifs
      · simp [hv]
      · exact hv
    rw [and_iff_right haccepts, ← covered_add_iff hcovered hlayers]
    simp only [ht, Outcome.ok.injEq, exists_eq_left', exists_lockedPoolInfo_iff,
      and_iff_right hsome]
  · refine ⟨?_, fun h => absurd h.1 haccepts⟩
    rintro ⟨t, ht, -⟩
    have hnot : s.conflicts info = true ∨
        ∃ a, s.internal.lookup info.stratisIdentifiers.deviceUuid = some a ∧ ¬a.Agrees info := by
      by_contra hnone
      push Not at hnone
      exact haccepts ⟨by simpa using hnone.1, hnone.2⟩
    obtain ⟨bag, hbag⟩ := processInfoAdd_of_not_agrees hs hpool hnot
    exact nomatch ht.symm.trans hbag

end DeviceSet

namespace LiminalDevices

variable {pools : Table PoolUuid StratPool} {l : LiminalDevices} {s : DeviceSet}
  {info : DeviceInfo} {poolUuid : PoolUuid}

def Reported (l : LiminalDevices) (poolUuid : PoolUuid) : Prop :=
  ∃ locked, (poolUuid, locked) ∈ l.lockedPools

theorem reported_iff : l.Reported poolUuid ↔
    ∃ s, l.erroredPoolDevices.lookup poolUuid = some s ∧
      ∃ locked, s.lockedPoolInfo = some locked := by
  simp only [Reported, lockedPools, List.mem_filterMap, map_eq_some_iff]
  constructor
  · rintro ⟨locked, ⟨_, s⟩, he, _, hl, heq⟩
    cases heq
    exact ⟨s, mem_lookup_iff.mpr he, locked, hl⟩
  · rintro ⟨s, hs, locked, hl⟩
    exact ⟨locked, ⟨poolUuid, s⟩, mem_lookup_iff.mp hs, locked, hl, rfl⟩

theorem reported_insertErrored : (l.insertErrored poolUuid s).Reported poolUuid ↔
    ∃ locked, s.lockedPoolInfo = some locked := by
  simp [reported_iff, insertErrored]

theorem not_reported (h : l.erroredPoolDevices.lookup poolUuid = none) :
    ¬l.Reported poolUuid := by
  simp [reported_iff, h]

/-- A set is reported after an attempt to set the pool up if none is made, or if it fails and
leaves a chance. -/
theorem reported_trySetupPool_iff (overflowChecks : Bool) (env : SetupEnv)
    (hu : Unknown pools l poolUuid) :
    (trySetupPool overflowChecks env pools poolUuid s l).1.Reported poolUuid ↔
      (∃ locked, s.lockedPoolInfo = some locked) ∧ ∀ opened, s.asOpenedSet = some opened →
        setupPool overflowChecks env pools poolUuid opened = .err .errored := by
  unfold trySetupPool
  rw [if_neg (by simp [hu.1, hu.2.1, hu.2.2])]
  cases ho : s.asOpenedSet with
  | none => simp [reported_insertErrored]
  | some opened =>
    cases hp : setupPool overflowChecks env pools poolUuid opened with
    | ok p => simp [hp, not_reported hu.2.1]
    | err d =>
      cases d with
      | hopeless =>
        have hnot : ¬(l.insertHopeless poolUuid s.intoBag).Reported poolUuid :=
          not_reported hu.2.1
        simp [hp, hnot]
      | errored => simp [hp, reported_insertErrored]
    | panic => simp [hp, not_reported hu.2.1]

/-- What a device that is found does to a pool that is reported. -/
theorem reported_deviceAdded_iff (overflowChecks : Bool) (env : SetupEnv) (hapart : Apart pools l)
    (hs : l.erroredPoolDevices.lookup info.stratisIdentifiers.poolUuid = some s)
    (hpool : s.OfPool info.stratisIdentifiers.poolUuid)
    (hreported : l.Reported info.stratisIdentifiers.poolUuid) :
    (deviceAdded overflowChecks env pools info l).1.Reported info.stratisIdentifiers.poolUuid ↔
      (s.Accepts info ∧ (info.physical ≠ none ∨
        s.internal.lookup info.stratisIdentifiers.deviceUuid ≠ none)) ∧
      ∀ t, s.processInfoAdd info = .ok t → ∀ opened, t.asOpenedSet = some opened →
        setupPool overflowChecks env pools info.stratisIdentifiers.poolUuid opened =
          .err .errored := by
  have hdown := (hapart.errored_up info.stratisIdentifiers.poolUuid).resolve_left (by simp [hs])
  have hchance := (hapart.errored_hopeless info.stratisIdentifiers.poolUuid).resolve_left
    (by simp [hs])
  have hu := unknown_removeErrored hdown hchance
  obtain ⟨s', hs', hlocked⟩ := reported_iff.mp hreported
  obtain rfl : s' = s := some.inj (hs'.symm.trans hs)
  rw [← DeviceSet.reported_processInfoAdd_iff hpool rfl hlocked, deviceAdded, hdown]
  simp only [isSome_none, Bool.false_eq_true, if_false, hchance, hs, getD_some]
  cases hadd : s'.processInfoAdd info with
  | ok t =>
    simp only [setupDevices, bind_pure_apply, reported_trySetupPool_iff overflowChecks env hu,
      Outcome.ok.injEq, exists_eq_left', forall_eq']
  | err bag =>
    have hnot : ¬((l.removeErrored info.stratisIdentifiers.poolUuid).insertHopeless
        info.stratisIdentifiers.poolUuid bag).Reported info.stratisIdentifiers.poolUuid :=
      not_reported hu.2.1
    simp [hnot]
  | panic => simp [not_reported hu.2.1]

theorem lookup_deviceAdded_ne (overflowChecks : Bool) (env : SetupEnv) (l : LiminalDevices)
    (hne : poolUuid ≠ info.stratisIdentifiers.poolUuid) :
    (deviceAdded overflowChecks env pools info l).1.erroredPoolDevices.lookup poolUuid =
      l.erroredPoolDevices.lookup poolUuid := by
  have hrest : (l.removeErrored info.stratisIdentifiers.poolUuid).erroredPoolDevices.lookup
      poolUuid = l.erroredPoolDevices.lookup poolUuid := lookup_erase_ne hne
  have htry : ∀ (l : LiminalDevices) (t : DeviceSet),
      (trySetupPool overflowChecks env pools info.stratisIdentifiers.poolUuid t
        l).1.erroredPoolDevices.lookup poolUuid = l.erroredPoolDevices.lookup poolUuid := by
    intro l t
    unfold trySetupPool
    split_ifs
    · rfl
    · split
      · exact lookup_insert_ne hne
      · split
        · rfl
        · rfl
        · exact lookup_insert_ne hne
        · rfl
  unfold deviceAdded
  dsimp only
  split_ifs
  · rfl
  · split
    · rfl
    · split
      · rw [setupDevices, bind_pure_apply, htry, hrest]
      · exact hrest
      · exact hrest

/-- For a set of devices whose encryption infos agree, `locked_pool_info` is what is said of it
if and only if no entry has encryption info or there is a LUKS2 device for every entry. A pool
that is reported is still reported after a device has been found if and only if the device is of
another pool, or goes with the devices of the set, is a LUKS2 device or one under a UUID that is
known, and an attempt to set up the pool that is made with it fails and leaves a chance. -/
theorem locked_pools_reported_iff {s : DeviceSet} (hagree : s.Agreeing) :
    (s.Documented ↔ (∀ a ∈ s.values, a.encryptionInfo = none) ∨ s.Covered) ∧
      ∀ (overflowChecks : Bool) (env : SetupEnv) (pools : Table PoolUuid StratPool)
        (l : LiminalDevices) (poolUuid : PoolUuid) (info : DeviceInfo), Apart pools l →
        l.erroredPoolDevices.lookup poolUuid = some s → s.OfPool poolUuid → l.Reported poolUuid →
        ((deviceAdded overflowChecks env pools info l).1.Reported poolUuid ↔
          info.stratisIdentifiers.poolUuid ≠ poolUuid ∨
            (s.Accepts info ∧ (info.physical ≠ none ∨
              s.internal.lookup info.stratisIdentifiers.deviceUuid ≠ none)) ∧
            ∀ t, s.processInfoAdd info = .ok t → ∀ opened, t.asOpenedSet = some opened →
              setupPool overflowChecks env pools poolUuid opened = .err .errored) := by
  refine ⟨DeviceSet.documented_iff hagree, ?_⟩
  intro overflowChecks env pools l poolUuid info hapart hs hpool hreported
  by_cases hself : info.stratisIdentifiers.poolUuid = poolUuid
  · subst hself
    rw [reported_deviceAdded_iff overflowChecks env hapart hs hpool hreported]
    simp
  · rw [reported_iff, lookup_deviceAdded_ne overflowChecks env l (Ne.symm hself), ← reported_iff]
    exact iff_of_true hreported (Or.inl hself)

section

def lockedDevice (uuid : DevUuid) (devnode : String) : DeviceInfo :=
  .luks ⟨⟨⟨⟨1⟩, uuid⟩, ⟨8, 16⟩, devnode⟩, ⟨some "key", none⟩⟩

def secondOpened (uuid : DevUuid) : DeviceInfo := .stratis ⟨⟨⟨1⟩, uuid⟩, ⟨253, 3⟩, "/dev/dm-3"⟩

/-- One closed LUKS2 device is known of the pool. -/
def oneLocked : DeviceSet :=
  ⟨(∅ : AList fun _ : DevUuid => LInfo).insert ⟨7⟩ (.ofDeviceInfo (lockedDevice ⟨7⟩ "/dev/sdb"))⟩

def oneLockedPool : LiminalDevices := default.insertErrored ⟨1⟩ oneLocked

theorem lookup_oneLocked {v : DevUuid} {a : LInfo} (h : oneLocked.internal.lookup v = some a) :
    v = ⟨7⟩ ∧ a = .ofDeviceInfo (lockedDevice ⟨7⟩ "/dev/sdb") := by
  by_cases hv : v = ⟨7⟩
  · subst hv
    exact ⟨rfl, some.inj (h.symm.trans (lookup_insert _))⟩
  · rw [oneLocked, lookup_insert_ne hv] at h
    exact absurd h (by simp)

theorem agreeing_oneLocked : oneLocked.Agreeing := by
  intro a ha b hb e e' he he'
  obtain ⟨v, hv⟩ := DeviceSet.mem_values.mp ha
  obtain ⟨w, hw⟩ := DeviceSet.mem_values.mp hb
  rw [(lookup_oneLocked hv).2] at he
  rw [(lookup_oneLocked hw).2] at he'
  exact some.inj (he.symm.trans he')

/-- A second LUKS2 device is found. -/
theorem locked_pools_reported_two :
    oneLocked.Documented ∧
      (deviceAdded true unreadable Table.default (lockedDevice ⟨9⟩ "/dev/sdc")
        oneLockedPool).1.Reported ⟨1⟩ := by
  have hlookup : oneLockedPool.erroredPoolDevices.lookup ⟨1⟩ = some oneLocked :=
    AList.lookup_insert _
  have hapart : Apart Table.default oneLockedPool :=
    ⟨fun _ => .inr rfl, fun _ => .inr rfl, fun _ => .inr rfl⟩
  have hpool : oneLocked.OfPool ⟨1⟩ := by
    intro v a h
    obtain ⟨rfl, rfl⟩ := lookup_oneLocked h
    exact ⟨nofun, fun _ hj => Option.some.inj hj ▸ rfl⟩
  have hcovered : oneLocked.Covered := by
    intro a ha
    obtain ⟨v, hv⟩ := DeviceSet.mem_values.mp ha
    rw [(lookup_oneLocked hv).2]
    nofun
  have hreported : oneLockedPool.Reported ⟨1⟩ := reported_iff.mpr
    ⟨oneLocked, hlookup, ⟨⟨some "key", none⟩, [⟨"/dev/sdb", ⟨7⟩⟩]⟩, by decide +kernel⟩
  have haccepts : oneLocked.Accepts (lockedDevice ⟨9⟩ "/dev/sdc") :=
    ⟨by decide +kernel, fun a h => absurd (lookup_oneLocked h).1 (by decide)⟩
  have herrored : ∀ opened, setupPool true unreadable Table.default ⟨1⟩ opened = .err .errored := by
    intro opened
    cases opened with
    | nil => rfl
    | cons p ps => rfl
  obtain ⟨hdocumented, hadded⟩ := locked_pools_reported_iff agreeing_oneLocked
  refine ⟨hdocumented.mpr (Or.inr hcovered), ?_⟩
  exact (hadded true unreadable Table.default oneLockedPool ⟨1⟩ (lockedDevice ⟨9⟩ "/dev/sdc")
    hapart hlookup hpool hreported).mpr
      (Or.inr ⟨⟨haccepts, Or.inl nofun⟩, fun _ _ opened _ => herrored opened⟩)

/-- The Stratis device of a second device of the pool is found before its LUKS2 device. The pool
is no longer reported. -/
theorem locked_pool_disappears :
    oneLockedPool.lockedPools ≠ [] ∧
      (deviceAdded true unreadable Table.default (secondOpened ⟨9⟩) oneLockedPool).1.lockedPools =
        [] := by
  decide +kernel

end

end LiminalDevices

end Stratisd.Liminal
