import Stratisd.Liminal.DeviceInfo

/-! What a set of devices knows after some devices have been added to it. An entry has two
layers, the Stratis device and the LUKS2 device under it, and every operation is described by
what it does to each layer. The order in which devices are found then does not matter: they
all fit together, or they do not. -/

namespace Stratisd.Liminal

open Run Engine Metadata List AList

/-! ### The layers of an entry -/

namespace DeviceInfo

def logical : DeviceInfo → Option StratisInfo
  | .stratis info => some info
  | .luks _ => none

def physical : DeviceInfo → Option LLuksInfo
  | .stratis _ => none
  | .luks info => some (.ofLuksInfo info)

end DeviceInfo

namespace LInfo

def logical : LInfo → Option StratisInfo
  | .stratis info => some info.ids
  | .luks _ => none

def physical : LInfo → Option LLuksInfo
  | .stratis info => info.luks
  | .luks info => some info

theorem eq_of_layers {a b : LInfo} (hl : a.logical = b.logical) (hp : a.physical = b.physical) :
    a = b := by
  cases a with
  | stratis a =>
    cases b with
    | stratis b =>
      cases a; cases b
      simp_all [logical, physical]
    | luks b => simp [logical] at hl
  | luks a =>
    cases b with
    | stratis b => simp [logical] at hl
    | luks b => simpa [physical] using hp

theorem physical_ne_none {a : LInfo} (hl : a.logical = none) : a.physical ≠ none := by
  cases a with
  | stratis a => simp [logical] at hl
  | luks a => simp [physical]

theorem encryptionInfo_eq (a : LInfo) :
    a.encryptionInfo = a.physical.map (·.encryptionInfo) := by
  cases a <;> rfl

@[simp] theorem logical_ofDeviceInfo (info : DeviceInfo) :
    (ofDeviceInfo info).logical = info.logical := by
  cases info <;> rfl

@[simp] theorem physical_ofDeviceInfo (info : DeviceInfo) :
    (ofDeviceInfo info).physical = info.physical := by
  cases info <;> rfl

/-- What is known about each layer agrees with the newer information about it. -/
structure Agrees (a : LInfo) (info : DeviceInfo) : Prop where
  logical : ∀ i j, info.logical = some i → a.logical = some j →
    j.deviceNumber = i.deviceNumber
  physical : ∀ i j, info.physical = some i → a.physical = some j →
    j.ids.deviceNumber = i.ids.deviceNumber ∧ j.encryptionInfo = i.encryptionInfo

/-- Every layer of the entry belongs to the device. -/
structure SameIds (a : LInfo) (ids : StratisIdentifiers) : Prop where
  logical : ∀ j, a.logical = some j → j.identifiers = ids
  physical : ∀ j, a.physical = some j → j.ids.identifiers = ids

theorem update_of_agrees {a : LInfo} {info : DeviceInfo} (hi : a.SameIds info.stratisIdentifiers)
    (h : a.Agrees info) :
    ∃ b, a.update info = .ok b ∧ b.logical = info.logical.or a.logical ∧
      b.physical = info.physical.or a.physical := by
  cases a with
  | stratis a =>
    cases info with
    | stratis i =>
      have hids : a.ids.identifiers = i.identifiers := hi.logical _ rfl
      have hnum : a.ids.deviceNumber = i.deviceNumber := h.logical _ _ rfl rfl
      exact ⟨.stratis ⟨i, a.luks⟩, by simp [update, stratisStratisCompatible, hids, hnum],
        rfl, rfl⟩
    | luks i =>
      refine ⟨.stratis ⟨a.ids, some (.ofLuksInfo i)⟩, ?_, rfl, rfl⟩
      cases hl : a.luks with
      | none => simp [update, luksAllows, hl]
      | some j =>
        have hids : j.ids.identifiers = i.info.identifiers := hi.physical j hl
        obtain ⟨hnum, henc⟩ := h.physical (.ofLuksInfo i) j rfl hl
        change j.ids.deviceNumber = i.info.deviceNumber at hnum
        change j.encryptionInfo = i.encryptionInfo at henc
        simp [update, luksAllows, luksLuksCompatible, hl, hids, hnum, henc]
  | luks a =>
    cases info with
    | stratis i => exact ⟨.stratis ⟨i, some a⟩, rfl, rfl, rfl⟩
    | luks i =>
      have hids : a.ids.identifiers = i.info.identifiers := hi.physical a rfl
      obtain ⟨hnum, henc⟩ := h.physical (.ofLuksInfo i) a rfl rfl
      change a.ids.deviceNumber = i.info.deviceNumber at hnum
      change a.encryptionInfo = i.encryptionInfo at henc
      exact ⟨.luks (.ofLuksInfo i), by simp [update, luksLuksCompatible, hids, hnum, henc],
        rfl, rfl⟩

theorem update_of_not_agrees {a : LInfo} {info : DeviceInfo}
    (hi : a.SameIds info.stratisIdentifiers) (h : ¬ a.Agrees info) : a.update info = .err () := by
  -- an entry that has no layer of the kind that is added always agrees
  cases a with
  | stratis a =>
    cases info with
    | stratis i =>
      have hids : a.ids.identifiers = i.identifiers := hi.logical _ rfl
      have hnum : a.ids.deviceNumber ≠ i.deviceNumber := fun hnum =>
        h ⟨by simpa [DeviceInfo.logical, logical] using hnum, by simp [DeviceInfo.physical]⟩
      simp [update, stratisStratisCompatible, hids, hnum]
    | luks i =>
      cases hl : a.luks with
      | none =>
        exact absurd ⟨by simp [DeviceInfo.logical], by simp [physical, hl]⟩ h
      | some j =>
        have hids : j.ids.identifiers = i.info.identifiers := hi.physical j hl
        have hne : ¬ (j.ids.deviceNumber = i.info.deviceNumber ∧
            j.encryptionInfo = i.encryptionInfo) := fun hne =>
          h ⟨by simp [DeviceInfo.logical], by
            simpa [DeviceInfo.physical, physical, hl, LLuksInfo.ofLuksInfo] using hne⟩
        simp [update, luksAllows, luksLuksCompatible, hl, hids, hne]
  | luks a =>
    cases info with
    | stratis i =>
      exact absurd ⟨by simp [logical], by simp [DeviceInfo.physical]⟩ h
    | luks i =>
      have hids : a.ids.identifiers = i.info.identifiers := hi.physical a rfl
      have hne : ¬ (a.ids.deviceNumber = i.info.deviceNumber ∧
          a.encryptionInfo = i.encryptionInfo) := fun hne =>
        h ⟨by simp [DeviceInfo.logical], by
          simpa [DeviceInfo.physical, physical, LLuksInfo.ofLuksInfo] using hne⟩
      simp [update, luksLuksCompatible, hids, hne]

end LInfo

/-! ### The layers of a set -/

namespace DeviceSet

/-- The Stratis device that is known under a UUID. -/
def logical (s : DeviceSet) (uuid : DevUuid) : Option StratisInfo :=
  (s.internal.lookup uuid).bind LInfo.logical

/-- The LUKS2 device that is known under a UUID. -/
def physical (s : DeviceSet) (uuid : DevUuid) : Option LLuksInfo :=
  (s.internal.lookup uuid).bind LInfo.physical

@[simp] theorem logical_new (uuid : DevUuid) : new.logical uuid = none := rfl
@[simp] theorem physical_new (uuid : DevUuid) : new.physical uuid = none := rfl

variable {uuid : DevUuid}

theorem logical_of_lookup {s : DeviceSet} {a : LInfo} (h : s.internal.lookup uuid = some a) :
    s.logical uuid = a.logical := by
  simp [logical, h]

theorem physical_of_lookup {s : DeviceSet} {a : LInfo} (h : s.internal.lookup uuid = some a) :
    s.physical uuid = a.physical := by
  simp [physical, h]

theorem mem_values {s : DeviceSet} {a : LInfo} :
    a ∈ s.values ↔ ∃ uuid, s.internal.lookup uuid = some a := by
  simp only [values, mem_map]
  constructor
  · rintro ⟨e, he, rfl⟩
    exact ⟨e.1, mem_lookup_iff.mpr he⟩
  · rintro ⟨uuid, h⟩
    exact ⟨⟨uuid, a⟩, mem_lookup_iff.mp h, rfl⟩

theorem lookup_eq_of_layers {s t : DeviceSet} (hl : s.logical uuid = t.logical uuid)
    (hp : s.physical uuid = t.physical uuid) :
    s.internal.lookup uuid = t.internal.lookup uuid := by
  unfold logical at hl
  unfold physical at hp
  cases hs : s.internal.lookup uuid with
  | none =>
    cases ht : t.internal.lookup uuid with
    | none => rfl
    | some b =>
      rw [hs, ht] at hl hp
      exact absurd hp.symm (LInfo.physical_ne_none hl.symm)
  | some a =>
    cases ht : t.internal.lookup uuid with
    | none =>
      rw [hs, ht] at hl hp
      exact absurd hp (LInfo.physical_ne_none hl)
    | some b =>
      rw [hs, ht] at hl hp
      exact congrArg some (LInfo.eq_of_layers hl hp)

theorem perm_of_layers {s t : DeviceSet} (hl : ∀ uuid, s.logical uuid = t.logical uuid)
    (hp : ∀ uuid, s.physical uuid = t.physical uuid) :
    s.internal.entries.Perm t.internal.entries := by
  refine lookup_ext s.internal.nodupKeys t.internal.nodupKeys fun uuid a => ?_
  exact (lookup_eq_of_layers (hl uuid) (hp uuid) ▸ Iff.rfl :
    a ∈ s.internal.lookup uuid ↔ a ∈ t.internal.lookup uuid)

theorem mem_encryptionInfos {s : DeviceSet} {e : EncryptionInfo} :
    e ∈ s.values.filterMap LInfo.encryptionInfo ↔
      ∃ uuid j, s.physical uuid = some j ∧ j.encryptionInfo = e := by
  simp only [mem_filterMap, mem_values, physical, Option.bind_eq_some_iff]
  constructor
  · rintro ⟨a, ⟨uuid, ha⟩, he⟩
    rw [LInfo.encryptionInfo_eq, Option.map_eq_some_iff] at he
    obtain ⟨j, hj, rfl⟩ := he
    exact ⟨uuid, j, ⟨a, ha, hj⟩, rfl⟩
  · rintro ⟨uuid, j, ⟨a, ha, hj⟩, rfl⟩
    exact ⟨a, ⟨uuid, ha⟩, by rw [LInfo.encryptionInfo_eq, hj]; rfl⟩

theorem exists_of_encryptionInfo {s : DeviceSet} {e : EncryptionInfo}
    (h : s.encryptionInfo = some e) : ∃ uuid j, s.physical uuid = some j ∧ j.encryptionInfo = e :=
  mem_encryptionInfos.mp (mem_of_head? h)

theorem exists_encryptionInfo {s : DeviceSet} {j : LLuksInfo} (h : s.physical uuid = some j) :
    ∃ e, s.encryptionInfo = some e := by
  have hm : j.encryptionInfo ∈ s.values.filterMap LInfo.encryptionInfo :=
    mem_encryptionInfos.mpr ⟨uuid, j, h, rfl⟩
  exact ⟨_, List.head?_eq_some_head (ne_nil_of_mem hm)⟩

theorem conflicts_iff {s : DeviceSet} {info : DeviceInfo} :
    s.conflicts info = true ↔
      ∃ i e, info.physical = some i ∧ s.encryptionInfo = some e ∧ e ≠ i.encryptionInfo := by
  cases info with
  | stratis i => simp [conflicts, DeviceInfo.encryptionInfo, DeviceInfo.physical]
  | luks i =>
    cases he : s.encryptionInfo <;>
      simp [conflicts, DeviceInfo.encryptionInfo, DeviceInfo.physical, he, LLuksInfo.ofLuksInfo]

/-! ### One device is added -/

/-- Every entry has the identifiers of the pool and of its key. -/
def OfPool (s : DeviceSet) (pool : PoolUuid) : Prop :=
  ∀ uuid a, s.internal.lookup uuid = some a → a.SameIds ⟨pool, uuid⟩

section Add

variable {s : DeviceSet} {info : DeviceInfo}

theorem layers_insert (internal : AList fun _ : DevUuid => LInfo) (uuid : DevUuid) (a : LInfo)
    (v : DevUuid) :
    (mk (internal.insert uuid a)).logical v =
        (if v = uuid then a.logical else (mk internal).logical v) ∧
      (mk (internal.insert uuid a)).physical v =
        (if v = uuid then a.physical else (mk internal).physical v) := by
  unfold logical physical
  split_ifs with h
  · subst h
    simp [lookup_insert]
  · simp [lookup_insert_ne h]

theorem layers_erase (internal : AList fun _ : DevUuid => LInfo) (uuid v : DevUuid) :
    (mk (internal.erase uuid)).logical v =
        (if v = uuid then none else (mk internal).logical v) ∧
      (mk (internal.erase uuid)).physical v =
        (if v = uuid then none else (mk internal).physical v) := by
  unfold logical physical
  split_ifs with h
  · subst h
    simp [lookup_erase]
  · simp [lookup_erase_ne h]

/-- A device that goes with the others becomes the layer of its kind under its UUID. -/
theorem processInfoAdd_of_agrees {pool : PoolUuid} (hs : s.OfPool pool)
    (hpool : info.stratisIdentifiers.poolUuid = pool) (hc : s.conflicts info = false)
    (h : ∀ a, s.internal.lookup info.stratisIdentifiers.deviceUuid = some a → a.Agrees info) :
    ∃ t, s.processInfoAdd info = .ok t ∧ ∀ v,
      t.logical v = (if v = info.stratisIdentifiers.deviceUuid then
        info.logical.or (s.logical v) else s.logical v) ∧
      t.physical v = (if v = info.stratisIdentifiers.deviceUuid then
        info.physical.or (s.physical v) else s.physical v) := by
  subst hpool
  unfold processInfoAdd
  rw [if_neg (by simp [hc])]
  cases hl : s.internal.lookup info.stratisIdentifiers.deviceUuid with
  | none =>
    refine ⟨_, rfl, fun v => ?_⟩
    rw [(layers_insert _ _ _ v).1, (layers_insert _ _ _ v).2]
    split_ifs with hv
    · subst hv
      simp [logical, physical, hl]
    · exact ⟨rfl, rfl⟩
  | some a =>
    obtain ⟨b, hb, hbl, hbp⟩ := LInfo.update_of_agrees (hs _ a hl) (h a hl)
    simp only [hb]
    refine ⟨_, rfl, fun v => ?_⟩
    rw [(layers_insert _ _ _ v).1, (layers_insert _ _ _ v).2, (layers_erase _ _ v).1,
      (layers_erase _ _ v).2]
    split_ifs with hv
    · subst hv
      simp [logical, physical, hl, hbl, hbp]
    · exact ⟨rfl, rfl⟩

theorem processInfoAdd_of_not_agrees {pool : PoolUuid} (hs : s.OfPool pool)
    (hpool : info.stratisIdentifiers.poolUuid = pool)
    (h : s.conflicts info = true ∨
      ∃ a, s.internal.lookup info.stratisIdentifiers.deviceUuid = some a ∧ ¬ a.Agrees info) :
    ∃ bag, s.processInfoAdd info = .err bag := by
  subst hpool
  unfold processInfoAdd
  by_cases hc : s.conflicts info = true
  · rw [if_pos hc]
    exact ⟨_, rfl⟩
  · rw [if_neg hc]
    obtain ⟨a, ha, hna⟩ := h.resolve_left hc
    simp only [ha, LInfo.update_of_not_agrees (hs _ a ha) hna]
    exact ⟨_, rfl⟩

end Add

/-! ### One device is removed -/

theorem lookup_remove_self (s : DeviceSet) (info : DeviceInfo) :
    (s.processInfoRemove info).internal.lookup info.stratisIdentifiers.deviceUuid =
      (s.internal.lookup info.stratisIdentifiers.deviceUuid).bind
        fun a => a.updateOnRemove info := by
  unfold processInfoRemove
  cases h : (s.internal.lookup info.stratisIdentifiers.deviceUuid).bind
      fun a => a.updateOnRemove info with
  | none => simp [h, lookup_erase]
  | some a => simp [h, lookup_insert]

theorem lookup_remove_ne (s : DeviceSet) (info : DeviceInfo) {v : DevUuid}
    (hv : v ≠ info.stratisIdentifiers.deviceUuid) :
    (s.processInfoRemove info).internal.lookup v = s.internal.lookup v := by
  unfold processInfoRemove
  cases h : (s.internal.lookup info.stratisIdentifiers.deviceUuid).bind
      fun a => a.updateOnRemove info with
  | none => simp [h, lookup_erase_ne hv]
  | some a => simp [h, lookup_insert_ne hv, lookup_erase_ne hv]

/-- Removing a Stratis device takes away the upper layer if the device number is the same. -/
theorem layers_remove_stratis (s : DeviceSet) (i : StratisInfo) (v : DevUuid) :
    (s.processInfoRemove (.stratis i)).logical v =
        (if v = i.identifiers.deviceUuid ∧
            (s.logical v).map (·.deviceNumber) = some i.deviceNumber then none
          else s.logical v) ∧
      (s.processInfoRemove (.stratis i)).physical v = s.physical v := by
  by_cases hv : v = i.identifiers.deviceUuid
  · have h := lookup_remove_self s (.stratis i)
    rw [show (DeviceInfo.stratis i).stratisIdentifiers.deviceUuid = v from hv.symm] at h
    unfold logical physical
    rw [h]
    cases ha : s.internal.lookup v with
    | none => simp
    | some a =>
      cases a with
      | luks a => simp [LInfo.updateOnRemove, LInfo.logical, LInfo.physical]
      | stratis a =>
        by_cases hnum : a.ids.deviceNumber = i.deviceNumber
        · cases hl : a.luks <;>
            simp [LInfo.updateOnRemove, LInfo.logical, LInfo.physical, hnum, hv, hl]
        · simp [LInfo.updateOnRemove, LInfo.logical, LInfo.physical, hnum]
  · have h := lookup_remove_ne s (.stratis i) hv
    simp [logical, physical, h, hv]

/-- Removing a LUKS2 device takes away the lower layer if there is no upper one and the device
number is the same. -/
theorem layers_remove_luks (s : DeviceSet) (i : LuksInfo) (v : DevUuid) :
    (s.processInfoRemove (.luks i)).logical v = s.logical v ∧
      (s.processInfoRemove (.luks i)).physical v =
        (if v = i.info.identifiers.deviceUuid ∧ s.logical v = none ∧
            (s.physical v).map (·.ids.deviceNumber) = some i.info.deviceNumber then none
          else s.physical v) := by
  by_cases hv : v = i.info.identifiers.deviceUuid
  · have h := lookup_remove_self s (.luks i)
    rw [show (DeviceInfo.luks i).stratisIdentifiers.deviceUuid = v from hv.symm] at h
    unfold logical physical
    rw [h]
    cases ha : s.internal.lookup v with
    | none => simp
    | some a =>
      cases a with
      | stratis a => simp [LInfo.updateOnRemove, LInfo.logical, LInfo.physical]
      | luks a =>
        by_cases hnum : a.ids.deviceNumber = i.info.deviceNumber
        · simp [LInfo.updateOnRemove, LInfo.logical, LInfo.physical, hnum, hv]
        · simp [LInfo.updateOnRemove, LInfo.logical, LInfo.physical, hnum]
  · have h := lookup_remove_ne s (.luks i) hv
    simp [logical, physical, h, hv]

/-! ### Many devices are added -/

/-- What is known about the two devices cannot both be right. -/
def Conflict : DeviceInfo → DeviceInfo → Prop
  | .luks a, .luks b =>
    a.encryptionInfo ≠ b.encryptionInfo ∨
      a.info.identifiers.deviceUuid = b.info.identifiers.deviceUuid ∧
        a.info.deviceNumber ≠ b.info.deviceNumber
  | .stratis a, .stratis b =>
    a.identifiers.deviceUuid = b.identifiers.deviceUuid ∧ a.deviceNumber ≠ b.deviceNumber
  | _, _ => False

instance : DecidableRel Conflict
  | .luks _, .luks _ => inferInstanceAs (Decidable (_ ∨ _))
  | .stratis _, .stratis _ => inferInstanceAs (Decidable (_ ∧ _))
  | .luks _, .stratis _ => inferInstanceAs (Decidable False)
  | .stratis _, .luks _ => inferInstanceAs (Decidable False)

def Conflicting (infos : List DeviceInfo) : Prop :=
  ∃ a ∈ infos, ∃ b ∈ infos, Conflict a b

instance (infos : List DeviceInfo) : Decidable (Conflicting infos) :=
  inferInstanceAs (Decidable (∃ a ∈ infos, ∃ b ∈ infos, Conflict a b))

theorem Conflict.symm {a b : DeviceInfo} (h : Conflict a b) : Conflict b a := by
  cases a <;> cases b
  case luks.luks a b =>
    rcases h with h | ⟨h₁, h₂⟩
    · exact .inl h.symm
    · exact .inr ⟨h₁.symm, h₂.symm⟩
  case stratis.stratis a b => exact ⟨h.1.symm, h.2.symm⟩
  all_goals exact h

theorem not_conflict_self (a : DeviceInfo) : ¬ Conflict a a := by
  cases a <;> simp [Conflict]

variable {infos : List DeviceInfo}

theorem conflicting_of_subset {infos' : List DeviceInfo} (h : infos ⊆ infos') :
    Conflicting infos → Conflicting infos' := by
  rintro ⟨a, ha, b, hb, hc⟩
  exact ⟨a, h ha, b, h hb, hc⟩

theorem conflicting_cons {info : DeviceInfo} :
    Conflicting (info :: infos) ↔ (∃ a ∈ infos, Conflict a info) ∨ Conflicting infos := by
  constructor
  · rintro ⟨a, ha, b, hb, hc⟩
    rcases mem_cons.mp ha with rfl | ha'
    · rcases mem_cons.mp hb with rfl | hb'
      · exact absurd hc (not_conflict_self _)
      · exact .inl ⟨b, hb', hc.symm⟩
    · rcases mem_cons.mp hb with rfl | hb'
      · exact .inl ⟨a, ha', hc⟩
      · exact .inr ⟨a, ha', b, hb', hc⟩
  · rintro (⟨a, ha, hc⟩ | h)
    · exact ⟨a, mem_cons_of_mem _ ha, info, mem_cons_self, hc⟩
    · exact conflicting_of_subset (subset_cons_self _ _) h

/-- The identified device that a LUKS2 layer comes from. -/
def ofPhysical (i : LLuksInfo) : DeviceInfo := .luks ⟨i.ids, i.encryptionInfo⟩

/-- The layers of the set are devices that have been seen, and each of these has left one. -/
structure Gathers (s : DeviceSet) (seen : List DeviceInfo) : Prop where
  logical_mem : ∀ v i, s.logical v = some i →
    .stratis i ∈ seen ∧ i.identifiers.deviceUuid = v
  physical_mem : ∀ v i, s.physical v = some i →
    ofPhysical i ∈ seen ∧ i.ids.identifiers.deviceUuid = v
  logical_some : ∀ i, .stratis i ∈ seen → ∃ j, s.logical i.identifiers.deviceUuid = some j
  physical_some : ∀ i, ofPhysical i ∈ seen → ∃ j, s.physical i.ids.identifiers.deviceUuid = some j

theorem Gathers.of_mem_iff {s : DeviceSet} {seen seen' : List DeviceInfo} (hg : s.Gathers seen)
    (h : ∀ i, i ∈ seen ↔ i ∈ seen') : s.Gathers seen' where
  logical_mem v i hi := ⟨(h _).mp (hg.logical_mem v i hi).1, (hg.logical_mem v i hi).2⟩
  physical_mem v i hi := ⟨(h _).mp (hg.physical_mem v i hi).1, (hg.physical_mem v i hi).2⟩
  logical_some i hi := hg.logical_some i ((h _).mpr hi)
  physical_some i hi := hg.physical_some i ((h _).mpr hi)

theorem gathers_new : Gathers new [] where
  logical_mem := by simp
  physical_mem := by simp
  logical_some := by simp
  physical_some := by simp

namespace Gathers

variable {s : DeviceSet} {seen : List DeviceInfo} {pool : PoolUuid} {info : DeviceInfo}

theorem ofPool (hg : s.Gathers seen) (hp : ∀ i ∈ seen, i.stratisIdentifiers.poolUuid = pool) :
    s.OfPool pool := by
  intro uuid a ha
  constructor
  · intro j hj
    obtain ⟨hm, hu⟩ := hg.logical_mem uuid j ((logical_of_lookup ha).trans hj)
    have := hp _ hm
    cases hids : j.identifiers
    simp_all [DeviceInfo.stratisIdentifiers]
  · intro j hj
    obtain ⟨hm, hu⟩ := hg.physical_mem uuid j ((physical_of_lookup ha).trans hj)
    have := hp _ hm
    cases hids : j.ids.identifiers
    simp_all [DeviceInfo.stratisIdentifiers, ofPhysical]

theorem conflicts_eq_false (hg : s.Gathers seen) (hc : ∀ a ∈ seen, ¬ Conflict a info) :
    s.conflicts info = false := by
  rw [← Bool.not_eq_true, conflicts_iff]
  rintro ⟨i, e, hi, he, hne⟩
  obtain ⟨v, j, hj, rfl⟩ := exists_of_encryptionInfo he
  cases info with
  | stratis k => simp [DeviceInfo.physical] at hi
  | luks k =>
    obtain rfl : LLuksInfo.ofLuksInfo k = i := by simpa [DeviceInfo.physical] using hi
    exact hc _ (hg.physical_mem v j hj).1 (.inl hne)

theorem agrees (hg : s.Gathers seen) (hc : ∀ a ∈ seen, ¬ Conflict a info) {a : LInfo}
    (ha : s.internal.lookup info.stratisIdentifiers.deviceUuid = some a) : a.Agrees info := by
  cases info with
  | stratis k =>
    refine ⟨?_, by simp [DeviceInfo.physical]⟩
    intro i j hi hj
    obtain rfl : k = i := by simpa [DeviceInfo.logical] using hi
    obtain ⟨hm, hu⟩ := hg.logical_mem _ j ((logical_of_lookup ha).trans hj)
    by_contra hne
    exact hc _ hm ⟨hu, hne⟩
  | luks k =>
    refine ⟨by simp [DeviceInfo.logical], ?_⟩
    intro i j hi hj
    obtain rfl : LLuksInfo.ofLuksInfo k = i := by simpa [DeviceInfo.physical] using hi
    obtain ⟨hm, hu⟩ := hg.physical_mem _ j ((physical_of_lookup ha).trans hj)
    constructor
    · by_contra hne
      exact hc _ hm (.inr ⟨hu, hne⟩)
    · by_contra hne
      exact hc _ hm (.inl hne)

theorem layer_logical {t : DeviceSet} {k : StratisInfo} (hg : s.Gathers seen)
    (hl : ∀ v, t.logical v = if v = k.identifiers.deviceUuid then some k else s.logical v)
    (hp : ∀ v, t.physical v = s.physical v) : t.Gathers (.stratis k :: seen) where
  logical_mem := by
    intro v i hi
    rw [hl v] at hi
    split_ifs at hi with hv
    · cases hi
      exact ⟨mem_cons_self, hv.symm⟩
    · exact ⟨mem_cons_of_mem _ (hg.logical_mem v i hi).1, (hg.logical_mem v i hi).2⟩
  physical_mem := by
    intro v i hi
    obtain ⟨hm, hu⟩ := hg.physical_mem v i (hp v ▸ hi)
    exact ⟨mem_cons_of_mem _ hm, hu⟩
  logical_some := by
    intro i hi
    rw [hl]
    split_ifs with hv
    · exact ⟨k, rfl⟩
    · rcases mem_cons.mp hi with he | hi
      · cases he
        exact absurd rfl hv
      · exact hg.logical_some i hi
  physical_some := by
    intro i hi
    rw [hp]
    exact hg.physical_some i ((mem_cons.mp hi).resolve_left (by simp [ofPhysical]))

theorem layer_physical {t : DeviceSet} {k : LuksInfo} (hg : s.Gathers seen)
    (hl : ∀ v, t.logical v = s.logical v)
    (hp : ∀ v, t.physical v = if v = k.info.identifiers.deviceUuid then
      some (.ofLuksInfo k) else s.physical v) : t.Gathers (.luks k :: seen) where
  logical_mem := by
    intro v i hi
    obtain ⟨hm, hu⟩ := hg.logical_mem v i (hl v ▸ hi)
    exact ⟨mem_cons_of_mem _ hm, hu⟩
  physical_mem := by
    intro v i hi
    rw [hp v] at hi
    split_ifs at hi with hv
    · cases hi
      exact ⟨mem_cons_self, hv.symm⟩
    · exact ⟨mem_cons_of_mem _ (hg.physical_mem v i hi).1, (hg.physical_mem v i hi).2⟩
  logical_some := by
    intro i hi
    rw [hl]
    exact hg.logical_some i ((mem_cons.mp hi).resolve_left (by simp))
  physical_some := by
    intro i hi
    rw [hp]
    split_ifs with hv
    · exact ⟨_, rfl⟩
    · rcases mem_cons.mp hi with he | hi
      · cases he
        exact absurd rfl hv
      · exact hg.physical_some i hi

theorem add (hg : s.Gathers seen) (hp : ∀ i ∈ info :: seen, i.stratisIdentifiers.poolUuid = pool)
    (hc : ∀ a ∈ seen, ¬ Conflict a info) :
    ∃ t, s.processInfoAdd info = .ok t ∧ t.Gathers (info :: seen) := by
  have hs := hg.ofPool fun i hi => hp i (mem_cons_of_mem _ hi)
  obtain ⟨t, ht, hlayers⟩ := processInfoAdd_of_agrees hs (hp info mem_cons_self)
    (hg.conflicts_eq_false hc) fun a ha => hg.agrees hc ha
  refine ⟨t, ht, ?_⟩
  cases info with
  | stratis k =>
    have hl : ∀ v, t.logical v = if v = k.identifiers.deviceUuid then some k else s.logical v :=
      fun v => (hlayers v).1
    have hph : ∀ v, t.physical v = s.physical v :=
      fun v => by simpa [DeviceInfo.physical] using (hlayers v).2
    exact hg.layer_logical hl hph
  | luks k =>
    have hl : ∀ v, t.logical v = s.logical v :=
      fun v => by simpa [DeviceInfo.logical] using (hlayers v).1
    have hph : ∀ v, t.physical v = if v = k.info.identifiers.deviceUuid then
        some (.ofLuksInfo k) else s.physical v :=
      fun v => (hlayers v).2
    exact hg.layer_physical hl hph

theorem add_conflict (hg : s.Gathers seen)
    (hp : ∀ i ∈ info :: seen, i.stratisIdentifiers.poolUuid = pool) (hn : ¬ Conflicting seen)
    (hc : ∃ a ∈ seen, Conflict a info) : ∃ bag, s.processInfoAdd info = .err bag := by
  have hs := hg.ofPool fun i hi => hp i (mem_cons_of_mem _ hi)
  refine processInfoAdd_of_not_agrees hs (hp info mem_cons_self) ?_
  obtain ⟨a, ha, hc⟩ := hc
  -- the layer that the set has of this kind is `a` or agrees with it
  have agreed : ∀ b ∈ seen, ¬ Conflict b a := fun b hb h => hn ⟨b, hb, a, ha, h⟩
  cases a with
  | stratis a =>
    cases info with
    | luks k => exact absurd hc id
    | stratis k =>
      obtain ⟨j, hj⟩ := hg.logical_some a ha
      obtain ⟨hm, hu⟩ := hg.logical_mem _ j hj
      have hnum : j.deviceNumber = a.deviceNumber := by
        by_contra hne
        exact agreed _ hm ⟨hu, hne⟩
      rw [hc.1] at hj
      obtain ⟨b, hb, hbj⟩ := Option.bind_eq_some_iff.mp hj
      refine .inr ⟨b, hb, fun hag => hc.2 ?_⟩
      rw [← hnum]
      exact hag.logical k j rfl hbj
  | luks a =>
    cases info with
    | stratis k => exact absurd hc id
    | luks k =>
      obtain ⟨j, hj⟩ := hg.physical_some (.ofLuksInfo a) ha
      obtain ⟨hm, hu⟩ := hg.physical_mem _ j hj
      rcases hc with henc | ⟨huuid, hnum⟩
      · -- every layer is encrypted as `a` is, so the first one found is not encrypted as `k` is
        obtain ⟨e, he⟩ := exists_encryptionInfo hj
        obtain ⟨v, i, hi, rfl⟩ := exists_of_encryptionInfo he
        have hia : i.encryptionInfo = a.encryptionInfo := by
          by_contra hne
          exact agreed _ (hg.physical_mem v i hi).1 (.inl hne)
        exact .inl (conflicts_iff.mpr ⟨.ofLuksInfo k, _, rfl, he, fun hik =>
          henc (hia.symm.trans hik)⟩)
      · have hj' : j.ids.deviceNumber = a.info.deviceNumber := by
          by_contra hne
          exact agreed _ hm (.inr ⟨hu, hne⟩)
        change s.physical a.info.identifiers.deviceUuid = some j at hj
        rw [huuid] at hj
        obtain ⟨b, hb, hbj⟩ := Option.bind_eq_some_iff.mp hj
        refine .inr ⟨b, hb, fun hag => hnum ?_⟩
        rw [← hj']
        exact (hag.physical (.ofLuksInfo k) j rfl hbj).1

end Gathers

/-- Devices are added one after the other until two of them conflict. -/
theorem addAll_of_gathers {pool : PoolUuid} {s : DeviceSet} {seen : List DeviceInfo}
    (infos : List DeviceInfo) (hg : s.Gathers seen) (hn : ¬ Conflicting seen)
    (hp : ∀ i ∈ seen ++ infos, i.stratisIdentifiers.poolUuid = pool) :
    (∃ t, s.addAll infos = .ok t ∧ t.Gathers (infos.reverse ++ seen) ∧
        ¬ Conflicting (infos.reverse ++ seen)) ∨
      (∃ bag, s.addAll infos = .err bag) ∧ Conflicting (infos.reverse ++ seen) := by
  induction infos generalizing s seen with
  | nil => exact .inl ⟨s, rfl, hg, hn⟩
  | cons info infos ih =>
    have hp' : ∀ i ∈ info :: seen, i.stratisIdentifiers.poolUuid = pool := fun i hi => by
      apply hp i
      rcases mem_cons.mp hi with rfl | hi
      · simp
      · simp [hi]
    simp only [reverse_cons, append_assoc, singleton_append]
    by_cases hc : ∃ a ∈ seen, Conflict a info
    · obtain ⟨bag, hbag⟩ := hg.add_conflict hp' hn hc
      refine .inr ⟨⟨bag, by simp [addAll, hbag]⟩, ?_⟩
      exact conflicting_of_subset (subset_append_right _ _) (conflicting_cons.mpr (.inl hc))
    · obtain ⟨t, ht, hgt⟩ := hg.add hp' fun a ha h => hc ⟨a, ha, h⟩
      have hnt : ¬ Conflicting (info :: seen) := fun h =>
        (conflicting_cons.mp h).elim hc hn
      simp only [addAll, ht, Outcome.ok_bind]
      exact ih hgt hnt fun i hi => hp i (by
        simp only [mem_append, mem_cons] at hi ⊢
        tauto)

theorem addAll_new {pool : PoolUuid} (hp : ∀ i ∈ infos, i.stratisIdentifiers.poolUuid = pool) :
    (∃ s, new.addAll infos = .ok s ∧ s.Gathers infos ∧ ¬ Conflicting infos) ∨
      (∃ bag, new.addAll infos = .err bag) ∧ Conflicting infos := by
  have hrev : Conflicting infos.reverse ↔ Conflicting infos :=
    ⟨conflicting_of_subset (by simp), conflicting_of_subset (by simp)⟩
  have h := addAll_of_gathers infos gathers_new (by simp [Conflicting]) (by simpa using hp)
  rw [append_nil, hrev] at h
  refine h.imp ?_ id
  rintro ⟨s, hs, hg, hn⟩
  exact ⟨s, hs, hg.of_mem_iff (by simp), hn⟩

theorem Gathers.encryptionInfo_unique {s : DeviceSet} {seen : List DeviceInfo}
    (hg : s.Gathers seen) (hn : ¬ Conflicting seen) {e e' : EncryptionInfo}
    (he : e ∈ s.values.filterMap LInfo.encryptionInfo)
    (he' : e' ∈ s.values.filterMap LInfo.encryptionInfo) : e = e' := by
  obtain ⟨v, i, hi, rfl⟩ := mem_encryptionInfos.mp he
  obtain ⟨w, j, hj, rfl⟩ := mem_encryptionInfos.mp he'
  by_contra hne
  exact hn ⟨_, (hg.physical_mem v i hi).1, _, (hg.physical_mem w j hj).1, .inl hne⟩

/-- Whatever is known about a device number is one and the same for each kind of device. -/
structure Determined (infos : List DeviceInfo) : Prop where
  stratis : ∀ a b, .stratis a ∈ infos → .stratis b ∈ infos →
    a.deviceNumber = b.deviceNumber → a = b
  luks : ∀ a b, .luks a ∈ infos → .luks b ∈ infos →
    a.info.deviceNumber = b.info.deviceNumber → a = b

theorem Gathers.perm {s t : DeviceSet} {seen seen' : List DeviceInfo} (hs : s.Gathers seen)
    (ht : t.Gathers seen') (hsub : seen' ⊆ seen) (hsub' : seen ⊆ seen') (hn : ¬ Conflicting seen)
    (hd : Determined seen) : s.internal.entries.Perm t.internal.entries := by
  apply perm_of_layers
  · intro v
    cases hsv : s.logical v with
    | none =>
      cases htv : t.logical v with
      | none => rfl
      | some j =>
        obtain ⟨hm, rfl⟩ := ht.logical_mem v j htv
        obtain ⟨i, hi⟩ := hs.logical_some j (hsub hm)
        rw [hsv] at hi
        cases hi
    | some i =>
      obtain ⟨hm, rfl⟩ := hs.logical_mem v i hsv
      obtain ⟨j, hj⟩ := ht.logical_some i (hsub' hm)
      obtain ⟨hm', hu⟩ := ht.logical_mem _ j hj
      have hnum : i.deviceNumber = j.deviceNumber := by
        by_contra hne
        exact hn ⟨_, hm, _, hsub hm', ⟨hu.symm, hne⟩⟩
      rw [hj, hd.stratis i j hm (hsub hm') hnum]
  · intro v
    cases hsv : s.physical v with
    | none =>
      cases htv : t.physical v with
      | none => rfl
      | some j =>
        obtain ⟨hm, rfl⟩ := ht.physical_mem v j htv
        obtain ⟨i, hi⟩ := hs.physical_some j (hsub hm)
        rw [hsv] at hi
        cases hi
    | some i =>
      obtain ⟨hm, rfl⟩ := hs.physical_mem v i hsv
      obtain ⟨j, hj⟩ := ht.physical_some i (hsub' hm)
      obtain ⟨hm', hu⟩ := ht.physical_mem _ j hj
      have hnum : i.ids.deviceNumber = j.ids.deviceNumber := by
        by_contra hne
        exact hn ⟨_, hm, _, hsub hm', .inr ⟨hu.symm, hne⟩⟩
      have hij := hd.luks _ _ hm (hsub hm') hnum
      cases i; cases j
      simp_all

/-- Finding the devices of a pool fails exactly if two of them conflict, so in every order or
in none. Otherwise every order leads to the same set, and its devices are all encrypted in the
same way. -/
theorem addAll_order_independent (pool : PoolUuid) (infos : List DeviceInfo)
    (hp : ∀ i ∈ infos, i.stratisIdentifiers.poolUuid = pool) :
    ((∃ bag, new.addAll infos = .err bag) ↔ Conflicting infos) ∧
      (∀ infos' : List DeviceInfo, infos'.Perm infos →
        ((∃ bag, new.addAll infos' = .err bag) ↔ ∃ bag, new.addAll infos = .err bag)) ∧
      (¬ Conflicting infos → ∃ s, new.addAll infos = .ok s ∧
        (∀ e ∈ s.values.filterMap LInfo.encryptionInfo,
          ∀ e' ∈ s.values.filterMap LInfo.encryptionInfo, e = e') ∧
        (Determined infos → ∀ infos' : List DeviceInfo, infos'.Perm infos →
          ∃ t, new.addAll infos' = .ok t ∧ s.internal.entries.Perm t.internal.entries)) := by
  have fails : ∀ infos' : List DeviceInfo, infos'.Perm infos →
      ((∃ bag, new.addAll infos' = .err bag) ↔ Conflicting infos) := by
    intro infos' hperm
    have hiff : Conflicting infos' ↔ Conflicting infos :=
      ⟨conflicting_of_subset hperm.subset, conflicting_of_subset hperm.symm.subset⟩
    rw [← hiff]
    rcases addAll_new fun i hi => hp i (hperm.mem_iff.mp hi) with ⟨s, hs, -, hn⟩ | ⟨herr, hc⟩
    · simp [hs, hn]
    · exact iff_of_true herr hc
  refine ⟨fails infos (List.Perm.refl _), fun infos' hperm => ?_, fun hn => ?_⟩
  · rw [fails infos' hperm, fails infos (List.Perm.refl _)]
  · obtain ⟨s, hs, hg, -⟩ := (addAll_new hp).resolve_right fun h => hn h.2
    refine ⟨s, hs, fun e he e' he' => hg.encryptionInfo_unique hn he he', fun hd infos' hperm => ?_⟩
    have hn' : ¬ Conflicting infos' := fun h => hn (conflicting_of_subset hperm.subset h)
    obtain ⟨t, ht, hgt, -⟩ := (addAll_new fun i hi => hp i (hperm.mem_iff.mp hi)).resolve_right
      fun h => hn' h.2
    exact ⟨t, ht, hg.perm hgt hperm.subset hperm.symm.subset hn hd⟩

/-- An opened device is found above its LUKS2 device or before it. -/
theorem addAll_order_independent_opened :
    let ids : StratisIdentifiers := ⟨⟨1⟩, ⟨7⟩⟩
    let luks : DeviceInfo := .luks ⟨⟨ids, ⟨8, 16⟩, "/dev/sdb"⟩, ⟨some "key", none⟩⟩
    let stratis : DeviceInfo := .stratis ⟨ids, ⟨253, 3⟩, "/dev/dm-3"⟩
    ∃ s, new.addAll [luks, stratis] = .ok s ∧
      ∃ t, new.addAll [stratis, luks] = .ok t ∧ s.internal.entries.Perm t.internal.entries := by
  intro ids luks stratis
  obtain ⟨s, hs, -, hperm⟩ := (addAll_order_independent ⟨1⟩ [luks, stratis] (by decide)).2.2
    (by decide)
  refine ⟨s, hs, hperm ⟨?_, ?_⟩ [stratis, luks] (List.Perm.swap _ _ _)⟩
  · simp [luks, stratis]
  · simp [luks, stratis]

end DeviceSet

end Stratisd.Liminal
