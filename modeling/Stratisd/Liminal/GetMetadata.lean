import Stratisd.Backstore.Attached

/-! Finding the most recent pool metadata over all devices of a pool, and why it is the
metadata of the last save. -/

namespace Stratisd.Liminal

open Run Engine Media Metadata Backstore List

section definition

variable {α : Type} (crc : List UInt8 → UInt32) (fromSlice : List UInt8 → Option α)

/-- What one device contributes if its last update is the most recent one. -/
def readIfRecent (opens : DevUuid → Bool) (time : DateTime) (a : AttachedDev) : Option α :=
  if a.lastUpdateTime = some time then
    if opens a.bd.uuid then
      match a.bd.bda.loadState crc a.disk with
      | .ok data => data.bind fromSlice
      | _ => none
    else none
  else none

/-- The most recent metadata of a set of devices, in the order in which they come. Nothing
if no device has been written. -/
def getMetadata (opens : DevUuid → Bool) (devs : List AttachedDev) :
    StratisResult (Option (DateTime × α)) :=
  match (devs.filterMap (·.lastUpdateTime)).max? with
  | none => .ok none
  | some time =>
    match devs.findSome? (readIfRecent crc fromSlice opens time) with
    | some psave => .ok (some (time, psave))
    | none =>
      .err (.msg "timestamp indicates data was written, but no data successfully read")

end definition

/-! ### One save -/

section save

variable {crc : List UInt8 → UInt32} {m : AttachedMgr} {env : SaveEnv} {metadata : List UInt8}

/-- The devices are readable, and none is stamped later than the manager. -/
structure Consistent (crc : List UInt8 → UInt32) (m : AttachedMgr) : Prop where
  fits : ∀ a ∈ m.devs, a.store.Fits
  reloadable : ∀ a ∈ m.devs, a.store.Reloadable crc
  bounded : ∀ a ∈ m.devs, ∀ t ∈ a.lastUpdateTime, ∃ last ∈ m.lastUpdateTime, t ≤ last
  after_epoch : ∀ t ∈ m.lastUpdateTime, 0 ≤ t.secs

/-- The metadata with the stamp of the manager is on some device, and every device with
that stamp has it. -/
structure Newest (crc : List UInt8 → UInt32) (m : AttachedMgr) (stamp : DateTime)
    (metadata : List UInt8) : Prop where
  last : m.lastUpdateTime = some stamp
  found : ∃ a ∈ m.devs, a.lastUpdateTime = some stamp
  same : ∀ a ∈ m.devs, a.lastUpdateTime = some stamp →
    a.bd.bda.loadState crc a.disk = .ok (some metadata)

/-- What the environment of a save is assumed to do: the clock is past the epoch, the stamp
does not overflow, at most ten devices are drawn, and a device that fails does so before it
is written. -/
structure Admits (m : AttachedMgr) (env : SaveEnv) : Prop where
  now : 0 ≤ env.now.secs
  room : ∀ t ∈ m.lastUpdateTime, t.addNanosecond.isSome
  targets : env.targets.length ≤ maxNumToWrite
  atomic : ∀ u, (env.io u).Atomic

theorem stampTime_spec (hc : Consistent crc m) (ha : Admits m env) :
    ∃ stamp, m.stampTime env.now = .ok stamp ∧ (∀ t ∈ m.lastUpdateTime, t < stamp) ∧
      0 ≤ stamp.secs := by
  unfold AttachedMgr.stampTime
  cases hlast : m.lastUpdateTime with
  | none => exact ⟨env.now, rfl, by simp, ha.now⟩
  | some last =>
    by_cases hle : env.now ≤ last
    · obtain ⟨stamp, hs⟩ := Option.isSome_iff_exists.mp (ha.room last hlast)
      refine ⟨stamp, by simp [hle, hs], ?_, ?_⟩
      · rintro t ⟨rfl⟩
        exact DateTime.lt_addNanosecond hs
      · exact (hc.after_epoch last hlast).trans (DateTime.secs_le_addNanosecond hs)
    · refine ⟨env.now, by simp [hle], ?_, ha.now⟩
      rintro t ⟨rfl⟩
      exact not_le.mp hle

variable {stamp : DateTime}

/-- A device is left alone, or it stores the metadata. -/
theorem saveIfTarget_cases (hc : Consistent crc m) (ha : Admits m env) (hne : metadata ≠ [])
    (hlt : ∀ t ∈ m.lastUpdateTime, t < stamp) (hs : 0 ≤ stamp.secs) {a : AttachedDev}
    (hm : a ∈ m.devs) :
    ((a.saveIfTarget crc stamp metadata env).1 = a ∧
      ∀ r ∈ (a.saveIfTarget crc stamp metadata env).2, r = .err .io) ∨
    ((a.saveIfTarget crc stamp metadata env).2 = some (.ok ()) ∧
      (a.saveIfTarget crc stamp metadata env).1.store.Represents crc (some (stamp, metadata)) ∧
      (a.saveIfTarget crc stamp metadata env).1.store.Reloadable crc) := by
  unfold AttachedDev.saveIfTarget
  split_ifs with ht
  · have hlt' : ∀ t ∈ a.lastUpdateTime, t < stamp := fun t hta => by
      obtain ⟨last, hlast, hle⟩ := hc.bounded a hm t hta
      exact hle.trans_lt (hlt last hlast)
    rcases AttachedDev.saveState_cases (hc.fits a hm) (hc.reloadable a hm) hs hne hlt' ht.1
      (ha.atomic a.bd.uuid) with heq | ⟨a', heq, -, hrep, hrel⟩
    · exact Or.inl (by simp [heq])
    · exact Or.inr (by simpa [heq] using ⟨hrep, hrel⟩)
  · exact Or.inl (by simp)

theorem consistent_of_stored (hc : Consistent crc m) (hlt : ∀ t ∈ m.lastUpdateTime, t < stamp)
    (hs : 0 ≤ stamp.secs) {devs : List AttachedDev} (h : ∀ a ∈ devs, a ∈ m.devs ∨
      a.store.Represents crc (some (stamp, metadata)) ∧ a.store.Reloadable crc) :
    Consistent crc ⟨devs, some stamp⟩ := by
  refine ⟨fun a ha => ?_, fun a ha => ?_, fun a ha t ht => ⟨stamp, rfl, ?_⟩, ?_⟩
  · rcases h a ha with hm | ⟨hrep, -⟩
    · exact hc.fits a hm
    · exact hrep.fits
  · rcases h a ha with hm | ⟨-, hrel⟩
    · exact hc.reloadable a hm
    · exact hrel
  · rcases h a ha with hm | ⟨hrep, -⟩
    · obtain ⟨last, hlast, hle⟩ := hc.bounded a hm t ht
      exact hle.trans (hlt last hlast).le
    · have : a.lastUpdateTime = some stamp := hrep.lastUpdateTime
      rw [this] at ht
      exact (Option.some.inj ht).ge
  · rintro t ⟨rfl⟩
    exact hs

theorem newest_of_stored (hc : Consistent crc m) (hlt : ∀ t ∈ m.lastUpdateTime, t < stamp)
    {devs : List AttachedDev} (h : ∀ a ∈ devs, a ∈ m.devs ∨
      a.store.Represents crc (some (stamp, metadata)) ∧ a.store.Reloadable crc)
    (hex : ∃ a ∈ devs, a.store.Represents crc (some (stamp, metadata))) :
    Newest crc ⟨devs, some stamp⟩ stamp metadata := by
  refine ⟨rfl, ?_, fun a ha ht => ?_⟩
  · obtain ⟨a, ha, hrep⟩ := hex
    exact ⟨a, ha, hrep.lastUpdateTime⟩
  · rcases h a ha with hm | ⟨hrep, -⟩
    · -- a device as before has an earlier stamp
      obtain ⟨last, hlast, hle⟩ := hc.bounded a hm stamp ht
      exact absurd (hlt last hlast) (not_lt.mpr hle)
    · exact hrep.loadState

/-- What the devices that have been drawn have answered. -/
def answers (crc : List UInt8 → UInt32) (m : AttachedMgr) (stamp : DateTime) (metadata : List UInt8)
    (env : SaveEnv) : List (DevUuid × StratisResult Unit) :=
  m.devs.filterMap fun a => (a.saveIfTarget crc stamp metadata env).2.map fun r => (a.bd.uuid, r)

theorem mem_answers {d : DevUuid × StratisResult Unit} :
    d ∈ answers crc m stamp metadata env ↔ ∃ a ∈ m.devs, ∃ r,
      (a.saveIfTarget crc stamp metadata env).2 = some r ∧ (a.bd.uuid, r) = d := by
  simp only [answers, mem_filterMap, Option.map_eq_some_iff]

/-- One device that has stored the metadata is enough. -/
theorem saveState_eq (hstamp : m.stampTime env.now = .ok stamp)
    (hpanic : ∀ d ∈ answers crc m stamp metadata env, d.2 ≠ .panic) :
    m.saveState crc metadata env =
      if (answers crc m stamp metadata env).any (·.2.isOk) then
        (⟨m.devs.map fun a => (a.saveIfTarget crc stamp metadata env).1, some stamp⟩,
          ⟨.ok (), some stamp, answers crc m stamp metadata env⟩)
      else (⟨m.devs.map fun a => (a.saveIfTarget crc stamp metadata env).1, m.lastUpdateTime⟩,
        ⟨.err (.msg "Failed to save metadata to even one device in pool"), some stamp,
          answers crc m stamp metadata env⟩) := by
  have hresults : (m.devs.map fun a => (a.bd.uuid, a.saveIfTarget crc stamp metadata env)).filterMap
      (fun t => t.2.2.map fun r => (t.1, r)) = answers crc m stamp metadata env := by
    rw [filterMap_map]
    rfl
  have hdevs : (m.devs.map fun a => (a.bd.uuid, a.saveIfTarget crc stamp metadata env)).map (·.2.1) =
      m.devs.map fun a => (a.saveIfTarget crc stamp metadata env).1 := by
    rw [map_map]
    rfl
  have hnone : (answers crc m stamp metadata env).any (·.2 = .panic) = false := by
    rw [any_eq_false]
    intro d hd
    simpa using hpanic d hd
  simp only [AttachedMgr.saveState, hstamp, hresults, hdevs, hnone, Bool.false_eq_true, if_false]

/-- A save on the manager is stored, with a later stamp, or changes nothing. No device rejects
it. -/
theorem saveState_spec (hc : Consistent crc m) (ha : Admits m env) (hne : metadata ≠ []) :
    ∃ stamp, (m.saveState crc metadata env).2.stamp = some stamp ∧
      (∀ t ∈ m.lastUpdateTime, t < stamp) ∧
      (∀ d ∈ (m.saveState crc metadata env).2.devices, d.2 = .ok () ∨ d.2 = .err .io) ∧
      ((m.saveState crc metadata env).2.result = .ok () ∧
          Consistent crc (m.saveState crc metadata env).1 ∧
          Newest crc (m.saveState crc metadata env).1 stamp metadata ∨
        (m.saveState crc metadata env).2.result.isOk = false ∧
          (m.saveState crc metadata env).1 = m) := by
  obtain ⟨stamp, hstamp, hlt, hs⟩ := stampTime_spec hc ha
  have hcases := fun a (hm : a ∈ m.devs) => saveIfTarget_cases hc ha hne hlt hs hm
  have htried : ∀ d ∈ answers crc m stamp metadata env, d.2 = .ok () ∨ d.2 = .err .io := by
    intro d hd
    obtain ⟨a, hm, r, hr, rfl⟩ := mem_answers.mp hd
    rcases hcases a hm with ⟨-, h⟩ | ⟨h, -⟩
    · exact Or.inr (h r hr)
    · exact Or.inl (Option.some.inj (hr.symm.trans h))
  rw [saveState_eq hstamp fun d hd => by rcases htried d hd with h | h <;> simp [h]]
  split_ifs with hok
  · -- some device has stored the metadata
    obtain ⟨d, hd, hdok⟩ := any_eq_true.mp hok
    obtain ⟨b, hb, r, hr, rfl⟩ := mem_answers.mp hd
    have heach : ∀ a' ∈ m.devs.map fun a => (a.saveIfTarget crc stamp metadata env).1, a' ∈ m.devs ∨
        a'.store.Represents crc (some (stamp, metadata)) ∧ a'.store.Reloadable crc := by
      intro a' ha'
      obtain ⟨a, hm, rfl⟩ := mem_map.mp ha'
      rcases hcases a hm with ⟨h, -⟩ | ⟨-, h⟩
      · rw [h]
        exact Or.inl hm
      · exact Or.inr h
    have hex : ∃ a' ∈ m.devs.map fun a => (a.saveIfTarget crc stamp metadata env).1,
        a'.store.Represents crc (some (stamp, metadata)) := by
      refine ⟨_, mem_map_of_mem hb, ?_⟩
      rcases hcases b hb with ⟨-, h⟩ | ⟨-, h, -⟩
      · simp [h r hr] at hdok
      · exact h
    exact ⟨stamp, rfl, hlt, htried, Or.inl ⟨rfl, consistent_of_stored hc hlt hs heach,
      newest_of_stored hc hlt heach hex⟩⟩
  · have hsame : ∀ a ∈ m.devs, (a.saveIfTarget crc stamp metadata env).1 = a := by
      intro a hm
      rcases hcases a hm with ⟨h, -⟩ | ⟨h, -⟩
      · exact h
      · exact absurd (any_eq_true.mpr ⟨_, mem_answers.mpr ⟨a, hm, _, h, rfl⟩, rfl⟩) hok
    have hmap : (m.devs.map fun a => (a.saveIfTarget crc stamp metadata env).1) = m.devs := by
      rw [map_congr_left hsame, map_id']
    rw [hmap]
    exact ⟨stamp, rfl, hlt, htried, Or.inr ⟨rfl, rfl⟩⟩

end save

/-! ### Whole runs -/

section runs

variable {α : Type} {crc : List UInt8 → UInt32} {fromSlice : List UInt8 → Option α}
  {toVec : α → List UInt8} {m : AttachedMgr}

/-- One call of `save_state`: the pool metadata to save and its environment. -/
structure SaveInput (α : Type) where
  value : α
  env : SaveEnv

def saveStep (crc : List UInt8 → UInt32) (toVec : α → List UInt8) (m : AttachedMgr)
    (i : SaveInput α) : AttachedMgr × SaveReport := m.saveState crc (toVec i.value) i.env

/-- Stamps and metadata of the calls that returned Ok. -/
def savedBy (tr : List (SaveInput α × SaveReport)) : List (DateTime × α) :=
  tr.filterMap fun p => if p.2.result.isOk then p.2.stamp.map fun t => (t, p.1.value) else none

theorem getMetadata_of_newest (hc : Consistent crc m) {stamp : DateTime} {x : α}
    (hn : Newest crc m stamp (toVec x)) (hj : fromSlice (toVec x) = some x)
    {devs : List AttachedDev} (hp : devs.Perm m.devs) :
    getMetadata crc fromSlice (fun _ => true) devs = .ok (some (stamp, x)) := by
  have hmax : (devs.filterMap (·.lastUpdateTime)).max? = some stamp := by
    rw [List.max?_eq_some_iff]
    refine ⟨?_, fun t ht => ?_⟩
    · obtain ⟨a, ha, ht⟩ := hn.found
      exact mem_filterMap.mpr ⟨a, hp.mem_iff.mpr ha, ht⟩
    · obtain ⟨a, ha, ht⟩ := mem_filterMap.mp ht
      obtain ⟨last, hlast, hle⟩ := hc.bounded a (hp.mem_iff.mp ha) t ht
      rw [hn.last] at hlast
      exact hle.trans (Option.some.inj hlast).ge
  have hread : ∀ a ∈ devs, a.lastUpdateTime = some stamp →
      readIfRecent crc fromSlice (fun _ => true) stamp a = some x := by
    intro a ha ht
    simp [readIfRecent, ht, hn.same a (hp.mem_iff.mp ha) ht, hj]
  have hfind : devs.findSome? (readIfRecent crc fromSlice (fun _ => true) stamp) = some x := by
    cases hf : devs.findSome? (readIfRecent crc fromSlice (fun _ => true) stamp) with
    | none =>
      obtain ⟨a, ha, ht⟩ := hn.found
      have := List.findSome?_eq_none_iff.mp hf a (hp.mem_iff.mpr ha)
      rw [hread a (hp.mem_iff.mpr ha) ht] at this
      cases this
    | some y =>
      obtain ⟨a, ha, hy⟩ := exists_of_findSome?_eq_some hf
      by_cases ht : a.lastUpdateTime = some stamp
      · rw [← hy, hread a ha ht]
      · simp [readIfRecent, ht] at hy
  simp only [getMetadata, hmax, hfind]

/-- A manager as initialization or set-up leaves it: all devices have just been initialized,
or they have been loaded and the manager has the stamp of their most recent metadata. -/
def Starts (crc : List UInt8 → UInt32) (fromSlice : List UInt8 → Option α) (m : AttachedMgr) :
    Prop :=
  (∀ a ∈ m.devs, a.store.Initialized crc) ∧ m.lastUpdateTime = none ∨
    ∃ stamp x, (∀ a ∈ m.devs, a.store.Fits ∧
        BDA.load crc a.bd.bda.header a.disk = .ok (some a.bd.bda)) ∧
      getMetadata crc fromSlice (fun _ => true) m.devs = .ok (some (stamp, x)) ∧
      m.lastUpdateTime = some stamp

theorem max_of_getMetadata {opens : DevUuid → Bool} {devs : List AttachedDev} {stamp : DateTime}
    {x : α} (h : getMetadata crc fromSlice opens devs = .ok (some (stamp, x))) :
    (devs.filterMap (·.lastUpdateTime)).max? = some stamp := by
  unfold getMetadata at h
  split at h
  · simp at h
  · rename_i time hmax
    split at h
    · simp only [Outcome.ok.injEq, Option.some.injEq, Prod.mk.injEq] at h
      rw [hmax, h.1]
    · simp at h

theorem Starts.consistent (h : Starts crc fromSlice m) : Consistent crc m := by
  rcases h with ⟨hinit, hnone⟩ | ⟨stamp, x, hload, hget, hlast⟩
  · have hrep := fun a ha => (hinit a ha).represents
    refine ⟨fun a ha => (hrep a ha).1.fits, fun a ha => (hrep a ha).2, fun a ha t ht => ?_, ?_⟩
    · have : a.lastUpdateTime = none := (hrep a ha).1.lastUpdateTime
      simp [this] at ht
    · simp [hnone]
  · obtain ⟨hmem, hmax⟩ := List.max?_eq_some_iff.mp (max_of_getMetadata hget)
    have hrel : ∀ a ∈ m.devs, a.store.Reloadable crc := fun a ha =>
      DeviceStore.Reloadable.of_load (hload a ha).2
    refine ⟨fun a ha => (hload a ha).1, hrel, fun a ha t ht => ⟨stamp, hlast, ?_⟩, ?_⟩
    · exact hmax t (mem_filterMap.mpr ⟨a, ha, ht⟩)
    · rw [hlast]
      rintro t ⟨rfl⟩
      obtain ⟨a, ha, ht⟩ := mem_filterMap.mp hmem
      exact (hrel a ha).secs_nonneg ht

theorem starts_singleton {s : DeviceStore} (h : s.Initialized crc) {dev : Device}
    {used : RangeAllocator} {userInfo hardwareInfo : Option String} :
    Starts crc fromSlice ⟨[⟨⟨dev, s.bda, used, userInfo, hardwareInfo⟩, s.disk⟩], none⟩ :=
  Or.inl ⟨fun _ ha => mem_singleton.mp ha ▸ h, rfl⟩

/-- What a run of saves has done so far, next to the manager that it has led to. -/
structure SaveHistory (crc : List UInt8 → UInt32) (toVec : α → List UInt8) (start m : AttachedMgr)
    (tr : List (SaveInput α × SaveReport)) : Prop where
  consistent : Consistent crc m
  increasing : ((savedBy tr).map (·.1)).Pairwise (· < ·)
  bounded : ∀ s ∈ savedBy tr, ∃ last ∈ m.lastUpdateTime, s.1 ≤ last
  accepted : ∀ p ∈ tr, ∀ d ∈ p.2.devices, d.2 = .ok () ∨ d.2 = .err .io
  unchanged : (savedBy tr).getLast? = none → m = start
  newest : ∀ s, (savedBy tr).getLast? = some s → Newest crc m s.1 (toVec s.2)

theorem SaveHistory.step {start : AttachedMgr} {tr : List (SaveInput α × SaveReport)}
    (h : SaveHistory crc toVec start m tr) {i : SaveInput α} (hne : toVec i.value ≠ [])
    (ha : Admits m i.env) :
    SaveHistory crc toVec start (saveStep crc toVec m i).1 (tr ++ [(i, (saveStep crc toVec m i).2)]) := by
  obtain ⟨stamp, hstamp, hlt, hdev, hres⟩ := saveState_spec h.consistent ha hne
  have hacc : ∀ p ∈ tr ++ [(i, (saveStep crc toVec m i).2)], ∀ d ∈ p.2.devices,
      d.2 = .ok () ∨ d.2 = .err .io := by
    intro p hp
    rcases mem_append.mp hp with hp | hp
    · exact h.accepted p hp
    · rw [mem_singleton.mp hp]
      exact hdev
  rcases hres with ⟨hok, hcon, hnew⟩ | ⟨hno, hsame⟩
  · have hsaved : savedBy (tr ++ [(i, (saveStep crc toVec m i).2)]) =
        savedBy tr ++ [(stamp, i.value)] := by
      simp [savedBy, saveStep, hok, hstamp]
    refine ⟨hcon, ?_, ?_, hacc, ?_, ?_⟩
    · rw [hsaved, map_append, pairwise_append]
      refine ⟨h.increasing, pairwise_singleton _ _, fun t ht s hs => ?_⟩
      obtain ⟨q, hq, rfl⟩ := mem_map.mp ht
      obtain ⟨last, hlast, hle⟩ := h.bounded q hq
      rw [map_singleton, mem_singleton] at hs
      rw [hs]
      exact hle.trans_lt (hlt last hlast)
    · intro s hs
      refine ⟨stamp, hnew.last, ?_⟩
      rw [hsaved] at hs
      rcases mem_append.mp hs with hs | hs
      · obtain ⟨last, hlast, hle⟩ := h.bounded s hs
        exact hle.trans (hlt last hlast).le
      · rw [mem_singleton.mp hs]
    · rw [hsaved]
      simp
    · rw [hsaved, List.getLast?_concat]
      rintro s ⟨rfl⟩
      exact hnew
  · have hsaved : savedBy (tr ++ [(i, (saveStep crc toVec m i).2)]) = savedBy tr := by
      simp [savedBy, saveStep, hno]
    have hm : (saveStep crc toVec m i).1 = m := hsame
    rw [hm]
    exact ⟨h.consistent, hsaved ▸ h.increasing, hsaved ▸ h.bounded, hacc, hsaved ▸ h.unchanged,
      hsaved ▸ h.newest⟩

/-- No pool update is lost. In every run of saves, the stamps of the calls that returned Ok
increase, no device rejects a save, no device is stamped later than the manager, the devices
load as they are, and over all devices the metadata of the last call that returned Ok is
found, with its stamp. -/
theorem no_lost_update (hj : ∀ x, fromSlice (toVec x) = some x) (he : fromSlice [] = none)
    (h : Starts crc fromSlice m) (inputs : List (SaveInput α))
    (ha : AllSteps (saveStep crc toVec) (fun m i => Admits m i.env) m inputs) :
    let m' := (run (saveStep crc toVec) m inputs).1
    let tr := (run (saveStep crc toVec) m inputs).2
    ((savedBy tr).map (·.1)).Pairwise (· < ·) ∧
      (∀ p ∈ tr, ∀ d ∈ p.2.devices, d.2 ≠ .err (.msg "Overwriting newer data")) ∧
      (∀ a ∈ m'.devs, ∀ t ∈ a.lastUpdateTime, ∃ last ∈ m'.lastUpdateTime, t ≤ last) ∧
      (∀ a ∈ m'.devs, BDA.load crc a.bd.bda.header a.disk = .ok (some a.bd.bda)) ∧
      ((savedBy tr).getLast? = none → m' = m) ∧
      ∀ s, (savedBy tr).getLast? = some s → ∀ devs, devs.Perm m'.devs →
        getMetadata crc fromSlice (fun _ => true) devs = .ok (some s) := by
  intro m' tr
  have hne : ∀ x, toVec x ≠ [] := fun x hx => by
    have := hj x
    rw [hx, he] at this
    cases this
  have hist : SaveHistory crc toVec m m' tr :=
    run_invariant (saveStep crc toVec) (P := SaveHistory crc toVec m)
      (fun m tr i hP hA => hP.step (hne i.value) hA)
      ⟨h.consistent, List.Pairwise.nil, by simp [savedBy], by simp, fun _ => rfl, by simp [savedBy]⟩
      ha
  refine ⟨hist.increasing, fun p hp d hd => ?_, hist.consistent.bounded, fun a ha => ?_,
    hist.unchanged, fun s hs devs hp => ?_⟩
  · rcases hist.accepted p hp d hd with h | h <;> simp [h]
  · exact (hist.consistent.reloadable a ha).load
  · exact getMetadata_of_newest hist.consistent (hist.newest s hs) (hj s.2) hp

/-- Two saves, the second under a clock that has gone backwards, on the one device of a new
pool. The metadata is a byte behind a tag. -/
theorem no_lost_update_clock_back :
    let crc := checksumCastagnoli
    let toVec : UInt8 → List UInt8 := fun x => [7, x]
    let fromSlice : List UInt8 → Option UInt8 := fun data => data[1]?
    let s := DeviceStore.fresh crc ⟨⟨0⟩, ⟨1⟩⟩ MDADataSize.default 4194304 0 (fun _ => some 0)
    let dev : AttachedDev := ⟨⟨⟨8, 16⟩, s.bda, ⟨⟨4194304, [(0, 8192)]⟩⟩, none, none⟩, s.disk⟩
    let env : DateTime → SaveEnv := fun now => ⟨now, [⟨1⟩], fun _ => ⟨true, ⟨none, none⟩⟩⟩
    let inputs : List (SaveInput UInt8) :=
      [⟨1, env ⟨20, 0, by decide, by decide, by decide⟩⟩,
        ⟨2, env ⟨10, 0, by decide, by decide, by decide⟩⟩]
    getMetadata crc fromSlice (fun _ => true) (run (saveStep crc toVec) ⟨[dev], none⟩ inputs).1.devs =
      .ok (some (⟨20, 1, by decide, by decide, by decide⟩, 2)) := by
  intro crc toVec fromSlice s dev env inputs
  have hinit : s.Initialized crc := DeviceStore.fresh_initialized (by decide)
  have hs : Starts crc fromSlice ⟨[dev], none⟩ := starts_singleton hinit
  have hadm : AllSteps (saveStep crc toVec) (fun m i => Admits m i.env) ⟨[dev], none⟩ inputs := by
    refine ⟨⟨by decide, by simp, by decide, fun _ => Or.inr (Or.inr rfl)⟩,
      ⟨by decide, ?_, by decide, fun _ => Or.inr (Or.inr rfl)⟩, trivial⟩
    decide +kernel
  obtain ⟨-, -, -, -, -, hlast⟩ := no_lost_update (fun x => show fromSlice (toVec x) = some x from rfl) rfl hs inputs hadm
  have hsaved : (savedBy (run (saveStep crc toVec) ⟨[dev], none⟩ inputs).2).getLast? =
      some (⟨20, 1, by decide, by decide, by decide⟩, 2) := by
    decide +kernel
  exact hlast _ hsaved _ (List.Perm.refl _)

end runs

end Stratisd.Liminal
