import Stratisd.Backstore.Devices

/-! Exactly which paths are accepted for a pool, and what is then known of the devices to be
initialized. -/

namespace Stratisd.Devices

open Run Run.Outcome Engine Metadata List

/-! ### One result for each path -/

section related

variable {α β γ : Type} {R : α → β → Prop} {as : List α} {bs : List β} {f : β → γ}

theorem nodup_eraseDups {α : Type} [BEq α] [LawfulBEq α] (as : List α) : as.eraseDups.Nodup := by
  cases as with
  | nil => simp
  | cons a as =>
    rw [eraseDups_cons, nodup_cons]
    refine ⟨?_, nodup_eraseDups (as.filter fun b => !b == a)⟩
    simp [mem_eraseDups]
termination_by as.length
decreasing_by
  exact Nat.lt_succ_of_le (List.length_filter_le _ _)

theorem nodup_of_forall₂ (h : List.Forall₂ R as bs) (hn : as.Nodup)
    (hne : ∀ a ∈ as, ∀ a' ∈ as, a ≠ a' → ∀ b b', R a b → R a' b' → f b ≠ f b') :
    (bs.map f).Nodup := by
  induction h with
  | nil => simp
  | @cons a b as bs hab hrest ih =>
    obtain ⟨hnot, hn⟩ := nodup_cons.mp hn
    rw [map_cons, nodup_cons]
    refine ⟨fun hmem => ?_, ih hn fun c hc c' hc' => hne c (mem_cons_of_mem _ hc) c'
      (mem_cons_of_mem _ hc')⟩
    obtain ⟨b', hb', heq⟩ := mem_map.mp hmem
    obtain ⟨a', ha', hab'⟩ := exists_of_forall₂ hrest.flip hb'
    exact hne a' (mem_cons_of_mem _ ha') a mem_cons_self
      (fun heq => hnot (heq ▸ ha')) b' b hab' hab heq

theorem ne_of_forall₂ (h : List.Forall₂ R as bs) (hn : (bs.map f).Nodup)
    (hR : ∀ a b b', R a b → R a b' → b = b') {a a' : α} {b b' : β} (ha : a ∈ as) (ha' : a' ∈ as)
    (hne : a ≠ a') (hab : R a b) (hab' : R a' b') : f b ≠ f b' := by
  induction h with
  | nil => cases ha
  | @cons c d as bs hcd hrest ih =>
    rw [map_cons, nodup_cons] at hn
    have htail : ∀ {a b}, a ∈ as → R a b → f b ∈ bs.map f := by
      intro a b ha hab
      obtain ⟨b', hb', hab'⟩ := exists_of_forall₂ hrest ha
      rw [hR a b b' hab hab']
      exact mem_map_of_mem hb'
    rcases mem_cons.mp ha with rfl | hmem <;> rcases mem_cons.mp ha' with rfl | hmem'
    · exact absurd rfl hne
    · rw [hR a b d hab hcd]
      exact fun heq => hn.1 (heq ▸ htail hmem' hab')
    · rw [hR a' b' d hab' hcd]
      exact fun heq => hn.1 (heq ▸ htail hmem hab)
    · exact ih hn.2 hmem hmem'

theorem filterMap_eq_of_forall₂ {g : α → Option γ} {g' : β → Option γ} (h : List.Forall₂ R as bs)
    (hg : ∀ a b, R a b → g a = g' b) : as.filterMap g = bs.filterMap g' := by
  induction h with
  | nil => rfl
  | cons hab _ ih => rw [filterMap_cons, filterMap_cons, hg _ _ hab, ih]

end related

theorem duplicateDeviceNumberMessages_eq_nil {infos : List DeviceInfo} :
    duplicateDeviceNumberMessages infos = [] ↔ (infos.map (·.devno)).Nodup := by
  rw [nodup_iff_count_le_one]
  have hcount : ∀ devno, (infos.map (·.devno)).count devno =
      (infos.filter (·.devno = devno)).length := by
    intro devno
    rw [List.count, countP_map, countP_eq_length_filter]
    rfl
  simp only [duplicateDeviceNumberMessages, filterMap_eq_nil_iff, mem_eraseDups]
  constructor
  · intro h devno
    by_cases hmem : devno ∈ infos.map (·.devno)
    · have hone := h devno hmem
      rw [hcount]
      by_contra hgt
      simp [hgt] at hone
    · rw [count_eq_zero_of_not_mem hmem]
      exact Nat.zero_le _
  · intro h devno _
    have hle := h devno
    rw [hcount] at hle
    simp [hle]

/-! ### Paths that are accepted -/

section vetted

variable (node : String → NodeIo) (headers : Headers) (poolUuid : PoolUuid)
  (currentUuids : List DevUuid) (paths : List String)

/-- What the paths of a request have to be. -/
structure Acceptable : Prop where
  /-- Information can be had of each. -/
  info : ∀ path ∈ paths, ∃ r, devInfo (node path) headers path = .ok r
  /-- No two have the same device number. -/
  distinct : ∀ p ∈ paths, ∀ q ∈ paths, p ≠ q → ∀ r s, devInfo (node p) headers p = .ok r →
    devInfo (node q) headers q = .ok s → r.2.2.2 ≠ s.2.2.2
  /-- Those with identifiers are in the pool, and in the tier. -/
  included : ∀ path ∈ paths, ∀ hwId size ids devno,
    devInfo (node path) headers path = .ok (hwId, size, some ids, devno) →
      ids.poolUuid = poolUuid ∧ ids.deviceUuid ∈ currentUuids
  /-- Those without are large enough. -/
  large : ∀ path ∈ paths, ∀ hwId size devno,
    devInfo (node path) headers path = .ok (hwId, size, none, devno) → minDevSize ≤ size

/-- The information about one path, if it has no identifiers. -/
def newInfo (path : String) : Option DeviceInfo :=
  match devInfo (node path) headers path with
  | .ok (hwId, size, none, devno) => some ⟨devno, path, hwId, size⟩
  | _ => none

/-- The information about the paths without identifiers, each path at its first place. -/
def newInfos : List DeviceInfo := paths.eraseDups.filterMap (newInfo node headers)

variable {node headers poolUuid currentUuids paths}

theorem newInfo_eq {path : String} {d : DeviceInfo × Option StratisIdentifiers}
    (h : processDevice (node path) headers path = .ok d) :
    newInfo node headers path = if d.2 = none then some d.1 else none := by
  obtain ⟨info, ids⟩ := d
  obtain ⟨hpath, hinfo⟩ := processDevice_eq_ok.mp h
  rw [newInfo, hinfo]
  cases ids with
  | none =>
    subst hpath
    rfl
  | some ids => rfl

/-- What the checks after another come to, on the information that has been collected. -/
theorem processAndVerifyDevices_eq_ok_iff {v : List DeviceInfo} :
    processAndVerifyDevices node headers poolUuid currentUuids paths = .ok v ↔
      ∃ devices, List.Forall₂ (fun path d => processDevice (node path) headers path = .ok d)
          paths.eraseDups devices ∧ (devices.map (·.1.devno)).Nodup ∧
        (∀ d ∈ devices, ∀ ids, d.2 = some ids →
          ids.poolUuid = poolUuid ∧ ids.deviceUuid ∈ currentUuids) ∧
        (∀ d ∈ devices, d.2 = none → minDevSize ≤ d.1.size) ∧ v = newInfos node headers paths := by
  have hsizes : ∀ devices : List (DeviceInfo × Option StratisIdentifiers),
      (∀ info ∈ devices.filterMap fun d => if d.2 = none then some d.1 else none,
        minDevSize ≤ info.size) ↔ ∀ d ∈ devices, d.2 = none → minDevSize ≤ d.1.size := by
    intro devices
    simp only [mem_filterMap]
    constructor
    · intro h d hd hnone
      exact h d.1 ⟨d, hd, if_pos hnone⟩
    · rintro h info ⟨d, hd, heq⟩
      split_ifs at heq with hnone
      cases heq
      exact h d hd hnone
  simp only [processAndVerifyDevices, Outcome.bind_eq_ok, processDevices_eq_ok,
    duplicateDeviceNumberMessages_eq_nil, checkDeviceIds_eq_ok, collect_checkSize, map_map]
  constructor
  · rintro ⟨devices, ⟨hall, hdup⟩, infos, ⟨hids, rfl⟩, rfl, hsize⟩
    refine ⟨devices, hall, hdup, hids, (hsizes devices).mp hsize, ?_⟩
    exact (filterMap_eq_of_forall₂ hall fun _ _ h => newInfo_eq h).symm
  · rintro ⟨devices, hall, hdup, hids, hsize, rfl⟩
    refine ⟨devices, ⟨hall, hdup⟩, _, ⟨hids, rfl⟩, ?_, (hsizes devices).mpr hsize⟩
    exact filterMap_eq_of_forall₂ hall fun _ _ h => newInfo_eq h

theorem processDevice_of_devInfo {path : String} {hwId : Option (StratisResult String)} {size : ℕ}
    {ids : Option StratisIdentifiers} {devno : Device}
    (h : devInfo (node path) headers path = .ok (hwId, size, ids, devno)) :
    processDevice (node path) headers path = .ok (⟨devno, path, hwId, size⟩, ids) :=
  processDevice_eq_ok.mpr ⟨rfl, h⟩

theorem acceptable_of_ok {v : List DeviceInfo}
    (h : processAndVerifyDevices node headers poolUuid currentUuids paths = .ok v) :
    Acceptable node headers poolUuid currentUuids paths := by
  obtain ⟨devices, hall, hdup, hids, hsize, -⟩ := processAndVerifyDevices_eq_ok_iff.mp h
  have hmem : ∀ {path}, path ∈ paths → path ∈ paths.eraseDups := mem_eraseDups.mpr
  -- the information in the list is the one that the path gives
  have hlisted : ∀ {path hwId size ids devno}, path ∈ paths →
      devInfo (node path) headers path = .ok (hwId, size, ids, devno) →
      ((⟨devno, path, hwId, size⟩ : DeviceInfo), ids) ∈ devices := by
    intro path hwId size ids devno hpath hinfo
    obtain ⟨d, hd, hprocess⟩ := exists_of_forall₂ hall (hmem hpath)
    rw [processDevice_of_devInfo hinfo] at hprocess
    cases hprocess
    exact hd
  constructor
  · intro path hpath
    obtain ⟨⟨info, ids⟩, -, hprocess⟩ := exists_of_forall₂ hall (hmem hpath)
    exact ⟨_, (processDevice_eq_ok.mp hprocess).2⟩
  · rintro p hp q hq hne ⟨hw, size, ids, devno⟩ ⟨hw', size', ids', devno'⟩ hr hs
    exact ne_of_forall₂ hall hdup (fun path d d' h h' => ok.inj (h.symm.trans h'))
      (hmem hp) (hmem hq) hne (processDevice_of_devInfo hr) (processDevice_of_devInfo hs)
  · intro path hpath hwId size ids devno hinfo
    exact hids _ (hlisted hpath hinfo) ids rfl
  · intro path hpath hwId size devno hinfo
    exact hsize _ (hlisted hpath hinfo) rfl

theorem Acceptable.ok (h : Acceptable node headers poolUuid currentUuids paths) :
    processAndVerifyDevices node headers poolUuid currentUuids paths =
      .ok (newInfos node headers paths) := by
  have hmem : ∀ {path}, path ∈ paths.eraseDups → path ∈ paths := mem_eraseDups.mp
  obtain ⟨devices, hcollect⟩ : ∃ devices, collect
      (fun path => processDevice (node path) headers path) paths.eraseDups = .ok devices := by
    refine exists_collect fun path hpath => ?_
    obtain ⟨⟨hwId, size, ids, devno⟩, hinfo⟩ := h.info path (hmem hpath)
    exact ⟨_, processDevice_of_devInfo hinfo⟩
  have hall := collect_eq_ok.mp hcollect
  -- every piece of information in the list comes from a path
  have hfrom : ∀ d ∈ devices, ∃ path ∈ paths,
      devInfo (node path) headers path = .ok (d.1.idWwn, d.1.size, d.2, d.1.devno) := by
    intro d hd
    obtain ⟨path, hpath, hprocess⟩ := exists_of_forall₂ hall.flip hd
    exact ⟨path, hmem hpath, (processDevice_eq_ok.mp hprocess).2⟩
  refine processAndVerifyDevices_eq_ok_iff.mpr ⟨devices, hall, ?_, ?_, ?_, rfl⟩
  · refine nodup_of_forall₂ hall (nodup_eraseDups paths) fun p hp q hq hne d d' hd hd' => ?_
    exact h.distinct p (hmem hp) q (hmem hq) hne _ _ (processDevice_eq_ok.mp hd).2
      (processDevice_eq_ok.mp hd').2
  · intro d hd ids hids
    obtain ⟨path, hpath, hinfo⟩ := hfrom d hd
    rw [hids] at hinfo
    exact h.included path hpath _ _ ids _ hinfo
  · intro d hd hnone
    obtain ⟨path, hpath, hinfo⟩ := hfrom d hd
    rw [hnone] at hinfo
    exact h.large path hpath _ _ _ hinfo

theorem newInfo_eq_some {path : String} {info : DeviceInfo} :
    newInfo node headers path = some info ↔ info.devnode = path ∧
      devInfo (node path) headers path = .ok (info.idWwn, info.size, none, info.devno) := by
  obtain ⟨devno, devnode, idWwn, size⟩ := info
  unfold newInfo
  rcases devInfo (node path) headers path with err | ⟨w, n, _ | ids, d⟩
  · simp
  · simp only [Option.some.injEq, DeviceInfo.mk.injEq, Except.ok.injEq, Prod.mk.injEq]
    constructor
    · rintro ⟨rfl, rfl, rfl, rfl⟩
      exact ⟨rfl, rfl, rfl, trivial, rfl⟩
    · rintro ⟨rfl, rfl, rfl, -, rfl⟩
      exact ⟨rfl, rfl, rfl, rfl⟩
  · simp

theorem mem_newInfos {info : DeviceInfo} :
    info ∈ newInfos node headers paths ↔ info.devnode ∈ paths ∧
      devInfo (node info.devnode) headers info.devnode =
        .ok (info.idWwn, info.size, none, info.devno) := by
  simp only [newInfos, mem_filterMap, mem_eraseDups, newInfo_eq_some]
  constructor
  · rintro ⟨path, hpath, rfl, hinfo⟩
    exact ⟨hpath, hinfo⟩
  · rintro ⟨hpath, hinfo⟩
    exact ⟨info.devnode, hpath, rfl, hinfo⟩

theorem devnodes_newInfos_sublist :
    ((newInfos node headers paths).map (·.devnode)).Sublist paths.eraseDups := by
  unfold newInfos
  induction paths.eraseDups with
  | nil => exact List.Sublist.slnil
  | cons path rest ih =>
    cases hpath : newInfo node headers path with
    | none =>
      rw [filterMap_cons_none hpath]
      exact ih.cons path
    | some info =>
      rw [filterMap_cons_some hpath, map_cons, (newInfo_eq_some.mp hpath).1]
      exact ih.cons_cons path

theorem Acceptable.nodup_devno (h : Acceptable node headers poolUuid currentUuids paths) :
    ((newInfos node headers paths).map (·.devno)).Nodup := by
  have hnodes : ((newInfos node headers paths).map (·.devnode)).Nodup :=
    (nodup_eraseDups paths).sublist devnodes_newInfos_sublist
  refine List.Nodup.map_on (fun info hinfo info' hinfo' heq => ?_) hnodes.of_map
  obtain ⟨hmem, hinfo⟩ := mem_newInfos.mp hinfo
  obtain ⟨hmem', hinfo'⟩ := mem_newInfos.mp hinfo'
  have hnode : info.devnode = info'.devnode := by
    by_contra hne
    exact h.distinct _ hmem _ hmem' hne _ _ hinfo hinfo' heq
  rw [← hnode, hinfo] at hinfo'
  obtain ⟨devno, devnode, idWwn, size⟩ := info
  obtain ⟨devno', devnode', idWwn', size'⟩ := info'
  simp only [Except.ok.injEq, Prod.mk.injEq] at hinfo'
  obtain ⟨rfl, rfl, -, rfl⟩ := hinfo'
  obtain rfl : devnode = devnode' := hnode
  rfl

end vetted

/-- Paths are accepted exactly if information can be had of each, no two are for the same device,
those with identifiers are in the pool and the tier, and the others are large enough. What is
returned is the information about the others, once each and in the order of the request, with
different device numbers. -/
theorem processAndVerifyDevices_exact (node : String → NodeIo) (headers : Headers)
    (poolUuid : PoolUuid) (currentUuids : List DevUuid) (paths : List String)
    (v : List DeviceInfo) :
    processAndVerifyDevices node headers poolUuid currentUuids paths = .ok v ↔
      Acceptable node headers poolUuid currentUuids paths ∧ v = newInfos node headers paths ∧
        (v.map (·.devno)).Nodup ∧ (v.map (·.devnode)).Nodup ∧
        (∀ info, info ∈ v ↔ info.devnode ∈ paths ∧
          devInfo (node info.devnode) headers info.devnode =
            .ok (info.idWwn, info.size, none, info.devno)) ∧
        (v.map (·.devnode)).Sublist paths.eraseDups := by
  constructor
  · intro h
    have hacc := acceptable_of_ok h
    obtain rfl : v = newInfos node headers paths := Outcome.ok.inj (h.symm.trans hacc.ok)
    exact ⟨hacc, rfl, hacc.nodup_devno, (nodup_eraseDups paths).sublist devnodes_newInfos_sublist,
      fun info => mem_newInfos, devnodes_newInfos_sublist⟩
  · rintro ⟨hacc, rfl, -⟩
    exact hacc.ok

end Stratisd.Devices
