import Stratisd.Thinpool.ThinIds
import Stratisd.Thinpool.ThinPoolSpec

/-! Filesystems over restarts. The table of the filesystems is rebuilt from the records on the
metadata volume and from what thin devices exist. A record that could not be removed stays behind
when its filesystem is destroyed; its thin device is gone, and its id is not given out again. -/

namespace Stratisd.Thinpool

open Run Run.Outcome Run.Stateful Engine Backstore List StratFilesystem ThinPool AList

inductive FsInput where
  | create (io : CreateIo) (name : String) (size : Option ℕ)
  | snapshot (io : SnapshotIo) (originUuid : FilesystemUuid) (name : String)
  | rename (saveFs : StratisResult Unit) (uuid : FilesystemUuid) (newName : String)
  | destroy (destroy rmFs : StratisResult Unit) (uuid : FilesystemUuid)
  | restart (io : ThinPool.SetupIo) (save : ThinPoolDevSave) (flexDevs : FlexDevsSave)
      (b : Backstore)

/-- A restart does not change the thin devices. If the thin pool can not be set up, everything is
as before for the next one. -/
def fsStep (overflowChecks : Bool) (s : ThinPool × Finset ℕ) :
    FsInput → (ThinPool × Finset ℕ) × StratisResult Unit
  | .create io name size => Stateful.ignore (ThinPool.createFilesystemOn io name size) s
  | .snapshot io originUuid name =>
    Stateful.ignore (ThinPool.snapshotFilesystemOn io originUuid name) s
  | .rename saveFs uuid newName =>
    Stateful.ignore (Stateful.beside (ThinPool.renameFilesystem saveFs uuid newName)) s
  | .destroy destroy rmFs uuid =>
    Stateful.ignore (ThinPool.destroyFilesystemOn destroy rmFs uuid) s
  | .restart io save flexDevs b =>
    match ThinPool.setup overflowChecks io save flexDevs b with
    | .ok t => ((t, s.2), .ok ())
    | .err e => (s, .err e)
    | .panic => (s, .panic)

/-- What a restart finds: the records in some order, if they can be read, and exactly those thin
devices that exist. -/
structure Truthful (s : ThinPool × Finset ℕ) (io : ThinPool.SetupIo) : Prop where
  saves : ∀ saves, io.filesystems = .ok saves → saves.Perm s.1.mdv.filesystems
  devices : ∀ save ∈ s.1.mdv.filesystems, (io.thinDev save.uuid).isSome ↔ save.thinId ∈ s.2

/-- The name and the UUID of a new filesystem are not in use, no call stops in the middle, and a
restart finds what there is. -/
def Admissible (s : ThinPool × Finset ℕ) : FsInput → Prop
  | .create io name _ =>
    s.1.filesystems.containsName name = false ∧ s.1.filesystems.getByUuid io.uuid = none
  | .snapshot io _ name =>
    s.1.filesystems.containsName name = false ∧ s.1.filesystems.getByUuid io.uuid = none
  | .rename saveFs _ _ => saveFs ≠ .panic
  | .destroy destroy _ _ => destroy ≠ .panic
  | .restart io _ _ _ => Truthful s io

/-- The name, the UUID and the thin id of every filesystem. -/
def rows (table : Table FilesystemUuid StratFilesystem) : List (String × FilesystemUuid × ℕ) :=
  table.iter.map fun e => (e.1, e.2.1, e.2.2.thinId)

variable {table : Table FilesystemUuid StratFilesystem}

theorem mem_rows {name : String} {uuid : FilesystemUuid} {id : ℕ} : (name, uuid, id) ∈ rows table ↔
      ∃ fs, table.getByUuid uuid = some (name, fs) ∧ fs.thinId = id := by
  simp only [rows, Table.iter, map_map, mem_map, Function.comp_apply, Prod.mk.injEq,
    Table.getByUuid]
  constructor
  · rintro ⟨⟨u, n, fs⟩, he, rfl, rfl, rfl⟩
    exact ⟨fs, mem_lookup_iff.mpr he, rfl⟩
  · rintro ⟨fs, hl, rfl⟩
    exact ⟨⟨uuid, name, fs⟩, mem_lookup_iff.mp hl, rfl, rfl, rfl⟩

theorem getByUuid_of_rows {table' : Table FilesystemUuid StratFilesystem}
    (h : ∀ r, r ∈ rows table → r ∈ rows table') {name : String} {uuid : FilesystemUuid}
    {fs : StratFilesystem} (hget : table.getByUuid uuid = some (name, fs)) :
    ∃ fs', table'.getByUuid uuid = some (name, fs') ∧ fs'.thinId = fs.thinId :=
  mem_rows.mp (h _ (mem_rows.mpr ⟨fs, hget, rfl⟩))

/-- What a restart builds on. A record without a filesystem has no thin device; all records have
different ids, which are not given out again. -/
structure Restorable (s : ThinPool × Finset ℕ) : Prop where
  consistent : s.1.filesystems.Consistent
  written : ∀ uuid save, s.1.mdv.saves.lookup uuid = some save →
    ∃ name fs, save = StratFilesystem.record fs name uuid
  recorded : ∀ uuid name fs, s.1.filesystems.getByUuid uuid = some (name, fs) →
    ∃ save, s.1.mdv.saves.lookup uuid = some save ∧ save.name = name ∧ save.thinId = fs.thinId
  exist : ∀ uuid save, s.1.mdv.saves.lookup uuid = some save →
    (save.thinId ∈ s.2 ↔ (s.1.filesystems.getByUuid uuid).isSome)
  old : ∀ uuid save, s.1.mdv.saves.lookup uuid = some save → save.thinId < s.1.idGen.nextId
  distinct : ∀ u v save save', s.1.mdv.saves.lookup u = some save →
    s.1.mdv.saves.lookup v = some save' → save.thinId = save'.thinId → u = v

namespace Restorable

variable {s s' : ThinPool × Finset ℕ}

theorem idle (h : Restorable s) (hi : Idle s s') : Restorable s' where
  consistent := hi.table.consistent h.consistent
  written := by
    rw [hi.saves]
    exact h.written
  recorded := by
    intro uuid name fs hget
    rw [hi.table.items] at hget
    rw [hi.saves]
    exact h.recorded uuid name fs hget
  exist := by
    intro uuid save hl
    rw [hi.saves] at hl
    rw [hi.ids _ (h.old uuid save hl), hi.table.items]
    exact h.exist uuid save hl
  old := by
    intro uuid save hl
    rw [hi.saves] at hl
    exact (h.old uuid save hl).trans_le hi.next
  distinct := by
    rw [hi.saves]
    exact h.distinct

variable {name : String} {uuid : FilesystemUuid} {fs : StratFilesystem}

theorem filed (h : Restorable s) (hf : Filed s s' name uuid fs)
    (hid : ∀ v save, v ≠ uuid → s.1.mdv.saves.lookup v = some save → save.thinId ≠ fs.thinId)
    (hmem : fs.thinId ∈ s'.2) (hids : ∀ n, n ≠ fs.thinId → (n ∈ s'.2 ↔ n ∈ s.2))
    (hlt : fs.thinId < s'.1.idGen.nextId) (hnext : s.1.idGen.nextId ≤ s'.1.idGen.nextId) :
    Restorable s' := by
  have hnew : s'.1.mdv.saves.lookup uuid = some (fs.record name uuid) := by
    rw [hf.saves, lookup_insert]
  have hold : ∀ v, v ≠ uuid → s'.1.mdv.saves.lookup v = s.1.mdv.saves.lookup v := by
    intro v hv
    rw [hf.saves, lookup_insert_ne hv]
  refine ⟨hf.consistent, ?_, ?_, ?_, ?_, ?_⟩
  · intro v save hl
    by_cases hv : v = uuid
    · subst hv
      exact ⟨name, fs, Option.some.inj (hl.symm.trans hnew)⟩
    · exact h.written v save (hold v hv ▸ hl)
  · intro v n f hget
    by_cases hv : v = uuid
    · subst hv
      obtain ⟨rfl, rfl⟩ := Prod.mk.inj (Option.some.inj (hf.found.symm.trans hget))
      exact ⟨_, hnew, rfl, rfl⟩
    · rw [hf.others v hv] at hget
      rw [hold v hv]
      exact h.recorded v n f hget
  · intro v save hl
    by_cases hv : v = uuid
    · subst hv
      obtain rfl := Option.some.inj (hnew.symm.trans hl)
      rw [hf.found]
      exact iff_of_true hmem rfl
    · rw [hold v hv] at hl
      rw [hids _ (hid v save hv hl), hf.others v hv]
      exact h.exist v save hl
  · intro v save hl
    by_cases hv : v = uuid
    · subst hv
      obtain rfl := Option.some.inj (hnew.symm.trans hl)
      exact hlt
    · exact (h.old v save (hold v hv ▸ hl)).trans_le hnext
  · intro u v save save' hu hv heq
    by_cases hu' : u = uuid <;> by_cases hv' : v = uuid
    · rw [hu', hv']
    · subst hu'
      obtain rfl := Option.some.inj (hnew.symm.trans hu)
      exact absurd heq.symm (hid v save' hv' (hold v hv' ▸ hv))
    · subst hv'
      obtain rfl := Option.some.inj (hnew.symm.trans hv)
      exact absurd heq (hid u save hu' (hold u hu' ▸ hu))
    · exact h.distinct u v save save' (hold u hu' ▸ hu) (hold v hv' ▸ hv) heq

theorem created (h : Restorable s) (hc : Created s s' name uuid fs) : Restorable s' := by
  refine h.filed hc.toFiled ?_ ?_ ?_ ?_ ?_
  · intro v save _ hl
    rw [hc.thinId]
    exact (h.old v save hl).ne
  · rw [hc.ids]
    exact Finset.mem_insert_self _ _
  · intro n hn
    rw [hc.ids, Finset.mem_insert, or_iff_right hn]
  · rw [hc.next, hc.thinId]
    exact Nat.lt_succ_self _
  · rw [hc.next]
    exact Nat.le_succ _

theorem renamed (h : Restorable s) (hr : Renamed s s' name uuid fs) : Restorable s' := by
  -- the filesystem has kept the id that it was recorded with
  obtain ⟨oldName, hbefore⟩ := hr.before
  obtain ⟨save₀, hsave₀, -, hid₀⟩ := h.recorded uuid oldName fs hbefore
  refine h.filed hr.toFiled ?_ ?_ ?_ ?_ (by rw [hr.next])
  · intro v save hv hl heq
    exact hv (h.distinct v uuid save save₀ hl hsave₀ (heq.trans hid₀.symm))
  · rw [hr.ids, ← hid₀, h.exist uuid save₀ hsave₀, hbefore]
    rfl
  · intro n _
    rw [hr.ids]
  · rw [hr.next, ← hid₀]
    exact h.old uuid save₀ hsave₀

theorem destroyed (h : Restorable s) (hd : Destroyed s s' uuid fs) : Restorable s' := by
  obtain ⟨name, hbefore⟩ := hd.before
  obtain ⟨save₀, hsave₀, -, hid₀⟩ := h.recorded uuid name fs hbefore
  -- records are at most lost
  have hsub : ∀ v save, s'.1.mdv.saves.lookup v = some save →
      s.1.mdv.saves.lookup v = some save := by
    intro v save hl
    rcases hd.saves with hs | hs
    · rwa [hs] at hl
    · rw [hs] at hl
      by_cases hv : v = uuid
      · rw [hv, lookup_erase] at hl
        cases hl
      · rwa [lookup_erase_ne hv] at hl
  have hold : ∀ v, v ≠ uuid → s'.1.mdv.saves.lookup v = s.1.mdv.saves.lookup v := by
    intro v hv
    rcases hd.saves with hs | hs
    · rw [hs]
    · rw [hs, lookup_erase_ne hv]
  refine ⟨hd.consistent, fun v save hl => h.written v save (hsub v save hl), ?_, ?_, ?_, ?_⟩
  · intro v n f hget
    by_cases hv : v = uuid
    · rw [hv, hd.gone] at hget
      cases hget
    · rw [hd.others v hv] at hget
      rw [hold v hv]
      exact h.recorded v n f hget
  · intro v save hl
    by_cases hv : v = uuid
    · subst hv
      obtain rfl := Option.some.inj ((hsub v save hl).symm.trans hsave₀)
      rw [hd.ids, hd.gone, hid₀]
      exact iff_of_false (Finset.notMem_erase _ _) (by simp)
    · have hne : save.thinId ≠ fs.thinId := by
        intro heq
        exact hv (h.distinct v uuid save save₀ (hsub v save hl) hsave₀ (heq.trans hid₀.symm))
      rw [hd.ids, Finset.mem_erase, and_iff_right hne, hd.others v hv]
      exact h.exist v save (hsub v save hl)
  · intro v save hl
    rw [hd.next]
    exact h.old v save (hsub v save hl)
  · exact fun u v save save' hu hv => h.distinct u v save save' (hsub u save hu) (hsub v save' hv)

end Restorable

/-! ### Setting up -/

theorem StratFilesystem.setup_record (fs : StratFilesystem) (name : String) (uuid : FilesystemUuid)
    (device : Device) :
    ∃ fs', setup (some device) (fs.record name uuid) = .ok fs' ∧
      fs'.thinId = fs.thinId := by
  have hsecs : asI64 (fs.record name uuid).created = fs.created.secs := by
    have hlt := fs.created.secs_lt
    have hge := fs.created.secs_ge
    simp only [timestampSecsBound, timestampSecsMin] at hlt hge
    simp only [asI64, record, i64Max, u64Bound]
    split_ifs <;> omega
  have hsome : DateTime.ofTimestamp fs.created.secs 0 =
      some ⟨fs.created.secs, 0, fs.created.secs_lt, fs.created.secs_ge, by decide⟩ := by
    rw [DateTime.ofTimestamp, dif_pos ⟨fs.created.secs_lt, fs.created.secs_ge, by decide⟩]
  rw [setup, ofOption_some, ok_bind, hsecs, hsome]
  exact ⟨_, rfl, rfl⟩

theorem setupFilesystems_ok {io : ThinPool.SetupIo} {saves : List FilesystemSave}
    (h : ∀ save ∈ saves, ∃ name uuid fs, save = record fs name uuid) :
    ∃ found, setupFilesystems io saves = .ok found ∧
      found.map (·.1) = saves.filter (fun save => (io.thinDev save.uuid).isSome) ∧
      ∀ f ∈ found, f.2.thinId = f.1.thinId := by
  induction saves with
  | nil => exact ⟨[], rfl, rfl, by simp⟩
  | cons save saves ih =>
    obtain ⟨found, hfound, hmap, hids⟩ := ih fun s hs => h s (mem_cons_of_mem _ hs)
    obtain ⟨name, uuid, fs, rfl⟩ := h save mem_cons_self
    rw [setupFilesystems]
    cases hdev : io.thinDev (fs.record name uuid).uuid with
    | none =>
      refine ⟨found, hfound, ?_, hids⟩
      rw [filter_cons_of_neg (by simp [hdev]), hmap]
    | some device =>
      obtain ⟨fs', hfs', hid⟩ := setup_record fs name uuid device
      rw [hfs']
      refine ⟨(fs.record name uuid, fs') :: found, ?_, ?_, ?_⟩
      · rw [hfound]
        rfl
      · rw [filter_cons_of_pos (by simp [hdev]), map_cons, hmap]
      · intro f hf
        rcases mem_cons.mp hf with rfl | hf
        · exact hid
        · exact hids f hf

/-- Filesystems with different names and UUIDs are all filed. -/
theorem insertFilesystems_ok (ht : table.Consistent)
    {found : List (FilesystemSave × StratFilesystem)} (hnames : (found.map (·.1.name)).Nodup)
    (huuids : (found.map (·.1.uuid)).Nodup)
    (hfree : ∀ f ∈ found, table.containsName f.1.name = false ∧ table.getByUuid f.1.uuid = none) :
    ∃ table', insertFilesystems table found = .ok table' ∧ table'.Consistent ∧
      ∀ uuid name fs, table'.getByUuid uuid = some (name, fs) ↔
        table.getByUuid uuid = some (name, fs) ∨
          ∃ f ∈ found, f.1.uuid = uuid ∧ f.1.name = name ∧ f.2 = fs := by
  induction found generalizing table with
  | nil => exact ⟨table, rfl, ht, by simp⟩
  | cons f rest ih =>
    obtain ⟨save, fs⟩ := f
    obtain ⟨hname, huuid⟩ := hfree (save, fs) mem_cons_self
    rw [map_cons, nodup_cons] at hnames huuids
    obtain ⟨table₁, hinsert, hi⟩ := ht.insert_fresh (ε := StratisError) hname huuid fs
    obtain ⟨hothers, hother_names⟩ := hi.of_fresh ht hname huuid
    -- the rest have other names and other UUIDs
    have hrest : ∀ f ∈ rest, table₁.containsName f.1.name = false ∧
        table₁.getByUuid f.1.uuid = none := by
      intro f hf
      have hn : f.1.name ≠ save.name := fun he => hnames.1 (he ▸ mem_map_of_mem hf)
      have hu : f.1.uuid ≠ save.uuid := fun he => huuids.1 (he ▸ mem_map_of_mem hf)
      obtain ⟨hname', huuid'⟩ := hfree f (mem_cons_of_mem _ hf)
      rw [Table.containsName, hother_names _ hn, hothers _ hu]
      exact ⟨hname', huuid'⟩
    obtain ⟨table', heq, hcons, hget⟩ := ih (hi.consistent ht) hnames.2 huuids.2 hrest
    refine ⟨table', ?_, hcons, fun uuid name x => ?_⟩
    · rw [insertFilesystems, hinsert]
      exact heq
    · have hone : table₁.getByUuid uuid = some (name, x) ↔
          table.getByUuid uuid = some (name, x) ∨
            save.uuid = uuid ∧ save.name = name ∧ fs = x := by
        by_cases hu : uuid = save.uuid
        · rw [hu, hi.found, huuid]
          simp
        · rw [hothers uuid hu]
          simp [Ne.symm hu]
      rw [hget, hone]
      simp only [mem_cons, exists_eq_or_imp, or_assoc]

namespace Restorable

variable {s : ThinPool × Finset ℕ} {uuid : FilesystemUuid} {save : FilesystemSave}

theorem uuid_eq (h : Restorable s) (hl : s.1.mdv.saves.lookup uuid = some save) :
    save.uuid = uuid := by
  obtain ⟨name, fs, rfl⟩ := h.written uuid save hl
  rfl

theorem mem_filesystems (h : Restorable s) :
    save ∈ s.1.mdv.filesystems ↔ s.1.mdv.saves.lookup save.uuid = some save := by
  rw [MetadataVol.filesystems, mem_map]
  constructor
  · rintro ⟨⟨uuid, save⟩, he, rfl⟩
    have hl := mem_lookup_iff.mpr he
    rw [h.uuid_eq hl]
    exact hl
  · exact fun hl => ⟨⟨save.uuid, save⟩, mem_lookup_iff.mp hl, rfl⟩

theorem nodup_uuids (h : Restorable s) : (s.1.mdv.filesystems.map (·.uuid)).Nodup := by
  have hkeys : s.1.mdv.filesystems.map (·.uuid) = s.1.mdv.saves.keys := by
    rw [MetadataVol.filesystems, map_map]
    refine map_congr_left fun e he => ?_
    exact h.uuid_eq (mem_lookup_iff.mpr he)
  rw [hkeys]
  exact s.1.mdv.saves.keys_nodup

theorem found_of_exist (h : Restorable s) (hl : s.1.mdv.saves.lookup save.uuid = some save)
    (hid : save.thinId ∈ s.2) :
    ∃ fs, s.1.filesystems.getByUuid save.uuid = some (save.name, fs) ∧
      fs.thinId = save.thinId := by
  obtain ⟨⟨name, fs⟩, hget⟩ := Option.isSome_iff_exists.mp ((h.exist _ _ hl).mp hid)
  obtain ⟨save', hl', rfl, hid'⟩ := h.recorded _ _ _ hget
  obtain rfl := Option.some.inj (hl.symm.trans hl')
  exact ⟨fs, hget, hid'.symm⟩

theorem eq_of_name_eq (h : Restorable s) {save' : FilesystemSave}
    (hl : s.1.mdv.saves.lookup save.uuid = some save) (hid : save.thinId ∈ s.2)
    (hl' : s.1.mdv.saves.lookup save'.uuid = some save') (hid' : save'.thinId ∈ s.2)
    (hname : save.name = save'.name) : save = save' := by
  obtain ⟨fs, hget, -⟩ := h.found_of_exist hl hid
  obtain ⟨fs', hget', -⟩ := h.found_of_exist hl' hid'
  have huuid := h.consistent.uuid_unique hget (hname ▸ hget')
  rw [← huuid] at hl'
  exact Option.some.inj (hl.symm.trans hl')

theorem lookup_of_perm (h : Restorable s) {saves : List FilesystemSave}
    (hperm : saves.Perm s.1.mdv.filesystems) :
    (saves.map fun r => (⟨r.uuid, r⟩ : Σ _, FilesystemSave)).toAList.lookup uuid = some save ↔
      s.1.mdv.saves.lookup uuid = some save := by
  have hnodup : (saves.map fun r => (⟨r.uuid, r⟩ : Σ _, FilesystemSave)).NodupKeys := by
    rw [List.NodupKeys, List.keys, map_map]
    exact (hperm.map _).nodup_iff.mpr h.nodup_uuids
  rw [lookup_to_alist, ← Option.mem_def, mem_dlookup_iff hnodup, mem_map]
  constructor
  · rintro ⟨r, hr, heq⟩
    cases heq
    exact h.mem_filesystems.mp (hperm.mem_iff.mp hr)
  · intro hl
    obtain rfl := h.uuid_eq hl
    exact ⟨save, hperm.mem_iff.mpr (h.mem_filesystems.mpr hl), rfl⟩

theorem rebuilt (h : Restorable s) {io : ThinPool.SetupIo} (hio : Truthful s io)
    {saves : List FilesystemSave} (hsaves : io.filesystems = .ok saves) :
    ∃ found table, setupFilesystems io saves = .ok found ∧
      insertFilesystems Table.default found = .ok table ∧ table.Consistent ∧
      ∀ r, r ∈ rows table ↔ r ∈ rows s.1.filesystems := by
  have hperm := hio.saves saves hsaves
  have hmem : ∀ save, save ∈ saves ↔ s.1.mdv.saves.lookup save.uuid = some save := fun save =>
    hperm.mem_iff.trans h.mem_filesystems
  have huuids : (saves.map (·.uuid)).Nodup := (hperm.map _).nodup_iff.mpr h.nodup_uuids
  obtain ⟨found, hfound, hmap, hids⟩ := @setupFilesystems_ok io saves fun save hs => by
    obtain ⟨name, fs, heq⟩ := h.written _ save ((hmem save).mp hs)
    exact ⟨name, save.uuid, fs, heq⟩
  -- those that are set up are the filesystems in the table
  have hlive : ∀ save, save ∈ found.map (·.1) ↔
      s.1.mdv.saves.lookup save.uuid = some save ∧ save.thinId ∈ s.2 := by
    intro save
    rw [hmap, mem_filter, hmem]
    refine and_congr_right fun hl => ?_
    exact hio.devices save (h.mem_filesystems.mpr hl)
  have hsub : (found.map (·.1)).Sublist saves := hmap ▸ filter_sublist
  have hnodup : ((found.map (·.1)).map (·.uuid)).Nodup := huuids.sublist (hsub.map _)
  have hnames : ((found.map (·.1)).map (·.name)).Nodup := by
    refine (hnodup.of_map _).map_on fun save hs save' hs' heq => ?_
    obtain ⟨hl, hid⟩ := (hlive save).mp hs
    obtain ⟨hl', hid'⟩ := (hlive save').mp hs'
    exact h.eq_of_name_eq hl hid hl' hid' heq
  rw [map_map] at hnodup hnames
  obtain ⟨table, htable, hcons, hget⟩ := insertFilesystems_ok Table.consistent_default hnames hnodup
    fun f _ => ⟨rfl, rfl⟩
  refine ⟨found, table, hfound, htable, hcons, ?_⟩
  rintro ⟨name, uuid, id⟩
  rw [mem_rows, mem_rows]
  constructor
  · rintro ⟨fs, hfs, rfl⟩
    rcases (hget uuid name fs).mp hfs with hnone | ⟨f, hf, rfl, rfl, rfl⟩
    · cases hnone
    · obtain ⟨hl, hid⟩ := (hlive f.1).mp (mem_map_of_mem hf)
      obtain ⟨fs₀, hget₀, hid₀⟩ := h.found_of_exist hl hid
      exact ⟨fs₀, hget₀, hid₀.trans (hids f hf).symm⟩
  · rintro ⟨fs₀, hget₀, rfl⟩
    obtain ⟨save, hl, rfl, hid⟩ := h.recorded uuid name fs₀ hget₀
    obtain rfl := h.uuid_eq hl
    have hexist : save.thinId ∈ s.2 := (h.exist _ save hl).mpr (by rw [hget₀]; rfl)
    obtain ⟨f, hf, rfl⟩ := mem_map.mp ((hlive save).mpr ⟨hl, hexist⟩)
    exact ⟨f.2, (hget _ _ _).mpr (Or.inr ⟨f, hf, rfl, rfl, rfl⟩), (hids f hf).trans hid⟩

variable {overflowChecks : Bool}

theorem setup (h : Restorable s) {io : ThinPool.SetupIo} (hio : Truthful s io)
    {save : ThinPoolDevSave} {flexDevs : FlexDevsSave} {b : Backstore} {t : ThinPool}
    (ht : setup overflowChecks io save flexDevs b = .ok t) :
    Restorable (t, s.2) ∧ ∀ r, r ∈ rows t.filesystems ↔ r ∈ rows s.1.filesystems := by
  obtain ⟨saves, found, hsaves, hfound, htable, hgen, hmdv⟩ := setup_filesystems ht
  obtain ⟨found', table, hfound', htable', hcons, hrows⟩ := h.rebuilt hio hsaves
  obtain rfl := ok.inj (hfound.symm.trans hfound')
  obtain rfl := ok.inj (htable.symm.trans htable')
  have hperm := hio.saves saves hsaves
  have hlookup : ∀ uuid r, t.mdv.saves.lookup uuid = some r ↔ s.1.mdv.saves.lookup uuid = some r := by
    intro uuid r
    rw [hmdv]
    exact h.lookup_of_perm hperm
  have hsome : ∀ uuid, (t.filesystems.getByUuid uuid).isSome =
      (s.1.filesystems.getByUuid uuid).isSome := by
    intro uuid
    rw [Bool.eq_iff_iff, Option.isSome_iff_exists, Option.isSome_iff_exists]
    constructor
    · rintro ⟨⟨name, fs⟩, hget⟩
      obtain ⟨fs', hget', -⟩ := getByUuid_of_rows (fun r => (hrows r).mp) hget
      exact ⟨_, hget'⟩
    · rintro ⟨⟨name, fs⟩, hget⟩
      obtain ⟨fs', hget', -⟩ := getByUuid_of_rows (fun r => (hrows r).mpr) hget
      exact ⟨_, hget'⟩
  refine ⟨⟨hcons, ?_, ?_, ?_, ?_, ?_⟩, hrows⟩
  · exact fun uuid r hl => h.written uuid r ((hlookup uuid r).mp hl)
  · intro uuid name fs hget
    obtain ⟨fs', hget', hid⟩ := getByUuid_of_rows (fun r => (hrows r).mp) hget
    obtain ⟨r, hl, hname, hid'⟩ := h.recorded uuid name fs' hget'
    exact ⟨r, (hlookup uuid r).mpr hl, hname, hid'.trans hid⟩
  · intro uuid r hl
    rw [hsome]
    exact h.exist uuid r ((hlookup uuid r).mp hl)
  · intro uuid r hl
    rw [hgen]
    refine ThinDevIdPool.lt_newFromIds (mem_map_of_mem (hperm.mem_iff.mpr ?_))
    have hl' := (hlookup uuid r).mp hl
    rw [h.mem_filesystems, h.uuid_eq hl']
    exact hl'
  · intro u v r r' hu hv
    exact h.distinct u v r r' ((hlookup u r).mp hu) ((hlookup v r').mp hv)

theorem new {io : ThinPool.NewIo} {params : ThinPoolSizeParams} {size : ℕ} {b b' : Backstore}
    {t : ThinPool} (ht : new overflowChecks io params size b = (b', .ok t)) :
    Restorable (t, ∅) := by
  obtain ⟨htable, hsaves⟩ := new_filesystems ht
  have hnone : ∀ uuid save, t.mdv.saves.lookup uuid ≠ some save := by
    intro uuid save hl
    rw [hsaves, lookup_empty] at hl
    cases hl
  refine ⟨?_, ?_, ?_, ?_, ?_, ?_⟩
  · rw [htable]
    exact Table.consistent_default
  · exact fun uuid save hl => absurd hl (hnone uuid save)
  · intro uuid name fs hget
    rw [htable] at hget
    cases hget
  · exact fun uuid save hl => absurd hl (hnone uuid save)
  · exact fun uuid save hl => absurd hl (hnone uuid save)
  · exact fun u v save save' hu => absurd hu (hnone u save)

theorem ends_new (h : Restorable s) {α : Type} {p : WithIds α} {name : String}
    (hp : Triple (fun s' => s' = s) p
      (fun _ s' => ∃ fs, Created s s' name uuid fs) (Idle s)) :
    Restorable (ignore p s).1 ∧ ∀ e, (ignore p s).2 = .err e →
      Table.Same s.1.filesystems (ignore p s).1.1.filesystems := by
  have hends := hp s rfl
  rw [ignore, bind_apply]
  rcases hr : p s with ⟨s', a | e | _⟩ <;> rw [hr] at hends
  · obtain ⟨fs, hc⟩ := hends
    exact ⟨h.created hc, fun _ he => by cases he⟩
  · exact ⟨h.idle hends, fun _ _ => hends.table⟩
  · exact ⟨h.idle hends, fun _ he => by cases he⟩

theorem ends_change (h : Restorable s) {α : Type} {p : WithIds α} {C : ThinPool × Finset ℕ → Prop}
    (hp : Idle s (p s).1 ∨ C (p s).1 ∧ ∀ e, (p s).2 ≠ .err e) (hC : ∀ s', C s' → Restorable s') :
    Restorable (ignore p s).1 ∧ ∀ e, (ignore p s).2 = .err e →
      Table.Same s.1.filesystems (ignore p s).1.1.filesystems := by
  rw [ignore_fst]
  rcases hp with hidle | ⟨hc, hne⟩
  · exact ⟨h.idle hidle, fun _ _ => hidle.table⟩
  · refine ⟨hC _ hc, fun e he => ?_⟩
    rcases bind_eq_err.mp (Prod.ext rfl he) with herr | ⟨_, _, -, herr⟩
    · exact absurd (congrArg Prod.snd herr) (hne e)
    · cases herr

theorem step (h : Restorable s) {i : FsInput} (hi : Admissible s i) :
    Restorable (fsStep overflowChecks s i).1 ∧
      ∀ e, (fsStep overflowChecks s i).2 = .err e →
        Table.Same s.1.filesystems (fsStep overflowChecks s i).1.1.filesystems := by
  cases i with
  | create io name size =>
    exact h.ends_new (triple_createFilesystemOn h.consistent hi.1 hi.2 size)
  | snapshot io originUuid name =>
    exact h.ends_new (triple_snapshotFilesystemOn h.consistent hi.1 hi.2 originUuid)
  | rename saveFs uuid newName =>
    exact h.ends_change (C := fun s' => ∃ fs, Renamed s s' newName uuid fs)
      (renameFilesystem_cases h.consistent hi uuid newName) fun _ ⟨_, hr⟩ => h.renamed hr
  | destroy destroy rmFs uuid =>
    exact h.ends_change (C := fun s' => ∃ fs, Destroyed s s' uuid fs)
      (destroyFilesystemOn_cases h.consistent hi rmFs uuid) fun _ ⟨_, hd⟩ => h.destroyed hd
  | restart io save flexDevs b =>
    simp only [fsStep]
    split
    · rename_i t ht
      exact ⟨(h.setup hi ht).1, nofun⟩
    · exact ⟨h, fun _ _ => Table.Same.refl _⟩
    · exact ⟨h, nofun⟩

theorem nodup_thinIds (h : Restorable s) : ((rows s.1.filesystems).map (·.2.2)).Nodup := by
  rw [rows, Table.iter, map_map, map_map]
  refine List.Nodup.map_on ?_ (s.1.filesystems.items.nodupKeys.nodup)
  rintro ⟨u, name, fs⟩ hu ⟨v, name', fs'⟩ hv heq
  have hget := mem_lookup_iff.mpr hu
  have hget' := mem_lookup_iff.mpr hv
  obtain ⟨save, hl, -, hid⟩ := h.recorded u name fs hget
  obtain ⟨save', hl', -, hid'⟩ := h.recorded v name' fs' hget'
  obtain rfl := h.distinct u v save save' hl hl' (hid.trans (heq.trans hid'.symm))
  obtain ⟨rfl, rfl⟩ := Prod.mk.inj (Option.some.inj (hget.symm.trans hget'))
  rfl

end Restorable

/-- A filesystem that can be made. -/
def makes (uuid : FilesystemUuid) : CreateIo :=
  ⟨⟨uuid, some ⟨253, 5⟩, .ok (), Metadata.MDAHeader.epoch, .ok ()⟩, false, .ok ()⟩

/-- A filesystem is destroyed, but its record can not be removed; another one gets its name. -/
def reuse : List FsInput :=
  [.create (makes ⟨1⟩) "home" none, .destroy (.ok ()) (.err .io) ⟨1⟩,
    .create (makes ⟨2⟩) "home" none]

end Stratisd.Thinpool
