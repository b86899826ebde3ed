import Stratisd.Thinpool.Restart

/-! Thin devices that are left behind. A call that fails is to leave the thin devices as they
were. Making a filesystem destroys the thin device again if nothing can be made of it; a snapshot
that fails after its thin device has been made does not. -/

namespace Stratisd.Thinpool

open Run Run.Outcome Run.Stateful Engine ThinPool StratFilesystem

theorem insert_ne_err {U T : Type} [DecidableEq U] (t : Table U T) (name : String) (uuid : U)
    (item : T) (e : StratisError) : t.insert name uuid item ≠ .err e := by
  unfold Table.insert
  dsimp only
  split
  · split_ifs
    · simp
    · simp
    · simp
    · refine bind_ne_err (expect_ne_err _ e) fun _ =>
        bind_ne_err (expect_ne_err _ e) fun _ => ?_
      split_ifs <;> simp
  · refine bind_ne_err (expect_ne_err _ e) fun _ => ?_
    split_ifs <;> simp
  · refine bind_ne_err (expect_ne_err _ e) fun _ => ?_
    split_ifs <;> simp
  · simp

/-- Nothing fails in making a snapshot once there is an id for it. -/
def SnapshotIo.Succeeds (io : SnapshotIo) : Prop :=
  (∃ device, io.thinDev = .ok device) ∧
    StratFilesystem.cleanIfMounted io.toFsSnapshotIo = .ok () ∧ io.setUuid = .ok () ∧
      io.saveFs = .ok ()

namespace ThinPool

variable {s : ThinPool × Finset ℕ} {cleanUp : Finset ℕ → Finset ℕ} {saveFs : StratisResult Unit}

theorem fileNew_err {name : String} {uuid : FilesystemUuid} {fs : StratFilesystem}
    {e : StratisError} (he : (fileNew cleanUp saveFs name uuid fs s).2 = .err e) :
    saveFs ≠ .ok () ∧ (fileNew cleanUp saveFs name uuid fs s).1.2 = cleanUp s.2 := by
  cases saveFs with
  | err e' => exact ⟨nofun, rfl⟩
  | panic => cases he
  | ok _ =>
    exfalso
    obtain ⟨s', herr⟩ : ∃ s', fileNew cleanUp (.ok ()) name uuid fs s = (s', .err e) :=
      ⟨_, Prod.ext rfl he⟩
    rcases bind_eq_err.mp herr with herr | ⟨s₁, _, -, herr⟩
    · cases herr
    rcases bind_eq_err.mp herr with herr | ⟨s₂, _, -, herr⟩
    · rw [beside, within, insertFilesystem, get_bind] at herr
      cases hins : s₁.1.filesystems.insert name uuid fs with
      | ok r => rw [hins] at herr; cases herr
      | panic => rw [hins] at herr; cases herr
      | err e' => exact insert_ne_err _ _ _ _ e' hins
    · rw [beside_get_bind] at herr
      cases hget : s₂.1.filesystems.getByUuid uuid <;> rw [hget] at herr <;> cases herr

theorem saveFs_of_fileNew_ok {name : String} {uuid u : FilesystemUuid} {fs : StratFilesystem}
    (hok : (fileNew cleanUp saveFs name uuid fs s).2 = .ok u) : saveFs = .ok () := by
  cases saveFs with
  | ok _ => rfl
  | err _ => cases hok
  | panic => cases hok

theorem fileNew_ne_panic (htable : s.1.filesystems.Consistent) (hsave : saveFs ≠ .panic)
    (name : String) (uuid : FilesystemUuid) (fs : StratFilesystem) :
    (fileNew cleanUp saveFs name uuid fs s).2 ≠ .panic := by
  cases saveFs with
  | ok _ =>
    obtain ⟨table, -, heq⟩ := @fileNew_ok cleanUp s htable name uuid fs
    rw [heq]
    nofun
  | err _ => nofun
  | panic => exact absurd rfl hsave

theorem fileNew_ids (saveFs : StratisResult Unit) (name : String) (uuid : FilesystemUuid)
    (fs : StratFilesystem) : (fileNew (fun ids => ids) saveFs name uuid fs s).1.2 = s.2 := by
  have hbeside {α : Type} (q : Stateful ThinPool StratisError α) :
      Keeps (fun x => x.2 = s.2) (beside q) :=
    keeps_beside (· = s.2) q
  have hsave := Keeps.noteErr (I := (· = s.2)) (hbeside (saveRecord saveFs name uuid fs))
    fun _ h => h
  have hkeeps : Keeps (fun x => x.2 = s.2)
      (fileNew (fun ids => ids) saveFs name uuid fs) :=
    hsave.bind fun _ => (hbeside _).bind fun _ => (hbeside _).bind fun _ =>
      (keeps_lift _).bind fun _ => keeps_pure _
  exact hkeeps s rfl

theorem beside_newId (s : ThinPool × Finset ℕ) : (beside newId : WithIds ℕ) s =
    if s.1.idGen.nextId < thinIdBound then
      (({ s.1 with idGen := ⟨s.1.idGen.nextId + 1⟩ }, s.2), .ok s.1.idGen.nextId)
    else (s, .err .dm) := by
  rw [beside, within, newId_eq]
  split_ifs <;> rfl

/-! ### Making a filesystem -/

section create

variable {io : CreateIo} {name : String} {size : Option ℕ}

theorem createFilesystemOn_eq (hlt : s.1.idGen.nextId < thinIdBound) :
    createFilesystemOn io name size s =
      (initializeFsOn io size s.1.idGen.nextId >>=
          fileNew (destroyed io.destroy s.1.idGen.nextId) io.saveFs name io.uuid)
        ({ s.1 with idGen := ⟨s.1.idGen.nextId + 1⟩ }, s.2) := by
  have hid := beside_newId s
  rw [if_pos hlt] at hid
  rw [createFilesystemOn, bind_of_eq hid]

theorem createFilesystemOn_full (hlt : ¬ s.1.idGen.nextId < thinIdBound) :
    createFilesystemOn io name size s = (s, .err .dm) := by
  have hid := beside_newId s
  rw [if_neg hlt] at hid
  rw [createFilesystemOn, bind_of_err (congrArg Prod.snd hid), hid]

theorem initializeFsOn_none {id : ℕ} (hdev : io.thinDev = none) :
    initializeFsOn io size id s = ((s.1, made io.leftBehind id s.2), .err .dm) := by
  simp only [initializeFsOn, hdev, Option.isSome_none, Bool.false_or]
  rfl

theorem initializeFsOn_some {id : ℕ} {device : Device} (hdev : io.thinDev = some device) :
    initializeFsOn io size id s =
      match io.createFs with
      | .ok _ => ((s.1, insert id s.2), .ok ⟨device, id, size.getD defaultThinDevSize, io.now⟩)
      | .err e => ((s.1, destroyed io.destroy id (insert id s.2)), .err e)
      | .panic => ((s.1, insert id s.2), .panic) := by
  simp only [initializeFsOn, hdev, Option.isSome_some, Bool.true_or]
  cases io.createFs <;> rfl

theorem createFilesystemOn_err {e : StratisError}
    (he : (createFilesystemOn io name size s).2 = .err e) :
    (createFilesystemOn io name size s).1.2 =
      if s.1.idGen.nextId < thinIdBound then
        if io.thinDev.isSome then
          destroyed io.destroy s.1.idGen.nextId (insert s.1.idGen.nextId s.2)
        else made io.leftBehind s.1.idGen.nextId s.2
      else s.2 := by
  by_cases hlt : s.1.idGen.nextId < thinIdBound
  · rw [if_pos hlt]
    rw [createFilesystemOn_eq hlt, bind_apply] at he ⊢
    cases hdev : io.thinDev with
    | none =>
      rw [initializeFsOn_none hdev]
      rfl
    | some device =>
      rw [initializeFsOn_some hdev] at he ⊢
      cases hcreate : io.createFs with
      | ok _ =>
        rw [hcreate] at he
        exact (fileNew_err he).2
      | err _ => rfl
      | panic =>
        rw [hcreate] at he
        cases he
  · rw [createFilesystemOn_full hlt, if_neg hlt]

theorem createFilesystemOn_ne_panic (htable : s.1.filesystems.Consistent)
    (hfs : io.createFs ≠ .panic) (hsave : io.saveFs ≠ .panic) :
    (createFilesystemOn io name size s).2 ≠ .panic := by
  by_cases hlt : s.1.idGen.nextId < thinIdBound
  · rw [createFilesystemOn_eq hlt, bind_apply]
    cases hdev : io.thinDev with
    | none =>
      rw [initializeFsOn_none hdev]
      nofun
    | some device =>
      rw [initializeFsOn_some hdev]
      cases hcreate : io.createFs with
      | ok _ =>
        apply fileNew_ne_panic _ hsave
        exact htable
      | err _ => nofun
      | panic => exact absurd hcreate hfs
  · rw [createFilesystemOn_full hlt]
    nofun

end create

/-! ### Making a snapshot -/

section snapshot

variable {io : SnapshotIo} {originUuid : FilesystemUuid} {name : String}

theorem snapshotFilesystemOn_eq (hlt : s.1.idGen.nextId < thinIdBound) {fsName : String}
    {origin : StratFilesystem} (hget : s.1.filesystems.getByUuid originUuid = some (fsName, origin)) :
    snapshotFilesystemOn io originUuid name s =
      (Stateful.lift (origin.snapshot io.toFsSnapshotIo name fsName s.1.idGen.nextId) >>=
          fileNew (fun ids => ids) io.saveFs name io.uuid)
        ({ s.1 with idGen := ⟨s.1.idGen.nextId + 1⟩ }, made io.exist s.1.idGen.nextId s.2) := by
  have hid := beside_newId s
  rw [if_pos hlt] at hid
  rw [snapshotFilesystemOn, bind_of_eq hid, beside_get_bind]
  simp only [hget, note_bind]

theorem snapshotFilesystemOn_none (h : ¬ (s.1.idGen.nextId < thinIdBound ∧
    (s.1.filesystems.getByUuid originUuid).isSome)) :
    (snapshotFilesystemOn io originUuid name s).1.2 = s.2 ∧
      ∃ e, (snapshotFilesystemOn io originUuid name s).2 = .err e := by
  have hid := beside_newId s
  by_cases hlt : s.1.idGen.nextId < thinIdBound
  · rw [if_pos hlt] at hid
    rw [snapshotFilesystemOn, bind_of_eq hid, beside_get_bind]
    have hget : s.1.filesystems.getByUuid originUuid = none := by
      simpa using fun hsome => h ⟨hlt, hsome⟩
    simp only [hget]
    exact ⟨rfl, _, rfl⟩
  · rw [if_neg hlt] at hid
    rw [snapshotFilesystemOn, bind_of_err (congrArg Prod.snd hid), hid]
    exact ⟨rfl, _, rfl⟩

/-- The thin device of a snapshot stays, whatever the call returns. -/
theorem snapshotFilesystemOn_ids (io : SnapshotIo) (originUuid : FilesystemUuid) (name : String) :
    (snapshotFilesystemOn io originUuid name s).1.2 =
      if s.1.idGen.nextId < thinIdBound ∧ (s.1.filesystems.getByUuid originUuid).isSome then
        made io.exist s.1.idGen.nextId s.2
      else s.2 := by
  split_ifs with h
  · obtain ⟨hlt, hsome⟩ := h
    obtain ⟨⟨fsName, origin⟩, hget⟩ := Option.isSome_iff_exists.mp hsome
    rw [snapshotFilesystemOn_eq hlt hget, bind_apply, lift_apply]
    cases origin.snapshot io.toFsSnapshotIo name fsName s.1.idGen.nextId with
    | ok fs => exact fileNew_ids io.saveFs name io.uuid fs
    | err e => rfl
    | panic => rfl
  · exact (snapshotFilesystemOn_none h).1

theorem succeeds_of_snapshotFilesystemOn_ok {u : FilesystemUuid}
    (hok : (snapshotFilesystemOn io originUuid name s).2 = .ok u) : io.Succeeds := by
  by_cases h : s.1.idGen.nextId < thinIdBound ∧ (s.1.filesystems.getByUuid originUuid).isSome
  · obtain ⟨hlt, hsome⟩ := h
    obtain ⟨⟨fsName, origin⟩, hget⟩ := Option.isSome_iff_exists.mp hsome
    rw [snapshotFilesystemOn_eq hlt hget, bind_apply, lift_apply] at hok
    cases hsnap : origin.snapshot io.toFsSnapshotIo name fsName s.1.idGen.nextId with
    | ok fs =>
      rw [hsnap] at hok
      obtain ⟨device, hdev, hclean, huuid, -⟩ := snapshot_eq_ok.mp hsnap
      exact ⟨⟨device, hdev⟩, hclean, huuid, saveFs_of_fileNew_ok hok⟩
    | err e => rw [hsnap] at hok; cases hok
    | panic => rw [hsnap] at hok; cases hok
  · obtain ⟨e, he⟩ := (snapshotFilesystemOn_none h).2
    rw [he] at hok
    cases hok

theorem not_succeeds_of_snapshotFilesystemOn_err {e : StratisError}
    (he : (snapshotFilesystemOn io originUuid name s).2 = .err e)
    (hlt : s.1.idGen.nextId < thinIdBound)
    (hsome : (s.1.filesystems.getByUuid originUuid).isSome) : ¬ io.Succeeds := by
  rintro ⟨⟨device, hdev⟩, hclean, huuid, hsave⟩
  obtain ⟨⟨fsName, origin⟩, hget⟩ := Option.isSome_iff_exists.mp hsome
  have hsnap : origin.snapshot io.toFsSnapshotIo name fsName s.1.idGen.nextId = .ok _ :=
    snapshot_eq_ok.mpr ⟨device, hdev, hclean, huuid, rfl⟩
  rw [snapshotFilesystemOn_eq hlt hget, bind_apply, lift_apply, hsnap] at he
  exact (fileNew_err he).1 hsave

theorem snapshotFilesystemOn_ne_panic (htable : s.1.filesystems.Consistent)
    (hclean : cleanIfMounted io.toFsSnapshotIo ≠ .panic)
    (huuid : io.setUuid ≠ .panic) (hsave : io.saveFs ≠ .panic) :
    (snapshotFilesystemOn io originUuid name s).2 ≠ .panic := by
  by_cases h : s.1.idGen.nextId < thinIdBound ∧ (s.1.filesystems.getByUuid originUuid).isSome
  · obtain ⟨hlt, hsome⟩ := h
    obtain ⟨⟨fsName, origin⟩, hget⟩ := Option.isSome_iff_exists.mp hsome
    rw [snapshotFilesystemOn_eq hlt hget, bind_apply, lift_apply]
    have hne : origin.snapshot io.toFsSnapshotIo name fsName s.1.idGen.nextId ≠ .panic := by
      unfold snapshot
      split
      · exact bind_ne_panic hclean fun _ => bind_ne_panic huuid fun _ => nofun
      · nofun
    cases hsnap : origin.snapshot io.toFsSnapshotIo name fsName s.1.idGen.nextId with
    | ok fs =>
      apply fileNew_ne_panic _ hsave
      exact htable
    | err e => nofun
    | panic => exact absurd hsnap hne
  · obtain ⟨e, he⟩ := (snapshotFilesystemOn_none h).2
    rw [he]
    nofun

end snapshot

theorem destroyFilesystemOn_subset (destroy rmFs : StratisResult Unit) (uuid : FilesystemUuid) :
    (destroyFilesystemOn destroy rmFs uuid s).1.2 ⊆ s.2 := by
  rw [destroyFilesystemOn, beside_get_bind, note_bind]
  cases s.1.filesystems.getByUuid uuid with
  | none => exact Finset.Subset.refl _
  | some found =>
    change destroyed destroy found.2.thinId s.2 ⊆ s.2
    unfold destroyed
    split_ifs
    · exact Finset.erase_subset _ _
    · exact Finset.Subset.refl _

end ThinPool

/-! ### Over a run -/

def FsInput.Makes : FsInput → Prop
  | .create .. => True
  | .snapshot .. => True
  | _ => False

/-- Device-mapper makes a thin device only if there is none with the id. -/
def NewIds (s : ThinPool × Finset ℕ) : FsInput → Prop
  | .create io _ _ => io.thinDev.isSome ∨ io.leftBehind = true → s.1.idGen.nextId ∉ s.2
  | .snapshot io _ _ => io.exist = true → s.1.idGen.nextId ∉ s.2
  | _ => True

/-- A thin device that is to be destroyed because there can be no filesystem on it is destroyed. -/
def Destroys : FsInput → Prop
  | .create io _ _ => io.destroy = .ok ()
  | _ => True

/-- None of the steps stops in the middle. -/
def Returns : FsInput → Prop
  | .create io _ _ => io.createFs ≠ .panic ∧ io.saveFs ≠ .panic
  | .snapshot io _ _ => StratFilesystem.cleanIfMounted io.toFsSnapshotIo ≠ .panic ∧
      io.setUuid ≠ .panic ∧ io.saveFs ≠ .panic
  | _ => True

/-- A thin device is made and stays without a filesystem: device-mapper fails with the id taken, or
one of the steps of a snapshot fails after its thin device has been made. -/
def LeavesDevice (s : ThinPool × Finset ℕ) : FsInput → Prop
  | .create io _ _ =>
    s.1.idGen.nextId < thinIdBound ∧ io.thinDev = none ∧ io.leftBehind = true
  | .snapshot io originUuid _ =>
    (s.1.idGen.nextId < thinIdBound ∧ (s.1.filesystems.getByUuid originUuid).isSome) ∧
      io.exist = true ∧ ¬ io.Succeeds
  | _ => False

/-- Every thin device is that of a filesystem in the table or of a record. -/
def Accounted (s : ThinPool × Finset ℕ) : Prop :=
  ∀ id ∈ s.2, (∃ r ∈ rows s.1.filesystems, r.2.2 = id) ∨
    ∃ save ∈ s.1.mdv.filesystems, save.thinId = id

instance (s : ThinPool × Finset ℕ) : Decidable (Accounted s) :=
  inferInstanceAs (Decidable (∀ id ∈ s.2, (∃ r ∈ rows s.1.filesystems, r.2.2 = id) ∨
    ∃ save ∈ s.1.mdv.filesystems, save.thinId = id))

theorem made_eq_iff {exist : Bool} {id : ℕ} {ids : Finset ℕ} (h : exist = true → id ∉ ids) :
    made exist id ids = ids ↔ ¬ exist = true := by
  cases exist with
  | false => simp [made]
  | true => simpa [made] using h rfl

/-- A creation that fails leaves the thin devices as they were, unless device-mapper leaves one. -/
theorem created_ids_iff {s : ThinPool × Finset ℕ} {io : CreateIo} {name : String} {size : Option ℕ}
    {e : StratisError} (hnew : NewIds s (.create io name size)) (hdestroy : io.destroy = .ok ())
    (he : (createFilesystemOn io name size s).2 = .err e) :
    (createFilesystemOn io name size s).1.2 = s.2 ↔
      ¬ LeavesDevice s (.create io name size) := by
  rw [createFilesystemOn_err he]
  rw [NewIds] at hnew
  simp only [LeavesDevice]
  split_ifs with hlt hdev
  · -- the thin device that was made is destroyed
    have hids : destroyed io.destroy s.1.idGen.nextId (insert s.1.idGen.nextId s.2) = s.2 := by
      rw [hdestroy]
      exact Finset.erase_insert (hnew (Or.inl hdev))
    refine iff_of_true hids fun h => ?_
    rw [h.2.1] at hdev
    cases hdev
  · rw [made_eq_iff fun h => hnew (Or.inr h)]
    simp [hlt, Option.not_isSome_iff_eq_none.mp hdev]
  · simp [hlt]

theorem snapshot_ids_iff {s : ThinPool × Finset ℕ} {io : SnapshotIo} {originUuid : FilesystemUuid}
    {name : String} {e : StratisError} (hnew : NewIds s (.snapshot io originUuid name))
    (he : (snapshotFilesystemOn io originUuid name s).2 = .err e) :
    (snapshotFilesystemOn io originUuid name s).1.2 = s.2 ↔
      ¬ LeavesDevice s (.snapshot io originUuid name) := by
  rw [snapshotFilesystemOn_ids]
  rw [NewIds] at hnew
  simp only [LeavesDevice]
  split_ifs with h
  · have hfails := not_succeeds_of_snapshotFilesystemOn_err he h.1 h.2
    rw [made_eq_iff hnew]
    simp [h, hfails]
  · simp [h]

/-- Every thin device is that of a filesystem in the table. -/
def Owned (s : ThinPool × Finset ℕ) : Prop :=
  ∀ id ∈ s.2, ∃ name uuid fs, s.1.filesystems.getByUuid uuid = some (name, fs) ∧ fs.thinId = id

namespace Owned

variable {s s' : ThinPool × Finset ℕ} {name : String} {uuid : FilesystemUuid} {fs : StratFilesystem}

theorem idle (h : Owned s) (hi : Table.Same s.1.filesystems s'.1.filesystems) (hids : s'.2 ⊆ s.2) :
    Owned s' := by
  intro id hid
  obtain ⟨name, uuid, fs, hget, hthin⟩ := h id (hids hid)
  exact ⟨name, uuid, fs, by rw [hi.items]; exact hget, hthin⟩

theorem filed (h : Owned s) (hf : Filed s s' name uuid fs)
    (hold : ∀ old fs', s.1.filesystems.getByUuid uuid = some (old, fs') → fs'.thinId = fs.thinId)
    (hids : ∀ id ∈ s'.2, id = fs.thinId ∨ id ∈ s.2) : Owned s' := by
  intro id hid
  rcases hids id hid with rfl | hid
  · exact ⟨name, uuid, fs, hf.found, rfl⟩
  · obtain ⟨name', uuid', fs', hget, rfl⟩ := h id hid
    by_cases hu : uuid' = uuid
    · subst hu
      exact ⟨name, uuid', fs, hf.found, (hold _ _ hget).symm⟩
    · exact ⟨name', uuid', fs', by rw [hf.others _ hu]; exact hget, rfl⟩

theorem destroyed (h : Owned s) (hd : Destroyed s s' uuid fs) : Owned s' := by
  intro id hid
  rw [hd.ids, Finset.mem_erase] at hid
  obtain ⟨name', uuid', fs', hget, rfl⟩ := h id hid.2
  obtain ⟨name, hbefore⟩ := hd.before
  have hu : uuid' ≠ uuid := by
    rintro rfl
    obtain ⟨-, rfl⟩ := Prod.mk.inj (Option.some.inj (hbefore.symm.trans hget))
    exact hid.1 rfl
  exact ⟨name', uuid', fs', by rw [hd.others _ hu]; exact hget, rfl⟩

theorem rebuilt (h : Owned s) {t : ThinPool}
    (hrows : ∀ r, r ∈ rows t.filesystems ↔ r ∈ rows s.1.filesystems) : Owned (t, s.2) := by
  intro id hid
  obtain ⟨name, uuid, fs, hget, hthin⟩ := h id hid
  obtain ⟨fs', hget', hthin'⟩ :=
    mem_rows.mp ((hrows (name, uuid, id)).mpr (mem_rows.mpr ⟨fs, hget, hthin⟩))
  exact ⟨name, uuid, fs', hget', hthin'⟩

end Owned

namespace Restorable

variable {s s' : ThinPool × Finset ℕ}

theorem accounted_iff (h : Restorable s) : Accounted s ↔ Owned s := by
  refine forall₂_congr fun id hid => ?_
  constructor
  · rintro (⟨⟨name, uuid, _⟩, hr, rfl⟩ | ⟨save, hsave, rfl⟩)
    · obtain ⟨fs, hget, hthin⟩ := mem_rows.mp hr
      exact ⟨name, uuid, fs, hget, hthin⟩
    · obtain ⟨fs, hget, hthin⟩ := h.found_of_exist (h.mem_filesystems.mp hsave) hid
      exact ⟨save.name, save.uuid, fs, hget, hthin⟩
  · rintro ⟨name, uuid, fs, hget, hthin⟩
    exact Or.inl ⟨(name, uuid, id), mem_rows.mpr ⟨fs, hget, hthin⟩, rfl⟩

theorem not_owned (h : Restorable s) (hi : Idle s s') (hmem : s.1.idGen.nextId ∈ s'.2) :
    ¬ Owned s' := by
  intro ho
  obtain ⟨name, uuid, fs, hget, hthin⟩ := ho _ hmem
  rw [hi.table.items] at hget
  obtain ⟨save, hl, -, hid⟩ := h.recorded uuid name fs hget
  have hlt := h.old uuid save hl
  rw [hid, hthin] at hlt
  exact lt_irrefl _ hlt

/-- Code that makes a filesystem, or fails. -/
theorem owned_ignore_iff (h : Restorable s) (ho : Owned s) {α : Type} {p : WithIds α} {name : String}
    {uuid : FilesystemUuid} {C : Prop} (huuid : s.1.filesystems.getByUuid uuid = none)
    (hp : Triple (fun s' => s' = s) p
      (fun _ s' => ∃ fs, Created s s' name uuid fs) (Idle s))
    (hne : (p s).2 ≠ .panic) (herr : ∀ e, (p s).2 = .err e → ((p s).1.2 = s.2 ↔ ¬ C))
    (hleaves : C → (∀ a, (p s).2 ≠ .ok a) ∧ s.1.idGen.nextId ∈ (p s).1.2) :
    Owned (ignore p s).1 ↔ ¬ C := by
  have hends := hp s rfl
  rw [ignore_fst]
  rcases hr : p s with ⟨s', a | e | _⟩ <;> rw [hr] at hends hne herr hleaves
  · obtain ⟨fs, hc⟩ := hends
    refine iff_of_true ?_ fun hC => (hleaves hC).1 a rfl
    refine ho.filed hc.toFiled ?_ fun id hid => ?_
    · intro old fs' hget
      rw [huuid] at hget
      cases hget
    · rwa [hc.ids, Finset.mem_insert] at hid
  · constructor
    · exact fun ho' hC => h.not_owned hends (hleaves hC).2 ho'
    · exact fun hC => ho.idle hends.table ((herr e rfl).mpr hC).le
  · exact absurd rfl hne

/-- A step from a state in which every thin device is accounted for leads to another one exactly if
it leaves no thin device behind. -/
theorem owned_step_iff (h : Restorable s) (ho : Owned s) {overflowChecks : Bool} {i : FsInput}
    (hi : Admissible s i) (hnew : NewIds s i) (hdestroy : Destroys i) (hret : Returns i) :
    Owned (fsStep overflowChecks s i).1 ↔ ¬ LeavesDevice s i := by
  cases i with
  | create io name size =>
    refine h.owned_ignore_iff ho hi.2
      (triple_createFilesystemOn h.consistent hi.1 hi.2 size)
      (createFilesystemOn_ne_panic h.consistent hret.1 hret.2)
      (fun e he => created_ids_iff hnew hdestroy he) ?_
    rintro ⟨hlt, hdev, hleft⟩
    rw [createFilesystemOn_eq hlt, bind_apply,
      initializeFsOn_none hdev, hleft]
    exact ⟨nofun, Finset.mem_insert_self _ _⟩
  | snapshot io originUuid name =>
    refine h.owned_ignore_iff ho hi.2
      (triple_snapshotFilesystemOn h.consistent hi.1 hi.2 originUuid)
      (snapshotFilesystemOn_ne_panic h.consistent hret.1 hret.2.1 hret.2.2)
      (fun e he => snapshot_ids_iff hnew he) ?_
    rintro ⟨hmakes, hexist, hfails⟩
    rw [snapshotFilesystemOn_ids, if_pos hmakes, hexist]
    refine ⟨fun a hok => hfails (succeeds_of_snapshotFilesystemOn_ok hok), ?_⟩
    exact Finset.mem_insert_self _ _
  | rename saveFs uuid newName =>
    refine iff_of_true ?_ id
    rw [fsStep, ignore_fst]
    rcases renameFilesystem_cases h.consistent hi uuid newName with hidle | ⟨⟨fs, hr⟩, -⟩
    · exact ho.idle hidle.table subset_rfl
    · refine ho.filed hr.toFiled ?_ fun id hid => Or.inr (hr.ids ▸ hid)
      intro old fs' hget
      obtain ⟨name, hbefore⟩ := hr.before
      obtain ⟨-, rfl⟩ := Prod.mk.inj (Option.some.inj (hbefore.symm.trans hget))
      rfl
  | destroy destroy rmFs uuid =>
    refine iff_of_true ?_ id
    rw [fsStep, ignore_fst]
    rcases destroyFilesystemOn_cases h.consistent hi rmFs uuid with hidle | ⟨⟨fs, hd⟩, -⟩
    · exact ho.idle hidle.table (destroyFilesystemOn_subset destroy rmFs uuid)
    · exact ho.destroyed hd
  | restart io save flexDevs b =>
    refine iff_of_true ?_ id
    simp only [fsStep]
    split
    · rename_i t ht
      exact ho.rebuilt (h.setup hi ht).2
    · exact ho
    · exact ho

end Restorable

/-- What is assumed of the steps of a run. -/
def Regular (s : ThinPool × Finset ℕ) (i : FsInput) : Prop :=
  Admissible s i ∧ NewIds s i ∧ Destroys i ∧ Returns i

/-- Making a filesystem or a snapshot, if it fails, leaves the thin devices as they were exactly if
no thin device is left behind: a thin device that device-mapper has made is destroyed again if it
was for a new filesystem, but not if it was for a snapshot. From a new thin pool on, every thin
device is that of a filesystem in the table or of a record, all the way, exactly if no step leaves
one behind. -/
theorem leaves_no_device_iff {overflowChecks : Bool} :
    (∀ s i e, FsInput.Makes i → NewIds s i → Destroys i → (fsStep overflowChecks s i).2 = .err e →
      ((fsStep overflowChecks s i).1.2 = s.2 ↔ ¬ LeavesDevice s i)) ∧
    ∀ io params size b b' t inputs, ThinPool.new overflowChecks io params size b = (b', .ok t) →
      AllSteps (fsStep overflowChecks) Regular (t, ∅) inputs →
      ((∀ pre, pre <+: inputs → Accounted (run (fsStep overflowChecks) (t, ∅) pre).1) ↔
        AllSteps (fsStep overflowChecks) (fun s i => ¬ LeavesDevice s i) (t, ∅) inputs) := by
  constructor
  · intro s i e hi hnew hdestroy he
    cases i with
    | create io name size =>
      rw [fsStep, Stateful.ignore_fst]
      exact created_ids_iff hnew hdestroy (Stateful.ignore_err.mp he)
    | snapshot io originUuid name =>
      rw [fsStep, Stateful.ignore_fst]
      exact snapshot_ids_iff hnew (Stateful.ignore_err.mp he)
    | rename | destroy | restart => exact hi.elim
  · intro io params size b b' t inputs hnew hregular
    refine forall_prefix_iff_of_allSteps _ (I := Restorable) (fun s i h ho hi => ?_)
      (Restorable.new hnew) (by simp [Accounted]) hregular
    have hstep : Restorable (fsStep overflowChecks s i).1 := (h.step hi.1).1
    refine ⟨hstep, ?_⟩
    rw [hstep.accounted_iff]
    exact h.owned_step_iff (h.accounted_iff.mp ho) hi.1 hi.2.1 hi.2.2.1 hi.2.2.2

/-- A snapshot, of a filesystem that is not mounted, whose UUID is set with the given result. -/
def snapshots (uuid : FilesystemUuid) (setUuid : StratisResult Unit) : SnapshotIo :=
  ⟨⟨uuid, .ok ⟨253, 6⟩, .ok [], .ok (), setUuid, Metadata.MDAHeader.epoch, .ok ()⟩,
    false⟩

/-- A filesystem and a snapshot of it are made; then there is one that can not be made. -/
def oneFailing : List FsInput :=
  [.create (makes ⟨1⟩) "home" none, .snapshot (snapshots ⟨2⟩ (.ok ())) ⟨1⟩ "copy",
    .create { makes ⟨3⟩ with createFs := .err .io } "data" none]

theorem leaves_no_device_iff_failing : ∃ r, ThinPool.newOn (2 ^ 22) = .ok r ∧
    (∀ pre, pre <+: oneFailing → Accounted (run (fsStep true) (r.2.thinPool, ∅) pre).1) ∧
    let s := (run (fsStep true) (r.2.thinPool, ∅) (oneFailing.take 2)).1
    let i := FsInput.create { makes ⟨3⟩ with createFs := .err .io } "data" none
    (fsStep true s i).2 = .err .io ∧ (fsStep true s i).1.2 = s.2 := by
  have hok : ∃ r, ThinPool.newOn (2 ^ 22) = .ok r ∧
      let s₁ := (run (fsStep true) (r.2.thinPool, ∅) (oneFailing.take 1)).1
      let s₂ := (run (fsStep true) (r.2.thinPool, ∅) (oneFailing.take 2)).1
      (r.2.thinPool.filesystems.containsName "home" = false ∧
        r.2.thinPool.filesystems.getByUuid ⟨1⟩ = none) ∧
      (s₁.1.filesystems.containsName "copy" = false ∧ s₁.1.filesystems.getByUuid ⟨2⟩ = none) ∧
      s₁.1.idGen.nextId ∉ s₁.2 ∧
      (s₂.1.filesystems.containsName "data" = false ∧ s₂.1.filesystems.getByUuid ⟨3⟩ = none) ∧
      s₂.1.idGen.nextId ∉ s₂.2 ∧
      (fsStep true s₂ (.create { makes ⟨3⟩ with createFs := .err .io } "data" none)).2 =
        .err .io := by
    decide +kernel
  obtain ⟨r, hr, hfirst, hsecond, hnew₁, hthird, hnew₂, herr⟩ := hok
  have hregular : AllSteps (fsStep true) Regular (r.2.thinPool, ∅) oneFailing :=
    ⟨⟨hfirst, fun _ => Finset.notMem_empty _, rfl, nofun, nofun⟩,
      ⟨hsecond, fun _ => hnew₁, trivial, nofun, nofun, nofun⟩,
      ⟨hthird, fun _ => hnew₂, rfl, nofun, nofun⟩, trivial⟩
  have hnone : AllSteps (fsStep true) (fun s i => ¬ LeavesDevice s i) (r.2.thinPool, ∅) oneFailing :=
    ⟨nofun, fun h => h.2.2 ⟨⟨_, rfl⟩, rfl, rfl, rfl⟩, nofun, trivial⟩
  have hiff := @leaves_no_device_iff true
  refine ⟨r, hr, ?_, ?_⟩
  · exact (hiff.2 _ _ _ _ _ _ oneFailing (ThinPool.new_of_newOn hr) hregular).mpr hnone
  · intro s i
    exact ⟨herr, (hiff.1 s i .io trivial (fun _ => hnew₂) rfl herr).mpr nofun⟩

/-- The UUID of a snapshot can not be set. The thin device of the snapshot stays. -/
theorem snapshot_leaves_device : ∃ r, ThinPool.newOn (2 ^ 22) = .ok r ∧
    let s := (run (fsStep true) (r.2.thinPool, ∅) [.create (makes ⟨1⟩) "home" none]).1
    let s' := fsStep true s (.snapshot (snapshots ⟨2⟩ (.err .io)) ⟨1⟩ "copy")
    s.2 = {0} ∧ Accounted s ∧ s'.2 = .err .io ∧ s'.1.2 = {0, 1} ∧ ¬ Accounted s'.1 := by
  decide +kernel

end Stratisd.Thinpool
