import Stratisd.Engine.TableSpec
import Stratisd.Run.Beside
import Stratisd.Run.Triple
import Stratisd.Thinpool.ThinPool

/-! The thin devices of the filesystems. Beside the thin pool stand the ids of the thin devices
that exist in it. A device is made before its filesystem is recorded and filed, so a call that
fails in between leaves it behind unless the code destroys it again. -/

namespace Stratisd.Thinpool

open Run Run.Outcome Run.Stateful Engine StratFilesystem

/-- Code of the thin pool beside the ids of the thin devices that exist. -/
abbrev WithIds (α : Type) := Stateful (ThinPool × Finset ℕ) StratisError α

/-- The id of a new thin device, if it has come to exist. -/
def made (exist : Bool) (id : ℕ) (ids : Finset ℕ) : Finset ℕ := if exist then insert id ids else ids

/-- A thin device that can not be destroyed stays. -/
def destroyed (destroy : StratisResult Unit) (id : ℕ) (ids : Finset ℕ) : Finset ℕ :=
  if destroy.isOk then ids.erase id else ids

/-- The environment of making a filesystem, with what happens to its thin device. -/
structure CreateIo extends FsCreateIo where
  /-- Whether a thin device that could not be made exists all the same. -/
  leftBehind : Bool
  /-- Destroying the thin device when there can be no filesystem on it. -/
  destroy : StratisResult Unit

structure SnapshotIo extends FsSnapshotIo where
  leftBehind : Bool

/-- What device-mapper has made of a snapshot. -/
def SnapshotIo.exist (io : SnapshotIo) : Bool :=
  match io.thinDev with
  | .ok _ => true
  | .error _ => io.leftBehind

theorem StratFilesystem.snapshot_eq_ok {origin fs : StratFilesystem} {io : FsSnapshotIo}
    {snapshotName fsName : String} {id : ℕ} :
    origin.snapshot io snapshotName fsName id = .ok fs ↔
      ∃ device, io.thinDev = .ok device ∧ cleanIfMounted io = .ok () ∧ io.setUuid = .ok () ∧
        fs = ⟨device, id, origin.size, io.now⟩ := by
  unfold snapshot
  cases io.thinDev with
  | error e => simp
  | ok device =>
    simp only [Outcome.bind_eq_ok]
    constructor
    · rintro ⟨⟨⟩, hclean, ⟨⟩, huuid, hfs⟩
      exact ⟨device, rfl, hclean, huuid, (ok.inj hfs).symm⟩
    · rintro ⟨_, hdev, hclean, huuid, rfl⟩
      obtain rfl := Except.ok.inj hdev
      exact ⟨(), hclean, (), huuid, rfl⟩

namespace ThinPool

/-- The thin device is destroyed if no filesystem can be made on it. -/
def initializeFsOn (io : CreateIo) (size : Option ℕ) (id : ℕ) : WithIds StratFilesystem := do
  Stateful.note (made (io.thinDev.isSome || io.leftBehind) id)
  let device ← Stateful.lift (Outcome.ofOption .dm io.thinDev)
  Stateful.noteErr (destroyed io.destroy id) (Stateful.lift io.createFs)
  pure ⟨device, id, size.getD defaultThinDevSize, io.now⟩

/-- Record a new filesystem and put it into the table, with what is done about its thin device if
it can not be recorded. -/
def fileNew (cleanUp : Finset ℕ → Finset ℕ) (saveFs : StratisResult Unit) (name : String)
    (uuid : FilesystemUuid) (fs : StratFilesystem) : WithIds FilesystemUuid := do
  Stateful.noteErr cleanUp (Stateful.beside (saveRecord saveFs name uuid fs))
  Stateful.beside (insertFilesystem name uuid fs)
  let t ← Stateful.beside Stateful.get
  let _ ← Stateful.lift (Outcome.expect (t.filesystems.getByUuid uuid))
  pure uuid

def createFilesystemOn (io : CreateIo) (name : String) (size : Option ℕ) :
    WithIds FilesystemUuid := do
  let id ← Stateful.beside newId
  let fs ← initializeFsOn io size id
  fileNew (destroyed io.destroy id) io.saveFs name io.uuid fs

/-- The thin device of a snapshot that fails later on is not destroyed. -/
def snapshotFilesystemOn (io : SnapshotIo) (originUuid : FilesystemUuid) (snapshotName : String) :
    WithIds FilesystemUuid := do
  let id ← Stateful.beside newId
  let t ← Stateful.beside Stateful.get
  match t.filesystems.getByUuid originUuid with
  | some (fsName, origin) => do
    Stateful.note (made io.exist id)
    let fs ← Stateful.lift (origin.snapshot io.toFsSnapshotIo snapshotName fsName id)
    fileNew (fun ids => ids) io.saveFs snapshotName io.uuid fs
  | none => Stateful.lift (.err (.msg "snapshot_filesystem failed, filesystem not found"))

def destroyFilesystemOn (destroy rmFs : StratisResult Unit) (uuid : FilesystemUuid) :
    WithIds (Option FilesystemUuid) := do
  let t ← Stateful.beside Stateful.get
  Stateful.note fun ids =>
    match t.filesystems.getByUuid uuid with
    | some (_, fs) => destroyed destroy fs.thinId ids
    | none => ids
  Stateful.beside (destroyFilesystem destroy rmFs uuid)

/-! The code does what it does without the ids. -/

theorem mirrors_createFilesystemOn (io : CreateIo) (name : String) (size : Option ℕ) :
    Mirrors (createFilesystemOn io name size)
      (createFilesystem io.toFsCreateIo name size) := by
  have hinit : ∀ id, Mirrors (initializeFsOn io size id)
      (Stateful.lift (initializeFs io.toFsCreateIo size id)) := by
    intro id s d
    rw [initializeFsOn, initializeFs]
    cases io.thinDev with
    | none => rfl
    | some device => cases io.createFs <;> rfl
  refine (mirrors_beside _).bind fun id => (hinit id).bind fun fs => ?_
  exact (mirrors_beside _).noteErr.bind fun _ => (mirrors_beside _).bind fun _ =>
    (mirrors_beside _).bind fun _ => (mirrors_lift _).bind fun _ =>
      mirrors_pure _

theorem mirrors_snapshotFilesystemOn (io : SnapshotIo) (originUuid : FilesystemUuid)
    (snapshotName : String) :
    Mirrors (snapshotFilesystemOn io originUuid snapshotName)
      (snapshotFilesystem io.toFsSnapshotIo originUuid snapshotName) := by
  refine (mirrors_beside _).bind fun id => (mirrors_beside _).bind fun t => ?_
  rcases t.filesystems.getByUuid originUuid with _ | ⟨fsName, origin⟩
  · exact mirrors_lift _
  · refine Mirrors.note ((mirrors_lift _).bind fun fs => ?_)
    exact (mirrors_beside _).noteErr.bind fun _ => (mirrors_beside _).bind fun _ =>
      (mirrors_beside _).bind fun _ => (mirrors_lift _).bind fun _ =>
        mirrors_pure _

theorem mirrors_destroyFilesystemOn (destroy rmFs : StratisResult Unit) (uuid : FilesystemUuid) :
    Mirrors (destroyFilesystemOn destroy rmFs uuid)
      (destroyFilesystem destroy rmFs uuid) := fun _ _ => rfl

end ThinPool

/-! ### What the calls do -/

variable {s₀ : ThinPool × Finset ℕ}

/-- A call that has changed neither the table nor the records. An id may have been taken, and a
thin device with a new id may have been left behind. -/
structure Idle (s₀ s : ThinPool × Finset ℕ) : Prop where
  table : Table.Same s₀.1.filesystems s.1.filesystems
  saves : s.1.mdv.saves = s₀.1.mdv.saves
  next : s₀.1.idGen.nextId ≤ s.1.idGen.nextId
  ids : ∀ n < s₀.1.idGen.nextId, n ∈ s.2 ↔ n ∈ s₀.2

/-- A filesystem is found in the table under a name and is recorded under it. -/
structure Filed (s₀ s : ThinPool × Finset ℕ) (name : String) (uuid : FilesystemUuid)
    (fs : StratFilesystem) : Prop where
  consistent : s.1.filesystems.Consistent
  found : s.1.filesystems.getByUuid uuid = some (name, fs)
  others : ∀ v, v ≠ uuid → s.1.filesystems.getByUuid v = s₀.1.filesystems.getByUuid v
  saves : s.1.mdv.saves = s₀.1.mdv.saves.insert uuid (fs.record name uuid)

/-- A new filesystem on a thin device with a new id. -/
structure Created (s₀ s : ThinPool × Finset ℕ) (name : String) (uuid : FilesystemUuid)
    (fs : StratFilesystem) : Prop extends Filed s₀ s name uuid fs where
  thinId : fs.thinId = s₀.1.idGen.nextId
  next : s.1.idGen.nextId = s₀.1.idGen.nextId + 1
  ids : s.2 = insert fs.thinId s₀.2

structure Renamed (s₀ s : ThinPool × Finset ℕ) (name : String) (uuid : FilesystemUuid)
    (fs : StratFilesystem) : Prop extends Filed s₀ s name uuid fs where
  before : ∃ old, s₀.1.filesystems.getByUuid uuid = some (old, fs)
  next : s.1.idGen = s₀.1.idGen
  ids : s.2 = s₀.2

/-- A filesystem is gone, and its record unless it could not be removed. -/
structure Destroyed (s₀ s : ThinPool × Finset ℕ) (uuid : FilesystemUuid) (fs : StratFilesystem) :
    Prop where
  before : ∃ name, s₀.1.filesystems.getByUuid uuid = some (name, fs)
  consistent : s.1.filesystems.Consistent
  gone : s.1.filesystems.getByUuid uuid = none
  others : ∀ v, v ≠ uuid → s.1.filesystems.getByUuid v = s₀.1.filesystems.getByUuid v
  saves : s.1.mdv.saves = s₀.1.mdv.saves ∨ s.1.mdv.saves = s₀.1.mdv.saves.erase uuid
  next : s.1.idGen = s₀.1.idGen
  ids : s.2 = s₀.2.erase fs.thinId

theorem Idle.refl (s : ThinPool × Finset ℕ) : Idle s s :=
  ⟨Table.Same.refl _, rfl, le_rfl, fun _ _ => Iff.rfl⟩

theorem mem_made_of_lt {n id : ℕ} (h : n < id) (exist : Bool) (ids : Finset ℕ) :
    n ∈ made exist id ids ↔ n ∈ ids := by
  unfold made
  split_ifs
  · rw [Finset.mem_insert]
    exact or_iff_right h.ne
  · rfl

theorem mem_destroyed_of_lt {n id : ℕ} (h : n < id) (destroy : StratisResult Unit)
    (ids : Finset ℕ) : n ∈ destroyed destroy id ids ↔ n ∈ ids := by
  unfold destroyed
  split_ifs
  · rw [Finset.mem_erase]
    exact and_iff_right h.ne
  · rfl

/-- The next id has been taken, and nothing else has changed but the thin devices with ids from
this one on. -/
structure Taken (s₀ : ThinPool × Finset ℕ) (id : ℕ) (s : ThinPool × Finset ℕ) : Prop where
  table : s.1.filesystems = s₀.1.filesystems
  saves : s.1.mdv.saves = s₀.1.mdv.saves
  id_eq : id = s₀.1.idGen.nextId
  next : s.1.idGen.nextId = id + 1
  ids : ∀ n < id, n ∈ s.2 ↔ n ∈ s₀.2

theorem Taken.idle {id : ℕ} {s : ThinPool × Finset ℕ} (h : Taken s₀ id s) : Idle s₀ s := by
  refine ⟨h.table ▸ Table.Same.refl _, h.saves, ?_, ?_⟩
  · rw [h.next, h.id_eq]
    exact Nat.le_succ _
  · rw [← h.id_eq]
    exact h.ids

theorem Taken.note {id : ℕ} {s : ThinPool × Finset ℕ} (h : Taken s₀ id s) {f : Finset ℕ → Finset ℕ}
    (hf : ∀ n < id, ∀ ids, n ∈ f ids ↔ n ∈ ids) : Taken s₀ id (s.1, f s.2) :=
  ⟨h.table, h.saves, h.id_eq, h.next, fun n hn => (hf n hn _).trans (h.ids n hn)⟩

namespace ThinPool

theorem newId_eq (t : ThinPool) : newId t =
    if t.idGen.nextId < thinIdBound then
      ({ t with idGen := ⟨t.idGen.nextId + 1⟩ }, .ok t.idGen.nextId) else (t, .err .dm) := by
  rw [newId, get_bind, ThinDevIdPool.newId]
  split_ifs <;> rfl

theorem triple_newId : Triple (fun s => s = s₀) (beside newId : WithIds ℕ)
    (fun id s => Taken s₀ id s ∧ s.2 = s₀.2) (Idle s₀) := by
  rintro s rfl
  rw [beside, within, newId_eq]
  split_ifs
  · exact ⟨⟨rfl, rfl, rfl, rfl, fun _ _ => Iff.rfl⟩, rfl⟩
  · exact Idle.refl s

theorem triple_initializeFsOn (io : CreateIo) (size : Option ℕ) (id : ℕ) :
    Triple (fun s => Taken s₀ id s ∧ s.2 = s₀.2) (initializeFsOn io size id)
      (fun fs s => Taken s₀ id s ∧ s.2 = insert id s₀.2 ∧ fs.thinId = id) (Idle s₀) := by
  rintro s ⟨ht, hids⟩
  have hmade := ht.note fun n hn ids =>
    mem_made_of_lt hn (io.thinDev.isSome || io.leftBehind) ids
  rw [initializeFsOn, note_bind]
  cases hdev : io.thinDev with
  | none =>
    rw [hdev] at hmade
    exact hmade.idle
  | some device =>
    rw [hdev] at hmade
    have hinsert : made true id s.2 = insert id s₀.2 := by rw [made, if_pos rfl, hids]
    cases io.createFs with
    | ok _ => exact ⟨hmade, hinsert, rfl⟩
    | err _ => exact (hmade.note fun n hn ids => mem_destroyed_of_lt hn io.destroy ids).idle
    | panic => exact hmade.idle

theorem fileNew_ok {cleanUp : Finset ℕ → Finset ℕ} {s : ThinPool × Finset ℕ}
    (htable : s.1.filesystems.Consistent) (name : String) (uuid : FilesystemUuid)
    (fs : StratFilesystem) : ∃ table, Table.Inserted s.1.filesystems table name uuid fs ∧
      fileNew cleanUp (.ok ()) name uuid fs s =
        (({ s.1 with
            mdv := { s.1.mdv with saves := s.1.mdv.saves.insert uuid (fs.record name uuid) }
            filesystems := table }, s.2), .ok uuid) := by
  obtain ⟨table, displaced, hinsert, hi⟩ := htable.insert_ok (ε := StratisError) name uuid fs
  let saved : ThinPool := { s.1 with
    mdv := { s.1.mdv with saves := s.1.mdv.saves.insert uuid (fs.record name uuid) } }
  have hsaved : noteErr cleanUp
      (beside (saveRecord (.ok ()) name uuid fs)) s = ((saved, s.2), .ok ()) := rfl
  have hfiled : beside (insertFilesystem name uuid fs) (saved, s.2) =
      (({ saved with filesystems := table }, s.2), .ok ()) := by
    rw [beside, within, insertFilesystem, get_bind,
      show saved.filesystems = s.1.filesystems from rfl, hinsert]
    rfl
  refine ⟨table, hi, ?_⟩
  rw [fileNew, bind_of_eq hsaved, bind_of_eq hfiled, beside_get_bind,
    hi.found]
  rfl

/-- A new filesystem is recorded and filed, or neither. -/
theorem triple_fileNew {cleanUp : Finset ℕ → Finset ℕ} {id : ℕ}
    (hclean : ∀ n < id, ∀ ids, n ∈ cleanUp ids ↔ n ∈ ids) (saveFs : StratisResult Unit)
    {name : String} {uuid : FilesystemUuid} {fs : StratFilesystem} (hfs : fs.thinId = id)
    (htable : s₀.1.filesystems.Consistent) (hname : s₀.1.filesystems.containsName name = false)
    (huuid : s₀.1.filesystems.getByUuid uuid = none) :
    Triple (fun s => Taken s₀ id s ∧ s.2 = insert id s₀.2)
      (fileNew cleanUp saveFs name uuid fs) (fun _ s => Created s₀ s name uuid fs) (Idle s₀) := by
  rintro s ⟨ht, hids⟩
  cases saveFs with
  | err _ => exact (ht.note hclean).idle
  | panic => exact ht.idle
  | ok _ =>
    rw [← ht.table] at htable hname huuid
    obtain ⟨table, hi, heq⟩ := @fileNew_ok cleanUp s htable name uuid fs
    rw [heq]
    refine ⟨⟨hi.consistent htable, hi.found, ?_, ?_⟩, ?_, ?_, ?_⟩
    · rw [← ht.table]
      exact (hi.of_fresh htable hname huuid).1
    · exact congrArg (·.insert uuid (fs.record name uuid)) ht.saves
    · rw [hfs, ht.id_eq]
    · exact ht.next.trans (by rw [ht.id_eq])
    · rw [hfs]
      exact hids

section new

variable {name : String} (htable : s₀.1.filesystems.Consistent)
  (hname : s₀.1.filesystems.containsName name = false)

include htable hname

theorem triple_createFilesystemOn {io : CreateIo}
    (huuid : s₀.1.filesystems.getByUuid io.uuid = none) (size : Option ℕ) :
    Triple (fun s => s = s₀) (createFilesystemOn io name size)
      (fun _ s => ∃ fs, Created s₀ s name io.uuid fs) (Idle s₀) := by
  refine triple_newId.bind fun id => (triple_initializeFsOn io size id).bind fun fs => ?_
  rintro s ⟨ht, hids, hfs⟩
  have hfile := triple_fileNew (fun n hn ids => mem_destroyed_of_lt hn io.destroy ids) io.saveFs hfs
    htable hname huuid
  exact (hfile.imp (fun _ h => h) (fun _ _ h => ⟨fs, h⟩) fun _ h => h) s ⟨ht, hids⟩

theorem triple_snapshotFilesystemOn {io : SnapshotIo}
    (huuid : s₀.1.filesystems.getByUuid io.uuid = none) (originUuid : FilesystemUuid) :
    Triple (fun s => s = s₀) (snapshotFilesystemOn io originUuid name)
      (fun _ s => ∃ fs, Created s₀ s name io.uuid fs) (Idle s₀) := by
  refine triple_newId.bind fun id => ?_
  rintro s ⟨ht, hids⟩
  rw [beside_get_bind]
  rcases s.1.filesystems.getByUuid originUuid with _ | ⟨fsName, origin⟩
  · exact ht.idle
  · have hmade := ht.note fun n hn ids => mem_made_of_lt hn io.exist ids
    simp only [note_bind]
    rcases hsnap : origin.snapshot io.toFsSnapshotIo name fsName id with fs | e | _
    · -- the thin device is there, and has the new id
      obtain ⟨device, hdev, -, -, rfl⟩ := snapshot_eq_ok.mp hsnap
      have hinsert : made io.exist id s.2 = insert id s₀.2 := by
        rw [made, SnapshotIo.exist, hdev, if_pos rfl, hids]
      have hfile := @triple_fileNew s₀ (fun ids => ids) id (fun _ _ _ => Iff.rfl) io.saveFs name
        io.uuid ⟨device, id, origin.size, io.now⟩ rfl htable hname huuid
      exact (hfile.imp (fun _ h => h) (fun _ _ h => ⟨_, h⟩) fun _ h => h) _ ⟨hmade, hinsert⟩
    · exact hmade.idle
    · exact hmade.idle

end new

theorem insertFilesystem_putBack {t : ThinPool} (htable : t.filesystems.Consistent) {name : String}
    {uuid : FilesystemUuid} {fs : StratFilesystem}
    (hget : t.filesystems.getByUuid uuid = some (name, fs)) :
    ∃ table, insertFilesystem name uuid fs
        { t with filesystems := (t.filesystems.removeByUuid uuid).1 } =
          ({ t with filesystems := table }, .ok ()) ∧ Table.Same t.filesystems table := by
  have hrem := Table.removed_erase t.filesystems name uuid
  obtain ⟨table, displaced, hinsert, hsame⟩ := hrem.putBack (ε := StratisError) htable hget
  refine ⟨table, ?_, hsame⟩
  rw [insertFilesystem, get_bind, Table.removeByUuid_of_get hget, hinsert]
  rfl

theorem destroyFilesystemOn_cases (htable : s₀.1.filesystems.Consistent)
    {destroy : StratisResult Unit} (hdestroy : destroy ≠ .panic) (rmFs : StratisResult Unit)
    (uuid : FilesystemUuid) :
    let r := destroyFilesystemOn destroy rmFs uuid s₀
    Idle s₀ r.1 ∨ (∃ fs, Destroyed s₀ r.1 uuid fs) ∧ ∀ e, r.2 ≠ .err e := by
  intro r
  obtain ⟨t, ids⟩ := s₀
  cases hget : t.filesystems.getByUuid uuid with
  | none =>
    have hr : r = beside (destroyFilesystem destroy rmFs uuid) (t, ids) := by
      simp only [r, destroyFilesystemOn, beside_get_bind, note_bind, hget]
    have hrem : t.filesystems.removeByUuid uuid = (t.filesystems, none) := by
      rw [Table.removeByUuid, show t.filesystems.items.lookup uuid = none from hget]
    rw [hr, beside, within, destroyFilesystem, get_bind, hrem]
    exact Or.inl (Idle.refl _)
  | some found =>
    obtain ⟨name, fs⟩ := found
    have hrem := Table.removed_erase t.filesystems name uuid
    have hr : r = beside (destroyFilesystem destroy rmFs uuid)
        (t, destroyed destroy fs.thinId ids) := by
      simp only [r, destroyFilesystemOn, beside_get_bind, note_bind, hget]
    rw [hr, beside, within, destroyFilesystem, get_bind]
    simp only [Table.removeByUuid_of_get hget, modify_bind]
    cases destroy with
    | panic => exact absurd rfl hdestroy
    | err e =>
      obtain ⟨table, heq, hsame⟩ := insertFilesystem_putBack htable hget
      rw [Table.removeByUuid_of_get hget] at heq
      left
      simp only [bind_of_eq heq]
      exact ⟨hsame, rfl, le_rfl, fun _ _ => Iff.rfl⟩
    | ok _ =>
      right
      cases rmFs with
      | ok _ => exact ⟨⟨fs, ⟨name, hget⟩, hrem.consistent htable hget, hrem.gone, hrem.others,
          Or.inr rfl, rfl, rfl⟩, ok_ne_err _⟩
      | err _ => exact ⟨⟨fs, ⟨name, hget⟩, hrem.consistent htable hget, hrem.gone, hrem.others,
          Or.inl rfl, rfl, rfl⟩, ok_ne_err _⟩
      | panic => exact ⟨⟨fs, ⟨name, hget⟩, hrem.consistent htable hget, hrem.gone, hrem.others,
          Or.inl rfl, rfl, rfl⟩, panic_ne_err⟩

theorem renameFilesystem_cases (htable : s₀.1.filesystems.Consistent)
    {saveFs : StratisResult Unit} (hsave : saveFs ≠ .panic) (uuid : FilesystemUuid)
    (newName : String) :
    let r : _ × StratisResult (Option Bool) :=
      beside (renameFilesystem saveFs uuid newName) s₀
    Idle s₀ r.1 ∨ (∃ fs, Renamed s₀ r.1 newName uuid fs) ∧ ∀ e, r.2 ≠ .err e := by
  obtain ⟨t, ids⟩ := s₀
  simp only [beside, within]
  rw [renameFilesystem, get_bind]
  cases hget : t.filesystems.getByUuid uuid with
  | none => exact Or.inl (Idle.refl _)
  | some found =>
    obtain ⟨name, fs⟩ := found
    simp only
    split_ifs with hsame hused
    · exact Or.inl (Idle.refl _)
    · exact Or.inl (Idle.refl _)
    · rw [modify_bind]
      cases saveFs with
      | panic => exact absurd rfl hsave
      | err e =>
        obtain ⟨table, heq, hsame⟩ := insertFilesystem_putBack htable hget
        left
        simp only [bind_of_eq heq]
        exact ⟨hsame, rfl, le_rfl, fun _ _ => Iff.rfl⟩
      | ok _ =>
        right
        have hrem := Table.removed_erase t.filesystems name uuid
        obtain ⟨table, displaced, hinsert, hi, hcons, hothers⟩ :=
          hrem.insert (ε := StratisError) htable hget (Or.inr (Bool.eq_false_iff.mpr hused))
        let saved : ThinPool := { t with
          filesystems := (t.filesystems.removeByUuid uuid).1
          mdv := { t.mdv with saves := t.mdv.saves.insert uuid (fs.record newName uuid) } }
        have hsaved : saveRecord (.ok ()) newName uuid fs
            { t with filesystems := (t.filesystems.removeByUuid uuid).1 } = (saved, .ok ()) := rfl
        have hfiled : insertFilesystem newName uuid fs saved =
            ({ saved with filesystems := table }, .ok ()) := by
          rw [insertFilesystem, get_bind,
            show saved.filesystems = (t.filesystems.removeByUuid uuid).1 from rfl,
            Table.removeByUuid_of_get hget, hinsert]
          rfl
        simp only [bind_of_eq hsaved, bind_of_eq hfiled, get_bind,
          hi.found]
        exact ⟨⟨fs, ⟨hcons, hi.found, hothers, rfl⟩, ⟨name, hget⟩, rfl, rfl⟩, ok_ne_err _⟩

end ThinPool

end Stratisd.Thinpool
