import Stratisd.Engine.TableSpec
import Stratisd.Media.Files
import Stratisd.Thinpool.ThinPoolSpec

/-! The files of the metadata volume. Each record is a file of its own, named after the UUID of
its filesystem. It is written to a temporary file that then takes the place of the old record, so
the volume that `MetadataVol` describes is what the files hold between two calls. A call that is
cut off can leave the temporary file behind, and setting up the volume is meant to remove it. -/

namespace Stratisd.Thinpool

open Run Run.Outcome Run.Stateful Engine Media Metadata Backstore List AList

/-- The files of the directory with the records, by name. -/
abbrev MdvFiles := AList fun _ : FileName => List UInt8

namespace MdvFiles

/-! ### Names -/

def mountPt (pool : PoolUuid) : FilePath :=
  [ascii "/", ascii "run", ascii "stratisd", ascii ".mdv-" ++ uuidDigits pool.val]

def filesystemDir (pool : PoolUuid) : FilePath := mountPt pool ++ [ascii "filesystems"]

def jsonName (uuid : FilesystemUuid) : FileName :=
  FileName.withExtension (uuidDigits uuid.val) (ascii "json")

def tempName (uuid : FilesystemUuid) : FileName :=
  FileName.withExtension (jsonName uuid) (ascii "temp")

/-- The test for temporary files. -/
def isTemp (pool : PoolUuid) (name : FileName) : Bool :=
  FilePath.endsWith (filesystemDir pool ++ [name]) [ascii ".temp"]

theorem uuidDigits_ne_nil (u : BitVec 128) : uuidDigits u ≠ [] := by
  intro h
  have := length_uuidDigits u
  rw [h] at this
  simp at this

theorem jsonName_eq (uuid : FilesystemUuid) :
    jsonName uuid = uuidDigits uuid.val ++ dot :: ascii "json" := by
  rw [jsonName, FileName.withExtension, FileName.fileStem_of_notMem (dot_notMem_uuidDigits _)]

theorem tempName_eq (uuid : FilesystemUuid) :
    tempName uuid = uuidDigits uuid.val ++ dot :: ascii "temp" := by
  rw [tempName, FileName.withExtension, jsonName_eq,
    FileName.fileStem_append (dot_notMem_uuidDigits _) (uuidDigits_ne_nil _) (by decide)]

theorem jsonName_injective : Function.Injective jsonName := by
  intro u v h
  rw [jsonName_eq, jsonName_eq, append_left_inj] at h
  exact congrArg FilesystemUuid.mk (uuidDigits_injective h)

theorem jsonName_ne_tempName (u v : FilesystemUuid) : jsonName u ≠ tempName v := by
  intro h
  rw [jsonName_eq, tempName_eq] at h
  have hext : dot :: ascii "json" = dot :: ascii "temp" := (append_inj' h (by decide)).2
  revert hext
  decide

-- The test compares a whole component with `.temp`, and a name that starts with a UUID is longer.
theorem isTemp_append (pool : PoolUuid) (u : BitVec 128) (ext : FileName) :
    isTemp pool (uuidDigits u ++ ext) = false := by
  rw [Bool.eq_false_iff]
  intro h
  have hlen := congrArg List.length ((FilePath.endsWith_singleton _ _ _).mp h)
  rw [length_append, length_uuidDigits, show (ascii ".temp").length = 5 by decide] at hlen
  omega

@[simp] theorem isTemp_jsonName (pool : PoolUuid) (uuid : FilesystemUuid) :
    isTemp pool (jsonName uuid) = false := by
  rw [jsonName_eq, isTemp_append]

@[simp] theorem isTemp_tempName (pool : PoolUuid) (uuid : FilesystemUuid) :
    isTemp pool (tempName uuid) = false := by
  rw [tempName_eq, isTemp_append]

/-! ### The calls -/

variable (json : Codec FilesystemSave) (pool : PoolUuid)

/-- How far the writing of a record gets. -/
inductive SaveCut where
  /-- The temporary file is not opened. -/
  | unopened
  /-- The temporary file has the first bytes of the record, possibly none or all of them. -/
  | written (bytes : ℕ)
  | renamed
  deriving DecidableEq

/-- Write the record of a filesystem. The temporary file is not truncated when it is opened. -/
def saveFs (cut : SaveCut) (name : String) (uuid : FilesystemUuid) (fs : StratFilesystem) :
    Stateful MdvFiles StratisError Unit := fun files =>
  let data := json.toBytes (fs.record name uuid)
  let old := (files.lookup (tempName uuid)).getD []
  match cut with
  | .unopened => (files, .err .io)
  | .written n => (files.insert (tempName uuid) (overwrite old (data.take n)), .err .io)
  | .renamed =>
    ((files.erase (tempName uuid)).insert (jsonName uuid) (overwrite old data), .ok ())

/-- Remove the record of a filesystem, if there is one. -/
def rmFs (io : StratisResult Unit) (uuid : FilesystemUuid) :
    Stateful MdvFiles StratisError Unit := do
  Stateful.lift io
  Stateful.modify fun files => files.erase (jsonName uuid)

/-- The environment of setting up the volume. -/
structure SetupIo where
  mount : StratisResult Unit
  createDir : StratisResult Unit
  readDir : StratisResult Unit
  /-- Whether an entry of the directory can be read. -/
  entry : FileName → Bool
  /-- Whether a file can be removed. -/
  remove : FileName → Bool

/-- Remove the temporary files; how many there are, and which of them stay. -/
def removeTempFiles (io : SetupIo) : Stateful MdvFiles StratisError (ℕ × List FilePath) := do
  Stateful.lift io.readDir
  let files ← Stateful.get
  let found := files.keys.filter fun name => io.entry name && isTemp pool name
  Stateful.modify fun files =>
    (found.filter io.remove).foldl (fun files name => files.erase name) files
  pure (found.length, (found.filter (!io.remove ·)).map fun name => filesystemDir pool ++ [name])

def setup (io : SetupIo) : Stateful MdvFiles StratisError Unit := do
  Stateful.lift io.mount
  Stateful.lift io.createDir
  Stateful.ignore (removeTempFiles pool io)

def readFile (file : Σ _ : FileName, List UInt8) : StratisResult FilesystemSave :=
  Outcome.ofOption .serde (json.ofBytes file.2)

def filesystems (io : StratisResult Unit) (files : MdvFiles) :
    StratisResult (List FilesystemSave) := do
  io
  Outcome.collect (readFile json) (files.entries.filter fun file => !isTemp pool file.1)

/-! ### What the files hold -/

/-- The files are those of the given records, each under the name of its filesystem. -/
structure Represents (files : MdvFiles) (saves : AList fun _ : FilesystemUuid => FilesystemSave) :
    Prop where
  keyed : ∀ uuid save, saves.lookup uuid = some save → save.uuid = uuid
  file : ∀ uuid, files.lookup (jsonName uuid) = (saves.lookup uuid).map json.toBytes
  named : ∀ name content, files.lookup name = some content → ∃ uuid, name = jsonName uuid

variable {json pool}

theorem Represents.empty : Represents json ∅ ∅ where
  keyed := by simp
  file := by simp
  named := by simp

variable {files : MdvFiles} {saves : AList fun _ : FilesystemUuid => FilesystemSave}

theorem Represents.lookup_tempName (h : Represents json files saves) (uuid : FilesystemUuid) :
    files.lookup (tempName uuid) = none := by
  cases hl : files.lookup (tempName uuid) with
  | none => rfl
  | some content =>
    obtain ⟨other, hname⟩ := h.named _ _ hl
    exact absurd hname.symm (jsonName_ne_tempName other uuid)

theorem Represents.lookup_erase_tempName (h : Represents json files saves) (uuid : FilesystemUuid)
    (name : FileName) : (files.erase (tempName uuid)).lookup name = files.lookup name := by
  by_cases hname : name = tempName uuid
  · rw [hname, lookup_erase, h.lookup_tempName]
  · rw [lookup_erase_ne hname]

theorem Represents.saveFs (h : Represents json files saves) (name : String) (uuid : FilesystemUuid)
    (fs : StratFilesystem) :
    Represents json (MdvFiles.saveFs json .renamed name uuid fs files).1
      (saves.insert uuid (fs.record name uuid)) := by
  have hfiles : (MdvFiles.saveFs json .renamed name uuid fs files).1 =
      (files.erase (tempName uuid)).insert (jsonName uuid) (json.toBytes (fs.record name uuid)) := by
    simp [MdvFiles.saveFs, h.lookup_tempName]
  rw [hfiles]
  refine ⟨?_, ?_, ?_⟩
  · intro u save hu
    by_cases hne : u = uuid
    · rw [hne, lookup_insert, Option.some.injEq] at hu
      rw [← hu, hne]
      rfl
    · exact h.keyed u save (by rwa [lookup_insert_ne hne] at hu)
  · intro u
    by_cases hne : u = uuid
    · rw [hne, lookup_insert, lookup_insert, Option.map_some]
    · rw [lookup_insert_ne (jsonName_injective.ne hne), lookup_insert_ne hne,
        h.lookup_erase_tempName, h.file]
  · intro n content hn
    by_cases hname : n = jsonName uuid
    · exact ⟨uuid, hname⟩
    · rw [lookup_insert_ne hname, h.lookup_erase_tempName] at hn
      exact h.named n content hn

theorem Represents.rmFs (h : Represents json files saves) (uuid : FilesystemUuid) :
    Represents json (MdvFiles.rmFs (.ok ()) uuid files).1 (saves.erase uuid) := by
  change Represents json (files.erase (jsonName uuid)) (saves.erase uuid)
  refine ⟨?_, ?_, ?_⟩
  · intro u save hu
    by_cases hne : u = uuid
    · rw [hne, lookup_erase] at hu
      cases hu
    · exact h.keyed u save (by rwa [lookup_erase_ne hne] at hu)
  · intro u
    by_cases hne : u = uuid
    · rw [hne, lookup_erase, lookup_erase, Option.map_none]
    · rw [lookup_erase_ne (jsonName_injective.ne hne), lookup_erase_ne hne, h.file]
  · intro n content hn
    by_cases hname : n = jsonName uuid
    · exact ⟨uuid, hname⟩
    · exact h.named n content (by rwa [lookup_erase_ne hname] at hn)

/-! ### Runs of completed calls -/

inductive Call where
  | saveFs (name : String) (uuid : FilesystemUuid) (fs : StratFilesystem)
  | rmFs (uuid : FilesystemUuid)

/-- A call that is completed, on the files. -/
def step (json : Codec FilesystemSave) (files : MdvFiles) : Call → MdvFiles × StratisResult Unit
  | .saveFs name uuid fs => MdvFiles.saveFs json .renamed name uuid fs files
  | .rmFs uuid => MdvFiles.rmFs (.ok ()) uuid files

end MdvFiles

namespace MetadataVol

open MdvFiles (Call)

/-- The same call on the records. -/
def step (m : MetadataVol) : Call → MetadataVol × StratisResult Unit
  | .saveFs name uuid fs => saveFs (.ok ()) name uuid fs m
  | .rmFs uuid => rmFs (.ok ()) uuid m

end MetadataVol

namespace MdvFiles

variable {json : Codec FilesystemSave} {pool : PoolUuid} {files : MdvFiles} {m : MetadataVol}
  {saves : AList fun _ : FilesystemUuid => FilesystemSave}

theorem Represents.step (h : Represents json files m.saves) (c : Call) :
    Represents json (MdvFiles.step json files c).1 (m.step c).1.saves := by
  cases c with
  | saveFs name uuid fs => exact h.saveFs name uuid fs
  | rmFs uuid => exact h.rmFs uuid

theorem Represents.run (h : Represents json files m.saves) (calls : List Call) :
    Represents json (run (MdvFiles.step json) files calls).1
      (run MetadataVol.step m calls).1.saves := by
  induction calls generalizing files m with
  | nil => exact h
  | cons c calls ih => exact ih (h.step c)

/-! ### Reading the records -/

/-- The list has every record once, and nothing else. -/
structure Lists (rs : List FilesystemSave)
    (saves : AList fun _ : FilesystemUuid => FilesystemSave) : Prop where
  nodup : (rs.map (·.uuid)).Nodup
  mem_iff : ∀ r, r ∈ rs ↔ saves.lookup r.uuid = some r

theorem Represents.readFile (h : Represents json files saves) {file : Σ _ : FileName, List UInt8}
    (hf : file ∈ files.entries) :
    ∃ save, MdvFiles.readFile json file = .ok save ∧ file.1 = jsonName save.uuid ∧
      saves.lookup save.uuid = some save := by
  have hl : files.lookup file.1 = some file.2 := mem_lookup_iff.mpr hf
  obtain ⟨uuid, hname⟩ := h.named _ _ hl
  rw [hname, h.file, Option.map_eq_some_iff] at hl
  obtain ⟨save, hsave, hdata⟩ := hl
  obtain rfl := h.keyed uuid save hsave
  exact ⟨save, by rw [MdvFiles.readFile, ← hdata, json.round_trip, ofOption_some], hname,
    hsave⟩

theorem Represents.filter_entries (h : Represents json files saves) (pool : PoolUuid) :
    (files.entries.filter fun file => !isTemp pool file.1) = files.entries := by
  refine filter_eq_self.mpr fun file hf => ?_
  obtain ⟨save, -, hname, -⟩ := h.readFile hf
  rw [hname, isTemp_jsonName, Bool.not_false]

theorem Represents.filesystems (h : Represents json files saves) (pool : PoolUuid) :
    ∃ rs, MdvFiles.filesystems json pool (.ok ()) files = .ok rs ∧ Lists rs saves := by
  have hread : ∀ file ∈ files.entries, ∀ r, MdvFiles.readFile json file = .ok r →
      jsonName r.uuid = file.1 ∧ saves.lookup r.uuid = some r := by
    intro file hf r hr
    obtain ⟨save, hok, hname, hsave⟩ := h.readFile hf
    rw [hok, ok.injEq] at hr
    exact hr ▸ ⟨hname.symm, hsave⟩
  obtain ⟨rs, hrs⟩ := exists_collect fun file hf =>
    (h.readFile hf).imp fun _ hsave => hsave.1
  refine ⟨rs, by rw [MdvFiles.filesystems, h.filter_entries]; exact hrs, ?_, fun r => ⟨?_, ?_⟩⟩
  · -- the names of the files are distinct, and each is made from the UUID that is read back
    have hkeys : rs.map (fun r => jsonName r.uuid) = files.entries.map (·.1) :=
      collect_map hrs fun file hf r hr => (hread file hf r hr).1
    have hnames : ((rs.map (·.uuid)).map jsonName).Nodup := by
      rw [map_map]
      exact hkeys ▸ files.nodupKeys
    exact hnames.of_map _
  · intro hr
    obtain ⟨file, hf, hd⟩ := exists_of_mem_collect hrs hr
    exact (hread file hf r hd).2
  · intro hr
    have hl : files.lookup (jsonName r.uuid) = some (json.toBytes r) := by
      rw [h.file, hr, Option.map_some]
    obtain ⟨save, hm, hok⟩ := exists_of_collect hrs (mem_lookup_iff.mp hl)
    rw [MdvFiles.readFile, json.round_trip, ofOption_some, ok.injEq] at hok
    rwa [hok]

/-- A temporary file is read like the file of a record. -/
theorem Represents.filesystems_insert_tempName (h : Represents json files saves) (pool : PoolUuid)
    (uuid : FilesystemUuid) (content : List UInt8) :
    MdvFiles.filesystems json pool (.ok ()) (files.insert (tempName uuid) content) = (do
      let r ← MdvFiles.readFile json ⟨tempName uuid, content⟩
      let rs ← MdvFiles.filesystems json pool (.ok ()) files
      .ok (r :: rs)) := by
  have hn : tempName uuid ∉ files := by
    rw [← lookup_eq_none]
    exact h.lookup_tempName uuid
  rw [MdvFiles.filesystems, entries_insert_of_notMem hn,
    filter_cons_of_pos (by simp), MdvFiles.filesystems]
  rfl

/-! ### Setting up the volume -/

theorem setup_files (io : SetupIo) (h : ∀ name ∈ files.keys, isTemp pool name = false) :
    (setup pool io files).1 = files := by
  have hfound : (files.keys.filter fun name => io.entry name && isTemp pool name) = [] := by
    refine filter_eq_nil_iff.mpr fun name hn => ?_
    rw [h name hn, Bool.and_false]
    decide
  have hremove : (removeTempFiles pool io files).1 = files := by
    unfold removeTempFiles
    cases io.readDir with
    | ok _ =>
      simp only [lift_ok_bind, get_bind, hfound, filter_nil, foldl_nil,
        modify_bind, pure_apply]
    | err _ => rfl
    | panic => rfl
  unfold setup
  cases io.mount with
  | err _ => rfl
  | panic => rfl
  | ok _ =>
    cases io.createDir with
    | err _ => rfl
    | panic => rfl
    | ok _ =>
      rw [lift_ok_bind, lift_ok_bind, ignore]
      obtain ⟨a, -, ha⟩ | ⟨ha, -⟩ := bind_cases (removeTempFiles pool io)
        (fun _ => pure ()) files
      · rw [ha, pure_apply, hremove]
      · rw [ha, hremove]

/-! ### A write that is cut off -/

theorem Represents.saveFs_written (h : Represents json files saves) (n : ℕ) (name : String)
    (uuid : FilesystemUuid) (fs : StratFilesystem) :
    (MdvFiles.saveFs json (.written n) name uuid fs files).1 =
      files.insert (tempName uuid) ((json.toBytes (fs.record name uuid)).take n) := by
  simp [MdvFiles.saveFs, h.lookup_tempName]

theorem Represents.isTemp_saveFs (h : Represents json files saves) (pool : PoolUuid) (cut : SaveCut)
    (name : String) (uuid : FilesystemUuid) (fs : StratFilesystem) :
    ∀ n ∈ (MdvFiles.saveFs json cut name uuid fs files).1.keys, isTemp pool n = false := by
  have hold : ∀ n ∈ files, isTemp pool n = false := by
    intro n hn
    obtain ⟨content, hl⟩ := Option.isSome_iff_exists.mp (lookup_isSome.mpr hn)
    obtain ⟨u, rfl⟩ := h.named n content hl
    exact isTemp_jsonName pool u
  intro n hn
  change n ∈ (MdvFiles.saveFs json cut name uuid fs files).1 at hn
  cases cut with
  | unopened => exact hold n hn
  | written k =>
    rw [h.saveFs_written, mem_insert] at hn
    obtain rfl | hn := hn
    · exact isTemp_tempName pool uuid
    · exact hold n hn
  | renamed =>
    simp only [MdvFiles.saveFs, mem_insert, mem_erase] at hn
    obtain rfl | ⟨-, hn⟩ := hn
    · exact isTemp_jsonName pool uuid
    · exact hold n hn

/-- What is to be found after a write of the record `new` to a volume with the given records:
every other record as it is, and one state of the record, old or new. -/
structure Recovered (saves : AList fun _ : FilesystemUuid => FilesystemSave) (new : FilesystemSave)
    (rs : List FilesystemSave) : Prop where
  nodup : (rs.map (·.uuid)).Nodup
  others : ∀ r, r.uuid ≠ new.uuid → (r ∈ rs ↔ saves.lookup r.uuid = some r)
  whole : (∀ r, r.uuid = new.uuid → (r ∈ rs ↔ saves.lookup r.uuid = some r)) ∨
    ∀ r, r.uuid = new.uuid → (r ∈ rs ↔ r = new)

variable {rs : List FilesystemSave}

theorem Lists.recovered_old (h : Lists rs saves) (new : FilesystemSave) : Recovered saves new rs :=
  ⟨h.nodup, fun r _ => h.mem_iff r, Or.inl fun r _ => h.mem_iff r⟩

theorem Lists.recovered_new {new : FilesystemSave} (h : Lists rs (saves.insert new.uuid new)) :
    Recovered saves new rs := by
  refine ⟨h.nodup, fun r hr => ?_, Or.inr fun r hr => ?_⟩
  · rw [h.mem_iff, lookup_insert_ne hr]
  · rw [h.mem_iff, hr, lookup_insert, Option.some.injEq]
    exact eq_comm

theorem Lists.recovered_cons_iff (h : Lists rs saves)
    (hkeyed : ∀ uuid save, saves.lookup uuid = some save → save.uuid = uuid)
    (new : FilesystemSave) : Recovered saves new (new :: rs) ↔ saves.lookup new.uuid = none := by
  have hmem : new.uuid ∈ rs.map (·.uuid) ↔ saves.lookup new.uuid ≠ none := by
    rw [mem_map, Option.ne_none_iff_exists']
    constructor
    · rintro ⟨old, hold, hu⟩
      exact ⟨old, hu ▸ (h.mem_iff old).mp hold⟩
    · rintro ⟨old, hold⟩
      have hu := hkeyed _ _ hold
      exact ⟨old, (h.mem_iff old).mpr (hu ▸ hold), hu⟩
  constructor
  · intro hr
    have hn : new.uuid ∉ rs.map (·.uuid) := (nodup_cons.mp hr.nodup).1
    rwa [hmem, not_ne_iff] at hn
  · intro hnone
    have hn : new.uuid ∉ rs.map (·.uuid) := by rwa [hmem, not_ne_iff]
    refine ⟨nodup_cons.mpr ⟨hn, h.nodup⟩, fun r hr => ?_, Or.inr fun r hr => ?_⟩
    · have hne : r ≠ new := fun heq => hr (congrArg _ heq)
      rw [mem_cons, or_iff_right hne, h.mem_iff]
    · have hnot : r ∉ rs := fun hm => hn (hr ▸ mem_map_of_mem hm)
      rw [mem_cons, or_iff_left hnot]

variable {save : FilesystemSave}

theorem readFile_take_err (json : Codec FilesystemSave) {n : ℕ}
    (hn : n < (json.toBytes save).length) (name : FileName) :
    readFile json ⟨name, (json.toBytes save).take n⟩ = .err .serde := by
  rw [readFile, json.broken_off save n hn, ofOption_none]

theorem readFile_take_ok (json : Codec FilesystemSave) {n : ℕ}
    (hn : (json.toBytes save).length ≤ n) (name : FileName) :
    readFile json ⟨name, (json.toBytes save).take n⟩ = .ok save := by
  rw [readFile, take_of_length_le hn, json.round_trip, ofOption_some]

/-- What is found after a write that was cut off is right unless the temporary file was there by
then. Only a complete one of a filesystem without a record does as a record. -/
theorem interrupted_record_recovers_iff (json : Codec FilesystemSave) (pool : PoolUuid)
    (dev : LinearDev) (calls : List Call) (cut : SaveCut) (name : String) (uuid : FilesystemUuid)
    (fs : StratFilesystem) (io : SetupIo) :
    (∃ rs, filesystems json pool (.ok ()) (setup pool io
        (saveFs json cut name uuid fs (run (step json) ∅ calls).1).1).1 = .ok rs ∧
      Recovered (run MetadataVol.step ⟨dev, ∅⟩ calls).1.saves (fs.record name uuid) rs) ↔
    cut = .unopened ∨ cut = .renamed ∨
      (run MetadataVol.step ⟨dev, ∅⟩ calls).1.saves.lookup uuid = none ∧
        ∃ n, cut = .written n ∧ (json.toBytes (fs.record name uuid)).length ≤ n := by
  have h : Represents json (run (step json) ∅ calls).1
      (run MetadataVol.step ⟨dev, ∅⟩ calls).1.saves :=
    Represents.run (m := ⟨dev, ∅⟩) Represents.empty calls
  rw [setup_files io (h.isTemp_saveFs pool cut name uuid fs)]
  obtain ⟨rs, hrs, hlists⟩ := h.filesystems pool
  cases cut with
  | unopened => exact iff_of_true ⟨rs, hrs, hlists.recovered_old _⟩ (Or.inl rfl)
  | renamed =>
    obtain ⟨rs', hrs', hlists'⟩ := (h.saveFs name uuid fs).filesystems pool
    exact iff_of_true ⟨rs', hrs', hlists'.recovered_new⟩ (Or.inr (Or.inl rfl))
  | written n =>
    rw [h.saveFs_written, h.filesystems_insert_tempName, hrs]
    rcases lt_or_ge n (json.toBytes (fs.record name uuid)).length with hn | hn
    · rw [readFile_take_err json hn]
      refine iff_of_false (by simp) ?_
      rintro (hcut | hcut | ⟨-, k, hcut, hk⟩)
      · cases hcut
      · cases hcut
      · cases hcut
        omega
    · rw [readFile_take_ok json hn]
      have hcons := hlists.recovered_cons_iff h.keyed (fs.record name uuid)
      constructor
      · rintro ⟨rs', hrs', hr⟩
        cases hrs'
        exact Or.inr (Or.inr ⟨hcons.mp hr, n, rfl, hn⟩)
      · rintro (hcut | hcut | ⟨hnone, -⟩)
        · cases hcut
        · cases hcut
        · exact ⟨_, rfl, hcons.mpr hnone⟩

/-! ### Setting up the thin pool -/

instance : Nontrivial FilesystemSave :=
  ⟨⟨⟨"", ⟨0⟩, 0, 0, 0⟩, ⟨"", ⟨0⟩, 0, 0, 1⟩, by decide⟩⟩

theorem nonempty_codec : Nonempty (Codec FilesystemSave) := by
  have hinj : Function.Injective fun save : FilesystemSave =>
      (save.name.toList.map Char.toNat, save.uuid.val.toNat, save.thinId, save.size,
        save.created) := by
    rintro ⟨name, ⟨uuid⟩, _, _, _⟩ ⟨name', ⟨uuid'⟩, _, _, _⟩ h
    simp only [Prod.mk.injEq] at h
    obtain ⟨hname, huuid, rfl, rfl, rfl⟩ := h
    have hchar : Function.Injective Char.toNat := fun c d hcd => Char.ext (UInt32.toNat_inj.mp hcd)
    have hname' : name = name' := String.toList_inj.mp (hchar.list_map hname)
    rw [hname', BitVec.eq_of_toNat_eq huuid]
  have := hinj.countable
  exact Codec.nonempty_of_countable FilesystemSave

theorem thinPool_setup_of_err {overflowChecks : Bool} {io : ThinPool.SetupIo} {e : StratisError}
    (h : io.filesystems = .err e) (save : ThinPoolDevSave) (flexDevs : FlexDevsSave)
    (b : Backstore) (tp : ThinPool) : ThinPool.setup overflowChecks io save flexDevs b ≠ .ok tp := by
  intro hok
  obtain ⟨saves, -, hsaves, -⟩ := ThinPool.setup_filesystems hok
  rw [h] at hsaves
  cases hsaves

theorem nodup_of_insertFilesystems {table table' : Table FilesystemUuid StratFilesystem}
    {found : List (FilesystemSave × StratFilesystem)}
    (h : ThinPool.insertFilesystems table found = .ok table') :
    (found.map (·.1.uuid)).Nodup ∧ ∀ f ∈ found, table.items.lookup f.1.uuid = none := by
  induction found generalizing table with
  | nil => simp
  | cons f rest ih =>
    obtain ⟨⟨table₁, displaced⟩, hinsert, h⟩ := Outcome.bind_eq_ok.mp h
    cases displaced with
    | some _ => cases h
    | none =>
      obtain ⟨-, hnone, rfl⟩ := Table.lookups_of_insert_none hinsert
      obtain ⟨hnodup, hrest⟩ := ih h
      -- what is filed later is not under the UUID that is filed now
      have hne : ∀ g ∈ rest, g.1.uuid ≠ f.1.uuid := by
        intro g hg heq
        have := hrest g hg
        rw [heq, lookup_insert] at this
        cases this
      refine ⟨nodup_cons.mpr ⟨?_, hnodup⟩, ?_⟩
      · rw [mem_map]
        rintro ⟨g, hg, heq⟩
        exact hne g hg heq
      · intro g hg
        obtain rfl | hg := mem_cons.mp hg
        · exact hnone
        · rw [← hrest g hg, lookup_insert_ne (hne g hg)]

/-- The thin pool can not be set up from records of which two are of one filesystem, if its thin
device is there. -/
theorem thinPool_setup_of_twice {overflowChecks : Bool} {io : ThinPool.SetupIo}
    {r : FilesystemSave} {fs : StratFilesystem} (h : io.filesystems = .ok [r, r])
    (hfs : StratFilesystem.setup (io.thinDev r.uuid) r = .ok fs) (save : ThinPoolDevSave)
    (flexDevs : FlexDevsSave) (b : Backstore) (tp : ThinPool) :
    ThinPool.setup overflowChecks io save flexDevs b ≠ .ok tp := by
  intro hok
  obtain ⟨saves, found, hsaves, hfound, htable, -⟩ := ThinPool.setup_filesystems hok
  rw [h, ok.injEq] at hsaves
  subst hsaves
  simp only [ThinPool.setupFilesystems, hfs, ok_bind, ok.injEq] at hfound
  subst hfound
  simpa using (nodup_of_insertFilesystems htable).1

/-- A filesystem that was created at the epoch. -/
def sampleFs : StratFilesystem := ⟨⟨253, 1⟩, 0, 2048, MDAHeader.epoch⟩

theorem filesystems_opened (json : Codec FilesystemSave) (pool : PoolUuid) (io : SetupIo) :
    filesystems json pool (.ok ())
      (setup pool io (saveFs json (.written 0) "home" ⟨1⟩ sampleFs ∅).1).1 = .err .serde := by
  have h : Represents json ∅ ∅ := Represents.empty
  rw [setup_files io (h.isTemp_saveFs pool _ _ _ _), h.saveFs_written,
    h.filesystems_insert_tempName,
    readFile_take_err json (length_pos_iff.mpr (json.toBytes_ne_nil _)), err_bind]

theorem filesystems_complete (json : Codec FilesystemSave) (pool : PoolUuid) (io : SetupIo) :
    filesystems json pool (.ok ()) (setup pool io
      (saveFs json (.written (json.toBytes (sampleFs.record "home" ⟨1⟩)).length) "home" ⟨1⟩ sampleFs
        (step json ∅ (.saveFs "home" ⟨1⟩ sampleFs)).1).1).1 =
      .ok [sampleFs.record "home" ⟨1⟩, sampleFs.record "home" ⟨1⟩] := by
  have hempty : Represents json ∅ ∅ := Represents.empty
  have h := hempty.saveFs "home" ⟨1⟩ sampleFs
  obtain ⟨rs, hrs, hlists⟩ := h.filesystems pool
  have hmem : ∀ x, x ∈ rs ↔ x ∈ [sampleFs.record "home" ⟨1⟩] := by
    intro x
    rw [hlists.mem_iff, mem_singleton]
    by_cases hu : x.uuid = ⟨1⟩
    · rw [hu, lookup_insert, Option.some.injEq, eq_comm]
    · rw [lookup_insert_ne hu]
      exact iff_of_false (by simp) fun hx => hu (hx ▸ rfl)
  have hsingle : rs = [sampleFs.record "home" ⟨1⟩] :=
    perm_singleton.mp ((perm_ext_iff_of_nodup (hlists.nodup.of_map _)
      (nodup_singleton _)).mpr hmem)
  rw [step, setup_files io (h.isTemp_saveFs pool _ _ _ _), h.saveFs_written,
    h.filesystems_insert_tempName, readFile_take_ok json le_rfl, hrs, hsingle]
  rfl

/-- A temporary file that is left behind without any bytes makes the records unreadable. One that
is complete lists a filesystem twice that had a record before. The thin pool can not be set up
from either. -/
theorem interrupted_save_stops_setup :
    Nonempty (Codec FilesystemSave) ∧ ∀ (json : Codec FilesystemSave) (pool : PoolUuid)
      (io : SetupIo),
      let r := sampleFs.record "home" ⟨1⟩
      let opened := (saveFs json (.written 0) "home" ⟨1⟩ sampleFs ∅).1
      let complete := (saveFs json (.written (json.toBytes r).length) "home" ⟨1⟩ sampleFs
        (step json ∅ (.saveFs "home" ⟨1⟩ sampleFs)).1).1
      filesystems json pool (.ok ()) (setup pool io opened).1 = .err .serde ∧
        filesystems json pool (.ok ()) (setup pool io complete).1 = .ok [r, r] ∧
        ∀ overflowChecks (found : ThinPool.SetupIo) save flexDevs b tp,
          found.thinDev ⟨1⟩ = some sampleFs.device →
          found.filesystems = filesystems json pool (.ok ()) (setup pool io opened).1 ∨
            found.filesystems = filesystems json pool (.ok ()) (setup pool io complete).1 →
          ThinPool.setup overflowChecks found save flexDevs b ≠ .ok tp := by
  refine ⟨nonempty_codec, fun json pool io => ⟨filesystems_opened json pool io,
    filesystems_complete json pool io, ?_⟩⟩
  intro overflowChecks found save flexDevs b tp hdev hfound
  obtain hfound | hfound := hfound
  · rw [filesystems_opened] at hfound
    exact thinPool_setup_of_err hfound save flexDevs b tp
  · have hfs : StratFilesystem.setup (found.thinDev ⟨1⟩) (sampleFs.record "home" ⟨1⟩) =
        .ok sampleFs := by
      rw [hdev]
      decide
    exact thinPool_setup_of_twice (hfound.trans (filesystems_complete json pool io)) hfs save
      flexDevs b tp

/-! ### A temporary file that was left behind -/

/-- A completed write leaves the record followed by what was left over of a longer temporary
file, and nothing else changes. -/
theorem lookup_saveFs_renamed (json : Codec FilesystemSave) (name : String)
    (uuid : FilesystemUuid) (fs : StratFilesystem) (files : MdvFiles) :
    (saveFs json .renamed name uuid fs files).1.lookup (jsonName uuid) =
        some (overwrite ((files.lookup (tempName uuid)).getD [])
          (json.toBytes (fs.record name uuid))) ∧
      ∀ other, other ≠ jsonName uuid → other ≠ tempName uuid →
        (saveFs json .renamed name uuid fs files).1.lookup other = files.lookup other := by
  constructor
  · exact lookup_insert _
  · intro other hjson htemp
    rw [saveFs, lookup_insert_ne hjson, lookup_erase_ne htemp]

theorem saveFs_eq_ok {cut : SaveCut} {name : String} {uuid : FilesystemUuid}
    {fs : StratFilesystem} {files' : MdvFiles}
    (h : saveFs json cut name uuid fs files = (files', .ok ())) :
    files' = (saveFs json .renamed name uuid fs files).1 := by
  cases cut with
  | unopened => cases h
  | written n => cases h
  | renamed => rw [h]

theorem mem_filesystems {io : StratisResult Unit} {uuid : FilesystemUuid}
    (hfile : files.lookup (jsonName uuid) = some (json.toBytes save))
    (hrs : filesystems json pool io files = .ok rs) : save ∈ rs := by
  obtain ⟨-, -, hrs⟩ := Outcome.bind_eq_ok.mp hrs
  have hf : ⟨jsonName uuid, json.toBytes save⟩ ∈
      files.entries.filter fun file => !isTemp pool file.1 := by
    rw [mem_filter, isTemp_jsonName]
    exact ⟨mem_lookup_iff.mp hfile, rfl⟩
  obtain ⟨r, hr, hread⟩ := exists_of_collect hrs hf
  rw [readFile, json.round_trip, ofOption_some, ok.injEq] at hread
  exact hread ▸ hr

/-- A write that returns leaves exactly the record, whatever else is in the directory, unless a
longer temporary file of the same filesystem was left behind. -/
theorem saveFs_replaces_record_iff (json : Codec FilesystemSave) (pool : PoolUuid) (cut : SaveCut)
    (name : String) (uuid : FilesystemUuid) (fs : StratFilesystem) (files files' : MdvFiles)
    (h : saveFs json cut name uuid fs files = (files', .ok ())) :
    (files'.lookup (jsonName uuid) = some (json.toBytes (fs.record name uuid)) ∧
      (∀ io rs, filesystems json pool io files' = .ok rs → fs.record name uuid ∈ rs) ∧
      ∀ other, other ≠ jsonName uuid → other ≠ tempName uuid →
        files'.lookup other = files.lookup other) ↔
    ∀ left, files.lookup (tempName uuid) = some left →
      left.length ≤ (json.toBytes (fs.record name uuid)).length := by
  obtain ⟨hjson, hother⟩ := lookup_saveFs_renamed json name uuid fs files
  rw [← saveFs_eq_ok h] at hjson hother
  constructor
  · rintro ⟨hfile, -, -⟩ left hleft
    rw [hjson, hleft, Option.some.injEq] at hfile
    exact overwrite_eq_iff.mp hfile
  · intro hshort
    have hfile : files'.lookup (jsonName uuid) = some (json.toBytes (fs.record name uuid)) := by
      rw [hjson, Option.some.injEq, overwrite_eq_iff]
      cases hleft : files.lookup (tempName uuid) with
      | none => exact Nat.zero_le _
      | some left => exact hshort left hleft
    exact ⟨hfile, fun _ _ hrs => mem_filesystems hfile hrs, hother⟩

/-- The temporary file of an earlier write that broke off is no longer than the new record. -/
theorem saveFs_replaces_record_broken_off :
    Nonempty (Codec FilesystemSave) ∧ ∀ (json : Codec FilesystemSave) (pool : PoolUuid),
      let files := (saveFs json (.written 1) "home" ⟨1⟩ sampleFs ∅).1
      let files' := (saveFs json .renamed "home" ⟨1⟩ sampleFs files).1
      files'.lookup (jsonName ⟨1⟩) = some (json.toBytes (sampleFs.record "home" ⟨1⟩)) ∧
        (∀ io rs, filesystems json pool io files' = .ok rs → sampleFs.record "home" ⟨1⟩ ∈ rs) ∧
        ∀ other, other ≠ jsonName ⟨1⟩ → other ≠ tempName ⟨1⟩ →
          files'.lookup other = files.lookup other := by
  refine ⟨nonempty_codec, fun json pool => ?_⟩
  refine (saveFs_replaces_record_iff json pool .renamed "home" ⟨1⟩ sampleFs _ _ rfl).mpr ?_
  intro left hleft
  simp only [saveFs, AList.lookup_empty, Option.getD_none, overwrite_nil, AList.lookup_insert,
    Option.some.injEq] at hleft
  rw [← hleft, List.length_take]
  exact Nat.min_le_right _ _

/-- With one byte too many in the temporary file the write succeeds, and the byte is in the file
of the record. -/
theorem saveFs_keeps_left_over_byte :
    Nonempty (Codec FilesystemSave) ∧ ∀ json : Codec FilesystemSave,
      let data := json.toBytes (sampleFs.record "home" ⟨1⟩)
      let after := saveFs json .renamed "home" ⟨1⟩ sampleFs
        ((∅ : MdvFiles).insert (tempName ⟨1⟩) (data ++ [125]))
      after.2 = .ok () ∧ after.1.lookup (jsonName ⟨1⟩) = some (data ++ [125]) ∧
        data ++ [125] ≠ data := by
  refine ⟨nonempty_codec, fun json => ⟨rfl, ?_, ?_⟩⟩
  · rw [(lookup_saveFs_renamed json "home" ⟨1⟩ sampleFs _).1, AList.lookup_insert,
      Option.getD_some, overwrite, List.drop_left]
  · simp

end MdvFiles

end Stratisd.Thinpool
