import Stratisd.Liminal.Liminal
import Stratisd.Metadata.HeaderRepair
import Stratisd.Pool.Assembly

/-! Finding the devices of a pool by their signature blocks, when a device appears and again
when its pool is assembled. Both open the device for reading only and both ask for a repair of
the signature blocks, so that a device which needs one is not found. -/

namespace Stratisd.Liminal

open Run Engine Media Metadata StaticHeader

/-- Where the writes to a file stop that is open for reading only: before the first byte. -/
def readOnly : Option Cut := some ⟨0, 0⟩

section

variable (crc : List UInt8 → UInt32) (display : StratisError → String)

/-- The identifiers on a device. `file` is what opening it for reading gives: its contents, or
the text of the error. -/
def deviceIdentifiersWrapper (devnode : String) (file : Except String Disk) :
    Outcome String (Outcome String (Option StratisIdentifiers)) :=
  match file with
  | .error err => .err s!"device {devnode} could not be opened for reading: {err}"
  | .ok disk => .ok ((deviceIdentifiers crc readOnly ⟨disk, []⟩).2.mapErr fun err =>
      s!"encountered an error while reading Stratis header for device {devnode}: {display err}")

/-- What udev says of a block device. -/
structure UdevEngineDevice where
  devnode : Option String
  devnum : Option Device

/-- A device that udev takes for a Stratis device. All errors are logged and the device is
disregarded. -/
def processStratisDevice (dev : UdevEngineDevice) (file : String → Except String Disk) :
    Outcome Unit (Option StratisInfo) :=
  match dev.devnode with
  | none => .ok none
  | some devnode =>
    match dev.devnum, deviceIdentifiersWrapper crc display devnode (file devnode) with
    | _, .panic | _, .ok .panic => .panic
    | none, _ | _, .err _ | _, .ok (.err _) | _, .ok (.ok none) => .ok none
    | some deviceNumber, .ok (.ok (some identifiers)) =>
      .ok (some ⟨identifiers, deviceNumber, devnode⟩)

/-- Read the BDA of a device that has been identified before. -/
def readBda (file : Option Disk) (info : StratisInfo) : StratisResult BDA :=
  let bda : StratisResult BDA := do
    let disk ← Outcome.ofOption .io file
    match readAndRepair crc readOnly ⟨disk, []⟩ with
    | (f, .ok (some header)) => do
      let res ← BDA.load crc header f.disk
      Outcome.ofOption (.msg "No BDA found") res
    | (_, .ok none) =>
      .err (.msg s!"Failed to find valid Stratis signature in header from device: {info.display}")
    | (_, .err err) => .err err
    | (_, .panic) => .panic
  bda.mapErr fun e => .msg s!"Failed to read BDA from device {info.display}: {display e}"

end

/-! ### A handle for reading -/

variable {crc : List UInt8 → UInt32} {display : StratisError → String} {disk : Disk}
  {sh : StaticHeader} {f : OpenFile}

theorem writeHeader_readOnly (crc : List UInt8 → UInt32) (sh : StaticHeader)
    (which : MetadataLocation) (f : OpenFile) :
    (writeHeader crc readOnly sh which f).2 = .err .io := rfl

theorem readAndRepair_readOnly (h : Prevails crc f.disk sh) :
    (∀ i, Holds crc f.disk i sh) ∧ readAndRepair crc readOnly f = (f, .ok (some sh)) ∨
      (¬ ∀ i, Holds crc f.disk i sh) ∧ (readAndRepair crc readOnly f).2 = .err .io := by
  rcases readAndRepair_of_prevails h with hall | ⟨i, -, hi, he⟩
  · exact Or.inl hall
  · right
    refine ⟨fun hall => hi (hall i), ?_⟩
    rw [he]
    exact writeHeader_readOnly crc sh _ f

/-! ### Finding a device -/

theorem deviceIdentifiersWrapper_iff (display : StratisError → String) (devnode : String)
    (h : Prevails crc disk sh) :
    deviceIdentifiersWrapper crc display devnode (.ok disk) = .ok (.ok (some sh.identifiers)) ↔
      ∀ i, Holds crc disk i sh := by
  unfold deviceIdentifiersWrapper deviceIdentifiers
  simp only [Stateful.bind_pure_apply, Outcome.ok.injEq, Outcome.mapErr_eq_ok]
  have hf : Prevails crc (⟨disk, []⟩ : OpenFile).disk sh := h
  rcases readAndRepair_readOnly hf with ⟨hall, he⟩ | ⟨hnot, he⟩
  · rw [he]
    exact iff_of_true rfl hall
  · rw [he]
    exact iff_of_false (by simp) hnot

theorem readBda_eq_ok {info : StratisInfo} {bda : BDA} (h : Prevails crc disk sh) :
    readBda crc display (some disk) info = .ok bda ↔
      (∀ i, Holds crc disk i sh) ∧ bda.header = sh ∧
        MDARegions.load crc staticHeaderSize sh.mdaSize disk = .ok bda.regions := by
  unfold readBda
  simp only [Outcome.mapErr_eq_ok, Outcome.ofOption_some, Outcome.ok_bind]
  have hf : Prevails crc (⟨disk, []⟩ : OpenFile).disk sh := h
  rcases readAndRepair_readOnly hf with ⟨hall, he⟩ | ⟨hnot, he⟩
  · simp only [he, BDA.load, Outcome.bind_eq_ok]
    constructor
    · rintro ⟨res, ⟨regions, hr, hres⟩, hb⟩
      cases hres
      cases hb
      exact ⟨hall, rfl, hr⟩
    · rintro ⟨-, rfl, hr⟩
      exact ⟨some bda, ⟨bda.regions, hr, rfl⟩, rfl⟩
  · refine iff_of_false (fun hb => ?_) fun hall => hnot hall.1
    rcases hr : readAndRepair crc readOnly ⟨disk, []⟩ with ⟨f, r⟩
    rw [hr] at he hb
    cases he
    cases hb

/-- What is on the devices by their paths, and how a pool is assembled from them. -/
def onDevices (crc : List UInt8 → UInt32) (display : StratisError → String)
    (contents : String → Disk) (env : SetupEnv) : SetupEnv :=
  { env with readBda := fun info => readBda crc display (some (contents info.devnode)) info }

/-- The device is discovered with the given identifiers. -/
structure Discovered (crc : List UInt8 → UInt32) (display : StratisError → String)
    (contents : String → Disk) (info : StratisInfo) (identifiers : StratisIdentifiers) : Prop where
  identified : deviceIdentifiersWrapper crc display info.devnode (.ok (contents info.devnode)) =
    .ok (.ok (some identifiers))
  processed : processStratisDevice crc display ⟨some info.devnode, some info.deviceNumber⟩
    (fun devnode => .ok (contents devnode)) =
      .ok (some ⟨identifiers, info.deviceNumber, info.devnode⟩)

theorem discovered_iff {contents : String → Disk} {info : StratisInfo}
    (h : Prevails crc (contents info.devnode) sh) :
    Discovered crc display contents info sh.identifiers ↔
      ∀ i, Holds crc (contents info.devnode) i sh := by
  rw [← deviceIdentifiersWrapper_iff display info.devnode h]
  constructor
  · exact fun hd => hd.identified
  · intro hd
    refine ⟨hd, ?_⟩
    simp only [processStratisDevice, hd]

/-- The BDAs of all devices are read exactly if each can be. -/
theorem getBdas_iff {contents : String → Disk} {header : String → StaticHeader} (env : SetupEnv)
    {infos : List (DevUuid × LStratisInfo)}
    (h : ∀ p ∈ infos, Prevails crc (contents p.2.ids.devnode) (header p.2.ids.devnode)) :
    (∃ devs, getBdas (onDevices crc display contents env) infos = .ok devs ∧
        devs.map (·.bda.header.identifiers) =
          infos.map fun p => (header p.2.ids.devnode).identifiers) ↔
      ∀ p ∈ infos, (∀ i, Holds crc (contents p.2.ids.devnode) i (header p.2.ids.devnode)) ∧
        ∃ regions, MDARegions.load crc staticHeaderSize (header p.2.ids.devnode).mdaSize
          (contents p.2.ids.devnode) = .ok regions := by
  constructor
  · rintro ⟨devs, hd, -⟩ p hp
    obtain ⟨dev, -, hdev⟩ := Outcome.exists_of_collect hd hp
    obtain ⟨bda, hb, -⟩ := Outcome.bind_eq_ok.mp hdev
    obtain ⟨hall, -, hr⟩ := (readBda_eq_ok (h p hp)).mp hb
    exact ⟨hall, bda.regions, hr⟩
  · intro hall
    obtain ⟨devs, hd⟩ : ∃ devs, getBdas (onDevices crc display contents env) infos = .ok devs := by
      apply Outcome.exists_collect
      intro p hp
      obtain ⟨hh, regions, hr⟩ := hall p hp
      have hb : readBda crc display (some (contents p.2.ids.devnode)) p.2.ids =
          .ok ⟨header p.2.ids.devnode, regions⟩ := (readBda_eq_ok (h p hp)).mpr ⟨hh, rfl, hr⟩
      exact ⟨⟨p.1, p.2, _⟩, Outcome.bind_eq_ok.mpr ⟨_, hb, rfl⟩⟩
    refine ⟨devs, hd, Outcome.collect_map hd fun p hp dev hdev => ?_⟩
    obtain ⟨bda, hb, he⟩ := Outcome.bind_eq_ok.mp hdev
    cases he
    rw [((readBda_eq_ok (h p hp)).mp hb).2.1]

/-- Devices of which each has a header that prevails are all discovered with the identifiers
of that header, and their BDAs are read, exactly if on each device both places hold the
header, so that there is nothing to repair, and the MDA regions load. -/
theorem found_iff_undamaged (crc : List UInt8 → UInt32) (display : StratisError → String)
    (contents : String → Disk) (header : String → StaticHeader) (env : SetupEnv)
    (infos : List (DevUuid × LStratisInfo))
    (h : ∀ p ∈ infos, Prevails crc (contents p.2.ids.devnode) (header p.2.ids.devnode)) :
    ((∀ p ∈ infos, Discovered crc display contents p.2.ids
        (header p.2.ids.devnode).identifiers) ∧
      ∃ devs, getBdas (onDevices crc display contents env) infos = .ok devs ∧
        devs.map (·.bda.header.identifiers) =
          infos.map fun p => (header p.2.ids.devnode).identifiers) ↔
      ∀ p ∈ infos, (∀ i, Holds crc (contents p.2.ids.devnode) i (header p.2.ids.devnode)) ∧
        ∃ regions, MDARegions.load crc staticHeaderSize (header p.2.ids.devnode).mdaSize
          (contents p.2.ids.devnode) = .ok regions := by
  rw [getBdas_iff env h]
  refine ⟨fun hd => hd.2, fun hall => ⟨fun p hp => ?_, hall⟩⟩
  exact (discovered_iff (h p hp)).mpr (hall p hp).1

/-! ### A device with one bad block -/

/-- An initialized device, but for the second signature block, which is zeroed. -/
def zeroedSecond (s : DeviceStore) : Disk :=
  writeAll s.disk (sigblockStart 1) (List.replicate (sigblockSectors * sectorSize) 0)

theorem zeroedSecond_outside {s : DeviceStore} {p : ℕ}
    (hp : p < sigblockStart 1 ∨ sigblockStart 1 + sigblockSectors * sectorSize ≤ p) :
    zeroedSecond s p = s.disk p := by
  apply writeAll_outside
  rwa [List.length_replicate]

theorem zeroedSecond_prevails {s : DeviceStore} (h : s.Initialized crc)
    (he : s.bda.header.Encodable) :
    Prevails crc (zeroedSecond s) s.bda.header ∧
      parsed crc (zeroedSecond s) 1 = some (.ok none) := by
  obtain ⟨ids, mdaDataSize, size, time, io, d, -, hi⟩ := h
  have hsecond : parsed crc (zeroedSecond s) 1 = some (.ok none) := by
    have hread := readExact_writeAll s.disk (sigblockStart 1)
      (List.replicate (sigblockSectors * sectorSize) 0)
    rw [List.length_replicate] at hread
    rw [parsed, zeroedSecond, hread, Option.map_some, sigblockFromBuf, List.length_replicate,
      if_neg (by simp), if_pos (by decide)]
  have hfirst : Holds crc (zeroedSecond s) 0 s.bda.header := by
    refine (parsed_congr fun p _ hu => ?_).trans (holds_of_initializeDevice he hi 0)
    exact zeroedSecond_outside (Or.inl (lt_of_lt_of_le hu (by decide)))
  refine ⟨prevails_of_one hfirst fun sh' h' => ?_, hsecond⟩
  change parsed crc (zeroedSecond s) 1 = _ at h'
  rw [hsecond] at h'
  cases h'

theorem zeroedSecond_load {s : DeviceStore} (h : s.Initialized crc) :
    MDARegions.load crc staticHeaderSize s.bda.header.mdaSize (zeroedSecond s) =
      .ok s.bda.regions := by
  have hrel := h.represents.2
  refine MDARegions.load_eq hrel.size fun i => ?_
  rw [← hrel.headers i]
  refine MDARegions.getMda_congr fun index _ => ?_
  refine readExact_outside (fun p hp => zeroedSecond_outside hp) (Or.inr ?_)
  exact le_trans (by decide) (Nat.le_add_right staticHeaderSize _)

/-- The zeroed block would have to be written: the device is disregarded, and its BDA can not
be read. -/
theorem zeroedSecond_hidden {s : DeviceStore} (display : StratisError → String)
    (info : StratisInfo) (h : s.Initialized crc) (he : s.bda.header.Encodable) :
    deviceIdentifiersWrapper crc display info.devnode (.ok (zeroedSecond s)) =
        .ok (.err s!"encountered an error while reading Stratis header for device {info.devnode}: {display .io}") ∧
      processStratisDevice crc display ⟨some info.devnode, some info.deviceNumber⟩
        (fun _ => .ok (zeroedSecond s)) = .ok none ∧
      readBda crc display (some (zeroedSecond s)) info =
        .err (.msg s!"Failed to read BDA from device {info.display}: {display .io}") := by
  obtain ⟨hp, hsecond⟩ := zeroedSecond_prevails h he
  have hio : (readAndRepair crc readOnly ⟨zeroedSecond s, []⟩).2 = .err .io := by
    rcases readAndRepair_readOnly (f := ⟨zeroedSecond s, []⟩) hp with ⟨hall, -⟩ | ⟨-, hio⟩
    · have h1 := (hall 1).symm.trans hsecond
      cases h1
    · exact hio
  have hwrap : deviceIdentifiersWrapper crc display info.devnode (.ok (zeroedSecond s)) =
      .ok (.err s!"encountered an error while reading Stratis header for device {info.devnode}: {display .io}") := by
    simp only [deviceIdentifiersWrapper, deviceIdentifiers, Stateful.bind_pure_apply, hio,
      Outcome.err_bind, Outcome.mapErr]
  refine ⟨hwrap, ?_, ?_⟩
  · simp only [processStratisDevice, hwrap]
  · rcases hr : readAndRepair crc readOnly ⟨zeroedSecond s, []⟩ with ⟨f, r⟩
    rw [hr] at hio
    cases hio
    simp only [readBda, Outcome.ofOption_some, Outcome.ok_bind, hr, Outcome.mapErr]

/-- An initialized device is discovered, and its BDA is read. -/
theorem found_iff_undamaged_initialized :
    let crc := checksumCastagnoli
    let display : StratisError → String := fun _ => "Bad file descriptor (os error 9)"
    let s := DeviceStore.fresh crc ⟨⟨0⟩, ⟨1⟩⟩ MDADataSize.default 4194304 7 fun _ => some 0
    let info : StratisInfo := ⟨⟨⟨0⟩, ⟨1⟩⟩, ⟨8, 16⟩, "/dev/sdb"⟩
    let env : SetupEnv := ⟨fun _ => .err .io, crc, fun _ => none, fun _ => true, fun _ => s.disk,
      fun _ => .ok 4194304, fun _ => .ok none, Pool.smoothSetup (.ok ())⟩
    Discovered crc display (fun _ => s.disk) info s.bda.header.identifiers ∧
      ∃ devs, getBdas (onDevices crc display (fun _ => s.disk) env) [(⟨1⟩, ⟨info, none⟩)] =
        .ok devs ∧ devs.map (·.bda.header.identifiers) = [s.bda.header.identifiers] := by
  intro crc display s info env
  have hinit : s.Initialized crc := DeviceStore.fresh_initialized (by decide)
  have hall : ∀ i, Holds crc s.disk i s.bda.header := by
    obtain ⟨ids, mdaDataSize, size, time, io, d, -, hi⟩ := hinit
    exact holds_of_initializeDevice ⟨by decide, by decide, by decide, by decide, rfl⟩ hi
  have hprev : Prevails crc s.disk s.bda.header := prevails_of_both (hall 0) (hall 1) (Or.inl rfl)
  have hrel := hinit.represents.2
  have hiff := found_iff_undamaged crc display (fun _ => s.disk) (fun _ => s.bda.header) env
    [(⟨1⟩, ⟨info, none⟩)] fun p _ => hprev
  obtain ⟨hdisc, hbdas⟩ := hiff.mpr fun p _ =>
    ⟨hall, s.bda.regions, MDARegions.load_eq hrel.size hrel.headers⟩
  exact ⟨hdisc _ List.mem_cons_self, hbdas⟩

/-- A device that has been initialized and whose second signature block has been zeroed since
is not identified, and its pool can not be assembled. -/
theorem damaged_sigblock_hides_device :
    let crc := checksumCastagnoli
    let display : StratisError → String := fun _ => "Bad file descriptor (os error 9)"
    let s := DeviceStore.fresh crc ⟨⟨0⟩, ⟨1⟩⟩ MDADataSize.default 4194304 7 fun _ => some 0
    let info : StratisInfo := ⟨⟨⟨0⟩, ⟨1⟩⟩, ⟨8, 16⟩, "/dev/sdb"⟩
    (Prevails crc (zeroedSecond s) s.bda.header ∧
      parsed crc (zeroedSecond s) 1 = some (.ok none)) ∧
      MDARegions.load crc staticHeaderSize s.bda.header.mdaSize (zeroedSecond s) =
        .ok s.bda.regions ∧
      deviceIdentifiersWrapper crc display info.devnode (.ok (zeroedSecond s)) =
        .ok (.err s!"encountered an error while reading Stratis header for device {info.devnode}: {display .io}") ∧
      processStratisDevice crc display ⟨some info.devnode, some info.deviceNumber⟩
        (fun _ => .ok (zeroedSecond s)) = .ok none ∧
      readBda crc display (some (zeroedSecond s)) info =
        .err (.msg s!"Failed to read BDA from device {info.display}: {display .io}") := by
  intro crc display s info
  have hinit : s.Initialized crc := DeviceStore.fresh_initialized (by decide)
  have he : s.bda.header.Encodable := ⟨by decide, by decide, by decide, by decide, rfl⟩
  exact ⟨zeroedSecond_prevails hinit he, zeroedSecond_load hinit,
    zeroedSecond_hidden display info hinit he⟩

end Stratisd.Liminal
