import Stratisd.Backstore.BackstoreSpec
import Stratisd.Thinpool.ThinPool

/-! What the code of the thin pool does when it returns: a new thin pool, a thin pool that has
been set up again, and an extension of one of its devices. -/

namespace Stratisd.Thinpool

open Run Run.Outcome Run.Stateful Engine Extent Metadata Backstore Backstore.Backstore List

/-- One of the devices under the thin pool. -/
def ThinPoolDev.dev (d : ThinPoolDev) : SubDevice → LinearDev
  | .thinData => d.dataDev
  | .thinMeta => d.metaDev

theorem ThinPoolDev.dev_setTable (d : ThinPoolDev) (table : List TargetLine) (sub sub' : SubDevice) :
    ((d.setTable table sub).dev sub').table = if sub' = sub then table else (d.dev sub').table := by
  cases sub <;> cases sub' <;> rfl

theorem Segments.get_set_of_ne (s : Segments) (segs : List Range) {sub sub' : SubDevice}
    (h : sub' ≠ sub) : (s.set segs sub).get sub' = s.get sub' := by
  cases sub <;> cases sub' <;> first | rfl | exact absurd rfl h

namespace ThinPool

variable {overflowChecks : Bool}

/-! ### Making and setting up -/

/-- The tables of the devices under the thin pool are those of its segments. -/
def TablesMatch (t : ThinPool) : Prop :=
  ∀ sub, (t.thinPool.dev sub).table = segsToTable t.backstoreDevice (t.segments.get sub)

theorem linearDev_setup_eq_ok {answer : Option Device} {table : List TargetLine} {d : LinearDev}
    (h : LinearDev.setup answer table = .ok d) : d.table = table := by
  obtain ⟨device, -, h⟩ := Outcome.bind_eq_ok.mp h
  obtain rfl := ok.inj h
  rfl

variable {b : Backstore} {t : ThinPool}

/-- A thin pool is built on four segments of the device that the backstore presents. It has no
filesystems and no records. -/
theorem build_eq_ok {io : NewIo} {size : ℕ} {segments : Option (List Range)}
    (h : build overflowChecks io size b segments = .ok t) :
    (∃ m s d v, segments = some [m, s, d, v] ∧ b.device = some t.backstoreDevice ∧
      t.segments = ⟨[m], [s], [d], [v]⟩ ∧ t.TablesMatch) ∧
    t.filesystems = Table.default ∧ t.mdv.saves = ∅ := by
  unfold build at h
  split at h
  · cases h
  · obtain ⟨device, hdevice, h⟩ := Outcome.bind_eq_ok.mp h
    obtain ⟨metaDev, hmeta, h⟩ := Outcome.bind_eq_ok.mp h
    obtain ⟨-, -, h⟩ := Outcome.bind_eq_ok.mp h
    obtain ⟨dataDev, hdata, h⟩ := Outcome.bind_eq_ok.mp h
    obtain ⟨mdvDev, -, h⟩ := Outcome.bind_eq_ok.mp h
    obtain ⟨-, -, h⟩ := Outcome.bind_eq_ok.mp h
    obtain ⟨available, -, h⟩ := Outcome.bind_eq_ok.mp h
    obtain ⟨lowater, -, h⟩ := Outcome.bind_eq_ok.mp h
    obtain ⟨-, -, h⟩ := Outcome.bind_eq_ok.mp h
    obtain rfl := ok.inj h
    refine ⟨⟨_, _, _, _, rfl, expect_eq_ok.mp hdevice, rfl, fun sub => ?_⟩, rfl, rfl⟩
    cases sub with
    | thinData => exact linearDev_setup_eq_ok hdata
    | thinMeta => exact linearDev_setup_eq_ok hmeta
  · cases h

variable {params : ThinPoolSizeParams}

theorem new_eq_ok {io : NewIo} {size : ℕ} {b' : Backstore}
    (h : new overflowChecks io params size b = (b', .ok t)) :
    ∃ m s d v, alloc io.cap params.sizes b = (b', .ok (some [m, s, d, v])) ∧
      b'.device = some t.backstoreDevice ∧ t.segments = ⟨[m], [s], [d], [v]⟩ ∧ t.TablesMatch := by
  obtain ⟨b₁, segments, halloc, h⟩ := bind_eq_ok.mp h
  obtain ⟨rfl, hbuild⟩ := Prod.mk.inj h
  obtain ⟨m, s, d, v, rfl, hbuilt⟩ := (build_eq_ok hbuild).1
  exact ⟨m, s, d, v, halloc, hbuilt⟩

theorem new_filesystems {io : NewIo} {size : ℕ} {b' : Backstore}
    (h : new overflowChecks io params size b = (b', .ok t)) :
    t.filesystems = Table.default ∧ t.mdv.saves = ∅ := by
  obtain ⟨b₁, segments, -, h⟩ := bind_eq_ok.mp h
  exact (build_eq_ok (Prod.mk.inj h).2).2

theorem tiles_first (a b c d : ℕ) (ha : 0 < a) (hb : 0 < b) (hc : 0 < c) (hd : 0 < d) :
    (⟨[(0, a)], [(a, b)], [(a + b, c)], [(a + b + c, d)]⟩ : Segments).Tiles (a + b + c + d) := by
  refine ⟨by simp [Segments.lists], ?_, by simp [Segments.lists], ?_, ?_⟩
  · simp [Segments.all, ha, hb, hc, hd]
  · simp only [Segments.all, Separate, cons_append, nil_append, pairwise_cons,
      mem_cons, not_mem_nil, or_false, forall_eq_or_imp, forall_eq,
      Range.disjoint_cells, List.Pairwise.nil, and_true, false_implies, implies_true]
    omega
  · ext x
    simp only [Segments.all, cons_append, nil_append, cells_cons, cells_nil,
      Finset.mem_union, Range.mem_cells, Finset.mem_range, Finset.notMem_empty, or_false]
    omega

theorem new_room {io : NewIo} {size : ℕ} {b' : Backstore} (hb : b.Room) (hnext : b.next = 0)
    (hpos : ∀ n ∈ params.sizes, 0 < n) (h : new overflowChecks io params size b = (b', .ok t)) :
    b'.Room ∧ t.segments.Tiles b'.next := by
  obtain ⟨m, s, d, v, halloc, -, hsegs, -⟩ := new_eq_ok h
  obtain ⟨hroom, ⟨hres, hn⟩ | ⟨hres, -⟩⟩ := alloc_room hb io.cap params.sizes
  · rw [halloc] at hroom hres hn
    refine ⟨hroom, ?_⟩
    simp only [hnext, ThinPoolSizeParams.sizes, chunksFrom, ok.injEq,
      Option.some.injEq, cons.injEq, Nat.zero_add] at hres
    obtain ⟨rfl, rfl, rfl, rfl, -⟩ := hres
    simp only [ThinPoolSizeParams.sizes, forall_mem_cons] at hpos
    obtain ⟨h1, h2, h3, h4, -⟩ := hpos
    have hsum : b'.next = params.metaSize * metaBlockSize + params.metaSize * metaBlockSize +
        datablocksToSectors params.dataSize + params.mdvSize := by
      rw [hn, hnext, ThinPoolSizeParams.sizes]
      simp only [sum_cons, sum_nil]
      omega
    rw [hsegs, hsum]
    exact tiles_first _ _ _ _ h1 h2 h3 h4
  · exact absurd (congrArg Prod.snd halloc) (hres _)

variable {io : SetupIo}

/-- Without a repair the segments are the recorded ones; after one the metadata and the spare
have changed places. -/
theorem setupMetadev_eq_ok {device : Device} {metaSegments spareSegments : List Range}
    {r : LinearDev × List Range × List Range}
    (h : setupMetadev io device metaSegments spareSegments = .ok r) :
    (needsRepair io = .ok false ∧ r.2 = (metaSegments, spareSegments)) ∨
      needsRepair io = .ok true ∧ r.2 = (spareSegments, metaSegments) := by
  obtain ⟨metaDev, -, h⟩ := Outcome.bind_eq_ok.mp h
  obtain ⟨repair, hrepair, h⟩ := Outcome.bind_eq_ok.mp h
  split at h
  · obtain ⟨newDev, -, h⟩ := Outcome.bind_eq_ok.mp h
    obtain rfl := ok.inj h
    exact Or.inr ⟨by simp [*], rfl⟩
  · obtain rfl := ok.inj h
    exact Or.inl ⟨by simp [*], rfl⟩

theorem table_of_setupMetadev {device : Device} {metaSegments spareSegments : List Range}
    {r : LinearDev × List Range × List Range}
    (h : setupMetadev io device metaSegments spareSegments = .ok r) :
    r.1.table = segsToTable device r.2.1 := by
  obtain ⟨metaDev, hmeta, h⟩ := Outcome.bind_eq_ok.mp h
  obtain ⟨repair, -, h⟩ := Outcome.bind_eq_ok.mp h
  split at h
  · obtain ⟨newDev, hnew, h⟩ := Outcome.bind_eq_ok.mp h
    obtain rfl := ok.inj h
    obtain ⟨spareDev, hspare, hnew⟩ := Outcome.bind_eq_ok.mp hnew
    obtain ⟨-, -, hnew⟩ := Outcome.bind_eq_ok.mp hnew
    obtain ⟨-, -, hnew⟩ := Outcome.bind_eq_ok.mp hnew
    obtain rfl := ok.inj hnew
    exact linearDev_setup_eq_ok hspare
  · obtain rfl := ok.inj h
    exact linearDev_setup_eq_ok hmeta

variable {save : ThinPoolDevSave} {flexDevs : FlexDevsSave}

/-- What a thin pool is set up from. -/
theorem exists_of_setup (h : setup overflowChecks io save flexDevs b = .ok t) :
    ∃ parts saves found, b.device = some t.backstoreDevice ∧
      setupMetadev io t.backstoreDevice flexDevs.thinMetaDev flexDevs.thinMetaDevSpare = .ok parts ∧
      t.segments = ⟨parts.2.1, parts.2.2, flexDevs.thinDataDev, flexDevs.metaDev⟩ ∧
      t.TablesMatch ∧ io.filesystems = .ok saves ∧ setupFilesystems io saves = .ok found ∧
      insertFilesystems Table.default found = .ok t.filesystems ∧
      t.idGen = ThinDevIdPool.newFromIds (saves.map (·.thinId)) ∧
      t.mdv.saves = (saves.map fun save => (⟨save.uuid, save⟩ : Σ _, FilesystemSave)).toAList := by
  obtain ⟨device, hdevice, h⟩ := Outcome.bind_eq_ok.mp h
  obtain ⟨parts, hmeta, h⟩ := Outcome.bind_eq_ok.mp h
  obtain ⟨dataDev, hdata, h⟩ := Outcome.bind_eq_ok.mp h
  obtain ⟨available, -, h⟩ := Outcome.bind_eq_ok.mp h
  obtain ⟨lowater, -, h⟩ := Outcome.bind_eq_ok.mp h
  obtain ⟨-, -, h⟩ := Outcome.bind_eq_ok.mp h
  obtain ⟨mdvDev, -, h⟩ := Outcome.bind_eq_ok.mp h
  obtain ⟨-, -, h⟩ := Outcome.bind_eq_ok.mp h
  obtain ⟨saves, hsaves, h⟩ := Outcome.bind_eq_ok.mp h
  obtain ⟨found, hfound, h⟩ := Outcome.bind_eq_ok.mp h
  obtain ⟨table, htable, h⟩ := Outcome.bind_eq_ok.mp h
  obtain rfl := ok.inj h
  refine ⟨parts, saves, found, expect_eq_ok.mp hdevice, hmeta, rfl, fun sub => ?_, hsaves,
    hfound, htable, rfl, rfl⟩
  cases sub with
  | thinData => exact linearDev_setup_eq_ok hdata
  | thinMeta => exact table_of_setupMetadev hmeta

theorem setup_eq_ok (h : setup overflowChecks io save flexDevs b = .ok t) :
    b.device = some t.backstoreDevice ∧ t.segments.dataSegments = flexDevs.thinDataDev ∧
      t.segments.mdvSegments = flexDevs.metaDev ∧
      ((needsRepair io = .ok false ∧ t.segments.metaSegments = flexDevs.thinMetaDev ∧
          t.segments.metaSpareSegments = flexDevs.thinMetaDevSpare) ∨
        needsRepair io = .ok true ∧ t.segments.metaSegments = flexDevs.thinMetaDevSpare ∧
          t.segments.metaSpareSegments = flexDevs.thinMetaDev) := by
  obtain ⟨parts, saves, found, hdevice, hmeta, hsegs, -⟩ := exists_of_setup h
  rw [hsegs]
  refine ⟨hdevice, rfl, rfl, ?_⟩
  simpa only [Prod.ext_iff] using setupMetadev_eq_ok hmeta

theorem tablesMatch_of_setup (h : setup overflowChecks io save flexDevs b = .ok t) :
    t.TablesMatch := by
  obtain ⟨parts, saves, found, -, -, -, htables, -⟩ := exists_of_setup h
  exact htables

theorem setup_filesystems (h : setup overflowChecks io save flexDevs b = .ok t) :
    ∃ saves found, io.filesystems = .ok saves ∧ setupFilesystems io saves = .ok found ∧
      insertFilesystems Table.default found = .ok t.filesystems ∧
      t.idGen = ThinDevIdPool.newFromIds (saves.map (·.thinId)) ∧
      t.mdv.saves = (saves.map fun save => (⟨save.uuid, save⟩ : Σ _, FilesystemSave)).toAList := by
  obtain ⟨parts, saves, found, -, -, -, -, hfilesystems⟩ := exists_of_setup h
  exact ⟨saves, found, hfilesystems⟩

/-! ### Extending -/

/-- Device-mapper does everything it is asked to after a region of the cap device has been
given out. -/
def ExtendIo.Attaches (io : ExtendIo) : Prop :=
  io.table.load = true ∧ io.table.finish = true ∧ io.resume = true

/-- The thin pool with one device extended by a region of the cap device. -/
def withRegion (t : ThinPool) (device : Device) (sub : SubDevice) (region : Range) : ThinPool :=
  { t with
    thinPool := t.thinPool.setTable
      (segsToTable device (coalesceSegs (t.segments.get sub) [region])) sub
    segments := t.segments.set (coalesceSegs (t.segments.get sub) [region]) sub }

theorem attachRegion_some {s : Stacked} {device : Device} (hd : s.backstore.device = some device)
    (io : ExtendIo) (sub : SubDevice) (region : Range) :
    let r := attachRegion io sub (some region) s
    (io.Attaches ∧ r = (⟨s.thinPool.withRegion device sub region, s.backstore⟩, .ok region.2)) ∨
      ¬ io.Attaches ∧ r.2 = .err .dm ∧ r.1.backstore = s.backstore ∧
        r.1.thinPool.segments = s.thinPool.segments := by
  obtain ⟨cap, ⟨load, finish⟩, resume⟩ := io
  rw [attachRegion, get_bind, hd]
  cases load <;> cases finish <;> cases resume <;>
    first
    | exact Or.inl ⟨⟨rfl, rfl, rfl⟩, rfl⟩
    | exact Or.inr ⟨by simp [ExtendIo.Attaches], rfl, rfl, rfl⟩

theorem device_isSome_of_pos (h : 0 < b.size) : ∃ d, b.device = some d := by
  unfold size at h
  unfold device
  split at h
  · split <;> simp_all
  · split <;> simp_all
  · simp at h

theorem keeps_attachRegion (I : Backstore → Prop) (io : ExtendIo) (sub : SubDevice)
    (region : Option Range) :
    Keeps (fun s => I s.backstore) (attachRegion io sub region) := by
  cases region with
  | none => exact keeps_pure 0
  | some region =>
    refine keeps_read fun s => (keeps_lift _).bind fun device =>
      Keeps.bind ?_ fun _ => (keeps_lift _).bind fun _ => fun s hs => hs
    exact (keeps_lift _).bind fun _ => Keeps.bind (fun s hs => hs) fun _ =>
      keeps_lift _

theorem keeps_extendThinSubDevice {I : Backstore → Prop} (hI : Backstore.Stable I)
    (overflowChecks : Bool) (io : ExtendIo) (sub : SubDevice) (extendSize modulus : ℕ) :
    Keeps (fun s => I s.backstore)
      (extendThinSubDevice overflowChecks io sub extendSize modulus) := by
  unfold extendThinSubDevice
  split_ifs
  · exact keeps_lift _
  · exact Keeps.bind (fun s hs => hI.keeps_request overflowChecks _ _ _ _ hs) fun region =>
      keeps_attachRegion I io sub region

/-- How an extension ends. Nothing has been given out and the thin pool is as before; or the
next sectors of the cap device have been given out, and they are attached unless device-mapper
fails, in which case the segments are as before. -/
theorem extendThinSubDevice_room (overflowChecks : Bool) {s : Stacked} (h : s.backstore.Room)
    (io : ExtendIo) (sub : SubDevice) (extendSize modulus : ℕ) :
    let r := extendThinSubDevice overflowChecks io sub extendSize modulus s
    r.1.backstore.Room ∧
      ((r.1.backstore.next = s.backstore.next ∧ r.1.thinPool = s.thinPool ∧
          ∀ n, r.2 = .ok n → n = 0) ∨
        ∃ got device, 0 < got ∧ r.1.backstore.next = s.backstore.next + got ∧
          r.1.backstore.device = some device ∧
          ((io.Attaches ∧ r.2 = .ok got ∧
              r.1.thinPool = s.thinPool.withRegion device sub (s.backstore.next, got)) ∨
            ¬ io.Attaches ∧ r.2 = .err .dm ∧ r.1.thinPool.segments = s.thinPool.segments)) := by
  intro r
  by_cases hm : modulus = 0
  · have hr : r = (s, .panic) := by simp [r, extendThinSubDevice, hm]
    rw [hr]
    exact ⟨h, Or.inl ⟨rfl, rfl, by simp⟩⟩
  · obtain ⟨hs, hcases⟩ := request_room h overflowChecks io.cap extendSize modulus
    set q := request overflowChecks io.cap extendSize modulus s.backstore with hq
    have hr : r = (onBackstore (request overflowChecks io.cap extendSize modulus) >>=
        attachRegion io sub) s := by
      simp only [r, extendThinSubDevice, hm, if_false]
    have hback : onBackstore (request overflowChecks io.cap extendSize modulus) s =
        (⟨s.thinPool, q.1⟩, q.2) := rfl
    rcases hcases with ⟨got, hpos, -, -, hres, hnext⟩ | ⟨hres, hnext⟩
    · obtain ⟨device, hdevice⟩ := device_isSome_of_pos (b := q.1)
        (by have := hs.next_le; omega)
      rw [bind_of_ok (by rw [hback]; exact hres), hback] at hr
      rcases attachRegion_some (s := ⟨s.thinPool, q.1⟩) hdevice io sub (s.backstore.next, got) with
        ⟨ha, heq⟩ | ⟨ha, herr, hb, hsegs⟩
      · rw [hr, heq]
        exact ⟨hs, Or.inr ⟨got, device, hpos, hnext, hdevice, Or.inl ⟨ha, rfl, rfl⟩⟩⟩
      · rw [hr, hb]
        exact ⟨hs, Or.inr ⟨got, device, hpos, hnext, hdevice, Or.inr ⟨ha, herr, hsegs⟩⟩⟩
    · rcases bind_cases
          (onBackstore (request overflowChecks io.cap extendSize modulus))
          (attachRegion io sub) s with ⟨region, hok, heq⟩ | ⟨heq, hne⟩
      · cases region with
        | some region => exact absurd hok (hres region)
        | none =>
          rw [hr, heq]
          exact ⟨hs, Or.inl ⟨hnext, rfl, fun n hn => (ok.inj hn).symm⟩⟩
      · rw [hr, heq]
        exact ⟨hs, Or.inl ⟨hnext, rfl, fun n hn => absurd hn (hne n)⟩⟩

theorem sound_extendThinSubDevice (overflowChecks : Bool) {s : Stacked} (h : s.backstore.Sound)
    (io : ExtendIo) (sub : SubDevice) (extendSize modulus : ℕ) :
    let r := extendThinSubDevice overflowChecks io sub extendSize modulus s
    r.1.backstore.Sound ∧ Backstore.Grows s.backstore r.1.backstore := by
  intro r
  have hroom := (extendThinSubDevice_room overflowChecks h.toRoom io sub extendSize modulus).1
  have hgrown := keeps_extendThinSubDevice (stable_grownFrom s.backstore) overflowChecks
    io sub extendSize modulus s h.grownFrom
  exact ⟨⟨hroom, hgrown.tracked, hgrown.shape⟩, hgrown.grows⟩

/-! ### A thin pool on one device

Device-mapper does everything it is asked to. -/

def allGood : NewIo :=
  ⟨⟨some ⟨253, 0⟩, true, true⟩, some ⟨253, 1⟩, .ok (), some ⟨253, 2⟩, some ⟨253, 3⟩, .ok (), true⟩

/-- A new thin pool on one device, with the backstore that it was made on. -/
def newOn (devSize : ℕ) : StratisResult (Backstore × Stacked) := do
  let d ← StratBlockDev.new ⟨8, 16⟩ (BDA.new ⟨⟨0⟩, ⟨1⟩⟩ MDADataSize.default devSize 0) [] none none
  let b ← Backstore.initializeStore (.ok [d])
  let made := new true allGood ThinPoolSizeParams.default dataBlockSize b
  let t ← made.2
  .ok (b, ⟨t, made.1⟩)

theorem new_of_newOn {devSize : ℕ} {s : Stacked} (h : newOn devSize = .ok (b, s)) :
    new true allGood ThinPoolSizeParams.default dataBlockSize b =
      (s.backstore, .ok s.thinPool) := by
  obtain ⟨d, -, h⟩ := Outcome.bind_eq_ok.mp h
  obtain ⟨b', -, h⟩ := Outcome.bind_eq_ok.mp h
  obtain ⟨t, ht, h⟩ := Outcome.bind_eq_ok.mp h
  obtain ⟨rfl, rfl⟩ := Prod.mk.inj (ok.inj h)
  exact Prod.ext rfl ht

end ThinPool

end Stratisd.Thinpool
