import Stratisd.Thinpool.CheckSpec

/-! Room for a repair. A repair of the thin pool metadata writes to the spare segments, which
then change places with the metadata segments. Only the metadata segments ever grow. -/

namespace Stratisd.Thinpool

open Run Run.Stateful Engine Extent Backstore ThinPool

/-- A thin pool on its backstore, and what has been recorded of it last. -/
structure RecordedPool where
  stacked : Stacked
  devSave : ThinPoolDevSave
  flexDevs : FlexDevsSave

/-- A thin pool that has just been recorded. -/
def RecordedPool.of (s : Stacked) : RecordedPool := ⟨s, s.thinPool.recordDev, s.thinPool.record⟩

inductive RepairInput where
  | check (env : ℕ → ThinPool.CheckIo)
  | addDatadevs (poolUuid : PoolUuid) (prepared : StratisResult (List StratBlockDev))
  | record
  /-- The thin pool is set up again from what has been recorded, on a backstore that has been set
  up again. -/
  | restart (io : ThinPool.SetupIo) (b : Backstore)

def onStacked {α : Type} : ThinPool.M α → Stateful RecordedPool StratisError α :=
  Stateful.within (·.stacked) fun stacked s => { s with stacked }

/-- A thin pool that can not be set up leaves what has been recorded for the next restart. -/
def repairStep (overflowChecks : Bool) (s : RecordedPool) :
    RepairInput → RecordedPool × StratisResult Unit
  | .check env => Stateful.ignore (onStacked (ThinPool.check overflowChecks env)) s
  | .addDatadevs poolUuid prepared => Stateful.ignore
      (onStacked (ThinPool.onBackstore (Backstore.addDatadevs poolUuid prepared))) s
  | .record => (RecordedPool.of s.stacked, .ok ())
  | .restart io b =>
    match ThinPool.setup overflowChecks io s.devSave s.flexDevs b with
    | .ok t => ({ s with stacked := ⟨t, b⟩ }, .ok ())
    | .err e => (s, .err e)
    | .panic => (s, .panic)

/-- The spare is at least as long as the metadata device that it is to replace. -/
def Segments.RoomForRepair (s : Segments) : Prop := total s.metaSegments ≤ total s.metaSpareSegments

instance (s : Segments) : Decidable s.RoomForRepair := inferInstanceAs (Decidable (_ ≤ _))

/-- In each round of a check the metadata device, as device-mapper reports it, falls short of a
thousandth of the usable size by no more than the least extension. -/
def MetaSuffices (overflowChecks : Bool) (s : RecordedPool) : RepairInput → Prop
  | .check env => ∀ round usage summary usable,
      (env round).status = .ok (.working usage summary) →
      s.stacked.backstore.datatierUsableSize overflowChecks = .ok usable →
      min (usable / 1000 / metaBlockSize) maxMetaSize ≤ usage.totalMeta + minMetaSegmentSize
  | _ => True

/-! ### A check that does not extend the metadata device -/

/-- The size of the data tier, and the metadata and spare segments. -/
def MetaFixed (overflowChecks : Bool) (usable : StratisResult ℕ) (segments spareSegments : List Range)
    (s : Stacked) : Prop :=
  s.backstore.datatierUsableSize overflowChecks = usable ∧
    s.thinPool.segments.metaSegments = segments ∧
      s.thinPool.segments.metaSpareSegments = spareSegments

variable {overflowChecks : Bool} {usable : StratisResult ℕ} {segments spareSegments : List Range}

theorem framed_metaFixed : Framed (MetaFixed overflowChecks usable segments spareSegments) := by
  intro s t hs _ h
  unfold MetaFixed
  rw [hs]
  exact h

theorem keeps_extendThinDataDevice (io : ThinPool.ExtendIo) (n : ℕ) :
    Keeps (MetaFixed overflowChecks usable segments spareSegments)
      (extendThinDataDevice overflowChecks io n) := by
  unfold extendThinDataDevice extendThinSubDevice
  split_ifs
  · exact keeps_lift _
  · refine Keeps.bind (fun s hs => ⟨?_, hs.2⟩) fun region => ?_
    · exact (Backstore.stable_datatierUsableSize overflowChecks usable).keeps_request overflowChecks
        _ _ _ _ hs.1
    · cases region with
      | none => exact keeps_pure 0
      | some region =>
        exact keeps_read fun s => (keeps_lift _).bind fun device =>
          (keeps_setSubTable framed_metaFixed _ _ _).bind fun _ =>
            (keeps_lift _).bind fun _ => Keeps.bind (fun s hs => hs) fun _ =>
              keeps_pure _

theorem keeps_growMeta_of_suffices {io : ThinPool.CheckIo} {usage : ThinPoolUsage}
    (h : ∀ n, usable = .ok n →
      min (n / 1000 / metaBlockSize) maxMetaSize ≤ usage.totalMeta + minMetaSegmentSize) :
    Keeps (MetaFixed overflowChecks usable segments spareSegments)
      (growMeta overflowChecks io usage) := by
  refine keeps_get_bind fun s hs => ?_
  rw [hs.1]
  cases usable with
  | ok n =>
    have hn := h n rfl
    rw [lift_ok_bind, if_neg (by omega)]
    exact hs
  | err e => exact hs
  | panic => exact hs

theorem keeps_check_of_suffices {env : ℕ → ThinPool.CheckIo}
    (h : ∀ round usage summary n, (env round).status = .ok (.working usage summary) →
      usable = .ok n →
      min (n / 1000 / metaBlockSize) maxMetaSize ≤ usage.totalMeta + minMetaSegmentSize) :
    Keeps (MetaFixed overflowChecks usable segments spareSegments)
      (check overflowChecks env) := by
  refine keeps_check_of_growth framed_metaFixed.devs fun round => ⟨?_, ?_⟩
  · intro usage summary hstatus
    exact keeps_growMeta_of_suffices fun n => h round usage summary n hstatus
  · exact keeps_growData fun n => keeps_extendThinDataDevice _ n

/-! ### Runs -/

/-- The metadata segments and the spare are equally long, those in use and those recorded. -/
structure RecordedPool.Level (s : RecordedPool) : Prop where
  segments : total s.stacked.thinPool.segments.metaSegments =
    total s.stacked.thinPool.segments.metaSpareSegments
  recorded : total s.flexDevs.thinMetaDev = total s.flexDevs.thinMetaDevSpare

theorem RecordedPool.level_new {io : ThinPool.NewIo} {params : ThinPoolSizeParams} {size : ℕ}
    {b b' : Backstore} {t : ThinPool}
    (h : new overflowChecks io params size b = (b', .ok t)) :
    (RecordedPool.of ⟨t, b'⟩).Level := by
  obtain ⟨m, s, d, v, halloc, -, hsegs, -⟩ := new_eq_ok h
  have hsizes := Backstore.alloc_sizes halloc
  simp only [List.map_cons, ThinPoolSizeParams.sizes, List.cons.injEq] at hsizes
  have heq : total t.segments.metaSegments = total t.segments.metaSpareSegments := by
    rw [hsegs]
    simp only [total_cons, total_nil]
    omega
  exact ⟨heq, heq⟩

theorem RecordedPool.level_step {s : RecordedPool} {i : RepairInput} (h : s.Level)
    (hi : MetaSuffices overflowChecks s i) : (repairStep overflowChecks s i).1.Level := by
  cases i with
  | check env =>
    have hkeep := keeps_check_of_suffices hi s.stacked ⟨rfl, rfl, rfl⟩
    rw [repairStep, ignore_fst]
    refine ⟨?_, h.recorded⟩
    change total (check overflowChecks env s.stacked).1.thinPool.segments.metaSegments =
      total (check overflowChecks env s.stacked).1.thinPool.segments.metaSpareSegments
    rw [hkeep.2.1, hkeep.2.2]
    exact h.segments
  | addDatadevs poolUuid prepared =>
    rw [repairStep, ignore_fst]
    exact ⟨h.segments, h.recorded⟩
  | record => exact ⟨h.segments, h.segments⟩
  | restart io b =>
    simp only [repairStep]
    split
    · rename_i t ht
      refine ⟨?_, h.recorded⟩
      -- with or without a repair, the two lists are the recorded ones
      obtain ⟨-, -, -, ⟨-, hmeta, hspare⟩ | ⟨-, hmeta, hspare⟩⟩ := setup_eq_ok ht
      · show total t.segments.metaSegments = total t.segments.metaSpareSegments
        rw [hmeta, hspare]
        exact h.recorded
      · show total t.segments.metaSegments = total t.segments.metaSpareSegments
        rw [hmeta, hspare]
        exact h.recorded.symm
    · exact h
    · exact h

/-- From a new thin pool on, over every sequence of checks, of additions of devices and of
restarts with and without a repair in which no check finds the metadata device too short by more
than the least extension, the spare is as long as the metadata device. -/
theorem room_for_repair {io : ThinPool.NewIo} {params : ThinPoolSizeParams} {size : ℕ}
    {b b' : Backstore} {t : ThinPool} {inputs : List RepairInput}
    (hnew : ThinPool.new overflowChecks io params size b = (b', .ok t))
    (ha : AllSteps (repairStep overflowChecks) (MetaSuffices overflowChecks)
      (RecordedPool.of ⟨t, b'⟩) inputs) :
    ∀ pre, pre <+: inputs → (run (repairStep overflowChecks)
      (RecordedPool.of ⟨t, b'⟩) pre).1.stacked.thinPool.segments.RoomForRepair := by
  rintro pre ⟨rest, rfl⟩
  have hpre := ((allSteps_append _).mp ha).1
  have hlevel := run_state_invariant (repairStep overflowChecks) (P := RecordedPool.Level)
    (fun s i => RecordedPool.level_step) (RecordedPool.level_new hnew) hpre
  exact hlevel.segments.le

/-! One device. -/

/-- A round of a check in which the thin pool has metadata of the given size. -/
def workingRound (totalMeta : ℕ) : ThinPool.CheckIo where
  status := .ok (.working ⟨1, totalMeta, 0, initialDataSize⟩ .good)
  extendMeta := ⟨⟨none, true, true⟩, ⟨true, true⟩, true⟩
  extendData := ⟨⟨none, true, true⟩, ⟨true, true⟩, true⟩
  lowWaterMark := true
  resumeMdv := true
  resumePool := true
  fs := fun _ => ⟨⟨.err .dm, .ok [], .ok (0, 0, 0), true⟩, .ok ()⟩

/-- The metadata is found damaged, and is repaired. -/
def repairing : ThinPool.SetupIo where
  metaDev := some ⟨253, 1⟩
  deviceExists := .ok false
  thinCheck := .err (.msg "thin_check failed")
  spareDev := some ⟨253, 4⟩
  thinRepair := .ok ()
  swap := .ok ()
  dataDev := some ⟨253, 2⟩
  poolDev := true
  mdvDev := some ⟨253, 3⟩
  mdv := .ok ()
  filesystems := .ok []
  thinDev := fun _ => none

/-- A check, and a restart with a repair, of a thin pool on a device of 2 GiB. -/
theorem room_for_repair_small : ∃ r, ThinPool.newOn (2 ^ 22) = .ok r ∧
    (run (repairStep true) (RecordedPool.of r.2) [.check fun _ => workingRound initialMetaSize,
      .restart repairing r.2.backstore]).1.stacked.thinPool.segments.RoomForRepair := by
  have hok : ∃ r, ThinPool.newOn (2 ^ 22) = .ok r ∧
      ∃ n, r.2.backstore.datatierUsableSize true = .ok n ∧ n ≤ 2 ^ 22 := by
    decide +kernel
  obtain ⟨r, hr, usable, husable, hle⟩ := hok
  refine ⟨r, hr, room_for_repair (ThinPool.new_of_newOn hr) ?_ _ List.prefix_rfl⟩
  refine ⟨fun round usage summary n hstatus hn => ?_, trivial, trivial⟩
  obtain ⟨rfl, -⟩ := ThinPoolStatus.working.inj (Outcome.ok.inj hstatus)
  obtain rfl := Outcome.ok.inj (husable.symm.trans hn)
  refine (Nat.min_le_left _ _).trans ?_
  simp only [metaBlockSize, initialMetaSize, minMetaSegmentSize]
  omega

/-- A check during which the metadata device grows to twice its first size. -/
def doublingCheck : RepairInput :=
  .check fun round => workingRound (if round = 0 then initialMetaSize else 2 * initialMetaSize)

/-- On a device of 32 GiB the first check doubles the metadata device and leaves the spare as it
is; a repair then has half the space of the metadata it is to restore. -/
theorem repair_onto_shorter_spare : ∃ r, ThinPool.newOn (2 ^ 26) = .ok r ∧
    ¬ (repairStep true (RecordedPool.of r.2)
      doublingCheck).1.stacked.thinPool.segments.RoomForRepair ∧
    total (repairStep true (RecordedPool.of r.2)
        doublingCheck).1.stacked.thinPool.segments.metaSegments =
      2 * total (run (repairStep true) (RecordedPool.of r.2) [doublingCheck, .record,
        .restart repairing (repairStep true (RecordedPool.of r.2)
          doublingCheck).1.stacked.backstore]).1.stacked.thinPool.segments.metaSegments := by
  decide +kernel

end Stratisd.Thinpool
