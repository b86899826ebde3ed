import Stratisd.Pool.DeviceAgreement

/-! Setting up a pool from its metadata. A repair of the thin pool metadata exchanges two lists
of segments; whether that is written down is decided by the check that follows. -/

namespace Stratisd.Pool

open Run Run.Outcome Run.Stateful Engine Metadata Backstore Thinpool ThinPool

/-! ### A round without an extension -/

section round

variable {overflowChecks : Bool} {s s' : Stacked}

theorem segments_of_extension_zero (h : s.backstore.Room) (io : ThinPool.ExtendIo)
    (sub : SubDevice) (n modulus : ℕ) {extended : Option ℕ}
    (he : attempt (extendThinSubDevice overflowChecks io sub n modulus) s =
      (s', .ok extended)) (hzero : extended.getD 0 = 0) :
    s'.backstore.Room ∧ s'.thinPool.segments = s.thinPool.segments := by
  obtain ⟨hroom, hcases⟩ :=
    extendThinSubDevice_room overflowChecks h io sub n modulus
  have hs : (extendThinSubDevice overflowChecks io sub n modulus s).1 = s' ∧
      ∀ got, (extendThinSubDevice overflowChecks io sub n modulus s).2 = .ok got →
        got = 0 := by
    rcases attempt_eq_ok he with ⟨got, heq, rfl⟩ | ⟨e, heq, -⟩
    · rw [heq]
      refine ⟨rfl, fun got' hg => ?_⟩
      rw [← ok.inj hg]
      exact hzero
    · rw [heq]
      exact ⟨rfl, by simp⟩
  rw [hs.1] at hroom hcases
  refine ⟨hroom, ?_⟩
  rcases hcases with ⟨-, ht, -⟩ | ⟨got, device, hpos, -, -, ⟨-, hok, -⟩ | ⟨-, -, hsegs⟩⟩
  · rw [ht]
  · have := hs.2 got hok
    omega
  · exact hsegs

theorem segments_of_growMeta {io : ThinPool.CheckIo} {usage : ThinPoolUsage}
    (h : s.backstore.Room) (hg : growMeta overflowChecks io usage s = (s', .ok false)) :
    s'.backstore.Room ∧ s'.thinPool.segments = s.thinPool.segments := by
  unfold growMeta at hg
  rw [get_bind] at hg
  obtain ⟨s₁, usable, hlift, hg⟩ := bind_eq_ok.mp hg
  obtain ⟨rfl, -⟩ := Prod.mk.inj hlift
  split_ifs at hg
  · obtain ⟨s₂, extended, he, hg⟩ := bind_eq_ok.mp hg
    obtain ⟨rfl, hres⟩ := Prod.mk.inj hg
    exact segments_of_extension_zero h _ _ _ _ he (by simpa using ok.inj hres)
  · obtain ⟨rfl, -⟩ := Prod.mk.inj hg
    exact ⟨h, rfl⟩

theorem segments_of_growData {io : ThinPool.CheckIo} (h : s.backstore.Room)
    (hg : growData overflowChecks io s = (s', .ok 0)) :
    s'.backstore.Room ∧ s'.thinPool.segments = s.thinPool.segments := by
  unfold growData at hg
  rw [get_bind] at hg
  obtain ⟨s₁, free, hlift, hg⟩ := bind_eq_ok.mp hg
  obtain ⟨rfl, -⟩ := Prod.mk.inj hlift
  split_ifs at hg
  · obtain ⟨rfl, -⟩ := Prod.mk.inj hg
    exact ⟨h, rfl⟩
  · obtain ⟨s₂, extended, he, hg⟩ := bind_eq_ok.mp hg
    obtain ⟨rfl, hres⟩ := Prod.mk.inj hg
    exact segments_of_extension_zero h _ _ _ _ he (ok.inj hres)

theorem framed_segments (segs : Segments) : Framed fun s => s.thinPool.segments = segs :=
  fun _ _ hs _ h => hs.trans h

theorem segments_of_doCheck {io : ThinPool.CheckIo} (h : s.backstore.Room)
    (hc : doCheck overflowChecks io s = (s', .ok false)) :
    s'.thinPool.segments = s.thinPool.segments := by
  obtain ⟨status, s₁, -, hgrow, hkeeps⟩ := doCheck_eq_ok hc
  rw [hkeeps _ (framed_segments s₁.thinPool.segments).devs rfl]
  cases status with
  | working usage summary =>
    obtain ⟨s₂, s₃, grown, n, hmeta, hdata, hnone, hkeeps⟩ := grow_working_eq_ok hgrow
    obtain ⟨rfl, rfl⟩ : grown = false ∧ n = 0 := by simpa using hnone.symm
    obtain ⟨hroom, hsegs⟩ := segments_of_growMeta h hmeta
    rw [hkeeps _ (framed_segments s₃.thinPool.segments).devs rfl,
      (segments_of_growData hroom hdata).2, hsegs]
  | error =>
    obtain ⟨rfl, -⟩ := Prod.mk.inj hgrow
    rfl
  | fail =>
    obtain ⟨rfl, -⟩ := Prod.mk.inj hgrow
    rfl

theorem segments_of_check {env : ℕ → ThinPool.CheckIo} (h : s.backstore.Room)
    (hc : check overflowChecks env s = (s', .ok false)) :
    s'.thinPool.segments = s.thinPool.segments := by
  unfold check at hc
  rw [get_bind, checkRounds, checkFrom] at hc
  obtain ⟨s₁, again, hround, hc⟩ := bind_eq_ok.mp hc
  cases again with
  | true =>
    obtain ⟨_, _, -, hc⟩ := bind_eq_ok.mp hc
    cases hc
  | false =>
    obtain ⟨rfl, -⟩ := Prod.mk.inj hc
    exact segments_of_doCheck h hround

end round

/-! ### Assembly -/

theorem checkMetadata_eq_ok {metadata : PoolSave} (h : checkMetadata metadata = .ok ()) :
    ∃ cap segs, metadata.backstore.cap.allocs[0]? = some cap ∧
      metadata.backstore.dataTier.blockdev.allocs[0]? = some segs ∧
      cap.2 ≤ (segs.map (·.length)).sum := by
  obtain ⟨next, -, h⟩ := Outcome.bind_eq_ok.mp h
  obtain ⟨cap, hcap, h⟩ := Outcome.bind_eq_ok.mp h
  obtain ⟨_, hnext, h⟩ := Outcome.bind_eq_ok.mp h
  obtain ⟨_, -, h⟩ := Outcome.bind_eq_ok.mp h
  obtain ⟨segs, hsegs, h⟩ := Outcome.bind_eq_ok.mp h
  refine ⟨cap, segs, expect_eq_ok.mp hcap, expect_eq_ok.mp hsegs, ?_⟩
  unfold checkCap at hnext
  unfold checkDataTier at h
  split_ifs at hnext h
  omega

section assemble

variable {overflowChecks : Bool} {io : StratPool.SetupIo} {datadevs cachedevs : List StratBlockDev}
  {timestamp : DateTime} {metadata : PoolSave} {s : Stacked}

theorem assemble_eq_ok
    (h : StratPool.assemble overflowChecks io datadevs cachedevs timestamp metadata = .ok s) :
    s.backstore.Room ∧
      setup overflowChecks io.thinPool metadata.thinpoolDev metadata.flexDevs s.backstore =
        .ok s.thinPool := by
  obtain ⟨_, hcheck, h⟩ := Outcome.bind_eq_ok.mp h
  obtain ⟨b, hb, h⟩ := Outcome.bind_eq_ok.mp h
  obtain ⟨t, ht, h⟩ := Outcome.bind_eq_ok.mp h
  obtain rfl := ok.inj h
  obtain ⟨cap, segs, hcap, hsegs, hle⟩ := checkMetadata_eq_ok hcheck
  exact ⟨(Backstore.room_of_setup hb hcap hsegs hle).1, ht⟩

/-- No repair is needed if the thin pool is in use already or its metadata is good. -/
def NoRepair (io : ThinPool.SetupIo) : Prop := io.deviceExists = .ok true ∨ io.thinCheck.isOk = true

theorem noRepair_of_needsRepair {io : ThinPool.SetupIo} (h : needsRepair io = .ok false) :
    NoRepair io := by
  obtain ⟨found, hfound, h⟩ := Outcome.bind_eq_ok.mp h
  have h := ok.inj h
  cases found with
  | true => exact Or.inl hfound
  | false => exact Or.inr (by simpa using h)

theorem not_noRepair_of_needsRepair {io : ThinPool.SetupIo}
    (h : needsRepair io = .ok true) : ¬ NoRepair io := by
  obtain ⟨found, hfound, h⟩ := Outcome.bind_eq_ok.mp h
  have h : found = false ∧ io.thinCheck.isOk = false := by simpa using ok.inj h
  rintro (hex | hgood)
  · rw [hfound, h.1] at hex
    cases hex
  · rw [h.2] at hgood
    cases hgood

theorem record_of_assemble
    (h : StratPool.assemble overflowChecks io datadevs cachedevs timestamp metadata = .ok s) :
    s.thinPool.segments.record = metadata.flexDevs ↔
      NoRepair io.thinPool ∨
        metadata.flexDevs.thinMetaDev = metadata.flexDevs.thinMetaDevSpare := by
  obtain ⟨-, hdata, hmdv, hcases⟩ := setup_eq_ok (assemble_eq_ok h).2
  rcases hcases with ⟨hrepair, hmeta, hspare⟩ | ⟨hrepair, hmeta, hspare⟩
  · have hsame : s.thinPool.segments.record = metadata.flexDevs := by
      rw [Segments.record, hdata, hmdv, hmeta, hspare]
    exact iff_of_true hsame (Or.inl (noRepair_of_needsRepair hrepair))
  · have hrecord : s.thinPool.segments.record = { metadata.flexDevs with
        thinMetaDev := metadata.flexDevs.thinMetaDevSpare
        thinMetaDevSpare := metadata.flexDevs.thinMetaDev } := by
      rw [Segments.record, hdata, hmdv, hmeta, hspare]
    rw [hrecord, or_iff_right (not_noRepair_of_needsRepair hrepair)]
    constructor
    · intro heq
      exact (congrArg FlexDevsSave.thinMetaDev heq).symm
    · intro heq
      rw [heq]
      cases hf : metadata.flexDevs
      simp_all

theorem writeMetadata_eq_ok {save : StratisResult Unit} {p p' : StratPool} {name : String}
    (h : StratPool.writeMetadata save name p = (p', .ok ())) :
    p' = { p with saved := some (p.record name) } := by
  obtain ⟨_, _, hsave, h⟩ := bind_eq_ok.mp h
  obtain ⟨rfl, -⟩ := Prod.mk.inj hsave
  exact (Prod.mk.inj h).1.symm

/-- After a pool has been set up, the metadata on the devices has the segments that the pool
uses, if and only if no repair was needed, or the repair changed nothing, or the check of the
assembled pool reported a change. -/
theorem saved_layout_is_live_iff {p : StratPool}
    (h : StratPool.setup overflowChecks io datadevs cachedevs timestamp metadata = .ok p)
    (name : String) :
    p.saved.map (·.flexDevs) = some (p.record name).flexDevs ↔
      NoRepair io.thinPool ∨
        metadata.flexDevs.thinMetaDev = metadata.flexDevs.thinMetaDevSpare ∨
        ∃ s, StratPool.assemble overflowChecks io datadevs cachedevs timestamp metadata = .ok s ∧
          (ThinPool.check overflowChecks io.check s).2 = .ok true := by
  obtain ⟨s, hs, h⟩ := Outcome.bind_eq_ok.mp h
  obtain ⟨changed, hchanged, h⟩ := Outcome.bind_eq_ok.mp h
  obtain ⟨_, hwritten, h⟩ := Outcome.bind_eq_ok.mp h
  obtain rfl := Outcome.ok.inj h
  have hcheck : (∃ s', StratPool.assemble overflowChecks io datadevs cachedevs timestamp metadata =
      .ok s' ∧ (ThinPool.check overflowChecks io.check s').2 = .ok true) ↔ changed = true := by
    constructor
    · rintro ⟨s', hs', hc⟩
      obtain rfl := Outcome.ok.inj (hs.symm.trans hs')
      exact Outcome.ok.inj (hchanged.symm.trans hc)
    · rintro rfl
      exact ⟨s, hs, hchanged⟩
  rw [hcheck, ← or_assoc, ← record_of_assemble hs]
  cases changed with
  | true =>
    -- the metadata has been written after the check
    refine iff_of_true ?_ (Or.inr rfl)
    have hp : (StratPool.writeIfChanged io.save metadata.name true
        ⟨(ThinPool.check overflowChecks io.check s).1, some metadata⟩).1 = _ :=
      writeMetadata_eq_ok (Prod.ext rfl hwritten)
    rw [hp]
    rfl
  | false =>
    have hsegs := segments_of_check (assemble_eq_ok hs).1 (Prod.ext rfl hchanged)
    have hp : (StratPool.writeIfChanged io.save metadata.name false
        ⟨(ThinPool.check overflowChecks io.check s).1, some metadata⟩).1 =
        ⟨(ThinPool.check overflowChecks io.check s).1, some metadata⟩ := rfl
    rw [hp]
    have hlive : (StratPool.record ⟨(ThinPool.check overflowChecks io.check s).1, some metadata⟩
        name).flexDevs = s.thinPool.segments.record := congrArg Segments.record hsegs
    rw [hlive]
    simp only [Option.map_some, Option.some.injEq, Bool.false_eq_true, or_false]
    exact eq_comm

end assemble

/-! A pool on one device that is set up again from its own metadata. -/

/-- Device-mapper and the tools do what they are asked to, whatever they find out about the
thin pool metadata. -/
def smoothSetup (thinCheck : StratisResult Unit) : StratPool.SetupIo where
  backstore := ⟨some ⟨253, 0⟩, none, true, none, none⟩
  thinPool := {
    metaDev := some ⟨253, 1⟩
    deviceExists := .ok false
    thinCheck := thinCheck
    spareDev := some ⟨253, 4⟩
    thinRepair := .ok ()
    swap := .ok ()
    dataDev := some ⟨253, 2⟩
    poolDev := true
    mdvDev := some ⟨253, 3⟩
    mdv := .ok ()
    filesystems := .ok []
    thinDev := fun _ => none }
  check _ := StratPool.smoothCheck
  save := .ok ()

theorem saved_layout_is_live_iff_good_metadata :
    ∃ (metadata : PoolSave) (datadevs : List StratBlockDev) (time : DateTime) (p : StratPool),
      StratPool.setup true (smoothSetup (.ok ())) datadevs [] time metadata = .ok p ∧
      p.saved.map (·.flexDevs) = some (p.record "pool").flexDevs := by
  let bda := BDA.new ⟨⟨0⟩, ⟨1⟩⟩ MDADataSize.default (2 ^ 22) 0
  let time : DateTime := ⟨0, 0, by decide, by decide, by decide⟩
  obtain ⟨d, -, q, -, p, hp, -⟩ : ∃ d, StratBlockDev.new ⟨8, 16⟩ bda [] none none = .ok d ∧
      ∃ q, StratPool.initializePool true (StratPool.smoothInit [d]) "pool" = .ok q ∧
      ∃ p, StratPool.setup true (smoothSetup (.ok ())) q.backstore.datadevs [] time
        (q.record "pool") = .ok p ∧ True := by
    decide +kernel
  exact ⟨_, _, _, p, hp, (saved_layout_is_live_iff hp "pool").mpr (Or.inl (Or.inr rfl))⟩

/-- After a repair the next start-up takes the damaged segments for the metadata. -/
theorem saved_layout_stale_after_repair :
    ∃ (metadata : PoolSave) (datadevs : List StratBlockDev) (time : DateTime) (p : StratPool),
      checkMetadata metadata = .ok () ∧
      StratPool.setup true (smoothSetup (.err .io)) datadevs [] time metadata = .ok p ∧
      p.saved.map (·.flexDevs) ≠ some (p.record "pool").flexDevs := by
  let bda := BDA.new ⟨⟨0⟩, ⟨1⟩⟩ MDADataSize.default (2 ^ 22) 0
  let time : DateTime := ⟨0, 0, by decide, by decide, by decide⟩
  obtain ⟨d, -, q, -, hcheck, p, hp, hne⟩ :
      ∃ d, StratBlockDev.new ⟨8, 16⟩ bda [] none none = .ok d ∧
      ∃ q, StratPool.initializePool true (StratPool.smoothInit [d]) "pool" = .ok q ∧
      checkMetadata (q.record "pool") = .ok () ∧
      ∃ p, StratPool.setup true (smoothSetup (.err .io)) q.backstore.datadevs [] time
        (q.record "pool") = .ok p ∧
      p.saved.map (·.flexDevs) ≠ some (p.record "pool").flexDevs := by
    decide +kernel
  exact ⟨_, _, _, p, hcheck, hp, hne⟩

end Stratisd.Pool
