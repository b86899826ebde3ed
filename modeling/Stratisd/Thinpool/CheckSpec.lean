import Stratisd.Thinpool.ThinPoolSpec

/-! What a check keeps. Apart from the extensions of the two devices under the thin pool a check
touches neither the backstore nor the segments nor the device that the thin pool is on. -/

namespace Stratisd.Thinpool

open Run Run.Stateful Engine Extent Backstore

/-- A property of the backstore, the segments and the device that the thin pool is on. -/
def Framed (I : Stacked → Prop) : Prop :=
  ∀ (s : Stacked) (t : ThinPool), t.segments = s.thinPool.segments →
    t.backstoreDevice = s.thinPool.backstoreDevice → I s → I ⟨t, s.backstore⟩

/-- The same for a property that also speaks of the devices under the thin pool. -/
def FramedDevs (I : Stacked → Prop) : Prop :=
  ∀ (s : Stacked) (t : ThinPool), t.segments = s.thinPool.segments →
    t.backstoreDevice = s.thinPool.backstoreDevice →
    t.thinPool.dev = s.thinPool.thinPool.dev → I s → I ⟨t, s.backstore⟩

theorem Framed.devs {I : Stacked → Prop} (h : Framed I) : FramedDevs I :=
  fun s t hs hd _ => h s t hs hd

namespace ThinPool

variable {I : Stacked → Prop} {overflowChecks : Bool}

theorem keeps_setSubTable (hI : Framed I) (io : TableIo) (sub : SubDevice)
    (table : List TargetLine) : Keeps I (setSubTable io sub table) :=
  (keeps_lift _).bind fun _ =>
    Keeps.bind (keeps_modify fun s h => hI s _ rfl rfl h) fun _ =>
      keeps_lift _

theorem keeps_update_bind {α : Type} {f : ThinPool → ThinPool} {k : Unit → M α} (hI : FramedDevs I)
    (hs : ∀ t, (f t).segments = t.segments) (hd : ∀ t, (f t).backstoreDevice = t.backstoreDevice)
    (hdev : ∀ t, (f t).thinPool.dev = t.thinPool.dev) (hk : ∀ u, Keeps I (k u)) :
    Keeps I (update f >>= k) :=
  Keeps.bind (keeps_modify fun s h => hI s _ (hs _) (hd _) (hdev _) h) hk

theorem dev_lowWaterMark (d : ThinPoolDev) (lowWaterMark : ℕ) :
    ThinPoolDev.dev { d with lowWaterMark } = d.dev := by
  funext sub
  cases sub <;> rfl

theorem keeps_setLowWaterMark (hI : FramedDevs I) (io : CheckIo) (usage : ThinPoolUsage)
    (extended : ℕ) : Keeps I (setLowWaterMark overflowChecks io usage extended) := by
  refine keeps_read fun s => (keeps_lift _).bind fun available =>
    (keeps_lift _).bind fun lowater => (keeps_lift _).bind fun _ => ?_
  exact keeps_update_bind hI (fun _ => rfl) (fun _ => rfl) (fun _ => dev_lowWaterMark _ _) fun _ =>
    (keeps_lift _).bind fun _ => keeps_lift _

theorem keeps_checkFilesystem (hI : FramedDevs I) (io : CheckIo) (uuid : FilesystemUuid) :
    Keeps I (checkFilesystem io uuid) := by
  refine keeps_read fun s => ?_
  split
  · exact keeps_pure ()
  · refine (keeps_lift _).bind fun r =>
      keeps_update_bind hI (fun _ => rfl) (fun _ => rfl) (fun _ => rfl) fun _ => ?_
    split_ifs
    · refine (Keeps.attempt fun s hs => ?_).bind fun _ => keeps_pure ()
      exact hI s _ rfl rfl rfl hs
    · exact keeps_pure ()

/-- What the extensions of one round keep. -/
structure KeptByExtensions (overflowChecks : Bool) (I : Stacked → Prop) (io : CheckIo) : Prop where
  thinMeta : ∀ n, Stateful.Keeps I (extendThinMetaDevice overflowChecks io.extendMeta n)
  thinData : ∀ n, Stateful.Keeps I (extendThinDataDevice overflowChecks io.extendData n)

/-- What the growth of one round keeps. -/
structure KeptByGrowth (overflowChecks : Bool) (I : Stacked → Prop) (io : CheckIo) : Prop where
  thinMeta : ∀ usage summary, io.status = .ok (.working usage summary) →
    Stateful.Keeps I (growMeta overflowChecks io usage)
  thinData : Stateful.Keeps I (growData overflowChecks io)

variable {io : CheckIo}

theorem keeps_growMeta
    (h : ∀ n, Keeps I (extendThinMetaDevice overflowChecks io.extendMeta n))
    (usage : ThinPoolUsage) : Keeps I (growMeta overflowChecks io usage) := by
  refine keeps_read fun s => (keeps_lift _).bind fun usable => ?_
  simp only
  split_ifs
  · exact (h _).attempt.bind fun _ => keeps_pure _
  · exact keeps_pure _

theorem keeps_growData
    (h : ∀ n, Keeps I (extendThinDataDevice overflowChecks io.extendData n)) :
    Keeps I (growData overflowChecks io) := by
  refine keeps_read fun s => (keeps_lift _).bind fun freeSpace => ?_
  split_ifs
  · exact keeps_pure _
  · exact (h _).attempt.bind fun _ => keeps_pure _

theorem KeptByExtensions.growth (h : KeptByExtensions overflowChecks I io) :
    KeptByGrowth overflowChecks I io :=
  ⟨fun usage _ _ => keeps_growMeta h.thinMeta usage, keeps_growData h.thinData⟩

theorem keeps_grow (hI : FramedDevs I) (h : KeptByGrowth overflowChecks I io)
    {status : ThinPoolStatus} (hstatus : io.status = .ok status) :
    Keeps I (grow overflowChecks io status) := by
  cases status with
  | working usage summary =>
    exact (h.thinMeta usage summary hstatus).bind fun _ => h.thinData.bind fun _ =>
      (keeps_setLowWaterMark hI io usage _).bind fun _ => keeps_pure _
  | error => exact keeps_pure _
  | fail => exact keeps_pure _

theorem keeps_afterGrow (hI : FramedDevs I) (io : CheckIo) (status : ThinPoolStatus)
    (shouldSave : Bool) : Keeps I (do
      update fun t => { t with thinPoolStatus := some status }
      let s ← Stateful.get
      forEach (checkFilesystem io) (s.thinPool.filesystems.iter.map (·.2.1))
      pure shouldSave : M Bool) :=
  keeps_update_bind hI (fun _ => rfl) (fun _ => rfl) (fun _ => rfl) fun _ =>
    keeps_read fun _ =>
      (keeps_forEach (keeps_checkFilesystem hI io) _).bind fun _ => keeps_pure _

theorem keeps_doCheck (hI : FramedDevs I) (h : KeptByGrowth overflowChecks I io) :
    Keeps I (doCheck overflowChecks io) := by
  refine keeps_read fun _ => (keeps_lift _).bind fun _ => ?_
  cases hstatus : io.status with
  | ok status =>
    have hround := (keeps_grow hI h hstatus).bind fun shouldSave =>
      keeps_afterGrow hI io status shouldSave
    exact hround
  | err e => exact fun _ hs => hs
  | panic => exact fun _ hs => hs

/-- A round that returns has found the thin pool on its device and has its status; what it does
after the growth concerns neither the backstore nor the devices. -/
theorem doCheck_eq_ok {s s' : Stacked} {again : Bool}
    (h : doCheck overflowChecks io s = (s', .ok again)) :
    ∃ status s₁, io.status = .ok status ∧ grow overflowChecks io status s = (s₁, .ok again) ∧
      ∀ I, FramedDevs I → I s₁ → I s' := by
  unfold doCheck at h
  rw [get_bind] at h
  obtain ⟨s₁, _, hlift, h⟩ := bind_eq_ok.mp h
  obtain ⟨-, rfl⟩ := lift_eq_ok hlift
  obtain ⟨s₁, status, hlift, h⟩ := bind_eq_ok.mp h
  obtain ⟨hstatus, rfl⟩ := lift_eq_ok hlift
  obtain ⟨s₁, shouldSave, hgrow, h⟩ := bind_eq_ok.mp h
  have hkeeps : ∀ I, FramedDevs I → I s₁ → I s' := fun I hI h1 =>
    (keeps_afterGrow hI io status shouldSave).after h1 h
  obtain ⟨_, _, -, h⟩ := bind_eq_ok.mp h
  rw [get_bind] at h
  obtain ⟨_, _, -, h⟩ := bind_eq_ok.mp h
  obtain rfl := Outcome.ok.inj (Prod.mk.inj h).2
  exact ⟨status, s₁, hstatus, hgrow, hkeeps⟩

/-- The growth of a thin pool that works is that of its two devices. -/
theorem grow_working_eq_ok {usage : ThinPoolUsage} {summary : ThinPoolStatusSummary}
    {s s' : Stacked} {again : Bool}
    (h : grow overflowChecks io (.working usage summary) s = (s', .ok again)) :
    ∃ s₁ s₂ grown n, growMeta overflowChecks io usage s = (s₁, .ok grown) ∧
      growData overflowChecks io s₁ = (s₂, .ok n) ∧ again = (grown || n ≠ 0) ∧
      ∀ I, FramedDevs I → I s₂ → I s' := by
  obtain ⟨s₁, grown, hmeta, h⟩ := bind_eq_ok.mp h
  obtain ⟨s₂, n, hdata, h⟩ := bind_eq_ok.mp h
  obtain ⟨s₃, _, hmark, h⟩ := bind_eq_ok.mp h
  obtain ⟨rfl, hres⟩ := Prod.mk.inj h
  exact ⟨s₁, s₂, grown, n, hmeta, hdata, (Outcome.ok.inj hres).symm, fun I hI h2 =>
    (keeps_setLowWaterMark hI io usage n).after h2 hmark⟩

variable {env : ℕ → CheckIo}

theorem keeps_checkFrom (hI : FramedDevs I)
    (h : ∀ round, KeptByGrowth overflowChecks I (env round)) (fuel round : ℕ) :
    Keeps I (checkFrom overflowChecks env fuel round) := by
  induction fuel generalizing round with
  | zero => exact keeps_pure false
  | succ fuel ih =>
    refine (keeps_doCheck hI (h round)).bind fun again => ?_
    split_ifs
    · exact (ih _).bind fun _ => keeps_pure true
    · exact keeps_pure false

theorem keeps_check_of_growth (hI : FramedDevs I)
    (h : ∀ round, KeptByGrowth overflowChecks I (env round)) :
    Keeps I (check overflowChecks env) :=
  keeps_read fun _ => keeps_checkFrom hI h _ _

theorem keeps_check (hI : FramedDevs I)
    (h : ∀ round, KeptByExtensions overflowChecks I (env round)) :
    Keeps I (check overflowChecks env) :=
  keeps_check_of_growth hI fun round => (h round).growth

/-! ### Growth and the filesystems -/

/-- A property of the filesystems and of the volume with their records. -/
def FramedFiles (I : Stacked → Prop) : Prop :=
  ∀ s t : Stacked, t.thinPool.filesystems = s.thinPool.filesystems →
    t.thinPool.mdv = s.thinPool.mdv → I s → I t

theorem keeps_update_files {α : Type} {f : ThinPool → ThinPool} {k : Unit → M α}
    (hI : FramedFiles I) (hf : ∀ t, (f t).filesystems = t.filesystems)
    (hm : ∀ t, (f t).mdv = t.mdv) (hk : ∀ u, Keeps I (k u)) :
    Keeps I (update f >>= k) :=
  Keeps.bind (keeps_modify fun s hs => hI s _ (hf _) (hm _) hs) hk

theorem keeps_attachRegion_files (hI : FramedFiles I) (io : ExtendIo) (sub : SubDevice)
    (region : Option Range) : Keeps I (attachRegion io sub region) := by
  cases region with
  | none => exact keeps_pure 0
  | some region =>
    refine keeps_read fun s => (keeps_lift _).bind fun device => ?_
    have htable : Keeps I (setSubTable io.table sub
        (segsToTable device (coalesceSegs (s.thinPool.segments.get sub) [region]))) :=
      (keeps_lift _).bind fun _ => keeps_update_files hI (fun _ => rfl) (fun _ => rfl)
        fun _ => keeps_lift _
    exact htable.bind fun _ => (keeps_lift _).bind fun _ =>
      keeps_update_files hI (fun _ => rfl) (fun _ => rfl) fun _ => keeps_pure _

theorem keeps_extend_files (hI : FramedFiles I) (io : ExtendIo) (sub : SubDevice)
    (extendSize modulus : ℕ) :
    Keeps I (extendThinSubDevice overflowChecks io sub extendSize modulus) := by
  unfold extendThinSubDevice
  split_ifs
  · exact keeps_lift _
  · refine Keeps.bind ?_ fun region => keeps_attachRegion_files hI io sub region
    exact fun s hs => hI s _ rfl rfl hs

theorem keeps_grow_files (hI : FramedFiles I) (io : CheckIo) (status : ThinPoolStatus) :
    Keeps I (grow overflowChecks io status) := by
  cases status with
  | working usage summary =>
    refine (keeps_growMeta (fun n => keeps_extend_files hI _ _ _ _) usage).bind fun _ =>
      (keeps_growData fun n => keeps_extend_files hI _ _ _ _).bind fun extended =>
        Keeps.bind ?_ fun _ => keeps_pure _
    refine keeps_read fun s => (keeps_lift _).bind fun available =>
      (keeps_lift _).bind fun lowater => (keeps_lift _).bind fun _ => ?_
    exact keeps_update_files hI (fun _ => rfl) (fun _ => rfl) fun _ =>
      (keeps_lift _).bind fun _ => keeps_lift _
  | error => exact keeps_pure _
  | fail => exact keeps_pure _

/-! ### No filesystem comes up -/

def Vacant (s : Stacked) : Prop := s.thinPool.filesystems = Table.default

theorem framedFiles_vacant : FramedFiles Vacant := fun _ _ hf _ hs => hf.trans hs

theorem keeps_doCheck_vacant (io : CheckIo) :
    Keeps Vacant (doCheck overflowChecks io) := by
  refine keeps_read fun _ => (keeps_lift _).bind fun _ =>
    (keeps_lift _).bind fun status =>
      (keeps_grow_files framedFiles_vacant io status).bind fun shouldSave =>
        keeps_update_files framedFiles_vacant (fun _ => rfl) (fun _ => rfl) fun _ =>
          keeps_get_bind fun s hs => ?_
  -- there is none to go through
  rw [show s.thinPool.filesystems = Table.default from hs]
  exact hs

theorem keeps_check_vacant (env : ℕ → CheckIo) :
    Keeps Vacant (check overflowChecks env) := by
  have hfrom : ∀ fuel round, Keeps Vacant (checkFrom overflowChecks env fuel round) := by
    intro fuel
    induction fuel with
    | zero => exact fun _ => keeps_pure false
    | succ fuel ih =>
      intro round
      refine (keeps_doCheck_vacant (env round)).bind fun again => ?_
      split_ifs
      · exact (ih _).bind fun _ => keeps_pure true
      · exact keeps_pure false
  exact keeps_read fun _ => hfrom _ _

end ThinPool

end Stratisd.Thinpool
