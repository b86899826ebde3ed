import Stratisd.Pool.Pool
import Stratisd.Thinpool.CheckSpec

/-! The thin pool and the backstore about the device between them. The backstore changes its
device when it gets a cache; every other operation keeps the device, and adding devices to a
cache puts the thin pool on the device that the backstore presents. -/

namespace Stratisd.Pool

open Run Run.Outcome Run.Stateful Engine Extent Metadata Backstore Thinpool ThinPool

/-! ### The device of the backstore -/

section backstore

variable {d : Device} {overflowChecks : Bool}

/-- The backstore presents this device, and has no other. -/
structure Presents (d : Device) (b : Backstore) : Prop where
  device : b.device = some d
  shape : b.cache = none ∨ b.linear = none

theorem presents_loadTable {b : Backstore} (hb : Presents d b) {load : Backstore → Backstore}
    (h : Presents d (load b)) (setTable resume : Bool) :
    Presents d (Backstore.loadTable setTable resume load b).1 := by
  rcases Backstore.loadTable_cases setTable resume load b with ⟨hs, -⟩ | ⟨hs, -⟩
  · rwa [hs]
  · rwa [hs]

theorem stable_presents (d : Device) : Backstore.Stable (Presents d) := by
  refine ⟨fun n => ?_, fun io => keeps_get_bind fun b h => ?_, fun b n h => ?_⟩
  · refine keeps_read fun b => (keeps_lift _).bind fun r => ?_
    refine Keeps.bind (keeps_modify ?_) fun _ => keeps_pure r.2
    exact fun b h => ⟨h.device, h.shape⟩
  · have hd := h.device
    unfold Backstore.device at hd
    rcases hc : b.cache with _ | cache <;> rcases hl : b.linear with _ | linear <;>
      simp only [hc, hl] at hd ⊢
    · cases hd
    · exact presents_loadTable h ⟨by simpa [Backstore.device, hc] using hd, Or.inl hc⟩ _ _
    · exact presents_loadTable h ⟨by simpa [Backstore.device] using hd, Or.inr hl⟩ _ _
    · exact h
  · exact ⟨h.device, h.shape⟩

def Uncached (b : Backstore) : Prop := b.cache = none

theorem stable_uncached : Backstore.Stable Uncached := by
  refine ⟨fun n => ?_, fun io => keeps_get_bind fun b hb => ?_, fun b n h => h⟩
  · exact keeps_read fun b => (keeps_lift _).bind fun r =>
      Keeps.bind (keeps_modify fun _ h => h) fun _ => keeps_pure r.2
  · have hc : b.cache = none := hb
    rcases hl : b.linear with _ | linear <;> simp only [hc]
    · refine Keeps.bind (keeps_lift _) (fun _ => ?_) b hb
      exact keeps_modify fun _ h => h
    · refine Keeps.bind (keeps_lift _) (fun _ => ?_) b hb
      refine Keeps.bind ?_ fun _ => keeps_lift _
      exact keeps_modify fun _ h => h

end backstore

/-! ### Agreement -/

/-- The thin pool is on the device that the backstore presents. -/
def Agree (s : Stacked) : Prop := s.backstore.device = some s.thinPool.backstoreDevice

/-- The same, with no other device under the backstore. -/
def Settled (s : Stacked) : Prop := Presents s.thinPool.backstoreDevice s.backstore

section thinpool

variable {overflowChecks : Bool}

theorem framed_settled : Framed Settled := by
  intro s t _ hd h
  unfold Settled at h ⊢
  rwa [hd]

theorem keeps_onBackstore {α : Type} {p : Backstore.M α}
    (h : ∀ d, Keeps (Presents d) p) : Keeps Settled (onBackstore p) :=
  fun s hs => h _ s.backstore hs

theorem keeps_attachRegion (io : ThinPool.ExtendIo) (sub : SubDevice) (region : Option Range) :
    Keeps Settled (attachRegion io sub region) := by
  cases region with
  | none => exact keeps_pure 0
  | some region =>
    refine keeps_read fun s => (keeps_lift _).bind fun device =>
      (keeps_setSubTable framed_settled _ _ _).bind fun _ =>
        (keeps_lift _).bind fun _ => Keeps.bind ?_ fun _ => keeps_pure _
    exact fun s hs => hs

theorem keeps_extendThinSubDevice (io : ThinPool.ExtendIo) (sub : SubDevice) (n modulus : ℕ) :
    Keeps Settled (extendThinSubDevice overflowChecks io sub n modulus) := by
  unfold extendThinSubDevice
  split_ifs
  · exact keeps_lift _
  · exact (keeps_onBackstore fun d => (stable_presents d).keeps_request _ _ _ _).bind fun region =>
      keeps_attachRegion io sub region

theorem settled_check (env : ℕ → ThinPool.CheckIo) :
    Keeps Settled (check overflowChecks env) :=
  keeps_check framed_settled.devs fun _ =>
    ⟨fun _ => keeps_extendThinSubDevice _ _ _ _, fun _ => keeps_extendThinSubDevice _ _ _ _⟩

theorem settled_setDevice {io : ThinPool.MoveIo} {d : Device} {s s' : Stacked} {r : Bool}
    (hd : Presents d s.backstore) (h : setDevice io d s = (s', .ok r)) : Settled s' := by
  unfold setDevice at h
  rw [get_bind] at h
  split_ifs at h with heq
  · cases h
    unfold Settled
    rwa [← heq]
  · -- loading tables does not touch the backstore
    have hkeep : ∀ io sub table, Keeps (fun s : Stacked => Presents d s.backstore)
        (setSubTable io sub table) := fun io sub table =>
      (keeps_lift _).bind fun _ =>
        Keeps.bind (fun s hs => hs) fun _ => keeps_lift _
    obtain ⟨s₁, _, h1, h⟩ := bind_eq_ok.mp h
    obtain ⟨s₂, _, h2, h⟩ := bind_eq_ok.mp h
    obtain ⟨s₃, _, h3, h⟩ := bind_eq_ok.mp h
    have hs₁ := (hkeep _ _ _).after hd h1
    have hs₂ := (hkeep _ _ _).after hs₁ h2
    obtain ⟨rfl, -⟩ := Prod.mk.inj h3
    cases h
    exact hs₂

/-! ### Filesystems -/

/-- A property of a thin pool that its filesystems play no part in. -/
def FsFramed (I : ThinPool → Prop) : Prop :=
  ∀ t idGen filesystems mdv, I t → I { t with idGen, filesystems, mdv }

/-- Code that touches nothing but the filesystems. -/
abbrev FsOnly {α : Type} (p : ThinPool.F α) : Prop := ∀ I, FsFramed I → Stateful.Keeps I p

theorem fsOnly_modify_bind {α : Type} {f : ThinPool → ThinPool} {k : Unit → ThinPool.F α}
    (h : ∀ I, FsFramed I → ∀ t, I t → I (f t)) (hk : ∀ u, FsOnly (k u)) :
    FsOnly (Stateful.modify f >>= k) := fun I hI =>
  Keeps.bind (keeps_modify (h I hI)) fun u => hk u I hI

theorem fsOnly_bind {α β : Type} {p : ThinPool.F α} {k : α → ThinPool.F β} (hp : FsOnly p)
    (hk : ∀ a, FsOnly (k a)) : FsOnly (p >>= k) := fun I hI => (hp I hI).bind fun a => hk a I hI

theorem fsOnly_lift {α : Type} (x : StratisResult α) : FsOnly (Stateful.lift x) :=
  fun _ _ => keeps_lift x

theorem fsOnly_pure {α : Type} (a : α) : FsOnly (pure a) := fun _ _ => keeps_pure a

theorem fsOnly_read {α : Type} {k : ThinPool → ThinPool.F α} (hk : ∀ t, FsOnly (k t)) :
    FsOnly (Stateful.get >>= k) := fun I hI => keeps_read fun t => hk t I hI

theorem fsOnly_newId : FsOnly newId :=
  fsOnly_read fun _ => fsOnly_bind (fsOnly_lift _) fun _ =>
    fsOnly_modify_bind (fun _ hI t ht => hI t _ _ _ ht) fun _ => fsOnly_pure _

theorem fsOnly_saveRecord (io : StratisResult Unit) (name : String) (uuid : FilesystemUuid)
    (fs : StratFilesystem) : FsOnly (saveRecord io name uuid fs) :=
  fun _ hI t ht => hI t _ _ _ ht

theorem fsOnly_insertFilesystem (name : String) (uuid : FilesystemUuid) (fs : StratFilesystem) :
    FsOnly (insertFilesystem name uuid fs) :=
  fsOnly_read fun _ => fsOnly_bind (fsOnly_lift _) fun _ _ hI t ht => hI t _ _ _ ht

theorem fsOnly_register {α : Type} {io : StratisResult Unit} {name : String} {uuid : FilesystemUuid}
    {fs : StratFilesystem} (a : α) : FsOnly (do
      saveRecord io name uuid fs
      insertFilesystem name uuid fs
      let t ← Stateful.get
      let _ ← Stateful.lift (expect (t.filesystems.getByUuid uuid))
      pure a) :=
  fsOnly_bind (fsOnly_saveRecord _ _ _ _) fun _ => fsOnly_bind (fsOnly_insertFilesystem _ _ _)
    fun _ => fsOnly_read fun _ => fsOnly_bind (fsOnly_lift _) fun _ => fsOnly_pure a

theorem fsOnly_createFilesystem (io : FsCreateIo) (name : String) (size : Option ℕ) :
    FsOnly (createFilesystem io name size) :=
  fsOnly_bind fsOnly_newId fun _ => fsOnly_bind (fsOnly_lift _) fun _ => fsOnly_register _

theorem fsOnly_snapshotFilesystem (io : FsSnapshotIo) (originUuid : FilesystemUuid)
    (snapshotName : String) : FsOnly (snapshotFilesystem io originUuid snapshotName) := by
  refine fsOnly_bind fsOnly_newId fun id => fsOnly_read fun t => ?_
  split
  · exact fsOnly_bind (fsOnly_lift _) fun _ => fsOnly_register _
  · exact fsOnly_lift _

theorem fsOnly_destroyFilesystem (destroy rmFs : StratisResult Unit) (uuid : FilesystemUuid) :
    FsOnly (destroyFilesystem destroy rmFs uuid) := by
  refine fsOnly_read fun t => ?_
  split
  · refine fsOnly_modify_bind (fun _ hI t ht => hI t _ _ _ ht) fun _ => ?_
    split
    · refine fsOnly_bind (fun I hI => Keeps.attempt fun t ht => ?_) fun _ => fsOnly_pure _
      exact hI t _ _ _ ht
    · exact fsOnly_bind (fsOnly_insertFilesystem _ _ _) fun _ => fsOnly_lift _
    · exact fsOnly_lift _
  · exact fsOnly_pure _

theorem fsOnly_renameFilesystem (saveFs : StratisResult Unit) (uuid : FilesystemUuid)
    (newName : String) : FsOnly (renameFilesystem saveFs uuid newName) := by
  refine fsOnly_read fun t => ?_
  split
  · exact fsOnly_pure _
  · split_ifs
    · exact fsOnly_pure _
    · exact fsOnly_lift _
    · refine fsOnly_modify_bind (fun _ hI t ht => hI t _ _ _ ht) fun _ => ?_
      split
      · exact fsOnly_register _
      · exact fsOnly_bind (fsOnly_insertFilesystem _ _ _) fun _ => fsOnly_lift _
      · exact fsOnly_lift _

/-- Code that leaves the thin pool on its device. -/
abbrev Stays {α : Type} (p : ThinPool.F α) : Prop :=
  ∀ d, Stateful.Keeps (fun t : ThinPool => t.backstoreDevice = d) p

theorem FsOnly.stays {α : Type} {p : ThinPool.F α} (h : FsOnly p) : Stays p :=
  fun _ => h _ fun _ _ _ _ ht => ht

theorem Stays.keeps {α : Type} {p : ThinPool.F α} (h : Stays p) :
    Keeps Settled (onThinPool p) := by
  intro s hs
  have := h _ s.thinPool rfl
  unfold Settled at hs ⊢
  rw [show (onThinPool p s).1.thinPool.backstoreDevice = s.thinPool.backstoreDevice from
    this]
  exact hs

end thinpool

/-! ### Requests -/

namespace StratPool

variable {overflowChecks : Bool} {p p' : StratPool}

/-- The thin pool of the pool is on the device of the backstore. -/
abbrev Steady (p : StratPool) : Prop := Settled p.toStacked

theorem keeps_onStacked {α : Type} {q : ThinPool.M α} (h : Keeps Settled q) :
    Keeps Steady (onStacked q) := fun p hp => h p.toStacked hp

theorem keeps_writeMetadata (save : StratisResult Unit) (name : String) :
    Keeps Steady (writeMetadata save name) :=
  (keeps_lift _).bind fun _ _ hp => hp

theorem keeps_writeIfChanged (save : StratisResult Unit) (name : String) (changed : Bool) :
    Keeps Steady (writeIfChanged save name changed) := by
  unfold writeIfChanged
  split_ifs
  · exact keeps_writeMetadata _ _
  · exact keeps_pure ()

theorem keeps_eventOn (io : EventIo) (name : String) :
    Keeps Steady (eventOn overflowChecks io name) := by
  exact (keeps_onStacked (settled_check _)).bind fun changed => keeps_writeIfChanged _ _ changed

theorem keeps_addData (io : AddIo) (poolUuid : PoolUuid) :
    Keeps Steady (addData overflowChecks io poolUuid) := by
  refine (keeps_onStacked (keeps_onBackstore fun d b hb => ?_)).bind fun _ =>
    (keeps_onStacked (settled_check _)).bind fun _ => keeps_pure _
  exact ⟨hb.device, hb.shape⟩

theorem whileSuspended_eq_ok {α : Type} {suspend : ThinPool.SuspendIo}
    {resumeMdv resumePool : Bool} {q : M α} {a : α}
    (h : whileSuspended suspend resumeMdv resumePool q p = (p', .ok a)) : q p = (p', .ok a) := by
  unfold whileSuspended at h
  split at h
  · simp only at h
    split at h
    · cases h
    · obtain ⟨p₁, _, h1, h⟩ := bind_eq_ok.mp h
      obtain ⟨rfl, hq⟩ := Prod.mk.inj h
      obtain ⟨s, hs, rfl⟩ := within_eq_ok.mp h1
      obtain ⟨s₁, _, h2, h3⟩ := bind_eq_ok.mp hs
      obtain ⟨rfl, -⟩ := Prod.mk.inj h2
      obtain ⟨rfl, -⟩ := Prod.mk.inj h3
      exact Prod.ext rfl hq
  · cases h
  · cases h

theorem keeps_whileSuspended {α : Type} {I : StratPool → Prop} (suspend : ThinPool.SuspendIo)
    (resumeMdv resumePool : Bool) {q : M α} (h : Keeps I q) :
    Keeps I (whileSuspended suspend resumeMdv resumePool q) := by
  intro p hp
  have hresume : Keeps I (onStacked (resume resumeMdv resumePool)) := by
    intro p hp
    cases resumeMdv <;> cases resumePool <;> exact hp
  unfold whileSuspended
  split
  · have hq := h p hp
    simp only
    split
    · exact hq
    · exact hresume.bind (fun _ => keeps_lift _) _ hq
  · exact hp
  · exact hp

variable {uuids : List DevUuid}

theorem steady_addCache {io : AddIo} {poolUuid : PoolUuid} (hp : Steady p)
    (h : addCache io poolUuid p = (p', .ok uuids)) : Steady p' := by
  obtain ⟨p₁, added, h1, h⟩ := bind_eq_ok.mp h
  rw [get_bind] at h
  obtain ⟨p₂, device, h2, h⟩ := bind_eq_ok.mp h
  obtain ⟨rfl, hdev⟩ := Prod.mk.inj h2
  obtain ⟨p₃, _, h3, h⟩ := bind_eq_ok.mp h
  cases h
  obtain ⟨s, hs, rfl⟩ := within_eq_ok.mp h1
  obtain ⟨b, hb, rfl⟩ := within_eq_ok.mp hs
  obtain ⟨t, cache, t', changes, load, -, hc, -, -, rfl⟩ := Backstore.addCachedevs_eq_ok hb
  obtain ⟨s', hs', rfl⟩ := within_eq_ok.mp h3
  refine settled_setDevice ⟨expect_eq_ok.mp hdev, Or.inr ?_⟩ hs'
  exact hp.shape.resolve_left (by simp [hc])

variable {name : String} {paths : List String}

theorem steady_addBlockdevs {io : AddIo} {poolUuid : PoolUuid} {tier : BlockDevTier}
    (hp : Steady p)
    (h : addBlockdevs overflowChecks io poolUuid name paths tier p = (p', .ok uuids)) :
    Steady p' := by
  obtain ⟨p₁, _, h1, h⟩ := bind_eq_ok.mp h
  obtain ⟨rfl, -⟩ := Prod.mk.inj h1
  rw [get_bind] at h
  split_ifs at h with hno hpaths htier
  · cases h
  · cases h
    exact hp
  · obtain ⟨p₂, added, h2, h⟩ := bind_eq_ok.mp h
    obtain ⟨p₃, _, h3, h⟩ := bind_eq_ok.mp h
    cases h
    exact (keeps_writeMetadata _ _).after (steady_addCache hp (whileSuspended_eq_ok h2)) h3
  · obtain ⟨p₂, added, h2, h⟩ := bind_eq_ok.mp h
    obtain ⟨p₃, _, h3, h⟩ := bind_eq_ok.mp h
    cases h
    exact (keeps_writeMetadata _ _).after ((keeps_addData _ _).after hp h2) h3

theorem fsOnly_createEach (specs : List (String × Option ℕ × FsCreateIo)) :
    FsOnly (createEach specs) := by
  induction specs with
  | nil => exact fsOnly_pure _
  | cons spec specs ih =>
    obtain ⟨name, size, io⟩ := spec
    refine fsOnly_read fun t => ?_
    split
    · exact ih
    · exact fsOnly_bind (fsOnly_createFilesystem _ _ _) fun _ => fsOnly_bind ih fun _ => fsOnly_pure _

theorem fsOnly_destroyEach
    (uuids : List (FilesystemUuid × StratisResult Unit × StratisResult Unit)) :
    FsOnly (destroyEach uuids) := by
  induction uuids with
  | nil => exact fsOnly_pure _
  | cons u uuids ih =>
    obtain ⟨uuid, destroy, rmFs⟩ := u
    exact fsOnly_bind (fsOnly_destroyFilesystem _ _ _) fun _ => fsOnly_bind ih fun _ => fsOnly_pure _

theorem initCache_of_hasCache {io : PoolCacheIo} (hc : p.hasCache = true) :
    (initCache io name paths p).1 = p := by
  refine Keeps.bind (I := fun q => q = p) (keeps_lift _) (fun _ => ?_) p rfl
  refine keeps_get_bind fun q hq => ?_
  subst hq
  simp only [hc, if_true]
  split_ifs <;> rfl

theorem initCache_eq_ok {io : PoolCacheIo} (hc : p.hasCache = false)
    (h : initCache io name paths p = (p', .ok uuids)) :
    validatePaths paths = .ok () ∧ io.encrypted = false ∧ p'.thinPool = p.thinPool ∧
      Backstore.initCache io.cache paths p.backstore = (p'.backstore, .ok uuids) := by
  obtain ⟨_, _, hlift, h⟩ := bind_eq_ok.mp h
  obtain ⟨hpaths, rfl⟩ := lift_eq_ok hlift
  rw [get_bind] at h
  simp only [hc, Bool.false_eq_true, if_false] at h
  split_ifs at h with henc hempty
  · cases h
  · cases h
  · obtain ⟨p₁, _, hsuspended, h⟩ := bind_eq_ok.mp h
    obtain ⟨p₂, _, hwrite, h⟩ := bind_eq_ok.mp h
    cases h
    obtain ⟨s, hs, rfl⟩ := within_eq_ok.mp (whileSuspended_eq_ok hsuspended)
    obtain ⟨b, hb, rfl⟩ := within_eq_ok.mp hs
    obtain ⟨_, _, hsave, hmodify⟩ := bind_eq_ok.mp hwrite
    obtain ⟨rfl, -⟩ := Prod.mk.inj hsave
    obtain ⟨rfl, -⟩ := Prod.mk.inj hmodify
    exact ⟨hpaths, Bool.not_eq_true _ ▸ henc, rfl, hb⟩

def CreatesCache (p : StratPool) : Request → Prop
  | .initCache _ _ _ => p.hasCache = false
  | _ => False

/-- Device-mapper gives a new cache device another number than the device under it. -/
def FreshCache (p : StratPool) : Request → Prop
  | .initCache io _ _ => ∀ linear, p.backstore.linear = some linear →
      io.cache.cache.cache ≠ some linear.device
  | _ => True

/-- Every request that succeeds and does not make a cache leaves the thin pool on the device of
the backstore. -/
theorem steady_step {r : Request} (hp : Steady p) (hc : ¬ CreatesCache p r)
    (h : step overflowChecks p r = (p', .ok ())) : Steady p' := by
  cases r with
  | initCache io name paths =>
    have hcache : p.hasCache = true := by simpa [CreatesCache] using hc
    obtain ⟨_, h1⟩ := ignore_eq_ok.mp h
    have hsame : (initCache io name paths p).1 = p := initCache_of_hasCache hcache
    rw [h1] at hsame
    obtain rfl : p' = p := hsame
    exact hp
  | addBlockdevs io poolUuid name paths tier =>
    obtain ⟨_, h1⟩ := ignore_eq_ok.mp h
    exact steady_addBlockdevs hp h1
  | eventOn io name => exact (keeps_eventOn io name).after hp h
  | createFilesystems valid specs =>
    refine (Keeps.ignore ?_).after hp h
    exact (keeps_lift _).bind fun _ => keeps_onStacked (fsOnly_createEach specs).stays.keeps
  | destroyFilesystems uuids =>
    exact (keeps_onStacked (fsOnly_destroyEach uuids).stays.keeps).ignore.after hp h
  | renameFilesystem valid saveFs uuid newName =>
    refine (Keeps.ignore ?_).after hp h
    exact (keeps_lift _).bind fun _ =>
      keeps_onStacked (fsOnly_renameFilesystem _ _ _).stays.keeps
  | snapshotFilesystem valid io originUuid snapshotName =>
    refine (Keeps.ignore ?_).after hp h
    refine (keeps_lift _).bind fun _ => keeps_read fun q => ?_
    split
    · exact keeps_pure _
    · exact (keeps_onStacked (fsOnly_snapshotFilesystem _ _ _).stays.keeps).bind fun _ =>
        keeps_pure _

theorem device_of_linear (hp : Steady p) {linear : LinearDev}
    (hl : p.backstore.linear = some linear) : linear.device = p.thinPool.backstoreDevice := by
  have hc : p.backstore.cache = none := hp.shape.resolve_right (by simp [hl])
  have hdevice := hp.device
  rw [Backstore.device, hc, hl] at hdevice
  exact Option.some.inj hdevice

theorem not_agree_of_createsCache {r : Request} (hp : Steady p) (hc : CreatesCache p r)
    (hf : FreshCache p r) (h : step overflowChecks p r = (p', .ok ())) :
    ¬ Agree p'.toStacked := by
  cases r with
  | initCache io name paths =>
    obtain ⟨_, h⟩ := ignore_eq_ok.mp h
    obtain ⟨-, -, hthin, hb⟩ := initCache_eq_ok hc h
    obtain ⟨linear, cache, _, _, -, hl, -, -, -, hdev, hb⟩ := Backstore.initCache_eq_ok hb
    have hlinear : linear.device = p.thinPool.backstoreDevice := device_of_linear hp hl
    intro hagree
    have hsame : cache.device = p.thinPool.backstoreDevice := by
      rw [Agree, hthin, hb] at hagree
      exact Option.some.inj hagree
    exact hf linear hl (by rw [hdev, hsame, hlinear])
  | _ => exact hc.elim

/-! ### Where pools come from -/

theorem initializePool_eq_ok {io : InitIo} (h : initializePool overflowChecks io name = .ok p) :
    ∃ devs b t, io.prepared = .ok devs ∧
      new overflowChecks io.thinPool ThinPoolSizeParams.default dataBlockSize
        ⟨none, none, DataTier.new ⟨devs, none⟩, none, 0⟩ = (b, .ok t) ∧
      p = (writeMetadata io.save name ⟨(check overflowChecks io.check ⟨t, b⟩).1, none⟩).1 := by
  obtain ⟨b, hb, h⟩ := Outcome.bind_eq_ok.mp h
  obtain ⟨mgr, hmgr, hb⟩ := Outcome.bind_eq_ok.mp hb
  obtain ⟨devs, hdevs, hmgr⟩ := Outcome.bind_eq_ok.mp hmgr
  obtain rfl := ok.inj hmgr
  obtain rfl := ok.inj hb
  rcases hmade : new overflowChecks io.thinPool ThinPoolSizeParams.default dataBlockSize
    ⟨none, none, DataTier.new ⟨devs, none⟩, none, 0⟩ with ⟨b, r⟩
  rw [hmade] at h
  obtain ⟨t, rfl, h⟩ := Outcome.bind_eq_ok.mp h
  obtain ⟨changed, -, h⟩ := Outcome.bind_eq_ok.mp h
  obtain ⟨-, -, h⟩ := Outcome.bind_eq_ok.mp h
  exact ⟨devs, b, t, hdevs, hmade, (ok.inj h).symm⟩

theorem toStacked_writeMetadata (save : StratisResult Unit) (name : String) (p : StratPool) :
    (writeMetadata save name p).1.toStacked = p.toStacked := by
  cases save <;> rfl

/-- A pool that has been made, or set up from its devices. -/
inductive Obtained (overflowChecks : Bool) : StratPool → Prop
  | made {io : InitIo} {name : String} {p : StratPool}
      (h : initializePool overflowChecks io name = .ok p) : Obtained overflowChecks p
  | assembled {io : SetupIo} {datadevs cachedevs : List StratBlockDev} {timestamp : DateTime}
      {metadata : PoolSave} {p : StratPool}
      (h : setup overflowChecks io datadevs cachedevs timestamp metadata = .ok p) :
      Obtained overflowChecks p

theorem steady_initializePool {io : InitIo} (h : initializePool overflowChecks io name = .ok p) :
    Steady p := by
  obtain ⟨devs, b, t, -, hmade, rfl⟩ := initializePool_eq_ok h
  refine keeps_writeMetadata _ _ _ (settled_check _ _ ?_)
  obtain ⟨_, _, _, _, halloc, hdevice, -⟩ := new_eq_ok hmade
  have huncached : Uncached ⟨none, none, DataTier.new ⟨devs, none⟩, none, 0⟩ := rfl
  exact ⟨hdevice, Or.inl ((stable_uncached.keeps_alloc _ _).after huncached halloc)⟩

theorem steady_setup {io : SetupIo} {datadevs cachedevs : List StratBlockDev}
    {timestamp : DateTime} {metadata : PoolSave}
    (h : setup overflowChecks io datadevs cachedevs timestamp metadata = .ok p) : Steady p := by
  obtain ⟨s, hs, h⟩ := Outcome.bind_eq_ok.mp h
  obtain ⟨changed, -, h⟩ := Outcome.bind_eq_ok.mp h
  obtain ⟨-, -, h⟩ := Outcome.bind_eq_ok.mp h
  obtain rfl := ok.inj h
  refine keeps_writeIfChanged _ _ _ _ (settled_check _ _ ?_)
  obtain ⟨-, -, hs⟩ := Outcome.bind_eq_ok.mp hs
  obtain ⟨b, hb, hs⟩ := Outcome.bind_eq_ok.mp hs
  obtain ⟨t, ht, hs⟩ := Outcome.bind_eq_ok.mp hs
  obtain rfl := ok.inj hs
  exact ⟨(setup_eq_ok ht).1, (Backstore.setup_eq_ok hb).2.1⟩

theorem Obtained.steady (h : Obtained overflowChecks p) : Steady p := by
  cases h with
  | made h => exact steady_initializePool h
  | assembled h => exact steady_setup h

/-! ### Runs -/

theorem assertDevice_eq_ok_iff {s : Stacked} : assertDevice s = .ok () ↔ Agree s := by
  unfold assertDevice Agree
  cases s.backstore.device with
  | none => simp
  | some d => simp

theorem assertDevice_of_not_agree {s : Stacked} (h : ¬ Agree s) :
    assertDevice s = .panic := by
  unfold Agree at h
  unfold assertDevice
  cases hd : s.backstore.device with
  | none => rfl
  | some d =>
    rw [hd, Option.some.injEq] at h
    exact if_neg h

theorem check_of_not_agree (overflowChecks : Bool) {s : Stacked} (h : ¬ Agree s)
    (env : ℕ → ThinPool.CheckIo) :
    check overflowChecks env s = (s, .panic) := by
  have hround : doCheck overflowChecks (env 0) s = (s, .panic) := by
    rw [doCheck, get_bind, assertDevice_of_not_agree h, lift_panic_bind]
  rw [check, get_bind, checkRounds, checkFrom,
    bind_of_panic (congrArg Prod.snd hround), hround]

theorem eventOn_of_not_agree (h : ¬ Agree p.toStacked) (io : EventIo) (name : String) :
    (step overflowChecks p (.eventOn io name)).2 = .panic := by
  have hcheck : (onStacked (check overflowChecks io.check) p).2 = .panic :=
    congrArg Prod.snd (check_of_not_agree overflowChecks h io.check)
  rw [step, Request.perform, eventOn, bind_of_panic hcheck]

/-- Device-mapper and the filesystems do what they are asked to. -/
def smoothCheck : ThinPool.CheckIo where
  status := .ok (.working ⟨0, 4096, 0, 768⟩ .good)
  extendMeta := ⟨⟨none, true, true⟩, ⟨true, true⟩, true⟩
  extendData := ⟨⟨none, true, true⟩, ⟨true, true⟩, true⟩
  lowWaterMark := true
  resumeMdv := true
  resumePool := true
  fs _ := ⟨⟨.ok .working, .ok [], .ok (0, 0, 0), true⟩, .ok ()⟩

def smoothInit (devs : List StratBlockDev) : InitIo where
  prepared := .ok devs
  thinPool := ⟨⟨some ⟨253, 0⟩, true, true⟩, some ⟨253, 1⟩, .ok (), some ⟨253, 2⟩, some ⟨253, 3⟩,
    .ok (), true⟩
  check _ := smoothCheck
  save := .ok ()

def smoothCache (devs : List StratBlockDev) : PoolCacheIo where
  encrypted := false
  suspend := ⟨true, true, true⟩
  cache := ⟨.ok devs, .ok (), ⟨some ⟨253, 4⟩, true, some ⟨253, 5⟩, some ⟨253, 6⟩⟩⟩
  resumeMdv := true
  resumePool := true
  save := .ok ()
  existing := []

/-- The request returns without an error. -/
def Returns (overflowChecks : Bool) (p : StratPool) (r : Request) : Prop :=
  (StratPool.step overflowChecks p r).2 = .ok ()

/-- In a run of successful requests the thin pool stays on the device that the backstore
presents, as every check asserts, if and only if no request makes a cache. -/
theorem device_agreement_iff {requests : List Request} (hp : Obtained overflowChecks p)
    (hok : AllSteps (StratPool.step overflowChecks) (Returns overflowChecks) p requests)
    (hfresh : AllSteps (StratPool.step overflowChecks) FreshCache p requests) :
    (∀ pre, pre <+: requests →
      let s := (run (StratPool.step overflowChecks) p pre).1.toStacked
      Agree s ∧ ThinPool.assertDevice s = .ok ()) ↔
    AllSteps (StratPool.step overflowChecks) (fun p r => ¬ CreatesCache p r) p requests := by
  have hsteady := hp.steady
  clear hp
  simp only [assertDevice_eq_ok_iff, and_self]
  induction requests generalizing p with
  | nil =>
    refine ⟨fun _ => trivial, fun _ pre hpre => ?_⟩
    obtain rfl := List.prefix_nil.mp hpre
    exact hsteady.device
  | cons r rs ih =>
    have hstep : StratPool.step overflowChecks p r = ((StratPool.step overflowChecks p r).1, .ok ()) :=
      Prod.ext rfl hok.1
    constructor
    · intro h
      have hnot : ¬ CreatesCache p r := fun hc =>
        not_agree_of_createsCache hsteady hc hfresh.1 hstep
          (h [r] ((List.prefix_cons_inj r).mpr List.nil_prefix))
      refine ⟨hnot, (ih hok.2 hfresh.2 (steady_step hsteady hnot hstep)).mp fun pre hpre => ?_⟩
      exact h (r :: pre) ((List.prefix_cons_inj r).mpr hpre)
    · rintro ⟨hnot, hrest⟩ pre hpre
      cases pre with
      | nil => exact hsteady.device
      | cons r' pre =>
        obtain ⟨rfl, hpre'⟩ := List.cons_prefix_cons.mp hpre
        exact (ih hok.2 hfresh.2 (steady_step hsteady hnot hstep)).mpr hrest pre hpre'

/-- A pool on one device, and an event. -/
theorem device_agreement_iff_event :
    ∃ (devs : List StratBlockDev) (p : StratPool),
      let r := Request.eventOn ⟨fun _ => smoothCheck, .ok ()⟩ "pool"
      initializePool true (smoothInit devs) "pool" = .ok p ∧
      ∀ pre, pre <+: [r] →
        let s := (run (StratPool.step true) p pre).1.toStacked
        Agree s ∧ ThinPool.assertDevice s = .ok () := by
  let bda := BDA.new ⟨⟨0⟩, ⟨1⟩⟩ MDADataSize.default (2 ^ 22) 0
  obtain ⟨d, -, p, hp, h⟩ : ∃ d, StratBlockDev.new ⟨8, 16⟩ bda [] none none = .ok d ∧
      ∃ p, initializePool true (smoothInit [d]) "pool" = .ok p ∧
      (StratPool.step true p (.eventOn ⟨fun _ => smoothCheck, .ok ()⟩ "pool")).2 = .ok () := by
    decide +kernel
  let r := Request.eventOn ⟨fun _ => smoothCheck, .ok ()⟩ "pool"
  have hok : AllSteps (StratPool.step true) (Returns true) p [r] := ⟨h, trivial⟩
  have hfresh : AllSteps (StratPool.step true) FreshCache p [r] := ⟨trivial, trivial⟩
  exact ⟨[d], p, hp, (device_agreement_iff (.made hp) hok hfresh).mpr ⟨id, trivial⟩⟩

/-- A pool that is made and gets a cache is left with the thin pool on the device under the
cache, and the next event stops. -/
theorem device_disagreement_after_init_cache :
    ∃ (devs cachedevs : List StratBlockDev) (p p' : StratPool),
      let r := Request.initCache (smoothCache cachedevs) "pool" ["/dev/sdc"]
      initializePool true (smoothInit devs) "pool" = .ok p ∧ FreshCache p r ∧
      StratPool.step true p r = (p', .ok ()) ∧ ¬ Agree p'.toStacked ∧
      (StratPool.step true p' (.eventOn ⟨fun _ => smoothCheck, .ok ()⟩ "pool")).2 = .panic := by
  let bda := BDA.new ⟨⟨0⟩, ⟨1⟩⟩ MDADataSize.default (2 ^ 22) 0
  let cacheBda := BDA.new ⟨⟨0⟩, ⟨2⟩⟩ MDADataSize.default (2 ^ 21) 0
  obtain ⟨d, -, c, -, p, hp, linear, hl, hstep, hc⟩ :
      ∃ d, StratBlockDev.new ⟨8, 16⟩ bda [] none none = .ok d ∧
      ∃ c, StratBlockDev.new ⟨8, 32⟩ cacheBda [] none none = .ok c ∧
      ∃ p, initializePool true (smoothInit [d]) "pool" = .ok p ∧
      ∃ linear ∈ p.backstore.linear,
      (StratPool.step true p (.initCache (smoothCache [c]) "pool" ["/dev/sdc"])).2 = .ok () ∧
      p.hasCache = false ∧ linear.device ≠ ⟨253, 6⟩ := by
    decide +kernel
  have hfresh : FreshCache p (.initCache (smoothCache [c]) "pool" ["/dev/sdc"]) := by
    intro linear' hl'
    obtain rfl := Option.some.inj (hl.symm.trans hl')
    exact fun heq => hc.2 (Option.some.inj heq).symm
  have hcreates : CreatesCache p (.initCache (smoothCache [c]) "pool" ["/dev/sdc"]) := hc.1
  have hnot := not_agree_of_createsCache (steady_initializePool hp) hcreates hfresh
    (Prod.ext rfl hstep)
  exact ⟨[d], [c], p, _, hp, hfresh, Prod.ext rfl hstep, hnot, eventOn_of_not_agree hnot _ _⟩

end StratPool

end Stratisd.Pool
