import Stratisd.Pool.DeviceAgreement

/-! What every part of a request keeps, the request keeps, however it ends. A check and the
devices that are added depend on the environment, so that a request is asked something about
these; nothing is asked about the other parts. -/

namespace Stratisd.Pool

open Run Run.Stateful Engine Backstore Thinpool

/-- The parts of requests keep a property, checks in certain environments. -/
structure KeptByParts (overflowChecks : Bool) (Env : (ℕ → ThinPool.CheckIo) → Prop)
    (I : Stacked → Prop) : Prop where
  check : ∀ env, Env env → Stateful.Keeps I (ThinPool.check overflowChecks env)
  addDatadevs : ∀ poolUuid prepared s, I s → s.backstore.UnusedData prepared →
    I (ThinPool.onBackstore (Backstore.addDatadevs poolUuid prepared) s).1
  addCachedevs : ∀ io poolUuid,
    Stateful.Keeps I (ThinPool.onBackstore (Backstore.addCachedevs io poolUuid))
  initCache : ∀ io paths, Stateful.Keeps I (ThinPool.onBackstore (Backstore.initCache io paths))
  setDevice : ∀ io device, Stateful.Keeps I (ThinPool.setDevice io device)
  filesystems : ∀ {α : Type} {p : ThinPool.F α}, FsOnly p →
    Stateful.Keeps I (ThinPool.onThinPool p)

namespace StratPool

variable {overflowChecks : Bool} {Env : (ℕ → ThinPool.CheckIo) → Prop} {I : Stacked → Prop}
  {p : StratPool}

/-- A check of the request has such an environment, and devices for the data tier are new to it. -/
def Admitted (Env : (ℕ → ThinPool.CheckIo) → Prop) (p : StratPool) : Request → Prop
  | .eventOn io _ => Env io.check
  | .addBlockdevs io _ _ _ tier => (tier = .data → p.backstore.UnusedData io.datadevs) ∧
      Env io.check
  | _ => True

/-- The same property of a pool. -/
abbrev Lifted (I : Stacked → Prop) (p : StratPool) : Prop := I p.toStacked

theorem lifts_onStacked {α : Type} {q : ThinPool.M α} (h : Keeps I q) :
    Keeps (Lifted I) (onStacked q) :=
  fun p hp => h p.toStacked hp

theorem lifts_writeMetadata (save : StratisResult Unit) (name : String) :
    Keeps (Lifted I) (writeMetadata save name) := by
  intro p hp
  unfold Lifted
  rwa [toStacked_writeMetadata]

theorem toStacked_writeIfChanged (save : StratisResult Unit) (name : String) (changed : Bool)
    (p : StratPool) : (writeIfChanged save name changed p).1.toStacked = p.toStacked := by
  unfold writeIfChanged
  split_ifs
  · exact toStacked_writeMetadata save name p
  · rfl

theorem lifts_writeIfChanged (save : StratisResult Unit) (name : String) (changed : Bool) :
    Keeps (Lifted I) (writeIfChanged save name changed) := by
  intro p hp
  unfold Lifted
  rwa [toStacked_writeIfChanged]

end StratPool

namespace KeptByParts

open StratPool

variable {overflowChecks : Bool} {Env : (ℕ → ThinPool.CheckIo) → Prop} {I : Stacked → Prop}
  {p : StratPool}

theorem addData (h : KeptByParts overflowChecks Env I) {io : AddIo} (hio : Env io.check)
    (poolUuid : PoolUuid) (hp : I p.toStacked) (hnew : p.backstore.UnusedData io.datadevs) :
    I (StratPool.addData overflowChecks io poolUuid p).1.toStacked := by
  refine keeps_bind_at (I := Lifted I) ?_ fun _ =>
    (lifts_onStacked (h.check _ hio)).bind fun _ => keeps_pure _
  exact h.addDatadevs poolUuid _ _ hp hnew

theorem addCache (h : KeptByParts overflowChecks Env I) (io : AddIo) (poolUuid : PoolUuid) :
    Keeps (Lifted I) (StratPool.addCache io poolUuid) :=
  (lifts_onStacked (h.addCachedevs io.cache poolUuid)).bind fun _ => keeps_read fun _ =>
    (keeps_lift _).bind fun device =>
      (lifts_onStacked (h.setDevice io.move device)).bind fun _ => keeps_pure _

theorem addBlockdevs (h : KeptByParts overflowChecks Env I) {io : AddIo} (hio : Env io.check)
    (poolUuid : PoolUuid) (name : String) (paths : List String) {tier : BlockDevTier}
    (hp : I p.toStacked) (hnew : tier = .data → p.backstore.UnusedData io.datadevs) :
    I (StratPool.addBlockdevs overflowChecks io poolUuid name paths tier p).1.toStacked := by
  unfold StratPool.addBlockdevs
  cases validatePaths paths with
  | err e => exact hp
  | panic => exact hp
  | ok u =>
    rw [lift_ok_bind, get_bind]
    split_ifs with hno hempty htier
    · exact hp
    · exact hp
    · refine keeps_bind_at (I := Lifted I) ?_ fun _ =>
        (lifts_writeMetadata _ _).bind fun _ => keeps_pure _
      exact keeps_whileSuspended _ _ _ (h.addCache io poolUuid) p hp
    · have hdata : tier = .data := by cases tier <;> simp_all
      exact keeps_bind_at (I := Lifted I)
        (h.addData hio poolUuid hp (hnew hdata)) fun _ =>
          (lifts_writeMetadata _ _).bind fun _ => keeps_pure _

theorem poolInitCache (h : KeptByParts overflowChecks Env I) (io : PoolCacheIo) (name : String)
    (paths : List String) : Keeps (Lifted I)
      (StratPool.initCache io name paths) := by
  refine (keeps_lift _).bind fun _ => keeps_read fun q => ?_
  split_ifs
  · exact keeps_lift _
  · exact keeps_lift _
  · exact keeps_lift _
  · exact (keeps_whileSuspended _ _ _ (lifts_onStacked (h.initCache io.cache paths))).bind fun _ =>
      (lifts_writeMetadata _ _).bind fun _ => keeps_pure _

theorem step (h : KeptByParts overflowChecks Env I) {r : Request} (hp : I p.toStacked)
    (hr : Admitted Env p r) : I (StratPool.step overflowChecks p r).1.toStacked := by
  have hfs {α : Type} {q : ThinPool.F α} (hq : FsOnly q) :
      Keeps (Lifted I) (onFilesystems q) :=
    lifts_onStacked (h.filesystems hq)
  cases r with
  | initCache io name paths => exact (h.poolInitCache io name paths).ignore p hp
  | addBlockdevs io poolUuid name paths tier =>
    rw [StratPool.step, Request.perform, ignore_fst]
    exact h.addBlockdevs hr.2 poolUuid name paths hp hr.1
  | eventOn io name =>
    exact Keeps.bind (lifts_onStacked (h.check _ hr))
      (fun changed => lifts_writeIfChanged _ _ changed) p hp
  | createFilesystems valid specs =>
    refine Keeps.ignore (I := Lifted I) ?_ p hp
    exact (keeps_lift _).bind fun _ => hfs (fsOnly_createEach specs)
  | destroyFilesystems uuids => exact (hfs (fsOnly_destroyEach uuids)).ignore p hp
  | renameFilesystem valid saveFs uuid newName =>
    refine Keeps.ignore (I := Lifted I) ?_ p hp
    exact (keeps_lift _).bind fun _ => hfs (fsOnly_renameFilesystem _ _ _)
  | snapshotFilesystem valid io originUuid snapshotName =>
    refine Keeps.ignore (I := Lifted I) ?_ p hp
    refine (keeps_lift _).bind fun _ => keeps_read fun q => ?_
    split
    · exact keeps_pure _
    · exact (hfs (fsOnly_snapshotFilesystem _ _ _)).bind fun _ => keeps_pure _

end KeptByParts

end Stratisd.Pool
