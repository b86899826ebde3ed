import Stratisd.Pool.DeviceAgreement
import Stratisd.Backstore.FailedCache
import Stratisd.Run.Beside

/-! The signatures that a pool leaves on devices. A device gets the signature of the pool when it
is initialized, long before the metadata that lists it is written; a call that returns in
between leaves a device with a signature and without a record. -/

namespace Stratisd.Backstore

open Run Run.Stateful Engine

/-- Code beside a list of the devices whose static header names the pool. -/
abbrev Signing (σ α : Type) := Stateful (σ × List DevUuid) StratisError α

/-- The devices are initialized for the pool. -/
def sign {σ : Type} (uuids : List DevUuid) : Signing σ Unit := Stateful.note (· ++ uuids)

/-- The headers of the devices are wiped. -/
def disown {σ : Type} (uuids : List DevUuid) : Signing σ Unit :=
  Stateful.note fun signed => signed.filter (· ∉ uuids)

namespace CacheTier

/-- Devices are initialized when they are added, and wiped if the cache would be too large. -/
def addSigning (poolUuid : PoolUuid) (prepared : StratisResult (List StratBlockDev))
    (wipe : StratisResult Unit) : Signing CacheTier (List DevUuid × Bool × Bool) := do
  let uuids ← Stateful.beside (onMgr (BlockDevMgr.add poolUuid prepared))
  sign uuids
  let t ← Stateful.beside Stateful.get
  if t.blockMgr.availSpace + totalLength t.cacheSegments > maxCacheSize then do
    Stateful.beside (onMgr (BlockDevMgr.removeBlockdevs uuids wipe))
    disown uuids
    Stateful.lift (.err tooLarge)
  else do
    let t' ← Stateful.lift t.extendCache
    Stateful.beside (Stateful.modify fun _ => t')
    pure (uuids, true, false)

theorem mirrors_addSigning (poolUuid : PoolUuid) (prepared : StratisResult (List StratBlockDev))
    (wipe : StratisResult Unit) :
    Mirrors (addSigning poolUuid prepared wipe) (add poolUuid prepared wipe) := by
  refine (mirrors_beside _).bind fun uuids => Mirrors.note ?_
  refine (mirrors_beside _).bind fun t => ?_
  split_ifs
  · exact (mirrors_beside _).bind fun _ => (mirrors_lift _).note
  · exact (mirrors_lift _).bind fun _ => (mirrors_beside _).bind fun _ =>
      mirrors_pure _

/-- The devices of a cache that would be too large are wiped. -/
def newSigning {σ : Type} (blockMgr : BlockDevMgr) (wipe : StratisResult Unit) :
    Signing σ CacheTier :=
  if ¬ metaSpace < blockMgr.availSpace then Stateful.lift .panic
  else if blockMgr.availSpace - metaSpace > maxCacheSize then do
    Stateful.lift wipe
    disown (blockMgr.blockDevs.map (·.uuid))
    Stateful.lift (.err tooLarge)
  else Stateful.lift (new blockMgr wipe)

theorem mirrors_newSigning {σ : Type} (blockMgr : BlockDevMgr) (wipe : StratisResult Unit) :
    Mirrors (newSigning blockMgr wipe : Signing σ CacheTier)
      (Stateful.lift (new blockMgr wipe)) := by
  unfold newSigning
  split_ifs with hmeta hmax
  · intro s d
    rw [new, if_neg (not_not.mpr hmeta), if_pos hmax]
    cases wipe <;> rfl
  · exact mirrors_lift _
  · intro s d
    rw [new, if_pos hmeta]
    rfl

end CacheTier

namespace Backstore

def initCacheSigning (io : InitCacheIo) (paths : List String) : Signing Backstore (List DevUuid) := do
  let b ← Stateful.beside Stateful.get
  match b.cacheTier with
  | some _ => Stateful.lift .panic
  | none =>
    if paths = [] then
      Stateful.lift (.err (.msg "Must initialize cache with at least one blockdev."))
    else do
      let bdm ← Stateful.lift (BlockDevMgr.initializeMgr io.prepared)
      sign (bdm.blockDevs.map (·.uuid))
      let cacheTier ← CacheTier.newSigning bdm io.wipe
      let linear ← Stateful.lift (Outcome.expect b.linear)
      Stateful.beside (Stateful.modify fun b => { b with linear := none })
      let cache ← Stateful.lift (makeCache io.cache cacheTier linear true)
      Stateful.beside
        (Stateful.modify fun b => { b with cache := some cache, cacheTier := some cacheTier })
      pure (cacheTier.blockMgr.blockDevs.map (·.uuid))

theorem mirrors_initCacheSigning (io : InitCacheIo) (paths : List String) :
    Mirrors (initCacheSigning io paths) (initCache io paths) := by
  refine (mirrors_beside _).bind fun b => ?_
  cases b.cacheTier with
  | some t => exact mirrors_lift _
  | none =>
    simp only
    split_ifs
    · exact mirrors_lift _
    · refine (mirrors_lift _).bind fun bdm => Mirrors.note ?_
      exact (CacheTier.mirrors_newSigning _ _).bind fun t => (mirrors_lift _).bind
        fun linear => (mirrors_beside _).bind fun _ => (mirrors_lift _).bind
        fun cache => (mirrors_beside _).bind fun _ => mirrors_pure _

def addCachedevsSigning (io : AddCacheIo) (poolUuid : PoolUuid) :
    Signing Backstore (List DevUuid) := do
  let b ← Stateful.beside Stateful.get
  match b.cacheTier with
  | none => Stateful.lift .panic
  | some cacheTier => do
    let _ ← Stateful.lift (Outcome.expect b.cache)
    let x ← Stateful.get
    let r := CacheTier.addSigning poolUuid io.prepared io.wipe (cacheTier, x.2)
    Stateful.modify fun x => ({ x.1 with cacheTier := some r.1.1 }, r.1.2)
    let changed ← Stateful.lift r.2
    Stateful.beside (setSubTable io changed.2.1 fun cache =>
      { cache with cacheDev := { cache.cacheDev with table := mapToDm r.1.1.cacheSegments } })
    Stateful.beside (setSubTable io changed.2.2 fun cache =>
      { cache with metaDev := { cache.metaDev with table := mapToDm r.1.1.metaSegments } })
    pure changed.1

theorem mirrors_addCachedevsSigning (io : AddCacheIo) (poolUuid : PoolUuid) :
    Mirrors (addCachedevsSigning io poolUuid) (addCachedevs io poolUuid) := by
  refine (mirrors_beside _).bind fun b => ?_
  cases b.cacheTier with
  | none => exact mirrors_lift _
  | some t =>
    refine (mirrors_lift _).bind fun _ => ?_
    intro s d
    have h := CacheTier.mirrors_addSigning poolUuid io.prepared io.wipe t d
    rw [get_bind, modify_bind, modify_bind]
    rw [← h]
    refine Mirrors.bind (mirrors_lift _) (fun changed => ?_) _ _
    exact (mirrors_beside _).bind fun _ => (mirrors_beside _).bind fun _ =>
      mirrors_pure _

def addDatadevsSigning (poolUuid : PoolUuid) (prepared : StratisResult (List StratBlockDev)) :
    Signing Backstore (List DevUuid) := do
  let uuids ← Stateful.beside (addDatadevs poolUuid prepared)
  sign uuids
  pure uuids

theorem mirrors_addDatadevsSigning (poolUuid : PoolUuid)
    (prepared : StratisResult (List StratBlockDev)) :
    Mirrors (addDatadevsSigning poolUuid prepared) (addDatadevs poolUuid prepared) :=
  (mirrors_beside _).note_after

end Backstore

end Stratisd.Backstore

namespace Stratisd.Pool

open Run Run.Stateful Engine Backstore Thinpool

namespace StratPool

def onBackstoreSigning {α : Type} : Signing Backstore α → Signing StratPool α :=
  Stateful.within (fun x => (x.1.backstore, x.2)) fun y x => ({ x.1 with backstore := y.1 }, y.2)

theorem mirrors_onBackstoreSigning {α : Type} {q : Signing Backstore α} {r : Backstore.M α}
    (h : Mirrors q r) :
    Mirrors (onBackstoreSigning q) (onStacked (ThinPool.onBackstore r)) := by
  intro p d
  have := h p.backstore d
  rw [onStacked, ThinPool.onBackstore, within, within, ← this]
  rfl

def whileSuspendedSigning {α : Type} (suspend : ThinPool.SuspendIo) (resumeMdv resumePool : Bool)
    (q : Signing StratPool α) : Signing StratPool α := fun s =>
  match ThinPool.suspend suspend with
  | .ok () =>
    let r := q s
    match r.2 with
    | .panic => (r.1, .panic)
    | result => (Stateful.beside (onStacked (ThinPool.resume resumeMdv resumePool)) >>= fun _ =>
        Stateful.lift result) r.1
  | .err e => (s, .err e)
  | .panic => (s, .panic)

theorem mirrors_whileSuspendedSigning {α : Type} (suspend : ThinPool.SuspendIo)
    (resumeMdv resumePool : Bool) {q : Signing StratPool α} {r : M α} (h : Mirrors q r) :
    Mirrors (whileSuspendedSigning suspend resumeMdv resumePool q)
      (whileSuspended suspend resumeMdv resumePool r) := by
  intro p d
  unfold whileSuspendedSigning whileSuspended
  cases ThinPool.suspend suspend with
  | ok _ =>
    simp only [← h p d]
    cases (q (p, d)).2 with
    | panic => rfl
    | ok a => exact (mirrors_beside _).bind (fun _ => mirrors_lift _) _ _
    | err e => exact (mirrors_beside _).bind (fun _ => mirrors_lift _) _ _
  | err e => rfl
  | panic => rfl

def initCacheSigning (io : PoolCacheIo) (name : String) (paths : List String) :
    Signing StratPool (List DevUuid) := do
  Stateful.lift (validatePaths paths)
  let p ← Stateful.beside Stateful.get
  if io.encrypted then
    Stateful.lift (.err (.msg "Use of a cache is not supported with an encrypted pool"))
  else if p.hasCache then Stateful.lift (initCacheIdempotentOrErr paths io.existing)
  else if paths = [] then Stateful.lift (.err (.msg
    "At least one blockdev path is required to initialize a cache."))
  else do
    let devices ← whileSuspendedSigning io.suspend io.resumeMdv io.resumePool
      (onBackstoreSigning (Backstore.initCacheSigning io.cache paths))
    Stateful.beside (writeMetadata io.save name)
    pure devices

theorem mirrors_initCacheSigning (io : PoolCacheIo) (name : String) (paths : List String) :
    Mirrors (initCacheSigning io name paths) (initCache io name paths) := by
  refine (mirrors_lift _).bind fun _ => (mirrors_beside _).bind fun p => ?_
  split_ifs
  · exact mirrors_lift _
  · exact mirrors_lift _
  · exact mirrors_lift _
  · exact (mirrors_whileSuspendedSigning _ _ _ (mirrors_onBackstoreSigning
      (Backstore.mirrors_initCacheSigning _ _))).bind fun _ =>
        (mirrors_beside _).bind fun _ => mirrors_pure _

def addCacheSigning (io : AddIo) (poolUuid : PoolUuid) : Signing StratPool (List DevUuid) := do
  let uuids ← onBackstoreSigning (Backstore.addCachedevsSigning io.cache poolUuid)
  let p ← Stateful.beside Stateful.get
  let device ← Stateful.lift (Outcome.expect p.backstore.device)
  let _ ← Stateful.beside (onStacked (ThinPool.setDevice io.move device))
  pure uuids

theorem mirrors_addCacheSigning (io : AddIo) (poolUuid : PoolUuid) :
    Mirrors (addCacheSigning io poolUuid) (addCache io poolUuid) :=
  (mirrors_onBackstoreSigning (Backstore.mirrors_addCachedevsSigning _ _)).bind fun _ =>
    (mirrors_beside _).bind fun _ => (mirrors_lift _).bind fun _ =>
      (mirrors_beside _).bind fun _ => mirrors_pure _

variable (overflowChecks : Bool)

def addDataSigning (io : AddIo) (poolUuid : PoolUuid) : Signing StratPool (List DevUuid) := do
  let uuids ← onBackstoreSigning (Backstore.addDatadevsSigning poolUuid io.datadevs)
  let _ ← Stateful.beside (onStacked (ThinPool.check overflowChecks io.check))
  pure uuids

theorem mirrors_addDataSigning (io : AddIo) (poolUuid : PoolUuid) :
    Mirrors (addDataSigning overflowChecks io poolUuid)
      (addData overflowChecks io poolUuid) :=
  (mirrors_onBackstoreSigning (Backstore.mirrors_addDatadevsSigning _ _)).bind fun _ =>
    (mirrors_beside _).bind fun _ => mirrors_pure _

def addBlockdevsSigning (io : AddIo) (poolUuid : PoolUuid) (name : String) (paths : List String)
    (tier : BlockDevTier) : Signing StratPool (List DevUuid) := do
  Stateful.lift (validatePaths paths)
  let p ← Stateful.beside Stateful.get
  if tier = .cache ∧ ¬ p.hasCache then Stateful.lift (.err (.msg
    s!"No cache has been initialized for pool with UUID {displayUuid poolUuid.val} and name {name}; it is therefore impossible to add additional devices to the cache"))
  else if paths = [] then pure []
  else do
    let uuids ← (if tier = .cache then
        whileSuspendedSigning io.suspend io.resumeMdv io.resumePool (addCacheSigning io poolUuid)
      else addDataSigning overflowChecks io poolUuid)
    Stateful.beside (writeMetadata io.save name)
    pure uuids

theorem mirrors_addBlockdevsSigning (io : AddIo) (poolUuid : PoolUuid) (name : String)
    (paths : List String) (tier : BlockDevTier) :
    Mirrors (addBlockdevsSigning overflowChecks io poolUuid name paths tier)
      (addBlockdevs overflowChecks io poolUuid name paths tier) := by
  refine (mirrors_lift _).bind fun _ => (mirrors_beside _).bind fun p => ?_
  split_ifs
  · exact mirrors_lift _
  · exact mirrors_pure _
  · exact (mirrors_whileSuspendedSigning _ _ _ (mirrors_addCacheSigning _ _)).bind fun _ =>
      (mirrors_beside _).bind fun _ => mirrors_pure _
  · exact (mirrors_addDataSigning _ _ _).bind fun _ =>
      (mirrors_beside _).bind fun _ => mirrors_pure _

end StratPool

end Stratisd.Pool
