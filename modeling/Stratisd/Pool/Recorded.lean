import Stratisd.Backstore.Removal
import Stratisd.Pool.Signatures
import Stratisd.Liminal.Blockdevs

/-! Which devices with the signature of a pool are listed in its metadata. Before a call they
all are; after it they are, if and only if the call has not initialized a device or has come to
its end. -/

namespace Stratisd.Backstore

open Run Run.Outcome Run.Stateful Engine List CacheTier

/-- How code that initializes devices ends. Whatever happens it leaves `signed` behind. With an
error it has initialized no device or has not completed, without one it has all of `listed`. -/
inductive Ends {σ α : Type} (devices : σ → List DevUuid) (listed signed new : List DevUuid)
    (completes : Prop) : (σ × List DevUuid) × StratisResult α → Prop
  | stopped (x : σ × List DevUuid) : Ends devices listed signed new completes (x, .panic)
  | failed (s : σ) (e : StratisError) (h : new = [] ∨ ¬ completes) :
    Ends devices listed signed new completes ((s, signed), .err e)
  | returned (s : σ) (a : α) (hc : completes) (hd : listed ⊆ devices s) :
    Ends devices listed signed new completes ((s, signed), .ok a)

section ends

variable {σ α β : Type} {devices : σ → List DevUuid} {listed listed' signed new : List DevUuid}
  {c c' : Prop}

theorem Ends.bind {p : Signing σ α} {f : α → Signing σ β} {x : σ × List DevUuid}
    (h : Ends devices listed signed new c (p x)) (hc : c' → c)
    (hf : ∀ s a, p x = ((s, signed), .ok a) → c → listed ⊆ devices s →
      Ends devices listed' signed new c' (f a (s, signed))) :
    Ends devices listed' signed new c' ((p >>= f) x) := by
  rw [bind_apply]
  generalize hp : p x = r at h hf
  cases h with
  | stopped x => exact .stopped x
  | failed s e h => exact .failed s e (h.imp id fun hn h' => hn (hc h'))
  | returned s a h hd => exact hf s a rfl h hd

theorem ends_beside {q : Stateful σ StratisError α} {s : σ} (hd : listed ⊆ devices (q s).1)
    (hok : ∀ a, (q s).2 = .ok a → c) (herr : ∀ e, (q s).2 = .err e → ¬ c) :
    Ends devices listed signed new c (beside q (s, signed)) := by
  change Ends devices listed signed new c (((q s).1, signed), (q s).2)
  rcases hq : (q s).2 with a | e | _
  · exact .returned _ a (hok a hq) hd
  · exact .failed _ e (Or.inr (herr e hq))
  · exact .stopped _

theorem filter_append_self (h : ∀ u ∈ new, u ∉ signed) :
    (signed ++ new).filter (· ∉ new) = signed := by
  rw [filter_append, filter_eq_self.mpr, filter_eq_nil_iff.mpr, append_nil]
  · simp
  · intro u hu
    simpa using fun hn => h u hn hu

end ends

namespace Backstore

def devices (b : Backstore) : List DevUuid := (b.datadevs ++ b.cachedevs).map (·.uuid)

/-- Device-mapper does what `make_cache` asks for. -/
def CacheIo.Succeeds (io : CacheIo) : Prop :=
  io.metaSub.isSome ∧ io.wipe ∧ io.cacheSub.isSome ∧ io.cache.isSome

theorem makeCache_isOk_iff {io : CacheIo} {t : CacheTier} {origin : LinearDev} :
    (makeCache io t origin true).isOk ↔ CacheIo.Succeeds io := by
  obtain ⟨metaSub, wipe, cacheSub, cache⟩ := io
  unfold makeCache CacheIo.Succeeds
  cases metaSub <;> cases wipe <;> cases cacheSub <;> cases cache <;>
    simp [LinearDev.setup, wipeMeta]

/-- The devices that `init_cache` initializes and does not wipe again. -/
def InitCacheIo.initialized (io : InitCacheIo) (paths : List String) : List DevUuid :=
  match io.prepared with
  | .ok new =>
    if paths = [] ∨ CacheTier.maxCacheSize < BlockDevMgr.availSpace ⟨new, none⟩ - CacheTier.metaSpace
    then [] else new.map (·.uuid)
  | _ => []

theorem InitCacheIo.mem_initialized {io : InitCacheIo} {paths : List String} {u : DevUuid}
    (h : u ∈ io.initialized paths) : ∃ new, io.prepared = .ok new ∧ u ∈ new.map (·.uuid) := by
  unfold InitCacheIo.initialized at h
  split at h
  · rename_i new hprep
    split_ifs at h
    · cases h
    · exact ⟨new, hprep, h⟩
  · cases h

variable {b : Backstore} {signed : List DevUuid}

/-- What comes after the devices have been initialized. -/
theorem initCacheSigning_of_prepared {io : InitCacheIo} {paths : List String}
    {new : List StratBlockDev} (hct : b.cacheTier = none) (hp : paths ≠ [])
    (hprep : io.prepared = .ok new) :
    initCacheSigning io paths (b, signed) = (do
      let cacheTier ← CacheTier.newSigning ⟨new, none⟩ io.wipe
      let linear ← Stateful.lift (expect b.linear)
      beside (Stateful.modify fun b => { b with linear := none })
      let cache ← Stateful.lift (makeCache io.cache cacheTier linear true)
      beside
        (Stateful.modify fun b => { b with cache := some cache, cacheTier := some cacheTier })
      pure (cacheTier.blockMgr.blockDevs.map (·.uuid)) : Signing Backstore (List DevUuid))
        (b, signed ++ new.map (·.uuid)) := by
  rw [initCacheSigning, beside_get_bind]
  simp only [hct]
  rw [if_neg hp, hprep]
  rfl

theorem ends_newSigning {wipe : StratisResult Unit} (hw : wipe = .ok ()) {new : List StratBlockDev}
    (hnew : ∀ u ∈ new.map (·.uuid), u ∉ signed) :
    let left := if CacheTier.maxCacheSize < BlockDevMgr.availSpace ⟨new, none⟩ - CacheTier.metaSpace
      then [] else new.map (·.uuid)
    Ends devices b.devices (signed ++ left) left True
      (CacheTier.newSigning ⟨new, none⟩ wipe (b, signed ++ new.map (·.uuid))) := by
  intro left
  rw [CacheTier.newSigning]
  split_ifs with hmeta hmax
  · have hleft : left = [] := if_pos hmax
    rw [hw, hleft, append_nil, lift_ok_bind, disown, note_bind,
      filter_append_self hnew]
    exact .failed _ _ (Or.inl rfl)
  · have hleft : left = new.map (·.uuid) := if_neg hmax
    rw [hleft]
    rcases ht : CacheTier.new ⟨new, none⟩ wipe with t | e | _
    · exact .returned _ t trivial (List.Subset.refl _)
    · exact absurd (new_eq_err ht) hmax
    · exact .stopped _
  · exact .stopped _

theorem ends_makeCache (io : CacheIo) {m : BlockDevMgr} {wipe : StratisResult Unit}
    {t : CacheTier} (hct : b.cacheTier = none) (ht : CacheTier.new m wipe = .ok t) :
    let new := m.blockDevs.map (·.uuid)
    Ends devices (b.devices ++ new) (signed ++ new) new (CacheIo.Succeeds io)
      ((do
        let linear ← Stateful.lift (expect b.linear)
        beside (Stateful.modify fun b => { b with linear := none })
        let cache ← Stateful.lift (makeCache io t linear true)
        beside
          (Stateful.modify fun b => { b with cache := some cache, cacheTier := some t })
        pure (t.blockMgr.blockDevs.map (·.uuid)) : Signing Backstore (List DevUuid))
          (b, signed ++ new)) := by
  intro new
  cases b.linear with
  | none => exact .stopped _
  | some linear =>
    rw [expect_some, lift_ok_bind, beside_modify_bind]
    have hmade : (makeCache io t linear true).isOk ↔ CacheIo.Succeeds io := makeCache_isOk_iff
    rcases hcache : makeCache io t linear true with cache | e | _
    · refine .returned _ _ (hmade.mp (by rw [hcache]; rfl)) fun u hu => ?_
      have huuids : t.blockMgr.blockDevs.map (·.uuid) = new :=
        map_uuid_of_identity (new_identity ht)
      simpa [devices, datadevs, cachedevs, hct, map_append, huuids] using hu
    · refine .failed _ _ (Or.inr fun hs => ?_)
      simpa [hcache] using hmade.mpr hs
    · exact .stopped _

theorem ends_initCache {io : InitCacheIo} (paths : List String) (hw : io.wipe = .ok ())
    (hnew : ∀ new, io.prepared = .ok new → ∀ u ∈ new.map (·.uuid), u ∉ signed) :
    Ends devices (b.devices ++ io.initialized paths) (signed ++ io.initialized paths)
      (io.initialized paths) (CacheIo.Succeeds io.cache)
      (initCacheSigning io paths (b, signed)) := by
  cases hct : b.cacheTier with
  | some t =>
    rw [initCacheSigning, beside_get_bind]
    simp only [hct]
    exact .stopped _
  | none =>
    by_cases hp : paths = []
    · rw [initCacheSigning, beside_get_bind]
      simp only [hct]
      rw [if_pos hp]
      have hleft : io.initialized paths = [] := by
        unfold InitCacheIo.initialized
        split
        · rw [if_pos (Or.inl hp)]
        · rfl
      rw [hleft, append_nil, append_nil]
      exact .failed _ _ (Or.inl rfl)
    · rcases hprep : io.prepared with new | e | _
      · have hleft : io.initialized paths = if CacheTier.maxCacheSize <
            BlockDevMgr.availSpace ⟨new, none⟩ - CacheTier.metaSpace then [] else new.map (·.uuid) := by
          simp only [InitCacheIo.initialized, hprep, hp, false_or]
        rw [initCacheSigning_of_prepared hct hp hprep, hleft]
        refine (ends_newSigning hw (hnew new hprep)).bind (fun _ => trivial) fun s t hs _ _ => ?_
        obtain ⟨rfl, ht⟩ := Prod.mk.inj ((mirrors_newSigning _ _).eq hs)
        rw [if_neg (not_lt.mpr (new_eq_ok ht).2.1)]
        exact ends_makeCache io.cache hct ht
      · have hleft : io.initialized paths = [] := by
          simp only [InitCacheIo.initialized, hprep]
        rw [initCacheSigning, beside_get_bind]
        simp only [hct]
        rw [if_neg hp, hprep, hleft, append_nil, append_nil]
        exact .failed _ _ (Or.inl rfl)
      · rw [initCacheSigning, beside_get_bind]
        simp only [hct]
        rw [if_neg hp, hprep]
        exact .stopped _

end Backstore

/-! ### Devices that are added -/

/-- The devices that are initialized when devices are added. -/
def BlockDevMgr.added (m : BlockDevMgr) (poolUuid : PoolUuid)
    (prepared : StratisResult (List StratBlockDev)) : List StratBlockDev :=
  match m.checkPoolUuid poolUuid, prepared with
  | .ok _, .ok new => new
  | _, _ => []

theorem BlockDevMgr.added_cases (m : BlockDevMgr) (poolUuid : PoolUuid)
    (prepared : StratisResult (List StratBlockDev)) :
    m.added poolUuid prepared = [] ∨ prepared = .ok (m.added poolUuid prepared) := by
  unfold BlockDevMgr.added
  split
  · exact Or.inr rfl
  · exact Or.inl rfl

theorem BlockDevMgr.mem_added {m : BlockDevMgr} {poolUuid : PoolUuid}
    {prepared : StratisResult (List StratBlockDev)} {u : DevUuid}
    (h : u ∈ (m.added poolUuid prepared).map (·.uuid)) :
    ∃ new, prepared = .ok new ∧ u ∈ new.map (·.uuid) := by
  rcases m.added_cases poolUuid prepared with hnil | hok
  · rw [hnil] at h
    cases h
  · exact ⟨_, hok, h⟩

theorem BlockDevMgr.add_added (m : BlockDevMgr) (poolUuid : PoolUuid)
    (prepared : StratisResult (List StratBlockDev)) :
    (∃ e, BlockDevMgr.add poolUuid prepared m = (m, .err e) ∧ m.added poolUuid prepared = []) ∨
      BlockDevMgr.add poolUuid prepared m = (m, .panic) ∨
      BlockDevMgr.add poolUuid prepared m =
        ({ m with blockDevs := m.blockDevs ++ m.added poolUuid prepared },
          .ok ((m.added poolUuid prepared).map (·.uuid))) := by
  rw [BlockDevMgr.add, get_bind]
  unfold BlockDevMgr.added
  rcases m.checkPoolUuid poolUuid with _ | e | _
  · rcases prepared with new | e | _
    · exact Or.inr (Or.inr rfl)
    · exact Or.inl ⟨e, rfl, rfl⟩
    · exact Or.inr (Or.inl rfl)
  · exact Or.inl ⟨e, rfl, rfl⟩
  · exact Or.inr (Or.inl rfl)

theorem Backstore.ends_addDatadevs (b : Backstore) (signed : List DevUuid) (poolUuid : PoolUuid)
    (prepared : StratisResult (List StratBlockDev)) :
    let new := (b.dataTier.blockMgr.added poolUuid prepared).map (·.uuid)
    Ends Backstore.devices (b.devices ++ new) (signed ++ new) new True
      (Backstore.addDatadevsSigning poolUuid prepared (b, signed)) := by
  intro new
  have hbeside : beside (Backstore.addDatadevs poolUuid prepared) (b, signed) =
      (({ b with dataTier := { b.dataTier with
          blockMgr := (BlockDevMgr.add poolUuid prepared b.dataTier.blockMgr).1 } }, signed),
        (BlockDevMgr.add poolUuid prepared b.dataTier.blockMgr).2) := rfl
  rw [Backstore.addDatadevsSigning, bind_apply, hbeside]
  rcases b.dataTier.blockMgr.add_added poolUuid prepared with ⟨e, heq, hnil⟩ | heq | heq
  · have hnew : new = [] := by simp [new, hnil]
    rw [heq, hnew, append_nil, append_nil]
    exact .failed _ _ (Or.inl rfl)
  · rw [heq]
    exact .stopped _
  · rw [heq]
    refine .returned _ _ trivial fun u hu => ?_
    simp only [new, Backstore.devices, Backstore.datadevs, Backstore.cachedevs, map_append,
      mem_append] at hu ⊢
    tauto

namespace CacheTier

/-- The devices that are initialized when devices are added to the cache, and not wiped again. -/
def initialized (t : CacheTier) (poolUuid : PoolUuid)
    (prepared : StratisResult (List StratBlockDev)) : List DevUuid :=
  let new := t.blockMgr.added poolUuid prepared
  if BlockDevMgr.availSpace { t.blockMgr with blockDevs := t.blockMgr.blockDevs ++ new } +
      totalLength t.cacheSegments > maxCacheSize then []
  else new.map (·.uuid)

variable {wipe : StratisResult Unit}

theorem removeBlockdevs_ok {t : CacheTier} {new : List StratBlockDev}
    (hne : t.blockMgr.blockDevs ≠ []) (hw : wipe = .ok ()) (hn : (new.map (·.uuid)).Nodup) :
    (BlockDevMgr.removeBlockdevs (new.map (·.uuid)) wipe
      { t.blockMgr with blockDevs := t.blockMgr.blockDevs ++ new }).2 = .ok () := by
  obtain ⟨bd, bds, hbds⟩ := exists_cons_of_ne_nil hne
  have heach : (BlockDevMgr.removeEach (new.map (·.uuid))
      { t.blockMgr with blockDevs := t.blockMgr.blockDevs ++ new }).2 = .ok () :=
    BlockDevMgr.removeEach_ok hn (by rw [hbds, cons_append]) (by simp)
  rw [BlockDevMgr.removeBlockdevs, hw, bind_of_ok heach]
  rfl

def devices (t : CacheTier) : List DevUuid := t.blockMgr.blockDevs.map (·.uuid)

/-- Adding devices to the cache tier. That those of a cache that would be too large are found
again, takes a device that the tier had before. -/
theorem ends_addSigning {t : CacheTier} {signed : List DevUuid} {poolUuid : PoolUuid}
    {prepared : StratisResult (List StratBlockDev)} (hne : t.blockMgr.blockDevs ≠ [])
    (hw : wipe = .ok ()) (hnew : ∀ new, prepared = .ok new → (new.map (·.uuid)).Nodup ∧
      ∀ u ∈ new.map (·.uuid), u ∉ signed) :
    let new := t.initialized poolUuid prepared
    Ends devices (t.devices ++ new) (signed ++ new) new True
      (addSigning poolUuid prepared wipe (t, signed)) := by
  intro new
  have hbeside : beside (onMgr (BlockDevMgr.add poolUuid prepared)) (t, signed) =
      (({ t with blockMgr := (BlockDevMgr.add poolUuid prepared t.blockMgr).1 }, signed),
        (BlockDevMgr.add poolUuid prepared t.blockMgr).2) := rfl
  rw [addSigning, bind_apply, hbeside]
  rcases t.blockMgr.add_added poolUuid prepared with ⟨e, heq, hnil⟩ | heq | heq
  · have hnone : new = [] := by simp [new, initialized, hnil]
    rw [heq, hnone, append_nil, append_nil]
    exact .failed _ _ (Or.inl rfl)
  · rw [heq]
    exact .stopped _
  · rw [heq]
    let t' : CacheTier := { t with blockMgr := { t.blockMgr with
      blockDevs := t.blockMgr.blockDevs ++ t.blockMgr.added poolUuid prepared } }
    let added := (t.blockMgr.added poolUuid prepared).map (·.uuid)
    obtain ⟨hnodup, hdisj⟩ : added.Nodup ∧ ∀ u ∈ added, u ∉ signed := by
      rcases t.blockMgr.added_cases poolUuid prepared with hnil | hok
      · simp [added, hnil]
      · exact hnew _ hok
    change Ends devices _ _ _ _ ((if t'.blockMgr.availSpace + totalLength t'.cacheSegments >
        maxCacheSize then do
      beside (onMgr (BlockDevMgr.removeBlockdevs added wipe))
      disown added
      Stateful.lift (.err tooLarge)
    else do
      let t' ← Stateful.lift t'.extendCache
      beside (Stateful.modify fun _ => t')
      pure (added, true, false) : Signing CacheTier (List DevUuid × Bool × Bool))
        (t', signed ++ added))
    split_ifs with hmax
    · have hnone : new = [] := if_pos hmax
      have hremove : (beside (onMgr (BlockDevMgr.removeBlockdevs added wipe))
          (t', signed ++ added)).2 = .ok () := removeBlockdevs_ok hne hw hnodup
      rw [bind_of_ok hremove, disown, note_bind, hnone, append_nil,
        append_nil]
      change Ends _ _ _ _ _ ((_, (signed ++ added).filter (· ∉ added)), .err tooLarge)
      rw [filter_append_self hdisj]
      exact .failed _ _ (Or.inl rfl)
    · have hall : new = added := if_neg hmax
      rw [hall]
      rcases hext : t'.extendCache with t'' | e | _
      · refine .returned _ _ trivial fun u hu => ?_
        have huuids : t''.devices = t'.devices := Backstore.map_uuid_of_identity (extendCache_identity hext)
        have hsplit : t'.devices = t.devices ++ added := map_append
        rw [← hsplit, ← huuids] at hu
        exact hu
      · exact absurd hext (extendCache_ne_err _ _)
      · exact .stopped _

theorem add_changes {t t' : CacheTier} {poolUuid : PoolUuid}
    {prepared : StratisResult (List StratBlockDev)} {r : List DevUuid × Bool × Bool}
    (h : add poolUuid prepared wipe t = (t', .ok r)) :
    r.2 = (true, false) := by
  obtain ⟨t₁, uuids, -, h⟩ := bind_eq_ok.mp h
  rw [get_bind] at h
  split_ifs at h
  · obtain ⟨_, _, -, h⟩ := bind_eq_ok.mp h
    cases h
  · obtain ⟨_, t₂, -, h⟩ := bind_eq_ok.mp h
    cases h
    rfl

end CacheTier

namespace Backstore

theorem loadTable_snd (setTable resume : Bool) (load : Backstore → Backstore) (b : Backstore) :
    ((loadTable setTable resume load b).2 = .ok () → setTable ∧ resume) ∧
      ∀ {e}, (loadTable setTable resume load b).2 = .err e → ¬ (setTable ∧ resume) := by
  cases setTable <;> cases resume <;> simp [loadTable, dmCall]

theorem devices_setSubTable (io : AddCacheIo) (change : Bool) (load : CacheDev → CacheDev)
    (b : Backstore) : (setSubTable io change load b).1.devices = b.devices := by
  unfold setSubTable
  split_ifs
  · rcases loadTable_cases io.setTable io.resume
      (fun b : Backstore => { b with cache := b.cache.map load }) b with ⟨heq, -⟩ | ⟨heq, -⟩
    · rw [heq]
    · rw [heq]
      rfl
  · rfl

/-- The devices that are initialized for the cache that there is. -/
def addedToCache (b : Backstore) (poolUuid : PoolUuid)
    (prepared : StratisResult (List StratBlockDev)) : List DevUuid :=
  match b.cacheTier with
  | some t => t.initialized poolUuid prepared
  | none => []

theorem mem_addedToCache {b : Backstore} {poolUuid : PoolUuid}
    {prepared : StratisResult (List StratBlockDev)} {u : DevUuid}
    (h : u ∈ b.addedToCache poolUuid prepared) :
    ∃ new, prepared = .ok new ∧ u ∈ new.map (·.uuid) := by
  unfold addedToCache CacheTier.initialized at h
  split at h
  · simp only at h
    split_ifs at h
    · cases h
    · exact BlockDevMgr.mem_added h
  · cases h

theorem ends_addCachedevs {b : Backstore} {signed : List DevUuid} {io : AddCacheIo}
    {poolUuid : PoolUuid} (hne : ∀ t ∈ b.cacheTier, t.blockMgr.blockDevs ≠ [])
    (hw : io.wipe = .ok ())
    (hnew : ∀ new, io.prepared = .ok new → (new.map (·.uuid)).Nodup ∧
      ∀ u ∈ new.map (·.uuid), u ∉ signed) :
    let new := b.addedToCache poolUuid io.prepared
    Ends devices (b.devices ++ new) (signed ++ new) new (io.setTable ∧ io.resume)
      (addCachedevsSigning io poolUuid (b, signed)) := by
  intro new
  rw [addCachedevsSigning, beside_get_bind]
  cases hct : b.cacheTier with
  | none => exact .stopped _
  | some t =>
    have hinit : new = t.initialized poolUuid io.prepared := by simp only [new, addedToCache, hct]
    cases hc : b.cache with
    | none => exact .stopped _
    | some cache =>
      simp only
      rw [expect_some, lift_ok_bind, get_bind, modify_bind]
      have hmirror := mirrors_addSigning poolUuid io.prepared io.wipe t signed
      have hends : Ends _ _ _ _ _ (CacheTier.addSigning poolUuid io.prepared io.wipe (t, signed)) :=
        ends_addSigning (hne t hct) hw hnew
      rw [← hinit] at hends
      simp only
      generalize CacheTier.addSigning poolUuid io.prepared io.wipe (t, signed) = r at hends hmirror ⊢
      cases hends with
      | stopped x => exact .stopped _
      | failed t' e h => exact .failed _ _ (h.imp id fun hn => absurd trivial hn)
      | returned t' changed _ hd =>
        have hchanges : changed.2 = (true, false) := add_changes hmirror.symm
        rw [lift_ok_bind, hchanges]
        have hlisted : b.devices ++ new ⊆ devices { b with cacheTier := some t' } := by
          intro u hu
          simp only [devices, datadevs, cachedevs, hct, map_append, append_assoc,
            mem_append] at hu ⊢
          exact hu.imp id fun hu => hd (mem_append.mpr hu)
        refine Ends.bind (ends_beside ?_ (fun _ => (loadTable_snd _ _ _ _).1) fun _ =>
          (loadTable_snd _ _ _ _).2) id fun s _ _ hc hs => .returned s _ hc hs
        rw [devices_setSubTable]
        exact hlisted

end Backstore

end Stratisd.Backstore

namespace Stratisd.Pool

open Run Run.Outcome Run.Stateful Engine Extent Metadata Backstore Thinpool List

def PoolSave.devices (save : PoolSave) : List DevUuid :=
  (save.backstore.dataTier.blockdev.devs ++ Liminal.recordedCache save.backstore).map (·.uuid)

theorem PoolSave.mem_devices_iff {save : PoolSave} {f : Liminal.FoundDev} :
    f.bda.devUuid ∈ save.devices ↔ (Liminal.findRecord save.backstore f).isOk := by
  have hmem : ∀ {devs : List BaseBlockDevSave}, f.bda.devUuid ∈ devs.map (·.uuid) ↔
      (Liminal.recordedMap devs f.bda.devUuid).isSome := KeyedList.isSome_lookup.symm
  rw [PoolSave.devices, map_append, mem_append, hmem, hmem, Liminal.findRecord]
  cases Liminal.recordedMap save.backstore.dataTier.blockdev.devs f.bda.devUuid with
  | some r => simp
  | none =>
    cases Liminal.recordedMap (Liminal.recordedCache save.backstore) f.bda.devUuid <;> simp

namespace StratPool

def devices (p : StratPool) : List DevUuid := p.backstore.devices

theorem devices_record (p : StratPool) (name : String) : (p.record name).devices = p.devices := by
  simp only [PoolSave.devices, record, recordOf, Backstore.record, DataTier.record,
    BlockDevMgr.record, Liminal.recordedCache, devices, Backstore.devices, Backstore.datadevs,
    Backstore.cachedevs, map_append, map_map]
  cases p.backstore.cacheTier <;>
    simp [CacheTier.record, BlockDevMgr.record, StratBlockDev.record, Function.comp_def]

variable {overflowChecks : Bool} {p : StratPool} {signed listed new : List DevUuid} {c : Prop}

theorem ends_onBackstore {α : Type} {q : Signing Backstore α} {signed' : List DevUuid}
    (h : Ends Backstore.devices listed signed' new c (q (p.backstore, signed))) :
    Ends devices listed signed' new c (onBackstoreSigning q (p, signed)) := by
  unfold onBackstoreSigning within
  simp only
  generalize q (p.backstore, signed) = r at h
  cases h with
  | stopped x => exact .stopped _
  | failed b e h => exact .failed _ e h
  | returned b a hc hd => exact .returned _ a hc hd

theorem ends_whileSuspended {α : Type} {q : Signing StratPool α} {suspend : ThinPool.SuspendIo}
    (resumeMdv resumePool : Bool) (hs : ThinPool.suspend suspend = .ok ()) {signed' : List DevUuid}
    (h : Ends devices listed signed' new c (q (p, signed))) :
    Ends devices listed signed' new (c ∧ resumeMdv ∧ resumePool)
      (whileSuspendedSigning suspend resumeMdv resumePool q (p, signed)) := by
  unfold whileSuspendedSigning
  rw [hs]
  simp only
  generalize q (p, signed) = r at h
  cases h with
  | stopped x => exact .stopped _
  | failed p' e h =>
    have hnot : new = [] ∨ ¬ (c ∧ resumeMdv ∧ resumePool) := h.imp id fun hn hc => hn hc.1
    cases resumeMdv with
    | false => exact .failed p' _ hnot
    | true => cases resumePool <;> exact .failed p' _ hnot
  | returned p' a hc hd =>
    cases resumeMdv with
    | false => exact .failed p' _ (Or.inr (by simp))
    | true =>
      cases resumePool with
      | false => exact .failed p' _ (Or.inr (by simp))
      | true => exact .returned p' a ⟨hc, rfl, rfl⟩ hd

/-- Device-mapper loads all the tables of a thin pool that moves. -/
def MoveIo.Succeeds (io : ThinPool.MoveIo) : Prop :=
  (io.metaTable.load ∧ io.metaTable.finish) ∧ (io.dataTable.load ∧ io.dataTable.finish) ∧ io.mdvTable

/-- The thin pool is on the device of the backstore, or can be put there. -/
def Movable (p : StratPool) (io : ThinPool.MoveIo) : Prop :=
  ∀ d ∈ p.backstore.device, d = p.thinPool.backstoreDevice ∨ MoveIo.Succeeds io

theorem setDevice_spec (io : ThinPool.MoveIo) (d : Device) (s : Stacked) :
    (ThinPool.setDevice io d s).1.backstore = s.backstore ∧
      ((ThinPool.setDevice io d s).2.isOk ↔
        d = s.thinPool.backstoreDevice ∨ MoveIo.Succeeds io) := by
  unfold ThinPool.setDevice MoveIo.Succeeds
  rw [get_bind]
  split_ifs with heq
  · simp [heq]
  · obtain ⟨⟨m1, m2⟩, ⟨d1, d2⟩, mdv⟩ := io
    have hfail : ∀ {r : Stacked × StratisResult Bool} {q : Prop}, r.1.backstore = s.backstore →
        r.2 = .err .dm → ¬ q →
        r.1.backstore = s.backstore ∧ (r.2.isOk ↔ d = s.thinPool.backstoreDevice ∨ q) :=
      fun hb hr hq => ⟨hb, by simp [hr, heq, hq]⟩
    cases m1 with
    | false => exact hfail rfl rfl (by simp)
    | true =>
      cases m2 with
      | false => exact hfail rfl rfl (by simp)
      | true =>
        cases d1 with
        | false => exact hfail rfl rfl (by simp)
        | true =>
          cases d2 with
          | false => exact hfail rfl rfl (by simp)
          | true =>
            cases mdv with
            | false => exact hfail rfl rfl (by simp)
            | true => exact ⟨rfl, by simp; rfl⟩

theorem ends_setDevice {io : ThinPool.MoveIo} {d : Device} (hd : listed ⊆ p.devices)
    (hc : c ↔ d = p.thinPool.backstoreDevice ∨ MoveIo.Succeeds io) :
    Ends devices listed signed new c
      (beside (onStacked (ThinPool.setDevice io d)) (p, signed)) := by
  have hspec := setDevice_spec io d p.toStacked
  rw [← hc] at hspec
  refine ends_beside ?_ (fun moved hok => hspec.2.mp ?_) fun e herr hall => ?_
  · intro u hu
    change u ∈ Backstore.devices (ThinPool.setDevice io d p.toStacked).1.backstore
    rw [hspec.1]
    exact hd hu
  · exact isOk_iff.mpr ⟨moved, hok⟩
  · obtain ⟨moved, hok⟩ := isOk_iff.mp (hspec.2.mpr hall)
    cases hok.symm.trans herr

theorem ends_addCache {io : AddIo} {poolUuid : PoolUuid}
    (hne : ∀ t ∈ p.backstore.cacheTier, t.blockMgr.blockDevs ≠ []) (hw : io.cache.wipe = .ok ())
    (hnew : ∀ new, io.cache.prepared = .ok new → (new.map (·.uuid)).Nodup ∧
      ∀ u ∈ new.map (·.uuid), u ∉ signed) :
    let new := p.backstore.addedToCache poolUuid io.cache.prepared
    Ends devices (p.devices ++ new) (signed ++ new) new
      ((io.cache.setTable ∧ io.cache.resume) ∧ p.Movable io.move)
      (addCacheSigning io poolUuid (p, signed)) := by
  intro new
  refine (ends_onBackstore (Backstore.ends_addCachedevs hne hw hnew)).bind And.left
    fun p' uuids hp' hc hd => ?_
  -- the device of the backstore and the thin pool are as they were
  have hcode := (mirrors_onBackstoreSigning (Backstore.mirrors_addCachedevsSigning _ _)).eq hp'
  obtain ⟨s, hs, rfl⟩ := within_eq_ok.mp hcode
  obtain ⟨b, hb, rfl⟩ := within_eq_ok.mp hs
  obtain ⟨t, cache, t', changes, load, -, hcache, -, hload, rfl⟩ := Backstore.addCachedevs_eq_ok hb
  have hdevice : p.backstore.device = some cache.device := by simp [Backstore.device, hcache]
  rw [beside_get_bind]
  simp only [Backstore.device, (hload cache).1]
  rw [expect_some, lift_ok_bind]
  have hmovable : p.Movable io.move ↔
      cache.device = p.thinPool.backstoreDevice ∨ MoveIo.Succeeds io.move := by
    simp [Movable, hdevice]
  exact (ends_setDevice hd hmovable).bind And.right fun p'' _ _ hm hd =>
    .returned p'' _ ⟨hc, hm⟩ hd

/-- The thin pool and the backstore with more devices in the data tier. -/
def withData (p : StratPool) (devs : List StratBlockDev) : Stacked :=
  ⟨p.thinPool, { p.backstore with dataTier := { p.backstore.dataTier with blockMgr :=
    { p.backstore.dataTier.blockMgr with blockDevs := p.backstore.datadevs ++ devs } } }⟩

theorem stable_devices (uuids : List DevUuid) :
    Backstore.Stable fun b => Backstore.devices b = uuids := by
  refine Backstore.stable_of_alloc (fun b n r h ht => ?_) fun _ _ _ _ h => h
  have huuids : r.1.blockMgr.blockDevs.map (·.uuid) = b.dataTier.blockMgr.blockDevs.map (·.uuid) :=
    Backstore.map_uuid_of_identity (DataTier.alloc_identity ht)
  rw [← h, Backstore.devices, Backstore.devices, map_append, map_append]
  exact congrArg (· ++ b.cachedevs.map (·.uuid)) huuids

theorem stable_check {I : Backstore → Prop} (hI : Backstore.Stable I) (overflowChecks : Bool)
    (env : ℕ → ThinPool.CheckIo) :
    Keeps (fun s : Stacked => I s.backstore) (ThinPool.check overflowChecks env) :=
  ThinPool.keeps_check (fun _ _ _ _ _ h => h) fun _ =>
    ⟨fun _ => ThinPool.keeps_extendThinSubDevice hI _ _ _ _ _,
      fun _ => ThinPool.keeps_extendThinSubDevice hI _ _ _ _ _⟩

theorem ends_addData (io : AddIo) (poolUuid : PoolUuid) :
    let devs := p.backstore.dataTier.blockMgr.added poolUuid io.datadevs
    let new := devs.map (·.uuid)
    Ends devices (p.devices ++ new) (signed ++ new) new
      (ThinPool.check overflowChecks io.check (p.withData devs)).2.isOk
      (addDataSigning overflowChecks io poolUuid (p, signed)) := by
  intro devs new
  refine (ends_onBackstore (Backstore.ends_addDatadevs _ _ _ _)).bind (fun _ => trivial)
    fun p' uuids hp' _ hd => ?_
  have hcode := (mirrors_onBackstoreSigning (Backstore.mirrors_addDatadevsSigning _ _)).eq hp'
  obtain ⟨s, hs, rfl⟩ := within_eq_ok.mp hcode
  obtain ⟨b, hb, rfl⟩ := within_eq_ok.mp hs
  obtain rfl : b = (p.withData devs).backstore := by
    have hfst : b = { p.backstore with dataTier := { p.backstore.dataTier with blockMgr :=
        (BlockDevMgr.add poolUuid io.datadevs p.backstore.dataTier.blockMgr).1 } } :=
      congrArg Prod.fst hb.symm
    have hsnd : (BlockDevMgr.add poolUuid io.datadevs p.backstore.dataTier.blockMgr).2 = .ok uuids :=
      congrArg Prod.snd hb
    rcases p.backstore.dataTier.blockMgr.add_added poolUuid io.datadevs with ⟨e, heq, -⟩ | heq | heq
    · rw [heq] at hsnd
      cases hsnd
    · rw [heq] at hsnd
      cases hsnd
    · rw [hfst, heq]
      rfl
  have hdevices := stable_check (stable_devices _) overflowChecks io.check (p.withData devs) rfl
  refine (ends_beside (fun u hu => ?_) (fun r hr => ?_) fun e he hok => ?_).bind id
    fun p'' _ _ hc hd => .returned p'' _ hc hd
  · change u ∈ Backstore.devices (ThinPool.check overflowChecks io.check (p.withData devs)).1.backstore
    rw [hdevices]
    exact hd hu
  · exact isOk_iff.mpr ⟨r, hr⟩
  · obtain ⟨r, hr⟩ := isOk_iff.mp hok
    cases hr.symm.trans he

/-! ### Writing the metadata -/

/-- All devices with the signature of the pool are listed in the metadata that was written last. -/
def Recorded (p : StratPool) (signed : List DevUuid) : Prop :=
  ∃ save, p.saved = some save ∧ ∀ u ∈ signed, u ∈ save.devices

def Unwritten {α : Type} (q : M α) : Prop := ∀ saved, Stateful.Keeps (fun p => p.saved = saved) q

theorem unwritten_onStacked {α : Type} (q : ThinPool.M α) : Unwritten (onStacked q) :=
  fun _ _ h => h

theorem unwritten_whileSuspended {α : Type} (suspend : ThinPool.SuspendIo)
    (resumeMdv resumePool : Bool) {q : M α} (h : Unwritten q) :
    Unwritten (whileSuspended suspend resumeMdv resumePool q) :=
  fun saved => keeps_whileSuspended suspend resumeMdv resumePool (h saved)

theorem recorded_unwritten_iff {p' : StratPool} {old : PoolSave} (hsaved : p'.saved = some old)
    (hold : ∀ u, u ∈ old.devices ↔ u ∈ p.devices) (hsigned : ∀ u ∈ signed, u ∈ p.devices)
    (hnew : ∀ u ∈ new, u ∉ p.devices) : Recorded p' (signed ++ new) ↔ new = [] := by
  constructor
  · rintro ⟨save, hsave, hall⟩
    obtain rfl := Option.some.inj (hsaved.symm.trans hsave)
    refine eq_nil_iff_forall_not_mem.mpr fun u hu => hnew u hu ?_
    exact (hold u).mp (hall u (mem_append_right _ hu))
  · rintro rfl
    refine ⟨old, hsaved, fun u hu => (hold u).mpr (hsigned u ?_)⟩
    rwa [append_nil] at hu

/-- What has been initialized is listed once the metadata has been written, and only then. -/
theorem recorded_iff {α : Type} {d : Signing StratPool α} {q : M α} {save : StratisResult Unit}
    {name : String} {old : PoolSave} (hsaved : p.saved = some old)
    (hold : ∀ u, u ∈ old.devices ↔ u ∈ p.devices) (hsigned : ∀ u ∈ signed, u ∈ p.devices)
    (hnew : ∀ u ∈ new, u ∉ p.devices)
    (hends : Ends devices (p.devices ++ new) (signed ++ new) new c (d (p, signed)))
    (hq : Mirrors d q) (hu : Unwritten q) :
    let r := (do
      let uuids ← d
      beside (writeMetadata save name)
      pure uuids : Signing StratPool α) (p, signed)
    r.2 ≠ .panic → (Recorded r.1.1 r.1.2 ↔ new = [] ∨ c ∧ save = .ok ()) := by
  intro r hr
  have hkept : (d (p, signed)).1.1.saved = some old := by
    have := hu (some old) p hsaved
    rwa [← hq p signed] at this
  have hrun : r = _ := bind_apply _ _ _
  generalize d (p, signed) = x at hends hkept hrun
  cases hends with
  | stopped x => exact absurd (congrArg Prod.snd hrun) hr
  | failed p' e h =>
    rw [hrun, recorded_unwritten_iff hkept hold hsigned hnew]
    tauto
  | returned p' a hc hd =>
    rcases save with _ | e | _
    · refine iff_of_true ⟨p'.record name, by rw [hrun]; rfl, fun u hu => ?_⟩ (Or.inr ⟨hc, rfl⟩)
      rw [devices_record]
      rw [hrun] at hu
      rcases mem_append.mp hu with hu | hu
      · exact hd (mem_append_left _ (hsigned u hu))
      · exact hd (mem_append_right _ hu)
    · rw [hrun]
      refine (recorded_unwritten_iff hkept hold hsigned hnew).trans ?_
      simp
    · exact absurd (congrArg Prod.snd hrun) hr

/-! ### Calls that add devices -/

inductive DeviceRequest where
  | initCache (io : PoolCacheIo) (name : String) (paths : List String)
  | addBlockdevs (io : AddIo) (poolUuid : PoolUuid) (name : String) (paths : List String)
      (tier : BlockDevTier)

namespace DeviceRequest

def perform (overflowChecks : Bool) : DeviceRequest → Signing StratPool (List DevUuid)
  | .initCache io name paths => initCacheSigning io name paths
  | .addBlockdevs io poolUuid name paths tier =>
    addBlockdevsSigning overflowChecks io poolUuid name paths tier

def call (overflowChecks : Bool) : DeviceRequest → M (List DevUuid)
  | .initCache io name paths => StratPool.initCache io name paths
  | .addBlockdevs io poolUuid name paths tier =>
    StratPool.addBlockdevs overflowChecks io poolUuid name paths tier

theorem mirrors_perform (r : DeviceRequest) :
    Mirrors (r.perform overflowChecks) (r.call overflowChecks) := by
  cases r with
  | initCache io name paths => exact mirrors_initCacheSigning io name paths
  | addBlockdevs io poolUuid name paths tier =>
    exact mirrors_addBlockdevsSigning overflowChecks io poolUuid name paths tier

/-- What comes of preparing devices for the pool. -/
def prepared : DeviceRequest → StratisResult (List StratBlockDev)
  | .initCache io _ _ => io.cache.prepared
  | .addBlockdevs io _ _ _ .cache => io.cache.prepared
  | .addBlockdevs io _ _ _ .data => io.datadevs

/-- What comes of wiping devices after a failure. -/
def cleanup : DeviceRequest → StratisResult Unit
  | .initCache io _ _ => io.cache.wipe
  | .addBlockdevs io _ _ _ .cache => io.cache.wipe
  | .addBlockdevs _ _ _ _ .data => .ok ()

/-- The devices that the call initializes and does not wipe again. -/
def initialized (p : StratPool) : DeviceRequest → List DevUuid
  | .initCache io _ paths =>
    if validatePaths paths = .ok () ∧ io.encrypted = false ∧ p.hasCache = false ∧ paths ≠ [] ∧
      ThinPool.suspend io.suspend = .ok () then io.cache.initialized paths else []
  | .addBlockdevs io poolUuid _ paths .cache =>
    if validatePaths paths = .ok () ∧ paths ≠ [] ∧ ThinPool.suspend io.suspend = .ok () then
      p.backstore.addedToCache poolUuid io.cache.prepared else []
  | .addBlockdevs io poolUuid _ paths .data =>
    if validatePaths paths = .ok () ∧ paths ≠ [] then
      (p.backstore.dataTier.blockMgr.added poolUuid io.datadevs).map (·.uuid) else []

/-- Every step after the devices have been initialized succeeds. -/
def Completes (overflowChecks : Bool) (p : StratPool) : DeviceRequest → Prop
  | .initCache io _ _ =>
    (Backstore.CacheIo.Succeeds io.cache.cache ∧ io.resumeMdv ∧ io.resumePool) ∧ io.save = .ok ()
  | .addBlockdevs io _ _ _ .cache =>
    (((io.cache.setTable ∧ io.cache.resume) ∧ p.Movable io.move) ∧ io.resumeMdv ∧ io.resumePool) ∧
      io.save = .ok ()
  | .addBlockdevs io poolUuid _ _ .data =>
    (ThinPool.check overflowChecks io.check
      (p.withData (p.backstore.dataTier.blockMgr.added poolUuid io.datadevs))).2.isOk ∧
      io.save = .ok ()

end DeviceRequest

section calls

variable {old : PoolSave} {name : String} {paths : List String}

theorem recorded_iff_of_eq {x : StratPool × List DevUuid} {q : Prop} (hsame : Recorded p signed)
    (hx : x = (p, signed)) (hnone : new = []) : Recorded x.1 x.2 ↔ new = [] ∨ q := by
  rw [hx]
  exact iff_of_true hsame (Or.inl hnone)

/-- The same for code that runs while the thin pool is suspended, and only if it can be. -/
theorem recorded_whileSuspended_iff {α : Type} {d : Signing StratPool α} {q : M α}
    {suspend : ThinPool.SuspendIo} {resumeMdv resumePool : Bool} {save : StratisResult Unit}
    (hsaved : p.saved = some old) (hold : ∀ u, u ∈ old.devices ↔ u ∈ p.devices)
    (hsigned : ∀ u ∈ signed, u ∈ p.devices) (hnew : ∀ u ∈ new, u ∉ p.devices)
    (hends : Ends devices (p.devices ++ new) (signed ++ new) new c (d (p, signed)))
    (hq : Mirrors d q) (hu : Unwritten q) :
    let r := (do
      let uuids ← whileSuspendedSigning suspend resumeMdv resumePool d
      beside (writeMetadata save name)
      pure uuids : Signing StratPool α) (p, signed)
    r.2 ≠ .panic → (Recorded r.1.1 r.1.2 ↔
      (if ThinPool.suspend suspend = .ok () then new else []) = [] ∨
        (c ∧ resumeMdv ∧ resumePool) ∧ save = .ok ()) := by
  intro r hr
  rcases hs : ThinPool.suspend suspend with _ | e | _
  · rw [if_pos rfl]
    exact recorded_iff hsaved hold hsigned hnew (ends_whileSuspended resumeMdv resumePool hs hends)
      (mirrors_whileSuspendedSigning _ _ _ hq) (unwritten_whileSuspended _ _ _ hu) hr
  · have hrun : r = ((p, signed), .err e) := by
      have hd : whileSuspendedSigning suspend resumeMdv resumePool d (p, signed) =
          ((p, signed), .err e) := by rw [whileSuspendedSigning, hs]
      exact (bind_of_err (congrArg Prod.snd hd) _).trans (by rw [hd])
    rw [hrun]
    exact iff_of_true ⟨old, hsaved, fun u hu => (hold u).mpr (hsigned u hu)⟩ (Or.inl (if_neg (by simp)))
  · have hd : whileSuspendedSigning suspend resumeMdv resumePool d (p, signed) =
        ((p, signed), .panic) := by rw [whileSuspendedSigning, hs]
    exact absurd (congrArg Prod.snd (bind_of_panic (congrArg Prod.snd hd) _)) hr

theorem recorded_initCache_iff (hsaved : p.saved = some old)
    (hold : ∀ u, u ∈ old.devices ↔ u ∈ p.devices) (hsigned : ∀ u ∈ signed, u ∈ p.devices)
    {io : PoolCacheIo} (hclean : io.cache.wipe = .ok ())
    (hnew : ∀ new, io.cache.prepared = .ok new → ∀ u ∈ new.map (·.uuid), u ∉ p.devices) :
    let r := DeviceRequest.initCache io name paths
    let x := initCacheSigning io name paths (p, signed)
    x.2 ≠ .panic →
      (Recorded x.1.1 x.1.2 ↔ r.initialized p = [] ∨ r.Completes overflowChecks p) := by
  intro r x hx
  have hsame : Recorded p signed := ⟨old, hsaved, fun u hu => (hold u).mpr (hsigned u hu)⟩
  have hrun : x = initCacheSigning io name paths (p, signed) := rfl
  rw [initCacheSigning] at hrun
  rcases hv : validatePaths paths with _ | e | _
  · rw [hv, lift_ok_bind, beside_get_bind] at hrun
    simp only at hrun
    split_ifs at hrun with henc hcache hpaths
    · exact recorded_iff_of_eq hsame (congrArg Prod.fst hrun) (if_neg (by simp [henc]))
    · exact recorded_iff_of_eq hsame (congrArg Prod.fst hrun) (if_neg (by simp [hcache]))
    · exact recorded_iff_of_eq hsame (congrArg Prod.fst hrun) (if_neg (by simp [hpaths]))
    · have hends : Ends devices _ _ _ _ (onBackstoreSigning
          (Backstore.initCacheSigning io.cache paths) (p, signed)) :=
        ends_onBackstore (Backstore.ends_initCache paths hclean fun new h u hu hm =>
          hnew new h u hu (hsigned u hm))
      have hinit : r.initialized p = if ThinPool.suspend io.suspend = .ok () then
          io.cache.initialized paths else [] := by
        simp [r, DeviceRequest.initialized, hv, henc, hcache, hpaths]
      rw [hinit, hrun]
      refine recorded_whileSuspended_iff hsaved hold hsigned (fun u hu => ?_) hends
        (mirrors_onBackstoreSigning (Backstore.mirrors_initCacheSigning _ _))
        (unwritten_onStacked _) (hrun ▸ hx)
      obtain ⟨new, hprep, hu⟩ := Backstore.InitCacheIo.mem_initialized hu
      exact hnew new hprep u hu
  · rw [hv] at hrun
    exact recorded_iff_of_eq hsame (congrArg Prod.fst hrun) (if_neg (by simp [hv]))
  · rw [hv] at hrun
    exact absurd (congrArg Prod.snd hrun) hx

theorem recorded_addBlockdevs_iff (hsaved : p.saved = some old)
    (hold : ∀ u, u ∈ old.devices ↔ u ∈ p.devices) (hsigned : ∀ u ∈ signed, u ∈ p.devices)
    (hcache : ∀ t ∈ p.backstore.cacheTier, t.blockMgr.blockDevs ≠ []) {io : AddIo}
    {poolUuid : PoolUuid} {tier : BlockDevTier} :
    let r := DeviceRequest.addBlockdevs io poolUuid name paths tier
    let x := addBlockdevsSigning overflowChecks io poolUuid name paths tier (p, signed)
    r.cleanup = .ok () → (∀ new, r.prepared = .ok new → (new.map (·.uuid)).Nodup ∧
      ∀ u ∈ new.map (·.uuid), u ∉ p.devices) → x.2 ≠ .panic →
      (Recorded x.1.1 x.1.2 ↔ r.initialized p = [] ∨ r.Completes overflowChecks p) := by
  intro r x hclean hnew hx
  have hsame : Recorded p signed := ⟨old, hsaved, fun u hu => (hold u).mpr (hsigned u hu)⟩
  have hrun : x = addBlockdevsSigning overflowChecks io poolUuid name paths tier (p, signed) := rfl
  rw [addBlockdevsSigning] at hrun
  rcases hv : validatePaths paths with _ | e | _
  · rw [hv, lift_ok_bind, beside_get_bind] at hrun
    cases tier with
    | cache =>
      simp only [true_and] at hrun
      split_ifs at hrun with hhas hpaths
      · exact recorded_iff_of_eq hsame (congrArg Prod.fst hrun) (if_neg (by simp [hpaths]))
      · have hfresh : ∀ new, io.cache.prepared = .ok new → (new.map (·.uuid)).Nodup ∧
            ∀ u ∈ new.map (·.uuid), u ∉ signed := fun new hprep =>
          ⟨(hnew new hprep).1, fun u hu hm => (hnew new hprep).2 u hu (hsigned u hm)⟩
        have hinit : r.initialized p = if ThinPool.suspend io.suspend = .ok () then
            p.backstore.addedToCache poolUuid io.cache.prepared else [] := by
          simp [r, DeviceRequest.initialized, hv, hpaths]
        rw [hinit, hrun]
        refine recorded_whileSuspended_iff hsaved hold hsigned (fun u hu => ?_)
          (ends_addCache hcache hclean hfresh) (mirrors_addCacheSigning _ _) ?_ (hrun ▸ hx)
        · obtain ⟨new, hprep, hu⟩ := Backstore.mem_addedToCache hu
          exact (hnew new hprep).2 u hu
        · exact fun saved => (unwritten_onStacked _ saved).bind fun _ => keeps_read fun _ =>
            (keeps_lift _).bind fun _ => (unwritten_onStacked _ saved).bind fun _ =>
              keeps_pure _
      · have hnone : p.backstore.addedToCache poolUuid io.cache.prepared = [] := by
          have : p.backstore.cacheTier = none := by simpa [hasCache, Backstore.hasCache] using hhas
          rw [Backstore.addedToCache, this]
        refine recorded_iff_of_eq hsame (congrArg Prod.fst hrun) ?_
        simp [r, DeviceRequest.initialized, hnone]
    | data =>
      simp only [reduceCtorEq, false_and, if_false] at hrun
      split_ifs at hrun with hpaths
      · exact recorded_iff_of_eq hsame (congrArg Prod.fst hrun) (if_neg (by simp [hpaths]))
      · have hinit : r.initialized p =
            (p.backstore.dataTier.blockMgr.added poolUuid io.datadevs).map (·.uuid) :=
          if_pos ⟨hv, hpaths⟩
        rw [hinit, hrun]
        refine recorded_iff hsaved hold hsigned (fun u hu => ?_) (ends_addData io poolUuid)
          (mirrors_addDataSigning _ _ _) ?_ (hrun ▸ hx)
        · obtain ⟨new, hprep, hu⟩ := BlockDevMgr.mem_added hu
          exact (hnew new hprep).2 u hu
        · exact fun saved => (unwritten_onStacked _ saved).bind fun _ =>
            (unwritten_onStacked _ saved).bind fun _ => keeps_pure _
  · rw [hv] at hrun
    refine recorded_iff_of_eq hsame (congrArg Prod.fst hrun) ?_
    cases tier <;> exact if_neg (by simp [hv])
  · rw [hv] at hrun
    exact absurd (congrArg Prod.snd hrun) hx

end calls

/-- Every device with the signature of the pool is listed after a call that adds devices, if and
only if the call has initialized none, or every step after that succeeds. -/
theorem devices_recorded_iff {old : PoolSave} (hsaved : p.saved = some old)
    (hold : ∀ u, u ∈ old.devices ↔ u ∈ p.devices) (hsigned : ∀ u ∈ signed, u ∈ p.devices)
    (hcache : ∀ t ∈ p.backstore.cacheTier, t.blockMgr.blockDevs ≠ []) (r : DeviceRequest)
    (hclean : r.cleanup = .ok ())
    (hnew : ∀ new, r.prepared = .ok new → (new.map (·.uuid)).Nodup ∧
      ∀ u ∈ new.map (·.uuid), u ∉ p.devices) :
    let x := r.perform overflowChecks (p, signed)
    x.2 ≠ .panic →
      (Recorded x.1.1 x.1.2 ↔ r.initialized p = [] ∨ r.Completes overflowChecks p) := by
  intro x hx
  cases r with
  | initCache io name paths =>
    exact recorded_initCache_iff hsaved hold hsigned hclean (fun new h => (hnew new h).2) hx
  | addBlockdevs io poolUuid name paths tier =>
    exact recorded_addBlockdevs_iff hsaved hold hsigned hcache hclean hnew hx

/-- Adding devices to the data tier, with the given result of asking for the state of the thin
pool. -/
def addWithStatus (devs : List StratBlockDev) (status : StratisResult ThinPoolStatus) : AddIo where
  suspend := ⟨true, true, true⟩
  cache := ⟨.ok [], .ok (), true, true⟩
  move := ⟨⟨true, true⟩, ⟨true, true⟩, true⟩
  resumeMdv := true
  resumePool := true
  datadevs := .ok devs
  check := fun _ => { smoothCheck with status }
  save := .ok ()

/-- Adding a device to a new pool. -/
theorem devices_recorded_iff_added : ∃ (d e : StratBlockDev) (p : StratPool),
    let status := smoothCheck.status
    let x := (DeviceRequest.addBlockdevs (addWithStatus [e] status) ⟨0⟩ "pool" ["/dev/sdc"]
      .data).perform true (p, p.devices)
    initializePool true (smoothInit [d]) "pool" = .ok p ∧ e.uuid ∈ x.1.2 ∧
      Recorded x.1.1 x.1.2 := by
  let bda := BDA.new ⟨⟨0⟩, ⟨1⟩⟩ MDADataSize.default (2 ^ 22) 0
  let newBda := BDA.new ⟨⟨0⟩, ⟨2⟩⟩ MDADataSize.default (2 ^ 21) 0
  let r := fun e : StratBlockDev => DeviceRequest.addBlockdevs
    (addWithStatus [e] smoothCheck.status) ⟨0⟩ "pool" ["/dev/sdc"] .data
  obtain ⟨d, -, e, -, p, hp, save, hsave, added, hadded, hall⟩ :
      ∃ d, StratBlockDev.new ⟨8, 16⟩ bda [] none none = .ok d ∧
      ∃ e, StratBlockDev.new ⟨8, 32⟩ newBda [] none none = .ok e ∧
      ∃ p, initializePool true (smoothInit [d]) "pool" = .ok p ∧ ∃ save ∈ p.saved,
      ∃ added, ((r e).perform true (p, p.devices)).2 = .ok added ∧ save.devices = p.devices ∧
      p.hasCache = false ∧ e.uuid ∉ p.devices ∧ e.uuid ∈ ((r e).perform true (p, p.devices)).1.2 ∧
      (ThinPool.check true (addWithStatus [e] smoothCheck.status).check (p.withData
        (p.backstore.dataTier.blockMgr.added ⟨0⟩ (.ok [e])))).2.isOk = true := by
    decide +kernel
  obtain ⟨hdevices, hcache, hnot, hmem, hcheck⟩ := hall
  have hnone : p.backstore.cacheTier = none := by
    simpa [hasCache, Backstore.hasCache] using hcache
  refine ⟨d, e, p, hp, hmem, (devices_recorded_iff hsave
    (by simp [hdevices]) (fun _ h => h) (by simp [hnone]) (r e) rfl ?_ ?_).mpr (Or.inr ⟨hcheck, rfl⟩)⟩
  · intro new hnew
    obtain rfl := Outcome.ok.inj hnew
    simpa using hnot
  · exact fun hpanic => by cases hadded.symm.trans hpanic

/-- If the thin pool can not be asked for its state, an added device stays without a record, and
the pool can not be set up with it. -/
theorem device_unrecorded_after_failed_check : ∃ (d e : StratBlockDev) (p p' : StratPool)
    (signed : List DevUuid),
    let r := DeviceRequest.addBlockdevs (addWithStatus [e] (.err .dm)) ⟨0⟩ "pool" ["/dev/sdc"] .data
    initializePool true (smoothInit [d]) "pool" = .ok p ∧
    r.perform true (p, p.devices) = ((p', signed), .err .dm) ∧ e.uuid ∈ signed ∧
    ∃ save, p'.saved = some save ∧ ∀ f : Liminal.FoundDev, f.bda.devUuid = e.uuid →
      (Liminal.findRecord save.backstore f).isOk = false := by
  let bda := BDA.new ⟨⟨0⟩, ⟨1⟩⟩ MDADataSize.default (2 ^ 22) 0
  let newBda := BDA.new ⟨⟨0⟩, ⟨2⟩⟩ MDADataSize.default (2 ^ 21) 0
  let r := fun e : StratBlockDev => DeviceRequest.addBlockdevs
    (addWithStatus [e] (.err .dm)) ⟨0⟩ "pool" ["/dev/sdc"] .data
  obtain ⟨d, -, e, -, p, hp, save, hsave, hall⟩ :
      ∃ d, StratBlockDev.new ⟨8, 16⟩ bda [] none none = .ok d ∧
      ∃ e, StratBlockDev.new ⟨8, 32⟩ newBda [] none none = .ok e ∧
      ∃ p, initializePool true (smoothInit [d]) "pool" = .ok p ∧
      ∃ save ∈ ((r e).perform true (p, p.devices)).1.1.saved,
      ((r e).perform true (p, p.devices)).2 = .err .dm ∧
      e.uuid ∈ ((r e).perform true (p, p.devices)).1.2 ∧ e.uuid ∉ save.devices := by
    decide +kernel
  refine ⟨d, e, p, _, _, hp, Prod.ext rfl hall.1, hall.2.1, save, hsave,
    fun f hf => ?_⟩
  rw [Bool.eq_false_iff]
  intro hfound
  exact hall.2.2 (hf ▸ PoolSave.mem_devices_iff.mpr hfound)

end StratPool

end Stratisd.Pool
