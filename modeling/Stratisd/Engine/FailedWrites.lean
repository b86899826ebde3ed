import Stratisd.Engine.Bookkeeping

/-! What is in memory after the metadata could not be written. A pool that is to get another name
is put back under the old one. User info of a device is set before the metadata is written and is
not taken back, so that the same request afterwards finds nothing to change, and writes nothing. -/

namespace Stratisd.Backstore

open Engine

variable {α : Type} {f : StratBlockDev → StratBlockDev × α}

/-! ### Single devices -/

theorem BlockDevMgr.changeFirst_cases (hf : ∀ d, (f d).1.uuid = d.uuid) (uuid : DevUuid)
    (bds : List StratBlockDev) :
    (bds.find? (fun b => b.uuid = uuid) = none ∧ changeFirst uuid f bds = none) ∨
      ∃ d bds', bds.find? (fun b => b.uuid = uuid) = some d ∧
        changeFirst uuid f bds = some (bds', (f d).2) ∧
        bds'.find? (fun b => b.uuid = uuid) = some (f d).1 := by
  induction bds with
  | nil => exact Or.inl ⟨rfl, rfl⟩
  | cons b bds ih =>
    by_cases hb : b.uuid = uuid
    · right
      refine ⟨b, (f b).1 :: bds, ?_, ?_, ?_⟩
      · exact List.find?_cons_of_pos (by simpa using hb)
      · rw [changeFirst, if_pos hb]
      · exact List.find?_cons_of_pos (by simpa using (hf b).trans hb)
    · have hskip : ∀ l : List StratBlockDev, (b :: l).find? (fun b => b.uuid = uuid) =
          l.find? fun b => b.uuid = uuid := fun l =>
        List.find?_cons_of_neg (by simpa using hb)
      rw [changeFirst, if_neg hb, hskip]
      obtain ⟨hnone, hchange⟩ | ⟨d, bds', hfind, hchange, hfound⟩ := ih
      · exact Or.inl ⟨hnone, by rw [hchange, Option.map_none]⟩
      · exact Or.inr ⟨d, b :: bds', hfind, by rw [hchange, Option.map_some], (hskip _).trans hfound⟩

theorem BlockDevMgr.getMutBlockdevByUuid_cases (hf : ∀ d, (f d).1.uuid = d.uuid) (uuid : DevUuid)
    (m : BlockDevMgr) :
    (m.getBlockdevByUuid uuid = none ∧ m.getMutBlockdevByUuid uuid f = none) ∨
      ∃ d m', m.getBlockdevByUuid uuid = some d ∧
        m.getMutBlockdevByUuid uuid f = some (m', (f d).2) ∧
        m'.getBlockdevByUuid uuid = some (f d).1 := by
  unfold getMutBlockdevByUuid
  obtain ⟨hnone, hchange⟩ | ⟨d, bds', hfind, hchange, hfound⟩ :=
    changeFirst_cases hf uuid m.blockDevs
  · exact Or.inl ⟨hnone, by rw [hchange, Option.map_none]⟩
  · exact Or.inr ⟨d, { m with blockDevs := bds' }, hfind, by rw [hchange, Option.map_some], hfound⟩

theorem Backstore.getMutBlockdevByUuid_cases (hf : ∀ d, (f d).1.uuid = d.uuid) (uuid : DevUuid)
    (b : Backstore) :
    (b.getBlockdevByUuid uuid = none ∧ b.getMutBlockdevByUuid uuid f = none) ∨
      ∃ d b', b.getBlockdevByUuid uuid = some d ∧
        b.getMutBlockdevByUuid uuid f = some (b', (f d).2) ∧
        b'.getBlockdevByUuid uuid = some (f d).1 := by
  unfold getMutBlockdevByUuid getBlockdevByUuid
  obtain ⟨hnone, hchange⟩ | ⟨d, m', hfind, hchange, hfound⟩ :=
    BlockDevMgr.getMutBlockdevByUuid_cases hf uuid b.dataTier.blockMgr
  · rw [hnone, hchange]
    cases hc : b.cacheTier with
    | none => exact Or.inl ⟨rfl, rfl⟩
    | some t =>
      obtain ⟨hnone', hchange'⟩ | ⟨d, m', hfind, hchange', hfound⟩ :=
        BlockDevMgr.getMutBlockdevByUuid_cases hf uuid t.blockMgr
      · left
        simp [hnone', hchange']
      · right
        refine ⟨d, { b with cacheTier := some { t with blockMgr := m' } }, ?_, ?_, ?_⟩
        · simp [hfind]
        · simp [hchange']
        · simp [hnone, hfound]
  · right
    refine ⟨d, { b with dataTier := { b.dataTier with blockMgr := m' } }, ?_, ?_, ?_⟩
    · simp [hfind]
    · simp [hchange]
    · simp [hfound]

theorem StratBlockDev.uuid_setUserInfo (userInfo : Option String) (d : StratBlockDev) :
    (d.setUserInfo userInfo).1.uuid = d.uuid := by
  unfold setUserInfo
  split_ifs <;> rfl

end Stratisd.Backstore

namespace Stratisd.Pool.StratPool

open Run Run.Stateful Engine Backstore Thinpool

/-! ### User info -/

/-- How setting user info ends: there is no such device, or it has that user info already, or it
gets it and the metadata is to be written. -/
theorem setBlockdevUserInfo_cases (save : StratisResult Unit) (name : String) (uuid : DevUuid)
    (userInfo : Option String) (p : StratPool) :
    (p.backstore.getBlockdevByUuid uuid = none ∧
        (setBlockdevUserInfo save name uuid userInfo p).2 = .ok .noSource) ∨
      (∃ d, p.backstore.getBlockdevByUuid uuid = some d ∧ d.userInfo = userInfo ∧
        (setBlockdevUserInfo save name uuid userInfo p).2 = .ok .identity) ∨
      ∃ d p', p.backstore.getBlockdevByUuid uuid = some d ∧ d.userInfo ≠ userInfo ∧
        p'.backstore.getBlockdevByUuid uuid = some { d with userInfo } ∧
        setBlockdevUserInfo save name uuid userInfo p =
          (do writeMetadata save name; pure (.renamed uuid) : M DevRenameAction) p' := by
  obtain ⟨hnone, hget⟩ | ⟨d, b', hsome, hget, hfound⟩ :=
    Backstore.getMutBlockdevByUuid_cases (StratBlockDev.uuid_setUserInfo userInfo) uuid p.backstore
  · refine Or.inl ⟨hnone, ?_⟩
    have hset : attempt (onStacked (ThinPool.onBackstore
        (Backstore.setBlockdevUserInfo uuid userInfo))) p = (p, .ok none) := by
      simp only [attempt, onStacked, ThinPool.onBackstore, within,
        Backstore.setBlockdevUserInfo, hget]
    rw [setBlockdevUserInfo, bind_of_eq hset]
    rfl
  · have hset : attempt (onStacked (ThinPool.onBackstore
        (Backstore.setBlockdevUserInfo uuid userInfo))) p = ({ p with backstore := b' },
          .ok (some (if (d.setUserInfo userInfo).2 then some uuid else none))) := by
      simp only [attempt, onStacked, ThinPool.onBackstore, within,
        Backstore.setBlockdevUserInfo, hget]
    by_cases hd : d.userInfo = userInfo
    · refine Or.inr (Or.inl ⟨d, hsome, hd, ?_⟩)
      have hsame : (d.setUserInfo userInfo).2 = false := by simp [StratBlockDev.setUserInfo, hd]
      rw [setBlockdevUserInfo, bind_of_eq hset, hsame]
      rfl
    · have hchanged : d.setUserInfo userInfo = ({ d with userInfo }, true) := if_pos hd
      rw [hchanged] at hset hfound
      refine Or.inr (Or.inr ⟨d, { p with backstore := b' }, hsome, hd, hfound, ?_⟩)
      rw [setBlockdevUserInfo, bind_of_eq hset]
      rfl

/-- The user info that a record has of a device. -/
def recordedUserInfo (save : BackstoreSave) (uuid : DevUuid) : Option (Option String) :=
  ((save.dataTier.blockdev.devs ++ (save.cacheTier.map (·.blockdev.devs)).getD []).find?
    fun dev => dev.uuid = uuid).map (·.userInfo)

/-- If the request fails because the metadata is not written, the user info is as it was. The same
request then changes it, and as soon as the metadata is written the new user info is recorded. -/
def UserInfoRetried (save : StratisResult Unit) (name : String) (uuid : DevUuid)
    (userInfo : Option String) (p : StratPool) : Prop :=
  ∀ e, (setBlockdevUserInfo save name uuid userInfo p).2 = .err e →
    let failed := (setBlockdevUserInfo save name uuid userInfo p).1
    let again := setBlockdevUserInfo (.ok ()) name uuid userInfo failed
    (failed.backstore.getBlockdevByUuid uuid).map (·.userInfo) =
        (p.backstore.getBlockdevByUuid uuid).map (·.userInfo) ∧
      again.2 = .ok (.renamed uuid) ∧
      ∃ saved, again.1.saved = some saved ∧
        recordedUserInfo saved.backstore uuid = some userInfo

/-- The write fails only after the user info has been set. -/
theorem userInfoRetried_iff {save : StratisResult Unit} {name : String} {uuid : DevUuid}
    {userInfo : Option String} {p : StratPool} :
    UserInfoRetried save name uuid userInfo p ↔
      ∀ e, save = .err e → ∀ d, p.backstore.getBlockdevByUuid uuid = some d →
        d.userInfo = userInfo := by
  obtain ⟨hnone, hres⟩ | ⟨d, hsome, hd, hres⟩ | ⟨d, p', hsome, hd, hfound, heq⟩ :=
    setBlockdevUserInfo_cases save name uuid userInfo p
  · refine iff_of_true (fun e he => ?_) fun e _ d hd => ?_
    · rw [hres] at he
      cases he
    · rw [hnone] at hd
      cases hd
  · refine iff_of_true (fun e he => ?_) fun e _ d' hd' => ?_
    · rw [hres] at he
      cases he
    · obtain rfl := Option.some.inj (hsome.symm.trans hd')
      exact hd
  · cases save with
    | ok _ =>
      refine iff_of_true (fun e he => ?_) fun e he => ?_
      · rw [heq] at he
        cases he
      · cases he
    | panic =>
      refine iff_of_true (fun e he => ?_) fun e he => ?_
      · rw [heq] at he
        cases he
      · cases he
    | err err =>
      have hfailed : setBlockdevUserInfo (.err err) name uuid userInfo p = (p', .err err) := heq
      refine iff_of_false (fun hall => hd ?_) fun hall => hd (hall err rfl d hsome)
      obtain ⟨hsame, -⟩ := hall err (congrArg Prod.snd hfailed)
      rw [hfailed, hfound, hsome] at hsame
      exact (Option.some.inj hsame).symm

end Stratisd.Pool.StratPool

namespace Stratisd.Engine.StratEngine

open Run Run.Stateful Thinpool Pool

variable {e : StratEngine} {uuid : PoolUuid} {oldName newName : String} {pool : StratPool}

/-! ### Names -/

theorem renamePool_eq (hg : e.pools.getByUuid uuid = some (oldName, pool))
    (hne : oldName ≠ newName) (hfree : e.pools.containsName newName = false)
    (save : StratisResult Unit) :
    renamePool ⟨.ok (), save⟩ uuid newName e = renameRemoved save uuid oldName newName pool
      { e with pools := ⟨e.pools.nameToUuid.erase oldName, e.pools.items.erase uuid⟩ } := by
  rw [renamePool, lift_ok_bind, get_bind]
  simp only [hg, if_neg hne, hfree, Bool.false_eq_true, if_false, Table.removeByUuid_of_get hg,
    Outcome.expect_some, lift_ok_bind, modify_bind]

theorem insertPool_of_insert {t t' : Table PoolUuid StratPool} {name : String}
    {displaced : Option (List (String × PoolUuid × StratPool))} {l : Liminal.LiminalDevices}
    (h : t.insert name uuid pool = (.ok (t', displaced) : StratisResult _)) :
    insertPool name uuid pool ⟨t, l⟩ = (⟨t', l⟩, .ok ()) := by
  rw [insertPool, get_bind]
  simp only [h, lift_ok_bind, modify_apply]

theorem renamePool_failed (h : e.pools.Consistent)
    (hg : e.pools.getByUuid uuid = some (oldName, pool)) (hne : oldName ≠ newName)
    (hfree : e.pools.containsName newName = false) (err : StratisError) :
    ∃ t, renamePool ⟨.ok (), .err err⟩ uuid newName e = (⟨t, e.liminalDevices⟩, .err err) ∧
      Table.Same e.pools t := by
  obtain ⟨t, displaced, hinsert, hsame⟩ :=
    (Table.removed_erase e.pools oldName uuid).putBack (ε := StratisError) h hg
  refine ⟨t, ?_, hsame⟩
  have hback : renameRemoved (.err err) uuid oldName newName pool
      ⟨⟨e.pools.nameToUuid.erase oldName, e.pools.items.erase uuid⟩, e.liminalDevices⟩ =
        (do insertPool oldName uuid pool; Stateful.lift (.err err) : M RenameAction)
          ⟨⟨e.pools.nameToUuid.erase oldName, e.pools.items.erase uuid⟩, e.liminalDevices⟩ := rfl
  rw [renamePool_eq hg hne hfree, hback, bind_of_eq (insertPool_of_insert hinsert)]
  rfl

theorem renamePool_written (h : e.pools.Consistent)
    (hg : e.pools.getByUuid uuid = some (oldName, pool)) (hne : oldName ≠ newName)
    (hfree : e.pools.containsName newName = false) :
    ∃ t, renamePool ⟨.ok (), .ok ()⟩ uuid newName e =
        (⟨t, e.liminalDevices⟩, .ok (.renamed uuid)) ∧
      t.getByUuid uuid = some (newName, { pool with saved := some (pool.record newName) }) := by
  have hremoved := (Table.removed_erase e.pools oldName uuid).consistent h hg
  obtain ⟨t, displaced, hinsert, hi⟩ := hremoved.insert_ok (ε := StratisError) newName uuid
    { pool with saved := some (pool.record newName) }
  refine ⟨t, ?_, hi.found⟩
  have hput : renameRemoved (.ok ()) uuid oldName newName pool
      ⟨⟨e.pools.nameToUuid.erase oldName, e.pools.items.erase uuid⟩, e.liminalDevices⟩ = (do
        insertPool newName uuid { pool with saved := some (pool.record newName) }
        let e ← Stateful.get
        let _ ← Stateful.lift (Outcome.expect (e.pools.getByUuid uuid))
        pure (.renamed uuid) : M RenameAction)
          ⟨⟨e.pools.nameToUuid.erase oldName, e.pools.items.erase uuid⟩, e.liminalDevices⟩ := rfl
  rw [renamePool_eq hg hne hfree, hput, bind_of_eq (insertPool_of_insert hinsert),
    get_bind, hi.found, Outcome.expect_some, lift_ok_bind]
  rfl

/-- If the new name of a pool is not written, every pool is in the table as it was. The same request
then renames the pool, and as soon as the metadata is written the new name is recorded. -/
def RenameRetried (e : StratEngine) (uuid : PoolUuid) (newName : String) (err : StratisError) :
    Prop :=
  ∀ oldName pool, e.pools.getByUuid uuid = some (oldName, pool) → oldName ≠ newName →
    e.pools.containsName newName = false →
    let failed := renamePool ⟨.ok (), .err err⟩ uuid newName e
    let again := renamePool ⟨.ok (), .ok ()⟩ uuid newName failed.1
    failed.2 = .err err ∧ Table.Same e.pools failed.1.pools ∧ again.2 = .ok (.renamed uuid) ∧
      ∃ pool' saved, again.1.pools.getByUuid uuid = some (newName, pool') ∧
        pool'.saved = some saved ∧ saved.name = newName

theorem renameRetried (h : e.pools.Consistent) (uuid : PoolUuid) (newName : String)
    (err : StratisError) : RenameRetried e uuid newName err := by
  intro oldName pool hg hne hfree
  obtain ⟨t, hfailed, hsame⟩ := renamePool_failed h hg hne hfree err
  have hfree' : t.containsName newName = false := by
    rw [Table.containsName, hsame.names]
    exact hfree
  obtain ⟨t', hagain, hfound⟩ := renamePool_written (e := ⟨t, e.liminalDevices⟩)
    (hsame.consistent h) ((hsame.items uuid).trans hg) hne hfree'
  simp only [hfailed, hagain]
  exact ⟨trivial, hsame, trivial, _, _, hfound, rfl, rfl⟩

/-- A failed write of the metadata can be made up for by the same request: always where it was
the name of a pool, and where it was the user info of a device only if there was nothing to
change. -/
theorem failed_write_retried_iff (e : StratEngine) (h : e.pools.Consistent) (p : StratPool)
    (save : StratisResult Unit) (name : String) (dev : DevUuid) (userInfo : Option String) :
    ((∀ uuid newName err, RenameRetried e uuid newName err) ∧
      StratPool.UserInfoRetried save name dev userInfo p) ↔
    ∀ err, save = .err err → ∀ d, p.backstore.getBlockdevByUuid dev = some d →
      d.userInfo = userInfo := by
  rw [← StratPool.userInfoRetried_iff, and_iff_right fun uuid newName err =>
    renameRetried h uuid newName err]

/-- An engine with one pool, whose only device gets user info. -/
theorem failed_write_retried_one_pool : ∃ r, ThinPool.newOn (2 ^ 22) = .ok r ∧
    ∃ e : StratEngine, e.pools.getByUuid ⟨7⟩ = some ("pool", ⟨r.2, none⟩) ∧
      (∀ uuid newName err, RenameRetried e uuid newName err) ∧
      StratPool.UserInfoRetried (.ok ()) "pool" ⟨1⟩ (some "rack 4") ⟨r.2, none⟩ := by
  have hok : ∃ r, ThinPool.newOn (2 ^ 22) = .ok r ∧ True := by decide +kernel
  obtain ⟨r, hr, -⟩ := hok
  obtain ⟨t, displaced, -, hi⟩ := Table.consistent_default.insert_ok (ε := StratisError) "pool"
    (⟨7⟩ : PoolUuid) (⟨r.2, none⟩ : StratPool)
  refine ⟨r, hr, ⟨t, Liminal.LiminalDevices.default⟩, hi.found, ?_⟩
  refine (failed_write_retried_iff ⟨t, Liminal.LiminalDevices.default⟩
    (hi.consistent Table.consistent_default) _ _ _ _ _).mpr ?_
  intro err hsave
  cases hsave

/-- The user info stays set when the metadata can not be written. The same request then has nothing
to change, and the metadata on the device stays without it. -/
theorem failed_user_info_not_retried : ∃ r, ThinPool.newOn (2 ^ 22) = .ok r ∧
    let p : StratPool := ⟨r.2, some (StratPool.recordOf r.2 "pool")⟩
    let failed := StratPool.setBlockdevUserInfo (.err .io) "pool" ⟨1⟩ (some "rack 4") p
    let again := StratPool.setBlockdevUserInfo (.ok ()) "pool" ⟨1⟩ (some "rack 4") failed.1
    failed.2 = .err .io ∧
      (failed.1.backstore.getBlockdevByUuid ⟨1⟩).map (·.userInfo) = some (some "rack 4") ∧
      again.2 = .ok .identity ∧
      again.1.saved.map (fun saved => StratPool.recordedUserInfo saved.backstore ⟨1⟩) =
        some (some none) := by
  decide +kernel

end Stratisd.Engine.StratEngine
