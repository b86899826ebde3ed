import Stratisd.Sim.Host

/-! Whether the simulated engine does what the real one does. Both are given the same calls, from
states with the same pools. The simulated engine does not look at new names, devices or
configurations of Clevis as the real one does, and looks for keys elsewhere. -/

namespace Stratisd.Sim

open Run Run.Outcome Run.Stateful Engine Pool Devices Crypt StratEngine

/-! ### Calls -/

/-- A call, and the answers of the system to the real engine. -/
inductive Input where
  | createPool (io : Host.CreateIo) (name : String) (paths : List String) (redundancy : Option ℕ)
      (encryptionInfo : EncryptionInfo)
  | renamePool (save : StratisResult Unit) (uuid : PoolUuid) (newName : String)
  | destroyPool (io : Host.DestroyIo) (uuid : PoolUuid)
  | onPool (uuid : PoolUuid) (input : CryptInput)

def Action.ofCreate : CreateAction → Action
  | .created _ => .created
  | .identity => .identity

def Action.ofDelete : DeleteAction → Action
  | .deleted _ => .deleted
  | .identity => .identity

def Action.ofRename : RenameAction → Action
  | .renamed _ => .renamed
  | .identity => .identity
  | .noSource => .noSource

variable (codec : JweCodec) (overflowChecks : Bool) (validateName : String → StratisResult Unit)

/-- The real engine. A call on a pool that is not there has no answer. -/
def realStep (s : Host) : Input → Host × StratisResult (Option Action)
  | .createPool io name paths redundancy info => (do
      let a ← Host.createPool codec overflowChecks validateName io name paths redundancy info
      pure (some (.ofCreate a)) : Host.M (Option Action)) s
  | .renamePool save uuid newName => (do
      let a ← Host.renamePool validateName save uuid newName
      pure (some (.ofRename a)) : Host.M (Option Action)) s
  | .destroyPool io uuid => (do
      let a ← Host.destroyPool io uuid
      pure (some (.ofDelete a)) : Host.M (Option Action)) s
  | .onPool uuid input => Host.onPool uuid (perform (pinDispatch codec) input.io input.request) s

/-- The simulated engine. The UUID that is generated for a pool is the same as in the real one. -/
def simStep (t : SimEngine) : Input → SimEngine × StratisResult (Option Action)
  | .createPool io name paths redundancy info => (do
      let a ← SimEngine.createPool validateName io.uuid name paths redundancy info
      pure (some (.ofCreate a)) : SimEngine.M (Option Action)) t
  | .renamePool _ uuid newName => (do
      let a ← SimEngine.renamePool uuid newName
      pure (some (.ofRename a)) : SimEngine.M (Option Action)) t
  | .destroyPool _ uuid => (do
      let a ← SimEngine.destroyPool uuid
      pure (some (.ofDelete a)) : SimEngine.M (Option Action)) t
  | .onPool uuid input => SimEngine.onPool uuid (simulate input.request) t

/-- The same kind of answer. The texts of errors do not count. -/
def SameKind {α : Type} : StratisResult α → StratisResult α → Prop
  | .ok a, .ok b => a = b
  | .err _, .err _ => True
  | .panic, .panic => True
  | _, _ => False

/-! ### States with the same pools -/

/-- The devices are encrypted in the same way and have the same paths, and both pools have
filesystems or neither has. -/
structure SamePool (s : Host) (uuid : PoolUuid) (p : StratPool) (q : SimPool) : Prop where
  info : ∃ info, Uniform info ((s.blockDevs uuid).map BlockDevs.reported) ∧ Uniform info q.known
  paths : ∀ path, path ∈ physicalPaths s.site.underlying p.backstore.datadevs ↔ path ∈ q.devnodes
  filesystems : StratEngine.hasFilesystems p = q.hasFilesystems

/-- The same names are in use, for pools that are the same. -/
structure Corresponds (keys : List String) (s : Host) (t : SimEngine) : Prop where
  keyHandler : t.keyHandler = keys
  pools : Table.Matches (SamePool s) s.pools t.pools

/-! ### Calls that succeed, and calls on which both agree -/

/-- A key that is asked for is there. -/
def KeyKnown (keys : List String) (info : EncryptionInfo) : Prop :=
  ∀ keyDesc, info.keyDescription = some keyDesc → keyDesc ∈ keys

/-- The devices can be used for the new pool. -/
def Usable (s : Host) (io : Host.CreateIo) (paths : List String) : Prop :=
  ∃ infos, processAndVerifyDevices io.pool.prepare.node s.site.headers io.uuid [] paths = .ok infos

/-- The configuration of Clevis, if there is one, can be interpreted. -/
def Interprets (info : EncryptionInfo) : Prop :=
  CryptInitializer.interpretNew info.clevisInfo = .ok ()

/-- The operations of the system succeed while a pool is created: new UUIDs are generated, the
keyring has the keys and no others, and what the daemon has no reason to refuse is done. -/
structure CreateSucceeds (keys : List String) (s : Host) (io : Host.CreateIo) (name : String)
    (paths : List String) (info : EncryptionInfo) : Prop where
  uuid : s.pools.getByUuid io.uuid = none
  devUuids : FreshUuids io.pool.prepare paths
  otherUuids : ∀ uuid name pool, s.pools.getByUuid uuid = some (name, pool) →
    ∀ d ∈ pool.backstore.datadevs, ∀ path ∈ paths, d.uuid ≠ (io.pool.prepare.one path).devUuid
  devicePath : ∀ path ∈ paths, ∃ physicalPath,
    (io.pool.prepare.one path).devicePath = .ok physicalPath
  formats : ∀ path ∈ paths, Host.Formats (io.crypt path)
  jsonGet : ∀ path ∈ paths, (io.crypt path).jsonGet = true
  missing : ∀ path ∈ paths, ∀ keyDesc, keyDesc ∉ keys → (io.crypt path).readKey keyDesc = .ok none
  handle : info.isEncrypted → KeyKnown keys info → Interprets info → ∀ path ∈ paths,
    ∃ c, io.handle codec info path = .ok c
  pool : KeyKnown keys info → Interprets info → Usable s io paths →
    ∃ headers r, StratPool.initializeOn overflowChecks (io.onSite codec info).pool io.uuid name paths
      info s.site.headers = (headers, .ok r)

/-- A name that is in use is asked for with a key that is there. Otherwise the devices can be used
and are given by their canonical paths, and the configuration of Clevis can be interpreted and is
what the new tokens say. -/
structure CreateAgrees (keys : List String) (s : Host) (io : Host.CreateIo) (name : String)
    (paths : List String) (info : EncryptionInfo) : Prop where
  taken : (s.pools.getByName name).isSome → KeyKnown keys info
  devices : s.pools.getByName name = none → paths ≠ [] → KeyKnown keys info →
    Usable s io paths ∧ ∀ path ∈ paths, (io.pool.prepare.one path).devicePath = .ok path
  clevis : s.pools.getByName name = none → paths ≠ [] → KeyKnown keys info →
    Interprets info ∧ ∀ known, info.clevisInfo = some known →
      ∀ path ∈ paths, Describes codec (io.crypt path).jwe.header known

/-- The request is made in the form that the engine accepts. -/
def Valid (name : String) (paths : List String) (redundancy : Option ℕ) : Prop :=
  StratEngine.calculateRedundancy redundancy = .ok () ∧ validateName name = .ok () ∧
    StratPool.validatePaths paths = .ok ()

/-- All operations of the system succeed. -/
def Succeeds (keys : List String) (s : Host) : Input → Prop
  | .createPool io name paths _ info => CreateSucceeds codec overflowChecks keys s io name paths info
  | .renamePool save _ _ => save = .ok ()
  | .destroyPool io _ => io.thinPool = .ok () ∧ io.cap = .ok () ∧ ∀ uuid, io.disown uuid = .ok ()
  | .onPool uuid input => RequestSucceeds codec keys (s.blockDevs uuid) input

/-- Both engines treat the call in the same way. -/
def Agrees (keys : List String) (s : Host) : Input → Prop
  | .createPool io name paths redundancy info => Valid validateName name paths redundancy →
      CreateAgrees codec keys s io name paths info
  | .renamePool _ _ newName => validateName newName = .ok ()
  | .destroyPool _ _ => True
  | .onPool uuid input => ∀ info, BlockDevs.encryptionInfo (s.blockDevs uuid) = .ok info →
      RequestAgrees codec keys info (s.blockDevs uuid) input

/-! ### Steps -/

/-- The answers are of the same kind, and the states correspond again. -/
def Agree {α : Type} (keys : List String) (r : Host × StratisResult α)
    (r' : SimEngine × StratisResult α) : Prop :=
  Corresponds keys r.1 r'.1 ∧ SameKind r.2 r'.2

section steps

variable {codec overflowChecks validateName} {keys : List String} {s : Host} {t : SimEngine}

theorem SameKind.refl {α : Type} (x : StratisResult α) : SameKind x x := by
  cases x with
  | ok a => exact rfl
  | err e => trivial
  | panic => trivial

theorem SameKind.bind {α β : Type} {x y : StratisResult α} (h : SameKind x y) (f : α → β) :
    SameKind (x >>= fun a => .ok (f a)) (y >>= fun a => .ok (f a)) := by
  cases x <;> cases y <;> try cases h
  · exact rfl
  · trivial
  · trivial

theorem Agree.bind {α β : Type} {p : Host.M α} {q : SimEngine.M α} (h : Agree keys (p s) (q t))
    (f : α → β) : Agree keys ((do let a ← p; pure (f a) : Host.M β) s)
      ((do let a ← q; pure (f a) : SimEngine.M β) t) := by
  have hp := bind_pure_apply p f s
  have hq := bind_pure_apply q f t
  rw [hp, hq]
  exact ⟨h.1, h.2.bind f⟩

theorem Corresponds.of_devices (h : Corresponds keys s t) {s' : Host} (hpools : s'.pools = s.pools)
    (hdevs : s'.blockDevs = s.blockDevs) (hunderlying : s'.site.underlying = s.site.underlying) :
    Corresponds keys s' t := by
  refine ⟨h.keyHandler, ?_⟩
  rw [hpools]
  refine h.pools.imp fun uuid p q _ hsame => ?_
  exact ⟨by rw [hdevs]; exact hsame.info, by rw [hunderlying]; exact hsame.paths, hsame.filesystems⟩

theorem simInsert_eq {e : SimEngine} (h : e.pools.Consistent) (name : String) (uuid : PoolUuid)
    (pool : SimPool) :
    ∃ t, SimEngine.insertPool name uuid pool e = (⟨t, e.keyHandler⟩, .ok ()) ∧
      Table.Inserted e.pools t name uuid pool := by
  obtain ⟨t, displaced, ht, hi⟩ := h.insert_ok (ε := StratisError) name uuid pool
  refine ⟨t, ?_, hi⟩
  rw [SimEngine.insertPool, get_bind, ht]
  rfl

/-- What both engines have done to their tables. -/
structure TablesAgree {α : Type} (keys : List String) (s : Host) (r : StratEngine × StratisResult α)
    (r' : SimEngine × StratisResult α) : Prop where
  keyHandler : r'.1.keyHandler = keys
  pools : Table.Matches (SamePool s) r.1.pools r'.1.pools
  kind : SameKind r.2 r'.2

theorem Corresponds.unchanged {α : Type} (h : Corresponds keys s t) {x y : StratisResult α}
    (hkind : SameKind x y) : TablesAgree keys s (s.site.engine, x) (t, y) :=
  ⟨h.keyHandler, h.pools, hkind⟩

theorem TablesAgree.onSite {α : Type} {p : StratEngine.M α} {r : SimEngine × StratisResult α}
    (h : TablesAgree keys s (p s.site.engine) r) (headers : Headers) :
    Agree keys (Host.onSite (Site.onEngine p) { s with site := { s.site with headers } }) r := by
  refine ⟨⟨h.keyHandler, ?_⟩, h.kind⟩
  exact h.pools.imp fun uuid p q _ hsame => ⟨hsame.info, hsame.paths, hsame.filesystems⟩

theorem Corresponds.removed (h : Corresponds keys s t) {uuid : PoolUuid} {name : String}
    {pool : StratPool} (hg : s.pools.getByUuid uuid = some (name, pool)) :
    Table.Matches (SamePool s) (s.pools.removeByUuid uuid).1 (t.pools.removeByUuid uuid).1 := by
  obtain ⟨q, hg', -⟩ := h.pools.exists_of_get hg
  rw [Table.removeByUuid_of_get hg, Table.removeByUuid_of_get hg']
  exact h.pools.removed hg (Table.removed_erase s.pools name uuid)
    (Table.removed_erase t.pools name uuid)

/-- A pool that has been taken out of both tables takes another name in both. -/
theorem agree_renameRemoved (h : Corresponds keys s t) {uuid : PoolUuid} {oldName : String}
    {pool : StratPool} (hg : s.pools.getByUuid uuid = some (oldName, pool)) {q : SimPool}
    (hsame : SamePool s uuid pool q) (newName : String) :
    TablesAgree keys s (renameRemoved (.ok ()) uuid oldName newName pool
        ⟨(s.pools.removeByUuid uuid).1, s.site.engine.liminalDevices⟩)
      ((do SimEngine.insertPool newName uuid q; pure (.renamed uuid) : SimEngine.M RenameAction)
        ⟨(t.pools.removeByUuid uuid).1, t.keyHandler⟩) := by
  have hremoved := h.removed hg
  have hsaved : SamePool s uuid (StratPool.writeMetadata (.ok ()) newName pool).1 q :=
    ⟨hsame.info, hsame.paths, hsame.filesystems⟩
  obtain ⟨r, hr, hi⟩ := insertPool_eq
    (e := ⟨_, s.site.engine.liminalDevices⟩) hremoved.left newName uuid
      (StratPool.writeMetadata (.ok ()) newName pool).1
  obtain ⟨r', hr', hi'⟩ := simInsert_eq (e := ⟨_, t.keyHandler⟩) hremoved.right newName uuid q
  have hreal : renameRemoved (.ok ()) uuid oldName newName pool
      ⟨(s.pools.removeByUuid uuid).1, s.site.engine.liminalDevices⟩ =
        (⟨r, s.site.engine.liminalDevices⟩, .ok (.renamed uuid)) := by
    have hput := bind_of_eq hr fun _ => (do
      let e ← Stateful.get
      let _ ← Stateful.lift (expect (e.pools.getByUuid uuid))
      pure (.renamed uuid) : StratEngine.M RenameAction)
    rw [get_bind, hi.found] at hput
    exact hput
  rw [hreal, bind_of_eq hr']
  exact ⟨h.keyHandler, hremoved.inserted hi hi' hsaved, rfl⟩

theorem agree_renamePool (h : Corresponds keys s t) {newName : String}
    (hname : validateName newName = .ok ()) (uuid : PoolUuid) :
    Agree keys (Host.renamePool validateName (.ok ()) uuid newName s)
      (SimEngine.renamePool uuid newName t) := by
  refine TablesAgree.onSite ?_ s.site.headers
  rw [renamePool, SimEngine.renamePool, hname, lift_ok_bind, get_bind,
    get_bind]
  cases hg : s.pools.getByUuid uuid with
  | none =>
    rw [h.pools.get_eq_none hg]
    exact h.unchanged rfl
  | some found =>
    obtain ⟨oldName, pool⟩ := found
    obtain ⟨q, hg', hsame⟩ := h.pools.exists_of_get hg
    rw [hg']
    simp only [h.pools.containsName_eq]
    split_ifs with hold hused
    · exact h.unchanged rfl
    · exact h.unchanged trivial
    · rw [Table.removeByUuid_of_get hg, Table.removeByUuid_of_get hg', expect_some,
        expect_some, lift_ok_bind, lift_ok_bind, modify_bind,
        modify_bind]
      exact agree_renameRemoved h hg hsame newName

theorem exists_destroy {io : Host.DestroyIo} (hthin : io.thinPool = .ok ()) (hcap : io.cap = .ok ())
    (hdisown : ∀ uuid, io.disown uuid = .ok ()) (underlying : Underlying) (pool : StratPool)
    (headers : Headers) : ∃ headers', io.destroy underlying pool headers = (headers', .ok ()) := by
  have hwipe : ∀ bds headers, wipeTier io.disown bds headers = (wiped headers bds, .ok ()) :=
    fun bds headers => wipeTier_of_disowned (fun bd _ => hdisown bd.dev.uuid) headers
  rw [Host.DestroyIo.destroy, hthin, lift_ok_bind, destroyBackstore, hcap]
  cases pool.backstore.cache with
  | some cache =>
    simp only [lift_ok_bind]
    rw [bind_of_eq (hwipe _ _)]
    exact ⟨_, hwipe _ _⟩
  | none =>
    cases pool.backstore.linear with
    | some linear => exact ⟨_, hwipe _ _⟩
    | none => exact ⟨_, hwipe _ _⟩

theorem agree_destroyPool (h : Corresponds keys s t) {io : Host.DestroyIo}
    (hthin : io.thinPool = .ok ()) (hcap : io.cap = .ok ())
    (hdisown : ∀ uuid, io.disown uuid = .ok ()) (uuid : PoolUuid) :
    Agree keys (Host.destroyPool io uuid s) (SimEngine.destroyPool uuid t) := by
  rw [Host.destroyPool, get_bind, modify_bind]
  refine TablesAgree.onSite ?_ (Host.destroyed io uuid s).1
  unfold destroyPool SimEngine.destroyPool
  rw [get_bind, get_bind]
  cases hg : s.pools.getByUuid uuid with
  | none =>
    rw [h.pools.get_eq_none hg]
    exact h.unchanged rfl
  | some found =>
    obtain ⟨name, pool⟩ := found
    obtain ⟨q, hg', hsame⟩ := h.pools.exists_of_get hg
    rw [hg']
    simp only [← hsame.filesystems]
    split_ifs with hfs
    · exact h.unchanged trivial
    · obtain ⟨headers, hdestroy⟩ := exists_destroy hthin hcap hdisown s.site.underlying pool
        s.site.headers
      have hdone : (Host.destroyed io uuid s).2 = .ok () := by
        rw [Host.destroyed, hg]
        simp only [if_neg hfs, hdestroy]
      rw [congrArg Prod.snd (Table.removeByUuid_of_get hg),
        congrArg Prod.snd (Table.removeByUuid_of_get hg'), expect_some, expect_some,
        lift_ok_bind, lift_ok_bind, modify_bind, modify_bind,
        hdone]
      exact ⟨h.keyHandler, h.removed hg, rfl⟩

theorem follows_unique {info info₁ info₂ : EncryptionInfo} {request : Request}
    {x y : StratisResult Action} (hx : Follows info request info₁ x)
    (hy : Follows info request info₂ y) : info₁ = info₂ ∧ SameKind x y := by
  unfold Follows at hx hy
  cases heffect : effect info request with
  | none =>
    rw [heffect] at hx hy
    obtain ⟨rfl, e, rfl⟩ := hx
    obtain ⟨rfl, e', rfl⟩ := hy
    exact ⟨rfl, trivial⟩
  | some next =>
    rw [heffect] at hx hy
    obtain ⟨rfl, rfl⟩ := hx
    obtain ⟨rfl, rfl⟩ := hy
    exact ⟨rfl, rfl⟩

theorem Corresponds.rebound (h : Corresponds keys s t) {uuid : PoolUuid} {name : String}
    {q q' : SimPool} (hg : t.pools.getByUuid uuid = some (name, q)) {devs : BlockDevs}
    {info : EncryptionInfo} (hu : Uniform info (devs.map BlockDevs.reported))
    (hq : SimPool.Rebound q q' info) :
    Corresponds keys { s with blockDevs := Function.update s.blockDevs uuid devs }
      { t with pools := t.pools.setByUuid uuid q' } := by
  refine ⟨h.keyHandler, h.pools.set_right hg (fun p hp => ?_) fun v hv p q hp => ?_⟩
  · refine ⟨⟨info, ?_, hq.uniform⟩, ?_, ?_⟩
    · dsimp only
      rw [Function.update_self]
      exact hu
    · rw [hq.devnodes]
      exact hp.paths
    · rw [SimPool.hasFilesystems, hq.filesystems]
      exact hp.filesystems
  · refine ⟨?_, hp.paths, hp.filesystems⟩
    dsimp only
    rw [Function.update_of_ne hv]
    exact hp.info

theorem agree_onPool (h : Corresponds keys s t) (uuid : PoolUuid) {input : CryptInput}
    (hs : RequestSucceeds codec keys (s.blockDevs uuid) input)
    (ha : ∀ info, BlockDevs.encryptionInfo (s.blockDevs uuid) = .ok info →
      RequestAgrees codec keys info (s.blockDevs uuid) input) :
    Agree keys (Host.onPool uuid (perform (pinDispatch codec) input.io input.request) s)
      (SimEngine.onPool uuid (simulate input.request) t) := by
  unfold Host.onPool SimEngine.onPool
  cases hg : s.pools.getByUuid uuid with
  | none =>
    rw [h.pools.get_eq_none hg]
    exact ⟨h, rfl⟩
  | some found =>
    obtain ⟨name, pool⟩ := found
    obtain ⟨q, hg', hsame⟩ := h.pools.exists_of_get hg
    obtain ⟨info, hdevs, hknown⟩ := hsame.info
    obtain ⟨info₁, hu, hf⟩ := perform_follows hdevs input.request hs
      (ha info (BlockDevs.encryptionInfo_eq hdevs))
    obtain ⟨info₂, hrebound, hf'⟩ := simulate_follows hknown input.request
    obtain ⟨rfl, hkind⟩ := follows_unique hf hf'
    rw [hg']
    exact ⟨h.rebound hg' hu hrebound, hkind.bind some⟩

end steps

end Stratisd.Sim
