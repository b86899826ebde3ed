import Stratisd.Crypt.Manager
import Stratisd.Engine.StratEngine

/-! The simulated engine, in which all devices and keys are in memory. What its pools do with their
bindings is stated once for all of their devices. -/

namespace Stratisd.Sim

open Run Run.Stateful Engine Media Pool Thinpool Crypt

/-- What a call that returns has done. The actions of the interface also tell to what. -/
inductive Action where
  | identity
  | created
  | deleted
  | renamed
  | noSource
  | regenerated
  deriving DecidableEq

/-! ### Pools -/

structure SimDev where
  devnode : String
  encryptionInfo : EncryptionInfo
  deriving DecidableEq

namespace SimDev

def setClevisInfo (pin : String) (config : Value) (d : SimDev) : SimDev :=
  { d with encryptionInfo := { d.encryptionInfo with clevisInfo := some (pin, config) } }

def unsetClevisInfo (d : SimDev) : SimDev :=
  { d with encryptionInfo := { d.encryptionInfo with clevisInfo := none } }

def setKeyDesc (keyDesc : String) (d : SimDev) : SimDev :=
  { d with encryptionInfo := { d.encryptionInfo with keyDescription := some keyDesc } }

def unsetKeyDesc (d : SimDev) : SimDev :=
  { d with encryptionInfo := { d.encryptionInfo with keyDescription := none } }

end SimDev

structure SimPool where
  /-- The devices of the data tier. -/
  blockDevs : List SimDev
  filesystems : List FilesystemUuid
  deriving DecidableEq

namespace SimPool

abbrev M := Stateful SimPool StratisError

/-- Each path is for one device. -/
def new (paths : List String) (encInfo : EncryptionInfo) : SimPool :=
  ⟨paths.eraseDups.map fun path => ⟨path, encInfo⟩, []⟩

def hasFilesystems (p : SimPool) : Bool := !p.filesystems.isEmpty

def devnodes (p : SimPool) : List String := p.blockDevs.map (·.devnode)

/-- What is known of one device is taken for all. -/
def encryptionInfo : M EncryptionInfo := do
  let p ← Stateful.get
  match p.blockDevs with
  | d :: _ => pure d.encryptionInfo
  | [] => Stateful.lift .panic

def changeDevs (f : SimDev → SimDev) : M Unit :=
  Stateful.modify fun p => { p with blockDevs := p.blockDevs.map f }

def notEncrypted : StratisError := .msg "Requested pool does not appear to be encrypted"

def bindClevis (pin : String) (clevisInfo : Value) : M Action := do
  let info ← encryptionInfo
  if info.isEncrypted then
    match info.clevisInfo with
    | some (currentPin, currentInfo) =>
      if (currentPin, currentInfo) = (pin, clevisInfo) then pure .identity
      else Stateful.lift (.err (.msg
        (s!"This pool is already bound with clevis pin {currentPin} and config " ++
          s!"{currentInfo.display};\n                            " ++
          s!"this differs from the requested pin {pin} and config {clevisInfo.display}")))
    | none => do
      changeDevs (SimDev.setClevisInfo pin clevisInfo)
      pure .created
  else Stateful.lift (.err notEncrypted)

def unbindClevis : M Action := do
  let info ← encryptionInfo
  if info.keyDescription.isNone then
    Stateful.lift (.err (.msg
      ("This device is not bound to a keyring passphrase; refusing to remove the only " ++
        "unlocking method")))
  else if info.isEncrypted then
    if info.clevisInfo.isSome then do
      changeDevs SimDev.unsetClevisInfo
      pure .deleted
    else pure .identity
  else Stateful.lift (.err notEncrypted)

def bindKeyring (keyDescription : String) : M Action := do
  let info ← encryptionInfo
  if info.isEncrypted then
    match info.keyDescription with
    | some kd =>
      if keyDescription = kd then pure .identity
      else Stateful.lift (.err (.msg
        (s!"This pool is already bound with key description {kd};\n                            " ++
          s!"this differs from the requested key description {keyDescription}")))
    | none => do
      changeDevs (SimDev.setKeyDesc keyDescription)
      pure .created
  else Stateful.lift (.err notEncrypted)

def unbindKeyring : M Action := do
  let info ← encryptionInfo
  if info.clevisInfo.isNone then
    Stateful.lift (.err (.msg
      "This device is not bound to Clevis; refusing to remove the only unlocking method"))
  else if info.isEncrypted then
    if info.keyDescription.isSome then do
      changeDevs SimDev.unsetKeyDesc
      pure .deleted
    else pure .identity
  else Stateful.lift (.err notEncrypted)

def rebindKeyring (newKeyDesc : String) : M Action := do
  let info ← encryptionInfo
  if info.keyDescription.isNone then
    Stateful.lift (.err (.msg
      "This device is not bound to a keyring passphrase; cannot change the passphrase"))
  else if info.isEncrypted then
    if info.keyDescription ≠ some newKeyDesc then do
      changeDevs (SimDev.setKeyDesc newKeyDesc)
      pure .renamed
    else pure .identity
  else Stateful.lift (.err notEncrypted)

/-- There is no token, so nothing changes. -/
def rebindClevis : M Action := do
  let info ← encryptionInfo
  if info.clevisInfo.isNone then
    Stateful.lift (.err (.msg "This device is not bound to Clevis; cannot regenerate bindings"))
  else if info.isEncrypted then
    if info.clevisInfo.isSome then pure .regenerated
    else Stateful.lift (.err (.msg "Requested pool does not appear to have Clevis bindings"))
  else Stateful.lift (.err notEncrypted)

end SimPool

def simulate : Request → SimPool.M Action
  | .bindClevis pin clevisInfo => SimPool.bindClevis pin clevisInfo
  | .unbindClevis => SimPool.unbindClevis
  | .bindKeyring keyDesc => SimPool.bindKeyring keyDesc
  | .unbindKeyring => SimPool.unbindKeyring
  | .rebindKeyring keyDesc => SimPool.rebindKeyring keyDesc
  | .rebindClevis => SimPool.rebindClevis

/-! ### The engine -/

structure SimEngine where
  pools : Table PoolUuid SimPool
  /-- The descriptions of the keys that have been set. -/
  keyHandler : List String

namespace SimEngine

abbrev M := Stateful SimEngine StratisError

/-- Put a pool into the table. What it displaces is dropped. -/
def insertPool (name : String) (uuid : PoolUuid) (pool : SimPool) : M Unit := do
  let e ← Stateful.get
  let r ← Stateful.lift (e.pools.insert name uuid pool)
  Stateful.modify fun e => { e with pools := r.1 }

/-- A key that is asked for has to be there. -/
def checkKey (keyHandler : List String) : Option String → StratisResult Unit
  | some keyDesc =>
    if keyDesc ∈ keyHandler then .ok ()
    else .err (.msg s!"Key {keyDesc} was not found in the keyring")
  | none => .ok ()

/-- The UUID is the one that is generated for the pool. -/
def createPool (validateName : String → StratisResult Unit) (uuid : PoolUuid) (name : String)
    (paths : List String) (redundancy : Option ℕ) (encryptionInfo : EncryptionInfo) :
    M CreateAction := do
  Stateful.lift (StratEngine.calculateRedundancy redundancy)
  Stateful.lift (validateName name)
  Stateful.lift (StratPool.validatePaths paths)
  let e ← Stateful.get
  Stateful.lift (checkKey e.keyHandler encryptionInfo.keyDescription)
  match e.pools.getByName name with
  | some (_, pool) =>
    Stateful.lift (StratEngine.createPoolIdempotentOrErr name paths pool.devnodes)
  | none =>
    if paths = [] then
      Stateful.lift (.err (.msg "At least one blockdev is required to create a pool."))
    else do
      insertPool name uuid (SimPool.new paths encryptionInfo)
      pure (.created uuid)

def destroyPool (uuid : PoolUuid) : M DeleteAction := do
  let e ← Stateful.get
  match e.pools.getByUuid uuid with
  | none => pure .identity
  | some (_, pool) =>
    if pool.hasFilesystems then Stateful.lift (.err (.msg "filesystems remaining on pool"))
    else do
      let _ ← Stateful.lift (Outcome.expect (e.pools.removeByUuid uuid).2)
      Stateful.modify fun e => { e with pools := (e.pools.removeByUuid uuid).1 }
      pure (.deleted uuid)

-- The new name is not validated.
def renamePool (uuid : PoolUuid) (newName : String) : M RenameAction := do
  let e ← Stateful.get
  match e.pools.getByUuid uuid with
  | none => pure .noSource
  | some (oldName, _) =>
    if oldName = newName then pure .identity
    else if e.pools.containsName newName then Stateful.lift (.err (.msg newName))
    else do
      let removed ← Stateful.lift (Outcome.expect (e.pools.removeByUuid uuid).2)
      Stateful.modify fun e => { e with pools := (e.pools.removeByUuid uuid).1 }
      insertPool newName uuid removed.2
      pure (.renamed uuid)

/-- A call on one of the pools, if it is there. -/
def onPool {α : Type} (uuid : PoolUuid) (p : SimPool.M α) : M (Option α) := fun e =>
  match e.pools.getByUuid uuid with
  | none => (e, .ok none)
  | some (_, pool) =>
    ({ e with pools := e.pools.setByUuid uuid (p pool).1 }, (p pool).2 >>= fun a => .ok (some a))

end SimEngine

/-! ### What becomes of the bindings -/

/-- All devices are known to be encrypted in the same way. -/
def Uniform (info : EncryptionInfo) (known : List EncryptionInfo) : Prop :=
  known ≠ [] ∧ ∀ i ∈ known, i = info

/-- What a request makes of the bindings of a pool, if it is not refused. -/
def effect (info : EncryptionInfo) : Request → Option (EncryptionInfo × Action)
  | .bindClevis pin config =>
    if info.isEncrypted then
      match info.clevisInfo with
      | some known => if known = (pin, config) then some (info, .identity) else none
      | none => some (⟨info.keyDescription, some (pin, config)⟩, .created)
    else none
  | .unbindClevis =>
    match info.keyDescription, info.clevisInfo with
    | none, _ => none
    | some _, none => some (info, .identity)
    | some _, some _ => some (⟨info.keyDescription, none⟩, .deleted)
  | .bindKeyring keyDesc =>
    if info.isEncrypted then
      match info.keyDescription with
      | some known => if known = keyDesc then some (info, .identity) else none
      | none => some (⟨some keyDesc, info.clevisInfo⟩, .created)
    else none
  | .unbindKeyring =>
    match info.clevisInfo, info.keyDescription with
    | none, _ => none
    | some _, none => some (info, .identity)
    | some _, some _ => some (⟨none, info.clevisInfo⟩, .deleted)
  | .rebindKeyring keyDesc =>
    match info.keyDescription with
    | none => none
    | some known =>
      if known = keyDesc then some (info, .identity)
      else some (⟨some keyDesc, info.clevisInfo⟩, .renamed)
  | .rebindClevis => info.clevisInfo.map fun _ => (info, .regenerated)

/-- A call has done what the request is for, or has been refused and changed nothing. -/
def Follows (info : EncryptionInfo) (request : Request) (info' : EncryptionInfo)
    (answer : StratisResult Action) : Prop :=
  match effect info request with
  | some (next, action) => info' = next ∧ answer = .ok action
  | none => info' = info ∧ ∃ e, answer = .err e

namespace SimPool

variable {q : SimPool} {info : EncryptionInfo}

def known (q : SimPool) : List EncryptionInfo := q.blockDevs.map (·.encryptionInfo)

/-- A pool with other bindings. -/
structure Rebound (q q' : SimPool) (info : EncryptionInfo) : Prop where
  uniform : Uniform info q'.known
  devnodes : q'.devnodes = q.devnodes
  filesystems : q'.filesystems = q.filesystems

theorem Rebound.refl (h : Uniform info q.known) : Rebound q q info := ⟨h, rfl, rfl⟩

theorem rebound_changeDevs (h : Uniform info q.known) {f : SimDev → SimDev}
    {g : EncryptionInfo → EncryptionInfo} (hnode : ∀ d, (f d).devnode = d.devnode)
    (hinfo : ∀ d, (f d).encryptionInfo = g d.encryptionInfo) :
    Rebound q (changeDevs f q).1 (g info) := by
  have hknown : (changeDevs f q).1.known = q.known.map g := by
    simp only [changeDevs, known, modify_apply, List.map_map]
    exact List.map_congr_left fun d _ => hinfo d
  have hnodes : (changeDevs f q).1.devnodes = q.devnodes := by
    simp only [changeDevs, devnodes, modify_apply, List.map_map]
    exact List.map_congr_left fun d _ => hnode d
  refine ⟨⟨?_, ?_⟩, hnodes, rfl⟩
  · rw [hknown]
    exact fun hnil => h.1 (List.map_eq_nil_iff.mp hnil)
  · rw [hknown]
    intro i hi
    obtain ⟨j, hj, rfl⟩ := List.mem_map.mp hi
    rw [h.2 j hj]

theorem encryptionInfo_apply (h : Uniform info q.known) : encryptionInfo q = (q, .ok info) := by
  obtain ⟨blockDevs, filesystems⟩ := q
  cases blockDevs with
  | nil => exact absurd rfl h.1
  | cons d ds =>
    have hd : d.encryptionInfo = info := h.2 _ List.mem_cons_self
    exact Prod.ext rfl (congrArg Outcome.ok hd)

end SimPool

theorem Follows.of_some {info next : EncryptionInfo} {request : Request} {action : Action}
    (h : effect info request = some (next, action)) : Follows info request next (.ok action) := by
  rw [Follows, h]
  exact ⟨rfl, rfl⟩

theorem Follows.of_none {info : EncryptionInfo} {request : Request}
    (h : effect info request = none) (e : StratisError) : Follows info request info (.err e) := by
  rw [Follows, h]
  exact ⟨rfl, e, rfl⟩

/-- The simulated pool has done what the request is for. -/
def Simulates (q : SimPool) (info : EncryptionInfo) (request : Request) : Prop :=
  ∃ info', SimPool.Rebound q (simulate request q).1 info' ∧
    Follows info request info' (simulate request q).2

section simulates

variable {q : SimPool} {key : Option String} {clevis : Option (String × Value)}

theorem simulates_bindClevis (h : Uniform ⟨key, clevis⟩ q.known) (pin : String) (config : Value) :
    Simulates q ⟨key, clevis⟩ (.bindClevis pin config) := by
  rw [Simulates, simulate, SimPool.bindClevis, bind_of_eq (SimPool.encryptionInfo_apply h)]
  by_cases henc : EncryptionInfo.isEncrypted ⟨key, clevis⟩
  · rw [if_pos henc]
    cases clevis with
    | none =>
      exact ⟨_, SimPool.rebound_changeDevs h (g := fun i => ⟨i.keyDescription, some (pin, config)⟩)
        (fun _ => rfl) fun _ => rfl, .of_some (by simp [effect, henc])⟩
    | some known =>
      by_cases hk : known = (pin, config)
      · simp only [if_pos hk]
        subst hk
        exact ⟨_, .refl h, .of_some (by simp [effect, henc])⟩
      · simp only [if_neg hk]
        exact ⟨_, .refl h, .of_none (by simp [effect, hk]) _⟩
  · rw [if_neg henc]
    exact ⟨_, .refl h, .of_none (by simp [effect, henc]) _⟩

theorem simulates_unbindClevis (h : Uniform ⟨key, clevis⟩ q.known) :
    Simulates q ⟨key, clevis⟩ .unbindClevis := by
  rw [Simulates, simulate, SimPool.unbindClevis,
    bind_of_eq (SimPool.encryptionInfo_apply h)]
  cases key with
  | none => exact ⟨_, .refl h, .of_none rfl _⟩
  | some kd =>
    cases clevis with
    | none => exact ⟨_, .refl h, .of_some rfl⟩
    | some known =>
      exact ⟨_, SimPool.rebound_changeDevs h (g := fun i => ⟨i.keyDescription, none⟩)
        (fun _ => rfl) fun _ => rfl, .of_some rfl⟩

theorem simulates_bindKeyring (h : Uniform ⟨key, clevis⟩ q.known) (keyDesc : String) :
    Simulates q ⟨key, clevis⟩ (.bindKeyring keyDesc) := by
  rw [Simulates, simulate, SimPool.bindKeyring, bind_of_eq (SimPool.encryptionInfo_apply h)]
  by_cases henc : EncryptionInfo.isEncrypted ⟨key, clevis⟩
  · rw [if_pos henc]
    cases key with
    | none =>
      exact ⟨_, SimPool.rebound_changeDevs h (g := fun i => ⟨some keyDesc, i.clevisInfo⟩)
        (fun _ => rfl) fun _ => rfl, .of_some (by simp [effect, henc])⟩
    | some kd =>
      by_cases hk : keyDesc = kd
      · simp only [if_pos hk]
        exact ⟨_, .refl h, .of_some (by simp [effect, henc, hk])⟩
      · simp only [if_neg hk]
        exact ⟨_, .refl h, .of_none (by simp [effect, Ne.symm hk]) _⟩
  · rw [if_neg henc]
    exact ⟨_, .refl h, .of_none (by simp [effect, henc]) _⟩

theorem simulates_unbindKeyring (h : Uniform ⟨key, clevis⟩ q.known) :
    Simulates q ⟨key, clevis⟩ .unbindKeyring := by
  rw [Simulates, simulate, SimPool.unbindKeyring,
    bind_of_eq (SimPool.encryptionInfo_apply h)]
  cases clevis with
  | none => exact ⟨_, .refl h, .of_none rfl _⟩
  | some known =>
    cases key with
    | none => exact ⟨_, .refl h, .of_some rfl⟩
    | some kd =>
      exact ⟨_, SimPool.rebound_changeDevs h (g := fun i => ⟨none, i.clevisInfo⟩)
        (fun _ => rfl) fun _ => rfl, .of_some rfl⟩

theorem simulates_rebindKeyring (h : Uniform ⟨key, clevis⟩ q.known) (keyDesc : String) :
    Simulates q ⟨key, clevis⟩ (.rebindKeyring keyDesc) := by
  rw [Simulates, simulate, SimPool.rebindKeyring,
    bind_of_eq (SimPool.encryptionInfo_apply h)]
  cases key with
  | none => exact ⟨_, .refl h, .of_none rfl _⟩
  | some kd =>
    by_cases hk : kd = keyDesc
    · subst hk
      simp only [ne_eq, not_true_eq_false, if_false]
      exact ⟨_, .refl h, .of_some (by simp [effect])⟩
    · have hne : some kd ≠ some keyDesc := fun heq => hk (Option.some.inj heq)
      simp only [if_pos hne]
      exact ⟨_, SimPool.rebound_changeDevs h (g := fun i => ⟨some keyDesc, i.clevisInfo⟩)
        (fun _ => rfl) fun _ => rfl, .of_some (by simp [effect, hk])⟩

theorem simulates_rebindClevis (h : Uniform ⟨key, clevis⟩ q.known) :
    Simulates q ⟨key, clevis⟩ .rebindClevis := by
  rw [Simulates, simulate, SimPool.rebindClevis,
    bind_of_eq (SimPool.encryptionInfo_apply h)]
  cases clevis with
  | none => exact ⟨_, .refl h, .of_none rfl _⟩
  | some known =>
    have henc : EncryptionInfo.isEncrypted ⟨key, some known⟩ = true := by
      simp [EncryptionInfo.isEncrypted]
    simp only [henc]
    exact ⟨_, .refl h, .of_some rfl⟩

end simulates

theorem simulate_follows {q : SimPool} {info : EncryptionInfo} (h : Uniform info q.known)
    (request : Request) : Simulates q info request := by
  cases request with
  | bindClevis pin config => exact simulates_bindClevis h pin config
  | unbindClevis => exact simulates_unbindClevis h
  | bindKeyring keyDesc => exact simulates_bindKeyring h keyDesc
  | unbindKeyring => exact simulates_unbindKeyring h
  | rebindKeyring keyDesc => exact simulates_rebindKeyring h keyDesc
  | rebindClevis => exact simulates_rebindClevis h

end Stratisd.Sim
