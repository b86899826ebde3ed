import Stratisd.Liminal.DeviceSetSpec
import Stratisd.Liminal.LiminalSpec
import Stratisd.Pool.Assembly

/-! Devices of a pool that is not set up come and go again. They are forgotten exactly if no
LUKS2 device goes before the Stratis device that is opened on top of it. -/

namespace Stratisd.Liminal

open Run Engine Pool List

/-! ### Removing devices from a set -/

namespace DeviceSet

/-- The devices are removed one after the other. -/
def removeAll (s : DeviceSet) (infos : List DeviceInfo) : DeviceSet :=
  infos.foldl processInfoRemove s

/-- The two are not of the same kind and of the same UUID. -/
def Separate (x y : DeviceInfo) : Prop :=
  (∀ a b, x = .stratis a → y = .stratis b → a.identifiers.deviceUuid ≠ b.identifiers.deviceUuid) ∧
    ∀ a b, x = .luks a → y = .luks b →
      a.info.identifiers.deviceUuid ≠ b.info.identifiers.deviceUuid

/-- The second is not the Stratis device on top of the first. -/
def NotUnder (x y : DeviceInfo) : Prop :=
  ∀ a b, x = .luks a → y = .stratis b → a.info.identifiers.deviceUuid ≠ b.identifiers.deviceUuid

/-- Each of the devices goes when the Stratis device on top of it, if there is one, has gone.
Those that are known besides them stay. -/
def GoAfter (infos known : List DeviceInfo) : Prop :=
  infos.Pairwise NotUnder ∧ ∀ x ∈ infos, ∀ y ∈ known, NotUnder x y

variable {infos known : List DeviceInfo}

theorem goAfter_cons {x : DeviceInfo} :
    GoAfter (x :: infos) known ↔ (∀ y ∈ infos ++ known, NotUnder x y) ∧ GoAfter infos known := by
  simp only [GoAfter, pairwise_cons, forall_mem_cons, forall_mem_append]
  tauto

/-- Every layer of the set is one of the devices. -/
structure Within (s : DeviceSet) (infos : List DeviceInfo) : Prop where
  logical : ∀ v i, s.logical v = some i → .stratis i ∈ infos ∧ i.identifiers.deviceUuid = v
  physical : ∀ v i, s.physical v = some i →
    ofPhysical i ∈ infos ∧ i.ids.identifiers.deviceUuid = v

/-- Every one of the devices is a layer of the set. -/
structure Covers (s : DeviceSet) (infos : List DeviceInfo) : Prop where
  logical : ∀ i, .stratis i ∈ infos → s.logical i.identifiers.deviceUuid = some i
  physical : ∀ i, .luks i ∈ infos → s.physical i.info.identifiers.deviceUuid = some (.ofLuksInfo i)

instance : Std.Symm Separate where
  symm _ _ h := ⟨fun a b hx hy he => h.1 b a hy hx he.symm,
    fun a b hx hy he => h.2 b a hy hx he.symm⟩

theorem stratis_unique (hs : infos.Pairwise Separate) {a b : StratisInfo}
    (ha : .stratis a ∈ infos) (hb : .stratis b ∈ infos)
    (h : a.identifiers.deviceUuid = b.identifiers.deviceUuid) : a = b := by
  by_contra hne
  exact (hs.forall ha hb (by simpa using hne)).1 a b rfl rfl h

theorem luks_unique (hs : infos.Pairwise Separate) {a b : LuksInfo} (ha : .luks a ∈ infos)
    (hb : .luks b ∈ infos) (h : a.info.identifiers.deviceUuid = b.info.identifiers.deviceUuid) :
    a = b := by
  by_contra hne
  exact (hs.forall ha hb (by simpa using hne)).2 a b rfl rfl h

variable {s : DeviceSet}

theorem Gathers.within (hg : s.Gathers infos) :
    s.Within infos := ⟨hg.logical_mem, hg.physical_mem⟩

theorem Gathers.covers (hg : s.Gathers infos) (hs : infos.Pairwise Separate) : s.Covers infos where
  logical := by
    intro i hi
    obtain ⟨j, hj⟩ := hg.logical_some i hi
    obtain ⟨hm, hu⟩ := hg.logical_mem _ j hj
    rw [hj, stratis_unique hs hm hi hu]
  physical := by
    intro i hi
    obtain ⟨j, hj⟩ := hg.physical_some (.ofLuksInfo i) hi
    obtain ⟨hm, hu⟩ := hg.physical_mem _ j hj
    have hij := luks_unique hs hm hi hu
    rw [← hij]
    rw [← hij] at hj
    exact hj

theorem Within.remove {x : DeviceInfo} (h : s.Within (x :: infos))
    (hs : (x :: infos).Pairwise Separate) (hu : ∀ y ∈ infos, NotUnder x y) :
    (s.processInfoRemove x).Within infos := by
  cases x with
  | stratis b =>
    constructor
    · intro v i hi
      rw [(layers_remove_stratis s b v).1] at hi
      split_ifs at hi with hv
      obtain ⟨hm, rfl⟩ := h.logical v i hi
      refine ⟨(mem_cons.mp hm).resolve_left ?_, rfl⟩
      rintro ⟨rfl⟩
      exact hv ⟨rfl, by rw [hi]; rfl⟩
    · intro v i hi
      rw [(layers_remove_stratis s b v).2] at hi
      obtain ⟨hm, hu⟩ := h.physical v i hi
      exact ⟨(mem_cons.mp hm).resolve_left (by simp [ofPhysical]), hu⟩
  | luks a =>
    constructor
    · intro v i hi
      rw [(layers_remove_luks s a v).1] at hi
      obtain ⟨hm, hu⟩ := h.logical v i hi
      exact ⟨(mem_cons.mp hm).resolve_left (by simp), hu⟩
    · intro v i hi
      rw [(layers_remove_luks s a v).2] at hi
      split_ifs at hi with hv
      obtain ⟨hm, rfl⟩ := h.physical v i hi
      refine ⟨(mem_cons.mp hm).resolve_left ?_, rfl⟩
      rintro ⟨rfl⟩
      -- the Stratis device on top, if there was one, has gone before
      refine hv ⟨rfl, ?_, by rw [hi]; rfl⟩
      cases hl : s.logical i.ids.identifiers.deviceUuid with
      | none => rfl
      | some b =>
        obtain ⟨hb, hbu⟩ := h.logical _ b hl
        exact absurd hbu.symm
          (hu _ ((mem_cons.mp hb).resolve_left (by simp)) _ b rfl rfl)

theorem Within.removeAll (h : s.Within (infos ++ known)) (hs : (infos ++ known).Pairwise Separate)
    (hu : GoAfter infos known) : (s.removeAll infos).Within known := by
  induction infos generalizing s with
  | nil => exact h
  | cons x infos ih =>
    obtain ⟨hx, hrest⟩ := goAfter_cons.mp hu
    exact ih (h.remove hs hx) (pairwise_cons.mp hs).2 hrest

theorem physical_removeAll {v : DevUuid} (infos : List DeviceInfo)
    (h : ∀ a, .luks a ∈ infos → a.info.identifiers.deviceUuid ≠ v) :
    (s.removeAll infos).physical v = s.physical v := by
  induction infos generalizing s with
  | nil => rfl
  | cons x infos ih =>
    have hx : (s.processInfoRemove x).physical v = s.physical v := by
      cases x with
      | stratis b => exact (layers_remove_stratis s b v).2
      | luks a =>
        rw [(layers_remove_luks s a v).2, if_neg]
        rintro ⟨rfl, -⟩
        exact h a mem_cons_self rfl
    rw [← hx]
    exact ih fun a ha => h a (mem_cons_of_mem _ ha)

theorem Covers.remove {x : DeviceInfo} (h : s.Covers (x :: infos))
    (hs : (x :: infos).Pairwise Separate) :
    (s.processInfoRemove x).Covers infos := by
  have hx := (pairwise_cons.mp hs).1
  cases x with
  | stratis b =>
    constructor
    · intro i hi
      rw [(layers_remove_stratis s b _).1, if_neg]
      · exact h.logical i (mem_cons_of_mem _ hi)
      · exact fun he => (hx _ hi).1 b i rfl rfl he.1.symm
    · intro i hi
      rw [(layers_remove_stratis s b _).2]
      exact h.physical i (mem_cons_of_mem _ hi)
  | luks a =>
    constructor
    · intro i hi
      rw [(layers_remove_luks s a _).1]
      exact h.logical i (mem_cons_of_mem _ hi)
    · intro i hi
      rw [(layers_remove_luks s a _).2, if_neg]
      · exact h.physical i (mem_cons_of_mem _ hi)
      · exact fun he => (hx _ hi).2 a i rfl rfl he.1.symm

theorem Covers.of_removeAll (h : s.Covers (infos ++ known))
    (hs : (infos ++ known).Pairwise Separate) :
    (s.removeAll infos).Covers known := by
  induction infos generalizing s with
  | nil => exact h
  | cons x infos ih => exact ih (h.remove hs) (pairwise_cons.mp hs).2

theorem Covers.gathers (h : s.Covers infos) (hw : s.Within infos) : s.Gathers infos :=
  ⟨hw.logical, hw.physical, fun i hi => ⟨i, h.logical i hi⟩, fun _ hi => ⟨_, h.physical _ hi⟩⟩

/-- A LUKS2 device that goes before the device on top of it stays in the set. -/
theorem Covers.removeAll (h : s.Covers (infos ++ known)) (hs : (infos ++ known).Pairwise Separate)
    (hu : ¬ GoAfter infos known) :
    ∃ a, .luks a ∈ infos ∧
      (s.removeAll infos).physical a.info.identifiers.deviceUuid = some (.ofLuksInfo a) := by
  induction infos generalizing s with
  | nil => exact absurd ⟨List.Pairwise.nil, by simp⟩ hu
  | cons x infos ih =>
    obtain ⟨hx, hs'⟩ := pairwise_cons.mp hs
    by_cases hlate : GoAfter infos known
    · -- so it is the first device that goes too early
      have hfirst : ∃ y ∈ infos ++ known, ¬ NotUnder x y := by
        by_contra hall
        push Not at hall
        exact hu (goAfter_cons.mpr ⟨hall, hlate⟩)
      obtain ⟨y, hy, hunder⟩ := hfirst
      simp only [NotUnder, not_forall, not_not] at hunder
      obtain ⟨a, b, rfl, rfl, hab⟩ := hunder
      refine ⟨a, mem_cons_self, ?_⟩
      change ((s.processInfoRemove (.luks a)).removeAll infos).physical _ = _
      rw [physical_removeAll infos fun c hc he =>
          (hx _ (mem_append_left _ hc)).2 a c rfl rfl he.symm,
        (layers_remove_luks s a _).2, if_neg]
      · exact h.physical a mem_cons_self
      · rintro ⟨-, hnone, -⟩
        rw [hab, h.logical b (mem_cons_of_mem _ hy)] at hnone
        cases hnone
    · obtain ⟨a, ha, hstays⟩ := ih (h.remove hs) hs' hlate
      exact ⟨a, mem_cons_of_mem _ ha, hstays⟩

end DeviceSet

/-! ### Device numbers -/

def DeviceInfo.deviceNumber : DeviceInfo → Device
  | .luks info => info.info.deviceNumber
  | .stratis info => info.deviceNumber

/-- The entry is about a device with that number. -/
def LInfo.Mentions : LInfo → Device → Prop
  | .stratis info, n =>
    info.ids.deviceNumber = n ∨ ∃ luks, info.luks = some luks ∧ luks.ids.deviceNumber = n
  | .luks info, n => info.ids.deviceNumber = n

theorem LInfo.mentions_iff {a : LInfo} {n : Device} :
    a.Mentions n ↔ (∃ i, a.logical = some i ∧ i.deviceNumber = n) ∨
      ∃ i, a.physical = some i ∧ i.ids.deviceNumber = n := by
  cases a <;> simp [LInfo.Mentions, LInfo.logical, LInfo.physical]

/-! ### Events of a pool that stays down -/

namespace LiminalDevices

open DeviceSet

variable (overflowChecks : Bool)

def evaluateStep (pools : Table PoolUuid StratPool) (l : LiminalDevices)
    (i : SetupEnv × UdevEngineEvent) :
    LiminalDevices × StratisResult (Option (PoolUuid × String × StratPool)) :=
  blockEvaluate overflowChecks i.1 pools i.2 l

/-- If an attempt to set up the pool is made with an opened set, it ends as errored. -/
def StaysDown (pools : Table PoolUuid StratPool) (poolUuid : PoolUuid) (l : LiminalDevices)
    (i : SetupEnv × UdevEngineEvent) : Prop :=
  ∀ devices opened, l.tried i.2 = some devices → devices.asOpenedSet = some opened →
    setupPool overflowChecks i.1 pools poolUuid opened = .err .errored

/-- The devices known of the pool are `s`, and the other pools are as they were. -/
structure Holding (pools : Table PoolUuid StratPool) (start : LiminalDevices)
    (poolUuid : PoolUuid) (s : DeviceSet) (l : LiminalDevices) : Prop where
  down : pools.getByUuid poolUuid = none
  hopeless : l.hopelessDeviceSets.lookup poolUuid = none
  devices : l.devicesOf poolUuid = s
  others : ∀ u, u ≠ poolUuid →
    l.erroredPoolDevices.lookup u = start.erroredPoolDevices.lookup u ∧
      l.hopelessDeviceSets.lookup u = start.hopelessDeviceSets.lookup u

section Steps

variable {overflowChecks} {pools : Table PoolUuid StratPool} {start l : LiminalDevices}
  {poolUuid : PoolUuid} {s t : DeviceSet} {env : SetupEnv} {info : DeviceInfo}

theorem trySetupPool_errored (hu : Unknown pools l poolUuid)
    (h : ∀ opened, s.asOpenedSet = some opened →
      setupPool overflowChecks env pools poolUuid opened = .err .errored) :
    setupDevices overflowChecks env pools poolUuid s l = (l.insertErrored poolUuid s, .ok none) := by
  have htry : trySetupPool overflowChecks env pools poolUuid s l =
      (l.insertErrored poolUuid s, .ok none) := by
    unfold trySetupPool
    rw [if_neg (by simp [hu.1, hu.2.1, hu.2.2])]
    cases hs : s.asOpenedSet with
    | none => rfl
    | some opened => simp only [h opened hs]
  exact Stateful.bind_of_eq htry _

theorem Holding.put (h : Holding pools start poolUuid s l) (t : DeviceSet) :
    Holding pools start poolUuid t ((l.removeErrored poolUuid).insertErrored poolUuid t) where
  down := h.down
  hopeless := h.hopeless
  devices := by simp [devicesOf, insertErrored]
  others := by
    intro u hu
    simp only [insertErrored, removeErrored, AList.lookup_insert_ne hu, AList.lookup_erase_ne hu]
    exact h.others u hu

theorem Holding.added (h : Holding pools start poolUuid s l)
    (hp : info.stratisIdentifiers.poolUuid = poolUuid) (ht : s.processInfoAdd info = .ok t)
    (hd : StaysDown overflowChecks pools poolUuid l (env, ⟨.add, some info⟩)) :
    ∃ l', evaluateStep overflowChecks pools l (env, ⟨.add, some info⟩) = (l', .ok none) ∧
      Holding pools start poolUuid t l' := by
  subst hp
  refine ⟨_, ?_, h.put t⟩
  have hset : l.devicesOf info.stratisIdentifiers.poolUuid = s := h.devices
  unfold devicesOf at hset
  have hopened : ∀ opened, t.asOpenedSet = some opened →
      setupPool overflowChecks env pools info.stratisIdentifiers.poolUuid opened =
        .err .errored := fun opened ho =>
    hd t opened (by simp [tried, h.hopeless, h.devices, ht]) ho
  simp only [evaluateStep, blockEvaluate, deviceAdded, h.down, h.hopeless, hset, ht]
  exact trySetupPool_errored (unknown_removeErrored h.down h.hopeless) hopened

theorem Holding.removed (h : Holding pools start poolUuid s l)
    (hp : info.stratisIdentifiers.poolUuid = poolUuid)
    (hd : StaysDown overflowChecks pools poolUuid l (env, ⟨.remove, some info⟩)) :
    ∃ l', evaluateStep overflowChecks pools l (env, ⟨.remove, some info⟩) = (l', .ok none) ∧
      Holding pools start poolUuid (s.processInfoRemove info) l' := by
  subst hp
  refine ⟨_, ?_, h.put _⟩
  have hset : l.devicesOf info.stratisIdentifiers.poolUuid = s := h.devices
  unfold devicesOf at hset
  have hopened : ∀ opened, (s.processInfoRemove info).asOpenedSet = some opened →
      setupPool overflowChecks env pools info.stratisIdentifiers.poolUuid opened =
        .err .errored := fun opened ho =>
    hd _ opened (by simp [tried, h.hopeless, h.devices]) ho
  simp only [evaluateStep, blockEvaluate, deviceRemoved, h.down, h.hopeless, hset]
  exact trySetupPool_errored (unknown_removeErrored h.down h.hopeless) hopened

/-- The pool is hopeless, with these devices, and everything else is as it was. -/
structure GivenUp (pools : Table PoolUuid StratPool) (start : LiminalDevices)
    (poolUuid : PoolUuid) (bag : Finset LInfo) (l : LiminalDevices) : Prop where
  down : pools.getByUuid poolUuid = none
  hopeless : l.hopelessDeviceSets.lookup poolUuid = some ⟨bag⟩
  errored : l.erroredPoolDevices = start.erroredPoolDevices
  others : ∀ u, u ≠ poolUuid →
    l.hopelessDeviceSets.lookup u = start.hopelessDeviceSets.lookup u

section Hopeless

variable {bag : Finset LInfo}

theorem GivenUp.put (h : GivenUp pools start poolUuid bag l) (bag' : Finset LInfo) :
    GivenUp pools start poolUuid bag' (l.insertHopeless poolUuid ⟨bag'⟩) where
  down := h.down
  hopeless := by simp [insertHopeless]
  errored := h.errored
  others := by
    intro u hu
    simp only [insertHopeless, AList.lookup_insert_ne hu]
    exact h.others u hu

theorem GivenUp.added (h : GivenUp pools start poolUuid bag l) (overflowChecks : Bool)
    (env : SetupEnv)
    (hp : info.stratisIdentifiers.poolUuid = poolUuid) :
    ∃ l', evaluateStep overflowChecks pools l (env, ⟨.add, some info⟩) = (l', .ok none) ∧
      GivenUp pools start poolUuid (insert (.ofDeviceInfo info) bag) l' := by
  subst hp
  refine ⟨_, ?_, h.put _⟩
  simp [evaluateStep, blockEvaluate, deviceAdded, h.down, h.hopeless]

theorem GivenUp.removed (h : GivenUp pools start poolUuid bag l) (overflowChecks : Bool)
    (env : SetupEnv)
    (hp : info.stratisIdentifiers.poolUuid = poolUuid) :
    ∃ l', evaluateStep overflowChecks pools l (env, ⟨.remove, some info⟩) = (l', .ok none) ∧
      GivenUp pools start poolUuid (bag.erase (.ofDeviceInfo info)) l' := by
  subst hp
  refine ⟨_, ?_, h.put _⟩
  simp [evaluateStep, blockEvaluate, deviceRemoved, h.down, h.hopeless]

end Hopeless

end Steps

/-! ### Runs -/

/-- Devices are there, each with what the system answers after its event. -/
def addEvents (infos : List (SetupEnv × DeviceInfo)) : List (SetupEnv × UdevEngineEvent) :=
  infos.map fun p => (p.1, ⟨.add, some p.2⟩)

/-- Devices have gone. -/
def removeEvents (infos : List (SetupEnv × DeviceInfo)) : List (SetupEnv × UdevEngineEvent) :=
  infos.map fun p => (p.1, ⟨.remove, some p.2⟩)

@[simp] theorem addEvents_cons (p : SetupEnv × DeviceInfo) (infos : List (SetupEnv × DeviceInfo)) :
    addEvents (p :: infos) = (p.1, ⟨.add, some p.2⟩) :: addEvents infos := rfl

@[simp] theorem removeEvents_cons (p : SetupEnv × DeviceInfo)
    (infos : List (SetupEnv × DeviceInfo)) :
    removeEvents (p :: infos) = (p.1, ⟨.remove, some p.2⟩) :: removeEvents infos := rfl

section Runs

variable {overflowChecks} {pools : Table PoolUuid StratPool} {start l : LiminalDevices}
  {poolUuid : PoolUuid} {s : DeviceSet} {infos : List (SetupEnv × DeviceInfo)}

theorem Holding.run_adds {seen : List DeviceInfo} (h : Holding pools start poolUuid s l)
    (hg : s.Gathers seen) (hp : ∀ i ∈ infos.map (·.2) ++ seen, i.stratisIdentifiers.poolUuid = poolUuid)
    (hn : ¬ Conflicting (infos.map (·.2) ++ seen))
    (hd : AllSteps (evaluateStep overflowChecks pools) (StaysDown overflowChecks pools poolUuid) l
      (addEvents infos)) :
    ∃ t, t.Gathers ((infos.map (·.2)).reverse ++ seen) ∧
      Holding pools start poolUuid t
        (run (evaluateStep overflowChecks pools) l (addEvents infos)).1 ∧
      ∀ o ∈ (run (evaluateStep overflowChecks pools) l (addEvents infos)).2, o.2 = .ok none := by
  induction infos generalizing l s seen with
  | nil => exact ⟨s, hg, h, by simp [addEvents]⟩
  | cons p infos ih =>
    obtain ⟨env, info⟩ := p
    have hmem : ∀ i ∈ infos.map (·.2) ++ info :: seen, i ∈ ((env, info) :: infos).map (·.2) ++ seen := by
      intro i hi
      simp only [map_cons, mem_append, mem_cons] at hi ⊢
      tauto
    have hp' : ∀ i ∈ info :: seen, i.stratisIdentifiers.poolUuid = poolUuid := fun i hi =>
      hp i (hmem i (mem_append_right _ hi))
    have hc : ∀ a ∈ seen, ¬ Conflict a info := fun a ha hc =>
      hn ⟨a, mem_append_right _ ha, info, by simp, hc⟩
    obtain ⟨t, ht, hgt⟩ := hg.add hp' hc
    obtain ⟨l', hstep, hl'⟩ := h.added (hp info (by simp)) ht hd.1
    have hd' := hd.2
    simp only [hstep] at hd'
    obtain ⟨t', hgt', hhold, hout⟩ := ih hl' hgt (fun i hi => hp i (hmem i hi))
      (fun hc' => hn (conflicting_of_subset hmem hc')) hd'
    simp only [addEvents_cons, run_cons, hstep]
    refine ⟨t', by simpa using hgt', hhold, ?_⟩
    simpa using hout

theorem Holding.run_removes (h : Holding pools start poolUuid s l)
    (hp : ∀ p ∈ infos, p.2.stratisIdentifiers.poolUuid = poolUuid)
    (hd : AllSteps (evaluateStep overflowChecks pools) (StaysDown overflowChecks pools poolUuid) l
      (removeEvents infos)) :
    Holding pools start poolUuid (s.removeAll (infos.map (·.2)))
        (run (evaluateStep overflowChecks pools) l (removeEvents infos)).1 ∧
      ∀ o ∈ (run (evaluateStep overflowChecks pools) l (removeEvents infos)).2,
        o.2 = .ok none := by
  induction infos generalizing l s with
  | nil => exact ⟨h, by simp [removeEvents]⟩
  | cons p infos ih =>
    obtain ⟨env, info⟩ := p
    obtain ⟨l', hstep, hl'⟩ := h.removed (hp _ mem_cons_self) hd.1
    have hd' := hd.2
    simp only [hstep] at hd'
    obtain ⟨hhold, hout⟩ := ih hl' (fun p hp' => hp p (mem_cons_of_mem _ hp')) hd'
    simp only [removeEvents_cons, run_cons, hstep]
    exact ⟨hhold, by simpa using hout⟩

/-- A hopeless pool takes in what is added. -/
theorem GivenUp.run_adds {bag : Finset LInfo} (h : GivenUp pools start poolUuid bag l)
    (hp : ∀ p ∈ infos, p.2.stratisIdentifiers.poolUuid = poolUuid) :
    (∃ bag', GivenUp pools start poolUuid bag'
        (run (evaluateStep overflowChecks pools) l (addEvents infos)).1 ∧
      ∀ a ∈ bag', a ∈ bag ∨ ∃ p ∈ infos, a = .ofDeviceInfo p.2) ∧
      ∀ o ∈ (run (evaluateStep overflowChecks pools) l (addEvents infos)).2, o.2 = .ok none := by
  induction infos generalizing l bag with
  | nil => exact ⟨⟨bag, h, fun a ha => .inl ha⟩, by simp [addEvents]⟩
  | cons p infos ih =>
    obtain ⟨env, info⟩ := p
    obtain ⟨l', hstep, hl'⟩ := h.added overflowChecks env (hp _ mem_cons_self)
    obtain ⟨⟨bag', hbag', hmem⟩, hout⟩ := ih hl' fun p hp' => hp p (mem_cons_of_mem _ hp')
    simp only [addEvents_cons, run_cons, hstep]
    refine ⟨⟨bag', hbag', fun a ha => ?_⟩, by simpa using hout⟩
    rcases hmem a ha with hb | ⟨q, hq, rfl⟩
    · rcases Finset.mem_insert.mp hb with rfl | hb
      · exact .inr ⟨_, mem_cons_self, rfl⟩
      · exact .inl hb
    · exact .inr ⟨q, mem_cons_of_mem _ hq, rfl⟩

/-- A hopeless pool forgets what is removed as it was added. -/
theorem GivenUp.run_removes {bag : Finset LInfo} (h : GivenUp pools start poolUuid bag l)
    (hp : ∀ p ∈ infos, p.2.stratisIdentifiers.poolUuid = poolUuid) :
    (∃ bag', GivenUp pools start poolUuid bag'
        (run (evaluateStep overflowChecks pools) l (removeEvents infos)).1 ∧
      ∀ a ∈ bag', a ∈ bag ∧ ∀ p ∈ infos, a ≠ .ofDeviceInfo p.2) ∧
      ∀ o ∈ (run (evaluateStep overflowChecks pools) l (removeEvents infos)).2,
        o.2 = .ok none := by
  induction infos generalizing l bag with
  | nil => exact ⟨⟨bag, h, fun a ha => ⟨ha, by simp⟩⟩, by simp [removeEvents]⟩
  | cons p infos ih =>
    obtain ⟨env, info⟩ := p
    obtain ⟨l', hstep, hl'⟩ := h.removed overflowChecks env (hp _ mem_cons_self)
    obtain ⟨⟨bag', hbag', hmem⟩, hout⟩ := ih hl' fun p hp' => hp p (mem_cons_of_mem _ hp')
    simp only [removeEvents_cons, run_cons, hstep]
    refine ⟨⟨bag', hbag', fun a ha => ?_⟩, by simpa using hout⟩
    obtain ⟨hne, hb⟩ := Finset.mem_erase.mp (hmem a ha).1
    exact ⟨hb, forall_mem_cons.mpr ⟨hne, (hmem a ha).2⟩⟩

end Runs

/-! ### What is remembered of a device number -/

/-- Some set of devices has an entry about a device with that number. -/
def Mentions (l : LiminalDevices) (n : Device) : Prop :=
  (∃ u s, l.erroredPoolDevices.lookup u = some s ∧ ∃ a ∈ s.values, a.Mentions n) ∨
    ∃ u bag, l.hopelessDeviceSets.lookup u = some bag ∧ ∃ a ∈ bag.internal, a.Mentions n

section Forget

variable {overflowChecks} {pools : Table PoolUuid StratPool} {start l : LiminalDevices}
  {poolUuid : PoolUuid} {s : DeviceSet}

theorem mentions_of_values {a : LInfo} (ha : a ∈ (l.devicesOf poolUuid).values) {n : Device}
    (hn : a.Mentions n) : l.Mentions n := by
  cases hl : l.erroredPoolDevices.lookup poolUuid with
  | none =>
    simp only [devicesOf, hl, Option.getD_none] at ha
    exact absurd ha not_mem_nil
  | some t =>
    simp only [devicesOf, hl, Option.getD_some] at ha
    exact Or.inl ⟨poolUuid, t, hl, a, ha, hn⟩

theorem mentions_of_logical {v : DevUuid} {i : StratisInfo}
    (h : (l.devicesOf poolUuid).logical v = some i) : l.Mentions i.deviceNumber := by
  obtain ⟨a, ha, hai⟩ := Option.bind_eq_some_iff.mp h
  exact mentions_of_values (mem_values.mpr ⟨v, ha⟩) (LInfo.mentions_iff.mpr (.inl ⟨i, hai, rfl⟩))

theorem mentions_of_physical {v : DevUuid} {i : LLuksInfo}
    (h : (l.devicesOf poolUuid).physical v = some i) : l.Mentions i.ids.deviceNumber := by
  obtain ⟨a, ha, hai⟩ := Option.bind_eq_some_iff.mp h
  exact mentions_of_values (mem_values.mpr ⟨v, ha⟩) (LInfo.mentions_iff.mpr (.inr ⟨i, hai, rfl⟩))

theorem Holding.not_mentions {known : List DeviceInfo} (h : Holding pools start poolUuid s l)
    (hs : s.Within known) (hk : (start.devicesOf poolUuid).Covers known) {n : Device}
    (hn : ¬ start.Mentions n) : ¬ l.Mentions n := by
  have hvalues : ∀ a ∈ s.values, ¬ a.Mentions n := by
    intro a ha hm
    obtain ⟨v, hv⟩ := mem_values.mp ha
    rcases LInfo.mentions_iff.mp hm with ⟨i, hi, rfl⟩ | ⟨i, hi, rfl⟩
    · have hmem := (hs.logical v i ((logical_of_lookup hv).trans hi)).1
      exact hn (mentions_of_logical (hk.logical i hmem))
    · have hmem := (hs.physical v i ((physical_of_lookup hv).trans hi)).1
      exact hn (mentions_of_physical (hk.physical _ hmem))
  rintro (⟨u, t, ht, a, ha, hm⟩ | ⟨u, bag, hbag, a, ha, hm⟩)
  · by_cases hu : u = poolUuid
    · subst hu
      have hts : t = s := by rw [← h.devices]; simp [devicesOf, ht]
      exact hvalues a (hts ▸ ha) hm
    · rw [(h.others u hu).1] at ht
      exact hn (.inl ⟨u, t, ht, a, ha, hm⟩)
  · by_cases hu : u = poolUuid
    · subst hu
      rw [h.hopeless] at hbag
      cases hbag
    · rw [(h.others u hu).2] at hbag
      exact hn (.inr ⟨u, bag, hbag, a, ha, hm⟩)

theorem GivenUp.not_mentions {bag bag' : Finset LInfo} (h : GivenUp pools start poolUuid bag' l)
    (hstart : start.hopelessDeviceSets.lookup poolUuid = some ⟨bag⟩) (hsub : bag' ⊆ bag)
    {n : Device} (hn : ¬ start.Mentions n) : ¬ l.Mentions n := by
  rintro (⟨u, t, ht, a, ha, hm⟩ | ⟨u, b, hb, a, ha, hm⟩)
  · rw [h.errored] at ht
    exact hn (.inl ⟨u, t, ht, a, ha, hm⟩)
  · by_cases hu : u = poolUuid
    · subst hu
      rw [h.hopeless] at hb
      cases hb
      exact hn (.inr ⟨u, _, hstart, a, hsub ha, hm⟩)
    · rw [h.others u hu] at hb
      exact hn (.inr ⟨u, b, hb, a, ha, hm⟩)

section Main

variable {known infos : List DeviceInfo} {adds removes : List (SetupEnv × DeviceInfo)}

theorem GivenUp.run_adds_removes {bag : Finset LInfo} (h : GivenUp pools l poolUuid bag l)
    (hpa : ∀ p ∈ adds, p.2.stratisIdentifiers.poolUuid = poolUuid)
    (hpr : ∀ p ∈ removes, p.2.stratisIdentifiers.poolUuid = poolUuid)
    (hsub : adds.map (·.2) ⊆ removes.map (·.2)) :
    let r := run (evaluateStep overflowChecks pools) l (addEvents adds ++ removeEvents removes)
    (∀ o ∈ r.2, o.2 = .ok none) ∧ ∃ bag' ⊆ bag, GivenUp pools l poolUuid bag' r.1 := by
  intro r
  obtain ⟨⟨bag₁, h₁, hadded⟩, hout₁⟩ := h.run_adds hpa
  obtain ⟨⟨bag₂, h₂, hremoved⟩, hout₂⟩ := h₁.run_removes hpr
  simp only [r, run_append]
  refine ⟨fun o ho => (mem_append.mp ho).elim (hout₁ o) (hout₂ o), bag₂, fun a ha => ?_, h₂⟩
  refine (hadded a (hremoved a ha).1).resolve_right ?_
  rintro ⟨p, hp, rfl⟩
  obtain ⟨q, hq, hqp⟩ := mem_map.mp (hsub (mem_map_of_mem hp))
  exact (hremoved _ ha).2 q hq (by rw [hqp])

/-- The set of an errored pool after the devices have come and gone. -/
theorem Holding.run_adds_removes (h : Holding pools start poolUuid s l) (hg : s.Gathers known)
    (hp : ∀ i ∈ infos ++ known, i.stratisIdentifiers.poolUuid = poolUuid)
    (hn : ¬ Conflicting (infos ++ known))
    (ha : (adds.map (·.2)).Perm infos) (hr : (removes.map (·.2)).Perm infos)
    (hd : AllSteps (evaluateStep overflowChecks pools) (StaysDown overflowChecks pools poolUuid) l
      (addEvents adds ++ removeEvents removes)) :
    let r := run (evaluateStep overflowChecks pools) l (addEvents adds ++ removeEvents removes)
    (∀ o ∈ r.2, o.2 = .ok none) ∧ ∃ t : DeviceSet, t.Gathers (removes.map (·.2) ++ known) ∧
      Holding pools start poolUuid (t.removeAll (removes.map (·.2))) r.1 := by
  intro r
  obtain ⟨hda, hdr⟩ := (allSteps_append _).mp hd
  have hadds : ∀ i, i ∈ adds.map (·.2) ++ known ↔ i ∈ infos ++ known := by
    intro i
    rw [mem_append, ha.mem_iff, mem_append]
  obtain ⟨t, hgt, hhold, hout⟩ := h.run_adds hg (fun i hi => hp i ((hadds i).mp hi))
    (fun hc => hn (conflicting_of_subset (fun i hi => (hadds i).mp hi) hc)) hda
  have hpr : ∀ p ∈ removes, p.2.stratisIdentifiers.poolUuid = poolUuid := fun p hm =>
    hp _ (mem_append_left _ (hr.mem_iff.mp (mem_map_of_mem hm)))
  obtain ⟨hhold', hout'⟩ := hhold.run_removes hpr hdr
  have hmem : ∀ i, i ∈ (adds.map (·.2)).reverse ++ known ↔ i ∈ removes.map (·.2) ++ known := by
    intro i
    rw [mem_append, mem_append, mem_reverse, ha.mem_iff, hr.mem_iff]
  simp only [r, run_append]
  exact ⟨fun o ho => (mem_append.mp ho).elim (hout o) (hout' o), t, hgt.of_mem_iff hmem, hhold'⟩

/-- The devices of a pool that stays down are added in some order and then removed in some
order, while others are known. They are forgotten if and only if the pool was hopeless before or
no LUKS2 device is removed while the Stratis device on top of it is known. The set is then as
before: devices that go with those known never conflict with those forgotten. -/
theorem removal_forgets_iff (hdown : pools.getByUuid poolUuid = none)
    (hk : (l.devicesOf poolUuid).Gathers known)
    (hp : ∀ i ∈ infos ++ known, i.stratisIdentifiers.poolUuid = poolUuid)
    (hs : (infos ++ known).Pairwise Separate) (hn : ¬ Conflicting (infos ++ known))
    (hfresh : ∀ i ∈ infos, ¬ l.Mentions i.deviceNumber)
    (ha : (adds.map (·.2)).Perm infos) (hr : (removes.map (·.2)).Perm infos)
    (hd : AllSteps (evaluateStep overflowChecks pools) (StaysDown overflowChecks pools poolUuid) l
      (addEvents adds ++ removeEvents removes)) :
    let r := run (evaluateStep overflowChecks pools) l (addEvents adds ++ removeEvents removes)
    (∀ o ∈ r.2, o.2 = .ok none) ∧
      ((∀ i ∈ infos, ¬ r.1.Mentions i.deviceNumber) ↔
        (l.hopelessDeviceSets.lookup poolUuid).isSome ∨ GoAfter (removes.map (·.2)) known) ∧
      (l.hopelessDeviceSets.lookup poolUuid = none → GoAfter (removes.map (·.2)) known →
        ∀ again : List (SetupEnv × DeviceInfo),
          (∀ p ∈ again, p.2.stratisIdentifiers.poolUuid = poolUuid) →
          ¬ Conflicting (again.map (·.2) ++ known) →
          AllSteps (evaluateStep overflowChecks pools) (StaysDown overflowChecks pools poolUuid)
            r.1 (addEvents again) →
          (run (evaluateStep overflowChecks pools) r.1
            (addEvents again)).1.hopelessDeviceSets.lookup poolUuid = none) := by
  intro r
  have hpa : ∀ p ∈ adds, p.2.stratisIdentifiers.poolUuid = poolUuid := fun p hm =>
    hp _ (List.mem_append_left _ (ha.mem_iff.mp (List.mem_map_of_mem hm)))
  have hpr : ∀ p ∈ removes, p.2.stratisIdentifiers.poolUuid = poolUuid := fun p hm =>
    hp _ (List.mem_append_left _ (hr.mem_iff.mp (List.mem_map_of_mem hm)))
  cases hh : l.hopelessDeviceSets.lookup poolUuid with
  | some bag =>
    have hgiven : GivenUp pools l poolUuid bag.internal l := ⟨hdown, hh, rfl, fun _ _ => rfl⟩
    obtain ⟨hout, bag', hsub, hend⟩ := hgiven.run_adds_removes hpa hpr (ha.trans hr.symm).subset
    exact ⟨hout, iff_of_true (fun i hi => hend.not_mentions hh hsub (hfresh i hi)) (.inl rfl),
      by simp⟩
  | none =>
    have hhold : Holding pools l poolUuid (l.devicesOf poolUuid) l :=
      ⟨hdown, hh, rfl, fun _ _ => ⟨rfl, rfl⟩⟩
    obtain ⟨hout, t, hg, hend⟩ := hhold.run_adds_removes hk hp hn ha hr hd
    have hsr : (removes.map (·.2) ++ known).Pairwise Separate :=
      (hr.symm.append_right known).pairwise hs fun h => Std.Symm.symm _ _ h
    have hcovers := hk.covers (List.pairwise_append.mp hs).2.1
    refine ⟨hout, ?_, fun _ hafter again hpool hcon hdown' => ?_⟩
    · simp only [Option.isSome_none, Bool.false_eq_true, false_or]
      constructor
      · intro hforgot
        by_contra hafter
        obtain ⟨a, hmema, hstays⟩ := (hg.covers hsr).removeAll hsr hafter
        rw [← hend.devices] at hstays
        exact hforgot _ (hr.mem_iff.mp hmema) (mentions_of_physical hstays)
      · intro hafter i hi
        exact hend.not_mentions (hg.within.removeAll hsr hafter) hcovers (hfresh i hi)
    · have hagain := ((hg.covers hsr).of_removeAll hsr).gathers (hg.within.removeAll hsr hafter)
      have hpagain : ∀ i ∈ again.map (·.2) ++ known, i.stratisIdentifiers.poolUuid = poolUuid := by
        intro i hi
        rcases List.mem_append.mp hi with hi | hi
        · obtain ⟨p, hm, rfl⟩ := List.mem_map.mp hi
          exact hpool p hm
        · exact hp i (List.mem_append_right _ hi)
      obtain ⟨_, -, hheld, -⟩ := hend.run_adds hagain hpagain hcon hdown'
      exact hheld.hopeless

end Main

end Forget

/-! An encrypted device that is opened, in a system in which no BDA can be read. -/

def unreadable : SetupEnv where
  readBda _ := .err .io
  crc _ := 0
  fromSlice _ := none
  opens _ := true
  disk _ _ := none
  actualSize _ := .err .io
  cryptHandle _ := .ok none
  setup := smoothSetup (.ok ())

theorem staysDown_unreadable (pools : Table PoolUuid StratPool) (poolUuid : PoolUuid)
    (l : LiminalDevices) (event : UdevEngineEvent) :
    StaysDown overflowChecks pools poolUuid l (unreadable, event) := by
  intro _ opened _ _
  cases opened with
  | nil => rfl
  | cons p ps => rfl

theorem allSteps_unreadable (pools : Table PoolUuid StratPool) (poolUuid : PoolUuid)
    (l : LiminalDevices) (events : List UdevEngineEvent) :
    AllSteps (evaluateStep overflowChecks pools) (StaysDown overflowChecks pools poolUuid) l
      (events.map fun event => (unreadable, event)) := by
  induction events generalizing l with
  | nil => trivial
  | cons event events ih => exact ⟨staysDown_unreadable _ _ _ _ _, ih _⟩

def luksDevice (number : Device) : DeviceInfo :=
  .luks ⟨⟨⟨⟨1⟩, ⟨7⟩⟩, number, "/dev/sdb"⟩, ⟨some "key", none⟩⟩

def openedDevice (number : Device) : DeviceInfo :=
  .stratis ⟨⟨⟨1⟩, ⟨7⟩⟩, number, "/dev/dm-3"⟩

/-- The device is closed before it is taken away. -/
theorem removal_forgets_iff_closed_first :
    let devices := [(unreadable, luksDevice ⟨8, 16⟩), (unreadable, openedDevice ⟨253, 3⟩)]
    let r := run (evaluateStep true Table.default) LiminalDevices.default
      (addEvents devices ++ removeEvents devices.reverse)
    ¬ r.1.Mentions ⟨8, 16⟩ ∧ ¬ r.1.Mentions ⟨253, 3⟩ := by
  intro devices r
  let infos := [luksDevice ⟨8, 16⟩, openedDevice ⟨253, 3⟩]
  have hseparate : (infos ++ []).Pairwise Separate := by
    simp [infos, luksDevice, openedDevice, Separate]
  have hafter : GoAfter (devices.reverse.map (·.2)) [] := by
    simp [devices, luksDevice, openedDevice, GoAfter, NotUnder]
  have hnone : (LiminalDevices.default.devicesOf ⟨1⟩).Gathers [] := gathers_new
  have hdown : AllSteps (evaluateStep true Table.default) (StaysDown true Table.default ⟨1⟩)
      LiminalDevices.default (addEvents devices ++ removeEvents devices.reverse) :=
    allSteps_unreadable true _ _ _
      [⟨.add, some (luksDevice ⟨8, 16⟩)⟩, ⟨.add, some (openedDevice ⟨253, 3⟩)⟩,
        ⟨.remove, some (openedDevice ⟨253, 3⟩)⟩, ⟨.remove, some (luksDevice ⟨8, 16⟩)⟩]
  have hperm : (devices.map fun p => p.2).Perm infos := List.Perm.refl _
  have hperm' : (devices.reverse.map fun p => p.2).Perm infos := List.Perm.swap _ _ _
  have hforgot := (removal_forgets_iff rfl hnone (by decide) hseparate (by decide)
    (by simp [Mentions, LiminalDevices.default]) hperm hperm' hdown).2.1.mpr (.inr hafter)
  exact ⟨hforgot (luksDevice ⟨8, 16⟩) (by simp [infos]),
    hforgot (openedDevice ⟨253, 3⟩) (by simp [infos])⟩

/-- The device is taken away while it is open, and the device on top of it goes afterwards. The
LUKS2 device is still known, and when it comes back under another number the pool is
hopeless. -/
theorem removal_remembers_luks :
    let devices := [(unreadable, luksDevice ⟨8, 16⟩), (unreadable, openedDevice ⟨253, 3⟩)]
    let r := run (evaluateStep true Table.default) LiminalDevices.default
      (addEvents devices ++ removeEvents devices)
    r.1.Mentions ⟨8, 16⟩ ∧
      ((run (evaluateStep true Table.default) r.1
        (addEvents [(unreadable, luksDevice ⟨8, 32⟩)])).1.hopelessDeviceSets.lookup ⟨1⟩).isSome := by
  intro devices r
  constructor
  · have hluks : (r.1.devicesOf ⟨1⟩).physical ⟨7⟩ =
        some ⟨⟨⟨⟨1⟩, ⟨7⟩⟩, ⟨8, 16⟩, "/dev/sdb"⟩, ⟨some "key", none⟩⟩ := by
      decide +kernel
    exact mentions_of_physical hluks
  · decide +kernel

end LiminalDevices

end Stratisd.Liminal
