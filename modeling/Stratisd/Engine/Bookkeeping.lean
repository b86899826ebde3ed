import Stratisd.Engine.StratEngine
import Stratisd.Engine.TableSpec
import Stratisd.Liminal.LiminalSpec
import Stratisd.Pool.DeviceAgreement

/-! The bookkeeping of the engine over any run of events and requests. Every pool is in at most
one place and has a name of its own, and nothing that the engine does to one pool affects
another. -/

namespace Stratisd.Engine

open Run Run.Outcome Run.Stateful Metadata Backstore Pool Liminal

namespace StratEngine

/-! ### Runs -/

/-- An event or a request, with everything that the system answers. -/
inductive EngineInput where
  | event (env : SetupEnv) (event : LiminalDevices.UdevEngineEvent)
  | create (io : CreateIo) (name : String) (paths : List String) (redundancy : Option ℕ)
  | rename (io : RenameIo) (uuid : PoolUuid) (newName : String)
  | destroy (destroy : StratPool.M Unit) (uuid : PoolUuid)

variable (overflowChecks : Bool)

def perform : EngineInput → M Unit
  | .event env event => Stateful.ignore (handleEvent overflowChecks env event)
  | .create io name paths redundancy =>
    Stateful.ignore (createPool overflowChecks io name paths redundancy)
  | .rename io uuid newName => Stateful.ignore (renamePool io uuid newName)
  | .destroy destroy uuid => Stateful.ignore (destroyPool destroy uuid)

def step (e : StratEngine) (i : EngineInput) : StratEngine × StratisResult Unit :=
  perform overflowChecks i e

/-- The pool that an event or a request is about. -/
def EngineInput.target : EngineInput → Option PoolUuid
  | .event _ ev => ev.info.map (·.stratisIdentifiers.poolUuid)
  | .create io _ _ _ => some io.uuid
  | .rename _ uuid _ => some uuid
  | .destroy _ uuid => some uuid

/-- A pool is created with a UUID that is not known. -/
def Fresh (e : StratEngine) : EngineInput → Prop
  | .create io _ _ _ => LiminalDevices.Unknown e.pools e.liminalDevices io.uuid
  | _ => True

/-- What can stop the engine besides its own assertions. -/
def StopsItself (e : StratEngine) : EngineInput → Prop
  | .event env event =>
    LiminalDevices.Stops overflowChecks env e.pools e.liminalDevices event
  | .create io name _ _ =>
    io.validName = .panic ∨ StratPool.initializePool overflowChecks io.init name = .panic
  | .rename io _ _ => io.validName = .panic ∨ io.save = .panic
  | .destroy destroy uuid =>
    ∃ name pool, e.pools.getByUuid uuid = some (name, pool) ∧ (destroy pool).2 = .panic

/-- Pool names are unique, and no pool is in two places. -/
structure Kept (e : StratEngine) : Prop where
  names : e.pools.Consistent
  apart : e.liminalDevices.Apart e.pools

/-- What an event or a request does to the books. -/
structure Books {α : Type} (e : StratEngine) (i : EngineInput)
    (r : StratEngine × StratisResult α) : Prop where
  kept : r.1.Kept
  asserted : r.2 = .panic → StopsItself overflowChecks e i
  others : ∀ u, i.target ≠ some u → r.1.pools.getByUuid u = e.pools.getByUuid u
  unchanged : ∀ err, r.2 = .err err →
    ∀ name, r.1.pools.nameToUuid.lookup name = e.pools.nameToUuid.lookup name

variable {overflowChecks} {e : StratEngine} {name : String} {uuid : PoolUuid} {pool : StratPool}

/-! ### Putting a pool into the table -/

theorem insertPool_eq (h : e.pools.Consistent) (name : String) (uuid : PoolUuid)
    (pool : StratPool) :
    ∃ t, insertPool name uuid pool e = (⟨t, e.liminalDevices⟩, .ok ()) ∧
      Table.Inserted e.pools t name uuid pool := by
  obtain ⟨t, displaced, ht, hi⟩ := h.insert_ok (ε := StratisError) name uuid pool
  refine ⟨t, ?_, hi⟩
  unfold insertPool
  rw [get_bind, ht]
  rfl

theorem Kept.inserted {t : Table PoolUuid StratPool} (h : e.Kept)
    (hi : Table.Inserted e.pools t name uuid pool) (hname : e.pools.containsName name = false)
    (hu : LiminalDevices.Unknown e.pools e.liminalDevices uuid) :
    Kept ⟨t, e.liminalDevices⟩ := by
  have hothers := (hi.of_fresh h.names hname hu.1).1
  refine ⟨hi.consistent h.names, fun u => ?_, fun u => ?_, h.apart.errored_hopeless⟩
  · by_cases hu' : u = uuid
    · exact .inl (hu' ▸ hu.2.1)
    · exact (h.apart.errored_up u).imp_right fun hn => (hothers u hu').trans hn
  · by_cases hu' : u = uuid
    · exact .inl (hu' ▸ hu.2.2)
    · exact (h.apart.hopeless_up u).imp_right fun hn => (hothers u hu').trans hn

theorem Kept.books_same {α : Type} (h : e.Kept) {i : EngineInput} {x : StratisResult α}
    (hx : x = .panic → StopsItself overflowChecks e i) : Books overflowChecks e i (e, x) :=
  ⟨h, hx, fun _ _ => rfl, fun _ _ _ => rfl⟩

theorem Kept.books_lift {α β : Type} (h : e.Kept) {i : EngineInput} {x : StratisResult α}
    {f : α → M β} (hx : x = .panic → StopsItself overflowChecks e i)
    (hf : ∀ a, x = .ok a → Books overflowChecks e i (f a e)) :
    Books overflowChecks e i ((Stateful.lift x >>= f) e) := by
  cases x with
  | ok a => exact hf a rfl
  | err err => exact h.books_same (by simp)
  | panic => exact h.books_same fun _ => hx rfl

theorem Books.ignore {α : Type} {i : EngineInput} {p : M α}
    (h : Books overflowChecks e i (p e)) : Books overflowChecks e i (Stateful.ignore p e) := by
  have hr : Stateful.ignore p e = ((p e).1, (p e).2 >>= fun _ => .ok ()) :=
    bind_pure_apply p _ e
  rw [hr]
  refine ⟨h.kept, fun hp => h.asserted ?_, h.others, fun err herr => ?_⟩
  · cases hx : (p e).2 with
    | ok a => simp [hx] at hp
    | err err => simp [hx] at hp
    | panic => rfl
  · rcases Outcome.bind_eq_err.mp herr with herr | ⟨a, -, herr⟩
    · exact h.unchanged err herr
    · cases herr

/-! ### Events -/

theorem Kept.handleEvent (h : e.Kept) (env : SetupEnv) (ev : LiminalDevices.UdevEngineEvent) :
    Books overflowChecks e (.event env ev) (handleEvent overflowChecks env ev e) := by
  have hspec := LiminalDevices.blockEvaluate_spec overflowChecks env h.apart ev
  set r := LiminalDevices.blockEvaluate overflowChecks env e.pools ev e.liminalDevices with hr
  have heval : onLiminal (LiminalDevices.blockEvaluate overflowChecks env e.pools ev) e =
      (⟨e.pools, r.1⟩, r.2) := rfl
  have hkept : Kept ⟨e.pools, r.1⟩ := ⟨h.names, hspec.1⟩
  unfold StratEngine.handleEvent
  rw [get_bind]
  rcases hspec.2 with hnone | ⟨info, hinfo, name, pool, hup, hu, hname⟩ | ⟨hpanic, hstops⟩
  · rw [hnone] at heval
    rw [bind_of_eq heval]
    exact ⟨hkept, by simp, fun _ _ => rfl, fun _ _ _ => rfl⟩
  · rw [hup] at heval
    rw [bind_of_eq heval]
    have hfree : e.pools.containsName name = false := by
      rw [← h.names.getByName_isSome, hname]
      rfl
    obtain ⟨t, ht, hi⟩ := insertPool_eq hkept.names name info.stratisIdentifiers.poolUuid pool
    simp only [bind_of_eq ht, get_bind, hi.found, expect_some,
      lift_ok_bind]
    refine ⟨hkept.inserted hi hfree hu, by simp, fun u hu' => ?_, by simp⟩
    refine (hi.of_fresh h.names hfree hu.1).1 u ?_
    rintro rfl
    exact hu' (by simp [EngineInput.target, hinfo])
  · rw [hpanic] at heval
    rw [bind_of_panic (congrArg Prod.snd heval), heval]
    exact ⟨hkept, fun _ => hstops, fun _ _ => rfl, fun _ _ _ => rfl⟩

/-! ### Requests -/

theorem Kept.createPool (h : e.Kept) {io : CreateIo} (name : String) (paths : List String)
    (redundancy : Option ℕ) (hu : LiminalDevices.Unknown e.pools e.liminalDevices io.uuid) :
    Books overflowChecks e (.create io name paths redundancy)
      (createPool overflowChecks io name paths redundancy e) := by
  have hredundancy : calculateRedundancy redundancy ≠ .panic := by
    unfold calculateRedundancy
    split <;> simp
  have hpaths : StratPool.validatePaths paths ≠ .panic := by
    unfold StratPool.validatePaths
    simp only
    split_ifs <;> simp
  unfold StratEngine.createPool
  refine h.books_lift (fun hx => absurd hx hredundancy) fun _ _ => ?_
  refine h.books_lift .inl fun _ _ => ?_
  refine h.books_lift (fun hx => absurd hx hpaths) fun _ _ => ?_
  rw [get_bind]
  cases hname : e.pools.getByName name with
  | some p =>
    have hsame : createPoolIdempotentOrErr name paths io.existing ≠ .panic := by
      unfold createPoolIdempotentOrErr
      split_ifs <;> simp
    exact h.books_same fun hx => absurd hx hsame
  | none =>
    simp only
    split_ifs with hempty
    · exact h.books_same (by simp)
    · refine h.books_lift .inr fun pool _ => ?_
      have hfree : e.pools.containsName name = false := by
        rw [← h.names.getByName_isSome, hname]
        rfl
      obtain ⟨t, ht, hi⟩ := insertPool_eq h.names name io.uuid pool
      rw [bind_of_eq ht]
      refine ⟨h.inserted hi hfree hu, by simp, fun u hne => ?_, by simp⟩
      exact (hi.of_fresh h.names hfree hu.1).1 u fun he => hne (by rw [he]; rfl)

theorem Kept.removed (h : e.Kept) (hg : e.pools.getByUuid uuid = some (name, pool)) :
    let e' : StratEngine := ⟨(e.pools.removeByUuid uuid).1, e.liminalDevices⟩
    e'.Kept ∧ Table.Removed e.pools e'.pools name uuid ∧
      LiminalDevices.Unknown e'.pools e'.liminalDevices uuid := by
  intro e'
  have hr : Table.Removed e.pools e'.pools name uuid := by
    simp only [e', Table.removeByUuid_of_get hg]
    exact Table.removed_erase _ _ _
  have hnone : ∀ u, e.pools.getByUuid u = none → e'.pools.getByUuid u = none := by
    intro u hu
    by_cases he : u = uuid
    · exact he ▸ hr.gone
    · exact (hr.others u he).trans hu
  have hup : e.pools.getByUuid uuid ≠ none := by simp [hg]
  refine ⟨⟨hr.consistent h.names hg, fun u => (h.apart.errored_up u).imp_right (hnone u),
    fun u => (h.apart.hopeless_up u).imp_right (hnone u), h.apart.errored_hopeless⟩, hr, hr.gone,
    (h.apart.errored_up uuid).resolve_right hup, (h.apart.hopeless_up uuid).resolve_right hup⟩

/-- A pool that has been taken out is put back under a free name: the others are as they were
before it was taken out. -/
theorem Kept.put_back (h : e.Kept) (hg : e.pools.getByUuid uuid = some (name, pool))
    {newName : String} (hfree : newName = name ∨ e.pools.containsName newName = false)
    (pool' : StratPool) :
    ∃ t, insertPool newName uuid pool' ⟨(e.pools.removeByUuid uuid).1, e.liminalDevices⟩ =
        (⟨t, e.liminalDevices⟩, .ok ()) ∧ Kept ⟨t, e.liminalDevices⟩ ∧
      t.getByUuid uuid = some (newName, pool') ∧
      (∀ u, u ≠ uuid → t.getByUuid u = e.pools.getByUuid u) ∧
      (newName = name → ∀ n, t.nameToUuid.lookup n = e.pools.nameToUuid.lookup n) := by
  obtain ⟨hkept, hr, hu⟩ := h.removed hg
  have hfree' : (e.pools.removeByUuid uuid).1.containsName newName = false := by
    by_cases he : newName = name
    · rw [he, Table.containsName, hr.name_gone]
      rfl
    · rw [Table.containsName, hr.other_names newName he]
      exact hfree.resolve_left he
  obtain ⟨t, ht, hi⟩ := insertPool_eq hkept.names newName uuid pool'
  obtain ⟨hothers, hnames⟩ := hi.of_fresh hkept.names hfree' hu.1
  refine ⟨t, ht, hkept.inserted hi hfree' hu, hi.found,
    fun u hne => (hothers u hne).trans (hr.others u hne), ?_⟩
  rintro rfl n
  by_cases hn : n = newName
  · rw [hn, hi.found_name, h.names.lookup_of_get hg]
  · exact (hnames n hn).trans (hr.other_names n hn)

theorem Kept.destroyRemoved (h : e.Kept) (hg : e.pools.getByUuid uuid = some (name, pool))
    (destroy : StratPool.M Unit) :
    Books overflowChecks e (.destroy destroy uuid) (destroyRemoved destroy uuid name pool
      ⟨(e.pools.removeByUuid uuid).1, e.liminalDevices⟩) := by
  obtain ⟨hkept, hr, -⟩ := h.removed hg
  have htarget : ∀ u, (EngineInput.destroy destroy uuid).target ≠ some u → u ≠ uuid :=
    fun u hne he => hne (by rw [he]; rfl)
  unfold StratEngine.destroyRemoved
  rcases hd : destroy pool with ⟨pool', _ | err | _⟩
  · exact ⟨hkept, by simp, fun u hne => hr.others u (htarget u hne), by simp⟩
  · obtain ⟨t, ht, hkept', -, hothers, hnames⟩ := h.put_back hg (.inl rfl) pool'
    simp only [bind_of_eq ht]
    exact ⟨hkept', by simp, fun u hne => hothers u (htarget u hne), fun _ _ => hnames rfl⟩
  · exact ⟨hkept, fun _ => ⟨name, pool, hg, by rw [hd]⟩,
      fun u hne => hr.others u (htarget u hne), by simp⟩

theorem Kept.destroyPool (h : e.Kept) (destroy : StratPool.M Unit) (uuid : PoolUuid) :
    Books overflowChecks e (.destroy destroy uuid) (destroyPool destroy uuid e) := by
  unfold StratEngine.destroyPool
  rw [get_bind]
  cases hg : e.pools.getByUuid uuid with
  | none => exact h.books_same (by simp)
  | some p =>
    obtain ⟨name, pool⟩ := p
    simp only
    split_ifs with hfs
    · exact h.books_same (by simp)
    · rw [Table.removeByUuid_of_get hg, expect_some, lift_ok_bind,
        modify_bind]
      exact h.destroyRemoved hg destroy

theorem Kept.renameRemoved (h : e.Kept) (hg : e.pools.getByUuid uuid = some (name, pool))
    (io : RenameIo) {newName : String} (hfree : e.pools.containsName newName = false) :
    Books overflowChecks e (.rename io uuid newName) (renameRemoved io.save uuid name newName pool
      ⟨(e.pools.removeByUuid uuid).1, e.liminalDevices⟩) := by
  obtain ⟨hkept, hr, -⟩ := h.removed hg
  have htarget : ∀ u, (EngineInput.rename io uuid newName).target ≠ some u → u ≠ uuid :=
    fun u hne he => hne (by rw [he]; rfl)
  unfold StratEngine.renameRemoved
  rcases hw : StratPool.writeMetadata io.save newName pool with ⟨pool', _ | err | _⟩
  · obtain ⟨t, ht, hkept', hfound, hothers, -⟩ := h.put_back hg (.inr hfree) pool'
    simp only [bind_of_eq ht, get_bind, hfound, expect_some,
      lift_ok_bind]
    exact ⟨hkept', by simp, fun u hne => hothers u (htarget u hne), by simp⟩
  · obtain ⟨t, ht, hkept', -, hothers, hnames⟩ := h.put_back hg (.inl rfl) pool'
    simp only [bind_of_eq ht]
    exact ⟨hkept', by simp, fun u hne => hothers u (htarget u hne), fun _ _ => hnames rfl⟩
  · have hsave : io.save = .panic := by
      cases hs : io.save with
      | ok _ =>
        rw [hs] at hw
        cases congrArg Prod.snd hw
      | err err =>
        rw [hs] at hw
        cases congrArg Prod.snd hw
      | panic => rfl
    exact ⟨hkept, fun _ => .inr hsave, fun u hne => hr.others u (htarget u hne), by simp⟩

theorem Kept.renamePool (h : e.Kept) (io : RenameIo) (uuid : PoolUuid) (newName : String) :
    Books overflowChecks e (.rename io uuid newName) (renamePool io uuid newName e) := by
  unfold StratEngine.renamePool
  refine h.books_lift .inl fun _ _ => ?_
  rw [get_bind]
  cases hg : e.pools.getByUuid uuid with
  | none => exact h.books_same (by simp)
  | some p =>
    obtain ⟨oldName, pool⟩ := p
    simp only
    split_ifs with hsame hused
    · exact h.books_same (by simp)
    · exact h.books_same (by simp)
    · rw [Table.removeByUuid_of_get hg, expect_some, lift_ok_bind,
        modify_bind]
      exact h.renameRemoved hg io (by simpa using hused)

/-! ### Any run -/

theorem Kept.step (h : e.Kept) {i : EngineInput} (hf : Fresh e i) :
    Books overflowChecks e i (step overflowChecks e i) := by
  cases i with
  | event env ev => exact (h.handleEvent env ev).ignore
  | create io name paths redundancy => exact (h.createPool name paths redundancy hf).ignore
  | rename io uuid newName => exact (h.renamePool io uuid newName).ignore
  | destroy destroy uuid => exact (h.destroyPool destroy uuid).ignore

/-- In every run of events and requests, each pool is up, errored or hopeless and never two of
these, names are unique, no assertion of the engine fails, no pool is affected by what is done to
another, and a request that fails leaves the names as they were. -/
theorem bookkeeping_holds {inputs : List EngineInput} (h : e.Kept)
    (hf : AllSteps (step overflowChecks) Fresh e inputs) :
    AllSteps (step overflowChecks)
      (fun e i => Books overflowChecks e i (step overflowChecks e i) ∧
        ∀ u v name p q, (step overflowChecks e i).1.pools.getByUuid u = some (name, p) →
          (step overflowChecks e i).1.pools.getByUuid v = some (name, q) → u = v) e inputs := by
  induction inputs generalizing e with
  | nil => trivial
  | cons i inputs ih =>
    have hb : Books overflowChecks e i (step overflowChecks e i) := h.step hf.1
    exact ⟨⟨hb, fun u v name p q hu hv => hb.kept.names.uuid_unique hu hv⟩, ih hb.kept hf.2⟩

/-- A pool is created and then could not be renamed. -/
theorem bookkeeping_holds_failed_rename :
    let bda := BDA.new ⟨⟨1⟩, ⟨7⟩⟩ MDADataSize.default (2 ^ 22) 0
    let devs : StratisResult (List StratBlockDev) := do
      let d ← StratBlockDev.new ⟨8, 16⟩ bda [] none none
      .ok [d]
    let io : CreateIo := ⟨.ok (), ⟨1⟩, [], { StratPool.smoothInit [] with prepared := devs }⟩
    let created := (step true ⟨Table.default, LiminalDevices.default⟩
      (.create io "a" ["/dev/sdb"] none)).1
    let renamed := step true created (.rename ⟨.ok (), .err .io⟩ ⟨1⟩ "b")
    renamed.2 = .err .io ∧ renamed.1.pools.nameToUuid.lookup "a" = some ⟨1⟩ ∧
      renamed.1.pools.nameToUuid.lookup "b" = none := by
  intro bda devs io created renamed
  have hkept : Kept ⟨Table.default, LiminalDevices.default⟩ :=
    ⟨Table.consistent_default, fun _ => .inl rfl, fun _ => .inl rfl, fun _ => .inl rfl⟩
  have hfresh : AllSteps (step true) Fresh ⟨Table.default, LiminalDevices.default⟩
      [.create io "a" ["/dev/sdb"] none, .rename ⟨.ok (), .err .io⟩ ⟨1⟩ "b"] :=
    ⟨⟨rfl, rfl, rfl⟩, trivial, trivial⟩
  have hbooks := bookkeeping_holds hkept hfresh
  have herr : renamed.2 = .err .io := by decide +kernel
  have hnames := hbooks.2.1.1.unchanged _ herr
  refine ⟨herr, (hnames "a").trans ?_, (hnames "b").trans ?_⟩
  · decide +kernel
  · decide +kernel

end StratEngine

end Stratisd.Engine
