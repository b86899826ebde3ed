import Mathlib.Data.Finmap
import Stratisd.Engine.Keyring
import Stratisd.Engine.StratEngine
import Stratisd.Media.Files
import Stratisd.Thinpool.RepairRoom

/-! Events of device-mapper. When there has been one, the engine reads the event numbers of all
devices and lets a pool act if those of its devices are not the ones on record for it. A pool that
fails to act ends the call, and the pools behind it have to wait for the next one. -/

namespace Stratisd.Engine

open Run Run.Stateful Media Metadata Pool Thinpool List

/-! ### Names -/

inductive FlexRole where
  | metadataVolume
  | thinData
  | thinMeta
  | thinMetaSpare

def FlexRole.display : FlexRole → String
  | metadataVolume => "mdv"
  | thinData => "thindata"
  | thinMeta => "thinmeta"
  | thinMetaSpare => "thinmetaspare"

/-- A text that device-mapper takes: ASCII, not empty, and with no more characters than that. -/
def idBuf (maxChars : ℕ) (value : List UInt8) : Option (List UInt8) :=
  if value.all (· < 128) && !value.isEmpty && value.length ≤ maxChars then some value else none

/-- The name of a device of a pool. Its UUID is the same text. -/
def formatIds (words : String) (poolUuid : PoolUuid) (layer : String) (role : List UInt8) :
    StratisResult (List UInt8) := do
  let value := ascii s!"stratis-{formatVersion}-{words}" ++ uuidDigits poolUuid.val ++
    ascii layer ++ role
  let name ← Outcome.expect (idBuf 127 value)
  let _ ← Outcome.expect (idBuf 128 value)
  .ok name

def formatFlexIds (poolUuid : PoolUuid) (role : FlexRole) : StratisResult (List UInt8) :=
  formatIds "private-" poolUuid "-flex-" (ascii role.display)

/-- A filesystem is the only role in the thin layer. -/
def formatThinIds (poolUuid : PoolUuid) (uuid : FilesystemUuid) : StratisResult (List UInt8) :=
  formatIds "" poolUuid "-thin-" (ascii "fs-" ++ uuidDigits uuid.val)

/-- The thin pool is the only role in its layer. -/
def formatThinpoolIds (poolUuid : PoolUuid) : StratisResult (List UInt8) :=
  formatIds "private-" poolUuid "-thinpool-" (ascii "pool")

/-- The names of the devices of a pool that may generate events. -/
def getEventingDevNames (t : ThinPool) (poolUuid : PoolUuid) :
    StratisResult (List (List UInt8)) := do
  let thinMeta ← formatFlexIds poolUuid .thinMeta
  let thinData ← formatFlexIds poolUuid .thinData
  let mdv ← formatFlexIds poolUuid .metadataVolume
  let thinPool ← formatThinpoolIds poolUuid
  let filesystems ← t.filesystems.iter.mapM fun e => formatThinIds poolUuid e.2.1
  .ok ([thinMeta, thinData, mdv, thinPool] ++ filesystems)

/-! ### Event numbers -/

abbrev DeviceList := AList fun _ : List UInt8 => ℕ

abbrev EventNrs := Finmap fun _ : List UInt8 => ℕ

/-- The event numbers by name. Of several for one name the last one counts. -/
def deviceList (devices : List (List UInt8 × Option ℕ)) : StratisResult DeviceList := do
  let nrs ← devices.mapM fun d => Outcome.expect (d.2.map (Sigma.mk d.1))
  .ok nrs.reverse.toAList

def eventNrs (devices : DeviceList) (p : String × PoolUuid × StratPool) :
    StratisResult EventNrs := do
  let devNames ← getEventingDevNames p.2.2.thinPool p.2.1
  .ok (devices.entries.filter (·.1 ∈ devNames)).toFinmap

/-- The engine with the event numbers that its pools have acted on. -/
structure Watching extends StratEngine where
  watchedDevLastEventNrs : AList fun _ : PoolUuid => EventNrs
  /-- What pools have acted on so far, the latest first. The code does not keep this. -/
  acted : List (Σ _ : PoolUuid, EventNrs)

/-- The names and event numbers of all devices, and what a pool meets when it acts. -/
structure EventedIo where
  listDevices : StratisResult (List (List UInt8 × Option ℕ))
  eventOn : PoolUuid → StratPool.EventIo

namespace Watching

abbrev M := Stateful Watching StratisError

variable (overflowChecks : Bool) (io : EventedIo) (devices : DeviceList)
  (p : String × PoolUuid × StratPool)

def eventOn (nrs : EventNrs) : M Unit := do
  let r := StratPool.eventOn overflowChecks (io.eventOn p.2.1) p.1 p.2.2
  modify fun s => { s with pools := s.pools.setByUuid p.2.1 r.1 }
  lift r.2
  modify fun s => { s with acted := ⟨p.2.1, nrs⟩ :: s.acted }

/-- The numbers are recorded only after the pool has acted on them. -/
def eventedPool : M Unit := do
  let nrs ← lift (eventNrs devices p)
  let s ← Stateful.get
  (if s.watchedDevLastEventNrs.lookup p.2.1 ≠ some nrs then eventOn overflowChecks io p nrs
    else pure ())
  modify fun s =>
    { s with watchedDevLastEventNrs := s.watchedDevLastEventNrs.insert p.2.1 nrs }

def evented : M Unit := do
  let devices ← lift io.listDevices
  let devices ← lift (deviceList devices)
  let s ← Stateful.get
  forEach (eventedPool overflowChecks io devices) s.pools.iter

/-- Nothing else touches the event numbers. -/
inductive Input where
  | evented (io : EventedIo)
  | other (f : StratEngine → StratEngine)

def step (s : Watching) : Input → Watching × StratisResult Unit
  | .evented io => evented overflowChecks io s
  | .other f => ({ s with toStratEngine := f s.toStratEngine }, .ok ())

/-- No pool has acted twice in a row on the same numbers. -/
def Paced : List (Σ _ : PoolUuid, EventNrs) → Prop
  | [] => True
  | x :: earlier => earlier.dlookup x.1 ≠ some x.2 ∧ Paced earlier

/-- The numbers on record are those that the pool has acted on last. -/
structure Truthful (s : Watching) : Prop where
  record : ∀ uuid, s.watchedDevLastEventNrs.lookup uuid = s.acted.dlookup uuid
  paced : Paced s.acted

variable {overflowChecks io devices p} {s s' : Watching}

theorem eventedPool_spec (hs : Truthful s) :
    Truthful (eventedPool overflowChecks io devices p s).1 ∧
      ((eventedPool overflowChecks io devices p s).2 = .ok () → ∃ nrs, eventNrs devices p = .ok nrs ∧
        (eventedPool overflowChecks io devices p s).1.watchedDevLastEventNrs =
          s.watchedDevLastEventNrs.insert p.2.1 nrs) := by
  unfold eventedPool
  cases eventNrs devices p with
  | err _ | panic => exact ⟨hs, nofun⟩
  | ok nrs =>
    rw [lift_ok_bind, get_bind]
    split_ifs with hnew
    · unfold eventOn
      rcases StratPool.eventOn overflowChecks (io.eventOn p.2.1) p.1 p.2.2 with ⟨pool, _ | e | _⟩
      · refine ⟨⟨fun uuid => ?_, (hs.record p.2.1).symm.trans_ne hnew, hs.paced⟩,
          fun _ => ⟨nrs, rfl, rfl⟩⟩
        by_cases hu : uuid = p.2.1
        · subst hu
          exact (AList.lookup_insert _).trans (dlookup_cons_eq s.acted _ nrs).symm
        · exact (AList.lookup_insert_ne hu).trans
            ((hs.record uuid).trans (dlookup_cons_ne s.acted ⟨p.2.1, nrs⟩ hu).symm)
      -- a pool that has failed leaves the record as it was
      all_goals exact ⟨⟨hs.record, hs.paced⟩, nofun⟩
    · refine ⟨⟨fun uuid => ?_, hs.paced⟩, fun _ => ⟨nrs, rfl, rfl⟩⟩
      by_cases hu : uuid = p.2.1
      · subst hu
        exact (AList.lookup_insert _).trans ((not_not.mp hnew).symm.trans (hs.record _))
      · exact (AList.lookup_insert_ne hu).trans (hs.record uuid)

theorem keeps_evented : Keeps Truthful (evented overflowChecks io) :=
  (keeps_lift _).bind fun _ => (keeps_lift _).bind fun _ => keeps_read fun _ =>
    keeps_forEach (fun _ _ hs => (eventedPool_spec hs).1) _

theorem truthful_run (e : StratEngine) (inputs : List Input) :
    Truthful (run (step overflowChecks) ⟨e, ∅, []⟩ inputs).1 := by
  refine run_state_invariant _ (A := fun _ _ => True) (fun s i hs _ => ?_) ⟨fun _ => rfl, trivial⟩
    (allSteps_of_forall _ fun _ _ => trivial)
  cases i with
  | evented io => exact keeps_evented s hs
  | other f => exact ⟨hs.record, hs.paced⟩

/-- Each pool has its numbers on record at the end, since no other pool has the same UUID. -/
theorem forEach_records {ps : List (String × PoolUuid × StratPool)} (hs : Truthful s)
    (hnodup : (ps.map (·.2.1)).Nodup)
    (h : forEach (eventedPool overflowChecks io devices) ps s = (s', .ok ())) :
    (∀ uuid, uuid ∉ ps.map (·.2.1) →
      s'.watchedDevLastEventNrs.lookup uuid = s.watchedDevLastEventNrs.lookup uuid) ∧
    ∀ p ∈ ps, ∃ nrs, eventNrs devices p = .ok nrs ∧
      s'.watchedDevLastEventNrs.lookup p.2.1 = some nrs := by
  induction ps generalizing s with
  | nil => simp [← (Prod.mk.inj h).1]
  | cons p ps ih =>
    obtain ⟨hp, hnodup⟩ := nodup_cons.mp hnodup
    obtain ⟨s₁, _, hfirst, h⟩ := bind_eq_ok.mp h
    have hspec := @eventedPool_spec overflowChecks io devices p s hs
    rw [hfirst] at hspec
    obtain ⟨nrs, hnrs, hrecord⟩ := hspec.2 rfl
    obtain ⟨hothers, hall⟩ := ih hspec.1 hnodup h
    refine ⟨fun uuid huuid => ?_, forall_mem_cons.mpr ⟨⟨nrs, hnrs, ?_⟩, hall⟩⟩
    · obtain ⟨hne, huuid⟩ := not_or.mp (mt mem_cons.mpr huuid)
      rw [hothers uuid huuid, hrecord, AList.lookup_insert_ne hne]
    · rw [hothers _ hp, hrecord, AList.lookup_insert]

/-- Whatever the engine has done before, and whichever pools have failed to act: when a call of
`evented` returns, every pool has acted last on the event numbers that the call has found, and no
pool has acted twice in a row on the same numbers. -/
theorem evented_misses_no_event {e : StratEngine} {inputs : List Input} {name : String}
    {uuid : PoolUuid} {pool : StratPool}
    (hs : (run (step overflowChecks) ⟨e, ∅, []⟩ inputs).1 = s)
    (hok : evented overflowChecks io s = (s', .ok ()))
    (hpool : s.pools.getByUuid uuid = some (name, pool)) :
    ∃ found devices nrs, io.listDevices = .ok found ∧ deviceList found = .ok devices ∧
      eventNrs devices (name, uuid, pool) = .ok nrs ∧ s'.acted.dlookup uuid = some nrs ∧
      Paced s'.acted := by
  have hbefore : Truthful s := hs ▸ truthful_run e inputs
  have hafter : Truthful s' := keeps_evented.after hbefore hok
  obtain ⟨s₁, found, hfound, hok⟩ := bind_eq_ok.mp hok
  obtain ⟨hlist, rfl⟩ := lift_eq_ok hfound
  obtain ⟨s₁, devices, hdevices, hok⟩ := bind_eq_ok.mp hok
  obtain ⟨hdev, rfl⟩ := lift_eq_ok hdevices
  have hnodup : (s.pools.iter.map (·.2.1)).Nodup := by
    rw [Table.iter, map_map]
    exact s.pools.items.nodupKeys
  obtain ⟨nrs, hnrs, hrecord⟩ := (forEach_records hbefore hnodup hok).2 (name, uuid, pool)
    (mem_map.mpr ⟨_, AList.mem_lookup_iff.mp hpool, rfl⟩)
  exact ⟨found, devices, nrs, hlist, hdev, hnrs, (hafter.record uuid).symm.trans hrecord,
    hafter.paced⟩

/-- One device is found, and the low-water mark of a pool can be set or not. -/
def waking (lowWaterMark : Bool) : EventedIo :=
  ⟨.ok [(ascii "stratis-1-private", some 3)],
    fun _ => ⟨fun _ => { workingRound initialMetaSize with lowWaterMark }, .ok ()⟩⟩

/-- The only pool of an engine has failed to act. -/
def failed (p : StratPool) : Watching × List (Input × StratisResult Unit) :=
  run (step true) ⟨⟨⟨∅, AList.insert ⟨7⟩ ("pool", p) ∅⟩, .default⟩, ∅, []⟩ [.evented (waking false)]

theorem evented_misses_no_event_again : ∃ r, ThinPool.newOn (2 ^ 22) = .ok r ∧
    (failed ⟨r.2, none⟩).2.map (·.2) = [.err .dm] ∧
    ∃ nrs, (evented true (waking true) (failed ⟨r.2, none⟩).1).1.acted.dlookup ⟨7⟩ = some nrs := by
  obtain ⟨r, hr, hfirst, hsecond, hpool⟩ : ∃ r, ThinPool.newOn (2 ^ 22) = .ok r ∧
      (failed ⟨r.2, none⟩).2.map (·.2) = [.err .dm] ∧
      (evented true (waking true) (failed ⟨r.2, none⟩).1).2 = .ok () ∧
      ((failed ⟨r.2, none⟩).1.pools.getByUuid ⟨7⟩).isSome = true := by
    decide +kernel
  obtain ⟨_, hpool⟩ := Option.isSome_iff_exists.mp hpool
  obtain ⟨_, _, nrs, -, -, -, hacted, -⟩ := evented_misses_no_event rfl (Prod.ext rfl hsecond) hpool
  exact ⟨r, hr, hfirst, nrs, hacted⟩

end Watching

end Stratisd.Engine
