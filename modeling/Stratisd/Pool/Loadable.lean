import Stratisd.Pool.DeviceAgreement

/-! Metadata that can be set up again. The record of a pool passes the check of recorded
metadata if the segments of the thin pool tile what the backstore has given out; a device-mapper
failure between the two leaves a gap. -/

namespace Stratisd.Pool

open Run Run.Outcome Run.Stateful Engine Extent Metadata Backstore Thinpool List StratPool

/-! ### The check of recorded metadata -/

theorem maxByStart_spec {rs : List Range} {r : Range} (h : maxByStart rs = some r) :
    r ∈ rs ∧ ∀ q ∈ rs, q.1 ≤ r.1 := by
  cases rs with
  | nil => cases h
  | cons a rs =>
    obtain rfl := Option.some.inj h
    clear h
    -- the best one so far and those in front of it
    induction rs generalizing a with
    | nil => simp
    | cons b rs ih =>
      obtain ⟨hm, hmax⟩ := ih (if a.1 ≤ b.1 then b else a)
      rw [foldl_cons]
      have hbest : a.1 ≤ (if a.1 ≤ b.1 then b else a).1 ∧ b.1 ≤ (if a.1 ≤ b.1 then b else a).1 := by
        split_ifs with hle
        · exact ⟨hle, le_rfl⟩
        · exact ⟨le_rfl, by omega⟩
      have hfirst := hmax _ mem_cons_self
      refine ⟨?_, ?_⟩
      · rcases mem_cons.mp hm with heq | hm
        · rw [heq]
          split_ifs <;> simp
        · simp [hm]
      · intro q hq
        rcases mem_cons.mp hq with rfl | hq
        · exact hbest.1.trans hfirst
        · rcases mem_cons.mp hq with rfl | hq
          · exact hbest.2.trans hfirst
          · exact hmax q (mem_cons_of_mem _ hq)

theorem le_getLast_of_ascending {l : List Range} (h : l.Pairwise fun r q => r.1 < q.1) {r : Range}
    (hr : l.getLast? = some r) {q : Range} (hq : q ∈ l) : q.1 ≤ r.1 := by
  obtain ⟨init, rfl⟩ := List.getLast?_eq_some_iff.mp hr
  rcases mem_append.mp hq with hq | hq
  · exact ((pairwise_append.mp h).2.2 q hq r (by simp)).le
  · rw [mem_singleton.mp hq]

theorem nextIndex_record {segs : Segments} {next : ℕ} (h : segs.Tiles next) :
    nextIndex segs.record = .ok next := by
  have hlast : ∀ l ∈ segs.lists, ∃ r, l.getLast? = some r := fun l hl =>
    Option.isSome_iff_exists.mp (by simpa using h.nonempty l hl)
  obtain ⟨v, hv⟩ := hlast segs.mdvSegments (by simp [Segments.lists])
  obtain ⟨m, hm⟩ := hlast segs.metaSegments (by simp [Segments.lists])
  obtain ⟨d, hd⟩ := hlast segs.dataSegments (by simp [Segments.lists])
  obtain ⟨s, hs⟩ := hlast segs.metaSpareSegments (by simp [Segments.lists])
  obtain ⟨r, hr⟩ : ∃ r, maxByStart [v, m, d, s] = some r := ⟨_, rfl⟩
  obtain ⟨hmem, hmax⟩ := maxByStart_spec hr
  have hend : r.1 + r.2 = next := by
    refine h.end_of_highest ?_ fun q hq => ?_
    · simp only [mem_cons, not_mem_nil, or_false] at hmem
      rcases hmem with rfl | rfl | rfl | rfl
      · exact Segments.mem_all_of_mem_lists (by simp [Segments.lists]) (mem_of_getLast? hv)
      · exact Segments.mem_all_of_mem_lists (by simp [Segments.lists]) (mem_of_getLast? hm)
      · exact Segments.mem_all_of_mem_lists (by simp [Segments.lists]) (mem_of_getLast? hd)
      · exact Segments.mem_all_of_mem_lists (by simp [Segments.lists]) (mem_of_getLast? hs)
    · have hle : ∀ l ∈ segs.lists, ∀ x, l.getLast? = some x → x ∈ [v, m, d, s] → q ∈ l →
          q.1 ≤ r.1 := fun l hl x hx hin hql =>
        (le_getLast_of_ascending (h.ascending l hl) hx hql).trans (hmax x hin)
      simp only [Segments.all, mem_append] at hq
      rcases hq with ((hq | hq) | hq) | hq
      · exact hle _ (by simp [Segments.lists]) v hv (by simp) hq
      · exact hle _ (by simp [Segments.lists]) m hm (by simp) hq
      · exact hle _ (by simp [Segments.lists]) d hd (by simp) hq
      · exact hle _ (by simp [Segments.lists]) s hs (by simp) hq
  simp only [nextIndex, Segments.record, hv, hm, hd, hs, hr, expect_some, ok_bind,
    hend]

/-- The segments of the thin pool tile what the backstore has given out. -/
structure Tiled (s : Stacked) : Prop where
  room : s.backstore.Room
  tiles : s.thinPool.segments.Tiles s.backstore.next

theorem Tiled.next_pos {s : Stacked} (h : Tiled s) : 0 < s.backstore.next := by
  obtain ⟨r, hr⟩ := exists_mem_of_ne_nil _
    (h.tiles.nonempty s.thinPool.segments.mdvSegments (by simp [Segments.lists]))
  have hall : r ∈ s.thinPool.segments.all :=
    Segments.mem_all_of_mem_lists (by simp [Segments.lists]) hr
  have := h.tiles.pos r hall
  have := h.tiles.end_le hall
  omega

theorem checkCap_self (next : ℕ) : checkCap next next = .ok () := if_neg (not_not.mpr rfl)

theorem checkFlex_self (name : String) (next : ℕ) : checkFlex name next next = .ok () :=
  if_neg (not_not.mpr rfl)

theorem checkDataTier_of_le (name : String) {next allocated : ℕ} (hpos : 0 < next)
    (hle : next ≤ allocated) : checkDataTier name next allocated = .ok () := by
  unfold checkDataTier
  rw [if_neg (hpos.trans_le hle).ne', if_neg (not_lt.mpr hle)]

theorem checkMetadata_of_tiled {s : Stacked} (h : Tiled s) (name : String) :
    checkMetadata (recordOf s name) = .ok () := by
  have hnext : nextIndex (recordOf s name).flexDevs = .ok s.backstore.next :=
    nextIndex_record h.tiles
  have htotal : total (flexSegments (recordOf s name).flexDevs) = s.backstore.next :=
    h.tiles.total_eq
  have hlength : ((s.backstore.dataTier.segments.map (·.record)).map (·.length)).sum =
      totalLength s.backstore.dataTier.segments := by
    rw [map_map]
    rfl
  have hcap : (recordOf s name).backstore.cap.allocs[0]? = some (0, s.backstore.next) :=
    rfl
  have hdata : (recordOf s name).backstore.dataTier.blockdev.allocs[0]? =
      some (s.backstore.dataTier.segments.map (·.record)) := rfl
  unfold checkMetadata
  rw [hnext, ok_bind, hcap, expect_some, ok_bind, checkCap_self,
    ok_bind, htotal, checkFlex_self, ok_bind, hdata, expect_some,
    ok_bind, hlength]
  exact checkDataTier_of_le _ h.next_pos (h.room.next_le.trans h.room.size_le)

/-! ### Extensions that are attached -/

/-- Device-mapper attaches whatever one round of a check is given. -/
def AttachesRound (io : ThinPool.CheckIo) : Prop := io.extendMeta.Attaches ∧ io.extendData.Attaches

theorem tiled_extendThinSubDevice {overflowChecks : Bool} {io : ThinPool.ExtendIo}
    (hio : io.Attaches) (sub : SubDevice) (n modulus : ℕ) :
    Keeps Tiled (ThinPool.extendThinSubDevice overflowChecks io sub n modulus) := by
  intro s h
  obtain ⟨hroom, hcases⟩ :=
    ThinPool.extendThinSubDevice_room overflowChecks h.room io sub n modulus
  refine ⟨hroom, ?_⟩
  rcases hcases with ⟨hnext, ht, -⟩ | ⟨got, device, hpos, hnext, -, ⟨-, -, ht⟩ | ⟨hnot, -, -⟩⟩
  · rw [hnext, ht]
    exact h.tiles
  · rw [hnext, ht]
    exact h.tiles.extend hpos sub
  · exact absurd hio hnot

theorem framed_tiled : Framed Tiled := by
  intro s t hs _ h
  refine ⟨h.room, ?_⟩
  show t.segments.Tiles s.backstore.next
  rw [hs]
  exact h.tiles

theorem tiled_check {overflowChecks : Bool} {env : ℕ → ThinPool.CheckIo}
    (henv : ∀ round, AttachesRound (env round)) :
    Keeps Tiled (ThinPool.check overflowChecks env) := by
  refine ThinPool.keeps_check framed_tiled.devs fun round => ⟨fun n => ?_, fun n => ?_⟩
  · exact tiled_extendThinSubDevice (henv round).1 _ _ _
  · exact tiled_extendThinSubDevice (henv round).2 _ _ _

namespace StratPool

variable {overflowChecks : Bool}

/-- The current metadata and the metadata on the devices pass the check. -/
def Loadable (p : StratPool) : Prop :=
  (∀ name, checkMetadata (p.record name) = .ok ()) ∧
    ∀ metadata, p.saved = some metadata → checkMetadata metadata = .ok ()

/-- The same from the tiling. -/
structure Fit (p : StratPool) : Prop where
  tiled : Tiled p.toStacked
  saved : ∀ metadata, p.saved = some metadata → checkMetadata metadata = .ok ()

theorem Fit.loadable {p : StratPool} (h : Fit p) : Loadable p :=
  ⟨checkMetadata_of_tiled h.tiled, h.saved⟩

theorem fit_onStacked {α : Type} {q : ThinPool.M α} (h : Keeps Tiled q) :
    Keeps Fit (onStacked q) := fun p hp => ⟨h p.toStacked hp.tiled, hp.saved⟩

theorem fit_writeMetadata (save : StratisResult Unit) (name : String) :
    Keeps Fit (writeMetadata save name) := by
  refine (keeps_lift _).bind fun _ => keeps_modify fun p hp => ⟨hp.tiled, ?_⟩
  intro metadata hm
  obtain rfl := Option.some.inj hm
  exact checkMetadata_of_tiled hp.tiled name

theorem fit_writeIfChanged (save : StratisResult Unit) (name : String) (changed : Bool) :
    Keeps Fit (writeIfChanged save name changed) := by
  unfold writeIfChanged
  split_ifs
  · exact fit_writeMetadata _ _
  · exact keeps_pure ()

/-- The requests that may extend the thin pool, with device-mapper attaching what is given
out. -/
def Attaching : Request → Prop
  | .eventOn io _ => ∀ round, AttachesRound (io.check round)
  | .addBlockdevs io _ _ _ tier => tier = .data ∧ ∀ round, AttachesRound (io.check round)
  | _ => False

theorem fit_addData {io : AddIo} (hio : ∀ round, AttachesRound (io.check round))
    (poolUuid : PoolUuid) : Keeps Fit (addData overflowChecks io poolUuid) := by
  refine (fit_onStacked fun s hs => ?_).bind fun uuids => (fit_onStacked (tiled_check hio)).bind
    fun _ => keeps_pure uuids
  exact ⟨⟨hs.room.next_le, hs.room.size_le⟩, hs.tiles⟩

theorem fit_step {p : StratPool} {r : Request} (hp : Fit p) (hr : Attaching r) :
    Fit (step overflowChecks p r).1 := by
  cases r with
  | eventOn io name =>
    exact ((fit_onStacked (tiled_check hr)).bind fun changed => fit_writeIfChanged _ _ changed) p hp
  | addBlockdevs io poolUuid name paths tier =>
    obtain ⟨rfl, hio⟩ := hr
    refine Keeps.ignore ?_ p hp
    refine (keeps_lift _).bind fun _ => keeps_read fun q => ?_
    have hdata : ¬ BlockDevTier.data = BlockDevTier.cache := by decide
    rw [if_neg fun h => hdata h.1, if_neg hdata]
    split_ifs with hpaths
    · exact keeps_pure _
    · exact (fit_addData hio poolUuid).bind fun uuids => (fit_writeMetadata _ _).bind fun _ =>
        keeps_pure uuids
  | _ => exact hr.elim

theorem fit_initializePool {io : InitIo} {name : String} {p : StratPool}
    (hio : ∀ round, AttachesRound (io.check round))
    (h : initializePool overflowChecks io name = .ok p) : Fit p := by
  obtain ⟨devs, b, t, -, hmade, rfl⟩ := initializePool_eq_ok h
  have hroom : (⟨none, none, DataTier.new ⟨devs, none⟩, none, 0⟩ : Backstore).Room := ⟨le_rfl, le_rfl⟩
  obtain ⟨hroom', htiles⟩ := ThinPool.new_room hroom rfl (by decide) hmade
  refine fit_writeMetadata _ _ _ ⟨tiled_check hio _ ⟨hroom', htiles⟩, ?_⟩
  intro metadata hm
  cases hm

/-- In every run of requests that may extend the thin pool, whatever they return, in which
device-mapper attaches every region that is given out, the metadata in every state and the
metadata that is saved can be loaded. -/
theorem metadata_stays_loadable {io : InitIo} {name : String} {p : StratPool}
    {requests : List Request} (hio : ∀ round, AttachesRound (io.check round))
    (hp : initializePool overflowChecks io name = .ok p) (hr : ∀ r ∈ requests, Attaching r) :
    ∀ pre, pre <+: requests → Loadable (run (StratPool.step overflowChecks) p pre).1 := by
  intro pre hpre
  have ha : AllSteps (StratPool.step overflowChecks) (fun _ => Attaching) p pre :=
    allSteps_of_forall _ fun r hm => hr r (hpre.subset hm)
  exact (run_state_invariant (StratPool.step overflowChecks) (P := Fit)
    (fun _ _ h hA => fit_step h hA) (fit_initializePool hio hp) ha).loadable

/-- A pool on one device, and an event. -/
theorem metadata_stays_loadable_event :
    ∃ (devs : List StratBlockDev) (p : StratPool),
      initializePool true (smoothInit devs) "pool" = .ok p ∧
      ∀ pre, pre <+: [.eventOn ⟨fun _ => smoothCheck, .ok ()⟩ "pool"] →
        Loadable (run (StratPool.step true) p pre).1 := by
  let bda := BDA.new ⟨⟨0⟩, ⟨1⟩⟩ MDADataSize.default (2 ^ 22) 0
  obtain ⟨d, -, p, hp, -⟩ : ∃ d, StratBlockDev.new ⟨8, 16⟩ bda [] none none = .ok d ∧
      ∃ p, initializePool true (smoothInit [d]) "pool" = .ok p ∧ True := by
    decide +kernel
  have hround : AttachesRound smoothCheck := ⟨⟨rfl, rfl, rfl⟩, ⟨rfl, rfl, rfl⟩⟩
  refine ⟨[d], p, hp, metadata_stays_loadable (fun _ => hround) hp fun r hr => ?_⟩
  rw [List.mem_singleton.mp hr]
  exact fun _ => hround

/-- The table of the data device can not be loaded while the pool is made. -/
def unattachedInit (devs : List StratBlockDev) : InitIo :=
  { smoothInit devs with check := fun _ => { smoothCheck with
      extendData := ⟨⟨none, true, true⟩, ⟨false, true⟩, true⟩ } }

/-- Making a pool succeeds and saves metadata that can not be loaded. -/
theorem unloadable_after_failed_table :
    ∃ (devs : List StratBlockDev) (p : StratPool) (metadata : PoolSave),
      initializePool true (unattachedInit devs) "pool" = .ok p ∧ p.saved = some metadata ∧
      metadata = p.record "pool" ∧ checkMetadata metadata ≠ .ok () := by
  let bda := BDA.new ⟨⟨0⟩, ⟨1⟩⟩ MDADataSize.default (2 ^ 22) 0
  obtain ⟨d, -, p, hp, metadata, hm, hc⟩ : ∃ d, StratBlockDev.new ⟨8, 16⟩ bda [] none none = .ok d ∧
      ∃ p, initializePool true (unattachedInit [d]) "pool" = .ok p ∧ ∃ metadata ∈ p.saved,
      metadata = p.record "pool" ∧ (checkMetadata metadata).isOk = false := by
    decide +kernel
  refine ⟨[d], p, metadata, hp, hm, hc.1, fun hload => ?_⟩
  rw [hload] at hc
  exact absurd hc.2 (by simp)

end StratPool

end Stratisd.Pool
