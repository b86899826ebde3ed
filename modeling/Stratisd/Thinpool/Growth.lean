import Stratisd.Thinpool.ThinPoolSpec

/-! Growth in place. The data tier and the devices under the thin pool grow by segments, and
the table of each is built anew from all of its segments; no sector that a table maps is moved
by that. -/

namespace Stratisd.Thinpool

open Run Run.Stateful Engine Extent Metadata Backstore Layout

/-! ### Tables -/

/-- A table whose lines lie end to end from sector 0 up to a length, and that sends no two
logical sectors to one sector. -/
structure Lays (table : List TargetLine) (length : ℕ) : Prop where
  contiguous : Contiguous 0 table
  length_eq : tableLength table = length
  mapped : ∀ i, (tableLookup table i).isSome ↔ i < length
  injective : ∀ i j a, tableLookup table i = some a → tableLookup table j = some a → i = j

/-- What one table maps, the other maps to the same sector. -/
def StaysMapped (table table' : List TargetLine) : Prop :=
  ∀ i a, tableLookup table i = some a → tableLookup table' i = some a

theorem StaysMapped.trans {t₁ t₂ t₃ : List TargetLine} (h : StaysMapped t₁ t₂)
    (h' : StaysMapped t₂ t₃) : StaysMapped t₁ t₃ := fun i a hi => h' i a (h i a hi)

theorem lays_linearLines {ps : List (Piece Device)} (h : ps.Pairwise Layout.Apart) :
    Lays (linearLines 0 ps) (extent ps) := by
  refine ⟨contiguous_linearLines, tableLength_linearLines, ?_, ?_⟩
  · rw [tableLookup_linearLines_zero]
    exact fun i => address_isSome
  · rw [tableLookup_linearLines_zero]
    exact fun i j a hi hj => address_injective h hi hj

section run

variable {σ ι ο : Type} (step : σ → ι → σ × ο) (table : σ → List TargetLine) (length : σ → ℕ)

/-- At every point of a run the table is laid out, and what it maps there it still maps at the
end. -/
def GrowsInPlace (start : σ) (inputs : List ι) : Prop :=
  ∀ pre, pre <+: inputs →
    Lays (table (run step start pre).1) (length (run step start pre).1) ∧
      StaysMapped (table (run step start pre).1) (table (run step start inputs).1)

variable {step table length}

theorem growsInPlace_of_invariant {A : σ → ι → Prop} {P : σ → Prop}
    (hlays : ∀ s, P s → Lays (table s) (length s))
    (hstep : ∀ s i, P s → A s i → P (step s i).1 ∧ StaysMapped (table s) (table (step s i).1))
    {start : σ} {inputs : List ι} (h0 : P start) (ha : AllSteps step A start inputs) :
    GrowsInPlace step table length start inputs := by
  -- from the start of a run to its end
  have hrun : ∀ is s, P s → AllSteps step A s is →
      P (run step s is).1 ∧ StaysMapped (table s) (table (run step s is).1) := by
    intro is
    induction is with
    | nil => exact fun s hs _ => ⟨hs, fun _ _ h => h⟩
    | cons i is ih =>
      intro s hs ha
      obtain ⟨h1, h2⟩ := hstep s i hs ha.1
      obtain ⟨h3, h4⟩ := ih _ h1 ha.2
      exact ⟨h3, h2.trans h4⟩
  rintro pre ⟨rest, rfl⟩
  obtain ⟨hpre, hrest⟩ := (allSteps_append step).mp ha
  have hP := (hrun pre start h0 hpre).1
  rw [run_append]
  exact ⟨hlays _ hP, (hrun rest _ hP hrest).2⟩

end run

/-! ### The data tier -/

inductive DataTierInput where
  | alloc (request : ℕ)
  | add (poolUuid : PoolUuid) (prepared : StratisResult (List StratBlockDev))

def dataTierStep (t : DataTier) : DataTierInput → DataTier × StratisResult Unit
  | .alloc request =>
    match t.alloc request with
    | .ok (t', _) => (t', .ok ())
    | .err e => (t, .err e)
    | .panic => (t, .panic)
  | .add poolUuid prepared => Stateful.ignore (DataTier.add poolUuid prepared) t

/-- Devices that are added are unused and new to the tier. -/
def AddsNewDevs (t : DataTier) : DataTierInput → Prop
  | .alloc _ => True
  | .add _ prepared => ∀ new, prepared = .ok new → NewDevs t.blockMgr.blockDevs new

/-- In use on the devices are the segments, and the devices have different numbers. -/
structure DataLaid (t : DataTier) : Prop where
  tracked : t.Tracked
  devices : (t.blockMgr.blockDevs.map (·.dev)).Nodup

theorem DataLaid.lays {t : DataTier} (h : DataLaid t) :
    Lays (mapToDm t.segments) (totalLength t.segments) := by
  rw [← extent_piece]
  exact lays_linearLines (h.tracked.pieces_apart h.devices)

theorem dataLaid_step {t : DataTier} {i : DataTierInput} (h : DataLaid t) (hi : AddsNewDevs t i) :
    DataLaid (dataTierStep t i).1 ∧
      StaysMapped (mapToDm t.segments) (mapToDm (dataTierStep t i).1.segments) := by
  cases i with
  | alloc request =>
    rcases h.tracked.alloc request with heq | ⟨t', heq, htr, hids, hext, -⟩
    · simp only [dataTierStep, heq]
      exact ⟨h, fun _ _ hi => hi⟩
    · simp only [dataTierStep, heq]
      refine ⟨⟨htr, ?_⟩, hext⟩
      rw [show t'.blockMgr.blockDevs.map (·.dev) = t.blockMgr.blockDevs.map (·.dev) from
        map_of_identity (·.1) hids]
      exact h.devices
  | add poolUuid prepared =>
    have ht : (dataTierStep t (.add poolUuid prepared)).1 =
        { t with blockMgr := (BlockDevMgr.add poolUuid prepared t.blockMgr).1 } :=
      ignore_fst _ t
    rw [ht]
    refine ⟨?_, fun _ _ hi => hi⟩
    rcases BlockDevMgr.add_cases poolUuid prepared t.blockMgr with ⟨hsame, -⟩ | ⟨new, hnew, heq⟩
    · rw [hsame]
      exact h
    · rw [heq]
      have hn := hi new hnew
      exact ⟨Tracks.extend h.tracked hn.uuids fun d hd => (hn.fresh d hd).holds, hn.devices⟩

/-! ### The devices under the thin pool -/

inductive FlexInput where
  | extend (io : ThinPool.ExtendIo) (sub : SubDevice) (extendSize modulus : ℕ)
  | addDatadevs (poolUuid : PoolUuid) (prepared : StratisResult (List StratBlockDev))

def flexStep (overflowChecks : Bool) (s : Stacked) : FlexInput → Stacked × StratisResult Unit
  | .extend io sub extendSize modulus =>
    Stateful.ignore (ThinPool.extendThinSubDevice overflowChecks io sub extendSize modulus) s
  | .addDatadevs poolUuid prepared =>
    Stateful.ignore (ThinPool.onBackstore (Backstore.addDatadevs poolUuid prepared)) s

/-- Extensions succeed, and devices that are added are unused and new to the data tier. -/
def Extending (overflowChecks : Bool) (s : Stacked) : FlexInput → Prop
  | .extend io sub extendSize modulus =>
    (flexStep overflowChecks s (.extend io sub extendSize modulus)).2 = .ok ()
  | .addDatadevs _ prepared => s.backstore.UnusedData prepared

/-- The segments tile what has been given out of the cap device, and the devices under the
thin pool have the tables of their segments. -/
structure FlexLaid (s : Stacked) : Prop where
  sound : s.backstore.Sound
  device : s.backstore.device = some s.thinPool.backstoreDevice
  tiles : s.thinPool.segments.Tiles s.backstore.next
  tables : s.thinPool.TablesMatch

/-- The table of one of the devices under the thin pool. -/
def flexTable (sub : SubDevice) (s : Stacked) : List TargetLine := (s.thinPool.thinPool.dev sub).table

/-- How much the segments of the device add up to. -/
def flexLength (sub : SubDevice) (s : Stacked) : ℕ := total (s.thinPool.segments.get sub)

theorem extent_map_pair (device : Device) (segs : List Range) :
    extent (segs.map fun r => (device, r)) = total segs := by
  rw [extent, List.map_map, total]
  rfl

theorem FlexLaid.lays {s : Stacked} (h : FlexLaid s) (sub : SubDevice) :
    Lays (flexTable sub s) (flexLength sub s) := by
  rw [flexTable, h.tables sub, flexLength, ← extent_map_pair s.thinPool.backstoreDevice]
  refine lays_linearLines ?_
  rw [List.pairwise_map]
  have hsep : Separate (s.thinPool.segments.get sub) := by
    obtain ⟨pre, post, hall⟩ := s.thinPool.segments.exists_all_set sub
    have := h.tiles.separate
    rw [← s.thinPool.segments.set_get sub, hall, separate_append, separate_append] at this
    exact this.1.2.1
  exact hsep.imp fun hd => Or.inr hd

theorem staysMapped_coalesceSegs (device : Device) (left right : List Range) :
    StaysMapped (segsToTable device left) (segsToTable device (coalesceSegs left right)) := by
  intro i a hi
  rw [segsToTable, tableLookup_linearLines_zero] at hi ⊢
  have hlt : i < extent (left.map fun r => (device, r)) :=
    address_isSome.mp (by rw [hi]; rfl)
  rw [address_coalesceSegs, List.map_append, address_append_left hlt, hi]

theorem staysMapped_withRegion {t : ThinPool} (h : t.TablesMatch) (sub : SubDevice)
    (region : Range) :
    (t.withRegion t.backstoreDevice sub region).TablesMatch ∧
      ∀ sub', StaysMapped (t.thinPool.dev sub').table
        ((t.withRegion t.backstoreDevice sub region).thinPool.dev sub').table := by
  have htable : ∀ sub', ((t.withRegion t.backstoreDevice sub region).thinPool.dev sub').table =
      if sub' = sub then segsToTable t.backstoreDevice (coalesceSegs (t.segments.get sub) [region])
      else (t.thinPool.dev sub').table := fun sub' => ThinPoolDev.dev_setTable _ _ _ _
  refine ⟨fun sub' => ?_, fun sub' => ?_⟩
  · rw [htable]
    split_ifs with he
    · rw [he]
      exact congrArg _ (Segments.get_set _ _ _).symm
    · rw [h sub']
      exact congrArg _ (Segments.get_set_of_ne _ _ he).symm
  · rw [htable]
    split_ifs with he
    · rw [he, h sub]
      exact staysMapped_coalesceSegs _ _ _
    · exact fun _ _ hi => hi

theorem flexLaid_step {overflowChecks : Bool} {s : Stacked} {i : FlexInput} (h : FlexLaid s)
    (hi : Extending overflowChecks s i) :
    FlexLaid (flexStep overflowChecks s i).1 ∧
      ∀ sub, StaysMapped (flexTable sub s) (flexTable sub (flexStep overflowChecks s i).1) := by
  cases i with
  | extend io sub extendSize modulus =>
    have hs : (flexStep overflowChecks s (.extend io sub extendSize modulus)).1 =
        (ThinPool.extendThinSubDevice overflowChecks io sub extendSize modulus s).1 :=
      ignore_fst _ s
    obtain ⟨n, hn⟩ := ignore_eq_ok.mp (Prod.ext rfl hi)
    obtain ⟨hsound, hgrows⟩ :=
      ThinPool.sound_extendThinSubDevice overflowChecks h.sound io sub extendSize modulus
    obtain ⟨-, hcases⟩ :=
      ThinPool.extendThinSubDevice_room overflowChecks h.sound.toRoom io sub extendSize modulus
    rw [hs]
    have hdev := hgrows.device _ h.device
    rcases hcases with ⟨hnext, ht, -⟩ | ⟨got, device, hpos, hnext, hd, ⟨-, -, ht⟩ | ⟨-, herr, -⟩⟩
    · refine ⟨⟨hsound, ?_, ?_, ?_⟩, fun sub' => ?_⟩
      · rw [ht]
        exact hdev
      · rw [ht, hnext]
        exact h.tiles
      · rw [ht]
        exact h.tables
      · rw [flexTable, flexTable, ht]
        exact fun _ _ hi => hi
    · obtain rfl : device = s.thinPool.backstoreDevice := Option.some.inj (hd.symm.trans hdev)
      obtain ⟨htables, hstays⟩ := staysMapped_withRegion h.tables sub (s.backstore.next, got)
      refine ⟨⟨hsound, ?_, ?_, ?_⟩, fun sub' => ?_⟩
      · rw [ht]
        exact hdev
      · rw [ht, hnext]
        exact h.tiles.extend hpos sub
      · rw [ht]
        exact htables
      · rw [flexTable, flexTable, ht]
        exact hstays sub'
    · rw [hn] at herr
      cases herr
  | addDatadevs poolUuid prepared =>
    have hs : (flexStep overflowChecks s (.addDatadevs poolUuid prepared)).1 =
        { s with backstore := (Backstore.addDatadevs poolUuid prepared s.backstore).1 } :=
      ignore_fst _ s
    have hsound := Backstore.sound_addDatadevs h.sound poolUuid hi
    rw [hs]
    exact ⟨⟨hsound, h.device, h.tiles, h.tables⟩, fun _ _ _ hi => hi⟩

/-! ### Growth -/

/-- The table of the data tier over every sequence of allocations and of additions of devices,
and the tables of the devices under the thin pool over every sequence of successful extensions,
start at sector 0, have no gaps and no overlaps and are as long as the segments add up to; a
sector that is mapped stays where it is, and no two logical sectors share one. -/
theorem growth_never_moves_data (overflowChecks : Bool) :
    (∀ (devs : List StratBlockDev) (inputs : List DataTierInput), NewDevs [] devs →
      AllSteps dataTierStep AddsNewDevs (DataTier.new ⟨devs, none⟩) inputs →
      GrowsInPlace dataTierStep (fun t => mapToDm t.segments) (fun t => totalLength t.segments)
        (DataTier.new ⟨devs, none⟩) inputs) ∧
    ∀ (devs : List StratBlockDev) (io : ThinPool.NewIo) (b b' : Backstore) (t : ThinPool)
      (inputs : List FlexInput), (∀ d ∈ devs, d.Fresh) → (devs.map (·.uuid)).Nodup →
      Backstore.initializeStore (.ok devs) = .ok b →
      ThinPool.new overflowChecks io ThinPoolSizeParams.default dataBlockSize b = (b', .ok t) →
      AllSteps (flexStep overflowChecks) (Extending overflowChecks) ⟨t, b'⟩ inputs →
      (run (flexStep overflowChecks) ⟨t, b'⟩ inputs).1.thinPool.TablesMatch ∧
      ∀ sub, GrowsInPlace (flexStep overflowChecks) (flexTable sub) (flexLength sub) ⟨t, b'⟩
        inputs := by
  refine ⟨fun devs inputs hnew ha => ?_, fun devs io b b' t inputs hf hn hb ht ha => ?_⟩
  · refine growsInPlace_of_invariant (fun t => DataLaid.lays) (fun t i => dataLaid_step) ?_ ha
    exact ⟨CacheTier.tracks_of_fresh hnew.fresh hnew.uuids, hnew.devices⟩
  · obtain ⟨hk, hnext⟩ := Backstore.kept_initializeStore hf hn hb
    obtain ⟨-, htiles⟩ := ThinPool.new_room hk.sound.toRoom hnext (by decide) ht
    obtain ⟨_, _, _, _, halloc, hdevice, -, htables⟩ := ThinPool.new_eq_ok ht
    have hsound := (Backstore.alloc_spec hk.sound io.cap ThinPoolSizeParams.default.sizes).1
    rw [halloc] at hsound
    have h0 : FlexLaid ⟨t, b'⟩ := ⟨hsound, hdevice, htiles, htables⟩
    refine ⟨?_, fun sub => ?_⟩
    · have hend := run_state_invariant (flexStep overflowChecks) (P := FlexLaid)
        (fun s i h hi => (flexLaid_step h hi).1) h0 ha
      exact hend.tables
    · refine growsInPlace_of_invariant (P := FlexLaid) (fun s h => h.lays sub) (fun s i h hi => ?_)
        h0 ha
      obtain ⟨hlaid, hstays⟩ := flexLaid_step h hi
      exact ⟨hlaid, hstays sub⟩

/-- Two allocations from one device, and one extension of the data device of a new thin pool. -/
theorem growth_never_moves_data_one_device :
    ∃ (d : StratBlockDev) (b b' : Backstore) (t : ThinPool) (io : ThinPool.NewIo)
      (extendIo : ThinPool.ExtendIo),
      GrowsInPlace dataTierStep (fun t => mapToDm t.segments) (fun t => totalLength t.segments)
        (DataTier.new ⟨[d], none⟩) [.alloc 2048, .alloc 4096] ∧
      Backstore.initializeStore (.ok [d]) = .ok b ∧
      ThinPool.new true io ThinPoolSizeParams.default dataBlockSize b = (b', .ok t) ∧
      GrowsInPlace (flexStep true) (flexTable .thinData) (flexLength .thinData) ⟨t, b'⟩
        [.extend extendIo .thinData 4096 dataBlockSize] := by
  let bda := BDA.new ⟨⟨0⟩, ⟨1⟩⟩ MDADataSize.default (2 ^ 22) 0
  let io : ThinPool.NewIo := ⟨⟨some ⟨253, 0⟩, true, true⟩, some ⟨253, 1⟩, .ok (), some ⟨253, 2⟩,
    some ⟨253, 3⟩, .ok (), true⟩
  let extendIo : ThinPool.ExtendIo := ⟨⟨none, true, true⟩, ⟨true, true⟩, true⟩
  let made := ThinPool.new true io ThinPoolSizeParams.default dataBlockSize
  obtain ⟨d, hd, b, hb, t, ht, h⟩ : ∃ d, StratBlockDev.new ⟨8, 16⟩ bda [] none none = .ok d ∧
      ∃ b, Backstore.initializeStore (.ok [d]) = .ok b ∧ ∃ t, (made b).2 = .ok t ∧
      (flexStep true ⟨t, (made b).1⟩ (.extend extendIo .thinData 4096 dataBlockSize)).2 =
        .ok () := by
    decide +kernel
  have hfresh : d.Fresh := ⟨⟨8, 16⟩, bda, none, none, by decide +kernel, by decide +kernel, hd⟩
  obtain ⟨hdata, hflex⟩ := growth_never_moves_data true
  refine ⟨d, b, _, t, io, extendIo, ?_, hb, Prod.ext rfl ht, ?_⟩
  · exact hdata [d] _ ⟨by simpa using hfresh, by simp, by simp⟩ ⟨trivial, trivial, trivial⟩
  · refine (hflex [d] io b _ t [_] (by simpa using hfresh) (by simp) hb (Prod.ext rfl ht) ?_).2 _
    exact ⟨h, trivial⟩

end Stratisd.Thinpool
