import Stratisd.Backstore.BackstoreSpec

/-! Runs of allocations from the cap device. Over every run the chunks that are given out tile
the cap device up to the index, and the index, the cap device and the data tier stay in order.
A single request finds all the space there is, unless a halved request falls below what is left
of the cap device. -/

namespace Stratisd.Backstore

open Run Run.Stateful Engine Extent Metadata

namespace Backstore

/-! ### Runs -/

inductive CapInput where
  | alloc (io : CapIo) (sizes : List ℕ)
  | request (io : CapIo) (n modulus : ℕ)
  | addDatadevs (poolUuid : PoolUuid) (prepared : StratisResult (List StratBlockDev))

/-- The call, with the chunks that it returns. -/
def CapInput.apply (overflowChecks : Bool) : CapInput → M (List Range)
  | .alloc io sizes => do
    let chunks ← Backstore.alloc io sizes
    pure (chunks.getD [])
  | .request io n modulus => do
    let region ← Backstore.request overflowChecks io n modulus
    pure region.toList
  | .addDatadevs poolUuid prepared => do
    let _ ← Backstore.addDatadevs poolUuid prepared
    pure []

def capStep (overflowChecks : Bool) (b : Backstore) (i : CapInput) :
    Backstore × StratisResult (List Range) := i.apply overflowChecks b

/-- Devices that are added are unused and new to the data tier. -/
def CapInput.Admitted (b : Backstore) : CapInput → Prop
  | .addDatadevs _ prepared => b.UnusedData prepared
  | _ => True

def returned : StratisResult (List Range) → List Range
  | .ok chunks => chunks
  | _ => []

/-- All chunks that have been given out in a run, in order. -/
def given (tr : List (CapInput × StratisResult (List Range))) : List Range :=
  tr.flatMap fun p => returned p.2

variable {b : Backstore} {overflowChecks : Bool}

theorem capStep_spec (overflowChecks : Bool) (h : b.Sound) {i : CapInput} (hi : i.Admitted b) :
    (capStep overflowChecks b i).1.Sound ∧
      ∃ sizes, returned (capStep overflowChecks b i).2 = chunksFrom b.next sizes ∧
        (capStep overflowChecks b i).1.next = b.next + sizes.sum := by
  cases i with
  | alloc io sizes =>
    have heq : capStep overflowChecks b (.alloc io sizes) = _ :=
      bind_pure_apply (Backstore.alloc io sizes) (·.getD []) b
    obtain ⟨hs, -, ⟨hres, hn⟩ | ⟨hres, hn⟩⟩ := alloc_spec h io sizes
    · rw [heq, hres]
      exact ⟨hs, sizes, rfl, hn⟩
    · rw [heq]
      refine ⟨hs, [], ?_, hn⟩
      cases hr : (Backstore.alloc io sizes b).2 with
      | ok chunks =>
        cases chunks with
        | none => rfl
        | some cs => exact absurd hr (hres cs)
      | err e => rfl
      | panic => rfl
  | request io n modulus =>
    have heq : capStep overflowChecks b (.request io n modulus) = _ :=
      bind_pure_apply (Backstore.request overflowChecks io n modulus) (·.toList) b
    obtain ⟨hs, -, ⟨got, -, -, -, hres, hn⟩ | ⟨hres, hn⟩⟩ :=
      request_spec h overflowChecks io n modulus
    · rw [heq, hres]
      refine ⟨hs, [got], rfl, ?_⟩
      rw [hn, List.sum_singleton]
    · rw [heq]
      refine ⟨hs, [], ?_, hn⟩
      cases hr : (Backstore.request overflowChecks io n modulus b).2 with
      | ok region =>
        cases region with
        | none => rfl
        | some region => exact absurd hr (hres region)
      | err e => rfl
      | panic => rfl
  | addDatadevs poolUuid prepared =>
    have heq : capStep overflowChecks b (.addDatadevs poolUuid prepared) = _ :=
      bind_pure_apply (Backstore.addDatadevs poolUuid prepared) (fun _ => []) b
    rw [heq]
    refine ⟨sound_addDatadevs h poolUuid hi, [], ?_, rfl⟩
    cases (Backstore.addDatadevs poolUuid prepared b).2 <;> rfl

theorem chunksFrom_append (next : ℕ) (sizes sizes' : List ℕ) :
    chunksFrom next (sizes ++ sizes') =
      chunksFrom next sizes ++ chunksFrom (next + sizes.sum) sizes' := by
  induction sizes generalizing next with
  | nil => rfl
  | cons size sizes ih => simp [chunksFrom, ih, Nat.add_assoc]

theorem cells_chunksFrom (next : ℕ) (sizes : List ℕ) :
    cells (chunksFrom next sizes) = Finset.Ico next (next + sizes.sum) := by
  induction sizes generalizing next with
  | nil => simp [chunksFrom]
  | cons size sizes ih =>
    ext x
    simp only [chunksFrom, cells_cons, ih, Finset.mem_union, Range.mem_cells, Finset.mem_Ico,
      List.sum_cons]
    omega

theorem separate_chunksFrom (next : ℕ) (sizes : List ℕ) : Separate (chunksFrom next sizes) := by
  induction sizes generalizing next with
  | nil => exact List.Pairwise.nil
  | cons size sizes ih =>
    refine List.pairwise_cons.mpr ⟨fun q hq => ?_, ih _⟩
    have hd : Disjoint (cells (chunksFrom (next + size) sizes)) (Range.cells (next, size)) := by
      rw [cells_chunksFrom, Finset.disjoint_left]
      intro x hx hy
      simp only [Finset.mem_Ico, Range.mem_cells] at hx hy
      omega
    exact (disjoint_cells_left.mp hd q hq).symm

/-- The index and the chunks that have been given out. -/
structure Bumped (b : Backstore) (chunks : List Range) : Prop where
  sound : b.Sound
  consecutive : chunks = chunksFrom 0 (chunks.map (·.2))
  index : (chunks.map (·.2)).sum = b.next

theorem bumped_run {devs : List StratBlockDev} (hf : ∀ d ∈ devs, d.Fresh)
    (hn : (devs.map (·.uuid)).Nodup) (h : initializeStore (.ok devs) = .ok b)
    {inputs : List CapInput} (ha : AllSteps (capStep overflowChecks) CapInput.Admitted b inputs) :
    Bumped (run (capStep overflowChecks) b inputs).1
      (given (run (capStep overflowChecks) b inputs).2) := by
  obtain ⟨hk, hnext⟩ := kept_initializeStore hf hn h
  refine run_invariant (capStep overflowChecks) (P := fun b tr => Bumped b (given tr))
    (fun b tr i hP hA => ?_) ⟨hk.sound, rfl, hnext.symm⟩ ha
  obtain ⟨hs, sizes, hret, hnext'⟩ := capStep_spec overflowChecks hP.sound hA
  have hsnoc : given (tr ++ [(i, (capStep overflowChecks b i).2)]) =
      given tr ++ chunksFrom b.next sizes := by
    rw [← hret]
    simp [given]
  have hsizes : (given tr ++ chunksFrom b.next sizes).map (·.2) = (given tr).map (·.2) ++ sizes := by
    rw [List.map_append, map_snd_chunksFrom]
  rw [hsnoc]
  refine ⟨hs, ?_, ?_⟩
  · rw [hsizes, chunksFrom_append, ← hP.consecutive, hP.index, Nat.zero_add]
  · rw [hsizes, List.sum_append, hP.index, hnext']

theorem usableSize_eq {t : DataTier} (h : t.Tracked) (overflowChecks : Bool) :
    t.usableSize overflowChecks = .ok (t.blockMgr.availSpace + totalLength t.segments) := by
  rw [DataTier.usableSize, DataTier.size, Tracks.account h, Outcome.ok_bind, DataTier.metadataSize,
    subU64, if_pos (Nat.le_add_left _ _), Nat.add_sub_cancel]

/-- Over every run of allocations, requests and additions of devices, however device-mapper
answers: in every state the index is inside the cap device, the cap device is on segments of the
data tier, and those are within its usable size, so that what is left can be computed; and the
chunks given out so far follow each other from sector 0 to the index, each sector once. -/
theorem cap_bump_allocation (overflowChecks : Bool) {devs : List StratBlockDev}
    (hf : ∀ d ∈ devs, d.Fresh) (hn : (devs.map (·.uuid)).Nodup) {start : Backstore}
    (hstart : initializeStore (.ok devs) = .ok start) {inputs : List CapInput}
    (ha : AllSteps (capStep overflowChecks) CapInput.Admitted start inputs) :
    ∀ pre, pre <+: inputs →
      let b := (run (capStep overflowChecks) start pre).1
      let chunks := given (run (capStep overflowChecks) start pre).2
      (b.next ≤ b.size ∧ b.size ≤ totalLength b.dataTier.segments ∧
        ∃ usable, b.dataTier.usableSize overflowChecks = .ok usable ∧
          totalLength b.dataTier.segments ≤ usable ∧
          b.availableInCap = .ok (b.size - b.next) ∧
          b.availableInBackstore overflowChecks = .ok (usable - b.next)) ∧
      chunks = chunksFrom 0 (chunks.map (·.2)) ∧ cells chunks = Finset.range b.next ∧
        Separate chunks := by
  intro pre hpre b chunks
  obtain ⟨rest, rfl⟩ := hpre
  have hb : Bumped b chunks := bumped_run hf hn hstart ((allSteps_append _).mp ha).1
  have hroom := hb.sound.toRoom
  have husable := usableSize_eq hb.sound.tracked overflowChecks
  have hle : totalLength b.dataTier.segments ≤
      b.dataTier.blockMgr.availSpace + totalLength b.dataTier.segments := Nat.le_add_left _ _
  refine ⟨⟨hroom.next_le, hroom.size_le, _, husable, hle, availableInCap_eq hroom, ?_⟩,
    hb.consecutive, ?_, ?_⟩
  · rw [availableInBackstore, husable, Outcome.ok_bind]
    exact subU64_of_le ((hroom.next_le.trans hroom.size_le).trans hle)
  · rw [hb.consecutive, cells_chunksFrom, hb.index, Nat.zero_add, Finset.range_eq_Ico]
  · rw [hb.consecutive]
    exact separate_chunksFrom _ _

/-- An allocation whose cap device can not be made, and a request after it. -/
theorem cap_bump_allocation_failed_create : ∃ (d : StratBlockDev) (start : Backstore),
    d.Fresh ∧ initializeStore (.ok [d]) = .ok start ∧
    let tr := run (capStep true) start
      [.alloc ⟨none, true, true⟩ [2048], .request ⟨some ⟨253, 0⟩, true, true⟩ 4096 2048]
    cells (given tr.2) = Finset.range tr.1.next := by
  obtain ⟨d, hd, -⟩ := StratBlockDev.exists_fresh
    (BDA.new ⟨⟨0⟩, ⟨1⟩⟩ MDADataSize.default 1073741824 0) ⟨8, 16⟩ (by decide) (by decide)
  let start : Backstore := ⟨none, none, DataTier.new ⟨[d], none⟩, none, 0⟩
  have hstart : initializeStore (.ok [d]) = .ok start := rfl
  have ha : AllSteps (capStep true) CapInput.Admitted start
      [.alloc ⟨none, true, true⟩ [2048], .request ⟨some ⟨253, 0⟩, true, true⟩ 4096 2048] :=
    ⟨trivial, trivial, trivial⟩
  exact ⟨d, start, hd, hstart, (cap_bump_allocation true (by simpa using hd) (by simp) hstart ha
    _ (List.prefix_refl _)).2.2.1⟩

/-! ### One request -/

/-- Device-mapper does what `extend_cap_device` asks for. -/
def CapIo.Succeeds (io : CapIo) : Prop :=
  io.create.isSome = true ∧ io.setTable = true ∧ io.resume = true

theorem extendCapDevice_ok {io : CapIo} (hio : CapIo.Succeeds io)
    (hs : b.cache = none ∨ b.linear = none) : (extendCapDevice io b).2 = .ok () := by
  obtain ⟨create, setTable, resume⟩ := io
  obtain ⟨hc, rfl, rfl⟩ := hio
  obtain ⟨d, rfl⟩ := Option.isSome_iff_exists.mp hc
  unfold extendCapDevice
  rw [get_bind]
  rcases hc : b.cache with _ | cache <;> rcases hl : b.linear with _ | linear <;> simp only
  · rfl
  · rfl
  · rfl
  · simp [hc, hl] at hs

/-- The next smaller request that the loop tries. -/
def halved (modulus n : ℕ) : ℕ := n / 2 / modulus * modulus

/-- Some request that the loop may come to needs no more than there is and no less than what is
left of the cap device. -/
def FitsHalving (available free modulus n : ℕ) : Prop :=
  ∃ k, (halved modulus)^[k] n ≠ 0 ∧ available ≤ (halved modulus)^[k] n ∧
    (halved modulus)^[k] n ≤ available + free

theorem halved_le (modulus n : ℕ) : halved modulus n ≤ n / 2 := Nat.div_mul_le_self _ _

theorem iterate_halved_le (modulus n k : ℕ) : (halved modulus)^[k] n ≤ n := by
  induction k generalizing n with
  | zero => exact le_rfl
  | succ k ih =>
    rw [Function.iterate_succ_apply]
    exact (ih _).trans ((halved_le _ _).trans (Nat.div_le_self _ _))

theorem dvd_iterate_halved {modulus n : ℕ} (h : modulus ∣ n) (k : ℕ) :
    modulus ∣ (halved modulus)^[k] n := by
  induction k generalizing n with
  | zero => exact h
  | succ k ih =>
    rw [Function.iterate_succ_apply]
    exact ih (Dvd.intro_left (n / 2 / modulus) rfl)

theorem allocData_of_tracked (h : b.dataTier.Tracked) (n : ℕ) :
    (b.dataTier.blockMgr.availSpace < n → allocData n b = (b, .ok false)) ∧
      (n ≤ b.dataTier.blockMgr.availSpace → (allocData n b).2 = .ok true) := by
  have hsum : [n].sum = n := List.sum_singleton
  rcases Tracks.allocSpace h [n] with ⟨hlt, heq⟩ | ⟨hge, bds', lists, heq, -⟩
  · rw [hsum] at hlt
    refine ⟨fun _ => ?_, fun hle => absurd hlt (not_lt.mpr hle)⟩
    rw [allocData, get_bind, DataTier.alloc, heq, Outcome.ok_bind, lift_ok_bind]
    rfl
  · rw [hsum] at hge
    refine ⟨fun hlt => absurd hlt (not_lt.mpr hge), fun _ => ?_⟩
    rw [allocData, get_bind, DataTier.alloc, heq, Outcome.ok_bind, lift_ok_bind]
    rfl

section loop

variable {available modulus : ℕ}

theorem requestLoop_of_fits (h : b.dataTier.Tracked) {fuel n : ℕ} (hn : n < 2 ^ fuel)
    (hfit : FitsHalving available b.dataTier.blockMgr.availSpace modulus n) :
    (requestLoop overflowChecks available modulus fuel n b).2 = .ok true := by
  induction fuel generalizing n with
  | zero =>
    obtain ⟨k, hk, -, -⟩ := hfit
    have := iterate_halved_le modulus n k
    simp only [pow_zero, Nat.lt_one_iff] at hn
    omega
  | succ fuel ih =>
    obtain ⟨k, hk, hlow, hhigh⟩ := hfit
    have hle := iterate_halved_le modulus n k
    have hav : available ≤ n := hlow.trans hle
    rw [requestLoop, if_neg (by omega), subU64_of_le hav, lift_ok_bind]
    obtain ⟨hrefuse, hgrant⟩ := allocData_of_tracked h (n - available)
    rcases Nat.lt_or_ge b.dataTier.blockMgr.availSpace (n - available) with hlt | hge
    · rw [bind_of_eq (hrefuse hlt)]
      refine ih ?_ ?_
      · have := halved_le modulus n
        rw [halved] at this
        rw [pow_succ] at hn
        omega
      · -- this request does not fit, so it is a later one that does
        cases k with
        | zero =>
          simp only [Function.iterate_zero, id_eq] at hhigh
          omega
        | succ k => exact ⟨k, hk, hlow, hhigh⟩
    · rw [bind_of_ok (hgrant hge)]
      rfl

theorem requestLoop_of_short (h : b.dataTier.Tracked) {fuel n : ℕ} (hn : n < 2 ^ fuel)
    (hd : modulus ∣ n) (hshort : available + b.dataTier.blockMgr.availSpace < modulus) :
    requestLoop overflowChecks available modulus fuel n b = (b, .ok false) := by
  induction fuel generalizing n with
  | zero => rfl
  | succ fuel ih =>
    rw [requestLoop]
    split_ifs with h0
    · rfl
    · have hmod : modulus ≤ n := Nat.le_of_dvd (Nat.pos_of_ne_zero h0) hd
      rw [subU64_of_le (by omega), lift_ok_bind,
        bind_of_eq ((allocData_of_tracked h _).1 (by omega))]
      refine ih ?_ (Dvd.intro_left (n / 2 / modulus) rfl)
      have := halved_le modulus n
      rw [halved] at this
      rw [pow_succ] at hn
      omega

/-- Otherwise the loop comes to a request below what is left of the cap device. -/
theorem requestLoop_of_not_fits (h : b.dataTier.Tracked) {fuel n : ℕ} (hn : n < 2 ^ fuel)
    (hd : modulus ∣ n) (hpos : 0 < n)
    (henough : modulus ≤ available + b.dataTier.blockMgr.availSpace)
    (hfit : ¬ FitsHalving available b.dataTier.blockMgr.availSpace modulus n) :
    (requestLoop true available modulus fuel n b).2 = .panic := by
  induction fuel generalizing n with
  | zero =>
    simp only [pow_zero, Nat.lt_one_iff] at hn
    omega
  | succ fuel ih =>
    rw [requestLoop, if_neg hpos.ne']
    rcases Nat.lt_or_ge n available with hlt | hge
    · rw [subU64, if_neg (not_le.mpr hlt), if_pos rfl, lift_panic_bind]
    · have hmore : available + b.dataTier.blockMgr.availSpace < n := by
        by_contra hle
        exact hfit ⟨0, hpos.ne', hge, not_lt.mp hle⟩
      rw [subU64_of_le hge, lift_ok_bind,
        bind_of_eq ((allocData_of_tracked h _).1 (by omega))]
      -- more than one modulus, so that half of it is not nothing
      have htwo : 2 * modulus ≤ n := by
        obtain ⟨q, rfl⟩ := hd
        have hq : 1 < q := by
          by_contra hq
          have : modulus * q ≤ modulus * 1 := Nat.mul_le_mul_left _ (by omega)
          omega
        calc 2 * modulus ≤ q * modulus := Nat.mul_le_mul_right _ hq
          _ = modulus * q := Nat.mul_comm _ _
      refine ih ?_ (Dvd.intro_left (n / 2 / modulus) rfl) ?_ fun hfits => hfit ?_
      · have := halved_le modulus n
        rw [halved] at this
        rw [pow_succ] at hn
        omega
      · rcases Nat.eq_zero_or_pos modulus with rfl | hm
        · rw [Nat.zero_dvd] at hd
          omega
        · have : 0 < n / 2 / modulus := Nat.div_pos (by omega) hm
          exact Nat.mul_pos this hm
      · obtain ⟨k, hk⟩ := hfits
        exact ⟨k + 1, hk⟩

end loop

/-- What a request promises: if there is room for one modulus, the next sectors, some multiple of
the modulus and no more than asked for; otherwise nothing happens. -/
def MeetsContract (b : Backstore) (n modulus : ℕ)
    (r : Backstore × StratisResult (Option Range)) : Prop :=
  if modulus ≤ min n (b.size - b.next + b.dataTier.blockMgr.availSpace) then Grants b n modulus r
  else r = (b, .ok none)

/-- The request is served from the cap device as it is, or there is not even one modulus, or a
request fits that the loop comes to. -/
def Servable (b : Backstore) (n modulus : ℕ) : Prop :=
  n / modulus * modulus ≤ b.size - b.next ∨
    b.size - b.next + b.dataTier.blockMgr.availSpace < modulus ∨
    FitsHalving (b.size - b.next) b.dataTier.blockMgr.availSpace modulus (n / modulus * modulus)

section contract

variable {io : CapIo} {n modulus : ℕ}

theorem request_eq (h : b.Room) (hm : modulus ≠ 0) (h0 : n / modulus * modulus ≠ 0) :
    request overflowChecks io n modulus b =
      if b.size - b.next < n / modulus * modulus then (do
        let allocated ← requestLoop overflowChecks (b.size - b.next) modulus
          ((n / modulus * modulus).log2 + 1) (n / modulus * modulus)
        if allocated then takeExtended io n modulus else pure none) b
      else takeChunk (n / modulus * modulus) b := by
  rw [request, if_neg hm, if_neg h0, get_bind, availableInCap_eq h, lift_ok_bind]
  split_ifs <;> rfl

theorem takeExtended_some (h : b.Room) (hs : b.cache = none ∨ b.linear = none)
    (hio : CapIo.Succeeds io) : ∃ region, (takeExtended io n modulus b).2 = .ok (some region) := by
  have hroom := (extendCapDevice_room h io).1
  rw [takeExtended, bind_of_ok (extendCapDevice_ok hio hs), get_bind,
    availableInCap_eq hroom, lift_ok_bind]
  exact ⟨_, rfl⟩

theorem grants_of_loop (h : b.Sound) (hio : CapIo.Succeeds io) (hm : modulus ≠ 0)
    (h0 : n / modulus * modulus ≠ 0) (hav : b.size - b.next < n / modulus * modulus)
    (hloop : (requestLoop overflowChecks (b.size - b.next) modulus
      ((n / modulus * modulus).log2 + 1) (n / modulus * modulus) b).2 = .ok true) :
    Grants b n modulus (request overflowChecks io n modulus b) := by
  refine (request_room h.toRoom overflowChecks io n modulus).2.resolve_right fun hnone => ?_
  have hroom := (requestLoop_room b overflowChecks (b.size - b.next) modulus
    ((n / modulus * modulus).log2 + 1) (Dvd.intro_left (n / modulus) rfl)).1
  have hgrown := (stable_grownFrom b).keeps_requestLoop overflowChecks (b.size - b.next) modulus
    ((n / modulus * modulus).log2 + 1) (n / modulus * modulus) b h.grownFrom
  obtain ⟨region, hregion⟩ : ∃ region, (takeExtended io n modulus (requestLoop overflowChecks
      (b.size - b.next) modulus ((n / modulus * modulus).log2 + 1) (n / modulus * modulus) b).1).2 =
      .ok (some region) := takeExtended_some (h.toRoom.roomier hroom) hgrown.shape hio
  refine hnone.1 region ?_
  rw [request_eq h.toRoom hm h0, if_pos hav, bind_of_ok hloop]
  exact hregion

theorem request_of_servable (h : b.Sound) (hio : CapIo.Succeeds io) (hm : modulus ≠ 0)
    (hs : Servable b n modulus) :
    MeetsContract b n modulus (request overflowChecks io n modulus b) := by
  have hle : n / modulus * modulus ≤ n := Nat.div_mul_le_self _ _
  have hdvd : modulus ∣ n / modulus * modulus := Dvd.intro_left _ rfl
  have hfuel : n / modulus * modulus < 2 ^ ((n / modulus * modulus).log2 + 1) := Nat.lt_log2_self
  unfold MeetsContract
  by_cases h0 : n / modulus * modulus = 0
  · have hlt : n < modulus := by
      rcases Nat.mul_eq_zero.mp h0 with hdiv | hz
      · exact (Nat.div_eq_zero_iff.mp hdiv).resolve_left hm
      · exact absurd hz hm
    rw [if_neg (by omega), request, if_neg hm, if_pos h0]
    rfl
  · have hmle : modulus ≤ n / modulus * modulus := Nat.le_of_dvd (Nat.pos_of_ne_zero h0) hdvd
    rcases Nat.lt_or_ge (b.size - b.next) (n / modulus * modulus) with hav | hav
    · rcases hs with hs | hshort | hfit
      · omega
      · rw [if_neg (by omega), request_eq h.toRoom hm h0, if_pos hav,
          bind_of_eq (requestLoop_of_short h.tracked hfuel hdvd hshort)]
        rfl
      · have henough : modulus ≤ min n (b.size - b.next + b.dataTier.blockMgr.availSpace) := by
          obtain ⟨k, hk, -, hhigh⟩ := hfit
          have := Nat.le_of_dvd (Nat.pos_of_ne_zero hk) (dvd_iterate_halved hdvd k)
          omega
        rw [if_pos henough]
        exact grants_of_loop h hio hm h0 hav (requestLoop_of_fits h.tracked hfuel hfit)
    · rw [if_pos (by omega), request_eq h.toRoom hm h0, if_neg (not_lt.mpr hav)]
      exact ⟨_, Nat.pos_of_ne_zero h0, hdvd, hle, rfl, rfl⟩

theorem request_of_not_servable (h : b.Sound) (hm : modulus ≠ 0) (hs : ¬ Servable b n modulus) :
    (request true io n modulus b).2 = .panic := by
  unfold Servable at hs
  push Not at hs
  obtain ⟨hav, henough, hfit⟩ := hs
  have h0 : n / modulus * modulus ≠ 0 := by omega
  have hloop := requestLoop_of_not_fits h.tracked Nat.lt_log2_self (Dvd.intro_left (n / modulus) rfl)
    (Nat.pos_of_ne_zero h0) henough hfit
  rw [request_eq h.toRoom hm h0, if_pos hav, bind_of_panic hloop]

/-- In every state that is reached, a request meets its contract and none of its subtractions
underflows, if and only if it can be served without a halved request below what is left of the
cap device. -/
theorem request_contract_iff {devs : List StratBlockDev} (hf : ∀ d ∈ devs, d.Fresh)
    (hn : (devs.map (·.uuid)).Nodup) {start : Backstore}
    (hstart : initializeStore (.ok devs) = .ok start) {inputs : List CapInput}
    (ha : AllSteps (capStep overflowChecks) CapInput.Admitted start inputs)
    (hio : CapIo.Succeeds io) (hm : modulus ≠ 0) :
    let b := (run (capStep overflowChecks) start inputs).1
    ((request true io n modulus b).2 ≠ .panic ∧
      MeetsContract b n modulus (request overflowChecks io n modulus b)) ↔ Servable b n modulus := by
  intro b
  have hb : b.Sound := (bumped_run hf hn hstart ha).sound
  constructor
  · rintro ⟨hok, -⟩
    by_contra hs
    exact hok (request_of_not_servable hb hm hs)
  · intro hs
    refine ⟨fun hpanic => ?_, request_of_servable hb hio hm hs⟩
    have hmeets : MeetsContract b n modulus (request true io n modulus b) :=
      request_of_servable hb hio hm hs
    unfold MeetsContract at hmeets
    split_ifs at hmeets
    · obtain ⟨got, -, -, -, hres, -⟩ := hmeets
      rw [hpanic] at hres
      cases hres
    · rw [hmeets] at hpanic
      cases hpanic

/-- A second request, for which the cap device is extended. -/
theorem request_contract_iff_second : ∃ (d : StratBlockDev) (start : Backstore),
    d.Fresh ∧ initializeStore (.ok [d]) = .ok start ∧
    let io : CapIo := ⟨some ⟨253, 0⟩, true, true⟩
    let b := (run (capStep true) start [.request io 2048 2048]).1
    MeetsContract b 4096 2048 (request true io 4096 2048 b) := by
  let bda := BDA.new ⟨⟨0⟩, ⟨1⟩⟩ MDADataSize.default (2 ^ 22) 0
  let io : CapIo := ⟨some ⟨253, 0⟩, true, true⟩
  let next := fun start : Backstore => (run (capStep true) start [.request io 2048 2048]).1
  obtain ⟨d, hd, start, hstart, hfit⟩ : ∃ d, StratBlockDev.new ⟨8, 16⟩ bda [] none none = .ok d ∧
      ∃ start, initializeStore (.ok [d]) = .ok start ∧
      (next start).size - (next start).next ≤ 4096 ∧ 4096 ≤ (next start).size - (next start).next +
        (next start).dataTier.blockMgr.availSpace := by
    decide +kernel
  have hfresh : d.Fresh := ⟨⟨8, 16⟩, bda, none, none, by decide +kernel, by decide +kernel, hd⟩
  have ha : AllSteps (capStep true) CapInput.Admitted start [.request io 2048 2048] :=
    ⟨trivial, trivial⟩
  have hio : CapIo.Succeeds io := ⟨rfl, rfl, rfl⟩
  have hs : Servable (run (capStep true) start [.request io 2048 2048]).1 4096 2048 :=
    .inr (.inr ⟨0, by decide, hfit⟩)
  exact ⟨d, start, hfresh, hstart, ((request_contract_iff (by simpa using hfresh) (by simp) hstart ha
    hio (by decide)).mpr hs).2⟩

/-- A cap device that could not be created leaves segments behind. Once it is there three quarters
of it are free, and a request for all of it stops at an underflow, or finds nothing. -/
theorem request_underflow : ∃ (d : StratBlockDev) (start : Backstore),
    d.Fresh ∧ initializeStore (.ok [d]) = .ok start ∧
    let io : CapIo := ⟨some ⟨253, 0⟩, true, true⟩
    let b := (run (capStep true) start
      [.alloc ⟨none, true, true⟩ [3139584], .request io 1046528 1046528]).1
    b.next ≤ b.size ∧
      1046528 ≤ min 4186112 (b.size - b.next + b.dataTier.blockMgr.availSpace) ∧
      (request true io 4186112 1046528 b).2 = .panic ∧
      (request false io 4186112 1046528 b).2 = .ok none := by
  let bda := BDA.new ⟨⟨0⟩, ⟨1⟩⟩ MDADataSize.default (2 ^ 22) 0
  let io : CapIo := ⟨some ⟨253, 0⟩, true, true⟩
  let next := fun start : Backstore => (run (capStep true) start
    [.alloc ⟨none, true, true⟩ [3139584], .request io 1046528 1046528]).1
  obtain ⟨d, hd, start, hstart, hb⟩ : ∃ d, StratBlockDev.new ⟨8, 16⟩ bda [] none none = .ok d ∧
      ∃ start, initializeStore (.ok [d]) = .ok start ∧ (next start).next ≤ (next start).size ∧
      1046528 ≤ min 4186112 ((next start).size - (next start).next +
        (next start).dataTier.blockMgr.availSpace) ∧
      (request true io 4186112 1046528 (next start)).2 = .panic ∧
      (request false io 4186112 1046528 (next start)).2 = .ok none := by
    decide +kernel
  exact ⟨d, start, ⟨⟨8, 16⟩, bda, none, none, by decide +kernel, by decide +kernel, hd⟩, hstart, hb⟩

end contract

end Backstore

end Stratisd.Backstore
