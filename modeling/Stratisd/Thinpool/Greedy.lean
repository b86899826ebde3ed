import Stratisd.Backstore.CapRun
import Stratisd.Run.Loop
import Stratisd.Thinpool.CheckSpec
import Stratisd.Thinpool.Growth

/-! Greedy allocation. As long as device-mapper does what it is asked to, all segments of the data
tier are under the cap device, so that one request gets everything that is left. A round of a check
that asks for another one has moved the index into the cap device, which the usable size bounds. -/

namespace Stratisd.Backstore

open Run Run.Outcome Run.Stateful Engine

namespace Backstore

variable {b : Backstore} {overflowChecks : Bool} {io : CapIo}

/-- All segments of the data tier are under the cap device. -/
structure Filled (b : Backstore) : Prop extends Sound b where
  full : b.size = totalLength b.dataTier.segments

/-- What the data tier can hold. -/
def usable (b : Backstore) : ℕ := b.dataTier.blockMgr.availSpace + totalLength b.dataTier.segments

theorem datatierUsableSize_eq (h : b.Sound) : b.datatierUsableSize overflowChecks = .ok b.usable :=
  usableSize_eq h.tracked overflowChecks

theorem next_le_usable (h : b.Sound) : b.next ≤ b.usable :=
  (h.next_le.trans h.size_le).trans (Nat.le_add_left _ _)

theorem availableInBackstore_eq (h : b.Sound) :
    b.availableInBackstore overflowChecks = .ok (b.usable - b.next) := by
  rw [availableInBackstore, usableSize_eq h.tracked, ok_bind]
  exact subU64_of_le (next_le_usable h)

theorem usable_le (h : b.Sound) : b.usable ≤ (b.datadevs.map (·.bda.devSize)).sum := by
  have hsizes : collect (·.totalSize) b.datadevs = .ok (b.datadevs.map (·.bda.devSize)) := by
    rw [collect_eq_ok, List.forall₂_map_right_iff]
    exact List.forall₂_same.mpr fun d hd => (h.tracked.holds d hd).account.2
  have hsize := Tracks.account h.tracked
  rw [BlockDevMgr.size, show b.dataTier.blockMgr.blockDevs = b.datadevs from rfl, hsizes,
    ok_bind] at hsize
  rw [ok.inj hsize, usable]
  exact Nat.le_add_right _ _

/-! ### Requests -/

theorem dataTier_extendCapDevice (io : CapIo) (b : Backstore) :
    (extendCapDevice io b).1.dataTier = b.dataTier := by
  have hload : ∀ load : Backstore → Backstore, (load b).dataTier = b.dataTier →
      (loadTable io.setTable io.resume load b).1.dataTier = b.dataTier := by
    intro load hl
    rcases loadTable_cases io.setTable io.resume load b with ⟨heq, -⟩ | ⟨heq, -⟩
    · rw [heq]
    · rw [heq, hl]
  unfold extendCapDevice
  rw [get_bind]
  rcases b.cache with _ | cache <;> rcases b.linear with _ | linear <;> simp only
  · cases io.create <;> rfl
  · exact hload _ rfl
  · exact hload _ rfl
  · rfl

theorem takeExtended_eq (h : b.Room) (hs : b.cache = none ∨ b.linear = none)
    (hio : CapIo.Succeeds io) (n modulus : ℕ) :
    let r := takeExtended io n modulus b
    let got := min n (totalLength b.dataTier.segments - b.next) / modulus * modulus
    r.2 = .ok (some (b.next, got)) ∧ r.1.next = b.next + got ∧
      r.1.size = totalLength r.1.dataTier.segments := by
  obtain ⟨hroom, hnext, hsize⟩ := extendCapDevice_room h io
  have hok := extendCapDevice_ok hio hs
  have hsize := hsize hok
  intro r got
  have hr : r = takeChunk got (extendCapDevice io b).1 := by
    show takeExtended io n modulus b = _
    rw [takeExtended, bind_of_ok hok, get_bind, availableInCap_eq hroom,
      lift_ok_bind, hsize, hnext]
  rw [hr, takeChunk_eq, hnext]
  refine ⟨rfl, rfl, ?_⟩
  show (extendCapDevice io b).1.size = totalLength (extendCapDevice io b).1.dataTier.segments
  rw [hsize, dataTier_extendCapDevice]

theorem requestLoop_cases (h : b.dataTier.Tracked) (overflowChecks : Bool)
    (available modulus fuel n : ℕ) :
    (requestLoop overflowChecks available modulus fuel n b).2 = .ok true ∨
      (requestLoop overflowChecks available modulus fuel n b).1 = b := by
  induction fuel generalizing n with
  | zero => exact Or.inr rfl
  | succ fuel ih =>
    rw [requestLoop]
    split_ifs with h0
    · exact Or.inr rfl
    · cases subU64 overflowChecks n available with
      | err e => exact Or.inr rfl
      | panic => exact Or.inr rfl
      | ok amount =>
        rw [lift_ok_bind]
        obtain ⟨hrefuse, hgrant⟩ := allocData_of_tracked h amount
        rcases Nat.lt_or_ge b.dataTier.blockMgr.availSpace amount with hlt | hge
        · rw [bind_of_eq (hrefuse hlt)]
          exact ih _
        · rw [bind_of_ok (hgrant hge)]
          exact Or.inl rfl

theorem filled_request (h : b.Filled) (hio : CapIo.Succeeds io) (n modulus : ℕ) :
    (request overflowChecks io n modulus b).1.Filled := by
  refine ⟨(request_spec h.toSound overflowChecks io n modulus).1, ?_⟩
  by_cases hm : modulus = 0
  · rw [request, if_pos hm]
    exact h.full
  by_cases h0 : n / modulus * modulus = 0
  · rw [request, if_neg hm, if_pos h0]
    exact h.full
  rw [request_eq h.toRoom hm h0]
  split_ifs with hlt
  · have hroom := (requestLoop_room b overflowChecks (b.size - b.next) modulus
      ((n / modulus * modulus).log2 + 1) (Dvd.intro_left (n / modulus) rfl)).1
    have hgrown := (stable_grownFrom b).keeps_requestLoop overflowChecks (b.size - b.next) modulus
      ((n / modulus * modulus).log2 + 1) (n / modulus * modulus) b h.grownFrom
    have hcases := requestLoop_cases h.tracked overflowChecks (b.size - b.next) modulus
      ((n / modulus * modulus).log2 + 1) (n / modulus * modulus)
    cases hres : (requestLoop overflowChecks (b.size - b.next) modulus
        ((n / modulus * modulus).log2 + 1) (n / modulus * modulus) b).2 with
    | ok allocated =>
      rw [bind_of_ok hres]
      cases allocated with
      | true => exact (takeExtended_eq (h.toRoom.roomier hroom) hgrown.shape hio n modulus).2.2
      | false =>
        rw [hcases.resolve_left (by simp [hres])]
        exact h.full
    | err e =>
      rw [bind_of_err hres, hcases.resolve_left (by simp [hres])]
      exact h.full
    | panic =>
      rw [bind_of_panic hres, hcases.resolve_left (by simp [hres])]
      exact h.full
  · exact h.full

theorem request_greedy (h : b.Filled) (overflowChecks : Bool) (hio : CapIo.Succeeds io)
    {n modulus : ℕ} (hm : modulus ≠ 0) (hn : b.next + n = b.usable)
    (h0 : n / modulus * modulus ≠ 0) :
    (request overflowChecks io n modulus b).2 = .ok (some (b.next, n / modulus * modulus)) ∧
      (request overflowChecks io n modulus b).1.next = b.next + n / modulus * modulus := by
  have hle : n / modulus * modulus ≤ n := Nat.div_mul_le_self _ _
  have hfull := h.full
  have hnext := h.next_le
  rw [usable] at hn
  rw [request_eq h.toRoom hm h0]
  split_ifs with hlt
  · -- the first thing that the loop asks for is there
    have hgrant := (allocData_of_tracked h.tracked
      (n / modulus * modulus - (b.size - b.next))).2 (by omega)
    have hloop : requestLoop overflowChecks (b.size - b.next) modulus
        ((n / modulus * modulus).log2 + 1) (n / modulus * modulus) b =
        ((allocData (n / modulus * modulus - (b.size - b.next)) b).1, .ok true) := by
      rw [requestLoop, if_neg h0, subU64_of_le hlt.le, lift_ok_bind,
        bind_of_ok hgrant]
      rfl
    obtain ⟨hroom, htotal⟩ := allocData_room b (n / modulus * modulus - (b.size - b.next))
    have hgrown := (stable_grownFrom b).data (n / modulus * modulus - (b.size - b.next)) b h.grownFrom
    obtain ⟨hres, hindex, -⟩ :=
      takeExtended_eq (h.toRoom.roomier hroom) hgrown.shape hio n modulus
    have htotal := htotal hgrant
    have hgot : min n (totalLength (allocData (n / modulus * modulus - (b.size - b.next))
        b).1.dataTier.segments - (allocData (n / modulus * modulus - (b.size - b.next)) b).1.next) /
        modulus * modulus = n / modulus * modulus := by
      rw [hroom.next, htotal, show min n (totalLength b.dataTier.segments +
        (n / modulus * modulus - (b.size - b.next)) - b.next) = n / modulus * modulus by omega,
        Nat.mul_div_cancel _ (Nat.pos_of_ne_zero hm)]
    rw [hgot, hroom.next] at hres hindex
    rw [bind_of_eq hloop]
    exact ⟨hres, hindex⟩
  · exact ⟨rfl, rfl⟩

end Backstore

end Stratisd.Backstore

namespace Stratisd.Thinpool

open Run Run.Outcome Run.Stateful Engine Extent Backstore Backstore.Backstore

namespace ThinPool

variable {overflowChecks : Bool} {s s' : Stacked}

/-! ### Extensions -/

/-- Device-mapper does everything that an extension asks for. -/
def ExtendIo.Succeeds (io : ExtendIo) : Prop := Backstore.CapIo.Succeeds io.cap ∧ io.Attaches

/-- Device-mapper does everything that the extensions of a round ask for. -/
def CheckIo.Succeeds (io : CheckIo) : Prop := io.extendMeta.Succeeds ∧ io.extendData.Succeeds

/-- The devices under the thin pool are as long as their segments. -/
def Sized (t : ThinPool) : Prop := ∀ sub, (t.thinPool.dev sub).size = total (t.segments.get sub)

/-- All that device-mapper has been asked for has been done. -/
structure Fed (s : Stacked) : Prop where
  filled : s.backstore.Filled
  sized : s.thinPool.Sized

theorem framedDevs_fed : FramedDevs Fed := by
  intro s t hs _ hdev h
  refine ⟨h.filled, fun sub => ?_⟩
  rw [hs, hdev]
  exact h.sized sub

theorem tableLength_segsToTable (device : Device) (segs : List Range) :
    tableLength (segsToTable device segs) = total segs := by
  rw [segsToTable, tableLength_linearLines, extent_map_pair]

theorem Sized.withRegion {t : ThinPool} (h : t.Sized) (device : Device) (sub : SubDevice)
    (region : Range) : (t.withRegion device sub region).Sized := by
  intro sub'
  rw [LinearDev.size, ThinPool.withRegion, ThinPoolDev.dev_setTable]
  split_ifs with he
  · rw [he, tableLength_segsToTable, Segments.get_set]
  · rw [Segments.get_set_of_ne _ _ he]
    exact h sub'

theorem backstore_extendThinSubDevice (io : ExtendIo) (sub : SubDevice) {extendSize modulus : ℕ}
    (hm : modulus ≠ 0) (s : Stacked) :
    (extendThinSubDevice overflowChecks io sub extendSize modulus s).1.backstore =
      (request overflowChecks io.cap extendSize modulus s.backstore).1 := by
  rw [extendThinSubDevice, if_neg hm]
  rcases bind_cases
      (onBackstore (request overflowChecks io.cap extendSize modulus))
      (attachRegion io sub) s with ⟨region, -, heq⟩ | ⟨heq, -⟩
  · rw [heq]
    exact keeps_attachRegion (fun b => b = _) io sub region _ rfl
  · rw [heq]
    rfl

theorem fed_extendThinSubDevice (overflowChecks : Bool) {io : ExtendIo} (hio : io.Succeeds)
    (sub : SubDevice) (extendSize modulus : ℕ) :
    Keeps Fed (extendThinSubDevice overflowChecks io sub extendSize modulus) := by
  intro s h
  by_cases hm : modulus = 0
  · rw [extendThinSubDevice, if_pos hm]
    exact h
  refine ⟨?_, ?_⟩
  · rw [backstore_extendThinSubDevice io sub hm]
    exact filled_request h.filled hio.1 _ _
  · obtain ⟨-, hcases⟩ :=
      extendThinSubDevice_room overflowChecks h.filled.toRoom io sub extendSize modulus
    rcases hcases with ⟨-, ht, -⟩ | ⟨got, device, -, -, -, ⟨-, -, ht⟩ | ⟨hnot, -, -⟩⟩
    · rw [ht]
      exact h.sized
    · rw [ht]
      exact h.sized.withRegion _ _ _
    · exact absurd hio.2 hnot

theorem fed_check {env : ℕ → CheckIo} (henv : ∀ round, (env round).Succeeds) :
    Keeps Fed (check overflowChecks env) :=
  keeps_check framedDevs_fed fun round =>
    ⟨fun _ => fed_extendThinSubDevice _ (henv round).1 _ _ _,
      fun _ => fed_extendThinSubDevice _ (henv round).2 _ _ _⟩

theorem extendThinSubDevice_le (h : s.backstore.Room) {io : ExtendIo} {sub : SubDevice}
    {extendSize modulus got : ℕ}
    (he : extendThinSubDevice overflowChecks io sub extendSize modulus s = (s', .ok got)) :
    modulus ∣ got ∧ got ≤ extendSize := by
  unfold extendThinSubDevice at he
  split_ifs at he with hm
  · cases he
  obtain ⟨s₁, region, hreq, he⟩ := bind_eq_ok.mp he
  obtain ⟨b, hb, -⟩ := within_eq_ok.mp hreq
  cases region with
  | none =>
    obtain rfl := ok.inj (Prod.mk.inj he).2
    exact ⟨dvd_zero _, Nat.zero_le _⟩
  | some region =>
    obtain ⟨-, hcases⟩ := request_room h overflowChecks io.cap extendSize modulus
    rw [hb] at hcases
    rcases hcases with ⟨got', -, hd, hle, hres, -⟩ | ⟨hres, -⟩
    · obtain rfl := Option.some.inj (ok.inj hres)
      -- the size of the region is what is returned
      obtain ⟨_, _, -, he⟩ := bind_eq_ok.mp he
      obtain ⟨_, _, -, he⟩ := bind_eq_ok.mp he
      obtain ⟨_, _, -, he⟩ := bind_eq_ok.mp he
      obtain ⟨_, _, -, he⟩ := bind_eq_ok.mp he
      obtain ⟨_, _, -, he⟩ := bind_eq_ok.mp he
      obtain rfl := ok.inj (Prod.mk.inj he).2
      exact ⟨hd, hle⟩
    · exact absurd rfl (hres region)

/-- One of the devices is longer by the next sectors of the cap device, the other one is as it
was. -/
structure Extended (sub : SubDevice) (got : ℕ) (s s' : Stacked) : Prop where
  fed : Fed s'
  usable : s'.backstore.usable = s.backstore.usable
  next : s'.backstore.next = s.backstore.next + got
  longer : total (s'.thinPool.segments.get sub) = total (s.thinPool.segments.get sub) + got
  other : ∀ sub', sub' ≠ sub → s'.thinPool.segments.get sub' = s.thinPool.segments.get sub'

theorem Extended.refl (h : Fed s) (sub : SubDevice) : Extended sub 0 s s :=
  ⟨h, rfl, rfl, rfl, fun _ _ => rfl⟩

theorem extended_of_attempt (h : Fed s) {io : ExtendIo} (hio : io.Succeeds) {sub : SubDevice}
    {extendSize modulus : ℕ} {extended : Option ℕ}
    (he : attempt (extendThinSubDevice overflowChecks io sub extendSize modulus) s =
      (s', .ok extended)) :
    Extended sub (extended.getD 0) s s' ∧ modulus ∣ extended.getD 0 ∧
      extended.getD 0 ≤ extendSize := by
  have hroom := h.filled.toRoom
  obtain ⟨-, hcases⟩ := extendThinSubDevice_room overflowChecks hroom io sub extendSize modulus
  have hfed := fed_extendThinSubDevice overflowChecks hio sub extendSize modulus s h
  have husable := keeps_extendThinSubDevice (stable_datatierUsableSize overflowChecks
    (.ok s.backstore.usable)) overflowChecks io sub extendSize modulus s
    (datatierUsableSize_eq h.filled.toSound)
  have hs : (extendThinSubDevice overflowChecks io sub extendSize modulus s).1 = s' := by
    rcases attempt_eq_ok he with ⟨got, heq, -⟩ | ⟨e, heq, -⟩ <;> rw [heq]
  rw [hs] at hcases hfed husable
  have husable : s'.backstore.usable = s.backstore.usable := by
    rw [datatierUsableSize_eq hfed.filled.toSound] at husable
    exact ok.inj husable
  have hnothing : s'.backstore.next = s.backstore.next → s'.thinPool = s.thinPool →
      Extended sub 0 s s' := fun hnext ht =>
    ⟨hfed, husable, hnext, by rw [ht]; rfl, fun _ _ => by rw [ht]⟩
  rcases attempt_eq_ok he with ⟨got, heq, rfl⟩ | ⟨e, heq, rfl⟩
  · obtain ⟨hdvd, hle⟩ := extendThinSubDevice_le hroom heq
    refine ⟨?_, hdvd, hle⟩
    rw [heq] at hcases
    rcases hcases with ⟨hnext, ht, hzero⟩ |
      ⟨got', device, -, hnext, -, ⟨-, hres, ht⟩ | ⟨hnot, -, -⟩⟩
    · obtain rfl := hzero got rfl
      exact hnothing hnext ht
    · obtain rfl := ok.inj hres
      refine ⟨hfed, husable, hnext, ?_, fun sub' hne => ?_⟩
      · rw [ht, withRegion, Segments.get_set, total_coalesceSegs, total_cons, total_nil]
        rfl
      · rw [ht, withRegion, Segments.get_set_of_ne _ _ hne]
    · exact absurd hio.2 hnot
  · rw [heq] at hcases
    rcases hcases with ⟨hnext, ht, -⟩ | ⟨got', device, -, -, -, ⟨-, hres, -⟩ | ⟨hnot, -, -⟩⟩
    · exact ⟨hnothing hnext ht, dvd_zero _, Nat.zero_le _⟩
    · cases hres
    · exact absurd hio.2 hnot

/-! ### One round -/

/-- How large the metadata device may be made, in metadata blocks. -/
def targetMetaSize (usable : ℕ) : ℕ := min (usable / 1000 / metaBlockSize) maxMetaSize

theorem growMeta_extends (h : Fed s) {io : CheckIo} (hio : io.extendMeta.Succeeds)
    {usage : ThinPoolUsage} {grown : Bool}
    (hg : growMeta overflowChecks io usage s = (s', .ok grown)) :
    ∃ got, Extended .thinMeta got s s' ∧ grown = decide (got ≠ 0) ∧
      got ≤ (targetMetaSize s.backstore.usable - usage.totalMeta) * metaBlockSize := by
  unfold growMeta at hg
  rw [get_bind, datatierUsableSize_eq h.filled.toSound,
    lift_ok_bind] at hg
  split_ifs at hg with hc
  · obtain ⟨s₁, extended, he, hg⟩ := bind_eq_ok.mp hg
    obtain ⟨rfl, hres⟩ := Prod.mk.inj hg
    obtain ⟨hext, -, hle⟩ := extended_of_attempt h hio he
    exact ⟨_, hext, (ok.inj hres).symm, hle⟩
  · obtain ⟨rfl, hres⟩ := Prod.mk.inj hg
    exact ⟨0, Extended.refl h _, (ok.inj hres).symm, Nat.zero_le _⟩

theorem growData_extends (h : Fed s) {io : CheckIo} (hio : io.extendData.Succeeds) {n : ℕ}
    (hg : growData overflowChecks io s = (s', .ok n)) :
    Extended .thinData n s s' ∧ dataBlockSize ∣ n ∧
      s'.backstore.usable - s'.backstore.next < dataBlockSize := by
  have hnext := next_le_usable h.filled.toSound
  unfold growData at hg
  rw [get_bind, availableInBackstore_eq h.filled.toSound,
    lift_ok_bind] at hg
  split_ifs at hg with hc
  · obtain ⟨rfl, hres⟩ := Prod.mk.inj hg
    obtain rfl := ok.inj hres
    exact ⟨Extended.refl h _, dvd_zero _, hc⟩
  · obtain ⟨s₁, extended, he, hg⟩ := bind_eq_ok.mp hg
    obtain ⟨rfl, hres⟩ := Prod.mk.inj hg
    obtain rfl := ok.inj hres
    obtain ⟨hext, hdvd, -⟩ := extended_of_attempt h hio he
    refine ⟨hext, hdvd, ?_⟩
    have hblock : dataBlockSize ≠ 0 := by decide
    have hpos : 0 < (s.backstore.usable - s.backstore.next) / dataBlockSize :=
      Nat.div_pos (not_lt.mp hc) (by decide)
    obtain ⟨-, hindex⟩ := request_greedy h.filled overflowChecks hio.1 hblock
      (Nat.add_sub_cancel' hnext) (Nat.mul_ne_zero hpos.ne' hblock)
    rw [← backstore_extendThinSubDevice io.extendData .thinData hblock s] at hindex
    have hs : (extendThinSubDevice overflowChecks io.extendData .thinData
        (s.backstore.usable - s.backstore.next) dataBlockSize s).1 = s₁ := by
      rcases attempt_eq_ok he with ⟨got, heq, -⟩ | ⟨e, heq, -⟩
      · exact congrArg Prod.fst heq
      · exact congrArg Prod.fst heq
    rw [hs] at hindex
    have hmod := Nat.mod_lt (s.backstore.usable - s.backstore.next) (show 0 < dataBlockSize by decide)
    have hdiv := Nat.div_add_mod' (s.backstore.usable - s.backstore.next) dataBlockSize
    rw [hext.usable, hindex]
    omega

/-- What a round has extended the two devices by. -/
structure Round (usage : ThinPoolUsage) (s s' : Stacked) (grownMeta grownData : ℕ) : Prop where
  fed : Fed s'
  usable : s'.backstore.usable = s.backstore.usable
  next : s'.backstore.next = s.backstore.next + (grownMeta + grownData)
  thinMeta : total s'.thinPool.segments.metaSegments =
    total s.thinPool.segments.metaSegments + grownMeta
  thinData : total s'.thinPool.segments.dataSegments =
    total s.thinPool.segments.dataSegments + grownData
  meta_le : grownMeta ≤ (targetMetaSize s.backstore.usable - usage.totalMeta) * metaBlockSize
  blocks : dataBlockSize ∣ grownData
  greedy : s'.backstore.usable - s'.backstore.next < dataBlockSize

theorem framedDevs_round {usage : ThinPoolUsage} {m d : ℕ} :
    FramedDevs fun s' => Round usage s s' m d := by
  intro s' t hs hb hdev h
  exact ⟨framedDevs_fed s' t hs hb hdev h.fed, h.usable, h.next, by rw [hs]; exact h.thinMeta,
    by rw [hs]; exact h.thinData, h.meta_le, h.blocks, h.greedy⟩

/-- A round on a thin pool that works asks for another one if it has extended anything. -/
theorem doCheck_round (h : Fed s) {io : CheckIo} (hio : io.Succeeds) {usage : ThinPoolUsage}
    {summary : ThinPoolStatusSummary} (hstatus : io.status = .ok (.working usage summary))
    {again : Bool} (hc : doCheck overflowChecks io s = (s', .ok again)) :
    ∃ m d, Round usage s s' m d ∧ again = decide (m + d ≠ 0) := by
  obtain ⟨status, s₁, hst, hgrow, hafter⟩ := doCheck_eq_ok hc
  obtain rfl := ok.inj (hstatus.symm.trans hst)
  obtain ⟨s₂, s₃, grown, n, hmeta, hdata, rfl, hmark⟩ := grow_working_eq_ok hgrow
  obtain ⟨m, hm, rfl, hle⟩ := growMeta_extends h hio.1 hmeta
  obtain ⟨hd, hdvd, hgreedy⟩ := growData_extends hm.fed hio.2 hdata
  have hround : Round usage s s₃ m n := by
    refine ⟨hd.fed, hd.usable.trans hm.usable, ?_, ?_, ?_, hle, hdvd, hgreedy⟩
    · rw [hd.next, hm.next, Nat.add_assoc]
    · exact (congrArg total (hd.other .thinMeta (by decide))).trans hm.longer
    · exact hd.longer.trans (congrArg (total · + n) (hm.other .thinData (by decide)))
  refine ⟨m, n, hafter _ framedDevs_round (hmark _ framedDevs_round hround), ?_⟩
  simp [Nat.add_eq_zero_iff]

/-! ### Whole checks -/

/-- The thin pool works, and its metadata device is reported to be as long as its segments. -/
def Reports (io : CheckIo) (s : Stacked) : Prop :=
  ∃ usage summary, io.status = .ok (.working usage summary) ∧
    usage.totalMeta = total s.thinPool.segments.metaSegments / metaBlockSize

def rounds (overflowChecks : Bool) (env : ℕ → CheckIo) (n : ℕ) : M Bool :=
  doCheck overflowChecks (env n)

/-- In every round that the check comes to, device-mapper does everything that it is asked to and
reports a thin pool that works. -/
def Smooth (overflowChecks : Bool) (env : ℕ → CheckIo) (s : Stacked) : Prop :=
  ∀ n t, Stateful.Visits (rounds overflowChecks env) s n t → (env n).Succeeds ∧ Reports (env n) t

/-- What some rounds of a check have made of the thin pool and the backstore. -/
structure Since (s s' : Stacked) : Prop where
  fed : Fed s'
  usable : s'.backstore.usable = s.backstore.usable
  blocks : ∃ k, total s'.thinPool.segments.dataSegments =
    total s.thinPool.segments.dataSegments + k * dataBlockSize
  meta_le : total s'.thinPool.segments.metaSegments / metaBlockSize ≤
    max (total s.thinPool.segments.metaSegments / metaBlockSize)
      (targetMetaSize s.backstore.usable)

theorem Since.refl (h : Fed s) : Since s s := ⟨h, rfl, ⟨0, by simp⟩, le_max_left _ _⟩

theorem Since.round {t t' : Stacked} (h : Since s t) {io : CheckIo} (hio : io.Succeeds)
    (hr : Reports io t) {again : Bool} (hc : doCheck overflowChecks io t = (t', .ok again)) :
    Since s t' ∧ (again = true → t.backstore.next < t'.backstore.next) ∧
      t'.backstore.usable - t'.backstore.next < dataBlockSize := by
  obtain ⟨usage, summary, hstatus, htotal⟩ := hr
  obtain ⟨m, d, hround, rfl⟩ := doCheck_round h.fed hio hstatus hc
  refine ⟨⟨hround.fed, hround.usable.trans h.usable, ?_, ?_⟩, fun hagain => ?_, hround.greedy⟩
  · obtain ⟨k, hk⟩ := h.blocks
    obtain ⟨l, rfl⟩ := hround.blocks
    exact ⟨k + l, by rw [hround.thinData, hk, Nat.add_mul, Nat.mul_comm l, Nat.add_assoc]⟩
  · have hle := hround.meta_le
    have hbefore := h.meta_le
    rw [h.usable, htotal, metaBlockSize] at hle
    rw [hround.thinMeta, metaBlockSize] at *
    omega
  · rw [hround.next]
    have := of_decide_eq_true hagain
    omega

theorem checkFrom_eq (env : ℕ → CheckIo) (fuel n : ℕ) :
    checkFrom overflowChecks env fuel n = loopFrom (rounds overflowChecks env) fuel n := by
  induction fuel generalizing n with
  | zero => rfl
  | succ fuel ih =>
    rw [checkFrom, loopFrom, ih]
    rfl

variable {env : ℕ → CheckIo}

theorem Smooth.since (henv : Smooth overflowChecks env s) (h : Fed s) {n : ℕ} {t : Stacked}
    (hv : Visits (rounds overflowChecks env) s n t) : Since s t :=
  hv.invariant (Since.refl h) fun n t _ hv ht hround =>
    (ht.round (henv n t hv).1 (henv n t hv).2 hround).1

theorem Smooth.next_lt (henv : Smooth overflowChecks env s) (h : Fed s) {n : ℕ} {t t' : Stacked}
    (hv : Visits (rounds overflowChecks env) s n t)
    (hround : doCheck overflowChecks (env n) t = (t', .ok true)) :
    t.backstore.next < t'.backstore.next :=
  ((henv.since h hv).round (henv n t hv).1 (henv n t hv).2 hround).2.1 rfl

/-- The check ends with a round that does not ask for another one, long before its fuel does. -/
theorem Smooth.ends (henv : Smooth overflowChecks env s) (h : Fed s) :
    ∃ n t, Visits (rounds overflowChecks env) s n t ∧
      (doCheck overflowChecks (env n) t).2 ≠ .ok true ∧
      check overflowChecks env s = ((doCheck overflowChecks (env n) t).1,
        (doCheck overflowChecks (env n) t).2 >>= fun _ => .ok (decide (0 < n))) := by
  have hbound : ∀ n t, Visits (rounds overflowChecks env) s n t →
      t.backstore.next ≤ s.backstore.usable := fun n t hv => by
    have hsince := henv.since h hv
    rw [← hsince.usable]
    exact next_le_usable hsince.fed.filled.toSound
  have hfuel := usable_le h.filled.toSound
  obtain ⟨m, t, -, hv, hlast, heq⟩ := loopFrom_ends (fun t : Stacked => t.backstore.next)
    (fun n t t' hv hr => henv.next_lt h hv hr) hbound (checkRounds s.backstore)
    Visits.start (by rw [checkRounds]; omega)
  refine ⟨m, t, hv, hlast, ?_⟩
  rw [check, get_bind, checkFrom_eq]
  exact heq

/-- What a check is for: less than a block is left, the data device has grown by whole blocks,
and the metadata device is no larger than it was or than it is meant to be. -/
structure Spent (overflowChecks : Bool) (s s' : Stacked) : Prop where
  left : ∃ available, s'.backstore.availableInBackstore overflowChecks = .ok available ∧
    available < dataBlockSize
  thinData : ∃ k, s'.thinPool.thinPool.dataDev.size =
    s.thinPool.thinPool.dataDev.size + k * dataBlockSize
  thinMeta : ∃ usable, s.backstore.datatierUsableSize overflowChecks = .ok usable ∧
    s'.thinPool.thinPool.metaDev.size / metaBlockSize ≤
      max (s.thinPool.thinPool.metaDev.size / metaBlockSize)
        (min (usable / 1000 / metaBlockSize) maxMetaSize)

theorem Smooth.spent (henv : Smooth overflowChecks env s) (h : Fed s) {saved : Bool}
    (hc : check overflowChecks env s = (s', .ok saved)) : Spent overflowChecks s s' := by
  obtain ⟨n, t, hv, hlast, heq⟩ := henv.ends h
  obtain ⟨hs, hres⟩ := Prod.mk.inj (heq.symm.trans hc)
  obtain ⟨again, hagain, -⟩ := Outcome.bind_eq_ok.mp hres
  obtain ⟨hsince, -, hleft⟩ := (henv.since h hv).round (henv n t hv).1 (henv n t hv).2
    (Prod.ext hs hagain)
  obtain ⟨k, hk⟩ := hsince.blocks
  have hmeta := hsince.meta_le
  have hsize : ∀ {s : Stacked}, Fed s →
      s.thinPool.thinPool.dataDev.size = total s.thinPool.segments.dataSegments ∧
      s.thinPool.thinPool.metaDev.size = total s.thinPool.segments.metaSegments :=
    fun h => ⟨h.sized .thinData, h.sized .thinMeta⟩
  refine ⟨⟨_, availableInBackstore_eq hsince.fed.filled.toSound, hleft⟩, ⟨k, ?_⟩,
    ⟨_, datatierUsableSize_eq h.filled.toSound, ?_⟩⟩
  · rw [(hsize h).1, (hsize hsince.fed).1, hk]
  · rw [(hsize h).2, (hsize hsince.fed).2]
    exact hmeta

end ThinPool

end Stratisd.Thinpool
