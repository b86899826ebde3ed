import Stratisd.Metadata.HeaderRepair
import Stratisd.Metadata.Register

/-! Loading metadata from a device that anyone may have written. The checksums can be made to
fit any header, so the length and the time in it, and the size of the MDA in the static
header, have to be taken for arbitrary numbers. -/

namespace Stratisd.Metadata

open Run Run.Outcome Engine Media

namespace MDAHeader

variable {crc : List UInt8 → UInt32} {buf : List UInt8}

/-- The checksum and the versions are right. -/
def Accepts (crc : List UInt8 → UInt32) (buf : List UInt8) : Prop :=
  readLE (field buf 0 4) = (crc (buf.drop 4)).toNat ∧
    field buf 28 1 = [stratRegionHdrVersion] ∧ field buf 29 1 = [stratMetadataVersion]

instance : DecidablePred (Accepts crc) := fun _ => inferInstanceAs (Decidable (_ ∧ _))

/-- The length that a header announces. -/
def usedOf (buf : List UInt8) : ℕ := readLE (field buf 8 8)

/-- The time in a header is one that can be represented, or is not looked at. -/
def Representable (buf : List UInt8) : Prop :=
  usedOf buf = 0 ∨ (readLE (field buf 16 8) : ℤ) < timestampSecsBound ∧
    readLE (field buf 24 4) < timestampNsecsBound

/-- The time in a header of metadata. -/
def stampOf (buf : List UInt8) : Option DateTime :=
  if usedOf buf = 0 then none
  else DateTime.ofTimestamp (readLE (field buf 16 8)) (readLE (field buf 24 4))

theorem fromBuf_of_accepts (h : Accepts crc buf) : fromBuf crc buf = parseBuf buf := by
  rw [fromBuf, if_neg (not_not_intro h.1), if_neg (not_not_intro h.2.1),
    if_neg (not_not_intro h.2.2)]

theorem fromBuf_of_not_accepts (h : ¬ Accepts crc buf) : ∃ e, fromBuf crc buf = .err e := by
  unfold fromBuf
  split_ifs with h0 h1 h2
  · exact ⟨_, rfl⟩
  · exact ⟨_, rfl⟩
  · exact ⟨_, rfl⟩
  · exact absurd ⟨not_not.mp h0, not_not.mp h1, not_not.mp h2⟩ h

theorem parseBuf_of_representable (h : Representable buf) :
    ∃ o, parseBuf buf = .ok o ∧ o.map (·.lastUpdated) = stampOf buf ∧
      (o = none → usedOf buf = 0) ∧ ∀ mda ∈ o, mda.used = usedOf buf ∧ usedOf buf ≠ 0 := by
  rw [stampOf]
  by_cases h0 : usedOf buf = 0
  · rw [if_pos h0]
    exact ⟨none, if_pos h0, rfl, fun _ => h0, by simp⟩
  · obtain ⟨hs, hn⟩ := h.resolve_left h0
    have hi : readLE (field buf 16 8) ≤ i64Max := by
      simp only [timestampSecsBound, i64Max] at hs ⊢
      omega
    have hmin : timestampSecsMin ≤ (readLE (field buf 16 8) : ℤ) := by
      simp only [timestampSecsMin]
      omega
    have ht : DateTime.ofTimestamp (readLE (field buf 16 8)) (readLE (field buf 24 4)) =
        some ⟨readLE (field buf 16 8), readLE (field buf 24 4), hs, hmin, hn⟩ :=
      dif_pos ⟨hs, hmin, hn⟩
    rw [if_neg h0, ht]
    refine ⟨some ⟨_, usedOf buf, UInt32.ofNat (readLE (field buf 4 4))⟩,
      (if_neg h0).trans ((if_pos hi).trans ?_), rfl, by simp, ?_⟩
    · rw [ht]
      rfl
    · rintro mda ⟨rfl⟩
      exact ⟨rfl, h0⟩

theorem parseBuf_of_not_representable (h : ¬ Representable buf) : parseBuf buf = .panic := by
  obtain ⟨h0, hr⟩ := not_or.mp h
  have ht : DateTime.ofTimestamp (readLE (field buf 16 8)) (readLE (field buf 24 4)) = none :=
    dif_neg fun hc => hr ⟨hc.1, hc.2.2⟩
  refine (if_neg h0).trans ?_
  split_ifs with hi
  · rw [ht]
  · rfl

end MDAHeader

namespace MDARegions

variable {crc : List UInt8 → UInt32} {d : Disk} {hs : ℕ} {size : MDARegionSize} {index : ℕ}
  {buf : List UInt8}

/-- The header of a region, if it can be read and is accepted. -/
def acceptedBuf (crc : List UInt8 → UInt32) (headerSize : ℕ) (size : MDARegionSize) (d : Disk)
    (index : ℕ) : Option (List UInt8) :=
  if fitsU64 (mdaOffset headerSize index size.bytes) then
    (readExact d (mdaOffset headerSize index size.bytes) mdaRegionHdrSize).filter
      fun buf => MDAHeader.Accepts crc buf
  else none

/-- The header that decides what a slot holds: the one of the first copy, if it is accepted. -/
def slotBuf (crc : List UInt8 → UInt32) (headerSize : ℕ) (size : MDARegionSize) (d : Disk)
    (i : Fin 2) : Option (List UInt8) :=
  (acceptedBuf crc headerSize size d i).or
    (acceptedBuf crc headerSize size d (i + numPrimaryMdaRegions))

theorem loadARegion_of_accepted (h : acceptedBuf crc hs size d index = some buf) :
    loadARegion crc hs size d index = MDAHeader.parseBuf buf ∧
      mdaOffset hs index size.bytes < u64Bound := by
  unfold acceptedBuf at h
  split_ifs at h with hfit
  obtain ⟨hread, hacc⟩ := Option.filter_eq_some_iff.mp h
  refine ⟨?_, by simpa [fitsU64] using hfit⟩
  rw [loadARegion, seek, if_pos hfit, ok_bind, hread, ofOption_some,
    ok_bind, MDAHeader.fromBuf_of_accepts (by simpa using hacc)]

theorem loadARegion_of_not_accepted (h : acceptedBuf crc hs size d index = none) :
    ∃ e, loadARegion crc hs size d index = .err e := by
  unfold acceptedBuf at h
  unfold loadARegion seek
  split_ifs at h with hfit
  · rw [if_pos hfit, ok_bind]
    cases hread : readExact d (mdaOffset hs index size.bytes) mdaRegionHdrSize with
    | none => exact ⟨_, rfl⟩
    | some buf =>
      rw [hread] at h
      rw [ofOption_some, ok_bind]
      apply MDAHeader.fromBuf_of_not_accepts
      simpa [Option.filter] using h
  · rw [if_neg hfit]
    exact ⟨_, rfl⟩

theorem parseBuf_orElse (buf : List UInt8) (y : StratisResult (Option MDAHeader)) :
    (MDAHeader.parseBuf buf).orElse y = MDAHeader.parseBuf buf := by
  by_cases h : MDAHeader.Representable buf
  · obtain ⟨o, ho, -⟩ := MDAHeader.parseBuf_of_representable h
    rw [ho]
    rfl
  · rw [MDAHeader.parseBuf_of_not_representable h]
    rfl

theorem getMda_of_slotBuf {i : Fin 2} (h : slotBuf crc hs size d i = some buf) :
    getMda crc hs size d i = MDAHeader.parseBuf buf ∧ mdaOffset hs i size.bytes < u64Bound := by
  unfold slotBuf at h
  unfold getMda
  cases hfirst : acceptedBuf crc hs size d i with
  | some first =>
    rw [hfirst, Option.some_or] at h
    cases h
    obtain ⟨hload, hlt⟩ := loadARegion_of_accepted hfirst
    rw [hload, parseBuf_orElse]
    exact ⟨rfl, hlt⟩
  | none =>
    rw [hfirst, Option.none_or] at h
    obtain ⟨e, hload⟩ := loadARegion_of_not_accepted hfirst
    obtain ⟨hload', hlt⟩ := loadARegion_of_accepted h
    rw [hload, hload']
    refine ⟨rfl, lt_of_le_of_lt ?_ hlt⟩
    exact Nat.add_le_add_left (Nat.mul_le_mul_left _ (Nat.le_add_right _ _)) _

theorem getMda_of_slotBuf_none {i : Fin 2} (h : slotBuf crc hs size d i = none) :
    ∃ e, getMda crc hs size d i = .err e := by
  obtain ⟨h1, h2⟩ := Option.or_eq_none_iff.mp h
  obtain ⟨e, he⟩ := loadARegion_of_not_accepted h1
  obtain ⟨e', he'⟩ := loadARegion_of_not_accepted h2
  exact ⟨e', by rw [getMda, he, he']; rfl⟩

/-! ### What safe loading asks for -/

/-- What the tests of the source assert of loaded regions. -/
def invariant (r : MDARegions) : StratisResult Unit := do
  let spaceForData ← r.regionSize.dataSize
  if ∀ i, ∀ mda ∈ r.mdaHeaders i, mda.used ≠ 0 ∧ mda.used ≤ spaceForData.bytes then .ok ()
  else .panic

/-- The read of the data behind the header of a region: the region, the first byte and how
many. -/
def regionRead (r : MDARegions) (headerSize : ℕ) (mda : MDAHeader) (index : ℕ) :
    Option (ℕ × ℕ × ℕ) :=
  let pos := mdaOffset headerSize index r.regionSize.bytes + mdaRegionHdrSize
  if fitsU64 pos ∧ fitsU64 mda.used ∧ mda.used ≤ i64Max then some (index, pos, mda.used) else none

/-- The reads that loading the metadata makes. The second copy is read if the first fails. -/
def loadStateReads (crc : List UInt8 → UInt32) (r : MDARegions) (headerSize : ℕ) (d : Disk) :
    List (ℕ × ℕ × ℕ) :=
  match r.mdaHeaders r.newer with
  | none => []
  | some mda =>
    (r.regionRead headerSize mda r.newer).toList ++
      match (do
        let pos ← seek (mdaOffset headerSize r.newer r.regionSize.bytes + mdaRegionHdrSize)
        mda.loadRegion crc d pos) with
      | .err _ => (r.regionRead headerSize mda (r.newer + numPrimaryMdaRegions)).toList
      | _ => []

/-- Every read stays in its region. -/
def ReadsInside (r : MDARegions) (headerSize : ℕ) (reads : List (ℕ × ℕ × ℕ)) : Prop :=
  ∀ p ∈ reads, mdaOffset headerSize p.1 r.regionSize.bytes ≤ p.2.1 ∧
    p.2.1 + p.2.2 ≤ mdaOffset headerSize p.1 r.regionSize.bytes + r.regionSize.bytes

end MDARegions

/-- Loading the BDA, reading the metadata and asking for the size of a region return a value or
an error, what is loaded meets the invariant, and only the regions are read. -/
structure SafeToLoad (crc : List UInt8 → UInt32) (header : StaticHeader) (d : Disk) : Prop where
  load : BDA.load crc header d ≠ .panic
  loadState : ∀ b, BDA.load crc header d = .ok (some b) → b.loadState crc d ≠ .panic
  maxDataSize : ∀ b, BDA.load crc header d = .ok (some b) → b.maxDataSize ≠ .panic
  invariant : ∀ b, BDA.load crc header d = .ok (some b) → b.regions.invariant = .ok ()
  reads : ∀ b, BDA.load crc header d = .ok (some b) →
    b.regions.ReadsInside staticHeaderSize (b.regions.loadStateReads crc staticHeaderSize d)

/-- The header that decides the first slot has a time that can be represented; and if there
is one for the second slot too, so has that, both announce data that fits the regions, and
the data of the newer slot fits a buffer. -/
def Benign (crc : List UInt8 → UInt32) (size : MDARegionSize) (d : Disk) : Prop :=
  ∀ buf₀, MDARegions.slotBuf crc staticHeaderSize size d 0 = some buf₀ →
    MDAHeader.Representable buf₀ ∧
      ∀ buf₁, MDARegions.slotBuf crc staticHeaderSize size d 1 = some buf₁ →
        MDAHeader.Representable buf₁ ∧
        (∀ i, MDAHeader.usedOf (![buf₀, buf₁] i) + mdaRegionHdrSize ≤ size.bytes) ∧
        MDAHeader.usedOf (![buf₀, buf₁]
          (Alternate.newer fun i => MDAHeader.stampOf (![buf₀, buf₁] i))) ≤ i64Max

section

variable {crc : List UInt8 → UInt32} {header : StaticHeader} {d : Disk}

open MDARegions

/-- Regions that were loaded from accepted headers. -/
structure LoadedFrom (r : MDARegions) (bufs : Fin 2 → List UInt8) : Prop where
  times : r.times = fun i => MDAHeader.stampOf (bufs i)
  none : ∀ i, r.mdaHeaders i = none → MDAHeader.usedOf (bufs i) = 0
  some : ∀ i, ∀ mda ∈ r.mdaHeaders i,
    mda.used = MDAHeader.usedOf (bufs i) ∧ MDAHeader.usedOf (bufs i) ≠ 0
  seekable : ∀ i : Fin 2, mdaOffset staticHeaderSize i r.regionSize.bytes < u64Bound

variable {r : MDARegions} {bufs : Fin 2 → List UInt8}

theorem LoadedFrom.newer (h : LoadedFrom r bufs) :
    r.newer = Alternate.newer fun i => MDAHeader.stampOf (bufs i) := by
  rw [MDARegions.newer, h.times]

theorem LoadedFrom.invariant_iff (h : LoadedFrom r bufs) : r.invariant = .ok () ↔
    ∀ i, MDAHeader.usedOf (bufs i) + mdaRegionHdrSize ≤ r.regionSize.bytes := by
  unfold MDARegions.invariant MDARegionSize.dataSize
  by_cases hb : r.regionSize.bytes < mdaRegionHdrSize
  · rw [if_pos hb, panic_bind]
    refine iff_of_false (by simp) fun hall => ?_
    have := hall 0
    omega
  · rw [if_neg hb, ok_bind]
    have hiff : (∀ i, ∀ mda ∈ r.mdaHeaders i, mda.used ≠ 0 ∧
        mda.used ≤ r.regionSize.bytes - mdaRegionHdrSize) ↔
        ∀ i, MDAHeader.usedOf (bufs i) + mdaRegionHdrSize ≤ r.regionSize.bytes := by
      refine forall_congr' fun i => ?_
      cases hm : r.mdaHeaders i with
      | none =>
        have h0 := h.none i hm
        simp only [Option.mem_def, reduceCtorEq, false_implies, implies_true, true_iff]
        omega
      | some mda =>
        obtain ⟨hu, hne⟩ := h.some i mda hm
        simp only [Option.mem_def, Option.some.injEq, forall_eq']
        omega
    by_cases hall : ∀ i, ∀ mda ∈ r.mdaHeaders i, mda.used ≠ 0 ∧
        mda.used ≤ r.regionSize.bytes - mdaRegionHdrSize
    · rw [if_pos hall]
      exact iff_of_true rfl (hiff.mp hall)
    · rw [if_neg hall]
      exact iff_of_false (by simp) (mt hiff.mpr hall)

theorem LoadedFrom.seek_newer (h : LoadedFrom r bufs) :
    seek (mdaOffset staticHeaderSize r.newer r.regionSize.bytes + mdaRegionHdrSize) =
      .ok (mdaOffset staticHeaderSize r.newer r.regionSize.bytes + mdaRegionHdrSize) :=
  seek_of_lt (BDA.offset_add_hdr_lt (h.seekable r.newer))

theorem loadRegion_ne_panic {mda : MDAHeader} (hu : mda.used ≤ i64Max) (pos : ℕ) :
    mda.loadRegion crc d pos ≠ .panic := by
  unfold MDAHeader.loadRegion
  rw [if_neg (not_lt.mpr hu)]
  split_ifs
  · cases readExact d pos mda.used with
    | none => simp
    | some bytes =>
      rw [ofOption_some, ok_bind]
      split_ifs <;> simp
  · simp

theorem LoadedFrom.loadState_iff (h : LoadedFrom r bufs) :
    r.loadState crc staticHeaderSize d ≠ .panic ↔
      MDAHeader.usedOf (bufs r.newer) ≤ i64Max := by
  unfold MDARegions.loadState
  cases hm : r.mdaHeaders r.newer with
  | none =>
    have h0 := h.none _ hm
    exact iff_of_true (by simp) (by omega)
  | some mda =>
    obtain ⟨hu, -⟩ := h.some _ mda hm
    dsimp only
    rw [h.seek_newer, ok_bind, ← hu]
    by_cases hcap : mda.used ≤ i64Max
    · refine iff_of_true ?_ hcap
      have hsecond : (do
          let pos ← seek (mdaOffset staticHeaderSize (r.newer + numPrimaryMdaRegions)
            r.regionSize.bytes + mdaRegionHdrSize)
          mda.loadRegion crc d pos) ≠ .panic := by
        unfold seek
        split_ifs
        · exact loadRegion_ne_panic hcap _
        · simp
      cases hfirst : mda.loadRegion crc d
          (mdaOffset staticHeaderSize r.newer r.regionSize.bytes + mdaRegionHdrSize) with
      | ok data => simp
      | panic => exact absurd hfirst (loadRegion_ne_panic hcap _)
      | err e =>
        rw [err_orElse]
        cases hs : (do
          let pos ← seek (mdaOffset staticHeaderSize (r.newer + numPrimaryMdaRegions)
            r.regionSize.bytes + mdaRegionHdrSize)
          mda.loadRegion crc d pos) with
        | ok data => simp
        | panic => exact absurd hs hsecond
        | err e => simp
    · have hfits : fitsU64 mda.used = true := by
        rw [hu]
        exact decide_eq_true (StaticHeader.readLE_field_lt _ 8)
      refine iff_of_false (not_not_intro ?_) hcap
      rw [MDAHeader.loadRegion, if_pos hfits, if_pos (not_le.mp hcap)]
      rfl

theorem LoadedFrom.readsInside (h : LoadedFrom r bufs)
    (hall : ∀ i, MDAHeader.usedOf (bufs i) + mdaRegionHdrSize ≤ r.regionSize.bytes) :
    r.ReadsInside staticHeaderSize (r.loadStateReads crc staticHeaderSize d) := by
  unfold MDARegions.loadStateReads
  cases hm : r.mdaHeaders r.newer with
  | none => intro p hp; simp at hp
  | some mda =>
    obtain ⟨hu, -⟩ := h.some _ mda hm
    have hle := hall r.newer
    rw [← hu] at hle
    have hone : ∀ index, ∀ p ∈ (r.regionRead staticHeaderSize mda index).toList,
        mdaOffset staticHeaderSize p.1 r.regionSize.bytes ≤ p.2.1 ∧
          p.2.1 + p.2.2 ≤ mdaOffset staticHeaderSize p.1 r.regionSize.bytes +
            r.regionSize.bytes := by
      intro index p hp
      unfold regionRead at hp
      dsimp only at hp
      split_ifs at hp
      · rw [Option.toList_some, List.mem_singleton] at hp
        subst hp
        dsimp only
        omega
      · simp at hp
    intro p hp
    rcases List.mem_append.mp hp with hp | hp
    · exact hone _ p hp
    · split at hp
      · exact hone _ p hp
      · simp at hp

/-! ### When loading is safe -/

theorem load_eq (crc : List UInt8 → UInt32) (header : StaticHeader) (d : Disk) :
    BDA.load crc header d = (do
      let mda0 ← getMda crc staticHeaderSize header.mdaSize.regionSize d (0 : Fin 2)
      let mda1 ← getMda crc staticHeaderSize header.mdaSize.regionSize d (1 : Fin 2)
      .ok (some ⟨header, ⟨header.mdaSize.regionSize, ![mda0, mda1]⟩⟩)) := by
  unfold BDA.load MDARegions.load
  change _ = (getMda crc staticHeaderSize header.mdaSize.regionSize d 0 >>= fun mda0 =>
    getMda crc staticHeaderSize header.mdaSize.regionSize d 1 >>= fun mda1 => _)
  cases getMda crc staticHeaderSize header.mdaSize.regionSize d 0 with
  | err e => rfl
  | panic => rfl
  | ok mda0 => cases getMda crc staticHeaderSize header.mdaSize.regionSize d 1 <;> rfl

/-- Headers with times that can be represented are loaded. -/
theorem load_of_representable {buf₀ buf₁ : List UInt8}
    (h0 : slotBuf crc staticHeaderSize header.mdaSize.regionSize d 0 = some buf₀)
    (h1 : slotBuf crc staticHeaderSize header.mdaSize.regionSize d 1 = some buf₁)
    (hr0 : MDAHeader.Representable buf₀) (hr1 : MDAHeader.Representable buf₁) :
    ∃ r, BDA.load crc header d = .ok (some ⟨header, r⟩) ∧
      r.regionSize = header.mdaSize.regionSize ∧ LoadedFrom r ![buf₀, buf₁] := by
  obtain ⟨hg0, hlt0⟩ := getMda_of_slotBuf h0
  obtain ⟨hg1, hlt1⟩ := getMda_of_slotBuf h1
  obtain ⟨o0, hp0, ht0, hn0, hs0⟩ := MDAHeader.parseBuf_of_representable hr0
  obtain ⟨o1, hp1, ht1, hn1, hs1⟩ := MDAHeader.parseBuf_of_representable hr1
  refine ⟨⟨header.mdaSize.regionSize, ![o0, o1]⟩, ?_, rfl, ?_, ?_, ?_, ?_⟩
  · rw [load_eq, hg0, hg1, hp0, hp1]
    rfl
  · funext i
    fin_cases i
    · exact ht0
    · exact ht1
  · intro i
    fin_cases i
    · exact hn0
    · exact hn1
  · intro i
    fin_cases i
    · exact hs0
    · exact hs1
  · intro i
    fin_cases i
    · exact hlt0
    · exact hlt1

theorem safeToLoad_of_err {e : StratisError} (h : BDA.load crc header d = .err e) :
    SafeToLoad crc header d := by
  constructor <;> rw [h] <;> simp

theorem not_safeToLoad_of_panic (h : BDA.load crc header d = .panic) :
    ¬ SafeToLoad crc header d := fun hs => hs.load h

theorem safeToLoad_iff_of_loaded (hfrom : LoadedFrom r bufs)
    (hload : BDA.load crc header d = .ok (some ⟨header, r⟩)) :
    SafeToLoad crc header d ↔
      r.invariant = .ok () ∧ r.loadState crc staticHeaderSize d ≠ .panic := by
  constructor
  · intro hs
    exact ⟨hs.invariant ⟨header, r⟩ hload, hs.loadState ⟨header, r⟩ hload⟩
  · rintro ⟨hinv, hstate⟩
    have hall := hfrom.invariant_iff.mp hinv
    have hb : ∀ {b : BDA}, BDA.load crc header d = .ok (some b) → b.regions = r := by
      intro b hb
      rw [hload] at hb
      cases hb
      rfl
    refine ⟨by rw [hload]; simp, fun b h => ?_, fun b h => ?_, fun b h => ?_, fun b h => ?_⟩
    · rw [BDA.loadState, hb h]
      exact hstate
    · have h00 := hall 0
      rw [BDA.maxDataSize, hb h, MDARegions.maxDataSize, MDARegionSize.dataSize, if_neg (by omega)]
      simp
    · rw [hb h]
      exact hinv
    · rw [hb h]
      exact hfrom.readsInside hall

/-- Loading the metadata of a device with any contents, after any static header, is safe
exactly if the headers that decide are benign. -/
theorem safeToLoad_iff_benign (crc : List UInt8 → UInt32) (header : StaticHeader) (d : Disk) :
    SafeToLoad crc header d ↔ Benign crc header.mdaSize.regionSize d := by
  unfold Benign
  cases h0 : slotBuf crc staticHeaderSize header.mdaSize.regionSize d 0 with
  | none =>
    obtain ⟨e, he⟩ := getMda_of_slotBuf_none h0
    refine iff_of_true (safeToLoad_of_err (e := e) ?_) (by simp)
    rw [load_eq, he]
    rfl
  | some buf₀ =>
    by_cases hr0 : MDAHeader.Representable buf₀
    · obtain ⟨o0, hp0, -⟩ := MDAHeader.parseBuf_of_representable hr0
      cases h1 : slotBuf crc staticHeaderSize header.mdaSize.regionSize d 1 with
      | none =>
        obtain ⟨e, he⟩ := getMda_of_slotBuf_none h1
        refine iff_of_true (safeToLoad_of_err (e := e) ?_) (by simpa using hr0)
        rw [load_eq, (getMda_of_slotBuf h0).1, hp0, Outcome.ok_bind, he]
        rfl
      | some buf₁ =>
        by_cases hr1 : MDAHeader.Representable buf₁
        · obtain ⟨r, hload, hsize, hfrom⟩ := load_of_representable h0 h1 hr0 hr1
          rw [safeToLoad_iff_of_loaded hfrom hload, hfrom.invariant_iff, hfrom.loadState_iff]
          simp only [Option.some.injEq, forall_eq', hr0, hr1, true_and, ← hsize, ← hfrom.newer]
        · have hp : BDA.load crc header d = .panic := by
            rw [load_eq, (getMda_of_slotBuf h0).1, hp0, Outcome.ok_bind,
              (getMda_of_slotBuf h1).1, MDAHeader.parseBuf_of_not_representable hr1]
            rfl
          exact iff_of_false (not_safeToLoad_of_panic hp) (by simp [hr1])
    · have hp : BDA.load crc header d = .panic := by
        rw [load_eq, (getMda_of_slotBuf h0).1, MDAHeader.parseBuf_of_not_representable hr0]
        rfl
      exact iff_of_false (not_safeToLoad_of_panic hp) (by simp [hr0])

/-! ### Crafted headers -/

/-- A region header with any length and time, and the checksum that belongs to it. -/
def craftedHeader (crc : List UInt8 → UInt32) (used secs : ℕ) : List UInt8 :=
  let body := writeLE 4 0 ++ writeLE 8 used ++ writeLE 8 secs ++ writeLE 4 0 ++
    [stratRegionHdrVersion, stratMetadataVersion, 0, 0]
  writeLE 4 (crc body).toNat ++ body

/-- A device whose first region starts with a crafted header. -/
def crafted (crc : List UInt8 → UInt32) (s : DeviceStore) (used secs : ℕ) : Disk :=
  writeAll s.disk staticHeaderSize (craftedHeader crc used secs)

theorem holds_crafted {s : DeviceStore} (h : s.Initialized crc) (he : s.bda.header.Encodable)
    (used secs : ℕ) (i : Fin 2) :
    StaticHeader.Holds crc (crafted crc s used secs) i s.bda.header := by
  obtain ⟨ids, mdaDataSize, size, time, io, d, -, hi⟩ := h
  refine (StaticHeader.parsed_congr fun p _ hu => ?_).trans
    (StaticHeader.holds_of_initializeDevice he hi i)
  refine writeAll_outside (Or.inl (lt_of_lt_of_le hu ?_))
  fin_cases i <;> decide

/-- A header with a time in the far future stops the daemon, and one with a length beyond the
end of its region is accepted and makes the daemon read past that end. -/
theorem crafted_header_unsafe :
    let crc := checksumCastagnoli
    let s := DeviceStore.fresh crc ⟨⟨0⟩, ⟨1⟩⟩ MDADataSize.default 4194304 0 fun _ => some 0
    (∀ used secs, StaticHeader.Holds crc (crafted crc s used secs) 0 s.bda.header) ∧
      BDA.load crc s.bda.header (crafted crc s 1 i64Max) = .panic ∧
      ∃ b, BDA.load crc s.bda.header (crafted crc s (2 ^ 20) 10) = .ok (some b) ∧
        b.regions.invariant = .panic ∧
        ¬ b.regions.ReadsInside staticHeaderSize
          (b.regions.loadStateReads crc staticHeaderSize (crafted crc s (2 ^ 20) 10)) := by
  intro crc s
  have hinit : s.Initialized crc := DeviceStore.fresh_initialized (by decide)
  have hfirst : getMda crc staticHeaderSize s.bda.header.mdaSize.regionSize
      (crafted crc s (2 ^ 20) 10) (0 : Fin 2) =
        .ok (some ⟨⟨10, 0, by decide, by decide, by decide⟩, 2 ^ 20, 0⟩) := by decide +kernel
  have hsecond : getMda crc staticHeaderSize s.bda.header.mdaSize.regionSize
      (crafted crc s (2 ^ 20) 10) (1 : Fin 2) = .ok none := by decide +kernel
  refine ⟨fun used secs => holds_crafted hinit ⟨by decide, by decide, by decide, by decide, rfl⟩
    used secs 0, ?_, ?_⟩
  · have hpanic : getMda crc staticHeaderSize s.bda.header.mdaSize.regionSize
        (crafted crc s 1 i64Max) (0 : Fin 2) = .panic := by decide +kernel
    rw [load_eq, hpanic]
    rfl
  · refine ⟨_, by rw [load_eq, hfirst, hsecond]; rfl, by decide +kernel, fun hin => ?_⟩
    have hread := hin (0, staticHeaderSize + mdaRegionHdrSize, 2 ^ 20)
      (List.mem_append_left _ (by decide +kernel))
    revert hread
    decide +kernel

end

end Stratisd.Metadata
