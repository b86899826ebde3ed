import Mathlib.Data.Fin.VecNotation
import Stratisd.Media.Alternate
import Stratisd.Metadata.MdaHeader

/-! The MDA regions of a block device. Two slots hold variable length metadata, and
each slot has two copies on the device: the copies of slot `i` are the regions `i`
and `i + 2`. Saving overwrites the slot with the older header; loading reads the slot
with the newer one. -/

namespace Stratisd.Metadata

open Run Run.Outcome Engine Media

structure MDARegions where
  regionSize : MDARegionSize
  /-- `none` if no variable length metadata has been written to the slot. -/
  mdaHeaders : Fin 2 → Option MDAHeader

/-- Where the I/O of a save stops: in the first or in the second copy of the slot. -/
structure SaveIo where
  first : Option Cut
  second : Option Cut
  deriving DecidableEq

/-- The header of `data` saved at `time`. -/
def MDAHeader.describe (crc : List UInt8 → UInt32) (time : DateTime) (data : List UInt8) :
    MDAHeader := ⟨time, data.length, crc data⟩

namespace MDARegions

def new (mdaSize : MDASize) : MDARegions := ⟨mdaSize.regionSize, fun _ => none⟩

/-- Bytes from the start of the device to a region. -/
def mdaOffset (headerSize index perRegionSize : ℕ) : ℕ := headerSize + perRegionSize * index

def maxDataSize (r : MDARegions) : StratisResult MDADataSize := r.regionSize.dataSize

/-- When each slot was last written. -/
def times (r : MDARegions) (i : Fin 2) : Option DateTime := (r.mdaHeaders i).map (·.lastUpdated)

def older (r : MDARegions) : Fin 2 := Alternate.older r.times

def newer (r : MDARegions) : Fin 2 := Alternate.newer r.times

def lastUpdateTime (r : MDARegions) : Option DateTime :=
  (r.mdaHeaders r.newer).map (·.lastUpdated)

/-- The region from which a seek starts has to be in the range of `u64`. -/
def seek (pos : ℕ) : StratisResult ℕ :=
  if fitsU64 pos then .ok pos
  else .err (.msg s!"Failed to convert integer {pos} from u128 to u64")

variable (crc : List UInt8 → UInt32)

/-- Write the default header to the start of every region. A region that can not be
sought ends the loop after the regions before it have been written. -/
def initializeRegions (r : MDARegions) (headerSize : ℕ) (fault : Option Cut) (d : Disk) :
    Disk × StratisResult Unit :=
  match MDAHeader.default.toBuf crc with
  | .ok hdrBuf =>
    let offsets := (List.range numMdaRegions).map (mdaOffset headerSize · r.regionSize.bytes)
    let (d, done) := perform fault ((offsets.takeWhile fitsU64).map (⟨·, hdrBuf⟩)) d
    (d, if done then do let _ ← Outcome.collect seek offsets; .ok () else .err .io)
  | .err e => (d, .err e)
  | .panic => (d, .panic)

/-! ### Loading headers -/

/-- The header of one region. -/
def loadARegion (headerSize : ℕ) (regionSize : MDARegionSize) (d : Disk) (index : ℕ) :
    StratisResult (Option MDAHeader) := do
  let pos ← seek (mdaOffset headerSize index regionSize.bytes)
  let hdrBuf ← Outcome.ofOption .io (readExact d pos mdaRegionHdrSize)
  MDAHeader.fromBuf crc hdrBuf

/-- The header of a slot, from its second copy if the first can not be read. -/
def getMda (headerSize : ℕ) (regionSize : MDARegionSize) (d : Disk) (index : ℕ) :
    StratisResult (Option MDAHeader) :=
  (loadARegion crc headerSize regionSize d index).orElse
    (loadARegion crc headerSize regionSize d (index + numPrimaryMdaRegions))

def load (headerSize : ℕ) (mdaSize : MDASize) (d : Disk) : StratisResult MDARegions := do
  let mda0 ← getMda crc headerSize mdaSize.regionSize d 0
  let mda1 ← getMda crc headerSize mdaSize.regionSize d 1
  .ok ⟨mdaSize.regionSize, ![mda0, mda1]⟩

/-! ### Saving and loading metadata -/

/-- The two writes that fill the region at `pos`. -/
def regionWrites (hdrBuf data : List UInt8) (pos : ℕ) : List Write :=
  [⟨pos, hdrBuf⟩, ⟨pos + hdrBuf.length, data⟩]

def saveRegion (r : MDARegions) (headerSize : ℕ) (hdrBuf data : List UInt8) (fault : Option Cut)
    (index : ℕ) (d : Disk) : Disk × StratisResult Unit :=
  match seek (mdaOffset headerSize index r.regionSize.bytes) with
  | .ok pos =>
    let (d, done) := perform fault (regionWrites hdrBuf data pos) d
    (d, if done then .ok () else .err .io)
  | .err e => (d, .err e)
  | .panic => (d, .panic)

/-- Fill both copies of the older slot. The header in memory changes only after
both are on the device. -/
def saveCopies (r : MDARegions) (headerSize : ℕ) (header : MDAHeader) (hdrBuf data : List UInt8)
    (io : SaveIo) (d : Disk) : (MDARegions × Disk) × StratisResult Unit :=
  match r.saveRegion headerSize hdrBuf data io.first r.older d with
  | (d, .ok ()) =>
    match r.saveRegion headerSize hdrBuf data io.second (r.older + numPrimaryMdaRegions) d with
    | (d, .ok ()) =>
      (({ r with mdaHeaders := Function.update r.mdaHeaders r.older (some header) }, d), .ok ())
    | (d, e) => ((r, d), e)
  | (d, e) => ((r, d), e)

def saveState (r : MDARegions) (headerSize : ℕ) (time : DateTime) (data : List UInt8) (io : SaveIo)
    (d : Disk) : (MDARegions × Disk) × StratisResult Unit :=
  if ∃ last ∈ r.lastUpdateTime, time ≤ last then ((r, d), .err (.msg "Overwriting newer data"))
  else
    match r.maxDataSize with
    | .ok maxAvailable =>
      if data.length > maxAvailable.bytes then
        ((r, d), .err (.msg s!"metadata length {data.length} bytes exceeds region available {maxAvailable.bytes} bytes"))
      else
        let header := MDAHeader.describe crc time data
        match header.toBuf crc with
        | .ok hdrBuf => r.saveCopies headerSize header hdrBuf data io d
        | .err e => ((r, d), .err e)
        | .panic => ((r, d), .panic)
    | .err e => ((r, d), .err e)
    | .panic => ((r, d), .panic)

def loadState (r : MDARegions) (headerSize : ℕ) (d : Disk) : StratisResult (Option (List UInt8)) :=
  match r.mdaHeaders r.newer with
  | none => .ok none
  | some mda =>
    let loadRegion (index : ℕ) : StratisResult (List UInt8) := do
      let pos ← seek (mdaOffset headerSize index r.regionSize.bytes + mdaRegionHdrSize)
      mda.loadRegion crc d pos
    do
      let data ← (loadRegion r.newer).orElse (loadRegion (r.newer + numPrimaryMdaRegions))
      .ok (some data)

/-! ### What a save does -/

variable {crc} {r : MDARegions} {hs : ℕ} {d : Disk} {io : SaveIo} {time : DateTime}
  {data hdrBuf : List UInt8} {header : MDAHeader}

/-- All regions can be sought and have room for their header. -/
structure Fits (r : MDARegions) (headerSize : ℕ) : Prop where
  hdr_le : mdaRegionHdrSize ≤ r.regionSize.bytes
  seekable : ∀ index < numMdaRegions,
    mdaOffset headerSize index r.regionSize.bytes + mdaRegionHdrSize < u64Bound

/-- The regions of a slot hold the bytes of a header and of the data behind it. -/
structure HoldsAt (d : Disk) (pos : ℕ) (hdrBuf data : List UInt8) : Prop where
  hdr : readExact d pos mdaRegionHdrSize = some hdrBuf
  data : readExact d (pos + mdaRegionHdrSize) data.length = some data

/-- A save is rejected because its time is not later than the last or the data do not fit. -/
def Rejects (r : MDARegions) (time : DateTime) (data : List UInt8) : Prop :=
  (∃ last ∈ r.lastUpdateTime, time ≤ last) ∨ r.regionSize.bytes < data.length + mdaRegionHdrSize

instance : Decidable (r.Rejects time data) := inferInstanceAs (Decidable (_ ∨ _))

theorem seek_of_lt {pos : ℕ} (h : pos < u64Bound) : seek pos = .ok pos := by
  rw [seek, if_pos (by simpa [fitsU64] using h)]

variable {index : ℕ}

theorem Fits.seek_eq (hf : r.Fits hs) (hi : index < numMdaRegions) :
    seek (mdaOffset hs index r.regionSize.bytes) = .ok (mdaOffset hs index r.regionSize.bytes) :=
  seek_of_lt (lt_of_le_of_lt (Nat.le_add_right _ _) (hf.seekable index hi))

theorem Fits.length_le (hf : r.Fits hs) (hl : data.length + mdaRegionHdrSize ≤ r.regionSize.bytes) :
    data.length ≤ i64Max := by
  have h3 := hf.seekable 3 (by decide)
  simp only [mdaOffset, u64Bound, i64Max] at h3 ⊢
  omega

theorem index_lt (i : Fin 2) :
    (i : ℕ) < numMdaRegions ∧ (i : ℕ) + numPrimaryMdaRegions < numMdaRegions := by
  simp only [numMdaRegions, numPrimaryMdaRegions]
  omega

theorem regionWrites_within {pos : ℕ} (hb : hdrBuf.length = mdaRegionHdrSize)
    (hl : data.length + mdaRegionHdrSize ≤ r.regionSize.bytes) :
    ∀ w ∈ regionWrites hdrBuf data pos, w.Within pos (pos + r.regionSize.bytes) := by
  intro w hw
  simp only [regionWrites, List.mem_cons, List.not_mem_nil, or_false] at hw
  rcases hw with rfl | rfl <;> simp only [Write.Within] <;> omega

theorem holdsAt_regionWrites (data : List UInt8) (d : Disk) (pos : ℕ)
    (hb : hdrBuf.length = mdaRegionHdrSize) :
    HoldsAt (applyWrites (regionWrites hdrBuf data pos) d) pos hdrBuf data := by
  simp only [regionWrites, applyWrites_cons, applyWrites_nil]
  refine ⟨?_, ?_⟩
  · rw [← hb]
    rw [readExact_outside (fun i hi => writeAll_outside hi) (Or.inl le_rfl)]
    exact readExact_writeAll d pos hdrBuf
  · rw [← hb]
    exact readExact_writeAll _ _ data

theorem saveRegion_eq (hf : r.Fits hs) {fault : Option Cut} (hi : index < numMdaRegions) :
    r.saveRegion hs hdrBuf data fault index d =
      let p := perform fault
        (regionWrites hdrBuf data (mdaOffset hs index r.regionSize.bytes)) d
      (p.1, if p.2 then .ok () else .err .io) := by
  rw [saveRegion, hf.seek_eq hi]

theorem mdaOffset_disjoint (hs size : ℕ) {i j : ℕ} (h : i < j) :
    mdaOffset hs i size + size ≤ mdaOffset hs j size := by
  have := Nat.mul_le_mul_left size (Nat.succ_le_of_lt h)
  rw [Nat.mul_succ] at this
  simp only [mdaOffset]
  omega

theorem saveCopies_done (hf : r.Fits hs) :
    r.saveCopies hs header hdrBuf data ⟨none, none⟩ d =
      (({ r with mdaHeaders := Function.update r.mdaHeaders r.older (some header) },
        applyWrites (regionWrites hdrBuf data
            (mdaOffset hs (r.older + numPrimaryMdaRegions) r.regionSize.bytes))
          (applyWrites (regionWrites hdrBuf data (mdaOffset hs r.older r.regionSize.bytes)) d)),
        .ok ()) := by
  have hi := index_lt r.older
  simp [saveCopies, saveRegion_eq hf hi.1, saveRegion_eq hf hi.2]

theorem saveCopies_fault (d : Disk) (hdrBuf data : List UInt8) (header : MDAHeader) (hf : r.Fits hs) (hio : io ≠ ⟨none, none⟩) :
    (r.saveCopies hs header hdrBuf data io d).1.1 = r ∧
      (r.saveCopies hs header hdrBuf data io d).2 = .err .io := by
  have hi := index_lt r.older
  obtain ⟨f, s⟩ := io
  cases f with
  | some c => simp [saveCopies, saveRegion_eq hf hi.1]
  | none =>
    cases s with
    | some c => simp [saveCopies, saveRegion_eq hf hi.1, saveRegion_eq hf hi.2]
    | none => exact absurd rfl hio

theorem saveRegion_frame (fault : Option Cut) (d : Disk) (hb : hdrBuf.length = mdaRegionHdrSize)
    (hl : data.length + mdaRegionHdrSize ≤ r.regionSize.bytes) {p : ℕ}
    (hp : p < mdaOffset hs index r.regionSize.bytes ∨
      mdaOffset hs index r.regionSize.bytes + r.regionSize.bytes ≤ p) :
    (r.saveRegion hs hdrBuf data fault index d).1 p = d p := by
  unfold saveRegion seek
  split_ifs
  · exact perform_outside (regionWrites_within hb hl) hp
  · rfl

theorem saveCopies_frame (hb : hdrBuf.length = mdaRegionHdrSize)
    (hl : data.length + mdaRegionHdrSize ≤ r.regionSize.bytes) {p : ℕ}
    (hp : ∀ index, index = (r.older : ℕ) ∨ index = r.older + numPrimaryMdaRegions →
      p < mdaOffset hs index r.regionSize.bytes ∨
        mdaOffset hs index r.regionSize.bytes + r.regionSize.bytes ≤ p) :
    (r.saveCopies hs header hdrBuf data io d).1.2 p = d p := by
  have h1 := saveRegion_frame io.first d hb hl (hp _ (Or.inl rfl))
  unfold saveCopies
  split
  · rename_i d₁ hsave
    rw [hsave] at h1
    have h2 := saveRegion_frame io.second d₁ hb hl (hp _ (Or.inr rfl))
    split <;> rename_i hsave₂ <;> rw [hsave₂] at h2 <;> exact h2.trans h1
  · rename_i hsave
    rwa [hsave] at h1

/-- The regions of the other slot are out of reach of a save. -/
theorem saveCopies_read_other (hb : hdrBuf.length = mdaRegionHdrSize)
    (hl : data.length + mdaRegionHdrSize ≤ r.regionSize.bytes) {other offset len : ℕ}
    (hother : other ≠ r.older ∧ other ≠ r.older + numPrimaryMdaRegions)
    (hlen : offset + len ≤ r.regionSize.bytes) :
    readExact (r.saveCopies hs header hdrBuf data io d).1.2
        (mdaOffset hs other r.regionSize.bytes + offset) len =
      readExact d (mdaOffset hs other r.regionSize.bytes + offset) len := by
  apply readExact_congr
  intro p hp1 hp2
  apply saveCopies_frame hb hl
  intro index hindex
  have hne : other ≠ index := by
    rcases hindex with rfl | rfl
    · exact hother.1
    · exact hother.2
  rcases Nat.lt_or_gt_of_ne hne with h | h
  · left
    have := mdaOffset_disjoint hs r.regionSize.bytes h
    omega
  · right
    have := mdaOffset_disjoint hs r.regionSize.bytes h
    omega

theorem newer_ne_older :
    ((r.newer : ℕ) ≠ r.older ∧ (r.newer : ℕ) ≠ r.older + numPrimaryMdaRegions) ∧
      (r.newer : ℕ) + numPrimaryMdaRegions ≠ r.older ∧
      (r.newer : ℕ) + numPrimaryMdaRegions ≠ r.older + numPrimaryMdaRegions := by
  have h : (r.newer : ℕ) ≠ r.older := fun e => Alternate.other_ne r.older (Fin.ext e)
  have h1 : (r.newer : ℕ) < 2 := r.newer.isLt
  have h2 : (r.older : ℕ) < 2 := r.older.isLt
  simp only [numPrimaryMdaRegions]
  omega

theorem newer_update (h : ∀ last ∈ r.lastUpdateTime, last < header.lastUpdated) :
    newer { r with mdaHeaders := Function.update r.mdaHeaders r.older (some header) } = r.older := by
  have ht : times { r with mdaHeaders := Function.update r.mdaHeaders r.older (some header) } =
      Function.update r.times (Alternate.older r.times) (some header.lastUpdated) := by
    funext i
    by_cases hi : i = Alternate.older r.times
    · subst hi
      simp [times, older]
    · simp [times, older, Function.update_of_ne hi]
  rw [newer, ht]
  exact Alternate.newer_update fun b hb => h b hb

theorem saveCopies_holds (io : SaveIo) (d : Disk) (header : MDAHeader) (hf : r.Fits hs) (hb : hdrBuf.length = mdaRegionHdrSize)
    (hl : data.length + mdaRegionHdrSize ≤ r.regionSize.bytes) :
    HoldsAt (r.saveCopies hs header hdrBuf data ⟨none, io.second⟩ d).1.2
      (mdaOffset hs r.older r.regionSize.bytes) hdrBuf data := by
  have hi := index_lt r.older
  have hdisk : (r.saveCopies hs header hdrBuf data ⟨none, io.second⟩ d).1.2 =
      (perform io.second (regionWrites hdrBuf data
          (mdaOffset hs (r.older + numPrimaryMdaRegions) r.regionSize.bytes))
        (applyWrites (regionWrites hdrBuf data (mdaOffset hs r.older r.regionSize.bytes)) d)).1 := by
    cases h : io.second <;> simp [saveCopies, saveRegion_eq hf hi.1, saveRegion_eq hf hi.2]
  have hlt : (r.older : ℕ) < r.older + numPrimaryMdaRegions := Nat.lt_add_of_pos_right (by decide)
  have hdis := mdaOffset_disjoint hs r.regionSize.bytes hlt
  have hh := holdsAt_regionWrites data d (mdaOffset hs r.older r.regionSize.bytes) hb
  -- the second copy lies behind the first
  have hout : ∀ pos len, pos + len ≤ mdaOffset hs r.older r.regionSize.bytes + r.regionSize.bytes →
      readExact (r.saveCopies hs header hdrBuf data ⟨none, io.second⟩ d).1.2 pos len =
        readExact (applyWrites (regionWrites hdrBuf data
          (mdaOffset hs r.older r.regionSize.bytes)) d) pos len := by
    intro pos len hpos
    rw [hdisk]
    exact readExact_outside (fun i hi => perform_outside (regionWrites_within hb hl) hi)
      (Or.inl (hpos.trans hdis))
  exact ⟨(hout _ _ (by omega)).trans hh.hdr, (hout _ _ (by omega)).trans hh.data⟩

theorem saveState_rejected (crc : List UInt8 → UInt32) (io : SaveIo) (d : Disk) (hf : r.Fits hs) (h : r.Rejects time data) :
    ∃ text, r.saveState crc hs time data io d = ((r, d), .err (.msg text)) := by
  unfold saveState
  split_ifs with ht
  · exact ⟨_, rfl⟩
  · have hl := h.resolve_left ht
    have hm : r.maxDataSize = .ok ⟨r.regionSize.bytes - mdaRegionHdrSize⟩ := by
      rw [maxDataSize, MDARegionSize.dataSize, if_neg (not_lt.mpr hf.hdr_le)]
    have hdr := hf.hdr_le
    simp only [hm]
    rw [if_pos (show r.regionSize.bytes - mdaRegionHdrSize < data.length by omega)]
    exact ⟨_, rfl⟩

theorem saveState_not_rejected (crc : List UInt8 → UInt32) (io : SaveIo) (d : Disk) (hf : r.Fits hs)
    (h : ¬ r.Rejects time data) :
    r.saveState crc hs time data io d =
      match (MDAHeader.describe crc time data).toBuf crc with
      | .ok hdrBuf => r.saveCopies hs (MDAHeader.describe crc time data) hdrBuf data io d
      | .err e => ((r, d), .err e)
      | .panic => ((r, d), .panic) := by
  obtain ⟨hn, hl⟩ := not_or.mp h
  have hm : r.maxDataSize = .ok ⟨r.regionSize.bytes - mdaRegionHdrSize⟩ := by
    rw [maxDataSize, MDARegionSize.dataSize, if_neg (not_lt.mpr hf.hdr_le)]
  rw [saveState, if_neg hn, hm]
  dsimp only
  rw [if_neg (by omega)]

theorem saveState_accepted (crc : List UInt8 → UInt32) (io : SaveIo) (d : Disk) (hf : r.Fits hs) (ht : 0 ≤ time.secs) (h : ¬ r.Rejects time data) :
    ∃ hdrBuf, (MDAHeader.describe crc time data).toBuf crc = .ok hdrBuf ∧
      r.saveState crc hs time data io d =
        r.saveCopies hs (MDAHeader.describe crc time data) hdrBuf data io d := by
  have hu : data.length < u64Bound :=
    lt_of_le_of_lt (hf.length_le (not_lt.mp (not_or.mp h).2)) (by decide)
  obtain ⟨hdrBuf, hbuf⟩ : ∃ hdrBuf, (MDAHeader.describe crc time data).toBuf crc = .ok hdrBuf :=
    ⟨_, MDAHeader.toBuf_eq_ok.mpr ⟨ht, hu, rfl⟩⟩
  refine ⟨hdrBuf, hbuf, ?_⟩
  rw [saveState_not_rejected crc io d hf h, hbuf]

/-! ### What a load finds -/

theorem loadARegion_eq (hf : r.Fits hs) (hi : index < numMdaRegions)
    (hr : readExact d (mdaOffset hs index r.regionSize.bytes) mdaRegionHdrSize = some hdrBuf)
    (hb : header.toBuf crc = .ok hdrBuf) :
    loadARegion crc hs r.regionSize d index =
      .ok (if header.used = 0 then none else some header) := by
  rw [loadARegion, hf.seek_eq hi, ok_bind, hr, ofOption_some, ok_bind,
    MDAHeader.fromBuf_toBuf hb]

theorem loadARegion_congr {d' : Disk} {size : MDARegionSize}
    (h : readExact d' (mdaOffset hs index size.bytes) mdaRegionHdrSize =
      readExact d (mdaOffset hs index size.bytes) mdaRegionHdrSize) :
    loadARegion crc hs size d' index = loadARegion crc hs size d index := by
  by_cases hp : mdaOffset hs index size.bytes < u64Bound
  · simp only [loadARegion, seek_of_lt hp, ok_bind, h]
  · have hs : fitsU64 (mdaOffset hs index size.bytes) ≠ true := by simpa [fitsU64] using hp
    simp only [loadARegion, seek, if_neg hs, err_bind]

theorem getMda_congr {d' : Disk} {size : MDARegionSize}
    (h : ∀ i, i = index ∨ i = index + numPrimaryMdaRegions →
      readExact d' (mdaOffset hs i size.bytes) mdaRegionHdrSize =
        readExact d (mdaOffset hs i size.bytes) mdaRegionHdrSize) :
    getMda crc hs size d' index = getMda crc hs size d index := by
  rw [getMda, getMda, loadARegion_congr (h _ (Or.inl rfl)), loadARegion_congr (h _ (Or.inr rfl))]

theorem load_eq {mdaSize : MDASize} (hm : mdaSize.regionSize = r.regionSize)
    (h : ∀ i : Fin 2, getMda crc hs r.regionSize d i = .ok (r.mdaHeaders i)) :
    load crc hs mdaSize d = .ok r := by
  have h0 := h 0
  have h1 := h 1
  simp only [Fin.val_zero, Fin.val_one] at h0 h1
  have hv : ![r.mdaHeaders 0, r.mdaHeaders 1] = r.mdaHeaders := by
    funext i
    rcases Alternate.eq_or_eq_other i 0 with rfl | rfl <;> rfl
  simp only [load, hm, h0, h1, ok_bind, hv]

theorem getMda_of_load {mdaSize : MDASize} (h : load crc hs mdaSize d = .ok r) :
    mdaSize.regionSize = r.regionSize ∧
      ∀ i : Fin 2, getMda crc hs r.regionSize d i = .ok (r.mdaHeaders i) := by
  obtain ⟨mda0, h0, h⟩ := Outcome.bind_eq_ok.mp h
  obtain ⟨mda1, h1, h⟩ := Outcome.bind_eq_ok.mp h
  cases h
  refine ⟨rfl, fun i => ?_⟩
  rcases Alternate.eq_or_eq_other i 0 with rfl | rfl
  · exact h0
  · exact h1

theorem loadRegion_describe {pos : ℕ} (hu : data.length ≤ i64Max) :
    (MDAHeader.describe crc time data).loadRegion crc d pos =
      match readExact d pos data.length with
      | none => .err .io
      | some bytes => if crc data = crc bytes then .ok bytes else .err (.msg "MDA region data CRC")
      := by
  have hfit : fitsU64 (MDAHeader.describe crc time data).used = true :=
    decide_eq_true (lt_of_le_of_lt hu (by decide))
  have hcap : ¬ i64Max < (MDAHeader.describe crc time data).used := not_lt.mpr hu
  rw [MDAHeader.loadRegion, if_pos hfit, if_neg hcap]
  simp only [MDAHeader.describe]
  cases readExact d pos data.length with
  | none => rfl
  | some bytes => by_cases h : crc data = crc bytes <;> simp [h]

theorem loadState_eq (hf : r.Fits hs) {mda : MDAHeader} (h : r.mdaHeaders r.newer = some mda) :
    r.loadState crc hs d = (do
      let data ← (mda.loadRegion crc d
          (mdaOffset hs r.newer r.regionSize.bytes + mdaRegionHdrSize)).orElse
        (mda.loadRegion crc d (mdaOffset hs (r.newer + numPrimaryMdaRegions) r.regionSize.bytes +
          mdaRegionHdrSize))
      .ok (some data)) := by
  have hi := index_lt r.newer
  simp only [loadState, h, seek_of_lt (hf.seekable _ hi.1), seek_of_lt (hf.seekable _ hi.2),
    ok_bind]

theorem loadState_of_first (hf : r.Fits hs)
    (hh : r.mdaHeaders r.newer = some (MDAHeader.describe crc time data))
    (hu : data.length ≤ i64Max)
    (hr : readExact d (mdaOffset hs r.newer r.regionSize.bytes + mdaRegionHdrSize) data.length =
      some data) :
    r.loadState crc hs d = .ok (some data) := by
  rw [loadState_eq hf hh, loadRegion_describe hu, hr]
  simp

end MDARegions

end Stratisd.Metadata
