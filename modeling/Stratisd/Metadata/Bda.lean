import Mathlib.Data.List.TakeWhile
import Stratisd.Metadata.MdaRegions
import Stratisd.Metadata.StaticHeader

/-! The Blockdev Data Area: the static header and the MDA regions of one device. -/

namespace Stratisd.Metadata

open Run Engine Media List MDARegions

structure BDA where
  header : StaticHeader
  regions : MDARegions

/-- Where the I/O of an initialization stops. -/
structure InitializeIo where
  header : Option Cut
  regions : Option Cut

namespace BDA

def new (identifiers : StratisIdentifiers) (mdaDataSize : MDADataSize)
    (blkdevSize initializationTime : ℕ) : BDA :=
  let header := StaticHeader.new identifiers mdaDataSize blkdevSize initializationTime
  ⟨header, MDARegions.new header.mdaSize⟩

/-- The BDA of no device. -/
protected def default : BDA := BDA.new ⟨⟨0⟩, ⟨0⟩⟩ MDADataSize.default 0 0

variable (crc : List UInt8 → UInt32)

/-- Write both signature blocks, then the default headers of the MDA regions. -/
def initializeDevice (b : BDA) (io : InitializeIo) (d : Disk) : Disk × StratisResult Unit :=
  match perform io.header (b.header.writes crc .both) d with
  | (d, true) => b.regions.initializeRegions crc staticHeaderSize io.regions d
  | (d, false) => (d, .err .io)

def load (header : StaticHeader) (d : Disk) : StratisResult (Option BDA) := do
  let regions ← MDARegions.load crc staticHeaderSize header.mdaSize d
  .ok (some ⟨header, regions⟩)

def saveState (b : BDA) (time : DateTime) (metadata : List UInt8) (io : SaveIo) (d : Disk) :
    (BDA × Disk) × StratisResult Unit :=
  let r := b.regions.saveState crc staticHeaderSize time metadata io d
  (({ b with regions := r.1.1 }, r.1.2), r.2)

def loadState (b : BDA) (d : Disk) : StratisResult (Option (List UInt8)) :=
  b.regions.loadState crc staticHeaderSize d

def lastUpdateTime (b : BDA) : Option DateTime := b.regions.lastUpdateTime

def devUuid (b : BDA) : DevUuid := b.header.identifiers.deviceUuid

def poolUuid (b : BDA) : PoolUuid := b.header.identifiers.poolUuid

/-- Sectors of the device. -/
def devSize (b : BDA) : ℕ := b.header.blkdevSize

def extendedSize (b : BDA) : ℕ := b.header.bdaExtendedSize

def maxDataSize (b : BDA) : StratisResult MDADataSize := b.regions.maxDataSize

/-! ### A freshly initialized device -/

variable {crc}

theorem offset_of_seek {pos : ℕ} {x : ℕ} (h : seek pos = .ok x) : pos < u64Bound := by
  unfold seek at h
  split at h
  · simpa [fitsU64] using ‹fitsU64 pos = true›
  · cases h

theorem offset_add_hdr_lt {size : MDARegionSize} {index : ℕ}
    (h : mdaOffset staticHeaderSize index size.bytes < u64Bound) :
    mdaOffset staticHeaderSize index size.bytes + mdaRegionHdrSize < u64Bound := by
  have e : mdaOffset staticHeaderSize index size.bytes =
      512 * (16 + size.sectors * index) := by
    simp only [mdaOffset, staticHeaderSize, staticHeaderSectors, sigblockRegionSectors,
      preSigblockPaddingSectors, sigblockSectors, postSigblockPaddingSectors, sectorSize,
      MDARegionSize.bytes]
    ring
  rw [e] at h ⊢
  simp only [u64Bound, mdaRegionHdrSize] at h ⊢
  omega

theorem initializeRegions_ok {r : MDARegions} {hs : ℕ} {fault : Option Cut} {d d' : Disk}
    (h : r.initializeRegions crc hs fault d = (d', .ok ())) :
    ∃ hdrBuf, MDAHeader.default.toBuf crc = .ok hdrBuf ∧
      (∀ index < numMdaRegions, mdaOffset hs index r.regionSize.bytes < u64Bound) ∧
      d' = applyWrites ((List.range numMdaRegions).map fun index =>
        ⟨mdaOffset hs index r.regionSize.bytes, hdrBuf⟩) d := by
  obtain ⟨hdrBuf, hb⟩ : ∃ hdrBuf, MDAHeader.default.toBuf crc = .ok hdrBuf :=
    ⟨_, MDAHeader.toBuf_eq_ok.mpr ⟨by decide, by decide, rfl⟩⟩
  simp only [initializeRegions, hb] at h
  cases fault with
  | some c => simp at h
  | none =>
    simp only [perform_none, if_true, Prod.mk.injEq, Outcome.bind_eq_ok] at h
    obtain ⟨rfl, offsets, hc, _⟩ := h
    have hlt : ∀ index < numMdaRegions,
        mdaOffset hs index r.regionSize.bytes < u64Bound := by
      intro index hi
      obtain ⟨x, _, hx⟩ := Outcome.exists_of_collect hc
        (mem_map.mpr ⟨index, mem_range.mpr hi, rfl⟩)
      exact offset_of_seek hx
    refine ⟨hdrBuf, hb, hlt, ?_⟩
    rw [takeWhile_eq_self_iff.mpr]
    · rw [map_map]; rfl
    · intro pos hpos
      obtain ⟨index, hi, rfl⟩ := mem_map.mp hpos
      exact decide_eq_true (hlt index (mem_range.mp hi))

/-- Both signature blocks and all four headers are on a device whose initialization
succeeded; the regions are empty and can be sought. -/
theorem initializeDevice_ok {ids : StratisIdentifiers} {mdaDataSize : MDADataSize}
    {size inittime : ℕ} {io : InitializeIo} {d d' : Disk}
    (h : (new ids mdaDataSize size inittime).initializeDevice crc io d = (d', .ok ())) :
    (new ids mdaDataSize size inittime).regions.Fits staticHeaderSize ∧
      ∀ index < numMdaRegions, loadARegion crc staticHeaderSize
        (new ids mdaDataSize size inittime).regions.regionSize d' index = .ok none := by
  generalize hr : (new ids mdaDataSize size inittime).regions = r at h ⊢
  have hsize : r.regionSize = mdaDataSize.regionSize := by rw [← hr]; exact regionSize_mdaSize _
  rw [initializeDevice, hr] at h
  split at h
  · obtain ⟨hdrBuf, hb, hlt, rfl⟩ := initializeRegions_ok h
    have hf : r.Fits staticHeaderSize := by
      refine ⟨?_, fun index hi => offset_add_hdr_lt (hlt index hi)⟩
      rw [hsize]
      exact le_trans (Nat.le_add_left _ _) (regionSize_bytes mdaDataSize).1
    refine ⟨hf, fun index hi => ?_⟩
    have hlen := MDAHeader.length_of_toBuf hb
    apply loadARegion_eq hf hi _ hb
    rw [← hlen]
    refine readExact_applyWrites_of_mem (w := ⟨_, hdrBuf⟩)
      (mem_map.mpr ⟨index, mem_range.mpr hi, rfl⟩) ?_
    rw [pairwise_map]
    refine pairwise_lt_range.imp fun {i j} hij => ?_
    have := mdaOffset_disjoint staticHeaderSize r.regionSize.bytes hij
    have := hf.hdr_le
    simp only
    omega
  · cases h

theorem initializeDevice_of_seekable {b : BDA} {d : Disk}
    (h : ∀ index < numMdaRegions, mdaOffset staticHeaderSize index
      b.regions.regionSize.bytes < u64Bound) :
    (b.initializeDevice crc ⟨none, none⟩ d).2 = .ok () := by
  obtain ⟨hdrBuf, hb⟩ : ∃ hdrBuf, MDAHeader.default.toBuf crc = .ok hdrBuf :=
    ⟨_, MDAHeader.toBuf_eq_ok.mpr ⟨by decide, by decide, rfl⟩⟩
  have hcollect : ∃ offsets, Outcome.collect seek ((List.range numMdaRegions).map
      (mdaOffset staticHeaderSize · b.regions.regionSize.bytes)) = .ok offsets := by
    refine ⟨_, Outcome.collect_eq_ok.mpr (forall₂_same.mpr fun pos hpos => ?_)⟩
    obtain ⟨index, hi, rfl⟩ := mem_map.mp hpos
    exact seek_of_lt (h index (mem_range.mp hi))
  obtain ⟨offsets, hc⟩ := hcollect
  simp [initializeDevice, initializeRegions, hb, hc]

end BDA

end Stratisd.Metadata
