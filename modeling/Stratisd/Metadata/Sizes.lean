import Mathlib.Order.Interval.Finset.Nat
import Stratisd.Engine.Types

/-! Sizes of the parts of the Blockdev Data Area (BDA): the static header, the four
metadata (MDA) regions, and the reserved space after them. -/

namespace Stratisd.Metadata

open Run Engine

/-! ### Static header -/

def preSigblockPaddingSectors : ℕ := 1
def sigblockSectors : ℕ := 1
def postSigblockPaddingSectors : ℕ := 6

def sigblockRegionSectors : ℕ :=
  preSigblockPaddingSectors + sigblockSectors + postSigblockPaddingSectors

def staticHeaderSectors : ℕ := 2 * sigblockRegionSectors

def firstSigblockStartSectors : ℕ := preSigblockPaddingSectors

def secondSigblockStartSectors : ℕ := sigblockRegionSectors + preSigblockPaddingSectors

/-- The bytes before the first MDA region. -/
def staticHeaderSize : ℕ := staticHeaderSectors * sectorSize

/-! ### MDA regions -/

/-- Bytes of the header of one MDA region. -/
def mdaRegionHdrSize : ℕ := 32

def minMdaDataRegionSize : ℕ := 260064

def numPrimaryMdaRegions : ℕ := 2

/-- Every primary region has a second copy. -/
def numMdaRegions : ℕ := 2 * numPrimaryMdaRegions

/-- Bytes for the variable length metadata in one region. -/
structure MDADataSize where
  bytes : ℕ
  deriving DecidableEq

/-- Sectors of one MDA region. -/
structure MDARegionSize where
  sectors : ℕ
  deriving DecidableEq

/-- Sectors of the whole MDA. -/
structure MDASize where
  sectors : ℕ
  deriving DecidableEq

namespace MDADataSize

protected def default : MDADataSize := ⟨minMdaDataRegionSize⟩

/-- A data size bounded from below by the minimum allowed. -/
def new (value : ℕ) : MDADataSize :=
  if value > minMdaDataRegionSize then ⟨value⟩ else MDADataSize.default

/-- The region that holds the header and the data, in whole sectors. -/
def regionSize (s : MDADataSize) : MDARegionSize :=
  let bytes := s.bytes + mdaRegionHdrSize
  let sectors := bytes / sectorSize
  ⟨if sectors * sectorSize ≠ bytes then sectors + 1 else sectors⟩

end MDADataSize

namespace MDARegionSize

def bytes (r : MDARegionSize) : ℕ := r.sectors * sectorSize

def mdaSize (r : MDARegionSize) : MDASize := ⟨r.sectors * numMdaRegions⟩

/-- The region without its header. The subtraction underflows for an empty region. -/
def dataSize (r : MDARegionSize) : StratisResult MDADataSize :=
  if r.bytes < mdaRegionHdrSize then .panic else .ok ⟨r.bytes - mdaRegionHdrSize⟩

end MDARegionSize

namespace MDASize

def regionSize (m : MDASize) : MDARegionSize := ⟨m.sectors / numMdaRegions⟩

/-- Sectors of the static header and the MDA together. -/
def bdaSize (m : MDASize) : ℕ := m.sectors + staticHeaderSectors

end MDASize

theorem regionSize_bytes (d : MDADataSize) :
    d.bytes + mdaRegionHdrSize ≤ d.regionSize.bytes ∧
      d.regionSize.bytes < d.bytes + mdaRegionHdrSize + sectorSize := by
  have hr : d.regionSize.sectors =
      if (d.bytes + mdaRegionHdrSize) / sectorSize * sectorSize ≠ d.bytes + mdaRegionHdrSize then
        (d.bytes + mdaRegionHdrSize) / sectorSize + 1
      else (d.bytes + mdaRegionHdrSize) / sectorSize := rfl
  rw [MDARegionSize.bytes, hr]
  split_ifs with h <;> simp only [sectorSize, mdaRegionHdrSize] at h ⊢ <;> omega

@[simp] theorem regionSize_mdaSize (r : MDARegionSize) : r.mdaSize.regionSize = r := by
  cases r
  simp [MDARegionSize.mdaSize, MDASize.regionSize, numMdaRegions, numPrimaryMdaRegions]

end Stratisd.Metadata
