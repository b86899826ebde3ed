import Stratisd.Media.Crc
import Stratisd.Metadata.MdaHeader
import Stratisd.Metadata.StaticHeader

/-! The two header codecs as the code has them: a buffer of zeros is filled field by field at
fixed offsets, and the checksum of the rest is put in front of it at the end. The fields do not
overlap, so the buffer is the concatenation that the parsers read back. -/

namespace Stratisd.Metadata

open Run Engine Media List

namespace StaticHeader.InPlace

variable (crc : List UInt8 → UInt32)

/-- A signature block before its checksum is written. -/
def sigblockFields (h : StaticHeader) : List UInt8 :=
  let buf := List.replicate (sigblockSectors * sectorSize) 0
  let buf := splice buf 4 stratMagic
  let buf := splice buf 20 (writeLE 8 h.blkdevSize)
  let buf := splice buf 28 [stratSigblockVersion]
  let buf := splice buf 32 (uuidDigits h.identifiers.poolUuid.val)
  let buf := splice buf 64 (uuidDigits h.identifiers.deviceUuid.val)
  let buf := splice buf 96 (writeLE 8 h.mdaSize.sectors)
  let buf := splice buf 104 (writeLE 8 h.reservedSize)
  splice buf 120 (writeLE 8 h.initializationTime)

def sigblockToBuf (h : StaticHeader) : List UInt8 :=
  let buf := sigblockFields h
  splice buf 0 (writeLE 4 (crc (buf.drop 4)).toNat)

theorem sigblockFields_eq (h : StaticHeader) :
    sigblockFields h = replicate 4 0 ++ h.sigblockBody := by
  -- the zeros in the places of the fields
  have hzero : replicate (sigblockSectors * sectorSize) (0 : UInt8) =
      replicate 4 0 ++ (replicate 16 0 ++ (replicate 8 0 ++ (replicate 1 0 ++
        (replicate 3 0 ++ (replicate 32 0 ++ (replicate 32 0 ++ (replicate 8 0 ++
          (replicate 8 0 ++ (replicate 8 0 ++ (replicate 8 0 ++
            replicate 384 0)))))))))) := by
    simp only [replicate_append_replicate]
    rfl
  have hm : stratMagic.length = 16 := rfl
  have hmagic : ∀ b, splice (replicate 16 0 ++ b) 0 stratMagic = stratMagic ++ b := fun _ =>
    splice_append_left rfl
  have hv : [stratSigblockVersion].length = 1 := rfl
  have hbody : h.sigblockBody = stratMagic ++ (writeLE 8 h.blkdevSize ++ ([stratSigblockVersion] ++
      (replicate 3 0 ++ (uuidDigits h.identifiers.poolUuid.val ++
        (uuidDigits h.identifiers.deviceUuid.val ++ (writeLE 8 h.mdaSize.sectors ++
          (writeLE 8 h.reservedSize ++ (replicate 8 0 ++ (writeLE 8 h.initializationTime ++
            replicate 384 0))))))))) := rfl
  simp only [sigblockFields]
  rw [hzero, hbody]
  simp (disch := simp) only [splice_append_right (length_replicate), splice_append_right hm,
    splice_append_right hv, splice_append_right (length_writeLE 8 _),
    splice_append_right (length_uuidDigits _), hmagic, splice_append_left, Nat.reduceSub]

theorem sigblockToBuf_eq (h : StaticHeader) : sigblockToBuf crc h = h.sigblockToBuf crc := by
  have hdrop : (replicate 4 (0 : UInt8) ++ h.sigblockBody).drop 4 = h.sigblockBody :=
    drop_left' length_replicate
  rw [sigblockToBuf, sigblockFields_eq, hdrop, splice_append_left (by simp), StaticHeader.sigblockToBuf]

end StaticHeader.InPlace

namespace MDAHeader.InPlace

variable (crc : List UInt8 → UInt32)

/-- The header of an MDA region before its checksum is written. -/
def headerFields (h : MDAHeader) : List UInt8 :=
  let buf := List.replicate mdaRegionHdrSize 0
  let buf := splice buf 4 (writeLE 4 h.dataCrc.toNat)
  let buf := splice buf 8 (writeLE 8 h.used)
  let buf := splice buf 16 (writeLE 8 h.lastUpdated.secs.toNat)
  let buf := splice buf 24 (writeLE 4 h.lastUpdated.nanos)
  let buf := splice buf 28 [stratRegionHdrVersion]
  splice buf 29 [stratMetadataVersion]

def toBuf (h : MDAHeader) : StratisResult (List UInt8) :=
  if h.lastUpdated.secs < 0 then .panic
  -- the conversion of the length to `u64`
  else if fitsU64 h.used then
    let buf := headerFields h
    .ok (splice buf 0 (writeLE 4 (crc (buf.drop 4)).toNat))
  else .panic

theorem headerFields_eq (h : MDAHeader) : headerFields h = replicate 4 0 ++ h.body := by
  have hzero : replicate mdaRegionHdrSize (0 : UInt8) =
      replicate 4 0 ++ (replicate 4 0 ++ (replicate 8 0 ++ (replicate 8 0 ++
        (replicate 4 0 ++ (replicate 1 0 ++ (replicate 1 0 ++
          replicate 2 0)))))) := rfl
  have hv : [stratRegionHdrVersion].length = 1 := rfl
  have hbody : h.body = writeLE 4 h.dataCrc.toNat ++ (writeLE 8 h.used ++
      (writeLE 8 h.lastUpdated.secs.toNat ++ (writeLE 4 h.lastUpdated.nanos ++
        ([stratRegionHdrVersion] ++ ([stratMetadataVersion] ++ replicate 2 0))))) := rfl
  simp only [headerFields]
  rw [hzero, hbody]
  simp (disch := simp) only [splice_append_right (length_replicate), splice_append_right hv,
    splice_append_right (length_writeLE 4 _), splice_append_right (length_writeLE 8 _),
    splice_append_left, Nat.reduceSub]

theorem toBuf_eq (h : MDAHeader) : toBuf crc h = h.toBuf crc := by
  have hdrop : (replicate 4 (0 : UInt8) ++ h.body).drop 4 = h.body :=
    drop_left' length_replicate
  rw [toBuf, MDAHeader.toBuf, headerFields_eq]
  dsimp only
  rw [hdrop, splice_append_left (by simp)]

end MDAHeader.InPlace

/-- What the code writes for a header is what it reads back. A region without metadata has no
header, and a signature block that is accepted is accepted again as the same header when it is
written anew. -/
theorem codecs_inverse (crc : List UInt8 → UInt32) :
    (∀ h : StaticHeader, h.Encodable →
      StaticHeader.sigblockFromBuf crc (StaticHeader.InPlace.sigblockToBuf crc h) = .ok (some h)) ∧
    (∀ h : MDAHeader, 0 ≤ h.lastUpdated.secs → h.used < u64Bound →
      ∃ buf, MDAHeader.InPlace.toBuf crc h = .ok buf ∧ buf.length = mdaRegionHdrSize ∧
        MDAHeader.fromBuf crc buf = .ok (if h.used = 0 then none else some h)) ∧
    ∀ (buf : List UInt8) (h : StaticHeader), buf.length = sectorSize →
      StaticHeader.sigblockFromBuf crc buf = .ok (some h) →
      StaticHeader.sigblockFromBuf crc (StaticHeader.InPlace.sigblockToBuf crc h) = .ok (some h) := by
  refine ⟨fun h he => ?_, fun h hs hu => ?_, fun buf h _ hb => ?_⟩
  · rw [StaticHeader.InPlace.sigblockToBuf_eq]
    exact StaticHeader.sigblockFromBuf_sigblockToBuf he
  · obtain ⟨buf, hbuf⟩ : ∃ buf, h.toBuf crc = .ok buf :=
      ⟨_, MDAHeader.toBuf_eq_ok.mpr ⟨hs, hu, rfl⟩⟩
    refine ⟨buf, ?_, MDAHeader.length_of_toBuf hbuf, MDAHeader.fromBuf_toBuf hbuf⟩
    rw [MDAHeader.InPlace.toBuf_eq, hbuf]
  · rw [StaticHeader.InPlace.sigblockToBuf_eq]
    exact StaticHeader.sigblockFromBuf_sigblockToBuf (StaticHeader.encodable_of_sigblockFromBuf hb)

/-- The header of a new device, and that of metadata saved in a leap second. -/
theorem codecs_inverse_leap_second :
    let sh := StaticHeader.new ⟨⟨0⟩, ⟨1⟩⟩ MDADataSize.default 4194304 7
    let h : MDAHeader := ⟨⟨1483228799, 1500000000, by decide, by decide, by decide⟩, 2, 5⟩
    StaticHeader.sigblockFromBuf checksumCastagnoli
        (StaticHeader.InPlace.sigblockToBuf checksumCastagnoli sh) = .ok (some sh) ∧
      ∃ buf, MDAHeader.InPlace.toBuf checksumCastagnoli h = .ok buf ∧
        MDAHeader.fromBuf checksumCastagnoli buf = .ok (some h) := by
  intro sh h
  obtain ⟨hsig, hmda, -⟩ := codecs_inverse checksumCastagnoli
  obtain ⟨buf, hbuf, -, hfrom⟩ := hmda h (by decide) (by decide)
  exact ⟨hsig sh ⟨by decide, by decide, by decide, by decide, rfl⟩, buf, hbuf, hfrom⟩

end Stratisd.Metadata
