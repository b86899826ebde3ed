import Stratisd.Media.Bytes
import Stratisd.Media.Disk
import Stratisd.Metadata.Sizes

/-! The header at the start of every MDA region. It records when the variable length
metadata behind it was written, how long it is and its checksum, and is itself
protected by a checksum. The checksum function is a parameter: nothing here
depends on which one it is. -/

namespace Stratisd.Metadata

open Run Engine Media

def stratRegionHdrVersion : UInt8 := 1
def stratMetadataVersion : UInt8 := 1

structure MDAHeader where
  lastUpdated : DateTime
  /-- Bytes of variable length metadata; 0 if none has been written. -/
  used : ℕ
  dataCrc : UInt32
  deriving DecidableEq

namespace MDAHeader

def epoch : DateTime := ⟨0, 0, by decide, by decide, by decide⟩

/-- Stands for a region that holds no metadata. -/
protected def default : MDAHeader := ⟨epoch, 0, 0⟩

/-- The header bytes that its own checksum covers. -/
def body (h : MDAHeader) : List UInt8 :=
  writeLE 4 h.dataCrc.toNat ++ (writeLE 8 h.used ++ (writeLE 8 h.lastUpdated.secs.toNat ++
    (writeLE 4 h.lastUpdated.nanos ++ [stratRegionHdrVersion, stratMetadataVersion, 0, 0])))

variable (crc : List UInt8 → UInt32)

/-- The bytes of a header. Times before the epoch and lengths that do not fit the
field stop the daemon. -/
def toBuf (h : MDAHeader) : StratisResult (List UInt8) :=
  if h.lastUpdated.secs < 0 then .panic
  else if fitsU64 h.used then .ok (writeLE 4 (crc h.body).toNat ++ h.body)
  else .panic

/-- Parse a buffer whose checksum and versions are right. -/
def parseBuf (buf : List UInt8) : StratisResult (Option MDAHeader) :=
  let used := readLE (field buf 8 8)
  if used = 0 then .ok none
  else
    let secs := readLE (field buf 16 8)
    if secs ≤ i64Max then
      match DateTime.ofTimestamp secs (readLE (field buf 24 4)) with
      | some t => .ok (some ⟨t, used, UInt32.ofNat (readLE (field buf 4 4))⟩)
      | none => .panic
    else .panic

def fromBuf (buf : List UInt8) : StratisResult (Option MDAHeader) :=
  if readLE (field buf 0 4) ≠ (crc (buf.drop 4)).toNat then .err (.msg "MDA region header CRC")
  else if field buf 28 1 ≠ [stratRegionHdrVersion] then
    .err (.msg s!"Unknown region header version: {readLE (field buf 28 1)}")
  else if field buf 29 1 ≠ [stratMetadataVersion] then
    .err (.msg s!"Unknown metadata version: {readLE (field buf 29 1)}")
  else parseBuf buf

/-- The metadata that a header announces, read from `pos` on. A buffer that is larger than
any allocation can be stops the daemon. -/
def loadRegion (h : MDAHeader) (d : Disk) (pos : ℕ) : StratisResult (List UInt8) :=
  if fitsU64 h.used then
    if i64Max < h.used then .panic
    else do
      let data ← Outcome.ofOption .io (readExact d pos h.used)
      if h.dataCrc ≠ crc data then .err (.msg "MDA region data CRC") else .ok data
  else .err (.msg s!"Failed to convert integer {h.used} from u128 to usize")

/-! ### Fields of a written header -/

@[simp] theorem length_body (h : MDAHeader) : h.body.length = 28 := by
  simp [body]

variable {crc} {h : MDAHeader} {buf : List UInt8}

theorem toBuf_eq_ok : h.toBuf crc = .ok buf ↔
    0 ≤ h.lastUpdated.secs ∧ h.used < u64Bound ∧
      writeLE 4 (crc h.body).toNat ++ h.body = buf := by
  unfold toBuf fitsU64
  split_ifs with hs hu
  · simp; omega
  · simp only [decide_eq_true_eq] at hu; simp [hu]; omega
  · simp only [decide_eq_true_eq] at hu; simp; omega

theorem length_of_toBuf (hb : h.toBuf crc = .ok buf) : buf.length = mdaRegionHdrSize := by
  obtain ⟨_, _, rfl⟩ := toBuf_eq_ok.mp hb
  simp [mdaRegionHdrSize]

/-- The fields of a written header are where the parser looks for them. -/
theorem fields_of_toBuf (hb : h.toBuf crc = .ok buf) :
    field buf 0 4 = writeLE 4 (crc h.body).toNat ∧ buf.drop 4 = h.body ∧
      field buf 4 4 = writeLE 4 h.dataCrc.toNat ∧ field buf 8 8 = writeLE 8 h.used ∧
      field buf 16 8 = writeLE 8 h.lastUpdated.secs.toNat ∧
      field buf 24 4 = writeLE 4 h.lastUpdated.nanos ∧
      field buf 28 1 = [stratRegionHdrVersion] ∧ field buf 29 1 = [stratMetadataVersion] := by
  obtain ⟨_, _, rfl⟩ := toBuf_eq_ok.mp hb
  have hd : ∀ (n m : ℕ) (a b : List UInt8), a.length = m → m ≤ n →
      (a ++ b).drop n = b.drop (n - m) := by
    rintro n m a b rfl hm
    rw [List.drop_append, List.drop_eq_nil_of_le hm, List.nil_append]
  have ht : ∀ (n : ℕ) (a b : List UInt8), a.length = n → (a ++ b).take n = a := by
    rintro n a b rfl
    exact List.take_left
  simp only [field, body]
  refine ⟨?_, ?_, ?_, ?_, ?_, ?_, ?_, ?_⟩ <;>
    simp (disch := simp) only [hd _ 4, hd _ 8, ht, List.drop_zero, Nat.reduceSub] <;> rfl

theorem fromBuf_toBuf (hb : h.toBuf crc = .ok buf) :
    fromBuf crc buf = .ok (if h.used = 0 then none else some h) := by
  obtain ⟨f0, fb, f4, f8, f16, f24, f28, f29⟩ := fields_of_toBuf hb
  obtain ⟨hs, hu, _⟩ := toBuf_eq_ok.mp hb
  have hcrc : readLE (field buf 0 4) = (crc h.body).toNat := by
    rw [f0, readLE_writeLE]
    exact lt_of_lt_of_le (crc h.body).toNat_lt (by norm_num)
  have hused : readLE (field buf 8 8) = h.used := by
    rw [f8, readLE_writeLE]
    simpa [u64Bound] using hu
  have hlt := h.lastUpdated.secs_lt
  have hnl := h.lastUpdated.nanos_lt
  simp only [timestampSecsBound, timestampNsecsBound] at hlt hnl
  have hsecs : readLE (field buf 16 8) = h.lastUpdated.secs.toNat := by
    rw [f16, readLE_writeLE]
    norm_num
    omega
  have hnanos : readLE (field buf 24 4) = h.lastUpdated.nanos := by
    rw [f24, readLE_writeLE]
    norm_num
    omega
  have hdata : UInt32.ofNat (readLE (field buf 4 4)) = h.dataCrc := by
    rw [f4, readLE_writeLE (lt_of_lt_of_le h.dataCrc.toNat_lt (by norm_num)), UInt32.ofNat_toNat]
  rw [fromBuf, fb, hcrc, if_neg (by simp), f28, if_neg (by simp), f29, if_neg (by simp), parseBuf]
  simp only [hused, hsecs, hnanos, hdata]
  by_cases h0 : h.used = 0
  · simp [h0]
  · have hi : h.lastUpdated.secs.toNat ≤ i64Max := by simp only [i64Max]; omega
    rw [if_neg h0, if_pos hi, Int.toNat_of_nonneg hs, DateTime.ofTimestamp_self, if_neg h0]

theorem secs_nonneg_of_fromBuf (hb : fromBuf crc buf = .ok (some h)) : 0 ≤ h.lastUpdated.secs := by
  have hparse : parseBuf buf = .ok (some h) := by
    unfold fromBuf at hb
    split_ifs at hb
    exact hb
  simp only [parseBuf] at hparse
  split_ifs at hparse
  · simp at hparse
  · split at hparse
    · rename_i t ht
      simp only [Outcome.ok.injEq, Option.some.injEq] at hparse
      rw [DateTime.ofTimestamp] at ht
      split_ifs at ht
      rw [← hparse, ← Option.some.inj ht]
      exact Int.natCast_nonneg _
    · simp at hparse

end MDAHeader

end Stratisd.Metadata
