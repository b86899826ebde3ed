import Stratisd.Media.Bytes
import Stratisd.Media.Disk
import Stratisd.Metadata.Sizes

/-! The static header at the start of every Stratis block device: two signature
blocks, each padded to eight sectors, that identify the device and record how much
space the metadata regions and the reserved area behind them take. -/

namespace Stratisd.Metadata

open Run Run.Outcome Engine Media List

def reservedSectors : ℕ := 3 * 1024 * 1024 / sectorSize

/-- `!Stra0tis\x86\xff\x02^\x41rh` -/
def stratMagic : List UInt8 :=
  [0x21, 0x53, 0x74, 0x72, 0x61, 0x30, 0x74, 0x69, 0x73, 0x86, 0xff, 0x02, 0x5e, 0x41, 0x72, 0x68]

def stratSigblockVersion : UInt8 := 1

/-- Which of the two signature blocks to write. -/
inductive MetadataLocation where
  | both
  | first
  | second
  deriving DecidableEq

structure StratisIdentifiers where
  poolUuid : PoolUuid
  deviceUuid : DevUuid
  deriving DecidableEq

structure StaticHeader where
  /-- Sectors of the block device. -/
  blkdevSize : ℕ
  identifiers : StratisIdentifiers
  mdaSize : MDASize
  /-- Sectors kept free behind the MDA. -/
  reservedSize : ℕ
  flags : ℕ
  /-- Seconds since the epoch. -/
  initializationTime : ℕ
  deriving DecidableEq

/-- The lower case hexadecimal digits of a UUID, without dashes. -/
def uuidDigits (u : BitVec 128) : List UInt8 :=
  (List.range 32).map fun i =>
    let n := u.toNat / 16 ^ (31 - i) % 16
    UInt8.ofNat (if n < 10 then 0x30 + n else 0x61 + (n - 10))

@[simp] theorem length_uuidDigits (u : BitVec 128) : (uuidDigits u).length = 32 := by
  rw [uuidDigits, length_map, length_range]

theorem dot_notMem_uuidDigits (u : BitVec 128) : (0x2e : UInt8) ∉ uuidDigits u := by
  have hdigit : ∀ n < 16,
      (0x2e : UInt8) ≠ UInt8.ofNat (if n < 10 then 0x30 + n else 0x61 + (n - 10)) := by
    decide
  simp only [uuidDigits, mem_map, not_exists, not_and]
  exact fun i _ h => hdigit _ (Nat.mod_lt _ (by norm_num)) h.symm

theorem mod_eq_of_digits_eq {a b k : ℕ} (h : ∀ i < k, a / 16 ^ i % 16 = b / 16 ^ i % 16) :
    a % 16 ^ k = b % 16 ^ k := by
  induction k with
  | zero => simp [Nat.mod_one]
  | succ k ih =>
    rw [Nat.mod_pow_succ, Nat.mod_pow_succ, ih fun i hi => h i (Nat.lt_succ_of_lt hi),
      h k (Nat.lt_succ_self k)]

theorem uuidDigits_injective : Function.Injective uuidDigits := by
  intro u v h
  have hdigit : ∀ n < 16, ∀ m < 16,
      UInt8.ofNat (if n < 10 then 0x30 + n else 0x61 + (n - 10)) =
        UInt8.ofNat (if m < 10 then 0x30 + m else 0x61 + (m - 10)) → n = m := by
    decide
  have hdigits : ∀ i < 32, u.toNat / 16 ^ i % 16 = v.toNat / 16 ^ i % 16 := by
    intro i hi
    have hget := map_inj_left.mp h (31 - i) (mem_range.mpr (by omega))
    rw [show 31 - (31 - i) = i by omega] at hget
    exact hdigit _ (Nat.mod_lt _ (by norm_num)) _ (Nat.mod_lt _ (by norm_num)) hget
  have hmod := mod_eq_of_digits_eq hdigits
  rw [Nat.mod_eq_of_lt (by simpa using u.isLt), Nat.mod_eq_of_lt (by simpa using v.isLt)] at hmod
  exact BitVec.eq_of_toNat_eq hmod

/-- The value of a hexadecimal digit of either case. -/
def hexValue (b : UInt8) : Option ℕ :=
  let n := b.toNat
  if 0x30 ≤ n ∧ n ≤ 0x39 then some (n - 0x30)
  else if 0x61 ≤ n ∧ n ≤ 0x66 then some (n - 0x61 + 10)
  else if 0x41 ≤ n ∧ n ≤ 0x46 then some (n - 0x41 + 10)
  else none

/-- The UUID in a text field of 32 bytes, which has to consist of digits only: the
forms with dashes are longer. -/
def parseUuid (text : List UInt8) : StratisResult (BitVec 128) :=
  if isUtf8 text then do
    let digits ← Outcome.collect (fun b => Outcome.ofOption .uuid (hexValue b)) text
    .ok (BitVec.ofNat 128 (digits.foldl (fun acc n => 16 * acc + n) 0))
  else .err .utf8

theorem foldl_digits (n k : ℕ) :
    ((List.range k).map fun i => n / 16 ^ (k - 1 - i) % 16).foldl (fun acc n => 16 * acc + n) 0 =
      n % 16 ^ k := by
  induction k generalizing n with
  | zero => simp [Nat.mod_one]
  | succ k ih =>
    have hfront : (List.range k).map (fun i => n / 16 ^ (k + 1 - 1 - i) % 16) =
        (List.range k).map fun i => n / 16 / 16 ^ (k - 1 - i) % 16 := by
      apply map_congr_left
      intro i hi
      have hi := mem_range.mp hi
      rw [Nat.div_div_eq_div_mul, ← pow_succ', show k - 1 - i + 1 = k + 1 - 1 - i by omega]
    rw [range_succ, map_append, hfront, foldl_append, ih (n / 16)]
    simp only [map_cons, map_nil, foldl_cons, foldl_nil]
    rw [pow_succ', Nat.mod_mul, show k + 1 - 1 - k = 0 by omega, pow_zero, Nat.div_one]
    omega

theorem parseUuid_uuidDigits (u : BitVec 128) : parseUuid (uuidDigits u) = .ok u := by
  have hdigit : ∀ n < 16, (UInt8.ofNat (if n < 10 then 0x30 + n else 0x61 + (n - 10))).toNat < 128 ∧
      hexValue (UInt8.ofNat (if n < 10 then 0x30 + n else 0x61 + (n - 10))) = some n := by
    decide
  have hutf : isUtf8 (uuidDigits u) = true := by
    apply isUtf8_of_ascii
    intro b hb
    obtain ⟨i, -, rfl⟩ := mem_map.mp hb
    exact (hdigit _ (Nat.mod_lt _ (by norm_num))).1
  have hcollect : collect (fun b => ofOption StratisError.uuid (hexValue b))
      (uuidDigits u) = .ok ((List.range 32).map fun i => u.toNat / 16 ^ (31 - i) % 16) := by
    rw [collect_eq_ok, uuidDigits, forall₂_map_left_iff, forall₂_map_right_iff,
      forall₂_same]
    intro i _
    dsimp only
    rw [(hdigit _ (Nat.mod_lt _ (by norm_num))).2, ofOption_some]
  have hlt : u.toNat < 16 ^ 32 := by simpa using u.isLt
  rw [parseUuid, if_pos hutf, hcollect, ok_bind, foldl_digits u.toNat 32,
    Nat.mod_eq_of_lt hlt, BitVec.ofNat_toNat, BitVec.setWidth_eq]

def zeroed (sectors : ℕ) : List UInt8 := List.replicate (sectors * sectorSize) 0

namespace StaticHeader

def new (identifiers : StratisIdentifiers) (mdaDataSize : MDADataSize)
    (blkdevSize initializationTime : ℕ) : StaticHeader where
  blkdevSize := blkdevSize
  identifiers := identifiers
  mdaSize := mdaDataSize.regionSize.mdaSize
  reservedSize := reservedSectors
  flags := 0
  initializationTime := initializationTime

/-- Sectors of the static header, the MDA and the reserved space. -/
def bdaExtendedSize (h : StaticHeader) : ℕ := h.mdaSize.bdaSize + h.reservedSize

/-- The bytes of a signature block that its checksum covers. The flags are not
written: their bytes are always zero. -/
def sigblockBody (h : StaticHeader) : List UInt8 :=
  stratMagic ++ (writeLE 8 h.blkdevSize ++ ([stratSigblockVersion, 0, 0, 0] ++
    (uuidDigits h.identifiers.poolUuid.val ++ (uuidDigits h.identifiers.deviceUuid.val ++
      (writeLE 8 h.mdaSize.sectors ++ (writeLE 8 h.reservedSize ++ (writeLE 8 0 ++
        (writeLE 8 h.initializationTime ++ List.replicate 384 0))))))))

variable (crc : List UInt8 → UInt32)

def sigblockToBuf (h : StaticHeader) : List UInt8 :=
  writeLE 4 (crc h.sigblockBody).toNat ++ h.sigblockBody

/-- The three writes of one padded signature block that starts at `pos`. -/
def writeRegion (h : StaticHeader) (pos : ℕ) : List Write :=
  [⟨pos, zeroed preSigblockPaddingSectors⟩,
    ⟨pos + preSigblockPaddingSectors * sectorSize, h.sigblockToBuf crc⟩,
    ⟨pos + (preSigblockPaddingSectors + sigblockSectors) * sectorSize,
      zeroed postSigblockPaddingSectors⟩]

/-- What writing the static header asks of the device. -/
def writes (h : StaticHeader) (which : MetadataLocation) : List Write :=
  (if which = .both ∨ which = .first then h.writeRegion crc 0 else []) ++
    (if which = .both ∨ which = .second then
      h.writeRegion crc (sigblockRegionSectors * sectorSize) else [])

/-- Parse a signature block. A block without the magic number is not an error: the
device belongs to someone else. -/
def sigblockFromBuf (buf : List UInt8) : StratisResult (Option StaticHeader) :=
  if buf.length ≠ sigblockSectors * sectorSize then .panic
  else if field buf 4 16 ≠ stratMagic then .ok none
  else if (crc (buf.drop 4)).toNat ≠ readLE (field buf 0 4) then
    .err (.msg "header CRC invalid")
  else if field buf 28 1 ≠ [stratSigblockVersion] then
    .err (.msg s!"Unknown sigblock version: {readLE (field buf 28 1)}")
  else do
    let poolUuid ← parseUuid (field buf 32 32)
    let devUuid ← parseUuid (field buf 64 32)
    .ok (some {
      blkdevSize := readLE (field buf 20 8)
      identifiers := ⟨⟨poolUuid⟩, ⟨devUuid⟩⟩
      mdaSize := ⟨readLE (field buf 96 8)⟩
      reservedSize := readLE (field buf 104 8)
      flags := 0
      initializationTime := readLE (field buf 120 8) })

variable {crc} {h : StaticHeader}

@[simp] theorem length_sigblockToBuf : (h.sigblockToBuf crc).length = sectorSize := by
  have hm : stratMagic.length = 16 := rfl
  simp only [sigblockToBuf, sigblockBody, length_append, length_writeLE, length_uuidDigits,
    length_replicate, hm, length_cons, length_nil, sectorSize]

/-! ### Parsing what was written -/

/-- The fields fit their places in a signature block. The flags have none. -/
structure Encodable (h : StaticHeader) : Prop where
  blkdevSize_lt : h.blkdevSize < u64Bound
  mdaSize_lt : h.mdaSize.sectors < u64Bound
  reservedSize_lt : h.reservedSize < u64Bound
  initializationTime_lt : h.initializationTime < u64Bound
  flags_eq : h.flags = 0

theorem fields_of_sigblockToBuf (crc : List UInt8 → UInt32) (h : StaticHeader) :
    let buf := h.sigblockToBuf crc
    (field buf 0 4 = writeLE 4 (crc h.sigblockBody).toNat ∧ buf.drop 4 = h.sigblockBody ∧
      field buf 4 16 = stratMagic ∧ field buf 28 1 = [stratSigblockVersion]) ∧
    field buf 20 8 = writeLE 8 h.blkdevSize ∧
    field buf 32 32 = uuidDigits h.identifiers.poolUuid.val ∧
    field buf 64 32 = uuidDigits h.identifiers.deviceUuid.val ∧
    field buf 96 8 = writeLE 8 h.mdaSize.sectors ∧ field buf 104 8 = writeLE 8 h.reservedSize ∧
    field buf 120 8 = writeLE 8 h.initializationTime := by
  have hm : stratMagic.length = 16 := rfl
  have hv : [stratSigblockVersion, 0, 0, 0].length = 4 := rfl
  have hdrop : (h.sigblockToBuf crc).drop 4 = h.sigblockBody :=
    drop_left' (length_writeLE 4 _)
  have hbody : ∀ pos len, 4 ≤ pos →
      field (h.sigblockToBuf crc) pos len = field h.sigblockBody (pos - 4) len := by
    intro pos len hpos
    exact field_append_right (length_writeLE 4 _) hpos
  refine ⟨⟨field_append_left (length_writeLE 4 _), hdrop, ?_, ?_⟩, ?_, ?_, ?_, ?_, ?_, ?_⟩
  all_goals
    rw [hbody _ _ (by norm_num), sigblockBody]
    simp (disch := simp) only [field_append_right hm, field_append_right hv,
      field_append_right (length_writeLE 8 _), field_append_right (length_uuidDigits _),
      field_append_left, Nat.reduceSub]
  · exact field_append_left hm
  · rfl

theorem readLE_field_writeLE {n : ℕ} (hn : n < u64Bound) : readLE (writeLE 8 n) = n :=
  readLE_writeLE (by simpa [u64Bound] using hn)

theorem sigblockFromBuf_sigblockToBuf (he : h.Encodable) :
    sigblockFromBuf crc (h.sigblockToBuf crc) = .ok (some h) := by
  obtain ⟨⟨f0, fb, f4, f28⟩, f20, f32, f64, f96, f104, f120⟩ := fields_of_sigblockToBuf crc h
  have hcrc : (crc h.sigblockBody).toNat = readLE (writeLE 4 (crc h.sigblockBody).toNat) := by
    rw [readLE_writeLE]
    exact lt_of_lt_of_le (crc h.sigblockBody).toNat_lt (by norm_num)
  rw [sigblockFromBuf, length_sigblockToBuf, if_neg (by decide), f4, if_neg (by simp), fb, f0,
    if_neg (not_not_intro hcrc), f28, if_neg (by simp), f32, f64, parseUuid_uuidDigits,
    parseUuid_uuidDigits, ok_bind, ok_bind, f20, f96, f104, f120,
    readLE_field_writeLE he.blkdevSize_lt, readLE_field_writeLE he.mdaSize_lt,
    readLE_field_writeLE he.reservedSize_lt, readLE_field_writeLE he.initializationTime_lt,
    ← he.flags_eq]

theorem readLE_field_lt (buf : List UInt8) (pos : ℕ) : readLE (field buf pos 8) < u64Bound := by
  calc readLE (field buf pos 8) < 256 ^ (field buf pos 8).length := readLE_lt _
    _ ≤ 256 ^ 8 := Nat.pow_le_pow_right (by norm_num) (length_field_le buf pos 8)
    _ = u64Bound := by norm_num [u64Bound]

theorem encodable_of_sigblockFromBuf {buf : List UInt8}
    (hb : sigblockFromBuf crc buf = .ok (some h)) : h.Encodable := by
  have hlt := readLE_field_lt buf
  unfold sigblockFromBuf at hb
  split_ifs at hb
  · cases hb
  · obtain ⟨poolUuid, -, hb⟩ := Outcome.bind_eq_ok.mp hb
    obtain ⟨devUuid, -, hb⟩ := Outcome.bind_eq_ok.mp hb
    cases hb
    exact ⟨hlt 20, hlt 96, hlt 104, hlt 120, rfl⟩

theorem parseUuid_ne_panic (text : List UInt8) : parseUuid text ≠ .panic := by
  have hcollect : ∀ bs : List UInt8,
      collect (fun b => ofOption StratisError.uuid (hexValue b)) bs ≠ .panic := by
    intro bs
    induction bs with
    | nil => simp [collect]
    | cons b bs ih =>
      rw [collect]
      cases hexValue b with
      | none => simp
      | some n =>
        rw [ofOption_some, ok_bind]
        cases hrest : collect _ bs with
        | ok ns => simp
        | err e => simp
        | panic => exact absurd hrest ih
  rw [parseUuid]
  split
  · cases hdigits : collect _ text with
    | ok ns => simp
    | err e => simp
    | panic => exact absurd hdigits (hcollect text)
  · simp

theorem sigblockFromBuf_ne_panic {buf : List UInt8} (hl : buf.length = sectorSize) :
    sigblockFromBuf crc buf ≠ .panic := by
  rw [sigblockFromBuf, hl, if_neg (by decide)]
  split_ifs
  · simp
  · simp
  · simp
  · cases hpool : parseUuid (field buf 32 32) with
    | ok poolUuid =>
      cases hdev : parseUuid (field buf 64 32) with
      | ok devUuid => simp
      | err e => simp
      | panic => exact absurd hdev (parseUuid_ne_panic _)
    | err e => simp
    | panic => exact absurd hpool (parseUuid_ne_panic _)

end StaticHeader

end Stratisd.Metadata
