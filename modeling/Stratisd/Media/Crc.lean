import Mathlib.Tactic.Common

/-! The CRC-32C checksum (Castagnoli polynomial), bit by bit. No result about the
metadata depends on which checksum is used; this one makes them concrete. -/

namespace Stratisd.Media

/-- The reflected Castagnoli polynomial. -/
def castagnoli : ℕ := 0x82F63B78

/-- Shift one bit out of the remainder. -/
def crcBit (c : ℕ) : ℕ := if c % 2 = 1 then (c / 2) ^^^ castagnoli else c / 2

def crcByte (c : ℕ) (b : UInt8) : ℕ := Nat.repeat crcBit 8 (c ^^^ b.toNat)

def checksumCastagnoli (bytes : List UInt8) : UInt32 :=
  UInt32.ofNat (bytes.foldl crcByte 0xFFFFFFFF ^^^ 0xFFFFFFFF)

-- the check value of the nine digits
example : checksumCastagnoli [0x31, 0x32, 0x33, 0x34, 0x35, 0x36, 0x37, 0x38, 0x39] =
    0xE3069283 := by decide +kernel

end Stratisd.Media
