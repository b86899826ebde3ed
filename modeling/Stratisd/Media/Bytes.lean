import Mathlib.Tactic.Ring
import Mathlib.Tactic.NormNum

/-! Fixed-width little-endian numbers, fields of a byte buffer, and text in one. -/

namespace Stratisd.Media

/-- The `w` low bytes of `n`, least significant first. -/
def writeLE : ℕ → ℕ → List UInt8
  | 0, _ => []
  | w + 1, n => UInt8.ofNat (n % 256) :: writeLE w (n / 256)

/-- The number with the given bytes, least significant first. -/
def readLE : List UInt8 → ℕ
  | [] => 0
  | b :: bs => b.toNat + 256 * readLE bs

@[simp] theorem length_writeLE (w n : ℕ) : (writeLE w n).length = w := by
  induction w generalizing n with
  | zero => rfl
  | succ w ih => simp [writeLE, ih]

theorem readLE_writeLE {w n : ℕ} (h : n < 256 ^ w) : readLE (writeLE w n) = n := by
  induction w generalizing n with
  | zero => simp only [pow_zero, Nat.lt_one_iff] at h; simp [writeLE, readLE, h]
  | succ w ih =>
    have hq : n / 256 < 256 ^ w := by
      rw [Nat.div_lt_iff_lt_mul (by norm_num), ← pow_succ]
      exact h
    have hb : (UInt8.ofNat (n % 256)).toNat = n % 256 := by
      rw [UInt8.toNat_ofNat']
      have := Nat.mod_lt n (show 0 < 256 by norm_num)
      omega
    rw [writeLE, readLE, ih hq, hb]
    omega

theorem readLE_lt (bs : List UInt8) : readLE bs < 256 ^ bs.length := by
  induction bs with
  | nil => simp [readLE]
  | cons b bs ih =>
    have hb := b.toNat_lt
    rw [readLE, List.length_cons, pow_succ]
    omega

/-- The `len` bytes of a buffer from position `pos` on. -/
def field (buf : List UInt8) (pos len : ℕ) : List UInt8 := (buf.drop pos).take len

theorem length_field_le (buf : List UInt8) (pos len : ℕ) : (field buf pos len).length ≤ len := by
  rw [field, List.length_take]
  exact min_le_left _ _

variable {a b : List UInt8}

theorem field_append_left {len : ℕ} (h : a.length = len) : field (a ++ b) 0 len = a := by
  subst h
  exact List.take_left

theorem field_append_right {pos len k : ℕ} (h : a.length = k) (hk : k ≤ pos) :
    field (a ++ b) pos len = field b (pos - k) len := by
  subst h
  rw [field, List.drop_append, List.drop_eq_nil_of_le hk, List.nil_append, field]

/-- Overwrite the bytes of a buffer from `pos` on. -/
def splice (buf : List UInt8) (pos : ℕ) (data : List UInt8) : List UInt8 :=
  buf.take pos ++ (data ++ buf.drop (pos + data.length))

theorem splice_append_left {data : List UInt8} (h : a.length = data.length) :
    splice (a ++ b) 0 data = data ++ b := by
  rw [splice, List.take_zero, List.nil_append, Nat.zero_add, List.drop_left' h]

theorem splice_append_right {data : List UInt8} {pos k : ℕ} (h : a.length = k) (hk : k ≤ pos) :
    splice (a ++ b) pos data = a ++ splice b (pos - k) data := by
  subst h
  rw [splice, List.take_append, List.take_of_length_le hk, List.drop_append,
    List.drop_eq_nil_of_le (by omega), List.nil_append, List.append_assoc, splice,
    Nat.sub_add_comm hk]

/-! ### Text -/

/-- The bytes are the UTF-8 form of some text. -/
def isUtf8 (bs : List UInt8) : Bool := bs.toByteArray.validateUTF8

theorem isUtf8_of_ascii {bs : List UInt8} (h : ∀ b ∈ bs, b.toNat < 128) : isUtf8 bs = true := by
  have hchar : ∀ n < 128, String.utf8EncodeChar (Char.ofNat n) = [UInt8.ofNat n] := by decide
  have hflat : (bs.map fun b => Char.ofNat b.toNat).flatMap String.utf8EncodeChar = bs := by
    induction bs with
    | nil => rfl
    | cons b bs ih =>
      rw [List.map_cons, List.flatMap_cons, hchar _ (h b (by simp)), UInt8.ofNat_toNat,
        ih fun c hc => h c (by simp [hc])]
      rfl
  rw [isUtf8, ByteArray.validateUTF8_eq_true_iff]
  refine ⟨bs.map fun b => Char.ofNat b.toNat, ?_⟩
  rw [List.utf8Encode, hflat]

end Stratisd.Media
