import Mathlib.Data.Prod.Lex
import Mathlib.Algebra.Group.Nat.Defs
import Stratisd.Run.Outcome

/-! Types shared by the whole engine: identifiers, sectors, errors and the
timestamps of the variable length metadata. Sector and byte counts are natural
numbers; the places where the 64-bit width of the source's types decides
something say so explicitly. -/

namespace Stratisd.Engine

open Run

/-- A 128-bit identifier of a block device. -/
structure DevUuid where
  val : BitVec 128
  deriving DecidableEq

/-- A 128-bit identifier of a pool. -/
structure PoolUuid where
  val : BitVec 128
  deriving DecidableEq

/-- A device number. -/
structure Device where
  major : ℕ
  minor : ℕ
  deriving DecidableEq

inductive BlockDevTier where
  | data
  | cache
  deriving DecidableEq

inductive StratisError where
  | msg (text : String)
  | io
  | uuid
  | utf8
  | dm
  | serde
  | crypt
  | chained (text : String) (cause : StratisError)
  | rollback (causal rollback : StratisError)
  | noActionRollback (causal rollback : StratisError)
  deriving DecidableEq

abbrev StratisResult (α : Type) := Outcome StratisError α

def sectorSize : ℕ := 512

/-- The first value that a `u64` can not hold. -/
def u64Bound : ℕ := 2 ^ 64

def i64Max : ℕ := 2 ^ 63 - 1

def fitsU64 (n : ℕ) : Bool := n < u64Bound

/-- Subtraction on `u64`. Without overflow checks it wraps. -/
def subU64 (overflowChecks : Bool) (a b : ℕ) : StratisResult ℕ :=
  if b ≤ a then .ok (a - b) else if overflowChecks then .panic else .ok (a + u64Bound - b)

variable {overflowChecks : Bool}

theorem subU64_of_le {a b : ℕ} (h : b ≤ a) :
    subU64 overflowChecks a b = .ok (a - b) := if_pos h

/-- Addition on `u64`. Without overflow checks it wraps. -/
def addU64 (overflowChecks : Bool) (a b : ℕ) : StratisResult ℕ :=
  if fitsU64 (a + b) then .ok (a + b)
  else if overflowChecks then .panic else .ok ((a + b) % u64Bound)

theorem addU64_of_lt {a b : ℕ} (h : a + b < u64Bound) :
    addU64 overflowChecks a b = .ok (a + b) := if_pos (decide_eq_true h)

theorem addU64_eq_ok {a b n : ℕ} (h : addU64 overflowChecks a b = .ok n) :
    n = (a + b) % u64Bound := by
  unfold addU64 at h
  split_ifs at h with hfits
  · rw [← Outcome.ok.inj h, Nat.mod_eq_of_lt (of_decide_eq_true hfits)]
  · exact (Outcome.ok.inj h).symm

/-- Multiplication on `u64`. Without overflow checks it wraps. -/
def mulU64 (overflowChecks : Bool) (a b : ℕ) : StratisResult ℕ :=
  if fitsU64 (a * b) then .ok (a * b)
  else if overflowChecks then .panic else .ok (a * b % u64Bound)

theorem mulU64_of_lt {a b : ℕ} (h : a * b < u64Bound) :
    mulU64 overflowChecks a b = .ok (a * b) := if_pos (decide_eq_true h)

/-- How the source prints a number of sectors. -/
def displaySectors (n : ℕ) : String := s!"{n} sectors"

/-- How the source prints a UUID: hexadecimal digits in five groups. -/
def displayUuid (u : BitVec 128) : String :=
  String.ofList ((List.range 32).flatMap fun i =>
    let digit := Nat.digitChar (u.toNat / 16 ^ (31 - i) % 16)
    if i ∈ [8, 12, 16, 20] then ['-', digit] else [digit])

/-! ### Timestamps -/

/-- The first second after the last representable date. -/
def timestampSecsBound : ℤ := 8210298412800

/-- The first second of the first representable date. -/
def timestampSecsMin : ℤ := -8334632851200

/-- Leap seconds are stored with nanoseconds past one second. -/
def timestampNsecsBound : ℕ := 2000000000

/-- A representable UTC time: whole seconds since the Unix epoch and nanoseconds. -/
structure DateTime where
  secs : ℤ
  nanos : ℕ
  secs_lt : secs < timestampSecsBound
  secs_ge : timestampSecsMin ≤ secs
  nanos_lt : nanos < timestampNsecsBound
  deriving DecidableEq

namespace DateTime

def key (t : DateTime) : ℤ ×ₗ ℕ := toLex (t.secs, t.nanos)

theorem key_injective : Function.Injective key := by
  intro a b h
  have h' : (a.secs, a.nanos) = (b.secs, b.nanos) := toLex.injective h
  cases a; cases b
  simp only [Prod.mk.injEq] at h'
  simp [h'.1, h'.2]

/-- Times are ordered by seconds, then by nanoseconds. -/
instance : LinearOrder DateTime := LinearOrder.lift' key key_injective

theorem lt_iff {a b : DateTime} :
    a < b ↔ a.secs < b.secs ∨ a.secs = b.secs ∧ a.nanos < b.nanos := by
  change key a < key b ↔ _
  simp [key, Prod.Lex.toLex_lt_toLex]

/-- The time with the given parts, if it is representable. -/
def ofTimestamp (secs : ℤ) (nanos : ℕ) : Option DateTime :=
  if h : secs < timestampSecsBound ∧ timestampSecsMin ≤ secs ∧ nanos < timestampNsecsBound then
    some ⟨secs, nanos, h.1, h.2.1, h.2.2⟩
  else none

theorem ofTimestamp_self (t : DateTime) : ofTimestamp t.secs t.nanos = some t := by
  rw [ofTimestamp, dif_pos ⟨t.secs_lt, t.secs_ge, t.nanos_lt⟩]

/-- One nanosecond later. A time inside a leap second stays in it as long as
it can; past the last representable time there is no result. -/
def addNanosecond (t : DateTime) : Option DateTime :=
  if t.nanos + 1 = 1000000000 ∨ t.nanos + 1 = timestampNsecsBound then ofTimestamp (t.secs + 1) 0
  else ofTimestamp t.secs (t.nanos + 1)

theorem lt_addNanosecond {t t' : DateTime} (h : t.addNanosecond = some t') : t < t' := by
  rw [lt_iff]
  unfold addNanosecond ofTimestamp at h
  split at h <;> split at h <;> simp only [Option.some.injEq, reduceCtorEq] at h
  · left; rw [← h]; exact Int.lt_add_one_iff.mpr le_rfl
  · right; rw [← h]; exact ⟨rfl, Nat.lt_succ_self _⟩

theorem secs_le_addNanosecond {t t' : DateTime} (h : t.addNanosecond = some t') :
    t.secs ≤ t'.secs := by
  rcases lt_iff.mp (lt_addNanosecond h) with h | h
  · exact h.le
  · exact h.1.le

end DateTime

end Stratisd.Engine
