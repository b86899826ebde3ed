import Mathlib.Data.Countable.Basic
import Mathlib.Logic.Equiv.List

/-! Files that hold one encoded value each. A path is the list of its components, the name of a
file is the last of them, and what stands behind the last dot of a name is its extension. A
suffix of a path is a list of whole components: a name that ends in some bytes is not a path that
ends in them. -/

namespace Stratisd.Media

abbrev FileName := List UInt8

abbrev FilePath := List FileName

def ascii (s : String) : FileName := s.toList.map fun c => UInt8.ofNat c.toNat

def dot : UInt8 := 0x2e

namespace FileName

/-- The name without its extension. A dot at the start does not begin an extension. -/
def fileStem (name : FileName) : FileName :=
  let before := ((name.reverse.dropWhile (· ≠ dot)).drop 1).reverse
  if name = [dot, dot] ∨ before = [] then name else before

def withExtension (name ext : FileName) : FileName := name.fileStem ++ dot :: ext

theorem dropWhile_reverse {ext : FileName} (h : dot ∉ ext) (rest : FileName) :
    (ext.reverse ++ rest).dropWhile (· ≠ dot) = rest.dropWhile (· ≠ dot) := by
  rw [List.dropWhile_append_of_pos]
  intro b hb
  rw [List.mem_reverse] at hb
  simpa using fun heq : b = dot => h (heq ▸ hb)

theorem fileStem_of_notMem {name : FileName} (h : dot ∉ name) : name.fileStem = name := by
  have hdrop : name.reverse.dropWhile (· ≠ dot) = [] := by
    simpa using dropWhile_reverse h []
  simp only [fileStem, hdrop, List.drop_nil, List.reverse_nil, or_true, if_true]

theorem fileStem_append {stem ext : FileName} (hstem : dot ∉ stem) (hne : stem ≠ [])
    (hext : dot ∉ ext) : fileStem (stem ++ dot :: ext) = stem := by
  have hdrop : (stem ++ dot :: ext).reverse.dropWhile (· ≠ dot) = dot :: stem.reverse := by
    rw [List.reverse_append, List.reverse_cons, List.append_assoc, dropWhile_reverse hext]
    simp
  have hdots : stem ++ dot :: ext ≠ [dot, dot] := by
    cases stem with
    | nil => exact absurd rfl hne
    | cons b bs =>
      intro h
      exact hstem ((List.cons.inj h).1 ▸ List.mem_cons_self)
  simp only [fileStem, hdrop, List.drop_one, List.tail_cons, List.reverse_reverse, hdots, hne,
    or_self, if_false]

end FileName

namespace FilePath

/-- Whether the last components of the path are those of the other one. -/
def endsWith (path child : FilePath) : Bool := child.isSuffixOf path

theorem endsWith_singleton (dir : FilePath) (name child : FileName) :
    endsWith (dir ++ [name]) [child] = true ↔ name = child := by
  rw [endsWith, List.isSuffixOf_iff_suffix]
  constructor
  · rintro ⟨front, h⟩
    exact ((List.append_inj' h rfl).2 |> List.singleton_inj.mp).symm
  · rintro rfl
    exact List.suffix_append dir [name]

end FilePath

/-- Write at the start of a file that is opened without being truncated. -/
def overwrite (old data : List UInt8) : List UInt8 := data ++ old.drop data.length

@[simp] theorem overwrite_nil (data : List UInt8) : overwrite [] data = data := by
  simp [overwrite]

theorem overwrite_eq_iff {old data : List UInt8} :
    overwrite old data = data ↔ old.length ≤ data.length := by
  rw [overwrite, List.append_right_eq_self, List.drop_eq_nil_iff]

/-- A text format in which every value can be read back, and a text that breaks off is not the
text of any value. -/
structure Codec (α : Type) where
  toBytes : α → List UInt8
  ofBytes : List UInt8 → Option α
  round_trip : ∀ a, ofBytes (toBytes a) = some a
  broken_off : ∀ a n, n < (toBytes a).length → ofBytes ((toBytes a).take n) = none

namespace Codec

theorem toBytes_ne_nil {α : Type} [Nontrivial α] (c : Codec α) (a : α) : c.toBytes a ≠ [] := by
  intro ha
  obtain ⟨b, hb⟩ := exists_ne a
  have hread : c.ofBytes [] = some a := ha ▸ c.round_trip a
  rcases Nat.eq_zero_or_pos (c.toBytes b).length with hlen | hlen
  · have hread' := c.round_trip b
    rw [List.length_eq_zero_iff.mp hlen, hread, Option.some.injEq] at hread'
    exact hb hread'.symm
  · have hnone := c.broken_off b 0 hlen
    rw [List.take_zero, hread] at hnone
    cases hnone

/-- A number as that many ones with a zero behind them. -/
def unary (n : ℕ) : List UInt8 := List.replicate n 1 ++ [0]

theorem count_unary (n : ℕ) : (unary n).count 1 = n := by simp [unary]

theorem zero_notMem_take_unary {n k : ℕ} (h : k < (unary n).length) :
    (0 : UInt8) ∉ (unary n).take k := by
  have hk : k ≤ n := by simpa [unary, Nat.lt_succ_iff] using h
  rw [unary, List.take_append_of_le_length (by simpa using hk), List.take_replicate]
  simp

theorem nonempty_of_countable (α : Type) [Countable α] : Nonempty (Codec α) := by
  classical
  obtain ⟨code, hcode⟩ := exists_injective_nat α
  refine ⟨⟨fun a => unary (code a),
    fun bytes => if h : ∃ a, unary (code a) = bytes then some h.choose else none, ?_, ?_⟩⟩
  · intro a
    have h : ∃ b, unary (code b) = unary (code a) := ⟨a, rfl⟩
    rw [dif_pos h]
    have hcount := congrArg (List.count 1) h.choose_spec
    rw [count_unary, count_unary] at hcount
    rw [hcode hcount]
  · intro a n hn
    rw [dif_neg]
    rintro ⟨b, hb⟩
    exact zero_notMem_take_unary hn (hb ▸ by simp [unary])

end Codec

end Stratisd.Media
