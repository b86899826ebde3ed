import Mathlib.Algebra.GroupWithZero.Nat
import Mathlib.Data.Fintype.Basic
import Mathlib.Tactic.FinCases

/-! Two slots written in turn. Each slot is empty or carries a stamp from a linear
order. A writer that always overwrites the older slot with a larger stamp makes
that slot the newer one and leaves the other slot alone. -/

namespace Stratisd.Media.Alternate

-- one name for this fact, so that `0` and `1` are the same terms in every module
instance neZero_two : NeZero 2 := ⟨by decide⟩

variable {τ : Type*} [LinearOrder τ]

/-- The slot to overwrite next: an empty one, else the one with the smaller stamp. -/
def older (s : Fin 2 → Option τ) : Fin 2 :=
  match s 0, s 1 with
  | none, _ => 0
  | _, none => 1
  | some a, some b => if a < b then 0 else 1

def other (i : Fin 2) : Fin 2 := if i = 0 then 1 else 0

theorem other_ne (i : Fin 2) : other i ≠ i := by
  fin_cases i <;> simp [other]

theorem other_other (i : Fin 2) : other (other i) = i := by
  fin_cases i <;> rfl

theorem eq_or_eq_other (i j : Fin 2) : i = j ∨ i = other j := by
  fin_cases i <;> fin_cases j <;> simp [other]

def newer (s : Fin 2 → Option τ) : Fin 2 := other (older s)

def newest (s : Fin 2 → Option τ) : Option τ := s (newer s)

theorem newer_update {s : Fin 2 → Option τ} {t : τ} (h : ∀ b, newest s = some b → b < t) :
    newer (Function.update s (older s) (some t)) = older s := by
  rcases eq_or_eq_other (older s) 0 with ho | ho
  · have h1 : ∀ b, s 1 = some b → b < t := by
      intro b hb
      exact h b (by rw [newest, newer, ho]; exact hb)
    rw [ho]
    cases hs : s 1 with
    | none => simp [newer, older, other, hs]
    | some b => simp [newer, older, other, hs, (h1 b hs).le]
  · have ho' : older s = 1 := ho
    have h0 : ∀ b, s 0 = some b → b < t := by
      intro b hb
      exact h b (by rw [newest, newer, ho']; exact hb)
    rw [ho']
    cases hs : s 0 with
    | none => simp [older, hs] at ho'
    | some b => simp [newer, older, other, hs, h0 b hs]

end Stratisd.Media.Alternate
