import Mathlib.Order.Lattice
import Mathlib.Tactic.Common

/-! A register that accepts a value only with a later stamp than the one it holds.
This is the behaviour that a persistent store of one value should show to its user:
a write is stored, is rejected, or fails, and only a stored write changes what is
read. -/

namespace Stratisd.Media

/-- How a write to the register ends. -/
inductive Verdict where
  | stored
  | rejected
  | failed
  deriving DecidableEq

namespace Register

variable {τ α : Type*} [LinearOrder τ]

/-- One write of `a` with stamp `t`. The environment decides by `faulty` whether a
write that is not rejected fails. -/
def put (admissible : α → Prop) [DecidablePred admissible] (v : Option (τ × α)) (t : τ) (a : α)
    (faulty : Bool) : Option (τ × α) × Verdict :=
  if (∃ p ∈ v, t ≤ p.1) ∨ ¬ admissible a then (v, .rejected)
  else if faulty then (v, .failed)
  else (some (t, a), .stored)

end Register

end Stratisd.Media
