import Stratisd.Run.Stateful

/-! Loops that go on as long as a round asks for another one. A loop in which every such round
increases a bounded quantity comes to an end, and a bound on the number of rounds that is large
enough does not show in the result. -/

namespace Stratisd.Run

namespace Stateful

variable {σ ε : Type} (round : ℕ → Stateful σ ε Bool)

/-- Rounds until one does not ask for another. The fuel is a bound on their number. -/
def loopFrom : ℕ → ℕ → Stateful σ ε Bool
  | 0, _ => pure false
  | fuel + 1, n => do
    let again ← round n
    if again then do
      let _ ← loopFrom fuel (n + 1)
      pure true
    else pure false

/-- The state in which the loop comes to a round, every round before it having asked for
another one. There is no bound on the number of rounds. -/
inductive Visits (s : σ) : ℕ → σ → Prop
  | start : Visits s 0 s
  | next {n : ℕ} {t t' : σ} (h : Visits s n t) (hround : round n t = (t', .ok true)) :
      Visits s (n + 1) t'

variable {round} {s : σ}

theorem Visits.invariant {P : σ → Prop} (h0 : P s)
    (hstep : ∀ n t t', Visits round s n t → P t → round n t = (t', .ok true) → P t')
    {n : ℕ} {t : σ} (h : Visits round s n t) : P t := by
  induction h with
  | start => exact h0
  | next h hround ih => exact hstep _ _ _ h ih hround

theorem Visits.eq_start (hlast : (round 0 s).2 ≠ .ok true) {n : ℕ} {t : σ}
    (h : Visits round s n t) : n = 0 ∧ t = s := by
  induction h with
  | start => exact ⟨rfl, rfl⟩
  | next h hround ih =>
    obtain ⟨rfl, rfl⟩ := ih
    exact absurd (congrArg Prod.snd hround) hlast

/-- If the rounds that ask for another one increase a bounded quantity, one of them is the
last, and the loop has its result. -/
theorem loopFrom_ends (rank : σ → ℕ) {bound : ℕ}
    (hstep : ∀ n t t', Visits round s n t → round n t = (t', .ok true) → rank t < rank t')
    (hbound : ∀ n t, Visits round s n t → rank t ≤ bound) (fuel : ℕ) {n : ℕ} {t : σ}
    (hv : Visits round s n t) (hfuel : bound < rank t + fuel) :
    ∃ m t', n ≤ m ∧ Visits round s m t' ∧ (round m t').2 ≠ .ok true ∧
      loopFrom round fuel n t =
        ((round m t').1, (round m t').2 >>= fun _ => .ok (decide (n < m))) := by
  induction fuel generalizing n t with
  | zero => exact absurd (hbound n t hv) (by omega)
  | succ fuel ih =>
    by_cases hagain : (round n t).2 = .ok true
    · have hround : round n t = ((round n t).1, .ok true) := Prod.ext rfl hagain
      have hlt := hstep n t _ hv hround
      obtain ⟨m, t', hle, hv', hlast, heq⟩ := ih (hv.next hround) (by omega)
      refine ⟨m, t', by omega, hv', hlast, ?_⟩
      have hmore : decide (n < m) = true := decide_eq_true (by omega)
      rw [loopFrom, bind_of_eq hround, if_pos rfl, bind_pure_apply, heq, hmore]
      cases (round m t').2 <;> rfl
    · refine ⟨n, t, Nat.le_refl n, hv, hagain, ?_⟩
      have hsame : decide (n < n) = false := decide_eq_false (Nat.lt_irrefl n)
      rw [loopFrom, hsame]
      cases hres : (round n t).2 with
      | ok again =>
        obtain rfl : again = false := by simpa [hres] using hagain
        rw [bind_of_ok hres]
        rfl
      | err e => rw [bind_of_err hres, Outcome.err_bind]
      | panic => rw [bind_of_panic hres, Outcome.panic_bind]

theorem loopFrom_of_visits {n : ℕ} {t : σ} (hv : Visits round s n t) (fuel : ℕ) :
    loopFrom round (n + fuel) 0 s = ((loopFrom round fuel n t).1,
      (loopFrom round fuel n t).2 >>= fun again => .ok (decide (0 < n) || again)) := by
  induction hv generalizing fuel with
  | start =>
    rw [Nat.zero_add]
    refine Prod.ext rfl ?_
    cases (loopFrom round fuel 0 s).2 <;> rfl
  | @next n t t' hv hround ih =>
    rw [Nat.add_right_comm, Nat.add_assoc, ih (fuel + 1), loopFrom, bind_of_eq hround, if_pos rfl,
      bind_pure_apply]
    refine Prod.ext rfl ?_
    cases (loopFrom round fuel (n + 1) t').2 <;> simp

theorem loopFrom_of_last {n fuel : ℕ} {t t' : σ} (hv : Visits round s n t)
    (hlast : round n t = (t', .ok false)) (hfuel : n < fuel) :
    loopFrom round fuel 0 s = (t', .ok (decide (0 < n))) := by
  obtain ⟨more, rfl⟩ := Nat.exists_eq_add_of_lt hfuel
  rw [Nat.add_assoc, loopFrom_of_visits hv, loopFrom, bind_of_eq hlast]
  simp

end Stateful

end Stratisd.Run
