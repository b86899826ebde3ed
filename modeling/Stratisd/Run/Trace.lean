import Mathlib.Data.List.Basic

/-! Runs of a deterministic step function that reports an output for each input.
Nondeterminism is in the inputs: an input carries the request and everything the
environment answers while the request is served. -/

namespace Stratisd.Run

variable {σ ι ο : Type*} (step : σ → ι → σ × ο)

/-- The final state and the inputs paired with their outputs. -/
def run (s : σ) : List ι → σ × List (ι × ο)
  | [] => (s, [])
  | i :: is =>
    let r := run (step s i).1 is
    (r.1, (i, (step s i).2) :: r.2)

@[simp] theorem run_nil (s : σ) : run step s [] = (s, []) := rfl

@[simp] theorem run_cons (s : σ) (i : ι) (is : List ι) :
    run step s (i :: is) =
      ((run step (step s i).1 is).1, (i, (step s i).2) :: (run step (step s i).1 is).2) := rfl

theorem run_append (s : σ) (is js : List ι) :
    run step s (is ++ js) =
      ((run step (run step s is).1 js).1, (run step s is).2 ++ (run step (run step s is).1 js).2) := by
  induction is generalizing s with
  | nil => rfl
  | cons i is ih => simp [ih]

/-- `A` holds of every input of the run in the state it is served in. -/
def AllSteps (A : σ → ι → Prop) (s : σ) : List ι → Prop
  | [] => True
  | i :: is => A s i ∧ AllSteps A (step s i).1 is

variable {s : σ} {is : List ι}

theorem allSteps_append {A : σ → ι → Prop} {js : List ι} :
    AllSteps step A s (is ++ js) ↔ AllSteps step A s is ∧ AllSteps step A (run step s is).1 js := by
  induction is generalizing s with
  | nil => simp [AllSteps]
  | cons i is ih => simp [AllSteps, ih, and_assoc]

/-- A property of a state and the history leading to it that every admitted step
preserves holds at the end of every run of admitted steps. -/
theorem run_invariant {A : σ → ι → Prop} {P : σ → List (ι × ο) → Prop}
    (hstep : ∀ s tr i, P s tr → A s i → P (step s i).1 (tr ++ [(i, (step s i).2)])) (h0 : P s [])
    (ha : AllSteps step A s is) :
    P (run step s is).1 (run step s is).2 := by
  -- a run that goes on from any history
  have hfrom : ∀ tr, P s tr → P (run step s is).1 (tr ++ (run step s is).2) := by
    clear h0
    induction is generalizing s with
    | nil => simp
    | cons i is ih =>
      intro tr h
      have := ih ha.2 _ (hstep s tr i h ha.1)
      simpa using this
  exact hfrom [] h0

theorem run_state_invariant {A : σ → ι → Prop} {P : σ → Prop}
    (hstep : ∀ s i, P s → A s i → P (step s i).1) (h0 : P s) (ha : AllSteps step A s is) :
    P (run step s is).1 :=
  run_invariant step (P := fun s _ => P s) (fun s _ i => hstep s i) h0 ha

/-- A relation between two step functions on the same inputs that every admitted step
preserves, with related outputs, relates whole runs. -/
theorem run_simulation {τ π : Type*} (step' : τ → ι → τ × π) {A : σ → ι → Prop} {R : σ → τ → Prop}
    {Q : ο → π → Prop} (hstep : ∀ s t i, R s t → A s i →
      R (step s i).1 (step' t i).1 ∧ Q (step s i).2 (step' t i).2) {t : τ} (h0 : R s t)
    (ha : AllSteps step A s is) :
    R (run step s is).1 (run step' t is).1 ∧
      List.Forall₂ (fun a b => a.1 = b.1 ∧ Q a.2 b.2) (run step s is).2 (run step' t is).2 := by
  induction is generalizing s t with
  | nil => exact ⟨h0, List.Forall₂.nil⟩
  | cons i is ih =>
    obtain ⟨hr, hq⟩ := hstep s t i h0 ha.1
    obtain ⟨hR, hQ⟩ := ih hr ha.2
    exact ⟨hR, List.Forall₂.cons ⟨rfl, hq⟩ hQ⟩

theorem allSteps_of_forall {A : ι → Prop} (h : ∀ i ∈ is, A i) :
    AllSteps step (fun _ => A) s is := by
  induction is generalizing s with
  | nil => trivial
  | cons i is ih => exact ⟨h i (by simp), ih fun j hj => h j (by simp [hj])⟩

theorem allSteps_of_forall_output {Q : ο → Prop} (h : ∀ p ∈ (run step s is).2, Q p.2) :
    AllSteps step (fun s i => Q (step s i).2) s is := by
  induction is generalizing s with
  | nil => trivial
  | cons i is ih =>
    rw [run_cons] at h
    exact ⟨h (i, _) List.mem_cons_self, ih fun p hp => h p (List.mem_cons_of_mem _ hp)⟩

theorem AllSteps.and {A B : σ → ι → Prop} (ha : AllSteps step A s is) (hb : AllSteps step B s is) :
    AllSteps step (fun s i => A s i ∧ B s i) s is := by
  induction is generalizing s with
  | nil => trivial
  | cons i is ih => exact ⟨⟨ha.1, hb.1⟩, ih ha.2 hb.2⟩

/-- If each admitted step keeps `Q` exactly if `A` holds of it, then `Q` holds all the way exactly
if `A` holds of all steps. `I` holds in any case. -/
theorem forall_prefix_iff_of_allSteps {A B : σ → ι → Prop} {I Q : σ → Prop}
    (hstep : ∀ s i, I s → Q s → B s i → I (step s i).1 ∧ (Q (step s i).1 ↔ A s i)) (hI : I s)
    (hQ : Q s) (hB : AllSteps step B s is) :
    (∀ js, js <+: is → Q (run step s js).1) ↔ AllSteps step A s is := by
  induction is generalizing s with
  | nil =>
    refine ⟨fun _ => trivial, fun _ js hjs => ?_⟩
    rw [List.prefix_nil.mp hjs]
    exact hQ
  | cons i is ih =>
    obtain ⟨hI', hiff⟩ := hstep s i hI hQ hB.1
    constructor
    · intro h
      have hQ' : Q (step s i).1 := h [i] (List.prefix_append [i] is)
      refine ⟨hiff.mp hQ', (ih hI' hQ' hB.2).mp fun js hjs => ?_⟩
      exact h (i :: js) (List.cons_prefix_cons.mpr ⟨rfl, hjs⟩)
    · rintro ⟨hA, hall⟩ js hjs
      cases js with
      | nil => exact hQ
      | cons j js =>
        obtain ⟨rfl, htl⟩ := List.cons_prefix_cons.mp hjs
        exact (ih hI' (hiff.mpr hA) hB.2).mpr hall js htl

theorem forall_prefix_iff_allSteps {A : σ → ι → Prop} {I Q : σ → Prop} {O : ο → Prop}
    (hstep : ∀ s i, I s → Q s → O (step s i).2 → I (step s i).1 ∧ (Q (step s i).1 ↔ A s i))
    (hI : I s) (hQ : Q s) (hout : ∀ p ∈ (run step s is).2, O p.2) :
    (∀ js, js <+: is → Q (run step s js).1) ↔ AllSteps step A s is :=
  forall_prefix_iff_of_allSteps step hstep hI hQ (allSteps_of_forall_output step hout)

/-! ### The last successful input of a history -/

/-- The last input whose output is accepted. -/
def lastAccepted (accept : ο → Bool) (tr : List (ι × ο)) : Option ι :=
  (tr.filter fun x => accept x.2).getLast?.map (·.1)

@[simp] theorem lastAccepted_nil (accept : ο → Bool) :
    lastAccepted accept ([] : List (ι × ο)) = none := rfl

theorem lastAccepted_append_singleton (accept : ο → Bool) (tr : List (ι × ο)) (x : ι × ο) :
    lastAccepted accept (tr ++ [x]) =
      if accept x.2 then some x.1 else lastAccepted accept tr := by
  by_cases h : accept x.2 <;> simp [lastAccepted, List.filter_append, h]

end Stratisd.Run
