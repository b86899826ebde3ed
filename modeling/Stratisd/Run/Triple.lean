import Stratisd.Run.Stateful

/-! Pre- and postconditions of code that changes a state and can return early. What holds when the
code returns and what holds when it does not are stated apart. -/

namespace Stratisd.Run

namespace Stateful

variable {σ ε α β : Type}

/-- The code has returned and `Q` holds, or it has not and `E` does. -/
def Ends (Q : α → σ → Prop) (E : σ → Prop) : σ × Outcome ε α → Prop
  | (s, .ok a) => Q a s
  | (s, .err _) => E s
  | (s, .panic) => E s

def Triple (P : σ → Prop) (p : Stateful σ ε α) (Q : α → σ → Prop) (E : σ → Prop) : Prop :=
  ∀ s, P s → Ends Q E (p s)

/-- If the code returns, `I` still holds. -/
abbrev Preserves (I : σ → Prop) (p : Stateful σ ε α) : Prop := Triple I p (fun _ => I) fun _ => True

variable {P E : σ → Prop} {Q : α → σ → Prop} {R : β → σ → Prop} {p : Stateful σ ε α}

theorem Triple.bind {f : α → Stateful σ ε β} (hp : Triple P p Q E)
    (hf : ∀ a, Triple (Q a) (f a) R E) : Triple P (p >>= f) R E := by
  intro s hs
  have h := hp s hs
  rw [bind_apply]
  rcases hr : p s with ⟨s', a | e | _⟩ <;> rw [hr] at h
  · exact hf a s' h
  · exact h
  · exact h

theorem triple_pure {a : α} (h : ∀ s, P s → Q a s) : Triple P (pure a : Stateful σ ε α) Q E := h

theorem triple_modify {f : σ → σ} {Q : Unit → σ → Prop} (h : ∀ s, P s → Q () (f s)) :
    Triple P (modify f : Stateful σ ε Unit) Q E := h

theorem triple_lift {x : Outcome ε α} (h : ∀ s, P s → E s) :
    Triple P (lift x) (fun a s => x = .ok a ∧ P s) E := by
  intro s hs
  cases x with
  | ok a => exact ⟨rfl, hs⟩
  | err e => exact h s hs
  | panic => exact h s hs

theorem triple_err {e : ε} (h : ∀ s, P s → E s) : Triple P (lift (.err e) : Stateful σ ε α) Q E := h

theorem triple_panic (h : ∀ s, P s → E s) : Triple P (lift .panic : Stateful σ ε α) Q E := h

theorem Triple.imp {P' E' : σ → Prop} {Q' : α → σ → Prop} (h : Triple P p Q E)
    (hP : ∀ s, P' s → P s) (hQ : ∀ a s, Q a s → Q' a s) (hE : ∀ s, E s → E' s) :
    Triple P' p Q' E' := by
  intro s hs
  have hends := h s (hP s hs)
  rcases hr : p s with ⟨s', a | e | _⟩ <;> rw [hr] at hends
  · exact hQ a s' hends
  · exact hE s' hends
  · exact hE s' hends

theorem Triple.at_state {s : σ} (h : Triple P p Q E) (hs : P s) : Triple (fun s' => s' = s) p Q E :=
  h.imp (fun _ heq => heq ▸ hs) (fun _ _ hq => hq) fun _ he => he

theorem triple_get_bind {f : σ → Stateful σ ε β}
    (h : ∀ s, P s → Triple (fun s' => s' = s) (f s) R E) : Triple P (get >>= f) R E :=
  fun s hs => h s hs s rfl

theorem triple_forEach {f : α → Stateful σ ε Unit} {inv : List α → σ → Prop}
    (h : ∀ a as, Triple (inv (a :: as)) (f a) (fun _ => inv as) E) (as : List α) :
    Triple (inv as) (forEach f as) (fun _ => inv []) E := by
  induction as with
  | nil => exact triple_pure fun _ hs => hs
  | cons a as ih => exact (h a as).bind fun _ => ih

theorem Triple.fst (h : Triple P p (fun _ => E) E) {s : σ} (hs : P s) : E (p s).1 := by
  have hends := h s hs
  rcases hr : p s with ⟨s', a | e | _⟩ <;> rw [hr] at hends <;> exact hends

theorem Triple.of_eq_ok (h : Triple P p Q E) {s s' : σ} {a : α} (hs : P s)
    (heq : p s = (s', .ok a)) : Q a s' := by
  have hends := h s hs
  rw [heq] at hends
  exact hends

theorem Triple.keeps {I : σ → Prop} (h : Triple I p (fun _ => I) I) :
    Keeps I p := fun _ hs => h.fst hs

end Stateful

end Stratisd.Run
