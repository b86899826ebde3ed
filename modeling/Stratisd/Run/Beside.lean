import Stratisd.Run.Stateful

/-! Code with a record beside its state. The record takes down what the code does to the world
outside; the state and the result are those of the code without it. -/

namespace Stratisd.Run

namespace Stateful

variable {σ τ δ ε α β : Type}

/-- Code that leaves the record alone. -/
def beside (q : Stateful σ ε α) : Stateful (σ × δ) ε α :=
  within Prod.fst (fun s x => (s, x.2)) q

/-- Take something down. -/
def note (f : δ → δ) : Stateful (σ × δ) ε Unit := modify fun x => (x.1, f x.2)

theorem beside_get_bind (f : σ → Stateful (σ × δ) ε β) (x : σ × δ) :
    (beside get >>= f) x = f x.1 x := rfl

theorem beside_modify_bind (g : σ → σ) (f : Unit → Stateful (σ × δ) ε β) (x : σ × δ) :
    (beside (modify g) >>= f) x = f () (g x.1, x.2) := rfl

theorem note_bind (g : δ → δ) (f : Unit → Stateful (σ × δ) ε β) (x : σ × δ) :
    (note g >>= f) x = f () (x.1, g x.2) := rfl

/-- Apart from the record the code does what `q` does. -/
def Mirrors (p : Stateful (σ × δ) ε α) (q : Stateful σ ε α) : Prop :=
  ∀ s d, ((p (s, d)).1.1, (p (s, d)).2) = q s

theorem mirrors_beside (q : Stateful σ ε α) : Mirrors (beside q : Stateful (σ × δ) ε α) q :=
  fun _ _ => rfl

theorem mirrors_lift (x : Outcome ε α) :
    Mirrors (lift x : Stateful (σ × δ) ε α) (lift x) := fun _ _ => rfl

theorem mirrors_pure (a : α) :
    Mirrors (pure a : Stateful (σ × δ) ε α) (pure a) := fun _ _ => rfl

variable {p : Stateful (σ × δ) ε α} {q : Stateful σ ε α}

theorem Mirrors.bind {f : α → Stateful (σ × δ) ε β} {g : α → Stateful σ ε β} (h : Mirrors p q)
    (hf : ∀ a, Mirrors (f a) (g a)) : Mirrors (p >>= f) (q >>= g) := by
  intro s d
  rw [bind_apply, bind_apply, ← h s d]
  rcases hp : p (s, d) with ⟨⟨s', d'⟩, a | e | _⟩
  · exact hf a s' d'
  · rfl
  · rfl

theorem Mirrors.note {f : δ → δ} (h : Mirrors p q) : Mirrors (note f >>= fun _ => p) q :=
  fun s d => h s (f d)

theorem Mirrors.note_after {f : α → δ → δ} (h : Mirrors p q) :
    Mirrors (do
      let a ← p
      Stateful.note (f a)
      pure a) q := by
  intro s d
  rw [bind_apply, ← h s d]
  rcases hp : p (s, d) with ⟨⟨s', d'⟩, a | e | _⟩ <;> rfl

/-- Take something down if the code fails. -/
def noteErr (f : δ → δ) (p : Stateful (σ × δ) ε α) : Stateful (σ × δ) ε α := fun x =>
  match p x with
  | (x', .err e) => ((x'.1, f x'.2), .err e)
  | r => r

theorem Mirrors.noteErr {f : δ → δ} (h : Mirrors p q) : Mirrors (noteErr f p) q := by
  intro s d
  rw [← h s d, Stateful.noteErr]
  rcases hp : p (s, d) with ⟨⟨s', d'⟩, a | e | _⟩ <;> rfl

theorem keeps_beside (I : δ → Prop) (q : Stateful σ ε α) :
    Keeps (fun x : σ × δ => I x.2) (beside q) := fun _ h => h

theorem Keeps.noteErr {I : δ → Prop} {f : δ → δ} (hp : Keeps (fun x : σ × δ => I x.2) p)
    (hf : ∀ d, I d → I (f d)) : Keeps (fun x : σ × δ => I x.2) (noteErr f p) := by
  intro x hx
  have h := hp x hx
  rw [Stateful.noteErr]
  rcases hr : p x with ⟨x', a | e | _⟩ <;> rw [hr] at h
  · exact h
  · exact hf _ h
  · exact h

theorem Mirrors.within {part : σ → τ} {put : τ → σ → σ} {p : Stateful (τ × δ) ε α}
    {q : Stateful τ ε α} (h : Mirrors p q) :
    Mirrors (within (fun x => (part x.1, x.2)) (fun y x => (put y.1 x.1, y.2)) p)
      (within part put q) := by
  intro s d
  have := h (part s) d
  simp only [Stateful.within]
  rw [← this]

theorem Mirrors.eq (h : Mirrors p q) {s s' : σ} {d d' : δ} {r : Outcome ε α}
    (hp : p (s, d) = ((s', d'), r)) : q s = (s', r) := by
  rw [← h s d, hp]

end Stateful

end Stratisd.Run
