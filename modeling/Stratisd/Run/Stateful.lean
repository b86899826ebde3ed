import Stratisd.Run.Outcome

/-! Code that changes a state and can return early. A call that ends in an error or is
stopped leaves the state as it is at that point; nothing is rolled back. -/

namespace Stratisd.Run

/-- Code over a state `σ`. -/
def Stateful (σ ε α : Type) := σ → σ × Outcome ε α

namespace Stateful

variable {σ τ ε α β : Type}

protected def bind (p : Stateful σ ε α) (f : α → Stateful σ ε β) : Stateful σ ε β := fun s =>
  match p s with
  | (s', .ok a) => f a s'
  | (s', .err e) => (s', .err e)
  | (s', .panic) => (s', .panic)

instance : Monad (Stateful σ ε) where
  pure a := fun s => (s, .ok a)
  bind := Stateful.bind

def get : Stateful σ ε σ := fun s => (s, .ok s)

def modify (f : σ → σ) : Stateful σ ε Unit := fun s => (f s, .ok ())

/-- Code that leaves the state alone. -/
def lift (x : Outcome ε α) : Stateful σ ε α := fun s => (s, x)

/-- Go on after an error, with nothing as the result. What has been done stays done. -/
def attempt (p : Stateful σ ε α) : Stateful σ ε (Option α) := fun s =>
  match p s with
  | (s', .ok a) => (s', .ok (some a))
  | (s', .err _) => (s', .ok none)
  | (s', .panic) => (s', .panic)

/-- Deal with an error. What has been done stays done. -/
def rescue (p : Stateful σ ε α) (f : ε → Stateful σ ε α) : Stateful σ ε α := fun s =>
  match p s with
  | (s', .err e) => f e s'
  | r => r

/-- Only whether the code returns, not what. -/
def ignore (p : Stateful σ ε α) : Stateful σ ε Unit := do
  let _ ← p
  pure ()

/-- Code over a part of the state. -/
def within (part : σ → τ) (put : τ → σ → σ) (p : Stateful τ ε α) : Stateful σ ε α := fun s =>
  let r := p (part s)
  (put r.1 s, r.2)

/-- The state in which the code returns. -/
def exec (p : Stateful σ ε Unit) (s : σ) : Outcome ε σ := do
  let _ ← (p s).2
  .ok (p s).1

/-- Code for every element in turn. -/
def forEach (f : α → Stateful σ ε Unit) : List α → Stateful σ ε Unit
  | [] => pure ()
  | a :: as => do
    f a
    forEach f as

@[simp] theorem pure_apply (a : α) (s : σ) : (pure a : Stateful σ ε α) s = (s, .ok a) := rfl

@[simp] theorem get_apply (s : σ) : (get : Stateful σ ε σ) s = (s, .ok s) := rfl

@[simp] theorem modify_apply (f : σ → σ) (s : σ) :
    (modify f : Stateful σ ε Unit) s = (f s, .ok ()) := rfl

@[simp] theorem lift_apply (x : Outcome ε α) (s : σ) : lift x s = (s, x) := rfl

theorem bind_apply (p : Stateful σ ε α) (f : α → Stateful σ ε β) (s : σ) :
    (p >>= f) s = match p s with
      | (s', .ok a) => f a s'
      | (s', .err e) => (s', .err e)
      | (s', .panic) => (s', .panic) := rfl

variable {p : Stateful σ ε α} {s s' : σ}

theorem bind_of_eq {a : α} (h : p s = (s', .ok a)) (f : α → Stateful σ ε β) :
    (p >>= f) s = f a s' := by
  rw [bind_apply, h]

theorem bind_of_ok {a : α} (h : (p s).2 = .ok a) (f : α → Stateful σ ε β) :
    (p >>= f) s = f a (p s).1 := by
  rw [bind_apply]
  split <;> simp_all

theorem bind_of_err {e : ε} (h : (p s).2 = .err e) (f : α → Stateful σ ε β) :
    (p >>= f) s = ((p s).1, .err e) := by
  rw [bind_apply]
  split <;> simp_all

theorem bind_of_panic (h : (p s).2 = .panic) (f : α → Stateful σ ε β) :
    (p >>= f) s = ((p s).1, .panic) := by
  rw [bind_apply]
  split <;> simp_all

/-- The rest is done in the state that the first part leaves, or the first part does not
return and its state is the last one. -/
theorem bind_cases (p : Stateful σ ε α) (f : α → Stateful σ ε β) (s : σ) :
    (∃ a, (p s).2 = .ok a ∧ (p >>= f) s = f a (p s).1) ∨
      ((p >>= f) s).1 = (p s).1 ∧ ∀ b, ((p >>= f) s).2 ≠ .ok b := by
  cases h : (p s).2 with
  | ok a => exact Or.inl ⟨a, rfl, bind_of_ok h f⟩
  | err e =>
    rw [bind_of_err h]
    exact Or.inr ⟨rfl, by simp⟩
  | panic =>
    rw [bind_of_panic h]
    exact Or.inr ⟨rfl, by simp⟩

@[simp] theorem get_bind (f : σ → Stateful σ ε β) (s : σ) : (get >>= f) s = f s s := rfl

@[simp] theorem modify_bind (g : σ → σ) (f : Unit → Stateful σ ε β) (s : σ) :
    (modify g >>= f) s = f () (g s) := rfl

@[simp] theorem lift_ok_bind (a : α) (f : α → Stateful σ ε β) (s : σ) :
    (lift (.ok a) >>= f) s = f a s := rfl

@[simp] theorem lift_err_bind (e : ε) (f : α → Stateful σ ε β) (s : σ) :
    (lift (.err e) >>= f) s = (s, .err e) := rfl

@[simp] theorem lift_panic_bind (f : α → Stateful σ ε β) (s : σ) :
    (lift .panic >>= f) s = (s, .panic) := rfl

variable {f : α → Stateful σ ε β}

theorem bind_eq_ok {b : β} :
    (p >>= f) s = (s', .ok b) ↔ ∃ s₁ a, p s = (s₁, .ok a) ∧ f a s₁ = (s', .ok b) := by
  rw [bind_apply]
  constructor
  · intro h
    split at h
    · rename_i s₁ a hp
      exact ⟨s₁, a, hp, h⟩
    · cases h
    · cases h
  · rintro ⟨s₁, a, hp, hf⟩
    rw [hp]
    exact hf

theorem bind_eq_err {e : ε} :
    (p >>= f) s = (s', .err e) ↔
      p s = (s', .err e) ∨ ∃ s₁ a, p s = (s₁, .ok a) ∧ f a s₁ = (s', .err e) := by
  rw [bind_apply]
  rcases h : p s with ⟨s₁, _ | _ | _⟩ <;> simp

theorem lift_bind_snd (x : Outcome ε α) (f : α → Stateful σ ε β) (s : σ) :
    ((lift x >>= f) s).2 = x >>= fun a => (f a s).2 := by
  cases x <;> rfl

theorem lift_bind_eq_err {x : Outcome ε α} {e : ε} :
    (lift x >>= f) s = (s', .err e) ↔
      (x = .err e ∧ s = s') ∨ ∃ a, x = .ok a ∧ f a s = (s', .err e) := by
  cases x with
  | ok a => simp
  | err e' => simp [and_comm]
  | panic => simp

theorem lift_eq_ok {x : Outcome ε α} {a : α} (h : lift x s = (s', .ok a)) : x = .ok a ∧ s = s' :=
  ⟨(Prod.mk.inj h).2, (Prod.mk.inj h).1⟩

theorem exists_of_isOk {r : σ × Outcome ε α} (h : r.2.isOk = true) : ∃ s a, r = (s, .ok a) := by
  obtain ⟨a, ha⟩ := Outcome.isOk_iff.mp h
  exact ⟨r.1, a, Prod.ext rfl ha⟩

theorem attempt_eq_ok {a : Option α} (h : attempt p s = (s', .ok a)) :
    (∃ b, p s = (s', .ok b) ∧ a = some b) ∨ ∃ e, p s = (s', .err e) ∧ a = none := by
  unfold attempt at h
  split at h
  · rename_i s₁ b hp
    cases h
    exact Or.inl ⟨b, hp, rfl⟩
  · rename_i s₁ e hp
    cases h
    exact Or.inr ⟨e, hp, rfl⟩
  · cases h

theorem rescue_eq_ok {f : ε → Stateful σ ε α} (hf : ∀ e s s' a, f e s ≠ (s', .ok a)) {a : α} :
    rescue p f s = (s', .ok a) ↔ p s = (s', .ok a) := by
  rw [rescue]
  split
  · rename_i s₁ e hp
    rw [hp]
    exact ⟨fun h => absurd h (hf e s₁ s' a), fun h => by cases h⟩
  · rfl

theorem ignore_eq_ok : ignore p s = (s', .ok ()) ↔ ∃ a, p s = (s', .ok a) := by
  rw [ignore, bind_eq_ok]
  constructor
  · rintro ⟨s₁, a, hp, h⟩
    cases h
    exact ⟨a, hp⟩
  · rintro ⟨a, hp⟩
    exact ⟨s', a, hp, rfl⟩

theorem exec_eq_ok {p : Stateful σ ε Unit} : p.exec s = .ok s' ↔ p s = (s', .ok ()) := by
  rw [exec, Outcome.bind_eq_ok]
  constructor
  · rintro ⟨a, ha, hs⟩
    exact Prod.ext (Outcome.ok.inj hs) ha
  · intro h
    rw [h]
    exact ⟨(), rfl, rfl⟩

theorem bind_pure_apply (p : Stateful σ ε α) (f : α → β) (s : σ) :
    (p >>= fun a => pure (f a)) s = ((p s).1, (p s).2 >>= fun a => .ok (f a)) := by
  rw [bind_apply]
  split <;> rename_i h <;> rw [h] <;> rfl

theorem map_fst (f : α → β) (p : Stateful σ ε α) (s : σ) : ((f <$> p) s).1 = (p s).1 := by
  change ((p >>= fun a => pure (f a)) s).1 = _
  rw [bind_pure_apply]

theorem map_eq_ok {f : α → β} {b : β} :
    (f <$> p) s = (s', .ok b) ↔ ∃ a, p s = (s', .ok a) ∧ f a = b := by
  change (p >>= fun a => pure (f a)) s = _ ↔ _
  rw [bind_eq_ok]
  constructor
  · rintro ⟨s₁, a, hp, h⟩
    cases h
    exact ⟨a, hp, rfl⟩
  · rintro ⟨a, hp, rfl⟩
    exact ⟨s', a, hp, rfl⟩

theorem ignore_fst (p : Stateful σ ε α) (s : σ) : (ignore p s).1 = (p s).1 := by
  rw [ignore, bind_apply]
  split <;> simp_all

theorem ignore_err {e : ε} : (ignore p s).2 = .err e ↔ (p s).2 = .err e := by
  rw [ignore, bind_pure_apply]
  cases (p s).2 <;> simp

theorem within_eq_ok {part : σ → τ} {put : τ → σ → σ} {p : Stateful τ ε α} {a : α} :
    within part put p s = (s', .ok a) ↔ ∃ t, p (part s) = (t, .ok a) ∧ put t s = s' := by
  simp only [within, Prod.mk.injEq]
  constructor
  · rintro ⟨h1, h2⟩
    exact ⟨(p (part s)).1, Prod.ext rfl h2, h1⟩
  · rintro ⟨t, h1, h2⟩
    rw [h1]
    exact ⟨h2, rfl⟩

/-! ### Invariants -/

/-- However the code ends, the property still holds. -/
def Keeps (I : σ → Prop) (p : Stateful σ ε α) : Prop := ∀ s, I s → I (p s).1

variable {I : σ → Prop}

theorem Keeps.after (hp : Keeps I p) {r : Outcome ε α} (h : I s) (he : p s = (s', r)) : I s' := by
  have := hp s h
  rwa [he] at this

theorem keeps_pure (a : α) : Keeps I (pure a : Stateful σ ε α) := fun _ h => h

theorem keeps_lift (x : Outcome ε α) : Keeps I (lift x) := fun _ h => h

theorem keeps_modify {f : σ → σ} (h : ∀ s, I s → I (f s)) :
    Keeps I (modify f : Stateful σ ε Unit) := h

theorem keeps_bind_at (hp : I (p s).1) (hf : ∀ a, Keeps I (f a)) : I ((p >>= f) s).1 := by
  rw [bind_apply]
  split
  · rename_i s' a hs
    rw [hs] at hp
    exact hf a s' hp
  · rename_i s' e hs
    rwa [hs] at hp
  · rename_i s' hs
    rwa [hs] at hp

theorem Keeps.bind (hp : Keeps I p) (hf : ∀ a, Keeps I (f a)) :
    Keeps I (p >>= f) := fun s h => keeps_bind_at (hp s h) hf

theorem keeps_get_bind {f : σ → Stateful σ ε β} (h : ∀ s, I s → I (f s s).1) :
    Keeps I (get >>= f) := h

theorem keeps_read {f : σ → Stateful σ ε β} (h : ∀ s, Keeps I (f s)) : Keeps I (get >>= f) :=
  fun s hs => h s s hs

theorem Keeps.ignore (hp : Keeps I p) : Keeps I (ignore p) :=
  hp.bind fun _ => keeps_pure ()

theorem Keeps.attempt (hp : Keeps I p) : Keeps I (attempt p) := by
  intro s h
  have h1 := hp s h
  unfold Stateful.attempt
  split <;> rename_i hs <;> rwa [hs] at h1

theorem keeps_forEach {f : α → Stateful σ ε Unit} (h : ∀ a, Keeps I (f a)) (as : List α) :
    Keeps I (forEach f as) := by
  induction as with
  | nil => exact keeps_pure ()
  | cons a as ih => exact (h a).bind fun _ => ih

/-- If the code for a key changes no more than what the state has under that key, the loop over
distinct keys changes what is under each of them, once. -/
theorem forEach_update {κ ν : Type} [DecidableEq κ] {view : σ → κ → ν}
    {f : κ → Stateful σ ε Unit} {g : κ → ν → ν}
    (hf : ∀ k s s', f k s = (s', .ok ()) → view s' = Function.update (view s) k (g k (view s k)))
    {keys : List κ} (hnodup : keys.Nodup) {s s' : σ} (h : forEach f keys s = (s', .ok ())) (k : κ) :
    view s' k = if k ∈ keys then g k (view s k) else view s k := by
  induction keys generalizing s with
  | nil => rw [← (Prod.mk.inj h).1, if_neg List.not_mem_nil]
  | cons a keys ih =>
    obtain ⟨ha, hnodup⟩ := List.nodup_cons.mp hnodup
    obtain ⟨s₁, _, hfirst, h⟩ := bind_eq_ok.mp h
    rw [ih hnodup h, hf a s s₁ hfirst]
    by_cases hk : k = a
    · subst hk
      rw [if_neg ha, if_pos List.mem_cons_self, Function.update_self]
    · rw [Function.update_of_ne hk]
      simp only [List.mem_cons, hk, false_or]

end Stateful

end Stratisd.Run
