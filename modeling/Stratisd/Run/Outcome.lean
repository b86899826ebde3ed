import Mathlib.Data.List.Forall2

/-! Results of fallible code. A call either returns a value, returns an error, or
does not return because an assertion or an arithmetic check stopped it. The
error alternative and the stopped alternative are kept apart: a caller can catch
the first and never the second. -/

namespace Stratisd.Run

/-- The three ways a call can end. -/
inductive Outcome (ε α : Type) where
  | ok (a : α)
  | err (e : ε)
  | panic
  deriving DecidableEq

namespace Outcome

variable {ε α β : Type}

protected def bind : Outcome ε α → (α → Outcome ε β) → Outcome ε β
  | ok a, f => f a
  | err e, _ => err e
  | panic, _ => panic

instance : Monad (Outcome ε) where
  pure := ok
  bind := Outcome.bind

@[simp] theorem pure_eq (a : α) : (pure a : Outcome ε α) = ok a := rfl
@[simp] theorem ok_bind (a : α) (f : α → Outcome ε β) : (ok a >>= f) = f a := rfl
@[simp] theorem err_bind (e : ε) (f : α → Outcome ε β) : (err e >>= f) = err e := rfl
@[simp] theorem panic_bind (f : α → Outcome ε β) : ((panic : Outcome ε α) >>= f) = panic := rfl

variable {x : Outcome ε α} {f : α → Outcome ε β}

protected theorem bind_eq_ok {b : β} : (x >>= f) = ok b ↔ ∃ a, x = ok a ∧ f a = ok b := by
  cases x <;> simp

protected theorem bind_eq_err {e : ε} : (x >>= f) = err e ↔ x = err e ∨ ∃ a, x = ok a ∧ f a = err e := by
  cases x <;> simp

theorem ite_err_eq_ok {p : Prop} [Decidable p] {e : ε} {x : Outcome ε α} {a : α} :
    (if p then err e else x) = ok a ↔ ¬p ∧ x = ok a := by
  split_ifs with h <;> simp [h]

theorem ok_ne_err (a : α) (e : ε) : ok a ≠ err e := nofun

theorem ok_ne_panic (a : α) : (ok a : Outcome ε α) ≠ panic := nofun

theorem panic_ne_err (e : ε) : (panic : Outcome ε α) ≠ err e := nofun

theorem err_ne_panic (e : ε) : (err e : Outcome ε α) ≠ panic := nofun

theorem bind_ne_err {e : ε} (hx : x ≠ err e) (hf : ∀ a, f a ≠ err e) : (x >>= f) ≠ err e := by
  intro h
  rcases Outcome.bind_eq_err.mp h with h | ⟨a, -, h⟩
  · exact hx h
  · exact hf a h

theorem bind_ne_panic (hx : x ≠ panic) (hf : ∀ a, f a ≠ panic) : (x >>= f) ≠ panic := by
  cases x with
  | ok a => exact hf a
  | err e => nofun
  | panic => exact absurd rfl hx

theorem bind_congr {g : α → Outcome ε β} (h : ∀ a, x = ok a → f a = g a) :
    (x >>= f) = (x >>= g) := by
  cases x with
  | ok a => exact h a rfl
  | err e => rfl
  | panic => rfl

/-- Second try after an error; a stopped call is not caught. -/
def orElse : Outcome ε α → Outcome ε α → Outcome ε α
  | err _, y => y
  | x, _ => x

@[simp] theorem ok_orElse (a : α) (y : Outcome ε α) : (ok a).orElse y = ok a := rfl
@[simp] theorem err_orElse (e : ε) (y : Outcome ε α) : (err e).orElse y = y := rfl
@[simp] theorem panic_orElse (y : Outcome ε α) : (panic : Outcome ε α).orElse y = panic := rfl

theorem orElse_eq_ok {y : Outcome ε α} {a : α} :
    x.orElse y = ok a ↔ x = ok a ∨ (∃ e, x = err e) ∧ y = ok a := by
  cases x <;> simp

/-- Report an error in other words. -/
def mapErr {ε' : Type} (f : ε → ε') : Outcome ε α → Outcome ε' α
  | ok a => ok a
  | err e => err (f e)
  | panic => panic

theorem mapErr_eq_ok {ε' : Type} {f : ε → ε'} {a : α} : x.mapErr f = ok a ↔ x = ok a := by
  cases x <;> simp [mapErr]

def isOk : Outcome ε α → Bool
  | ok _ => true
  | _ => false

@[simp] theorem isOk_ok (a : α) : (ok a : Outcome ε α).isOk = true := rfl
@[simp] theorem isOk_err (e : ε) : (err e : Outcome ε α).isOk = false := rfl
@[simp] theorem isOk_panic : (panic : Outcome ε α).isOk = false := rfl

theorem isOk_iff : x.isOk = true ↔ ∃ a, x = ok a := by
  cases x <;> simp

/-- Whether code returns a value with a decidable property is found out by running it. -/
instance decidableExistsOk (x : Outcome ε α) (p : α → Prop) [DecidablePred p] :
    Decidable (∃ a, x = ok a ∧ p a) :=
  match x with
  | ok a => decidable_of_iff (p a) (by simp)
  | err _ => isFalse (by simp)
  | panic => isFalse (by simp)

/-- Read an optional value, with the error to report when it is absent. -/
def ofOption (e : ε) : Option α → Outcome ε α
  | some a => ok a
  | none => err e

@[simp] theorem ofOption_some (e : ε) (a : α) : ofOption e (some a) = ok a := rfl
@[simp] theorem ofOption_none (e : ε) : ofOption e (none : Option α) = err e := rfl

theorem ofOption_eq_ok {e : ε} {x : Option α} {a : α} : ofOption e x = ok a ↔ x = some a := by
  cases x <;> simp

/-- Read an optional value that has to be there. -/
def expect : Option α → Outcome ε α
  | some a => ok a
  | none => panic

@[simp] theorem expect_some (a : α) : (expect (some a) : Outcome ε α) = ok a := rfl
@[simp] theorem expect_none : (expect (none : Option α) : Outcome ε α) = panic := rfl

theorem expect_eq_ok {x : Option α} {a : α} : (expect x : Outcome ε α) = ok a ↔ x = some a := by
  cases x <;> simp

theorem expect_ne_err (x : Option α) (e : ε) : expect x ≠ err e := by
  cases x <;> simp

/-- A result that has to be there. -/
def unwrap : Outcome ε α → Outcome ε α
  | err _ => panic
  | x => x

@[simp] theorem unwrap_ok (a : α) : (ok a : Outcome ε α).unwrap = ok a := rfl

/-- A fallible map over a list that stops at the first failure. -/
def collect (f : α → Outcome ε β) : List α → Outcome ε (List β)
  | [] => ok []
  | a :: as => do
    let b ← f a
    let bs ← collect f as
    ok (b :: bs)

variable {as : List α}

theorem collect_eq_of_map {as' : List α} (h : as.map f = as'.map f) :
    collect f as = collect f as' := by
  have hmap : ∀ as : List α, collect f as = collect id (as.map f) := by
    intro as
    induction as with
    | nil => rfl
    | cons a as ih => rw [List.map_cons, collect, collect, ih, id]
  rw [hmap as, h, ← hmap as']

variable {bs : List β}

theorem collect_eq_ok : collect f as = ok bs ↔ List.Forall₂ (fun a b => f a = ok b) as bs := by
  induction as generalizing bs with
  | nil => cases bs <;> simp [collect]
  | cons a as ih =>
    simp only [collect, Outcome.bind_eq_ok]
    constructor
    · rintro ⟨b, hb, cs, hcs, h⟩
      cases h
      exact List.Forall₂.cons hb (ih.mp hcs)
    · intro h
      cases h with
      | cons hb hbs => exact ⟨_, hb, _, ih.mpr hbs, rfl⟩

theorem collect_eq_map {g : α → β} (h : ∀ a ∈ as, f a = ok (g a)) :
    collect f as = ok (as.map g) := by
  rw [collect_eq_ok, List.forall₂_map_right_iff]
  exact List.forall₂_same.mpr h

theorem exists_collect (h : ∀ a ∈ as, ∃ b, f a = ok b) : ∃ bs, collect f as = ok bs := by
  induction as with
  | nil => exact ⟨[], rfl⟩
  | cons a as ih =>
    obtain ⟨b, hb⟩ := h a List.mem_cons_self
    obtain ⟨bs, hbs⟩ := ih fun a ha => h a (List.mem_cons_of_mem _ ha)
    exact ⟨b :: bs, by rw [collect, hb, ok_bind, hbs, ok_bind]⟩

theorem collect_ne_panic (h : ∀ a, f a ≠ panic) : collect f as ≠ panic := by
  induction as with
  | nil => exact nofun
  | cons a as ih => exact bind_ne_panic (h a) fun b => bind_ne_panic ih fun bs => nofun

theorem exists_of_forall₂ {R : α → β → Prop} (h : List.Forall₂ R as bs) {a : α} (ha : a ∈ as) :
    ∃ b ∈ bs, R a b := by
  induction h with
  | nil => simp at ha
  | cons hab has ih =>
    rcases List.mem_cons.mp ha with rfl | ha
    · exact ⟨_, List.mem_cons_self, hab⟩
    · obtain ⟨b, hm, hb⟩ := ih ha
      exact ⟨b, List.mem_cons_of_mem _ hm, hb⟩

theorem map_eq_of_forall₂ {γ : Type*} {f : α → γ} {g : β → γ}
    (h : List.Forall₂ (fun a b => f a = g b) as bs) : as.map f = bs.map g := by
  rwa [← List.forall₂_eq_eq_eq, List.forall₂_map_left_iff, List.forall₂_map_right_iff]

theorem exists_forall₂ {R : α → β → Prop} (h : ∀ a ∈ as, ∃ b, R a b) :
    ∃ bs, List.Forall₂ R as bs := by
  induction as with
  | nil => exact ⟨[], .nil⟩
  | cons a as ih =>
    obtain ⟨b, hb⟩ := h a List.mem_cons_self
    obtain ⟨bs, hbs⟩ := ih fun a' ha => h a' (List.mem_cons_of_mem _ ha)
    exact ⟨b :: bs, .cons hb hbs⟩

theorem exists_of_collect (h : collect f as = ok bs) {a : α} (ha : a ∈ as) : ∃ b ∈ bs, f a = ok b :=
  exists_of_forall₂ (collect_eq_ok.mp h) ha

theorem exists_of_mem_collect (h : collect f as = ok bs) {b : β} (hb : b ∈ bs) :
    ∃ a ∈ as, f a = ok b :=
  exists_of_forall₂ (collect_eq_ok.mp h).flip hb

theorem collect_map {γ : Type*} (h : collect f as = ok bs) {g : β → γ} {k : α → γ}
    (hg : ∀ a ∈ as, ∀ b, f a = ok b → g b = k a) : bs.map g = as.map k := by
  induction collect_eq_ok.mp h with
  | nil => rfl
  | cons ha has ih =>
    rw [List.map_cons, List.map_cons, hg _ List.mem_cons_self _ ha,
      ih (collect_eq_ok.mpr has) fun a ha => hg a (List.mem_cons_of_mem _ ha)]

end Outcome

end Stratisd.Run
