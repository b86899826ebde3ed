import Stratisd.Engine.Types
import Stratisd.Run.Stateful

/-! An operation on all block devices. It goes through the devices one after the other. If it
fails on one of them, those before it are rolled back, until a roll-back fails too. -/

namespace Stratisd.Crypt

open Run Engine List

section

variable {D : Type} (action rollback : ℕ → Stateful D StratisError Unit)

/-- Roll back the recorded devices, from the given index on. -/
def rollbackLoop (causalError : StratisError) : ℕ → List D → List D × StratisResult Unit
  | _, [] => ([], .err causalError)
  | index, d :: record =>
    match rollback index d with
    | (d', .ok ()) =>
      let r := rollbackLoop causalError (index + 1) record
      (d' :: r.1, r.2)
    | (d', .err e) => (d' :: record, .err (.rollback causalError e))
    | (d', .panic) => (d' :: record, .panic)

/-- Go on with the loop, after the recorded devices. -/
def operationLoopFrom : List D → List D → List D × StratisResult Unit
  | record, [] => (record, .ok ())
  | record, d :: ds =>
    match action record.length d with
    | (d', .ok ()) => operationLoopFrom (record ++ [d']) ds
    | (d', .err e) =>
      let r := rollbackLoop rollback e 0 record
      (r.1 ++ d' :: ds, r.2)
    | (d', .panic) => (record ++ d' :: ds, .panic)

/-- The action is done on every device. The index of a device tells which answers the system gives
to the calls on it. -/
def operationLoop : Stateful (List D) StratisError Unit := fun ds =>
  operationLoopFrom action rollback [] ds

end

variable {D : Type} {action rollback : ℕ → Stateful D StratisError Unit}

/-! ### What the loop leaves -/

/-- Devices on which the action has been done, from the given index on. -/
inductive Recorded (action : ℕ → Stateful D StratisError Unit) : ℕ → List D → List D → Prop
  | nil (i : ℕ) : Recorded action i [] []
  | cons {i : ℕ} {d d' : D} {ds ds' : List D} (hd : action i d = (d', .ok ()))
      (hds : Recorded action (i + 1) ds ds') : Recorded action i (d :: ds) (d' :: ds')

variable {i : ℕ} {ds record : List D}

theorem Recorded.length_eq (h : Recorded action i ds record) : ds.length = record.length := by
  induction h with
  | nil => rfl
  | cons _ _ ih => rw [length_cons, length_cons, ih]

theorem Recorded.snoc (h : Recorded action i ds record) {d d' : D}
    (hd : action (i + record.length) d = (d', .ok ())) :
    Recorded action i (ds ++ [d]) (record ++ [d']) := by
  induction h with
  | nil i => exact .cons hd (.nil _)
  | cons hd₀ _ ih =>
    refine .cons hd₀ (ih ?_)
    rwa [length_cons, Nat.add_comm _ 1, ← Nat.add_assoc] at hd

theorem Recorded.get {j : ℕ} {d : D} (h : Recorded action i ds record) (hd : ds[j]? = some d) :
    ∃ d', record[j]? = some d' ∧ action (i + j) d = (d', .ok ()) := by
  induction h generalizing j with
  | nil => simp at hd
  | @cons i d₀ d₀' ds ds' hd₀ _ ih =>
    cases j with
    | zero =>
      cases hd
      exact ⟨d₀', rfl, hd₀⟩
    | succ j =>
      obtain ⟨d', hd', hact⟩ := ih hd
      exact ⟨d', hd', by rwa [Nat.add_assoc, Nat.add_comm 1] at hact⟩

theorem Recorded.exists_of_get {j : ℕ} {d' : D} (h : Recorded action i ds record)
    (hd' : record[j]? = some d') :
    ∃ d, ds[j]? = some d ∧ action (i + j) d = (d', .ok ()) := by
  have hj : j < ds.length := by
    rw [h.length_eq]
    exact (List.getElem?_eq_some_iff.mp hd').1
  obtain ⟨d₁, hd₁, hact⟩ := h.get (List.getElem?_eq_getElem hj)
  rw [hd'] at hd₁
  cases hd₁
  exact ⟨_, List.getElem?_eq_getElem hj, hact⟩

theorem recorded_mapIdx (h : ∀ j d, ds[j]? = some d → (action (i + j) d).2 = .ok ()) :
    Recorded action i ds (ds.mapIdx fun j d => (action (i + j) d).1) := by
  induction ds generalizing i with
  | nil => exact .nil i
  | cons d ds ih =>
    rw [mapIdx_cons]
    refine .cons (Prod.ext rfl (h 0 d rfl)) ?_
    have htail := ih (i := i + 1) fun j e he => by
      have := h (j + 1) e he
      rwa [Nat.add_comm j, ← Nat.add_assoc] at this
    simpa only [Nat.add_assoc, Nat.add_comm 1] using htail

theorem operationLoopFrom_append {pre before : List D}
    (h : Recorded action pre.length before record) (rest : List D) :
    operationLoopFrom action rollback pre (before ++ rest) =
      operationLoopFrom action rollback (pre ++ record) rest := by
  induction before generalizing pre record with
  | nil =>
    cases h
    rw [append_nil, nil_append]
  | cons d before ih =>
    cases h with
    | @cons _ _ d' _ record hd hds =>
      have hlen : (pre ++ [d']).length = pre.length + 1 := by simp
      have htail := ih (hlen ▸ hds : Recorded action (pre ++ [d']).length before record)
      rw [append_assoc] at htail
      rw [cons_append, operationLoopFrom, hd]
      exact htail

theorem operationLoop_of_recorded (h : Recorded action 0 ds record) :
    operationLoop action rollback ds = (record, .ok ()) := by
  have happend : operationLoopFrom action rollback [] (ds ++ []) = (record, .ok ()) :=
    operationLoopFrom_append (show Recorded action [].length ds record from h) []
  rwa [append_nil] at happend

theorem operationLoop_of_err {before rest : List D} {d d' : D} {e : StratisError}
    (h : Recorded action 0 before record) (hd : action before.length d = (d', .err e)) :
    operationLoop action rollback (before ++ d :: rest) =
      ((rollbackLoop rollback e 0 record).1 ++ d' :: rest, (rollbackLoop rollback e 0 record).2) := by
  rw [operationLoop, operationLoopFrom_append (show Recorded action [].length _ _ from h), nil_append, operationLoopFrom,
    ← h.length_eq, hd]

theorem operationLoop_of_panic {before rest : List D} {d d' : D}
    (h : Recorded action 0 before record) (hd : action before.length d = (d', .panic)) :
    operationLoop action rollback (before ++ d :: rest) = (record ++ d' :: rest, .panic) := by
  rw [operationLoop, operationLoopFrom_append (show Recorded action [].length _ _ from h), nil_append, operationLoopFrom,
    ← h.length_eq, hd]

theorem rollbackLoop_mapIdx (e : StratisError)
    (h : ∀ j d, record[j]? = some d → (rollback (i + j) d).2 = .ok ()) :
    rollbackLoop rollback e i record =
      (record.mapIdx fun j d => (rollback (i + j) d).1, .err e) := by
  induction record generalizing i with
  | nil => rfl
  | cons d record ih =>
    have hd : rollback i d = ((rollback i d).1, .ok ()) := Prod.ext rfl (h 0 d rfl)
    have htail := ih (i := i + 1) fun j d' hd' => by
      have := h (j + 1) d' hd'
      rwa [Nat.add_comm j, ← Nat.add_assoc] at this
    rw [rollbackLoop, hd]
    simp only [htail, mapIdx_cons, Nat.add_zero, Nat.add_assoc, Nat.add_comm 1]

theorem recorded_of_operationLoop {ds' : List D}
    (h : operationLoop action rollback ds = (ds', .ok ())) : Recorded action 0 ds ds' := by
  have hnot : ∀ (e : StratisError) (i : ℕ) (record : List D),
      (rollbackLoop rollback e i record).2 ≠ .ok () := by
    intro e i record
    induction record generalizing i with
    | nil => simp [rollbackLoop]
    | cons d record ih =>
      unfold rollbackLoop
      split
      · exact ih (i + 1)
      · simp
      · simp
  suffices hfrom : ∀ (before record rest : List D), Recorded action 0 before record →
      operationLoopFrom action rollback record rest = (ds', .ok ()) →
      Recorded action 0 (before ++ rest) ds' from hfrom [] [] ds (.nil 0) h
  intro before record rest hrec hloop
  induction rest generalizing before record with
  | nil =>
    cases hloop
    rwa [append_nil]
  | cons d rest ih =>
    unfold operationLoopFrom at hloop
    split at hloop
    · rename_i d' hok
      have hcons := ih (before ++ [d]) (record ++ [d']) (hrec.snoc (by rwa [Nat.zero_add])) hloop
      rwa [append_assoc] at hcons
    · rename_i e _
      exact absurd (congrArg Prod.snd hloop) (hnot e 0 record)
    · cases hloop

variable {R : D → D → Prop}

theorem Recorded.forall₂ (h : Recorded action i ds record)
    (hact : ∀ j d, ds[j]? = some d → R d (action (i + j) d).1) : List.Forall₂ R ds record := by
  induction h with
  | nil => exact .nil
  | @cons i d d' ds ds' hd _ ih =>
    have hfirst := hact 0 d rfl
    rw [Nat.add_zero, hd] at hfirst
    exact .cons hfirst (ih fun j e he => by
      have := hact (j + 1) e he
      rwa [Nat.add_comm j, ← Nat.add_assoc] at this)

/-- A relation of each device with what the action leaves of it, and with what the roll-back
leaves of that, holds after the roll-back, wherever it stops. -/
theorem rollbackLoop_forall₂ (h : Recorded action i ds record) (e : StratisError)
    (hact : ∀ j d, ds[j]? = some d → R d (action (i + j) d).1)
    (hundo : ∀ j d d', ds[j]? = some d → action (i + j) d = (d', .ok ()) →
      R d (rollback (i + j) d').1) :
    List.Forall₂ R ds (rollbackLoop rollback e i record).1 := by
  induction h with
  | nil => exact .nil
  | @cons i d d' ds ds' hd hds ih =>
    have hfirst : R d (rollback i d').1 := hundo 0 d d' rfl hd
    have hact' : ∀ j d, ds[j]? = some d → R d (action (i + 1 + j) d).1 := fun j e he => by
      have := hact (j + 1) e he
      rwa [Nat.add_comm j, ← Nat.add_assoc] at this
    unfold rollbackLoop
    split
    · rename_i d₁ hr
      rw [hr] at hfirst
      refine .cons hfirst (ih hact' fun j e e' he hok => ?_)
      have := hundo (j + 1) e e' he (by rwa [Nat.add_comm j, ← Nat.add_assoc])
      rwa [Nat.add_comm j, ← Nat.add_assoc] at this
    · rename_i d₁ _ hr
      rw [hr] at hfirst
      exact .cons hfirst (hds.forall₂ hact')
    · rename_i d₁ hr
      rw [hr] at hfirst
      exact .cons hfirst (hds.forall₂ hact')

theorem operationLoop_forall₂ (hrefl : ∀ d, R d d) (ds : List D)
    (hact : ∀ i d, ds[i]? = some d → R d (action i d).1)
    (hundo : ∀ i d d', ds[i]? = some d → action i d = (d', .ok ()) → R d (rollback i d').1) :
    List.Forall₂ R ds (operationLoop action rollback ds).1 := by
  -- what is left of the devices, after those that are recorded
  suffices hfrom : ∀ (before record rest : List D), Recorded action 0 before record →
      before ++ rest = ds → List.Forall₂ R ds (operationLoopFrom action rollback record rest).1 from
    hfrom [] [] ds (.nil 0) rfl
  intro before record rest hrec heq
  induction rest generalizing before record with
  | nil =>
    rw [append_nil] at heq
    subst heq
    exact hrec.forall₂ fun j d hd => by rw [Nat.zero_add]; exact hact j d hd
  | cons d rest ih =>
    have hsame : List.Forall₂ R rest rest := forall₂_same.mpr fun d _ => hrefl d
    have hget : ds[record.length]? = some d := by
      rw [← heq, ← hrec.length_eq, List.getElem?_append_right le_rfl, Nat.sub_self]
      rfl
    have hd : R d (action record.length d).1 := hact _ d hget
    have hbefore : ∀ {j e}, before[j]? = some e → ds[j]? = some e := fun {j e} he => by
      rw [← heq, List.getElem?_append_left (List.getElem?_eq_some_iff.mp he).1, he]
    have hactb : ∀ j e, before[j]? = some e → R e (action (0 + j) e).1 := fun j e he => by
      rw [Nat.zero_add]
      exact hact j e (hbefore he)
    unfold operationLoopFrom
    split
    · rename_i d' hok
      refine ih (before ++ [d]) (record ++ [d']) (hrec.snoc (by rwa [Nat.zero_add])) ?_
      rw [append_assoc, ← heq]
      rfl
    · rename_i d' e herr
      rw [herr] at hd
      rw [← heq]
      refine rel_append (rollbackLoop_forall₂ hrec e hactb fun j b b' hb hok => ?_)
        (.cons hd hsame)
      rw [Nat.zero_add] at hok ⊢
      exact hundo j b b' (hbefore hb) hok
    · rename_i d' hpanic
      rw [hpanic] at hd
      rw [← heq]
      exact rel_append (hrec.forall₂ hactb) (.cons hd hsame)

end Stratisd.Crypt
