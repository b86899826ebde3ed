import Stratisd.Crypt.OperationLoop

/-! The operation on all block devices is a transaction as far as its roll-backs go: it is done on
every device, or undone on those it was done on, up to the first roll-back that fails. The loop is
also given with the calls it makes, to say which devices it touches and in which order. -/

namespace Stratisd.Crypt

open Run Engine List

section

variable {D : Type} (action rollback : ℕ → Stateful D StratisError Unit)

/-- A call on the device at an index. -/
inductive Call where
  | action (index : ℕ)
  | rollback (index : ℕ)
  deriving DecidableEq

/-- `rollbackLoop` with the calls it makes. -/
def rollbackLoopTraced (causalError : StratisError) :
    ℕ → List D → (List D × StratisResult Unit) × List Call
  | _, [] => (([], .err causalError), [])
  | index, d :: record =>
    match rollback index d with
    | (d', .ok ()) =>
      let r := rollbackLoopTraced causalError (index + 1) record
      ((d' :: r.1.1, r.1.2), .rollback index :: r.2)
    | (d', .err e) => ((d' :: record, .err (.rollback causalError e)), [.rollback index])
    | (d', .panic) => ((d' :: record, .panic), [.rollback index])

/-- `operationLoopFrom` with the calls it makes. -/
def operationLoopTraced : List D → List D → (List D × StratisResult Unit) × List Call
  | record, [] => ((record, .ok ()), [])
  | record, d :: ds =>
    match action record.length d with
    | (d', .ok ()) =>
      let r := operationLoopTraced (record ++ [d']) ds
      (r.1, .action record.length :: r.2)
    | (d', .err e) =>
      let r := rollbackLoopTraced rollback e 0 record
      ((r.1.1 ++ d' :: ds, r.1.2), .action record.length :: r.2)
    | (d', .panic) => ((record ++ d' :: ds, .panic), [.action record.length])

/-- The calls that the loop makes on the devices. -/
def operationCalls (ds : List D) : List Call := (operationLoopTraced action rollback [] ds).2

theorem rollbackLoopTraced_fst (e : StratisError) (index : ℕ) (record : List D) :
    (rollbackLoopTraced rollback e index record).1 = rollbackLoop rollback e index record := by
  induction record generalizing index with
  | nil => rfl
  | cons d record ih =>
    rcases hr : rollback index d with ⟨d', _ | e | _⟩ <;>
      simp only [rollbackLoopTraced, rollbackLoop, hr, ih]

theorem operationLoopTraced_fst (record ds : List D) :
    (operationLoopTraced action rollback record ds).1 =
      operationLoopFrom action rollback record ds := by
  induction ds generalizing record with
  | nil => rfl
  | cons d ds ih =>
    rcases ha : action record.length d with ⟨d', _ | e | _⟩ <;>
      simp only [operationLoopTraced, operationLoopFrom, ha, ih, rollbackLoopTraced_fst]

end

variable {D : Type} {action rollback : ℕ → Stateful D StratisError Unit}

/-! ### The roll-back -/

theorem rollbackLoopTraced_of_err {i : ℕ} {done undone rest : List D} {c c' : D}
    (e : StratisError) {e' : StratisError} (hdone : Recorded rollback i done undone)
    (hc : rollback (i + done.length) c = (c', .err e')) :
    rollbackLoopTraced rollback e i (done ++ c :: rest) =
      ((undone ++ c' :: rest, .err (.rollback e e')),
        (List.range' i (done.length + 1)).map .rollback) := by
  induction hdone with
  | nil i =>
    have hfirst : rollback i c = (c', .err e') := hc
    simp [rollbackLoopTraced, hfirst]
  | @cons i d d' ds ds' hd hds ih =>
    have htail := ih (by rwa [length_cons, Nat.add_comm _ 1, ← Nat.add_assoc] at hc)
    simp only [cons_append, rollbackLoopTraced, hd, htail, length_cons,
      List.range'_succ, map_cons]

variable {record : List D}

theorem rollbackLoopTraced_of_recorded {i : ℕ} {undone : List D} (e : StratisError)
    (h : Recorded rollback i record undone) :
    rollbackLoopTraced rollback e i record =
      ((undone, .err e), (List.range' i record.length).map .rollback) := by
  induction h with
  | nil i => rfl
  | @cons i d d' ds ds' hd hds ih =>
    simp only [rollbackLoopTraced, hd, ih, length_cons, List.range'_succ, map_cons]

/-! ### The loop -/

theorem operationLoopTraced_append {pre before : List D}
    (h : Recorded action pre.length before record) (rest : List D) :
    operationLoopTraced action rollback pre (before ++ rest) =
      ((operationLoopTraced action rollback (pre ++ record) rest).1,
        (List.range' pre.length before.length).map .action ++
          (operationLoopTraced action rollback (pre ++ record) rest).2) := by
  induction before generalizing pre record with
  | nil =>
    cases h
    simp
  | cons d before ih =>
    cases h with
    | @cons _ _ d' _ record hd hds =>
      have hlen : (pre ++ [d']).length = pre.length + 1 := by simp
      have htail := ih (hlen ▸ hds : Recorded action (pre ++ [d']).length before record)
      rw [append_assoc, hlen] at htail
      simp only [cons_append, nil_append, operationLoopTraced, hd, htail,
        length_cons, List.range'_succ, map_cons]

theorem operationCalls_of_recorded {ds : List D} (h : Recorded action 0 ds record) :
    operationCalls action rollback ds = (List.range ds.length).map .action := by
  rw [operationCalls, ← append_nil ds,
    operationLoopTraced_append (show Recorded action [].length ds record from h), append_nil,
    range_eq_range']
  exact append_nil _

/-- The action fails after it has been done on the devices before. -/
theorem operationLoopTraced_of_err {before rest : List D} {d d' : D} {e : StratisError}
    (h : Recorded action 0 before record) (hd : action before.length d = (d', .err e)) :
    operationLoopTraced action rollback [] (before ++ d :: rest) =
      (((rollbackLoopTraced rollback e 0 record).1.1 ++ d' :: rest,
        (rollbackLoopTraced rollback e 0 record).1.2),
        (List.range (before.length + 1)).map .action ++
          (rollbackLoopTraced rollback e 0 record).2) := by
  rw [operationLoopTraced_append (show Recorded action [].length _ _ from h), nil_append,
    operationLoopTraced, ← h.length_eq, hd, range_succ, range_eq_range']
  simp

theorem Recorded.isOk {i : ℕ} {ds : List D} (h : Recorded action i ds record) {j : ℕ} {d : D}
    (hd : ds[j]? = some d) : (action (i + j) d).2 = .ok () := by
  obtain ⟨d', -, hact⟩ := h.get hd
  rw [hact]

theorem Recorded.take {i : ℕ} {ds : List D} (h : Recorded action i ds record) (n : ℕ) :
    Recorded action i (ds.take n) (record.take n) := by
  induction h generalizing n with
  | nil i =>
    rw [take_nil]
    exact .nil i
  | cons hd _ ih =>
    cases n with
    | zero => exact .nil _
    | succ n => exact .cons hd (ih n)

/-! ### Undoing -/

/-- The action leaves a device as it is when it fails, and a roll-back that returns leaves what was
there before the action. -/
structure Undoes (action rollback : ℕ → Stateful D StratisError Unit) : Prop where
  failure : ∀ {i d d' e}, action i d = (d', .err e) → d' = d
  undo : ∀ {i d d' d''}, action i d = (d', .ok ()) → rollback i d' = (d'', .ok ()) → d'' = d

theorem Undoes.eq_of_recorded (hu : Undoes action rollback) {i : ℕ} {ds undone : List D}
    (hdone : Recorded action i ds record) (hback : Recorded rollback i record undone) :
    undone = ds := by
  induction hdone generalizing undone with
  | nil => cases hback; rfl
  | cons hd _ ih =>
    cases hback with
    | cons hr hrest => rw [hu.undo hd hr, ih hrest]

/-- The operation returns exactly if the action succeeds on every device, and has then been done on
each once and in order. If the action fails at a device, those before it are rolled back in order:
either all of them, and the devices are as they were; or up to the first roll-back that fails, which
leaves the devices before restored, its own as it left it and those after it with the action
done. -/
theorem operationLoop_transaction (hu : Undoes action rollback) (ds : List D) :
    ((operationLoop action rollback ds).2 = .ok () ↔
        ∀ i d, ds[i]? = some d → (action i d).2 = .ok ()) ∧
      ((operationLoop action rollback ds).2 = .ok () →
        (operationLoop action rollback ds).1 = ds.mapIdx (fun i d => (action i d).1) ∧
          operationCalls action rollback ds = (List.range ds.length).map .action) ∧
      ∀ before record d d' rest e, ds = before ++ d :: rest → Recorded action 0 before record →
        action before.length d = (d', .err e) →
        (∀ restored, Recorded rollback 0 record restored →
          operationLoop action rollback ds = (ds, .err e) ∧
            operationCalls action rollback ds = (List.range (before.length + 1)).map .action ++
              (List.range before.length).map .rollback) ∧
        ∀ done restored c c' changed e', record = done ++ c :: changed →
          Recorded rollback 0 done restored → rollback done.length c = (c', .err e') →
          operationLoop action rollback ds =
              (before.take done.length ++ c' :: changed ++ d :: rest, .err (.rollback e e')) ∧
            operationCalls action rollback ds = (List.range (before.length + 1)).map .action ++
              (List.range (done.length + 1)).map .rollback := by
  have hok : (operationLoop action rollback ds).2 = .ok () →
      Recorded action 0 ds (operationLoop action rollback ds).1 := fun h =>
    recorded_of_operationLoop (Prod.ext rfl h)
  refine ⟨⟨fun h i d hd => ?_, fun h => ?_⟩, fun h => ⟨?_, operationCalls_of_recorded (hok h)⟩, ?_⟩
  · have hact := (hok h).isOk hd
    rwa [Nat.zero_add] at hact
  · have hall := recorded_mapIdx (i := 0) fun j d hd => by rw [Nat.zero_add]; exact h j d hd
    rw [operationLoop_of_recorded hall]
  · have hrec := hok h
    have hall := recorded_mapIdx (i := 0) fun j d hd => hrec.isOk hd
    rw [operationLoop_of_recorded hall]
    simp only [Nat.zero_add]
  · rintro before record d d' rest e rfl hbefore hd
    obtain rfl : d' = d := hu.failure hd
    have hloop : operationLoop action rollback (before ++ d' :: rest) =
        (operationLoopTraced action rollback [] (before ++ d' :: rest)).1 :=
      (operationLoopTraced_fst action rollback [] _).symm
    rw [hloop, operationCalls, operationLoopTraced_of_err hbefore hd]
    refine ⟨fun restored hback => ?_, ?_⟩
    · rw [rollbackLoopTraced_of_recorded e hback, hu.eq_of_recorded hbefore hback,
        ← List.range_eq_range', hbefore.length_eq]
      exact ⟨rfl, rfl⟩
    · rintro done restored c c' changed e' rfl hback hc
      have htake := hbefore.take done.length
      rw [List.take_left] at htake
      rw [rollbackLoopTraced_of_err e hback (by rwa [Nat.zero_add]),
        hu.eq_of_recorded htake hback, ← List.range_eq_range']
      exact ⟨rfl, rfl⟩

/-- Count up, except on the second device. -/
def countUp (index : ℕ) : Stateful ℕ StratisError Unit := fun d =>
  if index = 1 then (d, .err (.msg "Refused")) else (d + 1, .ok ())

/-- Count down and return the answer. -/
def countDown (answer : StratisResult Unit) (_index : ℕ) : Stateful ℕ StratisError Unit := fun d =>
  (d - 1, answer)

theorem undoes_countUp (answer : StratisResult Unit) : Undoes countUp (countDown answer) where
  failure := by
    intro i d d' e h
    unfold countUp at h
    split_ifs at h <;> cases h
    rfl
  undo := by
    intro i d d' d'' h hback
    unfold countUp at h
    split_ifs at h <;> cases h
    cases hback
    rfl

theorem operationLoop_transaction_countUp :
    Undoes countUp (countDown (.ok ())) ∧
      operationLoop countUp (countDown (.ok ())) [5, 6, 7] = ([5, 6, 7], .err (.msg "Refused")) := by
  have hu := undoes_countUp (.ok ())
  have hdone : Recorded countUp 0 [5] [6] := .cons rfl (.nil 1)
  exact ⟨hu, (((operationLoop_transaction hu [5, 6, 7]).2.2 [5] [6] 6 6 [7] (.msg "Refused") rfl
    hdone rfl).1 [5] (.cons rfl (.nil 1))).1⟩

/-- A roll-back that fails may have put the device back all the same. -/
theorem operationLoop_failed_rollback_restores :
    Undoes countUp (countDown (.err (.msg "Late"))) ∧
      operationLoop countUp (countDown (.err (.msg "Late"))) [5, 6] =
        ([5, 6], .err (.rollback (.msg "Refused") (.msg "Late"))) :=
  ⟨undoes_countUp _, rfl⟩

end Stratisd.Crypt
