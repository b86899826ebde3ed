import Mathlib.Data.Set.Insert
import Stratisd.Engine.TableSpec

/-! A table is meant to be a set of names, UUIDs and items in which no name and no UUID stands
twice. Its operations do to its two maps what the same operations do to that set. -/

namespace Stratisd.Engine

open Run Option

namespace Table

variable {U T ε : Type} [DecidableEq U] {t t' : Table U T} {name : String} {uuid : U} {item : T}

/-! ### Sets of triples -/

/-- The requests that change what a table holds. -/
inductive Op (U T : Type) where
  | insert (name : String) (uuid : U) (item : T)
  | removeByName (name : String)
  | removeByUuid (uuid : U)

inductive Answer (U T : Type) where
  | displaced (triples : Option (List (String × U × T)))
  | byName (found : Option (U × T))
  | byUuid (found : Option (String × T))

/-- The triples that a request removes where they are present. -/
def Op.Concerns : Op U T → String × U × T → Prop
  | .insert name uuid _, p => p.1 = name ∨ p.2.1 = uuid
  | .removeByName name, p => p.1 = name
  | .removeByUuid uuid, p => p.2.1 = uuid

def Op.added : Op U T → Set (String × U × T)
  | .insert name uuid item => {(name, uuid, item)}
  | _ => ∅

/-- What a request makes of a set of triples. -/
def Op.apply (op : Op U T) (S : Set (String × U × T)) : Set (String × U × T) :=
  {p | p ∈ S ∧ ¬op.Concerns p} ∪ op.added

/-- What a request returns: the triples it concerns, and of what an insertion displaces, the
triple with the name first. -/
def Op.Answered (S : Set (String × U × T)) : Op U T → Answer U T → Prop
  | .insert name uuid item, .displaced triples =>
    triples ≠ some [] ∧ (triples.getD []).Nodup ∧
      (∀ p, p ∈ triples.getD [] ↔ p ∈ S ∧ (Op.insert name uuid item).Concerns p) ∧
      ∀ p ∈ S, p.1 = name → (triples.getD []).head? = some p
  | .removeByName name, .byName found => ∀ u x, found = some (u, x) ↔ (name, u, x) ∈ S
  | .removeByUuid uuid, .byUuid found => ∀ n x, found = some (n, x) ↔ (n, uuid, x) ∈ S
  | _, _ => False

/-- No name and no UUID stands twice. -/
def Unique (S : Set (String × U × T)) : Prop :=
  ∀ p ∈ S, ∀ q ∈ S, p.1 = q.1 ∨ p.2.1 = q.2.1 → p = q

/-! ### The two maps -/

def perform (t : Table U T) : Op U T → Outcome ε (Table U T × Answer U T)
  | .insert name uuid item => do
    let r ← t.insert name uuid item
    .ok (r.1, .displaced r.2)
  | .removeByName name =>
    let r := t.removeByName name
    .ok (r.1, .byName r.2)
  | .removeByUuid uuid =>
    let r := t.removeByUuid uuid
    .ok (r.1, .byUuid r.2)

def performAll (t : Table U T) : List (Op U T) → Outcome ε (Table U T × List (Answer U T))
  | [] => .ok (t, [])
  | op :: ops => do
    let r ← t.perform op
    let rs ← r.1.performAll ops
    .ok (rs.1, r.2 :: rs.2)

/-- Both maps, and both ways to find an item, say what is in the set. -/
structure Describes (t : Table U T) (S : Set (String × U × T)) : Prop where
  nameToUuid : ∀ n u, t.nameToUuid.lookup n = some u ↔ ∃ x, (n, u, x) ∈ S
  items : ∀ n u x, t.items.lookup u = some (n, x) ↔ (n, u, x) ∈ S
  getByName : ∀ n u x, t.getByName n = some (u, x) ↔ (n, u, x) ∈ S
  getByUuid : ∀ n u x, t.getByUuid u = some (n, x) ↔ (n, u, x) ∈ S

/-- The triples that the second map holds. -/
def triples (t : Table U T) : Set (String × U × T) :=
  {p | t.getByUuid p.2.1 = some (p.1, p.2.2)}

theorem mem_triples {n : String} {u : U} {x : T} :
    (n, u, x) ∈ t.triples ↔ t.getByUuid u = some (n, x) := Iff.rfl

theorem Consistent.describes (h : t.Consistent) : t.Describes t.triples where
  nameToUuid := h
  items _ _ _ := Iff.rfl
  getByUuid _ _ _ := Iff.rfl
  getByName := by
    intro n u x
    unfold Table.getByName
    simp only [bind_eq_some_iff, map_eq_some_iff, Prod.mk.injEq, mem_triples]
    constructor
    · rintro ⟨v, hv, ⟨m, y⟩, hy, rfl, rfl⟩
      obtain ⟨z, hz⟩ := (h n v).mp hv
      -- the item found under the UUID is the one that has the name
      have hpair : (m, y) = (n, z) := Option.some.inj (hy.symm.trans hz)
      rw [show t.getByUuid v = some (m, y) from hy, (Prod.mk.inj hpair).1]
    · intro hx
      exact ⟨u, h.lookup_of_get hx, (n, x), hx, rfl, rfl⟩

theorem Consistent.unique (h : t.Consistent) : Unique t.triples := by
  rintro ⟨n, u, x⟩ hp ⟨m, v, y⟩ hq hsame
  have huv : u = v := by
    rcases hsame with hname | huuid
    · have hnm : n = m := hname
      subst hnm
      exact h.uuid_unique hp hq
    · exact huuid
  subst huv
  have hpair : (n, x) = (m, y) := Option.some.inj (hp.symm.trans hq)
  cases hpair
  rfl

theorem triples_default : (default : Table U T).triples = ∅ := by
  ext ⟨n, u, x⟩
  simp [mem_triples, default, getByUuid]

/-! ### Requests -/

theorem Removed.triples_eq (hr : Removed t t' name uuid) {C : String × U × T → Prop}
    (hC : ∀ p ∈ t.triples, C p ↔ p.2.1 = uuid) :
    t'.triples = {p | p ∈ t.triples ∧ ¬C p} := by
  ext ⟨n, u, x⟩
  rw [Set.mem_ofPred_eq, mem_triples]
  by_cases hv : u = uuid
  · subst hv
    rw [hr.gone]
    refine iff_of_false (by simp) ?_
    rintro ⟨hmem, hnot⟩
    exact hnot ((hC _ hmem).2 rfl)
  · rw [hr.others u hv, ← mem_triples]
    refine ⟨fun hmem => ⟨hmem, ?_⟩, And.left⟩
    rw [hC _ hmem]
    exact hv

theorem Inserted.triples_eq (hi : Inserted t t' name uuid item) :
    t'.triples = (Op.insert name uuid item).apply t.triples := by
  ext ⟨n, u, x⟩
  simp only [Op.apply, Op.added, Op.Concerns, Set.mem_union, Set.mem_ofPred_eq,
    Set.mem_singleton_iff, mem_triples, Prod.mk.injEq]
  by_cases hv : u = uuid
  · subst hv
    rw [hi.found]
    simp [eq_comm]
  · rw [hi.others u hv]
    split_ifs with hname
    · refine iff_of_false (by simp) ?_
      rintro (⟨hmem, hnot⟩ | ⟨-, heq, -⟩)
      · rw [hmem] at hname
        exact hnot (Or.inl (Option.some.inj hname))
      · exact hv heq
    · refine ⟨fun hmem => Or.inl ⟨hmem, ?_⟩, ?_⟩
      · rintro (hn | hu)
        · exact hname (by rw [hmem, ← hn]; rfl)
        · exact hv hu
      · rintro (⟨hmem, -⟩ | ⟨-, heq, -⟩)
        · exact hmem
        · exact absurd heq hv

theorem Consistent.perform_removeByName (h : t.Consistent) (name : String) :
    ∃ t' a, t.perform (.removeByName name) = (.ok (t', a) : Outcome ε _) ∧
      (Op.removeByName name).Answered t.triples a ∧ t'.Consistent ∧
      t'.triples = (Op.removeByName name).apply t.triples := by
  refine ⟨_, _, rfl, ?_⟩
  simp only [Op.Answered, Op.apply, Op.added, Set.union_empty]
  cases hn : t.nameToUuid.lookup name with
  | none =>
    have hnone : ∀ u x, (name, u, x) ∉ t.triples := by
      intro u x hmem
      rw [h.lookup_of_get hmem] at hn
      cases hn
    simp only [removeByName, hn]
    refine ⟨fun u x => iff_of_false nofun (hnone u x), h, ?_⟩
    ext ⟨n, u, x⟩
    refine ⟨fun hmem => ⟨hmem, ?_⟩, And.left⟩
    rintro (rfl : n = name)
    exact hnone u x hmem
  | some uuid =>
    obtain ⟨item, hu⟩ := (h name uuid).mp hn
    have hitem : t.items.lookup uuid = some (name, item) := hu
    have hr := removed_erase t name uuid
    simp only [removeByName, hn, hitem, map_some]
    refine ⟨fun u x => ?_, hr.consistent h hu, hr.triples_eq fun p hp => ?_⟩
    · rw [← h.describes.getByName, Table.getByName, hn, bind_some, hitem, map_some]
    · obtain ⟨n, u, x⟩ := p
      constructor
      · rintro (rfl : n = name)
        exact h.uuid_unique hp hu
      · rintro (rfl : u = uuid)
        exact (Prod.mk.inj (Option.some.inj (hp.symm.trans hu))).1

theorem Consistent.perform_removeByUuid (h : t.Consistent) (uuid : U) :
    ∃ t' a, t.perform (.removeByUuid uuid) = (.ok (t', a) : Outcome ε _) ∧
      (Op.removeByUuid uuid).Answered t.triples a ∧ t'.Consistent ∧
      t'.triples = (Op.removeByUuid uuid).apply t.triples := by
  refine ⟨_, _, rfl, ?_⟩
  simp only [Op.Answered, Op.apply, Op.added, Set.union_empty]
  cases hu : t.getByUuid uuid with
  | none =>
    have hnone : ∀ n x, (n, uuid, x) ∉ t.triples := by
      intro n x hmem
      rw [mem_triples.1 hmem] at hu
      cases hu
    have hremove : t.removeByUuid uuid = (t, none) := by
      unfold getByUuid at hu
      simp only [removeByUuid, hu]
    rw [hremove]
    refine ⟨fun n x => iff_of_false (by simp) (hnone n x), h, ?_⟩
    ext ⟨n, u, x⟩
    refine ⟨fun hmem => ⟨hmem, ?_⟩, And.left⟩
    rintro (rfl : u = uuid)
    exact hnone n x hmem
  | some p =>
    obtain ⟨name, item⟩ := p
    have hr := removed_erase t name uuid
    rw [removeByUuid_of_get hu]
    refine ⟨fun n x => ?_, hr.consistent h hu, hr.triples_eq fun p hp => Iff.rfl⟩
    rw [mem_triples, hu]

/-! What an insertion returns: the triple with the name, then the one with the UUID if that has
another name. -/

def displacedByName (t : Table U T) (name : String) : List (String × U × T) :=
  ((t.getByName name).map fun q => (name, q.1, q.2)).toList

def displacedByUuid (t : Table U T) (name : String) (uuid : U) : List (String × U × T) :=
  (((t.getByUuid uuid).filter fun q => q.1 ≠ name).map fun q => (q.1, uuid, q.2)).toList

theorem Consistent.insert_displaced (h : t.Consistent)
    {displaced : Option (List (String × U × T))}
    (hinsert : t.insert name uuid item = (.ok (t', displaced) : Outcome ε _)) :
    displaced ≠ some [] ∧
      displaced.getD [] = t.displacedByName name ++ t.displacedByUuid name uuid := by
  unfold displacedByName displacedByUuid Table.getByName Table.getByUuid
  cases hn : t.nameToUuid.lookup name with
  | none =>
    cases hu : t.items.lookup uuid with
    | none =>
      rw [insert_of_unused item hn hu] at hinsert
      cases hinsert
      simp
    | some old =>
      obtain ⟨hne, heq⟩ := h.insert_of_uuid (ε := ε) item hn hu
      rw [heq] at hinsert
      cases hinsert
      simp [Option.filter, hne]
  | some oldUuid =>
    cases hu : t.items.lookup uuid with
    | none =>
      obtain ⟨other, hother, -, heq⟩ := h.insert_of_name (ε := ε) item hn hu
      rw [heq] at hinsert
      cases hinsert
      simp [hother]
    | some old =>
      by_cases hsame : oldUuid = uuid
      · subst hsame
        obtain ⟨other, hother, heq⟩ := h.insert_of_same (ε := ε) item hn
        rw [heq] at hinsert
        cases hinsert
        cases hu.symm.trans hother
        simp [Option.filter, hu]
      · obtain ⟨other, hother, hne, heq⟩ := h.insert_of_two (ε := ε) item hn hu hsame
        rw [heq] at hinsert
        cases hinsert
        simp [Option.filter, hother, hne]

theorem Consistent.mem_displacedByName (h : t.Consistent) {p : String × U × T} :
    p ∈ t.displacedByName name ↔ p ∈ t.triples ∧ p.1 = name := by
  obtain ⟨n, u, x⟩ := p
  simp only [displacedByName, mem_toList, map_eq_some_iff]
  constructor
  · rintro ⟨⟨v, y⟩, hq, heq⟩
    cases heq
    exact ⟨(h.describes.getByName _ _ _).1 hq, rfl⟩
  · rintro ⟨hp, rfl : n = name⟩
    exact ⟨(u, x), (h.describes.getByName _ _ _).2 hp, rfl⟩

theorem mem_displacedByUuid {p : String × U × T} :
    p ∈ t.displacedByUuid name uuid ↔ p ∈ t.triples ∧ p.2.1 = uuid ∧ p.1 ≠ name := by
  obtain ⟨n, u, x⟩ := p
  simp only [displacedByUuid, mem_toList, map_eq_some_iff,
    filter_eq_some_iff, decide_eq_true_eq]
  constructor
  · rintro ⟨⟨m, y⟩, ⟨hq, hne⟩, heq⟩
    cases heq
    exact ⟨hq, rfl, hne⟩
  · rintro ⟨hp, rfl : u = uuid, hne⟩
    exact ⟨(n, x), ⟨hp, hne⟩, rfl⟩

theorem Consistent.answered_insert (h : t.Consistent)
    {displaced : Option (List (String × U × T))}
    (hinsert : t.insert name uuid item = (.ok (t', displaced) : Outcome ε _)) :
    (Op.insert name uuid item).Answered t.triples (.displaced displaced) := by
  obtain ⟨hne, hlist⟩ := h.insert_displaced hinsert
  have hnodup : ∀ o : Option (String × U × T), o.toList.Nodup := by
    rintro (_ | p) <;> simp
  refine ⟨hne, ?_, fun p => ?_, fun p hp hname => ?_⟩
  · rw [hlist, List.nodup_append]
    refine ⟨hnodup _, hnodup _, fun p hp q hq hpq => ?_⟩
    exact (mem_displacedByUuid.1 hq).2.2 (hpq ▸ (h.mem_displacedByName.1 hp).2)
  · rw [hlist, List.mem_append, h.mem_displacedByName, mem_displacedByUuid, Op.Concerns]
    by_cases hname : p.1 = name
    · simp [hname]
    · simp [hname]
  · have hfirst : p ∈ t.displacedByName name := h.mem_displacedByName.2 ⟨hp, hname⟩
    have hsingle : t.displacedByName name = [p] := by
      unfold displacedByName at hfirst ⊢
      rw [mem_toList] at hfirst
      rw [mem_def.1 hfirst]
      rfl
    rw [hlist, hsingle]
    rfl

theorem Consistent.perform_insert (h : t.Consistent) (name : String) (uuid : U) (item : T) :
    ∃ t' a, t.perform (.insert name uuid item) = (.ok (t', a) : Outcome ε _) ∧
      (Op.insert name uuid item).Answered t.triples a ∧ t'.Consistent ∧
      t'.triples = (Op.insert name uuid item).apply t.triples := by
  obtain ⟨t', displaced, hinsert, hi⟩ := h.insert_ok (ε := ε) name uuid item
  refine ⟨t', .displaced displaced, ?_, h.answered_insert hinsert, hi.consistent h, hi.triples_eq⟩
  rw [perform, hinsert]
  rfl

/-! ### Runs -/

theorem Consistent.perform_ok (h : t.Consistent) (op : Op U T) :
    ∃ t' a, t.perform op = (.ok (t', a) : Outcome ε _) ∧ op.Answered t.triples a ∧ t'.Consistent ∧
      t'.triples = op.apply t.triples := by
  cases op with
  | insert name uuid item => exact h.perform_insert name uuid item
  | removeByName name => exact h.perform_removeByName name
  | removeByUuid uuid => exact h.perform_removeByUuid uuid

theorem Consistent.performAll_ok (h : t.Consistent) (ops : List (Op U T)) :
    ∃ t' answers, t.performAll ops = (.ok (t', answers) : Outcome ε _) ∧ t'.Consistent ∧
      t'.triples = ops.foldl (fun S op => op.apply S) t.triples := by
  induction ops generalizing t with
  | nil => exact ⟨t, [], rfl, h, rfl⟩
  | cons op ops ih =>
    obtain ⟨t₁, a, hop, -, h₁, heq₁⟩ := h.perform_ok (ε := ε) op
    obtain ⟨t₂, answers, hops, h₂, heq₂⟩ := ih h₁
    refine ⟨t₂, a :: answers, ?_, h₂, ?_⟩
    · simp only [performAll, hop, Outcome.ok_bind, hops]
    · rw [heq₂, heq₁]
      rfl

/-- After any requests to a new table both maps describe one set of triples without a name or UUID
standing twice; and the next request is served, returns exactly the triples of the set that it
concerns, and removes only those. -/
theorem performAll_two_views (ops : List (Op U T)) :
    ∃ t answers S, (default : Table U T).performAll ops = (.ok (t, answers) : Outcome ε _) ∧
      S = ops.foldl (fun S op => op.apply S) ∅ ∧ t.Describes S ∧ Unique S ∧
      ∀ op, ∃ t' a, t.perform op = (.ok (t', a) : Outcome ε _) ∧ op.Answered S a ∧
        t'.Describes (op.apply S) := by
  obtain ⟨t, answers, hops, ht, hS⟩ :=
    (consistent_default (U := U) (T := T)).performAll_ok (ε := ε) ops
  refine ⟨t, answers, t.triples, hops, by rw [hS, triples_default], ht.describes, ht.unique,
    fun op => ?_⟩
  obtain ⟨t', a, hop, ha, ht', heq⟩ := ht.perform_ok (ε := ε) op
  exact ⟨t', a, hop, ha, heq ▸ ht'.describes⟩

end Table

end Stratisd.Engine
