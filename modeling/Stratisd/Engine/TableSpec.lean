import Stratisd.Engine.Table

/-! The two maps of a table describe the same items. What an operation does is stated by what is
then found under each UUID and under each name. -/

namespace Stratisd.Engine

open Run Run.Outcome AList Option List

namespace Table

variable {U T ε : Type} [DecidableEq U] {t t' : Table U T} {name : String} {uuid : U} {item : T}

/-- A name leads to a UUID exactly if the item with that UUID has the name. -/
def Consistent (t : Table U T) : Prop :=
  ∀ name uuid, t.nameToUuid.lookup name = some uuid ↔
    ∃ item, t.getByUuid uuid = some (name, item)

theorem consistent_default : (default : Table U T).Consistent := by
  intro name uuid
  simp [default, getByUuid]

theorem Consistent.uuid_unique (h : t.Consistent) {u v : U} {x y : T}
    (hu : t.getByUuid u = some (name, x)) (hv : t.getByUuid v = some (name, y)) : u = v := by
  have hu' := (h name u).mpr ⟨x, hu⟩
  rw [(h name v).mpr ⟨y, hv⟩] at hu'
  exact (some.inj hu').symm

theorem Consistent.lookup_of_get (h : t.Consistent) (hu : t.getByUuid uuid = some (name, item)) :
    t.nameToUuid.lookup name = some uuid :=
  (h name uuid).mpr ⟨item, hu⟩

theorem Consistent.getByName_isSome (h : t.Consistent) (name : String) :
    (t.getByName name).isSome = t.containsName name := by
  unfold getByName containsName
  cases hl : t.nameToUuid.lookup name with
  | none => rfl
  | some uuid =>
    obtain ⟨item, hi⟩ := (h name uuid).mp hl
    unfold getByUuid at hi
    simp [hi]

/-! ### Removing an item -/

theorem removeByUuid_of_get (h : t.getByUuid uuid = some (name, item)) :
    t.removeByUuid uuid = (⟨t.nameToUuid.erase name, t.items.erase uuid⟩, some (name, item)) := by
  unfold getByUuid at h
  simp only [removeByUuid, h]

/-- What is found after an item has been taken out. -/
structure Removed (t t' : Table U T) (name : String) (uuid : U) : Prop where
  gone : t'.getByUuid uuid = none
  others : ∀ v, v ≠ uuid → t'.getByUuid v = t.getByUuid v
  name_gone : t'.nameToUuid.lookup name = none
  other_names : ∀ n, n ≠ name → t'.nameToUuid.lookup n = t.nameToUuid.lookup n

theorem removed_erase (t : Table U T) (name : String) (uuid : U) :
    Removed t ⟨t.nameToUuid.erase name, t.items.erase uuid⟩ name uuid where
  gone := lookup_erase _ _
  others _ hv := lookup_erase_ne hv
  name_gone := lookup_erase _ _
  other_names _ hn := lookup_erase_ne hn

theorem Removed.consistent (hr : Removed t t' name uuid) (h : t.Consistent)
    (hu : t.getByUuid uuid = some (name, item)) : t'.Consistent := by
  intro n v
  by_cases hn : n = name
  · subst hn
    rw [hr.name_gone]
    refine iff_of_false (by simp) ?_
    rintro ⟨x, hx⟩
    by_cases hv : v = uuid
    · rw [hv, hr.gone] at hx
      cases hx
    · rw [hr.others v hv] at hx
      exact hv (h.uuid_unique hx hu)
  · rw [hr.other_names n hn]
    by_cases hv : v = uuid
    · subst hv
      rw [hr.gone, h n v, hu]
      simp [Ne.symm hn]
    · rw [hr.others v hv, h n v]

/-! ### Inserting an item -/

/-- What is found after an item has been put in: what had its name or its UUID is gone. -/
structure Inserted (t t' : Table U T) (name : String) (uuid : U) (item : T) : Prop where
  found : t'.getByUuid uuid = some (name, item)
  others : ∀ v, v ≠ uuid → t'.getByUuid v =
    if (t.getByUuid v).map (·.1) = some name then none else t.getByUuid v
  found_name : t'.nameToUuid.lookup name = some uuid
  other_names : ∀ n, n ≠ name → t'.nameToUuid.lookup n =
    if t.nameToUuid.lookup n = some uuid then none else t.nameToUuid.lookup n

theorem Inserted.consistent (hi : Inserted t t' name uuid item) (h : t.Consistent) :
    t'.Consistent := by
  intro n v
  by_cases hn : n = name
  · subst hn
    rw [hi.found_name]
    by_cases hv : v = uuid
    · subst hv
      exact iff_of_true rfl ⟨item, hi.found⟩
    · refine iff_of_false (by simpa using Ne.symm hv) ?_
      rintro ⟨x, hx⟩
      rw [hi.others v hv] at hx
      split_ifs at hx with hname
      rw [hx] at hname
      exact hname rfl
  · rw [hi.other_names n hn]
    by_cases hv : v = uuid
    · subst hv
      rw [hi.found]
      refine iff_of_false ?_ (by simp [Ne.symm hn])
      split_ifs with hl
      · simp
      · exact hl
    · rw [hi.others v hv]
      constructor
      · intro hl
        split_ifs at hl with hu
        obtain ⟨x, hx⟩ := (h n v).mp hl
        refine ⟨x, ?_⟩
        rw [if_neg (by rw [hx]; simpa using hn), hx]
      · rintro ⟨x, hx⟩
        split_ifs at hx with hname
        have hl := h.lookup_of_get hx
        rw [hl, if_neg (by simpa using hv)]

theorem Consistent.lookup_eq_some_iff (h : t.Consistent) {v : U} :
    t.nameToUuid.lookup name = some v ↔ (t.getByUuid v).map (·.1) = some name := by
  rw [h name v, map_eq_some_iff]
  constructor
  · rintro ⟨x, hx⟩
    exact ⟨_, hx, rfl⟩
  · rintro ⟨⟨n, x⟩, hx, rfl⟩
    exact ⟨x, hx⟩

/-- The item that had the name and the name that the item with the UUID had are gone. -/
theorem Consistent.inserted_of_lookups (h : t.Consistent) {names : AList fun _ : String => U}
    {items : AList fun _ : U => String × T}
    (hfound : items.lookup uuid = some (name, item))
    (hothers : ∀ v, v ≠ uuid → items.lookup v =
      if t.nameToUuid.lookup name = some v then none else t.items.lookup v)
    (hname : names.lookup name = some uuid)
    (hnames : ∀ n, n ≠ name → names.lookup n =
      if (t.items.lookup uuid).map (·.1) = some n then none else t.nameToUuid.lookup n) :
    Inserted t ⟨names, items⟩ name uuid item where
  found := hfound
  others := by
    intro v hv
    exact (hothers v hv).trans (if_congr h.lookup_eq_some_iff rfl rfl)
  found_name := hname
  other_names := by
    intro n hn
    exact (hnames n hn).trans (if_congr h.lookup_eq_some_iff.symm rfl rfl)

theorem lookup_erase_insert {α β : Type} [DecidableEq α] {s : AList fun _ : α => β} {a v : α}
    (hv : v ≠ a) (b : β) (c : α) : ((s.insert a b).erase c).lookup v =
      if some c = some v then none else s.lookup v := by
  by_cases hc : c = v
  · rw [if_pos (congrArg some hc), hc, lookup_erase]
  · rw [if_neg (by simpa using hc), lookup_erase_ne (Ne.symm hc), lookup_insert_ne hv]

/-! What is displaced, by which of the name and the UUID are in use. -/

section Displaced

variable {oldName : String} {oldUuid : U} {oldItem : T} (item)

theorem insert_of_unused (hn : t.nameToUuid.lookup name = none)
    (hu : t.items.lookup uuid = none) :
    t.insert name uuid item =
      (.ok (⟨t.nameToUuid.insert name uuid, t.items.insert uuid (name, item)⟩, none) :
        Outcome ε _) := by
  simp only [insert, hn, hu]

theorem Consistent.insert_of_uuid (h : t.Consistent) (hn : t.nameToUuid.lookup name = none)
    (hu : t.items.lookup uuid = some (oldName, oldItem)) :
    oldName ≠ name ∧ t.insert name uuid item =
      (.ok (⟨(t.nameToUuid.insert name uuid).erase oldName, t.items.insert uuid (name, item)⟩,
        some [(oldName, uuid, oldItem)]) : Outcome ε _) := by
  have hold : t.nameToUuid.lookup oldName = some uuid := h.lookup_of_get hu
  have hne : oldName ≠ name := by
    rintro rfl
    rw [hn] at hold
    cases hold
  refine ⟨hne, ?_⟩
  simp only [insert, hn, hu, lookup_insert_ne hne, hold, expect_some,
    ok_bind, if_true]

/-- The item with the name has another UUID. -/
theorem Consistent.insert_of_name (h : t.Consistent)
    (hn : t.nameToUuid.lookup name = some oldUuid) (hu : t.items.lookup uuid = none) :
    ∃ otherItem, t.items.lookup oldUuid = some (name, otherItem) ∧ oldUuid ≠ uuid ∧
      t.insert name uuid item =
        (.ok (⟨t.nameToUuid.insert name uuid, (t.items.insert uuid (name, item)).erase oldUuid⟩,
          some [(name, oldUuid, otherItem)]) : Outcome ε _) := by
  obtain ⟨other, hother⟩ := (h name oldUuid).mp hn
  unfold getByUuid at hother
  have hne : oldUuid ≠ uuid := by
    rintro rfl
    rw [hother] at hu
    cases hu
  refine ⟨other, hother, hne, ?_⟩
  simp only [insert, hn, hu, lookup_insert_ne hne, hother, expect_some,
    ok_bind, if_true]

theorem Consistent.insert_of_same (h : t.Consistent)
    (hn : t.nameToUuid.lookup name = some uuid) :
    ∃ oldItem, t.items.lookup uuid = some (name, oldItem) ∧
      t.insert name uuid item =
        (.ok (⟨t.nameToUuid.insert name uuid, t.items.insert uuid (name, item)⟩,
          some [(name, uuid, oldItem)]) : Outcome ε _) := by
  obtain ⟨old, hold⟩ := (h name uuid).mp hn
  unfold getByUuid at hold
  exact ⟨old, hold, by simp only [insert, hn, hold, if_true]⟩

/-- One item has the name and another one the UUID. -/
theorem Consistent.insert_of_two (h : t.Consistent)
    (hn : t.nameToUuid.lookup name = some oldUuid)
    (hu : t.items.lookup uuid = some (oldName, oldItem)) (hne : oldUuid ≠ uuid) :
    ∃ otherItem, t.items.lookup oldUuid = some (name, otherItem) ∧ oldName ≠ name ∧
      t.insert name uuid item =
        (.ok (⟨(t.nameToUuid.insert name uuid).erase oldName,
          (t.items.insert uuid (name, item)).erase oldUuid⟩,
          some [(name, oldUuid, otherItem), (oldName, uuid, oldItem)]) : Outcome ε _) := by
  obtain ⟨other, hother⟩ := (h name oldUuid).mp hn
  unfold getByUuid at hother
  have hold : t.nameToUuid.lookup oldName = some uuid := h.lookup_of_get hu
  have hname : oldName ≠ name := by
    rintro rfl
    rw [hn] at hold
    exact hne (some.inj hold)
  refine ⟨other, hother, hname, ?_⟩
  simp only [insert, hn, hu, hne, hname, if_false, lookup_insert_ne hname,
    lookup_insert_ne hne, hold, hother, expect_some, ok_bind, and_self,
    if_true]

end Displaced

theorem Consistent.insert_ok (h : t.Consistent) (name : String) (uuid : U) (item : T) :
    ∃ t' displaced, t.insert name uuid item = (.ok (t', displaced) : Outcome ε _) ∧
      Inserted t t' name uuid item := by
  cases hn : t.nameToUuid.lookup name with
  | none =>
    cases hu : t.items.lookup uuid with
    | none =>
      refine ⟨_, _, insert_of_unused item hn hu, h.inserted_of_lookups (by simp) ?_ (by simp) ?_⟩
      · intro v hv
        simp [hn, lookup_insert_ne hv]
      · intro n hne
        simp [hu, lookup_insert_ne hne]
    | some old =>
      obtain ⟨hne, heq⟩ := h.insert_of_uuid (ε := ε) item hn hu
      refine ⟨_, _, heq, h.inserted_of_lookups (by simp) ?_ ?_ ?_⟩
      · intro v hv
        simp [hn, lookup_insert_ne hv]
      · rw [lookup_erase_ne hne.symm, lookup_insert]
      · intro n hnn
        rw [hu, lookup_erase_insert hnn, map_some]
  | some oldUuid =>
    cases hu : t.items.lookup uuid with
    | none =>
      obtain ⟨other, -, hne, heq⟩ := h.insert_of_name (ε := ε) item hn hu
      refine ⟨_, _, heq, h.inserted_of_lookups ?_ ?_ (by simp) ?_⟩
      · rw [lookup_erase_ne hne.symm, lookup_insert]
      · intro v hv
        rw [hn, lookup_erase_insert hv]
      · intro n hnn
        simp [hu, lookup_insert_ne hnn]
    | some old =>
      by_cases hsame : oldUuid = uuid
      · subst hsame
        obtain ⟨other, hother, heq⟩ := h.insert_of_same (ε := ε) item hn
        refine ⟨_, _, heq, h.inserted_of_lookups (by simp) ?_ (by simp) ?_⟩
        · intro v hv
          simp [hn, lookup_insert_ne hv, Ne.symm hv]
        · intro n hnn
          simp [hother, lookup_insert_ne hnn, Ne.symm hnn]
      · obtain ⟨other, -, hne, heq⟩ := h.insert_of_two (ε := ε) item hn hu hsame
        refine ⟨_, _, heq, h.inserted_of_lookups ?_ ?_ ?_ ?_⟩
        · rw [lookup_erase_ne (Ne.symm hsame), lookup_insert]
        · intro v hv
          rw [hn, lookup_erase_insert hv]
        · rw [lookup_erase_ne hne.symm, lookup_insert]
        · intro n hnn
          rw [hu, lookup_erase_insert hnn, map_some]

theorem Inserted.of_fresh (hi : Inserted t t' name uuid item) (h : t.Consistent)
    (hname : t.containsName name = false) (hu : t.getByUuid uuid = none) :
    (∀ v, v ≠ uuid → t'.getByUuid v = t.getByUuid v) ∧
      ∀ n, n ≠ name → t'.nameToUuid.lookup n = t.nameToUuid.lookup n := by
  have hnone : t.nameToUuid.lookup name = none := by simpa [containsName] using hname
  constructor
  · intro v hv
    rw [hi.others v hv, if_neg]
    rw [← h.lookup_eq_some_iff, hnone]
    simp
  · intro n hn
    rw [hi.other_names n hn, if_neg]
    rw [h.lookup_eq_some_iff, hu]
    simp

theorem Consistent.insert_fresh (h : t.Consistent) (hname : t.containsName name = false)
    (hu : t.getByUuid uuid = none) (item : T) :
    ∃ t', t.insert name uuid item = (.ok (t', none) : Outcome ε _) ∧
      Inserted t t' name uuid item := by
  obtain ⟨t', displaced, heq, hi⟩ := h.insert_ok (ε := ε) name uuid item
  have hnone : t.nameToUuid.lookup name = none := by simpa [containsName] using hname
  have hdisplaced : displaced = none := by
    rw [insert, hnone, show t.items.lookup uuid = none from hu] at heq
    exact (Prod.mk.inj (ok.inj heq)).2.symm
  exact ⟨t', hdisplaced ▸ heq, hi⟩

/-- The same is found under each UUID and under each name. -/
structure Same (t t' : Table U T) : Prop where
  items : ∀ v, t'.getByUuid v = t.getByUuid v
  names : ∀ n, t'.nameToUuid.lookup n = t.nameToUuid.lookup n

theorem Same.refl (t : Table U T) : Same t t := ⟨fun _ => rfl, fun _ => rfl⟩

theorem Same.consistent (hs : Same t t') (h : t.Consistent) : t'.Consistent := by
  intro n v
  rw [hs.names, hs.items]
  exact h n v

theorem Removed.containsName (hr : Removed t t' name uuid) : t'.containsName name = false := by
  rw [Table.containsName, hr.name_gone]
  rfl

/-- An item that has been taken out can take another name that is not in use. -/
theorem Removed.insert {t₁ : Table U T} {newName : String} (hr : Removed t t₁ name uuid)
    (h : t.Consistent) (hu : t.getByUuid uuid = some (name, item))
    (hnew : newName = name ∨ t.containsName newName = false) :
    ∃ t' displaced, t₁.insert newName uuid item = (.ok (t', displaced) : Outcome ε _) ∧
      Inserted t₁ t' newName uuid item ∧ t'.Consistent ∧
      ∀ v, v ≠ uuid → t'.getByUuid v = t.getByUuid v := by
  have h₁ := hr.consistent h hu
  have hfresh : t₁.containsName newName = false := by
    rcases hnew with rfl | hnew
    · exact hr.containsName
    · by_cases hn : newName = name
      · rw [hn]
        exact hr.containsName
      · rw [Table.containsName, hr.other_names newName hn]
        exact hnew
  obtain ⟨t', displaced, heq, hi⟩ := h₁.insert_ok (ε := ε) newName uuid item
  refine ⟨t', displaced, heq, hi, hi.consistent h₁, fun v hv => ?_⟩
  rw [(hi.of_fresh h₁ hfresh hr.gone).1 v hv, hr.others v hv]

theorem Removed.putBack {t₁ : Table U T} (hr : Removed t t₁ name uuid) (h : t.Consistent)
    (hu : t.getByUuid uuid = some (name, item)) :
    ∃ t' displaced, t₁.insert name uuid item = (.ok (t', displaced) : Outcome ε _) ∧ Same t t' := by
  obtain ⟨t', displaced, heq, hi, -, hothers⟩ := hr.insert (ε := ε) h hu (Or.inl rfl)
  refine ⟨t', displaced, heq, fun v => ?_, fun n => ?_⟩
  · by_cases hv : v = uuid
    · rw [hv, hi.found, hu]
    · exact hothers v hv
  · by_cases hn : n = name
    · rw [hn, hi.found_name, h.lookup_of_get hu]
    · rw [(hi.of_fresh (hr.consistent h hu) hr.containsName hr.gone).2 n hn, hr.other_names n hn]

theorem lookups_of_insert_none {ε : Type}
    (h : (t.insert name uuid item : Outcome ε _) = .ok (t', none)) :
    t.nameToUuid.lookup name = none ∧ t.items.lookup uuid = none ∧
      t' = ⟨t.nameToUuid.insert name uuid, t.items.insert uuid (name, item)⟩ := by
  unfold insert at h
  split at h
  · split_ifs at h
    · simp at h
    · obtain ⟨_, -, h⟩ := Outcome.bind_eq_ok.mp h
      obtain ⟨_, -, h⟩ := Outcome.bind_eq_ok.mp h
      split_ifs at h
      simp at h
  · obtain ⟨_, -, h⟩ := Outcome.bind_eq_ok.mp h
    split_ifs at h
    simp at h
  · obtain ⟨_, -, h⟩ := Outcome.bind_eq_ok.mp h
    split_ifs at h
    simp at h
  · rename_i hname huuid
    cases h
    exact ⟨hname, huuid, rfl⟩

/-! ### Changing an item in its place -/

theorem dlookup_kreplace {α β : Type} [DecidableEq α] (a v : α) (b : β)
    (l : List (Sigma fun _ : α => β)) :
    (l.kreplace a b).dlookup v = if v = a then (l.dlookup v).map fun _ => b else l.dlookup v := by
  induction l with
  | nil => split_ifs <;> rfl
  | cons e l ih =>
    obtain ⟨k, c⟩ := e
    by_cases hk : a = k
    · subst hk
      have hhere : kreplace a b (⟨a, c⟩ :: l) = ⟨a, b⟩ :: l :=
        lookmap_cons_some _ _ (by simp)
      rw [hhere]
      by_cases hv : v = a
      · subst hv
        simp
      · rw [if_neg hv, dlookup_cons_ne _ _ hv, dlookup_cons_ne _ _ hv]
    · have hthere : kreplace a b (⟨k, c⟩ :: l) = ⟨k, c⟩ :: kreplace a b l :=
        lookmap_cons_none _ _ (by simp [hk])
      rw [hthere]
      by_cases hv : v = k
      · subst hv
        rw [if_neg (Ne.symm hk), dlookup_cons_eq, dlookup_cons_eq]
      · rw [dlookup_cons_ne _ _ hv, dlookup_cons_ne _ _ hv, ih]

theorem getByUuid_setByUuid {old : T} (h : t.getByUuid uuid = some (name, old)) (item : T) (v : U) :
    (t.setByUuid uuid item).getByUuid v =
      if v = uuid then some (name, item) else t.getByUuid v := by
  have hset : t.setByUuid uuid item = { t with items := t.items.replace uuid (name, item) } := by
    unfold getByUuid at h
    simp only [setByUuid, h]
  have hreplace := dlookup_kreplace uuid v (name, item) t.items.entries
  rw [hset]
  refine hreplace.trans ?_
  split_ifs with hv
  · subst hv
    rw [show t.items.entries.dlookup v = some (name, old) from h]
    rfl
  · rfl

theorem nameToUuid_setByUuid (t : Table U T) (uuid : U) (item : T) :
    (t.setByUuid uuid item).nameToUuid = t.nameToUuid := by
  unfold setByUuid
  split <;> rfl

theorem Consistent.setByUuid {old : T} (h : t.Consistent)
    (hu : t.getByUuid uuid = some (name, old)) (item : T) : (t.setByUuid uuid item).Consistent := by
  intro n v
  rw [nameToUuid_setByUuid, h n v, getByUuid_setByUuid hu]
  split_ifs with hv
  · subst hv
    rw [hu]
    simp
  · rfl

/-! ### Two tables -/

/-- Both have the same names and UUIDs, and the items are related. -/
structure Matches {T' : Type} (R : U → T → T' → Prop) (t : Table U T) (t' : Table U T') : Prop where
  left : t.Consistent
  right : t'.Consistent
  items : ∀ uuid, Option.Rel (fun p p' => p.1 = p'.1 ∧ R uuid p.2 p'.2) (t.getByUuid uuid)
    (t'.getByUuid uuid)

namespace Matches

variable {T' : Type} {R R' : U → T → T' → Prop} {s : Table U T} {s' : Table U T'} {item' : T'}

theorem default : Matches R (default : Table U T) (default : Table U T') :=
  ⟨consistent_default, consistent_default, fun _ => .none⟩

variable (h : Matches R s s')

include h

theorem exists_of_get (hu : s.getByUuid uuid = some (name, item)) :
    ∃ item', s'.getByUuid uuid = some (name, item') ∧ R uuid item item' := by
  have hrel := h.items uuid
  rw [hu] at hrel
  cases hu' : s'.getByUuid uuid with
  | none =>
    rw [hu'] at hrel
    cases hrel
  | some p =>
    rw [hu'] at hrel
    cases hrel with
    | some hp =>
      obtain ⟨rfl, hR⟩ := hp
      exact ⟨p.2, rfl, hR⟩

theorem get_eq_none (hu : s.getByUuid uuid = none) : s'.getByUuid uuid = none := by
  have hrel := h.items uuid
  rw [hu] at hrel
  cases hu' : s'.getByUuid uuid with
  | none => rfl
  | some p =>
    rw [hu'] at hrel
    cases hrel

theorem map_fst_get (uuid : U) :
    (s'.getByUuid uuid).map (·.1) = (s.getByUuid uuid).map (·.1) := by
  cases hu : s.getByUuid uuid with
  | none => rw [h.get_eq_none hu]; rfl
  | some p =>
    obtain ⟨item', hu', -⟩ := h.exists_of_get hu
    rw [hu']
    rfl

theorem lookup_eq (name : String) : s'.nameToUuid.lookup name = s.nameToUuid.lookup name := by
  refine ext fun uuid => ?_
  rw [h.right.lookup_eq_some_iff, h.left.lookup_eq_some_iff, h.map_fst_get]

theorem containsName_eq (name : String) : s'.containsName name = s.containsName name := by
  rw [containsName, containsName, h.lookup_eq]

theorem exists_of_getByName (hn : s.getByName name = some (uuid, item)) :
    ∃ item', s'.getByName name = some (uuid, item') ∧ R uuid item item' := by
  obtain ⟨v, hv, hfound⟩ := bind_eq_some_iff.mp hn
  obtain ⟨⟨name', item''⟩, hu, heq⟩ := map_eq_some_iff.mp hfound
  cases heq
  obtain ⟨item', hu', hR⟩ := h.exists_of_get hu
  refine ⟨item', ?_, hR⟩
  have hitem : s'.items.lookup uuid = some (name', item') := hu'
  rw [Table.getByName, h.lookup_eq, hv, bind_some, hitem]
  rfl

theorem getByName_eq_none (hn : s.getByName name = none) : s'.getByName name = none := by
  rw [← not_isSome_iff_eq_none, h.right.getByName_isSome, h.containsName_eq,
    ← h.left.getByName_isSome, hn]
  exact nofun

theorem imp (hR : ∀ uuid p p', s.getByUuid uuid = some p → R uuid p.2 p' → R' uuid p.2 p') :
    Matches R' s s' := by
  refine ⟨h.left, h.right, fun uuid => ?_⟩
  cases hu : s.getByUuid uuid with
  | none =>
    rw [h.get_eq_none hu]
    exact .none
  | some p =>
    obtain ⟨item', hu', hp⟩ := h.exists_of_get hu
    rw [hu']
    exact .some ⟨rfl, hR uuid p item' hu hp⟩

theorem removed {r : Table U T} {r' : Table U T'} (hu : s.getByUuid uuid = some (name, item))
    (hr : Removed s r name uuid) (hr' : Removed s' r' name uuid) : Matches R r r' := by
  obtain ⟨item', hu', -⟩ := h.exists_of_get hu
  refine ⟨hr.consistent h.left hu, hr'.consistent h.right hu', fun v => ?_⟩
  by_cases hv : v = uuid
  · rw [hv, hr.gone, hr'.gone]
    exact .none
  · rw [hr.others v hv, hr'.others v hv]
    exact h.items v

theorem inserted {r : Table U T} {r' : Table U T'} (hi : Inserted s r name uuid item)
    (hi' : Inserted s' r' name uuid item') (hR : R uuid item item') : Matches R r r' := by
  refine ⟨hi.consistent h.left, hi'.consistent h.right, fun v => ?_⟩
  by_cases hv : v = uuid
  · rw [hv, hi.found, hi'.found]
    exact .some ⟨rfl, hR⟩
  · rw [hi.others v hv, hi'.others v hv, h.map_fst_get]
    split_ifs
    · exact .none
    · exact h.items v

theorem set_right {old new : T'} (hu : s'.getByUuid uuid = some (name, old))
    (hR : ∀ item, R uuid item old → R' uuid item new)
    (hothers : ∀ v, v ≠ uuid → ∀ item item', R v item item' → R' v item item') :
    Matches R' s (s'.setByUuid uuid new) := by
  refine ⟨h.left, h.right.setByUuid hu new, fun v => ?_⟩
  rw [getByUuid_setByUuid hu]
  have hrel := h.items v
  by_cases hv : v = uuid
  · subst hv
    rw [if_pos rfl]
    rw [hu] at hrel
    cases hg : s.getByUuid v with
    | none =>
      rw [hg] at hrel
      cases hrel
    | some p =>
      rw [hg] at hrel
      cases hrel with
      | some hp => exact .some ⟨hp.1, hR p.2 hp.2⟩
  · rw [if_neg hv]
    cases hg : s.getByUuid v with
    | none =>
      rw [h.get_eq_none hg]
      exact .none
    | some p =>
      obtain ⟨item', hg', hp⟩ := h.exists_of_get hg
      rw [hg']
      exact .some ⟨rfl, hothers v hv _ _ hp⟩

end Matches

end Table

end Stratisd.Engine
