import Mathlib.Data.List.Perm.Basic
import Mathlib.Data.List.Sort

/-! Maps and sets kept in ascending order of their keys, as lists. Iteration over
them is iteration over the list. -/

namespace Stratisd.Extent.OrderedMap

variable {κ ν : Type*} [LinearOrder κ]

def get (k : κ) : List (κ × ν) → Option ν
  | [] => none
  | (a, v) :: m => if k = a then some v else get k m

def insert (k : κ) (v : ν) : List (κ × ν) → List (κ × ν)
  | [] => [(k, v)]
  | (a, w) :: m =>
    if k < a then (k, v) :: (a, w) :: m
    else if k = a then (k, v) :: m
    else (a, w) :: insert k v m

def remove (k : κ) (m : List (κ × ν)) : List (κ × ν) := m.filter fun e => e.1 ≠ k

def Sorted (m : List (κ × ν)) : Prop := m.Pairwise fun a b => a.1 < b.1

def setInsert (k : κ) : List κ → List κ
  | [] => [k]
  | a :: s => if k < a then k :: a :: s else if k = a then a :: s else a :: setInsert k s

/-- The ordered set of the given keys. -/
def keySet (ks : List κ) : List κ := ks.foldl (fun s k => setInsert k s) []

/-! ### Maps split at a key -/

section split

variable {k : κ} {v : ν} {left right : List (κ × ν)}

theorem get_eq_none (h : ∀ e ∈ left, e.1 ≠ k) : get k left = none := by
  induction left with
  | nil => rfl
  | cons e m ih =>
    rw [get, if_neg fun hk => h e (by simp) hk.symm]
    exact ih fun e he => h e (by simp [he])

theorem get_append_of_ne (h : ∀ e ∈ left, e.1 ≠ k) : get k (left ++ right) = get k right := by
  induction left with
  | nil => rfl
  | cons e m ih =>
    rw [List.cons_append, get, if_neg fun hk => h e (by simp) hk.symm]
    exact ih fun e he => h e (by simp [he])

theorem get_split (hl : ∀ e ∈ left, e.1 < k) : get k (left ++ (k, v) :: right) = some v := by
  rw [get_append_of_ne fun e he => (hl e he).ne, get, if_pos rfl]

theorem insert_split (hl : ∀ e ∈ left, e.1 < k) (hr : ∀ e ∈ right, k < e.1) :
    insert k v (left ++ right) = left ++ (k, v) :: right := by
  induction left with
  | nil =>
    cases right with
    | nil => rfl
    | cons e m => rw [List.nil_append, insert, if_pos (hr e (by simp))]; rfl
  | cons e m ih =>
    have he := hl e (by simp)
    rw [List.cons_append, insert, if_neg he.not_gt, if_neg he.ne',
      ih fun e he => hl e (by simp [he])]
    rfl

theorem insert_last (hl : ∀ e ∈ left, e.1 < k) : insert k v left = left ++ [(k, v)] := by
  rw [← insert_split hl (by simp), List.append_nil]

theorem remove_split (hl : ∀ e ∈ left, e.1 < k) (hr : ∀ e ∈ right, k < e.1) :
    remove k (left ++ (k, v) :: right) = left ++ right := by
  have h1 : left.filter (fun e => decide (e.1 ≠ k)) = left :=
    List.filter_eq_self.mpr fun e he => by simpa using (hl e he).ne
  have h2 : right.filter (fun e => decide (e.1 ≠ k)) = right :=
    List.filter_eq_self.mpr fun e he => by simpa using (hr e he).ne'
  rw [remove, List.filter_append, h1, List.filter_cons_of_neg (by simp), h2]

end split

theorem mem_iff_get {m : List (κ × ν)} (h : Sorted m) {k : κ} {v : ν} :
    (k, v) ∈ m ↔ get k m = some v := by
  induction m with
  | nil => simp [get]
  | cons e m ih =>
    obtain ⟨a, w⟩ := e
    rw [Sorted, List.pairwise_cons] at h
    rw [List.mem_cons, get]
    by_cases hk : k = a
    · subst hk
      rw [if_pos rfl]
      constructor
      · rintro (hv | hv)
        · rw [(Prod.mk.inj hv).2]
        · exact absurd (h.1 _ hv) (lt_irrefl k)
      · rintro ⟨rfl⟩
        exact Or.inl rfl
    · rw [if_neg hk, ← ih h.2]
      simp [hk]

/-! ### Sets of keys -/

theorem mem_setInsert {k x : κ} {s : List κ} : x ∈ setInsert k s ↔ x = k ∨ x ∈ s := by
  induction s with
  | nil => simp [setInsert]
  | cons a s ih =>
    rw [setInsert]
    split_ifs with h1 h2
    · simp
    · subst h2; simp
    · simp only [List.mem_cons, ih]; tauto

theorem sorted_setInsert {k : κ} {s : List κ} (h : s.Pairwise (· < ·)) :
    (setInsert k s).Pairwise (· < ·) := by
  induction s with
  | nil => simp [setInsert]
  | cons a s ih =>
    rw [List.pairwise_cons] at h
    rw [setInsert]
    split_ifs with h1 h2
    · refine List.pairwise_cons.mpr ⟨fun x hx => ?_, List.pairwise_cons.mpr h⟩
      rcases List.mem_cons.mp hx with rfl | hx
      · exact h1
      · exact h1.trans (h.1 x hx)
    · exact List.pairwise_cons.mpr h
    · refine List.pairwise_cons.mpr ⟨fun x hx => ?_, ih h.2⟩
      rcases mem_setInsert.mp hx with rfl | hx
      · exact lt_of_le_of_ne (not_lt.mp h1) (Ne.symm h2)
      · exact h.1 x hx

theorem keySet_foldl (ks s : List κ) (h : s.Pairwise (· < ·)) :
    (ks.foldl (fun s k => setInsert k s) s).Pairwise (· < ·) ∧
      ∀ x, x ∈ ks.foldl (fun s k => setInsert k s) s ↔ x ∈ ks ∨ x ∈ s := by
  induction ks generalizing s with
  | nil => exact ⟨h, by simp⟩
  | cons k ks ih =>
    obtain ⟨h1, h2⟩ := ih (setInsert k s) (sorted_setInsert h)
    refine ⟨h1, fun x => ?_⟩
    rw [List.foldl_cons, h2, mem_setInsert, List.mem_cons]
    tauto

theorem nodup_keySet (ks : List κ) : (keySet ks).Nodup :=
  (keySet_foldl ks [] List.Pairwise.nil).1.imp fun h => h.ne

@[simp] theorem mem_keySet {ks : List κ} {x : κ} : x ∈ keySet ks ↔ x ∈ ks := by
  simpa [keySet] using (keySet_foldl ks [] List.Pairwise.nil).2 x

theorem perm_of_keys {m : List (κ × ν)} (h : Sorted m) {ks : List κ} (hn : ks.Nodup)
    (hk : ∀ e ∈ m, e.1 ∈ ks) :
    (ks.flatMap fun k => ((get k m).map fun v => (k, v)).toList).Perm m := by
  have hmem : ∀ e, e ∈ (ks.flatMap fun k => ((get k m).map fun v => (k, v)).toList) ↔ e ∈ m := by
    rintro ⟨k, v⟩
    rw [mem_iff_get h]
    simp only [List.mem_flatMap, Option.mem_toList, Option.map_eq_some_iff, Prod.mk.injEq]
    constructor
    · rintro ⟨a, _, w, hw, rfl, rfl⟩
      exact hw
    · intro hv
      exact ⟨k, hk _ ((mem_iff_get h).mpr hv), v, hv, rfl, rfl⟩
  refine (List.perm_ext_iff_of_nodup ?_ ?_).mpr hmem
  · refine List.nodup_flatMap.mpr ⟨fun k _ => ?_, hn.imp fun {a b} hab => ?_⟩
    · cases get k m <;> simp
    · intro e ha hb
      simp only [Option.mem_toList, Option.map_eq_some_iff] at ha hb
      obtain ⟨_, _, rfl⟩ := ha
      obtain ⟨_, _, hb⟩ := hb
      exact hab (Prod.mk.inj hb).1.symm
  · exact h.imp fun hab he => absurd (congrArg Prod.fst he) hab.ne

end Stratisd.Extent.OrderedMap
