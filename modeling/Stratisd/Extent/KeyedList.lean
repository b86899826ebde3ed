import Mathlib.Data.List.Dedup
import Mathlib.Data.List.Sort

/-! Lists read as maps. An element stands under its key, together with its index, and where
a key occurs more than once the last element counts. -/

namespace Stratisd.Extent.KeyedList

variable {α κ : Type*} [DecidableEq κ] (key : α → κ)

/-- The last element under a key, and its index. -/
def lookup (k : κ) : List α → Option (ℕ × α)
  | [] => none
  | a :: as =>
    match lookup k as with
    | some (i, x) => some (i + 1, x)
    | none => if key a = k then some (0, a) else none

/-- The index of the last element under a key that has one. -/
def index (as : List α) (k : κ) : ℕ := ((lookup key k as).map (·.1)).getD 0

variable {key} {k : κ} {as : List α}

theorem isSome_lookup : (lookup key k as).isSome ↔ k ∈ as.map key := by
  induction as with
  | nil => simp [lookup]
  | cons a as ih =>
    rw [lookup, List.map_cons, List.mem_cons, ← ih]
    cases lookup key k as with
    | none => simp [eq_comm (a := k)]
    | some p => simp

theorem mem_of_lookup {i : ℕ} {x : α} (h : lookup key k as = some (i, x)) : x ∈ as ∧ key x = k := by
  induction as generalizing i with
  | nil => simp [lookup] at h
  | cons a as ih =>
    rw [lookup] at h
    split at h
    · rename_i j y hy
      cases h
      exact ⟨List.mem_cons_of_mem a (ih hy).1, (ih hy).2⟩
    · split_ifs at h with hk
      cases h
      exact ⟨List.mem_cons_self, hk⟩

theorem exists_lookup_of_mem (hn : (as.map key).Nodup) {x : α} (hx : x ∈ as) :
    ∃ i, lookup key (key x) as = some (i, x) := by
  obtain ⟨⟨i, y⟩, hy⟩ := Option.isSome_iff_exists.mp
    (isSome_lookup.mpr (List.mem_map_of_mem (f := key) hx))
  obtain ⟨hm, hk⟩ := mem_of_lookup hy
  exact ⟨i, by rw [hy, List.inj_on_of_nodup_map hn hm hx hk]⟩

theorem index_cons_of_mem {a : α} (h : k ∈ as.map key) :
    index key (a :: as) k = index key as k + 1 := by
  obtain ⟨⟨i, x⟩, hx⟩ := Option.isSome_iff_exists.mp (isSome_lookup.mpr h)
  simp [index, lookup, hx]

theorem index_cons_self {a : α} (h : key a ∉ as.map key) : index key (a :: as) (key a) = 0 := by
  have : lookup key (key a) as = none := by
    rw [← Option.not_isSome_iff_eq_none, isSome_lookup]
    exact h
  simp [index, lookup, this]

theorem pairwise_index_dedup (as : List α) :
    (as.map key).dedup.Pairwise fun j k => index key as j < index key as k := by
  induction as with
  | nil => simp
  | cons a as ih =>
    have hshift : (as.map key).dedup.Pairwise fun j k =>
        index key (a :: as) j < index key (a :: as) k := by
      refine ih.imp_of_mem fun hj hk hjk => ?_
      rw [index_cons_of_mem (List.mem_dedup.mp hj), index_cons_of_mem (List.mem_dedup.mp hk)]
      exact Nat.succ_lt_succ hjk
    rw [List.map_cons]
    by_cases h : key a ∈ as.map key
    · rwa [List.dedup_cons_of_mem h]
    · rw [List.dedup_cons_of_notMem h]
      refine List.pairwise_cons.mpr ⟨fun k hk => ?_, hshift⟩
      rw [index_cons_self h, index_cons_of_mem (List.mem_dedup.mp hk)]
      exact Nat.succ_pos _

theorem eq_dedup_of_sorted {ks : List κ} (hn : ks.Nodup) (hm : ∀ k, k ∈ ks ↔ k ∈ as.map key)
    (hs : ks.Pairwise fun j k => index key as j ≤ index key as k) : ks = (as.map key).dedup := by
  have hp : ks.Perm (as.map key).dedup :=
    (List.perm_ext_iff_of_nodup hn (List.nodup_dedup _)).mpr fun k => by
      rw [hm, List.mem_dedup]
  have hd : (as.map key).dedup.Pairwise fun j k => index key as j < index key as k :=
    pairwise_index_dedup as
  -- distinct keys have distinct indices
  have hidx : ((as.map key).dedup.map (index key as)).Nodup :=
    List.pairwise_map.mpr (hd.imp fun h => h.ne)
  refine hp.eq_of_pairwise (fun j k hj hk hjk hkj => ?_) hs (hd.imp fun h => h.le)
  exact List.inj_on_of_nodup_map hidx (hp.subset hj) hk (le_antisymm hjk hkj)

end Stratisd.Extent.KeyedList
