import Stratisd.Backstore.BackstoreSpec

/-! Initialization of a cache that fails. The linear device is taken out of the backstore before
the cache device is made, and not put back. -/

namespace Stratisd.Backstore

open Run Run.Stateful Engine Metadata

namespace Backstore

variable {b b' : Backstore} {io : InitCacheIo} {paths : List String} {e : StratisError}

/-- There is nothing to make a cache from: no path, no device prepared for the pool, or more
space than a cache may have. -/
def FailsEarly (io : InitCacheIo) (paths : List String) : Prop :=
  paths = [] ∨ ∀ new, io.prepared = .ok new →
    CacheTier.maxCacheSize < BlockDevMgr.availSpace ⟨new, none⟩ - CacheTier.metaSpace

theorem initCache_eq_err (h : initCache io paths b = (b', .err e)) :
    b.cacheTier = none ∧
      ((FailsEarly io paths ∧ b' = b) ∨
        (¬ FailsEarly io paths ∧ b' = { b with linear := none })) := by
  unfold initCache at h
  rw [get_bind] at h
  cases hct : b.cacheTier with
  | some t =>
    rw [hct] at h
    cases h
  | none =>
    rw [hct] at h
    simp only at h
    refine ⟨rfl, ?_⟩
    split_ifs at h with hp
    · exact Or.inl ⟨Or.inl hp, (Prod.mk.inj h).1.symm⟩
    · rcases bind_eq_err.mp h with h | ⟨b₁, bdm, h1, h⟩
      · obtain ⟨rfl, hbdm⟩ := Prod.mk.inj h
        refine Or.inl ⟨Or.inr fun new hnew => ?_, rfl⟩
        rw [hnew] at hbdm
        cases hbdm
      obtain ⟨rfl, hbdm⟩ := Prod.mk.inj h1
      obtain ⟨new, hnew, hmgr⟩ := Outcome.bind_eq_ok.mp hbdm
      obtain rfl := Outcome.ok.inj hmgr
      rcases bind_eq_err.mp h with h | ⟨b₂, t, h2, h⟩
      · obtain ⟨rfl, ht⟩ := Prod.mk.inj h
        refine Or.inl ⟨Or.inr fun new' hnew' => ?_, rfl⟩
        obtain rfl := Outcome.ok.inj (hnew.symm.trans hnew')
        exact CacheTier.new_eq_err ht
      obtain ⟨rfl, ht⟩ := Prod.mk.inj h2
      have hlate : ¬ FailsEarly io paths := by
        rintro (hnil | hlarge)
        · exact hp hnil
        · exact absurd (CacheTier.new_eq_ok ht).2.1 (not_le.mpr (hlarge new hnew))
      rcases bind_eq_err.mp h with h | ⟨b₃, linear, h3, h⟩
      · cases hl : b.linear <;> simp [hl] at h
      obtain ⟨rfl, -⟩ := Prod.mk.inj h3
      rw [modify_bind] at h
      rcases bind_eq_err.mp h with h | ⟨b₄, cache, -, h⟩
      · exact Or.inr ⟨hlate, by rw [← (Prod.mk.inj h).1, hct]⟩
      · cases h

end Backstore

end Stratisd.Backstore
