import Mathlib.Order.Interval.Finset.Nat
import Mathlib.Algebra.GroupWithZero.Nat

/-! Ranges of cells, given by start and length, and lists of ranges as sets of cells.
A canonical list has only non-empty ranges, in ascending order, with a gap between any
two neighbours; it is determined by the set of its cells. -/

namespace Stratisd.Extent

/-- Start and length. -/
abbrev Range := ℕ × ℕ

namespace Range

def cells (r : Range) : Finset ℕ := Finset.Ico r.1 (r.1 + r.2)

@[simp] theorem mem_cells {r : Range} {x : ℕ} : x ∈ r.cells ↔ r.1 ≤ x ∧ x < r.1 + r.2 :=
  Finset.mem_Ico

@[simp] theorem card_cells (r : Range) : r.cells.card = r.2 := by
  simp [cells]

theorem cells_eq_empty {r : Range} (h : r.2 = 0) : r.cells = ∅ := by
  simp [cells, h]

theorem disjoint_cells {r q : Range} :
    Disjoint r.cells q.cells ↔ r.2 = 0 ∨ q.2 = 0 ∨ r.1 + r.2 ≤ q.1 ∨ q.1 + q.2 ≤ r.1 := by
  rw [Finset.disjoint_left]
  constructor
  · intro h
    by_contra hn
    have := h (a := max r.1 q.1) (by simp; omega)
    exact this (by simp; omega)
  · intro h x hr hq
    simp only [mem_cells] at hr hq
    omega

end Range

/-- The cells that a list of ranges covers. -/
def cells (rs : List Range) : Finset ℕ := rs.foldr (fun r s => r.cells ∪ s) ∅

def total (rs : List Range) : ℕ := (rs.map Prod.snd).sum

@[simp] theorem cells_nil : cells [] = ∅ := rfl

@[simp] theorem cells_cons (r : Range) (rs : List Range) : cells (r :: rs) = r.cells ∪ cells rs := rfl

@[simp] theorem total_nil : total [] = 0 := rfl

@[simp] theorem total_cons (r : Range) (rs : List Range) : total (r :: rs) = r.2 + total rs := by
  simp [total]

@[simp] theorem total_append (rs qs : List Range) : total (rs ++ qs) = total rs + total qs := by
  simp [total]

variable {rs qs : List Range}

theorem total_le_of_sublist (h : rs.Sublist qs) : total rs ≤ total qs := by
  induction h with
  | slnil => exact le_rfl
  | cons r _ ih =>
    rw [total_cons]
    exact ih.trans (Nat.le_add_left _ _)
  | cons_cons r _ ih =>
    rw [total_cons, total_cons]
    exact Nat.add_le_add_left ih _

theorem total_filter_pos (rs : List Range) : total (rs.filter fun r => 0 < r.2) = total rs := by
  induction rs with
  | nil => rfl
  | cons r rs ih =>
    by_cases hr : 0 < r.2
    · rw [List.filter_cons_of_pos (by simpa using hr), total_cons, total_cons, ih]
    · rw [List.filter_cons_of_neg (by simpa using hr), total_cons, ih]
      omega

theorem mem_cells {x : ℕ} : x ∈ cells rs ↔ ∃ r ∈ rs, x ∈ r.cells := by
  induction rs with
  | nil => simp
  | cons r rs ih => simp only [cells_cons, Finset.mem_union, ih, List.exists_mem_cons_iff]

theorem cells_filter_pos (rs : List Range) : cells (rs.filter fun r => 0 < r.2) = cells rs := by
  ext x
  simp only [mem_cells, List.mem_filter, decide_eq_true_eq, Range.mem_cells]
  constructor
  · rintro ⟨r, ⟨hr, -⟩, hx⟩
    exact ⟨r, hr, hx⟩
  · rintro ⟨r, hr, hx⟩
    exact ⟨r, ⟨hr, by omega⟩, hx⟩

theorem cells_append (rs qs : List Range) : cells (rs ++ qs) = cells rs ∪ cells qs := by
  ext x
  simp only [mem_cells, List.mem_append, Finset.mem_union, or_and_right, exists_or]

theorem cells_perm (h : rs.Perm qs) : cells rs = cells qs := by
  ext x
  simp only [mem_cells, h.mem_iff]

theorem disjoint_cells_left {s : Finset ℕ} :
    Disjoint (cells rs) s ↔ ∀ r ∈ rs, Disjoint r.cells s := by
  induction rs with
  | nil => simp
  | cons r rs ih => simp [Finset.disjoint_union_left, ih]

def Separate (rs : List Range) : Prop := rs.Pairwise fun r q => Disjoint r.cells q.cells

theorem Separate.perm (h : Separate rs) (hp : rs.Perm qs) : Separate qs :=
  hp.pairwise h fun hd => hd.symm

theorem separate_append :
    Separate (rs ++ qs) ↔ Separate rs ∧ Separate qs ∧ Disjoint (cells rs) (cells qs) := by
  rw [Separate, List.pairwise_append, disjoint_cells_left]
  refine and_congr_right fun _ => and_congr_right fun _ => forall₂_congr fun r _ => ?_
  rw [disjoint_comm, disjoint_cells_left]
  exact forall₂_congr fun q _ => disjoint_comm

theorem Separate.card (h : Separate rs) : (cells rs).card = total rs := by
  induction rs with
  | nil => rfl
  | cons r rs ih =>
    rw [Separate, List.pairwise_cons] at h
    have hd : Disjoint r.cells (cells rs) :=
      (disjoint_cells_left.mpr fun q hq => (h.1 q hq).symm).symm
    rw [cells_cons, Finset.card_union_of_disjoint hd, Range.card_cells, ih h.2, total_cons]

theorem cells_subset_range {n : ℕ} :
    cells rs ⊆ Finset.range n ↔ ∀ r ∈ rs, 0 < r.2 → r.1 + r.2 ≤ n := by
  constructor
  · intro h r hr hpos
    have hlast : r.1 + r.2 - 1 ∈ cells rs := mem_cells.mpr ⟨r, hr, Range.mem_cells.mpr (by omega)⟩
    have := Finset.mem_range.mp (h hlast)
    omega
  · intro h x hx
    obtain ⟨r, hr, hx⟩ := mem_cells.mp hx
    rw [Range.mem_cells] at hx
    have := h r hr (by omega)
    exact Finset.mem_range.mpr (by omega)

theorem Separate.cells_eq_range (h : Separate rs) (hsub : cells rs ⊆ Finset.range (total rs)) :
    cells rs = Finset.range (total rs) :=
  Finset.eq_of_subset_of_card_le hsub (by rw [Finset.card_range, h.card])

/-! ### Ranges that continue each other -/

theorem Range.cells_join (s l m : ℕ) :
    Range.cells (s, l) ∪ Range.cells (s + l, m) = Range.cells (s, l + m) := by
  ext x
  simp only [Finset.mem_union, Range.mem_cells]
  omega

theorem cells_join (rs qs : List Range) (s l m : ℕ) :
    cells (rs ++ (s, l + m) :: qs) = cells (rs ++ (s, l) :: (s + l, m) :: qs) := by
  rw [cells_append, cells_append, cells_cons, cells_cons, cells_cons, ← Range.cells_join,
    Finset.union_assoc]

theorem Separate.join {s l m : ℕ} (h : Separate (rs ++ (s, l) :: (s + l, m) :: qs)) :
    Separate (rs ++ (s, l + m) :: qs) := by
  obtain ⟨hr, hq, hd⟩ := separate_append.mp h
  obtain ⟨h1, hq⟩ := List.pairwise_cons.mp hq
  obtain ⟨h2, hq⟩ := List.pairwise_cons.mp hq
  refine separate_append.mpr ⟨hr, List.pairwise_cons.mpr ⟨fun q hm => ?_, hq⟩, ?_⟩
  · rw [← Range.cells_join, Finset.disjoint_union_left]
    exact ⟨h1 q (by simp [hm]), h2 q hm⟩
  · rwa [cells_cons, ← Range.cells_join, Finset.union_assoc, ← cells_cons, ← cells_cons]

/-! ### Canonical lists -/

structure Canonical (rs : List Range) : Prop where
  pos : ∀ r ∈ rs, 0 < r.2
  gap : rs.Pairwise fun r q => r.1 + r.2 < q.1

theorem canonical_nil : Canonical [] := ⟨by simp, List.Pairwise.nil⟩

variable {r : Range}

theorem canonical_cons :
    Canonical (r :: rs) ↔ 0 < r.2 ∧ (∀ q ∈ rs, r.1 + r.2 < q.1) ∧ Canonical rs := by
  constructor
  · rintro ⟨hp, hg⟩
    rw [List.pairwise_cons] at hg
    exact ⟨hp r (by simp), hg.1, fun q hq => hp q (by simp [hq]), hg.2⟩
  · rintro ⟨hr, hq, hp, hg⟩
    refine ⟨fun q hm => ?_, List.pairwise_cons.mpr ⟨hq, hg⟩⟩
    rcases List.mem_cons.mp hm with rfl | hm
    · exact hr
    · exact hp q hm

theorem canonical_append :
    Canonical (rs ++ qs) ↔
      Canonical rs ∧ Canonical qs ∧ ∀ r ∈ rs, ∀ q ∈ qs, r.1 + r.2 < q.1 := by
  constructor
  · rintro ⟨hp, hg⟩
    rw [List.pairwise_append] at hg
    exact ⟨⟨fun r hr => hp r (by simp [hr]), hg.1⟩, ⟨fun r hr => hp r (by simp [hr]), hg.2.1⟩,
      hg.2.2⟩
  · rintro ⟨hr, hq, hb⟩
    refine ⟨fun r hm => ?_, List.pairwise_append.mpr ⟨hr.gap, hq.gap, hb⟩⟩
    rcases List.mem_append.mp hm with hm | hm
    · exact hr.pos r hm
    · exact hq.pos r hm

theorem Canonical.separate (h : Canonical rs) : Separate rs :=
  h.gap.imp fun hab => Range.disjoint_cells.mpr (by omega)

theorem Canonical.card (h : Canonical rs) : (cells rs).card = total rs :=
  h.separate.card

theorem Canonical.mem_tail (h : Canonical (r :: rs)) {x : ℕ} :
    x ∈ cells rs ↔ x ∈ cells (r :: rs) ∧ r.1 + r.2 < x := by
  obtain ⟨hr, hq, hc⟩ := canonical_cons.mp h
  rw [cells_cons, Finset.mem_union, Range.mem_cells]
  constructor
  · intro hx
    obtain ⟨q, hm, hx'⟩ := mem_cells.mp hx
    have := hq q hm
    rw [Range.mem_cells] at hx'
    exact ⟨Or.inr hx, by omega⟩
  · rintro ⟨hx | hx, hlt⟩
    · omega
    · exact hx

theorem Canonical.first_le (h : Canonical (r :: rs)) {x : ℕ} (hx : x ∈ cells (r :: rs)) :
    r.1 ≤ x := by
  rw [cells_cons, Finset.mem_union, Range.mem_cells] at hx
  rcases hx with hx | hx
  · exact hx.1
  · have := (h.mem_tail.mp hx).2
    omega

theorem Canonical.first_start_le {q : Range} (h : Canonical (r :: rs)) (hq : q ∈ r :: rs) :
    r.1 ≤ q.1 := by
  rcases List.mem_cons.mp hq with rfl | hq
  · exact le_rfl
  · have := (canonical_cons.mp h).2.1 q hq
    omega

theorem Canonical.gap_notMem (h : Canonical (r :: rs)) : r.1 + r.2 ∉ cells (r :: rs) := by
  intro hx
  rw [cells_cons, Finset.mem_union, Range.mem_cells] at hx
  rcases hx with hx | hx
  · omega
  · exact lt_irrefl _ (h.mem_tail.mp hx).2

theorem Canonical.ext (hr : Canonical rs) (hq : Canonical qs) (h : cells rs = cells qs) :
    rs = qs := by
  induction rs generalizing qs with
  | nil =>
    cases qs with
    | nil => rfl
    | cons q qs =>
      have hm : q.1 ∈ cells (q :: qs) := by
        have := hq.pos q (by simp)
        simp only [cells_cons, Finset.mem_union, Range.mem_cells]
        omega
      rw [← h] at hm
      simp at hm
  | cons r rs ih =>
    cases qs with
    | nil =>
      have hm : r.1 ∈ cells (r :: rs) := by
        have := hr.pos r (by simp)
        simp only [cells_cons, Finset.mem_union, Range.mem_cells]
        omega
      rw [h] at hm
      simp at hm
    | cons q qs =>
      have head : ∀ {p : Range} {ps : List Range}, Canonical (p :: ps) → ∀ x, p.1 ≤ x →
          x < p.1 + p.2 → x ∈ cells (p :: ps) := by
        intro p ps _ x h1 h2
        simp only [cells_cons, Finset.mem_union, Range.mem_cells]
        exact Or.inl ⟨h1, h2⟩
      have hrp := hr.pos r (by simp)
      have hqp := hq.pos q (by simp)
      have h1 : q.1 ≤ r.1 := hq.first_le (h ▸ head hr r.1 le_rfl (by omega))
      have h2 : r.1 ≤ q.1 := hr.first_le (h ▸ head hq q.1 le_rfl (by omega))
      -- neither list covers the cell behind the first range of the other
      have h3 : ¬ r.2 < q.2 := fun hlt => hr.gap_notMem (h ▸ head hq _ (by omega) (by omega))
      have h4 : ¬ q.2 < r.2 := fun hlt => hq.gap_notMem (h ▸ head hr _ (by omega) (by omega))
      have hrq : r = q := Prod.ext (by omega) (by omega)
      subst hrq
      congr 1
      refine ih (canonical_cons.mp hr).2.2 (canonical_cons.mp hq).2.2 ?_
      ext x
      rw [hr.mem_tail, hq.mem_tail, h]

/-! ### The free cells and the front of a list -/

/-- The first `n` cells of a list of ranges. -/
def takeFront : ℕ → List Range → List Range
  | _, [] => []
  | n, (s, l) :: rs => if n = 0 then [] else (s, min n l) :: takeFront (n - min n l) rs

@[simp] theorem takeFront_zero (rs : List Range) : takeFront 0 rs = [] := by
  cases rs <;> rfl

theorem total_takeFront (n : ℕ) (rs : List Range) : total (takeFront n rs) = min n (total rs) := by
  induction rs generalizing n with
  | nil => simp [takeFront]
  | cons r rs ih =>
    rw [takeFront]
    split_ifs with h
    · simp [h]
    · rw [total_cons, total_cons, ih]
      omega

theorem exists_of_mem_takeFront {n : ℕ} {q : Range} (h : q ∈ takeFront n rs) :
    ∃ r ∈ rs, q.1 = r.1 ∧ q.2 ≤ r.2 := by
  induction rs generalizing n with
  | nil => simp [takeFront] at h
  | cons r rs ih =>
    rw [takeFront] at h
    split_ifs at h with hn
    · simp at h
    · rcases List.mem_cons.mp h with rfl | h
      · exact ⟨r, by simp, rfl, min_le_right _ _⟩
      · obtain ⟨p, hp, hq⟩ := ih h
        exact ⟨p, by simp [hp], hq⟩

theorem cells_takeFront_subset (n : ℕ) (rs : List Range) : cells (takeFront n rs) ⊆ cells rs := by
  intro x hx
  obtain ⟨q, hq, hx⟩ := mem_cells.mp hx
  obtain ⟨r, hr, h1, h2⟩ := exists_of_mem_takeFront hq
  refine mem_cells.mpr ⟨r, hr, ?_⟩
  rw [Range.mem_cells] at hx ⊢
  omega

theorem Canonical.takeFront (h : Canonical rs) (n : ℕ) : Canonical (takeFront n rs) := by
  induction rs generalizing n with
  | nil => exact canonical_nil
  | cons r rs ih =>
    obtain ⟨hr, hq, hc⟩ := canonical_cons.mp h
    rw [Extent.takeFront]
    split_ifs with hn
    · exact canonical_nil
    · refine canonical_cons.mpr ⟨by simp only; omega, fun q hm => ?_, ih hc _⟩
      obtain ⟨p, hp, h1, -⟩ := exists_of_mem_takeFront hm
      have := hq p hp
      simp only
      omega

theorem Canonical.takeFront_lt (h : Canonical rs) {n x y : ℕ}
    (hx : x ∈ cells (Extent.takeFront n rs)) (hy : y ∈ cells rs)
    (hout : y ∉ cells (Extent.takeFront n rs)) : x < y := by
  induction rs generalizing n with
  | nil => simp at hy
  | cons r rs ih =>
    obtain ⟨s, l⟩ := r
    rw [Extent.takeFront] at hx hout
    split_ifs at hx hout with hn
    · simp at hx
    · rw [cells_cons, Finset.mem_union, Range.mem_cells] at hx hout
      rw [cells_cons, Finset.mem_union, Range.mem_cells] at hy
      obtain ⟨houtr, houts⟩ := not_or.mp hout
      simp only at hx hy houtr
      rcases hy with hy | hy
      · -- the first range is not used up, so nothing is taken behind it
        have hall : n - min n l = 0 := by omega
        rw [hall, takeFront_zero] at hx
        simp only [cells_nil, Finset.notMem_empty, or_false] at hx
        omega
      · have hys := (h.mem_tail.mp hy).2
        simp only at hys
        rcases hx with hx | hx
        · omega
        · exact ih (canonical_cons.mp h).2.2 hx hy houts

theorem Canonical.takeFront_total (h : Canonical rs) : Extent.takeFront (total rs) rs = rs := by
  induction rs with
  | nil => rfl
  | cons r rs ih =>
    obtain ⟨hr, -, hc⟩ := canonical_cons.mp h
    have hmin : min (r.2 + total rs) r.2 = r.2 := by omega
    rw [Extent.takeFront, total_cons, if_neg (by omega), hmin, Nat.add_sub_cancel_left, ih hc]

end Stratisd.Extent
