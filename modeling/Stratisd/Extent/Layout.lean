import Stratisd.Extent.Ranges

/-! Layouts of a linear address space. A layout is a list of pieces, each a range of cells of
some medium, laid end to end; it sends an address to a cell of a medium. Joining two pieces
that continue each other changes the list and not the addresses, and appending pieces changes
no address that was there before. -/

namespace Stratisd.Extent

/-- A range of cells of one of several media. -/
abbrev Piece (κ : Type*) := κ × Range

namespace Layout

variable {κ : Type*}

def extent (ps : List (Piece κ)) : ℕ := (ps.map (·.2.2)).sum

@[simp] theorem extent_nil : extent ([] : List (Piece κ)) = 0 := rfl

@[simp] theorem extent_cons (p : Piece κ) (ps : List (Piece κ)) :
    extent (p :: ps) = p.2.2 + extent ps := by
  simp [extent]

@[simp] theorem extent_append (ps qs : List (Piece κ)) :
    extent (ps ++ qs) = extent ps + extent qs := by
  simp [extent]

/-- The medium and the cell behind an address. -/
def address : List (Piece κ) → ℕ → Option (κ × ℕ)
  | [], _ => none
  | (k, r) :: ps, i => if i < r.2 then some (k, r.1 + i) else address ps (i - r.2)

variable {ps : List (Piece κ)}

theorem address_isSome {i : ℕ} : (address ps i).isSome ↔ i < extent ps := by
  induction ps generalizing i with
  | nil => simp [address]
  | cons p ps ih =>
    obtain ⟨k, s, l⟩ := p
    rw [address, extent_cons]
    split_ifs with h
    · simp only at h
      simp only [Option.isSome_some, true_iff]
      omega
    · rw [ih]
      simp only at h ⊢
      omega

theorem address_append_left {qs : List (Piece κ)} {i : ℕ} (h : i < extent ps) :
    address (ps ++ qs) i = address ps i := by
  induction ps generalizing i with
  | nil => simp at h
  | cons p ps ih =>
    obtain ⟨k, s, l⟩ := p
    rw [extent_cons] at h
    simp only [List.cons_append, address] at h ⊢
    split_ifs with hl
    · rfl
    · exact ih (by omega)

theorem address_append_right {qs : List (Piece κ)} {i : ℕ} (h : extent ps ≤ i) :
    address (ps ++ qs) i = address qs (i - extent ps) := by
  induction ps generalizing i with
  | nil => simp
  | cons p ps ih =>
    obtain ⟨k, s, l⟩ := p
    rw [extent_cons] at h
    simp only [List.cons_append, address, extent_cons] at h ⊢
    rw [if_neg (by omega), ih (by omega), Nat.sub_sub]

theorem address_join (k : κ) (s l m : ℕ) (ps : List (Piece κ)) (i : ℕ) :
    address ((k, (s, l)) :: (k, (s + l, m)) :: ps) i = address ((k, (s, l + m)) :: ps) i := by
  simp only [address]
  split_ifs with h1 h2 h2 h2
  · rfl
  · omega
  · rw [show s + l + (i - l) = s + i by omega]
  · omega
  · omega
  · rw [Nat.sub_sub]

theorem address_join_append (ps : List (Piece κ)) (k : κ) (s l m : ℕ) (qs : List (Piece κ)) :
    address (ps ++ (k, (s, l)) :: (k, (s + l, m)) :: qs) =
      address (ps ++ (k, (s, l + m)) :: qs) := by
  funext i
  rcases Nat.lt_or_ge i (extent ps) with h | h
  · rw [address_append_left h, address_append_left h]
  · rw [address_append_right h, address_append_right h, address_join]

theorem exists_of_address {i : ℕ} {a : κ × ℕ} (h : address ps i = some a) :
    ∃ p ∈ ps, p.1 = a.1 ∧ a.2 ∈ p.2.cells := by
  induction ps generalizing i with
  | nil => simp [address] at h
  | cons p ps ih =>
    obtain ⟨k, s, l⟩ := p
    rw [address] at h
    split_ifs at h with hl
    · refine ⟨(k, (s, l)), by simp, ?_⟩
      rw [← Option.some.inj h]
      simp only at hl
      exact ⟨rfl, Range.mem_cells.mpr (by simp only; omega)⟩
    · obtain ⟨p, hp, hpa⟩ := ih h
      exact ⟨p, by simp [hp], hpa⟩

def Apart (p q : Piece κ) : Prop := p.1 ≠ q.1 ∨ Disjoint p.2.cells q.2.cells

theorem address_injective (h : ps.Pairwise Apart) {i j : ℕ} {a : κ × ℕ}
    (hi : address ps i = some a) (hj : address ps j = some a) : i = j := by
  induction ps generalizing i j with
  | nil => simp [address] at hi
  | cons p ps ih =>
    obtain ⟨k, s, l⟩ := p
    obtain ⟨hp, hps⟩ := List.pairwise_cons.mp h
    -- a cell of the first piece is in none of the others
    have hfirst : ∀ x < l, ∀ y, address ps y ≠ some (k, s + x) := by
      intro x hx y hy
      obtain ⟨q, hq, hk, hc⟩ := exists_of_address hy
      rcases hp q hq with hne | hd
      · exact hne hk.symm
      · refine Finset.disjoint_left.mp hd (Range.mem_cells.mpr ?_) hc
        simp only
        omega
    rw [address] at hi hj
    simp only at hi hj
    split_ifs at hi hj with h1 h2 h2
    · have := congrArg Prod.snd (Option.some.inj (hi.trans hj.symm))
      simp only at this
      omega
    · exact absurd (hj.trans hi.symm) (hfirst i h1 _)
    · exact absurd (hi.trans hj.symm) (hfirst j h2 _)
    · have := ih hps hi hj
      omega

end Layout

/-! ### Appending with a join at the seam -/

variable {α : Type*}

/-- Append a list, joining the last element in front with the first one behind if they can
be joined. -/
def appendJoining (join : α → α → Option α) (left right : List α) : List α :=
  match left.getLast?, right with
  | some a, b :: bs =>
    match join a b with
    | some c => left.dropLast ++ c :: bs
    | none => left ++ right
  | _, _ => left ++ right

theorem appendJoining_rule {join : α → α → Option α} {P : List α → Prop} {left right : List α}
    (h : P (left ++ right))
    (hj : ∀ xs a b c ys, join a b = some c → P (xs ++ a :: b :: ys) → P (xs ++ c :: ys)) :
    P (appendJoining join left right) := by
  unfold appendJoining
  split
  · rename_i a b bs hlast
    split
    · rename_i c hc
      have hleft := List.dropLast_append_getLast? a hlast
      refine hj _ a b c _ hc ?_
      rw [← hleft, List.append_assoc] at h
      exact h
    · exact h
  · exact h

end Stratisd.Extent
