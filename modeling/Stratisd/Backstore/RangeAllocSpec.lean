import Stratisd.Backstore.RangeAlloc

/-! `PerDevSegments` as a set of sectors. Each operation is described by what it does to
the set; since a canonical list of ranges is determined by its cells, that says which
ranges are stored. -/

namespace Stratisd.Backstore

open Run Run.Outcome Engine Extent Finset

namespace PerDevSegments

/-- The invariant of the ranges of a device. -/
structure WF (p : PerDevSegments) : Prop where
  canonical : Canonical p.used
  within : ∀ r ∈ p.used, r.1 + r.2 ≤ p.limit
  limit_lt : p.limit < u64Bound

def sectors (p : PerDevSegments) : Finset ℕ := cells p.used

/-- A range can be added: it is empty, or free and inside the device. -/
def Fits (p : PerDevSegments) (r : Range) : Prop :=
  r.1 ≤ p.limit ∧ (r.2 = 0 ∨ r.1 + r.2 ≤ p.limit ∧ Disjoint r.cells p.sectors)

variable {p q : PerDevSegments}

theorem wf_new {limit : ℕ} (h : limit < u64Bound) : (new limit).WF :=
  ⟨canonical_nil, by simp [new], h⟩

@[simp] theorem sectors_new (limit : ℕ) : (new limit).sectors = ∅ := rfl

theorem WF.sectors_subset (h : p.WF) : p.sectors ⊆ range p.limit := by
  intro x hx
  obtain ⟨r, hr, hx⟩ := mem_cells.mp hx
  have := h.within r hr
  rw [Range.mem_cells] at hx
  exact mem_range.mpr (by omega)

theorem WF.of_subset (hc : Canonical p.used) (hs : p.sectors ⊆ range p.limit)
    (hl : p.limit < u64Bound) : p.WF := by
  refine ⟨hc, fun r hr => ?_, hl⟩
  have hpos := hc.pos r hr
  have hlast : r.1 + r.2 - 1 ∈ p.sectors := mem_cells.mpr ⟨r, hr, Range.mem_cells.mpr (by omega)⟩
  have := mem_range.mp (hs hlast)
  omega

theorem WF.sum_eq (h : p.WF) : p.sum = p.sectors.card := h.canonical.card.symm

theorem WF.sum_le (h : p.WF) : p.sum ≤ p.limit := by
  rw [h.sum_eq, ← card_range p.limit]
  exact card_le_card h.sectors_subset

theorem WF.sorted (h : p.WF) : OrderedMap.Sorted p.used :=
  h.canonical.gap.imp fun hab => by omega

theorem WF.ext (hp : p.WF) (hq : q.WF) (hl : p.limit = q.limit) (hs : p.sectors = q.sectors) :
    p = q := by
  cases p; cases q
  simp only [mk.injEq]
  exact ⟨hl, hp.canonical.ext hq.canonical hs⟩

/-! ### Insertion -/

variable {rs : List Range}

theorem exists_split (h : Canonical rs) (v : ℕ) :
    ∃ left right, rs = left ++ right ∧ (∀ r ∈ left, r.1 < v) ∧ ∀ r ∈ right, v ≤ r.1 := by
  induction rs with
  | nil => exact ⟨[], [], rfl, by simp, by simp⟩
  | cons r rs ih =>
    obtain ⟨hr, hq, hc⟩ := canonical_cons.mp h
    by_cases hv : r.1 < v
    · obtain ⟨left, right, rfl, hl, hr'⟩ := ih hc
      refine ⟨r :: left, right, rfl, fun q hm => ?_, hr'⟩
      rcases List.mem_cons.mp hm with rfl | hm
      · exact hv
      · exact hl q hm
    · refine ⟨[], r :: rs, rfl, by simp, fun q hm => ?_⟩
      rcases List.mem_cons.mp hm with rfl | hm
      · omega
      · have := hq q hm
        omega

variable {left right : List Range}

theorem locateFrom_append {v : ℕ} (hl : ∀ r ∈ left, r.1 < v) (prev : Option ℕ) :
    locateFrom v prev (left ++ right) =
      locateFrom v ((left.getLast?.map Prod.fst).or prev) right := by
  induction left generalizing prev with
  | nil => simp
  | cons r left ih =>
    have hr := hl r (by simp)
    rw [List.cons_append, locateFrom]
    simp only [ge_iff_le, hr.le, if_true, if_neg (not_le.mpr hr)]
    rw [ih (fun q hq => hl q (by simp [hq]))]
    cases left using List.reverseRecOn with
    | nil => simp
    | append_singleton left q =>
      rw [← List.cons_append, List.getLast?_concat, List.getLast?_concat]
      rfl

theorem locateFrom_of_lt {v : ℕ} (hl : ∀ r ∈ left, r.1 < v) (hr : ∀ r ∈ right, v < r.1) :
    locateFrom v none (left ++ right) =
      (left.getLast?.map Prod.fst, right.head?.map Prod.fst) := by
  rw [locateFrom_append hl]
  cases right with
  | nil => simp [locateFrom]
  | cons r right =>
    have := hr r (by simp)
    simp [locateFrom, this.le, not_le.mpr this]

variable {s l : ℕ}

/-- Joining a free range with the range in front of it. -/
theorem joinPrev_spec (hu : p.used = left ++ right) (hc : Canonical p.used)
    (hl : ∀ r ∈ left, r.1 + r.2 ≤ s) (hlen : 0 < l) :
    ∃ left' kept s' l', p.joinPrev (left.getLast?.map Prod.fst) (s, l) = .ok (kept, (s', l')) ∧
      dropJoined (left.getLast?.map Prod.fst) kept p.used = left' ++ right ∧
      Canonical left' ∧ (∀ r ∈ left', r.1 + r.2 < s') ∧ (∀ r ∈ left', r ∈ left) ∧
      s' + l' = s + l ∧ s' ≤ s ∧
      cells left' ∪ Range.cells (s', l') = cells left ∪ Range.cells (s, l) := by
  rw [hu, canonical_append] at hc
  obtain ⟨hcl, hcr, hb⟩ := hc
  cases left using List.reverseRecOn with
  | nil =>
    exact ⟨[], none, s, l, rfl, by rw [hu]; rfl, canonical_nil, by simp, by simp, rfl, le_rfl, rfl⟩
  | append_singleton front prev =>
    obtain ⟨a, b⟩ := prev
    have hlast : (front ++ [(a, b)]).getLast?.map Prod.fst = some a := by simp
    obtain ⟨hcf, -, hfb⟩ := canonical_append.mp hcl
    have hfront : ∀ r ∈ front, r.1 + r.2 < a := fun r hr => hfb r hr (a, b) (by simp)
    have hends : a + b ≤ s := hl (a, b) (by simp)
    have hb0 : 0 < b := hcl.pos (a, b) (by simp)
    have hright : ∀ r ∈ right, a < r.1 := fun r hr => by
      have := hb (a, b) (by simp) r hr
      simp only at this
      omega
    have hget : OrderedMap.get a p.used = some b := by
      rw [hu, List.append_assoc]
      exact OrderedMap.get_split fun r hr => by have := hfront r hr; omega
    rw [hlast, joinPrev, hget]
    simp only [not_lt.mpr hends, if_false]
    by_cases htouch : a + b = s
    · -- the range in front is replaced by the joined one
      refine ⟨front, none, a, b + l, if_pos htouch, ?_, hcf, hfront, by simp; tauto, by omega,
        by omega, ?_⟩
      · rw [hu, dropJoined, List.append_assoc]
        exact OrderedMap.remove_split (fun r hr => by have := hfront r hr; omega) hright
      · rw [cells_append, union_assoc]
        congr 1
        ext x
        simp only [cells_cons, cells_nil, mem_union, Range.mem_cells, notMem_empty,
          or_false]
        omega
    · refine ⟨front ++ [(a, b)], some (a, b), s, l, if_neg htouch, ?_, hcl, ?_, by simp, rfl, le_rfl,
        rfl⟩
      · rw [hu]
        rfl
      · intro r hr
        rcases List.mem_append.mp hr with hr | hr
        · have := hfront r hr
          omega
        · rw [List.mem_singleton.mp hr]
          simp only
          omega

/-- Joining a free range with the range behind it. -/
theorem joinNext_spec (hc : Canonical right)
    (hget : ∀ r ∈ right, OrderedMap.get r.1 p.used = some r.2) (hl : ∀ r ∈ left, r.1 < s)
    (hr : ∀ r ∈ right, s + l ≤ r.1) (hlen : 0 < l) :
    ∃ right' kept l', p.joinNext (right.head?.map Prod.fst) (s, l) = .ok ((s, l'), kept) ∧
      dropJoined (right.head?.map Prod.fst) kept (left ++ right) = left ++ right' ∧
      Canonical right' ∧ (∀ r ∈ right', s + l' < r.1) ∧ 0 < l' ∧
      Range.cells (s, l') ∪ cells right' = Range.cells (s, l) ∪ cells right := by
  cases right with
  | nil => exact ⟨[], none, l, rfl, rfl, canonical_nil, by simp, hlen, rfl⟩
  | cons next back =>
    obtain ⟨a, b⟩ := next
    obtain ⟨hb0, hback, hcb⟩ := canonical_cons.mp hc
    have hstart : s + l ≤ a := hr (a, b) (by simp)
    rw [List.head?_cons, Option.map_some, joinNext, hget (a, b) (by simp)]
    simp only [not_lt.mpr hstart, if_false]
    by_cases htouch : s + l = a
    · -- the range behind is replaced by the joined one
      refine ⟨back, none, l + b, if_pos htouch, ?_, hcb, fun r hm => ?_, by omega, ?_⟩
      · refine OrderedMap.remove_split (fun r hm => ?_) (fun r hm => ?_)
        · have := hl r hm
          omega
        · have := hback r hm
          simp only at this
          omega
      · have := hback r hm
        simp only at this
        omega
      · rw [cells_cons, ← union_assoc]
        congr 1
        ext x
        simp only [mem_union, Range.mem_cells]
        omega
    · refine ⟨(a, b) :: back, some (a, b), l, if_neg htouch, rfl, hc, fun r hm => ?_, hlen, rfl⟩
      rcases List.mem_cons.mp hm with rfl | hm
      · simp only
        omega
      · have := hback r hm
        simp only at this
        omega

theorem insert_of_length_zero (hs : s ≤ p.limit) : p.insert (s, 0) = .ok p := by
  simp [insert, not_lt.mpr hs]

theorem WF.clear_split (h : p.WF) (hlen : 0 < l) (hdis : Disjoint (Range.cells (s, l)) p.sectors) :
    ∃ left right, p.used = left ++ right ∧ (∀ r ∈ left, r.1 < s) ∧ (∀ r ∈ left, r.1 + r.2 ≤ s) ∧
      ∀ r ∈ right, s + l ≤ r.1 := by
  obtain ⟨left, right, hu, hleft, hright⟩ := exists_split h.canonical s
  have hclear : ∀ r ∈ p.used, r.1 + r.2 ≤ s ∨ s + l ≤ r.1 := by
    intro r hr
    have hd : Disjoint (Range.cells (s, l)) r.cells :=
      hdis.mono_right fun x hx => mem_cells.mpr ⟨r, hr, hx⟩
    have := h.canonical.pos r hr
    have := Range.disjoint_cells.mp hd
    simp only at this
    omega
  refine ⟨left, right, hu, hleft, fun r hr => ?_, fun r hr => ?_⟩
  · have := hclear r (by simp [hu, hr])
    have := hleft r hr
    omega
  · have hr' : r ∈ p.used := by simp [hu, hr]
    have := hclear r hr'
    have := hright r hr
    have := h.canonical.pos r hr'
    omega

theorem canonical_between (hleft : Canonical left) (hright : Canonical right) (hl : 0 < l)
    (hbefore : ∀ r ∈ left, r.1 + r.2 < s) (hafter : ∀ r ∈ right, s + l < r.1) :
    Canonical (left ++ (s, l) :: right) := by
  rw [canonical_append, canonical_cons]
  refine ⟨hleft, ⟨hl, hafter, hright⟩, fun r hr q hq => ?_⟩
  have := hbefore r hr
  rcases List.mem_cons.mp hq with rfl | hq
  · exact this
  · have := hafter q hq
    omega

theorem insert_of_fits (h : p.WF) {r : Range} (hf : p.Fits r) :
    ∃ q, p.insert r = .ok q ∧ q.WF ∧ q.limit = p.limit ∧ q.sectors = p.sectors ∪ r.cells := by
  obtain ⟨s, l⟩ := r
  obtain ⟨hs, hf⟩ := hf
  simp only at hs hf
  rcases Nat.eq_zero_or_pos l with rfl | hlen
  · exact ⟨p, insert_of_length_zero hs, h, rfl, by simp [Range.cells_eq_empty]⟩
  obtain ⟨hend, hdis⟩ := hf.resolve_left hlen.ne'
  obtain ⟨left, right, hu, hleft, hends, hstarts⟩ := h.clear_split hlen hdis
  have hcr : Canonical right := (canonical_append.mp (hu ▸ h.canonical)).2.1
  obtain ⟨left', kept, s', l', hjp, hdp, hcl', hl', hsub, hsum, hs', hcells⟩ :=
    joinPrev_spec hu h.canonical hends hlen
  have hget : ∀ r ∈ right, OrderedMap.get r.1 p.used = some r.2 := fun r hr =>
    (OrderedMap.mem_iff_get h.sorted).mp (by simp [hu, hr])
  obtain ⟨right', kept', l'', hjn, hdn, hcr', hr', hl0, hcells'⟩ :=
    joinNext_spec hcr hget (fun r (hr : r ∈ left') => show r.1 < s' by have := hl' r hr; omega)
      (fun r hr => show s' + l' ≤ r.1 by have := hstarts r hr; omega) (by omega)
  have hnone : OrderedMap.get s' (left' ++ right') = none := OrderedMap.get_eq_none fun r hr => by
    rcases List.mem_append.mp hr with hr | hr
    · have := hl' r hr; omega
    · have := hr' r hr; omega
  have hins : OrderedMap.insert s' l'' (left' ++ right') = left' ++ (s', l'') :: right' :=
    OrderedMap.insert_split (fun r hr => by have := hl' r hr; omega)
      (fun r hr => by have := hr' r hr; omega)
  have hfit : fitsU64 (s + l) = true := decide_eq_true (lt_of_le_of_lt hend h.limit_lt)
  have hlocate : p.locatePrevAndNext s = (left.getLast?.map Prod.fst, right.head?.map Prod.fst) := by
    rw [locatePrevAndNext, hu]
    exact locateFrom_of_lt hleft fun r hr => by have := hstarts r hr; omega
  have hsectors : cells (left' ++ (s', l'') :: right') = p.sectors ∪ Range.cells (s, l) := by
    rw [cells_append, cells_cons, hcells', ← union_assoc, hcells, sectors, hu, cells_append,
      union_right_comm]
  refine ⟨{ p with used := left' ++ (s', l'') :: right' }, ?_, ?_, rfl, hsectors⟩
  · simp [insert, not_lt.mpr hs, hlen.ne', hlocate, insertionResult, hfit, not_lt.mpr hend, hjp, hjn,
      hdp, hdn, hnone, hins]
  · refine WF.of_subset (canonical_between hcl' hcr' hl0 hl' hr') ?_ h.limit_lt
    change cells _ ⊆ _
    rw [hsectors]
    refine union_subset h.sectors_subset fun x hx => ?_
    rw [Range.mem_cells] at hx
    exact mem_range.mpr (lt_of_lt_of_le hx.2 hend)

theorem joinPrev_overlap {a b : ℕ} (hget : OrderedMap.get a p.used = some b) (h : s < a + b) :
    ∃ text, p.joinPrev (some a) (s, l) = .err (.msg text) := by
  rw [joinPrev, hget]
  exact ⟨_, if_pos h⟩

theorem joinNext_overlap {n : ℕ} (h : n < s + l) :
    ∃ text, p.joinNext (some n) (s, l) = .err (.msg text) := by
  rw [joinNext]
  exact ⟨_, if_pos h⟩

theorem locatePrev_of_start (h : p.WF) {r : Range} (hr : r ∈ p.used) :
    (p.locatePrevAndNext r.1).1 = some r.1 := by
  obtain ⟨left, right, hu, hleft, hright⟩ := exists_split h.canonical r.1
  have hcr : Canonical right := (canonical_append.mp (hu ▸ h.canonical)).2.1
  have hmem : r ∈ right := by
    rcases List.mem_append.mp (hu ▸ hr) with hr | hr
    · exact absurd (hleft r hr) (lt_irrefl _)
    · exact hr
  rw [locatePrevAndNext, hu, locateFrom_append hleft]
  cases right with
  | nil => cases hmem
  | cons q right =>
    have h1 := hright q List.mem_cons_self
    have h2 := hcr.first_start_le hmem
    have hq : q.1 = r.1 := by omega
    simp [locateFrom, hq]

theorem joinPrev_overlap_of_left (h : p.WF) (hu : p.used = left ++ right) (l : ℕ)
    (hends : ¬ ∀ r ∈ left, r.1 + r.2 ≤ s) :
    ∃ text, p.joinPrev (left.getLast?.map Prod.fst) (s, l) = .err (.msg text) := by
  have hcl : Canonical left := (canonical_append.mp (hu ▸ h.canonical)).1
  obtain ⟨q, hq, hqs⟩ := not_forall₂.mp hends
  cases left using List.reverseRecOn with
  | nil => cases hq
  | append_singleton front a =>
    have ha : s < a.1 + a.2 := by
      rcases List.mem_append.mp hq with hq | hq
      · have := (canonical_append.mp hcl).2.2 q hq a (by simp)
        omega
      · rw [List.mem_singleton.mp hq] at hqs
        omega
    have hget : OrderedMap.get a.1 p.used = some a.2 :=
      (OrderedMap.mem_iff_get h.sorted).mp (by simp [hu])
    obtain ⟨text, ht⟩ := joinPrev_overlap (l := l) hget ha
    exact ⟨text, by rw [List.getLast?_concat, Option.map_some, ht]⟩

theorem joinNext_overlap_of_right (hcr : Canonical right) {q : Range} (hq : q ∈ right)
    (hqs : q.1 < s + l) :
    ∃ text, p.joinNext (right.head?.map Prod.fst) (s, l) = .err (.msg text) := by
  cases right with
  | nil => cases hq
  | cons n right =>
    have hn := hcr.first_start_le hq
    obtain ⟨text, ht⟩ := joinNext_overlap (p := p) (show n.1 < s + l by omega)
    exact ⟨text, by simp only [List.head?_cons, Option.map_some, ht]⟩

theorem join_overlap (h : p.WF) (hlen : 0 < l) (hov : ¬ Disjoint (Range.cells (s, l)) p.sectors) :
    ∃ text, (do
      let (lhs, range) ← p.joinPrev (p.locatePrevAndNext s).1 (s, l)
      let (range, rhs) ← p.joinNext (p.locatePrevAndNext s).2 range
      (.ok (lhs, range, rhs) : StratisResult (Option Range × Range × Option Range))) =
        .err (.msg text) := by
  obtain ⟨left, right, hu, hleft, hright⟩ := exists_split h.canonical s
  have hcr : Canonical right := (canonical_append.mp (hu ▸ h.canonical)).2.1
  by_cases hkey : ∃ r ∈ right, r.1 = s
  · -- a range starts where the new one does
    obtain ⟨r, hr, rfl⟩ := hkey
    have hused : r ∈ p.used := by simp [hu, hr]
    have hpos := hcr.pos r hr
    obtain ⟨text, ht⟩ := joinPrev_overlap (l := l) ((OrderedMap.mem_iff_get h.sorted).mp hused)
      (show r.1 < r.1 + r.2 by omega)
    exact ⟨text, by rw [locatePrev_of_start h hused, ht]; rfl⟩
  have hright' : ∀ r ∈ right, s < r.1 := fun r hr =>
    lt_of_le_of_ne (hright r hr) fun he => hkey ⟨r, hr, he.symm⟩
  have hlocate : p.locatePrevAndNext s =
      (left.getLast?.map Prod.fst, right.head?.map Prod.fst) := by
    rw [locatePrevAndNext, hu]
    exact locateFrom_of_lt hleft hright'
  rw [hlocate]
  by_cases hends : ∀ r ∈ left, r.1 + r.2 ≤ s
  · obtain ⟨left', kept, s', l', hjp, -, -, -, -, hsum, -, -⟩ :=
      joinPrev_spec hu h.canonical hends hlen
    obtain ⟨x, hx, hxp⟩ := not_disjoint_iff.mp hov
    obtain ⟨q, hq, hxq⟩ := mem_cells.mp hxp
    rw [Range.mem_cells] at hx hxq
    simp only at hx
    have hqr : q ∈ right := by
      rcases List.mem_append.mp (hu ▸ hq) with hq | hq
      · have := hends q hq
        omega
      · exact hq
    obtain ⟨text, ht⟩ := joinNext_overlap_of_right (p := p) hcr hqr (show q.1 < s' + l' by omega)
    refine ⟨text, ?_⟩
    simp only [hjp, ok_bind, ht]
    rfl
  · obtain ⟨text, ht⟩ := joinPrev_overlap_of_left h hu l hends
    exact ⟨text, by rw [ht]; rfl⟩

theorem insert_of_not_fits (h : p.WF) {r : Range} (hf : ¬ p.Fits r) :
    ∃ text, p.insert r = .err (.msg text) := by
  obtain ⟨s, l⟩ := r
  unfold insert
  split_ifs with hs hl
  · exact ⟨_, rfl⟩
  · exact absurd ⟨not_lt.mp hs, Or.inl hl⟩ hf
  · simp only at hs hl
    unfold insertionResult
    simp only [if_neg hl]
    by_cases hfit : fitsU64 (s + l) = true
    · by_cases hend : p.limit < s + l
      · simp [hfit, hend]
      · obtain ⟨text, ht⟩ := join_overlap h (Nat.pos_of_ne_zero hl) fun hd =>
          hf ⟨not_lt.mp hs, Or.inr ⟨not_lt.mp hend, hd⟩⟩
        refine ⟨text, ?_⟩
        simp only [hfit, Bool.not_true, Bool.false_eq_true, if_false, gt_iff_lt, if_neg hend]
        rw [ht]
        rfl
    · simp [hfit]

/-! ### Several ranges -/

/-- All ranges can be added, in any order. -/
def FitsAll (p : PerDevSegments) (rs : List Range) : Prop :=
  (∀ r ∈ rs, p.Fits r) ∧ Separate rs

theorem FitsAll.perm {qs : List Range} (h : p.FitsAll rs) (hp : rs.Perm qs) : p.FitsAll qs :=
  ⟨fun r hr => h.1 r (hp.mem_iff.mpr hr), h.2.perm hp⟩

theorem fitsAll_cons {r : Range} (hl : q.limit = p.limit) (hs : q.sectors = p.sectors ∪ r.cells) :
    p.FitsAll (r :: rs) ↔ p.Fits r ∧ q.FitsAll rs := by
  rw [FitsAll, FitsAll, Separate, List.pairwise_cons]
  simp only [List.forall_mem_cons]
  have hone : ∀ x : Range, q.Fits x ↔ p.Fits x ∧ Disjoint x.cells r.cells := by
    intro x
    unfold Fits
    rw [hl, hs, disjoint_union_right]
    by_cases hx : x.2 = 0
    · simp [hx, Range.cells_eq_empty]
    · simp only [hx, false_or]
      tauto
  constructor
  · rintro ⟨⟨hr, hrs⟩, hd, hsep⟩
    exact ⟨hr, fun x hx => (hone x).mpr ⟨hrs x hx, (hd x hx).symm⟩, hsep⟩
  · rintro ⟨hr, hq, hsep⟩
    exact ⟨⟨hr, fun x hx => ((hone x).mp (hq x hx)).1⟩,
      fun x hx => ((hone x).mp (hq x hx)).2.symm, hsep⟩

theorem insertEach_of_fits (h : p.WF) (hf : p.FitsAll rs) :
    ∃ q, p.insertEach rs = .ok q ∧ q.WF ∧ q.limit = p.limit ∧
      q.sectors = p.sectors ∪ cells rs := by
  induction rs generalizing p with
  | nil => exact ⟨p, rfl, h, rfl, by simp⟩
  | cons r rs ih =>
    obtain ⟨m, hm, hwf, hlim, hsec⟩ := insert_of_fits h (hf.1 r (by simp))
    obtain ⟨q, hq, hwf', hlim', hsec'⟩ := ih hwf ((fitsAll_cons hlim hsec).mp hf).2
    refine ⟨q, ?_, hwf', hlim'.trans hlim, ?_⟩
    · rw [insertEach, hm, ok_bind, hq]
    · rw [hsec', hsec, cells_cons, union_assoc]

theorem insertEach_of_not_fits (h : p.WF) (hf : ¬ p.FitsAll rs) :
    ∃ text, p.insertEach rs = .err (.msg text) := by
  induction rs generalizing p with
  | nil => exact absurd ⟨by simp, List.Pairwise.nil⟩ hf
  | cons r rs ih =>
    by_cases hr : p.Fits r
    · obtain ⟨m, hm, hwf, hlim, hsec⟩ := insert_of_fits h hr
      obtain ⟨text, ht⟩ := ih hwf fun hrs => hf ((fitsAll_cons hlim hsec).mpr ⟨hr, hrs⟩)
      exact ⟨text, by rw [insertEach, hm, ok_bind, ht]⟩
    · obtain ⟨text, ht⟩ := insert_of_not_fits h hr
      exact ⟨text, by rw [insertEach, ht, err_bind]⟩

theorem unionRanges_perm (hp : p.WF) (hq : q.WF) :
    (p.unionRanges q).Perm (p.used ++ q.used) := by
  have hn : (OrderedMap.keySet (p.used.map Prod.fst ++ q.used.map Prod.fst)).reverse.Nodup :=
    List.nodup_reverse.mpr (OrderedMap.nodup_keySet _)
  have hmem : ∀ e : Range, e ∈ p.used ∨ e ∈ q.used →
      e.1 ∈ (OrderedMap.keySet (p.used.map Prod.fst ++ q.used.map Prod.fst)).reverse := by
    intro e he
    rw [List.mem_reverse, OrderedMap.mem_keySet, List.mem_append]
    exact he.imp (List.mem_map_of_mem) (List.mem_map_of_mem)
  refine (List.flatMap_append_perm _ _ _).symm.trans ?_
  exact (OrderedMap.perm_of_keys hp.sorted hn fun e he => hmem e (Or.inl he)).append
    (OrderedMap.perm_of_keys hq.sorted hn fun e he => hmem e (Or.inr he))

theorem fitsAll_unionRanges (hp : p.WF) (hq : q.WF) (hl : p.limit = q.limit) :
    (new p.limit).FitsAll (p.unionRanges q) ↔ Disjoint p.sectors q.sectors := by
  have hperm := unionRanges_perm hp hq
  constructor
  · intro h
    exact (separate_append.mp (h.perm hperm).2).2.2
  · intro hd
    refine FitsAll.perm ⟨fun r hr => ?_, ?_⟩ hperm.symm
    · have hend : r.1 + r.2 ≤ p.limit := by
        rcases List.mem_append.mp hr with hr | hr
        · exact hp.within r hr
        · exact hl ▸ hq.within r hr
      exact ⟨show r.1 ≤ p.limit by omega, Or.inr ⟨hend, by simp⟩⟩
    · exact separate_append.mpr ⟨hp.canonical.separate, hq.canonical.separate, hd⟩

theorem union_of_disjoint (hp : p.WF) (hq : q.WF) (hl : p.limit = q.limit)
    (hd : Disjoint p.sectors q.sectors) :
    ∃ u, p.union q = .ok u ∧ u.WF ∧ u.limit = p.limit ∧ u.sectors = p.sectors ∪ q.sectors := by
  obtain ⟨u, hu, hwf, hlim, hsec⟩ := insertEach_of_fits (wf_new hp.limit_lt)
    ((fitsAll_unionRanges hp hq hl).mpr hd)
  refine ⟨u, ?_, hwf, hlim, ?_⟩
  · rw [union, if_neg (not_not.mpr hl), hu]
  · rw [hsec, cells_perm (unionRanges_perm hp hq), cells_append, sectors_new, empty_union]
    rfl

theorem union_of_not_disjoint (hp : p.WF) (hq : q.WF) (hl : p.limit = q.limit)
    (hd : ¬ Disjoint p.sectors q.sectors) : ∃ text, p.union q = .err (.msg text) := by
  obtain ⟨text, ht⟩ := insertEach_of_not_fits (wf_new hp.limit_lt)
    (mt (fitsAll_unionRanges hp hq hl).mp hd)
  exact ⟨text, by rw [union, if_neg (not_not.mpr hl), ht]⟩

theorem fitsAll_iff : p.FitsAll rs ↔ (new p.limit).FitsAll rs ∧ Disjoint p.sectors (cells rs) := by
  rw [disjoint_comm, disjoint_cells_left]
  have hone : ∀ r : Range, p.Fits r ↔ (new p.limit).Fits r ∧ Disjoint r.cells p.sectors := by
    intro r
    by_cases hr : r.2 = 0
    · simp [Fits, new, hr, Range.cells_eq_empty]
    · have hfree : Disjoint r.cells (new p.limit).sectors := by simp
      simp only [Fits, hr, false_or, hfree, and_true]
      exact and_assoc.symm
  simp only [FitsAll, hone, forall_and]
  tauto

theorem insertAll_of_fits (h : p.WF) (hf : p.FitsAll rs) :
    ∃ q, p.insertAll rs = .ok q ∧ q.WF ∧ q.limit = p.limit ∧ q.sectors = p.sectors ∪ cells rs := by
  obtain ⟨hnew, hd⟩ := fitsAll_iff.mp hf
  obtain ⟨t, ht, htwf, htlim, htsec⟩ := insertEach_of_fits (wf_new h.limit_lt) hnew
  rw [sectors_new, empty_union] at htsec
  obtain ⟨u, hu, huwf, hulim, husec⟩ := union_of_disjoint h htwf htlim.symm (htsec ▸ hd)
  have he : ({ p with used := u.used } : PerDevSegments) = u := by
    cases u; simp only [mk.injEq, and_true]; exact hulim.symm
  refine ⟨u, ?_, huwf, hulim, by rw [husec, htsec]⟩
  rw [insertAll, ht, ok_bind, hu, ok_bind, he]

theorem insertAll_of_not_fits (h : p.WF) (hf : ¬ p.FitsAll rs) :
    ∃ text, p.insertAll rs = .err (.msg text) := by
  by_cases hnew : (new p.limit).FitsAll rs
  · obtain ⟨t, ht, htwf, htlim, htsec⟩ := insertEach_of_fits (wf_new h.limit_lt) hnew
    rw [sectors_new, empty_union] at htsec
    obtain ⟨text, hu⟩ := union_of_not_disjoint h htwf htlim.symm fun hd =>
      hf (fitsAll_iff.mpr ⟨hnew, htsec ▸ hd⟩)
    exact ⟨text, by rw [insertAll, ht, ok_bind, hu, err_bind]⟩
  · obtain ⟨text, ht⟩ := insertEach_of_not_fits (wf_new h.limit_lt) hnew
    exact ⟨text, by rw [insertAll, ht, err_bind]⟩

/-! ### Free ranges and requests -/

theorem complementFrom_spec {limit : ℕ} {prevEnd : ℕ} (hc : Canonical rs)
    (hw : ∀ r ∈ rs, r.1 + r.2 ≤ limit) (hp : ∀ r ∈ rs, prevEnd ≤ r.1) :
    Canonical (complementFrom limit prevEnd rs) ∧
      (∀ r ∈ complementFrom limit prevEnd rs, prevEnd ≤ r.1) ∧
      cells (complementFrom limit prevEnd rs) = Finset.Ico prevEnd limit \ cells rs := by
  induction rs generalizing prevEnd with
  | nil =>
    rw [complementFrom]
    split_ifs with h
    · refine ⟨canonical_cons.mpr ⟨by simp only; omega, by simp, canonical_nil⟩, by simp, ?_⟩
      ext x
      simp only [cells_cons, cells_nil, mem_union, Range.mem_cells, notMem_empty,
        or_false, mem_sdiff, not_false_eq_true, and_true, mem_Ico]
      omega
    · refine ⟨canonical_nil, by simp, ?_⟩
      simp [Finset.Ico_eq_empty h]
  | cons r rs ih =>
    obtain ⟨s, l⟩ := r
    obtain ⟨hl, hgap, hcr⟩ := canonical_cons.mp hc
    have hs := hp (s, l) (by simp)
    have hsl := hw (s, l) (by simp)
    simp only at hl hs hsl hgap
    obtain ⟨ic, ip, icells⟩ := ih hcr (fun r hr => hw r (by simp [hr]))
      (fun r hr => show s + l ≤ r.1 from (hgap r hr).le)
    rw [complementFrom]
    -- the cells in front of the first used range, then those behind it
    have hcells : Range.cells (prevEnd, s - prevEnd) ∪ cells (complementFrom limit (s + l) rs) =
        Finset.Ico prevEnd limit \ cells ((s, l) :: rs) := by
      rw [icells]
      ext x
      have hrest : x ∈ cells rs → s + l < x := fun hx => (hc.mem_tail.mp hx).2
      simp only [cells_cons, mem_union, mem_sdiff, mem_Ico, Range.mem_cells]
      by_cases hx : x ∈ cells rs
      · have := hrest hx
        simp only [hx, or_true, not_true_eq_false, and_false, or_false, iff_false]
        omega
      · simp only [hx, or_false, not_false_eq_true, and_true]
        omega
    split_ifs with h
    · refine ⟨canonical_cons.mpr ⟨Nat.pos_of_ne_zero h, fun q hq => ?_, ic⟩, fun q hq => ?_, hcells⟩
      · have := ip q hq
        simp only
        omega
      · rcases List.mem_cons.mp hq with rfl | hq
        · exact le_rfl
        · have := ip q hq
          omega
    · refine ⟨ic, fun q hq => ?_, ?_⟩
      · have := ip q hq
        omega
      · rw [← hcells, Range.cells_eq_empty (by simpa using h), empty_union]

theorem WF.complement (h : p.WF) : p.complement.WF ∧
    p.complement.sectors = range p.limit \ p.sectors := by
  obtain ⟨hc, -, hcells⟩ := complementFrom_spec h.canonical h.within (fun r _ => Nat.zero_le r.1)
  rw [← range_eq_Ico] at hcells
  refine ⟨WF.of_subset hc ?_ h.limit_lt, hcells⟩
  exact hcells.le.trans sdiff_subset

end PerDevSegments

namespace RangeAllocator

open PerDevSegments

variable {a : RangeAllocator}

theorem requestFrom_eq {segs : PerDevSegments} {free : List Range} (h : segs.WF)
    (hf : segs.FitsAll free) (needed : ℕ) :
    requestFrom needed segs free = segs.insertEach (takeFront needed free) := by
  induction free generalizing needed segs with
  | nil => rfl
  | cons r free ih =>
    obtain ⟨s, l⟩ := r
    rw [requestFrom, takeFront]
    split_ifs with hn
    · rfl
    · have hfront : segs.Fits (s, min needed l) := by
        obtain ⟨hs, hl⟩ := hf.1 (s, l) (by simp)
        refine ⟨hs, hl.imp (fun hl => by simp only at hl ⊢; omega) fun hl => ⟨?_, ?_⟩⟩
        · have := hl.1
          simp only at this ⊢
          omega
        · refine hl.2.mono_left fun x hx => ?_
          rw [Range.mem_cells] at hx ⊢
          simp only at hx ⊢
          omega
      obtain ⟨m, hm, hwf, hlim, hsec⟩ := insert_of_fits h hfront
      -- what is left of the first range is not needed by the others
      obtain ⟨w, hw, -, hwlim, hwsec⟩ := insert_of_fits h (hf.1 (s, l) (by simp))
      have hrest : m.FitsAll free := by
        obtain ⟨hfree, hsep⟩ := ((fitsAll_cons hwlim hwsec).mp hf).2
        refine ⟨fun q hq => ?_, hsep⟩
        obtain ⟨hq1, hq2⟩ := hfree q hq
        refine ⟨by rw [hlim, ← hwlim]; exact hq1, hq2.imp_right fun hq2 => ?_⟩
        refine ⟨by rw [hlim, ← hwlim]; exact hq2.1, hq2.2.mono_right ?_⟩
        rw [hsec, hwsec]
        refine union_subset_union_right fun x hx => ?_
        rw [Range.mem_cells] at hx ⊢
        simp only at hx ⊢
        omega
      simp only [insertEach, hm, ok_bind]
      exact ih hwf hrest _

theorem request_spec (h : a.segments.WF) (amount : ℕ) :
    ∃ a' segs, a.request amount = .ok (a', segs) ∧ a'.segments.WF ∧ segs.WF ∧
      a'.segments.limit = a.segments.limit ∧ segs.limit = a.segments.limit ∧
      segs.used = takeFront amount a.segments.complement.used ∧
      Disjoint a.segments.sectors segs.sectors ∧
      a'.segments.sectors = a.segments.sectors ∪ segs.sectors := by
  obtain ⟨hcwf, hcsec⟩ := h.complement
  have hempty : (PerDevSegments.new a.segments.limit).WF := wf_new h.limit_lt
  have hfree : (PerDevSegments.new a.segments.limit).FitsAll a.segments.complement.used := by
    refine ⟨fun r hr => ?_, hcwf.canonical.separate⟩
    have hend : r.1 + r.2 ≤ a.segments.limit := hcwf.within r hr
    exact ⟨show r.1 ≤ a.segments.limit by omega, Or.inr ⟨hend, by simp⟩⟩
  have hfront : (PerDevSegments.new a.segments.limit).FitsAll
      (takeFront amount a.segments.complement.used) := by
    refine ⟨fun r hr => ?_, (hcwf.canonical.takeFront amount).separate⟩
    obtain ⟨q, hq, h1, h2⟩ := exists_of_mem_takeFront hr
    have hend : q.1 + q.2 ≤ a.segments.limit := hcwf.within q hq
    exact ⟨show r.1 ≤ a.segments.limit by omega,
      Or.inr ⟨show r.1 + r.2 ≤ a.segments.limit by omega, by simp⟩⟩
  obtain ⟨segs, hsegs, hwf, hlim, hsec⟩ := insertEach_of_fits hempty hfront
  rw [sectors_new, empty_union] at hsec
  have hused : segs.used = takeFront amount a.segments.complement.used :=
    hwf.canonical.ext (hcwf.canonical.takeFront amount) hsec
  have hdis : Disjoint a.segments.sectors segs.sectors := by
    refine disjoint_of_subset_right ?_ (disjoint_sdiff (t := range a.segments.limit))
    rw [hsec, ← hcsec]
    exact cells_takeFront_subset amount _
  obtain ⟨u, hu, huwf, hulim, husec⟩ := union_of_disjoint h hwf hlim.symm hdis
  refine ⟨⟨u⟩, segs, ?_, huwf, hwf, hulim, hlim, hused, hdis, husec⟩
  rw [request, requestFrom_eq hempty hfree, hsegs, ok_bind, hu]

theorem available_eq (h : a.segments.WF) : a.available = total a.segments.complement.used := by
  obtain ⟨hcwf, hcsec⟩ := h.complement
  have hcard := card_sdiff_add_card_eq_card h.sectors_subset
  rw [← hcsec, card_range, ← hcwf.sum_eq, ← h.sum_eq] at hcard
  rw [available, used]
  change _ = a.segments.complement.sum
  omega

theorem used_le (h : a.segments.WF) : a.used ≤ a.segments.limit := h.sum_le

theorem new_of_fits {limit : ℕ} (hl : limit < u64Bound) {rs : List Range}
    (hf : (PerDevSegments.new limit).FitsAll rs) :
    ∃ b, RangeAllocator.new limit rs = .ok b ∧ b.segments.WF ∧ b.segments.limit = limit ∧
      b.segments.sectors = cells rs := by
  obtain ⟨q, hq, hwf, hlim, hsec⟩ := insertAll_of_fits (wf_new hl) hf
  exact ⟨⟨q⟩, by rw [RangeAllocator.new, hq, ok_bind], hwf, hlim, by simpa using hsec⟩

theorem new_of_not_fits {limit : ℕ} (hl : limit < u64Bound) {rs : List Range}
    (hf : ¬ (PerDevSegments.new limit).FitsAll rs) :
    ∃ text, RangeAllocator.new limit rs = .err (.msg text) := by
  obtain ⟨text, ht⟩ := insertAll_of_not_fits (wf_new hl) hf
  exact ⟨text, by rw [RangeAllocator.new, ht, err_bind]⟩

theorem new_eq_ok {limit : ℕ} (hl : limit < u64Bound) {rs : List Range} {b : RangeAllocator}
    (h : RangeAllocator.new limit rs = .ok b) :
    (PerDevSegments.new limit).FitsAll rs ∧ b.segments.WF ∧ b.segments.limit = limit ∧
      b.segments.sectors = cells rs := by
  by_cases hf : (PerDevSegments.new limit).FitsAll rs
  · obtain ⟨c, hc, hwf, hlim, hsec⟩ := new_of_fits hl hf
    rw [hc, ok.injEq] at h
    subst h
    exact ⟨hf, hwf, hlim, hsec⟩
  · obtain ⟨text, ht⟩ := new_of_not_fits hl hf
    rw [ht] at h
    cases h

end RangeAllocator

end Stratisd.Backstore
