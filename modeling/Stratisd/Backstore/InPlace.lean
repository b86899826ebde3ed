import Stratisd.Backstore.RangeAllocSpec
import Stratisd.Run.Stateful

/-! The ranges of a device as the code changes them: the map is edited in place, and a number
of sectors has 64 bits, so that a sum stops the daemon or wraps when it does not fit. On ranges
that keep their invariant each operation does what its pure counterpart says, however the
daemon was built: no sum overflows and nothing that is expected is missing. -/

namespace Stratisd.Backstore

open Run Run.Outcome Run.Stateful Engine Extent

namespace PerDevSegments.InPlace

variable (overflowChecks : Bool)

/-- Join a range to the one in front of it, if they touch. -/
def joinPrev (p : PerDevSegments) (prev : Option ℕ) (range : Range) :
    StratisResult (Option Range × Range) :=
  match prev with
  | none => .ok (none, range)
  | some prev => do
    let prevLen ← Outcome.expect (OrderedMap.get prev p.used)
    let prevEnd ← addU64 overflowChecks prev prevLen
    if prevEnd > range.1 then
      .err (.msg s!"range to add {displayRange range} overlaps previous range {displayRange (prev, prevLen)}")
    else if prevEnd = range.1 then do
      let len ← addU64 overflowChecks prevLen range.2
      .ok (none, (prev, len))
    else .ok (some (prev, prevLen), range)

/-- Join a range to the one behind it, if they touch. -/
def joinNext (p : PerDevSegments) (next : Option ℕ) (range : Range) :
    StratisResult (Range × Option Range) :=
  match next with
  | none => .ok (range, none)
  | some next => do
    let newEnd ← addU64 overflowChecks range.1 range.2
    if newEnd > next then
      .err (.msg s!"range to add {displayRange range} overlaps subsequent range starting at {displaySectors next}")
    else do
      let nextLen ← Outcome.expect (OrderedMap.get next p.used)
      if newEnd = next then do
        let len ← addU64 overflowChecks range.2 nextLen
        .ok ((range.1, len), none)
      else .ok (range, some (next, nextLen))

def insertionResult (p : PerDevSegments) (prev next : Option ℕ) (range : Range) :
    StratisResult (Option Range × Range × Option Range) :=
  if range.2 = 0 then .panic
  -- `checked_add`
  else if !fitsU64 (range.1 + range.2) then
    .err (.msg s!"range {displayRange range} extends beyond maximum possible size")
  else if range.1 + range.2 > p.limit then
    .err (.msg s!"range {displayRange range} extends beyond limit {displaySectors p.limit}")
  else do
    let (lhs, range) ← joinPrev overflowChecks p prev range
    let (range, rhs) ← joinNext overflowChecks p next range
    .ok (lhs, range, rhs)

/-- Take a neighbour that has been joined out of the map. -/
def removeJoined (key : Option ℕ) (kept : Option Range) : Stateful PerDevSegments StratisError Unit :=
  Stateful.modify fun p => { p with used := dropJoined key kept p.used }

/-- Put a range into the map, and return the length of the range it replaces. -/
def putRange (range : Range) : Stateful PerDevSegments StratisError (Option ℕ) := fun p =>
  ({ p with used := OrderedMap.insert range.1 range.2 p.used }, .ok (OrderedMap.get range.1 p.used))

def insert (range : Range) : Stateful PerDevSegments StratisError Unit := do
  let p ← Stateful.get
  if range.1 > p.limit then
    Stateful.lift (.err (.msg s!"value specified for start of range, {displaySectors range.1}, exceeds limit, {displaySectors p.limit}"))
  else if range.2 = 0 then pure ()
  else do
    let (prev, next) := p.locatePrevAndNext range.1
    let (prevRes, range, nextRes) ← Stateful.lift (insertionResult overflowChecks p prev next range)
    removeJoined prev prevRes
    removeJoined next nextRes
    let replaced ← putRange range
    Stateful.lift (if replaced.isSome then .panic else .ok ())

def insertEach (ranges : List Range) : Stateful PerDevSegments StratisError Unit :=
  Stateful.forEach (insert overflowChecks) ranges

def union (p q : PerDevSegments) : StratisResult PerDevSegments :=
  if p.limit ≠ q.limit then
    .err (.msg "limits differ between PerDevSegments structs, can not do a union")
  else (insertEach overflowChecks (p.unionRanges q)).exec (new p.limit)

def insertAll (ranges : List Range) : Stateful PerDevSegments StratisError Unit := do
  let p ← Stateful.get
  let temp ← Stateful.lift ((insertEach overflowChecks ranges).exec (new p.limit))
  let union ← Stateful.lift (union overflowChecks p temp)
  Stateful.modify fun p => { p with used := union.used }

def sumFrom (acc : ℕ) : List Range → StratisResult ℕ
  | [] => .ok acc
  | (_, len) :: rest => do
    let acc ← addU64 overflowChecks acc len
    sumFrom acc rest

def sum (p : PerDevSegments) : StratisResult ℕ := sumFrom overflowChecks 0 p.used

/-- The loop over the used ranges: the free ranges found so far, and the end of the last
used range. -/
def complementLoop (free : List Range) (prevEnd : ℕ) : List Range → StratisResult (List Range × ℕ)
  | [] => .ok (free, prevEnd)
  | (start, len) :: rest => do
    let range ← subU64 overflowChecks start prevEnd
    let end_ ← addU64 overflowChecks start len
    complementLoop (if range ≠ 0 then OrderedMap.insert prevEnd range free else free) end_ rest

def complement (p : PerDevSegments) : StratisResult PerDevSegments := do
  let (free, prevEnd) ← complementLoop overflowChecks [] 0 p.used
  .ok ⟨p.limit, if prevEnd < p.limit then OrderedMap.insert prevEnd (p.limit - prevEnd) free else free⟩

/-! ### What the code does on ranges that keep their invariant -/

variable {overflowChecks} {p q : PerDevSegments} {range : Range}

theorem joinPrev_eq (h : p.WF) (hend : range.1 + range.2 ≤ p.limit) (prev : Option ℕ) :
    joinPrev overflowChecks p prev range = p.joinPrev prev range := by
  cases prev with
  | none => rfl
  | some prev =>
    rw [joinPrev, PerDevSegments.joinPrev]
    cases hget : OrderedMap.get prev p.used with
    | none => rfl
    | some prevLen =>
      have hlim := h.limit_lt
      have hprev : prev + prevLen ≤ p.limit :=
        h.within (prev, prevLen) ((OrderedMap.mem_iff_get h.sorted).mpr hget)
      simp only [expect_some, ok_bind]
      rw [addU64_of_lt (by omega), ok_bind]
      split_ifs with hover htouch
      · rfl
      · rw [addU64_of_lt (by omega), ok_bind]
      · rfl

theorem joinNext_eq (h : p.WF) (hend : range.1 + range.2 ≤ p.limit) (next : Option ℕ) :
    joinNext overflowChecks p next range = p.joinNext next range := by
  cases next with
  | none => rfl
  | some next =>
    have hlim := h.limit_lt
    rw [joinNext, PerDevSegments.joinNext, addU64_of_lt (by omega), ok_bind]
    cases hget : OrderedMap.get next p.used with
    | none => rfl
    | some nextLen =>
      have hnext : next + nextLen ≤ p.limit :=
        h.within (next, nextLen) ((OrderedMap.mem_iff_get h.sorted).mpr hget)
      simp only [expect_some, ok_bind]
      split_ifs with hover htouch
      · rfl
      · rw [addU64_of_lt (by omega), ok_bind]
      · rfl

theorem joinPrev_end {prev : Option ℕ} {lhs : Option Range} {joined : Range}
    (h : p.joinPrev prev range = .ok (lhs, joined)) :
    joined.1 + joined.2 = range.1 + range.2 := by
  unfold PerDevSegments.joinPrev at h
  split at h
  · cases h
    rfl
  · split at h
    · cases h
    · split_ifs at h with hover htouch
      · cases h
        simp only
        omega
      · cases h
        rfl

theorem insertionResult_eq (h : p.WF) (prev next : Option ℕ) (range : Range) :
    insertionResult overflowChecks p prev next range = p.insertionResult prev next range := by
  rw [insertionResult, PerDevSegments.insertionResult]
  split_ifs with hlen hfit hend
  · rfl
  · rfl
  · rfl
  · rw [joinPrev_eq h (not_lt.mp hend)]
    refine bind_congr fun joined hjoin => ?_
    have hends := joinPrev_end hjoin
    dsimp only
    rw [joinNext_eq h (by omega)]

/-- The state and the result that a pure computation of the next state stands for. -/
def settle (p : PerDevSegments) : StratisResult PerDevSegments → PerDevSegments × StratisResult Unit
  | .ok q => (q, .ok ())
  | .err e => (p, .err e)
  | .panic => (p, .panic)

theorem eq_ok_iff_of_sectors {x : StratisResult PerDevSegments} {C : Prop} {limit : ℕ}
    {cs : Finset ℕ} (hok : C → ∃ u, x = .ok u ∧ u.WF ∧ u.limit = limit ∧ u.sectors = cs)
    (herr : ¬ C → ∃ text, x = .err (.msg text)) :
    x = .ok q ↔ C ∧ q.WF ∧ q.limit = limit ∧ q.sectors = cs := by
  by_cases hC : C
  · obtain ⟨u, hu, hwf, hlim, hsec⟩ := hok hC
    rw [hu, ok.injEq]
    constructor
    · rintro rfl
      exact ⟨hC, hwf, hlim, hsec⟩
    · rintro ⟨-, hqwf, hqlim, hqsec⟩
      exact hwf.ext hqwf (hlim.trans hqlim.symm) (hsec.trans hqsec.symm)
  · obtain ⟨text, ht⟩ := herr hC
    simp [ht, hC]

theorem insert_eq_ok_iff (h : p.WF) :
    p.insert range = .ok q ↔
      p.Fits range ∧ q.WF ∧ q.limit = p.limit ∧ q.sectors = p.sectors ∪ range.cells :=
  eq_ok_iff_of_sectors (insert_of_fits h) (insert_of_not_fits h)

theorem insert_ne_panic (h : p.WF) (range : Range) : p.insert range ≠ .panic := by
  by_cases hf : p.Fits range
  · obtain ⟨u, hu, -⟩ := insert_of_fits h hf
    simp [hu]
  · obtain ⟨text, ht⟩ := insert_of_not_fits h hf
    simp [ht]

theorem insert_eq (h : p.WF) (range : Range) :
    insert overflowChecks range p = settle p (p.insert range) := by
  have hne := insert_ne_panic h range
  rw [insert, get_bind]
  unfold PerDevSegments.insert at hne ⊢
  split_ifs at hne ⊢ with hs hl
  · rfl
  · rfl
  · dsimp only at hne ⊢
    rw [insertionResult_eq h]
    cases hres : p.insertionResult (p.locatePrevAndNext range.1).1 (p.locatePrevAndNext range.1).2
        range with
    | err e => rfl
    | panic => rfl
    | ok res =>
      rw [hres, ok_bind] at hne
      rw [lift_ok_bind, ok_bind]
      -- the key is free, or the pure insertion would not return
      cases hget : OrderedMap.get res.2.1.1 (dropJoined (p.locatePrevAndNext range.1).2 res.2.2
          (dropJoined (p.locatePrevAndNext range.1).1 res.1 p.used)) with
      | some len =>
        rw [hget] at hne
        exact absurd rfl hne
      | none =>
        simp only [removeJoined, bind_apply, modify_apply, putRange, hget,
          Option.isSome_none, Bool.false_eq_true, if_false, lift_apply, settle]

theorem exec_insertEach (h : p.WF) (ranges : List Range) :
    (insertEach overflowChecks ranges).exec p = p.insertEach ranges := by
  induction ranges generalizing p with
  | nil => rfl
  | cons range ranges ih =>
    rw [PerDevSegments.insertEach]
    cases hins : p.insert range with
    | ok q =>
      have hstep : insert overflowChecks range p = (q, .ok ()) := by rw [insert_eq h, hins]; rfl
      have hq : q.WF := ((insert_eq_ok_iff h).mp hins).2.1
      rw [ok_bind, ← ih hq, insertEach, forEach, Stateful.exec,
        bind_of_eq hstep]
      rfl
    | err e =>
      have hstep : (insert overflowChecks range p).2 = .err e := by rw [insert_eq h, hins]; rfl
      rw [insertEach, forEach, Stateful.exec, bind_of_err hstep]
      rfl
    | panic => exact absurd hins (insert_ne_panic h range)

theorem union_eq (h : p.WF) (q : PerDevSegments) : union overflowChecks p q = p.union q := by
  rw [union, PerDevSegments.union, exec_insertEach (wf_new h.limit_lt)]

theorem insertAll_eq (h : p.WF) (ranges : List Range) :
    insertAll overflowChecks ranges p = settle p (p.insertAll ranges) := by
  rw [insertAll, get_bind, exec_insertEach (wf_new h.limit_lt), PerDevSegments.insertAll]
  cases (new p.limit).insertEach ranges with
  | err e => rfl
  | panic => rfl
  | ok temp =>
    rw [lift_ok_bind, ok_bind, union_eq h]
    cases p.union temp <;> rfl

/-- The ranges that can be built, by calls that return and by calls that fail. -/
inductive Built (overflowChecks : Bool) : PerDevSegments → Prop
  | new {limit : ℕ} (h : limit < u64Bound) : Built overflowChecks (PerDevSegments.new limit)
  | insert {p : PerDevSegments} (h : Built overflowChecks p) (range : Range) :
    Built overflowChecks (insert overflowChecks range p).1
  | insertAll {p : PerDevSegments} (h : Built overflowChecks p) (ranges : List Range) :
    Built overflowChecks (insertAll overflowChecks ranges p).1
  | union {p q u : PerDevSegments} (hp : Built overflowChecks p) (hq : Built overflowChecks q)
    (hu : union overflowChecks p q = .ok u) : Built overflowChecks u

theorem insertAll_eq_ok_iff (h : p.WF) {ranges : List Range} :
    p.insertAll ranges = .ok q ↔
      p.FitsAll ranges ∧ q.WF ∧ q.limit = p.limit ∧ q.sectors = p.sectors ∪ cells ranges :=
  eq_ok_iff_of_sectors (insertAll_of_fits h) (insertAll_of_not_fits h)

theorem union_eq_ok_iff {u : PerDevSegments} (hp : p.WF) (hq : q.WF) :
    p.union q = .ok u ↔ p.limit = q.limit ∧ Disjoint p.sectors q.sectors ∧
      u.WF ∧ u.limit = p.limit ∧ u.sectors = p.sectors ∪ q.sectors := by
  rw [← and_assoc]
  refine eq_ok_iff_of_sectors (fun h => union_of_disjoint hp hq h.1 h.2) fun h => ?_
  by_cases hl : p.limit = q.limit
  · exact union_of_not_disjoint hp hq hl fun hd => h ⟨hl, hd⟩
  · exact ⟨_, by rw [PerDevSegments.union, if_pos hl]⟩

theorem Built.wf (h : Built overflowChecks p) : p.WF := by
  induction h with
  | new h => exact wf_new h
  | @insert p _ range ih =>
    rw [insert_eq ih]
    cases hins : p.insert range with
    | ok q => exact ((insert_eq_ok_iff ih).mp hins).2.1
    | err e => exact ih
    | panic => exact ih
  | @insertAll p _ ranges ih =>
    rw [insertAll_eq ih]
    cases hins : p.insertAll ranges with
    | ok q => exact ((insertAll_eq_ok_iff ih).mp hins).2.1
    | err e => exact ih
    | panic => exact ih
  | union _ _ hu ihp ihq =>
    rw [union_eq ihp] at hu
    exact ((union_eq_ok_iff ihp ihq).mp hu).2.2.1

theorem disjoint_sectors {cs : Finset ℕ} : Disjoint cs p.sectors ↔ ∀ r ∈ p.used, Disjoint cs r.cells := by
  rw [disjoint_comm, sectors, disjoint_cells_left]
  exact forall₂_congr fun r _ => disjoint_comm

theorem fits_iff (h : p.WF) : p.Fits range ↔
    range.1 ≤ p.limit ∧ (range.2 = 0 ∨ range.1 + range.2 < u64Bound ∧
      range.1 + range.2 ≤ p.limit ∧ ∀ r ∈ p.used, Disjoint range.cells r.cells) := by
  have hlim := h.limit_lt
  rw [Fits, disjoint_sectors]
  refine and_congr_right fun _ => or_congr_right ?_
  constructor
  · rintro ⟨hend, hd⟩
    exact ⟨by omega, hend, hd⟩
  · rintro ⟨-, hend, hd⟩
    exact ⟨hend, hd⟩

/-- Ranges that were built are separate and inside the device. A range can be inserted into them
exactly if it is free; the sectors are then those of both. However the daemon was built, nothing
in the insertion overflows or is missing. -/
theorem built_faithful (h : Built overflowChecks p) :
    ((∀ r ∈ p.used, r.2 ≠ 0) ∧ p.used.IsChain (fun r q => r.1 + r.2 < q.1) ∧
      ∀ r ∈ p.used.getLast?, r.1 + r.2 ≤ p.limit) ∧
    ∀ range : Range,
      ((insert overflowChecks range p).2 = .ok () ↔
        range.1 ≤ p.limit ∧ (range.2 = 0 ∨ range.1 + range.2 < u64Bound ∧
          range.1 + range.2 ≤ p.limit ∧ ∀ r ∈ p.used, Disjoint range.cells r.cells)) ∧
      ((insert overflowChecks range p).2 = .ok () →
        (insert overflowChecks range p).1.limit = p.limit ∧
          (insert overflowChecks range p).1.sectors = p.sectors ∪ range.cells) ∧
      (∀ e, (insert overflowChecks range p).2 = .err e → (insert overflowChecks range p).1 = p) ∧
      ∀ checks, insert checks range p = insert overflowChecks range p ∧
        (insert checks range p).2 ≠ .panic := by
  have hwf := h.wf
  refine ⟨⟨fun r hr => (hwf.canonical.pos r hr).ne', hwf.canonical.gap.isChain, fun r hr =>
    hwf.within r (List.mem_of_mem_getLast? hr)⟩, fun range => ?_⟩
  rw [← fits_iff hwf]
  simp only [insert_eq hwf, true_and]
  by_cases hf : p.Fits range
  · obtain ⟨q, hq, -, hlim, hsec⟩ := insert_of_fits hwf hf
    simp [hq, settle, hf, hlim, hsec]
  · obtain ⟨text, ht⟩ := insert_of_not_fits hwf hf
    simp [ht, settle, hf]

/-- Touching ranges are joined, and the sectors in between are free. -/
theorem built_faithful_touching :
    (insert true (5, 2) (insert true (2, 3) (PerDevSegments.new 10)).1).2 = .ok () ∧
      (insert true (5, 2) (insert true (2, 3) (PerDevSegments.new 10)).1).1.sectors =
        Finset.Ico 2 5 ∪ Finset.Ico 5 7 := by
  have h : Built true (insert true (2, 3) (PerDevSegments.new 10)).1 :=
    .insert (.new (by decide)) (2, 3)
  have hok := ((built_faithful h).2 (5, 2)).1.mpr (by decide)
  exact ⟨hok, (((built_faithful h).2 (5, 2)).2.1 hok).2⟩

/-- All ranges can be added: each starts inside the device, and the ones that are not empty are
free and separate. -/
theorem fitsAll_iff_ranges {ranges : List Range} : p.FitsAll ranges ↔
    (∀ r ∈ ranges, r.1 ≤ p.limit ∧
      (r.2 ≠ 0 → r.1 + r.2 ≤ p.limit ∧ ∀ s ∈ p.used, Disjoint r.cells s.cells)) ∧
    ranges.Pairwise fun r q => r.2 ≠ 0 → q.2 ≠ 0 → Disjoint r.cells q.cells := by
  rw [FitsAll, Separate]
  refine and_congr (forall₂_congr fun r _ => ?_) (List.Pairwise.iff fun {r q} => ?_)
  · rw [Fits, disjoint_sectors, ← or_iff_not_imp_left]
  · rw [Range.disjoint_cells]
    tauto

theorem settle_eq_ok {x : StratisResult PerDevSegments} : settle p x = (q, .ok ()) ↔ x = .ok q := by
  cases x <;> simp [settle]

/-- Ranges are inserted all together or not at all, in whatever order they are given. -/
theorem insertAll_union_order (overflowChecks : Bool) :
    (∀ p : PerDevSegments, p.WF → ∀ ranges : List Range,
      ((insertAll overflowChecks ranges p).2 = .ok () ↔
        (∀ r ∈ ranges, r.1 ≤ p.limit ∧
          (r.2 ≠ 0 → r.1 + r.2 ≤ p.limit ∧ ∀ s ∈ p.used, Disjoint r.cells s.cells)) ∧
        ranges.Pairwise fun r q => r.2 ≠ 0 → q.2 ≠ 0 → Disjoint r.cells q.cells) ∧
      (∀ q, insertAll overflowChecks ranges p = (q, .ok ()) →
        q.WF ∧ q.limit = p.limit ∧ q.sectors = p.sectors ∪ cells ranges ∧
        (∀ ranges' : List Range, ranges.Perm ranges' →
          insertAll overflowChecks ranges' p = (q, .ok ())) ∧
        insertEach overflowChecks ranges p = (q, .ok ())) ∧
      (∀ e, (insertAll overflowChecks ranges p).2 = .err e →
        (insertAll overflowChecks ranges p).1 = p) ∧
      (insertAll overflowChecks ranges p).2 ≠ .panic) ∧
    ∀ a b : PerDevSegments, a.WF → b.WF → a.limit = b.limit →
      ((∃ u, union overflowChecks a b = .ok u) ↔ Disjoint a.sectors b.sectors) ∧
      (Disjoint a.sectors b.sectors → union overflowChecks a b = union overflowChecks b a) ∧
      union overflowChecks a b ≠ .panic := by
  refine ⟨fun p hp ranges => ?_, fun a b ha hb hl => ?_⟩
  · rw [← fitsAll_iff_ranges]
    simp only [insertAll_eq hp, settle_eq_ok]
    by_cases hf : p.FitsAll ranges
    · obtain ⟨u, hu, hwf, hlim, hsec⟩ := insertAll_of_fits hp hf
      refine ⟨by simp [hu, settle, hf], fun q hq => ?_, by simp [hu, settle], by simp [hu, settle]⟩
      obtain rfl : u = q := Outcome.ok.inj (hu.symm.trans hq)
      refine ⟨hwf, hlim, hsec, fun ranges' hperm => ?_, ?_⟩
      · exact (insertAll_eq_ok_iff hp).mpr ⟨hf.perm hperm, hwf, hlim, by rw [hsec, cells_perm hperm]⟩
      · -- one by one the same sectors are reached
        obtain ⟨v, hv, hvwf, hvlim, hvsec⟩ := insertEach_of_fits hp hf
        obtain rfl : v = u := hvwf.ext hwf (hvlim.trans hlim.symm) (hvsec.trans hsec.symm)
        exact Stateful.exec_eq_ok.mp ((exec_insertEach hp ranges).trans hv)
    · obtain ⟨text, ht⟩ := insertAll_of_not_fits hp hf
      simp [ht, settle, hf]
  · rw [union_eq ha, union_eq hb]
    by_cases hd : Disjoint a.sectors b.sectors
    · obtain ⟨u, hu, hwf, hlim, hsec⟩ := union_of_disjoint ha hb hl hd
      have hswap : b.union a = .ok u := (union_eq_ok_iff hb ha).mpr
        ⟨hl.symm, hd.symm, hwf, hlim.trans hl, by rw [hsec, Finset.union_comm]⟩
      simp [hu, hswap, hd]
    · obtain ⟨text, ht⟩ := union_of_not_disjoint ha hb hl hd
      simp [ht, hd]

/-- Two ranges and an empty one, given in either order. -/
theorem insertAll_union_order_swapped :
    ∃ q, insertAll true [(4, 2), (9, 0), (1, 3)] (PerDevSegments.new 10) = (q, .ok ()) ∧
      insertAll true [(1, 3), (4, 2), (9, 0)] (PerDevSegments.new 10) = (q, .ok ()) := by
  have hwf : (PerDevSegments.new 10).WF := wf_new (by decide)
  obtain ⟨hiff, hok, -, -⟩ := (insertAll_union_order true).1 _ hwf [(4, 2), (9, 0), (1, 3)]
  have h : insertAll true [(4, 2), (9, 0), (1, 3)] (PerDevSegments.new 10) = (_, .ok ()) :=
    Prod.ext rfl (hiff.mpr (by decide))
  exact ⟨_, h, (hok _ h).2.2.2.1 _ (by decide)⟩

/-! ### Sums and free ranges -/

theorem sumFrom_eq {acc : ℕ} {rs : List Range} (h : acc + total rs < u64Bound) :
    sumFrom overflowChecks acc rs = .ok (acc + total rs) := by
  induction rs generalizing acc with
  | nil => rfl
  | cons r rs ih =>
    rw [total_cons] at h ⊢
    rw [sumFrom, addU64_of_lt (by omega), ok_bind, ih (by omega), Nat.add_assoc]

theorem sumFrom_eq_ok {acc n : ℕ} {rs : List Range} (hacc : acc < u64Bound)
    (h : sumFrom overflowChecks acc rs = .ok n) : n = (acc + total rs) % u64Bound := by
  induction rs generalizing acc with
  | nil => rw [← ok.inj h, total_nil, Nat.add_zero, Nat.mod_eq_of_lt hacc]
  | cons r rs ih =>
    obtain ⟨acc', hadd, hrest⟩ := Outcome.bind_eq_ok.mp h
    obtain rfl := addU64_eq_ok hadd
    rw [ih (Nat.mod_lt _ (by decide)) hrest, total_cons, Nat.mod_add_mod, Nat.add_assoc]

theorem fits_of_sumFrom {acc n : ℕ} {rs : List Range} (hacc : acc < u64Bound)
    (h : sumFrom true acc rs = .ok n) : acc + total rs < u64Bound := by
  induction rs generalizing acc with
  | nil => exact hacc
  | cons r rs ih =>
    obtain ⟨acc', hadd, hrest⟩ := Outcome.bind_eq_ok.mp h
    simp only [addU64, if_true] at hadd
    split_ifs at hadd with hfits
    obtain rfl := ok.inj hadd
    rw [total_cons, ← Nat.add_assoc]
    exact ih (of_decide_eq_true hfits) hrest

theorem sum_eq (h : p.WF) : sum overflowChecks p = .ok p.sum := by
  have hle := h.sum_le
  have hlim := h.limit_lt
  rw [PerDevSegments.sum] at hle ⊢
  rw [sum, sumFrom_eq (by omega), Nat.zero_add]

/-- The loop puts each free range behind the ones found before it. -/
theorem complementLoop_eq (overflowChecks : Bool) {limit : ℕ} {rs : List Range} {prevEnd : ℕ}
    (hc : Canonical rs) (hw : ∀ r ∈ rs, r.1 + r.2 ≤ limit) (hlim : limit < u64Bound)
    (hp : ∀ r ∈ rs, prevEnd ≤ r.1) (free : List Range) (hfree : ∀ r ∈ free, r.1 < prevEnd) :
    ∃ free' end_, complementLoop overflowChecks free prevEnd rs = .ok (free', end_) ∧
      (if end_ < limit then OrderedMap.insert end_ (limit - end_) free' else free') =
        free ++ complementFrom limit prevEnd rs := by
  induction rs generalizing free prevEnd with
  | nil =>
    refine ⟨free, prevEnd, rfl, ?_⟩
    rw [complementFrom]
    split_ifs
    · exact OrderedMap.insert_last hfree
    · simp
  | cons r rs ih =>
    obtain ⟨start, len⟩ := r
    obtain ⟨hlen, hgap, hcr⟩ := canonical_cons.mp hc
    have hstart := hp (start, len) (by simp)
    have hend := hw (start, len) (by simp)
    simp only at hlen hgap hstart hend
    rw [complementLoop, subU64_of_le hstart, ok_bind, addU64_of_lt (by omega),
      ok_bind, complementFrom]
    have hrest := ih hcr (fun r hr => hw r (by simp [hr])) (fun r hr => (hgap r hr).le)
    split_ifs with h0
    · rw [OrderedMap.insert_last hfree]
      obtain ⟨free', end_, hloop, hfin⟩ := hrest (free ++ [(prevEnd, start - prevEnd)]) fun r hr => by
        rcases List.mem_append.mp hr with hr | hr
        · have := hfree r hr
          omega
        · rw [List.mem_singleton.mp hr]
          simp only
          omega
      exact ⟨free', end_, hloop, by rw [hfin, List.append_assoc]; rfl⟩
    · exact hrest free fun r hr => by
        have := hfree r hr
        omega

theorem complement_eq (h : p.WF) : complement overflowChecks p = .ok p.complement := by
  obtain ⟨free, end_, hloop, hfin⟩ := complementLoop_eq overflowChecks h.canonical h.within
    h.limit_lt (fun r _ => Nat.zero_le r.1) [] (by simp)
  rw [complement, hloop, ok_bind]
  dsimp only
  rw [hfin, List.nil_append]
  rfl

theorem complement_complement (h : p.WF) : p.complement.complement = p := by
  obtain ⟨hcwf, hcsec⟩ := h.complement
  obtain ⟨hccwf, hccsec⟩ := hcwf.complement
  refine hccwf.ext h rfl ?_
  rw [hccsec, hcsec]
  exact Finset.sdiff_sdiff_eq_self h.sectors_subset

end PerDevSegments.InPlace

namespace RangeAllocator.InPlace

open PerDevSegments

variable (overflowChecks : Bool)

def used (a : RangeAllocator) : StratisResult ℕ := InPlace.sum overflowChecks a.segments

def available (a : RangeAllocator) : StratisResult ℕ := do
  let used ← used overflowChecks a
  subU64 overflowChecks a.segments.limit used

/-- Allocate all the sectors that are available. -/
def requestAll : Stateful RangeAllocator StratisError PerDevSegments := do
  let a ← Stateful.get
  let segs ← Stateful.lift (InPlace.complement overflowChecks a.segments)
  let temp ← Stateful.lift
    ((InPlace.insert overflowChecks (0, a.segments.limit)).exec (PerDevSegments.new a.segments.limit)).unwrap
  Stateful.modify fun _ => ⟨temp⟩
  pure segs

/-- The loop over the free ranges, with the allocated ranges as its state. -/
def requestLoop (needed : ℕ) : List Range → Stateful PerDevSegments StratisError Unit
  | [] => pure ()
  | (start, len) :: rest =>
    if needed = 0 then pure ()
    else do
      let toUse := min needed len
      Stateful.rescue (InPlace.insert overflowChecks (start, toUse)) fun _ => Stateful.lift .panic
      let needed ← Stateful.lift (subU64 overflowChecks needed toUse)
      requestLoop needed rest

def request (amount : ℕ) : Stateful RangeAllocator StratisError PerDevSegments := do
  let a ← Stateful.get
  let free ← Stateful.lift (InPlace.complement overflowChecks a.segments)
  let segs ← Stateful.lift
    ((requestLoop overflowChecks amount free.used).exec (PerDevSegments.new a.segments.limit))
  let segments ← Stateful.lift (InPlace.union overflowChecks a.segments segs).unwrap
  Stateful.modify fun _ => ⟨segments⟩
  pure segs

variable {overflowChecks} {a : RangeAllocator}

theorem available_eq (h : a.segments.WF) : available overflowChecks a = .ok a.available := by
  have hle : a.used ≤ a.segments.limit := used_le h
  have hused : used overflowChecks a = .ok a.used := InPlace.sum_eq h
  rw [available, hused, ok_bind, subU64_of_le hle, RangeAllocator.available]

theorem requestLoop_eq {segs segs' : PerDevSegments} {needed : ℕ} {free : List Range} (h : segs.WF)
    (hr : requestFrom needed segs free = .ok segs') :
    (requestLoop overflowChecks needed free).exec segs = .ok segs' := by
  induction free generalizing needed segs with
  | nil => exact hr
  | cons r free ih =>
    obtain ⟨start, len⟩ := r
    rw [requestFrom] at hr
    rw [requestLoop]
    split_ifs at hr ⊢ with hn
    · exact hr
    · dsimp only at hr
      cases hins : segs.insert (start, min needed len) with
      | err e => rw [hins] at hr; cases hr
      | panic => rw [hins] at hr; cases hr
      | ok next =>
        rw [hins] at hr
        have hnext : next.WF := ((InPlace.insert_eq_ok_iff h).mp hins).2.1
        have hstep : rescue (InPlace.insert overflowChecks (start, min needed len))
            (fun _ => Stateful.lift .panic) segs = (next, .ok ()) := by
          rw [rescue, InPlace.insert_eq h, hins]
          rfl
        rw [Stateful.exec, bind_of_eq hstep, subU64_of_le (min_le_left _ _),
          lift_ok_bind]
        exact ih hnext hr

theorem request_eq (h : a.segments.WF) {amount : ℕ} {a' : RangeAllocator} {segs : PerDevSegments}
    (hr : a.request amount = .ok (a', segs)) :
    request overflowChecks amount a = (a', .ok segs) := by
  obtain ⟨taken, htaken, hr⟩ := Outcome.bind_eq_ok.mp hr
  rw [request, get_bind, InPlace.complement_eq h, lift_ok_bind,
    requestLoop_eq (wf_new h.limit_lt) htaken, lift_ok_bind, InPlace.union_eq h]
  cases hu : a.segments.union taken with
  | err e => rw [hu] at hr; cases hr
  | panic => rw [hu] at hr; cases hr
  | ok segments =>
    rw [hu] at hr
    cases hr
    rfl

theorem request_available (h : a.segments.WF) :
    request overflowChecks a.available a = requestAll overflowChecks a := by
  obtain ⟨hcwf, hcsec⟩ := h.complement
  obtain ⟨a', segs, hr, hwf', hwf, hlim', hlim, hused, -, hsec'⟩ := request_spec h a.available
  rw [request_eq h hr, requestAll, get_bind, InPlace.complement_eq h, lift_ok_bind]
  have hsegs : segs = a.segments.complement := by
    rw [RangeAllocator.available_eq h, hcwf.canonical.takeFront_total] at hused
    exact hwf.ext hcwf hlim (congrArg cells hused)
  have hempty : (PerDevSegments.new a.segments.limit).WF := wf_new h.limit_lt
  have hfull : (PerDevSegments.new a.segments.limit).insert (0, a.segments.limit) =
      .ok a'.segments := by
    refine (InPlace.insert_eq_ok_iff hempty).mpr ⟨⟨Nat.zero_le _, Or.inr ⟨?_, by simp⟩⟩, hwf', hlim', ?_⟩
    · exact (Nat.zero_add _).le
    · rw [hsec', hsegs, hcsec, Finset.union_sdiff_of_subset h.sectors_subset, sectors_new,
        Finset.empty_union, Range.cells, Nat.zero_add, Finset.range_eq_Ico]
  have hexec : (InPlace.insert overflowChecks (0, a.segments.limit)).exec
      (PerDevSegments.new a.segments.limit) = .ok a'.segments := by
    rw [exec_eq_ok, InPlace.insert_eq hempty, hfull]
    rfl
  rw [hexec, unwrap_ok, lift_ok_bind, hsegs]
  rfl

/-- A request returns the lowest free sectors, as many as there are of the amount, and nothing it
expects fails. The free ranges are exactly the sectors that are not used. -/
theorem request_first_fit (h : a.segments.WF) :
    (∃ n, available overflowChecks a = .ok n ∧
      (∀ amount, ∃ a' segs, request overflowChecks amount a = (a', .ok segs) ∧
        total segs.used = min amount n ∧
        segs.sectors ⊆ Finset.range a.segments.limit \ a.segments.sectors ∧
        (∀ x ∈ segs.sectors,
          ∀ y ∈ (Finset.range a.segments.limit \ a.segments.sectors) \ segs.sectors, x < y) ∧
        a'.segments.WF ∧ a'.segments.limit = a.segments.limit ∧
        a'.segments.sectors = a.segments.sectors ∪ segs.sectors) ∧
      request overflowChecks n a = requestAll overflowChecks a) ∧
    ∃ free, InPlace.complement overflowChecks a.segments = .ok free ∧
      free.limit = a.segments.limit ∧
      free.sectors = Finset.range a.segments.limit \ a.segments.sectors ∧
      InPlace.complement overflowChecks free = .ok a.segments := by
  obtain ⟨hcwf, hcsec⟩ := h.complement
  refine ⟨⟨a.available, available_eq h, fun amount => ?_, request_available h⟩,
    a.segments.complement, InPlace.complement_eq h, rfl, hcsec, ?_⟩
  · obtain ⟨a', segs, hr, hwf', -, hlim', -, hused, -, hsec'⟩ := request_spec h amount
    have hsec : segs.sectors = cells (takeFront amount a.segments.complement.used) :=
      congrArg cells hused
    refine ⟨a', segs, request_eq h hr, ?_, ?_, ?_, hwf', hlim', hsec'⟩
    · rw [hused, total_takeFront, RangeAllocator.available_eq h]
    · rw [← hcsec, hsec]
      exact cells_takeFront_subset amount _
    · intro x hx y hy
      obtain ⟨hfree, hout⟩ := Finset.mem_sdiff.mp hy
      rw [← hcsec] at hfree
      rw [hsec] at hx hout
      exact hcwf.canonical.takeFront_lt hx hfree hout
  · rw [InPlace.complement_eq hcwf, InPlace.complement_complement h]

/-- Of ten sectors, three of them used, all seven are handed out. -/
theorem request_first_fit_around :
    ∃ a' segs, request true 8 ⟨⟨10, [(2, 3)]⟩⟩ = (a', .ok segs) ∧ total segs.used = min 8 7 := by
  have hwf : PerDevSegments.WF ⟨10, [(2, 3)]⟩ :=
    ⟨⟨by decide, List.pairwise_singleton _ _⟩, by decide, by decide⟩
  obtain ⟨⟨n, hn, hrequest, -⟩, -⟩ := @request_first_fit true ⟨⟨10, [(2, 3)]⟩⟩ hwf
  have h7 : n = 7 := Outcome.ok.inj (hn.symm.trans (by decide))
  obtain ⟨a', segs, hr, htotal, -⟩ := hrequest 8
  exact ⟨a', segs, hr, h7 ▸ htotal⟩

end RangeAllocator.InPlace

end Stratisd.Backstore
