import Stratisd.Backstore.AllocSpec
import Stratisd.Backstore.Tiers

/-! The data tier over a run. The segments of the tier are what its devices have in use, and
the table built from them only ever grows at its end. -/

namespace Stratisd.Backstore

open Run Run.Outcome Run.Stateful Engine Extent List BlockDevMgr StratBlockDev Layout

/-! ### Coalescing -/

theorem joinBlkdevsegs_eq_some {a b c : BlkDevSegment} (h : joinBlkdevsegs a b = some c) :
    a.uuid = b.uuid ∧ b.segment.start = a.segment.start + a.segment.length ∧
      c = ⟨a.uuid, ⟨a.segment.start, a.segment.length + b.segment.length, a.segment.device⟩⟩ := by
  unfold joinBlkdevsegs at h
  split_ifs at h with hj
  exact ⟨hj.1, hj.2.symm, (Option.some.inj h).symm⟩

theorem totalLength_coalesce (left right : List BlkDevSegment) :
    totalLength (coalesceBlkdevsegs left right) = totalLength left + totalLength right := by
  rw [← totalLength_append]
  refine appendJoining_rule (P := fun segs => totalLength segs = totalLength (left ++ right)) rfl ?_
  intro xs a b c ys hj h
  obtain ⟨-, -, rfl⟩ := joinBlkdevsegs_eq_some hj
  simp only [totalLength, map_append, map_cons, sum_append, sum_cons] at h ⊢
  omega

theorem onDevice_join {xs ys : List BlkDevSegment} {a b c : BlkDevSegment}
    (hj : joinBlkdevsegs a b = some c) (u : DevUuid) :
    onDevice u (xs ++ a :: b :: ys) = onDevice u (xs ++ c :: ys) ∨
      ∃ rs qs s l m, onDevice u (xs ++ a :: b :: ys) = rs ++ (s, l) :: (s + l, m) :: qs ∧
        onDevice u (xs ++ c :: ys) = rs ++ (s, l + m) :: qs := by
  obtain ⟨hu, hs, rfl⟩ := joinBlkdevsegs_eq_some hj
  by_cases ha : a.uuid = u
  · refine Or.inr ⟨onDevice u xs, onDevice u ys, a.segment.start, a.segment.length,
      b.segment.length, ?_, ?_⟩
    · simp [onDevice, ha, hu ▸ ha, BlkDevSegment.range, hs]
    · simp [onDevice, ha, BlkDevSegment.range]
  · left
    simp [onDevice, ha, hu ▸ ha]

variable {b : StratBlockDev}

theorem StratBlockDev.Holds.join {rs qs : List Range} {s l m : ℕ}
    (h : b.Holds (rs ++ (s, l) :: (s + l, m) :: qs)) : b.Holds (rs ++ (s, l + m) :: qs) := by
  refine ⟨h.wf, h.limit, ?_, ?_⟩
  · have := h.separate
    rw [← cons_append] at this ⊢
    exact this.join
  · rw [h.sectors, ← cons_append, ← cons_append, cells_join]

variable {bds : List StratBlockDev} {left right : List BlkDevSegment}

theorem Tracks.join {xs ys : List BlkDevSegment} {a b c : BlkDevSegment}
    (hj : joinBlkdevsegs a b = some c) (h : Tracks bds (xs ++ a :: b :: ys)) :
    Tracks bds (xs ++ c :: ys) := by
  refine ⟨h.nodup, fun d hd => ?_, fun s hs => ?_⟩
  · have hold := h.holds d hd
    rcases onDevice_join hj d.uuid with he | ⟨rs, qs, s, l, m, h1, h2⟩
    · rwa [← he]
    · rw [h1] at hold
      rw [h2]
      exact hold.join
  · obtain ⟨-, -, rfl⟩ := joinBlkdevsegs_eq_some hj
    have ha := h.home a (by simp)
    rcases mem_append.mp hs with hs | hs
    · exact h.home s (by simp [hs])
    · rcases mem_cons.mp hs with rfl | hs
      · exact ⟨Nat.add_pos_left ha.1 _, ha.2⟩
      · exact h.home s (by simp [hs])

theorem Tracks.coalesce_append {rest : List BlkDevSegment}
    (h : Tracks bds (left ++ right ++ rest)) :
    Tracks bds (coalesceBlkdevsegs left right ++ rest) := by
  refine appendJoining_rule (P := fun segs => Tracks bds (segs ++ rest)) h ?_
  intro xs a b c ys hj htr
  rw [append_assoc, cons_append] at htr ⊢
  exact htr.join hj

theorem Tracks.coalesce (h : Tracks bds (left ++ right)) :
    Tracks bds (coalesceBlkdevsegs left right) := by
  rw [← append_nil (left ++ right)] at h
  rw [← append_nil (coalesceBlkdevsegs left right)]
  exact h.coalesce_append

theorem StratBlockDev.Holds.perm {rs qs : List Range} (h : b.Holds rs) (hp : rs.Perm qs) :
    b.Holds qs :=
  ⟨h.wf, h.limit, h.separate.perm (hp.cons _), h.sectors.trans (cells_perm (hp.cons _))⟩

theorem Tracks.perm {history history' : List BlkDevSegment} (h : Tracks bds history)
    (hp : history.Perm history') : Tracks bds history' :=
  ⟨h.nodup, fun b hb => (h.holds b hb).perm ((hp.filter _).map _),
    fun s hs => h.home s (hp.mem_iff.mpr hs)⟩

theorem Tracks.device_eq {history : List BlkDevSegment} (h : Tracks bds history)
    {s t : BlkDevSegment} (hs : s ∈ history) (ht : t ∈ history) (hu : s.uuid = t.uuid) :
    s.segment.device = t.segment.device := by
  obtain ⟨-, b, hb, hbu, hbd⟩ := h.home s hs
  obtain ⟨-, c, hc, hcu, hcd⟩ := h.home t ht
  have : b = c := inj_on_of_nodup_map h.nodup hb hc (by rw [hbu, hcu, hu])
  rw [← hbd, ← hcd, this]

theorem Tracks.address_coalesce (h : Tracks bds (left ++ right)) :
    address ((coalesceBlkdevsegs left right).map (·.piece)) =
      address ((left ++ right).map (·.piece)) := by
  refine (appendJoining_rule (P := fun segs => Tracks bds segs ∧
    address (segs.map (·.piece)) = address ((left ++ right).map (·.piece)))
    ⟨h, rfl⟩ ?_).2
  rintro xs a b c ys hj ⟨htr, heq⟩
  refine ⟨htr.join hj, ?_⟩
  obtain ⟨hu, hs, rfl⟩ := joinBlkdevsegs_eq_some hj
  have hd := htr.device_eq (s := a) (t := b) (by simp) (by simp) hu
  rw [← heq]
  simp only [map_append, map_cons, BlkDevSegment.piece, BlkDevSegment.range, hs, ← hd]
  exact (address_join_append _ _ _ _ _ _).symm

/-! ### The table of a tier -/

/-- A logical sector of the table of the segments. -/
def mapped (segs : List BlkDevSegment) : ℕ → Option (Device × ℕ) := tableLookup (mapToDm segs)

theorem mapped_eq (segs : List BlkDevSegment) :
    mapped segs = address (segs.map (·.piece)) := tableLookup_linearLines_zero

theorem extent_piece (segs : List BlkDevSegment) :
    extent (segs.map (·.piece)) = totalLength segs := by
  rw [extent, map_map, totalLength]
  rfl

theorem mapped_isSome {segs : List BlkDevSegment} {i : ℕ} :
    (mapped segs i).isSome ↔ i < totalLength segs := by
  rw [mapped_eq, address_isSome, extent_piece]

theorem tableLength_mapToDm (segs : List BlkDevSegment) :
    tableLength (mapToDm segs) = totalLength segs := by
  rw [mapToDm, tableLength_linearLines, extent_piece]

/-- Whatever was mapped before is still mapped to the same sector. -/
def Extends (segs segs' : List BlkDevSegment) : Prop :=
  ∀ i a, mapped segs i = some a → mapped segs' i = some a

theorem Extends.refl (segs : List BlkDevSegment) : Extends segs segs := fun _ _ h => h

theorem Extends.trans {segs₁ segs₂ segs₃ : List BlkDevSegment} (h : Extends segs₁ segs₂)
    (h' : Extends segs₂ segs₃) : Extends segs₁ segs₃ := fun i a hi => h' i a (h i a hi)

theorem Tracks.extends_coalesce (h : Tracks bds (left ++ right)) :
    Extends left (coalesceBlkdevsegs left right) := by
  intro i a hi
  have hlt : i < totalLength left := mapped_isSome.mp (by rw [hi]; rfl)
  rw [← hi, mapped_eq, mapped_eq, h.address_coalesce, map_append,
    address_append_left (by rwa [extent_piece])]

theorem Tracks.pieces_apart {segs : List BlkDevSegment} (h : Tracks bds segs)
    (hd : (bds.map (·.dev)).Nodup) : (segs.map (·.piece)).Pairwise Layout.Apart := by
  rw [pairwise_map]
  refine List.Pairwise.imp_of_mem (fun {s t} hs ht hst => ?_) h.apart
  rcases hst with hu | hdis
  · left
    intro he
    obtain ⟨-, b, hb, hbu, hbd⟩ := h.home s hs
    obtain ⟨-, c, hc, hcu, hcd⟩ := h.home t ht
    have : b = c := inj_on_of_nodup_map hd hb hc (by rw [hbd, hcd]; exact he)
    exact hu (by rw [← hbu, ← hcu, this])
  · exact Or.inr hdis

/-! ### Adding devices -/

/-- New devices that nothing has been allocated from, distinct from the devices there are. -/
structure NewDevs (bds new : List StratBlockDev) : Prop where
  fresh : ∀ b ∈ new, b.Fresh
  uuids : ((bds ++ new).map (·.uuid)).Nodup
  devices : ((bds ++ new).map (·.dev)).Nodup

theorem BlockDevMgr.add_cases (poolUuid : PoolUuid) (prepared : StratisResult (List StratBlockDev))
    (m : BlockDevMgr) :
    ((BlockDevMgr.add poolUuid prepared m).1 = m ∧
      (BlockDevMgr.add poolUuid prepared m).2.isOk = false) ∨
    ∃ new, prepared = .ok new ∧ BlockDevMgr.add poolUuid prepared m =
      ({ m with blockDevs := m.blockDevs ++ new }, .ok (new.map (·.uuid))) := by
  rw [BlockDevMgr.add, get_bind]
  cases m.checkPoolUuid poolUuid with
  | ok _ =>
    cases prepared with
    | ok bds => exact Or.inr ⟨bds, rfl, rfl⟩
    | err e => exact Or.inl ⟨rfl, rfl⟩
    | panic => exact Or.inl ⟨rfl, rfl⟩
  | err e => exact Or.inl ⟨rfl, rfl⟩
  | panic => exact Or.inl ⟨rfl, rfl⟩

/-! ### Allocation from the data tier -/

/-! An allocation that can not be made as it should be is not an error, it stops. -/

theorem RangeAllocator.requestFrom_ne_err (needed : ℕ) (segs : PerDevSegments)
    (ranges : List Range) (e : StratisError) : requestFrom needed segs ranges ≠ .err e := by
  induction ranges generalizing needed segs with
  | nil => exact fun h => by cases h
  | cons r ranges ih =>
    rw [requestFrom]
    split_ifs
    · exact fun h => by cases h
    · dsimp only
      split
      · exact ih _ _
      · exact fun h => by cases h

theorem StratBlockDev.requestSpace_ne_err (b : StratBlockDev) (size : ℕ) (e : StratisError) :
    b.requestSpace size ≠ .err e := by
  intro h
  rcases Outcome.bind_eq_err.mp h with h | ⟨_, -, h⟩
  · rcases Outcome.bind_eq_err.mp h with h | ⟨_, -, h⟩
    · exact RangeAllocator.requestFrom_ne_err _ _ _ _ h
    · split at h <;> cases h
  · cases h

theorem BlockDevMgr.allocFrom_ne_err (needed alloc : ℕ) (bds : List StratBlockDev)
    (e : StratisError) : allocFrom needed alloc bds ≠ .err e := by
  induction bds generalizing alloc with
  | nil => exact fun h => by cases h
  | cons bd bds ih =>
    intro h
    rw [allocFrom] at h
    split_ifs at h
    rcases Outcome.bind_eq_err.mp h with h | ⟨_, -, h⟩
    · exact requestSpace_ne_err _ _ _ h
    · rcases Outcome.bind_eq_err.mp h with h | ⟨_, -, h⟩
      · exact ih _ h
      · cases h

theorem BlockDevMgr.allocSpace_ne_err (m : BlockDevMgr) (sizes : List ℕ) (e : StratisError) :
    m.allocSpace sizes ≠ .err e := by
  have heach : ∀ (sizes : List ℕ) (bds : List StratBlockDev), allocEach sizes bds ≠ .err e := by
    intro sizes
    induction sizes with
    | nil => exact fun bds h => by cases h
    | cons needed sizes ih =>
      intro bds h
      rcases Outcome.bind_eq_err.mp h with h | ⟨⟨bds', segs, alloc⟩, -, h⟩
      · exact allocFrom_ne_err _ _ _ _ h
      · simp only at h
        split_ifs at h
        rcases Outcome.bind_eq_err.mp h with h | ⟨_, -, h⟩
        · exact ih _ h
        · cases h
  intro h
  unfold allocSpace at h
  split_ifs at h
  rcases Outcome.bind_eq_err.mp h with h | ⟨_, -, h⟩
  · exact heach _ _ h
  · cases h

/-! Whatever an allocation takes, the devices stay the same devices. -/

theorem PerDevSegments.insert_limit {p q : PerDevSegments} {range : Range}
    (h : p.insert range = .ok q) : q.limit = p.limit := by
  unfold PerDevSegments.insert at h
  split_ifs at h
  · obtain rfl := ok.inj h
    rfl
  · obtain ⟨r, -, h⟩ := Outcome.bind_eq_ok.mp h
    simp only at h
    split at h
    · cases h
    · obtain rfl := ok.inj h
      rfl

theorem PerDevSegments.insertEach_limit {p q : PerDevSegments} {ranges : List Range}
    (h : p.insertEach ranges = .ok q) : q.limit = p.limit := by
  induction ranges generalizing p with
  | nil =>
    obtain rfl := ok.inj h
    rfl
  | cons range ranges ih =>
    obtain ⟨p', hp', h⟩ := Outcome.bind_eq_ok.mp h
    exact (ih h).trans (insert_limit hp')

theorem RangeAllocator.request_size {a : RangeAllocator} {amount : ℕ}
    {r : RangeAllocator × PerDevSegments} (h : a.request amount = .ok r) : r.1.size = a.size := by
  obtain ⟨segs, -, h⟩ := Outcome.bind_eq_ok.mp h
  split at h
  · rename_i hunion
    obtain rfl := ok.inj h
    unfold PerDevSegments.union at hunion
    split_ifs at hunion
    have hlimit := PerDevSegments.insertEach_limit hunion
    exact hlimit
  · cases h

theorem StratBlockDev.requestSpace_identity {size : ℕ} {r : StratBlockDev × PerDevSegments}
    (h : b.requestSpace size = .ok r) :
    r.1.identity = b.identity := by
  obtain ⟨_, -, h⟩ := Outcome.bind_eq_ok.mp h
  obtain rfl := ok.inj h
  rfl

theorem StratBlockDev.requestSpace_totalSize {size : ℕ} {r : StratBlockDev × PerDevSegments}
    (h : b.requestSpace size = .ok r) :
    r.1.totalSize = b.totalSize := by
  obtain ⟨_, hreq, h⟩ := Outcome.bind_eq_ok.mp h
  obtain rfl := ok.inj h
  rw [totalSize, totalSize, RangeAllocator.request_size hreq]

section map

variable {α : Type} {f : StratBlockDev → α}
  (hf : ∀ b size r, StratBlockDev.requestSpace b size = .ok r → f r.1 = f b)

include hf

theorem BlockDevMgr.allocFrom_map {needed alloc : ℕ}
    {r : List StratBlockDev × List BlkDevSegment × ℕ} (h : allocFrom needed alloc bds = .ok r) :
    r.1.map f = bds.map f ∧ r.2.2 = alloc + totalLength r.2.1 := by
  induction bds generalizing alloc r with
  | nil =>
    obtain rfl := ok.inj h
    exact ⟨rfl, rfl⟩
  | cons bd bds ih =>
    rw [allocFrom] at h
    split_ifs at h
    · obtain rfl := ok.inj h
      exact ⟨rfl, rfl⟩
    · obtain ⟨⟨bd', rSegs⟩, hreq, h⟩ := Outcome.bind_eq_ok.mp h
      obtain ⟨⟨bds', segs, alloc'⟩, hrest, h⟩ := Outcome.bind_eq_ok.mp h
      obtain rfl := ok.inj h
      obtain ⟨hmap, htotal⟩ := ih hrest
      refine ⟨congrArg₂ List.cons (hf _ _ _ hreq) hmap, ?_⟩
      simp only at htotal ⊢
      rw [htotal, totalLength_append, Nat.add_assoc]
      congr 2
      simp [totalLength, PerDevSegments.sum, total, map_map, Function.comp_def]

theorem BlockDevMgr.allocEach_map {sizes : List ℕ}
    {r : List StratBlockDev × List (List BlkDevSegment)} (h : allocEach sizes bds = .ok r) :
    r.1.map f = bds.map f ∧ r.2.map totalLength = sizes := by
  induction sizes generalizing bds r with
  | nil =>
    obtain rfl := ok.inj h
    exact ⟨rfl, rfl⟩
  | cons needed sizes ih =>
    obtain ⟨⟨bds₁, segs, alloc⟩, hfrom, h⟩ := Outcome.bind_eq_ok.mp h
    obtain ⟨hids, htotal⟩ := allocFrom_map hf hfrom
    simp only at h hids htotal
    split_ifs at h with hne
    obtain ⟨⟨bds₂, lists⟩, hrest, h⟩ := Outcome.bind_eq_ok.mp h
    obtain rfl := ok.inj h
    obtain ⟨hmap, hlists⟩ := ih hrest
    refine ⟨hmap.trans hids, ?_⟩
    rw [map_cons, hlists]
    congr 1
    omega

theorem BlockDevMgr.allocSpace_map {m : BlockDevMgr} {sizes : List ℕ}
    {r : BlockDevMgr × Option (List (List BlkDevSegment))} (h : m.allocSpace sizes = .ok r) :
    r.1.blockDevs.map f = m.blockDevs.map f := by
  unfold allocSpace at h
  split_ifs at h
  · obtain rfl := ok.inj h
    rfl
  · obtain ⟨r', heach, h⟩ := Outcome.bind_eq_ok.mp h
    obtain rfl := ok.inj h
    exact (allocEach_map hf heach).1

end map

theorem BlockDevMgr.allocSpace_total {m m' : BlockDevMgr} {sizes : List ℕ}
    {lists : List (List BlkDevSegment)} (h : m.allocSpace sizes = .ok (m', some lists)) :
    lists.map totalLength = sizes := by
  unfold allocSpace at h
  split_ifs at h
  · cases h
  · obtain ⟨⟨bds, lists'⟩, heach, h⟩ := Outcome.bind_eq_ok.mp h
    cases h
    exact (allocEach_map (fun _ _ _ => requestSpace_identity) heach).2

theorem BlockDevMgr.allocSpace_identity {m : BlockDevMgr} {sizes : List ℕ}
    {r : BlockDevMgr × Option (List (List BlkDevSegment))} (h : m.allocSpace sizes = .ok r) :
    r.1.blockDevs.map (·.identity) = m.blockDevs.map (·.identity) :=
  allocSpace_map (fun _ _ _ => requestSpace_identity) h

/-! Removing devices that have just been added. -/

theorem BlockDevMgr.swapRemove_perm {index : ℕ} (h : index < bds.length) :
    (swapRemove bds index).Perm (bds.eraseIdx index) := by
  rcases bds.eq_nil_or_concat with rfl | ⟨front, last, rfl⟩
  · simp at h
  · rw [concat_eq_append, length_append, length_singleton] at h
    simp only [swapRemove, concat_eq_append, List.getLast?_concat]
    rcases Nat.lt_succ_iff_lt_or_eq.mp h with hlt | rfl
    · rw [set_append_left _ _ hlt, dropLast_concat, eraseIdx_append_of_lt_length hlt]
      exact (set_perm_cons_eraseIdx hlt last).trans (perm_append_singleton _ _).symm
    · rw [eraseIdx_append_of_length_le le_rfl]
      simp

theorem BlockDevMgr.swapRemove_cons (bd : StratBlockDev) (hne : bds ≠ []) (index : ℕ) :
    swapRemove (bd :: bds) (index + 1) = bd :: swapRemove bds index := by
  obtain ⟨front, last, rfl⟩ := bds.eq_nil_or_concat.resolve_left hne
  have hset : (front ++ [last]).set index last ≠ [] := by simp
  rw [concat_eq_append]
  simp only [swapRemove, ← cons_append, List.getLast?_concat]
  rw [cons_append, set_cons_succ, dropLast_cons_of_ne_nil hset]

theorem BlockDevMgr.findFromRear_of_mem (bd : StratBlockDev) {uuid : DevUuid}
    (h : uuid ∈ bds.map (·.uuid)) :
    ∃ (index : ℕ) (hi : index < bds.length), findFromRear uuid (bd :: bds) = some (index + 1) ∧
      (bds.get ⟨index, hi⟩).uuid = uuid := by
  have hsome : (findFromRear uuid (bd :: bds)).isSome := by
    obtain ⟨d, hd, rfl⟩ := mem_map.mp h
    obtain ⟨j, hj, rfl⟩ := mem_iff_getElem.mp hd
    rw [findFromRear, List.find?_isSome]
    refine ⟨j + 1, mem_map.mpr ⟨bds.length - 1 - j, by simp; omega, by simp; omega⟩, ?_⟩
    simp [List.getElem?_eq_getElem hj]
  obtain ⟨index, hfind⟩ := Option.isSome_iff_exists.mp hsome
  obtain ⟨i, hi, rfl⟩ := mem_map.mp (mem_of_find?_eq_some hfind)
  have hmatch := List.find?_some hfind
  rw [length_cons, Nat.add_sub_cancel] at hmatch hfind hi
  have hlt : bds.length - i - 1 < bds.length := by
    have := mem_range.mp hi
    omega
  have hindex : bds.length - i = bds.length - i - 1 + 1 := by
    have := mem_range.mp hi
    omega
  rw [hindex] at hmatch hfind
  refine ⟨_, hlt, hfind, ?_⟩
  simpa [List.getElem?_eq_getElem hlt] using hmatch

namespace DataTier

variable {request : ℕ}

theorem alloc_total {t t' : DataTier} {granted : Bool} (h : t.alloc request = .ok (t', granted)) :
    totalLength t'.segments = totalLength t.segments + if granted then request else 0 := by
  obtain ⟨⟨blockMgr, lists⟩, hspace, h⟩ := Outcome.bind_eq_ok.mp h
  rcases lists with _ | lists
  · cases h
    rfl
  · cases h
    have htotal := allocSpace_total hspace
    rw [totalLength_coalesce, totalLength_flatten, htotal, sum_singleton, if_pos rfl]

variable {r : DataTier × Bool}

theorem alloc_map {α : Type} {f : StratBlockDev → α}
    (hf : ∀ b size r, requestSpace b size = .ok r → f r.1 = f b) {t : DataTier}
    (h : t.alloc request = .ok r) :
    r.1.blockMgr.blockDevs.map f = t.blockMgr.blockDevs.map f := by
  obtain ⟨⟨blockMgr, lists⟩, hspace, h⟩ := Outcome.bind_eq_ok.mp h
  have hmap := allocSpace_map hf hspace
  cases lists <;> obtain rfl := ok.inj h <;> exact hmap

theorem alloc_identity {t : DataTier} (h : t.alloc request = .ok r) :
    r.1.blockMgr.blockDevs.map (·.identity) = t.blockMgr.blockDevs.map (·.identity) :=
  alloc_map (fun _ _ _ => requestSpace_identity) h

theorem alloc_usableSize (overflowChecks : Bool) {t : DataTier} (h : t.alloc request = .ok r) :
    r.1.usableSize overflowChecks = t.usableSize overflowChecks := by
  have hsizes : r.1.blockMgr.blockDevs.map (·.totalSize) = t.blockMgr.blockDevs.map (·.totalSize) :=
    alloc_map (fun _ _ _ => requestSpace_totalSize) h
  have hmetadata : r.1.metadataSize = t.metadataSize :=
    congrArg List.sum (map_of_identity (·.2.1.extendedSize) (alloc_identity h))
  have hsize : r.1.size = t.size := by
    rw [size, size, BlockDevMgr.size, BlockDevMgr.size, collect_eq_of_map hsizes]
  rw [usableSize, usableSize, hsize, hmetadata]

/-- In use on the devices of the tier are its segments. -/
def Tracked (t : DataTier) : Prop := Tracks t.blockMgr.blockDevs t.segments

variable {t : DataTier}

theorem Tracked.alloc (h : t.Tracked) (request : ℕ) :
    t.alloc request = .ok (t, false) ∨
      ∃ t', t.alloc request = .ok (t', true) ∧ t'.Tracked ∧
        t'.blockMgr.blockDevs.map (·.identity) = t.blockMgr.blockDevs.map (·.identity) ∧
        Extends t.segments t'.segments ∧
        totalLength t'.segments = totalLength t.segments + request := by
  rcases Tracks.allocSpace h [request] with ⟨-, heq⟩ | ⟨-, bds', lists, heq, hids, htr, htot, -⟩
  · left
    rw [DataTier.alloc, heq, ok_bind]
  · right
    refine ⟨⟨{ t.blockMgr with blockDevs := bds' }, coalesceBlkdevsegs t.segments lists.flatten⟩,
      ?_, htr.coalesce, hids, htr.extends_coalesce, ?_⟩
    · rw [DataTier.alloc, heq, ok_bind]
    · rw [totalLength_coalesce, totalLength_flatten, htot, sum_singleton]

theorem alloc_tracks {history : List BlkDevSegment} (h : Tracks t.blockMgr.blockDevs history)
    (halloc : t.alloc request = .ok r) :
    ∃ history', Tracks r.1.blockMgr.blockDevs history' ∧
      totalLength history' + totalLength t.segments =
        totalLength history + totalLength r.1.segments := by
  rcases Tracks.allocSpace h [request] with ⟨-, heq⟩ | ⟨-, bds', lists, heq, -, htr, -⟩
  · rw [DataTier.alloc, heq, ok_bind] at halloc
    obtain rfl := ok.inj halloc
    exact ⟨history, h, rfl⟩
  · rw [DataTier.alloc, heq, ok_bind] at halloc
    obtain rfl := ok.inj halloc
    refine ⟨_, htr, ?_⟩
    rw [totalLength_append, totalLength_coalesce]
    omega

end DataTier

/-! ### The cache tier -/

namespace CacheTier

/-- All space of the devices of the tier is in its segments. -/
structure Full (t : CacheTier) : Prop where
  tracks : Tracks t.blockMgr.blockDevs (t.cacheSegments ++ t.metaSegments)
  avail : t.blockMgr.availSpace = 0
  nonempty : t.blockMgr.blockDevs ≠ []
  meta_pos : 0 < totalLength t.metaSegments
  cache_pos : 0 < totalLength t.cacheSegments

theorem tracks_of_fresh {new : List StratBlockDev} (hf : ∀ b ∈ new, b.Fresh)
    (hn : (new.map (·.uuid)).Nodup) : Tracks new [] :=
  ⟨hn, fun b hb => (hf b hb).holds, by simp⟩

variable {m : BlockDevMgr}

theorem allocSpace_two (h : Tracks m.blockDevs []) {n : ℕ} (hn : n ≤ m.availSpace) :
    ∃ bds' first second, m.allocSpace [n, m.availSpace - n] =
        .ok ({ m with blockDevs := bds' }, some [first, second]) ∧
      bds'.map (·.identity) = m.blockDevs.map (·.identity) ∧ Tracks bds' (second ++ first) ∧
      available bds' = 0 ∧ totalLength first = n ∧ totalLength second = m.availSpace - n := by
  rcases h.allocSpace [n, m.availSpace - n] with
    ⟨hlt, -⟩ | ⟨-, bds', lists, heq, hids, htr, htot, hav⟩
  · simp only [sum_cons, sum_nil] at hlt
    omega
  · obtain ⟨first, second, rfl⟩ : ∃ first second, lists = [first, second] :=
      length_eq_two.mp (by simpa using congrArg List.length htot)
    refine ⟨bds', first, second, heq, hids, htr.perm ?_, ?_, ?_⟩
    · simpa using perm_append_comm
    · simp only [sum_cons, sum_nil] at hav
      omega
    · simpa using htot

variable {wipe : StratisResult Unit} {t : CacheTier}

theorem new_eq_ok (h : new m wipe = .ok t) :
    metaSpace < m.availSpace ∧ m.availSpace - metaSpace ≤ maxCacheSize ∧
      m.allocSpace [metaSpace, m.availSpace - metaSpace] =
        .ok (t.blockMgr, some [t.metaSegments, t.cacheSegments]) := by
  unfold new at h
  split_ifs at h with hmeta hmax
  · obtain ⟨-, -, h⟩ := Outcome.bind_eq_ok.mp h
    cases h
  · obtain ⟨⟨m', lists⟩, hspace, h⟩ := Outcome.bind_eq_ok.mp h
    dsimp only at h
    split at h
    · cases h
      exact ⟨hmeta, not_lt.mp hmax, hspace⟩
    · cases h

theorem new_total (h : new m wipe = .ok t) :
    totalLength t.cacheSegments = m.availSpace - metaSpace := by
  have htotal := allocSpace_total (new_eq_ok h).2.2
  simpa using (List.cons.inj htotal).2

theorem new_identity (h : new m wipe = .ok t) :
    t.blockMgr.blockDevs.map (·.identity) = m.blockDevs.map (·.identity) :=
  allocSpace_identity (new_eq_ok h).2.2

theorem full_of_new (hf : ∀ b ∈ m.blockDevs, b.Fresh) (hn : (m.blockDevs.map (·.uuid)).Nodup)
    (h : new m wipe = .ok t) :
    t.Full ∧ t.blockMgr.blockDevs.map (·.identity) = m.blockDevs.map (·.identity) := by
  obtain ⟨hmeta, -, hspace⟩ := new_eq_ok h
  obtain ⟨bds', metas, caches, heq, hids, htr, hav, hml, hcl⟩ :=
    allocSpace_two (tracks_of_fresh hf hn) hmeta.le
  obtain ⟨blockMgr, cacheSegments, metaSegments⟩ := t
  cases hspace.symm.trans heq
  refine ⟨⟨htr, hav, ?_, ?_, ?_⟩, hids⟩
  · rintro rfl
    have : m.blockDevs = [] := by simpa using hids.symm
    simp [BlockDevMgr.availSpace, this] at hmeta
  · exact hml.symm ▸ Nat.two_pow_pos 20
  · exact hcl.symm ▸ Nat.sub_pos_of_lt hmeta

theorem new_eq_err {e : StratisError} (h : new m wipe = .err e) :
    maxCacheSize < m.availSpace - metaSpace := by
  unfold new at h
  split_ifs at h with hmeta hmax
  · exact hmax
  · rcases Outcome.bind_eq_err.mp h with h | ⟨⟨m', lists⟩, -, h⟩
    · exact absurd h (allocSpace_ne_err _ _ _)
    · simp only at h
      split at h <;> cases h

theorem extendCache_ne_err (t : CacheTier) (e : StratisError) : t.extendCache ≠ .err e := by
  refine bind_ne_err (allocSpace_ne_err _ _ _) fun r => ?_
  exact bind_ne_err (expect_ne_err _ _) fun lists => nofun

variable {t' : CacheTier}

theorem extendCache_eq_ok (h : t.extendCache = .ok t') :
    ∃ m lists, t.blockMgr.allocSpace [t.blockMgr.availSpace] = .ok (m, some lists) ∧
      t' = ⟨m, coalesceBlkdevsegs t.cacheSegments lists.flatten, t.metaSegments⟩ := by
  obtain ⟨⟨m, lists⟩, hspace, h⟩ := Outcome.bind_eq_ok.mp h
  obtain ⟨lists, hlists, h⟩ := Outcome.bind_eq_ok.mp h
  rw [expect_eq_ok.mp hlists] at hspace
  exact ⟨m, lists, hspace, (ok.inj h).symm⟩

theorem extendCache_total (h : t.extendCache = .ok t') :
    totalLength t'.cacheSegments = totalLength t.cacheSegments + t.blockMgr.availSpace := by
  obtain ⟨m, lists, hspace, rfl⟩ := extendCache_eq_ok h
  rw [totalLength_coalesce, totalLength_flatten, allocSpace_total hspace,
    sum_singleton]

theorem extendCache_identity (h : t.extendCache = .ok t') :
    t'.blockMgr.blockDevs.map (·.identity) = t.blockMgr.blockDevs.map (·.identity) := by
  obtain ⟨m, lists, hspace, rfl⟩ := extendCache_eq_ok h
  exact allocSpace_identity hspace

theorem full_of_extendCache (h : Tracks t.blockMgr.blockDevs (t.cacheSegments ++ t.metaSegments))
    (hne : t.blockMgr.blockDevs ≠ []) (he : t.extendCache = .ok t')
    (hm : 0 < totalLength t.metaSegments) (hc : 0 < totalLength t.cacheSegments) :
    t'.Full ∧ t'.blockMgr.blockDevs.map (·.identity) = t.blockMgr.blockDevs.map (·.identity) := by
  have hids := extendCache_identity he
  have htotal := extendCache_total he
  obtain ⟨m, lists, hspace, rfl⟩ := extendCache_eq_ok he
  rcases h.allocSpace [t.blockMgr.availSpace] with ⟨hlt, -⟩ | ⟨-, bds', _, heq, -, htr, -, hav⟩
  · simp at hlt
  · cases hspace.symm.trans heq
    refine ⟨⟨?_, ?_, ?_, hm, ?_⟩, hids⟩
    · refine Tracks.coalesce_append (htr.perm ?_)
      rw [append_assoc, append_assoc]
      exact List.Perm.append_left _ perm_append_comm
    · rw [sum_singleton] at hav
      change available bds' = 0
      omega
    · rintro rfl
      exact hne (by simpa using hids.symm)
    · rw [htotal]
      exact Nat.add_pos_left hc _

/-- Adding devices to a cache tier. -/
theorem full_of_add {poolUuid : PoolUuid} {prepared : StratisResult (List StratBlockDev)}
    {r : List DevUuid × Bool × Bool} (h : t.Full)
    (hn : ∀ new, prepared = .ok new → (∀ b ∈ new, b.Fresh) ∧
      ((t.blockMgr.blockDevs ++ new).map (·.uuid)).Nodup)
    (ha : add poolUuid prepared wipe t = (t', .ok r)) :
    t'.Full ∧ r.2 = (true, false) ∧ ∃ new, prepared = .ok new ∧
      t'.blockMgr.blockDevs.map (·.identity) =
        (t.blockMgr.blockDevs ++ new).map (·.identity) := by
  obtain ⟨t₁, uuids, hadd, ha⟩ := bind_eq_ok.mp ha
  obtain ⟨m, hm, rfl⟩ := within_eq_ok.mp hadd
  rcases add_cases poolUuid prepared t.blockMgr with ⟨-, hno⟩ | ⟨new, hnew, heq⟩
  · rw [hm] at hno
    simp at hno
  · rw [hm, Prod.mk.injEq] at heq
    obtain ⟨rfl, -⟩ := heq
    obtain ⟨hfresh, hnodup⟩ := hn new hnew
    have htr : Tracks (t.blockMgr.blockDevs ++ new) (t.cacheSegments ++ t.metaSegments) :=
      h.tracks.extend hnodup fun b hb => (hfresh b hb).holds
    rw [get_bind] at ha
    split_ifs at ha with hmax
    · obtain ⟨_, _, -, hbad⟩ := bind_eq_ok.mp ha
      cases hbad
    · obtain ⟨t₂, t₃, hlift, ha⟩ := bind_eq_ok.mp ha
      simp only [lift_apply, Prod.mk.injEq] at hlift
      obtain ⟨-, hext⟩ := hlift
      cases ha
      obtain ⟨hfull, hids⟩ := full_of_extendCache htr (by simp [h.nonempty]) hext
        h.meta_pos h.cache_pos
      exact ⟨hfull, rfl, new, hnew, hids⟩

end CacheTier

end Stratisd.Backstore
