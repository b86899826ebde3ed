import Stratisd.Backstore.BlockDevMgr
import Stratisd.Backstore.RangeAllocSpec
import Stratisd.Run.Trace

/-! Allocation over many devices. The invariant ties the allocator of every device to the
history of all segments that have been granted: in use are the BDA of the device and the
segments on it, and nothing else. -/

namespace Stratisd.Backstore

open Run Run.Outcome Engine Extent Metadata List RangeAllocator

/-! ### Segments by device -/

/-- The ranges of the segments on one device. -/
def onDevice (u : DevUuid) (segs : List BlkDevSegment) : List Range :=
  (segs.filter fun s => s.uuid = u).map (·.range)

@[simp] theorem onDevice_append (u : DevUuid) (segs segs' : List BlkDevSegment) :
    onDevice u (segs ++ segs') = onDevice u segs ++ onDevice u segs' := by
  simp [onDevice]

theorem onDevice_eq_nil {u : DevUuid} {segs : List BlkDevSegment} (h : ∀ s ∈ segs, s.uuid ≠ u) :
    onDevice u segs = [] := by
  rw [onDevice, filter_eq_nil_iff.mpr (by simpa using h), map_nil]

theorem mem_onDevice {u : DevUuid} {segs : List BlkDevSegment} {r : Range} :
    r ∈ onDevice u segs ↔ ∃ s ∈ segs, s.uuid = u ∧ s.range = r := by
  simp [onDevice, and_assoc]

@[simp] theorem totalLength_append (segs segs' : List BlkDevSegment) :
    totalLength (segs ++ segs') = totalLength segs + totalLength segs' := by
  simp [totalLength]

theorem totalLength_flatten (lists : List (List BlkDevSegment)) :
    totalLength lists.flatten = (lists.map totalLength).sum := by
  induction lists with
  | nil => rfl
  | cons segs lists ih => simp [ih]

theorem sum_ite_eq_of_nodup {α : Type*} [DecidableEq α] {us : List α} (hn : us.Nodup) {a : α}
    (ha : a ∈ us) (n : ℕ) : (us.map fun u => if u = a then n else 0).sum = n := by
  induction us with
  | nil => simp at ha
  | cons u us ih =>
    rw [nodup_cons] at hn
    rw [map_cons, sum_cons]
    by_cases hu : u = a
    · subst hu
      have hz : (us.map fun w => if w = u then n else 0).sum = 0 := by
        refine sum_eq_zero fun x hx => ?_
        obtain ⟨w, hw, rfl⟩ := mem_map.mp hx
        have hne : w ≠ u := fun he => hn.1 (he ▸ hw)
        exact if_neg hne
      rw [if_pos rfl, hz, Nat.add_zero]
    · rw [if_neg hu, Nat.zero_add, ih hn.2 ((mem_cons.mp ha).resolve_left (Ne.symm hu))]

theorem sum_onDevice {us : List DevUuid} (hn : us.Nodup) {segs : List BlkDevSegment}
    (h : ∀ s ∈ segs, s.uuid ∈ us) :
    (us.map fun u => total (onDevice u segs)).sum = totalLength segs := by
  induction segs with
  | nil => simp [onDevice, totalLength]
  | cons s segs ih =>
    have hs := h s (by simp)
    have hsplit : ∀ u, total (onDevice u (s :: segs)) =
        (if u = s.uuid then s.segment.length else 0) + total (onDevice u segs) := by
      intro u
      by_cases hu : s.uuid = u
      · simp [onDevice, hu, BlkDevSegment.range]
      · simp [onDevice, hu, Ne.symm hu]
    simp only [hsplit, sum_map_add, ih fun t ht => h t (by simp [ht])]
    rw [sum_ite_eq_of_nodup hn hs]
    simp [totalLength]

/-! ### One device -/

namespace StratBlockDev

/-- In use on the device are its BDA and the given ranges. -/
structure Holds (b : StratBlockDev) (rs : List Range) : Prop where
  wf : b.used.segments.WF
  limit : b.used.segments.limit = b.bda.devSize
  separate : Separate ((0, b.bda.extendedSize) :: rs)
  sectors : b.used.segments.sectors = cells ((0, b.bda.extendedSize) :: rs)

/-- What an allocation leaves as it is. -/
def identity (b : StratBlockDev) : Device × BDA × Option String × Option String :=
  (b.dev, b.bda, b.userInfo, b.hardwareInfo)

variable {b : StratBlockDev} {rs : List Range}

theorem Holds.used_eq (h : b.Holds rs) : b.used.used = b.bda.extendedSize + total rs := by
  rw [RangeAllocator.used, h.wf.sum_eq, h.sectors, h.separate.card, total_cons]

theorem Holds.account (h : b.Holds rs) :
    b.available + total rs + b.metadataSize = b.bda.devSize ∧
      b.totalSize = .ok b.bda.devSize := by
  have hle := used_le h.wf
  rw [h.used_eq, h.limit] at hle
  refine ⟨?_, ?_⟩
  · rw [available, RangeAllocator.available, h.used_eq, h.limit, metadataSize]
    omega
  · rw [totalSize, RangeAllocator.size, h.limit, if_pos rfl]

theorem Holds.within (h : b.Holds rs) {r : Range} (hr : r ∈ rs) (hpos : 0 < r.2)
    : b.metadataSize ≤ r.1 ∧ r.1 + r.2 ≤ b.bda.devSize := by
  have hlast : r.1 + r.2 - 1 ∈ b.used.segments.sectors := by
    rw [h.sectors]
    exact mem_cells.mpr ⟨r, by simp [hr], Range.mem_cells.mpr (by omega)⟩
  have hlt := Finset.mem_range.mp (h.wf.sectors_subset hlast)
  rw [h.limit] at hlt
  have hd := (pairwise_cons.mp h.separate).1 r hr
  have hd := Range.disjoint_cells.mp hd
  simp only [metadataSize] at hd ⊢
  omega

theorem holds_of_new {dev : Device} {bda : BDA} {ui hi : Option String}
    (hl : bda.devSize < u64Bound) (h : StratBlockDev.new dev bda rs ui hi = .ok b) :
    b.Holds rs ∧ b.identity = (dev, bda, ui, hi) := by
  obtain ⟨a, ha, he⟩ := Outcome.bind_eq_ok.mp h
  cases he
  obtain ⟨hf, hwf, hlim, hsec⟩ := new_eq_ok hl ha
  exact ⟨⟨hwf, hlim, hf.2, hsec⟩, rfl⟩

theorem Holds.filter_pos (h : b.Holds rs) : b.Holds (rs.filter fun r => 0 < r.2) := by
  refine ⟨h.wf, h.limit, List.Pairwise.sublist ?_ h.separate, ?_⟩
  · exact List.Sublist.cons_cons _ filter_sublist
  · rw [h.sectors, cells_cons, cells_cons, cells_filter_pos]

theorem Holds.rebuild (h : b.Holds rs) (hpos : ∀ r ∈ rs, 0 < r.2) :
    StratBlockDev.new b.dev b.bda rs b.userInfo b.hardwareInfo = .ok b := by
  have hbound : b.bda.devSize < u64Bound := h.limit ▸ h.wf.limit_lt
  have hf : (PerDevSegments.new b.bda.devSize).FitsAll ((0, b.bda.extendedSize) :: rs) := by
    refine ⟨fun r hr => ?_, h.separate⟩
    suffices r.1 + r.2 ≤ b.bda.devSize from
      ⟨by simp only [PerDevSegments.new]; omega, Or.inr ⟨this, by simp⟩⟩
    rcases mem_cons.mp hr with rfl | hr
    · have := h.account.1
      simp only [metadataSize] at this ⊢
      omega
    · exact (h.within hr (hpos r hr)).2
  obtain ⟨a, ha, hwf, hlim, hsec⟩ := new_of_fits hbound hf
  have hseg : a.segments = b.used.segments :=
    hwf.ext h.wf (hlim.trans h.limit.symm) (hsec.trans h.sectors.symm)
  have hused : a = b.used := congrArg RangeAllocator.mk hseg
  rw [StratBlockDev.new, ha, ok_bind, hused]

theorem Holds.requestSpace (h : b.Holds rs) (size : ℕ) :
    ∃ b' segs, b.requestSpace size = .ok (b', segs) ∧ b'.identity = b.identity ∧
      b'.Holds (rs ++ segs.used) ∧ (∀ r ∈ segs.used, 0 < r.2) ∧
      segs.sum = min size b.available ∧ b'.available + segs.sum = b.available := by
  obtain ⟨a', segs, hreq, hwf', hwf, hlim', hlim, hused, hdis, hsec⟩ :=
    request_spec h.wf size
  have hsum : segs.sum = min size b.available := by
    rw [PerDevSegments.sum, hused, total_takeFront, available, available_eq h.wf]
  have hholds : (⟨b.dev, b.bda, a', b.userInfo, b.hardwareInfo⟩ : StratBlockDev).Holds
      (rs ++ segs.used) := by
    refine ⟨hwf', hlim'.trans h.limit, ?_, ?_⟩
    · rw [← cons_append, separate_append]
      exact ⟨h.separate, hwf.canonical.separate, h.sectors ▸ hdis⟩
    · rw [hsec, h.sectors, ← cons_append, cells_append]
      rfl
  refine ⟨⟨b.dev, b.bda, a', b.userInfo, b.hardwareInfo⟩, segs, ?_, rfl, hholds,
    hwf.canonical.pos, hsum, ?_⟩
  · rw [StratBlockDev.requestSpace, hreq, ok_bind]
  · have h1 := h.account.1
    have h2 := hholds.account.1
    rw [total_append] at h2
    simp only [metadataSize, PerDevSegments.sum] at h1 h2 ⊢
    omega

end StratBlockDev

/-! ### All devices of a manager -/

/-- The devices are distinct, each holds the segments of the history that are on it, and
every segment is on one of them. -/
structure Tracks (bds : List StratBlockDev) (history : List BlkDevSegment) : Prop where
  nodup : (bds.map (·.uuid)).Nodup
  holds : ∀ b ∈ bds, b.Holds (onDevice b.uuid history)
  home : ∀ s ∈ history, 0 < s.segment.length ∧
    ∃ b ∈ bds, b.uuid = s.uuid ∧ b.dev = s.segment.device

def available (bds : List StratBlockDev) : ℕ := (bds.map (·.available)).sum

theorem available_cons (b : StratBlockDev) (bds : List StratBlockDev) :
    available (b :: bds) = b.available + available bds := by
  rw [available, map_cons, sum_cons, available]

variable {bds : List StratBlockDev} {history : List BlkDevSegment}

theorem map_of_identity {α : Type*} (f : Device × BDA × Option String × Option String → α)
    {bds' : List StratBlockDev} (h : bds'.map (·.identity) = bds.map (·.identity)) :
    bds'.map (fun b => f b.identity) = bds.map fun b => f b.identity := by
  simpa [Function.comp_def] using congrArg (List.map f) h

theorem exists_of_identity {bds' : List StratBlockDev}
    (h : bds'.map (·.identity) = bds.map (·.identity)) {b : StratBlockDev} (hb : b ∈ bds) :
    ∃ b' ∈ bds', b'.identity = b.identity := by
  have : b.identity ∈ bds'.map (·.identity) := h ▸ mem_map_of_mem hb
  exact mem_map.mp this

theorem uuid_eq_of_identity {b b' : StratBlockDev} (h : b'.identity = b.identity) :
    b'.uuid = b.uuid ∧ b'.dev = b.dev ∧ b'.bda = b.bda := by
  simp only [StratBlockDev.identity, Prod.mk.injEq] at h
  exact ⟨by rw [StratBlockDev.uuid, StratBlockDev.uuid, h.2.1], h.1, h.2.1⟩

def granted (b : StratBlockDev) (ranges : List Range) : List BlkDevSegment :=
  ranges.map fun r => ⟨b.uuid, ⟨r.1, r.2, b.dev⟩⟩

theorem onDevice_granted (b : StratBlockDev) (ranges : List Range) :
    onDevice b.uuid (granted b ranges) = ranges := by
  simp [onDevice, granted, filter_map, Function.comp_def, BlkDevSegment.range]

theorem totalLength_granted (b : StratBlockDev) (ranges : List Range) :
    totalLength (granted b ranges) = total ranges := by
  simp [totalLength, granted, total, Function.comp_def]

theorem of_mem_granted {b : StratBlockDev} {ranges : List Range} (hpos : ∀ r ∈ ranges, 0 < r.2)
    {s : BlkDevSegment} (hs : s ∈ granted b ranges) :
    0 < s.segment.length ∧ s.uuid = b.uuid ∧ s.segment.device = b.dev := by
  obtain ⟨r, hr, rfl⟩ := mem_map.mp hs
  exact ⟨hpos r hr, rfl, rfl⟩

theorem onDevice_flatMap_granted (hn : (bds.map (·.uuid)).Nodup) (ranges : DevUuid → List Range)
    {b : StratBlockDev} (hb : b ∈ bds) :
    onDevice b.uuid (bds.flatMap fun c => granted c (ranges c.uuid)) = ranges b.uuid := by
  have hother : ∀ c : StratBlockDev, c.uuid ≠ b.uuid →
      ∀ s ∈ granted c (ranges c.uuid), s.uuid ≠ b.uuid := by
    intro c hc s hs
    obtain ⟨r, -, rfl⟩ := mem_map.mp hs
    exact hc
  induction bds with
  | nil => cases hb
  | cons c bds ih =>
    rw [map_cons, nodup_cons] at hn
    rw [flatMap_cons, onDevice_append]
    rcases mem_cons.mp hb with rfl | hb
    · have hnone : onDevice b.uuid (bds.flatMap fun c => granted c (ranges c.uuid)) = [] := by
        refine onDevice_eq_nil fun s hs => ?_
        obtain ⟨c, hc, hs⟩ := mem_flatMap.mp hs
        exact hother c (fun he => hn.1 (he ▸ mem_map_of_mem hc)) s hs
      rw [hnone, append_nil, onDevice_granted]
    · have hne : c.uuid ≠ b.uuid := fun he => hn.1 (he ▸ mem_map_of_mem hb)
      rw [onDevice_eq_nil (hother c hne), nil_append, ih hn.2 hb]

/-- One round over the devices grants what is needed or all there is. -/
theorem allocFrom_spec {needed alloc : ℕ} (ha : alloc ≤ needed)
    (hn : (bds.map (·.uuid)).Nodup) (hh : ∀ b ∈ bds, b.Holds (onDevice b.uuid history)) :
    ∃ bds' segs, BlockDevMgr.allocFrom needed alloc bds =
        .ok (bds', segs, min needed (alloc + available bds)) ∧
      bds'.map (·.identity) = bds.map (·.identity) ∧
      (∀ b ∈ bds', b.Holds (onDevice b.uuid (history ++ segs))) ∧
      (∀ s ∈ segs, 0 < s.segment.length ∧ ∃ b ∈ bds, b.uuid = s.uuid ∧ b.dev = s.segment.device) ∧
      alloc + totalLength segs = min needed (alloc + available bds) ∧
      available bds' + totalLength segs = available bds := by
  induction bds generalizing alloc with
  | nil =>
    refine ⟨[], [], ?_, rfl, by simp, by simp, ?_, rfl⟩
    · simp [BlockDevMgr.allocFrom, available, ha]
    · simp [available, totalLength, ha]
  | cons b bds ih =>
    rw [BlockDevMgr.allocFrom]
    split_ifs with hdone
    · refine ⟨b :: bds, [], ?_, rfl, by simpa using hh, by simp, ?_, rfl⟩
      · rw [hdone, Nat.min_eq_left (Nat.le_add_right _ _)]
      · rw [hdone, Nat.min_eq_left (Nat.le_add_right _ _)]
        rfl
    · rw [map_cons, nodup_cons] at hn
      obtain ⟨b', rSegs, hreq, hid, hholds, hpos, hsum, havail⟩ :=
        (hh b (by simp)).requestSpace (needed - alloc)
      obtain ⟨bds', segs, heq, hids, hhs, hhome, htot, hav⟩ :=
        ih (show alloc + rSegs.sum ≤ needed by omega) hn.2 fun b hb => hh b (by simp [hb])
      have huuid := (uuid_eq_of_identity hid).1
      have hgtot : totalLength (granted b rSegs.used) = rSegs.sum := totalLength_granted b rSegs.used
      refine ⟨b' :: bds', granted b rSegs.used ++ segs, ?_, by rw [map_cons, map_cons, hid, hids],
        fun c hc => ?_, fun s hs => ?_, ?_, ?_⟩
      · have hmin : min needed (alloc + rSegs.sum + available bds) =
            min needed (alloc + available (b :: bds)) := by
          rw [available_cons]
          omega
        simp only [hreq, ok_bind, heq]
        rw [hmin, granted]
      · -- the other devices of the round have other UUIDs
        rcases mem_cons.mp hc with rfl | hc
        · have hnone : onDevice c.uuid segs = [] := onDevice_eq_nil fun s hs he => by
            obtain ⟨d, hd, hu, -⟩ := (hhome s hs).2
            exact hn.1 (mem_map.mpr ⟨d, hd, by rw [hu, he, huuid]⟩)
          rw [← append_assoc, onDevice_append, hnone, append_nil, onDevice_append, huuid,
            onDevice_granted]
          exact hholds
        · have hnone : onDevice c.uuid (granted b rSegs.used) = [] := onDevice_eq_nil fun s hs he => by
            obtain ⟨d, hd, hu⟩ := exists_of_identity hids.symm hc
            refine hn.1 (mem_map.mpr ⟨d, hd, ?_⟩)
            rw [(uuid_eq_of_identity hu).1, ← he, (of_mem_granted hpos hs).2.1]
          have := hhs c hc
          rw [onDevice_append] at this ⊢
          rwa [onDevice_append, hnone, nil_append]
      · rcases mem_append.mp hs with hs | hs
        · obtain ⟨h1, h2, h3⟩ := of_mem_granted hpos hs
          exact ⟨h1, b, by simp, h2.symm, h3.symm⟩
        · obtain ⟨h1, d, hd, h2⟩ := hhome s hs
          exact ⟨h1, d, by simp [hd], h2⟩
      · rw [totalLength_append, hgtot, available_cons]
        omega
      · rw [totalLength_append, hgtot, available_cons, available_cons]
        omega

theorem Tracks.allocFrom (h : Tracks bds history) (needed : ℕ) :
    ∃ bds' segs, BlockDevMgr.allocFrom needed 0 bds =
        .ok (bds', segs, min needed (available bds)) ∧
      bds'.map (·.identity) = bds.map (·.identity) ∧ Tracks bds' (history ++ segs) ∧
      totalLength segs = min needed (available bds) ∧
      available bds' + totalLength segs = available bds := by
  obtain ⟨bds', segs, heq, hids, hhs, hhome, htot, hav⟩ :=
    allocFrom_spec (Nat.zero_le needed) h.nodup h.holds
  rw [Nat.zero_add] at heq htot
  refine ⟨bds', segs, heq, hids, ⟨?_, hhs, fun s hs => ?_⟩, by omega, hav⟩
  · rw [show bds'.map (·.uuid) = bds.map (·.uuid) from map_of_identity (·.2.1.devUuid) hids]
    exact h.nodup
  · obtain ⟨hpos, b, hb, hu, hd⟩ : 0 < s.segment.length ∧
        ∃ b ∈ bds, b.uuid = s.uuid ∧ b.dev = s.segment.device := by
      rcases mem_append.mp hs with hs | hs
      · exact h.home s hs
      · exact hhome s hs
    obtain ⟨b', hb', hid⟩ := exists_of_identity hids hb
    obtain ⟨h1, h2, -⟩ := uuid_eq_of_identity hid
    exact ⟨hpos, b', hb', h1.trans hu, h2.trans hd⟩

theorem Tracks.allocEach (h : Tracks bds history) {sizes : List ℕ}
    (hs : sizes.sum ≤ available bds) :
    ∃ bds' lists, BlockDevMgr.allocEach sizes bds = .ok (bds', lists) ∧
      bds'.map (·.identity) = bds.map (·.identity) ∧ Tracks bds' (history ++ lists.flatten) ∧
      lists.map totalLength = sizes ∧ available bds' + sizes.sum = available bds := by
  induction sizes generalizing bds history with
  | nil => exact ⟨bds, [], rfl, rfl, by simpa using h, rfl, rfl⟩
  | cons needed sizes ih =>
    rw [sum_cons] at hs
    obtain ⟨bds₁, segs, heq, hids, htr, htot, hav⟩ := h.allocFrom needed
    have hmin : min needed (available bds) = needed := by omega
    rw [hmin] at heq htot
    obtain ⟨bds₂, lists, heq₂, hids₂, htr₂, htot₂, hav₂⟩ := ih htr (by omega)
    refine ⟨bds₂, segs :: lists, ?_, hids₂.trans hids, ?_, ?_, ?_⟩
    · rw [BlockDevMgr.allocEach, heq, ok_bind]
      simp only [ne_eq, not_true_eq_false, if_false, heq₂, ok_bind]
    · simpa using htr₂
    · rw [map_cons, htot, htot₂]
    · rw [sum_cons]
      omega

theorem Tracks.allocSpace {m : BlockDevMgr} (h : Tracks m.blockDevs history) (sizes : List ℕ) :
    (m.availSpace < sizes.sum ∧ m.allocSpace sizes = .ok (m, none)) ∨
      (sizes.sum ≤ m.availSpace ∧ ∃ bds' lists,
        m.allocSpace sizes = .ok ({ m with blockDevs := bds' }, some lists) ∧
        bds'.map (·.identity) = m.blockDevs.map (·.identity) ∧
        Tracks bds' (history ++ lists.flatten) ∧ lists.map totalLength = sizes ∧
        available bds' + sizes.sum = m.availSpace) := by
  rcases Nat.lt_or_ge m.availSpace sizes.sum with hlt | hge
  · exact Or.inl ⟨hlt, if_pos hlt⟩
  · obtain ⟨bds', lists, heq, hids, htr, htot, hav⟩ := h.allocEach hge
    refine Or.inr ⟨hge, bds', lists, ?_, hids, htr, htot, hav⟩
    rw [BlockDevMgr.allocSpace, if_neg (not_lt.mpr hge), heq, ok_bind]

theorem Tracks.extend {new : List StratBlockDev} (h : Tracks bds history)
    (hn : ((bds ++ new).map (·.uuid)).Nodup) (hf : ∀ b ∈ new, b.Holds []) :
    Tracks (bds ++ new) history := by
  refine ⟨hn, fun b hb => ?_, fun s hs => ?_⟩
  · rcases mem_append.mp hb with hb | hb
    · exact h.holds b hb
    · have hnone : onDevice b.uuid history = [] := onDevice_eq_nil fun s hs he => by
        obtain ⟨c, hc, hu, -⟩ := (h.home s hs).2
        rw [map_append] at hn
        exact disjoint_of_nodup_append hn (mem_map_of_mem hc)
          (mem_map.mpr ⟨b, hb, by rw [hu, he]⟩)
      rw [hnone]
      exact hf b hb
  · obtain ⟨hpos, b, hb, hbs⟩ := h.home s hs
    exact ⟨hpos, b, by simp [hb], hbs⟩

theorem exists_tracks (hn : (bds.map (·.uuid)).Nodup) (ranges : DevUuid → List Range)
    (h : ∀ b ∈ bds, b.Holds (ranges b.uuid)) :
    ∃ history, Tracks bds history ∧
      totalLength history = (bds.map fun b => total (ranges b.uuid)).sum := by
  let used : DevUuid → List Range := fun u => (ranges u).filter fun r => 0 < r.2
  refine ⟨bds.flatMap fun b => granted b (used b.uuid), ⟨hn, fun b hb => ?_, fun s hs => ?_⟩, ?_⟩
  · rw [onDevice_flatMap_granted hn used hb]
    exact (h b hb).filter_pos
  · obtain ⟨b, hb, hs⟩ := mem_flatMap.mp hs
    have hpos : ∀ r ∈ used b.uuid, 0 < r.2 := fun r hr => by simpa using (mem_filter.mp hr).2
    obtain ⟨h1, h2, h3⟩ := of_mem_granted hpos hs
    exact ⟨h1, b, hb, h2.symm, h3.symm⟩
  · rw [flatMap_def, totalLength_flatten, map_map]
    congr 1
    refine map_congr_left fun b _ => ?_
    exact (totalLength_granted b _).trans (total_filter_pos _)

def Apart (s t : BlkDevSegment) : Prop := s.uuid ≠ t.uuid ∨ Disjoint s.range.cells t.range.cells

theorem apart_of_separate (hsep : ∀ u, Separate (onDevice u history)) :
    history.Pairwise Apart := by
  induction history with
  | nil => exact List.Pairwise.nil
  | cons s history ih =>
    refine pairwise_cons.mpr ⟨fun t ht => ?_, ih fun u => ?_⟩
    · by_cases hu : s.uuid = t.uuid
      · have hs := hsep t.uuid
        rw [onDevice, filter_cons_of_pos (by simpa using hu), map_cons, Separate,
          pairwise_cons] at hs
        exact Or.inr (hs.1 t.range (mem_onDevice.mpr ⟨t, ht, rfl, rfl⟩))
      · exact Or.inl hu
    · have hs := hsep u
      rw [onDevice, filter_cons] at hs
      split at hs
      · exact (pairwise_cons.mp hs).2
      · exact hs

theorem Tracks.apart (h : Tracks bds history) : history.Pairwise Apart := by
  refine apart_of_separate fun u => ?_
  by_cases hu : ∃ s ∈ history, s.uuid = u
  · obtain ⟨s, hs, rfl⟩ := hu
    obtain ⟨-, b, hb, hbu, -⟩ := h.home s hs
    rw [← hbu]
    exact (pairwise_cons.mp (h.holds b hb).separate).2
  · rw [onDevice_eq_nil fun s hs he => hu ⟨s, hs, he⟩]
    exact List.Pairwise.nil

theorem Tracks.size_eq {m : BlockDevMgr} (h : Tracks m.blockDevs history) :
    m.size = .ok (m.blockDevs.map (·.bda.devSize)).sum := by
  have hsizes : collect (·.totalSize) m.blockDevs =
      .ok (m.blockDevs.map (·.bda.devSize)) :=
    collect_eq_map fun b hb => (h.holds b hb).account.2
  rw [BlockDevMgr.size, hsizes, ok_bind]

theorem Tracks.account {m : BlockDevMgr} (h : Tracks m.blockDevs history) :
    m.size = .ok (m.availSpace + totalLength history + m.metadataSize) := by
  rw [h.size_eq, BlockDevMgr.availSpace, BlockDevMgr.metadataSize,
    ← sum_onDevice h.nodup fun s hs => by
      obtain ⟨-, b, hb, hu, -⟩ := h.home s hs
      exact mem_map.mpr ⟨b, hb, hu⟩,
    map_map, ← sum_map_add, ← sum_map_add]
  congr 2
  exact map_congr_left fun b hb => (h.holds b hb).account.1.symm

/-! ### Runs of allocations -/

/-- A device just made, with nothing but its BDA in use. -/
def StratBlockDev.Fresh (b : StratBlockDev) : Prop :=
  ∃ dev bda userInfo hardwareInfo, bda.devSize < u64Bound ∧ bda.extendedSize ≤ bda.devSize ∧
    StratBlockDev.new dev bda [] userInfo hardwareInfo = .ok b

theorem StratBlockDev.Fresh.holds {b : StratBlockDev} (h : b.Fresh) : b.Holds [] := by
  obtain ⟨dev, bda, ui, hi, hl, -, hb⟩ := h
  exact (StratBlockDev.holds_of_new hl hb).1

theorem StratBlockDev.exists_fresh (bda : BDA) (dev : Device) (hl : bda.devSize < u64Bound)
    (hs : bda.extendedSize ≤ bda.devSize) :
    ∃ b : StratBlockDev, b.Fresh ∧ b.identity = (dev, bda, none, none) := by
  have hf : (PerDevSegments.new bda.devSize).FitsAll [(0, bda.extendedSize)] := by
    refine ⟨fun r hr => ?_, pairwise_singleton _ _⟩
    rw [mem_singleton.mp hr]
    exact ⟨Nat.zero_le _, Or.inr ⟨by simpa [PerDevSegments.new] using hs, by simp⟩⟩
  obtain ⟨a, ha, -⟩ := new_of_fits hl hf
  refine ⟨⟨dev, bda, a, none, none⟩, ⟨dev, bda, none, none, hl, hs, ?_⟩, rfl⟩
  rw [StratBlockDev.new, ha, ok_bind]

inductive AllocInput where
  | alloc (sizes : List ℕ)
  | add (bds : List StratBlockDev)

namespace BlockDevMgr

def allocStep (m : BlockDevMgr) :
    AllocInput → BlockDevMgr × StratisResult (Option (List (List BlkDevSegment)))
  | .alloc sizes =>
    match m.allocSpace sizes with
    | .ok (m, lists) => (m, .ok lists)
    | .err e => (m, .err e)
    | .panic => (m, .panic)
  | .add bds => ({ m with blockDevs := m.blockDevs ++ bds }, .ok none)

/-- Sizes add up to a `u64`; added devices are fresh and new to the manager. -/
def Admits (m : BlockDevMgr) : AllocInput → Prop
  | .alloc sizes => sizes.sum < u64Bound
  | .add bds => (∀ b ∈ bds, b.Fresh) ∧ ((m.blockDevs ++ bds).map (·.uuid)).Nodup

def granted (tr : List (AllocInput × StratisResult (Option (List (List BlkDevSegment))))) :
    List BlkDevSegment :=
  tr.flatMap fun p => match p.2 with
    | .ok (some lists) => lists.flatten
    | _ => []

theorem run_tracks {m : BlockDevMgr} (hn : (m.blockDevs.map (·.uuid)).Nodup)
    (hf : ∀ b ∈ m.blockDevs, b.Fresh) {inputs : List AllocInput}
    (ha : AllSteps allocStep Admits m inputs) :
    Tracks (run allocStep m inputs).1.blockDevs (granted (run allocStep m inputs).2) := by
  have h0 : Tracks m.blockDevs [] :=
    ⟨hn, fun b hb => by simpa [onDevice] using (hf b hb).holds, by simp⟩
  refine run_invariant allocStep (P := fun m tr => Tracks m.blockDevs (granted tr))
    (fun m tr i hP hA => ?_) h0 ha
  have hsnoc : ∀ x, granted (tr ++ [x]) = granted tr ++ granted [x] := by simp [granted]
  cases i with
  | alloc sizes =>
    rcases hP.allocSpace sizes with ⟨-, heq⟩ | ⟨-, bds', lists, heq, -, htr, -⟩
    · rw [hsnoc]
      simpa [allocStep, heq, granted] using hP
    · rw [hsnoc]
      simpa [allocStep, heq, granted] using htr
  | add bds =>
    rw [hsnoc]
    simpa [allocStep, granted] using hP.extend hA.2 fun b hb => (hA.1 b hb).holds

end BlockDevMgr

end Stratisd.Backstore
