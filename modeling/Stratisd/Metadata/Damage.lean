import Stratisd.Metadata.Register

/-! Damage to one of the four MDA regions. Completed saves leave both copies of a slot alike,
so whichever region is damaged, the copy that is read instead of it is intact. -/

namespace Stratisd.Metadata

open Run Engine Media MDARegions

namespace DeviceStore

variable {crc : List UInt8 → UInt32} {s : DeviceStore} {c : SaveCall}

/-- The region is one of the two copies of a slot. -/
def IsCopy (i : Fin 2) (index : ℕ) : Prop := index = i ∨ index = i + numPrimaryMdaRegions

abbrev offset (s : DeviceStore) (index : ℕ) : ℕ :=
  MDARegions.mdaOffset staticHeaderSize index s.bda.regions.regionSize.bytes

/-- Both copies of the slot hold the given metadata, or the note that there is none. -/
structure Mirrored (crc : List UInt8 → UInt32) (s : DeviceStore) (i : Fin 2)
    (v : Option (DateTime × List UInt8)) : Prop where
  memory : s.bda.regions.mdaHeaders i = v.map fun p => MDAHeader.describe crc p.1 p.2
  length_le : ∀ p ∈ v, p.2.length + mdaRegionHdrSize ≤ s.bda.regions.regionSize.bytes
  header : ∀ index, IsCopy i index → MDARegions.loadARegion crc staticHeaderSize
    s.bda.regions.regionSize s.disk index = .ok (s.bda.regions.mdaHeaders i)
  data : ∀ p ∈ v, ∀ index, IsCopy i index →
    readExact s.disk (s.offset index + mdaRegionHdrSize) p.2.length = some p.2

/-! ### Completed saves -/

theorem of_save_ok (hf : s.Fits) (hok : (s.save crc c).2 = .ok ()) :
    0 ≤ c.time.secs ∧ ¬ s.bda.regions.Rejects c.time c.data ∧ c.io = ⟨none, none⟩ := by
  have hr : ¬ s.bda.regions.Rejects c.time c.data := by
    intro hr
    obtain ⟨text, he⟩ := save_rejected crc hf hr
    rw [he] at hok
    cases hok
  have ht : 0 ≤ c.time.secs := by
    by_contra hneg
    have hbuf : (MDAHeader.describe crc c.time c.data).toBuf crc = .panic := by
      rw [MDAHeader.toBuf]
      exact if_pos (not_le.mp hneg)
    simp only [save, BDA.saveState, saveState_not_rejected crc c.io s.disk hf hr,
      hbuf] at hok
    cases hok
  refine ⟨ht, hr, ?_⟩
  by_contra hio
  rw [save_fault hf ht hr hio] at hok
  cases hok

theorem save_holds_copy (hf : s.Fits) (hok : (s.save crc c).2 = .ok ()) :
    ∃ hdrBuf, (MDAHeader.describe crc c.time c.data).toBuf crc = .ok hdrBuf ∧
      ∀ index, IsCopy s.bda.regions.older index →
        MDARegions.HoldsAt (s.save crc c).1.disk (s.offset index) hdrBuf c.data := by
  obtain ⟨ht, hr, hio⟩ := of_save_ok hf hok
  obtain ⟨hdrBuf, hb, hfirst⟩ := save_holds hf ht hr (by rw [hio])
  refine ⟨hdrBuf, hb, ?_⟩
  rintro index (rfl | rfl)
  · exact hfirst
  · obtain ⟨hdrBuf', hb', he⟩ := save_accepted crc hf ht hr
    cases hb.symm.trans hb'
    rw [he, hio, saveCopies_done hf]
    exact holdsAt_regionWrites c.data _ _ (MDAHeader.length_of_toBuf hb)

theorem mirrored_save_older (hf : s.Fits) (hne : c.data ≠ []) (hok : (s.save crc c).2 = .ok ()) :
    (s.save crc c).1.Mirrored crc s.bda.regions.older (some (c.time, c.data)) := by
  obtain ⟨ht, hr, hio⟩ := of_save_ok hf hok
  obtain ⟨hdrBuf, hb, hold⟩ := save_holds_copy hf hok
  have hdone : s.save crc c = (s.completed crc c, .ok ()) := save_done hf ht hr hio
  have hused : (MDAHeader.describe crc c.time c.data).used ≠ 0 := by
    simpa [MDAHeader.describe] using hne
  rw [hdone] at hold ⊢
  refine ⟨updated_older, ?_, fun index hi => ?_, ?_⟩
  · rintro p ⟨rfl⟩
    exact not_lt.mp (not_or.mp hr).2
  · have hlt : index < numMdaRegions := by
      rcases hi with rfl | rfl
      · exact (index_lt _).1
      · exact (index_lt _).2
    have hload := loadARegion_eq hf hlt (hold index hi).hdr hb
    rw [if_neg hused] at hload
    exact hload.trans (congrArg _ updated_older.symm)
  · rintro p ⟨rfl⟩ index hi
    exact (hold index hi).data

theorem mirrored_save_newer {v : Option (DateTime × List UInt8)} (hf : s.Fits)
    (hok : (s.save crc c).2 = .ok ()) (h : s.Mirrored crc s.bda.regions.newer v) :
    (s.save crc c).1.Mirrored crc s.bda.regions.newer v := by
  obtain ⟨ht, hr, hio⟩ := of_save_ok hf hok
  have hdone : s.save crc c = (s.completed crc c, .ok ()) := save_done hf ht hr hio
  have hother : ∀ index, IsCopy s.bda.regions.newer index → index ≠ s.bda.regions.older ∧
      index ≠ s.bda.regions.older + numPrimaryMdaRegions := by
    rintro index (rfl | rfl)
    · exact newer_ne_older.1
    · exact newer_ne_older.2
  have hread : ∀ index, IsCopy s.bda.regions.newer index → ∀ pos len,
      pos + len ≤ s.bda.regions.regionSize.bytes →
      readExact (s.save crc c).1.disk (s.offset index + pos) len =
        readExact s.disk (s.offset index + pos) len :=
    fun index hi pos len hlen => save_read_other hf ht (hother index hi) hlen
  rw [hdone] at hread ⊢
  refine ⟨updated_newer.trans h.memory, h.length_le, fun index hi => ?_, fun p hp index hi => ?_⟩
  · refine (loadARegion_congr (d := s.disk) ?_).trans
      ((h.header index hi).trans (congrArg _ updated_newer.symm))
    exact hread index hi 0 _ (by simpa using hf.hdr_le)
  · refine (hread index hi _ _ ?_).trans (h.data p hp index hi)
    have := h.length_le p hp
    omega

/-! ### Runs of completed saves -/

/-- All regions can be sought, and both slots are mirrored. -/
structure Intact (crc : List UInt8 → UInt32) (header : StaticHeader) (s : DeviceStore) : Prop where
  fits : s.Fits
  header_eq : s.bda.header = header
  size : header.mdaSize.regionSize = s.bda.regions.regionSize
  mirrored : ∀ i, ∃ v, s.Mirrored crc i v

theorem Initialized.intact (h : s.Initialized crc) : s.Intact crc s.bda.header := by
  have hrel := h.represents.2
  obtain ⟨ids, mdaDataSize, size, time, io, d, hb, hi⟩ := h
  rw [hb] at hi
  obtain ⟨hf, hload⟩ := BDA.initializeDevice_ok hi
  rw [← hb] at hf hload
  have hnone : ∀ i, s.bda.regions.mdaHeaders i = none := by rw [hb]; intro i; rfl
  refine ⟨hf, rfl, hrel.size, fun i => ⟨none, hnone i, by simp, fun index hi => ?_, by simp⟩⟩
  rw [hnone]
  rcases hi with rfl | rfl
  · exact hload _ (index_lt i).1
  · exact hload _ (index_lt i).2

theorem Intact.save {header : StaticHeader} (h : s.Intact crc header) (hne : c.data ≠ [])
    (hok : (s.save crc c).2 = .ok ()) :
    (s.save crc c).1.Intact crc header ∧
      (s.save crc c).1.Mirrored crc (s.save crc c).1.bda.regions.newer
        (some (c.time, c.data)) := by
  obtain ⟨ht, hr, hio⟩ := of_save_ok h.fits hok
  have hdone : s.save crc c = (s.completed crc c, .ok ()) := save_done h.fits ht hr hio
  have holder := mirrored_save_older h.fits hne hok
  have hnewer : (s.save crc c).1.bda.regions.newer = s.bda.regions.older := by
    rw [hdone]
    exact newer_updated hr
  have hmirrored : ∀ i, ∃ v, (s.save crc c).1.Mirrored crc i v := by
    intro i
    rcases Alternate.eq_or_eq_other i s.bda.regions.older with rfl | rfl
    · exact ⟨_, holder⟩
    · obtain ⟨v, hv⟩ := h.mirrored s.bda.regions.newer
      exact ⟨v, mirrored_save_newer h.fits hok hv⟩
  rw [hnewer]
  refine ⟨⟨?_, ?_, ?_, hmirrored⟩, holder⟩
  · rw [hdone]
    exact ⟨h.fits.hdr_le, h.fits.seekable⟩
  · rw [hdone]
    exact h.header_eq
  · rw [hdone]
    exact h.size

/-! ### Damage -/

/-- Bytes of one region have been overwritten. A header that changed is not accepted any
more, and data that changed does not match the checksum in the header of its slot. -/
structure Damaged (crc : List UInt8 → UInt32) (s : DeviceStore) (index : ℕ) (d : Disk) : Prop where
  outside : ∀ p, p < s.offset index ∨ s.offset index + s.bda.regions.regionSize.bytes ≤ p →
    d p = s.disk p
  header : readExact d (s.offset index) mdaRegionHdrSize =
      readExact s.disk (s.offset index) mdaRegionHdrSize ∨
    ∃ e, MDARegions.loadARegion crc staticHeaderSize s.bda.regions.regionSize d index = .err e
  data : ∀ i, IsCopy i index → ∀ mda ∈ s.bda.regions.mdaHeaders i,
    readExact d (s.offset index + mdaRegionHdrSize) mda.used =
        readExact s.disk (s.offset index + mdaRegionHdrSize) mda.used ∨
      ∀ bytes, readExact d (s.offset index + mdaRegionHdrSize) mda.used = some bytes →
        mda.dataCrc ≠ crc bytes

variable {d : Disk} {j : ℕ}

theorem Damaged.read_other (h : s.Damaged crc j d) {index pos len : ℕ} (hj : index ≠ j)
    (hlen : pos + len ≤ s.bda.regions.regionSize.bytes) :
    readExact d (s.offset index + pos) len = readExact s.disk (s.offset index + pos) len := by
  apply readExact_outside h.outside
  rcases Nat.lt_or_gt_of_ne hj with hlt | hgt
  · left
    have hdis : s.offset index + s.bda.regions.regionSize.bytes ≤ s.offset j :=
      mdaOffset_disjoint staticHeaderSize _ hlt
    omega
  · right
    have hdis : s.offset j + s.bda.regions.regionSize.bytes ≤ s.offset index :=
      mdaOffset_disjoint staticHeaderSize _ hgt
    omega

theorem Damaged.getMda (h : s.Damaged crc j d) (hf : s.Fits) {i : Fin 2}
    {v : Option (DateTime × List UInt8)} (hm : s.Mirrored crc i v) :
    MDARegions.getMda crc staticHeaderSize s.bda.regions.regionSize d i =
      .ok (s.bda.regions.mdaHeaders i) := by
  have hsame : ∀ index, IsCopy i index → index ≠ j →
      MDARegions.loadARegion crc staticHeaderSize s.bda.regions.regionSize d index =
        .ok (s.bda.regions.mdaHeaders i) := by
    intro index hi hj
    rw [← hm.header index hi]
    apply loadARegion_congr
    have hread := h.read_other hj (show 0 + mdaRegionHdrSize ≤ _ by simpa using hf.hdr_le)
    exact hread
  rw [MDARegions.getMda]
  by_cases hj : (i : ℕ) = j
  · rcases h.header with heq | ⟨e, herr⟩
    · rw [← hj] at heq
      rw [loadARegion_congr heq, hm.header i (Or.inl rfl)]
      rfl
    · rw [hj, herr, ← hj]
      refine hsame _ (Or.inr rfl) ?_
      rw [← hj]
      simp [numPrimaryMdaRegions]
  · rw [hsame i (Or.inl rfl) hj]
    rfl

theorem Damaged.loadState (h : s.Damaged crc j d) (hf : s.Fits) {time : DateTime}
    {data : List UInt8} (hm : s.Mirrored crc s.bda.regions.newer (some (time, data))) :
    s.bda.regions.loadState crc staticHeaderSize d = .ok (some data) := by
  have hlen : data.length + mdaRegionHdrSize ≤ s.bda.regions.regionSize.bytes :=
    hm.length_le _ rfl
  have hsame : ∀ index, IsCopy s.bda.regions.newer index → index ≠ j →
      readExact d (s.offset index + mdaRegionHdrSize) data.length = some data := by
    intro index hi hj
    rw [h.read_other hj (by omega)]
    exact hm.data _ rfl index hi
  have hmem : s.bda.regions.mdaHeaders s.bda.regions.newer =
      some (MDAHeader.describe crc time data) := hm.memory
  rw [loadState_eq hf hmem, loadRegion_describe (hf.length_le hlen),
    loadRegion_describe (hf.length_le hlen)]
  by_cases hj : (s.bda.regions.newer : ℕ) = j
  · have hsecond := hsame _ (Or.inr rfl) (by rw [← hj]; simp [numPrimaryMdaRegions])
    have hdata := h.data _ (Or.inl hj.symm) _ hmem
    rw [← hj] at hdata
    change readExact d _ data.length = readExact s.disk _ data.length ∨
      ∀ bytes, readExact d _ data.length = some bytes → crc data ≠ crc bytes at hdata
    rw [hm.data _ rfl _ (Or.inl rfl)] at hdata
    rw [hsecond]
    rcases hdata with hsameData | hdiff
    · rw [hsameData]
      simp
    · cases hfirst : readExact d (s.offset s.bda.regions.newer + mdaRegionHdrSize) data.length with
      | none => simp
      | some bytes => simp [hdiff bytes hfirst]
  · rw [hsame _ (Or.inl rfl) hj]
    simp

/-- After any run of one or more completed saves on an initialized device, any damage to one
of the four regions leaves the data and the time of the last save to be loaded. -/
theorem damaged_region_tolerated (h : s.Initialized crc) (calls : List SaveCall) (c : SaveCall)
    (hne : ∀ call ∈ calls ++ [c], call.data ≠ [])
    (hok : ∀ p ∈ (run (save crc) s (calls ++ [c])).2, p.2 = .ok ()) (j : ℕ) (d : Disk)
    (hd : (run (save crc) s (calls ++ [c])).1.Damaged crc j d) :
    ∃ r, MDARegions.load crc staticHeaderSize s.bda.header.mdaSize d = .ok r ∧
      r.loadState crc staticHeaderSize d = .ok (some c.data) ∧
      r.lastUpdateTime = some c.time := by
  have hall : AllSteps (save crc) (fun live call => call.data ≠ [] ∧
      (live.save crc call).2 = .ok ()) s (calls ++ [c]) :=
    (allSteps_of_forall (save crc) hne).and (save crc) 
      (allSteps_of_forall_output (save crc) (Q := fun out => out = .ok ()) hok)
  obtain ⟨hcalls, hlast, -⟩ := (allSteps_append (save crc)).mp hall
  have hbefore : (run (save crc) s calls).1.Intact crc s.bda.header :=
    run_state_invariant (save crc) (fun live call hi ha => (hi.save ha.1 ha.2).1) h.intact hcalls
  obtain ⟨hlive, hnewest⟩ := hbefore.save hlast.1 hlast.2
  rw [run_append] at hd
  simp only [run_cons, run_nil] at hd
  generalize ((run (save crc) s calls).1.save crc c).1 = live at hd hlive hnewest
  refine ⟨live.bda.regions, MDARegions.load_eq hlive.size fun i => ?_,
    hd.loadState hlive.fits hnewest, ?_⟩
  · obtain ⟨v, hv⟩ := hlive.mirrored i
    exact hd.getMda hlive.fits hv
  · rw [MDARegions.lastUpdateTime, hnewest.memory]
    rfl

theorem damaged_of_header (hf : s.Fits) {bs : List UInt8} (hl : bs.length = mdaRegionHdrSize)
    {e : StratisError} (he : MDARegions.loadARegion crc staticHeaderSize s.bda.regions.regionSize
      (writeAll s.disk (s.offset j) bs) j = .err e) :
    s.Damaged crc j (writeAll s.disk (s.offset j) bs) := by
  have hdr := hf.hdr_le
  refine ⟨fun p hp => writeAll_outside (by omega), Or.inr ⟨e, he⟩, fun i hi mda hm => Or.inl ?_⟩
  exact readExact_outside (fun p hp => writeAll_outside hp) (Or.inr (by omega))

/-- One save on a fresh device, and then the header of its first copy is overwritten. -/
theorem damaged_region_tolerated_first_header :
    let crc := checksumCastagnoli
    let s := fresh crc ⟨⟨0⟩, ⟨1⟩⟩ MDADataSize.default 4194304 0 (fun _ => some 0)
    let c : SaveCall := ⟨⟨10, 0, by decide, by decide, by decide⟩, [1], ⟨none, none⟩⟩
    let live := (s.save crc c).1
    let d := writeAll live.disk (live.offset 0) (List.replicate mdaRegionHdrSize 255)
    ∃ r, MDARegions.load crc staticHeaderSize s.bda.header.mdaSize d = .ok r ∧
      r.loadState crc staticHeaderSize d = .ok (some [1]) ∧ r.lastUpdateTime = some c.time := by
  intro crc s c live d
  have hinit : s.Initialized crc := fresh_initialized (by decide)
  have hok : (s.save crc c).2 = .ok () := by decide +kernel
  have hf := (hinit.intact.save (by decide) hok).1.fits
  have hd : live.Damaged crc 0 d := damaged_of_header hf (by rw [List.length_replicate])
    (e := .msg "MDA region header CRC") (by decide +kernel)
  exact damaged_region_tolerated hinit [] c (by simp [c]) (by simpa using hok) 0 d hd

end DeviceStore

end Stratisd.Metadata
