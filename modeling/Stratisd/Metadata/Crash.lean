import Stratisd.Metadata.Register

/-! What a device reads after a save that was cut off. A save makes four writes: the
header and the data of the first copy, then the header and the data of the second.
Loading trusts the header of the first copy as soon as it is there, so the cut right
behind the first write leaves a header that announces data which is in neither copy. -/

namespace Stratisd.Metadata

open Run Engine Media MDARegions

/-- A save that stops after `k` of its four writes. -/
def cutAfter (k : ℕ) : SaveIo :=
  if k < 2 then ⟨some ⟨k, 0⟩, none⟩ else ⟨none, some ⟨k - 2, 0⟩⟩

namespace DeviceStore

variable {crc : List UInt8 → UInt32} {s : DeviceStore} {v : Option (DateTime × List UInt8)}
  {c : SaveCall}

/-- What the two copies of the slot that the next save overwrites hold where its data will
be, as far as that can be read. -/
def staleCopies (s : DeviceStore) (len : ℕ) : List (List UInt8) :=
  [(s.bda.regions.older : ℕ), s.bda.regions.older + numPrimaryMdaRegions].filterMap fun index =>
    readExact s.disk (MDARegions.mdaOffset staticHeaderSize index s.bda.regions.regionSize.bytes +
      mdaRegionHdrSize) len

/-- The first stale copy that passes for the new data by its checksum is that data, or
the data of the last save. -/
def StaleCopyPasses (crc : List UInt8 → UInt32) (s : DeviceStore) (data : List UInt8)
    (last : Option (List UInt8)) : Prop :=
  ∃ bytes, (s.staleCopies data.length).find? (fun bytes => crc data = crc bytes) = some bytes ∧
    (bytes = data ∨ last = some bytes)

/-- A fresh load reads the data of the interrupted save or of the last completed one;
nothing only if none had been completed. -/
def Recovers (crc : List UInt8 → UInt32) (header : StaticHeader) (d : Disk) (data : List UInt8)
    (last : Option (List UInt8)) : Prop :=
  ∃ b r, BDA.load crc header d = .ok (some b) ∧ b.loadState crc d = .ok r ∧
    (r = some data ∨ r = last)

theorem writeAll_nil (d : Disk) (pos : ℕ) : writeAll d pos [] = d := by
  funext i
  rw [writeAll_outside]
  simp only [List.length_nil]
  omega

theorem disk_cut_zero (hf : s.Fits) (ht : 0 ≤ c.time.secs)
    (hr : ¬ s.bda.regions.Rejects c.time c.data) (hio : c.io.first = some ⟨0, 0⟩) :
    (s.save crc c).1.disk = s.disk := by
  obtain ⟨hdrBuf, hb, he⟩ := save_accepted crc hf ht hr
  rw [he]
  simp [hio, saveCopies, Cut.apply, Write.truncate, regionWrites,
    saveRegion_eq hf (index_lt _).1, writeAll_nil]

theorem disk_cut_one (h : s.Represents crc v) (ht : 0 ≤ c.time.secs)
    (hr : ¬ s.bda.regions.Rejects c.time c.data) (hio : c.io = cutAfter 1) :
    ∃ hdrBuf, (MDAHeader.describe crc c.time c.data).toBuf crc = .ok hdrBuf ∧
      (s.save crc c).1.disk = writeAll s.disk (mdaOffset staticHeaderSize
        s.bda.regions.older s.bda.regions.regionSize.bytes) hdrBuf := by
  obtain ⟨hdrBuf, hb, he⟩ := save_accepted crc h.fits ht hr
  refine ⟨hdrBuf, hb, ?_⟩
  rw [he, hio]
  simp [cutAfter, saveCopies, Cut.apply, Write.truncate, regionWrites,
    saveRegion_eq h.fits (index_lt _).1, writeAll_nil]

theorem recovers_last (h : s.Represents crc v) (hrel : s.Reloadable crc) (data : List UInt8) :
    Recovers crc s.bda.header s.disk data (v.map (·.2)) :=
  ⟨s.bda, v.map (·.2), hrel.load, h.loadState, Or.inr rfl⟩

theorem recovers_new (h : s.Represents crc v) (hrel : s.Reloadable crc) (ht : 0 ≤ c.time.secs)
    (hne : c.data ≠ []) (hr : ¬ s.bda.regions.Rejects c.time c.data) (hio : c.io.first = none)
    (last : Option (List UInt8)) :
    Recovers crc s.bda.header (s.save crc c).1.disk c.data last :=
  ⟨(s.completed crc c).bda, some c.data, (reloadable_completed h.fits hrel ht hne hr hio).load,
    (represents_completed h.fits ht hr hio).loadState, Or.inl rfl⟩

theorem load_cut_one (h : s.Represents crc v) (hrel : s.Reloadable crc) (ht : 0 ≤ c.time.secs)
    (hne : c.data ≠ []) (hr : ¬ s.bda.regions.Rejects c.time c.data) (hio : c.io = cutAfter 1) :
    BDA.load crc s.bda.header (s.save crc c).1.disk = .ok (some ⟨s.bda.header, s.updated crc c⟩) := by
  obtain ⟨hdrBuf, hb, hd⟩ := disk_cut_one h ht hr hio
  have hread := readExact_writeAll s.disk (mdaOffset staticHeaderSize
    s.bda.regions.older s.bda.regions.regionSize.bytes) hdrBuf
  rw [← hd, MDAHeader.length_of_toBuf hb] at hread
  exact (reloadable_of_hdr h.fits hrel ht hne hb hread).load

theorem tryBoth_eq_ok {data : List UInt8} {first second : Option (List UInt8)}
    {r : Option (List UInt8)} :
    let read (copy : Option (List UInt8)) : StratisResult (List UInt8) :=
      match copy with
      | none => .err .io
      | some bytes => if crc data = crc bytes then .ok bytes else .err (.msg "MDA region data CRC")
    ((do let data ← (read first).orElse (read second); .ok (some data)) :
        StratisResult (Option (List UInt8))) = .ok r ↔
      ∃ bytes, (first.toList ++ second.toList).find? (fun bytes => crc data = crc bytes) =
        some bytes ∧ r = some bytes := by
  intro read
  have hread : ∀ a, read (some a) = .ok a ∧ crc data = crc a ∨
      (∃ e, read (some a) = .err e) ∧ crc data ≠ crc a := by
    intro a
    by_cases ha : crc data = crc a
    · exact Or.inl ⟨if_pos ha, ha⟩
    · exact Or.inr ⟨⟨_, if_neg ha⟩, ha⟩
  have hnone : read none = .err .io := rfl
  rcases first with _ | a
  · rcases second with _ | b
    · simp [hnone]
    · rcases hread b with ⟨hb, hcb⟩ | ⟨⟨e, hb⟩, hcb⟩ <;> simp [hnone, hb, hcb, eq_comm]
  · rcases hread a with ⟨ha, hca⟩ | ⟨⟨e, ha⟩, hca⟩
    · simp [ha, hca, eq_comm]
    · rcases second with _ | b
      · simp [ha, hca, hnone]
      · rcases hread b with ⟨hb, hcb⟩ | ⟨⟨e, hb⟩, hcb⟩
        · simp only [ha, hb, Outcome.err_orElse, Outcome.ok_bind]
          simp [hca, decide_eq_true hcb, eq_comm]
        · simp [ha, hca, hb, hcb]

/-- The data that the new header announces is looked for in the stale copies. -/
theorem loadState_cut_one (h : s.Represents crc v) (ht : 0 ≤ c.time.secs)
    (hr : ¬ s.bda.regions.Rejects c.time c.data) (hio : c.io = cutAfter 1)
    {r : Option (List UInt8)} :
    (⟨s.bda.header, s.updated crc c⟩ : BDA).loadState crc (s.save crc c).1.disk = .ok r ↔
      ∃ bytes, (s.staleCopies c.data.length).find? (fun bytes => crc c.data = crc bytes) =
        some bytes ∧ r = some bytes := by
  obtain ⟨hdrBuf, hb, hd⟩ := disk_cut_one h ht hr hio
  have hlen := MDAHeader.length_of_toBuf hb
  have hl := not_lt.mp (not_or.mp hr).2
  have hf : (s.updated crc c).Fits staticHeaderSize := ⟨h.fits.hdr_le, h.fits.seekable⟩
  have hu : c.data.length ≤ i64Max := h.fits.length_le hl
  have hn : (s.updated crc c).newer = s.bda.regions.older := newer_updated hr
  have hh : (s.updated crc c).mdaHeaders (s.updated crc c).newer =
      some (MDAHeader.describe crc c.time c.data) := by rw [hn, updated_older]
  have hlt : (s.bda.regions.older : ℕ) < s.bda.regions.older + numPrimaryMdaRegions :=
    Nat.lt_add_of_pos_right (by decide)
  have hdis := mdaOffset_disjoint staticHeaderSize s.bda.regions.regionSize.bytes hlt
  -- the header write touches the data of neither copy
  have hread : ∀ index, index = (s.bda.regions.older : ℕ) ∨
      index = s.bda.regions.older + numPrimaryMdaRegions →
      readExact (s.save crc c).1.disk (mdaOffset staticHeaderSize index
        s.bda.regions.regionSize.bytes + mdaRegionHdrSize) c.data.length =
      readExact s.disk (mdaOffset staticHeaderSize index
        s.bda.regions.regionSize.bytes + mdaRegionHdrSize) c.data.length := by
    intro index hindex
    rw [hd]
    refine readExact_outside (fun i hi => writeAll_outside hi) (Or.inr ?_)
    rcases hindex with rfl | rfl <;> omega
  rw [BDA.loadState, loadState_eq hf hh, loadRegion_describe hu,
    loadRegion_describe hu, hn]
  have hsize : (s.updated crc c).regionSize = s.bda.regions.regionSize := rfl
  rw [hsize, hread _ (Or.inl rfl), hread _ (Or.inr rfl)]
  have hstale : ∀ (f : ℕ → Option (List UInt8)) (i j : ℕ),
      [i, j].filterMap f = (f i).toList ++ (f j).toList := by
    intro f i j
    cases hi : f i <;> cases hj : f j <;> simp [hi, hj]
  rw [staleCopies, hstale]
  generalize readExact s.disk (mdaOffset staticHeaderSize s.bda.regions.older
    s.bda.regions.regionSize.bytes + mdaRegionHdrSize) c.data.length = first
  generalize readExact s.disk (mdaOffset staticHeaderSize
    (s.bda.regions.older + numPrimaryMdaRegions) s.bda.regions.regionSize.bytes +
      mdaRegionHdrSize) c.data.length = second
  exact tryBoth_eq_ok

/-- The cut behind the first of the four writes is the only one that can lose metadata. -/
theorem recovers_cut_iff (h : s.Represents crc v) (hrel : s.Reloadable crc) (ht : 0 ≤ c.time.secs)
    (hne : c.data ≠ []) (hr : ¬ s.bda.regions.Rejects c.time c.data) {k : ℕ}
    (hio : c.io = cutAfter k) :
    Recovers crc s.bda.header (s.save crc c).1.disk c.data (v.map (·.2)) ↔
      k ≠ 1 ∨ s.StaleCopyPasses crc c.data (v.map (·.2)) := by
  rcases lt_trichotomy k 1 with hk | rfl | hk
  · obtain rfl : k = 0 := by omega
    rw [disk_cut_zero h.fits ht hr (by rw [hio]; rfl)]
    exact iff_of_true (recovers_last h hrel c.data) (Or.inl (by decide))
  · simp only [ne_eq, not_true_eq_false, false_or, Recovers, load_cut_one h hrel ht hne hr hio]
    constructor
    · rintro ⟨b, r, hb, hr', hlast⟩
      cases hb
      obtain ⟨bytes, hfind, rfl⟩ := (loadState_cut_one h ht hr hio).mp hr'
      exact ⟨bytes, hfind, hlast.imp Option.some.inj Eq.symm⟩
    · rintro ⟨bytes, hfind, hlast⟩
      refine ⟨_, some bytes, rfl, (loadState_cut_one h ht hr hio).mpr ⟨bytes, hfind, rfl⟩, ?_⟩
      exact hlast.imp (congrArg some) Eq.symm
  · have hfirst : c.io.first = none := by rw [hio, cutAfter, if_neg (by omega)]
    exact iff_of_true (recovers_new h hrel ht hne hr hfirst _) (Or.inl (by omega))

/-- After any run of completed saves, one further save that is cut off after `k` writes
leaves a device that loads, with the data of that save or of the last completed one, exactly
when the cut is not right behind the first write or a stale copy happens to pass for the
right data. -/
theorem interrupted_save_recovers_iff (h : s.Initialized crc) (calls : List SaveCall)
    (hc : ∀ c ∈ calls, c.data ≠ [] ∧ 0 ≤ c.time.secs)
    (hok : ∀ p ∈ (run (save crc) s calls).2, p.2 = .ok ()) (c : SaveCall) (hne : c.data ≠ [])
    (ht : 0 ≤ c.time.secs) (k : ℕ) (hio : c.io = cutAfter k)
    (hr : ¬ (run (save crc) s calls).1.bda.regions.Rejects c.time c.data) :
    let live := (run (save crc) s calls).1
    let last := (lastAccepted Outcome.isOk (run (save crc) s calls).2).map (·.data)
    Recovers crc s.bda.header (live.save crc c).1.disk c.data last ↔
      k ≠ 1 ∨ live.StaleCopyPasses crc c.data last := by
  intro live last
  obtain ⟨hrep, hhdr, hrel⟩ := run_save_invariant h hc
  have hrel := hrel fun p hp => by rw [hok p hp]; simp
  have hiff := recovers_cut_iff hrep hrel ht hne hr hio
  rw [hhdr, Option.map_map] at hiff
  exact hiff

/-- The first save of a zeroed device, cut off behind its second write. -/
theorem interrupted_save_recovers_second_write :
    let crc := checksumCastagnoli
    let s := fresh crc ⟨⟨0⟩, ⟨1⟩⟩ MDADataSize.default 4194304 0 (fun _ => some 0)
    let c : SaveCall := ⟨⟨10, 0, by decide, by decide, by decide⟩, [1], cutAfter 2⟩
    Recovers crc s.bda.header (s.save crc c).1.disk c.data none := by
  intro crc s c
  have h : s.Initialized crc := fresh_initialized (by decide)
  have hiff := interrupted_save_recovers_iff h [] (by simp) (by simp) c (by decide) (by decide) 2 rfl
    (by decide +kernel)
  simp only [run_nil, lastAccepted_nil, Option.map_none] at hiff
  exact hiff.mpr (Or.inl (by decide))

/-- A completed save of `[1]`, then a save of `[2]` that is cut off behind its first write:
the device does not load any more. -/
theorem interrupted_save_loses_metadata :
    let crc := checksumCastagnoli
    let s := fresh crc ⟨⟨0⟩, ⟨1⟩⟩ MDADataSize.default 4194304 0 (fun _ => some 0)
    let c₁ : SaveCall := ⟨⟨10, 0, by decide, by decide, by decide⟩, [1], ⟨none, none⟩⟩
    let c₂ : SaveCall := ⟨⟨20, 0, by decide, by decide, by decide⟩, [2], cutAfter 1⟩
    let live := (s.save crc c₁).1
    (s.save crc c₁).2 = .ok () ∧
      ¬ Recovers crc s.bda.header (live.save crc c₂).1.disk c₂.data (some c₁.data) := by
  intro crc s c₁ c₂ live
  refine ⟨by decide +kernel, ?_⟩
  rintro ⟨b, r, hload, hstate, -⟩
  have heval : (BDA.load crc s.bda.header (live.save crc c₂).1.disk >>= fun b =>
      match b with
      | some b => b.loadState crc (live.save crc c₂).1.disk
      | none => .ok none) = .err (.msg "MDA region data CRC") := by decide +kernel
  rw [hload, Outcome.ok_bind] at heval
  have := hstate.symm.trans heval
  simp at this

end DeviceStore

end Stratisd.Metadata
