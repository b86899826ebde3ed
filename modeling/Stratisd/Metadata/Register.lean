import Stratisd.Media.Crc
import Stratisd.Media.Register
import Stratisd.Metadata.Bda
import Stratisd.Run.Trace

/-! The metadata store of one device behaves like a register. The live object always
reads the last metadata whose save returned Ok, whatever the saves that failed in
between wrote; and as long as no save failed at an I/O step, loading the device afresh
finds the headers that the live object has. -/

namespace Stratisd.Metadata

open Run Run.Outcome Engine Media MDARegions

/-- A device together with the BDA that the engine keeps for it. -/
structure DeviceStore where
  bda : BDA
  disk : Disk

/-- One call of `save_state` and where its I/O stops, if it does. -/
structure SaveCall where
  time : DateTime
  data : List UInt8
  io : SaveIo
  deriving DecidableEq

namespace DeviceStore

variable (crc : List UInt8 → UInt32)

def save (s : DeviceStore) (c : SaveCall) : DeviceStore × StratisResult Unit :=
  let r := s.bda.saveState crc c.time c.data c.io s.disk
  (⟨r.1.1, r.1.2⟩, r.2)

/-- How the register sees the result of a save. -/
def verdict : StratisResult Unit → Option Verdict
  | .ok () => some .stored
  | .err (.msg _) => some .rejected
  | .err .io => some .failed
  | _ => none

/-- The register that a device with regions of the given size implements. -/
def register (size : MDARegionSize) (v : Option (DateTime × List UInt8)) (c : SaveCall) :
    Option (DateTime × List UInt8) × Verdict :=
  Register.put (fun data => data.length + mdaRegionHdrSize ≤ size.bytes) v c.time c.data
    (c.io ≠ ⟨none, none⟩)

/-- All regions of the device can be sought. -/
abbrev Fits (s : DeviceStore) : Prop := s.bda.regions.Fits staticHeaderSize

/-- The newer slot holds the value of the register. -/
structure Represents (s : DeviceStore) (v : Option (DateTime × List UInt8)) : Prop where
  fits : s.Fits
  newest : s.bda.regions.mdaHeaders s.bda.regions.newer =
    v.map fun p => MDAHeader.describe crc p.1 p.2
  stored : ∀ p ∈ v, p.2.length + mdaRegionHdrSize ≤ s.bda.regions.regionSize.bytes ∧
    readExact s.disk (MDARegions.mdaOffset staticHeaderSize s.bda.regions.newer
      s.bda.regions.regionSize.bytes + mdaRegionHdrSize) p.2.length = some p.2

/-- The slots on the device hold the headers in memory. -/
structure Reloadable (s : DeviceStore) : Prop where
  size : s.bda.header.mdaSize.regionSize = s.bda.regions.regionSize
  headers : ∀ i : Fin 2, MDARegions.getMda crc staticHeaderSize s.bda.regions.regionSize
    s.disk i = .ok (s.bda.regions.mdaHeaders i)

variable {crc} {s : DeviceStore} {v : Option (DateTime × List UInt8)} {c : SaveCall}

theorem Represents.lastUpdateTime (h : s.Represents crc v) :
    s.bda.lastUpdateTime = v.map (·.1) := by
  rw [BDA.lastUpdateTime, MDARegions.lastUpdateTime, h.newest, Option.map_map]
  rfl

theorem Represents.loadState (h : s.Represents crc v) :
    s.bda.loadState crc s.disk = .ok (v.map (·.2)) := by
  cases v with
  | none => simp only [BDA.loadState, MDARegions.loadState, h.newest, Option.map_none]
  | some p =>
    obtain ⟨hl, hr⟩ := h.stored p rfl
    exact loadState_of_first h.fits h.newest (h.fits.length_le hl) hr

theorem Represents.unique {w : Option (DateTime × List UInt8)} (h : s.Represents crc v)
    (h' : s.Represents crc w) : v = w := by
  have ht := h.lastUpdateTime.symm.trans h'.lastUpdateTime
  have hd := h.loadState.symm.trans h'.loadState
  cases v <;> cases w <;> simp at ht hd ⊢
  exact Prod.ext ht hd

theorem Represents.rejects_iff (h : s.Represents crc v) :
    s.bda.regions.Rejects c.time c.data ↔ (∃ p ∈ v, c.time ≤ p.1) ∨
      ¬ c.data.length + mdaRegionHdrSize ≤ s.bda.regions.regionSize.bytes := by
  have hlast : s.bda.regions.lastUpdateTime = v.map (·.1) := h.lastUpdateTime
  simp only [MDARegions.Rejects, hlast, Option.mem_def, Option.map_eq_some_iff, not_le]
  constructor
  · rintro (⟨_, ⟨p, hp, rfl⟩, ht⟩ | hl)
    · exact Or.inl ⟨p, hp, ht⟩
    · exact Or.inr hl
  · rintro (⟨p, hp, ht⟩ | hl)
    · exact Or.inl ⟨p.1, ⟨p, hp, rfl⟩, ht⟩
    · exact Or.inr hl

theorem save_rejected (crc : List UInt8 → UInt32) (hf : s.Fits) (hr : s.bda.regions.Rejects c.time c.data) :
    ∃ text, s.save crc c = (s, .err (.msg text)) := by
  obtain ⟨text, ht⟩ := saveState_rejected crc c.io s.disk hf hr
  exact ⟨text, by simp only [save, BDA.saveState, ht]⟩

theorem save_accepted (crc : List UInt8 → UInt32) (hf : s.Fits) (ht : 0 ≤ c.time.secs)
    (hr : ¬ s.bda.regions.Rejects c.time c.data) :
    ∃ hdrBuf, (MDAHeader.describe crc c.time c.data).toBuf crc = .ok hdrBuf ∧
      s.save crc c =
        let r := s.bda.regions.saveCopies staticHeaderSize
          (MDAHeader.describe crc c.time c.data) hdrBuf c.data c.io s.disk
        (⟨⟨s.bda.header, r.1.1⟩, r.1.2⟩, r.2) := by
  obtain ⟨hdrBuf, hb, he⟩ := saveState_accepted crc c.io s.disk hf ht hr
  exact ⟨hdrBuf, hb, by simp only [save, BDA.saveState, he]⟩

/-- The regions in memory once a call has been completed. -/
def updated (crc : List UInt8 → UInt32) (s : DeviceStore) (c : SaveCall) : MDARegions :=
  { s.bda.regions with
    mdaHeaders := Function.update s.bda.regions.mdaHeaders s.bda.regions.older
      (some (MDAHeader.describe crc c.time c.data)) }

/-- The store as a completed call leaves it in memory, over the device as the call leaves it. -/
def completed (crc : List UInt8 → UInt32) (s : DeviceStore) (c : SaveCall) : DeviceStore :=
  ⟨⟨s.bda.header, s.updated crc c⟩, (s.save crc c).1.disk⟩

theorem updated_older : (s.updated crc c).mdaHeaders s.bda.regions.older =
    some (MDAHeader.describe crc c.time c.data) := Function.update_self _ _ _

theorem updated_newer : (s.updated crc c).mdaHeaders s.bda.regions.newer =
    s.bda.regions.mdaHeaders s.bda.regions.newer :=
  Function.update_of_ne (Alternate.other_ne _) _ _

theorem newer_updated (hr : ¬ s.bda.regions.Rejects c.time c.data) :
    (s.updated crc c).newer = s.bda.regions.older := by
  refine newer_update fun last hlast => ?_
  by_contra hle
  exact hr (Or.inl ⟨last, hlast, not_lt.mp hle⟩)

theorem save_holds (hf : s.Fits) (ht : 0 ≤ c.time.secs)
    (hr : ¬ s.bda.regions.Rejects c.time c.data) (hio : c.io.first = none) :
    ∃ hdrBuf, (MDAHeader.describe crc c.time c.data).toBuf crc = .ok hdrBuf ∧
      MDARegions.HoldsAt (s.save crc c).1.disk (MDARegions.mdaOffset staticHeaderSize
        s.bda.regions.older s.bda.regions.regionSize.bytes) hdrBuf c.data := by
  obtain ⟨hdrBuf, hb, he⟩ := save_accepted crc hf ht hr
  refine ⟨hdrBuf, hb, ?_⟩
  have hold := saveCopies_holds c.io s.disk (MDAHeader.describe crc c.time c.data) hf
    (MDAHeader.length_of_toBuf hb) (not_lt.mp (not_or.mp hr).2)
  rw [he]
  rwa [← hio] at hold

/-- No call, however it ends, reaches the regions of the other slot. -/
theorem save_read_other (hf : s.Fits) (ht : 0 ≤ c.time.secs) {other offset len : ℕ}
    (hother : other ≠ s.bda.regions.older ∧ other ≠ s.bda.regions.older + numPrimaryMdaRegions)
    (hlen : offset + len ≤ s.bda.regions.regionSize.bytes) :
    readExact (s.save crc c).1.disk (MDARegions.mdaOffset staticHeaderSize other
        s.bda.regions.regionSize.bytes + offset) len =
      readExact s.disk (MDARegions.mdaOffset staticHeaderSize other
        s.bda.regions.regionSize.bytes + offset) len := by
  by_cases hr : s.bda.regions.Rejects c.time c.data
  · obtain ⟨text, he⟩ := save_rejected crc hf hr
    rw [he]
  · obtain ⟨hdrBuf, hb, he⟩ := save_accepted crc hf ht hr
    rw [he]
    exact saveCopies_read_other (MDAHeader.length_of_toBuf hb)
      (not_lt.mp (not_or.mp hr).2) hother hlen

theorem save_getMda_newer (hf : s.Fits) (ht : 0 ≤ c.time.secs) :
    MDARegions.getMda crc staticHeaderSize s.bda.regions.regionSize (s.save crc c).1.disk
        s.bda.regions.newer =
      MDARegions.getMda crc staticHeaderSize s.bda.regions.regionSize s.disk
        s.bda.regions.newer := by
  apply getMda_congr
  have hlen : 0 + mdaRegionHdrSize ≤ s.bda.regions.regionSize.bytes := by simpa using hf.hdr_le
  rintro i (rfl | rfl)
  · exact save_read_other hf ht newer_ne_older.1 hlen
  · exact save_read_other hf ht newer_ne_older.2 hlen

theorem represents_completed (hf : s.Fits) (ht : 0 ≤ c.time.secs)
    (hr : ¬ s.bda.regions.Rejects c.time c.data) (hio : c.io.first = none) :
    (s.completed crc c).Represents crc (some (c.time, c.data)) := by
  obtain ⟨hdrBuf, hb, hold⟩ := save_holds hf ht hr hio
  have hn : (s.completed crc c).bda.regions.newer = s.bda.regions.older := newer_updated hr
  refine ⟨⟨hf.hdr_le, hf.seekable⟩, ?_, ?_⟩
  · rw [hn]
    exact updated_older
  · rintro p ⟨rfl⟩
    rw [hn]
    exact ⟨not_lt.mp (not_or.mp hr).2, hold.data⟩

/-- Once the new header is in the first copy, loading finds it next to the header of the
other slot. -/
theorem reloadable_of_hdr (hf : s.Fits) (hrel : s.Reloadable crc)
    (ht : 0 ≤ c.time.secs) (hne : c.data ≠ []) {hdrBuf : List UInt8}
    (hb : (MDAHeader.describe crc c.time c.data).toBuf crc = .ok hdrBuf)
    (hread : readExact (s.save crc c).1.disk (MDARegions.mdaOffset staticHeaderSize
      s.bda.regions.older s.bda.regions.regionSize.bytes) mdaRegionHdrSize = some hdrBuf) :
    (s.completed crc c).Reloadable crc := by
  refine ⟨hrel.size, fun i => ?_⟩
  rcases Alternate.eq_or_eq_other i s.bda.regions.older with rfl | hi
  · have hused : (MDAHeader.describe crc c.time c.data).used ≠ 0 := by
      simpa [MDAHeader.describe] using hne
    have hload := loadARegion_eq hf (index_lt _).1 hread hb
    rw [if_neg hused] at hload
    exact (congrArg (orElse · _) hload).trans (congrArg _ updated_older.symm)
  · -- the other slot is out of reach of the writes
    have hi : i = s.bda.regions.newer := hi
    subst hi
    refine (save_getMda_newer hf ht).trans ((hrel.headers _).trans ?_)
    exact congrArg _ updated_newer.symm

theorem reloadable_completed (hf : s.Fits) (hrel : s.Reloadable crc)
    (ht : 0 ≤ c.time.secs) (hne : c.data ≠ []) (hr : ¬ s.bda.regions.Rejects c.time c.data)
    (hio : c.io.first = none) : (s.completed crc c).Reloadable crc := by
  obtain ⟨hdrBuf, hb, hold⟩ := save_holds hf ht hr hio
  exact reloadable_of_hdr hf hrel ht hne hb hold.hdr

/-! ### One call and whole runs -/

theorem save_done (hf : s.Fits) (ht : 0 ≤ c.time.secs)
    (hr : ¬ s.bda.regions.Rejects c.time c.data) (hio : c.io = ⟨none, none⟩) :
    s.save crc c = (s.completed crc c, .ok ()) := by
  obtain ⟨hdrBuf, hb, he⟩ := save_accepted crc hf ht hr
  rw [completed, he, hio, saveCopies_done hf]
  rfl

theorem save_fault (hf : s.Fits) (ht : 0 ≤ c.time.secs)
    (hr : ¬ s.bda.regions.Rejects c.time c.data) (hio : c.io ≠ ⟨none, none⟩) :
    s.save crc c = (⟨s.bda, (s.save crc c).1.disk⟩, .err .io) := by
  obtain ⟨hdrBuf, hb, he⟩ := save_accepted crc hf ht hr
  obtain ⟨h1, h2⟩ := saveCopies_fault s.disk hdrBuf c.data
    (MDAHeader.describe crc c.time c.data) hf hio
  rw [he]
  simp only [h1, h2]

theorem represents_fault (h : s.Represents crc v) (ht : 0 ≤ c.time.secs) :
    (⟨s.bda, (s.save crc c).1.disk⟩ : DeviceStore).Represents crc v := by
  refine ⟨h.fits, h.newest, fun p hp => ⟨(h.stored p hp).1, ?_⟩⟩
  refine (save_read_other h.fits ht newer_ne_older.1 ?_).trans (h.stored p hp).2
  have := (h.stored p hp).1
  omega

/-- One call on the device is one call on the register. -/
theorem save_register (h : s.Represents crc v) (ht : 0 ≤ c.time.secs) :
    (s.save crc c).1.Represents crc (register s.bda.regions.regionSize v c).1 ∧
      verdict (s.save crc c).2 = some (register s.bda.regions.regionSize v c).2 ∧
      (s.save crc c).1.bda.header = s.bda.header ∧
      (s.save crc c).1.bda.regions.regionSize = s.bda.regions.regionSize := by
  unfold register Register.put
  by_cases hr : s.bda.regions.Rejects c.time c.data
  · obtain ⟨text, he⟩ := save_rejected crc h.fits hr
    rw [if_pos (h.rejects_iff.mp hr), he]
    exact ⟨h, rfl, rfl, rfl⟩
  · rw [if_neg (mt h.rejects_iff.mpr hr)]
    by_cases hio : c.io = ⟨none, none⟩
    · rw [if_neg (by simpa using hio), save_done h.fits ht hr hio]
      exact ⟨represents_completed h.fits ht hr (by rw [hio]), rfl, rfl, rfl⟩
    · rw [if_pos (by simpa using hio), save_fault h.fits ht hr hio]
      exact ⟨represents_fault h ht, rfl, rfl, rfl⟩

theorem Reloadable.save (hf : s.Fits) (hrel : s.Reloadable crc) (ht : 0 ≤ c.time.secs)
    (hne : c.data ≠ []) (hout : (s.save crc c).2 ≠ .err .io) : (s.save crc c).1.Reloadable crc := by
  by_cases hr : s.bda.regions.Rejects c.time c.data
  · obtain ⟨text, he⟩ := save_rejected crc hf hr
    rwa [he]
  · by_cases hio : c.io = ⟨none, none⟩
    · rw [save_done hf ht hr hio]
      exact reloadable_completed hf hrel ht hne hr (by rw [hio])
    · exact absurd (congrArg Prod.snd (save_fault hf ht hr hio)) hout

theorem Reloadable.load (hrel : s.Reloadable crc) :
    BDA.load crc s.bda.header s.disk = .ok (some s.bda) := by
  rw [BDA.load, load_eq hrel.size hrel.headers]
  rfl

theorem Reloadable.of_load (h : BDA.load crc s.bda.header s.disk = .ok (some s.bda)) :
    s.Reloadable crc := by
  obtain ⟨r, hr, he⟩ := Outcome.bind_eq_ok.mp h
  have hregions : r = s.bda.regions := by
    simp only [ok.injEq, Option.some.injEq] at he
    rw [← he]
  subst hregions
  obtain ⟨hsize, hheaders⟩ := getMda_of_load hr
  exact ⟨hsize, hheaders⟩

theorem Reloadable.secs_nonneg (hrel : s.Reloadable crc) {t : DateTime}
    (ht : t ∈ s.bda.lastUpdateTime) : 0 ≤ t.secs := by
  obtain ⟨h, hh, rfl⟩ := Option.map_eq_some_iff.mp ht
  have hload : ∀ index, MDARegions.loadARegion crc staticHeaderSize s.bda.regions.regionSize s.disk
      index = .ok (some h) → 0 ≤ h.lastUpdated.secs := by
    intro index hi
    obtain ⟨pos, -, hi⟩ := Outcome.bind_eq_ok.mp hi
    obtain ⟨buf, -, hi⟩ := Outcome.bind_eq_ok.mp hi
    exact MDAHeader.secs_nonneg_of_fromBuf hi
  have hget := hrel.headers s.bda.regions.newer
  rw [hh, MDARegions.getMda, orElse_eq_ok] at hget
  rcases hget with hget | ⟨-, hget⟩
  · exact hload _ hget
  · exact hload _ hget

/-- The state after `BDA::initialize` of a new BDA. -/
def Initialized (crc : List UInt8 → UInt32) (s : DeviceStore) : Prop :=
  ∃ ids mdaDataSize blkdevSize time io d,
    s.bda = BDA.new ids mdaDataSize blkdevSize time ∧
      s.bda.initializeDevice crc io d = (s.disk, .ok ())

/-- A device on which initialization meets no fault. -/
def fresh (crc : List UInt8 → UInt32) (ids : StratisIdentifiers) (mdaDataSize : MDADataSize)
    (blkdevSize time : ℕ) (d : Disk) : DeviceStore :=
  let b := BDA.new ids mdaDataSize blkdevSize time
  ⟨b, (b.initializeDevice crc ⟨none, none⟩ d).1⟩

theorem fresh_initialized {ids : StratisIdentifiers} {mdaDataSize : MDADataSize}
    {blkdevSize time : ℕ} {d : Disk}
    (h : ∀ index < numMdaRegions, MDARegions.mdaOffset staticHeaderSize index
      mdaDataSize.regionSize.bytes < u64Bound) :
    (fresh crc ids mdaDataSize blkdevSize time d).Initialized crc := by
  refine ⟨ids, mdaDataSize, blkdevSize, time, ⟨none, none⟩, d, rfl, Prod.ext rfl ?_⟩
  refine BDA.initializeDevice_of_seekable fun index hi => ?_
  have hsize : (BDA.new ids mdaDataSize blkdevSize time).regions.regionSize =
      mdaDataSize.regionSize := regionSize_mdaSize _
  rw [show (fresh crc ids mdaDataSize blkdevSize time d).bda =
    BDA.new ids mdaDataSize blkdevSize time from rfl, hsize]
  exact h index hi

theorem Initialized.represents (h : s.Initialized crc) :
    s.Represents crc none ∧ s.Reloadable crc := by
  obtain ⟨ids, mdaDataSize, size, time, io, d, hb, hi⟩ := h
  rw [hb] at hi
  obtain ⟨hf, hload⟩ := BDA.initializeDevice_ok hi
  rw [← hb] at hf hload
  have hnone : ∀ i, s.bda.regions.mdaHeaders i = none := by rw [hb]; intro i; rfl
  refine ⟨⟨hf, hnone _, by simp⟩, ⟨by rw [hb]; rfl, fun i => ?_⟩⟩
  rw [MDARegions.getMda, hload i (index_lt i).1, hnone]
  rfl

theorem run_save_invariant (h : s.Initialized crc) {calls : List SaveCall}
    (hc : ∀ c ∈ calls, c.data ≠ [] ∧ 0 ≤ c.time.secs) :
    let tr := (run (save crc) s calls).2
    let live := (run (save crc) s calls).1
    live.Represents crc ((lastAccepted isOk tr).map fun c => (c.time, c.data)) ∧
      live.bda.header = s.bda.header ∧
      ((∀ p ∈ tr, p.2 ≠ .err .io) → live.Reloadable crc) := by
  have hinv := run_invariant (save crc)
    (A := fun _ c => c.data ≠ [] ∧ 0 ≤ c.time.secs)
    (P := fun live tr =>
      live.Represents crc ((lastAccepted isOk tr).map fun c => (c.time, c.data)) ∧
        live.bda.header = s.bda.header ∧
        ((∀ p ∈ tr, p.2 ≠ .err .io) → live.Reloadable crc))
    ?_ ⟨h.represents.1, rfl, fun _ => h.represents.2⟩ (allSteps_of_forall (save crc) hc)
  · simpa using hinv
  · rintro live tr c ⟨hrep, hhdr, hrel⟩ ⟨hne, ht⟩
    refine ⟨?_, (save_register hrep ht).2.2.1.trans hhdr, fun hall => ?_⟩
    · rw [lastAccepted_append_singleton]
      by_cases hr : live.bda.regions.Rejects c.time c.data
      · obtain ⟨text, he⟩ := save_rejected crc hrep.fits hr
        rw [he]
        exact hrep
      · by_cases hio : c.io = ⟨none, none⟩
        · rw [save_done hrep.fits ht hr hio]
          exact represents_completed hrep.fits ht hr (by rw [hio])
        · rw [save_fault hrep.fits ht hr hio]
          exact represents_fault hrep ht
    · refine Reloadable.save hrep.fits (hrel fun p hp => hall p (by simp [hp])) ht hne ?_
      exact hall (c, _) (by simp)

/-- The metadata store of a device is a register: the calls of every run are stored,
rejected or fail as on the register, and the live object reads the time and the data of the
last call that returned Ok. A rejected call changes nothing. If no call failed at an I/O step,
loading the device gives the live object back. -/
theorem saves_refine_register (h : s.Initialized crc) (calls : List SaveCall)
    (hc : ∀ c ∈ calls, c.data ≠ [] ∧ 0 ≤ c.time.secs) :
    let tr := (run (save crc) s calls).2
    let live := (run (save crc) s calls).1
    let last := (lastAccepted Outcome.isOk tr).map fun c => (c.time, c.data)
    let reg := run (register s.bda.regions.regionSize) none calls
    List.Forall₂ (fun a b => a.1 = b.1 ∧ verdict a.2 = some b.2) tr reg.2 ∧ reg.1 = last ∧
      live.bda.lastUpdateTime = last.map (·.1) ∧
      live.bda.loadState crc live.disk = .ok (last.map (·.2)) ∧
      (∀ c : SaveCall, ((∃ t ∈ live.bda.lastUpdateTime, c.time ≤ t) ∨
          (∃ m, live.bda.maxDataSize = .ok m ∧ m.bytes < c.data.length)) →
        ∃ text, live.save crc c = (live, .err (.msg text))) ∧
      ((∀ p ∈ tr, p.2 ≠ .err .io) →
        ∃ b, BDA.load crc s.bda.header live.disk = .ok (some b) ∧ b = live.bda ∧
          b.loadState crc live.disk = .ok (last.map (·.2))) := by
  intro tr live last reg
  obtain ⟨hrep, hhdr, hrel⟩ := run_save_invariant h hc
  have hsim := run_simulation (save crc) (register s.bda.regions.regionSize)
    (A := fun _ c => c.data ≠ [] ∧ 0 ≤ c.time.secs)
    (R := fun a v => a.Represents crc v ∧ a.bda.regions.regionSize = s.bda.regions.regionSize)
    (Q := fun o w => verdict o = some w) (t := none)
    (fun a v c hR hA => by
      have hs := save_register (c := c) hR.1 hA.2
      rw [hR.2] at hs
      exact ⟨⟨hs.1, hs.2.2.2⟩, hs.2.1⟩)
    ⟨h.represents.1, rfl⟩ (allSteps_of_forall (save crc) hc)
  refine ⟨hsim.2, ?_, hrep.lastUpdateTime, hrep.loadState, ?_, ?_⟩
  · exact hsim.1.1.unique hrep
  · rintro c (htime | ⟨m, hm, hlen⟩)
    · exact save_rejected crc hrep.fits (Or.inl htime)
    · refine save_rejected crc hrep.fits (Or.inr ?_)
      have hdr := hrep.fits.hdr_le
      rw [BDA.maxDataSize, MDARegions.maxDataSize, MDARegionSize.dataSize,
        if_neg (not_lt.mpr hdr)] at hm
      cases hm
      simp only at hlen
      omega
  · intro hall
    refine ⟨live.bda, ?_, rfl, hrep.loadState⟩
    rw [← hhdr]
    exact (hrel hall).load

/-- Two saves on a fresh device, the second of which fails in its first copy. -/
theorem saves_refine_register_failed_second :
    let crc := checksumCastagnoli
    let s := fresh crc ⟨⟨0⟩, ⟨1⟩⟩ MDADataSize.default 4194304 0 (fun _ => some 0)
    let calls : List SaveCall := [⟨⟨10, 0, by decide, by decide, by decide⟩, [1], ⟨none, none⟩⟩,
      ⟨⟨20, 0, by decide, by decide, by decide⟩, [2], ⟨some ⟨1, 0⟩, none⟩⟩]
    let live := (run (save crc) s calls).1
    live.bda.loadState crc live.disk = .ok (some [1]) := by
  intro crc s calls live
  obtain ⟨-, hreg, -, hload, -⟩ := saves_refine_register
    (show s.Initialized crc from fresh_initialized (by decide)) calls (by decide)
  rw [hload, ← hreg]
  rfl

end DeviceStore

end Stratisd.Metadata
