import Stratisd.Backstore.BlockDevMgr
import Stratisd.Backstore.InPlace
import Stratisd.Metadata.HeaderRepair
import Stratisd.Run.Trace

/-! Where the metadata of a block device lies: two padded signature blocks, four MDA regions and
reserved space, in this order. What is written to each part stays inside it, and the allocator
of the device never hands out a sector of any of them. -/

namespace Stratisd.Metadata

open Run Engine Media StaticHeader

/-- The operation leaves the byte alone, whatever the device holds. -/
def Spares (op : Disk → Disk) (p : ℕ) : Prop := ∀ d, op d p = d p

/-- The signature blocks that are written for a location. -/
def MetadataLocation.Selects : MetadataLocation → Fin 2 → Prop
  | .both, _ => True
  | .first, i => i = 0
  | .second, i => i = 1

namespace StaticHeader

variable (crc : List UInt8 → UInt32) (h : StaticHeader)

theorem writes_misses {which : MetadataLocation} {p : ℕ}
    (hp : ∀ i, which.Selects i → ¬ InRegion i p) : ∀ w ∈ h.writes crc which, w.Misses p := by
  have hregion : ∀ i, ¬ InRegion i p → ∀ w ∈ h.writeRegion crc (regionStart i), w.Misses p := by
    intro i hi w hw
    refine (writeRegion_within crc h _ w hw).misses ?_
    unfold InRegion at hi
    omega
  intro w hw
  simp only [writes, List.mem_append] at hw
  rcases hw with hw | hw <;> split_ifs at hw with hwhich
  · refine hregion 0 (hp 0 ?_) w hw
    rcases hwhich with rfl | rfl
    · trivial
    · rfl
  · cases hw
  · refine hregion 1 (hp 1 ?_) w hw
    rcases hwhich with rfl | rfl
    · trivial
    · rfl
  · cases hw

theorem write_spares {which : MetadataLocation} {p : ℕ}
    (hp : ∀ i, which.Selects i → ¬ InRegion i p) (fault : Option Cut) (requests : List Write) :
    Spares (fun d => (h.write crc fault which ⟨d, requests⟩).1.disk) p := fun _ =>
  perform_of_misses (writes_misses crc h hp)

end StaticHeader

namespace MDARegions

variable (crc : List UInt8 → UInt32) {r : MDARegions} {hs p : ℕ}

theorem initializeRegions_spares (fault : Option Cut)
    (hp : ∀ index < numMdaRegions, p < mdaOffset hs index r.regionSize.bytes ∨
      mdaOffset hs index r.regionSize.bytes + mdaRegionHdrSize ≤ p) :
    Spares (fun d => (r.initializeRegions crc hs fault d).1) p := by
  intro d
  unfold initializeRegions
  cases hb : MDAHeader.default.toBuf crc with
  | err e => rfl
  | panic => rfl
  | ok hdrBuf =>
    refine perform_of_misses fun w hw => ?_
    obtain ⟨pos, hpos, rfl⟩ := List.mem_map.mp hw
    obtain ⟨index, hi, rfl⟩ := List.mem_map.mp ((List.takeWhile_prefix fitsU64).subset hpos)
    rw [Write.Misses, MDAHeader.length_of_toBuf hb]
    exact hp index (List.mem_range.mp hi)

/-- A save writes to the two copies of the older slot only, whatever becomes of it. -/
theorem saveState_spares (time : DateTime) (data : List UInt8) (io : SaveIo)
    (hp : ∀ index, index = (r.older : ℕ) ∨ index = r.older + numPrimaryMdaRegions →
      p < mdaOffset hs index r.regionSize.bytes ∨
        mdaOffset hs index r.regionSize.bytes + r.regionSize.bytes ≤ p) :
    Spares (fun d => (r.saveState crc hs time data io d).1.2) p := by
  intro d
  unfold saveState
  split_ifs with ht
  · rfl
  · unfold maxDataSize MDARegionSize.dataSize
    split_ifs with hdr
    · rfl
    · dsimp only
      split_ifs with hlen
      · rfl
      · cases hb : (MDAHeader.describe crc time data).toBuf crc with
        | err e => rfl
        | panic => rfl
        | ok hdrBuf => exact saveCopies_frame (MDAHeader.length_of_toBuf hb) (by omega) hp

end MDARegions

/-- Bytes from the start of the device to an MDA region of a device with the given header. -/
def StaticHeader.regionOffset (h : StaticHeader) (index : ℕ) : ℕ :=
  MDARegions.mdaOffset staticHeaderSize index h.mdaSize.regionSize.bytes

/-- A byte that nothing written to the BDA touches: the static header, the headers of the regions
when they are initialized, and metadata when they are saved. -/
structure SparedByBda (crc : List UInt8 → UInt32) (h : StaticHeader) (p : ℕ) : Prop where
  header : ∀ which fault requests,
    Spares (fun d => (h.write crc fault which ⟨d, requests⟩).1.disk) p
  regions : ∀ r : MDARegions, r.regionSize = h.mdaSize.regionSize → ∀ fault,
    Spares (fun d => (r.initializeRegions crc staticHeaderSize fault d).1) p
  save : ∀ r : MDARegions, r.regionSize = h.mdaSize.regionSize → ∀ time data io,
    Spares (fun d => (r.saveState crc staticHeaderSize time data io d).1.2) p

section new

variable (identifiers : StratisIdentifiers) (dataSize : MDADataSize) (blkdevSize time : ℕ)

theorem new_regionSize :
    (new identifiers dataSize blkdevSize time).mdaSize.regionSize =
      dataSize.regionSize :=
  regionSize_mdaSize dataSize.regionSize

theorem new_regions_within {index : ℕ} (hi : index < numMdaRegions) :
    let h := new identifiers dataSize blkdevSize time
    staticHeaderSectors * sectorSize ≤ h.regionOffset index ∧
      h.regionOffset index + h.mdaSize.regionSize.bytes ≤ h.bdaExtendedSize * sectorSize := by
  intro h
  have hext : h.bdaExtendedSize * sectorSize =
      staticHeaderSize + h.mdaSize.regionSize.bytes * numMdaRegions + reservedSectors * sectorSize := by
    change (dataSize.regionSize.sectors * numMdaRegions + staticHeaderSectors + reservedSectors) *
      sectorSize = _
    rw [new_regionSize, MDARegionSize.bytes, staticHeaderSize]
    ring
  have hmul := Nat.mul_le_mul_left h.mdaSize.regionSize.bytes (Nat.succ_le_of_lt hi)
  rw [Nat.mul_succ] at hmul
  constructor
  · exact Nat.le_add_right _ _
  · rw [hext, regionOffset, MDARegions.mdaOffset]
    omega

theorem new_sparedByBda (crc : List UInt8 → UInt32) {p : ℕ}
    (hp : (new identifiers dataSize blkdevSize time).bdaExtendedSize * sectorSize ≤ p) :
    SparedByBda crc (new identifiers dataSize blkdevSize time) p := by
  have hbehind : ∀ index < numMdaRegions,
      (new identifiers dataSize blkdevSize time).regionOffset index +
        (new identifiers dataSize blkdevSize time).mdaSize.regionSize.bytes ≤ p :=
    fun index hi => (new_regions_within identifiers dataSize blkdevSize time hi).2.trans hp
  have hstatic : staticHeaderSize ≤ p := by
    have h0 := hbehind 0 (by decide)
    rw [regionOffset, MDARegions.mdaOffset] at h0
    omega
  have hhdr : mdaRegionHdrSize ≤
      (new identifiers dataSize blkdevSize time).mdaSize.regionSize.bytes := by
    rw [new_regionSize]
    have := (regionSize_bytes dataSize).1
    omega
  refine ⟨fun which fault requests => ?_, fun r hr fault => ?_, fun r hr time data io => ?_⟩
  · refine write_spares crc _ (fun i _ hin => ?_) fault requests
    have hlt : regionStart i + sigblockRegionSectors * sectorSize ≤ staticHeaderSize := by
      fin_cases i <;> decide
    exact absurd hin.2 (by omega)
  · refine MDARegions.initializeRegions_spares crc fault fun index hi => Or.inr ?_
    have := hbehind index hi
    rw [hr]
    unfold regionOffset at this
    omega
  · refine MDARegions.saveState_spares crc time data io fun index hindex => Or.inr ?_
    have hi : index < numMdaRegions := by
      rcases hindex with rfl | rfl
      · exact (MDARegions.index_lt r.older).1
      · exact (MDARegions.index_lt r.older).2
    rw [hr]
    exact hbehind index hi

end new

end Stratisd.Metadata

namespace Stratisd.Backstore

open Run Engine Extent Media Metadata StaticHeader

namespace RangeAllocator.InPlace

theorem run_request_disjoint {overflowChecks : Bool} {a : RangeAllocator} {reserved : Finset ℕ}
    (h : a.segments.WF) (hr : reserved ⊆ a.segments.sectors) (amounts : List ℕ) :
    ∀ o ∈ (run (fun a n => request overflowChecks n a) a amounts).2,
      ∃ segs, o.2 = .ok segs ∧ Disjoint reserved segs.sectors := by
  induction amounts generalizing a with
  | nil => simp
  | cons n amounts ih =>
    obtain ⟨a', segs, hreq, hwf', -, -, -, -, hdis, hsec⟩ := request_spec h n
    have hstep : request overflowChecks n a = (a', .ok segs) := request_eq h hreq
    intro o ho
    rw [run_cons, List.mem_cons] at ho
    rcases ho with rfl | ho
    · exact ⟨segs, by rw [hstep], hdis.mono_left hr⟩
    · rw [hstep] at ho
      exact ih hwf' (hsec ▸ hr.trans Finset.subset_union_left) o ho

end RangeAllocator.InPlace

theorem exists_room (dataSize : MDADataSize) : ∃ room, dataSize.regionSize.dataSize = .ok room ∧
    dataSize.bytes ≤ room.bytes ∧ room.bytes < dataSize.bytes + sectorSize := by
  obtain ⟨hle, hlt⟩ := regionSize_bytes dataSize
  refine ⟨⟨dataSize.regionSize.bytes - mdaRegionHdrSize⟩, ?_, ?_, ?_⟩
  · rw [MDARegionSize.dataSize, if_neg (by omega)]
  · simp only
    omega
  · simp only
    omega

/-- Sectors that a block device hands out lie behind the BDA. -/
theorem requests_behind_bda {h : StaticHeader} {dev : Device} {regions : MDARegions}
    {otherSegments : List Range} {userInfo hardwareInfo : Option String} {b : StratBlockDev}
    (hlt : h.blkdevSize < u64Bound)
    (hnew : StratBlockDev.new dev ⟨h, regions⟩ otherSegments userInfo hardwareInfo = .ok b)
    (overflowChecks : Bool) (amounts : List ℕ) :
    ∀ o ∈ (run (fun a n => RangeAllocator.InPlace.request overflowChecks n a) b.used amounts).2,
      ∃ segs, o.2 = .ok segs ∧ ∀ x ∈ segs.sectors, h.bdaExtendedSize ≤ x := by
  intro o ho
  obtain ⟨a, ha, hb⟩ := Outcome.bind_eq_ok.mp hnew
  cases hb
  obtain ⟨-, hwf, -, hsec⟩ := RangeAllocator.new_eq_ok hlt ha
  have hreserved : Finset.range h.bdaExtendedSize ⊆ a.segments.sectors := by
    rw [hsec, cells_cons]
    refine subset_trans ?_ Finset.subset_union_left
    intro x hx
    rw [Range.mem_cells]
    exact ⟨Nat.zero_le x, by simpa [BDA.extendedSize] using Finset.mem_range.mp hx⟩
  obtain ⟨segs, hsegs, hdis⟩ :=
    RangeAllocator.InPlace.run_request_disjoint hwf hreserved amounts o ho
  refine ⟨segs, hsegs, fun x hx => ?_⟩
  exact not_lt.mp fun hin => Finset.disjoint_left.mp hdis (Finset.mem_range.mpr hin) hx

/-- The layout of a block device whose MDA regions were made for the given size of data. -/
theorem bda_layout (crc : List UInt8 → UInt32) (identifiers : StratisIdentifiers)
    (dataSize : MDADataSize) (blkdevSize time : ℕ) :
    let h := StaticHeader.new identifiers dataSize blkdevSize time
    let size := h.mdaSize.regionSize
    (size = dataSize.regionSize ∧ ∃ room, size.dataSize = .ok room ∧
      dataSize.bytes ≤ room.bytes ∧ room.bytes < dataSize.bytes + sectorSize) ∧
    (∀ i < numMdaRegions, staticHeaderSectors * sectorSize ≤ h.regionOffset i ∧
      h.regionOffset i + size.bytes ≤ h.bdaExtendedSize * sectorSize ∧
      ∀ j, i < j → h.regionOffset i + size.bytes ≤ h.regionOffset j) ∧
    (∀ which p, (∀ i, which.Selects i → ¬ StaticHeader.InRegion i p) → ∀ fault requests,
      Spares (fun d => (h.write crc fault which ⟨d, requests⟩).1.disk) p) ∧
    (∀ r : MDARegions, r.regionSize = size →
      (∀ p, (∀ i < numMdaRegions, p < h.regionOffset i ∨ h.regionOffset i + mdaRegionHdrSize ≤ p) →
        ∀ fault, Spares (fun d => (r.initializeRegions crc staticHeaderSize fault d).1) p) ∧
      ∀ p, (∀ i, i = (r.older : ℕ) ∨ i = r.older + numPrimaryMdaRegions →
          p < h.regionOffset i ∨ h.regionOffset i + size.bytes ≤ p) →
        ∀ time data io,
          Spares (fun d => (r.saveState crc staticHeaderSize time data io d).1.2) p) ∧
    ∀ (overflowChecks : Bool) (dev : Device) (regions : MDARegions) (otherSegments : List Range)
      (userInfo hardwareInfo : Option String) (b : StratBlockDev), blkdevSize < u64Bound →
      StratBlockDev.new dev ⟨h, regions⟩ otherSegments userInfo hardwareInfo = .ok b →
      ∀ amounts, ∀ o ∈ (run (fun a n => RangeAllocator.InPlace.request overflowChecks n a)
          b.used amounts).2,
        ∃ segs, o.2 = .ok segs ∧ ∀ p, p / sectorSize ∈ segs.sectors → SparedByBda crc h p := by
  intro h size
  have hsize : size = dataSize.regionSize := new_regionSize identifiers dataSize blkdevSize time
  refine ⟨⟨hsize, ?_⟩, fun i hi => ?_, fun which p hp fault requests => ?_, fun r hr => ?_, ?_⟩
  · rw [hsize]
    exact exists_room dataSize
  · obtain ⟨hstart, hend⟩ := new_regions_within identifiers dataSize blkdevSize time hi
    exact ⟨hstart, hend, fun j hij => MDARegions.mdaOffset_disjoint staticHeaderSize size.bytes hij⟩
  · exact StaticHeader.write_spares crc h hp fault requests
  · refine ⟨fun p hp fault => ?_, fun p hp time data io => ?_⟩
    · exact MDARegions.initializeRegions_spares crc fault (by rw [hr]; exact hp)
    · exact MDARegions.saveState_spares crc time data io (by rw [hr]; exact hp)
  · intro overflowChecks dev regions otherSegments userInfo hardwareInfo b hlt hnew amounts o ho
    obtain ⟨segs, hsegs, hbehind⟩ := requests_behind_bda hlt hnew overflowChecks amounts o ho
    refine ⟨segs, hsegs, fun p hp => ?_⟩
    exact new_sparedByBda identifiers dataSize blkdevSize time crc
      ((Nat.mul_le_mul_right sectorSize (hbehind _ hp)).trans (Nat.div_mul_le_self p sectorSize))

/-- A device of 2 GiB with MDA regions of the least size. -/
theorem bda_layout_default :
    let h := StaticHeader.new ⟨⟨0⟩, ⟨1⟩⟩ MDADataSize.default 4194304 7
    ∃ b, StratBlockDev.new ⟨8, 0⟩ ⟨h, MDARegions.new h.mdaSize⟩ [] none none = .ok b ∧
      ∀ o ∈ (run (fun a n => RangeAllocator.InPlace.request true n a) b.used [2048, 4096]).2,
        ∃ segs, o.2 = .ok segs ∧
          ∀ p, p / sectorSize ∈ segs.sectors → SparedByBda checksumCastagnoli h p := by
  intro h
  obtain ⟨b, hb, -⟩ : ∃ b, StratBlockDev.new ⟨8, 0⟩ ⟨h, MDARegions.new h.mdaSize⟩ [] none none =
      .ok b ∧ True := by
    decide +kernel
  exact ⟨b, hb, (bda_layout checksumCastagnoli ⟨⟨0⟩, ⟨1⟩⟩ MDADataSize.default 4194304 7).2.2.2.2 true
    ⟨8, 0⟩ (MDARegions.new h.mdaSize) [] none none b (by decide) hb [2048, 4096]⟩

end Stratisd.Backstore
