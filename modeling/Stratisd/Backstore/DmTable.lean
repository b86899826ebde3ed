import Stratisd.Backstore.BlockDevMgr
import Stratisd.Extent.Layout

/-! Device-mapper tables and the devices that have them. A table of linear lines sends a
logical sector to a sector of a device; the tables that the engine builds lay the segments
end to end from sector 0. -/

namespace Stratisd.Backstore

open Run Engine Extent

structure LinearTargetParams where
  device : Device
  startOffset : ℕ
  deriving DecidableEq

structure TargetLine where
  start : ℕ
  length : ℕ
  params : LinearTargetParams
  deriving DecidableEq

/-- The lines for pieces of devices, from a logical offset on. -/
def linearLines (logicalStartOffset : ℕ) : List (Piece Device) → List TargetLine
  | [] => []
  | (device, r) :: ps =>
    ⟨logicalStartOffset, r.2, ⟨device, r.1⟩⟩ :: linearLines (logicalStartOffset + r.2) ps

def tableLength (table : List TargetLine) : ℕ := (table.map (·.length)).sum

/-- The sector that device-mapper finds for a logical sector: the line that has it decides. -/
def tableLookup (table : List TargetLine) (i : ℕ) : Option (Device × ℕ) :=
  (table.find? fun line => line.start ≤ i ∧ i < line.start + line.length).map fun line =>
    (line.params.device, line.params.startOffset + (i - line.start))

/-- Every line starts where the one in front of it ends. -/
def Contiguous (offset : ℕ) : List TargetLine → Prop
  | [] => True
  | line :: table => line.start = offset ∧ Contiguous (offset + line.length) table

section table

variable {n : ℕ} {ps : List (Piece Device)}

theorem contiguous_linearLines : Contiguous n (linearLines n ps) := by
  induction ps generalizing n with
  | nil => trivial
  | cons p ps ih => exact ⟨rfl, ih⟩

theorem tableLength_linearLines : tableLength (linearLines n ps) = Layout.extent ps := by
  induction ps generalizing n with
  | nil => rfl
  | cons p ps ih =>
    have := ih (n := n + p.2.2)
    simp only [tableLength] at this
    simp [linearLines, tableLength, this]

theorem tableLookup_linearLines (i : ℕ) :
    tableLookup (linearLines n ps) (n + i) = Layout.address ps i := by
  induction ps generalizing n i with
  | nil => rfl
  | cons p ps ih =>
    obtain ⟨device, s, l⟩ := p
    rw [Layout.address, linearLines, tableLookup]
    simp only
    by_cases h : i < l
    · rw [List.find?_cons_of_pos (by simpa using h), if_pos h, Option.map_some,
        Nat.add_sub_cancel_left]
    · rw [List.find?_cons_of_neg (by simpa using h), if_neg h, ← ih (i - l), tableLookup,
        show n + l + (i - l) = n + i by omega]

theorem tableLookup_linearLines_zero : tableLookup (linearLines 0 ps) = Layout.address ps := by
  funext i
  have : tableLookup (linearLines 0 ps) (0 + i) = Layout.address ps i := tableLookup_linearLines i
  rwa [Nat.zero_add] at this

end table

def BlkDevSegment.piece (s : BlkDevSegment) : Piece Device := (s.segment.device, s.range)

/-- Build a linear device table from segments. -/
def mapToDm (bsegs : List BlkDevSegment) : List TargetLine := linearLines 0 (bsegs.map (·.piece))

/-- Two segments as one, if the second continues the first on the same device. -/
def joinBlkdevsegs (left right : BlkDevSegment) : Option BlkDevSegment :=
  if left.uuid = right.uuid ∧ left.segment.start + left.segment.length = right.segment.start then
    some { left with segment :=
      { left.segment with length := left.segment.length + right.segment.length } }
  else none

/-- Append segments, merged at the seam if they are adjacent there. -/
def coalesceBlkdevsegs (left right : List BlkDevSegment) : List BlkDevSegment :=
  appendJoining joinBlkdevsegs left right

/-! ### Devices -/

/-- A device-mapper device with a linear table. -/
structure LinearDev where
  device : Device
  table : List TargetLine
  deriving DecidableEq

def LinearDev.size (d : LinearDev) : ℕ := tableLength d.table

/-- A device-mapper cache over an origin. -/
structure CacheDev where
  device : Device
  metaDev : LinearDev
  cacheDev : LinearDev
  originDev : LinearDev
  deriving DecidableEq

/-- A cache device is as large as its origin. -/
def CacheDev.size (d : CacheDev) : ℕ := d.originDev.size

/-- Set up a linear device: device-mapper gives it a number or fails. -/
def LinearDev.setup (answer : Option Device) (table : List TargetLine) :
    StratisResult LinearDev := do
  let device ← Outcome.ofOption .dm answer
  .ok ⟨device, table⟩

/-- Whether a call of device-mapper succeeds. -/
def dmCall (ok : Bool) : StratisResult Unit := if ok then .ok () else .err .dm

end Stratisd.Backstore
