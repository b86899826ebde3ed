import Stratisd.Engine.Types
import Stratisd.Extent.OrderedMap
import Stratisd.Extent.Ranges

/-! The ranges in use on one block device. `PerDevSegments` keeps them in a map ordered
by their start and coalesces neighbours; `RangeAllocator` hands out free ranges from the
front of the device. -/

namespace Stratisd.Backstore

open Run Engine Extent

structure PerDevSegments where
  /-- No sector can be allocated beyond this point. -/
  limit : ℕ
  /-- Start and length of every range, ordered by the start. -/
  used : List Range
  deriving DecidableEq

namespace PerDevSegments

def new (limit : ℕ) : PerDevSegments := ⟨limit, []⟩

/-- The number of sectors occupied by all the ranges. -/
def sum (p : PerDevSegments) : ℕ := total p.used

/-- The loop over the keys behind `locatePrevAndNext`. -/
def locateFrom (value : ℕ) (prev : Option ℕ) : List Range → Option ℕ × Option ℕ
  | [] => (prev, none)
  | (key, _) :: rest =>
    let prev := if value ≥ key then some key else prev
    if value ≤ key then (prev, some key) else locateFrom value prev rest

/-- Two adjacent keys around a value. -/
def locatePrevAndNext (p : PerDevSegments) (value : ℕ) : Option ℕ × Option ℕ :=
  locateFrom value none p.used

def displayRange (r : Range) : String := s!"({displaySectors r.1}, {displaySectors r.2})"

/-- Join a range to the one in front of it, if they touch. The first part of the result is
the range in front if it is to be kept. -/
def joinPrev (p : PerDevSegments) (prev : Option ℕ) (range : Range) :
    StratisResult (Option Range × Range) :=
  match prev with
  | none => .ok (none, range)
  | some prev =>
    match OrderedMap.get prev p.used with
    | none => .panic
    | some prevLen =>
      if prev + prevLen > range.1 then
        .err (.msg s!"range to add {displayRange range} overlaps previous range {displayRange (prev, prevLen)}")
      else if prev + prevLen = range.1 then .ok (none, (prev, prevLen + range.2))
      else .ok (some (prev, prevLen), range)

/-- Join a range to the one behind it, if they touch. -/
def joinNext (p : PerDevSegments) (next : Option ℕ) (range : Range) :
    StratisResult (Range × Option Range) :=
  match next with
  | none => .ok (range, none)
  | some next =>
    if range.1 + range.2 > next then
      .err (.msg s!"range to add {displayRange range} overlaps subsequent range starting at {displaySectors next}")
    else
      match OrderedMap.get next p.used with
      | none => .panic
      | some nextLen =>
        if range.1 + range.2 = next then .ok ((range.1, range.2 + nextLen), none)
        else .ok (range, some (next, nextLen))

def insertionResult (p : PerDevSegments) (prev next : Option ℕ) (range : Range) :
    StratisResult (Option Range × Range × Option Range) :=
  if range.2 = 0 then .panic
  else if !fitsU64 (range.1 + range.2) then
    .err (.msg s!"range {displayRange range} extends beyond maximum possible size")
  else if range.1 + range.2 > p.limit then
    .err (.msg s!"range {displayRange range} extends beyond limit {displaySectors p.limit}")
  else do
    let (lhs, range) ← p.joinPrev prev range
    let (range, rhs) ← p.joinNext next range
    .ok (lhs, range, rhs)

/-- A neighbour that has been joined leaves the map. -/
def dropJoined (key : Option ℕ) (kept : Option Range) (used : List Range) : List Range :=
  match key, kept with
  | some key, none => OrderedMap.remove key used
  | _, _ => used

/-- Add a range that overlaps no other. Adding an empty range has no effect. -/
def insert (p : PerDevSegments) (range : Range) : StratisResult PerDevSegments :=
  if range.1 > p.limit then
    .err (.msg s!"value specified for start of range, {displaySectors range.1}, exceeds limit, {displaySectors p.limit}")
  else if range.2 = 0 then .ok p
  else do
    let (prev, next) := p.locatePrevAndNext range.1
    let (prevRes, range, nextRes) ← p.insertionResult prev next range
    let used := dropJoined next nextRes (dropJoined prev prevRes p.used)
    match OrderedMap.get range.1 used with
    | some _ => .panic
    | none => .ok { p with used := OrderedMap.insert range.1 range.2 used }

def insertEach (p : PerDevSegments) : List Range → StratisResult PerDevSegments
  | [] => .ok p
  | range :: ranges => do
    let p ← p.insert range
    p.insertEach ranges

/-- The ranges of both, from the last to the first. -/
def unionRanges (p q : PerDevSegments) : List Range :=
  (OrderedMap.keySet (p.used.map Prod.fst ++ q.used.map Prod.fst)).reverse.flatMap fun key =>
    ((OrderedMap.get key p.used).map fun len => (key, len)).toList ++
      ((OrderedMap.get key q.used).map fun len => (key, len)).toList

def union (p q : PerDevSegments) : StratisResult PerDevSegments :=
  if p.limit ≠ q.limit then
    .err (.msg "limits differ between PerDevSegments structs, can not do a union")
  else (new p.limit).insertEach (p.unionRanges q)

def insertAll (p : PerDevSegments) (ranges : List Range) : StratisResult PerDevSegments := do
  let temp ← (new p.limit).insertEach ranges
  let union ← p.union temp
  .ok { p with used := union.used }

/-- The free ranges behind `prevEnd`, given the used ranges there. -/
def complementFrom (limit prevEnd : ℕ) : List Range → List Range
  | [] => if prevEnd < limit then [(prevEnd, limit - prevEnd)] else []
  | (start, len) :: rest =>
    if start - prevEnd ≠ 0 then (prevEnd, start - prevEnd) :: complementFrom limit (start + len) rest
    else complementFrom limit (start + len) rest

/-- The free ranges as used ranges. -/
def complement (p : PerDevSegments) : PerDevSegments :=
  ⟨p.limit, complementFrom p.limit 0 p.used⟩

end PerDevSegments

structure RangeAllocator where
  segments : PerDevSegments
  deriving DecidableEq

namespace RangeAllocator

def new (limit : ℕ) (initialUsed : List Range) : StratisResult RangeAllocator := do
  let segments ← (PerDevSegments.new limit).insertAll initialUsed
  .ok ⟨segments⟩

/-- The maximum allocation. -/
def size (a : RangeAllocator) : ℕ := a.segments.limit

def used (a : RangeAllocator) : ℕ := a.segments.sum

def available (a : RangeAllocator) : ℕ := a.segments.limit - a.used

/-- The loop over the free ranges behind `request`. -/
def requestFrom (needed : ℕ) (segs : PerDevSegments) : List Range → StratisResult PerDevSegments
  | [] => .ok segs
  | (start, len) :: rest =>
    if needed = 0 then .ok segs
    else
      let toUse := min needed len
      match segs.insert (start, toUse) with
      | .ok segs => requestFrom (needed - toUse) segs rest
      | _ => .panic

/-- Allocate as much of the amount as is available, from the front. Returns the allocator
and the allocated ranges. -/
def request (a : RangeAllocator) (amount : ℕ) : StratisResult (RangeAllocator × PerDevSegments) := do
  let segs ← requestFrom amount (PerDevSegments.new a.segments.limit) a.segments.complement.used
  match a.segments.union segs with
  | .ok segments => .ok (⟨segments⟩, segs)
  | _ => .panic

end RangeAllocator

end Stratisd.Backstore
