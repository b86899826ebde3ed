import Stratisd.Media.Bytes
import Stratisd.Run.Loop

/-! A growable array that a kernel writes to. The program announces a number of bytes, the kernel
copies at most that many and answers with the number it would have needed, and the program takes
that much for the contents of the array, or makes room and asks again. Each byte of the memory is
marked with who has written it, so that a content which the kernel has not delivered shows. -/

namespace Stratisd.Media

open Run Run.Stateful List

/-- A byte of memory: not written yet, written by the program, or copied in by the kernel. -/
inductive Cell where
  | unset
  | own (b : UInt8)
  | received (b : UInt8)
  deriving DecidableEq

namespace Cell

/-- What reading the byte gives. Nothing is said of memory that nobody has written. -/
def byte? : Cell → Option UInt8
  | unset => none
  | own b => some b
  | received b => some b

def isReceived : Cell → Bool
  | received _ => true
  | _ => false

end Cell

/-- The capacities that an allocator gives. It can give more than it is asked for. -/
structure Allocator where
  withCapacity : ℕ → ℕ
  grow : ℕ → ℕ → ℕ
  le_withCapacity : ∀ n, n ≤ withCapacity n
  le_grow : ∀ capacity n, n ≤ grow capacity n

/-- An allocator that gives what it is asked for. -/
def Allocator.exact : Allocator where
  withCapacity n := n
  grow _ n := n
  le_withCapacity := Nat.le_refl
  le_grow _ := Nat.le_refl

/-- What the kernel has to deliver, and how much of it goes into a buffer for which a number of
bytes is announced. Everything does if it fits. -/
structure Reply where
  bytes : List UInt8
  copied : ℕ → ℕ
  copied_le : ∀ room, copied room ≤ room
  copied_all : ∀ room, bytes.length ≤ room → copied room = bytes.length

/-- The kernel copies as much as there is room for. -/
def Reply.truncated (bytes : List UInt8) : Reply where
  bytes := bytes
  copied room := min room bytes.length
  copied_le _ := Nat.min_le_left _ _
  copied_all _ := Nat.min_eq_right

/-- An array of elements. The memory is counted in bytes, length and capacity in elements. -/
structure Buffer where
  mem : ℕ → Cell
  len : ℕ
  capacity : ℕ
  len_le : len ≤ capacity

namespace Buffer

variable {ε : Type} (alloc : Allocator) (size : ℕ)

def withCapacity (n : ℕ) : Buffer := ⟨fun _ => .unset, 0, alloc.withCapacity n, Nat.zero_le _⟩

def setLen (b : Buffer) (n : ℕ) (h : n ≤ b.capacity) : Buffer := { b with len := n, len_le := h }

/-- Room for `n` elements. Only the contents move to a new place. -/
def reserve (b : Buffer) (n : ℕ) : Buffer :=
  if n ≤ b.capacity then b
  else
    { mem := fun i => if i < b.len * size then b.mem i else .unset
      len := b.len
      capacity := max b.capacity (alloc.grow b.capacity n)
      len_le := b.len_le.trans (Nat.le_max_left _ _) }

theorem capacity_reserve {b : Buffer} {n : ℕ} (h : b.capacity < n) :
    (b.reserve alloc size n).capacity = alloc.grow b.capacity n := by
  rw [reserve, if_neg (Nat.not_le.mpr h)]
  exact Nat.max_eq_right (h.le.trans (alloc.le_grow _ _))

theorem le_capacity_reserve (b : Buffer) (n : ℕ) : n ≤ (b.reserve alloc size n).capacity := by
  rcases Nat.lt_or_ge b.capacity n with h | h
  · rw [capacity_reserve alloc size h]
    exact alloc.le_grow _ _
  · rwa [reserve, if_pos h]

/-- Cut off, or filled up with elements of zero bytes. -/
def resize (b : Buffer) (n : ℕ) : Buffer :=
  if h : n ≤ b.len then b.setLen n (h.trans b.len_le)
  else
    { b.reserve alloc size n with
      mem := fun i =>
        if b.len * size ≤ i ∧ i < n * size then .own 0 else (b.reserve alloc size n).mem i
      len := n
      len_le := le_capacity_reserve alloc size b n }

/-- The kernel copies into the memory. -/
def receive (b : Buffer) (r : Reply) (room : ℕ) : Buffer :=
  { b with
    mem := fun i => if i < r.copied room then .received (r.bytes.getD i 0) else b.mem i }

def contents (b : Buffer) : List Cell := (List.range (b.len * size)).map b.mem

variable (announce : ℕ → ℕ) (reply : ℕ → Outcome ε Reply)

/-- One call. Its answer is taken for the length if the elements fit, and otherwise for the
length that is needed. -/
def fillRound (round : ℕ) : Stateful Buffer ε Bool := do
  let r ← lift (reply round)
  let before ← get
  let b := before.receive r (announce before.capacity)
  let n := r.bytes.length / size
  if h : n ≤ b.capacity then do
    modify fun _ => b.setLen n h
    pure false
  else do
    modify fun _ => b.resize alloc size n
    pure true

/-- Calls until the elements fit. The fuel is a bound on their number. -/
def fill (fuel : ℕ) : Stateful Buffer ε Unit :=
  ignore (loopFrom (fillRound alloc size announce reply) fuel 0)

section

variable {reply} {r : Reply} {n round fuel : ℕ} {b : Buffer}

theorem fillRound_of_le (hreply : reply round = .ok r) (h : r.bytes.length / size ≤ b.capacity) :
    fillRound alloc size announce reply round b =
      ((b.receive r (announce b.capacity)).setLen (r.bytes.length / size) h, .ok false) := by
  rw [fillRound, hreply, lift_ok_bind, get_bind]
  exact congrFun (dif_pos h) b

theorem fillRound_of_lt (hreply : reply round = .ok r) (h : b.capacity < r.bytes.length / size) :
    fillRound alloc size announce reply round b =
      ((b.receive r (announce b.capacity)).resize alloc size (r.bytes.length / size),
        .ok true) := by
  rw [fillRound, hreply, lift_ok_bind, get_bind]
  exact congrFun (dif_neg (Nat.not_le.mpr h)) b

theorem mem_resize_of_empty (hempty : b.len = 0) {i : ℕ} (hi : i < n * size) :
    (b.resize alloc size n).mem i = .own 0 := by
  have hn : ¬n ≤ b.len := by
    rw [hempty]
    intro h
    rw [Nat.le_zero.mp h, Nat.zero_mul] at hi
    exact Nat.not_lt_zero i hi
  rw [resize, dif_neg hn]
  exact if_pos ⟨by rw [hempty, Nat.zero_mul]; exact Nat.zero_le i, hi⟩

theorem capacity_resize_of_empty (hempty : b.len = 0) (h : b.capacity < n) :
    (b.resize alloc size n).capacity = alloc.grow b.capacity n := by
  rw [resize, dif_neg (by omega)]
  exact capacity_reserve alloc size h

/-- The capacity with which the last call is made. -/
def lastCapacity (b : Buffer) (n : ℕ) : ℕ :=
  if n ≤ b.capacity then b.capacity else alloc.grow b.capacity n

theorem le_lastCapacity (b : Buffer) (n : ℕ) : n ≤ b.lastCapacity alloc n := by
  unfold lastCapacity
  split_ifs with h
  · exact h
  · exact alloc.le_grow _ _

/-- With a kernel that always has the same to deliver two calls are enough, and the last one is
made with a memory in which nothing is from the kernel. -/
theorem fill_eq (hsize : 0 < size) (hreply : ∀ round, reply round = .ok r)
    (hlen : r.bytes.length = n * size) (hfuel : 2 ≤ fuel) (hempty : b.len = 0)
    (hunset : ∀ i, b.mem i = .unset) :
    ∃ b₀ : Buffer, ∃ h : n ≤ b₀.capacity,
      fill alloc size announce reply fuel b =
        ((b₀.receive r (announce b₀.capacity)).setLen n h, .ok ()) ∧
      b₀.capacity = b.lastCapacity alloc n ∧
      ∀ i < n * size, (b₀.mem i).isReceived = false := by
  have hn : r.bytes.length / size = n := by rw [hlen, Nat.mul_div_cancel _ hsize]
  by_cases hfits : n ≤ b.capacity
  · have hlast := fillRound_of_le alloc size announce (hreply 0) (hn.trans_le hfits)
    refine ⟨b, hfits, ?_, (if_pos hfits).symm, fun i _ => by rw [hunset i]; rfl⟩
    rw [fill, ignore, bind_of_eq (loopFrom_of_last .start hlast (by omega))]
    simp [hn]
  · have hlt : b.capacity < n := Nat.not_le.mp hfits
    let b₀ := (b.receive r (announce b.capacity)).resize alloc size n
    have hcapacity : b₀.capacity = alloc.grow b.capacity n :=
      capacity_resize_of_empty alloc size hempty hlt
    have hroom : n ≤ b₀.capacity := (alloc.le_grow _ _).trans_eq hcapacity.symm
    have hfirst : fillRound alloc size announce reply 0 b = (b₀, .ok true) := by
      rw [fillRound_of_lt alloc size announce (hreply 0) (hlt.trans_eq hn.symm), hn]
    have hlast := fillRound_of_le alloc size announce (hreply 1) (hn.trans_le hroom)
    refine ⟨b₀, hroom, ?_, hcapacity.trans (if_neg hfits).symm, fun i hi => ?_⟩
    · rw [fill, ignore, bind_of_eq (loopFrom_of_last (.next .start hfirst) hlast hfuel)]
      simp [hn]
    · have hmem : b₀.mem i = .own 0 :=
        mem_resize_of_empty (b := b.receive r (announce b.capacity)) alloc size hempty hi
      rw [hmem]
      rfl

theorem contents_receive {room : ℕ} (h : n ≤ b.capacity) (hlen : r.bytes.length = n * size)
    (hroom : n * size ≤ room) :
    ((b.receive r room).setLen n h).contents size = r.bytes.map .received := by
  have hcopied : r.copied room = n * size :=
    (r.copied_all room (hlen.trans_le hroom)).trans hlen
  apply ext_getElem
  · simp [contents, setLen, hlen]
  · intro i hi hi'
    have hlt : i < n * size := by simpa [hlen] using hi'
    simp [contents, setLen, receive, hcopied, hlt, hlen]

theorem received_iff {room : ℕ} (h : n ≤ b.capacity) (hlen : r.bytes.length = n * size)
    (hmem : ∀ i < n * size, (b.mem i).isReceived = false) :
    (∀ c ∈ ((b.receive r room).setLen n h).contents size, c.isReceived = true) ↔
      n * size ≤ room := by
  constructor
  · intro hall
    by_contra hroom
    have hlt : room < n * size := Nat.not_le.mp hroom
    have hcell := hall (b.mem room) (mem_map.mpr ⟨room, mem_range.mpr hlt,
      if_neg (Nat.not_lt.mpr (r.copied_le room))⟩)
    rw [hmem room hlt] at hcell
    exact Bool.false_ne_true hcell
  · intro hroom c hc
    rw [contents_receive size h hlen hroom] at hc
    obtain ⟨byte, -, rfl⟩ := mem_map.mp hc
    rfl

/-- The array is filled with what the kernel has if and only if enough bytes are announced in
the last call. -/
theorem fill_spec (hsize : 0 < size) (hreply : ∀ round, reply round = .ok r)
    (hlen : r.bytes.length = n * size) (hfuel : 2 ≤ fuel) (hempty : b.len = 0)
    (hunset : ∀ i, b.mem i = .unset) :
    ∃ b', fill alloc size announce reply fuel b = (b', .ok ()) ∧ b'.len = n ∧
      ((∀ c ∈ b'.contents size, c.isReceived = true) ↔
        n * size ≤ announce (b.lastCapacity alloc n)) ∧
      (n * size ≤ announce (b.lastCapacity alloc n) →
        b'.contents size = r.bytes.map .received) := by
  obtain ⟨b₀, h, hfill, hcapacity, hmem⟩ :=
    fill_eq alloc size announce hsize hreply hlen hfuel hempty hunset
  rw [← hcapacity]
  exact ⟨_, hfill, rfl, received_iff size h hlen hmem, contents_receive size h hlen⟩

end

end Buffer

/-- How a value is laid out in the memory. -/
structure Layout (α : Type) (size : ℕ) where
  bytes : α → List UInt8
  value : List UInt8 → α
  length_bytes : ∀ v, (bytes v).length = size
  value_bytes : ∀ v, value (bytes v) = v

namespace Layout

variable {α : Type} {size : ℕ} (layout : Layout α size)

/-- A byte as it is. -/
def byte : Layout UInt8 1 where
  bytes v := [v]
  value bs := bs.headD 0
  length_bytes _ := rfl
  value_bytes _ := rfl

theorem length_flatMap_bytes (vs : List α) :
    (vs.flatMap layout.bytes).length = vs.length * size := by
  induction vs with
  | nil => simp
  | cons v vs ih =>
    rw [flatMap_cons, length_append, layout.length_bytes, ih, length_cons]
    ring

/-- The values in the memory, if all of it has been written. -/
def readAll : ℕ → List Cell → Option (List α)
  | 0, _ => some []
  | n + 1, cells => do
    let bs ← (cells.take size).mapM Cell.byte?
    let vs ← readAll n (cells.drop size)
    some (layout.value bs :: vs)

theorem mapM_byte?_received (bs : List UInt8) :
    (bs.map Cell.received).mapM Cell.byte? = some bs := by
  induction bs with
  | nil => rfl
  | cons b bs ih => simp [mapM_cons, ih, Cell.byte?]

theorem readAll_received (vs : List α) :
    layout.readAll vs.length ((vs.flatMap layout.bytes).map Cell.received) = some vs := by
  induction vs with
  | nil => rfl
  | cons v vs ih =>
    have hlen : ((layout.bytes v).map Cell.received).length = size := by
      rw [length_map, layout.length_bytes]
    rw [flatMap_cons, map_append, length_cons, readAll, take_left' hlen,
      drop_left' hlen, mapM_byte?_received, ih]
    simp [layout.value_bytes]

def values (b : Buffer) : Option (List α) := layout.readAll b.len (b.contents size)

end Layout

end Stratisd.Media
