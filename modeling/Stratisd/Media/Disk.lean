import Mathlib.Order.Interval.Finset.Nat

/-! A byte-addressed medium under an unreliable writer. A byte that can not be
read, because it lies past the end or on a bad sector, is `none`. A sequence of
write requests may stop early: some requests are complete, one may be written in
part, the rest never reach the medium. -/

namespace Stratisd.Media

/-- What a read of each byte gives. -/
abbrev Disk := ℕ → Option UInt8

/-- Read `len` bytes from `pos` on, or fail if one of them is unreadable. -/
def readExact (d : Disk) : ℕ → ℕ → Option (List UInt8)
  | _, 0 => some []
  | pos, len + 1 => do
    let b ← d pos
    let bs ← readExact d (pos + 1) len
    some (b :: bs)

def writeAll (d : Disk) (pos : ℕ) (data : List UInt8) : Disk :=
  fun i => if pos ≤ i ∧ i < pos + data.length then data[i - pos]? else d i

variable {d : Disk} {pos : ℕ}

theorem readExact_congr {d' : Disk} {len : ℕ} (h : ∀ i, pos ≤ i → i < pos + len → d i = d' i) :
    readExact d pos len = readExact d' pos len := by
  induction len generalizing pos with
  | zero => rfl
  | succ len ih =>
    rw [readExact, readExact, h pos le_rfl (by omega),
      ih (fun i hl hu => h i (by omega) (by omega))]

theorem length_of_readExact {len : ℕ} {bs : List UInt8} (h : readExact d pos len = some bs) :
    bs.length = len := by
  induction len generalizing pos bs with
  | zero => cases h; rfl
  | succ len ih =>
    simp only [readExact, Option.bind_eq_bind, Option.bind_eq_some_iff] at h
    obtain ⟨b, -, cs, hcs, h⟩ := h
    cases h
    rw [List.length_cons, ih hcs]

variable {i : ℕ}

theorem writeAll_outside {data : List UInt8} (h : i < pos ∨ pos + data.length ≤ i) :
    writeAll d pos data i = d i := by
  rw [writeAll, if_neg (by omega)]

theorem readExact_eq_of_getElem {data : List UInt8}
    (h : ∀ j, j < data.length → d (pos + j) = data[j]?) :
    readExact d pos data.length = some data := by
  induction data generalizing pos with
  | nil => rfl
  | cons b bs ih =>
    have h0 : d pos = some b := by simpa using h 0 (by simp)
    have ht : readExact d (pos + 1) bs.length = some bs := by
      apply ih
      intro j hj
      have := h (j + 1) (by simp only [List.length_cons]; omega)
      rw [show pos + (j + 1) = pos + 1 + j by omega] at this
      simpa using this
    simp [readExact, h0, ht]

theorem readExact_writeAll (d : Disk) (pos : ℕ) (data : List UInt8) :
    readExact (writeAll d pos data) pos data.length = some data := by
  apply readExact_eq_of_getElem
  intro j hj
  rw [writeAll, if_pos (by omega), Nat.add_sub_cancel_left]

/-! ### Write sequences -/

structure Write where
  pos : ℕ
  data : List UInt8

namespace Write

/-- The request lies inside `[lo, hi)`. -/
def Within (lo hi : ℕ) (w : Write) : Prop := lo ≤ w.pos ∧ w.pos + w.data.length ≤ hi

def truncate (n : ℕ) (w : Write) : Write := ⟨w.pos, w.data.take n⟩

def Misses (i : ℕ) (w : Write) : Prop := i < w.pos ∨ w.pos + w.data.length ≤ i

theorem Within.misses {lo hi i : ℕ} {w : Write} (h : w.Within lo hi) (hi' : i < lo ∨ hi ≤ i) :
    w.Misses i := by
  obtain ⟨h1, h2⟩ := h
  unfold Misses
  omega

theorem Misses.truncate {i n : ℕ} {w : Write} (h : w.Misses i) : (w.truncate n).Misses i := by
  unfold Misses at h ⊢
  simp only [Write.truncate, List.length_take]
  omega

end Write

def applyWrites (ws : List Write) (d : Disk) : Disk :=
  ws.foldl (fun d w => writeAll d w.pos w.data) d

@[simp] theorem applyWrites_nil (d : Disk) : applyWrites [] d = d := rfl

@[simp] theorem applyWrites_cons (w : Write) (ws : List Write) (d : Disk) :
    applyWrites (w :: ws) d = applyWrites ws (writeAll d w.pos w.data) := rfl

variable {ws : List Write}

theorem applyWrites_of_misses (hw : ∀ w ∈ ws, w.Misses i) : applyWrites ws d i = d i := by
  induction ws generalizing d with
  | nil => rfl
  | cons w ws ih =>
    rw [applyWrites_cons, ih (fun v hv => hw v (by simp [hv])), writeAll_outside (hw w (by simp))]

theorem applyWrites_outside {lo hi : ℕ} (hw : ∀ w ∈ ws, w.Within lo hi) (hi' : i < lo ∨ hi ≤ i) :
    applyWrites ws d i = d i :=
  applyWrites_of_misses fun w h => (hw w h).misses hi'

theorem readExact_applyWrites_of_mem {w : Write} (hw : w ∈ ws)
    (hd : ws.Pairwise fun v u => v.pos + v.data.length ≤ u.pos) :
    readExact (applyWrites ws d) w.pos w.data.length = some w.data := by
  induction ws generalizing d with
  | nil => simp at hw
  | cons v ws ih =>
    rw [List.pairwise_cons] at hd
    rw [applyWrites_cons]
    rcases List.mem_cons.mp hw with rfl | hw
    · -- the later requests lie behind this one
      rw [← readExact_writeAll d w.pos w.data]
      refine readExact_congr fun i _ hi => ?_
      have key : ∀ (us : List Write) (d : Disk), (∀ u ∈ us, w.pos + w.data.length ≤ u.pos) →
          applyWrites us d i = d i := by
        intro us
        induction us with
        | nil => intros; rfl
        | cons u us ihu =>
          intro d hu
          rw [applyWrites_cons, ihu _ fun x hx => hu x (by simp [hx]), writeAll_outside]
          exact Or.inl (lt_of_lt_of_le hi (hu u (by simp)))
      exact key ws _ hd.1
    · exact ih hw hd.2

/-- Where a sequence of requests stops: `full` complete requests and the first
`part` bytes of the next one are on the medium. -/
structure Cut where
  full : ℕ
  part : ℕ
  deriving DecidableEq

def Cut.apply (c : Cut) (ws : List Write) : List Write :=
  ws.take c.full ++ ((ws.drop c.full).take 1).map (Write.truncate c.part)

theorem Cut.apply_misses {c : Cut} (hw : ∀ w ∈ ws, w.Misses i) : ∀ w ∈ c.apply ws, w.Misses i := by
  intro w h
  simp only [Cut.apply, List.mem_append, List.mem_map] at h
  rcases h with h | ⟨v, hv, rfl⟩
  · exact hw w (List.mem_of_mem_take h)
  · exact (hw v (List.mem_of_mem_drop (List.mem_of_mem_take hv))).truncate

/-- Carry out a sequence of requests that stops at the cut, if there is one, and
then reports failure. A cut behind the last request is a failed flush. -/
def perform (fault : Option Cut) (ws : List Write) (d : Disk) : Disk × Bool :=
  match fault with
  | none => (applyWrites ws d, true)
  | some c => (applyWrites (c.apply ws) d, false)

@[simp] theorem perform_none (ws : List Write) (d : Disk) :
    perform none ws d = (applyWrites ws d, true) := rfl

@[simp] theorem perform_some (c : Cut) (ws : List Write) (d : Disk) :
    perform (some c) ws d = (applyWrites (c.apply ws) d, false) := rfl

theorem perform_of_misses {fault : Option Cut} (hw : ∀ w ∈ ws, w.Misses i) :
    (perform fault ws d).1 i = d i := by
  cases fault with
  | none => exact applyWrites_of_misses hw
  | some c => exact applyWrites_of_misses (Cut.apply_misses hw)

theorem perform_outside {fault : Option Cut} {lo hi : ℕ} (hw : ∀ w ∈ ws, w.Within lo hi)
    (hi' : i < lo ∨ hi ≤ i) : (perform fault ws d).1 i = d i :=
  perform_of_misses fun w h => (hw w h).misses hi'

theorem readExact_outside {d' : Disk} {lo hi len : ℕ} (h : ∀ i, i < lo ∨ hi ≤ i → d' i = d i)
    (hp : pos + len ≤ lo ∨ hi ≤ pos) :
    readExact d' pos len = readExact d pos len :=
  readExact_congr fun i _ _ => h i (by omega)

end Stratisd.Media
