import Stratisd.Backstore.Backstore
import Stratisd.Backstore.TierSpec

/-! What an allocation from the backstore does, however it ends. The index into the cap device
moves by what is given out and never passes the end of the device, and the cap device is never
larger than the segments of the data tier. -/

namespace Stratisd.Backstore

open Run Run.Stateful Engine Extent

namespace Backstore

variable {b : Backstore}

/-! ### Chunks of the cap device -/

theorem map_snd_chunksFrom (next : ℕ) (sizes : List ℕ) :
    (chunksFrom next sizes).map (·.2) = sizes := by
  induction sizes generalizing next with
  | nil => rfl
  | cons size sizes ih => simp [chunksFrom, ih]

theorem takeChunks_eq (sizes : List ℕ) (b : Backstore) :
    takeChunks sizes b = ({ b with next := b.next + sizes.sum },
      .ok (some (chunksFrom b.next sizes))) := by
  rw [takeChunks, get_bind, modify_bind]
  simp only [map_snd_chunksFrom, if_pos]
  rfl

theorem alloc_sizes {io : CapIo} {sizes : List ℕ} {b b' : Backstore} {chunks : List Range}
    (h : alloc io sizes b = (b', .ok (some chunks))) : chunks.map (·.2) = sizes := by
  obtain ⟨_, _, -, h⟩ := bind_eq_ok.mp h
  obtain ⟨_, _, -, h⟩ := bind_eq_ok.mp h
  obtain ⟨b₁, granted, -, h⟩ := bind_eq_ok.mp h
  split_ifs at h
  · rw [takeChunks_eq] at h
    obtain rfl := Option.some.inj (Outcome.ok.inj (congrArg Prod.snd h))
    exact map_snd_chunksFrom _ _
  · cases h

/-! ### Rules -/

/-- What every part of an allocation keeps. -/
structure Stable (I : Backstore → Prop) : Prop where
  data : ∀ n, Stateful.Keeps I (allocData n)
  cap : ∀ io, Stateful.Keeps I (extendCapDevice io)
  index : ∀ b n, I b → I { b with next := n }

section rules

variable {I : Backstore → Prop}

theorem Stable.keeps_growCap (h : Stable I) (io : CapIo) (amount : ℕ) :
    Keeps I (growCap io amount) := by
  refine (h.data amount).bind fun allocated => ?_
  split_ifs
  · exact (h.cap io).bind fun _ => keeps_pure true
  · exact keeps_pure false

theorem Stable.keeps_alloc (h : Stable I) (io : CapIo) (sizes : List ℕ) :
    Keeps I (alloc io sizes) := by
  refine keeps_read fun b => (keeps_lift _).bind fun available =>
    Keeps.bind ?_ fun granted => ?_
  · split_ifs
    · exact h.keeps_growCap io _
    · exact keeps_pure true
  · split_ifs
    · intro b hb
      rw [takeChunks_eq]
      exact h.index b _ hb
    · exact keeps_pure none

theorem Stable.keeps_requestLoop (h : Stable I) (overflowChecks : Bool)
    (available modulus fuel internalRequest : ℕ) :
    Keeps I (requestLoop overflowChecks available modulus fuel internalRequest) := by
  induction fuel generalizing internalRequest with
  | zero => exact keeps_pure false
  | succ fuel ih =>
    unfold requestLoop
    split_ifs with h0
    · exact keeps_pure false
    · refine (keeps_lift _).bind fun amount => (h.data amount).bind fun allocated => ?_
      split_ifs
      · exact keeps_pure true
      · exact ih _

theorem Stable.keeps_takeChunk (h : Stable I) (amount : ℕ) : Keeps I (takeChunk amount) :=
  fun b hb => h.index b _ hb

theorem Stable.keeps_request (h : Stable I) (overflowChecks : Bool) (io : CapIo) (n modulus : ℕ) :
    Keeps I (request overflowChecks io n modulus) := by
  unfold request
  simp only
  split_ifs with hm h0
  · exact keeps_lift _
  · exact keeps_pure none
  · refine keeps_read fun b => (keeps_lift _).bind fun available => ?_
    split_ifs
    · refine (h.keeps_requestLoop _ _ _ _ _).bind fun allocated => ?_
      split_ifs
      · exact (h.cap io).bind fun _ => keeps_read fun _ =>
          (keeps_lift _).bind fun _ => h.keeps_takeChunk _
      · exact keeps_pure none
    · exact h.keeps_takeChunk _

end rules

/-! ### The index -/

/-- The index is inside the cap device, and all of the cap device is on segments. -/
structure Room (b : Backstore) : Prop where
  next_le : b.next ≤ b.size
  size_le : b.size ≤ totalLength b.dataTier.segments

/-- The same index and the same cap device, and no fewer sectors in the data tier. -/
structure Roomier (b b' : Backstore) : Prop where
  next : b'.next = b.next
  size : b'.size = b.size
  length_le : totalLength b.dataTier.segments ≤ totalLength b'.dataTier.segments

theorem Roomier.refl (b : Backstore) : Roomier b b := ⟨rfl, rfl, le_rfl⟩

theorem Roomier.trans {b₁ b₂ b₃ : Backstore} (h : Roomier b₁ b₂) (h' : Roomier b₂ b₃) :
    Roomier b₁ b₃ :=
  ⟨h'.next.trans h.next, h'.size.trans h.size, h.length_le.trans h'.length_le⟩

theorem Room.roomier {b' : Backstore} (h : b.Room) (hr : Roomier b b') : b'.Room := by
  refine ⟨?_, ?_⟩
  · rw [hr.next, hr.size]
    exact h.next_le
  · rw [hr.size]
    exact h.size_le.trans hr.length_le

theorem availableInCap_eq (h : b.Room) : b.availableInCap = .ok (b.size - b.next) :=
  if_pos h.next_le

theorem allocData_room (b : Backstore) (request : ℕ) :
    let r := allocData request b
    Roomier b r.1 ∧ (r.2 = .ok true →
      totalLength r.1.dataTier.segments = totalLength b.dataTier.segments + request) := by
  intro r
  have hr : r = allocData request b := rfl
  rw [allocData, get_bind] at hr
  cases hres : b.dataTier.alloc request with
  | ok res =>
    obtain ⟨t, granted⟩ := res
    rw [hres, lift_ok_bind] at hr
    have htotal := DataTier.alloc_total hres
    rw [hr]
    refine ⟨⟨rfl, rfl, ?_⟩, fun hok => ?_⟩
    · exact (Nat.le_add_right _ _).trans_eq htotal.symm
    · obtain rfl : granted = true := Outcome.ok.inj hok
      exact htotal
  | err e =>
    rw [hres, lift_err_bind] at hr
    rw [hr]
    exact ⟨Roomier.refl b, by simp⟩
  | panic =>
    rw [hres, lift_panic_bind] at hr
    rw [hr]
    exact ⟨Roomier.refl b, by simp⟩

theorem loadTable_cases (setTable resume : Bool) (load : Backstore → Backstore) (b : Backstore) :
    ((loadTable setTable resume load b).1 = b ∧ (loadTable setTable resume load b).2 = .err .dm) ∨
      (loadTable setTable resume load b).1 = load b ∧
        ((loadTable setTable resume load b).2 = .ok () ∨
          (loadTable setTable resume load b).2 = .err .dm) := by
  cases setTable
  · exact Or.inl ⟨rfl, rfl⟩
  · cases resume
    · exact Or.inr ⟨rfl, Or.inr rfl⟩
    · exact Or.inr ⟨rfl, Or.inl rfl⟩

theorem loadTable_room (h : b.Room) {b' : Backstore} {load : Backstore → Backstore}
    (hload : load b = b') (htier : b'.dataTier = b.dataTier) (hnext : b'.next = b.next)
    (hsize : b'.size = totalLength b.dataTier.segments) (setTable resume : Bool) :
    let r := loadTable setTable resume load b
    r.1.Room ∧ r.1.next = b.next ∧
      (r.2 = .ok () → r.1.size = totalLength b.dataTier.segments) := by
  intro r
  rcases loadTable_cases setTable resume load b with ⟨h1, h2⟩ | ⟨h1, h2⟩
  · rw [show r.1 = b from h1, show r.2 = .err .dm from h2]
    exact ⟨h, rfl, by simp⟩
  · rw [show r.1 = b' from h1.trans hload]
    refine ⟨⟨?_, by rw [htier, hsize]⟩, hnext, fun _ => hsize⟩
    rw [hnext, hsize]
    exact h.next_le.trans h.size_le

/-- However the extension of the cap device ends, the index is where it was; if it succeeds, all
segments are under the cap device. -/
theorem extendCapDevice_room (h : b.Room) (io : CapIo) :
    let r := extendCapDevice io b
    r.1.Room ∧ r.1.next = b.next ∧
      (r.2 = .ok () → r.1.size = totalLength b.dataTier.segments) := by
  have hlen := tableLength_mapToDm b.dataTier.segments
  unfold extendCapDevice
  rw [get_bind]
  rcases hc : b.cache with _ | cache <;> rcases hl : b.linear with _ | linear <;> simp only
  · -- no cap device yet
    cases io.create with
    | none => exact ⟨h, rfl, fun hok => by cases hok⟩
    | some d =>
      refine ⟨⟨?_, hlen.le⟩, rfl, fun _ => hlen⟩
      exact (h.next_le.trans h.size_le).trans_eq hlen.symm
  · refine loadTable_room h rfl rfl rfl ?_ _ _
    exact hlen
  · refine loadTable_room h rfl rfl rfl ?_ _ _
    simp only [size, hl]
    exact hlen
  · exact ⟨h, rfl, fun hok => by cases hok⟩

theorem growCap_room (h : b.Room) (io : CapIo) (amount : ℕ) :
    let r := growCap io amount b
    r.1.Room ∧ r.1.next = b.next ∧
      (r.2 = .ok true → r.1.size = totalLength b.dataTier.segments + amount) := by
  intro r
  obtain ⟨hroom, htotal⟩ := allocData_room b amount
  rcases bind_cases (allocData amount)
      (fun allocated => if allocated then extendCapDevice io >>= fun _ => pure true else pure false)
      b with ⟨allocated, hres, heq⟩ | ⟨heq, hne⟩
  · have hr : r = _ := heq
    cases allocated with
    | false =>
      rw [hr]
      exact ⟨h.roomier hroom, hroom.next, by simp⟩
    | true =>
      obtain ⟨hr', hn', hsize⟩ := extendCapDevice_room (h.roomier hroom) io
      simp only [if_true] at hr
      rcases bind_cases (extendCapDevice io) (fun _ => pure true)
        (allocData amount b).1 with ⟨u, hok, heq'⟩ | ⟨heq', hne⟩
      · rw [hr, heq']
        exact ⟨hr', hn'.trans hroom.next, fun _ => (hsize hok).trans (htotal hres)⟩
      · rw [hr, heq']
        exact ⟨hr', hn'.trans hroom.next, fun hok => absurd hok (hne true)⟩
  · rw [show r.1 = _ from heq]
    exact ⟨h.roomier hroom, hroom.next, fun hok => absurd hok (hne true)⟩

/-- How an allocation of chunks ends: it gives out the next sectors of the cap device, or it
leaves the index alone. -/
theorem alloc_room (h : b.Room) (io : CapIo) (sizes : List ℕ) :
    let r := alloc io sizes b
    r.1.Room ∧
      ((r.2 = .ok (some (chunksFrom b.next sizes)) ∧ r.1.next = b.next + sizes.sum) ∨
        (∀ cs, r.2 ≠ .ok (some cs)) ∧ r.1.next = b.next) := by
  intro r
  have hle := h.next_le
  -- chunks that fit in what is left of a cap device
  have htake : ∀ b' : Backstore, b'.Room → b'.next = b.next → b.next + sizes.sum ≤ b'.size →
      r = takeChunks sizes b' →
      r.1.Room ∧ r.2 = .ok (some (chunksFrom b.next sizes)) ∧ r.1.next = b.next + sizes.sum := by
    intro b' hs hn hfit hr
    rw [hr, takeChunks_eq, hn]
    exact ⟨⟨hfit, hs.size_le⟩, rfl, rfl⟩
  have hr : r = ((if b.size - b.next < sizes.sum then growCap io (sizes.sum - (b.size - b.next))
      else pure true) >>= fun granted => if granted then takeChunks sizes else pure none) b := by
    simp only [r, alloc, get_bind, availableInCap_eq h, lift_ok_bind]
  split_ifs at hr with hlt
  · obtain ⟨hroom, hn, hsize⟩ := growCap_room h io (sizes.sum - (b.size - b.next))
    rcases bind_cases (growCap io (sizes.sum - (b.size - b.next)))
      (fun granted => if granted then takeChunks sizes else pure none) b with
      ⟨granted, hres, heq⟩ | ⟨heq, hne⟩
    · rw [heq] at hr
      cases granted with
      | false =>
        rw [hr]
        exact ⟨hroom, Or.inr ⟨by simp, hn⟩⟩
      | true =>
        obtain ⟨h1, h2⟩ := htake _ hroom hn (by have := h.size_le; have := hsize hres; omega) hr
        exact ⟨h1, Or.inl h2⟩
    · rw [hr, heq]
      exact ⟨hroom, Or.inr ⟨fun cs => hne _, hn⟩⟩
  · obtain ⟨h1, h2⟩ := htake b h rfl (by omega) hr
    exact ⟨h1, Or.inl h2⟩

/-! ### A request -/

theorem le_add_of_subU64 {overflowChecks : Bool} {a b c : ℕ} (h : subU64 overflowChecks a b = .ok c) :
    a ≤ c + b := by
  unfold subU64 at h
  split_ifs at h with h1 h2
  · cases h
    omega
  · cases h
    omega

/-- The loop ends with an allocation that is enough, with what was available, for some multiple
of the modulus, or with no allocation. -/
theorem requestLoop_room (b : Backstore) (overflowChecks : Bool) (available modulus fuel : ℕ)
    {internalRequest : ℕ} (hd : modulus ∣ internalRequest) :
    let r := requestLoop overflowChecks available modulus fuel internalRequest b
    Roomier b r.1 ∧ (r.2 = .ok true → ∃ amount, 0 < amount ∧ modulus ∣ amount ∧
      amount ≤ internalRequest ∧ totalLength b.dataTier.segments + amount ≤
        totalLength r.1.dataTier.segments + available) := by
  induction fuel generalizing internalRequest b with
  | zero => exact ⟨Roomier.refl b, by simp [requestLoop]⟩
  | succ fuel ih =>
    intro r
    have hr : r = requestLoop overflowChecks available modulus (fuel + 1) internalRequest b := rfl
    rw [requestLoop] at hr
    split_ifs at hr with h0
    · rw [hr]
      exact ⟨Roomier.refl b, by simp⟩
    · cases hsub : subU64 overflowChecks internalRequest available with
      | err e =>
        rw [hr, hsub, lift_err_bind]
        exact ⟨Roomier.refl b, by simp⟩
      | panic =>
        rw [hr, hsub, lift_panic_bind]
        exact ⟨Roomier.refl b, by simp⟩
      | ok amount =>
        rw [hsub, lift_ok_bind] at hr
        obtain ⟨hroom, htotal⟩ := allocData_room b amount
        rcases bind_cases (allocData amount)
          (fun allocated => if allocated then pure true else requestLoop overflowChecks available
            modulus fuel (internalRequest / 2 / modulus * modulus)) b with
          ⟨allocated, hres, heq⟩ | ⟨heq, hne⟩
        · rw [heq] at hr
          cases allocated with
          | true =>
            have := le_add_of_subU64 hsub
            have := htotal hres
            rw [hr]
            refine ⟨hroom, fun _ => ⟨internalRequest, Nat.pos_of_ne_zero h0, hd, le_rfl, ?_⟩⟩
            simp only [if_true, pure_apply]
            omega
          | false =>
            obtain ⟨hrest, hgot⟩ := ih (allocData amount b).1
              (Dvd.intro_left (internalRequest / 2 / modulus) rfl)
            rw [hr]
            refine ⟨hroom.trans hrest, fun hok => ?_⟩
            obtain ⟨k, hk0, hkd, hk, htot⟩ := hgot hok
            refine ⟨k, hk0, hkd, hk.trans ?_, ?_⟩
            · exact (Nat.div_mul_le_self _ _).trans (Nat.div_le_self _ _)
            · exact (Nat.add_le_add_right hroom.length_le k).trans htot
        · rw [hr, heq]
          exact ⟨hroom, fun hok => absurd hok (hne true)⟩

/-- The request is halved in every round, so fuel for its binary digits is enough. -/
theorem requestLoop_fuel (overflowChecks : Bool) (available modulus : ℕ) {fuel fuel' : ℕ}
    {internalRequest : ℕ} (h : internalRequest < 2 ^ fuel) (h' : internalRequest < 2 ^ fuel') :
    requestLoop overflowChecks available modulus fuel internalRequest =
      requestLoop overflowChecks available modulus fuel' internalRequest := by
  induction fuel generalizing fuel' internalRequest with
  | zero =>
    obtain rfl : internalRequest = 0 := by simpa using h
    cases fuel' <;> simp [requestLoop]
  | succ fuel ih =>
    cases fuel' with
    | zero =>
      obtain rfl : internalRequest = 0 := by simpa using h'
      simp [requestLoop]
    | succ fuel' =>
      have hhalf : internalRequest / 2 / modulus * modulus ≤ internalRequest / 2 :=
        Nat.div_mul_le_self _ _
      rw [Nat.pow_succ] at h h'
      simp only [requestLoop, ih (show internalRequest / 2 / modulus * modulus < 2 ^ fuel by omega)
        (show internalRequest / 2 / modulus * modulus < 2 ^ fuel' by omega)]

theorem takeChunk_eq (amount : ℕ) (b : Backstore) :
    takeChunk amount b = ({ b with next := b.next + amount }, .ok (some (b.next, amount))) := rfl

/-- A multiple of the modulus that a request has been granted, and what the index has moved
by. -/
def Grants (b : Backstore) (n modulus : ℕ) (r : Backstore × StratisResult (Option Range)) : Prop :=
  ∃ got, 0 < got ∧ modulus ∣ got ∧ got ≤ n ∧ r.2 = .ok (some (b.next, got)) ∧
    r.1.next = b.next + got

/-- After an allocation that is enough for a multiple of the modulus, at least that multiple
is given out, unless device-mapper fails. -/
theorem takeExtended_room (h : b.Room) (io : CapIo) {n modulus amount : ℕ} (h0 : 0 < amount)
    (hd : modulus ∣ amount) (hle : amount ≤ n)
    (htot : b.next + amount ≤ totalLength b.dataTier.segments) :
    let r := takeExtended io n modulus b
    r.1.Room ∧ (Grants b n modulus r ∨ (∀ region, r.2 ≠ .ok (some region)) ∧ r.1.next = b.next) := by
  intro r
  obtain ⟨hroom, hn, hsize⟩ := extendCapDevice_room h io
  rcases bind_cases (extendCapDevice io) (fun _ => do
      let b ← Stateful.get
      let available ← Stateful.lift b.availableInCap
      takeChunk (min n available / modulus * modulus)) b with ⟨u, hok, heq⟩ | ⟨heq, hne⟩
  · set b' := (extendCapDevice io b).1 with hb'
    have hr : r = takeChunk (min n (b'.size - b'.next) / modulus * modulus) b' := by
      rw [show r = _ from heq, get_bind, availableInCap_eq hroom, lift_ok_bind]
    set got := min n (b'.size - b'.next) / modulus * modulus with hgot
    have hgle : got ≤ min n (b'.size - b'.next) := Nat.div_mul_le_self _ _
    have hmin : amount ≤ min n (b'.size - b'.next) := by
      have := hsize hok
      omega
    have hage : amount ≤ got := by
      obtain ⟨k, rfl⟩ := hd
      rw [hgot, Nat.mul_comm modulus k]
      refine Nat.mul_le_mul_right _ ?_
      rcases Nat.eq_zero_or_pos modulus with rfl | hm
      · simp at h0
      · exact (Nat.le_div_iff_mul_le hm).mpr (by rwa [Nat.mul_comm])
    have hfit : b'.next + got ≤ b'.size := by
      have := hroom.next_le
      omega
    rw [hr, takeChunk_eq, hn] at *
    refine ⟨⟨hfit, hroom.size_le⟩, Or.inl ⟨got, by omega, Dvd.intro_left _ rfl, by omega, rfl, rfl⟩⟩
  · rw [show r.1 = _ from heq]
    exact ⟨hroom, Or.inr ⟨fun region => hne _, hn⟩⟩

/-- How a request ends: it gives out the next sectors of the cap device, some and no more than
were asked for, or it leaves the index alone. -/
theorem request_room (h : b.Room) (overflowChecks : Bool) (io : CapIo) (n modulus : ℕ) :
    let r := request overflowChecks io n modulus b
    r.1.Room ∧ (Grants b n modulus r ∨ (∀ region, r.2 ≠ .ok (some region)) ∧ r.1.next = b.next) := by
  intro r
  have hr : r = request overflowChecks io n modulus b := rfl
  have hle : n / modulus * modulus ≤ n := Nat.div_mul_le_self _ _
  have hdvd : modulus ∣ n / modulus * modulus := Dvd.intro_left _ rfl
  have hnext := h.next_le
  rw [request] at hr
  simp only at hr
  split_ifs at hr with hm h0
  · rw [hr]
    exact ⟨h, Or.inr ⟨by simp, rfl⟩⟩
  · rw [hr]
    exact ⟨h, Or.inr ⟨by simp, rfl⟩⟩
  · rw [get_bind, availableInCap_eq h, lift_ok_bind] at hr
    split_ifs at hr with hlt
    · obtain ⟨hroom, hgot⟩ := requestLoop_room b overflowChecks (b.size - b.next) modulus
        ((n / modulus * modulus).log2 + 1) hdvd
      rcases bind_cases (requestLoop overflowChecks (b.size - b.next) modulus
          ((n / modulus * modulus).log2 + 1) (n / modulus * modulus))
        (fun allocated => if allocated then takeExtended io n modulus else pure none) b with
        ⟨allocated, hres, heq⟩ | ⟨heq, hne⟩
      · rw [heq] at hr
        cases allocated with
        | false =>
          rw [hr]
          exact ⟨h.roomier hroom, Or.inr ⟨by simp, hroom.next⟩⟩
        | true =>
          obtain ⟨amount, ha0, had, hale, htot⟩ := hgot hres
          have hspec := takeExtended_room (h.roomier hroom) io ha0 had (hale.trans hle)
            (by have := hroom.next; have := h.size_le; omega)
          rw [hr]
          simpa only [Grants, hroom.next, if_true] using hspec
      · rw [hr, heq]
        exact ⟨h.roomier hroom, Or.inr ⟨fun region => hne _, hroom.next⟩⟩
    · rw [hr, takeChunk_eq]
      refine ⟨⟨?_, h.size_le⟩, Or.inl ⟨_, Nat.pos_of_ne_zero h0, hdvd, hle, rfl, rfl⟩⟩
      show b.next + n / modulus * modulus ≤ b.size
      omega

/-! ### The devices of the data tier -/

theorem stable_of_alloc {I : Backstore → Prop}
    (halloc : ∀ b n r, I b → b.dataTier.alloc n = .ok r → I { b with dataTier := r.1 })
    (hcap : ∀ b cache linear next, I b → I { b with cache, linear, next }) : Stable I := by
  refine ⟨fun n b h => ?_, fun io b h => ?_, fun b n h => hcap b b.cache b.linear n h⟩
  · rw [allocData, get_bind]
    rcases ht : b.dataTier.alloc n with r | e | _
    · exact halloc b n r h ht
    · exact h
    · exact h
  · have hload : ∀ load : Backstore → Backstore, I (load b) →
        I (loadTable io.setTable io.resume load b).1 := by
      intro load hl
      rcases loadTable_cases io.setTable io.resume load b with ⟨heq, -⟩ | ⟨heq, -⟩
      · rwa [heq]
      · rwa [heq]
    rw [extendCapDevice, get_bind]
    rcases hc : b.cache with _ | cache <;> rcases hl : b.linear with _ | linear <;> simp only
    · cases io.create with
      | none => exact h
      | some d => exact hcap b b.cache _ b.next h
    · exact hload _ (hcap b b.cache _ b.next h)
    · exact hload _ (hcap b _ b.linear b.next h)
    · exact h

theorem stable_datatierUsableSize (overflowChecks : Bool) (usable : StratisResult ℕ) :
    Stable fun b => b.datatierUsableSize overflowChecks = usable :=
  stable_of_alloc (fun _ _ _ h ht => (DataTier.alloc_usableSize overflowChecks ht).trans h)
    fun _ _ _ _ h => h

/-- The backstore between two calls. -/
structure Sound (b : Backstore) : Prop extends Room b where
  tracked : b.dataTier.Tracked
  shape : b.cache = none ∨ b.linear = none

/-- What no allocation changes, and how the data tier may change. -/
structure Grows (b b' : Backstore) : Prop where
  data : Extends b.dataTier.segments b'.dataTier.segments
  devices : b'.dataTier.blockMgr.blockDevs.map (·.identity) =
    b.dataTier.blockMgr.blockDevs.map (·.identity)
  cacheTier : b'.cacheTier = b.cacheTier
  device : ∀ d, b.device = some d → b'.device = some d
  cache : b'.cache.isSome = b.cache.isSome

theorem Grows.refl (b : Backstore) : Grows b b :=
  ⟨Extends.refl _, rfl, rfl, fun _ h => h, rfl⟩

theorem Grows.trans {b₁ b₂ b₃ : Backstore} (h : Grows b₁ b₂) (h' : Grows b₂ b₃) : Grows b₁ b₃ :=
  ⟨h.data.trans h'.data, h'.devices.trans h.devices, h'.cacheTier.trans h.cacheTier,
    fun d hd => h'.device d (h.device d hd), h'.cache.trans h.cache⟩

/-- A backstore that has come from another one by parts of allocations. -/
structure GrownFrom (b₀ b : Backstore) : Prop where
  tracked : b.dataTier.Tracked
  shape : b.cache = none ∨ b.linear = none
  grows : Grows b₀ b

theorem grownFrom_loadTable {b₀ : Backstore} (h : GrownFrom b₀ b) {load : Backstore → Backstore}
    (hload : GrownFrom b₀ (load b)) (setTable resume : Bool) :
    GrownFrom b₀ (loadTable setTable resume load b).1 := by
  rcases loadTable_cases setTable resume load b with ⟨heq, -⟩ | ⟨heq, -⟩
  · rwa [heq]
  · rwa [heq]

theorem stable_grownFrom (b₀ : Backstore) : Stable (GrownFrom b₀) := by
  refine ⟨fun n b h => ?_, fun io b h => ?_, fun b n h => ?_⟩
  · rcases h.tracked.alloc n with heq | ⟨t', heq, htr, hids, hext, -⟩
    · rw [allocData, get_bind, heq, lift_ok_bind]
      exact h
    · rw [allocData, get_bind, heq, lift_ok_bind]
      exact ⟨htr, h.shape, h.grows.trans ⟨hext, hids, rfl, fun _ hd => hd, rfl⟩⟩
  · unfold extendCapDevice
    rw [get_bind]
    rcases hc : b.cache with _ | cache <;> rcases hl : b.linear with _ | linear <;> simp only
    · -- no cap device yet
      cases io.create with
      | none => exact h
      | some d =>
        refine ⟨h.tracked, Or.inl hc, h.grows.trans ⟨Extends.refl _, rfl, rfl, ?_, rfl⟩⟩
        simp [device, hc, hl]
    · refine grownFrom_loadTable h ⟨h.tracked, Or.inl hc, h.grows.trans ⟨Extends.refl _, rfl, rfl,
        ?_, rfl⟩⟩ _ _
      simp [device, hc, hl]
    · refine grownFrom_loadTable h ⟨h.tracked, Or.inr hl, h.grows.trans ⟨Extends.refl _, rfl, rfl,
        ?_, by simp [hc]⟩⟩ _ _
      simp [device, hc]
    · exact h
  · exact ⟨h.tracked, h.shape, ⟨h.grows.data, h.grows.devices, h.grows.cacheTier, h.grows.device,
      h.grows.cache⟩⟩

theorem Sound.grownFrom (h : b.Sound) : GrownFrom b b := ⟨h.tracked, h.shape, Grows.refl b⟩

theorem alloc_spec (h : b.Sound) (io : CapIo) (sizes : List ℕ) :
    let r := alloc io sizes b
    r.1.Sound ∧ Grows b r.1 ∧
      ((r.2 = .ok (some (chunksFrom b.next sizes)) ∧ r.1.next = b.next + sizes.sum) ∨
        (∀ cs, r.2 ≠ .ok (some cs)) ∧ r.1.next = b.next) := by
  obtain ⟨hroom, hcases⟩ := alloc_room h.toRoom io sizes
  have hgrown := (stable_grownFrom b).keeps_alloc io sizes b h.grownFrom
  exact ⟨⟨hroom, hgrown.tracked, hgrown.shape⟩, hgrown.grows, hcases⟩

theorem request_spec (h : b.Sound) (overflowChecks : Bool) (io : CapIo) (n modulus : ℕ) :
    let r := request overflowChecks io n modulus b
    r.1.Sound ∧ Grows b r.1 ∧
      (Grants b n modulus r ∨ (∀ region, r.2 ≠ .ok (some region)) ∧ r.1.next = b.next) := by
  obtain ⟨hroom, hcases⟩ := request_room h.toRoom overflowChecks io n modulus
  have hgrown := (stable_grownFrom b).keeps_request overflowChecks io n modulus b h.grownFrom
  exact ⟨⟨hroom, hgrown.tracked, hgrown.shape⟩, hgrown.grows, hcases⟩

end Backstore

end Stratisd.Backstore
