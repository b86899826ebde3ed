import Stratisd.Backstore.TierSpec

/-! What removing devices from a manager does. The search goes from the rear to the second device, so
the first device is never found; and what has been taken out before a device is not found stays
out. -/

namespace Stratisd.Backstore

open Run Run.Stateful Engine Metadata List

namespace BlockDevMgr

/-- `removeEach` with the devices that it takes out. -/
def takeEach : List DevUuid → Stateful BlockDevMgr StratisError (List StratBlockDev)
  | [] => pure []
  | uuid :: uuids => do
    let m ← Stateful.get
    if m.blockDevs = [] then Stateful.lift .panic
    else
      match findFromRear uuid m.blockDevs with
      | some index => do
        Stateful.modify fun m => { m with blockDevs := swapRemove m.blockDevs index }
        let removed ← takeEach uuids
        pure (m.blockDevs[index]?.toList ++ removed)
      | none => Stateful.lift (.err (.msg
          s!"Blockdev corresponding to UUID: {displayUuid uuid.val} not found."))

/-- `removeBlockdevs` with the world in which the devices are wiped. -/
def removeAndWipe {W : Type} (wipe : List StratBlockDev → Stateful W StratisError Unit)
    (uuids : List DevUuid) : Stateful (BlockDevMgr × W) StratisError Unit := do
  let removed ← Stateful.within Prod.fst (fun m s => (m, s.2)) (takeEach uuids)
  Stateful.within Prod.snd (fun w s => (s.1, w)) (wipe removed)

variable {m : BlockDevMgr} {bd : StratBlockDev} {bds : List StratBlockDev} {uuid : DevUuid}
  {uuids : List DevUuid}

theorem takeEach_of_find {index : ℕ} (hm : m.blockDevs ≠ [])
    (hfind : findFromRear uuid m.blockDevs = some index) (uuids : List DevUuid) :
    takeEach (uuid :: uuids) m =
      (do
        let removed ← takeEach uuids
        pure (m.blockDevs[index]?.toList ++ removed) : Stateful BlockDevMgr StratisError _)
        { m with blockDevs := swapRemove m.blockDevs index } := by
  rw [takeEach, get_bind, if_neg hm, hfind]
  rfl

theorem ignore_takeEach (uuids : List DevUuid) (m : BlockDevMgr) :
    ignore (takeEach uuids) m = removeEach uuids m := by
  induction uuids generalizing m with
  | nil => rfl
  | cons uuid uuids ih =>
    by_cases hm : m.blockDevs = []
    · simp [takeEach, removeEach, ignore, hm, bind_apply]
    · cases hfind : findFromRear uuid m.blockDevs with
      | none => simp [takeEach, removeEach, ignore, hm, hfind, bind_apply]
      | some index =>
        rw [removeEach, get_bind, if_neg hm, hfind]
        refine Eq.trans ?_ (ih { m with blockDevs := swapRemove m.blockDevs index })
        rw [ignore, bind_apply, takeEach_of_find hm hfind, ignore,
          bind_apply, bind_apply]
        rcases takeEach uuids _ with ⟨m', _ | _ | _⟩ <;> rfl

/-! ### Taking devices out -/

theorem findFromRear_eq_none (h : uuid ∉ bds.map (·.uuid)) :
    findFromRear uuid (bd :: bds) = none := by
  rw [findFromRear, List.find?_eq_none]
  intro index hindex hmatch
  obtain ⟨i, hi, rfl⟩ := mem_map.mp hindex
  have hpos : (bd :: bds).length - 1 - i = bds.length - i - 1 + 1 := by
    have := mem_range.mp hi
    simp only [length_cons] at this ⊢
    omega
  rw [hpos, List.getElem?_cons_succ, Option.any_eq_true] at hmatch
  obtain ⟨d, hd, huuid⟩ := hmatch
  exact h (mem_map.mpr ⟨d, mem_of_getElem? hd, by simpa using huuid⟩)

theorem takeEach_of_mem (hm : m.blockDevs = bd :: bds) (hmem : uuid ∈ bds.map (·.uuid))
    (uuids : List DevUuid) :
    ∃ d rest, (d :: rest).Perm bds ∧ d.uuid = uuid ∧ takeEach (uuid :: uuids) m =
      (do
        let removed ← takeEach uuids
        pure (d :: removed) : Stateful BlockDevMgr StratisError _)
        { m with blockDevs := bd :: rest } := by
  obtain ⟨index, hi, hfind, hmatch⟩ := findFromRear_of_mem bd hmem
  have hne : bds ≠ [] := ne_nil_of_length_pos (Nat.zero_lt_of_lt hi)
  refine ⟨bds.get ⟨index, hi⟩, swapRemove bds index, ?_, hmatch, ?_⟩
  · exact ((swapRemove_perm hi).cons _).trans (getElem_cons_eraseIdx_perm hi)
  · rw [← hm] at hfind
    rw [takeEach_of_find (by simp [hm]) hfind, hm, swapRemove_cons bd hne, List.getElem?_cons_succ,
      List.getElem?_eq_getElem hi]
    rfl

theorem takeEach_of_notMem (hm : m.blockDevs = bd :: bds) (hnot : uuid ∉ bds.map (·.uuid))
    (uuids : List DevUuid) : ∃ e, takeEach (uuid :: uuids) m = (m, .err e) := by
  rw [takeEach, get_bind, if_neg (by simp [hm]), hm, findFromRear_eq_none hnot]
  exact ⟨_, rfl⟩

theorem takeEach_cases (uuids : List DevUuid) (hm : m.blockDevs = bd :: bds) :
    (∃ removed rest, takeEach uuids m = ({ m with blockDevs := bd :: rest }, .ok removed) ∧
      (removed ++ rest).Perm bds ∧ removed.map (·.uuid) = uuids) ∨
    ∃ before uuid after removed rest e, uuids = before ++ uuid :: after ∧
      takeEach uuids m = ({ m with blockDevs := bd :: rest }, .err e) ∧
      (removed ++ rest).Perm bds ∧ removed.map (·.uuid) = before ∧ uuid ∉ rest.map (·.uuid) := by
  induction uuids generalizing m bds with
  | nil => exact Or.inl ⟨[], bds, by rw [← hm]; rfl, List.Perm.refl _, rfl⟩
  | cons uuid uuids ih =>
    by_cases hmem : uuid ∈ bds.map (·.uuid)
    · obtain ⟨d, rest₁, hperm₁, hd, heq⟩ := takeEach_of_mem hm hmem uuids
      rw [heq, bind_apply]
      rcases ih (m := { m with blockDevs := bd :: rest₁ }) rfl with
        ⟨removed, rest, htake, hperm, huuids⟩ |
        ⟨before, missing, after, removed, rest, e, hsplit, htake, hperm, huuids, hnot⟩
      · refine Or.inl ⟨d :: removed, rest, by rw [htake]; rfl, (hperm.cons d).trans hperm₁, ?_⟩
        rw [map_cons, hd, huuids]
      · refine Or.inr ⟨uuid :: before, missing, after, d :: removed, rest, e, by rw [hsplit]; rfl,
          by rw [htake], (hperm.cons d).trans hperm₁, ?_, hnot⟩
        rw [map_cons, hd, huuids]
    · obtain ⟨e, heq⟩ := takeEach_of_notMem hm hmem uuids
      exact Or.inr ⟨[], uuid, uuids, [], bds, e, rfl, by rw [heq, ← hm], List.Perm.refl _, rfl, hmem⟩

/-- A UUID that is not behind the first device when the search for it starts was not there from the
beginning. -/
theorem notMem_of_missing {before after : List DevUuid} {removed rest : List StratBlockDev}
    (hn : (before ++ uuid :: after).Nodup) (hperm : (removed ++ rest).Perm bds)
    (huuids : removed.map (·.uuid) = before) (hnot : uuid ∉ rest.map (·.uuid)) :
    uuid ∉ bds.map (·.uuid) := by
  rw [← (hperm.map (·.uuid)).mem_iff, map_append, mem_append, huuids, not_or]
  refine ⟨fun hmem => ?_, hnot⟩
  exact (nodup_append.mp hn).2.2 _ hmem _ mem_cons_self rfl

theorem removeEach_ok (hn : uuids.Nodup) (hm : m.blockDevs = bd :: bds)
    (h : uuids ⊆ bds.map (·.uuid)) : (removeEach uuids m).2 = .ok () := by
  rw [← ignore_takeEach, ignore]
  rcases takeEach_cases uuids hm with
    ⟨removed, rest, htake, -⟩ |
    ⟨before, missing, after, removed, rest, e, rfl, -, hperm, huuids, hnot⟩
  · rw [bind_of_eq htake]
    rfl
  · have hmem : missing ∈ bds.map (·.uuid) := h (by simp)
    exact absurd hmem (notMem_of_missing hn hperm huuids hnot)

/-! ### What is documented -/

section documented

variable {W : Type} (wipe : List StratBlockDev → Stateful W StratisError Unit)

/-- If all devices are there, they are removed and wiped, and the result is that of the wiping. If
one is not, there is an error and nothing has changed. -/
structure Documented (m : BlockDevMgr) (w : W) (uuids : List DevUuid) : Prop where
  removes : (∀ u ∈ uuids, u ∈ m.blockDevs.map (·.uuid)) →
    ∃ removed, removed.Perm (m.blockDevs.filter (·.uuid ∈ uuids)) ∧
      (removeAndWipe wipe uuids (m, w)).1.1.blockDevs.Perm
        (m.blockDevs.filter (·.uuid ∉ uuids)) ∧
      ((removeAndWipe wipe uuids (m, w)).1.2, (removeAndWipe wipe uuids (m, w)).2) =
        wipe removed w
  refuses : (∃ u ∈ uuids, u ∉ m.blockDevs.map (·.uuid)) →
    (∃ e, (removeAndWipe wipe uuids (m, w)).2 = .err e) ∧
      (removeAndWipe wipe uuids (m, w)).1 = (m, w)
  returns : (removeAndWipe wipe uuids (m, w)).2 ≠ .panic

/-- Nothing is asked for; or every device asked for is there once and is not the first; or one is not
there and the first one asked for is not behind the first device. -/
def Removable (m : BlockDevMgr) (uuids : List DevUuid) : Prop :=
  uuids = [] ∨ ∃ bd bds, m.blockDevs = bd :: bds ∧
    (((∀ u ∈ uuids, (m.blockDevs.map (·.uuid)).count u = 1) ∧ bd.uuid ∉ uuids) ∨
      ((∃ u ∈ uuids, u ∉ m.blockDevs.map (·.uuid)) ∧
        ∀ u ∈ uuids.head?, u ∉ bds.map (·.uuid)))

variable {wipe} {w : W} {m' : BlockDevMgr} {removed : List StratBlockDev}

theorem removeAndWipe_of_ok (h : takeEach uuids m = (m', .ok removed)) :
    removeAndWipe wipe uuids (m, w) = ((m', (wipe removed w).1), (wipe removed w).2) := by
  rw [removeAndWipe, bind_apply]
  simp only [within, h]

theorem removeAndWipe_of_err {e : StratisError} (h : takeEach uuids m = (m', .err e)) :
    removeAndWipe wipe uuids (m, w) = ((m', w), .err e) := by
  rw [removeAndWipe, bind_apply]
  simp only [within, h]

theorem removeAndWipe_of_empty (hm : m.blockDevs = []) (hne : uuids ≠ []) :
    (removeAndWipe wipe uuids (m, w)).2 = .panic := by
  obtain ⟨uuid, uuids, rfl⟩ := exists_cons_of_ne_nil hne
  rw [removeAndWipe, bind_apply]
  simp only [within, takeEach, get_bind, hm, if_true, lift_apply]

theorem perm_filter_of_removed {rest : List StratBlockDev} (hperm : (removed ++ rest).Perm bds)
    (huuids : removed.map (·.uuid) = uuids) (hother : ∀ d ∈ bd :: rest, d.uuid ∉ uuids) :
    removed.Perm ((bd :: bds).filter (·.uuid ∈ uuids)) ∧
      (bd :: rest).Perm ((bd :: bds).filter (·.uuid ∉ uuids)) := by
  have hall : (removed ++ (bd :: rest)).Perm (bd :: bds) :=
    perm_middle.trans (hperm.cons bd)
  have hin : ∀ d ∈ removed, d.uuid ∈ uuids := fun d hd => huuids ▸ mem_map_of_mem hd
  constructor
  · refine List.Perm.trans ?_ (hall.filter _)
    rw [filter_append, filter_eq_self.mpr (by simpa using hin),
      filter_eq_nil_iff.mpr (by simpa using hother), append_nil]
  · refine List.Perm.trans ?_ (hall.filter _)
    rw [filter_append, filter_eq_nil_iff.mpr (by simpa using hin),
      filter_eq_self.mpr (by simpa using hother), nil_append]

theorem count_of_removed {rest : List StratBlockDev} (hn : uuids.Nodup)
    (hperm : (removed ++ rest).Perm bds) (huuids : removed.map (·.uuid) = uuids)
    (hother : ∀ d ∈ bd :: rest, d.uuid ∉ uuids) (hu : uuid ∈ uuids) :
    ((bd :: bds).map (·.uuid)).count uuid = 1 := by
  have hall : (removed ++ (bd :: rest)).Perm (bd :: bds) :=
    perm_middle.trans (hperm.cons bd)
  have hnone : uuid ∉ (bd :: rest).map (·.uuid) := by
    intro hmem
    obtain ⟨d, hd, rfl⟩ := mem_map.mp hmem
    exact hother d hd hu
  rw [← (hall.map _).count_eq, map_append, count_append, huuids,
    count_eq_one_of_mem hn hu, count_eq_zero_of_not_mem hnone]

theorem Documented.once (h : Documented wipe m w uuids) (hn : uuids.Nodup)
    (hm : m.blockDevs = bd :: bds) (hall : ∀ u ∈ uuids, u ∈ m.blockDevs.map (·.uuid)) :
    (∀ u ∈ uuids, (m.blockDevs.map (·.uuid)).count u = 1) ∧ bd.uuid ∉ uuids := by
  obtain ⟨removed', -, hrest, -⟩ := h.removes hall
  rcases takeEach_cases uuids hm with ⟨removed, rest, htake, hperm, huuids⟩ |
    ⟨before, missing, after, removed, rest, e, rfl, htake, hperm, huuids, hnot⟩
  · rw [removeAndWipe_of_ok htake] at hrest
    have hother : ∀ d ∈ bd :: rest, d.uuid ∉ uuids := by
      intro d hd
      have hmem := hrest.mem_iff.mp hd
      simpa using (mem_filter.mp hmem).2
    rw [hm]
    exact ⟨fun u hu => count_of_removed hn hperm huuids hother hu, hother bd mem_cons_self⟩
  · have hfirst : missing = bd.uuid := by
      have hin := hall missing (by simp)
      rw [hm, map_cons, mem_cons] at hin
      exact hin.resolve_right (notMem_of_missing hn hperm huuids hnot)
    rw [removeAndWipe_of_err htake] at hrest
    have hmem := hrest.mem_iff.mp (mem_cons_self (a := bd))
    rw [mem_filter, ← hfirst] at hmem
    simp at hmem

theorem Documented.head_missing (h : Documented wipe m w uuids) (hm : m.blockDevs = bd :: bds)
    {u : DevUuid} (hu : u ∈ uuids) (hnotin : u ∉ m.blockDevs.map (·.uuid)) :
    ∀ first ∈ uuids.head?, first ∉ bds.map (·.uuid) := by
  intro first hfirst hmem
  obtain ⟨-, hsame⟩ := h.refuses ⟨u, hu, hnotin⟩
  rcases takeEach_cases uuids hm with ⟨removed, rest, htake, hperm, huuids⟩ |
    ⟨before, missing, after, removed, rest, e, rfl, htake, hperm, huuids, hnot⟩
  · refine hnotin ?_
    rw [hm, map_cons, mem_cons, ← (hperm.map _).mem_iff, map_append,
      mem_append, huuids]
    exact Or.inr (Or.inl hu)
  · rw [removeAndWipe_of_err htake] at hsame
    have hrest : rest = bds := by
      have hdevs := congrArg (fun s => s.1.blockDevs) hsame
      simpa [hm] using hdevs
    have hremoved : removed = [] := by
      have hlen := hperm.length_eq
      rw [length_append, hrest] at hlen
      exact eq_nil_of_length_eq_zero (by omega)
    subst hremoved huuids
    cases hfirst
    exact hnot (hrest ▸ hmem)

theorem removable_of_documented (hn : uuids.Nodup) (h : Documented wipe m w uuids) :
    Removable m uuids := by
  by_cases hne : uuids = []
  · exact Or.inl hne
  cases hm : m.blockDevs with
  | nil => exact absurd (removeAndWipe_of_empty hm hne) h.returns
  | cons bd bds =>
    refine Or.inr ⟨bd, bds, hm, ?_⟩
    by_cases hall : ∀ u ∈ uuids, u ∈ m.blockDevs.map (·.uuid)
    · exact Or.inl (h.once hn hm hall)
    · simp only [not_forall] at hall
      obtain ⟨u, hu, hnotin⟩ := hall
      exact Or.inr ⟨⟨u, hu, hnotin⟩, h.head_missing hm hu hnotin⟩

theorem documented_of_ok (hwipe : ∀ ds w, (wipe ds w).2 ≠ .panic)
    (hall : ∀ u ∈ uuids, u ∈ m.blockDevs.map (·.uuid))
    (htake : takeEach uuids m = (m', .ok removed))
    (hremoved : removed.Perm (m.blockDevs.filter (·.uuid ∈ uuids)))
    (hrest : m'.blockDevs.Perm (m.blockDevs.filter (·.uuid ∉ uuids))) :
    Documented wipe m w uuids := by
  have hrun : removeAndWipe wipe uuids (m, w) = ((m', (wipe removed w).1), (wipe removed w).2) :=
    removeAndWipe_of_ok htake
  refine ⟨fun _ => ⟨removed, hremoved, ?_, ?_⟩,
    fun ⟨u, hu, hnotin⟩ => absurd (hall u hu) hnotin, ?_⟩
  · rw [hrun]
    exact hrest
  · rw [hrun]
  · rw [hrun]
    exact hwipe _ _

theorem documented_of_err {e : StratisError} {u : DevUuid} (hu : u ∈ uuids)
    (hnotin : u ∉ m.blockDevs.map (·.uuid)) (htake : takeEach uuids m = (m, .err e)) :
    Documented wipe m w uuids := by
  have hrun : removeAndWipe wipe uuids (m, w) = ((m, w), .err e) := removeAndWipe_of_err htake
  refine ⟨fun hall => absurd (hall u hu) hnotin, fun _ => ⟨⟨e, by rw [hrun]⟩, by rw [hrun]⟩, ?_⟩
  rw [hrun]
  exact nofun

theorem notMem_of_once {rest : List StratBlockDev} (hn : uuids.Nodup)
    (hone : ∀ u ∈ uuids, ((bd :: bds).map (·.uuid)).count u = 1) (hfirst : bd.uuid ∉ uuids)
    (hperm : (removed ++ rest).Perm bds) (huuids : removed.map (·.uuid) = uuids) :
    ∀ d ∈ bd :: rest, d.uuid ∉ uuids := by
  intro d hd hmem
  obtain rfl | hd := mem_cons.mp hd
  · exact hfirst hmem
  · have hcount := hone _ hmem
    have hne : bd.uuid ≠ d.uuid := fun heq => hfirst (heq ▸ hmem)
    rw [map_cons, count_cons_of_ne hne, ← (hperm.map (·.uuid)).count_eq,
      map_append, huuids, count_append, count_eq_one_of_mem hn hmem] at hcount
    have hpos := count_pos_iff.mpr (mem_map_of_mem (f := (·.uuid)) hd)
    omega

theorem documented_of_removable (hn : uuids.Nodup) (hwipe : ∀ ds w, (wipe ds w).2 ≠ .panic)
    (h : Removable m uuids) : Documented wipe m w uuids := by
  obtain rfl | ⟨bd, bds, hm, ⟨hone, hfirst⟩ | ⟨⟨u, hu, hnotin⟩, hhead⟩⟩ := h
  · exact documented_of_ok hwipe (by simp) rfl (by simp) (by simp)
  · have hin : ∀ u ∈ uuids, u ∈ m.blockDevs.map (·.uuid) := fun u hu =>
      count_pos_iff.mp (by rw [hone u hu]; exact Nat.one_pos)
    rcases takeEach_cases uuids hm with ⟨removed, rest, htake, hperm, huuids⟩ |
      ⟨before, missing, after, removed, rest, e, rfl, htake, hperm, huuids, hnot⟩
    · have hother := notMem_of_once hn (hm ▸ hone) hfirst hperm huuids
      obtain ⟨hremoved, hrest⟩ := perm_filter_of_removed hperm huuids hother
      rw [← hm] at hremoved hrest
      exact documented_of_ok hwipe hin htake hremoved hrest
    · exfalso
      have hmem := hin missing (by simp)
      rw [hm, map_cons, mem_cons] at hmem
      rcases hmem with heq | hmem
      · exact hfirst (by simp [← heq])
      · exact notMem_of_missing hn hperm huuids hnot hmem
  · obtain ⟨first, uuids, rfl⟩ := exists_cons_of_ne_nil (ne_nil_of_mem hu)
    obtain ⟨e, htake⟩ := takeEach_of_notMem hm (hhead first rfl) uuids
    exact documented_of_err hu hnotin htake

/-- Removing devices does what it documents exactly when nothing is asked for, or all devices asked
for are there and none is the first, or one is not there and the first one asked for is not found. -/
theorem removeAndWipe_documented_iff (hn : uuids.Nodup)
    (hwipe : ∀ ds w, (wipe ds w).2 ≠ .panic) :
    Documented wipe m w uuids ↔ Removable m uuids :=
  ⟨removable_of_documented hn, documented_of_removable hn hwipe⟩

end documented

/-! ### Devices at the end -/

section atEnd

variable {old new : List StratBlockDev}

theorem swapRemove_append (hne : new ≠ []) (index : ℕ) :
    swapRemove (old ++ new) (old.length + index) = old ++ swapRemove new index := by
  induction old with
  | nil => simp
  | cons bd old ih =>
    rw [cons_append, length_cons, Nat.add_right_comm, swapRemove_cons bd (by simp [hne]),
      ih, cons_append]

theorem findFromRear_append (hold : old ≠ []) (hmem : uuid ∈ new.map (·.uuid))
    (hnot : uuid ∉ old.map (·.uuid)) :
    ∃ (index : ℕ) (hi : index < new.length),
      findFromRear uuid (old ++ new) = some (old.length + index) ∧
        (new.get ⟨index, hi⟩).uuid = uuid := by
  obtain ⟨bd, old, rfl⟩ := exists_cons_of_ne_nil hold
  have hin : uuid ∈ (old ++ new).map (·.uuid) := by simp [-mem_map, hmem]
  obtain ⟨i, hi, hfind, hmatch⟩ := findFromRear_of_mem bd hin
  have hle : old.length ≤ i := by
    by_contra hlt
    have hget : (old ++ new).get ⟨i, hi⟩ = old.get ⟨i, not_le.mp hlt⟩ :=
      getElem_append_left (not_le.mp hlt)
    rw [hget] at hmatch
    exact hnot (mem_map.mpr ⟨_, mem_cons_of_mem _ (get_mem _ _), hmatch⟩)
  have hlen : i - old.length < new.length := by
    rw [length_append] at hi
    omega
  refine ⟨i - old.length, hlen, ?_, ?_⟩
  · rw [cons_append, hfind, length_cons]
    congr 1
    omega
  · have hget : (old ++ new).get ⟨i, hi⟩ = new.get ⟨i - old.length, hlen⟩ :=
      getElem_append_right hle
    rw [← hget, hmatch]

theorem removeEach_append (hold : old ≠ []) (hn : uuids.Nodup) (hsub : uuids ⊆ new.map (·.uuid))
    (hnot : ∀ u ∈ uuids, u ∉ old.map (·.uuid)) (time : Option DateTime) :
    ∃ rest, removeEach uuids ⟨old ++ new, time⟩ = (⟨old ++ rest, time⟩, .ok ()) ∧
      rest.length + uuids.length = new.length := by
  induction uuids generalizing new with
  | nil => exact ⟨new, rfl, rfl⟩
  | cons uuid uuids ih =>
    obtain ⟨hout, hn⟩ := nodup_cons.mp hn
    obtain ⟨hmem, hsub⟩ := cons_subset.mp hsub
    obtain ⟨index, hi, hfind, hmatch⟩ :=
      findFromRear_append hold hmem (hnot uuid mem_cons_self)
    have hne : new ≠ [] := ne_nil_of_length_pos (Nat.zero_lt_of_lt hi)
    have hperm : ((new.get ⟨index, hi⟩) :: swapRemove new index).Perm new :=
      ((swapRemove_perm hi).cons _).trans (getElem_cons_eraseIdx_perm hi)
    have hrest : uuids ⊆ (swapRemove new index).map (·.uuid) := by
      intro u hu
      have hall := (hperm.map (·.uuid)).mem_iff.mpr (hsub hu)
      rw [map_cons, hmatch, mem_cons] at hall
      exact hall.resolve_left fun heq => hout (heq ▸ hu)
    obtain ⟨rest, heq, hlen⟩ := ih hn hrest fun u hu => hnot u (mem_cons_of_mem _ hu)
    refine ⟨rest, ?_, ?_⟩
    · rw [removeEach, get_bind, if_neg (by simp [hold]), hfind]
      simp only
      rw [modify_bind, swapRemove_append hne, heq]
    · have hperm := hperm.length_eq
      rw [length_cons] at hperm ⊢
      omega

theorem removeEach_added (hold : old ≠ []) (hn : ((old ++ new).map (·.uuid)).Nodup)
    (time : Option DateTime) :
    removeEach (new.map (·.uuid)) ⟨old ++ new, time⟩ = (⟨old, time⟩, .ok ()) := by
  rw [map_append, nodup_append] at hn
  obtain ⟨-, hnew, hdisj⟩ := hn
  obtain ⟨rest, heq, hlen⟩ := removeEach_append hold hnew (List.Subset.refl _)
    (fun u hu hmem => hdisj u hmem u hu rfl) time
  rw [length_map] at hlen
  rw [heq, eq_nil_of_length_eq_zero (show rest.length = 0 by omega), append_nil]

end atEnd

/-! ### Two devices -/

/-- Wiping that succeeds and is noted. -/
def noteWiped (ds : List StratBlockDev) : Stateful (List DevUuid) StratisError Unit :=
  Stateful.modify (· ++ ds.map (·.uuid))

theorem exists_two_devices : ∃ b₁ b₂ : StratBlockDev, b₁.uuid = ⟨1⟩ ∧ b₂.uuid = ⟨2⟩ := by
  obtain ⟨b₁, -, h₁⟩ := StratBlockDev.exists_fresh
    (BDA.new ⟨⟨0⟩, ⟨1⟩⟩ MDADataSize.default 1073741824 0) ⟨8, 16⟩ (by decide) (by decide)
  obtain ⟨b₂, -, h₂⟩ := StratBlockDev.exists_fresh
    (BDA.new ⟨⟨0⟩, ⟨2⟩⟩ MDADataSize.default 1073741824 0) ⟨8, 32⟩ (by decide) (by decide)
  exact ⟨b₁, b₂, congrArg (fun i => i.2.1.devUuid) h₁, congrArg (fun i => i.2.1.devUuid) h₂⟩

theorem removeAndWipe_documented_second : ∃ m : BlockDevMgr,
    m.blockDevs.map (·.uuid) = [⟨1⟩, ⟨2⟩] ∧ Documented noteWiped m [] [⟨2⟩] := by
  obtain ⟨b₁, b₂, h₁, h₂⟩ := exists_two_devices
  refine ⟨⟨[b₁, b₂], none⟩, by simp [h₁, h₂], ?_⟩
  refine (removeAndWipe_documented_iff (by simp) (by simp [noteWiped])).2 ?_
  exact Or.inr ⟨b₁, [b₂], rfl, Or.inl ⟨by simp [h₁, h₂], by simp [h₁]⟩⟩

/-- The first device is not found, a device found before another is not there is gone without being
wiped, and a manager without devices stops the search. -/
theorem removeAndWipe_not_as_documented : ∃ b₁ b₂ : StratBlockDev,
    b₁.uuid = ⟨1⟩ ∧ b₂.uuid = ⟨2⟩ ∧
    (∃ e, removeAndWipe noteWiped [⟨1⟩] (⟨[b₁, b₂], none⟩, []) =
      ((⟨[b₁, b₂], none⟩, []), .err e)) ∧
    (∃ e, removeAndWipe noteWiped [⟨2⟩, ⟨3⟩] (⟨[b₁, b₂], none⟩, []) =
      ((⟨[b₁], none⟩, []), .err e)) ∧
    (removeAndWipe noteWiped [⟨1⟩] (⟨[], none⟩, [])).2 = .panic := by
  obtain ⟨b₁, b₂, h₁, h₂⟩ := exists_two_devices
  have hfirst : ∃ e, takeEach [⟨1⟩] ⟨[b₁, b₂], none⟩ = (⟨[b₁, b₂], none⟩, .err e) :=
    takeEach_of_notMem rfl (by simp [h₂]) []
  have hpartial : ∃ e, takeEach [⟨2⟩, ⟨3⟩] ⟨[b₁, b₂], none⟩ = (⟨[b₁], none⟩, .err e) := by
    have hm : (⟨[b₁, b₂], none⟩ : BlockDevMgr).blockDevs = b₁ :: [b₂] := rfl
    have hsecond : (⟨2⟩ : DevUuid) ∈ [b₂].map (·.uuid) := by simp [h₂]
    obtain ⟨d, rest, hperm, -, heq⟩ := takeEach_of_mem hm hsecond [⟨3⟩]
    obtain rfl : rest = [] := by
      have hlen := hperm.length_eq
      simpa using hlen
    have hmissing : ∃ e, takeEach [⟨3⟩] ⟨[b₁], none⟩ = (⟨[b₁], none⟩, .err e) :=
      takeEach_of_notMem rfl (by simp) []
    obtain ⟨e, hmissing⟩ := hmissing
    rw [heq, Stateful.bind_apply, hmissing]
    exact ⟨e, rfl⟩
  obtain ⟨e₁, hfirst⟩ := hfirst
  obtain ⟨e₂, hpartial⟩ := hpartial
  exact ⟨b₁, b₂, h₁, h₂, ⟨e₁, removeAndWipe_of_err hfirst⟩, ⟨e₂, removeAndWipe_of_err hpartial⟩,
    removeAndWipe_of_empty rfl (by simp)⟩

end BlockDevMgr

end Stratisd.Backstore
