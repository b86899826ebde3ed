import Stratisd.Backstore.Removal
import Stratisd.Liminal.Restart

/-! Calls on a cache tier, from the one that makes it. All space of the devices is always in the two
lists of segments, and devices that would make the cache too large leave nothing behind. -/

namespace Stratisd.Backstore

open Run Run.Stateful Engine Extent Metadata

namespace CacheTier

/-! ### Calls -/

/-- What a call of `add` is given: the pool, the devices that have been prepared for it and how the
wiping of devices goes. -/
structure AddInput where
  poolUuid : PoolUuid
  prepared : StratisResult (List StratBlockDev)
  wipe : StratisResult Unit

def addStep (t : CacheTier) (i : AddInput) :
    CacheTier × StratisResult (List DevUuid × Bool × Bool) :=
  CacheTier.add i.poolUuid i.prepared i.wipe t

/-- New devices have nothing but their BDA in use and have new UUIDs, wiping succeeds, and the call
returns or finds that the cache would be too large. -/
structure Admits (t : CacheTier) (i : AddInput) : Prop where
  fresh : ∀ new, i.prepared = .ok new →
    (∀ b ∈ new, b.Fresh) ∧ ((t.blockMgr.blockDevs ++ new).map (·.uuid)).Nodup
  wipe : i.wipe = .ok ()
  returns : (addStep t i).2.isOk = true ∨ (addStep t i).2 = .err tooLarge

/-- All space is in the segments, and the cache is not too large. -/
structure Sound (t : CacheTier) : Prop extends t.Full where
  bounded : totalLength t.cacheSegments ≤ maxCacheSize

variable {t : CacheTier}

theorem sound_of_new {m : BlockDevMgr} {wipe : StratisResult Unit}
    (hf : ∀ b ∈ m.blockDevs, b.Fresh) (hn : (m.blockDevs.map (·.uuid)).Nodup)
    (h : CacheTier.new m wipe = .ok t) : t.Sound :=
  ⟨(full_of_new hf hn h).1, by rw [new_total h]; exact (new_eq_ok h).2.1⟩

/-- The tier while its new devices have not been put to use. -/
def withNew (t : CacheTier) (new : List StratBlockDev) : CacheTier :=
  { t with blockMgr := { t.blockMgr with blockDevs := t.blockMgr.blockDevs ++ new } }

/-- What adding devices comes to: they can not be had; or they are too much, and are removed again;
or the cache is extended. -/
theorem addStep_cases (t : CacheTier) (i : AddInput) :
    ((addStep t i).1 = t ∧ (addStep t i).2.isOk = false) ∨
    ∃ new : List StratBlockDev, i.prepared = .ok new ∧
      ((maxCacheSize < (t.withNew new).blockMgr.availSpace + totalLength t.cacheSegments ∧
        addStep t i = (do
          onMgr (BlockDevMgr.removeBlockdevs (new.map fun b : StratBlockDev => b.uuid) i.wipe)
          Stateful.lift (.err tooLarge)) (t.withNew new)) ∨
      ((t.withNew new).blockMgr.availSpace + totalLength t.cacheSegments ≤ maxCacheSize ∧
        addStep t i = (do
          let t' ← Stateful.lift (t.withNew new).extendCache
          Stateful.modify fun _ => t'
          pure (new.map fun b : StratBlockDev => b.uuid, true, false)) (t.withNew new))) := by
  unfold addStep CacheTier.add
  rw [bind_apply]
  rcases BlockDevMgr.add_cases i.poolUuid i.prepared t.blockMgr with ⟨hsame, hno⟩ | ⟨new, hnew, heq⟩
  · left
    rcases hadd : BlockDevMgr.add i.poolUuid i.prepared t.blockMgr with ⟨m, uuids | e | _⟩
    · rw [hadd] at hno
      cases hno
    all_goals
      obtain rfl : m = t.blockMgr := by rw [← hsame, hadd]
      simp [onMgr, within, hadd]
  · refine Or.inr ⟨new, hnew, ?_⟩
    have hstart : onMgr (BlockDevMgr.add i.poolUuid i.prepared) t =
        (t.withNew new, .ok (new.map (·.uuid))) := by
      simp only [onMgr, within, heq, withNew]
    rw [hstart]
    simp only [get_bind]
    by_cases hmax : (t.withNew new).blockMgr.availSpace + totalLength t.cacheSegments > maxCacheSize
    · exact Or.inl ⟨hmax, congrFun (if_pos hmax) _⟩
    · exact Or.inr ⟨not_lt.mp hmax, congrFun (if_neg hmax) _⟩

theorem addStep_of_tooLarge {i : AddInput} (h : t.Full) (ha : Admits t i)
    (herr : (addStep t i).2 = .err tooLarge) : (addStep t i).1 = t := by
  rcases addStep_cases t i with ⟨hsame, -⟩ | ⟨new, hnew, ⟨-, heq⟩ | ⟨-, heq⟩⟩
  · exact hsame
  · obtain ⟨-, hnodup⟩ := ha.fresh new hnew
    have hremoved : BlockDevMgr.removeBlockdevs (new.map (·.uuid)) i.wipe
        (t.withNew new).blockMgr = (t.blockMgr, .ok ()) := by
      rw [BlockDevMgr.removeBlockdevs, ha.wipe, bind_apply]
      simp only [withNew]
      rw [BlockDevMgr.removeEach_added h.nonempty hnodup]
      rfl
    have hmgr : onMgr (BlockDevMgr.removeBlockdevs (new.map fun b : StratBlockDev => b.uuid) i.wipe)
        (t.withNew new) = (t, .ok ()) := by
      rw [onMgr, within, hremoved]
      rfl
    rw [heq, bind_of_eq hmgr, lift_apply]
  · rw [heq, bind_apply] at herr
    simp only [lift_apply] at herr
    cases hext : (t.withNew new).extendCache with
    | ok t' =>
      rw [hext] at herr
      cases herr
    | err e => exact absurd hext (extendCache_ne_err _ _)
    | panic =>
      rw [hext] at herr
      cases herr

theorem Sound.addStep {i : AddInput} (h : t.Sound) (ha : Admits t i) : (addStep t i).1.Sound := by
  rcases ha.returns with hok | herr
  · obtain ⟨t', r, heq⟩ := exists_of_isOk hok
    have hfull := (full_of_add h.toFull ha.fresh heq).1
    rw [heq]
    refine ⟨hfull, ?_⟩
    rcases addStep_cases t i with ⟨-, hno⟩ | ⟨new, -, ⟨-, hstep⟩ | ⟨hle, hstep⟩⟩
    · rw [hok] at hno
      cases hno
    · rw [heq] at hstep
      obtain ⟨_, _, -, hbad⟩ := bind_eq_ok.mp hstep.symm
      cases hbad
    · rw [heq] at hstep
      obtain ⟨_, t₁, hlift, hrest⟩ := bind_eq_ok.mp hstep.symm
      obtain ⟨hext, rfl⟩ := lift_eq_ok hlift
      cases hrest
      rw [extendCache_total hext, Nat.add_comm]
      exact hle
  · rw [addStep_of_tooLarge h.toFull ha herr]
    exact h

theorem sound_run (h : t.Sound) {inputs : List AddInput} (ha : AllSteps addStep Admits t inputs) :
    (run addStep t inputs).1.Sound :=
  run_state_invariant addStep (fun _ _ hs hi => hs.addStep hi) h ha

/-! ### What holds of a tier -/

theorem Full.notMem_meta (h : t.Full) {s : BlkDevSegment} (hs : s ∈ t.cacheSegments) :
    s ∉ t.metaSegments := by
  intro hs'
  have happend := List.pairwise_append.mp h.tracks.apart
  have hself : Apart s s := happend.2.2 s hs s hs'
  have hpos := (h.tracks.home s (List.mem_append_left _ hs)).1
  rcases hself with hne | hdisj
  · exact hne rfl
  · have hempty := disjoint_self.mp hdisj
    rw [Finset.bot_eq_empty, Range.cells, Finset.Ico_eq_empty_iff] at hempty
    simp only [BlkDevSegment.range] at hempty
    omega

/-- What is found of a cache tier between calls. -/
structure Invariant (t : CacheTier) : Prop where
  avail : t.blockMgr.availSpace = 0
  account : ∃ size, t.blockMgr.size = .ok size ∧ t.blockMgr.metadataSize ≤ size ∧
    totalLength t.cacheSegments + totalLength t.metaSegments = size - t.blockMgr.metadataSize
  bounded : totalLength t.cacheSegments ≤ maxCacheSize
  apart : ∀ s ∈ t.cacheSegments, s ∉ t.metaSegments
  /-- The devices are made again from the record, with the same space in use. -/
  rebuilt : ∀ b ∈ t.blockMgr.blockDevs, StratBlockDev.new b.dev b.bda
    (onDevice b.uuid (t.cacheSegments ++ t.metaSegments)) b.userInfo b.hardwareInfo = .ok b
  accepted : ∀ time, CacheTier.setup ⟨t.blockMgr.blockDevs, time⟩ t.record =
    .ok ⟨⟨t.blockMgr.blockDevs, time⟩, t.cacheSegments, t.metaSegments⟩

theorem Sound.invariant (h : t.Sound) : t.Invariant where
  avail := h.avail
  account := by
    refine ⟨_, h.tracks.account, Nat.le_add_left _ _, ?_⟩
    rw [h.avail, Nat.zero_add, Nat.add_sub_cancel, totalLength_append]
  bounded := h.bounded
  apart _ hs := h.toFull.notMem_meta hs
  rebuilt b hb := (h.tracks.holds b hb).rebuild fun r hr => by
    obtain ⟨s, hs, -, rfl⟩ := mem_onDevice.mp hr
    exact (h.tracks.home s hs).1
  accepted := Liminal.cacheTier_setup_record h.toFull

/-- After every call all space is in one of the two lists, the cache is not too large and its record
is accepted; and a call that finds that it would be too large leaves devices and segments as they
were. -/
theorem run_invariant_of_new {m : BlockDevMgr} {wipe : StratisResult Unit} {t₀ : CacheTier}
    (hf : ∀ b ∈ m.blockDevs, b.Fresh) (hn : (m.blockDevs.map (·.uuid)).Nodup)
    (hnew : CacheTier.new m wipe = .ok t₀) (inputs : List AddInput)
    (ha : AllSteps addStep Admits t₀ inputs) :
    (run addStep t₀ inputs).1.Invariant ∧
      ∀ i, Admits (run addStep t₀ inputs).1 i →
        (addStep (run addStep t₀ inputs).1 i).2 = .err tooLarge →
        (addStep (run addStep t₀ inputs).1 i).1 = (run addStep t₀ inputs).1 := by
  have hsound := sound_run (sound_of_new hf hn hnew) ha
  exact ⟨hsound.invariant, fun i hi herr => addStep_of_tooLarge hsound.toFull hi herr⟩

/-- A cache on one device, to which one is added that fits and one that does not. -/
theorem run_invariant_of_new_one_device : ∃ (m : BlockDevMgr) (t₀ : CacheTier) (i j : AddInput),
    CacheTier.new m (.ok ()) = .ok t₀ ∧ AllSteps addStep Admits t₀ [i] ∧
      (run addStep t₀ [i]).1.Invariant ∧ (addStep (run addStep t₀ [i]).1 j).2 = .err tooLarge ∧
      (addStep (run addStep t₀ [i]).1 j).1 = (run addStep t₀ [i]).1 := by
  let bda := BDA.new ⟨⟨0⟩, ⟨1⟩⟩ MDADataSize.default (2 ^ 21) 0
  let bda' := BDA.new ⟨⟨0⟩, ⟨2⟩⟩ MDADataSize.default (2 ^ 21) 0
  let large := BDA.new ⟨⟨0⟩, ⟨3⟩⟩ MDADataSize.default (2 ^ 40) 0
  let adding := fun b : StratBlockDev => (⟨⟨0⟩, .ok [b], .ok ()⟩ : AddInput)
  obtain ⟨b, hb, b', hb', c, hc, t₀, ht₀, hi, hj, hu, hu'⟩ :
      ∃ b, StratBlockDev.new ⟨8, 16⟩ bda [] none none = .ok b ∧
      ∃ b', StratBlockDev.new ⟨8, 32⟩ bda' [] none none = .ok b' ∧
      ∃ c, StratBlockDev.new ⟨8, 48⟩ large [] none none = .ok c ∧
      ∃ t₀, CacheTier.new ⟨[b], none⟩ (.ok ()) = .ok t₀ ∧ (addStep t₀ (adding b')).2.isOk = true ∧
      (addStep (addStep t₀ (adding b')).1 (adding c)).2 = .err tooLarge ∧
      (t₀.blockMgr.blockDevs ++ [b']).map (·.uuid) = [⟨1⟩, ⟨2⟩] ∧
      ((addStep t₀ (adding b')).1.blockMgr.blockDevs ++ [c]).map (·.uuid) =
        [⟨1⟩, ⟨2⟩, ⟨3⟩] := by
    decide +kernel
  have hfresh : b.Fresh := ⟨⟨8, 16⟩, bda, none, none, by decide +kernel, by decide +kernel, hb⟩
  have hfresh' : b'.Fresh := ⟨⟨8, 32⟩, bda', none, none, by decide +kernel, by decide +kernel, hb'⟩
  have hlarge : c.Fresh := ⟨⟨8, 48⟩, large, none, none, by decide +kernel, by decide +kernel, hc⟩
  have hfirst : Admits t₀ (adding b') := by
    refine ⟨fun new hnew => ?_, rfl, Or.inl hi⟩
    cases hnew
    exact ⟨by simpa using hfresh', by rw [hu]; decide⟩
  have hsecond : Admits (addStep t₀ (adding b')).1 (adding c) := by
    refine ⟨fun new hnew => ?_, rfl, Or.inr hj⟩
    cases hnew
    exact ⟨by simpa using hlarge, by rw [hu']; decide⟩
  have hrun := run_invariant_of_new (by simpa using hfresh) (by simp) ht₀ [adding b']
    ⟨hfirst, trivial⟩
  exact ⟨_, t₀, adding b', adding c, ht₀, ⟨hfirst, trivial⟩, hrun.1, hj, hrun.2 _ hsecond hj⟩

end CacheTier

end Stratisd.Backstore
