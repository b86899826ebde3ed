import Stratisd.Pool.PhysicalUsage

/-! The layout of the thin pool that is on the devices. It is written when a request has changed
it, and a check says whether it has. -/

namespace Stratisd.Pool.StratPool

open Run Run.Stateful Engine Metadata Backstore Thinpool

variable {overflowChecks : Bool} {p p' : StratPool}

/-- The layout on the devices is the one that the thin pool has. -/
def Live (p : StratPool) : Prop := p.saved.map (·.flexDevs) = some p.thinPool.record

theorem live_writeMetadata {save : StratisResult Unit} {name : String}
    (h : writeMetadata save name p = (p', .ok ())) : Live p' := by
  rw [writeMetadata_eq_ok h]
  rfl

/-- A request that ends with a write. -/
theorem live_written {α β : Type} {q : M α} {save : StratisResult Unit} {name : String} {b : α → β}
    {r : β} (h : (do let a ← q; writeMetadata save name; pure (b a)) p = (p', .ok r)) : Live p' := by
  obtain ⟨_, _, -, h⟩ := bind_eq_ok.mp h
  obtain ⟨_, _, hwrite, h⟩ := bind_eq_ok.mp h
  exact (Prod.mk.inj h).1 ▸ live_writeMetadata hwrite

theorem live_filesystems {α : Type} {q : ThinPool.F α} (hq : FsOnly q) :
    Keeps Live (onFilesystems q) := by
  intro p h
  have hsegments : (q p.thinPool).1.segments = p.thinPool.segments :=
    hq (fun t => t.segments = p.thinPool.segments) (fun _ _ _ _ ht => ht) p.thinPool rfl
  exact h.trans (congrArg (fun segs => some segs.record) hsegments.symm)

theorem live_eventOn {io : EventIo} {name : String} (h : Live p) (hc : Contained p.toStacked)
    (he : eventOn overflowChecks io name p = (p', .ok ())) : Live p' := by
  obtain ⟨p₁, changed, hcheck, he⟩ := bind_eq_ok.mp he
  obtain ⟨s, hchecked, rfl⟩ := within_eq_ok.mp hcheck
  cases changed with
  | true => exact live_writeMetadata he
  | false =>
    obtain rfl := (Prod.mk.inj he).1
    -- the check has returned, so that the thin pool is on a cap device
    have hagree : Agree p.toStacked := by
      by_contra hnot
      rw [check_of_not_agree overflowChecks hnot] at hchecked
      cases hchecked
    have hroom := (hc.spacious fun hlost => not_agree_of_capless hlost hagree).room
    have hsegments := segments_of_check hroom hchecked
    exact h.trans (congrArg (fun segs => some segs.record) hsegments.symm)

theorem live_step {r : Request} (h : Live p) (hc : Contained p.toStacked)
    (hs : step overflowChecks p r = (p', .ok ())) : Live p' := by
  cases r with
  | initCache io name paths =>
    obtain ⟨_, hs⟩ := ignore_eq_ok.mp hs
    obtain ⟨_, _, hpaths, hs⟩ := bind_eq_ok.mp hs
    obtain ⟨-, rfl⟩ := lift_eq_ok hpaths
    rw [get_bind] at hs
    split_ifs at hs
    · cases hs
    · exact (lift_eq_ok hs).2 ▸ h
    · cases hs
    · exact live_written hs
  | addBlockdevs io poolUuid name paths tier =>
    obtain ⟨_, hs⟩ := ignore_eq_ok.mp hs
    obtain ⟨_, _, hpaths, hs⟩ := bind_eq_ok.mp hs
    obtain ⟨-, rfl⟩ := lift_eq_ok hpaths
    rw [get_bind] at hs
    split_ifs at hs
    · cases hs
    · exact (Prod.mk.inj hs).1 ▸ h
    all_goals exact live_written hs
  | eventOn io name => exact live_eventOn h hc hs
  | createFilesystems valid specs =>
    refine (Keeps.ignore ?_).after h hs
    exact (keeps_lift _).bind fun _ => live_filesystems (fsOnly_createEach specs)
  | destroyFilesystems uuids => exact (live_filesystems (fsOnly_destroyEach uuids)).ignore.after h hs
  | renameFilesystem valid saveFs uuid newName =>
    refine (Keeps.ignore ?_).after h hs
    exact (keeps_lift _).bind fun _ => live_filesystems (fsOnly_renameFilesystem _ _ _)
  | snapshotFilesystem valid io originUuid snapshotName =>
    refine (Keeps.ignore ?_).after h hs
    refine (keeps_lift _).bind fun _ => keeps_read fun q => ?_
    split
    · exact keeps_pure _
    · exact (live_filesystems (fsOnly_snapshotFilesystem _ _ _)).bind fun _ => keeps_pure _

end Stratisd.Pool.StratPool
