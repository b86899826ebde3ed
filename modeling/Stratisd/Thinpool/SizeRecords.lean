import Stratisd.Engine.TableSpec
import Stratisd.Thinpool.Greedy
import Stratisd.Thinpool.RepairRoom

/-! The sizes in the records of the filesystems. A check doubles the thin device of a filesystem
that is short of space and then writes its record, once. If that fails the error is logged, and
nothing keeps in mind that the record is out of date: it is written again when the filesystem is
extended again. -/

namespace Stratisd.Thinpool

open Run Run.Outcome Run.Stateful Engine

/-! ### One filesystem -/

/-- Whether the filesystem is found short of space and its thin device takes a larger table. -/
def FsCheckIo.grows (io : FsCheckIo) : Bool :=
  match io.status, io.mountPoints, io.usage with
  | .ok .working, .ok (_ :: _), .ok (blockSize, blocks, blocksFree) =>
    decide ((blockSize * blocks - blockSize * (blocks - blocksFree)) / sectorSize <
      filesystemLowater) && io.setTable
  | _, _, _ => false

/-- A thin device of twice the size. -/
def StratFilesystem.doubled (fs : StratFilesystem) : StratFilesystem :=
  { fs with size := fs.size + fs.size }

theorem StratFilesystem.check_eq_ok {fs : StratFilesystem} {io : FsCheckIo}
    {r : StratFilesystem × Bool} (h : fs.check io = .ok r) :
    r = if io.grows then (fs.doubled, true) else (fs, false) := by
  unfold StratFilesystem.check at h
  obtain ⟨status, hstatus, h⟩ := Outcome.bind_eq_ok.mp h
  cases status with
  | error => cases h
  | fail =>
    obtain rfl := ok.inj h
    simp [FsCheckIo.grows, hstatus]
  | working =>
    obtain ⟨mountPoints, hmount, h⟩ := Outcome.bind_eq_ok.mp h
    cases mountPoints with
    | nil =>
      obtain rfl := ok.inj h
      simp [FsCheckIo.grows, hstatus, hmount]
    | cons point rest =>
      obtain ⟨⟨blockSize, blocks, blocksFree⟩, husage, h⟩ := Outcome.bind_eq_ok.mp h
      obtain rfl := ok.inj h
      simp [FsCheckIo.grows, hstatus, hmount, husage, extendIfShort, doubled]

theorem StratFilesystem.size_of_setup {thinDev : Option Device} {save : FilesystemSave}
    {fs : StratFilesystem} (h : StratFilesystem.setup thinDev save = .ok fs) :
    fs.size = save.size := by
  obtain ⟨device, -, h⟩ := Outcome.bind_eq_ok.mp h
  obtain ⟨created, -, h⟩ := Outcome.bind_eq_ok.mp h
  rw [← ok.inj h]

/-- What the table and the metadata volume have under a UUID. -/
structure Entry where
  found : Option (String × StratFilesystem)
  saved : Option FilesystemSave

def Stacked.entry (s : Stacked) (uuid : FilesystemUuid) : Entry :=
  ⟨s.thinPool.filesystems.getByUuid uuid, s.thinPool.mdv.saves.lookup uuid⟩

namespace Entry

/-- What a round of a check makes of it. -/
def check (io : ThinPool.FsIo) (uuid : FilesystemUuid) (e : Entry) : Entry :=
  match e.found with
  | none => e
  | some (name, fs) =>
    if io.check.grows then
      ⟨some (name, fs.doubled),
        if io.saveFs.isOk then some (fs.doubled.record name uuid) else e.saved⟩
    else e

/-- The record is of the size of the thin device. -/
def Current (e : Entry) : Prop :=
  ∀ name fs, e.found = some (name, fs) → ∃ save, e.saved = some save ∧ save.size = fs.size

/-- A round in which the write succeeds, if there is one, leaves the record current if it was, and
if the filesystem is extended. -/
theorem current_check_iff {io : ThinPool.FsIo} {uuid : FilesystemUuid} {e : Entry}
    (hfound : e.found ≠ none) (hsaved : io.check.grows = true → io.saveFs.isOk = true) :
    (e.check io uuid).Current ↔ e.Current ∨ io.check.grows = true := by
  obtain ⟨⟨name, fs⟩, hfs⟩ := Option.ne_none_iff_exists'.mp hfound
  by_cases hgrows : io.check.grows = true
  · refine iff_of_true ?_ (Or.inr hgrows)
    intro name' fs' h
    simp only [check, hfs, hgrows, if_true, hsaved hgrows, Option.some.injEq, Prod.mk.injEq] at h ⊢
    obtain ⟨rfl, rfl⟩ := h
    exact ⟨_, rfl, rfl⟩
  · simp [check, hfs, hgrows]

theorem found_check_eq_none {io : ThinPool.FsIo} {uuid : FilesystemUuid} {e : Entry} :
    (e.check io uuid).found = none ↔ e.found = none := by
  unfold check
  split
  · rfl
  · rename_i hfs
    split_ifs
    · simp [hfs]
    · rfl

end Entry

/-! ### Rounds -/

namespace ThinPool

variable {overflowChecks : Bool} {s s' : Stacked} {uuid : FilesystemUuid}

theorem saveFs_onMdv_attempt {io : StratisResult Unit} {name : String} {fs : StratFilesystem}
    {r : Option Unit}
    (h : attempt (onMdv (MetadataVol.saveFs io name uuid fs)) s = (s', .ok r)) :
    s'.thinPool.filesystems = s.thinPool.filesystems ∧
      s'.thinPool.mdv.saves = if io.isOk then s.thinPool.mdv.saves.insert uuid (fs.record name uuid)
        else s.thinPool.mdv.saves := by
  cases io with
  | ok _ =>
    obtain ⟨rfl, -⟩ := Prod.mk.inj h
    exact ⟨rfl, rfl⟩
  | err _ =>
    obtain ⟨rfl, -⟩ := Prod.mk.inj h
    exact ⟨rfl, rfl⟩
  | panic => cases (Prod.mk.inj h).2

theorem entry_checkFilesystem {io : CheckIo} (h : checkFilesystem io uuid s = (s', .ok ())) :
    s'.entry = Function.update s.entry uuid ((s.entry uuid).check (io.fs uuid) uuid) := by
  unfold checkFilesystem at h
  rw [get_bind] at h
  cases hfound : s.thinPool.filesystems.getByUuid uuid with
  | none =>
    simp only [hfound] at h
    rw [← (Prod.mk.inj h).1, show (s.entry uuid).check (io.fs uuid) uuid = s.entry uuid by
      simp [Entry.check, Stacked.entry, hfound], Function.update_eq_self]
  | some found =>
    obtain ⟨name, fs⟩ := found
    simp only [hfound] at h
    obtain ⟨s₁, r, hlift, h⟩ := bind_eq_ok.mp h
    obtain ⟨hcheck, rfl⟩ := lift_eq_ok hlift
    obtain rfl := StratFilesystem.check_eq_ok hcheck
    obtain ⟨s₂, _, hupdate, h⟩ := bind_eq_ok.mp h
    obtain ⟨rfl, -⟩ := Prod.mk.inj hupdate
    funext v
    by_cases hgrows : (io.fs uuid).check.grows = true
    · simp only [hgrows, if_true] at h
      obtain ⟨s₃, _, hsave, h⟩ := bind_eq_ok.mp h
      obtain ⟨rfl, -⟩ := Prod.mk.inj h
      obtain ⟨hfs, hsaves⟩ := saveFs_onMdv_attempt hsave
      have hget := Table.getByUuid_setByUuid hfound fs.doubled v
      by_cases hv : v = uuid
      · subst hv
        rw [Function.update_self, Stacked.entry, hfs, hget, hsaves]
        simp only [Entry.check, Stacked.entry, hfound, hgrows, if_true]
        split_ifs
        · rw [AList.lookup_insert]
        · rfl
      · rw [Function.update_of_ne hv, Stacked.entry, hfs, hget, if_neg hv, hsaves]
        split_ifs
        · rw [AList.lookup_insert_ne hv]
          rfl
        · rfl
    · simp only [Bool.not_eq_true] at hgrows
      simp only [hgrows, Bool.false_eq_true, if_false] at h
      obtain ⟨rfl, -⟩ := Prod.mk.inj h
      have hget := Table.getByUuid_setByUuid hfound fs v
      by_cases hv : v = uuid
      · subst hv
        simp [Entry.check, Stacked.entry, hfound, hgrows, hget]
      · rw [Function.update_of_ne hv, Stacked.entry]
        simp only [hget, if_neg hv]
        rfl

theorem entry_doCheck {io : CheckIo} {again : Bool}
    (h : doCheck overflowChecks io s = (s', .ok again)) (uuid : FilesystemUuid) :
    s'.entry uuid = (s.entry uuid).check (io.fs uuid) uuid := by
  unfold doCheck at h
  rw [get_bind] at h
  obtain ⟨s₁, _, hlift, h⟩ := bind_eq_ok.mp h
  obtain ⟨-, rfl⟩ := lift_eq_ok hlift
  obtain ⟨s₁, status, hlift, h⟩ := bind_eq_ok.mp h
  obtain ⟨-, rfl⟩ := lift_eq_ok hlift
  obtain ⟨s₁, shouldSave, hgrow, h⟩ := bind_eq_ok.mp h
  have hframe : FramedFiles fun t => t.entry = s.entry := by
    intro t t' hfs hmdv ht
    funext v
    rw [← ht, Stacked.entry, hfs, hmdv]
    rfl
  have hentry : s₁.entry = s.entry := (keeps_grow_files hframe io status).after rfl hgrow
  obtain ⟨s₂, _, hupdate, h⟩ := bind_eq_ok.mp h
  obtain ⟨rfl, -⟩ := Prod.mk.inj hupdate
  rw [get_bind] at h
  obtain ⟨s₃, _, hloop, h⟩ := bind_eq_ok.mp h
  obtain ⟨rfl, -⟩ := Prod.mk.inj h
  -- the loop runs over the UUIDs of the table, each once
  have hkeys : s₁.thinPool.filesystems.iter.map (·.2.1) = s₁.thinPool.filesystems.items.keys := by
    rw [Table.iter, List.map_map]
    rfl
  simp only [hkeys] at hloop
  have hloop' := forEach_update (fun _ _ _ => entry_checkFilesystem)
    s₁.thinPool.filesystems.items.keys_nodup hloop uuid
  have hmark : Stacked.entry { s₁ with
      thinPool := { s₁.thinPool with thinPoolStatus := some status } } = s.entry := hentry
  rw [hloop', hmark]
  split_ifs with hmem
  · rfl
  · have hnone : (s.entry uuid).found = none := by
      rw [← hentry]
      exact AList.lookup_eq_none.mpr hmem
    simp only [Entry.check, hnone]

/-! ### Whole checks -/

variable {env : ℕ → CheckIo} {n : ℕ}

/-- What the first rounds of a check make of an entry. -/
def entryAfter (env : ℕ → CheckIo) (uuid : FilesystemUuid) (e : Entry) : ℕ → Entry
  | 0 => e
  | n + 1 => (entryAfter env uuid e n).check ((env n).fs uuid) uuid

theorem entry_of_visits {t : Stacked} (hv : Visits (rounds overflowChecks env) s n t)
    (uuid : FilesystemUuid) : t.entry uuid = entryAfter env uuid (s.entry uuid) n := by
  induction hv with
  | start => rfl
  | next hv hround ih => rw [entry_doCheck hround, ih, entryAfter]

theorem found_entryAfter_eq_none {e : Entry} :
    (entryAfter env uuid e n).found = none ↔ e.found = none := by
  induction n with
  | zero => rfl
  | succ n ih => rw [entryAfter, Entry.found_check_eq_none, ih]

/-- If all writes succeed, a record ends up current if it was before or is written at all. -/
theorem current_entryAfter_iff {e : Entry} (hfound : e.found ≠ none)
    (hsaved : ∀ k < n, ((env k).fs uuid).check.grows = true →
      ((env k).fs uuid).saveFs.isOk = true) :
    (entryAfter env uuid e n).Current ↔
      e.Current ∨ ∃ k < n, ((env k).fs uuid).check.grows = true := by
  induction n with
  | zero => simp [entryAfter]
  | succ n ih =>
    rw [entryAfter, Entry.current_check_iff (mt found_entryAfter_eq_none.mp hfound)
      (hsaved n (Nat.lt_succ_self n)), ih fun k hk => hsaved k (Nat.lt_succ_of_lt hk), or_assoc]
    refine or_congr_right ?_
    simp only [Nat.lt_succ_iff_lt_or_eq, or_and_right, exists_or, exists_eq_left]

/-- The check returns after that many rounds that each asked for another one. -/
def Returns (overflowChecks : Bool) (env : ℕ → CheckIo) (s : Stacked) (n : ℕ) (s' : Stacked) :
    Prop :=
  ∃ t, Stateful.Visits (rounds overflowChecks env) s n t ∧
    doCheck overflowChecks (env n) t = (s', .ok false)

theorem Returns.check_eq (h : Returns overflowChecks env s n s')
    (hn : n < checkRounds s.backstore) :
    check overflowChecks env s = (s', .ok (decide (0 < n))) := by
  obtain ⟨t, hv, hlast⟩ := h
  rw [check, get_bind, checkFrom_eq]
  exact loopFrom_of_last hv hlast hn

theorem Returns.entry (h : Returns overflowChecks env s n s') (uuid : FilesystemUuid) :
    s'.entry uuid = entryAfter env uuid (s.entry uuid) (n + 1) := by
  obtain ⟨t, hv, hlast⟩ := h
  rw [entry_doCheck hlast, entry_of_visits hv, entryAfter]

/-- A round on the thin pool of `newOn` in which one filesystem is mounted, with the given number
of free blocks. -/
def mountedRound (blocksFree : ℕ) (saveFs : StratisResult Unit) : CheckIo :=
  { workingRound initialMetaSize with
    fs := fun _ => ⟨⟨.ok .working, .ok ["/home"], .ok (4096, 2 ^ 28, blocksFree), true⟩, saveFs⟩ }

/-- The filesystem is made at the epoch. -/
def creating : FsCreateIo :=
  ⟨⟨1⟩, some ⟨253, 5⟩, .ok (), Metadata.MDAHeader.epoch, .ok ()⟩

end ThinPool

end Stratisd.Thinpool
