import Stratisd.Crypt.KeyLoss
import Stratisd.Crypt.Pins

/-! Binding all devices to Clevis again. Each device gets a new header from Clevis, and what the
handle knows is read back from it. If that fails on a device, the headers of the devices before it
are put back. What their handles know is not, and neither is the header of the device itself. -/

namespace Stratisd.Crypt

open Run Run.Stateful Engine Media CryptHandle

namespace CryptHandle

/-- Clevis binds a keyslot of the device again. -/
structure Regenerates (io : CryptIo) (d : CryptHandle) (n : ℕ) : Prop where
  known : d.encryptionInfo.clevisInfo.isSome
  acquire : io.acquire = .ok ()
  keyslot : (keyslotsOf io (d.header.clevis.map (·.keyslots))).bind List.head? = some n
  answer : io.clevisLuksRegen = .ok ()
  bound : d.header.clevisBound n = true

/-- The handle with another configuration of Clevis. -/
def cached (info : String × Value) (d : CryptHandle) : CryptHandle :=
  { d with encryptionInfo := { d.encryptionInfo with clevisInfo := some info } }

section

variable {pinDispatch : Value → StratisResult (String × Value)} {io : CryptIo} {d d' : CryptHandle}

theorem exists_clevisLuksRegen {n : ℕ} (h : Regenerates io d n) :
    ∃ header, d.header.clevisLuksRegen n io.jwe = some header ∧
      header.clevis = some ⟨[n], some io.jwe⟩ := by
  rw [Luks2Header.clevisLuksRegen, if_pos h.bound]
  exact ⟨_, rfl, rfl⟩

theorem regenerateCachedClevisInfo_eq (hjson : io.jsonGet = true) {n : ℕ}
    (hd : d.header.clevis = some ⟨[n], some io.jwe⟩) :
    regenerateCachedClevisInfo pinDispatch io d = (do
      io.acquireAgain
      pinDispatch io.jwe.header) := by
  refine Outcome.bind_congr fun _ _ => ?_
  rw [clevisInfoFromMetadata, hd]
  simp only [if_pos hjson]
  cases pinDispatch io.jwe.header <;> rfl

theorem Regenerates.jsonGet {n : ℕ} (h : Regenerates io d n) : io.jsonGet = true := by
  have hk := h.keyslot
  unfold keyslotsOf at hk
  split_ifs at hk with hjson
  · exact hjson
  · cases hk

theorem rebindClevis_of_regenerates {n : ℕ} (h : Regenerates io d n) {header : Luks2Header}
    (hr : d.header.clevisLuksRegen n io.jwe = some header) :
    rebindClevis pinDispatch io d = (Stateful.lift (do
      io.acquireAgain
      pinDispatch io.jwe.header) >>= fun info => setClevisInfo (some info)) { d with header } := by
  have hclevis : header.clevis = some ⟨[n], some io.jwe⟩ := by
    obtain ⟨header', hr', hclevis⟩ := exists_clevisLuksRegen h
    rw [hr] at hr'
    cases hr'
    exact hclevis
  have hknown : d.encryptionInfo.clevisInfo.isNone = false := by
    cases hi : d.encryptionInfo.clevisInfo with
    | none =>
      have := h.known
      rw [hi] at this
      cases this
    | some _ => rfl
  have hslots : clevisKeyslots io d = (d, .ok (keyslotsOf io (d.header.clevis.map (·.keyslots)))) := by
    rw [clevisKeyslots, h.acquire]
    rfl
  have hcall : call_ io io.clevisLuksRegen (Luks2Header.clevisLuksRegen n io.jwe) d =
      ({ d with header }, .ok ()) := by
    simp [call_, call, h.answer, hr]
  have hread : regenerateCachedClevisInfo pinDispatch io { d with header } = _ :=
    regenerateCachedClevisInfo_eq h.jsonGet hclevis
  rw [rebindClevis, get_bind, hknown]
  simp only [Bool.false_eq_true, if_false]
  rw [bind_of_eq hslots, h.keyslot]
  simp only
  rw [bind_of_eq hcall, get_bind, hread]

theorem rebindClevis_of_not_regenerates (h : ∀ n, ¬ Regenerates io d n) :
    (rebindClevis pinDispatch io d).1 = d ∧ (rebindClevis pinDispatch io d).2 ≠ .ok () := by
  rw [rebindClevis, get_bind]
  split_ifs with hknown
  · simp
  cases ha : io.acquire with
  | err e => simp [clevisKeyslots, ha, bind_apply]
  | panic => simp [clevisKeyslots, ha, bind_apply]
  | ok u =>
    have hslots : clevisKeyslots io d =
        (d, .ok (keyslotsOf io (d.header.clevis.map (·.keyslots)))) := by
      rw [clevisKeyslots, ha]
      rfl
    rw [bind_of_eq hslots]
    cases hn : (keyslotsOf io (d.header.clevis.map (·.keyslots))).bind List.head? with
    | none => simp
    | some n =>
      cases hc : io.clevisLuksRegen with
      | err e => simp [call_, call, bind_apply]
      | panic => simp [call_, call, bind_apply]
      | ok v =>
        have hbound : d.header.clevisBound n = false := by
          by_contra hb
          exact h n ⟨isSome_of_not_isNone hknown, ha, hn, hc, by simpa using hb⟩
        simp [call_, call, bind_apply, Luks2Header.clevisLuksRegen, hbound]

end

variable {codec : JweCodec} {io : CryptIo} {d d' : CryptHandle}

/-- The new binding can be made and can be read back. -/
def Completes (codec : JweCodec) (io : CryptIo) (d : CryptHandle) : Prop :=
  (∃ n, Regenerates io d n) ∧ io.acquireAgain = .ok () ∧ ∃ info, Describes codec io.jwe.header info

theorem rebindClevis_eq_ok_iff :
    rebindClevis (pinDispatch codec) io d = (d', .ok ()) ↔ ∃ n header info, Regenerates io d n ∧
      d.header.clevisLuksRegen n io.jwe = some header ∧ io.acquireAgain = .ok () ∧
      Describes codec io.jwe.header info ∧ d' = cached info { d with header } := by
  constructor
  · intro hok
    by_cases hn : ∃ n, Regenerates io d n
    · obtain ⟨n, h⟩ := hn
      obtain ⟨header, hr, -⟩ := exists_clevisLuksRegen h
      rw [rebindClevis_of_regenerates h hr] at hok
      obtain ⟨d₁, info, hread, hset⟩ := bind_eq_ok.mp hok
      rw [lift_apply, Prod.mk.injEq] at hread
      obtain ⟨rfl, hread⟩ := hread
      obtain ⟨_, hagain, hpin⟩ := Outcome.bind_eq_ok.mp hread
      exact ⟨n, header, info, h, hr, hagain, pinDispatch_eq_ok_iff.mp hpin,
        (Prod.mk.inj hset).1.symm⟩
    · exact absurd (congrArg Prod.snd hok)
        (rebindClevis_of_not_regenerates fun n hr => hn ⟨n, hr⟩).2
  · rintro ⟨n, header, info, h, hr, hagain, hinfo, rfl⟩
    rw [rebindClevis_of_regenerates h hr, hagain, Outcome.ok_bind,
      pinDispatch_eq_ok_iff.mpr hinfo]
    rfl

theorem completes_iff : Completes codec io d ↔ (rebindClevis (pinDispatch codec) io d).2 = .ok () := by
  constructor
  · rintro ⟨⟨n, h⟩, hagain, info, hinfo⟩
    obtain ⟨header, hr, -⟩ := exists_clevisLuksRegen h
    exact congrArg Prod.snd (rebindClevis_eq_ok_iff.mpr ⟨n, header, info, h, hr, hagain, hinfo, rfl⟩)
  · intro hok
    obtain ⟨n, header, info, h, -, hagain, hinfo, -⟩ :=
      rebindClevis_eq_ok_iff.mp (Prod.ext rfl hok : rebindClevis (pinDispatch codec) io d = (_, .ok ()))
    exact ⟨⟨n, h⟩, hagain, info, hinfo⟩

/-- A device on which it fails keeps what its handle knows, and keeps its header unless Clevis has
written a new one. -/
theorem rebindClevis_of_not_completes (h : ¬ Completes codec io d) :
    (rebindClevis (pinDispatch codec) io d).1 = d ∧ (∀ n, ¬ Regenerates io d n) ∨
      ∃ n header, Regenerates io d n ∧ d.header.clevisLuksRegen n io.jwe = some header ∧
        (rebindClevis (pinDispatch codec) io d).1 = { d with header } := by
  by_cases hn : ∃ n, Regenerates io d n
  · obtain ⟨n, hreg⟩ := hn
    obtain ⟨header, hr, -⟩ := exists_clevisLuksRegen hreg
    refine Or.inr ⟨n, header, hreg, hr, ?_⟩
    rw [completes_iff, rebindClevis_of_regenerates hreg hr] at h
    rw [rebindClevis_of_regenerates hreg hr]
    obtain ⟨info, hread, heq⟩ | ⟨heq, -⟩ := bind_cases (Stateful.lift (do
      io.acquireAgain
      pinDispatch codec io.jwe.header)) (fun info => setClevisInfo (some info)) { d with header }
    · rw [heq] at h
      exact absurd rfl h
    · exact heq
  · have hn : ∀ n, ¬ Regenerates io d n := fun n hr => hn ⟨n, hr⟩
    exact Or.inl ⟨(rebindClevis_of_not_regenerates hn).1, hn⟩

theorem restoreLuksHeader_of_ok (hacquire : io.acquire = .ok ()) (hrestore : io.headerRestore = .ok ())
    (header : Luks2Header) : restoreLuksHeader io header d = ({ d with header }, .ok ()) := by
  simp [restoreLuksHeader, call_, call, hacquire, hrestore]

end CryptHandle

/-! ### All devices -/

namespace BlockDevs

open CryptHandle (Completes Regenerates)

variable {codec : JweCodec} {io : ManagerIo}

theorem backUpHeaders_of_ok {handles : List CryptHandle} {i : ℕ}
    (h : ∀ j < handles.length, io.backUp (i + j) = .ok ()) :
    backUpHeaders io i (handles.map some) = .ok (handles.map (·.header)) := by
  induction handles generalizing i with
  | nil => rfl
  | cons d handles ih =>
    have htail := ih (i := i + 1) fun j hj => by
      have := h (j + 1) (by simpa using hj)
      rwa [Nat.add_comm j, ← Nat.add_assoc] at this
    have hhead : io.backUp i = .ok () := h 0 (by simp)
    rw [List.map_cons, backUpHeaders, hhead, Outcome.ok_bind, htail]
    rfl

theorem encrypted_apply {d : CryptHandle} (hd : d.encryptionInfo.isEncrypted = true)
    (handles : List CryptHandle) :
    encrypted ((d :: handles).map some) = ((d :: handles).map some, .ok d.encryptionInfo) := by
  simp [encrypted, encryptionInfo, hd]

/-- The devices are gone through if the first one is bound to Clevis. -/
theorem rebindClevis_apply {d : CryptHandle} {handles : List CryptHandle}
    (hd : d.encryptionInfo.clevisInfo.isSome) (htmp : io.tmpDir = .ok ())
    (hbackup : ∀ i < (d :: handles).length, io.backUp i = .ok ()) :
    rebindClevis (pinDispatch codec) io ((d :: handles).map some) =
      operationLoop (fun i => onHandle (CryptHandle.rebindClevis (pinDispatch codec) (io.act i)))
        (restore io ((d :: handles).map (·.header))) ((d :: handles).map some) := by
  have henc : d.encryptionInfo.isEncrypted = true := by
    rw [EncryptionInfo.isEncrypted, hd, Bool.or_true]
  have hnone : d.encryptionInfo.clevisInfo.isNone = false := by
    rw [← Option.not_isSome, hd]
    rfl
  have hheaders : backUpHeaders io 0 ((d :: handles).map some) =
      .ok ((d :: handles).map (·.header)) :=
    backUpHeaders_of_ok fun j hj => by simpa using hbackup j hj
  rw [rebindClevis, bind_of_eq (encrypted_apply henc handles)]
  simp only [hnone, Bool.false_eq_true, if_false]
  rw [htmp, lift_ok_bind, get_bind, hheaders, lift_ok_bind]

theorem rebindClevis_of_unbound {d : CryptHandle} {handles : List CryptHandle}
    (hd : d.encryptionInfo.clevisInfo = none) :
    (rebindClevis (pinDispatch codec) io ((d :: handles).map some)).1 = (d :: handles).map some := by
  have henc : encrypted ((d :: handles).map some) = ((d :: handles).map some,
      if d.encryptionInfo.isEncrypted then .ok d.encryptionInfo
      else .err (.msg "Requested pool does not appear to be encrypted")) := by
    simp only [encrypted, encryptionInfo, List.map_cons, get_bind, lift_ok_bind]
    split_ifs <;> rfl
  rw [rebindClevis, bind_apply, henc]
  split_ifs
  · simp [hd]
  · rfl

/-- A device that is rolled back has the header from before. Its handle knows the new
configuration. -/
def rolledBack (codec : JweCodec) (io : CryptIo) (d : CryptHandle) : CryptHandle :=
  match pinDispatch codec io.jwe.header with
  | .ok info => d.cached info
  | _ => d

theorem rolledBack_of_describes {io : CryptIo} {d : CryptHandle} {info : String × Value}
    (h : Describes codec io.jwe.header info) : rolledBack codec io d = d.cached info := by
  rw [rolledBack, pinDispatch_eq_ok_iff.mpr h]

/-- The header is put back after the device has been bound again. -/
theorem restore_of_completes {headers : List Luks2Header} {i : ℕ} {d : CryptHandle}
    (h : Completes codec (io.act i) d) (hheader : headers[i]? = some d.header)
    (hacquire : (io.undo i).acquire = .ok ()) (hrestore : (io.undo i).headerRestore = .ok ()) :
    restore io headers i
      (onHandle (CryptHandle.rebindClevis (pinDispatch codec) (io.act i)) (some d)).1 =
      (some (rolledBack codec (io.act i) d), .ok ()) := by
  obtain ⟨n, header, info, -, -, -, hinfo, hd'⟩ := rebindClevis_eq_ok_iff.mp
    (Prod.ext rfl (completes_iff.mp h) :
      CryptHandle.rebindClevis (pinDispatch codec) (io.act i) d = (_, .ok ()))
  rw [restore, hheader, rolledBack_of_describes hinfo]
  simp only [onHandle, hd', restoreLuksHeader_of_ok hacquire hrestore]
  rfl

section Failed

variable {before rest : List CryptHandle} {d : CryptHandle}
  (hbefore : ∀ i c, before[i]? = some c → Completes codec (io.act i) c)
  (hd : ¬ Completes codec (io.act before.length) d)
  (hundo : ∀ i < before.length,
    (io.undo i).acquire = .ok () ∧ (io.undo i).headerRestore = .ok ())

include hbefore hundo in
theorem rollbackLoop_restore (e : StratisError) :
    rollbackLoop (restore io ((before ++ d :: rest).map (·.header))) e 0
      ((before.map some).mapIdx fun i c =>
        (onHandle (CryptHandle.rebindClevis (pinDispatch codec) (io.act (0 + i))) c).1) =
      (before.mapIdx fun i c => some (rolledBack codec (io.act i) c), .err e) := by
  have hstep : ∀ i c, before[i]? = some c → restore io ((before ++ d :: rest).map (·.header)) i
      (onHandle (CryptHandle.rebindClevis (pinDispatch codec) (io.act i)) (some c)).1 =
      (some (rolledBack codec (io.act i) c), .ok ()) := by
    intro i c hc
    have hi : i < before.length := (List.getElem?_eq_some_iff.mp hc).1
    refine restore_of_completes (hbefore i c hc) ?_ (hundo i hi).1 (hundo i hi).2
    rw [List.getElem?_map, List.getElem?_append_left hi, hc]
    rfl
  rw [rollbackLoop_mapIdx]
  · congr 1
    refine List.ext_getElem? fun i => ?_
    cases hc : before[i]? with
    | none => simp [hc]
    | some c =>
      simp only [List.getElem?_mapIdx, List.getElem?_map, hc, Option.map_some, Nat.zero_add,
        hstep i c hc]
  · intro i c' hc'
    cases hc : before[i]? with
    | none => simp [hc] at hc'
    | some c =>
      simp only [List.getElem?_mapIdx, List.getElem?_map, hc, Option.map_some, Option.some.injEq,
        Nat.zero_add] at hc'
      rw [Nat.zero_add, ← hc', hstep i c hc]

include hbefore hd hundo in
theorem rebindClevis_failed (htmp : io.tmpDir = .ok ())
    (hbackup : ∀ i < (before ++ d :: rest).length, io.backUp i = .ok ()) {devs : BlockDevs}
    {e : StratisError} (herr : rebindClevis (pinDispatch codec) io ((before ++ d :: rest).map some) =
      (devs, .err e)) :
    devs = (before.mapIdx fun i c => some (rolledBack codec (io.act i) c)) ++
      some (CryptHandle.rebindClevis (pinDispatch codec) (io.act before.length) d).1 ::
        rest.map some := by
  -- a first device that is not bound is the one on which it fails
  by_cases hunbound : before = [] ∧ d.encryptionInfo.clevisInfo = none
  · obtain ⟨rfl, hnone⟩ := hunbound
    have hnot : ∀ n, ¬ Regenerates (io.act 0) d n := fun n hr => by
      have hknown := hr.known
      rw [hnone] at hknown
      cases hknown
    have hsame : devs = (d :: rest).map some :=
      (congrArg Prod.fst herr).symm.trans (rebindClevis_of_unbound hnone)
    rw [hsame, List.length_nil, (rebindClevis_of_not_regenerates hnot).1]
    rfl
  have hloop : rebindClevis (pinDispatch codec) io ((before ++ d :: rest).map some) =
      operationLoop (fun i => onHandle (CryptHandle.rebindClevis (pinDispatch codec) (io.act i)))
        (restore io ((before ++ d :: rest).map (·.header))) ((before ++ d :: rest).map some) := by
    cases before with
    | nil =>
      have hbound : d.encryptionInfo.clevisInfo.isSome :=
        Option.isSome_iff_ne_none.mpr fun h => hunbound ⟨rfl, h⟩
      exact rebindClevis_apply hbound htmp hbackup
    | cons c before =>
      obtain ⟨⟨n, hc⟩, -⟩ := hbefore 0 c rfl
      exact rebindClevis_apply hc.known htmp hbackup
  have hrec : Recorded
      (fun i => onHandle (CryptHandle.rebindClevis (pinDispatch codec) (io.act i))) 0
      (before.map some) _ := recorded_mapIdx fun j c hc => by
    rw [List.getElem?_map, Option.map_eq_some_iff] at hc
    obtain ⟨c, hc, rfl⟩ := hc
    rw [Nat.zero_add]
    exact completes_iff.mp (hbefore j c hc)
  have hsplit : (before ++ d :: rest).map some = before.map some ++ some d :: rest.map some := by
    rw [List.map_append, List.map_cons]
  rw [hloop, hsplit] at herr
  -- the operation does not return on the device
  cases hr : (CryptHandle.rebindClevis (pinDispatch codec) (io.act before.length) d).2 with
  | ok u => exact absurd (completes_iff.mpr hr) hd
  | panic =>
    rw [operationLoop_of_panic hrec (by rw [List.length_map, onHandle, hr])] at herr
    cases herr
  | err e₀ =>
    rw [operationLoop_of_err hrec (by rw [List.length_map, onHandle, hr]),
      rollbackLoop_restore hbefore hundo] at herr
    exact (congrArg Prod.fst herr).symm

/-- The header and what the handle knows of Clevis. -/
def clevisState (d : Option CryptHandle) : Option (Luks2Header × Option (String × Value)) :=
  d.map fun c => (c.header, c.encryptionInfo.clevisInfo)

include hbefore in
theorem rolledBack_same_iff :
    (before.mapIdx fun i c => some (rolledBack codec (io.act i) c)).map clevisState =
        (before.map some).map clevisState ↔
      ∀ i c info, before[i]? = some c → c.encryptionInfo.clevisInfo = some info →
        Describes codec (io.act i).jwe.header info := by
  rw [List.ext_getElem?_iff]
  refine forall_congr' fun i => ?_
  cases hc : before[i]? with
  | none => simp [hc]
  | some c =>
    obtain ⟨⟨n, hn⟩, -, info, hinfo⟩ := hbefore i c hc
    obtain ⟨old, hold⟩ := Option.isSome_iff_exists.mp hn.known
    simp only [List.getElem?_map, List.getElem?_mapIdx, hc, Option.map_some, Option.some.injEq,
      rolledBack_of_describes hinfo, clevisState, CryptHandle.cached, hold, Prod.mk.injEq, true_and]
    constructor
    · rintro rfl _ info' rfl hinfo'
      rw [hold] at hinfo'
      cases hinfo'
      exact hinfo
    · intro h
      exact hinfo.unique (h c old rfl hold)

include hd in
theorem failed_same_iff :
    clevisState (some (CryptHandle.rebindClevis (pinDispatch codec) (io.act before.length) d).1) =
        clevisState (some d) ↔
      ∀ n, Regenerates (io.act before.length) d n →
        d.header.clevisLuksRegen n (io.act before.length).jwe = some d.header := by
  obtain ⟨hsame, hnot⟩ | ⟨n, header, hreg, hr, hnew⟩ := rebindClevis_of_not_completes hd
  · rw [hsame]
    exact ⟨fun _ n hn => absurd hn (hnot n), fun _ => rfl⟩
  · rw [hnew]
    constructor
    · intro heq m hm
      have hnm : n = m := Option.some.inj (hreg.keyslot.symm.trans hm.keyslot)
      have hheader : header = d.header := (Prod.mk.inj (Option.some.inj heq)).1
      rw [← hnm, hr, hheader]
    · intro h
      have hheader : header = d.header := Option.some.inj (hr.symm.trans (h n hreg))
      rw [hheader]

end Failed

/-- A failure on a device leaves everything as it was exactly if what the devices before it read
back is what was known of them, and Clevis has written nothing new to the device itself. -/
theorem rebindClevis_undone_iff (codec : JweCodec) (io : ManagerIo)
    (before rest : List CryptHandle) (d : CryptHandle)
    (hbefore : ∀ i c, before[i]? = some c → Completes codec (io.act i) c)
    (hd : ¬ Completes codec (io.act before.length) d)
    (hundo : ∀ i < before.length,
      (io.undo i).acquire = .ok () ∧ (io.undo i).headerRestore = .ok ())
    (htmp : io.tmpDir = .ok ())
    (hbackup : ∀ i < (before ++ d :: rest).length, io.backUp i = .ok ()) (devs : BlockDevs)
    (e : StratisError) (herr : rebindClevis (pinDispatch codec) io
      ((before ++ d :: rest).map some) = (devs, .err e)) :
    devs.map clevisState = ((before ++ d :: rest).map some).map clevisState ↔
      (∀ i c info, before[i]? = some c → c.encryptionInfo.clevisInfo = some info →
        Describes codec (io.act i).jwe.header info) ∧
      ∀ n, Regenerates (io.act before.length) d n →
        d.header.clevisLuksRegen n (io.act before.length).jwe = some d.header := by
  rw [← rolledBack_same_iff hbefore, ← failed_same_iff hd,
    rebindClevis_failed hbefore hd hundo htmp hbackup herr, List.map_append, List.map_append,
    List.map_append, List.map_cons, List.map_cons, List.map_cons]
  constructor
  · intro h
    obtain ⟨hfirst, hrest⟩ := List.append_inj h (by simp)
    exact ⟨hfirst, (List.cons.inj hrest).1⟩
  · rintro ⟨hfirst, hfailed⟩
    rw [hfirst, hfailed]

/-! ### Two devices on a TPM -/

/-- What Clevis writes for a configuration of the pin `tpm2`, which only its own part of the header
tells. -/
def tpm2Header (data : Fields) : Value :=
  .object (.cons "clevis" (.object (.cons "pin" (.string "tpm2")
    (.cons "tpm2" (.object data) .nil))) .nil)

theorem describes_tpm2Header (data : Fields) :
    Describes codec (tpm2Header data) ("tpm2", .object .nil) := .tpm2 (by rfl)

/-- A device that is bound to the key in keyslot 0 and to the TPM in keyslot 1, and the
configuration that its handle knows. -/
def onTpm2 (config : Fields) : CryptHandle where
  physicalPath := "/dev/sdb"
  header := ⟨(AList.singleton 0 (.keyring [1])).insert 1 (.clevis 7), some (keyringToken [0]),
    some ⟨[1], some ⟨tpm2Header config, 7⟩⟩⟩
  encryptionInfo := ⟨some "key", some ("tpm2", .object config)⟩

/-- The device with another passphrase of Clevis. -/
def boundAgain (config : Fields) : Luks2Header :=
  ⟨(AList.singleton 0 (.keyring [1])).insert 1 (.clevis 8), some (keyringToken [0]),
    some ⟨[1], some ⟨tpm2Header config, 8⟩⟩⟩

/-- The answers while the device is bound again. -/
def rebinding (config : Fields) : CryptIo := { willing with jwe := ⟨tpm2Header config, 8⟩ }

theorem regenerates_onTpm2 (config : Fields) (io : CryptIo) (hacquire : io.acquire = .ok ())
    (hjson : io.jsonGet = true) (hregen : io.clevisLuksRegen = .ok ()) :
    Regenerates io (onTpm2 config) 1 where
  known := rfl
  acquire := hacquire
  keyslot := by rw [CryptHandle.keyslotsOf, if_pos hjson]; rfl
  answer := hregen
  bound := by rfl

theorem completes_onTpm2 (config : Fields) : Completes codec (rebinding config) (onTpm2 config) :=
  ⟨⟨1, regenerates_onTpm2 config _ rfl rfl rfl⟩, rfl, _, describes_tpm2Header config⟩

/-- The answers while two devices are bound again. -/
def rebindingBoth (first second : CryptIo) : ManagerIo where
  act i := if i = 0 then first else second
  undo _ := willing
  canUnlock := true
  tmpDir := .ok ()
  backUp _ := .ok ()

def pcrIds : Fields := .cons "pcr_ids" (.string "7") .nil

/-- No text is taken for base64. A header of the pin `tpm2` has none. -/
def plainCodec : JweCodec := ⟨fun _ => .err .serde, id, fun h => by cases h⟩

/-- If Clevis fails on the second device, the first one is as it was before. -/
theorem rebindClevis_undone_second : ∃ devs,
    rebindClevis (pinDispatch plainCodec)
      (rebindingBoth (rebinding .nil) { rebinding .nil with clevisLuksRegen := .err .crypt })
      [some (onTpm2 .nil), some (onTpm2 .nil)] = (devs, .err .crypt) ∧
    devs.map clevisState = [clevisState (some (onTpm2 .nil)), clevisState (some (onTpm2 .nil))] := by
  have hfailed : ∀ n, ¬ Regenerates { rebinding .nil with clevisLuksRegen := .err .crypt }
      (onTpm2 .nil) n := fun n h => by cases h.answer
  refine ⟨_, by rfl, (rebindClevis_undone_iff plainCodec
    (rebindingBoth (rebinding .nil) { rebinding .nil with clevisLuksRegen := .err .crypt })
    [onTpm2 .nil] [] (onTpm2 .nil) ?_ (fun h => ?_) (fun _ _ => ⟨rfl, rfl⟩) rfl (fun _ _ => rfl) _
    .crypt (by rfl)).mpr ⟨?_, fun n h => absurd h (hfailed n)⟩⟩
  · rintro (_ | i) c hc
    · cases hc
      exact completes_onTpm2 .nil
    · cases hc
  · obtain ⟨⟨n, hn⟩, -⟩ := h
    exact hfailed n hn
  · rintro (_ | i) c info hc hinfo
    · cases hc
      cases hinfo
      exact describes_tpm2Header .nil
    · cases hc

/-- If Clevis fails on the second device, the handle of the first one is left with another
configuration than before. If the new header of a device can not be read, it stays. -/
theorem failed_rebinding_stays :
    rebindClevis (pinDispatch plainCodec)
      (rebindingBoth (rebinding pcrIds) { rebinding pcrIds with clevisLuksRegen := .err .crypt })
      [some (onTpm2 pcrIds), some (onTpm2 pcrIds)] =
        ([some ((onTpm2 pcrIds).cached ("tpm2", .object .nil)), some (onTpm2 pcrIds)],
          .err .crypt) ∧
    rebindClevis (pinDispatch plainCodec)
      (rebindingBoth { rebinding pcrIds with acquireAgain := .err .crypt } willing)
      [some (onTpm2 pcrIds)] =
        ([some { onTpm2 pcrIds with header := boundAgain pcrIds }], .err .crypt) ∧
    (onTpm2 pcrIds).encryptionInfo.clevisInfo ≠ some ("tpm2", .object .nil) ∧
    (onTpm2 pcrIds).header ≠ boundAgain pcrIds := by
  refine ⟨rfl, rfl, by decide, fun h => ?_⟩
  have hsecret := congrArg (fun h : Luks2Header => h.keyslots.lookup 1) h
  exact absurd hsecret (by decide)

end BlockDevs

end Stratisd.Crypt
