import Stratisd.Crypt.Initialize
import Stratisd.Crypt.Rebind

/-! What a handle knows of Clevis, and what is on its device. A bind keeps the configuration that was
asked for. A new binding and a new device read the token back, and what is done with the kernel
keyring changes neither. -/

namespace Stratisd.Crypt

open Run Run.Outcome Run.Stateful Engine Media

namespace CryptHandle

open Stateful (Triple Preserves)

variable {codec : JweCodec} {io : CryptIo} {d d' : CryptHandle}

/-- What the handle knows of Clevis is what can be read from the header. -/
def Truthful (codec : JweCodec) (d : CryptHandle) : Prop :=
  ∀ io : CryptIo, io.jsonGet = true →
    clevisInfoFromMetadata (pinDispatch codec) io d.header = .ok d.encryptionInfo.clevisInfo

/-- What Clevis has written to the header. -/
def jwe (d : CryptHandle) : Option Jwe := d.header.clevis.bind (·.jwe)

theorem clevisInfoFromMetadata_eq (hjson : io.jsonGet = true) :
    clevisInfoFromMetadata (pinDispatch codec) io d.header =
      match d.jwe with
      | some jwe => do
        let info ← pinDispatch codec jwe.header
        .ok (some info)
      | none => .ok none := by
  rw [clevisInfoFromMetadata, jwe]
  rcases hc : d.header.clevis with _ | ⟨keyslots, _ | jwe⟩
  · rfl
  · rfl
  · simp only [if_pos hjson, Option.bind_some]

theorem clevisInfoFromMetadata_of_none (h : d.jwe = none) :
    clevisInfoFromMetadata (pinDispatch codec) io d.header = .ok none := by
  rw [clevisInfoFromMetadata]
  rw [jwe] at h
  rcases hc : d.header.clevis with _ | ⟨keyslots, _ | jwe⟩
  · rfl
  · rfl
  · rw [hc] at h
    cases h

theorem clevisInfoFromMetadata_of_unread (hjson : io.jsonGet = false) :
    clevisInfoFromMetadata (pinDispatch codec) io d.header = .ok none := by
  rw [clevisInfoFromMetadata]
  rcases hc : d.header.clevis with _ | ⟨keyslots, _ | jwe⟩
  · rfl
  · rfl
  · simp [hjson]

theorem truthful_of_none (h : d.jwe = none) :
    d.Truthful codec ↔ d.encryptionInfo.clevisInfo = none := by
  constructor
  · intro ht
    have := ht willing rfl
    rw [clevisInfoFromMetadata_eq rfl, h] at this
    exact (ok.inj this).symm
  · intro hnone io hjson
    rw [clevisInfoFromMetadata_eq hjson, h, hnone]

theorem truthful_of_some {jwe : Jwe} (h : d.jwe = some jwe) :
    d.Truthful codec ↔
      ∃ info, Describes codec jwe.header info ∧ d.encryptionInfo.clevisInfo = some info := by
  constructor
  · intro ht
    have hread := ht willing rfl
    rw [clevisInfoFromMetadata_eq rfl, h] at hread
    obtain ⟨info, hinfo, heq⟩ := Outcome.bind_eq_ok.mp hread
    exact ⟨info, pinDispatch_eq_ok_iff.mp hinfo, (ok.inj heq).symm⟩
  · rintro ⟨info, hinfo, heq⟩ io hjson
    rw [clevisInfoFromMetadata_eq hjson, h, heq]
    simp only [pinDispatch_eq_ok_iff.mpr hinfo, ok_bind]

theorem Truthful.congr (h : d.Truthful codec) (hjwe : d'.jwe = d.jwe)
    (hknown : d'.encryptionInfo.clevisInfo = d.encryptionInfo.clevisInfo) : d'.Truthful codec := by
  intro io hjson
  have hread := h io hjson
  rw [clevisInfoFromMetadata_eq hjson] at hread ⊢
  rw [hjwe, hknown, hread]

/-! ### Operations that return -/

theorem call_eq_ok {α : Type} {answer : StratisResult Unit}
    {change : Luks2Header → Option (Luks2Header × α)} {a : α}
    (h : call io answer change d = (d', .ok a)) :
    ∃ header, change d.header = some (header, a) ∧ d' = { d with header } := by
  obtain ⟨d₁, _, hanswer, hchange⟩ := bind_eq_ok.mp h
  obtain rfl : d₁ = d := (Prod.mk.inj hanswer).1.symm
  rw [get_bind] at hchange
  cases hc : change d₁.header with
  | none =>
    rw [hc] at hchange
    cases hchange
  | some r =>
    rw [hc] at hchange
    cases hchange
    exact ⟨_, rfl, rfl⟩

theorem call__eq_ok {answer : StratisResult Unit} {change : Luks2Header → Option Luks2Header}
    (h : call_ io answer change d = (d', .ok ())) :
    ∃ header, change d.header = some header ∧ d' = { d with header } := by
  obtain ⟨header, hc, rfl⟩ := call_eq_ok h
  obtain ⟨header', hc', heq⟩ := Option.map_eq_some_iff.mp hc
  cases heq
  exact ⟨header, hc', rfl⟩

theorem jwe_of_clevisLuksBind {pass : Passphrase} {jwe : Jwe} {h h' : Luks2Header}
    (hb : h.clevisLuksBind pass jwe = some h') : h'.clevis.bind (·.jwe) = some jwe := by
  unfold Luks2Header.clevisLuksBind at hb
  split at hb
  · cases hb
    rfl
  · cases hb

theorem jwe_of_clevisLuksRegen {n : ℕ} {jwe : Jwe} {h h' : Luks2Header}
    (hr : h.clevisLuksRegen n jwe = some h') : h'.clevis.bind (·.jwe) = some jwe := by
  unfold Luks2Header.clevisLuksRegen at hr
  split_ifs at hr
  cases hr
  rfl

theorem clevisBind_eq_ok {pin : String} {config : Value}
    (h : clevisBind io pin config d = (d', .ok ())) :
    ∃ parsed yes, interpretClevisConfig pin config = .ok (parsed, yes) ∧ d'.jwe = some io.jwe ∧
      d'.encryptionInfo = { d.encryptionInfo with clevisInfo := some (pin, parsed) } := by
  obtain ⟨_, ⟨parsed, yes⟩, hinterpret, hrest⟩ := bind_eq_ok.mp h
  obtain ⟨hi, rfl⟩ := lift_eq_ok hinterpret
  simp only [get_bind] at hrest
  cases hkd : d.encryptionInfo.keyDescription with
  | none =>
    rw [hkd] at hrest
    cases hrest
  | some keyDescription =>
    rw [hkd] at hrest
    obtain ⟨_, _, hmemfs, hkeyed⟩ := bind_eq_ok.mp hrest
    obtain ⟨-, rfl⟩ := lift_eq_ok hmemfs
    obtain ⟨_, key, hkey, hbound⟩ := bind_eq_ok.mp hkeyed
    obtain ⟨-, rfl⟩ := lift_eq_ok hkey
    obtain ⟨_, _, hcall, hset⟩ := bind_eq_ok.mp hbound
    obtain ⟨header, hb, rfl⟩ := call__eq_ok hcall
    cases hset
    exact ⟨parsed, yes, hi, jwe_of_clevisLuksBind hb, rfl⟩

theorem forEach_clevisLuksUnbind_eq_ok {keyslots : List ℕ} (hne : keyslots ≠ [])
    (h : forEach (fun n => call_ io (io.clevisLuksUnbind n)
      (Luks2Header.clevisLuksUnbind n)) keyslots d = (d', .ok ())) :
    d'.jwe = none ∧ d'.encryptionInfo = d.encryptionInfo := by
  induction keyslots generalizing d with
  | nil => exact absurd rfl hne
  | cons n keyslots ih =>
    obtain ⟨_, _, hcall, hrest⟩ := bind_eq_ok.mp h
    obtain ⟨header, hu, rfl⟩ := call__eq_ok hcall
    cases keyslots with
    | nil =>
      cases hrest
      unfold Luks2Header.clevisLuksUnbind at hu
      split_ifs at hu
      cases hu
      exact ⟨rfl, rfl⟩
    | cons m keyslots =>
      have htail := ih (List.cons_ne_nil m keyslots) hrest
      exact htail

theorem clevisUnbind_eq_ok (h : clevisUnbind io d = (d', .ok ())) :
    d.encryptionInfo.keyDescription.isSome ∧
      d'.encryptionInfo = { d.encryptionInfo with clevisInfo := none } ∧
      ∃ t, d.header.clevis = some t ∧
        (t.keyslots = [] → d'.jwe = d.jwe) ∧ (t.keyslots ≠ [] → d'.jwe = none) := by
  rw [clevisUnbind, get_bind] at h
  split_ifs at h with hkd
  · cases h
  obtain ⟨d₁, keyslots, hread, hrest⟩ := bind_eq_ok.mp h
  obtain ⟨_, _, hacquire, hget⟩ := bind_eq_ok.mp hread
  obtain ⟨-, rfl⟩ := lift_eq_ok hacquire
  rw [get_bind, pure_apply, Prod.mk.injEq, ok.injEq] at hget
  obtain ⟨rfl, hkeyslots⟩ := hget
  cases keyslots with
  | none => cases hrest
  | some l =>
    have hl := hkeyslots
    obtain ⟨_, _, hloop, hset⟩ := bind_eq_ok.mp hrest
    unfold keyslotsOf at hl
    split_ifs at hl
    obtain ⟨t, ht, rfl⟩ := Option.map_eq_some_iff.mp hl
    cases hset
    refine ⟨isSome_of_not_isNone hkd, ?_, t, ht, fun hnil => ?_, fun hne => ?_⟩
    · by_cases hnil : t.keyslots = []
      · rw [hnil] at hloop
        cases hloop
        rfl
      · simp only [(forEach_clevisLuksUnbind_eq_ok hnil hloop).2]
    · rw [hnil] at hloop
      cases hloop
      rfl
    · exact (forEach_clevisLuksUnbind_eq_ok hne hloop).1

/-! ### The kernel keyring

A change of the keyring binding can take keyslots from the Clevis token, but not what Clevis has
written to it. -/

/-- What is there of Clevis, and what is known of it. -/
def Held (jwe : Option Jwe) (clevisInfo : Option (String × Value)) (d : CryptHandle) : Prop :=
  d.jwe = jwe ∧ d.encryptionInfo.clevisInfo = clevisInfo

section

variable {written : Option Jwe} {known : Option (String × Value)}

theorem triple_call_held {α : Type} {answer : StratisResult Unit}
    {change : Luks2Header → Option (Luks2Header × α)}
    (hchange : ∀ h h' a, change h = some (h', a) → h'.clevis.bind (·.jwe) = h.clevis.bind (·.jwe)) :
    Preserves (Held written known) (call io answer change) :=
  triple_call (fun _ d hd h a hc => ⟨(hchange d.header h a hc).trans hd.1, hd.2⟩)
    fun _ _ _ => trivial

theorem triple_call__held {answer : StratisResult Unit}
    {change : Luks2Header → Option Luks2Header}
    (hchange : ∀ h h', change h = some h' → h'.clevis.bind (·.jwe) = h.clevis.bind (·.jwe)) :
    Preserves (Held written known) (call_ io answer change) :=
  triple_call_ (fun _ d hd h hc => ⟨(hchange d.header h hc).trans hd.1, hd.2⟩)
    fun _ _ _ => trivial

theorem jwe_mapAssigned (f : List ℕ → List ℕ) (h : Luks2Header) :
    (h.mapAssigned f).clevis.bind (·.jwe) = h.clevis.bind (·.jwe) := by
  rw [Luks2Header.mapAssigned, Option.bind_map]
  rfl

theorem triple_lift_held {α : Type} (x : StratisResult α) :
    Preserves (Held written known) (Stateful.lift x) :=
  (triple_lift fun _ _ => trivial).imp (fun _ hd => hd) (fun _ _ hq => hq.2)
    fun _ he => he

theorem triple_initKeyslot_held (key : Key) (pass : Passphrase ⊕ String) :
    Preserves (Held written known) (initKeyslot io key pass) := by
  cases pass with
  | inl pass =>
    refine triple_call_held fun h h' n hadd => ?_
    unfold Luks2Header.addByPassphrase at hadd
    split at hadd
    · cases hadd
      rfl
    · cases hadd
  | inr keyDescription =>
    refine (triple_lift_held _).bind fun old => triple_call_held fun h h' n hc => ?_
    unfold Luks2Header.changeByPassphrase at hc
    split at hc
    · cases hc
      exact jwe_mapAssigned _ _
    · cases hc

theorem jwe_of_assignKeyslot {h h' : Luks2Header} {n : ℕ} (ha : h.assignKeyslot n = some h') :
    h'.clevis.bind (·.jwe) = h.clevis.bind (·.jwe) := by
  unfold Luks2Header.assignKeyslot at ha
  split at ha
  · split_ifs at ha
    cases ha
    rfl
  · cases ha

theorem triple_destroy_held (n : ℕ) :
    Preserves (Held written known) (call_ io (io.destroy n) (Luks2Header.destroy n)) := by
  refine triple_call__held fun h h' hd => ?_
  unfold Luks2Header.destroy at hd
  split_ifs at hd
  cases hd
  exact jwe_mapAssigned _ _

theorem triple_addKeyringKeyslot_held (keyDescription : String) (pass : Passphrase ⊕ String) :
    Preserves (Held written known) (addKeyringKeyslot io keyDescription pass) := by
  refine (triple_lift_held _).bind fun key => (triple_initKeyslot_held key pass).bind fun n => ?_
  refine (triple_call__held fun h h' hset => ?_).bind fun _ => triple_call__held fun h h' ha => ?_
  · cases hset
    rfl
  · exact jwe_of_assignKeyslot ha

theorem triple_bindKeyring_held (keyDescription : String) :
    Triple (Held written known) (bindKeyring io keyDescription)
      (fun _ d => Held written known d ∧ d.encryptionInfo.keyDescription = some keyDescription)
      fun _ => True := by
  refine (triple_lift_held _).bind fun _ => triple_get_bind fun d hd => ?_
  refine ((triple_lift_held _).at_state hd).bind fun key => ?_
  cases key with
  | none => exact triple_err fun _ _ => trivial
  | some key =>
    exact (triple_addKeyringKeyslot_held keyDescription _).bind fun _ =>
      triple_modify fun d hd => ⟨hd, rfl⟩

theorem triple_rebindKeyring_held (keyDescription : String) :
    Triple (Held written known) (rebindKeyring io keyDescription)
      (fun _ d => Held written known d ∧ d.encryptionInfo.keyDescription = some keyDescription)
      fun _ => True := by
  refine (triple_lift_held _).bind fun _ => triple_get_bind fun d hd => ?_
  split
  · exact triple_err fun _ _ => trivial
  · exact ((triple_addKeyringKeyslot_held keyDescription _).at_state hd).bind fun _ =>
      triple_modify fun d hd => ⟨hd, rfl⟩

theorem triple_unbindKeyring_held :
    Triple (Held written known) (unbindKeyring io)
      (fun _ d => Held written known d ∧ known.isSome ∧ d.encryptionInfo.keyDescription = none)
      fun _ => True := by
  refine triple_get_bind fun d hd => ?_
  split_ifs with hnone
  · exact triple_err fun _ _ => trivial
  have hknown : known.isSome := by
    rw [← hd.2]
    exact isSome_of_not_isNone hnone
  refine ((triple_lift_held _).at_state hd).bind fun _ => ?_
  split
  · exact triple_err fun _ _ => trivial
  · refine (@triple_forEach _ _ _ _ _ (fun _ => Held written known)
      (fun n _ => triple_destroy_held n) _).bind fun _ => ?_
    refine (triple_call__held fun h h' hr => ?_).bind fun _ =>
      triple_modify fun d hd => ⟨hd, hknown, rfl⟩
    cases hr
    rfl

end

theorem bindKeyring_eq_ok {keyDescription : String}
    (h : bindKeyring io keyDescription d = (d', .ok ())) :
    d'.jwe = d.jwe ∧
      d'.encryptionInfo = ⟨some keyDescription, d.encryptionInfo.clevisInfo⟩ := by
  obtain ⟨⟨hjwe, hknown⟩, hkd⟩ := (triple_bindKeyring_held keyDescription).of_eq_ok ⟨rfl, rfl⟩ h
  exact ⟨hjwe, EncryptionInfo.ext hkd hknown⟩

theorem rebindKeyring_eq_ok {keyDescription : String}
    (h : rebindKeyring io keyDescription d = (d', .ok ())) :
    d'.jwe = d.jwe ∧
      d'.encryptionInfo = ⟨some keyDescription, d.encryptionInfo.clevisInfo⟩ := by
  obtain ⟨⟨hjwe, hknown⟩, hkd⟩ := (triple_rebindKeyring_held keyDescription).of_eq_ok ⟨rfl, rfl⟩ h
  exact ⟨hjwe, EncryptionInfo.ext hkd hknown⟩

theorem unbindKeyring_eq_ok (h : unbindKeyring io d = (d', .ok ())) :
    EncryptionInfo.isEncrypted ⟨none, d.encryptionInfo.clevisInfo⟩ = true ∧ d'.jwe = d.jwe ∧
      d'.encryptionInfo = ⟨none, d.encryptionInfo.clevisInfo⟩ := by
  obtain ⟨⟨hjwe, hknown⟩, hsome, hkd⟩ := triple_unbindKeyring_held.of_eq_ok ⟨rfl, rfl⟩ h
  exact ⟨hsome, hjwe, EncryptionInfo.ext hkd hknown⟩

/-! ### New devices -/

section

variable {written : Option Jwe} {known : Option (String × Value)} {new : InitIo}

theorem triple_clevisLuksBind_held (io : CryptIo) (pass : Passphrase) :
    Triple (Held written known)
      (call_ io io.clevisLuksBind (Luks2Header.clevisLuksBind pass io.jwe))
      (fun _ => Held (some io.jwe) known) fun _ => True :=
  triple_call_ (fun _ _ hd _ hb => ⟨jwe_of_clevisLuksBind hb, hd.2⟩) fun _ _ _ => trivial

theorem triple_addByKey_held (answer : StratisResult Unit) (pass : Passphrase) :
    Preserves (Held written known) (call io answer (Luks2Header.addByKey pass)) := by
  refine triple_call_held fun h h' n hadd => ?_
  obtain ⟨m, -, heq⟩ := Option.map_eq_some_iff.mp hadd
  cases heq
  rfl

theorem triple_initializeWithKeyring_held (keyDescription : String) :
    Preserves (Held written known) (CryptInitializer.initializeWithKeyring new keyDescription) := by
  refine (triple_lift_held _).bind fun key => (triple_addByKey_held _ _).bind fun n => ?_
  refine (triple_call__held fun h h' hset => ?_).bind fun _ => triple_call__held fun h h' ha => ?_
  · cases hset
    rfl
  · exact jwe_of_assignKeyslot ha

theorem triple_bindNew_held (keyDescription : Option String)
    (clevisInfo : Option (String × Value)) :
    Triple (Held none known) (CryptInitializer.bindNew new keyDescription clevisInfo)
      (fun _ => Held (clevisInfo.map fun _ => new.jwe) known) fun _ => True := by
  cases keyDescription with
  | some keyDescription =>
    cases clevisInfo with
    | none => exact triple_initializeWithKeyring_held keyDescription
    | some info =>
      refine Triple.bind ?_ fun _ => triple_lift_held _
      refine (triple_initializeWithKeyring_held keyDescription).bind fun _ => ?_
      refine (triple_lift_held _).bind fun _ => (triple_lift_held _).bind fun key => ?_
      exact triple_clevisLuksBind_held new.toCryptIo _
  | none =>
    cases clevisInfo with
    | none => exact triple_panic fun _ _ => trivial
    | some info =>
      refine Triple.bind ?_ fun _ => triple_lift_held _
      refine (triple_lift_held _).bind fun _ => (triple_lift_held _).bind fun key => ?_
      refine (triple_addByKey_held _ _).bind fun n => ?_
      refine (triple_clevisLuksBind_held new.toCryptIo _).bind fun _ => ?_
      exact (triple_lift_held _).bind fun _ => triple_destroy_held _

theorem triple_initializeWithErr_held (keyDescription : Option String)
    (clevisInfo : Option (String × Value)) :
    Triple (Held written known)
      (CryptInitializer.initializeWithErr new keyDescription clevisInfo)
      (fun _ => Held (clevisInfo.map fun _ => new.jwe) known) fun _ => True := by
  have hformat : Triple (Held written known)
      (call_ new.toCryptIo new.format fun _ => some ⟨∅, none, none⟩)
      (fun _ => Held none known) fun _ => True := by
    refine triple_call_ (fun _ d hd h hh => ?_) fun _ _ _ => trivial
    cases hh
    exact ⟨rfl, hd.2⟩
  refine hformat.bind fun _ => (triple_bindNew_held keyDescription clevisInfo).bind fun _ => ?_
  exact (triple_lift_held _).bind fun _ => triple_lift_held _

theorem initializeHandle_eq_ok {path : String} {keyDescription : Option String}
    {clevisInfo : Option (String × Value)}
    (h : CryptInitializer.initializeHandle (pinDispatch codec) new path keyDescription clevisInfo =
      .ok d) :
    d.encryptionInfo.keyDescription = keyDescription ∧ d.jwe = clevisInfo.map (fun _ => new.jwe) ∧
      clevisInfoFromMetadata (pinDispatch codec) new.toCryptIo d.header =
        .ok d.encryptionInfo.clevisInfo := by
  obtain ⟨_, -, h⟩ := Outcome.bind_eq_ok.mp h
  obtain ⟨_, -, h⟩ := Outcome.bind_eq_ok.mp h
  obtain ⟨_, -, h⟩ := Outcome.bind_eq_ok.mp h
  split at h
  · rename_i device hdevice
    obtain ⟨_, -, h⟩ := Outcome.bind_eq_ok.mp h
    obtain ⟨_, -, h⟩ := Outcome.bind_eq_ok.mp h
    obtain ⟨info, hinfo, h⟩ := Outcome.bind_eq_ok.mp h
    cases h
    exact ⟨rfl, ((triple_initializeWithErr_held keyDescription clevisInfo).of_eq_ok
      ⟨rfl, rfl⟩ hdevice).1, hinfo⟩
  · obtain ⟨_, -, h⟩ := Outcome.bind_eq_ok.mp h
    cases h
  · cases h

/-- A new device is like the others exactly if the token that Clevis has written can be read and
says what was known. -/
theorem initializeHandle_consistent_iff {path : String} {info : EncryptionInfo}
    (h : CryptInitializer.initializeHandle (pinDispatch codec) new path info.keyDescription
      info.clevisInfo = .ok d) :
    d.encryptionInfo = info ∧ d.Truthful codec ↔
      ∀ ci, info.clevisInfo = some ci → new.jsonGet = true ∧ Describes codec new.jwe.header ci := by
  obtain ⟨hkd, hjwe, hread⟩ := initializeHandle_eq_ok h
  have hinfo : d.encryptionInfo = info ↔ d.encryptionInfo.clevisInfo = info.clevisInfo := by
    exact ⟨fun h => congrArg _ h, fun h => EncryptionInfo.ext hkd h⟩
  rw [hinfo]
  cases hci : info.clevisInfo with
  | none =>
    rw [hci] at hjwe
    rw [clevisInfoFromMetadata_of_none hjwe] at hread
    have hnone : d.encryptionInfo.clevisInfo = none := (ok.inj hread).symm
    exact ⟨fun _ ci h => (by cases h), fun _ => ⟨hnone, (truthful_of_none hjwe).mpr hnone⟩⟩
  | some ci =>
    rw [hci] at hjwe
    cases hjson : new.jsonGet with
    | false =>
      -- the token is there, but the handle does not know
      rw [clevisInfoFromMetadata_of_unread hjson] at hread
      rw [← ok.inj hread]
      exact ⟨fun h => (by cases h.1), fun h => (by cases (h ci rfl).1)⟩
    | true =>
      rw [clevisInfoFromMetadata_eq hjson, hjwe] at hread
      obtain ⟨read, hdesc, heq⟩ := Outcome.bind_eq_ok.mp hread
      rw [pinDispatch_eq_ok_iff] at hdesc
      have hknown : d.encryptionInfo.clevisInfo = some read := (ok.inj heq).symm
      rw [hknown]
      constructor
      · rintro ⟨hsame, -⟩ ci' hci'
        cases hsame
        cases hci'
        exact ⟨rfl, hdesc⟩
      · intro h
        rw [hdesc.unique (h ci rfl).2]
        exact ⟨rfl, (truthful_of_some hjwe).mpr ⟨read, hdesc, hknown⟩⟩

end

end CryptHandle

end Stratisd.Crypt
