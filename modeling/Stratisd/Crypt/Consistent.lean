import Stratisd.Crypt.Truthful

/-! Whether all devices of a manager are encrypted alike, and their handles know what is on the
devices. A bind keeps the configuration that was asked for, while all other operations read the
token back. The two differ if the token says less than the configuration did, and then the devices
differ once one is added. -/

namespace Stratisd.Crypt

open Run Run.Stateful Engine Media List CryptHandle

namespace BlockDevs

open CryptHandle (Truthful)

variable {codec : JweCodec}

def reported : Option CryptHandle → EncryptionInfo
  | some c => c.encryptionInfo
  | none => ⟨none, none⟩

structure Consistent (codec : JweCodec) (devs : BlockDevs) : Prop where
  uniform : ∀ d ∈ devs, ∀ d' ∈ devs, reported d = reported d'
  truthful : ∀ c, some c ∈ devs → c.Truthful codec

def Encrypted (devs : BlockDevs) : Prop := ∃ d ∈ devs, (reported d).isEncrypted

/-! ### Handles -/

theorem consistent_map_some {handles : List CryptHandle} :
    Consistent codec (handles.map some) ↔
      (∀ c ∈ handles, ∀ c' ∈ handles, c.encryptionInfo = c'.encryptionInfo) ∧
        ∀ c ∈ handles, c.Truthful codec := by
  constructor
  · rintro ⟨huniform, htruthful⟩
    exact ⟨fun c hc c' hc' => huniform _ (mem_map_of_mem hc) _ (mem_map_of_mem hc'),
      fun c hc => htruthful c (mem_map_of_mem hc)⟩
  · rintro ⟨huniform, htruthful⟩
    refine ⟨fun d hd d' hd' => ?_, fun c hc => ?_⟩
    · obtain ⟨c, hc, rfl⟩ := mem_map.mp hd
      obtain ⟨c', hc', rfl⟩ := mem_map.mp hd'
      exact huniform c hc c' hc'
    · obtain ⟨c', hc', heq⟩ := mem_map.mp hc
      cases heq
      exact htruthful c hc'

theorem encrypted_map_some {handles : List CryptHandle} {c : CryptHandle} (hc : c ∈ handles)
    (h : c.encryptionInfo.isEncrypted = true) : Encrypted (handles.map some) :=
  ⟨some c, mem_map_of_mem hc, h⟩

/-- All devices have the same, which is some encryption. -/
structure Alike (codec : JweCodec) (info : EncryptionInfo) (handles : List CryptHandle) : Prop where
  encrypted : info.isEncrypted = true
  same : ∀ c ∈ handles, c.encryptionInfo = info
  truthful : ∀ c ∈ handles, c.Truthful codec

theorem exists_handles {devs : BlockDevs} (h : ∀ d ∈ devs, d ≠ none) :
    ∃ handles : List CryptHandle, handles.map some = devs := by
  induction devs with
  | nil => exact ⟨[], rfl⟩
  | cons d devs ih =>
    obtain ⟨handles, rfl⟩ := ih fun d hd => h d (mem_cons_of_mem _ hd)
    obtain ⟨c, rfl⟩ := Option.ne_none_iff_exists'.mp (h d mem_cons_self)
    exact ⟨c :: handles, rfl⟩

theorem exists_alike {devs : BlockDevs} (hc : Consistent codec devs) (he : Encrypted devs) :
    ∃ d handles info, devs = (d :: handles).map some ∧ Alike codec info (d :: handles) := by
  obtain ⟨d₀, hd₀, henc⟩ := he
  -- a device without a handle reports nothing
  have hsome : ∀ d ∈ devs, d ≠ none := by
    rintro _ hd rfl
    rw [← hc.uniform _ hd d₀ hd₀] at henc
    cases henc
  obtain ⟨handles, rfl⟩ := exists_handles hsome
  obtain ⟨huniform, htruthful⟩ := consistent_map_some.mp hc
  obtain ⟨c₀, hc₀, rfl⟩ := mem_map.mp hd₀
  cases handles with
  | nil => cases hc₀
  | cons d handles =>
    exact ⟨d, handles, c₀.encryptionInfo, rfl, henc, fun c hc => huniform c hc c₀ hc₀, htruthful⟩

/-! ### Operations on all devices -/

theorem recorded_handles {p : ℕ → CryptHandle.M Unit} {i : ℕ} {handles : List CryptHandle}
    {devs : BlockDevs} (h : Recorded (fun i => onHandle (p i)) i (handles.map some) devs) :
    ∃ handles', devs = handles'.map some ∧ Recorded p i handles handles' := by
  induction handles generalizing i devs with
  | nil =>
    cases h
    exact ⟨[], rfl, .nil i⟩
  | cons c handles ih =>
    cases h with
    | cons hd hds =>
      obtain ⟨handles', rfl, hrec⟩ := ih hds
      obtain ⟨rfl, hok⟩ := Prod.mk.inj hd
      exact ⟨_ :: handles', rfl, .cons (Prod.ext rfl hok) hrec⟩

section Recorded

variable {p : ℕ → CryptHandle.M Unit} {handles handles' : List CryptHandle}
  (hrec : Recorded p 0 handles handles')

include hrec

theorem exists_of_mem_recorded {c' : CryptHandle} (hc' : c' ∈ handles') :
    ∃ i c, handles[i]? = some c ∧ p i c = (c', .ok ()) := by
  obtain ⟨i, hi⟩ := mem_iff_getElem?.mp hc'
  obtain ⟨c, hc, hact⟩ := hrec.exists_of_get hi
  exact ⟨i, c, hc, by rwa [Nat.zero_add] at hact⟩

theorem mem_recorded_of_get {i : ℕ} {c : CryptHandle} (hc : handles[i]? = some c) :
    ∃ c' ∈ handles', p i c = (c', .ok ()) := by
  obtain ⟨c', hc', hact⟩ := hrec.get hc
  exact ⟨c', mem_of_getElem? hc', by rwa [Nat.zero_add] at hact⟩

/-- All handles know the same afterwards, so it remains whether it is the truth. -/
theorem consistent_iff_of_recorded {info : EncryptionInfo} {T : ℕ → CryptHandle → Prop}
    (h : ∀ i c c', handles[i]? = some c → p i c = (c', .ok ()) →
      c'.encryptionInfo = info ∧ (c'.Truthful codec ↔ T i c)) :
    Consistent codec (handles'.map some) ↔ ∀ i c, handles[i]? = some c → T i c := by
  rw [consistent_map_some]
  constructor
  · rintro ⟨-, htruthful⟩ i c hc
    obtain ⟨c', hc', hact⟩ := mem_recorded_of_get hrec hc
    exact (h i c c' hc hact).2.mp (htruthful c' hc')
  · intro hT
    have hsame : ∀ c' ∈ handles', c'.encryptionInfo = info := fun c' hc' => by
      obtain ⟨i, c, hc, hact⟩ := exists_of_mem_recorded hrec hc'
      exact (h i c c' hc hact).1
    refine ⟨fun c hc c' hc' => (hsame c hc).trans (hsame c' hc').symm, fun c' hc' => ?_⟩
    obtain ⟨i, c, hc, hact⟩ := exists_of_mem_recorded hrec hc'
    exact (h i c c' hc hact).2.mpr (hT i c hc)

end Recorded

theorem isEncrypted_of_clevis (keyDescription : Option String) (clevisInfo : String × Value) :
    EncryptionInfo.isEncrypted ⟨keyDescription, some clevisInfo⟩ = true := by
  rw [EncryptionInfo.isEncrypted, Option.isSome_some, Bool.or_true]

theorem isEncrypted_of_key (keyDescription : String) (clevisInfo : Option (String × Value)) :
    EncryptionInfo.isEncrypted ⟨some keyDescription, clevisInfo⟩ = true := rfl

section Steps

variable {d : CryptHandle} {handles : List CryptHandle} {info : EncryptionInfo} {devs : BlockDevs}
  {io : ManagerIo} (ha : Alike codec info (d :: handles)) {p rollback : ℕ → CryptHandle.M Unit}

theorem loop_step {info' : EncryptionInfo} {T : ℕ → CryptHandle → Prop}
    (henc : info'.isEncrypted = true)
    (hloop : operationLoop (fun i => onHandle (p i)) (fun i => onHandle (rollback i))
      ((d :: handles).map some) = (devs, .ok ()))
    (h : ∀ i c c', (d :: handles)[i]? = some c → p i c = (c', .ok ()) →
      c'.encryptionInfo = info' ∧ (c'.Truthful codec ↔ T i c)) :
    Encrypted devs ∧
      (Consistent codec devs ↔ ∀ i c, (d :: handles)[i]? = some c → T i c) := by
  obtain ⟨handles', rfl, hrec⟩ := recorded_handles (recorded_of_operationLoop hloop)
  refine ⟨?_, consistent_iff_of_recorded hrec h⟩
  obtain ⟨d', hd', hact⟩ := mem_recorded_of_get hrec (show (d :: handles)[0]? = some d from rfl)
  refine encrypted_map_some hd' ?_
  rw [(h 0 d d' rfl hact).1]
  exact henc

theorem exists_first_of_loop
    (hloop : operationLoop (fun i => onHandle (p i)) (fun i => onHandle (rollback i))
      ((d :: handles).map some) = (devs, .ok ())) : ∃ d', p 0 d = (d', .ok ()) := by
  obtain ⟨handles', -, hrec⟩ := recorded_handles (recorded_of_operationLoop hloop)
  obtain ⟨d', -, hact⟩ := mem_recorded_of_get hrec (show (d :: handles)[0]? = some d from rfl)
  exact ⟨d', hact⟩

/-- After an unbinding the handle knows of no token, so there must be none. One without keyslots is
left. -/
theorem truthful_iff_of_clevisUnbind {io : CryptIo} {c c' : CryptHandle}
    (htruthful : c.Truthful codec) (hbound : c.encryptionInfo.clevisInfo ≠ none)
    (h : CryptHandle.clevisUnbind io c = (c', .ok ())) :
    c'.Truthful codec ↔ ∀ t, c.header.clevis = some t → t.keyslots ≠ [] := by
  obtain ⟨-, hinfo, t, ht, hnil, hne⟩ := clevisUnbind_eq_ok h
  by_cases hslots : t.keyslots = []
  · refine ⟨fun htruthful' => ?_, fun hall => absurd hslots (hall t ht)⟩
    cases hjwe : c.jwe with
    | none => exact absurd ((truthful_of_none hjwe).mp htruthful) hbound
    | some jwe =>
      obtain ⟨_, -, heq⟩ :=
        (truthful_of_some ((hnil hslots).trans hjwe)).mp htruthful'
      rw [hinfo] at heq
      cases heq
  · rw [truthful_of_none (hne hslots), hinfo]
    exact ⟨fun _ t' ht' => Option.some.inj (ht.symm.trans ht') ▸ hslots, fun _ => rfl⟩

include ha

theorem Alike.get {i : ℕ} {c : CryptHandle} (hc : (d :: handles)[i]? = some c) :
    c.encryptionInfo = info ∧ c.Truthful codec :=
  ⟨ha.same c (mem_of_getElem? hc), ha.truthful c (mem_of_getElem? hc)⟩

theorem Alike.encryptedApply :
    BlockDevs.encrypted ((d :: handles).map some) = ((d :: handles).map some, .ok info) := by
  have hd : d.encryptionInfo = info := ha.same d mem_cons_self
  have henc : d.encryptionInfo.isEncrypted = true := hd ▸ ha.encrypted
  rw [encrypted_apply henc, hd]

theorem Alike.unchanged :
    Encrypted ((d :: handles).map some) ∧ Consistent codec ((d :: handles).map some) := by
  have hd : d.encryptionInfo = info := ha.same d mem_cons_self
  refine ⟨encrypted_map_some mem_cons_self (hd ▸ ha.encrypted), consistent_map_some.mpr ?_⟩
  exact ⟨fun c hc c' hc' => (ha.same c hc).trans (ha.same c' hc').symm, ha.truthful⟩

theorem bindClevis_step {pin : String} {config : Value} {b : Bool}
    (h : bindClevis io pin config ((d :: handles).map some) = (devs, .ok b)) :
    Encrypted devs ∧ (Consistent codec devs ↔ (info.clevisInfo = none → ∀ parsed yes,
      interpretClevisConfig pin config = .ok (parsed, yes) →
        ∀ i < (d :: handles).length, Describes codec (io.act i).jwe.header (pin, parsed))) := by
  rw [bindClevis, bind_of_eq ha.encryptedApply] at h
  obtain ⟨_, ⟨parsed, yes⟩, hlift, hrest⟩ := bind_eq_ok.mp h
  obtain ⟨hinterpret, rfl⟩ := lift_eq_ok hlift
  cases hci : info.clevisInfo with
  | some existing =>
    have hsame : devs = (d :: handles).map some := by
      simp only [hci] at hrest
      split_ifs at hrest
      · exact (Prod.mk.inj hrest).1.symm
      · cases hrest
    rw [hsame]
    exact ⟨ha.unchanged.1, fun _ hnone => (by cases hnone), fun _ => ha.unchanged.2⟩
  | none =>
    simp only [hci] at hrest
    obtain ⟨_, _, hloop, hpure⟩ := bind_eq_ok.mp hrest
    cases hpure
    have hstep : Encrypted devs ∧ (Consistent codec devs ↔ ∀ i c, (d :: handles)[i]? = some c →
        Describes codec (io.act i).jwe.header (pin, parsed)) := by
      refine loop_step (isEncrypted_of_clevis info.keyDescription (pin, parsed)) hloop
        fun i c c' hc hact => ?_
      obtain ⟨parsed', yes', hinterpret', hjwe, hinfo⟩ := clevisBind_eq_ok hact
      rw [hinterpret] at hinterpret'
      cases hinterpret'
      rw [(ha.get hc).1] at hinfo
      refine ⟨hinfo, (truthful_of_some hjwe).trans ?_⟩
      rw [hinfo]
      exact ⟨fun ⟨_, hdesc, heq⟩ => Option.some.inj heq ▸ hdesc, fun hdesc => ⟨_, hdesc, rfl⟩⟩
    refine ⟨hstep.1, hstep.2.trans ⟨?_, ?_⟩⟩
    · intro hall _ parsed' yes' hinterpret' i hi
      rw [hinterpret] at hinterpret'
      cases hinterpret'
      exact hall i _ (List.getElem?_eq_getElem hi)
    · intro hall i c hc
      exact hall rfl parsed yes hinterpret i (List.getElem?_eq_some_iff.mp hc).1

theorem unbindClevis_step {b : Bool}
    (h : unbindClevis io ((d :: handles).map some) = (devs, .ok b)) :
    Encrypted devs ∧ (Consistent codec devs ↔ (info.clevisInfo ≠ none →
      ∀ c ∈ d :: handles, ∀ t, c.header.clevis = some t → t.keyslots ≠ [])) := by
  rw [unbindClevis, bind_of_eq ha.encryptedApply] at h
  cases hci : info.clevisInfo with
  | none =>
    simp only [hci] at h
    obtain rfl : devs = (d :: handles).map some := (Prod.mk.inj h).1.symm
    exact ⟨ha.unchanged.1, fun _ hne => absurd rfl hne, fun _ => ha.unchanged.2⟩
  | some known =>
    simp only [hci] at h
    obtain ⟨_, _, hloop, hpure⟩ := bind_eq_ok.mp h
    cases hpure
    have hkd : info.keyDescription.isSome := by
      obtain ⟨d', hact⟩ := exists_first_of_loop hloop
      rw [← ha.same d mem_cons_self]
      exact (clevisUnbind_eq_ok hact).1
    have henc : EncryptionInfo.isEncrypted ⟨info.keyDescription, none⟩ = true := by
      rw [EncryptionInfo.isEncrypted, hkd, Bool.true_or]
    have hstep : Encrypted devs ∧ (Consistent codec devs ↔ ∀ (i : ℕ) (c : CryptHandle),
        (d :: handles)[i]? = some c → ∀ t, c.header.clevis = some t → t.keyslots ≠ []) := by
      refine loop_step henc hloop fun i c c' hc hact => ?_
      obtain ⟨hinfo, htruthful⟩ := ha.get hc
      have hbound : c.encryptionInfo.clevisInfo ≠ none := by simp [hinfo, hci]
      refine ⟨?_, truthful_iff_of_clevisUnbind htruthful hbound hact⟩
      rw [(clevisUnbind_eq_ok hact).2.1, hinfo]
    refine ⟨hstep.1, hstep.2.trans ⟨?_, ?_⟩⟩
    · intro hall _ c hc
      obtain ⟨i, hi⟩ := mem_iff_getElem?.mp hc
      exact hall i c hi
    · intro hall i c hc
      exact hall (Option.some_ne_none known) c (mem_of_getElem? hc)

/-- A change of the keyring binding is done alike on all devices. -/
theorem keyring_step {info' : EncryptionInfo} (henc : info'.isEncrypted = true)
    (hci : info'.clevisInfo = info.clevisInfo)
    (hloop : operationLoop (fun i => onHandle (p i)) (fun i => onHandle (rollback i))
      ((d :: handles).map some) = (devs, .ok ()))
    (h : ∀ i c c', c.encryptionInfo = info → p i c = (c', .ok ()) →
      c'.jwe = c.jwe ∧ c'.encryptionInfo = info') :
    Encrypted devs ∧ Consistent codec devs := by
  have hstep : Encrypted devs ∧ (Consistent codec devs ↔ ∀ (i : ℕ) (c : CryptHandle),
      (d :: handles)[i]? = some c → True) := by
    refine loop_step henc hloop fun i c c' hc hact => ?_
    obtain ⟨hinfo, htruthful⟩ := ha.get hc
    obtain ⟨hjwe, hinfo'⟩ := h i c c' hinfo hact
    have hknown : c'.encryptionInfo.clevisInfo = c.encryptionInfo.clevisInfo := by
      rw [hinfo', hinfo, hci]
    exact ⟨hinfo', iff_true_intro (htruthful.congr hjwe hknown)⟩
  exact ⟨hstep.1, hstep.2.mpr fun _ _ _ => trivial⟩

theorem bindKeyring_step {keyDesc : String} {b : Bool}
    (h : bindKeyring io keyDesc ((d :: handles).map some) = (devs, .ok b)) :
    Encrypted devs ∧ Consistent codec devs := by
  rw [bindKeyring, bind_of_eq ha.encryptedApply] at h
  cases hkd : info.keyDescription with
  | some kd =>
    have hsame : devs = (d :: handles).map some := by
      simp only [hkd] at h
      split_ifs at h
      · exact (Prod.mk.inj h).1.symm
      · cases h
      · cases h
    rw [hsame]
    exact ha.unchanged
  | none =>
    simp only [hkd] at h
    obtain ⟨_, _, hloop, hpure⟩ := bind_eq_ok.mp h
    cases hpure
    exact keyring_step ha (isEncrypted_of_key keyDesc info.clevisInfo) rfl hloop
      fun i c c' hinfo hact => hinfo ▸ bindKeyring_eq_ok hact

theorem unbindKeyring_step {b : Bool}
    (h : unbindKeyring io ((d :: handles).map some) = (devs, .ok b)) :
    Encrypted devs ∧ Consistent codec devs := by
  rw [unbindKeyring, bind_of_eq ha.encryptedApply] at h
  cases hkd : info.keyDescription with
  | none =>
    simp only [hkd] at h
    obtain rfl : devs = (d :: handles).map some := (Prod.mk.inj h).1.symm
    exact ha.unchanged
  | some kd =>
    simp only [hkd] at h
    obtain ⟨_, _, hloop, hpure⟩ := bind_eq_ok.mp h
    cases hpure
    have henc : EncryptionInfo.isEncrypted ⟨none, info.clevisInfo⟩ = true := by
      obtain ⟨d', hact⟩ := exists_first_of_loop hloop
      rw [← ha.same d mem_cons_self]
      exact (unbindKeyring_eq_ok hact).1
    exact keyring_step ha henc rfl hloop
      fun i c c' hinfo hact => hinfo ▸ (unbindKeyring_eq_ok hact).2

theorem rebindKeyring_step {keyDesc : String} {b : Option Bool}
    (h : rebindKeyring io keyDesc ((d :: handles).map some) = (devs, .ok b)) :
    Encrypted devs ∧ Consistent codec devs := by
  rw [rebindKeyring, bind_of_eq ha.encryptedApply] at h
  cases hkd : info.keyDescription with
  | none =>
    simp only [hkd] at h
    obtain rfl : devs = (d :: handles).map some := (Prod.mk.inj h).1.symm
    exact ha.unchanged
  | some old =>
    simp only [hkd] at h
    split_ifs at h
    · obtain rfl : devs = (d :: handles).map some := (Prod.mk.inj h).1.symm
      exact ha.unchanged
    · obtain ⟨_, _, hloop, hpure⟩ := bind_eq_ok.mp h
      cases hpure
      exact keyring_step ha (isEncrypted_of_key keyDesc info.clevisInfo) rfl hloop
        fun i c c' hinfo hact => hinfo ▸ rebindKeyring_eq_ok hact

theorem rebindClevis_step
    (h : rebindClevis (pinDispatch codec) io ((d :: handles).map some) = (devs, .ok ())) :
    Encrypted devs ∧ (Consistent codec devs ↔
      ∃ read, ∀ i < (d :: handles).length, Describes codec (io.act i).jwe.header read) := by
  rw [rebindClevis, bind_of_eq ha.encryptedApply] at h
  split_ifs at h
  · cases h
  obtain ⟨_, _, htmp, hrest⟩ := bind_eq_ok.mp h
  obtain ⟨-, rfl⟩ := lift_eq_ok htmp
  rw [get_bind] at hrest
  obtain ⟨_, headers, hbackup, hloop⟩ := bind_eq_ok.mp hrest
  obtain ⟨-, rfl⟩ := lift_eq_ok hbackup
  obtain ⟨handles', rfl, hrec⟩ := recorded_handles (recorded_of_operationLoop hloop)
  have hread : ∀ i c c', (d :: handles)[i]? = some c →
      CryptHandle.rebindClevis (pinDispatch codec) (io.act i) c = (c', .ok ()) →
      ∃ read, Describes codec (io.act i).jwe.header read ∧
        c'.encryptionInfo = ⟨info.keyDescription, some read⟩ ∧ c'.Truthful codec := by
    intro i c c' hc hact
    obtain ⟨n, header, read, hreg, hr, -, hdesc, rfl⟩ := rebindClevis_eq_ok_iff.mp hact
    have hjwe : (CryptHandle.cached read { c with header }).jwe = some (io.act i).jwe :=
      jwe_of_clevisLuksRegen hr
    refine ⟨read, hdesc, ?_, (truthful_of_some hjwe).mpr ⟨read, hdesc, rfl⟩⟩
    rw [← (ha.get hc).1]
    rfl
  obtain ⟨d', hd', hact⟩ := mem_recorded_of_get hrec (show (d :: handles)[0]? = some d from rfl)
  obtain ⟨read, hdesc, hinfo, -⟩ := hread 0 d d' rfl hact
  refine ⟨encrypted_map_some hd' (hinfo ▸ isEncrypted_of_clevis info.keyDescription read), ?_⟩
  rw [consistent_map_some]
  constructor
  · rintro ⟨huniform, -⟩
    refine ⟨read, fun i hi => ?_⟩
    obtain ⟨c', hc', hact'⟩ := mem_recorded_of_get hrec (List.getElem?_eq_getElem hi)
    obtain ⟨read', hdesc', hinfo', -⟩ := hread i _ c' (List.getElem?_eq_getElem hi) hact'
    have heq := huniform c' hc' d' hd'
    rw [hinfo', hinfo] at heq
    cases heq
    exact hdesc'
  · rintro ⟨all, hall⟩
    have hsame : ∀ c' ∈ handles', c'.encryptionInfo = ⟨info.keyDescription, some all⟩ ∧
        c'.Truthful codec := by
      intro c' hc'
      obtain ⟨i, c, hc, hact'⟩ := exists_of_mem_recorded hrec hc'
      obtain ⟨read', hdesc', hinfo', htruthful⟩ := hread i c c' hc hact'
      rw [hdesc'.unique (hall i (List.getElem?_eq_some_iff.mp hc).1)] at hinfo'
      exact ⟨hinfo', htruthful⟩
    exact ⟨fun c hc c' hc' => (hsame c hc).1.trans (hsame c' hc').1.symm,
      fun c hc => (hsame c hc).2⟩

omit ha in
theorem initializeDevices_eq_ok {io : ℕ → InitIo} {i : ℕ} {paths : List String} {new : BlockDevs}
    (henc : info.isEncrypted = true)
    (h : initializeDevices (pinDispatch codec) io info i paths = .ok new) :
    ∃ news : List CryptHandle, new = news.map some ∧ news.length = paths.length ∧
      ∀ j c, news[j]? = some c → ∃ path, CryptInitializer.initializeHandle (pinDispatch codec)
        (io (i + j)) path info.keyDescription info.clevisInfo = .ok c := by
  induction paths generalizing i new with
  | nil =>
    cases h
    exact ⟨[], rfl, rfl, fun j c hc => by simp at hc⟩
  | cons path paths ih =>
    obtain ⟨dev, hone, hrest⟩ := Outcome.bind_eq_ok.mp h
    obtain ⟨devs, hdevs, heq⟩ := Outcome.bind_eq_ok.mp hrest
    cases heq
    obtain ⟨news, rfl, hlen, hnews⟩ := ih hdevs
    -- the first device has a handle
    rw [initializeOne, if_pos henc] at hone
    obtain ⟨c, hc, hmetadata⟩ := Outcome.bind_eq_ok.mp hone
    obtain ⟨_, -, hc⟩ := Outcome.bind_eq_ok.mp hc
    obtain ⟨c₀, hc₀, hc⟩ := Outcome.bind_eq_ok.mp hc
    obtain ⟨_, -, hc⟩ := Outcome.bind_eq_ok.mp hc
    obtain ⟨_, -, hc⟩ := Outcome.bind_eq_ok.mp hc
    obtain rfl := Outcome.ok.inj hc
    obtain rfl : some c₀ = dev := by
      split at hmetadata
      · exact Outcome.ok.inj hmetadata
      · cases hmetadata
      · cases hmetadata
    refine ⟨c₀ :: news, rfl, by rw [length_cons, length_cons, hlen], fun j c hc => ?_⟩
    cases j with
    | zero =>
      cases hc
      exact ⟨path, hc₀⟩
    | succ j =>
      obtain ⟨path', hp⟩ := hnews j c hc
      exact ⟨path', by rwa [Nat.add_assoc, Nat.add_comm 1] at hp⟩

theorem Alike.consistent_append {news : List CryptHandle} :
    Consistent codec ((d :: handles ++ news).map some) ↔
      ∀ c ∈ news, c.encryptionInfo = info ∧ c.Truthful codec := by
  have hd : d.encryptionInfo = info := ha.same d mem_cons_self
  rw [consistent_map_some]
  constructor
  · rintro ⟨huniform, htruthful⟩ c hc
    have hmem : c ∈ d :: handles ++ news := mem_append_right _ hc
    exact ⟨(huniform c hmem d mem_cons_self).trans hd, htruthful c hmem⟩
  · intro hnews
    have hall : ∀ c ∈ d :: handles ++ news, c.encryptionInfo = info ∧ c.Truthful codec := by
      intro c hc
      obtain hc | hc := mem_append.mp hc
      · exact ⟨ha.same c hc, ha.truthful c hc⟩
      · exact hnews c hc
    exact ⟨fun c hc c' hc' => (hall c hc).1.trans (hall c' hc').1.symm, fun c hc => (hall c hc).2⟩

theorem add_step {io : AddIo}
    (h : add (pinDispatch codec) io ((d :: handles).map some) = (devs, .ok ())) :
    Encrypted devs ∧ (Consistent codec devs ↔ ∀ paths known, io.verified = .ok paths →
      info.clevisInfo = some known → ∀ i < paths.length,
        (io.setUp i).jsonGet = true ∧ Describes codec (io.setUp i).jwe.header known) := by
  have hd : d.encryptionInfo = info := ha.same d mem_cons_self
  obtain ⟨_, paths, hpaths, hrest⟩ := bind_eq_ok.mp h
  obtain ⟨hverified, rfl⟩ := lift_eq_ok hpaths
  rw [get_bind] at hrest
  have hfirst : encryptionInfo ((d :: handles).map some) = .ok info := by
    rw [← hd]
    rfl
  rw [hfirst, lift_ok_bind] at hrest
  split_ifs at hrest
  · cases hrest
  obtain ⟨_, new, hlift, hmodify⟩ := bind_eq_ok.mp hrest
  obtain ⟨hnew, rfl⟩ := lift_eq_ok hlift
  obtain ⟨news, rfl, hlen, hnews⟩ := initializeDevices_eq_ok ha.encrypted hnew
  rw [modify_apply, ← map_append] at hmodify
  obtain rfl : (d :: handles ++ news).map some = devs := (Prod.mk.inj hmodify).1
  refine ⟨encrypted_map_some (mem_append_left _ mem_cons_self) (hd ▸ ha.encrypted),
    ha.consistent_append.trans ⟨?_, ?_⟩⟩
  · intro hall paths' known hpaths hknown i hi
    rw [hverified] at hpaths
    cases hpaths
    have hi' : i < news.length := by rwa [hlen]
    obtain ⟨path, hinit⟩ := hnews i _ (List.getElem?_eq_getElem hi')
    rw [Nat.zero_add] at hinit
    exact (initializeHandle_consistent_iff hinit).mp
      (hall _ (getElem_mem hi')) known hknown
  · intro hall c hc
    obtain ⟨i, hi⟩ := mem_iff_getElem?.mp hc
    obtain ⟨path, hinit⟩ := hnews i c hi
    rw [Nat.zero_add] at hinit
    refine (initializeHandle_consistent_iff hinit).mpr fun known hknown => ?_
    have hi' : i < paths.length := by
      rw [← hlen]
      exact (List.getElem?_eq_some_iff.mp hi).1
    exact hall paths known hverified hknown i hi'

end Steps

end BlockDevs

/-! ### Runs -/

open BlockDevs

/-- The configuration of Clevis that is known of the first device. -/
def BlockDevs.known : BlockDevs → Option (String × Value)
  | some c :: _ => c.encryptionInfo.clevisInfo
  | _ => none

/-- What Clevis writes says what the handles will know. A bind is for exactly the configuration that
the token of each device describes, a new binding describes the same on all devices, and the token
of a new device describes what was known. A token that is removed has a keyslot. -/
def Meets (codec : JweCodec) (devs : BlockDevs) : ManagerInput → Prop
  | .change ⟨.bindClevis pin config, io⟩ => devs.known = none → ∀ parsed yes,
      interpretClevisConfig pin config = .ok (parsed, yes) →
        ∀ i < devs.length, Describes codec (io.act i).jwe.header (pin, parsed)
  | .change ⟨.unbindClevis, _⟩ => devs.known ≠ none →
      ∀ c, some c ∈ devs → ∀ t, c.header.clevis = some t → t.keyslots ≠ []
  | .change ⟨.rebindClevis, io⟩ =>
      ∃ read, ∀ i < devs.length, Describes codec (io.act i).jwe.header read
  | .change _ => True
  | .add io => ∀ paths known, io.verified = .ok paths → devs.known = some known →
      ∀ i < paths.length,
        (io.setUp i).jsonGet = true ∧ Describes codec (io.setUp i).jwe.header known

variable {codec : JweCodec}

theorem consistent_step (devs : BlockDevs) (input : ManagerInput) (he : Encrypted devs)
    (hc : Consistent codec devs) {reply : Reply}
    (hok : (managerStep (pinDispatch codec) devs input).2 = .ok reply) :
    Encrypted (managerStep (pinDispatch codec) devs input).1 ∧
      (Consistent codec (managerStep (pinDispatch codec) devs input).1 ↔
        Meets codec devs input) := by
  obtain ⟨d, handles, info, rfl, ha⟩ := exists_alike hc he
  have hstep : managerStep (pinDispatch codec) ((d :: handles).map some) input = (_, .ok reply) :=
    Prod.ext rfl hok
  have hknown : BlockDevs.known ((d :: handles).map some) = info.clevisInfo := by
    rw [← ha.same d mem_cons_self]
    rfl
  have hlen : ((d :: handles).map some).length = (d :: handles).length := length_map _
  cases input with
  | change input =>
    obtain ⟨request, io⟩ := input
    cases request with
    | bindClevis pin config =>
      obtain ⟨b, h, -⟩ := map_eq_ok.mp hstep
      simp only [Meets, hknown, hlen]
      exact bindClevis_step ha h
    | unbindClevis =>
      obtain ⟨b, h, -⟩ := map_eq_ok.mp hstep
      obtain ⟨henc, hiff⟩ := unbindClevis_step ha h
      have hmem : ∀ c, some c ∈ (d :: handles).map some ↔ c ∈ d :: handles := fun c => by simp
      refine ⟨henc, hiff.trans ?_⟩
      simp only [Meets, hknown, hmem]
    | bindKeyring keyDesc =>
      obtain ⟨b, h, -⟩ := map_eq_ok.mp hstep
      exact (bindKeyring_step ha h).imp_right iff_true_intro
    | unbindKeyring =>
      obtain ⟨b, h, -⟩ := map_eq_ok.mp hstep
      exact (unbindKeyring_step ha h).imp_right iff_true_intro
    | rebindKeyring keyDesc =>
      obtain ⟨b, h, -⟩ := map_eq_ok.mp hstep
      exact (rebindKeyring_step ha h).imp_right iff_true_intro
    | rebindClevis =>
      obtain ⟨b, h, -⟩ := map_eq_ok.mp hstep
      simp only [Meets, hlen]
      exact rebindClevis_step ha h
  | add io =>
    obtain ⟨b, h, -⟩ := map_eq_ok.mp hstep
    simp only [Meets, hknown]
    exact add_step ha h

/-- In a run of calls that all return, the devices stay alike and their handles know the truth
exactly if each call meets the condition. -/
theorem consistent_run_iff (codec : JweCodec) (devs : BlockDevs) (inputs : List ManagerInput)
    (he : Encrypted devs) (hc : Consistent codec devs)
    (hok : ∀ p ∈ (run (managerStep (pinDispatch codec)) devs inputs).2, ∃ reply, p.2 = .ok reply) :
    (∀ js, js <+: inputs → Consistent codec (run (managerStep (pinDispatch codec)) devs js).1) ↔
      AllSteps (managerStep (pinDispatch codec)) (Meets codec) devs inputs :=
  forall_prefix_iff_allSteps _ (O := fun r => ∃ reply, r = .ok reply)
    (fun devs input he hc ⟨_, hok⟩ => consistent_step devs input he hc hok) he hc hok

/-- The answers while a new device is set up for the TPM. -/
def settingUp (config : Fields) : InitIo where
  toCryptIo := rebinding config
  devicePath := .ok ()
  init := .ok ()
  setMetadataSize := .ok ()
  format := .ok ()
  addByKey := .ok ()
  randKey := .ok [2]
  acquireBound := .ok ()
  jsonSet := .ok ()
  activate := .ok ()
  activatedPath := .ok ()
  deviceSize := .ok ()
  deviceNums := .ok ()
  initializeStratisMetadata := .ok ()
  cleanUp := none

def bindTpm2 (config : Fields) : ManagerInput :=
  .change ⟨.bindClevis "tpm2" (.object config), managerIo (rebinding config)⟩

def addOne (config : Fields) : ManagerInput := .add ⟨.ok ["/dev/sdc"], true, fun _ => settingUp config⟩

theorem boundOnce_consistent : Consistent codec [some boundOnce] := by
  refine (consistent_map_some : Consistent codec ([boundOnce].map some) ↔ _).mpr ⟨?_, ?_⟩
  · intro c hc c' hc'
    rw [mem_singleton.mp hc, mem_singleton.mp hc']
  · intro c hc
    rw [mem_singleton.mp hc]
    exact (truthful_of_none rfl).mpr rfl

theorem boundOnce_encrypted : Encrypted [some boundOnce] := ⟨_, mem_cons_self, rfl⟩

theorem run_outputs (config : Fields) :
    ∀ p ∈ (run (managerStep (pinDispatch plainCodec)) [some boundOnce]
      [bindTpm2 config, addOne config]).2, ∃ reply, p.2 = .ok reply := by
  have houtputs : (run (managerStep (pinDispatch plainCodec)) [some boundOnce]
      [bindTpm2 config, addOne config]).2 =
      [(bindTpm2 config, .ok (.changed true)), (addOne config, .ok .done)] := rfl
  intro p hp
  rw [houtputs] at hp
  simp only [mem_cons, not_mem_nil, or_false] at hp
  obtain rfl | rfl := hp
  · exact ⟨_, rfl⟩
  · exact ⟨_, rfl⟩

/-- Without a configuration of its own the pin is read back as it was asked for, by a device that is
added too. -/
theorem consistent_run_tpm2 :
    Consistent plainCodec (run (managerStep (pinDispatch plainCodec)) [some boundOnce]
      [bindTpm2 .nil, addOne .nil]).1 := by
  refine (consistent_run_iff plainCodec [some boundOnce] [bindTpm2 .nil, addOne .nil]
    boundOnce_encrypted boundOnce_consistent (run_outputs .nil)).mpr ⟨?_, ?_, trivial⟩ _
    List.prefix_rfl
  · intro _ parsed yes hparsed i _
    cases hparsed
    exact describes_tpm2Header .nil
  · intro paths known _ hknown i _
    obtain rfl : ("tpm2", Value.object .nil) = known := Option.some.inj hknown
    exact ⟨rfl, describes_tpm2Header .nil⟩

/-- The configuration names the registers that are measured, which can not be read back. A device
that is added has another configuration than the one that is there. -/
theorem bound_config_unread :
    Encrypted [some boundOnce] ∧ Consistent plainCodec [some boundOnce] ∧
    (∀ p ∈ (run (managerStep (pinDispatch plainCodec)) [some boundOnce]
      [bindTpm2 pcrIds, addOne pcrIds]).2, ∃ reply, p.2 = .ok reply) ∧
    ¬ Consistent plainCodec (run (managerStep (pinDispatch plainCodec)) [some boundOnce]
      [bindTpm2 pcrIds]).1 ∧
    (run (managerStep (pinDispatch plainCodec)) [some boundOnce]
      [bindTpm2 pcrIds, addOne pcrIds]).1.map reported =
        [⟨some "key", some ("tpm2", .object pcrIds)⟩, ⟨some "key", some ("tpm2", .object .nil)⟩] := by
  refine ⟨boundOnce_encrypted, boundOnce_consistent, run_outputs pcrIds, fun h => ?_, by rfl⟩
  have hmeets : Meets plainCodec [some boundOnce] (bindTpm2 pcrIds) :=
    (consistent_step [some boundOnce] (bindTpm2 pcrIds) boundOnce_encrypted boundOnce_consistent
      rfl).2.mp h
  have hdesc := hmeets rfl (.object pcrIds) false rfl 0 (by decide)
  exact absurd (hdesc.unique (describes_tpm2Header pcrIds)) (by decide)

end Stratisd.Crypt
