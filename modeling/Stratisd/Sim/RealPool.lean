import Stratisd.Crypt.Consistent
import Stratisd.Sim.SimEngine

/-! The real pools under the same requests. Where all operations on the devices succeed that the
daemon has no reason to refuse, a pool does what the request is for, except with configurations
and keys that the devices or the keyring do not accept as they are. -/

namespace Stratisd.Sim

open Run Run.Stateful Engine Media Crypt

/-- A request to a real pool, which hands it to the block devices of the data tier. -/
def perform (pinDispatch : Value → StratisResult (String × Value)) (io : ManagerIo) :
    Request → BlockDevs.M Action
  | .bindClevis pin clevisInfo => do
    let changed ← BlockDevs.bindClevis io pin clevisInfo
    pure (if changed then .created else .identity)
  | .unbindClevis => do
    let changed ← BlockDevs.unbindClevis io
    pure (if changed then .deleted else .identity)
  | .bindKeyring keyDesc => do
    let changed ← BlockDevs.bindKeyring io keyDesc
    pure (if changed then .created else .identity)
  | .unbindKeyring => do
    let changed ← BlockDevs.unbindKeyring io
    pure (if changed then .deleted else .identity)
  | .rebindKeyring keyDesc => do
    let changed ← BlockDevs.rebindKeyring io keyDesc
    match changed with
    | some true => pure .renamed
    | some false => pure .identity
    | none => pure .noSource
  | .rebindClevis => do
    BlockDevs.rebindClevis pinDispatch io
    pure .regenerated

/-! ### Operations that succeed -/

def onDevice (pinDispatch : Value → StratisResult (String × Value)) (io : CryptIo) :
    Request → CryptHandle.M Unit
  | .bindClevis pin clevisInfo => CryptHandle.clevisBind io pin clevisInfo
  | .unbindClevis => CryptHandle.clevisUnbind io
  | .bindKeyring keyDesc => CryptHandle.bindKeyring io keyDesc
  | .unbindKeyring => CryptHandle.unbindKeyring io
  | .rebindKeyring keyDesc => CryptHandle.rebindKeyring io keyDesc
  | .rebindClevis => CryptHandle.rebindClevis pinDispatch io

/-- The daemon itself has no reason to refuse it: the configuration can be interpreted, another
binding is left, the binding is there, and the keys are in the keyring. -/
def Admits (keys : List String) (info : EncryptionInfo) : Request → Prop
  | .bindClevis pin config => (∃ r, interpretClevisConfig pin config = .ok r) ∧
      ∃ keyDesc ∈ keys, info.keyDescription = some keyDesc
  | .unbindClevis => info.keyDescription.isSome
  | .bindKeyring keyDesc => keyDesc ∈ keys
  | .unbindKeyring => info.clevisInfo.isSome
  | .rebindKeyring keyDesc => keyDesc ∈ keys ∧ ∃ old ∈ keys, info.keyDescription = some old
  | .rebindClevis => info.clevisInfo.isSome

/-- The operations of the system succeed: what is not refused is done to each device, and the
devices can be unlocked. -/
structure RequestSucceeds (codec : JweCodec) (keys : List String) (devs : BlockDevs)
    (input : CryptInput) : Prop where
  canUnlock : input.io.canUnlock = true
  tmpDir : input.io.tmpDir = .ok ()
  backUp : ∀ i, input.io.backUp i = .ok ()
  device : ∀ i c, devs[i]? = some (some c) → Admits keys c.encryptionInfo input.request →
    (onDevice (pinDispatch codec) (input.io.act i) input.request c).2 = .ok ()

/-- The configuration of Clevis has nothing in it for the daemon and is what the new token says; the
keys are in the keyring; and a key description is replaced only if there is one. -/
def RequestAgrees (codec : JweCodec) (keys : List String) (info : EncryptionInfo)
    (devs : BlockDevs) (input : CryptInput) : Prop :=
  match input.request with
  | .bindClevis pin config => info.isEncrypted →
      interpretClevisConfig pin config = .ok (config, false) ∧
        (info.clevisInfo = none → ∀ keyDesc, info.keyDescription = some keyDesc → keyDesc ∈ keys)
  | .bindKeyring keyDesc => info.isEncrypted → info.keyDescription = none → keyDesc ∈ keys
  | .rebindKeyring keyDesc => info.isEncrypted → ∃ old, info.keyDescription = some old ∧
      (old ≠ keyDesc → old ∈ keys ∧ keyDesc ∈ keys)
  | .rebindClevis => ∀ known, info.clevisInfo = some known →
      ∀ i < devs.length, Describes codec (input.io.act i).jwe.header known
  | _ => True

/-! ### Devices that are all alike -/

namespace BlockDevs

open BlockDevs

variable {devs : BlockDevs} {info info' : EncryptionInfo} (h : Uniform info (devs.map reported))

include h

theorem encryptionInfo_eq : encryptionInfo devs = .ok info := by
  cases devs with
  | nil => exact absurd rfl h.1
  | cons d ds =>
    have hd : reported d = info := h.2 _ List.mem_cons_self
    cases d with
    | none => exact congrArg Outcome.ok hd
    | some c => exact congrArg Outcome.ok hd

theorem encrypted_eq (henc : info.isEncrypted = true) : encrypted devs = (devs, .ok info) := by
  rw [encrypted, get_bind, encryptionInfo_eq h, lift_ok_bind, if_pos henc]
  rfl

theorem encrypted_plain (henc : ¬ info.isEncrypted) : encrypted devs =
    (devs, .err (.msg "Requested pool does not appear to be encrypted")) := by
  rw [encrypted, get_bind, encryptionInfo_eq h, lift_ok_bind, if_neg henc]
  rfl

theorem exists_handle (henc : info.isEncrypted = true) {i : ℕ} {d : Option CryptHandle}
    (hd : devs[i]? = some d) : ∃ c, d = some c ∧ c.encryptionInfo = info := by
  have hinfo : reported d = info := h.2 _ (List.mem_map_of_mem (List.mem_of_getElem? hd))
  cases d with
  | none =>
    rw [← hinfo] at henc
    cases henc
  | some c => exact ⟨c, rfl, hinfo⟩

/-- An operation that is done on every device. -/
theorem operationLoop_uniform (henc : info.isEncrypted = true) {p : ℕ → CryptHandle.M Unit}
    (hok : ∀ i c, devs[i]? = some (some c) → c.encryptionInfo = info → (p i c).2 = .ok ())
    (hinfo : ∀ i c c', devs[i]? = some (some c) → c.encryptionInfo = info →
      p i c = (c', .ok ()) → c'.encryptionInfo = info') :
    ∃ devs', (∀ rollback, operationLoop (fun i => onHandle (p i)) rollback devs = (devs', .ok ())) ∧
      Uniform info' (devs'.map reported) := by
  have hall : ∀ j d, devs[j]? = some d → (onHandle (p (0 + j)) d).2 = .ok () := by
    intro j d hd
    obtain ⟨c, rfl, hc⟩ := exists_handle h henc hd
    rw [Nat.zero_add]
    exact hok j c hd hc
  have hrec : Recorded (fun i => onHandle (p i)) 0 devs _ := recorded_mapIdx hall
  refine ⟨_, fun _ => operationLoop_of_recorded hrec, ?_, ?_⟩
  · intro hnil
    have hlen := hrec.length_eq
    rw [List.map_eq_nil_iff.mp hnil] at hlen
    exact h.1 (List.map_eq_nil_iff.mpr (List.length_eq_zero_iff.mp hlen))
  · intro i hi
    obtain ⟨d', hd', rfl⟩ := List.mem_map.mp hi
    obtain ⟨j, hj⟩ := List.mem_iff_getElem?.mp hd'
    obtain ⟨d, hd, hact⟩ := hrec.exists_of_get hj
    obtain ⟨c, rfl, hc⟩ := exists_handle h henc hd
    obtain ⟨rfl, hres⟩ := Prod.mk.inj hact
    rw [Nat.zero_add] at hres ⊢
    exact hinfo j c _ hd hc (Prod.ext rfl hres)

theorem operationLoop_refused (henc : info.isEncrypted = true) (p : ℕ → CryptHandle.M Unit)
    (hp : ∀ c : CryptHandle, c.encryptionInfo = info → ∃ e, p 0 c = (c, .err e)) :
    ∃ e, ∀ rollback, operationLoop (fun i => onHandle (p i)) rollback devs = (devs, .err e) := by
  cases devs with
  | nil => exact absurd rfl h.1
  | cons d ds =>
    obtain ⟨c, rfl, hc⟩ := exists_handle h henc (show (d :: ds)[0]? = some d from rfl)
    obtain ⟨e, he⟩ := hp c hc
    have hnone : Recorded (fun i => onHandle (p i)) 0 [] [] := .nil 0
    refine ⟨e, fun rollback => operationLoop_of_err hnone ?_⟩
    rw [List.length_nil, onHandle, he]

end BlockDevs

/-! ### What a real pool does -/

/-- A real pool does what the request is for, and its devices stay alike. -/
def Performs (codec : JweCodec) (io : ManagerIo) (devs : BlockDevs) (info : EncryptionInfo)
    (request : Request) : Prop :=
  ∃ info', Uniform info' ((perform (pinDispatch codec) io request devs).1.map BlockDevs.reported) ∧
    Follows info request info' (perform (pinDispatch codec) io request devs).2

section perform

open BlockDevs

variable {codec : JweCodec} {keys : List String} {devs : BlockDevs} {info : EncryptionInfo}
  {io : ManagerIo}

theorem Performs.of_eq {request : Request} {devs' : BlockDevs} {info' : EncryptionInfo}
    {answer : StratisResult Action}
    (hp : perform (pinDispatch codec) io request devs = (devs', answer))
    (hu : Uniform info' (devs'.map reported)) (hf : Follows info request info' answer) :
    Performs codec io devs info request := by
  rw [Performs, hp]
  exact ⟨info', hu, hf⟩

theorem Performs.of_refused {α : Type} {request : Request} {p : M α} {g : α → M Action}
    {e : StratisError} (hperform : perform (pinDispatch codec) io request = p >>= g)
    (hp : p devs = (devs, .err e)) (hu : Uniform info (devs.map reported))
    (heffect : effect info request = none) : Performs codec io devs info request := by
  refine .of_eq ?_ hu (.of_none heffect e)
  rw [hperform, bind_of_err (congrArg Prod.snd hp), hp]

variable (h : Uniform info (devs.map reported))

include h

theorem perform_plain (henc : ¬ info.isEncrypted) (request : Request) :
    perform (pinDispatch codec) io request devs =
      (devs, .err (.msg "Requested pool does not appear to be encrypted")) := by
  have hplain := encrypted_plain h henc
  have hrefused : ∀ {α : Type} (f : EncryptionInfo → M α) (g : α → M Action),
      ((encrypted >>= f) >>= g) devs =
        (devs, .err (.msg "Requested pool does not appear to be encrypted")) := by
    intro α f g
    have hfirst : (encrypted >>= f) devs =
        (devs, .err (.msg "Requested pool does not appear to be encrypted")) := by
      rw [bind_of_err (congrArg Prod.snd hplain), hplain]
    rw [bind_of_err (congrArg Prod.snd hfirst), hfirst]
  cases request with
  | bindClevis pin config => exact hrefused _ _
  | unbindClevis => exact hrefused _ _
  | bindKeyring keyDesc => exact hrefused _ _
  | unbindKeyring => exact hrefused _ _
  | rebindKeyring keyDesc => exact hrefused _ _
  | rebindClevis => exact hrefused _ _

omit h in
theorem effect_plain (henc : ¬ info.isEncrypted) (request : Request) :
    effect info request = none := by
  obtain ⟨key, clevis⟩ := info
  have hnone : key = none ∧ clevis = none := by
    simpa [EncryptionInfo.isEncrypted] using henc
  obtain ⟨rfl, rfl⟩ := hnone
  cases request <;> rfl

/-- One of the operations on all devices, when it is admitted. -/
theorem loop_follows (henc : info.isEncrypted = true) {request : Request} {info' : EncryptionInfo}
    (hs : RequestSucceeds codec keys devs ⟨request, io⟩) (hadmits : Admits keys info request)
    (hinfo : ∀ i c c', devs[i]? = some (some c) → c.encryptionInfo = info →
      onDevice (pinDispatch codec) (io.act i) request c = (c', .ok ()) →
        c'.encryptionInfo = info') :
    ∃ devs', (∀ rollback, operationLoop
        (fun i => onHandle (onDevice (pinDispatch codec) (io.act i) request)) rollback devs =
      (devs', .ok ())) ∧ Uniform info' (devs'.map reported) := by
  refine operationLoop_uniform h henc (fun i c hc hknown => ?_) hinfo
  refine hs.device i c hc ?_
  rw [hknown]
  exact hadmits

theorem performs_bindClevis (henc : info.isEncrypted = true) {pin : String} {config : Value}
    (hs : RequestSucceeds codec keys devs ⟨.bindClevis pin config, io⟩)
    (ha : RequestAgrees codec keys info devs ⟨.bindClevis pin config, io⟩) :
    Performs codec io devs info (.bindClevis pin config) := by
  have hread := encrypted_eq h henc
  obtain ⟨hinterpret, hkeys⟩ := ha henc
  rcases hc : info.clevisInfo with _ | ⟨existingPin, existingInfo⟩
  · obtain ⟨keyDesc, hkd⟩ : ∃ keyDesc, info.keyDescription = some keyDesc := by
      refine Option.isSome_iff_exists.mp ?_
      simpa [EncryptionInfo.isEncrypted, hc] using henc
    have hset : ∀ i c c', devs[i]? = some (some c) → c.encryptionInfo = info →
        CryptHandle.clevisBind (io.act i) pin config c = (c', .ok ()) →
        c'.encryptionInfo = ⟨info.keyDescription, some (pin, config)⟩ := by
      intro i c c' _ hknown hact
      obtain ⟨parsed, yes, hparsed, -, hinfo⟩ := CryptHandle.clevisBind_eq_ok hact
      rw [hinterpret] at hparsed
      cases hparsed
      rw [hinfo, hknown]
    obtain ⟨devs', hloop, hu⟩ := loop_follows h henc hs
      ⟨⟨_, hinterpret⟩, keyDesc, hkeys hc keyDesc hkd, hkd⟩ hset
    have hbind : bindClevis io pin config devs = (devs', .ok true) := by
      rw [bindClevis, bind_of_eq hread, hinterpret, lift_ok_bind, hc]
      exact bind_of_eq (hloop _) _
    exact .of_eq (bind_of_eq hbind _) hu (.of_some (by simp [effect, henc, hc]))
  · have hcheck : configToCheck false existingInfo = existingInfo := rfl
    by_cases hsame : (existingPin, existingInfo) = (pin, config)
    · have hbind : bindClevis io pin config devs = (devs, .ok false) := by
        rw [bindClevis, bind_of_eq hread, hinterpret, lift_ok_bind, hc]
        simp only [hcheck]
        rw [if_pos ⟨hsame, hs.canUnlock⟩]
        rfl
      exact .of_eq (bind_of_eq hbind _) h (.of_some (by simp [effect, henc, hc, hsame]))
    · obtain ⟨e, hbind⟩ : ∃ e, bindClevis io pin config devs = (devs, .err e) := by
        rw [bindClevis, bind_of_eq hread, hinterpret, lift_ok_bind, hc]
        simp only [hcheck]
        rw [if_neg fun hboth => hsame hboth.1]
        exact ⟨_, rfl⟩
      exact .of_refused rfl hbind h (by simp [effect, hc, hsame])

theorem performs_unbindClevis (henc : info.isEncrypted = true)
    (hs : RequestSucceeds codec keys devs ⟨.unbindClevis, io⟩) :
    Performs codec io devs info .unbindClevis := by
  have hread := encrypted_eq h henc
  obtain ⟨key, clevis⟩ := info
  cases clevis with
  | none =>
    have hunbind : unbindClevis io devs = (devs, .ok false) := bind_of_eq hread _
    cases key with
    | none => cases henc
    | some keyDesc => exact .of_eq (bind_of_eq hunbind _) h (.of_some rfl)
  | some known =>
    cases key with
    | none =>
      -- the first device is not left without a binding
      have hfirst : ∀ c : CryptHandle, c.encryptionInfo = ⟨none, some known⟩ →
          ∃ e, CryptHandle.clevisUnbind (io.act 0) c = (c, .err e) := by
        intro c hc
        rw [CryptHandle.clevisUnbind, get_bind, hc]
        exact ⟨_, rfl⟩
      obtain ⟨e, hloop⟩ := operationLoop_refused h henc
        (fun i => CryptHandle.clevisUnbind (io.act i)) hfirst
      have hunbind : unbindClevis io devs = (devs, .err e) := by
        rw [unbindClevis, bind_of_eq hread]
        simp only
        rw [bind_of_err (congrArg Prod.snd (hloop _)), hloop]
      exact .of_refused rfl hunbind h rfl
    | some keyDesc =>
      obtain ⟨devs', hloop, hu⟩ := loop_follows h henc hs rfl fun i c c' _ hknown hact => by
        have hinfo := (CryptHandle.clevisUnbind_eq_ok hact).2.1
        rw [hknown] at hinfo
        exact hinfo
      have hunbind : unbindClevis io devs = (devs', .ok true) := by
        rw [unbindClevis, bind_of_eq hread]
        exact bind_of_eq (hloop _) _
      exact .of_eq (bind_of_eq hunbind _) hu (.of_some rfl)

theorem performs_bindKeyring (henc : info.isEncrypted = true) {keyDesc : String}
    (hs : RequestSucceeds codec keys devs ⟨.bindKeyring keyDesc, io⟩)
    (ha : RequestAgrees codec keys info devs ⟨.bindKeyring keyDesc, io⟩) :
    Performs codec io devs info (.bindKeyring keyDesc) := by
  have hread := encrypted_eq h henc
  rcases hk : info.keyDescription with _ | known
  · obtain ⟨devs', hloop, hu⟩ := loop_follows h henc hs (ha henc hk)
      fun i c c' _ hknown hact => by
        have hinfo := (CryptHandle.bindKeyring_eq_ok hact).2
        rw [hknown] at hinfo
        exact hinfo
    have hbind : bindKeyring io keyDesc devs = (devs', .ok true) := by
      rw [bindKeyring, bind_of_eq hread, hk]
      exact bind_of_eq (hloop _) _
    exact .of_eq (bind_of_eq hbind _) hu (.of_some (by simp [effect, henc, hk]))
  · by_cases hsame : known = keyDesc
    · have hbind : bindKeyring io keyDesc devs = (devs, .ok false) := by
        rw [bindKeyring, bind_of_eq hread, hk]
        simp only
        rw [if_pos hsame, if_pos hs.canUnlock]
        rfl
      exact .of_eq (bind_of_eq hbind _) h (.of_some (by simp [effect, henc, hk, hsame]))
    · obtain ⟨e, hbind⟩ : ∃ e, bindKeyring io keyDesc devs = (devs, .err e) := by
        rw [bindKeyring, bind_of_eq hread, hk]
        simp only
        rw [if_neg hsame]
        exact ⟨_, rfl⟩
      exact .of_refused rfl hbind h (by simp [effect, hk, hsame])

theorem performs_unbindKeyring (henc : info.isEncrypted = true)
    (hs : RequestSucceeds codec keys devs ⟨.unbindKeyring, io⟩) :
    Performs codec io devs info .unbindKeyring := by
  have hread := encrypted_eq h henc
  obtain ⟨key, clevis⟩ := info
  cases key with
  | none =>
    have hunbind : unbindKeyring io devs = (devs, .ok false) := bind_of_eq hread _
    cases clevis with
    | none => cases henc
    | some known => exact .of_eq (bind_of_eq hunbind _) h (.of_some rfl)
  | some keyDesc =>
    cases clevis with
    | none =>
      have hfirst : ∀ c : CryptHandle, c.encryptionInfo = ⟨some keyDesc, none⟩ →
          ∃ e, CryptHandle.unbindKeyring (io.act 0) c = (c, .err e) := by
        intro c hc
        rw [CryptHandle.unbindKeyring, get_bind, hc]
        exact ⟨_, rfl⟩
      obtain ⟨e, hloop⟩ := operationLoop_refused h henc
        (fun i => CryptHandle.unbindKeyring (io.act i)) hfirst
      have hunbind : unbindKeyring io devs = (devs, .err e) := by
        rw [unbindKeyring, bind_of_eq hread]
        simp only
        rw [bind_of_err (congrArg Prod.snd (hloop _)), hloop]
      exact .of_refused rfl hunbind h rfl
    | some known =>
      obtain ⟨devs', hloop, hu⟩ := loop_follows h henc hs rfl fun i c c' _ hknown hact => by
        have hinfo := (CryptHandle.unbindKeyring_eq_ok hact).2.2
        rw [hknown] at hinfo
        exact hinfo
      have hunbind : unbindKeyring io devs = (devs', .ok true) := by
        rw [unbindKeyring, bind_of_eq hread]
        exact bind_of_eq (hloop _) _
      exact .of_eq (bind_of_eq hunbind _) hu (.of_some rfl)

theorem performs_rebindKeyring (henc : info.isEncrypted = true) {keyDesc : String}
    (hs : RequestSucceeds codec keys devs ⟨.rebindKeyring keyDesc, io⟩)
    (ha : RequestAgrees codec keys info devs ⟨.rebindKeyring keyDesc, io⟩) :
    Performs codec io devs info (.rebindKeyring keyDesc) := by
  have hread := encrypted_eq h henc
  obtain ⟨old, hk, hkeys⟩ := ha henc
  by_cases hsame : old = keyDesc
  · have hrebind : rebindKeyring io keyDesc devs = (devs, .ok (some false)) := by
      rw [rebindKeyring, bind_of_eq hread, hk]
      simp only
      rw [if_pos hsame]
      rfl
    exact .of_eq (bind_of_eq hrebind _) h (.of_some (by simp [effect, hk, hsame]))
  · obtain ⟨hold, hnew⟩ := hkeys hsame
    obtain ⟨devs', hloop, hu⟩ := loop_follows h henc hs ⟨hnew, old, hold, hk⟩
      fun i c c' _ hknown hact => by
        have hinfo := (CryptHandle.rebindKeyring_eq_ok hact).2
        rw [hknown] at hinfo
        exact hinfo
    have hrebind : rebindKeyring io keyDesc devs = (devs', .ok (some true)) := by
      rw [rebindKeyring, bind_of_eq hread, hk]
      simp only
      rw [if_neg hsame]
      exact bind_of_eq (hloop _) _
    exact .of_eq (bind_of_eq hrebind _) hu (.of_some (by simp [effect, hk, hsame]))

theorem exists_backUpHeaders (henc : info.isEncrypted = true) (hback : ∀ i, io.backUp i = .ok ()) :
    ∃ headers, backUpHeaders io 0 devs = .ok headers := by
  have hsome : ∀ d ∈ devs, d ≠ none := by
    intro d hd
    obtain ⟨i, hi⟩ := List.mem_iff_getElem?.mp hd
    obtain ⟨c, rfl, -⟩ := exists_handle h henc hi
    exact Option.some_ne_none c
  obtain ⟨handles, rfl⟩ := exists_handles hsome
  exact ⟨_, backUpHeaders_of_ok fun j _ => hback (0 + j)⟩

theorem performs_rebindClevis (henc : info.isEncrypted = true)
    (hs : RequestSucceeds codec keys devs ⟨.rebindClevis, io⟩)
    (ha : RequestAgrees codec keys info devs ⟨.rebindClevis, io⟩) :
    Performs codec io devs info .rebindClevis := by
  have hread := encrypted_eq h henc
  rcases hc : info.clevisInfo with _ | known
  · obtain ⟨e, hrebind⟩ : ∃ e, rebindClevis (pinDispatch codec) io devs =
        (devs, .err e) := by
      rw [rebindClevis, bind_of_eq hread, hc]
      exact ⟨_, rfl⟩
    exact .of_refused rfl hrebind h (by simp [effect, hc])
  · obtain ⟨headers, hheaders⟩ := exists_backUpHeaders h henc hs.backUp
    -- what is read back is what has been known
    have hset : ∀ i c c', devs[i]? = some (some c) → c.encryptionInfo = info →
        CryptHandle.rebindClevis (pinDispatch codec) (io.act i) c = (c', .ok ()) →
        c'.encryptionInfo = info := by
      intro i c c' hi hknown hact
      obtain ⟨n, header, read, -, -, -, hdesc, rfl⟩ := CryptHandle.rebindClevis_eq_ok_iff.mp hact
      have hi' : i < devs.length := (List.getElem?_eq_some_iff.mp hi).1
      rw [hdesc.unique (ha known hc i hi')]
      exact EncryptionInfo.ext (show c.encryptionInfo.keyDescription = _ by rw [hknown]) hc.symm
    obtain ⟨devs', hloop, hu⟩ := loop_follows h henc hs (show info.clevisInfo.isSome by rw [hc]; rfl)
      hset
    have hrebind : rebindClevis (pinDispatch codec) io devs = (devs', .ok ()) := by
      rw [rebindClevis, bind_of_eq hread, hc]
      simp only [Option.isNone_some, Bool.false_eq_true, if_false]
      rw [show io.tmpDir = .ok () from hs.tmpDir, lift_ok_bind, get_bind, hheaders]
      exact hloop _
    exact .of_eq (bind_of_eq hrebind _) hu (.of_some (by simp [effect, hc]))

theorem perform_follows (request : Request)
    (hs : RequestSucceeds codec keys devs ⟨request, io⟩)
    (ha : RequestAgrees codec keys info devs ⟨request, io⟩) :
    Performs codec io devs info request := by
  by_cases henc : info.isEncrypted
  · cases request with
    | bindClevis pin config => exact performs_bindClevis h henc hs ha
    | unbindClevis => exact performs_unbindClevis h henc hs
    | bindKeyring keyDesc => exact performs_bindKeyring h henc hs ha
    | unbindKeyring => exact performs_unbindKeyring h henc hs
    | rebindKeyring keyDesc => exact performs_rebindKeyring h henc hs ha
    | rebindClevis => exact performs_rebindClevis h henc hs ha
  · exact .of_eq (perform_plain h henc request) h (.of_none (effect_plain henc request) _)

end perform

end Stratisd.Sim
