import Stratisd.Crypt.Bindings
import Stratisd.Crypt.Manager
import Stratisd.Run.Triple

/-! Whether a device can lose all its keyslots. The handle refuses to remove the last binding that
it knows of, so a device is safe as long as each binding that the handle knows of is there. A call
that fails after the keyring token has lost its keyslots breaks this: the handle goes on with a
key description that stands for nothing. -/

namespace Stratisd.Crypt

open Run Run.Stateful Engine Media CryptHandle List

/-- The calls that finish a change of the keyring token do not fail. Writing the token may fail if
the old one keeps its keyslots. -/
structure CryptIo.Finishes (io : CryptIo) : Prop where
  assignKeyslot : io.assignKeyslot = .ok ()
  removeToken : io.removeToken = .ok ()
  luks2KeyringSet : io.luks2KeyringSet = .ok () ∨ io.keepsTokens = true

namespace CryptHandle

open Stateful (Triple Keeps)

/-- The bindings that the handle knows of are there, and there is one at least. -/
structure Sound (d : CryptHandle) : Prop where
  well : d.header.WellAssigned
  keyring : d.encryptionInfo.keyDescription.isSome → d.header.HasKeyring
  clevis : d.encryptionInfo.clevisInfo.isSome → d.header.HasClevis
  encrypted : d.encryptionInfo.isEncrypted

variable {d : CryptHandle}

theorem Sound.unlockable (h : d.Sound) : d.header.Unlockable := by
  have henc := h.encrypted
  rw [EncryptionInfo.isEncrypted, Bool.or_eq_true] at henc
  obtain hk | hc := henc
  · exact h.well.unlockable_of_keyring (h.keyring hk)
  · exact h.well.unlockable_of_clevis (h.clevis hc)

variable {io : CryptIo}

/-! ### Single calls -/

theorem triple_call {α : Type} {answer : StratisResult Unit}
    {change : Luks2Header → Option (Luks2Header × α)} {P E : CryptHandle → Prop}
    {Q : α → CryptHandle → Prop}
    (hok : answer = .ok () → ∀ d, P d → ∀ h a, change d.header = some (h, a) →
      Q a { d with header := h })
    (hfail : ∀ d, P d → (answer = .ok () → change d.header = none) → E d) :
    Triple P (call io answer change) Q E := by
  intro d hd
  unfold call
  cases answer with
  | err e => exact hfail d hd fun h => by cases h
  | panic => exact hfail d hd fun h => by cases h
  | ok u =>
    rw [lift_ok_bind, get_bind]
    cases hc : change d.header with
    | none => exact hfail d hd fun _ => hc
    | some r => exact hok rfl d hd r.1 r.2 hc

theorem triple_call_ {answer : StratisResult Unit} {change : Luks2Header → Option Luks2Header}
    {P E : CryptHandle → Prop} {Q : Unit → CryptHandle → Prop}
    (hok : answer = .ok () → ∀ d, P d → ∀ h, change d.header = some h → Q () { d with header := h })
    (hfail : ∀ d, P d → (answer = .ok () → change d.header = none) → E d) :
    Triple P (call_ io answer change) Q E := by
  refine triple_call (fun ha d hd h u hc => ?_) fun d hd hc => hfail d hd fun ha => ?_
  · obtain ⟨h', hc', heq⟩ := Option.map_eq_some_iff.mp hc
    cases heq
    exact hok ha d hd h hc'
  · exact Option.map_eq_none_iff.mp (hc ha)

theorem triple_clevisKeyslots {P : CryptHandle → Prop} :
    Triple P (clevisKeyslots io) (fun r d => P d ∧ ∀ l, r = some l →
      ∃ c, d.header.clevis = some c ∧ c.keyslots = l) P := by
  unfold clevisKeyslots
  refine (triple_lift fun _ hd => hd).bind fun _ => ?_
  refine triple_get_bind fun d hd => triple_pure ?_
  rintro d' rfl
  refine ⟨hd.2, fun l hl => ?_⟩
  unfold keyslotsOf at hl
  split_ifs at hl
  exact Option.map_eq_some_iff.mp hl

/-! ### Clevis -/

theorem isSome_of_not_isNone {α : Type} {x : Option α} (h : ¬ x.isNone = true) :
    x.isSome = true := by
  cases x with
  | none => exact absurd rfl h
  | some _ => rfl

theorem Sound.of_header (hd : d.Sound) {h : Luks2Header} (hw : h.WellAssigned)
    (hk : d.header.HasKeyring → h.HasKeyring) (hc : d.header.HasClevis → h.HasClevis) :
    Sound { d with header := h } :=
  ⟨hw, fun hs => hk (hd.keyring hs), fun hs => hc (hd.clevis hs), hd.encrypted⟩

theorem hasKeyring_of_eq {h h' : Luks2Header} (heq : h'.keyring = h.keyring) :
    h.HasKeyring → h'.HasKeyring := fun ⟨t, ht, hne⟩ => ⟨t, heq ▸ ht, hne⟩

theorem hasClevis_of_eq {h h' : Luks2Header} (heq : h'.clevis = h.clevis) :
    h.HasClevis → h'.HasClevis := fun hc => by
  rw [Luks2Header.HasClevis, heq]
  exact hc

/-- The Clevis binding is there, whether the handle knows of it or not. -/
structure OnClevis (d : CryptHandle) : Prop where
  sound : d.Sound
  clevis : d.header.HasClevis

theorem OnClevis.sound_some (h : d.OnClevis) (info : String × Value) :
    Sound { d with encryptionInfo := { d.encryptionInfo with clevisInfo := some info } } :=
  ⟨h.sound.well, h.sound.keyring, fun _ => h.clevis, by simp [EncryptionInfo.isEncrypted]⟩

theorem keeps_clevisBind (io : CryptIo) (pin : String) (config : Value) :
    Keeps Sound (clevisBind io pin config) := by
  refine Triple.keeps ?_
  unfold clevisBind
  refine (triple_lift fun _ hd => hd).bind fun _ => ?_
  refine triple_get_bind fun d hd => ?_
  have hsame : ∀ d', d' = d → d'.Sound := fun d' heq => heq ▸ hd.2
  split
  · exact triple_err hsame
  · refine (triple_lift hsame).bind fun _ => ?_
    refine (triple_lift fun d' hd' => hsame d' hd'.2).bind fun key => ?_
    have hbind : Triple Sound
        (call_ io io.clevisLuksBind (Luks2Header.clevisLuksBind (.keyring key) io.jwe))
        (fun _ => OnClevis) Sound := by
      refine triple_call_ (fun _ d hd h hb => ?_) fun d hd _ => hd
      obtain ⟨hw, hkeyring, hclevis⟩ := Luks2Header.clevisLuksBind_eq_some hd.well hb
      exact ⟨hd.of_header hw (hasKeyring_of_eq hkeyring) fun _ => hclevis, hclevis⟩
    refine (hbind.imp (fun d' hd' => hsame d' hd'.2.2) (fun _ _ hq => hq) fun _ hs => hs).bind
      fun _ => triple_modify fun d' hd' => hd'.sound_some _

/-- The keyring binding is there, so the other one can go. -/
structure OnKeyring (d : CryptHandle) : Prop where
  well : d.header.WellAssigned
  known : d.encryptionInfo.keyDescription.isSome
  keyring : d.header.HasKeyring

theorem OnKeyring.sound (h : d.OnKeyring) :
    Sound { d with encryptionInfo := { d.encryptionInfo with clevisInfo := none } } :=
  ⟨h.well, fun _ => h.keyring, (by simp), by simp [EncryptionInfo.isEncrypted, h.known]⟩

theorem triple_clevisLuksUnbind (n : ℕ) :
    Triple (fun d => d.Sound ∧ d.encryptionInfo.keyDescription.isSome)
      (call_ io (io.clevisLuksUnbind n) (Luks2Header.clevisLuksUnbind n))
      (fun _ => OnKeyring) Sound := by
  refine triple_call_ (fun _ d hd h hu => ?_) fun d hd _ => hd.1
  obtain ⟨hw, hkeyring⟩ := Luks2Header.clevisLuksUnbind_eq_some hd.1.well hu
  exact ⟨hw, hd.2, hasKeyring_of_eq hkeyring (hd.1.keyring hd.2)⟩

theorem keeps_clevisUnbind (io : CryptIo) : Keeps Sound (clevisUnbind io) := by
  refine Triple.keeps ?_
  unfold clevisUnbind
  refine triple_get_bind fun d hd => ?_
  split_ifs with hkd
  · exact triple_err fun d' heq => heq ▸ hd
  have hkd := isSome_of_not_isNone hkd
  have hread : Triple (· = d) (clevisKeyslots io) _ Sound :=
    triple_clevisKeyslots.imp (fun _ heq => heq) (fun _ _ hq => hq) fun d' heq => heq ▸ hd
  refine hread.bind fun keyslots => ?_
  cases keyslots with
  | none => exact triple_err fun d' hd' => hd'.1 ▸ hd
  | some l =>
    rintro d' ⟨rfl, hl⟩
    obtain ⟨c, hc, rfl⟩ := hl l rfl
    obtain ⟨n, secret, hn, -⟩ := hd.well.clevis c hc
    -- the token has one keyslot, so there is one call
    have hcall : Triple (fun d => d.Sound ∧ d.encryptionInfo.keyDescription.isSome)
        (forEach (fun n => call_ io (io.clevisLuksUnbind n)
          (Luks2Header.clevisLuksUnbind n)) [n]) (fun _ => OnKeyring) Sound :=
      (triple_clevisLuksUnbind n).bind fun _ => triple_pure fun _ hd => hd
    rw [hn]
    exact hcall.bind (fun _ => triple_modify fun _ hd => hd.sound) d' ⟨hd, hkd⟩

theorem keeps_rebindClevis (pinDispatch : Value → StratisResult (String × Value)) (io : CryptIo) :
    Keeps Sound (rebindClevis pinDispatch io) := by
  refine Triple.keeps ?_
  unfold rebindClevis
  refine triple_get_bind fun d hd => ?_
  have hsame : ∀ d', d' = d → d'.Sound := fun d' heq => heq ▸ hd
  split_ifs
  · exact triple_err hsame
  refine (triple_clevisKeyslots.imp hsame (fun _ _ hq => hq.1) fun _ hs => hs).bind fun keyslots => ?_
  split
  · exact triple_err fun _ hs => hs
  · rename_i n _
    have hregen : Triple Sound (call_ io io.clevisLuksRegen (Luks2Header.clevisLuksRegen n io.jwe))
        (fun _ => OnClevis) Sound := by
      refine triple_call_ (fun _ d hd h hr => ?_) fun d hd _ => hd
      obtain ⟨hw, hkeyring, hclevis⟩ := Luks2Header.clevisLuksRegen_eq_some hd.well hr
      exact ⟨hd.of_header hw (hasKeyring_of_eq hkeyring) fun _ => hclevis, hclevis⟩
    refine hregen.bind fun _ => triple_get_bind fun d₁ hd₁ => ?_
    refine (triple_lift fun d' heq => heq ▸ hd₁.sound).bind fun info =>
      triple_modify fun d' hd' => ?_
    obtain ⟨-, rfl⟩ := hd'
    exact hd₁.sound_some info

/-! ### The kernel keyring -/

/-- A key is in the header and can be assigned to the token. If the token can not be written, it
still has its old keyslots. -/
structure ReadyToAssign (io : CryptIo) (n : ℕ) (d : CryptHandle) : Prop where
  well : d.header.WellAssigned
  slot : ∃ key, d.header.keyslots.lookup n = some (.keyring key)
  keyring : io.luks2KeyringSet ≠ .ok () → d.encryptionInfo.keyDescription.isSome →
    d.header.HasKeyring
  clevis : d.encryptionInfo.clevisInfo.isSome → d.header.HasClevis
  encrypted : d.encryptionInfo.isEncrypted

theorem triple_initKeyslot (hio : io.Finishes) (key : Key) (pass : Passphrase ⊕ String) :
    Triple Sound (initKeyslot io key pass) (ReadyToAssign io) Sound := by
  cases pass with
  | inl pass =>
    refine triple_call (fun _ d hd h n ha => ?_) fun d hd _ => hd
    obtain ⟨hw, hkeyring, hclevis, hn⟩ := Luks2Header.addByPassphrase_eq_some hd.well ha
    exact ⟨hw, ⟨key, hn⟩, fun _ hk => hasKeyring_of_eq hkeyring (hd.keyring hk),
      fun hc => hasClevis_of_eq hclevis (hd.clevis hc), hd.encrypted⟩
  | inr keyDescription =>
    refine (triple_lift fun _ hd => hd).bind fun old => ?_
    refine triple_call (fun _ d hd h n hc => ?_) fun d hd _ => hd.2
    obtain ⟨hw, hclevis, hn, hkeeps⟩ := Luks2Header.changeByPassphrase_eq_some hd.2.well hc
    refine ⟨hw, ⟨key, hn⟩, fun hset hk => ?_,
      fun hc => hasClevis_of_eq hclevis (hd.2.clevis hc), hd.2.encrypted⟩
    exact hkeeps (hio.luks2KeyringSet.resolve_left hset) (hd.2.keyring hk)

theorem triple_addKeyringKeyslot (hio : io.Finishes) (keyDescription : String)
    (pass : Passphrase ⊕ String) :
    Triple Sound (addKeyringKeyslot io keyDescription pass)
      (fun _ d => d.Sound ∧ d.header.HasKeyring) Sound := by
  unfold addKeyringKeyslot
  refine (triple_lift fun _ hd => hd).bind fun key => ?_
  refine ((triple_initKeyslot hio key pass).imp (fun _ hd => hd.2) (fun _ _ hq => hq)
    fun _ hs => hs).bind fun n => ?_
  -- the new token has no keyslots until one is assigned
  have hset : Triple (ReadyToAssign io n) (call_ io io.luks2KeyringSet fun h =>
      some (h.luks2KeyringSet s!"stratis-1-key-{keyDescription}"))
      (fun _ d => d.header.WellAssigned ∧ d.header.keyring.isSome ∧
        (∃ key, d.header.keyslots.lookup n = some (.keyring key)) ∧
        (d.encryptionInfo.clevisInfo.isSome → d.header.HasClevis) ∧
        d.encryptionInfo.isEncrypted) Sound := by
    refine triple_call_ (fun _ d hd h hh => ?_) fun d hd hfail => ?_
    · cases hh
      exact ⟨hd.well.luks2KeyringSet _, rfl, hd.slot, hd.clevis, hd.encrypted⟩
    · have hne : io.luks2KeyringSet ≠ .ok () := fun hok => by cases hfail hok
      exact ⟨hd.well, hd.keyring hne, hd.clevis, hd.encrypted⟩
  refine hset.bind fun _ => triple_call_ (fun _ d hd h ha => ?_) fun d hd hfail => ?_
  · obtain ⟨hw, ht, ⟨key, hn⟩, hc, henc⟩ := hd
    obtain ⟨t, ht⟩ := Option.isSome_iff_exists.mp ht
    obtain ⟨h', hassign, hw', hclevis, hk⟩ := Luks2Header.assignKeyslot_spec hw ht hn
    rw [hassign, Option.some.injEq] at ha
    subst ha
    exact ⟨⟨hw', fun _ => hk, fun hs => hasClevis_of_eq hclevis (hc hs), henc⟩, hk⟩
  · obtain ⟨hw, ht, ⟨key, hn⟩, -⟩ := hd
    obtain ⟨t, ht⟩ := Option.isSome_iff_exists.mp ht
    obtain ⟨h', hassign, -⟩ := Luks2Header.assignKeyslot_spec hw ht hn
    rw [hfail hio.assignKeyslot] at hassign
    cases hassign

theorem triple_bindTo (hio : io.Finishes) (keyDescription : String) (pass : Passphrase ⊕ String) :
    Triple Sound (do
      addKeyringKeyslot io keyDescription pass
      setKeyDescription (some keyDescription)) (fun _ => Sound) Sound := by
  refine (triple_addKeyringKeyslot hio keyDescription pass).bind fun _ =>
    triple_modify fun d hd => ?_
  exact ⟨hd.1.well, fun _ => hd.2, hd.1.clevis, by simp [EncryptionInfo.isEncrypted]⟩

theorem keeps_bindKeyring (hio : io.Finishes) (keyDescription : String) :
    Keeps Sound (bindKeyring io keyDescription) := by
  refine Triple.keeps ?_
  unfold bindKeyring
  refine (triple_lift fun _ hd => hd).bind fun _ => ?_
  refine triple_get_bind fun d hd => ?_
  have hsame : ∀ d', d' = d → d'.Sound := fun d' heq => heq ▸ hd.2
  refine (triple_lift hsame).bind fun key => ?_
  cases key with
  | none => exact triple_err fun d' hd' => hsame d' hd'.2
  | some key =>
    exact (triple_bindTo hio keyDescription _).imp (fun d' hd' => hsame d' hd'.2) (fun _ _ h => h)
      fun _ h => h

theorem keeps_rebindKeyring (hio : io.Finishes) (newKeyDescription : String) :
    Keeps Sound (rebindKeyring io newKeyDescription) := by
  refine Triple.keeps ?_
  unfold rebindKeyring
  refine (triple_lift fun _ hd => hd).bind fun _ => ?_
  refine triple_get_bind fun d hd => ?_
  have hsame : ∀ d', d' = d → d'.Sound := fun d' heq => heq ▸ hd.2
  split
  · exact triple_err hsame
  · exact (triple_bindTo hio newKeyDescription _).at_state hd.2

/-- The keyring token has the given keyslots left, and the Clevis binding is there. -/
structure Unbinding (l : List ℕ) (d : CryptHandle) : Prop where
  well : d.header.WellAssigned
  left : ∃ t, d.header.keyring = some t ∧ t.keyslots = l
  known : d.encryptionInfo.clevisInfo.isSome
  clevis : d.header.HasClevis

theorem triple_destroy (n : ℕ) (l : List ℕ) :
    Triple (Unbinding (n :: l)) (call_ io (io.destroy n) (Luks2Header.destroy n))
      (fun _ => Unbinding l) Sound := by
  refine triple_call_ (fun _ d hd h hdestroy => ?_) fun d hd _ => ?_
  · obtain ⟨t, ht, hl⟩ := hd.left
    obtain ⟨hw, hclevis, hkeyring⟩ := Luks2Header.destroy_eq_some hd.well ht
      (hl ▸ mem_cons_self) hdestroy
    refine ⟨hw, ⟨_, hkeyring, ?_⟩, hd.known, hasClevis_of_eq hclevis hd.clevis⟩
    have hnodup := hd.well.nodup t ht
    rw [hl, nodup_cons] at hnodup
    rw [hl, filter_cons_of_neg (by simp)]
    exact filter_eq_self.mpr fun k hk => by
      simpa using fun heq : k = n => hnodup.1 (heq ▸ hk)
  · obtain ⟨t, ht, hl⟩ := hd.left
    exact ⟨hd.well, fun _ => ⟨t, ht, by simp [hl]⟩, fun _ => hd.clevis,
      by simp [EncryptionInfo.isEncrypted, hd.known]⟩

/-- The keyring binding is removed only if there is a Clevis binding. Until its last keyslot is
destroyed the token still has one, and then the token goes too. -/
theorem keeps_unbindKeyring (hio : io.Finishes) : Keeps Sound (unbindKeyring io) := by
  refine Triple.keeps ?_
  unfold unbindKeyring
  refine triple_get_bind fun d hd => ?_
  have hsame : ∀ d', d' = d → d'.Sound := fun d' heq => heq ▸ hd
  split_ifs with hci
  · exact triple_err hsame
  have hci := isSome_of_not_isNone hci
  refine (triple_lift hsame).bind fun _ => ?_
  split
  · exact triple_err fun d' hd' => hsame d' hd'.2
  · rename_i l hl
    have hloop : Triple (Unbinding l)
        (forEach (fun n => call_ io (io.destroy n) (Luks2Header.destroy n)) l)
        (fun _ => Unbinding []) Sound := triple_forEach triple_destroy l
    have hstart : Unbinding l d := by
      unfold keyslotsOf at hl
      split_ifs at hl
      obtain ⟨t, ht, htl⟩ := Option.map_eq_some_iff.mp hl
      exact ⟨hd.well, ⟨t, ht, htl⟩, hci, hd.clevis hci⟩
    refine (hloop.imp (fun d' (hd' : _ ∧ d' = d) => hd'.2 ▸ hstart) (fun _ _ hq => hq)
      fun _ hs => hs).bind fun _ => ?_
    have hremove : Triple (Unbinding []) (call_ io io.removeToken fun h =>
        some h.removeKeyringToken) (fun _ d => d.header.WellAssigned ∧
          d.encryptionInfo.clevisInfo.isSome ∧ d.header.HasClevis) Sound := by
      refine triple_call_ (fun _ d hd h hh => ?_) fun d hd hfail => ?_
      · cases hh
        exact ⟨hd.well.removeKeyringToken, hd.known, hd.clevis⟩
      · cases hfail hio.removeToken
    refine hremove.bind fun _ => triple_modify fun d' ⟨hw, hci', hc⟩ => ?_
    exact ⟨hw, (by simp), fun _ => hc, by simp [EncryptionInfo.isEncrypted, hci']⟩

/-! ### Headers kept aside -/

theorem triple_rebindClevis_known (pinDispatch : Value → StratisResult (String × Value))
    (io : CryptIo) (c : CryptHandle) :
    Triple (· = c) (rebindClevis pinDispatch io)
      (fun _ d => d.encryptionInfo.keyDescription = c.encryptionInfo.keyDescription ∧
        c.encryptionInfo.clevisInfo.isSome) fun _ => True := by
  unfold rebindClevis
  refine triple_get_bind fun d hd => ?_
  subst hd
  split_ifs with hci
  · exact triple_err fun _ _ => trivial
  have hci := isSome_of_not_isNone hci
  let Same (d' : CryptHandle) := d'.encryptionInfo = d.encryptionInfo
  have hread : Triple (· = d) (clevisKeyslots io) (fun _ => Same) fun _ => True :=
    triple_clevisKeyslots.imp (fun _ heq => congrArg _ heq) (fun _ _ hq => hq.1) fun _ _ => trivial
  refine hread.bind fun keyslots => ?_
  split
  · exact triple_err fun _ _ => trivial
  · rename_i n _
    have hregen : Triple Same (call_ io io.clevisLuksRegen (Luks2Header.clevisLuksRegen n io.jwe))
        (fun _ => Same) fun _ => True :=
      triple_call_ (fun _ _ hd' _ _ => hd') fun _ _ _ => trivial
    refine hregen.bind fun _ => triple_get_bind fun d₁ hd₁ => ?_
    refine (triple_lift fun _ _ => trivial).bind fun info =>
      triple_modify fun d' hd' => ?_
    obtain ⟨-, rfl⟩ := hd'
    have hkd : d'.encryptionInfo.keyDescription = d.encryptionInfo.keyDescription :=
      congrArg EncryptionInfo.keyDescription hd₁
    exact ⟨hkd, hci⟩

theorem sound_restoreLuksHeader {pinDispatch : Value → StratisResult (String × Value)}
    {undo : CryptIo} {c c' : CryptHandle} (hc : c.Sound)
    (hr : rebindClevis pinDispatch io c = (c', .ok ())) :
    (restoreLuksHeader undo c.header c').1.Sound := by
  have hc' : c'.Sound := (keeps_rebindClevis pinDispatch io).after hc hr
  have hknown := triple_rebindClevis_known pinDispatch io c c rfl
  rw [hr] at hknown
  have htriple : Triple (· = c') (restoreLuksHeader undo c.header) (fun _ => Sound) Sound := by
    have hsame : ∀ d, d = c' → d.Sound := fun d heq => heq ▸ hc'
    unfold restoreLuksHeader
    refine (triple_lift hsame).bind fun _ =>
      triple_call_ (fun _ d hd h hh => ?_) fun d hd _ => hsame d hd.2
    cases hh
    obtain ⟨-, rfl⟩ := hd
    exact ⟨hc.well, fun hk => hc.keyring (hknown.1 ▸ hk), fun _ => hc.clevis hknown.2,
      hc'.encrypted⟩
  exact htriple.fst rfl

end CryptHandle

/-! ### Block devices -/

/-- If the device was sound, it still is. -/
def StaysSound (d d' : Option CryptHandle) : Prop :=
  ∀ c, d = some c → c.Sound → ∃ c', d' = some c' ∧ c'.Sound

theorem StaysSound.refl (d : Option CryptHandle) : StaysSound d d := fun c hd hc => ⟨c, hd, hc⟩

theorem StaysSound.trans {d d' d'' : Option CryptHandle} (h : StaysSound d d')
    (h' : StaysSound d' d'') : StaysSound d d'' := fun c hd hc => by
  obtain ⟨c', hd', hc'⟩ := h c hd hc
  exact h' c' hd' hc'

theorem staysSound_onHandle {p : CryptHandle.M Unit} (hp : Keeps CryptHandle.Sound p)
    (d : Option CryptHandle) : StaysSound d (onHandle p d).1 := by
  rintro c rfl hc
  exact ⟨_, rfl, hp c hc⟩

namespace BlockDevs

open Stateful (Keeps)

def StaySound (devs devs' : BlockDevs) : Prop := List.Forall₂ StaysSound devs devs'

theorem StaySound.refl (devs : BlockDevs) : StaySound devs devs :=
  forall₂_same.mpr fun d _ => StaysSound.refl d

theorem StaySound.trans {devs devs' devs'' : BlockDevs} (h : StaySound devs devs')
    (h' : StaySound devs' devs'') : StaySound devs devs'' := by
  induction h generalizing devs'' with
  | nil => exact h'
  | cons hd _ ih =>
    cases h' with
    | cons hd' hds' => exact .cons (hd.trans hd') (ih hds')

/-- The code leaves every device sound that was. -/
def KeepsSound {α : Type} (p : M α) : Prop := ∀ devs, StaySound devs (p devs).1

theorem keepsSound_lift {α : Type} (x : StratisResult α) : KeepsSound (Stateful.lift x) :=
  StaySound.refl

theorem keepsSound_pure {α : Type} (a : α) : KeepsSound (pure a) := StaySound.refl

theorem KeepsSound.bind {α β : Type} {p : M α} {f : α → M β} (hp : KeepsSound p)
    (hf : ∀ a, KeepsSound (f a)) : KeepsSound (p >>= f) := by
  intro devs
  obtain ⟨a, -, hr⟩ | ⟨hr, -⟩ := bind_cases p f devs
  · rw [hr]
    exact (hp devs).trans (hf a _)
  · rw [hr]
    exact hp devs

theorem keepsSound_encrypted : KeepsSound encrypted := by
  intro devs
  unfold encrypted
  rw [get_bind]
  refine (keepsSound_lift _).bind (fun info => ?_) devs
  split_ifs
  · exact keepsSound_pure info
  · exact keepsSound_lift _

theorem keepsSound_operationLoop {action rollback : ℕ → CryptHandle.M Unit}
    (hact : ∀ i, Keeps CryptHandle.Sound (action i))
    (hundo : ∀ i, Keeps CryptHandle.Sound (rollback i)) :
    KeepsSound (operationLoop (fun i => onHandle (action i)) fun i => onHandle (rollback i)) := by
  intro devs
  refine operationLoop_forall₂ StaysSound.refl devs
    (fun i d _ => staysSound_onHandle (hact i) d) fun i d d' _ hok => ?_
  have h := staysSound_onHandle (hact i) d
  rw [hok] at h
  exact h.trans (staysSound_onHandle (hundo i) d')

theorem get_backUpHeaders {io : ManagerIo} {index : ℕ} {devs : BlockDevs}
    {headers : List Luks2Header} (h : backUpHeaders io index devs = .ok headers) {i : ℕ}
    {c : CryptHandle} (hc : devs[i]? = some (some c)) : headers[i]? = some c.header := by
  induction devs generalizing index headers i with
  | nil => simp at hc
  | cons d devs ih =>
    cases d with
    | none => cases h
    | some c₀ =>
      obtain ⟨_, -, h⟩ := Outcome.bind_eq_ok.mp h
      obtain ⟨rest, hrest, h⟩ := Outcome.bind_eq_ok.mp h
      cases h
      cases i with
      | zero =>
        cases hc
        rfl
      | succ i => exact ih hrest hc

theorem keepsSound_rebindClevis (pinDispatch : Value → StratisResult (String × Value))
    (io : ManagerIo) : KeepsSound (rebindClevis pinDispatch io) := by
  unfold rebindClevis
  refine keepsSound_encrypted.bind fun info => ?_
  split_ifs
  · exact keepsSound_lift _
  refine (keepsSound_lift _).bind fun _ devs => ?_
  rw [get_bind]
  cases hb : backUpHeaders io 0 devs with
  | err e => exact StaySound.refl devs
  | panic => exact StaySound.refl devs
  | ok headers =>
    rw [lift_ok_bind]
    have hact : ∀ i, Keeps CryptHandle.Sound (CryptHandle.rebindClevis pinDispatch (io.act i)) :=
      fun i => keeps_rebindClevis pinDispatch (io.act i)
    refine operationLoop_forall₂ StaysSound.refl devs
      (fun i d _ => staysSound_onHandle (hact i) d) ?_
    -- a device that is rolled back gets the header that it had before
    rintro i _ d' hd hok c rfl hc
    have hheader : headers[i]? = some c.header := get_backUpHeaders hb hd
    obtain ⟨hd', hr⟩ := Prod.mk.inj hok
    subst hd'
    have hrebind : CryptHandle.rebindClevis pinDispatch (io.act i) c = (_, .ok ()) :=
      Prod.ext rfl hr
    exact ⟨_, by rw [restore, hheader]; rfl, sound_restoreLuksHeader hc hrebind⟩

section
variable {io : ManagerIo} (hact : ∀ i, (io.act i).Finishes) (hundo : ∀ i, (io.undo i).Finishes)

omit hact hundo in
theorem keepsSound_bindClevis (pin : String) (clevisInfo : Value) :
    KeepsSound (bindClevis io pin clevisInfo) := by
  unfold bindClevis
  refine keepsSound_encrypted.bind fun info => (keepsSound_lift _).bind fun (parsed, yes) => ?_
  dsimp only
  split
  · split_ifs
    · exact keepsSound_pure _
    · exact keepsSound_lift _
  · exact (keepsSound_operationLoop (fun i => keeps_clevisBind _ _ _)
      fun i => keeps_clevisUnbind _).bind fun _ => keepsSound_pure _

omit hact hundo in
theorem keepsSound_unbindClevis : KeepsSound (unbindClevis io) := by
  unfold unbindClevis
  refine keepsSound_encrypted.bind fun info => ?_
  split
  · exact keepsSound_pure _
  · exact (keepsSound_operationLoop (fun i => keeps_clevisUnbind _)
      fun i => keeps_clevisBind _ _ _).bind fun _ => keepsSound_pure _

include hact hundo

theorem keepsSound_bindKeyring (keyDesc : String) : KeepsSound (bindKeyring io keyDesc) := by
  unfold bindKeyring
  refine keepsSound_encrypted.bind fun info => ?_
  split
  · split_ifs
    · exact keepsSound_pure _
    · exact keepsSound_lift _
    · exact keepsSound_lift _
  · exact (keepsSound_operationLoop (fun i => keeps_bindKeyring (hact i) _)
      fun i => keeps_unbindKeyring (hundo i)).bind fun _ => keepsSound_pure _

theorem keepsSound_unbindKeyring : KeepsSound (unbindKeyring io) := by
  unfold unbindKeyring
  refine keepsSound_encrypted.bind fun info => ?_
  split
  · exact keepsSound_pure _
  · exact (keepsSound_operationLoop (fun i => keeps_unbindKeyring (hact i))
      fun i => keeps_bindKeyring (hundo i) _).bind fun _ => keepsSound_pure _

theorem keepsSound_rebindKeyring (keyDesc : String) : KeepsSound (rebindKeyring io keyDesc) := by
  unfold rebindKeyring
  refine keepsSound_encrypted.bind fun info => ?_
  split
  · exact keepsSound_pure _
  · split_ifs
    · exact keepsSound_pure _
    · exact (keepsSound_operationLoop (fun i => keeps_rebindKeyring (hact i) _)
        fun i => keeps_rebindKeyring (hundo i) _).bind fun _ => keepsSound_pure _

end

end BlockDevs

/-! ### Runs -/

/-- No call that finishes a change of a keyring token fails while the request is served. -/
def CryptInput.Finishes (input : CryptInput) : Prop :=
  ∀ i, (input.io.act i).Finishes ∧ (input.io.undo i).Finishes

variable {pinDispatch : Value → StratisResult (String × Value)}

theorem staySound_step (devs : BlockDevs) {input : CryptInput} (h : input.Finishes) :
    BlockDevs.StaySound devs (step pinDispatch devs input).1 := by
  have hact := fun i => (h i).1
  have hundo := fun i => (h i).2
  obtain ⟨request, io⟩ := input
  rw [step]
  cases request <;> rw [Request.run, map_fst]
  · exact BlockDevs.keepsSound_bindClevis _ _ devs
  · exact BlockDevs.keepsSound_unbindClevis devs
  · exact BlockDevs.keepsSound_bindKeyring hact hundo _ devs
  · exact BlockDevs.keepsSound_unbindKeyring hact hundo devs
  · exact BlockDevs.keepsSound_rebindKeyring hact hundo _ devs
  · exact BlockDevs.keepsSound_rebindClevis pinDispatch io devs

theorem staySound_run (devs : BlockDevs) {inputs : List CryptInput}
    (h : ∀ input ∈ inputs, input.Finishes) :
    BlockDevs.StaySound devs (run (step pinDispatch) devs inputs).1 := by
  induction inputs generalizing devs with
  | nil => exact BlockDevs.StaySound.refl devs
  | cons input inputs ih =>
    exact (staySound_step devs (h input mem_cons_self)).trans
      (ih _ fun i hi => h i (mem_cons_of_mem _ hi))

/-- A device that starts with the bindings its handle knows of can be unlocked in every state that
is reached, whatever else fails. -/
theorem bindings_survive (pinDispatch : Value → StratisResult (String × Value)) (devs : BlockDevs)
    (inputs : List CryptInput) (h : ∀ input ∈ inputs, input.Finishes) (reached : List CryptInput)
    (hreached : reached <+: inputs) :
    List.Forall₂ (fun d d' => ∀ c, d = some c → c.Sound →
        ∃ c', d' = some c' ∧ c'.header.Unlockable)
      devs (run (step pinDispatch) devs reached).1 := by
  have hsound : BlockDevs.StaySound devs (run (step pinDispatch) devs reached).1 :=
    staySound_run devs fun input hi => h input (hreached.subset hi)
  refine hsound.imp fun d d' hd c hc hs => ?_
  obtain ⟨c', hc', hs'⟩ := hd c hc hs
  exact ⟨c', hc', hs'.unlockable⟩

/-! ### A device with two bindings -/

/-- What Clevis writes. -/
def sampleJwe : Jwe := ⟨.object .nil, 7⟩

/-- Every call does what it is for, and the key is in the keyring. -/
def willing : CryptIo where
  acquire := .ok ()
  acquireAgain := .ok ()
  jsonGet := true
  memfs := .ok ()
  readKey := fun _ => .ok (some [1])
  keyfile := .ok ()
  addByPassphrase := .ok ()
  changeByPassphrase := .ok ()
  keepsTokens := true
  luks2KeyringSet := .ok ()
  assignKeyslot := .ok ()
  destroy := fun _ => .ok ()
  removeToken := .ok ()
  clevisLuksBind := .ok ()
  clevisLuksUnbind := fun _ => .ok ()
  clevisLuksRegen := .ok ()
  clevisDecrypt := .ok ()
  headerRestore := .ok ()
  jwe := sampleJwe
  refused := .crypt

def managerIo (io : CryptIo) : ManagerIo := ⟨fun _ => io, fun _ => io, true, .ok (), fun _ => .ok ()⟩

/-- The token for the key `key` with the given keyslots. -/
def keyringToken (keyslots : List ℕ) : KeyringToken := ⟨"stratis-1-key-key", keyslots⟩

/-- A device that is bound to the key in keyslot 0 and by Clevis in keyslot 1. -/
def boundTwice : CryptHandle where
  physicalPath := "/dev/sdb"
  header := ⟨(AList.singleton 0 (.keyring [1])).insert 1 (.clevis 7), some (keyringToken [0]),
    some ⟨[1], some sampleJwe⟩⟩
  encryptionInfo := ⟨some "key", some ("tpm2", .object .nil)⟩

/-- A device that is bound to the key only. -/
def boundOnce : CryptHandle where
  physicalPath := "/dev/sdb"
  header := ⟨AList.singleton 0 (.keyring [1]), some (keyringToken [0]), none⟩
  encryptionInfo := ⟨some "key", none⟩

theorem boundTwice_sound : boundTwice.Sound where
  well := by
    refine ⟨?_, ?_, ?_⟩
    · intro t ht
      cases ht
      exact nodup_singleton 0
    · intro t ht n hn
      cases ht
      obtain rfl := mem_singleton.mp hn
      exact ⟨[1], by decide⟩
    · intro t ht
      cases ht
      exact ⟨1, 7, rfl, by decide⟩
  keyring _ := ⟨_, rfl, by decide⟩
  clevis _ := rfl
  encrypted := rfl

theorem boundOnce_sound : boundOnce.Sound where
  well := by
    refine ⟨?_, ?_, ?_⟩
    · intro t ht
      cases ht
      exact nodup_singleton 0
    · intro t ht n hn
      cases ht
      obtain rfl := mem_singleton.mp hn
      exact ⟨[1], by decide⟩
    · intro t ht
      cases ht
  keyring _ := ⟨_, rfl, by decide⟩
  clevis h := by cases h
  encrypted := rfl

/-- One binding is removed, and the other one is not although that is asked for. -/
theorem bindings_survive_unbind_both :
    boundTwice.Sound ∧ ∃ c', (run (step fun _ => .err .crypt) [some boundTwice]
      [⟨.unbindKeyring, managerIo { willing with destroy := fun _ => .err .crypt }⟩,
        ⟨.unbindKeyring, managerIo willing⟩, ⟨.unbindClevis, managerIo willing⟩]).1 = [some c'] ∧
      c'.header.Unlockable := by
  have hfinishes : ∀ io : CryptIo, io.Finishes → ∀ request,
      CryptInput.Finishes ⟨request, managerIo io⟩ := fun io hio _ _ => ⟨hio, hio⟩
  have h := bindings_survive (fun _ => .err .crypt) [some boundTwice]
    [⟨.unbindKeyring, managerIo { willing with destroy := fun _ => .err .crypt }⟩,
      ⟨.unbindKeyring, managerIo willing⟩, ⟨.unbindClevis, managerIo willing⟩]
    (by
      intro input hi
      simp only [List.mem_cons, List.not_mem_nil, or_false] at hi
      obtain rfl | rfl | rfl := hi <;> exact hfinishes _ ⟨rfl, rfl, Or.inl rfl⟩ _) _ List.prefix_rfl
  refine ⟨boundTwice_sound, ?_⟩
  cases hrun : (run (step fun _ => .err .crypt) [some boundTwice]
      [⟨.unbindKeyring, managerIo { willing with destroy := fun _ => .err .crypt }⟩,
        ⟨.unbindKeyring, managerIo willing⟩, ⟨.unbindClevis, managerIo willing⟩]).1 with
  | nil =>
    rw [hrun] at h
    cases h
  | cons d ds =>
    rw [hrun] at h
    cases h with
    | cons hd hds =>
      cases hds
      obtain ⟨c', rfl, hc'⟩ := hd boundTwice rfl boundTwice_sound
      exact ⟨c', rfl, hc'⟩

/-- The keyslot of the key is destroyed, but the token can not be removed. The handle still has
the key description, so the Clevis binding can be removed too, and the header has no keyslot left.
A device with one binding loses it if the keyslot of the new key can not be assigned. -/
theorem failed_calls_lose_keys :
    (boundTwice.Sound ∧ ∃ c', run (step fun _ => .err .crypt) [some boundTwice]
      [⟨.unbindKeyring, managerIo { willing with removeToken := .err .crypt }⟩,
        ⟨.unbindClevis, managerIo willing⟩] = ([some c'], [
          (⟨.unbindKeyring, managerIo { willing with removeToken := .err .crypt }⟩, .err .crypt),
          (⟨.unbindClevis, managerIo willing⟩, .ok (.changed true))]) ∧
      c'.header.keyslots = ∅ ∧ ¬ c'.header.Unlockable) ∧
    boundOnce.Sound ∧ ∃ c', run (step fun _ => .err .crypt) [some boundOnce]
      [⟨.rebindKeyring "new", managerIo { willing with assignKeyslot := .err .crypt }⟩] =
        ([some c'], [(⟨.rebindKeyring "new", managerIo { willing with
          assignKeyslot := .err .crypt }⟩, .err .crypt)]) ∧
      ¬ c'.header.Unlockable := by
  refine ⟨⟨boundTwice_sound, ⟨"/dev/sdb", ⟨∅, some (keyringToken []), none⟩,
    ⟨some "key", none⟩⟩, ?_, rfl, ?_⟩, boundOnce_sound,
    ⟨"/dev/sdb", ⟨AList.singleton 1 (.keyring [1]), some ⟨"stratis-1-key-new", []⟩, none⟩,
      ⟨some "key", none⟩⟩, ?_, ?_⟩
  · rfl
  · rintro ⟨n, hn, -⟩
    exact absurd hn (AList.notMem_empty n)
  · rfl
  · rintro ⟨n, -, ⟨t, ht, hn⟩ | ⟨t, ht, -⟩⟩
    · cases ht
      cases hn
    · cases ht

end Stratisd.Crypt
