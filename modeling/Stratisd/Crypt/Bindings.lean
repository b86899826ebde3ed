import Stratisd.Crypt.Luks2

/-! The two bindings of a LUKS2 header. The keyslots of the keyring token hold keys of the kernel
keyring and the one keyslot of the Clevis token holds a passphrase of Clevis, so a change of one
binding leaves the other one alone. -/

namespace Stratisd.Crypt

namespace Luks2Header

/-- The keyslots of the tokens hold passphrases of the kind that the token is for. -/
structure WellAssigned (h : Luks2Header) : Prop where
  nodup : ∀ t, h.keyring = some t → t.keyslots.Nodup
  keyring : ∀ t, h.keyring = some t →
    ∀ n ∈ t.keyslots, ∃ key, h.keyslots.lookup n = some (.keyring key)
  clevis : ∀ t, h.clevis = some t →
    ∃ n secret, t.keyslots = [n] ∧ h.keyslots.lookup n = some (.clevis secret)

def HasKeyring (h : Luks2Header) : Prop := ∃ t, h.keyring = some t ∧ t.keyslots ≠ []

def HasClevis (h : Luks2Header) : Prop := h.clevis.isSome

variable {h h' : Luks2Header}

theorem WellAssigned.unlockable_of_keyring (hw : h.WellAssigned) (hk : h.HasKeyring) :
    h.Unlockable := by
  obtain ⟨t, ht, hne⟩ := hk
  obtain ⟨n, hn⟩ := List.exists_mem_of_ne_nil _ hne
  obtain ⟨key, hkey⟩ := hw.keyring t ht n hn
  exact ⟨n, AList.lookup_isSome.mp (Option.isSome_iff_exists.mpr ⟨_, hkey⟩), Or.inl ⟨t, ht, hn⟩⟩

theorem WellAssigned.unlockable_of_clevis (hw : h.WellAssigned) (hc : h.HasClevis) :
    h.Unlockable := by
  obtain ⟨t, ht⟩ := Option.isSome_iff_exists.mp hc
  obtain ⟨n, secret, hn, hlookup⟩ := hw.clevis t ht
  exact ⟨n, AList.lookup_isSome.mp (Option.isSome_iff_exists.mpr ⟨_, hlookup⟩),
    Or.inr ⟨t, ht, hn ▸ List.mem_singleton_self n⟩⟩

/-- Tokens that stay as they are do not mind other keyslots. -/
theorem WellAssigned.of_lookup (hw : h.WellAssigned) (hkeyring : h'.keyring = h.keyring)
    (hclevis : h'.clevis = h.clevis)
    (hk : ∀ n key, h.keyslots.lookup n = some (.keyring key) →
      ∃ key, h'.keyslots.lookup n = some (.keyring key))
    (hc : ∀ n secret, h.keyslots.lookup n = some (.clevis secret) →
      ∃ secret, h'.keyslots.lookup n = some (.clevis secret)) : h'.WellAssigned where
  nodup t ht := hw.nodup t (hkeyring ▸ ht)
  keyring t ht n hn := by
    obtain ⟨key, hkey⟩ := hw.keyring t (hkeyring ▸ ht) n hn
    exact hk n key hkey
  clevis t ht := by
    obtain ⟨n, secret, hn, hlookup⟩ := hw.clevis t (hclevis ▸ ht)
    obtain ⟨secret', hlookup'⟩ := hc n secret hlookup
    exact ⟨n, secret', hn, hlookup'⟩

variable {n : ℕ}

theorem lookup_insert_of_none {m : ℕ} {pass new : Passphrase} (hn : h.keyslots.lookup n = none)
    (hm : h.keyslots.lookup m = some pass) : (h.keyslots.insert n new).lookup m = some pass := by
  rw [AList.lookup_insert_ne, hm]
  rintro rfl
  rw [hn] at hm
  cases hm

/-! ### Calls of libcryptsetup -/

theorem addByPassphrase_eq_some {pass : Passphrase} {key : Key} (hw : h.WellAssigned)
    (ha : h.addByPassphrase pass (.keyring key) = some (h', n)) :
    h'.WellAssigned ∧ h'.keyring = h.keyring ∧ h'.clevis = h.clevis ∧
      h'.keyslots.lookup n = some (.keyring key) := by
  unfold addByPassphrase at ha
  split at ha
  · rename_i hempty
    cases ha
    have hn := lookup_of_findEmpty hempty
    refine ⟨hw.of_lookup rfl rfl (fun m k hm => ⟨k, ?_⟩) fun m k hm => ⟨k, ?_⟩, rfl, rfl,
      AList.lookup_insert _⟩
    · exact lookup_insert_of_none hn hm
    · exact lookup_insert_of_none hn hm
  · cases ha

theorem lookup_getD_findEmpty (hne : h.findEmpty.getD n ≠ n) :
    h.keyslots.lookup (h.findEmpty.getD n) = none := by
  cases hf : h.findEmpty with
  | none => rw [hf] at hne; exact absurd rfl hne
  | some m => exact lookup_of_findEmpty hf

/-- A keyslot with a key of the keyring is taken away, and the tokens are told. -/
theorem WellAssigned.reassign (hw : h.WellAssigned) {old : Key}
    (hn : h.keyslots.lookup n = some (.keyring old)) {slots : AList fun _ : ℕ => Passphrase}
    {f : List ℕ → List ℕ}
    (hslots : ∀ k pass, h.keyslots.lookup k = some pass → k ≠ n → slots.lookup k = some pass)
    (hsingle : ∀ k, k ≠ n → f [k] = [k])
    (hnodup : ∀ l, (∀ k ∈ l, k ∈ h.keyslots) → l.Nodup → (f l).Nodup)
    (hmem : ∀ l, ∀ k ∈ f l, k ∈ l ∧ k ≠ n ∨ ∃ key, slots.lookup k = some (.keyring key)) :
    (mapAssigned f { h with keyslots := slots }).WellAssigned ∧
      (mapAssigned f { h with keyslots := slots }).clevis = h.clevis := by
  -- the keyslot of Clevis is another one
  have hclevis : (mapAssigned f { h with keyslots := slots }).clevis = h.clevis := by
    cases ht : h.clevis with
    | none => simp [mapAssigned]
    | some t =>
      obtain ⟨c, secret, hc, hlookup⟩ := hw.clevis t ht
      have hcn : c ≠ n := by
        rintro rfl
        rw [hn] at hlookup
        cases hlookup
      simp only [mapAssigned, Option.map_some, hc, hsingle c hcn]
      rw [← hc]
  refine ⟨⟨?_, ?_, ?_⟩, hclevis⟩
  · intro t ht
    obtain ⟨t₀, ht₀, rfl⟩ := Option.map_eq_some_iff.mp ht
    refine hnodup _ (fun k hk => ?_) (hw.nodup t₀ ht₀)
    obtain ⟨key, hkey⟩ := hw.keyring t₀ ht₀ k hk
    exact AList.lookup_isSome.mp (Option.isSome_iff_exists.mpr ⟨_, hkey⟩)
  · intro t ht k hk
    obtain ⟨t₀, ht₀, rfl⟩ := Option.map_eq_some_iff.mp ht
    obtain ⟨hk₀, hkn⟩ | hkey := hmem _ k hk
    · obtain ⟨key, hkey⟩ := hw.keyring t₀ ht₀ k hk₀
      exact ⟨key, hslots k _ hkey hkn⟩
    · exact hkey
  · intro t ht
    obtain ⟨c, secret, hc, hlookup⟩ := hw.clevis t (hclevis ▸ ht)
    refine ⟨c, secret, hc, hslots c _ hlookup ?_⟩
    rintro rfl
    rw [hn] at hlookup
    cases hlookup

theorem filter_singleton_ne {k : ℕ} (hk : k ≠ n) : [k].filter (fun k => k ≠ n) = [k] := by
  simp [hk]

theorem map_move_nodup {m : ℕ} (hm : m ≠ n → h.keyslots.lookup m = none) {l : List ℕ}
    (hl : ∀ k ∈ l, k ∈ h.keyslots) (hnd : l.Nodup) :
    (l.map fun k => if k = n then m else k).Nodup := by
  refine List.Nodup.map_on (fun a ha b hb hab => ?_) hnd
  -- an assigned keyslot is in use, so it is not the empty one
  have hne : ∀ k ∈ l, k ≠ n → k ≠ m := by
    rintro k hk hkn rfl
    exact AList.lookup_eq_none.mp (hm hkn) (hl k hk)
  split_ifs at hab with han hbn hbn
  · rw [han, hbn]
  · exact absurd hab.symm (hne b hb hbn)
  · exact absurd hab (hne a ha han)
  · exact hab

theorem changeByPassphrase_eq_some {keeps : Bool} {old key : Key} {m : ℕ} (hw : h.WellAssigned)
    (hc : h.changeByPassphrase keeps (.keyring old) (.keyring key) = some (h', m)) :
    h'.WellAssigned ∧ h'.clevis = h.clevis ∧ h'.keyslots.lookup m = some (.keyring key) ∧
      (keeps = true → h.HasKeyring → h'.HasKeyring) := by
  unfold changeByPassphrase at hc
  split at hc
  · rename_i n hopened
    simp only [Option.some.injEq, Prod.mk.injEq] at hc
    obtain ⟨rfl, hmn⟩ := hc
    rw [hmn]
    have hn := lookup_of_openedBy hopened
    have hm : m ≠ n → h.keyslots.lookup m = none := fun hne => by
      rw [← hmn] at hne ⊢
      exact lookup_getD_findEmpty hne
    have hslots : ∀ k pass, h.keyslots.lookup k = some pass → k ≠ n →
        ((h.keyslots.erase n).insert m (.keyring key)).lookup k = some pass := by
      intro k pass hk hkn
      have hkm : k ≠ m := by
        rintro rfl
        rw [hm hkn] at hk
        cases hk
      rw [AList.lookup_insert_ne hkm, AList.lookup_erase_ne hkn, hk]
    cases keeps with
    | true =>
      obtain ⟨hwell, hclevis⟩ := hw.reassign hn hslots
        (fun k hk => by simp [hk] : ∀ k, k ≠ n → [k].map (fun k => if k = n then m else k) = [k])
        (fun l hl hnd => map_move_nodup hm hl hnd) (by
          intro l k hk
          obtain ⟨k₀, hk₀, hmoved⟩ := List.mem_map.mp hk
          by_cases hkn : k₀ = n
          · rw [if_pos hkn] at hmoved
            exact Or.inr ⟨key, hmoved ▸ AList.lookup_insert _⟩
          · rw [if_neg hkn] at hmoved
            exact Or.inl (hmoved ▸ ⟨hk₀, hkn⟩))
      refine ⟨hwell, hclevis, AList.lookup_insert _, fun _ ⟨t, ht, hne⟩ => ?_⟩
      refine ⟨_, by simp only [mapAssigned, ht, Option.map_some]; rfl, ?_⟩
      simpa using hne
    | false =>
      obtain ⟨hwell, hclevis⟩ := hw.reassign hn hslots (fun k hk => filter_singleton_ne hk)
        (fun l _ hnd => hnd.filter _) (by
          intro l k hk
          rw [List.mem_filter] at hk
          exact Or.inl ⟨hk.1, by simpa using hk.2⟩)
      exact ⟨hwell, hclevis, AList.lookup_insert _, fun hk => by cases hk⟩
  · cases hc

theorem destroy_eq_some {t : KeyringToken} (hw : h.WellAssigned) (ht : h.keyring = some t)
    (hn : n ∈ t.keyslots) (hd : h.destroy n = some h') :
    h'.WellAssigned ∧ h'.clevis = h.clevis ∧
      h'.keyring = some { t with keyslots := t.keyslots.filter fun k => k ≠ n } := by
  obtain ⟨key, hkey⟩ := hw.keyring t ht n hn
  unfold destroy at hd
  split_ifs at hd
  cases hd
  obtain ⟨hwell, hclevis⟩ := hw.reassign hkey
    (fun k pass hk hkn => by rw [AList.lookup_erase_ne hkn, hk])
    (fun k hk => filter_singleton_ne hk) (fun l _ hnd => hnd.filter _) (by
      intro l k hk
      rw [List.mem_filter] at hk
      exact Or.inl ⟨hk.1, by simpa using hk.2⟩)
  exact ⟨hwell, hclevis, by simp [mapAssigned, ht]⟩

theorem WellAssigned.luks2KeyringSet (hw : h.WellAssigned) (keyDescription : String) :
    (h.luks2KeyringSet keyDescription).WellAssigned where
  nodup t ht := by
    cases ht
    exact List.nodup_nil
  keyring t ht n hn := by
    cases ht
    cases hn
  clevis := hw.clevis

theorem assignKeyslot_spec {key : Key} {t : KeyringToken} (hw : h.WellAssigned)
    (ht : h.keyring = some t) (hn : h.keyslots.lookup n = some (.keyring key)) :
    ∃ h', h.assignKeyslot n = some h' ∧ h'.WellAssigned ∧ h'.clevis = h.clevis ∧ h'.HasKeyring := by
  have hmem : n ∈ h.keyslots :=
    AList.lookup_isSome.mp (Option.isSome_iff_exists.mpr ⟨_, hn⟩)
  have hassign : h.assignKeyslot n = some { h with
      keyring := some { t with keyslots := t.keyslots.filter (· ≠ n) ++ [n] } } := by
    simp only [assignKeyslot, ht, if_pos hmem]
  refine ⟨_, hassign, ⟨?_, ?_, hw.clevis⟩, rfl, _, rfl, by simp⟩
  · intro t' ht'
    cases ht'
    rw [List.nodup_append]
    refine ⟨(hw.nodup t ht).filter _, List.nodup_singleton n, ?_⟩
    rintro a ha b hb rfl
    simp_all
  · intro t' ht' k hk
    cases ht'
    rw [List.mem_append, List.mem_singleton] at hk
    obtain hk | rfl := hk
    · exact hw.keyring t ht k (List.mem_filter.mp hk).1
    · exact ⟨key, hn⟩

theorem WellAssigned.removeKeyringToken (hw : h.WellAssigned) :
    h.removeKeyringToken.WellAssigned where
  nodup t ht := by cases ht
  keyring t ht := by cases ht
  clevis := hw.clevis

/-! ### Commands of Clevis -/

theorem clevisLuksBind_eq_some {pass : Passphrase} {jwe : Jwe} (hw : h.WellAssigned)
    (hb : h.clevisLuksBind pass jwe = some h') :
    h'.WellAssigned ∧ h'.keyring = h.keyring ∧ h'.HasClevis := by
  unfold clevisLuksBind at hb
  split at hb
  · rename_i n _ _ hempty
    cases hb
    have hn := lookup_of_findEmpty hempty
    refine ⟨⟨hw.nodup, fun t ht k hk => ?_, fun t ht => ?_⟩, rfl, rfl⟩
    · obtain ⟨key, hkey⟩ := hw.keyring t ht k hk
      exact ⟨key, lookup_insert_of_none hn hkey⟩
    · cases ht
      exact ⟨_, _, rfl, AList.lookup_insert _⟩
  · cases hb

theorem WellAssigned.ne_of_clevis (hw : h.WellAssigned) {t : KeyringToken} {c : ClevisToken}
    (ht : h.keyring = some t) (hc : h.clevis = some c) {k : ℕ} (hk : k ∈ t.keyslots)
    (hn : n ∈ c.keyslots) : k ≠ n := by
  rintro rfl
  obtain ⟨key, hkey⟩ := hw.keyring t ht k hk
  obtain ⟨m, secret, hm, hlookup⟩ := hw.clevis c hc
  rw [hm, List.mem_singleton] at hn
  rw [← hn, hkey] at hlookup
  cases hlookup

theorem mem_of_clevisBound (hb : h.clevisBound n = true) :
    ∃ c, h.clevis = some c ∧ n ∈ c.keyslots := by
  unfold clevisBound at hb
  split at hb
  · rename_i c hc
    simp only [Bool.and_eq_true, decide_eq_true_eq] at hb
    exact ⟨c, hc, hb.1.2⟩
  · cases hb

theorem clevisLuksUnbind_eq_some (hw : h.WellAssigned) (hu : h.clevisLuksUnbind n = some h') :
    h'.WellAssigned ∧ h'.keyring = h.keyring := by
  unfold clevisLuksUnbind at hu
  split_ifs at hu with hb
  obtain ⟨c, hc, hn⟩ := mem_of_clevisBound hb
  cases hu
  have hkeyring : (mapAssigned (List.filter fun k => k ≠ n)
      { h with keyslots := h.keyslots.erase n }).keyring = h.keyring := by
    cases ht : h.keyring with
    | none => simp [mapAssigned]
    | some t =>
      have hfilter : (t.keyslots.filter fun k => k ≠ n) = t.keyslots :=
        List.filter_eq_self.mpr fun k hk => by simpa using hw.ne_of_clevis ht hc hk hn
      simp only [mapAssigned, Option.map_some, hfilter]
  refine ⟨⟨fun t ht => hw.nodup t (hkeyring ▸ ht), fun t ht k hk => ?_, fun t ht => by cases ht⟩,
    hkeyring⟩
  have ht' : h.keyring = some t := hkeyring ▸ ht
  obtain ⟨key, hkey⟩ := hw.keyring t ht' k hk
  exact ⟨key, by
    change (h.keyslots.erase n).lookup k = _
    rw [AList.lookup_erase_ne (hw.ne_of_clevis ht' hc hk hn), hkey]⟩

theorem clevisLuksRegen_eq_some {jwe : Jwe} (hw : h.WellAssigned)
    (hr : h.clevisLuksRegen n jwe = some h') :
    h'.WellAssigned ∧ h'.keyring = h.keyring ∧ h'.HasClevis := by
  unfold clevisLuksRegen at hr
  split_ifs at hr with hb
  obtain ⟨c, hc, hn⟩ := mem_of_clevisBound hb
  cases hr
  refine ⟨⟨hw.nodup, fun t ht k hk => ?_, fun t ht => ?_⟩, rfl, rfl⟩
  · obtain ⟨key, hkey⟩ := hw.keyring t ht k hk
    exact ⟨key, by rw [AList.lookup_insert_ne (hw.ne_of_clevis ht hc hk hn), hkey]⟩
  · cases ht
    exact ⟨n, jwe.secret, rfl, AList.lookup_insert _⟩

end Luks2Header

end Stratisd.Crypt
