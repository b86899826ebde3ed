import Stratisd.Crypt.Handle

/-! How the configuration of Clevis is read back from a token. The header of what Clevis encrypted
names the pin. From a header of the pin `tang` the address of the server and a thumbprint of its
key are taken, from one of the pin `sss` the shares, each of which is such a header in its turn,
and from one of the pin `tpm2` nothing. -/

namespace Stratisd.Crypt

open Run Run.Outcome Engine Media

/-- The text formats in a token. -/
structure JweCodec where
  /-- The value that a text of base64url without padding encodes. -/
  decode : String → StratisResult Value
  /-- The SHA-256 hash of a text, in base64url without padding. -/
  thumbprint : String → String
  /-- Base64 is longer than what it encodes, and every string of a value stands in its text. -/
  weight_lt : ∀ {text : String} {value : Value}, decode text = .ok value →
    value.weight < text.length

def beforePeriod (s : String) : String := String.ofList (s.toList.takeWhile (· ≠ '.'))

theorem length_beforePeriod_le (s : String) : (beforePeriod s).length ≤ s.length := by
  rw [beforePeriod, String.length_ofList, ← String.length_toList]
  exact (List.takeWhile_prefix _).length_le

/-! ### Reading a header -/

def clevisPin (json : Value) : Option Value := (json.get "clevis").bind (Value.get "pin")

def clevisObject (pin : String) (json : Value) : Option Fields :=
  ((json.get "clevis").bind (Value.get pin)).bind Value.asObject

def verifyKeyOps : Value := .array (.cons (.string "verify") .nil)

section

variable (codec : JweCodec)

/-- The thumbprint is of the key alone, not of what it is for. -/
def tangConfig (url : String) (key : Fields) : Value :=
  let key := Value.object ((key.remove "key_ops").1.remove "alg").1
  .object (.cons "thp" (.string (codec.thumbprint key.display)) (.cons "url" (.string url) .nil))

def tangDispatch (json : Value) : StratisResult Value := do
  let object ← Outcome.ofOption (.msg "Expected an object for value of clevis.tang")
    (clevisObject "tang" json)
  let url ← Outcome.ofOption (.msg "Expected a string for value of clevis.tang.url")
    ((object.get "url").bind Value.asStr)
  let keys ← Outcome.ofOption (.msg "Expected an array for value of clevis.tang.adv.keys")
    (((object.get "adv").bind (Value.get "keys")).bind Value.asArray)
  let key ← Outcome.ofOption (.msg "Verification key not found in clevis metadata")
    (keys.find? fun key => key.get "key_ops" = some verifyKeyOps)
  let key ← Outcome.ofOption (.msg "Key value is not in JSON object format") key.asObject
  .ok (tangConfig codec url key)

-- Text split at periods has a first part always, so there is no error for text without one.
/-- Put the shares under the names of their pins. -/
def sssPins (pinDispatch : Value → StratisResult (String × Value)) :
    Fields → List Value → StratisResult Fields
  | pins, [] => .ok pins
  | pins, .string s :: jwes => do
    let value ← codec.decode (beforePeriod s)
    let (pin, value) ← pinDispatch value
    match pins.get pin with
    | some (.array values) => sssPins pinDispatch (pins.insert pin (.array (values.push value))) jwes
    | none => sssPins pinDispatch (pins.insert pin (.array (.cons value .nil))) jwes
    | some _ => .err (.msg
        ("There appears to be a data type that is not an array in the data structure being used " ++
          "to construct the sss JSON config\n                            under pin name " ++ pin))
  | _, _ :: _ =>
    .err (.msg "Expected a string for each value in the array at clevis.sss.jwe")

def sssDispatch (pinDispatch : Value → StratisResult (String × Value)) (json : Value) :
    StratisResult Value := do
  let object ← Outcome.ofOption (.msg "Expected an object for value of clevis.sss")
    (clevisObject "sss" json)
  let threshold ← Outcome.ofOption (.msg "Expected an int for value of clevis.sss.t")
    ((object.get "t").bind Value.asU64)
  let jwes ← Outcome.ofOption (.msg "Expected an array for value of clevis.sss.jwe")
    ((object.get "jwe").bind Value.asArray)
  let pins ← sssPins codec pinDispatch .nil jwes
  .ok (.object (.cons "pins" (.object pins) (.cons "t" (.number (.int threshold)) .nil)))

/-- The pin and its configuration, given how the shares are read. -/
def pinDispatchWith (pinDispatch : Value → StratisResult (String × Value)) (json : Value) :
    StratisResult (String × Value) := do
  let pin ← Outcome.ofOption (.msg "Key .clevis.pin not found in clevis JSON token")
    (clevisPin json)
  if pin.asStr = some "tang" then do
    let config ← tangDispatch codec json
    .ok ("tang", config)
  else if pin.asStr = some "sss" then do
    let config ← sssDispatch codec pinDispatch json
    .ok ("sss", config)
  else if pin.asStr = some "tpm2" then .ok ("tpm2", .object .nil)
  else .err (.msg "Unsupported clevis pin")

/-- The same, with a bound on how deep shares are nested. -/
def pinDispatchIn : ℕ → Value → StratisResult (String × Value)
  | 0, _ => .panic
  | depth + 1, json => pinDispatchWith codec (pinDispatchIn depth) json

def pinDispatch (json : Value) : StratisResult (String × Value) :=
  pinDispatchIn codec (json.weight + 1) json

end

variable {codec : JweCodec}

/-! ### The bound is never met -/

variable {json : Value} {jwes : List Value}

theorem weight_le_of_jwe {object : Fields} (ho : clevisObject "sss" json = some object)
    (hj : (object.get "jwe").bind Value.asArray = some jwes) {jwe : Value} (h : jwe ∈ jwes) :
    jwe.weight ≤ json.weight := by
  obtain ⟨sss, hsss, hobject⟩ := Option.bind_eq_some_iff.mp ho
  obtain ⟨clevis, hclevis, hget⟩ := Option.bind_eq_some_iff.mp hsss
  obtain ⟨array, harray, hjwes⟩ := Option.bind_eq_some_iff.mp hj
  have hfield : sss.get "jwe" = some array := by
    rw [Value.get, hobject, Option.bind_some, harray]
  calc jwe.weight ≤ array.weight := Value.weight_le_of_asArray hjwes h
    _ ≤ sss.weight := Value.weight_le_of_get hfield
    _ ≤ clevis.weight := Value.weight_le_of_get hget
    _ ≤ json.weight := Value.weight_le_of_get hclevis

variable {f : Value → StratisResult (String × Value)}

theorem sssPins_congr {g : Value → StratisResult (String × Value)} {bound : ℕ}
    (hfg : ∀ v, v.weight < bound → f v = g v) (jwes : List Value)
    (hjwes : ∀ v ∈ jwes, v.weight ≤ bound) (pins : Fields) :
    sssPins codec f pins jwes = sssPins codec g pins jwes := by
  induction jwes generalizing pins with
  | nil => rfl
  | cons jwe jwes ih =>
    have ih := ih fun v hv => hjwes v (List.mem_cons_of_mem _ hv)
    cases jwe with
    | string s =>
      have hs : s.length ≤ bound := by
        have h := hjwes _ List.mem_cons_self
        rwa [Value.weight] at h
      unfold sssPins
      refine bind_congr fun value hd => ?_
      -- a share is shorter than the text it is in
      have hlt : value.weight < bound :=
        lt_of_lt_of_le (codec.weight_lt hd) ((length_beforePeriod_le s).trans hs)
      simp only [hfg value hlt, ih]
    | _ => rfl

theorem pinDispatchWith_congr {g : Value → StratisResult (String × Value)}
    (hfg : ∀ v, v.weight < json.weight → f v = g v) :
    pinDispatchWith codec f json = pinDispatchWith codec g json := by
  have hsss : sssDispatch codec f json = sssDispatch codec g json := by
    refine bind_congr fun object ho => bind_congr fun _ _ =>
      bind_congr fun jwes hj => ?_
    rw [ofOption_eq_ok] at ho hj
    rw [sssPins_congr hfg jwes fun v hv => weight_le_of_jwe ho hj hv]
  simp only [pinDispatchWith, hsss]

theorem pinDispatchIn_stable {n m : ℕ} (hn : json.weight < n) (hm : json.weight < m) :
    pinDispatchIn codec n json = pinDispatchIn codec m json := by
  induction n generalizing m json with
  | zero => omega
  | succ n ih =>
    obtain ⟨m, rfl⟩ : ∃ k, m = k + 1 := ⟨m - 1, by omega⟩
    exact pinDispatchWith_congr fun v hv => ih (by omega) (by omega)

theorem pinDispatch_eq (json : Value) :
    pinDispatch codec json = pinDispatchWith codec (pinDispatch codec) json :=
  pinDispatchWith_congr fun _ hv => pinDispatchIn_stable hv (Nat.lt_succ_self _)

/-! ### What a header says -/

/-- The address of the server and the first of its keys that is for verification only. -/
def IsTang (json : Value) (url : String) (key : Fields) : Prop :=
  ∃ object keys, clevisObject "tang" json = some object ∧
    (object.get "url").bind Value.asStr = some url ∧
    ((object.get "adv").bind (Value.get "keys")).bind Value.asArray = some keys ∧
    (keys.find? fun key => key.get "key_ops" = some verifyKeyOps) = some (.object key)

/-- The threshold and the shares, which are texts. -/
def IsSss (json : Value) (threshold : ℕ) (jwes : List Value) : Prop :=
  ∃ object, clevisObject "sss" json = some object ∧
    (object.get "t").bind Value.asU64 = some threshold ∧
    (object.get "jwe").bind Value.asArray = some jwes

/-- One more share under the name of its pin. -/
def addShare (pins : Fields) (share : String × Value) : Fields :=
  match pins.get share.1 with
  | some (.array values) => pins.insert share.1 (.array (values.push share.2))
  | _ => pins.insert share.1 (.array (.cons share.2 .nil))

def sssConfig (threshold : ℕ) (shares : List (String × Value)) : Value :=
  .object (.cons "pins" (.object (shares.foldl addShare .nil))
    (.cons "t" (.number (.int threshold)) .nil))

mutual

/-- The header is for a pin with a configuration. -/
inductive Describes (codec : JweCodec) : Value → String × Value → Prop
  | tang {json : Value} {url : String} {key : Fields}
      (hpin : clevisPin json = some (.string "tang")) (h : IsTang json url key) :
      Describes codec json ("tang", tangConfig codec url key)
  | tpm2 {json : Value} (hpin : clevisPin json = some (.string "tpm2")) :
      Describes codec json ("tpm2", .object .nil)
  | sss {json : Value} {threshold : ℕ} {jwes : List Value} {shares : List (String × Value)}
      (hpin : clevisPin json = some (.string "sss")) (h : IsSss json threshold jwes)
      (hshares : DescribesAll codec jwes shares) :
      Describes codec json ("sss", sssConfig threshold shares)

/-- Each share is the text of a header. -/
inductive DescribesAll (codec : JweCodec) : List Value → List (String × Value) → Prop
  | nil : DescribesAll codec [] []
  | cons {s : String} {json : Value} {share : String × Value} {jwes : List Value}
      {shares : List (String × Value)} (hdecode : codec.decode (beforePeriod s) = .ok json)
      (h : Describes codec json share) (hshares : DescribesAll codec jwes shares) :
      DescribesAll codec (.string s :: jwes) (share :: shares)

end

theorem asStr_eq_some {v : Value} {s : String} : v.asStr = some s ↔ v = .string s := by
  cases v <;> simp [Value.asStr]

theorem tangDispatch_eq_ok {config : Value} :
    tangDispatch codec json = .ok config ↔
      ∃ url key, IsTang json url key ∧ tangConfig codec url key = config := by
  have hobject : ∀ {v : Value} {fields : Fields}, v.asObject = some fields ↔ v = .object fields :=
    fun {v fields} => by cases v <;> simp [Value.asObject]
  simp only [tangDispatch, Outcome.bind_eq_ok, ofOption_eq_ok, ok.injEq, IsTang,
    hobject]
  constructor
  · rintro ⟨object, ho, url, hurl, keys, hkeys, _, hkey, key, rfl, rfl⟩
    exact ⟨url, key, ⟨object, keys, ho, hurl, hkeys, hkey⟩, rfl⟩
  · rintro ⟨url, key, ⟨object, keys, ho, hurl, hkeys, hkey⟩, rfl⟩
    exact ⟨object, ho, url, hurl, keys, hkeys, _, hkey, key, rfl, rfl⟩

/-- Under the names of pins are arrays only. -/
def AllArrays (pins : Fields) : Prop := ∀ pin v, pins.get pin = some v → ∃ values, v = .array values

theorem AllArrays.addShare {pins : Fields} (h : AllArrays pins) (share : String × Value) :
    AllArrays (addShare pins share) := by
  intro pin v hv
  unfold Crypt.addShare at hv
  split at hv
  all_goals
    rw [Fields.get_insert] at hv
    split_ifs at hv
    · cases hv
      exact ⟨_, rfl⟩
    · exact h pin v hv

theorem sssPins_cons {pins : Fields} (h : AllArrays pins) {s : String} :
    sssPins codec f pins (.string s :: jwes) = (do
      let value ← codec.decode (beforePeriod s)
      let share ← f value
      sssPins codec f (addShare pins share) jwes) := by
  rw [sssPins]
  refine bind_congr fun value _ => bind_congr fun ⟨pin, value⟩ _ => ?_
  unfold addShare
  cases hget : pins.get pin with
  | none => simp only [hget]
  | some v =>
    obtain ⟨values, rfl⟩ := h _ v hget
    simp only [hget]

theorem sssPins_eq_ok {pins pins' : Fields} (h : AllArrays pins) :
    sssPins codec f pins jwes = .ok pins' ↔ ∃ shares,
      List.Forall₂ (fun jwe share => ∃ s json, jwe = .string s ∧
        codec.decode (beforePeriod s) = .ok json ∧ f json = .ok share) jwes shares ∧
      shares.foldl addShare pins = pins' := by
  induction jwes generalizing pins with
  | nil => simp [sssPins]
  | cons jwe jwes ih =>
    constructor
    · intro hok
      cases jwe with
      | string s =>
        rw [sssPins_cons h, Outcome.bind_eq_ok] at hok
        obtain ⟨json, hd, hok⟩ := hok
        obtain ⟨share, hf, hok⟩ := Outcome.bind_eq_ok.mp hok
        obtain ⟨shares, hall, hpins⟩ := (ih (h.addShare share)).mp hok
        exact ⟨share :: shares, .cons ⟨s, json, rfl, hd, hf⟩ hall, hpins⟩
      | _ => cases hok
    · rintro ⟨_, hall, hpins⟩
      cases hall with
      | cons hshare hall =>
        obtain ⟨s, json, rfl, hd, hf⟩ := hshare
        rw [sssPins_cons h, hd, ok_bind, hf, ok_bind]
        exact (ih (h.addShare _)).mpr ⟨_, hall, hpins⟩

theorem allArrays_nil : AllArrays .nil := by
  intro pin v hv
  cases hv

theorem sssDispatch_eq_ok {config : Value} :
    sssDispatch codec f json = .ok config ↔ ∃ threshold jwes shares, IsSss json threshold jwes ∧
      List.Forall₂ (fun jwe share => ∃ s json, jwe = .string s ∧
        codec.decode (beforePeriod s) = .ok json ∧ f json = .ok share) jwes shares ∧
      sssConfig threshold shares = config := by
  simp only [sssDispatch, Outcome.bind_eq_ok, ofOption_eq_ok, ok.injEq,
    sssPins_eq_ok allArrays_nil, IsSss]
  constructor
  · rintro ⟨object, ho, threshold, ht, jwes, hj, _, ⟨shares, hall, rfl⟩, rfl⟩
    exact ⟨threshold, jwes, shares, ⟨object, ho, ht, hj⟩, hall, rfl⟩
  · rintro ⟨threshold, jwes, shares, ⟨object, ho, ht, hj⟩, hall, rfl⟩
    exact ⟨object, ho, threshold, ht, jwes, hj, _, ⟨shares, hall, rfl⟩, rfl⟩

variable {info : String × Value}

theorem pinDispatchWith_eq_ok :
    pinDispatchWith codec f json = .ok info ↔
      clevisPin json = some (.string "tang") ∧
        (∃ config, tangDispatch codec json = .ok config ∧ ("tang", config) = info) ∨
      clevisPin json = some (.string "sss") ∧
        (∃ config, sssDispatch codec f json = .ok config ∧ ("sss", config) = info) ∨
      clevisPin json = some (.string "tpm2") ∧ ("tpm2", Value.object .nil) = info := by
  rw [pinDispatchWith, Outcome.bind_eq_ok]
  constructor
  · rintro ⟨pin, hpin, hok⟩
    rw [ofOption_eq_ok] at hpin
    simp only [asStr_eq_some] at hok
    split_ifs at hok with h1 h2 h3
    · obtain ⟨config, hc, heq⟩ := Outcome.bind_eq_ok.mp hok
      exact Or.inl ⟨h1 ▸ hpin, config, hc, ok.inj heq⟩
    · obtain ⟨config, hc, heq⟩ := Outcome.bind_eq_ok.mp hok
      exact Or.inr (Or.inl ⟨h2 ▸ hpin, config, hc, ok.inj heq⟩)
    · exact Or.inr (Or.inr ⟨h3 ▸ hpin, ok.inj hok⟩)
  · rintro (⟨hpin, config, hc, rfl⟩ | ⟨hpin, config, hc, rfl⟩ | ⟨hpin, rfl⟩)
    · exact ⟨_, ofOption_eq_ok.mpr hpin, by simp [Value.asStr, hc]⟩
    · exact ⟨_, ofOption_eq_ok.mpr hpin, by simp [Value.asStr, hc]⟩
    · exact ⟨_, ofOption_eq_ok.mpr hpin, by simp [Value.asStr]⟩

theorem Describes.pinDispatch_eq_ok (h : Describes codec json info) :
    pinDispatch codec json = .ok info := by
  -- the shares of a header are read along with it
  refine @Describes.rec codec (fun json info _ => pinDispatch codec json = .ok info)
    (fun jwes shares _ => List.Forall₂ (fun jwe share => ∃ s json, jwe = .string s ∧
      codec.decode (beforePeriod s) = .ok json ∧ pinDispatch codec json = .ok share) jwes shares)
    ?_ ?_ ?_ ?_ ?_ json info h
  · intro json url key hpin h
    rw [pinDispatch_eq, pinDispatchWith_eq_ok]
    exact Or.inl ⟨hpin, _, tangDispatch_eq_ok.mpr ⟨url, key, h, rfl⟩, rfl⟩
  · intro json hpin
    rw [pinDispatch_eq, pinDispatchWith_eq_ok]
    exact Or.inr (Or.inr ⟨hpin, rfl⟩)
  · intro json threshold jwes shares hpin h _ hall
    rw [pinDispatch_eq, pinDispatchWith_eq_ok]
    exact Or.inr (Or.inl ⟨hpin, _, sssDispatch_eq_ok.mpr ⟨_, _, _, h, hall, rfl⟩, rfl⟩)
  · exact .nil
  · intro s json share jwes shares hdecode _ _ hok hall
    exact .cons ⟨s, json, rfl, hdecode, hok⟩ hall

theorem describesAll_of_forall₂ {shares : List (String × Value)}
    (h : List.Forall₂ (fun jwe share => ∃ s json, jwe = .string s ∧
      codec.decode (beforePeriod s) = .ok json ∧ pinDispatch codec json = .ok share) jwes shares)
    {bound : ℕ} (hjwes : ∀ jwe ∈ jwes, jwe.weight ≤ bound)
    (ih : ∀ json share, json.weight < bound → pinDispatch codec json = .ok share →
      Describes codec json share) : DescribesAll codec jwes shares := by
  induction h with
  | nil => exact .nil
  | cons hshare _ ihs =>
    obtain ⟨s, json, rfl, hd, hok⟩ := hshare
    have hs : s.length ≤ bound := by
      have h := hjwes _ List.mem_cons_self
      rwa [Value.weight] at h
    have hlt : json.weight < bound :=
      lt_of_lt_of_le (codec.weight_lt hd) ((length_beforePeriod_le s).trans hs)
    exact .cons hd (ih json _ hlt hok) (ihs fun jwe hj => hjwes jwe (List.mem_cons_of_mem _ hj))

theorem pinDispatch_eq_ok_iff : pinDispatch codec json = .ok info ↔ Describes codec json info := by
  refine ⟨fun hok => ?_, Describes.pinDispatch_eq_ok⟩
  -- shares are lighter than the header they are in
  induction hw : json.weight using Nat.strong_induction_on generalizing json info with
  | h w ih =>
    rw [pinDispatch_eq, pinDispatchWith_eq_ok] at hok
    obtain ⟨hpin, config, hc, rfl⟩ | ⟨hpin, config, hc, rfl⟩ | ⟨hpin, rfl⟩ := hok
    · obtain ⟨url, key, h, rfl⟩ := tangDispatch_eq_ok.mp hc
      exact .tang hpin h
    · obtain ⟨threshold, jwes, shares, h, hall, rfl⟩ := sssDispatch_eq_ok.mp hc
      have hjwes : ∀ jwe ∈ jwes, jwe.weight ≤ w := fun jwe hj => by
        obtain ⟨object, ho, -, hjs⟩ := h
        exact hw ▸ weight_le_of_jwe ho hjs hj
      exact .sss hpin h (describesAll_of_forall₂ hall hjwes fun json share hlt hok =>
        ih json.weight hlt hok rfl)
    · exact .tpm2 hpin

theorem Describes.unique {info' : String × Value} (h : Describes codec json info)
    (h' : Describes codec json info') : info = info' :=
  ok.inj (h.pinDispatch_eq_ok.symm.trans h'.pinDispatch_eq_ok)

end Stratisd.Crypt
