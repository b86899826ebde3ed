import Mathlib.Data.List.Induction
import Stratisd.Crypt.Pins

/-! The shares of a token. A header for the pin `sss` holds the texts of other headers, which may
hold further ones. Reading a token goes through all of them, and the shares of a header end up in
its configuration in their order, each under the name of its own pin. -/

namespace Stratisd.Crypt

open Run Run.Outcome Engine Media Value

variable {codec : JweCodec}

/-! ### Headers that are reached -/

/-- The second header is one of the shares of the first. -/
def Share (codec : JweCodec) (json share : Value) : Prop :=
  clevisPin json = some (.string "sss") ∧ ∃ object jwes s, clevisObject "sss" json = some object ∧
    (object.get "jwe").bind Value.asArray = some jwes ∧ .string s ∈ jwes ∧
    codec.decode (beforePeriod s) = .ok share

/-- The second header is the first or is reached from it through shares of shares. -/
abbrev Reaches (codec : JweCodec) : Value → Value → Prop := Relation.ReflTransGen (Share codec)

/-- The header is for a pin that is supported and has what that pin needs. -/
def WellFormed (codec : JweCodec) (json : Value) : Prop :=
  (clevisPin json = some (.string "tang") ∧ ∃ url key, IsTang json url key) ∨
  (clevisPin json = some (.string "sss") ∧ ∃ threshold jwes, IsSss json threshold jwes ∧
    ∀ jwe ∈ jwes, ∃ s share, jwe = .string s ∧ codec.decode (beforePeriod s) = .ok share) ∨
  clevisPin json = some (.string "tpm2")

/-- A share and what is read from it. -/
def ReadAs (codec : JweCodec) (jwe : Value) (info : String × Value) : Prop :=
  ∃ s json, jwe = .string s ∧ codec.decode (beforePeriod s) = .ok json ∧
    pinDispatch codec json = .ok info

variable {json : Value}

theorem Share.weight_lt {share : Value} (h : Share codec json share) :
    share.weight < json.weight := by
  obtain ⟨-, object, jwes, s, ho, hj, hs, hd⟩ := h
  have hle := weight_le_of_jwe ho hj hs
  rw [weight] at hle
  exact (codec.weight_lt hd).trans_le ((length_beforePeriod_le s).trans hle)

theorem share_iff {share : Value} {threshold : ℕ} {jwes : List Value}
    (hpin : clevisPin json = some (.string "sss")) (h : IsSss json threshold jwes) :
    Share codec json share ↔
      ∃ s, .string s ∈ jwes ∧ codec.decode (beforePeriod s) = .ok share := by
  obtain ⟨object, ho, -, hj⟩ := h
  constructor
  · rintro ⟨-, object', jwes', s, ho', hj', hs, hd⟩
    obtain rfl := Option.some.inj (ho.symm.trans ho')
    obtain rfl := Option.some.inj (hj.symm.trans hj')
    exact ⟨s, hs, hd⟩
  · rintro ⟨s, hs, hd⟩
    exact ⟨hpin, object, jwes, s, ho, hj, hs, hd⟩

theorem not_share {share : Value} {pin : String} (hpin : clevisPin json = some (.string pin))
    (hne : pin ≠ "sss") : ¬ Share codec json share := by
  rintro ⟨hsss, -⟩
  rw [hpin] at hsss
  exact hne (string.inj (Option.some.inj hsss))

theorem pinDispatch_sss_iff (hpin : clevisPin json = some (.string "sss")) {info : String × Value} :
    pinDispatch codec json = .ok info ↔ ∃ threshold jwes shares, IsSss json threshold jwes ∧
      List.Forall₂ (ReadAs codec) jwes shares ∧ ("sss", sssConfig threshold shares) = info := by
  rw [pinDispatch_eq, pinDispatchWith_eq_ok, hpin]
  simp only [Option.some.injEq, string.injEq, String.reduceEq, false_and, true_and, or_false,
    false_or, sssDispatch_eq_ok]
  constructor
  · rintro ⟨_, ⟨threshold, jwes, shares, h, hall, rfl⟩, rfl⟩
    exact ⟨threshold, jwes, shares, h, hall, rfl⟩
  · rintro ⟨threshold, jwes, shares, h, hall, rfl⟩
    exact ⟨_, ⟨threshold, jwes, shares, h, hall, rfl⟩, rfl⟩

theorem pinDispatch_isOk_iff :
    (∃ info, pinDispatch codec json = .ok info) ↔
      WellFormed codec json ∧
        ∀ share, Share codec json share → ∃ info, pinDispatch codec share = .ok info := by
  constructor
  · rintro ⟨info, hok⟩
    have hcases := hok
    rw [pinDispatch_eq, pinDispatchWith_eq_ok] at hcases
    obtain ⟨hpin, config, hc, -⟩ | ⟨hpin, -⟩ | ⟨hpin, -⟩ := hcases
    · obtain ⟨url, key, h, -⟩ := tangDispatch_eq_ok.mp hc
      exact ⟨Or.inl ⟨hpin, url, key, h⟩, fun _ hs => absurd hs (not_share hpin (by decide))⟩
    · obtain ⟨threshold, jwes, shares, h, hall, -⟩ := (pinDispatch_sss_iff hpin).mp hok
      refine ⟨Or.inr (Or.inl ⟨hpin, threshold, jwes, h, fun jwe hj => ?_⟩), fun share hs => ?_⟩
      · obtain ⟨_, -, s, json, rfl, hd, -⟩ := exists_of_forall₂ hall hj
        exact ⟨s, json, rfl, hd⟩
      · obtain ⟨s, hs, hd⟩ := (share_iff hpin h).mp hs
        obtain ⟨info, -, s', json, heq, hd', hread⟩ := exists_of_forall₂ hall hs
        obtain rfl := string.inj heq
        obtain rfl := ok.inj (hd.symm.trans hd')
        exact ⟨info, hread⟩
    · exact ⟨Or.inr (Or.inr hpin), fun _ hs => absurd hs (not_share hpin (by decide))⟩
  · rintro ⟨⟨hpin, url, key, h⟩ | ⟨hpin, threshold, jwes, h, hdecode⟩ | hpin, hshares⟩
    · exact ⟨_, (Describes.tang hpin h).pinDispatch_eq_ok⟩
    · have hread : ∀ jwe ∈ jwes, ∃ info, ReadAs codec jwe info := by
        intro jwe hj
        obtain ⟨s, share, rfl, hd⟩ := hdecode jwe hj
        obtain ⟨info, hok⟩ := hshares share ((share_iff hpin h).mpr ⟨s, hj, hd⟩)
        exact ⟨info, s, share, rfl, hd, hok⟩
      obtain ⟨shares, hall⟩ := exists_forall₂ hread
      exact ⟨_, (pinDispatch_sss_iff hpin).mpr ⟨threshold, jwes, shares, h, hall, rfl⟩⟩
    · exact ⟨_, (Describes.tpm2 hpin).pinDispatch_eq_ok⟩

theorem pinDispatch_isOk_iff_reaches :
    (∃ info, pinDispatch codec json = .ok info) ↔
      ∀ json', Reaches codec json json' → WellFormed codec json' := by
  constructor
  · intro hok json' hreach
    have hok' : ∃ info, pinDispatch codec json' = .ok info := by
      induction hreach with
      | refl => exact hok
      | tail _ hs ih => exact (pinDispatch_isOk_iff.mp ih).2 _ hs
    exact (pinDispatch_isOk_iff.mp hok').1
  · intro hall
    -- shares are lighter than the header they are in
    induction hw : json.weight using Nat.strong_induction_on generalizing json with
    | h w ih =>
      refine pinDispatch_isOk_iff.mpr ⟨hall json .refl, fun share hs => ?_⟩
      exact ih share.weight (hw ▸ hs.weight_lt) (fun json' hr => hall json' (.head hs hr)) rfl

/-! ### The shares of each pin -/

/-- The shares under the name of a pin, in their order. -/
def sharesOf (pin : String) (shares : List (String × Value)) : List Value :=
  (shares.filter fun share => share.1 = pin).map (·.2)

theorem sharesOf_append_self (shares : List (String × Value)) (share : String × Value) :
    sharesOf share.1 (shares ++ [share]) = sharesOf share.1 shares ++ [share.2] := by
  simp [sharesOf]

theorem sharesOf_append_other {shares : List (String × Value)} {share : String × Value}
    {pin : String} (h : share.1 ≠ pin) :
    sharesOf pin (shares ++ [share]) = sharesOf pin shares := by
  simp [sharesOf, h]

theorem get_foldl_addShare (shares : List (String × Value)) (pin : String) :
    ((shares.foldl addShare .nil).get pin).map asArray =
      if sharesOf pin shares = [] then none else some (some (sharesOf pin shares)) := by
  induction shares using List.reverseRecOn with
  | nil => rfl
  | append_singleton shares share ih =>
    rw [List.foldl_append, List.foldl_cons, List.foldl_nil]
    by_cases hpin : share.1 = pin
    · subst hpin
      rw [sharesOf_append_self, if_neg (by simp)]
      cases hget : (shares.foldl addShare .nil).get share.1 with
      | none =>
        rw [hget] at ih
        have hnil : sharesOf share.1 shares = [] := by
          by_contra hne
          rw [if_neg hne] at ih
          cases ih
        simp only [addShare, hget, Fields.get_insert, hnil]
        rfl
      | some v =>
        rw [hget, Option.map_some] at ih
        split_ifs at ih with hnil
        cases v <;> simp only [asArray, Option.some.injEq, reduceCtorEq] at ih
        simp only [addShare, hget, Fields.get_insert, if_true, Option.map_some, asArray,
          Values.toList_push, ih]
    · rw [sharesOf_append_other hpin, ← ih]
      unfold addShare
      split <;> rw [Fields.get_insert, if_neg hpin]

/-! ### Reading ends -/

theorem sssPins_ne_panic {f : Value → StratisResult (String × Value)} {bound : ℕ}
    (hdecode : ∀ text, codec.decode text ≠ .panic) (hf : ∀ v, v.weight < bound → f v ≠ .panic)
    (jwes : List Value) (hjwes : ∀ v ∈ jwes, v.weight ≤ bound) {pins : Fields}
    (h : AllArrays pins) : sssPins codec f pins jwes ≠ .panic := by
  induction jwes generalizing pins with
  | nil => exact ok_ne_panic pins
  | cons jwe jwes ih =>
    cases jwe with
    | string s =>
      rw [sssPins_cons h]
      have hs : s.length ≤ bound := by
        have hle := hjwes _ List.mem_cons_self
        rwa [weight] at hle
      cases hd : codec.decode (beforePeriod s) with
      | panic => exact absurd hd (hdecode _)
      | err e => exact err_ne_panic e
      | ok value =>
        have hlt : value.weight < bound :=
          (codec.weight_lt hd).trans_le ((length_beforePeriod_le s).trans hs)
        rw [ok_bind]
        exact bind_ne_panic (hf value hlt) fun share =>
          ih (fun v hv => hjwes v (List.mem_cons_of_mem _ hv)) (h.addShare share)
    | _ => exact err_ne_panic _

theorem pinDispatch_ne_panic (hdecode : ∀ text, codec.decode text ≠ .panic) (json : Value) :
    pinDispatch codec json ≠ .panic := by
  induction hw : json.weight using Nat.strong_induction_on generalizing json with
  | h w ih =>
    have hoption : ∀ {α : Type} (e : StratisError) (o : Option α),
        ofOption e o ≠ .panic := by
      intro α e o
      cases o with
      | none => exact err_ne_panic e
      | some a => exact ok_ne_panic a
    have htang : tangDispatch codec json ≠ .panic :=
      bind_ne_panic (hoption _ _) fun _ => bind_ne_panic (hoption _ _) fun _ =>
        bind_ne_panic (hoption _ _) fun _ => bind_ne_panic (hoption _ _) fun _ =>
          bind_ne_panic (hoption _ _) fun _ => ok_ne_panic _
    have hsss : sssDispatch codec (pinDispatch codec) json ≠ .panic := by
      unfold sssDispatch
      cases ho : clevisObject "sss" json with
      | none => exact err_ne_panic _
      | some object =>
        rw [ofOption_some, ok_bind]
        refine bind_ne_panic (hoption _ _) fun threshold => ?_
        cases hj : (object.get "jwe").bind asArray with
        | none => exact err_ne_panic _
        | some jwes =>
          rw [ofOption_some, ok_bind]
          refine bind_ne_panic ?_ fun pins => ok_ne_panic _
          refine sssPins_ne_panic hdecode (fun v hv => ih v.weight hv v rfl) jwes ?_ allArrays_nil
          exact fun v hv => hw ▸ weight_le_of_jwe ho hj hv
    rw [pinDispatch_eq, pinDispatchWith]
    refine bind_ne_panic (hoption _ _) fun pin => ?_
    split_ifs
    · exact bind_ne_panic htang fun _ => ok_ne_panic _
    · exact bind_ne_panic hsss fun _ => ok_ne_panic _
    · exact ok_ne_panic _
    · exact err_ne_panic _

theorem clevisPin_of_sss {config : Value} (h : pinDispatch codec json = .ok ("sss", config)) :
    clevisPin json = some (.string "sss") := by
  rw [pinDispatch_eq, pinDispatchWith_eq_ok] at h
  obtain ⟨-, _, -, heq⟩ | ⟨hpin, -⟩ | ⟨-, heq⟩ := h
  · exact absurd (Prod.mk.inj heq).1 (by decide)
  · exact hpin
  · exact absurd (Prod.mk.inj heq).1 (by decide)

/-- Reading a token comes to an end, and succeeds exactly if every header that is reached is well
formed. The configuration of each header for the pin `sss` has under the name of each pin what is
read from the shares for that pin, in the order of the shares. -/
theorem pinDispatch_reads_every_share (codec : JweCodec)
    (hdecode : ∀ text, codec.decode text ≠ .panic) (json : Value) :
    (∃ depth, ∀ n, depth ≤ n → pinDispatchIn codec n json = pinDispatch codec json) ∧
    pinDispatch codec json ≠ .panic ∧
    ((∃ info, pinDispatch codec json = .ok info) ↔
      ∀ json', Reaches codec json json' → WellFormed codec json') ∧
    ∀ json' config, Reaches codec json json' → pinDispatch codec json' = .ok ("sss", config) →
      ∃ threshold jwes shares pins, IsSss json' threshold jwes ∧
        List.Forall₂ (ReadAs codec) jwes shares ∧
        config.get "t" = some (.number (.int threshold)) ∧
        config.get "pins" = some (.object pins) ∧
        ∀ pin, (pins.get pin).map Value.asArray =
          if sharesOf pin shares = [] then none else some (some (sharesOf pin shares)) := by
  refine ⟨⟨json.weight + 1, fun n hn => ?_⟩, pinDispatch_ne_panic hdecode json,
    pinDispatch_isOk_iff_reaches, fun json' config _ hok => ?_⟩
  · exact pinDispatchIn_stable hn (Nat.lt_succ_self _)
  · obtain ⟨threshold, jwes, shares, h, hall, heq⟩ :=
      (pinDispatch_sss_iff (clevisPin_of_sss hok)).mp hok
    rw [← (Prod.mk.inj heq).2]
    exact ⟨threshold, jwes, shares, _, h, hall, rfl, rfl, get_foldl_addShare shares⟩

def tpm2Header : Value :=
  .object (.cons "clevis" (.object (.cons "pin" (.string "tpm2") .nil)) .nil)

/-- A header with two shares of the same text. -/
def twoShares : Value :=
  .object (.cons "clevis" (.object (.cons "pin" (.string "sss") (.cons "sss" (.object
    (.cons "jwe" (.array (.cons (.string "share.x") (.cons (.string "share.y") .nil)))
      (.cons "t" (.number (.int 1)) .nil))) .nil))) .nil)

/-- One text is that of a header. -/
def shareCodec : JweCodec where
  decode text := if text = "share" then .ok tpm2Header else .err .serde
  thumbprint := id
  weight_lt {text value} h := by
    split_ifs at h with htext
    rw [← Outcome.ok.inj h, htext]
    decide

/-- Two shares for one pin. -/
theorem pinDispatch_reads_two_shares :
    (∀ json', Reaches shareCodec twoShares json' → WellFormed shareCodec json') ∧
      pinDispatch shareCodec twoShares = .ok ("sss", sssConfig 1
        [("tpm2", .object .nil), ("tpm2", .object .nil)]) := by
  have hok : pinDispatch shareCodec twoShares = .ok ("sss", sssConfig 1
      [("tpm2", .object .nil), ("tpm2", .object .nil)]) := by
    decide
  refine ⟨?_, hok⟩
  refine (pinDispatch_reads_every_share shareCodec (fun text => ?_) twoShares).2.2.1.mp ⟨_, hok⟩
  simp only [shareCodec]
  split_ifs <;> exact nofun

end Stratisd.Crypt
