import Stratisd.Metadata.HeaderRepair

/-! A repair that is not to write. The caller passes the action for repairs, and one that does
nothing is meant to leave the device alone. The action is not asked when a signature block can
not be read: the header found in the other place is written there all the same. -/

namespace Stratisd.Metadata

open Run Engine Media

namespace StaticHeader

/-- One signature block can not be read and the other holds a header. -/
def Bypasses (results : StaticHeaderResult × StaticHeaderResult) : Prop :=
  ∃ sh, results.1.header = some (.ok (some sh)) ∧ results.2.header = none ∨
    results.1.header = none ∧ results.2.header = some (.ok (some sh))

/-- Look at the header of a device without repairing it. -/
def inspect (crc : List UInt8 → UInt32) (fault : Option Cut) :
    Stateful OpenFile StratisError (Option StaticHeader) := do
  let f ← Stateful.get
  repairSigblocks crc doNothing fault (readSigblocks crc f)

variable {crc : List UInt8 → UInt32} {fault : Option Cut}

theorem StaticHeaderResult.cases (r : StaticHeaderResult) :
    (∃ e, r.header = none ∧ r.bytes = .error e) ∨
      ∃ parsed buf, r.header = some parsed ∧ r.bytes = .ok buf := by
  cases hh : r.header with
  | none =>
    obtain ⟨e, he⟩ := r.header_eq_none_iff.mp hh
    exact Or.inl ⟨e, rfl, he⟩
  | some parsed =>
    cases hb : r.bytes with
    | error e =>
      have := r.header_eq_none_iff.mpr ⟨e, hb⟩
      rw [hh] at this
      cases this
    | ok buf => exact Or.inr ⟨parsed, buf, rfl, rfl⟩

/-- A repair comes to a result, or to a request to the action for repairs, whether writes fail
or not. -/
def Through (run : Option Cut →
      (StaticHeader → MetadataLocation → Stateful OpenFile StratisError (Option StaticHeader)) →
    Stateful OpenFile StratisError (Option StaticHeader)) : Prop :=
  (∃ r, ∀ fault closure f, run fault closure f = (f, r)) ∨
    ∃ sh which, ∀ fault closure f, run fault closure f = closure sh which f

theorem through_okErr (maybeSh : Option StaticHeader) (e : StratisError) (which : MetadataLocation) :
    Through fun _ closure => okErrStaticHeaderHandling closure maybeSh e which := by
  cases maybeSh with
  | none => exact Or.inl ⟨.err e, fun _ _ _ => rfl⟩
  | some sh => exact Or.inr ⟨sh, which, fun _ _ _ => rfl⟩

theorem through_compareHeaders (sh₁ sh₂ : StaticHeader) :
    Through fun _ closure => compareHeaders closure sh₁ sh₂ := by
  unfold compareHeaders
  split_ifs
  · exact Or.inl ⟨.ok (some sh₁), fun _ _ _ => rfl⟩
  · exact Or.inl ⟨_, fun _ _ _ => rfl⟩
  · exact Or.inr ⟨sh₁, .second, fun _ _ _ => rfl⟩
  · exact Or.inr ⟨sh₂, .first, fun _ _ _ => rfl⟩

theorem through_okOk (maybeSh₁ maybeSh₂ : Option StaticHeader) :
    Through fun _ closure => okOkStaticHeaderHandling closure maybeSh₁ maybeSh₂ := by
  cases maybeSh₁ with
  | none =>
    cases maybeSh₂ with
    | none => exact Or.inl ⟨.ok none, fun _ _ _ => rfl⟩
    | some sh => exact Or.inr ⟨sh, .first, fun _ _ _ => rfl⟩
  | some sh₁ =>
    cases maybeSh₂ with
    | none => exact Or.inr ⟨sh₁, .second, fun _ _ _ => rfl⟩
    | some sh₂ => exact through_compareHeaders sh₁ sh₂

theorem copyOkErr_cases (crc : List UInt8 → UInt32) (parsed : StratisResult (Option StaticHeader))
    (which : MetadataLocation) :
    (∀ sh, parsed ≠ .ok (some sh)) ∧
        (∀ fault f, copyOkErrHandling crc fault parsed which f = (f, parsed)) ∨
      ∃ sh, parsed = .ok (some sh) ∧
        ∀ fault, copyOkErrHandling crc fault parsed which = writeHeader crc fault sh which := by
  match parsed with
  | .ok (some sh) => exact Or.inr ⟨sh, rfl, fun _ => rfl⟩
  | .ok none => exact Or.inl ⟨by simp, fun _ _ => rfl⟩
  | .err e => exact Or.inl ⟨by simp, fun _ _ => rfl⟩
  | .panic => exact Or.inl ⟨by simp, fun _ _ => rfl⟩

/-- The action for repairs decides about every write, unless one block can not be read and the
other holds a header: that header is written whatever the action is. -/
theorem repairSigblocks_cases (crc : List UInt8 → UInt32)
    (results : StaticHeaderResult × StaticHeaderResult) :
    ¬ Bypasses results ∧
        (Through fun fault closure => repairSigblocks crc closure fault results) ∨
      Bypasses results ∧ ∃ sh which, ∀ fault closure,
        repairSigblocks crc closure fault results = writeHeader crc fault sh which := by
  obtain ⟨r₁, r₂⟩ := results
  unfold Bypasses repairSigblocks
  rcases StaticHeaderResult.cases r₁ with ⟨e₁, hh₁, hb₁⟩ | ⟨p₁, b₁, hh₁, hb₁⟩ <;>
    rcases StaticHeaderResult.cases r₂ with ⟨e₂, hh₂, hb₂⟩ | ⟨p₂, b₂, hh₂, hb₂⟩ <;>
      simp only [hh₁, hb₁, hh₂, hb₂]
  · exact Or.inl ⟨by simp, Or.inl ⟨_, fun _ _ _ => rfl⟩⟩
  · rcases copyOkErr_cases crc p₂ .first with ⟨hne, he⟩ | ⟨sh, rfl, he⟩
    · exact Or.inl ⟨by simpa using hne, Or.inl ⟨p₂, fun fault _ f => he fault f⟩⟩
    · exact Or.inr ⟨⟨sh, by simp⟩, sh, .first, fun fault _ => he fault⟩
  · rcases copyOkErr_cases crc p₁ .second with ⟨hne, he⟩ | ⟨sh, rfl, he⟩
    · exact Or.inl ⟨by simpa using hne, Or.inl ⟨p₁, fun fault _ f => he fault f⟩⟩
    · exact Or.inr ⟨⟨sh, by simp⟩, sh, .second, fun fault _ => he fault⟩
  · refine Or.inl ⟨by simp, ?_⟩
    match p₁, p₂ with
    | .ok loc₁, .ok loc₂ => exact through_okOk loc₁ loc₂
    | .ok loc₁, .err e => exact through_okErr loc₁ e .second
    | .err e, .ok loc₂ => exact through_okErr loc₂ e .first
    | .err _, .err _ => exact Or.inl ⟨_, fun _ _ _ => rfl⟩
    | .panic, _ => exact Or.inl ⟨.panic, fun _ _ _ => rfl⟩
    | .ok _, .panic => exact Or.inl ⟨.panic, fun _ _ _ => rfl⟩
    | .err _, .panic => exact Or.inl ⟨.panic, fun _ _ _ => rfl⟩

theorem writeHeader_requests_ne (crc : List UInt8 → UInt32) (fault : Option Cut) (sh : StaticHeader)
    (which : MetadataLocation) (f : OpenFile) :
    (writeHeader crc fault sh which f).1.requests ≠ f.requests := by
  have hne : sh.writes crc which ≠ [] := by cases which <;> simp [writes, writeRegion]
  cases fault with
  | none =>
    have hreq : (writeHeader crc none sh which f).1.requests =
        f.requests ++ sh.writes crc which := rfl
    rw [hreq]
    simpa using hne
  | some c =>
    have hreq : (writeHeader crc (some c) sh which f).1.requests =
        f.requests ++ (sh.writes crc which).take (c.full + 1) := rfl
    rw [hreq]
    simpa using hne

theorem ok_of_writeHeader {sh sh' : StaticHeader} {which : MetadataLocation} {f : OpenFile}
    (h : (writeHeader crc fault sh which f).2 = .ok (some sh')) : sh = sh' := by
  cases fault with
  | none =>
    cases h
    rfl
  | some c => cases h

/-- A repair that is asked to do nothing makes no request, and finds the header that a repair
would return, exactly if it is not the case that one block can not be read and the other holds a
header. -/
theorem doNothing_spares_iff (crc : List UInt8 → UInt32) (fault fault' : Option Cut)
    (results : StaticHeaderResult × StaticHeaderResult) (f : OpenFile) :
    ((repairSigblocks crc doNothing fault results f).1 = f ∧
      ∀ sh, (repairSigblocks crc (writeHeader crc fault') fault' results f).2 = .ok (some sh) →
        (repairSigblocks crc doNothing fault results f).2 = .ok (some sh)) ↔
    ¬ Bypasses results := by
  rcases repairSigblocks_cases crc results with ⟨hb, ⟨r, hr⟩ | ⟨sh, which, hc⟩⟩ | ⟨hb, sh, which, hw⟩
  · -- nothing is to be repaired
    simp only [hb, not_false_eq_true, iff_true]
    simp only at hr
    rw [hr, hr]
    exact ⟨rfl, fun sh h => h⟩
  · simp only [hb, not_false_eq_true, iff_true]
    simp only at hc
    rw [hc, hc]
    exact ⟨rfl, fun sh' h => by rw [← ok_of_writeHeader h]; rfl⟩
  · simp only [hb, not_true_eq_false, iff_false, not_and]
    intro hf
    rw [hw] at hf
    exact absurd (congrArg OpenFile.requests hf) (writeHeader_requests_ne crc fault sh which f)

theorem inspect_of_unreadable {sh : StaticHeader} {f : OpenFile} (h₀ : parsed crc f.disk 0 = none)
    (h₁ : Holds crc f.disk 1 sh) : inspect crc fault f = writeHeader crc fault sh .first f := by
  obtain ⟨buf, hread, hbuf⟩ := Option.map_eq_some_iff.mp h₁
  rw [parsed, Option.map_eq_none_iff] at h₀
  rw [inspect, Stateful.get_bind]
  simp only [readSigblocks, h₀, hread, toResult, repairSigblocks, hbuf]
  rfl

/-- A device whose first signature block can not be read is written when it is inspected. -/
theorem inspect_writes_beside_unreadable :
    let crc := checksumCastagnoli
    let sh := StaticHeader.new ⟨⟨0⟩, ⟨1⟩⟩ MDADataSize.default 4194304 7
    let f : OpenFile := ⟨applyWrites (sh.writes crc .second) fun _ => none, []⟩
    (inspect crc none f).1.requests = sh.writes crc .first ∧ sh.writes crc .first ≠ [] ∧
      parsed crc f.disk 0 = none ∧ Holds crc (inspect crc none f).1.disk 0 sh := by
  intro crc sh f
  have he : sh.Encodable := ⟨by decide, by decide, by decide, by decide, rfl⟩
  have hsecond : Holds crc f.disk 1 sh := holds_applyWrites (i := 1) he
  have hfirst : parsed crc f.disk 0 = none := by
    refine (parsed_applyWrites_other (i := 1)).trans ?_
    rw [parsed, show sigblockSectors * sectorSize = 511 + 1 from rfl, readExact]
    rfl
  rw [inspect_of_unreadable hfirst hsecond, writeHeader_none]
  exact ⟨rfl, by simp [writes, writeRegion], hfirst, holds_applyWrites (i := 0) he⟩

end StaticHeader

end Stratisd.Metadata
