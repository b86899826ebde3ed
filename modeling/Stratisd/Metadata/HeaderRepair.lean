import Stratisd.Media.Crc
import Stratisd.Metadata.Bda
import Stratisd.Run.Stateful

/-! Reading the two signature blocks of a device and repairing one from the other. What a
location says is a header, nothing (the block is someone else's), an error (the block is
damaged) or that it can not be read; the repair decides by the pair of them. -/

namespace Stratisd.Metadata

open Run Engine Media List Option

/-- A device as its open file sees it. -/
structure OpenFile where
  disk : Disk
  /-- The write requests made so far, whether or not they succeeded. -/
  requests : List Write

/-- Bytes in front of a signature block, by its place on the device. -/
def sigblockStart (i : Fin 2) : ℕ :=
  ![firstSigblockStartSectors, secondSigblockStartSectors] i * sectorSize

/-- The location that holds a signature block. -/
def MetadataLocation.ofIndex (i : Fin 2) : MetadataLocation := ![.first, .second] i

/-- What reading and parsing one signature block gave. There is nothing to parse if the
block could not be read. -/
structure StaticHeaderResult where
  bytes : Except StratisError (List UInt8)
  header : Option (StratisResult (Option StaticHeader))
  header_eq_none_iff : header = none ↔ ∃ e, bytes = .error e

namespace StaticHeader

variable (crc : List UInt8 → UInt32)

/-- The result for a block whose bytes could be read, or could not. -/
def toResult (buf : Option (List UInt8)) : StaticHeaderResult :=
  match buf with
  | some buf => ⟨.ok buf, some (sigblockFromBuf crc buf), by simp⟩
  | none => ⟨.error .io, none, by simp⟩

/-- Both signature blocks are read on their own: one bad sector does not hide the other. -/
def readSigblocks (f : OpenFile) : StaticHeaderResult × StaticHeaderResult :=
  (toResult crc (readExact f.disk (sigblockStart 0) (sigblockSectors * sectorSize)),
    toResult crc (readExact f.disk (sigblockStart 1) (sigblockSectors * sectorSize)))

/-- Write the header to the given locations. `fault` is where the writes stop, if they do. -/
def write (fault : Option Cut) (sh : StaticHeader) (which : MetadataLocation) :
    Stateful OpenFile StratisError Unit := fun f =>
  let ws := sh.writes crc which
  let made := match fault with
    | none => ws
    | some c => ws.take (c.full + 1)
  let (disk, done) := perform fault ws f.disk
  (⟨disk, f.requests ++ made⟩, if done then .ok () else .err .io)

def writeHeader (fault : Option Cut) (sh : StaticHeader) (repairLocation : MetadataLocation) :
    Stateful OpenFile StratisError (Option StaticHeader) := do
  sh.write crc fault repairLocation
  pure (some sh)

def doNothing (sh : StaticHeader) (_repairLocation : MetadataLocation) :
    Stateful OpenFile StratisError (Option StaticHeader) := pure (some sh)

section

variable (closure : StaticHeader → MetadataLocation → Stateful OpenFile StratisError (Option StaticHeader))

/-- One block parsed without an error, the other did not. -/
def okErrStaticHeaderHandling (maybeSh : Option StaticHeader) (shError : StratisError)
    (repairLocation : MetadataLocation) : Stateful OpenFile StratisError (Option StaticHeader) :=
  match maybeSh with
  | some sh => closure sh repairLocation
  | none => Stateful.lift (.err shError)

/-- Both blocks hold a header: the later one replaces the earlier one. -/
def compareHeaders (sh₁ sh₂ : StaticHeader) : Stateful OpenFile StratisError (Option StaticHeader) :=
  if sh₁ = sh₂ then pure (some sh₁)
  else if sh₁.initializationTime = sh₂.initializationTime then
    Stateful.lift (.err (.msg "Appeared to be a Stratis device, but signature blocks disagree."))
  else if sh₁.initializationTime > sh₂.initializationTime then closure sh₁ .second
  else closure sh₂ .first

def okOkStaticHeaderHandling (maybeSh₁ maybeSh₂ : Option StaticHeader) :
    Stateful OpenFile StratisError (Option StaticHeader) :=
  match maybeSh₁, maybeSh₂ with
  | some loc₁, some loc₂ => compareHeaders closure loc₁ loc₂
  | none, none => pure none
  | some loc₁, none => closure loc₁ .second
  | none, some loc₂ => closure loc₂ .first

/-- The other block could not be read. It is written in any case, whatever the action for
repairs is. -/
def copyOkErrHandling (fault : Option Cut) (maybeSh : StratisResult (Option StaticHeader))
    (repairLocation : MetadataLocation) : Stateful OpenFile StratisError (Option StaticHeader) :=
  match maybeSh with
  | .ok (some sh) => do
    sh.write crc fault repairLocation
    pure (some sh)
  | r => Stateful.lift r

def repairSigblocks (fault : Option Cut) (readResults : StaticHeaderResult × StaticHeaderResult) :
    Stateful OpenFile StratisError (Option StaticHeader) :=
  match readResults.1.header, readResults.1.bytes, readResults.2.header, readResults.2.bytes with
  | some maybeSh₁, .ok _, some maybeSh₂, .ok _ =>
    match maybeSh₁, maybeSh₂ with
    | .ok loc₁, .ok loc₂ => okOkStaticHeaderHandling closure loc₁ loc₂
    | .ok loc₁, .err loc₂ => okErrStaticHeaderHandling closure loc₁ loc₂ .second
    | .err loc₁, .ok loc₂ => okErrStaticHeaderHandling closure loc₂ loc₁ .first
    | .err _, .err _ => Stateful.lift
      (.err (.msg "Appeared to be a Stratis device, but no valid sigblock found"))
    | _, _ => Stateful.lift .panic
  | some maybeSh₁, .ok _, none, .error _ => copyOkErrHandling crc fault maybeSh₁ .second
  | none, .error _, some maybeSh₂, .ok _ => copyOkErrHandling crc fault maybeSh₂ .first
  | none, .error _, none, .error _ =>
    Stateful.lift (.err (.msg "Unable to read data at sigblock locations."))
  -- `unreachable!`
  | _, _, _, _ => Stateful.lift .panic

end

/-- Read both blocks and write the header that was found over a bad or an old one. -/
def readAndRepair (fault : Option Cut) : Stateful OpenFile StratisError (Option StaticHeader) := do
  let f ← Stateful.get
  repairSigblocks crc (writeHeader crc fault) fault (readSigblocks crc f)

end StaticHeader

/-- The identifiers of a device that belongs to Stratis. -/
def deviceIdentifiers (crc : List UInt8 → UInt32) (fault : Option Cut) :
    Stateful OpenFile StratisError (Option StratisIdentifiers) := do
  let sh ← StaticHeader.readAndRepair crc fault
  pure (sh.map (·.identifiers))

namespace StaticHeader

/-! ### What a location says -/

/-- What a signature block parses to, if it can be read. -/
def parsed (crc : List UInt8 → UInt32) (d : Disk) (i : Fin 2) :
    Option (StratisResult (Option StaticHeader)) :=
  (readExact d (sigblockStart i) (sigblockSectors * sectorSize)).map (sigblockFromBuf crc)

/-- The location holds a valid header. -/
def Holds (crc : List UInt8 → UInt32) (d : Disk) (i : Fin 2) (sh : StaticHeader) : Prop :=
  parsed crc d i = some (.ok (some sh))

variable {crc : List UInt8 → UInt32} {fault : Option Cut} {f : OpenFile} {d : Disk} {i : Fin 2}
  {sh sh' : StaticHeader}

theorem Holds.unique (h : Holds crc d i sh) (h' : Holds crc d i sh') : sh = sh' := by
  have he := h.symm.trans h'
  cases he
  rfl

theorem Holds.encodable (h : Holds crc d i sh) : sh.Encodable := by
  obtain ⟨buf, -, hbuf⟩ := map_eq_some_iff.mp h
  exact encodable_of_sigblockFromBuf hbuf

theorem parsed_of_not_holds (h : ∀ sh, ¬ Holds crc d i sh) :
    parsed crc d i = none ∨ parsed crc d i = some (.ok none) ∨
      ∃ e, parsed crc d i = some (.err e) := by
  unfold Holds at h
  unfold parsed at h ⊢
  cases hread : readExact d (sigblockStart i) (sigblockSectors * sectorSize) with
  | none => exact Or.inl rfl
  | some buf =>
    rw [hread] at h
    right
    cases hbuf : sigblockFromBuf crc buf with
    | ok loc =>
      cases loc with
      | none => exact Or.inl (by rw [map_some, hbuf])
      | some sh => exact absurd (by rw [map_some, hbuf]) (h sh)
    | err e => exact Or.inr ⟨e, by rw [map_some, hbuf]⟩
    | panic => exact absurd hbuf (sigblockFromBuf_ne_panic (length_of_readExact hread))

/-! ### What the repair does -/

/-- The repair as a function of what the two locations say. -/
theorem readAndRepair_eq (crc : List UInt8 → UInt32) (fault : Option Cut) (f : OpenFile) :
    readAndRepair crc fault f =
      match parsed crc f.disk 0, parsed crc f.disk 1 with
      | some (.ok loc₁), some (.ok loc₂) =>
        okOkStaticHeaderHandling (writeHeader crc fault) loc₁ loc₂ f
      | some (.ok loc₁), some (.err loc₂) =>
        okErrStaticHeaderHandling (writeHeader crc fault) loc₁ loc₂ .second f
      | some (.err loc₁), some (.ok loc₂) =>
        okErrStaticHeaderHandling (writeHeader crc fault) loc₂ loc₁ .first f
      | some (.err _), some (.err _) =>
        (f, .err (.msg "Appeared to be a Stratis device, but no valid sigblock found"))
      | some maybeSh₁, none => copyOkErrHandling crc fault maybeSh₁ .second f
      | none, some maybeSh₂ => copyOkErrHandling crc fault maybeSh₂ .first f
      | none, none => (f, .err (.msg "Unable to read data at sigblock locations."))
      | _, _ => (f, .panic) := by
  unfold readAndRepair parsed
  rw [Stateful.get_bind]
  unfold readSigblocks
  cases readExact f.disk (sigblockStart 0) (sigblockSectors * sectorSize) with
  | none =>
    cases readExact f.disk (sigblockStart 1) (sigblockSectors * sectorSize) with
    | none => rfl
    | some buf₂ => rfl
  | some buf₁ =>
    cases readExact f.disk (sigblockStart 1) (sigblockSectors * sectorSize) with
    | none => simp only [map_some, map_none, toResult, repairSigblocks]
    | some buf₂ =>
      simp only [map_some, toResult, repairSigblocks]
      cases sigblockFromBuf crc buf₁ <;> cases sigblockFromBuf crc buf₂ <;> rfl

theorem readAndRepair_of_one (h : Holds crc f.disk i sh)
    (ho : ∀ sh', ¬ Holds crc f.disk (Alternate.other i) sh') :
    readAndRepair crc fault f =
      writeHeader crc fault sh (MetadataLocation.ofIndex (Alternate.other i)) f := by
  have hp := parsed_of_not_holds ho
  unfold Holds at h
  rw [readAndRepair_eq]
  have h0 : Alternate.other 0 = 1 := rfl
  have h1 : Alternate.other 1 = 0 := rfl
  rcases Alternate.eq_or_eq_other i 0 with rfl | rfl
  · rw [h0] at hp ⊢
    rcases hp with hp | hp | ⟨e, hp⟩ <;> rw [h, hp] <;> rfl
  · rw [h0] at h hp ⊢
    rw [h1] at hp ⊢
    rcases hp with hp | hp | ⟨e, hp⟩ <;> rw [h, hp] <;> rfl

theorem readAndRepair_of_both (h : Holds crc f.disk 0 sh) (h' : Holds crc f.disk 1 sh') :
    readAndRepair crc fault f = compareHeaders (writeHeader crc fault) sh sh' f := by
  rw [readAndRepair_eq, h, h']
  rfl

/-- Without a header nothing is written. The device is not taken for anyone else's as long
as a block is damaged or both can not be read. -/
theorem readAndRepair_of_none (h : ∀ i sh, ¬ Holds crc f.disk i sh) :
    (readAndRepair crc fault f).1 = f ∧
      ((readAndRepair crc fault f).2 = .ok none ∨ ∃ e, (readAndRepair crc fault f).2 = .err e) ∧
      ((readAndRepair crc fault f).2 = .ok none ↔
        (∃ i, parsed crc f.disk i = some (.ok none)) ∧
          ∀ i e, parsed crc f.disk i ≠ some (.err e)) := by
  rw [readAndRepair_eq]
  rcases parsed_of_not_holds (h 0) with h0 | h0 | ⟨e, h0⟩ <;>
    rcases parsed_of_not_holds (h 1) with h1 | h1 | ⟨e', h1⟩ <;>
      simp [h0, h1, copyOkErrHandling, okOkStaticHeaderHandling, okErrStaticHeaderHandling,
        Fin.forall_fin_two, Fin.exists_fin_two]

/-! ### What a repair leaves on the device -/

/-- Bytes in front of the eight sectors of a signature block. -/
def regionStart (i : Fin 2) : ℕ := i * (sigblockRegionSectors * sectorSize)

/-- The byte belongs to the eight sectors of a signature block. -/
def InRegion (i : Fin 2) (p : ℕ) : Prop :=
  regionStart i ≤ p ∧ p < regionStart i + sigblockRegionSectors * sectorSize

theorem sigblockStart_eq (i : Fin 2) :
    sigblockStart i = regionStart i + preSigblockPaddingSectors * sectorSize := by
  fin_cases i <;> rfl

theorem writes_ofIndex (crc : List UInt8 → UInt32) (sh : StaticHeader) (i : Fin 2) :
    sh.writes crc (MetadataLocation.ofIndex i) = sh.writeRegion crc (regionStart i) := by
  fin_cases i <;> rfl

theorem writeRegion_within (crc : List UInt8 → UInt32) (sh : StaticHeader) (pos : ℕ) :
    ∀ w ∈ sh.writeRegion crc pos, w.Within pos (pos + sigblockRegionSectors * sectorSize) := by
  intro w hw
  simp only [writeRegion, mem_cons, not_mem_nil, or_false] at hw
  rcases hw with rfl | rfl | rfl <;>
    simp only [Write.Within, zeroed, length_replicate, length_sigblockToBuf,
      sigblockRegionSectors, sigblockSectors, Nat.add_mul] <;> omega

theorem applyWrites_outside_region {p : ℕ} (hp : ¬ InRegion i p) :
    applyWrites (sh.writes crc (MetadataLocation.ofIndex i)) d p = d p := by
  rw [writes_ofIndex]
  apply applyWrites_outside (writeRegion_within crc sh (regionStart i))
  unfold InRegion at hp
  omega

theorem pairwise_writeRegion (crc : List UInt8 → UInt32) (sh : StaticHeader) (pos : ℕ) :
    (sh.writeRegion crc pos).Pairwise fun v u => v.pos + v.data.length ≤ u.pos := by
  simp only [writeRegion, pairwise_cons, mem_cons, not_mem_nil, or_false,
    forall_eq_or_imp, forall_eq, zeroed, length_replicate, length_sigblockToBuf,
    sigblockSectors, Nat.add_mul, List.Pairwise.nil, and_true, IsEmpty.forall_iff, implies_true]
  omega

theorem holds_applyWrites (he : sh.Encodable) :
    Holds crc (applyWrites (sh.writes crc (MetadataLocation.ofIndex i)) d) i sh := by
  have hread : readExact (applyWrites (sh.writeRegion crc (regionStart i)) d)
      (regionStart i + preSigblockPaddingSectors * sectorSize) (sh.sigblockToBuf crc).length =
        some (sh.sigblockToBuf crc) := by
    apply readExact_applyWrites_of_mem (w := ⟨_, sh.sigblockToBuf crc⟩)
    · simp [writeRegion]
    · exact pairwise_writeRegion crc sh _
  rw [length_sigblockToBuf, ← sigblockStart_eq] at hread
  rw [Holds, parsed, writes_ofIndex, sigblockSectors, one_mul, hread, map_some,
    sigblockFromBuf_sigblockToBuf he]

theorem parsed_applyWrites_other :
    parsed crc (applyWrites (sh.writes crc (MetadataLocation.ofIndex i)) d) (Alternate.other i) =
      parsed crc d (Alternate.other i) := by
  have hread : readExact (applyWrites (sh.writes crc (MetadataLocation.ofIndex i)) d)
        (sigblockStart (Alternate.other i)) (sigblockSectors * sectorSize) =
      readExact d (sigblockStart (Alternate.other i)) (sigblockSectors * sectorSize) := by
    apply readExact_congr
    intro p hl hu
    apply applyWrites_outside_region
    revert hl hu
    rw [sigblockStart_eq]
    unfold InRegion regionStart
    rcases Alternate.eq_or_eq_other i 0 with rfl | rfl <;>
      simp [Alternate.other, sigblockRegionSectors, sigblockSectors, sectorSize,
        preSigblockPaddingSectors, postSigblockPaddingSectors] <;> omega
  rw [parsed, hread, parsed]

variable {d' : Disk}

theorem parsed_congr
    (h : ∀ p, sigblockStart i ≤ p → p < sigblockStart i + sigblockSectors * sectorSize →
      d' p = d p) : parsed crc d' i = parsed crc d i := by
  rw [parsed, readExact_congr h, parsed]

theorem holds_of_initializeDevice {b : BDA} {io : InitializeIo} (he : b.header.Encodable)
    (h : b.initializeDevice crc io d = (d', .ok ())) (i : Fin 2) :
    Holds crc d' i b.header := by
  rcases hp : perform io.header (b.header.writes crc .both) d with ⟨d₁, done⟩
  rw [BDA.initializeDevice, hp] at h
  cases done with
  | false => cases h
  | true =>
    obtain ⟨hdrBuf, hb, -, rfl⟩ := BDA.initializeRegions_ok h
    have hd₁ : d₁ = applyWrites (b.header.writes crc (MetadataLocation.ofIndex 1))
        (applyWrites (b.header.writes crc (MetadataLocation.ofIndex 0)) d) := by
      cases hio : io.header with
      | none =>
        rw [hio] at hp
        cases hp
        exact foldl_append
      | some c =>
        rw [hio] at hp
        cases hp
    have hboth : Holds crc d₁ i b.header := by
      rw [hd₁]
      rcases Alternate.eq_or_eq_other i 1 with rfl | rfl
      · exact holds_applyWrites he
      · exact parsed_applyWrites_other.trans (holds_applyWrites (i := 0) he)
    -- the MDA regions lie behind both signature blocks
    refine (parsed_congr fun p _ hu => ?_).trans hboth
    have hp : p < staticHeaderSize := by
      refine lt_of_lt_of_le hu ?_
      fin_cases i <;> decide
    have hbehind : ∀ w ∈ (range numMdaRegions).map fun index =>
        (⟨MDARegions.mdaOffset staticHeaderSize index b.regions.regionSize.bytes, hdrBuf⟩ : Write),
        w.Within staticHeaderSize (MDARegions.mdaOffset staticHeaderSize numMdaRegions
          b.regions.regionSize.bytes + hdrBuf.length) := by
      intro w hw
      obtain ⟨index, hi, rfl⟩ := mem_map.mp hw
      have hle := Nat.mul_le_mul_left b.regions.regionSize.bytes (mem_range.mp hi).le
      simp only [Write.Within, MDARegions.mdaOffset]
      omega
    exact applyWrites_outside hbehind (Or.inl hp)

theorem writeHeader_none (crc : List UInt8 → UInt32) (sh : StaticHeader)
    (which : MetadataLocation) (f : OpenFile) :
    writeHeader crc none sh which f =
      (⟨applyWrites (sh.writes crc which) f.disk, f.requests ++ sh.writes crc which⟩,
        .ok (some sh)) := rfl

/-! ### Which header prevails -/

/-- The header is on the device, and any other header there is older. -/
structure Prevails (crc : List UInt8 → UInt32) (d : Disk) (sh : StaticHeader) : Prop where
  held : ∃ i, Holds crc d i sh
  newest : ∀ i sh', Holds crc d i sh' →
    sh' = sh ∨ sh'.initializationTime < sh.initializationTime

theorem prevails_of_one (h : Holds crc d i sh)
    (ho : ∀ sh', ¬ Holds crc d (Alternate.other i) sh') : Prevails crc d sh := by
  refine ⟨⟨i, h⟩, fun j sh' hj => Or.inl ?_⟩
  rcases Alternate.eq_or_eq_other j i with rfl | rfl
  · exact hj.unique h
  · exact absurd hj (ho sh')

theorem prevails_of_both (h : Holds crc d i sh) (h' : Holds crc d (Alternate.other i) sh')
    (hlt : sh' = sh ∨ sh'.initializationTime < sh.initializationTime) : Prevails crc d sh := by
  refine ⟨⟨i, h⟩, fun j sh'' hj => ?_⟩
  rcases Alternate.eq_or_eq_other j i with rfl | rfl
  · exact Or.inl (hj.unique h)
  · rw [hj.unique h']
    exact hlt

theorem exists_prevails_iff : (∃ sh, Prevails crc d sh) ↔
    (∃ i sh, Holds crc d i sh) ∧ ∀ sh sh', Holds crc d 0 sh → Holds crc d 1 sh' →
      sh.initializationTime = sh'.initializationTime → sh = sh' := by
  constructor
  · rintro ⟨sh, hp⟩
    refine ⟨?_, fun sh₀ sh₁ h0 h1 ht => ?_⟩
    · obtain ⟨i, hi⟩ := hp.held
      exact ⟨i, sh, hi⟩
    · rcases hp.newest 0 sh₀ h0 with e0 | l0 <;> rcases hp.newest 1 sh₁ h1 with e1 | l1
      · exact e0.trans e1.symm
      · rw [e0] at ht; omega
      · rw [e1] at ht; omega
      · -- neither location would hold the header that prevails
        obtain ⟨i, hi⟩ := hp.held
        rcases Alternate.eq_or_eq_other i 0 with rfl | rfl
        · rw [hi.unique h0] at l0; omega
        · rw [hi.unique h1] at l1; omega
  · rintro ⟨⟨i, sh, hi⟩, hne⟩
    by_cases ho : ∃ sh', Holds crc d (Alternate.other i) sh'
    · obtain ⟨sh', ho⟩ := ho
      have hne' : sh.initializationTime = sh'.initializationTime → sh = sh' := by
        intro ht
        rcases Alternate.eq_or_eq_other i 0 with rfl | rfl
        · exact hne sh sh' hi ho ht
        · exact (hne sh' sh ho hi ht.symm).symm
      rcases lt_trichotomy sh'.initializationTime sh.initializationTime with hlt | heq | hgt
      · exact ⟨sh, prevails_of_both hi ho (Or.inr hlt)⟩
      · exact ⟨sh, prevails_of_both hi ho (Or.inl (hne' heq.symm).symm)⟩
      · rw [← Alternate.other_other i] at hi
        exact ⟨sh', prevails_of_both ho hi (Or.inr hgt)⟩
    · exact ⟨sh, prevails_of_one hi (not_exists.mp ho)⟩

/-- A header that prevails and is in both places is returned as it is; one that is in one
place only, or newer than the other, is written to the other place. -/
theorem readAndRepair_of_prevails (h : Prevails crc f.disk sh) :
    (∀ i, Holds crc f.disk i sh) ∧ readAndRepair crc fault f = (f, .ok (some sh)) ∨
      ∃ i, Holds crc f.disk (Alternate.other i) sh ∧ ¬ Holds crc f.disk i sh ∧
        readAndRepair crc fault f = writeHeader crc fault sh (MetadataLocation.ofIndex i) f := by
  obtain ⟨i, hi⟩ := h.held
  have hio : Holds crc f.disk (Alternate.other (Alternate.other i)) sh := by
    rw [Alternate.other_other]
    exact hi
  by_cases ho : ∃ sh', Holds crc f.disk (Alternate.other i) sh'
  · obtain ⟨sh', ho⟩ := ho
    rcases h.newest _ sh' ho with rfl | hlt
    · left
      have hall : ∀ j, Holds crc f.disk j sh' := by
        intro j
        rcases Alternate.eq_or_eq_other j i with rfl | rfl
        · exact hi
        · exact ho
      refine ⟨hall, ?_⟩
      rw [readAndRepair_of_both (hall 0) (hall 1), compareHeaders, if_pos rfl]
      rfl
    · right
      have hne : sh ≠ sh' := by
        rintro rfl
        exact lt_irrefl _ hlt
      refine ⟨Alternate.other i, hio, fun h' => hne (h'.unique ho), ?_⟩
      rcases Alternate.eq_or_eq_other i 0 with rfl | rfl
      · rw [readAndRepair_of_both hi ho, compareHeaders, if_neg hne, if_neg hlt.ne', if_pos hlt]
        rfl
      · rw [readAndRepair_of_both ho hi, compareHeaders, if_neg hne.symm, if_neg hlt.ne,
          if_neg (not_lt.mpr hlt.le)]
        rfl
  · have ho := not_exists.mp ho
    exact Or.inr ⟨Alternate.other i, hio, ho sh, readAndRepair_of_one hi ho⟩

/-- Without a header that prevails, nothing is written and no header is returned. -/
theorem readAndRepair_of_not_prevails (fault : Option Cut) (h : ¬ ∃ sh, Prevails crc f.disk sh) :
    (readAndRepair crc fault f).1 = f ∧
      ((readAndRepair crc fault f).2 = .ok none ∨ ∃ e, (readAndRepair crc fault f).2 = .err e) ∧
      ((readAndRepair crc fault f).2 = .ok none ↔
        (∀ i sh, ¬ Holds crc f.disk i sh) ∧ (∃ i, parsed crc f.disk i = some (.ok none)) ∧
          ∀ i e, parsed crc f.disk i ≠ some (.err e)) := by
  by_cases hn : ∀ i sh, ¬ Holds crc f.disk i sh
  · simp only [hn, not_false_eq_true, implies_true, true_and]
    exact readAndRepair_of_none hn
  · -- two headers of the same time
    rw [exists_prevails_iff, not_and] at h
    push Not at hn
    obtain ⟨sh₀, sh₁, h0, h1, ht, hne⟩ : ∃ sh₀ sh₁, Holds crc f.disk 0 sh₀ ∧
        Holds crc f.disk 1 sh₁ ∧ sh₀.initializationTime = sh₁.initializationTime ∧ sh₀ ≠ sh₁ := by
      have := h hn
      push Not at this
      exact this
    rw [readAndRepair_of_both h0 h1, compareHeaders, if_neg hne, if_pos ht]
    refine ⟨rfl, Or.inr ⟨_, rfl⟩, ⟨fun he => ?_, fun he => absurd h0 (he.1 0 sh₀)⟩⟩
    simp at he

/-- A completed repair leaves the header in both places, and has changed one of them at
most. -/
theorem repaired (h : Prevails crc f.disk sh) :
    (readAndRepair crc none f).2 = .ok (some sh) ∧
      (∀ i, Holds crc (readAndRepair crc none f).1.disk i sh) ∧
      ((readAndRepair crc none f).1 = f ∨
        ∃ i, (readAndRepair crc none f).1.requests =
            f.requests ++ sh.writes crc (MetadataLocation.ofIndex i) ∧
          ∀ p, ¬ InRegion i p → (readAndRepair crc none f).1.disk p = f.disk p) := by
  rcases readAndRepair_of_prevails h with ⟨hall, he⟩ | ⟨i, hi, -, he⟩
  · rw [he]
    exact ⟨rfl, hall, Or.inl rfl⟩
  · rw [he, writeHeader_none]
    refine ⟨rfl, fun j => ?_, Or.inr ⟨i, rfl, fun p hp => applyWrites_outside_region hp⟩⟩
    rcases Alternate.eq_or_eq_other j i with rfl | rfl
    · exact holds_applyWrites hi.encodable
    · exact parsed_applyWrites_other.trans hi

theorem readAndRepair_eq_some_iff :
    (readAndRepair crc none f).2 = .ok (some sh) ↔ Prevails crc f.disk sh := by
  refine ⟨fun hr => ?_, fun hp => (repaired hp).1⟩
  by_cases hex : ∃ sh', Prevails crc f.disk sh'
  · obtain ⟨sh', hp⟩ := hex
    cases (repaired hp).1.symm.trans hr
    exact hp
  · rcases (readAndRepair_of_not_prevails none hex).2.1 with h | ⟨e, h⟩ <;> rw [h] at hr <;> cases hr

/-- A device whose locations say what those of another say, the other way round. -/
def Exchanged (d d' : Disk) : Prop := ∀ i,
  readExact d' (sigblockStart i) (sigblockSectors * sectorSize) =
    readExact d (sigblockStart (Alternate.other i)) (sigblockSectors * sectorSize)

theorem Exchanged.parsed (h : Exchanged d d') (i : Fin 2) :
    parsed crc d' i = parsed crc d (Alternate.other i) := by
  rw [StaticHeader.parsed, h i, StaticHeader.parsed]

theorem Exchanged.symm (h : Exchanged d d') : Exchanged d' d := by
  intro i
  rw [h (Alternate.other i), Alternate.other_other]

theorem Exchanged.prevails (h : Exchanged d d') (hp : Prevails crc d sh) : Prevails crc d' sh := by
  refine ⟨?_, fun i sh' hi => hp.newest (Alternate.other i) sh' ((h.parsed i).symm.trans hi)⟩
  obtain ⟨i, hi⟩ := hp.held
  refine ⟨Alternate.other i, ?_⟩
  rw [Holds, h.parsed, Alternate.other_other]
  exact hi

theorem Exchanged.prevails_iff (h : Exchanged d d') :
    (∃ sh, Prevails crc d sh) ↔ ∃ sh, Prevails crc d' sh :=
  exists_congr fun _ => ⟨h.prevails, h.symm.prevails⟩

theorem Exchanged.exists_iff (h : Exchanged d d')
    (P : Option (StratisResult (Option StaticHeader)) → Prop) :
    (∃ i, P (StaticHeader.parsed crc d i)) ↔ ∃ i, P (StaticHeader.parsed crc d' i) := by
  constructor
  · rintro ⟨i, hi⟩
    exact ⟨Alternate.other i, by rwa [h.parsed, Alternate.other_other]⟩
  · rintro ⟨i, hi⟩
    exact ⟨Alternate.other i, by rwa [← h.parsed]⟩

theorem Exchanged.forall_iff (h : Exchanged d d')
    (P : Option (StratisResult (Option StaticHeader)) → Prop) :
    (∀ i, P (StaticHeader.parsed crc d i)) ↔ ∀ i, P (StaticHeader.parsed crc d' i) := by
  constructor
  · intro hall i
    rw [h.parsed]
    exact hall _
  · intro hall i
    rw [h.symm.parsed]
    exact hall _

theorem readAndRepair_exchanged {g : OpenFile} (h : Exchanged f.disk g.disk)
    (o : Option StaticHeader) :
    (readAndRepair crc none f).2 = .ok o ↔ (readAndRepair crc none g).2 = .ok o := by
  cases o with
  | some sh =>
    rw [readAndRepair_eq_some_iff, readAndRepair_eq_some_iff]
    exact ⟨h.prevails, h.symm.prevails⟩
  | none =>
    by_cases hp : ∃ sh, Prevails crc f.disk sh
    · obtain ⟨sh, hp⟩ := hp
      rw [(repaired hp).1, (repaired (h.prevails hp)).1]
    · rw [(readAndRepair_of_not_prevails none hp).2.2,
        (readAndRepair_of_not_prevails none (mt h.prevails_iff.mpr hp)).2.2]
      refine and_congr ?_ (and_congr ?_ ?_)
      · exact h.forall_iff fun x => ∀ sh, ¬ x = some (.ok (some sh))
      · exact h.exists_iff fun x => x = some (.ok none)
      · exact h.forall_iff fun x => ∀ e, x ≠ some (.err e)

theorem holds_readAndRepair_exchanged {g : OpenFile} (h : Exchanged f.disk g.disk) :
    Holds crc (readAndRepair crc none g).1.disk i sh ↔
      Holds crc (readAndRepair crc none f).1.disk (Alternate.other i) sh := by
  by_cases hp : ∃ sh', Prevails crc f.disk sh'
  · obtain ⟨sh', hp⟩ := hp
    have hgi := (repaired (h.prevails hp)).2.1 i
    have hfi := (repaired hp).2.1 (Alternate.other i)
    constructor
    · intro hg
      rw [hg.unique hgi]
      exact hfi
    · intro hf
      rw [hf.unique hfi]
      exact hgi
  · rw [(readAndRepair_of_not_prevails none hp).1,
      (readAndRepair_of_not_prevails none (mt h.prevails_iff.mpr hp)).1, Holds, h.parsed]
    rfl

/-- Reading and repairing returns a header exactly when a location holds one and the two do
not hold different ones of the same time. It is then the newest; both locations hold it
afterwards, one of them at most has been written, and a second repair makes no request. In
all other cases nothing is written. Exchanging what the locations say changes neither the
result nor, but for the exchange, the headers. -/
theorem repair_restores_header (crc : List UInt8 → UInt32) (f : OpenFile) :
    let r := readAndRepair crc none f
    ((∃ sh, r.2 = .ok (some sh)) ↔ (∃ i sh, Holds crc f.disk i sh) ∧
      ∀ sh₀ sh₁, Holds crc f.disk 0 sh₀ → Holds crc f.disk 1 sh₁ →
        sh₀.initializationTime = sh₁.initializationTime → sh₀ = sh₁) ∧
    (∀ sh, r.2 = .ok (some sh) →
      ((∃ i, Holds crc f.disk i sh) ∧
        ∀ i sh', Holds crc f.disk i sh' → sh'.initializationTime ≤ sh.initializationTime) ∧
      (∀ i, Holds crc r.1.disk i sh) ∧
      (r.1 = f ∨ ∃ i, r.1.requests = f.requests ++ sh.writes crc (MetadataLocation.ofIndex i) ∧
        ∀ p, ¬ InRegion i p → r.1.disk p = f.disk p) ∧
      readAndRepair crc none r.1 = (r.1, .ok (some sh))) ∧
    ((∀ sh, r.2 ≠ .ok (some sh)) → r.1 = f ∧ r.2 ≠ .panic) ∧
    ∀ g : OpenFile, Exchanged f.disk g.disk →
      (∀ o, r.2 = .ok o ↔ (readAndRepair crc none g).2 = .ok o) ∧
      ∀ i sh, Holds crc (readAndRepair crc none g).1.disk i sh ↔
        Holds crc r.1.disk (Alternate.other i) sh := by
  intro r
  refine ⟨?_, ?_, ?_, ?_⟩
  · rw [← exists_prevails_iff]
    exact exists_congr fun sh => readAndRepair_eq_some_iff
  · intro sh hr
    have hp := readAndRepair_eq_some_iff.mp hr
    obtain ⟨-, hall, hframe⟩ := repaired hp
    refine ⟨⟨hp.held, fun i sh' hi => ?_⟩, hall, hframe, ?_⟩
    · rcases hp.newest i sh' hi with rfl | hlt
      · exact le_rfl
      · exact hlt.le
    · rw [readAndRepair_of_both (hall 0) (hall 1), compareHeaders, if_pos rfl]
      rfl
  · intro hn
    have hex : ¬ ∃ sh, Prevails crc f.disk sh := fun ⟨sh, hp⟩ => hn sh (repaired hp).1
    obtain ⟨hf, hr, -⟩ := readAndRepair_of_not_prevails none hex
    refine ⟨hf, ?_⟩
    rcases hr with h | ⟨e, h⟩ <;> change (readAndRepair crc none f).2 ≠ _ <;> rw [h] <;> simp
  · intro g hg
    exact ⟨readAndRepair_exchanged hg, fun i sh => holds_readAndRepair_exchanged hg⟩

/-- A device whose second signature block can not be read. -/
theorem repair_restores_header_second :
    let crc := checksumCastagnoli
    let sh := StaticHeader.new ⟨⟨0⟩, ⟨1⟩⟩ MDADataSize.default 4194304 7
    let f : OpenFile := ⟨applyWrites (sh.writes crc .first) fun _ => none, []⟩
    (readAndRepair crc none f).2 = .ok (some sh) ∧
      Holds crc (readAndRepair crc none f).1.disk 1 sh := by
  intro crc sh f
  have hfirst : Holds crc f.disk 0 sh :=
    holds_applyWrites (i := 0) ⟨by decide, by decide, by decide, by decide, rfl⟩
  have hsecond : parsed crc f.disk (Alternate.other 0) = none := by
    refine (parsed_applyWrites_other (i := 0)).trans ?_
    rw [parsed, show sigblockSectors * sectorSize = 511 + 1 from rfl, readExact]
    rfl
  have hp : Prevails crc f.disk sh := by
    apply prevails_of_one hfirst
    intro sh' h
    rw [Holds, hsecond] at h
    cases h
  have hr := (repaired hp).1
  exact ⟨hr, ((repair_restores_header crc f).2.1 sh hr).2.1 1⟩

end StaticHeader

end Stratisd.Metadata
