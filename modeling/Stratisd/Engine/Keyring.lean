import Stratisd.Engine.Types
import Stratisd.Media.Buffer

/-! The keys that the kernel keeps for the engine. The kernel knows each key by a serial number
and by a description; the descriptions of the keys set by the engine begin with a mark. Listing
them reads the serial numbers of all keys of the persistent keyring, then the description of each
key, and picks those with the mark. -/

namespace Stratisd.Engine

open Run Run.Outcome Run.Stateful Media

/-! ### Descriptions -/

/-- The description of a key. A semicolon separates the fields in the answers of the kernel, so
there is none in a description. -/
@[ext]
structure KeyDescription where
  text : String
  noSemicolon : ';' ∉ text.toList
  deriving DecidableEq

def formatVersion : ℕ := 1

/-- The mark of a key that was set by the engine. -/
def keyDescriptionPrefix : String := s!"stratis-{formatVersion}-key-"

namespace KeyDescription

def tryFrom (s : String) : StratisResult KeyDescription :=
  if h : ';' ∈ s.toList then .err (.msg s!"Key description {s} contains a ';'")
  else .ok ⟨s, h⟩

/-- The description without the mark. There is none for a key without the mark, and none for a
key with nothing else. -/
def fromSystemKeyDesc (rawKeyDesc : String) : Option (StratisResult KeyDescription) :=
  if keyDescriptionPrefix.toList.isPrefixOf rawKeyDesc.toList then
    let keyDesc := String.ofList (rawKeyDesc.toList.drop keyDescriptionPrefix.toList.length)
    if keyDesc.isEmpty then none else some (tryFrom keyDesc)
  else none

def toSystemString (kd : KeyDescription) : String := keyDescriptionPrefix ++ kd.text

theorem tryFrom_eq_ok {s : String} {kd : KeyDescription} : tryFrom s = .ok kd ↔ kd.text = s := by
  unfold tryFrom
  split_ifs with h
  · simp only [false_iff]
    rintro rfl
    exact kd.noSemicolon h
  · simp only [ok.injEq, KeyDescription.ext_iff]
    exact eq_comm

theorem fromSystemKeyDesc_toSystemString (kd : KeyDescription) :
    fromSystemKeyDesc kd.toSystemString = if kd.text = "" then none else some (.ok kd) := by
  have hmarked : keyDescriptionPrefix.toList.isPrefixOf kd.toSystemString.toList = true := by
    rw [toSystemString, String.toList_append]
    exact List.isPrefixOf_iff_prefix.mpr (List.prefix_append _ _)
  have hrest : String.ofList
      (kd.toSystemString.toList.drop keyDescriptionPrefix.toList.length) = kd.text := by
    rw [toSystemString, String.toList_append, List.drop_left, String.ofList_toList]
  have hkd : tryFrom kd.text = .ok kd := tryFrom_eq_ok.mpr rfl
  simp only [fromSystemKeyDesc, if_pos hmarked, hrest, hkd, String.isEmpty_iff]

theorem toSystemString_inj {kd kd' : KeyDescription} :
    kd'.toSystemString = kd.toSystemString ↔ kd' = kd := by
  refine ⟨fun h => KeyDescription.ext ?_, fun h => h ▸ rfl⟩
  rw [← String.toList_inj, toSystemString, toSystemString, String.toList_append,
    String.toList_append] at h
  exact String.toList_inj.mp (List.append_cancel_left h)

theorem not_mem_toSystemString (kd : KeyDescription) : ';' ∉ kd.toSystemString.toList := by
  rw [toSystemString, String.toList_append, List.mem_append]
  rintro (h | h)
  · exact absurd h (by decide +kernel)
  · exact kd.noSemicolon h

end KeyDescription

/-- The part of an answer of the kernel behind the last semicolon. -/
def parseKeyctlDescribeString (keyStr : String) : StratisResult String :=
  Outcome.ofOption
    (.msg "Invalid format returned from the kernel query for the key description")
    ((keyStr.toList.splitOn ';').reverse.head?.map String.ofList)

theorem parseKeyctlDescribeString_append (fields : String) {desc : String} (h : ';' ∉ desc.toList) :
    parseKeyctlDescribeString (fields ++ ";" ++ desc) = .ok desc := by
  have hchars : (fields ++ ";" ++ desc).toList = fields.toList ++ ';' :: desc.toList := by simp
  rw [parseKeyctlDescribeString, hchars, List.splitOn_append_cons_self,
    List.splitOn_eq_singleton h]
  simp

theorem exists_parseKeyctlDescribeString (keyStr : String) :
    ∃ desc, parseKeyctlDescribeString keyStr = .ok desc ∧ ';' ∉ desc.toList := by
  by_cases h : ';' ∈ keyStr.toList
  · obtain ⟨desc, fields, hrev, hdesc⟩ := List.eq_append_cons_of_mem (List.mem_reverse.mpr h)
    have hchars : keyStr.toList = fields.reverse ++ ';' :: desc.reverse := by
      simpa using congrArg List.reverse hrev
    have hkey : keyStr = String.ofList fields.reverse ++ ";" ++ String.ofList desc.reverse := by
      rw [← String.toList_inj, hchars]
      simp
    have hnone : ';' ∉ (String.ofList desc.reverse).toList := by simpa using hdesc
    exact ⟨_, hkey ▸ parseKeyctlDescribeString_append _ hnone, hnone⟩
  · refine ⟨keyStr, ?_, h⟩
    rw [parseKeyctlDescribeString, List.splitOn_eq_singleton h]
    simp

theorem KeyDescription.fromSystemKeyDesc_cases {raw : String} (h : ';' ∉ raw.toList) :
    fromSystemKeyDesc raw = none ∨ ∃ kd, fromSystemKeyDesc raw = some (.ok kd) := by
  unfold fromSystemKeyDesc
  split_ifs with hmarked
  · dsimp only
    split_ifs with hempty
    · exact Or.inl rfl
    · have hrest : ';' ∉
          (String.ofList (raw.toList.drop keyDescriptionPrefix.toList.length)).toList := by
        rw [String.toList_ofList]
        exact fun hmem => h (List.mem_of_mem_drop hmem)
      exact Or.inr ⟨⟨_, hrest⟩, congrArg some (tryFrom_eq_ok.mpr rfl)⟩
  · exact Or.inl rfl

/-! ### Listing -/

abbrev KeySerial := UInt32

def keySerialSize : ℕ := 4

/-- The calls made while the serial numbers are read: for the persistent keyring, and each one
for the keys in it. -/
structure KeyIdIo where
  persistentKeyring : StratisResult KeySerial
  read : KeySerial → ℕ → StratisResult Reply

namespace KeyIdList

variable (alloc : Allocator) (fuel : ℕ)

def new : Buffer := Buffer.withCapacity alloc 4096

/-- The serial numbers of the keys in the persistent keyring. What is announced to the kernel as
the length of the buffer is the capacity. -/
def populate (io : KeyIdIo) : Stateful Buffer StratisError Unit := do
  let keyringId ← lift io.persistentKeyring
  Buffer.fill alloc keySerialSize (fun capacity => capacity) (io.read keyringId) fuel

/-- The description of a key as the kernel gives it. A byte that has not been written by anybody
can not be read. -/
def describe (answer : ℕ → StratisResult Reply) : StratisResult (List UInt8) := do
  let keyctlBuffer ← exec (Buffer.fill alloc 1 (fun capacity => capacity) answer fuel)
    (Buffer.withCapacity alloc 4096)
  Outcome.expect (Layout.byte.values keyctlBuffer)

/-- The description in an answer of the kernel, if it is that of a key of the engine. -/
def toKeyDesc (id : KeySerial) (keyctlBuffer : List UInt8) :
    StratisResult (Option KeyDescription) :=
  if keyctlBuffer.isEmpty then
    .err (.msg s!"Kernel key description for key {id} appeared to be entirely empty")
  else do
    let keyctlStr ← Outcome.ofOption (.chained "Kernel key description was not valid UTF8" .utf8)
      (String.fromUTF8? keyctlBuffer.dropLast.toByteArray)
    let parsedString ← parseKeyctlDescribeString keyctlStr
    match KeyDescription.fromSystemKeyDesc parsedString with
    | none => .ok none
    | some kd => do
      let kd ← kd.unwrap
      .ok (some kd)

/-- The descriptions of the keys of the engine among the given ones. -/
def toKeyDescs (answers : KeySerial → ℕ → StratisResult Reply) (keyIds : List KeySerial) :
    StratisResult (List KeyDescription) := do
  let keyDescs ← Outcome.collect
    (fun id => do toKeyDesc id (← describe alloc fuel (answers id))) keyIds
  .ok (keyDescs.filterMap id)

section

variable {fuel}

theorem describe_eq {answer : ℕ → StratisResult Reply} {r : Reply}
    (hanswer : ∀ round, answer round = .ok r) (hfuel : 2 ≤ fuel) :
    describe alloc fuel answer = .ok r.bytes := by
  obtain ⟨b, hfill, hlen, -, hcontents⟩ :=
    Buffer.fill_spec alloc 1 (fun capacity => capacity) Nat.one_pos hanswer
      (Nat.mul_one r.bytes.length).symm hfuel (b := Buffer.withCapacity alloc 4096) rfl
      fun _ => rfl
  have hread : Layout.byte.values b = some r.bytes := by
    have hall := Layout.byte.readAll_received r.bytes
    have hflat : r.bytes.flatMap Layout.byte.bytes = r.bytes := List.flatMap_singleton' _
    rw [hflat] at hall
    rw [Layout.values, hcontents (by simpa using Buffer.le_lastCapacity alloc _ _), hlen, hall]
  rw [describe, exec, hfill]
  simp [hread]

/-- An answer that is a text, and a byte that ends it. -/
def Readable (r : Reply) : Prop :=
  r.bytes ≠ [] ∧ (String.fromUTF8? r.bytes.dropLast.toByteArray).isSome = true

theorem exists_toKeyDesc_iff (id : KeySerial) {r : Reply} :
    (∃ kd, toKeyDesc id r.bytes = .ok kd) ↔ Readable r := by
  unfold toKeyDesc Readable
  split_ifs with hempty
  · simpa using fun h => absurd (List.isEmpty_iff.mp hempty) h
  · rw [List.isEmpty_iff] at hempty
    cases htext : String.fromUTF8? r.bytes.dropLast.toByteArray with
    | none => simp
    | some keyStr =>
      obtain ⟨desc, hparse, hdesc⟩ := exists_parseKeyctlDescribeString keyStr
      simp only [ofOption_some, ok_bind, hparse, Option.isSome_some]
      rcases KeyDescription.fromSystemKeyDesc_cases hdesc with hfrom | ⟨kd, hfrom⟩
      · simp [hfrom, hempty]
      · simp [hfrom, hempty]

/-- The answer of the kernel with a text, which it ends with a zero byte. -/
def described (keyStr : String) : List UInt8 := keyStr.toUTF8.data.toList ++ [0]

theorem fromUTF8?_described (keyStr : String) :
    String.fromUTF8? (described keyStr).dropLast.toByteArray = some keyStr := by
  have hbytes : keyStr.toUTF8.data.toList.toByteArray = keyStr.toUTF8 :=
    ByteArray.ext (by rw [List.data_toByteArray, Array.toArray_toList])
  rw [described, List.dropLast_concat, hbytes, String.fromUTF8?, String.toUTF8_eq_toByteArray,
    dif_pos keyStr.isValidUTF8]
  rfl

theorem toKeyDesc_described (id : KeySerial) (fields : String) (kd : KeyDescription) :
    toKeyDesc id (described (fields ++ ";" ++ kd.toSystemString)) =
      .ok (if kd.text = "" then none else some kd) := by
  have hsome : (described (fields ++ ";" ++ kd.toSystemString)).isEmpty = false := by
    simp [described]
  rw [toKeyDesc, hsome, if_neg Bool.false_ne_true, fromUTF8?_described, ofOption_some,
    ok_bind, parseKeyctlDescribeString_append fields kd.not_mem_toSystemString,
    ok_bind, kd.fromSystemKeyDesc_toSystemString]
  split_ifs with hempty
  · rfl
  · rfl

theorem exists_toKeyDescs_iff {replies : KeySerial → Reply} {keyIds : List KeySerial}
    (hfuel : 2 ≤ fuel) :
    (∃ kds, toKeyDescs alloc fuel (fun id _ => .ok (replies id)) keyIds = .ok kds) ↔
      ∀ id ∈ keyIds, Readable (replies id) := by
  have hdescribe : ∀ id, describe alloc fuel (fun _ => .ok (replies id)) = .ok (replies id).bytes :=
    fun id => describe_eq alloc (fun _ => rfl) hfuel
  simp only [toKeyDescs, hdescribe, ok_bind]
  constructor
  · rintro ⟨kds, h⟩ id hid
    obtain ⟨kds', hkds, -⟩ := Outcome.bind_eq_ok.mp h
    obtain ⟨kd, -, hkd⟩ := exists_of_collect hkds hid
    exact (exists_toKeyDesc_iff id).mp ⟨kd, hkd⟩
  · intro h
    obtain ⟨kds, hkds⟩ := exists_collect fun id hid =>
      (exists_toKeyDesc_iff id).mpr (h id hid)
    exact ⟨_, Outcome.bind_eq_ok.mpr ⟨kds, hkds, rfl⟩⟩

/-- The list has the description of every key of the engine that is not empty. -/
theorem mem_toKeyDescs {replies : KeySerial → Reply} {keyIds : List KeySerial}
    {kds : List KeyDescription} (hfuel : 2 ≤ fuel)
    (h : toKeyDescs alloc fuel (fun id _ => .ok (replies id)) keyIds = .ok kds)
    {id : KeySerial} (hid : id ∈ keyIds) {fields : String} {kd : KeyDescription}
    (hbytes : (replies id).bytes = described (fields ++ ";" ++ kd.toSystemString))
    (hkd : kd.text ≠ "") : kd ∈ kds := by
  obtain ⟨kds', hkds, hpure⟩ := Outcome.bind_eq_ok.mp h
  obtain ⟨kd', hmem, hdesc⟩ := exists_of_collect hkds hid
  rw [describe_eq alloc (fun _ => rfl) hfuel, ok_bind, hbytes, toKeyDesc_described,
    if_neg hkd] at hdesc
  rw [← ok.inj hpure]
  exact List.mem_filterMap.mpr ⟨kd', hmem, (ok.inj hdesc).symm⟩

theorem readable_described {r : Reply} {keyStr : String} (h : r.bytes = described keyStr) :
    Readable r := by
  rw [Readable, h, fromUTF8?_described]
  exact ⟨by simp [described], rfl⟩

/-- A keyring in which every key is a user key with the given description. -/
def userKeys (kd : KeyDescription) (_ : KeySerial) : Reply :=
  .truncated (described ("user;0;0;3f010000" ++ ";" ++ kd.toSystemString))

/-- With a keyring that does not change `populate` comes to an end, with as many serial numbers
as there are keys. They are those of the keys, each one delivered by the kernel, if and only if
they fit into as many bytes as the vector has room for elements: the capacity is announced to
the kernel as a number of bytes. A vector that was made larger for them is no exception. -/
theorem populate_reads_keyring_iff (layout : Layout KeySerial keySerialSize) (io : KeyIdIo)
    {keyringId : KeySerial} (hkeyring : io.persistentKeyring = .ok keyringId)
    {keyIds : List KeySerial} {r : Reply} (hread : ∀ round, io.read keyringId round = .ok r)
    (hbytes : r.bytes = keyIds.flatMap layout.bytes) (hfuel : 2 ≤ fuel) :
    ∃ b, populate alloc fuel io (new alloc) = (b, .ok ()) ∧ b.len = keyIds.length ∧
      ((layout.values b = some keyIds ∧ ∀ c ∈ b.contents keySerialSize, c.isReceived = true) ↔
        4 * keyIds.length ≤ alloc.withCapacity 4096 ∨
          alloc.withCapacity 4096 < keyIds.length ∧
            4 * keyIds.length ≤ alloc.grow (alloc.withCapacity 4096) keyIds.length) := by
  have hlen : r.bytes.length = keyIds.length * keySerialSize := by
    rw [hbytes, layout.length_flatMap_bytes]
  obtain ⟨b, hfill, hcount, hreceived, hcontents⟩ :=
    Buffer.fill_spec alloc keySerialSize (fun capacity => capacity) (by decide) hread hlen hfuel
      (b := new alloc) rfl fun _ => rfl
  have hroom : keyIds.length * keySerialSize ≤ (new alloc).lastCapacity alloc keyIds.length ↔
      4 * keyIds.length ≤ alloc.withCapacity 4096 ∨
        alloc.withCapacity 4096 < keyIds.length ∧
          4 * keyIds.length ≤ alloc.grow (alloc.withCapacity 4096) keyIds.length := by
    have hcapacity : (new alloc).capacity = alloc.withCapacity 4096 := rfl
    rw [Buffer.lastCapacity, hcapacity, keySerialSize]
    split_ifs with h <;> omega
  refine ⟨b, ?_, hcount, ?_⟩
  · rw [populate, hkeyring, lift_ok_bind, hfill]
  · rw [hreceived, hroom, and_iff_right_of_imp]
    intro hfits
    rw [Layout.values, hcontents (hroom.mpr hfits), hcount, hbytes, layout.readAll_received]

/-- Serial numbers on a machine with the least significant byte first. -/
def littleEndian : Layout KeySerial keySerialSize where
  bytes v := writeLE 4 v.toNat
  value bs := UInt32.ofNat (readLE bs)
  length_bytes v := length_writeLE 4 v.toNat
  value_bytes v := by
    rw [readLE_writeLE (v.toNat_lt.trans_eq (by norm_num)), UInt32.ofNat_toNat]

/-- A keyring with the given keys that does not change. -/
def keyring (keyIds : List KeySerial) : KeyIdIo where
  persistentKeyring := .ok 1
  read _ _ := .ok (.truncated (keyIds.flatMap littleEndian.bytes))

/-- Two keys are read. -/
theorem populate_reads_two_keys :
    ∃ b, populate .exact 2 (keyring [3, 5]) (new .exact) = (b, .ok ()) ∧ b.len = 2 ∧
      littleEndian.values b = some [3, 5] := by
  obtain ⟨b, hpopulate, hlen, hiff⟩ :=
    populate_reads_keyring_iff .exact littleEndian (keyring [3, 5]) rfl (fun _ => rfl) rfl
      (Nat.le_refl 2)
  exact ⟨b, hpopulate, hlen, (hiff.mpr (Or.inl (by decide))).1⟩

/-- With 1025 keys the last serial number begins in memory that nobody has written. -/
theorem populate_exposes_unset_memory :
    (populate .exact 2 (keyring (List.replicate 1025 7)) (new .exact)).2 = .ok () ∧
      (populate .exact 2 (keyring (List.replicate 1025 7)) (new .exact)).1.len = 1025 ∧
      (populate .exact 2 (keyring (List.replicate 1025 7)) (new .exact)).1.mem
        (1024 * keySerialSize) = .unset := by
  decide +kernel

end

end KeyIdList

end Stratisd.Engine
