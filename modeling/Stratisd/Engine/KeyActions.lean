import Stratisd.Engine.Keyring
import Stratisd.Rpc.Server

/-! Setting and unsetting keys. A serial number that the kernel answers with stands for the
description of a key. Every call of the kernel can fail, and then it has done nothing. -/

namespace Stratisd.Engine.StratKeyActions

open Run Run.Stateful Rpc Function

/-- The data of the keys in the persistent keyring, by description. -/
abbrev Keys := String → Option (List UInt8)

abbrev M := Stateful Keys StratisError

/-- How the calls of the kernel end. -/
structure KeyIo where
  (getPersistent search read update addKey getPersistentAgain unlink : StratisResult Unit)

variable (io : KeyIo) (keyDesc : KeyDescription)

/-- The kernel takes no text with a zero in it. -/
def cString : StratisResult String :=
  if '\x00' ∈ keyDesc.toSystemString.toList then .err (.msg "Invalid key description provided")
  else .ok keyDesc.toSystemString

def searchKey : M (Option String) := do
  let desc ← lift (cString keyDesc)
  lift io.search
  let keys ← Stateful.get
  pure ((keys desc).map fun _ => desc)

def readKey : M (Option (String × List UInt8)) := do
  let keyId ← searchKey io keyDesc
  match keyId with
  | none => pure none
  | some keyId => do
    lift io.read
    let keys ← Stateful.get
    pure ((keys keyId).map fun data => (keyId, data))

/-- A key that somebody else has set can be longer than the buffer. Taking so many bytes out of
it panics. -/
def asRef (data : List UInt8) : StratisResult (List UInt8) :=
  if data.length ≤ maxStratisPassSize then .ok data else .panic

def resetKey (keyId : String) (oldKeyData newKeyData : List UInt8) : M Bool := do
  let old ← lift (asRef oldKeyData)
  if old = newKeyData then pure false
  else do
    lift io.update
    modify fun keys => update keys keyId newKeyData
    pure true

def setKey (keyData : List UInt8) : M Unit := do
  let desc ← lift (cString keyDesc)
  lift io.addKey
  modify fun keys => update keys desc keyData

def setKeyIdem (keyData : List UInt8) : M MappingCreateAction := do
  lift io.getPersistent
  let found ← readKey io keyDesc
  match found with
  | some (keyId, oldKeyData) => do
    let changed ← resetKey io keyId oldKeyData keyData
    pure (if changed then .valueChanged else .identity)
  | none => do
    setKey io keyDesc keyData
    pure .created

def unsetKey (keyId : String) : M Unit := do
  lift io.getPersistentAgain
  lift io.unlink
  modify fun keys => update keys keyId none

def unset : M MappingDeleteAction := do
  lift io.getPersistent
  let found ← searchKey io keyDesc
  match found with
  | some keyId => do
    unsetKey io keyId
    pure .deleted
  | none => pure .identity

def set (file : KeyFileIo) : M MappingCreateAction := do
  let memory ← lift (readKeyFile file)
  setKeyIdem io keyDesc memory

/-- A key is set to what is read from a file, or unset. -/
structure Request where
  io : KeyIo
  keyDesc : KeyDescription
  file : Option KeyFileIo

abbrev Answer := MappingCreateAction ⊕ MappingDeleteAction

def step (keys : Keys) (r : Request) : Keys × StratisResult Answer :=
  (match r.file with
    | some file => do pure (.inl (← set r.io r.keyDesc file))
    | none => do pure (.inr (← unset r.io r.keyDesc)) : M Answer) keys

/-! ### Answers -/

/-- What a key is to be after a request. -/
def Request.data (r : Request) : Option (List UInt8) :=
  match r.file.map readKeyFile with
  | some (.ok data) => some data
  | _ => none

/-- What an answer says about a key before and after. -/
def Says (before after : Option (List UInt8)) : Answer → Prop
  | .inl .created => before = none ∧ after ≠ none
  | .inl .valueChanged => before ≠ none ∧ after ≠ none ∧ before ≠ after
  | .inl .identity => before = after ∧ after ≠ none
  | .inr .deleted => before ≠ none ∧ after = none
  | .inr .identity => before = none ∧ after = none

/-- How the keys change with a request for one of them, going by the answer. -/
def Tells (keys keys' : Keys) (desc : String) (data : Option (List UInt8)) :
    StratisResult Answer → Prop
  | .ok a => keys' = update keys desc data ∧ Says (keys desc) data a
  | _ => keys' = keys

/-- The keys before and after a history of requests, going by the answers. -/
def Told (keys keys' : Keys) : List (Request × StratisResult Answer) → Prop
  | [] => keys' = keys
  | (r, a) :: history =>
    ∃ next, Tells keys next r.keyDesc.toSystemString r.data a ∧ Told next keys' history

theorem step_tells (keys : Keys) (r : Request) :
    Tells keys (step keys r).1 r.keyDesc.toSystemString r.data (step keys r).2 := by
  obtain ⟨io, keyDesc, _ | file⟩ := r
  all_goals simp only [step, unset, unsetKey, set, setKeyIdem, readKey, searchKey, setKey, resetKey,
    asRef, cString, bind_apply, lift_apply, get_apply, Request.data, Option.map]
  on_goal 2 => obtain memory | _ | _ := readKeyFile file <;> try rfl
  -- a call that fails ends the request with the keys as they were
  all_goals
    cases io.getPersistent <;> try rfl
    split_ifs <;> try rfl
    cases io.search <;> try rfl
    rcases hkey : keys keyDesc.toSystemString with _ | old <;> simp only [hkey, pure_apply]
  -- unsetting without and with the key, then setting it
  · exact ⟨(update_eq_self_iff.mpr hkey.symm).symm, hkey, rfl⟩
  · cases io.getPersistentAgain <;> try rfl
    cases io.unlink <;> try rfl
    exact ⟨rfl, hkey ▸ nofun, rfl⟩
  · cases io.addKey <;> try rfl
    exact ⟨rfl, hkey, nofun⟩
  · cases io.read <;> try rfl
    simp only [lift_ok_bind, get_bind, hkey, pure_apply]
    split_ifs <;> try rfl
    rw [bind_apply, lift_ok_bind]
    split_ifs with hsame
    · subst hsame
      exact ⟨(update_eq_self_iff.mpr hkey.symm).symm, hkey, nofun⟩
    · cases io.update <;> try rfl
      exact ⟨rfl, hkey ▸ nofun, nofun, fun h => hsame (Option.some.inj (hkey.symm.trans h))⟩

/-- Whichever calls of the kernel fail in a run, a request that is answered has left its key as it
was to be and the other keys alone, one that has failed has changed nothing, and every answer says
truly whether there was a key before and whether it was another one. -/
theorem answers_tell_keys (keys : Keys) (requests : List Request) :
    Told keys (run step keys requests).1 (run step keys requests).2 := by
  induction requests generalizing keys with
  | nil => rfl
  | cons r requests ih => exact ⟨_, step_tells keys r, ih _⟩

end Stratisd.Engine.StratKeyActions
