import Mathlib.Data.List.AList
import Stratisd.Run.Outcome

/-! A table of items with a name and a UUID. The two hash maps of the table are association
lists with distinct keys. -/

namespace Stratisd.Engine

open Run

structure Table (U T : Type) [DecidableEq U] where
  nameToUuid : AList fun _ : String => U
  items : AList fun _ : U => String × T

namespace Table

variable {U T ε : Type} [DecidableEq U]

def default : Table U T := ⟨∅, ∅⟩

def iter (t : Table U T) : List (String × U × T) :=
  t.items.entries.map fun e => (e.2.1, e.1, e.2.2)

def containsName (t : Table U T) (name : String) : Bool := (t.nameToUuid.lookup name).isSome

def getByName (t : Table U T) (name : String) : Option (U × T) :=
  (t.nameToUuid.lookup name).bind fun uuid => (t.items.lookup uuid).map fun p => (uuid, p.2)

def getByUuid (t : Table U T) (uuid : U) : Option (String × T) := t.items.lookup uuid

def setByUuid (t : Table U T) (uuid : U) (item : T) : Table U T :=
  match t.items.lookup uuid with
  | some (name, _) => { t with items := t.items.replace uuid (name, item) }
  | none => t

def removeByName (t : Table U T) (name : String) : Table U T × Option (U × T) :=
  match t.nameToUuid.lookup name with
  | some uuid =>
    (⟨t.nameToUuid.erase name, t.items.erase uuid⟩,
      (t.items.lookup uuid).map fun p => (uuid, p.2))
  | none => (t, none)

def removeByUuid (t : Table U T) (uuid : U) : Table U T × Option (String × T) :=
  match t.items.lookup uuid with
  | some (name, item) => (⟨t.nameToUuid.erase name, t.items.erase uuid⟩, some (name, item))
  | none => (t, none)

/-- Insert an item. What it displaces is returned, what matches by name first. The source
asserts that the two maps agree about what is displaced. -/
def insert (t : Table U T) (name : String) (uuid : U) (item : T) :
    Outcome ε (Table U T × Option (List (String × U × T))) :=
  let t' : Table U T := ⟨t.nameToUuid.insert name uuid, t.items.insert uuid (name, item)⟩
  match t.nameToUuid.lookup name, t.items.lookup uuid with
  | some oldUuid, some (oldName, oldItem) =>
    if oldUuid = uuid then
      if oldName = name then .ok (t', some [(name, uuid, oldItem)]) else .panic
    else if oldName = name then .panic
    else do
      let otherUuid ← Outcome.expect (t'.nameToUuid.lookup oldName)
      let other ← Outcome.expect (t'.items.lookup oldUuid)
      if other.1 = name ∧ otherUuid = uuid then
        .ok (⟨t'.nameToUuid.erase oldName, t'.items.erase oldUuid⟩,
          some [(name, oldUuid, other.2), (oldName, uuid, oldItem)])
      else .panic
  | some oldUuid, none => do
    let other ← Outcome.expect (t'.items.lookup oldUuid)
    if other.1 = name then
      .ok ({ t' with items := t'.items.erase oldUuid }, some [(name, oldUuid, other.2)])
    else .panic
  | none, some (oldName, oldItem) => do
    let otherUuid ← Outcome.expect (t'.nameToUuid.lookup oldName)
    if otherUuid = uuid then
      .ok ({ t' with nameToUuid := t'.nameToUuid.erase oldName }, some [(oldName, uuid, oldItem)])
    else .panic
  | none, none => .ok (t', none)

end Table

end Stratisd.Engine
