import Mathlib.Data.List.AList
import Stratisd.Engine.Keys

/-! The LUKS2 header of an encrypted device, with the calls of libcryptsetup and Clevis that change
it. The header has keyslots, each of which a passphrase opens, and the tokens that say how a
passphrase is found. A call either has its whole effect or none, and some calls can not be done on
a given header at all. -/

namespace Stratisd.Crypt

open Media

/-- The content of a key in the kernel keyring. -/
abbrev Key := List UInt8

/-- A passphrase of a keyslot. Clevis makes its own at random, so they are apart from the keys in
the kernel keyring. -/
inductive Passphrase where
  | keyring (key : Key)
  | clevis (secret : ℕ)
  deriving DecidableEq

/-- The token for activation with a key in the kernel keyring. -/
structure KeyringToken where
  keyDescription : String
  keyslots : List ℕ
  deriving DecidableEq

/-- What Clevis encrypted: the header that says how, and the passphrase. -/
structure Jwe where
  header : Value
  secret : ℕ
  deriving DecidableEq

structure ClevisToken where
  keyslots : List ℕ
  /-- It is absent if the token has been written by something other than Clevis. -/
  jwe : Option Jwe
  deriving DecidableEq

structure Luks2Header where
  keyslots : AList fun _ : ℕ => Passphrase
  /-- In the token slot `LUKS2_TOKEN_ID`. -/
  keyring : Option KeyringToken
  /-- In the token slot `CLEVIS_LUKS_TOKEN_ID`. -/
  clevis : Option ClevisToken
  deriving DecidableEq

/-- The number of keyslots of a header. -/
def luks2KeyslotsMax : ℕ := 32

def clevisLuksTokenId : ℕ := 2

namespace Luks2Header

def findEmpty (h : Luks2Header) : Option ℕ :=
  (List.range luks2KeyslotsMax).find? fun n => (h.keyslots.lookup n).isNone

/-- The first keyslot that a passphrase opens. -/
def openedBy (h : Luks2Header) (pass : Passphrase) : Option ℕ :=
  (List.range luks2KeyslotsMax).find? fun n => h.keyslots.lookup n = some pass

/-- Change the keyslots that the tokens refer to. -/
def mapAssigned (f : List ℕ → List ℕ) (h : Luks2Header) : Luks2Header :=
  { h with
    keyring := h.keyring.map fun t => { t with keyslots := f t.keyslots }
    clevis := h.clevis.map fun t => { t with keyslots := f t.keyslots } }

/-! ### Calls of libcryptsetup -/

/-- Add a passphrase to a header that another one opens. -/
def addByPassphrase (pass new : Passphrase) (h : Luks2Header) : Option (Luks2Header × ℕ) :=
  match h.openedBy pass, h.findEmpty with
  | some _, some n => some ({ h with keyslots := h.keyslots.insert n new }, n)
  | _, _ => none

/-- Replace a passphrase. The new one is put into an empty keyslot if there is one. Whether the
tokens of the old keyslot are kept for the new one depends on the version of libcryptsetup. -/
def changeByPassphrase (keepsTokens : Bool) (old new : Passphrase) (h : Luks2Header) :
    Option (Luks2Header × ℕ) :=
  match h.openedBy old with
  | some n =>
    let m := h.findEmpty.getD n
    let move := if keepsTokens then List.map fun k => if k = n then m else k
      else List.filter fun k => k ≠ n
    some (mapAssigned move { h with keyslots := (h.keyslots.erase n).insert m new }, m)
  | none => none

/-- Destroy a keyslot, which is then assigned to no token. -/
def destroy (n : ℕ) (h : Luks2Header) : Option Luks2Header :=
  if n ∈ h.keyslots then
    some (mapAssigned (List.filter fun k => k ≠ n) { h with keyslots := h.keyslots.erase n })
  else none

/-- Write a new keyring token. It takes the place of another one and has no keyslots yet. -/
def luks2KeyringSet (keyDescription : String) (h : Luks2Header) : Luks2Header :=
  { h with keyring := some ⟨keyDescription, []⟩ }

/-- Assign a keyslot to the keyring token. -/
def assignKeyslot (n : ℕ) (h : Luks2Header) : Option Luks2Header :=
  match h.keyring with
  | some t =>
    if n ∈ h.keyslots then
      some { h with keyring := some { t with keyslots := t.keyslots.filter (· ≠ n) ++ [n] } }
    else none
  | none => none

def removeKeyringToken (h : Luks2Header) : Luks2Header := { h with keyring := none }

/-! ### Commands of Clevis -/

/-- Bind a device that a passphrase opens. The token slot has to be free. -/
def clevisLuksBind (pass : Passphrase) (jwe : Jwe) (h : Luks2Header) : Option Luks2Header :=
  match h.openedBy pass, h.clevis, h.findEmpty with
  | some _, none, some n => some {
      keyslots := h.keyslots.insert n (.clevis jwe.secret)
      keyring := h.keyring
      clevis := some ⟨[n], some jwe⟩ }
  | _, _, _ => none

/-- Whether a keyslot is bound by Clevis. -/
def clevisBound (n : ℕ) (h : Luks2Header) : Bool :=
  match h.clevis with
  | some t => t.jwe.isSome && decide (n ∈ t.keyslots) && (h.keyslots.lookup n).isSome
  | none => false

/-- Remove a keyslot that is bound by Clevis, and its token. -/
def clevisLuksUnbind (n : ℕ) (h : Luks2Header) : Option Luks2Header :=
  if h.clevisBound n then
    some { mapAssigned (List.filter fun k => k ≠ n) { h with keyslots := h.keyslots.erase n } with
      clevis := none }
  else none

/-- Bind a keyslot again, with a new passphrase. -/
def clevisLuksRegen (n : ℕ) (jwe : Jwe) (h : Luks2Header) : Option Luks2Header :=
  if h.clevisBound n then
    some { h with
      keyslots := h.keyslots.insert n (.clevis jwe.secret)
      clevis := some ⟨[n], some jwe⟩ }
  else none

/-! ### Unlocking -/

/-- Some keyslot is left that a token refers to. -/
def Unlockable (h : Luks2Header) : Prop :=
  ∃ n ∈ h.keyslots, (∃ t, h.keyring = some t ∧ n ∈ t.keyslots) ∨
    ∃ t, h.clevis = some t ∧ n ∈ t.keyslots

theorem lookup_of_findEmpty {h : Luks2Header} {n : ℕ} (hn : h.findEmpty = some n) :
    h.keyslots.lookup n = none := by
  simpa using List.find?_some hn

theorem lookup_of_openedBy {h : Luks2Header} {pass : Passphrase} {n : ℕ}
    (hn : h.openedBy pass = some n) : h.keyslots.lookup n = some pass := by
  simpa using List.find?_some hn

end Luks2Header

end Stratisd.Crypt
