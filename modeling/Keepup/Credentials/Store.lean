import Keepup.Config
import Keepup.Lib.Dict

/-!
The credential store: one dictionary of entries for hosts, under their slugs,
and for integrations, under `__integration_<name>__`. The functions below are
what each credential operation makes of the store it has loaded.
-/

namespace Keepup

open Lib

/-- A value in an entry. -/
inductive Scalar where
  | bool (b : Bool)
  | int (n : Int)
  | str (s : String)
deriving DecidableEq

def Scalar.truthy : Scalar → Bool
  | .bool b => b
  | .int n => n != 0
  | .str s => s != ""

@[simp] theorem Scalar.truthy_str (s : String) : (Scalar.str s).truthy = (s != "") := rfl

/-- The truth value of a field that may be missing. -/
def Scalar.given (value : Option Scalar) : Bool := value.elim false Scalar.truthy

/-- The credentials of one host or integration. -/
abbrev Entry := Dict String Scalar

abbrev Store := Dict String Entry

def integrationKey (key : String) : String := "__integration_" ++ key ++ "__"

/-- `none` leaves an existing value unchanged, the empty string clears it. -/
def Entry.saveField (entry : Entry) (field : String) : Option Scalar → Entry
  | none => entry
  | some value => if value = .str "" then entry.pop field else entry.set field value

def Entry.saveFields (entry : Entry) (fields : List (String × Option Scalar)) : Entry :=
  fields.foldl (fun entry field => entry.saveField field.1 field.2) entry

namespace Store

variable (store : Store)

def getCredentials (slug : String) : Entry := store.getD slug ∅

/-- Save the given fields in the entry under a key. -/
def saveUnder (key : String) (fields : List (String × Option Scalar)) : Store :=
  store.set key (Entry.saveFields (store.getD key ∅) fields)

/-- Move an entry to a new key, `none` when there is nothing to move. -/
def renameUnder (oldKey newKey : String) : Option Store :=
  (store.get? oldKey).map fun entry => (store.pop oldKey).set newKey entry

def saveCredentials (slug : String) (sshPassword sshKey sudoPassword : Option String) : Store :=
  store.saveUnder slug [("ssh_password", sshPassword.map .str), ("ssh_key", sshKey.map .str),
    ("sudo_password", sudoPassword.map .str)]

def saveSudoPassword (slug password : String) : Store :=
  store.saveCredentials slug none none (some password)

def deleteCredentials (slug : String) : Store := store.pop slug

/-- `none` when the store is not written. -/
def renameCredentials (oldSlug newSlug : String) : Option Store :=
  if oldSlug = newSlug then none else store.renameUnder oldSlug newSlug

/-- Falls back to the first Proxmox server for the key of the old block. -/
def getIntegrationCredentials (config : Config) (key : String) : Entry :=
  match store.get? (integrationKey key) with
  | some entry => entry
  | none =>
      if key = "proxmox" then
        match config.getProxmoxServers.head? with
        | some server => store.getD (integrationKey ("proxmox_" ++ server.id)) ∅
        | none => ∅
      else ∅

def renameIntegrationCredentials (oldKey newKey : String) : Option Store :=
  if oldKey = newKey then none
    else store.renameUnder (integrationKey oldKey) (integrationKey newKey)

def saveIntegrationCredentials (key : String) (fields : List (String × Option Scalar)) : Store :=
  store.saveUnder (integrationKey key) fields

def deleteIntegrationCredentials (key : String) : Store := store.pop (integrationKey key)

section Frame

variable {store} {key key' : String}

theorem saveUnder_other {fields : List (String × Option Scalar)} (h : key' ≠ key) :
    (store.saveUnder key fields).get? key' = store.get? key' :=
  store.get?_set_ne _ h

/-- Saving leaves an entry under the key, even an empty one. -/
theorem saveUnder_self (fields : List (String × Option Scalar)) :
    (store.saveUnder key fields).get? key = some (Entry.saveFields (store.getD key ∅) fields) :=
  store.get?_set_self _ _

theorem renameUnder_other {oldKey newKey : String} {store' : Store}
    (hrename : store.renameUnder oldKey newKey = some store') (hold : key ≠ oldKey)
    (hnew : key ≠ newKey) : store'.get? key = store.get? key := by
  obtain ⟨entry, _, rfl⟩ := Option.map_eq_some_iff.mp hrename
  rw [Dict.get?_set_ne _ _ hnew, Dict.get?_pop_ne _ hold]

end Frame

end Store

end Keepup
