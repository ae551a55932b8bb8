import Keepup.Config.File
import Keepup.Credentials.Entry
import Mathlib.Data.Rat.Init

/-!
The administrator's account, one entry of the credential store, and the number
in it that the sessions are compared with. What the libraries for passwords, for
one-time codes and for hashes compute is a parameter.
-/

namespace Keepup

open Lib

/-- The calls of the account functions to libraries. A drawn salt is an argument. -/
structure Primitives where
  lower : String → String
  upper : String → String
  /-- `none` where the library refuses the password. -/
  hashPassword (salt password : String) : Option String
  hash_ne : ∀ salt password hash, hashPassword salt password = some hash → hash ≠ ""
  verifyPassword (password hashed : String) : Bool
  sha256 : String → String
  verifyTotp (now : ℚ) (secret code : String) : Bool

/-- Libraries for runs on concrete values: a hash that shows the password, one
code per secret. -/
def plainPrimitives : Primitives where
  lower := id
  upper := id
  hashPassword salt password := some (salt ++ ":" ++ password)
  hash_ne salt password hash h := by
    obtain rfl := Option.some.inj h
    simp
  verifyPassword password hashed := (Text.splitOn ':' hashed).tail == [password]
  sha256 := id
  verifyTotp _ secret code := secret == code

def minPasswordLen : Nat := 12

/-- The text of a field, empty where there is none. -/
def Entry.textOf (entry : Entry) (field : String) : String :=
  match entry.get? field with
  | some (.str s) => s
  | _ => ""

/-- The number in a field, zero where there is none. -/
def Entry.intOf (entry : Entry) (field : String) : Int :=
  match entry.get? field with
  | some (.int n) => n
  | some (.bool b) => if b then 1 else 0
  | _ => 0

namespace Installation

variable (p : Primitives) (s : Installation)

def admin : Entry := s.store.getIntegrationCredentials s.config.toConfig "admin"

def saveAdmin (fields : List (String × Option Scalar)) : Installation :=
  { s with store := s.store.saveIntegrationCredentials "admin" fields }

def getSessionVersion : Int := s.admin.intOf "session_version"

def adminExists : Bool := Scalar.given (s.admin.get? "password_hash")

def mfaEnrolled : Bool := Scalar.given (s.admin.get? "totp_secret")

def hashBackupKey (key : String) : String := p.sha256 (p.upper (Text.strip key))

/-- The account of the first run. The session number is not among its fields. -/
def createAdmin (salt backupKey username password : String) (totpSecret : Option String) :
    Option Installation :=
  (p.hashPassword salt password).map fun hash => s.saveAdmin (
    [("username", some (.str username)), ("password_hash", some (.str hash)),
      ("backup_key_hash", some (.str (hashBackupKey p backupKey))),
      ("password_meets_policy", some (.bool (minPasswordLen ≤ password.length)))] ++
    if Text.given totpSecret then [("totp_secret", totpSecret.map .str)] else [])

def verifyPassword (password : String) : Bool :=
  let hash := s.admin.textOf "password_hash"
  hash != "" && p.verifyPassword password hash

/-- The name counts only where one is stored, and without regard to case. -/
def verifyLogin (username password : String) : Bool :=
  let stored := s.admin.textOf "username"
  if stored ≠ "" ∧ p.lower (Text.strip username) ≠ p.lower (Text.strip stored) then false
  else s.verifyPassword p password

def verifyTotp (now : ℚ) (code : String) : Bool :=
  let secret := s.admin.textOf "totp_secret"
  secret != "" && p.verifyTotp now secret (Text.strip code)

def verifyBackupKey (key : String) : Bool :=
  let stored := s.admin.textOf "backup_key_hash"
  stored != "" && hashBackupKey p key == stored

def changePassword (salt newPassword : String) : Option Installation :=
  (p.hashPassword salt newPassword).map fun hash => s.saveAdmin
    [("password_hash", some (.str hash)),
      ("password_meets_policy", some (.bool (minPasswordLen ≤ newPassword.length))),
      ("session_version", some (.int (s.getSessionVersion + 1)))]

def enrollMfa (totpSecret : String) : Installation :=
  s.saveAdmin [("totp_secret", some (.str totpSecret)),
    ("session_version", some (.int (s.getSessionVersion + 1)))]

def removeMfa : Installation :=
  s.saveAdmin [("totp_secret", some (.str "")),
    ("session_version", some (.int (s.getSessionVersion + 1)))]

def regenerateBackupKey (backupKey : String) : Installation :=
  s.saveAdmin [("backup_key_hash", some (.str (hashBackupKey p backupKey)))]

section Saved

variable {p s} {fields : List (String × Option Scalar)}

theorem admin_eq (s : Installation) : s.admin = s.store.getD (integrationKey "admin") ∅ := by
  rw [admin, Store.getIntegrationCredentials, Dict.getD]
  cases s.store.get? (integrationKey "admin") <;> rfl

theorem saveAdmin_admin (s : Installation) (fields : List (String × Option Scalar)) :
    (s.saveAdmin fields).admin = s.admin.saveFields fields := by
  rw [admin_eq, admin_eq, saveAdmin, Store.saveIntegrationCredentials,
    Dict.getD, Store.saveUnder_self]
  rfl

/-- A save without the field leaves the session number alone. -/
theorem saveAdmin_version_kept (h : ∀ value, ("session_version", some value) ∉ fields) :
    (s.saveAdmin fields).getSessionVersion = s.getSessionVersion := by
  rw [getSessionVersion, saveAdmin_admin, Entry.intOf, Entry.get?_saveFields_of_not_posted h]
  rfl

theorem saveAdmin_version_set (hnodup : (fields.map Prod.fst).Nodup) {n : Int}
    (h : ("session_version", some (.int n)) ∈ fields) :
    (s.saveAdmin fields).getSessionVersion = n := by
  rw [getSessionVersion, saveAdmin_admin, Entry.intOf, Entry.get?_saveFields_kept hnodup h]
  rfl

theorem saveAdmin_exists_kept (h : ∀ value, ("password_hash", some value) ∉ fields) :
    (s.saveAdmin fields).adminExists = s.adminExists := by
  rw [adminExists, saveAdmin_admin, Entry.get?_saveFields_of_not_posted h]
  rfl

theorem saveAdmin_exists_set (hnodup : (fields.map Prod.fst).Nodup) {hash : String}
    (hne : hash ≠ "") (h : ("password_hash", some (.str hash)) ∈ fields) :
    (s.saveAdmin fields).adminExists = true := by
  rw [adminExists, saveAdmin_admin, Entry.get?_saveFields_kept hnodup h]
  simp [Scalar.kept, Scalar.given, hne]

theorem changePassword_spec {salt newPassword : String} {t : Installation}
    (h : s.changePassword p salt newPassword = some t) :
    t.getSessionVersion = s.getSessionVersion + 1 ∧ t.adminExists = true := by
  obtain ⟨hash, hhash, rfl⟩ := Option.map_eq_some_iff.mp h
  exact ⟨saveAdmin_version_set (by simp) (by simp),
    saveAdmin_exists_set (by simp) (p.hash_ne _ _ _ hhash) (by simp)⟩

theorem createAdmin_spec {salt backupKey username password : String} {totpSecret : Option String}
    {t : Installation} (h : s.createAdmin p salt backupKey username password totpSecret = some t) :
    t.getSessionVersion = s.getSessionVersion ∧ t.adminExists = true := by
  obtain ⟨hash, hhash, rfl⟩ := Option.map_eq_some_iff.mp h
  refine ⟨saveAdmin_version_kept ?_, saveAdmin_exists_set ?_ (p.hash_ne _ _ _ hhash) (by simp)⟩
  all_goals split <;> simp

theorem enrollMfa_spec (s : Installation) (totpSecret : String) :
    (s.enrollMfa totpSecret).getSessionVersion = s.getSessionVersion + 1 ∧
      (s.enrollMfa totpSecret).adminExists = s.adminExists :=
  ⟨saveAdmin_version_set (by simp) (by simp), saveAdmin_exists_kept (by simp)⟩

theorem removeMfa_spec (s : Installation) :
    s.removeMfa.getSessionVersion = s.getSessionVersion + 1 ∧
    s.removeMfa.adminExists = s.adminExists :=
  ⟨saveAdmin_version_set (by simp) (by simp), saveAdmin_exists_kept (by simp)⟩

theorem regenerateBackupKey_spec (s : Installation) (backupKey : String) :
    (s.regenerateBackupKey p backupKey).getSessionVersion = s.getSessionVersion ∧
      (s.regenerateBackupKey p backupKey).adminExists = s.adminExists :=
  ⟨saveAdmin_version_kept (by simp), saveAdmin_exists_kept (by simp)⟩

/-- Only the password of an account can be verified. -/
theorem exists_of_verifyPassword {password : String} (h : s.verifyPassword p password = true) :
    s.adminExists = true := by
  rw [verifyPassword, Bool.and_eq_true] at h
  have hhash := h.1
  rw [Entry.textOf] at hhash
  rw [adminExists]
  split at hhash
  · rename_i text htext
    rw [htext]
    exact hhash
  · simp at hhash

/-- A reset starts the session number over. -/
theorem factoryReset_account (s : Installation) :
    s.factoryReset.getSessionVersion = 0 ∧ s.factoryReset.adminExists = false := ⟨rfl, rfl⟩

end Saved

end Installation

end Keepup
