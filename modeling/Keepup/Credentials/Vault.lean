import Keepup.Credentials.Store
import Keepup.Lib.Sealed

/-!
The credential store on disk: where the key comes from, and the operations as
they load, change and save the encrypted file. A file that cannot be read for
any reason is loaded as the empty store.
-/

namespace Keepup

open Lib

abbrev Bytes := List UInt8

def isSpaceByte (b : UInt8) : Bool := (9 ≤ b && b ≤ 13) || b == 32

/-- `raw.strip()`. -/
def stripBytes (raw : Bytes) : Bytes :=
  ((raw.dropWhile isSpaceByte).reverse.dropWhile isSpaceByte).reverse

/-- The key sources outside the data volume. A variable that is not set is empty. -/
structure KeySources where
  secretKey : String
  secretKeyFile : String
  readFile : String → Except String Bytes

/-- The data directory: the generated key and the credentials file. -/
structure Disk (T : Type) where
  secret : Option Bytes
  credentials : Option T

/-- What one operation draws at random, when it needs it. -/
structure Draw (N : Type) where
  generatedKey : Bytes
  nonce : N

/-- An operation on the disk. -/
abbrev OnDisk (T α : Type) := Disk T → α × Disk T

namespace Vault

variable {K N T : Type} (fernet : Sealing Bytes K N T Store) (sources : KeySources) (draw : Draw N)

def validateKey (key : Bytes) (source : String) : Except String Bytes :=
  match fernet.readKey key with
  | .ok _ => .ok key
  | .error exc => .error (source ++ " is not a valid Fernet key (expected 32 url-safe " ++
      "base64-encoded bytes): " ++ exc)

/-- The environment variable, then the named file, then the generated key. -/
def resolveKeyBytes : OnDisk T (Except String Bytes) := fun disk =>
  if sources.secretKey ≠ "" then
    (validateKey fernet sources.secretKey.toUTF8.toList "KEEPUP_SECRET_KEY", disk)
  else if sources.secretKeyFile ≠ "" then
    match sources.readFile sources.secretKeyFile with
    | .error exc => (.error ("KEEPUP_SECRET_KEY_FILE=" ++ Text.repr sources.secretKeyFile ++
        " could not be read: " ++ exc), disk)
    | .ok raw => (validateKey fernet (stripBytes raw) "KEEPUP_SECRET_KEY_FILE", disk)
  else
    match disk.secret with
    | some key => (.ok key, disk)
    | none => (.ok draw.generatedKey, { disk with secret := some draw.generatedKey })

def getFernet : OnDisk T (Except String K) := fun disk =>
  match resolveKeyBytes fernet sources draw disk with
  | (.ok key, disk') => (fernet.readKey key, disk')
  | (.error exc, disk') => (.error exc, disk')

/-- Every failure to read the file gives the empty store. -/
def loadStore : OnDisk T Store := fun disk =>
  match disk.credentials with
  | none => (∅, disk)
  | some token =>
      match getFernet fernet sources draw disk with
      | (.ok key, disk') => ((fernet.decrypt key token).getD ∅, disk')
      | (.error _, disk') => (∅, disk')

def saveStore (store : Store) : OnDisk T (Except String Unit) := fun disk =>
  match getFernet fernet sources draw disk with
  | (.ok key, disk') =>
      (.ok (), { disk' with credentials := some (fernet.encrypt key draw.nonce store) })
  | (.error exc, disk') => (.error exc, disk')

/-- Load the store and save what becomes of it, if it is to be written. -/
def updateStore (f : Store → Option Store) : OnDisk T (Except String Unit) := fun disk =>
  let (store, disk') := loadStore fernet sources draw disk
  match f store with
  | some store' => saveStore fernet sources draw store' disk'
  | none => (.ok (), disk')

def readStore {α : Type} (f : Store → α) : OnDisk T α := fun disk =>
  let (store, disk') := loadStore fernet sources draw disk
  (f store, disk')

def getCredentials (slug : String) : OnDisk T Entry :=
  readStore fernet sources draw fun store => store.getCredentials slug

def saveCredentials (slug : String) (sshPassword sshKey sudoPassword : Option String) :
    OnDisk T (Except String Unit) :=
  updateStore fernet sources draw fun store =>
    some (store.saveCredentials slug sshPassword sshKey sudoPassword)

def saveSudoPassword (slug password : String) : OnDisk T (Except String Unit) :=
  saveCredentials fernet sources draw slug none none (some password)

def deleteCredentials (slug : String) : OnDisk T (Except String Unit) :=
  updateStore fernet sources draw fun store => some (store.deleteCredentials slug)

def renameCredentials (oldSlug newSlug : String) : OnDisk T (Except String Unit) := fun disk =>
  if oldSlug = newSlug then (.ok (), disk)
  else updateStore fernet sources draw (fun store => store.renameCredentials oldSlug newSlug) disk

def getIntegrationCredentials (config : Config) (key : String) : OnDisk T Entry :=
  readStore fernet sources draw fun store => store.getIntegrationCredentials config key

def renameIntegrationCredentials (oldKey newKey : String) : OnDisk T (Except String Unit) :=
  fun disk =>
  if oldKey = newKey then (.ok (), disk)
  else updateStore fernet sources draw
    (fun store => store.renameIntegrationCredentials oldKey newKey) disk

def saveIntegrationCredentials (key : String) (fields : List (String × Option Scalar)) :
    OnDisk T (Except String Unit) :=
  updateStore fernet sources draw fun store => some (store.saveIntegrationCredentials key fields)

def deleteIntegrationCredentials (key : String) : OnDisk T (Except String Unit) :=
  updateStore fernet sources draw fun store => some (store.deleteIntegrationCredentials key)

def wipeCredentialStore : OnDisk T (Except String Unit) := saveStore fernet sources draw ∅

/-- Which credentials a host has: an SSH password, an SSH key, a sudo password. -/
def credentialStatus (slug : String) : OnDisk T (Bool × Bool × Bool) :=
  readStore fernet sources draw fun store =>
    let creds := store.getCredentials slug
    (Scalar.given (creds.get? "ssh_password"), Scalar.given (creds.get? "ssh_key"),
      Scalar.given (creds.get? "sudo_password"))

def adminExists : OnDisk T Bool :=
  readStore fernet sources draw fun store =>
    Scalar.given ((store.getIntegrationCredentials {} "admin").get? "password_hash")

section Keys

variable {fernet sources draw} {disk : Disk T}

/-- Resolving the key does not look at the credentials file. -/
theorem getFernet_credentials (token : Option T) :
    getFernet fernet sources draw { disk with credentials := token } =
      ((getFernet fernet sources draw disk).1,
        { (getFernet fernet sources draw disk).2 with credentials := token }) := by
  obtain ⟨secret, credentials⟩ := disk
  unfold getFernet resolveKeyBytes
  split_ifs
  · cases validateKey fernet sources.secretKey.toUTF8.toList "KEEPUP_SECRET_KEY" <;> rfl
  · cases sources.readFile sources.secretKeyFile with
    | error exc => rfl
    | ok raw =>
        dsimp only
        cases validateKey fernet (stripBytes raw) "KEEPUP_SECRET_KEY_FILE" <;> rfl
  · cases secret <;> rfl

theorem getFernet_keeps :
    (getFernet fernet sources draw disk).2.credentials = disk.credentials := by
  have hself := @getFernet_credentials K N T fernet sources draw disk disk.credentials
  exact congrArg (fun r => r.2.credentials) hself

/-- A key that was resolved once is resolved again. -/
theorem getFernet_again (draw' : Draw N) :
    getFernet fernet sources draw' (getFernet fernet sources draw disk).2 =
      getFernet fernet sources draw disk := by
  obtain ⟨secret, credentials⟩ := disk
  unfold getFernet resolveKeyBytes
  split_ifs
  · cases validateKey fernet sources.secretKey.toUTF8.toList "KEEPUP_SECRET_KEY" <;> rfl
  · cases sources.readFile sources.secretKeyFile with
    | error exc => rfl
    | ok raw =>
        dsimp only
        cases validateKey fernet (stripBytes raw) "KEEPUP_SECRET_KEY_FILE" <;> rfl
  · cases secret <;> rfl

end Keys

end Vault

end Keepup
