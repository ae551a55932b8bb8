import Keepup.Credentials.Vault

/-!
Runs of credential operations over a file that the current key does not open.
The theorem says for which of them the file keeps what it held and the admin
account does not seem to be missing.
-/

namespace Keepup

open Lib

/-- The operations of the credentials module, and the check for an account. -/
inductive CredentialOp where
  | getCredentials (slug : String)
  | saveCredentials (slug : String) (sshPassword sshKey sudoPassword : Option String)
  | saveSudoPassword (slug password : String)
  | deleteCredentials (slug : String)
  | renameCredentials (oldSlug newSlug : String)
  | getIntegrationCredentials (config : Config) (key : String)
  | renameIntegrationCredentials (oldKey newKey : String)
  | saveIntegrationCredentials (key : String) (fields : List (String × Option Scalar))
  | deleteIntegrationCredentials (key : String)
  | wipeCredentialStore
  | credentialStatus (slug : String)
  | adminExists

namespace Vault

variable {K N T : Type} (fernet : Sealing Bytes K N T Store) (sources : KeySources)

/-- The disk after an operation, whether or not it raises. -/
def exec (draw : Draw N) (disk : Disk T) : CredentialOp → Disk T
  | .getCredentials slug => (getCredentials fernet sources draw slug disk).2
  | .saveCredentials slug sshPassword sshKey sudoPassword =>
      (saveCredentials fernet sources draw slug sshPassword sshKey sudoPassword disk).2
  | .saveSudoPassword slug password =>
      (saveSudoPassword fernet sources draw slug password disk).2
  | .deleteCredentials slug => (deleteCredentials fernet sources draw slug disk).2
  | .renameCredentials oldSlug newSlug =>
      (renameCredentials fernet sources draw oldSlug newSlug disk).2
  | .getIntegrationCredentials config key =>
      (getIntegrationCredentials fernet sources draw config key disk).2
  | .renameIntegrationCredentials oldKey newKey =>
      (renameIntegrationCredentials fernet sources draw oldKey newKey disk).2
  | .saveIntegrationCredentials key fields =>
      (saveIntegrationCredentials fernet sources draw key fields disk).2
  | .deleteIntegrationCredentials key =>
      (deleteIntegrationCredentials fernet sources draw key disk).2
  | .wipeCredentialStore => (wipeCredentialStore fernet sources draw disk).2
  | .credentialStatus slug => (credentialStatus fernet sources draw slug disk).2
  | .adminExists => (adminExists fernet sources draw disk).2

/-- The file is there, and the key that is resolved now does not open it. -/
def Unreadable (draw : Draw N) (disk : Disk T) : Prop :=
  ∃ token, disk.credentials = some token ∧
    ∀ key, (getFernet fernet sources draw disk).1 = .ok key → fernet.decrypt key token = none

end Vault

/-- What an operation writes when it has loaded the empty store, if it writes. -/
def CredentialOp.written : CredentialOp → Option Store
  | .saveCredentials slug sshPassword sshKey sudoPassword =>
      some ((∅ : Store).saveCredentials slug sshPassword sshKey sudoPassword)
  | .saveSudoPassword slug password => some ((∅ : Store).saveSudoPassword slug password)
  | .deleteCredentials slug => some ((∅ : Store).deleteCredentials slug)
  | .saveIntegrationCredentials key fields =>
      some ((∅ : Store).saveIntegrationCredentials key fields)
  | .deleteIntegrationCredentials key => some ((∅ : Store).deleteIntegrationCredentials key)
  | .wipeCredentialStore => some ∅
  | _ => none

/-- Every entry of `held` is in the store. -/
def Store.Includes (store held : Store) : Prop :=
  ∀ key entry, held.get? key = some entry → store.get? key = some entry

/-- The store has an admin account. -/
def Store.HasAdmin (store : Store) : Prop :=
  Scalar.given ((store.getIntegrationCredentials {} "admin").get? "password_hash") = true

instance (store : Store) : Decidable store.HasAdmin := inferInstanceAs (Decidable (_ = true))

namespace Vault

variable {K N T : Type} {fernet : Sealing Bytes K N T Store} {sources : KeySources}
  {draw : Draw N} {disk : Disk T} {token : T}

theorem renameUnder_empty (oldKey newKey : String) :
    (∅ : Store).renameUnder oldKey newKey = none := rfl

theorem loadStore_unreadable (hun : Unreadable fernet sources draw disk) :
    loadStore fernet sources draw disk = (∅, (getFernet fernet sources draw disk).2) := by
  obtain ⟨token, htoken, hopen⟩ := hun
  unfold loadStore
  rw [htoken]
  cases hget : getFernet fernet sources draw disk with
  | mk result disk' =>
      cases result with
      | error exc => rfl
      | ok key => simp [hopen key (by rw [hget])]

/-- Saving writes the file when there is a key, and raises when there is none. -/
theorem saveStore_disk (store : Store) :
    (saveStore fernet sources draw store disk).2 =
      match (getFernet fernet sources draw disk).1 with
      | .ok key => { (getFernet fernet sources draw disk).2 with
          credentials := some (fernet.encrypt key draw.nonce store) }
      | .error _ => (getFernet fernet sources draw disk).2 := by
  unfold saveStore
  cases getFernet fernet sources draw disk with
  | mk result disk' => cases result <;> rfl

/-- Over an unreadable file, an operation writes what it makes of the empty
store, or it changes at most the generated key. -/
theorem exec_unreadable (hun : Unreadable fernet sources draw disk) (op : CredentialOp) :
    match op.written with
    | some store => exec fernet sources draw disk op =
        (saveStore fernet sources draw store disk).2
    | none => exec fernet sources draw disk op = disk ∨
        exec fernet sources draw disk op = (getFernet fernet sources draw disk).2 := by
  have hload := loadStore_unreadable hun
  have hread : ∀ {α : Type} (f : Store → α), (readStore fernet sources draw f disk).2 =
      (getFernet fernet sources draw disk).2 := by
    intro α f
    simp [readStore, hload]
  have hkept : ∀ f : Store → Option Store, f ∅ = none →
      (updateStore fernet sources draw f disk).2 = (getFernet fernet sources draw disk).2 := by
    intro f hf
    simp [updateStore, hload, hf]
  have hsaved : ∀ (f : Store → Option Store) (store : Store), f ∅ = some store →
      (updateStore fernet sources draw f disk).2 =
        (saveStore fernet sources draw store disk).2 := by
    intro f store hf
    simp only [updateStore, hload, hf]
    rw [saveStore_disk, saveStore_disk, getFernet_again]
  cases op with
  | getCredentials slug => exact .inr (hread _)
  | getIntegrationCredentials config key => exact .inr (hread _)
  | credentialStatus slug => exact .inr (hread _)
  | adminExists => exact .inr (hread _)
  | saveCredentials slug sshPassword sshKey sudoPassword => exact hsaved _ _ rfl
  | saveSudoPassword slug password => exact hsaved _ _ rfl
  | deleteCredentials slug => exact hsaved _ _ rfl
  | saveIntegrationCredentials key fields => exact hsaved _ _ rfl
  | deleteIntegrationCredentials key => exact hsaved _ _ rfl
  | wipeCredentialStore => rfl
  | renameCredentials oldSlug newSlug =>
      by_cases heq : oldSlug = newSlug
      · exact .inl (by simp [exec, renameCredentials, heq])
      · refine .inr ?_
        simp only [exec, renameCredentials, if_neg heq]
        exact hkept _ (by simp [Store.renameCredentials, heq, renameUnder_empty])
  | renameIntegrationCredentials oldKey newKey =>
      by_cases heq : oldKey = newKey
      · exact .inl (by simp [exec, renameIntegrationCredentials, heq])
      · refine .inr ?_
        simp only [exec, renameIntegrationCredentials, if_neg heq]
        exact hkept _ (by simp [Store.renameIntegrationCredentials, heq, renameUnder_empty])

/-- No account is found in an unreadable file. -/
theorem adminExists_unreadable (hun : Unreadable fernet sources draw disk) :
    (adminExists fernet sources draw disk).1 = false := by
  simp only [adminExists, readStore, loadStore_unreadable hun]
  rfl

variable (fernet sources) in
/-- The file holds every entry of `held`: its bytes are the ones of `token`, or the
current key opens it to a store that includes them. -/
def HoldsEntries (held : Store) (token : T) (disk : Disk T) : Prop :=
  disk.credentials = some token ∨
    ∃ draw key token' store, disk.credentials = some token' ∧
      (getFernet fernet sources draw disk).1 = .ok key ∧
      fernet.decrypt key token' = some store ∧ store.Includes held

variable (fernet sources) in
/-- Nothing that was held is lost, and an account that was there is found. -/
def Intact (held : Store) (token : T) (disk : Disk T) : Prop :=
  HoldsEntries fernet sources held token disk ∧
    (held.HasAdmin → ∀ draw, (adminExists fernet sources draw disk).1 = true)

/-- A credential operation and what it draws. -/
structure Step (N : Type) where
  op : CredentialOp
  draw : Draw N

variable (fernet sources) in
/-- Operations one after the other, each on the disk it stands next to, as long as
the file cannot be read. -/
inductive Run : Disk T → List (Disk T × Step N) → Disk T → Prop where
  | nil (disk : Disk T) : Run disk [] disk
  | cons {disk disk' : Disk T} {trace : List (Disk T × Step N)} (step : Step N)
      (hun : Unreadable fernet sources step.draw disk)
      (hrun : Run (exec fernet sources step.draw disk step.op) trace disk') :
      Run disk ((disk, step) :: trace) disk'

variable (fernet sources) in
/-- The operation writes nothing, or there is no key to write with, or what it
writes over the file includes what was held. -/
def Harmless (held : Store) (disk : Disk T) (step : Step N) : Prop :=
  step.op.written = none ∨
    (∃ exc, (getFernet fernet sources step.draw disk).1 = .error exc) ∨
    ∃ store, step.op.written = some store ∧ store.Includes held

section Steps

variable {held : Store} {step : Step N}

theorem intact_unreadable (htoken : disk.credentials = some token)
    (hun : Unreadable fernet sources draw disk) :
    Intact fernet sources held token disk ↔ ¬ held.HasAdmin := by
  constructor
  · rintro ⟨_, hadmin⟩ hheld
    have hfound := hadmin hheld draw
    rw [adminExists_unreadable hun] at hfound
    cases hfound
  · exact fun hno => ⟨.inl htoken, fun hheld => absurd hheld hno⟩

/-- After an operation that writes nothing the same bytes are there, still unreadable. -/
theorem unwritten_step (htoken : disk.credentials = some token)
    (hun : Unreadable fernet sources step.draw disk)
    (hnot : step.op.written = none ∨
      ∃ exc, (getFernet fernet sources step.draw disk).1 = .error exc) :
    (exec fernet sources step.draw disk step.op).credentials = some token ∧
      Unreadable fernet sources step.draw (exec fernet sources step.draw disk step.op) := by
  have hexec : exec fernet sources step.draw disk step.op = disk ∨
      exec fernet sources step.draw disk step.op =
        (getFernet fernet sources step.draw disk).2 := by
    have hspec := exec_unreadable hun step.op
    cases hwritten : step.op.written with
    | none =>
        rw [hwritten] at hspec
        exact hspec
    | some store =>
        rw [hwritten] at hspec
        obtain ⟨exc, hexc⟩ := hnot.resolve_left (by rw [hwritten]; nofun)
        simp only [saveStore_disk, hexc] at hspec
        exact .inr hspec
  rcases hexec with hsame | hkeyed
  · rw [hsame]
    exact ⟨htoken, hun⟩
  · rw [hkeyed]
    obtain ⟨token', htoken', hopen⟩ := hun
    refine ⟨getFernet_keeps.trans htoken, token', getFernet_keeps.trans htoken', ?_⟩
    rw [getFernet_again]
    exact hopen

/-- After an operation that writes, the current key opens the file to what it wrote. -/
theorem written_step {key : K} {store : Store} (hun : Unreadable fernet sources step.draw disk)
    (hkey : (getFernet fernet sources step.draw disk).1 = .ok key)
    (hwritten : step.op.written = some store) (draw : Draw N) :
    (exec fernet sources step.draw disk step.op).credentials =
        some (fernet.encrypt key step.draw.nonce store) ∧
      (getFernet fernet sources draw (exec fernet sources step.draw disk step.op)).1 = .ok key := by
  have hspec := exec_unreadable hun step.op
  simp only [hwritten, saveStore_disk, hkey] at hspec
  rw [hspec]
  refine ⟨rfl, ?_⟩
  rw [getFernet_credentials, getFernet_again]
  exact hkey

/-- What was written over an unreadable file is all that it holds from then on. -/
theorem intact_written {key : K} {store : Store} (hno : ¬ held.HasAdmin)
    (htoken : disk.credentials = some token) (hun : Unreadable fernet sources step.draw disk)
    (hkey : (getFernet fernet sources step.draw disk).1 = .ok key)
    (hwritten : step.op.written = some store) :
    Intact fernet sources held token (exec fernet sources step.draw disk step.op) ↔
      store.Includes held := by
  have hafter := written_step hun hkey hwritten
  constructor
  · rintro ⟨hsame | ⟨draw, key', token', store', htoken', hkey', hopen, hincludes⟩, _⟩
    · obtain ⟨token', htoken', hopen⟩ := hun
      obtain rfl : token' = token := Option.some.inj (htoken'.symm.trans htoken)
      rw [(hafter step.draw).1] at hsame
      exact absurd (Option.some.inj hsame) (fernet.encrypt_ne (hopen key hkey) _ _)
    · rw [(hafter draw).1] at htoken'
      rw [(hafter draw).2] at hkey'
      rw [← Option.some.inj htoken', ← Except.ok.inj hkey', fernet.decrypt_encrypt] at hopen
      rw [Option.some.inj hopen]
      exact hincludes
  · intro hincludes
    refine ⟨.inr ⟨step.draw, key, _, store, (hafter step.draw).1, (hafter step.draw).2, ?_,
      hincludes⟩, fun hheld => absurd hheld hno⟩
    exact fernet.decrypt_encrypt _ _ _

/-- Once an operation has written, the run over the unreadable file is over. -/
theorem run_written {key : K} {store : Store} {disk' : Disk T} {trace : List (Disk T × Step N)}
    (hun : Unreadable fernet sources step.draw disk)
    (hkey : (getFernet fernet sources step.draw disk).1 = .ok key)
    (hwritten : step.op.written = some store)
    (hrun : Run fernet sources (exec fernet sources step.draw disk step.op) trace disk') :
    trace = [] ∧ disk' = exec fernet sources step.draw disk step.op := by
  cases hrun with
  | nil => exact ⟨rfl, rfl⟩
  | cons next hnext hrest =>
      obtain ⟨token, htoken, hopen⟩ := hnext
      have hafter := written_step hun hkey hwritten next.draw
      rw [hafter.1] at htoken
      have hclosed := hopen key hafter.2
      rw [← Option.some.inj htoken, fernet.decrypt_encrypt] at hclosed
      cases hclosed

end Steps

/-- In a run over a file that the key does not open, nothing that the file held is
lost and the admin account is found in every state reached, exactly when the
file held no account and every operation of the run is harmless. -/
theorem unreadable_store_intact_iff {K N T : Type} (fernet : Sealing Bytes K N T Store)
    (sources : KeySources) (held : Store) (token : T) {draw : Draw N} {disk disk' : Disk T}
    {trace : List (Disk T × Step N)} (htoken : disk.credentials = some token)
    (hun : Unreadable fernet sources draw disk) (hrun : Run fernet sources disk trace disk') :
    ((∀ visit ∈ trace, Intact fernet sources held token visit.1) ∧
        Intact fernet sources held token disk') ↔
      ¬ held.HasAdmin ∧ ∀ visit ∈ trace, Harmless fernet sources held visit.1 visit.2 := by
  induction hrun generalizing draw with
  | nil disk => simp [intact_unreadable htoken hun]
  | @cons disk disk' trace step hstep hrest ih =>
      by_cases hnot : step.op.written = none ∨
          ∃ exc, (getFernet fernet sources step.draw disk).1 = .error exc
      · obtain ⟨htoken', hun'⟩ := unwritten_step htoken hstep hnot
        have hharmless : Harmless fernet sources held disk step :=
          hnot.imp_right fun hkeyless => .inl hkeyless
        have hrec := ih htoken' hun'
        simp only [List.forall_mem_cons, hharmless, true_and, ← hrec,
          intact_unreadable htoken hstep]
        constructor
        · exact fun hall => ⟨hall.1.2, hall.2⟩
        · exact fun hall => ⟨⟨(hrec.mp hall).1, hall.1⟩, hall.2⟩
      · obtain ⟨hwrites, hkeyed⟩ := not_or.mp hnot
        obtain ⟨store, hwritten⟩ := Option.ne_none_iff_exists'.mp hwrites
        cases hkey : (getFernet fernet sources step.draw disk).1 with
        | error exc => exact absurd ⟨exc, hkey⟩ hkeyed
        | ok key =>
            obtain ⟨rfl, rfl⟩ := run_written hstep hkey hwritten hrest
            have hharmless : Harmless fernet sources held disk step ↔ store.Includes held := by
              simp [Harmless, hwritten, hkey]
            simp only [List.forall_mem_singleton, hharmless, intact_unreadable htoken hstep]
            exact and_congr_right fun hno => intact_written hno htoken hstep hkey hwritten

section LostKey

/-- A store with the credentials of a host and an admin account. -/
def webStore : Store :=
  ((∅ : Store).set "web" ((∅ : Entry).set "ssh_password" (.str "secret"))).set
    "__integration_admin__" ((∅ : Entry).set "password_hash" (.str "$2b$12$"))

def noSources : KeySources where
  secretKey := ""
  secretKeyFile := ""
  readFile _ := .error "No such file or directory"

/-- The store under the key `[0]`, beside a generated key `[1]`. -/
def lostKeyDisk : Disk (Bytes × Store) where
  secret := some [1]
  credentials := some ([0], webStore)

def saveStep : Step Unit where
  op := .saveCredentials "db" (some "secret") none none
  draw := ⟨[2], ()⟩

theorem lostKeyDisk_unreadable :
    Unreadable (Sealing.box Bytes Store) noSources saveStep.draw lostKeyDisk := by
  refine ⟨_, rfl, fun key hkey => ?_⟩
  obtain rfl : [1] = key := Except.ok.inj hkey
  exact (Sealing.box Bytes Store).decrypt_other [0] [1] () webStore (by decide)

theorem unreadable_store_intact_lostKey :
    ((∀ visit ∈ [(lostKeyDisk, saveStep)],
          Intact (Sealing.box Bytes Store) noSources webStore ([0], webStore) visit.1) ∧
        Intact (Sealing.box Bytes Store) noSources webStore ([0], webStore)
          (exec (Sealing.box Bytes Store) noSources saveStep.draw lostKeyDisk saveStep.op)) ↔
      ¬ webStore.HasAdmin ∧ ∀ visit ∈ [(lostKeyDisk, saveStep)],
        Harmless (Sealing.box Bytes Store) noSources webStore visit.1 visit.2 :=
  unreadable_store_intact_iff _ noSources webStore ([0], webStore) rfl lostKeyDisk_unreadable
    (.cons saveStep lostKeyDisk_unreadable (.nil _))

/-- With the key lost, the account is not found, and saving one host's password
leaves a file without the other host's. -/
theorem unreadable_store_lost :
    Unreadable (Sealing.box Bytes Store) noSources saveStep.draw lostKeyDisk ∧
      webStore.HasAdmin ∧
      (adminExists (Sealing.box Bytes Store) noSources saveStep.draw lostKeyDisk).1 = false ∧
      ∃ store, (exec (Sealing.box Bytes Store) noSources saveStep.draw lostKeyDisk
          saveStep.op).credentials = some ([1], store) ∧
        store.get? "web" = none ∧ webStore.get? "web" ≠ none := by
  refine ⟨lostKeyDisk_unreadable, by decide, by decide, _, rfl, by decide, by decide⟩

end LostKey

end Vault

end Keepup
