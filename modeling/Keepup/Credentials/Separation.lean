import Keepup.Credentials.Store

/-!
Host entries and integration entries share one dictionary and are told apart
by the form of their keys alone. A slug made by `slugify` never has that form,
but a path parameter can; and one integration route deletes by a bare key.
-/

namespace Keepup

open Lib

/-- Keys of the form `__integration_<name>__`. -/
def IsIntegrationKey (key : String) : Prop := ∃ name, integrationKey name = key

/-- Keys under which a host's credentials are stored. -/
def IsHostKey (key : String) : Prop := ∃ name, slugify name = key

/-- A path parameter is a non-empty text without a slash. -/
def IsPathParam (s : String) : Prop := s ≠ "" ∧ '/' ∉ s.toList

/-- The slugs that routes pass to the host operations. -/
abbrev RouteSlug := {s : String // IsPathParam s ∨ IsHostKey s}

theorem integrationKey_underscore (name : String) : '_' ∈ (integrationKey name).toList := by
  delta integrationKey
  rw [String.toList_append, String.toList_append]
  exact List.mem_append_right _ (by decide)

/-- No slug has the form of an integration key. -/
theorem not_integrationKey_of_hostKey {key : String} (hhost : IsHostKey key) :
    ¬ IsIntegrationKey key := by
  rintro ⟨name, rfl⟩
  obtain ⟨hostName, hslug⟩ := hhost
  have hchar := slugify_chars hostName '_' (hslug ▸ integrationKey_underscore name)
  exact absurd hchar (by decide)

/-- The calls of the store operations that mean one host's credentials. -/
inductive HostCall where
  | save (slug : RouteSlug) (sshPassword sshKey sudoPassword : Option String)
  | delete (slug : RouteSlug)
  | rename (oldSlug newSlug : RouteSlug)

/-- The calls that mean an integration. All pass a key to the integration
operations, except the one that deletes the e-mail settings in the wizard. -/
inductive IntegrationCall where
  | save (key : String) (fields : List (String × Option Scalar))
  | delete (key : String)
  | rename (oldKey newKey : String)
  | setupDeleteEmail

def HostCall.run (store : Store) : HostCall → Store
  | .save slug sshPassword sshKey sudoPassword =>
      store.saveCredentials slug.val sshPassword sshKey sudoPassword
  | .delete slug => store.deleteCredentials slug.val
  | .rename oldSlug newSlug => (store.renameCredentials oldSlug.val newSlug.val).getD store

def IntegrationCall.run (store : Store) : IntegrationCall → Store
  | .save key fields => store.saveIntegrationCredentials key fields
  | .delete key => store.deleteIntegrationCredentials key
  | .rename oldKey newKey => (store.renameIntegrationCredentials oldKey newKey).getD store
  | .setupDeleteEmail => store.deleteCredentials "email"

/-- The slugs of a call by which it can reach an entry. -/
def HostCall.Reaches : HostCall → String → Prop
  | .save slug _ _ _, key => slug.val = key
  | .delete slug, key => slug.val = key
  | .rename oldSlug newSlug, key => oldSlug ≠ newSlug ∧ (oldSlug.val = key ∨ newSlug.val = key)

section Frame

variable {store store' : Store} {key oldKey newKey : String}

/-- What a rename of an entry leaves as it was. -/
theorem agreeOn_renameUnder {p : String → Prop} (hold : ¬ p oldKey) (hnew : ¬ p newKey) :
    Dict.AgreeOn p ((store.renameUnder oldKey newKey).getD store) store := by
  intro k hk
  have hkold : k ≠ oldKey := fun heq => hold (heq ▸ hk)
  have hknew : k ≠ newKey := fun heq => hnew (heq ▸ hk)
  cases hrename : store.renameUnder oldKey newKey with
  | none => rfl
  | some store' => exact Store.renameUnder_other hrename hkold hknew

/-- A host call changes no entry that it does not reach by one of its slugs. -/
theorem HostCall.frame (call : HostCall) {p : String → Prop}
    (hfree : ∀ k, call.Reaches k → ¬ p k) : Dict.AgreeOn p (call.run store) store := by
  cases call with
  | save slug sshPassword sshKey sudoPassword => exact Dict.AgreeOn.set (hfree _ rfl) _
  | delete slug => exact Dict.AgreeOn.pop (hfree _ rfl)
  | rename oldSlug newSlug =>
      by_cases heq : oldSlug.val = newSlug.val
      · simp only [HostCall.run, Store.renameCredentials, if_pos heq]
        exact Dict.AgreeOn.refl store
      · have hne : oldSlug ≠ newSlug := fun h => heq (congrArg Subtype.val h)
        simp only [HostCall.run, Store.renameCredentials, if_neg heq]
        exact agreeOn_renameUnder (hfree _ ⟨hne, .inl rfl⟩) (hfree _ ⟨hne, .inr rfl⟩)

/-- An entry that a host call reaches is not the same in every store. -/
theorem HostCall.changes (call : HostCall) (hreach : call.Reaches key) :
    ∃ store : Store, (call.run store).get? key ≠ store.get? key := by
  cases call with
  | save slug sshPassword sshKey sudoPassword =>
      obtain rfl : slug.val = key := hreach
      refine ⟨∅, ?_⟩
      simp [HostCall.run, Store.saveCredentials, Store.saveUnder_self]
  | delete slug =>
      obtain rfl : slug.val = key := hreach
      exact ⟨(∅ : Store).set slug.val ∅, by simp [HostCall.run, Store.deleteCredentials]⟩
  | rename oldSlug newSlug =>
      obtain ⟨hne, hreach⟩ := hreach
      have hval : oldSlug.val ≠ newSlug.val := fun h => hne (Subtype.ext h)
      have hrun : HostCall.run ((∅ : Store).set oldSlug.val ∅) (.rename oldSlug newSlug) =
          (((∅ : Store).set oldSlug.val ∅).pop oldSlug.val).set newSlug.val ∅ := by
        simp [HostCall.run, Store.renameCredentials, Store.renameUnder, hval]
      refine ⟨(∅ : Store).set oldSlug.val ∅, ?_⟩
      rw [hrun]
      rcases hreach with rfl | rfl
      · rw [Dict.get?_set_ne _ _ hval, Dict.get?_pop_self, Dict.get?_set_self]
        intro hsame
        cases hsame
      · rw [Dict.get?_set_self, Dict.get?_set_ne _ _ hval.symm]
        intro hsame
        cases hsame

theorem IntegrationCall.frame (call : IntegrationCall) (hcall : call ≠ .setupDeleteEmail) :
    Dict.AgreeOn IsHostKey (call.run store) store := by
  have hkey : ∀ name, ¬ IsHostKey (integrationKey name) := fun name hhost =>
    not_integrationKey_of_hostKey hhost ⟨name, rfl⟩
  cases call with
  | save key fields => exact Dict.AgreeOn.set (hkey key) _
  | delete key => exact Dict.AgreeOn.pop (hkey key)
  | rename oldKey newKey =>
      simp only [IntegrationCall.run, Store.renameIntegrationCredentials]
      split
      · exact Dict.AgreeOn.refl store
      · exact agreeOn_renameUnder (hkey oldKey) (hkey newKey)
  | setupDeleteEmail => exact absurd rfl hcall

end Frame

/-- A call of a store operation, by what it means to change. -/
inductive CredentialCall where
  | host (call : HostCall)
  | integration (call : IntegrationCall)

/-- The call leaves the other namespace as it was, whatever the store. -/
def CredentialCall.Separates : CredentialCall → Prop
  | .host call => ∀ store, Dict.AgreeOn IsIntegrationKey (call.run store) store
  | .integration call => ∀ store, Dict.AgreeOn IsHostKey (call.run store) store

/-- No slug that a host operation reaches an entry by has the form of an
integration key, and an integration call is not the wizard's e-mail deletion. -/
def CredentialCall.WellAimed : CredentialCall → Prop
  | .host call => ∀ key, call.Reaches key → ¬ IsIntegrationKey key
  | .integration call => call ≠ .setupDeleteEmail

/-- Exactly the well aimed calls keep the two namespaces apart. -/
theorem credentials_separate_iff (call : CredentialCall) : call.Separates ↔ call.WellAimed := by
  cases call with
  | host call =>
      refine ⟨fun hkeep key hreach hkey => ?_, fun hfree store => call.frame hfree⟩
      obtain ⟨store, hchange⟩ := call.changes hreach
      exact hchange (hkeep store key hkey)
  | integration call =>
      refine ⟨?_, fun hcall store => call.frame hcall⟩
      rintro hkeep rfl
      have hemail : IsHostKey "email" := ⟨"email", by decide⟩
      have hgone := hkeep ((∅ : Store).set "email" ∅) "email" hemail
      simp [IntegrationCall.run, Store.deleteCredentials] at hgone

/-- The path of the admin account's entry is a slug that a route can pass. -/
def adminSlug : RouteSlug := ⟨"__integration_admin__", .inl ⟨by decide, by decide⟩⟩

/-- Removing the "host" `__integration_admin__` deletes the admin account, and
deleting the e-mail settings deletes the credentials of a host named `email`. -/
theorem credentials_not_separate :
    (∃ store : Store, ∃ account, store.get? (integrationKey "admin") = some account ∧
        (HostCall.run store (.delete adminSlug)).get? (integrationKey "admin") = none) ∧
      ∃ store : Store, ∃ host, store.get? (slugify "email") = some host ∧
        (IntegrationCall.run store .setupDeleteEmail).get? (slugify "email") = none := by
  have hslug : slugify "email" = "email" := by decide
  have hadmin : integrationKey "admin" = "__integration_admin__" := by decide
  refine ⟨⟨(∅ : Store).set "__integration_admin__"
    ((∅ : Entry).set "password_hash" (.str "$2b$12$")), (∅ : Entry).set "password_hash"
      (.str "$2b$12$"), ?_, ?_⟩, (∅ : Store).set "email" ((∅ : Entry).set "ssh_password"
    (.str "secret")), (∅ : Entry).set "ssh_password" (.str "secret"), ?_, ?_⟩
  · rw [hadmin, Dict.get?_set_self]
  · rw [hadmin]
    exact Dict.get?_pop_self _ _
  · rw [hslug, Dict.get?_set_self]
  · rw [hslug]
    exact Dict.get?_pop_self _ _

end Keepup
