import Keepup.Proxmox.Servers
import Keepup.Lib.Remote

/-!
The migration off the old Proxmox block, as a program that reads and writes
two files one after the other. It can be stopped at each of these calls: a
write is either on the disk as a whole or not at all.
-/

namespace Keepup.Proxmox

open Lib Lib.Remote

inductive FileCall where
  | loadConfig
  | saveConfig (config : Config)
  | loadStore
  | saveStore (store : Store)

inductive MigrationError where
  | stopped
  | invalidUrl
deriving DecidableEq

/-- What a call makes of the disk. -/
def FileCall.apply (s : Settings) : FileCall → Settings
  | .loadConfig => s
  | .saveConfig config => { s with config }
  | .loadStore => s
  | .saveStore store => { s with store }

/-- The disk. The choice is whether the process stops before the call; the reply
is what is on the disk after it. -/
def serve : Server Settings FileCall Settings MigrationError Bool
  | s, _, true => (s, .error .stopped)
  | s, c, false => (c.apply s, .ok (c.apply s))

abbrev Migration (α : Type) := Remote FileCall Settings MigrationError α

/-- Move an entry, when there is one. -/
def renameIntegrationCredentials (oldKey newKey : String) : Migration Unit := do
  let loaded ← perform .loadStore
  match loaded.store.renameIntegrationCredentials oldKey newKey with
  | some store => do
      let _ ← perform (.saveStore store)
      pure ()
  | none => pure ()

/-- The server that the old block becomes. -/
def serverOfBlock (serverId : String) (legacy : Block) : ProxmoxServer :=
  let pinned := legacy.pinnedCertPem.getD "" != ""
  { id := serverId
    url := some (legacy.url.getD "")
    verifySsl := some (legacy.verifySsl.getD true)
    pinnedCertPem := if pinned then legacy.pinnedCertPem else none
    pinnedFingerprint := if pinned then some (legacy.pinnedFingerprint.getD "") else none }

/-- Name the owner of a Proxmox host. -/
def stamp (serverId : String) (host : HostEntry) : HostEntry :=
  if Text.given host.proxmoxNode then { host with proxmoxServer := some serverId } else host

def migratedConfig (config : Config) (legacy : Block) (serverId : String) : Config :=
  { config with
    proxmox := none
    proxmoxServers := some [serverOfBlock serverId legacy]
    hosts := config.hosts.map (stamp serverId) }

def migrateProxmoxServers (env : Surroundings) : Migration String := do
  let loaded ← perform .loadConfig
  let config := loaded.config
  match legacyBlock config with
  | none => pure ""
  | some legacy =>
      -- with both shapes on the disk the list wins
      if config.getProxmoxServers ≠ [] then do
        let _ ← perform (.saveConfig { config with proxmox := none })
        pure ""
      else
        match slugifyServerId env (legacy.url.getD "") with
        | none => .raise .invalidUrl
        | some serverId => do
            let _ ← perform (.saveConfig (migratedConfig config legacy serverId))
            renameIntegrationCredentials "proxmox" ("proxmox_" ++ serverId)
            pure serverId

section Restart

variable (env : Surroundings) (s : Settings)

/-- The disk after a migration that stops where `stops` says. -/
def interrupted (stops : Nat → FileCall → Bool) : Settings :=
  (exec serve stops 0 (migrateProxmoxServers env) s).1

/-- The disk after the migration at startup. -/
def restart : Settings := interrupted env s fun _ _ => false

/-- The store once the credentials are under the key of the server. -/
def movedStore (store : Store) (serverId : String) : Store :=
  (store.renameIntegrationCredentials "proxmox" ("proxmox_" ++ serverId)).getD store

/-- What an uninterrupted migration makes of the disk. -/
inductive Migrated : Settings → Prop where
  | nothing (hlegacy : legacyBlock s.config = none) : Migrated s
  | dropped (legacy : Block) (hlegacy : legacyBlock s.config = some legacy)
      (hservers : s.config.getProxmoxServers ≠ []) :
      Migrated { s with config := { s.config with proxmox := none } }
  | refused (legacy : Block) (hlegacy : legacyBlock s.config = some legacy)
      (hservers : s.config.getProxmoxServers = [])
      (hurl : slugifyServerId env (legacy.url.getD "") = none) : Migrated s
  | moved (legacy : Block) (serverId : String) (hlegacy : legacyBlock s.config = some legacy)
      (hservers : s.config.getProxmoxServers = [])
      (hurl : slugifyServerId env (legacy.url.getD "") = some serverId) :
      Migrated ⟨migratedConfig s.config legacy serverId, movedStore s.store serverId⟩

end Restart

section Cases

variable {env : Surroundings} {s : Settings} {stops : Nat → FileCall → Bool}

/-- The last part of the migration moves the entry, unless it is stopped. -/
theorem exec_rename (stops : Nat → FileCall → Bool) (n : Nat) (s : Settings) (serverId : String) :
    let prog := renameIntegrationCredentials "proxmox" ("proxmox_" ++ serverId) >>= fun _ =>
      (.ret serverId : Migration String)
    (exec serve stops n prog s).1 = { s with store := movedStore s.store serverId } ∨
      (∃ k c, stops k c = true) ∧ (exec serve stops n prog s).1 = s := by
  intro prog
  simp only [prog, renameIntegrationCredentials, perform_bind, call_bind, exec]
  cases hload : stops n .loadStore with
  | true => exact .inr ⟨⟨n, _, hload⟩, rfl⟩
  | false =>
      simp only [serve, FileCall.apply, movedStore]
      cases hrename : s.store.renameIntegrationCredentials "proxmox" ("proxmox_" ++ serverId) with
      | none => exact .inl rfl
      | some store =>
          simp only [pure_eq, call_bind, exec]
          cases hsave : stops (n + 1) (.saveStore store) with
          | true => exact .inr ⟨⟨n + 1, _, hsave⟩, rfl⟩
          | false => exact .inl rfl

/-- Everything that a migration can leave on the disk, interrupted or not. -/
theorem interrupted_cases (env : Surroundings) (s : Settings) (stops : Nat → FileCall → Bool) :
    Migrated env s (interrupted env s stops) ∨ (∃ k c, stops k c = true) ∧
      (interrupted env s stops = s ∨
        ∃ legacy serverId, legacyBlock s.config = some legacy ∧ s.config.getProxmoxServers = [] ∧
          slugifyServerId env (legacy.url.getD "") = some serverId ∧
          interrupted env s stops = ⟨migratedConfig s.config legacy serverId, s.store⟩) := by
  rw [interrupted, migrateProxmoxServers, perform_bind, exec]
  cases hload : stops 0 .loadConfig with
  | true => exact .inr ⟨⟨0, _, hload⟩, .inl rfl⟩
  | false =>
      simp only [serve, FileCall.apply]
      cases hlegacy : legacyBlock s.config with
      | none => exact .inl (.nothing hlegacy)
      | some legacy =>
          dsimp only
          split
          · rename_i hservers
            rw [perform_bind, exec]
            cases hsave : stops 1 (.saveConfig { s.config with proxmox := none }) with
            | true => exact .inr ⟨⟨1, _, hsave⟩, .inl rfl⟩
            | false => exact .inl (.dropped legacy hlegacy hservers)
          · rename_i hservers
            rw [ne_eq, not_not] at hservers
            cases hurl : slugifyServerId env (legacy.url.getD "") with
            | none => exact .inl (.refused legacy hlegacy hservers hurl)
            | some serverId =>
                simp only [perform_bind, exec]
                cases hsave : stops 1 (.saveConfig (migratedConfig s.config legacy serverId)) with
                | true => exact .inr ⟨⟨1, _, hsave⟩, .inl rfl⟩
                | false =>
                    simp only [serve, FileCall.apply, pure_eq]
                    rcases exec_rename stops 2 ⟨migratedConfig s.config legacy serverId, s.store⟩
                      serverId with hmoved | ⟨hstop, hkept⟩
                    · rw [hmoved]
                      exact .inl (.moved legacy serverId hlegacy hservers hurl)
                    · exact .inr ⟨hstop, .inr ⟨legacy, serverId, rfl, hservers, hurl, hkept⟩⟩

theorem restart_migrated (env : Surroundings) (s : Settings) : Migrated env s (restart env s) := by
  rcases interrupted_cases env s fun _ _ => false with hmigrated | ⟨⟨k, c, hstop⟩, _⟩
  · exact hmigrated
  · cases hstop

theorem Migrated.unique {t t' : Settings} (h : Migrated env s t) (h' : Migrated env s t') :
    t = t' := by
  cases h <;> cases h' <;> simp_all

theorem Migrated.restart_eq {t : Settings} (h : Migrated env s t) : restart env s = t :=
  (restart_migrated env s).unique h

theorem restart_eq_self (hlegacy : legacyBlock s.config = none) : restart env s = s :=
  (Migrated.nothing hlegacy).restart_eq

/-- A second migration has nothing to do. -/
theorem restart_restart (env : Surroundings) (s : Settings) :
    restart env (restart env s) = restart env s := by
  generalize hafter : restart env s = t
  cases hafter ▸ restart_migrated env s with
  | nothing hlegacy => exact hafter
  | refused legacy hlegacy hservers hurl => exact hafter
  | dropped legacy hlegacy hservers => exact (Migrated.nothing rfl).restart_eq
  | moved legacy serverId hlegacy hservers hurl => exact (Migrated.nothing rfl).restart_eq

end Cases

section MovedStore

variable {store : Store} {serverId : String}

theorem integrationKey_injective : Function.Injective integrationKey := by
  intro name name' h
  delta integrationKey at h
  have hlist := congrArg String.toList h
  rw [String.toList_append, String.toList_append, String.toList_append, String.toList_append]
    at hlist
  exact String.toList_inj.mp (List.append_cancel_left (List.append_cancel_right hlist))

/-- The key of a server is never the key of the old block. -/
theorem proxmox_ne (serverId : String) : "proxmox_" ++ serverId ≠ "proxmox" := by
  intro h
  have hlength := congrArg String.length h
  have hlong : "proxmox_".length = 8 := by decide
  have hshort : "proxmox".length = 7 := by decide
  rw [String.length_append] at hlength
  omega

theorem integrationKey_ne (serverId : String) :
    integrationKey ("proxmox_" ++ serverId) ≠ integrationKey "proxmox" :=
  fun h => proxmox_ne serverId (integrationKey_injective h)

theorem movedStore_of_none (h : store.get? (integrationKey "proxmox") = none) :
    movedStore store serverId = store := by
  simp [movedStore, Store.renameIntegrationCredentials, Store.renameUnder, h]

theorem movedStore_of_some {entry : Entry}
    (h : store.get? (integrationKey "proxmox") = some entry) :
    movedStore store serverId = (store.pop (integrationKey "proxmox")).set
      (integrationKey ("proxmox_" ++ serverId)) entry := by
  simp [movedStore, Store.renameIntegrationCredentials, Store.renameUnder, h,
    (proxmox_ne serverId).symm]

end MovedStore

section Interruption

variable (env : Surroundings) (s : Settings)

/-- A server that is migrated finds its credentials under its own key. -/
def CredentialsFound (after : Settings) : Prop :=
  ∀ legacy serverId entry, legacyBlock s.config = some legacy → s.config.getProxmoxServers = [] →
    slugifyServerId env (legacy.url.getD "") = some serverId →
    s.store.get? (integrationKey "proxmox") = some entry →
    after.store.get? (integrationKey ("proxmox_" ++ serverId)) = some entry

/-- Wherever a migration stops, the next one ends where it would have ended. -/
def SurvivesInterruption : Prop :=
  ∀ stops, restart env (interrupted env s stops) = restart env s ∧
    CredentialsFound env s (restart env (interrupted env s stops))

/-- No credentials have to be moved for a migration. -/
def NothingToMove : Prop :=
  ∀ legacy serverId, legacyBlock s.config = some legacy → s.config.getProxmoxServers = [] →
    slugifyServerId env (legacy.url.getD "") = some serverId →
    s.store.get? (integrationKey "proxmox") = none

variable {env s}

/-- Stopped after the first of its two writes, the migration is never finished. -/
theorem interrupted_between {legacy : Block} {serverId : String}
    (hlegacy : legacyBlock s.config = some legacy) (hservers : s.config.getProxmoxServers = [])
    (hurl : slugifyServerId env (legacy.url.getD "") = some serverId) :
    interrupted env s (fun n _ => n == 2) = ⟨migratedConfig s.config legacy serverId, s.store⟩ := by
  simp [interrupted, migrateProxmoxServers, exec, serve, FileCall.apply, hlegacy, hservers, hurl,
    renameIntegrationCredentials]

theorem survives_interruption_iff (env : Surroundings) (s : Settings) :
    SurvivesInterruption env s ↔ NothingToMove env s := by
  constructor
  · intro hsurvives legacy serverId hlegacy hservers hurl
    cases hentry : s.store.get? (integrationKey "proxmox") with
    | none => rfl
    | some entry =>
        -- the second run sees no old block and leaves the entry where it is
        obtain ⟨hsame, _⟩ := hsurvives fun n _ => n == 2
        rw [interrupted_between hlegacy hservers hurl, restart_eq_self rfl,
          (Migrated.moved legacy serverId hlegacy hservers hurl).restart_eq,
          movedStore_of_some hentry] at hsame
        have hold := congrArg (fun t => t.store.get? (integrationKey "proxmox")) hsame
        simp [hentry, Dict.get?_set_ne _ _ (integrationKey_ne serverId).symm] at hold
  · intro hnothing stops
    have hfound : ∀ after, CredentialsFound env s after := by
      intro after legacy serverId entry hlegacy hservers hurl hentry
      rw [hnothing legacy serverId hlegacy hservers hurl] at hentry
      cases hentry
    refine ⟨?_, hfound _⟩
    rcases interrupted_cases env s stops with hdone | ⟨_, hsame | hbetween⟩
    · rw [← hdone.restart_eq]
      exact restart_restart env s
    · rw [hsame]
    · obtain ⟨legacy, serverId, hlegacy, hservers, hurl, hstate⟩ := hbetween
      have hnone := hnothing legacy serverId hlegacy hservers hurl
      rw [hstate, restart_eq_self rfl,
        (Migrated.moved legacy serverId hlegacy hservers hurl).restart_eq, movedStore_of_none hnone]

/-- A node of the old block, and a token under its key. -/
def legacySettings : Settings where
  config := {
    hosts := [{ name := "Proxmox VE (pve)", host := "pve", proxmoxNode := some "pve" }]
    proxmox := some { url := some "https://pve:8006" } }
  store := (∅ : Store).set (integrationKey "proxmox")
    (((∅ : Entry).set "token_id" (.str "root@pam!keepup")).set "secret" (.str "sekrit"))

theorem interrupted_migration_loses_token :
    ¬ SurvivesInterruption plainSurroundings legacySettings := by
  intro hsurvives
  have hlegacy : legacyBlock legacySettings.config = some { url := some "https://pve:8006" } := by
    decide +kernel
  have hurl : slugifyServerId plainSurroundings "https://pve:8006" = some "pve" := by decide +kernel
  have hentry : legacySettings.store.get? (integrationKey "proxmox") =
      some (((∅ : Entry).set "token_id" (.str "root@pam!keepup")).set "secret"
          (.str "sekrit")) := by
    decide +kernel
  have hfound := (hsurvives fun n _ => n == 2).2 _ "pve" _ hlegacy rfl hurl hentry
  rw [interrupted_between hlegacy rfl hurl, restart_eq_self rfl] at hfound
  revert hfound
  decide +kernel

end Interruption

end Keepup.Proxmox
