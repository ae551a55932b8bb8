import Keepup.Proxmox.Migration
import Keepup.Credentials.Separation

/-!
What a migration keeps: every Proxmox host gets the same server from the list
as it got from the old block, through each of the resolvers, and nothing else
on the disk changes.
-/

namespace Keepup.Proxmox

open Lib

/-- One server, as far as the code that uses it can tell. -/
structure SameServer (before after : Block × Entry) : Prop where
  url : after.1.url.getD "" = before.1.url.getD ""
  verifySsl : after.1.verifySsl.getD true = before.1.verifySsl.getD true
  pinnedCertPem : after.1.pinnedCertPem.getD "" = before.1.pinnedCertPem.getD ""
  pinnedFingerprint : before.1.pinnedCertPem.getD "" ≠ "" →
    after.1.pinnedFingerprint.getD "" = before.1.pinnedFingerprint.getD ""
  credentials : after.2 = before.2

/-- The server that a config names for a host, and the client for it. -/
structure SameOwner (s t : Settings) (before after : HostEntry) : Prop where
  context : SameServer (serverContext s.config s.store before)
    (serverContext t.config t.store after)
  client : (clientFromConfig t.config t.store after).toOption =
    (clientFromConfig s.config s.store before).toOption

/-- A host after the migration: at most its stamp is new, and its server is the
one it had. -/
structure SameHost (s t : Settings) (before after : HostEntry) : Prop extends
    SameOwner s t before after where
  entry : { after with proxmoxServer := before.proxmoxServer } = before
  plain : Text.given before.proxmoxNode = false → after = before

/-- What the migration is to leave as it was. -/
structure Preserves (s t : Settings) : Prop where
  hosts : List.Forall₂ (SameHost s t) s.config.hosts t.config.hosts
  singleton : SameServer
    (s.config.getProxmoxConfig, s.store.getIntegrationCredentials s.config "proxmox")
    (t.config.getProxmoxConfig, t.store.getIntegrationCredentials t.config "proxmox")
  otherConfig : { t.config with
    hosts := s.config.hosts
    proxmox := s.config.proxmox
    proxmoxServers := s.config.proxmoxServers } = s.config
  otherCredentials : ∀ name ∈ otherIntegrations,
    t.store.getIntegrationCredentials t.config name =
      s.store.getIntegrationCredentials s.config name
  hostCredentials : ∀ name, t.store.getCredentials (slugify name) =
    s.store.getCredentials (slugify name)

namespace SameServer

variable {before after : Block × Entry}

theorem refl (server : Block × Entry) : SameServer server server :=
  ⟨rfl, rfl, rfl, fun _ => rfl, rfl⟩

/-- One server makes one client, under whatever ids it is asked for. -/
theorem client (h : SameServer before after) (id id' : String) :
    (clientOf id' after).toOption = (clientOf id before).toOption := by
  simp only [clientOf, h.url, h.verifySsl, h.pinnedCertPem, h.credentials]
  split <;> rfl

end SameServer

theorem Preserves.refl (s : Settings) : Preserves s s where
  hosts := List.forall₂_same.mpr fun _ _ => ⟨⟨.refl _, rfl⟩, rfl, fun _ => rfl⟩
  singleton := .refl _
  otherConfig := rfl
  otherCredentials _ _ := rfl
  hostCredentials _ := rfl

section Moved

variable {env : Surroundings} {s : Settings} {legacy : Block} {serverId : String}

theorem getProxmoxConfig_legacy (hlegacy : legacyBlock s.config = some legacy) :
    s.config.getProxmoxConfig = legacy := by
  obtain ⟨hsome, hne⟩ := Option.filter_eq_some_iff.mp hlegacy
  rw [Config.getProxmoxConfig, hsome]
  exact if_neg (by simpa using hne)

/-- The block of the new server says what the old block said. -/
theorem sameServer_ofBlock (legacy : Block) (creds : Entry) :
    SameServer (legacy, creds) ((serverOfBlock serverId legacy).toBlock, creds) where
  url := rfl
  verifySsl := rfl
  pinnedCertPem := by
    simp only [serverOfBlock]
    split
    · rfl
    · rename_i hpinned
      rw [bne_iff_ne, not_not] at hpinned
      exact hpinned.symm
  pinnedFingerprint hpem := by
    simp [serverOfBlock, hpem]
  credentials := rfl

/-- The credentials of the new server are those that the old block had. -/
theorem moved_credentials (hservers : s.config.getProxmoxServers = [])
    (hfree : s.store.get? (integrationKey ("proxmox_" ++ serverId)) = none) :
    (movedStore s.store serverId).getD (integrationKey ("proxmox_" ++ serverId)) ∅ =
      s.store.getIntegrationCredentials s.config "proxmox" := by
  cases hentry : s.store.get? (integrationKey "proxmox") with
  | none =>
      simp [movedStore_of_none hentry, Store.getIntegrationCredentials, hentry, hservers, Dict.getD,
        hfree]
  | some entry =>
      simp [movedStore_of_some hentry, Store.getIntegrationCredentials, hentry, Dict.getD]

/-- An entry under any other key stays. -/
theorem moved_other {key : String} (hold : key ≠ integrationKey "proxmox")
    (hnew : key ≠ integrationKey ("proxmox_" ++ serverId)) :
    (movedStore s.store serverId).get? key = s.store.get? key := by
  cases hentry : s.store.get? (integrationKey "proxmox") with
  | none => rw [movedStore_of_none hentry]
  | some entry => rw [movedStore_of_some hentry, Dict.get?_set_ne _ _ hnew, Dict.get?_pop_ne _ hold]

section Contexts

variable (hlegacy : legacyBlock s.config = some legacy)
  (hservers : s.config.getProxmoxServers = [])
  (hfree : s.store.get? (integrationKey ("proxmox_" ++ serverId)) = none)

include hservers hfree

theorem moved_singleton :
    (movedStore s.store serverId).getIntegrationCredentials
        (migratedConfig s.config legacy serverId) "proxmox" =
      s.store.getIntegrationCredentials s.config "proxmox" := by
  have hgone : (movedStore s.store serverId).get? (integrationKey "proxmox") = none := by
    cases hentry : s.store.get? (integrationKey "proxmox") with
    | none => rw [movedStore_of_none hentry, hentry]
    | some entry =>
        rw [movedStore_of_some hentry, Dict.get?_set_ne _ _ (integrationKey_ne serverId).symm,
          Dict.get?_pop_self]
  rw [← moved_credentials hservers hfree, Store.getIntegrationCredentials, hgone]
  rfl

theorem moved_stamped :
    (movedStore s.store serverId).getIntegrationCredentials
        (migratedConfig s.config legacy serverId) ("proxmox_" ++ serverId) =
      s.store.getIntegrationCredentials s.config "proxmox" := by
  rw [getIntegrationCredentials_of_ne (proxmox_ne serverId), moved_credentials hservers hfree]

include hlegacy

/-- The server of the singleton shims. -/
theorem sameServer_singleton : SameServer
    (s.config.getProxmoxConfig, s.store.getIntegrationCredentials s.config "proxmox")
    ((migratedConfig s.config legacy serverId).getProxmoxConfig,
      (movedStore s.store serverId).getIntegrationCredentials
        (migratedConfig s.config legacy serverId) "proxmox") := by
  rw [moved_singleton hservers hfree, getProxmoxConfig_legacy hlegacy]
  exact sameServer_ofBlock legacy _

/-- The server of a stamped host. -/
theorem sameServer_stamped : SameServer
    (s.config.getProxmoxConfig, s.store.getIntegrationCredentials s.config "proxmox")
    ((((migratedConfig s.config legacy serverId).getProxmoxServer serverId).map
        ProxmoxServer.toBlock).getD {},
      (movedStore s.store serverId).getIntegrationCredentials
        (migratedConfig s.config legacy serverId) ("proxmox_" ++ serverId)) := by
  have hfind : (migratedConfig s.config legacy serverId).getProxmoxServer serverId =
      some (serverOfBlock serverId legacy) := by
    simp [Config.getProxmoxServer, Config.getProxmoxServers, migratedConfig, serverOfBlock]
  rw [moved_stamped hservers hfree, getProxmoxConfig_legacy hlegacy, hfind]
  exact sameServer_ofBlock legacy _

/-- A host without a stamp keeps its server, whether the migration stamps it or not. -/
theorem sameHost_stamp (hid : serverId ≠ "") {host : HostEntry}
    (hunstamped : Text.given host.proxmoxServer = false) :
    SameHost s ⟨migratedConfig s.config legacy serverId, movedStore s.store serverId⟩ host
      (stamp serverId host) := by
  have hno : Text.orElse host.proxmoxServer "" = "" := by simpa [Text.given] using hunstamped
  have hcontext : SameServer (serverContext s.config s.store host)
      (serverContext (migratedConfig s.config legacy serverId) (movedStore s.store serverId)
        (stamp serverId host)) := by
    simp only [serverContext, hno, ne_eq, not_true_eq_false, if_false, stamp]
    split
    · simpa [Text.orElse, hid] using sameServer_stamped hlegacy hservers hfree
    · simpa [hno] using sameServer_singleton hlegacy hservers hfree
  refine ⟨⟨hcontext, hcontext.client _ _⟩, ?_, ?_⟩
  · simp only [stamp]
    split <;> rfl
  · intro hplain
    simp [stamp, hplain]

end Contexts

end Moved

/-- The migration of a lone old block keeps everything, and is over after one run. -/
theorem migration_preserves (env : Surroundings) (s : Settings) (legacy : Block)
    (hlegacy : legacyBlock s.config = some legacy) (hservers : s.config.getProxmoxServers = [])
    (hunstamped : ∀ host ∈ s.config.hosts, Text.given host.proxmoxServer = false)
    (hbackup : slugifyServerId env (legacy.url.getD "") ≠ some "backup")
    (hfree : ∀ serverId, slugifyServerId env (legacy.url.getD "") = some serverId →
      s.store.get? (integrationKey ("proxmox_" ++ serverId)) = none) :
    Preserves s (restart env s) ∧ restart env (restart env s) = restart env s := by
  refine ⟨?_, restart_restart env s⟩
  cases hurl : slugifyServerId env (legacy.url.getD "") with
  | none =>
      rw [(Migrated.refused legacy hlegacy hservers hurl).restart_eq]
      exact .refl s
  | some serverId =>
      rw [(Migrated.moved legacy serverId hlegacy hservers hurl).restart_eq]
      have hnone := hfree serverId hurl
      have hid : serverId ≠ "backup" := fun h => hbackup (h ▸ hurl)
      refine ⟨?_, sameServer_singleton hlegacy hservers hnone, rfl, ?_, ?_⟩
      · refine List.forall₂_map_right_iff.mpr (List.forall₂_same.mpr fun host hhost => ?_)
        exact sameHost_stamp hlegacy hservers hnone (slugifyServerId_ne_empty hurl)
          (hunstamped host hhost)
      · intro name hname
        have hold : name ≠ "proxmox" := by
          rintro rfl
          revert hname
          decide
        rw [getIntegrationCredentials_of_ne hold, getIntegrationCredentials_of_ne hold, Dict.getD,
          Dict.getD, moved_other (fun h => hold (integrationKey_injective h))
            fun h => otherIntegrations_ne hname hid (integrationKey_injective h)]
      · intro name
        have hslug : ∀ key, slugify name ≠ integrationKey key := fun key h =>
          not_integrationKey_of_hostKey ⟨name, rfl⟩ ⟨key, h.symm⟩
        rw [Store.getCredentials, Store.getCredentials, Dict.getD, Dict.getD,
          moved_other (hslug _) (hslug _)]

theorem migration_preserves_pve :
    Preserves legacySettings (restart plainSurroundings legacySettings) ∧
      restart plainSurroundings (restart plainSurroundings legacySettings) =
        restart plainSurroundings legacySettings := by
  have hurl : slugifyServerId plainSurroundings "https://pve:8006" = some "pve" := by
    decide +kernel
  refine migration_preserves plainSurroundings legacySettings { url := some "https://pve:8006" }
    (by decide +kernel) rfl (by decide +kernel) ?_ ?_
  · exact fun h => absurd (hurl.symm.trans h) (by decide)
  · intro serverId h
    obtain rfl : "pve" = serverId := Option.some.inj (hurl.symm.trans h)
    decide +kernel

end Keepup.Proxmox
