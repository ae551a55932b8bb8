import Keepup.Config.File
import Keepup.Lib.Runs

/-!
Whether a factory reset leaves anything behind, in every state that the writing
operations of the configuration and of the credential store can lead to.
-/

namespace Keepup

open Lib Proxmox

/-- Every function that writes one of the keys of the file, or an entry of the
store. -/
inductive SaveOp where
  | addHost (entry : HostEntry)
  | updateHost (slug name host : String) (user : Option String) (port : Option Int)
  | deleteHost (slug : String)
  | setDockerMonitoring (slug mode : String) (containers : Option (List String))
  | saveWizardContainerSelection (selections : List String)
  | setHostAutoUpdate (slug : String) (osEnabled : Bool) (osSchedule : String) (autoReboot : Bool)
  | setStackAutoUpdate (updatePath stackName : String) (enabled : Bool) (schedule : String)
  | saveUpdateCheckIntervalHours (hours : Nat)
  | savePortainerConfig (url pinnedCertPem pinnedFingerprint : String)
  | savePbsConfig (url pinnedCertPem pinnedFingerprint : String) (verifySsl : Bool)
  | saveOpnsenseConfig (url pinnedCertPem pinnedFingerprint : String) (verifySsl : Bool)
  | savePfsenseConfig (url pinnedCertPem pinnedFingerprint : String) (verifySsl : Bool)
  | saveHomeassistantConfig (url : String) (verifySsl : Bool)
  | saveDockerhubConfig (username : String)
  | savePushoverConfig (enabled : Bool)
  | saveEmailConfig (block : EmailBlock)
  | saveProxmoxConfig (url pinnedCertPem pinnedFingerprint : String) (verifySsl : Bool)
  | addProxmoxServer (url : String) (verifySsl : Bool) (pinnedCertPem pinnedFingerprint : String)
  | updateProxmoxServer (serverId : String) (url : Option String) (verifySsl : Option Bool)
      (pinnedCertPem pinnedFingerprint : Option String)
  | deleteProxmoxServer (serverId : String)
  | migrateProxmoxServers
  | saveCredentials (slug : String) (sshPassword sshKey sudoPassword : Option String)
  | deleteCredentials (slug : String)
  | renameCredentials (oldSlug newSlug : String)
  | saveIntegrationCredentials (key : String) (fields : List (String × Option Scalar))
  | deleteIntegrationCredentials (key : String)
  | renameIntegrationCredentials (oldKey newKey : String)
  | factoryReset

namespace Installation

variable (env : Surroundings) (s : Installation)

/-- What an operation makes of the disk. One that raises writes nothing. -/
def save : SaveOp → Installation
  | .addHost entry => s.withConfig (s.config.addHost entry)
  | .updateHost slug name host user port =>
      s.withConfig (s.config.updateHost slug name host user port)
  | .deleteHost slug => s.withConfig (s.config.deleteHost slug)
  | .setDockerMonitoring slug mode containers =>
      s.withConfig (s.config.setDockerMonitoring slug mode containers)
  | .saveWizardContainerSelection selections =>
      s.withConfig (s.config.saveWizardContainerSelection selections)
  | .setHostAutoUpdate slug osEnabled osSchedule autoReboot =>
      s.withConfig (s.config.setHostAutoUpdate slug osEnabled osSchedule autoReboot)
  | .setStackAutoUpdate updatePath stackName enabled schedule =>
      { s with config := s.config.setStackAutoUpdate updatePath stackName enabled schedule }
  | .saveUpdateCheckIntervalHours hours =>
      { s with config := s.config.saveUpdateCheckIntervalHours hours }
  | .savePortainerConfig url pem fp => s.withConfig (s.config.savePortainerConfig url pem fp)
  | .savePbsConfig url pem fp verify => s.withConfig (s.config.savePbsConfig url pem fp verify)
  | .saveOpnsenseConfig url pem fp verify =>
      s.withConfig (s.config.saveOpnsenseConfig url pem fp verify)
  | .savePfsenseConfig url pem fp verify =>
      s.withConfig (s.config.savePfsenseConfig url pem fp verify)
  | .saveHomeassistantConfig url verify =>
      s.withConfig (s.config.saveHomeassistantConfig url verify)
  | .saveDockerhubConfig username => s.withConfig (s.config.saveDockerhubConfig username)
  | .savePushoverConfig enabled => s.withConfig (s.config.savePushoverConfig enabled)
  | .saveEmailConfig block => s.withConfig (s.config.saveEmailConfig block)
  | .saveProxmoxConfig url pem fp verify =>
      ((Proxmox.saveProxmoxConfig env s.settings url pem fp verify).map s.withSettings).getD s
  | .addProxmoxServer url verify pem fp =>
      ((Proxmox.addProxmoxServer env s.settings url verify pem fp).map
        fun added => s.withSettings added.1).getD s
  | .updateProxmoxServer serverId url verify pem fp =>
      s.withSettings (Proxmox.updateProxmoxServer s.settings serverId url verify pem fp)
  | .deleteProxmoxServer serverId =>
      s.withSettings (Proxmox.deleteProxmoxServer s.settings serverId)
  | .migrateProxmoxServers => s.withSettings (restart env s.settings)
  | .saveCredentials slug sshPassword sshKey sudoPassword =>
      { s with store := s.store.saveCredentials slug sshPassword sshKey sudoPassword }
  | .deleteCredentials slug => { s with store := s.store.deleteCredentials slug }
  | .renameCredentials oldSlug newSlug =>
      { s with store := (s.store.renameCredentials oldSlug newSlug).getD s.store }
  | .saveIntegrationCredentials key fields =>
      { s with store := s.store.saveIntegrationCredentials key fields }
  | .deleteIntegrationCredentials key =>
      { s with store := s.store.deleteIntegrationCredentials key }
  | .renameIntegrationCredentials oldKey newKey =>
      { s with store := (s.store.renameIntegrationCredentials oldKey newKey).getD s.store }
  | .factoryReset => s.factoryReset

/-- No host, no settings of an integration, no schedule and no credentials. -/
structure Erased : Prop where
  hosts : s.config.hosts = []
  portainer : s.config.portainer = none
  dockerhub : s.config.dockerhub = none
  proxmox : s.config.proxmox = none
  proxmoxServers : s.config.getProxmoxServers = []
  proxmoxBackup : s.config.proxmoxBackup = none
  opnsense : s.config.opnsense = none
  pfsense : s.config.pfsense = none
  homeassistant : s.config.homeassistant = none
  email : s.config.email = none
  pushover : s.config.pushover = none
  stackAutoUpdate : s.config.stackAutoUpdate = ∅
  store : s.store = ∅

/-- What the first start finds. -/
def fresh : Installation := {}

/-- Nothing is stored under the keys that a reset leaves alone. -/
def OnlyReset : Prop :=
  s.config.getProxmoxServers = [] ∧ s.config.email = none ∧ s.config.pushover = none

/-- The operation stores neither a Proxmox server nor email or Pushover settings. -/
def Avoids : SaveOp → Prop
  | .savePushoverConfig _ => False
  | .saveEmailConfig _ => False
  | .addProxmoxServer url _ _ _ => slugifyServerId env url = none
  | .saveProxmoxConfig url _ _ _ =>
      s.config.proxmoxServers.isSome → legacyBlock s.config.toConfig = none → url ≠ "" →
        slugifyServerId env url = none
  | .migrateProxmoxServers =>
      ∀ legacy, legacyBlock s.config.toConfig = some legacy →
        slugifyServerId env (legacy.url.getD "") = none
  | _ => True

section Complete

variable {env s}

theorem factoryReset_erased_iff : s.factoryReset.Erased ↔ s.OnlyReset := by
  constructor
  · intro herased
    exact ⟨herased.proxmoxServers, herased.email, herased.pushover⟩
  · rintro ⟨hservers, hemail, hpushover⟩
    exact {
      hosts := rfl
      portainer := rfl
      dockerhub := rfl
      proxmox := rfl
      proxmoxServers := hservers
      proxmoxBackup := rfl
      opnsense := rfl
      pfsense := rfl
      homeassistant := rfl
      email := hemail
      pushover := hpushover
      stackAutoUpdate := rfl
      store := rfl }

/-- Only the servers, the email block and the Pushover block count. -/
theorem onlyReset_congr {t : Installation} (hkept : s.OnlyReset)
    (hservers : t.config.getProxmoxServers = s.config.getProxmoxServers)
    (hemail : t.config.email = s.config.email) (hpushover : t.config.pushover = s.config.pushover) :
    t.OnlyReset :=
  ⟨hservers.trans hkept.1, hemail.trans hkept.2.1, hpushover.trans hkept.2.2⟩

theorem addProxmoxServer_onlyReset_iff {url pem fp : String} {verify : Bool} (hkept : s.OnlyReset) :
    (s.save env (.addProxmoxServer url verify pem fp)).OnlyReset ↔
      slugifyServerId env url = none := by
  cases hurl : slugifyServerId env url with
  | none => simpa [save, Proxmox.addProxmoxServer, settings, hurl] using hkept
  | some base =>
      simp only [save, Proxmox.addProxmoxServer, settings, hurl, Option.map_some, Option.getD_some]
      constructor
      · rintro ⟨hservers, _⟩
        simp [withSettings, Config.getProxmoxServers] at hservers
      · intro h
        cases h

theorem saveProxmoxConfig_onlyReset_iff {url pem fp : String} {verify : Bool}
    (hkept : s.OnlyReset) :
    (s.save env (.saveProxmoxConfig url pem fp verify)).OnlyReset ↔
      (s.config.proxmoxServers.isSome → legacyBlock s.config.toConfig = none → url ≠ "" →
        slugifyServerId env url = none) := by
  have hnone : s.settings.config.getProxmoxServers = [] := hkept.1
  rw [save]
  cases hsave : Proxmox.saveProxmoxConfig env s.settings url pem fp verify with
  | none =>
      refine iff_of_true hkept fun hsome hlegacy hurl => ?_
      have hshape : s.settings.config.proxmoxServers.isSome ∧
          legacyBlock s.settings.config = none :=
        ⟨hsome, hlegacy⟩
      simpa [Proxmox.saveProxmoxConfig, hshape.1, hshape.2, saveFirstServer, hnone, hurl,
        Proxmox.addProxmoxServer] using hsave
  | some t =>
      have hsingle : IsSingletonSave s.settings "" := ⟨by decide, .inl rfl⟩
      obtain ⟨id, hpersisted⟩ : ∃ id, Persisted env s.settings "" url t id :=
        ⟨"", saveProxmoxConfig_persisted hsingle hsave⟩
      cases hpersisted with
      | ignored hnew _ => exact absurd hnew (by decide)
      | added base entry hnew _ _ => exact absurd hnew (by decide)
      | updated change _ _ hid _ => exact absurd rfl hid
      | legacyWritten entry _ _ _ hshape =>
          refine iff_of_true (onlyReset_congr hkept rfl rfl rfl) fun hsome hlegacy _ => ?_
          exact (hshape.elim (fun h => Option.isSome_iff_ne_none.mp hsome h) fun h =>
            h hlegacy).elim
      | legacyRemoved _ hurl _ =>
          exact iff_of_true (onlyReset_congr hkept rfl rfl rfl) fun _ _ hne => absurd hurl hne
      | firstAdded base entry _ hurl hlegacy hservers hbase =>
          refine iff_of_false (fun h => ?_) fun h => ?_
          · cases h.1
          · have hsome : s.config.proxmoxServers.isSome := Option.isSome_of_eq_some hservers
            rw [h hsome hlegacy hurl] at hbase
            cases hbase
      | firstUpdated first rest change _ _ _ _ hservers =>
          rw [Config.getProxmoxServers, hservers] at hnone
          cases hnone
      | firstDeleted first rest _ _ _ hservers =>
          rw [Config.getProxmoxServers, hservers] at hnone
          cases hnone
      | emptyList _ hurl _ _ => exact iff_of_true hkept fun _ _ hne => absurd hurl hne

theorem migrateProxmoxServers_onlyReset_iff (hkept : s.OnlyReset) :
    (s.save env .migrateProxmoxServers).OnlyReset ↔
      ∀ legacy, legacyBlock s.config.toConfig = some legacy →
        slugifyServerId env (legacy.url.getD "") = none := by
  have hnone : s.settings.config.getProxmoxServers = [] := hkept.1
  rw [save]
  generalize hafter : restart env s.settings = t
  cases hafter ▸ restart_migrated env s.settings with
  | nothing hlegacy =>
      refine iff_of_true hkept fun legacy hsome => ?_
      rw [show legacyBlock s.config.toConfig = none from hlegacy] at hsome
      cases hsome
  | dropped legacy _ hservers => exact absurd hnone hservers
  | refused legacy hlegacy _ hurl =>
      refine iff_of_true hkept fun other hother => ?_
      cases Option.some.inj (hlegacy.symm.trans hother)
      exact hurl
  | moved legacy serverId hlegacy _ hurl =>
      refine iff_of_false (fun h => ?_) fun h => ?_
      · cases h.1
      · rw [h legacy hlegacy] at hurl
        cases hurl

theorem save_onlyReset_iff (hkept : s.OnlyReset) (o : SaveOp) :
    (s.save env o).OnlyReset ↔ s.Avoids env o := by
  have hnone : s.settings.config.getProxmoxServers = [] := hkept.1
  cases o with
  | savePushoverConfig enabled => exact iff_of_false (fun h => nomatch h.2.2) id
  | saveEmailConfig block => exact iff_of_false (fun h => nomatch h.2.1) id
  | addProxmoxServer url verify pem fp => exact addProxmoxServer_onlyReset_iff hkept
  | saveProxmoxConfig url pem fp verify => exact saveProxmoxConfig_onlyReset_iff hkept
  | migrateProxmoxServers => exact migrateProxmoxServers_onlyReset_iff hkept
  | updateProxmoxServer serverId url verify pem fp =>
      refine iff_of_true (onlyReset_congr hkept ?_ rfl rfl) trivial
      cases hlist : s.config.proxmoxServers with
      | none => simp [save, Proxmox.updateProxmoxServer, settings, withSettings,
          Config.getProxmoxServers, hlist]
      | some servers =>
          obtain rfl : servers = [] := by
            simpa [settings, Config.getProxmoxServers, hlist] using hnone
          simp [save, Proxmox.updateProxmoxServer, settings, withSettings,
            Config.getProxmoxServers, hlist, changeFirst]
  | deleteProxmoxServer serverId =>
      have hsame : Proxmox.deleteProxmoxServer s.settings serverId = s.settings := by
        simp [Proxmox.deleteProxmoxServer, hnone]
      rw [save, hsame]
      exact iff_of_true hkept trivial
  | _ => exact iff_of_true (onlyReset_congr hkept rfl rfl rfl) trivial

/-- A reset leaves nothing behind, in every state of a run, exactly if no
operation of the run stores a Proxmox server, email or Pushover settings. -/
theorem factoryReset_complete_iff (env : Surroundings) (ops : List SaveOp) :
    (∀ s ∈ reached (save env) fresh ops, s.factoryReset.Erased) ↔
      Meets (save env) (Avoids env) fresh ops := by
  have hstart : fresh.OnlyReset := ⟨rfl, rfl, rfl⟩
  rw [← reached_all_iff (P := OnlyReset) (fun s o hkept => save_onlyReset_iff hkept o) hstart]
  exact forall₂_congr fun s _ => factoryReset_erased_iff

def serverAdded : List SaveOp := [.addProxmoxServer "https://192.168.1.10:8006" true "" ""]

theorem factoryReset_keeps_server :
    ¬ ∀ s ∈ reached (save plainSurroundings) fresh serverAdded, s.factoryReset.Erased := by
  intro herased
  have hlast : fresh.save plainSurroundings
    (.addProxmoxServer "https://192.168.1.10:8006" true "" "") ∈
      reached (save plainSurroundings) fresh serverAdded := by simp [serverAdded, reached]
  have hservers := (herased _ hlast).proxmoxServers
  revert hservers
  decide +kernel

end Complete

end Installation

end Keepup
