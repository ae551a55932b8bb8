import Keepup.Config.TofuMigration
import Keepup.Auth.SetupRoutes
import Keepup.Proxmox.Deletion

/-!
The container backends of a process. They are made of the settings at the start and after the saves
that are about them; the scheduler and the page of the schedules hold lists of their own. In between
they stay as they were made, whatever is written.
-/

namespace Keepup.Backends

open Lib Proxmox Setup.FirstRun

section Source

/-- A client, with the connection that it was made with. -/
structure PortainerClient where
  url : String
  apiKey : Scalar
  pinnedCertPem : String
deriving DecidableEq

/-- The backend of the Docker hosts asks Portainer which stacks it has. -/
inductive ContainerBackend where
  | portainer (client : PortainerClient)
  | sshDocker (portainerClient : Option PortainerClient)
deriving DecidableEq

/-- The client for the connection in the settings, if there are a URL and a key. -/
def portainerClient (s : Installation) : Option PortainerClient :=
  let cfg := s.config.portainer.getD {}
  let creds := s.store.getIntegrationCredentials s.config.toConfig "portainer"
  let url := cfg.url.getD ""
  (creds.get? "api_key").bind fun key =>
    if url ≠ "" ∧ key.truthy then some ⟨url, key, cfg.pinnedCertPem.getD ""⟩ else none

def buildBackends (s : Installation) : List ContainerBackend :=
  let client := portainerClient s
  client.toList.map .portainer ++ [.sshDocker client]

/-- The files, and the lists of `backend_loader`, `auto_update_scheduler` and
`auto_updates_router`. -/
structure Process where
  disk : Installation
  tofuMigrated : Bool := false
  backends : List ContainerBackend := []
  scheduled : List ContainerBackend := []
  shown : List ContainerBackend := []

def reloadBackends (p : Process) : Process :=
  let backends := buildBackends p.disk
  { p with backends, scheduled := backends, shown := backends }

/-- The admin page removes the token when it is saved without a name. -/
def adminSaveDockerhub (s : Installation) (username token : String) : Installation :=
  let username := Text.strip username
  let token := Text.strip token
  let saved := s.withConfig (s.config.saveDockerhubConfig username)
  saveGiven saved (token != "" || username == "") "dockerhub" [("token", some (.str token))]

variable (env : Surroundings)

/-- A start of the program on the files of the last one. -/
def startup (fetch : String → Option Tofu.Certificate) (p : Process) : Process :=
  let migrated := p.disk.save env .migrateProxmoxServers
  let world := Tofu.migrateTofuCerts env fetch ⟨migrated.settings, p.tofuMigrated, []⟩
  reloadBackends { disk := migrated.withSettings world.settings,
                   tofuMigrated := world.tofuMigrated }

inductive Op where
  | start (fetch : String → Option Tofu.Certificate)
  /-- On either of the admin pages, or in the wizard, with the certificate of the session. -/
  | savePortainer (session : WizardSession) (form : IntegrationForm)
  | adminSaveDockerhub (username token : String)
  | setupSaveDockerhub (username token : String)
  | reloadConnections
  /-- Any other write, which reloads nothing. -/
  | write (op : SaveOp)

def step (p : Process) : Op → Process
  | .start fetch => startup env fetch p
  | .savePortainer session form =>
      reloadBackends { p with disk := (setupSavePortainer p.disk session form).1 }
  | .adminSaveDockerhub username token =>
      reloadBackends { p with disk := adminSaveDockerhub p.disk username token }
  | .setupSaveDockerhub username token =>
      reloadBackends { p with disk := setupSaveDockerhub p.disk username token }
  | .reloadConnections => reloadBackends p
  | .write op => { p with disk := p.disk.save env op }

end Source

section InForce

/-- All lists are what the settings give. -/
structure Process.InForce (p : Process) : Prop where
  backends : p.backends = buildBackends p.disk
  scheduled : p.scheduled = p.backends
  shown : p.shown = p.backends

variable (env : Surroundings)

/-- A write without a reload leaves the connection as it is. -/
def KeepsConnection (p : Process) : Op → Prop
  | .write op => portainerClient (p.disk.save env op) = portainerClient p.disk
  | _ => True

theorem reload_inForce (p : Process) : (reloadBackends p).InForce := ⟨rfl, rfl, rfl⟩

theorem buildBackends_inj {s t : Installation} :
    buildBackends s = buildBackends t ↔ portainerClient s = portainerClient t := by
  refine ⟨fun h => ?_, fun h => by rw [buildBackends, buildBackends, h]⟩
  have hlast := congrArg List.getLast? h
  simpa [buildBackends] using hlast

variable {env}

theorem step_inForce_iff (p : Process) (o : Op) (h : p.InForce) :
    (step env p o).InForce ↔ KeepsConnection env p o := by
  cases o with
  | write op =>
      rw [KeepsConnection, ← buildBackends_inj]
      exact ⟨fun hafter => hafter.backends.symm.trans h.backends,
        fun hsame => ⟨h.backends.trans hsame.symm, h.scheduled, h.shown⟩⟩
  | start fetch => exact iff_of_true (reload_inForce _) trivial
  | savePortainer session form => exact iff_of_true (reload_inForce _) trivial
  | adminSaveDockerhub username token => exact iff_of_true (reload_inForce _) trivial
  | setupSaveDockerhub username token => exact iff_of_true (reload_inForce _) trivial
  | reloadConnections => exact iff_of_true (reload_inForce _) trivial

theorem step_copies (p : Process) (o : Op) (h : p.scheduled = p.backends ∧ p.shown = p.backends) :
    (step env p o).scheduled = (step env p o).backends ∧
    (step env p o).shown = (step env p o).backends := by
  cases o with
  | write op => exact h
  | _ => exact ⟨rfl, rfl⟩

end InForce

section Writes

/-- The write is neither of Portainer's settings nor of the entry of its key, and no reset. -/
def leavesPortainer : SaveOp → Bool
  | .savePortainerConfig .. | .factoryReset => false
  | .saveIntegrationCredentials key _ => key != "portainer"
  | .deleteIntegrationCredentials key => key != "portainer"
  | .renameIntegrationCredentials oldKey newKey => oldKey != "portainer" && newKey != "portainer"
  | .saveCredentials slug _ _ _ => slug != integrationKey "portainer"
  | .deleteCredentials slug => slug != integrationKey "portainer"
  | .renameCredentials oldSlug newSlug =>
      oldSlug != integrationKey "portainer" && newSlug != integrationKey "portainer"
  | _ => true

variable {env : Surroundings} {s t : Installation}

theorem client_congr (hcfg : t.config.portainer = s.config.portainer)
    (hstore : t.store.get? (integrationKey "portainer") =
      s.store.get? (integrationKey "portainer")) :
    portainerClient t = portainerClient s := by
  have hcreds : t.store.getIntegrationCredentials t.config.toConfig "portainer" =
      s.store.getIntegrationCredentials s.config.toConfig "portainer" := by
    rw [Store.getIntegrationCredentials, Store.getIntegrationCredentials, hstore]
    rfl
  rw [portainerClient, portainerClient, hcfg, hcreds]

theorem renamed_other {store : Store} {key oldKey newKey : String} (hold : key ≠ oldKey)
    (hnew : key ≠ newKey) :
    ((store.renameUnder oldKey newKey).getD store).get? key = store.get? key := by
  cases hrename : store.renameUnder oldKey newKey with
  | none => rfl
  | some moved => exact Store.renameUnder_other hrename hold hnew

theorem portainer_ne (serverId : String) : "portainer" ≠ "proxmox_" ++ serverId := by
  by_cases hid : serverId = "backup"
  · subst hid
    decide
  · exact otherIntegrations_ne (by decide) hid

/-- The settings of Portainer are the same. -/
def Kept (s t : Settings) : Prop :=
  t.config.portainer = s.config.portainer ∧
    t.store.get? (integrationKey "portainer") = s.store.get? (integrationKey "portainer")

theorem client_kept {t : Settings} (h : Kept s.settings t) :
    portainerClient (s.withSettings t) = portainerClient s :=
  client_congr h.1 h.2

theorem addProxmoxServer_kept {s : Settings} {added : Settings × String} {url pem fp : String}
    {verify : Bool}
    (h : addProxmoxServer env s url verify pem fp = some added) : Kept s added.1 := by
  obtain ⟨base, _, rfl⟩ := Option.map_eq_some_iff.mp h
  exact ⟨rfl, rfl⟩

theorem deleteProxmoxServer_kept (s : Settings) (serverId : String) :
    Kept s (deleteProxmoxServer s serverId) := by
  by_cases hknown : serverId ∈ serverIds s.config
  · refine ⟨?_, deleteProxmoxServer_integration hknown (portainer_ne serverId)⟩
    rw [deleteProxmoxServer_eq hknown]
  · have hnone : s.config.getProxmoxServers.any (·.id == serverId) = false := by
      rw [List.any_eq_false]
      intro server hserver hid
      exact hknown (List.mem_map.mpr ⟨server, hserver, eq_of_beq hid⟩)
    rw [deleteProxmoxServer, hnone]
    exact ⟨rfl, rfl⟩

theorem saveProxmoxConfig_kept {s t : Settings} {url pem fp : String} {verify : Bool}
    (h : saveProxmoxConfig env s url pem fp verify = some t) : Kept s t := by
  rw [saveProxmoxConfig] at h
  split at h
  · rw [saveFirstServer] at h
    split at h
    · cases h
      exact ⟨rfl, rfl⟩
    · cases h
      exact deleteProxmoxServer_kept s _
    · obtain ⟨added, hadded, rfl⟩ := Option.map_eq_some_iff.mp h
      exact addProxmoxServer_kept hadded
    · cases h
      exact ⟨rfl, rfl⟩
  · split at h
    · cases h
      exact ⟨rfl, rfl⟩
    · cases h
      exact ⟨rfl, rfl⟩

theorem restart_kept (env : Surroundings) (s : Settings) : Kept s (restart env s) := by
  generalize hafter : restart env s = t
  cases hafter ▸ restart_migrated env s with
  | nothing _ => exact ⟨rfl, rfl⟩
  | dropped _ _ _ => exact ⟨rfl, rfl⟩
  | refused _ _ _ _ => exact ⟨rfl, rfl⟩
  | moved legacy serverId hlegacy hservers hurl =>
      have hsingle : integrationKey "portainer" ≠ integrationKey "proxmox" := fun heq =>
        absurd (integrationKey_injective heq) (by decide)
      exact ⟨rfl, moved_other hsingle fun heq =>
        portainer_ne serverId (integrationKey_injective heq)⟩

theorem leaves_keeps (p : Process) {op : SaveOp} (hleaves : leavesPortainer op = true) :
    KeepsConnection env p (.write op) := by
  have hne : ∀ {key : String}, (key != "portainer") = true →
      integrationKey "portainer" ≠ integrationKey key :=
    fun h heq => bne_iff_ne.mp h (integrationKey_injective heq).symm
  rw [KeepsConnection]
  cases op with
  | savePortainerConfig url pem fp => cases hleaves
  | factoryReset => cases hleaves
  | saveIntegrationCredentials key fields =>
      exact client_congr rfl (Store.saveUnder_other (hne hleaves))
  | deleteIntegrationCredentials key => exact client_congr rfl (Dict.get?_pop_ne _ (hne hleaves))
  | renameIntegrationCredentials oldKey newKey =>
      obtain ⟨hold, hnew⟩ := Bool.and_eq_true_iff.mp hleaves
      refine client_congr rfl ?_
      rw [Installation.save, Store.renameIntegrationCredentials]
      split
      · rfl
      · exact renamed_other (hne hold) (hne hnew)
  | saveCredentials slug sshPassword sshKey sudoPassword =>
      exact client_congr rfl (Store.saveUnder_other (bne_iff_ne.mp hleaves).symm)
  | deleteCredentials slug =>
      exact client_congr rfl (Dict.get?_pop_ne _ (bne_iff_ne.mp hleaves).symm)
  | renameCredentials oldSlug newSlug =>
      obtain ⟨hold, hnew⟩ := Bool.and_eq_true_iff.mp hleaves
      refine client_congr rfl ?_
      rw [Installation.save, Store.renameCredentials]
      split
      · rfl
      · exact renamed_other (bne_iff_ne.mp hold).symm (bne_iff_ne.mp hnew).symm
  | saveProxmoxConfig url pem fp verify =>
      rw [Installation.save]
      cases hsaved : saveProxmoxConfig env p.disk.settings url pem fp verify with
      | none => rfl
      | some t => exact client_kept (saveProxmoxConfig_kept hsaved)
  | addProxmoxServer url verify pem fp =>
      rw [Installation.save]
      cases hsaved : addProxmoxServer env p.disk.settings url verify pem fp with
      | none => rfl
      | some added => exact client_kept (addProxmoxServer_kept hsaved)
  | deleteProxmoxServer serverId =>
      exact client_kept (deleteProxmoxServer_kept p.disk.settings serverId)
  | migrateProxmoxServers => exact client_kept (restart_kept env p.disk.settings)
  | _ => exact client_congr rfl rfl

/-- After a reset there is no connection. -/
theorem factoryReset_keeps_iff (p : Process) :
    KeepsConnection env p (.write .factoryReset) ↔ portainerClient p.disk = none := by
  have hnone : portainerClient (p.disk.save env .factoryReset) = none := rfl
  rw [KeepsConnection, hnone, eq_comm]

end Writes

/-- From any start on, the scheduler and the pages have the same backends, and these are what the
settings give in every state exactly if each write without a reload leaves the connection to
Portainer as it is. All do that are not about it but a factory reset, which takes away the
connection and leaves the client of it in use. -/
theorem backends_follow (env : Surroundings) (p : Process)
    (fetch : String → Option Tofu.Certificate) (ops : List Op) :
    let first := step env p (.start fetch)
    (∀ t ∈ reached (step env) first ops, t.scheduled = t.backends ∧ t.shown = t.backends) ∧
    ((∀ t ∈ reached (step env) first ops, t.backends = buildBackends t.disk) ↔
      Meets (step env) (KeepsConnection env) first ops) ∧
    (∀ t op, leavesPortainer op = true → KeepsConnection env t (.write op)) ∧
    ∀ t, KeepsConnection env t (.write .factoryReset) ↔ portainerClient t.disk = none := by
  intro first
  have hstart : first.InForce := reload_inForce _
  have hcopies : ∀ t ∈ reached (step env) first ops, t.scheduled = t.backends ∧
      t.shown = t.backends :=
    reached_all (P := fun t => t.scheduled = t.backends ∧
      t.shown = t.backends) (Q := fun _ _ => True)
      (fun t o h _ => step_copies t o h) ⟨hstart.scheduled,
        hstart.shown⟩ (meets_of_forall fun _ _ _ => trivial)
  refine ⟨hcopies, ?_, leaves_keeps, factoryReset_keeps_iff⟩
  rw [← reached_all_iff step_inForce_iff hstart ops]
  exact ⟨fun h t ht => ⟨h t ht, (hcopies t ht).1, (hcopies t ht).2⟩,
    fun h t ht => (h t ht).backends⟩

end Keepup.Backends
