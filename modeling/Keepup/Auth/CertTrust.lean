import Keepup.Auth.SetupRoutes
import Keepup.Lib.Approval

/-!
Which certificates the settings come to pin. A connection test that meets a certificate it does not
trust shows it, the client accepts it and tests again, and the save after that pins it. What was
shown and what was accepted is kept in the cookie, so that any client may come back with any cookie
that it was given.
-/

namespace Keepup.CertTrust

open Lib Approval Proxmox Setup.FirstRun

section Source

/-- What the page says after a connection test. -/
inductive TestPage where
  | incomplete
  | connected
  | certificatePinned (pem : String)
  | sessionExpired
  /-- The certificate, which the client is asked to accept. -/
  | trustPrompt (pem : String)
  | noCertificate
  | failed

def testPage (session : WizardSession) (form : TestForm) (outcome : TestOutcome)
    (integration : String) (fields : List String) : TestPage :=
  let pem := session.pendingCert.getD integration ""
  if fields.contains "" then .incomplete
  else if form.skipSslVerify = "1" then
    match outcome with
    | .connected _ => .connected
    | _ => .failed
  else if form.trustAccepted = "1" ∧ pem = "" then .sessionExpired
  else
    match outcome with
    | .connected _ => if form.trustAccepted = "1" then .certificatePinned pem else .connected
    | .untrusted (some fetched) => .trustPrompt fetched
    | .untrusted none => .noCertificate
    | .failed => .failed

/-- What a client is asked, and what it has approved, in a test. -/
def testEvent (session : WizardSession) (form : TestForm) (outcome : TestOutcome)
    (integration : String) (fields : List String) : Option (Event String String) :=
  match testPage session form outcome integration fields with
  | .trustPrompt pem => some (.asked integration pem)
  | .certificatePinned pem => some (.approved integration pem)
  | _ => none

/-- A save takes the certificate that was accepted. -/
def saveEvent (session : WizardSession) (integration : String) : Option (Event String String) :=
  (stored (session.confirmed integration).pem).map (.used integration)

def certEvent (env : Surroundings) (s : Installation) (session : WizardSession) :
    SetupRequest → Option (Event String String)
  | .testProxmox form outcome => testEvent session form outcome "proxmox"
      [cleanUrl form.url, Text.strip form.key, Text.strip form.secret]
  | .testPbs form outcome => testEvent session form outcome "pbs"
      [cleanUrl form.url, Text.strip form.key, Text.strip form.secret]
  | .testOpnsense form outcome => testEvent session form outcome "opnsense"
      [cleanUrl form.url, Text.strip form.key, Text.strip form.secret]
  | .testPfsense form outcome =>
      testEvent session form outcome "pfsense" [cleanUrl form.url, Text.strip form.key]
  | .testPortainer form outcome =>
      testEvent session { form with skipSslVerify := "" } outcome "portainer"
      [cleanUrl form.url, Text.strip form.key]
  | .saveProxmox form nodes =>
      let cert := session.confirmed "proxmox"
      (Proxmox.setupSaveProxmox env s.settings form cert.pem cert.fingerprint nodes).bind
        fun _ => saveEvent session "proxmox"
  | .savePbs _ => saveEvent session "pbs"
  | .saveOpnsense _ => saveEvent session "opnsense"
  | .savePfsense _ => saveEvent session "pfsense"
  | .savePortainer _ => saveEvent session "portainer"
  | _ => none

/-- The certificate that a write to the settings carries. -/
def certificate : SaveOp → Option String
  | .savePortainerConfig _ pem _ => stored pem
  | .savePbsConfig _ pem _ _ => stored pem
  | .saveOpnsenseConfig _ pem _ _ => stored pem
  | .savePfsenseConfig _ pem _ _ => stored pem
  | .saveProxmoxConfig _ pem _ _ => stored pem
  | .addProxmoxServer _ _ pem _ => stored pem
  | .updateProxmoxServer _ _ _ pem _ => pem
  | _ => none

end Source

section Pins

/-- The settings pin a certificate, under the name that the session has for its integration. -/
inductive Pinned (config : Config) : String → String → Prop where
  | proxmox {pem : String} (h : config.proxmox.bind Block.pinnedCertPem = some pem) :
    Pinned config "proxmox" pem
  | server {pem : String} (server : ProxmoxServer) (hserver : server ∈ config.getProxmoxServers)
      (h : server.pinnedCertPem = some pem) : Pinned config "proxmox" pem
  | proxmoxBackup {pem : String} (h : config.proxmoxBackup.bind Block.pinnedCertPem = some pem) :
      Pinned config "pbs" pem
  | opnsense {pem : String} (h : config.opnsense.bind Block.pinnedCertPem = some pem) :
    Pinned config "opnsense" pem
  | pfsense {pem : String} (h : config.pfsense.bind Block.pinnedCertPem = some pem) :
    Pinned config "pfsense" pem
  | portainer {pem : String} (h : config.portainer.bind Block.pinnedCertPem = some pem) :
      Pinned config "portainer" pem

/-- The integrations are the same. -/
structure SameBlocks (config config' : Config) : Prop where
  proxmox : config'.proxmox = config.proxmox
  servers : config'.proxmoxServers = config.proxmoxServers
  proxmoxBackup : config'.proxmoxBackup = config.proxmoxBackup
  opnsense : config'.opnsense = config.opnsense
  pfsense : config'.pfsense = config.pfsense
  portainer : config'.portainer = config.portainer

/-- What is pinned now was pinned before, or is the given certificate. -/
def PinsOnly (config config' : Config) (integration : String) (cert : Option String) : Prop :=
  ∀ name pem, Pinned config' name pem → Pinned config name pem ∨
    name = integration ∧ cert = some pem

variable {config config' config'' : Config} {integration : String} {cert : Option String}

theorem SameBlocks.refl (config : Config) :
    SameBlocks config config := ⟨rfl, rfl, rfl, rfl, rfl, rfl⟩

theorem SameBlocks.trans (h : SameBlocks config config') (h' : SameBlocks config' config'') :
    SameBlocks config config'' where
  proxmox := h'.proxmox.trans h.proxmox
  servers := h'.servers.trans h.servers
  proxmoxBackup := h'.proxmoxBackup.trans h.proxmoxBackup
  opnsense := h'.opnsense.trans h.opnsense
  pfsense := h'.pfsense.trans h.pfsense
  portainer := h'.portainer.trans h.portainer

theorem SameBlocks.pinned (h : SameBlocks config config') {name pem : String}
    (hpinned : Pinned config' name pem) :
    Pinned config name pem := by
  cases hpinned with
  | proxmox hpem => exact .proxmox (h.proxmox ▸ hpem)
  | server server hserver hpem =>
      rw [Config.getProxmoxServers, h.servers] at hserver
      exact .server server hserver hpem
  | proxmoxBackup hpem => exact .proxmoxBackup (h.proxmoxBackup ▸ hpem)
  | opnsense hpem => exact .opnsense (h.opnsense ▸ hpem)
  | pfsense hpem => exact .pfsense (h.pfsense ▸ hpem)
  | portainer hpem => exact .portainer (h.portainer ▸ hpem)

theorem SameBlocks.pinsOnly (h : SameBlocks config config') :
    PinsOnly config config' integration cert :=
  fun _ _ hpinned => .inl (h.pinned hpinned)

theorem PinsOnly.trans_same (h : PinsOnly config config' integration cert)
    (h' : SameBlocks config' config'') :
    PinsOnly config config'' integration cert :=
      fun name pem hpinned => h name pem (h'.pinned hpinned)

theorem stored_eq_some {pem x : String} : stored pem = some x ↔ pem ≠ "" ∧ pem = x := by
  rw [stored]
  split
  · simp [*]
  · simp [*]

/-- A block after a save has the certificate of the save, or the one it had. -/
theorem savedBlock_pinned {existing : Option Block} {url pem fp x : String} {verify : Option Bool}
    (h : (Config.savedBlock existing url pem fp verify).bind Block.pinnedCertPem = some x) :
    existing.bind Block.pinnedCertPem = some x ∨ stored pem = some x := by
  rw [Config.savedBlock] at h
  split at h
  · cases h
  · by_cases hpem : pem = ""
    · left
      cases existing with
      | none => simp [hpem] at h
      | some block =>
          cases hold : block.pinnedCertPem with
          | none => simp [hpem, hold] at h
          | some old =>
              simp only [hpem, hold, Option.bind_some, Option.getD_some,
                ne_eq, not_true_eq_false, if_false] at h ⊢
              split at h
              · exact h
              · cases h
    · right
      simpa [stored, hpem] using h

section Saves

variable (config) (url pem fp : String) (verify : Bool)

theorem savePbsConfig_pins :
    PinsOnly config (config.savePbsConfig url pem fp verify) "pbs" (stored pem) := by
  intro name x hpinned
  cases hpinned with
  | proxmoxBackup h => exact (savedBlock_pinned h).imp .proxmoxBackup fun hnew => ⟨rfl, hnew⟩
  | proxmox h => exact .inl (.proxmox h)
  | server server hserver h => exact .inl (.server server hserver h)
  | opnsense h => exact .inl (.opnsense h)
  | pfsense h => exact .inl (.pfsense h)
  | portainer h => exact .inl (.portainer h)

theorem saveOpnsenseConfig_pins :
    PinsOnly config (config.saveOpnsenseConfig url pem fp verify) "opnsense" (stored pem) := by
  intro name x hpinned
  cases hpinned with
  | opnsense h => exact (savedBlock_pinned h).imp .opnsense fun hnew => ⟨rfl, hnew⟩
  | proxmox h => exact .inl (.proxmox h)
  | server server hserver h => exact .inl (.server server hserver h)
  | proxmoxBackup h => exact .inl (.proxmoxBackup h)
  | pfsense h => exact .inl (.pfsense h)
  | portainer h => exact .inl (.portainer h)

theorem savePfsenseConfig_pins :
    PinsOnly config (config.savePfsenseConfig url pem fp verify) "pfsense" (stored pem) := by
  intro name x hpinned
  cases hpinned with
  | pfsense h => exact (savedBlock_pinned h).imp .pfsense fun hnew => ⟨rfl, hnew⟩
  | proxmox h => exact .inl (.proxmox h)
  | server server hserver h => exact .inl (.server server hserver h)
  | proxmoxBackup h => exact .inl (.proxmoxBackup h)
  | opnsense h => exact .inl (.opnsense h)
  | portainer h => exact .inl (.portainer h)

theorem savePortainerConfig_pins :
    PinsOnly config (config.savePortainerConfig url pem fp) "portainer" (stored pem) := by
  intro name x hpinned
  cases hpinned with
  | portainer h => exact (savedBlock_pinned h).imp .portainer fun hnew => ⟨rfl, hnew⟩
  | proxmox h => exact .inl (.proxmox h)
  | server server hserver h => exact .inl (.server server hserver h)
  | proxmoxBackup h => exact .inl (.proxmoxBackup h)
  | opnsense h => exact .inl (.opnsense h)
  | pfsense h => exact .inl (.pfsense h)

end Saves

section Proxmox

variable {env : Surroundings} {s saved t : Settings} {url pem fp id : String} {verify : Bool}

/-- A change of the list alone: what its servers pin was pinned before, or is the
given certificate. -/
theorem pinsOnly_servers {servers : Option (List ProxmoxServer)}
    (h : ∀ server ∈ servers.getD [], ∀ x, server.pinnedCertPem = some x →
      (∃ old ∈ config.getProxmoxServers, old.pinnedCertPem = some x) ∨ cert = some x) :
    PinsOnly config { config with proxmoxServers := servers } "proxmox" cert := by
  intro name x hpinned
  cases hpinned with
  | server server hserver hx =>
      rcases h server hserver x hx with ⟨old, hold, hx⟩ | hnew
      · exact .inl (.server old hold hx)
      · exact .inr ⟨rfl, hnew⟩
  | proxmox hx => exact .inl (.proxmox hx)
  | proxmoxBackup hx => exact .inl (.proxmoxBackup hx)
  | opnsense hx => exact .inl (.opnsense hx)
  | pfsense hx => exact .inl (.pfsense hx)
  | portainer hx => exact .inl (.portainer hx)

theorem addProxmoxServer_pins (h : addProxmoxServer env s url verify pem fp = some (saved, id)) :
    PinsOnly s.config saved.config "proxmox" (stored pem) := by
  obtain ⟨base, _, hsaved⟩ := Option.map_eq_some_iff.mp h
  obtain ⟨rfl, _⟩ := Prod.mk.inj hsaved
  refine pinsOnly_servers fun server hserver x hx => ?_
  rcases List.mem_append.mp hserver with hold | hnew
  · exact .inl ⟨server, hold, hx⟩
  · rw [List.mem_singleton.mp hnew] at hx
    right
    simpa [stored] using hx

theorem mem_changeFirst {serverId : String} {change : ProxmoxServer → ProxmoxServer}
    {servers : List ProxmoxServer} {server : ProxmoxServer}
    (h : server ∈ changeFirst serverId change servers) :
    server ∈ servers ∨ ∃ old ∈ servers, change old = server := by
  induction servers with
  | nil => cases h
  | cons first rest ih =>
      rw [changeFirst] at h
      split at h
      · rcases List.mem_cons.mp h with rfl | hrest
        · exact .inr ⟨first, List.mem_cons_self, rfl⟩
        · exact .inl (List.mem_cons_of_mem _ hrest)
      · rcases List.mem_cons.mp h with rfl | hrest
        · exact .inl List.mem_cons_self
        · rcases ih hrest with hold | ⟨old, hold, hchange⟩
          · exact .inl (List.mem_cons_of_mem _ hold)
          · exact .inr ⟨old, List.mem_cons_of_mem _ hold, hchange⟩

theorem updateProxmoxServer_pins (s : Settings) (serverId : String) (url : Option String)
    (verify : Option Bool) (pem fp : Option String) :
    PinsOnly s.config (updateProxmoxServer s serverId url verify pem fp).config "proxmox" pem := by
  refine pinsOnly_servers fun server hserver x hx => ?_
  cases hservers : s.config.proxmoxServers with
  | none =>
      rw [hservers] at hserver
      cases hserver
  | some servers =>
      have hlist : s.config.getProxmoxServers = servers := by
        rw [Config.getProxmoxServers, hservers, Option.getD_some]
      rw [hservers, Option.map_some, Option.getD_some] at hserver
      rw [hlist]
      rcases mem_changeFirst hserver with hold | ⟨old, hold, rfl⟩
      · exact .inl ⟨server, hold, hx⟩
      · cases pem with
        | none => exact .inl ⟨old, hold, hx⟩
        | some new => exact .inr hx

theorem deleteProxmoxServer_pins (s : Settings) (serverId : String) :
    PinsOnly s.config (deleteProxmoxServer s serverId).config integration cert := by
  rw [deleteProxmoxServer]
  dsimp only
  split
  · intro name x hpinned
    cases hpinned with
    | server server hserver hx => exact .inl (.server server (List.mem_of_mem_filter hserver) hx)
    | proxmox hx => exact .inl (.proxmox hx)
    | proxmoxBackup hx => exact .inl (.proxmoxBackup hx)
    | opnsense hx => exact .inl (.opnsense hx)
    | pfsense hx => exact .inl (.pfsense hx)
    | portainer hx => exact .inl (.portainer hx)
  · exact (SameBlocks.refl _).pinsOnly

theorem filter_stored (pem : String) : (some pem).filter (· != "") = stored pem := by
  rw [stored]
  split
  · rename_i hpem
    rw [hpem]
    rfl
  · rename_i hpem
    exact Option.filter_eq_some_iff.mpr ⟨rfl, bne_iff_ne.mpr hpem⟩

/-- The old block is saved as the blocks of the other integrations are. -/
theorem saveProxmoxConfig_pins (h : saveProxmoxConfig env s url pem fp verify = some t) :
    PinsOnly s.config t.config "proxmox" (stored pem) := by
  rw [saveProxmoxConfig] at h
  split at h
  · rw [saveFirstServer] at h
    split at h
    · cases h
      exact (SameBlocks.refl _).pinsOnly
    · cases h
      exact deleteProxmoxServer_pins s _
    · obtain ⟨added, hadded, rfl⟩ := Option.map_eq_some_iff.mp h
      exact addProxmoxServer_pins hadded
    · cases h
      rw [filter_stored pem]
      exact updateProxmoxServer_pins s _ _ _ _ _
  · have hblock : t = { s with config := { s.config with
        proxmox := Config.savedBlock s.config.proxmox url pem fp (some verify) } } := by
      rw [Config.savedBlock]
      split at h
      · rename_i hurl
        rw [if_neg hurl]
        exact (Option.some_inj.mp h).symm
      · rename_i hurl
        rw [if_pos (not_not.mp hurl)]
        exact (Option.some_inj.mp h).symm
    rw [hblock]
    intro name x hpinned
    cases hpinned with
    | proxmox hx => exact (savedBlock_pinned hx).imp .proxmox fun hnew => ⟨rfl, hnew⟩
    | server server hserver hx => exact .inl (.server server hserver hx)
    | proxmoxBackup hx => exact .inl (.proxmoxBackup hx)
    | opnsense hx => exact .inl (.opnsense hx)
    | pfsense hx => exact .inl (.pfsense hx)
    | portainer hx => exact .inl (.portainer hx)

theorem persistProxmoxServer_pins {serverId : String}
    (h : persistProxmoxServer env s serverId url pem fp verify = some (saved, id)) :
    PinsOnly s.config saved.config "proxmox" (stored pem) := by
  rw [persistProxmoxServer] at h
  split at h
  · split at h
    · cases h
      exact (SameBlocks.refl _).pinsOnly
    · exact addProxmoxServer_pins h
  · split at h
    · cases h
      rw [filter_stored pem]
      exact updateProxmoxServer_pins s _ _ _ _ _
    · obtain ⟨t, ht, hpair⟩ := Option.map_eq_some_iff.mp h
      obtain ⟨rfl, _⟩ := Prod.mk.inj hpair
      exact saveProxmoxConfig_pins ht

theorem addNodes_same (env : Surroundings) (s : Settings) (wizard : Bool) (url server : String)
    (nodes : Option (List String)) :
    SameBlocks s.config (addNodes env s wizard url server nodes).config := by
  unfold addNodes
  split
  · dsimp only
    split <;> exact ⟨rfl, rfl, rfl, rfl, rfl, rfl⟩
  · exact .refl _

theorem saveCredentials_same (s : Settings) (serverId : String) (fields : CredFields) :
    SameBlocks s.config (saveCredentials s serverId fields).config := by
  rw [saveCredentials]
  split <;> exact .refl _

theorem setupSaveProxmox_pins {form : SaveForm} {nodes : Option (List String)}
    (h : Proxmox.setupSaveProxmox env s form pem fp nodes = some (t, id)) :
    PinsOnly s.config t.config "proxmox" (stored pem) := by
  obtain ⟨⟨saved, serverId⟩, hpersist, hpair⟩ := Option.map_eq_some_iff.mp h
  obtain ⟨rfl, rfl⟩ := Prod.mk.inj hpair
  refine (persistProxmoxServer_pins hpersist).trans_same ?_
  have hcreds := saveCredentials_same saved serverId form.credKwargs
  split
  · exact hcreds.trans (addNodes_same env _ _ _ _ _)
  · exact hcreds

/-- The server that the old block becomes pins what the block did. -/
theorem restart_pins (env : Surroundings) (s : Settings) :
    PinsOnly s.config (restart env s).config integration cert := by
  generalize hafter : restart env s = t
  cases hafter ▸ restart_migrated env s with
  | nothing _ => exact (SameBlocks.refl _).pinsOnly
  | refused _ _ _ _ => exact (SameBlocks.refl _).pinsOnly
  | dropped legacy hlegacy hservers =>
      intro name x hpinned
      cases hpinned with
      | proxmox hx => cases hx
      | server server hserver hx => exact .inl (.server server hserver hx)
      | proxmoxBackup hx => exact .inl (.proxmoxBackup hx)
      | opnsense hx => exact .inl (.opnsense hx)
      | pfsense hx => exact .inl (.pfsense hx)
      | portainer hx => exact .inl (.portainer hx)
  | moved legacy serverId hlegacy hservers hurl =>
      have hblock : s.config.proxmox = some legacy := (Option.filter_eq_some_iff.mp hlegacy).1
      intro name x hpinned
      cases hpinned with
      | proxmox hx => cases hx
      | server server hserver hx =>
          rw [List.mem_singleton.mp hserver, serverOfBlock] at hx
          dsimp only at hx
          split at hx
          · exact .inl (.proxmox (by rw [hblock]; exact hx))
          · cases hx
      | proxmoxBackup hx => exact .inl (.proxmoxBackup hx)
      | opnsense hx => exact .inl (.opnsense hx)
      | pfsense hx => exact .inl (.pfsense hx)
      | portainer hx => exact .inl (.portainer hx)

end Proxmox

/-- A write that carries no certificate pins none. -/
theorem save_pins (env : Surroundings) (s : Installation) {op : SaveOp}
    (hplain : certificate op = none) :
    PinsOnly s.config.toConfig (s.save env op).config.toConfig integration none := by
  have hnone : ∀ {config config' : Config} {name : String} {cert : Option String}, cert = none →
      PinsOnly config config' name cert → PinsOnly config config' integration none := by
    rintro config config' name _ rfl hpins other x hpinned
    exact (hpins other x hpinned).imp id fun hnew => by cases hnew.2
  cases op with
  | savePortainerConfig url pem fp => exact hnone hplain (savePortainerConfig_pins _ url pem fp)
  | savePbsConfig url pem fp verify => exact hnone hplain (savePbsConfig_pins _ url pem fp verify)
  | saveOpnsenseConfig url pem fp verify =>
      exact hnone hplain (saveOpnsenseConfig_pins _ url pem fp verify)
  | savePfsenseConfig url pem fp verify =>
      exact hnone hplain (savePfsenseConfig_pins _ url pem fp verify)
  | saveProxmoxConfig url pem fp verify =>
      rw [Installation.save]
      cases hsaved : saveProxmoxConfig env s.settings url pem fp verify with
      | none => exact (SameBlocks.refl _).pinsOnly
      | some t => exact hnone hplain (saveProxmoxConfig_pins hsaved)
  | addProxmoxServer url verify pem fp =>
      rw [Installation.save]
      cases hsaved : addProxmoxServer env s.settings url verify pem fp with
      | none => exact (SameBlocks.refl _).pinsOnly
      | some added => exact hnone hplain (addProxmoxServer_pins hsaved)
  | updateProxmoxServer serverId url verify pem fp =>
      exact hnone hplain (updateProxmoxServer_pins s.settings serverId url verify pem fp)
  | deleteProxmoxServer serverId => exact deleteProxmoxServer_pins s.settings serverId
  | migrateProxmoxServers => exact restart_pins env s.settings
  | factoryReset =>
      intro name x hpinned
      cases hpinned with
      | server server hserver hx => exact .inl (.server server hserver hx)
      | proxmox hx | proxmoxBackup hx | opnsense hx | pfsense hx | portainer hx => cases hx
  | _ => exact SameBlocks.pinsOnly ⟨rfl, rfl, rfl, rfl, rfl, rfl⟩

end Pins

section Tickets

variable (env : Surroundings) (p : Primitives) (s : Installation) (session : WizardSession)

/-- What the cookie keeps of the certificates. -/
def ticket : Ticket String String where
  asked := session.pendingCert.get?
  approved integration := (session.confirmedCert.get? integration).map Confirmed.pem

variable {session} in
theorem confirmed_pem {integration pem : String}
    (h : stored (session.confirmed integration).pem = some pem) :
    (ticket session).approved integration = some pem := by
  obtain ⟨hne, rfl⟩ := stored_eq_some.mp h
  rw [ticket]
  dsimp only
  rw [WizardSession.confirmed] at hne ⊢
  cases hget : session.confirmedCert.get? integration with
  | none =>
      rw [hget] at hne
      exact absurd rfl hne
  | some found => rfl

variable {session} in
theorem earned_same {after : WizardSession} (hpending : after.pendingCert = session.pendingCert)
    (hconfirmed : after.confirmedCert = session.confirmedCert) :
    Earned (ticket session) none (ticket after) := by
  rw [ticket, ticket, hpending, hconfirmed]
  exact .refl _

theorem saveEvent_earned (integration : String) :
    Earned (ticket session) (saveEvent session integration)
    (ticket (session.dropConfirmed integration)) where
  asked _ _ h := .inl h
  approved name pem h := by
    left
    rw [ticket, WizardSession.dropConfirmed] at h
    dsimp only at h
    rw [Dict.get?_pop] at h
    split at h
    · cases h
    · exact h
  approves name pem h := by
    obtain ⟨_, _, hevent⟩ := Option.map_eq_some_iff.mp h
    cases hevent
  uses name pem h := by
    obtain ⟨_, hstored, hevent⟩ := Option.map_eq_some_iff.mp h
    cases hevent
    exact confirmed_pem hstored

/-- The certificate that was shown is the one that waits. -/
theorem asked_earned (integration fetched : String) :
    Earned (ticket session) (some (.asked integration fetched))
      (ticket { session with pendingCert := session.pendingCert.set integration fetched }) where
  asked name pem h := by
    have hset : (session.pendingCert.set integration fetched).get? name = some pem := h
    rw [Dict.get?_set] at hset
    split at hset
    · rename_i hname
      cases hset
      exact .inr (by rw [hname])
    · exact .inl hset
  approved _ _ h := .inl h
  approves _ _ h := by cases h
  uses _ _ h := by cases h

/-- The one that is approved has waited. -/
theorem approved_earned (integration fingerprint : String)
    (hwaits : session.pendingCert.getD integration "" ≠ "") :
    let pem := session.pendingCert.getD integration ""
    Earned (ticket session) (some (.approved integration pem)) (ticket { session with
      confirmedCert := session.confirmedCert.set integration ⟨pem, fingerprint⟩
      pendingCert := session.pendingCert.pop integration }) := by
  intro pem
  refine ⟨fun name x h => .inl ?_, fun name x h => ?_, fun name x h => ?_, fun _ _ h => by cases h⟩
  · have hpop : (session.pendingCert.pop integration).get? name = some x := h
    rw [Dict.get?_pop] at hpop
    split at hpop
    · cases hpop
    · exact hpop
  · have hset : ((session.confirmedCert.set integration ⟨pem, fingerprint⟩).get? name).map
      Confirmed.pem = some x := h
    rw [Dict.get?_set] at hset
    split at hset
    · rename_i hname
      cases hset
      exact .inr (by rw [hname])
    · exact .inl hset
  · cases h
    have hget : pem = (session.pendingCert.get? integration).getD "" := rfl
    cases hwaiting : session.pendingCert.get? integration with
    | none =>
        rw [hwaiting] at hget
        exact absurd hget hwaits
    | some waiting =>
        rw [hwaiting, Option.getD_some] at hget
        exact hwaiting.trans (congrArg some hget.symm)

theorem testEvent_earned (form : TestForm) (outcome : TestOutcome) (integration : String)
    (fields : List String) :
    Earned (ticket session) (testEvent session form outcome integration fields)
      (ticket (testConnection session form outcome integration fields)) := by
  unfold testEvent testPage testConnection
  dsimp only
  split_ifs with hblank hskip hexpired htrust
  · exact .refl _
  · cases outcome <;> exact .refl _
  · exact .refl _
  · rcases outcome with fingerprint | (_ | fetched) | _
    · exact approved_earned session integration fingerprint fun hempty => hexpired ⟨htrust, hempty⟩
    · exact .refl _
    · exact asked_earned session integration fetched
    · exact .refl _
  · rcases outcome with fingerprint | (_ | fetched) | _
    · exact .refl _
    · exact .refl _
    · exact asked_earned session integration fetched
    · exact .refl _

/-- What a request leaves in the cookie it has earned. -/
theorem handle_earned (request : SetupRequest) :
    Earned (ticket session) (certEvent env s session request)
    (ticket (handle env p s session request).2) := by
  cases request with
  | testProxmox form outcome =>
      rw [certEvent, handle, setupTestProxmox]
      dsimp only
      exact testEvent_earned session form outcome "proxmox"
        [cleanUrl form.url, Text.strip form.key, Text.strip form.secret]
  | testPbs form outcome =>
      rw [certEvent, handle, setupTestPbs]
      dsimp only
      exact testEvent_earned session form outcome "pbs"
        [cleanUrl form.url, Text.strip form.key, Text.strip form.secret]
  | testOpnsense form outcome =>
      rw [certEvent, handle, setupTestOpnsense]
      dsimp only
      exact testEvent_earned session form outcome "opnsense"
        [cleanUrl form.url, Text.strip form.key, Text.strip form.secret]
  | testPfsense form outcome =>
      rw [certEvent, handle, setupTestPfsense]
      dsimp only
      exact testEvent_earned session form outcome "pfsense" [cleanUrl form.url, Text.strip form.key]
  | testPortainer form outcome =>
      rw [certEvent, handle, setupTestPortainer]
      dsimp only
      exact testEvent_earned session { form with skipSslVerify := "" } outcome "portainer"
        [cleanUrl form.url, Text.strip form.key]
  | saveProxmox form nodes =>
      rw [handle, certEvent, Setup.FirstRun.setupSaveProxmox]
      cases Proxmox.setupSaveProxmox env s.settings form (session.confirmed "proxmox").pem
        (session.confirmed "proxmox").fingerprint nodes with
      | none => exact earned_same rfl rfl
      | some saved => exact saveEvent_earned session "proxmox"
  | savePbs form => exact saveEvent_earned session "pbs"
  | saveOpnsense form => exact saveEvent_earned session "opnsense"
  | savePfsense form => exact saveEvent_earned session "pfsense"
  | savePortainer form => exact saveEvent_earned session "portainer"
  | saveLxcs form =>
      rw [handle, Setup.FirstRun.setupProxmoxSaveLxcs]
      dsimp only
      split <;> exact earned_same rfl rfl
  | addHost form connected containers =>
      rw [handle]
      rcases Setup.setupAddHost s form connected containers with ⟨added, pending⟩
      exact earned_same rfl rfl
  | _ => exact earned_same rfl rfl

end Tickets

section Settings

variable (env : Surroundings) (p : Primitives) (s : Installation) (session : WizardSession)

theorem saveGiven_config (given : Bool) (key : String) (fields : List (String × Option Scalar)) :
    (saveGiven s given key fields).config = s.config := by
  rw [saveGiven]
  split <;> rfl

theorem recordHost_same (pending : Setup.PendingHost) (dockerMode : Option String) :
    SameBlocks s.config.toConfig (Setup.recordHost s pending dockerMode).config.toConfig := by
  rw [Setup.recordHost_config]
  split <;> exact ⟨rfl, rfl, rfl, rfl, rfl, rfl⟩

theorem saveDocker_same (checked : List String) :
    SameBlocks s.config.toConfig (setupProxmoxSaveDocker s session checked).config.toConfig := by
  rw [setupProxmoxSaveDocker]
  induction session.dockerLxcs generalizing s with
  | nil => exact .refl _
  | cons slug slugs ih =>
      rw [List.foldl_cons]
      refine SameBlocks.trans ?_ (ih _)
      split <;> exact ⟨rfl, rfl, rfl, rfl, rfl, rfl⟩

theorem same_of_config {s t : Installation} (h : t.config = s.config) :
    SameBlocks s.config.toConfig t.config.toConfig := by
  rw [h]
  exact .refl _

theorem accountSubmit_config (session : Login.Session)
    (salt key username password confirm : String) :
    (Routes.setupAccountSubmit p s session salt key username password confirm).installation.config =
      s.config := by
  rw [Routes.setupAccountSubmit]
  split
  · rfl
  · dsimp only
    split
    · rfl
    · rw [Installation.createAdmin]
      cases p.hashPassword salt password <;> rfl

theorem securitySubmit_config (session : Login.Session) (now : ℚ)
    (newSecret enableMfa code : String) :
    (Routes.setupSecuritySubmit p s session now newSecret enableMfa code).installation.config =
      s.config := by
  unfold Routes.setupSecuritySubmit
  dsimp only
  split_ifs <;> rfl

theorem security_config (session : Login.Session) (secret : String) :
    (Routes.setupSecurity s session secret).installation.config = s.config := by
  unfold Routes.setupSecurity
  split_ifs <;> rfl

theorem saveEmail_same (form : EmailForm) :
    SameBlocks s.config.toConfig (setupSaveEmail s form).config.toConfig := by
  rw [setupSaveEmail]
  split
  · exact .refl _
  · split
    · exact .refl _
    · dsimp only
      rw [saveGiven_config]
      exact ⟨rfl, rfl, rfl, rfl, rfl, rfl⟩

theorem saveHomeassistantConfig_same (config : Config) (url : String) (verify : Bool) :
    SameBlocks config (config.saveHomeassistantConfig url verify) := ⟨rfl, rfl, rfl, rfl, rfl, rfl⟩

theorem saveDockerhubConfig_same (config : Config) (username : String) :
    SameBlocks config (config.saveDockerhubConfig username) := ⟨rfl, rfl, rfl, rfl, rfl, rfl⟩

theorem saveHomeassistant_same (form : IntegrationForm) :
    SameBlocks s.config.toConfig (setupSaveHomeassistant s form).config.toConfig := by
  rw [setupSaveHomeassistant, saveGiven_config]
  exact saveHomeassistantConfig_same _ _ _

theorem saveDockerhub_same (username token : String) :
    SameBlocks s.config.toConfig (setupSaveDockerhub s username token).config.toConfig := by
  rw [setupSaveDockerhub, saveGiven_config]
  exact saveDockerhubConfig_same _ _

theorem savePushover_same (token userKey enabled : String) :
    SameBlocks s.config.toConfig (setupSavePushover s token userKey enabled).config.toConfig := by
  simp only [setupSavePushover, Installation.withConfig, saveGiven_config]
  exact ⟨rfl, rfl, rfl, rfl, rfl, rfl⟩

theorem discover_same (env : Surroundings) (s : Proxmox.Settings) (serverId : String)
    (nodes : Option (List String)) :
    SameBlocks s.config (Proxmox.setupProxmoxDiscover env s serverId nodes).config := by
  rw [Proxmox.setupProxmoxDiscover]
  exact iteInduction (motive := fun t : Proxmox.Settings => SameBlocks s.config t.config) (fun _ =>
    .refl _)
    fun _ => addNodes_same env s true _ serverId nodes

variable {session} in
theorem saved_taken (integration : String) {config config' : Config}
    (h : PinsOnly config config' integration (stored (session.confirmed integration).pem))
    {name pem : String} (hpinned : Pinned config' name pem) :
    Pinned config name pem ∨ saveEvent session integration = some (.used name pem) := by
  rcases h name pem hpinned with hold | ⟨rfl, hstored⟩
  · exact .inl hold
  · exact .inr (by rw [saveEvent, hstored, Option.map_some])

/-- What a request pins it takes from the cookie. -/
theorem handle_pins (request : SetupRequest) {name pem : String}
    (hpinned : Pinned (handle env p s session request).1.config.toConfig name pem) :
    Pinned s.config.toConfig name pem ∨ certEvent env s session request =
      some (.used name pem) := by
  have hsame : SameBlocks s.config.toConfig (handle env p s session request).1.config.toConfig →
      Pinned s.config.toConfig name pem ∨ certEvent env s session request = some (.used name pem) :=
    fun h => .inl (h.pinned hpinned)
  cases request with
  | accountSubmit salt key username password confirm =>
      exact hsame (same_of_config (accountSubmit_config p s _ salt key username password confirm))
  | securitySubmit now newSecret enableMfa code =>
      exact hsame (same_of_config (securitySubmit_config p s _ now newSecret enableMfa code))
  | security secret => exact hsame (same_of_config (security_config s _ secret))
  | saveProxmox form nodes =>
      rw [handle, Setup.FirstRun.setupSaveProxmox] at hpinned
      rw [certEvent]
      cases hsaved : Proxmox.setupSaveProxmox env s.settings form (session.confirmed "proxmox").pem
        (session.confirmed "proxmox").fingerprint nodes with
      | none =>
          rw [hsaved] at hpinned
          exact .inl hpinned
      | some saved =>
          rw [hsaved] at hpinned
          exact saved_taken "proxmox" (setupSaveProxmox_pins hsaved) hpinned
  | addAnother =>
      have hpins : PinsOnly s.settings.config (restart env s.settings).config "proxmox" none :=
        restart_pins env s.settings
      exact .inl ((hpins name pem hpinned).resolve_right fun h => by cases h.2)
  | discover serverId nodes => exact hsame (discover_same env s.settings serverId nodes)
  | saveLxcs form =>
      exact hsame ((saveCredentials_same s.settings _ _).trans ⟨rfl, rfl, rfl, rfl, rfl, rfl⟩)
  | saveDocker checked => exact hsame (saveDocker_same s session checked)
  | savePbs form =>
      rw [handle, setupSavePbs] at hpinned
      dsimp only at hpinned
      rw [saveGiven_config] at hpinned
      exact saved_taken "pbs" (savePbsConfig_pins _ _ _ _ _) hpinned
  | saveOpnsense form =>
      rw [handle, setupSaveOpnsense] at hpinned
      dsimp only at hpinned
      rw [saveGiven_config] at hpinned
      exact saved_taken "opnsense" (saveOpnsenseConfig_pins _ _ _ _ _) hpinned
  | savePfsense form =>
      rw [handle, setupSavePfsense] at hpinned
      dsimp only at hpinned
      rw [saveGiven_config] at hpinned
      exact saved_taken "pfsense" (savePfsenseConfig_pins _ _ _ _ _) hpinned
  | savePortainer form =>
      rw [handle, setupSavePortainer] at hpinned
      dsimp only at hpinned
      rw [saveGiven_config] at hpinned
      exact saved_taken "portainer" (savePortainerConfig_pins _ _ _ _) hpinned
  | saveHomeassistant form => exact hsame (saveHomeassistant_same s form)
  | saveDockerhub username token => exact hsame (saveDockerhub_same s username token)
  | savePushover token userKey enabled => exact hsame (savePushover_same s token userKey enabled)
  | saveEmail form => exact hsame (saveEmail_same s form)
  | addHost form connected containers =>
      apply hsame
      rw [handle, Setup.setupAddHost]
      split_ifs
      · exact .refl _
      · exact .refl _
      · exact recordHost_same s form.pending none
  | confirmAddHost enableDocker =>
      apply hsame
      rw [handle]
      unfold Setup.setupConfirmAddHost
      split
      · exact .refl _
      · exact recordHost_same s _ _
  | cardAdd form =>
      apply hsame
      rw [handle, setupCardAdd]
      dsimp only
      split
      · exact .refl _
      · exact recordHost_same s _ _
  | page _ | welcomeSubmit _ | recoveryCodeConfirm => exact hsame (.refl _)
  | testProxmox _ _ | testPbs _ _ | testOpnsense _ _ | testPfsense _ _ | testPortainer _ _ =>
      exact hsame (.refl _)
  | saveVms address selected => exact hsame ⟨rfl, rfl, rfl, rfl, rfl, rfl⟩
  | removeHost slug => exact hsame ⟨rfl, rfl, rfl, rfl, rfl, rfl⟩
  | saveContainers selections => exact hsame ⟨rfl, rfl, rfl, rfl, rfl, rfl⟩
  | saveSchedule schedule => exact hsame ⟨rfl, rfl, rfl, rfl, rfl, rfl⟩
  | deleteEmail => exact hsame ⟨rfl, rfl, rfl, rfl, rfl, rfl⟩

end Settings

section Runs

/-- The disk, the cookies that were given out, and what the clients were asked and have done. -/
structure World where
  installation : Installation
  issued : List WizardSession := []
  events : List (Event String String) := []

variable (env : Surroundings) (p : Primitives)

def World.visited (w : World) (session : WizardSession) (headers : Headers)
    (request : SetupRequest) : World where
  installation := (serve env p w.installation session headers request).1
  issued := (serve env p w.installation session headers request).2 :: w.issued
  events := w.events ++ (certEvent env w.installation session request).toList

/-- Requests to the wizard with any cookie, and writes of the other pages, which
carry no certificate. -/
inductive Run (start : Installation) : World → Prop where
  | start : Run start { installation := start }
  | visit {w : World} (hrun : Run start w) (session : WizardSession)
      (hsession : session = {} ∨ session ∈ w.issued) (headers : Headers) (request : SetupRequest) :
      Run start (w.visited env p session headers request)
  | write {w : World} (hrun : Run start w) (op : SaveOp) (hplain : certificate op = none) :
      Run start { w with installation := w.installation.save env op }

/-- The token of the session is beside its certificates. -/
theorem certEvent_token (s : Installation) (headers : Headers) (session : WizardSession)
    (request : SetupRequest) :
    certEvent env s (getCsrfToken headers session) request = certEvent env s session request := by
  have hconfirmed : ∀ integration, (getCsrfToken headers session).confirmed integration =
      session.confirmed integration :=
    fun _ => rfl
  have htest : ∀ form outcome integration fields,
      testEvent (getCsrfToken headers session) form outcome integration fields =
        testEvent session form outcome integration fields := by
    intro form outcome integration fields
    have hpending : (getCsrfToken headers session).pendingCert = session.pendingCert := rfl
    rw [testEvent, testEvent]
    unfold testPage
    rw [hpending]
  cases request with
  | testProxmox form outcome | testPbs form outcome | testOpnsense form outcome
  | testPfsense form outcome =>
      rw [certEvent, certEvent, htest]
  | testPortainer form outcome => rw [certEvent, certEvent, htest]
  | saveProxmox form nodes => rw [certEvent, certEvent, saveEvent, saveEvent, hconfirmed]
  | savePbs form | saveOpnsense form | savePfsense form | savePortainer form =>
      rw [certEvent, certEvent, saveEvent, saveEvent, hconfirmed]
  | _ => rfl

theorem ticket_token (headers : Headers) (session : WizardSession) :
    ticket (getCsrfToken headers session) = ticket session := rfl

variable {env p} {start : Installation} {w : World}

theorem serve_earned (s : Installation) (session : WizardSession) (headers : Headers)
    (request : SetupRequest) :
    Earned (ticket session) (certEvent env s session request)
      (ticket (serve env p s session headers request).2) := by
  have hearned := handle_earned env p s (getCsrfToken headers session) request
  rw [certEvent_token, ticket_token] at hearned
  rw [serve_eq]
  exact hearned

theorem serve_pins (s : Installation) (session : WizardSession) (headers : Headers)
    (request : SetupRequest) {name pem : String}
    (hpinned : Pinned (serve env p s session headers request).1.config.toConfig name pem) :
    Pinned s.config.toConfig name pem ∨ certEvent env s session request =
      some (.used name pem) := by
  rw [serve_eq] at hpinned
  rw [← certEvent_token env s headers]
  exact handle_pins env p s (getCsrfToken headers session) request hpinned

theorem ticket_known {session : WizardSession} (h : session = {} ∨ session ∈ w.issued) :
    ticket session = {} ∨ ticket session ∈ w.issued.map ticket := by
  rcases h with rfl | hmem
  · exact .inl rfl
  · exact .inr (List.mem_map_of_mem hmem)

/-- The cookies are the tickets of an approval in two steps. -/
theorem Run.tickets (hrun : Run env p start w) : Approval.Run (w.issued.map ticket) w.events := by
  induction hrun with
  | start => exact .start
  | @visit w _ session hsession headers request ih =>
      have hearned := @serve_earned env p w.installation session headers request
      exact ih.visit (ticket_known hsession) hearned
  | write _ op hplain ih => exact ih

/-- However the requests of the clients interleave, whatever they post and whichever old cookies
they bring, a certificate that the settings have come to pin was shown for its integration, accepted
in a test that connected, and then saved, in this order. -/
theorem pinned_vetted (hrun : Run env p start w) (name pem : String)
    (hpinned : Pinned w.installation.config.toConfig name pem) :
    Pinned start.config.toConfig name pem ∨ Vetted name pem w.events := by
  induction hrun with
  | start => exact .inl hpinned
  | @visit w hrun session hsession headers request ih =>
      have hearned := @serve_earned env p w.installation session headers request
      rcases serve_pins w.installation session headers request hpinned with hold | hused
      · exact (ih hold).imp id fun hvetted => hvetted.append _
      · exact .inr (hrun.tickets.used (ticket_known hsession) hearned hused)
  | @write w _ op hplain ih =>
      have hpins : PinsOnly w.installation.config.toConfig
          (w.installation.save env op).config.toConfig name none :=
        save_pins env w.installation hplain
      exact ih ((hpins name pem hpinned).resolve_right fun h => by cases h.2)

theorem fresh_not_pinned (name pem : String) :
    ¬ Pinned Installation.fresh.config.toConfig name pem := by
  intro hpinned
  cases hpinned with
  | server server hserver _ => cases hserver
  | proxmox h | proxmoxBackup h | opnsense h | pfsense h | portainer h => cases h

def pbsForm : TestForm where
  url := "https://192.0.2.7:8007"
  key := "backup@pbs!keepup"
  secret := "s3cret"

def certificateShown : World :=
  World.visited plainSurroundings plainPrimitives { installation := .fresh } {} {}
    (.testPbs pbsForm (.untrusted (some "MIIB")))

def certificateAccepted : World :=
  certificateShown.visited plainSurroundings plainPrimitives (certificateShown.issued.headD {}) {}
    (.testPbs { pbsForm with trustAccepted := "1" } (.connected "AA:BB"))

def certificateSaved : World :=
  certificateAccepted.visited plainSurroundings plainPrimitives
    (certificateAccepted.issued.headD {}) {}
    (.savePbs { url := pbsForm.url, key := pbsForm.key, secret := pbsForm.secret })

theorem saved_vetted : Vetted "pbs" "MIIB" certificateSaved.events := by
  have hrun : Run plainSurroundings plainPrimitives .fresh certificateSaved :=
    .visit (.visit (.visit .start _ (.inl rfl) _ _) _ (.inr List.mem_cons_self) _ _) _
      (.inr List.mem_cons_self) _ _
  have hpinned : certificateSaved.installation.config.proxmoxBackup.bind Block.pinnedCertPem =
      some "MIIB" := by
    decide +kernel
  exact (pinned_vetted hrun "pbs" "MIIB" (.proxmoxBackup hpinned)).resolve_left
    (fresh_not_pinned "pbs" "MIIB")

end Runs

end Keepup.CertTrust
