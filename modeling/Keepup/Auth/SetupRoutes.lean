import Keepup.Auth.Routes
import Keepup.Config.Reset
import Keepup.Hosts.Wizard
import Keepup.Proxmox.Ownership

/-!
The wizard of the first run. Its pages are in front of the login, and the check of the token
leaves them out, so that each handler has to guard itself. What a connection test finds out is
a parameter. Of the session the handlers leave out what only the next page shows: the resources
that were found, and the hosts that wait for a login.
-/

namespace Keepup.Setup.FirstRun

open Lib Login Routes

section Session

/-- A certificate that the client has accepted. -/
structure Confirmed where
  pem : String := ""
  fingerprint : String := ""
deriving DecidableEq

/-- What the cookie holds while the wizard runs, the certificates by integration. -/
structure WizardSession extends Session where
  csrfToken : Option String := none
  pendingCert : Dict String String := ∅
  confirmedCert : Dict String Confirmed := ∅
  pendingSshHost : Option PendingHost := none
  dockerLxcs : List String := []

end Session

section Middleware

/-- What the check of the token reads of a request, and the token that it draws. -/
structure Headers where
  hxRequest : Bool := false
  csrfToken : String := ""
  drawn : String := ""

def safeMethods : List String := ["GET", "HEAD", "OPTIONS", "TRACE"]

def exemptPrefixes : List String := ["/setup"]

def getCsrfToken (headers : Headers) (session : WizardSession) : WizardSession :=
  { session with csrfToken := session.csrfToken.or (some headers.drawn) }

def validToken (headers : Headers) (session : WizardSession) : Bool :=
  let token := session.csrfToken.getD ""
  token != "" && headers.csrfToken != "" && token == headers.csrfToken

/-- The token is asked for, and is not the one of the session. -/
def csrfRefuses (method path : String) (headers : Headers) (session : WizardSession) : Bool :=
  !safeMethods.contains method && headers.hxRequest &&
    !exemptPrefixes.any (Text.startsWith path ·) && !validToken headers session

end Middleware

section Forms

def cleanUrl (url : String) : String := Text.rstripChar '/' (Text.strip url)

/-- A credential that is written only when it says something. -/
def posted (value : String) : Option Scalar := if value = "" then none else some (.str value)

/-- What a connection test finds out. -/
inductive TestOutcome where
  | connected (fingerprint : String)
  /-- The certificate is not trusted. `none` where it cannot be fetched. -/
  | untrusted (fetched : Option String)
  | failed

/-- The posted fields of a connection test. The key is a token id or an API key. -/
structure TestForm where
  url : String := ""
  key : String := ""
  secret : String := ""
  trustAccepted : String := ""
  skipSslVerify : String := ""

/-- The posted fields of the forms that save an integration. -/
structure IntegrationForm where
  url : String := ""
  apiUser : String := ""
  key : String := ""
  secret : String := ""
  skipSslVerify : String := ""

structure CardForm where
  name : String := ""
  host : String := ""
  user : String := "root"
  port : String := "22"
  authMethod : String := "key"
  sshPassword : String := ""

/-- A host card has neither a key file nor a schedule. -/
def CardForm.pending (form : CardForm) : PendingHost where
  name := Text.strip form.name
  host := Text.strip form.host
  user := Text.strip form.user
  port := form.port
  authMethod := form.authMethod
  sshPassword := Text.strip form.sshPassword
  keyFile := ""
  autoUpdate := false

def CardForm.incomplete (form : CardForm) : Bool :=
  Text.strip form.name == "" || Text.strip form.host == "" || Text.strip form.user == "" ||
    (form.authMethod == "password" && Text.strip form.sshPassword == "")

/-- A port that is no number is refused before the handler runs. -/
structure EmailForm where
  senderName : String := ""
  senderAddress : String := ""
  recipientAddress : String := ""
  smtpHost : String := ""
  smtpPort : Option Int := some 587
  smtpPassword : String := ""
  tls : String := ""

/-- The interval that a choice of the page stands for. -/
def updateCheckSchedules : List (String × Nat) :=
  [("manual", 0), ("1h", 1), ("6h", 6), ("12h", 12), ("24h", 24)]

end Forms

section Tests

variable (session : WizardSession) (form : TestForm) (outcome : TestOutcome)

/-- A certificate that is not trusted waits in the session until the client accepts it. -/
def testConnection (integration : String) (fields : List String) : WizardSession :=
  let pem := session.pendingCert.getD integration ""
  if fields.contains "" then session
  else if form.skipSslVerify = "1" then session
  else if form.trustAccepted = "1" ∧ pem = "" then session
  else
    match outcome with
    | .connected fingerprint =>
        if form.trustAccepted = "1" then
          { session with
            confirmedCert := session.confirmedCert.set integration ⟨pem, fingerprint⟩
            pendingCert := session.pendingCert.pop integration }
        else session
    | .untrusted (some fetched) =>
        { session with pendingCert := session.pendingCert.set integration fetched }
    | _ => session

def setupTestProxmox : WizardSession :=
  testConnection session form outcome "proxmox"
    [cleanUrl form.url, Text.strip form.key, Text.strip form.secret]

def setupTestPbs : WizardSession :=
  testConnection session form outcome "pbs"
    [cleanUrl form.url, Text.strip form.key, Text.strip form.secret]

def setupTestOpnsense : WizardSession :=
  testConnection session form outcome "opnsense"
    [cleanUrl form.url, Text.strip form.key, Text.strip form.secret]

def setupTestPfsense : WizardSession :=
  testConnection session form outcome "pfsense" [cleanUrl form.url, Text.strip form.key]

/-- The one page that does not offer to skip the check of the certificate. -/
def setupTestPortainer : WizardSession :=
  testConnection session { form with skipSslVerify := "" } outcome "portainer"
    [cleanUrl form.url, Text.strip form.key]

end Tests

section Saves

variable (env : Surroundings) (s : Installation) (session : WizardSession)

def WizardSession.confirmed (integration : String) : Confirmed :=
  (session.confirmedCert.get? integration).getD {}

def WizardSession.dropConfirmed (integration : String) : WizardSession :=
  { session with confirmedCert := session.confirmedCert.pop integration }

def saveGiven (given : Bool) (key : String) (fields : List (String × Option Scalar)) :
    Installation :=
  if given then { s with store := s.store.saveIntegrationCredentials key fields } else s

def setupSavePbs (form : IntegrationForm) : Installation × WizardSession :=
  let cert := session.confirmed "pbs"
  let saved := s.withConfig
    (s.config.savePbsConfig (cleanUrl form.url) cert.pem cert.fingerprint
      (form.skipSslVerify != "1"))
  let apiUser := Text.strip form.apiUser
  let tokenId := Text.strip form.key
  let secret := Text.strip form.secret
  (saveGiven saved (apiUser != "" || tokenId != "" || secret != "") "proxmox_backup"
    [("api_user", posted apiUser), ("token_id", posted tokenId), ("secret", posted secret)],
    session.dropConfirmed "pbs")

def setupSaveOpnsense (form : IntegrationForm) : Installation × WizardSession :=
  let cert := session.confirmed "opnsense"
  let saved := s.withConfig
    (s.config.saveOpnsenseConfig (cleanUrl form.url) cert.pem cert.fingerprint
      (form.skipSslVerify != "1"))
  let key := Text.strip form.key
  let secret := Text.strip form.secret
  (saveGiven saved (key != "" && secret != "") "opnsense"
    [("api_key", some (.str key)), ("api_secret", some (.str secret))],
      session.dropConfirmed "opnsense")

def setupSavePfsense (form : IntegrationForm) : Installation × WizardSession :=
  let cert := session.confirmed "pfsense"
  let saved := s.withConfig
    (s.config.savePfsenseConfig (cleanUrl form.url) cert.pem cert.fingerprint
      (form.skipSslVerify != "1"))
  let key := Text.strip form.key
  (saveGiven saved (key != "") "pfsense" [("api_key", some (.str key))],
    session.dropConfirmed "pfsense")

def setupSaveHomeassistant (form : IntegrationForm) : Installation :=
  let saved := s.withConfig
    (s.config.saveHomeassistantConfig (cleanUrl form.url) (form.skipSslVerify != "1"))
  let token := Text.strip form.key
  saveGiven saved (token != "") "homeassistant" [("token", some (.str token))]

def setupSavePortainer (form : IntegrationForm) : Installation × WizardSession :=
  let cert := session.confirmed "portainer"
  let saved := s.withConfig
    (s.config.savePortainerConfig (cleanUrl form.url) cert.pem cert.fingerprint)
  let key := Text.strip form.key
  (saveGiven saved (key != "") "portainer" [("api_key", some (.str key))],
    session.dropConfirmed "portainer")

def setupSaveDockerhub (username token : String) : Installation :=
  let saved := s.withConfig (s.config.saveDockerhubConfig (Text.strip username))
  saveGiven saved (Text.strip token != "") "dockerhub" [("token", some (.str (Text.strip token)))]

def setupSavePushover (token userKey enabled : String) : Installation :=
  let saved := saveGiven s (Text.strip token != "") "pushover"
    [("api_token", some (.str (Text.strip token))), ("user_key", some (.str (Text.strip userKey)))]
  saved.withConfig (saved.config.savePushoverConfig (enabled == "on"))

def setupSaveSchedule (schedule : String) : Installation :=
  { s with config := s.config.saveUpdateCheckIntervalHours
             ((updateCheckSchedules.lookup schedule).getD 6) }

def setupSaveEmail (form : EmailForm) : Installation :=
  match form.smtpPort with
  | none => s
  | some port =>
    if Text.strip form.smtpHost = "" then s
    else
      let saved := s.withConfig (s.config.saveEmailConfig {
        senderName := Text.strip form.senderName
        senderAddress := Text.strip form.senderAddress
        recipientAddress := Text.strip form.recipientAddress
        smtpHost := Text.strip form.smtpHost
        smtpPort := port
        tls := form.tls == "on" })
      let password := Text.strip form.smtpPassword
      saveGiven saved (password != "") "email" [("smtp_password", some (.str password))]

/-- What is deleted of the store is what a host named email has there. -/
def setupDeleteEmail : Installation :=
  { s.withConfig { s.config with email := none } with store := s.store.deleteCredentials "email" }

def setupSaveProxmox (form : Proxmox.SaveForm) (nodes : Option (List String)) :
    Installation × WizardSession :=
  let cert := session.confirmed "proxmox"
  match Proxmox.setupSaveProxmox env s.settings form cert.pem cert.fingerprint nodes with
  | none => (s, session)
  | some (settings, _) => (s.withSettings settings, session.dropConfirmed "proxmox")

/-- The slugs of the hosts that a save adds, for the page on their containers. -/
def addedSlugs (hosts : List HostEntry) : List String :=
  (Proxmox.addNew (s.config.getHosts.map HostEntry.host) hosts).map HostEntry.slug

def setupProxmoxSaveLxcs (form : Proxmox.LxcForm) : Installation × WizardSession :=
  let added := addedSlugs s (form.selectedLxcs.filterMap (Proxmox.lxcHost form.serverId))
  (s.withSettings (Proxmox.setupProxmoxSaveLxcs s.settings form),
    if added = [] then session else { session with dockerLxcs := added })

/-- The containers of the hosts that are not checked are no longer watched. -/
def setupProxmoxSaveDocker (checked : List String) : Installation :=
  session.dockerLxcs.foldl
    (fun s slug => if checked.contains slug then s
      else s.withConfig (s.config.setDockerMonitoring slug "none" none)) s

def setupCardAdd (form : CardForm) : Installation :=
  if form.incomplete then s else recordHost s form.pending none

def setupContainersSave (selections : List String) : Installation :=
  s.withConfig (s.config.saveWizardContainerSelection selections)

end Saves

section Serve

/-- The pages that write neither to the disk nor to the session. -/
inductive Page where
  | welcome
  | account
  | recoveryCode
  | connect
  | hosts
  | summary
  | containers
  | notifications
  | testSsh
  | generateSshKey
  | skipLxcs
  | skipDocker
  | skipVms
  | testHomeassistant
  | cardTest
  | testPushover
  | testEmail
  | finish

/-- A request to the wizard, with what is drawn for it and what the other side answers. -/
inductive SetupRequest where
  | page (shown : Page)
  | welcomeSubmit (timezone : String)
  | accountSubmit (salt backupKey username password passwordConfirm : String)
  | security (secret : String)
  | securitySubmit (now : ℚ) (newSecret enableMfa totpCode : String)
  | recoveryCodeConfirm
  | testProxmox (form : TestForm) (outcome : TestOutcome)
  | saveProxmox (form : Proxmox.SaveForm) (nodes : Option (List String))
  | addAnother
  | discover (serverId : String) (nodes : Option (List String))
  | saveLxcs (form : Proxmox.LxcForm)
  | saveDocker (checked : List String)
  | saveVms (address : String → String) (selected : List String)
  | testPbs (form : TestForm) (outcome : TestOutcome)
  | savePbs (form : IntegrationForm)
  | testOpnsense (form : TestForm) (outcome : TestOutcome)
  | saveOpnsense (form : IntegrationForm)
  | testPfsense (form : TestForm) (outcome : TestOutcome)
  | savePfsense (form : IntegrationForm)
  | saveHomeassistant (form : IntegrationForm)
  | addHost (form : AddForm) (connected : Bool) (containers : Nat)
  | confirmAddHost (enableDocker : String)
  | removeHost (slug : String)
  | cardAdd (form : CardForm)
  | testPortainer (form : TestForm) (outcome : TestOutcome)
  | savePortainer (form : IntegrationForm)
  | saveDockerhub (username token : String)
  | saveContainers (selections : List String)
  | savePushover (token userKey enabled : String)
  | saveSchedule (schedule : String)
  | saveEmail (form : EmailForm)
  | deleteEmail

def Page.route : Page → String × String
  | .welcome => ("GET", "/setup")
  | .account => ("GET", "/setup/account")
  | .recoveryCode => ("GET", "/setup/recovery-code")
  | .connect => ("GET", "/setup/connect")
  | .hosts => ("GET", "/setup/hosts")
  | .summary => ("GET", "/setup/summary")
  | .containers => ("GET", "/setup/containers")
  | .notifications => ("GET", "/setup/notifications")
  | .testSsh => ("POST", "/setup/connect/proxmox/test-ssh")
  | .generateSshKey => ("POST", "/setup/connect/proxmox/generate-ssh-key")
  | .skipLxcs => ("POST", "/setup/connect/proxmox/skip-lxcs")
  | .skipDocker => ("POST", "/setup/connect/proxmox/skip-docker")
  | .skipVms => ("POST", "/setup/connect/proxmox/skip-vms")
  | .testHomeassistant => ("POST", "/setup/connect/homeassistant/test")
  | .cardTest => ("POST", "/setup/hosts/card-test")
  | .testPushover => ("POST", "/setup/notifications/pushover/test")
  | .testEmail => ("POST", "/setup/notifications/email/test")
  | .finish => ("POST", "/setup/finish")

/-- The method and the path of a request. -/
def SetupRequest.route : SetupRequest → String × String
  | .page shown => shown.route
  | .welcomeSubmit _ => ("POST", "/setup")
  | .accountSubmit .. => ("POST", "/setup/account")
  | .security _ => ("GET", "/setup/security")
  | .securitySubmit .. => ("POST", "/setup/security")
  | .recoveryCodeConfirm => ("POST", "/setup/recovery-code/confirm")
  | .testProxmox .. => ("POST", "/setup/connect/proxmox/test")
  | .saveProxmox .. => ("POST", "/setup/connect/proxmox/save")
  | .addAnother => ("POST", "/setup/connect/proxmox/add-another")
  | .discover .. => ("POST", "/setup/connect/proxmox/discover")
  | .saveLxcs _ => ("POST", "/setup/connect/proxmox/save-lxcs")
  | .saveDocker _ => ("POST", "/setup/connect/proxmox/save-docker")
  | .saveVms .. => ("POST", "/setup/connect/proxmox/save-vms")
  | .testPbs .. => ("POST", "/setup/connect/pbs/test")
  | .savePbs _ => ("POST", "/setup/connect/pbs/save")
  | .testOpnsense .. => ("POST", "/setup/connect/opnsense/test")
  | .saveOpnsense _ => ("POST", "/setup/connect/opnsense/save")
  | .testPfsense .. => ("POST", "/setup/connect/pfsense/test")
  | .savePfsense _ => ("POST", "/setup/connect/pfsense/save")
  | .saveHomeassistant _ => ("POST", "/setup/connect/homeassistant/save")
  | .addHost .. => ("POST", "/setup/hosts/add")
  | .confirmAddHost _ => ("POST", "/setup/hosts/confirm-add")
  | .removeHost slug => ("POST", "/setup/hosts/" ++ slug ++ "/remove")
  | .cardAdd _ => ("POST", "/setup/hosts/card-add")
  | .testPortainer .. => ("POST", "/setup/portainer/test")
  | .savePortainer _ => ("POST", "/setup/portainer/save")
  | .saveDockerhub .. => ("POST", "/setup/dockerhub/save")
  | .saveContainers _ => ("POST", "/setup/containers/save")
  | .savePushover .. => ("POST", "/setup/notifications/pushover/save")
  | .saveSchedule _ => ("POST", "/setup/notifications/schedule/save")
  | .saveEmail _ => ("POST", "/setup/notifications/email/save")
  | .deleteEmail => ("POST", "/setup/notifications/email/delete")

variable (env : Surroundings) (p : Primitives)

/-- What a handler of the account does to the rest of the session: nothing. -/
def WizardSession.after (session : WizardSession) (result : Result) :
    Installation × WizardSession :=
  (result.installation, { session with toSession := result.session })

/-- The timezone is not a part of the settings. -/
def handle (s : Installation) (session : WizardSession) :
    SetupRequest → Installation × WizardSession
  | .page _ => (s, session)
  | .welcomeSubmit _ => (s, session)
  | .accountSubmit salt key username password confirm =>
      session.after (setupAccountSubmit p s session.toSession salt key username password confirm)
  | .security secret => session.after (setupSecurity s session.toSession secret)
  | .securitySubmit now newSecret enableMfa code =>
      session.after (setupSecuritySubmit p s session.toSession now newSecret enableMfa code)
  | .recoveryCodeConfirm => session.after (setupRecoveryCodeConfirm s session.toSession)
  | .testProxmox form outcome => (s, setupTestProxmox session form outcome)
  | .saveProxmox form nodes => setupSaveProxmox env s session form nodes
  | .addAnother => (s.withSettings (Proxmox.setupProxmoxAddAnother env s.settings), session)
  | .discover serverId nodes =>
      (s.withSettings (Proxmox.setupProxmoxDiscover env s.settings serverId nodes), session)
  | .saveLxcs form => setupProxmoxSaveLxcs s session form
  | .saveDocker checked => (setupProxmoxSaveDocker s session checked, session)
  | .saveVms address selected =>
      (s.withSettings (Proxmox.setupProxmoxSaveVms s.settings address selected), session)
  | .testPbs form outcome => (s, setupTestPbs session form outcome)
  | .savePbs form => setupSavePbs s session form
  | .testOpnsense form outcome => (s, setupTestOpnsense session form outcome)
  | .saveOpnsense form => setupSaveOpnsense s session form
  | .testPfsense form outcome => (s, setupTestPfsense session form outcome)
  | .savePfsense form => setupSavePfsense s session form
  | .saveHomeassistant form => (setupSaveHomeassistant s form, session)
  | .addHost form connected containers =>
      let (added, pending) := setupAddHost s form connected containers
      (added, { session with pendingSshHost := pending.or session.pendingSshHost })
  | .confirmAddHost enableDocker =>
      (setupConfirmAddHost s session.pendingSshHost enableDocker,
        { session with pendingSshHost := none })
  | .removeHost slug => (setupRemoveHost s slug, session)
  | .cardAdd form => (setupCardAdd s form, session)
  | .testPortainer form outcome => (s, setupTestPortainer session form outcome)
  | .savePortainer form => setupSavePortainer s session form
  | .saveDockerhub username token => (setupSaveDockerhub s username token, session)
  | .saveContainers selections => (setupContainersSave s selections, session)
  | .savePushover token userKey enabled => (setupSavePushover s token userKey enabled, session)
  | .saveSchedule schedule => (setupSaveSchedule s schedule, session)
  | .saveEmail form => (setupSaveEmail s form, session)
  | .deleteEmail => (setupDeleteEmail s, session)

/-- A request as it passes the check of the token, the login and its handler. -/
def serve (s : Installation) (session : WizardSession) (headers : Headers)
    (request : SetupRequest) :
    Installation × WizardSession :=
  let session := getCsrfToken headers session
  let (method, path) := request.route
  if csrfRefuses method path headers session then (s, session)
  else
    match authMiddleware s path session.toSession with
    | .redirected _ after =>
        (s, if after = session.toSession then session else { toSession := after })
    | .passed => handle env p s session request

/-- A request without a cookie begins with an empty session. -/
def anonymous (s : Installation) (request : Headers × SetupRequest) : Installation :=
  (serve env p s {} request.1 request.2).1

end Serve

section Guard

variable {env : Surroundings} {p : Primitives} {s : Installation}

/-- Every request is for a page of the wizard. -/
theorem route_setup (request : SetupRequest) :
    request.route.2 = "/setup" ∨ Text.startsWith request.route.2 "/setup/" = true := by
  cases request with
  | page shown => cases shown <;> decide +kernel
  | removeHost slug =>
      right
      dsimp only [SetupRequest.route]
      rw [Text.startsWith, String.toList_append, String.toList_append]
      rfl
  | _ =>
      dsimp only [SetupRequest.route]
      decide +kernel

theorem route_public (request : SetupRequest) : isPublic request.route.2 = true := by
  rw [isPublic]
  rcases route_setup request with hsetup | hbelow
  · rw [hsetup]
    rfl
  · rw [hbelow, Bool.or_true]

theorem route_exempt (request : SetupRequest) :
    exemptPrefixes.any (Text.startsWith request.route.2 ·) = true := by
  have hprefix : Text.startsWith request.route.2 "/setup" = true := by
    rcases route_setup request with hsetup | hbelow
    · rw [hsetup]
      rfl
    · rw [Text.startsWith, List.isPrefixOf_iff_prefix] at hbelow ⊢
      exact List.IsPrefix.trans ⟨['/'], rfl⟩ hbelow
  rw [exemptPrefixes, List.any_cons, hprefix, Bool.true_or]

/-- Nothing but the handler is in the way of a request. -/
theorem serve_eq (session : WizardSession) (headers : Headers) (request : SetupRequest) :
    serve env p s session headers request =
      handle env p s (getCsrfToken headers session) request := by
  have hcsrf : csrfRefuses request.route.1 request.route.2 headers (getCsrfToken headers session) =
      false := by
    rw [csrfRefuses, route_exempt, Bool.not_true, Bool.and_false, Bool.false_and]
  have hauth : authMiddleware s request.route.2 (getCsrfToken headers session).toSession =
      .passed := by
    rw [authMiddleware, if_pos (route_public request)]
  simp only [serve, hcsrf, hauth, Bool.false_eq_true, if_false]

/-- The hosts, the integrations and the credentials of both are the same. The account is
kept beside them. -/
structure Kept (s t : Installation) : Prop where
  config : t.config.toConfig = s.config.toConfig
  credentials : ∀ key, key ≠ integrationKey "admin" → t.store.get? key = s.store.get? key

def addresses (s : Installation) : List String := s.config.getHosts.map HostEntry.host

/-- A discovery finds no node at an address of its own. -/
def NoNewNode (env : Surroundings) (s : Installation) (url : String)
    (nodes : Option (List String)) : Prop :=
  nodes = none ∨ nodes = some [] ∨
    ∀ hostname ∈ env.urlHostname url, hostname.getD "" = "" ∨ hostname.getD "" ∈ addresses s

/-- The save is not for a server that there is. -/
def NewOrFirst (s : Installation) (form : Proxmox.SaveForm) : Prop :=
  form.serverId = Proxmox.newServer ∨ s.config.getProxmoxServers = []

/-- The servers are in the list, and there is no old block. -/
def ListOnly (s : Installation) : Prop :=
  s.config.proxmoxServers.isSome ∧ Proxmox.legacyBlock s.config.toConfig = none

/-- The save is of nothing, or its address is refused. -/
def IdleSave (env : Surroundings) (s : Installation) (form : Proxmox.SaveForm) : Prop :=
  (form.url = "" ∧ form.credKwargs = [] ∧ NewOrFirst s form ∧
    (form.serverId = Proxmox.newServer ∨ s.config.proxmox = none ∨ ListOnly s)) ∨
  (form.url ≠ "" ∧ Proxmox.slugifyServerId env form.url = none ∧ NewOrFirst s form ∧
    (form.serverId = Proxmox.newServer ∨ ListOnly s))

/-- The server has no address or no token, or its nodes are known. -/
def IdleDiscovery (env : Surroundings) (s : Installation) (serverId : String)
    (nodes : Option (List String)) :
    Prop :=
  let url := (Proxmox.proxmoxCfgFor s.settings serverId).url.getD ""
  let creds := s.store.getIntegrationCredentials s.config.toConfig
    (Proxmox.credentialKey (if serverId = Proxmox.newServer then "" else serverId))
  url = "" ∨ (assembleToken creds).truthy = false ∨ NoNewNode env s url nodes

/-- The request comes to no write of hosts, integrations or credentials. -/
def Idle (env : Surroundings) (s : Installation) : SetupRequest → Prop
  | .saveProxmox form _ => IdleSave env s form
  | .addAnother => ∀ legacy, Proxmox.legacyBlock s.config.toConfig = some legacy →
      s.config.getProxmoxServers = [] ∧ Proxmox.slugifyServerId env (legacy.url.getD "") = none
  | .discover serverId nodes => IdleDiscovery env s serverId nodes
  | .saveLxcs _ => False
  | .saveVms address selected =>
      ∀ host ∈ selected.filterMap (Proxmox.vmHost address), host.host ∈ addresses s
  | .savePbs form => cleanUrl form.url = "" ∧ s.config.proxmoxBackup = none ∧
      Text.strip form.apiUser = "" ∧ Text.strip form.key = "" ∧ Text.strip form.secret = ""
  | .saveOpnsense form => cleanUrl form.url = "" ∧ s.config.opnsense = none ∧
      (Text.strip form.key = "" ∨ Text.strip form.secret = "")
  | .savePfsense form => cleanUrl form.url = "" ∧ s.config.pfsense = none ∧ Text.strip form.key = ""
  | .saveHomeassistant form =>
      cleanUrl form.url = "" ∧ s.config.homeassistant = none ∧ Text.strip form.key = ""
  | .addHost form connected containers => form.incomplete = true ∨
      connected = false ∨ 0 < containers
  | .removeHost slug => (∀ host ∈ s.config.hosts, host.slug ≠ slug) ∧ s.store.get? slug = none
  | .cardAdd form => form.incomplete = true
  | .savePortainer form => cleanUrl form.url = "" ∧ s.config.portainer = none ∧
  Text.strip form.key = ""
  | .saveDockerhub username token =>
      Text.strip username = "" ∧ s.config.dockerhub = none ∧ Text.strip token = ""
  | .saveContainers selections =>
      ∀ host ∈ s.config.hosts, selections.filterMap (Config.selectedFor host.slug) = []
  | .savePushover .. => False
  | .saveEmail form => form.smtpPort = none ∨ Text.strip form.smtpHost = ""
  | .deleteEmail => s.config.email = none ∧ s.store.get? "email" = none
  | _ => True

end Guard

section Unchanged

variable {env : Surroundings} {p : Primitives} {s : Installation} {session : WizardSession}
  {nodes : Option (List String)}

theorem savedBlock_blank (existing : Option Block) (pem fp : String) (verify : Option Bool) :
    Config.savedBlock existing "" pem fp verify = none := by
  simp only [Config.savedBlock, if_true]

theorem addHosts_known {config : Config} {hosts : List HostEntry}
    (h : ∀ host ∈ hosts, host.host ∈ config.getHosts.map HostEntry.host) :
    Proxmox.addHosts config hosts = config := by
  have hnone : Proxmox.addNew (config.getHosts.map HostEntry.host) hosts = [] := by
    induction hosts with
    | nil => rfl
    | cons host rest ih =>
        rw [Proxmox.addNew, if_pos (h host List.mem_cons_self)]
        exact ih fun x hx => h x (List.mem_cons_of_mem host hx)
  rw [Proxmox.addHosts, hnone, List.append_nil]

theorem addNodes_known {url : String} (h : NoNewNode env s url nodes) (server : String) :
    Proxmox.addNodes env s.settings true url server nodes = s.settings := by
  unfold Proxmox.addNodes
  split
  · rename_i names hostname hhost
    dsimp only
    split
    · rfl
    · rename_i hblank
      have hknown : ∀ host ∈ Proxmox.nodeHosts (hostname.getD "") server names,
          host.host ∈ addresses s := by
        intro host hmem
        obtain ⟨node, hnode, rfl⟩ := List.mem_map.mp hmem
        rcases h with hnone | hnil | hall
        · cases hnone
        · cases hnil
          cases hnode
        · exact (hall hostname hhost).resolve_left fun hempty => hblank ⟨rfl, hempty⟩
      rw [show Proxmox.addHosts s.settings.config _ = _ from addHosts_known hknown]
  · rfl

theorem discover_idle {serverId : String} (h : IdleDiscovery env s serverId nodes) :
    Proxmox.setupProxmoxDiscover env s.settings serverId nodes = s.settings := by
  rw [Proxmox.setupProxmoxDiscover]
  apply ite_eq_left_iff.mpr
  intro hasked
  obtain ⟨hurl, htoken⟩ := not_or.mp hasked
  exact addNodes_known ((h.resolve_left hurl).resolve_left htoken) serverId

/-- Without servers the save is that of the old block. -/
theorem persist_unknown {serverId : String} (hnew : serverId ≠ Proxmox.newServer)
    (hservers : s.config.getProxmoxServers = []) (url pem fp : String) (verify : Bool) :
    Proxmox.persistProxmoxServer env s.settings serverId url pem fp verify =
      (Proxmox.saveProxmoxConfig env s.settings url pem fp verify).map
        fun saved => (saved, "") := by
  have hnone : s.settings.config.getProxmoxServer serverId = none := by
    rw [Config.getProxmoxServer, show s.settings.config.getProxmoxServers = [] from hservers]
    rfl
  rw [Proxmox.persistProxmoxServer, if_neg hnew, if_neg fun h => h.2 hnone]

theorem saveProxmoxConfig_blank (hservers : s.config.getProxmoxServers = [])
    (hplain : s.config.proxmox = none ∨ ListOnly s) (pem fp : String) (verify : Bool) :
    Proxmox.saveProxmoxConfig env s.settings "" pem fp verify = some s.settings := by
  have hnil : s.settings.config.getProxmoxServers = [] := hservers
  rw [Proxmox.saveProxmoxConfig]
  split
  · rw [Proxmox.saveFirstServer, hnil]
    rfl
  · rename_i hshape
    have hnone : s.config.proxmox = none := hplain.resolve_right hshape
    have hsame : { s.settings.config with proxmox := none } = s.settings.config := by
      rw [← hnone]
      rfl
    rw [if_neg (not_not_intro rfl), hsame]

theorem saveProxmoxConfig_refused {url : String} (hurl : url ≠ "")
    (hrefused : Proxmox.slugifyServerId env url = none) (hservers : s.config.getProxmoxServers = [])
    (hlist : ListOnly s) (pem fp : String) (verify : Bool) :
    Proxmox.saveProxmoxConfig env s.settings url pem fp verify = none := by
  have hnil : s.settings.config.getProxmoxServers = [] := hservers
  have hshape : s.settings.config.proxmoxServers.isSome ∧
      Proxmox.legacyBlock s.settings.config = none := hlist
  have hblank : decide (url = "") = false := decide_eq_false hurl
  rw [Proxmox.saveProxmoxConfig, if_pos hshape, Proxmox.saveFirstServer, hnil, hblank]
  dsimp only
  rw [Proxmox.addProxmoxServer, hrefused]
  rfl

/-- Either nothing is written, or nothing changes. -/
theorem saveProxmox_idle {form : Proxmox.SaveForm} (h : IdleSave env s form) (pem fp : String) :
    Proxmox.setupSaveProxmox env s.settings form pem fp nodes = none ∨
      ∃ id, Proxmox.setupSaveProxmox env s.settings form pem fp nodes = some (s.settings, id) := by
  rw [Proxmox.setupSaveProxmox]
  rcases h with ⟨hurl, hfields, hunknown, hplain⟩ | ⟨hurl, hrefused, hunknown, hplain⟩
  · have hincomplete : ¬ (form.url ≠ "" ∧ form.tokenId ≠ "" ∧ form.secret ≠ "") := fun h => h.1 hurl
    have hpersisted : Proxmox.persistProxmoxServer env s.settings form.serverId form.url pem fp
        (form.skipSslVerify != "1") = some (s.settings, "") := by
      by_cases hnew : form.serverId = Proxmox.newServer
      · rw [Proxmox.persistProxmoxServer, if_pos hnew, if_pos hurl]
      · have hservers := hunknown.resolve_left hnew
        rw [persist_unknown hnew hservers, hurl,
          saveProxmoxConfig_blank hservers (hplain.resolve_left hnew)]
        rfl
    right
    refine ⟨"", ?_⟩
    rw [hpersisted, Option.map_some]
    dsimp only
    rw [if_neg hincomplete, hfields, Proxmox.saveCredentials, if_pos rfl]
  · have hpersisted : Proxmox.persistProxmoxServer env s.settings form.serverId form.url pem fp
        (form.skipSslVerify != "1") = none := by
      by_cases hnew : form.serverId = Proxmox.newServer
      · rw [Proxmox.persistProxmoxServer, if_pos hnew, if_neg hurl,
          Proxmox.addProxmoxServer, hrefused]
        rfl
      · have hservers := hunknown.resolve_left hnew
        rw [persist_unknown hnew hservers,
          saveProxmoxConfig_refused hurl hrefused hservers (hplain.resolve_left hnew)]
        rfl
    left
    rw [hpersisted, Option.map_none]

theorem addAnother_idle (h : Idle env s .addAnother) :
    Proxmox.setupProxmoxAddAnother env s.settings = s.settings := by
  rw [Proxmox.setupProxmoxAddAnother]
  generalize hafter : Proxmox.restart env s.settings = t
  cases hafter ▸ Proxmox.restart_migrated env s.settings with
  | nothing _ => rfl
  | dropped legacy hlegacy hservers => exact absurd (h legacy hlegacy).1 hservers
  | refused _ _ _ _ => rfl
  | moved legacy serverId hlegacy _ hurl =>
      rw [show Proxmox.slugifyServerId env (legacy.url.getD "") =
        none from (h legacy hlegacy).2] at hurl
      cases hurl

theorem removeHost_idle {slug : String} (h : Idle env s (.removeHost slug)) :
    setupRemoveHost s slug = s := by
  have hhosts : s.config.deleteHost slug = s.config.toConfig := by
    rw [Config.deleteHost, List.filter_eq_self.mpr fun host hmem => decide_eq_true (h.1 host hmem)]
  have hstore : s.store.deleteCredentials slug = s.store := Dict.pop_absent h.2
  rw [setupRemoveHost, hhosts, hstore]
  rfl

theorem saveContainers_idle {selections : List String}
    (h : Idle env s (.saveContainers selections)) :
    setupContainersSave s selections = s := by
  have hhosts : s.config.saveWizardContainerSelection selections = s.config.toConfig := by
    have hsame : (s.config.saveWizardContainerSelection selections).hosts = s.config.hosts.map id :=
      List.map_congr_left fun host hmem => if_pos (h host hmem)
    have hrest : s.config.saveWizardContainerSelection selections =
        { s.config.toConfig with hosts :=
                                   (s.config.saveWizardContainerSelection selections).hosts } := rfl
    rw [hrest, hsame, List.map_id]
  rw [setupContainersSave, hhosts]
  rfl

theorem deleteEmail_idle (h : Idle env s .deleteEmail) : setupDeleteEmail s = s := by
  have hstore : s.store.deleteCredentials "email" = s.store := Dict.pop_absent h.2
  rw [setupDeleteEmail, hstore, ← h.1]
  rfl

/-- A blank form, where nothing is stored, leaves everything as it is. -/
theorem savePbs_idle {form : IntegrationForm} (h : Idle env s (.savePbs form)) :
    (setupSavePbs s session form).1 = s := by
  obtain ⟨hurl, hnone, huser, hkey, hsecret⟩ := h
  have hsame : ∀ pem fp verify, s.config.savePbsConfig "" pem fp verify = s.config.toConfig := by
    intro pem fp verify
    rw [Config.savePbsConfig, savedBlock_blank, ← hnone]
  simp only [setupSavePbs, hurl, hsame, huser, hkey, hsecret]
  rfl

theorem saveOpnsense_idle {form : IntegrationForm} (h : Idle env s (.saveOpnsense form)) :
    (setupSaveOpnsense s session form).1 = s := by
  obtain ⟨hurl, hnone, hblank⟩ := h
  have hsame : ∀ pem fp verify, s.config.saveOpnsenseConfig "" pem fp verify =
      s.config.toConfig := by
    intro pem fp verify
    rw [Config.saveOpnsenseConfig, savedBlock_blank, ← hnone]
  have hgiven : (Text.strip form.key != "" && Text.strip form.secret != "") = false := by
    rcases hblank with hkey | hsecret
    · rw [hkey]
      rfl
    · rw [hsecret]
      exact Bool.and_false _
  simp only [setupSaveOpnsense, hurl, hsame, hgiven]
  rfl

theorem savePfsense_idle {form : IntegrationForm} (h : Idle env s (.savePfsense form)) :
    (setupSavePfsense s session form).1 = s := by
  obtain ⟨hurl, hnone, hkey⟩ := h
  have hsame : ∀ pem fp verify, s.config.savePfsenseConfig "" pem fp verify =
      s.config.toConfig := by
    intro pem fp verify
    rw [Config.savePfsenseConfig, savedBlock_blank, ← hnone]
  simp only [setupSavePfsense, hurl, hsame, hkey]
  rfl

theorem saveHomeassistant_idle {form : IntegrationForm} (h : Idle env s (.saveHomeassistant form)) :
    setupSaveHomeassistant s form = s := by
  obtain ⟨hurl, hnone, hkey⟩ := h
  have hsame : ∀ verify, s.config.saveHomeassistantConfig "" verify = s.config.toConfig := by
    intro verify
    rw [Config.saveHomeassistantConfig, savedBlock_blank, ← hnone]
  simp only [setupSaveHomeassistant, hurl, hsame, hkey]
  rfl

theorem savePortainer_idle {form : IntegrationForm} (h : Idle env s (.savePortainer form)) :
    (setupSavePortainer s session form).1 = s := by
  obtain ⟨hurl, hnone, hkey⟩ := h
  have hsame : ∀ pem fp, s.config.savePortainerConfig "" pem fp = s.config.toConfig := by
    intro pem fp
    rw [Config.savePortainerConfig, savedBlock_blank, ← hnone]
  simp only [setupSavePortainer, hurl, hsame, hkey]
  rfl

theorem saveDockerhub_idle {username token : String}
    (h : Idle env s (.saveDockerhub username token)) :
    setupSaveDockerhub s username token = s := by
  obtain ⟨husername, hnone, htoken⟩ := h
  have hsame : s.config.saveDockerhubConfig "" = s.config.toConfig := by
    rw [Config.saveDockerhubConfig, if_pos rfl, ← hnone]
  simp only [setupSaveDockerhub, husername, hsame, htoken]
  rfl

theorem addHost_idle {form : AddForm} {connected : Bool} {containers : Nat}
    (h : Idle env s (.addHost form connected containers)) :
    (setupAddHost s form connected containers).1 = s := by
  rw [setupAddHost]
  split
  · rfl
  · rename_i hready
    obtain ⟨hcomplete, hconnected⟩ := not_or.mp hready
    rw [if_pos ((h.resolve_left hcomplete).resolve_left hconnected)]

theorem saveEmail_idle {form : EmailForm} (h : Idle env s (.saveEmail form)) :
    setupSaveEmail s form = s := by
  rw [setupSaveEmail]
  split
  · rfl
  · rename_i hport
    have hblank : Text.strip form.smtpHost = "" := h.resolve_left fun hnone => by
      rw [hport] at hnone
      cases hnone
    rw [if_pos hblank]

variable (env p) in
/-- With an account there is, and without a cookie, an idle request changes nothing. -/
theorem handle_idle {request : SetupRequest} (hadmin : s.adminExists = true) (token : Option String)
    (h : Idle env s request) :
    (handle env p s { csrfToken := token } request).1.settings = s.settings := by
  cases request with
  | accountSubmit salt key username password confirm =>
      rw [handle, WizardSession.after, setupAccountSubmit, if_pos hadmin]
  | securitySubmit now newSecret enableMfa code => rfl
  | security secret => rfl
  | saveProxmox form nodes =>
      rw [handle, setupSaveProxmox]
      rcases saveProxmox_idle h _ _ with hnone | ⟨id, hsome⟩
      · rw [hnone]
      · rw [hsome]
        rfl
  | addAnother =>
      rw [handle, addAnother_idle h]
      rfl
  | discover serverId nodes =>
      rw [handle, discover_idle h]
      rfl
  | saveLxcs form => exact absurd h id
  | saveVms address selected =>
      have hsame : Proxmox.setupProxmoxSaveVms s.settings address selected = s.settings := by
        rw [Proxmox.setupProxmoxSaveVms]
        rw [show Proxmox.addHosts s.settings.config _ = _ from addHosts_known h]
      rw [handle, hsame]
      rfl
  | savePbs form => rw [handle, savePbs_idle h]
  | saveOpnsense form => rw [handle, saveOpnsense_idle h]
  | savePfsense form => rw [handle, savePfsense_idle h]
  | saveHomeassistant form => rw [handle, saveHomeassistant_idle h]
  | addHost form connected containers =>
      have hsame := addHost_idle h
      rw [handle]
      generalize setupAddHost s form connected containers = result at hsame ⊢
      rw [← hsame]
  | removeHost slug => rw [handle, removeHost_idle h]
  | cardAdd form =>
      have hincomplete : form.incomplete = true := h
      rw [handle, setupCardAdd, if_pos hincomplete]
  | savePortainer form => rw [handle, savePortainer_idle h]
  | saveDockerhub username token => rw [handle, saveDockerhub_idle h]
  | saveContainers selections => rw [handle, saveContainers_idle h]
  | savePushover token userKey enabled => exact absurd h id
  | saveEmail form => rw [handle, saveEmail_idle h]
  | deleteEmail => rw [handle, deleteEmail_idle h]
  | _ => rfl

end Unchanged

section Runs

variable (env : Surroundings) (p : Primitives)

/-- A request of any client, with the session of its cookie. -/
structure Visit where
  session : WizardSession := {}
  headers : Headers := {}
  request : SetupRequest

def Visit.after (s : Installation) (visit : Visit) : Installation :=
  (serve env p s visit.session visit.headers visit.request).1

variable {env p} {s t : Installation}

theorem Kept.of_settings (h : t.settings = s.settings) : Kept s t where
  config := congrArg Proxmox.Settings.config h
  credentials key _ := congrArg (fun settings : Proxmox.Settings => settings.store.get? key) h

theorem adminExists_settings (h : t.settings = s.settings) : t.adminExists = s.adminExists :=
  congrArg (fun settings : Proxmox.Settings =>
    Scalar.given ((settings.store.getIntegrationCredentials
      settings.config "admin").get? "password_hash")) h

theorem anonymous_idle {headers : Headers} {request : SetupRequest} (hadmin : s.adminExists = true)
    (h : Idle env s request) : (anonymous env p s (headers, request)).settings = s.settings := by
  rw [anonymous, serve_eq]
  exact handle_idle env p hadmin _ h

/-- Once there is an account, requests without a cookie change no host, no integration and
no credentials, as long as none of them comes to a write. -/
theorem anonymous_requests_keep (env : Surroundings) (p : Primitives) (s : Installation)
    (requests : List (Headers × SetupRequest)) (hadmin : s.adminExists = true)
    (hidle : Meets (anonymous env p) (fun t request => Idle env t request.2) s requests) :
    ∀ t ∈ reached (anonymous env p) s requests, Kept s t := by
  have hstep : ∀ (t : Installation) (request : Headers × SetupRequest), t.settings = s.settings →
      Idle env t request.2 → (anonymous env p t request).settings = s.settings := by
    intro t request hsame hrequest
    have hstill : t.adminExists = true := (adminExists_settings hsame).trans hadmin
    exact (anonymous_idle hstill hrequest).trans hsame
  intro t ht
  exact .of_settings (reached_all hstep rfl hidle t ht)

def makeAccount : Visit where
  request := .accountSubmit "salt" "key" "admin" "correct horse" "correct horse"

def makeHost : Visit where
  request := .cardAdd { name := "nas", host := "192.0.2.10" }

def withAccount : Installation :=
  makeAccount.after Proxmox.plainSurroundings plainPrimitives Installation.fresh

/-- The first run: an account, and then a host. -/
def afterFirstRun :
    Installation := makeHost.after Proxmox.plainSurroundings plainPrimitives withAccount

theorem other_host_kept : Kept afterFirstRun
    (anonymous Proxmox.plainSurroundings plainPrimitives afterFirstRun ({},
      .removeHost "web")) := by
  have hidle : Idle Proxmox.plainSurroundings afterFirstRun (.removeHost "web") := by
    constructor <;> decide +kernel
  exact anonymous_requests_keep Proxmox.plainSurroundings plainPrimitives afterFirstRun
    [({}, .removeHost "web")] (by decide +kernel) ⟨hidle, trivial⟩ _
    (List.mem_cons_of_mem _ List.mem_cons_self)

/-- Whoever reaches the server removes the host again. -/
theorem anonymous_removes : ¬ ∀ visits,
    ∀ s ∈ reached (Visit.after Proxmox.plainSurroundings plainPrimitives) Installation.fresh visits,
      s.adminExists = true → ∀ requests,
      ∀ t ∈ reached (anonymous Proxmox.plainSurroundings plainPrimitives) s requests, Kept s t := by
  intro hall
  have hlast : afterFirstRun ∈ reached (Visit.after Proxmox.plainSurroundings plainPrimitives)
      Installation.fresh [makeAccount, makeHost] :=
    List.mem_cons_of_mem _ (List.mem_cons_of_mem _ List.mem_cons_self)
  have hremoved : anonymous Proxmox.plainSurroundings plainPrimitives afterFirstRun ({},
    .removeHost "nas") ∈
      reached (anonymous Proxmox.plainSurroundings plainPrimitives) afterFirstRun [({},
          .removeHost "nas")] :=
    List.mem_cons_of_mem _ List.mem_cons_self
  have hkept := (hall _ afterFirstRun hlast (by decide +kernel) _ _ hremoved).config
  revert hkept
  decide +kernel

end Runs

end Keepup.Setup.FirstRun
