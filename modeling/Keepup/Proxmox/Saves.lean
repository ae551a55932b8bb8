import Keepup.Proxmox.Migration

/-!
The forms that save a Proxmox server and its hosts, in the wizard and in the
admin pages. What the Proxmox API answers is a parameter: `none` where a
request to it fails. A handler is `none` where it raises before it has written
anything.
-/

namespace Keepup.Proxmox

open Lib

section Fields

/-- The posted fields of the form that saves a server. -/
structure SaveForm where
  proxmoxUrl : String := ""
  proxmoxTokenId : String := ""
  proxmoxSecret : String := ""
  skipSslVerify : String := ""
  serverId : String := ""
  proxmoxSshUser : String := ""
  proxmoxSshAuth : String := ""
  proxmoxSshKey : String := ""
  proxmoxSshPassword : String := ""

/-- The posted fields of the form that saves the SSH login for the LXCs. -/
structure LxcForm where
  proxmoxSshUser : String := "root"
  proxmoxSshAuth : String := "key"
  proxmoxSshKey : String := ""
  proxmoxSshPassword : String := ""
  serverId : String := ""
  selectedLxcs : List String := []

def deriveApiUser (tokenId : String) : String := (Text.splitOn '!' tokenId).headD tokenId

abbrev CredFields := List (String × Option Scalar)

/-- Only non-blank fields are written, and one way to log in clears the other. -/
def proxmoxSshCredKwargs (sshUser sshAuth sshKey sshPassword : String) : CredFields :=
  let user := Text.strip sshUser
  let key := Text.strip sshKey
  let password := Text.strip sshPassword
  (if user ≠ "" then [("ssh_user", some (.str user))] else []) ++
    if sshAuth = "key" ∧ key ≠ "" then
      [("ssh_key", some (.str key)), ("ssh_password", some (.str ""))]
    else if sshAuth = "password" ∧ password ≠ "" then
      [("ssh_password", some (.str password)), ("ssh_key", some (.str ""))]
    else []

namespace SaveForm

variable (form : SaveForm)

def url : String := Text.rstripChar '/' (Text.strip form.proxmoxUrl)

def tokenId : String := Text.strip form.proxmoxTokenId

def secret : String := Text.strip form.proxmoxSecret

def credKwargs : CredFields :=
  (if form.tokenId ≠ "" then
      [("token_id", some (.str form.tokenId)),
        ("api_user", some (.str (deriveApiUser form.tokenId)))]
    else []) ++
  (if form.secret ≠ "" then [("secret", some (.str form.secret))] else []) ++
  proxmoxSshCredKwargs form.proxmoxSshUser form.proxmoxSshAuth form.proxmoxSshKey
    form.proxmoxSshPassword

end SaveForm

/-- A login that is not posted is left as it is, here. -/
def LxcForm.credKwargs (form : LxcForm) : CredFields :=
  let key := if form.proxmoxSshAuth = "key" then Text.strip form.proxmoxSshKey else ""
  let password := if form.proxmoxSshAuth = "password"
    then Text.strip form.proxmoxSshPassword else ""
  [("ssh_user", some (.str (Text.orElse (some (Text.strip form.proxmoxSshUser)) "root")))] ++
    (if key ≠ "" then [("ssh_key", some (.str key)), ("ssh_password", none)] else []) ++
    (if password ≠ "" then [("ssh_password", some (.str password)), ("ssh_key", none)] else [])

end Fields

section Hosts

/-- A text that is stored only when it says something. -/
def stored (s : String) : Option String := if s = "" then none else some s

/-- A host entry as it is first written. -/
def buildHostEntry (name host node server : String) (vmid : Option Int)
    (type dockerMode : Option String) : HostEntry where
  name := name
  host := host
  dockerMode := dockerMode
  proxmoxNode := stored node
  proxmoxVmid := vmid
  proxmoxType := type
  proxmoxServer := stored server

/-- Add hosts one after the other, each unless its address is in use by then. -/
def addNew (inUse : List String) : List HostEntry → List HostEntry
  | [] => []
  | host :: rest =>
      if host.host ∈ inUse then addNew inUse rest else host :: addNew (host.host :: inUse) rest

theorem addNew_subset (inUse : List String) (hosts : List HostEntry) :
    addNew inUse hosts ⊆ hosts := by
  induction hosts generalizing inUse with
  | nil => simp [addNew]
  | cons host rest ih =>
      rw [addNew]
      split
      · exact List.subset_cons_of_subset host (ih inUse)
      · exact List.cons_subset_cons host (ih _)

def addHosts (config : Config) (hosts : List HostEntry) : Config :=
  { config with hosts := config.hosts ++ addNew (config.getHosts.map HostEntry.host) hosts }

/-- The nodes of a server, all at the address of its URL. -/
def nodeHosts (pxHost server : String) (nodes : List String) : List HostEntry :=
  nodes.map fun node =>
    buildHostEntry ("Proxmox VE (" ++ node ++ ")") pxHost node server none none none

/-- `s.split(c, n)`: at most `n` cuts. -/
def splitMax (c : Char) : Nat → List Char → List (List Char)
  | 0, cs => [cs]
  | n + 1, cs =>
      match cs.span (· ≠ c) with
      | (word, []) => [word]
      | (word, _ :: rest) => word :: splitMax c n rest

def splitFields (n : Nat) (entry : String) : List String :=
  (splitMax ':' n entry.toList).map String.ofList

/-- `int(s)` for a text of digits. -/
def vmidOf (s : String) : Option Int :=
  if s ≠ "" ∧ s.toList.all Char.isDigit then some (Nat.ofDigitChars 10 s.toList 0) else none

/-- A selected LXC `node:vmid:name:ip`. -/
def lxcHost (server entry : String) : Option HostEntry :=
  match splitFields 3 entry with
  | [node, vmid, name, ip] =>
      if ip = "" then none
      else (vmidOf vmid).map fun n => buildHostEntry name ip node server (some n) none (some "all")
  | _ => none

/-- A selected guest `node:vmid:type:name:ip` of the admin page. -/
def guestHost (server entry : String) : Option HostEntry :=
  match splitFields 4 entry with
  | [node, vmid, type, name, ip] =>
      if ip = "" then none
      else if type = "lxc" then
        some (buildHostEntry name ip node server (vmidOf vmid) (some "lxc") (some "all"))
      else some (buildHostEntry name ip node server (vmidOf vmid) (some "vm") none)
  | _ => none

end Hosts

section Handlers

variable (env : Surroundings) (s : Settings)

def proxmoxCfgFor (serverId : String) : Block :=
  if serverId ≠ "" ∧ serverId ≠ newServer then
    ((s.config.getProxmoxServer serverId).map ProxmoxServer.toBlock).getD {}
  else s.config.getProxmoxConfig

/-- Save credentials under the id they belong to, if any are given. -/
def saveCredentials (serverId : String) (fields : CredFields) : Settings :=
  if fields = [] then s
  else { s with store := s.store.saveIntegrationCredentials (credentialKey serverId) fields }

/-- Add the nodes that the API names, at the host of the URL. The wizard leaves
them out when the URL has no host. -/
def addNodes (wizard : Bool) (url server : String) (nodes : Option (List String)) : Settings :=
  match nodes, env.urlHostname url with
  | some nodes, some hostname =>
      let pxHost := hostname.getD ""
      if wizard ∧ pxHost = "" then s
      else { s with config := addHosts s.config (nodeHosts pxHost server nodes) }
  | _, _ => s

/-- Save a server, and the id its credentials are under. The certificate is the
one confirmed in this session. -/
def setupSaveProxmox (form : SaveForm) (pinnedCertPem pinnedFingerprint : String)
    (nodes : Option (List String)) : Option (Settings × String) :=
  (persistProxmoxServer env s form.serverId form.url pinnedCertPem pinnedFingerprint
      (form.skipSslVerify != "1")).map fun (saved, serverId) =>
    let saved := saveCredentials saved serverId form.credKwargs
    let complete := form.url ≠ "" ∧ form.tokenId ≠ "" ∧ form.secret ≠ ""
    (if complete then addNodes env saved true form.url serverId nodes else saved, serverId)

def setupProxmoxSaveLxcs (form : LxcForm) : Settings :=
  let saved := saveCredentials s form.serverId form.credKwargs
  { saved with config := addHosts saved.config (form.selectedLxcs.filterMap
    (lxcHost form.serverId)) }

def setupProxmoxAddAnother : Settings := restart env s

/-- Discover an already connected server. -/
def setupProxmoxDiscover (serverId : String) (nodes : Option (List String)) : Settings :=
  let cfg := proxmoxCfgFor s serverId
  let creds := s.store.getIntegrationCredentials s.config
    (credentialKey (if serverId = newServer then "" else serverId))
  let url := cfg.url.getD ""
  if url = "" ∨ (assembleToken creds).truthy = false then s
  else addNodes env s true url serverId nodes

/-- The server an admin page means, the first one when it names none. -/
def resolveProxmoxServer (serverId : String) : String :=
  if serverId ≠ "" then serverId
    else (s.config.getProxmoxServers.head?.map ProxmoxServer.id).getD ""

def adminSelectHosts (serverId : String) (selected : List String) : Settings :=
  let owner := resolveProxmoxServer s serverId
  { s with config := addHosts s.config (selected.filterMap (guestHost owner)) }

def adminAddNodeHost (serverId : String) (nodes : Option (List String)) : Settings :=
  let owner := resolveProxmoxServer s serverId
  let cfg := if owner ≠ ""
    then ((s.config.getProxmoxServer owner).map ProxmoxServer.toBlock).getD {}
    else s.config.getProxmoxConfig
  let creds := s.store.getIntegrationCredentials s.config (credentialKey owner)
  let url := cfg.url.getD ""
  if url = "" ∨ (assembleToken creds).truthy = false then s
  else addNodes env s false url owner nodes

def adminRemoveServer (serverId : String) : Settings := deleteProxmoxServer s serverId

end Handlers

end Keepup.Proxmox
