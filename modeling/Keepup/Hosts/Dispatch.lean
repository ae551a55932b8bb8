import Keepup.Credentials.Store
import Keepup.Lib.UrlSplit

/-!
How a host is reached: which kind it is, which Proxmox server owns it, and the
SSH connection that each operation opens. A connection is `none` where the code
raises before it opens one.
-/

namespace Keepup

open Lib

/-- What the code asks of its surroundings: the absolute path of a key file, `none` where
the call raises, and what the parser of URLs asks. -/
structure Surroundings where
  resolveKeyPath : String → Option String
  path_ne : ∀ name path, resolveKeyPath name = some path → path ≠ ""
  urlChecks : UrlSplit.Checks

/-- The host name in a URL. `none` where the call raises. -/
def Surroundings.urlHostname (env : Surroundings) (url : String) : Option (Option String) :=
  (UrlSplit.urlparse env.urlChecks url.toList).map fun parsed =>
    (parsed.hostname env.urlChecks).map String.ofList

inductive Kind where
  | plain
  | node
  | lxc
  | vm
deriving DecidableEq

def classifyHost (host : HostEntry) : Kind :=
  if Text.given host.proxmoxNode = false then .plain
  else if host.proxmoxVmid = none then .node
  else if Text.orElse host.proxmoxType "lxc" = "vm" then .vm
  else .lxc

section Server

variable (config : Config) (store : Store)

/-- The block and the credentials of the server that owns a host. -/
def serverContext (host : HostEntry) : Block × Entry :=
  let serverId := Text.orElse host.proxmoxServer ""
  if serverId ≠ "" then
    (((config.getProxmoxServer serverId).map ProxmoxServer.toBlock).getD {},
      store.getIntegrationCredentials config ("proxmox_" ++ serverId))
  else (config.getProxmoxConfig, store.getIntegrationCredentials config "proxmox")

/-- The host names a server that is not configured. -/
def isOrphaned (host : HostEntry) : Bool :=
  let serverId := Text.orElse host.proxmoxServer ""
  serverId != "" && (config.getProxmoxServer serverId).isNone

/-- The kind of a host, `plain` when its server is not configured. -/
def resolveKind (host : HostEntry) :
    Kind := if isOrphaned config host then .plain else classifyHost host

/-- `str(value)`. -/
def Scalar.text : Scalar → String
  | .bool b => if b then "True" else "False"
  | .int n => toString n
  | .str s => s

def assembleToken (creds : Entry) : Scalar :=
  let tokenId := creds.getD "token_id" (.str "")
  let apiUser := creds.getD "api_user" (.str "")
  let apiToken := creds.getD "api_token" (.str "")
  if tokenId.truthy then .str (tokenId.text ++ "=" ++ (creds.getD "secret" (.str "")).text)
  else if apiUser.truthy then .str (apiUser.text ++ "!" ++ apiToken.text)
  else apiToken

structure ProxmoxClient where
  url : String
  apiToken : Scalar
  pinnedCertPem : String
  verifySsl : Bool

/-- The client for a server, or the error that it is not configured. -/
def clientOf (serverId : String) (server : Block × Entry) : Except String ProxmoxClient :=
  let url := server.1.url.getD ""
  let token := assembleToken server.2
  if url = "" ∨ token.truthy = false then
    .error (if serverId ≠ "" then "Proxmox server " ++ Text.repr serverId ++ " is not configured."
      else "Proxmox integration not configured.")
  else .ok ⟨url, token, server.1.pinnedCertPem.getD "", server.1.verifySsl.getD true⟩

/-- The client for the server that owns a host. -/
def clientFromConfig (host : HostEntry) : Except String ProxmoxClient :=
  clientOf (Text.orElse host.proxmoxServer "") (serverContext config store host)

end Server

section Connect

/-- The address part of what `_connect` is given. -/
structure SshHost where
  host : String
  user : Option Scalar
  port : Option Scalar
  key : Option String

def HostEntry.sshHost (host : HostEntry) : SshHost where
  host := host.host
  user := host.user.map .str
  port := host.port.map .int
  key := host.key

/-- How a connection authenticates: with a password, with the text of a key, with
a key file, or with whatever the SSH library finds. -/
inductive Auth where
  | password (secret : Scalar)
  | privateKey (text : Scalar)
  | keyFile (path : Scalar)
  | default
deriving DecidableEq

structure Connection where
  host : String
  port : Scalar
  username : String
  auth : Auth
deriving DecidableEq

/-- The stripped SSH user. A value that is no text cannot be stripped. -/
def sshUser : Option Scalar → Option String
  | some (.str s) => if Text.strip s = "" then none else some (Text.strip s)
  | _ => none

def sshAuth (host : SshHost) (creds : Entry) : Auth :=
  let password := creds.getD "ssh_password" (.str "")
  let key := creds.getD "ssh_key" (.str "")
  let keyPath := creds.getD "key_path" (.str "")
  if password.truthy then .password password
  else if key.truthy then .privateKey key
  else if keyPath.truthy then .keyFile keyPath
  else if Text.given host.key then .keyFile (.str (host.key.getD ""))
  else .default

/-- The connection that is opened, `none` when there is no SSH user. -/
def connect (host : SshHost) (creds : Entry) : Option Connection :=
  (sshUser host.user).map fun username =>
    ⟨host.host, host.port.getD (.int 22), username, sshAuth host creds⟩

end Connect

section Contexts

variable (env : Surroundings) (config : Config) (store : Store)

/-- The path of a stored key file name. A value that is no text has none. -/
def keyPath : Scalar → Option String
  | .str name => env.resolveKeyPath name
  | _ => none

/-- The resolved path of a key, `some none` when no key is stored. -/
def storedKeyPath (sshKey : Scalar) : Option (Option String) :=
  if sshKey.truthy then (keyPath env sshKey).map some else some none

/-- The credentials for a Proxmox node: `fields`, the password, and the key file. -/
def nodeLogin (fields : Entry) (sshPassword : Scalar) (path : Option String) : Entry :=
  let sshCreds := fields.set "ssh_password" sshPassword
  match path with
  | some path => sshCreds.set "key_path" (.str path)
  | none => sshCreds

/-- The address and the credentials for reaching the guests of a server. -/
def guestLogin (server : Block × Entry) (address : String) : Option (String × Entry) := do
  let (pxCfg, pxCreds) := server
  let hostname ← env.urlHostname (pxCfg.url.getD "")
  let path ← storedKeyPath env (pxCreds.getD "ssh_key" (.str ""))
  let fields := ((∅ : Entry).set "user" (pxCreds.getD "ssh_user" (.str "root"))).set
    "port" (pxCreds.getD "ssh_port" (.int 22))
  some (Text.orElse hostname address, nodeLogin fields (pxCreds.getD "ssh_password" (.str "")) path)

/-- The address and the credentials for reaching an LXC through its node. -/
def lxcSshContext (host : HostEntry) : Option (String × Entry) :=
  guestLogin env (serverContext config store host) host.host

/-- The address and the credentials for reaching a node itself. -/
def nodeSshContext (host : HostEntry) : Option (SshHost × Entry) := do
  let (_, pxCreds) := serverContext config store host
  let sshUser := pxCreds.getD "ssh_user" (.str "")
  let sshPort := pxCreds.getD "ssh_port" (.str "")
  let user := if sshUser.truthy then sshUser else .str "root"
  let port := if sshPort.truthy then sshPort else .int 22
  let path ← storedKeyPath env (pxCreds.getD "ssh_key" (.str ""))
  some (⟨host.host, some user, some port, none⟩,
    nodeLogin ((∅ : Entry).set "user" user) (pxCreds.getD "ssh_password" (.str "")) path)

/-- The connection over which a command runs in an LXC, for a check as for an upgrade. -/
def pctConnect (sshHost : String) (sshCreds : Entry) : Option Connection :=
  if (sshCreds.getD "key_path" (.str "")).truthy = false ∧
      (sshCreds.getD "ssh_password" (.str "")).truthy = false then none
  else connect ⟨sshHost, some (sshCreds.getD "user" (.str "root")),
    some (sshCreds.getD "port" (.int 22)), none⟩ sshCreds

end Contexts

end Keepup
