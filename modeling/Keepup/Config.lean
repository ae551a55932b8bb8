import Keepup.Text

/-!
The configuration file: hosts under slugs derived from their names, Proxmox
servers under ids, and one block for every other integration. A key that is
absent and a key with the value null are the same here, as they are for the
`get` calls of the code.
-/

namespace Keepup

/-- The lower case of a character, up to characters that no slug keeps. -/
def lowerChar (c : Char) : List Char :=
  if c.toNat = 0x212a then ['k'] else if c.toNat = 0x130 then ['i'] else [c.toLower]

def isSlugChar (c : Char) : Bool := c.isLower || c.isDigit || c == '-'

def collapseDashes : List Char → List Char
  | [] => []
  | [c] => [c]
  | c :: d :: cs => if c = '-' ∧ d = '-' then collapseDashes (d :: cs)
      else c :: collapseDashes (d :: cs)

def slugChars (name : List Char) : List Char :=
  let lowered := name.flatMap lowerChar
  let dashed := lowered.map fun c => if c = ' ' ∨ c = '_' then '-' else c
  let kept := collapseDashes (dashed.filter isSlugChar)
  Text.dropEndWhile (· == '-') (kept.dropWhile (· == '-'))

def slugify (name : String) : String := String.ofList (slugChars name.toList)

theorem collapseDashes_subset (cs : List Char) : collapseDashes cs ⊆ cs := by
  induction cs using collapseDashes.induct with
  | case1 => simp [collapseDashes]
  | case2 c => simp [collapseDashes]
  | case3 c d cs hdash ih =>
      rw [collapseDashes, if_pos hdash]
      exact List.subset_cons_of_subset c ih
  | case4 c d cs hdash ih =>
      rw [collapseDashes, if_neg hdash]
      exact List.cons_subset_cons c ih

theorem slugify_chars (name : String) : ∀ c ∈ (slugify name).toList, isSlugChar c = true := by
  intro c hc
  simp only [slugify, slugChars, Text.dropEndWhile, String.toList_ofList, List.mem_reverse] at hc
  have hkept := (List.dropWhile_sublist _).subset hc
  rw [List.mem_reverse] at hkept
  have hmem := collapseDashes_subset _ ((List.dropWhile_sublist _).subset hkept)
  exact (List.mem_filter.mp hmem).2

/-- The `auto_update` settings of a host. -/
structure AutoUpdate where
  osEnabled : Bool := false
  osSchedule : Option String := none
  autoReboot : Bool := false
deriving DecidableEq

/-- A host entry. -/
structure HostEntry where
  name : String
  host : String
  user : Option String := none
  port : Option Int := none
  key : Option String := none
  dockerMode : Option String := none
  dockerContainers : Option (List String) := none
  dockerStacks : Option (List String) := none
  proxmoxNode : Option String := none
  proxmoxVmid : Option Int := none
  proxmoxType : Option String := none
  proxmoxServer : Option String := none
  autoUpdate : Option AutoUpdate := none
deriving DecidableEq

def HostEntry.slug (h : HostEntry) : String := slugify h.name

/-- What the block of an integration with an address holds. -/
structure Block where
  url : Option String := none
  verifySsl : Option Bool := none
  pinnedCertPem : Option String := none
  pinnedFingerprint : Option String := none
deriving DecidableEq

/-- One of the Proxmox servers. -/
structure ProxmoxServer extends Block where
  id : String
deriving DecidableEq

structure EmailBlock where
  senderName : String
  senderAddress : String
  recipientAddress : String
  smtpHost : String
  smtpPort : Int
  tls : Bool
deriving DecidableEq

/-- The hosts and the integrations of the configuration. `proxmox` is the block
from before there could be more than one server. -/
structure Config where
  hosts : List HostEntry := []
  proxmox : Option Block := none
  proxmoxServers : Option (List ProxmoxServer) := none
  proxmoxBackup : Option Block := none
  opnsense : Option Block := none
  pfsense : Option Block := none
  homeassistant : Option Block := none
  portainer : Option Block := none
  dockerhub : Option String := none
  pushover : Option Bool := none
  email : Option EmailBlock := none
deriving DecidableEq

namespace Config

variable (config : Config)

/-- The hosts, without placeholders that were never filled in. -/
def getHosts : List HostEntry := config.hosts.filter fun h => !Text.isIn "XXX" h.host

def findHost (slug : String) : Option HostEntry := config.getHosts.find? fun h => h.slug == slug

def getProxmoxServers : List ProxmoxServer := config.proxmoxServers.getD []

def getProxmoxServer (serverId : String) : Option ProxmoxServer :=
  config.getProxmoxServers.find? fun s => s.id == serverId

/-- The old block when there is one, else the first server. -/
def getProxmoxConfig : Block :=
  match config.proxmox with
  | some legacy =>
      if legacy = {} then (config.getProxmoxServers.head?.map ProxmoxServer.toBlock).getD {}
        else legacy
  | none => (config.getProxmoxServers.head?.map ProxmoxServer.toBlock).getD {}

end Config

end Keepup
